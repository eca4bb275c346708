import Hostapd.P2p.Events

/-!
# Foreign frames in a GO negotiation

While the module negotiates, frames come in that are not part of the negotiation: a GO Negotiation
Response or Confirm with another dialog token, and a GO Negotiation Request from another device.

* **`Undisturbed`**: what the module expects next is as before.
* **`foreign_undisturbed_iff`**: this is so exactly if the frame is stopped before the handler
  writes (`Ignores`). Both flags are cleared before the dialog token is compared, the pending TX
  status is given up even before the frame is parsed, and the answer to another device is recorded
  in the same variable as the answer to the peer. A request can also push the peer's entry out of
  a full table.
-/

namespace Hostapd.P2p

open Hostapd.Lib

/-! ## What the module expects -/

/-- What the module expects next of the negotiation with `dev` is the same in both states. -/
structure Undisturbed (dev : ℕ) (p q : P2pData) : Prop where
  goNegPeer : q.goNegPeer = p.goNegPeer
  waitGoNegResponse : (q.mem dev).flags.waitGoNegResponse = (p.mem dev).flags.waitGoNegResponse
  waitGoNegConfirm : (q.mem dev).flags.waitGoNegConfirm = (p.mem dev).flags.waitGoNegConfirm
  dialogToken : (q.mem dev).dialogToken = (p.mem dev).dialogToken
  goState : (q.mem dev).goState = (p.mem dev).goState
  opRegClass : q.opRegClass = p.opRegClass
  opChannel : q.opChannel = p.opChannel
  pendingActionState : q.pendingActionState = p.pendingActionState

/-- A frame that does not belong to the negotiation with `dev`. -/
inductive Foreign (p2p : P2pData) (dev : ℕ) : Input → Prop
  | response {sa : MacAddr} {msg : P2pMessage} {rxFreq : ℤ}
      (htoken : msg.dialogToken ≠ (p2p.mem dev).dialogToken) :
      Foreign p2p dev (.goNegResp sa (some msg) rxFreq)
  | confirm {sa : MacAddr} {msg : P2pMessage}
      (htoken : msg.dialogToken ≠ (p2p.mem dev).dialogToken) :
      Foreign p2p dev (.goNegConf sa (some msg))
  | request {sa : MacAddr} {msg : Option P2pMessage} {rxFreq : ℤ}
      (hsa : sa ≠ (p2p.mem dev).info.deviceAddr) : Foreign p2p dev (.goNegReq sa msg rxFreq)

/-- A request is answered: it can be parsed, and there are memory and a channel for the answer. -/
def Answered (env : Env) (p2p : P2pData) (msg : Option P2pMessage) (rxFreq : ℤ) : Prop :=
  msg.isSome ∧ env.frame = true ∧ (answerFreq p2p rxFreq).isSome

/-- A request makes the module look for the entry of its sender. -/
def LooksUp (sa : MacAddr) (msg : Option P2pMessage) : Prop :=
  ∃ m ∈ msg, ∃ attrs ∈ goNegReqAttrs m, attrs.deviceAddr = sa ∧ m.status.getD 0 = 0

/-- A new entry for `addr` takes the place of `dev`. -/
def Displaces (p2p : P2pData) (addr : MacAddr) (dev : ℕ) : Prop :=
  p2p.getDevice addr = none ∧ p2p.cfg.maxPeers < p2p.devices.length + 1 ∧ oldest p2p = some dev

/-- A frame is stopped before the handler writes what concerns the negotiation with `dev`. -/
def Ignores (env : Env) (p2p : P2pData) (dev : ℕ) : Input → Prop
  | .goNegResp sa _ _ =>
    goNegPeerOf p2p sa = some dev → (p2p.mem dev).flags.waitGoNegResponse = false
  | .goNegConf sa _ =>
    goNegPeerOf p2p sa = some dev →
      (p2p.mem dev).flags.waitGoNegConfirm = false ∧ p2p.pendingActionState ≠ .goNegResponse
  | .goNegReq sa msg rxFreq =>
    (Answered env p2p msg rxFreq → p2p.pendingActionState = .goNegResponseFailure) ∧
      ¬ (LooksUp sa msg ∧ Displaces p2p sa dev)
  | _ => True

/-! ## Frame lemmas -/

/-- Nothing that concerns the negotiation with `dev` has changed. -/
structure Keeps (dev : ℕ) (p q : P2pData) : Prop where
  cfg : q.cfg = p.cfg
  goNegPeer : q.goNegPeer = p.goNegPeer
  mem : q.mem dev = p.mem dev
  opRegClass : q.opRegClass = p.opRegClass
  opChannel : q.opChannel = p.opChannel
  pendingActionState : q.pendingActionState = p.pendingActionState

namespace Keeps

variable {dev : ℕ} {p q r : P2pData}

theorem refl (p : P2pData) : Keeps dev p p := ⟨rfl, rfl, rfl, rfl, rfl, rfl⟩

theorem trans (h : Keeps dev p q) (h' : Keeps dev q r) : Keeps dev p r :=
  ⟨h'.cfg.trans h.cfg, h'.goNegPeer.trans h.goNegPeer, h'.mem.trans h.mem,
    h'.opRegClass.trans h.opRegClass, h'.opChannel.trans h.opChannel,
    h'.pendingActionState.trans h.pendingActionState⟩

theorem undisturbed (h : Keeps dev p q) : Undisturbed dev p q where
  goNegPeer := h.goNegPeer
  waitGoNegResponse := by rw [h.mem]
  waitGoNegConfirm := by rw [h.mem]
  dialogToken := by rw [h.mem]
  goState := by rw [h.mem]
  opRegClass := h.opRegClass
  opChannel := h.opChannel
  pendingActionState := h.pendingActionState

variable {d : ℕ}

theorem modify (hd : d ≠ dev) (f : P2pDevice → P2pDevice) : Keeps dev p (p.modify d f) :=
  ⟨rfl, rfl, Function.update_of_ne hd.symm _ _, rfl, rfl, rfl⟩

theorem setFlags (hd : d ≠ dev) (f : DevFlags → DevFlags) :
    Keeps dev p (p.setFlags d f) := modify hd _

theorem emit (o : Out) : Keeps dev p (p.emit o) := ⟨rfl, rfl, rfl, rfl, rfl, rfl⟩

theorem fault (bad : Bool) (e : MemError) : Keeps dev p (p.fault bad e) := by
  cases bad
  · exact refl p
  · exact ⟨rfl, rfl, rfl, rfl, rfl, rfl⟩

theorem sendAction (env : Env) (freq : ℤ) (dst : MacAddr) (frame : Frame) :
    Keeps dev p (sendAction env p freq dst frame).1 := by
  unfold P2p.sendAction
  split_ifs
  · exact ⟨rfl, rfl, rfl, rfl, rfl, rfl⟩
  · exact ⟨rfl, rfl, rfl, rfl, rfl, rfl⟩
  · exact ⟨rfl, rfl, rfl, rfl, rfl, rfl⟩
  · exact refl p

theorem copyWpsInfo (hd : d ≠ dev) (probeReq : Bool) (msg : P2pMessage) :
    Keeps dev p (copyWpsInfo p d probeReq msg) :=
  (modify hd _).trans (fault _ _)

theorem reportDevInfo (hd : d ≠ dev) (addr : MacAddr) :
    Keeps dev p (reportDevInfo p addr d) := by
  unfold P2p.reportDevInfo
  dsimp only
  split_ifs
  · exact setFlags hd _
  · exact ((setFlags hd _).trans (emit _)).trans (setFlags hd _)

theorem addDevInfo (hd : d ≠ dev) (env : Env) (addr : MacAddr) (msg : P2pMessage) :
    Keeps dev p (addDevInfo env p addr d msg) := by
  unfold P2p.addDevInfo
  refine trans ?_ (reportDevInfo hd addr)
  have hcopy := (modify (p := p) hd fun d => { d with lastSeen := env.clock 0 }).trans
    (copyWpsInfo hd false msg)
  split
  · exact hcopy
  · exact hcopy.trans (modify hd _)

theorem removeDevice {o : ℕ} (hpeer : p.goNegPeer = some dev) (ho : o ≠ dev) :
    Keeps dev p (removeDevice p o) := by
  refine ⟨rfl, if_neg ?_, rfl, rfl, rfl, rfl⟩
  rw [hpeer]
  exact fun heq => ho (Option.some.inj heq).symm

end Keeps

section Requests

variable {env : Env} {p : P2pData} {dev : ℕ}

theorem createDevice_keeps (hpeer : p.goNegPeer = some dev) (hdev : dev ∈ p.devices)
    {addr : MacAddr} (hget : p.getDevice addr = none) (hroom : ¬ Displaces p addr dev)
    (block : Option ℕ) : Keeps dev p (createDevice p addr block).1 ∧
      (createDevice p addr block).2 ≠ some dev := by
  have hmake : Keeps dev p (makeRoom p) ∧ dev ∈ (makeRoom p).devices := by
    unfold makeRoom
    split_ifs with hfull
    · cases ho : oldest p with
      | none => exact ⟨Keeps.refl p, hdev⟩
      | some o =>
        have hne : o ≠ dev := fun heq => hroom ⟨hget, hfull, heq ▸ ho⟩
        exact ⟨Keeps.removeDevice hpeer hne, (List.mem_erase_of_ne hne.symm).mpr hdev⟩
    · exact ⟨Keeps.refl p, hdev⟩
  unfold createDevice
  rw [hget]
  dsimp only
  cases hz : zallocDevice (makeRoom p) block with
  | none => exact ⟨hmake.1, by simp⟩
  | some b =>
    have hb : b ∉ (makeRoom p).devices := by
      have := (Option.filter_eq_some_iff.mp hz).2
      simpa using this
    have hne : b ≠ dev := fun heq => hb (heq ▸ hmake.2)
    refine ⟨hmake.1.trans ⟨rfl, rfl, Function.update_of_ne hne.symm _ _, rfl, rfl, rfl⟩, ?_⟩
    simpa using hne

theorem createDevice_goNegPeer_of_displaces (hpeer : p.goNegPeer = some dev) {addr : MacAddr}
    (h : Displaces p addr dev) (block : Option ℕ) :
    (createDevice p addr block).1.goNegPeer = none ∧
      ∀ d ∈ (createDevice p addr block).2,
        ((createDevice p addr block).1.mem d).wpsMethod = .notReady := by
  obtain ⟨hget, hfull, ho⟩ := h
  have hmake : (makeRoom p).goNegPeer = none := by
    unfold makeRoom
    rw [if_pos hfull, ho]
    exact if_pos hpeer
  unfold createDevice
  rw [hget]
  dsimp only
  cases zallocDevice (makeRoom p) block with
  | none => exact ⟨hmake, by simp⟩
  | some b =>
    refine ⟨hmake, ?_⟩
    intro d hd
    obtain rfl : b = d := by simpa using hd
    simp [P2pDevice.zero]

variable {sa : MacAddr}

theorem ne_of_getDevice (hsa : sa ≠ (p.mem dev).info.deviceAddr) :
    p.getDevice sa ≠ some dev := by
  intro h
  have := List.find?_some h
  exact hsa (by simpa [eq_comm] using this)

theorem goNegReqDevice_keeps (env : Env) (hpeer : p.goNegPeer = some dev) (hdev : dev ∈ p.devices)
    (hsa : sa ≠ (p.mem dev).info.deviceAddr) (hroom : ¬ Displaces p sa dev)
    (msg : P2pMessage) : Keeps dev p (goNegReqDevice env p sa msg).1 ∧
      (goNegReqDevice env p sa msg).2 ≠ some dev := by
  unfold goNegReqDevice
  cases hget : p.getDevice sa with
  | some d =>
    have hne : d ≠ dev := fun heq => ne_of_getDevice hsa (heq ▸ hget)
    dsimp only
    split_ifs
    · exact ⟨Keeps.addDevInfo hne env sa msg, by simpa using hne⟩
    · exact ⟨Keeps.refl p, by simpa using hne⟩
  | none =>
    have hnew := createDevice_keeps hpeer hdev hget hroom (env.block 0)
    dsimp only
    unfold addDevFromGoNegReq
    rw [hget]
    dsimp only
    cases hc : createDevice p sa (env.block 0) with
    | mk q o =>
      rw [hc] at hnew
      cases o with
      | none => exact hnew
      | some d =>
        have hne : d ≠ dev := by simpa using hnew.2
        exact ⟨hnew.1.trans (Keeps.addDevInfo hne env sa msg), hnew.2⟩

variable {o : Option ℕ}

theorem judgeGoNegReq_keeps (env : Env) (hpeer : p.goNegPeer = some dev) (ho : o ≠ some dev)
    (sa : MacAddr) (msg : P2pMessage) (attrs : GoNegReqAttrs) (rxFreq : ℤ) :
    Keeps dev p (judgeGoNegReq env p o sa msg attrs rxFreq).1 ∧
      ∃ status ≠ scSuccess, (judgeGoNegReq env p o sa msg attrs rxFreq).2 = some status := by
  unfold judgeGoNegReq
  cases o with
  | none => exact ⟨Keeps.emit _, _, by decide, rfl⟩
  | some d =>
    have hne : d ≠ dev := by simpa using ho
    dsimp only
    split_ifs with hrej hready hother
    · exact ⟨Keeps.refl p, _, by decide, rfl⟩
    · exact ⟨(Keeps.setFlags hne _).trans (Keeps.emit _), _, by decide, rfl⟩
    · exact ⟨Keeps.refl p, _, by decide, rfl⟩
    · refine absurd ⟨by rw [hpeer]; rfl, ?_⟩ hother
      rw [hpeer]
      exact fun heq => hne (Option.some.inj heq).symm

def pendingBehind (env : Env) (p : P2pData) (rxFreq : ℤ) : PendingAction :=
  if env.frame = true ∧ (answerFreq p rxFreq).isSome then .goNegResponseFailure
  else p.pendingActionState

theorem answerGoNegReq_keeps (env : Env) (ho : o ≠ some dev) (sa : MacAddr) (msg : P2pMessage)
    {status : UInt8} (hstatus : status ≠ scSuccess) (rxFreq : ℤ) :
    Keeps dev (p.pend (pendingBehind env p rxFreq))
      (answerGoNegReq env p o sa msg status rxFreq) := by
  have hkeep : Keeps dev p (recordStatus p o status) := by
    cases o with
    | none => exact Keeps.refl p
    | some d => exact Keeps.modify (by simpa using ho) fun e => { e with status := status }
  have hfreq : answerFreq (recordStatus p o status) rxFreq = answerFreq p rxFreq := by
    unfold answerFreq
    rw [hkeep.cfg]
  unfold answerGoNegReq
  dsimp only
  rw [hfreq]
  generalize recordStatus p o status = q at hkeep ⊢
  by_cases hframe : env.frame = true
  · rw [if_neg (by simp [hframe])]
    cases hanswer : answerFreq p rxFreq with
    | none =>
      have hpending : pendingBehind env p rxFreq = p.pendingActionState :=
        if_neg (by simp [hanswer])
      rw [hpending]
      exact ⟨hkeep.cfg, hkeep.goNegPeer, hkeep.mem, hkeep.opRegClass, hkeep.opChannel,
        hkeep.pendingActionState⟩
    | some freq =>
      have hpending : pendingBehind env p rxFreq = .goNegResponseFailure :=
        if_pos ⟨hframe, by rw [hanswer]; rfl⟩
      have hawait : awaitConfirm q o status = q.pend .goNegResponseFailure := if_neg hstatus
      rw [hpending]
      dsimp only
      rw [hawait]
      refine Keeps.trans ?_ (Keeps.sendAction env freq sa _)
      exact ⟨hkeep.cfg, hkeep.goNegPeer, hkeep.mem, hkeep.opRegClass, hkeep.opChannel, rfl⟩
  · have hpending : pendingBehind env p rxFreq = p.pendingActionState :=
      if_neg fun h => hframe h.1
    rw [hpending, if_pos (by simpa using hframe)]
    exact ⟨hkeep.cfg, hkeep.goNegPeer, hkeep.mem, hkeep.opRegClass, hkeep.opChannel,
      hkeep.pendingActionState⟩

theorem processGoNegReq_keeps (env : Env) (hpeer : p.goNegPeer = some dev) (hdev : dev ∈ p.devices)
    (hsa : sa ≠ (p.mem dev).info.deviceAddr) (msg : P2pMessage) (rxFreq : ℤ)
    (hroom : ¬ (LooksUp sa (some msg) ∧ Displaces p sa dev)) :
    Keeps dev (p.pend (pendingBehind env p rxFreq))
      (processGoNegReq env p sa (some msg) rxFreq) := by
  unfold processGoNegReq
  dsimp only
  cases hattrs : goNegReqAttrs msg with
  | none => exact answerGoNegReq_keeps env (by simp) sa msg (by decide) rxFreq
  | some attrs =>
    dsimp only
    split_ifs with haddr hstatus
    · exact answerGoNegReq_keeps env (by simp) sa msg (by decide) rxFreq
    · exact answerGoNegReq_keeps env (ne_of_getDevice hsa) sa msg (by decide) rxFreq
    · have hlooks : LooksUp sa (some msg) :=
        ⟨msg, rfl, attrs, hattrs, not_ne_iff.mp haddr, not_ne_iff.mp hstatus⟩
      have hdevice := goNegReqDevice_keeps env hpeer hdev hsa
        (fun h => hroom ⟨hlooks, h⟩) msg
      generalize goNegReqDevice env p sa msg = r at hdevice
      obtain ⟨q, o⟩ := r
      have hjudge := judgeGoNegReq_keeps env (hdevice.1.goNegPeer.trans hpeer) hdevice.2
        sa msg attrs rxFreq
      dsimp only at hjudge ⊢
      generalize judgeGoNegReq env q o sa msg attrs rxFreq = r' at hjudge
      obtain ⟨q', o'⟩ := r'
      obtain ⟨hkeep, status, hfail, rfl⟩ := hjudge
      have hall := hdevice.1.trans hkeep
      refine Keeps.trans ?_ (answerGoNegReq_keeps env hdevice.2 sa msg hfail rxFreq)
      have hpending : pendingBehind env q' rxFreq = pendingBehind env p rxFreq := by
        unfold pendingBehind answerFreq
        rw [hall.cfg, hall.pendingActionState]
      exact ⟨hall.cfg, hall.goNegPeer, hall.mem, hall.opRegClass, hall.opChannel, hpending⟩

theorem judgeGoNegReq_of_notReady (env : Env) {q : P2pData}
    (ho : ∀ d ∈ o, (q.mem d).wpsMethod = .notReady) (sa : MacAddr) (msg : P2pMessage)
    (attrs : GoNegReqAttrs) (rxFreq : ℤ) :
    (judgeGoNegReq env q o sa msg attrs rxFreq).1.goNegPeer = q.goNegPeer ∧
      ∃ status ≠ scSuccess, (judgeGoNegReq env q o sa msg attrs rxFreq).2 = some status := by
  unfold judgeGoNegReq
  cases o with
  | none => exact ⟨rfl, _, by decide, rfl⟩
  | some d =>
    dsimp only
    rw [if_pos (ho d rfl)]
    split_ifs
    · exact ⟨rfl, _, by decide, rfl⟩
    · exact ⟨rfl, _, by decide, rfl⟩

theorem addDevInfo_wpsMethod (q : P2pData) (addr : MacAddr) (d : ℕ) (msg : P2pMessage) :
    ((addDevInfo env q addr d msg).mem d).wpsMethod = (q.mem d).wpsMethod := by
  unfold addDevInfo reportDevInfo copyWpsInfo
  cases msg.listenChannel.bind ChannelAttr.freq with
  | none =>
    dsimp only
    split_ifs <;> simp [P2pData.modify, P2pData.setFlags, P2pData.emit, P2pData.fault]
  | some freq =>
    dsimp only
    split_ifs <;> simp [P2pData.modify, P2pData.setFlags, P2pData.emit, P2pData.fault]

theorem processGoNegReq_goNegPeer_of_displaces (env : Env) (hpeer : p.goNegPeer = some dev)
    (msg : P2pMessage) (rxFreq : ℤ) (hlooks : LooksUp sa (some msg)) (hdis : Displaces p sa dev) :
    (processGoNegReq env p sa (some msg) rxFreq).goNegPeer = none := by
  obtain ⟨m, hm, attrs, hattrs, haddr, hstatus⟩ := hlooks
  obtain rfl : msg = m := Option.some.inj hm
  have hdevice : (goNegReqDevice env p sa msg).1.goNegPeer = none ∧
      ∀ d ∈ (goNegReqDevice env p sa msg).2,
        ((goNegReqDevice env p sa msg).1.mem d).wpsMethod = .notReady := by
    unfold goNegReqDevice addDevFromGoNegReq
    rw [hdis.1]
    dsimp only
    have hnew := createDevice_goNegPeer_of_displaces hpeer hdis (env.block 0)
    generalize createDevice p sa (env.block 0) = r at hnew
    obtain ⟨q, o⟩ := r
    cases o with
    | none => exact ⟨hnew.1, by simp⟩
    | some d =>
      have hkeep := Keeps.addDevInfo (p := q) (Nat.ne_of_lt d.lt_succ_self) env sa msg
      refine ⟨hkeep.goNegPeer.trans hnew.1, ?_⟩
      intro d' hd'
      obtain rfl : d = d' := by simpa using hd'
      exact (addDevInfo_wpsMethod q sa d msg).trans (hnew.2 d rfl)
  unfold processGoNegReq
  dsimp only
  rw [hattrs]
  dsimp only
  rw [if_neg (not_not_intro haddr), if_neg (not_not_intro hstatus)]
  generalize goNegReqDevice env p sa msg = r at hdevice
  obtain ⟨q, o⟩ := r
  have hjudge := judgeGoNegReq_of_notReady env hdevice.2 sa msg attrs rxFreq
  dsimp only at hjudge ⊢
  generalize judgeGoNegReq env q o sa msg attrs rxFreq = r' at hjudge
  obtain ⟨q', o'⟩ := r'
  obtain ⟨hkeep, status, hfail, rfl⟩ := hjudge
  obtain ⟨n, hn⟩ : ∃ n, o ≠ some n := by
    cases o with
    | none => exact ⟨0, by simp⟩
    | some d => exact ⟨d + 1, by simp⟩
  have hanswer := answerGoNegReq_keeps env (p := q') hn sa msg hfail rxFreq
  exact hanswer.goNegPeer.trans (hkeep.trans hdevice.1)

end Requests

/-! ## The three frames -/

section Frames

variable {env : Env} {p : P2pData} {dev : ℕ}

variable {sa : MacAddr}

theorem goNegPeerOf_eq_some {d : ℕ} (hpeer : p.goNegPeer = some dev)
    (h : goNegPeerOf p sa = some d) : d = dev := by
  have := (Option.filter_eq_some_iff.mp h).2
  simp only [hpeer, decide_eq_true_eq, Option.some.injEq] at this
  exact this.2.symm

theorem response_undisturbed_iff (hpeer : p.goNegPeer = some dev)
    {msg : P2pMessage} {rxFreq : ℤ} (htoken : msg.dialogToken ≠ (p.mem dev).dialogToken) :
    Undisturbed dev p (processGoNegResp env p sa (some msg) rxFreq) ↔
      (goNegPeerOf p sa = some dev → (p.mem dev).flags.waitGoNegResponse = false) := by
  unfold processGoNegResp
  cases hof : goNegPeerOf p sa with
  | none => exact iff_of_true (Keeps.refl p).undisturbed (by simp)
  | some d =>
    obtain rfl := goNegPeerOf_eq_some hpeer hof
    dsimp only
    cases hwait : (p.mem d).flags.waitGoNegResponse with
    | false => exact iff_of_true (Keeps.refl p).undisturbed (by simp)
    | true =>
      rw [if_neg (by simp), if_pos (by simpa [P2pData.setFlags, P2pData.modify] using htoken)]
      refine iff_of_false ?_ (by simp)
      intro h
      have hcleared := h.waitGoNegResponse
      simp [P2pData.setFlags, P2pData.modify, hwait] at hcleared

theorem confirm_undisturbed_iff (hpeer : p.goNegPeer = some dev)
    {msg : P2pMessage} (htoken : msg.dialogToken ≠ (p.mem dev).dialogToken) :
    Undisturbed dev p (processGoNegConf env p sa (some msg)) ↔
      (goNegPeerOf p sa = some dev →
        (p.mem dev).flags.waitGoNegConfirm = false ∧ p.pendingActionState ≠ .goNegResponse) := by
  unfold processGoNegConf
  cases hof : goNegPeerOf p sa with
  | none => exact iff_of_true (Keeps.refl p).undisturbed (by simp)
  | some d =>
    obtain rfl := goNegPeerOf_eq_some hpeer hof
    dsimp only
    have hmem : (giveUpTxStatus p).mem = p.mem := by
      unfold giveUpTxStatus
      split_ifs
      · rfl
      · rfl
    have htoken' : msg.dialogToken ≠
        (((giveUpTxStatus p).setFlags d fun f => { f with waitGoNegConfirm := false }).mem
          d).dialogToken := by
      simpa [P2pData.setFlags, P2pData.modify, hmem] using htoken
    rw [if_pos htoken', hmem]
    by_cases hpend : p.pendingActionState = .goNegResponse
    · refine iff_of_false ?_ (by simp [hpend])
      intro h
      have hgiven := h.pendingActionState
      unfold giveUpTxStatus at hgiven
      rw [if_pos hpend, hpend] at hgiven
      split_ifs at hgiven
      · exact absurd hgiven (by simp [P2pData.pend])
      · exact absurd hgiven (by simp [P2pData.setFlags, P2pData.modify, P2pData.pend])
    · have hsame : giveUpTxStatus p = p := if_neg hpend
      rw [hsame]
      cases hwait : (p.mem d).flags.waitGoNegConfirm with
      | false => exact iff_of_true (Keeps.refl p).undisturbed (by simp [hpend])
      | true =>
        rw [if_neg (by simp)]
        refine iff_of_false ?_ (by simp)
        intro h
        have hcleared := h.waitGoNegConfirm
        simp [P2pData.setFlags, P2pData.modify, hwait] at hcleared

theorem request_undisturbed_iff (hpeer : p.goNegPeer = some dev) (hdev : dev ∈ p.devices)
    (hsa : sa ≠ (p.mem dev).info.deviceAddr) (msg : Option P2pMessage)
    (rxFreq : ℤ) :
    Undisturbed dev p (processGoNegReq env p sa msg rxFreq) ↔
      (Answered env p msg rxFreq → p.pendingActionState = .goNegResponseFailure) ∧
        ¬ (LooksUp sa msg ∧ Displaces p sa dev) := by
  cases msg with
  | none =>
    exact iff_of_true (Keeps.refl p).undisturbed ⟨by simp [Answered], by simp [LooksUp]⟩
  | some msg =>
    by_cases hroom : LooksUp sa (some msg) ∧ Displaces p sa dev
    · refine iff_of_false ?_ fun h => h.2 hroom
      intro h
      have hgone := processGoNegReq_goNegPeer_of_displaces env hpeer msg rxFreq hroom.1
        hroom.2
      rw [h.goNegPeer, hpeer] at hgone
      exact absurd hgone (by simp)
    · have hkeep := processGoNegReq_keeps env hpeer hdev hsa msg rxFreq hroom
      have hall : Undisturbed dev p (processGoNegReq env p sa (some msg) rxFreq) ↔
          pendingBehind env p rxFreq = p.pendingActionState := by
        constructor
        · intro h
          exact hkeep.pendingActionState.symm.trans h.pendingActionState
        · intro h
          rw [h] at hkeep
          exact hkeep.undisturbed
      rw [hall, and_iff_left hroom]
      unfold pendingBehind Answered
      split_ifs with hans
      · exact ⟨fun h _ => h.symm, fun h => (h ⟨rfl, hans⟩).symm⟩
      · exact iff_of_true rfl fun h => absurd h.2 hans

end Frames

/-- **Foreign frames.** While the module negotiates with `dev`, a frame that does not belong to the
negotiation leaves what the module expects next as it was exactly if it is stopped before the
handler writes. -/
theorem foreign_undisturbed_iff (env : Env) {p2p : P2pData} {dev : ℕ} {a : Input}
    (hpeer : p2p.goNegPeer = some dev) (hdev : dev ∈ p2p.devices) (ha : Foreign p2p dev a) :
    Undisturbed dev p2p (input env p2p a) ↔ Ignores env p2p dev a := by
  cases ha with
  | response htoken => exact response_undisturbed_iff hpeer htoken
  | confirm htoken => exact confirm_undisturbed_iff hpeer htoken
  | request hsa => exact request_undisturbed_iff hpeer hdev hsa _ _

/-- The peer's answer to the request in `negotiating`, with a token. -/
def sampleResponse (token : UInt8) : P2pMessage :=
  { P2pMessage.empty with p2pAttributes := true, dialogToken := token, status := some 1 }

theorem foreign_undisturbed_iff_negotiating :
    Undisturbed 0 negotiating
        (input (sampleEnv 2 1) negotiating (.goNegResp 0x20 (some (sampleResponse 9)) 2412)) ↔
      Ignores (sampleEnv 2 1) negotiating 0 (.goNegResp 0x20 (some (sampleResponse 9)) 2412) :=
  foreign_undisturbed_iff _ (by decide +kernel) (by decide +kernel) (.response (by decide +kernel))

theorem token_mismatch_disturbs :
    let spoofed := input (sampleEnv 2 1) negotiating
      (.goNegResp 0x20 (some (sampleResponse 9)) 2412)
    let genuine := Input.goNegResp 0x20 (some (sampleResponse 1)) 2412
    negotiating.goNegPeer = some 0 ∧ 0 ∈ negotiating.devices ∧
      Foreign negotiating 0 (.goNegResp 0x20 (some (sampleResponse 9)) 2412) ∧
      ¬ Undisturbed 0 negotiating spoofed ∧
      (input (sampleEnv 2 1) negotiating genuine).state = .waitPeerIdle ∧
      (input (sampleEnv 2 1) spoofed genuine).state = .connect := by
  refine ⟨by decide +kernel, by decide +kernel, .response (by decide +kernel), ?_,
    by decide +kernel, by decide +kernel⟩
  intro h
  exact absurd h.waitGoNegResponse (by decide +kernel)

end Hostapd.P2p
