import Hostapd.Wps.Enrollee
import Hostapd.Wps.Registrar

/-!
# Messages with the nonces of another run

Every message of a WPS run carries a nonce by which the other side knows that it belongs to the
run. A message is `Foreign` if a nonce that the session has is not in it: for WSC_ACK, WSC_NACK and
WSC_Done both, for a WSC_MSG to a Registrar the Registrar Nonce, and for one to an Enrollee the
Enrollee Nonce (M2 brings the Registrar Nonce, and the messages behind it have none).

* **`Rejects`**: a failure is reported, nothing is completed or handed out, and the run does not
  go on.
* **`foreign_rejected_iff`**: a foreign message is rejected, unless its nonces agree with those of
  the session in their first octet and it is a WSC_Done for a Registrar in `RECV_DONE`, a WSC_ACK
  for an access point in `RECV_ACK` or an M2D for an Enrollee in `RECV_M2` (`FirstOctetOnly`).
  These three are checked with `memcmpNonce` only, whose length is 1.
-/

namespace Hostapd.Wps

/-- Handle a message, in the role of the run. Source: `wps_process_msg`. -/
def processMsg (cr : Crypto) (d : Draws) (op : OpCode) (msg : Bytes) (w : WpsData) :
    ProcessRes × WpsData :=
  if w.registrar then Registrar.processMsg cr d op msg w else Enrollee.processMsg cr d op msg w

def handledAs (w : WpsData) (op : OpCode) (msg : Bytes) : OpCode :=
  if w.registrar then op else Enrollee.upnpOpCode op msg

/-! ## The property -/

/-- The events that complete a run or hand a key out. -/
def Event.completes : Event → Bool
  | .success | .newPsk .. | .cred _ | .apSettings _ | .regSuccess .. => true
  | _ => false

/-- A message is rejected: a failure is reported, to the caller or with WSC_NACK, the run does not
complete, goes to no other state and hands nothing out. -/
structure Rejects (w : WpsData) (out : ProcessRes × WpsData) : Prop where
  reports : out.1 = .failure ∨ out.2.state = .sendWscNack
  not_done : out.1 ≠ .done
  stays : out.2.state = w.state ∨ out.2.state = .sendWscNack
  quiet : ∃ es, out.2.wps.events = w.wps.events ++ es ∧ ∀ e ∈ es, e.completes = false

/-- A parsed message lacks a nonce of the session, or has another one in its place. -/
def ForeignAttr (w : WpsData) (attr : ParseAttr) : OpCode → Prop
  | .msg | .upnp =>
    if w.registrar then
      attr.msgTypeCode ≠ some MsgType.m1.code ∧ attr.get .registrarNonce ≠ some w.nonceR
    else attr.get .enrolleeNonce ≠ some w.nonceE
  | .ack | .nack | .done =>
    attr.get .registrarNonce ≠ some w.nonceR ∨ attr.get .enrolleeNonce ≠ some w.nonceE
  | _ => False

def Foreign (w : WpsData) (op : OpCode) (msg : Bytes) : Prop :=
  ∃ attr, parseMsg msg = some attr ∧ ForeignAttr w attr (handledAs w op msg)

/-- The nonces that are compared are there, and agree in the first octet. -/
def agrees (w : WpsData) (attr : ParseAttr) : OpCode → Bool
  | .msg | .upnp => !nonceMismatch w.nonceE (attr.get .enrolleeNonce)
  | _ => !nonceMismatch w.nonceR (attr.get .registrarNonce) &&
    !nonceMismatch w.nonceE (attr.get .enrolleeNonce)

/-- The message is the one that its session waits for, and of those that are checked with
`memcmpNonce` only. -/
def lightlyChecked (w : WpsData) (attr : ParseAttr) : OpCode → Bool
  | .msg | .upnp =>
    !w.registrar && w.state = .recvM2 && attr.msgTypeCode = some MsgType.m2d.code
  | .ack =>
    !w.registrar && w.state = .recvAck && w.wps.ap && attr.msgTypeCode = some MsgType.wscAck.code
  | .done => w.registrar && w.state = .recvDone && attr.msgTypeCode = some MsgType.wscDone.code
  | _ => false

/-- A message has the nonces of another run and is told apart by their first octets only. -/
def FirstOctetOnly (w : WpsData) (op : OpCode) (msg : Bytes) : Prop :=
  ∃ attr, parseMsg msg = some attr ∧ ForeignAttr w attr (handledAs w op msg) ∧
    lightlyChecked w attr (handledAs w op msg) ∧ agrees w attr (handledAs w op msg)

/-! ## What is rejected -/

section Rejects

variable {w w' : WpsData} {out : ProcessRes × WpsData}

theorem rejects_failure (w : WpsData) : Rejects w (.failure, w) :=
  ⟨.inl rfl, by simp, .inl rfl, [], by simp, by simp⟩

theorem rejects_nack {res : ProcessRes} (hres : res ≠ .done) (hstate : w'.state = .sendWscNack)
    (es : List Event) (hevents : w'.wps.events = w.wps.events ++ es)
    (hes : ∀ e ∈ es, e.completes = false) : Rejects w (res, w') :=
  ⟨.inr hstate, hres, .inr hstate, es, hevents, hes⟩

theorem Rejects.report (h : Rejects w out) (type : MsgType) :
    Rejects w (reportFailure type out) := by
  obtain ⟨es, hevents, hes⟩ := h.quiet
  unfold reportFailure
  split
  · refine ⟨h.reports, h.not_done, h.stays, es ++ [.fail type out.2.configError], ?_, ?_⟩
    · simp only [WpsData.emit, hevents, List.append_assoc]
    · intro e he
      rcases List.mem_append.mp he with he | he
      · exact hes e he
      · rw [List.mem_singleton.mp he]
        rfl
  · exact h

theorem Rejects.keep (h : Rejects w out) (d : Draws) (msg : Bytes) :
    Rejects w (keepMsg d msg out) := by
  unfold keepMsg
  split
  · exact ⟨h.reports, h.not_done, h.stays, h.quiet⟩
  · exact h

theorem allOk_guard_false {test : WpsData → Bool} (h : test w = false) (checks : List Check) :
    allOk (guard test :: checks) w = (false, w) := by
  simp [allOk, guard, h]

theorem Enrollee.processStep_rejects {checks : Check} (h : (checks w).1 = false)
    (hevents : (checks w).2.wps.events = w.wps.events) (expected next : State) :
    Rejects w (Enrollee.processStep expected next checks w) := by
  unfold Enrollee.processStep
  split
  · exact rejects_nack (by simp) rfl [] (by simp) (by simp)
  · rcases hc : checks w with ⟨_ | _, w'⟩
    · rw [hc] at hevents
      exact rejects_nack (by simp) rfl [] (by simpa using hevents) (by simp)
    · simp [hc] at h

theorem Registrar.processStep_rejects {checks : Check} (h : (checks w).1 = false)
    (hevents : (checks w).2.wps.events = w.wps.events) (expected next : State) :
    Rejects w (Registrar.processStep expected next checks w) := by
  unfold Registrar.processStep
  split
  · exact rejects_nack (by simp) rfl [] (by simp) (by simp)
  · split
    · exact rejects_nack (by simp) rfl [] (by simp) (by simp)
    · rcases hc : checks w with ⟨_ | _, w'⟩
      · rw [hc] at hevents
        exact rejects_nack (by simp) rfl [] (by simpa using hevents) (by simp)
      · simp [hc] at h

end Rejects

/-! ## The messages one by one -/

theorem MsgType.code_of_ofCode {code : UInt8} {type : MsgType} (h : ofCode code = some type) :
    type.code = code := by
  simpa using List.find?_some h

variable {cr : Crypto} {d : Draws} {msg : Bytes} {w : WpsData} {attr : ParseAttr}

/-- The Registrar rejects a WSC_MSG other than M1 with a foreign Registrar Nonce: M3, M5 and M7
compare all of it. -/
theorem Registrar.processWscMsg_rejects
    (hattr : parseMsg msg = some attr)
    (htype : attr.msgTypeCode ≠ some MsgType.m1.code)
    (hnonce : attr.get .registrarNonce ≠ some w.nonceR) :
    Rejects w (processWscMsg cr d msg w) := by
  have hguard : processRegistrarNonce attr w = false := by
    simpa [processRegistrarNonce] using hnonce
  have hstep : ∀ (expected next : State) (checks : List Check),
      Rejects w (processStep expected next (allOk (authentic cr msg attr ++ checks)) w) := by
    intro expected next checks
    have hfail := allOk_guard_false hguard
      (guard (processAuthenticator cr (attr.get .authenticator) msg) :: checks)
    refine processStep_rejects ?_ ?_ expected next
    · rw [authentic, List.cons_append, List.cons_append, List.nil_append, hfail]
    · rw [authentic, List.cons_append, List.cons_append, List.nil_append, hfail]
  simp only [processWscMsg, hattr]
  rcases hcode : attr.msgTypeCode with _ | code
  · exact rejects_nack (by simp) rfl [] (by simp) (by simp)
  · simp only
    split_ifs
    · exact rejects_failure w
    · rcases htypeOf : MsgType.ofCode code with _ | type
      · exact rejects_failure w
      · cases type
        case m1 => exact absurd (by rw [hcode, MsgType.code_of_ofCode htypeOf]) htype
        case m3 => exact ((hstep _ _ _).report .m3).keep d msg
        case m5 => exact ((hstep _ _ _).report .m5).keep d msg
        case m7 => exact ((hstep _ _ _).report .m7).keep d msg
        all_goals exact rejects_failure w

theorem Registrar.processWscAck_rejects (msg : Bytes) (w : WpsData) :
    Rejects w (processWscAck msg w) := by
  unfold processWscAck
  split
  · exact rejects_failure w
  · split_ifs <;> exact rejects_failure w

theorem Registrar.processWscNack_rejects (msg : Bytes) (w : WpsData) :
    Rejects w (processWscNack msg w) := by
  have hnack : Rejects w (.failure, { w with state := .sendWscNack }) :=
    rejects_nack (by simp) rfl [] (by simp) (by simp)
  unfold processWscNack
  simp only
  split
  · exact hnack
  · split_ifs
    · exact hnack
    · exact hnack
    · exact hnack
    · split
      · exact rejects_nack (by simp) rfl _ rfl (by simp [Event.completes])
      · exact hnack

/-- The Registrar takes a WSC_Done exactly when it waits for one and the nonces agree as far as they
are compared. -/
theorem Registrar.processWscDone_eq
    (hattr : parseMsg msg = some attr) :
    processWscDone msg w =
      if w.state = .recvDone ∧ attr.msgTypeCode = some MsgType.wscDone.code ∧
          agrees w attr .done then (.done, complete w)
      else (.failure, w) := by
  simp only [processWscDone, hattr, agrees]
  split_ifs <;> simp_all

/-- An Enrollee rejects a WSC_MSG with a foreign Enrollee Nonce, unless it is an M2D that it waits
for: M2, M4, M6 and M8 compare all of it. -/
theorem Enrollee.processWscMsg_rejects
    (hattr : parseMsg msg = some attr)
    (hnonce : attr.get .enrolleeNonce ≠ some w.nonceE)
    (hm2d : w.state = .recvM2 → attr.msgTypeCode = some MsgType.m2d.code →
      nonceMismatch w.nonceE (attr.get .enrolleeNonce) = true) :
    Rejects w (processWscMsg cr d msg w) := by
  have hguard : processEnrolleeNonce attr w = false := by
    simpa [processEnrolleeNonce] using hnonce
  have hstep : ∀ (expected next : State) (checks : List Check),
      Rejects w (processStep expected next (allOk (authentic cr msg attr ++ checks)) w) := by
    intro expected next checks
    have hfail := allOk_guard_false hguard
      (guard (processAuthenticator cr (attr.get .authenticator) msg) :: checks)
    refine processStep_rejects ?_ ?_ expected next
    · rw [authentic, List.cons_append, List.cons_append, List.nil_append, hfail]
    · rw [authentic, List.cons_append, List.cons_append, List.nil_append, hfail]
  have hm2 : Rejects w (processM2 cr d msg attr w) := by
    -- M2 brings the Registrar Nonce before the Enrollee Nonce is looked at
    rcases hr : attr.get .registrarNonce with _ | nonceR
    · refine processStep_rejects ?_ ?_ _ _ <;> simp [allOk, processRegistrarNonce, hr, need]
    · have hguard' : processEnrolleeNonce attr { w with nonceR := nonceR } = false := hguard
      refine processStep_rejects ?_ ?_ _ _ <;>
        simp [allOk, processRegistrarNonce, hr, need, guard, hguard']
  simp only [processWscMsg, hattr]
  split_ifs with hmis
  · exact rejects_failure w
  · rcases hcode : attr.msgTypeCode with _ | code
    · exact rejects_nack (by simp) rfl [] (by simp) (by simp)
    · simp only
      rcases htypeOf : MsgType.ofCode code with _ | type
      · exact rejects_failure w
      · cases type
        case m2 => exact hm2.keep d msg
        case m2d =>
          simp only [processM2d]
          split_ifs with hstate
          · exact rejects_nack (by simp) rfl [] (by simp) (by simp)
          · refine absurd (hm2d (by simpa using hstate) ?_) hmis
            rw [hcode, MsgType.code_of_ofCode htypeOf]
        case m4 => exact ((hstep _ _ _).report .m4).keep d msg
        case m6 => exact ((hstep _ _ _).report .m6).keep d msg
        case m8 => exact ((hstep _ _ _).report .m8).keep d msg
        all_goals exact rejects_failure w

/-- An M2D that an Enrollee waits for moves it, if the Enrollee Nonce agrees as far as it is
compared. -/
theorem Enrollee.processWscMsg_m2d
    (hattr : parseMsg msg = some attr) (hstate : w.state = .recvM2)
    (htype : attr.msgTypeCode = some MsgType.m2d.code)
    (hnonce : nonceMismatch w.nonceE (attr.get .enrolleeNonce) = false) :
    (processWscMsg cr d msg w).2.state = .receivedM2d := by
  have hm2d : MsgType.ofCode MsgType.m2d.code = some .m2d := by decide
  simp [processWscMsg, hattr, hnonce, htype, hm2d, processM2d, hstate, WpsData.emit]

/-- An Enrollee takes a WSC_ACK exactly when it is an access point that waits for one and the nonces
agree as far as they are compared. -/
theorem Enrollee.processWscAck_eq
    (hattr : parseMsg msg = some attr) :
    processWscAck msg w =
      if (w.state = .recvAck ∧ w.wps.ap = true) ∧
          attr.msgTypeCode = some MsgType.wscAck.code ∧ agrees w attr .ack then
        (.done, { w with state := .wpsFinished }.emit .success)
      else (.failure, w) := by
  simp only [processWscAck, hattr, agrees]
  split_ifs <;> simp_all

theorem Enrollee.processWscNack_rejects (msg : Bytes) (w : WpsData) :
    Rejects w (processWscNack msg w) := by
  unfold processWscNack
  split
  · exact rejects_failure w
  · split_ifs
    · exact rejects_failure w
    · exact rejects_failure w
    · exact rejects_failure w
    · split
      · exact rejects_failure w
      · simp only
        split
        · exact rejects_nack (by simp) rfl _ rfl (by simp [Event.completes])
        · exact rejects_nack (by simp) rfl [] (by simp) (by simp)

/-! ## Both roles -/

/-- The Registrar rejects a foreign message exactly if it is not the WSC_Done it waits for with
nonces that agree in the first octet. -/
theorem Registrar.rejects_iff {op : OpCode}
    (hrole : w.registrar = true) (hattr : parseMsg msg = some attr)
    (hforeign : ForeignAttr w attr op) :
    Rejects w (processMsg cr d op msg w) ↔ ¬ (lightlyChecked w attr op ∧ agrees w attr op) := by
  cases op
  case msg =>
    simp only [ForeignAttr, hrole, if_true] at hforeign
    simp only [lightlyChecked, hrole, processMsg]
    simpa using processWscMsg_rejects hattr hforeign.1 hforeign.2
  case ack =>
    simp only [lightlyChecked, hrole, processMsg]
    simpa using processWscAck_rejects msg w
  case nack => simpa [lightlyChecked, processMsg] using processWscNack_rejects msg w
  case done =>
    simp only [lightlyChecked, hrole, processMsg, processWscDone_eq hattr, Bool.true_and,
      Bool.and_eq_true, decide_eq_true_eq]
    split_ifs with h
    · simp only [h.1, h.2.1, h.2.2, and_self, not_true_eq_false, iff_false]
      exact fun hr => hr.not_done rfl
    · have hnot : ¬ ((w.state = .recvDone ∧ attr.msgTypeCode = some MsgType.wscDone.code) ∧
          agrees w attr .done = true) := fun hall => h ⟨hall.1.1, hall.1.2, hall.2⟩
      simp only [hnot, not_false_eq_true, iff_true]
      exact rejects_nack (by simp) rfl _ rfl (by simp [Event.completes])
  case upnp =>
    simp only [lightlyChecked, hrole, processMsg]
    simpa using rejects_failure w
  all_goals simpa [lightlyChecked, processMsg] using rejects_failure w

/-- The Enrollee rejects a foreign message exactly if it is not the WSC_ACK or the M2D it waits for
with nonces that agree in the first octet. -/
theorem Enrollee.rejects_iff {op : OpCode}
    (hrole : w.registrar = false) (hattr : parseMsg msg = some attr)
    (hforeign : ForeignAttr w attr (upnpOpCode op msg)) :
    Rejects w (processMsg cr d op msg w) ↔
      ¬ (lightlyChecked w attr (upnpOpCode op msg) ∧ agrees w attr (upnpOpCode op msg)) := by
  have hmsg (hnonce : attr.get .enrolleeNonce ≠ some w.nonceE) :
      Rejects w (processWscMsg cr d msg w) ↔ ¬ ((w.state = .recvM2 ∧
        attr.msgTypeCode = some MsgType.m2d.code) ∧
          nonceMismatch w.nonceE (attr.get .enrolleeNonce) = false) := by
    constructor
    · rintro h ⟨⟨hstate, htype⟩, hagrees⟩
      have hstep : (processWscMsg cr d msg w).2.state = .receivedM2d :=
        processWscMsg_m2d hattr hstate htype hagrees
      rcases h.stays with hs | hs
      · simp [hstep, hstate] at hs
      · simp [hstep] at hs
    · intro h
      refine processWscMsg_rejects hattr hnonce fun hstate htype => ?_
      by_contra hagrees
      exact h ⟨⟨hstate, htype⟩, by simpa using hagrees⟩
  unfold processMsg
  generalize upnpOpCode op msg = op' at hforeign ⊢
  cases op'
  case msg =>
    simpa [ForeignAttr, lightlyChecked, agrees, hrole] using
      hmsg (by simpa [ForeignAttr, hrole] using hforeign)
  case upnp =>
    simpa [ForeignAttr, lightlyChecked, agrees, hrole] using
      hmsg (by simpa [ForeignAttr, hrole] using hforeign)
  case ack =>
    simp only [lightlyChecked, hrole, processWscAck_eq hattr, Bool.not_false, Bool.true_and,
      Bool.and_eq_true, decide_eq_true_eq]
    split_ifs with h
    · simp only [h.1.1, h.1.2, h.2.1, h.2.2, and_self, not_true_eq_false, iff_false]
      exact fun hr => hr.not_done rfl
    · have hnot : ¬ (((w.state = .recvAck ∧ w.wps.ap = true) ∧
          attr.msgTypeCode = some MsgType.wscAck.code) ∧ agrees w attr .ack = true) :=
        fun hall => h ⟨hall.1.1, hall.1.2, hall.2⟩
      simp only [hnot, not_false_eq_true, iff_true]
      exact rejects_failure w
  case nack => simpa [lightlyChecked] using processWscNack_rejects msg w
  case done =>
    simp only [lightlyChecked, hrole]
    simpa using rejects_failure w
  all_goals simpa [lightlyChecked] using rejects_failure w

/-- A message with the nonces of another run is rejected, in either role and in every state of the
session, exactly if it is not one of the three that are told apart by the first octet only. -/
theorem foreign_rejected_iff (cr : Crypto) (d : Draws) (op : OpCode) (msg : Bytes) (w : WpsData) :
    (Foreign w op msg → Rejects w (processMsg cr d op msg w)) ↔ ¬ FirstOctetOnly w op msg := by
  have hiff : ∀ attr, parseMsg msg = some attr → ForeignAttr w attr (handledAs w op msg) →
      (Rejects w (processMsg cr d op msg w) ↔
        ¬ (lightlyChecked w attr (handledAs w op msg) ∧ agrees w attr (handledAs w op msg))) := by
    intro attr hattr hforeign
    rcases hrole : w.registrar with _ | _
    · simp only [handledAs, processMsg, hrole] at hforeign ⊢
      exact Enrollee.rejects_iff hrole hattr hforeign
    · simp only [handledAs, processMsg, hrole] at hforeign ⊢
      exact Registrar.rejects_iff hrole hattr hforeign
  constructor
  · rintro h ⟨attr, hattr, hforeign, hlight⟩
    exact (hiff attr hattr hforeign).mp (h ⟨attr, hattr, hforeign⟩) hlight
  · rintro h ⟨attr, hattr, hforeign⟩
    exact (hiff attr hattr hforeign).mpr fun hlight => h ⟨attr, hattr, hforeign, hlight⟩

/-- A Registrar that sent M8, with nonces of ones and of twos. -/
def waitingForDone : WpsData :=
  { WpsData.zero .accessPoint with
    registrar := true
    state := .recvDone
    nonceE := List.replicate nonceLen 1
    nonceR := List.replicate nonceLen 2 }

/-- A WSC_Done whose Registrar Nonce has the first octet of this Registrar's, and no other one. -/
def doneOfAnotherRun : Bytes :=
  buildVersion ++ buildMsgType .wscDone ++ putAttr .enrolleeNonce (List.replicate nonceLen 1) ++
    putAttr .registrarNonce (2 :: List.replicate 15 9)

theorem foreign_done_completes :
    ¬ ∀ (cr : Crypto) (d : Draws) (op : OpCode) (msg : Bytes) (w : WpsData),
      Foreign w op msg → Rejects w (processMsg cr d op msg w) := by
  intro h
  have hparse : parseMsg doneOfAnotherRun = some ((parseMsg doneOfAnotherRun).getD .empty) := by
    decide +kernel
  have hforeign : Foreign waitingForDone .done doneOfAnotherRun := by
    refine ⟨_, hparse, ?_⟩
    show _ ∨ _
    decide +kernel
  refine (h .plain (.of 0 ⟨0, 0⟩) .done doneOfAnotherRun waitingForDone hforeign).not_done ?_
  decide +kernel

end Hostapd.Wps
