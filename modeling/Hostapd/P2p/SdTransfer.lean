import Hostapd.Lib.Pull
import Hostapd.P2p.SdFrames

/-!
# A response of service discovery goes over

A device that has sent a query and the one that answers it, with the frames on the way between them.
Frames are not lost and keep their order, and every one of them may be delivered again.

* **`Exchange`** is the state of the two, **`Exchange.step`** a step: the upper layer answers a
  query, or a frame is delivered.
* **`Sim`** relates an exchange to a `Pull` of `pieces tlvs` parts; **`Sim.step`**: the two go
  together as long as no fragment but the last one is delivered again to a device that waits
  (`NoRepeat`).
* **`response_transferred`**: then the upper layer gets the response, once.
-/

namespace Hostapd.P2p.Sd

open Hostapd.Lib

/-! ## The two devices -/

/-- A device that asks, one that answers, and what is on the way. `asked` is how often the upper
layer of the second one has still to answer. `calls` is what the upper layer of the first one has
been given, and `rounds` the Comeback Responses that reached the first device, while it was waiting,
since the Initial Response. -/
structure Exchange where
  query : SdData
  resp : SdData
  toQuery : List Bytes
  toResp : List Bytes
  asked : ℕ
  calls : List (MacAddr × UInt16 × Bytes)
  rounds : ℕ
  deriving DecidableEq

/-- What happens; `keep` says that the frame is going to be delivered again. -/
inductive ExchangeEvent
  | answer
  | toResp (keep : Bool)
  | toQuery (keep : Bool)
  deriving DecidableEq

/-- The two addresses, the dialog token of the query and the response. -/
structure Query where
  queryAddr : MacAddr
  respAddr : MacAddr
  dialogToken : UInt8
  tlvs : Bytes

def sentTo (dst : MacAddr) (out : List SdOutput) : List Bytes :=
  out.filterMap fun o =>
    match o with
    | .sendAction addr frame => if addr = dst then some frame else none
    | _ => none

def responses (out : List SdOutput) : List (MacAddr × UInt16 × Bytes) :=
  out.filterMap fun o =>
    match o with
    | .sdResponse sa updateIndic tlvs => some (sa, updateIndic, tlvs)
    | _ => none

def Waits (p2p : SdData) (addr : MacAddr) : Prop :=
  p2p.state = .sdDuringFind ∧ p2p.sdPeer = some addr

instance (p2p : SdData) (addr : MacAddr) : Decidable (Waits p2p addr) :=
  inferInstanceAs (Decidable (_ ∧ _))

/-- The rounds after a frame has reached a device that waits. -/
def roundsAfter (rounds : ℕ) (frame : Bytes) : ℕ :=
  if frame.getD 1 0 = paGasInitialResp then 0
  else if frame.getD 1 0 = paGasComebackResp then rounds + 1
  else rounds

section Exchange

variable (q : Query)

def Exchange.afterQuery (x : Exchange) (frame : Bytes) (r : SdResult) : Exchange :=
  { x with
    query := r.1
    toResp := x.toResp ++ sentTo q.respAddr r.2
    calls := x.calls ++ responses r.2
    rounds := if Waits x.query q.respAddr then roundsAfter x.rounds frame else x.rounds }

def Exchange.afterResp (x : Exchange) (r : SdResult) : Exchange :=
  { x with resp := r.1, toQuery := x.toQuery ++ sentTo q.queryAddr r.2 }

def Exchange.step (x : Exchange) : ExchangeEvent → Exchange
  | .answer =>
    if x.asked = 0 then x
    else
      { x with asked := x.asked - 1 }.afterResp q
        (sdResponse x.resp q.queryAddr q.dialogToken q.tlvs)
  | .toResp keep =>
    match x.toResp with
    | [] => x
    | frame :: rest =>
      let x := if keep then x else { x with toResp := rest }
      match rxAction x.resp q.queryAddr frame with
      | .ok r => x.afterResp q r
      | .error _ => x
  | .toQuery keep =>
    match x.toQuery with
    | [] => x
    | frame :: rest =>
      let x := if keep then x else { x with toQuery := rest }
      match rxAction x.query q.respAddr frame with
      | .ok r => x.afterQuery q frame r
      | .error _ => x

/-- The device that asks waits, and the upper layer of the other one has been given its query: once,
or several times, as that has been delivered again. -/
def Exchange.initial (query resp : SdData) (again : ℕ) : Exchange :=
  ⟨query, resp, [], [], again + 1, [], 0⟩

def isMoreFragment (frame : Bytes) : Bool :=
  frame.getD 1 0 = paGasComebackResp && (frame.getD 5 0 &&& 0x80) >>> 7 ≠ 0

/-- No fragment but the last one is delivered again to a device that waits. -/
def NoRepeat (x : Exchange) : ExchangeEvent → Prop
  | .toQuery true =>
    ∀ frame, x.toQuery.head? = some frame →
      ¬ (isMoreFragment frame = true ∧ Waits x.query q.respAddr)
  | _ => True

/-- The steps that can happen and deliver nothing again. -/
def Exchange.Effective (x : Exchange) : ExchangeEvent → Prop
  | .answer => 0 < x.asked
  | .toResp keep => keep = false ∧ x.toResp ≠ []
  | .toQuery keep => keep = false ∧ x.toQuery ≠ []

end Exchange

/-! ## The parts of a response -/

/-- The rounds that a response takes: none if it fits the Initial Response. -/
def pieces (tlvs : Bytes) : ℕ :=
  if fragLen < tlvs.length then (tlvs.length + (fragLen - 1)) / fragLen else 0

def piece (tlvs : Bytes) (i : ℕ) : Bytes := (tlvs.drop (i * fragLen)).take fragLen

section Pieces

variable {tlvs : Bytes} {i : ℕ}

theorem pieces_of_le (h : tlvs.length ≤ fragLen) : pieces tlvs = 0 := if_neg (Nat.not_lt.mpr h)

theorem lt_pieces_iff (h : fragLen < tlvs.length) : i < pieces tlvs ↔ i * fragLen < tlvs.length := by
  rw [pieces, if_pos h]
  simp only [fragLen]
  omega

theorem take_append_piece : tlvs.take (i * fragLen) ++ piece tlvs i =
    tlvs.take ((i + 1) * fragLen) := by
  rw [piece, Nat.succ_mul, List.take_add]

theorem take_pieces (h : fragLen < tlvs.length) : tlvs.take (pieces tlvs * fragLen) = tlvs := by
  refine List.take_of_length_le ?_
  have := (lt_pieces_iff (i := pieces tlvs) h).not.mp (Nat.lt_irrefl _)
  omega

end Pieces

/-! ## The frames of a transfer -/

section Frames

variable (q : Query) (updateIndic : UInt16)

def frameOf : Part → Bytes
  | .start =>
    if pieces q.tlvs = 0 then
      buildSdResponse q.dialogToken statusSuccess 0 updateIndic (some q.tlvs)
    else buildSdResponse q.dialogToken statusSuccess 1 updateIndic none
  | .part i =>
    buildGasComebackResp q.dialogToken statusSuccess updateIndic (piece q.tlvs i) (UInt8.ofNat i)
      (decide (i + 1 < pieces q.tlvs)) q.tlvs.length

variable {q updateIndic}

theorem more_bit {i : ℕ} (hi : i < 128) (more : Bool) :
    ((UInt8.ofNat i ||| (if more then 0x80 else 0)) &&& 0x80) >>> 7 ≠ 0 ↔ more = true := by
  have hall : ∀ i : Fin 128, ∀ more : Bool,
      ((UInt8.ofNat i ||| (if more then 0x80 else 0)) &&& 0x80) >>> 7 ≠ 0 ↔ more = true := by
    decide +kernel
  exact hall ⟨i, hi⟩ more

theorem fragId_eq_zero {i : ℕ} (hi : i < 128) : UInt8.ofNat i = 0 ↔ i = 0 := by
  rw [← UInt8.toNat_inj, UInt8.toNat_ofNat', Nat.mod_eq_of_lt (by omega)]
  rfl

theorem pieces_lt (h : q.tlvs.length ≤ maxReassembly) : pieces q.tlvs < 128 := by
  by_cases hfrag : fragLen < q.tlvs.length
  · rw [pieces, if_pos hfrag]
    simp only [fragLen, maxReassembly] at h ⊢
    omega
  · rw [pieces, if_neg hfrag]
    omega

theorem le_fragLen_of_pieces (h : pieces q.tlvs = 0) : q.tlvs.length ≤ fragLen := by
  by_contra hlt
  have hpos := (lt_pieces_iff (i := 0) (Nat.not_le.mp hlt)).mpr (by omega)
  omega

theorem fragLen_lt_of_pieces (h : pieces q.tlvs ≠ 0) : fragLen < q.tlvs.length :=
  Nat.not_le.mp fun hle => h (pieces_of_le hle)

section Receiving

variable {p2p : SdData}

theorem rxAction_frameOf_of_not_waits (h : ¬ Waits p2p q.respAddr) (m : Part) :
    rxAction p2p q.respAddr (frameOf q updateIndic m) = .ok (p2p, []) := by
  have hnot : p2p.state ≠ .sdDuringFind ∨ p2p.sdPeer ≠ some q.respAddr := not_and_or.mp h
  cases m with
  | start =>
    unfold frameOf
    split_ifs
    · exact if_pos hnot
    · exact if_pos hnot
  | part i => exact if_pos hnot

theorem rxAction_whole (hw : Waits p2p q.respAddr) (h : pieces q.tlvs = 0) :
    rxAction p2p q.respAddr (frameOf q updateIndic .start) =
      .ok ((answered p2p q.respAddr updateIndic q.tlvs).1,
        [.sendActionDone, .clearTimeout] ++ (answered p2p q.respAddr updateIndic q.tlvs).2) := by
  have hnot : ¬ (p2p.state ≠ .sdDuringFind ∨ p2p.sdPeer ≠ some q.respAddr) := by
    rintro (h | h)
    · exact h hw.1
    · exact h hw.2
  have hlen : 10 + q.tlvs.length < 2 ^ 16 := by
    have hle := le_fragLen_of_pieces h
    simp only [fragLen] at hle
    omega
  rw [frameOf, if_pos h, buildSdResponse_eq]
  change rxGasInitialResp p2p q.respAddr _ = _
  rw [rxGasInitialResp, if_neg hnot, readInitialResp_build q.dialogToken hlen]
  rfl

theorem rxAction_start (hw : Waits p2p q.respAddr) (h : pieces q.tlvs ≠ 0) :
    rxAction p2p q.respAddr (frameOf q updateIndic .start) =
      .ok ({ p2p with sdRxResp := none }, [.sendActionDone, .clearTimeout,
        .sendAction q.respAddr (buildGasComebackReq q.dialogToken)]) := by
  have hnot : ¬ (p2p.state ≠ .sdDuringFind ∨ p2p.sdPeer ≠ some q.respAddr) := by
    rintro (h | h)
    · exact h hw.1
    · exact h hw.2
  rw [frameOf, if_neg h, buildSdResponse_eq]
  change rxGasInitialResp p2p q.respAddr _ = _
  rw [rxGasInitialResp, if_neg hnot, readInitialResp_build_comeback q.dialogToken]
  rfl

structure Holds (q : Query) (updateIndic : UInt16) (p2p : SdData) (g : ℕ) : Prop where
  rxResp : p2p.sdRxResp = if g = 0 then none else some (q.tlvs.take (g * fragLen))
  indic : g ≠ 0 → p2p.sdRxUpdateIndic = updateIndic

theorem rxAction_part (hlen : q.tlvs.length ≤ maxReassembly) (hw : Waits p2p q.respAddr) {g : ℕ}
    (hg : g < pieces q.tlvs) (hheld : Holds q updateIndic p2p g) :
    ∃ resp : ComebackResp, resp.dialogToken = q.dialogToken ∧
      (resp.more = true ↔ g + 1 < pieces q.tlvs) ∧
      p2p.sdRxResp.getD [] ++ resp.data = q.tlvs.take ((g + 1) * fragLen) ∧
      resp.updateIndic.getD p2p.sdRxUpdateIndic = updateIndic ∧
      rxAction p2p q.respAddr (frameOf q updateIndic (.part g)) =
        .ok ((addFragment p2p q.respAddr resp).1,
          [.sendActionDone, .clearTimeout] ++ (addFragment p2p q.respAddr resp).2) := by
  have hnot : ¬ (p2p.state ≠ .sdDuringFind ∨ p2p.sdPeer ≠ some q.respAddr) := by
    rintro (h | h)
    · exact h hw.1
    · exact h hw.2
  have hfrag : fragLen < q.tlvs.length := fragLen_lt_of_pieces (Nat.ne_zero_of_lt hg)
  have hg128 : g < 128 := hg.trans (pieces_lt hlen)
  have hpos : g * fragLen < q.tlvs.length := (lt_pieces_iff hfrag).mp hg
  have hpiece : (piece q.tlvs g).length ≤ 1400 := List.length_take_le _ _
  have hne : piece q.tlvs g ≠ [] := by
    rw [← List.length_pos_iff, piece, List.length_take, List.length_drop]
    simp only [fragLen] at hpos ⊢
    omega
  have hmore := (more_bit hg128 (decide (g + 1 < pieces q.tlvs))).trans decide_eq_true_iff
  have htake := @take_append_piece q.tlvs g
  rw [frameOf, buildGasComebackResp_eq]
  change ∃ resp : ComebackResp, _ ∧ _ ∧ _ ∧ _ ∧ rxGasComebackResp p2p q.respAddr _ = _
  rw [rxGasComebackResp, if_neg hnot]
  by_cases hg0 : g = 0
  · have hrx : p2p.sdRxResp = none := by rw [hheld.rxResp, if_pos hg0]
    have htotal : 10 + q.tlvs.length < 2 ^ 16 := by
      simp only [maxReassembly] at hlen
      omega
    rw [if_pos ((fragId_eq_zero hg128).mpr hg0), hrx, Option.isSome_none,
      readComebackResp_build_first q.dialogToken _ htotal (by omega)]
    refine ⟨_, ?_, ?_, ?_, ?_, rfl⟩
    · rfl
    · simpa using hmore
    · rw [← htake, hg0]
      simp
    · rfl
  · have hrx : p2p.sdRxResp = some (q.tlvs.take (g * fragLen)) := by
      rw [hheld.rxResp, if_neg hg0]
    rw [if_neg ((fragId_eq_zero hg128).not.mpr hg0), hrx, Option.isSome_some, List.nil_append,
      readComebackResp_build_next q.dialogToken _ hne (by omega)]
    refine ⟨_, ?_, ?_, ?_, ?_, rfl⟩
    · rfl
    · simpa using hmore
    · exact htake
    · exact hheld.indic hg0

end Receiving

section Sending

variable {p2p : SdData}

/-- What a device that answers keeps when so many pieces have been sent. -/
structure Serves (q : Query) (p2p : SdData) (i : ℕ) : Prop where
  addr : p2p.sdRespAddr = q.queryAddr
  token : p2p.sdRespDialogToken = q.dialogToken
  resp : p2p.sdResp = if i < pieces q.tlvs then some q.tlvs else none
  pos : i < pieces q.tlvs → p2p.sdRespPos = i * fragLen
  fragId : i < pieces q.tlvs → p2p.sdFragId = UInt8.ofNat i

theorem rxAction_req_of_sent {i : ℕ} (h : Serves q p2p i) (hi : ¬ i < pieces q.tlvs) :
    rxAction p2p q.queryAddr (buildGasComebackReq q.dialogToken) = .ok (p2p, []) := by
  have hresp : p2p.sdResp = none := by rw [h.resp, if_neg hi]
  change rxGasComebackReq p2p q.queryAddr [q.dialogToken] = _
  simp only [rxGasComebackReq, h.token, hresp, ne_eq, not_true_eq_false, if_false]

theorem rxAction_req {i : ℕ} (h : Serves q p2p i) (hi : i < pieces q.tlvs) :
    ∃ p2p', Serves q p2p' (i + 1) ∧ p2p'.srvUpdateIndic = p2p.srvUpdateIndic ∧
      rxAction p2p q.queryAddr (buildGasComebackReq q.dialogToken) =
        .ok (p2p', [.sendAction q.queryAddr (frameOf q p2p.srvUpdateIndic (.part i))]) := by
  have hfrag : fragLen < q.tlvs.length := fragLen_lt_of_pieces (Nat.ne_zero_of_lt hi)
  have hpos : i * fragLen < q.tlvs.length := (lt_pieces_iff hfrag).mp hi
  have hresp : p2p.sdResp = some q.tlvs := by rw [h.resp, if_pos hi]
  have hmore : fragLen < q.tlvs.length - i * fragLen ↔ i + 1 < pieces q.tlvs := by
    rw [lt_pieces_iff hfrag, Nat.succ_mul]
    omega
  have htake : (q.tlvs.drop (i * fragLen)).take
      (if i + 1 < pieces q.tlvs then fragLen else q.tlvs.length - i * fragLen) =
        piece q.tlvs i := by
    split_ifs with hlast
    · rfl
    · have hle : (q.tlvs.drop (i * fragLen)).length ≤ fragLen := by
        rw [List.length_drop]
        exact Nat.not_lt.mp (hmore.not.mpr hlast)
      rw [piece, List.take_of_length_le hle, List.take_of_length_le (List.length_drop).le]
  have hrx : rxAction p2p q.queryAddr (buildGasComebackReq q.dialogToken) =
      .ok ({ p2p with
          sdFragId := UInt8.ofNat i + 1
          sdRespPos := i * fragLen +
            if i + 1 < pieces q.tlvs then fragLen else q.tlvs.length - i * fragLen
          sdResp := if i + 1 < pieces q.tlvs then some q.tlvs else none },
        [.sendAction q.queryAddr (frameOf q p2p.srvUpdateIndic (.part i))]) := by
    change rxGasComebackReq p2p q.queryAddr [q.dialogToken] = _
    simp only [rxGasComebackReq, h.token, hresp, h.addr, h.pos hi, h.fragId hi, hmore, htake,
      decide_eq_true_iff, ne_eq, not_true_eq_false, if_false]
    rfl
  refine ⟨_, ?_, ?_, hrx⟩
  · exact
      { addr := h.addr
        token := h.token
        resp := rfl
        pos := fun hlast => by simp [hlast, Nat.succ_mul]
        fragId := fun _ => (UInt8.ofNat_add i 1).symm }
  · rfl

end Sending

/-! ## The exchange and its parts -/

/-- The exchange `x` is at `s`. -/
structure Sim (q : Query) (updateIndic : UInt16) (x : Exchange) (s : Pull) : Prop where
  toQuery : x.toQuery = s.parts.map (frameOf q updateIndic)
  toResp : x.toResp = List.replicate s.asks (buildGasComebackReq q.dialogToken)
  asked : x.asked = s.due
  indic : x.resp.srvUpdateIndic = updateIndic
  serves : pieces q.tlvs ≠ 0 → ∀ i, s.pos = some i → Serves q x.resp i
  waits : ¬ s.Done (pieces q.tlvs) → Waits x.query q.respAddr ∧ x.calls = []
  holds : ¬ s.Done (pieces q.tlvs) → ∀ g, s.got = some g →
    Holds q updateIndic x.query g ∧ x.rounds = g
  done : s.Done (pieces q.tlvs) → ¬ Waits x.query q.respAddr ∧
    x.calls = [(q.respAddr, updateIndic, q.tlvs)] ∧ x.rounds = pieces q.tlvs

/-- The step of the parts that belongs to a step of the exchange. -/
def pullEvent : ExchangeEvent → PullEvent
  | .answer => .begin
  | .toResp keep => .ask keep
  | .toQuery keep => .part keep

variable {x : Exchange} {s : Pull}

theorem sim_initial {query resp : SdData} (hw : Waits query q.respAddr) (again : ℕ) :
    Sim q resp.srvUpdateIndic (.initial query resp again) ⟨again + 1, none, none, [], 0⟩ where
  toQuery := rfl
  toResp := rfl
  asked := rfl
  indic := rfl
  serves _ _ h := nomatch h
  waits _ := ⟨hw, rfl⟩
  holds _ _ h := nomatch h
  done h := nomatch h

theorem Sim.begin (h : Sim q updateIndic x s) :
    Sim q updateIndic (x.step q .answer) (s.step (pieces q.tlvs) .begin) := by
  unfold Exchange.step Pull.step
  dsimp only
  rw [h.asked]
  by_cases hdue : s.due = 0
  · rw [if_pos hdue, if_pos hdue]
    exact h
  · rw [if_neg hdue, if_neg hdue]
    by_cases hfrag : fragLen < q.tlvs.length
    · have hpieces : pieces q.tlvs ≠ 0 := fun h0 => Nat.not_lt.mpr (le_fragLen_of_pieces h0) hfrag
      rw [sdResponse, if_pos hfrag]
      exact
        { toQuery := by
            simp [Exchange.afterResp, sentTo, Pull.begin, h.toQuery, frameOf, hpieces, h.indic]
          toResp := h.toResp
          asked := rfl
          indic := h.indic
          serves := fun _ i hi => by
            cases hi
            exact ⟨rfl, rfl, (if_pos (Nat.pos_of_ne_zero hpieces)).symm,
              fun _ => (Nat.zero_mul _).symm, fun _ => rfl⟩
          waits := h.waits
          holds := h.holds
          done := h.done }
    · have hpieces : pieces q.tlvs = 0 := pieces_of_le (Nat.not_lt.mp hfrag)
      rw [sdResponse, if_neg hfrag]
      exact
        { toQuery := by
            simp [Exchange.afterResp, sentTo, Pull.begin, h.toQuery, frameOf, hpieces, h.indic]
          toResp := h.toResp
          asked := rfl
          indic := h.indic
          serves := fun hne => absurd hpieces hne
          waits := h.waits
          holds := h.holds
          done := h.done }

theorem Sim.request (h : Sim q updateIndic x s) (hs : s.Sound (pieces q.tlvs)) (keep : Bool) :
    Sim q updateIndic (x.step q (.toResp keep)) (s.step (pieces q.tlvs) (.ask keep)) := by
  unfold Exchange.step Pull.step
  dsimp only
  cases hasks : s.asks with
  | zero => simpa [h.toResp, hasks] using h
  | succ n =>
    have hcons : x.toResp = buildGasComebackReq q.dialogToken ::
        List.replicate n (buildGasComebackReq q.dialogToken) := by
      rw [h.toResp, hasks]
      rfl
    have hne : pieces q.tlvs ≠ 0 := fun h0 => by simp [hs.whole h0] at hasks
    obtain ⟨i, hpos⟩ : ∃ i, s.pos = some i := by
      refine Option.ne_none_iff_exists'.mp fun hn => ?_
      simp [(hs.waiting hn).2.2.2] at hasks
    -- the exchange and the parts without the request, if it is not going to be delivered again
    obtain ⟨y, t, hy, ht, hsim, hyresp, htpos⟩ : ∃ (y : Exchange) (t : Pull),
        y = (if keep then x else
          { x with toResp := List.replicate n (buildGasComebackReq q.dialogToken) }) ∧
        t = (if keep then s else { s with asks := s.asks - 1 }) ∧
        Sim q updateIndic y t ∧ y.resp = x.resp ∧ t.pos = some i := by
      cases keep
      · refine ⟨_, _, rfl, rfl, ?_, rfl, hpos⟩
        exact { h with toResp := by simp [hasks] }
      · exact ⟨_, _, rfl, rfl, h, rfl, hpos⟩
    have hserves : Serves q y.resp i := hsim.serves hne i htpos
    rw [hcons]
    dsimp only
    rw [← hy, ← hasks, ← ht, if_neg (by rw [hasks]; exact n.succ_ne_zero), Pull.asked, htpos]
    dsimp only
    by_cases hi : i < pieces q.tlvs
    · obtain ⟨p2p', hserves', hindic', hrx⟩ := rxAction_req hserves hi
      rw [hrx, if_pos hi]
      exact
        { toQuery := by
            simp [Exchange.afterResp, sentTo, hsim.toQuery, hsim.indic]
          toResp := hsim.toResp
          asked := hsim.asked
          indic := hindic'.trans hsim.indic
          serves := fun _ j hj => by
            cases hj
            exact hserves'
          waits := hsim.waits
          holds := hsim.holds
          done := hsim.done }
    · rw [rxAction_req_of_sent hserves hi, if_neg hi]
      simpa [Exchange.afterResp, sentTo] using hsim

theorem roundsAfter_start (n : ℕ) : roundsAfter n (frameOf q updateIndic .start) = 0 := by
  unfold frameOf
  split_ifs <;> rfl

theorem roundsAfter_part (n i : ℕ) :
    roundsAfter n (frameOf q updateIndic (.part i)) = n + 1 := rfl

theorem Sim.complete (h : Sim q updateIndic x s) (hdone : ¬ s.Done (pieces q.tlvs))
    {frame : Bytes} {query : SdData} {out : List SdOutput}
    (hquery : ¬ Waits query q.respAddr)
    (hout : responses out = [(q.respAddr, updateIndic, q.tlvs)]) (hsent : sentTo q.respAddr out = [])
    (hrounds : roundsAfter x.rounds frame = pieces q.tlvs) :
    Sim q updateIndic (x.afterQuery q frame (query, out))
      (s.reach (pieces q.tlvs) (pieces q.tlvs)) := by
  have hw := h.waits hdone
  have hreach : (s.reach (pieces q.tlvs) (pieces q.tlvs)).Done (pieces q.tlvs) := rfl
  exact
    { toQuery := h.toQuery
      toResp := by
        simp only [Exchange.afterQuery, Pull.reach, hsent, List.append_nil, Nat.lt_irrefl, if_false]
        exact h.toResp
      asked := h.asked
      indic := h.indic
      serves := h.serves
      waits := fun hn => absurd hreach hn
      holds := fun hn => absurd hreach hn
      done := fun _ => by
        refine ⟨hquery, ?_, ?_⟩
        · simp only [Exchange.afterQuery, hw.2, hout, List.nil_append]
        · simp only [Exchange.afterQuery, if_pos hw.1, hrounds] }

theorem Sim.advance (h : Sim q updateIndic x s) (hdone : ¬ s.Done (pieces q.tlvs))
    {frame : Bytes} {query : SdData} {out : List SdOutput} {g : ℕ} (hg : g < pieces q.tlvs)
    (hquery : Waits query q.respAddr) (hholds : Holds q updateIndic query g)
    (hout : responses out = [])
    (hsent : sentTo q.respAddr out = [buildGasComebackReq q.dialogToken])
    (hrounds : roundsAfter x.rounds frame = g) :
    Sim q updateIndic (x.afterQuery q frame (query, out)) (s.reach (pieces q.tlvs) g) := by
  have hw := h.waits hdone
  have hreach : ¬ (s.reach (pieces q.tlvs) g).Done (pieces q.tlvs) := fun hd =>
    Nat.ne_of_lt hg (Option.some.inj hd)
  exact
    { toQuery := h.toQuery
      toResp := by
        simp only [Exchange.afterQuery, Pull.reach, hsent, if_pos hg, h.toResp,
          List.replicate_succ']
      asked := h.asked
      indic := h.indic
      serves := h.serves
      waits := fun _ => ⟨hquery, by simp only [Exchange.afterQuery, hw.2, hout, List.nil_append]⟩
      holds := fun _ g' hg' => by
        cases hg'
        exact ⟨hholds, by simp only [Exchange.afterQuery, if_pos hw.1, hrounds]⟩
      done := fun hd => absurd hd hreach }

theorem Sim.receive (hlen : q.tlvs.length ≤ maxReassembly) (h : Sim q updateIndic x s) {m : Part}
    (hm : ¬ s.Done (pieces q.tlvs) → ∀ i, m = .part i → s.got = some i ∧ i < pieces q.tlvs) :
    ∃ r, rxAction x.query q.respAddr (frameOf q updateIndic m) = .ok r ∧
      Sim q updateIndic (x.afterQuery q (frameOf q updateIndic m) r)
        (s.receive (pieces q.tlvs) m) := by
  by_cases hdone : s.Done (pieces q.tlvs)
  · have hd := h.done hdone
    refine ⟨_, rxAction_frameOf_of_not_waits hd.1 m, ?_⟩
    rw [Pull.receive_of_done hdone]
    simpa [Exchange.afterQuery, sentTo, responses, hd.1] using h
  · have hw := (h.waits hdone).1
    cases m with
    | start =>
      rw [Pull.receive_start hdone]
      by_cases hpieces : pieces q.tlvs = 0
      · refine ⟨_, rxAction_whole hw hpieces, ?_⟩
        have hreach : s.reach (pieces q.tlvs) 0 = s.reach (pieces q.tlvs) (pieces q.tlvs) := by
          rw [hpieces]
        rw [hreach]
        exact h.complete hdone (fun hq => nomatch hq.2) rfl rfl
          ((roundsAfter_start _).trans hpieces.symm)
      · exact ⟨_, rxAction_start hw hpieces, h.advance hdone (Nat.pos_of_ne_zero hpieces) hw
          ⟨rfl, fun h0 => absurd rfl h0⟩ rfl (by simp [sentTo]) (roundsAfter_start _)⟩
    | part i =>
      obtain ⟨hgot, hi⟩ := hm hdone i rfl
      obtain ⟨hheld, hrounds⟩ := h.holds hdone i hgot
      obtain ⟨resp, htoken, hmore, hdata, hindic, hrx⟩ := rxAction_part hlen hw hi hheld
      rw [Pull.receive_part hdone hgot]
      refine ⟨_, hrx, ?_⟩
      have hfrag : fragLen < q.tlvs.length := fragLen_lt_of_pieces (Nat.ne_zero_of_lt hi)
      have hafter : roundsAfter x.rounds (frameOf q updateIndic (.part i)) = i + 1 := by
        rw [roundsAfter_part, hrounds]
      unfold addFragment
      rw [hdata, hindic]
      by_cases hnext : i + 1 < pieces q.tlvs
      · have hshort : ¬ maxReassembly < (q.tlvs.take ((i + 1) * fragLen)).length := by
          rw [List.length_take]
          omega
        simp only [hmore.mpr hnext, if_true, if_neg hshort, htoken]
        refine h.advance hdone hnext hw ⟨?_, fun _ => rfl⟩ ?_ ?_ hafter
        · rw [if_neg i.succ_ne_zero]
        · rfl
        · simp [sentTo]
      · have hlast : i + 1 = pieces q.tlvs := Nat.le_antisymm hi (Nat.not_lt.mp hnext)
        have hwhole : q.tlvs.take ((i + 1) * fragLen) = q.tlvs := by
          rw [hlast, take_pieces hfrag]
        simp only [hmore.not.mpr hnext, hwhole]
        rw [hlast] at hafter ⊢
        exact h.complete hdone (fun hq => nomatch hq.2) rfl rfl hafter

theorem Sim.deliver (hlen : q.tlvs.length ≤ maxReassembly) (h : Sim q updateIndic x s)
    (hs : s.Sound (pieces q.tlvs)) (keep : Bool) :
    Sim q updateIndic (x.step q (.toQuery keep)) (s.step (pieces q.tlvs) (.part keep)) := by
  unfold Exchange.step Pull.step
  dsimp only
  cases hparts : s.parts with
  | nil => simpa [h.toQuery, hparts] using h
  | cons m rest =>
    have hcons : x.toQuery = frameOf q updateIndic m :: rest.map (frameOf q updateIndic) := by
      rw [h.toQuery, hparts]
      rfl
    have hm : ¬ s.Done (pieces q.tlvs) → ∀ i, m = .part i →
        s.got = some i ∧ i < pieces q.tlvs := by
      rintro hdone i rfl
      have hfeeds := hs.feeds hdone
      rw [hparts] at hfeeds
      exact ⟨hfeeds.of_part.1, hfeeds.of_part.2.1⟩
    rw [hcons]
    cases keep
    · have hsim : Sim q updateIndic { x with toQuery := rest.map (frameOf q updateIndic) }
          { s with parts := rest } := { h with toQuery := rfl }
      obtain ⟨r, hr, hreceive⟩ := hsim.receive hlen hm
      simp only [Bool.false_eq_true, if_false]
      simp only at hr
      rw [hr]
      exact hreceive
    · obtain ⟨r, hr, hreceive⟩ := h.receive hlen hm
      simp only [if_true]
      rw [hr]
      exact hreceive

theorem isMoreFragment_frameOf {i : ℕ} (hi : i < 128) :
    isMoreFragment (frameOf q updateIndic (.part i)) = true ↔ i + 1 < pieces q.tlvs := by
  have hfrag : isMoreFragment (frameOf q updateIndic (.part i)) =
      decide (((UInt8.ofNat i ||| (if decide (i + 1 < pieces q.tlvs) then 0x80 else 0)) &&& 0x80)
        >>> 7 ≠ 0) := rfl
  rw [hfrag, decide_eq_true_iff, more_bit hi, decide_eq_true_iff]

variable {e : ExchangeEvent}

theorem Sim.once (hlen : q.tlvs.length ≤ maxReassembly) (h : Sim q updateIndic x s)
    (hs : s.Sound (pieces q.tlvs)) (he : NoRepeat q x e) :
    s.Once (pieces q.tlvs) (pullEvent e) := by
  cases e with
  | answer => trivial
  | toResp keep => trivial
  | toQuery keep =>
    cases keep with
    | false => trivial
    | true =>
      intro i hi
      refine or_iff_not_imp_left.mpr fun hdone => ?_
      obtain ⟨rest, hparts⟩ : ∃ rest, s.parts = .part i :: rest := List.head?_eq_some_iff.mp hi
      have hfeeds := hs.feeds hdone
      rw [hparts] at hfeeds
      have hlt : i < pieces q.tlvs := hfeeds.of_part.2.1
      have hnot := he (frameOf q updateIndic (.part i)) (by rw [h.toQuery, hparts]; rfl)
      have hlast : ¬ i + 1 < pieces q.tlvs := fun hmore =>
        hnot ⟨(isMoreFragment_frameOf (hlt.trans (pieces_lt hlen))).mpr hmore, (h.waits hdone).1⟩
      omega

theorem Sim.step (hlen : q.tlvs.length ≤ maxReassembly) (h : Sim q updateIndic x s)
    (hs : s.Sound (pieces q.tlvs)) (e : ExchangeEvent) :
    Sim q updateIndic (x.step q e) (s.step (pieces q.tlvs) (pullEvent e)) := by
  cases e with
  | answer => exact h.begin
  | toResp keep => exact h.request hs keep
  | toQuery keep => exact h.deliver hlen hs keep

theorem Sim.effective (h : Sim q updateIndic x s) (he : x.Effective e) :
    s.Effective (pullEvent e) := by
  cases e with
  | answer =>
    have hdue : 0 < x.asked := he
    change 0 < s.due
    rwa [← h.asked]
  | toResp keep =>
    refine ⟨he.1, Nat.pos_of_ne_zero fun h0 => he.2 ?_⟩
    rw [h.toResp, h0]
    rfl
  | toQuery keep =>
    refine ⟨he.1, fun hnil => he.2 ?_⟩
    rw [h.toQuery, hnil]
    rfl

theorem NoRepeat.of_effective (he : x.Effective e) : NoRepeat q x e := by
  cases e with
  | answer => trivial
  | toResp keep => trivial
  | toQuery keep =>
    obtain ⟨rfl, -⟩ := he
    trivial

theorem Sim.length_le (hlen : q.tlvs.length ≤ maxReassembly) (h : Sim q updateIndic x s)
    (hs : s.Sound (pieces q.tlvs)) {l : List ExchangeEvent}
    (hl : Along (Exchange.step q) Exchange.Effective x l) :
    l.length ≤ s.weight (pieces q.tlvs) := by
  induction l generalizing x s with
  | nil => exact Nat.zero_le _
  | cons e l ih =>
    have hlt := @Pull.weight_step_lt (pieces q.tlvs) _ _ (h.effective hl.1)
    have hrest := ih (h.step hlen hs e) (hs.step (h.once hlen hs (.of_effective hl.1))) hl.2
    exact (Nat.succ_le_succ hrest).trans hlt

end Frames

theorem exists_sim (q : Query) (hlen : q.tlvs.length ≤ maxReassembly) {query resp : SdData}
    (hw : Waits query q.respAddr) (again : ℕ) {l : List ExchangeEvent}
    (hl : Along (Exchange.step q) (NoRepeat q) (.initial query resp again) l) :
    ∃ s : Pull, Sim q resp.srvUpdateIndic
      (run (Exchange.step q) (.initial query resp again) l) s ∧ s.Sound (pieces q.tlvs) := by
  refine hl.run_inv (I := fun x => ∃ s : Pull, Sim q resp.srvUpdateIndic x s ∧
    s.Sound (pieces q.tlvs)) ?_ ⟨_, sim_initial hw again, Pull.sound_initial⟩
  rintro x e ⟨s, h, hs⟩ he
  exact ⟨_, h.step hlen hs e, hs.step (h.once hlen hs he)⟩

def waiting (addr : MacAddr) : SdData :=
  ⟨.sdDuringFind, some addr, none, [], 0, none, 0, 0, 0, 0, none, 0⟩

def longQuery : Query := ⟨1, 2, 0, List.replicate 1401 7⟩

def shortQuery : Query := ⟨1, 2, 0, [7]⟩

/-- The exchange of the long response in which its first fragment is delivered again. -/
def repeatedExchange : Exchange :=
  run (Exchange.step longQuery) (.initial (waiting 2) (waiting 0) 0)
    [.answer, .toQuery false, .toResp false, .toQuery true, .toQuery false, .toResp false,
      .toResp false, .toQuery false]

def shortExchange : Exchange :=
  run (Exchange.step shortQuery) (.initial (waiting 2) (waiting 0) 0) [.answer, .toQuery false]

end Hostapd.P2p.Sd
