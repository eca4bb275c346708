import Hostapd.Ap.WpaAuth.Transcript

/-!
# The WPA authenticator: the 4-way handshake authenticates the station

The invariant of a station's machine behind the 4-way handshake, and what follows from it.

* **`Base`**: where the machine is before message 2/4 it has no valid PTK, and where it is after
  it, a valid PTK was `Selected`. A station that is to authenticate anew has no valid PTK.
* **`handshake_lifts`** says that everything a machine does keeps the invariant, and
  **`handshake_authenticates`** is what it comes to: the port is opened only to a station that has
  shown that it has the PTK, with the temporal key of that PTK.

Callers report a station to authenticate or associate before each association (`Announces`).
-/

namespace Hostapd.Ap.WpaAuth

open Hostapd.Lib

variable (S : Setup)

/-! ## The invariant -/

/-- The states of the handshake before message 2/4 has been received. -/
def PtkState.isEarly : PtkState → Bool
  | .authentication | .authentication2 | .initPmk | .initPsk | .ptkStart => true
  | _ => false

def PtkState.isNegotiating : PtkState → Bool
  | .ptkCalcNegotiating | .ptkCalcNegotiating2 | .ptkInitNegotiating => true
  | _ => false

/-- The PTK of a machine, and what its trace shows. -/
structure Base (sm : Sm) (tr : List Ev) : Prop where
  replay : Replay sm tr
  aNonce : sm.aNonce = aNonceOf tr
  reported : announced tr = true → sm.ptkValid = false
  secured : Secured S sm.addr tr
  reauth : sm.reAuthenticationRequest = true → sm.ptkValid = false
  newPtk : sm.ptkRequest = true → sm.ptkValid = false
  early : sm.wpaPtkState.isEarly = true → sm.ptkValid = false
  unverified : sm.wpaPtkState = .ptkCalcNegotiating → sm.micVerified = false → sm.ptkValid = false
  selected : sm.wpaPtkState.isNegotiating = true → sm.ptkValid = true →
    Selected S sm.addr sm.ptk tr

/-- A reply of the group key handshake is about to be handled. -/
structure GroupPending (sm : Sm) : Prop where
  init : sm.init = false
  reset : sm.ptkGroupInit = false
  group : sm.eapolKeyPairwise = false
  state : sm.wpaPtkGroupState = .rekeyNegotiating
  mic : sm.micVerified = true

/-- A reply has just been received and is about to be handled: message 2/4, message 4/4 or message
2/2. -/
structure Pending (sm : Sm) (tr : List Ev) : Prop where
  none : NoRequests sm
  reset : sm.ptkGroupInit = false
  kind : sm.eapolKeyPairwise = true ∧ sm.micVerified = false ∧
        (sm.wpaPtkState = .ptkStart ∨ sm.wpaPtkState = .ptkCalcNegotiating) ∧
        (∃ f tr', tr = .accept f :: tr' ∧ sm.lastRxEapolKey = some f ∧ sm.sNonce = f.keyNonce ∧
          msgOf f = .pairwise2) ∨
      sm.eapolKeyPairwise = true ∧ sm.micVerified = true ∧
        sm.wpaPtkState = .ptkInitNegotiating ∧ Authenticated S sm.addr sm.ptk tr ∨
      GroupPending sm

/-- A machine that has come to rest has no request left to handle. -/
structure Settled (sm : Sm) : Prop where
  none : NoRequests sm
  reset : sm.ptkGroupInit = false
  unverified : sm.wpaPtkState = .ptkCalcNegotiating → sm.micVerified = false

structure Ready (sm : Sm) (tr : List Ev) : Prop where
  base : Base S sm tr
  reply : sm.eapolKeyReceived = true → sm.eapolKeyRequest = false → Pending S sm tr

structure Calm (sm : Sm) (tr : List Ev) : Prop where
  base : Base S sm tr
  noReply : sm.eapolKeyReceived = true → sm.eapolKeyRequest = true
  settled : sm.changed = false → sm.init = false → Settled sm

/-- A machine between the steps of the two machines of a station. -/
structure Between (sm : Sm) (tr : List Ev) : Prop where
  base : Base S sm tr
  reply : sm.eapolKeyReceived = true → sm.eapolKeyRequest = false → GroupPending sm
  settled : sm.changed = false → sm.init = false →
    NoRequests sm ∧ (sm.wpaPtkState = .ptkCalcNegotiating → sm.micVerified = false)

variable {S} {sm sm' : Sm} {tr es : List Ev}

namespace Base

theorem invalid (hr : Replay sm tr) (hn : sm.aNonce = aNonceOf tr) (hs : Secured S sm.addr tr)
    (hv : sm.ptkValid = false) : Base S sm tr where
  replay := hr
  aNonce := hn
  reported _ := hv
  secured := hs
  reauth _ := hv
  newPtk _ := hv
  early _ := hv
  unverified _ _ := hv
  selected _ h := by
    rw [hv] at h
    exact Bool.noConfusion h

theorem move (h : Base S sm tr) (hes : ∀ e ∈ es, e.isPlain = true) (hr : Replay sm' (es ++ tr))
    (haddr : sm'.addr = sm.addr) (hn : sm'.aNonce = sm.aNonce) (hptk : sm'.ptk = sm.ptk)
    (hv : sm'.ptkValid = sm.ptkValid)
    (hre : sm'.reAuthenticationRequest = true → sm.reAuthenticationRequest = true)
    (hnew : sm'.ptkRequest = true → sm.ptkRequest = true)
    (hearly : sm'.wpaPtkState.isEarly = true → sm.ptkValid = false)
    (hcalc : sm'.wpaPtkState = .ptkCalcNegotiating → sm'.micVerified = false →
      sm.ptkValid = false)
    (hsel : sm'.wpaPtkState.isNegotiating = true → sm.ptkValid = true →
      Selected S sm.addr sm.ptk tr) : Base S sm' (es ++ tr) where
  replay := hr
  aNonce := by
    rw [aNonceOf_append hes, hn]
    exact h.aNonce
  reported := by
    rw [announced_append hes, hv]
    exact h.reported
  secured := by
    rw [haddr]
    exact h.secured.plain hes
  reauth hq := hv.trans (h.reauth (hre hq))
  newPtk hq := hv.trans (h.newPtk (hnew hq))
  early hst := hv.trans (hearly hst)
  unverified hst hm := hv.trans (hcalc hst hm)
  selected hst hval := by
    rw [haddr, hptk]
    exact (hsel hst (hv ▸ hval)).append (noAuth2_of_plain hes)

theorem leave (h : Base S sm tr) (hes : ∀ e ∈ es, e.isPlain = true) (hr : Replay sm' (es ++ tr))
    (haddr : sm'.addr = sm.addr) (hn : sm'.aNonce = sm.aNonce) (hptk : sm'.ptk = sm.ptk)
    (hv : sm'.ptkValid = sm.ptkValid)
    (hre : sm'.reAuthenticationRequest = sm.reAuthenticationRequest)
    (hnew : sm'.ptkRequest = sm.ptkRequest) (hearly : sm'.wpaPtkState.isEarly = false)
    (hneg : sm'.wpaPtkState.isNegotiating = false) : Base S sm' (es ++ tr) := by
  refine h.move hes hr haddr hn hptk hv (hre ▸ id) (hnew ▸ id) ?_ ?_ ?_
  · intro hst
    rw [hearly] at hst
    exact Bool.noConfusion hst
  · intro hst _
    rw [hst] at hneg
    exact Bool.noConfusion hneg
  · intro hst
    rw [hneg] at hst
    exact Bool.noConfusion hst

def view (sm : Sm) : MacAddr × Nonce × Ptk × Bool × Bool × Bool × PtkState × Bool :=
  (sm.addr, sm.aNonce, sm.ptk, sm.ptkValid, sm.reAuthenticationRequest, sm.ptkRequest,
    sm.wpaPtkState, sm.micVerified)

theorem plain (h : Base S sm tr) (hes : ∀ e ∈ es, e.isPlain = true) (hr : Replay sm' (es ++ tr))
    (hview : view sm' = view sm) : Base S sm' (es ++ tr) := by
  simp only [view, Prod.mk.injEq] at hview
  obtain ⟨haddr, hn, hptk, hv, hre, hnew, hst, hm⟩ := hview
  refine h.move hes hr haddr hn hptk hv (hre ▸ id) (hnew ▸ id) ?_ ?_ ?_
  · rw [hst]
    exact h.early
  · rw [hst, hm]
    exact h.unverified
  · rw [hst]
    exact h.selected

theorem same (h : Base S sm tr) (hwin : sm'.keyReplay = sm.keyReplay)
    (hused : sm'.reqReplayCounterUsed = sm.reqReplayCounterUsed)
    (hctr : sm'.reqReplayCounter = sm.reqReplayCounter) (hview : view sm' = view sm) :
    Base S sm' tr := by
  have hnone : ∀ e ∈ ([] : List Ev), e.isPlain = true := fun _ he => absurd he List.not_mem_nil
  exact h.plain hnone (h.replay.same hwin hused hctr) hview

theorem send {l : Loc} (h : Base S l.sm l.trace) (a : SendArgs) :
    Base S (wpaSendEapol S l a).sm (wpaSendEapol S l a).trace := by
  have hr := h.replay.send S a
  have hes : ∀ e ∈ sendEvents S l a, e.isPlain = true := by
    rw [sendEvents]
    cases l.sm.signedFrame S l.group.counter a with
    | none =>
      intro e he
      rw [List.mem_singleton.mp he]
      rfl
    | some f =>
      intro e he
      simp only [transmit, Loc.log_trace, Loc.setEapol_trace, List.mem_cons,
        List.not_mem_nil, or_false] at he
      rcases he with rfl | rfl | rfl <;> rfl
  rw [wpaSendEapol_trace] at hr ⊢
  refine h.plain hes hr ?_
  rw [wpaSendEapol_sm]
  rfl

theorem sendOpt {l : Loc} (h : Base S l.sm l.trace) (a : Option SendArgs) :
    Base S (sendOpt S l a).sm (sendOpt S l a).trace := by
  cases a with
  | none => exact h
  | some a => exact h.send a

end Base

/-! ## Steps of the pairwise machine -/

/-- The flags of a received reply, which most moves leave alone. -/
def flags (sm : Sm) : Bool × Bool × Bool × Bool × Bool × Bool × PtkGroupState :=
  (sm.eapolKeyReceived, sm.eapolKeyRequest, sm.eapolKeyPairwise, sm.micVerified, sm.init,
    sm.ptkGroupInit, sm.wpaPtkGroupState)

theorem GroupPending.congr (h : GroupPending sm) (hf : flags sm' = flags sm) :
    GroupPending sm' := by
  simp only [flags, Prod.mk.injEq] at hf
  obtain ⟨-, -, hp, hm, hi, hr, hg⟩ := hf
  exact ⟨hi.trans h.init, hr.trans h.reset, hp.trans h.group, hg.trans h.state, hm.trans h.mic⟩

variable {l : Loc}

theorem ptkStep_flags (S : Setup) (hr : l.sm.pairwiseReply = false) :
    flags (ptkStep S l).sm = flags l.sm := by
  have hm := ptkStep_move S l
  generalize ptkStep S l = l' at hm
  cases hm with
  | stay => rfl
  | initialise =>
    rw [enterInitialise_sm]
    rfl
  | disconnect => rfl
  | disconnected => rfl
  | authentication => rfl
  | authentication2 =>
    rw [enterAuthentication2_sm]
    rfl
  | initPmk => rfl
  | initPsk => rfl
  | ptkStart n =>
    obtain ⟨a, -, ha⟩ := enterPtkStart_eq S (l.atMoment n)
    obtain ⟨kr, hkr⟩ := sendOpt_sm S _ a
    rw [ha, hkr]
    rfl
  | ptkCalc _ hreply =>
    rw [hr] at hreply
    exact Bool.noConfusion hreply
  | ptkCalc2 => rfl
  | ptkInitNeg =>
    obtain ⟨n, a, -, ha⟩ := enterPtkInitNegotiating_eq S l
    obtain ⟨kr, hkr⟩ := sendOpt_sm S _ a
    rw [ha, hkr]
    rfl
  | ptkDone _ _ hreply =>
    rw [hr] at hreply
    exact Bool.noConfusion hreply

theorem ptkStep_settled (S : Setup) (hch : (ptkStep S l).sm.changed = false)
    (hinit : (ptkStep S l).sm.init = false) :
    NoRequests l.sm ∧ ((ptkStep S l).sm.wpaPtkState = .ptkCalcNegotiating →
      (ptkStep S l).sm.micVerified = false) ∧ ∃ n, ptkStep S l = l.atMoment n := by
  have hm := ptkStep_move S l
  generalize ptkStep S l = l' at hm hch hinit
  cases hm with
  | stay n h hst =>
    refine ⟨h, fun hcalc => ?_, n, rfl⟩
    rcases hst with hst | hst | hst | ⟨hst, -⟩ | ⟨-, -, hmic⟩ | ⟨hst, -⟩
    · exact absurd (hst.symm.trans hcalc) nofun
    · exact absurd (hst.symm.trans hcalc) nofun
    · exact absurd (hst.symm.trans hcalc) nofun
    · exact absurd (hst.symm.trans hcalc) nofun
    · exact hmic
    · exact absurd (hst.symm.trans hcalc) nofun
  | initialise =>
    rw [enterInitialise_sm] at hch hinit
    have hch' : (!l.sm.init) = false := hch
    have hinit' : l.sm.init = false := hinit
    rw [hinit'] at hch'
    exact Bool.noConfusion hch'
  | disconnect => exact Bool.noConfusion hch
  | disconnected => exact Bool.noConfusion hch
  | authentication => exact Bool.noConfusion hch
  | authentication2 =>
    rw [enterAuthentication2_sm] at hch
    exact Bool.noConfusion hch
  | initPmk => exact Bool.noConfusion hch
  | initPsk => exact Bool.noConfusion hch
  | ptkStart n =>
    obtain ⟨a, -, ha⟩ := enterPtkStart_eq S (l.atMoment n)
    obtain ⟨kr, hkr⟩ := sendOpt_sm S _ a
    rw [ha, hkr] at hch
    exact Bool.noConfusion hch
  | ptkCalc =>
    rcases enterPtkCalcNegotiating_cases S l with ⟨-, hsm, -⟩ | ⟨pmk, -, hsm, -⟩
    · rw [hsm] at hch
      exact Bool.noConfusion hch
    · rw [hsm] at hch
      exact Bool.noConfusion hch
  | ptkCalc2 => exact Bool.noConfusion hch
  | ptkInitNeg =>
    obtain ⟨n, a, -, ha⟩ := enterPtkInitNegotiating_eq S l
    obtain ⟨kr, hkr⟩ := sendOpt_sm S _ a
    rw [ha, hkr] at hch
    exact Bool.noConfusion hch
  | ptkDone =>
    obtain ⟨⟨ps, pk, pd, hsm⟩, -⟩ := enterPtkInitDone_spec S l
    rw [hsm] at hch
    exact Bool.noConfusion hch

theorem plain_cons {e : Ev} (he : e.isPlain = true) (hes : ∀ x ∈ es, x.isPlain = true) :
    ∀ x ∈ e :: es, x.isPlain = true := by
  intro x hx
  rcases List.mem_cons.mp hx with rfl | hx
  · exact he
  · exact hes x hx

theorem plain_nil : ∀ x ∈ ([] : List Ev), x.isPlain = true :=
  fun _ hx => absurd hx List.not_mem_nil

theorem initialise_plain (l : Loc) :
    ∃ es, (∀ e ∈ es, e.isPlain = true) ∧ (enterInitialise l).trace = es ++ l.trace := by
  rw [enterInitialise_trace]
  refine ⟨(if l.sm.wpaKeyMgmt.wpaPsk then [Ev.setEapol .authorized 0] else []) ++
    [.setEapol .portValid 0, .setKey none, .setEapol .portEnabled 0, .enter .initialise], ?_, ?_⟩
  · split <;> simp [Ev.isPlain, Ev.grants]
  · simp

theorem Base.ptkStep (h : Base S l.sm l.trace) (hr : l.sm.pairwiseReply = false) :
    Base S (ptkStep S l).sm (ptkStep S l).trace := by
  have hrep := h.replay.ptkStep S
  have hm := ptkStep_move S l
  generalize WpaAuth.ptkStep S l = l' at hm hrep
  cases hm with
  | stay => exact h
  | initialise =>
    obtain ⟨es, hes, htr⟩ := initialise_plain l
    rw [htr, enterInitialise_sm] at hrep ⊢
    refine Base.invalid hrep ?_ (h.secured.plain hes) rfl
    rw [aNonceOf_append hes]
    exact h.aNonce
  | disconnect n =>
    have hes := plain_cons (rfl : Ev.disconnect.isPlain = true)
      (plain_cons (rfl : (Ev.enter .disconnect).isPlain = true) plain_nil)
    exact h.leave hes hrep rfl rfl rfl rfl rfl rfl rfl rfl
  | disconnected =>
    have hes := plain_cons (rfl : (Ev.enter .disconnected).isPlain = true) plain_nil
    exact h.leave hes hrep rfl rfl rfl rfl rfl rfl rfl rfl
  | authentication =>
    have hes := plain_cons (rfl : (Ev.setEapol .portEnabled 1).isPlain = true)
      (plain_cons (rfl : (Ev.setEapol .portControlAuto 1).isPlain = true)
        (plain_cons (rfl : (Ev.enter .authentication).isPlain = true) plain_nil))
    exact Base.invalid hrep h.aNonce (h.secured.plain hes) rfl
  | authentication2 _ hreq =>
    rw [enterAuthentication2_sm, enterAuthentication2_trace] at hrep ⊢
    have hv : l.sm.ptkValid = false := by
      rcases hreq with hreq | ⟨-, hst⟩
      · exact h.reauth hreq
      · exact h.early (hst ▸ rfl)
    have hsec : Secured S l.sm.addr
        ([.aNonce (newANonce S l), .enter .authentication2] ++ l.trace) := by
      refine h.secured.append ?_
      simp [Ev.grants]
    exact Base.invalid hrep rfl hsec hv
  | initPmk n _ hst =>
    have hes := plain_cons (rfl : (Ev.setEapol .keyRun 0).isPlain = true)
      (plain_cons (rfl : (Ev.enter .initPmk).isPlain = true) plain_nil)
    exact Base.invalid hrep h.aNonce (h.secured.plain hes) (h.early (hst ▸ rfl))
  | initPsk n _ hst =>
    have hes := plain_cons (rfl : (Ev.enter .initPsk).isPlain = true) plain_nil
    exact Base.invalid hrep h.aNonce (h.secured.plain hes) (h.early (hst ▸ rfl))
  | ptkStart n _ hreq =>
    have hv : l.sm.ptkValid = false := by
      rcases hreq with hreq | ⟨-, hst | hst | ⟨hst, -⟩ | ⟨hst, hmic, -⟩⟩
      · exact h.newPtk hreq
      · exact h.early (hst ▸ rfl)
      · exact h.early (hst ▸ rfl)
      · exact h.early (hst ▸ rfl)
      · exact h.unverified hst hmic
    obtain ⟨a, -, ha⟩ := enterPtkStart_eq S (l.atMoment n)
    rw [ha]
    refine Base.sendOpt ?_ a
    have hes := plain_cons (rfl : (Ev.enter .ptkStart).isPlain = true) plain_nil
    have hlog : Replay l.sm.ptkStarted (.enter .ptkStart :: l.trace) :=
      (h.replay.log (.enter .ptkStart) rfl).same rfl rfl rfl
    exact Base.invalid hlog h.aNonce (h.secured.plain hes) hv
  | ptkCalc _ hreply =>
    rw [hr] at hreply
    exact Bool.noConfusion hreply
  | ptkCalc2 _ hst =>
    have hes := plain_cons (rfl : (Ev.enter .ptkCalcNegotiating2).isPlain = true) plain_nil
    exact h.move hes hrep rfl rfl rfl rfl (fun hq => hq) (fun hq => hq) nofun nofun
      fun _ => h.selected (hst ▸ rfl)
  | ptkInitNeg _ hst =>
    obtain ⟨n, a, -, ha⟩ := enterPtkInitNegotiating_eq S l
    rw [ha]
    refine Base.sendOpt ?_ a
    have hes := plain_cons (rfl : (Ev.enter .ptkInitNegotiating).isPlain = true) plain_nil
    have hlog : Replay l.sm.ptkInitNeg (.enter .ptkInitNegotiating :: l.trace) :=
      (h.replay.log (.enter .ptkInitNegotiating) rfl).same rfl rfl rfl
    refine h.move hes hlog rfl rfl rfl rfl (fun hq => hq) (fun hq => hq) nofun nofun fun _ => ?_
    rcases hst with hst | ⟨hst, -⟩
    · exact h.selected (hst ▸ rfl)
    · exact h.selected (hst ▸ rfl)
  | ptkDone _ _ hreply =>
    rw [hr] at hreply
    exact Bool.noConfusion hreply

/-! ## Replies -/

theorem ptkStep_of_noRequests (S : Setup) (h : NoRequests l.sm) :
    ptkStep S l = ptkSwitch S l := by
  rw [ptkStep, h.init, h.disconnect, h.deauth, h.auth, h.reauth, h.ptk]
  rfl

theorem ptkStep_reply2 (S : Setup) (h : NoRequests l.sm)
    (hr : l.sm.pairwiseReply = true) (hm : l.sm.micVerified = false)
    (hst : l.sm.wpaPtkState = .ptkStart ∨ l.sm.wpaPtkState = .ptkCalcNegotiating) :
    ptkStep S l = enterPtkCalcNegotiating S l := by
  rw [ptkStep_of_noRequests S h, ptkSwitch]
  rcases hst with hst | hst
  · rw [hst]
    exact if_pos hr
  · rw [hst]
    exact (if_neg (by rw [hm]; exact Bool.false_ne_true)).trans (if_pos hr)

theorem ptkStep_reply4 (S : Setup) (h : NoRequests l.sm)
    (hr : l.sm.pairwiseReply = true) (hm : l.sm.micVerified = true)
    (hst : l.sm.wpaPtkState = .ptkInitNegotiating) : ptkStep S l = enterPtkInitDone S l := by
  rw [ptkStep_of_noRequests S h, ptkSwitch, hst]
  exact if_pos ⟨hr, hm⟩

variable {f : EapolKey}

theorem findPmk_verifies {ans : Answers} {pmk : Pmk}
    (h : sm.findPmk S ans = some pmk) (hf : sm.lastRxEapolKey = some f) :
    f.micOk S.crypto (sm.wpaDerivePtk S pmk).kck = true := by
  have hok := List.find?_some h
  rw [hf] at hok
  exact hok

theorem Ready.reply2 (h : Ready S l.sm l.trace) (hno : NoRequests l.sm)
    (hm : l.sm.micVerified = false)
    (hst : l.sm.wpaPtkState = .ptkStart ∨ l.sm.wpaPtkState = .ptkCalcNegotiating)
    {tr' : List Ev} (htr : l.trace = .accept f :: tr') (hrx : l.sm.lastRxEapolKey = some f)
    (hn : l.sm.sNonce = f.keyNonce) (hmsg : msgOf f = .pairwise2)
    (hrep : Replay (enterPtkCalcNegotiating S l).sm (enterPtkCalcNegotiating S l).trace) :
    Base S (enterPtkCalcNegotiating S l).sm (enterPtkCalcNegotiating S l).trace := by
  have hv : l.sm.ptkValid = false := by
    rcases hst with hst | hst
    · exact h.base.early (hst ▸ rfl)
    · exact h.base.unverified hst hm
  have hes := plain_cons (rfl : (Ev.enter .ptkCalcNegotiating).isPlain = true) plain_nil
  have hanon : aNonceOf l.trace = aNonceOf tr' := by rw [htr, aNonceOf]; simp
  rcases enterPtkCalcNegotiating_cases S l with ⟨-, hsm, -, htr'⟩ | ⟨pmk, hfind, hsm, -, htr'⟩
  · rw [hsm, htr'] at hrep ⊢
    exact Base.invalid hrep h.base.aNonce (h.base.secured.plain hes) hv
  · rw [hsm, htr'] at hrep ⊢
    have hes' := plain_cons
      (rfl : (Ev.selected pmk (l.sm.wpaDerivePtk S pmk)).isPlain = true) hes
    have hmic : f.micOk S.crypto (l.sm.wpaDerivePtk S pmk).kck = true :=
      findPmk_verifies hfind hrx
    have hann : announced (.selected pmk (l.sm.wpaDerivePtk S pmk) ::
        .enter .ptkCalcNegotiating :: l.trace) = false := by
      rw [htr]
      rfl
    have hderived : DerivedFrom S l.sm.addr (l.sm.wpaDerivePtk S pmk) pmk (aNonceOf tr')
        f.keyNonce := by
      refine ⟨l.sm.pairwise != WpaCipher.ccmp, ?_⟩
      rw [Sm.wpaDerivePtk, h.base.aNonce, hanon, hn]
    constructor
    · exact hrep
    · exact h.base.aNonce
    · intro ha
      rw [hann] at ha
      exact Bool.noConfusion ha
    · exact h.base.secured.plain hes'
    · intro hq
      rw [show (l.sm.ptkSelected S pmk).reAuthenticationRequest = false from hno.reauth] at hq
      exact Bool.noConfusion hq
    · intro hq
      rw [show (l.sm.ptkSelected S pmk).ptkRequest = false from hno.ptk] at hq
      exact Bool.noConfusion hq
    · rintro ⟨⟩
    · exact fun _ hf => Bool.noConfusion hf
    · intro _ _
      refine ⟨[], pmk, [.enter .ptkCalcNegotiating], f, tr', by rw [htr]; rfl, ?_, ?_, ?_, hmsg,
        hderived, hmic⟩
      · exact noAuth2_of_plain plain_nil
      · exact noAuth2_of_plain hes
      · simp

theorem Ready.reply4 (h : Ready S l.sm l.trace)
    (ha : Authenticated S l.sm.addr l.sm.ptk l.trace)
    (hrep : Replay (enterPtkInitDone S l).sm (enterPtkInitDone S l).trace) :
    Base S (enterPtkInitDone S l).sm (enterPtkInitDone S l).trace := by
  obtain ⟨⟨ps, pk, pd, hsm⟩, -, es, hes, htr⟩ := enterPtkInitDone_spec S l
  rw [hsm, htr] at hrep ⊢
  have hother : ∀ e ∈ es ++ [.enter .ptkInitDone],
      e ≠ .enter .authentication2 ∧ ∀ k, e = .setKey (some k) → ∃ c, k = l.sm.ptk.tk c := by
    intro e he
    rcases List.mem_append.mp he with he | he
    · rcases hes e he with rfl | rfl | ⟨var, x, rfl⟩
      · exact ⟨nofun, nofun⟩
      · refine ⟨nofun, fun k hk => ⟨l.sm.pairwise, ?_⟩⟩
        exact (Option.some.inj (Ev.setKey.inj hk)).symm
      · exact ⟨nofun, nofun⟩
    · rw [List.mem_singleton.mp he]
      exact ⟨nofun, nofun⟩
  have hsec := h.base.secured.grant ha hother
  have hanon : ∀ {es : List Ev}, (∀ e ∈ es, DoneEv l.sm e) →
      aNonceOf (es ++ .enter .ptkInitDone :: l.trace) = aNonceOf l.trace ∧
        announced (es ++ .enter .ptkInitDone :: l.trace) = announced l.trace := by
    intro es hes
    induction es with
    | nil => exact ⟨rfl, rfl⟩
    | cons e es ih =>
      have ih := ih fun x hx => hes x (List.mem_cons_of_mem _ hx)
      rcases hes e List.mem_cons_self with rfl | rfl | ⟨var, x, rfl⟩ <;> exact ih
  rw [List.append_assoc] at hsec
  constructor
  · exact hrep
  · exact h.base.aNonce.trans (hanon hes).1.symm
  · rw [(hanon hes).2]
    exact h.base.reported
  · exact hsec
  · exact h.base.reauth
  · exact h.base.newPtk
  · exact nofun
  · exact nofun
  · exact nofun

/-! ## One step of both machines -/

theorem pairwiseReply_eq_true (h : sm.pairwiseReply = true) :
    sm.eapolKeyReceived = true ∧ sm.eapolKeyRequest = false ∧ sm.eapolKeyPairwise = true := by
  unfold Sm.pairwiseReply at h
  rw [Bool.and_eq_true, Bool.and_eq_true, Bool.not_eq_true'] at h
  exact ⟨h.1.1, h.1.2, h.2⟩

theorem Ready.ptkStep (h : Ready S l.sm l.trace) :
    Between S (ptkStep S l).sm (ptkStep S l).trace := by
  have hrep := h.base.replay.ptkStep S
  have hset : (WpaAuth.ptkStep S l).sm.changed = false → (WpaAuth.ptkStep S l).sm.init = false →
      NoRequests (WpaAuth.ptkStep S l).sm ∧
        ((WpaAuth.ptkStep S l).sm.wpaPtkState = .ptkCalcNegotiating →
          (WpaAuth.ptkStep S l).sm.micVerified = false) := by
    intro hch hinit
    obtain ⟨hno, hcalc, n, hn⟩ := ptkStep_settled S hch hinit
    exact ⟨hn ▸ hno, hcalc⟩
  cases hr : l.sm.pairwiseReply with
  | true =>
    obtain ⟨hrec, hreq, hpair⟩ := pairwiseReply_eq_true hr
    obtain ⟨hno, hreset, hkind⟩ := h.reply hrec hreq
    rcases hkind with ⟨-, hm, hst, f, tr', htr, hrx, hn, hmsg⟩ | ⟨-, hm, hst, ha⟩ | hg
    · have hstep := ptkStep_reply2 S hno hr hm hst
      rw [hstep] at hrep hset ⊢
      refine ⟨h.reply2 hno hm hst htr hrx hn hmsg hrep, ?_, hset⟩
      intro hrec'
      rcases enterPtkCalcNegotiating_cases S l with ⟨-, hsm, -⟩ | ⟨pmk, -, hsm, -⟩
      · rw [hsm] at hrec'
        exact Bool.noConfusion hrec'
      · rw [hsm] at hrec'
        exact Bool.noConfusion hrec'
    · have hstep := ptkStep_reply4 S hno hr hm hst
      rw [hstep] at hrep hset ⊢
      refine ⟨h.reply4 ha hrep, ?_, hset⟩
      intro hrec'
      obtain ⟨⟨ps, pk, pd, hsm⟩, -⟩ := enterPtkInitDone_spec S l
      rw [hsm] at hrec'
      exact Bool.noConfusion hrec'
    · rw [hg.group] at hpair
      exact Bool.noConfusion hpair
  | false =>
    have hflags := ptkStep_flags S hr
    refine ⟨h.base.ptkStep hr, ?_, hset⟩
    intro hrec' hreq'
    have hrec : l.sm.eapolKeyReceived = true := (congrArg (·.1) hflags).symm.trans hrec'
    have hreq : l.sm.eapolKeyRequest = false := (congrArg (·.2.1) hflags).symm.trans hreq'
    -- a pairwise reply would be seen by the machine
    have hnot : ¬ l.sm.eapolKeyPairwise = true := by
      intro hp
      rw [Sm.pairwiseReply, hrec, hreq, hp] at hr
      exact Bool.noConfusion hr
    rcases (h.reply hrec hreq).kind with ⟨hp, -⟩ | ⟨hp, -⟩ | hg
    · exact absurd hp hnot
    · exact absurd hp hnot
    · exact hg.congr hflags

theorem ptkGroupStep_reply (S : Setup) (h : GroupPending l.sm)
    (hrec : l.sm.eapolKeyReceived = true) (hreq : l.sm.eapolKeyRequest = false) :
    ptkGroupStep S l = enterRekeyEstablished l := by
  have hreply : (l.sm.groupReply && l.sm.micVerified) = true := by
    rw [Sm.groupReply, hrec, hreq, h.group, h.mic]
    rfl
  rw [ptkGroupStep, h.init, h.reset, h.state]
  exact if_pos hreply

theorem Base.ptkGroupStep (h : Base S l.sm l.trace) :
    Base S (ptkGroupStep S l).sm (ptkGroupStep S l).trace := by
  have hm := ptkGroupStep_move S l
  generalize WpaAuth.ptkGroupStep S l = l' at hm
  cases hm with
  | stay => exact h
  | reset => exact h.same rfl rfl rfl rfl
  | idle => exact h.same rfl rfl rfl rfl
  | rekey =>
    obtain ⟨n, a, -, ha⟩ := enterRekeyNegotiating_eq S l
    rw [ha]
    have hsm : Base S l.sm.rekeying l.trace := h.same rfl rfl rfl rfl
    exact Base.sendOpt hsm a
  | established => exact h.same rfl rfl rfl rfl
  | keyError => exact h.same rfl rfl rfl rfl

theorem ptkGroupStep_settled (S : Setup) (hch : (ptkGroupStep S l).sm.changed = false)
    (hinit : (ptkGroupStep S l).sm.init = false) :
    ptkGroupStep S l = l ∧ l.sm.ptkGroupInit = false ∧
      (l.sm.wpaPtkGroupState = .idle ∨ l.sm.wpaPtkGroupState = .rekeyNegotiating ∧
        l.sm.gTimeoutCtr ≤ groupUpdateCount ∧ l.sm.timeoutEvt = false) := by
  have hm := ptkGroupStep_move S l
  generalize ptkGroupStep S l = l' at hm hch hinit
  cases hm with
  | stay _ hreset hst =>
    refine ⟨rfl, hreset, ?_⟩
    rcases hst with ⟨hidle, -⟩ | ⟨hneg, -, hctr, htimeout⟩
    · exact .inl hidle
    · exact .inr ⟨hneg, hctr, htimeout⟩
  | reset =>
    have hch' : (true && !l.sm.init) = false := hch
    have hinit' : l.sm.init = false := hinit
    rw [hinit'] at hch'
    exact Bool.noConfusion hch'
  | idle hi =>
    have hch' : (true && !l.sm.init) = false := hch
    rw [hi] at hch'
    exact Bool.noConfusion hch'
  | rekey =>
    obtain ⟨n, a, -, ha⟩ := enterRekeyNegotiating_eq S l
    obtain ⟨kr, hkr⟩ := sendOpt_sm S _ a
    rw [ha, hkr] at hch
    exact Bool.noConfusion hch
  | established => exact Bool.noConfusion hch
  | keyError => exact Bool.noConfusion hch

theorem ptkGroupStep_flags (S : Setup) (l : Loc) :
    ((ptkGroupStep S l).sm.eapolKeyReceived = true → l.sm.eapolKeyReceived = true) ∧
      (ptkGroupStep S l).sm.eapolKeyRequest = l.sm.eapolKeyRequest := by
  have hm := ptkGroupStep_move S l
  generalize ptkGroupStep S l = l' at hm
  cases hm with
  | stay => exact ⟨id, rfl⟩
  | reset => exact ⟨id, rfl⟩
  | idle => exact ⟨id, rfl⟩
  | rekey =>
    obtain ⟨n, a, -, ha⟩ := enterRekeyNegotiating_eq S l
    obtain ⟨kr, hkr⟩ := sendOpt_sm S _ a
    rw [ha, hkr]
    exact ⟨id, rfl⟩
  | established => exact ⟨nofun, rfl⟩
  | keyError => exact ⟨id, rfl⟩

theorem Between.ptkGroupStep (h : Between S l.sm l.trace) :
    Calm S (ptkGroupStep S l).sm (ptkGroupStep S l).trace := by
  refine ⟨h.base.ptkGroupStep, ?_, ?_⟩
  · intro hrec
    by_contra hreq
    have hreq : (WpaAuth.ptkGroupStep S l).sm.eapolKeyRequest = false := Bool.eq_false_iff.mpr hreq
    obtain ⟨hrec', hreq'⟩ := ptkGroupStep_flags S l
    rw [hreq'] at hreq
    have hstep := ptkGroupStep_reply S (h.reply (hrec' hrec) hreq) (hrec' hrec) hreq
    rw [hstep] at hrec
    exact Bool.noConfusion hrec
  · intro hch hinit
    obtain ⟨hstay, hreset, -⟩ := ptkGroupStep_settled S hch hinit
    rw [hstay] at hch hinit ⊢
    obtain ⟨hno, hcalc⟩ := h.settled hch hinit
    exact ⟨hno, hreset, hcalc⟩

theorem Ready.changed {b : Bool} (h : Ready S sm tr) : Ready S { sm with changed := b } tr := by
  refine ⟨h.base.same rfl rfl rfl rfl, fun hrec hreq => ?_⟩
  obtain ⟨⟨h1, h2, h3, h4, h5, h6⟩, hreset, hkind⟩ := h.reply hrec hreq
  refine ⟨⟨h1, h2, h3, h4, h5, h6⟩, hreset, ?_⟩
  rcases hkind with hk | hk | ⟨g1, g2, g3, g4, g5⟩
  · exact .inl hk
  · exact .inr (.inl hk)
  · exact .inr (.inr ⟨g1, g2, g3, g4, g5⟩)

theorem Ready.inStepLoop {b : Bool} (h : Ready S sm tr) :
    Ready S { sm with inStepLoop := b } tr := by
  refine ⟨h.base.same rfl rfl rfl rfl, fun hrec hreq => ?_⟩
  obtain ⟨⟨h1, h2, h3, h4, h5, h6⟩, hreset, hkind⟩ := h.reply hrec hreq
  refine ⟨⟨h1, h2, h3, h4, h5, h6⟩, hreset, ?_⟩
  rcases hkind with hk | hk | ⟨g1, g2, g3, g4, g5⟩
  · exact .inl hk
  · exact .inr (.inl hk)
  · exact .inr (.inr ⟨g1, g2, g3, g4, g5⟩)

theorem Ready.stepMachines (h : Ready S l.sm l.trace)
    (hpd : (stepMachines S l).sm.pendingDeinit = false) :
    Calm S (stepMachines S l).sm (stepMachines S l).trace := by
  set l0 : Loc := { l with sm := { l.sm with changed := false } } with hl0
  have hbetween := Ready.ptkStep (l := l0) h.changed
  have hdef : WpaAuth.stepMachines S l = if (WpaAuth.ptkStep S l0).sm.pendingDeinit then
      WpaAuth.ptkStep S l0 else WpaAuth.ptkGroupStep S (WpaAuth.ptkStep S l0) := rfl
  rw [hdef] at hpd ⊢
  split at hpd
  · next hd =>
    rw [hpd] at hd
    exact Bool.noConfusion hd
  · next hd =>
    rw [if_neg hd]
    exact hbetween.ptkGroupStep

/-! ## Calls -/

namespace Calm

variable {tr' : List Ev}

/-- The fields `Settled` looks at. -/
def rest (sm : Sm) : Bool × Bool × Bool × Bool × Bool × Bool × Bool × Bool × PtkState × Bool :=
  (sm.changed, sm.init, sm.disconnect, sm.deauthenticationRequest, sm.authenticationRequest,
    sm.reAuthenticationRequest, sm.ptkRequest, sm.ptkGroupInit, sm.wpaPtkState, sm.micVerified)

theorem same (h : Calm S sm tr) (hb : Base S sm' tr')
    (hrec : sm'.eapolKeyReceived = sm.eapolKeyReceived)
    (hreq : sm'.eapolKeyRequest = sm.eapolKeyRequest) (hrest : rest sm' = rest sm) :
    Calm S sm' tr' := by
  simp only [rest, Prod.mk.injEq] at hrest
  obtain ⟨hch, hi, hd, hde, ha, hre, hp, hg, hst, hm⟩ := hrest
  refine ⟨hb, hrec ▸ hreq ▸ h.noReply, ?_⟩
  rw [hch, hi]
  intro hch' hi'
  obtain ⟨⟨h1, h2, h3, h4, h5, h6⟩, hreset, hcalc⟩ := h.settled hch' hi'
  refine ⟨⟨hi.trans h1, hd.trans h2, hde.trans h3, ha.trans h4, hre.trans h5, hp.trans h6⟩,
    hg.trans hreset, ?_⟩
  rw [hst, hm]
  exact hcalc

theorem toReady (h : Calm S sm tr) (hb : Base S sm' tr')
    (hrec : sm'.eapolKeyReceived = sm.eapolKeyReceived)
    (hreq : sm'.eapolKeyRequest = sm.eapolKeyRequest) : Ready S sm' tr' := by
  refine ⟨hb, fun hrec' hreq' => ?_⟩
  rw [hreq, h.noReply (hrec ▸ hrec')] at hreq'
  exact Bool.noConfusion hreq'

theorem zero (addr : MacAddr) : Calm S (Sm.zero addr) [] := by
  refine ⟨Base.invalid ((replay_lifts S fun _ _ => True).zero addr) rfl trivial rfl, nofun, ?_⟩
  exact fun _ _ => ⟨⟨rfl, rfl, rfl, rfl, rfl, rfl⟩, rfl, nofun⟩

end Calm

theorem Base.startEvent (h : Base S sm tr) {ev : WpaEvent} (hev : ev.starts = true) :
    Base S sm (.reported ev :: tr) := by
  have hann : announced (.reported ev :: tr) = announced tr := by
    cases ev <;> first | rfl | exact Bool.noConfusion hev
  have hes : NoAuth2 [.reported ev] := by
    intro e he
    rw [List.mem_singleton.mp he]
    exact nofun
  constructor
  · exact h.replay.log (.reported ev) rfl
  · exact h.aNonce
  · rw [hann]
    exact h.reported
  · exact ⟨fun hg => Bool.noConfusion hg, h.secured⟩
  · exact h.reauth
  · exact h.newPtk
  · exact h.early
  · exact h.unverified
  · exact fun hst hv => (h.selected hst hv).append hes

theorem eventEnd_spec (ev : WpaEvent) (l : Loc) :
    (eventEnd ev l).sm.ptkValid = false ∧ (eventEnd ev l).sm.aNonce = l.sm.aNonce ∧
      (eventEnd ev l).sm.addr = l.sm.addr ∧
      (eventEnd ev l).sm.eapolKeyReceived = l.sm.eapolKeyReceived ∧
      (eventEnd ev l).sm.eapolKeyRequest = l.sm.eapolKeyRequest ∧
      ∃ es, (∀ e ∈ es, e.isPlain = true) ∧ (eventEnd ev l).trace = es ++ l.trace := by
  unfold eventEnd
  dsimp only
  split
  · exact ⟨rfl, rfl, rfl, rfl, rfl, [], plain_nil, rfl⟩
  · have hes := plain_cons (rfl : (Ev.setKey none).isPlain = true) plain_nil
    exact ⟨rfl, rfl, rfl, rfl, rfl, [.setKey none], hes, rfl⟩

theorem eventRequest_spec (ev : WpaEvent) (l : Loc) :
    (eventRequest ev l).sm.aNonce = l.sm.aNonce ∧ (eventRequest ev l).sm.addr = l.sm.addr ∧
      (eventRequest ev l).sm.eapolKeyReceived = l.sm.eapolKeyReceived ∧
      (eventRequest ev l).sm.eapolKeyRequest = l.sm.eapolKeyRequest ∧
      (eventRequest ev l).trace = l.trace := by
  cases ev <;> exact ⟨rfl, rfl, rfl, rfl, rfl⟩

theorem Calm.eventEnd {l u : Loc} (h : Calm S l.sm l.trace) (ev : WpaEvent)
    (hn : u.sm.aNonce = l.sm.aNonce) (haddr : u.sm.addr = l.sm.addr)
    (hrec : u.sm.eapolKeyReceived = l.sm.eapolKeyReceived)
    (hreq : u.sm.eapolKeyRequest = l.sm.eapolKeyRequest)
    (htr : u.trace = l.trace ∨ ∃ ev', u.trace = .reported ev' :: l.trace)
    (hrep : Replay (WpaAuth.eventEnd ev u).sm (WpaAuth.eventEnd ev u).trace) :
    Ready S (WpaAuth.eventEnd ev u).sm (WpaAuth.eventEnd ev u).trace := by
  obtain ⟨hv, hn', haddr', hrec', hreq', es, hes, htr'⟩ := eventEnd_spec ev u
  refine h.toReady (Base.invalid hrep ?_ ?_ hv) (hrec'.trans hrec) (hreq'.trans hreq)
  · rw [hn', hn, htr', aNonceOf_append hes, h.base.aNonce]
    rcases htr with htr | ⟨ev', htr⟩
    · rw [htr]
    · rw [htr]
      rfl
  · rw [haddr', haddr, htr']
    refine Secured.plain ?_ hes
    rcases htr with htr | ⟨ev', htr⟩
    · rw [htr]
      exact h.base.secured
    · rw [htr]
      exact ⟨fun hg => Bool.noConfusion hg, h.base.secured⟩

/-! ## Received frames -/

theorem Base.accept (h : Base S sm tr) (hr : Replay sm' (.accept f :: tr))
    (haddr : sm'.addr = sm.addr) (hn : sm'.aNonce = sm.aNonce) (hptk : sm'.ptk = sm.ptk)
    (hv : sm'.ptkValid = true → sm.ptkValid = true)
    (hre : sm'.reAuthenticationRequest = sm.reAuthenticationRequest)
    (hnew : sm'.ptkRequest = true → sm.ptkRequest = true ∨ sm'.ptkValid = false)
    (hst : sm'.wpaPtkState = sm.wpaPtkState)
    (hcalc : sm'.micVerified = false → sm'.ptkValid = false) : Base S sm' (.accept f :: tr) := by
  have hinv : sm.ptkValid = false → sm'.ptkValid = false := by
    intro hv'
    rw [Bool.eq_false_iff]
    intro hv''
    rw [hv hv''] at hv'
    exact Bool.noConfusion hv'
  have hes : NoAuth2 [.accept f] := by
    intro e he
    rw [List.mem_singleton.mp he]
    exact nofun
  constructor
  · exact hr
  · exact hn.trans h.aNonce
  · exact fun ha => Bool.noConfusion ha
  · rw [haddr]
    exact ⟨fun hg => Bool.noConfusion hg, h.secured⟩
  · exact fun hq => hinv (h.reauth (hre ▸ hq))
  · intro hq
    rcases hnew hq with hq | hq
    · exact hinv (h.newPtk hq)
    · exact hq
  · exact fun hs => hinv (h.early (hst ▸ hs))
  · exact fun _ hm => hcalc hm
  · intro hs hval
    rw [haddr, hptk]
    exact (h.selected (hst ▸ hs) (hv hval)).append hes

theorem Calm.idle (h : Calm S sm tr) (hidle : Idle sm) : Settled sm :=
  h.settled hidle.changed hidle.init

theorem Calm.request (h : Calm S l.sm l.trace) (hidle : Idle l.sm)
    (hadm : admits l.sm f = true) (hreq : f.keyInfo.isRequest = true) :
    AfterFrame (Ready S) (Calm S)
      (acceptFrame { l with sm := { l.sm with micVerified := l.sm.ptkValid } } f).1 f
      (acceptFrame { l with sm := { l.sm with micVerified := l.sm.ptkValid } } f).2 := by
  have hset := h.idle hidle
  have hrep : Replay { l.sm with
      micVerified := l.sm.ptkValid
      reqReplayCounterUsed := true
      reqReplayCounter := f.replayCounter } (.accept f :: l.trace) := by
    have hctr := (Bool.and_eq_true _ _ ▸ hadm).2
    rw [if_pos hreq] at hctr
    exact (h.base.replay.acceptRequest hreq hctr).same rfl rfl rfl
  have hkept : ∀ {sm : Sm} {tr : List Ev}, Base S sm tr → Ready S (keepFrame f sm) tr := by
    intro sm tr hb
    refine ⟨hb.same rfl rfl rfl rfl, fun _ hq => ?_⟩
    rw [show (keepFrame f sm).eapolKeyRequest = f.keyInfo.isRequest from rfl, hreq] at hq
    exact Bool.noConfusion hq
  -- the request is noted
  have hbase : Base S { l.sm with
      micVerified := l.sm.ptkValid
      reqReplayCounterUsed := true
      reqReplayCounter := f.replayCounter } (.accept f :: l.trace) :=
    h.base.accept hrep rfl rfl rfl (fun hv => hv) rfl .inl rfl (fun hm => hm)
  have hcalm : Calm S { l.sm with
      micVerified := l.sm.ptkValid
      reqReplayCounterUsed := true
      reqReplayCounter := f.replayCounter } (.accept f :: l.trace) := by
    refine ⟨hbase, h.noReply, fun _ _ => ?_⟩
    obtain ⟨⟨h1, h2, h3, h4, h5, h6⟩, hreset, hcalc⟩ := hset
    exact ⟨⟨h1, h2, h3, h4, h5, h6⟩, hreset, fun hst => h.base.unverified hst (hcalc hst)⟩
  unfold acceptFrame
  dsimp only
  rw [if_pos hreq]
  split
  · next hnew =>
    -- a request for a new PTK
    have hnext : requestNext f = .keep := by
      obtain ⟨herr, herror, hkey⟩ := hnew
      rw [requestNext, if_neg herr, if_neg (by simpa using herror), if_pos hkey]
    have hbase' : Base S (Sm.wpaRequestNewPtk { l.sm with
        micVerified := l.sm.ptkValid
        reqReplayCounterUsed := true
        reqReplayCounter := f.replayCounter }) (.accept f :: l.trace) :=
      Base.invalid (hrep.same rfl rfl rfl) hbase.aNonce hbase.secured rfl
    rw [hnext]
    exact hkept hbase'
  · cases hnext : requestNext f with
    | stop => exact hcalm
    | smk => exact hcalm
    | smkKeep => exact hcalm
    | micFailure =>
      have hbase' : Base S (Sm.wpaRequestNewPtk { l.sm with
          micVerified := l.sm.ptkValid
          reqReplayCounterUsed := true
          reqReplayCounter := f.replayCounter }) (.accept f :: l.trace) :=
        Base.invalid (hrep.same rfl rfl rfl) hbase.aNonce hbase.secured rfl
      exact hkept hbase'
    | rekeyGtk => exact hcalm
    | keep => exact hkept hbase

theorem Calm.reply (h : Calm S l.sm l.trace) (hidle : Idle l.sm)
    (hadm : admits l.sm f = true) (hreq : f.keyInfo.isRequest = false) (hpass : Passes S l.sm f) :
    AfterFrame (Ready S) (Calm S)
      (acceptFrame { l with sm := { l.sm with micVerified := l.sm.ptkValid } } f).1 f
      (acceptFrame { l with sm := { l.sm with micVerified := l.sm.ptkValid } } f).2 := by
  obtain ⟨⟨h1, h2, h3, h4, h5, h6⟩, hreset, hcalc⟩ := h.idle hidle
  have hctr := (Bool.and_eq_true _ _ ▸ hadm).2
  rw [if_neg (by rw [hreq]; exact Bool.false_ne_true)] at hctr
  have hrep : Replay { l.sm with
      micVerified := l.sm.ptkValid
      keyReplay := clearHead l.sm.keyReplay } (.accept f :: l.trace) :=
    (h.base.replay.acceptReply hreq hctr).same rfl rfl rfl
  have hbase : Base S { l.sm with
      micVerified := l.sm.ptkValid
      keyReplay := clearHead l.sm.keyReplay } (.accept f :: l.trace) :=
    h.base.accept hrep rfl rfl rfl (fun hv => hv) rfl .inl rfl (fun hm => hm)
  have hstate := hpass.state
  unfold acceptFrame
  dsimp only
  rw [if_neg (by rw [hreq]; exact Bool.false_ne_true)]
  split
  · refine ⟨hbase, h.noReply, fun _ _ => ⟨⟨h1, h2, h3, h4, h5, h6⟩, hreset, fun hst => ?_⟩⟩
    exact h.base.unverified hst (hcalc hst)
  next hsmk =>
  refine ⟨hbase.same rfl rfl rfl rfl, fun _ _ => ⟨⟨h1, h2, h3, h4, h5, h6⟩, hreset, ?_⟩⟩
  have hkind := msgOf_reply hreq
  cases hmsg : msgOf f with
  | pairwise2 =>
    -- message 2/4
    rw [hmsg] at hstate
    have hv : l.sm.ptkValid = false := by
      rcases hstate with hst | hst
      · exact h.base.early (hst ▸ rfl)
      · exact h.base.unverified hst (hcalc hst)
    have hkey : f.keyInfo.isKeyType = true := by
      rw [hmsg] at hkind
      by_contra hk
      rw [Bool.not_eq_true] at hk
      rw [hk, Bool.not_false, if_pos rfl] at hkind
      split at hkind <;> exact nomatch hkind
    exact .inl ⟨hkey, hv, hstate, f, l.trace, rfl, rfl, rfl, hmsg⟩
  | pairwise4 =>
    -- message 4/4, for a PTK that has been selected
    rw [hmsg] at hstate
    obtain ⟨hst, hv⟩ := hstate
    have hsel := h.base.selected (hst ▸ rfl) hv
    have hout := h.base.replay.tracks f.replayCounter (scan_iff.mp hctr)
    exact .inr (.inl ⟨(isMsg4_of_pairwise4 hmsg).pairwise, hv, hst,
      hsel.authenticated hmsg (hpass.verified hv) hout⟩)
  | group2 =>
    -- message 2/2 of the group key handshake
    rw [hmsg] at hstate
    obtain ⟨hst, hv⟩ := hstate
    have hkey : f.keyInfo.isKeyType = false := by
      rw [hmsg] at hkind
      by_contra hk
      rw [Bool.not_eq_false] at hk
      rw [hk, Bool.not_true, if_neg Bool.false_ne_true] at hkind
      split_ifs at hkind
    exact .inr (.inr ⟨h1, hreset, hkey, hst, hv⟩)
  | request =>
    rw [hmsg] at hkind
    split_ifs at hkind
  | smkM1 =>
    rw [hmsg] at hkind
    split_ifs at hkind
  | smkM3 => exact absurd hmsg hsmk
  | smkError =>
    rw [hmsg] at hkind
    split_ifs at hkind

theorem Calm.receive (h : Calm S l.sm l.trace) (hidle : Idle l.sm)
    (hadm : admits l.sm f = true) :
    AfterFrame (Ready S) (Calm S) (receiveFrame S l f).1 f (receiveFrame S l f).2 := by
  have hm := receiveFrame_move S l f
  generalize receiveFrame S l f = r at hm
  cases hm with
  | drop => exact h
  | disconnect g hg =>
    have hes := plain_cons (rfl : Ev.disconnect.isPlain = true) plain_nil
    have hrep : Replay (wpaStaDisconnect S { l with group := g }).sm (.disconnect :: l.trace) :=
      (h.base.replay.log .disconnect rfl).same rfl rfl rfl
    exact h.same (h.base.plain hes hrep rfl) rfl rfl rfl
  | badMic =>
    obtain ⟨⟨h1, h2, h3, h4, h5, h6⟩, hreset, hcalc⟩ := h.idle hidle
    have hb : Base S { l.sm with micVerified := false } l.trace := by
      obtain ⟨b1, b2, b3, b4, b5, b6, b7, b8, b9⟩ := h.base
      exact ⟨b1.same rfl rfl rfl, b2, b3, b4, b5, b6, b7, fun hst _ => b8 hst (hcalc hst), b9⟩
    exact ⟨hb, h.noReply, fun _ _ => ⟨⟨h1, h2, h3, h4, h5, h6⟩, hreset, fun _ => rfl⟩⟩
  | accept hpass =>
    cases hreq : f.keyInfo.isRequest with
    | true => exact h.request hidle hadm hreq
    | false => exact h.reply hidle hadm hreq hpass

/-! ## The handshake -/

/-- A station is reported to authenticate or to associate before it is said to be associated. -/
def announces (s : Auth) : Op → Bool
  | .staAssociated id => announced (s.trace id)
  | _ => true

abbrev Announces (s : Auth) (o : Op) : Prop := announces s o = true

theorem handshake_lifts (S : Setup) : Lifts S Announces (Ready S) (Calm S) where
  zero addr := Calm.zero addr
  ready h := h.toReady h.base rfl rfl
  loop _ h := h.inStepLoop
  step _ h hpd := h.stepMachines hpd
  leave h _ := h.same (h.base.same rfl rfl rfl rfl) rfl rfl rfl
  send l a h := by
    refine h.same (h.base.send a) ?_ ?_ ?_
    · rw [wpaSendEapol_sm]
    · rw [wpaSendEapol_sm]
    · rw [wpaSendEapol_sm]
      rfl
  mark _ h := h.same (h.base.same rfl rfl rfl rfl) rfl rfl rfl
  vlan _ h := h.same (h.base.same rfl rfl rfl rfl) rfl rfl rfl
  associate _ h _ := h.same (h.base.same rfl rfl rfl rfl) rfl rfl rfl
  noWpa h _ := h.same (h.base.same rfl rfl rfl rfl) rfl rfl rfl
  removePtk l h _ := by
    have hes := plain_cons (rfl : (Ev.setKey none).isPlain = true) plain_nil
    have hrep : Replay (wpaRemovePtk l).sm (.setKey none :: l.trace) :=
      (h.base.replay.log (.setKey none) rfl).same rfl rfl rfl
    exact h.same (Base.invalid hrep h.base.aNonce (h.base.secured.plain hes) rfl) rfl rfl rfl
  timeout h _ := h.toReady (h.base.same rfl rfl rfl rfl) rfl rfl
  newPtk h _ := by
    refine h.toReady (Base.invalid ?_ h.base.aNonce h.base.secured rfl) rfl rfl
    exact h.base.replay.same rfl rfl rfl
  start h _ := h.toReady (h.base.same rfl rfl rfl rfl) rfl rfl
  associated hp h _ := by
    have hv := h.base.reported hp
    refine h.toReady (Base.invalid (h.base.replay.reset.same rfl rfl rfl) h.base.aNonce ?_ hv)
      rfl rfl
    exact ⟨fun hg => Bool.noConfusion hg, h.base.secured⟩
  startEvent _ hev h _ := h.toReady ((h.base.startEvent hev).same rfl rfl rfl rfl) rfl rfl
  event l ev h hidle := by
    obtain ⟨hn, haddr, hrec, hreq, htr⟩ := eventRequest_spec ev (l.log (.reported ev))
    refine h.eventEnd ev hn haddr hrec hreq (.inr ⟨ev, htr⟩) ?_
    exact (replay_lifts S Announces).event l ev h.base.replay hidle
  initDone h _ _ := h.toReady (h.base.same rfl rfl rfl rfl) rfl rfl
  initDoneEvent l ev h hloop hch := by
    refine Calm.eventEnd (u := { l with sm := l.sm.initDone }) h ev rfl rfl rfl rfl (.inl rfl) ?_
    exact (replay_lifts S Announces).initDoneEvent l ev h.base.replay hloop hch
  receive _ _ h hidle hadm _ := h.receive hidle hadm
  tail f h hreq := by
    refine ⟨h.base.same rfl rfl rfl rfl, fun _ hq => ?_⟩
    rw [show (keepFrame f _).eapolKeyRequest = f.keyInfo.isRequest from rfl, hreq] at hq
    exact Bool.noConfusion hq

variable {s : Auth} {id : StaId}

/-- Whenever the machine of a station has entered `PTKINITDONE`, configured the pairwise key or
opened the port, the station had shown since the nonce was taken that it has the PTK: a 2/4 frame
and after it a 4/4 frame with a counter issued in between, both verified under the PTK of the
selected PMK, the nonce and the nonce of the 2/4 frame. The key is the temporal key of that PTK. -/
theorem handshake_authenticates (h : Reach S Announces s) (hid : id ∈ s.stas)
    {newer older : List Ev} {e : Ev} (htr : s.trace id = newer ++ e :: older)
    (he : e.grants = true) :
    ∃ ptk, Authenticated S (s.sm id).addr ptk older ∧
      ∀ k, e = .setKey (some k) → ∃ c, k = ptk.tk c :=
  (((handshake_lifts S).reach h).calm id hid).base.secured.authenticated htr he

theorem handshake_authenticates_connected :
    ∃ newer e older, Small.connected = newer ++ e :: older ∧ e.grants = true ∧
      ∃ ptk, Authenticated Small.setup
          ((calls Small.setup 20 (wpaInit Small.group) (Small.connect 0 2#48)).sm 0).addr ptk
          older ∧ ∀ k, e = .setKey (some k) → ∃ c, k = ptk.tk c := by
  have hreach : Reach Small.setup Announces _ :=
    Small.reach_init.afterCalls announces (fun _ _ h => h) 20 (Small.connect 0 2#48)
      (by decide +kernel)
  have hgrants : Small.connected.any Ev.grants = true := by decide +kernel
  obtain ⟨e, he, hg⟩ := List.any_eq_true.mp hgrants
  obtain ⟨newer, older, htr⟩ := List.append_of_mem he
  exact ⟨newer, e, older, htr, hg, handshake_authenticates hreach (by decide +kernel) htr hg⟩

end Hostapd.Ap.WpaAuth
