import Hostapd.Ap.WpaAuth.System

/-!
# The WPA authenticator: what a step can do

The inversion lemmas of the two machines of a station. Every invariant of a station's machine is
derived from them and from the equations of the entry functions, and does not look into the steps
again.

* **`PtkMove`** lists what a step of the pairwise machine can do, with the guards that lead to it;
  **`ptkStep_move`** says that the list is complete.
* **`GroupMove`** and **`ptkGroupStep_move`** do the same for the group key of one station.
* **`ReceiveMove`** and **`receiveFrame_move`** do the same for a received frame.
-/

namespace Hostapd.Ap.WpaAuth

open Hostapd.Lib

variable (S : Setup)

/-! ## Entry functions -/

namespace Loc

def atMoment (l : Loc) (n : ℕ) : Loc := { l with now := n }

@[simp] theorem atMoment_sm (l : Loc) (n : ℕ) : (l.atMoment n).sm = l.sm := rfl
@[simp] theorem atMoment_group (l : Loc) (n : ℕ) : (l.atMoment n).group = l.group := rfl
@[simp] theorem atMoment_trace (l : Loc) (n : ℕ) : (l.atMoment n).trace = l.trace := rfl

end Loc

def sendOpt (l : Loc) : Option SendArgs → Loc
  | none => l
  | some a => wpaSendEapol S l a

@[simp] theorem smEntry_sm (st : PtkState) (l : Loc) :
    (smEntry st l).sm = { l.sm with wpaPtkState := st, changed := true } := rfl

@[simp] theorem smEntry_group (st : PtkState) (l : Loc) : (smEntry st l).group = l.group := rfl

@[simp] theorem smEntry_trace (st : PtkState) (l : Loc) :
    (smEntry st l).trace = .enter st :: l.trace := rfl

@[simp] theorem clearGUpdate_sm (l : Loc) :
    (clearGUpdate l).sm = { l.sm with gUpdateStationKeys := false } := rfl

@[simp] theorem clearGUpdate_trace (l : Loc) : (clearGUpdate l).trace = l.trace := rfl

/-- The machine after `INITIALIZE`. -/
def Sm.initialised (sm : Sm) : Sm :=
  { sm with
    wpaPtkState := .initialise
    changed := !sm.init
    gUpdateStationKeys := false
    pInitAKeys := sm.pInitAKeys && sm.wpa != WpaVersion.wpa
    pair := true
    ptkValid := false
    ptk := Ptk.zero
    pairwiseSet := false
    timeoutCtr := 0 }

@[simp] theorem enterInitialise_sm (l : Loc) : (enterInitialise l).sm = l.sm.initialised := by
  by_cases h : l.sm.wpaKeyMgmt.wpaPsk = true
  · exact congrArg Loc.sm (if_pos h)
  · exact congrArg Loc.sm (if_neg h)

@[simp] theorem enterInitialise_group (l : Loc) :
    (enterInitialise l).group = (clearGUpdate l).group := by
  by_cases h : l.sm.wpaKeyMgmt.wpaPsk = true
  · exact (congrArg Loc.group (if_pos h : enterInitialise l = _)).trans rfl
  · exact (congrArg Loc.group (if_neg h : enterInitialise l = _)).trans rfl

theorem enterInitialise_trace (l : Loc) :
    (enterInitialise l).trace =
      (if l.sm.wpaKeyMgmt.wpaPsk then [.setEapol .authorized 0] else []) ++
        .setEapol .portValid 0 :: .setKey none :: .setEapol .portEnabled 0 ::
          .enter .initialise :: l.trace := by
  by_cases h : l.sm.wpaKeyMgmt.wpaPsk = true
  · rw [if_pos h]
    exact congrArg Loc.trace (if_pos h)
  · rw [if_neg h]
    exact congrArg Loc.trace (if_neg h)

@[simp] theorem enterDisconnect_trace (l : Loc) :
    (enterDisconnect S l).trace = .disconnect :: .enter .disconnect :: l.trace := rfl

@[simp] theorem enterAuthentication_trace (l : Loc) : (enterAuthentication l).trace =
    .setEapol .portEnabled 1 :: .setEapol .portControlAuto 1 :: .enter .authentication ::
      l.trace := rfl

theorem firstStation_sm (l : Loc) : (firstStation S l).sm = l.sm := by
  unfold firstStation
  split <;> rfl

theorem firstStation_trace (l : Loc) : (firstStation S l).trace = l.trace := by
  unfold firstStation
  split <;> rfl

theorem firstStation_control (l : Loc) : (firstStation S l).group.control = l.group.control := by
  unfold firstStation
  split
  · rfl
  · exact wpaGroupFirstStation_control S (S.cb l.now) l.group

/-- The nonce `AUTHENTICATION2` takes from the group. -/
def newANonce (l : Loc) : Nonce := (firstStation S (smEntry .authentication2 l)).group.counter

@[simp] theorem enterAuthentication2_sm (l : Loc) : (enterAuthentication2 S l).sm =
    { l.sm with
      wpaPtkState := .authentication2
      changed := true
      aNonce := newANonce S l
      reAuthenticationRequest := false
      timeoutCtr := 0 } := by
  simp [enterAuthentication2, firstStation_sm, newANonce]

@[simp] theorem enterAuthentication2_trace (l : Loc) : (enterAuthentication2 S l).trace =
    .aNonce (newANonce S l) :: .enter .authentication2 :: l.trace := by
  simp [enterAuthentication2, firstStation_trace, newANonce]

@[simp] theorem enterAuthentication2_control (l : Loc) :
    (enterAuthentication2 S l).group.control = l.group.control :=
  firstStation_control S (smEntry .authentication2 l)

/-- The machine in `PTKSTART`, before message 1/4. -/
def Sm.ptkStarted (sm : Sm) : Sm :=
  { sm with
    wpaPtkState := .ptkStart
    changed := true
    ptkRequest := false
    timeoutEvt := false
    timeoutCtr := sm.timeoutCtr + 1 }

theorem enterPtkStart_eq (l : Loc) : ∃ a, (∀ x ∈ a, x = l.sm.ptkStarted.msg1 S) ∧
    enterPtkStart S l =
      sendOpt S { l with sm := l.sm.ptkStarted, trace := .enter .ptkStart :: l.trace } a := by
  by_cases h : pairwiseUpdateCount < l.sm.timeoutCtr + 1
  · exact ⟨none, by simp, if_pos h⟩
  · exact ⟨some (l.sm.ptkStarted.msg1 S), by simp, if_neg h⟩

/-- The machine in `PTKCALCNEGOTIATING`, before the MIC check. -/
def Sm.ptkCalc (sm : Sm) : Sm :=
  { sm with wpaPtkState := .ptkCalcNegotiating, changed := true, eapolKeyReceived := false }

/-- The machine with the PTK of a PMK that verified the received frame. -/
def Sm.ptkSelected (sm : Sm) (pmk : Pmk) : Sm :=
  { sm.ptkCalc with
    pmk := if sm.wpaKeyMgmt.wpaPsk then pmk else sm.pmk
    micVerified := true
    ptk := sm.wpaDerivePtk S pmk
    ptkValid := true }

theorem enterPtkCalcNegotiating_eq (l : Loc) :
    enterPtkCalcNegotiating S l = match l.sm.ptkCalc.findPmk S (S.cb l.now) with
      | none => ({ smEntry .ptkCalcNegotiating l with sm := l.sm.ptkCalc } : Loc).tick
      | some pmk =>
        (({ smEntry .ptkCalcNegotiating l with sm := l.sm.ptkSelected S pmk } : Loc).tick).log
          (.selected pmk (l.sm.wpaDerivePtk S pmk)) := rfl

theorem enterPtkCalcNegotiating_cases (l : Loc) :
    (l.sm.ptkCalc.findPmk S (S.cb l.now) = none ∧
      (enterPtkCalcNegotiating S l).sm = l.sm.ptkCalc ∧
      (enterPtkCalcNegotiating S l).group = l.group ∧
      (enterPtkCalcNegotiating S l).trace = .enter .ptkCalcNegotiating :: l.trace) ∨
    ∃ pmk, l.sm.ptkCalc.findPmk S (S.cb l.now) = some pmk ∧
      (enterPtkCalcNegotiating S l).sm = l.sm.ptkSelected S pmk ∧
      (enterPtkCalcNegotiating S l).group = l.group ∧
      (enterPtkCalcNegotiating S l).trace =
        .selected pmk (l.sm.wpaDerivePtk S pmk) :: .enter .ptkCalcNegotiating :: l.trace := by
  rw [enterPtkCalcNegotiating_eq]
  cases l.sm.ptkCalc.findPmk S (S.cb l.now) with
  | none => exact .inl ⟨rfl, rfl, rfl, rfl⟩
  | some pmk => exact .inr ⟨pmk, rfl, rfl, rfl, rfl⟩

/-- The machine in `PTKINITNEGOTIATING`, before message 3/4. -/
def Sm.ptkInitNeg (sm : Sm) : Sm :=
  { sm with
    wpaPtkState := .ptkInitNegotiating
    changed := true
    timeoutEvt := false
    timeoutCtr := sm.timeoutCtr + 1 }

theorem enterPtkInitNegotiating_eq (l : Loc) :
    ∃ n a, (∀ x ∈ a, ∃ rsc, x = l.sm.ptkInitNeg.msg3 S l.group rsc) ∧
      enterPtkInitNegotiating S l = sendOpt S
        { l with
          now := n
          sm := l.sm.ptkInitNeg
          trace := .enter .ptkInitNegotiating :: l.trace } a := by
  by_cases h : pairwiseUpdateCount < l.sm.timeoutCtr + 1
  · exact ⟨l.now, none, by simp, if_pos h⟩
  · refine ⟨l.now + 1, some (l.sm.ptkInitNeg.msg3 S l.group (S.cb l.now).getSeqnum), ?_, if_neg h⟩
    intro x hx
    exact ⟨_, (Option.some.inj hx).symm⟩

/-- The machine in `PTKINITDONE`. -/
def Sm.ptkDone (sm : Sm) : Sm :=
  { sm with wpaPtkState := .ptkInitDone, changed := true, eapolKeyReceived := false }

/-- The events of `PTKINITDONE` after the state has been entered. -/
def DoneEv (sm : Sm) (e : Ev) : Prop :=
  e = .disconnect ∨ e = .setKey (some (sm.ptk.tk sm.pairwise)) ∨ ∃ var x, e = .setEapol var x

/-- `PTKINITDONE` gives the temporal key to the driver and tells the EAPOL machine; where the
driver refuses the key, it disconnects the station. -/
theorem enterPtkInitDone_spec (l : Loc) :
    (∃ ps pk pd, (enterPtkInitDone S l).sm =
      { l.sm.ptkDone with pairwiseSet := ps, pInitAKeys := pk, pendingDeinit := pd }) ∧
    (enterPtkInitDone S l).group = l.group ∧
    ∃ es, (∀ e ∈ es, DoneEv l.sm e) ∧
      (enterPtkInitDone S l).trace = es ++ .enter .ptkInitDone :: l.trace := by
  have hdone (v : EapolVariable) (x : ℤ) : DoneEv l.sm (.setEapol v x) := .inr (.inr ⟨v, x, rfl⟩)
  have hkey : DoneEv l.sm (.setKey (some (l.sm.ptk.tk l.sm.pairwise))) := .inr (.inl rfl)
  by_cases hpair : l.sm.pair = true
  · by_cases hret : (S.cb l.now).setKey ≠ 0
    · have heq : enterPtkInitDone S l = _ := (if_pos hpair).trans (if_pos hret)
      rw [heq]
      refine ⟨⟨l.sm.pairwiseSet, l.sm.pInitAKeys, _, rfl⟩, rfl,
        [.disconnect, .setKey (some (l.sm.ptk.tk l.sm.pairwise))], ?_, rfl⟩
      simp [DoneEv]
    · by_cases hpsk : l.sm.wpaKeyMgmt.wpaPsk = true
      · have heq : enterPtkInitDone S l = _ := (if_pos hpair).trans
          ((if_neg hret).trans (congrArg handshakeDone (if_pos hpsk)))
        rw [heq]
        refine ⟨⟨true, _, l.sm.pendingDeinit, rfl⟩, rfl,
          [.setEapol .keyDone 1, .setEapol .keyAvailable 0, .setEapol .portValid 1,
            .setEapol .authorized 1, .setKey (some (l.sm.ptk.tk l.sm.pairwise))], ?_, rfl⟩
        simp [hkey, hdone]
      · have heq : enterPtkInitDone S l = _ := (if_pos hpair).trans
          ((if_neg hret).trans (congrArg handshakeDone (if_neg hpsk)))
        rw [heq]
        refine ⟨⟨true, _, l.sm.pendingDeinit, rfl⟩, rfl,
          [.setEapol .keyDone 1, .setEapol .keyAvailable 0, .setEapol .portValid 1,
            .setKey (some (l.sm.ptk.tk l.sm.pairwise))], ?_, rfl⟩
        simp [hkey, hdone]
  · have heq : enterPtkInitDone S l = _ := if_neg hpair
    rw [heq]
    refine ⟨⟨l.sm.pairwiseSet, _, l.sm.pendingDeinit, rfl⟩, rfl,
      [.setEapol .keyDone 1, .setEapol .keyAvailable 0, .setEapol .portValid 1], ?_, rfl⟩
    simp [hdone]

/-! ## Steps of the pairwise machine -/

/-- No request that applies in every state is pending. -/
structure NoRequests (sm : Sm) : Prop where
  init : sm.init = false
  disconnect : sm.disconnect = false
  deauth : sm.deauthenticationRequest = false
  auth : sm.authenticationRequest = false
  reauth : sm.reAuthenticationRequest = false
  ptk : sm.ptkRequest = false

/-- What a step of the pairwise machine can do. A state is entered on a request, or from another
state when there is none. -/
inductive PtkMove (l : Loc) : Loc → Prop
  | stay (n : ℕ) (h : NoRequests l.sm)
      (hst : l.sm.wpaPtkState = .initialise ∨ l.sm.wpaPtkState = .authentication2 ∨
        l.sm.wpaPtkState = .ptkInitDone ∨
        l.sm.wpaPtkState = .ptkStart ∧ l.sm.pairwiseReply = false ∨
        l.sm.wpaPtkState = .ptkCalcNegotiating ∧ l.sm.pairwiseReply = false ∧
          l.sm.micVerified = false ∨
        l.sm.wpaPtkState = .ptkInitNegotiating ∧
          ¬ (l.sm.pairwiseReply = true ∧ l.sm.micVerified = true)) :
      PtkMove l (l.atMoment n)
  | initialise (h : l.sm.init = true ∨ NoRequests l.sm ∧ l.sm.wpaPtkState = .disconnected) :
      PtkMove l (enterInitialise l)
  | disconnect (n : ℕ) (hinit : l.sm.init = false)
      (h : l.sm.disconnect = true ∨ NoRequests l.sm ∧
        (l.sm.wpaPtkState = .initPmk ∨ l.sm.wpaPtkState = .initPsk ∨
          l.sm.wpaPtkState = .ptkStart ∧ l.sm.pairwiseReply = false ∨
          l.sm.wpaPtkState = .ptkInitNegotiating ∧
            ¬ (l.sm.pairwiseReply = true ∧ l.sm.micVerified = true))) :
      PtkMove l (enterDisconnect S (l.atMoment n))
  | disconnected (hinit : l.sm.init = false)
      (h : l.sm.deauthenticationRequest = true ∨ NoRequests l.sm ∧
        l.sm.wpaPtkState = .disconnect) :
      PtkMove l (enterDisconnected l)
  | authentication (hinit : l.sm.init = false) (h : l.sm.authenticationRequest = true) :
      PtkMove l (enterAuthentication l)
  | authentication2 (hinit : l.sm.init = false)
      (h : l.sm.reAuthenticationRequest = true ∨ NoRequests l.sm ∧
        l.sm.wpaPtkState = .authentication) :
      PtkMove l (enterAuthentication2 S l)
  | initPmk (n : ℕ) (h : NoRequests l.sm) (hst : l.sm.wpaPtkState = .authentication2) :
      PtkMove l (enterInitPmk S (l.atMoment n))
  | initPsk (n : ℕ) (h : NoRequests l.sm) (hst : l.sm.wpaPtkState = .authentication2) :
      PtkMove l (enterInitPsk S (l.atMoment n))
  | ptkStart (n : ℕ) (hinit : l.sm.init = false)
      (h : l.sm.ptkRequest = true ∨ NoRequests l.sm ∧
        (l.sm.wpaPtkState = .initPmk ∨ l.sm.wpaPtkState = .initPsk ∨
          l.sm.wpaPtkState = .ptkStart ∧ l.sm.pairwiseReply = false ∨
          l.sm.wpaPtkState = .ptkCalcNegotiating ∧ l.sm.micVerified = false ∧
            l.sm.pairwiseReply = false)) :
      PtkMove l (enterPtkStart S (l.atMoment n))
  | ptkCalc (h : NoRequests l.sm) (hreply : l.sm.pairwiseReply = true)
      (hst : l.sm.wpaPtkState = .ptkStart ∨
        l.sm.wpaPtkState = .ptkCalcNegotiating ∧ l.sm.micVerified = false) :
      PtkMove l (enterPtkCalcNegotiating S l)
  | ptkCalc2 (h : NoRequests l.sm) (hst : l.sm.wpaPtkState = .ptkCalcNegotiating)
      (hmic : l.sm.micVerified = true) : PtkMove l (enterPtkCalcNegotiating2 l)
  | ptkInitNeg (h : NoRequests l.sm)
      (hst : l.sm.wpaPtkState = .ptkCalcNegotiating2 ∨
        l.sm.wpaPtkState = .ptkInitNegotiating ∧
          ¬ (l.sm.pairwiseReply = true ∧ l.sm.micVerified = true)) :
      PtkMove l (enterPtkInitNegotiating S l)
  | ptkDone (h : NoRequests l.sm) (hst : l.sm.wpaPtkState = .ptkInitNegotiating)
      (hreply : l.sm.pairwiseReply = true) (hmic : l.sm.micVerified = true) :
      PtkMove l (enterPtkInitDone S l)

theorem ptkSwitch_move {l : Loc} (h : NoRequests l.sm) : PtkMove S l (ptkSwitch S l) := by
  unfold ptkSwitch
  split
  · next hst => exact .stay l.now h (.inl hst)
  · next hst => exact .disconnected h.init (.inr ⟨h, hst⟩)
  · next hst => exact .initialise (.inr ⟨h, hst⟩)
  · next hst => exact .authentication2 h.init (.inr ⟨h, hst⟩)
  · next hst =>
    split
    · exact .initPmk (l.now + 1) h hst
    · split
      · exact .initPsk (l.now + 1) h hst
      · exact .stay (l.now + 1) h (.inr (.inl hst))
  · next hst =>
    split
    · exact .ptkStart (l.now + 1) h.init (.inr ⟨h, .inl hst⟩)
    · exact .disconnect (l.now + 1) h.init (.inr ⟨h, .inl hst⟩)
  · next hst =>
    split
    · exact .disconnect (l.now + 1) h.init (.inr ⟨h, .inr (.inl hst)⟩)
    · exact .ptkStart (l.now + 1) h.init (.inr ⟨h, .inr (.inl hst)⟩)
  · next hst =>
    split
    · next hr => exact .ptkCalc h hr (.inl hst)
    · next hr =>
      have hr : l.sm.pairwiseReply = false := Bool.eq_false_iff.mpr hr
      split
      · exact .disconnect l.now h.init (.inr ⟨h, .inr (.inr (.inl ⟨hst, hr⟩))⟩)
      · split
        · exact .ptkStart l.now h.init (.inr ⟨h, .inr (.inr (.inl ⟨hst, hr⟩))⟩)
        · exact .stay l.now h (.inr (.inr (.inr (.inl ⟨hst, hr⟩))))
  · next hst =>
    split
    · next hm => exact .ptkCalc2 h hst hm
    · next hm =>
      have hm : l.sm.micVerified = false := Bool.eq_false_iff.mpr hm
      split
      · next hr => exact .ptkCalc h hr (.inr ⟨hst, hm⟩)
      · next hr =>
        have hr : l.sm.pairwiseReply = false := Bool.eq_false_iff.mpr hr
        split
        · exact .ptkStart l.now h.init (.inr ⟨h, .inr (.inr (.inr ⟨hst, hm, hr⟩))⟩)
        · exact .stay l.now h (.inr (.inr (.inr (.inr (.inl ⟨hst, hr, hm⟩)))))
  · next hst => exact .ptkInitNeg h (.inl hst)
  · next hst =>
    split
    · next hr => exact .ptkDone h hst hr.1 hr.2
    · next hr =>
      split
      · exact .disconnect l.now h.init (.inr ⟨h, .inr (.inr (.inr ⟨hst, hr⟩))⟩)
      · split
        · exact .ptkInitNeg h (.inr ⟨hst, hr⟩)
        · exact .stay l.now h (.inr (.inr (.inr (.inr (.inr ⟨hst, hr⟩)))))
  · next hst => exact .stay l.now h (.inr (.inr (.inl hst)))

theorem ptkStep_move (l : Loc) : PtkMove S l (ptkStep S l) := by
  unfold ptkStep
  split
  · next h => exact .initialise (.inl h)
  next hinit =>
  have hinit : l.sm.init = false := Bool.eq_false_iff.mpr hinit
  split
  · next h => exact .disconnect l.now hinit (.inl h)
  next hdisc =>
  split
  · next h => exact .disconnected hinit (.inl h)
  next hdeauth =>
  split
  · next h => exact .authentication hinit h
  next hauth =>
  split
  · next h => exact .authentication2 hinit (.inl h)
  next hreauth =>
  split
  · next h => exact .ptkStart l.now hinit (.inl h)
  next hptk =>
  exact ptkSwitch_move S ⟨hinit, Bool.eq_false_iff.mpr hdisc, Bool.eq_false_iff.mpr hdeauth,
    Bool.eq_false_iff.mpr hauth, Bool.eq_false_iff.mpr hreauth, Bool.eq_false_iff.mpr hptk⟩

/-! ## Steps of the group key machine of a station -/

/-- The machine in `REKEYNEGOTIATING`, before message 1/2. Past the retry limit the timeout stays
to be handled. -/
def Sm.rekeying (sm : Sm) : Sm :=
  { sm with
    wpaPtkGroupState := .rekeyNegotiating
    changed := true
    gTimeoutCtr := sm.gTimeoutCtr + 1
    pInitAKeys := sm.pInitAKeys &&
      (decide (groupUpdateCount < sm.gTimeoutCtr + 1) || sm.wpa != WpaVersion.wpa)
    timeoutEvt := sm.timeoutEvt && decide (groupUpdateCount < sm.gTimeoutCtr + 1) }

theorem enterRekeyNegotiating_eq (l : Loc) :
    ∃ n a, (∀ x ∈ a, ∃ rsc, x = l.sm.groupMsg1 l.group rsc) ∧
      enterRekeyNegotiating S l = sendOpt S { l with now := n, sm := l.sm.rekeying } a := by
  by_cases h : groupUpdateCount < l.sm.gTimeoutCtr + 1
  · have hsm : l.sm.rekeying =
        { l.sm with
          wpaPtkGroupState := .rekeyNegotiating
          changed := true
          gTimeoutCtr := l.sm.gTimeoutCtr + 1 } := by
      simp [Sm.rekeying, h]
    rw [hsm]
    exact ⟨l.now, none, by simp, if_pos h⟩
  · have hsm : l.sm.rekeying =
        { l.sm with
          wpaPtkGroupState := .rekeyNegotiating
          changed := true
          gTimeoutCtr := l.sm.gTimeoutCtr + 1
          pInitAKeys := l.sm.pInitAKeys && l.sm.wpa != WpaVersion.wpa
          timeoutEvt := false } := by
      simp [Sm.rekeying, h]
    rw [hsm]
    refine ⟨l.now + 1, some _, ?_, if_neg h⟩
    intro x hx
    exact ⟨_, (Option.some.inj hx).symm⟩

/-- What a step of the machine that hands out the group key can do. -/
inductive GroupMove (l : Loc) : Loc → Prop
  | stay (hinit : l.sm.init = false) (hreset : l.sm.ptkGroupInit = false)
      (hst : l.sm.wpaPtkGroupState = .idle ∧ l.sm.gUpdateStationKeys = false ∨
        l.sm.wpaPtkGroupState = .rekeyNegotiating ∧
          (l.sm.groupReply && l.sm.micVerified) = false ∧
          l.sm.gTimeoutCtr ≤ groupUpdateCount ∧ l.sm.timeoutEvt = false) : GroupMove l l
  | reset (h : l.sm.init = true ∨ l.sm.ptkGroupInit = true) :
      GroupMove l { enterIdle l with sm := { (enterIdle l).sm with ptkGroupInit := false } }
  | idle (hinit : l.sm.init = false) (hreset : l.sm.ptkGroupInit = false)
      (hst : l.sm.wpaPtkGroupState = .keyError ∨ l.sm.wpaPtkGroupState = .rekeyEstablished) :
      GroupMove l (enterIdle l)
  | rekey (hinit : l.sm.init = false) (hreset : l.sm.ptkGroupInit = false)
      (hst : l.sm.wpaPtkGroupState = .idle ∨ l.sm.wpaPtkGroupState = .rekeyNegotiating ∧
        (l.sm.groupReply && l.sm.micVerified) = false ∧ l.sm.gTimeoutCtr ≤ groupUpdateCount) :
      GroupMove l (enterRekeyNegotiating S l)
  | established (hinit : l.sm.init = false) (hreset : l.sm.ptkGroupInit = false)
      (hst : l.sm.wpaPtkGroupState = .rekeyNegotiating) (hreply : l.sm.groupReply = true)
      (hmic : l.sm.micVerified = true) : GroupMove l (enterRekeyEstablished l)
  | keyError (hinit : l.sm.init = false) (hreset : l.sm.ptkGroupInit = false)
      (hst : l.sm.wpaPtkGroupState = .rekeyNegotiating)
      (hreply : (l.sm.groupReply && l.sm.micVerified) = false)
      (hctr : groupUpdateCount < l.sm.gTimeoutCtr) : GroupMove l (enterKeyError l)

theorem ptkGroupStep_move (l : Loc) : GroupMove S l (ptkGroupStep S l) := by
  unfold ptkGroupStep
  split
  · next h => exact .reset (by simpa using h)
  next h =>
  have hinit : l.sm.init = false := by
    rw [Bool.or_eq_true, not_or] at h
    exact Bool.eq_false_iff.mpr h.1
  have hreset : l.sm.ptkGroupInit = false := by
    rw [Bool.or_eq_true, not_or] at h
    exact Bool.eq_false_iff.mpr h.2
  split
  · next hst =>
    split
    · exact .rekey hinit hreset (.inl hst)
    · next hup =>
      rw [Bool.or_eq_true, not_or] at hup
      exact .stay hinit hreset (.inl ⟨hst, Bool.eq_false_iff.mpr hup.1⟩)
  · next hst =>
    split
    · next hr =>
      rw [Bool.and_eq_true] at hr
      exact .established hinit hreset hst hr.1 hr.2
    · next hr =>
      have hr : (l.sm.groupReply && l.sm.micVerified) = false := Bool.eq_false_iff.mpr hr
      split
      · next hctr => exact .keyError hinit hreset hst hr hctr
      · next hctr =>
        have hctr : l.sm.gTimeoutCtr ≤ groupUpdateCount := Nat.le_of_not_lt hctr
        split
        · exact .rekey hinit hreset (.inr ⟨hst, hr, hctr⟩)
        · next ht => exact .stay hinit hreset (.inr ⟨hst, hr, hctr, Bool.eq_false_iff.mpr ht⟩)
  · next hst => exact .idle hinit hreset (.inl hst)
  · next hst => exact .idle hinit hreset (.inr hst)

/-! ## Received frames -/

/-- The states in which a kind of message is let through. -/
def msgState (sm : Sm) : Msg → Prop
  | .pairwise2 => sm.wpaPtkState = .ptkStart ∨ sm.wpaPtkState = .ptkCalcNegotiating
  | .pairwise4 => sm.wpaPtkState = .ptkInitNegotiating ∧ sm.ptkValid = true
  | .group2 => sm.wpaPtkGroupState = .rekeyNegotiating ∧ sm.ptkValid = true
  | .smkM1 | .smkM3 | .smkError => sm.ptkValid = true
  | .request => True

/-- The checks a frame that is let through has passed. -/
structure Passes (sm : Sm) (f : EapolKey) : Prop where
  state : msgState sm (msgOf f)
  ack : f.keyInfo.isAck = false
  mic : f.keyInfo.isMic = true
  verified : sm.ptkValid = true → f.micOk S.crypto sm.ptk.kck = true
  unverified : sm.ptkValid = false → f.keyInfo.isRequest = false

inductive ReceiveMove (l : Loc) (f : EapolKey) : Loc × Next → Prop
  | drop : ReceiveMove l f (l, .stop)
  | disconnect (g : Group) (hg : g.control = l.group.control) :
      ReceiveMove l f (wpaStaDisconnect S { l with group := g }, .stop)
  | badMic : ReceiveMove l f ({ l with sm := { l.sm with micVerified := false } }, .stop)
  | accept (h : Passes S l.sm f) : ReceiveMove l f
      (acceptFrame { l with sm := { l.sm with micVerified := l.sm.ptkValid } } f)

theorem checkMsg_spec (l : Loc) (f : EapolKey) :
    checkMsg S l f = (l, true) ∧ msgState l.sm (msgOf f) ∨
      (∃ l', checkMsg S l f = (l', false) ∧ ReceiveMove S l f (l', .stop)) := by
  have hbool {b : Bool} {p : Prop} (hp : b = true → p) :
      ((l, b) : Loc × Bool) = (l, true) ∧ p ∨
        ∃ l', ((l, b) : Loc × Bool) = (l', false) ∧ ReceiveMove S l f (l', .stop) := by
    cases b with
    | true => exact .inl ⟨rfl, hp rfl⟩
    | false => exact .inr ⟨l, rfl, .drop⟩
  unfold checkMsg
  split
  · next hm =>
    rw [hm]
    unfold checkPairwise2
    split
    · exact .inr ⟨l, rfl, .drop⟩
    · next hst =>
      split
      · exact .inr ⟨_, rfl, .disconnect _ rfl⟩
      · split
        · exact .inr ⟨l, rfl, .drop⟩
        · split
          · refine .inl ⟨rfl, ?_⟩
            rw [not_and_or, not_not, not_not] at hst
            exact hst
          · exact .inr ⟨_, rfl, .disconnect l.group rfl⟩
  · next hm =>
    rw [hm]
    refine hbool fun h => ?_
    rw [Bool.and_eq_true, beq_iff_eq] at h
    exact h
  · next hm =>
    rw [hm]
    refine hbool fun h => ?_
    rw [Bool.and_eq_true, beq_iff_eq] at h
    exact h
  · next hm =>
    rw [hm]
    exact hbool fun h => (Bool.and_eq_true _ _ ▸ h).2
  · next hm =>
    rw [hm]
    exact hbool fun h => (Bool.and_eq_true _ _ ▸ h).2
  · next hm =>
    rw [hm]
    exact hbool fun h => (Bool.and_eq_true _ _ ▸ h).2
  · next hm =>
    rw [hm]
    exact .inl ⟨rfl, trivial⟩

theorem receiveFrame_move (l : Loc) (f : EapolKey) : ReceiveMove S l f (receiveFrame S l f) := by
  unfold receiveFrame
  rcases checkMsg_spec S l f with ⟨hmsg, hstate⟩ | ⟨l', hmsg, hmove⟩
  · rw [hmsg]
    dsimp only
    split
    · exact .drop
    · next hbits =>
      simp only [Bool.not_true, Bool.false_or, Bool.or_eq_true, not_or, Bool.not_eq_true',
        Bool.not_eq_false, Bool.not_eq_true] at hbits
      obtain ⟨hack, hmic⟩ := hbits
      unfold checkMic
      by_cases hv : l.sm.ptkValid = true
      · rw [if_pos hv]
        dsimp only
        by_cases hok : f.micOk S.crypto l.sm.ptk.kck = true
        · rw [hok, if_pos rfl]
          have hpass : Passes S l.sm f := by
            refine ⟨hstate, hack, hmic, fun _ => hok, fun hf => ?_⟩
            rw [hv] at hf
            exact Bool.noConfusion hf
          have hacc := ReceiveMove.accept (S := S) hpass
          rw [hv] at hacc
          exact hacc
        · rw [if_neg hok, Bool.eq_false_iff.mpr hok]
          exact .badMic
      · have hv' : l.sm.ptkValid = false := Bool.eq_false_iff.mpr hv
        rw [if_neg hv]
        dsimp only
        by_cases hreq : f.keyInfo.isRequest = true
        · rw [hreq]
          exact .badMic
        · have hreq' : f.keyInfo.isRequest = false := Bool.eq_false_iff.mpr hreq
          rw [hreq']
          have hpass : Passes S l.sm f :=
            ⟨hstate, hack, hmic, fun ht => absurd ht hv, fun _ => hreq'⟩
          have hacc := ReceiveMove.accept (S := S) hpass
          rw [hv'] at hacc
          exact hacc
  · rw [hmsg]
    exact hmove

end Hostapd.Ap.WpaAuth
