import Hostapd.EapolSupp.Concluded
import Hostapd.EapolSupp.Moves

/-!
# The 802.1X supplicant: every packet that is handed over

The machines among callers that do as they please, and the packets that the backend machine hands
over in their runs.

* **`suppStep`** is the program among `SuppOp`: what `Op` has, and anything else that is done to
  machines at rest.
* **`Placed`** says where the EAP machine is when the program is in some place: between two packets
  unless the program is in its loop. `eapStep_kept` and `turn_frame` are the steps.
* **`Answered`**: the packet is concluded, and the backend machine leaves REQUEST.
* **`handed_over_answered_iff`**: that happens exactly when the packet is `Handled`.
* **`unanswered_request_waits`**: a method that returns neither a response nor `ignore` leaves the
  backend machine in REQUEST.
-/

namespace Hostapd.EapolSupp

open Hostapd.Lib

section Runs

variable {π : Type} {crypto : EapolCrypto} {w : World π} {p q : EapolSm π} {i : ℕ} {res : Bool}

/-- What is done to the machines: what `Op` has, and what other callers do at rest, which may change
every variable but the state of the EAP machine and its count of packets. -/
inductive SuppOp (π : Type)
  | op (op : Op π)
  | others (vars : EapolSm π)

def suppStep (crypto : EapolCrypto) (sm : EapolSm π) : SuppOp π → EapolSm π
  | .op op => step crypto sm op
  | .others vars =>
    if sm.pc = .rest then
      startStep { vars with
        eap := { vars.eap with eapState := sm.eap.eapState, numRounds := sm.eap.numRounds } }
    else sm

/-! ## Where the EAP machine is -/

/-- Only FAILURE outlasts too many packets, and RECEIVED for one step. -/
def RoundsKept (eap : EapSm π) : Prop :=
  maxAuthRounds < eap.numRounds →
    (eap.eapState = .failure ∧ maxAuthRounds + 1 < eap.numRounds) ∨
      (eap.eapState = .received ∧ eap.numRounds = maxAuthRounds + 1)

/-- What holds in the loop of the EAP machine: INITIALIZE is not entered twice. -/
structure LoopKept (sm : EapolSm π) : Prop where
  rounds : RoundsKept sm.eap
  restart : sm.eap.eapState = .initialise → sm.eapRestart = false ∨ sm.portEnabled = false

def CanTake (eap : EapSm π) : Prop := RoundsKept eap ∧ Between eap

def NotRun (sm : EapolSm π) : Prop :=
  sm.eap.eapState = .initialise ∧ sm.eap.numRounds = 0 ∧ sm.portEnabled = false

/-- Where the EAP machine is when the program is in its place. -/
def Placed (sm : EapolSm π) : Prop :=
  match sm.pc with
  | .rest => CanTake sm.eap
  | .turn _ => CanTake sm.eap ∨ (NotRun sm ∧ sm.initialise = true)
  | .eap _ false => CanTake sm.eap ∨ (NotRun sm ∧ sm.beState = .initialise)
  | .eap _ true => LoopKept sm

theorem CanTake.loopKept (h : CanTake p.eap) : LoopKept p := by
  refine ⟨h.1, fun hst => ?_⟩
  rcases h.2 with h | h | h | h
  all_goals exact absurd (h.symm.trans hst) (by decide)

theorem NotRun.loopKept (h : NotRun p) : LoopKept p :=
  ⟨fun hr => absurd hr (by simp [h.2.1]), fun _ => .inr h.2.2⟩

/-! ### The loop -/

theorem loopKept_of_entered (hst : q.eap.eapState ≠ .initialise)
    (hrounds : q.eap.numRounds ≤ maxAuthRounds) (hchanged : q.eap.changed = true) :
    LoopKept q ∧ (q.eap.changed = false → Between q.eap) :=
  ⟨⟨fun hr => absurd hrounds (not_le.mpr hr), fun h => absurd h hst⟩,
    fun h => absurd (hchanged.symm.trans h) (by decide)⟩

theorem loopKept_of_stayed (h : LoopKept p) (hst : Between p.eap) :
    LoopKept p ∧ (p.eap.changed = false → Between p.eap) := ⟨h, fun _ => hst⟩

theorem stepIdle_kept (h : LoopKept p) (hst : p.eap.eapState = .idle)
    (hrounds : p.eap.numRounds ≤ maxAuthRounds) :
    LoopKept (stepIdle crypto p) ∧
      ((stepIdle crypto p).eap.changed = false → Between (stepIdle crypto p).eap) := by
  have hsuccess : LoopKept (enterSuccess p) ∧
      ((enterSuccess p).eap.changed = false → Between (enterSuccess p).eap) := by
    refine loopKept_of_entered ?_ hrounds ?_
    all_goals simp [enterSuccess, eapEntry, keyAvailable]
  have hfailure : LoopKept (enterFailure false p) ∧
      ((enterFailure false p).eap.changed = false → Between (enterFailure false p).eap) := by
    refine loopKept_of_entered ?_ hrounds ?_
    all_goals simp [enterFailure, eapEntry]
  unfold stepIdle
  dsimp only
  split_ifs
  · obtain ⟨hframe, hreceived, hchanged⟩ := enterReceived_frame crypto p
    simp only [Prod.mk.injEq] at hframe
    refine ⟨⟨fun hr => .inr ⟨hreceived, by omega⟩, fun hi => ?_⟩, fun hc => ?_⟩
    · exact absurd (hreceived.symm.trans hi) (by decide)
    · exact absurd (hchanged.symm.trans hc) (by decide)
  · exact hsuccess
  · exact hfailure
  · exact hsuccess
  · exact hsuccess
  · exact loopKept_of_stayed h (.inl hst)

theorem Enters.kept {st : EapState} (h : Enters st p q) (hst : st ≠ .initialise)
    (hrounds : p.eap.numRounds ≤ maxAuthRounds) :
    LoopKept q ∧ (q.eap.changed = false → Between q.eap) :=
  loopKept_of_entered (h.eapState.trans_ne hst) (h.numRounds.trans_le hrounds) h.changed

theorem enterMethod_kept (p : EapolSm π) (hrounds : p.eap.numRounds ≤ maxAuthRounds) :
    LoopKept (enterMethod p) ∧
      ((enterMethod p).eap.changed = false → Between (enterMethod p).eap) := by
  obtain ⟨hframe, hst, hchanged, -⟩ := enterMethod_processed p
  simp only [Prod.mk.injEq] at hframe
  exact loopKept_of_entered (hst.trans_ne (by decide)) (hframe.2.2.2.trans_le hrounds) hchanged

theorem stepReceived_kept (hrounds : p.eap.numRounds ≤ maxAuthRounds) :
    LoopKept (stepReceived w p) ∧
      ((stepReceived w p).eap.changed = false → Between (stepReceived w p).eap) := by
  unfold stepReceived
  dsimp only
  split_ifs
  · refine loopKept_of_entered ?_ hrounds ?_
    all_goals simp [enterSuccess, eapEntry, keyAvailable]
  · refine loopKept_of_entered ?_ hrounds ?_
    all_goals simp [enterFailure, eapEntry]
  · exact (enterRetransmit_enters p).kept (by decide) hrounds
  · exact (enterNotification_enters w p).kept (by decide) hrounds
  · exact (enterIdentity_enters w p).kept (by decide) hrounds
  · exact (enterGetMethod_enters w p).kept (by decide) hrounds
  · exact enterMethod_kept p hrounds
  · exact enterMethod_kept p hrounds
  · exact (enterDiscard_enters p).kept (by decide) hrounds

theorem enterInitialise_kept (global : Bool)
    (hchanged : (enterInitialise global p).eap.changed = true) :
    LoopKept (enterInitialise global p) ∧ ((enterInitialise global p).eap.changed = false →
      Between (enterInitialise global p).eap) := by
  have hrounds : (enterInitialise global p).eap.numRounds = 0 := rfl
  refine ⟨⟨fun hr => absurd hr (by simp [hrounds]), fun _ => .inl rfl⟩, fun hc => ?_⟩
  exact absurd (hchanged.symm.trans hc) (by decide)

theorem stepLocal_kept (h : LoopKept p) (hrounds : p.eap.numRounds ≤ maxAuthRounds) :
    LoopKept (stepLocal crypto w p) ∧
      ((stepLocal crypto w p).eap.changed = false → Between (stepLocal crypto w p).eap) := by
  have hidle := (enterIdle_enters p).kept (by decide) hrounds
  have hsend := (enterSendResponse_enters p).kept (by decide) hrounds
  unfold stepLocal
  cases hst : p.eap.eapState with
  | initialise | sendResponse | discard => exact hidle
  | identity | notification | retransmit => exact hsend
  | success => exact loopKept_of_stayed h (.inr (.inl hst))
  | failure => exact loopKept_of_stayed h (.inr (.inr (.inl hst)))
  | idle => exact stepIdle_kept h hst hrounds
  | received => exact stepReceived_kept hrounds
  | disabled =>
    dsimp only
    split_ifs
    · have hcore := keepOrDeinit_core (eapEntry false .initialise p).eap
      exact enterInitialise_kept false (hcore.changed.trans (by simp [eapEntry]))
    · exact loopKept_of_stayed h (.inr (.inr (.inr hst)))
  | getMethod =>
    dsimp only
    split_ifs
    · exact enterMethod_kept p hrounds
    · exact hsend
  | method =>
    dsimp only
    split_ifs
    · exact (enterDiscard_enters p).kept (by decide) hrounds
    · exact hsend

theorem eapStep_kept (h : LoopKept p) :
    LoopKept (eapStep crypto w p) ∧
      ((eapStep crypto w p).eap.changed = false → Between (eapStep crypto w p).eap) := by
  unfold eapStep
  split_ifs with hrestart hdown hmany hfirst
  · have hne : p.eap.eapState ≠ .initialise := fun hst => by
      rcases h.restart hst with hr | hr
      · exact absurd (hr.symm.trans hrestart.1) (by decide)
      · exact absurd (hr.symm.trans hrestart.2) (by decide)
    have hcore := keepOrDeinit_core (eapEntry true .initialise p).eap
    exact enterInitialise_kept true (hcore.changed.trans (by simp [eapEntry, hne]))
  · refine ⟨⟨fun hr => absurd hr (by simp [enterDisabled]), fun hi => ?_⟩, fun _ => ?_⟩
    · exact absurd hi (by simp [enterDisabled, eapEntry])
    · exact .inr (.inr (.inr rfl))
  · have hrounds : (enterFailure true (p.onEap fun eap =>
        { eap with numRounds := eap.numRounds + 1 })).eap.numRounds = p.eap.numRounds + 1 := rfl
    refine ⟨⟨fun _ => .inl ⟨rfl, by omega⟩, fun hi => ?_⟩, fun _ => .inr (.inr (.inl rfl))⟩
    exact absurd hi (by simp [enterFailure, eapEntry])
  · have hfail : p.eap.eapState = .failure :=
      ((h.rounds hmany).resolve_right fun hr => hfirst hr.2).1
    exact loopKept_of_stayed h (.inr (.inr (.inl hfail)))
  · exact stepLocal_kept h (not_lt.mp hmany)

/-! ### A turn -/

/-- The variables that the PAE machine leaves to the others. -/
def ofOthers (sm : EapolSm π) : EapSm π × (Bool × Bool × Bool) × BeState × Bool × Bool :=
  (sm.eap, (sm.eapReq, sm.eapResp, sm.eapNoResp), sm.beState, sm.initialise, sm.portEnabled)

section Pae

variable (p : EapolSm π)

theorem paeConnecting_others : ofOthers (paeConnecting p) = ofOthers p := by
  by_cases h : p.paeState = .connecting <;> simp [ofOthers, paeConnecting, h]

theorem paeDisconnected_others (global : Bool) :
    ofOthers (paeDisconnected global p) = ofOthers p := by
  simp [ofOthers, paeDisconnected]

theorem paeRestart_others : ofOthers (paeRestart p) = ofOthers p := by
  simp [ofOthers, paeRestart]

theorem paeHeld_others : ofOthers (paeHeld p) = ofOthers p := by
  simp [ofOthers, paeHeld]

theorem paeAuthenticating_others : ofOthers (paeAuthenticating p) = ofOthers p := by
  simp [ofOthers, paeAuthenticating]

theorem paeAuthenticated_others : ofOthers (paeAuthenticated p) = ofOthers p := by
  simp [ofOthers, paeAuthenticated]

theorem plaintextValid_others : ofOthers (plaintextValid p) = ofOthers p := by
  unfold plaintextValid
  split_ifs
  · simp [ofOthers]
  · rfl

theorem paeSwitch_others : ofOthers (paeSwitch p) = ofOthers p := by
  unfold paeSwitch
  cases p.paeState with
  | unknown | sForceAuth | sForceUnauth => rfl
  | logoff =>
    dsimp only
    split_ifs
    · rfl
    · exact paeDisconnected_others p false
  | disconnected => exact paeConnecting_others p
  | connecting =>
    dsimp only
    split_ifs
    · exact paeConnecting_others p
    · exact paeAuthenticated_others p
    · exact paeAuthenticating_others p
    · exact paeRestart_others p
    · exact paeHeld_others p
    · rfl
  | authenticating =>
    have hvalid := plaintextValid_others p
    dsimp only
    split_ifs
    · exact (paeAuthenticated_others _).trans hvalid
    · exact (paeHeld_others _).trans hvalid
    · exact (paeConnecting_others _).trans hvalid
    · exact hvalid
  | held =>
    dsimp only
    split_ifs
    · exact paeConnecting_others p
    · exact paeRestart_others p
    · rfl
  | authenticated =>
    dsimp only
    split_ifs
    · exact paeRestart_others p
    · rfl
    · exact paeDisconnected_others p false
  | restart =>
    dsimp only
    split_ifs
    · rfl
    · exact paeAuthenticating_others p

theorem paeStep_others : ofOthers (paeStep p) = ofOthers p := by
  unfold paeStep
  dsimp only
  split_ifs
  · simp [ofOthers, paeLogoff]
  · exact paeDisconnected_others p true
  · simp [ofOthers, paeForceAuth]
  · simp [ofOthers, paeForceUnauth]
  · exact paeSwitch_others p

end Pae

theorem keyRxStep_others (crypto : EapolCrypto) (w : World π) (p : EapolSm π) :
    SameCourse p.eap (keyRxStep crypto w p).eap ∧
      (ofOthers (keyRxStep crypto w p)).2 = (ofOthers p).2 := by
  obtain ⟨st, changed, hbegin, -⟩ := keyRxBegin_eq p
  unfold keyRxStep
  rw [hbegin]
  dsimp only
  split_ifs
  · obtain ⟨eap, success, _, _, _, _, _, _, hkey, hcourse, -⟩ := processKey_eq crypto w
      (keyRxEntry false .keyReceive { p with keyRxState := st, changed := changed })
    rw [hkey]
    exact ⟨hcourse, rfl⟩
  · exact ⟨.refl _, rfl⟩

/-- A turn of the EAPOL machines leaves the EAP machine where it is, and it ends the answer that it
finds: the backend machine leaves REQUEST. -/
theorem turn_frame (crypto : EapolCrypto) (w : World π) (hpc : p.pc = .turn i) :
    SameCourse p.eap (go crypto w p).eap ∧ (go crypto w p).pc = .eap i false ∧
      (go crypto w p).portEnabled = p.portEnabled ∧
      (p.initialise = true → (go crypto w p).beState = .initialise) ∧
      (p.beState = .request → p.eapResp = true ∨ p.eapNoResp = true →
        (go crypto w p).beState ≠ .request) := by
  have hgo : go crypto w p =
      { beStep (keyRxStep crypto w (paeStep { p with changed := false })) with
        pc := .eap i false } := by
    unfold go
    rw [hpc]
  have hpae := paeStep_others { p with changed := false }
  generalize paeStep { p with changed := false } = q at hpae hgo
  obtain ⟨hcourse, hkey⟩ := keyRxStep_others crypto w q
  generalize keyRxStep crypto w q = r at hcourse hkey hgo
  simp only [ofOthers, Prod.mk.injEq] at hpae hkey
  obtain ⟨heap, ⟨-, hresp, hno⟩, hbe, hinit, hport⟩ := hpae
  obtain ⟨⟨-, hresp', hno'⟩, hbe', hinit', hport'⟩ := hkey
  have hmove := beStep_move r
  rw [hgo]
  refine ⟨?_, rfl, ?_, ?_, ?_⟩
  · rw [heap] at hcourse
    exact hcourse.trans hmove.course
  · exact hmove.portEnabled.trans (hport'.trans hport)
  · intro hi
    have hr : r.initialise = true := hinit'.trans (hinit.trans hi)
    have hstep : beStep r = beInitialise r := if_pos (.inl hr)
    show (beStep r).beState = .initialise
    rw [hstep]
    rfl
  · intro hreq hanswer
    have hreq' : r.beState = .request := hbe'.trans (hbe.trans hreq)
    have hanswer' : r.eapResp = true ∨ r.eapNoResp = true := by
      rwa [hresp', hno', hresp, hno]
    show (beStep r).beState ≠ .request
    unfold beStep
    rw [hreq']
    dsimp only
    split_ifs with hdown hr hn
    · simp [beInitialise, eapAbort, beEntry]
    · unfold beResponse
      dsimp only
      split
      · simp [beEntry]
      · simp [beEntry]
    · simp [beReceive, beEntry]
    all_goals exact absurd hanswer' (by simp [hr, hn])

/-! ### Runs -/

theorem SameCourse.canTake {e e' : EapSm π} (h : SameCourse e e') (ht : CanTake e) :
    CanTake e' := by
  unfold CanTake RoundsKept Between at *
  rw [h.eapState, h.numRounds]
  exact ht

theorem placed_init (conf : EapolConfig) : Placed (init π conf) := .inr ⟨⟨rfl, rfl, rfl⟩, rfl⟩

theorem placed_go (w : World π) (h : Placed p) : Placed (go crypto w p) := by
  unfold Placed at h
  cases hpc : p.pc with
  | rest =>
    have hgo : go crypto w p = p := by
      unfold go
      rw [hpc]
    rw [hgo]
    unfold Placed
    rwa [hpc] at h ⊢
  | turn i =>
    rw [hpc] at h
    obtain ⟨hcourse, hpc', hport, hinit, -⟩ := turn_frame crypto w hpc
    unfold Placed
    rw [hpc']
    refine h.imp hcourse.canTake fun ⟨hnot, hi⟩ => ⟨⟨?_, ?_, ?_⟩, hinit hi⟩
    · exact hcourse.eapState.trans hnot.1
    · exact hcourse.numRounds.trans hnot.2.1
    · exact hport.trans hnot.2.2
  | eap i res =>
    have hkept : LoopKept (clearChanged p) := by
      have hp : LoopKept p := by
        rw [hpc] at h
        cases res with
        | false => exact h.elim CanTake.loopKept fun h => h.1.loopKept
        | true => exact h
      exact ⟨hp.rounds, hp.restart⟩
    obtain ⟨hloop, hbetween⟩ : LoopKept (eapStep crypto w (clearChanged p)) ∧
        ((eapStep crypto w (clearChanged p)).eap.changed = false →
          Between (eapStep crypto w (clearChanged p)).eap) := eapStep_kept hkept
    by_cases hchanged : (eapStep crypto w (clearChanged p)).eap.changed = true
    · have hgo : go crypto w p = round i (eapStep crypto w (clearChanged p)) :=
        go_again hpc rfl hchanged
      rw [hgo]
      exact ⟨hloop.rounds, hloop.restart⟩
    · have hchanged' : (eapStep crypto w (clearChanged p)).eap.changed = false := by
        simpa using hchanged
      have hcan : CanTake (eapStep crypto w (clearChanged p)).eap :=
        ⟨hloop.rounds, hbetween hchanged'⟩
      rcases @go_ended _ crypto w p i res _ hpc rfl hchanged' with
        ⟨heap, -, ⟨hpc', -⟩ | ⟨j, hpc'⟩⟩
      · unfold Placed
        rw [hpc', heap]
        exact hcan
      · unfold Placed
        rw [hpc', heap]
        exact .inl hcan

theorem outside_canTake (op : Op π) (h : CanTake p.eap) (hpc : p.pc = .rest) :
    Placed (outside p op) := by
  have hstart {sm : EapolSm π} (heap : CanTake sm.eap) : Placed (startStep sm) := .inl heap
  have hrest {sm : EapolSm π} (heap : CanTake sm.eap) (hp : sm.pc = .rest) : Placed sm := by
    unfold Placed
    rw [hp]
    exact heap
  cases op with
  | go w => exact hrest h hpc
  | initialised => exact hrest h hpc
  | rxEapol buf =>
    have hcached : (abortCached p).eap = p.eap := rfl
    have hpacket : Placed (rxEapPacket ((buf.drop 4).take (payloadLen p buf)) p) := by
      unfold rxEapPacket
      refine hstart ?_
      dsimp only
      split_ifs
      · exact hcached ▸ h
      · exact h
    show Placed (rxEapol buf p)
    unfold rxEapol
    dsimp only
    split_ifs
    · exact hrest h hpc
    · exact hpacket
    · exact hstart h
    · exact hrest h hpc
  | tick =>
    show Placed (if p.timerTickEnabled then portTimersTick p else p)
    split_ifs
    · exact hstart h
    · exact hrest h hpc
  | stepTimeout =>
    show Placed (if p.stepTimeout then startStep { p with stepTimeout := false } else p)
    split_ifs
    · exact hstart h
    · exact hrest h hpc
  | notifyPortEnabled enabled => exact hstart h
  | notifyPortValid valid => exact hstart h
  | notifyLogoff logoff => exact hstart h
  | notifyLowerLayerSuccess =>
    refine hstart ?_
    rcases notifyLowerLayerSuccess_eq p with heq | ⟨-, heq⟩
    · rw [heq]
      exact h
    · rw [heq]
      exact (sameCourse_keyAvailable p.eap).canTake h
  | notifyPmkidAttempt attempt => exact hrest h hpc

theorem placed_suppStep (op : SuppOp π) (h : Placed p) : Placed (suppStep crypto p op) := by
  have hcan (hpc : p.pc = .rest) : CanTake p.eap := by
    unfold Placed at h
    rwa [hpc] at h
  cases op with
  | others vars =>
    unfold suppStep
    split_ifs with hpc
    · exact .inl (hcan hpc)
    · exact h
  | op op =>
    unfold suppStep step
    cases op with
    | go w => exact placed_go w h
    | initialised =>
      dsimp only
      split_ifs with hrest
      · exact .inl (hcan hrest.1)
      · exact h
    | _ =>
      dsimp only
      split_ifs with hrest
      · exact outside_canTake _ (hcan hrest.1) hrest.1
      · exact h

theorem placed_run (crypto : EapolCrypto) (conf : EapolConfig) (ops : List (SuppOp π)) :
    Placed (run (suppStep crypto) (init π conf) ops) :=
  run_inv (fun _ op h => placed_suppStep op h) (placed_init conf) ops

/-! ### The backend machine -/

theorem enterMethod_beState (p : EapolSm π) : (enterMethod p).beState = p.beState := by
  rcases enterMethod_cases p with h | ⟨m, priv, q, ret, h, heq⟩
  · exact h.beState
  · rw [heq]
    exact h.beState

theorem stepLocal_beState (p : EapolSm π) : (stepLocal crypto w p).beState = p.beState := by
  have hidle := (enterIdle_enters p).beState
  have hsend := (enterSendResponse_enters p).beState
  have hsuccess : (enterSuccess p).beState = p.beState := by
    simp [enterSuccess, eapEntry, keyAvailable]
  have hfailure : (enterFailure false p).beState = p.beState := by simp [enterFailure, eapEntry]
  unfold stepLocal
  cases p.eap.eapState with
  | initialise | sendResponse | discard => exact hidle
  | identity | notification | retransmit => exact hsend
  | success | failure => rfl
  | disabled =>
    dsimp only
    split_ifs
    · simp [enterInitialise, eapEntry]
    · rfl
  | idle =>
    dsimp only
    unfold stepIdle
    dsimp only
    split_ifs
    · simp [enterReceived, eapEntry]
    · exact hsuccess
    · exact hfailure
    · exact hsuccess
    · exact hsuccess
    · rfl
  | received =>
    dsimp only
    unfold stepReceived
    dsimp only
    split_ifs
    · exact hsuccess
    · exact hfailure
    · exact (enterRetransmit_enters p).beState
    · exact (enterNotification_enters w p).beState
    · exact (enterIdentity_enters w p).beState
    · exact (enterGetMethod_enters w p).beState
    · exact enterMethod_beState p
    · exact enterMethod_beState p
    · exact (enterDiscard_enters p).beState
  | getMethod =>
    dsimp only
    split_ifs
    · exact enterMethod_beState p
    · exact hsend
  | method =>
    dsimp only
    split_ifs
    · exact (enterDiscard_enters p).beState
    · exact hsend

theorem eapStep_beState (p : EapolSm π) : (eapStep crypto w p).beState = p.beState := by
  unfold eapStep
  split_ifs
  · simp [enterInitialise, eapEntry]
  · simp [enterDisabled, eapEntry]
  · simp [enterFailure, eapEntry]
  · rfl
  · exact stepLocal_beState p

theorem go_beState (hpc : p.pc = .eap i res) : (go crypto w p).beState = p.beState := by
  by_cases hchanged : (eapStep crypto w (clearChanged p)).eap.changed = true
  · rw [go_again hpc rfl hchanged]
    exact eapStep_beState (clearChanged p)
  · obtain ⟨-, hflags, -⟩ := go_ended hpc rfl (Bool.not_eq_true _ ▸ hchanged)
    simp only [Prod.mk.injEq] at hflags
    exact hflags.2.2.2.trans (eapStep_beState (clearChanged p))

theorem EapLoop.beState (h : EapLoop crypto w p q) : q.beState = p.beState := by
  induction h with
  | again hpc _ _ ih => exact ih.trans (go_beState hpc)
  | ends hpc _ => exact go_beState hpc

/-! ## The packets that are handed over -/

/-- The backend machine has handed a packet over, in the `i`th turn. -/
def HandedOver (i : ℕ) (sm : EapolSm π) : Prop :=
  sm.pc = .eap i false ∧ sm.beState = .request ∧ sm.eapReq = true

instance (i : ℕ) (sm : EapolSm π) : Decidable (HandedOver i sm) :=
  inferInstanceAs (Decidable (_ ∧ _))

/-- The packet is concluded when the EAP machine has been run. `eapol_sm_step` does not return
without a change that is pending, and its next turn takes the backend machine out of REQUEST. -/
def Answered (crypto : EapolCrypto) (sm : EapolSm π) : Prop :=
  Concluded sm ∧ (sm.pc = .rest → sm.changed = true) ∧
    ∀ (w : World π) (j : ℕ), sm.pc = .turn j → (go crypto w sm).beState ≠ .request

/-- The user is asked for what the packet asks for: the identity, which `asks` says, or the PIN or
the passphrase of a private key. -/
def AwaitsUser (crypto : EapolCrypto) (asks : ℤ → Bool) (w : World π) (sm : EapolSm π) : Prop :=
  let q := stepReceived w (enterReceived crypto (begun sm))
  (q.eap.eapState = .identity ∧ w.buildIdentity q.eap.reqId = none ∧ asks q.eap.reqId = true) ∨
    (q.eap.eapState = .getMethod ∧ q.eap.m.isNone = true ∧ q.eap.reqMethod = typeTls ∧
      w.pendingPin = true)

instance (asks : ℤ → Bool) (sm : EapolSm π) : Decidable (AwaitsUser crypto asks w sm) := by
  delta AwaitsUser
  infer_instance

theorem handed_over_leads (conf : EapolConfig) {ops : List (SuppOp π)}
    (h : HandedOver i (run (suppStep crypto) (init π conf) ops)) :
    Leads crypto w (run (suppStep crypto) (init π conf) ops)
      (Handled crypto w (run (suppStep crypto) (init π conf) ops)) := by
  have hplaced := placed_run crypto conf ops
  generalize run (suppStep crypto) (init π conf) ops = sm at h hplaced
  obtain ⟨hpc, hbe, hreq⟩ := h
  have hcan : CanTake sm.eap := by
    unfold Placed at hplaced
    rw [hpc] at hplaced
    refine hplaced.resolve_right fun hnot => ?_
    exact absurd (hbe.symm.trans hnot.2) (by decide)
  refine leads_handled hpc hreq hcan.2 fun hmany => ?_
  refine (hcan.1 hmany).resolve_right fun hreceived => ?_
  rcases hcan.2 with hst | hst | hst | hst
  all_goals exact absurd (hst.symm.trans hreceived.1) (by decide)

/-- **Every packet that is handed over is concluded exactly when it is handled.** In every run of the
machines among callers that do as they please, the loop of the EAP machine ends; and unless the user
is asked for something, the packet is then answered in exactly one way, and the backend machine
leaves REQUEST, if and only if the machine can take the packet and there is an answer to it. -/
theorem handed_over_answered_iff (crypto : EapolCrypto) (conf : EapolConfig)
    (ops : List (SuppOp π)) (w : World π) (asks : ℤ → Bool) (i : ℕ)
    (h : HandedOver i (run (suppStep crypto) (init π conf) ops)) :
    let sm := run (suppStep crypto) (init π conf) ops
    (∃ q, EapLoop crypto w sm q) ∧ ∀ q, EapLoop crypto w sm q →
      (Answered crypto q ∨ AwaitsUser crypto asks w sm ↔
        Handled crypto w sm ∨ AwaitsUser crypto asks w sm) := by
  obtain ⟨hends, hall⟩ := handed_over_leads (w := w) conf h
  refine ⟨hends, fun q hq => or_congr_left ?_⟩
  obtain ⟨hconc, hpending⟩ := hall q hq
  constructor
  · exact fun ha => hconc.mp ha.1
  · intro hh
    refine ⟨hconc.mpr hh, hpending hh, fun w' j hturn => ?_⟩
    obtain ⟨-, -, -, -, hleaves⟩ := turn_frame crypto w' hturn
    refine hleaves (hq.beState.trans h.2.1) ?_
    rcases (hconc.mpr hh).2 with ⟨hresp, -, -⟩ | ⟨-, hno⟩
    · exact .inl hresp
    · exact .inr hno

end Runs

/-! ## A request that is not answered -/

section Unanswered

/-- A packet is received by a machine whose port has been enabled, and the program goes on until the
packet is handed over. -/
def untilHandedOver (w : World ℕ) (packet : Bytes) : List (SuppOp ℕ) :=
  let goes (n : ℕ) : List (SuppOp ℕ) := List.replicate n (.op (.go w))
  goes 12 ++ [.op .initialised] ++ goes 12 ++ [.op (.notifyPortEnabled true)] ++ goes 12 ++
    [.op (.rxEapol ([1, 0, 0, 5] ++ packet))] ++ goes 5

theorem handed_over_answered_identity :
    let sm := run (suppStep leapCrypto) (init ℕ leapConf) (untilHandedOver leapWorld [1, 1, 0, 5, 1])
    HandedOver 1 sm ∧ ∃ q, EapLoop leapCrypto leapWorld sm q ∧ Answered leapCrypto q := by
  have hover : HandedOver 1 (run (suppStep leapCrypto) (init ℕ leapConf)
      (untilHandedOver leapWorld [1, 1, 0, 5, 1])) := by decide +kernel
  obtain ⟨⟨q, hq⟩, hall⟩ := handed_over_answered_iff leapCrypto leapConf
    (untilHandedOver leapWorld [1, 1, 0, 5, 1]) leapWorld (fun _ => false) 1 hover
  refine ⟨hover, q, hq, ?_⟩
  exact ((hall q hq).mpr (.inl (by decide +kernel))).resolve_right (by decide +kernel)

/-- A method that returns no response to a message that it fails to process, and does not say that
the request is to be ignored: what EAP-IKEv2 does. -/
def silentMethod : EapMethod ℕ :=
  { leapMethod with
    method := 49
    process := fun n flags _ _ => (none, ⟨false, .mayCont, .fail, true⟩, n, flags) }

def silentWorld : World ℕ :=
  { leapWorld with
    getEapMethod := fun _ method => if method = 49 then some silentMethod else none }

/-- It is not the case that every packet is concluded that the user is not asked about, and after
this request the backend machine stays in REQUEST. -/
theorem unanswered_request_waits :
    ¬ (∀ (ops : List (SuppOp ℕ)) (w : World ℕ) (i : ℕ),
        let sm := run (suppStep leapCrypto) (init ℕ leapConf) ops
        HandedOver i sm → ∀ q, EapLoop leapCrypto w sm q →
          Answered leapCrypto q ∨ AwaitsUser leapCrypto (fun _ => true) w sm) ∧
      (let sm := run (suppStep leapCrypto) (init ℕ leapConf)
        (untilHandedOver silentWorld [1, 1, 0, 5, 49] ++
          List.replicate 8 (.op (.go silentWorld)))
      sm.pc = .rest ∧ sm.changed = false ∧ sm.beState = .request) := by
  refine ⟨fun hall => ?_, by decide +kernel⟩
  have hover : HandedOver 1 (run (suppStep leapCrypto) (init ℕ leapConf)
      (untilHandedOver silentWorld [1, 1, 0, 5, 49])) := by decide +kernel
  obtain ⟨⟨q, hq⟩, hleads⟩ := handed_over_leads (w := silentWorld) leapConf hover
  rcases hall _ silentWorld 1 hover q hq with hanswered | hawaits
  · exact absurd ((hleads q hq).1.mp hanswered.1) (by decide +kernel)
  · exact absurd hawaits (by decide +kernel)

end Unanswered

end Hostapd.EapolSupp
