import Hostapd.EapServer.Machine

/-!
# The EAP server: what a step of the machine can do

* **`smStep_cases`**: a step restarts the machine, disables it, ends it after too many rounds, or
  makes a transition of its state while rounds are left.
* **`Move`** and **`smSwitch_move`**: the transitions. Most of them are `Quiet`: they leave the
  method alone and enter a state that asks nothing of it. Each other one has a constructor with
  the states it comes from.
-/

namespace Hostapd.EapServer

open Hostapd.Lib

section Moves

variable {π ω : Type} {registered : List (EapMethod π ω)} {w : World ω}

def Plain : EapState → Bool
  | .disabled | .initialise | .pickUpMethod | .received | .integrityCheck | .methodResponse
  | .nak | .selectAction | .success => false
  | _ => true

structure Kept (sm sm' : EapSm π ω) : Prop where
  m : sm'.m = sm.m
  priv : sm'.eapMethodPriv = sm.eapMethodPriv
  currentMethod : sm'.currentMethod = sm.currentMethod
  backendAuth : sm'.backendAuth = sm.backendAuth
  instances : sm'.instances = sm.instances
  processed : sm'.processed = sm.processed
  numRounds : sm'.numRounds = sm.numRounds

/-- The method is left alone and a plain state entered. -/
structure Quiet (sm sm' : EapSm π ω) : Prop extends Kept sm sm' where
  plain : Plain sm'.eapState = true

variable {sm sm' : EapSm π ω}

theorem Quiet.of_entry {g : Bool} {st : EapState}
    (h : Quiet (smEntry g st sm) sm') : Quiet sm sm' :=
  ⟨⟨h.m, h.priv, h.currentMethod, h.backendAuth, h.instances, h.processed, h.numRounds⟩, h.plain⟩

theorem quiet_self {sm : EapSm π ω} (h : Plain sm.eapState = true) : Quiet sm sm :=
  ⟨⟨rfl, rfl, rfl, rfl, rfl, rfl, rfl⟩, h⟩

theorem quiet_resend {sm : EapSm π ω} (h : Plain sm.eapState = true) : Quiet sm (resend w sm) := by
  rw [resend]
  split <;> exact ⟨⟨rfl, rfl, rfl, rfl, rfl, rfl, rfl⟩, h⟩

theorem quiet_sendReq {sm : EapSm π ω} (h : Plain sm.eapState = true) :
    Quiet sm (sendReq w sm) := by
  rw [sendReq]
  split <;> exact ⟨⟨rfl, rfl, rfl, rfl, rfl, rfl, rfl⟩, h⟩

theorem quiet_aaaRequest (sm : EapSm π ω) : Quiet sm (enterAaaRequest w sm) := by
  rw [enterAaaRequest]
  split <;> exact ⟨⟨rfl, rfl, rfl, rfl, rfl, rfl, rfl⟩, rfl⟩

/-! ## Entering a state that the method is part of -/

theorem enterInitialise_spec (g : Bool) (sm : EapSm π ω) :
    (enterInitialise g sm).eapState = .initialise ∧ (enterInitialise g sm).m = none ∧
      (enterInitialise g sm).eapMethodPriv = (if sm.m.isSome then none else sm.eapMethodPriv) ∧
      (enterInitialise g sm).backendAuth = sm.backendAuth ∧
      (sm.backendAuth = true → (enterInitialise g sm).currentMethod = typeNone) ∧
      (enterInitialise g sm).numRounds = 0 ∧ (enterInitialise g sm).processed = [] := by
  cases hbackend : sm.backendAuth <;> simp [enterInitialise, smEntry, hbackend]

theorem enterPickUpMethod_spec (registered : List (EapMethod π ω)) (w : World ω) {sm : EapSm π ω}
    (hm : sm.m = none) (hpriv : sm.eapMethodPriv = none) (hnone : sm.currentMethod = typeNone) :
    let sm' := enterPickUpMethod registered w sm
    (sm'.eapState = .pickUpMethod ∧ sm'.backendAuth = sm.backendAuth ∧
      sm'.processed = sm.processed ∧ sm'.numRounds = sm.numRounds) ∧
    (sm'.m = none ∧ sm'.eapMethodPriv = none ∧ sm'.currentMethod = typeNone ∨
      sm'.m.isSome = true ∧ sm'.eapMethodPriv.isSome = true ∧
        sm'.currentMethod = typeIdentity) := by
  intro sm'
  have hreset : (if (smEntry false .pickUpMethod sm).m.isSome then none
      else (smEntry false .pickUpMethod sm).eapMethodPriv) = none := by
    simp [smEntry, hm, hpriv]
  simp only [sm', enterPickUpMethod, hreset]
  split
  case isFalse => exact ⟨⟨rfl, rfl, rfl, rfl⟩, .inl ⟨hm, hpriv, hnone⟩⟩
  case isTrue hpick =>
    split
    · exact ⟨⟨rfl, rfl, rfl, rfl⟩, .inl ⟨rfl, rfl, rfl⟩⟩
    case h_2 initPickUp hbind =>
      obtain ⟨m, hget, -⟩ := Option.bind_eq_some_iff.mp hbind
      split
      · exact ⟨⟨rfl, rfl, rfl, rfl⟩, .inl ⟨rfl, rfl, rfl⟩⟩
      · refine ⟨⟨rfl, rfl, rfl, rfl⟩, .inr ⟨Option.isSome_iff_exists.mpr ⟨m, hget⟩, rfl, ?_⟩⟩
        exact of_decide_eq_true hpick

theorem enterIntegrityCheck_spec (h : enterIntegrityCheck w sm = some sm') :
    (sm.m.isSome = true ∧ sm.eapMethodPriv.isSome = true) ∧
      ∃ ignore, sm' = { smEntry false .integrityCheck sm with ignore := ignore } := by
  rw [enterIntegrityCheck] at h
  split at h
  case h_1 m priv hm hpriv =>
    have hboth : sm.m.isSome = true ∧ sm.eapMethodPriv.isSome = true :=
      ⟨Option.isSome_iff_exists.mpr ⟨m, hm⟩, Option.isSome_iff_exists.mpr ⟨priv, hpriv⟩⟩
    split at h
    · exact ⟨hboth, _, (Option.some.inj h).symm⟩
    · exact ⟨hboth, sm.ignore, (Option.some.inj h).symm⟩
  case h_2 => exact absurd h nofun

/-- A response was given to the method, and recorded. -/
structure Responded (sm sm' : EapSm π ω) : Prop where
  state : sm'.eapState = .methodResponse
  method : ∃ m, sm.m = some m ∧ sm'.m = some m
  priv : sm.eapMethodPriv.isSome = true ∧ sm'.eapMethodPriv.isSome = true
  currentMethod : sm'.currentMethod = sm.currentMethod
  currentId : sm'.currentId = sm.currentId
  backendAuth : sm'.backendAuth = sm.backendAuth
  instances : sm'.instances = sm.instances
  numRounds : sm'.numRounds = sm.numRounds
  recorded : ∃ key, sm'.processed =
      sm.processed ++ [⟨sm.eapState, sm.eapRespData, sm.instances, key⟩] ∧
    (sm'.methodState = .done → key = some sm'.eapKeyData)

theorem enterMethodResponse_spec (h : enterMethodResponse w sm = some sm') :
    Responded sm sm' := by
  rw [enterMethodResponse] at h
  split at h
  case h_1 m priv hm hpriv =>
    have hsome : sm.eapMethodPriv.isSome = true := Option.isSome_iff_exists.mpr ⟨priv, hpriv⟩
    -- what the method returns, and whether it is done
    split at h
    split at h
    · cases h
      exact ⟨rfl, ⟨m, hm, hm⟩, ⟨hsome, rfl⟩, rfl, rfl, rfl, rfl, rfl, _, rfl, fun _ => rfl⟩
    · cases h
      exact ⟨rfl, ⟨m, hm, hm⟩, ⟨hsome, rfl⟩, rfl, rfl, rfl, rfl, rfl, _, rfl, nofun⟩
  case h_2 => exact absurd h nofun

theorem enterMethodRequest_spec (h : enterMethodRequest w sm = some sm') :
    sm'.eapState = .methodRequest ∧ sm'.m = sm.m ∧
      sm'.eapMethodPriv.isSome = sm.eapMethodPriv.isSome ∧ sm'.backendAuth = sm.backendAuth ∧
      sm'.processed = sm.processed ∧ sm'.numRounds = sm.numRounds := by
  rw [enterMethodRequest] at h
  split at h
  case h_1 =>
    cases h
    exact ⟨rfl, rfl, rfl, rfl, rfl, rfl⟩
  case h_2 => exact absurd h nofun
  case h_3 m priv hm hpriv =>
    have hsome : sm.eapMethodPriv.isSome = true := Option.isSome_iff_exists.mpr ⟨priv, hpriv⟩
    cases h
    exact ⟨rfl, rfl, hsome.symm, rfl, rfl, rfl⟩

theorem enterProposeMethod_spec (registered : List (EapMethod π ω)) (w : World ω)
    {sm : EapSm π ω} (hpaired : sm.m.isSome = sm.eapMethodPriv.isSome) :
    let sm' := enterProposeMethod registered w sm
    sm'.eapState = .proposeMethod ∧ sm'.m.isSome = sm'.eapMethodPriv.isSome ∧
      sm'.backendAuth = sm.backendAuth ∧ sm'.processed = sm.processed ∧
      sm'.numRounds = sm.numRounds := by
  intro sm'
  have hreset : (if sm.m.isSome then none else sm.eapMethodPriv) = none := by
    cases hm : sm.m with
    | none => simpa [hm] using hpaired.symm
    | some m => rfl
  simp only [sm', enterProposeMethod, smEntry]
  split
  case h_1 hm =>
    exact ⟨rfl, (congrArg Option.isSome hm).trans (congrArg Option.isSome hreset).symm, rfl, rfl,
      rfl⟩
  case h_2 m hm =>
    split
    · exact ⟨rfl, rfl, rfl, rfl, rfl⟩
    · exact ⟨rfl, by simp [hm], rfl, rfl, rfl⟩

theorem policyUpdate_frame (nakList : Option Bytes) (sm : EapSm π ω) :
    ∃ vars decision, policyUpdate nakList sm =
      { sm with toMethodVars := vars, decision := decision } := by
  unfold policyUpdate
  split
  case h_1 =>
    split
    · exact ⟨sm.toMethodVars, .failure, rfl⟩
    · exact ⟨_, sm.decision, rfl⟩
  case h_2 => exact ⟨sm.toMethodVars, sm.decision, rfl⟩

theorem enterNak_spec (h : enterNak sm = some sm') :
    sm'.eapState = .nak ∧ sm'.m = none ∧ sm'.eapMethodPriv = none ∧
      sm'.backendAuth = sm.backendAuth ∧ sm'.processed = sm.processed ∧
      sm'.numRounds = sm.numRounds := by
  rw [enterNak] at h
  split at h
  · exact absurd h nofun
  · obtain ⟨vars, decision, heq⟩ := policyUpdate_frame (nakList sm.eapRespData)
      { smEntry false .nak sm with eapMethodPriv := none, m := none }
    cases h.symm.trans (congrArg some heq)
    exact ⟨rfl, rfl, rfl, rfl, rfl, rfl⟩

/-! ## The policy -/

/-- The policy writes to the variables that methods share, and to `startReauth`. -/
def Framed (sm sm' : EapSm π ω) : Prop :=
  ∃ vars startReauth, sm' = { sm with toMethodVars := vars, startReauth := startReauth }

theorem methodsDecision_spec (sm : EapSm π ω) :
    (methodsDecision sm).1 ≠ .success ∧ Framed sm (methodsDecision sm).2 := by
  rw [methodsDecision]
  split
  · exact ⟨nofun, _, _, rfl⟩
  · split
    · exact ⟨nofun, _, _, rfl⟩
    · exact ⟨nofun, _, _, rfl⟩

theorem userDecision_spec (sm : EapSm π ω) :
    (userDecision w sm).1 ≠ .success ∧ Framed sm (userDecision w sm).2 := by
  rw [userDecision]
  split
  · exact methodsDecision_spec sm
  split
  · dsimp only
    split
    · exact ⟨nofun, _, sm.startReauth, rfl⟩
    case h_2 vars _ =>
      split
      · exact ⟨nofun, _, sm.startReauth, rfl⟩
      · obtain ⟨hdecision, vars, start, heq⟩ := methodsDecision_spec
          { sm with toMethodVars := { vars with updateUser := false } }
        exact ⟨hdecision, vars, start, heq⟩
  · exact methodsDecision_spec sm

theorem enterSelectAction_spec (h : enterSelectAction w sm = some sm') :
    Framed { smEntry false .selectAction sm with decision := sm'.decision } sm' ∧
      (sm'.decision = .success → ∃ m priv, sm.m = some m ∧ sm.eapMethodPriv = some priv ∧
        sm.currentMethod ≠ typeIdentity ∧ m.isSuccess priv = true) := by
  obtain ⟨⟨decision, sm₁⟩, hdecision, rfl⟩ := Option.map_eq_some_iff.mp h
  have huser : some (userDecision w (smEntry false .selectAction sm)) = some (decision, sm₁) →
      decision ≠ .success ∧ Framed (smEntry false .selectAction sm) sm₁ := by
    intro heq
    obtain ⟨hne, hframe⟩ := userDecision_spec (w := w) (smEntry false .selectAction sm)
    rw [Option.some.inj heq] at hne hframe
    exact ⟨hne, hframe⟩
  have hframed : Framed (smEntry false .selectAction sm) sm₁ →
      Framed { smEntry false .selectAction sm with decision := decision }
        { sm₁ with decision := decision } := by
    rintro ⟨vars, start, rfl⟩
    exact ⟨vars, start, rfl⟩
  rw [getDecision] at hdecision
  split at hdecision
  · cases hdecision
    exact ⟨hframed ⟨_, _, rfl⟩, nofun⟩
  split at hdecision
  · obtain ⟨hne, hframe⟩ := huser hdecision
    exact ⟨hframed hframe, fun hsuccess => absurd hsuccess hne⟩
  · exact absurd hdecision nofun
  case h_3 m priv hm hpriv =>
    split at hdecision
    case isTrue hsuccess =>
      cases hdecision
      exact ⟨hframed ⟨_, sm.startReauth, rfl⟩, fun _ => ⟨m, priv, hm, hpriv, hsuccess⟩⟩
    case isFalse =>
      split at hdecision
      · cases hdecision
        exact ⟨hframed ⟨_, sm.startReauth, rfl⟩, nofun⟩
      · obtain ⟨hne, hframe⟩ := huser hdecision
        exact ⟨hframed hframe, fun hsuccess => absurd hsuccess hne⟩

theorem enterSelectAction_entered (h : enterSelectAction w sm = some sm') :
    sm'.eapState = .selectAction ∧ sm'.changed = true ∧ sm'.processed = sm.processed ∧
      sm'.numRounds = sm.numRounds := by
  obtain ⟨⟨vars, start, heq⟩, -⟩ := enterSelectAction_spec h
  rw [heq]
  exact ⟨rfl, by simp [smEntry], rfl, rfl⟩

/-! ## Transitions -/

inductive Move (registered : List (EapMethod π ω)) (w : World ω) (sm : EapSm π ω) :
    EapSm π ω → Prop
  | quiet {sm' : EapSm π ω} (h : Quiet sm sm') : Move registered w sm sm'
  | stay (h : sm.eapState = .disabled ∨ sm.eapState = .success ∨ sm.eapState = .methodResponse) :
      Move registered w sm sm
  | initialise : Move registered w sm (enterInitialise false sm)
  | pickUp (h : sm.eapState = .initialise ∧ sm.backendAuth = true) :
      Move registered w sm (enterPickUpMethod registered w sm)
  | received (h : sm.eapState = .idle) : Move registered w sm (enterReceived sm)
  | check {sm' : EapSm π ω} (h : sm.eapState = .received ∧ sm.takesResp = true)
      (hsm' : enterIntegrityCheck w sm = some sm') : Move registered w sm sm'
  | response {sm' : EapSm π ω} (h : sm.eapState = .integrityCheck ∨
        sm.eapState = .pickUpMethod ∧ sm.currentMethod ≠ typeNone)
      (hsm' : enterMethodResponse w sm = some sm') : Move registered w sm sm'
  | again {sm' : EapSm π ω} (h : sm.eapState = .methodResponse)
      (hsm' : enterMethodResponse w { sm with methodPending := .none } = some sm') :
      Move registered w sm sm'
  | request {sm' : EapSm π ω} (hsm' : enterMethodRequest w sm = some sm') :
      Move registered w sm sm'
  | propose {sm₀ : EapSm π ω} (h : Kept sm sm₀) :
      Move registered w sm (enterProposeMethod registered w sm₀)
  | nak {sm' : EapSm π ω} (hsm' : enterNak sm = some sm') : Move registered w sm sm'
  | select {sm' : EapSm π ω} (h : sm.eapState = .initialise ∨
        sm.eapState = .pickUpMethod ∧ sm.currentMethod = typeNone ∨
        sm.eapState = .methodResponse ∧ sm.methodState = .done ∨ sm.eapState = .nak)
      (hsm' : enterSelectAction w sm = some sm') : Move registered w sm sm'
  | success (h : sm.eapState = .selectAction ∧ sm.decision = .success) :
      Move registered w sm (enterSuccess w sm)

theorem smSwitch_move (h : smSwitch registered w sm = some sm') :
    Move registered w sm sm' := by
  have hquiet : ∀ {sm'' : EapSm π ω}, some sm'' = some sm' → Quiet sm sm'' →
      Move registered w sm sm' := fun heq hq => Option.some.inj heq ▸ .quiet hq
  have hself : some sm = some sm' → Plain sm.eapState = true → Move registered w sm sm' :=
    fun heq hplain => hquiet heq (quiet_self hplain)
  cases hst : sm.eapState with
  | initialise =>
    simp only [smSwitch, hst] at h
    split at h
    case isTrue hbackend =>
      split at h
      · exact .select (.inl hst) h
      split at h
      · exact .nak h
      · cases h
        exact .pickUp ⟨hst, hbackend⟩
    case isFalse => exact .select (.inl hst) h
  | pickUpMethod =>
    simp only [smSwitch, hst] at h
    split at h
    case isTrue hnone => exact .select (.inr (.inl ⟨hst, hnone⟩)) h
    case isFalse hsome => exact .response (.inr ⟨hst, hsome⟩) h
  | disabled =>
    simp only [smSwitch, hst] at h
    split at h
    · cases h
      exact .initialise
    · cases h
      exact .stay (.inl hst)
  | idle =>
    simp only [smSwitch, hst] at h
    split at h
    · exact hquiet h (quiet_resend rfl).of_entry
    split at h
    · cases h
      exact .received hst
    · exact hself h (by rw [hst]; rfl)
  | retransmit =>
    simp only [smSwitch, hst] at h
    split at h
    · exact hquiet h ⟨⟨rfl, rfl, rfl, rfl, rfl, rfl, rfl⟩, rfl⟩
    · exact hquiet h ⟨⟨rfl, rfl, rfl, rfl, rfl, rfl, rfl⟩, rfl⟩
  | received =>
    simp only [smSwitch, hst] at h
    split at h
    · exact .nak h
    split at h
    case isTrue htakes => exact .check ⟨hst, htakes⟩ h
    case isFalse => exact hquiet h ⟨⟨rfl, rfl, rfl, rfl, rfl, rfl, rfl⟩, rfl⟩
  | integrityCheck =>
    simp only [smSwitch, hst] at h
    split at h
    · exact hquiet h ⟨⟨rfl, rfl, rfl, rfl, rfl, rfl, rfl⟩, rfl⟩
    · exact .response (.inl hst) h
  | methodResponse =>
    simp only [smSwitch, hst] at h
    split at h
    case isTrue hdone => exact .select (.inr (.inr (.inl ⟨hst, hdone⟩))) h
    case isFalse =>
      split at h
      · cases h
        exact .stay (.inr (.inr hst))
      · exact .again hst (by simpa only [hst] using h)
      · exact .request h
  | proposeMethod =>
    simp only [smSwitch, hst] at h
    split at h
    · exact hquiet h ⟨⟨rfl, rfl, rfl, rfl, rfl, rfl, rfl⟩, rfl⟩
    · cases h
      exact .propose ⟨rfl, rfl, rfl, rfl, rfl, rfl, rfl⟩
    · exact .request h
  | nak =>
    simp only [smSwitch, hst] at h
    exact .select (.inr (.inr (.inr hst))) h
  | selectAction =>
    simp only [smSwitch, hst] at h
    cases hdecision : sm.decision with
    | failure =>
      rw [hdecision] at h
      exact hquiet h ⟨⟨rfl, rfl, rfl, rfl, rfl, rfl, rfl⟩, rfl⟩
    | success =>
      rw [hdecision] at h
      cases h
      exact .success ⟨hst, hdecision⟩
    | passthrough =>
      rw [hdecision] at h
      exact hquiet h ⟨⟨rfl, rfl, rfl, rfl, rfl, rfl, rfl⟩, rfl⟩
    | cont =>
      rw [hdecision] at h
      cases h
      exact .propose ⟨rfl, rfl, rfl, rfl, rfl, rfl, rfl⟩
  | success =>
    simp only [smSwitch, hst] at h
    cases h
    exact .stay (.inr (.inl hst))
  | methodRequest =>
    simp only [smSwitch, hst] at h
    exact hquiet h (quiet_sendReq rfl).of_entry
  | initializePassthrough =>
    simp only [smSwitch, hst] at h
    split at h
    · exact hquiet h ⟨⟨rfl, rfl, rfl, rfl, rfl, rfl, rfl⟩, rfl⟩
    · exact hquiet h (quiet_aaaRequest sm)
  | idle2 =>
    simp only [smSwitch, hst] at h
    split at h
    · exact hquiet h ⟨⟨rfl, rfl, rfl, rfl, rfl, rfl, rfl⟩, rfl⟩
    split at h
    · exact hquiet h (quiet_resend rfl).of_entry
    · exact hself h (by rw [hst]; rfl)
  | retransmit2 =>
    simp only [smSwitch, hst] at h
    split at h
    · exact hquiet h ⟨⟨rfl, rfl, rfl, rfl, rfl, rfl, rfl⟩, rfl⟩
    · exact hquiet h ⟨⟨rfl, rfl, rfl, rfl, rfl, rfl, rfl⟩, rfl⟩
  | received2 =>
    simp only [smSwitch, hst] at h
    split at h
    · exact hquiet h (quiet_aaaRequest sm)
    · exact hquiet h ⟨⟨rfl, rfl, rfl, rfl, rfl, rfl, rfl⟩, rfl⟩
  | aaaResponse =>
    simp only [smSwitch, hst] at h
    exact hquiet h (quiet_sendReq rfl).of_entry
  | aaaIdle =>
    simp only [smSwitch, hst] at h
    split at h
    · exact hquiet h ⟨⟨rfl, rfl, rfl, rfl, rfl, rfl, rfl⟩, rfl⟩
    split at h
    · exact hquiet h ⟨⟨rfl, rfl, rfl, rfl, rfl, rfl, rfl⟩, rfl⟩
    split at h
    · exact hquiet h ⟨⟨rfl, rfl, rfl, rfl, rfl, rfl, rfl⟩, rfl⟩
    split at h
    · exact hquiet h ⟨⟨rfl, rfl, rfl, rfl, rfl, rfl, rfl⟩, rfl⟩
    · exact hself h (by rw [hst]; rfl)
  | discard | sendRequest | discard2 | sendRequest2 | aaaRequest =>
    simp only [smSwitch, hst] at h
    exact hquiet h ⟨⟨rfl, rfl, rfl, rfl, rfl, rfl, rfl⟩, rfl⟩
  | timeoutFailure | failure | timeoutFailure2 | failure2 | success2 =>
    simp only [smSwitch, hst] at h
    exact hself h (by rw [hst]; rfl)

theorem smSwitch_off (hst : sm.eapState = .disabled ∨ sm.eapState = .success)
    (h : smSwitch registered w sm = some sm') : sm' = enterInitialise false sm ∨ sm' = sm := by
  rcases hst with hst | hst
  · simp only [smSwitch, hst] at h
    split at h
    · exact .inl (Option.some.inj h).symm
    · exact .inr (Option.some.inj h).symm
  · simp only [smSwitch, hst] at h
    exact .inr (Option.some.inj h).symm

theorem smStep_cases (h : smStep registered w sm = some sm') :
    sm' = enterInitialise true sm ∨ sm' = enterDisabled true sm ∨
      sm.numRounds = maxAuthRounds + 1 ∧
        sm' = enterFailure w true { sm with numRounds := sm.numRounds + 1 } ∨
      maxAuthRounds + 1 < sm.numRounds ∧ sm' = sm ∨
      sm.numRounds ≤ maxAuthRounds ∧ smSwitch registered w sm = some sm' := by
  rw [smStep] at h
  split at h
  · exact .inl (Option.some.inj h).symm
  split at h
  · exact .inr (.inl (Option.some.inj h).symm)
  split at h
  case isTrue hover =>
    split at h
    case isTrue hone => exact .inr (.inr (.inl ⟨hone, (Option.some.inj h).symm⟩))
    case isFalse hmore =>
      exact .inr (.inr (.inr (.inl ⟨by omega, (Option.some.inj h).symm⟩)))
  case isFalse hleft => exact .inr (.inr (.inr (.inr ⟨by omega, h⟩)))

end Moves

end Hostapd.EapServer
