import Hostapd.EapServer.Moves

/-!
# The EAP server: running a method that is not there

INTEGRITY_CHECK and METHOD_RESPONSE call the method without asking whether there is one. RECEIVED
enters INTEGRITY_CHECK when the response is of `currentMethod` and has the current identifier; but
when no method could be started for a proposal, `currentMethod` is NONE or the type that is not
registered, and the request sent before is sent again.

* **`Paired`**: a method and its data come and go together. `Inv` adds what is known in the states
  that lead to a method.
* `smStep_inv`, **`smStep_isSome`**: a step keeps the invariant, and follows no NULL pointer unless
  a response is taken for a missing method (`Missing`).
* **`run_methods_iff`**: a run enters the two states only with a method and its data exactly when
  no response is taken for a missing method.
-/

namespace Hostapd.EapServer

open Hostapd.Lib

section Missing

variable {π ω : Type} {registered : List (EapMethod π ω)} {w : World ω}

/-! ## The invariant -/

def Paired (sm : EapSm π ω) : Prop := sm.m.isSome = sm.eapMethodPriv.isSome

structure Inv (sm : EapSm π ω) : Prop where
  paired : Paired sm
  running : sm.eapState = .integrityCheck ∨ sm.eapState = .methodResponse → sm.m.isSome = true
  started : sm.eapState = .initialise →
    sm.m = none ∧ (sm.backendAuth = true → sm.currentMethod = typeNone)
  pickedUp : sm.eapState = .pickUpMethod → sm.currentMethod ≠ typeNone → sm.m.isSome = true

variable {sm : EapSm π ω}

theorem inv_of_paired (h : Paired sm)
    (hst : sm.eapState ≠ .integrityCheck ∧ sm.eapState ≠ .methodResponse ∧
      sm.eapState ≠ .initialise ∧ sm.eapState ≠ .pickUpMethod) : Inv sm :=
  ⟨h, fun hrunning => absurd hrunning (not_or.mpr ⟨hst.1, hst.2.1⟩),
    fun hstarted => absurd hstarted hst.2.2.1, fun hpicked => absurd hpicked hst.2.2.2⟩

theorem Paired.kept {sm sm' : EapSm π ω} (h : Paired sm) (hkept : Kept sm sm') : Paired sm' := by
  rw [Paired, hkept.m, hkept.priv]
  exact h

theorem paired_none (hm : sm.m = none) (hpriv : sm.eapMethodPriv = none) :
    Paired sm := by
  rw [Paired, hm, hpriv]
  rfl

theorem plain_ne {st : EapState} (h : Plain st = true) :
    st ≠ .integrityCheck ∧ st ≠ .methodResponse ∧ st ≠ .initialise ∧ st ≠ .pickUpMethod := by
  cases st <;> simp_all [Plain]

theorem Paired.enterInitialise (h : Paired sm) (g : Bool) :
    Inv (enterInitialise g sm) := by
  obtain ⟨hst, hm, hpriv, hbackend, hnone, -, -⟩ := enterInitialise_spec g sm
  have hreset : (EapServer.enterInitialise g sm).eapMethodPriv = none := by
    rw [hpriv]
    cases hm : sm.m with
    | none => simpa [Paired, hm] using h.symm
    | some m => rfl
  refine ⟨paired_none hm hreset, ?_, fun _ => ⟨hm, fun hb => hnone (hbackend ▸ hb)⟩, ?_⟩
  · rw [hst]
    exact fun hrunning => absurd hrunning (not_or.mpr ⟨nofun, nofun⟩)
  · rw [hst]
    exact fun hpicked => absurd hpicked nofun

theorem Responded.inv {sm sm' : EapSm π ω} (h : Responded sm sm') : Inv sm' := by
  obtain ⟨m, -, hm⟩ := h.method
  have hsome : sm'.m.isSome = true := Option.isSome_iff_exists.mpr ⟨m, hm⟩
  exact ⟨hsome.trans h.priv.2.symm, fun _ => hsome,
    fun hstarted => absurd (h.state.symm.trans hstarted) nofun, fun _ _ => hsome⟩

theorem Inv.pickUp_spec (registered : List (EapMethod π ω)) (w : World ω)
    (h : Inv sm)
    (hst : sm.eapState = .initialise ∧ sm.backendAuth = true) :
    let sm' := enterPickUpMethod registered w sm
    (sm'.eapState = .pickUpMethod ∧ sm'.backendAuth = sm.backendAuth ∧
      sm'.processed = sm.processed ∧ sm'.numRounds = sm.numRounds) ∧
    (sm'.m = none ∧ sm'.eapMethodPriv = none ∧ sm'.currentMethod = typeNone ∨
      sm'.m.isSome = true ∧ sm'.eapMethodPriv.isSome = true ∧
        sm'.currentMethod = typeIdentity) := by
  obtain ⟨hm, hnone⟩ := h.started hst.1
  have hpriv : sm.eapMethodPriv = none := by
    simpa [Paired, hm] using h.paired.symm
  exact enterPickUpMethod_spec registered w hm hpriv (hnone hst.2)

theorem Inv.move {sm sm' : EapSm π ω} (h : Inv sm) (hmove : Move registered w sm sm') :
    Inv sm' := by
  cases hmove with
  | quiet hq => exact inv_of_paired (h.paired.kept hq.toKept) (plain_ne hq.plain)
  | stay => exact h
  | initialise => exact h.paired.enterInitialise false
  | pickUp hst =>
    obtain ⟨⟨hst', -, -, -⟩, hmethod⟩ := h.pickUp_spec registered w hst
    refine ⟨?_, ?_, ?_, ?_⟩
    · rcases hmethod with ⟨hm', hpriv', -⟩ | ⟨hm', hpriv', -⟩
      · exact paired_none hm' hpriv'
      · exact hm'.trans hpriv'.symm
    · rw [hst']
      exact fun hrunning => absurd hrunning (not_or.mpr ⟨nofun, nofun⟩)
    · rw [hst']
      exact fun hstarted => absurd hstarted nofun
    · intro _ hcurrent
      rcases hmethod with ⟨-, -, hnone'⟩ | ⟨hm', -, -⟩
      · exact absurd hnone' hcurrent
      · exact hm'
  | received => exact inv_of_paired h.paired ⟨nofun, nofun, nofun, nofun⟩
  | check _ hsm' =>
    obtain ⟨⟨hm, -⟩, ignore, rfl⟩ := enterIntegrityCheck_spec hsm'
    exact ⟨h.paired, fun _ => hm, nofun, nofun⟩
  | response _ hsm' => exact (enterMethodResponse_spec hsm').inv
  | again _ hsm' => exact (enterMethodResponse_spec hsm').inv
  | request hsm' =>
    obtain ⟨hst, hm, hpriv, -⟩ := enterMethodRequest_spec hsm'
    refine inv_of_paired ?_ (by rw [hst]; exact ⟨nofun, nofun, nofun, nofun⟩)
    rw [Paired, hm, hpriv]
    exact h.paired
  | propose hkept =>
    obtain ⟨hst, hpaired, -⟩ := enterProposeMethod_spec registered w
      (h.paired.kept hkept)
    exact inv_of_paired hpaired (by rw [hst]; exact ⟨nofun, nofun, nofun, nofun⟩)
  | nak hsm' =>
    obtain ⟨hst, hm, hpriv, -⟩ := enterNak_spec hsm'
    exact inv_of_paired (paired_none hm hpriv) (by rw [hst]; exact ⟨nofun, nofun, nofun, nofun⟩)
  | select _ hsm' =>
    obtain ⟨⟨vars, start, heq⟩, -⟩ := enterSelectAction_spec hsm'
    rw [heq]
    exact inv_of_paired h.paired ⟨nofun, nofun, nofun, nofun⟩
  | success => exact inv_of_paired h.paired ⟨nofun, nofun, nofun, nofun⟩

theorem smStep_inv {sm sm' : EapSm π ω} (h : Inv sm) (hsm' : smStep registered w sm = some sm') :
    Inv sm' := by
  rcases smStep_cases hsm' with rfl | rfl | ⟨-, rfl⟩ | ⟨-, rfl⟩ | ⟨-, hswitch⟩
  · exact h.paired.enterInitialise true
  · exact inv_of_paired h.paired ⟨nofun, nofun, nofun, nofun⟩
  · exact inv_of_paired h.paired ⟨nofun, nofun, nofun, nofun⟩
  · exact h
  · exact h.move (smSwitch_move hswitch)

theorem call_inv (h : Inv sm) (op : Op ω) : Inv (call sm op) := by
  cases op with
  | smStep w => exact h
  | lower vars => exact ⟨h.paired, h.running, h.started, h.pickedUp⟩
  | pendingCb =>
    rw [call]
    split
    · exact ⟨h.paired, h.running, h.started, h.pickedUp⟩
    · exact h
  | notifyCached => exact inv_of_paired h.paired ⟨nofun, nofun, nofun, nofun⟩
  | clearIdentity => exact ⟨h.paired, h.running, h.started, h.pickedUp⟩
  | methodEvent env =>
    simp only [call]
    split
    case h_1 m priv hm hpriv =>
      have hsome : sm.m.isSome = true := Option.isSome_iff_exists.mpr ⟨m, hm⟩
      exact ⟨hsome, h.running, h.started, h.pickedUp⟩
    case h_2 => exact h

/-! ## NULL pointers -/

theorem Paired.data (h : Paired sm) {m : EapMethod π ω} (hm : sm.m = some m) :
    ∃ priv, sm.eapMethodPriv = some priv := by
  rw [← Option.isSome_iff_exists, ← h, hm]
  rfl

theorem Paired.selectAction_isSome (h : Paired sm) :
    ∃ sm', enterSelectAction w sm = some sm' := by
  rw [← Option.isSome_iff_exists, enterSelectAction, Option.isSome_map, getDecision]
  split
  · rfl
  split
  · rfl
  case h_2 m hm hpriv =>
    obtain ⟨priv, hsome⟩ := h.data hm
    cases hpriv.symm.trans hsome
  · split
    · rfl
    split <;> rfl

theorem Paired.nak_isSome (h : Paired sm) : ∃ sm', enterNak sm = some sm' := by
  rw [← Option.isSome_iff_exists, enterNak]
  split
  case isTrue hnull =>
    obtain ⟨hpriv, hm⟩ := hnull
    have hsome : sm.m.isSome = true := h.trans hpriv
    rw [show sm.m = none from hm] at hsome
    cases hsome
  case isFalse => rfl

theorem Paired.methodRequest_isSome (h : Paired sm) :
    ∃ sm', enterMethodRequest w sm = some sm' := by
  rw [← Option.isSome_iff_exists, enterMethodRequest]
  split
  · rfl
  case h_2 m hm hpriv =>
    obtain ⟨priv, hsome⟩ := h.data hm
    cases hpriv.symm.trans hsome
  · rfl

theorem Paired.methodResponse_isSome (h : Paired sm) (hm : sm.m.isSome = true) :
    ∃ sm', enterMethodResponse w sm = some sm' := by
  obtain ⟨m, hm⟩ := Option.isSome_iff_exists.mp hm
  obtain ⟨priv, hpriv⟩ := h.data hm
  rw [← Option.isSome_iff_exists, enterMethodResponse]
  simp only [smEntry, hm, hpriv]
  split <;> rfl

theorem Paired.integrityCheck_isSome (h : Paired sm) (hm : sm.m.isSome = true) :
    ∃ sm', enterIntegrityCheck w sm = some sm' := by
  obtain ⟨m, hm⟩ := Option.isSome_iff_exists.mp hm
  obtain ⟨priv, hpriv⟩ := h.data hm
  rw [← Option.isSome_iff_exists, enterIntegrityCheck]
  simp only [smEntry, hm, hpriv]
  split <;> rfl

/-- In RECEIVED, a response with the current identifier and of the current type is taken for a
method that is not there. -/
def Missing (sm : EapSm π ω) : Prop :=
  (¬ (sm.eapRestart = true ∧ sm.portEnabled = true) ∧ sm.portEnabled = true ∧
    sm.numRounds ≤ maxAuthRounds) ∧
  sm.eapState = .received ∧ sm.m = none ∧ sm.takesNak = false ∧ sm.takesResp = true

theorem smSwitch_isSome (h : Inv sm)
    (hpresent : sm.eapState = .received → sm.takesNak = false → sm.takesResp = true →
      sm.m.isSome = true) : ∃ sm', smSwitch registered w sm = some sm' := by
  have hpaired := h.paired
  cases hst : sm.eapState with
  | initialise =>
    simp only [smSwitch, hst]
    split
    · split
      · exact hpaired.selectAction_isSome
      split
      · exact hpaired.nak_isSome
      · exact ⟨_, rfl⟩
    · exact hpaired.selectAction_isSome
  | pickUpMethod =>
    simp only [smSwitch, hst]
    split
    · exact hpaired.selectAction_isSome
    case isFalse hsome => exact hpaired.methodResponse_isSome (h.pickedUp hst hsome)
  | received =>
    simp only [smSwitch, hst]
    split
    · exact hpaired.nak_isSome
    case isFalse hnak =>
      split
      case isTrue hresp =>
        exact hpaired.integrityCheck_isSome (hpresent hst (Bool.eq_false_iff.mpr hnak) hresp)
      case isFalse => exact ⟨_, rfl⟩
  | integrityCheck =>
    simp only [smSwitch, hst]
    split
    · exact ⟨_, rfl⟩
    · exact hpaired.methodResponse_isSome (h.running (.inl hst))
  | methodResponse =>
    simp only [smSwitch, hst]
    split
    · exact hpaired.selectAction_isSome
    split
    · exact ⟨_, rfl⟩
    · refine Paired.methodResponse_isSome ?_ (h.running (.inr hst))
      exact hpaired
    · exact hpaired.methodRequest_isSome
  | proposeMethod =>
    simp only [smSwitch, hst]
    split
    · exact ⟨_, rfl⟩
    · exact ⟨_, rfl⟩
    · exact hpaired.methodRequest_isSome
  | nak =>
    simp only [smSwitch, hst]
    exact hpaired.selectAction_isSome
  | _ =>
    simp only [smSwitch, hst]
    exact ⟨_, rfl⟩

theorem smStep_isSome (registered : List (EapMethod π ω)) (w : World ω)
    (h : Inv sm) (hpresent : ¬ Missing sm) :
    ∃ sm', smStep registered w sm = some sm' := by
  rw [smStep]
  split
  · exact ⟨_, rfl⟩
  case isFalse hrestart =>
  split
  · exact ⟨_, rfl⟩
  case isFalse hport =>
  split
  · exact ⟨_, rfl⟩
  case isFalse hrounds =>
  refine smSwitch_isSome h fun hst hnak hresp => ?_
  by_contra hm
  have hnone : sm.m = none := by simpa using hm
  exact hpresent ⟨⟨by simpa using hrestart, by simpa using hport, by omega⟩, hst, hnone, hnak,
    hresp⟩

theorem Missing.smStep_eq (h : Missing sm) :
    smStep registered w sm = none := by
  obtain ⟨⟨hrestart, hport, hrounds⟩, hst, hm, hnak, hresp⟩ := h
  rw [smStep, if_neg (by simpa using hrestart), if_neg (by simp [hport]), if_neg (by omega)]
  simp only [smSwitch, hst, hnak, hresp, Bool.false_eq_true, if_false, if_true]
  simp only [enterIntegrityCheck, smEntry, hm]

/-! ## Runs -/

/-- In INTEGRITY_CHECK and METHOD_RESPONSE there is a method with its data, and no NULL pointer was
followed. -/
def MethodPresent : Option (EapSm π ω) → Prop
  | some sm => sm.eapState = .integrityCheck ∨ sm.eapState = .methodResponse →
      sm.m.isSome = true ∧ sm.eapMethodPriv.isSome = true
  | none => False

/-- A step of the machine does not take a response for a missing method. -/
def NoneMissing : Option (EapSm π ω) → Op ω → Prop
  | some sm, .smStep _ => ¬ Missing sm
  | _, _ => True

theorem Inv.methodPresent (h : Inv sm) : MethodPresent (some sm) := fun hst =>
  ⟨h.running hst, h.paired.symm.trans (h.running hst)⟩

theorem Inv.unchanged (h : Inv sm) : Inv { sm with changed := false } :=
  ⟨h.paired, h.running, h.started, h.pickedUp⟩

theorem step_inv (registered : List (EapMethod π ω)) (h : Inv sm) {op : Op ω}
    (hop : NoneMissing (some sm) op) :
    ∃ sm', step registered (some sm) op = some sm' ∧ Inv sm' := by
  have hcall : ∀ op : Op ω, ∃ sm', some (if sm.changed then sm else call sm op) = some sm' ∧
      Inv sm' := by
    intro op
    refine ⟨_, rfl, ?_⟩
    split
    · exact h
    · exact call_inv h op
  cases op with
  | smStep w =>
    obtain ⟨sm', hsm'⟩ := smStep_isSome registered w h.unchanged hop
    exact ⟨sm', hsm', smStep_inv h.unchanged hsm'⟩
  | lower vars => exact hcall (.lower vars)
  | pendingCb => exact hcall .pendingCb
  | notifyCached => exact hcall .notifyCached
  | clearIdentity => exact hcall .clearIdentity
  | methodEvent env => exact hcall (.methodEvent env)

theorem inv_init (eapServer backendAuth : Bool) :
    Inv (init eapServer backendAuth : EapSm π ω) :=
  inv_of_paired rfl ⟨nofun, nofun, nofun, nofun⟩

end Missing

/-- Source: `SM_STATE(EAP, INTEGRITY_CHECK)`, `SM_STATE(EAP, METHOD_RESPONSE)`,
`SM_STATE(EAP, PROPOSE_METHOD)`. In every run, with any methods, the two states are entered with a
method and its data exactly when no response with the current identifier and of the current type is
taken up while there is no method. -/
theorem run_methods_iff {π ω : Type} (registered : List (EapMethod π ω))
    (eapServer backendAuth : Bool) (ops : List (Op ω)) :
    Along (step registered) (fun s op => MethodPresent (step registered s op))
        (some (init eapServer backendAuth)) ops ↔
      Along (step registered) NoneMissing (some (init eapServer backendAuth)) ops := by
  refine along_congr (I := fun s => ∃ sm, s = some sm ∧ Inv sm) ?_ ?_
    ⟨_, rfl, inv_init eapServer backendAuth⟩ ops
  · rintro _ op ⟨sm, rfl, hinv⟩ hop
    exact step_inv registered hinv hop
  · rintro _ op ⟨sm, rfl, hinv⟩
    constructor
    · intro hpresent
      cases op with
      | smStep w =>
        intro hmissing
        have hnone : step registered (some sm) (.smStep w) = none :=
          Missing.smStep_eq (show Missing { sm with changed := false } from hmissing)
        rw [hnone] at hpresent
        exact hpresent
      | _ => trivial
    · intro hop
      obtain ⟨sm', hsm', hinv'⟩ := step_inv registered hinv hop
      rw [hsm']
      exact hinv'.methodPresent

/-! ## A method that does not start -/

/-- The Identity method: one response, which is the identity. -/
def identityMethod : EapMethod ℕ Unit where
  vendor := vendorIetf
  method := typeIdentity
  init _ vars := (some 0, vars)
  initPickUp := some fun _ vars => (some 0, vars)
  buildReq _ vars priv id := (some [1, id, 0, 5, 1], priv, vars)
  getTimeout := none
  check := none
  process _ vars _ resp := (1, { vars with identity := resp.map (List.drop 5) })
  isDone priv := priv = 1
  getKey := none
  isSuccess priv := priv = 1
  event _ priv := priv

/-- A method of a type that asks once for each number up to a limit, and then succeeds. -/
def countingMethod (limit : ℕ) : EapMethod ℕ Unit where
  vendor := vendorIetf
  method := 4
  init _ vars := (some 0, vars)
  initPickUp := none
  buildReq _ vars priv id := (some [1, id, 0, 5, 4], priv, vars)
  getTimeout := none
  check := none
  process _ vars priv _ := (priv + 1, vars)
  isDone priv := limit ≤ priv
  getKey := none
  isSuccess priv := limit ≤ priv
  event _ priv := priv

def unreadyMethod : EapMethod ℕ Unit :=
  { countingMethod 0 with init := fun _ vars => (none, vars) }

/-- A user whose only method is of the type 4, and memory for everything. -/
def plainWorld : World Unit := ⟨(), fun _ => some ⟨[(vendorIetf, 4)], false⟩, 7, true, true, true⟩

/-- The interface with a response, or with a restart. -/
def lowerIf (resp : Option Bytes) (restart : Bool) : LowerIf where
  eapResp := resp.isSome
  eapRespData := resp
  portEnabled := true
  retransWhile := 3
  eapRestart := restart
  eapReq := false
  eapNoReq := false
  eapSuccess := false
  eapFail := false
  eapTimeout := false
  eapKeyAvailable := false
  aaaEapReq := false
  aaaEapNoReq := false
  aaaSuccess := false
  aaaFail := false
  aaaEapReqData := none
  aaaEapKeyData := none
  aaaEapKeyAvailable := false
  aaaMethodTimeout := 0
  aaaEapResp := false
  aaaTimeout := false

/-- The peer gives its identity, and answers the same request again with a response of type NONE. -/
def noneResponse : List (Op Unit) :=
  .lower (lowerIf none true) :: List.replicate 7 (.smStep plainWorld) ++
    .lower (lowerIf (some [2, 7, 0, 6, 1, 117]) false) :: List.replicate 9 (.smStep plainWorld) ++
    [.lower (lowerIf (some [2, 7, 0, 5, 0]) false), .smStep plainWorld]

theorem missing_method_called :
    ¬ Along (step [identityMethod, unreadyMethod])
      (fun s op => MethodPresent (step [identityMethod, unreadyMethod] s op))
      (some (init true false)) (noneResponse ++ [.smStep plainWorld]) := by
  intro hall
  have hlast := (Along.append.mp hall).2.1
  beta_reduce at hlast
  have hnone : step [identityMethod, unreadyMethod]
      (run (step [identityMethod, unreadyMethod]) (some (init true false)) noneResponse)
      (.smStep plainWorld) = none := Option.isNone_iff_eq_none.mp (by decide +kernel)
  rw [hnone] at hlast
  exact hlast

end Hostapd.EapServer
