import Hostapd.EapServer.MissingMethod

/-!
# The EAP server: success is earned

What a run of the machine promises about its method (`StepSound`): SUCCESS is entered only after a
response with the current identifier and of the current method, which is not Identity, was given to
that method, which reports success, and the key is the one it returned; the responses given to
methods since INITIALIZE are limited; and a response of another kind is dismissed.

* **`Facts`**: what is known in the states between a response and SUCCESS (`FactsAt`), kept by every
  move (`Facts.move`).
* **`Rounds`**: the count of responses, against `numRounds`.
* **`run_success_earned`**: every step of every run is sound.
-/

namespace Hostapd.EapServer

open Hostapd.Lib

section Success

variable {π ω : Type} {registered : List (EapMethod π ω)} {w : World ω}

/-! ## What is promised -/

/-- A response with the current identifier and of the current method. -/
def Accepts (sm : EapSm π ω) (resp : Option Bytes) : Prop :=
  (parseEapResp resp).rxResp = true ∧ (parseEapResp resp).respId = sm.currentId ∧
    (parseEapResp resp).isOf sm.currentMethod = true

/-- A Nak with the current identifier while the method is only proposed. -/
def AcceptsNak (sm : EapSm π ω) (resp : Option Bytes) : Prop :=
  (parseEapResp resp).rxResp = true ∧ (parseEapResp resp).respId = sm.currentId ∧
    (parseEapResp resp).isOf typeNak = true ∧ sm.methodState = .proposed

/-- The current method was given a response of its own. -/
def Answered (sm : EapSm π ω) : Prop :=
  ∃ r ∈ sm.processed, r.serial = sm.instances ∧ Accepts sm r.resp

/-- The key is the one that the current method returned after the last response. -/
def Keyed (sm : EapSm π ω) : Prop :=
  ∃ r, sm.processed.getLast? = some r ∧ r.serial = sm.instances ∧ r.key = some sm.eapKeyData

/-- The current method, which is not Identity, has earned success. -/
structure Earned (sm : EapSm π ω) : Prop where
  success : ∃ m priv, sm.m = some m ∧ sm.eapMethodPriv = some priv ∧ m.isSuccess priv = true
  method : sm.currentMethod ≠ typeIdentity
  answered : Answered sm
  keyed : Keyed sm

/-- How many responses methods were given in a state entered from another one. -/
def responses (st : EapState) (sm : EapSm π ω) : ℕ :=
  sm.processed.countP fun r => r.cameFrom = st

/-- The machine waits for a response, or looks at one that is neither for the current method nor a
Nak. -/
def Dismisses (sm : EapSm π ω) : Prop :=
  sm.eapState = .idle ∨ sm.eapState = .discard ∨
    sm.eapState = .received ∧ ¬ Accepts sm sm.eapRespData ∧ ¬ AcceptsNak sm sm.eapRespData

/-- The method, its state and index, and the current identifier are unchanged, and the method is
given nothing. -/
structure Dismissed (sm sm' : EapSm π ω) : Prop where
  m : sm'.m = sm.m
  priv : sm'.eapMethodPriv = sm.eapMethodPriv
  currentMethod : sm'.currentMethod = sm.currentMethod
  methodState : sm'.methodState = sm.methodState
  currentId : sm'.currentId = sm.currentId
  index : sm'.userEapMethodIndex = sm.userEapMethodIndex
  processed : sm'.processed = sm.processed

/-- What a step of the machine promises; `changed` tells that a state was entered. -/
structure StepSound (sm sm' : EapSm π ω) : Prop where
  earned : sm'.eapState = .success → sm'.changed = true →
    Earned sm' ∧ (sm'.eapKeyData.isSome = true → sm'.eapKeyAvailable = true)
  received : responses .integrityCheck sm' ≤ maxAuthRounds
  pickedUp : responses .pickUpMethod sm' ≤ 1
  dismissed : Dismisses sm → sm'.eapState ≠ .initialise → Dismissed sm sm'

/-! ## From a response to SUCCESS -/

/-- What is known in a state that a response passes through. -/
def FactsAt (sm : EapSm π ω) : EapState → Prop
  | .received => sm.toResp = parseEapResp sm.eapRespData
  | .integrityCheck => sm.toResp = parseEapResp sm.eapRespData ∧ sm.takesResp = true
  | .pickUpMethod => sm.currentMethod = typeNone ∧ sm.m = none ∨ sm.currentMethod = typeIdentity
  | .nak => sm.m = none
  | .methodResponse =>
    (sm.currentMethod ≠ typeIdentity → Answered sm) ∧ (sm.methodState = .done → Keyed sm)
  | .selectAction => sm.decision = .success → Earned sm
  | _ => True

structure Facts (sm : EapSm π ω) : Prop where
  inv : Inv sm
  now : FactsAt sm sm.eapState

variable {st : EapState}

theorem Facts.at {sm : EapSm π ω} (h : Facts sm) (hst : sm.eapState = st) :
    FactsAt sm st := hst ▸ h.now

theorem facts_at {sm : EapSm π ω} (h : Inv sm) (hst : sm.eapState = st)
    (hnow : FactsAt sm st) : Facts sm := ⟨h, hst ▸ hnow⟩

theorem factsAt_plain {sm : EapSm π ω} (h : Plain st = true) : FactsAt sm st := by
  cases st <;> trivial

theorem takesResp_iff {sm : EapSm π ω} (h : sm.toResp = parseEapResp sm.eapRespData) :
    sm.takesResp = true ↔ Accepts sm sm.eapRespData := by
  rw [Accepts, ← h, EapSm.takesResp, Bool.and_eq_true, Bool.and_eq_true, decide_eq_true_eq,
    and_assoc]

theorem takesNak_iff {sm : EapSm π ω} (h : sm.toResp = parseEapResp sm.eapRespData) :
    sm.takesNak = true ↔ AcceptsNak sm sm.eapRespData := by
  rw [AcceptsNak, ← h, EapSm.takesNak, Bool.and_eq_true, Bool.and_eq_true, Bool.and_eq_true,
    decide_eq_true_eq, decide_eq_true_eq, and_assoc, and_assoc]

variable {sm sm' : EapSm π ω}

theorem Responded.facts (h : Responded sm sm')
    (hanswered : sm.currentMethod ≠ typeIdentity →
      Accepts sm sm.eapRespData ∨ Answered sm) : Facts sm' := by
  obtain ⟨key, hprocessed, hkey⟩ := h.recorded
  have haccepts : ∀ resp, Accepts sm resp → Accepts sm' resp := by
    intro resp hresp
    rw [Accepts, h.currentId, h.currentMethod]
    exact hresp
  have hrecord : (⟨sm.eapState, sm.eapRespData, sm.instances, key⟩ : Processed) ∈ sm'.processed :=
    hprocessed ▸ List.mem_append_right _ (List.mem_singleton_self _)
  refine facts_at h.inv h.state ⟨fun hmethod => ?_, fun hdone => ?_⟩
  · rcases hanswered (h.currentMethod ▸ hmethod) with hresp | ⟨r, hr, hserial, hresp⟩
    · exact ⟨_, hrecord, h.instances.symm, haccepts _ hresp⟩
    · refine ⟨r, ?_, hserial.trans h.instances.symm, haccepts _ hresp⟩
      exact hprocessed ▸ List.mem_append_left _ hr
  · refine ⟨⟨sm.eapState, sm.eapRespData, sm.instances, key⟩, ?_, h.instances.symm, hkey hdone⟩
    rw [hprocessed, List.getLast?_concat]

theorem Facts.select (h : Facts sm)
    (hst : sm.eapState = .initialise ∨ sm.eapState = .pickUpMethod ∧ sm.currentMethod = typeNone ∨
      sm.eapState = .methodResponse ∧ sm.methodState = .done ∨ sm.eapState = .nak)
    (hsm' : enterSelectAction w sm = some sm') (hdecision : sm'.decision = .success) :
    Earned sm' := by
  obtain ⟨⟨vars, start, heq⟩, hsuccess⟩ := enterSelectAction_spec hsm'
  obtain ⟨m, priv, hm, hpriv, hmethod, hreports⟩ := hsuccess hdecision
  have hsome : sm.m ≠ none := fun hnone => absurd (hm.symm.trans hnone) nofun
  rcases hst with hst | ⟨hst, hcurrent⟩ | ⟨hst, hdone⟩ | hst
  · exact absurd (h.inv.started hst).1 hsome
  · rcases h.at hst with ⟨-, hmissing⟩ | hidentity
    · exact absurd hmissing hsome
    · exact absurd (hcurrent.symm.trans hidentity) (by decide)
  · obtain ⟨hanswered, hkeyed⟩ := h.at hst
    rw [heq]
    exact ⟨⟨m, priv, hm, hpriv, hreports⟩, hmethod, hanswered hmethod, hkeyed hdone⟩
  · exact absurd (h.at hst) hsome

theorem Facts.move (h : Facts sm) (hmove : Move registered w sm sm') :
    Facts sm' := by
  have hinv := h.inv.move hmove
  cases hmove with
  | quiet hq => exact ⟨hinv, factsAt_plain hq.plain⟩
  | stay => exact h
  | initialise => exact facts_at hinv (enterInitialise_spec false sm).1 trivial
  | pickUp hst =>
    obtain ⟨⟨hst', -, -, -⟩, hmethod⟩ := h.inv.pickUp_spec registered w hst
    refine facts_at hinv hst' ?_
    rcases hmethod with ⟨hm', -, hcurrent⟩ | ⟨-, -, hcurrent⟩
    · exact .inl ⟨hcurrent, hm'⟩
    · exact .inr hcurrent
  | received => exact ⟨hinv, rfl⟩
  | check hst hsm' =>
    obtain ⟨-, ignore, rfl⟩ := enterIntegrityCheck_spec hsm'
    exact ⟨hinv, h.at hst.1, hst.2⟩
  | response hst hsm' =>
    refine (enterMethodResponse_spec hsm').facts fun hmethod => ?_
    rcases hst with hst | ⟨hst, hcurrent⟩
    · obtain ⟨hparsed, htakes⟩ := h.at hst
      exact .inl ((takesResp_iff hparsed).mp htakes)
    · rcases h.at hst with ⟨hnone, -⟩ | hidentity
      · exact absurd hnone hcurrent
      · exact absurd hidentity hmethod
  | again hst hsm' =>
    obtain ⟨hanswered, -⟩ := h.at hst
    exact (enterMethodResponse_spec hsm').facts fun hmethod => .inr (hanswered hmethod)
  | request hsm' => exact facts_at hinv (enterMethodRequest_spec hsm').1 trivial
  | propose hkept =>
    obtain ⟨hst, -⟩ := enterProposeMethod_spec registered w
      (h.inv.paired.kept hkept)
    exact facts_at hinv hst trivial
  | nak hsm' =>
    obtain ⟨hst, hm, -⟩ := enterNak_spec hsm'
    exact facts_at hinv hst hm
  | select hst hsm' =>
    exact facts_at hinv (enterSelectAction_entered hsm').1 (h.select hst hsm')
  | success => exact ⟨hinv, trivial⟩

theorem Facts.smStep (h : Facts sm)
    (hsm' : smStep registered w sm = some sm') : Facts sm' := by
  have hinv := smStep_inv h.inv hsm'
  rcases smStep_cases hsm' with rfl | rfl | ⟨-, rfl⟩ | ⟨-, rfl⟩ | ⟨-, hswitch⟩
  · exact facts_at hinv (enterInitialise_spec true sm).1 trivial
  · exact ⟨hinv, trivial⟩
  · exact ⟨hinv, trivial⟩
  · exact h
  · exact h.move (smSwitch_move hswitch)

/-! ## Among the callers -/

/-- A state that the machine leaves before its callers go on. -/
def Busy : EapState → Bool
  | .received | .integrityCheck | .selectAction => true
  | _ => false

theorem FactsAt.congr (h : FactsAt sm st)
    (hst : Busy st = false) (hm : sm'.m = sm.m) (hmethod : sm'.currentMethod = sm.currentMethod)
    (hstate : sm'.methodState = sm.methodState) (hid : sm'.currentId = sm.currentId)
    (hserial : sm'.instances = sm.instances) (hprocessed : sm'.processed = sm.processed)
    (hkey : sm'.eapKeyData = sm.eapKeyData) : FactsAt sm' st := by
  cases st with
  | received | integrityCheck | selectAction => exact absurd hst nofun
  | pickUpMethod =>
    rw [FactsAt, hm, hmethod]
    exact h
  | nak =>
    rw [FactsAt, hm]
    exact h
  | methodResponse =>
    simp only [FactsAt, Answered, Keyed, Accepts, hmethod, hstate, hid, hserial, hprocessed, hkey]
    exact h
  | _ => trivial

theorem Facts.call {sm : EapSm π ω} (h : Facts sm) (hst : Busy sm.eapState = false) (op : Op ω) :
    Facts (call sm op) := by
  refine ⟨call_inv h.inv op, ?_⟩
  cases op with
  | smStep w => exact h.now
  | lower vars => exact h.now.congr hst rfl rfl rfl rfl rfl rfl rfl
  | pendingCb =>
    rw [EapServer.call]
    split
    · exact h.now.congr hst rfl rfl rfl rfl rfl rfl rfl
    · exact h.now
  | notifyCached => trivial
  | clearIdentity => exact h.now.congr hst rfl rfl rfl rfl rfl rfl rfl
  | methodEvent env =>
    simp only [EapServer.call]
    split
    · exact h.now.congr hst rfl rfl rfl rfl rfl rfl rfl
    · exact h.now

/-- A transition stays, or enters SUCCESS by a decision for it, or another state; a busy one is just
entered. -/
theorem Inv.move_state (h : Inv sm) (hmove : Move registered w sm sm') :
    sm' = sm ∧ Busy sm.eapState = false ∨
      (sm.eapState = .selectAction ∧ sm.decision = .success) ∧ sm' = enterSuccess w sm ∨
      sm'.eapState ≠ .success ∧ (Busy sm'.eapState = true → sm'.changed = true) := by
  have hidle : ∀ {st : EapState}, sm'.eapState = st → decide (st = .success) = false → Busy st = false →
      sm'.eapState ≠ .success ∧ (Busy sm'.eapState = true → sm'.changed = true) := by
    rintro st rfl hne hst
    exact ⟨of_decide_eq_false hne, fun hbusy => Bool.noConfusion (hst.symm.trans hbusy)⟩
  cases hmove with
  | quiet hq =>
    have hplain := hq.plain
    refine .inr (.inr (hidle rfl
      (decide_eq_false fun hst => Bool.noConfusion (hst ▸ hplain)) ?_))
    revert hplain
    cases sm'.eapState <;> simp [Plain, Busy]
  | stay hst =>
    refine .inl ⟨rfl, ?_⟩
    rcases hst with hst | hst | hst
    · exact (congrArg Busy hst).trans rfl
    · exact (congrArg Busy hst).trans rfl
    · exact (congrArg Busy hst).trans rfl
  | initialise => exact .inr (.inr (hidle (enterInitialise_spec false sm).1 rfl rfl))
  | pickUp hst => exact .inr (.inr (hidle (h.pickUp_spec registered w hst).1.1 rfl rfl))
  | received => exact .inr (.inr ⟨by simp [enterReceived, smEntry], fun _ => by simp [enterReceived, smEntry]⟩)
  | check _ hsm' =>
    obtain ⟨-, ignore, rfl⟩ := enterIntegrityCheck_spec hsm'
    exact .inr (.inr ⟨by simp [smEntry], fun _ => by simp [smEntry]⟩)
  | response _ hsm' => exact .inr (.inr (hidle (enterMethodResponse_spec hsm').state rfl rfl))
  | again _ hsm' => exact .inr (.inr (hidle (enterMethodResponse_spec hsm').state rfl rfl))
  | request hsm' => exact .inr (.inr (hidle (enterMethodRequest_spec hsm').1 rfl rfl))
  | propose hkept =>
    obtain ⟨hst, -⟩ := enterProposeMethod_spec registered w (h.paired.kept hkept)
    exact .inr (.inr (hidle hst rfl rfl))
  | nak hsm' => exact .inr (.inr (hidle (enterNak_spec hsm').1 rfl rfl))
  | select _ hsm' =>
    obtain ⟨hst, hentered, -⟩ := enterSelectAction_entered hsm'
    exact .inr (.inr ⟨fun hsuccess => absurd (hst.symm.trans hsuccess) (by simp), fun _ => hentered⟩)
  | success hfrom => exact .inr (.inl ⟨hfrom, rfl⟩)

theorem busy_changed (h : Inv sm)
    (habort : maxAuthRounds + 1 < sm.numRounds → Busy sm.eapState = false)
    (hsm' : smStep registered w sm = some sm') (hbusy : Busy sm'.eapState = true) :
    sm'.changed = true := by
  rcases smStep_cases hsm' with rfl | rfl | ⟨-, rfl⟩ | ⟨hover, rfl⟩ | ⟨-, hswitch⟩
  · rw [(enterInitialise_spec true sm).1] at hbusy
    exact absurd hbusy nofun
  · exact absurd hbusy nofun
  · exact absurd hbusy nofun
  · exact absurd ((habort hover).symm.trans hbusy) nofun
  · rcases h.move_state (smSwitch_move hswitch) with ⟨rfl, hidle⟩ | ⟨-, rfl⟩ | ⟨-, hchanged⟩
    · exact absurd (hidle.symm.trans hbusy) nofun
    · exact absurd hbusy nofun
    · exact hchanged hbusy

/-! ## Rounds -/

structure Rounds (sm : EapSm π ω) : Prop where
  limit : responses .integrityCheck sm ≤ maxAuthRounds
  single : responses .pickUpMethod sm ≤ 1
  counted : sm.eapState ≠ .disabled → sm.eapState ≠ .success →
    responses .integrityCheck sm ≤ sm.numRounds
  coming : sm.eapState = .received ∨ sm.eapState = .integrityCheck →
    responses .integrityCheck sm + 1 ≤ sm.numRounds
  fresh : sm.eapState = .initialise ∨ sm.eapState = .pickUpMethod → sm.processed = []
  abort : maxAuthRounds + 1 < sm.numRounds → sm.eapState = .failure ∨ sm.eapState = .success

/-- A state with no response to come, and some given. -/
def Settled (st : EapState) : Prop :=
  ¬ (st = .received ∨ st = .integrityCheck) ∧ ¬ (st = .initialise ∨ st = .pickUpMethod)

instance (st : EapState) : Decidable (Settled st) :=
  inferInstanceAs (Decidable (_ ∧ _))

theorem plain_settled (h : Plain st = true) : Settled st := by
  cases st <;> first | decide | exact absurd h nofun

theorem Rounds.same (h : Rounds sm)
    (hoff : ¬ (sm.eapState = .disabled ∨ sm.eapState = .success))
    (hleft : sm.numRounds ≤ maxAuthRounds) (hprocessed : sm'.processed = sm.processed)
    (hrounds : sm'.numRounds = sm.numRounds) (hst : Settled sm'.eapState) : Rounds sm' := by
  have hresponses : ∀ st, responses st sm' = responses st sm := fun st => by
    rw [responses, hprocessed, responses]
  refine ⟨?_, ?_, fun _ _ => ?_, fun hcoming => absurd hcoming hst.1,
    fun hfresh => absurd hfresh hst.2, fun hover => by omega⟩
  · rw [hresponses]
    exact h.limit
  · rw [hresponses]
    exact h.single
  · rw [hresponses, hrounds]
    exact h.counted (fun heq => hoff (.inl heq)) (fun heq => hoff (.inr heq))

theorem responses_concat {r : Processed}
    (h : sm'.processed = sm.processed ++ [r]) (st : EapState) :
    responses st sm' = responses st sm + if r.cameFrom = st then 1 else 0 := by
  rw [responses, h, List.countP_append, List.countP_singleton, responses]
  simp only [decide_eq_true_eq]

theorem rounds_initialise (g : Bool) (sm : EapSm π ω) : Rounds (enterInitialise g sm) := by
  obtain ⟨hst, -, -, -, -, hrounds, hprocessed⟩ := enterInitialise_spec g sm
  have hnone : ∀ st, responses st (enterInitialise g sm) = 0 := fun st => by
    rw [responses, hprocessed, List.countP_nil]
  refine ⟨by rw [hnone]; exact Nat.zero_le _, by rw [hnone]; exact Nat.zero_le _,
    fun _ _ => by rw [hnone]; exact Nat.zero_le _, ?_, fun _ => hprocessed,
    fun hover => by omega⟩
  rw [hst]
  exact fun hcoming => absurd hcoming (not_or.mpr ⟨nofun, nofun⟩)

theorem Responded.rounds (h : Responded sm sm')
    (hlimit : ∀ key, sm'.processed =
        sm.processed ++ [⟨sm.eapState, sm.eapRespData, sm.instances, key⟩] →
      responses .integrityCheck sm' ≤ sm.numRounds ∧ responses .pickUpMethod sm' ≤ 1)
    (hleft : sm.numRounds ≤ maxAuthRounds) : Rounds sm' := by
  obtain ⟨key, hprocessed, -⟩ := h.recorded
  obtain ⟨hcounted, hsingle⟩ := hlimit key hprocessed
  have hrounds := h.numRounds
  have hsettled : Settled sm'.eapState := by
    rw [h.state]
    decide
  exact ⟨by omega, hsingle, fun _ _ => by omega, fun hcoming => absurd hcoming hsettled.1,
    fun hfresh => absurd hfresh hsettled.2, fun hover => by omega⟩

theorem Rounds.move (h : Rounds sm) (hinv : Inv sm)
    (hoff : ¬ (sm.eapState = .disabled ∨ sm.eapState = .success))
    (hleft : sm.numRounds ≤ maxAuthRounds) (hmove : Move registered w sm sm') : Rounds sm' := by
  have hcounted := h.counted (fun heq => hoff (.inl heq)) (fun heq => hoff (.inr heq))
  cases hmove with
  | quiet hq => exact h.same hoff hleft hq.processed hq.numRounds (plain_settled hq.plain)
  | stay => exact h
  | initialise => exact rounds_initialise false sm
  | pickUp hst =>
    obtain ⟨⟨hst', -, hprocessed, hrounds⟩, -⟩ := hinv.pickUp_spec registered w hst
    have hempty := hprocessed.trans (h.fresh (.inl hst.1))
    have hresponses : ∀ st, responses st (enterPickUpMethod registered w sm) = 0 := fun st => by
      rw [responses, hempty, List.countP_nil]
    refine ⟨by rw [hresponses]; exact Nat.zero_le _, by rw [hresponses]; exact Nat.zero_le _,
      fun _ _ => by rw [hresponses]; exact Nat.zero_le _, ?_, fun _ => hempty,
      fun hover => by omega⟩
    rw [hst']
    exact fun hcoming => absurd hcoming (not_or.mpr ⟨nofun, nofun⟩)
  | received =>
    refine ⟨h.limit, h.single, fun _ _ => Nat.le_succ_of_le hcounted,
      fun _ => Nat.succ_le_succ hcounted,
      fun hfresh => absurd hfresh (not_or.mpr ⟨nofun, nofun⟩), fun hover => ?_⟩
    exact absurd hover (by show ¬ maxAuthRounds + 1 < sm.numRounds + 1; omega)
  | check hst hsm' =>
    obtain ⟨-, ignore, rfl⟩ := enterIntegrityCheck_spec hsm'
    refine ⟨h.limit, h.single, fun _ _ => hcounted, fun _ => h.coming (.inl hst.1),
      fun hfresh => absurd hfresh (not_or.mpr ⟨nofun, nofun⟩), fun hover => ?_⟩
    exact absurd hover (by show ¬ maxAuthRounds + 1 < sm.numRounds; omega)
  | response hst hsm' =>
    refine (enterMethodResponse_spec hsm').rounds (fun key hprocessed => ?_) hleft
    rw [responses_concat hprocessed, responses_concat hprocessed]
    rcases hst with hst | ⟨hst, -⟩
    · have hcoming := h.coming (.inr hst)
      rw [hst, if_pos rfl, if_neg nofun]
      exact ⟨hcoming, h.single⟩
    · have hempty : ∀ st, responses st sm = 0 := fun st => by
        rw [responses, h.fresh (.inr hst), List.countP_nil]
      rw [hst, if_pos rfl, if_neg nofun, hempty, hempty]
      exact ⟨Nat.zero_le _, Nat.le_refl _⟩
  | again hst hsm' =>
    refine (enterMethodResponse_spec hsm').rounds (fun key hprocessed => ?_) hleft
    rw [responses_concat hprocessed, responses_concat hprocessed]
    simp only [hst, reduceCtorEq, if_false, Nat.add_zero]
    exact ⟨hcounted, h.single⟩
  | request hsm' =>
    obtain ⟨hst, -, -, -, hprocessed, hrounds⟩ := enterMethodRequest_spec hsm'
    exact h.same hoff hleft hprocessed hrounds (by rw [hst]; decide)
  | propose hkept =>
    obtain ⟨hst, -, -, hprocessed, hrounds⟩ := enterProposeMethod_spec registered
      w (hinv.paired.kept hkept)
    exact h.same hoff hleft (hprocessed.trans hkept.processed) (hrounds.trans hkept.numRounds)
      (by rw [hst]; decide)
  | nak hsm' =>
    obtain ⟨hst, -, -, -, hprocessed, hrounds⟩ := enterNak_spec hsm'
    exact h.same hoff hleft hprocessed hrounds (by rw [hst]; decide)
  | select _ hsm' =>
    obtain ⟨hst, -, hprocessed, hrounds⟩ := enterSelectAction_entered hsm'
    exact h.same hoff hleft hprocessed hrounds (by rw [hst]; decide)
  | success => exact h.same hoff hleft rfl rfl (show Settled .success by decide)

theorem Rounds.smStep (h : Rounds sm) (hinv : Inv sm)
    (hsm' : smStep registered w sm = some sm') : Rounds sm' := by
  rcases smStep_cases hsm' with rfl | rfl | ⟨hone, rfl⟩ | ⟨-, rfl⟩ | ⟨hleft, hswitch⟩
  · exact rounds_initialise true sm
  · exact ⟨h.limit, h.single, fun hst => absurd rfl hst,
      fun hcoming => absurd hcoming (not_or.mpr ⟨nofun, nofun⟩),
      fun hfresh => absurd hfresh (not_or.mpr ⟨nofun, nofun⟩), fun hover => absurd hover nofun⟩
  · have hlimit := h.limit
    refine ⟨h.limit, h.single, fun _ _ => ?_,
      fun hcoming => absurd hcoming (not_or.mpr ⟨nofun, nofun⟩),
      fun hfresh => absurd hfresh (not_or.mpr ⟨nofun, nofun⟩), fun _ => .inl rfl⟩
    show responses .integrityCheck sm ≤ sm.numRounds + 1
    omega
  · exact h
  · by_cases hoff : sm.eapState = .disabled ∨ sm.eapState = .success
    · rcases smSwitch_off hoff hswitch with rfl | rfl
      · exact rounds_initialise false sm
      · exact h
    · exact h.move hinv hoff hleft (smSwitch_move hswitch)

theorem Rounds.call {sm : EapSm π ω} (h : Rounds sm) (op : Op ω) : Rounds (call sm op) := by
  cases op with
  | smStep w => exact h
  | lower vars => exact ⟨h.limit, h.single, h.counted, h.coming, h.fresh, h.abort⟩
  | pendingCb =>
    rw [EapServer.call]
    split
    · exact ⟨h.limit, h.single, h.counted, h.coming, h.fresh, h.abort⟩
    · exact h
  | notifyCached =>
    exact ⟨h.limit, h.single, fun _ hst => absurd rfl hst,
      fun hcoming => absurd hcoming (by simp [EapServer.call]),
      fun hfresh => absurd hfresh (by simp [EapServer.call]), fun _ => .inr rfl⟩
  | clearIdentity => exact ⟨h.limit, h.single, h.counted, h.coming, h.fresh, h.abort⟩
  | methodEvent env =>
    simp only [EapServer.call]
    split
    · exact ⟨h.limit, h.single, h.counted, h.coming, h.fresh, h.abort⟩
    · exact h

/-! ## Responses that are dismissed -/

theorem dismissed_resend (h : Dismissed sm sm') :
    Dismissed sm (resend w sm') := by
  rw [resend]
  split <;> exact ⟨h.m, h.priv, h.currentMethod, h.methodState, h.currentId, h.index, h.processed⟩

theorem Facts.dismissed (h : Facts sm) (hst : Dismisses sm)
    (hsm' : EapServer.smStep registered w sm = some sm') (hgo : sm'.eapState ≠ .initialise) :
    Dismissed sm sm' := by
  have hsame : Dismissed sm sm := ⟨rfl, rfl, rfl, rfl, rfl, rfl, rfl⟩
  rcases smStep_cases hsm' with rfl | rfl | ⟨-, rfl⟩ | ⟨-, rfl⟩ | ⟨-, hswitch⟩
  · exact absurd (enterInitialise_spec true sm).1 hgo
  · exact ⟨rfl, rfl, rfl, rfl, rfl, rfl, rfl⟩
  · exact ⟨rfl, rfl, rfl, rfl, rfl, rfl, rfl⟩
  · exact hsame
  · rcases hst with hst | hst | ⟨hst, hresp, hnak⟩
    · simp only [smSwitch, hst] at hswitch
      split at hswitch
      · cases hswitch
        exact dismissed_resend ⟨rfl, rfl, rfl, rfl, rfl, rfl, rfl⟩
      split at hswitch
      · cases hswitch
        exact ⟨rfl, rfl, rfl, rfl, rfl, rfl, rfl⟩
      · cases hswitch
        exact hsame
    · simp only [smSwitch, hst] at hswitch
      cases hswitch
      exact ⟨rfl, rfl, rfl, rfl, rfl, rfl, rfl⟩
    · have hparsed := h.at hst
      rw [← takesResp_iff hparsed] at hresp
      rw [← takesNak_iff hparsed] at hnak
      simp only [smSwitch, hst, if_neg hnak, if_neg hresp] at hswitch
      cases hswitch
      exact ⟨rfl, rfl, rfl, rfl, rfl, rfl, rfl⟩

/-! ## Runs -/

/-- What holds of a machine between two operations. -/
structure Good (sm : EapSm π ω) : Prop where
  facts : Facts sm
  rounds : Rounds sm
  busy : Busy sm.eapState = true → sm.changed = true

theorem FactsAt.unchanged {sm : EapSm π ω} (h : FactsAt sm st) :
    FactsAt { sm with changed := false } st := by
  cases st with
  | selectAction =>
    intro hdecision
    obtain ⟨hearned, hmethod, hanswered, hkeyed⟩ := h hdecision
    exact ⟨hearned, hmethod, hanswered, hkeyed⟩
  | _ => exact h

theorem Good.unchanged {sm : EapSm π ω} (h : Good sm) :
    Facts { sm with changed := false } ∧ Rounds { sm with changed := false } :=
  ⟨⟨h.facts.inv.unchanged, h.facts.now.unchanged⟩, h.rounds.limit, h.rounds.single, h.rounds.counted,
    h.rounds.coming, h.rounds.fresh, h.rounds.abort⟩

theorem Good.call {sm : EapSm π ω} (h : Good sm) (op : Op ω) :
    Good (if sm.changed then sm else call sm op) := by
  split
  case isTrue => exact h
  case isFalse hrest =>
    have hidle : Busy sm.eapState = false :=
      Bool.eq_false_iff.mpr fun hbusy => hrest (h.busy hbusy)
    refine ⟨h.facts.call hidle op, h.rounds.call op, fun hbusy => ?_⟩
    cases op with
    | smStep w => exact h.busy hbusy
    | lower vars => cases hidle.symm.trans hbusy
    | pendingCb =>
      rw [EapServer.call] at hbusy
      split at hbusy
      · cases hidle.symm.trans hbusy
      · cases hidle.symm.trans hbusy
    | notifyCached => cases hbusy
    | clearIdentity => cases hidle.symm.trans hbusy
    | methodEvent env =>
      simp only [EapServer.call] at hbusy
      split at hbusy
      · cases hidle.symm.trans hbusy
      · cases hidle.symm.trans hbusy

theorem Good.smStep (h : Good sm)
    (hsm' : smStep registered w { sm with changed := false } = some sm') : Good sm' := by
  obtain ⟨hfacts, hrounds⟩ := h.unchanged
  refine ⟨hfacts.smStep hsm', hrounds.smStep hfacts.inv hsm', fun hbusy => ?_⟩
  refine busy_changed hfacts.inv (fun hover => ?_) hsm' hbusy
  rcases h.rounds.abort hover with hst | hst
  · exact (congrArg Busy hst).trans rfl
  · exact (congrArg Busy hst).trans rfl

theorem Good.step (h : Good sm) {op : Op ω}
    (hsm' : step registered (some sm) op = some sm') : Good sm' := by
  cases op with
  | smStep w => exact h.smStep hsm'
  | lower vars => exact Option.some.inj hsm' ▸ h.call (.lower vars)
  | pendingCb => exact Option.some.inj hsm' ▸ h.call .pendingCb
  | notifyCached => exact Option.some.inj hsm' ▸ h.call .notifyCached
  | clearIdentity => exact Option.some.inj hsm' ▸ h.call .clearIdentity
  | methodEvent env => exact Option.some.inj hsm' ▸ h.call (.methodEvent env)

theorem Facts.success (h : Facts sm) (hrest : sm.changed = false)
    (hsm' : EapServer.smStep registered w sm = some sm') (hst : sm'.eapState = .success)
    (hentered : sm'.changed = true) :
    Earned sm' ∧ (sm'.eapKeyData.isSome = true → sm'.eapKeyAvailable = true) := by
  rcases smStep_cases hsm' with rfl | rfl | ⟨-, rfl⟩ | ⟨-, rfl⟩ | ⟨-, hswitch⟩
  · exact absurd ((enterInitialise_spec true sm).1.symm.trans hst) nofun
  · exact absurd hst nofun
  · exact absurd hst nofun
  · exact absurd (hrest.symm.trans hentered) nofun
  · rcases h.inv.move_state (smSwitch_move hswitch) with ⟨rfl, -⟩ | ⟨hfrom, rfl⟩ | ⟨hne, -⟩
    · exact absurd (hrest.symm.trans hentered) nofun
    · obtain ⟨hearned, hmethod, hanswered, hkeyed⟩ := h.at hfrom.1 hfrom.2
      exact ⟨⟨hearned, hmethod, hanswered, hkeyed⟩, fun hkey => Bool.or_eq_true_iff.mpr (.inr hkey)⟩
    · exact absurd hst hne

theorem good_init (eapServer backendAuth : Bool) :
    Good (init eapServer backendAuth : EapSm π ω) :=
  ⟨⟨inv_init eapServer backendAuth, trivial⟩,
    ⟨Nat.zero_le _, Nat.zero_le _, fun hst => absurd rfl hst,
      fun hcoming => absurd hcoming (not_or.mpr ⟨nofun, nofun⟩), fun _ => rfl,
      fun hover => absurd hover nofun⟩, nofun⟩

end Success

/-- Source: `SM_STEP(EAP)`, `eap_sm_Policy_getDecision`. In every run, with any methods, each step
of the machine is sound: SUCCESS is entered when the current method has earned it, methods were
given no more responses that were received, and picked up, than the limits, and a response of
another kind is dismissed. -/
theorem run_success_earned {π ω : Type} (registered : List (EapMethod π ω))
    (eapServer backendAuth : Bool) (ops : List (Op ω)) :
    Along (step registered) (fun s op => ∀ w sm sm', op = .smStep w → s = some sm →
        step registered s op = some sm' → StepSound sm sm')
      (some (init eapServer backendAuth)) ops := by
  have hany : Along (step registered) (fun _ _ => True) (some (init eapServer backendAuth)) ops :=
    along_of_forall (P := fun _ => True) (fun _ _ => trivial) _
  refine (along_congr (I := fun s => ∀ sm, s = some sm → Good sm) ?_ ?_
    (fun sm hsm => Option.some.inj hsm ▸ good_init eapServer backendAuth) ops).mpr hany
  · intro s op hgood _ sm' hsm'
    obtain ⟨sm, rfl, -⟩ := Option.bind_eq_some_iff.mp hsm'
    exact (hgood sm rfl).step hsm'
  · refine fun s op hgood => iff_of_true ?_ trivial
    rintro w sm sm' rfl rfl hsm'
    obtain ⟨hfacts, hrounds⟩ := (hgood sm rfl).unchanged
    have hrounds' := hrounds.smStep hfacts.inv hsm'
    refine ⟨hfacts.success rfl hsm', hrounds'.limit, hrounds'.single, fun hst hgo => ?_⟩
    obtain ⟨h1, h2, h3, h4, h5, h6, h7⟩ := hfacts.dismissed hst hsm' hgo
    exact ⟨h1, h2, h3, h4, h5, h6, h7⟩

/-! ## A response too many, and a Nak -/

instance {π ω : Type} (sm : EapSm π ω) (resp : Option Bytes) : Decidable (Accepts sm resp) :=
  inferInstanceAs (Decidable (_ ∧ _ ∧ _))

/-- Every response is counted, also one that was picked up, and every response that is not of the
current method is dismissed, also a Nak. -/
structure StrictlySound {π ω : Type} (sm sm' : EapSm π ω) : Prop where
  counted : sm'.eapState = .success → sm'.changed = true →
    sm'.processed.length ≤ maxAuthRounds
  dismissed : sm.eapState = .received → ¬ Accepts sm sm.eapRespData →
    sm'.eapState ≠ .initialise → Dismissed sm sm'

theorem not_strict {registered : List (EapMethod ℕ Unit)} {pre : List (Op Unit)}
    (test : EapSm ℕ Unit → EapSm ℕ Unit → Bool)
    (htest : ∀ sm sm', test sm sm' = true → ¬ StrictlySound sm sm')
    (hrun : ((run (step registered) (some (init true true)) pre).bind fun sm =>
      (step registered (some sm) (.smStep plainWorld)).map (test sm)) = some true) :
    ¬ Along (step registered) (fun s op => ∀ w sm sm', op = .smStep w → s = some sm →
        step registered s op = some sm' → StrictlySound sm sm')
      (some (init true true)) (pre ++ [.smStep plainWorld]) := by
  intro hall
  obtain ⟨sm, hsm, hlast⟩ := Option.bind_eq_some_iff.mp hrun
  obtain ⟨sm', hsm', htrue⟩ := Option.map_eq_some_iff.mp hlast
  have hstrict := (Along.append.mp hall).2.1
  rw [hsm] at hstrict
  exact htest sm sm' htrue (hstrict plainWorld sm sm' rfl rfl hsm')

/-- The peer's identity is picked up, and a first request sent. -/
def pickedUp : List (Op Unit) :=
  .lower (lowerIf (some [2, 5, 0, 6, 1, 117]) true) :: List.replicate 9 (.smStep plainWorld)

def round (i : ℕ) : List (Op Unit) :=
  .lower (lowerIf (some [2, UInt8.ofNat (6 + i), 0, 5, 4]) false) ::
    List.replicate 7 (.smStep plainWorld)

/-- Besides the identity 50 responses are processed before SUCCESS, and a Nak takes the method away.
-/
theorem picked_up_and_nak :
    ¬ Along (step [identityMethod, countingMethod 50]) (fun s op => ∀ w sm sm', op = .smStep w →
        s = some sm → step [identityMethod, countingMethod 50] s op = some sm' →
          StrictlySound sm sm') (some (init true true))
      (pickedUp ++ (List.range 49).flatMap round ++ (round 49).take 5 ++ [.smStep plainWorld]) ∧
    ¬ Along (step [identityMethod, countingMethod 50]) (fun s op => ∀ w sm sm', op = .smStep w →
        s = some sm → step [identityMethod, countingMethod 50] s op = some sm' →
          StrictlySound sm sm') (some (init true true))
      (pickedUp ++ [.lower (lowerIf (some [2, 6, 0, 6, 3, 25]) false), .smStep plainWorld] ++
        [.smStep plainWorld]) := by
  constructor
  · refine not_strict (fun _ sm' => sm'.eapState = .success && sm'.changed &&
      decide (maxAuthRounds < sm'.processed.length)) (fun sm sm' htest hstrict => ?_)
      (by decide +kernel)
    simp only [Bool.and_eq_true, decide_eq_true_eq] at htest
    exact absurd (hstrict.counted htest.1.1 htest.1.2) (Nat.not_le_of_lt htest.2)
  · refine not_strict (fun sm sm' => sm.eapState = .received && !decide (Accepts sm sm.eapRespData) &&
      sm'.eapState ≠ .initialise && sm.m.isSome && sm'.m.isNone) (fun sm sm' htest hstrict => ?_)
      (by decide +kernel)
    simp only [Bool.and_eq_true, decide_eq_true_eq, Bool.not_eq_true', decide_eq_false_iff_not]
      at htest
    obtain ⟨⟨⟨⟨hst, hother⟩, hgo⟩, hsome⟩, hnone⟩ := htest
    have hsame := (hstrict.dismissed hst hother hgo).m
    rw [Option.isNone_iff_eq_none.mp hnone] at hsame
    rw [← hsame] at hsome
    exact absurd hsome nofun

end Hostapd.EapServer
