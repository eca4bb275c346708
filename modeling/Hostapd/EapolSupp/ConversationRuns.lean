import Hostapd.EapolSupp.Conversation

/-!
# The 802.1X supplicant: what a conversation is owed to

* **`EapTurn`**, `eapStep_turn`: the inversion lemma of `SM_STEP(EAP)`.
* **`ConvInv`** ties the variables of the machine to the record of its events. What GET_METHOD and
  METHOD do to it is said once (`ConvInv.getMethod`, `ConvInv.method`); every other state leaves
  the variables it is about alone (`ConvInv.quiet`).
* **`along_proper`**: in every run without requests of the type `EAP_TYPE_NONE` every step is
  proper.
* **`leap_called_for_success`**: LEAP's method is called for packets that are no requests, which
  is why `ForSelected` has a case for it.
-/

namespace Hostapd.EapolSupp

open Hostapd.Lib

section Turns

variable {π : Type} {crypto : EapolCrypto} {w : World π} {p q : EapolSm π}

/-! ## One step -/

structure SameConv (e e' : EapSm π) : Prop where
  m : e'.m = e.m
  priv : e'.eapMethodPriv = e.eapMethodPriv
  req : e'.toEapReq = e.toEapReq
  decision : e'.decision = e.decision
  selectedMethod : e'.selectedMethod = e.selectedMethod
  key : e'.eapKeyData = e.eapKeyData

/-- What a step of the machine does. The cases that call methods or succeed say when. -/
inductive EapTurn (crypto : EapolCrypto) (w : World π) (p q : EapolSm π) : Prop
  | initialise (global : Bool) (hq : q = enterInitialise global p)
  | received (hq : q = enterReceived crypto p)
  | getMethod (hq : q = enterGetMethod w p) (hst : p.eap.eapState = .received)
      (hreq : p.eap.rxReq = true) (hsel : p.eap.selectedMethod = typeNone)
  | method (hq : q = enterMethod p) (hst : p.eap.eapState ≠ .method)
      (hwhy : (p.eap.eapState = .getMethod ∧ p.eap.reqMethod = p.eap.selectedMethod) ∨
        (p.eap.selectedMethod ≠ typeNone ∧ ForSelected p.eap))
  | success (hq : q = enterSuccess p) (hdecision : p.eap.decision ≠ .fail)
  | quiet (hsame : SameConv p.eap q.eap)
      (hst : q.eap.eapState ≠ .initialise ∧ q.eap.eapState ≠ .getMethod ∧
        q.eap.eapState ≠ .method ∧ q.eap.eapState ≠ .success)
  | stay (hq : q = p)

theorem stepIdle_turn : EapTurn crypto w p (stepIdle crypto p) := by
  unfold stepIdle
  dsimp only
  split_ifs with hreq hsucc hfail hleap hpeap
  · exact .received rfl
  · refine .success rfl ?_
    rcases hsucc with ⟨-, h⟩ | ⟨-, h⟩
    · exact h
    · rw [h]
      decide
  · exact .quiet ⟨rfl, rfl, rfl, rfl, rfl, rfl⟩ (by simp [enterFailure, eapEntry])
  · exact .success rfl hleap.2.2.1
  · exact .success rfl hpeap.2.2.1
  · exact .stay rfl

theorem stepReceived_turn (hst : p.eap.eapState = .received) :
    EapTurn crypto w p (stepReceived w p) := by
  have hmethod : p.eap.eapState ≠ .method := by simp [hst]
  unfold stepReceived
  dsimp only
  split_ifs with hsucc hfail hdup hnotify hid hget hown hleap
  · exact .success rfl hsucc.2.1
  · exact .quiet ⟨rfl, rfl, rfl, rfl, rfl, rfl⟩ (by simp [enterFailure, eapEntry])
  · exact .quiet ⟨rfl, rfl, rfl, rfl, rfl, rfl⟩ (by simp [enterRetransmit, eapEntry])
  · exact .quiet ⟨rfl, rfl, rfl, rfl, rfl, rfl⟩ (by simp [enterNotification, eapEntry])
  · exact .quiet ⟨rfl, rfl, rfl, rfl, rfl, rfl⟩ (by simp [enterIdentity, eapEntry])
  · exact .getMethod rfl hst hget.1 hget.2.2.1
  · refine .method rfl hmethod (.inr ⟨?_, .inl ⟨hown.1, hown.2.2.1⟩⟩)
    -- without a selected method the request went to GET_METHOD, or was answered before
    intro hnone
    have htype : p.eap.reqMethod = typeNone := hown.2.2.1.trans hnone
    exact hget ⟨hown.1, hown.2.1, hnone, by rw [htype]; decide, by rw [htype]; decide⟩
  · refine .method rfl hmethod (.inr ⟨?_, .inr hleap⟩)
    rw [hleap.1]
    decide
  · exact .quiet ⟨rfl, rfl, rfl, rfl, rfl, rfl⟩ (by simp [enterDiscard, eapEntry])

/-- **The inversion lemma**: what a step of the machine does. -/
theorem eapStep_turn (crypto : EapolCrypto) (w : World π) (p : EapolSm π) :
    EapTurn crypto w p (eapStep crypto w p) := by
  unfold eapStep
  split_ifs with hrestart hdisabled hrounds hfirst
  · exact .initialise true rfl
  · exact .quiet ⟨rfl, rfl, rfl, rfl, rfl, rfl⟩ (by simp [enterDisabled, eapEntry])
  · exact .quiet ⟨rfl, rfl, rfl, rfl, rfl, rfl⟩ (by simp [enterFailure, eapEntry])
  · exact .stay rfl
  · unfold stepLocal
    split
    · exact .quiet ⟨rfl, rfl, rfl, rfl, rfl, rfl⟩ (by simp [enterIdle, eapEntry])
    · split_ifs
      · exact .initialise false rfl
      · exact .stay rfl
    · exact stepIdle_turn
    · next hst => exact stepReceived_turn hst
    · next hst =>
      split_ifs with heq
      · exact .method rfl (by simp [hst]) (.inl ⟨hst, heq.symm⟩)
      · exact .quiet ⟨rfl, rfl, rfl, rfl, rfl, rfl⟩ (by simp [enterSendResponse, eapEntry])
    · split_ifs
      · exact .quiet ⟨rfl, rfl, rfl, rfl, rfl, rfl⟩ (by simp [enterDiscard, eapEntry])
      · exact .quiet ⟨rfl, rfl, rfl, rfl, rfl, rfl⟩ (by simp [enterSendResponse, eapEntry])
    · exact .quiet ⟨rfl, rfl, rfl, rfl, rfl, rfl⟩ (by simp [enterIdle, eapEntry])
    · exact .quiet ⟨rfl, rfl, rfl, rfl, rfl, rfl⟩ (by simp [enterIdle, eapEntry])
    · exact .quiet ⟨rfl, rfl, rfl, rfl, rfl, rfl⟩ (by simp [enterSendResponse, eapEntry])
    · exact .quiet ⟨rfl, rfl, rfl, rfl, rfl, rfl⟩ (by simp [enterSendResponse, eapEntry])
    · exact .quiet ⟨rfl, rfl, rfl, rfl, rfl, rfl⟩ (by simp [enterSendResponse, eapEntry])
    · exact .stay rfl
    · exact .stay rfl

/-! ## The events of a step -/

theorem eapEvents_self (p : EapolSm π) : eapEvents p p = [] := by
  unfold eapEvents
  split <;> simp_all

theorem eapEvents_of_quiet (h : q.eap.eapState ≠ .initialise ∧ q.eap.eapState ≠ .getMethod ∧
    q.eap.eapState ≠ .method) : eapEvents p q = [] := by
  unfold eapEvents
  split <;> simp_all

theorem deinitPrevMethod_state (e : EapSm π) : (deinitPrevMethod e).eapState = e.eapState := by
  unfold deinitPrevMethod
  split_ifs <;> rfl

theorem keepOrDeinit_state (e : EapSm π) : (keepOrDeinit e).eapState = e.eapState := by
  unfold keepOrDeinit
  split_ifs
  · split <;> rfl
  · exact deinitPrevMethod_state e

theorem eapEvents_enterInitialise (global : Bool) (p : EapolSm π) :
    eapEvents p (enterInitialise global p) = [.initialise] := by
  have hnotes : (enterInitialise global p).notes = .eapInitialise :: p.notes := rfl
  have hst : (enterInitialise global p).eap.eapState = .initialise := keepOrDeinit_state _
  simp [eapEvents, hst, hnotes]

/-! ## The invariant of a conversation -/

section Since

variable {m : EapMethod π} {ret : MethodRet} {key : Option (Option Bytes)} {l : List (EapEvent π)}

@[simp] theorem sinceInit_nil : sinceInit ([] : List (EapEvent π)) = [] := rfl

@[simp] theorem sinceInit_initialise : sinceInit (.initialise :: l) = [] := rfl

@[simp] theorem sinceInit_select : sinceInit (.select m :: l) = .select m :: sinceInit l := rfl

@[simp] theorem sinceInit_process :
    sinceInit (.process m ret key :: l) = .process m ret key :: sinceInit l := rfl

@[simp] theorem latestDecision_nil : latestDecision ([] : List (EapEvent π)) = none := rfl

@[simp] theorem latestDecision_initialise : latestDecision (.initialise :: l) = none := rfl

@[simp] theorem latestDecision_select : latestDecision (.select m :: l) = latestDecision l := rfl

theorem latestDecision_process : latestDecision (.process m ret key :: l) =
    if ret.ignore then latestDecision l else some (m, ret.decision) := by
  cases hi : ret.ignore <;> simp [latestDecision, EapEvent.decided, hi]

theorem mem_of_latestDecision {d : EapDecision} (h : latestDecision l = some (m, d)) :
    ∃ ret key, .process m ret key ∈ sinceInit l := by
  obtain ⟨e, he, hd⟩ := List.exists_of_findSome?_eq_some h
  cases e with
  | process m' ret key =>
    simp only [EapEvent.decided] at hd
    split_ifs at hd
    obtain ⟨rfl, -⟩ : m' = m ∧ ret.decision = d := by simpa using hd
    exact ⟨ret, key, he⟩
  | _ => simp [EapEvent.decided] at hd

end Since

def Exclusive (r : EapReq) : Prop :=
  r.rxReq = true → r.rxSuccess = false ∧ r.rxFailure = false ∧ r.rxResp = false

/-- The variables of the machine and the record of the conversation. -/
structure ConvInv (e : EapSm π) (log : List (EapEvent π)) : Prop where
  priv : e.m.isSome = e.eapMethodPriv.isSome
  rx : Exclusive e.toEapReq
  decision : e.decision = (latestDecision log).elim .fail Prod.snd
  uncalled : e.selectedMethod = typeNone → ∀ m ret key, .process m ret key ∉ sinceInit log
  selected : e.selectedMethod ≠ typeNone → ∃ m, .select m ∈ sinceInit log ∧
    (∀ m' ret key, .process m' ret key ∈ sinceInit log → m' = m) ∧ ∀ m', e.m = some m' → m' = m
  key : ∀ k, e.eapKeyData = some k → ∃ m ret, .process m ret (some (some k)) ∈ sinceInit log
  getMethod : e.eapState = .getMethod → e.rxReq = true ∧ e.reqMethod ≠ typeNone

variable {e e' : EapSm π} {log : List (EapEvent π)}

theorem convInv_init (conf : EapolConfig) : ConvInv (eapInit π conf) [] where
  priv := rfl
  rx := fun h => absurd h (by simp [eapInit, EapReq.none])
  decision := rfl
  uncalled := by simp
  selected := fun h => absurd rfl h
  key := fun k h => absurd h (by simp [eapInit])
  getMethod := fun h => absurd h (by simp [eapInit])

theorem ConvInv.quiet (h : ConvInv e log) (hs : SameConv e e')
    (hst : e'.eapState = .getMethod → e.eapState = .getMethod) : ConvInv e' log := by
  obtain ⟨hm, hpriv, hreq, hdecision, hsel, hkey⟩ := hs
  refine ⟨?_, ?_, ?_, ?_, ?_, ?_, ?_⟩
  · rw [hm, hpriv]
    exact h.priv
  · rw [hreq]
    exact h.rx
  · rw [hdecision]
    exact h.decision
  · rw [hsel]
    exact h.uncalled
  · rw [hsel, hm]
    exact h.selected
  · rw [hkey]
    exact h.key
  · rw [hreq]
    exact fun hget => h.getMethod (hst hget)

theorem ConvInv.deinitPrevMethod (h : ConvInv e log) : ConvInv (deinitPrevMethod e) log := by
  unfold EapolSupp.deinitPrevMethod
  split_ifs
  · refine ⟨rfl, h.rx, h.decision, h.uncalled, ?_, h.key, h.getMethod⟩
    intro hsel
    obtain ⟨m, hm, hcalls, -⟩ := h.selected hsel
    exact ⟨m, hm, hcalls, fun m' hm' => absurd hm' (by simp)⟩
  · exact h

theorem ConvInv.initialise (h : ConvInv p.eap log) (global : Bool) :
    ConvInv (enterInitialise global p).eap (.initialise :: log) := by
  have hkept : ∀ e : EapSm π, e.m.isSome = e.eapMethodPriv.isSome →
      (keepOrDeinit e).m.isSome = (keepOrDeinit e).eapMethodPriv.isSome ∧
        (keepOrDeinit e).toEapReq = e.toEapReq := by
    intro e he
    unfold keepOrDeinit EapolSupp.deinitPrevMethod
    split_ifs
    · split
      · next hm _ => exact ⟨by simp [hm], rfl⟩
      · exact ⟨he, rfl⟩
    · exact ⟨rfl, rfl⟩
    · exact ⟨he, rfl⟩
  have hentry : (eapEntry global .initialise p).eap.m.isSome =
      (eapEntry global .initialise p).eap.eapMethodPriv.isSome := h.priv
  obtain ⟨hpriv, hreq⟩ := hkept _ hentry
  refine ⟨hpriv, ?_, rfl, by simp, fun hsel => absurd rfl hsel, ?_, ?_⟩
  · intro hrx
    have hrx' : p.eap.rxReq = true := (congrArg EapReq.rxReq hreq).symm.trans hrx
    have hall := h.rx hrx'
    exact ⟨(congrArg EapReq.rxSuccess hreq).trans hall.1,
      (congrArg EapReq.rxFailure hreq).trans hall.2.1, (congrArg EapReq.rxResp hreq).trans hall.2.2⟩
  · intro k hk
    exact absurd hk (by simp [enterInitialise])
  · intro hst
    have hinit : (enterInitialise global p).eap.eapState = .initialise := keepOrDeinit_state _
    exact absurd (hinit.symm.trans hst) (by decide)

theorem exclusive_parseCode (selected : EapType) (req : Bytes) (plen : ℕ) (id : ℤ) :
    Exclusive (parseCode selected req plen { EapReq.none with reqId := id }) := by
  unfold parseCode
  split
  · dsimp only
    split_ifs <;> simp [Exclusive, EapReq.none]
  · split_ifs <;> simp [Exclusive, EapReq.none]
  all_goals simp [Exclusive, EapReq.none]

theorem parseEapReq_eq (crypto : EapolCrypto) (e : EapSm π) (req : Option Bytes) :
    ∃ r md5, Exclusive r ∧ parseEapReq crypto e req = { e with toEapReq := r, reqMd5 := md5 } := by
  have hnone : Exclusive EapReq.none := by simp [Exclusive, EapReq.none]
  unfold parseEapReq
  cases req with
  | none => exact ⟨EapReq.none, e.reqMd5, hnone, rfl⟩
  | some req =>
    dsimp only
    split_ifs
    · exact ⟨EapReq.none, e.reqMd5, hnone, rfl⟩
    · exact ⟨_, _, exclusive_parseCode _ _ _ _, rfl⟩
    · exact ⟨_, _, exclusive_parseCode _ _ _ _, rfl⟩

theorem enterReceived_state : (enterReceived crypto p).eap.eapState = .received := by
  obtain ⟨r, md5, -, heq⟩ := parseEapReq_eq crypto (eapEntry false .received p).eap p.eapReqData
  exact congrArg EapSm.eapState heq

theorem ConvInv.received (h : ConvInv p.eap log) : ConvInv (enterReceived crypto p).eap log := by
  obtain ⟨r, md5, hr, heq⟩ := parseEapReq_eq crypto (eapEntry false .received p).eap p.eapReqData
  have hq : (enterReceived crypto p).eap =
      { (eapEntry false .received p).eap with
        toEapReq := r
        reqMd5 := md5
        numRounds := p.eap.numRounds + 1 } := by
    have hnum : (enterReceived crypto p).eap =
        { parseEapReq crypto (eapEntry false .received p).eap p.eapReqData with
          numRounds :=
            (parseEapReq crypto (eapEntry false .received p).eap p.eapReqData).numRounds + 1 } := rfl
    rw [hnum, heq]
    rfl
  rw [hq]
  exact ⟨h.priv, hr, h.decision, h.uncalled, h.selected, h.key, fun hst => absurd hst (by simp [eapEntry])⟩

/-! ### GET_METHOD -/

theorem initMethod_cases (m : EapMethod π) (reinit : Bool) (e : EapSm π) :
    ((initMethod w m reinit e).toEapReq = e.toEapReq ∧
      (initMethod w m reinit e).eapState = e.eapState ∧
      (initMethod w m reinit e).decision = e.decision ∧
      (initMethod w m reinit e).eapKeyData = e.eapKeyData) ∧
    (((initMethod w m reinit e).m = some m ∧ (initMethod w m reinit e).eapMethodPriv.isSome = true ∧
        (initMethod w m reinit e).selectedMethod = e.selectedMethod) ∨
      ((initMethod w m reinit e).m = none ∧ (initMethod w m reinit e).eapMethodPriv = none ∧
        (initMethod w m reinit e).selectedMethod = typeNone)) := by
  unfold initMethod
  dsimp only
  split
  · exact ⟨⟨rfl, rfl, rfl, rfl⟩, .inl ⟨rfl, rfl, rfl⟩⟩
  · split_ifs <;> exact ⟨⟨rfl, rfl, rfl, rfl⟩, .inr ⟨rfl, rfl, rfl⟩⟩

theorem getMethod_cases (hpriv : e.m.isSome = e.eapMethodPriv.isSome)
    (hsel : e.selectedMethod = typeNone) :
    ((getMethod w e).toEapReq = e.toEapReq ∧ (getMethod w e).eapState = e.eapState ∧
      (getMethod w e).decision = e.decision ∧ (getMethod w e).eapKeyData = e.eapKeyData ∧
      (getMethod w e).m.isSome = (getMethod w e).eapMethodPriv.isSome) ∧
    ((getMethod w e).selectedMethod = typeNone ∨
      ((getMethod w e).selectedMethod = e.reqMethod ∧ (getMethod w e).m.isSome = true)) := by
  unfold getMethod
  dsimp only
  generalize (if e.reqMethod = typeExpanded then e.reqVendorMethod else e.reqMethod) = method
  split
  · next hallowed =>
    generalize decide (e.fastReauth = true ∧
      e.m.any (fun m => m.vendor = e.reqVendor ∧ m.method = method) = true ∧
      hasReauthData e = true) = reinit
    have hdeinit : ∃ m priv, (if reinit = true then e else deinitPrevMethod e) =
        { e with m := m, eapMethodPriv := priv } := by
      unfold EapolSupp.deinitPrevMethod
      split_ifs
      · exact ⟨e.m, e.eapMethodPriv, rfl⟩
      · exact ⟨none, none, rfl⟩
      · exact ⟨e.m, e.eapMethodPriv, rfl⟩
    obtain ⟨m, priv, heq⟩ := hdeinit
    rw [heq]
    split
    · next hnone =>
      have hboth : m = none ∧ w.getEapMethod e.reqVendor method = none := by simpa using hnone
      simp [hboth.2] at hallowed
    · next m' hm' =>
      obtain ⟨⟨hreq, hst, hdecision, hkey⟩, hcase⟩ := initMethod_cases (w := w) m' reinit
        { { e with m := m, eapMethodPriv := priv } with selectedMethod := e.reqMethod }
      refine ⟨⟨hreq, hst, hdecision, hkey, ?_⟩, ?_⟩
      · rcases hcase with ⟨hm, hp, -⟩ | ⟨hm, hp, -⟩
        · rw [hm, hp]
          rfl
        · rw [hm, hp]
          rfl
      · rcases hcase with ⟨hm, -, hs⟩ | ⟨-, -, hs⟩
        · exact .inr ⟨hs, by rw [hm]; rfl⟩
        · exact .inl hs
  · exact ⟨⟨rfl, rfl, rfl, rfl, hpriv⟩, .inl hsel⟩

theorem eapEvents_enterGetMethod (hst : p.eap.eapState = .received)
    (hget : (enterGetMethod w p).eap.eapState = .getMethod) :
    eapEvents p (enterGetMethod w p) = selectEvents (enterGetMethod w p) := by
  simp [eapEvents, hget, hst]

theorem ConvInv.selects (h : ConvInv p.eap log) (hst : p.eap.eapState = .received)
    (hreq : p.eap.rxReq = true) (hsel : p.eap.selectedMethod = typeNone)
    (htype : p.eap.reqMethod ≠ typeNone) :
    ConvInv (enterGetMethod w p).eap (eapEvents p (enterGetMethod w p) ++ log) := by
  obtain ⟨⟨hrx, hstate, hdecision, hkey, hpriv⟩, hcase⟩ :=
    getMethod_cases (w := w) (e := (eapEntry false .getMethod p).eap) h.priv hsel
  rw [eapEvents_enterGetMethod hst hstate]
  have hnocalls := h.uncalled hsel
  have hevents : (∃ m, (enterGetMethod w p).eap.m = some m ∧
        (enterGetMethod w p).eap.selectedMethod ≠ typeNone ∧
        selectEvents (enterGetMethod w p) = [.select m]) ∨
      ((enterGetMethod w p).eap.selectedMethod = typeNone ∧
        selectEvents (enterGetMethod w p) = []) := by
    rcases hcase with hnone | ⟨hsome, hm⟩
    · refine .inr ⟨hnone, ?_⟩
      have hnone' : (enterGetMethod w p).eap.selectedMethod = typeNone := hnone
      unfold selectEvents
      split
      · rw [if_pos hnone']
      · rfl
    · obtain ⟨m, hm⟩ := Option.isSome_iff_exists.mp hm
      have hm' : (enterGetMethod w p).eap.m = some m := hm
      have hsome' : (enterGetMethod w p).eap.selectedMethod ≠ typeNone := by
        intro hnone
        exact htype (hsome.symm.trans hnone)
      refine .inl ⟨m, hm', hsome', ?_⟩
      simp only [selectEvents, hm', if_neg hsome']
  have hdecide : ∀ events : List (EapEvent π), (events = [] ∨ ∃ m, events = [.select m]) →
      latestDecision (events ++ log) = latestDecision log ∧
        ∀ m ret key, .process m ret key ∈ sinceInit (events ++ log) ↔
          .process m ret key ∈ sinceInit log := by
    rintro events (rfl | ⟨m, rfl⟩)
    · exact ⟨rfl, fun _ _ _ => Iff.rfl⟩
    · exact ⟨rfl, fun _ _ _ => by simp⟩
  obtain ⟨hlatest, hcalls⟩ := hdecide (selectEvents (enterGetMethod w p))
    (hevents.elim (fun ⟨m, _, _, he⟩ => .inr ⟨m, he⟩) fun ⟨_, he⟩ => .inl he)
  refine ⟨hpriv, ?_, ?_, ?_, ?_, ?_, ?_⟩
  · intro hr
    have hall := h.rx ((congrArg EapReq.rxReq hrx).symm.trans hr)
    exact ⟨(congrArg EapReq.rxSuccess hrx).trans hall.1,
      (congrArg EapReq.rxFailure hrx).trans hall.2.1, (congrArg EapReq.rxResp hrx).trans hall.2.2⟩
  · rw [hlatest]
    exact hdecision.trans h.decision
  · intro _ m ret key
    rw [hcalls]
    exact hnocalls m ret key
  · intro hsome
    rcases hevents with ⟨m, hm, -, he⟩ | ⟨hnone, -⟩
    · refine ⟨m, by simp [he], ?_, ?_⟩
      · intro m' ret key hmem
        exact absurd ((hcalls m' ret key).mp hmem) (hnocalls m' ret key)
      · intro m' hm'
        exact Option.some.inj (hm'.symm.trans hm)
    · exact absurd hnone hsome
  · intro k hk
    obtain ⟨m, ret, hmem⟩ := h.key k (hkey.symm.trans hk)
    exact absurd hmem (hnocalls m ret _)
  · intro _
    exact ⟨(congrArg EapReq.rxReq hrx).trans hreq,
      fun hnone => htype ((congrArg EapReq.reqMethod hrx).symm.trans hnone)⟩

/-! ### METHOD -/

/-- A call of `process` in METHOD, with what it returns and what the machine takes over of it. -/
structure Calls (p q : EapolSm π) (m : EapMethod π) (ret : MethodRet)
    (key : Option (Option Bytes)) : Prop where
  events : processEvents p = [.process m ret key]
  current : p.eap.m = some m
  m : q.eap.m = some m
  priv : q.eap.eapMethodPriv.isSome = true
  req : q.eap.toEapReq = p.eap.toEapReq
  selectedMethod : q.eap.selectedMethod = p.eap.selectedMethod
  eapState : q.eap.eapState = .method
  decision : q.eap.decision = if ret.ignore then p.eap.decision else ret.decision
  key : q.eap.eapKeyData = key.getD p.eap.eapKeyData

theorem enterMethod_calls (hpriv : p.eap.m.isSome = p.eap.eapMethodPriv.isSome) :
    (p.eap.m = none ∧ processEvents p = [] ∧ enterMethod p = eapEntry false .method p) ∨
      ∃ m ret key, Calls p (enterMethod p) m ret key := by
  rcases hm : p.eap.m with _ | m
  · have hentry : (eapEntry false .method p).eap.m = none := hm
    refine .inl ⟨rfl, by simp [processEvents, hm], ?_⟩
    simp [enterMethod, hentry]
  · obtain ⟨priv, hp⟩ : ∃ priv, p.eap.eapMethodPriv = some priv := by
      rw [hm] at hpriv
      exact Option.isSome_iff_exists.mp hpriv.symm
    rcases hcall : m.process priv p.eap.toDoneFlags ⟨p.eap.ignore, p.eap.methodState,
      p.eap.decision, p.eap.allowNotifications⟩ p.eapReqData with ⟨resp, ret, priv', flags⟩
    have hentry : (eapEntry false .method p).eap.m = some m ∧
        (eapEntry false .method p).eap.eapMethodPriv = some priv := ⟨hm, hp⟩
    have hcall' : m.process priv (eapEntry false .method p).eap.toDoneFlags
        ⟨(eapEntry false .method p).eap.ignore, (eapEntry false .method p).eap.methodState,
          (eapEntry false .method p).eap.decision, (eapEntry false .method p).eap.allowNotifications⟩
        (eapEntry false .method p).eapReqData = (resp, ret, priv', flags) := hcall
    have hevents : processEvents p =
        [.process m ret (if ret.ignore then none else m.key priv')] := by
      simp only [processEvents, hm, hp, hcall]
    refine .inr ⟨m, ret, if ret.ignore then none else m.key priv', ?_⟩
    unfold enterMethod
    simp only [hentry.1, hentry.2, hcall']
    cases hi : ret.ignore with
    | true =>
      rw [hi] at hevents
      exact ⟨hevents, hm, hentry.1, rfl, rfl, rfl, rfl, by simp [hi, eapEntry], rfl⟩
    | false =>
      rw [hi] at hevents
      unfold takeKey
      rcases hk : m.key priv' with _ | key
      · rw [hk] at hevents
        exact ⟨hevents, hm, hentry.1, rfl, rfl, rfl, rfl, by simp [hi], rfl⟩
      · rw [hk] at hevents
        exact ⟨hevents, hm, hentry.1, rfl, rfl, rfl, rfl, by simp [hi], rfl⟩

theorem enterMethod_state (hpriv : p.eap.m.isSome = p.eap.eapMethodPriv.isSome) :
    (enterMethod p).eap.eapState = .method := by
  rcases enterMethod_calls hpriv with ⟨-, -, hq⟩ | ⟨m, ret, key, hcall⟩
  · rw [hq]
    rfl
  · exact hcall.eapState

theorem ConvInv.method (h : ConvInv p.eap log) (hst : p.eap.eapState ≠ .method)
    (hsel : p.eap.selectedMethod ≠ typeNone) :
    ConvInv (enterMethod p).eap (eapEvents p (enterMethod p) ++ log) := by
  obtain ⟨m₀, hselected, hcalls, hcur⟩ := h.selected hsel
  rcases enterMethod_calls h.priv with ⟨-, hevents, hq⟩ | ⟨m, ret, key, hcall⟩
  · have hnone : eapEvents p (enterMethod p) = [] := by
      simp [eapEvents, hq, eapEntry, hst, hevents]
    rw [hnone, hq]
    exact h.quiet ⟨rfl, rfl, rfl, rfl, rfl, rfl⟩ (by simp [eapEntry])
  · have hlog : eapEvents p (enterMethod p) = [.process m ret key] := by
      simp [eapEvents, hcall.eapState, hst, hcall.events]
    rw [hlog]
    have hm : m = m₀ := hcur m hcall.current
    refine ⟨?_, ?_, ?_, ?_, ?_, ?_, ?_⟩
    · rw [hcall.m, hcall.priv]
      rfl
    · rw [hcall.req]
      exact h.rx
    · rw [hcall.decision, List.singleton_append, latestDecision_process]
      cases ret.ignore
      · rfl
      · exact h.decision
    · intro hnone
      exact absurd (hcall.selectedMethod.symm.trans hnone) hsel
    · intro _
      refine ⟨m₀, by simpa using hselected, ?_, ?_⟩
      · intro m' ret' key' hmem
        rw [List.singleton_append, sinceInit_process] at hmem
        rcases List.mem_cons.mp hmem with heq | hmem
        · obtain ⟨rfl, -, -⟩ : m' = m ∧ ret' = ret ∧ key' = key := by simpa using heq
          exact hm
        · exact hcalls m' ret' key' hmem
      · intro m' hm'
        exact (Option.some.inj (hm'.symm.trans hcall.m)).trans hm
    · intro k hk
      rw [List.singleton_append, sinceInit_process]
      rw [hcall.key] at hk
      rcases key with _ | key
      · obtain ⟨m', ret', hmem⟩ := h.key k hk
        exact ⟨m', ret', List.mem_cons_of_mem _ hmem⟩
      · have hkey : key = some k := hk
        exact ⟨m, ret, hkey ▸ List.mem_cons_self⟩
    · intro hget
      exact absurd (hcall.eapState.symm.trans hget) (by decide)

/-! ## Runs -/

def Watching (s : Watched π) : Prop := ConvInv s.sm.eap s.log

theorem watching_watch (s : Watched π) (op : PeerOp π) (h : Watching s) (hop : NoTypeNone s op) :
    Watching (watch crypto s op) := by
  cases op with
  | step w =>
    show ConvInv (eapStep crypto w s.sm).eap (eapEvents s.sm (eapStep crypto w s.sm) ++ s.log)
    have hturn := eapStep_turn crypto w s.sm
    generalize eapStep crypto w s.sm = q at hturn ⊢
    cases hturn with
    | initialise global hq =>
      rw [hq, eapEvents_enterInitialise]
      exact h.initialise global
    | received hq =>
      have hst : q.eap.eapState = .received := by
        rw [hq]
        exact enterReceived_state
      rw [eapEvents_of_quiet (by simp [hst]), hq]
      exact h.received
    | getMethod hq hst hreq hsel =>
      rw [hq]
      exact h.selects hst hreq hsel fun hnone => hop ⟨hst, hreq, hnone⟩
    | method hq hst hwhy =>
      rw [hq]
      refine h.method hst ?_
      rcases hwhy with ⟨hget, heq⟩ | ⟨hsel, -⟩
      · exact heq ▸ (h.getMethod hget).2
      · exact hsel
    | success hq hdecision =>
      have hevents : eapEvents s.sm q = [] :=
        eapEvents_of_quiet (by simp [hq, enterSuccess, eapEntry, keyAvailable])
      rw [hevents, hq]
      exact h.quiet ⟨rfl, rfl, rfl, rfl, rfl, rfl⟩ (by simp [enterSuccess, eapEntry, keyAvailable])
    | quiet hsame hst =>
      rw [eapEvents_of_quiet ⟨hst.1, hst.2.1, hst.2.2.1⟩]
      exact h.quiet hsame fun hget => absurd hget hst.2.1
    | stay hq =>
      rw [hq, eapEvents_self]
      exact h
  | lower vars => exact h
  | getEapRespData => exact h.quiet ⟨rfl, rfl, rfl, rfl, rfl, rfl⟩ id
  | abort =>
    exact ⟨h.priv, h.rx, h.decision, h.uncalled, h.selected, fun k hk => absurd hk (by simp [watch, eapAbort]),
      h.getMethod⟩
  | invalidateCachedSession => exact h.deinitPrevMethod
  | set fastReauth workaround forceDisabled => exact h.quiet ⟨rfl, rfl, rfl, rfl, rfl, rfl⟩ id

theorem ConvInv.owed (h : ConvInv p.eap log) (hdecision : p.eap.decision ≠ .fail)
    (hkey : q.eap.eapKeyData = p.eap.eapKeyData) : OwedToMethod q log := by
  rcases hlatest : latestDecision log with _ | ⟨m, d⟩
  · rw [h.decision, hlatest] at hdecision
    exact absurd rfl hdecision
  · have hd : d ≠ .fail := by
      rw [h.decision, hlatest] at hdecision
      exact hdecision
    obtain ⟨ret, key, hmem⟩ := mem_of_latestDecision hlatest
    have hsel : p.eap.selectedMethod ≠ typeNone := fun hnone => h.uncalled hnone m ret key hmem
    obtain ⟨m₀, hselected, hcalls, -⟩ := h.selected hsel
    have hm : m = m₀ := hcalls m ret key hmem
    refine ⟨m, d, hm ▸ hselected, hlatest, hd, ?_⟩
    intro k hk
    obtain ⟨m', ret', hmem'⟩ := h.key k (hkey.symm.trans hk)
    have hm' : m' = m := (hcalls m' ret' _ hmem').trans hm.symm
    exact ⟨ret', hm' ▸ hmem'⟩

theorem enterGetMethod_state (hpriv : p.eap.m.isSome = p.eap.eapMethodPriv.isSome)
    (hsel : p.eap.selectedMethod = typeNone) : (enterGetMethod w p).eap.eapState = .getMethod :=
  (getMethod_cases (w := w) (e := (eapEntry false .getMethod p).eap) hpriv hsel).1.2.1

theorem EapTurn.entered (h : ConvInv p.eap log) (hturn : EapTurn crypto w p q) :
    (q.eap.eapState ≠ .success ∧ q.eap.eapState ≠ .method) ∨
      (q.eap.eapState = .success ∧ p.eap.decision ≠ .fail ∧
        q.eap.eapKeyData = p.eap.eapKeyData) ∨
      (q.eap.eapState = .method ∧
        ((p.eap.eapState = .getMethod ∧ p.eap.reqMethod = p.eap.selectedMethod) ∨
          (p.eap.selectedMethod ≠ typeNone ∧ ForSelected p.eap))) ∨ q = p := by
  cases hturn with
  | initialise global hq =>
    have hst : q.eap.eapState = .initialise := hq ▸ keepOrDeinit_state _
    exact .inl (by simp [hst])
  | received hq =>
    have hst : q.eap.eapState = .received := hq ▸ enterReceived_state
    exact .inl (by simp [hst])
  | getMethod hq _ _ hsel =>
    have hst : q.eap.eapState = .getMethod := hq ▸ enterGetMethod_state h.priv hsel
    exact .inl (by simp [hst])
  | method hq _ hwhy => exact .inr (.inr (.inl ⟨hq ▸ enterMethod_state h.priv, hwhy⟩))
  | success hq hdecision => exact .inr (.inl ⟨hq ▸ rfl, hdecision, hq ▸ rfl⟩)
  | quiet _ hst => exact .inl ⟨hst.2.2.2, hst.2.2.1⟩
  | stay hq => exact .inr (.inr (.inr hq))

theorem owed_of_enters_success (h : ConvInv p.eap log) (hturn : EapTurn crypto w p q)
    (hq : EntersState .success p q) : OwedToMethod q log := by
  obtain ⟨hst, hold⟩ := hq
  rcases hturn.entered h with ⟨hother, -⟩ | ⟨-, hdecision, hkey⟩ | ⟨hmethod, -⟩ | heq
  · exact absurd hst hother
  · exact h.owed hdecision hkey
  · exact absurd (hst.symm.trans hmethod) (by decide)
  · exact absurd (heq ▸ hst) hold

theorem allowed_of_enters_method (h : ConvInv p.eap log) (hturn : EapTurn crypto w p q)
    (hq : EntersState .method p q) : CallAllowed p log := by
  obtain ⟨hst, hold⟩ := hq
  have hallowed (hsel : p.eap.selectedMethod ≠ typeNone) (hfor : ForSelected p.eap) :
      CallAllowed p log := by
    intro m hm
    obtain ⟨m₀, hselected, -, hcur⟩ := h.selected hsel
    refine ⟨?_, (hcur m hm).symm ▸ hselected, hfor⟩
    rw [← h.priv, hm]
    rfl
  rcases hturn.entered h with ⟨-, hother⟩ | ⟨hsucc, -⟩ | ⟨-, hwhy⟩ | heq
  · exact absurd hst hother
  · exact absurd (hst.symm.trans hsucc) (by decide)
  · rcases hwhy with ⟨hget, heq⟩ | ⟨hsel, hfor⟩
    · obtain ⟨hreq, htype⟩ := h.getMethod hget
      exact hallowed (heq ▸ htype) (.inl ⟨hreq, heq⟩)
    · exact hallowed hsel hfor
  · exact absurd (heq ▸ hst) hold

theorem eapStep_of_local (h : localStep p = true) : eapStep crypto w p = stepLocal crypto w p := by
  simp only [localStep, Bool.and_eq_true, Bool.not_eq_true', decide_eq_true_eq] at h
  obtain ⟨⟨⟨hup, hrestart⟩, hable⟩, hrounds⟩ := h
  unfold eapStep
  rw [if_neg (by simp [hrestart]), if_neg (by simp [hup, hable]), if_neg (by omega)]

theorem answered_of_retransmitted (h : ConvInv p.eap log) (hp : Retransmitted p) :
    AnsweredFromStore crypto p (eapStep crypto w p) := by
  obtain ⟨hlocal, hst, hdup⟩ := hp
  have hreq : p.eap.rxReq = true := by
    simp only [reqIsDuplicate, Bool.and_eq_true] at hdup
    exact hdup.1.2
  obtain ⟨hsucc, hfail, -⟩ := h.rx hreq
  have hq : eapStep crypto w p = enterRetransmit p := by
    rw [eapStep_of_local hlocal]
    unfold stepLocal
    rw [hst]
    simp [stepReceived, hsucc, hfail, hreq, hdup]
  rw [hq]
  refine ⟨rfl, eapEvents_of_quiet (by simp [enterRetransmit, eapEntry]), ?_⟩
  intro w'
  have hr : eapStep crypto w' (enterRetransmit p) = enterSendResponse (enterRetransmit p) := by
    have hlocal' : localStep (enterRetransmit p) = true := hlocal
    rw [eapStep_of_local hlocal']
    rfl
  dsimp only
  rw [hr]
  exact ⟨rfl, eapEvents_of_quiet (by simp [enterSendResponse, eapEntry]), rfl, rfl, rfl, rfl⟩

theorem proper_of_watching (s : Watched π) (op : PeerOp π) (h : Watching s) :
    Proper crypto s op := by
  cases op with
  | step w =>
    have hturn := eapStep_turn crypto w s.sm
    exact ⟨owed_of_enters_success h hturn, allowed_of_enters_method h hturn,
      answered_of_retransmitted h⟩
  | _ => trivial

/-- **Success is owed to the selected method.** In every run of the machine among lower layers that
do as they please, in which no request of the type `EAP_TYPE_NONE` is handed to it, every step is
proper. -/
theorem along_proper (crypto : EapolCrypto) (conf : EapolConfig) (ops : List (PeerOp π))
    (hops : Along (watch crypto) NoTypeNone (watchInit π conf) ops) :
    Along (watch crypto) (Proper crypto) (watchInit π conf) ops := by
  have hinit : Watching (watchInit π conf) := convInv_init conf
  refine hops.imp_of_inv watching_watch ?_ hinit
  intro s op h _
  exact proper_of_watching s op h

end Turns

/-! ## A conversation with LEAP -/

section Leap

def leapConf : EapolConfig := ⟨60, 30, 30, 3, false, false, false, false, false, false⟩

def leapCrypto : EapolCrypto := ⟨id, fun _ => id, fun _ => id⟩

/-- A method with the course of LEAP: its first call answers the challenge and waits, the second one
is for the packet that ends the authentication of the peer. -/
def leapMethod : EapMethod ℕ where
  vendor := vendorIetf
  method := typeLeap
  init := fun flags => (some 0, flags)
  hasReauthData := none
  deinitForReauth := id
  initForReauth := fun priv flags => (some priv, flags)
  process := fun n flags _ _ =>
    (some [2, 1, 0, 5, 17], if n = 0 then ⟨false, .mayCont, .fail, true⟩
      else ⟨false, .done, .condSucc, true⟩, n + 1, flags)
  key := fun n => if n = 0 then none else some (some [0x4b])

def leapWorld : World ℕ where
  getEapMethod := fun _ method => if method = typeLeap then some leapMethod else none
  allowedMethod := fun _ _ => true
  pendingPin := false
  buildNak := fun _ => some [2, 1, 0, 6, 3, 17]
  buildIdentity := fun _ => some [2, 1, 0, 5, 1]
  buildNotify := fun _ => some [2, 1, 0, 5, 2]
  setWepKey := true

/-- What the lower layers set: the port is enabled, and they ask for a restart or hand over a
packet. -/
def leapVars (restart : Bool) (req : Option Bytes) : EapolSm ℕ :=
  { init ℕ leapConf with
    portEnabled := true
    eapRestart := restart
    eapReq := req.isSome
    eapReqData := req
    idleWhile := 60 }

/-- A restart, the challenge, and the Success packet in the middle of the authentication, until it
has been parsed. -/
def leapOps : List (PeerOp ℕ) :=
  [.lower (leapVars true none)] ++ List.replicate 2 (.step leapWorld) ++
    [.lower (leapVars false (some [1, 1, 0, 5, 17]))] ++ List.replicate 5 (.step leapWorld) ++
    [.getEapRespData, .lower (leapVars false (some [3, 1, 0, 4])), .step leapWorld]

/-- What follows: LEAP handles the Success packet, and another one ends the conversation. -/
def leapEnd : List (PeerOp ℕ) :=
  List.replicate 3 (.step leapWorld) ++
    [.lower (leapVars false (some [3, 1, 0, 4]))] ++ List.replicate 2 (.step leapWorld)

instance {π : Type} (s : Watched π) : ∀ op : PeerOp π, Decidable (NoTypeNone s op)
  | .step _ => inferInstanceAs (Decidable (¬ _))
  | .lower _ | .getEapRespData | .abort | .invalidateCachedSession | .set _ _ _ => .isTrue trivial

theorem along_proper_leap :
    Along (watch leapCrypto) (Proper leapCrypto) (watchInit ℕ leapConf) (leapOps ++ leapEnd) ∧
      (run (watch leapCrypto) (watchInit ℕ leapConf) (leapOps ++ leapEnd)).sm.eap.eapState =
        .success :=
  ⟨along_proper leapCrypto leapConf _ (by decide +kernel), by decide +kernel⟩

/-- The method is called for requests of the selected type only. -/
def CallsForRequests (crypto : EapolCrypto) {π : Type} (s : Watched π) : PeerOp π → Prop
  | .step w => EntersState .method s.sm (eapStep crypto w s.sm) → s.sm.eap.m.isSome = true →
      s.sm.eap.rxReq = true ∧ s.sm.eap.reqMethod = s.sm.eap.selectedMethod
  | _ => True

theorem leap_called_for_success :
    ¬ Along (watch leapCrypto) (CallsForRequests leapCrypto) (watchInit ℕ leapConf)
      (leapOps ++ [.step leapWorld]) := by
  intro h
  obtain ⟨hstep, -⟩ := (Along.append.mp h).2
  have henters : EntersState .method (run (watch leapCrypto) (watchInit ℕ leapConf) leapOps).sm
      (eapStep leapCrypto leapWorld (run (watch leapCrypto) (watchInit ℕ leapConf) leapOps).sm) :=
    ⟨by decide +kernel, by decide +kernel⟩
  obtain ⟨hreq, -⟩ := hstep henters (by decide +kernel)
  exact absurd hreq (by decide +kernel)

end Leap

end Hostapd.EapolSupp
