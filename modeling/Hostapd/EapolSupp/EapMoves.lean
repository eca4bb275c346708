import Hostapd.EapolSupp.EapPeer

/-!
# The 802.1X supplicant: what one step of the EAP machine does

* **`eapStep_move`**: a step of the EAP machine keeps what the other machines own (`EapKeeps`) and
  does one of the things that `EapMove` lists. It succeeds only where a method has decided for
  success, and leaves a settled state only when the idle time is over or the port comes up.
-/

namespace Hostapd.EapolSupp

open Hostapd.Lib

section Moves

variable {π : Type}

structure EapKeeps (p q : EapolSm π) : Prop where
  forceDisabled : q.eap.forceDisabled = p.eap.forceDisabled
  portEnabled : q.portEnabled = p.portEnabled
  initialise : q.initialise = p.initialise
  suppAbort : q.suppAbort = p.suppAbort
  suppStart : q.suppStart = p.suppStart
  beState : q.beState = p.beState
  paeState : q.paeState = p.paeState
  keyRxState : q.keyRxState = p.keyRxState
  rxKey : q.rxKey = p.rxKey
  altAccept : q.altAccept = p.altAccept
  portControl : q.portControl = p.portControl
  sPortMode : q.sPortMode = p.sPortMode

/-- LEAP or PEAP has finished a method that has decided for success. -/
def methodDone (eap : EapSm π) : Bool :=
  ((eap.selectedMethod = typeLeap && eap.leapDone) ||
    (eap.selectedMethod = typePeap && eap.peapDone)) &&
  eap.decision ≠ .fail && eap.methodState = .done

/-- The EAP machine waits in its state for something from outside. -/
def Settled (sm : EapolSm π) : Prop :=
  sm.eap.eapState = .success ∨ sm.eap.eapState = .failure ∨ sm.eap.eapState = .disabled ∨
    (sm.eap.eapState = .idle ∧ sm.eapReq = false ∧ methodDone sm.eap = false)

/-- The idle time of a conversation that succeeds without a Success packet is over. -/
def idleSuccess (sm : EapolSm π) : Bool :=
  sm.eap.eapState = .idle && sm.idleWhile = 0 && sm.eap.decision = .uncondSucc

/-- What a step of the EAP machine does: a local transition begins in a state that is not settled,
but for the end of the idle time and the end of the DISABLED state. -/
inductive EapMove (p q : EapolSm π) : Prop
  | initialised (hnotes : q.notes = .eapInitialise :: p.notes)
      (hstate : q.eap.eapState = .initialise) (hdecision : q.eap.decision = .fail)
      (hsuccess : q.eapSuccess = false) (hfail : q.eapFail = false) (hrestart : q.eapRestart = false)
      (hrounds : q.eap.numRounds = 0) (hup : p.portEnabled = true)
      (hchanged : q.eap.changed = true ∨ (p.eapRestart = true ∧ p.eap.eapState = .initialise))
  | disabled (hnotes : q.notes = p.notes) (hstate : q.eap.eapState = .disabled)
      (hdecision : q.eap.decision = p.eap.decision) (hsuccess : q.eapSuccess = p.eapSuccess)
      (hrestart : q.eapRestart = p.eapRestart) (hrounds : q.eap.numRounds = 0)
      (hcause : ¬ (p.eapRestart = true ∧ p.portEnabled = true))
  | failed (hnotes : q.notes = p.notes) (hstate : q.eap.eapState = .failure)
      (hdecision : q.eap.decision = p.eap.decision) (hsuccess : q.eapSuccess = p.eapSuccess)
      (hrestart : q.eapRestart = p.eapRestart)
      (hup : p.portEnabled = true ∧ p.eapRestart = false)
  | succeeded (hnotes : q.notes = p.notes) (hstate : q.eap.eapState = .success)
      (hdecision : q.eap.decision = p.eap.decision) (hfail : q.eapFail = p.eapFail)
      (hrestart : q.eapRestart = p.eapRestart) (hrounds : q.eap.numRounds ≤ maxAuthRounds)
      (hup : p.portEnabled = true ∧ p.eapRestart = false) (hdecided : p.eap.decision ≠ .fail)
      (hcause : ¬ Settled p ∨ idleSuccess p = true)
  | decided (d : EapDecision) (hnotes : q.notes = .method d :: p.notes)
      (hstate : q.eap.eapState = .method) (hdecision : q.eap.decision = d)
      (hsuccess : q.eapSuccess = p.eapSuccess) (hfail : q.eapFail = p.eapFail)
      (hrestart : q.eapRestart = p.eapRestart) (hrounds : q.eap.numRounds ≤ maxAuthRounds)
      (hup : p.portEnabled = true ∧ p.eapRestart = false) (hcause : ¬ Settled p)
      (hchanged : q.eap.changed = true)
  | moved (hnotes : q.notes = p.notes) (hdecision : q.eap.decision = p.eap.decision)
      (hsuccess : q.eapSuccess = p.eapSuccess) (hfail : q.eapFail = p.eapFail)
      (hrestart : q.eapRestart = p.eapRestart)
      (hrounds : q.eap.numRounds ≤ maxAuthRounds ∨
        (q.eap.numRounds = maxAuthRounds + 1 ∧ q.eap.eapState = .received))
      (hup : p.portEnabled = true ∧ p.eapRestart = false) (hcause : ¬ Settled p)
      (hchanged : q.eap.changed = true)
  | stayed (heq : q = p) (hup : p.portEnabled = true ∧ p.eapRestart = false)
      (hcause : (Settled p ∧ (p.eap.eapState = .idle → p.idleWhile ≠ 0)) ∨
        maxAuthRounds + 1 < p.eap.numRounds)

structure SameCore (e e' : EapSm π) : Prop where
  eapState : e'.eapState = e.eapState
  decision : e'.decision = e.decision
  numRounds : e'.numRounds = e.numRounds
  forceDisabled : e'.forceDisabled = e.forceDisabled
  changed : e'.changed = e.changed

theorem SameCore.refl (e : EapSm π) : SameCore e e := ⟨rfl, rfl, rfl, rfl, rfl⟩

theorem SameCore.trans {e e' e'' : EapSm π} (h : SameCore e e') (h' : SameCore e' e'') :
    SameCore e e'' :=
  ⟨h'.1.trans h.1, h'.2.trans h.2, h'.3.trans h.3, h'.4.trans h.4, h'.5.trans h.5⟩

theorem deinitPrevMethod_core (e : EapSm π) : SameCore e (deinitPrevMethod e) := by
  unfold deinitPrevMethod
  split_ifs <;> exact ⟨rfl, rfl, rfl, rfl, rfl⟩

theorem keepOrDeinit_core (e : EapSm π) : SameCore e (keepOrDeinit e) := by
  unfold keepOrDeinit
  split_ifs
  · split <;> exact ⟨rfl, rfl, rfl, rfl, rfl⟩
  · exact deinitPrevMethod_core e

theorem parseEapReq_core (crypto : EapolCrypto) (e : EapSm π) (req : Option Bytes) :
    SameCore e (parseEapReq crypto e req) := by
  unfold parseEapReq
  cases req with
  | none => exact ⟨rfl, rfl, rfl, rfl, rfl⟩
  | some req =>
    dsimp only
    split_ifs <;> exact ⟨rfl, rfl, rfl, rfl, rfl⟩

section Worlds

variable (w : World π)

theorem initMethod_core (m : EapMethod π) (reinit : Bool) (e : EapSm π) :
    SameCore e (initMethod w m reinit e) := by
  unfold initMethod
  dsimp only
  split
  · exact ⟨rfl, rfl, rfl, rfl, rfl⟩
  · split_ifs <;> exact ⟨rfl, rfl, rfl, rfl, rfl⟩

theorem getMethod_core (e : EapSm π) : SameCore e (getMethod w e) := by
  have hnak (e : EapSm π) : SameCore e (nak w e) := ⟨rfl, rfl, rfl, rfl, rfl⟩
  have hselect (e : EapSm π) (t : EapType) : SameCore e { e with selectedMethod := t } :=
    ⟨rfl, rfl, rfl, rfl, rfl⟩
  have hdeinit (reinit : Bool) : SameCore e (if reinit then e else deinitPrevMethod e) := by
    split_ifs
    · exact .refl e
    · exact deinitPrevMethod_core e
  unfold getMethod
  dsimp only
  generalize (if e.reqMethod = typeExpanded then e.reqVendorMethod else e.reqMethod) = method
  split
  · generalize decide (e.fastReauth = true ∧
      e.m.any (fun m => m.vendor = e.reqVendor ∧ m.method = method) = true ∧
      hasReauthData e = true) = reinit
    refine (hdeinit reinit).trans ?_
    generalize (if reinit = true then e else deinitPrevMethod e) = e'
    refine (hselect e' e'.reqMethod).trans ?_
    split
    · exact hnak _
    · exact initMethod_core w _ _ _
  · exact hnak e

end Worlds

/-- A state is entered by a local transition that does nothing to the outside of the machine but to
answer. -/
structure Enters (st : EapState) (p q : EapolSm π) : Prop extends EapKeeps p q where
  notes : q.notes = p.notes
  eapState : q.eap.eapState = st
  decision : q.eap.decision = p.eap.decision
  numRounds : q.eap.numRounds = p.eap.numRounds
  changed : q.eap.changed = true
  eapSuccess : q.eapSuccess = p.eapSuccess
  eapFail : q.eapFail = p.eapFail
  eapRestart : q.eapRestart = p.eapRestart

section EapEntries

variable (crypto : EapolCrypto) (w : World π) (p : EapolSm π)

theorem enters_onEap (st : EapState) {f : EapSm π → EapSm π} (hf : ∀ e, SameCore e (f e)) :
    Enters st p ((eapEntry false st p).onEap f) := by
  constructor
  case toEapKeeps => constructor <;> simp [eapEntry, fun e => (hf e).forceDisabled]
  all_goals
    simp [eapEntry, fun e => (hf e).eapState, fun e => (hf e).decision, fun e => (hf e).numRounds,
      fun e => (hf e).changed]

theorem Enters.move {st : EapState} {p q : EapolSm π} (h : Enters st p q)
    (hup : p.portEnabled = true ∧ p.eapRestart = false) (hrounds : p.eap.numRounds ≤ maxAuthRounds)
    (hcause : ¬ Settled p) : EapKeeps p q ∧ EapMove p q :=
  ⟨h.toEapKeeps, .moved h.notes h.decision h.eapSuccess h.eapFail h.eapRestart
    (.inl (h.numRounds.trans_le hrounds)) hup hcause h.changed⟩

theorem enterIdle_enters : Enters .idle p (enterIdle p) :=
  enters_onEap p .idle fun _ => .refl _

theorem enterGetMethod_enters : Enters .getMethod p (enterGetMethod w p) :=
  enters_onEap p .getMethod (getMethod_core w)

theorem enterIdentity_enters : Enters .identity p (enterIdentity w p) :=
  enters_onEap p .identity fun _ => ⟨rfl, rfl, rfl, rfl, rfl⟩

theorem enterNotification_enters : Enters .notification p (enterNotification w p) :=
  enters_onEap p .notification fun _ => ⟨rfl, rfl, rfl, rfl, rfl⟩

theorem enterRetransmit_enters : Enters .retransmit p (enterRetransmit p) :=
  enters_onEap p .retransmit fun _ => ⟨rfl, rfl, rfl, rfl, rfl⟩

theorem enterSendResponse_enters : Enters .sendResponse p (enterSendResponse p) := by
  constructor
  case toEapKeeps => constructor <;> simp [enterSendResponse, eapEntry]
  all_goals simp [enterSendResponse, eapEntry]

theorem enterDiscard_enters : Enters .discard p (enterDiscard p) := by
  constructor
  case toEapKeeps => constructor <;> simp [enterDiscard, eapEntry]
  all_goals simp [enterDiscard, eapEntry]

theorem enterReceived_move (hup : p.portEnabled = true ∧ p.eapRestart = false)
    (hrounds : p.eap.numRounds ≤ maxAuthRounds) (hcause : ¬ Settled p) :
    EapKeeps p (enterReceived crypto p) ∧ EapMove p (enterReceived crypto p) := by
  have h := enters_onEap p .received fun e => parseEapReq_core crypto e p.eapReqData
  have heq : enterReceived crypto p =
      ((eapEntry false .received p).onEap fun e => parseEapReq crypto e p.eapReqData).onEap
        fun e => { e with numRounds := e.numRounds + 1 } := rfl
  rw [heq]
  generalize (eapEntry false .received p).onEap _ = q at h
  refine ⟨?_, .moved ?_ ?_ ?_ ?_ ?_ ?_ hup hcause ?_⟩
  case refine_1 =>
    obtain ⟨⟨h1, h2, h3, h4, h5, h6, h7, h8, h9, h10, h11, h12⟩, -⟩ := h
    exact ⟨h1, h2, h3, h4, h5, h6, h7, h8, h9, h10, h11, h12⟩
  case refine_7 =>
    have hn : q.eap.numRounds = p.eap.numRounds := h.numRounds
    have hst : q.eap.eapState = .received := h.eapState
    simp only [EapolSm.onEap, hn, hst, and_true]
    omega
  all_goals
    simp [h.notes, h.decision, h.eapSuccess, h.eapFail, h.eapRestart, h.changed]

theorem takeKey_core (m : EapMethod π) (priv : π) (e : EapSm π) : SameCore e (takeKey m priv e) := by
  unfold takeKey
  split <;> exact ⟨rfl, rfl, rfl, rfl, rfl⟩

theorem enterMethod_cases : Enters .method p (enterMethod p) ∨
    ∃ (m : EapMethod π) (priv : π) (q : EapolSm π) (ret : MethodRet), Enters .method p q ∧
      enterMethod p = (q.note (.method ret.decision)).onEap fun e => takeKey m priv { e with
        methodState := ret.methodState
        decision := ret.decision
        allowNotifications := ret.allowNotifications } := by
  have hentry : Enters .method p (eapEntry false .method p) :=
    enters_onEap p .method fun _ => .refl _
  unfold enterMethod
  dsimp only
  split
  · split_ifs
    · refine .inl ?_
      exact enters_onEap p .method fun _ => ⟨rfl, rfl, rfl, rfl, rfl⟩
    · refine .inr ⟨_, _, _, _, ?_, rfl⟩
      exact enters_onEap p .method fun _ => ⟨rfl, rfl, rfl, rfl, rfl⟩
  · exact .inl hentry

theorem enterMethod_move (hup : p.portEnabled = true ∧ p.eapRestart = false)
    (hrounds : p.eap.numRounds ≤ maxAuthRounds) (hcause : ¬ Settled p) :
    EapKeeps p (enterMethod p) ∧ EapMove p (enterMethod p) := by
  rcases enterMethod_cases p with h | ⟨m, priv, q, ret, h, heq⟩
  · exact h.move hup hrounds hcause
  rw [heq]
  have hcore (e : EapSm π) := takeKey_core m priv e
  constructor
  · constructor
    case forceDisabled => simp [(hcore _).forceDisabled, h.forceDisabled]
    all_goals
      simp [h.portEnabled, h.initialise, h.suppAbort, h.suppStart, h.beState, h.paeState,
        h.keyRxState, h.rxKey, h.altAccept, h.portControl, h.sPortMode]
  · refine .decided ret.decision ?_ ?_ ?_ ?_ ?_ ?_ ?_ hup hcause ?_
    all_goals
      simp [(hcore _).eapState, (hcore _).decision, (hcore _).numRounds, (hcore _).changed, h.notes,
        h.eapState, h.numRounds, h.changed, h.eapSuccess, h.eapFail, h.eapRestart, hrounds]

theorem enterSuccess_move (hup : p.portEnabled = true ∧ p.eapRestart = false)
    (hrounds : p.eap.numRounds ≤ maxAuthRounds) (hdecided : p.eap.decision ≠ .fail)
    (hcause : ¬ Settled p ∨ idleSuccess p = true) :
    EapKeeps p (enterSuccess p) ∧ EapMove p (enterSuccess p) := by
  constructor
  · constructor <;> simp [enterSuccess, eapEntry, keyAvailable]
  · refine .succeeded ?_ ?_ ?_ ?_ ?_ ?_ hup hdecided hcause
    all_goals simp [enterSuccess, eapEntry, keyAvailable, hrounds]

theorem enterFailure_move (global : Bool) (hup : p.portEnabled = true ∧ p.eapRestart = false) :
    EapKeeps p (enterFailure global p) ∧ EapMove p (enterFailure global p) := by
  constructor
  · constructor <;> simp [enterFailure, eapEntry]
  · refine .failed ?_ ?_ ?_ ?_ ?_ hup
    all_goals simp [enterFailure, eapEntry]

theorem enterDisabled_move (hcause : ¬ (p.eapRestart = true ∧ p.portEnabled = true)) :
    EapKeeps p (enterDisabled p) ∧ EapMove p (enterDisabled p) := by
  constructor
  · constructor <;> simp [enterDisabled, eapEntry]
  · refine .disabled ?_ ?_ ?_ ?_ ?_ ?_ hcause
    all_goals simp [enterDisabled, eapEntry]

theorem enterInitialise_move (global : Bool) (hup : p.portEnabled = true)
    (hcause : p.eapRestart = true ∨ p.eap.eapState ≠ .initialise) :
    EapKeeps p (enterInitialise global p) ∧ EapMove p (enterInitialise global p) := by
  have hcore := keepOrDeinit_core (eapEntry global .initialise p).eap
  have hchanged : (enterInitialise global p).eap.changed = true ∨
      (p.eapRestart = true ∧ p.eap.eapState = .initialise) := by
    by_cases hst : p.eap.eapState = .initialise
    · exact .inr ⟨hcause.resolve_right (not_not.mpr hst), hst⟩
    · exact .inl (hcore.changed.trans (by simp [eapEntry, hst]))
  constructor
  · constructor
    case forceDisabled => exact hcore.forceDisabled
    all_goals simp [enterInitialise, eapEntry]
  · refine .initialised ?_ hcore.eapState ?_ ?_ ?_ ?_ ?_ hup hchanged
    all_goals simp [enterInitialise, eapEntry]

end EapEntries

/-! ## The step -/

section Step

variable (crypto : EapolCrypto) (w : World π) {p : EapolSm π}
  (hup : p.portEnabled = true ∧ p.eapRestart = false) (hrounds : p.eap.numRounds ≤ maxAuthRounds)
include hup hrounds

theorem stepIdle_move (hst : p.eap.eapState = .idle) (halt : p.altAccept = false) :
    EapKeeps p (stepIdle crypto p) ∧ EapMove p (stepIdle crypto p) := by
  unfold stepIdle
  dsimp only
  by_cases hreq : p.eapReq = true
  · rw [if_pos hreq]
    exact enterReceived_move crypto p hup hrounds (by simp [Settled, hst, hreq])
  rw [if_neg hreq]
  split_ifs with h1 h2 h3 h4
  · have hidle : p.idleWhile = 0 ∧ p.eap.decision = .uncondSucc := by
      simpa [halt] using h1
    exact enterSuccess_move p hup hrounds (by simp [hidle.2]) (.inr (by simp [idleSuccess, hst, hidle]))
  · exact enterFailure_move p false hup
  · exact enterSuccess_move p hup hrounds h3.2.2.1
      (.inl (by simp [Settled, hst, methodDone, h3.1, h3.2.1, h3.2.2.1, h3.2.2.2]))
  · exact enterSuccess_move p hup hrounds h4.2.2.1
      (.inl (by simp [Settled, hst, methodDone, h4.1, h4.2.1, h4.2.2.1, h4.2.2.2]))
  · -- the idle time is not over: it would end in success or in failure
    have hidle : p.idleWhile ≠ 0 := fun h0 => by
      by_cases hd : p.eap.decision = .uncondSucc
      · exact h1 (.inr ⟨h0, hd⟩)
      · exact h2 (.inr (.inl ⟨h0, hd⟩))
    have hdone : methodDone p.eap = false := Bool.eq_false_iff.mpr fun h => by
      simp only [methodDone, Bool.and_eq_true, Bool.or_eq_true, decide_eq_true_eq] at h
      obtain ⟨⟨hsel | hsel, hd⟩, hm⟩ := h
      · exact h3 ⟨hsel.1, hsel.2, hd, hm⟩
      · exact h4 ⟨hsel.1, hsel.2, hd, hm⟩
    exact ⟨⟨rfl, rfl, rfl, rfl, rfl, rfl, rfl, rfl, rfl, rfl, rfl, rfl⟩, .stayed rfl hup
      (.inl ⟨.inr (.inr (.inr ⟨hst, by simpa using hreq, hdone⟩)), fun _ => hidle⟩)⟩

theorem stepReceived_move (hst : p.eap.eapState = .received) :
    EapKeeps p (stepReceived w p) ∧ EapMove p (stepReceived w p) := by
  have hcause : ¬ Settled p := by simp [Settled, hst]
  unfold stepReceived
  dsimp only
  split_ifs with h1
  · exact enterSuccess_move p hup hrounds h1.2.1 (.inl hcause)
  · exact enterFailure_move p false hup
  · exact (enterRetransmit_enters p).move hup hrounds hcause
  · exact (enterNotification_enters w p).move hup hrounds hcause
  · exact (enterIdentity_enters w p).move hup hrounds hcause
  · exact (enterGetMethod_enters w p).move hup hrounds hcause
  · exact enterMethod_move p hup hrounds hcause
  · exact enterMethod_move p hup hrounds hcause
  · exact (enterDiscard_enters p).move hup hrounds hcause

theorem stepLocal_move (halt : p.altAccept = false) (hable : p.eap.forceDisabled = false) :
    EapKeeps p (stepLocal crypto w p) ∧ EapMove p (stepLocal crypto w p) := by
  have hstay (h : Settled p) (hne : p.eap.eapState ≠ .idle) : EapKeeps p p ∧ EapMove p p :=
    ⟨⟨rfl, rfl, rfl, rfl, rfl, rfl, rfl, rfl, rfl, rfl, rfl, rfl⟩,
      .stayed rfl hup (.inl ⟨h, fun hi => absurd hi hne⟩)⟩
  unfold stepLocal
  cases hst : p.eap.eapState with
  | initialise | sendResponse | discard =>
    exact (enterIdle_enters p).move hup hrounds (by simp [Settled, hst])
  | disabled =>
    dsimp only
    rw [if_pos ⟨hup.1, by simp [hable]⟩]
    exact enterInitialise_move p false hup.1 (.inr (by simp [hst]))
  | idle => exact stepIdle_move crypto hup hrounds hst halt
  | received => exact stepReceived_move w hup hrounds hst
  | getMethod =>
    have hcause : ¬ Settled p := by simp [Settled, hst]
    dsimp only
    split_ifs
    · exact enterMethod_move p hup hrounds hcause
    · exact (enterSendResponse_enters p).move hup hrounds hcause
  | method =>
    have hcause : ¬ Settled p := by simp [Settled, hst]
    dsimp only
    split_ifs
    · exact (enterDiscard_enters p).move hup hrounds hcause
    · exact (enterSendResponse_enters p).move hup hrounds hcause
  | identity | notification | retransmit =>
    exact (enterSendResponse_enters p).move hup hrounds (by simp [Settled, hst])
  | success => exact hstay (.inl hst) (by simp [hst])
  | failure => exact hstay (.inr (.inl hst)) (by simp [hst])

omit hup hrounds

theorem eapStep_move (halt : p.altAccept = false) :
    EapKeeps p (eapStep crypto w p) ∧ EapMove p (eapStep crypto w p) := by
  unfold eapStep
  by_cases hrestart : p.eapRestart = true ∧ p.portEnabled = true
  · rw [if_pos hrestart]
    exact enterInitialise_move p true hrestart.2 (.inl hrestart.1)
  rw [if_neg hrestart]
  by_cases hdown : ¬ p.portEnabled = true ∨ p.eap.forceDisabled = true
  · rw [if_pos hdown]
    exact enterDisabled_move p hrestart
  rw [if_neg hdown]
  obtain ⟨hport, hable⟩ : p.portEnabled = true ∧ p.eap.forceDisabled = false := by
    simpa using hdown
  have hup : p.portEnabled = true ∧ p.eapRestart = false :=
    ⟨hport, by simpa [hport] using hrestart⟩
  by_cases hrounds : maxAuthRounds < p.eap.numRounds
  · rw [if_pos hrounds]
    split_ifs with hfirst
    · constructor
      · constructor <;> simp [enterFailure, eapEntry]
      · refine .failed ?_ ?_ ?_ ?_ ?_ hup
        all_goals simp [enterFailure, eapEntry]
    · exact ⟨⟨rfl, rfl, rfl, rfl, rfl, rfl, rfl, rfl, rfl, rfl, rfl, rfl⟩,
        .stayed rfl hup (.inr (by omega))⟩
  · rw [if_neg hrounds]
    exact stepLocal_move crypto w hup (not_lt.mp hrounds) halt hable

end Step

end Moves

end Hostapd.EapolSupp
