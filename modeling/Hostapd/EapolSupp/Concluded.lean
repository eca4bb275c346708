import Hostapd.EapolSupp.ConversationRuns
import Hostapd.EapolSupp.EapMoves

/-!
# The 802.1X supplicant: what becomes of a packet that is handed over

The backend machine hands a packet to the EAP machine by setting `eapReq` in REQUEST, and has no way
on but by `eapResp` and `eapNoResp`.

* **`EapLoop`** is the loop of `eap_peer_sm_step` inside `eapol_sm_step`.
* **`Concluded`**: the packet is done with.
* **`Handled`** is the condition on the state and on what methods and builders return.
* **`Leads`** says what the loop comes to. `leads_again` and `leads_ends` are its rules, there is one
  lemma for each state of the machine, and **`leads_handled`** is about the packet.
-/

namespace Hostapd.EapolSupp

open Hostapd.Lib

section Concluded

variable {π : Type} {crypto : EapolCrypto} {w : World π} {p q : EapolSm π}

/-- The rest of the loop of `eap_peer_sm_step` in one turn of `eapol_sm_step`: it goes round while
the machine has changed its state. -/
inductive EapLoop (crypto : EapolCrypto) (w : World π) : EapolSm π → EapolSm π → Prop
  | again {p q : EapolSm π} {i : ℕ} {res : Bool} (hpc : p.pc = .eap i res)
      (hgo : (go crypto w p).pc = .eap i true) (hrest : EapLoop crypto w (go crypto w p) q) :
      EapLoop crypto w p q
  | ends {p : EapolSm π} {i : ℕ} {res : Bool} (hpc : p.pc = .eap i res)
      (hgo : ∀ res', (go crypto w p).pc ≠ .eap i res') : EapLoop crypto w p (go crypto w p)

/-- Exactly one of the two answers is given, and a response is there. -/
def ExactlyOne (eapResp : Bool) (resp : Option Bytes) (eapNoResp : Bool) : Prop :=
  (eapResp = true ∧ resp.isSome = true ∧ eapNoResp = false) ∨ (eapResp = false ∧ eapNoResp = true)

instance (eapResp : Bool) (resp : Option Bytes) (eapNoResp : Bool) :
    Decidable (ExactlyOne eapResp resp eapNoResp) := inferInstanceAs (Decidable (_ ∨ _))

def Concluded (sm : EapolSm π) : Prop :=
  sm.eapReq = false ∧ ExactlyOne sm.eapResp sm.eap.eapRespData sm.eapNoResp

/-! ## The condition -/

/-- In IDLE without a packet the machine goes on to SUCCESS or FAILURE. -/
def idleEnds (sm : EapolSm π) (idleWhile : ℕ) (methodState : EapMethodState)
    (decision : EapDecision) (flags : DoneFlags) : Bool :=
  (sm.altAccept ∧ decision ≠ .fail) ∨ (idleWhile = 0 ∧ decision = .uncondSucc) ∨
  (sm.altReject ∨ (idleWhile = 0 ∧ decision ≠ .uncondSucc) ∨
    (sm.altAccept ∧ methodState ≠ .cont ∧ decision = .fail)) ∨
  (sm.eap.selectedMethod = typeLeap ∧ flags.leapDone ∧ decision ≠ .fail ∧ methodState = .done) ∨
  (sm.eap.selectedMethod = typePeap ∧ flags.peapDone ∧ decision ≠ .fail ∧ methodState = .done)

/-- The packet is answered with `resp`, if that is there. The machine sets `eapNoResp` too if it
then ends the conversation from IDLE. -/
def SentWell (sm : EapolSm π) (methodState : EapMethodState) (decision : EapDecision)
    (flags : DoneFlags) (resp : Option Bytes) : Prop :=
  ExactlyOne (sm.eapResp || resp.isSome) resp
    (sm.eapNoResp || idleEnds sm sm.eap.clientTimeout methodState decision flags)

instance (sm : EapolSm π) (methodState : EapMethodState) (decision : EapDecision)
    (flags : DoneFlags) (resp : Option Bytes) :
    Decidable (SentWell sm methodState decision flags resp) :=
  inferInstanceAs (Decidable (ExactlyOne _ _ _))

def NotSent (sm : EapolSm π) : Prop := sm.eapResp = false

instance (sm : EapolSm π) : Decidable (NotSent sm) := inferInstanceAs (Decidable (_ = _))

/-- The response `resp` is built without a method. -/
def BuiltWell (sm : EapolSm π) (resp : Option Bytes) : Prop :=
  SentWell sm sm.eap.methodState sm.eap.decision sm.eap.toDoneFlags resp

instance (sm : EapolSm π) (resp : Option Bytes) : Decidable (BuiltWell sm resp) :=
  inferInstanceAs (Decidable (SentWell _ _ _ _ _))

/-- What METHOD leaves: the response, what the method returns, and the variables that LEAP and PEAP
write. -/
def processed (sm : EapolSm π) : Option Bytes × MethodRet × DoneFlags :=
  let ret : MethodRet :=
    ⟨sm.eap.ignore, sm.eap.methodState, sm.eap.decision, sm.eap.allowNotifications⟩
  match sm.eap.m, sm.eap.eapMethodPriv with
  | some m, some priv =>
    let (resp, ret, _, flags) := m.process priv sm.eap.toDoneFlags ret sm.eapReqData
    (resp, ret, flags)
  -- no method is selected
  | _, _ => (sm.eap.eapRespData, ret, sm.eap.toDoneFlags)

/-- METHOD: the packet is ignored, or answered with what the method returns. -/
def ProcessWell (sm : EapolSm π) : Prop :=
  if (processed sm).2.1.ignore then NotSent sm
  else SentWell sm (processed sm).2.1.methodState (processed sm).2.1.decision (processed sm).2.2
    (processed sm).1

instance (sm : EapolSm π) : Decidable (ProcessWell sm) := by
  delta ProcessWell
  infer_instance

/-- GET_METHOD, which has left `sm`: the method that it has selected handles the packet, or what it
has built is sent. -/
def GetMethodWell (sm : EapolSm π) : Prop :=
  if sm.eap.selectedMethod = sm.eap.reqMethod then ProcessWell sm
  else BuiltWell sm sm.eap.eapRespData

instance (sm : EapolSm π) : Decidable (GetMethodWell sm) := by
  delta GetMethodWell
  infer_instance

/-- The packet is dispatched as in `eap_peer_sm_step_received`. -/
def DispatchWell (w : World π) (sm : EapolSm π) : Prop :=
  if sm.eap.rxSuccess ∧ sm.eap.decision ≠ .fail ∧ idAccepted sm.eap then NotSent sm
  else if sm.eap.methodState ≠ .cont ∧
      ((sm.eap.rxFailure ∧ sm.eap.decision ≠ .uncondSucc) ∨
        (sm.eap.rxSuccess ∧ sm.eap.decision = .fail ∧
          (sm.eap.selectedMethod ≠ typeLeap ∨ sm.eap.methodState ≠ .mayCont))) ∧
      idAccepted sm.eap then NotSent sm
  else if sm.eap.rxReq ∧ reqIsDuplicate sm.eap then BuiltWell sm sm.eap.lastRespData
  else if sm.eap.rxReq ∧ ¬ reqIsDuplicate sm.eap ∧ sm.eap.reqMethod = typeNotification ∧
      sm.eap.allowNotifications then
    BuiltWell sm (w.buildNotify sm.eap.reqId)
  else if sm.eap.rxReq ∧ ¬ reqIsDuplicate sm.eap ∧ sm.eap.selectedMethod = typeNone ∧
      sm.eap.reqMethod = typeIdentity then
    BuiltWell sm (w.buildIdentity sm.eap.reqId)
  else if sm.eap.rxReq ∧ ¬ reqIsDuplicate sm.eap ∧ sm.eap.selectedMethod = typeNone ∧
      sm.eap.reqMethod ≠ typeIdentity ∧ sm.eap.reqMethod ≠ typeNotification then
    GetMethodWell (enterGetMethod w sm)
  else if sm.eap.rxReq ∧ ¬ reqIsDuplicate sm.eap ∧ sm.eap.reqMethod = sm.eap.selectedMethod ∧
      sm.eap.methodState ≠ .done then
    ProcessWell sm
  else if sm.eap.selectedMethod = typeLeap ∧ (sm.eap.rxSuccess ∨ sm.eap.rxResp) then ProcessWell sm
  else NotSent sm

instance (sm : EapolSm π) : Decidable (DispatchWell w sm) := by
  delta DispatchWell
  infer_instance

/-- RECEIVED: a conversation that takes too long fails. -/
def ReceivedWell (w : World π) (sm : EapolSm π) : Prop :=
  if maxAuthRounds < sm.eap.numRounds then NotSent sm else DispatchWell w sm

instance (sm : EapolSm π) : Decidable (ReceivedWell w sm) := by
  delta ReceivedWell
  infer_instance

/-- The machine waits for a packet, or for the end of what it is in. -/
def Between (eap : EapSm π) : Prop :=
  eap.eapState = .idle ∨ eap.eapState = .success ∨ eap.eapState = .failure ∨
    eap.eapState = .disabled

/-- The state that the packet finds the machine in: a restart, or the end of DISABLED, comes
first. -/
def begun (sm : EapolSm π) : EapolSm π :=
  if sm.eapRestart ∧ sm.portEnabled ∨ sm.eap.eapState = .disabled then
    enterIdle (enterInitialise true sm)
  else sm

/-- The packet is handled: the machine is enabled and in IDLE, or begins a conversation, and there
is an answer to what the packet asks for. -/
def Handled (crypto : EapolCrypto) (w : World π) (sm : EapolSm π) : Prop :=
  sm.portEnabled = true ∧ sm.eap.forceDisabled = false ∧ (begun sm).eap.eapState = .idle ∧
    ReceivedWell w (enterReceived crypto (begun sm))

instance (sm : EapolSm π) : Decidable (Handled crypto w sm) := inferInstanceAs (Decidable (_ ∧ _))

/-! ## The loop -/

/-- The loop ends, and the packet is then concluded exactly when `c` holds; if it is, the EAPOL
machines are to be run again. -/
def Leads (crypto : EapolCrypto) (w : World π) (p : EapolSm π) (c : Prop) : Prop :=
  (∃ q, EapLoop crypto w p q) ∧
    ∀ q, EapLoop crypto w p q → (Concluded q ↔ c) ∧ (c → q.pc = .rest → q.changed = true)

/-- What `eap_peer_sm_step` does before each step. -/
def clearChanged (p : EapolSm π) : EapolSm π := p.onEap fun eap => { eap with changed := false }

/-- The machine has changed its state: once more round the loop. -/
def round (i : ℕ) (p : EapolSm π) : EapolSm π := { p with pc := .eap i true }

section Rules

variable {i : ℕ} {res : Bool} {r : EapolSm π} {c c' : Prop}

theorem Leads.congr (h : Leads crypto w p c) (hc : c ↔ c') : Leads crypto w p c' := by
  rwa [← propext hc]

theorem go_again (hpc : p.pc = .eap i res) (hr : eapStep crypto w (clearChanged p) = r)
    (hchanged : r.eap.changed = true) : go crypto w p = round i r := by
  unfold clearChanged at hr
  unfold go
  rw [hpc]
  dsimp only
  rw [hr, if_pos hchanged]
  rfl

theorem leads_again (hpc : p.pc = .eap i res) (hr : eapStep crypto w (clearChanged p) = r)
    (hchanged : r.eap.changed = true) (h : Leads crypto w (round i r) c) :
    Leads crypto w p c := by
  have hgo := go_again hpc hr hchanged
  obtain ⟨⟨q, hq⟩, hall⟩ := h
  refine ⟨⟨q, .again hpc (by rw [hgo]; rfl) (hgo ▸ hq)⟩, ?_⟩
  intro q' hq'
  cases hq' with
  | again _ _ hrest => exact hall q' (hgo ▸ hrest)
  | ends hpc' hend =>
    have hi : (go crypto w p).pc = .eap i true := by
      rw [hgo]
      rfl
    rw [hpc] at hpc'
    cases hpc'
    exact absurd hi (hend true)

theorem go_ended (hpc : p.pc = .eap i res) (hr : eapStep crypto w (clearChanged p) = r)
    (hchanged : r.eap.changed = false) :
    (go crypto w p).eap = r.eap ∧
      ((go crypto w p).eapReq, (go crypto w p).eapResp, (go crypto w p).eapNoResp,
        (go crypto w p).beState) = (r.eapReq, r.eapResp, r.eapNoResp, r.beState) ∧
      (((go crypto w p).pc = .rest ∧ (res = true → (go crypto w p).changed = true)) ∨
        ∃ j, (go crypto w p).pc = .turn j) := by
  have hgo : go crypto w p =
      if (r.changed || res) = true ∧ i + 1 < maxTurns then
        { r with changed := r.changed || res, pc := .turn (i + 1) }
      else endStep { r with changed := r.changed || res } := by
    unfold clearChanged at hr
    unfold go
    rw [hpc]
    dsimp only
    rw [hr, if_neg (by simp [hchanged])]
  rw [hgo]
  split_ifs with hagain
  · exact ⟨rfl, rfl, .inr ⟨_, rfl⟩⟩
  · unfold endStep
    dsimp only
    split
    all_goals exact ⟨rfl, rfl, .inl ⟨rfl, fun h => by simp [h]⟩⟩

theorem leads_ends (hpc : p.pc = .eap i res) (hr : eapStep crypto w (clearChanged p) = r)
    (hchanged : r.eap.changed = false) (hc : Concluded r ↔ c) (hres : c → res = true) :
    Leads crypto w p c := by
  obtain ⟨heap, hflags, hplace⟩ := go_ended hpc hr hchanged
  have hend (j : ℕ) (res' : Bool) : (go crypto w p).pc ≠ .eap j res' := by
    rcases hplace with ⟨h, -⟩ | ⟨_, h⟩ <;> rw [h] <;> exact Pc.noConfusion
  have hconc : Concluded (go crypto w p) ↔ Concluded r := by
    simp only [Prod.mk.injEq] at hflags
    obtain ⟨hreq, hresp, hno, -⟩ := hflags
    unfold Concluded
    rw [heap, hreq, hresp, hno]
  refine ⟨⟨_, .ends hpc (hend i)⟩, ?_⟩
  intro q hq
  cases hq with
  | again _ hgo _ => exact absurd hgo (hend _ _)
  | ends _ _ =>
    refine ⟨hconc.trans hc, fun h hrest => ?_⟩
    rcases hplace with ⟨-, hpending⟩ | ⟨_, hturn⟩
    · exact hpending (hres h)
    · exact absurd (hrest.symm.trans hturn) Pc.noConfusion

end Rules

/-! ## What the states come to -/

section States

variable {i : ℕ} {c : Prop}

theorem eapStep_cleared (hl : localStep p = true) :
    eapStep crypto w (clearChanged p) = stepLocal crypto w (clearChanged p) :=
  eapStep_of_local (p := clearChanged p) hl

theorem leads_stay (hpc : p.pc = .eap i true)
    (hstay : eapStep crypto w (clearChanged p) = clearChanged p) :
    Leads crypto w p (Concluded p) :=
  leads_ends hpc hstay rfl Iff.rfl fun _ => rfl

theorem leads_over (hpc : p.pc = .eap i true) (hl : localStep p = true)
    (hst : p.eap.eapState = .success ∨ p.eap.eapState = .failure) :
    Leads crypto w p (Concluded p) := by
  refine leads_stay hpc ?_
  rw [eapStep_cleared hl]
  have hst' : (clearChanged p).eap.eapState = p.eap.eapState := rfl
  unfold stepLocal
  rcases hst with hst | hst
  · rw [hst', hst]
  · rw [hst', hst]

theorem localStep_frame (hl : localStep p = true)
    (heq : (q.portEnabled, q.eapRestart, q.eap.forceDisabled, q.eap.numRounds) =
      (p.portEnabled, p.eapRestart, p.eap.forceDisabled, p.eap.numRounds)) :
    localStep q = true := by
  simp only [Prod.mk.injEq] at heq
  obtain ⟨h1, h2, h3, h4⟩ := heq
  unfold localStep at *
  rw [h1, h2, h3, h4]
  exact hl

theorem leads_final {r : EapolSm π} (hpc : p.pc = .eap i true) (hl : localStep p = true)
    (hr : stepLocal crypto w (clearChanged p) = r) (hlr : localStep r = true)
    (hst : r.eap.changed = true ∧ (r.eap.eapState = .success ∨ r.eap.eapState = .failure))
    (hflags : r.eapReq = false ∧ r.eapResp = p.eapResp ∧
      r.eap.eapRespData = p.eap.eapRespData ∧ r.eapNoResp = true) :
    Leads crypto w p (ExactlyOne p.eapResp p.eap.eapRespData true) := by
  obtain ⟨hreq, hresp, hdata, hno⟩ := hflags
  have hover : Leads crypto w (round i r) (Concluded (round i r)) :=
    leads_over rfl (localStep_frame hlr rfl) hst.2
  refine leads_again hpc ((eapStep_cleared hl).trans hr) hst.1 (hover.congr ?_)
  unfold Concluded round
  dsimp only
  rw [hreq, hresp, hdata, hno]
  exact and_iff_right rfl

theorem leads_success (hpc : p.pc = .eap i true) (hl : localStep p = true)
    (hstep : stepLocal crypto w (clearChanged p) = enterSuccess (clearChanged p)) :
    Leads crypto w p (ExactlyOne p.eapResp p.eap.eapRespData true) := by
  refine leads_final hpc hl hstep (localStep_frame hl ?_) ?_ ?_
  all_goals simp [enterSuccess, eapEntry, keyAvailable, clearChanged]

theorem leads_failure (hpc : p.pc = .eap i true) (hl : localStep p = true)
    (hstep : stepLocal crypto w (clearChanged p) = enterFailure false (clearChanged p)) :
    Leads crypto w p (ExactlyOne p.eapResp p.eap.eapRespData true) := by
  refine leads_final hpc hl hstep (localStep_frame hl ?_) ?_ ?_
  all_goals simp [enterFailure, eapEntry, clearChanged]

/-- What a machine in IDLE leaves, when no packet is there. -/
def IdleWell (sm : EapolSm π) : Prop :=
  ExactlyOne sm.eapResp sm.eap.eapRespData (sm.eapNoResp ||
    idleEnds sm sm.idleWhile sm.eap.methodState sm.eap.decision sm.eap.toDoneFlags)

theorem leads_idle (hpc : p.pc = .eap i true) (hl : localStep p = true)
    (hst : p.eap.eapState = .idle) (hreq : p.eapReq = false) :
    Leads crypto w p (IdleWell p) := by
  have hst' : (clearChanged p).eap.eapState = .idle := hst
  have hreq' : (clearChanged p).eapReq = false := hreq
  have hlocal : stepLocal crypto w (clearChanged p) = stepIdle crypto (clearChanged p) := by
    unfold stepLocal
    rw [hst']
  have hends (h : idleEnds p p.idleWhile p.eap.methodState p.eap.decision p.eap.toDoneFlags = true) :
      ExactlyOne p.eapResp p.eap.eapRespData true ↔ IdleWell p := by
    unfold IdleWell
    rw [h, Bool.or_true]
  unfold stepIdle at hlocal
  simp only [hreq', Bool.false_eq_true, if_false] at hlocal
  unfold idleEnds at hends
  simp only [decide_eq_true_eq] at hends
  split_ifs at hlocal with h1 h2 h3 h4
  · exact (leads_success hpc hl hlocal).congr (hends (h1.elim .inl fun h => .inr (.inl h)))
  · exact (leads_failure hpc hl hlocal).congr (hends (.inr (.inr (.inl h2))))
  · exact (leads_success hpc hl hlocal).congr (hends (.inr (.inr (.inr (.inl h3)))))
  · exact (leads_success hpc hl hlocal).congr (hends (.inr (.inr (.inr (.inr h4)))))
  · have hstay : eapStep crypto w (clearChanged p) = clearChanged p := by
      rw [eapStep_cleared hl, hlocal]
    refine (leads_stay hpc hstay).congr ?_
    have hnot : idleEnds p p.idleWhile p.eap.methodState p.eap.decision p.eap.toDoneFlags = false := by
      simp only [idleEnds, decide_eq_false_iff_not]
      rintro (h | h | h | h | h)
      · exact h1 (.inl h)
      · exact h1 (.inr h)
      · exact h2 h
      · exact h3 h
      · exact h4 h
    unfold IdleWell Concluded
    rw [hnot, Bool.or_false]
    exact and_iff_right hreq

theorem leads_back (hpc : p.pc = .eap i true) (hl : localStep p = true)
    (hst : p.eap.eapState = .sendResponse ∨ p.eap.eapState = .discard) (hreq : p.eapReq = false) :
    Leads crypto w p (IdleWell p) := by
  have hst' : (clearChanged p).eap.eapState = p.eap.eapState := rfl
  have hstep : eapStep crypto w (clearChanged p) = enterIdle (clearChanged p) := by
    rw [eapStep_cleared hl]
    unfold stepLocal
    rcases hst with hst | hst
    · rw [hst', hst]
    · rw [hst', hst]
  have hidle : Leads crypto w (round i (enterIdle (clearChanged p)))
      (IdleWell (round i (enterIdle (clearChanged p)))) := by
    refine leads_idle rfl (localStep_frame hl ?_) ?_ hreq
    all_goals simp [round, enterIdle, eapEntry, clearChanged]
  refine leads_again hpc hstep (by simp [enterIdle, eapEntry]) (hidle.congr ?_)
  simp [IdleWell, idleEnds, round, enterIdle, eapEntry, clearChanged]

theorem leads_send (hpc : p.pc = .eap i true) (hl : localStep p = true)
    (hstep : stepLocal crypto w (clearChanged p) = enterSendResponse (clearChanged p)) :
    Leads crypto w p (BuiltWell p p.eap.eapRespData) := by
  have hback : Leads crypto w (round i (enterSendResponse (clearChanged p)))
      (IdleWell (round i (enterSendResponse (clearChanged p)))) := by
    refine leads_back rfl (localStep_frame hl ?_) (.inl ?_) ?_
    all_goals simp [round, enterSendResponse, eapEntry, clearChanged]
  refine leads_again hpc ((eapStep_cleared hl).trans hstep) ?_ (hback.congr ?_)
  · simp [enterSendResponse, eapEntry]
  · simp [IdleWell, BuiltWell, SentWell, idleEnds, round, enterSendResponse, eapEntry, clearChanged]

theorem leads_discard (hpc : p.pc = .eap i true) (hl : localStep p = true)
    (hstep : stepLocal crypto w (clearChanged p) = enterDiscard (clearChanged p)) :
    Leads crypto w p (NotSent p) := by
  have hback : Leads crypto w (round i (enterDiscard (clearChanged p)))
      (IdleWell (round i (enterDiscard (clearChanged p)))) := by
    refine leads_back rfl (localStep_frame hl ?_) (.inr ?_) ?_
    all_goals simp [round, enterDiscard, eapEntry, clearChanged]
  refine leads_again hpc ((eapStep_cleared hl).trans hstep) ?_ (hback.congr ?_)
  · simp [enterDiscard, eapEntry]
  · simp [IdleWell, ExactlyOne, NotSent, round, enterDiscard, eapEntry, clearChanged]

theorem enterMethod_processed (p : EapolSm π) :
    ((enterMethod p).portEnabled, (enterMethod p).eapRestart, (enterMethod p).eap.forceDisabled,
        (enterMethod p).eap.numRounds) =
      (p.portEnabled, p.eapRestart, p.eap.forceDisabled, p.eap.numRounds) ∧
    (enterMethod p).eap.eapState = .method ∧ (enterMethod p).eap.changed = true ∧
    (enterMethod p).eap.ignore = (processed p).2.1.ignore ∧
    (NotSent (enterMethod p) ↔ NotSent p) ∧
    ((processed p).2.1.ignore = false →
      (BuiltWell (enterMethod p) (enterMethod p).eap.eapRespData ↔
        SentWell p (processed p).2.1.methodState (processed p).2.1.decision (processed p).2.2
          (processed p).1)) := by
  cases hm : p.eap.m with
  | none => simp [enterMethod, processed, eapEntry, hm, NotSent, BuiltWell, SentWell, idleEnds]
  | some m =>
    cases hpriv : p.eap.eapMethodPriv with
    | none =>
      simp [enterMethod, processed, eapEntry, hm, hpriv, NotSent, BuiltWell, SentWell, idleEnds]
    | some priv =>
      have hentry : (eapEntry false .method p).eap.m = some m ∧
          (eapEntry false .method p).eap.eapMethodPriv = some priv := ⟨hm, hpriv⟩
      rcases hcall : m.process priv p.eap.toDoneFlags ⟨p.eap.ignore, p.eap.methodState,
        p.eap.decision, p.eap.allowNotifications⟩ p.eapReqData with ⟨resp, ret, priv', flags⟩
      have hcall' : m.process priv (eapEntry false .method p).eap.toDoneFlags
          ⟨(eapEntry false .method p).eap.ignore, (eapEntry false .method p).eap.methodState,
            (eapEntry false .method p).eap.decision,
            (eapEntry false .method p).eap.allowNotifications⟩
          (eapEntry false .method p).eapReqData = (resp, ret, priv', flags) := hcall
      have hprocessed : processed p = (resp, ret, flags) := by
        simp only [processed, hm, hpriv, hcall]
      rw [hprocessed]
      unfold enterMethod
      simp only [hentry.1, hentry.2, hcall']
      cases hignore : ret.ignore with
      | true => simp [eapEntry, NotSent]
      | false =>
        unfold takeKey
        cases m.key priv' <;> simp [eapEntry, NotSent, BuiltWell, SentWell, idleEnds]

theorem leads_method (hpc : p.pc = .eap i true) (hl : localStep p = true)
    (hstep : stepLocal crypto w (clearChanged p) = enterMethod (clearChanged p)) :
    Leads crypto w p (ProcessWell p) := by
  obtain ⟨hframe, hst, hchanged, hignore, hnot, hbuilt⟩ := enterMethod_processed (clearChanged p)
  have hprocessed : processed (clearChanged p) = processed p := by simp [processed, clearChanged]
  have hnot' : NotSent (clearChanged p) ↔ NotSent p := Iff.rfl
  rw [hprocessed] at hignore hbuilt
  refine leads_again hpc ((eapStep_cleared hl).trans hstep) hchanged ?_
  generalize enterMethod (clearChanged p) = q at hframe hst hignore hnot hbuilt
  have hl' : localStep (round i q) = true := localStep_frame hl hframe
  have hst' : (clearChanged (round i q)).eap.eapState = .method := hst
  have hignore' : (clearChanged (round i q)).eap.ignore = (processed p).2.1.ignore := hignore
  unfold ProcessWell
  split_ifs with hi
  · have hdiscard : stepLocal crypto w (clearChanged (round i q)) =
        enterDiscard (clearChanged (round i q)) := by
      unfold stepLocal
      rw [hst']
      dsimp only
      rw [hignore', if_pos hi]
    exact (leads_discard rfl hl' hdiscard).congr (hnot.trans hnot')
  · have hsend : stepLocal crypto w (clearChanged (round i q)) =
        enterSendResponse (clearChanged (round i q)) := by
      unfold stepLocal
      rw [hst']
      dsimp only
      rw [hignore', if_neg hi]
    exact (leads_send rfl hl' hsend).congr (hbuilt (Bool.eq_false_iff.mpr hi))

/-! ### The packet -/

theorem eapEntry_cleared (st : EapState) (p : EapolSm π) :
    eapEntry false st (clearChanged p) = eapEntry false st p := by
  simp [eapEntry, clearChanged]

theorem processed_round (p : EapolSm π) : processed (round i p) = processed p := rfl

theorem getMethodWell_round (p : EapolSm π) : GetMethodWell (round i p) ↔ GetMethodWell p := by
  unfold GetMethodWell ProcessWell
  rw [processed_round]
  exact Iff.rfl

theorem enterGetMethod_round (p : EapolSm π) :
    enterGetMethod w (round i p) = round i (enterGetMethod w p) := rfl

theorem enterReceived_round (p : EapolSm π) :
    enterReceived crypto (round i p) = round i (enterReceived crypto p) := rfl

theorem receivedWell_round (p : EapolSm π) : ReceivedWell w (round i p) ↔ ReceivedWell w p := by
  unfold ReceivedWell DispatchWell ProcessWell
  rw [processed_round, enterGetMethod_round, propext (getMethodWell_round (enterGetMethod w p))]
  exact Iff.rfl

theorem leads_getMethod (hpc : p.pc = .eap i true) (hl : localStep p = true)
    (hst : p.eap.eapState = .getMethod) : Leads crypto w p (GetMethodWell p) := by
  have hst' : (clearChanged p).eap.eapState = .getMethod := hst
  have hlocal : stepLocal crypto w (clearChanged p) =
      if p.eap.selectedMethod = p.eap.reqMethod then enterMethod (clearChanged p)
      else enterSendResponse (clearChanged p) := by
    unfold stepLocal
    rw [hst']
    rfl
  unfold GetMethodWell
  split_ifs at hlocal ⊢
  · exact leads_method hpc hl hlocal
  · exact leads_send hpc hl hlocal

theorem leads_built {st : EapState} {resp : Option Bytes} (hpc : p.pc = .eap i true)
    (hl : localStep p = true)
    (hstep : stepLocal crypto w (clearChanged p) =
      (eapEntry false st (clearChanged p)).onEap fun eap => { eap with eapRespData := resp })
    (hst : st = .identity ∨ st = .notification ∨ st = .retransmit) :
    Leads crypto w p (BuiltWell p resp) := by
  refine leads_again hpc ((eapStep_cleared hl).trans hstep) (by simp [eapEntry]) ?_
  rw [eapEntry_cleared]
  have hlr : localStep (round i ((eapEntry false st p).onEap fun eap =>
      { eap with eapRespData := resp })) = true :=
    localStep_frame hl (by simp [round, eapEntry])
  have hsend : stepLocal crypto w (clearChanged (round i ((eapEntry false st p).onEap fun eap =>
      { eap with eapRespData := resp }))) = enterSendResponse (clearChanged (round i
      ((eapEntry false st p).onEap fun eap => { eap with eapRespData := resp }))) := by
    have hstate : (clearChanged (round i ((eapEntry false st p).onEap fun eap =>
        { eap with eapRespData := resp }))).eap.eapState = st := rfl
    unfold stepLocal
    rw [hstate]
    rcases hst with rfl | rfl | rfl
    · rfl
    · rfl
    · rfl
  refine (leads_send rfl hlr hsend).congr ?_
  simp [BuiltWell, SentWell, idleEnds, round, eapEntry]

theorem leads_dispatch (hpc : p.pc = .eap i true) (hl : localStep p = true)
    (hst : p.eap.eapState = .received) : Leads crypto w p (DispatchWell w p) := by
  have hst' : (clearChanged p).eap.eapState = .received := hst
  have hlocal : stepLocal crypto w (clearChanged p) = stepReceived w (clearChanged p) := by
    unfold stepLocal
    rw [hst']
  have hnot : ExactlyOne p.eapResp p.eap.eapRespData true ↔ NotSent p := by
    simp [ExactlyOne, NotSent]
  have hreceived : stepReceived w (clearChanged p) =
      if p.eap.rxSuccess ∧ p.eap.decision ≠ .fail ∧ idAccepted p.eap then
        enterSuccess (clearChanged p)
      else if p.eap.methodState ≠ .cont ∧
          ((p.eap.rxFailure ∧ p.eap.decision ≠ .uncondSucc) ∨
            (p.eap.rxSuccess ∧ p.eap.decision = .fail ∧
              (p.eap.selectedMethod ≠ typeLeap ∨ p.eap.methodState ≠ .mayCont))) ∧
          idAccepted p.eap then
        enterFailure false (clearChanged p)
      else if p.eap.rxReq ∧ reqIsDuplicate p.eap then enterRetransmit (clearChanged p)
      else if p.eap.rxReq ∧ ¬ reqIsDuplicate p.eap ∧ p.eap.reqMethod = typeNotification ∧
          p.eap.allowNotifications then
        enterNotification w (clearChanged p)
      else if p.eap.rxReq ∧ ¬ reqIsDuplicate p.eap ∧ p.eap.selectedMethod = typeNone ∧
          p.eap.reqMethod = typeIdentity then
        enterIdentity w (clearChanged p)
      else if p.eap.rxReq ∧ ¬ reqIsDuplicate p.eap ∧ p.eap.selectedMethod = typeNone ∧
          p.eap.reqMethod ≠ typeIdentity ∧ p.eap.reqMethod ≠ typeNotification then
        enterGetMethod w (clearChanged p)
      else if p.eap.rxReq ∧ ¬ reqIsDuplicate p.eap ∧ p.eap.reqMethod = p.eap.selectedMethod ∧
          p.eap.methodState ≠ .done then
        enterMethod (clearChanged p)
      else if p.eap.selectedMethod = typeLeap ∧ (p.eap.rxSuccess ∨ p.eap.rxResp) then
        enterMethod (clearChanged p)
      else enterDiscard (clearChanged p) := rfl
  rw [hreceived] at hlocal
  unfold DispatchWell
  split_ifs at hlocal ⊢
  · exact (leads_success hpc hl hlocal).congr hnot
  · exact (leads_failure hpc hl hlocal).congr hnot
  · exact leads_built hpc hl hlocal (.inr (.inr rfl))
  · exact leads_built hpc hl hlocal (.inr (.inl rfl))
  · exact leads_built hpc hl hlocal (.inl rfl)
  · have hget : enterGetMethod w (clearChanged p) = enterGetMethod w p := by
      unfold enterGetMethod
      rw [eapEntry_cleared]
    rw [hget] at hlocal
    have henters := enterGetMethod_enters w p
    refine leads_again hpc ((eapStep_cleared hl).trans hlocal) henters.changed ?_
    have hlr : localStep (round i (enterGetMethod w p)) = true := by
      refine localStep_frame hl ?_
      have hframe : ((enterGetMethod w p).portEnabled, (enterGetMethod w p).eapRestart,
          (enterGetMethod w p).eap.forceDisabled, (enterGetMethod w p).eap.numRounds) =
          (p.portEnabled, p.eapRestart, p.eap.forceDisabled, p.eap.numRounds) := by
        rw [henters.portEnabled, henters.eapRestart, henters.forceDisabled, henters.numRounds]
      exact hframe
    exact (leads_getMethod rfl hlr henters.eapState).congr (getMethodWell_round _)
  · exact leads_method hpc hl hlocal
  · exact leads_method hpc hl hlocal
  · exact leads_discard hpc hl hlocal

theorem enterReceived_frame (crypto : EapolCrypto) (p : EapolSm π) :
    ((enterReceived crypto p).portEnabled, (enterReceived crypto p).eapRestart,
        (enterReceived crypto p).eap.forceDisabled, (enterReceived crypto p).eap.numRounds) =
      (p.portEnabled, p.eapRestart, p.eap.forceDisabled, p.eap.numRounds + 1) ∧
    (enterReceived crypto p).eap.eapState = .received ∧
    (enterReceived crypto p).eap.changed = true := by
  have hcore := parseEapReq_core crypto (eapEntry false .received p).eap p.eapReqData
  have hstate : (enterReceived crypto p).eap.eapState = .received := enterReceived_state
  have hdisabled : (enterReceived crypto p).eap.forceDisabled = p.eap.forceDisabled :=
    hcore.forceDisabled
  have hrounds : (enterReceived crypto p).eap.numRounds = p.eap.numRounds + 1 :=
    congrArg (· + 1) hcore.numRounds
  have hchanged : (enterReceived crypto p).eap.changed = true :=
    hcore.changed.trans (by simp [eapEntry])
  rw [hdisabled, hrounds]
  exact ⟨rfl, hstate, hchanged⟩

theorem eapStep_overdue {sm : EapolSm π} (hup : sm.portEnabled = true ∧ sm.eapRestart = false)
    (hable : sm.eap.forceDisabled = false) (hrounds : maxAuthRounds + 1 < sm.eap.numRounds) :
    eapStep crypto w sm = sm := by
  unfold eapStep
  rw [if_neg (by simp [hup.2]), if_neg (by simp [hup.1, hable]), if_pos (by omega),
    if_neg (by omega)]

theorem leads_overdue (hpc : p.pc = .eap i true)
    (hup : p.portEnabled = true ∧ p.eapRestart = false) (hable : p.eap.forceDisabled = false)
    (hrounds : p.eap.numRounds = maxAuthRounds + 1) (hst : p.eap.eapState = .received) :
    Leads crypto w p (NotSent p) := by
  have hstep : eapStep crypto w (clearChanged p) = enterFailure true ((clearChanged p).onEap
      fun eap => { eap with numRounds := eap.numRounds + 1 }) := by
    unfold eapStep
    have hup' : (clearChanged p).portEnabled = true ∧ (clearChanged p).eapRestart = false := hup
    have hable' : (clearChanged p).eap.forceDisabled = false := hable
    have hrounds' : (clearChanged p).eap.numRounds = maxAuthRounds + 1 := hrounds
    rw [if_neg (by simp [hup'.2]), if_neg (by simp [hup'.1, hable']), if_pos (by omega),
      if_pos hrounds']
  refine leads_again hpc hstep (by simp [enterFailure, eapEntry, clearChanged, hst]) ?_
  have hstay : eapStep crypto w (clearChanged (round i (enterFailure true ((clearChanged p).onEap
      fun eap => { eap with numRounds := eap.numRounds + 1 })))) =
      clearChanged (round i (enterFailure true ((clearChanged p).onEap
        fun eap => { eap with numRounds := eap.numRounds + 1 }))) := by
    refine eapStep_overdue ?_ ?_ ?_
    all_goals simp [clearChanged, round, enterFailure, eapEntry, hup, hable, hrounds]
  refine (leads_stay rfl hstay).congr ?_
  simp [Concluded, ExactlyOne, NotSent, round, enterFailure, eapEntry, clearChanged]

variable {res : Bool}

theorem leads_packet (hpc : p.pc = .eap i res) (hl : localStep p = true)
    (hst : p.eap.eapState = .idle) (hreq : p.eapReq = true) :
    Leads crypto w p (ReceivedWell w (enterReceived crypto p)) := by
  have hst' : (clearChanged p).eap.eapState = .idle := hst
  have hreq' : (clearChanged p).eapReq = true := hreq
  have hstep : eapStep crypto w (clearChanged p) = enterReceived crypto p := by
    rw [eapStep_cleared hl]
    unfold stepLocal
    rw [hst']
    dsimp only
    unfold stepIdle
    rw [if_pos hreq']
    unfold enterReceived
    rw [eapEntry_cleared]
  obtain ⟨hframe, hreceived, hchanged⟩ := enterReceived_frame crypto p
  refine leads_again hpc hstep hchanged ?_
  generalize enterReceived crypto p = r at *
  simp only [Prod.mk.injEq] at hframe
  obtain ⟨hport, hrestart, hdisabled, hrounds⟩ := hframe
  simp only [localStep, Bool.and_eq_true, Bool.not_eq_true', decide_eq_true_eq] at hl
  unfold ReceivedWell
  split_ifs with hmany
  · refine leads_overdue rfl ⟨?_, ?_⟩ ?_ ?_ hreceived
    · exact hport.trans hl.1.1.1
    · exact hrestart.trans hl.1.1.2
    · exact hdisabled.trans hl.1.2
    · have hround : (round i r).eap.numRounds = r.eap.numRounds := rfl
      omega
  · have hlr : localStep (round i r) = true := by
      have hlr : localStep r = true := by
        unfold localStep
        rw [hport, hrestart, hdisabled, hl.1.1.1, hl.1.1.2, hl.1.2]
        simpa using hmany
      exact hlr
    refine (leads_dispatch (w := w) rfl hlr hreceived).congr ?_
    have hround := receivedWell_round (w := w) (i := i) r
    unfold ReceivedWell at hround
    have hmany' : ¬ maxAuthRounds < (round i r).eap.numRounds := hmany
    rwa [if_neg hmany, if_neg hmany'] at hround

/-! ### The state that the packet finds -/

theorem keepOrDeinit_changed (e : EapSm π) (b : Bool) :
    keepOrDeinit { e with changed := b } = { keepOrDeinit e with changed := b } := by
  have hreauth : hasReauthData { e with changed := b } = hasReauthData e := rfl
  unfold keepOrDeinit deinitPrevMethod
  rw [hreauth]
  dsimp only
  split_ifs
  · split <;> rfl
  · rfl
  · rfl

/-- What INITIALIZE makes of the machine whose data are kept or freed. -/
def initialisedWith (sm : EapolSm π) (eap : EapSm π) : EapolSm π :=
  { sm.note .eapInitialise with
    idleWhile := eap.clientTimeout
    timerTickEnabled := true
    eapSuccess := false
    eapFail := false
    eapRestart := false
    eapResp := false
    eapNoResp := false
    eap := { eap with
      selectedMethod := typeNone
      methodState := .none
      allowNotifications := true
      decision := .fail
      eapKeyData := none
      eapKeyAvailable := false
      lastId := -1
      numRounds := 0
      prevFailure := false } }

theorem enterInitialise_eq (global : Bool) (p : EapolSm π) :
    enterInitialise global p = initialisedWith (eapEntry global .initialise p)
      (keepOrDeinit (eapEntry global .initialise p).eap) := rfl

theorem enterIdle_initialise (global : Bool) (p : EapolSm π) :
    enterIdle (round i (enterInitialise global (clearChanged p))) =
      round i (enterIdle (enterInitialise true p)) := by
  have hidle (e : EapSm π) (b : Bool) :
      enterIdle (round i (initialisedWith (eapEntry global .initialise (clearChanged p))
        { e with changed := b })) =
        round i (enterIdle (initialisedWith (eapEntry true .initialise p) e)) := by
    simp [initialisedWith, enterIdle, eapEntry, round, clearChanged]
  have hentry : (eapEntry global .initialise (clearChanged p)).eap =
      { (eapEntry true .initialise p).eap with
        changed := (eapEntry global .initialise (clearChanged p)).eap.changed } := by
    simp [eapEntry, clearChanged]
  rw [enterInitialise_eq, enterInitialise_eq]
  have hkept := keepOrDeinit_changed (eapEntry true .initialise p).eap
    (eapEntry global .initialise (clearChanged p)).eap.changed
  rw [← hentry] at hkept
  rw [hkept]
  exact hidle _ _

theorem enterInitialise_frame (global : Bool) (hne : p.eap.eapState ≠ .initialise) :
    (enterInitialise global (clearChanged p)).eap.changed = true ∧
    (enterInitialise global (clearChanged p)).eap.eapState = .initialise ∧
    (enterInitialise global (clearChanged p)).eap.forceDisabled = p.eap.forceDisabled ∧
    (enterInitialise global (clearChanged p)).eap.numRounds = 0 ∧
    (enterInitialise global (clearChanged p)).portEnabled = p.portEnabled ∧
    (enterInitialise global (clearChanged p)).eapRestart = false ∧
    (enterInitialise global (clearChanged p)).eapReq = p.eapReq := by
  have hcore := keepOrDeinit_core (eapEntry global .initialise (clearChanged p)).eap
  refine ⟨hcore.changed.trans ?_, hcore.eapState, hcore.forceDisabled, rfl, ?_, rfl, ?_⟩
  all_goals simp [enterInitialise, eapEntry, clearChanged, hne]

theorem leads_begun {res global : Bool} (hpc : p.pc = .eap i res) (hport : p.portEnabled = true)
    (hable : p.eap.forceDisabled = false) (hne : p.eap.eapState ≠ .initialise)
    (hreq : p.eapReq = true)
    (hstep : eapStep crypto w (clearChanged p) = enterInitialise global (clearChanged p)) :
    Leads crypto w p (ReceivedWell w (enterReceived crypto (enterIdle (enterInitialise true p)))) := by
  obtain ⟨hchanged, hstate, hdisabled, hrounds, hup, hrestart, hreq'⟩ :=
    enterInitialise_frame global hne
  have hidle := enterIdle_initialise (i := i) global p
  refine leads_again hpc hstep hchanged ?_
  generalize enterInitialise global (clearChanged p) = r at *
  have hl : localStep (round i r) = true := by
    have hl : localStep r = true := by
      unfold localStep
      rw [hup, hdisabled, hrounds, hrestart, hport, hable]
      rfl
    exact hl
  have hstate' : (clearChanged (round i r)).eap.eapState = .initialise := hstate
  have hback : eapStep crypto w (clearChanged (round i r)) = enterIdle (round i r) := by
    rw [eapStep_cleared hl]
    unfold stepLocal
    rw [hstate']
    unfold enterIdle
    rw [eapEntry_cleared]
  have hchanged' : (enterIdle (round i r)).eap.changed = true := by simp [enterIdle, eapEntry]
  refine leads_again rfl hback hchanged' ?_
  rw [hidle]
  have hsame : ReceivedWell w (enterReceived crypto (round i (round i
      (enterIdle (enterInitialise true p))))) ↔
      ReceivedWell w (enterReceived crypto (enterIdle (enterInitialise true p))) := by
    rw [enterReceived_round, enterReceived_round, propext (receivedWell_round _),
      propext (receivedWell_round _)]
  refine Leads.congr ?_ hsame
  rw [← hidle]
  refine leads_packet rfl (localStep_frame hl ?_) ?_ ?_
  all_goals simp [round, enterIdle, eapEntry, hreq', hreq]

theorem leads_disabled (hpc : p.pc = .eap i res)
    (hrestart : ¬ (p.eapRestart = true ∧ p.portEnabled = true))
    (hdown : ¬ p.portEnabled = true ∨ p.eap.forceDisabled = true) (hreq : p.eapReq = true) :
    Leads crypto w p False := by
  have hstep {sm : EapolSm π} (hr : ¬ (sm.eapRestart = true ∧ sm.portEnabled = true))
      (hd : ¬ sm.portEnabled = true ∨ sm.eap.forceDisabled = true) :
      eapStep crypto w (clearChanged sm) = enterDisabled (clearChanged sm) := by
    have hr' : ¬ ((clearChanged sm).eapRestart = true ∧ (clearChanged sm).portEnabled = true) := hr
    have hd' : ¬ (clearChanged sm).portEnabled = true ∨
        (clearChanged sm).eap.forceDisabled = true := hd
    unfold eapStep
    rw [if_neg hr', if_pos hd']
  -- where the machine is in DISABLED already, the loop ends
  have hends {sm : EapolSm π} {res : Bool} (hpc : sm.pc = .eap i res)
      (hr : ¬ (sm.eapRestart = true ∧ sm.portEnabled = true))
      (hd : ¬ sm.portEnabled = true ∨ sm.eap.forceDisabled = true) (hreq : sm.eapReq = true)
      (hst : sm.eap.eapState = .disabled) : Leads crypto w sm False := by
    refine leads_ends hpc (hstep hr hd) ?_ ?_ False.elim
    · simp [enterDisabled, eapEntry, clearChanged, hst]
    · simp [Concluded, enterDisabled, eapEntry, clearChanged, hreq]
  by_cases hst : p.eap.eapState = .disabled
  · exact hends hpc hrestart hdown hreq hst
  · refine leads_again hpc (hstep hrestart hdown) ?_ (hends rfl ?_ ?_ ?_ ?_)
    · simp [enterDisabled, eapEntry, clearChanged, hst]
    · simpa [round, enterDisabled, eapEntry, clearChanged] using hrestart
    · simpa [round, enterDisabled, eapEntry, clearChanged] using hdown
    · simpa [round, enterDisabled, eapEntry, clearChanged] using hreq
    · simp [round, enterDisabled, eapEntry]

theorem leads_stuck (hpc : p.pc = .eap i res) (hreq : p.eapReq = true)
    (hstay : eapStep crypto w (clearChanged p) = clearChanged p) : Leads crypto w p False := by
  refine leads_ends hpc hstay rfl ?_ False.elim
  have hreq' : (clearChanged p).eapReq = true := hreq
  simp [Concluded, hreq']

/-- **What the packet comes to.** -/
theorem leads_handled (hpc : p.pc = .eap i res) (hreq : p.eapReq = true)
    (hst : Between p.eap)
    (hrounds : maxAuthRounds < p.eap.numRounds →
      p.eap.eapState = .failure ∧ maxAuthRounds + 1 < p.eap.numRounds) :
    Leads crypto w p (Handled crypto w p) := by
  have hne : p.eap.eapState ≠ .initialise := by
    rcases hst with h | h | h | h <;> simp [h]
  -- neither of the conversations that have ended and of those that cannot begin takes it
  have hnot (h : begun p = p) (hidle : p.eap.eapState ≠ .idle) : False ↔ Handled crypto w p := by
    unfold Handled
    rw [h]
    exact ⟨False.elim, fun hh => hidle hh.2.2.1⟩
  by_cases hrestart : p.eapRestart = true ∧ p.portEnabled = true
  · have hbegun : begun p = enterIdle (enterInitialise true p) := if_pos (.inl hrestart)
    have hrestart' : (clearChanged p).eapRestart = true ∧ (clearChanged p).portEnabled = true :=
      hrestart
    have hstep : eapStep crypto w (clearChanged p) = enterInitialise true (clearChanged p) := by
      unfold eapStep
      rw [if_pos hrestart']
    by_cases hable : p.eap.forceDisabled = true
    · obtain ⟨hchanged, -, hdisabled, -, -, hrestarted, hreq'⟩ := enterInitialise_frame true hne
      generalize enterInitialise true (clearChanged p) = r at *
      have hdead : Leads crypto w (round i r) False := by
        refine leads_disabled rfl ?_ (.inr (hdisabled.trans hable)) (hreq'.trans hreq)
        exact fun h => absurd (hrestarted.symm.trans h.1) Bool.false_ne_true
      refine (leads_again hpc hstep hchanged hdead).congr ?_
      exact ⟨False.elim, fun hh => absurd hh.2.1 (by simp [hable])⟩
    · refine (leads_begun hpc hrestart.2 (by simpa using hable) hne hreq hstep).congr ?_
      unfold Handled
      rw [hbegun]
      exact ⟨fun h => ⟨hrestart.2, by simpa using hable, rfl, h⟩, fun h => h.2.2.2⟩
  by_cases hdown : ¬ p.portEnabled = true ∨ p.eap.forceDisabled = true
  · refine (leads_disabled hpc hrestart hdown hreq).congr ⟨False.elim, fun hh => ?_⟩
    rcases hdown with h | h
    · exact h hh.1
    · exact absurd hh.2.1 (by simp [h])
  obtain ⟨hport, hable⟩ : p.portEnabled = true ∧ p.eap.forceDisabled = false := by
    simpa using hdown
  have hup : p.portEnabled = true ∧ p.eapRestart = false := ⟨hport, by simpa [hport] using hrestart⟩
  by_cases hmany : maxAuthRounds < p.eap.numRounds
  · obtain ⟨hfail, hover⟩ := hrounds hmany
    have hbegun : begun p = p := if_neg (by simp [hrestart, hfail])
    refine (leads_stuck hpc hreq ?_).congr (hnot hbegun (by simp [hfail]))
    have hup' : (clearChanged p).portEnabled = true ∧ (clearChanged p).eapRestart = false := hup
    exact eapStep_overdue hup' hable hover
  have hl : localStep p = true := by
    simp [localStep, hup.1, hup.2, hable, not_lt.mp hmany]
  have hstays (hover : p.eap.eapState = .success ∨ p.eap.eapState = .failure) :
      Leads crypto w p (Handled crypto w p) := by
    have hst' : (clearChanged p).eap.eapState = p.eap.eapState := rfl
    have hstay : eapStep crypto w (clearChanged p) = clearChanged p := by
      rw [eapStep_cleared hl]
      unfold stepLocal
      rcases hover with h | h
      · rw [hst', h]
      · rw [hst', h]
    have hne' : p.eap.eapState ≠ .idle ∧ p.eap.eapState ≠ .disabled := by
      rcases hover with h | h <;> simp [h]
    have hbegun : begun p = p := if_neg (by simp [hrestart, hne'.2])
    exact (leads_stuck hpc hreq hstay).congr (hnot hbegun hne'.1)
  rcases hst with hidle | hover | hover | hdis
  · have hbegun : begun p = p := if_neg (by simp [hrestart, hidle])
    refine (leads_packet hpc hl hidle hreq).congr ?_
    unfold Handled
    rw [hbegun]
    exact ⟨fun h => ⟨hport, hable, hidle, h⟩, fun h => h.2.2.2⟩
  · exact hstays (.inl hover)
  · exact hstays (.inr hover)
  · have hbegun : begun p = enterIdle (enterInitialise true p) := if_pos (.inr hdis)
    have hdis' : (clearChanged p).eap.eapState = .disabled := hdis
    have hstep : eapStep crypto w (clearChanged p) = enterInitialise false (clearChanged p) := by
      rw [eapStep_cleared hl]
      unfold stepLocal
      rw [hdis']
      exact if_pos ⟨hport, by simp [clearChanged, hable]⟩
    refine (leads_begun hpc hport hable hne hreq hstep).congr ?_
    unfold Handled
    rw [hbegun]
    exact ⟨fun h => ⟨hport, hable, rfl, h⟩, fun h => h.2.2.2⟩

end States

end Concluded

end Hostapd.EapolSupp
