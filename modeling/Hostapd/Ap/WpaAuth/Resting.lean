import Hostapd.Ap.WpaAuth.Handshake

/-!
# The WPA authenticator: a machine at rest

What a station's machine leaves behind when its step loop is over, with regard to the group key.

* **`Still`**: between steps no reply of the group key handshake is pending, and a machine that
  has come to rest has no request left and is `Rested`: it waits for a group key, or for an
  acknowledgement whose retries are not used up.
* **`resting_lifts`** says that everything a machine does keeps this.
* **`Marked`**: a machine at rest in `PTKINITDONE` that is visited for a rekey keeps its mark
  through the steps that follow (`Marked.stepMachines`).
-/

namespace Hostapd.Ap.WpaAuth

open Hostapd.Lib

/-! ## The invariant -/

structure Rested (sm : Sm) : Prop where
  none : NoRequests sm
  reset : sm.ptkGroupInit = false
  group : sm.wpaPtkGroupState = .idle ∨ sm.wpaPtkGroupState = .rekeyNegotiating ∧
    sm.gTimeoutCtr ≤ groupUpdateCount ∧ sm.timeoutEvt = false

structure Still (sm : Sm) : Prop where
  noReply : sm.groupReply = false
  idle : sm.wpaPtkGroupState = .idle → sm.gTimeoutCtr = 0
  rested : sm.changed = false → sm.init = false → Rested sm

structure Stirred (sm : Sm) : Prop where
  reply : sm.groupReply = true → GroupPending sm
  idle : sm.wpaPtkGroupState = .idle → sm.gTimeoutCtr = 0

variable {sm sm' : Sm}

theorem groupReply_eq_true (h : sm.groupReply = true) :
    sm.eapolKeyReceived = true ∧ sm.eapolKeyRequest = false ∧ sm.eapolKeyPairwise = false := by
  unfold Sm.groupReply at h
  rw [Bool.and_eq_true, Bool.and_eq_true, Bool.not_eq_true', Bool.not_eq_true'] at h
  exact ⟨h.1.1, h.1.2, h.2⟩

namespace Still

/-- The fields that a pending reply and the retries are seen in. -/
def reply (sm : Sm) : Bool × Bool × Bool × PtkGroupState × ℕ :=
  (sm.eapolKeyReceived, sm.eapolKeyRequest, sm.eapolKeyPairwise, sm.wpaPtkGroupState,
    sm.gTimeoutCtr)

def requests (sm : Sm) : Bool × Bool × Bool × Bool × Bool × Bool × Bool × Bool × Bool :=
  (sm.changed, sm.init, sm.disconnect, sm.deauthenticationRequest, sm.authenticationRequest,
    sm.reAuthenticationRequest, sm.ptkRequest, sm.ptkGroupInit, sm.timeoutEvt)

theorem groupReply_congr (h : reply sm' = reply sm) : sm'.groupReply = sm.groupReply := by
  simp only [reply, Prod.mk.injEq] at h
  rw [Sm.groupReply, Sm.groupReply, h.1, h.2.1, h.2.2.1]

theorem same (h : Still sm) (hreply : reply sm' = reply sm)
    (hrequests : requests sm' = requests sm) : Still sm' := by
  have hnone := (groupReply_congr hreply).trans h.noReply
  simp only [reply, Prod.mk.injEq] at hreply
  obtain ⟨-, -, -, hst, hctr⟩ := hreply
  simp only [requests, Prod.mk.injEq] at hrequests
  obtain ⟨hch, hi, hd, hde, ha, hre, hp, hg, ht⟩ := hrequests
  refine ⟨hnone, hst ▸ hctr ▸ h.idle, ?_⟩
  rw [hch, hi]
  intro hch' hi'
  obtain ⟨⟨h1, h2, h3, h4, h5, h6⟩, hreset, hgroup⟩ := h.rested hch' hi'
  refine ⟨⟨hi.trans h1, hd.trans h2, hde.trans h3, ha.trans h4, hre.trans h5, hp.trans h6⟩,
    hg.trans hreset, ?_⟩
  rw [hst, hctr, ht]
  exact hgroup

theorem stirred (h : Still sm) (hreply : reply sm' = reply sm) : Stirred sm' := by
  refine ⟨fun hpending => ?_, ?_⟩
  · rw [groupReply_congr hreply, h.noReply] at hpending
    exact Bool.noConfusion hpending
  · simp only [reply, Prod.mk.injEq] at hreply
    obtain ⟨-, -, -, hst, hctr⟩ := hreply
    rw [hst, hctr]
    exact h.idle

end Still

/-! ## One step of both machines -/

section Steps

variable (S : Setup)

theorem ptkStep_keeps (l : Loc) :
    (ptkStep S l).sm.eapolKeyPairwise = l.sm.eapolKeyPairwise ∧
      (ptkStep S l).sm.wpaPtkGroupState = l.sm.wpaPtkGroupState ∧
      (ptkStep S l).sm.gTimeoutCtr = l.sm.gTimeoutCtr := by
  have hm := ptkStep_move S l
  generalize ptkStep S l = l' at hm
  cases hm with
  | initialise =>
    rw [enterInitialise_sm]
    exact ⟨rfl, rfl, rfl⟩
  | authentication2 =>
    rw [enterAuthentication2_sm]
    exact ⟨rfl, rfl, rfl⟩
  | ptkStart n =>
    obtain ⟨a, -, ha⟩ := enterPtkStart_eq S (l.atMoment n)
    obtain ⟨kr, hkr⟩ := sendOpt_sm S _ a
    rw [ha, hkr]
    exact ⟨rfl, rfl, rfl⟩
  | ptkCalc =>
    rcases enterPtkCalcNegotiating_cases S l with ⟨-, hsm, -⟩ | ⟨pmk, -, hsm, -⟩
    · rw [hsm]
      exact ⟨rfl, rfl, rfl⟩
    · rw [hsm]
      exact ⟨rfl, rfl, rfl⟩
  | ptkInitNeg =>
    obtain ⟨n, a, -, ha⟩ := enterPtkInitNegotiating_eq S l
    obtain ⟨kr, hkr⟩ := sendOpt_sm S _ a
    rw [ha, hkr]
    exact ⟨rfl, rfl, rfl⟩
  | ptkDone =>
    obtain ⟨⟨ps, pk, pd, hsm⟩, -⟩ := enterPtkInitDone_spec S l
    rw [hsm]
    exact ⟨rfl, rfl, rfl⟩
  | _ => exact ⟨rfl, rfl, rfl⟩

theorem Stirred.ptkStep {l : Loc} (h : Stirred l.sm) : Stirred (ptkStep S l).sm := by
  obtain ⟨hpair, hst, hctr⟩ := ptkStep_keeps S l
  refine ⟨fun hreply => ?_, hst ▸ hctr ▸ h.idle⟩
  obtain ⟨hrec, hreq, hgroup⟩ := groupReply_eq_true hreply
  have hnot : l.sm.pairwiseReply = false := by
    rw [Sm.pairwiseReply, ← hpair, hgroup, Bool.and_false]
  have hflags := ptkStep_flags S hnot
  have hrec' : l.sm.eapolKeyReceived = true := (congrArg (·.1) hflags).symm.trans hrec
  have hreq' : l.sm.eapolKeyRequest = false := (congrArg (·.2.1) hflags).symm.trans hreq
  have hbefore : l.sm.groupReply = true := by
    rw [Sm.groupReply, hrec', hreq', ← hpair, hgroup]
    rfl
  exact (h.reply hbefore).congr hflags

theorem ptkGroupStep_noReply {l : Loc} (h : Stirred l.sm) :
    (ptkGroupStep S l).sm.groupReply = false := by
  cases hreply : l.sm.groupReply with
  | true =>
    obtain ⟨hrec, hreq, -⟩ := groupReply_eq_true hreply
    rw [ptkGroupStep_reply S (h.reply hreply) hrec hreq]
    rfl
  | false =>
    have hm := ptkGroupStep_move S l
    generalize ptkGroupStep S l = l' at hm
    cases hm with
    | rekey =>
      obtain ⟨n, a, -, ha⟩ := enterRekeyNegotiating_eq S l
      obtain ⟨kr, hkr⟩ := sendOpt_sm S _ a
      rw [ha, hkr]
      exact hreply
    | established => rfl
    | _ => exact hreply

theorem ptkGroupStep_idle {l : Loc} (h : l.sm.wpaPtkGroupState = .idle → l.sm.gTimeoutCtr = 0)
    (hst : (ptkGroupStep S l).sm.wpaPtkGroupState = .idle) :
    (ptkGroupStep S l).sm.gTimeoutCtr = 0 := by
  have hm := ptkGroupStep_move S l
  generalize ptkGroupStep S l = l' at hm hst
  cases hm with
  | stay => exact h hst
  | reset => rfl
  | idle => rfl
  | rekey =>
    obtain ⟨n, a, -, ha⟩ := enterRekeyNegotiating_eq S l
    obtain ⟨kr, hkr⟩ := sendOpt_sm S _ a
    rw [ha, hkr] at hst
    exact absurd hst nofun
  | established => exact absurd hst nofun
  | keyError => exact absurd hst nofun

theorem Stirred.stepMachines {l : Loc} (h : Stirred l.sm)
    (hpd : (stepMachines S l).sm.pendingDeinit = false) : Still (stepMachines S l).sm := by
  set l0 : Loc := { l with sm := { l.sm with changed := false } } with hl0
  have hptk : Stirred (WpaAuth.ptkStep S l0).sm :=
    Stirred.ptkStep S (l := l0) ⟨fun hr => (h.reply hr).congr rfl, h.idle⟩
  have hdef : WpaAuth.stepMachines S l = if (WpaAuth.ptkStep S l0).sm.pendingDeinit then
      WpaAuth.ptkStep S l0 else ptkGroupStep S (WpaAuth.ptkStep S l0) := rfl
  rw [hdef] at hpd ⊢
  split at hpd
  · next hd =>
    rw [hpd] at hd
    exact Bool.noConfusion hd
  · next hd =>
    rw [if_neg hd]
    refine ⟨ptkGroupStep_noReply S hptk, ptkGroupStep_idle S hptk.idle, fun hch hinit => ?_⟩
    obtain ⟨hstay, hreset, hgroup⟩ := ptkGroupStep_settled S hch hinit
    rw [hstay] at hch hinit ⊢
    obtain ⟨hno, -, n, hn⟩ := ptkStep_settled S hch hinit
    exact ⟨hn ▸ hno, hreset, hgroup⟩

end Steps

/-! ## Received frames -/

section Received

variable {S : Setup}

theorem groupReply_keepFrame (f : EapolKey) (sm : Sm) : (keepFrame f sm).groupReply =
    (!f.keyInfo.isRequest && !f.keyInfo.isKeyType) := rfl

theorem Still.keepRequest (h : Still sm) {f : EapolKey} (hreq : f.keyInfo.isRequest = true)
    (hst : sm'.wpaPtkGroupState = sm.wpaPtkGroupState) (hctr : sm'.gTimeoutCtr = sm.gTimeoutCtr) :
    Stirred (keepFrame f sm') := by
  refine ⟨fun hreply => ?_, ?_⟩
  · rw [groupReply_keepFrame, hreq] at hreply
    exact Bool.noConfusion hreply
  · show sm'.wpaPtkGroupState = .idle → sm'.gTimeoutCtr = 0
    rw [hst, hctr]
    exact h.idle

theorem Still.keepReply {l : Loc} (h : Still l.sm) (hidle : Idle l.sm) {f : EapolKey}
    (hreq : f.keyInfo.isRequest = false) (hsmk : msgOf f ≠ .smkM3) (hpass : Passes S l.sm f)
    (hst : sm'.wpaPtkGroupState = l.sm.wpaPtkGroupState) (hctr : sm'.gTimeoutCtr = l.sm.gTimeoutCtr)
    (hinit : sm'.init = l.sm.init) (hreset : sm'.ptkGroupInit = l.sm.ptkGroupInit)
    (hmic : sm'.micVerified = l.sm.ptkValid) : Stirred (keepFrame f sm') := by
  refine ⟨fun hreply => ?_, ?_⟩
  · rw [groupReply_keepFrame, hreq, Bool.not_false, Bool.true_and, Bool.not_eq_true'] at hreply
    obtain ⟨-, hrest, -⟩ := h.rested hidle.changed hidle.init
    have hkind := msgOf_reply hreq
    have hgroup : msgOf f = .group2 := by
      rw [hreply, Bool.not_false, if_pos rfl] at hkind
      split at hkind
      · exact absurd hkind hsmk
      · exact hkind
    have hstate := hpass.state
    rw [hgroup] at hstate
    exact ⟨hinit.trans hidle.init, hreset.trans hrest, hreply, hst.trans hstate.1,
      hmic.trans hstate.2⟩
  · show sm'.wpaPtkGroupState = .idle → sm'.gTimeoutCtr = 0
    rw [hst, hctr]
    exact h.idle

theorem Still.receive {l : Loc} (h : Still l.sm) (hidle : Idle l.sm) (f : EapolKey) :
    AfterFrame (fun sm _ => Stirred sm) (fun sm _ => Still sm) (receiveFrame S l f).1 f
      (receiveFrame S l f).2 := by
  have hm := receiveFrame_move S l f
  generalize receiveFrame S l f = r at hm
  cases hm with
  | drop => exact h
  | disconnect g hg => exact h.same rfl rfl
  | badMic => exact h.same rfl rfl
  | accept hpass =>
    unfold acceptFrame
    dsimp only
    split
    case isTrue hreq =>
      split
      case isTrue hnew =>
        obtain ⟨herr, herror, hkey⟩ := hnew
        have hnext : requestNext f = .keep := by
          rw [requestNext, if_neg herr, if_neg (by simpa using herror), if_pos hkey]
        rw [hnext]
        exact h.keepRequest hreq rfl rfl
      case isFalse =>
        cases hnext : requestNext f with
        | micFailure => exact h.keepRequest hreq rfl rfl
        | keep => exact h.keepRequest hreq rfl rfl
        | _ => exact h.same rfl rfl
    case isFalse hreq =>
      split
      case isTrue => exact h.same rfl rfl
      case isFalse hsmk =>
        exact h.keepReply hidle (Bool.eq_false_iff.mpr hreq) hsmk hpass rfl rfl rfl rfl rfl

theorem resting_lifts (S : Setup) :
    Lifts S (fun _ _ => True) (fun sm _ => Stirred sm) (fun sm _ => Still sm) where
  zero addr := ⟨rfl, fun _ => rfl, fun _ _ => ⟨⟨rfl, rfl, rfl, rfl, rfl, rfl⟩, rfl, .inl rfl⟩⟩
  ready h := h.stirred rfl
  loop _ h := ⟨fun hr => (h.reply hr).congr rfl, h.idle⟩
  step _ h hpd := h.stepMachines S hpd
  leave h _ := h.same rfl rfl
  send l a h := by
    refine h.same ?_ ?_
    · rw [wpaSendEapol_sm]
      rfl
    · rw [wpaSendEapol_sm]
      rfl
  mark _ h := h.same rfl rfl
  vlan _ h := h.same rfl rfl
  associate _ h _ := h.same rfl rfl
  noWpa h _ := h.same rfl rfl
  removePtk _ h _ := h.same rfl rfl
  timeout h _ := h.stirred rfl
  newPtk h _ := h.stirred rfl
  start h _ := h.stirred rfl
  associated _ h _ := h.stirred rfl
  startEvent _ _ h _ := h.stirred rfl
  event l ev h _ := by
    refine h.stirred ?_
    cases ev <;> rfl
  initDone h _ _ := h.stirred rfl
  initDoneEvent l ev h _ _ := by
    refine h.stirred ?_
    cases ev <;> rfl
  receive _ f h hidle _ _ := h.receive hidle f
  tail _ h hreq := h.keepRequest hreq rfl rfl

theorem Reach.still {s : Auth} (h : Reach S (fun _ _ => True) s) :
    Good (fun sm _ => Still sm) s := (resting_lifts S).reach h

/-- **The guard of the step loop**: whatever frames, timeouts and calls came before, no station is
stepped inside its own step, `in_step_loop` marks those being stepped, and between calls each
machine rests: it is out of the loop, and no change, request or reply is left unserved. -/
theorem step_loop_guarded {s : Auth} (h : Reach S (fun _ _ => True) s) :
    (loops s.stack).Nodup ∧
      (∀ id ∈ s.stas, (s.sm id).inStepLoop = true ↔ id ∈ loops s.stack) ∧
        (s.stack = [] → ∀ id ∈ s.stas,
          Idle (s.sm id) ∧ Rested (s.sm id) ∧ (s.sm id).groupReply = false) := by
  obtain ⟨hcontrol, hstill⟩ := h.still
  refine ⟨hcontrol.once, hcontrol.loop, fun hs id hid => ?_⟩
  have hidle := hcontrol.idle hs hid
  have hsm := hstill id hid
  exact ⟨hidle, hsm.rested hidle.changed hidle.init, hsm.noReply⟩

theorem step_loop_guarded_connected :
    Idle ((calls Small.setup 20 (wpaInit Small.group) (Small.connect 0 2#48)).sm 0) := by
  have hreach : Reach Small.setup (fun _ _ => True) _ :=
    Small.reach_init.afterCalls (fun _ _ => true) (fun _ _ _ => trivial) 20
      (Small.connect 0 2#48) (by decide +kernel)
  exact ((step_loop_guarded hreach).2.2 (by decide +kernel) 0 (by decide +kernel)).1

end Received

/-! ## A visit for a rekey -/

section Visit

variable {S : Setup}

/-- A machine at rest that has been visited for a rekey. -/
structure Marked (sm : Sm) : Prop where
  flag : sm.gUpdateStationKeys = true
  done : sm.wpaPtkState = .ptkInitDone
  none : NoRequests sm
  reset : sm.ptkGroupInit = false
  noReply : sm.groupReply = false
  group : sm.wpaPtkGroupState = .idle ∧ sm.gTimeoutCtr = 0 ∨
    sm.wpaPtkGroupState = .rekeyNegotiating ∧ sm.gTimeoutCtr ≤ groupUpdateCount ∧
      sm.timeoutEvt = false

theorem Still.marked (h : Still sm) (hidle : Idle sm) (hdone : sm.wpaPtkState = .ptkInitDone) :
    Marked { sm with gUpdateStationKeys := true } := by
  obtain ⟨⟨h1, h2, h3, h4, h5, h6⟩, hreset, hgroup⟩ := h.rested hidle.changed hidle.init
  refine ⟨rfl, hdone, ⟨h1, h2, h3, h4, h5, h6⟩, hreset, h.noReply, ?_⟩
  rcases hgroup with hst | hst
  · exact .inl ⟨hst, h.idle hst⟩
  · exact .inr hst

theorem Marked.stepMachines {l : Loc} (h : Marked l.sm) (halive : l.sm.pendingDeinit = false) :
    Marked (stepMachines S l).sm ∧ (stepMachines S l).sm.pendingDeinit = false := by
  obtain ⟨hflag, hdone, ⟨h1, h2, h3, h4, h5, h6⟩, hreset, hreply, hgroup⟩ := h
  set l0 : Loc := { l with sm := { l.sm with changed := false } } with hl0
  have hno : NoRequests l0.sm := ⟨h1, h2, h3, h4, h5, h6⟩
  have hptk : ptkStep S l0 = l0 := by
    rw [ptkStep_of_noRequests S hno, ptkSwitch, show l0.sm.wpaPtkState = .ptkInitDone from hdone]
  have hdef : WpaAuth.stepMachines S l = ptkGroupStep S l0 := by
    show (if (ptkStep S l0).sm.pendingDeinit then ptkStep S l0 else
      ptkGroupStep S (ptkStep S l0)) = _
    rw [hptk, show l0.sm.pendingDeinit = false from halive]
    rfl
  have hkeep : (l0.sm.init || l0.sm.ptkGroupInit) = false := by
    rw [show l0.sm.init = false from h1, show l0.sm.ptkGroupInit = false from hreset]
    rfl
  rw [hdef]
  rcases hgroup with ⟨hst, hctr⟩ | ⟨hst, hctr, htimeout⟩
  · -- the group key is sent
    have hstep : ptkGroupStep S l0 = enterRekeyNegotiating S l0 := by
      rw [ptkGroupStep, hkeep, show l0.sm.wpaPtkGroupState = .idle from hst,
        show l0.sm.gUpdateStationKeys = true from hflag]
      rfl
    obtain ⟨n, a, -, ha⟩ := enterRekeyNegotiating_eq S l0
    obtain ⟨kr, hkr⟩ := sendOpt_sm S { l0 with now := n, sm := l0.sm.rekeying } a
    have hctr' : l0.sm.rekeying.gTimeoutCtr = 1 := congrArg (· + 1) hctr
    have htimeout' : l0.sm.rekeying.timeoutEvt = false := by
      rw [Sm.rekeying, show l0.sm.gTimeoutCtr = 0 from hctr]
      exact Bool.and_false _
    rw [hstep, ha, hkr]
    refine ⟨⟨hflag, hdone, ⟨h1, h2, h3, h4, h5, h6⟩, hreset, hreply, .inr ⟨rfl, ?_, htimeout'⟩⟩,
      halive⟩
    exact hctr'.trans_le (by decide)
  · -- the key was sent before, and is waited for
    have hstep : ptkGroupStep S l0 = l0 := by
      rw [ptkGroupStep, hkeep, show l0.sm.wpaPtkGroupState = .rekeyNegotiating from hst,
        show l0.sm.groupReply = false from hreply, show l0.sm.timeoutEvt = false from htimeout]
      exact if_neg (Nat.not_lt_of_le hctr)
    rw [hstep]
    exact ⟨⟨hflag, hdone, ⟨h1, h2, h3, h4, h5, h6⟩, hreset, hreply, .inr ⟨hst, hctr, htimeout⟩⟩,
      halive⟩

end Visit

end Hostapd.Ap.WpaAuth
