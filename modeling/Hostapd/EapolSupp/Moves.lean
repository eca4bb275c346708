import Hostapd.EapolSupp.Machine
import Hostapd.EapolSupp.Notes

/-!
# The 802.1X supplicant: what one step of a machine does

* **`paeStep_move`**: in the mode Auto, a step of the PAE machine keeps what the other machines own
  (`PaeKeeps`) and does one of the things that `PaeMove` lists.
* **`keyRxStep_move`**: a step of the key receive machine can report a success, and only for a key
  frame (`KeyRxMove`).
* **`beStep_move`**: a step of the backend machine takes a success back or leaves it, and asks the
  EAP machine for nothing while it is quiet (`BeMove`, `BeQuiet`).
-/

namespace Hostapd.EapolSupp

open Hostapd.Lib

section Moves

variable {π : Type}

structure PaeKeeps (p q : EapolSm π) : Prop where
  eap : q.eap = p.eap
  eapReq : q.eapReq = p.eapReq
  idleWhile : q.idleWhile = p.idleWhile
  eapFail : q.eapFail = p.eapFail
  eapSuccess : q.eapSuccess = p.eapSuccess
  portEnabled : q.portEnabled = p.portEnabled
  initialise : q.initialise = p.initialise
  rxKey : q.rxKey = p.rxKey
  accept : q.accept8021xKeys = p.accept8021xKeys
  altAccept : q.altAccept = p.altAccept
  keyRxState : q.keyRxState = p.keyRxState
  beState : q.beState = p.beState
  portControl : q.portControl = p.portControl
  sPortMode : p.sPortMode = .auto → q.sPortMode = .auto

/-- The PAE machine is about to enter DISCONNECTED although the port is enabled. -/
def disconnects (sm : EapolSm π) : Bool :=
  (sm.paeState = .logoff && !sm.userLogoff) || (sm.paeState = .authenticated && !sm.portValid)

/-- What a step of the PAE machine does in the mode Auto. -/
inductive PaeMove (p q : EapolSm π) : Prop
  | disconnected (hnotes : q.notes = .pae p.paeState .disconnected :: p.notes)
      (habort : q.suppAbort = true) (hstate : q.paeState = .disconnected)
      (hcause : p.initialise = true ∨ p.portEnabled = false ∨ disconnects p = true)
      (hrestart : q.eapRestart = p.eapRestart) (hstart : q.suppStart = p.suppStart)
  | restart (hnotes : q.notes = .pae p.paeState .restart :: p.notes)
      (hrestart : q.eapRestart = true) (hup : p.portEnabled = true ∧ p.initialise = false)
      (habort : q.suppAbort = p.suppAbort) (hstart : q.suppStart = p.suppStart)
  | authenticated (hnotes : q.notes = .pae .authenticating .authenticated :: p.notes)
      (hstate : q.paeState = .authenticated) (hsuccess : p.eapSuccess = true)
      (hup : p.portEnabled = true ∧ p.initialise = false) (habort : q.suppAbort = p.suppAbort)
      (hrestart : q.eapRestart = p.eapRestart) (hstart : q.suppStart = p.suppStart)
  | authenticating (hnotes : q.notes = .pae p.paeState .authenticating :: p.notes)
      (hstate : q.paeState = .authenticating)
      (hcause : p.eapSuccess = true ∨ p.eapFail = true ∨
        (p.paeState = .restart ∧ p.eapRestart = false))
      (hup : p.portEnabled = true ∧ p.initialise = false) (habort : q.suppAbort = p.suppAbort)
      (hrestart : q.eapRestart = p.eapRestart)
  | other (hnotes : q.notes = p.notes ∨ ∃ old new, q.notes = .pae old new :: p.notes ∧
        Note.entersAnew (.pae old new) = false ∧ ¬ (old = .authenticating ∧ new = .authenticated))
      (hstate : q.paeState = .restart → p.paeState = .restart)
      (hup : p.portEnabled = true ∧ p.initialise = false) (habort : q.suppAbort = p.suppAbort)
      (hrestart : q.eapRestart = p.eapRestart) (hstart : q.suppStart = p.suppStart)

theorem PaeKeeps.refl (p : EapolSm π) : PaeKeeps p p :=
  ⟨rfl, rfl, rfl, rfl, rfl, rfl, rfl, rfl, rfl, rfl, rfl, rfl, rfl, id⟩

section Entries

variable (p : EapolSm π)

theorem paeConnecting_move (hup : p.portEnabled = true ∧ p.initialise = false) :
    PaeKeeps p (paeConnecting p) ∧ PaeMove p (paeConnecting p) := by
  by_cases h : p.paeState = .connecting <;>
  · refine ⟨?_, .other (.inr ⟨p.paeState, .connecting, ?_, rfl, fun h => nomatch h.2⟩) ?_ hup
      ?_ ?_ ?_⟩
    · constructor <;> simp [paeConnecting, h]
    all_goals simp [paeConnecting, h]

theorem paeHeld_move (hup : p.portEnabled = true ∧ p.initialise = false) :
    PaeKeeps p (paeHeld p) ∧ PaeMove p (paeHeld p) := by
  refine ⟨?_, .other (.inr ⟨p.paeState, .held, ?_, rfl, fun h => nomatch h.2⟩) ?_ hup ?_ ?_ ?_⟩
  · constructor <;> simp [paeHeld]
  all_goals simp [paeHeld]

theorem paeLogoff_move (hup : p.portEnabled = true ∧ p.initialise = false) :
    PaeKeeps p (paeLogoff p) ∧ PaeMove p (paeLogoff p) := by
  refine ⟨?_, .other (.inr ⟨p.paeState, .logoff, ?_, rfl, fun h => nomatch h.2⟩) ?_ hup ?_ ?_ ?_⟩
  · constructor <;> simp [paeLogoff]
  all_goals simp [paeLogoff]

theorem paeDisconnected_move (global : Bool)
    (hcause : p.initialise = true ∨ p.portEnabled = false ∨ disconnects p = true) :
    PaeKeeps p (paeDisconnected global p) ∧ PaeMove p (paeDisconnected global p) := by
  refine ⟨?_, .disconnected ?_ ?_ ?_ hcause ?_ ?_⟩
  · constructor <;> simp [paeDisconnected]
  all_goals simp [paeDisconnected]

theorem paeRestart_move (hup : p.portEnabled = true ∧ p.initialise = false) :
    PaeKeeps p (paeRestart p) ∧ PaeMove p (paeRestart p) := by
  refine ⟨?_, .restart ?_ ?_ hup ?_ ?_⟩
  · constructor <;> simp [paeRestart]
  all_goals simp [paeRestart]

theorem paeAuthenticating_move (hup : p.portEnabled = true ∧ p.initialise = false)
    (hcause : p.eapSuccess = true ∨ p.eapFail = true ∨
      (p.paeState = .restart ∧ p.eapRestart = false)) :
    PaeKeeps p (paeAuthenticating p) ∧ PaeMove p (paeAuthenticating p) := by
  refine ⟨?_, .authenticating ?_ ?_ hcause hup ?_ ?_⟩
  · constructor <;> simp [paeAuthenticating]
  all_goals simp [paeAuthenticating]

theorem paeAuthenticated_move (hup : p.portEnabled = true ∧ p.initialise = false)
    (hcause : p.paeState = .authenticating → p.eapSuccess = true) :
    PaeKeeps p (paeAuthenticated p) ∧ PaeMove p (paeAuthenticated p) := by
  constructor
  · constructor <;> simp [paeAuthenticated]
  · by_cases h : p.paeState = .authenticating
    · refine .authenticated ?_ ?_ (hcause h) hup ?_ ?_ ?_
      all_goals simp [paeAuthenticated, h]
    · refine .other (.inr ⟨p.paeState, .authenticated, ?_, rfl, fun hn => h hn.1⟩) ?_ hup ?_ ?_ ?_
      all_goals simp [paeAuthenticated]

theorem paeStay_move (hup : p.portEnabled = true ∧ p.initialise = false) :
    PaeKeeps p p ∧ PaeMove p p :=
  ⟨.refl p, .other (.inl rfl) id hup rfl rfl rfl⟩

end Entries

theorem PaeKeeps.trans {p q r : EapolSm π} (h : PaeKeeps p q) (h' : PaeKeeps q r) : PaeKeeps p r :=
  ⟨h'.eap.trans h.eap, h'.eapReq.trans h.eapReq, h'.idleWhile.trans h.idleWhile,
    h'.eapFail.trans h.eapFail, h'.eapSuccess.trans h.eapSuccess,
    h'.portEnabled.trans h.portEnabled, h'.initialise.trans h.initialise, h'.rxKey.trans h.rxKey,
    h'.accept.trans h.accept, h'.altAccept.trans h.altAccept, h'.keyRxState.trans h.keyRxState,
    h'.beState.trans h.beState, h'.portControl.trans h.portControl,
    fun hauto => h'.sPortMode (h.sPortMode hauto)⟩

theorem plaintextValid_keeps (p : EapolSm π) : PaeKeeps p (plaintextValid p) := by
  unfold plaintextValid
  split_ifs
  · constructor <;> simp
  · exact .refl p

theorem plaintextValid_move {p q : EapolSm π} (hstate : p.paeState = .authenticating)
    (h : PaeMove (plaintextValid p) q) : PaeMove p q := by
  have hkeep := plaintextValid_keeps p
  have hfields : (plaintextValid p).notes = p.notes ∧ (plaintextValid p).paeState = p.paeState ∧
      (plaintextValid p).suppAbort = p.suppAbort ∧ (plaintextValid p).eapRestart = p.eapRestart ∧
      (plaintextValid p).suppStart = p.suppStart := by
    unfold plaintextValid
    split_ifs <;> simp
  obtain ⟨hn, hst', ha, hr, hs⟩ := hfields
  have hdisc : disconnects (plaintextValid p) = false := by simp [disconnects, hst', hstate]
  generalize plaintextValid p = p' at *
  cases h with
  | disconnected hnotes habort hst hcause hrestart hstart =>
    refine .disconnected ?_ habort hst ?_ (hrestart.trans hr) (hstart.trans hs)
    · rw [hnotes, hn, hst']
    · rw [hkeep.initialise, hkeep.portEnabled, hdisc] at hcause
      exact hcause.imp_right fun h => .inl (h.resolve_right Bool.false_ne_true)
  | restart hnotes hrestart hup habort hstart =>
    refine .restart ?_ hrestart ?_ (habort.trans ha) (hstart.trans hs)
    · rw [hnotes, hn, hst']
    · rwa [hkeep.portEnabled, hkeep.initialise] at hup
  | authenticated hnotes hst hsuccess hup habort hrestart hstart =>
    refine .authenticated ?_ hst ?_ ?_ (habort.trans ha) (hrestart.trans hr) (hstart.trans hs)
    · rw [hnotes, hn]
    · rwa [hkeep.eapSuccess] at hsuccess
    · rwa [hkeep.portEnabled, hkeep.initialise] at hup
  | authenticating hnotes hst hcause hup habort hrestart =>
    refine .authenticating ?_ hst ?_ ?_ (habort.trans ha) (hrestart.trans hr)
    · rw [hnotes, hn, hst']
    · rwa [hkeep.eapSuccess, hkeep.eapFail, hst', hr] at hcause
    · rwa [hkeep.portEnabled, hkeep.initialise] at hup
  | other hnotes hst hup habort hrestart hstart =>
    refine .other ?_ ?_ ?_ (habort.trans ha) (hrestart.trans hr) (hstart.trans hs)
    · rwa [hn] at hnotes
    · rwa [hst'] at hst
    · rwa [hkeep.portEnabled, hkeep.initialise] at hup

theorem paeSwitch_move {p : EapolSm π} (hup : p.portEnabled = true ∧ p.initialise = false) :
    PaeKeeps p (paeSwitch p) ∧ PaeMove p (paeSwitch p) := by
  unfold paeSwitch
  cases hstate : p.paeState with
  | unknown | sForceAuth | sForceUnauth =>
    dsimp only
    exact paeStay_move p hup
  | logoff =>
    dsimp only
    split_ifs with h
    · exact paeStay_move p hup
    · exact paeDisconnected_move p false (.inr (.inr (by simp [disconnects, hstate, h])))
  | disconnected =>
    dsimp only
    exact paeConnecting_move p hup
  | connecting =>
    have hne : p.paeState = .authenticating → p.eapSuccess = true := by simp [hstate]
    dsimp only
    split_ifs with h1 h2 h3 h4 h5
    · exact paeConnecting_move p hup
    · exact paeAuthenticated_move p hup hne
    · exact paeAuthenticating_move p hup (h3.imp_right .inl)
    · exact paeRestart_move p hup
    · exact paeHeld_move p hup
    · exact paeStay_move p hup
  | authenticating =>
    have hkeep := plaintextValid_keeps p
    have hup' : (plaintextValid p).portEnabled = true ∧ (plaintextValid p).initialise = false := by
      rwa [hkeep.portEnabled, hkeep.initialise]
    suffices h : PaeKeeps (plaintextValid p) _ ∧ PaeMove (plaintextValid p) _ from
      ⟨hkeep.trans h.1, plaintextValid_move hstate h.2⟩
    dsimp only
    split_ifs with h1 h2 h3
    · exact paeAuthenticated_move _ hup' fun _ => h1.1
    · exact paeHeld_move _ hup'
    · exact paeConnecting_move _ hup'
    · exact paeStay_move _ hup'
  | held =>
    dsimp only
    split_ifs
    · exact paeConnecting_move p hup
    · exact paeRestart_move p hup
    · exact paeStay_move p hup
  | authenticated =>
    dsimp only
    split_ifs with h1 h2
    · exact paeRestart_move p hup
    · exact paeStay_move p hup
    · exact paeDisconnected_move p false (.inr (.inr (by simp [disconnects, hstate, h2])))
  | restart =>
    dsimp only
    split_ifs with h
    · exact paeStay_move p hup
    · exact paeAuthenticating_move p hup (.inr (.inr ⟨hstate, by simpa using h⟩))

theorem paeStep_move {p : EapolSm π} (hctrl : p.portControl = .auto) (hmode : p.sPortMode = .auto) :
    PaeKeeps p (paeStep p) ∧ PaeMove p (paeStep p) := by
  unfold paeStep
  by_cases hdown : (p.initialise || !p.portEnabled) = true
  · have hcause : p.initialise = true ∨ p.portEnabled = false ∨ disconnects p = true := by
      rcases Bool.or_eq_true_iff.mp hdown with h | h
      · exact .inl h
      · exact .inr (.inl (by simpa using h))
    simp only [hdown, not_true_eq_false, and_false, or_true, if_false, if_true]
    exact paeDisconnected_move p true hcause
  · have hup : p.portEnabled = true ∧ p.initialise = false := by
      simpa [and_comm] using hdown
    simp only [hdown, hctrl, hmode]
    simp only [ne_eq, not_true_eq_false, and_false, false_or, reduceCtorEq, if_false,
      not_false_eq_true, and_true, Bool.false_eq_true]
    split_ifs
    · exact paeLogoff_move p hup
    · exact paeSwitch_move hup

/-! ## The key receive and the backend machine -/

/-- Two states of the EAP machine in the same place of a conversation: they differ in packets and
keys. -/
structure SameCourse (e e' : EapSm π) : Prop where
  eapState : e'.eapState = e.eapState
  selectedMethod : e'.selectedMethod = e.selectedMethod
  methodState : e'.methodState = e.methodState
  decision : e'.decision = e.decision
  flags : e'.toDoneFlags = e.toDoneFlags
  numRounds : e'.numRounds = e.numRounds
  forceDisabled : e'.forceDisabled = e.forceDisabled

theorem SameCourse.refl (e : EapSm π) : SameCourse e e := ⟨rfl, rfl, rfl, rfl, rfl, rfl, rfl⟩

theorem SameCourse.trans {e e' e'' : EapSm π} (h : SameCourse e e') (h' : SameCourse e' e'') :
    SameCourse e e'' :=
  ⟨h'.1.trans h.1, h'.2.trans h.2, h'.3.trans h.3, h'.4.trans h.4, h'.5.trans h.5,
    h'.6.trans h.6, h'.7.trans h.7⟩

theorem sameCourse_keyAvailable (e : EapSm π) : SameCourse e (keyAvailable e) :=
  ⟨rfl, rfl, rfl, rfl, rfl, rfl, rfl⟩

/-- What no step of the key receive or of the backend machine changes. -/
structure Keeps (p q : EapolSm π) : Prop where
  course : SameCourse p.eap q.eap
  notes : q.notes = p.notes
  idleWhile : q.idleWhile = p.idleWhile
  eapFail : q.eapFail = p.eapFail
  portEnabled : q.portEnabled = p.portEnabled
  initialise : q.initialise = p.initialise
  eapRestart : q.eapRestart = p.eapRestart
  paeState : q.paeState = p.paeState
  altAccept : q.altAccept = p.altAccept
  portControl : q.portControl = p.portControl
  sPortMode : q.sPortMode = p.sPortMode

theorem Keeps.refl (p : EapolSm π) : Keeps p p :=
  ⟨.refl _, rfl, rfl, rfl, rfl, rfl, rfl, rfl, rfl, rfl, rfl⟩

/-- What a step of the key receive machine does: a key frame can report success. -/
structure KeyRxMove (p q : EapolSm π) : Prop extends Keeps p q where
  eapReq : q.eapReq = p.eapReq
  suppAbort : q.suppAbort = p.suppAbort
  suppStart : q.suppStart = p.suppStart
  beState : q.beState = p.beState
  eapSuccess : q.eapSuccess = true → p.eapSuccess = true ∨
    (p.rxKey = true ∧ p.accept8021xKeys = true ∧ canSucceed p.eap = true)
  started : (p.keyRxState = .unknown → p.initialise = true) → q.keyRxState ≠ .unknown
  rxKey : (p.keyRxState = .unknown → p.initialise = true) → q.rxKey = false

section KeyRx

variable (crypto : EapolCrypto) (w : World π)

theorem installKey_eq (frame key : Bytes) (p : EapolSm π) :
    ∃ valid counter unicast broadcast port out, installKey w frame key p = { p with
      replayCounterValid := valid, lastReplayCounter := counter, unicastKeyReceived := unicast
      broadcastKeyReceived := broadcast, portValid := port, out := out } := by
  unfold installKey
  dsimp only [EapolSm.emit]
  split_ifs <;> exact ⟨_, _, _, _, _, _, rfl⟩

theorem checkKey_eq (frame : Bytes) (p : EapolSm π) :
    ∃ valid counter unicast broadcast port out, checkKey crypto w frame p = { p with
      replayCounterValid := valid, lastReplayCounter := counter, unicastKeyReceived := unicast
      broadcastKeyReceived := broadcast, portValid := port, out := out } := by
  unfold checkKey
  cases masterKey p.eap with
  | none => exact ⟨_, _, _, _, _, _, rfl⟩
  | some keys =>
    dsimp only
    split_ifs
    · exact ⟨_, _, _, _, _, _, rfl⟩
    · exact ⟨_, _, _, _, _, _, rfl⟩
    · cases frameKey crypto keys.1 frame (beNat ((frame.drop 2).take 2) - 44)
        (beNat ((frame.drop 5).take 2)) with
      | none => exact ⟨_, _, _, _, _, _, rfl⟩
      | some key => exact installKey_eq w frame key p

theorem notifyLowerLayerSuccess_eq (p : EapolSm π) :
    notifyLowerLayerSuccess p = p ∨ canSucceed p.eap = true ∧
      notifyLowerLayerSuccess p = { p with eap := keyAvailable p.eap, eapSuccess := true } := by
  unfold notifyLowerLayerSuccess
  split_ifs with h
  · exact .inl rfl
  · exact .inr ⟨by simpa using (not_or.mp h).2, rfl⟩

theorem processKey_eq (p : EapolSm π) :
    ∃ eap success valid counter unicast broadcast port out, processKey crypto w p = { p with
      eap := eap, eapSuccess := success, replayCounterValid := valid, lastReplayCounter := counter
      unicastKeyReceived := unicast, broadcastKeyReceived := broadcast, portValid := port
      out := out } ∧ SameCourse p.eap eap ∧ (success = true → p.eapSuccess = true ∨
        (p.accept8021xKeys = true ∧ canSucceed p.eap = true)) := by
  have hcases : processKey crypto w p = p ∨ p.accept8021xKeys = true ∧
      ∃ frame, processKey crypto w p = checkKey crypto w frame (notifyLowerLayerSuccess p) := by
    unfold processKey
    split
    · exact .inl rfl
    · split_ifs with haccept
      · exact .inl rfl
      · exact .inr ⟨haccept, _, rfl⟩
      · exact .inl rfl
  rcases hcases with hp | ⟨haccept, frame, hp⟩
  · exact ⟨_, _, _, _, _, _, _, _, hp, .refl _, .inl⟩
  rw [hp]
  rcases notifyLowerLayerSuccess_eq p with hn | ⟨hcan, hn⟩
  · obtain ⟨_, _, _, _, _, _, hkey⟩ := checkKey_eq crypto w frame p
    rw [hn, hkey]
    exact ⟨_, _, _, _, _, _, _, _, rfl, .refl _, .inl⟩
  · obtain ⟨_, _, _, _, _, _, hkey⟩ := checkKey_eq crypto w frame
      { p with eap := keyAvailable p.eap, eapSuccess := true }
    rw [hn, hkey]
    exact ⟨_, _, _, _, _, _, _, _, rfl, sameCourse_keyAvailable _, fun _ => .inr ⟨haccept, hcan⟩⟩

theorem keyRxBegin_eq (p : EapolSm π) :
    ∃ st changed, (if p.initialise = true ∨ ¬ p.portEnabled = true then
        keyRxEntry true .noKeyReceive p else p) = { p with keyRxState := st, changed := changed } ∧
      ((p.keyRxState = .unknown → p.initialise = true) → st ≠ .unknown) := by
  split_ifs with h
  · exact ⟨_, _, rfl, fun _ => KeyRxState.noConfusion⟩
  · exact ⟨p.keyRxState, p.changed, rfl, fun hp hn => h (.inl (hp hn))⟩

theorem keyRxStep_move (p : EapolSm π) : KeyRxMove p (keyRxStep crypto w p) := by
  obtain ⟨st, changed, hbegin, hknown⟩ := keyRxBegin_eq p
  unfold keyRxStep
  rw [hbegin]
  dsimp only
  split_ifs with h
  · obtain ⟨eap, success, _, _, _, _, _, _, hkey, hcourse, hsuccess⟩ := processKey_eq crypto w
      (keyRxEntry false .keyReceive { p with keyRxState := st, changed := changed })
    rw [hkey]
    exact {
      course := hcourse, notes := rfl, idleWhile := rfl, eapFail := rfl, portEnabled := rfl
      initialise := rfl, eapRestart := rfl, paeState := rfl, altAccept := rfl, portControl := rfl
      sPortMode := rfl, eapReq := rfl, suppAbort := rfl, suppStart := rfl, beState := rfl
      eapSuccess := fun hs => (hsuccess hs).imp_right fun hcan => ⟨h.2, hcan⟩
      started := fun _ => KeyRxState.noConfusion
      rxKey := fun _ => rfl }
  · exact {
      course := .refl _, notes := rfl, idleWhile := rfl, eapFail := rfl, portEnabled := rfl
      initialise := rfl, eapRestart := rfl, paeState := rfl, altAccept := rfl, portControl := rfl
      sPortMode := rfl, eapReq := rfl, suppAbort := rfl, suppStart := rfl, beState := rfl
      eapSuccess := .inl
      started := hknown
      rxKey := fun hp => by simpa using fun hrx => h ⟨hknown hp, hrx⟩ }

end KeyRx

/-- The backend machine has not been asked to begin. -/
def BeQuiet (sm : EapolSm π) : Prop :=
  sm.beState = .initialise ∨ (sm.beState = .idle ∧ sm.suppStart = false)

/-- What a step of the backend machine does: it takes a success back or leaves it. -/
structure BeMove (p q : EapolSm π) : Prop extends Keeps p q where
  keyRxState : q.keyRxState = p.keyRxState
  rxKey : q.rxKey = p.rxKey
  suppAbort : q.suppAbort = false
  eapSuccess : q.eapSuccess = true →
    p.eapSuccess = true ∧ p.suppAbort = false ∧ p.initialise = false
  abort : p.suppAbort = true → BeQuiet q ∧ q.eapReq = p.eapReq
  quiet : BeQuiet p → BeQuiet q ∧ q.eapReq = p.eapReq

theorem beInitialise_keeps (p : EapolSm π) : Keeps p (beInitialise p) := by
  constructor
  case course => exact ⟨rfl, rfl, rfl, rfl, rfl, rfl, rfl⟩
  all_goals simp [beInitialise, eapAbort, beEntry]

theorem beInitialise_move (p : EapolSm π) : BeMove p (beInitialise p) := by
  constructor
  case toKeeps => exact beInitialise_keeps p
  all_goals simp [beInitialise, eapAbort, beEntry, BeQuiet]

theorem Keeps.beMove {p q : EapolSm π} (hkeep : Keeps p q)
    (hup : p.initialise = false ∧ p.suppAbort = false)
    (hkey : q.keyRxState = p.keyRxState ∧ q.rxKey = p.rxKey)
    (hsame : q.suppAbort = p.suppAbort ∧ q.eapSuccess = p.eapSuccess)
    (hquiet : BeQuiet p → BeQuiet q ∧ q.eapReq = p.eapReq) : BeMove p q where
  toKeeps := hkeep
  keyRxState := hkey.1
  rxKey := hkey.2
  suppAbort := hsame.1.trans hup.2
  eapSuccess := fun hs => ⟨hsame.2.symm.trans hs, hup.2, hup.1⟩
  abort := fun ha => absurd (hup.2.symm.trans ha) Bool.false_ne_true
  quiet := hquiet

section BeEntries

variable (p : EapolSm π)

theorem beRequest_keeps : Keeps p (beRequest p) := by
  constructor
  case course => exact .refl _
  all_goals simp [beRequest, beEntry]

theorem beResponse_keeps : Keeps p (beResponse p) := by
  unfold beResponse
  dsimp only
  split <;> constructor
  case h_1.course | h_2.course => exact ⟨rfl, rfl, rfl, rfl, rfl, rfl, rfl⟩
  all_goals simp [beEntry]

theorem beResponse_same :
    ((beResponse p).keyRxState = p.keyRxState ∧ (beResponse p).rxKey = p.rxKey) ∧
      (beResponse p).suppAbort = p.suppAbort ∧ (beResponse p).eapSuccess = p.eapSuccess := by
  unfold beResponse
  dsimp only
  split <;> simp [beEntry]

theorem beSuccess_keeps : Keeps p (beSuccess p) := by
  constructor
  case course => exact .refl _
  all_goals simp [beSuccess, beEntry]

theorem beFail_keeps : Keeps p (beFail p) := by
  constructor
  case course => exact .refl _
  all_goals simp [beFail, beEntry]

theorem beTimeout_keeps : Keeps p (beTimeout p) := by
  constructor
  case course => exact .refl _
  all_goals simp [beTimeout, beEntry]

theorem beIdle_keeps : Keeps p (beIdle p) := by
  constructor
  case course => exact .refl _
  all_goals simp [beIdle, beEntry]

theorem beReceive_keeps : Keeps p (beReceive p) := by
  constructor
  case course => exact .refl _
  all_goals simp [beReceive, beEntry]

end BeEntries

theorem beStep_move (p : EapolSm π) : BeMove p (beStep p) := by
  unfold beStep
  by_cases hdown : p.initialise = true ∨ p.suppAbort = true
  · rw [if_pos hdown]
    exact beInitialise_move p
  rw [if_neg hdown]
  have hup : p.initialise = false ∧ p.suppAbort = false := by simpa using hdown
  have hstay : BeMove p p := (Keeps.refl p).beMove hup ⟨rfl, rfl⟩ ⟨rfl, rfl⟩ fun h => ⟨h, rfl⟩
  -- a state in which the machine has been asked to begin
  have hbusy (h : p.beState ≠ .initialise ∧ (p.beState = .idle → p.suppStart = true)) :
      ¬ BeQuiet p := fun hq => hq.elim h.1 fun hi => by simp [h.2 hi.1] at hi
  have hrequest (h : ¬ BeQuiet p) : BeMove p (beRequest p) :=
    (beRequest_keeps p).beMove hup ⟨rfl, rfl⟩ ⟨rfl, rfl⟩ (absurd · h)
  have hsuccess (h : ¬ BeQuiet p) : BeMove p (beSuccess p) :=
    (beSuccess_keeps p).beMove hup ⟨rfl, rfl⟩ ⟨rfl, rfl⟩ (absurd · h)
  have hfail (h : ¬ BeQuiet p) : BeMove p (beFail p) :=
    (beFail_keeps p).beMove hup ⟨rfl, rfl⟩ ⟨rfl, rfl⟩ (absurd · h)
  have hreceive (h : ¬ BeQuiet p) : BeMove p (beReceive p) :=
    (beReceive_keeps p).beMove hup ⟨rfl, rfl⟩ ⟨rfl, rfl⟩ (absurd · h)
  have htimeout (h : ¬ BeQuiet p) : BeMove p (beTimeout p) :=
    (beTimeout_keeps p).beMove hup ⟨rfl, rfl⟩ ⟨rfl, rfl⟩ (absurd · h)
  have hresponse (h : ¬ BeQuiet p) : BeMove p (beResponse p) :=
    (beResponse_keeps p).beMove hup (beResponse_same p).1 (beResponse_same p).2 (absurd · h)
  have hidle : BeMove p (beIdle p) :=
    (beIdle_keeps p).beMove hup ⟨rfl, rfl⟩ ⟨rfl, rfl⟩ fun _ => ⟨.inr ⟨rfl, rfl⟩, rfl⟩
  cases hst : p.beState with
  | unknown => exact hstay
  | success | fail | timeout | initialise => exact hidle
  | response => exact hreceive (hbusy (by simp [hst]))
  | request =>
    have h := hbusy (by simp [hst])
    dsimp only
    split_ifs
    · exact hresponse h
    · exact hreceive h
    · exact hfail h
    · exact hsuccess h
    · exact hstay
  | idle =>
    dsimp only
    split_ifs with h1 h2 h3
    · exact hfail (hbusy (by simp [hst, h1.2]))
    · exact hrequest (hbusy (by simp [hst, h2.2]))
    · exact hsuccess (hbusy (by simp [hst, h3.2]))
    · exact hstay
  | receive =>
    have h := hbusy (by simp [hst])
    dsimp only
    split_ifs
    · exact hrequest h
    · exact hfail h
    · exact htimeout h
    · exact hsuccess h
    · exact hstay

end Moves

end Hostapd.EapolSupp
