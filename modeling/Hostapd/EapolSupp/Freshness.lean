import Hostapd.EapolSupp.EapMoves
import Hostapd.EapolSupp.Moves

/-!
# The 802.1X supplicant: authorization is fresh

Every entry of AUTHENTICATED from AUTHENTICATING has been earned, in every run in which a success
that outlived its conversation is not reported again (`Calm`).

A conversation that is aborted leaves the decision of its method behind, until the EAP machine is
initialized again: the state is a `Leftover`. Three things turn it into a success without a new
conversation: a report of the lower layer, an EAPOL-Key frame, which reports by itself, and the end
of the idle time.

* **`AtTurn.atEap`**, `AtEap.stepped` and **`AtEap.atRest`** are the steps of the program, and
  `AtRest.outside` is what happens from outside.
* **`run_authFresh`** says it of whole runs.
-/

namespace Hostapd.EapolSupp

open Hostapd.Lib

section Freshness

variable {π : Type}

/-- The port is enabled, and the conversation that the EAP machine has is one from before the PAE
machine last began anew. -/
def Leftover (sm : EapolSm π) : Prop := ¬ Initialised sm.notes ∧ sm.portEnabled = true

instance (sm : EapolSm π) : Decidable (Leftover sm) := inferInstanceAs (Decidable (_ ∧ _))

structure Sound (sm : EapolSm π) : Prop where
  fresh : AuthFresh sm.notes
  current : sm.eap.decision ≠ .fail → Current sm.notes
  failState : sm.eapFail = true → sm.eap.eapState = .failure ∨ sm.eap.eapState = .disabled
  rounds : maxAuthRounds < sm.eap.numRounds → sm.eap.eapState = .failure ∨
    (sm.eap.numRounds = maxAuthRounds + 1 ∧ sm.eap.eapState = .received)
  altAccept : sm.altAccept = false
  portControl : sm.portControl = .auto
  sPortMode : sm.sPortMode = .auto
  down : sm.initialise = true → sm.portEnabled = false

structure AtTurn (sm : EapolSm π) : Prop extends Sound sm where
  success : sm.eapSuccess = true → Earned sm.notes ∨ sm.portEnabled = false
  suppAbort : sm.suppAbort = false
  eapRestart : sm.eapRestart = false
  keyRx : sm.keyRxState = .unknown → sm.initialise = true
  settled : sm.portEnabled = true → Settled sm
  idle : idleSuccess sm = true → Initialised sm.notes ∧ disconnects sm = false
  quiet : Initialised sm.notes ∨ sm.portEnabled = false ∨ sm.eap.eapState ≠ .idle ∨ BeQuiet sm
  key : sm.rxKey = true → sm.accept8021xKeys = true → canSucceed sm.eap = true →
    Initialised sm.notes ∨ sm.portEnabled = false
  restart : sm.paeState = .restart → Initialised sm.notes

structure AtEap (sm : EapolSm π) : Prop extends Sound sm where
  success : sm.eapSuccess = true → Earned sm.notes ∨ sm.eapRestart = true
  suppAbort : sm.suppAbort = false
  eapRestart : sm.eapRestart = true → sm.portEnabled = true ∧ sm.eap.eapState ≠ .initialise
  keyRx : sm.keyRxState ≠ .unknown
  rxKey : sm.rxKey = false
  quiet : Initialised sm.notes ∨ sm.eapRestart = true ∨ sm.portEnabled = false ∨
    (Settled sm ∧ idleSuccess sm = false ∧ (sm.eap.eapState = .idle → BeQuiet sm))
  restart : sm.paeState = .restart → Initialised sm.notes ∨ sm.eapRestart = true

structure AtRest (sm : EapolSm π) : Prop extends Sound sm where
  success : sm.eapSuccess = true → Earned sm.notes
  suppAbort : sm.suppAbort = false
  eapRestart : sm.eapRestart = false
  keyRx : sm.keyRxState ≠ .unknown
  rxKey : sm.rxKey = false
  settled : Settled sm
  idle : sm.eap.eapState = .idle → sm.idleWhile ≠ 0
  disabled : sm.portEnabled = false → sm.eap.eapState = .disabled
  quiet : Initialised sm.notes ∨ sm.portEnabled = false ∨ sm.eap.eapState ≠ .idle ∨ BeQuiet sm
  restart : sm.paeState = .restart → Initialised sm.notes

variable {p q : EapolSm π}

theorem Sound.frame (h : Sound p)
    (heq : (q.notes, q.eap, q.eapFail, q.altAccept, q.portControl, q.sPortMode, q.initialise,
      q.portEnabled) = (p.notes, p.eap, p.eapFail, p.altAccept, p.portControl, p.sPortMode,
      p.initialise, p.portEnabled)) : Sound q := by
  simp only [Prod.mk.injEq] at heq
  obtain ⟨h1, h2, h3, h4, h5, h6, h7, h8⟩ := heq
  exact ⟨h1 ▸ h.fresh, h1 ▸ h2 ▸ h.current, h2 ▸ h3 ▸ h.failState, h2 ▸ h.rounds, h4 ▸ h.altAccept,
    h5 ▸ h.portControl, h6 ▸ h.sPortMode, h7 ▸ h8 ▸ h.down⟩

def Fresh (sm : EapolSm π) : Prop :=
  match sm.pc with
  | .rest => AtRest sm
  | .turn _ => AtTurn sm
  | .eap _ _ => AtEap sm

theorem AtRest.not_idleSuccess {sm : EapolSm π} (h : AtRest sm) : idleSuccess sm = false :=
  Bool.eq_false_iff.mpr fun hi => by
    simp only [idleSuccess, Bool.and_eq_true, decide_eq_true_eq] at hi
    exact h.idle hi.1.1 hi.1.2

/-! ## The EAPOL machines are run -/

theorem SameCourse.settled (h : SameCourse p.eap q.eap)
    (hreq : q.eapReq = p.eapReq ∨ p.eap.eapState ≠ .idle) (hp : Settled p) : Settled q := by
  have hdone : methodDone q.eap = methodDone p.eap := by
    simp only [methodDone, h.selectedMethod, h.flags, h.decision, h.methodState]
  unfold Settled at *
  rw [h.eapState, hdone]
  rcases hreq with hreq | hidle
  · rwa [hreq]
  · exact hp.imp_right (.imp_right (.imp_right fun hi => absurd hi.1 hidle))

theorem SameCourse.idleSuccess (h : SameCourse p.eap q.eap)
    (hwhile : q.idleWhile = p.idleWhile) : idleSuccess q = idleSuccess p := by
  simp only [EapolSupp.idleSuccess, h.eapState, h.decision, hwhile]

theorem Sound.keeps (h : Sound p) (hkeep : Keeps p q) : Sound q where
  fresh := hkeep.notes ▸ h.fresh
  current hd := hkeep.notes ▸ h.current (hkeep.course.decision ▸ hd)
  failState hf := by
    rw [hkeep.course.eapState]
    exact h.failState (hkeep.eapFail ▸ hf)
  rounds hr := by
    rw [hkeep.course.numRounds, hkeep.course.eapState]
    exact h.rounds (hkeep.course.numRounds ▸ hr)
  altAccept := hkeep.altAccept.trans h.altAccept
  portControl := hkeep.portControl.trans h.portControl
  sPortMode := hkeep.sPortMode.trans h.sPortMode
  down hi := hkeep.portEnabled.trans (h.down (hkeep.initialise ▸ hi))

theorem Sound.paeKeeps (h : Sound p) (hkeep : PaeKeeps p q)
    (hfresh : AuthFresh q.notes) (hcurrent : Current p.notes → Current q.notes) : Sound q where
  fresh := hfresh
  current hd := hcurrent (h.current (hkeep.eap ▸ hd))
  failState hf := by
    rw [hkeep.eap]
    exact h.failState (hkeep.eapFail ▸ hf)
  rounds hr := by
    rw [hkeep.eap] at hr ⊢
    exact h.rounds hr
  altAccept := hkeep.altAccept.trans h.altAccept
  portControl := hkeep.portControl.trans h.portControl
  sPortMode := hkeep.sPortMode h.sPortMode
  down hi := hkeep.portEnabled.trans (h.down (hkeep.initialise ▸ hi))

theorem turn_course {p q r s : EapolSm π} (hpq : PaeKeeps p q) (hqr : KeyRxMove q r)
    (hrs : BeMove r s) : SameCourse p.eap s.eap := by
  have hcourse := hqr.course
  rw [hpq.eap] at hcourse
  exact hcourse.trans hrs.course

section Turn

variable {p q r s : EapolSm π} (hp : AtTurn p) (hpq : PaeKeeps p q) (hqr : KeyRxMove q r)
  (hrs : BeMove r s)
include hp hpq hqr hrs

theorem AtTurn.known : s.keyRxState ≠ .unknown ∧ s.rxKey = false := by
  have hknown : q.keyRxState = .unknown → q.initialise = true := fun h =>
    hpq.initialise.trans (hp.keyRx (hpq.keyRxState ▸ h))
  exact ⟨hrs.keyRxState ▸ hqr.started hknown, hrs.rxKey.trans (hqr.rxKey hknown)⟩

/-- The PAE machine enters DISCONNECTED: the conversation is aborted, and the backend machine does
not ask the EAP machine for anything. -/
theorem AtTurn.disconnected (hnotes : q.notes = .pae p.paeState .disconnected :: p.notes)
    (habort : q.suppAbort = true) (hstate : q.paeState = .disconnected)
    (hcause : p.initialise = true ∨ p.portEnabled = false ∨ disconnects p = true)
    (hrestart : q.eapRestart = p.eapRestart) : AtEap s := by
  have hcourse := turn_course hpq hqr hrs
  have hport : s.portEnabled = p.portEnabled :=
    (hrs.portEnabled.trans hqr.portEnabled).trans hpq.portEnabled
  have hquiet := hrs.abort (hqr.suppAbort.trans habort)
  have hfresh : AuthFresh q.notes := hnotes ▸ hp.fresh.cons fun h => by simp at h
  have hsound : Sound q := hp.toSound.paeKeeps hpq hfresh fun h => hnotes ▸ h.cons (by simp)
  have heap : s.eapRestart = false :=
    (hrs.eapRestart.trans hqr.eapRestart).trans (hrestart.trans hp.eapRestart)
  refine {
    toSound := (hsound.keeps hqr.toKeeps).keeps hrs.toKeeps
    success := fun hs => ?_
    suppAbort := hrs.suppAbort
    eapRestart := fun h => absurd (heap.symm.trans h) Bool.false_ne_true
    keyRx := (hp.known hpq hqr hrs).1
    rxKey := (hp.known hpq hqr hrs).2
    quiet := ?_
    restart := fun h => ?_ }
  · -- the abort has taken the success back
    have := (hrs.eapSuccess hs).2.1
    rw [hqr.suppAbort, habort] at this
    exact absurd this Bool.noConfusion
  · by_cases hup : s.portEnabled = true
    · have hup' : p.portEnabled = true := hport ▸ hup
      have hreq : s.eapReq = p.eapReq := hquiet.2.trans (hqr.eapReq.trans hpq.eapReq)
      have hwhile : s.idleWhile = p.idleWhile :=
        (hrs.idleWhile.trans hqr.idleWhile).trans hpq.idleWhile
      have hdisc : disconnects p = true := by
        rcases hcause with h | h | h
        · exact absurd ((hp.down h).symm.trans hup') Bool.false_ne_true
        · exact absurd (h.symm.trans hup') Bool.false_ne_true
        · exact h
      have hidle : idleSuccess p = false := Bool.eq_false_iff.mpr fun hi =>
        absurd ((hp.idle hi).2.symm.trans hdisc) Bool.false_ne_true
      exact .inr (.inr (.inr ⟨hcourse.settled (.inl hreq) (hp.settled hup'),
        (hcourse.idleSuccess hwhile).trans hidle, fun _ => hquiet.1⟩))
    · exact .inr (.inr (.inl (Bool.not_eq_true _ ▸ hup)))
  · rw [hrs.paeState, hqr.paeState, hstate] at h
    exact absurd h PaeState.noConfusion

theorem AtTurn.restarted (hnotes : q.notes = .pae p.paeState .restart :: p.notes)
    (hrestart : q.eapRestart = true) (hup : p.portEnabled = true) : AtEap s := by
  have hcourse := turn_course hpq hqr hrs
  have hport : s.portEnabled = p.portEnabled :=
    (hrs.portEnabled.trans hqr.portEnabled).trans hpq.portEnabled
  have hfresh : AuthFresh q.notes := hnotes ▸ hp.fresh.cons fun h => by simp at h
  have hsound : Sound q := hp.toSound.paeKeeps hpq hfresh fun h => hnotes ▸ h.cons (by simp)
  have heap : s.eapRestart = true := (hrs.eapRestart.trans hqr.eapRestart).trans hrestart
  have hstate : s.eap.eapState ≠ .initialise := fun h => by
    have hsettled := hp.settled hup
    rw [hcourse.eapState] at h
    simp [Settled, h] at hsettled
  exact {
    toSound := (hsound.keeps hqr.toKeeps).keeps hrs.toKeeps
    success := fun _ => .inr heap
    suppAbort := hrs.suppAbort
    eapRestart := fun _ => ⟨hport.trans hup, hstate⟩
    keyRx := (hp.known hpq hqr hrs).1
    rxKey := (hp.known hpq hqr hrs).2
    quiet := .inr (.inl heap)
    restart := fun _ => .inr heap }

theorem AtTurn.goesOn (hfresh : AuthFresh q.notes)
    (hgrow : q.notes = p.notes ∨ ∃ n, q.notes = n :: p.notes ∧ n.entersAnew = false ∧
      n ≠ .eapInitialise)
    (hup : p.portEnabled = true) (hrestart : q.eapRestart = p.eapRestart)
    (hstate : q.paeState = .restart → p.paeState = .restart)
    (hstart : q.suppStart = p.suppStart ∨ p.eap.eapState ≠ .idle ∨ Initialised p.notes) :
    AtEap s := by
  have hcourse := turn_course hpq hqr hrs
  have hport : s.portEnabled = true :=
    ((hrs.portEnabled.trans hqr.portEnabled).trans hpq.portEnabled).trans hup
  have hnot (h : p.portEnabled = false) : False := absurd (h.symm.trans hup) Bool.false_ne_true
  -- the notes lose nothing
  have hinit (h : Initialised p.notes) : Initialised q.notes := by
    rcases hgrow with hn | ⟨n, hn, hanew, -⟩
    · exact hn ▸ h
    · exact hn ▸ h.cons hanew
  have hearn (h : Earned p.notes) : Earned q.notes := by
    rcases hgrow with hn | ⟨n, hn, hanew, -⟩
    · exact hn ▸ h
    · exact hn ▸ h.cons hanew
  have hcurrent (h : Current p.notes) : Current q.notes := by
    rcases hgrow with hn | ⟨n, hn, -, hne⟩
    · exact hn ▸ h
    · exact hn ▸ h.cons hne
  have hnotes : s.notes = q.notes := hrs.notes.trans hqr.notes
  have heap : s.eapRestart = false :=
    (hrs.eapRestart.trans hqr.eapRestart).trans (hrestart.trans hp.eapRestart)
  refine {
    toSound := ((hp.toSound.paeKeeps hpq hfresh hcurrent).keeps hqr.toKeeps).keeps hrs.toKeeps
    success := fun hs => .inl (hnotes ▸ ?_)
    suppAbort := hrs.suppAbort
    eapRestart := fun h => absurd (heap.symm.trans h) Bool.false_ne_true
    keyRx := (hp.known hpq hqr hrs).1
    rxKey := (hp.known hpq hqr hrs).2
    quiet := ?_
    restart := fun h => .inl (hnotes ▸ ?_) }
  · rcases hqr.eapSuccess (hrs.eapSuccess hs).1 with h | ⟨hrx, haccept, hcan⟩
    · exact hearn ((hp.success (hpq.eapSuccess ▸ h)).resolve_right hnot)
    · -- a key frame has reported the success
      rw [hpq.rxKey] at hrx
      rw [hpq.accept] at haccept
      rw [hpq.eap] at hcan
      have hdecision : p.eap.decision ≠ .fail := by
        simp only [canSucceed, Bool.and_eq_true, decide_eq_true_eq] at hcan
        exact hcan.1
      have hi := (hp.key hrx haccept hcan).resolve_right hnot
      exact hearn (Earned.of_initialised hi (hp.current hdecision))
  · by_cases hi : Initialised p.notes
    · exact .inl (hnotes ▸ hinit hi)
    have hidle : idleSuccess p = false := Bool.eq_false_iff.mpr fun h => hi (hp.idle h).1
    have hwhile : s.idleWhile = p.idleWhile :=
      (hrs.idleWhile.trans hqr.idleWhile).trans hpq.idleWhile
    refine .inr (.inr (.inr ?_))
    rw [hcourse.idleSuccess hwhile, hidle]
    by_cases hst : p.eap.eapState = .idle
    · have hquiet : BeQuiet q := by
        have hquiet : BeQuiet p := by
          rcases hp.quiet with h | h | h | h
          · exact absurd h hi
          · exact (hnot h).elim
          · exact absurd hst h
          · exact h
        have hsame := (hstart.resolve_right (not_or.mpr ⟨not_not.mpr hst, hi⟩))
        unfold BeQuiet at *
        rwa [hpq.beState, hsame]
      have hquiet' : BeQuiet r := by
        unfold BeQuiet at *
        rwa [hqr.beState, hqr.suppStart]
      obtain ⟨hs, hreq⟩ := hrs.quiet hquiet'
      have hreq' : s.eapReq = p.eapReq := hreq.trans (hqr.eapReq.trans hpq.eapReq)
      exact ⟨hcourse.settled (.inl hreq') (hp.settled hup), rfl, fun _ => hs⟩
    · refine ⟨hcourse.settled (.inr hst) (hp.settled hup), rfl, fun h => ?_⟩
      exact absurd (hcourse.eapState ▸ h) hst
  · rw [hrs.paeState, hqr.paeState] at h
    exact hinit (hp.restart (hstate h))

theorem AtTurn.atEap (hmove : PaeMove p q) : AtEap s := by
  cases hmove with
  | disconnected hnotes habort hstate hcause hrestart _ =>
    exact hp.disconnected hpq hqr hrs hnotes habort hstate hcause hrestart
  | restart hnotes hrestart hup _ _ => exact hp.restarted hpq hqr hrs hnotes hrestart hup.1
  | authenticated hnotes hstate hsuccess hup _ hrestart hstart =>
    have hearned : Earned p.notes := (hp.success hsuccess).resolve_right (by simp [hup.1])
    refine hp.goesOn hpq hqr hrs (hnotes ▸ hp.fresh.cons fun _ => hearned)
      (.inr ⟨_, hnotes, rfl, by simp⟩) hup.1 hrestart (by simp [hstate]) (.inl hstart)
  | authenticating hnotes hstate hcause hup _ hrestart =>
    refine hp.goesOn hpq hqr hrs (hnotes ▸ hp.fresh.cons fun h => by simp at h)
      (.inr ⟨_, hnotes, rfl, by simp⟩) hup.1 hrestart (by simp [hstate]) (.inr ?_)
    rcases hcause with h | h | h
    · exact .inr ((hp.success h).resolve_right (by simp [hup.1])).initialised
    · exact .inl (by rcases hp.failState h with h | h <;> simp [h])
    · exact .inr (hp.restart h.1)
  | other hnotes hstate hup _ hrestart hstart =>
    have hgrow : q.notes = p.notes ∨ ∃ n, q.notes = n :: p.notes ∧ n.entersAnew = false ∧
        n ≠ .eapInitialise :=
      hnotes.imp_right fun ⟨old, new, h, hanew, _⟩ => ⟨_, h, hanew, by simp⟩
    refine hp.goesOn hpq hqr hrs ?_ hgrow hup.1 hrestart hstate (.inl hstart)
    rcases hnotes with h | ⟨old, new, h, -, hne⟩
    · exact h ▸ hp.fresh
    · exact h ▸ hp.fresh.cons fun hn => by
        injection hn with h1 h2
        exact absurd ⟨h1, h2⟩ hne

end Turn

/-! ## The loop of the EAP machine -/

section Loop

variable {p q : EapolSm π} (hp : AtEap p) (hkeep : EapKeeps p q) (hmove : EapMove p q)
include hp

/-- A transition of a conversation belongs to one that was begun since the PAE machine began anew.
-/
theorem AtEap.initialised (hup : p.portEnabled = true ∧ p.eapRestart = false)
    (hcause : ¬ Settled p ∨ idleSuccess p = true) : Initialised p.notes := by
  rcases hp.quiet with h | h | h | ⟨hsettled, hidle, -⟩
  · exact h
  · exact absurd (hup.2.symm.trans h) Bool.false_ne_true
  · exact absurd (h.symm.trans hup.1) Bool.false_ne_true
  · rcases hcause with h | h
    · exact absurd hsettled h
    · exact absurd (hidle.symm.trans h) Bool.false_ne_true

theorem AtEap.not_eapFail (hcause : ¬ Settled p ∨ idleSuccess p = true) : p.eapFail = false := by
  refine Bool.eq_false_iff.mpr fun hf => ?_
  rcases hp.failState hf with h | h <;> rcases hcause with hc | hc
  · exact hc (.inr (.inl h))
  · simp [idleSuccess, h] at hc
  · exact hc (.inr (.inr (.inl h)))
  · simp [idleSuccess, h] at hc

theorem AtEap.eapRestart_eq (hcause : ¬ (p.eapRestart = true ∧ p.portEnabled = true)) :
    p.eapRestart = false :=
  Bool.eq_false_iff.mpr fun h => hcause ⟨h, (hp.eapRestart h).1⟩

include hmove

theorem AtEap.eapRestart_step : q.eapRestart = false := by
  cases hmove with
  | initialised _ _ _ _ _ hrestart _ _ _ => exact hrestart
  | disabled _ _ _ _ hrestart _ hcause => exact hrestart.trans (hp.eapRestart_eq hcause)
  | failed _ _ _ _ hrestart hup => exact hrestart.trans hup.2
  | succeeded _ _ _ _ hrestart _ hup _ _ => exact hrestart.trans hup.2
  | decided _ _ _ _ _ _ hrestart _ hup _ _ => exact hrestart.trans hup.2
  | moved _ _ _ _ hrestart _ hup _ _ => exact hrestart.trans hup.2
  | stayed heq hup _ => exact heq ▸ hup.2

include hkeep

theorem AtEap.sound_step : Sound q := by
  have halt := hkeep.altAccept.trans hp.altAccept
  have hctrl := hkeep.portControl.trans hp.portControl
  have hmode := hkeep.sPortMode.trans hp.sPortMode
  have hdown (hi : q.initialise = true) : q.portEnabled = false :=
    hkeep.portEnabled.trans (hp.down (hkeep.initialise ▸ hi))
  have hnofail {sm : EapolSm π} {a : Prop} (h : sm.eapFail = false) (h' : sm.eapFail = true) : a :=
    absurd (h.symm.trans h') Bool.false_ne_true
  cases hmove with
  | initialised hnotes hstate hdecision _ hfail _ hrounds _ _ =>
    refine ⟨hnotes ▸ hp.fresh.cons fun h => by simp at h, fun h => absurd hdecision h, hnofail hfail,
      fun h => ?_, halt, hctrl, hmode, hdown⟩
    simp [hrounds] at h
  | disabled hnotes hstate hdecision _ _ hrounds _ =>
    refine ⟨hnotes ▸ hp.fresh, fun h => hnotes ▸ hp.current (hdecision ▸ h), fun _ => .inr hstate,
      fun h => ?_, halt, hctrl, hmode, hdown⟩
    simp [hrounds] at h
  | failed hnotes hstate hdecision _ _ _ =>
    exact ⟨hnotes ▸ hp.fresh, fun h => hnotes ▸ hp.current (hdecision ▸ h), fun _ => .inl hstate,
      fun _ => .inl hstate, halt, hctrl, hmode, hdown⟩
  | succeeded hnotes hstate hdecision hfail _ hrounds _ _ hcause =>
    exact ⟨hnotes ▸ hp.fresh, fun h => hnotes ▸ hp.current (hdecision ▸ h),
      hnofail (hfail.trans (hp.not_eapFail hcause)), fun h => absurd hrounds (not_le.mpr h), halt,
      hctrl, hmode, hdown⟩
  | decided d hnotes hstate hdecision _ hfail _ hrounds _ hcause _ =>
    exact ⟨hnotes ▸ hp.fresh.cons fun h => by simp at h,
      fun h => hnotes ▸ current_method (hdecision ▸ h),
      hnofail (hfail.trans (hp.not_eapFail (.inl hcause))), fun h => absurd hrounds (not_le.mpr h),
      halt, hctrl, hmode, hdown⟩
  | moved hnotes hdecision _ hfail _ hrounds _ hcause _ =>
    exact ⟨hnotes ▸ hp.fresh, fun h => hnotes ▸ hp.current (hdecision ▸ h),
      hnofail (hfail.trans (hp.not_eapFail (.inl hcause))),
      fun h => .inr (hrounds.resolve_left (not_le.mpr h)), halt, hctrl, hmode, hdown⟩
  | stayed heq _ _ => exact heq ▸ hp.toSound

theorem AtEap.success_step (hs : q.eapSuccess = true) : Earned q.notes := by
  have hold (h : p.eapSuccess = true) (hr : p.eapRestart = false) : Earned p.notes :=
    (hp.success h).resolve_right fun h => absurd (hr.symm.trans h) Bool.false_ne_true
  cases hmove with
  | initialised _ _ _ hsuccess _ _ _ _ _ => exact absurd (hsuccess.symm.trans hs) Bool.false_ne_true
  | disabled hnotes _ _ hsuccess _ _ hcause =>
    exact hnotes ▸ hold (hsuccess ▸ hs) (hp.eapRestart_eq hcause)
  | failed hnotes _ _ hsuccess _ hup => exact hnotes ▸ hold (hsuccess ▸ hs) hup.2
  | succeeded hnotes _ _ _ _ _ hup hdecided hcause =>
    exact hnotes ▸ Earned.of_initialised (hp.initialised hup hcause) (hp.current hdecided)
  | decided d hnotes _ _ hsuccess _ _ _ hup _ _ =>
    exact hnotes ▸ (hold (hsuccess ▸ hs) hup.2).cons rfl
  | moved hnotes _ hsuccess _ _ _ hup _ _ => exact hnotes ▸ hold (hsuccess ▸ hs) hup.2
  | stayed heq hup _ =>
    subst heq
    exact hold hs hup.2

theorem AtEap.quiet_step : Initialised q.notes ∨ q.portEnabled = false ∨
    (Settled q ∧ idleSuccess q = false ∧ (q.eap.eapState = .idle → BeQuiet q)) := by
  cases hmove with
  | initialised hnotes _ _ _ _ _ _ _ _ => exact .inl (hnotes ▸ initialised_eapInitialise)
  | disabled _ hstate _ _ _ _ _ =>
    exact .inr (.inr ⟨.inr (.inr (.inl hstate)), by simp [idleSuccess, hstate], by simp [hstate]⟩)
  | failed _ hstate _ _ _ _ =>
    exact .inr (.inr ⟨.inr (.inl hstate), by simp [idleSuccess, hstate], by simp [hstate]⟩)
  | succeeded hnotes _ _ _ _ _ hup _ hcause => exact .inl (hnotes ▸ hp.initialised hup hcause)
  | decided d hnotes _ _ _ _ _ _ hup hcause _ =>
    exact .inl (hnotes ▸ (hp.initialised hup (.inl hcause)).cons rfl)
  | moved hnotes _ _ _ _ _ hup hcause _ => exact .inl (hnotes ▸ hp.initialised hup (.inl hcause))
  | stayed heq hup _ =>
    subst heq
    exact hp.quiet.imp_right fun h => h.resolve_left fun h => by simp [hup.2] at h

theorem AtEap.restart_step (hstate : q.paeState = .restart) : Initialised q.notes := by
  rw [hkeep.paeState] at hstate
  have hold (hr : p.eapRestart = false) : Initialised p.notes :=
    (hp.restart hstate).resolve_right fun h => absurd (hr.symm.trans h) Bool.false_ne_true
  cases hmove with
  | initialised hnotes _ _ _ _ _ _ _ _ => exact hnotes ▸ initialised_eapInitialise
  | disabled hnotes _ _ _ _ _ hcause => exact hnotes ▸ hold (hp.eapRestart_eq hcause)
  | failed hnotes _ _ _ _ hup => exact hnotes ▸ hold hup.2
  | succeeded hnotes _ _ _ _ _ hup _ _ => exact hnotes ▸ hold hup.2
  | decided d hnotes _ _ _ _ _ _ hup _ _ => exact hnotes ▸ (hold hup.2).cons rfl
  | moved hnotes _ _ _ _ _ hup _ _ => exact hnotes ▸ hold hup.2
  | stayed heq hup _ =>
    subst heq
    exact hold hup.2

theorem AtEap.stepped : AtEap q where
  toSound := hp.sound_step hkeep hmove
  success hs := .inl (hp.success_step hkeep hmove hs)
  suppAbort := hkeep.suppAbort.trans hp.suppAbort
  eapRestart h := absurd ((hp.eapRestart_step hmove).symm.trans h) Bool.false_ne_true
  keyRx := hkeep.keyRxState ▸ hp.keyRx
  rxKey := hkeep.rxKey.trans hp.rxKey
  quiet := (hp.quiet_step hkeep hmove).imp_right .inr
  restart h := .inl (hp.restart_step hkeep hmove h)

theorem AtEap.atRest (hsame : q.eap.changed = false) : AtRest q := by
  have hchanged {a : Prop} (h : q.eap.changed = true) : a :=
    absurd (hsame.symm.trans h) Bool.false_ne_true
  have hport (hup : p.portEnabled = true) {a : Prop} (h : q.portEnabled = false) : a :=
    absurd (h.symm.trans (hkeep.portEnabled.trans hup)) Bool.false_ne_true
  have hend : Settled q ∧ (q.eap.eapState = .idle → q.idleWhile ≠ 0) ∧
      (q.portEnabled = false → q.eap.eapState = .disabled) := by
    cases hmove with
    | initialised _ _ _ _ _ _ _ _ hch =>
      rcases hch with h | ⟨hr, hst⟩
      · exact hchanged h
      · exact absurd hst (hp.eapRestart hr).2
    | disabled _ hstate _ _ _ _ _ =>
      exact ⟨.inr (.inr (.inl hstate)), by simp [hstate], fun _ => hstate⟩
    | failed _ hstate _ _ _ hup => exact ⟨.inr (.inl hstate), by simp [hstate], hport hup.1⟩
    | succeeded _ hstate _ _ _ _ hup _ _ => exact ⟨.inl hstate, by simp [hstate], hport hup.1⟩
    | decided d _ _ _ _ _ _ _ _ _ hch => exact hchanged hch
    | moved _ _ _ _ _ _ _ _ hch => exact hchanged hch
    | stayed heq hup hcause =>
      subst heq
      rcases hcause with ⟨hsettled, hidle⟩ | hrounds
      · exact ⟨hsettled, hidle, hport hup.1⟩
      · -- the conversation was too long and has failed
        have hfailed : q.eap.eapState = .failure :=
          (hp.rounds (by omega)).resolve_right fun h => by omega
        exact ⟨.inr (.inl hfailed), by simp [hfailed], hport hup.1⟩
  exact {
    toSound := hp.sound_step hkeep hmove
    success := hp.success_step hkeep hmove
    suppAbort := hkeep.suppAbort.trans hp.suppAbort
    eapRestart := hp.eapRestart_step hmove
    keyRx := hkeep.keyRxState ▸ hp.keyRx
    rxKey := hkeep.rxKey.trans hp.rxKey
    settled := hend.1
    idle := hend.2.1
    disabled := hend.2.2
    quiet := (hp.quiet_step hkeep hmove).imp_right fun h => h.imp_right fun h =>
      Decidable.not_or_of_imp h.2.2
    restart := hp.restart_step hkeep hmove }

end Loop

/-! ## What happens from outside -/

structure Untouched (p q : EapolSm π) : Prop where
  course : SameCourse p.eap q.eap
  notes : q.notes = p.notes
  eapFail : q.eapFail = p.eapFail
  altAccept : q.altAccept = p.altAccept
  portControl : q.portControl = p.portControl
  sPortMode : q.sPortMode = p.sPortMode
  suppAbort : q.suppAbort = p.suppAbort
  eapRestart : q.eapRestart = p.eapRestart
  keyRxState : q.keyRxState = p.keyRxState
  eapReq : q.eapReq = p.eapReq
  beState : q.beState = p.beState
  suppStart : q.suppStart = p.suppStart
  paeState : q.paeState = .restart → p.paeState = .restart

theorem AtRest.atTurn (h : AtRest p) (ht : Untouched p q)
    (hdown : q.initialise = true → q.portEnabled = false)
    (hsuccess : q.eapSuccess = true → Earned p.notes ∨ q.portEnabled = false)
    (hidle : idleSuccess q = true → Initialised p.notes ∧ disconnects q = false)
    (hkey : q.rxKey = true → q.accept8021xKeys = true → canSucceed p.eap = true →
      Initialised p.notes ∨ q.portEnabled = false) : AtTurn q := by
  have hsettled : Settled q := ht.course.settled (.inl ht.eapReq) h.settled
  have hcan : canSucceed q.eap = canSucceed p.eap := by
    simp only [canSucceed, ht.course.decision, ht.course.methodState]
  refine {
    fresh := ht.notes ▸ h.fresh
    current := fun hd => ht.notes ▸ h.current (ht.course.decision ▸ hd)
    failState := fun hf => ?_
    rounds := fun hr => ?_
    altAccept := ht.altAccept.trans h.altAccept
    portControl := ht.portControl.trans h.portControl
    sPortMode := ht.sPortMode.trans h.sPortMode
    down := hdown
    success := fun hs => ht.notes ▸ hsuccess hs
    suppAbort := ht.suppAbort.trans h.suppAbort
    eapRestart := ht.eapRestart.trans h.eapRestart
    keyRx := fun hu => absurd (ht.keyRxState ▸ hu) h.keyRx
    settled := fun _ => hsettled
    idle := fun hi => ht.notes ▸ hidle hi
    quiet := ?_
    key := fun hrx ha hc => ht.notes ▸ hkey hrx ha (hcan ▸ hc)
    restart := fun hr => ht.notes ▸ h.restart (ht.paeState hr) }
  · rw [ht.course.eapState]
    exact h.failState (ht.eapFail ▸ hf)
  · rw [ht.course.numRounds] at hr ⊢
    rw [ht.course.eapState]
    exact h.rounds hr
  · rw [ht.notes, ht.course.eapState]
    rcases h.quiet with hi | hport | hne | hq
    · exact .inl hi
    · exact .inr (.inr (.inl (by simp [h.disabled hport])))
    · exact .inr (.inr (.inl hne))
    · refine .inr (.inr (.inr ?_))
      unfold BeQuiet at *
      rwa [ht.beState, ht.suppStart]

theorem AtRest.same_idle (h : AtRest p) (ht : Untouched p q)
    (hwhile : q.idleWhile = p.idleWhile) {a : Prop} (hi : idleSuccess q = true) : a := by
  rw [ht.course.idleSuccess hwhile, h.not_idleSuccess] at hi
  exact absurd hi Bool.false_ne_true

/-- A success that outlived its conversation is not reported again: neither by the lower layer nor
by a key frame, nor by the end of the idle time. -/
def CalmAtRest (sm : EapolSm π) : Op π → Prop
  | .rxEapol buf => isRc4Key sm buf = true →
      ¬ (Leftover sm ∧ sm.accept8021xKeys = true ∧ canSucceed sm.eap = true)
  | .notifyLowerLayerSuccess => ¬ (Leftover sm ∧ canSucceed sm.eap = true)
  | .tick => ¬ (sm.timerTickEnabled = true ∧ (Leftover sm ∨ disconnects sm = true) ∧
      sm.eap.eapState = .idle ∧ sm.idleWhile = 1 ∧ sm.eap.decision = .uncondSucc)
  | _ => True

/-- Whatever happens to machines at rest does not report a success that outlived its conversation.
-/
def Calm (sm : EapolSm π) (op : Op π) : Prop := sm.pc = .rest → CalmAtRest sm op

instance (sm : EapolSm π) : ∀ op : Op π, Decidable (CalmAtRest sm op)
  | .rxEapol _ => inferInstanceAs (Decidable (_ → _))
  | .notifyLowerLayerSuccess => inferInstanceAs (Decidable (¬ _))
  | .tick => inferInstanceAs (Decidable (¬ _))
  | .go _ | .initialised | .stepTimeout | .notifyPortEnabled _ | .notifyPortValid _
  | .notifyLogoff _ | .notifyPmkidAttempt _ => inferInstanceAs (Decidable True)

instance (sm : EapolSm π) (op : Op π) : Decidable (Calm sm op) :=
  inferInstanceAs (Decidable (_ → _))

section Outside

variable {sm : EapolSm π} (h : AtRest sm)
include h

theorem AtRest.canSucceed_earned (hi : Initialised sm.notes) (hcan : canSucceed sm.eap = true) :
    Earned sm.notes := by
  simp only [canSucceed, Bool.and_eq_true, decide_eq_true_eq] at hcan
  exact Earned.of_initialised hi (h.current hcan.1)

theorem AtRest.started {q : EapolSm π} (ht : Untouched sm q)
    (hdown : q.initialise = true → q.portEnabled = false)
    (hsame : q.eapSuccess = sm.eapSuccess ∧ q.idleWhile = sm.idleWhile ∧ q.rxKey = sm.rxKey) :
    AtTurn q := by
  refine h.atTurn ht hdown (fun hs => .inl (h.success (hsame.1 ▸ hs))) (fun hi => ?_) fun hrx => ?_
  · exact h.same_idle ht hsame.2.1 hi
  · rw [hsame.2.2, h.rxKey] at hrx
    exact absurd hrx Bool.false_ne_true

theorem AtRest.rxEapPacket_turn (data : Bytes) : AtTurn (rxEapPacket data sm) := by
  unfold rxEapPacket
  dsimp only
  split_ifs
  · have ht : Untouched sm (startStep { abortCached sm with
        eapReqData := some data, eapolEap := true }) := by
      constructor
      case course => exact .refl _
      all_goals simp [startStep, abortCached]
    exact h.started ht h.down ⟨rfl, rfl, rfl⟩
  · have ht : Untouched sm (startStep { sm with
        eapReqData := some data, eapolEap := true }) := by
      constructor
      case course => exact .refl _
      all_goals simp [startStep]
    exact h.started ht h.down ⟨rfl, rfl, rfl⟩

theorem AtRest.portTimersTick_turn (hcalm : CalmAtRest sm .tick) (htick : sm.timerTickEnabled = true) :
    AtTurn (portTimersTick sm) := by
  have ht : Untouched sm (portTimersTick sm) := by
    constructor
    case course => exact .refl _
    all_goals simp [portTimersTick, startStep]
  refine h.atTurn ht h.down (fun hs => .inl (h.success hs)) (fun hi => ?_) fun hrx => ?_
  · simp only [idleSuccess, Bool.and_eq_true, decide_eq_true_eq] at hi
    obtain ⟨⟨hst, hzero⟩, hd⟩ := hi
    have hst' : sm.eap.eapState = .idle := hst
    have hone : sm.idleWhile = 1 := by
      have hpos := h.idle hst'
      have hz : sm.idleWhile - 1 = 0 := hzero
      omega
    have hport : sm.portEnabled = true := by
      by_contra hp
      rw [h.disabled (Bool.not_eq_true _ ▸ hp)] at hst'
      exact EapState.noConfusion hst'
    have hnot : ¬ (Leftover sm ∨ disconnects sm = true) := fun hl =>
      hcalm ⟨htick, hl, hst', hone, hd⟩
    rw [not_or, Leftover, not_and_or, not_not] at hnot
    refine ⟨hnot.1.resolve_right fun hp => hp hport, ?_⟩
    have hsame : disconnects (portTimersTick sm) = disconnects sm := rfl
    exact hsame.trans (Bool.not_eq_true _ ▸ hnot.2)
  · have hrx' : sm.rxKey = true := hrx
    exact absurd (h.rxKey.symm.trans hrx') Bool.false_ne_true

theorem AtRest.lowerLayerSuccess_turn (hcalm : CalmAtRest sm .notifyLowerLayerSuccess) :
    AtTurn (startStep (notifyLowerLayerSuccess sm)) := by
  rcases notifyLowerLayerSuccess_eq sm with hn | ⟨hcan, hn⟩
  · rw [hn]
    exact h.started ⟨.refl _, rfl, rfl, rfl, rfl, rfl, rfl, rfl, rfl, rfl, rfl, rfl, id⟩ h.down
      ⟨rfl, rfl, rfl⟩
  · rw [hn]
    have ht : Untouched sm
        (startStep { sm with eap := keyAvailable sm.eap, eapSuccess := true }) := by
      constructor
      case course => exact sameCourse_keyAvailable _
      all_goals simp [startStep]
    refine h.atTurn ht h.down (fun _ => ?_) (h.same_idle ht rfl) fun hrx => ?_
    · by_cases hi : Initialised sm.notes
      · exact .inl (h.canSucceed_earned hi hcan)
      · exact .inr (Bool.eq_false_iff.mpr fun hport => hcalm ⟨⟨hi, hport⟩, hcan⟩)
    · have hrx' : sm.rxKey = true := hrx
      exact absurd (h.rxKey.symm.trans hrx') Bool.false_ne_true

theorem AtRest.rxKey_turn {buf : Bytes} (hcalm : CalmAtRest sm (.rxEapol buf))
    (hrc4 : isRc4Key sm buf = true) (frame : Bytes) :
    AtTurn (startStep { sm with lastRxKey := some frame, rxKey := true }) := by
  have ht : Untouched sm
      (startStep { sm with lastRxKey := some frame, rxKey := true }) := by
    constructor
    case course => exact .refl _
    all_goals simp [startStep]
  refine h.atTurn ht h.down (fun hs => .inl (h.success hs)) (h.same_idle ht rfl)
    fun _ haccept hcan => ?_
  by_cases hi : Initialised sm.notes
  · exact .inl hi
  · exact .inr (Bool.eq_false_iff.mpr fun hport => hcalm hrc4 ⟨⟨hi, hport⟩, haccept, hcan⟩)

theorem AtRest.notifyPortEnabled_turn (hinit : sm.initialise = false) (enabled : Bool) :
    AtTurn (startStep { sm with portEnabled := enabled }) := by
  have ht : Untouched sm (startStep { sm with portEnabled := enabled }) :=
    ⟨.refl _, rfl, rfl, rfl, rfl, rfl, rfl, rfl, rfl, rfl, rfl, rfl, id⟩
  exact h.started ht (fun hi => absurd (hinit.symm.trans hi) Bool.false_ne_true) ⟨rfl, rfl, rfl⟩

end Outside

/-! ## Runs -/

section Runs

variable (crypto : EapolCrypto)

variable {sm : EapolSm π}

theorem AtRest.outside (h : AtRest sm) (hpc : sm.pc = .rest)
    (hinit : sm.initialise = false) {op : Op π} (hcalm : CalmAtRest sm op) :
    Fresh (outside sm op) := by
  have hstay : Fresh sm := by
    unfold Fresh
    rw [hpc]
    exact h
  cases op with
  | go w => exact hstay
  | initialised => exact hstay
  | rxEapol buf =>
    unfold EapolSupp.outside rxEapol
    dsimp only
    split_ifs with h1 h2 h3
    · exact hstay
    · exact h.rxEapPacket_turn _
    · exact h.rxKey_turn hcalm h3 _
    · exact hstay
  | tick =>
    unfold EapolSupp.outside
    dsimp only
    split_ifs with htick
    · exact h.portTimersTick_turn hcalm htick
    · exact hstay
  | stepTimeout =>
    unfold EapolSupp.outside
    dsimp only
    split_ifs
    · exact h.started ⟨.refl _, rfl, rfl, rfl, rfl, rfl, rfl, rfl, rfl, rfl, rfl, rfl, id⟩ h.down
        ⟨rfl, rfl, rfl⟩
    · exact hstay
  | notifyPortEnabled enabled => exact h.notifyPortEnabled_turn hinit enabled
  | notifyPortValid valid =>
    exact h.started ⟨.refl _, rfl, rfl, rfl, rfl, rfl, rfl, rfl, rfl, rfl, rfl, rfl, id⟩ h.down
      ⟨rfl, rfl, rfl⟩
  | notifyLogoff logoff =>
    exact h.started ⟨.refl _, rfl, rfl, rfl, rfl, rfl, rfl, rfl, rfl, rfl, rfl, rfl, id⟩ h.down
      ⟨rfl, rfl, rfl⟩
  | notifyLowerLayerSuccess => exact h.lowerLayerSuccess_turn hcalm
  | notifyPmkidAttempt attempt =>
    have hfresh : Fresh { sm with cachedPmk := attempt } := by
      unfold Fresh
      dsimp only
      rw [hpc]
      exact ⟨h.frame rfl, h.success, h.suppAbort, h.eapRestart, h.keyRx, h.rxKey, h.settled,
        h.idle, h.disabled, h.quiet, h.restart⟩
    exact hfresh

theorem AtTurn.turn (h : AtTurn sm) (w : World π) (i : ℕ)
    (hpc : sm.pc = .turn i) : Fresh (go crypto w sm) := by
  have h' : AtTurn { sm with changed := false } :=
    ⟨h.frame rfl, h.success, h.suppAbort, h.eapRestart, h.keyRx, h.settled, h.idle, h.quiet, h.key,
      h.restart⟩
  obtain ⟨hkeep, hmove⟩ := paeStep_move h'.portControl h'.sPortMode
  have he := h'.atEap hkeep (keyRxStep_move crypto w _) (beStep_move _) hmove
  unfold go
  rw [hpc]
  dsimp only
  rw [hpc] at he
  generalize beStep (keyRxStep crypto w (paeStep _)) = s at he ⊢
  exact ⟨he.frame rfl, he.success, he.suppAbort, he.eapRestart, he.keyRx, he.rxKey, he.quiet,
    he.restart⟩

theorem AtRest.endStep (h : AtRest sm) : Fresh (endStep sm) := by
  unfold EapolSupp.endStep
  dsimp only
  cases sm.cbStatus <;>
  · exact ⟨h.frame rfl, h.success, h.suppAbort, h.eapRestart, h.keyRx, h.rxKey, h.settled, h.idle,
      h.disabled, h.quiet, h.restart⟩

theorem AtEap.loop (h : AtEap sm) (w : World π) (i : ℕ) (res : Bool)
    (hpc : sm.pc = .eap i res) : Fresh (go crypto w sm) := by
  have h' : AtEap (sm.onEap fun eap => { eap with changed := false }) :=
    ⟨⟨h.fresh, h.current, h.failState, h.rounds, h.altAccept, h.portControl, h.sPortMode, h.down⟩,
      h.success, h.suppAbort, h.eapRestart, h.keyRx, h.rxKey, h.quiet, h.restart⟩
  obtain ⟨hkeep, hmove⟩ := eapStep_move crypto w h'.altAccept
  have hstep := h'.stepped hkeep hmove
  have hrest := h'.atRest hkeep hmove
  unfold go
  rw [hpc]
  dsimp only
  generalize eapStep crypto w (sm.onEap fun eap => { eap with changed := false }) = q at *
  split_ifs with hchanged hmore
  · exact ⟨hstep.frame rfl, hstep.success, hstep.suppAbort, hstep.eapRestart, hstep.keyRx,
      hstep.rxKey, hstep.quiet, hstep.restart⟩
  · have hq := hrest (by simpa using hchanged)
    exact hq.started ⟨.refl _, rfl, rfl, rfl, rfl, rfl, rfl, rfl, rfl, rfl, rfl, rfl, id⟩ hq.down
      ⟨rfl, rfl, rfl⟩
  · have hq := hrest (by simpa using hchanged)
    have hend : AtRest { q with changed := q.changed || res } :=
      ⟨hq.frame rfl, hq.success, hq.suppAbort, hq.eapRestart, hq.keyRx, hq.rxKey, hq.settled,
        hq.idle, hq.disabled, hq.quiet, hq.restart⟩
    exact hend.endStep

theorem fresh_step {op : Op π} (h : Fresh sm) (hcalm : Calm sm op) :
    Fresh (step crypto sm op) := by
  have hgo (w : World π) : Fresh (go crypto w sm) := by
    cases hpc : sm.pc with
    | rest =>
      unfold go
      rw [hpc]
      exact h
    | turn i =>
      have h' := h
      unfold Fresh at h'
      rw [hpc] at h'
      exact h'.turn crypto w i hpc
    | eap i res =>
      have h' := h
      unfold Fresh at h'
      rw [hpc] at h'
      exact h'.loop crypto w i res hpc
  have hrest (hpc : sm.pc = .rest) : AtRest sm := by
    unfold Fresh at h
    rwa [hpc] at h
  have houtside :
      Fresh (if sm.pc = .rest ∧ ¬ sm.initialise = true then outside sm op else sm) := by
    split_ifs with hguard
    · exact (hrest hguard.1).outside hguard.1 (by simpa using hguard.2) (hcalm hguard.1)
    · exact h
  cases op with
  | go w => exact hgo w
  | initialised =>
    unfold step
    dsimp only
    split_ifs with hguard
    · have hr := hrest hguard.1
      exact hr.started (q := initialised sm)
        ⟨.refl _, rfl, rfl, rfl, rfl, rfl, rfl, rfl, rfl, rfl, rfl, rfl, id⟩
        (fun hi => Bool.noConfusion hi) ⟨rfl, rfl, rfl⟩
    · exact h
  | rxEapol | tick | stepTimeout | notifyPortEnabled | notifyPortValid | notifyLogoff
  | notifyLowerLayerSuccess | notifyPmkidAttempt => exact houtside

theorem fresh_init (conf : EapolConfig) : Fresh (init π conf) := by
  have hturn : AtTurn (init π conf) := by
    refine ⟨⟨authFresh_nil, ?_, ?_, ?_, rfl, rfl, rfl, ?_⟩, ?_, rfl, rfl, ?_, ?_, ?_, ?_, ?_, ?_⟩
    all_goals simp [init, eapInit, idleSuccess]
  exact hturn

theorem Fresh.authFresh (h : Fresh sm) : AuthFresh sm.notes := by
  unfold Fresh at h
  cases hpc : sm.pc <;> rw [hpc] at h <;> exact h.fresh

/-- **Authorization is fresh.** In a run in which no success that outlived its conversation is
reported again, every transition of the PAE machine from AUTHENTICATING to AUTHENTICATED follows a
method invocation, with a decision other than FAIL, of a conversation that was initialized after the
latest entry of DISCONNECTED or RESTART. -/
theorem run_authFresh (conf : EapolConfig) {ops : List (Op π)}
    (hcalm : Along (step crypto) Calm (init π conf) ops) :
    AuthFresh (run (step crypto) (init π conf) ops).notes :=
  (hcalm.run_inv (fun _ _ h hc => fresh_step crypto h hc) (fresh_init conf)).authFresh

end Runs

/-! ## A success that is reported again -/

section Stale

/-- A supplicant that takes EAPOL-Key frames and needs none. -/
def plainConf : EapolConfig where
  heldPeriod := 60
  authPeriod := 30
  startPeriod := 30
  maxStart := 3
  accept8021xKeys := true
  requireUnicast := false
  requireBroadcast := false
  fastReauth := false
  workaround := false
  eapDisabled := false

/-- A method that answers one request and has no key. -/
def onceMethod : EapMethod Unit where
  vendor := vendorIetf
  method := 4
  init flags := (some (), flags)
  hasReauthData := none
  deinitForReauth := id
  initForReauth _ flags := (none, flags)
  process _ flags _ _ := (some [2], ⟨false, .done, .condSucc, false⟩, (), flags)
  key _ := none

def onceWorld : World Unit where
  getEapMethod _ method := if method = 4 then some onceMethod else none
  allowedMethod _ _ := true
  pendingPin := false
  buildNak _ := none
  buildIdentity _ := some [2]
  buildNotify _ := none
  setWepKey := true

/-- No digests and no cipher are needed without a key. -/
def noCrypto : EapolCrypto := ⟨fun _ => [], fun _ _ => [], fun _ data => data⟩

/-- Each of these is followed by the program until it is at rest. -/
def untilRest (ops : List (Op Unit)) : List (Op Unit) :=
  List.replicate 16 (.go onceWorld) ++
    ops.flatMap fun op => op :: List.replicate 16 (.go onceWorld)

/-- The port is enabled, and the authenticator asks for the identity, asks for the method and reports
the success. -/
def authentication : List (Op Unit) :=
  [.initialised, .notifyPortEnabled true, .rxEapol [1, 0, 0, 5, 1, 1, 0, 5, 1],
    .rxEapol [1, 0, 0, 5, 1, 2, 0, 5, 4], .rxEapol [1, 0, 0, 4, 3, 2, 0, 4]]

/-- The user logs off and on again, and an EAPOL-Key frame of zeros is received. -/
def staleKey : List (Op Unit) :=
  authentication ++ [.notifyLogoff true, .notifyLogoff false,
    .rxEapol ([1, 3, 0, 44, 1] ++ List.replicate 43 0)]

theorem run_authFresh_authentication :
    let s := run (step noCrypto) (init Unit plainConf) (untilRest authentication)
    AuthFresh s.notes ∧ s.paeState = .authenticated :=
  ⟨run_authFresh noCrypto plainConf (by decide +kernel), by decide +kernel⟩

/-- After the user has logged off and on, a frame that anybody can send authorizes the supplicant
without a new conversation. -/
theorem staleKey_not_authFresh :
    ¬ AuthFresh (run (step noCrypto) (init Unit plainConf) (untilRest staleKey)).notes := by
  intro h
  have hlast : (run (step noCrypto) (init Unit plainConf) (untilRest staleKey)).notes =
      [] ++ .pae .authenticating .authenticated ::
        (run (step noCrypto) (init Unit plainConf) (untilRest staleKey)).notes.tail := by
    decide +kernel
  have hnot : ¬ Initialised
      (run (step noCrypto) (init Unit plainConf) (untilRest staleKey)).notes.tail := by
    decide +kernel
  exact hnot (h _ _ hlast).initialised

end Stale

end Freshness

end Hostapd.EapolSupp
