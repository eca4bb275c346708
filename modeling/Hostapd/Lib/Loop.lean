import Mathlib.Order.Basic

/-!
# Loops that may not return

The general theory of a `while` loop whose body is a function of the loop's state: it goes round
with another state or leaves the loop with a result. A loop need not return, so it is run with
fuel, and **`Returns body s a`** says that some fuel is enough for it to return `a` from `s`.

* **`returns_iff_of_next`, `returns_iff_of_done`**: one round of the loop, by what the body does.
* **`not_returns_of_stuck`**: a body that goes round with the state it was given never returns.
* **`returns_of_measure`**: the rule for loops that return, with an invariant and a measure.
-/

namespace Hostapd.Lib

variable {σ α : Type*}

/-- Run at most `fuel` rounds of the loop. -/
def loop (body : σ → σ ⊕ α) : ℕ → σ → Option α
  | 0, _ => none
  | fuel + 1, s =>
    match body s with
    | .inl s' => loop body fuel s'
    | .inr a => some a

/-- The loop returns `a` from `s`. -/
def Returns (body : σ → σ ⊕ α) (s : σ) (a : α) : Prop := ∃ fuel, loop body fuel s = some a

variable {body : σ → σ ⊕ α} {s s' : σ} {a b : α}

theorem loop_zero_ne_some : loop body 0 s ≠ some a := nofun

theorem loop_succ (fuel : ℕ) :
    loop body (fuel + 1) s = (body s).elim (loop body fuel) some := by
  change (match body s with
    | .inl s' => loop body fuel s'
    | .inr a => some a) = _
  cases body s <;> rfl

theorem loop_succ_of_next (h : body s = .inl s') (fuel : ℕ) :
    loop body (fuel + 1) s = loop body fuel s' := by
  rw [loop_succ, h, Sum.elim_inl]

theorem loop_succ_of_done (h : body s = .inr a) (fuel : ℕ) :
    loop body (fuel + 1) s = some a := by
  rw [loop_succ, h, Sum.elim_inr]

theorem loop_add_of_some {fuel : ℕ} (h : loop body fuel s = some a) (more : ℕ) :
    loop body (fuel + more) s = some a := by
  induction fuel generalizing s with
  | zero => exact absurd h loop_zero_ne_some
  | succ fuel ih =>
    rw [Nat.succ_add]
    cases hbody : body s with
    | inl s' =>
      rw [loop_succ_of_next hbody] at h ⊢
      exact ih h
    | inr b =>
      rw [loop_succ_of_done hbody] at h ⊢
      exact h

theorem Returns.unique (h : Returns body s a) (h' : Returns body s b) : a = b := by
  obtain ⟨fuel, hf⟩ := h
  obtain ⟨fuel', hf'⟩ := h'
  have hsame := (loop_add_of_some hf fuel').symm.trans
    (Nat.add_comm fuel fuel' ▸ loop_add_of_some hf' fuel)
  exact Option.some.inj hsame

theorem returns_iff_of_next (h : body s = .inl s') :
    Returns body s a ↔ Returns body s' a := by
  constructor
  · rintro ⟨fuel, hf⟩
    cases fuel with
    | zero => exact absurd hf loop_zero_ne_some
    | succ fuel => exact ⟨fuel, by rwa [loop_succ_of_next h] at hf⟩
  · rintro ⟨fuel, hf⟩
    exact ⟨fuel + 1, by rwa [loop_succ_of_next h]⟩

theorem returns_iff_of_done (h : body s = .inr b) : Returns body s a ↔ b = a := by
  constructor
  · rintro ⟨fuel, hf⟩
    cases fuel with
    | zero => exact absurd hf loop_zero_ne_some
    | succ fuel =>
      rw [loop_succ_of_done h] at hf
      exact Option.some.inj hf
  · rintro rfl
    exact ⟨1, loop_succ_of_done h 0⟩

theorem not_returns_of_stuck (h : body s = .inl s) : ¬ Returns body s a := by
  rintro ⟨fuel, hf⟩
  induction fuel with
  | zero => exact absurd hf loop_zero_ne_some
  | succ fuel ih =>
    apply ih
    rwa [loop_succ_of_next h] at hf

/-! ## Rounds that may stop with an error -/

/-- A round that may stop with an error: the loop is left then. -/
def tryRound {ε : Type*} (round : σ → Except ε (σ ⊕ α)) (s : σ) : σ ⊕ Except ε α :=
  match round s with
  | .ok (.inl s') => .inl s'
  | .ok (.inr a) => .inr (.ok a)
  | .error e => .inr (.error e)

section TryRound

variable {ε : Type*} {round : σ → Except ε (σ ⊕ α)}

theorem tryRound_of_next (h : round s = .ok (.inl s')) : tryRound round s = .inl s' := by
  simp [tryRound, h]

theorem tryRound_of_done (h : round s = .ok (.inr a)) : tryRound round s = .inr (.ok a) := by
  simp [tryRound, h]

theorem tryRound_of_error {e : ε} (h : round s = .error e) :
    tryRound round s = .inr (.error e) := by
  simp [tryRound, h]

end TryRound

/-- **The rule for loops that return**: rounds keep an invariant and go down in a measure, until one
leaves the loop. -/
theorem returns_of_measure (I : σ → Prop) (Q : α → Prop) (μ : σ → ℕ)
    (hround : ∀ s, I s → (∃ s', body s = .inl s' ∧ I s' ∧ μ s' < μ s) ∨
      ∃ a, body s = .inr a ∧ Q a) (hs : I s) : ∃ a, Returns body s a ∧ Q a := by
  induction hn : μ s using Nat.strongRecOn generalizing s with
  | _ n ih =>
    rcases hround s hs with ⟨s', hnext, hs', hlt⟩ | ⟨a, hdone, ha⟩
    · obtain ⟨a, hreturns, ha⟩ := ih (μ s') (hn ▸ hlt) hs' rfl
      exact ⟨a, (returns_iff_of_next hnext).mpr hreturns, ha⟩
    · exact ⟨a, (returns_iff_of_done hdone).mpr rfl, ha⟩

end Hostapd.Lib
