import Mathlib.Data.List.Induction

/-!
# Runs of a step function

The general theory of runs that every component of this development instantiates. A component is
a step function `step : σ → α → σ` on a state `σ` with operations `α`; a run is a list of
operations, and the state it reaches is `run step s l`.

* **`run`**: the state reached by a list of operations, with its append and cons equations.
* **`Along step C s l`**: the predicate `C` holds of every (state, operation) pair the run passes
  through. It is how the development says "in every run whose steps all meet the condition".
* **`run_inv`, `Along.run_inv`**: the invariant rule, without and with a condition on the steps.
* **`along_congr`**, **`Along.congr`**: two conditions that agree under an invariant are met along
  the same runs.
-/

namespace Hostapd.Lib

section Runs

variable {σ α : Type*} (step : σ → α → σ)

/-- The state reached from `s` by the operations `l`, in order. -/
def run (s : σ) : List α → σ
  | [] => s
  | a :: l => run (step s a) l

@[simp] theorem run_nil (s : σ) : run step s [] = s := rfl

@[simp] theorem run_cons (s : σ) (a : α) (l : List α) :
    run step s (a :: l) = run step (step s a) l := rfl

theorem run_append (s : σ) (l l' : List α) :
    run step s (l ++ l') = run step (run step s l) l' := by
  induction l generalizing s with
  | nil => rfl
  | cons a l ih => exact ih (step s a)

/-- The predicate `C` holds of every state and operation the run of `l` from `s` passes through.
-/
def Along (C : σ → α → Prop) : σ → List α → Prop
  | _, [] => True
  | s, a :: l => C s a ∧ Along C (step s a) l

instance instDecidableAlong (C : σ → α → Prop) [∀ s a, Decidable (C s a)] :
    ∀ (s : σ) (l : List α), Decidable (Along step C s l)
  | _, [] => .isTrue trivial
  | s, a :: l => @instDecidableAnd _ _ _ (instDecidableAlong C (step s a) l)

variable {step}

variable {I : σ → Prop} {s : σ}

theorem run_inv (hstep : ∀ s a, I s → I (step s a)) (hs : I s)
    (l : List α) : I (run step s l) := by
  induction l generalizing s with
  | nil => exact hs
  | cons a l ih => exact ih (hstep s a hs)

variable {l : List α}

/-- The conditional invariant rule: what one step that meets `C` preserves, a run whose steps all
meet `C` preserves. -/
theorem Along.run_inv {C : σ → α → Prop}
    (hstep : ∀ s a, I s → C s a → I (step s a)) (hs : I s)
    (hl : Along step C s l) : I (run step s l) := by
  induction l generalizing s with
  | nil => exact hs
  | cons a l ih => exact ih (hstep s a hs hl.1) hl.2

theorem along_of_forall {P : α → Prop} (h : ∀ a ∈ l, P a) (s : σ) :
    Along step (fun _ a => P a) s l := by
  induction l generalizing s with
  | nil => trivial
  | cons a l ih =>
    exact ⟨h a List.mem_cons_self, ih (fun b hb => h b (List.mem_cons_of_mem a hb)) (step s a)⟩

variable {C D : σ → α → Prop}

/-- Under an invariant that steps meeting `D` keep and under which `C` and `D` agree, a run meets
`C` at every step exactly when it meets `D` at every step. -/
theorem along_congr
    (hstep : ∀ s a, I s → D s a → I (step s a)) (hCD : ∀ s a, I s → (C s a ↔ D s a))
    (hs : I s) (l : List α) : Along step C s l ↔ Along step D s l := by
  induction l generalizing s with
  | nil => exact Iff.rfl
  | cons a l ih =>
    constructor
    · rintro ⟨hc, hl⟩
      have hd := (hCD s a hs).mp hc
      exact ⟨hd, (ih (hstep s a hs hd)).mp hl⟩
    · rintro ⟨hd, hl⟩
      exact ⟨(hCD s a hs).mpr hd, (ih (hstep s a hs hd)).mpr hl⟩

theorem Along.congr {C D E : σ → α → Prop}
    (hstep : ∀ s a, I s → E s a → D s a → I (step s a))
    (hCD : ∀ s a, I s → E s a → (C s a ↔ D s a)) (hs : I s)
    (hl : Along step E s l) : Along step C s l ↔ Along step D s l := by
  induction l generalizing s with
  | nil => exact Iff.rfl
  | cons a l ih =>
    obtain ⟨he, hl⟩ := hl
    constructor
    · rintro ⟨hc, hrest⟩
      have hd := (hCD s a hs he).mp hc
      exact ⟨hd, (ih (hstep s a hs he hd) hl).mp hrest⟩
    · rintro ⟨hd, hrest⟩
      exact ⟨(hCD s a hs he).mpr hd, (ih (hstep s a hs he hd) hl).mpr hrest⟩

/-- What holds of the steps that meet `C` where the invariant holds, holds along a run of steps that
meet `C`. -/
theorem Along.imp_of_inv
    (hstep : ∀ s a, I s → C s a → I (step s a)) (hD : ∀ s a, I s → C s a → D s a)
    (hs : I s) (hl : Along step C s l) : Along step D s l := by
  induction l generalizing s with
  | nil => trivial
  | cons a l ih => exact ⟨hD s a hs hl.1, ih (hstep s a hs hl.1) hl.2⟩

theorem Along.and (h : Along step C s l)
    (h' : Along step D s l) : Along step (fun s a => C s a ∧ D s a) s l := by
  induction l generalizing s with
  | nil => trivial
  | cons a l ih => exact ⟨⟨h.1, h'.1⟩, ih h.2 h'.2⟩

theorem Along.append {C : σ → α → Prop} {l l' : List α} :
    Along step C s (l ++ l') ↔ Along step C s l ∧ Along step C (run step s l) l' := by
  induction l generalizing s with
  | nil => simp [Along]
  | cons a l ih => simp [Along, ih, and_assoc]

/-! ## What happened in a run -/

theorem run_snoc (s : σ) (l : List α) (a : α) :
    run step s (l ++ [a]) = step (run step s l) a := by
  rw [run_append, run_cons, run_nil]

end Runs

end Hostapd.Lib
