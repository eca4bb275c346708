import Mathlib.Data.List.Basic
import Mathlib.Logic.Function.Basic
import Hostapd.Lib.Nodes

/-!
# Pointers that are set before they are used

Functions that allocate objects for the pointers of a structure one after the other, use them, and
give up at the first call that fails.

* **`Instr`**, `exec`: such a function, and what it does to the pointers. `ok` tells which calls
  succeed, by the number of instructions behind them.
* **`defined`** checks that every pointer is used behind its allocation, and **`exec_of_defined`**
  says what follows: there is no fault, whichever call fails.
-/

namespace Hostapd.Lib.Slots

/-- A pointer that is NULL, one to an object, and one to an object that has been freed or that was
never set. -/
inductive Ptr
  | null | live | stale
  deriving DecidableEq

/-- A step of a function. -/
inductive Instr (σ : Type)
  | alloc (x : σ)
  | use (xs : List σ)
  /-- a call that may fail and sets no pointer -/
  | attempt
  /-- the first octets of the payload are read -/
  | read (n : ℕ)
  deriving DecidableEq

variable {σ : Type}

/-- The pointers are followed. -/
def follow (m : σ → Ptr) (xs : List σ) : Except MemFault Unit :=
  match xs.find? fun x => m x ≠ .live with
  | none => .ok ()
  | some x => .error (if m x = .null then .null else .freed)

theorem follow_of {m : σ → Ptr} {xs : List σ} (h : ∀ x ∈ xs, m x = .live) :
    follow m xs = .ok () := by
  have hnone : (xs.find? fun x => m x ≠ .live) = none :=
    List.find?_eq_none.mpr fun x hx => by simp [h x hx]
  rw [follow, hnone]

variable [DecidableEq σ]

/-- Whether the function gets to its end, and the pointers. -/
def exec (ok : ℕ → Bool) (len : ℕ) : List (Instr σ) → (σ → Ptr) → Except MemFault (Bool × (σ → Ptr))
  | [], m => .ok (true, m)
  | .alloc x :: p, m =>
    if ok p.length then exec ok len p (Function.update m x .live)
    else .ok (false, Function.update m x .null)
  | .use xs :: p, m => do
    follow m xs
    exec ok len p m
  | .attempt :: p, m => if ok p.length then exec ok len p m else .ok (false, m)
  | .read n :: p, m => if n ≤ len then exec ok len p m else .error .outside

/-- Pointers are used when they are in the list or have been set. -/
def defined : List σ → List (Instr σ) → Bool
  | _, [] => true
  | s, .alloc x :: p => defined (x :: s) p
  | s, .use xs :: p => xs.all (s.contains ·) && defined s p
  | s, .attempt :: p | s, .read _ :: p => defined s p

/-- The pointers that are set. -/
def allocated : List (Instr σ) → List σ
  | [] => []
  | .alloc x :: p => x :: allocated p
  | .use _ :: p | .attempt :: p | .read _ :: p => allocated p

/-- The octets that are read. -/
def readUpTo : List (Instr σ) → ℕ
  | [] => 0
  | .read n :: p => max n (readUpTo p)
  | .use _ :: p | .attempt :: p | .alloc _ :: p => readUpTo p

variable {s : List σ} {p : List (Instr σ)} {m : σ → Ptr}

/-- A function that uses no pointer before it is set. -/
theorem exec_of_defined (ok : ℕ → Bool) (len : ℕ) (hp : defined s p = true)
    (hs : ∀ x ∈ s, m x = .live) (hlen : readUpTo p ≤ len) : ∃ b m', exec ok len p m = .ok (b, m') ∧
      (∀ x, x ∉ allocated p → m' x = m x) ∧ (∀ x, m x ≠ .stale → m' x ≠ .stale) ∧
      (b = true → ∀ x, x ∈ s ∨ x ∈ allocated p → m' x = .live) ∧
      ((∀ i < p.length, ok i = true) → b = true) := by
  induction p generalizing s m with
  | nil =>
    exact ⟨true, m, rfl, fun _ _ => rfl, fun _ h => h,
      fun _ x hx => hs x (by simpa [allocated] using hx), fun _ => rfl⟩
  | cons i p ih =>
    cases i with
    | alloc x =>
      by_cases hok : ok p.length = true
      · have hs' : ∀ y ∈ x :: s, Function.update m x .live y = .live := by
          intro y hy
          by_cases hxy : y = x
          · rw [hxy, Function.update_self]
          · rw [Function.update_of_ne hxy]
            exact hs y ((List.mem_cons.mp hy).resolve_left hxy)
        obtain ⟨b, m', hexec, hsame, hstale, hlive, hend⟩ := ih hp hs' hlen
        refine ⟨b, m', by rw [exec, if_pos hok, hexec], ?_, ?_, ?_,
          fun h => hend fun i hi => h i (Nat.lt_succ_of_lt hi)⟩
        · intro y hy
          simp only [allocated, List.mem_cons, not_or] at hy
          rw [hsame y hy.2, Function.update_of_ne hy.1]
        · intro y hy
          refine hstale y ?_
          by_cases hxy : y = x
          · rw [hxy, Function.update_self]
            decide
          · rwa [Function.update_of_ne hxy]
        · intro hb y hy
          refine hlive hb y ?_
          simp only [allocated, List.mem_cons] at hy ⊢
          tauto
      · refine ⟨false, Function.update m x .null, by rw [exec, if_neg hok], ?_, ?_, nofun,
          fun h => absurd (h p.length (Nat.lt_succ_self _)) hok⟩
        · intro y hy
          simp only [allocated, List.mem_cons, not_or] at hy
          rw [Function.update_of_ne hy.1]
        · intro y hy
          by_cases hxy : y = x
          · rw [hxy, Function.update_self]
            decide
          · rwa [Function.update_of_ne hxy]
    | use xs =>
      simp only [defined, Bool.and_eq_true, List.all_eq_true, List.contains_iff_mem] at hp
      obtain ⟨b, m', hexec, hsame, hstale, hlive, hend⟩ := ih hp.2 hs hlen
      refine ⟨b, m', ?_, hsame, hstale, hlive, fun h => hend fun i hi => h i (Nat.lt_succ_of_lt hi)⟩
      rw [exec, follow_of fun x hx => hs x (hp.1 x hx)]
      exact hexec
    | attempt =>
      by_cases hok : ok p.length = true
      · obtain ⟨b, m', hexec, hsame, hstale, hlive, hend⟩ := ih hp hs hlen
        exact ⟨b, m', by rw [exec, if_pos hok, hexec], hsame, hstale, hlive,
          fun h => hend fun i hi => h i (Nat.lt_succ_of_lt hi)⟩
      · exact ⟨false, m, by rw [exec, if_neg hok], fun _ _ => rfl, fun _ h => h, nofun,
          fun h => absurd (h p.length (Nat.lt_succ_self _)) hok⟩
    | read n =>
      obtain ⟨b, m', hexec, hsame, hstale, hlive, hend⟩ := ih hp hs (Nat.max_le.mp hlen |>.2)
      exact ⟨b, m', by rw [exec, if_pos (Nat.max_le.mp hlen |>.1), hexec], hsame, hstale, hlive,
        fun h => hend fun i hi => h i (Nat.lt_succ_of_lt hi)⟩

end Hostapd.Lib.Slots
