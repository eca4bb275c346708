import Mathlib.Data.BitVec
import Mathlib.Data.List.FinRange
import Mathlib.Algebra.Order.Group.Nat

/-!
# Bitmaps in words

An allocation bitmap: an array of `n` words of `w` bits, in which the number `k` is the bit
`k % w` of the word `k / w`.

* **`test`, `set`, `clear`**: one number of the map; `test_set` and `test_clear` say what they do
  to every other one.
* **`firstFree`**: the scan for a free number, word by word and bit by bit.
  **`firstFree_spec`**: it finds the least one; **`firstFree_eq_none`**: it fails only on a full
  map.
-/

namespace Hostapd.Lib

/-- `n` words of `w` bits. -/
abbrev Bitmap (n w : ℕ) := Fin n → BitVec w

namespace Bitmap

variable {n w : ℕ}

def test (m : Bitmap n w) (k : ℕ) : Bool :=
  if h : k / w < n then (m ⟨k / w, h⟩).getLsbD (k % w) else false

def set (m : Bitmap n w) (k : ℕ) : Bitmap n w :=
  fun i => if (i : ℕ) = k / w then m i ||| BitVec.twoPow w (k % w) else m i

def clear (m : Bitmap n w) (k : ℕ) : Bitmap n w :=
  fun i => if (i : ℕ) = k / w then m i &&& ~~~BitVec.twoPow w (k % w) else m i

theorem eq_of_place {k q : ℕ} (hword : q / w = k / w) (hbit : q % w = k % w) : q = k := by
  rw [← Nat.div_add_mod q w, ← Nat.div_add_mod k w, hword, hbit]

variable {k : ℕ}

theorem word_lt (hk : k < n * w) : k / w < n :=
  Nat.div_lt_of_lt_mul (by rwa [Nat.mul_comm])

theorem bit_lt (hk : k < n * w) : k % w < w :=
  Nat.mod_lt _ (Nat.pos_of_ne_zero fun h => by simp [h] at hk)

theorem test_set (m : Bitmap n w) (hk : k < n * w) (q : ℕ) :
    (m.set k).test q = (decide (q = k) || m.test q) := by
  unfold test set
  by_cases hq : q = k
  · subst hq
    simp [word_lt hk, bit_lt hk]
  · by_cases hword : q / w = k / w
    · have hbit : k % w ≠ q % w := fun h => hq (eq_of_place hword h.symm)
      simp [hq, hword, hbit, BitVec.getLsbD_twoPow]
    · simp [hq, hword]

theorem test_clear (m : Bitmap n w) (hk : k < n * w) (q : ℕ) :
    (m.clear k).test q = (!decide (q = k) && m.test q) := by
  unfold test clear
  by_cases hq : q = k
  · subst hq
    simp [word_lt hk, bit_lt hk]
  · by_cases hword : q / w = k / w
    · have hbit : ¬ q % w = k % w := fun h => hq (eq_of_place hword h)
      have hlt : q % w < w := Nat.mod_lt _ ((Nat.zero_le _).trans_lt (bit_lt hk))
      simp [hq, hword, hbit, hlt]
    · simp [hq, hword]

/-! ## The scan -/

def firstClear (x : BitVec w) : Option (Fin w) := (List.finRange w).find? fun j => !x.getLsbD j

/-- The first clear bit of the first word that is not all ones. -/
def firstFree (m : Bitmap n w) : Option (Fin n × Fin w) :=
  (List.finRange n).findSome? fun i =>
    if m i = BitVec.allOnes w then none else (firstClear (m i)).map fun j => (i, j)

theorem mem_before_of_lt {i i' : Fin n} {l₁ l₂ : List (Fin n)}
    (hl : List.finRange n = l₁ ++ i :: l₂) (hlt : i' < i) : i' ∈ l₁ := by
  have hsorted := List.pairwise_lt_finRange n
  have hmem : i' ∈ l₁ ++ i :: l₂ := hl ▸ List.mem_finRange i'
  rw [hl] at hsorted
  have hafter := (List.pairwise_cons.mp (List.pairwise_append.mp hsorted).2.1).1
  rcases List.mem_append.mp hmem with hmem | hmem
  · exact hmem
  · rcases List.mem_cons.mp hmem with rfl | hmem
    · exact absurd hlt (lt_irrefl _)
    · exact absurd hlt (lt_asymm (hafter i' hmem))

theorem firstClear_spec {x : BitVec w} {j : Fin w} (h : firstClear x = some j) :
    x.getLsbD j = false ∧ ∀ j' < j, x.getLsbD j' = true := by
  obtain ⟨hj, l₁, l₂, hl, hbefore⟩ := List.find?_eq_some_iff_append.mp h
  refine ⟨by simpa using hj, fun j' hlt => ?_⟩
  simpa using hbefore j' (mem_before_of_lt hl hlt)

theorem eq_allOnes_of_firstClear {x : BitVec w} (h : firstClear x = none) :
    x = BitVec.allOnes w := by
  refine BitVec.eq_of_getLsbD_eq fun j hj => ?_
  have hall := List.find?_eq_none.mp h ⟨j, hj⟩ (List.mem_finRange _)
  simpa [hj] using hall

variable {m : Bitmap n w}

theorem getLsbD_of_skipped {i : Fin n}
    (h : (if m i = BitVec.allOnes w then none else (firstClear (m i)).map fun j => (i, j)) = none)
    {j : ℕ} (hj : j < w) : (m i).getLsbD j = true := by
  have hones : m i = BitVec.allOnes w := by
    split at h
    · assumption
    · exact eq_allOnes_of_firstClear (Option.map_eq_none_iff.mp h)
  simp [hones, hj]

theorem firstFree_spec {i : Fin n} {j : Fin w} (h : m.firstFree = some (i, j)) :
    m.test (i * w + j) = false ∧ ∀ k < i * w + j, m.test k = true := by
  obtain ⟨l₁, i₀, l₂, hl, hi, hbefore⟩ := List.findSome?_eq_some_iff.mp h
  split at hi
  · cases hi
  obtain ⟨j₀, hj, heq⟩ := Option.map_eq_some_iff.mp hi
  obtain ⟨rfl, rfl⟩ := Prod.mk.inj heq
  obtain ⟨hclear, hset⟩ := firstClear_spec hj
  have hw : 0 < w := j₀.pos
  have hdiv : (i₀ * w + j₀) / w = i₀ := by
    rw [Nat.mul_comm, Nat.mul_add_div hw, Nat.div_eq_of_lt j₀.isLt, Nat.add_zero]
  have hmod : (i₀ * w + j₀) % w = j₀ := by
    rw [Nat.mul_comm, Nat.mul_add_mod, Nat.mod_eq_of_lt j₀.isLt]
  refine ⟨by simpa [test, hdiv, hmod] using hclear, fun k hk => ?_⟩
  have hword : k / w ≤ i₀ := hdiv ▸ Nat.div_le_div_right hk.le
  have hn : k / w < n := hword.trans_lt i₀.isLt
  rw [test, dif_pos hn]
  rcases Nat.lt_or_eq_of_le hword with hlt | heq
  · exact getLsbD_of_skipped (hbefore ⟨k / w, hn⟩ (mem_before_of_lt hl hlt)) (Nat.mod_lt _ hw)
  · have hbit : k % w < j₀ := by
      have hsplit := Nat.div_add_mod k w
      rw [heq, Nat.mul_comm] at hsplit
      omega
    have hat : (⟨k / w, hn⟩ : Fin n) = i₀ := Fin.ext heq
    rw [hat]
    exact hset ⟨k % w, Nat.mod_lt _ hw⟩ hbit

theorem firstFree_eq_none (h : m.firstFree = none) (hk : k < n * w) :
    m.test k = true := by
  have hskip := List.findSome?_eq_none_iff.mp h ⟨k / w, word_lt hk⟩ (List.mem_finRange _)
  rw [test, dif_pos (word_lt hk)]
  exact getLsbD_of_skipped hskip (bit_lt hk)

end Bitmap

end Hostapd.Lib
