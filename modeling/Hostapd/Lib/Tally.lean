import Mathlib.Data.Int.Basic
import Mathlib.Data.List.Count
import Mathlib.Data.List.InsertIdx
import Mathlib.Data.List.Nodup

/-!
# Counting the members of a list that owe something

A component that keeps a counter of those of its members that owe it something is right when the
counter is the `tally` of the list of members. The counter is an integer, as it is in a program, and
may run below zero where the program is wrong.

* **`tally_change`**: the effect of a change at one member.
* **`tally_eq_zero_iff`**: nobody owes anything exactly when the tally is zero.
-/

namespace Hostapd.Lib

variable {ι : Type*}

def tally (l : List ι) (owes : ι → Bool) : ℤ := l.countP owes

def share (b : Bool) : ℤ := if b then 1 else 0

@[simp] theorem share_true : share true = 1 := rfl
@[simp] theorem share_false : share false = 0 := rfl

variable {l : List ι}

theorem tally_congr {p q : ι → Bool} (h : ∀ i ∈ l, p i = q i) :
    tally l p = tally l q := by
  rw [tally, tally, List.countP_congr fun i hi => by rw [h i hi]]

theorem tally_cons (i : ι) (l : List ι) (p : ι → Bool) :
    tally (i :: l) p = tally l p + share (p i) := by
  cases h : p i <;> simp [tally, share, h]

theorem tally_perm {l l' : List ι} (h : l.Perm l') (p : ι → Bool) : tally l p = tally l' p := by
  rw [tally, tally, h.countP_eq]

theorem tally_nonneg (l : List ι) (p : ι → Bool) : 0 ≤ tally l p := Int.natCast_nonneg _

theorem tally_eq_zero_iff {p : ι → Bool} :
    tally l p = 0 ↔ ∀ i ∈ l, p i = false := by
  rw [tally, Int.natCast_eq_zero, List.countP_eq_zero]
  simp only [Bool.not_eq_true]

theorem tally_pos {p : ι → Bool} {i : ι} (hi : i ∈ l) (hp : p i = true) :
    0 < tally l p := by
  have hnonneg := tally_nonneg l p
  by_contra hpos
  have hzero : tally l p = 0 := by omega
  rw [tally_eq_zero_iff.mp hzero i hi] at hp
  exact Bool.noConfusion hp

theorem eq_of_tally_eq {p q : ι → Bool} (hpq : ∀ i ∈ l, q i = true → p i = true)
    (h : tally l p = tally l q) : ∀ i ∈ l, p i = true → q i = true := by
  have hle (m : List ι) (hm : ∀ i ∈ m, q i = true → p i = true) : tally m q ≤ tally m p :=
    Int.ofNat_le.mpr (List.countP_mono_left hm)
  induction l with
  | nil => exact fun i hi => absurd hi List.not_mem_nil
  | cons a l ih =>
    have hrest : ∀ i ∈ l, q i = true → p i = true := fun i hi => hpq i (List.mem_cons_of_mem a hi)
    have ha := hpq a List.mem_cons_self
    have hlt := hle l hrest
    rw [tally_cons, tally_cons] at h
    intro i hi hp
    rcases List.mem_cons.mp hi with rfl | hi
    · by_contra hq
      rw [hp, (Bool.not_eq_true _).mp hq] at h
      simp only [share_true, share_false] at h
      omega
    · have hshare : share (q a) ≤ share (p a) := by
        cases hqa : q a with
        | false => cases p a <;> decide
        | true => exact Int.le_of_eq (congrArg share (ha hqa).symm)
      exact ih hrest (by omega) i hi hp

theorem tally_insertIdx {n : ℕ} (hn : n ≤ l.length) (i : ι) (p : ι → Bool) :
    tally (l.insertIdx n i) p = tally l p + share (p i) := by
  rw [tally_perm (List.perm_insertIdx i l hn) p, tally_cons]

section Members

variable [DecidableEq ι] {l : List ι} {i : ι}

theorem tally_erase (hi : i ∈ l) (p : ι → Bool) :
    tally (l.erase i) p = tally l p - share (p i) := by
  have hsplit := tally_perm (List.perm_cons_erase hi) p
  rw [tally_cons] at hsplit
  omega

theorem tally_change (hl : l.Nodup) (hi : i ∈ l) {p q : ι → Bool}
    (h : ∀ j ∈ l, j ≠ i → q j = p j) : tally l q - share (q i) = tally l p - share (p i) := by
  rw [← tally_erase hi, ← tally_erase hi]
  refine tally_congr fun j hj => h j (List.mem_of_mem_erase hj) ?_
  exact (hl.mem_erase_iff.mp hj).1

end Members

end Hostapd.Lib
