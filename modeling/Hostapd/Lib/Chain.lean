import Mathlib.Data.List.Basic

/-!
# Chained blocks

Hiding a string in blocks of one width: each block is combined, octet by octet, with a pad, and the
pad of the next block is made from the hidden block before it.

* **`unchain_chain`**: a string of whole blocks is uncovered, whatever the two functions are, as
  long as combining twice with a pad cancels.
-/

namespace Hostapd.Lib

section Chain

variable {α σ : Type*} (combine : α → α → α) (width : ℕ) (pad : σ → List α) (next : List α → σ)

def chain : ℕ → σ → List α → List α
  | 0, _, _ => []
  | n + 1, s, data =>
    let block := (data.take width).zipWith combine (pad s)
    block ++ chain n (next block) (data.drop width)

def unchain : ℕ → σ → List α → List α
  | 0, _, _ => []
  | n + 1, s, data =>
    let block := data.take width
    block.zipWith combine (pad s) ++ unchain n (next block) (data.drop width)

variable {combine width pad next}

theorem zipWith_cancel (hcancel : ∀ a b, combine (combine a b) b = a) :
    ∀ {block mask : List α}, block.length ≤ mask.length →
      (block.zipWith combine mask).zipWith combine mask = block := by
  intro block
  induction block with
  | nil =>
    intro mask _
    simp
  | cons a block ih =>
    intro mask hlen
    obtain ⟨b, mask, rfl⟩ := List.exists_cons_of_length_pos (Nat.zero_lt_of_lt hlen)
    simp only [List.zipWith_cons_cons, hcancel, ih (Nat.le_of_succ_le_succ hlen)]

theorem length_rest {n : ℕ} {data : List α} (hdata : data.length = (n + 1) * width) :
    width ≤ data.length ∧ (data.drop width).length = n * width := by
  rw [Nat.succ_mul] at hdata
  rw [List.length_drop]
  omega

section Whole

variable (hpad : ∀ s, (pad s).length = width)
include hpad

variable {data : List α}

theorem length_hidden (s : σ) (hdata : width ≤ data.length) :
    ((data.take width).zipWith combine (pad s)).length = width := by
  rw [List.length_zipWith, List.length_take, hpad, Nat.min_eq_left hdata, Nat.min_self]

theorem length_chain (n : ℕ) (s : σ) (hdata : data.length = n * width) :
    (chain combine width pad next n s data).length = data.length := by
  induction n generalizing s data with
  | zero =>
    rw [Nat.zero_mul] at hdata
    rw [hdata]
    rfl
  | succ n ih =>
    obtain ⟨hfirst, hrest⟩ := length_rest hdata
    rw [chain, List.length_append, length_hidden hpad s hfirst, ih _ hrest, List.length_drop]
    omega

theorem length_unchain (n : ℕ) (s : σ) (hdata : data.length = n * width) :
    (unchain combine width pad next n s data).length = data.length := by
  induction n generalizing s data with
  | zero =>
    rw [Nat.zero_mul] at hdata
    rw [hdata]
    rfl
  | succ n ih =>
    obtain ⟨hfirst, hrest⟩ := length_rest hdata
    rw [unchain, List.length_append, length_hidden hpad s hfirst, ih _ hrest, List.length_drop]
    omega

/-- **What has been hidden is uncovered.** -/
theorem unchain_chain (hcancel : ∀ a b, combine (combine a b) b = a) (n : ℕ) (s : σ)
    (hdata : data.length = n * width) :
    unchain combine width pad next n s (chain combine width pad next n s data) = data := by
  induction n generalizing s data with
  | zero =>
    rw [Nat.zero_mul] at hdata
    rw [List.length_eq_zero_iff.mp hdata]
    rfl
  | succ n ih =>
    obtain ⟨hfirst, hrest⟩ := length_rest hdata
    have hblock : ((data.take width).zipWith combine (pad s)).length = width :=
      length_hidden hpad s hfirst
    have hshort : (data.take width).length ≤ (pad s).length := by
      rw [hpad, List.length_take]
      exact Nat.min_le_left _ _
    rw [chain, unchain, List.take_left' hblock, List.drop_left' hblock]
    rw [ih _ hrest, zipWith_cancel hcancel hshort, List.take_append_drop]

end Whole

end Chain

end Hostapd.Lib
