import Mathlib.Data.List.Basic
import Mathlib.Data.List.Nodup

/-!
# A table of the latest entries

A table of `n` cells holds the latest entries in front and a filler `z` behind them. An entry is
put in at index 0 after the others moved down, which pushes the last one out, and taken out by
moving up what stands behind it.

* **`shiftDown`**, **`shiftUp`**: the two loops over the cells, with what they leave
  (`set_shiftDown`, `set_shiftUp`).
* **`padded n z l`**: the table that holds `l`; what is in front of its first filler is `l`
  (`take_findIdx_padded`).
* **`pushFront n l a`**: the entries after `a` is put in, with no entry twice and at most `n`.
-/

namespace Hostapd.Lib

section Recent

variable {α : Type*}

/-! ## The loops -/

/-- `for (i = k; i > 0; i--) m[i] = m[i - 1]`. -/
def shiftDown (z : α) : ℕ → List α → List α
  | 0, m => m
  | i + 1, m => shiftDown z i (m.set (i + 1) (m.getD i z))

/-- `k` rounds of `m[i] = m[i + 1]; i++`. -/
def shiftUp (z : α) : ℕ → ℕ → List α → List α
  | 0, _, m => m
  | k + 1, i, m => shiftUp z k (i + 1) (m.set i (m.getD (i + 1) z))

variable {m : List α}

theorem shiftDown_eq (z : α) {k : ℕ} (hk : k < m.length) :
    shiftDown z k m = m.take 1 ++ m.take k ++ m.drop (k + 1) := by
  induction k generalizing m with
  | zero =>
    rw [shiftDown, List.take_zero, List.append_nil, List.take_append_drop]
  | succ k ih =>
    have hlt : k < m.length := Nat.lt_of_succ_lt hk
    have hset : k < (m.set (k + 1) (m.getD k z)).length := by simpa using hlt
    have hget : m.getD k z = m[k] := by simp [hlt]
    have htake : m.take (k + 1) = m.take k ++ [m[k]] := by
      rw [List.take_add_one, List.getElem?_eq_getElem hlt]
      rfl
    rw [shiftDown, ih hset, hget, htake, List.take_set_of_le (by omega),
      List.take_set_of_le (by omega), List.drop_set, if_neg (Nat.lt_irrefl _), Nat.sub_self,
      List.drop_eq_getElem_cons hk, List.set_cons_zero]
    simp only [List.append_assoc, List.cons_append, List.nil_append]

theorem shiftUp_eq (z : α) {k i : ℕ} (hk : i + k < m.length) :
    shiftUp z k i m = m.take i ++ (m.drop (i + 1)).take k ++ m.drop (i + k) := by
  induction k generalizing i m with
  | zero => simp [shiftUp]
  | succ k ih =>
    have hlt : i + 1 < m.length := by omega
    have hget : m.getD (i + 1) z = m[i + 1] := by simp [hlt]
    have hset : i + 1 + k < (m.set i (m.getD (i + 1) z)).length := by
      rw [List.length_set]
      omega
    have htake : (m.set i m[i + 1]).take (i + 1) = m.take i ++ [m[i + 1]] := by
      rw [List.take_add_one, List.take_set_of_le (Nat.le_refl i), List.getElem?_set_self (by omega)]
      rfl
    rw [shiftUp, ih hset, hget, htake, List.drop_set_of_lt (by omega),
      List.drop_set_of_lt (by omega), List.drop_eq_getElem_cons hlt, List.take_succ_cons,
      show i + 1 + k = i + (k + 1) by omega]
    simp

theorem set_shiftDown (z a : α) {k : ℕ} (h : m.length = k + 1) :
    (shiftDown z k m).set 0 a = (a :: m).take (k + 1) := by
  rw [shiftDown_eq z (by omega), List.drop_of_length_le (by omega), List.append_nil]
  cases m with
  | nil => exact absurd h (by simp)
  | cons b m => rfl

theorem set_shiftUp (z : α) {k i : ℕ} (h : m.length = i + k + 1) :
    (shiftUp z k i m).set (i + k) z = m.eraseIdx i ++ [z] := by
  have hrest : (m.drop (i + 1)).length = k := by
    rw [List.length_drop]
    omega
  have hfront : (m.take i ++ m.drop (i + 1)).length = i + k := by
    rw [List.length_append, List.length_take, hrest]
    omega
  have hlast : (m.drop (i + k)).length = 1 := by
    rw [List.length_drop]
    omega
  obtain ⟨b, hb⟩ := List.length_eq_one_iff.mp hlast
  rw [shiftUp_eq z (by omega), List.take_of_length_le (Nat.le_of_eq hrest), hb,
    List.set_append_right _ _ (Nat.le_of_eq hfront), hfront, Nat.sub_self, List.set_cons_zero,
    List.eraseIdx_eq_take_drop_succ]

/-! ## The table -/

/-- The table of `n` cells that holds the entries `l`. -/
def padded (n : ℕ) (z : α) (l : List α) : List α := l ++ List.replicate (n - l.length) z

@[simp] theorem padded_nil (n : ℕ) (z : α) : padded n z [] = List.replicate n z := rfl

variable {n : ℕ} {l : List α}

@[simp] theorem length_padded (z : α) (h : l.length ≤ n) :
    (padded n z l).length = n := by
  rw [padded, List.length_append, List.length_replicate, Nat.add_sub_cancel' h]

theorem padded_of_full (z : α) (h : l.length = n) : padded n z l = l := by
  rw [padded, h, Nat.sub_self, List.replicate_zero, List.append_nil]

theorem mem_padded {z a : α} (ha : a ≠ z) : a ∈ padded n z l ↔ a ∈ l := by
  simp [padded, ha]

theorem filler_mem_padded {z : α} (hz : z ∉ l) :
    z ∈ padded n z l ↔ l.length < n := by
  simp only [padded, List.mem_append, hz, List.mem_replicate, false_or, and_true]
  omega

theorem take_findIdx_padded {z : α} {p : α → Bool} (hz : p z)
    (hl : ∀ a ∈ l, ¬ p a) : (padded n z l).take ((padded n z l).findIdx p) = l := by
  have hidx : (padded n z l).findIdx p = l.length := by
    have hnone : l.findIdx p = l.length :=
      List.findIdx_eq_length.mpr fun a ha => by simpa using hl a ha
    rw [padded, List.findIdx_append, if_neg (by omega)]
    cases n - l.length with
    | zero => simp
    | succ k => simp [List.replicate_succ, List.findIdx_cons, hz]
  rw [hidx, padded, List.take_left']
  rfl

theorem cons_take_padded (z a : α) (hn : 0 < n) (h : l.length ≤ n) :
    (a :: padded n z l).take n = padded n z ((a :: l).take n) := by
  obtain ⟨k, rfl⟩ := Nat.exists_eq_add_of_lt hn
  rcases Nat.lt_or_eq_of_le h with hlt | heq
  · have htake : (a :: l).take (0 + k + 1) = a :: l := List.take_of_length_le (by simp; omega)
    rw [htake]
    simp only [padded, List.take_succ_cons, List.length_cons, List.cons_append, List.take_append,
      List.take_replicate, List.take_of_length_le (show l.length ≤ 0 + k by omega)]
    congr 3
    omega
  · rw [padded_of_full z heq, padded_of_full z (by simp [heq])]

/-! ## The entries -/

variable [BEq α] [LawfulBEq α]

/-- The entries after `a` is put in. -/
def pushFront (n : ℕ) (l : List α) (a : α) : List α := if a ∈ l then l else (a :: l).take n

theorem length_pushFront_le (h : l.length ≤ n) (a : α) :
    (pushFront n l a).length ≤ n := by
  rw [pushFront]
  split
  · exact h
  · exact List.length_take_le n _

theorem nodup_pushFront (h : l.Nodup) (n : ℕ) (a : α) : (pushFront n l a).Nodup := by
  rw [pushFront]
  split
  · exact h
  · next hmem => exact (List.nodup_cons.mpr ⟨hmem, h⟩).sublist (List.take_sublist n _)

theorem forall_mem_pushFront {P : α → Prop} (hl : ∀ b ∈ l, P b) {a : α} (ha : P a)
    (n : ℕ) : ∀ b ∈ pushFront n l a, P b := by
  rw [pushFront]
  split
  · exact hl
  · exact fun b hb => List.forall_mem_cons.mpr ⟨ha, hl⟩ b (List.mem_of_mem_take hb)

theorem not_mem_pushFront {a z : α} (hz : z ∉ l) (ha : a ≠ z) (n : ℕ) :
    z ∉ pushFront n l a :=
  fun hmem => forall_mem_pushFront (P := (· ≠ z)) (fun _ hb hbz => hz (hbz ▸ hb)) ha n z hmem rfl

theorem erase_padded {z a : α} (ha : a ∈ l) (h : l.length ≤ n) :
    (padded n z l).erase a ++ [z] = padded n z (l.erase a) := by
  have hpos : 0 < l.length := List.length_pos_of_mem ha
  rw [padded, List.erase_append_left _ ha, padded, List.length_erase_of_mem ha, List.append_assoc,
    ← List.replicate_succ']
  congr 2
  omega

theorem erase_filler_padded {z : α} (hz : z ∉ l) (h : l.length < n) :
    (padded n z l).erase z ++ [z] = padded n z l := by
  obtain ⟨k, rfl⟩ := Nat.exists_eq_add_of_lt h
  have hroom : l.length + k + 1 - l.length = k + 1 := by omega
  rw [padded, hroom, List.erase_append_right _ hz, List.replicate_succ, List.erase_cons_head,
    List.append_assoc, ← List.replicate_succ', List.replicate_succ]

end Recent

end Hostapd.Lib
