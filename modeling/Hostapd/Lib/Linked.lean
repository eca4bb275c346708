import Mathlib.Data.List.Basic
import Mathlib.Data.List.Nodup
import Mathlib.Logic.Function.Basic

/-!
# Linked lists of nodes

A circular doubly linked list with a head outside of it, as the sequence of its nodes. A node is
in a list at most once, so that unlinking it is `List.erase`.

* **`prevNode`**, **`addAfter`**: the node in front of a node, and linking a node behind another
  one; `none` is the head in both.
* **`addAfter_prevNode_erase`**: a node that is unlinked and linked again behind the node that was
  in front of it, under another name perhaps, is in its old place.
-/

namespace Hostapd.Lib

variable {α : Type*} [DecidableEq α]

/-- The node in front of `a`; `none` is the head of the list. -/
def prevNode (a : α) (l : List α) : Option α := (l.takeWhile (· ≠ a)).getLast?

/-- Link `a` behind the node `p`. -/
def addBehind (p a : α) : List α → List α
  | [] => []
  | x :: l => if x = p then x :: a :: l else x :: addBehind p a l

/-- Link `a` behind `prev`, or behind the head. -/
def addAfter (prev : Option α) (a : α) (l : List α) : List α :=
  match prev with
  | none => a :: l
  | some p => addBehind p a l

/-- Give the node `a` the name `b`. -/
def renameNode (a b : α) (l : List α) : List α := l.map fun x => if x = a then b else x

theorem addBehind_append {p : α} {l₁ : List α} (h : p ∉ l₁) (a : α) (l₂ : List α) :
    addBehind p a (l₁ ++ p :: l₂) = l₁ ++ p :: a :: l₂ := by
  induction l₁ with
  | nil => simp [addBehind]
  | cons x l₁ ih =>
    simp only [List.mem_cons, not_or] at h
    simp [addBehind, Ne.symm h.1, ih h.2]

variable {l : List α}

theorem renameNode_of_notMem {a b : α} (h : a ∉ l) : renameNode a b l = l := by
  unfold renameNode
  refine (List.map_congr_left ?_).trans (List.map_id l)
  intro x hx
  have hne : x ≠ a := fun hxa => h (hxa ▸ hx)
  simp [hne]

theorem mem_renameNode {a b x : α} :
    x ∈ renameNode a b l ↔ (x = b ∧ a ∈ l) ∨ (x ∈ l ∧ x ≠ a) := by
  unfold renameNode
  simp only [List.mem_map]
  constructor
  · rintro ⟨y, hy, rfl⟩
    by_cases hya : y = a
    · exact .inl ⟨by simp [hya], hya ▸ hy⟩
    · exact .inr (by simp [hya, hy])
  · rintro (⟨rfl, ha⟩ | ⟨hx, hne⟩)
    · exact ⟨a, ha, by simp⟩
    · exact ⟨x, hx, by simp [hne]⟩

/-- A node that is unlinked and linked again behind the node that was in front of it is in its
old place. -/
theorem addAfter_prevNode_erase {a : α} (hl : l.Nodup) (ha : a ∈ l) (b : α) :
    addAfter (prevNode a l) b (l.erase a) = renameNode a b l := by
  obtain ⟨l₁, l₂, rfl, hl₁⟩ := List.eq_append_cons_of_mem ha
  have hl₂ : a ∉ l₂ := (List.nodup_cons.mp (List.nodup_append.mp hl).2.1).1
  have hprev : prevNode a (l₁ ++ a :: l₂) = l₁.getLast? := by
    have htake : (l₁ ++ a :: l₂).takeWhile (· ≠ a) = l₁ := by
      rw [List.takeWhile_append_of_pos]
      · simp
      · intro x hx
        simpa using fun hxa : x = a => hl₁ (hxa ▸ hx)
    rw [prevNode, htake]
  have herase : (l₁ ++ a :: l₂).erase a = l₁ ++ l₂ := by
    rw [List.erase_append_right _ hl₁, List.erase_cons_head]
  have hname : renameNode a b (l₁ ++ a :: l₂) = l₁ ++ b :: l₂ := by
    have happ : renameNode a b (l₁ ++ a :: l₂) =
        renameNode a b l₁ ++ b :: renameNode a b l₂ := by
      simp [renameNode]
    rw [happ, renameNode_of_notMem hl₁, renameNode_of_notMem hl₂]
  rw [hprev, herase, hname]
  -- the node in front is the last one of `l₁`
  rcases List.eq_nil_or_concat l₁ with rfl | ⟨l₀, p, rfl⟩
  · rfl
  · rw [List.concat_eq_append] at hl ⊢
    have hp : p ∉ l₀ := by
      intro hp
      have hnd := (List.nodup_append.mp (List.nodup_append.mp hl).1).2.2
      exact hnd p hp p List.mem_cons_self rfl
    simp only [List.getLast?_concat, addAfter, List.append_assoc, List.singleton_append]
    exact addBehind_append hp b l₂

theorem nodup_renameNode {a b : α} (hl : l.Nodup) (hb : b = a ∨ b ∉ l) :
    (renameNode a b l).Nodup := by
  refine hl.map_on ?_
  intro x hx y hy hxy
  have hne {z : α} (hz : z ∈ l) (hza : z ≠ a) : z ≠ b := by
    rintro rfl
    exact hb.elim hza fun hnot => hnot hz
  split_ifs at hxy with hxa hya hya
  · rw [hxa, hya]
  · exact absurd hxy.symm (hne hy hya)
  · exact absurd hxy (hne hx hxa)
  · exact hxy

theorem erase_append_perm_renameNode {a : α} (hl : l.Nodup) (ha : a ∈ l) (b : α) :
    (l.erase a ++ [b]).Perm (renameNode a b l) := by
  have hcons : (renameNode a b l).Perm (b :: l.erase a) := by
    have h := (List.perm_cons_erase ha).map fun x => if x = a then b else x
    have hrest : renameNode a b (l.erase a) = l.erase a :=
      renameNode_of_notMem fun hin => (hl.mem_erase_iff.mp hin).1 rfl
    rw [renameNode] at hrest
    rwa [List.map_cons, if_pos rfl, hrest] at h
  exact (List.perm_append_singleton b _).trans hcons.symm

@[simp] theorem renameNode_self (a : α) (l : List α) : renameNode a a l = l := by
  unfold renameNode
  refine (List.map_congr_left ?_).trans (List.map_id l)
  intro x _
  by_cases hx : x = a
  · simp [hx]
  · simp [hx]

end Hostapd.Lib

/-!
## Doubly linked lists whose head knows the tail

A doubly linked list without a sentinel: the last node has no next one, and the first one points
back at the last. Nodes are linked in at the front and unlinked anywhere, so the list is an order of
use, and its least recently used node is found without a walk.

* **`Links`**: the pointers, as functions of the nodes; **`Links.Holds`**: they link a list.
* **`Links.add`**, **`Links.del`**: linking in at the front and unlinking, with the cases of the
  head, the tail and a single node; **`Holds.add`**, **`Holds.del`** say what they do to the list.
* **`Path`**: a singly linked list, with `Path.congr` for writes to other nodes.
-/

namespace Hostapd.Lib

open Function

variable {ι : Type*}

theorem append_eq_append_cons {l₁ l₂ m₁ m₂ : List ι} {b : ι} (h : l₁ ++ l₂ = m₁ ++ b :: m₂) :
    (∃ t, l₂ = t ++ b :: m₂ ∧ m₁ = l₁ ++ t) ∨ ∃ t, l₁ = m₁ ++ b :: t ∧ m₂ = t ++ l₂ := by
  rcases List.append_eq_append_iff.mp h with ⟨t, hm, hl⟩ | ⟨t, hl, hm⟩
  · exact .inl ⟨t, hl, hm⟩
  · rcases List.cons_eq_append_iff.mp hm with ⟨rfl, rfl⟩ | ⟨t, rfl, rfl⟩
    · exact .inl ⟨[], rfl, by simp [hl]⟩
    · exact .inr ⟨t, hl, rfl⟩

/-! ### The pointers -/

structure Links (ι : Type*) where
  head : Option ι
  next : ι → Option ι
  prev : ι → Option ι

namespace Links

def empty : Links ι := ⟨none, fun _ => none, fun _ => none⟩

section Operations

variable [DecidableEq ι]

/-- A write through a pointer; one through a null pointer does not happen. -/
def write (f : ι → Option ι) (p : Option ι) (v : Option ι) : ι → Option ι :=
  fun b => if p = some b then v else f b

def add (s : Links ι) (a : ι) : Links ι where
  head := some a
  next := update s.next a s.head
  prev := write (update s.prev a (match s.head with
    | some h => s.prev h
    | none => some a)) s.head (some a)

/-- Unlink a node: the pointer to it in front of it, or the head; and the pointer to it behind it,
or the pointer to the tail. -/
def del (s : Links ι) (a : ι) : Links ι :=
  let head := if s.head = some a then s.next a else s.head
  let next := if s.head = some a then s.next else write s.next (s.prev a) (s.next a)
  ⟨head, next, write s.prev ((next a).or head) (s.prev a)⟩

section Effects

variable (s : Links ι) (a b : ι)

theorem add_next : (s.add a).next b = if b = a then s.head else s.next b :=
  update_apply s.next a s.head b

theorem add_prev : (s.add a).prev b =
    if s.head = some b then some a
    else if b = a then (match s.head with
      | some h => s.prev h
      | none => some a)
    else s.prev b := by
  simp only [add, write, update_apply]

theorem del_head : (s.del a).head = if s.head = some a then s.next a else s.head := rfl

theorem del_next : (s.del a).next b =
    if s.head ≠ some a ∧ s.prev a = some b then s.next a else s.next b := by
  by_cases hhead : s.head = some a
  · simp [del, hhead]
  · simp [del, hhead, write]

theorem del_prev : (s.del a).prev b =
    if (s.next a).or (s.del a).head = some b then s.prev a else s.prev b := by
  by_cases hhead : s.head = some a
  · simp [del, hhead, write]
  · simp [del, hhead, write]

end Effects

end Operations

/-! ### The list -/

/-- The pointers link the list: a node points at the one behind it, and back at the one in front of
it; the first node points back at the last one. -/
structure Holds (s : Links ι) (l : List ι) : Prop where
  nodup : l.Nodup
  head : s.head = l.head?
  next : ∀ l₁ a l₂, l = l₁ ++ a :: l₂ → s.next a = l₂.head?
  prev : ∀ l₁ a l₂, l = l₁ ++ a :: l₂ → s.prev a = l₁.getLast?.or l.getLast?

theorem holds_empty : (empty : Links ι).Holds [] where
  nodup := List.nodup_nil
  head := rfl
  next _ _ _ h := absurd h (by simp)
  prev _ _ _ h := absurd h (by simp)

namespace Holds

variable {s s' : Links ι} {l : List ι} {a : ι}

theorem prev_head (h : s.Holds (a :: l)) : s.prev a = (a :: l).getLast? :=
  h.prev [] a l rfl

variable [DecidableEq ι]

theorem add (h : s.Holds l) (ha : a ∉ l) : (s.add a).Holds (a :: l) := by
  refine ⟨List.nodup_cons.mpr ⟨ha, h.nodup⟩, rfl, ?_, ?_⟩
  · intro l₁ b l₂ hl
    rw [add_next]
    rcases List.cons_eq_append_iff.mp hl with ⟨rfl, heq⟩ | ⟨m, rfl, rfl⟩
    · cases heq
      rw [if_pos rfl, h.head]
    · have hba : b ≠ a := fun hba => ha (by simp [hba])
      rw [if_neg hba, h.next m b l₂ rfl]
  · intro l₁ b l₂ hl
    rw [add_prev]
    rcases List.cons_eq_append_iff.mp hl with ⟨rfl, heq⟩ | ⟨m, rfl, rfl⟩
    · cases heq
      cases l with
      | nil => simp [h.head]
      | cons c l =>
        have hca : c ≠ a := fun hca => ha (by simp [hca])
        simp [h.head, hca, h.prev_head]
    · have hba : b ≠ a := fun hba => ha (by simp [hba])
      rw [if_neg hba, h.prev m b l₂ rfl, h.head]
      cases m with
      | nil => simp
      | cons c m =>
        have hcb : c ≠ b := fun hcb => by simpa [hcb] using h.nodup
        simp [hcb, List.getLast?_cons]

theorem del_behind {l₁ t m : List ι} {b : ι} (h : s.Holds (l₁ ++ a :: (t ++ b :: m))) :
    (s.del a).next b = m.head? ∧
      (s.del a).prev b = (l₁ ++ t).getLast?.or (l₁ ++ (t ++ b :: m)).getLast? := by
  have hnd := h.nodup
  have hna := h.next l₁ a _ rfl
  have hpa := h.prev l₁ a _ rfl
  have hnb := h.next (l₁ ++ a :: t) b m (by simp)
  have hpb := h.prev (l₁ ++ a :: t) b m (by simp)
  constructor
  · -- What points at the unlinked node is in front of it.
    rw [del_next, if_neg, hnb]
    rintro ⟨hhead, hprev⟩
    rcases List.eq_nil_or_concat l₁ with rfl | ⟨l₁, c, rfl⟩
    · exact hhead h.head
    · have hcb : c = b := by simpa [hpa] using hprev
      simp [List.nodup_append, hcb] at hnd
  · rw [del_prev, hna]
    cases t with
    | nil =>
      rw [List.nil_append, List.head?_cons, Option.some_or, if_pos rfl, hpa]
      simp [List.getLast?_append, List.getLast?_cons]
    | cons c t =>
      have hcb : c ≠ b := by
        rintro rfl
        simp [List.nodup_append, List.nodup_cons] at hnd
      rw [List.cons_append, List.head?_cons, Option.some_or, if_neg (by simpa using hcb), hpb]
      simp [List.getLast?_append, List.getLast?_cons]

theorem del_before {m t l₂ : List ι} {b : ι} (h : s.Holds (m ++ b :: (t ++ a :: l₂))) :
    (s.del a).next b = (t ++ l₂).head? ∧
      (s.del a).prev b = m.getLast?.or (m ++ b :: (t ++ l₂)).getLast? := by
  have hnd := h.nodup
  have hna := h.next (m ++ b :: t) a l₂ (by simp)
  have hpa := h.prev (m ++ b :: t) a l₂ (by simp)
  have hnb := h.next m b _ rfl
  have hpb := h.prev m b _ rfl
  have hhead : s.head ≠ some a := by
    rw [h.head]
    cases m with
    | nil =>
      have hba : b ≠ a := by
        rintro rfl
        simp at hnd
      simpa using hba
    | cons c m =>
      have hca : c ≠ a := by
        rintro rfl
        simp at hnd
      simpa using hca
  constructor
  · rw [del_next, hnb]
    rcases List.eq_nil_or_concat t with rfl | ⟨t, c, rfl⟩
    · rw [if_pos ⟨hhead, by simp [hpa]⟩, hna]
      rfl
    · have hcb : c ≠ b := by
        rintro rfl
        simp [List.nodup_append] at hnd
      have hpc : s.prev a = some c := by simp [hpa, List.getLast?_cons]
      rw [if_neg (by simpa [hpc] using fun _ => hcb)]
      simp
  · rw [del_prev, hna, hpb]
    cases l₂ with
    | cons c l₂ =>
      have hcb : c ≠ b := by
        rintro rfl
        simp [List.nodup_append] at hnd
      rw [List.head?_cons, Option.some_or, if_neg (by simpa using hcb)]
      simp [List.getLast?_append, List.getLast?_cons]
    | nil =>
      -- The unlinked node was the last one: the first one points back at the node in front of it.
      rw [del_head, if_neg hhead, h.head]
      cases m with
      | nil => simp [hpa, List.getLast?_cons]
      | cons c m =>
        have hcb : c ≠ b := by
          rintro rfl
          simp at hnd
        simp [hcb, List.getLast?_cons]

theorem del (h : s.Holds l) (ha : a ∈ l) : (s.del a).Holds (l.erase a) := by
  obtain ⟨l₁, l₂, rfl⟩ := List.append_of_mem ha
  have hnd := h.nodup
  have ha₁ : a ∉ l₁ := fun h₁ => by
    rw [List.nodup_append] at hnd
    exact hnd.2.2 a h₁ a (by simp) rfl
  rw [List.erase_append_right _ ha₁, List.erase_cons_head]
  have hat : ∀ m₁ b m₂, l₁ ++ l₂ = m₁ ++ b :: m₂ → (s.del a).next b = m₂.head? ∧
      (s.del a).prev b = m₁.getLast?.or (l₁ ++ l₂).getLast? := by
    intro m₁ b m₂ hm
    rcases append_eq_append_cons hm with ⟨t, rfl, rfl⟩ | ⟨t, rfl, rfl⟩
    · exact h.del_behind
    · rw [List.append_assoc, List.cons_append] at h
      simpa using h.del_before
  refine ⟨?_, ?_, fun m₁ b m₂ hm => (hat m₁ b m₂ hm).1, fun m₁ b m₂ hm => (hat m₁ b m₂ hm).2⟩
  · exact hnd.sublist ((List.sublist_cons_self a l₂).append_left l₁)
  · rw [del_head, h.head, h.next l₁ a l₂ rfl]
    cases l₁ with
    | nil => simp
    | cons c l₁ =>
      have hca : c ≠ a := fun hca => ha₁ (by simp [hca])
      simp [hca]

end Holds

end Links

end Hostapd.Lib
