import Mathlib.Data.List.Nodup
import Mathlib.Data.List.Perm.Subperm
import Mathlib.Logic.Function.Basic

/-!
# Singly linked lists in memory

Nodes that are allocated and freed, and the loops that programs have over lists of them. An access
to a node that is not allocated is a fault, and so is a loop that comes to no end.

* **`Nodes`**: the nodes of a memory. An address is not used twice.
* **`walk`** goes along a list up to a node where it stops, `relink` sets the pointer that a walk
  has come along, and `freeAll` frees what is left of a list.
* **`Linked`**: what a list is, as its addresses and values. Such a list is finite, and
  `Linked.nodup` says that it has no node twice.
* **`walk_linked`**, **`relink_linked`**, **`freeAll_linked`**: what the loops do to a list.
-/

namespace Hostapd.Lib

structure Node (α : Type) where
  val : α
  next : Option ℕ

/-- The nodes that are allocated, by their addresses. -/
structure Nodes (α : Type) where
  node : ℕ → Option (Node α)
  fresh : ℕ
  unused : ∀ a, fresh ≤ a → node a = none

inductive MemFault
  | freed | null | outside | endless
  deriving DecidableEq

namespace Nodes

variable {α : Type}

/-! ## Operations -/

def empty : Nodes α := ⟨fun _ => none, 0, fun _ _ => rfl⟩

/-- Allocate a node, with the address `fresh`. -/
def alloc (h : Nodes α) (v : α) : Nodes α where
  node := Function.update h.node h.fresh (some ⟨v, none⟩)
  fresh := h.fresh + 1
  unused a ha := by
    rw [Function.update_of_ne (by omega)]
    exact h.unused a (by omega)

def read (h : Nodes α) (a : ℕ) : Except MemFault (Node α) :=
  match h.node a with
  | none => .error .freed
  | some n => .ok n

def set (h : Nodes α) (a : ℕ) (n : Option (Node α)) : Except MemFault (Nodes α) :=
  if hlive : (h.node a).isSome then
    .ok
      { node := Function.update h.node a n
        fresh := h.fresh
        unused := fun b hb => by
          have hne : b ≠ a := by
            rintro rfl
            rw [h.unused b hb] at hlive
            cases hlive
          rw [Function.update_of_ne hne]
          exact h.unused b hb }
  else .error .freed

def free (h : Nodes α) (a : ℕ) : Except MemFault (Nodes α) := h.set a none

/-- Let the node `prev`, or the root, point to `p`. -/
def relink (h : Nodes α) (root prev p : Option ℕ) : Except MemFault (Nodes α × Option ℕ) :=
  match prev with
  | none => .ok (h, p)
  | some a => do
    let n ← h.read a
    let h ← h.set a (some { n with next := p })
    return (h, root)

/-- Go along a list from the `i`-th node, up to a node where it stops: the node in front of that
one, and that one. -/
def walk (h : Nodes α) (stop : ℕ → α → Except MemFault Bool) :
    ℕ → ℕ → Option ℕ → Option ℕ → Except MemFault (Option ℕ × Option ℕ)
  | _, _, prev, none => .ok (prev, none)
  | 0, _, _, some _ => .error .endless
  | n + 1, i, prev, some a => do
    let node ← h.read a
    let stops ← stop i node.val
    if stops then return (prev, some a) else walk h stop n (i + 1) (some a) node.next

def freeAll (h : Nodes α) : ℕ → Option ℕ → Except MemFault (Nodes α)
  | _, none => .ok h
  | 0, some _ => .error .endless
  | n + 1, some a => do
    let node ← h.read a
    let h ← h.free a
    freeAll h n node.next

/-! ## Lists -/

def addr (l : List (ℕ × α)) : Option ℕ := l.head?.map Prod.fst

def lastAddr (l : List (ℕ × α)) : Option ℕ := l.getLast?.map Prod.fst

@[simp] theorem addr_nil : addr ([] : List (ℕ × α)) = none := rfl

@[simp] theorem addr_cons (p : ℕ × α) (l : List (ℕ × α)) : addr (p :: l) = some p.1 := rfl

/-- These are the nodes of a list, each pointing to the next one. -/
def Linked (h : Nodes α) : List (ℕ × α) → Prop
  | [] => True
  | (a, v) :: l => h.node a = some ⟨v, addr l⟩ ∧ Linked h l

abbrev addrs (l : List (ℕ × α)) : List ℕ := l.map Prod.fst

variable {h h' : Nodes α} {l l₁ l₂ m : List (ℕ × α)} {a : ℕ}

theorem Linked.of_append (hl : Linked h (l₁ ++ l₂)) : Linked h l₂ := by
  induction l₁ with
  | nil => exact hl
  | cons p l₁ ih => exact ih hl.2

theorem Linked.congr (hl : Linked h l) (hsame : ∀ a ∈ addrs l, h'.node a = h.node a) :
    Linked h' l := by
  induction l with
  | nil => trivial
  | cons p l ih =>
    refine ⟨(hsame _ List.mem_cons_self).trans hl.1, ih hl.2 ?_⟩
    exact fun a ha => hsame a (List.mem_cons_of_mem _ ha)

theorem Linked.live (hl : Linked h l) (ha : a ∈ addrs l) : (h.node a).isSome := by
  induction l with
  | nil => cases ha
  | cons p l ih =>
    rcases List.mem_cons.mp ha with rfl | ha
    · rw [hl.1]
      rfl
    · exact ih hl.2 ha

theorem Linked.unique (h₁ : Linked h l₁) (h₂ : Linked h l₂) (haddr : addr l₁ = addr l₂) :
    l₁ = l₂ := by
  induction l₁ generalizing l₂ with
  | nil =>
    cases l₂ with
    | nil => rfl
    | cons q l₂ => cases haddr
  | cons p l₁ ih =>
    cases l₂ with
    | nil => cases haddr
    | cons q l₂ =>
      obtain ⟨a, v⟩ := p
      obtain ⟨b, w⟩ := q
      obtain rfl : a = b := by simpa using haddr
      have hnode := h₁.1.symm.trans h₂.1
      simp only [Option.some.injEq, Node.mk.injEq] at hnode
      rw [hnode.1, ih h₁.2 h₂.2 hnode.2]

theorem Linked.nodup (hl : Linked h l) : (addrs l).Nodup := by
  induction l with
  | nil => exact List.nodup_nil
  | cons p l ih =>
    refine List.nodup_cons.mpr ⟨?_, ih hl.2⟩
    intro hmem
    obtain ⟨q, hq, haddr⟩ := List.mem_map.mp hmem
    obtain ⟨l₁, l₂, rfl⟩ := List.append_of_mem hq
    -- the list behind the second one is as long as the list behind the first one
    have heq := Linked.unique hl hl.2.of_append (by rw [addr_cons, addr_cons, haddr])
    have hlen := congrArg List.length heq
    simp only [List.length_cons, List.length_append] at hlen
    omega

theorem Linked.length_le (hl : Linked h l) : l.length ≤ h.fresh := by
  have hsub : addrs l ⊆ List.range h.fresh := by
    intro a ha
    by_contra hnot
    have hlive := hl.live ha
    rw [h.unused a (by simpa using hnot)] at hlive
    cases hlive
  simpa using (hl.nodup.subperm hsub).length_le

/-! ## The loops -/

theorem read_of (hnode : h.node a = some n) : h.read a = .ok n := by
  rw [read, hnode]

theorem set_of (hlive : (h.node a).isSome) (n : Option (Node α)) :
    ∃ h', h.set a n = .ok h' ∧ h'.node = Function.update h.node a n ∧ h'.fresh = h.fresh := by
  unfold set
  rw [dif_pos hlive]
  exact ⟨_, rfl, rfl, rfl⟩

def passed (stop : ℕ → α → Except MemFault Bool) : ℕ → List α → Except MemFault ℕ
  | _, [] => .ok 0
  | i, v :: l => do
    let stops ← stop i v
    if stops then return 0 else return (← passed stop (i + 1) l) + 1

theorem lastAddr_cons (p : ℕ × α) (l : List (ℕ × α)) :
    lastAddr (p :: l) = (lastAddr l).or (some p.1) := by
  unfold lastAddr
  rw [List.getLast?_cons]
  cases l.getLast? <;> rfl

theorem walk_linked {stop : ℕ → α → Except MemFault Bool} {n : ℕ} (hl : Linked h l)
    (hn : l.length ≤ n) (i : ℕ) (prev : Option ℕ) :
    h.walk stop n i prev (addr l) = (passed stop i (l.map Prod.snd)).map fun k =>
      ((lastAddr (l.take k)).or prev, addr (l.drop k)) := by
  induction l generalizing n i prev with
  | nil =>
    cases n <;> rfl
  | cons p l ih =>
    obtain ⟨a, v⟩ := p
    obtain ⟨n, rfl⟩ : ∃ m, n = m + 1 := ⟨n - 1, by rw [List.length_cons] at hn; omega⟩
    rw [addr_cons, walk, read_of hl.1, List.map_cons, passed]
    simp only [bind, Except.bind]
    cases hstop : stop i v with
    | error e => rfl
    | ok stops =>
      cases stops with
      | true => rfl
      | false =>
        have hrest := ih hl.2 (Nat.le_of_succ_le_succ hn) (i + 1) (some a)
        simp only [Bool.false_eq_true, if_false, hrest]
        cases passed stop (i + 1) (l.map Prod.snd) with
        | error e => rfl
        | ok k =>
          simp only [Except.map, pure, Except.pure, List.take_succ_cons, List.drop_succ_cons,
            lastAddr_cons, Option.or_assoc, Option.some_or]

theorem passed_spec {stop : ℕ → α → Except MemFault Bool} {i k : ℕ} {vs : List α}
    (hk : passed stop i vs = .ok k) : k ≤ vs.length ∧
      (∀ j v, j < k → vs[j]? = some v → stop (i + j) v = .ok false) ∧
      ∀ v, vs[k]? = some v → stop (i + k) v = .ok true := by
  induction vs generalizing i k with
  | nil =>
    cases hk
    simp
  | cons v vs ih =>
    rw [passed] at hk
    cases hstop : stop i v with
    | error e =>
      rw [hstop] at hk
      cases hk
    | ok stops =>
      rw [hstop] at hk
      cases stops with
      | true =>
        cases hk
        simpa using hstop
      | false =>
        cases hrest : passed stop (i + 1) vs with
        | error e =>
          rw [hrest] at hk
          cases hk
        | ok k' =>
          rw [hrest] at hk
          obtain rfl : k' + 1 = k := by simpa [bind, Except.bind, pure, Except.pure] using hk
          obtain ⟨hlen, hbefore, hat⟩ := ih hrest
          refine ⟨Nat.succ_le_succ hlen, ?_, ?_⟩
          · rintro (_ | j) w hj hw
            · obtain rfl : v = w := by simpa using hw
              exact hstop
            · simpa [Nat.add_comm, Nat.add_left_comm] using
                hbefore j w (Nat.lt_of_succ_lt_succ hj) (by simpa using hw)
          · intro w hw
            simpa [Nat.add_comm, Nat.add_left_comm] using hat w (by simpa using hw)

theorem addr_append_cons (l : List (ℕ × α)) (p : ℕ × α) (m m' : List (ℕ × α)) :
    addr (l ++ p :: m) = addr (l ++ p :: m') := by
  cases l <;> rfl

theorem Linked.set {v : α} {n : Node α} (hl : Linked h (l₁ ++ (a, v) :: m)) (hl₂ : Linked h l₂)
    (ha : a ∉ addrs l₂) (hn : n = ⟨v, addr l₂⟩)
    (hset : h'.node = Function.update h.node a (some n)) : Linked h' (l₁ ++ (a, v) :: l₂) := by
  induction l₁ with
  | nil =>
    refine ⟨by rw [hset, Function.update_self, hn], hl₂.congr fun b hb => ?_⟩
    rw [hset, Function.update_of_ne]
    rintro rfl
    exact ha hb
  | cons p l₁ ih =>
    have hne : p.1 ≠ a := by
      rintro rfl
      have hnodup := (List.nodup_cons.mp hl.nodup).1
      simp at hnodup
    refine ⟨?_, ih hl.2⟩
    change h'.node p.1 = some ⟨p.2, addr (l₁ ++ (a, v) :: l₂)⟩
    rw [hset, Function.update_of_ne hne, addr_append_cons l₁ (a, v) l₂ m]
    exact hl.1

theorem relink_linked (hl : Linked h (l₁ ++ m)) (hl₂ : Linked h l₂)
    (hdisjoint : ∀ a ∈ addrs l₁, a ∉ addrs l₂) :
    ∃ h', h.relink (addr (l₁ ++ m)) (lastAddr l₁) (addr l₂) = .ok (h', addr (l₁ ++ l₂)) ∧
      Linked h' (l₁ ++ l₂) ∧ (∀ a, a ∉ addrs l₁ → h'.node a = h.node a) ∧
      (∀ a, (h'.node a).isSome = (h.node a).isSome) ∧ h'.fresh = h.fresh := by
  rcases List.eq_nil_or_concat l₁ with rfl | ⟨l₀, ⟨a, v⟩, rfl⟩
  · exact ⟨h, rfl, hl₂, fun _ _ => rfl, fun _ => rfl, rfl⟩
  · rw [List.concat_eq_append, List.append_assoc, List.singleton_append] at hl ⊢
    rw [List.concat_eq_append] at hdisjoint
    rw [List.append_assoc, List.singleton_append]
    have hnode := hl.of_append.1
    have hlive : (h.node a).isSome := by rw [hnode]; rfl
    obtain ⟨h', hset, hnodes, hfresh⟩ := set_of hlive (some ⟨v, addr l₂⟩)
    refine ⟨h', ?_, ?_, ?_, ?_, hfresh⟩
    · have hlast : lastAddr (l₀ ++ [(a, v)]) = some a := by simp [lastAddr]
      rw [hlast, relink, read_of hnode]
      simp only [bind, Except.bind, hset]
      rw [addr_append_cons l₀ (a, v) m l₂]
      rfl
    · exact hl.set hl₂ (hdisjoint a (by simp)) rfl hnodes
    · intro b hb
      rw [hnodes, Function.update_of_ne]
      rintro rfl
      simp at hb
    · intro b
      rw [hnodes]
      by_cases hb : b = a
      · rw [hb, Function.update_self, hlive]
        rfl
      · rw [Function.update_of_ne hb]

theorem freeAll_linked {n : ℕ} (hl : Linked h l) (hn : l.length ≤ n) :
    ∃ h', h.freeAll n (addr l) = .ok h' ∧ (∀ a, a ∉ addrs l → h'.node a = h.node a) ∧
      h'.fresh = h.fresh := by
  induction l generalizing n h with
  | nil => exact ⟨h, by cases n <;> rfl, fun _ _ => rfl, rfl⟩
  | cons p l ih =>
    obtain ⟨a, v⟩ := p
    obtain ⟨n, rfl⟩ : ∃ m, n = m + 1 := ⟨n - 1, by rw [List.length_cons] at hn; omega⟩
    have hlive : (h.node a).isSome := by rw [hl.1]; rfl
    obtain ⟨h₁, hset, hnodes, hfresh₁⟩ := set_of hlive none
    have hnot := (List.nodup_cons.mp hl.nodup).1
    have hrest : Linked h₁ l := hl.2.congr fun b hb => by
      rw [hnodes, Function.update_of_ne]
      rintro rfl
      exact hnot hb
    obtain ⟨h', hfree, hsame, hfresh⟩ := ih hrest (Nat.le_of_succ_le_succ hn)
    refine ⟨h', ?_, ?_, hfresh.trans hfresh₁⟩
    · rw [addr_cons, freeAll, read_of hl.1]
      simp only [bind, Except.bind, free, hset]
      exact hfree
    · intro b hb
      simp only [addrs, List.map_cons, List.mem_cons, not_or] at hb
      rw [hsame b hb.2, hnodes, Function.update_of_ne hb.1]

end Nodes

end Hostapd.Lib
