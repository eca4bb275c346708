import Hostapd.Lib.Checked

/-!
# Readers with a position

A parser in C goes over a string with a position and the number of octets left; the same parser on
lists drops what it has read. The relation between the two.

* **`Reads d r o`**: the reader `r` with a position does what the list parser `o` does, and neither
  reads outside the string. `Reads.bind` goes on with the rest of the two parsers.
-/

namespace Hostapd.Lib

/-- A place in a string: `rest` stands from there on, and `left` counts it. -/
structure Cursor (d : List UInt8) (pos : ℕ) (left : ℤ) (rest : List UInt8) : Prop where
  le : pos ≤ d.length
  drop_eq : d.drop pos = rest
  left_eq : left = rest.length

namespace Cursor

variable {d rest : List UInt8} {pos n : ℕ} {left : ℤ}

theorem start {p : ℕ} (h : p ≤ d.length) : Cursor d p (d.length - p) (d.drop p) :=
  ⟨h, rfl, by rw [List.length_drop]; omega⟩

theorem length_rest (h : Cursor d pos left rest) : rest.length = d.length - pos := by
  rw [← h.drop_eq, List.length_drop]

theorem advance (h : Cursor d pos left rest) (hn : n ≤ rest.length) :
    Cursor d (pos + n) (left - n) (rest.drop n) := by
  have hlen := h.length_rest
  have hle := h.le
  refine ⟨by omega, by rw [← h.drop_eq, List.drop_drop], ?_⟩
  rw [h.left_eq, List.length_drop]
  omega

theorem split (h : Cursor d pos left rest) : d = d.take pos ++ rest := by
  rw [← h.drop_eq, List.take_append_drop]

theorem rdSlice_eq (h : Cursor d pos left rest) (hn : n ≤ rest.length) :
    rdSlice d pos (pos + n) = .ok (rest.take n) := by
  have hlen := h.length_rest
  have hle := h.le
  rw [rdSlice_of (by omega) (by omega), List.drop_take, h.drop_eq, Nat.add_sub_cancel_left]

theorem rdLe16_eq (h : Cursor d pos left rest) (hn : 2 ≤ rest.length) :
    rdLe16 d pos = .ok (le16 rest) := by
  have hpre : (d.take pos).length = pos := by
    rw [List.length_take, Nat.min_eq_left h.le]
  have hread := rdLe16_append (d.take pos) rest 0
  rw [← h.split, hpre, Nat.add_zero] at hread
  rw [hread]
  match rest, hn with
  | _ :: _ :: _, _ => rfl

end Cursor

section Reads

variable {α β : Type} {d : List UInt8}

/-- A result of a list parser: no result is a refusal. -/
def ofOption : Option α → Except Stop α
  | none => .error .dropped
  | some a => .ok a

@[simp] theorem ofOption_some (a : α) : ofOption (some a) = .ok a := rfl

theorem ofOption_ne_outside (o : Option α) : ofOption o ≠ .error .outside := by
  cases o <;> intro h <;> cases h

variable (d) in
def Reads (r : Except Stop (α × ℕ × ℤ)) : Option (α × List UInt8) → Prop
  | none => r = .error .dropped
  | some (a, rest) => ∃ pos left, r = .ok (a, pos, left) ∧ Cursor d pos left rest

theorem Reads.bind {r : Except Stop (α × ℕ × ℤ)} {o : Option (α × List UInt8)} (h : Reads d r o)
    {f : α × ℕ × ℤ → Except Stop β} {g : α × List UInt8 → Option β}
    (hf : ∀ a pos left rest, o = some (a, rest) → Cursor d pos left rest →
      f (a, pos, left) = ofOption (g (a, rest))) :
    (r >>= f) = ofOption (o >>= g) := by
  cases o with
  | none =>
    change r = .error .dropped at h
    rw [h]
    rfl
  | some p =>
    obtain ⟨pos, left, rfl, hc⟩ := h
    exact hf p.1 pos left p.2 rfl hc

theorem Reads.bind_map {γ : Type} {r : Except Stop (α × ℕ × ℤ)} {o : Option (γ × List UInt8)}
    {k : γ → α} (h : Reads d r (o.map fun p => (k p.1, p.2)))
    {f : α × ℕ × ℤ → Except Stop β} {g : γ × List UInt8 → Option β}
    (hf : ∀ c pos left rest, Cursor d pos left rest →
      f (k c, pos, left) = ofOption (g (c, rest))) :
    (r >>= f) = ofOption (o >>= g) := by
  cases o with
  | none =>
    change r = .error .dropped at h
    rw [h]
    rfl
  | some p =>
    obtain ⟨pos, left, rfl, hc⟩ := h
    exact hf p.1 pos left p.2 hc

end Reads

end Hostapd.Lib
