import Mathlib.Data.Nat.Notation

/-!
# Parts of a string

A parser that copies nothing keeps pointers with lengths. Here they are offsets.

* **`Span`**: an offset with a length. `Span.Within` says that it lies between two offsets.
-/

namespace Hostapd.Lib

/-- A part of a string: where it begins, and how long it is. -/
structure Span where
  pos : ℕ
  len : ℕ
  deriving DecidableEq

def Span.Within (lo hi : ℕ) (s : Span) : Prop := lo ≤ s.pos ∧ s.pos + s.len ≤ hi

theorem Span.Within.mono {lo hi lo' hi' : ℕ} {s : Span} (h : s.Within lo hi) (hlo : lo' ≤ lo)
    (hhi : hi ≤ hi') : s.Within lo' hi' :=
  ⟨Nat.le_trans hlo h.1, Nat.le_trans h.2 hhi⟩

end Hostapd.Lib
