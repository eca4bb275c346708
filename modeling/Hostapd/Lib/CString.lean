import Mathlib.Data.List.Basic
import Mathlib.Data.Nat.Digits.Defs

/-!
# Characters, words and numbers in C strings

A pointer into a C string is what stands behind it, a list of octets; the octet it points at is
`at0`, which is NUL behind the last one.

* **`wordEq`**: two words are equal up to case.
* **`skipLine`**: what stands behind a line.
* **`numeral base`**: the number that the digits at the front of a string write.
* **`int32`**: a number as an `int` holds it.
-/

namespace Hostapd.Lib

def ascii (s : String) : List UInt8 := s.toList.map fun c => UInt8.ofNat c.toNat

def at0 (s : List UInt8) : UInt8 := s.headD 0

@[simp] theorem at0_nil : at0 [] = 0 := rfl

/-! ## Classes of characters -/

def isgraph (b : UInt8) : Bool := 0x21 ≤ b && b ≤ 0x7e

def isdigit (b : UInt8) : Bool := 0x30 ≤ b && b ≤ 0x39

def isxdigit (b : UInt8) : Bool :=
  isdigit b || (0x41 ≤ b && b ≤ 0x46) || (0x61 ≤ b && b ≤ 0x66)

def isblank (b : UInt8) : Bool := b = 0x20 || b = 0x09

def tolower (b : UInt8) : UInt8 := if 0x41 ≤ b && b ≤ 0x5a then b + 0x20 else b

def digitValue (b : UInt8) : ℕ :=
  if isdigit b then b.toNat - 0x30
  else if 0x61 ≤ b then b.toNat - 0x61 + 10
  else b.toNat - 0x41 + 10

/-! ## Words -/

/-- Two words are equal up to case; a word ends in front of an octet that is no graphical
character. -/
def wordEq : List UInt8 → List UInt8 → Bool
  | [], s => !isgraph (tolower (at0 s))
  | a :: l, s =>
    let c1 := tolower a
    let c2 := tolower (at0 s)
    if !isgraph c1 || !isgraph c2 || c1 ≠ c2 then !isgraph c1 && !isgraph c2
    else wordEq l s.tail

/-! ## Lines -/

/-- What stands behind the line at the front of a string, or its NUL. -/
def skipLine : List UInt8 → List UInt8
  | [] => []
  | b :: l => if b = 0 then b :: l else if b = 10 then l else skipLine l

/-! ## Numbers -/

/-- The number that digits write, most significant first. -/
def ofDigits (base : ℕ) (l : List UInt8) : ℕ := l.foldl (fun n b => n * base + digitValue b) 0

def numeral (digit : UInt8 → Bool) (base : ℕ) (s : List UInt8) : ℕ :=
  ofDigits base (s.takeWhile digit)

/-- A number as an `int` holds it. -/
def int32 (n : ℤ) : ℤ := n.bmod (2 ^ 32)

theorem int32_eq {n : ℤ} (h : -2 ^ 31 ≤ n) (h' : n < 2 ^ 31) : int32 n = n :=
  Int.bmod_eq_of_le (by omega) (by omega)

theorem int32_bounds (n : ℤ) : -2 ^ 31 ≤ int32 n ∧ int32 n < 2 ^ 31 := by
  have hlo := Int.le_bmod (x := n) (m := 2 ^ 32) (by decide)
  have hhi := Int.bmod_lt (x := n) (m := 2 ^ 32) (by decide)
  unfold int32
  omega

theorem int32_eq_sub {n : ℤ} (h : 2 ^ 31 ≤ n) (h' : n < 2 ^ 31 + 2 ^ 32) :
    int32 n = n - 2 ^ 32 := by
  unfold int32
  rw [← Int.sub_bmod_right]
  exact Int.bmod_eq_of_le (by omega) (by omega)

theorem int32_le {n : ℤ} (h : 0 ≤ n) : int32 n ≤ n := by
  have hbounds := int32_bounds n
  by_cases hsmall : n < 2 ^ 31
  · exact Int.le_of_eq (int32_eq (by omega) hsmall)
  · omega

theorem int32_le_sub {n : ℤ} (h : 2 ^ 31 ≤ n) (hpos : 0 < int32 n) : int32 n ≤ n - 2 ^ 32 := by
  have hbounds := int32_bounds n
  have hsplit := Int.bmod_add_bdiv n (2 ^ 32)
  rw [← int32] at hsplit
  have hk : 0 < n.bdiv (2 ^ 32) := by
    by_contra hk
    omega
  omega

end Hostapd.Lib
