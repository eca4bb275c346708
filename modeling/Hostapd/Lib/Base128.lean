import Mathlib.Data.List.Basic
import Mathlib.Data.BitVec

/-!
# Numerals in base 128

A numeral is octets with the top bit set and one without; each carries seven bits, the most
significant first.

* **`readBase128 m acc`** reads one from the front of a string, modulo `m` (the width of the machine
  word) and after the digits `acc`.
* **`readBase128_eq_some_iff`**: what is read is exactly a numeral (`IsNumeral`) and what follows it.
-/

namespace Hostapd.Lib

/-- A numeral: all octets but the last have the top bit set. -/
def IsNumeral (num : List UInt8) : Prop :=
  ∃ hi lo, num = hi ++ [lo] ∧ (∀ b ∈ hi, 128 ≤ b.toNat) ∧ lo.toNat < 128

/-- Append the seven bits of an octet to a number, modulo `m`. -/
def pushDigit (m acc : ℕ) (b : UInt8) : ℕ := (acc * 128 + b.toNat % 128) % m

/-- Read a numeral modulo `m` from the front of a string, after the digits `acc`. -/
def readBase128 (m : ℕ) : ℕ → List UInt8 → Option (ℕ × List UInt8)
  | _, [] => none
  | acc, b :: l =>
    if 128 ≤ b.toNat then readBase128 m (pushDigit m acc b) l else some (pushDigit m acc b, l)

theorem not_isNumeral_nil : ¬ IsNumeral [] := by
  rintro ⟨hi, lo, h, -⟩
  simp at h

theorem isNumeral_cons_of_le {b : UInt8} {num : List UInt8} (hb : 128 ≤ b.toNat) :
    IsNumeral (b :: num) ↔ IsNumeral num := by
  constructor
  · rintro ⟨_ | ⟨c, hi⟩, lo, h, hhi, hlo⟩
    · obtain ⟨rfl, rfl⟩ : b = lo ∧ num = [] := by simpa using h
      omega
    · obtain ⟨rfl, rfl⟩ : b = c ∧ num = hi ++ [lo] := by simpa using h
      exact ⟨hi, lo, rfl, fun d hd => hhi d (List.mem_cons_of_mem b hd), hlo⟩
  · rintro ⟨hi, lo, rfl, hhi, hlo⟩
    refine ⟨b :: hi, lo, rfl, ?_, hlo⟩
    intro d hd
    rcases List.mem_cons.mp hd with rfl | hd
    · exact hb
    · exact hhi d hd

theorem isNumeral_cons_of_lt {b : UInt8} {num : List UInt8} (hb : b.toNat < 128) :
    IsNumeral (b :: num) ↔ num = [] := by
  constructor
  · rintro ⟨_ | ⟨c, hi⟩, lo, h, hhi, hlo⟩
    · simp_all
    · obtain ⟨rfl, -⟩ : b = c ∧ num = hi ++ [lo] := by simpa using h
      have := hhi b List.mem_cons_self
      omega
  · rintro rfl
    exact ⟨[], b, rfl, by simp, hb⟩

theorem readBase128_eq_some_iff {m acc v : ℕ} {l rest : List UInt8} :
    readBase128 m acc l = some (v, rest) ↔
      ∃ num, l = num ++ rest ∧ IsNumeral num ∧ num.foldl (pushDigit m) acc = v := by
  induction l generalizing acc with
  | nil =>
    constructor
    · simp [readBase128]
    · rintro ⟨num, h, hnum, -⟩
      obtain ⟨rfl, -⟩ : num = [] ∧ rest = [] := by simpa using h.symm
      exact absurd hnum not_isNumeral_nil
  | cons b l ih =>
    by_cases hb : 128 ≤ b.toNat
    · rw [readBase128, if_pos hb, ih]
      constructor
      · rintro ⟨num, rfl, hnum, rfl⟩
        exact ⟨b :: num, rfl, (isNumeral_cons_of_le hb).mpr hnum, rfl⟩
      · rintro ⟨_ | ⟨c, num⟩, h, hnum, hv⟩
        · exact absurd hnum not_isNumeral_nil
        · obtain ⟨rfl, rfl⟩ : b = c ∧ l = num ++ rest := by simpa using h
          exact ⟨num, rfl, (isNumeral_cons_of_le hb).mp hnum, hv⟩
    · rw [readBase128, if_neg hb]
      constructor
      · intro h
        obtain ⟨rfl, rfl⟩ : pushDigit m acc b = v ∧ l = rest := by simpa using h
        exact ⟨[b], rfl, (isNumeral_cons_of_lt (by omega)).mpr rfl, rfl⟩
      · rintro ⟨_ | ⟨c, num⟩, h, hnum, hv⟩
        · exact absurd hnum not_isNumeral_nil
        · obtain ⟨rfl, rfl⟩ : b = c ∧ l = num ++ rest := by simpa using h
          obtain rfl := (isNumeral_cons_of_lt (by omega)).mp hnum
          simpa using hv

end Hostapd.Lib
