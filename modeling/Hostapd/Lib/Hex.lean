import Hostapd.Lib.CString

/-!
# Octets as hexadecimal text

* **`hexText`** writes two lower-case digits for an octet.
* **`readHex`** reads pairs of digits of either case, and fails on anything else.
* **`readHex_hexText`**: what is written is read back.
-/

namespace Hostapd.Lib

def hexDigit (n : ℕ) : UInt8 := UInt8.ofNat (if n < 10 then 0x30 + n else 0x57 + n)

/-- The digits of an octet, the high half in front. -/
def hexPair (b : UInt8) : List UInt8 := [hexDigit (b.toNat / 16), hexDigit (b.toNat % 16)]

def hexText (data : List UInt8) : List UInt8 := data.flatMap hexPair

def hexValue (c : UInt8) : Option ℕ :=
  if 0x30 ≤ c ∧ c ≤ 0x39 then some (c.toNat - 0x30)
  else if 0x61 ≤ c ∧ c ≤ 0x66 then some (c.toNat - 0x61 + 10)
  else if 0x41 ≤ c ∧ c ≤ 0x46 then some (c.toNat - 0x41 + 10)
  else none

def hexByte (a b : UInt8) : Option UInt8 :=
  match hexValue a, hexValue b with
  | some x, some y => some (UInt8.ofNat (x * 16 + y))
  | _, _ => none

def readHex : List UInt8 → Option (List UInt8)
  | [] => some []
  | [_] => none
  | a :: b :: l => match hexByte a b with
    | some x => (readHex l).map (x :: ·)
    | none => none

theorem hexValue_hexDigit : ∀ n < 16, hexValue (hexDigit n) = some n := by decide

theorem isxdigit_hexDigit : ∀ n < 16, isxdigit (hexDigit n) = true := by decide

@[simp] theorem hexText_nil : hexText [] = [] := rfl

@[simp] theorem hexText_cons (b : UInt8) (data : List UInt8) :
    hexText (b :: data) = hexPair b ++ hexText data := rfl

@[simp] theorem length_hexText (data : List UInt8) : (hexText data).length = 2 * data.length := by
  induction data with
  | nil => rfl
  | cons b data ih =>
    rw [hexText_cons, List.length_append, ih, List.length_cons]
    simp only [hexPair, List.length_cons, List.length_nil]
    omega

theorem hexByte_pair (b : UInt8) : hexByte (hexDigit (b.toNat / 16)) (hexDigit (b.toNat % 16)) =
    some b := by
  have hb := b.toNat_lt
  have hvalue : UInt8.ofNat (b.toNat / 16 * 16 + b.toNat % 16) = b := by
    rw [Nat.div_add_mod' b.toNat 16, UInt8.ofNat_toNat]
  rw [hexByte, hexValue_hexDigit _ (by omega), hexValue_hexDigit _ (by omega)]
  dsimp only
  rw [hvalue]

theorem readHex_hexText_append (data rest : List UInt8) :
    readHex (hexText data ++ rest) = (readHex rest).map (data ++ ·) := by
  induction data with
  | nil => simp
  | cons b data ih =>
    have hcons : hexText (b :: data) ++ rest =
        hexDigit (b.toNat / 16) :: hexDigit (b.toNat % 16) :: (hexText data ++ rest) := rfl
    rw [hcons, readHex, hexByte_pair]
    dsimp only
    rw [ih, Option.map_map]
    rfl

/-- **What is written is read back.** -/
theorem readHex_hexText (data : List UInt8) : readHex (hexText data) = some data := by
  have h := readHex_hexText_append data []
  rw [List.append_nil] at h
  rw [h]
  simp [readHex]

theorem length_readHex {s data : List UInt8} (h : readHex s = some data) :
    s.length = 2 * data.length := by
  induction s using readHex.induct generalizing data with
  | case1 =>
    cases h
    rfl
  | case2 => cases h
  | case3 a b l x hx ih =>
    rw [readHex, hx] at h
    obtain ⟨data', hl, rfl⟩ := Option.map_eq_some_iff.mp h
    have hlen := ih hl
    simp only [List.length_cons]
    omega
  | case4 a b l hx =>
    rw [readHex, hx] at h
    cases h

theorem isxdigit_of_mem_hexText {data : List UInt8} {c : UInt8} (h : c ∈ hexText data) :
    isxdigit c = true := by
  obtain ⟨b, -, hc⟩ := List.mem_flatMap.mp h
  have hb := b.toNat_lt
  simp only [hexPair, List.mem_cons, List.not_mem_nil, or_false] at hc
  rcases hc with rfl | rfl
  · exact isxdigit_hexDigit _ (by omega)
  · exact isxdigit_hexDigit _ (by omega)

end Hostapd.Lib
