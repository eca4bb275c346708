import Hostapd.Common.Defs
import Hostapd.Lib.Base128
import Hostapd.Lib.Octets

/-!
# ASN.1 elements

`asn1.c`: the header of an element (`asn1GetNext`), and object identifiers (`asn1ParseOid`,
`asn1GetOid`).

* **`IsHeader`**: the octets that stand in front of the contents of an element: an identifier in one
  octet or more, and a length in one octet or more. BER leaves a writer that choice, DER does not.
* **`asn1GetNext_eq_some_iff`**: an element is read exactly if a header with the length of its
  contents, the contents and the rest make up the buffer.

A read past the end of the buffer is a failure here. The source checks the end after the identifier
and the first octet of the length, and fails there as well.
-/

namespace Hostapd.Tls

open Hostapd.Lib

/-! ## Headers -/

def asn1ClassUniversal : ℕ := 0

def asn1TagInteger : ℕ := 0x02

def asn1TagOctetstring : ℕ := 0x04

def asn1TagOid : ℕ := 0x06

def asn1TagSequence : ℕ := 0x10

/-- An element: its class and tag, its contents (`payload` and `length` of the source) and what
follows it. Source: `struct asn1_hdr`. -/
structure Asn1Hdr where
  cls : ℕ
  tag : ℕ
  payload : Bytes
  rest : Bytes
  deriving DecidableEq

def asn1Tag (identifier : UInt8) (pos : Bytes) : Option (ℕ × Bytes) :=
  if identifier.toNat % 32 = 31 then readBase128 (2 ^ 32) 0 pos
  else some (identifier.toNat % 32, pos)

def asn1Length : Bytes → Option (ℕ × Bytes)
  | [] => none
  | tmp :: pos =>
    if 128 ≤ tmp.toNat then
      -- 0xff is reserved, and an unsigned int holds four octets
      if 4 < tmp.toNat % 128 then none
      else if pos.length < tmp.toNat % 128 then none
      else some (beNat (pos.take (tmp.toNat % 128)), pos.drop (tmp.toNat % 128))
    else some (tmp.toNat, pos)

def asn1GetNext : Bytes → Option Asn1Hdr
  | [] => none
  | identifier :: buf => do
    let (tag, pos) ← asn1Tag identifier buf
    let (length, pos) ← asn1Length pos
    if pos.length < length then none
    else some ⟨identifier.toNat / 64, tag, pos.take length, pos.drop length⟩

inductive IsIdentifier (cls tag : ℕ) : Bytes → Prop
  | low {b : UInt8} : b.toNat / 64 = cls → b.toNat % 32 = tag → tag ≠ 31 → IsIdentifier cls tag [b]
  | high {b : UInt8} {num : Bytes} : b.toNat / 64 = cls → b.toNat % 32 = 31 → IsNumeral num →
      num.foldl (pushDigit (2 ^ 32)) 0 = tag → IsIdentifier cls tag (b :: num)

inductive IsLength (length : ℕ) : Bytes → Prop
  | short {b : UInt8} : b.toNat < 128 → b.toNat = length → IsLength length [b]
  | long {b : UInt8} {num : Bytes} : 128 ≤ b.toNat → b.toNat % 128 = num.length → num.length ≤ 4 →
      beNat num = length → IsLength length (b :: num)

/-- The octets in front of the contents of an element. -/
def IsHeader (cls tag length : ℕ) (hdr : Bytes) : Prop :=
  ∃ ident len, hdr = ident ++ len ∧ IsIdentifier cls tag ident ∧ IsLength length len

theorem asn1Tag_eq_some_iff {identifier : UInt8} {pos rest : Bytes} {tag : ℕ} :
    asn1Tag identifier pos = some (tag, rest) ↔
      ∃ ident, identifier :: pos = ident ++ rest ∧ IsIdentifier (identifier.toNat / 64) tag ident := by
  unfold asn1Tag
  split_ifs with h
  · rw [readBase128_eq_some_iff]
    constructor
    · rintro ⟨num, rfl, hnum, htag⟩
      exact ⟨identifier :: num, rfl, .high rfl h hnum htag⟩
    · rintro ⟨ident, heq, hident⟩
      cases hident with
      | low hcls htag hne =>
        obtain ⟨rfl, rfl⟩ : identifier = _ ∧ pos = rest := by simpa using heq
        exact absurd (htag.symm.trans h) hne
      | high hcls hb hnum htag =>
        obtain ⟨rfl, rfl⟩ : identifier = _ ∧ pos = _ ++ rest := by simpa using heq
        exact ⟨_, rfl, hnum, htag⟩
  · constructor
    · intro heq
      obtain ⟨rfl, rfl⟩ : identifier.toNat % 32 = tag ∧ pos = rest := by simpa using heq
      exact ⟨[identifier], rfl, .low rfl rfl h⟩
    · rintro ⟨ident, heq, hident⟩
      cases hident with
      | low hcls htag hne =>
        obtain ⟨rfl, rfl⟩ : identifier = _ ∧ pos = rest := by simpa using heq
        rw [htag]
      | high hcls hb hnum htag =>
        obtain ⟨rfl, rfl⟩ : identifier = _ ∧ pos = _ ++ rest := by simpa using heq
        exact absurd hb h

theorem asn1Length_eq_some_iff {pos rest : Bytes} {length : ℕ} :
    asn1Length pos = some (length, rest) ↔ ∃ len, pos = len ++ rest ∧ IsLength length len := by
  cases pos with
  | nil =>
    constructor
    · simp [asn1Length]
    · rintro ⟨len, heq, hlen⟩
      cases hlen <;> simp at heq
  | cons tmp pos =>
    simp only [asn1Length]
    split_ifs with hlong hfour hshort
    · -- too many octets
      constructor
      · simp
      · rintro ⟨len, heq, hlen⟩
        cases hlen with
        | short hb hlength =>
          obtain ⟨rfl, rfl⟩ : tmp = _ ∧ pos = rest := by simpa using heq
          omega
        | long hb hnum hle hlength =>
          obtain ⟨rfl, rfl⟩ : tmp = _ ∧ pos = _ ++ rest := by simpa using heq
          omega
    · -- fewer octets are left
      constructor
      · simp
      · rintro ⟨len, heq, hlen⟩
        cases hlen with
        | short hb hlength =>
          obtain ⟨rfl, rfl⟩ : tmp = _ ∧ pos = rest := by simpa using heq
          omega
        | long hb hnum hle hlength =>
          obtain ⟨rfl, rfl⟩ : tmp = _ ∧ pos = _ ++ rest := by simpa using heq
          rw [List.length_append] at hshort
          omega
    · constructor
      · intro heq
        obtain ⟨rfl, rfl⟩ : beNat (pos.take (tmp.toNat % 128)) = length ∧
          pos.drop (tmp.toNat % 128) = rest := by simpa using heq
        have hlen : (pos.take (tmp.toNat % 128)).length = tmp.toNat % 128 := by
          rw [List.length_take]
          omega
        refine ⟨tmp :: pos.take (tmp.toNat % 128), by simp, .long hlong hlen.symm ?_ rfl⟩
        omega
      · rintro ⟨len, heq, hlen⟩
        cases hlen with
        | short hb hlength =>
          obtain ⟨rfl, rfl⟩ : tmp = _ ∧ pos = rest := by simpa using heq
          omega
        | long hb hnum hle hlength =>
          obtain ⟨rfl, rfl⟩ : tmp = _ ∧ pos = _ ++ rest := by simpa using heq
          rw [hnum, List.take_left, List.drop_left, hlength]
    · constructor
      · intro heq
        obtain ⟨rfl, rfl⟩ : tmp.toNat = length ∧ pos = rest := by simpa using heq
        exact ⟨[tmp], rfl, .short (by omega) rfl⟩
      · rintro ⟨len, heq, hlen⟩
        cases hlen with
        | short hb hlength =>
          obtain ⟨rfl, rfl⟩ : tmp = _ ∧ pos = rest := by simpa using heq
          rw [hlength]
        | long hb hnum hle hlength =>
          obtain ⟨rfl, rfl⟩ : tmp = _ ∧ pos = _ ++ rest := by simpa using heq
          omega

theorem IsIdentifier.cls_eq {cls tag : ℕ} {b : UInt8} {l : Bytes} (h : IsIdentifier cls tag (b :: l)) :
    b.toNat / 64 = cls := by
  cases h with
  | low hcls => exact hcls
  | high hcls => exact hcls

theorem asn1GetNext_eq_some_iff {buf : Bytes} {h : Asn1Hdr} :
    asn1GetNext buf = some h ↔
      ∃ hdr, buf = hdr ++ (h.payload ++ h.rest) ∧ IsHeader h.cls h.tag h.payload.length hdr := by
  constructor
  · intro hget
    cases buf with
    | nil => simp [asn1GetNext] at hget
    | cons identifier buf =>
      simp only [asn1GetNext, Option.bind_eq_bind, Option.bind_eq_some_iff, Prod.exists,
        Option.ite_none_left_eq_some, Option.some.injEq] at hget
      obtain ⟨tag, pos, htag, length, pos', hlength, hle, rfl⟩ := hget
      obtain ⟨ident, heq, hident⟩ := asn1Tag_eq_some_iff.mp htag
      obtain ⟨len, rfl, hlen⟩ := asn1Length_eq_some_iff.mp hlength
      refine ⟨ident ++ len, by simp [heq], ident, len, rfl, hident, ?_⟩
      rwa [List.length_take, min_eq_left (by omega)]
  · rintro ⟨hdr, rfl, ident, len, rfl, hident, hlen⟩
    obtain ⟨cls, tag, payload, rest⟩ := h
    cases ident with
    | nil => cases hident
    | cons identifier ident =>
      obtain rfl := hident.cls_eq
      have htag : asn1Tag identifier (ident ++ (len ++ (payload ++ rest))) =
          some (tag, len ++ (payload ++ rest)) :=
        asn1Tag_eq_some_iff.mpr ⟨identifier :: ident, rfl, hident⟩
      have hlength : asn1Length (len ++ (payload ++ rest)) =
          some (payload.length, payload ++ rest) :=
        asn1Length_eq_some_iff.mpr ⟨len, rfl, hlen⟩
      simp [asn1GetNext, htag, hlength]

theorem IsHeader.unique {cls tag cls' tag' : ℕ} {hdr payload rest hdr' payload' rest' : Bytes}
    (h : IsHeader cls tag payload.length hdr) (h' : IsHeader cls' tag' payload'.length hdr')
    (heq : hdr ++ (payload ++ rest) = hdr' ++ (payload' ++ rest')) :
    hdr = hdr' ∧ payload = payload' ∧ rest = rest' := by
  have hget := (asn1GetNext_eq_some_iff (h := ⟨cls, tag, payload, rest⟩)).mpr ⟨hdr, rfl, h⟩
  have hget' := (asn1GetNext_eq_some_iff (h := ⟨cls', tag', payload', rest'⟩)).mpr
    ⟨hdr', heq, h'⟩
  rw [hget] at hget'
  obtain ⟨-, -, rfl, rfl⟩ := Asn1Hdr.mk.inj (Option.some.inj hget')
  exact ⟨List.append_cancel_right heq, rfl, rfl⟩

/-! ## Elements in DER -/

/-- An element in DER, with short contents: one octet for the identifier, one for the length. -/
def der (id : UInt8) (contents : Bytes) : Bytes := id :: UInt8.ofNat contents.length :: contents

@[simp] theorem length_der (id : UInt8) (contents : Bytes) :
    (der id contents).length = contents.length + 2 := rfl

theorem isHeader_der (id : UInt8) {contents : Bytes} (hid : id.toNat % 32 ≠ 31)
    (hlen : contents.length < 128) :
    IsHeader (id.toNat / 64) (id.toNat % 32) contents.length
      [id, UInt8.ofNat contents.length] := by
  have hnat : (UInt8.ofNat contents.length).toNat = contents.length := by
    rw [UInt8.toNat_ofNat']
    omega
  exact ⟨[id], [UInt8.ofNat contents.length], rfl, .low rfl rfl hid, .short (by omega) hnat⟩

/-! ## Object identifiers -/

def asn1MaxOidLen : ℕ := 20

/-- The numerals, modulo `2 ^ 64` (an unsigned long), that make up a string. -/
def oidNumerals : Bytes → ℕ → Option (List ℕ)
  | [], _ => some []
  | b :: l, acc =>
    if 128 ≤ b.toNat then
      match l with
      | [] => none
      | c :: l => oidNumerals (c :: l) (pushDigit (2 ^ 64) acc b)
    else (oidNumerals l 0).map (pushDigit (2 ^ 64) acc b :: ·)

/-- The components of an object identifier. The first numeral stands for the first two of them.
Source: `asn1_parse_oid`. -/
def asn1ParseOid (buf : Bytes) : Option (List ℕ) :=
  (oidNumerals buf 0).bind fun
    | [] => some []
    | v :: vs =>
      if asn1MaxOidLen < vs.length + 2 then none
      else some (min (v / 40) 2 :: (v - min (v / 40) 2 * 40) :: vs)

/-- The object identifier an element holds, and what follows it. Source: `asn1_get_oid`. -/
def asn1GetOid (buf : Bytes) : Option (List ℕ × Bytes) := do
  let hdr ← asn1GetNext buf
  if hdr.payload.length = 0 then none
  else if hdr.cls ≠ asn1ClassUniversal ∨ hdr.tag ≠ asn1TagOid then none
  else
    let oid ← asn1ParseOid hdr.payload
    some (oid, hdr.rest)

end Hostapd.Tls
