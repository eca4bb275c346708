import Hostapd.Common.Defs
import Hostapd.Lib.Checked
import Hostapd.Lib.CString
import Hostapd.Lib.Loop

/-!
# NDEF records

`ndef.c`: the records of an NFC tag that carry the Wi-Fi credentials. A record has a length of up to
32 bits for its payload, and `total_length`, which is what the parser compares with the buffer and
moves on by, has 32 bits for the sum of it and the rest.

* **`ndefParseRecord`**, **`NdefParseRecords`**: the parser; `ndefParseRecord_eq` says what of a
  record it reads, `fullLen` being the length that the sum stands for.
* **`GoesAstray`**: the loop comes to a record whose length has passed the check as the sum modulo
  `2 ^ 32`, and whose type or payload is not in the buffer, or at which it stays for ever.
* **`ndefBuildWifi`**: the builder. `roundTrips_iff`: what it writes is found again, behind any
  records of other types, exactly if an `int` holds the length of it all.

An `int` has 32 bits and a pointer 64. There is memory for what is allocated.
-/

namespace Hostapd.Wps

open Hostapd.Lib

/-! ## The parser -/

def flagMessageBegin : UInt8 := 0x80

def flagMessageEnd : UInt8 := 0x40

def flagShortRecord : UInt8 := 0x10

def flagIdLengthPresent : UInt8 := 0x08

def flagTnfRfc2046 : UInt8 := 0x02

/-- A parsed record; a pointer is an offset into the buffer. Source: `struct ndef_record`. -/
structure NdefRecord where
  type : Option ℕ
  id : Option ℕ
  payload : Option ℕ
  typeLength : ℕ
  idLength : ℕ
  payloadLength : ℕ
  totalLength : ℕ
  deriving DecidableEq

def wifiHandoverType : Bytes := ascii "application/vnd.wfa.wsc"

/-- The length of the payload, and where the header goes on. Source: `ndef_parse_record`. -/
def readPayloadLength (buf : Bytes) (data size : ℕ) (flags : UInt8) : Except Stop (ℕ × ℕ) :=
  if flags &&& flagShortRecord ≠ 0 then do
    Lib.need (3 ≤ size)
    let length ← rd8 buf (data + 2)
    return (length.toNat, data + 3)
  else do
    Lib.need (6 ≤ size)
    let length ← rdSlice buf (data + 2) (data + 6)
    return (beNat length, data + 6)

/-- The length of the ID, and where the header ends. Source: `ndef_parse_record`. -/
def readIdLength (buf : Bytes) (data size : ℕ) (flags : UInt8) (pos : ℕ) : Except Stop (ℕ × ℕ) :=
  if flags &&& flagIdLengthPresent ≠ 0 then do
    Lib.need (pos - data + 1 ≤ size)
    let length ← rd8 buf pos
    return (length.toNat, pos + 1)
  else return (0, pos)

/-- The record at `data`, with `size` octets. Source: `ndef_parse_record`. -/
def ndefParseRecord (buf : Bytes) (data size : ℕ) : Except Stop NdefRecord := do
  Lib.need (2 ≤ size)
  let typeLength ← rd8 buf (data + 1)
  let flags ← rd8 buf data
  let (payloadLength, pos) ← readPayloadLength buf data size flags
  let (idLength, pos) ← readIdLength buf data size flags pos
  let id := pos + typeLength.toNat
  let payload := id + idLength
  -- a difference of pointers, stored in 32 bits
  let totalLength := (payload + payloadLength - data) % 2 ^ 32
  Lib.need (totalLength ≤ size)
  return {
    type := if typeLength.toNat = 0 then none else some pos
    id := if idLength = 0 then none else some id
    payload := if payloadLength = 0 then none else some payload
    typeLength := typeLength.toNat
    idLength := idLength
    payloadLength := payloadLength
    totalLength := totalLength }

/-- The octets from a pointer on, none from `NULL`. -/
def copyFrom (buf : Bytes) (pos : Option ℕ) (len : ℕ) : Except Stop Bytes :=
  match pos with
  | none => return []
  | some pos => rdSlice buf pos (pos + len)

def wifiFilter (buf : Bytes) (record : NdefRecord) : Except Stop Bool :=
  if record.typeLength ≠ wifiHandoverType.length then return false
  else do
    let type ← copyFrom buf record.type wifiHandoverType.length
    return type = wifiHandoverType

/-- A round of the loop, at `data` with `len` octets; no record is `NULL`.
Source: `ndef_parse_records`. -/
def ndefParseRound (buf : Bytes) (filter : Option (Bytes → NdefRecord → Except Stop Bool))
    (s : ℕ × ℤ) : Except Stop ((ℕ × ℤ) ⊕ Bytes) :=
  if 0 < s.2 then do
    let record ← ndefParseRecord buf s.1 s.2.toNat
    let found ← (match filter with
      | none => return true
      | some filter => filter buf record)
    if found then do
      let payload ← copyFrom buf record.payload record.payloadLength
      return .inr payload
    else return .inl (s.1 + record.totalLength, s.2 - record.totalLength)
  else .error .dropped

/-- The parser returns a result. Source: `ndef_parse_records`. -/
def NdefParseRecords (buf : Bytes) (filter : Option (Bytes → NdefRecord → Except Stop Bool))
    (r : Except Stop Bytes) : Prop :=
  Returns (tryRound (ndefParseRound buf filter)) (0, int32 buf.length) r

def NdefParseWifi (buf : Bytes) (r : Except Stop Bytes) : Prop :=
  NdefParseRecords buf (some wifiFilter) r

/-! ## What of a record is read -/

def isShort (l : Bytes) : Bool := l.getD 0 0 &&& flagShortRecord ≠ 0

def hasId (l : Bytes) : Bool := l.getD 0 0 &&& flagIdLengthPresent ≠ 0

def headerLen (l : Bytes) : ℕ := 2 + (if isShort l then 1 else 4) + if hasId l then 1 else 0

def typeLen (l : Bytes) : ℕ := (l.getD 1 0).toNat

def payloadLen (l : Bytes) : ℕ :=
  if isShort l then (l.getD 2 0).toNat else beNat ((l.drop 2).take 4)

def idLen (l : Bytes) : ℕ := if hasId l then (l.getD (headerLen l - 1) 0).toNat else 0

/-- The length of the record, as its header says it. -/
def fullLen (l : Bytes) : ℕ := headerLen l + typeLen l + idLen l + payloadLen l

/-- The record at the front of `l`, which stands at `pos`. -/
def recordAt (pos : ℕ) (l : Bytes) : NdefRecord where
  type := if typeLen l = 0 then none else some (pos + headerLen l)
  id := if idLen l = 0 then none else some (pos + headerLen l + typeLen l)
  payload := if payloadLen l = 0 then none else some (pos + headerLen l + typeLen l + idLen l)
  typeLength := typeLen l
  idLength := idLen l
  payloadLength := payloadLen l
  totalLength := fullLen l % 2 ^ 32

/-- The parser takes `size` octets for enough. -/
def Accepts (l : Bytes) (size : ℕ) : Prop :=
  2 ≤ size ∧ headerLen l ≤ size ∧ fullLen l % 2 ^ 32 ≤ size

instance (l : Bytes) (size : ℕ) : Decidable (Accepts l size) := inferInstanceAs (Decidable (_ ∧ _))

section Records

variable {pre l : Bytes} {size : ℕ}

theorem readPayloadLength_eq (pre : Bytes) (hsize : size ≤ l.length) :
    readPayloadLength (pre ++ l) pre.length size (l.getD 0 0) =
      if 2 + (if isShort l then 1 else 4) ≤ size then
        .ok (payloadLen l, pre.length + (2 + if isShort l then 1 else 4))
      else .error .dropped := by
  unfold readPayloadLength
  by_cases hshort : isShort l = true
  · have hflag : l.getD 0 0 &&& flagShortRecord ≠ 0 := by simpa [isShort] using hshort
    rw [if_pos hflag, if_pos hshort]
    by_cases hlen : 3 ≤ size
    · rw [need_of hlen, ok_bind, rd8_append, rd8_getD (by omega), ok_bind, if_pos hlen, payloadLen,
        if_pos hshort]
      rfl
    · rw [need_of_not hlen, if_neg hlen]
      rfl
  · have hflag : ¬ l.getD 0 0 &&& flagShortRecord ≠ 0 := by simpa [isShort] using hshort
    rw [if_neg hflag, if_neg hshort]
    by_cases hlen : 6 ≤ size
    · rw [need_of hlen, ok_bind, rdSlice_append_add, rdSlice_of (by omega) (by omega), ok_bind,
        if_pos hlen, payloadLen, if_neg hshort, List.drop_take]
      rfl
    · rw [need_of_not hlen, if_neg hlen]
      rfl

theorem readIdLength_eq (pre : Bytes) (hsize : size ≤ l.length) :
    readIdLength (pre ++ l) pre.length size (l.getD 0 0)
        (pre.length + (2 + if isShort l then 1 else 4)) =
      if hasId l = true → headerLen l ≤ size then .ok (idLen l, pre.length + headerLen l)
      else .error .dropped := by
  unfold readIdLength
  by_cases hid : hasId l = true
  · have hflag : l.getD 0 0 &&& flagIdLengthPresent ≠ 0 := by simpa [hasId] using hid
    have hheader : headerLen l = (2 + if isShort l then 1 else 4) + 1 := by
      rw [headerLen, if_pos hid]
    rw [if_pos hflag, Nat.add_sub_cancel_left, ← hheader]
    by_cases hlen : headerLen l ≤ size
    · rw [need_of hlen, ok_bind, rd8_append, rd8_getD (by omega), ok_bind,
        if_pos (show hasId l = true → headerLen l ≤ size from fun _ => hlen), idLen, if_pos hid,
        hheader, Nat.add_sub_cancel]
      rfl
    · have hnot : ¬ (hasId l = true → headerLen l ≤ size) := fun h => hlen (h hid)
      rw [need_of_not hlen, if_neg hnot]
      rfl
  · have hflag : ¬ l.getD 0 0 &&& flagIdLengthPresent ≠ 0 := by simpa [hasId] using hid
    rw [if_neg hflag, if_pos fun h => absurd h hid, idLen, if_neg hid, headerLen, if_neg hid]
    rfl

theorem ndefParseRecord_eq (pre : Bytes) (hsize : size ≤ l.length) :
    ndefParseRecord (pre ++ l) pre.length size =
      if Accepts l size then .ok (recordAt pre.length l) else .error .dropped := by
  unfold ndefParseRecord
  by_cases htwo : 2 ≤ size
  · have htype : rd8 (pre ++ l) (pre.length + 1) = .ok (l.getD 1 0) := by
      rw [rd8_append, rd8_getD (by omega)]
    have hflags : rd8 (pre ++ l) pre.length = .ok (l.getD 0 0) := by
      have hread := rd8_append pre l 0
      rw [Nat.add_zero] at hread
      rw [hread, rd8_getD (by omega)]
    rw [need_of htwo, ok_bind, htype, ok_bind, hflags, ok_bind, readPayloadLength_eq pre hsize]
    by_cases hlen : 2 + (if isShort l then 1 else 4) ≤ size
    · rw [if_pos hlen, ok_bind]
      simp only []
      rw [readIdLength_eq pre hsize]
      by_cases hheader : headerLen l ≤ size
      · have hfull : pre.length + headerLen l + typeLen l + idLen l + payloadLen l - pre.length =
            fullLen l := by
          unfold fullLen
          omega
        rw [if_pos fun _ => hheader, ok_bind]
        simp only []
        rw [show (l.getD 1 0).toNat = typeLen l from rfl, hfull]
        by_cases htotal : fullLen l % 2 ^ 32 ≤ size
        · have haccepts : Accepts l size := ⟨htwo, hheader, htotal⟩
          rw [need_of htotal, if_pos haccepts]
          rfl
        · have hnot : ¬ Accepts l size := fun h => htotal h.2.2
          rw [need_of_not htotal, if_neg hnot]
          rfl
      · have hid : hasId l = true := by
          by_contra hid
          rw [headerLen, if_neg hid] at hheader
          exact hheader hlen
        have hnot : ¬ (hasId l = true → headerLen l ≤ size) := fun h => hheader (h hid)
        have hrefused : ¬ Accepts l size := fun h => hheader h.2.1
        rw [if_neg hnot, if_neg hrefused]
        rfl
    · have hrefused : ¬ Accepts l size := by
        rintro ⟨-, hheader, -⟩
        unfold headerLen at hheader
        omega
      rw [if_neg hlen, if_neg hrefused]
      rfl
  · have hrefused : ¬ Accepts l size := fun h => htwo h.1
    rw [need_of_not htwo, if_neg hrefused]
    rfl

/-! ### A round of the loop -/

/-- The payload of the record, as far as there is one. -/
def payloadOf (l : Bytes) : Bytes :=
  (l.drop (headerLen l + typeLen l + idLen l)).take (payloadLen l)

def IsWifi (l : Bytes) : Prop :=
  typeLen l = wifiHandoverType.length ∧
    (l.drop (headerLen l)).take wifiHandoverType.length = wifiHandoverType

instance (l : Bytes) : Decidable (IsWifi l) := inferInstanceAs (Decidable (_ ∧ _))

/-- The type has the length that is looked for, and is not in the buffer. -/
def TypeOutside (l : Bytes) : Prop :=
  typeLen l = wifiHandoverType.length ∧ l.length < headerLen l + wifiHandoverType.length

instance (l : Bytes) : Decidable (TypeOutside l) := inferInstanceAs (Decidable (_ ∧ _))

theorem copyFrom_payload (pre l : Bytes) :
    copyFrom (pre ++ l) (recordAt pre.length l).payload (payloadLen l) =
      if payloadLen l = 0 ∨ fullLen l ≤ l.length then .ok (payloadOf l) else .error .outside := by
  unfold recordAt copyFrom
  simp only []
  by_cases hzero : payloadLen l = 0
  · rw [if_pos hzero, if_pos (.inl hzero), payloadOf, hzero, List.take_zero]
    rfl
  · rw [if_neg hzero]
    simp only [Nat.add_assoc, rdSlice_append_add]
    by_cases hlen : fullLen l ≤ l.length
    · rw [if_pos (.inr hlen), rdSlice_of (by omega) (by unfold fullLen at hlen; omega), payloadOf,
        List.drop_take, Nat.add_assoc]
      congr 2
      omega
    · rw [if_neg (by simp [hzero, hlen]), rdSlice, if_neg]
      unfold fullLen at hlen
      omega

theorem wifiFilter_eq (pre l : Bytes) :
    wifiFilter (pre ++ l) (recordAt pre.length l) =
      if TypeOutside l then .error .outside else .ok (decide (IsWifi l)) := by
  unfold wifiFilter recordAt copyFrom
  simp only []
  have hpos : wifiHandoverType.length ≠ 0 := by decide
  by_cases htype : typeLen l = wifiHandoverType.length
  · have hne : ¬ typeLen l = 0 := by omega
    rw [if_neg (by simp [htype]), if_neg hne]
    simp only [Nat.add_assoc, rdSlice_append_add]
    by_cases hout : l.length < headerLen l + wifiHandoverType.length
    · have houtside : TypeOutside l := ⟨htype, hout⟩
      rw [if_pos houtside, rdSlice, if_neg (by omega)]
      rfl
    · have hinside : ¬ TypeOutside l := fun h => hout h.2
      rw [if_neg hinside, rdSlice_of (by omega) (by omega), ok_bind, List.drop_take,
        Nat.add_sub_cancel_left]
      simp only [IsWifi, htype, true_and]
      rfl
  · have hinside : ¬ TypeOutside l := fun h => htype h.1
    have hother : ¬ IsWifi l := fun h => htype h.1
    rw [if_pos htype, if_neg hinside, decide_eq_false hother]
    rfl

theorem ndefParseRound_wifi (pre : Bytes) (hpos : 0 < size) (hsize : size ≤ l.length) :
    ndefParseRound (pre ++ l) (some wifiFilter) (pre.length, size) =
      if ¬ Accepts l size then .error .dropped
      else if TypeOutside l then .error .outside
      else if IsWifi l then
        if payloadLen l = 0 ∨ fullLen l ≤ l.length then .ok (.inr (payloadOf l))
        else .error .outside
      else .ok (.inl (pre.length + fullLen l % 2 ^ 32, (size : ℤ) - (fullLen l % 2 ^ 32 : ℕ))) := by
  have hpositive : (0 : ℤ) < size := by omega
  unfold ndefParseRound
  rw [if_pos hpositive, Int.toNat_natCast, ndefParseRecord_eq pre hsize]
  by_cases haccepts : Accepts l size
  · rw [if_pos haccepts, if_neg (not_not.mpr haccepts), ok_bind]
    simp only []
    rw [wifiFilter_eq]
    by_cases hout : TypeOutside l
    · rw [if_pos hout, if_pos hout]
      rfl
    · rw [if_neg hout, if_neg hout, ok_bind]
      by_cases hwifi : IsWifi l
      · rw [if_pos hwifi, if_pos (decide_eq_true hwifi)]
        have hpayload := copyFrom_payload pre l
        rw [show (recordAt pre.length l).payloadLength = payloadLen l from rfl, hpayload]
        split_ifs <;> rfl
      · rw [if_neg hwifi, if_neg (by simpa using hwifi)]
        rfl
  · rw [if_neg haccepts, if_pos haccepts]
    rfl

end Records

/-! ## Safety -/

/-- A record that has been accepted, and is not all there: its type is looked at outside the buffer,
its payload is copied from outside it, or it is of another type and the loop does not move on. -/
def Astray (l : Bytes) : Prop :=
  TypeOutside l ∨ (IsWifi l ∧ payloadLen l ≠ 0 ∧ l.length < fullLen l) ∨
    (¬ IsWifi l ∧ fullLen l % 2 ^ 32 = 0)

/-- The loop comes to such a record; `l` is the buffer from a record on, `size` what is left of it.
-/
inductive GoesAstray : Bytes → ℕ → Prop
  | here {l : Bytes} {size : ℕ} : Accepts l size → Astray l → GoesAstray l size
  | next {l : Bytes} {size : ℕ} : Accepts l size → ¬ IsWifi l →
      GoesAstray (l.drop (fullLen l % 2 ^ 32)) (size - fullLen l % 2 ^ 32) → GoesAstray l size

/-- The parser returns, and what it returns is part of the buffer. -/
def ParsesInside (buf : Bytes) (filter : Option (Bytes → NdefRecord → Except Stop Bool)) : Prop :=
  ∃ r, NdefParseRecords buf filter r ∧ r ≠ .error .outside ∧ ∀ payload, r = .ok payload →
    payload <:+: buf

section Safety

variable {pre l buf : Bytes} {size : ℕ}

theorem payloadOf_infix (pre l : Bytes) : payloadOf l <:+: pre ++ l :=
  ((List.take_prefix _ _).isInfix.trans (List.drop_suffix _ _).isInfix).trans
    (List.suffix_append pre l).isInfix

theorem outside_of_goesAstray (h : GoesAstray l size) (hsize : size ≤ l.length) (pre : Bytes)
    {r : Except Stop Bytes}
    (hreturns : Returns (tryRound (ndefParseRound (pre ++ l) (some wifiFilter)))
      (pre.length, size) r) : r = .error .outside := by
  induction h generalizing pre with
  | @here l size haccepts hastray =>
    have hround := ndefParseRound_wifi pre (show 0 < size by have := haccepts.1; omega) hsize
    rw [if_neg (not_not.mpr haccepts)] at hround
    rcases hastray with hout | ⟨hwifi, hne, hlong⟩ | ⟨hwifi, hzero⟩
    · rw [if_pos hout] at hround
      exact ((returns_iff_of_done (tryRound_of_error hround)).mp hreturns).symm
    · by_cases hout : TypeOutside l
      · rw [if_pos hout] at hround
        exact ((returns_iff_of_done (tryRound_of_error hround)).mp hreturns).symm
      · rw [if_neg hout, if_pos hwifi, if_neg (by omega)] at hround
        exact ((returns_iff_of_done (tryRound_of_error hround)).mp hreturns).symm
    · by_cases hout : TypeOutside l
      · rw [if_pos hout] at hround
        exact ((returns_iff_of_done (tryRound_of_error hround)).mp hreturns).symm
      · rw [if_neg hout, if_neg hwifi, hzero] at hround
        simp only [Nat.add_zero, Nat.cast_zero, Int.sub_zero] at hround
        exact absurd hreturns (not_returns_of_stuck (tryRound_of_next hround))
  | @next l size haccepts hwifi _ ih =>
    have hround := ndefParseRound_wifi pre (show 0 < size by have := haccepts.1; omega) hsize
    have htotal := haccepts.2.2
    rw [if_neg (not_not.mpr haccepts)] at hround
    by_cases hout : TypeOutside l
    · rw [if_pos hout] at hround
      exact ((returns_iff_of_done (tryRound_of_error hround)).mp hreturns).symm
    · rw [if_neg hout, if_neg hwifi] at hround
      rw [returns_iff_of_next (tryRound_of_next hround), ← Int.ofNat_sub htotal] at hreturns
      refine ih ?_ (pre ++ l.take (fullLen l % 2 ^ 32)) ?_
      · rw [List.length_drop]
        omega
      · rw [List.append_assoc, List.take_append_drop, List.length_append, List.length_take,
          Nat.min_eq_left (by omega)]
        exact hreturns

theorem round_of_not_goesAstray (h : ¬ GoesAstray l size) (hsize : size ≤ l.length) (pre : Bytes) :
    (∃ n ≤ size, 0 < n ∧ ¬ GoesAstray (l.drop n) (size - n) ∧
      tryRound (ndefParseRound (pre ++ l) (some wifiFilter)) (pre.length, (size : ℤ)) =
        .inl (pre.length + n, ((size - n : ℕ) : ℤ))) ∨
    ∃ r, tryRound (ndefParseRound (pre ++ l) (some wifiFilter)) (pre.length, (size : ℤ)) = .inr r ∧
      r ≠ .error .outside ∧ ∀ payload, r = .ok payload → payload <:+: pre ++ l := by
  rcases Nat.eq_zero_or_pos size with rfl | hpos
  · refine .inr ⟨.error .dropped, tryRound_of_error ?_, by simp, by simp⟩
    exact if_neg (by simp)
  · have hround := ndefParseRound_wifi pre hpos hsize
    by_cases haccepts : Accepts l size
    · have htotal := haccepts.2.2
      have hgood : ¬ Astray l := fun hastray => h (.here haccepts hastray)
      have hout : ¬ TypeOutside l := fun hout => hgood (.inl hout)
      rw [if_neg (not_not.mpr haccepts), if_neg hout] at hround
      by_cases hwifi : IsWifi l
      · have hthere : payloadLen l = 0 ∨ fullLen l ≤ l.length := by
          by_contra hnot
          exact hgood (.inr (.inl ⟨hwifi, by omega, by omega⟩))
        rw [if_pos hwifi, if_pos hthere] at hround
        refine .inr ⟨_, tryRound_of_done hround, by simp, ?_⟩
        rintro payload ⟨⟩
        exact payloadOf_infix pre l
      · have hne : fullLen l % 2 ^ 32 ≠ 0 := fun hzero => hgood (.inr (.inr ⟨hwifi, hzero⟩))
        rw [if_neg hwifi, ← Int.ofNat_sub htotal] at hround
        exact .inl ⟨_, htotal, by omega, fun hnext => h (.next haccepts hwifi hnext),
          tryRound_of_next hround⟩
    · rw [if_pos haccepts] at hround
      exact .inr ⟨_, tryRound_of_error hround, by simp, by simp⟩

/-- The search for the record is safe exactly if it does not come to a record that is not all there.
-/
theorem parsesInside_wifi_iff (buf : Bytes) :
    ParsesInside buf (some wifiFilter) ↔ ¬ GoesAstray buf (int32 buf.length).toNat := by
  have hlen : (int32 buf.length).toNat ≤ buf.length := by
    have hle := int32_le (Int.natCast_nonneg buf.length)
    omega
  unfold ParsesInside NdefParseRecords
  generalize int32 buf.length = len at hlen ⊢
  constructor
  · rintro ⟨r, hreturns, hne, -⟩ hastray
    by_cases hpos : 0 ≤ len
    · refine hne (outside_of_goesAstray hastray hlen [] ?_)
      rw [Int.toNat_of_nonneg hpos]
      exact hreturns
    · have hzero : len.toNat = 0 := by omega
      rw [hzero] at hastray
      cases hastray with
      | here haccepts => exact absurd haccepts.1 (by omega)
      | next haccepts => exact absurd haccepts.1 (by omega)
  · intro hgood
    by_cases hpos : 0 ≤ len
    · obtain ⟨r, hreturns, hr⟩ := @returns_of_measure (ℕ × ℤ) (Except Stop Bytes)
        (tryRound (ndefParseRound buf (some wifiFilter)))
        (fun s => ∃ pre l size, buf = pre ++ l ∧ s = (pre.length, ((size : ℕ) : ℤ)) ∧
          size ≤ l.length ∧ ¬ GoesAstray l size)
        (fun r => r ≠ .error .outside ∧ ∀ payload, r = .ok payload → payload <:+: buf)
        (fun s => s.2.toNat)
        (by
          rintro s ⟨pre, l, size, rfl, rfl, hsize, hgood⟩
          rcases round_of_not_goesAstray hgood hsize pre with
            ⟨n, hn, hpos, hnext, hround⟩ | ⟨r, hround, hr⟩
          · refine .inl ⟨_, hround, ⟨pre ++ l.take n, l.drop n, size - n, ?_, ?_, ?_, hnext⟩, ?_⟩
            · rw [List.append_assoc, List.take_append_drop]
            · rw [List.length_append, List.length_take, Nat.min_eq_left (by omega)]
            · rw [List.length_drop]
              omega
            · simp only [Int.toNat_natCast]
              omega
          · exact .inr ⟨r, hround, hr⟩)
        (s := (0, len))
        ⟨[], buf, len.toNat, rfl, Prod.ext rfl (Int.toNat_of_nonneg hpos).symm, hlen,
          hgood⟩
      exact ⟨r, hreturns, hr⟩
    · refine ⟨.error .dropped, ?_, by simp, by simp⟩
      have hstop : ndefParseRound buf (some wifiFilter) (0, len) = .error .dropped := by
        have hnot : ¬ 0 < len := by omega
        rw [ndefParseRound, if_neg hnot]
      exact (returns_iff_of_done (tryRound_of_error hstop)).mpr rfl

theorem parsesInside_none_iff (buf : Bytes) :
    ParsesInside buf none ↔ ¬ (Accepts buf (int32 buf.length).toNat ∧ payloadLen buf ≠ 0 ∧
      buf.length < fullLen buf) := by
  have hlen : (int32 buf.length).toNat ≤ buf.length := by
    have hle := int32_le (Int.natCast_nonneg buf.length)
    omega
  have hround : ndefParseRound buf none (0, int32 buf.length) =
      if Accepts buf (int32 buf.length).toNat then
        if payloadLen buf = 0 ∨ fullLen buf ≤ buf.length then .ok (.inr (payloadOf buf))
        else .error .outside
      else .error .dropped := by
    unfold ndefParseRound
    simp only []
    by_cases hpos : 0 < int32 buf.length
    · have hparse := ndefParseRecord_eq [] hlen
      have hpayload := copyFrom_payload [] buf
      rw [List.nil_append, List.length_nil] at hparse hpayload
      rw [if_pos hpos, hparse]
      split_ifs with haccepts hthere
      · rw [if_pos hthere] at hpayload
        rw [ok_bind]
        simp only [pure, Except.pure, ok_bind, if_true]
        rw [show (recordAt 0 buf).payloadLength = payloadLen buf from rfl, hpayload]
        rfl
      · rw [if_neg hthere] at hpayload
        rw [ok_bind]
        simp only [pure, Except.pure, ok_bind, if_true]
        rw [show (recordAt 0 buf).payloadLength = payloadLen buf from rfl, hpayload]
        rfl
      · rfl
    · have hrefused : ¬ Accepts buf (int32 buf.length).toNat := fun h => by
        have htwo := h.1
        omega
      rw [if_neg hpos, if_neg hrefused]
  constructor
  · rintro ⟨r, hreturns, hne, -⟩ ⟨haccepts, hpayload, hshort⟩
    rw [if_pos haccepts, if_neg (by omega)] at hround
    exact hne ((returns_iff_of_done (tryRound_of_error hround)).mp hreturns).symm
  · intro hgood
    by_cases haccepts : Accepts buf (int32 buf.length).toNat
    · have hthere : payloadLen buf = 0 ∨ fullLen buf ≤ buf.length := by
        by_contra hnot
        exact hgood ⟨haccepts, by omega, by omega⟩
      rw [if_pos haccepts, if_pos hthere] at hround
      refine ⟨_, (returns_iff_of_done (tryRound_of_done hround)).mpr rfl, by simp, ?_⟩
      rintro payload ⟨⟩
      exact payloadOf_infix [] buf
    · rw [if_neg haccepts] at hround
      exact ⟨_, (returns_iff_of_done (tryRound_of_error hround)).mpr rfl, by simp, by simp⟩

end Safety

/-! ## The builder -/

/-- More than the buffer holds is the `abort()` of `wpabuf_overflow`. Source: `ndef_build_record`.
-/
def ndefBuildRecord (flags : UInt8) (type id payload : Bytes) (payloadLength : ℕ) :
    Except Stop Bytes := do
  let short := payloadLength < 256
  -- the sum of the three lengths has 32 bits
  let totalLen := 2 + (if short then 1 else 4) + (if 0 < id.length then 1 else 0) +
    (type.length + id.length + payloadLength) % 2 ^ 32
  let flags := if 0 < id.length then flags ||| flagIdLengthPresent else flags
  let flags := if short then flags ||| flagShortRecord else flags
  let record ← putOctets totalLen [] [flags]
  let record ← putOctets totalLen record [UInt8.ofNat type.length]
  let record ← putOctets totalLen record
    (if short then [UInt8.ofNat payloadLength] else putBe 4 payloadLength)
  let record ← putOctets totalLen record (if 0 < id.length then [UInt8.ofNat id.length] else [])
  let record ← putOctets totalLen record type
  let record ← putOctets totalLen record id
  putOctets totalLen record (payload.take payloadLength)

def ndefBuildWifi (buf : Bytes) : Except Stop Bytes :=
  ndefBuildRecord (flagMessageBegin ||| flagMessageEnd ||| flagTnfRfc2046) wifiHandoverType [] buf
    (buf.length % 2 ^ 32)

/-! ## Records -/

/-- A record with the lengths that its flags ask for. -/
def encodeRecord (flags : UInt8) (type id payload : Bytes) : Bytes :=
  [flags, UInt8.ofNat type.length] ++
    ((if flags &&& flagShortRecord ≠ 0 then [UInt8.ofNat payload.length]
      else putBe 4 payload.length) ++
      ((if flags &&& flagIdLengthPresent ≠ 0 then [UInt8.ofNat id.length] else []) ++
        (type ++ (id ++ payload))))

/-- A well-formed record of another type: its lengths fit their fields, and the length of it all
fits `total_length`. -/
structure OtherRecord where
  flags : UInt8
  type : Bytes
  id : Bytes
  payload : Bytes
  type_lt : type.length < 256
  id_lt : id.length < 256
  payload_lt : payload.length < 2 ^ 32
  short : flags &&& flagShortRecord ≠ 0 → payload.length < 256
  id_eq : flags &&& flagIdLengthPresent = 0 → id = []
  total_lt : (encodeRecord flags type id payload).length < 2 ^ 32
  other : type ≠ wifiHandoverType

def OtherRecord.encode (r : OtherRecord) : Bytes := encodeRecord r.flags r.type r.id r.payload

/-- What the builder makes of a payload is found behind other records. -/
def RoundTrips (records : List OtherRecord) (payload : Bytes) : Prop :=
  ∃ built, ndefBuildWifi payload = .ok built ∧
    NdefParseWifi (records.flatMap OtherRecord.encode ++ built) (.ok payload)

section RoundTrip

variable {flags : UInt8} {type id payload rest : Bytes}

theorem encodeRecord_fields (htype : type.length < 256) (hid : id.length < 256)
    (hpayload : payload.length < 2 ^ 32)
    (hshort : flags &&& flagShortRecord ≠ 0 → payload.length < 256)
    (hnone : flags &&& flagIdLengthPresent = 0 → id = []) :
    let l := encodeRecord flags type id payload ++ rest
    typeLen l = type.length ∧ idLen l = id.length ∧ payloadLen l = payload.length ∧
      fullLen l = (encodeRecord flags type id payload).length ∧
      l.drop (headerLen l) = type ++ (id ++ (payload ++ rest)) := by
  intro l
  have hl : l = flags :: UInt8.ofNat type.length ::
      ((if flags &&& flagShortRecord ≠ 0 then [UInt8.ofNat payload.length]
        else putBe 4 payload.length) ++
      ((if flags &&& flagIdLengthPresent ≠ 0 then [UInt8.ofNat id.length] else []) ++
        (type ++ (id ++ (payload ++ rest))))) := by
    simp only [l, encodeRecord, List.append_assoc, List.cons_append, List.nil_append]
  clear_value l
  subst hl
  have hisShort (t : Bytes) : isShort (flags :: t) = decide (flags &&& flagShortRecord ≠ 0) := rfl
  have hhasId (t : Bytes) : hasId (flags :: t) = decide (flags &&& flagIdLengthPresent ≠ 0) := rfl
  have hpow : payload.length < 256 ^ 4 := by omega
  have hbe : beNat (putBe 4 payload.length) = payload.length := beNat_putBe hpow
  have htake (t : Bytes) : (putBe 4 payload.length ++ t).take 4 = putBe 4 payload.length :=
    List.take_left' (length_putBe 4 _)
  have hdrop (b : UInt8) (t : Bytes) : (putBe 4 payload.length ++ b :: t).drop 5 = t := by
    rw [← List.drop_drop (i := 1) (j := 4), List.drop_left' (length_putBe 4 _)]
    rfl
  have hnat : (UInt8.ofNat type.length).toNat = type.length := UInt8.toNat_ofNat_of_lt' htype
  have hnat' : (UInt8.ofNat id.length).toNat = id.length := UInt8.toNat_ofNat_of_lt' hid
  by_cases hs : flags &&& flagShortRecord ≠ 0
  · have hnat'' : (UInt8.ofNat payload.length).toNat = payload.length :=
      UInt8.toNat_ofNat_of_lt' (hshort hs)
    by_cases hi : flags &&& flagIdLengthPresent ≠ 0
    · simp [typeLen, idLen, payloadLen, fullLen, headerLen, hisShort, hhasId, hs, hi, hnat, hnat',
        hnat'', encodeRecord]
      omega
    · obtain rfl := hnone (not_not.mp hi)
      simp [typeLen, idLen, payloadLen, fullLen, headerLen, hisShort, hhasId, hs, hi, hnat, hnat'',
        encodeRecord]
      omega
  · by_cases hi : flags &&& flagIdLengthPresent ≠ 0
    · simp [typeLen, idLen, payloadLen, fullLen, headerLen, hisShort, hhasId, hs, hi, hnat, hnat',
        hbe, htake, hdrop, encodeRecord]
      omega
    · obtain rfl := hnone (not_not.mp hi)
      simp [typeLen, idLen, payloadLen, fullLen, headerLen, hisShort, hhasId, hs, hi, hnat, hbe,
        htake, encodeRecord]
      omega

theorem OtherRecord.read (r : OtherRecord) (rest : Bytes) :
    fullLen (r.encode ++ rest) = r.encode.length ∧ ¬ IsWifi (r.encode ++ rest) ∧
      ¬ TypeOutside (r.encode ++ rest) ∧ headerLen (r.encode ++ rest) ≤ r.encode.length := by
  obtain ⟨htype, hid, hpayload, hfull, hdrop⟩ :=
    @encodeRecord_fields _ _ _ _ rest r.type_lt r.id_lt r.payload_lt r.short r.id_eq
  change fullLen (r.encode ++ rest) = r.encode.length at hfull
  change typeLen (r.encode ++ rest) = _ at htype
  change (r.encode ++ rest).drop (headerLen (r.encode ++ rest)) = _ at hdrop
  have hheader : headerLen (r.encode ++ rest) ≤ r.encode.length := by
    rw [← hfull, fullLen]
    omega
  refine ⟨hfull, ?_, ?_, hheader⟩
  · rintro ⟨hlen, heq⟩
    rw [hdrop, ← hlen, htype, List.take_left] at heq
    exact r.other heq
  · rintro ⟨hlen, hout⟩
    have hdropped := congrArg List.length hdrop
    simp only [List.length_drop, List.length_append] at hdropped hout
    omega

theorem not_returns_ok_of_nonpos {buf payload : Bytes} {pos : ℕ} {len : ℤ} (h : ¬ 0 < len) :
    ¬ Returns (tryRound (ndefParseRound buf (some wifiFilter))) (pos, len) (.ok payload) := by
  intro hreturns
  have hstop : ndefParseRound buf (some wifiFilter) (pos, len) = .error .dropped := by
    rw [ndefParseRound, if_neg h]
  cases (returns_iff_of_done (tryRound_of_error hstop)).mp hreturns

theorem returns_behind_records (records : List OtherRecord) (front tail : Bytes) (size : ℕ)
    (hsize : size ≤ (records.flatMap OtherRecord.encode ++ tail).length) (payload : Bytes) :
    Returns (tryRound (ndefParseRound (front ++ (records.flatMap OtherRecord.encode ++ tail))
        (some wifiFilter))) (front.length, (size : ℤ)) (.ok payload) ↔
      (records.flatMap OtherRecord.encode).length ≤ size ∧
        Returns (tryRound (ndefParseRound
            ((front ++ records.flatMap OtherRecord.encode) ++ tail) (some wifiFilter)))
          ((front ++ records.flatMap OtherRecord.encode).length,
            ((size - (records.flatMap OtherRecord.encode).length : ℕ) : ℤ)) (.ok payload) := by
  induction records generalizing front size with
  | nil => simp
  | cons r records ih =>
    obtain ⟨hfull, hother, hinside, hheader⟩ :=
      r.read (records.flatMap OtherRecord.encode ++ tail)
    have hlt := r.total_lt
    have hmod : r.encode.length % 2 ^ 32 = r.encode.length := Nat.mod_eq_of_lt hlt
    have htwo : 2 ≤ r.encode.length := by
      simp only [OtherRecord.encode, encodeRecord, List.length_append, List.length_cons]
      omega
    rw [List.flatMap_cons, List.append_assoc] at hsize ⊢
    rcases Nat.eq_zero_or_pos size with rfl | hpos
    · rw [List.length_append]
      constructor
      · intro hreturns
        exact absurd hreturns (not_returns_ok_of_nonpos (by simp))
      · rintro ⟨hle, -⟩
        omega
    · have hround := ndefParseRound_wifi front hpos hsize
      by_cases hfits : r.encode.length ≤ size
      · have haccepts : Accepts (r.encode ++ (records.flatMap OtherRecord.encode ++ tail)) size :=
          ⟨by omega, by omega, by rw [hfull, hmod]; exact hfits⟩
        rw [if_neg (not_not.mpr haccepts), if_neg hinside, if_neg hother, hfull, hmod,
          ← Int.ofNat_sub hfits] at hround
        rw [returns_iff_of_next (tryRound_of_next hround)]
        have hrest := ih (front ++ r.encode) (size - r.encode.length)
          (by rw [List.length_append] at hsize; omega)
        rw [List.append_assoc front, List.length_append] at hrest
        rw [hrest]
        simp only [List.append_assoc, List.length_append, Nat.sub_sub]
        have hle : (records.flatMap OtherRecord.encode).length ≤ size - r.encode.length ↔
            r.encode.length + (records.flatMap OtherRecord.encode).length ≤ size := by omega
        rw [hle]
      · have hrefused : ¬ Accepts (r.encode ++ (records.flatMap OtherRecord.encode ++ tail)) size :=
          fun h => hfits (by have htotal := h.2.2; rwa [hfull, hmod] at htotal)
        rw [if_pos hrefused] at hround
        rw [returns_iff_of_done (tryRound_of_error hround), List.length_append]
        constructor
        · intro h
          cases h
        · rintro ⟨hle, -⟩
          omega

/-! ### The record of the builder -/

/-- The flags of the record that is built for a payload of `n` octets. -/
def wifiFlags (n : ℕ) : UInt8 := if n < 256 then 0xd2 else 0xc2

/-- The length of the record that is built for a payload of `n` octets. -/
def wifiLen (n : ℕ) : ℕ := (if n < 256 then 3 else 6) + wifiHandoverType.length + n

theorem wifiFlags_short (n : ℕ) : wifiFlags n &&& flagShortRecord ≠ 0 ↔ n < 256 := by
  unfold wifiFlags
  split_ifs with h
  · exact iff_of_true (by decide) h
  · exact iff_of_false (by decide) h

theorem wifiFlags_id (n : ℕ) : wifiFlags n &&& flagIdLengthPresent = 0 := by
  unfold wifiFlags
  split_ifs <;> decide

def wifiRecord (payload : Bytes) : Bytes :=
  encodeRecord (wifiFlags payload.length) wifiHandoverType [] payload

@[simp] theorem length_wifiRecord (payload : Bytes) :
    (wifiRecord payload).length = wifiLen payload.length := by
  unfold wifiRecord encodeRecord wifiLen
  rw [if_neg (not_not.mpr (wifiFlags_id _))]
  by_cases h : payload.length < 256
  · rw [if_pos ((wifiFlags_short _).mpr h), if_pos h]
    simp only [List.length_append, List.length_cons, List.length_nil]
    omega
  · rw [if_neg fun hs => h ((wifiFlags_short _).mp hs), if_neg h]
    simp only [List.length_append, List.length_cons, List.length_nil, length_putBe]
    omega

/-- The builder writes one record, if the buffer that it allocates holds it; of the length of the
payload it keeps 32 bits. -/
theorem ndefBuildWifi_eq (payload : Bytes) {kept : Bytes}
    (hkept : payload.take (payload.length % 2 ^ 32) = kept) :
    ndefBuildWifi payload =
      putOctets ((if kept.length < 256 then 3 else 6) +
          (wifiHandoverType.length + kept.length) % 2 ^ 32) [] (wifiRecord kept) := by
  have hlen : kept.length = payload.length % 2 ^ 32 := by
    rw [← hkept, List.length_take, Nat.min_eq_left (Nat.mod_le _ _)]
  have hflags : flagMessageBegin ||| flagMessageEnd ||| flagTnfRfc2046 = 0xc2 := by decide
  have hshort : (0xc2 : UInt8) ||| flagShortRecord = 0xd2 := by decide
  unfold ndefBuildWifi ndefBuildRecord wifiRecord encodeRecord
  rw [if_neg (not_not.mpr (wifiFlags_id _)), hkept, ← hlen]
  simp only [putOctets_bind, List.length_nil, Nat.lt_irrefl, if_false, Nat.add_zero,
    List.nil_append, hflags]
  by_cases h : kept.length < 256
  · rw [if_pos ((wifiFlags_short _).mpr h)]
    simp [h, wifiFlags, hshort]
  · rw [if_neg fun hs => h ((wifiFlags_short _).mp hs)]
    simp [h, wifiFlags]

theorem wifiRecord_fields (h : payload.length < 2 ^ 32) :
    fullLen (wifiRecord payload) = wifiLen payload.length ∧ IsWifi (wifiRecord payload) ∧
      payloadOf (wifiRecord payload) = payload ∧
      headerLen (wifiRecord payload) = if payload.length < 256 then 3 else 6 := by
  obtain ⟨htype, hid, hpayload, hfull, hdrop⟩ := @encodeRecord_fields
    (wifiFlags payload.length) wifiHandoverType [] payload []
    (by decide) (by decide) h (wifiFlags_short _).mp fun _ => rfl
  have hrecord : encodeRecord (wifiFlags payload.length) wifiHandoverType [] payload =
    wifiRecord payload := rfl
  simp only [List.append_nil, List.nil_append, hrecord] at htype hid hpayload hfull hdrop
  rw [length_wifiRecord] at hfull
  refine ⟨hfull, ⟨htype, ?_⟩, ?_, ?_⟩
  · rw [hdrop, List.take_left]
  · rw [payloadOf, htype, hid, hpayload, List.length_nil, Nat.add_zero, ← List.drop_drop, hdrop,
      List.drop_left, List.take_length]
  · rw [fullLen, htype, hid, hpayload, List.length_nil, wifiLen] at hfull
    omega

theorem ndefParseRound_wifiRecord (front : Bytes) (h : payload.length < 2 ^ 32) {size : ℕ}
    (hpos : 0 < size) (hsize : size ≤ wifiLen payload.length) :
    ndefParseRound (front ++ wifiRecord payload) (some wifiFilter) (front.length, (size : ℤ)) =
      if Accepts (wifiRecord payload) size then .ok (.inr payload) else .error .dropped := by
  obtain ⟨hfull, hwifi, hpayloadOf, hheader⟩ := wifiRecord_fields h
  have hinside : ¬ TypeOutside (wifiRecord payload) := by
    rintro ⟨-, hout⟩
    rw [hheader, length_wifiRecord, wifiLen] at hout
    omega
  have hthere : payloadLen (wifiRecord payload) = 0 ∨
      fullLen (wifiRecord payload) ≤ (wifiRecord payload).length :=
    .inr (by rw [hfull, length_wifiRecord])
  rw [ndefParseRound_wifi front hpos (by rwa [length_wifiRecord]), if_neg hinside, if_pos hwifi,
    if_pos hthere, hpayloadOf]
  simp only [ite_not]

/-- What is built is found again, behind other records, exactly if an `int` holds the length of it
all. -/
theorem roundTrips_iff (records : List OtherRecord) (payload : Bytes) :
    RoundTrips records payload ↔
      (records.flatMap OtherRecord.encode).length + wifiLen payload.length < 2 ^ 31 := by
  have htype : wifiHandoverType.length = 23 := by decide
  constructor
  · rintro ⟨built, hbuilt, hparse⟩
    obtain ⟨kept, hkept⟩ : ∃ kept, payload.take (payload.length % 2 ^ 32) = kept := ⟨_, rfl⟩
    rw [ndefBuildWifi_eq payload hkept] at hbuilt
    have hfits : wifiHandoverType.length + kept.length < 2 ^ 32 := by
      by_contra hlong
      rw [putOctets, if_neg] at hbuilt
      · cases hbuilt
      · rw [length_wifiRecord, wifiLen, List.length_nil]
        omega
    have hrecord := putOctets_eq_ok hbuilt
    rw [List.nil_append] at hrecord
    subst hrecord
    have hbuf : (records.flatMap OtherRecord.encode ++ wifiRecord kept).length =
        (records.flatMap OtherRecord.encode).length + wifiLen kept.length := by
      rw [List.length_append, length_wifiRecord]
    unfold NdefParseWifi NdefParseRecords at hparse
    rw [hbuf] at hparse
    -- what the loop takes the length of the buffer for
    obtain ⟨len, hlen⟩ : ∃ len, int32 ((records.flatMap OtherRecord.encode).length +
      wifiLen kept.length : ℕ) = len := ⟨_, rfl⟩
    rw [hlen] at hparse
    have hpos : 0 < len := by
      by_contra hnot
      exact not_returns_ok_of_nonpos hnot hparse
    have hle := int32_le (Int.natCast_nonneg ((records.flatMap OtherRecord.encode).length +
      wifiLen kept.length))
    rw [hlen] at hle
    obtain ⟨size, rfl⟩ : ∃ size : ℕ, len = size := ⟨len.toNat, by omega⟩
    have hwalk := (returns_behind_records records [] (wifiRecord kept) size (by omega) payload).mp
      hparse
    rw [List.nil_append] at hwalk
    obtain ⟨hbehind, hlast⟩ := hwalk
    have hsize : 0 < size - (records.flatMap OtherRecord.encode).length := by
      by_contra hzero
      exact not_returns_ok_of_nonpos (by omega) hlast
    have hround := @ndefParseRound_wifiRecord kept
      (records.flatMap OtherRecord.encode) (by omega) _ hsize (by omega)
    by_cases haccepts :
        Accepts (wifiRecord kept) (size - (records.flatMap OtherRecord.encode).length)
    · rw [if_pos haccepts] at hround
      have heq := (returns_iff_of_done (tryRound_of_done hround)).mp hlast
      obtain rfl : kept = payload := by simpa using heq
      obtain ⟨htwo, hheader, -⟩ := haccepts
      rw [(@wifiRecord_fields kept (by omega)).2.2.2] at hheader
      by_contra hlong
      have hless := int32_le_sub (n := ((records.flatMap OtherRecord.encode).length +
        wifiLen kept.length : ℕ)) (by omega) (by omega)
      rw [hlen] at hless
      unfold wifiLen at hless
      split_ifs at hless hheader <;> omega
    · rw [if_neg haccepts] at hround
      cases (returns_iff_of_done (tryRound_of_error hround)).mp hlast
  · intro hlt
    have hpayload : payload.length < 2 ^ 31 := by
      unfold wifiLen at hlt
      omega
    have hkept : payload.take (payload.length % 2 ^ 32) = payload := by
      rw [Nat.mod_eq_of_lt (by omega), List.take_length]
    have hbuilt : ndefBuildWifi payload = .ok (wifiRecord payload) := by
      rw [ndefBuildWifi_eq payload hkept, putOctets_of, List.nil_append]
      rw [length_wifiRecord, wifiLen, Nat.mod_eq_of_lt (by omega), List.length_nil]
      omega
    have hround := @ndefParseRound_wifiRecord payload
      (records.flatMap OtherRecord.encode) (by omega) (wifiLen payload.length)
      (by unfold wifiLen; omega)
      (Nat.le_refl _)
    obtain ⟨hfull, -, -, hheader⟩ := @wifiRecord_fields payload (by omega)
    have haccepts : Accepts (wifiRecord payload) (wifiLen payload.length) := by
      refine ⟨by unfold wifiLen; omega, ?_, ?_⟩
      · rw [hheader, wifiLen]
        omega
      · rw [hfull]
        exact Nat.mod_le _ _
    rw [if_pos haccepts] at hround
    have hbuf : (records.flatMap OtherRecord.encode ++ wifiRecord payload).length =
        (records.flatMap OtherRecord.encode).length + wifiLen payload.length := by
      rw [List.length_append, length_wifiRecord]
    have hwalk := returns_behind_records records [] (wifiRecord payload) _ (Nat.le_of_eq hbuf.symm)
      payload
    rw [List.nil_append, List.nil_append, Nat.add_sub_cancel_left] at hwalk
    refine ⟨_, hbuilt, ?_⟩
    unfold NdefParseWifi NdefParseRecords
    rw [hbuf, int32_eq (by omega) (by omega)]
    exact hwalk.mpr
      ⟨Nat.le_add_right _ _, (returns_iff_of_done (tryRound_of_done hround)).mpr rfl⟩

end RoundTrip

/-- **NDEF records**. The parser is safe exactly if it does not come to a record that has passed the
check by its length modulo `2 ^ 32` and is not all there; what the builder makes of a payload is
found again, behind records of other types, exactly if an `int` holds the length of it all. -/
theorem ndef_records (buf payload : Bytes) (records : List OtherRecord) :
    ((ParsesInside buf (some wifiFilter) ↔ ¬ GoesAstray buf (int32 buf.length).toNat) ∧
      (ParsesInside buf none ↔ ¬ (Accepts buf (int32 buf.length).toNat ∧ payloadLen buf ≠ 0 ∧
        buf.length < fullLen buf))) ∧
    (RoundTrips records payload ↔
      (records.flatMap OtherRecord.encode).length + wifiLen payload.length < 2 ^ 31) :=
  ⟨⟨parsesInside_wifi_iff buf, parsesInside_none_iff buf⟩, roundTrips_iff records payload⟩

/-- A record of `2 ^ 32` octets, of which there are six: the loop stays at it. -/
theorem endless_record : ¬ ParsesInside [0, 0, 0xff, 0xff, 0xff, 0xfa] (some wifiFilter) := by
  rw [parsesInside_wifi_iff]
  exact fun h => h (.here (by decide) (.inr (.inr ⟨by decide, by decide⟩)))

end Hostapd.Wps
