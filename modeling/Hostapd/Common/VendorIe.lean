import Hostapd.Common.EapolKey
import Hostapd.Lib.Checked
import Hostapd.Lib.Elements

/-!
# Vendor specific elements of one type

`ieee802_11_common.c`, `ieee802_11_vendor_ie_concat`: the data of all vendor specific elements of an
OUI type, put together. One loop looks for the first of these elements and gives up at an element
that runs past the end; the other one goes on from there, and ends at such an element.

* **`vendorIeConcat`** follows the two loops over the octets, with every read checked against the
  end.
* **`vendorIeConcat_eq`**: it reads nothing outside, never exceeds its allocation, and returns the
  data of the elements in front of the first one that runs past the end.
-/

namespace Hostapd.VendorIe

open Hostapd.Lib

/-! ## The loops -/

/-- The element at `pos`, with a length octet `len`, is of the type. -/
def isVendorAt (ies : Bytes) (ouiType : ℕ) (pos : ℕ) (len : UInt8) : Except Stop Bool := do
  let id ← rd8 ies pos
  if id ≠ wlanEidVendorSpecific ∨ len < 4 then return false
  let oui ← rdSlice ies (pos + 2) (pos + 6)
  return beNat oui = ouiType

/-- The first loop: the place of the first element of the type. -/
def findLoop (ies : Bytes) (ouiType : ℕ) : ℕ → ℕ → Except Stop (Option ℕ)
  | 0, _ => .ok none
  | fuel + 1, pos => do
    if ies.length ≤ pos + 1 then return none
    let len ← rd8 ies (pos + 1)
    if ies.length < pos + 2 + len.toNat then return none
    let found ← isVendorAt ies ouiType pos len
    if found then return some pos
    findLoop ies ouiType fuel (pos + 2 + len.toNat)

/-- The second loop: append the data of the elements of the type to a buffer of `size` octets. -/
def concatLoop (ies : Bytes) (ouiType size : ℕ) : ℕ → ℕ → Bytes → Except Stop Bytes
  | 0, _, buf => .ok buf
  | fuel + 1, pos, buf => do
    if ies.length ≤ pos + 1 then return buf
    let len ← rd8 ies (pos + 1)
    if ies.length < pos + 2 + len.toNat then return buf
    let found ← isVendorAt ies ouiType pos len
    let buf ← (if found then do
        let data ← rdSlice ies (pos + 6) (pos + 2 + len.toNat)
        putOctets size buf data
      else .ok buf)
    concatLoop ies ouiType size fuel (pos + 2 + len.toNat) buf

/-- The data of all elements of the type; `none` if there is none, or no memory.
Source: `ieee802_11_vendor_ie_concat`. -/
def vendorIeConcat (mem : Bool) (ies : Bytes) (ouiType : ℕ) : Except Stop (Option Bytes) := do
  let ie ← findLoop ies ouiType ies.length 0
  match ie with
  | none => return none
  | some pos =>
    if ¬ mem then return none
    let buf ← concatLoop ies ouiType ies.length ies.length pos []
    return some buf

/-! ## What they return -/

def isVendor (ouiType : ℕ) (r : Record) : Bool :=
  r.1 = wlanEidVendorSpecific ∧ 4 ≤ r.2.length ∧ beNat (r.2.take 4) = ouiType

def vendorData (ouiType : ℕ) (l : List Record) : Bytes :=
  (l.filter (isVendor ouiType)).flatMap fun r => r.2.drop 4

@[simp] theorem vendorData_nil (ouiType : ℕ) : vendorData ouiType [] = [] := rfl

theorem vendorData_cons (ouiType : ℕ) (r : Record) (l : List Record) :
    vendorData ouiType (r :: l) =
      (if isVendor ouiType r then r.2.drop 4 else []) ++ vendorData ouiType l := by
  simp only [vendorData, List.filter_cons]
  split <;> simp

section Reading

variable {ouiType : ℕ} {id len : UInt8} {rest : Bytes} (pre : Bytes)

theorem rd8_header :
    rd8 (pre ++ id :: len :: rest) pre.length = .ok id ∧
      rd8 (pre ++ id :: len :: rest) (pre.length + 1) = .ok len :=
  ⟨rd8_append pre _ 0, rd8_append pre _ 1⟩

theorem isVendorAt_eq (h : len.toNat ≤ rest.length) :
    isVendorAt (pre ++ id :: len :: rest) ouiType pre.length len =
      .ok (isVendor ouiType (id, rest.take len.toNat)) := by
  have hlength : (rest.take len.toNat).length = len.toNat := List.length_take_of_le h
  have hfour : len < 4 ↔ len.toNat < 4 := UInt8.lt_iff_toNat_lt
  rw [isVendorAt, (rd8_header pre).1, ok_bind]
  by_cases hshort : id ≠ wlanEidVendorSpecific ∨ len < 4
  · rw [if_pos hshort]
    have hnot : isVendor ouiType (id, rest.take len.toNat) = false := by
      rw [isVendor, decide_eq_false_iff_not, hlength]
      rintro ⟨hid, hlen, -⟩
      rcases hshort with hne | hlt
      · exact hne hid
      · exact absurd (hfour.mp hlt) (Nat.not_lt.mpr hlen)
    rw [hnot]
    rfl
  · obtain ⟨hid, hlen⟩ := not_or.mp hshort
    have hge : 4 ≤ len.toNat := Nat.not_lt.mp fun hlt => hlen (hfour.mpr hlt)
    have htake : (rest.take len.toNat).take 4 = rest.take 4 := by
      rw [List.take_take, Nat.min_eq_left hge]
    have hread : rdSlice (id :: len :: rest) 2 6 = .ok (rest.take 4) :=
      rdSlice_of (by decide) (by simp only [List.length_cons]; omega)
    rw [if_neg hshort, rdSlice_append_add, hread, ok_bind, isVendor, hlength, htake]
    simp [not_not.mp hid, hge, pure, Except.pure]

theorem rdSlice_data (h : len.toNat ≤ rest.length) (hfour : 4 ≤ len.toNat) :
    rdSlice (pre ++ id :: len :: rest) (pre.length + 6) (pre.length + 2 + len.toNat) =
      .ok ((rest.take len.toNat).drop 4) := by
  have htake : (id :: len :: rest).take (2 + len.toNat) = id :: len :: rest.take len.toNat := by
    rw [Nat.add_comm]
    rfl
  rw [Nat.add_assoc, rdSlice_append_add, rdSlice_of (by omega), htake]
  · rfl
  · simp only [List.length_cons]
    omega

theorem split_rest (id : UInt8) (h : len.toNat ≤ rest.length) :
    ∃ pre', pre ++ id :: len :: rest = pre' ++ rest.drop len.toNat ∧
      pre'.length = pre.length + 2 + len.toNat := by
  refine ⟨pre ++ id :: len :: rest.take len.toNat, ?_, ?_⟩
  · simp only [List.append_assoc, List.cons_append, List.take_append_drop]
  · rw [List.length_append, List.length_cons, List.length_cons, List.length_take_of_le h]
    omega

theorem four_le_of_isVendor (h : len.toNat ≤ rest.length)
    (hvendor : isVendor ouiType (id, rest.take len.toNat)) : 4 ≤ len.toNat := by
  have hlen := (of_decide_eq_true hvendor).2.1
  rwa [List.length_take_of_le h] at hlen

theorem length_le_iff : (pre ++ id :: len :: rest).length < pre.length + 2 + len.toNat ↔
    rest.length < len.toNat := by
  simp only [List.length_append, List.length_cons]
  omega

end Reading

theorem concatLoop_eq (ouiType : ℕ) (pre : Bytes) {size fuel : ℕ} {rest buf : Bytes}
    (hfuel : rest.length ≤ fuel) (hsize : buf.length + rest.length ≤ size) :
    concatLoop (pre ++ rest) ouiType size fuel pre.length buf =
      .ok (buf ++ vendorData ouiType (elements rest)) := by
  induction fuel generalizing pre rest buf with
  | zero =>
    have hnil : rest = [] := List.length_eq_zero_iff.mp (Nat.le_zero.mp hfuel)
    simp [concatLoop, hnil]
  | succ fuel ih =>
    match rest with
    | [] => simp [concatLoop, pure, Except.pure]
    | [_] => simp [concatLoop, elements, readElements, pure, Except.pure]
    | id :: len :: rest =>
      have hmore : ¬ (pre ++ id :: len :: rest).length ≤ pre.length + 1 := by
        simp only [List.length_append, List.length_cons]
        omega
      simp only [List.length_cons] at hfuel hsize
      rw [concatLoop, if_neg hmore, (rd8_header pre).2, ok_bind]
      by_cases hrun : rest.length < len.toNat
      · rw [if_pos ((length_le_iff pre).mpr hrun), elements_of_lt hrun, vendorData_nil,
          List.append_nil]
        rfl
      · have hle : len.toNat ≤ rest.length := Nat.le_of_not_lt hrun
        obtain ⟨pre', hsplit, hpos⟩ := split_rest pre id hle
        have hdrop : (rest.drop len.toNat).length = rest.length - len.toNat := List.length_drop
        rw [if_neg fun h => hrun ((length_le_iff pre).mp h), isVendorAt_eq pre hle, ok_bind,
          elements_of_le hle, vendorData_cons]
        by_cases hvendor : isVendor ouiType (id, rest.take len.toNat)
        · have hdata : ((rest.take len.toNat).drop 4).length ≤ len.toNat := by
            rw [List.length_drop, List.length_take_of_le hle]
            omega
          have hput : buf.length + ((rest.take len.toNat).drop 4).length ≤ size := by omega
          rw [if_pos hvendor, if_pos hvendor,
            rdSlice_data pre hle (four_le_of_isVendor hle hvendor), ok_bind, putOctets_of hput,
            ok_bind, ← hpos, hsplit, ih pre', List.append_assoc]
          · omega
          · rw [List.length_append]
            omega
        · rw [if_neg hvendor, if_neg hvendor, ok_bind, ← hpos, hsplit,
            ih pre' (by omega) (by omega), List.nil_append]

/-- The first loop stops at an element of the type if there is one, and none of what it passes
carries data. -/
theorem findLoop_eq (ouiType : ℕ) (pre : Bytes) {fuel : ℕ} {rest : Bytes}
    (hfuel : rest.length ≤ fuel) :
    if (elements rest).any (isVendor ouiType) then
      ∃ pre' rest', pre ++ rest = pre' ++ rest' ∧ rest'.length ≤ rest.length ∧
        findLoop (pre ++ rest) ouiType fuel pre.length = .ok (some pre'.length) ∧
        vendorData ouiType (elements rest') = vendorData ouiType (elements rest)
    else findLoop (pre ++ rest) ouiType fuel pre.length = .ok none := by
  induction fuel generalizing pre rest with
  | zero =>
    have hnil : rest = [] := List.length_eq_zero_iff.mp (Nat.le_zero.mp hfuel)
    simp [findLoop, hnil]
  | succ fuel ih =>
    match rest with
    | [] => simp [findLoop, pure, Except.pure]
    | [_] => simp [findLoop, elements, readElements, pure, Except.pure]
    | id :: len :: rest =>
      have hmore : ¬ (pre ++ id :: len :: rest).length ≤ pre.length + 1 := by
        simp only [List.length_append, List.length_cons]
        omega
      simp only [List.length_cons] at hfuel
      rw [findLoop, if_neg hmore, (rd8_header pre).2, ok_bind]
      by_cases hrun : rest.length < len.toNat
      · rw [if_pos ((length_le_iff pre).mpr hrun), elements_of_lt hrun]
        rfl
      · have hle : len.toNat ≤ rest.length := Nat.le_of_not_lt hrun
        obtain ⟨pre', hsplit, hpos⟩ := split_rest pre id hle
        have hdrop : (rest.drop len.toNat).length = rest.length - len.toNat := List.length_drop
        rw [if_neg fun h => hrun ((length_le_iff pre).mp h), isVendorAt_eq pre hle, ok_bind,
          elements_of_le hle, List.any_cons]
        by_cases hvendor : isVendor ouiType (id, rest.take len.toNat)
        · rw [if_pos hvendor, hvendor, Bool.true_or, if_pos rfl]
          exact ⟨pre, id :: len :: rest, rfl, Nat.le_refl _, rfl, by rw [elements_of_le hle]⟩
        · rw [if_neg hvendor, Bool.eq_false_iff.mpr hvendor, Bool.false_or, vendorData_cons,
            if_neg hvendor, List.nil_append, hsplit, ← hpos]
          have hfuel' : (rest.drop len.toNat).length ≤ fuel := by omega
          have hih := ih pre' hfuel'
          by_cases hany : (elements (rest.drop len.toNat)).any (isVendor ouiType)
          · rw [if_pos hany] at hih ⊢
            obtain ⟨pre'', rest'', heq, hshorter, hfound, hdata⟩ := hih
            exact ⟨pre'', rest'', heq, by simp only [List.length_cons]; omega, hfound, hdata⟩
          · rw [if_neg hany] at hih ⊢
            exact hih

/-- Source: `ieee802_11_vendor_ie_concat`. On any octets the loops read inside them and write inside
the allocation, and the result is the data of the elements of the type. -/
theorem vendorIeConcat_eq (mem : Bool) (ies : Bytes) (ouiType : ℕ) :
    vendorIeConcat mem ies ouiType =
      .ok (if (elements ies).any (isVendor ouiType) ∧ mem then
        some (vendorData ouiType (elements ies)) else none) := by
  have hfind := findLoop_eq ouiType [] (Nat.le_refl ies.length)
  simp only [List.nil_append, List.length_nil] at hfind
  rw [vendorIeConcat]
  by_cases hany : (elements ies).any (isVendor ouiType)
  · rw [if_pos hany] at hfind
    obtain ⟨pre, rest, hsplit, hshorter, hfound, hdata⟩ := hfind
    have hfits : ([] : Bytes).length + rest.length ≤ ies.length := by
      rwa [List.length_nil, Nat.zero_add]
    have hconcat := concatLoop_eq ouiType pre hshorter hfits
    rw [← hsplit, List.nil_append, hdata] at hconcat
    rw [hfound, ok_bind]
    cases mem with
    | false => simp [pure, Except.pure]
    | true => simp [hconcat, hany, pure, Except.pure]
  · rw [if_neg hany] at hfind
    rw [hfind, ok_bind, if_neg fun h => hany h.1]
    rfl

end Hostapd.VendorIe
