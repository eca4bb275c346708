import Hostapd.Common.RsnIe
import Hostapd.Lib.Cursor

/-!
# The WPA element, and both parsers with their positions

* **`parseWpaIeWpa`**: the parser of the WPA element, on lists as the one of the RSN element.
* **`wpaParseWpaIeRsn`, `wpaParseWpaIeWpa`**: the two parsers as the source has them, with a
  position `pos` and a number `left` of octets left, over checked accesses to the octets of the
  given length.
* **`wpaParseWpaIeRsn_eq`, `wpaParseWpaIeWpa_eq`**: they do what the list parsers do, so that they
  never read outside.
-/

namespace Hostapd

open Hostapd.Lib

/-! ## The WPA element -/

/-- Source: `WPA_CIPHER_TKIP`. -/
def cipherTkip : UInt16 := 0x08

/-- A suite of the WPA OUI. Source: `RSN_SELECTOR(0x00, 0x50, 0xf2, type)`. -/
def wpaSelector (type : UInt8) : Bytes := [0x00, 0x50, 0xf2, type]

def wpaSelectorToBitfield (s : Bytes) : UInt16 :=
  if s = wpaSelector 0 then 0x01
  else if s = wpaSelector 1 then 0x02
  else if s = wpaSelector 2 then cipherTkip
  else if s = wpaSelector 4 then cipherCcmp
  else if s = wpaSelector 5 then 0x04
  else 0

def wpaKeyMgmtToBitfield (s : Bytes) : UInt16 :=
  if s = wpaSelector 1 then 0x01
  else if s = wpaSelector 2 then 0x02
  else if s = wpaSelector 0 then 0x10
  else 0

/-- What stands for absent fields of a WPA element. -/
def WpaIeData.defaultWpa : WpaIeData where
  groupCipher := cipherTkip
  pairwiseCipher := cipherTkip
  keyMgmt := 0x01
  capabilities := 0
  pmkids := []
  mgmtGroupCipher := 0

/-- The group cipher of a WPA element, and what stands behind it. -/
def parseWpaGroupCipher (ie : WpaIeData) (left : Bytes) : Option (WpaIeData × Bytes) :=
  if 4 ≤ left.length then
    some ({ ie with groupCipher := wpaSelectorToBitfield (left.take 4) }, left.drop 4)
  else if left = [] then some (ie, left)
  else none

def parseWpaFields (left : Bytes) : Option WpaIeData := do
  let (ie, left) ← parseWpaGroupCipher .defaultWpa left
  let (suites, left) ← parseSuites left
  let ie := { ie with
    pairwiseCipher := (suites.map (suiteSet wpaSelectorToBitfield)).getD ie.pairwiseCipher }
  let (suites, left) ← parseSuites left
  let ie := { ie with keyMgmt := (suites.map (suiteSet wpaKeyMgmtToBitfield)).getD ie.keyMgmt }
  return (parseCapabilities ie left).1

/-- The parser of the element with its header; `none` for the negative results.
Source: `wpa_parse_wpa_ie_wpa`. -/
def parseWpaIeWpa (wpaIe : Bytes) : Option WpaIeData :=
  if wpaIe.length < 8 then none
  else if wpaIe.getD 0 0 ≠ 221 ∨ (wpaIe.getD 1 0).toNat ≠ wpaIe.length - 2 ∨
      (wpaIe.drop 2).take 4 ≠ wpaSelector 1 ∨ le16 (wpaIe.drop 6) ≠ 1 then none
  else parseWpaFields (wpaIe.drop 8)

/-! ## The parsers with a position -/

def orSuites (toBitfield : Bytes → UInt16) (d : Bytes) : ℕ → ℕ → UInt16 → Except Stop UInt16
  | 0, _, set => .ok set
  | count + 1, pos, set => do
    let s ← rdSlice d pos (pos + 4)
    orSuites toBitfield d count (pos + 4) (set ||| toBitfield s)

/-- The set of a list of suites behind its count, where there is one. -/
def readSuites (toBitfield : Bytes → UInt16) (d : Bytes) (pos : ℕ) (left : ℤ) :
    Except Stop (Option UInt16 × ℕ × ℤ) :=
  if 2 ≤ left then do
    let count ← rdLe16 d pos
    need (¬ (count = 0 ∨ left - 2 < count * 4))
    let set ← orSuites toBitfield d count (pos + 2) 0
    return (some set, pos + 2 + count * 4, left - 2 - count * 4)
  else do
    need (left ≠ 1)
    return (none, pos, left)

/-- The group cipher, unless it is one of those in `refused`. -/
def readGroupCipher (toBitfield : Bytes → UInt16) (refused : UInt16 → Bool) (d : Bytes)
    (ie : WpaIeData) (pos : ℕ) (left : ℤ) : Except Stop (WpaIeData × ℕ × ℤ) :=
  if 4 ≤ left then do
    let s ← rdSlice d pos (pos + 4)
    need (refused (toBitfield s) = false)
    return ({ ie with groupCipher := toBitfield s }, pos + 4, left - 4)
  else do
    need (¬ 0 < left)
    return (ie, pos, left)

def readCapabilities (d : Bytes) (ie : WpaIeData) (pos : ℕ) (left : ℤ) :
    Except Stop (WpaIeData × ℕ × ℤ) :=
  if 2 ≤ left then do
    let capabilities ← rdLe16 d pos
    return ({ ie with capabilities := capabilities.toUInt16 }, pos + 2, left - 2)
  else return (ie, pos, left)

/-- The PMKIDs; the source keeps a pointer to them, which is read here. -/
def readPmkids (d : Bytes) (ie : WpaIeData) (pos : ℕ) (left : ℤ) :
    Except Stop (WpaIeData × ℕ × ℤ) :=
  if 2 ≤ left then do
    let num ← rdLe16 d pos
    need (¬ left - 2 < num * 16)
    let pmkids ← rdSlice d (pos + 2) (pos + 2 + num * 16)
    return ({ ie with pmkids := splitOctets 16 num pmkids }, pos + 2 + num * 16,
      left - 2 - num * 16)
  else return (ie, pos, left)

def readMgmtGroupCipher (d : Bytes) (ie : WpaIeData) (pos : ℕ) (left : ℤ) :
    Except Stop WpaIeData :=
  if 4 ≤ left then do
    let s ← rdSlice d pos (pos + 4)
    need (rsnSelectorToBitfield s = cipherAes128Cmac)
    return { ie with mgmtGroupCipher := rsnSelectorToBitfield s }
  else return ie

/-- The parser of the RSN element in the octets `d`. Source: `wpa_parse_wpa_ie_rsn`. -/
def wpaParseWpaIeRsn (d : Bytes) : Except Stop WpaIeData := do
  need (¬ d.length < 4)
  let elemId ← rd8 d 0
  let len ← rd8 d 1
  let version ← rdLe16 d 2
  need (¬ (elemId ≠ 48 ∨ len.toNat ≠ d.length - 2 ∨ version ≠ 1))
  let (ie, pos, left) ← readGroupCipher rsnSelectorToBitfield (· = cipherAes128Cmac) d .default 4
    (d.length - 4)
  let (set, pos, left) ← readSuites rsnSelectorToBitfield d pos left
  need (set.all fun set => set &&& cipherAes128Cmac = 0)
  let ie := { ie with pairwiseCipher := set.getD ie.pairwiseCipher }
  let (set, pos, left) ← readSuites rsnKeyMgmtToBitfield d pos left
  let ie := { ie with keyMgmt := set.getD ie.keyMgmt }
  let (ie, pos, left) ← readCapabilities d ie pos left
  let (ie, pos, left) ← readPmkids d ie pos left
  readMgmtGroupCipher d ie pos left

/-- The parser of the WPA element in the octets `d`. Source: `wpa_parse_wpa_ie_wpa`. -/
def wpaParseWpaIeWpa (d : Bytes) : Except Stop WpaIeData := do
  need (¬ d.length < 8)
  let elemId ← rd8 d 0
  let len ← rd8 d 1
  let oui ← rdSlice d 2 6
  let version ← rdLe16 d 6
  need (¬ (elemId ≠ 221 ∨ len.toNat ≠ d.length - 2 ∨ oui ≠ wpaSelector 1 ∨ version ≠ 1))
  let (ie, pos, left) ← readGroupCipher wpaSelectorToBitfield (fun _ => false) d .defaultWpa 8
    (d.length - 8)
  let (set, pos, left) ← readSuites wpaSelectorToBitfield d pos left
  let ie := { ie with pairwiseCipher := set.getD ie.pairwiseCipher }
  let (set, pos, left) ← readSuites wpaKeyMgmtToBitfield d pos left
  let ie := { ie with keyMgmt := set.getD ie.keyMgmt }
  let (ie, _, _) ← readCapabilities d ie pos left
  return ie

/-! ## The readers do what the list parsers do -/

section Readers

variable {d rest : Bytes} {pos : ℕ} {left : ℤ}

theorem orSuites_eq (toBitfield : Bytes → UInt16) {count : ℕ} (h : Cursor d pos left rest)
    (hcount : count * 4 ≤ rest.length) (set : UInt16) :
    orSuites toBitfield d count pos set =
      .ok ((splitOctets 4 count rest).foldl (fun set s => set ||| toBitfield s) set) := by
  induction count generalizing pos left rest set with
  | zero => rfl
  | succ count ih =>
    have hfits : 4 ≤ rest.length := by omega
    have hnext := ih (h.advance hfits) (by rw [List.length_drop]; omega)
      (set ||| toBitfield (rest.take 4))
    rw [orSuites, h.rdSlice_eq hfits, ok_bind, hnext]
    rfl

theorem readSuites_reads (toBitfield : Bytes → UInt16) (h : Cursor d pos left rest) :
    Reads d (readSuites toBitfield d pos left)
      ((parseSuites rest).map fun p => (p.1.map (suiteSet toBitfield), p.2)) := by
  have hleft := h.left_eq
  unfold readSuites parseSuites
  by_cases hlong : 2 ≤ rest.length
  · have hpast := h.advance hlong
    rw [if_pos (by omega), if_pos hlong, h.rdLe16_eq hlong, ok_bind]
    dsimp only
    have hrest : (rest.drop 2).length = rest.length - 2 := List.length_drop
    by_cases hbad : le16 rest = 0 ∨ (rest.drop 2).length < le16 rest * 4
    · have hbad' : le16 rest = 0 ∨ left - 2 < (le16 rest : ℤ) * 4 := by omega
      rw [if_pos hbad, need_of_not (not_not.mpr hbad')]
      rfl
    · have hok : ¬ (le16 rest = 0 ∨ left - 2 < (le16 rest : ℤ) * 4) := by omega
      rw [not_or, not_lt] at hbad
      have hset := orSuites_eq toBitfield hpast hbad.2 0
      have hend := hpast.advance hbad.2
      rw [if_neg (not_or.mpr ⟨hbad.1, not_lt.mpr hbad.2⟩), need_of hok, ok_bind, hset, ok_bind]
      push_cast at hend
      exact ⟨_, _, rfl, hend⟩
  · rw [if_neg (by omega), if_neg hlong]
    by_cases hnil : rest = []
    · rw [if_pos hnil, need_of (by rw [hleft, hnil]; decide), ok_bind]
      exact ⟨_, _, rfl, h⟩
    · have hpos := List.length_pos_of_ne_nil hnil
      rw [if_neg hnil, need_of_not (by omega)]
      rfl

theorem readGroupCipher_reads (ie : WpaIeData) (h : Cursor d pos left rest) :
    Reads d (readGroupCipher rsnSelectorToBitfield (· = cipherAes128Cmac) d ie pos left)
      (parseGroupCipher ie rest) := by
  have hleft := h.left_eq
  unfold readGroupCipher parseGroupCipher
  by_cases hlong : 4 ≤ rest.length
  · rw [if_pos (by omega), if_pos hlong, h.rdSlice_eq hlong, ok_bind]
    dsimp only
    by_cases hcmac : rsnSelectorToBitfield (rest.take 4) = cipherAes128Cmac
    · rw [if_pos hcmac, need_of_not (by simpa using hcmac)]
      rfl
    · rw [if_neg hcmac, need_of (by simpa using hcmac), ok_bind]
      exact ⟨_, _, rfl, h.advance hlong⟩
  · rw [if_neg (by omega), if_neg hlong]
    by_cases hnil : rest = []
    · rw [if_pos hnil, need_of (by rw [hleft, hnil]; decide), ok_bind]
      exact ⟨_, _, rfl, h⟩
    · have hpos := List.length_pos_of_ne_nil hnil
      rw [if_neg hnil, need_of_not (by omega)]
      rfl

theorem readWpaGroupCipher_reads (ie : WpaIeData) (h : Cursor d pos left rest) :
    Reads d (readGroupCipher wpaSelectorToBitfield (fun _ => false) d ie pos left)
      (parseWpaGroupCipher ie rest) := by
  have hleft := h.left_eq
  unfold readGroupCipher parseWpaGroupCipher
  by_cases hlong : 4 ≤ rest.length
  · rw [if_pos (by omega), if_pos hlong, h.rdSlice_eq hlong, ok_bind, need_of rfl, ok_bind]
    exact ⟨_, _, rfl, h.advance hlong⟩
  · rw [if_neg (by omega), if_neg hlong]
    by_cases hnil : rest = []
    · rw [if_pos hnil, need_of (by rw [hleft, hnil]; decide), ok_bind]
      exact ⟨_, _, rfl, h⟩
    · have hpos := List.length_pos_of_ne_nil hnil
      rw [if_neg hnil, need_of_not (by omega)]
      rfl

theorem readCapabilities_eq (ie : WpaIeData) (h : Cursor d pos left rest) :
    ∃ pos' left', readCapabilities d ie pos left =
        .ok ((parseCapabilities ie rest).1, pos', left') ∧
      Cursor d pos' left' (parseCapabilities ie rest).2 := by
  have hleft := h.left_eq
  unfold readCapabilities parseCapabilities
  by_cases hlong : 2 ≤ rest.length
  · rw [if_pos (by omega), if_pos hlong, h.rdLe16_eq hlong, ok_bind]
    exact ⟨_, _, rfl, h.advance hlong⟩
  · rw [if_neg (by omega), if_neg hlong]
    exact ⟨_, _, rfl, h⟩

theorem readPmkids_reads (ie : WpaIeData) (h : Cursor d pos left rest) :
    Reads d (readPmkids d ie pos left) (parsePmkids ie rest) := by
  have hleft := h.left_eq
  unfold readPmkids parsePmkids
  by_cases hlong : 2 ≤ rest.length
  · have hpast := h.advance hlong
    rw [if_pos (by omega), if_pos hlong, h.rdLe16_eq hlong, ok_bind]
    dsimp only
    have hrest : (rest.drop 2).length = rest.length - 2 := List.length_drop
    by_cases hbad : (rest.drop 2).length < le16 rest * 16
    · rw [if_pos hbad, need_of_not (by omega)]
      rfl
    · rw [not_lt] at hbad
      have hend := hpast.advance hbad
      have hlist : ((rest.drop 2).take (le16 rest * 16)).length = le16 rest * 16 := by
        rw [List.length_take, Nat.min_eq_left hbad]
      have hsplit := splitOctets_append hlist ((rest.drop 2).drop (le16 rest * 16))
      rw [List.take_append_drop] at hsplit
      rw [if_neg (not_lt.mpr hbad), need_of (by omega), ok_bind, hpast.rdSlice_eq hbad, ok_bind,
        ← hsplit]
      push_cast at hend
      exact ⟨_, _, rfl, hend⟩
  · rw [if_neg (by omega), if_neg hlong]
    exact ⟨_, _, rfl, h⟩

theorem readMgmtGroupCipher_eq {ie : WpaIeData} (hie : ie.mgmtGroupCipher = cipherAes128Cmac)
    (h : Cursor d pos left rest) :
    readMgmtGroupCipher d ie pos left = ofOption (parseMgmtGroupCipher ie rest) := by
  have hleft := h.left_eq
  unfold readMgmtGroupCipher parseMgmtGroupCipher
  by_cases hlong : 4 ≤ rest.length
  · rw [if_pos (by omega), if_pos hlong, h.rdSlice_eq hlong, ok_bind]
    by_cases hcmac : rsnSelectorToBitfield (rest.take 4) = cipherAes128Cmac
    · rw [if_pos hcmac, need_of hcmac, ok_bind, hcmac, ← hie]
      rfl
    · rw [if_neg hcmac, need_of_not hcmac]
      rfl
  · rw [if_neg (by omega), if_neg hlong]
    rfl

end Readers

/-! The fields in front of the management group cipher leave its default alone. -/

theorem parseGroupCipher_mgmt {ie ie' : WpaIeData} {left left' : Bytes}
    (h : parseGroupCipher ie left = some (ie', left')) :
    ie'.mgmtGroupCipher = ie.mgmtGroupCipher := by
  rcases parseGroupCipher_some h with ⟨_, _, _, _, rfl⟩ | ⟨_, _, rfl⟩ <;> rfl

theorem parseCapabilities_mgmt (ie : WpaIeData) (left : Bytes) :
    (parseCapabilities ie left).1.mgmtGroupCipher = ie.mgmtGroupCipher := by
  unfold parseCapabilities
  split <;> rfl

theorem parsePmkids_mgmt {ie ie' : WpaIeData} {left left' : Bytes}
    (h : parsePmkids ie left = some (ie', left')) :
    ie'.mgmtGroupCipher = ie.mgmtGroupCipher := by
  unfold parsePmkids at h
  split at h
  · dsimp only at h
    split at h
    · cases h
    · cases h
      rfl
  · cases h
    rfl

theorem wpaParseWpaIeRsn_eq (d : Bytes) : wpaParseWpaIeRsn d = ofOption (parseWpaIeRsn d) := by
  unfold wpaParseWpaIeRsn parseWpaIeRsn
  by_cases hshort : d.length < 4
  · rw [if_pos hshort, need_of_not (not_not.mpr hshort)]
    rfl
  have hversion : rdLe16 d 2 = .ok (le16 (d.drop 2)) :=
    (Cursor.start (d := d) (p := 2) (by omega)).rdLe16_eq (by rw [List.length_drop]; omega)
  rw [if_neg hshort, need_of hshort, ok_bind, rd8_getD (by omega), ok_bind, rd8_getD (by omega),
    ok_bind, hversion, ok_bind]
  by_cases hheader : d.getD 0 0 ≠ 48 ∨ (d.getD 1 0).toNat ≠ d.length - 2 ∨ le16 (d.drop 2) ≠ 1
  · rw [if_pos hheader, need_of_not (not_not.mpr hheader)]
    rfl
  rw [if_neg hheader, need_of hheader, ok_bind]
  have hstart := Cursor.start (d := d) (p := 4) (by omega)
  unfold parseRsnFields
  refine (readGroupCipher_reads .default hstart).bind fun ie pos left rest hgroup hc => ?_
  have hmgmt : ie.mgmtGroupCipher = cipherAes128Cmac := parseGroupCipher_mgmt hgroup
  refine (readSuites_reads _ hc).bind_map fun pairwise pos left rest hc => ?_
  dsimp only
  by_cases hcmac : pairwise.isSome ∧
      ((pairwise.map (suiteSet rsnSelectorToBitfield)).getD ie.pairwiseCipher) &&&
        cipherAes128Cmac ≠ 0
  · have hbad : ¬ ((pairwise.map (suiteSet rsnSelectorToBitfield)).all fun set =>
        decide (set &&& cipherAes128Cmac = 0)) = true := by
      cases pairwise with
      | none => exact absurd hcmac.1 (by simp)
      | some suites => simpa using hcmac.2
    rw [if_pos hcmac, need_of_not hbad]
    rfl
  have hok : ((pairwise.map (suiteSet rsnSelectorToBitfield)).all fun set =>
      decide (set &&& cipherAes128Cmac = 0)) = true := by
    cases pairwise with
    | none => rfl
    | some suites => simpa using hcmac
  rw [if_neg hcmac, need_of hok, ok_bind]
  refine (readSuites_reads _ hc).bind_map fun akm pos left rest hc => ?_
  dsimp only
  obtain ⟨pos, left, hcaps, hc⟩ := readCapabilities_eq
    { ie with
      pairwiseCipher := (pairwise.map (suiteSet rsnSelectorToBitfield)).getD ie.pairwiseCipher
      keyMgmt := (akm.map (suiteSet rsnKeyMgmtToBitfield)).getD ie.keyMgmt } hc
  rw [hcaps, ok_bind]
  refine (readPmkids_reads _ hc).bind fun ie' pos left rest hpmkids hc => ?_
  refine readMgmtGroupCipher_eq ?_ hc
  rw [parsePmkids_mgmt hpmkids, parseCapabilities_mgmt]
  exact hmgmt

theorem wpaParseWpaIeWpa_eq (d : Bytes) : wpaParseWpaIeWpa d = ofOption (parseWpaIeWpa d) := by
  unfold wpaParseWpaIeWpa parseWpaIeWpa
  by_cases hshort : d.length < 8
  · rw [if_pos hshort, need_of_not (not_not.mpr hshort)]
    rfl
  have hversion : rdLe16 d 6 = .ok (le16 (d.drop 6)) :=
    (Cursor.start (d := d) (p := 6) (by omega)).rdLe16_eq (by rw [List.length_drop]; omega)
  have houi : rdSlice d 2 6 = .ok ((d.drop 2).take 4) :=
    (Cursor.start (d := d) (p := 2) (by omega)).rdSlice_eq (n := 4)
      (by rw [List.length_drop]; omega)
  rw [if_neg hshort, need_of hshort, ok_bind, rd8_getD (by omega), ok_bind, rd8_getD (by omega),
    ok_bind, houi, ok_bind, hversion, ok_bind]
  by_cases hheader : d.getD 0 0 ≠ 221 ∨ (d.getD 1 0).toNat ≠ d.length - 2 ∨
      (d.drop 2).take 4 ≠ wpaSelector 1 ∨ le16 (d.drop 6) ≠ 1
  · rw [if_pos hheader, need_of_not (not_not.mpr hheader)]
    rfl
  rw [if_neg hheader, need_of hheader, ok_bind]
  have hstart := Cursor.start (d := d) (p := 8) (by omega)
  unfold parseWpaFields
  refine (readWpaGroupCipher_reads .defaultWpa hstart).bind fun ie pos left rest _ hc => ?_
  refine (readSuites_reads _ hc).bind_map fun pairwise pos left rest hc => ?_
  refine (readSuites_reads _ hc).bind_map fun akm pos left rest hc => ?_
  obtain ⟨pos', left', hcaps, -⟩ := readCapabilities_eq
    { ie with
      pairwiseCipher := (pairwise.map (suiteSet wpaSelectorToBitfield)).getD ie.pairwiseCipher
      keyMgmt := (akm.map (suiteSet wpaKeyMgmtToBitfield)).getD ie.keyMgmt } hc
  dsimp only
  rw [hcaps]
  rfl

end Hostapd
