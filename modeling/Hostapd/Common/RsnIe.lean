import Hostapd.Common.EapolKey

/-!
# The RSN element

The parser of the RSN element (`wpa_common.c`), built with fast transition and management frame
protection.

* **`parseWpaIeRsn`** reads the fields in order. Each may be absent from some point on; then it
  keeps its default.
-/

namespace Hostapd

open Hostapd.Lib

/-! ## Bit fields -/

/-- Source: `WPA_CIPHER_CCMP`. -/
def cipherCcmp : UInt16 := 0x10

/-- Source: `WPA_CIPHER_AES_128_CMAC`. -/
def cipherAes128Cmac : UInt16 := 0x20

/-- Source: `WPA_KEY_MGMT_FT_IEEE8021X`. -/
def keyMgmtFtIeee8021x : UInt16 := 0x20

/-- Source: `WPA_KEY_MGMT_FT_PSK`. -/
def keyMgmtFtPsk : UInt16 := 0x40

/-- Source: `WPA_CAPABILITY_NO_PAIRWISE`. -/
def capabilityNoPairwise : UInt16 := 0x0002

/-- Source: `WPA_CAPABILITY_PEERKEY_ENABLED`. -/
def capabilityPeerkeyEnabled : UInt16 := 0x0200

/-- A suite of the RSN OUI. Source: `RSN_SELECTOR`. -/
def rsnSelector (type : UInt8) : Bytes := [0x00, 0x0f, 0xac, type]

def rsnSelectorToBitfield (s : Bytes) : UInt16 :=
  if s = rsnSelector 0 then 0x01
  else if s = rsnSelector 1 then 0x02
  else if s = rsnSelector 2 then 0x08
  else if s = rsnSelector 4 then cipherCcmp
  else if s = rsnSelector 5 then 0x04
  else if s = rsnSelector 6 then cipherAes128Cmac
  else 0

def rsnKeyMgmtToBitfield (s : Bytes) : UInt16 :=
  if s = rsnSelector 1 then 0x01
  else if s = rsnSelector 2 then 0x02
  else if s = rsnSelector 3 then keyMgmtFtIeee8021x
  else if s = rsnSelector 4 then keyMgmtFtPsk
  else if s = rsnSelector 5 then 0x80
  else if s = rsnSelector 6 then 0x100
  else 0

/-! ## The parser -/

structure WpaIeData where
  groupCipher : UInt16
  pairwiseCipher : UInt16
  keyMgmt : UInt16
  capabilities : UInt16
  pmkids : List Bytes
  mgmtGroupCipher : UInt16
  deriving DecidableEq

def WpaIeData.default : WpaIeData where
  groupCipher := cipherCcmp
  pairwiseCipher := cipherCcmp
  keyMgmt := 0x01
  capabilities := 0
  pmkids := []
  mgmtGroupCipher := cipherAes128Cmac

/-- Octet strings of `size` octets, `count` of them. -/
def splitOctets (size : ℕ) : ℕ → Bytes → List Bytes
  | 0, _ => []
  | count + 1, data => data.take size :: splitOctets size count (data.drop size)

def suiteSet (toBitfield : Bytes → UInt16) (suites : List Bytes) : UInt16 :=
  suites.foldl (fun set s => set ||| toBitfield s) 0

def parseGroupCipher (ie : WpaIeData) (left : Bytes) : Option (WpaIeData × Bytes) :=
  if 4 ≤ left.length then
    let cipher := rsnSelectorToBitfield (left.take 4)
    if cipher = cipherAes128Cmac then none
    else some ({ ie with groupCipher := cipher }, left.drop 4)
  else if left = [] then some (ie, left)
  else none

/-- A list of suites behind its count; `none` in the first component where there is none. -/
def parseSuites (left : Bytes) : Option (Option (List Bytes) × Bytes) :=
  if 2 ≤ left.length then
    let count := le16 left
    let rest := left.drop 2
    if count = 0 ∨ rest.length < count * 4 then none
    else some (some (splitOctets 4 count rest), rest.drop (count * 4))
  else if left = [] then some (none, left)
  else none

def parseCapabilities (ie : WpaIeData) (left : Bytes) : WpaIeData × Bytes :=
  if 2 ≤ left.length then ({ ie with capabilities := (le16 left).toUInt16 }, left.drop 2)
  else (ie, left)

def parsePmkids (ie : WpaIeData) (left : Bytes) : Option (WpaIeData × Bytes) :=
  if 2 ≤ left.length then
    let num := le16 left
    let rest := left.drop 2
    if rest.length < num * 16 then none
    else some ({ ie with pmkids := splitOctets 16 num rest }, rest.drop (num * 16))
  else some (ie, left)

def parseMgmtGroupCipher (ie : WpaIeData) (left : Bytes) : Option WpaIeData :=
  if 4 ≤ left.length then
    if rsnSelectorToBitfield (left.take 4) = cipherAes128Cmac then some ie else none
  else some ie

def parseRsnFields (left : Bytes) : Option WpaIeData := do
  let (ie, left) ← parseGroupCipher .default left
  let (suites, left) ← parseSuites left
  let ie := { ie with
    pairwiseCipher := (suites.map (suiteSet rsnSelectorToBitfield)).getD ie.pairwiseCipher }
  -- a cipher for management frames does not protect data
  if suites.isSome ∧ ie.pairwiseCipher &&& cipherAes128Cmac ≠ 0 then none
  else
    let (suites, left) ← parseSuites left
    let ie := { ie with keyMgmt := (suites.map (suiteSet rsnKeyMgmtToBitfield)).getD ie.keyMgmt }
    let (ie, left) := parseCapabilities ie left
    let (ie, left) ← parsePmkids ie left
    parseMgmtGroupCipher ie left

/-- The parser of the element with its header; `none` for the negative results.
Source: `wpa_parse_wpa_ie_rsn`. -/
def parseWpaIeRsn (rsnIe : Bytes) : Option WpaIeData :=
  if rsnIe.length < 4 then none
  else if rsnIe.getD 0 0 ≠ 48 ∨ (rsnIe.getD 1 0).toNat ≠ rsnIe.length - 2 ∨
      le16 (rsnIe.drop 2) ≠ 1 then none
  else parseRsnFields (rsnIe.drop 4)

/-!
## The fields of an RSN element

Where the parser of the RSN element finds its fields. A list of suites is two octets for the count
and four for each suite.

* `SuiteList` is such a list as it stands in the element. The parser reads it in front of any rest
  (`parseSuites_octets`), and what it reads is one (`parseSuites_some`).
* **`RsnHead`**: the fields up to the AKM suites, which the parser accepts. Behind them it goes on
  with `parseRsnTail`, whatever they hold (`parseRsnFields_octets`).
* **`exists_head`**: the fields of an element that the parser accepts and that has AKM suites are a
  head and a tail.
* `rsnElement` is the element with its header; **`exists_rsnElement`**: what is accepted is one.
-/

def pmkidLen : ℕ := 16

/-! ### Lists of suites -/

/-- A list of suites: the octets behind its count. -/
structure SuiteList where
  count : ℕ
  data : Bytes
  count_pos : count ≠ 0
  count_lt : count < 2 ^ 16
  length_data : data.length = count * 4

namespace SuiteList

def suites (l : SuiteList) : List Bytes := splitOctets 4 l.count l.data

def octets (l : SuiteList) : Bytes := putLe16 l.count ++ l.data

@[simp] theorem length_octets (l : SuiteList) : l.octets.length = 2 + l.count * 4 := by
  rw [octets, List.length_append, length_putLe16, l.length_data]

end SuiteList

theorem putLe16_le16 {b : Bytes} (h : 2 ≤ b.length) : putLe16 (le16 b) ++ b.drop 2 = b := by
  match b, h with
  | lo :: hi :: rest, _ =>
    have hlo := lo.toNat_lt
    have hhi := hi.toNat_lt
    have hvalue : le16 (lo :: hi :: rest) = lo.toNat + hi.toNat * 256 := rfl
    have h1 : UInt8.ofNat (lo.toNat + hi.toNat * 256) = lo := by
      apply UInt8.toNat.inj
      simp only [UInt8.toNat_ofNat']
      omega
    have h2 : UInt8.ofNat ((lo.toNat + hi.toNat * 256) / 256) = hi := by
      apply UInt8.toNat.inj
      simp only [UInt8.toNat_ofNat']
      omega
    rw [hvalue, putLe16, h1, h2]
    rfl

theorem le16_lt (b : Bytes) : le16 b < 2 ^ 16 := by
  have hlo := (b.getD 0 0).toNat_lt
  have hhi := (b.getD 1 0).toNat_lt
  unfold le16
  omega

theorem splitOctets_append {size count : ℕ} {data : Bytes} (h : data.length = count * size)
    (rest : Bytes) : splitOctets size count (data ++ rest) = splitOctets size count data := by
  induction count generalizing data with
  | zero => rfl
  | succ count ih =>
    have hsize : size ≤ data.length := by
      rw [h, Nat.add_mul, Nat.one_mul]
      exact Nat.le_add_left _ _
    have hdrop : (data.drop size).length = count * size := by
      rw [List.length_drop, h, Nat.add_mul, Nat.one_mul, Nat.add_sub_cancel]
    simp only [splitOctets]
    rw [List.take_append_of_le_length hsize, List.drop_append_of_le_length hsize, ih hdrop]

theorem parseSuites_octets (l : SuiteList) (rest : Bytes) :
    parseSuites (l.octets ++ rest) = some (some l.suites, rest) := by
  have hlen : 2 ≤ (l.octets ++ rest).length := by
    rw [List.length_append, l.length_octets]
    omega
  have hcount : le16 (l.octets ++ rest) = l.count := by
    rw [SuiteList.octets, List.append_assoc]
    exact le16_putLe16 l.count_lt _
  have hdrop : (l.octets ++ rest).drop 2 = l.data ++ rest := rfl
  have hfits : ¬ (l.count = 0 ∨ (l.data ++ rest).length < l.count * 4) := by
    rintro (h | h)
    · exact l.count_pos h
    · rw [List.length_append, l.length_data] at h
      omega
  unfold parseSuites
  simp only [if_pos hlen, hcount, hdrop, if_neg hfits]
  rw [splitOctets_append l.length_data, ← l.length_data, List.drop_left]
  rfl

variable {left rest : Bytes}

theorem parseSuites_some {suites : List Bytes}
    (h : parseSuites left = some (some suites, rest)) :
    ∃ l : SuiteList, left = l.octets ++ rest ∧ l.suites = suites := by
  unfold parseSuites at h
  split at h
  · rename_i hlen
    dsimp only at h
    split at h
    · cases h
    · rename_i hfits
      rw [not_or, not_lt] at hfits
      obtain ⟨hcount, hrest⟩ := hfits
      have hdata : ((left.drop 2).take (le16 left * 4)).length = le16 left * 4 := by
        rw [List.length_take, Nat.min_eq_left hrest]
      let l : SuiteList := ⟨le16 left, (left.drop 2).take (le16 left * 4), hcount, le16_lt left,
        hdata⟩
      simp only [Option.some.injEq, Prod.mk.injEq] at h
      obtain ⟨hsuites, hdrop⟩ := h
      refine ⟨l, ?_, ?_⟩
      · show left = putLe16 (le16 left) ++ (left.drop 2).take (le16 left * 4) ++ rest
        rw [← hdrop, List.append_assoc, List.take_append_drop, putLe16_le16 hlen]
      · have hsplit := splitOctets_append hdata ((left.drop 2).drop (le16 left * 4))
        rw [List.take_append_drop] at hsplit
        rw [← hsuites, hsplit]
        rfl
  · split at h
    · simp at h
    · cases h

theorem parseSuites_absent (h : parseSuites left = some (none, rest)) :
    left = [] ∧ rest = [] := by
  unfold parseSuites at h
  split at h
  · dsimp only at h
    split at h
    · cases h
    · simp at h
  · split at h
    · rename_i hnil
      simp only [Option.some.injEq, Prod.mk.injEq, true_and] at h
      exact ⟨hnil, h ▸ hnil⟩
    · cases h

@[simp] theorem parseSuites_nil : parseSuites [] = some (none, []) := rfl

/-! ### The group cipher -/

theorem parseGroupCipher_append {group : Bytes} (hlen : group.length = 4)
    (hcipher : rsnSelectorToBitfield group ≠ cipherAes128Cmac) (ie : WpaIeData) (rest : Bytes) :
    parseGroupCipher ie (group ++ rest) =
      some ({ ie with groupCipher := rsnSelectorToBitfield group }, rest) := by
  have hle : 4 ≤ (group ++ rest).length := by
    rw [List.length_append]
    omega
  have htake : (group ++ rest).take 4 = group := by rw [← hlen, List.take_left]
  have hdrop : (group ++ rest).drop 4 = rest := by rw [← hlen, List.drop_left]
  unfold parseGroupCipher
  simp only [if_pos hle, htake, if_neg hcipher, hdrop]

theorem parseGroupCipher_some {ie ie' : WpaIeData}
    (h : parseGroupCipher ie left = some (ie', rest)) :
    (∃ group : Bytes, group.length = 4 ∧ rsnSelectorToBitfield group ≠ cipherAes128Cmac ∧
      left = group ++ rest ∧ ie' = { ie with groupCipher := rsnSelectorToBitfield group }) ∨
    (left = [] ∧ rest = [] ∧ ie' = ie) := by
  unfold parseGroupCipher at h
  split at h
  · rename_i hlen
    dsimp only at h
    split at h
    · cases h
    · rename_i hcipher
      simp only [Option.some.injEq, Prod.mk.injEq] at h
      obtain ⟨hie, hrest⟩ := h
      refine .inl ⟨left.take 4, by rw [List.length_take]; omega, hcipher, ?_, hie.symm⟩
      rw [← hrest, List.take_append_drop]
  · split at h
    · rename_i hnil
      simp only [Option.some.injEq, Prod.mk.injEq] at h
      exact .inr ⟨hnil, h.2 ▸ hnil, h.1.symm⟩
    · cases h

/-! ### Head and tail -/

/-- The fields up to the AKM suites, with suites that may protect data. -/
structure RsnHead where
  group : Bytes
  pairwise : SuiteList
  akm : SuiteList
  length_group : group.length = 4
  group_ok : rsnSelectorToBitfield group ≠ cipherAes128Cmac
  pairwise_ok : suiteSet rsnSelectorToBitfield pairwise.suites &&& cipherAes128Cmac = 0

namespace RsnHead

def octets (h : RsnHead) : Bytes := h.group ++ (h.pairwise.octets ++ h.akm.octets)

@[simp] theorem length_octets (h : RsnHead) :
    h.octets.length = 8 + h.pairwise.count * 4 + h.akm.count * 4 := by
  simp only [octets, List.length_append, h.length_group, SuiteList.length_octets]
  omega

def ie (h : RsnHead) : WpaIeData :=
  { WpaIeData.default with
    groupCipher := rsnSelectorToBitfield h.group
    pairwiseCipher := suiteSet rsnSelectorToBitfield h.pairwise.suites
    keyMgmt := suiteSet rsnKeyMgmtToBitfield h.akm.suites }

end RsnHead

def parseRsnTail (ie : WpaIeData) (left : Bytes) : Option WpaIeData := do
  let (ie, left) := parseCapabilities ie left
  let (ie, left) ← parsePmkids ie left
  parseMgmtGroupCipher ie left

theorem parseRsnFields_octets (h : RsnHead) (tail : Bytes) :
    parseRsnFields (h.octets ++ tail) = parseRsnTail h.ie tail := by
  have hoctets : h.octets ++ tail =
      h.group ++ (h.pairwise.octets ++ (h.akm.octets ++ tail)) := by
    simp only [RsnHead.octets, List.append_assoc]
  have hcmac : ¬ ((some h.pairwise.suites).isSome ∧
      suiteSet rsnSelectorToBitfield h.pairwise.suites &&& cipherAes128Cmac ≠ 0) :=
    fun hc => hc.2 h.pairwise_ok
  rw [hoctets, parseRsnFields, parseGroupCipher_append h.length_group h.group_ok]
  simp only [Option.bind_eq_bind, Option.bind_some, parseSuites_octets, Option.map_some,
    Option.getD_some]
  rw [if_neg hcmac]
  rfl

/-- The octets behind the AKM suites, when there are AKM suites. -/
def rsnTail (left : Bytes) : Option Bytes := do
  let (_, left) ← parseGroupCipher .default left
  let (_, left) ← parseSuites left
  let (akm, left) ← parseSuites left
  if akm.isSome then some left else none

/-- Fields that are accepted are a head and a tail when they have AKM suites; otherwise they end
with the pairwise suites or in front of them. -/
theorem exists_head {left : Bytes} {d : WpaIeData} (h : parseRsnFields left = some d) :
    (∃ head : RsnHead, ∃ tail, left = head.octets ++ tail ∧ rsnTail left = some tail) ∨
    (rsnTail left = none ∧ (left.length ≤ 4 ∨
      ∃ group : Bytes, ∃ l : SuiteList, group.length = 4 ∧ left = group ++ l.octets)) := by
  unfold parseRsnFields at h
  simp only [Option.bind_eq_bind, Option.bind_eq_some_iff, Prod.exists] at h
  obtain ⟨ie, left₁, hgroup, pairwise, left₂, hpairwise, h⟩ := h
  split at h
  · cases h
  rename_i hcmac
  simp only [Option.bind_eq_some_iff, Prod.exists] at h
  obtain ⟨akm, left₃, hakm, -⟩ := h
  have htail : rsnTail left = if akm.isSome then some left₃ else none := by
    simp only [rsnTail, hgroup, hpairwise, hakm, Option.bind_eq_bind, Option.bind_some]
  rcases parseGroupCipher_some hgroup with ⟨group, hlen, hok, rfl, -⟩ | ⟨rfl, rfl, -⟩
  · cases pairwise with
    | none =>
      obtain ⟨rfl, rfl⟩ := parseSuites_absent hpairwise
      rw [parseSuites_nil] at hakm
      cases hakm
      refine .inr ⟨htail, .inl ?_⟩
      rw [List.append_nil, hlen]
    | some suites =>
      obtain ⟨l, rfl, rfl⟩ := parseSuites_some hpairwise
      cases akm with
      | none =>
        obtain ⟨rfl, rfl⟩ := parseSuites_absent hakm
        refine .inr ⟨htail, .inr ⟨group, l, hlen, ?_⟩⟩
        rw [List.append_nil]
      | some suites' =>
        obtain ⟨l', rfl, rfl⟩ := parseSuites_some hakm
        have hpair : suiteSet rsnSelectorToBitfield l.suites &&& cipherAes128Cmac = 0 := by
          by_contra hne
          exact hcmac ⟨rfl, hne⟩
        refine .inl ⟨⟨group, l, l', hlen, hok, hpair⟩, left₃, ?_, htail⟩
        simp only [RsnHead.octets, List.append_assoc]
  · rw [parseSuites_nil] at hpairwise
    cases hpairwise
    rw [parseSuites_nil] at hakm
    cases hakm
    exact .inr ⟨htail, .inl (Nat.zero_le _)⟩

/-! ### The element -/

def rsnElement (len : UInt8) (fields : Bytes) : Bytes := wlanEidRsn :: len :: 1 :: 0 :: fields

@[simp] theorem length_rsnElement (len : UInt8) (fields : Bytes) :
    (rsnElement len fields).length = fields.length + 4 := rfl

@[simp] theorem drop_rsnElement (len : UInt8) (fields : Bytes) :
    (rsnElement len fields).drop 4 = fields := rfl

theorem parseWpaIeRsn_rsnElement (len : UInt8) (fields : Bytes) :
    parseWpaIeRsn (rsnElement len fields) =
      if len.toNat = fields.length + 2 then parseRsnFields fields else none := by
  have hlong : ¬ (rsnElement len fields).length < 4 := by
    rw [length_rsnElement]
    omega
  have hid : (rsnElement len fields).getD 0 0 = 48 := rfl
  have hlen : (rsnElement len fields).getD 1 0 = len := rfl
  have hversion : le16 ((rsnElement len fields).drop 2) = 1 := by simp [rsnElement, le16]
  have hsize : (rsnElement len fields).length - 2 = fields.length + 2 := by
    rw [length_rsnElement]
    omega
  unfold parseWpaIeRsn
  rw [if_neg hlong, hid, hlen, hversion, hsize, drop_rsnElement]
  by_cases h : len.toNat = fields.length + 2
  · simp [h]
  · simp [h]

theorem exists_rsnElement {rsn : Bytes} {d : WpaIeData} (h : parseWpaIeRsn rsn = some d) :
    ∃ len fields, rsn = rsnElement len fields ∧ len.toNat = fields.length + 2 ∧
      parseRsnFields fields = some d := by
  have horig := h
  unfold parseWpaIeRsn at h
  split at h
  · cases h
  rename_i hlong
  split at h
  · cases h
  rename_i hheader
  simp only [not_or, not_not] at hheader
  obtain ⟨hid, -, hversion⟩ := hheader
  match rsn, hlong with
  | id :: len :: v₀ :: v₁ :: fields, _ =>
    have hword : putLe16 (le16 [v₀, v₁]) ++ [] = [v₀, v₁] := putLe16_le16 le_rfl
    have hone : le16 [v₀, v₁] = 1 := hversion
    rw [hone] at hword
    injection hword with h0 hword
    injection hword with h1
    have heq : id :: len :: v₀ :: v₁ :: fields = rsnElement len fields := by
      have hid' : id = wlanEidRsn := hid
      rw [hid', ← h0, ← h1]
      rfl
    rw [heq, parseWpaIeRsn_rsnElement] at horig
    split at horig
    · rename_i hlen
      exact ⟨len, fields, heq, hlen, horig⟩
    · cases horig

/-! ### The fields behind the AKM suites -/

section Tail

variable (ie : WpaIeData) (c₀ c₁ : UInt8)

def withCapabilities : WpaIeData := { ie with capabilities := (le16 [c₀, c₁]).toUInt16 }

theorem parseRsnTail_cons (left : Bytes) :
    parseRsnTail ie (c₀ :: c₁ :: left) =
      (parsePmkids (withCapabilities ie c₀ c₁) left).bind fun r =>
        parseMgmtGroupCipher r.1 r.2 := rfl

theorem parseMgmtGroupCipher_pmkids (left : Bytes) (pmkids : List Bytes) {d : WpaIeData}
    (h : parseMgmtGroupCipher ie left = some d) :
    parseMgmtGroupCipher { ie with pmkids := pmkids } left = some { d with pmkids := pmkids } := by
  unfold parseMgmtGroupCipher at h ⊢
  split at h
  · rename_i hlong
    split at h
    · rename_i hcmac
      cases h
      rw [if_pos hlong, if_pos hcmac]
    · cases h
  · rename_i hshort
    cases h
    rw [if_neg hshort]

theorem parsePmkids_one {pmkid : Bytes} (hlen : pmkid.length = pmkidLen) (left : Bytes) :
    parsePmkids ie (putLe16 1 ++ (pmkid ++ left)) =
      some ({ ie with pmkids := [pmkid] }, left) := by
  have hlong : 2 ≤ (putLe16 1 ++ (pmkid ++ left)).length := by simp [putLe16]
  have hcount : le16 (putLe16 1 ++ (pmkid ++ left)) = 1 := le16_putLe16 (by omega) _
  have hdrop : (putLe16 1 ++ (pmkid ++ left)).drop 2 = pmkid ++ left := rfl
  have hfits : ¬ (pmkid ++ left).length < 1 * 16 := by
    rw [List.length_append, hlen, pmkidLen]
    omega
  have htake : (pmkid ++ left).take 16 = pmkid := List.take_left' hlen
  have hrest : (pmkid ++ left).drop 16 = left := List.drop_left' hlen
  unfold parsePmkids
  simp only [if_pos hlong, hcount, hdrop, if_neg hfits, splitOctets, htake, Nat.one_mul, hrest]

theorem parsePmkids_zero (left : Bytes) :
    parsePmkids ie (putLe16 0 ++ left) = some ({ ie with pmkids := [] }, left) := by
  have hlong : 2 ≤ (putLe16 0 ++ left).length := by simp [putLe16]
  have hcount : le16 (putLe16 0 ++ left) = 0 := le16_putLe16 (by omega) _
  have hdrop : (putLe16 0 ++ left).drop 2 = left := rfl
  unfold parsePmkids
  simp only [if_pos hlong, hcount, hdrop, Nat.zero_mul, Nat.not_lt_zero, if_false, splitOctets,
    List.drop_zero]

theorem parseMgmtGroupCipher_cmac : parseMgmtGroupCipher ie (rsnSelector 6) = some ie := by
  unfold parseMgmtGroupCipher
  rw [if_pos (by decide), if_pos (by decide)]

theorem parsePmkids_short {left : Bytes} (h : left.length < pmkidLen) :
    parsePmkids ie (putLe16 1 ++ left) = none := by
  have hlong : 2 ≤ (putLe16 1 ++ left).length := by simp [putLe16]
  have hcount : le16 (putLe16 1 ++ left) = 1 := le16_putLe16 (by omega) _
  have hdrop : (putLe16 1 ++ left).drop 2 = left := rfl
  have hshort : left.length < 1 * 16 := h
  unfold parsePmkids
  simp only [if_pos hlong, hcount, hdrop, if_pos hshort]

end Tail

end Hostapd
