import Hostapd.Ap.WpaAuthIe

/-!
# The parsers read what the authenticator writes

* **`wpaWriteRsnIe_ok`, `wpaWriteWpaIe_ok`**: an element that is written is read as `rsnIeData` and
  `wpaIeData` say, and its length octet counts what was written.
* **`elements_agree`**: the elements of the authenticator are at most 128 octets, they are the ones
  the configuration asks for, the parsers read them so, and neither the writers nor the parsers go
  outside their buffers.
-/

namespace Hostapd.Ap.WpaIe

open Hostapd.Lib Hostapd.Ft
open Hostapd.Ap.Ft (MfpOptions)

/-! ## Suites from a table -/

/-- The table agrees with a parser: the suite of a bit is read as that bit. -/
def Lawful (toBitfield : Bytes → UInt16) (table : SuiteTable) : Prop :=
  ∀ e ∈ table, toBitfield e.2 = e.1 ∧ e.2.length = 4 ∧ ∃ k < 16, e.1.toBitVec = BitVec.twoPow 16 k

instance (toBitfield : Bytes → UInt16) (table : SuiteTable) :
    Decidable (Lawful toBitfield table) :=
  inferInstanceAs (Decidable (∀ e ∈ table, _))

theorem and_bit {b : UInt16} (hb : ∃ k < 16, b.toBitVec = BitVec.twoPow 16 k) {set : UInt16}
    (h : set &&& b ≠ 0) : set &&& b = b := by
  obtain ⟨k, -, hk⟩ := hb
  have hand : (set &&& b).toBitVec =
      if set.toBitVec.getLsbD k then BitVec.twoPow 16 k else 0#16 := by
    rw [UInt16.toBitVec_and, hk, BitVec.and_twoPow]
  by_cases hset : set.toBitVec.getLsbD k
  · rw [if_pos hset, ← hk] at hand
    exact UInt16.toBitVec_inj.mp hand
  · rw [if_neg hset] at hand
    exact absurd (UInt16.toBitVec_inj.mp hand) h

theorem and_or_distrib (a b c : UInt16) : a &&& (b ||| c) = (a &&& b) ||| (a &&& c) := by
  apply UInt16.toBitVec_inj.mp
  simp only [UInt16.toBitVec_and, UInt16.toBitVec_or]
  ext i
  simp only [BitVec.getElem_and, BitVec.getElem_or]
  exact Bool.and_or_distrib_left _ _ _

variable {toBitfield : Bytes → UInt16} {table : SuiteTable}

theorem suiteSet_chosen 
    (h : Lawful toBitfield table) (set : UInt16) :
    suiteSet toBitfield (chosen table set) = set &&& bits table := by
  have key : ∀ acc : UInt16,
      (chosen table set).foldl (fun acc s => acc ||| toBitfield s) acc =
        acc ||| (set &&& bits table) := by
    induction table with
    | nil =>
      intro acc
      show acc = acc ||| (set &&& 0)
      rw [UInt16.and_zero, UInt16.or_zero]
    | cons e table ih =>
      intro acc
      have ih := ih fun a ha => h a (List.mem_cons_of_mem e ha)
      obtain ⟨hsuite, -, hbit⟩ := h e List.mem_cons_self
      have hbits : set &&& bits (e :: table) = (set &&& e.1) ||| (set &&& bits table) :=
        and_or_distrib _ _ _
      rw [hbits]
      by_cases he : set &&& e.1 = 0
      · have hskip : chosen (e :: table) set = chosen table set := by
          simp [chosen, he]
        rw [hskip, ih, he, UInt16.zero_or]
      · have htake : chosen (e :: table) set = e.2 :: chosen table set := by
          simp [chosen, he]
        rw [htake, List.foldl_cons, ih, hsuite, and_bit hbit he, UInt16.or_assoc]
  have := key 0
  rwa [UInt16.zero_or] at this

theorem length_chosen_le (table : SuiteTable) (set : UInt16) :
    (chosen table set).length ≤ table.length := by
  rw [chosen, List.length_map]
  exact List.length_filter_le _ _

theorem length_of_mem_chosen 
    (h : Lawful toBitfield table) {set : UInt16} {s : Bytes} (hs : s ∈ chosen table set) :
    s.length = 4 := by
  obtain ⟨e, he, rfl⟩ := List.mem_map.mp hs
  exact (h e (List.mem_of_mem_filter he)).2.1

theorem length_flatten {l : List Bytes} (h : ∀ s ∈ l, s.length = 4) :
    l.flatten.length = l.length * 4 := by
  induction l with
  | nil => rfl
  | cons s l ih =>
    rw [List.flatten_cons, List.length_append, h s List.mem_cons_self,
      ih fun a ha => h a (List.mem_cons_of_mem s ha), List.length_cons]
    omega

theorem splitOctets_flatten {l : List Bytes} (h : ∀ s ∈ l, s.length = 4) :
    splitOctets 4 l.length l.flatten = l := by
  induction l with
  | nil => rfl
  | cons s l ih =>
    have hs := h s List.mem_cons_self
    rw [List.length_cons, List.flatten_cons, splitOctets, List.take_left' hs, List.drop_left' hs,
      ih fun a ha => h a (List.mem_cons_of_mem s ha)]

def writtenList {toBitfield : Bytes → UInt16} {table : SuiteTable} (h : Lawful toBitfield table)
    (htable : table.length < 2 ^ 16) {set : UInt16} (hne : chosen table set ≠ []) :
    SuiteList where
  count := (chosen table set).length
  data := (chosen table set).flatten
  count_pos := fun hzero => hne (List.length_eq_zero_iff.mp hzero)
  count_lt := (length_chosen_le table set).trans_lt htable
  length_data := length_flatten fun _ hs => length_of_mem_chosen h hs

section WrittenList

variable {toBitfield : Bytes → UInt16} {table : SuiteTable} (h : Lawful toBitfield table)
  (htable : table.length < 2 ^ 16) {set : UInt16} (hne : chosen table set ≠ [])

@[simp] theorem writtenList_octets : (writtenList h htable hne).octets =
    putLe16 (chosen table set).length ++ (chosen table set).flatten := rfl

@[simp] theorem writtenList_suites : (writtenList h htable hne).suites = chosen table set :=
  splitOctets_flatten fun _ hs => length_of_mem_chosen h hs

end WrittenList

/-! ## The steps of the writers -/

variable {len : ℕ} {buf buf' : Bytes}

theorem putSuites_eq_ok {suites : List Bytes}
    (h : putSuites len buf suites = .ok buf') :
    suites ≠ [] ∧ buf' = buf ++ (putLe16 suites.length ++ suites.flatten) := by
  obtain ⟨u, hne, hput⟩ := bind_eq_ok h
  exact ⟨need_eq_ok hne, putOctets_eq_ok hput⟩

theorem putGroup_eq_ok 
    (hlaw : Lawful toBitfield table) {group : UInt16}
    (h : putGroup len buf table group = .ok buf') :
    ∃ s : Bytes, s.length = 4 ∧ toBitfield s = group ∧ (∃ e ∈ table, e.1 = group) ∧
      buf' = buf ++ s := by
  unfold putGroup at h
  cases hf : table.find? fun e => decide (group = e.1) with
  | none => rw [hf] at h; cases h
  | some e =>
    rw [hf] at h
    have hmem := List.mem_of_find?_eq_some hf
    have hgroup : group = e.1 := by simpa using List.find?_some hf
    obtain ⟨hsuite, hlen, -⟩ := hlaw e hmem
    exact ⟨e.2, hlen, hsuite.trans hgroup.symm, ⟨e, hmem, hgroup.symm⟩, putOctets_eq_ok h⟩

theorem closeElement_cons (id : UInt8) (payload : Bytes) :
    closeElement (id :: 0 :: payload) = Record.encode 0 (id, payload) := rfl

def pmkidOctets : Option Bytes → Bytes
  | some pmkid => putLe16 1 ++ pmkid
  | none => []

/-- The management group cipher, behind a count of zero where there is no PMKID. -/
def mgmtOctets (conf : WpaAuthConfig) (pmkid : Option Bytes) : Bytes :=
  if conf.ieee80211w ≠ .no then (if pmkid.isNone then putLe16 0 else []) ++ rsnSelector 6 else []

variable {pmkid : Option Bytes}

theorem putPmkid_eq_ok 
    (h : putPmkid len buf pmkid = .ok buf') : buf' = buf ++ pmkidOctets pmkid := by
  cases pmkid with
  | none =>
    cases h
    exact (List.append_nil buf).symm
  | some pmkid =>
    obtain ⟨u, -, hput⟩ := bind_eq_ok h
    exact putOctets_eq_ok hput

variable {conf : WpaAuthConfig}

theorem putMgmtGroupCipher_eq_ok 
    (h : putMgmtGroupCipher conf len buf pmkid = .ok buf') :
    buf' = buf ++ mgmtOctets conf pmkid := by
  unfold putMgmtGroupCipher at h
  unfold mgmtOctets
  split at h
  · rename_i hmfp
    obtain ⟨u, -, hput⟩ := bind_eq_ok h
    rw [if_pos hmfp]
    exact putOctets_eq_ok hput
  · rename_i hno
    cases h
    rw [if_neg hno, List.append_nil]

/-! ## The RSN element -/

theorem rsnGroupCiphers_lawful : Lawful rsnSelectorToBitfield rsnGroupCiphers := by decide

theorem rsnPairwiseCiphers_lawful : Lawful rsnSelectorToBitfield rsnPairwiseCiphers := by decide

theorem rsnKeyMgmts_lawful : Lawful rsnKeyMgmtToBitfield rsnKeyMgmts := by decide

theorem parseRsnTail_written (conf : WpaAuthConfig)
    (hpmkid : ∀ p ∈ pmkid, p.length = pmkidLen) {ie : WpaIeData} (hie : ie.pmkids = []) :
    parseRsnTail ie (putLe16 (rsnCapabilities conf).toNat ++
        (pmkidOctets pmkid ++ mgmtOctets conf pmkid)) =
      some { ie with capabilities := rsnCapabilities conf, pmkids := pmkid.toList } := by
  have hcapab : ∀ c₀ c₁, putLe16 (rsnCapabilities conf).toNat = [c₀, c₁] →
      withCapabilities ie c₀ c₁ = { ie with capabilities := rsnCapabilities conf } := by
    intro c₀ c₁ h
    have hword := le16_putLe16 (rsnCapabilities conf).toNat_lt []
    rw [h, List.append_nil] at hword
    rw [withCapabilities, hword]
    simp
  obtain ⟨c₀, c₁, hc⟩ : ∃ c₀ c₁, putLe16 (rsnCapabilities conf).toNat = [c₀, c₁] := ⟨_, _, rfl⟩
  rw [hc]
  show parseRsnTail ie (c₀ :: c₁ :: (pmkidOctets pmkid ++ mgmtOctets conf pmkid)) = _
  rw [parseRsnTail_cons, hcapab c₀ c₁ hc]
  cases pmkid with
  | none =>
    by_cases hmfp : conf.ieee80211w = .no
    · have hmgmt : mgmtOctets conf none = [] := if_neg (not_not.mpr hmfp)
      rw [hmgmt]
      show some { ie with capabilities := rsnCapabilities conf } = _
      rw [Option.toList_none, ← hie]
    · have hmgmt : mgmtOctets conf none = putLe16 0 ++ rsnSelector 6 := if_pos hmfp
      rw [hmgmt, pmkidOctets, List.nil_append, parsePmkids_zero, Option.bind_some,
        parseMgmtGroupCipher_cmac]
      rfl
  | some pmkid =>
    have hlen := hpmkid pmkid rfl
    have hread := parsePmkids_one { ie with capabilities := rsnCapabilities conf } hlen
      (mgmtOctets conf (some pmkid))
    rw [pmkidOctets, List.append_assoc, hread]
    by_cases hmfp : conf.ieee80211w = .no
    · have hmgmt : mgmtOctets conf (some pmkid) = [] := if_neg (not_not.mpr hmfp)
      rw [hmgmt]
      rfl
    · have hmgmt : mgmtOctets conf (some pmkid) = rsnSelector 6 := if_pos hmfp
      rw [hmgmt, Option.bind_some, parseMgmtGroupCipher_cmac]
      rfl

theorem length_tail_le (conf : WpaAuthConfig)
    (hpmkid : ∀ p ∈ pmkid, p.length = pmkidLen) :
    (putLe16 (rsnCapabilities conf).toNat ++
      (pmkidOctets pmkid ++ mgmtOctets conf pmkid)).length ≤ 26 := by
  have hp : (pmkidOctets pmkid).length ≤ 18 := by
    cases pmkid with
    | none => exact Nat.zero_le _
    | some p =>
      have := hpmkid p rfl
      simp only [pmkidOctets, List.length_append, length_putLe16, this, pmkidLen]
      omega
  have hm : (mgmtOctets conf pmkid).length ≤ 6 := by
    unfold mgmtOctets
    split
    · split <;> simp [rsnSelector]
    · exact Nat.zero_le _
  simp only [List.length_append, length_putLe16]
  omega

theorem wpaWriteRsnIe_ok {ie : Bytes}
    (hpmkid : ∀ p ∈ pmkid, p.length = pmkidLen) (h : wpaWriteRsnIe conf len pmkid = .ok ie) :
    ∃ payload : Bytes, ie = Record.encode 0 (wlanEidRsn, payload) ∧ payload.length ≤ 72 ∧
      wpaParseWpaIeRsn ie = .ok (rsnIeData conf pmkid) := by
  obtain ⟨buf₁, h₁, h⟩ := bind_eq_ok h
  obtain ⟨buf₂, h₂, h⟩ := bind_eq_ok h
  obtain ⟨buf₃, h₃, h⟩ := bind_eq_ok h
  obtain ⟨buf₄, h₄, h⟩ := bind_eq_ok h
  obtain ⟨buf₅, h₅, h⟩ := bind_eq_ok h
  obtain ⟨buf₆, h₆, h⟩ := bind_eq_ok h
  obtain ⟨buf₇, h₇, h⟩ := bind_eq_ok h
  obtain ⟨group, hgroupLen, hgroup, ⟨e, he, heq⟩, rfl⟩ := putGroup_eq_ok rsnGroupCiphers_lawful h₂
  obtain ⟨hpairwise, rfl⟩ := putSuites_eq_ok h₃
  obtain ⟨hakm, rfl⟩ := putSuites_eq_ok h₄
  cases putOctets_eq_ok h₁
  cases putOctets_eq_ok h₅
  cases putPmkid_eq_ok h₆
  cases putMgmtGroupCipher_eq_ok h₇
  cases h
  -- the element in its parts
  have hcmac : rsnSelectorToBitfield group ≠ cipherAes128Cmac := by
    have hother : ∀ e ∈ rsnGroupCiphers, e.1 ≠ cipherAes128Cmac := by decide
    rw [hgroup, ← heq]
    exact hother e he
  let pairwise := writtenList rsnPairwiseCiphers_lawful (by decide) hpairwise
  let akm := writtenList rsnKeyMgmts_lawful (by decide) hakm
  have hset : suiteSet rsnSelectorToBitfield pairwise.suites =
      conf.rsnPairwise &&& bits rsnPairwiseCiphers := by
    rw [writtenList_suites, suiteSet_chosen rsnPairwiseCiphers_lawful]
  have hsetAkm : suiteSet rsnKeyMgmtToBitfield akm.suites =
      conf.wpaKeyMgmt &&& bits rsnKeyMgmts := by
    rw [writtenList_suites, suiteSet_chosen rsnKeyMgmts_lawful]
  have hdata : suiteSet rsnSelectorToBitfield pairwise.suites &&& cipherAes128Cmac = 0 := by
    have hdisjoint : bits rsnPairwiseCiphers &&& cipherAes128Cmac = 0 := by decide
    rw [hset, UInt16.and_assoc, hdisjoint, UInt16.and_zero]
  let head : RsnHead := ⟨group, pairwise, akm, hgroupLen, hcmac, hdata⟩
  let tail := putLe16 (rsnCapabilities conf).toNat ++ (pmkidOctets pmkid ++ mgmtOctets conf pmkid)
  have hpayload : closeElement (([] ++ (wlanEidRsn :: 0 :: putLe16 1) ++ group ++
      (putLe16 (chosen rsnPairwiseCiphers conf.rsnPairwise).length ++
        (chosen rsnPairwiseCiphers conf.rsnPairwise).flatten) ++
      (putLe16 (chosen rsnKeyMgmts conf.wpaKeyMgmt).length ++
        (chosen rsnKeyMgmts conf.wpaKeyMgmt).flatten) ++
      putLe16 (rsnCapabilities conf).toNat ++ pmkidOctets pmkid ++ mgmtOctets conf pmkid)) =
        Record.encode 0 (wlanEidRsn, putLe16 1 ++ (head.octets ++ tail)) := by
    rw [← closeElement_cons]
    simp only [head, tail, RsnHead.octets, pairwise, akm, writtenList_octets, List.nil_append,
      List.cons_append, List.append_assoc]
  have hlenPairwise : pairwise.count ≤ 3 := length_chosen_le rsnPairwiseCiphers _
  have hlenAkm : akm.count ≤ 6 := length_chosen_le rsnKeyMgmts _
  have hlen : (head.octets ++ tail).length ≤ 70 := by
    have htail : tail.length ≤ 26 := length_tail_le conf hpmkid
    rw [List.length_append, RsnHead.length_octets]
    show 8 + pairwise.count * 4 + akm.count * 4 + tail.length ≤ 70
    omega
  have helem : Record.encode 0 (wlanEidRsn, putLe16 1 ++ (head.octets ++ tail)) =
      rsnElement (UInt8.ofNat ((head.octets ++ tail).length + 2)) (head.octets ++ tail) := by
    have hcount : (putLe16 1 ++ (head.octets ++ tail)).length + 0 =
        (head.octets ++ tail).length + 2 := by
      rw [List.length_append, length_putLe16]
      omega
    rw [Record.encode, hcount]
    rfl
  have hoctet : (UInt8.ofNat ((head.octets ++ tail).length + 2)).toNat =
      (head.octets ++ tail).length + 2 := by
    rw [UInt8.toNat_ofNat']
    omega
  refine ⟨putLe16 1 ++ (head.octets ++ tail), hpayload, ?_, ?_⟩
  · rw [List.length_append, length_putLe16]
    omega
  · have hparse : parseRsnTail head.ie tail =
        some { head.ie with
          capabilities := rsnCapabilities conf, pmkids := pmkid.toList } :=
      parseRsnTail_written conf hpmkid rfl
    rw [hpayload, wpaParseWpaIeRsn_eq, helem, parseWpaIeRsn_rsnElement, if_pos hoctet,
      parseRsnFields_octets, hparse, ofOption_some]
    refine congrArg Except.ok ?_
    rw [rsnIeData, ← hgroup, ← hset, ← hsetAkm]
    rfl

/-! ## The WPA element -/

theorem wpaGroupCiphers_lawful : Lawful wpaSelectorToBitfield wpaGroupCiphers := by decide

theorem wpaPairwiseCiphers_lawful : Lawful wpaSelectorToBitfield wpaPairwiseCiphers := by decide

theorem wpaKeyMgmts_lawful : Lawful wpaKeyMgmtToBitfield wpaKeyMgmts := by decide

theorem parseWpaFields_octets {group : Bytes} (hgroup : group.length = 4)
    (pairwise akm : SuiteList) :
    parseWpaFields (group ++ (pairwise.octets ++ akm.octets)) =
      some { WpaIeData.defaultWpa with
        groupCipher := wpaSelectorToBitfield group
        pairwiseCipher := suiteSet wpaSelectorToBitfield pairwise.suites
        keyMgmt := suiteSet wpaKeyMgmtToBitfield akm.suites } := by
  have hread : ∀ rest : Bytes, parseWpaGroupCipher .defaultWpa (group ++ rest) =
      some ({ WpaIeData.defaultWpa with groupCipher := wpaSelectorToBitfield group }, rest) := by
    intro rest
    have hlong : 4 ≤ (group ++ rest).length := by
      rw [List.length_append]
      omega
    unfold parseWpaGroupCipher
    rw [if_pos hlong, List.take_left' hgroup, List.drop_left' hgroup]
  have hlast := parseSuites_octets akm []
  rw [List.append_nil] at hlast
  rw [parseWpaFields, hread]
  simp only [Option.bind_eq_bind, Option.bind_some, parseSuites_octets, hlast, Option.map_some,
    Option.getD_some]
  rfl

theorem parseWpaIeWpa_encode {fields : Bytes} (hlen : fields.length + 6 < 256) :
    parseWpaIeWpa (Record.encode 0
      (wlanEidVendorSpecific, wpaSelector 1 ++ (putLe16 1 ++ fields))) = parseWpaFields fields := by
  have hcount : (wpaSelector 1 ++ (putLe16 1 ++ fields)).length + 0 = fields.length + 6 := by
    simp only [List.length_append, length_putLe16, wpaSelector, List.length_cons, List.length_nil]
    omega
  have hoctet : (UInt8.ofNat (fields.length + 6)).toNat = fields.length + 6 := by
    rw [UInt8.toNat_ofNat']
    omega
  have helem : Record.encode 0 (wlanEidVendorSpecific, wpaSelector 1 ++ (putLe16 1 ++ fields)) =
      221 :: UInt8.ofNat (fields.length + 6) :: 0x00 :: 0x50 :: 0xf2 :: 1 :: 1 :: 0 :: fields := by
    rw [Record.encode, hcount]
    rfl
  rw [helem, parseWpaIeWpa, if_neg (by simp only [List.length_cons]; omega), if_neg]
  · rfl
  · simp only [List.getD_cons_zero, List.getD_cons_succ, List.length_cons, List.drop_succ_cons,
      List.drop_zero, hoctet, le16, wpaSelector]
    simp

theorem wpaWriteWpaIe_ok {ie : Bytes}
    (h : wpaWriteWpaIe conf len = .ok ie) :
    ∃ payload : Bytes, ie = Record.encode 0 (wlanEidVendorSpecific, payload) ∧
      payload.length ≤ 34 ∧ wpaParseWpaIeWpa ie = .ok (wpaIeData conf) := by
  obtain ⟨buf₁, h₁, h⟩ := bind_eq_ok h
  obtain ⟨buf₂, h₂, h⟩ := bind_eq_ok h
  obtain ⟨buf₃, h₃, h⟩ := bind_eq_ok h
  obtain ⟨buf₄, h₄, h⟩ := bind_eq_ok h
  obtain ⟨group, hgroupLen, hgroup, -, rfl⟩ := putGroup_eq_ok wpaGroupCiphers_lawful h₂
  obtain ⟨hpairwise, rfl⟩ := putSuites_eq_ok h₃
  obtain ⟨hakm, rfl⟩ := putSuites_eq_ok h₄
  cases putOctets_eq_ok h₁
  cases h
  let pairwise := writtenList wpaPairwiseCiphers_lawful (by decide) hpairwise
  let akm := writtenList wpaKeyMgmts_lawful (by decide) hakm
  have hset : suiteSet wpaSelectorToBitfield pairwise.suites =
      conf.wpaPairwise &&& bits wpaPairwiseCiphers := by
    rw [writtenList_suites, suiteSet_chosen wpaPairwiseCiphers_lawful]
  have hsetAkm : suiteSet wpaKeyMgmtToBitfield akm.suites =
      conf.wpaKeyMgmt &&& bits wpaKeyMgmts := by
    rw [writtenList_suites, suiteSet_chosen wpaKeyMgmts_lawful]
  let fields := group ++ (pairwise.octets ++ akm.octets)
  have hpayload : closeElement ([] ++
      (wlanEidVendorSpecific :: 0 :: (wpaSelector 1 ++ putLe16 1)) ++ group ++ (putLe16 (chosen wpaPairwiseCiphers conf.wpaPairwise).length ++
        (chosen wpaPairwiseCiphers conf.wpaPairwise).flatten) ++
      (putLe16 (chosen wpaKeyMgmts conf.wpaKeyMgmt).length ++
        (chosen wpaKeyMgmts conf.wpaKeyMgmt).flatten)) =
        Record.encode 0 (wlanEidVendorSpecific, wpaSelector 1 ++ (putLe16 1 ++ fields)) := by
    rw [← closeElement_cons]
    simp only [fields, pairwise, akm, writtenList_octets, List.nil_append, List.cons_append,
      List.append_assoc]
  have hlenPairwise : pairwise.count ≤ 3 := length_chosen_le wpaPairwiseCiphers _
  have hlenAkm : akm.count ≤ 2 := length_chosen_le wpaKeyMgmts _
  have hlen : fields.length ≤ 28 := by
    simp only [fields, List.length_append, SuiteList.length_octets, hgroupLen]
    omega
  refine ⟨_, hpayload, ?_, ?_⟩
  · simp only [List.length_append, length_putLe16, wpaSelector, List.length_cons, List.length_nil]
    omega
  · rw [hpayload, wpaParseWpaIeWpa_eq, parseWpaIeWpa_encode (by omega),
      parseWpaFields_octets hgroupLen, ofOption_some, wpaIeData, ← hgroup, ← hset, ← hsetAkm]
    rfl

/-! ## Inside the buffers -/

section Inside

variable {conf : WpaAuthConfig} {len : ℕ}

variable {buf : Bytes}

theorem putGroup_safe {toBitfield : Bytes → UInt16} {table : SuiteTable}
    (hlaw : Lawful toBitfield table) (h : buf.length + 4 ≤ len) (group : UInt16) :
    Safe (putGroup len buf table group) fun buf' => buf'.length = buf.length + 4 := by
  unfold putGroup
  cases hf : table.find? fun e => decide (group = e.1) with
  | none => rfl
  | some e =>
    have hlen := (hlaw e (List.mem_of_find?_eq_some hf)).2.1
    have hroom : buf.length + e.2.length ≤ len := by
      rw [hlen]
      exact h
    have hput := Safe.putOctets hroom
    rw [hlen] at hput
    exact hput

theorem putSuites_safe {toBitfield : Bytes → UInt16} {table : SuiteTable}
    (hlaw : Lawful toBitfield table) (set : UInt16)
    (h : buf.length + (2 + table.length * 4) ≤ len) :
    Safe (putSuites len buf (chosen table set)) fun buf' =>
      buf'.length ≤ buf.length + (2 + table.length * 4) := by
  have hcount := length_chosen_le table set
  have hflat := length_flatten fun s (hs : s ∈ chosen table set) => length_of_mem_chosen hlaw hs
  have hdata : (putLe16 (chosen table set).length ++ (chosen table set).flatten).length ≤
      2 + table.length * 4 := by
    rw [List.length_append, length_putLe16, hflat]
    omega
  refine .bind .need fun _ _ => ?_
  refine (Safe.putOctets (by omega)).mono fun buf' hbuf' => ?_
  omega

theorem putPmkid_safe {pmkid : Option Bytes}
    (hpmkid : ∀ p ∈ pmkid, p.length = pmkidLen) :
    Safe (putPmkid len buf pmkid) fun _ => True := by
  cases pmkid with
  | none => trivial
  | some p =>
    refine .bind .need fun _ hfits => ?_
    refine (Safe.putOctets ?_).mono fun _ _ => trivial
    rw [List.length_append, length_putLe16, hpmkid p rfl]
    omega

theorem putMgmtGroupCipher_safe (pmkid : Option Bytes) :
    Safe (putMgmtGroupCipher conf len buf pmkid) fun _ => True := by
  unfold putMgmtGroupCipher
  split
  · refine .bind .need fun _ hfits => ?_
    refine (Safe.putOctets ?_).mono fun _ _ => trivial
    rw [List.length_append]
    split <;> simp [rsnSelector] <;> omega
  · trivial

theorem wpaWriteRsnIe_safe {pmkid : Option Bytes} (hpmkid : ∀ p ∈ pmkid, p.length = pmkidLen)
    (hlen : 52 ≤ len) : Safe (wpaWriteRsnIe conf len pmkid) fun _ => True := by
  refine .bind (.putOctets (by simp; omega)) fun buf₁ h₁ => ?_
  simp only [List.length_cons, List.length_nil, length_putLe16] at h₁
  refine .bind (putGroup_safe rsnGroupCiphers_lawful (by omega) _) fun buf₂ h₂ => ?_
  have hpairwise : rsnPairwiseCiphers.length = 3 := rfl
  have hakm : rsnKeyMgmts.length = 6 := rfl
  refine .bind (putSuites_safe rsnPairwiseCiphers_lawful _ (by omega)) fun buf₃ h₃ => ?_
  refine .bind (putSuites_safe rsnKeyMgmts_lawful _ (by omega)) fun buf₄ h₄ => ?_
  refine .bind (.putOctets (by rw [length_putLe16]; omega)) fun buf₅ h₅ => ?_
  exact .bind (putPmkid_safe hpmkid) fun buf₆ _ =>
    .bind (putMgmtGroupCipher_safe pmkid) fun buf₇ _ => trivial

theorem wpaWriteWpaIe_safe (hlen : 36 ≤ len) :
    Safe (wpaWriteWpaIe conf len) fun _ => True := by
  refine .bind (.putOctets (by simp [wpaSelector]; omega)) fun buf₁ h₁ => ?_
  simp only [wpaSelector, List.length_append, List.length_cons, List.length_nil,
    length_putLe16] at h₁
  refine .bind (putGroup_safe wpaGroupCiphers_lawful (by omega) _) fun buf₂ h₂ => ?_
  have hpairwise : wpaPairwiseCiphers.length = 3 := rfl
  have hakm : wpaKeyMgmts.length = 2 := rfl
  refine .bind (putSuites_safe wpaPairwiseCiphers_lawful _ (by omega)) fun buf₃ h₃ => ?_
  exact .bind (putSuites_safe wpaKeyMgmts_lawful _ (by omega)) fun buf₄ h₄ => trivial

end Inside

/-! ## All elements -/

/-- The identifiers of the elements a configuration asks for. -/
def kinds (conf : WpaAuthConfig) : List UInt8 :=
  (if conf.wpa &&& wpaProtoRsn ≠ 0 then [wlanEidRsn] else []) ++
    ((if conf.wpaKeyMgmt &&& (keyMgmtFtIeee8021x ||| keyMgmtFtPsk) ≠ 0 then
      [eidMobilityDomain] else []) ++
      if conf.wpa &&& wpaProtoWpa ≠ 0 then [wlanEidVendorSpecific] else [])

/-- The octets fit the buffer, they are the elements the configuration asks for, each with its
length, and the parsers find `rsn` and `wpa` in them. -/
def Describes (conf : WpaAuthConfig) (out : Bytes) (rsn wpa : WpaIeData) : Prop :=
  out.length ≤ genBufLen ∧ ∃ l : List Record, out = encodeElements l ∧
    l.map Prod.fst = kinds conf ∧ ∀ r ∈ l, r.2.length < 256 ∧
      (r.1 = wlanEidRsn → wpaParseWpaIeRsn (r.encode 0) = .ok rsn) ∧
      (r.1 = wlanEidVendorSpecific → wpaParseWpaIeWpa (r.encode 0) = .ok wpa)

section Elements

variable (conf : WpaAuthConfig)

def mdieRecord : Record :=
  (eidMobilityDomain, mdieOctets conf.mobilityDomain.toList (if conf.ftOverDs then 1 else 0))

theorem length_mdieRecord : (mdieRecord conf).2.length = 3 := by
  rw [mdieRecord, mdieOctets, List.length_append, Vector.length_toList]
  rfl

theorem wpaWriteMdie_ok {len : ℕ} {ie : Bytes} (h : wpaWriteMdie conf len = .ok ie) :
    ie = (mdieRecord conf).encode 0 := by
  obtain ⟨u, -, hput⟩ := bind_eq_ok h
  rw [putOctets_eq_ok hput, List.nil_append]
  rfl

theorem wpaWriteMdie_safe (len : ℕ) : Safe (wpaWriteMdie conf len) fun _ => True := by
  refine .bind .need fun _ hlen => ?_
  refine (Safe.putOctets ?_).mono fun _ _ => trivial
  have := length_mdieRecord conf
  rw [← mdieRecord, Record.length_encode, this, List.length_nil]
  omega

variable {conf}

theorem rsnPart_ok {rsn : Bytes}
    (h : (if conf.wpa &&& wpaProtoRsn ≠ 0 then wpaWriteRsnIe conf genBufLen none else .ok []) =
      .ok rsn) :
    ∃ l : List Record, rsn = encodeElements l ∧ rsn.length ≤ 74 ∧
      l.map Prod.fst = (if conf.wpa &&& wpaProtoRsn ≠ 0 then [wlanEidRsn] else []) ∧
      ∀ r ∈ l, r.1 = wlanEidRsn ∧ r.2.length < 256 ∧
        wpaParseWpaIeRsn (r.encode 0) = .ok (rsnIeData conf none) := by
  split at h
  · rename_i hwpa
    obtain ⟨payload, rfl, hlen, hparse⟩ := wpaWriteRsnIe_ok (fun p hp => by cases hp) h
    refine ⟨[(wlanEidRsn, payload)], by simp, ?_, by rw [if_pos hwpa]; rfl, ?_⟩
    · rw [Record.length_encode]
      show payload.length + 2 ≤ 74
      omega
    · intro r hr
      rw [List.mem_singleton] at hr
      subst hr
      exact ⟨rfl, by show payload.length < 256; omega, hparse⟩
  · rename_i hno
    cases h
    exact ⟨[], rfl, Nat.zero_le _, by rw [if_neg hno]; rfl, fun r hr => nomatch hr⟩

theorem mdiePart_ok {len : ℕ} {mdie : Bytes}
    (h : (if conf.wpaKeyMgmt &&& (keyMgmtFtIeee8021x ||| keyMgmtFtPsk) ≠ 0 then
      wpaWriteMdie conf len else .ok []) = .ok mdie) :
    ∃ l : List Record, mdie = encodeElements l ∧ mdie.length ≤ 5 ∧
      l.map Prod.fst = (if conf.wpaKeyMgmt &&& (keyMgmtFtIeee8021x ||| keyMgmtFtPsk) ≠ 0 then
        [eidMobilityDomain] else []) ∧
      ∀ r ∈ l, r.1 = eidMobilityDomain ∧ r.2.length < 256 := by
  have hlen := length_mdieRecord conf
  split at h
  · rename_i hft
    cases wpaWriteMdie_ok conf h
    refine ⟨[mdieRecord conf], by simp, ?_, by rw [if_pos hft]; rfl, ?_⟩
    · rw [Record.length_encode]
      omega
    · intro r hr
      rw [List.mem_singleton] at hr
      subst hr
      exact ⟨rfl, by omega⟩
  · rename_i hno
    cases h
    exact ⟨[], rfl, Nat.zero_le _, by rw [if_neg hno]; rfl, fun r hr => nomatch hr⟩

theorem wpaPart_ok {len : ℕ} {wpa : Bytes}
    (h : (if conf.wpa &&& wpaProtoWpa ≠ 0 then wpaWriteWpaIe conf len else .ok []) = .ok wpa) :
    ∃ l : List Record, wpa = encodeElements l ∧ wpa.length ≤ 36 ∧
      l.map Prod.fst = (if conf.wpa &&& wpaProtoWpa ≠ 0 then [wlanEidVendorSpecific] else []) ∧
      ∀ r ∈ l, r.1 = wlanEidVendorSpecific ∧ r.2.length < 256 ∧
        wpaParseWpaIeWpa (r.encode 0) = .ok (wpaIeData conf) := by
  split at h
  · rename_i hwpa
    obtain ⟨payload, rfl, hlen, hparse⟩ := wpaWriteWpaIe_ok h
    refine ⟨[(wlanEidVendorSpecific, payload)], by simp, ?_, by rw [if_pos hwpa]; rfl, ?_⟩
    · rw [Record.length_encode]
      show payload.length + 2 ≤ 36
      omega
    · intro r hr
      rw [List.mem_singleton] at hr
      subst hr
      exact ⟨rfl, by show payload.length < 256; omega, hparse⟩
  · rename_i hno
    cases h
    exact ⟨[], rfl, Nat.zero_le _, by rw [if_neg hno]; rfl, fun r hr => nomatch hr⟩

theorem wpaAuthGenWpaIe_ok {malloc : Bool} {out : Bytes}
    (h : wpaAuthGenWpaIe conf malloc = .ok out) :
    Describes conf out (rsnIeData conf none) (wpaIeData conf) := by
  obtain ⟨rsn, hrsn, h⟩ := bind_eq_ok h
  obtain ⟨mdie, hmdie, h⟩ := bind_eq_ok h
  obtain ⟨wpa, hwpa, h⟩ := bind_eq_ok h
  obtain ⟨u, -, h⟩ := bind_eq_ok h
  cases h
  obtain ⟨l₁, rfl, hlen₁, hkind₁, hl₁⟩ := rsnPart_ok hrsn
  obtain ⟨l₂, rfl, hlen₂, hkind₂, hl₂⟩ := mdiePart_ok hmdie
  obtain ⟨l₃, rfl, hlen₃, hkind₃, hl₃⟩ := wpaPart_ok hwpa
  refine ⟨?_, l₁ ++ (l₂ ++ l₃), ?_, ?_, ?_⟩
  · simp only [List.length_append, genBufLen]
    omega
  · rw [encodeElements_append, encodeElements_append]
  · rw [List.map_append, List.map_append, hkind₁, hkind₂, hkind₃]
    rfl
  · intro r hr
    rcases List.mem_append.mp hr with hr | hr
    · obtain ⟨hid, hlen, hparse⟩ := hl₁ r hr
      refine ⟨hlen, fun _ => hparse, fun hother => ?_⟩
      rw [hid] at hother
      exact absurd hother (by decide)
    · rcases List.mem_append.mp hr with hr | hr
      · obtain ⟨hid, hlen⟩ := hl₂ r hr
        refine ⟨hlen, fun hother => ?_, fun hother => ?_⟩
        · rw [hid] at hother
          exact absurd hother (by decide)
        · rw [hid] at hother
          exact absurd hother (by decide)
      · obtain ⟨hid, hlen, hparse⟩ := hl₃ r hr
        refine ⟨hlen, fun hother => ?_, fun _ => hparse⟩
        rw [hid] at hother
        exact absurd hother (by decide)

theorem wpaAuthGenWpaIe_safe (malloc : Bool) :
    Safe (wpaAuthGenWpaIe conf malloc) fun _ => True := by
  have hrsn : Safe (if conf.wpa &&& wpaProtoRsn ≠ 0 then wpaWriteRsnIe conf genBufLen none
      else .ok []) fun rsn => rsn.length ≤ 74 := by
    split
    · have hsafe : Safe (wpaWriteRsnIe conf genBufLen none) fun _ => True :=
        wpaWriteRsnIe_safe (fun p hp => by cases hp) (by decide)
      cases hr : wpaWriteRsnIe conf genBufLen none with
      | error stop =>
        rw [hr] at hsafe
        exact hsafe
      | ok rsn =>
        obtain ⟨payload, rfl, hlen, -⟩ := wpaWriteRsnIe_ok (fun p hp => by cases hp) hr
        show (Record.encode 0 (wlanEidRsn, payload)).length ≤ 74
        rw [Record.length_encode]
        show payload.length + 2 ≤ 74
        omega
    · exact Nat.zero_le _
  refine .bind hrsn fun rsn hlen => ?_
  have hmdie : Safe (if conf.wpaKeyMgmt &&& (keyMgmtFtIeee8021x ||| keyMgmtFtPsk) ≠ 0 then
      wpaWriteMdie conf (genBufLen - rsn.length) else .ok []) fun mdie => mdie.length ≤ 5 := by
    split
    · have hsafe := wpaWriteMdie_safe conf (genBufLen - rsn.length)
      cases hr : wpaWriteMdie conf (genBufLen - rsn.length) with
      | error stop =>
        rw [hr] at hsafe
        exact hsafe
      | ok mdie =>
        have hlen := length_mdieRecord conf
        rw [wpaWriteMdie_ok conf hr]
        show ((mdieRecord conf).encode 0).length ≤ 5
        rw [Record.length_encode]
        omega
    · exact Nat.zero_le _
  refine .bind hmdie fun mdie hlen' => ?_
  have hwpa : Safe (if conf.wpa &&& wpaProtoWpa ≠ 0 then
      wpaWriteWpaIe conf (genBufLen - (rsn ++ mdie).length) else .ok []) fun _ => True := by
    split
    · refine wpaWriteWpaIe_safe ?_
      rw [List.length_append, genBufLen]
      omega
    · trivial
  exact .bind hwpa fun wpa _ => .bind .need fun _ _ => trivial

end Elements

/-- The elements of the authenticator fit their buffer and say what they can about its
configuration; so does an RSN element with a PMKID. The writers stay inside the buffer, and the
parsers read nothing outside the octets they are given. -/
theorem elements_agree (conf : WpaAuthConfig) :
    (∀ malloc, wpaAuthGenWpaIe conf malloc ≠ .error .outside ∧
      ∀ out, wpaAuthGenWpaIe conf malloc = .ok out →
        Describes conf out (rsnIeData conf none) (wpaIeData conf)) ∧
    (∀ pmkid : Pmkid, wpaWriteRsnIe conf genBufLen (some pmkid.toList) ≠ .error .outside ∧
      ∀ ie, wpaWriteRsnIe conf genBufLen (some pmkid.toList) = .ok ie →
        ∃ payload : Bytes, ie = Record.encode 0 (wlanEidRsn, payload) ∧ payload.length < 256 ∧
          ie.length ≤ genBufLen ∧
          wpaParseWpaIeRsn ie = .ok (rsnIeData conf (some pmkid.toList))) ∧
    ∀ d, wpaParseWpaIeRsn d ≠ .error .outside ∧ wpaParseWpaIeWpa d ≠ .error .outside := by
  refine ⟨fun malloc => ⟨(wpaAuthGenWpaIe_safe malloc).ne_outside, fun out h =>
    wpaAuthGenWpaIe_ok h⟩, fun pmkid => ?_, fun d => ⟨?_, ?_⟩⟩
  · have hpmkid : ∀ p ∈ some pmkid.toList, p.length = pmkidLen := by
      rintro p ⟨⟩
      exact Vector.length_toList
    refine ⟨(wpaWriteRsnIe_safe hpmkid (by decide)).ne_outside, fun ie h => ?_⟩
    obtain ⟨payload, hie, hlen, hparse⟩ := wpaWriteRsnIe_ok hpmkid h
    refine ⟨payload, hie, by omega, ?_, hparse⟩
    rw [hie, Record.length_encode, genBufLen]
    show payload.length + 2 ≤ 128
    omega
  · rw [wpaParseWpaIeRsn_eq]
    exact ofOption_ne_outside _
  · rw [wpaParseWpaIeWpa_eq]
    exact ofOption_ne_outside _

def mixedConfig : WpaAuthConfig where
  wpa := 0x03
  wpaKeyMgmt := 0x102
  wpaPairwise := cipherTkip
  wpaGroup := cipherTkip
  rsnPairwise := cipherCcmp
  rsnPreauth := false
  peerkey := false
  wmmEnabled := false
  okc := false
  ieee80211w := .no
  mobilityDomain := Vector.replicate 2 0
  ftOverDs := false

theorem not_all_described :
    ¬ ∀ (conf : WpaAuthConfig) (out : Bytes), (∃ e ∈ rsnGroupCiphers, e.1 = conf.wpaGroup) →
      wpaAuthGenWpaIe conf true = .ok out →
      Describes conf out
        { rsnIeData conf none with
          pairwiseCipher := conf.rsnPairwise, keyMgmt := conf.wpaKeyMgmt }
        { wpaIeData conf with
          pairwiseCipher := conf.wpaPairwise, keyMgmt := conf.wpaKeyMgmt } := by
  intro h
  -- the WPA element, which is the second one
  let wpa : Record := (wlanEidVendorSpecific, wpaSelector 1 ++ (putLe16 1 ++ (wpaSelector 2 ++
    (putLe16 1 ++ (wpaSelector 2 ++ (putLe16 1 ++ wpaSelector 2))))))
  let rsn : Record := (wlanEidRsn, putLe16 1 ++ (rsnSelector 2 ++ (putLe16 1 ++ (rsnSelector 4 ++
    (putLe16 2 ++ (rsnSelector 2 ++ (rsnSelector 6 ++ putLe16 0)))))))
  have hout : wpaAuthGenWpaIe mixedConfig true = .ok (encodeElements [rsn, wpa]) := by decide
  obtain ⟨-, l, hl, -, hall⟩ := h mixedConfig _ (by decide) hout
  have hread : elements (encodeElements [rsn, wpa]) = l := by
    rw [hl]
    exact elements_encodeElements fun r hr => (hall r hr).1
  have hmem : wpa ∈ l := by
    rw [← hread]
    decide
  have hparse := (hall wpa hmem).2.2 rfl
  revert hparse
  decide

end Hostapd.Ap.WpaIe
