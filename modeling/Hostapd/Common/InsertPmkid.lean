import Hostapd.Common.RsnIe
import Hostapd.Lib.Checked
import Hostapd.Lib.Elements

/-!
# Inserting a PMKID into an RSN element

`wpa_insert_pmkid` (`wpa_common.c`) puts a PMKID into the RSN element of a buffer of elements,
moving what stands behind it. Fast transition uses it on both sides.

* **`wpaInsertPmkid`** works on the memory of the buffer, with checked accesses: `outside` is an
  access outside the memory, `dropped` the result -1.
* **`Inserts`**: the buffer grows by the number returned, the elements before and behind stand as
  they did, and the RSN element parses to what it did, with the PMKID.
* **`Insertable`**: the element has AKM suites and RSN capabilities, not just one octet behind the
  capabilities, and its length octet does not overflow.
* **`inserts_iff`**: the function inserts exactly into the elements that are insertable.
-/

namespace Hostapd

open Hostapd.Lib

/-! ## The function -/

/-- The search for the RSN element. Every turn goes on by two octets at least, so that fuel for the
octets in front of `stop` does not run out. -/
def findRsnIe (mem : Bytes) (stop : ℕ) : ℕ → ℕ → Except Stop ℕ
  | 0, _ => .error .dropped
  | fuel + 1, start =>
    if start < stop then do
      let id ← rd8 mem start
      if id = wlanEidRsn then return start
      else
        let len ← rd8 mem (start + 1)
        findRsnIe mem stop fuel (start + (2 + len.toNat))
    else .error .dropped

def skipSuites (mem : Bytes) (rpos : ℕ) : Except Stop ℕ := do
  let count ← rdLe16 mem rpos
  return rpos + (2 + count * 4)

/-- Skip the RSN capabilities, or add them where the element ends. -/
def skipCapabilities (mem : Bytes) (rpos rend stop : ℕ) : Except Stop (Bytes × ℕ) :=
  if rpos = rend then do
    let mem ← mvSlice mem (rpos + 2) rpos stop
    let mem ← wrSlice mem rpos [0, 0]
    return (mem, rpos + 2)
  else do
    need (rpos + 2 ≤ rend)
    return (mem, rpos + 2)

/-- Add to the length octet of the element at `start`. -/
def growElement (mem : Bytes) (start added : ℕ) : Except Stop (ℕ × Bytes) := do
  let len ← rd8 mem (start + 1)
  let mem ← wrSlice mem (start + 1) [len + UInt8.ofNat added]
  return (added, mem)

/-- Add the PMKID with its count where the element ends, else behind the count that is there. -/
def addPmkid (mem : Bytes) (start rpos rend stop : ℕ) (pmkid : Bytes) :
    Except Stop (ℕ × Bytes) :=
  if rpos = rend then do
    let mem ← mvSlice mem (rpos + (2 + pmkidLen)) rpos stop
    let mem ← wrSlice mem rpos (putLe16 1)
    let mem ← wrSlice mem (rpos + 2) pmkid
    growElement mem start (2 + pmkidLen)
  else do
    let count ← rdLe16 mem rpos
    need (count = 0)
    let mem ← wrSlice mem rpos (putLe16 1)
    let mem ← mvSlice mem (rpos + 2 + pmkidLen) (rpos + 2) stop
    let mem ← wrSlice mem (rpos + 2) pmkid
    growElement mem start pmkidLen

/-- Add a PMKID to the RSN element of the elements in the first `iesLen` octets of the memory: the
number of octets added, and the memory. Source: `wpa_insert_pmkid`. -/
def wpaInsertPmkid (mem : Bytes) (iesLen : ℕ) (pmkid : Bytes) : Except Stop (ℕ × Bytes) := do
  let start ← findRsnIe mem iesLen (iesLen + 1) 0
  let len ← rd8 mem (start + 1)
  let rend := start + 2 + len.toNat
  -- behind the version and the group cipher
  let rpos ← skipSuites mem (start + 2 + (2 + 4))
  let rpos ← skipSuites mem rpos
  let (mem, rpos) ← skipCapabilities mem rpos rend iesLen
  addPmkid mem start rpos rend iesLen pmkid

/-! ## What it is for -/

/-- The number of octets added: without anything behind the capabilities a count, and the PMKID. -/
def growth (tail : Bytes) : ℕ := if tail.length = 2 then 2 + pmkidLen else pmkidLen

/-- The PMKID is put into the RSN element `rsn` between `before` and `after`, with `room` behind
the elements: the result is the growth, everything else stands as it did, and the element parses to
the same values with the PMKID. -/
def Inserts (before rsn after room : Bytes) (d : WpaIeData) (pmkid : Pmkid) : Prop :=
  ∃ added rsn',
    wpaInsertPmkid (before ++ (rsn ++ (after ++ room)))
      (before.length + (rsn.length + after.length)) pmkid.toList =
        .ok (added, before ++ (rsn' ++ (after ++ room.drop added))) ∧
    rsn'.length = rsn.length + added ∧
    parseWpaIeRsn rsn' = some { d with pmkids := [pmkid.toList] }

/-- The element has capabilities behind its AKM suites, not just one octet behind these, and its
length octet does not overflow. -/
def Insertable (rsn : Bytes) : Prop :=
  ∃ tail, rsnTail (rsn.drop 4) = some tail ∧ 2 ≤ tail.length ∧ tail.length ≠ 3 ∧
    rsn.length - 2 + growth tail ≤ 255

/-! ## The fields behind the AKM suites -/

/-- The tails of an element without PMKIDs: nothing but the capabilities and at most an octet behind
them, or a count of zero. -/
theorem tail_cases (ie : WpaIeData) {tail : Bytes} {d : WpaIeData} (h : parseRsnTail ie tail = some d)
    (hd : d.pmkids = []) (hlen : 4 ≤ tail.length) :
    ∃ c₀ c₁ u, tail = c₀ :: c₁ :: (putLe16 0 ++ u) ∧
      parseMgmtGroupCipher { withCapabilities ie c₀ c₁ with pmkids := [] } u = some d := by
  match tail, hlen with
  | c₀ :: c₁ :: n₀ :: n₁ :: u, _ =>
    rw [parseRsnTail_cons, parsePmkids, if_pos (by simp)] at h
    dsimp only at h
    split at h
    · cases h
    rename_i hfits
    simp only [Option.bind_some] at h
    have hpmkids : splitOctets 16 (le16 (n₀ :: n₁ :: u)) ((n₀ :: n₁ :: u).drop 2) = [] := by
      unfold parseMgmtGroupCipher at h
      split at h
      · split at h
        · cases h
          exact hd
        · cases h
      · cases h
        exact hd
    have hcount : le16 (n₀ :: n₁ :: u) = 0 := by
      cases hc : le16 (n₀ :: n₁ :: u) with
      | zero => rfl
      | succ n =>
        rw [hc] at hpmkids
        cases hpmkids
    have hword : putLe16 (le16 (n₀ :: n₁ :: u)) ++ u = n₀ :: n₁ :: u :=
      putLe16_le16 (b := n₀ :: n₁ :: u) (by simp)
    rw [hcount] at hword
    rw [hcount] at h
    exact ⟨c₀, c₁, u, by rw [hword], h⟩

/-! ## The accesses -/

theorem findRsnIe_encode {l : List Record} (hl : ∀ r ∈ l, r.1 ≠ wlanEidRsn ∧ r.2.length < 256)
    (pre rest : Bytes) {stop fuel : ℕ} (hstop : pre.length + (encodeElements l).length < stop)
    (hfuel : l.length < fuel) :
    findRsnIe (pre ++ (encodeElements l ++ wlanEidRsn :: rest)) stop fuel pre.length =
      .ok (pre.length + (encodeElements l).length) := by
  induction l generalizing pre fuel with
  | nil =>
    obtain ⟨fuel, rfl⟩ := Nat.exists_eq_add_of_lt hfuel
    have hread := rd8_append pre (wlanEidRsn :: rest) 0
    simp only [encodeElements_nil, List.length_nil, Nat.add_zero] at hstop
    rw [Nat.add_zero, rd8_zero] at hread
    simp only [encodeElements_nil, List.nil_append, List.length_nil, Nat.zero_add, findRsnIe,
      if_pos hstop, hread, ok_bind]
    rfl
  | cons r l ih =>
    obtain ⟨fuel, rfl⟩ := Nat.exists_eq_add_of_lt hfuel
    obtain ⟨hid, hlen⟩ := hl r List.mem_cons_self
    have hread0 := rd8_append pre (encodeElements (r :: l) ++ wlanEidRsn :: rest) 0
    have hread1 := rd8_append pre (encodeElements (r :: l) ++ wlanEidRsn :: rest) 1
    have hoctet : (UInt8.ofNat (r.2.length + 0)).toNat = r.2.length := toNat_length_octet hlen
    have hmem : pre ++ (encodeElements (r :: l) ++ wlanEidRsn :: rest) =
        (pre ++ r.encode 0) ++ (encodeElements l ++ wlanEidRsn :: rest) := by
      simp only [encodeElements_cons, List.append_assoc]
    have hpos : pre.length + (2 + r.2.length) = (pre ++ r.encode 0).length := by
      rw [List.length_append, Record.length_encode]
      omega
    have htotal : (pre ++ r.encode 0).length + (encodeElements l).length =
        pre.length + (encodeElements (r :: l)).length := by
      simp only [encodeElements_cons, List.length_append]
      omega
    have hfuel' : (r :: l).length + fuel + 1 = (l.length + fuel + 1) + 1 := by
      rw [List.length_cons]
      omega
    have hlong : l.length < l.length + fuel + 1 := by omega
    have hnext := ih (fun a ha => hl a (List.mem_cons_of_mem r ha)) (pre ++ r.encode 0)
      (by rw [htotal]; exact hstop) hlong
    rw [Nat.add_zero] at hread0
    change _ = Except.ok r.1 at hread0
    change _ = Except.ok (UInt8.ofNat (r.2.length + 0)) at hread1
    rw [hfuel', findRsnIe, if_pos (by omega), hread0, ok_bind, if_neg hid, hread1, ok_bind, hoctet,
      hpos, ← htotal, hmem]
    exact hnext

theorem skipSuites_octets (l : SuiteList) (pre post : Bytes) :
    skipSuites (pre ++ (l.octets ++ post)) pre.length = .ok (pre ++ l.octets).length := by
  have hread := rdLe16_middle l.count_lt pre (l.data ++ post)
  rw [← List.append_assoc (putLe16 l.count)] at hread
  rw [skipSuites, SuiteList.octets, hread, ok_bind, List.length_append, List.length_append,
    length_putLe16, l.length_data]
  rfl

theorem growElement_rsnElement (before : Bytes) (len : UInt8) (fields post : Bytes) (added : ℕ) :
    growElement (before ++ (rsnElement len fields ++ post)) before.length added =
      .ok (added, before ++ (rsnElement (len + UInt8.ofNat added) fields ++ post)) := by
  have hread := rd8_append before (rsnElement len fields ++ post) 1
  change _ = Except.ok len at hread
  have hwrite := wrSlice_append (a := before ++ [wlanEidRsn]) (b := [len])
    (c := [len + UInt8.ofNat added]) (1 :: 0 :: (fields ++ post)) rfl
  rw [List.length_append, List.length_singleton] at hwrite
  simp only [List.append_assoc, List.singleton_append] at hwrite
  rw [growElement, hread, ok_bind]
  simp only [rsnElement, List.cons_append]
  rw [hwrite, ok_bind]
  rfl

section Steps

variable (before : Bytes) (len : UInt8) (fields : Bytes) {pmkid : Bytes}

theorem addPmkid_end (hlen : pmkid.length = pmkidLen) (after room : Bytes)
    (hroom : 2 + pmkidLen ≤ room.length) (rpos stop : ℕ)
    (hrpos : rpos = (before ++ rsnElement len fields).length) (hstop : stop = rpos + after.length) :
    addPmkid ((before ++ rsnElement len fields) ++ (after ++ room)) before.length rpos rpos stop
        pmkid =
      .ok (2 + pmkidLen, before ++ (rsnElement (len + UInt8.ofNat (2 + pmkidLen))
        (fields ++ (putLe16 1 ++ pmkid)) ++ (after ++ room.drop (2 + pmkidLen)))) := by
  set front := before ++ rsnElement len fields with hfront
  subst hrpos hstop
  have hgap : ((after ++ room).take (2 + pmkidLen)).length = 2 + pmkidLen := by
    rw [List.length_take, List.length_append]
    omega
  obtain ⟨g₀, g₁, gap, hsplit⟩ : ∃ g₀ g₁ gap,
      (after ++ room).take (2 + pmkidLen) = g₀ :: g₁ :: gap := by
    match (after ++ room).take (2 + pmkidLen), hgap with
    | g₀ :: g₁ :: gap, _ => exact ⟨g₀, g₁, gap, rfl⟩
    | [_], hgap => simp [pmkidLen] at hgap
    | [], hgap => simp [pmkidLen] at hgap
  have hgaplen : gap.length = pmkid.length := by
    rw [hsplit, List.length_cons, List.length_cons] at hgap
    omega
  have hcount := wrSlice_append (a := front) (b := [g₀, g₁]) (c := putLe16 1)
    (gap ++ (after ++ room.drop (2 + pmkidLen))) rfl
  have hput := wrSlice_append (a := front ++ putLe16 1)
    (after ++ room.drop (2 + pmkidLen)) hgaplen
  rw [List.length_append, length_putLe16] at hput
  have hgrow := growElement_rsnElement before len (fields ++ (putLe16 1 ++ pmkid))
    (after ++ room.drop (2 + pmkidLen)) (2 + pmkidLen)
  rw [addPmkid, if_pos rfl, mvSlice_gap front after room hroom, ok_bind, hsplit]
  simp only [List.cons_append, List.nil_append, List.append_assoc] at hcount hput hgrow ⊢
  rw [hcount, ok_bind, hput, ok_bind]
  simp only [hfront, rsnElement, List.cons_append, List.append_assoc] at hgrow ⊢
  exact hgrow

theorem addPmkid_zero (hlen : pmkid.length = pmkidLen) (rest room : Bytes)
    (hroom : pmkidLen ≤ room.length) (rpos rend stop : ℕ)
    (hrpos : rpos = (before ++ rsnElement len fields).length) (hrend : rpos ≠ rend)
    (hstop : stop = rpos + (2 + rest.length)) :
    addPmkid ((before ++ rsnElement len fields) ++ (putLe16 0 ++ (rest ++ room))) before.length
        rpos rend stop pmkid =
      .ok (pmkidLen, before ++ (rsnElement (len + UInt8.ofNat pmkidLen)
        (fields ++ (putLe16 1 ++ pmkid)) ++ (rest ++ room.drop pmkidLen))) := by
  set front := before ++ rsnElement len fields with hfront
  subst hrpos hstop
  have hgap : ((rest ++ room).take pmkidLen).length = pmkid.length := by
    rw [List.length_take, List.length_append, hlen]
    omega
  have hread := rdLe16_middle (n := 0) (by omega) front (rest ++ room)
  have hcount := wrSlice_append (a := front) (b := putLe16 0) (c := putLe16 1)
    (rest ++ room) rfl
  have hmove := mvSlice_gap (front ++ putLe16 1) rest room hroom
  have hput := wrSlice_append (a := front ++ putLe16 1) (rest ++ room.drop pmkidLen) hgap
  have hgrow := growElement_rsnElement before len (fields ++ (putLe16 1 ++ pmkid))
    (rest ++ room.drop pmkidLen) pmkidLen
  rw [List.length_append, length_putLe16] at hput hmove
  rw [addPmkid, if_neg hrend, hread, ok_bind, need_of rfl, ok_bind]
  simp only [List.append_assoc] at hcount hmove hput hgrow ⊢
  rw [hcount, ok_bind, ← Nat.add_assoc, hmove, ok_bind, hput, ok_bind]
  simp only [hfront, rsnElement, List.cons_append, List.append_assoc] at hgrow ⊢
  exact hgrow

/-- Whatever stands behind the capabilities, where the function does not take the element to end
there it adds a count and a PMKID, and returns the length of a PMKID. -/
theorem addPmkid_ok (hlen : pmkid.length = pmkidLen) {rest : Bytes}
    (hrest : 2 + pmkidLen ≤ rest.length) {rpos rend stop : ℕ}
    (hrpos : rpos = (before ++ rsnElement len fields).length) (hrend : rpos ≠ rend) {added : ℕ}
    {m : Bytes}
    (h : addPmkid ((before ++ rsnElement len fields) ++ rest) before.length rpos rend stop pmkid =
      .ok (added, m)) :
    added = pmkidLen ∧ ∃ post, m = before ++ (rsnElement (len + UInt8.ofNat pmkidLen)
      (fields ++ (putLe16 1 ++ pmkid)) ++ post) := by
  set front := before ++ rsnElement len fields with hfront
  subst hrpos
  match rest, hrest with
  | n₀ :: n₁ :: rest, hrest =>
    have hlong : pmkidLen ≤ rest.length := by
      simp only [List.length_cons] at hrest
      omega
    have hcount := wrSlice_append (a := front) (b := [n₀, n₁]) (c := putLe16 1) rest rfl
    simp only [List.cons_append, List.nil_append] at hcount
    rw [addPmkid, if_neg hrend] at h
    cases hread : rdLe16 (front ++ n₀ :: n₁ :: rest) front.length with
    | error stop => rw [hread] at h; cases h
    | ok n =>
      rw [hread, ok_bind] at h
      by_cases hn : n = 0
      · rw [need_of hn, ok_bind, hcount, ok_bind] at h
        cases hmove : mvSlice (front ++ (putLe16 1 ++ rest)) (front.length + 2 + pmkidLen)
            (front.length + 2) stop with
        | error stop => rw [hmove] at h; cases h
        | ok m' =>
          have hpos : (front ++ putLe16 1).length = front.length + 2 := by
            rw [List.length_append, length_putLe16]
          have hmem : front ++ (putLe16 1 ++ rest) = (front ++ putLe16 1) ++ rest :=
            (List.append_assoc _ _ _).symm
          have hmove' := hmove
          rw [hmem, ← hpos] at hmove'
          obtain ⟨post, rfl⟩ := mvSlice_front hmove'
          have hgap : (rest.take pmkidLen).length = pmkid.length := by
            rw [List.length_take, Nat.min_eq_left hlong, hlen]
          have hput := wrSlice_append (a := front ++ putLe16 1) post hgap
          have hgrow := growElement_rsnElement before len (fields ++ (putLe16 1 ++ pmkid)) post
            pmkidLen
          rw [hmove, ok_bind, ← hpos, hput, ok_bind] at h
          simp only [hfront, rsnElement, List.cons_append, List.append_assoc] at hgrow h
          rw [hgrow] at h
          cases h
          exact ⟨rfl, post, by simp only [rsnElement, List.cons_append, List.append_assoc]⟩
      · rw [need_of_not hn] at h
        cases h

end Steps

theorem skipCapabilities_there {mem : Bytes} {rpos rend stop : ℕ} (h : rpos + 2 ≤ rend) :
    skipCapabilities mem rpos rend stop = .ok (mem, rpos + 2) := by
  have hne : rpos ≠ rend := by omega
  rw [skipCapabilities, if_neg hne, need_of h]
  rfl

theorem skipCapabilities_short {mem : Bytes} {rpos rend stop : ℕ} (hne : rpos ≠ rend)
    (h : rend < rpos + 2) : skipCapabilities mem rpos rend stop = .error .dropped := by
  rw [skipCapabilities, if_neg hne, need_of_not (not_le.mpr h)]
  rfl

/-- Where the element ends behind the AKM suites, zero capabilities are added, but not to the length
octet. -/
theorem skipCapabilities_end (front after room : Bytes) (hroom : 2 ≤ room.length) :
    skipCapabilities (front ++ (after ++ room)) front.length front.length
        (front.length + after.length) =
      .ok ((front ++ [0, 0]) ++ (after ++ room.drop 2), front.length + 2) := by
  have hgap : ((after ++ room).take 2).length = ([0, 0] : Bytes).length := by
    rw [List.length_take, List.length_append]
    simp only [List.length_cons, List.length_nil]
    omega
  have hput := wrSlice_append (a := front) (after ++ room.drop 2) hgap
  rw [skipCapabilities, if_pos rfl, mvSlice_gap front after room hroom, ok_bind, hput, ok_bind,
    List.append_assoc]
  rfl

theorem length_le_encodeElements (l : List Record) : l.length ≤ (encodeElements l).length := by
  induction l with
  | nil => exact Nat.zero_le _
  | cons r l ih =>
    rw [encodeElements_cons, List.length_append, Record.length_encode, List.length_cons]
    omega

/-! ## Runs of the function -/

section Runs

variable {before : List Record} (hbefore : ∀ r ∈ before, r.1 ≠ wlanEidRsn ∧ r.2.length < 256)
  {len : UInt8} {pmkid : Bytes}

include hbefore

theorem wpaInsertPmkid_element (fields rest : Bytes) {iesLen : ℕ}
    (hies : (encodeElements before).length < iesLen) :
    wpaInsertPmkid (encodeElements before ++ (rsnElement len fields ++ rest)) iesLen pmkid = (do
      let mem := encodeElements before ++ (rsnElement len fields ++ rest)
      let start := (encodeElements before).length
      let rend := start + 2 + len.toNat
      let rpos ← skipSuites mem (start + 8)
      let rpos ← skipSuites mem rpos
      let (mem, rpos) ← skipCapabilities mem rpos rend iesLen
      addPmkid mem start rpos rend iesLen pmkid) := by
  have hfuel : before.length < iesLen + 1 := by
    have := length_le_encodeElements before
    omega
  have hstop : ([] : Bytes).length + (encodeElements before).length < iesLen := by
    rw [List.length_nil, Nat.zero_add]
    exact hies
  have hfind := findRsnIe_encode hbefore [] (len :: 1 :: 0 :: (fields ++ rest)) hstop hfuel
  have hlen := rd8_append (encodeElements before) (rsnElement len fields ++ rest) 1
  change _ = Except.ok len at hlen
  rw [List.nil_append, List.length_nil, Nat.zero_add] at hfind
  rw [wpaInsertPmkid]
  simp only [rsnElement, List.cons_append] at hlen ⊢
  rw [hfind, ok_bind, hlen, ok_bind]

theorem wpaInsertPmkid_head (head : RsnHead) {tail : Bytes}
    (hlen : len.toNat = (head.octets ++ tail).length + 2) (rest : Bytes) {iesLen : ℕ}
    (hies : (encodeElements before).length < iesLen) :
    wpaInsertPmkid (encodeElements before ++ (rsnElement len (head.octets ++ tail) ++ rest)) iesLen
        pmkid = (do
      let (mem, rpos) ← skipCapabilities
        ((encodeElements before ++ rsnElement len head.octets) ++ (tail ++ rest))
        (encodeElements before ++ rsnElement len head.octets).length
        ((encodeElements before ++ rsnElement len head.octets).length + tail.length) iesLen
      addPmkid mem (encodeElements before).length rpos
        ((encodeElements before ++ rsnElement len head.octets).length + tail.length) iesLen
        pmkid) := by
  have hmem : encodeElements before ++ (rsnElement len (head.octets ++ tail) ++ rest) =
      (encodeElements before ++ rsnElement len head.octets) ++ (tail ++ rest) := by
    simp only [rsnElement, List.cons_append, List.append_assoc]
  have hrend : (encodeElements before).length + 2 + len.toNat =
      (encodeElements before ++ rsnElement len head.octets).length + tail.length := by
    rw [hlen]
    simp only [List.length_append, length_rsnElement]
    omega
  -- the two lists, each behind what stands in front of it
  have hgroup : (encodeElements before).length + 8 =
      (encodeElements before ++ rsnElement len head.group).length := by
    rw [List.length_append, length_rsnElement, head.length_group]
  have hpairwise := skipSuites_octets head.pairwise
    (encodeElements before ++ rsnElement len head.group) (head.akm.octets ++ (tail ++ rest))
  have hakm := skipSuites_octets head.akm
    ((encodeElements before ++ rsnElement len head.group) ++ head.pairwise.octets) (tail ++ rest)
  have hfront : ((encodeElements before ++ rsnElement len head.group) ++ head.pairwise.octets) ++
      head.akm.octets = encodeElements before ++ rsnElement len head.octets := by
    simp only [RsnHead.octets, rsnElement, List.cons_append, List.append_assoc]
  have hmem₁ : (encodeElements before ++ rsnElement len head.group) ++
      (head.pairwise.octets ++ (head.akm.octets ++ (tail ++ rest))) =
        (encodeElements before ++ rsnElement len head.octets) ++ (tail ++ rest) := by
    simp only [RsnHead.octets, rsnElement, List.cons_append, List.append_assoc]
  have hmem₂ : ((encodeElements before ++ rsnElement len head.group) ++ head.pairwise.octets) ++
      (head.akm.octets ++ (tail ++ rest)) =
        (encodeElements before ++ rsnElement len head.octets) ++ (tail ++ rest) := by
    rw [← hmem₁]
    exact List.append_assoc _ _ _
  rw [hmem₁] at hpairwise
  rw [hmem₂, hfront] at hakm
  rw [wpaInsertPmkid_element hbefore _ _ hies]
  simp only [hmem, hrend]
  rw [hgroup, hpairwise, ok_bind, hakm, ok_bind]

theorem wpaInsertPmkid_headless {fields : Bytes} (hlen : len.toNat = fields.length + 2)
    (hshort : fields.length ≤ 4 ∨
      ∃ group : Bytes, ∃ l : SuiteList, group.length = 4 ∧ fields = group ++ l.octets)
    (rest : Bytes) {iesLen : ℕ} (hies : (encodeElements before).length < iesLen)
    (r : ℕ × Bytes) :
    wpaInsertPmkid (encodeElements before ++ (rsnElement len fields ++ rest)) iesLen pmkid ≠
      .ok r := by
  set mem := encodeElements before ++ (rsnElement len fields ++ rest) with hmem
  have hskip : ∀ rpos rpos', skipSuites mem rpos = .ok rpos' → rpos + 2 ≤ rpos' := by
    intro rpos rpos' h
    unfold skipSuites at h
    cases hread : rdLe16 mem rpos with
    | error stop => rw [hread] at h; cases h
    | ok count =>
      rw [hread, ok_bind] at h
      cases h
      omega
  intro h
  rw [wpaInsertPmkid_element hbefore _ _ hies] at h
  simp only [← hmem] at h
  cases h₁ : skipSuites mem ((encodeElements before).length + 8) with
  | error stop => rw [h₁] at h; cases h
  | ok rpos₁ =>
    rw [h₁, ok_bind] at h
    cases h₂ : skipSuites mem rpos₁ with
    | error stop => rw [h₂] at h; cases h
    | ok rpos₂ =>
      rw [h₂, ok_bind] at h
      have hpos₁ := hskip _ _ h₁
      have hpos₂ := hskip _ _ h₂
      have hbeyond : (encodeElements before).length + 2 + len.toNat < rpos₂ := by
        rcases hshort with hshort | ⟨group, l, hgroup, rfl⟩
        · omega
        · have hpairwise := skipSuites_octets l (encodeElements before ++ rsnElement len group) rest
          have hmem' : (encodeElements before ++ rsnElement len group) ++ (l.octets ++ rest) =
              mem := by
            simp only [hmem, rsnElement, List.cons_append, List.append_assoc]
          have hgroup' : (encodeElements before ++ rsnElement len group).length =
              (encodeElements before).length + 8 := by
            rw [List.length_append, length_rsnElement, hgroup]
          rw [hmem', hgroup', h₁] at hpairwise
          cases hpairwise
          simp only [List.length_append, length_rsnElement, hgroup] at hlen hpos₂ ⊢
          omega
      rw [skipCapabilities_short (by omega) (by omega)] at h
      cases h

/-- An element that ends behind the AKM suites, or with one octet behind the capabilities: what the
function makes of it has a count of one and less than a PMKID behind it. -/
theorem wpaInsertPmkid_broken (hpmkid : pmkid.length = pmkidLen) (head : RsnHead) {tail : Bytes}
    (htail : tail.length = 0 ∨ tail.length = 3)
    (hlen : len.toNat = (head.octets ++ tail).length + 2) (after : Bytes) {room : Bytes}
    (hroom : 20 ≤ room.length) {added : ℕ} {m : Bytes}
    (h : wpaInsertPmkid
      (encodeElements before ++ (rsnElement len (head.octets ++ tail) ++ (after ++ room)))
      ((encodeElements before).length + ((rsnElement len (head.octets ++ tail)).length +
        after.length)) pmkid = .ok (added, m)) :
    added = pmkidLen ∧ ∃ c₀ c₁ post, m = encodeElements before ++
      (rsnElement (len + UInt8.ofNat pmkidLen)
        (head.octets ++ (c₀ :: c₁ :: (putLe16 1 ++ pmkid))) ++ post) := by
  rw [wpaInsertPmkid_head hbefore head hlen _ (by rw [length_rsnElement]; omega)] at h
  have hassoc : ∀ c₀ c₁ : UInt8, (head.octets ++ [c₀, c₁]) ++ (putLe16 1 ++ pmkid) =
      head.octets ++ (c₀ :: c₁ :: (putLe16 1 ++ pmkid)) := fun c₀ c₁ => by simp
  have hfront : ∀ c₀ c₁ : UInt8, (encodeElements before ++ rsnElement len head.octets) ++ [c₀, c₁] =
      encodeElements before ++ rsnElement len (head.octets ++ [c₀, c₁]) := fun c₀ c₁ => by
    simp [rsnElement]
  rcases htail with htail | htail
  · obtain rfl := List.length_eq_zero_iff.mp htail
    have hstop : (encodeElements before).length +
        ((rsnElement len (head.octets ++ [])).length + after.length) =
          (encodeElements before ++ rsnElement len head.octets).length + after.length := by
      simp only [List.append_nil, List.length_append]
      omega
    have hcaps := skipCapabilities_end (encodeElements before ++ rsnElement len head.octets) after
      room (by omega)
    rw [hfront] at hcaps
    rw [hstop] at h
    simp only [List.nil_append, List.length_nil, Nat.add_zero, hcaps, ok_bind] at h
    obtain ⟨rfl, post, rfl⟩ := addPmkid_ok _ _ _ hpmkid (by
      rw [List.length_append, List.length_drop, pmkidLen]
      omega) (by simp only [List.length_append, length_rsnElement]; rfl) (by omega) h
    exact ⟨rfl, 0, 0, post, by rw [hassoc]⟩
  · obtain ⟨c₀, c₁, n₀, rfl⟩ := List.length_eq_three.mp htail
    simp only [List.length_cons, List.length_nil, Nat.zero_add, Nat.reduceAdd] at h
    rw [skipCapabilities_there (by omega), ok_bind] at h
    have hmem : (encodeElements before ++ rsnElement len head.octets) ++
        ([c₀, c₁, n₀] ++ (after ++ room)) =
          (encodeElements before ++ rsnElement len (head.octets ++ [c₀, c₁])) ++
            (n₀ :: (after ++ room)) := by
      rw [← hfront]
      simp
    simp only [hmem] at h
    obtain ⟨rfl, post, rfl⟩ := addPmkid_ok _ _ _ hpmkid (by
      simp only [List.length_cons, List.length_append, pmkidLen]
      omega) (by simp only [List.length_append, length_rsnElement]; rfl) (by omega) h
    exact ⟨rfl, c₀, c₁, post, by rw [hassoc]⟩

/-- The PMKID goes behind the capabilities, or behind the count of zero; the length octet may
overflow. -/
theorem wpaInsertPmkid_exact (hpmkid : pmkid.length = pmkidLen) (head : RsnHead) {tail : Bytes}
    {d : WpaIeData} (hparse : parseRsnTail head.ie tail = some d) (hd : d.pmkids = [])
    (htail : tail.length = 2 ∨ 4 ≤ tail.length)
    (hlen : len.toNat = (head.octets ++ tail).length + 2) (after : Bytes) {room : Bytes}
    (hroom : 20 ≤ room.length) :
    ∃ tail', tail'.length = tail.length + growth tail ∧
      parseRsnTail head.ie tail' = some { d with pmkids := [pmkid] } ∧
      wpaInsertPmkid
        (encodeElements before ++ (rsnElement len (head.octets ++ tail) ++ (after ++ room)))
        ((encodeElements before).length + ((rsnElement len (head.octets ++ tail)).length +
          after.length)) pmkid =
        .ok (growth tail, encodeElements before ++
          (rsnElement (len + UInt8.ofNat (growth tail)) (head.octets ++ tail') ++
            (after ++ room.drop (growth tail)))) := by
  rw [wpaInsertPmkid_head hbefore head hlen _ (by rw [length_rsnElement]; omega)]
  have hfront : ∀ c₀ c₁ : UInt8, (encodeElements before ++ rsnElement len head.octets) ++ [c₀, c₁] =
      encodeElements before ++ rsnElement len (head.octets ++ [c₀, c₁]) := fun c₀ c₁ => by
    simp [rsnElement]
  rcases htail with htail | htail
  · obtain ⟨c₀, c₁, rfl⟩ := List.length_eq_two.mp htail
    have hgrowth : growth [c₀, c₁] = 2 + pmkidLen := rfl
    refine ⟨c₀ :: c₁ :: (putLe16 1 ++ (pmkid ++ [])), ?_, ?_, ?_⟩
    · simp only [List.length_cons, List.length_append, length_putLe16, hpmkid, hgrowth,
        List.length_nil]
      omega
    · rw [parseRsnTail_cons, parsePmkids_one _ hpmkid]
      cases hparse
      rfl
    · have hmem : (encodeElements before ++ rsnElement len head.octets) ++
          ([c₀, c₁] ++ (after ++ room)) =
            (encodeElements before ++ rsnElement len (head.octets ++ [c₀, c₁])) ++
              (after ++ room) := by
        rw [← hfront]
        simp
      have hadd := addPmkid_end (encodeElements before) len (head.octets ++ [c₀, c₁]) hpmkid after
        room (by rw [pmkidLen]; omega)
        ((encodeElements before ++ rsnElement len head.octets).length + 2)
        ((encodeElements before).length +
          ((rsnElement len (head.octets ++ [c₀, c₁])).length + after.length))
        (by simp only [List.length_append, length_rsnElement]; rfl)
        (by simp only [List.length_append, length_rsnElement, List.length_cons,
              List.length_nil]; omega)
      simp only [List.length_cons, List.length_nil, Nat.zero_add, Nat.reduceAdd]
      rw [skipCapabilities_there (by omega), ok_bind]
      simp only [hmem, hgrowth]
      rw [hadd]
      simp
  · obtain ⟨c₀, c₁, u, rfl, hmgmt⟩ := tail_cases _ hparse hd htail
    have hgrowth : growth (c₀ :: c₁ :: (putLe16 0 ++ u)) = pmkidLen := if_neg (by
      simp only [List.length_cons, List.length_append, length_putLe16]
      omega)
    refine ⟨c₀ :: c₁ :: (putLe16 1 ++ (pmkid ++ u)), ?_, ?_, ?_⟩
    · simp only [List.length_cons, List.length_append, length_putLe16, hpmkid, hgrowth]
      omega
    · rw [parseRsnTail_cons, parsePmkids_one _ hpmkid]
      exact parseMgmtGroupCipher_pmkids _ u [pmkid] hmgmt
    · have hmem : (encodeElements before ++ rsnElement len head.octets) ++
          ((c₀ :: c₁ :: (putLe16 0 ++ u)) ++ (after ++ room)) =
            (encodeElements before ++ rsnElement len (head.octets ++ [c₀, c₁])) ++
              (putLe16 0 ++ ((u ++ after) ++ room)) := by
        rw [← hfront]
        simp
      have hadd := addPmkid_zero (encodeElements before) len (head.octets ++ [c₀, c₁]) hpmkid
        (u ++ after) room (by rw [pmkidLen]; omega)
        ((encodeElements before ++ rsnElement len head.octets).length + 2)
        ((encodeElements before ++ rsnElement len head.octets).length +
          (c₀ :: c₁ :: (putLe16 0 ++ u)).length)
        ((encodeElements before).length +
          ((rsnElement len (head.octets ++ (c₀ :: c₁ :: (putLe16 0 ++ u)))).length + after.length))
        (by simp only [List.length_append, length_rsnElement]; rfl)
        (by simp only [List.length_cons, List.length_append, length_putLe16]; omega)
        (by simp only [List.length_append, length_rsnElement, List.length_cons,
              length_putLe16]; omega)
      rw [skipCapabilities_there (by simp only [List.length_cons]; omega), ok_bind]
      simp only [hmem, hgrowth]
      rw [hadd]
      simp [rsnElement]

end Runs

/-! ## Where it inserts -/

section Insertion

variable {before : List Record} (hbefore : ∀ r ∈ before, r.1 ≠ wlanEidRsn ∧ r.2.length < 256)
  {rsn : Bytes} {d : WpaIeData} (hparse : parseWpaIeRsn rsn = some d) (hd : d.pmkids = [])
  (after : Bytes) {room : Bytes} (hroom : 20 ≤ room.length) (pmkid : Pmkid)

include hbefore hparse hd hroom

/-- The PMKID is inserted into a well-formed RSN element without PMKIDs exactly when the element is
insertable. -/
theorem inserts_iff :
    Inserts (encodeElements before) rsn after room d pmkid ↔ Insertable rsn := by
  obtain ⟨len, fields, rfl, hlen, hfields⟩ := exists_rsnElement hparse
  have hpmkid : pmkid.toList.length = pmkidLen := Vector.length_toList
  rcases exists_head hfields with ⟨head, tail, rfl, htail⟩ | ⟨hnone, hshort⟩
  · rw [parseRsnFields_octets] at hfields
    have hinsertable : Insertable (rsnElement len (head.octets ++ tail)) ↔
        2 ≤ tail.length ∧ tail.length ≠ 3 ∧
          (rsnElement len (head.octets ++ tail)).length - 2 + growth tail ≤ 255 := by
      unfold Insertable
      rw [drop_rsnElement, htail]
      simp
    rw [hinsertable]
    by_cases hexact : tail.length = 2 ∨ 4 ≤ tail.length
    · obtain ⟨tail', hlen', hparse', hrun⟩ :=
        wpaInsertPmkid_exact hbefore hpmkid head hfields hd hexact hlen after hroom
      have hoctet : (len + UInt8.ofNat (growth tail)).toNat =
          (head.octets ++ tail').length + 2 ↔
            (rsnElement len (head.octets ++ tail)).length - 2 + growth tail ≤ 255 := by
        have hgrowth : growth tail ≤ 18 := by
          unfold growth pmkidLen
          split <;> omega
        have hsmall := len.toNat_lt
        rw [UInt8.toNat_add, UInt8.toNat_ofNat', hlen]
        rw [hlen] at hsmall
        simp only [List.length_append, length_rsnElement, hlen'] at hsmall ⊢
        omega
      have hresult : parseWpaIeRsn
          (rsnElement (len + UInt8.ofNat (growth tail)) (head.octets ++ tail')) =
            if (rsnElement len (head.octets ++ tail)).length - 2 + growth tail ≤ 255 then
              some { d with pmkids := [pmkid.toList] } else none := by
        rw [parseWpaIeRsn_rsnElement, parseRsnFields_octets, hparse']
        exact if_congr hoctet rfl rfl
      constructor
      · rintro ⟨added, rsn', hok, hgrown, hvalues⟩
        rw [hrun] at hok
        simp only [Except.ok.injEq, Prod.mk.injEq] at hok
        obtain ⟨rfl, hmem⟩ := hok
        have hsame :
            rsnElement (len + UInt8.ofNat (growth tail)) (head.octets ++ tail') = rsn' := by
          refine (List.append_inj (List.append_cancel_left hmem) ?_).1
          rw [hgrown]
          simp only [List.length_append, length_rsnElement, hlen']
          omega
        rw [← hsame, hresult] at hvalues
        split at hvalues
        · rename_i hbound
          exact ⟨by omega, by omega, hbound⟩
        · cases hvalues
      · rintro ⟨-, -, hbound⟩
        refine ⟨_, _, hrun, ?_, ?_⟩
        · simp only [List.length_append, length_rsnElement, hlen']
          omega
        · rw [hresult, if_pos hbound]
    · refine iff_of_false ?_ fun h => by omega
      rintro ⟨added, rsn', hok, hgrown, hvalues⟩
      by_cases hone : tail.length = 1
      · rw [wpaInsertPmkid_head hbefore head hlen _ (by rw [length_rsnElement]; omega)] at hok
        rw [skipCapabilities_short (by omega) (by omega)] at hok
        cases hok
      · obtain ⟨rfl, c₀, c₁, post, hmem⟩ := wpaInsertPmkid_broken hbefore hpmkid head
          (by omega) hlen after hroom hok
        -- the element is cut off inside the PMKID
        have hcut : rsn' = rsnElement (len + UInt8.ofNat pmkidLen) (head.octets ++
            (c₀ :: c₁ :: (putLe16 1 ++ pmkid.toList.take (tail.length + 12)))) := by
          have hsplit : rsnElement (len + UInt8.ofNat pmkidLen)
              (head.octets ++ (c₀ :: c₁ :: (putLe16 1 ++ pmkid.toList))) =
              rsnElement (len + UInt8.ofNat pmkidLen) (head.octets ++
                (c₀ :: c₁ :: (putLe16 1 ++ pmkid.toList.take (tail.length + 12)))) ++
                  pmkid.toList.drop (tail.length + 12) := by
            simp [rsnElement]
          rw [hsplit, List.append_assoc] at hmem
          refine (List.append_inj (List.append_cancel_left hmem) ?_).1
          rw [hgrown]
          simp only [List.length_append, length_rsnElement, List.length_cons, length_putLe16,
            List.length_take, hpmkid, pmkidLen]
          omega
        have hfew : (pmkid.toList.take (tail.length + 12)).length < pmkidLen := by
          rw [List.length_take, pmkidLen]
          omega
        rw [hcut, parseWpaIeRsn_rsnElement, parseRsnFields_octets, parseRsnTail_cons,
          parsePmkids_short _ hfew] at hvalues
        simp at hvalues
  · refine iff_of_false ?_ ?_
    · rintro ⟨added, rsn', hok, -⟩
      exact wpaInsertPmkid_headless hbefore hlen hshort _ (by rw [length_rsnElement]; omega) _ hok
    · rintro ⟨tail, htail, -⟩
      rw [drop_rsnElement, hnone] at htail
      cases htail

end Insertion

/-- CCMP for both ciphers and FT-PSK as the AKM suite. -/
def sampleFields : Bytes :=
  rsnSelector 4 ++ (putLe16 1 ++ (rsnSelector 4 ++ (putLe16 1 ++ rsnSelector 4)))

def sampleMdie : Bytes := [54, 3, 0x12, 0x34, 0]

theorem inserts_behind_capabilities :
    Inserts (encodeElements [(0, [0x61])]) (rsnElement 20 (sampleFields ++ [0, 0])) sampleMdie
      (List.replicate 20 0) { WpaIeData.default with keyMgmt := keyMgmtFtPsk }
      (Vector.replicate 16 7) := by
  have hbefore : ∀ r ∈ ([(0, [0x61])] : List Record), r.1 ≠ wlanEidRsn ∧ r.2.length < 256 := by
    decide
  refine (inserts_iff hbefore ?_ rfl sampleMdie ?_ _).mpr ⟨[0, 0], ?_, ?_, ?_, ?_⟩
  · decide
  · decide
  · decide
  · decide
  · decide
  · decide

/-- Without capabilities, the function takes the element behind the RSN element for a count and
fails. -/
theorem not_inserted_without_capabilities :
    ¬ ∀ (before : List Record) (rsn after room : Bytes) (d : WpaIeData) (pmkid : Pmkid),
      (∀ r ∈ before, r.1 ≠ wlanEidRsn ∧ r.2.length < 256) → parseWpaIeRsn rsn = some d →
      d.pmkids = [] → 20 ≤ room.length →
      Inserts (encodeElements before) rsn after room d pmkid := by
  intro h
  obtain ⟨added, rsn', hrun, -⟩ := h [] (rsnElement 18 sampleFields) sampleMdie
    (List.replicate 20 0) { WpaIeData.default with keyMgmt := keyMgmtFtPsk }
    (Vector.replicate 16 7) (by decide) (by decide) rfl (by decide)
  have hfails : wpaInsertPmkid
      (rsnElement 18 sampleFields ++ (sampleMdie ++ List.replicate 20 0))
      (0 + ((rsnElement 18 sampleFields).length + sampleMdie.length))
      (Vector.replicate 16 7 : Pmkid).toList = .error .dropped := by decide
  rw [encodeElements_nil, List.nil_append, List.length_nil, hfails] at hrun
  cases hrun

end Hostapd
