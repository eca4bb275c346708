import Hostapd.Common.Defs
import Hostapd.Lib.Elements
import Hostapd.Lib.Linked
import Hostapd.Utils.Eloop

/-!
# The BSS table

`bss.c`: the entries `wpa_supplicant` keeps of the networks it has seen.

* **Memory** (`mem`) holds the live entries by address. Each entry is linked twice, into `bss` in
  the order of the last update and into `bssId` in the order of creation; both lists and
  `currentBss` hold addresses.
* **Entries** (`WpaBss`) carry `alloc`, the octets allocated behind the structure for the
  information elements.
* **Updates** in the order of the source. The answers of `os_zalloc` and `os_realloc` are arguments.
* **Record**: `created` counts the entries ever added and `currentFor` names the BSS that
  `currentBss` was set to; no function reads them.
-/

namespace Hostapd.WpaSupplicant

open Hostapd.Lib Hostapd.Utils.Eloop

/-- What an entry copies from a scan result as it is.
Source: the assignments of `wpa_bss_copy_res` up to the time. -/
structure ScanData where
  flags : UInt32
  bssid : MacAddr
  freq : ℤ
  beaconInt : UInt16
  caps : UInt16
  qual : ℤ
  noise : ℤ
  level : ℤ
  tsf : UInt64
  deriving DecidableEq

/-- A scan result, `age` in milliseconds, with the elements of the Probe Response and of the
Beacon behind it. Source: `driver.h`, `struct wpa_scan_res`. -/
structure ScanRes where
  data : ScanData
  age : UInt32
  ie : Bytes
  beaconIe : Bytes
  deriving DecidableEq

/-- An entry. `ie` and `beaconIe` are the `ie_len` and `beacon_ie_len` octets behind the structure,
`alloc` the number of octets allocated there. Source: `bss.h`, `struct wpa_bss`. -/
structure WpaBss where
  id : UInt32
  scanMissCount : UInt32
  lastUpdateIdx : UInt32
  data : ScanData
  ssid : Bytes
  lastUpdate : OsTime
  ie : Bytes
  beaconIe : Bytes
  alloc : ℕ
  deriving DecidableEq

/-- What makes two entries entries of the same BSS. -/
def WpaBss.key (b : WpaBss) : MacAddr × Bytes := (b.data.bssid, b.ssid)

/-- The table, with the clock, the addresses `wpa_bss_in_use` compares with and the one parameter
of the configuration that can be set while the table is in use.
Source: the fields of `struct wpa_supplicant`. -/
structure BssTable where
  mem : ℕ → Option WpaBss
  bss : List ℕ
  bssId : List ℕ
  numBss : ℕ
  bssUpdateIdx : UInt32
  bssNextId : UInt32
  currentBss : Option ℕ
  bssid : MacAddr
  pendingBssid : MacAddr
  now : OsTime
  bssExpirationScanCount : UInt32
  created : ℕ
  currentFor : Option (MacAddr × Bytes)

/-- Source: `wpa_bss_init`, with the default of the configuration. -/
def wpaBssInit (now : OsTime) : BssTable where
  mem := fun _ => none
  bss := []
  bssId := []
  numBss := 0
  bssUpdateIdx := 0
  bssNextId := 0
  currentBss := none
  bssid := 0
  pendingBssid := 0
  now := now
  bssExpirationScanCount := 2
  created := 0
  currentFor := none

/-- Unlink an entry from both lists and free it. Source: `wpa_bss_remove`. -/
def wpaBssRemove (s : BssTable) (bss : ℕ) : BssTable :=
  { s with
    bss := s.bss.erase bss
    bssId := s.bssId.erase bss
    numBss := s.numBss - 1
    mem := Function.update s.mem bss none }

/-- The first entry of the BSS. Source: `wpa_bss_get`. -/
def wpaBssGet (s : BssTable) (bssid : MacAddr) (ssid : Bytes) : Option ℕ :=
  s.bss.find? fun bss => (s.mem bss).any fun b => b.key = (bssid, ssid)

/-- The time a result that is `age` milliseconds old was seen at.
Source: `wpa_bss_copy_res`, the lines on `last_update`. -/
def lastUpdate (now : OsTime) (age : UInt32) : OsTime :=
  let sec := now.sec - age.toNat / 1000
  let usec : ℤ := age.toNat % 1000 * 1000
  if now.usec < usec then ⟨sec - 1, now.usec + 1000000 - usec⟩ else ⟨sec, now.usec - usec⟩

def wpaBssCopyRes (s : BssTable) (dst : WpaBss) (src : ScanRes) : WpaBss :=
  { dst with data := src.data, lastUpdate := lastUpdate s.now src.age }

/-- Copy the elements of a result behind an entry. -/
def WpaBss.copyIes (dst : WpaBss) (src : ScanRes) : WpaBss :=
  { dst with ie := src.ie, beaconIe := src.beaconIe }

/-- The entry `wpa_bss_add` fills in. -/
def newBss (s : BssTable) (ssid : Bytes) (res : ScanRes) : WpaBss where
  id := s.bssNextId
  scanMissCount := 0
  lastUpdateIdx := s.bssUpdateIdx
  data := res.data
  ssid := ssid
  lastUpdate := lastUpdate s.now res.age
  ie := res.ie
  beaconIe := res.beaconIe
  alloc := res.ie.length + res.beaconIe.length

def linkBss (s : BssTable) (bss : ℕ) (b : WpaBss) : BssTable :=
  { s with
    mem := Function.update s.mem bss (some b)
    bssNextId := s.bssNextId + 1
    created := s.created + 1
    bss := s.bss ++ [bss]
    bssId := s.bssId ++ [bss]
    numBss := s.numBss + 1 }

/-- Remove the first entry of the list when there are too many. -/
def removeOldest (bssMaxCount : ℕ) (s : BssTable) : BssTable :=
  match s.bss with
  | first :: _ => if s.numBss > bssMaxCount then wpaBssRemove s first else s
  | [] => s

/-- The block `os_zalloc` offers; one in use is never offered. -/
def zallocBss (s : BssTable) (zalloc : Option ℕ) : Option ℕ :=
  zalloc.filter fun bss => (s.mem bss).isNone

/-- Add an entry; `zalloc` is the block `os_zalloc` answers with. Source: `wpa_bss_add`. -/
def wpaBssAdd (bssMaxCount : ℕ) (s : BssTable) (zalloc : Option ℕ) (ssid : Bytes) (res : ScanRes) :
    BssTable :=
  match zallocBss s zalloc with
  | none => s
  | some bss => removeOldest bssMaxCount (linkBss s bss (newBss s ssid res))

/-- The elements of the result fit the memory the entry has for its present ones. -/
def IesFit (b : WpaBss) (res : ScanRes) : Prop :=
  res.ie.length + res.beaconIe.length ≤ b.ie.length + b.beaconIe.length

instance (b : WpaBss) (res : ScanRes) : Decidable (IesFit b res) :=
  inferInstanceAs (Decidable (_ ≤ _))

/-- The block `os_realloc` answers with: the old one or one that is not in use. -/
def reallocBss (s : BssTable) (bss : ℕ) (realloc : Option ℕ) : Option ℕ :=
  realloc.filter fun nbss => nbss = bss || (s.mem nbss).isNone

/-- The branch of `wpa_bss_update` for elements that need more memory: the block may move, and with
it the entry; a failed `os_realloc` leaves the old elements. -/
def growBss (s : BssTable) (bss : ℕ) (b : WpaBss) (realloc : Option ℕ) (res : ScanRes) : BssTable :=
  let prev := prevNode bss s.bssId
  let bssId := s.bssId.erase bss
  match reallocBss s bss realloc with
  | some nbss =>
    let nb := { b.copyIes res with alloc := res.ie.length + res.beaconIe.length }
    { s with
      mem := Function.update (Function.update s.mem bss none) nbss (some nb)
      bss := s.bss.erase bss ++ [nbss]
      bssId := addAfter prev nbss bssId }
  | none =>
    { s with
      mem := Function.update s.mem bss (some b)
      bss := s.bss.erase bss ++ [bss]
      bssId := addAfter prev bss bssId }

/-- What `wpa_bss_update` writes to an entry before it looks at the elements. -/
def touchBss (s : BssTable) (b : WpaBss) (res : ScanRes) : WpaBss :=
  wpaBssCopyRes s { b with scanMissCount := 0, lastUpdateIdx := s.bssUpdateIdx } res

/-- Write a result to the entry `b` at `bss` and move it to the end of the list.
Source: `wpa_bss_update`. -/
def wpaBssUpdate (s : BssTable) (bss : ℕ) (b : WpaBss) (realloc : Option ℕ) (res : ScanRes) :
    BssTable :=
  if IesFit b res then
    { s with
      mem := Function.update s.mem bss (some ((touchBss s b res).copyIes res))
      bss := s.bss.erase bss ++ [bss] }
  else growBss s bss (touchBss s b res) realloc res

/-- The entry is the one associated with, or is of a BSSID associated with or about to be.
Source: `wpa_bss_in_use`. -/
def wpaBssInUse (s : BssTable) (bss : ℕ) (b : WpaBss) : Bool :=
  some bss = s.currentBss || b.data.bssid = s.bssid || b.data.bssid = s.pendingBssid

/-- Source: `ieee802_11_defs.h`, `WLAN_EID_SSID`, `WLAN_EID_VENDOR_SPECIFIC`. -/
def wlanEidSsid : UInt8 := 0

@[inherit_doc wlanEidSsid] def wlanEidVendorSpecific : UInt8 := 221

/-- The payload of the first element with the identifier. Source: `wpa_scan_get_ie`. -/
def wpaScanGetIe (res : ScanRes) (ie : UInt8) : Option Bytes :=
  ((elements res.ie).find? fun e => e.1 = ie).map Prod.snd

/-- The first vendor specific element of the type. Source: `wpa_scan_get_vendor_ie`. -/
def wpaScanGetVendorIe (res : ScanRes) (vendorType : Bytes) : Option Bytes :=
  ((elements res.ie).find? fun e =>
    e.1 = wlanEidVendorSpecific ∧ 4 ≤ e.2.length ∧ e.2.take 4 = vendorType).map Prod.snd

/-- Source: `ieee802_11_defs.h`, `P2P_IE_VENDOR_TYPE`. -/
def p2pIeVendorType : Bytes := [0x50, 0x6f, 0x9a, 0x09]

/-- The octets of `DIRECT-`. Source: `ieee802_11_defs.h`, `P2P_WILDCARD_SSID`. -/
def p2pWildcardSsid : Bytes := [0x44, 0x49, 0x52, 0x45, 0x43, 0x54, 0x2d]

/-- The SSID of a result that the table takes: it has an SSID element of 32 octets at most and is
no P2P listen discovery result. Source: `wpa_bss_update_scan_res`, the checks in front. -/
def acceptedSsid (res : ScanRes) : Option Bytes :=
  (wpaScanGetIe res wlanEidSsid).filter fun ssid =>
    ssid.length ≤ 32 ∧
      ¬((wpaScanGetVendorIe res p2pIeVendorType).isSome ∧ ssid = p2pWildcardSsid)

/-- Enter a scan result. Source: `wpa_bss_update_scan_res`. -/
def wpaBssUpdateScanRes (bssMaxCount : ℕ) (s : BssTable) (res : ScanRes)
    (zalloc realloc : Option ℕ) : BssTable :=
  match acceptedSsid res with
  | none => s
  | some ssid =>
    match wpaBssGet s res.data.bssid ssid with
    | none => wpaBssAdd bssMaxCount s zalloc ssid res
    | some bss =>
      match s.mem bss with
      | some b => wpaBssUpdate s bss b realloc res
      | none => s

/-- What a scan covered: frequencies and SSIDs, an empty list for all of them, an empty SSID for
the wildcard. Source: `driver.h`, `struct scan_info`. -/
structure ScanInfo where
  freqs : List ℤ
  ssids : List Bytes

def wpaBssIncludedInScan (b : WpaBss) (info : Option ScanInfo) : Bool :=
  info.all fun info =>
    (info.freqs = [] || b.data.freq ∈ info.freqs) &&
      (info.ssids = [] || info.ssids.any fun ssid => ssid = [] || ssid = b.ssid)

def countMiss (s : BssTable) (b : WpaBss) : WpaBss :=
  if b.lastUpdateIdx < s.bssUpdateIdx then { b with scanMissCount := b.scanMissCount + 1 } else b

/-- One turn of the loop of `wpa_bss_update_end`. -/
def expireUnseen (info : Option ScanInfo) (s : BssTable) (bss : ℕ) : BssTable :=
  match s.mem bss with
  | none => s
  | some b =>
    if wpaBssInUse s bss b then s
    else if !wpaBssIncludedInScan b info then s
    else
      let s' := { s with mem := Function.update s.mem bss (some (countMiss s b)) }
      if s.bssExpirationScanCount ≤ (countMiss s b).scanMissCount then wpaBssRemove s' bss else s'

/-- Expire the entries that were missing from too many scans. Source: `wpa_bss_update_end`. -/
def wpaBssUpdateEnd (s : BssTable) (info : Option ScanInfo) (newScan : Bool) : BssTable :=
  if newScan then s.bss.foldl (expireUnseen info) s else s

/-- The loop of `wpa_bss_flush_by_age`, which stops at the first entry that is not in use and was
updated since `t`. -/
def flushByAgeLoop (t : OsTime) : List ℕ → BssTable → BssTable
  | [], s => s
  | bss :: rest, s =>
    match s.mem bss with
    | none => flushByAgeLoop t rest s
    | some b =>
      if wpaBssInUse s bss b then flushByAgeLoop t rest s
      else if b.lastUpdate.before t then flushByAgeLoop t rest (wpaBssRemove s bss)
      else s

/-- The time `age` seconds ago. -/
def agoTime (s : BssTable) (age : ℤ) : OsTime := ⟨s.now.sec - age, s.now.usec⟩

/-- Remove the entries that are older than `age` seconds. Source: `wpa_bss_flush_by_age`. -/
def wpaBssFlushByAge (s : BssTable) (age : ℤ) : BssTable :=
  flushByAgeLoop (agoTime s age) s.bss s

/-- One turn of the loop of `wpa_bss_flush`. -/
def flushOne (s : BssTable) (bss : ℕ) : BssTable :=
  match s.mem bss with
  | none => s
  | some b => if wpaBssInUse s bss b then s else wpaBssRemove s bss

/-- Remove the entries that are not in use. Source: `wpa_bss_flush`. -/
def wpaBssFlush (s : BssTable) : BssTable := s.bss.foldl flushOne s

/-- Choose an entry, or none, for the association. -/
def selectBss (s : BssTable) (bss : Option ℕ) : BssTable :=
  match bss with
  | none => { s with currentBss := none, currentFor := none }
  | some a =>
    match s.mem a with
    | some b => { s with currentBss := some a, currentFor := some b.key }
    | none => s

/-- What happens to the table: the functions of `bss.c`, the selection of a live entry or none as
the current one, changes of the addresses associated with and of the expiration count, and readings
of the clock. -/
inductive BssOp
  | updateStart
  | updateScanRes (res : ScanRes) (zalloc realloc : Option ℕ)
  | updateEnd (info : Option ScanInfo) (newScan : Bool)
  | flushByAge (age : ℤ)
  | flush
  | select (bss : Option ℕ)
  | associate (bssid pendingBssid : MacAddr)
  | setBssExpirationCount (n : UInt32)
  | clock (now : OsTime)

def bssStep (bssMaxCount : ℕ) (s : BssTable) : BssOp → BssTable
  | .updateStart => { s with bssUpdateIdx := s.bssUpdateIdx + 1 }
  | .updateScanRes res zalloc realloc => wpaBssUpdateScanRes bssMaxCount s res zalloc realloc
  | .updateEnd info newScan => wpaBssUpdateEnd s info newScan
  | .flushByAge age => wpaBssFlushByAge s age
  | .flush => wpaBssFlush s
  | .select bss => selectBss s bss
  | .associate bssid pendingBssid => { s with bssid := bssid, pendingBssid := pendingBssid }
  | .setBssExpirationCount n => { s with bssExpirationScanCount := n }
  | .clock now => { s with now := now }

/-!
## The BSS table: what every operation keeps

* **`Linked s`** is the invariant of the two lists and the memory they point into. Every operation
  of the table is made of three changes, and each of them keeps it: a new entry is linked
  (**`Linked.linkBss`**), a live one is removed (**`Linked.wpaBssRemove`**), a live one is written
  or moved to another block under the same name (**`Linked.replace`**).
* **`CurrentLive s`**: `currentBss` is `NULL` or points to the entry it was set to.
-/

/-! ### The invariant -/

def idAt (mem : ℕ → Option WpaBss) (bss : ℕ) : ℕ := (mem bss).elim 0 fun b => b.id.toNat

/-- The two lists hold the live entries; entries differ in their name, and in their identifier as
long as the counter has not wrapped. -/
structure Linked (s : BssTable) : Prop where
  nodup : s.bss.Nodup
  perm : s.bssId.Perm s.bss
  live : ∀ a, a ∈ s.bss ↔ (s.mem a).isSome
  count : s.numBss = s.bss.length
  keys : ∀ a b x y, s.mem a = some x → s.mem b = some y → x.key = y.key → a = b
  ids : s.created ≤ 2 ^ 32 → s.bssId.Pairwise fun a b => idAt s.mem a < idAt s.mem b
  next : s.bssNextId = UInt32.ofNat s.created
  idsLt : s.created ≤ 2 ^ 32 → ∀ a b, s.mem a = some b → b.id.toNat < s.created
  alloc : ∀ a b, s.mem a = some b → b.ie.length + b.beaconIe.length ≤ b.alloc

/-- `currentBss` is `NULL` or points to a live entry of the BSS it was set to. -/
def CurrentLive (s : BssTable) : Prop :=
  ∀ a, s.currentBss = some a → ∃ b, s.mem a = some b ∧ s.currentFor = some b.key

/-- The table `s'` is `s` with the entry `b` at `a` written as `nb` to the block `n`, which is the
same one or was not in use. The entry keeps its name and its place in the order of identifiers. -/
structure Replaces (s s' : BssTable) (a n : ℕ) (b nb : WpaBss) : Prop where
  entry : s.mem a = some b
  block : n = a ∨ s.mem n = none
  id : nb.id = b.id
  key : nb.key = b.key
  alloc : nb.ie.length + nb.beaconIe.length ≤ nb.alloc
  mem : s'.mem = Function.update (Function.update s.mem a none) n (some nb)
  bss : s'.bss.Perm (renameNode a n s.bss)
  bssId : s'.bssId = renameNode a n s.bssId
  numBss : s'.numBss = s.numBss
  created : s'.created = s.created
  bssNextId : s'.bssNextId = s.bssNextId
  currentBss : s'.currentBss = s.currentBss
  currentFor : s'.currentFor = s.currentFor

section Moves

variable {s : BssTable} {a n : ℕ} {b nb : WpaBss}

theorem linked_init (now : OsTime) : Linked (wpaBssInit now) where
  nodup := List.nodup_nil
  perm := List.Perm.refl []
  live := by simp [wpaBssInit]
  count := rfl
  keys := by simp [wpaBssInit]
  ids := by simp [wpaBssInit]
  next := rfl
  idsLt := by simp [wpaBssInit]
  alloc := by simp [wpaBssInit]

theorem Linked.mem_bss (h : Linked s) (hb : s.mem a = some b) : a ∈ s.bss :=
  (h.live a).mpr (by simp [hb])

theorem Linked.mem_bssId (h : Linked s) (hb : s.mem a = some b) : a ∈ s.bssId :=
  h.perm.mem_iff.mpr (h.mem_bss hb)

theorem Linked.nodup_bssId (h : Linked s) : s.bssId.Nodup := h.perm.nodup_iff.mpr h.nodup

theorem Linked.wpaBssRemove (h : Linked s) (ha : a ∈ s.bss) : Linked (wpaBssRemove s a) := by
  have hmem : ∀ {x y}, (WpaSupplicant.wpaBssRemove s a).mem x = some y →
      x ≠ a ∧ s.mem x = some y := by
    intro x y hx
    simp only [WpaSupplicant.wpaBssRemove, Function.update_apply] at hx
    split at hx
    · exact absurd hx (by simp)
    · exact ⟨‹_›, hx⟩
  refine ⟨h.nodup.erase a, h.perm.erase a, ?_, ?_, ?_, ?_, h.next, ?_, ?_⟩
  · intro x
    simp only [WpaSupplicant.wpaBssRemove, h.nodup.mem_erase_iff, Function.update_apply]
    by_cases hx : x = a
    · simp [hx]
    · simpa [hx] using h.live x
  · simp only [WpaSupplicant.wpaBssRemove, List.length_erase_of_mem ha, h.count]
  · intro x y u v hx hy hkey
    exact h.keys x y u v (hmem hx).2 (hmem hy).2 hkey
  · intro hc
    refine ((h.ids hc).sublist List.erase_sublist).imp_of_mem ?_
    intro x y hx hy hlt
    have hxa := (h.nodup_bssId.mem_erase_iff.mp hx).1
    have hya := (h.nodup_bssId.mem_erase_iff.mp hy).1
    simpa [idAt, WpaSupplicant.wpaBssRemove, Function.update_of_ne hxa,
      Function.update_of_ne hya] using hlt
  · intro hc x y hx
    exact h.idsLt hc x y (hmem hx).2
  · intro x y hx
    exact h.alloc x y (hmem hx).2

theorem Linked.linkBss (h : Linked s) (ha : s.mem a = none) (hid : b.id = s.bssNextId)
    (hkey : ∀ x y, s.mem x = some y → y.key ≠ b.key)
    (halloc : b.ie.length + b.beaconIe.length ≤ b.alloc) : Linked (linkBss s a b) := by
  have hnot : a ∉ s.bss := fun hin => by simpa [ha] using (h.live a).mp hin
  have hnotId : a ∉ s.bssId := fun hin => hnot (h.perm.mem_iff.mp hin)
  have hmem : ∀ {x y}, (WpaSupplicant.linkBss s a b).mem x = some y →
      (x = a ∧ y = b) ∨ (x ≠ a ∧ s.mem x = some y) := by
    intro x y hx
    simp only [WpaSupplicant.linkBss, Function.update_apply] at hx
    split at hx
    · exact .inl ⟨‹_›, (Option.some.inj hx).symm⟩
    · exact .inr ⟨‹_›, hx⟩
  have hidAt : s.created < 2 ^ 32 → b.id.toNat = s.created := by
    intro hc
    rw [hid, h.next, UInt32.toNat_ofNat']
    exact Nat.mod_eq_of_lt hc
  refine ⟨?_, h.perm.append_right [a], ?_, ?_, ?_, ?_, ?_, ?_, ?_⟩
  · simpa [WpaSupplicant.linkBss, List.nodup_append, h.nodup] using fun x hx (hxa : x = a) =>
      hnot (hxa ▸ hx)
  · intro x
    simp only [WpaSupplicant.linkBss, List.mem_append, List.mem_singleton, Function.update_apply]
    by_cases hx : x = a
    · simp [hx]
    · simpa [hx] using h.live x
  · simp [WpaSupplicant.linkBss, h.count]
  · intro x y u v hx hy huv
    rcases hmem hx with ⟨rfl, rfl⟩ | ⟨_, hxs⟩ <;> rcases hmem hy with ⟨rfl, rfl⟩ | ⟨_, hys⟩
    · rfl
    · exact absurd huv.symm (hkey y v hys)
    · exact absurd huv (hkey x u hxs)
    · exact h.keys x y u v hxs hys huv
  · intro hc
    have hc' : s.created < 2 ^ 32 := hc
    have hold : ∀ x ∈ s.bssId, idAt (WpaSupplicant.linkBss s a b).mem x = idAt s.mem x := by
      intro x hx
      have hxa : x ≠ a := fun hxa => hnotId (hxa ▸ hx)
      simp [idAt, WpaSupplicant.linkBss, Function.update_of_ne hxa]
    have hnew : idAt (WpaSupplicant.linkBss s a b).mem a = s.created := by
      simp [idAt, WpaSupplicant.linkBss, hidAt hc']
    show (s.bssId ++ [a]).Pairwise _
    rw [List.pairwise_append]
    refine ⟨(h.ids hc'.le).imp_of_mem ?_, List.pairwise_singleton _ a, ?_⟩
    · intro x y hx hy hlt
      rwa [hold x hx, hold y hy]
    · intro x hx y hy
      rw [List.mem_singleton.mp hy, hnew, hold x hx]
      obtain ⟨u, hu⟩ := Option.isSome_iff_exists.mp ((h.live x).mp (h.perm.mem_iff.mp hx))
      simpa [idAt, hu] using h.idsLt hc'.le x u hu
  · simp [WpaSupplicant.linkBss, h.next, UInt32.ofNat_add]
  · intro hc x y hx
    have hc' : s.created < 2 ^ 32 := hc
    show y.id.toNat < s.created + 1
    rcases hmem hx with ⟨rfl, rfl⟩ | ⟨_, hx⟩
    · exact Nat.lt_succ_of_le (hidAt hc').le
    · exact Nat.lt_succ_of_lt (h.idsLt hc'.le x y hx)
  · intro x y hx
    rcases hmem hx with ⟨rfl, rfl⟩ | ⟨_, hx⟩
    · exact halloc
    · exact h.alloc x y hx

theorem Linked.replace {s' : BssTable} (h : Linked s) (hr : Replaces s s' a n b nb) :
    Linked s' := by
  obtain ⟨hb, hn, hid, hkey, halloc, hmem, hbss, hbssId, hnum, hcreated, hnext, -, -⟩ := hr
  have hnb : n = a ∨ n ∉ s.bss := by
    refine hn.imp_right ?_
    intro hnone hin
    simpa [hnone] using (h.live n).mp hin
  have hnbId : n = a ∨ n ∉ s.bssId := hnb.imp_right fun hnot hin => hnot (h.perm.mem_iff.mp hin)
  have hat : s'.mem n = some nb := by simp [hmem]
  have hcase : ∀ {x y}, s'.mem x = some y →
      (x = n ∧ y = nb) ∨ (x ≠ n ∧ x ≠ a ∧ s.mem x = some y) := by
    intro x y hx
    simp only [hmem, Function.update_apply] at hx
    split at hx
    · exact .inl ⟨‹_›, (Option.some.inj hx).symm⟩
    · split at hx
      · exact absurd hx (by simp)
      · exact .inr ⟨‹_›, ‹_›, hx⟩
  have hids : ∀ x ∈ s.bssId, idAt s'.mem (if x = a then n else x) = idAt s.mem x := by
    intro x hx
    by_cases hxa : x = a
    · subst hxa
      simp [idAt, hat, hb, hid]
    · have hxn : x ≠ n := by
        rintro rfl
        rcases hnbId with rfl | hnot
        · exact hxa rfl
        · exact hnot hx
      simp [idAt, hmem, hxa, Function.update_of_ne hxn]
  refine ⟨?_, ?_, ?_, ?_, ?_, ?_, ?_, ?_, ?_⟩
  · exact hbss.nodup_iff.mpr (nodup_renameNode h.nodup hnb)
  · rw [hbssId]
    exact (h.perm.map _).trans hbss.symm
  · intro x
    rw [hbss.mem_iff, mem_renameNode, hmem]
    simp only [Function.update_apply]
    by_cases hxn : x = n
    · simp [hxn, h.mem_bss hb]
    · by_cases hxa : x = a
      · have han : a ≠ n := fun han => hxn (hxa.trans han)
        simp [hxa, han]
      · simpa [hxn, hxa] using h.live x
  · rw [hnum, h.count, hbss.length_eq, renameNode, List.length_map]
  · intro x y u v hx hy huv
    rcases hcase hx with ⟨rfl, rfl⟩ | ⟨_, hxa, hxs⟩ <;>
      rcases hcase hy with ⟨rfl, rfl⟩ | ⟨_, hya, hys⟩
    · rfl
    · exact absurd (h.keys a y b v hb hys (hkey.symm.trans huv)).symm hya
    · exact absurd (h.keys x a u b hxs hb (huv.trans hkey)) hxa
    · exact h.keys x y u v hxs hys huv
  · intro hc
    rw [hcreated] at hc
    rw [hbssId, renameNode, List.pairwise_map]
    refine (h.ids hc).imp_of_mem ?_
    intro x y hx hy hlt
    rwa [hids x hx, hids y hy]
  · rw [hnext, hcreated, h.next]
  · intro hc x y hx
    rw [hcreated] at hc ⊢
    rcases hcase hx with ⟨rfl, rfl⟩ | ⟨_, _, hx⟩
    · rw [hid]
      exact h.idsLt hc a b hb
    · exact h.idsLt hc x y hx
  · intro x y hx
    rcases hcase hx with ⟨rfl, rfl⟩ | ⟨_, _, hx⟩
    · exact halloc
    · exact h.alloc x y hx

end Moves

end Hostapd.WpaSupplicant
