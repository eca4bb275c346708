import Hostapd.Common.Defs
import Hostapd.Lib.HashChains
import Hostapd.Lib.Run
import Hostapd.Lib.Linked

/-!
# The table of neighbour access points

`ap_list.c` keeps the access points whose beacons were received: a doubly linked list in order of
the latest beacon, a second one for iterations, and hash chains by the last octet of the BSSID. A
new entry may push the least recently heard one out, and a timer removes those not heard for long.

* **`ApInfo`**, **`Iface`**: an entry, and the table with its counter, over the memory `ap` the
  pointers point into.
* **`NeighbourTable`**: the invariant: both lists and the chains hold the same entries.

What `ieee802_11_set_beacons` and `hostapd_ht_operation_update` make of the two overlap conditions
is theirs; `already_seen` is not read here.
-/

namespace Hostapd.Ap.ApList

open Hostapd.Lib

/-! ## The table -/

/-- Source: `sta_info.h`, `WLAN_SUPP_RATES_MAX`. -/
def wlanSuppRatesMax : ℕ := 32

/-- What a beacon said of an access point. Source: `ap_list.h`, `struct ap_info`. -/
structure ApInfo where
  addr : MacAddr
  beaconInt : BitVec 16
  capability : BitVec 16
  supportedRates : Bytes
  ssid : Bytes
  wpa : Bool
  /-- The ERP information, or -1. -/
  erp : ℤ
  channel : ℤ
  datarate : ℤ
  ssiSignal : ℤ
  htSupport : Bool
  numBeacons : BitVec 32
  lastBeacon : ℤ
  deriving DecidableEq

/-- An entry as `os_zalloc` leaves it. -/
def ApInfo.zero : ApInfo where
  addr := 0
  beaconInt := 0
  capability := 0
  supportedRates := List.replicate wlanSuppRatesMax 0
  ssid := []
  wpa := false
  erp := 0
  channel := 0
  datarate := 0
  ssiSignal := 0
  htSupport := false
  numBeacons := 0
  lastBeacon := 0

/-- Source: `ap_config.h`, `struct hostapd_config`. -/
structure Conf where
  apTableMaxSize : ℤ
  apTableExpirationTime : ℤ
  channel : ℤ
  /-- The current mode is `HOSTAPD_MODE_IEEE80211G`. -/
  modeG : Bool

/-- The table of an interface: `ap` is what an entry's pointer points to, `apList` and `apIterList`
the two lists, `apHash` the chains through `hnext`; `blocks` are the allocations in use, and `now`
is what the clock shows. Source: `hostapd.h`, `struct hostapd_iface`. -/
structure Iface where
  conf : Conf
  ap : ℕ → ApInfo
  apList : Links ℕ
  apIterList : Links ℕ
  apHash : BitVec 8 → List ℕ
  numAp : ℤ
  olbc : Bool
  olbcHt : Bool
  blocks : List ℕ
  now : ℤ

/-- The table of an interface that has just been allocated. -/
def init (conf : Conf) (now : ℤ) : Iface where
  conf := conf
  ap := fun _ => .zero
  apList := .empty
  apIterList := .empty
  apHash := fun _ => []
  numAp := 0
  olbc := false
  olbcHt := false
  blocks := []
  now := now

/-- The last octet of an address. Source: `hostapd.h`, `STA_HASH`. -/
def staHashOf (addr : MacAddr) : BitVec 8 := addr.setWidth 8

/-- The presence of the entry asks for protection. Source: `ap_list_beacon_olbc`. -/
def beaconOlbc (iface : Iface) (ap : ApInfo) : Bool :=
  if iface.conf.modeG = false ∨ iface.conf.channel ≠ ap.channel then false
  else if ap.erp ≠ -1 ∧ ap.erp % 2 = 1 then true
  else !ap.supportedRates.any fun r =>
    let rate := (r &&& 0x7f).toNat * 5
    rate = 60 ∨ rate = 90 ∨ rate > 110

/-- The entry with an address: the first one in its chain. Source: `ap_get_ap`. -/
def getAp (iface : Iface) (addr : MacAddr) : Option ℕ :=
  (iface.apHash (staHashOf addr)).find? fun s => (iface.ap s).addr = addr

/-- Source: `ap_ap_list_add`. -/
def listAdd (iface : Iface) (ap : ℕ) : Iface := { iface with apList := iface.apList.add ap }

/-- Source: `ap_ap_list_del`. -/
def listDel (iface : Iface) (ap : ℕ) : Iface := { iface with apList := iface.apList.del ap }

/-- Source: `ap_ap_iter_list_add`. -/
def iterListAdd (iface : Iface) (ap : ℕ) : Iface :=
  { iface with apIterList := iface.apIterList.add ap }

/-- Source: `ap_ap_iter_list_del`. -/
def iterListDel (iface : Iface) (ap : ℕ) : Iface :=
  { iface with apIterList := iface.apIterList.del ap }

/-- Put an entry at the head of its chain. Source: `ap_ap_hash_add`. -/
def hashAdd (iface : Iface) (ap : ℕ) : Iface :=
  let h := staHashOf (iface.ap ap).addr
  { iface with apHash := Function.update iface.apHash h (ap :: iface.apHash h) }

/-- Unlink the first entry of the chain with the address of `ap`. Source: `ap_ap_hash_del`. -/
def hashDel (iface : Iface) (ap : ℕ) : Iface :=
  let addr := (iface.ap ap).addr
  let h := staHashOf addr
  { iface with
    apHash := Function.update iface.apHash h
      ((iface.apHash h).eraseP fun s => (iface.ap s).addr = addr) }

/-- Source: `ap_free_ap`. -/
def freeAp (iface : Iface) (ap : ℕ) : Iface :=
  let iface := iterListDel (listDel (hashDel iface ap) ap) ap
  { iface with
    numAp := iface.numAp - 1
    blocks := iface.blocks.erase ap }

/-- `os_zalloc` for an entry: `block` is what the allocator offers, never one that is in use; `none`
is a failed allocation. -/
def zallocAp (iface : Iface) (block : Option ℕ) : Option ℕ :=
  block.filter fun a => a ∉ iface.blocks

/-- The block of a new entry, filled in and linked. -/
def linkAp (iface : Iface) (addr : MacAddr) (ap : ℕ) : Iface :=
  let iface := { iface with
    ap := Function.update iface.ap ap { ApInfo.zero with addr := addr }
    blocks := ap :: iface.blocks }
  let iface := listAdd iface ap
  let iface := { iface with numAp := iface.numAp + 1 }
  iterListAdd (hashAdd iface ap) ap

/-- Remove the least recently used entry when the table has grown too large. -/
def makeRoom (iface : Iface) (ap : ℕ) : Iface :=
  match iface.apList.prev ap with
  | none => iface
  | some last =>
    if iface.numAp > iface.conf.apTableMaxSize ∧ ap ≠ last then freeAp iface last else iface

/-- Source: `ap_ap_add`. -/
def addAp (iface : Iface) (addr : MacAddr) (block : Option ℕ) : Option (ℕ × Iface) :=
  match zallocAp iface block with
  | none => none
  | some ap => some (ap, makeRoom (linkAp iface addr ap) ap)

/-! ## Beacons -/

/-- The elements of a beacon. Source: `ieee802_11_common.h`, `struct ieee802_11_elems`. -/
structure Elems where
  ssid : Option Bytes
  suppRates : Option Bytes
  extSuppRates : Option Bytes
  wpaIe : Option Bytes
  erpInfo : Option Bytes
  dsParams : Option Bytes
  htCapabilities : Option Bytes

/-- What the driver said of the frame. Source: `driver.h`, `struct hostapd_frame_info`. -/
structure FrameInfo where
  channel : ℤ
  datarate : ℤ
  ssiSignal : ℤ

/-- A beacon: the header and fixed fields that are read, and the elements. -/
structure Beacon where
  bssid : MacAddr
  beaconInt : BitVec 16
  capabInfo : BitVec 16
  elems : Elems

/-- The rates, then the extended rates, as many as there is space for. -/
def ratesOf (elems : Elems) : Bytes :=
  let supp := (elems.suppRates.getD []).take wlanSuppRatesMax
  let rates := supp ++ (elems.extSuppRates.getD []).take (wlanSuppRatesMax - supp.length)
  rates ++ List.replicate (wlanSuppRatesMax - rates.length) 0

def octetOf : Option Bytes → Option ℤ
  | some [b] => some b.toNat
  | _ => none

/-- What a beacon changes in an entry. Source: `ap_list_process_beacon`. -/
def ApInfo.ofBeacon (ap : ApInfo) (b : Beacon) (fi : Option FrameInfo) (now : ℤ) : ApInfo :=
  { ap with
    beaconInt := b.beaconInt
    capability := b.capabInfo
    ssid := match b.elems.ssid with
      | some ssid => ssid.take 32
      | none => ap.ssid
    supportedRates := ratesOf b.elems
    wpa := b.elems.wpaIe.isSome
    erp := (octetOf b.elems.erpInfo).getD (-1)
    channel := (octetOf b.elems.dsParams).getD (fi.elim ap.channel FrameInfo.channel)
    htSupport := b.elems.htCapabilities.isSome
    numBeacons := ap.numBeacons + 1
    lastBeacon := now
    ssiSignal := fi.elim ap.ssiSignal FrameInfo.ssiSignal
    datarate := fi.elim ap.datarate FrameInfo.datarate }

def record (iface : Iface) (ap : ℕ) (b : Beacon) (fi : Option FrameInfo) : Iface :=
  { iface with ap := Function.update iface.ap ap ((iface.ap ap).ofBeacon b fi iface.now) }

def moveToFront (iface : Iface) (ap : ℕ) : Iface :=
  if iface.apList.head = some ap then iface else listAdd (listDel iface ap) ap

/-- The entry may switch the two overlap conditions on. -/
def detectOlbc (iface : Iface) (ap : ℕ) : Iface :=
  { iface with
    olbc := iface.olbc || beaconOlbc iface (iface.ap ap)
    olbcHt := iface.olbcHt || !(iface.ap ap).htSupport }

/-- Source: `ap_list_process_beacon`. -/
def processBeacon (iface : Iface) (b : Beacon) (fi : Option FrameInfo) (block : Option ℕ) :
    Iface :=
  if iface.conf.apTableMaxSize < 1 then iface
  else
    match getAp iface b.bssid with
    | some ap => detectOlbc (moveToFront (record iface ap b fi) ap) ap
    | none =>
      match addAp iface b.bssid block with
      | none => iface
      | some (ap, iface) => detectOlbc (record iface ap b fi) ap

/-! ## The timer -/

/-- Remove entries from the end of the list, as long as they are too old. Source:
`ap_list_timer`. -/
def expireLoop : ℕ → Iface → Iface
  | 0, iface => iface
  | n + 1, iface =>
    match iface.apList.head.bind iface.apList.prev with
    | none => iface
    | some ap =>
      if (iface.ap ap).lastBeacon + iface.conf.apTableExpirationTime ≥ iface.now then iface
      else expireLoop n (freeAp iface ap)

/-- The conditions the entries from `ap` on ask for; the walk stops when it has found both. -/
def olbcLoop (iface : Iface) : ℕ → Option ℕ → Bool × Bool → Bool × Bool
  | 0, _, found => found
  | _, none, found => found
  | n + 1, some ap, (olbc, olbcHt) =>
    if olbc && olbcHt then (olbc, olbcHt)
    else olbcLoop iface n (iface.apList.next ap)
      (olbc || beaconOlbc iface (iface.ap ap), olbcHt || !(iface.ap ap).htSupport)

/-- Switch off the overlap conditions that no entry asks for. -/
def clearOlbc (iface : Iface) : Iface :=
  if iface.olbc || iface.olbcHt then
    let (olbc, olbcHt) := olbcLoop iface iface.blocks.length iface.apList.head (false, false)
    { iface with
      olbc := iface.olbc && olbc
      olbcHt := iface.olbcHt && olbcHt }
  else iface

/-- Source: `ap_list_timer`. -/
def listTimer (iface : Iface) : Iface :=
  if iface.apList.head = none then iface
  else clearOlbc (expireLoop iface.blocks.length iface)

/-! ## Runs -/

/-- What happens to the table, each some seconds after the last. -/
inductive Op
  | beacon (elapsed : ℕ) (b : Beacon) (fi : Option FrameInfo) (block : Option ℕ)
  | timer (elapsed : ℕ)

def tick (iface : Iface) (elapsed : ℕ) : Iface := { iface with now := iface.now + elapsed }

def step (iface : Iface) : Op → Iface
  | .beacon elapsed b fi block => processBeacon (tick iface elapsed) b fi block
  | .timer elapsed => listTimer (tick iface elapsed)

/-! ## The invariant -/

/-- Source: `struct ap_info`, `addr`. -/
def addrOf (iface : Iface) (ap : ℕ) : MacAddr := (iface.ap ap).addr

/-- The main list holds `l`; the other list, the chains and the allocations hold the same entries,
whose addresses are distinct, and the counter is their number. -/
structure NeighbourTable (iface : Iface) (l : List ℕ) : Prop where
  main : iface.apList.Holds l
  iter : ∃ li, iface.apIterList.Holds li ∧ li.Perm l
  chained : Chained staHashOf (addrOf iface) iface.apHash l
  count : iface.numAp = l.length
  blocks : iface.blocks.Perm l

theorem neighbourTable_init (conf : Conf) (now : ℤ) : NeighbourTable (init conf now) [] where
  main := Links.holds_empty
  iter := ⟨[], Links.holds_empty, .nil⟩
  chained := chained_nil _ _
  count := rfl
  blocks := .nil

namespace NeighbourTable

variable {iface : Iface} {l : List ℕ} {ap : ℕ}

theorem congr (h : NeighbourTable iface l) {iface' : Iface} (hlist : iface'.apList = iface.apList)
    (hiter : iface'.apIterList = iface.apIterList) (hhash : iface'.apHash = iface.apHash)
    (hnum : iface'.numAp = iface.numAp) (hblocks : iface'.blocks = iface.blocks)
    (haddr : addrOf iface' = addrOf iface) : NeighbourTable iface' l where
  main := hlist ▸ h.main
  iter := hiter ▸ h.iter
  chained := by
    rw [hhash, haddr]
    exact h.chained
  count := hnum ▸ h.count
  blocks := hblocks ▸ h.blocks

theorem tick (h : NeighbourTable iface l) (elapsed : ℕ) :
    NeighbourTable (tick iface elapsed) l := h.congr rfl rfl rfl rfl rfl rfl

theorem linkAp (h : NeighbourTable iface l) {addr : MacAddr} (hfresh : ap ∉ iface.blocks)
    (hnew : ∀ s ∈ l, addrOf iface s ≠ addr) :
    NeighbourTable (linkAp iface addr ap) (ap :: l) := by
  have hap : ap ∉ l := fun hmem => hfresh (h.blocks.mem_iff.mpr hmem)
  have hself : addrOf (ApList.linkAp iface addr ap) ap = addr := by
    simp [addrOf, ApList.linkAp, iterListAdd, hashAdd, listAdd]
  have hold : ∀ s ∈ l, addrOf (ApList.linkAp iface addr ap) s = addrOf iface s := by
    intro s hs
    have hne : s ≠ ap := fun heq => hap (heq ▸ hs)
    simp [addrOf, ApList.linkAp, iterListAdd, hashAdd, listAdd, Function.update_of_ne hne]
  obtain ⟨li, hli, hperm⟩ := h.iter
  refine ⟨h.main.add hap, ⟨ap :: li, hli.add fun hmem => hap (hperm.mem_iff.mp hmem),
    hperm.cons ap⟩, ?_, ?_, h.blocks.cons ap⟩
  · refine (h.chained.congr hold).cons hap fun s hs => ?_
    rw [hold s hs, hself]
    exact hnew s hs
  · show iface.numAp + 1 = ((ap :: l).length : ℤ)
    rw [h.count, List.length_cons, Nat.cast_succ]

theorem freeAp (h : NeighbourTable iface l) (hap : ap ∈ l) :
    NeighbourTable (freeAp iface ap) (l.erase ap) := by
  obtain ⟨li, hli, hperm⟩ := h.iter
  refine ⟨h.main.del hap, ⟨li.erase ap, hli.del (hperm.mem_iff.mpr hap), hperm.erase ap⟩,
    h.chained.erase h.main.nodup hap, ?_, h.blocks.erase ap⟩
  show iface.numAp - 1 = ((l.erase ap).length : ℤ)
  have hpos := List.length_pos_of_mem hap
  rw [h.count, List.length_erase_of_mem hap, Nat.cast_sub hpos]
  rfl

theorem freeAp_last (h : NeighbourTable iface (l ++ [ap])) :
    NeighbourTable (ApList.freeAp iface ap) l := by
  have hnot : ap ∉ l := fun hmem => by
    have hnd := h.main.nodup
    rw [List.nodup_append] at hnd
    exact hnd.2.2 ap hmem ap (by simp) rfl
  have hmem : ap ∈ l ++ [ap] := by simp
  have hfree := h.freeAp hmem
  rwa [List.erase_append_right _ hnot, List.erase_cons_head, List.append_nil] at hfree

theorem makeRoom (h : NeighbourTable iface (ap :: l)) (hmax : 1 ≤ iface.conf.apTableMaxSize) :
    NeighbourTable (makeRoom iface ap)
      (if iface.numAp > iface.conf.apTableMaxSize then ap :: l.dropLast else ap :: l) := by
  have hprev := h.main.prev_head
  have hnum := h.count
  rw [ApList.makeRoom, hprev]
  rcases List.eq_nil_or_concat l with rfl | ⟨l, last, rfl⟩
  · have hlen : ¬ iface.numAp > iface.conf.apTableMaxSize := by
      rw [hnum]
      simpa using hmax
    simpa [hlen] using h
  · have hne : ap ≠ last := by
      rintro rfl
      simpa using h.main.nodup
    rw [List.concat_eq_append, ← List.cons_append] at h
    rw [List.concat_eq_append, List.dropLast_concat, ← List.cons_append, List.getLast?_concat]
    by_cases hover : iface.numAp > iface.conf.apTableMaxSize
    · simpa [hover, hne] using h.freeAp_last
    · simpa [hover] using h

theorem record (h : NeighbourTable iface l) (ap : ℕ) (b : Beacon) (fi : Option FrameInfo) :
    NeighbourTable (record iface ap b fi) l := by
  refine h.congr rfl rfl rfl rfl rfl (funext fun s => ?_)
  by_cases hs : s = ap
  · simp [addrOf, ApList.record, hs, ApInfo.ofBeacon]
  · simp [addrOf, ApList.record, Function.update_of_ne hs]

theorem moveToFront (h : NeighbourTable iface l) (hap : ap ∈ l) :
    NeighbourTable (moveToFront iface ap) (ap :: l.erase ap) := by
  rw [ApList.moveToFront]
  split
  · next hhead =>
    rw [h.main.head] at hhead
    obtain ⟨l', rfl⟩ := List.head?_eq_some_iff.mp hhead
    rwa [List.erase_cons_head]
  · have hperm := List.perm_cons_erase hap
    obtain ⟨li, hli, hli'⟩ := h.iter
    refine ⟨(h.main.del hap).add h.main.nodup.not_mem_erase, ⟨li, hli, hli'.trans hperm⟩,
      h.chained.perm hperm.symm, ?_, h.blocks.trans hperm⟩
    rw [← hperm.length_eq]
    exact h.count

theorem detectOlbc (h : NeighbourTable iface l) (ap : ℕ) : NeighbourTable (detectOlbc iface ap) l :=
  h.congr rfl rfl rfl rfl rfl rfl

theorem clearOlbc (h : NeighbourTable iface l) : NeighbourTable (clearOlbc iface) l := by
  rw [ApList.clearOlbc]
  split
  · exact h.congr rfl rfl rfl rfl rfl rfl
  · exact h

end NeighbourTable

end Hostapd.Ap.ApList
