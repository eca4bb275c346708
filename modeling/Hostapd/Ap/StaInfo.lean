import Hostapd.Common.Defs
import Hostapd.Lib.Bitmap
import Hostapd.Lib.HashChains
import Hostapd.Lib.Run

/-!
# The station table

The stations of a BSS: `sta_info.c` keeps each one in a list and in a hash chain by the last octet
of its address, counts them, and `hostapd_get_aid` of `ieee802_11.c` hands out association
identifiers from a bitmap.

* **`HostapdData`**: both linkages by pointer, over the memory `sta` the pointers point into, with
  the counter and the bitmap.
* **Operations**: `getSta`, `staAdd`, `getAid`, `freeSta` with `staHashDel`, which unlinks by
  address, and `staListDel`, which unlinks by pointer.
* **`StationTable`**: the invariant of the table. **`run_stationTable`**: it holds after every
  sequence of operations, and an identifier is refused only when all of them are held.

What `ap_free_sta` does to the driver, to accounting, to the beacon and to the station's other
state machines is theirs, and is not part of the table.
-/

namespace Hostapd.Ap.Sta

open Hostapd.Lib

/-- The largest association identifier. Source: `sta_info.h`, `struct sta_info`, `aid`. -/
def maxAid : ℕ := 2007

/-- Source: `hostapd.h`, `AID_WORDS`. -/
def aidWords : ℕ := (2008 + 31) / 32

/-- The configured bound on the table, in the range that the parser of the configuration accepts.
Source: `config_file.c`, `max_num_sta`. -/
structure MaxNumSta where
  value : ℤ
  nonneg : 0 ≤ value
  le_count : value ≤ 2007

/-- What the table reads of a station. Source: `sta_info.h`, `struct sta_info`. -/
structure StaInfo where
  addr : MacAddr
  aid : ℕ
  deriving DecidableEq

/-- The table of a BSS: `sta` is what a station pointer points to, `staList` the list through
`next`, `staHash` the chains through `hnext`. Source: `hostapd.h`, `struct hostapd_data`. -/
structure HostapdData where
  maxNumSta : MaxNumSta
  sta : ℕ → StaInfo
  staList : List ℕ
  staHash : BitVec 8 → List ℕ
  numSta : ℤ
  staAid : Bitmap aidWords 32

/-- The last octet of an address. Source: `hostapd.h`, `STA_HASH`. -/
def staHashOf (addr : MacAddr) : BitVec 8 := addr.setWidth 8

/-- The table of a BSS that has just been allocated. -/
def init (maxNumSta : MaxNumSta) : HostapdData where
  maxNumSta := maxNumSta
  sta := fun _ => ⟨0, 0⟩
  staList := []
  staHash := fun _ => []
  numSta := 0
  staAid := fun _ => 0

/-- The station with an address: the first one in its chain. Source: `ap_get_sta`. -/
def getSta (hapd : HostapdData) (addr : MacAddr) : Option ℕ :=
  (hapd.staHash (staHashOf addr)).find? fun s => (hapd.sta s).addr = addr

/-- Unlink a pointer from the list. Source: `ap_sta_list_del`. -/
def staListDel (hapd : HostapdData) (sta : ℕ) : HostapdData :=
  { hapd with staList := hapd.staList.erase sta }

/-- Put a station at the head of its chain. Source: `ap_sta_hash_add`. -/
def staHashAdd (hapd : HostapdData) (sta : ℕ) : HostapdData :=
  let h := staHashOf (hapd.sta sta).addr
  { hapd with staHash := Function.update hapd.staHash h (sta :: hapd.staHash h) }

/-- Unlink the first station of the chain with the address of `sta`.
Source: `ap_sta_hash_del`. -/
def staHashDel (hapd : HostapdData) (sta : ℕ) : HostapdData :=
  let addr := (hapd.sta sta).addr
  let h := staHashOf addr
  { hapd with
    staHash := Function.update hapd.staHash h
      ((hapd.staHash h).eraseP fun s => (hapd.sta s).addr = addr) }

/-- Remove a station: unlink it from both, clear the bit of its identifier and count it off.
Source: `ap_free_sta`. -/
def freeSta (hapd : HostapdData) (sta : ℕ) : HostapdData :=
  let hapd := staListDel (staHashDel hapd sta) sta
  let aid := (hapd.sta sta).aid
  { hapd with
    staAid := if aid > 0 then hapd.staAid.clear (aid - 1) else hapd.staAid
    numSta := hapd.numSta - 1 }

/-- `os_zalloc` for a station: `block` is what the allocator offers, never one that is in use;
`none` is a failed allocation. -/
def zallocSta (hapd : HostapdData) (block : Option ℕ) : Option ℕ :=
  block.filter fun a => a ∉ hapd.staList

/-- Fill in the block of a new station and link it. -/
def linkSta (hapd : HostapdData) (addr : MacAddr) (sta : ℕ) : HostapdData :=
  staHashAdd { hapd with
    sta := Function.update hapd.sta sta ⟨addr, 0⟩
    staList := sta :: hapd.staList
    numSta := hapd.numSta + 1 } sta

/-- Look up a station and add it when it is new and there is room. Source: `ap_sta_add`. -/
def staAdd (hapd : HostapdData) (addr : MacAddr) (block : Option ℕ) : Option ℕ × HostapdData :=
  match getSta hapd addr with
  | some sta => (some sta, hapd)
  | none =>
    if hapd.numSta ≥ hapd.maxNumSta.value then (none, hapd)
    else
      match zallocSta hapd block with
      | none => (none, hapd)
      | some sta => (some sta, linkSta hapd addr sta)

/-- Give a station an identifier and mark it in the bitmap. -/
def setAid (hapd : HostapdData) (sta aid : ℕ) : HostapdData :=
  { hapd with
    sta := Function.update hapd.sta sta { hapd.sta sta with aid := aid }
    staAid := hapd.staAid.set (aid - 1) }

/-- Give a station an identifier, unless it has one: the first clear bit of the first word that
is not all ones; `false` is `-1`. Source: `ieee802_11.c`, `hostapd_get_aid`. -/
def getAid (hapd : HostapdData) (sta : ℕ) : Bool × HostapdData :=
  if (hapd.sta sta).aid > 0 then (true, hapd)
  else
    match hapd.staAid.firstFree with
    | none => (false, hapd)
    | some (i, j) =>
      let aid := (i : ℕ) * 32 + j + 1
      if aid > maxAid then (false, hapd)
      else (true, setAid hapd sta aid)

/-- The operations on the table. The two that take a pointer are called with a station of the
table. -/
inductive Op
  | staAdd (addr : MacAddr) (block : Option ℕ)
  | getAid (sta : ℕ)
  | freeSta (sta : ℕ)

def step (hapd : HostapdData) : Op → HostapdData
  | .staAdd addr block => (staAdd hapd addr block).2
  | .getAid sta => if sta ∈ hapd.staList then (getAid hapd sta).2 else hapd
  | .freeSta sta => if sta ∈ hapd.staList then freeSta hapd sta else hapd

/-! ## The invariant -/

/-- The identifier is held by a station of the table. -/
def AidHeld (hapd : HostapdData) (aid : ℕ) : Prop :=
  ∃ sta ∈ hapd.staList, (hapd.sta sta).aid = aid

/-- The station table: the list and the chains hold the same stations, each once and in the chain
of its address; addresses are pairwise distinct; the counter is the length and within its bound;
identifiers are in range and held once, and the bitmap marks those that are held. -/
structure StationTable (hapd : HostapdData) : Prop where
  nodup : hapd.staList.Nodup
  chain_nodup : ∀ h, (hapd.staHash h).Nodup
  mem_chain : ∀ h sta, sta ∈ hapd.staHash h ↔
    sta ∈ hapd.staList ∧ staHashOf (hapd.sta sta).addr = h
  addr_inj : ∀ sta ∈ hapd.staList, ∀ sta' ∈ hapd.staList,
    (hapd.sta sta).addr = (hapd.sta sta').addr → sta = sta'
  count : hapd.numSta = hapd.staList.length
  room : hapd.numSta ≤ hapd.maxNumSta.value
  aid_le : ∀ sta ∈ hapd.staList, (hapd.sta sta).aid ≤ maxAid
  aid_inj : ∀ sta ∈ hapd.staList, ∀ sta' ∈ hapd.staList, (hapd.sta sta).aid ≠ 0 →
    (hapd.sta sta).aid = (hapd.sta sta').aid → sta = sta'
  bit : ∀ k < aidWords * 32, hapd.staAid.test k = true ↔ AidHeld hapd (k + 1)

theorem stationTable_init (maxNumSta : MaxNumSta) : StationTable (init maxNumSta) where
  nodup := List.nodup_nil
  chain_nodup := fun _ => List.nodup_nil
  mem_chain := by simp [init]
  addr_inj := by simp [init]
  count := rfl
  room := maxNumSta.nonneg
  aid_le := by simp [init]
  aid_inj := by simp [init]
  bit := by simp [init, AidHeld, Bitmap.test]

variable {hapd : HostapdData}

theorem StationTable.chained (h : StationTable hapd) :
    Chained staHashOf (fun s => (hapd.sta s).addr) hapd.staHash hapd.staList :=
  ⟨h.chain_nodup, h.mem_chain, h.addr_inj⟩

/-! ### Adding a station -/

section Link

variable (hapd : HostapdData) (addr : MacAddr) (sta : ℕ)

@[simp] theorem linkSta_sta_self : (linkSta hapd addr sta).sta sta = ⟨addr, 0⟩ :=
  Function.update_self _ _ _

theorem linkSta_sta_of_ne {s : ℕ} (hs : s ≠ sta) : (linkSta hapd addr sta).sta s = hapd.sta s :=
  Function.update_of_ne hs _ _

theorem linkSta_staHash : (linkSta hapd addr sta).staHash =
    Function.update hapd.staHash (staHashOf addr) (sta :: hapd.staHash (staHashOf addr)) := by
  unfold linkSta staHashAdd
  simp only [Function.update_self]

end Link

variable {sta : ℕ}

theorem StationTable.linkSta (h : StationTable hapd) {addr : MacAddr}
    (hnew : ∀ s ∈ hapd.staList, (hapd.sta s).addr ≠ addr) (hfresh : sta ∉ hapd.staList)
    (hroom : hapd.numSta < hapd.maxNumSta.value) : StationTable (linkSta hapd addr sta) := by
  have hold : ∀ s ∈ hapd.staList, (Sta.linkSta hapd addr sta).sta s = hapd.sta s := fun s hs =>
    linkSta_sta_of_ne hapd addr sta fun heq => hfresh (heq ▸ hs)
  have hself : ((Sta.linkSta hapd addr sta).sta sta).addr = addr := by rw [linkSta_sta_self]
  have hchained : Chained staHashOf (fun s => ((Sta.linkSta hapd addr sta).sta s).addr)
      (Sta.linkSta hapd addr sta).staHash (sta :: hapd.staList) := by
    have hcons := (h.chained.congr fun s hs => congrArg StaInfo.addr (hold s hs)).cons hfresh
      fun s hs => by
        rw [hold s hs, hself]
        exact hnew s hs
    rw [linkSta_staHash]
    simpa only [hself] using hcons
  constructor
  case nodup => exact List.nodup_cons.mpr ⟨hfresh, h.nodup⟩
  case chain_nodup => exact hchained.nodup
  case mem_chain => exact hchained.mem
  case addr_inj => exact hchained.inj
  case count =>
    show hapd.numSta + 1 = ((sta :: hapd.staList).length : ℤ)
    rw [h.count, List.length_cons]
    push_cast
    rfl
  case room => exact hroom
  case aid_le =>
    intro s hs
    rcases List.mem_cons.mp hs with rfl | hs
    · rw [linkSta_sta_self]
      exact Nat.zero_le _
    · rw [hold s hs]
      exact h.aid_le s hs
  case aid_inj =>
    intro s hs s' hs' hne haid
    rcases List.mem_cons.mp hs with rfl | hs
    · rw [linkSta_sta_self] at hne
      exact absurd rfl hne
    · rw [hold s hs] at hne haid
      rcases List.mem_cons.mp hs' with rfl | hs'
      · rw [linkSta_sta_self] at haid
        exact absurd haid hne
      · rw [hold s' hs'] at haid
        exact h.aid_inj s hs s' hs' hne haid
  case bit =>
    intro k hk
    refine (h.bit k hk).trans ⟨?_, ?_⟩
    · rintro ⟨s, hs, haid⟩
      exact ⟨s, List.mem_cons_of_mem sta hs, by rw [hold s hs, haid]⟩
    · rintro ⟨s, hs, haid⟩
      rcases List.mem_cons.mp hs with rfl | hs
      · rw [linkSta_sta_self] at haid
        cases haid
      · rw [hold s hs] at haid
        exact ⟨s, hs, haid⟩

theorem StationTable.staAdd (h : StationTable hapd) (addr : MacAddr)
    (block : Option ℕ) : StationTable (staAdd hapd addr block).2 := by
  unfold Sta.staAdd
  split
  · exact h
  next hnone =>
    split
    · exact h
    next hroom =>
      split
      · exact h
      next sta hsta =>
        refine h.linkSta (h.chained.find_eq_none hnone) ?_ (not_le.mp hroom)
        obtain ⟨-, hfresh⟩ := Option.filter_eq_some_iff.mp hsta
        simpa using hfresh

/-! ### Handing out identifiers -/

theorem StationTable.aid_refused (h : StationTable hapd)
    (hrefused : (getAid hapd sta).1 = false) : ∀ aid, 1 ≤ aid → aid ≤ maxAid → AidHeld hapd aid := by
  intro aid hpos hle
  have hlt : aid - 1 < aidWords * 32 := by
    unfold maxAid at hle
    unfold aidWords
    omega
  have hset : hapd.staAid.test (aid - 1) = true := by
    unfold getAid at hrefused
    split at hrefused
    · cases hrefused
    · split at hrefused
      next hfull => exact Bitmap.firstFree_eq_none hfull hlt
      next i j hscan =>
        simp only at hrefused
        split at hrefused
        next hbig =>
          refine (Bitmap.firstFree_spec hscan).2 _ ?_
          omega
        · cases hrefused
  have hheld := (h.bit _ hlt).mp hset
  rwa [Nat.sub_add_cancel hpos] at hheld

theorem StationTable.setAid (h : StationTable hapd) {sta aid : ℕ}
    (hsta : sta ∈ hapd.staList) (hnone : (hapd.sta sta).aid = 0) (hpos : 0 < aid)
    (hle : aid ≤ maxAid) (hfree : ¬ AidHeld hapd aid) : StationTable (setAid hapd sta aid) := by
  have hself : (Sta.setAid hapd sta aid).sta sta = ⟨(hapd.sta sta).addr, aid⟩ :=
    Function.update_self _ _ _
  have hother : ∀ s, s ≠ sta → (Sta.setAid hapd sta aid).sta s = hapd.sta s := fun s hs =>
    Function.update_of_ne hs _ _
  have haddr : ∀ s, ((Sta.setAid hapd sta aid).sta s).addr = (hapd.sta s).addr := by
    intro s
    by_cases hs : s = sta
    · subst hs
      rw [hself]
    · rw [hother s hs]
  have hlt : aid - 1 < aidWords * 32 := by
    unfold maxAid at hle
    unfold aidWords
    omega
  constructor
  case nodup => exact h.nodup
  case chain_nodup => exact h.chain_nodup
  case mem_chain =>
    intro k s
    rw [haddr]
    exact h.mem_chain k s
  case addr_inj =>
    intro s hs s' hs' heq
    rw [haddr, haddr] at heq
    exact h.addr_inj s hs s' hs' heq
  case count => exact h.count
  case room => exact h.room
  case aid_le =>
    intro s hs
    by_cases hss : s = sta
    · subst hss
      rw [hself]
      exact hle
    · rw [hother s hss]
      exact h.aid_le s hs
  case aid_inj =>
    intro s hs s' hs' hne heq
    by_cases hss : s = sta <;> by_cases hss' : s' = sta
    · rw [hss, hss']
    · subst hss
      rw [hself, hother s' hss'] at heq
      exact absurd ⟨s', hs', heq.symm⟩ hfree
    · subst hss'
      rw [hself, hother s hss] at heq
      exact absurd ⟨s, hs, heq⟩ hfree
    · rw [hother s hss] at hne
      rw [hother s hss, hother s' hss'] at heq
      exact h.aid_inj s hs s' hs' hne heq
  case bit =>
    intro k hk
    show (hapd.staAid.set (aid - 1)).test k = true ↔ _
    rw [Bitmap.test_set _ hlt, Bool.or_eq_true, decide_eq_true_eq, h.bit k hk]
    constructor
    · rintro (rfl | ⟨s, hs, heq⟩)
      · exact ⟨sta, hsta, by rw [hself]; exact (Nat.sub_add_cancel hpos).symm⟩
      · have hne : s ≠ sta := by
          rintro rfl
          rw [hnone] at heq
          cases heq
        exact ⟨s, hs, by rw [hother s hne, heq]⟩
    · rintro ⟨s, hs, heq⟩
      by_cases hss : s = sta
      · subst hss
        rw [hself] at heq
        exact Or.inl (by simp only at heq; omega)
      · rw [hother s hss] at heq
        exact Or.inr ⟨s, hs, heq⟩

theorem StationTable.getAid (h : StationTable hapd)
    (hsta : sta ∈ hapd.staList) : StationTable (getAid hapd sta).2 := by
  unfold Sta.getAid
  split
  · exact h
  next hzero =>
    split
    · exact h
    next i j hscan =>
      simp only
      split
      · exact h
      next hle =>
        obtain ⟨hclear, -⟩ := Bitmap.firstFree_spec hscan
        have hlt : (i : ℕ) * 32 + j < aidWords * 32 := by
          have hi := i.isLt
          have hj := j.isLt
          omega
        have hfree : ¬ AidHeld hapd (i * 32 + j + 1) := fun hheld => by
          rw [(h.bit _ hlt).mpr hheld] at hclear
          cases hclear
        exact h.setAid hsta (by omega) (by omega) (by omega) hfree

/-! ### Removing a station -/

section Free

variable (hapd : HostapdData) (sta : ℕ)

@[simp] theorem freeSta_sta : (freeSta hapd sta).sta = hapd.sta := rfl

theorem freeSta_staAid : (freeSta hapd sta).staAid =
    if (hapd.sta sta).aid > 0 then hapd.staAid.clear ((hapd.sta sta).aid - 1) else hapd.staAid :=
  rfl

end Free

theorem StationTable.freeSta (h : StationTable hapd)
    (hsta : sta ∈ hapd.staList) : StationTable (freeSta hapd sta) := by
  have hmem : ∀ s, s ∈ hapd.staList.erase sta ↔ s ≠ sta ∧ s ∈ hapd.staList := fun s =>
    h.nodup.mem_erase_iff
  have hheld : ∀ k, AidHeld (Sta.freeSta hapd sta) (k + 1) ↔
      AidHeld hapd (k + 1) ∧ (hapd.sta sta).aid ≠ k + 1 := by
    intro k
    constructor
    · rintro ⟨s, hs, haid⟩
      obtain ⟨hne, hs⟩ := (hmem s).mp hs
      rw [freeSta_sta] at haid
      refine ⟨⟨s, hs, haid⟩, fun heq => hne ?_⟩
      exact h.aid_inj s hs sta hsta (by omega) (haid.trans heq.symm)
    · rintro ⟨⟨s, hs, haid⟩, hne⟩
      refine ⟨s, (hmem s).mpr ⟨?_, hs⟩, haid⟩
      rintro rfl
      exact hne haid
  have hchained := h.chained.erase h.nodup hsta
  constructor
  case nodup => exact h.nodup.erase sta
  case chain_nodup => exact hchained.nodup
  case mem_chain => exact hchained.mem
  case addr_inj => exact hchained.inj
  case count =>
    show hapd.numSta - 1 = ((hapd.staList.erase sta).length : ℤ)
    have hlen := List.length_erase_of_mem hsta
    have hpos := List.length_pos_of_mem hsta
    rw [h.count, hlen]
    omega
  case room =>
    show hapd.numSta - 1 ≤ hapd.maxNumSta.value
    have := h.room
    omega
  case aid_le => exact fun s hs => h.aid_le s ((hmem s).mp hs).2
  case aid_inj =>
    intro s hs s' hs' hne heq
    exact h.aid_inj s ((hmem s).mp hs).2 s' ((hmem s').mp hs').2 hne heq
  case bit =>
    intro k hk
    rw [hheld, freeSta_staAid, ← h.bit k hk]
    split
    next hpos =>
      have hlt : (hapd.sta sta).aid - 1 < aidWords * 32 := by
        have hle := h.aid_le sta hsta
        unfold maxAid at hle
        unfold aidWords
        omega
      rw [Bitmap.test_clear _ hlt, Bool.and_eq_true, Bool.not_eq_true', decide_eq_false_iff_not,
        and_comm]
      refine and_congr_right fun _ => not_congr ?_
      omega
    next hzero =>
      refine (and_iff_left ?_).symm
      omega

/-! ## Runs -/

theorem step_stationTable (h : StationTable hapd) (op : Op) :
    StationTable (step hapd op) := by
  cases op with
  | staAdd addr block => exact h.staAdd addr block
  | getAid sta =>
    by_cases hsta : sta ∈ hapd.staList
    · simpa only [step, if_pos hsta] using h.getAid hsta
    · simpa only [step, if_neg hsta] using h
  | freeSta sta =>
    by_cases hsta : sta ∈ hapd.staList
    · simpa only [step, if_pos hsta] using h.freeSta hsta
    · simpa only [step, if_neg hsta] using h

/-- After every sequence of operations the station table is consistent, and a station of it is
refused an identifier only when all of them are held. -/
theorem run_stationTable (maxNumSta : MaxNumSta) (ops : List Op) :
    StationTable (run step (init maxNumSta) ops) ∧
      ∀ sta ∈ (run step (init maxNumSta) ops).staList,
        (getAid (run step (init maxNumSta) ops) sta).1 = false →
          ∀ aid, 1 ≤ aid → aid ≤ maxAid → AidHeld (run step (init maxNumSta) ops) aid := by
  have htable : StationTable (run step (init maxNumSta) ops) :=
    run_inv (I := StationTable) (fun _ op h => step_stationTable h op)
      (stationTable_init maxNumSta) ops
  exact ⟨htable, fun sta _ hrefused => htable.aid_refused hrefused⟩

end Hostapd.Ap.Sta
