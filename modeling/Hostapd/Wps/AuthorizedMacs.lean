import Hostapd.Lib.Recent
import Hostapd.Wps.Pbc

/-!
# The list of authorized addresses

`wps_registrar.c`: `wps_registrar_add_authorized_mac`, `wps_registrar_remove_authorized_mac` and
`wps_authorized_macs`.

The list is a table of five cells, the latest address in front and all-zero cells behind. The search
of `wps_registrar_remove_authorized_mac` compares the first cell five times, where that of
`wps_registrar_add_authorized_mac` compares one cell after the other: an address that is not the
first of the list is never removed.

* **`addAuthorizedMacLoops_eq`**, **`removeAuthorizedMacLoops_eq`**: what the loops do to the table.
* **`asClaimed_iff`**: what one call has to meet for the list to be the latest addresses.
* **`authorized_macs_iff`**: the same of every run of calls.
-/

namespace Hostapd.Wps.Registrar

open Hostapd.Lib Hostapd.Utils.Eloop

/-! ## The loops -/

def zeroMac : Bytes := List.replicate ethAlen 0

/-- Source: `wps_registrar_add_authorized_mac`: a search over all cells, and the cells moved down.
-/
def addAuthorizedMacLoops (macs : List Bytes) (addr : Bytes) : List Bytes :=
  if (List.range maxAuthorizedMacs).any fun i => macs[i]? = some addr then macs
  else (shiftDown zeroMac (maxAuthorizedMacs - 1) macs).set 0 addr

/-- Source: `wps_registrar_remove_authorized_mac`: each round of the search compares
`reg->authorized_macs`, which is the first cell, and not the cell `i`. -/
def removeAuthorizedMacLoops (macs : List Bytes) (addr : Bytes) : List Bytes :=
  let i := (List.range maxAuthorizedMacs).findIdx fun _ => macs[0]? = some addr
  if i = maxAuthorizedMacs then macs
  else (shiftUp zeroMac (maxAuthorizedMacs - 1 - i) i macs).set (maxAuthorizedMacs - 1) zeroMac

/-- The addresses that go into the AuthorizedMACs subelement, up to the first all-zero cell.
Source: `wps_authorized_macs`. -/
def wpsAuthorizedMacs (reg : Registrar) : List Bytes :=
  let count := (reg.authorizedMacsUnion.take maxAuthorizedMacs).findIdx isZeroEtherAddr
  reg.authorizedMacsUnion.take count

theorem addAuthorizedMacLoops_eq {macs : List Bytes} (h : macs.length = maxAuthorizedMacs)
    (addr : Bytes) :
    addAuthorizedMacLoops macs addr =
      if addr ∈ macs then macs else (addr :: macs).take maxAuthorizedMacs := by
  have hsearch : ((List.range maxAuthorizedMacs).any fun i => macs[i]? = some addr) ↔
      addr ∈ macs := by
    rw [List.any_eq_true, List.mem_iff_getElem?]
    constructor
    · rintro ⟨i, -, hi⟩
      exact ⟨i, of_decide_eq_true hi⟩
    · rintro ⟨i, hi⟩
      obtain ⟨hlt, -⟩ := List.getElem?_eq_some_iff.mp hi
      exact ⟨i, List.mem_range.mpr (h ▸ hlt), decide_eq_true hi⟩
  rw [addAuthorizedMacLoops]
  by_cases hmem : addr ∈ macs
  · rw [if_pos hmem, if_pos (hsearch.mpr hmem)]
  · rw [if_neg hmem, if_neg fun hany => hmem (hsearch.mp hany)]
    exact set_shiftDown zeroMac addr h

theorem removeAuthorizedMacLoops_eq {macs : List Bytes} (h : macs.length = maxAuthorizedMacs)
    (addr : Bytes) :
    removeAuthorizedMacLoops macs addr =
      if macs.head? = some addr then macs.tail ++ [zeroMac] else macs := by
  rw [removeAuthorizedMacLoops, List.head?_eq_getElem?]
  by_cases hfirst : macs[0]? = some addr
  · have hsearch : ((List.range maxAuthorizedMacs).findIdx fun _ => macs[0]? = some addr) = 0 := by
      simp only [hfirst]
      rfl
    have hmoved := set_shiftUp zeroMac (i := 0) (k := maxAuthorizedMacs - 1) h
    rw [Nat.zero_add] at hmoved
    rw [if_pos hfirst, hsearch, if_neg (by decide), Nat.sub_zero, hmoved, List.eraseIdx_zero]
  · have hsearch : ((List.range maxAuthorizedMacs).findIdx fun _ => macs[0]? = some addr) =
        maxAuthorizedMacs := by
      simp only [hfirst]
      rfl
    rw [if_neg hfirst, hsearch, if_pos rfl]

/-! ## Calls -/

abbrev EtherAddr := {addr : Bytes // addr.length = ethAlen}

inductive Call
  | add (addr : EtherAddr)
  | remove (addr : EtherAddr)
  deriving DecidableEq

def Call.onTable (macs : List Bytes) : Call → List Bytes
  | .add addr => addAuthorizedMacLoops macs addr
  | .remove addr => removeAuthorizedMacLoops macs addr

/-- A call, and `wps_registrar_selected_registrar_changed`, as every caller goes on. -/
def Call.apply (reg : Registrar) (c : Call) : Registrar :=
  selectedRegistrarChanged { reg with authorizedMacs := c.onTable reg.authorizedMacs }

/-- A Registrar with the addresses that were added and not removed, the latest in front; the oldest
of six is pushed out. -/
structure Tracked where
  reg : Registrar
  recent : List Bytes

/-- The addresses after one more call. An all-zero address is that of no station. -/
def note (recent : List Bytes) : Call → List Bytes
  | .add addr => if addr.val = zeroMac then recent else pushFront maxAuthorizedMacs recent addr.val
  | .remove addr => recent.erase addr.val

def Tracked.step (s : Tracked) (c : Call) : Tracked := ⟨c.apply s.reg, note s.recent c⟩

/-- A Registrar as `wps_registrar_init` leaves its table. -/
def Tracked.start (reg : Registrar) : Tracked :=
  ⟨{ reg with authorizedMacs := padded maxAuthorizedMacs zeroMac []
              authorizedMacsUnion := padded maxAuthorizedMacs zeroMac [] }, []⟩

/-- The cells that are not all-zero are in front, with no address twice, and they are the latest
addresses, which is what is reported. -/
structure Tracked.Listed (s : Tracked) : Prop where
  table : s.reg.authorizedMacs = padded maxAuthorizedMacs zeroMac s.recent
  few : s.recent.length ≤ maxAuthorizedMacs
  distinct : s.recent.Nodup
  nonzero : zeroMac ∉ s.recent
  reported : wpsAuthorizedMacs s.reg = s.recent

/-- The call removes the address it is given, wherever it is, and the table is as it should be. -/
structure AsClaimed (s : Tracked) (c : Call) : Prop where
  removes : ∀ addr : EtherAddr, c = .remove addr →
    (s.step c).reg.authorizedMacs = if addr.val ∈ s.reg.authorizedMacs then
      s.reg.authorizedMacs.erase addr.val ++ [zeroMac] else s.reg.authorizedMacs
  listed : (s.step c).Listed

/-- No all-zero address is added to a full table, and what is removed is the first address of the
table, if it is in it. -/
def Proper (s : Tracked) : Call → Prop
  | .add addr => addr.val = zeroMac → zeroMac ∈ s.reg.authorizedMacs
  | .remove addr => addr.val ∈ s.reg.authorizedMacs → addr.val ≠ zeroMac →
      s.reg.authorizedMacs.head? = some addr.val

/-- The table lists the latest addresses, and these are Ethernet addresses. -/
structure Tracked.Good (s : Tracked) : Prop extends s.Listed where
  sized : ∀ addr ∈ s.recent, addr.length = ethAlen

theorem Tracked.good_start (reg : Registrar) : (start reg).Good where
  table := rfl
  few := Nat.zero_le _
  distinct := List.nodup_nil
  nonzero := List.not_mem_nil
  reported := rfl
  sized := nofun

theorem isZeroEtherAddr_iff {addr : Bytes} (h : addr.length = ethAlen) :
    isZeroEtherAddr addr ↔ addr = zeroMac := by
  rw [isZeroEtherAddr, zeroMac, List.eq_replicate_iff, List.all_eq_true]
  simp [h]

theorem reported_of_table {reg : Registrar} {recent : List Bytes}
    (htable : reg.authorizedMacsUnion = padded maxAuthorizedMacs zeroMac recent)
    (hfew : recent.length ≤ maxAuthorizedMacs) (hnonzero : zeroMac ∉ recent)
    (hsized : ∀ addr ∈ recent, addr.length = ethAlen) : wpsAuthorizedMacs reg = recent := by
  have hlength : (padded maxAuthorizedMacs zeroMac recent).length = maxAuthorizedMacs :=
    length_padded zeroMac hfew
  rw [wpsAuthorizedMacs, htable, List.take_of_length_le (Nat.le_of_eq hlength)]
  refine take_findIdx_padded rfl fun addr haddr hzero => hnonzero ?_
  rw [isZeroEtherAddr_iff (hsized addr haddr)] at hzero
  exact hzero ▸ haddr

/-! ## One call -/

theorem Tracked.good_of_table {s : Tracked} {c : Call}
    (htable : c.onTable s.reg.authorizedMacs = padded maxAuthorizedMacs zeroMac (note s.recent c))
    (hfew : (note s.recent c).length ≤ maxAuthorizedMacs) (hdistinct : (note s.recent c).Nodup)
    (hnonzero : zeroMac ∉ note s.recent c)
    (hsized : ∀ addr ∈ note s.recent c, addr.length = ethAlen) : (s.step c).Good where
  table := htable
  few := hfew
  distinct := hdistinct
  nonzero := hnonzero
  reported := reported_of_table htable hfew hnonzero hsized
  sized := hsized

section Step

variable {s : Tracked} (h : s.Good)

include h

theorem Tracked.Good.length : s.reg.authorizedMacs.length = maxAuthorizedMacs := by
  rw [h.table]
  exact length_padded zeroMac h.few

theorem Tracked.Good.mem_iff {addr : Bytes} (ha : addr ≠ zeroMac) :
    addr ∈ s.reg.authorizedMacs ↔ addr ∈ s.recent := by
  rw [h.table]
  exact mem_padded ha

variable {addr : EtherAddr}

theorem Tracked.Good.add (hproper : Proper s (.add addr)) :
    (s.step (.add addr)).Good := by
  have hcall := addAuthorizedMacLoops_eq h.length addr.val
  by_cases hzero : addr.val = zeroMac
  · have hnote : note s.recent (.add addr) = s.recent := if_pos hzero
    refine good_of_table ?_ ?_ ?_ ?_ ?_
    · rw [hnote, ← h.table, Call.onTable, hcall, if_pos (hzero ▸ hproper hzero)]
    all_goals rw [hnote]
    · exact h.few
    · exact h.distinct
    · exact h.nonzero
    · exact h.sized
  · have hnote : note s.recent (.add addr) = pushFront maxAuthorizedMacs s.recent addr.val :=
      if_neg hzero
    refine good_of_table ?_ ?_ ?_ ?_ ?_
    · rw [hnote, Call.onTable, hcall, pushFront]
      by_cases hmem : addr.val ∈ s.recent
      · rw [if_pos hmem, if_pos ((h.mem_iff hzero).mpr hmem), h.table]
      · rw [if_neg hmem, if_neg fun hm => hmem ((h.mem_iff hzero).mp hm), h.table]
        exact cons_take_padded zeroMac addr.val (by decide) h.few
    all_goals rw [hnote]
    · exact length_pushFront_le h.few addr.val
    · exact nodup_pushFront h.distinct _ addr.val
    · exact not_mem_pushFront h.nonzero hzero _
    · exact forall_mem_pushFront h.sized addr.property _

theorem Tracked.Good.not_listed_add (hproper : ¬ Proper s (.add addr)) :
    ¬ (s.step (.add addr)).Listed := by
  obtain ⟨hzero, hfull⟩ := Classical.not_imp.mp hproper
  intro hlisted
  have hnote : note s.recent (.add addr) = s.recent := if_pos hzero
  have htable : (s.step (.add addr)).reg.authorizedMacs =
      (zeroMac :: s.reg.authorizedMacs).take maxAuthorizedMacs := by
    have hcall := addAuthorizedMacLoops_eq h.length addr.val
    rw [hzero, if_neg hfull] at hcall
    rw [← hcall, ← hzero]
    rfl
  have hroom : ¬ s.recent.length < maxAuthorizedMacs := by
    rw [h.table] at hfull
    exact fun hlt => hfull ((filler_mem_padded h.nonzero).mpr hlt)
  have hrecent : (s.step (.add addr)).reg.authorizedMacs = s.recent := by
    rw [hlisted.table]
    show padded _ _ (note s.recent (.add addr)) = _
    rw [hnote, padded_of_full]
    exact Nat.le_antisymm h.few (Nat.le_of_not_lt hroom)
  refine h.nonzero ?_
  rw [← hrecent, htable]
  exact List.mem_cons_self

theorem Tracked.Good.remove (hproper : Proper s (.remove addr)) :
    (s.step (.remove addr)).reg.authorizedMacs = (if addr.val ∈ s.reg.authorizedMacs then
        s.reg.authorizedMacs.erase addr.val ++ [zeroMac] else s.reg.authorizedMacs) ∧
      (s.step (.remove addr)).reg.authorizedMacs =
        padded maxAuthorizedMacs zeroMac (note s.recent (.remove addr)) := by
  have hcall : (s.step (.remove addr)).reg.authorizedMacs =
      if s.reg.authorizedMacs.head? = some addr.val then s.reg.authorizedMacs.tail ++ [zeroMac]
      else s.reg.authorizedMacs := removeAuthorizedMacLoops_eq h.length addr.val
  have hnote : note s.recent (.remove addr) = s.recent.erase addr.val := rfl
  have herase (hhead : s.reg.authorizedMacs.head? = some addr.val) :
      s.reg.authorizedMacs.tail = s.reg.authorizedMacs.erase addr.val := by
    obtain ⟨rest, hrest⟩ := List.head?_eq_some_iff.mp hhead
    rw [hrest, List.erase_cons_head, List.tail_cons]
  by_cases hmem : addr.val ∈ s.reg.authorizedMacs
  · by_cases hzero : addr.val = zeroMac
    · -- a filler is "removed": the table does not change
      have hsame : s.reg.authorizedMacs.erase addr.val ++ [zeroMac] = s.reg.authorizedMacs := by
        rw [hzero, h.table] at hmem ⊢
        exact erase_filler_padded h.nonzero ((filler_mem_padded h.nonzero).mp hmem)
      have hkept : (s.step (.remove addr)).reg.authorizedMacs = s.reg.authorizedMacs := by
        rw [hcall]
        split
        · next hhead => rw [herase hhead, hsame]
        · rfl
      rw [if_pos hmem, hsame, hkept, hnote, hzero, List.erase_of_not_mem h.nonzero]
      exact ⟨rfl, h.table⟩
    · have hhead := hproper hmem hzero
      rw [hcall, if_pos hhead, if_pos hmem, herase hhead]
      refine ⟨rfl, ?_⟩
      rw [hnote, h.table]
      exact erase_padded ((h.mem_iff hzero).mp hmem) h.few
  · have hne : s.reg.authorizedMacs.head? ≠ some addr.val :=
      fun hhead => hmem (List.mem_of_mem_head? hhead)
    have hnot : addr.val ∉ s.recent := fun hm => hmem (h.table ▸ List.mem_append_left _ hm)
    rw [hcall, if_neg hne, if_neg hmem, hnote, List.erase_of_not_mem hnot]
    exact ⟨rfl, h.table⟩

theorem Tracked.Good.not_listed_remove (hproper : ¬ Proper s (.remove addr)) :
    ¬ (s.step (.remove addr)).Listed := by
  obtain ⟨hmem, hrest⟩ := Classical.not_imp.mp hproper
  obtain ⟨hzero, hhead⟩ := Classical.not_imp.mp hrest
  intro hlisted
  have hkept : (s.step (.remove addr)).reg.authorizedMacs = s.reg.authorizedMacs :=
    (removeAuthorizedMacLoops_eq h.length addr.val).trans (if_neg hhead)
  have hstays : addr.val ∈ (s.step (.remove addr)).recent := by
    rw [← hkept, hlisted.table] at hmem
    exact (mem_padded hzero).mp hmem
  exact h.distinct.not_mem_erase hstays

theorem Tracked.Good.step {c : Call} (hproper : Proper s c) : (s.step c).Good := by
  cases c with
  | add addr => exact h.add hproper
  | remove addr =>
    exact good_of_table (h.remove hproper).2
      (Nat.le_trans List.length_erase_le h.few) (h.distinct.erase addr.val)
      (fun hm => h.nonzero (List.mem_of_mem_erase hm))
      (fun a ha => h.sized a (List.mem_of_mem_erase ha))

/-- One call does what it should exactly when it adds no all-zero address to a full table and
removes no address behind the first. -/
theorem asClaimed_iff (c : Call) : AsClaimed s c ↔ Proper s c := by
  constructor
  · intro hclaimed
    by_contra hnot
    cases c with
    | add addr => exact h.not_listed_add hnot hclaimed.listed
    | remove addr => exact h.not_listed_remove hnot hclaimed.listed
  · intro hproper
    refine ⟨?_, (h.step hproper).toListed⟩
    rintro addr rfl
    exact (h.remove hproper).1

end Step

/-! ## Runs of calls -/

/-- Source: `wps_registrar_add_authorized_mac`, `wps_registrar_remove_authorized_mac`,
`wps_authorized_macs`. In a run of calls the list holds and reports the latest addresses after every
call exactly when no call adds an all-zero address to a full list, and each call that removes an
address finds it in front or not at all. -/
theorem authorized_macs_iff (reg : Registrar) (calls : List Call) :
    Along Tracked.step AsClaimed (.start reg) calls ↔
      Along Tracked.step Proper (.start reg) calls :=
  along_congr (I := Tracked.Good) (fun _ _ h hproper => h.step hproper)
    (fun _ c h => asClaimed_iff h c) (Tracked.good_start reg) calls

theorem first_station_stays :
    let first : EtherAddr := ⟨List.replicate ethAlen 0x02, by decide⟩
    let second : EtherAddr := ⟨List.replicate ethAlen 0x04, by decide⟩
    ¬ Along Tracked.step AsClaimed (.start .empty) [.add first, .add second, .remove first] := by
  intro first second h
  obtain ⟨-, -, hremove, -⟩ := h
  have hmacs := hremove.removes first rfl
  revert hmacs
  decide

end Hostapd.Wps.Registrar
