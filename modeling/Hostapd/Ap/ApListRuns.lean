import Hostapd.Ap.ApList

/-!
# The neighbour table along a run

What a table of neighbours is for: to know who was heard, and when last. **`Heard`** is that in the
abstract, the senders of all beacons of a run, the latest first, with the time. The table keeps some
of them, in this order: the entry at its end is the one heard least recently, which eviction and
expiry rely on.

* **`hear`**: a sender is heard again; `hear_sorted`, `sublist_hear`.
* **`Neighbours`**: the table, its size, and its entries among those heard.
* **`Neighbours.processBeacon`**, **`Neighbours.listTimer`**: the two steps of the code keep it.
* **`neighbour_table`**: it holds after every run, a new entry in a full table takes the place of the
  one heard least recently, and the timer leaves exactly those heard recently enough.
-/

namespace Hostapd.Ap.ApList

open Hostapd.Lib

/-! ## What was heard -/

section Hear

variable {κ : Type*} [DecidableEq κ]

def hear (m : List (κ × ℤ)) (k : κ) (t : ℤ) : List (κ × ℤ) := (k, t) :: m.filter fun x => x.1 ≠ k

theorem hear_sorted {m : List (κ × ℤ)} (hm : m.Pairwise fun x y => y.2 ≤ x.2) {t : ℤ}
    (ht : ∀ x ∈ m, x.2 ≤ t) (k : κ) : (hear m k t).Pairwise fun x y => y.2 ≤ x.2 :=
  List.pairwise_cons.mpr ⟨fun x hx => ht x (List.mem_of_mem_filter hx), hm.filter _⟩

theorem hear_le {m : List (κ × ℤ)} {t : ℤ} (ht : ∀ x ∈ m, x.2 ≤ t) (k : κ) :
    ∀ x ∈ hear m k t, x.2 ≤ t := by
  intro x hx
  rcases List.mem_cons.mp hx with rfl | hx
  · exact le_rfl
  · exact ht x (List.mem_of_mem_filter hx)

theorem sublist_hear {l m : List (κ × ℤ)} (h : l.Sublist m) {k : κ} (hk : ∀ x ∈ l, x.1 ≠ k) :
    l.Sublist (m.filter fun x => x.1 ≠ k) := by
  have hl : l.filter (fun x => x.1 ≠ k) = l :=
    List.filter_eq_self.mpr fun x hx => by simpa using hk x hx
  rw [← hl]
  exact h.filter _

end Hear

/-- The clock, and who was heard when, the latest first. -/
structure Heard where
  now : ℤ
  senders : List (MacAddr × ℤ)

def Heard.step (s : Heard) : Op → Heard
  | .beacon elapsed b _ _ => ⟨s.now + elapsed, hear s.senders b.bssid (s.now + elapsed)⟩
  | .timer elapsed => ⟨s.now + elapsed, s.senders⟩

structure Heard.Sorted (s : Heard) : Prop where
  sorted : s.senders.Pairwise fun x y => y.2 ≤ x.2
  past : ∀ x ∈ s.senders, x.2 ≤ s.now

theorem Heard.Sorted.step {s : Heard} (h : s.Sorted) (op : Op) : (s.step op).Sorted := by
  have hpast (elapsed : ℕ) : ∀ x ∈ s.senders, x.2 ≤ s.now + elapsed := fun x hx => by
    have := h.past x hx
    omega
  cases op with
  | beacon elapsed b fi block => exact ⟨hear_sorted h.sorted (hpast elapsed) _, hear_le (hpast elapsed) _⟩
  | timer elapsed => exact ⟨h.sorted, hpast elapsed⟩

/-! ## The table among those heard -/

/-- Who an entry is about, and when it was heard last. -/
def entryOf (iface : Iface) (ap : ℕ) : MacAddr × ℤ := (addrOf iface ap, (iface.ap ap).lastBeacon)

section Effects

variable (iface : Iface) (ap : ℕ)

@[simp] theorem freeAp_ap : (freeAp iface ap).ap = iface.ap := rfl

@[simp] theorem linkAp_conf (addr : MacAddr) : (linkAp iface addr ap).conf = iface.conf := rfl

@[simp] theorem linkAp_now (addr : MacAddr) : (linkAp iface addr ap).now = iface.now := rfl

theorem linkAp_ap (addr : MacAddr) : (linkAp iface addr ap).ap =
    Function.update iface.ap ap { ApInfo.zero with addr := addr } := rfl

theorem makeRoom_keeps : (makeRoom iface ap).ap = iface.ap ∧
    (makeRoom iface ap).conf = iface.conf ∧ (makeRoom iface ap).now = iface.now := by
  unfold makeRoom
  split
  · exact ⟨rfl, rfl, rfl⟩
  · split <;> exact ⟨rfl, rfl, rfl⟩

theorem moveToFront_keeps : (moveToFront iface ap).ap = iface.ap ∧
    (moveToFront iface ap).conf = iface.conf ∧ (moveToFront iface ap).now = iface.now := by
  unfold moveToFront
  split <;> exact ⟨rfl, rfl, rfl⟩

theorem expireLoop_keeps (n : ℕ) : (expireLoop n iface).ap = iface.ap ∧
    (expireLoop n iface).conf = iface.conf ∧ (expireLoop n iface).now = iface.now := by
  induction n generalizing iface with
  | zero => exact ⟨rfl, rfl, rfl⟩
  | succ n ih =>
    rw [expireLoop]
    split
    · exact ⟨rfl, rfl, rfl⟩
    · next ap _ =>
      split
      · exact ⟨rfl, rfl, rfl⟩
      · exact ih (freeAp iface ap)

theorem clearOlbc_keeps : (clearOlbc iface).ap = iface.ap ∧
    (clearOlbc iface).conf = iface.conf ∧ (clearOlbc iface).now = iface.now := by
  unfold clearOlbc
  split <;> exact ⟨rfl, rfl, rfl⟩

variable (b : Beacon) (fi : Option FrameInfo)

theorem entryOf_record_self : entryOf (record iface ap b fi) ap = (addrOf iface ap, iface.now) := by
  simp [entryOf, addrOf, record, ApInfo.ofBeacon]

theorem entryOf_record_of_ne {s : ℕ} (hs : s ≠ ap) :
    entryOf (record iface ap b fi) s = entryOf iface s := by
  simp [entryOf, addrOf, record, Function.update_of_ne hs]

end Effects

theorem entryOf_congr {iface iface' : Iface} (h : iface'.ap = iface.ap) :
    entryOf iface' = entryOf iface := by
  funext s
  rw [entryOf, entryOf, addrOf, addrOf, h]

section Steps

variable {iface : Iface} {l : List ℕ} {ap : ℕ} {b : Beacon}

theorem map_entryOf_erase (h : NeighbourTable iface l) (hap : ap ∈ l) :
    (l.erase ap).map (entryOf iface) =
      (l.map (entryOf iface)).filter fun x => x.1 ≠ addrOf iface ap := by
  rw [h.main.nodup.erase_eq_filter, List.filter_map]
  congr 1
  refine List.filter_congr fun s hs => ?_
  have hiff : s = ap ↔ addrOf iface s = addrOf iface ap :=
    ⟨fun heq => by rw [heq], fun heq => h.chained.inj s hs ap hap heq⟩
  by_cases hsa : s = ap
  · simp [hsa, entryOf]
  · simp [hsa, entryOf, mt hiff.mpr hsa]

theorem map_entryOf_record (hap : ap ∉ l) (b : Beacon) (fi : Option FrameInfo) :
    l.map (entryOf (record iface ap b fi)) = l.map (entryOf iface) := by
  refine List.map_congr_left fun s hs => entryOf_record_of_ne iface ap b fi ?_
  rintro rfl
  exact hap hs

theorem processBeacon_known (h : NeighbourTable iface l)
    (hmax : 1 ≤ iface.conf.apTableMaxSize) (hget : getAp iface b.bssid = some ap)
    (fi : Option FrameInfo) (block : Option ℕ) :
    ∃ l', NeighbourTable (processBeacon iface b fi block) l' ∧
      l'.map (entryOf (processBeacon iface b fi block)) =
        hear (l.map (entryOf iface)) b.bssid iface.now := by
  obtain ⟨hap, haddr⟩ := h.chained.find_eq_some hget
  rw [processBeacon, if_neg (by omega), hget]
  refine ⟨ap :: l.erase ap, ((h.record ap b fi).moveToFront hap).detectOlbc ap, ?_⟩
  have hsame : entryOf (detectOlbc (moveToFront (record iface ap b fi) ap) ap) =
      entryOf (record iface ap b fi) :=
    entryOf_congr (moveToFront_keeps (record iface ap b fi) ap).1
  rw [hsame, List.map_cons, entryOf_record_self, map_entryOf_record h.main.nodup.not_mem_erase,
    map_entryOf_erase h hap, haddr]
  rfl

/-- A beacon of a sender that is not in the table: it is in front, and the last entry is gone if the
table was full. -/
theorem processBeacon_new (h : NeighbourTable iface l)
    (hmax : 1 ≤ iface.conf.apTableMaxSize) (hroom : iface.numAp ≤ iface.conf.apTableMaxSize)
    (hget : getAp iface b.bssid = none) (hfresh : ap ∉ iface.blocks) (fi : Option FrameInfo) :
    ∃ l', NeighbourTable (processBeacon iface b fi (some ap)) l' ∧
      l'.map (entryOf (processBeacon iface b fi (some ap))) = (b.bssid, iface.now) ::
        (if iface.numAp = iface.conf.apTableMaxSize then (l.map (entryOf iface)).dropLast
        else l.map (entryOf iface)) := by
  have hap : ap ∉ l := fun hmem => hfresh (h.blocks.mem_iff.mpr hmem)
  have halloc : zallocAp iface (some ap) = some ap := by simp [zallocAp, hfresh]
  have hlink := h.linkAp hfresh (h.chained.find_eq_none hget)
  have hover : (linkAp iface b.bssid ap).numAp > iface.conf.apTableMaxSize ↔
      iface.numAp = iface.conf.apTableMaxSize := by
    show iface.numAp + 1 > iface.conf.apTableMaxSize ↔ _
    omega
  obtain ⟨hmem, -, hnow⟩ := makeRoom_keeps (linkAp iface b.bssid ap) ap
  have htable := ((hlink.makeRoom hmax).record ap b fi).detectOlbc ap
  have hself : entryOf (record (makeRoom (linkAp iface b.bssid ap) ap) ap b fi) ap =
      (b.bssid, iface.now) := by
    rw [entryOf_record_self, hnow, linkAp_now, addrOf, hmem, linkAp_ap, Function.update_self]
  have hold : ∀ s ∈ l, entryOf (record (makeRoom (linkAp iface b.bssid ap) ap) ap b fi) s =
      entryOf iface s := by
    intro s hs
    have hne : s ≠ ap := fun heq => hap (heq ▸ hs)
    rw [entryOf_record_of_ne _ _ _ _ hne, entryOf, addrOf, hmem, linkAp_ap,
      Function.update_of_ne hne]
    rfl
  have hproc : processBeacon iface b fi (some ap) =
      detectOlbc (record (makeRoom (linkAp iface b.bssid ap) ap) ap b fi) ap := by
    rw [processBeacon, if_neg (by omega), hget]
    simp only [addAp, halloc]
  rw [linkAp_conf] at htable
  rw [hproc]
  refine ⟨_, htable, ?_⟩
  have hkeep : ∀ s, entryOf (detectOlbc
      (record (makeRoom (linkAp iface b.bssid ap) ap) ap b fi) ap) s =
      entryOf (record (makeRoom (linkAp iface b.bssid ap) ap) ap b fi) s := fun s => rfl
  by_cases hfull : iface.numAp = iface.conf.apTableMaxSize
  · rw [if_pos (hover.mpr hfull), if_pos hfull, List.map_cons, hkeep, hself, List.map_dropLast.symm]
    exact congrArg _ (List.map_congr_left fun s hs => hold s (List.dropLast_subset l hs))
  · rw [if_neg (mt hover.mp hfull), if_neg hfull, List.map_cons, hkeep, hself]
    exact congrArg _ (List.map_congr_left hold)

def fresh (iface : Iface) (x : MacAddr × ℤ) : Bool :=
  x.2 + iface.conf.apTableExpirationTime ≥ iface.now

theorem expireLoop_table {n : ℕ} (h : NeighbourTable iface l) (hn : l.length ≤ n)
    (hsorted : (l.map (entryOf iface)).Pairwise fun x y => y.2 ≤ x.2) :
    NeighbourTable (expireLoop n iface) (l.filter fun s => fresh iface (entryOf iface s)) := by
  induction n generalizing iface l with
  | zero =>
    obtain rfl := List.length_eq_zero_iff.mp (Nat.le_zero.mp hn)
    exact h
  | succ n ih =>
    have hlast : iface.apList.head.bind iface.apList.prev = l.getLast? := by
      rw [h.main.head]
      cases l with
      | nil => rfl
      | cons a l => exact h.main.prev_head
    rw [expireLoop, hlast]
    rcases List.eq_nil_or_concat l with rfl | ⟨l, ap, rfl⟩
    · exact h
    · rw [List.concat_eq_append] at *
      rw [List.getLast?_concat]
      rw [List.map_append, List.pairwise_append] at hsorted
      obtain ⟨hsorted, -, hlater⟩ := hsorted
      by_cases hfresh : (iface.ap ap).lastBeacon + iface.conf.apTableExpirationTime ≥ iface.now
      · -- The least recent entry stays, and so do those in front of it.
        have hall : (l ++ [ap]).filter (fun s => fresh iface (entryOf iface s)) = l ++ [ap] := by
          refine List.filter_eq_self.mpr fun s hs => ?_
          rcases List.mem_append.mp hs with hs | hs
          · have hle := hlater _ (List.mem_map_of_mem hs) (entryOf iface ap) (by simp)
            rw [fresh, decide_eq_true_eq]
            simp only [entryOf] at hle ⊢
            omega
          · rw [List.mem_singleton.mp hs]
            simpa [fresh, entryOf] using hfresh
        simpa only [if_pos hfresh, hall] using h
      · have hrest := ih h.freeAp_last (by simpa using hn) (by
          rw [entryOf_congr (freeAp_ap iface ap)]
          exact hsorted)
        have hout : (l ++ [ap]).filter (fun s => fresh iface (entryOf iface s)) =
            l.filter fun s => fresh iface (entryOf iface s) := by
          simp [List.filter_append, fresh, entryOf, hfresh]
        simp only [if_neg hfresh, hout]
        exact hrest

theorem listTimer_table (h : NeighbourTable iface l)
    (hsorted : (l.map (entryOf iface)).Pairwise fun x y => y.2 ≤ x.2) :
    ∃ l', NeighbourTable (listTimer iface) l' ∧
      l'.map (entryOf (listTimer iface)) = (l.map (entryOf iface)).filter (fresh iface) := by
  have hlen : l.length ≤ iface.blocks.length := h.blocks.length_eq.ge
  have htable := expireLoop_table h hlen hsorted
  have hap := (expireLoop_keeps iface iface.blocks.length).1
  rw [listTimer]
  split
  · next hhead =>
    rw [h.main.head, List.head?_eq_none_iff] at hhead
    subst hhead
    exact ⟨[], h, rfl⟩
  · refine ⟨_, htable.clearOlbc, ?_⟩
    rw [entryOf_congr ((clearOlbc_keeps _).1.trans hap), List.filter_map]
    rfl

theorem processBeacon_keeps (iface : Iface) (b : Beacon) (fi : Option FrameInfo)
    (block : Option ℕ) : (processBeacon iface b fi block).conf = iface.conf ∧
      (processBeacon iface b fi block).now = iface.now := by
  unfold processBeacon
  split
  · exact ⟨rfl, rfl⟩
  · split
    · next ap _ => exact (moveToFront_keeps (record iface ap b fi) ap).2
    · unfold addAp
      cases zallocAp iface block with
      | none => exact ⟨rfl, rfl⟩
      | some ap => exact (makeRoom_keeps (linkAp iface b.bssid ap) ap).2

theorem listTimer_keeps (iface : Iface) : (listTimer iface).conf = iface.conf ∧
    (listTimer iface).now = iface.now := by
  have hloop := (expireLoop_keeps iface iface.blocks.length).2
  have hclear := (clearOlbc_keeps (expireLoop iface.blocks.length iface)).2
  unfold listTimer
  split
  · exact ⟨rfl, rfl⟩
  · exact ⟨hclear.1.trans hloop.1, hclear.2.trans hloop.2⟩

end Steps

/-- The table holds `l`, is not too large, and its entries are some of those heard, in their order.
-/
structure Neighbours (iface : Iface) (heard : Heard) (l : List ℕ) : Prop where
  table : NeighbourTable iface l
  room : iface.numAp ≤ max iface.conf.apTableMaxSize 0
  clock : iface.now = heard.now
  recent : (l.map (entryOf iface)).Sublist heard.senders

variable {iface : Iface}

theorem NeighbourTable.numAp_eq {l : List ℕ} (h : NeighbourTable iface l) :
    iface.numAp = (l.map (entryOf iface)).length := by
  rw [List.length_map]
  exact h.count

section Kept

variable {iface : Iface} {heard : Heard} {l : List ℕ}

theorem Neighbours.tick (h : Neighbours iface heard l) (elapsed : ℕ) :
    Neighbours (tick iface elapsed) ⟨heard.now + elapsed, heard.senders⟩ l where
  table := h.table.tick elapsed
  room := h.room
  clock := congrArg (· + (elapsed : ℤ)) h.clock
  recent := h.recent

theorem Neighbours.processBeacon (h : Neighbours iface heard l) (b : Beacon) (fi : Option FrameInfo)
    (block : Option ℕ) : ∃ l', Neighbours (processBeacon iface b fi block)
      ⟨heard.now, hear heard.senders b.bssid heard.now⟩ l' := by
  obtain ⟨hconf, hnow⟩ := processBeacon_keeps iface b fi block
  have hroom := h.room
  have hnum := h.table.numAp_eq
  -- What a step leaves of the table, if its entries are among those heard now.
  have hstep : ∀ l', NeighbourTable (ApList.processBeacon iface b fi block) l' →
      (l'.map (entryOf (ApList.processBeacon iface b fi block))).length ≤
        max iface.conf.apTableMaxSize 0 →
      (l'.map (entryOf (ApList.processBeacon iface b fi block))).Sublist
        (hear heard.senders b.bssid heard.now) →
      ∃ l', Neighbours (ApList.processBeacon iface b fi block)
        ⟨heard.now, hear heard.senders b.bssid heard.now⟩ l' := by
    intro l' htable hlen hsub
    refine ⟨l', htable, ?_, hnow.trans h.clock, hsub⟩
    rw [htable.numAp_eq, hconf]
    exact hlen
  by_cases hmax : iface.conf.apTableMaxSize < 1
  · have hsame : ApList.processBeacon iface b fi block = iface := if_pos hmax
    have hempty : l.map (entryOf iface) = [] := by
      rw [← List.length_eq_zero_iff]
      omega
    rw [hsame] at hstep ⊢
    exact hstep l h.table (by omega) (by simp [hempty])
  · rw [not_lt] at hmax
    cases hget : getAp iface b.bssid with
    | some ap =>
      obtain ⟨hap, haddr⟩ := h.table.chained.find_eq_some hget
      obtain ⟨l', htable, hmap⟩ := processBeacon_known h.table hmax hget fi block
      have hlen : (hear (l.map (entryOf iface)) b.bssid iface.now).length =
          (l.map (entryOf iface)).length := by
        have hpos := List.length_pos_of_mem hap
        rw [hear, ← haddr, ← map_entryOf_erase h.table hap, List.length_cons, List.length_map,
          List.length_erase_of_mem hap, List.length_map]
        omega
      refine hstep l' htable ?_ ?_
      · rw [hmap, hlen]
        omega
      · rw [hmap, h.clock]
        exact (h.recent.filter _).cons_cons _
    | none =>
      have hother : ∀ x ∈ l.map (entryOf iface), x.1 ≠ b.bssid := by
        intro x hx
        obtain ⟨s, hs, rfl⟩ := List.mem_map.mp hx
        exact h.table.chained.find_eq_none hget s hs
      have hsub := sublist_hear h.recent hother
      cases halloc : zallocAp iface block with
      | none =>
        have hsame : ApList.processBeacon iface b fi block = iface := by
          rw [ApList.processBeacon, if_neg (by omega), hget]
          simp only [addAp, halloc]
        rw [hsame] at hstep ⊢
        exact hstep l h.table (by omega) (hsub.cons _)
      | some ap =>
        obtain ⟨rfl, hfresh⟩ := Option.filter_eq_some_iff.mp halloc
        have hfresh : ap ∉ iface.blocks := by simpa using hfresh
        obtain ⟨l', htable, hmap⟩ :=
          processBeacon_new h.table hmax (by omega) hget hfresh fi
        refine hstep l' htable ?_ ?_
        · rw [hmap, List.length_cons]
          split
          · rw [List.length_dropLast]
            omega
          · omega
        · rw [hmap, h.clock]
          refine .cons_cons _ ?_
          split
          · exact (List.dropLast_sublist _).trans hsub
          · exact hsub

theorem Neighbours.listTimer (h : Neighbours iface heard l) (hs : heard.Sorted) :
    ∃ l', Neighbours (listTimer iface) heard l' := by
  obtain ⟨l', htable, hmap⟩ := listTimer_table h.table (hs.sorted.sublist h.recent)
  obtain ⟨hconf, hnow⟩ := listTimer_keeps iface
  have hsub : (l'.map (entryOf (ApList.listTimer iface))).Sublist (l.map (entryOf iface)) := by
    rw [hmap]
    exact List.filter_sublist
  refine ⟨l', htable, ?_, hnow.trans h.clock, hsub.trans h.recent⟩
  have hroom := h.room
  have hlen := hsub.length_le
  rw [h.table.numAp_eq] at hroom
  rw [htable.numAp_eq, hconf]
  omega

end Kept

theorem step_conf (iface : Iface) (op : Op) : (step iface op).conf = iface.conf := by
  cases op with
  | beacon elapsed b fi block => exact (processBeacon_keeps _ b fi block).1
  | timer elapsed => exact (listTimer_keeps _).1

structure Kept (conf : Conf) (iface : Iface) (heard : Heard) : Prop where
  conf : iface.conf = conf
  sorted : heard.Sorted
  neighbours : ∃ l, Neighbours iface heard l

theorem Kept.step {conf : Conf} {heard : Heard} (h : Kept conf iface heard)
    (op : Op) : Kept conf (step iface op) (heard.step op) where
  conf := (step_conf iface op).trans h.conf
  sorted := h.sorted.step op
  neighbours := by
    obtain ⟨l, hl⟩ := h.neighbours
    cases op with
    | beacon elapsed b fi block => exact (hl.tick elapsed).processBeacon b fi block
    | timer elapsed => exact (hl.tick elapsed).listTimer (h.sorted.step (.timer elapsed))

theorem run_kept {conf : Conf} {heard : Heard} (h : Kept conf iface heard)
    (ops : List Op) : Kept conf (run step iface ops) (run Heard.step heard ops) := by
  induction ops generalizing iface heard with
  | nil => exact h
  | cons op ops ih => exact ih (h.step op)

/-- After every run the lists, the chains and the counter agree, the table is not too large, and its
entries are senders that were heard, the latest first. A new entry in a full table takes the place
of the one heard least recently, and the timer leaves exactly those heard recently enough. -/
theorem neighbour_table (conf : Conf) (now : ℤ) (ops : List Op) :
    let iface := run step (init conf now) ops
    let heard := run Heard.step ⟨now, []⟩ ops
    iface.conf = conf ∧ heard.Sorted ∧ ∃ l, Neighbours iface heard l ∧
      iface.apList.head.bind iface.apList.prev = l.getLast? ∧
      (∀ elapsed b fi ap, 1 ≤ conf.apTableMaxSize → iface.numAp = conf.apTableMaxSize →
        getAp iface b.bssid = none → ap ∉ iface.blocks →
        ∃ l', NeighbourTable (step iface (.beacon elapsed b fi (some ap))) l' ∧
          l'.map (entryOf (step iface (.beacon elapsed b fi (some ap)))) =
            (b.bssid, iface.now + elapsed) :: (l.map (entryOf iface)).dropLast) ∧
      ∀ elapsed, ∃ l', NeighbourTable (step iface (.timer elapsed)) l' ∧
        l'.map (entryOf (step iface (.timer elapsed))) = (l.map (entryOf iface)).filter
          fun x => x.2 + conf.apTableExpirationTime ≥ iface.now + elapsed := by
  intro iface heard
  have hstart : Kept conf (init conf now) ⟨now, []⟩ :=
    { conf := rfl
      sorted := ⟨.nil, by simp⟩
      neighbours := ⟨[], neighbourTable_init conf now, le_max_right _ _, rfl, .refl _⟩ }
  obtain ⟨hconf, hsorted, l, hl⟩ := run_kept hstart ops
  refine ⟨hconf, hsorted, l, hl, ?_, ?_, ?_⟩
  · rw [hl.table.main.head]
    cases l with
    | nil => rfl
    | cons a l => exact hl.table.main.prev_head
  · intro elapsed b fi ap hmax hfull hget hfresh
    have hfull' : (tick iface elapsed).numAp = (tick iface elapsed).conf.apTableMaxSize := by
      rw [tick, hconf]
      exact hfull
    have hnew := processBeacon_new (hl.table.tick elapsed) (by rw [tick, hconf]; exact hmax)
      (le_of_eq hfull') hget hfresh fi
    rwa [if_pos hfull'] at hnew
  · intro elapsed
    have hfresh : fresh (tick iface elapsed) =
        fun x : MacAddr × ℤ => x.2 + conf.apTableExpirationTime ≥ iface.now + elapsed := by
      rw [← hconf]
      rfl
    rw [← hfresh]
    exact listTimer_table (hl.table.tick elapsed) (hsorted.sorted.sublist hl.recent)

end Hostapd.Ap.ApList
