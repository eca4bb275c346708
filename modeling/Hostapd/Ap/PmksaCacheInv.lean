import Hostapd.Ap.PmksaCache

/-!
# The authenticator's PMKSA cache: its representation

What holds of the two linkages of the cache after every operation, and what the insertions do to
the entries of one station.

* **`Linked`**: the list and the chains hold the same entries, each in the chain of its PMKID,
  the list is sorted by expiration, and the counter is its length. Every operation keeps it
  (**`step_linked`**).
-/

namespace Hostapd.Ap.Pmksa

open Hostapd.Lib

/-! ## The representation invariant -/

structure Linked (c : PmksaCache) : Prop where
  /-- A chain holds exactly the entries of the list whose PMKID hashes to it. -/
  chains : ∀ h, (c.pmkid h).Perm (c.pmksa.filter fun e => pmkidHash e.pmkid = h)
  /-- Entries are separate allocations. -/
  nodup : (c.pmksa.map PmksaEntry.addr).Nodup
  /-- The list is ordered by expiration. -/
  sorted : SortedBy PmksaEntry.expiration c.pmksa
  /-- The counter is the length of the list. -/
  count : c.pmksaCount = c.pmksa.length

theorem linked_authInit (now : ℤ) : Linked (authInit now) where
  chains := fun _ => by simp [authInit]
  nodup := List.nodup_nil
  sorted := sortedBy_nil
  count := rfl

theorem unlink_eq_filter (entry : PmksaEntry) {l : List PmksaEntry}
    (h : (l.map PmksaEntry.addr).Nodup) :
    unlink entry l = l.filter fun e => e.addr ≠ entry.addr := by
  induction l with
  | nil => rfl
  | cons e l ih =>
    obtain ⟨he, hl⟩ := List.nodup_cons.mp h
    by_cases heq : e.addr = entry.addr
    · have hall : ∀ x ∈ l, x.addr ≠ entry.addr := fun x hx hxe =>
        he (List.mem_map.mpr ⟨x, hx, hxe.trans heq.symm⟩)
      rw [unlink, List.eraseP_cons_of_pos (by simpa using heq),
        List.filter_cons_of_neg (by simpa using heq),
        List.filter_eq_self.mpr fun x hx => decide_eq_true (hall x hx)]
    · simpa [unlink, heq] using ih hl

theorem unlink_sublist (entry : PmksaEntry) (l : List PmksaEntry) :
    (unlink entry l).Sublist l := List.eraseP_sublist

variable {c : PmksaCache}

theorem Linked.nodup_chain (h : Linked c) (i : Fin pmkidHashSize) :
    ((c.pmkid i).map PmksaEntry.addr).Nodup :=
  (((h.chains i).map _).nodup_iff).mpr (h.nodup.sublist (List.filter_sublist.map _))

theorem Linked.eq_of_addr (h : Linked c) {e e' : PmksaEntry}
    (he : e ∈ c.pmksa) (he' : e' ∈ c.pmksa) (ha : e.addr = e'.addr) : e = e' :=
  List.inj_on_of_nodup_map h.nodup he he' ha

variable {entry : PmksaEntry}

theorem Linked.freeEntry (h : Linked c)
    (hmem : entry ∈ c.pmksa) : Linked (freeEntry c entry) where
  chains := fun i => by
    show (Function.update c.pmkid _ _ i).Perm ((unlink entry c.pmksa).filter _)
    rw [unlink_eq_filter entry h.nodup, List.filter_filter]
    by_cases hi : i = pmkidHash entry.pmkid
    · subst hi
      rw [Function.update_self, unlink_eq_filter entry (h.nodup_chain _)]
      refine ((h.chains _).filter _).trans (List.Perm.of_eq ?_)
      rw [List.filter_filter]
      exact List.filter_congr fun e _ => Bool.and_comm _ _
    · rw [Function.update_of_ne hi]
      refine (h.chains i).trans (List.Perm.of_eq (List.filter_congr fun e he => ?_))
      by_cases hei : pmkidHash e.pmkid = i
      · have : e.addr ≠ entry.addr := fun ha => hi (by rw [← hei, h.eq_of_addr he hmem ha])
        simp [hei, this]
      · simp [hei]
  nodup := h.nodup.sublist ((unlink_sublist entry c.pmksa).map _)
  sorted := h.sorted.sublist (unlink_sublist entry c.pmksa)
  count := by
    have hlen : (unlink entry c.pmksa).length = c.pmksa.length - 1 :=
      List.length_eraseP_of_mem hmem (by simp)
    have hpos : 0 < c.pmksa.length := List.length_pos_of_mem hmem
    show c.pmksaCount - 1 = ((unlink entry c.pmksa).length : ℤ)
    rw [hlen, h.count]
    omega

theorem Linked.linkEntry (h : Linked c)
    (hfresh : ∀ e ∈ c.pmksa, e.addr ≠ entry.addr) : Linked (linkEntry c entry) where
  chains := fun i => by
    show (Function.update c.pmkid _ _ i).Perm ((insertByKey _ entry c.pmksa).filter _)
    refine List.Perm.trans ?_ ((insertByKey_perm PmksaEntry.expiration entry c.pmksa).filter _).symm
    by_cases hi : i = pmkidHash entry.pmkid
    · subst hi
      rw [Function.update_self, List.filter_cons_of_pos (by simp)]
      exact (h.chains _).cons entry
    · rw [Function.update_of_ne hi, List.filter_cons_of_neg (by simpa using Ne.symm hi)]
      exact h.chains i
  nodup := by
    refine (((insertByKey_perm PmksaEntry.expiration entry c.pmksa).map _).nodup_iff).mpr (List.nodup_cons.mpr ⟨?_, h.nodup⟩)
    rintro hmem
    obtain ⟨e, he, ha⟩ := List.mem_map.mp hmem
    exact hfresh e he ha
  sorted := h.sorted.insertByKey entry
  count := by
    show c.pmksaCount + 1 = ((insertByKey _ entry c.pmksa).length : ℤ)
    rw [length_insertByKey, h.count]
    omega

theorem Linked.freeEntry_head (h : Linked c)
    {rest : List PmksaEntry} (hc : c.pmksa = entry :: rest) :
    Pmksa.freeEntry { c with pmksa := rest } entry = Pmksa.freeEntry c entry := by
  have hnd : entry.addr ∉ rest.map PmksaEntry.addr := by
    have := h.nodup
    rw [hc] at this
    exact (List.nodup_cons.mp this).1
  have hrest : unlink entry rest = rest := List.eraseP_of_forall_not fun e he hea =>
    hnd (List.mem_map.mpr ⟨e, he, by simpa using hea⟩)
  have hall : unlink entry c.pmksa = rest := by
    rw [hc, unlink, List.eraseP_cons_of_pos (by simp)]
  simp only [Pmksa.freeEntry, hrest, hall]

theorem Linked.expireLoop (h : Linked c) (n : ℕ) : Linked (expireLoop n c) := by
  induction n generalizing c with
  | zero => exact h
  | succ n ih =>
    cases hc : c.pmksa with
    | nil => simpa only [Pmksa.expireLoop, hc] using h
    | cons entry rest =>
      by_cases he : entry.expiration ≤ c.now
      · simp only [Pmksa.expireLoop, hc, if_pos he]
        rw [h.freeEntry_head hc]
        exact ih (h.freeEntry (by simp [hc]))
      · simpa only [Pmksa.expireLoop, hc, if_neg he] using h

theorem Linked.congr {c c' : PmksaCache} (h : Linked c) (hp : c'.pmksa = c.pmksa)
    (hh : c'.pmkid = c.pmkid) (hn : c'.pmksaCount = c.pmksaCount) : Linked c' where
  chains := fun i => by rw [hh, hp]; exact h.chains i
  nodup := by rw [hp]; exact h.nodup
  sorted := by rw [hp]; exact h.sorted
  count := by rw [hn, hp]; exact h.count

theorem setExpiration_frame (c : PmksaCache) :
    (setExpiration c).pmksa = c.pmksa ∧ (setExpiration c).pmkid = c.pmkid ∧
      (setExpiration c).pmksaCount = c.pmksaCount := by
  unfold setExpiration
  split <;> exact ⟨rfl, rfl, rfl⟩

theorem Linked.expire (h : Linked c) : Linked (expire c) :=
  have hf := setExpiration_frame (Pmksa.expireLoop c.pmksa.length c)
  (h.expireLoop c.pmksa.length).congr hf.1 hf.2.1 hf.2.2

theorem fresh_of_zallocEntry {addr : Option ℕ} {a : ℕ}
    (h : zallocEntry c addr = some a) : ∀ e ∈ c.pmksa, e.addr ≠ a := by
  obtain ⟨_, hall⟩ := Option.filter_eq_some_iff.mp h
  simpa using hall

theorem authGet_spa_eq (c : PmksaCache) (spa : MacAddr) :
    authGet c (some spa) none = c.pmksa.find? fun e => e.spa = spa := by
  simp [authGet]

theorem Linked.replaceOld (h : Linked c) (spa : MacAddr) :
    Linked (replaceOld c spa) := by
  unfold Pmksa.replaceOld
  rw [authGet_spa_eq]
  cases hf : c.pmksa.find? fun e => e.spa = spa with
  | none => exact h
  | some pos => exact h.freeEntry (List.mem_of_find?_eq_some hf)

theorem Linked.makeRoom (h : Linked c) : Linked (makeRoom c) := by
  unfold Pmksa.makeRoom
  cases hc : c.pmksa with
  | nil => exact h
  | cons head rest =>
    dsimp only
    split
    · exact h.freeEntry (by simp [hc])
    · exact h

theorem replaceOld_sublist (c : PmksaCache) (spa : MacAddr) :
    (replaceOld c spa).pmksa.Sublist c.pmksa := by
  unfold replaceOld
  split
  · exact unlink_sublist _ _
  · exact List.Sublist.refl _

theorem makeRoom_sublist (c : PmksaCache) : (makeRoom c).pmksa.Sublist c.pmksa := by
  unfold makeRoom
  split
  · split
    · exact unlink_sublist _ _
    · exact List.Sublist.refl _
  · exact List.Sublist.refl _

/-! ## The operations keep the representation -/

section Operations

variable (rsnPmkid : Bytes → MacAddr → MacAddr → Bool → Pmkid)

/-- The operation is an insertion that succeeds: the key fits and the allocation does not fail. -/
def Inserts (c : PmksaCache) : Op → Prop
  | .authAdd addr pmk _ _ _ _ _ => pmk.length ≤ pmkLen ∧ zallocEntry c addr ≠ none
  | .addOkc addr _ _ => zallocEntry c addr ≠ none
  | _ => False

/-- `pmksa_cache_auth_add` either leaves the cache alone or links a new entry at a fresh address
after making place for it. -/
theorem authAdd_cases (c : PmksaCache) (addr : Option ℕ) (pmk : Bytes) (aa spa : MacAddr)
    (t : ℤ) (eapol : Option EapolData) (akmp : WpaKeyMgmt) :
    (¬ (pmk.length ≤ pmkLen ∧ zallocEntry c addr ≠ none) ∧
      authAdd rsnPmkid c addr pmk aa spa t eapol akmp = (none, c)) ∨
    ∃ entry, pmk.length ≤ pmkLen ∧ zallocEntry c addr = some entry.addr ∧ entry.spa = spa ∧
      authAdd rsnPmkid c addr pmk aa spa t eapol akmp =
        (some entry, linkEntry (makeRoom (replaceOld c spa)) entry) := by
  unfold authAdd
  by_cases hlen : pmk.length > pmkLen
  · exact .inl ⟨fun h => absurd h.1 (by omega), if_pos hlen⟩
  · rw [if_neg hlen]
    cases ha : zallocEntry c addr with
    | none => exact .inl ⟨fun h => h.2 rfl, rfl⟩
    | some a => exact .inr ⟨_, by omega, rfl, rfl, rfl⟩

theorem addOkc_cases (c : PmksaCache) (addr : Option ℕ) (old : PmksaEntry) (pmkid : Pmkid) :
    (zallocEntry c addr = none ∧ addOkc c addr old pmkid = (none, c)) ∨
    ∃ entry, zallocEntry c addr = some entry.addr ∧
      addOkc c addr old pmkid = (some entry, linkEntry c entry) := by
  unfold addOkc
  cases ha : zallocEntry c addr with
  | none => exact .inl ⟨rfl, rfl⟩
  | some a => exact .inr ⟨_, rfl, rfl⟩

variable {c : PmksaCache}

theorem Linked.insertion (h : Linked c) {addr : Option ℕ} {entry : PmksaEntry}
    (ha : zallocEntry c addr = some entry.addr) (spa : MacAddr) :
    Linked (Pmksa.linkEntry (Pmksa.makeRoom (Pmksa.replaceOld c spa)) entry) :=
  (h.replaceOld spa).makeRoom.linkEntry fun e he =>
    fresh_of_zallocEntry ha e
      (((makeRoom_sublist _).trans (replaceOld_sublist c spa)).subset he)

theorem step_linked (h : Linked c) (op : Op) : Linked (step rsnPmkid c op) := by
  cases op with
  | authAdd addr pmk aa spa t eapol akmp =>
    rcases authAdd_cases rsnPmkid c addr pmk aa spa t eapol akmp with ⟨-, hr⟩ | ⟨e, -, ha, -, hr⟩
    · simpa only [step, apply, hr] using h
    · simpa only [step, apply, hr] using h.insertion ha spa
  | addOkc addr old pmkid =>
    rcases addOkc_cases c addr old pmkid with ⟨-, hr⟩ | ⟨e, ha, hr⟩
    · simpa only [step, apply, hr] using h
    · simpa only [step, apply, hr] using h.linkEntry (fresh_of_zallocEntry ha)
  | freeEntry addr =>
    simp only [step, apply]
    split
    · exact h.freeEntry (List.mem_of_find?_eq_some ‹_›)
    · exact h
  | expire => exact h.expire
  | advance dt => exact h.congr rfl rfl rfl

/-! ## Lookups -/

/-- The entry is of the station and under the PMKID that are given. -/
def Sought (spa : Option MacAddr) (pmkid : Option Pmkid) (e : PmksaEntry) : Prop :=
  (∀ a ∈ spa, e.spa = a) ∧ ∀ p ∈ pmkid, e.pmkid = p

theorem Linked.mem_searched (h : Linked c) {pmkid : Option Pmkid} {e : PmksaEntry}
    (he : ∀ p ∈ pmkid, e.pmkid = p) :
    (e ∈ pmkid.elim c.pmksa fun p => c.pmkid (pmkidHash p)) ↔ e ∈ c.pmksa := by
  cases pmkid with
  | none => exact Iff.rfl
  | some p =>
    rw [Option.elim_some, (h.chains _).mem_iff, List.mem_filter, he p rfl]
    simp

theorem authGet_eq (c : PmksaCache) (spa : Option MacAddr) (pmkid : Option Pmkid) :
    authGet c spa pmkid = (pmkid.elim c.pmksa fun p => c.pmkid (pmkidHash p)).find? fun e =>
      (spa.all fun a => e.spa = a) && (pmkid.all fun p => e.pmkid = p) := by
  cases pmkid <;> rfl

/-- **Lookups after any run**: though one by PMKID walks a single chain, it finds an entry whenever
the list has one that is sought, and nothing else. -/
theorem run_authGet (now : ℤ) (ops : List Op) (spa : Option MacAddr) (pmkid : Option Pmkid) :
    let c := run (step rsnPmkid) (authInit now) ops
    (∀ e ∈ authGet c spa pmkid, e ∈ c.pmksa ∧ Sought spa pmkid e) ∧
      (authGet c spa pmkid = none → ∀ e ∈ c.pmksa, ¬ Sought spa pmkid e) := by
  intro c
  have h : Linked c := run_inv (I := Linked) (fun _ op h => step_linked rsnPmkid h op)
    (linked_authInit now) ops
  have hsought : ∀ e : PmksaEntry, ((spa.all fun a => e.spa = a) &&
      (pmkid.all fun p => e.pmkid = p)) = true ↔ Sought spa pmkid e := fun e => by
    simp [Sought, Option.all_eq_true]
  rw [authGet_eq]
  constructor
  · intro e he
    have hs := (hsought e).mp (by simpa using List.find?_some (Option.mem_def.mp he))
    exact ⟨(h.mem_searched hs.2).mp (List.mem_of_find?_eq_some he), hs⟩
  · intro hnone e he hs
    exact List.find?_eq_none.mp hnone e ((h.mem_searched hs.2).mpr he) ((hsought e).mpr hs)

/-! ## The entries of one station -/

/-- The entries of the cache for a station, in the order of the list. -/
def entriesFor (c : PmksaCache) (spa : MacAddr) : List PmksaEntry :=
  c.pmksa.filter fun e => e.spa = spa

theorem replaceOld_eq (c : PmksaCache) (spa : MacAddr) :
    replaceOld c spa = (entriesFor c spa).head?.elim c (Pmksa.freeEntry c) := by
  unfold replaceOld
  rw [authGet_spa_eq, ← List.head?_filter]
  change _ = (List.filter _ _).head?.elim c (Pmksa.freeEntry c)
  split <;> simp [*]

theorem entriesFor_replaceOld (h : Linked c) (spa : MacAddr) :
    entriesFor (replaceOld c spa) spa = (entriesFor c spa).tail := by
  have hnd : ((entriesFor c spa).map PmksaEntry.addr).Nodup :=
    h.nodup.sublist (List.filter_sublist.map _)
  rw [replaceOld_eq]
  cases hl : entriesFor c spa with
  | nil => simpa using hl
  | cons pos rest =>
    rw [hl] at hnd
    have hrest : unlink pos (pos :: rest) = rest := List.eraseP_cons_of_pos (by simp)
    show (unlink pos c.pmksa).filter _ = rest
    rw [unlink_eq_filter pos h.nodup, List.filter_filter, ← hrest,
      unlink_eq_filter pos hnd, ← hl, entriesFor, List.filter_filter]
    exact List.filter_congr fun e _ => Bool.and_comm _ _

theorem entriesFor_linkEntry (c : PmksaCache) (entry : PmksaEntry) :
    (entriesFor (linkEntry c entry) entry.spa).Perm (entry :: entriesFor c entry.spa) := by
  have hp := (insertByKey_perm PmksaEntry.expiration entry c.pmksa).filter
    fun e => decide (e.spa = entry.spa)
  rwa [List.filter_cons_of_pos (by simp)] at hp

theorem makeRoom_of_lt (h : c.pmksaCount < pmksaCacheMaxEntries) :
    makeRoom c = c := by
  unfold makeRoom
  split
  · rw [if_neg (by omega)]
  · rfl

theorem makeRoom_lt (h : Linked c) (hc : c.pmksaCount ≤ pmksaCacheMaxEntries) :
    (makeRoom c).pmksaCount < pmksaCacheMaxEntries := by
  unfold makeRoom
  have hcount := h.count
  cases hl : c.pmksa with
  | nil =>
    rw [hl] at hcount
    simp only [hcount, pmksaCacheMaxEntries, List.length_nil]
    omega
  | cons head rest =>
    dsimp only
    split
    · show c.pmksaCount - 1 < _
      omega
    · omega

theorem replaceOld_count (c : PmksaCache) (spa : MacAddr) :
    (replaceOld c spa).pmksaCount =
      if entriesFor c spa = [] then c.pmksaCount else c.pmksaCount - 1 := by
  rw [replaceOld_eq]
  cases entriesFor c spa with
  | nil => rfl
  | cons pos rest => rfl

end Operations

end Hostapd.Ap.Pmksa

/-!
## The authenticator's PMKSA cache: its runs

Two promises of the cache over whole runs, and exactly which runs meet them.

* **Replacement and the bound** (`Promise`): after every operation the two linkages agree, there
  are at most 1024 entries, and an addition for a station leaves the new entry as the only one of
  that station. `pmksa_cache_add_okc` goes round both the replacement and the eviction, so a
  later addition finds two entries of the station and replaces one of them:
  **`run_promise_iff`** says that the promise holds along a run exactly when every addition finds
  at most one entry of its station, and every opportunistic one finds the cache below its bound.
* **Expiry** (`Effective`): a non-empty cache has its `pmksa_cache_expire` timeout registered in
  time. `pmksa_cache_set_expiration` is called from `pmksa_cache_expire` only, which only the
  timeout calls, so no timeout is ever registered: **`run_effective_iff`**.
-/

namespace Hostapd.Ap.Pmksa

open Hostapd.Lib

section Replacement

variable (rsnPmkid : Bytes → MacAddr → MacAddr → Bool → Pmkid)

/-- The station whose old entry the operation promises to replace. -/
def Op.replaces : Op → Option MacAddr
  | .authAdd _ _ _ spa _ _ _ => some spa
  | _ => none

/-- What the cache promises of one operation: the representation and the bound after it, and for
a successful addition that its entry is the only one of its station. -/
def Promise (c : PmksaCache) (op : Op) : Prop :=
  Linked (step rsnPmkid c op) ∧ (step rsnPmkid c op).pmksaCount ≤ pmksaCacheMaxEntries ∧
    ∀ spa entry, op.replaces = some spa → (apply rsnPmkid c op).1 = some entry →
      entriesFor (step rsnPmkid c op) spa = [entry]

/-- The condition on an operation and the cache it finds: a successful addition finds at most one
entry of its station, a successful opportunistic one finds the cache below its bound. -/
def StepOk (c : PmksaCache) (op : Op) : Prop :=
  Inserts c op →
    match op with
    | .authAdd _ _ _ spa _ _ _ => (entriesFor c spa).length ≤ 1
    | .addOkc _ _ _ => c.pmksaCount < pmksaCacheMaxEntries
    | _ => True

/-- The invariant of the runs that keep the promise. -/
def Sound (c : PmksaCache) : Prop := Linked c ∧ c.pmksaCount ≤ pmksaCacheMaxEntries

theorem expireLoop_count_le (n : ℕ) (c : PmksaCache) :
    (expireLoop n c).pmksaCount ≤ c.pmksaCount := by
  induction n generalizing c with
  | zero => exact le_refl _
  | succ n ih =>
    cases hc : c.pmksa with
    | nil => simp only [expireLoop, hc, le_refl]
    | cons entry rest =>
      simp only [expireLoop, hc]
      split
      · refine (ih _).trans ?_
        show c.pmksaCount - 1 ≤ _
        omega
      · exact le_refl _

/-- After a successful addition the station has the new entry and all its old ones but the first,
unless the oldest entry of a full cache had to go. -/
theorem entriesFor_authAdd {c : PmksaCache} (h : Sound c) (entry : PmksaEntry) :
    entriesFor (linkEntry (makeRoom (replaceOld c entry.spa)) entry) entry.spa = [entry] ↔
      (entriesFor c entry.spa).length ≤ 1 := by
  have hperm := entriesFor_linkEntry (makeRoom (replaceOld c entry.spa)) entry
  have hold := entriesFor_replaceOld h.1 entry.spa
  constructor
  · intro hone
    rw [hone] at hperm
    have hnil : entriesFor (makeRoom (replaceOld c entry.spa)) entry.spa = [] := by
      have := hperm.length_eq
      simpa using this
    by_contra hlen
    -- A station with two entries has one freed, so the cache is not full and keeps the other.
    have hcount := replaceOld_count c entry.spa
    rw [if_neg (by rintro h0; simp [h0] at hlen)] at hcount
    have hlt : (replaceOld c entry.spa).pmksaCount < pmksaCacheMaxEntries := by
      have := h.2
      omega
    rw [makeRoom_of_lt hlt, hold] at hnil
    have := congrArg List.length hnil
    simp at this
    omega
  · intro hlen
    have hnil : entriesFor (replaceOld c entry.spa) entry.spa = [] := by
      rw [hold]
      exact List.length_eq_zero_iff.mp (by rw [List.length_tail]; omega)
    have hnil' : entriesFor (makeRoom (replaceOld c entry.spa)) entry.spa = [] :=
      List.sublist_nil.mp (hnil ▸ (makeRoom_sublist _).filter _)
    rw [hnil'] at hperm
    exact List.perm_singleton.mp hperm

theorem promise_iff {c : PmksaCache} (h : Sound c) (op : Op) :
    Promise rsnPmkid c op ↔ StepOk c op := by
  have hlinked := step_linked rsnPmkid h.1 op
  have hbound := h.2
  unfold Promise StepOk
  cases op with
  | authAdd addr pmk aa spa t eapol akmp =>
    rcases authAdd_cases rsnPmkid c addr pmk aa spa t eapol akmp with
      ⟨hno, hr⟩ | ⟨entry, hlen, ha, rfl, hr⟩
    · simp only [step, apply, hr] at hlinked ⊢
      exact iff_of_true ⟨hlinked, hbound, fun _ _ _ hnone => nomatch hnone⟩
        fun hins => absurd hins hno
    · have hins : Inserts c (.authAdd addr pmk aa entry.spa t eapol akmp) :=
        ⟨hlen, by simp [ha]⟩
      have hroom : (makeRoom (replaceOld c entry.spa)).pmksaCount < pmksaCacheMaxEntries := by
        refine makeRoom_lt (h.1.replaceOld _) ?_
        rw [replaceOld_count]
        split <;> omega
      simp only [step, apply, hr] at hlinked ⊢
      refine ⟨fun hp _ => (entriesFor_authAdd h entry).mp (hp.2.2 _ _ rfl rfl),
        fun hc => ⟨hlinked, ?_, ?_⟩⟩
      · show (makeRoom (replaceOld c entry.spa)).pmksaCount + 1 ≤ _
        omega
      · rintro _ _ ⟨⟩ ⟨⟩
        exact (entriesFor_authAdd h entry).mpr (hc hins)
  | addOkc addr old pmkid =>
    rcases addOkc_cases c addr old pmkid with ⟨hno, hr⟩ | ⟨entry, ha, hr⟩
    · simp only [step, apply, hr] at hlinked ⊢
      exact iff_of_true ⟨hlinked, hbound, fun _ _ hnone => nomatch hnone⟩
        fun hins => absurd hno hins
    · have hins : Inserts c (.addOkc addr old pmkid) := by simp [Inserts, ha]
      simp only [step, apply, hr] at hlinked ⊢
      have hcount : (linkEntry c entry).pmksaCount = c.pmksaCount + 1 := rfl
      rw [hcount]
      refine ⟨fun hp _ => by omega, fun hc => ⟨hlinked, ?_, fun _ _ hnone => nomatch hnone⟩⟩
      have := hc hins
      omega
  | freeEntry addr =>
    refine iff_of_true ⟨hlinked, ?_, fun _ _ hnone => nomatch hnone⟩ fun _ => trivial
    simp only [step, apply]
    split
    · show c.pmksaCount - 1 ≤ _
      omega
    · exact hbound
  | expire =>
    refine iff_of_true ⟨hlinked, ?_, fun _ _ hnone => nomatch hnone⟩ fun _ => trivial
    show (setExpiration _).pmksaCount ≤ _
    rw [(setExpiration_frame _).2.2]
    exact (expireLoop_count_le _ c).trans hbound
  | advance dt =>
    exact iff_of_true ⟨hlinked, hbound, fun _ _ hnone => nomatch hnone⟩ fun _ => trivial

/-- The promises of the cache hold after every operation of a run exactly when every successful
addition finds at most one entry of its station and every successful opportunistic one finds the
cache below its bound. -/
theorem run_promise_iff (now : ℤ) (ops : List Op) :
    Along (step rsnPmkid) (Promise rsnPmkid) (authInit now) ops ↔
      Along (step rsnPmkid) StepOk (authInit now) ops := by
  refine along_congr (I := Sound) (fun c op h hok => ?_) (fun c op h => promise_iff rsnPmkid h op)
    ⟨linked_authInit now, by simp [authInit, pmksaCacheMaxEntries]⟩ ops
  have hp := (promise_iff rsnPmkid h op).mpr hok
  exact ⟨hp.1, hp.2.1⟩

/-- A PMKID of sixteen equal octets, for runs on fixed inputs. -/
def pmkidOf (b : UInt8) : Pmkid := Vector.replicate 16 b

/-- An opportunistic entry survives a later addition: the station is added, gets a second entry
through `pmksa_cache_add_okc`, and the next addition replaces one of the two. -/
theorem okc_entry_not_replaced :
    ¬ Along (step fun _ _ _ _ => pmkidOf 0) (Promise fun _ _ _ _ => pmkidOf 0) (authInit 0)
      [.authAdd (some 1) [] 0 7 0 none .ieee8021x,
        .addOkc (some 2) (newEntry (fun _ _ _ _ => pmkidOf 0) 1 0 [] 0 7 0 none .ieee8021x)
          (pmkidOf 1),
        .authAdd (some 3) [1] 0 7 0 none .ieee8021x] := by
  intro h
  have hthird := h.2.2.1.2.2 7 _ rfl rfl
  revert hthird
  decide

end Replacement

section Expiry

variable (rsnPmkid : Bytes → MacAddr → MacAddr → Bool → Pmkid)

/-- What the event loop does before it hands out other work: run the timeout if its time has
come. Source: `eloop.c`, `eloop_run`. -/
def runTimeouts (c : PmksaCache) : PmksaCache :=
  match c.timeout with
  | some t => if t ≤ c.now then expire { c with timeout := none } else c
  | none => c

/-- The calls the event loop makes into the cache: insertions, and the passing of time. -/
def Op.IsCall : Op → Prop
  | .authAdd .. | .addOkc .. | .advance _ => True
  | .freeEntry _ | .expire => False

/-- A call from the event loop, after the timeouts that are due. -/
def loopStep (c : PmksaCache) (op : { op : Op // op.IsCall }) : PmksaCache :=
  step rsnPmkid (runTimeouts c) op

/-- Expiry is effective: a non-empty cache has its timeout registered for no later than a second
after the head expires, and no lookup returns an entry that expired more than a second ago. -/
def Effective (c : PmksaCache) : Prop :=
  (∀ head ∈ c.pmksa.head?, ∃ t, c.timeout = some t ∧ t ≤ head.expiration + 1) ∧
    ∀ spa pmkid entry, authGet (runTimeouts c) spa pmkid = some entry →
      c.now ≤ entry.expiration + 1

/-- The state before the first insertion: nothing linked, nothing registered. -/
structure Untouched (c : PmksaCache) : Prop where
  pmksa : c.pmksa = []
  pmkid : ∀ h, c.pmkid h = []
  timeout : c.timeout = none

variable {c : PmksaCache}

theorem Untouched.runTimeouts (h : Untouched c) : runTimeouts c = c := by
  simp [Pmksa.runTimeouts, h.timeout]

theorem Untouched.effective (h : Untouched c) : Effective c := by
  refine ⟨fun head hhead => by simp [h.pmksa] at hhead, fun spa pmkid entry hget => ?_⟩
  rw [h.runTimeouts] at hget
  cases pmkid <;> simp [authGet, h.pmksa, h.pmkid] at hget

theorem not_effective_linkEntry (h : c.timeout = none) (entry : PmksaEntry) :
    ¬ Effective (linkEntry c entry) := by
  rintro ⟨hhead, -⟩
  cases hl : (linkEntry c entry).pmksa with
  | nil =>
    have hlen : (linkEntry c entry).pmksa.length = c.pmksa.length + 1 :=
      length_insertByKey entry c.pmksa
    simp [hl] at hlen
  | cons head rest =>
    obtain ⟨t, ht, -⟩ := hhead head (by simp [hl])
    have : (linkEntry c entry).timeout = c.timeout := rfl
    rw [this, h] at ht
    cases ht

theorem makeRoom_timeout (c : PmksaCache) : (makeRoom c).timeout = c.timeout := by
  unfold makeRoom
  split
  · split <;> rfl
  · rfl

theorem replaceOld_timeout (c : PmksaCache) (spa : MacAddr) :
    (replaceOld c spa).timeout = c.timeout := by
  unfold replaceOld
  split <;> rfl

/-- From the untouched cache a call keeps expiry effective exactly when it inserts nothing, and
then the cache stays untouched. -/
theorem loopStep_effective_iff (h : Untouched c)
    (op : { op : Op // op.IsCall }) :
    (Effective (loopStep rsnPmkid c op) ↔ ¬ Inserts c op) ∧
      (¬ Inserts c op → Untouched (loopStep rsnPmkid c op)) := by
  obtain ⟨op, hop⟩ := op
  simp only [loopStep, h.runTimeouts]
  cases op with
  | authAdd addr pmk aa spa t eapol akmp =>
    rcases authAdd_cases rsnPmkid c addr pmk aa spa t eapol akmp with
      ⟨hno, hr⟩ | ⟨entry, hlen, ha, -, hr⟩
    · simp only [step, apply, hr]
      exact ⟨iff_of_true h.effective hno, fun _ => h⟩
    · have hins : Inserts c (.authAdd addr pmk aa spa t eapol akmp) := ⟨hlen, by simp [ha]⟩
      simp only [step, apply, hr]
      refine ⟨iff_of_false (not_effective_linkEntry ?_ entry) (not_not_intro hins),
        fun hno => absurd hins hno⟩
      rw [makeRoom_timeout, replaceOld_timeout, h.timeout]
  | addOkc addr old pmkid =>
    rcases addOkc_cases c addr old pmkid with ⟨hno, hr⟩ | ⟨entry, ha, hr⟩
    · have hins : ¬ Inserts c (.addOkc addr old pmkid) := fun hins => hins hno
      simp only [step, apply, hr]
      exact ⟨iff_of_true h.effective hins, fun _ => h⟩
    · have hins : Inserts c (.addOkc addr old pmkid) := by simp [Inserts, ha]
      simp only [step, apply, hr]
      exact ⟨iff_of_false (not_effective_linkEntry h.timeout entry) (not_not_intro hins),
        fun hno => absurd hins hno⟩
  | freeEntry addr => exact hop.elim
  | expire => exact hop.elim
  | advance dt =>
    have hu : Untouched (step rsnPmkid c (.advance dt)) := ⟨h.pmksa, h.pmkid, h.timeout⟩
    exact ⟨iff_of_true hu.effective id, fun _ => hu⟩

/-- Expiry is effective after every call of a run exactly when no call of the run inserts an
entry: the first insertion leaves an entry that nothing will ever expire. -/
theorem run_effective_iff (now : ℤ) (ops : List { op : Op // op.IsCall }) :
    Along (loopStep rsnPmkid) (fun c op => Effective (loopStep rsnPmkid c op)) (authInit now) ops ↔
      Along (loopStep rsnPmkid) (fun c op => ¬ Inserts c op) (authInit now) ops :=
  along_congr (I := Untouched) (fun _ op h => (loopStep_effective_iff rsnPmkid h op).2)
    (fun _ op h => (loopStep_effective_iff rsnPmkid h op).1) ⟨rfl, fun _ => rfl, rfl⟩ ops

/-- One entry is added at time 0 with a lifetime of ten seconds; an hour later it is still there
and a lookup returns it. -/
theorem expired_entry_returned :
    ¬ Along (loopStep fun _ _ _ _ => pmkidOf 0)
      (fun c op => Effective (loopStep (fun _ _ _ _ => pmkidOf 0) c op)) (authInit 0)
      [⟨.authAdd (some 1) [] 0 7 10 none .ieee8021x, trivial⟩, ⟨.advance 3600, trivial⟩] := by
  intro h
  have hget := h.2.1.2 (some 7) none
    (newEntry (fun _ _ _ _ => pmkidOf 0) 1 0 [] 0 7 10 none .ieee8021x) (by decide)
  revert hget
  decide

end Expiry

end Hostapd.Ap.Pmksa
