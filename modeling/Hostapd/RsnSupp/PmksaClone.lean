import Hostapd.RsnSupp.PmksaCacheInv

/-!
# The supplicant's PMKSA cache: opportunistic clones

What `pmksa_cache_get_opportunistic` copies from the entry it finds, for an authenticator that has
no entry in the cache.

* **`Clones`**: the entry returned carries the PMK, the AKM, the network and the expiration of its
  source, is marked opportunistic, and the source is linked when its expiration is read.
* **`EvictsSource`**: the cache is full and the source is its oldest entry, which `pmksa_cache_add`
  frees before the expiration is read.
* **`getOpportunistic_clones_iff`**: a cache of the shape all runs keep (`run_shape`) clones
  exactly when it does not evict the source.
-/

namespace Hostapd.RsnSupp.Pmksa

open Hostapd.Lib

section Clones

variable (rsnPmkid : Bytes → MacAddr → MacAddr → Bool → Pmkid)

/-! ## The shape along runs -/

variable {c : PmksaCache}

theorem Shape.add (h : Shape c) (addr : Option ℕ) (pmk : Bytes)
    (aa spa : MacAddr) (ctx : Option ℕ) (akmp : WpaKeyMgmt) :
    Shape (add rsnPmkid c addr pmk aa spa ctx akmp).2 := by
  rcases add_cases rsnPmkid h addr pmk aa spa ctx akmp with
    ⟨-, hr⟩ | ⟨pos, -, -, hr⟩ | ⟨entry, -, -, -, hi⟩
  · rw [hr]
    exact h
  · rw [hr]
    exact h
  · exact h.inserted hi

theorem Shape.cloneEntry (h : Shape c) (addr : Option ℕ) (stale : ℤ)
    (old : PmksaEntry) (aa : MacAddr) : Shape (cloneEntry rsnPmkid c addr stale old aa).2 := by
  have hadd := h.add rsnPmkid addr old.pmk aa c.sm.ownAddr old.networkCtx old.akmp
  unfold Pmksa.cloneEntry
  split
  · rename_i c' hr
    rw [hr] at hadd
    exact hadd
  · rename_i new c' hr
    rw [hr] at hadd
    exact hadd.modifyEntry _ (fun _ => rfl) (fun _ => rfl)

theorem Shape.getOpportunistic (h : Shape c) (addr : Option ℕ) (stale : ℤ)
    (ctx : Option ℕ) (aa : MacAddr) :
    Shape (getOpportunistic rsnPmkid c addr stale ctx aa).2 := by
  rw [getOpportunistic_eq]
  split
  · exact h.cloneEntry rsnPmkid addr stale _ aa
  · exact h

theorem Shape.setCurrent (h : Shape c) (addr : Option ℕ) (stale : ℤ)
    (pmkid : Option Pmkid) (bssid : Option MacAddr) (ctx : Option ℕ) (try' : Bool) :
    Shape (setCurrent rsnPmkid c addr stale pmkid bssid ctx try') := by
  have hcleared : Shape { c with sm := { c.sm with curPmksa := none } } := h.congr ⟨rfl, rfl⟩
  unfold Pmksa.setCurrent
  dsimp only
  split
  · exact (hcleared.getOpportunistic rsnPmkid addr stale ctx _).congr ⟨rfl, rfl⟩
  · exact h.congr ⟨rfl, rfl⟩

theorem Shape.step (h : Shape c) (op : Op) : Shape (step rsnPmkid c op) := by
  cases op with
  | add addr pmk aa spa ctx akmp => exact h.add rsnPmkid addr pmk aa spa ctx akmp
  | getOpportunistic addr stale ctx aa => exact h.getOpportunistic rsnPmkid addr stale ctx aa
  | setCurrent addr stale pmkid bssid ctx try' =>
    exact h.setCurrent rsnPmkid addr stale pmkid bssid ctx try'
  | expire => exact h.expire
  | notifyReconfig =>
    exact ⟨by simpa [Pmksa.step, notifyReconfig, Function.comp_def] using h.addrs,
      by simpa [Pmksa.step, notifyReconfig, Function.comp_def] using h.aas,
      by simpa [Pmksa.step, notifyReconfig] using h.count, h.bound⟩
  | smChange sm => exact h.congr ⟨rfl, rfl⟩
  | advance dt => exact h.congr ⟨rfl, rfl⟩

theorem init_shape (sm : SmData) (now : ℤ) : Shape (init sm now) :=
  ⟨List.nodup_nil, List.nodup_nil, rfl, by simp [init, pmksaCacheMaxEntries]⟩

theorem run_shape (sm : SmData) (now : ℤ) (ops : List Op) :
    Shape (run (step rsnPmkid) (init sm now) ops) :=
  run_inv (fun _ op h => h.step rsnPmkid op) (init_shape sm now) ops

/-! ## Adding for a new authenticator -/

variable {addr : Option ℕ} {aa : MacAddr}

theorem add_new {a : ℕ} {pmk : Bytes}
    (hlen : pmk.length ≤ pmkLen) (ha : zallocEntry c addr = some a)
    (hnew : aa ∉ c.pmksa.map PmksaEntry.aa) (spa : MacAddr) (ctx : Option ℕ)
    (akmp : WpaKeyMgmt) :
    add rsnPmkid c addr pmk aa spa ctx akmp =
      (some (newEntry rsnPmkid c a pmk aa spa ctx akmp),
        linkEntry (makeRoom c) (newEntry rsnPmkid c a pmk aa spa ctx akmp)) := by
  have hfind : (c.pmksa.find? fun pos => decide (pos.aa = aa)) = none := by
    refine List.find?_eq_none.mpr fun pos hpos => ?_
    intro heq
    exact hnew (List.mem_map.mpr ⟨pos, hpos, by simpa using heq⟩)
  unfold Pmksa.add
  rw [if_neg (not_lt.mpr hlen), ha]
  simp only [hfind]

theorem new_inserted (h : Shape c) {a : ℕ}
    (ha : zallocEntry c addr = some a) (hnew : aa ∉ c.pmksa.map PmksaEntry.aa)
    (pmk : Bytes) (spa : MacAddr) (ctx : Option ℕ) (akmp : WpaKeyMgmt) :
    Inserted c (linkEntry (makeRoom c) (newEntry rsnPmkid c a pmk aa spa ctx akmp)) aa
      (newEntry rsnPmkid c a pmk aa spa ctx akmp) := by
  refine linkEntry_inserted ?_ h.count rfl (fresh_of_zallocEntry ha) rfl
  refine (List.eraseP_of_forall_not fun e he heq => ?_).symm
  exact hnew (List.mem_map.mpr ⟨e, he, by simpa using heq⟩)

variable {old : PmksaEntry}

theorem mem_staying_iff (h : Shape c)
    (hnew : aa ∉ c.pmksa.map PmksaEntry.aa) (hold : old ∈ c.pmksa) :
    old ∈ staying c aa ↔
      ¬ (c.pmksaCount ≥ pmksaCacheMaxEntries ∧ c.pmksa.head? = some old) := by
  have hrest : (c.pmksa.eraseP fun e => decide (e.aa = aa)) = c.pmksa := by
    refine List.eraseP_of_forall_not fun e he heq => ?_
    exact hnew (List.mem_map.mpr ⟨e, he, by simpa using heq⟩)
  unfold staying
  simp only [hrest]
  rw [h.count]
  split
  · rename_i hfull
    cases hl : c.pmksa with
    | nil => simp [hl] at hold
    | cons head rest =>
      have hnd := h.addrs
      rw [hl, List.map_cons, List.nodup_cons] at hnd
      rw [hl, List.mem_cons] at hold
      rw [hl] at hfull
      simp only [List.tail_cons, List.head?_cons, Option.some.injEq, hfull, true_and]
      constructor
      · rintro hmem rfl
        exact hnd.1 (List.mem_map_of_mem hmem)
      · intro hne
        exact hold.resolve_left fun heq => hne heq.symm
  · rename_i hroom
    exact iff_of_true hold fun hfull => hroom hfull.1

/-! ## Clones -/

/-- The entry that a lookup for the network `networkCtx` and the authenticator `aa` returns, at the
address `a` of the cache `c'` it leaves, is a clone of its source: the source is linked in the cache
from which its expiration is read. -/
structure ClonedFrom (c c' : PmksaCache) (addr : Option ℕ) (aa : MacAddr) (a : ℕ)
    (old new : PmksaEntry) : Prop where
  /-- The source outlives the addition. -/
  linked : old ∈ (add rsnPmkid c addr old.pmk aa c.sm.ownAddr old.networkCtx old.akmp).2.pmksa
  mem : new ∈ c'.pmksa
  addr_eq : new.addr = a
  aa_eq : new.aa = aa
  pmk : new.pmk = old.pmk
  akmp : new.akmp = old.akmp
  networkCtx : new.networkCtx = old.networkCtx
  expiration : new.expiration = old.expiration
  opportunistic : new.opportunistic = true

/-- If the lookup returns an entry, that entry is a clone of the first one of the network. -/
def Clones (c : PmksaCache) (addr : Option ℕ) (stale : ℤ) (networkCtx : Option ℕ)
    (aa : MacAddr) : Prop :=
  ∀ a c', getOpportunistic rsnPmkid c addr stale networkCtx aa = (some a, c') →
    ∃ old new, source c networkCtx = some old ∧ ClonedFrom rsnPmkid c c' addr aa a old new

/-- The cache is full and the entry to be cloned is its oldest one, and neither the length of its
PMK nor the allocation makes the addition fail. -/
def EvictsSource (c : PmksaCache) (addr : Option ℕ) (networkCtx : Option ℕ) : Prop :=
  c.pmksaCount ≥ pmksaCacheMaxEntries ∧
    ∃ old, source c networkCtx = some old ∧ c.pmksa.head? = some old ∧ Succeeds c addr old.pmk

theorem cloneEntry_none (h : Shape c)
    (hno : ¬ Succeeds c addr old.pmk) (stale : ℤ) (aa : MacAddr) :
    cloneEntry rsnPmkid c addr stale old aa = (none, c) := by
  unfold cloneEntry
  rcases add_cases rsnPmkid h addr old.pmk aa c.sm.ownAddr old.networkCtx old.akmp with
    ⟨-, hr⟩ | ⟨pos, hs, -, -⟩ | ⟨entry, hs, -, -, -⟩
  · rw [hr]
  · exact absurd hs hno
  · exact absurd hs hno

theorem cloneEntry_new (h : Shape c) {a : ℕ}
    (hold : old ∈ c.pmksa)
    (hnew : aa ∉ c.pmksa.map PmksaEntry.aa) (hlen : old.pmk.length ≤ pmkLen)
    (ha : zallocEntry c addr = some a) (stale : ℤ) :
    (cloneEntry rsnPmkid c addr stale old aa).1 = some a ∧
      { newEntry rsnPmkid c a old.pmk aa c.sm.ownAddr old.networkCtx old.akmp with
        expiration := inherited c stale old aa, opportunistic := true } ∈
        (cloneEntry rsnPmkid c addr stale old aa).2.pmksa := by
  have hi := new_inserted rsnPmkid h ha hnew old.pmk c.sm.ownAddr old.networkCtx old.akmp
  have hread := readExpiration_inserted h hi hold stale
  unfold cloneEntry
  rw [add_new rsnPmkid hlen ha hnew]
  refine ⟨rfl, ?_⟩
  dsimp only
  rw [hread]
  refine List.mem_map.mpr
    ⟨newEntry rsnPmkid c a old.pmk aa c.sm.ownAddr old.networkCtx old.akmp, ?_, ?_⟩
  · rw [hi.pmksa]
    exact mem_insertByKey.mpr (.inl rfl)
  · rw [if_pos rfl]

/-- The source outlives the addition of its clone exactly when it is not the oldest entry of a full
cache. -/
theorem linked_iff (h : Shape c) {a : ℕ}
    (hold : old ∈ c.pmksa) (hnew : aa ∉ c.pmksa.map PmksaEntry.aa)
    (hlen : old.pmk.length ≤ pmkLen) (ha : zallocEntry c addr = some a) :
    old ∈ (add rsnPmkid c addr old.pmk aa c.sm.ownAddr old.networkCtx old.akmp).2.pmksa ↔
      ¬ (c.pmksaCount ≥ pmksaCacheMaxEntries ∧ c.pmksa.head? = some old) := by
  have hi := new_inserted rsnPmkid h ha hnew old.pmk c.sm.ownAddr old.networkCtx old.akmp
  rw [add_new rsnPmkid hlen ha hnew, hi.pmksa, mem_insertByKey, ← mem_staying_iff h hnew hold]
  refine ⟨fun hmem => hmem.resolve_left fun heq => ?_, .inr⟩
  exact hi.fresh old hold (congrArg PmksaEntry.addr heq)

theorem clones_of_stays (h : Shape c) {addr ctx : Option ℕ}
    (hnew : aa ∉ c.pmksa.map PmksaEntry.aa) (stale : ℤ) (hev : ¬ EvictsSource c addr ctx) :
    Clones rsnPmkid c addr stale ctx aa := by
  intro a c' hget
  rw [getOpportunistic_eq] at hget
  cases hs : source c ctx with
  | none => simp [hs] at hget
  | some old =>
    simp only [hs] at hget
    have hold := source_mem hs
    by_cases hsucc : Succeeds c addr old.pmk
    · obtain ⟨b, hb⟩ := Option.ne_none_iff_exists'.mp hsucc.2
      have hstay : ¬ (c.pmksaCount ≥ pmksaCacheMaxEntries ∧ c.pmksa.head? = some old) :=
        fun hfull => hev ⟨hfull.1, old, hs, hfull.2, hsucc⟩
      obtain ⟨hret, hmem⟩ := cloneEntry_new rsnPmkid h hold hnew hsucc.1 hb stale
      rw [hget] at hret hmem
      have hinh : inherited c stale old aa = old.expiration :=
        if_pos ((mem_staying_iff h hnew hold).mpr hstay)
      exact ⟨old, _, rfl, (linked_iff rsnPmkid h hold hnew hsucc.1 hb).mpr hstay, hmem,
        (Option.some.inj hret).symm, rfl, rfl, rfl, rfl, hinh, rfl⟩
    · rw [cloneEntry_none rsnPmkid h hsucc] at hget
      cases hget

theorem not_clones_of_evicts (h : Shape c) {addr ctx : Option ℕ}
    (hnew : aa ∉ c.pmksa.map PmksaEntry.aa) (stale : ℤ) (hev : EvictsSource c addr ctx) :
    ¬ Clones rsnPmkid c addr stale ctx aa := by
  intro hclones
  obtain ⟨hfull, old, hs, hhead, hlen, halloc⟩ := hev
  obtain ⟨a, ha⟩ := Option.ne_none_iff_exists'.mp halloc
  have hold := source_mem hs
  have hret := (cloneEntry_new rsnPmkid h hold hnew hlen ha stale).1
  have hget : getOpportunistic rsnPmkid c addr stale ctx aa =
      (some a, (cloneEntry rsnPmkid c addr stale old aa).2) := by
    rw [getOpportunistic_eq, hs, ← hret]
  obtain ⟨old', new, hs', hcl⟩ := hclones a _ hget
  rw [hs] at hs'
  cases hs'
  exact (linked_iff rsnPmkid h hold hnew hlen ha).mp hcl.linked ⟨hfull, hhead⟩

/-- For an authenticator that is not in the cache, the lookup clones its source exactly when it does
not evict it. -/
theorem getOpportunistic_clones_iff {c : PmksaCache} (h : Shape c) (addr : Option ℕ) (stale : ℤ)
    (networkCtx : Option ℕ) {aa : MacAddr} (hnew : aa ∉ c.pmksa.map PmksaEntry.aa) :
    Clones rsnPmkid c addr stale networkCtx aa ↔ ¬ EvictsSource c addr networkCtx :=
  ⟨fun hc hev => not_clones_of_evicts rsnPmkid h hnew stale hev hc,
    clones_of_stays rsnPmkid h hnew stale⟩

def zeroPmkid : Bytes → MacAddr → MacAddr → Bool → Pmkid := fun _ _ _ _ => Vector.replicate 16 0

/-- The cache after an entry for each of `n` authenticators was added, each for a network of its
own. -/
def filledCache (n : ℕ) : PmksaCache :=
  run (step zeroPmkid) (init sampleSm 0)
    ((List.range n).map fun i => .add (some i) [1] i 9 (some i) .psk)

theorem filledCache_shape (n : ℕ) : Shape (filledCache n) := run_shape zeroPmkid sampleSm 0 _

theorem clones_with_room : Clones zeroPmkid (filledCache 31) (some 31) 0 (some 0) 31 := by
  refine (getOpportunistic_clones_iff zeroPmkid (filledCache_shape 31) (some 31) 0 (some 0)
    (by decide +kernel)).mpr fun hev => ?_
  have hroom : ¬ (filledCache 31).pmksaCount ≥ pmksaCacheMaxEntries := by decide +kernel
  exact hroom hev.1

theorem not_clones_when_full :
    ¬ ∀ (c : PmksaCache) (addr : Option ℕ) (stale : ℤ) (networkCtx : Option ℕ) (aa : MacAddr),
      Shape c → aa ∉ c.pmksa.map PmksaEntry.aa → Clones zeroPmkid c addr stale networkCtx aa := by
  intro h
  have hhead : (filledCache 32).pmksa.head? = source (filledCache 32) (some 0) := by
    decide +kernel
  have hfull : (filledCache 32).pmksaCount ≥ pmksaCacheMaxEntries := by decide +kernel
  obtain ⟨old, hs⟩ : ∃ old, source (filledCache 32) (some 0) = some old :=
    Option.isSome_iff_exists.mp (by decide +kernel)
  have hlen : (source (filledCache 32) (some 0)).all fun e => decide (e.pmk.length ≤ pmkLen) := by
    decide +kernel
  have halloc : zallocEntry (filledCache 32) (some 32) ≠ none := by decide +kernel
  rw [hs] at hlen
  have hnew : (32 : MacAddr) ∉ (filledCache 32).pmksa.map PmksaEntry.aa := by decide +kernel
  exact not_clones_of_evicts zeroPmkid (filledCache_shape 32) hnew 0
    ⟨hfull, old, hs, hhead.trans hs, by simpa using hlen, halloc⟩
    (h (filledCache 32) (some 32) 0 (some 0) 32 (filledCache_shape 32) hnew)

/-! ## The current entry -/

/-- The address is that of an entry of the cache. -/
def Live (c : PmksaCache) (a : ℕ) : Prop := ∃ e ∈ c.pmksa, e.addr = a

def CurrentLive (c : PmksaCache) : Prop := ∀ a ∈ c.sm.curPmksa, Live c a

/-- What writes `cur_pmksa` from outside the cache takes it from the cache, or sets it to `NULL`. -/
def SetsLive (c : PmksaCache) (op : Op) : Prop :=
  ∀ sm, op = .smChange sm → ∀ a ∈ sm.curPmksa, Live c a

theorem currentLive_freeEntry {replace : Bool}
    (h : ∀ a ∈ c.sm.curPmksa, a ≠ old.addr → Live c a) :
    CurrentLive (freeEntry c old replace) := by
  unfold freeEntry freeCb
  split
  · split <;> simp [CurrentLive]
  · rename_i hother
    exact fun a ha => h a ha fun heq => hother (.inl (heq ▸ ha))

theorem CurrentLive.freeHead (h : CurrentLive c) {rest : List PmksaEntry}
    (hl : c.pmksa = old :: rest) (calls : List DriverCall) :
    CurrentLive (freeEntry { c with pmksa := rest, calls := calls } old false) := by
  refine currentLive_freeEntry fun a ha hne => ?_
  obtain ⟨e, he, rfl⟩ := h a ha
  rw [hl] at he
  exact ⟨e, List.mem_of_ne_of_mem (fun heq => hne (congrArg _ heq)) he, rfl⟩

theorem CurrentLive.expireLoop {n : ℕ} (h : CurrentLive c) : CurrentLive (expireLoop n c) := by
  induction n generalizing c with
  | zero => exact h
  | succ n ih =>
    unfold Pmksa.expireLoop
    split
    · exact h
    · split
      · exact ih (h.freeHead ‹_› _)
      · exact h

theorem CurrentLive.congr {c' : PmksaCache} (h : CurrentLive c) (hsm : c'.sm = c.sm)
    (hl : ∀ e ∈ c.pmksa, e ∈ c'.pmksa) : CurrentLive c' := by
  intro a ha
  obtain ⟨e, he, rfl⟩ := h a (hsm ▸ ha)
  exact ⟨e, hl e he, rfl⟩

theorem setExpiration_sm (c : PmksaCache) : (setExpiration c).sm = c.sm := by
  unfold setExpiration
  split <;> rfl

theorem CurrentLive.linkEntry (h : CurrentLive c) (new : PmksaEntry) :
    CurrentLive (linkEntry (makeRoom c) new) := by
  have hroom : CurrentLive (makeRoom c) := by
    unfold makeRoom
    split
    · split
      · exact h.freeHead ‹_› _
      · exact h
    · exact h
  refine hroom.congr ?_ fun e he => ?_
  · unfold Pmksa.linkEntry
    dsimp only
    split
    · exact setExpiration_sm _
    · rfl
  · rw [(linkEntry_spec _ new).1]
    exact mem_insertByKey.mpr (.inr he)

theorem CurrentLive.replaceOld (h : CurrentLive c) (hs : Shape c) (hold : old ∈ c.pmksa) :
    CurrentLive (replaceOld c old) := by
  unfold Pmksa.replaceOld
  dsimp only
  split
  · exact currentLive_freeEntry (by simp)
  · refine currentLive_freeEntry fun a ha hne => ?_
    obtain ⟨e, he, rfl⟩ := h a ha
    refine ⟨e, (List.mem_eraseP_of_neg ?_).mpr he, rfl⟩
    simpa using fun heq => hne (congrArg _ (List.inj_on_of_nodup_map hs.aas he hold heq))

variable {pmk : Bytes} {spa : MacAddr} {ctx : Option ℕ} {akmp : WpaKeyMgmt}
  {r : Option PmksaEntry} {c' : PmksaCache}

theorem CurrentLive.add (h : CurrentLive c) (hs : Shape c)
    (hr : add rsnPmkid c addr pmk aa spa ctx akmp = (r, c')) : CurrentLive c' := by
  obtain ⟨-, rfl⟩ := Prod.ext_iff.mp hr
  unfold Pmksa.add
  split
  · exact h
  · split
    · exact h
    · dsimp only
      split
      · split
        · exact h
        · exact (h.replaceOld hs (List.mem_of_find?_eq_some ‹_›)).linkEntry _
      · exact h.linkEntry _

theorem add_mem (hs : Shape c) (hr : add rsnPmkid c addr pmk aa spa ctx akmp = (r, c')) :
    ∀ e ∈ r, e ∈ c'.pmksa := by
  obtain ⟨rfl, rfl⟩ := Prod.ext_iff.mp hr
  rcases add_cases rsnPmkid hs addr pmk aa spa ctx akmp with
    ⟨-, hr⟩ | ⟨pos, -, hpos, hr⟩ | ⟨entry, -, -, hr, hi⟩
  · simp [hr]
  · simpa [hr] using List.mem_of_find?_eq_some (Option.filter_eq_some_iff.mp hpos).1
  · simp [hr, hi.pmksa, mem_insertByKey]

theorem CurrentLive.getOpportunistic {stale : ℤ} (h : CurrentLive c) (hs : Shape c) :
    let r := getOpportunistic rsnPmkid c addr stale ctx aa
    CurrentLive r.2 ∧ ∀ a ∈ r.1, Live r.2 a := by
  intro r
  subst r
  rw [getOpportunistic_eq]
  split
  · unfold cloneEntry
    split
    · rename_i c' hr
      exact ⟨h.add rsnPmkid hs hr, by simp⟩
    · rename_i src _ _ new c' hr
      have hlive : ∀ a, Live c' a → Live (modifyEntry c' new.addr fun e =>
          { e with expiration := readExpiration c' src.addr stale, opportunistic := true }) a := by
        rintro _ ⟨e, he, rfl⟩
        refine ⟨_, List.mem_map_of_mem he, ?_⟩
        split <;> rfl
      refine ⟨fun a ha => hlive a (h.add rsnPmkid hs hr a ha), ?_⟩
      rintro _ ⟨⟩
      exact hlive _ ⟨new, add_mem rsnPmkid hs hr new rfl, rfl⟩
  · exact ⟨h, by simp⟩

theorem currentLive_setCurrent {stale : ℤ} {pmkid : Option Pmkid} {bssid : Option MacAddr}
    {try' : Bool} (hs : Shape c) :
    CurrentLive (setCurrent rsnPmkid c addr stale pmkid bssid ctx try') := by
  unfold setCurrent
  dsimp only
  split
  · have hcleared : CurrentLive { c with sm := { c.sm with curPmksa := none } } := by
      simp [CurrentLive]
    exact (hcleared.getOpportunistic rsnPmkid (hs.congr ⟨rfl, rfl⟩)).2
  · intro a ha
    obtain ⟨e, he, rfl⟩ := Option.map_eq_some_iff.mp ha
    refine ⟨e, ?_, rfl⟩
    have hget : ∀ {b p}, get c b p = some e → e ∈ c.pmksa := List.mem_of_find?_eq_some
    simp only [Option.orElse_eq_orElse, Option.orElse_eq_or, Option.or_eq_some_iff] at he
    rcases he with he | ⟨-, he⟩
    · exact hget (Option.bind_eq_some_iff.mp he).choose_spec.2
    · exact hget (Option.bind_eq_some_iff.mp he).choose_spec.2

/-- **`cur_pmksa` never dangles**: in a run from a state machine without a current entry it points
to an entry that has not been freed, whatever is replaced, evicted, cloned or expires. -/
theorem run_current (sm : SmData) (now : ℤ) (ops : List Op) (hsm : sm.curPmksa = none)
    (hops : Along (step rsnPmkid) SetsLive (init sm now) ops) :
    CurrentLive (run (step rsnPmkid) (init sm now) ops) := by
  refine (Along.run_inv (I := fun c => Shape c ∧ CurrentLive c) (fun c op h hop => ?_)
    ⟨init_shape sm now, by simp [CurrentLive, init, hsm]⟩ hops).2
  refine ⟨h.1.step rsnPmkid op, ?_⟩
  cases op with
  | add => exact h.2.add rsnPmkid h.1 rfl
  | getOpportunistic => exact (h.2.getOpportunistic rsnPmkid h.1).1
  | setCurrent => exact currentLive_setCurrent rsnPmkid h.1
  | expire =>
    exact h.2.expireLoop.congr (setExpiration_sm _) fun e he => by
      rwa [step, expire, (setExpiration_sameList _).pmksa]
  | notifyReconfig =>
    intro a ha
    obtain ⟨e, he, rfl⟩ := h.2 a ha
    exact ⟨_, List.mem_map_of_mem he, rfl⟩
  | smChange sm => exact hop sm rfl
  | advance => exact h.2

theorem run_current_replaced : CurrentLive (run (step zeroPmkid) (init sampleSm 0)
    [.add (some 1) [1] 5 9 none .psk, .setCurrent none 0 none (some 5) none false,
      .add (some 2) [2] 5 9 none .psk]) :=
  run_current zeroPmkid sampleSm 0 _ rfl (by simp [Along, SetsLive])

end Clones

end Hostapd.RsnSupp.Pmksa
