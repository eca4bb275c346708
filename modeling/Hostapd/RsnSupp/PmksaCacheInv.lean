import Hostapd.RsnSupp.PmksaCache

/-!
# The supplicant's PMKSA cache: its invariant and its runs

* **`Shape`**: entries are separate allocations with one entry per authenticator, the counter is
  the length of the list, and the list has at most 32 entries. Every operation keeps it.
* **The order by expiration** is kept by every operation but `pmksa_cache_clone_entry`, which
  writes the expiration of its source into an entry that is already linked. `CloneKeepsOrder` says
  when the written value fits the place of the entry.
* **`run_ordered_iff`**: the invariant, the order and the effect of `pmksa_cache_expire` hold
  along a run exactly when every clone of the run keeps the order.
-/

namespace Hostapd.RsnSupp.Pmksa

open Hostapd.Lib

/-! ## The invariant -/

/-- The part of the invariant that every operation keeps. -/
structure Shape (c : PmksaCache) : Prop where
  /-- Entries are separate allocations. -/
  addrs : (c.pmksa.map PmksaEntry.addr).Nodup
  /-- There is at most one entry per authenticator. -/
  aas : (c.pmksa.map PmksaEntry.aa).Nodup
  /-- The counter is the length of the list. -/
  count : c.pmksaCount = c.pmksa.length
  /-- The cache is within its bound. -/
  bound : c.pmksaCount ≤ pmksaCacheMaxEntries

def Ordered (c : PmksaCache) : Prop := SortedBy PmksaEntry.expiration c.pmksa

/-- What the functions below leave alone: the list and the counter. -/
structure SameList (c c' : PmksaCache) : Prop where
  pmksa : c'.pmksa = c.pmksa
  count : c'.pmksaCount = c.pmksaCount

theorem Shape.congr {c c' : PmksaCache} (h : Shape c) (hs : SameList c c') : Shape c' where
  addrs := by rw [hs.pmksa]; exact h.addrs
  aas := by rw [hs.pmksa]; exact h.aas
  count := by rw [hs.count, hs.pmksa]; exact h.count
  bound := by rw [hs.count]; exact h.bound

theorem setExpiration_sameList (c : PmksaCache) : SameList c (setExpiration c) := by
  unfold setExpiration
  split <;> exact ⟨rfl, rfl⟩

theorem freeEntry_spec (c : PmksaCache) (entry : PmksaEntry) (replace : Bool) :
    (freeEntry c entry replace).pmksa = c.pmksa ∧
      (freeEntry c entry replace).pmksaCount = c.pmksaCount - 1 ∧
      (freeEntry c entry replace).now = c.now := by
  unfold freeEntry freeCb
  split
  · split <;> exact ⟨rfl, rfl, rfl⟩
  · exact ⟨rfl, rfl, rfl⟩

theorem Shape.sublist {c c' : PmksaCache} (h : Shape c) (hl : c'.pmksa.Sublist c.pmksa)
    (hc : c'.pmksaCount = c'.pmksa.length) : Shape c' where
  addrs := h.addrs.sublist (hl.map _)
  aas := h.aas.sublist (hl.map _)
  count := hc
  bound := by
    have hlen := hl.length_le
    have hcount := h.count
    have hbound := h.bound
    omega

/-! ## Expiry -/

/-- The expiry loop with enough turns drops the expired front of the list and keeps the counter
in line. -/
theorem expireLoop_spec (n : ℕ) (c : PmksaCache) (hn : c.pmksa.length ≤ n)
    (hc : c.pmksaCount = c.pmksa.length) :
    (expireLoop n c).pmksa = dropUpTo PmksaEntry.expiration c.now c.pmksa ∧
      (expireLoop n c).pmksaCount = (expireLoop n c).pmksa.length := by
  induction n generalizing c with
  | zero =>
    have hnil : c.pmksa = [] := List.length_eq_zero_iff.mp (by omega)
    simp [expireLoop, hnil, dropUpTo, hc]
  | succ n ih =>
    cases hl : c.pmksa with
    | nil => simp [expireLoop, hl, dropUpTo, hc]
    | cons entry rest =>
      by_cases he : entry.expiration ≤ c.now
      · simp only [expireLoop, hl, if_pos he, dropUpTo_cons_of_le he]
        obtain ⟨hp, hcount, hnow⟩ := freeEntry_spec { c with pmksa := rest } entry false
        have hlen : rest.length ≤ n := by rw [hl, List.length_cons] at hn; omega
        have hrest : c.pmksaCount - 1 = (rest.length : ℤ) := by
          rw [hl, List.length_cons] at hc; omega
        have hstep := ih _ (by rw [hp]; exact hlen) (by rw [hp, hcount]; exact hrest)
        rw [hp, hnow] at hstep
        exact hstep
      · simp only [expireLoop, hl, if_neg he, dropUpTo_cons_of_lt (not_le.mp he)]
        exact ⟨trivial, by rw [hc, hl]⟩

variable {c : PmksaCache}

theorem expire_pmksa (h : Shape c) :
    (expire c).pmksa = dropUpTo PmksaEntry.expiration c.now c.pmksa := by
  rw [expire, (setExpiration_sameList _).pmksa]
  exact (expireLoop_spec _ c le_rfl h.count).1

theorem Shape.expire (h : Shape c) : Shape (expire c) := by
  have hloop := expireLoop_spec c.pmksa.length c le_rfl h.count
  refine Shape.congr (h.sublist ?_ hloop.2) (setExpiration_sameList _)
  rw [hloop.1]
  exact dropUpTo_sublist _ _

/-! ## Insertion -/

/-- The entries that stay linked when a new entry is added for an authenticator: all but the one
of the authenticator, and, of a full cache, all but the oldest. -/
def staying (c : PmksaCache) (aa : MacAddr) : List PmksaEntry :=
  let rest := c.pmksa.eraseP fun e => e.aa = aa
  if (rest.length : ℤ) ≥ pmksaCacheMaxEntries then rest.tail else rest

theorem staying_sublist (c : PmksaCache) (aa : MacAddr) : (staying c aa).Sublist c.pmksa := by
  unfold staying
  dsimp only
  split
  · exact (List.tail_sublist _).trans List.eraseP_sublist
  · exact List.eraseP_sublist

theorem makeRoom_spec (c : PmksaCache) (hc : c.pmksaCount = c.pmksa.length) :
    (makeRoom c).pmksa =
        (if c.pmksaCount ≥ pmksaCacheMaxEntries then c.pmksa.tail else c.pmksa) ∧
      (makeRoom c).pmksaCount = (makeRoom c).pmksa.length := by
  unfold makeRoom
  cases hl : c.pmksa with
  | nil =>
    rw [hl] at hc
    simp [hl, hc]
  | cons head rest =>
    dsimp only
    rw [hl, List.length_cons] at hc
    split
    · obtain ⟨hp, hcount, -⟩ := freeEntry_spec
        { c with pmksa := rest, calls := c.calls ++ [.removePmkid head.aa head.pmkid] } head false
      rw [hp, hcount]
      exact ⟨rfl, by show c.pmksaCount - 1 = (rest.length : ℤ); omega⟩
    · rw [hl]
      exact ⟨rfl, by rw [List.length_cons]; exact hc⟩

theorem replaceOld_spec (c : PmksaCache) {pos : PmksaEntry} (hpos : pos ∈ c.pmksa)
    (hc : c.pmksaCount = c.pmksa.length) :
    (replaceOld c pos).pmksa = c.pmksa.eraseP (fun e => e.aa = pos.aa) ∧
      (replaceOld c pos).pmksaCount = (replaceOld c pos).pmksa.length := by
  have hlen : (c.pmksa.eraseP fun e => decide (e.aa = pos.aa)).length = c.pmksa.length - 1 :=
    List.length_eraseP_of_mem hpos (by simp)
  have hne : 0 < c.pmksa.length := List.length_pos_of_mem hpos
  have key : ∀ c' : PmksaCache, c'.pmksa = c.pmksa.eraseP (fun e => e.aa = pos.aa) →
      c'.pmksaCount = c.pmksaCount →
      (freeEntry c' pos true).pmksa = c.pmksa.eraseP (fun e => e.aa = pos.aa) ∧
        (freeEntry c' pos true).pmksaCount = (freeEntry c' pos true).pmksa.length := by
    intro c' hp hcount
    obtain ⟨hp', hcount', -⟩ := freeEntry_spec c' pos true
    rw [hp', hcount', hp, hcount, hlen]
    exact ⟨rfl, by omega⟩
  unfold replaceOld
  dsimp only
  split
  · exact key _ rfl rfl
  · exact key _ rfl rfl

theorem linkEntry_spec (c : PmksaCache) (entry : PmksaEntry) :
    (linkEntry c entry).pmksa = insertByKey PmksaEntry.expiration entry c.pmksa ∧
      (linkEntry c entry).pmksaCount = c.pmksaCount + 1 := by
  unfold linkEntry
  dsimp only
  split
  · have hs := setExpiration_sameList
      { c with pmksa := insertByKey PmksaEntry.expiration entry c.pmksa }
    exact ⟨hs.pmksa, by rw [hs.count]⟩
  · exact ⟨rfl, rfl⟩

theorem fresh_of_zallocEntry {addr : Option ℕ} {a : ℕ}
    (h : zallocEntry c addr = some a) : ∀ e ∈ c.pmksa, e.addr ≠ a := by
  obtain ⟨_, hall⟩ := Option.filter_eq_some_iff.mp h
  simpa using hall

section Operations

variable (rsnPmkid : Bytes → MacAddr → MacAddr → Bool → Pmkid)

/-- The result of a successful `pmksa_cache_add` that links a new entry. -/
structure Inserted (c c' : PmksaCache) (aa : MacAddr) (entry : PmksaEntry) : Prop where
  pmksa : c'.pmksa = insertByKey PmksaEntry.expiration entry (staying c aa)
  count : c'.pmksaCount = c'.pmksa.length
  aa_eq : entry.aa = aa
  fresh : ∀ e ∈ c.pmksa, e.addr ≠ entry.addr
  expiration : entry.expiration = c.now + c.sm.dot11RSNAConfigPMKLifetime

/-- The entry of the authenticator that `pmksa_cache_add` would reuse: its PMK and PMKID are the
ones to be added. -/
def reused (c : PmksaCache) (pmk : Bytes) (aa spa : MacAddr) (akmp : WpaKeyMgmt) :
    Option PmksaEntry :=
  (c.pmksa.find? fun pos => pos.aa = aa).filter fun pos =>
    pos.pmk = pmk ∧ pos.pmkid = rsnPmkid pmk aa spa akmp.sha256

/-- The key fits and the allocation does not fail. -/
def Succeeds (c : PmksaCache) (addr : Option ℕ) (pmk : Bytes) : Prop :=
  pmk.length ≤ pmkLen ∧ zallocEntry c addr ≠ none

variable {aa : MacAddr} {entry : PmksaEntry}

theorem linkEntry_inserted {c c₁ : PmksaCache}
    (h₁ : c₁.pmksa = c.pmksa.eraseP fun e => e.aa = aa) (hcount : c₁.pmksaCount = c₁.pmksa.length)
    (haa : entry.aa = aa) (hfresh : ∀ e ∈ c.pmksa, e.addr ≠ entry.addr)
    (hexp : entry.expiration = c.now + c.sm.dot11RSNAConfigPMKLifetime) :
    Inserted c (linkEntry (makeRoom c₁) entry) aa entry := by
  obtain ⟨hroom, hroomCount⟩ := makeRoom_spec c₁ hcount
  obtain ⟨hlink, hlinkCount⟩ := linkEntry_spec (makeRoom c₁) entry
  have hstay : (makeRoom c₁).pmksa = staying c aa := by
    rw [hroom, hcount, h₁]
    rfl
  refine ⟨by rw [hlink, hstay], ?_, haa, hfresh, hexp⟩
  rw [hlinkCount, hlink, length_insertByKey, hroomCount]
  push_cast
  rfl

variable {c : PmksaCache}

/-- `pmksa_cache_add` fails and changes nothing, returns an entry it reuses and changes nothing, or
links a new entry among those that stay. -/
theorem add_cases (h : Shape c) (addr : Option ℕ) (pmk : Bytes)
    (aa spa : MacAddr) (ctx : Option ℕ) (akmp : WpaKeyMgmt) :
    (¬ Succeeds c addr pmk ∧ add rsnPmkid c addr pmk aa spa ctx akmp = (none, c)) ∨
    (∃ pos, Succeeds c addr pmk ∧ reused rsnPmkid c pmk aa spa akmp = some pos ∧
      add rsnPmkid c addr pmk aa spa ctx akmp = (some pos, c)) ∨
    (∃ entry, Succeeds c addr pmk ∧ reused rsnPmkid c pmk aa spa akmp = none ∧
      (add rsnPmkid c addr pmk aa spa ctx akmp).1 = some entry ∧
      Inserted c (add rsnPmkid c addr pmk aa spa ctx akmp).2 aa entry) := by
  unfold add
  by_cases hlen : pmk.length > pmkLen
  · exact .inl ⟨fun hs => absurd hs.1 (by omega), if_pos hlen⟩
  · rw [if_neg hlen]
    cases ha : zallocEntry c addr with
    | none => exact .inl ⟨fun hs => hs.2 ha, rfl⟩
    | some a =>
      have hs : Succeeds c addr pmk := ⟨by omega, by simp [ha]⟩
      dsimp only
      cases hf : c.pmksa.find? fun pos => pos.aa = aa with
      | none =>
        refine .inr (.inr ⟨_, hs, by simp [reused, hf], rfl, ?_⟩)
        have herase : c.pmksa = c.pmksa.eraseP fun e => e.aa = aa :=
          (List.eraseP_of_forall_not (by simpa using hf)).symm
        exact linkEntry_inserted herase h.count rfl (fresh_of_zallocEntry ha) rfl
      | some pos =>
        have hpos := List.mem_of_find?_eq_some hf
        have haa : pos.aa = aa := by simpa using List.find?_some hf
        dsimp only
        split
        · rename_i hsame
          exact .inr (.inl ⟨pos, hs, by simpa [reused, hf, newEntry] using hsame, rfl⟩)
        · rename_i hdiff
          obtain ⟨hrep, hrepCount⟩ := replaceOld_spec c hpos h.count
          rw [haa] at hrep
          exact .inr (.inr ⟨_, hs, by simpa [reused, hf, newEntry] using hdiff, rfl,
            linkEntry_inserted hrep hrepCount rfl (fresh_of_zallocEntry ha) rfl⟩)

theorem not_mem_staying (h : Shape c) :
    aa ∉ (staying c aa).map PmksaEntry.aa := by
  have hrest : aa ∉ (c.pmksa.eraseP fun e => decide (e.aa = aa)).map PmksaEntry.aa := by
    have hnd := h.aas
    revert hnd
    induction c.pmksa with
    | nil => simp
    | cons e l ih =>
      intro hnd
      obtain ⟨he, hl⟩ := List.nodup_cons.mp hnd
      by_cases heq : e.aa = aa
      · rw [List.eraseP_cons_of_pos (by simpa using heq), ← heq]
        exact he
      · rw [List.eraseP_cons_of_neg (by simpa using heq), List.map_cons, List.mem_cons]
        rintro (rfl | hmem)
        · exact heq rfl
        · exact ih hl hmem
  unfold staying
  dsimp only
  split
  · exact fun hmem => hrest (((List.tail_sublist _).map _).subset hmem)
  · exact hrest

theorem staying_length_lt (h : Shape c) (aa : MacAddr) :
    ((staying c aa).length : ℤ) < pmksaCacheMaxEntries := by
  have hlen : (c.pmksa.eraseP fun e => decide (e.aa = aa)).length ≤ c.pmksa.length :=
    List.eraseP_sublist.length_le
  have hcount := h.count
  have hbound := h.bound
  unfold staying
  dsimp only
  split
  · rw [List.length_tail]
    simp only [pmksaCacheMaxEntries] at *
    omega
  · omega

theorem Shape.inserted {c c' : PmksaCache} (h : Shape c)
    (hi : Inserted c c' aa entry) : Shape c' where
  addrs := by
    rw [hi.pmksa, ((insertByKey_perm _ entry _).map _).nodup_iff]
    refine List.nodup_cons.mpr ⟨?_, h.addrs.sublist ((staying_sublist c aa).map _)⟩
    intro hmem
    obtain ⟨e, he, ha⟩ := List.mem_map.mp hmem
    exact hi.fresh e ((staying_sublist c aa).subset he) ha
  aas := by
    rw [hi.pmksa, ((insertByKey_perm _ entry _).map _).nodup_iff]
    refine List.nodup_cons.mpr ⟨?_, h.aas.sublist ((staying_sublist c aa).map _)⟩
    rw [hi.aa_eq]
    exact not_mem_staying h
  count := hi.count
  bound := by
    rw [hi.count, hi.pmksa, length_insertByKey]
    have := staying_length_lt h aa
    push_cast
    omega

theorem Ordered.inserted {c c' : PmksaCache} (h : Ordered c)
    (hi : Inserted c c' aa entry) : Ordered c' := by
  rw [Ordered, hi.pmksa]
  exact SortedBy.insertByKey (SortedBy.sublist h (staying_sublist c aa)) entry

/-! ## Cloning -/

/-- The entries of a list in front of the one at an address, and those behind it. -/
def before (l : List PmksaEntry) (addr : ℕ) : List PmksaEntry :=
  l.takeWhile fun e => e.addr ≠ addr

/-- The entries of a list behind the one at an address. -/
def behind (l : List PmksaEntry) (addr : ℕ) : List PmksaEntry :=
  (l.dropWhile fun e => e.addr ≠ addr).tail

/-- The expiration fits between the entries in front and those behind. -/
def Fits (front back : List PmksaEntry) (expiration : ℤ) : Prop :=
  (∀ e ∈ front, e.expiration ≤ expiration) ∧ ∀ e ∈ back, expiration ≤ e.expiration

theorem split_at_addr {l : List PmksaEntry} (hmem : entry ∈ l)
    (hnd : (l.map PmksaEntry.addr).Nodup) :
    l = before l entry.addr ++ entry :: behind l entry.addr := by
  induction l with
  | nil => cases hmem
  | cons e l ih =>
    obtain ⟨he, hl⟩ := List.nodup_cons.mp hnd
    by_cases heq : e.addr = entry.addr
    · have hee : e = entry := by
        rcases List.mem_cons.mp hmem with rfl | hmem
        · rfl
        · exact absurd (List.mem_map.mpr ⟨entry, hmem, heq.symm⟩) he
      subst hee
      simp [before, behind]
    · have hmem' : entry ∈ l := by
        rcases List.mem_cons.mp hmem with rfl | hmem
        · exact absurd rfl heq
        · exact hmem
      have := ih hmem' hl
      simp only [before, behind, List.takeWhile_cons, List.dropWhile_cons, ne_eq, heq,
        not_false_eq_true, decide_true, if_true, List.cons_append] at this ⊢
      exact congrArg (e :: ·) this

theorem modifyEntry_split {front back : List PmksaEntry}
    (h : c.pmksa = front ++ entry :: back) (hnd : (c.pmksa.map PmksaEntry.addr).Nodup)
    (f : PmksaEntry → PmksaEntry) :
    (modifyEntry c entry.addr f).pmksa = front ++ f entry :: back := by
  have hother : ∀ l : List PmksaEntry, (∀ e ∈ l, e.addr ≠ entry.addr) →
      l.map (fun e => if e.addr = entry.addr then f e else e) = l := by
    intro l hl
    refine (List.map_congr_left fun e he => ?_).trans (List.map_id l)
    rw [if_neg (hl e he), id]
  rw [h, List.map_append, List.map_cons, List.nodup_append] at hnd
  obtain ⟨-, hback, hcross⟩ := hnd
  have hfront : ∀ e ∈ front, e.addr ≠ entry.addr := fun e he =>
    hcross _ (List.mem_map_of_mem he) _ List.mem_cons_self
  have hback' : ∀ e ∈ back, e.addr ≠ entry.addr := fun e he ha =>
    (List.nodup_cons.mp hback).1 (List.mem_map.mpr ⟨e, he, ha⟩)
  show c.pmksa.map _ = _
  rw [h, List.map_append, List.map_cons, hother front hfront, hother back hback', if_pos rfl]

theorem ordered_modify_iff (h : Ordered c) {front back : List PmksaEntry}
    (hsplit : c.pmksa = front ++ entry :: back)
    (hnd : (c.pmksa.map PmksaEntry.addr).Nodup) (expiration : ℤ) :
    Ordered (modifyEntry c entry.addr fun e =>
        { e with expiration := expiration, opportunistic := true }) ↔
      Fits front back expiration := by
  rw [Ordered, modifyEntry_split hsplit hnd, sortedBy_append_cons]
  rw [Ordered, hsplit, sortedBy_append_cons] at h
  exact ⟨fun hs => hs.2, fun hf => ⟨h.1, hf⟩⟩

theorem Shape.modifyEntry (h : Shape c) (addr : ℕ)
    {f : PmksaEntry → PmksaEntry} (haddr : ∀ e, (f e).addr = e.addr)
    (haa : ∀ e, (f e).aa = e.aa) : Shape (modifyEntry c addr f) := by
  have haddrs : (Pmksa.modifyEntry c addr f).pmksa.map PmksaEntry.addr =
      c.pmksa.map PmksaEntry.addr := by
    show (c.pmksa.map _).map _ = _
    rw [List.map_map]
    refine List.map_congr_left fun e _ => ?_
    by_cases he : e.addr = addr <;> simp [he, haddr]
  have haas : (Pmksa.modifyEntry c addr f).pmksa.map PmksaEntry.aa =
      c.pmksa.map PmksaEntry.aa := by
    show (c.pmksa.map _).map _ = _
    rw [List.map_map]
    refine List.map_congr_left fun e _ => ?_
    by_cases he : e.addr = addr <;> simp [he, haa]
  exact ⟨by rw [haddrs]; exact h.addrs, by rw [haas]; exact h.aas,
    by simpa [Pmksa.modifyEntry] using h.count, h.bound⟩

/-- The expiration that a clone of `old` for `aa` inherits when the addition links a new entry:
that of `old` if it stays linked, else what its freed block reads as. -/
def inherited (c : PmksaCache) (stale : ℤ) (old : PmksaEntry) (aa : MacAddr) : ℤ :=
  if old ∈ staying c aa then old.expiration else stale

/-- The clone of `old` for `aa` keeps the order: the expiration it inherits fits at the place of
the entry that is reused, or at the place the lifetime from now on gives to a new entry. -/
def CloneKeepsOrder (c : PmksaCache) (addr : Option ℕ) (stale : ℤ) (old : PmksaEntry)
    (aa : MacAddr) : Prop :=
  Succeeds c addr old.pmk →
    match reused rsnPmkid c old.pmk aa c.sm.ownAddr old.akmp with
    | some pos => Fits (before c.pmksa pos.addr) (behind c.pmksa pos.addr) old.expiration
    | none =>
      let expiration := c.now + c.sm.dot11RSNAConfigPMKLifetime
      Fits ((staying c aa).filter fun e => e.expiration ≤ expiration)
        ((staying c aa).filter fun e => expiration < e.expiration) (inherited c stale old aa)

theorem reused_mem {pmk : Bytes} {aa spa : MacAddr} {akmp : WpaKeyMgmt}
    {pos : PmksaEntry} (h : reused rsnPmkid c pmk aa spa akmp = some pos) : pos ∈ c.pmksa :=
  List.mem_of_find?_eq_some (Option.filter_eq_some_iff.mp h).1

theorem find_addr {l : List PmksaEntry} (hmem : entry ∈ l)
    (hnd : (l.map PmksaEntry.addr).Nodup) :
    (l.find? fun e => e.addr = entry.addr) = some entry := by
  cases hf : l.find? fun e => e.addr = entry.addr with
  | none => simpa using List.find?_eq_none.mp hf entry hmem
  | some e =>
    have ha : e.addr = entry.addr := by simpa using List.find?_some hf
    exact congrArg some (List.inj_on_of_nodup_map hnd (List.mem_of_find?_eq_some hf) hmem ha)

theorem readExpiration_inserted {c c' : PmksaCache} (h : Shape c)
    {entry old : PmksaEntry} (hi : Inserted c c' aa entry) (hold : old ∈ c.pmksa) (stale : ℤ) :
    readExpiration c' old.addr stale = inherited c stale old aa := by
  unfold readExpiration inherited
  split
  · rename_i hstay
    have hmem : old ∈ c'.pmksa := by
      rw [hi.pmksa]
      exact mem_insertByKey.mpr (.inr hstay)
    rw [find_addr hmem (h.inserted hi).addrs]
    rfl
  · rename_i hgone
    have hnone : (c'.pmksa.find? fun e => e.addr = old.addr) = none := by
      refine List.find?_eq_none.mpr fun e he => ?_
      rw [hi.pmksa] at he
      rcases mem_insertByKey.mp he with rfl | he
      · simpa using (hi.fresh old hold).symm
      · rintro ha
        have heo := List.inj_on_of_nodup_map h.addrs ((staying_sublist c aa).subset he) hold
          (by simpa using ha)
        exact hgone (heo ▸ he)
    rw [hnone]
    rfl

theorem cloneEntry_spec (h : Shape c) (ho : Ordered c) {old : PmksaEntry}
    (hold : old ∈ c.pmksa) (addr : Option ℕ) (stale : ℤ) (aa : MacAddr) :
    Shape (cloneEntry rsnPmkid c addr stale old aa).2 ∧
      (Ordered (cloneEntry rsnPmkid c addr stale old aa).2 ↔
        CloneKeepsOrder rsnPmkid c addr stale old aa) := by
  unfold cloneEntry CloneKeepsOrder
  rcases add_cases rsnPmkid h addr old.pmk aa c.sm.ownAddr old.networkCtx old.akmp with
    ⟨hno, hr⟩ | ⟨pos, hs, hre, hr⟩ | ⟨entry, hs, hre, hfst, hi⟩
  · rw [hr]
    exact ⟨h, iff_of_true ho fun hs => absurd hs hno⟩
  · rw [hr, hre]
    dsimp only
    have hread : readExpiration c old.addr stale = old.expiration := by
      rw [readExpiration, find_addr hold h.addrs]
      rfl
    refine ⟨h.modifyEntry _ (fun _ => rfl) (fun _ => rfl), ?_⟩
    rw [hread, ordered_modify_iff ho (split_at_addr (reused_mem rsnPmkid hre) h.addrs) h.addrs]
    exact ⟨fun hf _ => hf, fun hf => hf hs⟩
  · rw [← Prod.mk.eta (p := add rsnPmkid c addr old.pmk aa c.sm.ownAddr old.networkCtx old.akmp),
      hfst, hre]
    dsimp only
    have h' := h.inserted hi
    refine ⟨h'.modifyEntry _ (fun _ => rfl) (fun _ => rfl), ?_⟩
    have hsplit := SortedBy.insertByKey_eq (SortedBy.sublist ho (staying_sublist c aa)) entry
    rw [readExpiration_inserted h hi hold,
      ordered_modify_iff (ho.inserted hi) (hi.pmksa.trans hsplit) h'.addrs, hi.expiration]
    exact ⟨fun hf _ => hf, fun hf => hf hs⟩

/-! ## Runs -/

/-- The entry an opportunistic lookup for a network clones. -/
def source (c : PmksaCache) (networkCtx : Option ℕ) : Option PmksaEntry :=
  if networkCtx = none then none else c.pmksa.find? fun e => e.networkCtx = networkCtx

theorem getOpportunistic_eq (c : PmksaCache) (addr : Option ℕ) (stale : ℤ) (ctx : Option ℕ)
    (aa : MacAddr) :
    getOpportunistic rsnPmkid c addr stale ctx aa =
      match source c ctx with
      | some old => cloneEntry rsnPmkid c addr stale old aa
      | none => (none, c) := by
  unfold getOpportunistic source
  split <;> rfl

theorem source_mem {ctx : Option ℕ} {old : PmksaEntry}
    (h : source c ctx = some old) : old ∈ c.pmksa := by
  unfold source at h
  split at h
  · cases h
  · exact List.mem_of_find?_eq_some h

/-- The condition on an operation and the cache it finds: a clone keeps the order. -/
def StepOk (c : PmksaCache) : Op → Prop
  | .getOpportunistic addr stale networkCtx aa =>
    ∀ old, source c networkCtx = some old → CloneKeepsOrder rsnPmkid c addr stale old aa
  | .setCurrent addr stale pmkid bssid networkCtx tryOpportunistic =>
    lookupCurrent c pmkid bssid = none → tryOpportunistic = true → ∀ aa, bssid = some aa →
      ∀ old, source c networkCtx = some old → CloneKeepsOrder rsnPmkid c addr stale old aa
  | _ => True

/-- What the cache promises of one operation: its shape and its order after it, and of
`pmksa_cache_expire` that no expired entry is left. -/
def Promise (c : PmksaCache) (op : Op) : Prop :=
  Shape (step rsnPmkid c op) ∧ Ordered (step rsnPmkid c op) ∧
    (op = .expire → ∀ e ∈ (step rsnPmkid c op).pmksa, c.now < e.expiration)

theorem getOpportunistic_spec (h : Shape c) (ho : Ordered c)
    (addr : Option ℕ) (stale : ℤ) (ctx : Option ℕ) (aa : MacAddr) :
    Shape (getOpportunistic rsnPmkid c addr stale ctx aa).2 ∧
      (Ordered (getOpportunistic rsnPmkid c addr stale ctx aa).2 ↔
        ∀ old, source c ctx = some old → CloneKeepsOrder rsnPmkid c addr stale old aa) := by
  rw [getOpportunistic_eq]
  cases hs : source c ctx with
  | none => exact ⟨h, iff_of_true ho fun old hold => nomatch hold⟩
  | some old =>
    obtain ⟨hshape, horder⟩ := cloneEntry_spec rsnPmkid h ho (source_mem hs) addr stale aa
    refine ⟨hshape, horder.trans ⟨fun hk old' hold' => ?_, fun hk => hk old rfl⟩⟩
    cases hold'
    exact hk

theorem setCurrent_spec (h : Shape c) (ho : Ordered c) (addr : Option ℕ)
    (stale : ℤ) (pmkid : Option Pmkid) (bssid : Option MacAddr) (ctx : Option ℕ) (try' : Bool) :
    Shape (setCurrent rsnPmkid c addr stale pmkid bssid ctx try') ∧
      (Ordered (setCurrent rsnPmkid c addr stale pmkid bssid ctx try') ↔
        StepOk rsnPmkid c (.setCurrent addr stale pmkid bssid ctx try')) := by
  have hcleared : Shape { c with sm := { c.sm with curPmksa := none } } := h.congr ⟨rfl, rfl⟩
  unfold setCurrent StepOk
  dsimp only
  rw [show lookupCurrent { c with sm := { c.sm with curPmksa := none } } pmkid bssid =
    lookupCurrent c pmkid bssid from rfl]
  cases hl : lookupCurrent c pmkid bssid with
  | some found =>
    exact ⟨h.congr ⟨rfl, rfl⟩, iff_of_true ho fun hnone => nomatch hnone⟩
  | none =>
    cases try' with
    | false => exact ⟨h.congr ⟨rfl, rfl⟩, iff_of_true ho fun _ htry => nomatch htry⟩
    | true =>
      cases bssid with
      | none => exact ⟨h.congr ⟨rfl, rfl⟩, iff_of_true ho fun _ _ aa haa => nomatch haa⟩
      | some aa =>
        obtain ⟨hshape, horder⟩ := getOpportunistic_spec rsnPmkid hcleared ho addr stale ctx aa
        refine ⟨hshape.congr ⟨rfl, rfl⟩, horder.trans ⟨?_, ?_⟩⟩
        · rintro hk - - _ ⟨⟩
          exact hk
        · exact fun hk => hk rfl rfl aa rfl

/-- In a cache with its invariant an operation keeps its promise exactly when its condition is
met. -/
theorem promise_iff (h : Shape c) (ho : Ordered c) (op : Op) :
    Promise rsnPmkid c op ↔ StepOk rsnPmkid c op := by
  unfold Promise
  cases op with
  | add addr pmk aa spa ctx akmp =>
    have hkeep : Shape (add rsnPmkid c addr pmk aa spa ctx akmp).2 ∧
        Ordered (add rsnPmkid c addr pmk aa spa ctx akmp).2 := by
      rcases add_cases rsnPmkid h addr pmk aa spa ctx akmp with
        ⟨-, hr⟩ | ⟨pos, -, -, hr⟩ | ⟨entry, -, -, -, hi⟩
      · rw [hr]; exact ⟨h, ho⟩
      · rw [hr]; exact ⟨h, ho⟩
      · exact ⟨h.inserted hi, ho.inserted hi⟩
    exact iff_of_true ⟨hkeep.1, hkeep.2, fun hex => nomatch hex⟩ trivial
  | getOpportunistic addr stale ctx aa =>
    obtain ⟨hshape, horder⟩ := getOpportunistic_spec rsnPmkid h ho addr stale ctx aa
    exact ⟨fun hp => horder.mp hp.2.1,
      fun hk => ⟨hshape, horder.mpr hk, fun hex => nomatch hex⟩⟩
  | setCurrent addr stale pmkid bssid ctx try' =>
    obtain ⟨hshape, horder⟩ := setCurrent_spec rsnPmkid h ho addr stale pmkid bssid ctx try'
    exact ⟨fun hp => horder.mp hp.2.1,
      fun hk => ⟨hshape, horder.mpr hk, fun hex => nomatch hex⟩⟩
  | expire =>
    have horder : Ordered (expire c) := by
      rw [Ordered, expire_pmksa h]
      exact SortedBy.sublist ho (dropUpTo_sublist _ _)
    refine iff_of_true ⟨h.expire, horder, fun _ e he => ?_⟩ trivial
    change e ∈ (expire c).pmksa at he
    rw [expire_pmksa h] at he
    exact SortedBy.lt_of_mem_dropUpTo ho e he
  | notifyReconfig =>
    have hshape : Shape (notifyReconfig c) :=
      ⟨by simpa [notifyReconfig, Function.comp_def] using h.addrs,
        by simpa [notifyReconfig, Function.comp_def] using h.aas,
        by simpa [notifyReconfig] using h.count, h.bound⟩
    have horder : Ordered (notifyReconfig c) := List.pairwise_map.mpr ho
    exact iff_of_true ⟨hshape, horder, fun hex => nomatch hex⟩ trivial
  | smChange sm =>
    exact iff_of_true ⟨h.congr ⟨rfl, rfl⟩, ho, fun hex => nomatch hex⟩ trivial
  | advance dt =>
    exact iff_of_true ⟨h.congr ⟨rfl, rfl⟩, ho, fun hex => nomatch hex⟩ trivial

/-- The invariant, the order and the effect of expiry hold after every operation of a run exactly
when every clone of the run inherits an expiration that fits the place of its entry. -/
theorem run_ordered_iff (sm : SmData) (now : ℤ) (ops : List Op) :
    Along (step rsnPmkid) (Promise rsnPmkid) (init sm now) ops ↔
      Along (step rsnPmkid) (StepOk rsnPmkid) (init sm now) ops := by
  refine along_congr (I := fun c => Shape c ∧ Ordered c) (fun c op h hok => ?_)
    (fun c op h => promise_iff rsnPmkid h.1 h.2 op) ⟨?_, ?_⟩ ops
  · have hp := (promise_iff rsnPmkid h.1 h.2 op).mpr hok
    exact ⟨hp.1, hp.2.1⟩
  · exact ⟨List.nodup_nil, List.nodup_nil, rfl, by simp [init, pmksaCacheMaxEntries]⟩
  · exact List.Pairwise.nil

/-- State machine data with a lifetime of a hundred seconds, for a run on fixed inputs. -/
def sampleSm : SmData where
  pmk := []
  curPmksa := none
  ownAddr := 9
  bssid := 0
  dot11RSNAConfigPMKLifetime := 100
  dot11RSNAConfigPMKReauthThreshold := 70

/-- A clone of the oldest entry is linked behind a younger one and expires before it, so that the
expiry after its time stops in front of it. -/
theorem cloned_entry_not_expired :
    ¬ Along (step fun _ _ _ _ => Vector.replicate 16 0)
      (Promise fun _ _ _ _ => Vector.replicate 16 0) (init sampleSm 0)
      [.add (some 1) [1] 1 9 (some 1) .psk, .advance 50, .add (some 2) [2] 2 9 (some 2) .psk,
        .advance 10, .getOpportunistic (some 3) 0 (some 1) 3, .advance 60, .expire] := by
  intro h
  have hexpire := h.2.2.2.2.2.2.1.2.2 rfl
  revert hexpire
  decide

end Operations

end Hostapd.RsnSupp.Pmksa
