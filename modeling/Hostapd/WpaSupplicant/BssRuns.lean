import Hostapd.WpaSupplicant.Bss

/-!
# The BSS table: runs

What `bss.c` is to guarantee of the table (**`Sound`**) and of a flush (`Flushed`), over all runs.

* **Two steps lose the current entry.** `wpa_bss_add` removes the first entry of a full list
  without asking whether it is in use (**`EvictsCurrent`**), and `wpa_bss_update` lets
  `os_realloc` move an entry without moving `current_bss` (**`MovesCurrent`**).
* **A flush stops early.** `wpa_bss_flush_by_age` takes the list to be in the order of
  `last_update`, which a result's age may put back (`OldFirst`).
* **`along_meets_iff`**: a run keeps every guarantee exactly when none of its steps is one of these.
-/

namespace Hostapd.WpaSupplicant

open Hostapd.Lib Hostapd.Utils.Eloop

/-! ## The guarantees -/

structure Sound (bssMaxCount : ℕ) (s : BssTable) : Prop where
  same : ∀ a, a ∈ s.bss ↔ a ∈ s.bssId
  live : ∀ a, a ∈ s.bss ↔ (s.mem a).isSome
  nodup : s.bss.Nodup ∧ s.bssId.Nodup
  count : s.numBss = s.bss.length ∧ s.numBss = s.bssId.length
  bound : s.numBss ≤ bssMaxCount
  keys : ∀ a b x y, s.mem a = some x → s.mem b = some y → x.key = y.key → a = b
  ids : s.created ≤ 2 ^ 32 → s.bssId.Pairwise fun a b => idAt s.mem a < idAt s.mem b
  alloc : ∀ a b, s.mem a = some b → b.ie.length + b.beaconIe.length ≤ b.alloc
  current : CurrentLive s

/-- No entry older than `age` seconds is left, unless it is in use. -/
def Flushed (s : BssTable) (age : ℤ) : Prop :=
  ∀ a b, s.mem a = some b → b.lastUpdate.before (agoTime s age) → wpaBssInUse s a b

def Meets (bssMaxCount : ℕ) (s : BssTable) (op : BssOp) : Prop :=
  Sound bssMaxCount (bssStep bssMaxCount s op) ∧
    ∀ age, op = .flushByAge age → Flushed (bssStep bssMaxCount s op) age

/-! ## The steps that break them -/

/-- The table is full, the result makes a new entry, and the oldest entry is the current one. -/
def EvictsCurrent (bssMaxCount : ℕ) (s : BssTable) (res : ScanRes) (zalloc : Option ℕ) : Prop :=
  ∃ a ssid, s.currentBss = some a ∧ s.bss.head? = some a ∧ bssMaxCount ≤ s.numBss ∧
    acceptedSsid res = some ssid ∧ wpaBssGet s res.data.bssid ssid = none ∧
    (zallocBss s zalloc).isSome

/-- The result is for the current entry, needs more memory, and gets it in another block. -/
def MovesCurrent (s : BssTable) (res : ScanRes) (realloc : Option ℕ) : Prop :=
  ∃ a b ssid n, s.currentBss = some a ∧ s.mem a = some b ∧ acceptedSsid res = some ssid ∧
    wpaBssGet s res.data.bssid ssid = some a ∧ ¬ IesFit b res ∧
    reallocBss s a realloc = some n ∧ n ≠ a

def outOfUse (s : BssTable) (a : ℕ) : Bool := (s.mem a).any fun b => !wpaBssInUse s a b

/-- The entry at an address was last updated before `t`. -/
def olderThan (s : BssTable) (t : OsTime) (a : ℕ) : Bool :=
  (s.mem a).any fun b => b.lastUpdate.before t

/-- Among the entries that are not in use, those older than `t` are in front. -/
def OldFirst (s : BssTable) (t : OsTime) : Prop :=
  (s.bss.filter (outOfUse s)).Pairwise fun x y => olderThan s t y → olderThan s t x

def Careful (bssMaxCount : ℕ) (s : BssTable) : BssOp → Prop
  | .updateScanRes res zalloc realloc =>
    ¬ EvictsCurrent bssMaxCount s res zalloc ∧ ¬ MovesCurrent s res realloc
  | .flushByAge age => OldFirst s (agoTime s age)
  | _ => True

/-! ## The current entry -/

section Current

variable {s : BssTable} {a n : ℕ} {b nb : WpaBss}

theorem CurrentLive.wpaBssRemove (h : CurrentLive s) (ha : s.currentBss ≠ some a) :
    CurrentLive (wpaBssRemove s a) := by
  intro x hx
  have hxa : x ≠ a := by
    rintro rfl
    exact ha hx
  simpa [WpaSupplicant.wpaBssRemove, Function.update_of_ne hxa] using h x hx

theorem not_currentLive_wpaBssRemove (ha : s.currentBss = some a) :
    ¬ CurrentLive (wpaBssRemove s a) := by
  intro h
  obtain ⟨b, hb, -⟩ := h a ha
  simp [wpaBssRemove] at hb

theorem CurrentLive.linkBss (h : CurrentLive s) (ha : s.mem a = none) :
    CurrentLive (linkBss s a b) := by
  intro x hx
  obtain ⟨y, hy, hfor⟩ := h x hx
  have hxa : x ≠ a := by
    rintro rfl
    simp [ha] at hy
  exact ⟨y, by simpa [WpaSupplicant.linkBss, Function.update_of_ne hxa] using hy, hfor⟩

theorem CurrentLive.replace {s' : BssTable} (h : CurrentLive s) (hr : Replaces s s' a n b nb)
    (hmove : n ≠ a → s.currentBss ≠ some a) : CurrentLive s' := by
  obtain ⟨hb, hn, -, hkey, -, hmem, -, -, -, -, -, hcur, hfor⟩ := hr
  intro x hx
  rw [hcur] at hx
  obtain ⟨y, hy, hfory⟩ := h x hx
  by_cases hxa : x = a
  · subst hxa
    have hna : n = x := by
      by_contra hna
      exact hmove hna hx
    have hyb : y = b := Option.some.inj (hy.symm.trans hb)
    exact ⟨nb, by simp [hmem, hna], by rw [hfor, hfory, hyb, hkey]⟩
  · have hxn : x ≠ n := by
      rintro rfl
      rcases hn with rfl | hn
      · exact hxa rfl
      · simp [hn] at hy
    exact ⟨y, by simpa [hmem, Function.update_of_ne hxn, Function.update_of_ne hxa] using hy,
      hfor.trans hfory⟩

theorem not_currentLive_replace {s' : BssTable} (hr : Replaces s s' a n b nb) (hna : n ≠ a)
    (hcur : s.currentBss = some a) : ¬ CurrentLive s' := by
  intro h
  obtain ⟨x, hx, -⟩ := h a (hr.currentBss.trans hcur)
  simp [hr.mem, Function.update_of_ne hna.symm] at hx

end Current

/-! ## What an update writes -/

section Update

variable {s : BssTable} {a : ℕ} {b : WpaBss} {res : ScanRes} {zalloc realloc : Option ℕ}
variable {bssMaxCount : ℕ} {ssid : Bytes}

theorem zallocBss_eq_some {n : ℕ} (h : zallocBss s zalloc = some n) : s.mem n = none := by
  obtain ⟨-, hfree⟩ := Option.filter_eq_some_iff.mp h
  simpa using hfree

theorem reallocBss_eq_some {n : ℕ} (h : reallocBss s a realloc = some n) :
    n = a ∨ s.mem n = none := by
  obtain ⟨-, hfree⟩ := Option.filter_eq_some_iff.mp h
  simpa using hfree

theorem replaces_self {s' : BssTable} {nb : WpaBss} (hb : s.mem a = some b) (hid : nb.id = b.id)
    (hkey : nb.key = b.key) (halloc : nb.ie.length + nb.beaconIe.length ≤ nb.alloc)
    (hmem : s'.mem = Function.update s.mem a (some nb)) (hbss : s'.bss.Perm s.bss)
    (hbssId : s'.bssId = s.bssId) (hnum : s'.numBss = s.numBss)
    (hcreated : s'.created = s.created) (hnext : s'.bssNextId = s.bssNextId)
    (hcur : s'.currentBss = s.currentBss) (hfor : s'.currentFor = s.currentFor) :
    Replaces s s' a a b nb where
  entry := hb
  block := .inl rfl
  id := hid
  key := hkey
  alloc := halloc
  mem := by rw [hmem, Function.update_idem]
  bss := by rwa [renameNode_self]
  bssId := by rwa [renameNode_self]
  numBss := hnum
  created := hcreated
  bssNextId := hnext
  currentBss := hcur
  currentFor := hfor

variable (realloc) in
theorem wpaBssUpdate_replaces (h : Linked s) (hb : s.mem a = some b)
    (hkey : b.data.bssid = res.data.bssid) :
    ∃ n nb, Replaces s (wpaBssUpdate s a b realloc res) a n b nb ∧
      (n ≠ a ↔ ¬ IesFit b res ∧ ∃ m, reallocBss s a realloc = some m ∧ m ≠ a) := by
  have hin := h.mem_bss hb
  have hperm : (s.bss.erase a ++ [a]).Perm s.bss := by
    simpa using erase_append_perm_renameNode h.nodup hin a
  have halloc := h.alloc a b hb
  have htouch : (touchBss s b res).key = b.key := by
    simp [WpaBss.key, touchBss, wpaBssCopyRes, hkey]
  unfold wpaBssUpdate
  by_cases hfit : IesFit b res
  · rw [if_pos hfit]
    refine ⟨a, (touchBss s b res).copyIes res,
      replaces_self hb rfl htouch ?_ rfl hperm rfl rfl rfl rfl rfl rfl, ?_⟩
    · exact le_trans hfit halloc
    · simp [hfit]
  · rw [if_neg hfit]
    unfold growBss
    dsimp only
    rcases hre : reallocBss s a realloc with _ | n
    · have hplace := addAfter_prevNode_erase h.nodup_bssId (h.mem_bssId hb) a
      rw [renameNode_self] at hplace
      refine ⟨a, touchBss s b res,
        replaces_self hb rfl htouch halloc rfl hperm hplace rfl rfl rfl rfl rfl, ?_⟩
      simp
    · have hn := reallocBss_eq_some hre
      let nb : WpaBss := { (touchBss s b res).copyIes res with
        alloc := res.ie.length + res.beaconIe.length }
      refine ⟨n, nb, ⟨hb, hn, rfl, htouch, le_rfl, rfl, ?_, ?_, rfl, rfl, rfl, rfl, rfl⟩, ?_⟩
      · exact erase_append_perm_renameNode h.nodup hin n
      · exact addAfter_prevNode_erase h.nodup_bssId (h.mem_bssId hb) n
      · simp [hfit]

theorem wpaBssGet_eq_some {bssid : MacAddr} (h : wpaBssGet s bssid ssid = some a) :
    ∃ b, s.mem a = some b ∧ b.key = (bssid, ssid) := by
  have hp := List.find?_some h
  obtain ⟨b, hb, hkey⟩ := (Option.any_eq_true _ _).mp hp
  exact ⟨b, hb, by simpa using hkey⟩

theorem key_ne_of_wpaBssGet_eq_none {bssid : MacAddr} (hl : Linked s)
    (h : wpaBssGet s bssid ssid = none) (hb : s.mem a = some b) : b.key ≠ (bssid, ssid) := by
  intro hkey
  have hnot := List.find?_eq_none.mp h a (hl.mem_bss hb)
  simp [hb, hkey] at hnot

theorem wpaBssUpdateScanRes_of_rejected (hs : acceptedSsid res = none) :
    wpaBssUpdateScanRes bssMaxCount s res zalloc realloc = s := by
  simp [wpaBssUpdateScanRes, hs]

theorem wpaBssUpdateScanRes_of_new (hs : acceptedSsid res = some ssid)
    (hg : wpaBssGet s res.data.bssid ssid = none) :
    wpaBssUpdateScanRes bssMaxCount s res zalloc realloc =
      wpaBssAdd bssMaxCount s zalloc ssid res := by
  simp [wpaBssUpdateScanRes, hs, hg]

theorem wpaBssUpdateScanRes_of_known (hs : acceptedSsid res = some ssid)
    (hg : wpaBssGet s res.data.bssid ssid = some a) (hb : s.mem a = some b) :
    wpaBssUpdateScanRes bssMaxCount s res zalloc realloc = wpaBssUpdate s a b realloc res := by
  simp [wpaBssUpdateScanRes, hs, hg, hb]

end Update

/-! ## The invariant of the table -/

/-- The lists are linked and the table is not over its limit. -/
structure Inv (bssMaxCount : ℕ) (s : BssTable) : Prop where
  linked : Linked s
  bound : s.numBss ≤ bssMaxCount

/-- The invariant of the runs that lose no current entry. -/
def Good (bssMaxCount : ℕ) (s : BssTable) : Prop := Inv bssMaxCount s ∧ CurrentLive s

section Steps

variable {bssMaxCount : ℕ} {s : BssTable}

theorem Inv.wpaBssRemove {a : ℕ} (h : Inv bssMaxCount s) (ha : a ∈ s.bss) :
    Inv bssMaxCount (wpaBssRemove s a) :=
  ⟨h.linked.wpaBssRemove ha, (Nat.sub_le _ _).trans h.bound⟩

theorem Inv.replace {s' : BssTable} {a n : ℕ} {b nb : WpaBss} (h : Inv bssMaxCount s)
    (hr : Replaces s s' a n b nb) : Inv bssMaxCount s' :=
  ⟨h.linked.replace hr, hr.numBss.trans_le h.bound⟩

theorem inv_removeOldest (h : Linked s) (hb : s.numBss ≤ bssMaxCount + 1) :
    Inv bssMaxCount (removeOldest bssMaxCount s) := by
  unfold removeOldest
  split
  · next first l hl =>
    split_ifs with hfull
    · refine ⟨h.wpaBssRemove (by simp [hl]), ?_⟩
      show s.numBss - 1 ≤ bssMaxCount
      omega
    · exact ⟨h, by omega⟩
  · next hl =>
    have hzero : s.numBss = 0 := by simp [h.count, hl]
    exact ⟨h, by omega⟩

theorem linked_newBss {res : ScanRes} {ssid : Bytes} {zalloc : Option ℕ} {a : ℕ} (h : Linked s)
    (hz : zallocBss s zalloc = some a) (hg : wpaBssGet s res.data.bssid ssid = none) :
    Linked (linkBss s a (newBss s ssid res)) :=
  h.linkBss (zallocBss_eq_some hz) rfl (fun _ _ hb => key_ne_of_wpaBssGet_eq_none h hg hb) le_rfl

theorem Inv.wpaBssUpdateScanRes (h : Inv bssMaxCount s) (res : ScanRes)
    (zalloc realloc : Option ℕ) :
    Inv bssMaxCount (wpaBssUpdateScanRes bssMaxCount s res zalloc realloc) := by
  rcases hs : acceptedSsid res with _ | ssid
  · rwa [wpaBssUpdateScanRes_of_rejected hs]
  rcases hg : wpaBssGet s res.data.bssid ssid with _ | a
  · rw [wpaBssUpdateScanRes_of_new hs hg, wpaBssAdd]
    rcases hz : zallocBss s zalloc with _ | a
    · exact h
    · exact inv_removeOldest (linked_newBss h.linked hz hg) (Nat.succ_le_succ h.bound)
  · obtain ⟨b, hb, hkey⟩ := wpaBssGet_eq_some hg
    rw [wpaBssUpdateScanRes_of_known hs hg hb]
    obtain ⟨n, nb, hr, -⟩ := wpaBssUpdate_replaces realloc h.linked hb (congrArg Prod.fst hkey)
    exact h.replace hr

theorem currentLive_removeOldest_iff (hc : CurrentLive s) :
    CurrentLive (removeOldest bssMaxCount s) ↔
      ∀ a, s.bss.head? = some a → bssMaxCount < s.numBss → s.currentBss ≠ some a := by
  unfold removeOldest
  split
  · next first l hl =>
    split_ifs with hfull
    · constructor
      · intro hlive a ha _ hcur
        have hfirst : first = a := by simpa [hl] using ha
        exact not_currentLive_wpaBssRemove (hfirst ▸ hcur) hlive
      · intro hne
        exact hc.wpaBssRemove (hne first (by simp [hl]) hfull)
    · simp [hc, hfull]
  · next hl => simp [hc, hl]

theorem currentLive_wpaBssUpdateScanRes_iff (h : Inv bssMaxCount s) (hc : CurrentLive s)
    (res : ScanRes) (zalloc realloc : Option ℕ) :
    CurrentLive (wpaBssUpdateScanRes bssMaxCount s res zalloc realloc) ↔
      ¬ EvictsCurrent bssMaxCount s res zalloc ∧ ¬ MovesCurrent s res realloc := by
  rcases hs : acceptedSsid res with _ | ssid
  · rw [wpaBssUpdateScanRes_of_rejected hs]
    simp [EvictsCurrent, MovesCurrent, hs, hc]
  rcases hg : wpaBssGet s res.data.bssid ssid with _ | a
  · have hmove : ¬ MovesCurrent s res realloc := by simp [MovesCurrent, hs, hg]
    rw [wpaBssUpdateScanRes_of_new hs hg, wpaBssAdd]
    rcases hz : zallocBss s zalloc with _ | a
    · simp [EvictsCurrent, hz, hc, hmove]
    · have hlive : CurrentLive (linkBss s a (newBss s ssid res)) :=
        hc.linkBss (zallocBss_eq_some hz)
      have hnew : s.currentBss ≠ some a := by
        intro hcur
        obtain ⟨b, hb, -⟩ := hc a hcur
        simp [zallocBss_eq_some hz] at hb
      refine (currentLive_removeOldest_iff hlive).trans ?_
      constructor
      · intro hkeep
        refine ⟨?_, hmove⟩
        rintro ⟨first, ssid', hcur, hfirst, hfull, -⟩
        refine hkeep first ?_ (Nat.lt_succ_of_le hfull) hcur
        simp [linkBss, List.head?_append, hfirst]
      · rintro ⟨hevict, -⟩ first hfirst hfull hcur
        rcases hhead : s.bss.head? with _ | x
        · have hfirsta : a = first := by simpa [linkBss, List.head?_append, hhead] using hfirst
          exact hnew (hfirsta ▸ hcur)
        · have hx : x = first := by simpa [linkBss, List.head?_append, hhead] using hfirst
          exact hevict ⟨x, ssid, hx ▸ hcur, hhead, Nat.le_of_lt_succ hfull, hs, hg, by simp [hz]⟩
  · obtain ⟨b, hb, hkey⟩ := wpaBssGet_eq_some hg
    have hevict : ¬ EvictsCurrent bssMaxCount s res zalloc := by simp [EvictsCurrent, hs, hg]
    rw [wpaBssUpdateScanRes_of_known hs hg hb]
    obtain ⟨n, nb, hr, hmoved⟩ :=
      wpaBssUpdate_replaces realloc h.linked hb (congrArg Prod.fst hkey)
    constructor
    · intro hlive
      refine ⟨hevict, ?_⟩
      rintro ⟨a', b', ssid', m, hcur, hb', hs', hg', hfit, hre, hne⟩
      obtain rfl : ssid' = ssid := Option.some.inj (hs'.symm.trans hs)
      obtain rfl : a' = a := Option.some.inj (hg'.symm.trans hg)
      obtain rfl : b' = b := Option.some.inj (hb'.symm.trans hb)
      exact not_currentLive_replace hr (hmoved.mpr ⟨hfit, m, hre, hne⟩) hcur hlive
    · rintro ⟨-, hmove⟩
      refine hc.replace hr ?_
      intro hna hcur
      obtain ⟨hfit, m, hre, hne⟩ := hmoved.mp hna
      exact hmove ⟨a, b, ssid, m, hcur, hb, hs, hg, hfit, hre, hne⟩

theorem currentBss_ne_of_not_inUse {a : ℕ} {b : WpaBss} (h : wpaBssInUse s a b = false) :
    s.currentBss ≠ some a := by
  intro hcur
  simp [wpaBssInUse, hcur] at h

theorem expireUnseen_keeps (info : Option ScanInfo) (a : ℕ)
    (h : Good bssMaxCount s) :
    Good bssMaxCount (expireUnseen info s a) := by
  unfold expireUnseen
  rcases hb : s.mem a with _ | b
  · exact h
  have hid : (countMiss s b).id = b.id := by
    unfold countMiss
    split_ifs <;> rfl
  have hkey : (countMiss s b).key = b.key := by
    unfold countMiss
    split_ifs <;> rfl
  have halloc : (countMiss s b).ie.length + (countMiss s b).beaconIe.length ≤
      (countMiss s b).alloc := by
    unfold countMiss
    split_ifs <;> exact h.1.linked.alloc a b hb
  set s' := { s with mem := Function.update s.mem a (some (countMiss s b)) } with hs'
  have hr : Replaces s s' a a b (countMiss s b) :=
    replaces_self hb hid hkey halloc rfl (List.Perm.refl _) rfl rfl rfl rfl rfl rfl
  have hcount : Inv bssMaxCount s' ∧ CurrentLive s' :=
    ⟨h.1.replace hr, h.2.replace hr fun hne => absurd rfl hne⟩
  dsimp only
  split_ifs with huse hincluded hexpired
  · exact h
  · exact h
  · have hcur : s.currentBss ≠ some a := currentBss_ne_of_not_inUse (by simpa using huse)
    exact ⟨hcount.1.wpaBssRemove (h.1.linked.mem_bss hb), hcount.2.wpaBssRemove hcur⟩
  · exact hcount

theorem flushOne_keeps (a : ℕ) (h : Good bssMaxCount s) :
    Good bssMaxCount (flushOne s a) := by
  unfold flushOne
  rcases hb : s.mem a with _ | b
  · exact h
  dsimp only
  split_ifs with huse
  · exact h
  · have hcur : s.currentBss ≠ some a := currentBss_ne_of_not_inUse (by simpa using huse)
    exact ⟨h.1.wpaBssRemove (h.1.linked.mem_bss hb), h.2.wpaBssRemove hcur⟩

theorem flushByAgeLoop_keeps (t : OsTime) (l : List ℕ) (h : Good bssMaxCount s) :
    Good bssMaxCount (flushByAgeLoop t l s) := by
  induction l generalizing s with
  | nil => exact h
  | cons a l ih =>
    rw [flushByAgeLoop]
    rcases hb : s.mem a with _ | b
    · exact ih h
    dsimp only
    split_ifs with huse hold
    · exact ih h
    · have hcur : s.currentBss ≠ some a := currentBss_ne_of_not_inUse (by simpa using huse)
      exact ih ⟨h.1.wpaBssRemove (h.1.linked.mem_bss hb), h.2.wpaBssRemove hcur⟩
    · exact h

end Steps

/-! ## What a flush by age removes -/

section FlushByAge

variable {s : BssTable} {t : OsTime}

theorem takeWhile_congr {p q : ℕ → Bool} {l : List ℕ} (h : ∀ x ∈ l, p x = q x) :
    l.takeWhile p = l.takeWhile q := by
  induction l with
  | nil => rfl
  | cons x l ih =>
    have hrest := ih fun y hy => h y (List.mem_cons_of_mem x hy)
    rw [List.takeWhile_cons, List.takeWhile_cons, h x List.mem_cons_self, hrest]

theorem mem_takeWhile_iff_pairwise {p : ℕ → Bool} {l : List ℕ} (hl : l.Nodup) :
    (∀ a ∈ l, p a → a ∈ l.takeWhile p) ↔ l.Pairwise fun x y => p y → p x := by
  induction l with
  | nil => simp
  | cons x l ih =>
    obtain ⟨hx, hl⟩ := List.nodup_cons.mp hl
    rw [List.pairwise_cons, ← ih hl]
    by_cases hp : p x
    · rw [List.takeWhile_cons_of_pos hp]
      constructor
      · intro h
        refine ⟨fun _ _ _ => hp, ?_⟩
        intro a ha hpa
        refine (List.mem_cons.mp (h a (List.mem_cons_of_mem x ha) hpa)).resolve_left ?_
        rintro rfl
        exact hx ha
      · rintro ⟨-, h⟩ a ha hpa
        rcases List.mem_cons.mp ha with rfl | ha
        · exact List.mem_cons_self
        · exact List.mem_cons_of_mem x (h a ha hpa)
    · rw [List.takeWhile_cons_of_neg hp]
      constructor
      · intro h
        have hnone : ∀ a ∈ l, ¬ p a := fun a ha hpa => by
          simpa using h a (List.mem_cons_of_mem x ha) hpa
        exact ⟨fun y hy hpy => absurd hpy (hnone y hy), fun a ha hpa => absurd hpa (hnone a ha)⟩
      · rintro ⟨h, -⟩ a ha hpa
        rcases List.mem_cons.mp ha with rfl | ha
        · exact absurd hpa hp
        · exact absurd (h a ha hpa) hp

/-- The entries that a flush by age goes over and removes. -/
def removedByAge (t : OsTime) (l : List ℕ) (s : BssTable) : List ℕ :=
  (l.filter (outOfUse s)).takeWhile (olderThan s t)

/-- The loop removes the old entries in front of the first one that is not in use and not old, and
changes nothing that decides on use. -/
theorem flushByAgeLoop_spec {l : List ℕ} (hl : l.Nodup) :
    (∀ x, (flushByAgeLoop t l s).mem x = if x ∈ removedByAge t l s then none else s.mem x) ∧
    (flushByAgeLoop t l s).currentBss = s.currentBss ∧ (flushByAgeLoop t l s).bssid = s.bssid ∧
    (flushByAgeLoop t l s).pendingBssid = s.pendingBssid ∧ (flushByAgeLoop t l s).now = s.now := by
  induction l generalizing s with
  | nil => simp [flushByAgeLoop, removedByAge]
  | cons a l ih =>
    obtain ⟨ha, hl⟩ := List.nodup_cons.mp hl
    rw [flushByAgeLoop]
    rcases hb : s.mem a with _ | b
    · have hout : outOfUse s a = false := by simp [outOfUse, hb]
      have hsame : removedByAge t (a :: l) s = removedByAge t l s := by
        simp [removedByAge, hout]
      rw [hsame]
      exact ih hl
    dsimp only
    split_ifs with huse hold
    · have hout : outOfUse s a = false := by simp [outOfUse, hb, huse]
      have hsame : removedByAge t (a :: l) s = removedByAge t l s := by
        simp [removedByAge, hout]
      rw [hsame]
      exact ih hl
    · have hout : outOfUse s a = true := by simpa [outOfUse, hb] using huse
      have holder : olderThan s t a = true := by simpa [olderThan, hb] using hold
      have hmem : ∀ x ∈ l, (wpaBssRemove s a).mem x = s.mem x := by
        intro x hx
        have hxa : x ≠ a := fun hxa => ha (hxa ▸ hx)
        simp [wpaBssRemove, Function.update_of_ne hxa]
      have hrest : removedByAge t (a :: l) s = a :: removedByAge t l (wpaBssRemove s a) := by
        have hfilter : l.filter (outOfUse (wpaBssRemove s a)) = l.filter (outOfUse s) :=
          List.filter_congr fun x hx => by simp only [outOfUse, hmem x hx]; rfl
        rw [removedByAge, removedByAge, hfilter, List.filter_cons_of_pos hout,
          List.takeWhile_cons_of_pos holder]
        refine congrArg (a :: ·) (takeWhile_congr ?_)
        intro x hx
        simp only [olderThan, hmem x (List.mem_of_mem_filter hx)]
      obtain ⟨hx, hrest'⟩ := ih (s := wpaBssRemove s a) hl
      refine ⟨?_, hrest'⟩
      intro x
      rw [hx, hrest]
      by_cases hxa : x = a
      · simp [hxa, wpaBssRemove]
      · simp [hxa, wpaBssRemove]
    · have hout : outOfUse s a = true := by simpa [outOfUse, hb] using huse
      have holder : olderThan s t a = false := by simpa [olderThan, hb] using hold
      have hnone : removedByAge t (a :: l) s = [] := by
        simp [removedByAge, hout, holder]
      simp [hnone]

/-- **A flush leaves no old entry** that is not in use exactly when those entries are in front. -/
theorem flushed_iff {bssMaxCount : ℕ} (h : Inv bssMaxCount s) (age : ℤ) :
    Flushed (wpaBssFlushByAge s age) age ↔ OldFirst s (agoTime s age) := by
  have hl := h.linked
  obtain ⟨hmem, hcur, hbssid, hpending, hnow⟩ :=
    flushByAgeLoop_spec (s := s) (t := agoTime s age) hl.nodup
  have hago : agoTime (wpaBssFlushByAge s age) age = agoTime s age :=
    congrArg (fun now : OsTime => (⟨now.sec - age, now.usec⟩ : OsTime)) hnow
  have huse : ∀ a b, wpaBssInUse (wpaBssFlushByAge s age) a b = wpaBssInUse s a b := by
    intro a b
    simp only [wpaBssInUse, wpaBssFlushByAge, hcur, hbssid, hpending]
  have hfirst : OldFirst s (agoTime s age) ↔
      ∀ a ∈ s.bss.filter (outOfUse s), olderThan s (agoTime s age) a →
        a ∈ removedByAge (agoTime s age) s.bss s :=
    (mem_takeWhile_iff_pairwise (hl.nodup.filter _)).symm
  rw [hfirst]
  unfold Flushed
  simp only [hago, huse]
  constructor
  · intro hflushed a ha hold
    obtain ⟨hin, hout⟩ := List.mem_filter.mp ha
    obtain ⟨b, hb, hbuse⟩ := (Option.any_eq_true _ _).mp hout
    by_contra hnot
    have hkept : (wpaBssFlushByAge s age).mem a = some b := by
      rw [wpaBssFlushByAge, hmem, if_neg hnot, hb]
    have hbold : b.lastUpdate.before (agoTime s age) := by simpa [olderThan, hb] using hold
    simp [hflushed a b hkept hbold] at hbuse
  · intro hfront a b hb hold
    rw [wpaBssFlushByAge, hmem] at hb
    split_ifs at hb with hnot
    by_contra hbuse
    refine hnot (hfront a ?_ ?_)
    · exact List.mem_filter.mpr ⟨hl.mem_bss hb, by simpa [outOfUse, hb] using hbuse⟩
    · simpa [olderThan, hb] using hold

end FlushByAge

/-! ## Runs -/

section Runs

variable {bssMaxCount : ℕ} {s : BssTable}

theorem Inv.sound (h : Inv bssMaxCount s) (hc : CurrentLive s) : Sound bssMaxCount s where
  same := fun _ => h.linked.perm.mem_iff.symm
  live := h.linked.live
  nodup := ⟨h.linked.nodup, h.linked.nodup_bssId⟩
  count := ⟨h.linked.count, h.linked.count.trans h.linked.perm.length_eq.symm⟩
  bound := h.bound
  keys := h.linked.keys
  ids := h.linked.ids
  alloc := h.linked.alloc
  current := hc

theorem Inv.frame {s' : BssTable} (h : Inv bssMaxCount s) (hmem : s'.mem = s.mem)
    (hbss : s'.bss = s.bss) (hbssId : s'.bssId = s.bssId) (hnum : s'.numBss = s.numBss)
    (hcreated : s'.created = s.created) (hnext : s'.bssNextId = s.bssNextId) :
    Inv bssMaxCount s' := by
  obtain ⟨⟨h₁, h₂, h₃, h₄, h₅, h₆, h₇, h₈, h₉⟩, hb⟩ := h
  refine ⟨⟨?_, ?_, ?_, ?_, ?_, ?_, ?_, ?_, ?_⟩, hnum.trans_le hb⟩
  all_goals simpa only [hmem, hbss, hbssId, hnum, hcreated, hnext]

theorem selectBss_keeps (bss : Option ℕ) (h : Good bssMaxCount s) :
    Good bssMaxCount (selectBss s bss) := by
  unfold selectBss
  split
  · exact ⟨h.1.frame rfl rfl rfl rfl rfl rfl, fun x hx => absurd hx (by simp)⟩
  · next a =>
    split
    · next b hb =>
      refine ⟨h.1.frame rfl rfl rfl rfl rfl rfl, ?_⟩
      intro x hx
      have hxa : a = x := by simpa using hx
      exact ⟨b, hxa ▸ hb, rfl⟩
    · exact h

theorem wpaBssUpdateEnd_keeps (info : Option ScanInfo) (newScan : Bool)
    (h : Good bssMaxCount s) :
    Good bssMaxCount (wpaBssUpdateEnd s info newScan) := by
  unfold wpaBssUpdateEnd
  split_ifs
  · exact List.foldlRecOn (motive := Good bssMaxCount) s.bss (expireUnseen info) h
      fun _ hs a _ => expireUnseen_keeps info a hs
  · exact h

theorem wpaBssFlush_keeps (h : Good bssMaxCount s) :
    Good bssMaxCount (wpaBssFlush s) :=
  List.foldlRecOn (motive := Good bssMaxCount) s.bss flushOne h fun _ hs a _ => flushOne_keeps a hs

theorem bssStep_keeps (op : BssOp) (h : Good bssMaxCount s)
    (hop : Careful bssMaxCount s op) :
    Good bssMaxCount (bssStep bssMaxCount s op) := by
  cases op with
  | updateStart => exact ⟨h.1.frame rfl rfl rfl rfl rfl rfl, h.2⟩
  | updateScanRes res zalloc realloc =>
    exact ⟨h.1.wpaBssUpdateScanRes res zalloc realloc,
      (currentLive_wpaBssUpdateScanRes_iff h.1 h.2 res zalloc realloc).mpr hop⟩
  | updateEnd info newScan => exact wpaBssUpdateEnd_keeps info newScan h
  | flushByAge age => exact flushByAgeLoop_keeps _ _ h
  | flush => exact wpaBssFlush_keeps h
  | select bss => exact selectBss_keeps bss h
  | associate bssid pendingBssid => exact ⟨h.1.frame rfl rfl rfl rfl rfl rfl, h.2⟩
  | setBssExpirationCount n => exact ⟨h.1.frame rfl rfl rfl rfl rfl rfl, h.2⟩
  | clock now => exact ⟨h.1.frame rfl rfl rfl rfl rfl rfl, h.2⟩

theorem meets_iff_careful (op : BssOp) (h : Good bssMaxCount s) :
    Meets bssMaxCount s op ↔ Careful bssMaxCount s op := by
  constructor
  · rintro ⟨hsound, hflush⟩
    cases op with
    | updateScanRes res zalloc realloc =>
      exact (currentLive_wpaBssUpdateScanRes_iff h.1 h.2 res zalloc realloc).mp hsound.current
    | flushByAge age => exact (flushed_iff h.1 age).mp (hflush age rfl)
    | _ => trivial
  · intro hop
    obtain ⟨hinv, hcur⟩ := bssStep_keeps op h hop
    refine ⟨hinv.sound hcur, ?_⟩
    rintro age rfl
    exact (flushed_iff h.1 age).mpr hop

theorem good_init (bssMaxCount : ℕ) (now : OsTime) :
    Good bssMaxCount (wpaBssInit now) :=
  ⟨⟨linked_init now, Nat.zero_le _⟩, fun _ ha => absurd ha (by simp [wpaBssInit])⟩

/-- **The guarantees over runs.** A run of the table from its initialization keeps every guarantee
at every step exactly when no result evicts the current entry from a full table or makes it move,
and every flush by age finds the old entries in front. -/
theorem along_meets_iff (bssMaxCount : ℕ) (now : OsTime) (ops : List BssOp) :
    Along (bssStep bssMaxCount) (Meets bssMaxCount) (wpaBssInit now) ops ↔
      Along (bssStep bssMaxCount) (Careful bssMaxCount) (wpaBssInit now) ops := by
  have hstep : ∀ s op, Good bssMaxCount s → Careful bssMaxCount s op →
      Good bssMaxCount (bssStep bssMaxCount s op) := fun _ op h hop => bssStep_keeps op h hop
  have hiff : ∀ s op, Good bssMaxCount s → (Meets bssMaxCount s op ↔ Careful bssMaxCount s op) :=
    fun _ op h => meets_iff_careful op h
  exact along_congr hstep hiff (good_init bssMaxCount now) ops

/-- A result for the BSS 2 with the SSID `A`. -/
def resOfA (ie : Bytes) : ScanRes where
  data := ⟨0, 2, 2412, 100, 0, 0, 0, 0, 0⟩
  age := 0
  ie := [0, 1, 0x41] ++ ie
  beaconIe := []

/-- The station selects the entry at block 1. The next scan sees its BSS with one more element, and
`os_realloc` answers with block 2. -/
def movingRun : List BssOp :=
  [.updateScanRes (resOfA []) (some 1) none, .select (some 1),
    .updateScanRes (resOfA [1, 1, 0x82]) none (some 2)]

/-- In that run `current_bss` still points to block 1, which is free. -/
theorem selected_entry_moves : ¬ Along (bssStep 200) (Meets 200) (wpaBssInit ⟨0, 0⟩) movingRun := by
  have hfree : (run (bssStep 200) (wpaBssInit ⟨0, 0⟩) movingRun).mem 1 = none := by decide +kernel
  rintro ⟨-, -, hlast, -⟩
  obtain ⟨b, hb, -⟩ := hlast.1.current 1 (by decide +kernel)
  exact absurd (hfree.symm.trans hb) (by simp)

end Runs

end Hostapd.WpaSupplicant
