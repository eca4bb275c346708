import Hostapd.Ap.PmksaCache
import Hostapd.Lib.Loop

/-!
# Opportunistic key caching: the search for a PMK

`pmksa_cache_get_okc` walks the list of the cache and recomputes the PMKID of each entry of the
station, for the address of another authenticator.

* **`getOkcBody`** is the body of the `while` loop as the source has it, on the part of the list
  the cursor points at. Where the entry is of another station the source says `continue` without
  moving the cursor, so that round ends with the cursor it began with.
* **`getOkc_returns_find_iff`**: the loop returns the first match, or `NULL` when there is none,
  if and only if every entry in front of it is of the station. Otherwise it does not return
  (`getOkc_returns_iff`).
-/

namespace Hostapd.Ap.Pmksa

open Hostapd.Lib

variable (rsnPmkid : Bytes → MacAddr → MacAddr → Bool → Pmkid) (aa spa : MacAddr) (pmkid : Pmkid)

/-- The entry is of the station and its PMKID under the address `aa` is the wanted one. -/
def okcMatch (entry : PmksaEntry) : Bool :=
  entry.spa = spa ∧ rsnPmkid entry.pmk aa spa entry.akmp.sha256 = pmkid

/-- One round of the `while` loop, with `entry` at the head of the list it still has to look at.
Source: `pmksa_cache_get_okc`. -/
def getOkcBody : List PmksaEntry → List PmksaEntry ⊕ Option PmksaEntry
  | [] => .inr none
  | entry :: next =>
    -- `continue` in front of `entry = entry->next`
    if entry.spa ≠ spa then .inl (entry :: next)
    else if rsnPmkid entry.pmk aa spa entry.akmp.sha256 = pmkid then .inr (some entry)
    else .inl next

/-- The search in the cache `c` returns `r`. Source: `pmksa_cache_get_okc`. -/
def GetOkcReturns (c : PmksaCache) (r : Option PmksaEntry) : Prop :=
  Returns (getOkcBody rsnPmkid aa spa pmkid) c.pmksa r

variable {rsnPmkid aa spa pmkid}
variable {entry : PmksaEntry} {l : List PmksaEntry} {r : Option PmksaEntry}

theorem getOkcBody_of_match (h : okcMatch rsnPmkid aa spa pmkid entry) :
    getOkcBody rsnPmkid aa spa pmkid (entry :: l) = .inr (some entry) := by
  simp only [okcMatch, decide_eq_true_eq] at h
  simp [getOkcBody, h.1, h.2]

theorem getOkcBody_of_own (hspa : entry.spa = spa)
    (h : ¬ okcMatch rsnPmkid aa spa pmkid entry) :
    getOkcBody rsnPmkid aa spa pmkid (entry :: l) = .inl l := by
  have hid : rsnPmkid entry.pmk aa spa entry.akmp.sha256 ≠ pmkid := by
    intro hid
    exact h (by simp [okcMatch, hspa, hid])
  simp [getOkcBody, hspa, hid]

theorem getOkcBody_of_other (hspa : entry.spa ≠ spa) :
    getOkcBody rsnPmkid aa spa pmkid (entry :: l) = .inl (entry :: l) := by
  simp [getOkcBody, hspa]

theorem getOkc_returns_iff :
    Returns (getOkcBody rsnPmkid aa spa pmkid) l r ↔
      r = l.find? (okcMatch rsnPmkid aa spa pmkid) ∧
      ∀ e ∈ l.takeWhile (fun e => !okcMatch rsnPmkid aa spa pmkid e), e.spa = spa := by
  induction l with
  | nil =>
    have hdone : getOkcBody rsnPmkid aa spa pmkid [] = .inr none := rfl
    rw [returns_iff_of_done hdone]
    simp [eq_comm]
  | cons entry l ih =>
    by_cases hm : okcMatch rsnPmkid aa spa pmkid entry
    · rw [returns_iff_of_done (getOkcBody_of_match hm)]
      simp [hm, eq_comm]
    · by_cases hspa : entry.spa = spa
      · rw [returns_iff_of_next (getOkcBody_of_own hspa hm), ih]
        simp [hm, hspa]
      · have hstuck : ¬ Returns (getOkcBody rsnPmkid aa spa pmkid) (entry :: l) r :=
          not_returns_of_stuck (getOkcBody_of_other hspa)
        simp [hm, hspa, hstuck]

/-- **The search ends at the first match** of the station, or with `NULL` when there is none, in
exactly the caches that have no entry of another station in front of that match. -/
theorem getOkc_returns_find_iff (rsnPmkid : Bytes → MacAddr → MacAddr → Bool → Pmkid)
    (c : PmksaCache) (aa spa : MacAddr) (pmkid : Pmkid) :
    GetOkcReturns rsnPmkid aa spa pmkid c (c.pmksa.find? (okcMatch rsnPmkid aa spa pmkid)) ↔
      ∀ e ∈ c.pmksa.takeWhile (fun e => !okcMatch rsnPmkid aa spa pmkid e), e.spa = spa := by
  unfold GetOkcReturns
  rw [getOkc_returns_iff]
  simp

/-- The authenticator has cached a PMK for the station 2 and then one for the station 1. Station 1
is served from its entry by `find?`, and the search of the source never returns: the entry of
station 2 expires first and is in front. -/
theorem getOkc_stuck_at_other_station :
    let rsnPmkid : Bytes → MacAddr → MacAddr → Bool → Pmkid := fun _ _ _ _ => Vector.replicate 16 0
    let c := run (step rsnPmkid) (authInit 0)
      [.authAdd (some 1) (List.replicate 32 1) 0 2 600 none .ieee8021x,
        .authAdd (some 2) (List.replicate 32 2) 0 1 900 none .ieee8021x]
    (c.pmksa.find? (okcMatch rsnPmkid 3 1 (Vector.replicate 16 0))).isSome ∧
      ¬ ∃ r, GetOkcReturns rsnPmkid 3 1 (Vector.replicate 16 0) c r := by
  refine ⟨by decide +kernel, ?_⟩
  rintro ⟨r, hr⟩
  obtain ⟨-, hown⟩ := getOkc_returns_iff.mp hr
  exact absurd hown (by decide +kernel)

end Hostapd.Ap.Pmksa
