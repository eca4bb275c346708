import Mathlib.Data.List.Basic
import Hostapd.Lib.Loop

/-!
# Enumeration by the previous element

A list that is not given as such: a function takes the element that was found last and finds the
next one. A search tries the elements one after the other until an attempt succeeds; an attempt may
change the state.

* **`Enumerates next p l`**: behind `p` the function gives the elements of `l`, and then no other.
* **`Enumerates.returns`**: the loop of the search ends, and does what `firstSuccess` does along the
  list.
* **`firstSuccess_spec`**: where success depends on the element alone, the search finds the first
  good element and tries the elements up to it, in their order.
-/

namespace Hostapd.Lib

variable {ι σ : Type*}

/-- Behind `p` the function gives the elements of a list, one after the other, and then none. -/
inductive Enumerates (next : Option ι → Option ι) : Option ι → List ι → Prop
  | nil {p : Option ι} (h : next p = none) : Enumerates next p []
  | cons {p : Option ι} {i : ι} {l : List ι} (h : next p = some i)
      (hl : Enumerates next (some i) l) : Enumerates next p (i :: l)

/-- Try one element after the other until one succeeds. -/
def firstSuccess (attempt : σ → ι → σ × Bool) : σ → List ι → σ × Option ι
  | s, [] => (s, none)
  | s, i :: l =>
    if (attempt s i).2 then ((attempt s i).1, some i) else firstSuccess attempt (attempt s i).1 l

/-- One round of a search, from the element tried last and the state. -/
def searchRound (next : Option ι → Option ι) (attempt : σ → ι → σ × Bool) (x : Option ι × σ) :
    (Option ι × σ) ⊕ (σ × Option ι) :=
  match next x.1 with
  | none => .inr (x.2, none)
  | some i =>
    if (attempt x.2 i).2 then .inr ((attempt x.2 i).1, some i)
    else .inl (some i, (attempt x.2 i).1)

variable {next : Option ι → Option ι} {attempt : σ → ι → σ × Bool} {p : Option ι} {l : List ι}

theorem Enumerates.returns (h : Enumerates next p l) (s : σ) :
    Returns (searchRound next attempt) (p, s) (firstSuccess attempt s l) := by
  induction h generalizing s with
  | nil hnone =>
    refine (returns_iff_of_done ?_).mpr rfl
    simp [searchRound, hnone, firstSuccess]
  | @cons p i l hsome hl ih =>
    by_cases hok : (attempt s i).2 = true
    · refine (returns_iff_of_done ?_).mpr rfl
      simp [searchRound, hsome, hok, firstSuccess]
    · have hround : searchRound next attempt (p, s) = .inl (some i, (attempt s i).1) := by
        simp [searchRound, hsome, hok]
      have htry : firstSuccess attempt s (i :: l) = firstSuccess attempt (attempt s i).1 l := by
        simp [firstSuccess, hok]
      rw [htry]
      exact (returns_iff_of_next hround).mpr (ih _)

/-- What a search has done: the first good element is found, the elements up to it are tried in
their order, and the state at the end is that of the last attempt. -/
theorem firstSuccess_spec (attempt : σ → ι → σ × Bool) (I : σ → Prop) (good : ι → Bool)
    (tried : σ → List ι)
    (hattempt : ∀ s i, I s → I (attempt s i).1 ∧ (attempt s i).2 = good i ∧
      tried (attempt s i).1 = tried s ++ [i]) {s : σ} (hs : I s) (l : List ι) :
    I (firstSuccess attempt s l).1 ∧ (firstSuccess attempt s l).2 = l.find? good ∧
      (∃ t, t <+: l ∧ tried (firstSuccess attempt s l).1 = tried s ++ t) ∧
      ∀ i, (firstSuccess attempt s l).2 = some i →
        ∃ s', I s' ∧ (firstSuccess attempt s l).1 = (attempt s' i).1 := by
  induction l generalizing s with
  | nil => exact ⟨hs, rfl, ⟨[], List.prefix_refl _, by simp [firstSuccess]⟩, by simp [firstSuccess]⟩
  | cons i l ih =>
    obtain ⟨hinv, hgood, hlog⟩ := hattempt s i hs
    by_cases hok : (attempt s i).2 = true
    · have htry : firstSuccess attempt s (i :: l) = ((attempt s i).1, some i) := by
        simp [firstSuccess, hok]
      rw [htry]
      refine ⟨hinv, ?_, ⟨[i], ?_, hlog⟩, ?_⟩
      · rw [List.find?_cons_of_pos (hgood ▸ hok)]
      · exact ⟨l, rfl⟩
      · intro j hj
        obtain rfl : i = j := Option.some.inj hj
        exact ⟨s, hs, rfl⟩
    · have htry : firstSuccess attempt s (i :: l) = firstSuccess attempt (attempt s i).1 l := by
        simp [firstSuccess, hok]
      obtain ⟨hinv', hfind, ⟨t, ht, hlog'⟩, hlast⟩ := ih hinv
      rw [htry]
      refine ⟨hinv', ?_, ⟨i :: t, ?_, ?_⟩, hlast⟩
      · rw [hfind, List.find?_cons_of_neg (hgood ▸ hok)]
      · exact (List.prefix_cons_inj i).mpr ht
      · rw [hlog', hlog, List.append_assoc]
        rfl

end Hostapd.Lib
