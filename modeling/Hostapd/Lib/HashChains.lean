import Mathlib.Data.List.Nodup
import Mathlib.Logic.Function.Basic

/-!
# Hash chains

Entries in chains by a hash of their keys, as an index over a list that holds each entry once: a
lookup walks one chain, a new entry goes to the head of its chain, and an entry is unlinked by its
key.

* **`Chained hash key chain l`**: the chains hold the entries of `l`, which have distinct keys.
* **`Chained.find_eq_some`**, **`Chained.find_eq_none`**: what a lookup finds.
* **`Chained.cons`**, **`Chained.erase`**: linking an entry and unlinking it by its key.
-/

namespace Hostapd.Lib

open Function

variable {ι κ β : Type*}

theorem eraseP_eq_erase [DecidableEq ι] {l : List ι} {p : ι → Bool} {a : ι}
    (h : ∀ b ∈ l, p b = true ↔ b = a) : l.eraseP p = l.erase a := by
  induction l with
  | nil => rfl
  | cons b l ih =>
    by_cases hb : b = a
    · rw [List.eraseP_cons_of_pos ((h b List.mem_cons_self).mpr hb), hb, List.erase_cons_head]
    · have hpb : ¬ p b = true := fun hp => hb ((h b List.mem_cons_self).mp hp)
      rw [List.eraseP_cons_of_neg hpb, List.erase_cons_tail (by simpa using hb),
        ih fun c hc => h c (List.mem_cons_of_mem b hc)]

/-- The chains hold the entries of a list, each once, in the chain of its key, and no two with one
key. -/
structure Chained (hash : κ → β) (key : ι → κ) (chain : β → List ι) (l : List ι) : Prop where
  nodup : ∀ b, (chain b).Nodup
  mem : ∀ b a, a ∈ chain b ↔ a ∈ l ∧ hash (key a) = b
  inj : ∀ a ∈ l, ∀ b ∈ l, key a = key b → a = b

theorem chained_nil (hash : κ → β) (key : ι → κ) : Chained hash key (fun _ => []) [] where
  nodup _ := List.nodup_nil
  mem := by simp
  inj := by simp

namespace Chained

variable {hash : κ → β} {key key' : ι → κ} {chain : β → List ι} {l l' : List ι} {a : ι}

theorem perm (h : Chained hash key chain l) (hl : l'.Perm l) : Chained hash key chain l' where
  nodup := h.nodup
  mem b a := by rw [h.mem, hl.mem_iff]
  inj a ha b hb := h.inj a (hl.mem_iff.mp ha) b (hl.mem_iff.mp hb)

theorem congr (h : Chained hash key chain l) (hkey : ∀ a ∈ l, key' a = key a) :
    Chained hash key' chain l where
  nodup := h.nodup
  mem b a := by
    rw [h.mem]
    refine and_congr_right fun ha => ?_
    rw [hkey a ha]
  inj a ha b hb := by
    rw [hkey a ha, hkey b hb]
    exact h.inj a ha b hb

section Lookup

variable [DecidableEq κ]

theorem find_eq_some (h : Chained hash key chain l) {k : κ}
    (ha : (chain (hash k)).find? (fun b => key b = k) = some a) : a ∈ l ∧ key a = k :=
  ⟨((h.mem _ a).mp (List.mem_of_find?_eq_some ha)).1, by simpa using List.find?_some ha⟩

theorem find_eq_none (h : Chained hash key chain l) {k : κ}
    (hnone : (chain (hash k)).find? (fun b => key b = k) = none) : ∀ a ∈ l, key a ≠ k := by
  intro a ha hk
  have hchain : a ∈ chain (hash k) := (h.mem _ a).mpr ⟨ha, by rw [hk]⟩
  simpa [hk] using List.find?_eq_none.mp hnone a hchain

end Lookup

variable [DecidableEq β]

theorem cons (h : Chained hash key chain l) (ha : a ∉ l) (hnew : ∀ b ∈ l, key b ≠ key a) :
    Chained hash key (update chain (hash (key a)) (a :: chain (hash (key a)))) (a :: l) where
  nodup b := by
    by_cases hb : b = hash (key a)
    · have hnot : a ∉ chain b := fun hin => ha ((h.mem b a).mp hin).1
      subst hb
      rw [update_self]
      exact List.nodup_cons.mpr ⟨hnot, h.nodup _⟩
    · rw [update_of_ne hb]
      exact h.nodup b
  mem b c := by
    by_cases hb : b = hash (key a)
    · subst hb
      rw [update_self, List.mem_cons, List.mem_cons, h.mem]
      constructor
      · rintro (rfl | ⟨hc, heq⟩)
        · exact ⟨.inl rfl, rfl⟩
        · exact ⟨.inr hc, heq⟩
      · rintro ⟨rfl | hc, heq⟩
        · exact .inl rfl
        · exact .inr ⟨hc, heq⟩
    · rw [update_of_ne hb, h.mem, List.mem_cons]
      refine and_congr_left fun heq => ⟨.inr, ?_⟩
      rintro (rfl | hc)
      · exact absurd heq.symm hb
      · exact hc
  inj b hb c hc heq := by
    rcases List.mem_cons.mp hb with rfl | hbl <;> rcases List.mem_cons.mp hc with rfl | hcl
    · rfl
    · exact absurd heq.symm (hnew c hcl)
    · exact absurd heq (hnew b hbl)
    · exact h.inj b hbl c hcl heq

variable [DecidableEq ι] [DecidableEq κ]

theorem eraseP_chain (h : Chained hash key chain l) (ha : a ∈ l) (b : β) :
    update chain (hash (key a)) ((chain (hash (key a))).eraseP fun c => key c = key a) b =
      (chain b).erase a := by
  by_cases hb : b = hash (key a)
  · subst hb
    rw [update_self]
    refine eraseP_eq_erase fun c hc => ?_
    rw [decide_eq_true_eq]
    exact ⟨fun heq => h.inj c ((h.mem _ c).mp hc).1 a ha heq, fun heq => by rw [heq]⟩
  · have hnot : a ∉ chain b := fun hmem => hb ((h.mem b a).mp hmem).2.symm
    rw [update_of_ne hb, List.erase_of_not_mem hnot]

theorem erase (h : Chained hash key chain l) (hl : l.Nodup) (ha : a ∈ l) :
    Chained hash key
      (update chain (hash (key a)) ((chain (hash (key a))).eraseP fun c => key c = key a))
      (l.erase a) where
  nodup b := by
    rw [h.eraseP_chain ha]
    exact (h.nodup b).erase a
  mem b c := by
    rw [h.eraseP_chain ha, (h.nodup b).mem_erase_iff, h.mem, hl.mem_erase_iff, and_assoc]
  inj b hb c hc := h.inj b (List.mem_of_mem_erase hb) c (List.mem_of_mem_erase hc)

end Chained

end Hostapd.Lib
