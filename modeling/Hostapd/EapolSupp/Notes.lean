import Hostapd.EapolSupp.Data

/-!
# The 802.1X supplicant: what authorizes it

What the notes of a run say.

* **`Earned`**: since the supplicant PAE machine last entered DISCONNECTED or RESTART, the EAP
  machine was initialized, and after that a method returned a decision other than FAIL.
  `Initialised` is the first half of it, and `Current` says that the conversation that goes on has
  such a decision. **`Earned.of_initialised`** puts the two together.
* **`AuthFresh`**: every time the PAE machine went from AUTHENTICATING to AUTHENTICATED, that was
  earned.
-/

namespace Hostapd.EapolSupp

open Hostapd.Lib

/-! ## Notes -/

def Note.entersAnew : Note → Bool
  | .pae _ .disconnected => true
  | .pae _ .restart => true
  | _ => false

/-- What was noted since the PAE machine last began anew. -/
def sinceEntry (l : List Note) : List Note := l.takeWhile fun n => !n.entersAnew

def Initialised (l : List Note) : Prop := .eapInitialise ∈ sinceEntry l

instance (l : List Note) : Decidable (Initialised l) := inferInstanceAs (Decidable (_ ∈ _))

/-- The EAP machine was initialized since then, and after that a method decided for success. -/
def Earned (l : List Note) : Prop :=
  ∃ a d b, sinceEntry l = a ++ .method d :: b ∧ d ≠ .fail ∧ .eapInitialise ∈ b

/-- A method decided for success since the EAP machine was last initialized. -/
def Current (l : List Note) : Prop :=
  ∃ d, d ≠ .fail ∧ .method d ∈ l.takeWhile fun n => n ≠ .eapInitialise

/-- Every authorization that follows an authentication has been earned. -/
def AuthFresh (l : List Note) : Prop :=
  ∀ a b, l = a ++ .pae .authenticating .authenticated :: b → Earned b

section Notes

variable {n : Note} {l : List Note}

theorem sinceEntry_cons (h : n.entersAnew = false) : sinceEntry (n :: l) = n :: sinceEntry l := by
  simp [sinceEntry, h]

theorem Initialised.cons (h : Initialised l) (hn : n.entersAnew = false) :
    Initialised (n :: l) := by
  rw [Initialised, sinceEntry_cons hn]
  exact List.mem_cons_of_mem n h

theorem initialised_eapInitialise : Initialised (.eapInitialise :: l) := by
  rw [Initialised, sinceEntry_cons rfl]
  exact List.mem_cons_self

theorem Earned.cons (h : Earned l) (hn : n.entersAnew = false) : Earned (n :: l) := by
  obtain ⟨a, d, b, hl, hd, hb⟩ := h
  exact ⟨n :: a, d, b, by rw [sinceEntry_cons hn, hl, List.cons_append], hd, hb⟩

theorem Earned.initialised (h : Earned l) : Initialised l := by
  obtain ⟨a, d, b, hl, -, hb⟩ := h
  rw [Initialised, hl]
  exact List.mem_append_right a (List.mem_cons_of_mem _ hb)

theorem Current.cons (h : Current l) (hn : n ≠ .eapInitialise) : Current (n :: l) := by
  obtain ⟨d, hd, hmem⟩ := h
  refine ⟨d, hd, ?_⟩
  rw [List.takeWhile_cons, if_pos (decide_eq_true hn)]
  exact List.mem_cons_of_mem n hmem

theorem current_method {d : EapDecision} (hd : d ≠ .fail) : Current (.method d :: l) := by
  refine ⟨d, hd, ?_⟩
  have hne : decide (Note.method d ≠ .eapInitialise) = true := decide_eq_true Note.noConfusion
  rw [List.takeWhile_cons, if_pos hne]
  exact List.mem_cons_self

/-- A decision of the conversation that goes on has been earned, if the conversation was begun since
the PAE machine began anew. -/
theorem Earned.of_initialised (hi : Initialised l) (hc : Current l) : Earned l := by
  obtain ⟨d, hd, hmem⟩ := hc
  -- the notes in front of the latest initialization
  obtain ⟨a, b, hl, ha⟩ := List.eq_append_cons_of_mem hi
  have htake : (l.takeWhile fun n => n ≠ .eapInitialise) = a := by
    have hsince : l = sinceEntry l ++ l.dropWhile fun n => !n.entersAnew :=
      (List.takeWhile_append_dropWhile).symm
    have hall : ∀ n ∈ a, decide (n ≠ .eapInitialise) = true := fun n hn =>
      decide_eq_true fun h => ha (h ▸ hn)
    rw [hsince, hl, List.append_assoc, List.takeWhile_append_of_pos hall, List.cons_append,
      List.takeWhile_cons, if_neg (by decide), List.append_nil]
  rw [htake] at hmem
  obtain ⟨c, e, rfl⟩ := List.append_of_mem hmem
  refine ⟨c, d, e ++ .eapInitialise :: b, ?_, hd, ?_⟩
  · rw [hl, List.append_assoc, List.cons_append]
  · exact List.mem_append_right e List.mem_cons_self

theorem AuthFresh.cons (h : AuthFresh l)
    (hn : n = .pae .authenticating .authenticated → Earned l) : AuthFresh (n :: l) := by
  intro a b hl
  cases a with
  | nil =>
    obtain ⟨rfl, rfl⟩ := List.cons_eq_cons.mp hl
    exact hn rfl
  | cons c a => exact h a b (List.cons_eq_cons.mp hl).2

theorem authFresh_nil : AuthFresh [] := by
  intro a b hl
  simp at hl

end Notes

end Hostapd.EapolSupp
