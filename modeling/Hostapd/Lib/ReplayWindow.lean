import Mathlib.Data.List.Basic

/-!
# Replay windows

Replay protection by a short window of outstanding counters, apart from any protocol. One party
issues requests that carry a counter and accepts a reply only if it carries a counter that is
still outstanding.

* **The exchange** is a history of `Exchange` events, newest first. `outstanding` are the counters
  issued since the last reply was accepted, and `Responds` says that every accepted reply carried
  an outstanding one. **`Responds.pairwise_accepted`**: where counters are issued in increasing
  order, accepted replies carry increasing counters, so none is accepted twice.
* **The window** is a list of slots, of which the valid ones before the first invalid one are
  live. `Tracks` relates a window to a history, and the operations on the window keep it:
  `Tracks.issue`, `Tracks.accept`, `Tracks.reset`.
-/

namespace Hostapd.Lib

/-! ## The exchange -/

/-- An event of an exchange: a request is issued, a reply is accepted, or all is forgotten. -/
inductive Exchange (α : Type*)
  | issue (c : α)
  | accept (c : α)
  | reset

section History

variable {α : Type*}

/-- The counters issued since the last reply was accepted. -/
def outstanding : List (Exchange α) → List α
  | [] => []
  | .issue c :: t => c :: outstanding t
  | .accept _ :: _ => []
  | .reset :: _ => []

/-- Every accepted reply carried an outstanding counter. -/
def Responds : List (Exchange α) → Prop
  | [] => True
  | .issue _ :: t => Responds t
  | .accept c :: t => c ∈ outstanding t ∧ Responds t
  | .reset :: t => Responds t

/-- The counters issued since the last reset, newest first. -/
def issued : List (Exchange α) → List α
  | [] => []
  | .issue c :: t => c :: issued t
  | .accept _ :: t => issued t
  | .reset :: _ => []

/-- The counters of the replies accepted since the last reset, newest first. -/
def accepted : List (Exchange α) → List α
  | [] => []
  | .issue _ :: t => accepted t
  | .accept c :: t => c :: accepted t
  | .reset :: _ => []

variable {t : List (Exchange α)}

theorem mem_issued_of_mem_outstanding {c : α} (h : c ∈ outstanding t) :
    c ∈ issued t := by
  induction t with
  | nil => exact h
  | cons e t ih =>
    cases e with
    | issue d =>
      rcases List.mem_cons.mp h with rfl | h
      · exact List.mem_cons_self
      · exact List.mem_cons_of_mem d (ih h)
    | accept d => exact absurd h List.not_mem_nil
    | reset => exact absurd h List.not_mem_nil

theorem Responds.mem_issued (h : Responds t) {c : α}
    (hc : c ∈ accepted t) : c ∈ issued t := by
  induction t with
  | nil => exact hc
  | cons e t ih =>
    cases e with
    | issue d => exact List.mem_cons_of_mem d (ih h hc)
    | accept d =>
      rcases List.mem_cons.mp hc with rfl | hc
      · exact mem_issued_of_mem_outstanding (t := t) h.1
      · exact ih h.2 hc
    | reset => exact hc

variable [LT α]

theorem Responds.accepted_lt_outstanding (h : Responds t)
    (hord : (issued t).Pairwise (· > ·)) {c d : α} (hc : c ∈ outstanding t)
    (hd : d ∈ accepted t) : d < c := by
  induction t with
  | nil => exact absurd hc List.not_mem_nil
  | cons e t ih =>
    cases e with
    | issue x =>
      obtain ⟨hx, hord⟩ := List.pairwise_cons.mp hord
      rcases List.mem_cons.mp hc with rfl | hc
      · exact hx d (Responds.mem_issued (t := t) h hd)
      · exact ih h hord hc hd
    | accept x => exact absurd hc List.not_mem_nil
    | reset => exact absurd hc List.not_mem_nil

theorem Responds.pairwise_accepted (h : Responds t)
    (hord : (issued t).Pairwise (· > ·)) : (accepted t).Pairwise (· > ·) := by
  induction t with
  | nil => exact List.Pairwise.nil
  | cons e t ih =>
    cases e with
    | issue x => exact ih h (List.pairwise_cons.mp hord).2
    | accept x =>
      refine List.pairwise_cons.mpr ⟨?_, ih h.2 hord⟩
      intro d hd
      exact h.2.accepted_lt_outstanding hord h.1 hd
    | reset => exact List.Pairwise.nil

end History

/-! ## The window -/

/-- A slot of a window: a counter, and whether a reply to it may be accepted. -/
structure Slot (α : Type*) where
  counter : α
  valid : Bool
  deriving DecidableEq

section Window

variable {α : Type*}

/-- The counters of the valid slots before the first invalid one. -/
def live : List (Slot α) → List α
  | [] => []
  | s :: w => if s.valid then s.counter :: live w else []

/-- The scan for a counter, which stops at the first invalid slot. -/
def scan [DecidableEq α] (c : α) : List (Slot α) → Bool
  | [] => false
  | s :: w => s.valid && (decide (c = s.counter) || scan c w)

variable {w : List (Slot α)}

theorem scan_iff [DecidableEq α] {c : α} : scan c w = true ↔ c ∈ live w := by
  induction w with
  | nil => simp [scan, live]
  | cons s w ih =>
    by_cases hv : s.valid = true
    · simp [scan, live, hv, ih]
    · simp [scan, live, hv]

/-- Every slot moves one place up, the last one is lost, and the first one takes a new counter. -/
def shift (c : α) (w : List (Slot α)) : List (Slot α) := ⟨c, true⟩ :: w.dropLast

def clearHead : List (Slot α) → List (Slot α)
  | [] => []
  | s :: w => { s with valid := false } :: w

theorem mem_live_of_dropLast {c : α} (h : c ∈ live w.dropLast) :
    c ∈ live w := by
  induction w with
  | nil => exact h
  | cons s w ih =>
    cases w with
    | nil => exact absurd h List.not_mem_nil
    | cons s' w =>
      by_cases hv : s.valid = true
      · simp only [List.dropLast_cons_cons, live, hv, if_true, List.mem_cons] at h ⊢
        rcases h with h | h
        · exact .inl h
        · exact .inr (by simpa only [live] using ih h)
      · simp [live, hv] at h

theorem mem_live_shift {c d : α} (h : d ∈ live (shift c w)) :
    d = c ∨ d ∈ live w := by
  simp only [shift, live, if_true, List.mem_cons] at h
  rcases h with h | h
  · exact .inl h
  · exact .inr (mem_live_of_dropLast h)

@[simp] theorem live_clearHead (w : List (Slot α)) : live (clearHead w) = [] := by
  cases w <;> rfl

/-! ## A window that tracks a history -/

def Tracks (w : List (Slot α)) (t : List (Exchange α)) : Prop :=
  ∀ c ∈ live w, c ∈ outstanding t

variable {t : List (Exchange α)}

theorem Tracks.issue (h : Tracks w t) (c : α) :
    Tracks (shift c w) (.issue c :: t) := by
  intro d hd
  rcases mem_live_shift hd with rfl | hd
  · exact List.mem_cons_self
  · exact List.mem_cons_of_mem c (h d hd)

theorem Tracks.accept (c : α) :
    Tracks (clearHead w) (.accept c :: t) := by
  intro d hd
  rw [live_clearHead] at hd
  exact absurd hd List.not_mem_nil

theorem Tracks.reset (h : live w = []) :
    Tracks w (.reset :: t) := by
  intro d hd
  rw [h] at hd
  exact absurd hd List.not_mem_nil

theorem Tracks.responds [DecidableEq α]
    (h : Tracks w t) (ht : Responds t) {c : α} (hc : scan c w = true) :
    Responds (.accept c :: t) :=
  ⟨h c (scan_iff.mp hc), ht⟩

end Window

end Hostapd.Lib
