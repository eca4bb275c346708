import Mathlib.Data.List.Basic

/-!
# A message sent in fragments

A sender that cuts a message into packets, and a receiver that puts it together and asks for an
acknowledgment of every packet but the last one, as functions on states of their own.

* **`Link`**: the two functions, what a packet has to fit, and when all of the message was sent.
* **`Transfer`**: from a state of the sender and one of the receiver on, finitely many packets that
  all fit are sent; each but the last one asks for an acknowledgment, and the last one completes the
  message, once.
* **`Transfer.of_measure`**: the rule for a transfer. What remains to be sent shrinks with every
  packet that is not the last.
* **`Transfer.first`**: what a transfer begins with.
-/

namespace Hostapd.Lib

inductive Reception (μ : Type*)
  | nothing
  | ackAsked
  | message (msg : μ)
  deriving DecidableEq

/-- A sender with states `σ`, which builds a packet with an identifier, and a receiver with states
`ρ`. -/
structure Link (σ ρ ι π μ : Type*) where
  send : σ → ι → σ × Option π
  recv : ρ → π → ρ × Reception μ
  Fits : π → Prop
  Sent : σ → Prop

variable {σ ρ ι π μ : Type*}

/-- The message `msg` goes over the link, in packets with the identifiers `ids`. -/
inductive Transfer (L : Link σ ρ ι π μ) (msg : μ) : (ℕ → ι) → σ → ρ → Prop
  | last {ids : ℕ → ι} {s s' : σ} {r r' : ρ} {p : π} (hsend : L.send s (ids 0) = (s', some p))
      (hfits : L.Fits p) (hrecv : L.recv r p = (r', .message msg)) (hsent : L.Sent s') :
      Transfer L msg ids s r
  | more {ids : ℕ → ι} {s s' : σ} {r r' : ρ} {p : π} (hsend : L.send s (ids 0) = (s', some p))
      (hfits : L.Fits p) (hrecv : L.recv r p = (r', .ackAsked)) (hsent : ¬ L.Sent s')
      (hrest : Transfer L msg (fun n => ids (n + 1)) s' r') : Transfer L msg ids s r

/-- One packet of a transfer, with what remains to be sent as a number: the last one, or one after
which less remains. -/
def Link.Advances (L : Link σ ρ ι π μ) (msg : μ) (Mid : ℕ → σ → ρ → Prop) (n : ℕ) (s : σ) (r : ρ)
    (i : ι) : Prop :=
  ∃ s' p, L.send s i = (s', some p) ∧ L.Fits p ∧
    ((L.Sent s' ∧ ∃ r', L.recv r p = (r', .message msg)) ∨
      (¬ L.Sent s' ∧ ∃ r' m, m < n ∧ L.recv r p = (r', .ackAsked) ∧ Mid m s' r'))

theorem Transfer.of_measure {L : Link σ ρ ι π μ} {msg : μ} {Mid : ℕ → σ → ρ → Prop}
    (hstep : ∀ n s r i, Mid n s r → L.Advances msg Mid n s r i) {n : ℕ} {s : σ} {r : ρ}
    (h : Mid n s r) (ids : ℕ → ι) : Transfer L msg ids s r := by
  induction n using Nat.strongRecOn generalizing s r ids with
  | ind n ih =>
    obtain ⟨s', p, hsend, hfits, ⟨hsent, r', hrecv⟩ | ⟨hsent, r', m, hlt, hrecv, hmid⟩⟩ :=
      hstep n s r (ids 0) h
    · exact .last hsend hfits hrecv hsent
    · exact .more hsend hfits hrecv hsent (ih m hlt hmid _)

theorem Transfer.first {L : Link σ ρ ι π μ} {msg : μ} {ids : ℕ → ι} {s : σ} {r : ρ}
    (h : Transfer L msg ids s r) : ∃ s' p, L.send s (ids 0) = (s', some p) ∧
      (((L.recv r p).2 = .ackAsked ∧ ¬ L.Sent s') ∨
        ((L.recv r p).2 = .message msg ∧ L.Sent s')) := by
  cases h with
  | last hsend _ hrecv hsent => exact ⟨_, _, hsend, Or.inr ⟨by rw [hrecv], hsent⟩⟩
  | more hsend _ hrecv hsent _ => exact ⟨_, _, hsend, Or.inl ⟨by rw [hrecv], hsent⟩⟩

end Hostapd.Lib
