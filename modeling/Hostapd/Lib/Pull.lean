import Hostapd.Lib.Run

/-!
# A message pulled in parts

A receiver that asks for a message part by part, over two queues that keep the order and may
deliver what is at the front of them again. The parts carry no number that the receiver looks at.

* **`Pull`** is the state: how far both sides are, what is on the way, and how often the sender is
  still going to begin anew. `pos` and `got` are the parts sent and put together since the message
  was begun.
* **`Pull.Sound`** is the invariant: what is on the way brings the receiver to where the sender is.
  **`Sound.step`** says that a step keeps it, unless the receiver gets a part again that is not the
  last one.
* **`Sound.quiet`**: when nothing is on the way, the receiver has the message. **`weight_step_lt`**:
  every step that does not deliver again brings that nearer.
-/

namespace Hostapd.Lib

inductive Part
  | start
  | part (i : ℕ)
  deriving DecidableEq

/-- Two parties and what is on the way between them. -/
structure Pull where
  /-- how often the sender is going to begin -/
  due : ℕ
  /-- the parts sent, or `none` before the first beginning -/
  pos : Option ℕ
  /-- the parts put together, or `none` before the first beginning -/
  got : Option ℕ
  parts : List Part
  asks : ℕ
  deriving DecidableEq

/-- What happens; `keep` says that what is delivered is going to be delivered again. -/
inductive PullEvent
  | begin
  | ask (keep : Bool)
  | part (keep : Bool)
  deriving DecidableEq

section Pull

-- `parts` is the number of parts
variable (parts : ℕ)

def Pull.begin (s : Pull) : Pull :=
  { s with due := s.due - 1, pos := some 0, parts := s.parts ++ [.start] }

def Pull.asked (s : Pull) : Pull :=
  match s.pos with
  | none => s
  | some i =>
    if i < parts then { s with pos := some (i + 1), parts := s.parts ++ [.part i] } else s

/-- The receiver has got this many parts, and asks for another one if there are more. -/
def Pull.reach (s : Pull) (g : ℕ) : Pull :=
  { s with got := some g, asks := if g < parts then s.asks + 1 else s.asks }

/-- The receiver gets something. One that has the message ignores it. -/
def Pull.receive (s : Pull) : Part → Pull
  | .start => if s.got = some parts then s else s.reach parts 0
  | .part _ =>
    if s.got = some parts then s
    else
      match s.got with
      | none => s
      | some g => s.reach parts (g + 1)

def Pull.step (s : Pull) : PullEvent → Pull
  | .begin => if s.due = 0 then s else s.begin
  | .ask keep =>
    if s.asks = 0 then s
    else Pull.asked parts (if keep then s else { s with asks := s.asks - 1 })
  | .part keep =>
    match s.parts with
    | [] => s
    | m :: rest => Pull.receive parts (if keep then s else { s with parts := rest }) m

def Pull.Done (s : Pull) : Prop := s.got = some parts

instance (s : Pull) : Decidable (s.Done parts) := inferInstanceAs (Decidable (s.got = some parts))

/-- The step does not give a part again to a receiver that waits, unless it is the last part. -/
def Pull.Once (s : Pull) : PullEvent → Prop
  | .part true => ∀ i, s.parts.head? = some (.part i) → s.Done parts ∨ i + 1 = parts
  | _ => True

/-! ## The invariant -/

/-- What brings a receiver from so many parts to so many. -/
inductive Feeds : Option ℕ → List Part → Option ℕ → Prop
  | nil {g : Option ℕ} : Feeds g [] g
  | start {g n : Option ℕ} {l : List Part} (h : Feeds (some 0) l n) : Feeds g (.start :: l) n
  | part {g : ℕ} {n : Option ℕ} {l : List Part} (hg : g < parts) (h : Feeds (some (g + 1)) l n) :
      Feeds (some g) (.part g :: l) n

structure Pull.Sound (s : Pull) : Prop where
  feeds : ¬ s.Done parts → Feeds parts s.got s.parts s.pos
  live : ¬ s.Done parts → 0 < s.due ∨ s.parts ≠ [] ∨ 0 < s.asks
  waiting : s.pos = none → 0 < s.due ∧ s.got = none ∧ s.parts = [] ∧ s.asks = 0
  whole : parts = 0 → s.asks = 0
  pos_le : ∀ i, s.pos = some i → i ≤ parts

variable {parts}

variable {g n : Option ℕ} {l : List Part}

theorem Feeds.concat_start (h : Feeds parts g l n) :
    Feeds parts g (l ++ [.start]) (some 0) := by
  induction h with
  | nil => exact .start .nil
  | start h ih => exact .start ih
  | part hg h ih => exact .part hg ih

theorem Feeds.concat_part {g : Option ℕ} {i : ℕ} (h : Feeds parts g l (some i))
    (hi : i < parts) : Feeds parts g (l ++ [.part i]) (some (i + 1)) := by
  generalize hn : some i = n at h
  induction h with
  | nil =>
    subst hn
    exact .part hi .nil
  | start h ih => exact .start (ih hn)
  | part hg h ih => exact .part hg (ih hn)

theorem Feeds.eq_of_nil (h : Feeds parts g [] n) : g = n := by
  cases h
  rfl

theorem Feeds.of_start (h : Feeds parts g (.start :: l) n) :
    Feeds parts (some 0) l n := by
  cases h
  assumption

theorem Feeds.of_part {i : ℕ}
    (h : Feeds parts g (.part i :: l) n) :
    g = some i ∧ i < parts ∧ Feeds parts (some (i + 1)) l n := by
  cases h
  exact ⟨rfl, by assumption, by assumption⟩

namespace Pull

variable {s : Pull}

theorem receive_of_done (h : s.Done parts) (m : Part) : s.receive parts m = s := by
  cases m <;> exact if_pos h

theorem receive_start (h : ¬ s.Done parts) : s.receive parts .start = s.reach parts 0 := if_neg h

theorem receive_part (h : ¬ s.Done parts) {g : ℕ} (hg : s.got = some g) (i : ℕ) :
    s.receive parts (.part i) = s.reach parts (g + 1) := by
  have hrecv : s.receive parts (.part i) =
      match s.got with
      | none => s
      | some g => s.reach parts (g + 1) := if_neg h
  rw [hrecv, hg]

theorem sound_initial {n : ℕ} : Sound parts ⟨n + 1, none, none, [], 0⟩ where
  feeds _ := .nil
  live _ := .inl n.succ_pos
  waiting _ := ⟨n.succ_pos, rfl, rfl, rfl⟩
  whole _ := rfl
  pos_le _ h := nomatch h

theorem Sound.begin (h : Sound parts s) : Sound parts s.begin where
  feeds hdone := (h.feeds hdone).concat_start
  live _ := .inr (.inl (by simp [Pull.begin]))
  waiting hpos := nomatch hpos
  whole := h.whole
  pos_le i hi := by
    cases hi
    exact Nat.zero_le parts

theorem Sound.asked (h : Sound parts s) {asks : ℕ} (hasks : 0 < s.asks) :
    Sound parts (Pull.asked parts { s with asks := asks }) := by
  unfold Pull.asked
  cases hpos : s.pos with
  | none => exact absurd hasks (by rw [(h.waiting hpos).2.2.2]; exact Nat.lt_irrefl 0)
  | some i =>
    have hparts : parts ≠ 0 := fun hparts => by
      rw [h.whole hparts] at hasks
      exact Nat.lt_irrefl 0 hasks
    dsimp only
    split_ifs with hi
    · exact
        { feeds := fun hdone => by
            have hfeeds := h.feeds hdone
            rw [hpos] at hfeeds
            exact hfeeds.concat_part hi
          live := fun _ => .inr (.inl (by simp))
          waiting := fun hn => nomatch hn
          whole := fun hp => absurd hp hparts
          pos_le := fun j hj => by
            cases hj
            exact hi }
    · have hle' : i = parts := Nat.le_antisymm (h.pos_le i hpos) (Nat.not_lt.mp hi)
      have hpos' : s.pos ≠ none := by simp [hpos]
      rw [← hpos]
      exact
        { feeds := h.feeds
          live := fun hdone => .inr (.inl fun hnil => by
            -- everything was sent, so what the receiver lacks is on the way
            have hfeeds := h.feeds hdone
            rw [show s.parts = [] from hnil, hpos, hle'] at hfeeds
            exact hdone hfeeds.eq_of_nil)
          waiting := fun hn => absurd hn hpos'
          whole := fun hp => absurd hp hparts
          pos_le := h.pos_le }

theorem Sound.reach (h : Sound parts s) {g : ℕ} {l : List Part} (hg : g ≤ parts)
    (hpos : s.pos ≠ none) (hfeeds : g ≠ parts → Feeds parts (some g) l s.pos) :
    Sound parts (({ s with parts := l } : Pull).reach parts g) where
  feeds hdone := hfeeds fun hgp => hdone (congrArg some hgp)
  live hdone := by
    have hlt : g < parts := Nat.lt_of_le_of_ne hg fun hgp => hdone (congrArg some hgp)
    refine .inr (.inr ?_)
    simp only [Pull.reach, if_pos hlt]
    exact Nat.succ_pos s.asks
  waiting hn := absurd hn hpos
  whole hp := by
    have hlt : ¬ g < parts := by omega
    simp only [Pull.reach, if_neg hlt]
    exact h.whole hp
  pos_le := h.pos_le

theorem Sound.forget (h : Sound parts s) (hdone : s.Done parts) (hpos : s.pos ≠ none)
    (l : List Part) : Sound parts { s with parts := l } where
  feeds hn := absurd hdone hn
  live hn := absurd hdone hn
  waiting hn := absurd hn hpos
  whole := h.whole
  pos_le := h.pos_le

theorem Sound.part (h : Sound parts s) {keep : Bool} (honce : s.Once parts (.part keep)) :
    Sound parts (s.step parts (.part keep)) := by
  unfold step
  cases hparts : s.parts with
  | nil => exact h
  | cons m rest =>
    have hpos : s.pos ≠ none := fun hn => by simp [(h.waiting hn).2.2.1] at hparts
    obtain ⟨l, hl, hs⟩ : ∃ l, l = (if keep then m :: rest else rest) ∧
        (if keep then s else { s with parts := rest }) = { s with parts := l } := by
      cases keep
      · exact ⟨rest, rfl, rfl⟩
      · exact ⟨m :: rest, rfl, by rw [← hparts, if_pos rfl]⟩
    dsimp only
    rw [hs]
    by_cases hdone : s.Done parts
    · rw [receive_of_done (s := { s with parts := l }) hdone]
      exact h.forget hdone hpos l
    · have hfeeds := h.feeds hdone
      rw [hparts] at hfeeds
      cases m with
      | start =>
        rw [receive_start (s := { s with parts := l }) hdone]
        refine h.reach (Nat.zero_le parts) hpos fun _ => ?_
        subst hl
        cases keep
        · exact hfeeds.of_start
        · exact .start hfeeds.of_start
      | part i =>
        obtain ⟨hgot, hi, hrest⟩ := hfeeds.of_part
        rw [receive_part (s := { s with parts := l }) hdone hgot]
        refine h.reach hi hpos fun hne => ?_
        subst hl
        cases keep
        · exact hrest
        · -- a part that comes again is the last one
          rcases honce i (by rw [hparts]; rfl) with hd | hlast
          · exact absurd hd hdone
          · exact absurd hlast hne

theorem Sound.step (h : Sound parts s) {e : PullEvent} (honce : s.Once parts e) :
    Sound parts (s.step parts e) := by
  cases e with
  | begin =>
    by_cases hdue : s.due = 0
    · rwa [Pull.step, if_pos hdue]
    · rw [Pull.step, if_neg hdue]
      exact h.begin
  | ask keep =>
    by_cases hasks : s.asks = 0
    · rwa [Pull.step, if_pos hasks]
    · rw [Pull.step, if_neg hasks]
      have hpos : 0 < s.asks := Nat.pos_of_ne_zero hasks
      cases keep
      · exact h.asked hpos
      · exact h.asked hpos
  | part keep => exact h.part honce

theorem Sound.quiet (h : Sound parts s) (hdue : s.due = 0) (hparts : s.parts = [])
    (hasks : s.asks = 0) : s.Done parts := by
  by_contra hdone
  rcases h.live hdone with hl | hl | hl
  · exact absurd hdue (Nat.pos_iff_ne_zero.mp hl)
  · exact hl hparts
  · exact absurd hasks (Nat.pos_iff_ne_zero.mp hl)

/-! ## Progress -/

/-- The steps that can happen and do not deliver again. -/
def Effective (s : Pull) : PullEvent → Prop
  | .begin => 0 < s.due
  | .ask keep => keep = false ∧ 0 < s.asks
  | .part keep => keep = false ∧ s.parts ≠ []

def remaining (parts : ℕ) (s : Pull) : ℕ :=
  match s.pos with
  | none => 0
  | some i => parts - i

def weight (parts : ℕ) (s : Pull) : ℕ :=
  (2 * parts + 3) * s.due + 2 * s.remaining parts + 2 * s.parts.length + s.asks

theorem weight_reach_le (g : ℕ) : (s.reach parts g).weight parts ≤ s.weight parts + 1 := by
  have hasks : (s.reach parts g).asks ≤ s.asks + 1 := by
    simp only [Pull.reach]
    split_ifs <;> omega
  have hrem : (s.reach parts g).remaining parts = s.remaining parts := rfl
  simp only [weight, hrem]
  simp only [Pull.reach] at hasks ⊢
  omega

theorem weight_receive_le (m : Part) : (s.receive parts m).weight parts ≤ s.weight parts + 1 := by
  by_cases hdone : s.Done parts
  · rw [receive_of_done hdone]
    omega
  · cases m with
    | start =>
      rw [receive_start hdone]
      exact weight_reach_le 0
    | part i =>
      cases hgot : s.got with
      | none =>
        have hrecv : s.receive parts (.part i) = s := by
          unfold receive
          rw [hgot]
          split_ifs <;> rfl
        rw [hrecv]
        omega
      | some g =>
        rw [receive_part hdone hgot]
        exact weight_reach_le (g + 1)

theorem weight_asked_le : (s.asked parts).weight parts ≤ s.weight parts := by
  unfold Pull.asked
  cases hpos : s.pos with
  | none => exact Nat.le_refl _
  | some i =>
    dsimp only
    split_ifs with hi
    · simp only [weight, remaining, hpos, List.length_append, List.length_singleton]
      omega
    · exact Nat.le_refl _

theorem weight_step_lt {e : PullEvent} (he : s.Effective e) :
    (s.step parts e).weight parts < s.weight parts := by
  cases e with
  | begin =>
    have hdue : s.due ≠ 0 := Nat.pos_iff_ne_zero.mp he
    obtain ⟨n, hn⟩ : ∃ n, s.due = n + 1 := ⟨s.due - 1, by omega⟩
    have hstep : s.step parts .begin = s.begin := if_neg hdue
    rw [hstep]
    simp only [Pull.begin, weight, remaining, hn, List.length_append, List.length_singleton,
      Nat.add_sub_cancel, Nat.mul_succ]
    omega
  | ask keep =>
    obtain ⟨rfl, hasks⟩ := he
    have hne : s.asks ≠ 0 := by omega
    simp only [step, if_neg hne, Bool.false_eq_true, if_false]
    refine Nat.lt_of_le_of_lt weight_asked_le ?_
    simp only [weight, remaining]
    omega
  | part keep =>
    obtain ⟨rfl, hparts⟩ := he
    obtain ⟨m, rest, hm⟩ := List.exists_cons_of_ne_nil hparts
    simp only [step, hm, Bool.false_eq_true, if_false]
    refine Nat.lt_of_le_of_lt (weight_receive_le m) ?_
    simp only [weight, remaining, hm, List.length_cons]
    omega

end Pull

end Pull

end Hostapd.Lib
