import Hostapd.Utils.EloopTimers

/-!
# The event loop: its promise about timeouts

`TimersPromise` is what the loop promises of its timeouts over a whole run: the list is in the
order of the due times, each registration is pending, cancelled or run, once, none is run before
it is due or after one that is due later, a due one is run or cancelled when the loop has looked
at its list often enough, and a cancellation removes what matches. The overflow check of
`eloop_register_timeout` looks at the seconds before the microseconds are carried into them, so
the carry can still wrap: **`run_timers_iff`** says that a run keeps the promise exactly when the
sums of all its registrations fit.
-/

namespace Hostapd.Utils.Eloop

open Hostapd.Lib

/-! ## Due timeouts are run -/

section Settling

variable {abi : DataModel}

def EloopTimeout.Fits (abi : DataModel) (t : EloopTimeout) : Prop :=
  Eloop.Fits abi t.since t.secs t.usecs

def AllFit (abi : DataModel) (v : Timers) : Prop := ∀ t ∈ v.registered, t.Fits abi

def ahead (t : EloopTimeout) (v : Timers) : ℕ := v.timeout.countP fun b => b.key < t.key

/-- A due timeout that stays in the list has at most so many in front of it, less one for each
look at the list. -/
structure Pending (t : EloopTimeout) (k : ℕ) (v : Timers) : Prop where
  due : t.time.key ≤ v.now.key
  mem : t ∈ v.registered
  ahead : t ∈ v.timeout → ahead t v + v.passes ≤ k

variable {v v' : Timers}

theorem AllFit.of_move (hm : Move abi v v') (h : AllFit abi v') :
    AllFit abi v := by
  cases hm with
  | advance now hnow => exact h
  | register t hid hsince htime => exact fun b hb => h b (List.mem_append_left _ hb)
  | cancel p => exact h

theorem AllFit.of_moves (hm : Moves abi v v') (h : AllFit abi v') :
    AllFit abi v := by
  induction hm with
  | refl => exact h
  | tail _ hstep ih => exact ih (h.of_move hstep)

theorem check_registered (v : Timers) : v.check.registered = v.registered := by
  rcases check_cases v with ⟨heq, -⟩ | ⟨_, _, _, _, heq⟩ <;> rw [heq]

theorem key_le_of_fits {now time : OsTime} (hnow : now.IsReading abi) {secs usecs : UInt32}
    (h : dueTime abi now secs usecs = some time) (hfit : Eloop.Fits abi now secs usecs) :
    now.key ≤ time.key := by
  obtain ⟨hmicros, hlo, hhi⟩ := dueTime_of_fits hnow h hfit
  rw [← not_lt, key_lt_iff ⟨hlo, hhi⟩ ⟨hnow.2.2.1, hnow.2.2.2⟩, hmicros, dueMicros]
  omega

variable {t : EloopTimeout} {k : ℕ}

theorem Pending.move (hinv : TimersInv abi v)
    (hm : Move abi v v') (hfit : AllFit abi v') (h : Pending t k v) : Pending t k v' := by
  cases hm with
  | advance now hnow => exact ⟨h.due.trans hnow, h.mem, h.ahead⟩
  | register b hid hsince htime =>
    have hb : ¬ b.key < t.key := by
      have hfitb := hfit b (List.mem_append_right _ (List.mem_singleton_self b))
      rw [EloopTimeout.Fits, hsince] at hfitb
      have hlater := h.due.trans (key_le_of_fits hinv.reading htime hfitb)
      have hlt := hinv.id_lt h.mem
      rw [timeout_key_lt_iff]
      rintro (hkey | ⟨-, hnum⟩)
      · exact absurd hkey (not_lt.mpr hlater)
      · omega
    have hold : ∀ c ∈ v.timeout, c.id < b.id := fun c hc =>
      hid ▸ hinv.id_lt (hinv.mem_registered hc)
    refine ⟨h.due, List.mem_append_left _ h.mem, fun hmem => ?_⟩
    change t ∈ insertTimeout b v.timeout at hmem
    have hne : t ≠ b := by
      rintro rfl
      have := hinv.id_lt h.mem
      omega
    rw [insertTimeout_eq hold, mem_insertByKey, or_iff_right hne] at hmem
    have hcount : Eloop.ahead t { v with
        timeout := insertTimeout b v.timeout
        registered := v.registered ++ [b] } = Eloop.ahead t v := by
      unfold Eloop.ahead
      rw [insertTimeout_eq hold, (insertByKey_perm EloopTimeout.key b v.timeout).countP_eq,
        List.countP_cons_of_neg (by simpa using hb)]
    rw [hcount]
    exact h.ahead hmem
  | cancel p =>
    refine ⟨h.due, h.mem, fun hmem => ?_⟩
    have hle : Eloop.ahead t { v with
        timeout := v.timeout.filter fun t => !p t
        cancelled := v.cancelled ++ v.timeout.filter p } ≤ Eloop.ahead t v :=
      List.filter_sublist.countP_le
    have := h.ahead (List.mem_of_mem_filter hmem)
    show Eloop.ahead t _ + v.passes ≤ k
    omega

theorem Pending.moves (hinv : TimersInv abi v)
    (hm : Moves abi v v') (hfit : AllFit abi v') (h : Pending t k v) : Pending t k v' := by
  induction hm with
  | refl => exact h
  | tail hmoves hstep ih =>
    exact (ih (hfit.of_move hstep)).move (hinv.moves hmoves) hstep hfit

theorem Pending.check {v : Timers} (hinv : TimersInv abi v)
    (h : Pending t k v) : Pending t k v.check := by
  refine ⟨?_, (check_registered v).symm ▸ h.mem, ?_⟩
  · rcases check_cases v with ⟨heq, -⟩ | ⟨_, _, _, _, heq⟩ <;> rw [heq] <;> exact h.due
  · have hsorted := hinv.sorted
    rcases check_cases v with ⟨heq, hhead⟩ | ⟨first, rest, hv, -, heq⟩ <;> rw [heq]
    · intro hmem
      exfalso
      cases hv : v.timeout with
      | nil => simp [hv] at hmem
      | cons first rest =>
        rw [hv] at hsorted
        have hlate := before_iff.mp (hhead first (by simp [hv]))
        simp only [hv] at hmem
        rcases List.mem_cons.mp hmem with rfl | hmem
        · exact absurd hlate (not_lt.mpr h.due)
        · have hkey := (List.pairwise_cons.mp hsorted).1 t hmem
          have htime : first.time.key ≤ t.time.key := by
            rcases timeout_key_lt_iff.mp hkey with hlt | ⟨hkey, -⟩
            · exact hlt.le
            · exact hkey.le
          exact absurd hlate (not_lt.mpr (htime.trans h.due))
    · intro hmem
      change t ∈ rest at hmem
      rw [hv] at hsorted
      have hkey := (List.pairwise_cons.mp hsorted).1 t hmem
      have hbefore := h.ahead (by simp only [hv]; exact List.mem_cons_of_mem first hmem)
      have hcount : Eloop.ahead t v = rest.countP (fun b => b.key < t.key) + 1 := by
        unfold Eloop.ahead
        rw [hv, List.countP_cons_of_pos (by simpa using hkey)]
      show rest.countP (fun b => b.key < t.key) + (v.passes + 1) ≤ k
      omega

variable (script : ℕ → List (Call abi))

variable {s : EloopData}

theorem AllFit.of_step {op : Op abi} (h : AllFit abi (step script s op).timers) :
    AllFit abi s.timers := by
  rcases step_moves script s op with hm | ⟨v, hm, hm'⟩
  · exact h.of_moves hm
  · have hcheck := h.of_moves hm'
    unfold AllFit at hcheck
    rw [check_registered] at hcheck
    exact AllFit.of_moves hm hcheck

variable {ops : List (Op abi)}

theorem AllFit.of_run
    (h : AllFit abi (run (step script) s ops).timers) : AllFit abi s.timers := by
  induction ops generalizing s with
  | nil => exact h
  | cons op ops ih => exact (ih h).of_step script

theorem Pending.step (hinv : TimersInv abi s.timers)
    {op : Op abi} (hfit : AllFit abi (step script s op).timers) (h : Pending t k s.timers) :
    Pending t k (step script s op).timers := by
  rcases step_moves script s op with hm | ⟨v, hm, hm'⟩
  · exact h.moves hinv hm hfit
  · have hcheck := hfit.of_moves hm'
    have hfitv : AllFit abi v := fun b hb => hcheck b ((check_registered v).symm ▸ hb)
    have hinvv := hinv.moves hm
    exact ((h.moves hinv hm hfitv).check hinvv).moves hinvv.check hm' hfit

theorem Pending.run (hinv : TimersInv abi s.timers)
    (hfit : AllFit abi (run (Eloop.step script) s ops).timers)
    (h : Pending t k s.timers) : Pending t k (run (Eloop.step script) s ops).timers := by
  induction ops generalizing s with
  | nil => exact h
  | cons op ops ih =>
    exact ih (hinv.step script op) hfit (h.step script hinv (AllFit.of_run script hfit))

theorem gone_of_passes (hinv : TimersInv abi s.timers)
    (hfit : AllFit abi (run (Eloop.step script) s ops).timers)
    (hmem : t ∈ s.timeout) (hdue : t.time.key ≤ s.now.key)
    (hpasses : s.passes + s.timeout.length ≤ (run (Eloop.step script) s ops).passes) :
    t ∉ (run (Eloop.step script) s ops).timeout := by
  intro hstay
  have hpending : Pending t (ahead t s.timers + s.passes) s.timers :=
    ⟨hdue, hinv.mem_registered hmem, fun _ => le_refl _⟩
  have hle := (hpending.run script hinv hfit).ahead hstay
  have hlt : ahead t s.timers < s.timeout.length := by
    rw [ahead, List.countP_eq_length_filter]
    exact List.length_filter_lt_length_iff_exists.mpr ⟨t, hmem, by simp⟩
  change _ + (run (Eloop.step script) s ops).passes ≤ _ at hle
  omega

end Settling

/-! ## The promise -/

section Promise

variable {abi : DataModel}

def EloopTimeout.due (t : EloopTimeout) : ℤ := dueMicros t.since t.secs t.usecs

/-- A timeout is due before another; of two that are due together, the one registered first. -/
def DueBefore (a b : EloopTimeout) : Prop := a.due < b.due ∨ a.due = b.due ∧ a.id < b.id

/-- The timeouts of a state: due when their registrations say, in order, each registration in one
place, run neither early nor out of order. -/
structure TimersKept (s : EloopData) : Prop where
  exact : ∀ t ∈ s.registered, t.time.micros = t.due
  numbered : s.registered.map EloopTimeout.id = List.range s.registered.length
  sorted : s.timeout.Pairwise DueBefore
  once : (s.timeout ++ s.fired.map Fired.timeout ++ s.cancelled).Perm s.registered
  early : ∀ f ∈ s.fired, f.timeout.due ≤ f.at_.micros
  order : s.fired.Pairwise fun f g =>
    g.timeout.id < f.registrations → DueBefore f.timeout g.timeout

/-- A cancellation counts and removes the matching timeouts, and nothing else. -/
def CancelExact (s : EloopData) (handler eloopData userData : Ptr) : Prop :=
  cancelTimeout s handler eloopData userData =
    ((s.timeout.filter (·.matches handler eloopData userData)).length,
      { s with
        timeout := s.timeout.filter fun t => !t.matches handler eloopData userData
        cancelled := s.cancelled ++ s.timeout.filter (·.matches handler eloopData userData) })

variable (script : ℕ → List (Call abi)) (now : Reading abi) (ops : List (Op abi))

/-- A timeout that is due somewhere in the run has been run or cancelled at its end, if the loop
has looked at its list in between as often as the list was long. -/
def Settles : Prop :=
  ∀ l l', ops = l ++ l' → ∀ t ∈ (run (step script) (init now) l).timeout,
    t.due ≤ (run (step script) (init now) l).now.micros →
    (run (step script) (init now) l).passes + (run (step script) (init now) l).timeout.length ≤
      (run (step script) (init now) ops).passes →
    t ∈ (run (step script) (init now) ops).fired.map Fired.timeout ∨
      t ∈ (run (step script) (init now) ops).cancelled

/-- What the event loop promises of the timeouts of a run. -/
def TimersPromise : Prop :=
  TimersKept (run (step script) (init now) ops) ∧ Settles script now ops ∧
    ∀ s handler eloopData userData, CancelExact s handler eloopData userData

theorem cancelExact (s : EloopData) (handler eloopData userData : Ptr) :
    CancelExact s handler eloopData userData := by
  unfold CancelExact cancelTimeout
  rw [cancelLoop_eq, List.countP_eq_length_filter]

theorem TimersInv.exact {v : Timers} (h : TimersInv abi v) (hfit : AllFit abi v)
    {t : EloopTimeout} (ht : t ∈ v.registered) :
    t.time.micros = t.due ∧ 0 ≤ t.time.usec ∧ t.time.usec < 1000000 :=
  dueTime_of_fits (h.since t ht).1 (h.due t ht) (hfit t ht)

theorem TimersInv.dueBefore {v : Timers} (h : TimersInv abi v) (hfit : AllFit abi v)
    {a b : EloopTimeout} (ha : a ∈ v.registered) (hb : b ∈ v.registered) (hkey : a.key < b.key) :
    DueBefore a b := by
  obtain ⟨ham, ha'⟩ := h.exact hfit ha
  obtain ⟨hbm, hb'⟩ := h.exact hfit hb
  rcases timeout_key_lt_iff.mp hkey with hlt | ⟨heq, hid⟩
  · exact Or.inl (ham ▸ hbm ▸ (key_lt_iff ha' hb').mp hlt)
  · refine Or.inr ⟨le_antisymm ?_ ?_, hid⟩
    · rw [← ham, ← hbm, ← not_lt, ← key_lt_iff hb' ha', heq]
      exact lt_irrefl _
    · rw [← ham, ← hbm, ← not_lt, ← key_lt_iff ha' hb', heq]
      exact lt_irrefl _

theorem TimersInv.due_iff {v : Timers} (h : TimersInv abi v) (hfit : AllFit abi v)
    {t : EloopTimeout} (ht : t ∈ v.registered) {at_ : OsTime} (hat : at_.IsReading abi) :
    t.time.key ≤ at_.key ↔ t.due ≤ at_.micros := by
  obtain ⟨hm, hnorm⟩ := h.exact hfit ht
  rw [← hm, ← not_lt, ← not_lt, key_lt_iff ⟨hat.2.2.1, hat.2.2.2⟩ hnorm]

theorem timersKept_of_fit {s : EloopData} (h : TimersInv abi s.timers)
    (hfit : AllFit abi s.timers) : TimersKept s := by
  have hmem : ∀ t ∈ s.timeout ++ s.fired.map Fired.timeout ++ s.cancelled, t ∈ s.registered :=
    fun t => h.once.mem_iff.mp
  have hfired : ∀ f ∈ s.fired, f.timeout ∈ s.registered := fun f hf =>
    hmem _ (List.mem_append_left _ (List.mem_append_right _ (List.mem_map_of_mem hf)))
  refine ⟨fun t ht => (h.exact hfit ht).1, h.ids, ?_, h.once, fun f hf => ?_, ?_⟩
  · refine h.sorted.imp_of_mem fun {a b} ha hb hkey => ?_
    exact h.dueBefore hfit (h.mem_registered ha) (h.mem_registered hb) hkey
  · obtain ⟨hat, hkey⟩ := h.early f hf
    exact (h.due_iff hfit (hfired f hf) hat).mp hkey
  · refine h.order.imp_of_mem fun {f g} hf hg hkey hid => ?_
    exact h.dueBefore hfit (hfired f hf) (hfired g hg) (hkey hid)

theorem settles_of_fit (hfit : AllFit abi (run (step script) (init now) ops).timers) :
    Settles script now ops := by
  rintro l l' rfl t ht hdue hpasses
  rw [run_append] at hfit hpasses ⊢
  have hinv := run_timersInv script now l
  have hfit' := AllFit.of_run script hfit
  have hkey := (hinv.due_iff hfit' (hinv.mem_registered ht) hinv.reading).mpr hdue
  have hgone := gone_of_passes script hinv hfit ht hkey hpasses
  have hpending : Pending t (ahead t (run (step script) (init now) l).timers +
      (run (step script) (init now) l).passes) (run (step script) (init now) l).timers :=
    ⟨hkey, hinv.mem_registered ht, fun _ => le_refl _⟩
  have hend := run_timersInv script now (l ++ l')
  rw [run_append] at hend
  have hmem := hend.once.mem_iff.mpr (hpending.run script hinv hfit).mem
  rcases List.mem_append.mp hmem with hmem | hmem
  · rcases List.mem_append.mp hmem with hmem | hmem
    · exact absurd hmem hgone
    · exact Or.inl hmem
  · exact Or.inr hmem

/-- The event loop keeps its promise about the timeouts of a run exactly when both sums of every
registration fit a `long`. -/
theorem run_timers_iff : TimersPromise script now ops ↔
    ∀ t ∈ (run (step script) (init now) ops).registered, t.Fits abi := by
  have hinv := run_timersInv script now ops
  constructor
  · rintro ⟨hkept, -, -⟩ t ht
    by_contra hfit
    have hearly := dueTime_of_not_fits (hinv.since t ht).1 (hinv.due t ht) hfit
    rw [hkept.exact t ht] at hearly
    exact absurd hearly (lt_irrefl _)
  · intro hfit
    exact ⟨timersKept_of_fit hinv hfit, settles_of_fit script now ops hfit, cancelExact⟩

/-- With a 32-bit `long`, a timeout whose seconds just fit is carried past the largest second: it
is due in 1901 and is run in the first turn of the loop. -/
theorem carry_overflows : ¬ @TimersPromise .ilp32 (fun _ => [])
    ⟨⟨1300000000, 1⟩, by decide⟩ [.call (.registerTimeout 847483647 999999 0 0 0 true)] := by
  rintro ⟨hkept, -, -⟩
  have hdue : dueTime .ilp32 ⟨1300000000, 1⟩ 847483647 999999 = some ⟨-2147483648, 0⟩ := by
    simp [dueTime, carryLoop, DataModel.wrap, DataModel.longBits, Int.bmod]
  have hexact := hkept.exact
  simp only [run, step, exec, registerTimeout, init, hdue, if_true, List.nil_append,
    List.length_nil, List.mem_singleton, forall_eq] at hexact
  revert hexact
  decide

end Promise

end Hostapd.Utils.Eloop
