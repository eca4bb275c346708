import Hostapd.Utils.Eloop
import Mathlib.Tactic.Ring

/-!
# The event loop: times and their order

* **Sums**: what the additions of `eloop_register_timeout` come to in a `long`. **`Fits`** is the
  exact condition: **`dueTime_of_fits`**, with it the timeout is due when the registration says;
  **`dueTime_of_not_fits`**, without it too early.
* **Order**: `os_time_before` is the lexicographic order of the two fields, and that of the
  microseconds when they are carried. `insertTimeout_eq`: the list is kept in that order, equal
  times by registration.
-/

namespace Hostapd.Utils.Eloop

open Hostapd.Lib

/-! ## Sums of times -/

def OsTime.micros (t : OsTime) : ℤ := t.sec * 1000000 + t.usec

section Sums

variable {abi : DataModel}

theorem longEnd_pos : 0 < abi.longEnd := by cases abi <;> decide

theorem wrap_of_fits {x : ℤ} (hlo : -abi.longEnd ≤ x) (hhi : x < abi.longEnd) :
    abi.wrap x = x := by
  cases abi with
  | ilp32 =>
    change -2147483648 ≤ x at hlo
    change x < 2147483648 at hhi
    exact Int.bmod_eq_of_le (m := 4294967296) (by omega) (by omega)
  | lp64 =>
    change -9223372036854775808 ≤ x at hlo
    change x < 9223372036854775808 at hhi
    exact Int.bmod_eq_of_le (m := 18446744073709551616) (by omega) (by omega)

theorem wrap_of_overflow {x : ℤ} (hlo : abi.longEnd ≤ x) (hhi : x < 3 * abi.longEnd) :
    abi.wrap x = x - 2 * abi.longEnd := by
  cases abi with
  | ilp32 =>
    change 2147483648 ≤ x at hlo
    change x < 3 * 2147483648 at hhi
    show x.bmod 4294967296 = x - 4294967296
    rw [← Int.sub_bmod_right]
    exact Int.bmod_eq_of_le (by omega) (by omega)
  | lp64 =>
    change 9223372036854775808 ≤ x at hlo
    change x < 3 * 9223372036854775808 at hhi
    show x.bmod 18446744073709551616 = x - 18446744073709551616
    rw [← Int.sub_bmod_right]
    exact Int.bmod_eq_of_le (by omega) (by omega)

theorem carryLoop_of_fits {sec usec : ℤ} (hlo : -abi.longEnd ≤ sec) (hpos : 0 ≤ usec)
    (hhi : sec + usec / 1000000 < abi.longEnd) :
    carryLoop abi sec usec = ⟨sec + usec / 1000000, usec % 1000000⟩ := by
  induction sec, usec using carryLoop.induct abi with
  | case1 sec usec hcarry ih =>
    have hdiv : usec / 1000000 = (usec - 1000000) / 1000000 + 1 := by omega
    have hwrap : abi.wrap (sec + 1) = sec + 1 := wrap_of_fits (by omega) (by omega)
    rw [hwrap] at ih
    rw [carryLoop, if_pos hcarry, hwrap, ih (by omega) (by omega) (by omega)]
    simp only [OsTime.mk.injEq]
    omega
  | case2 sec usec hcarry =>
    rw [carryLoop, if_neg hcarry]
    simp only [OsTime.mk.injEq]
    omega

/-- The carry loop of a sum whose seconds do not fit comes out a whole width of `long` too
early. -/
theorem carryLoop_of_overflow {sec usec : ℤ} (hlo : -abi.longEnd ≤ sec) (hhi : sec < abi.longEnd)
    (husec : usec < abi.longEnd) (hover : abi.longEnd ≤ sec + usec / 1000000) :
    (carryLoop abi sec usec).micros = sec * 1000000 + usec - 2 * abi.longEnd * 1000000 := by
  induction sec, usec using carryLoop.induct abi with
  | case1 sec usec hcarry ih =>
    have hdiv : usec / 1000000 = (usec - 1000000) / 1000000 + 1 := by omega
    rw [carryLoop, if_pos hcarry]
    by_cases hlast : sec + 1 < abi.longEnd
    · have hwrap : abi.wrap (sec + 1) = sec + 1 := wrap_of_fits (by omega) hlast
      rw [hwrap] at ih ⊢
      rw [ih (by omega) hlast (by omega) (by omega)]
      ring
    · have hwrap : abi.wrap (sec + 1) = sec + 1 - 2 * abi.longEnd :=
        wrap_of_overflow (by omega) (by omega)
      rw [hwrap, carryLoop_of_fits (by omega) (by omega) (by omega)]
      simp only [OsTime.micros]
      omega
  | case2 sec usec hcarry => omega

/-- The microsecond at which a timeout registered at `now` is due. -/
def dueMicros (now : OsTime) (secs usecs : UInt32) : ℤ :=
  now.micros + secs.toNat * 1000000 + usecs.toNat

/-- The two sums of a registration fit a `long`: that of the microseconds, and that of the seconds
with the carry. -/
def Fits (abi : DataModel) (now : OsTime) (secs usecs : UInt32) : Prop :=
  now.usec + usecs.toNat < abi.longEnd ∧
    now.sec + secs.toNat + (now.usec + usecs.toNat) / 1000000 < abi.longEnd

theorem toNat_lt_width (n : UInt32) : (n.toNat : ℤ) < 2 * abi.longEnd := by
  have hlt : n.toNat < 4294967296 := n.toNat_lt
  cases abi with
  | ilp32 =>
    show (n.toNat : ℤ) < 4294967296
    omega
  | lp64 =>
    show (n.toNat : ℤ) < 18446744073709551616
    omega

theorem million_lt_longEnd : 1000000 < abi.longEnd := by cases abi <;> decide

/-- A registration is ignored exactly when its seconds do not fit: a sum that wraps is smaller
than the clock. -/
theorem dueTime_eq {now : OsTime} (hnow : now.IsReading abi) (secs usecs : UInt32) :
    dueTime abi now secs usecs =
      if now.sec + secs.toNat < abi.longEnd then
        some (carryLoop abi (now.sec + secs.toNat) (abi.wrap (now.usec + usecs.toNat)))
      else none := by
  obtain ⟨hlo, hhi, -, -⟩ := hnow
  have hsecs := @toNat_lt_width abi secs
  unfold dueTime
  split
  next hfit =>
    rw [wrap_of_fits (by omega) hfit]
    exact if_neg (by omega)
  next hover =>
    rw [wrap_of_overflow (by omega) (by omega)]
    exact if_pos (by omega)

theorem dueTime_of_fits {now time : OsTime} (hnow : now.IsReading abi) {secs usecs : UInt32}
    (h : dueTime abi now secs usecs = some time) (hfit : Fits abi now secs usecs) :
    time.micros = dueMicros now secs usecs ∧ 0 ≤ time.usec ∧ time.usec < 1000000 := by
  have hend := @longEnd_pos abi
  rw [dueTime_eq hnow] at h
  obtain ⟨hlo, hhi, hpos, -⟩ := hnow
  obtain ⟨husec, hsec⟩ := hfit
  split at h
  · rw [wrap_of_fits (by omega) husec, carryLoop_of_fits (by omega) (by omega) hsec] at h
    cases h
    simp only [dueMicros, OsTime.micros]
    omega
  · cases h

theorem dueTime_of_not_fits {now time : OsTime} (hnow : now.IsReading abi) {secs usecs : UInt32}
    (h : dueTime abi now secs usecs = some time) (hfit : ¬ Fits abi now secs usecs) :
    time.micros < dueMicros now secs usecs := by
  have hend := @longEnd_pos abi
  have hmillion := @million_lt_longEnd abi
  have husecs := @toNat_lt_width abi usecs
  rw [dueTime_eq hnow] at h
  obtain ⟨hlo, hhi, hpos, hlt⟩ := hnow
  split at h
  next hsec =>
    cases h
    by_cases husec : now.usec + usecs.toNat < abi.longEnd
    · have hover : abi.longEnd ≤ now.sec + secs.toNat + (now.usec + usecs.toNat) / 1000000 := by
        by_contra hno
        exact hfit ⟨husec, by omega⟩
      rw [wrap_of_fits (by omega) husec, carryLoop_of_overflow (by omega) hsec husec hover]
      simp only [dueMicros, OsTime.micros]
      omega
    · rw [wrap_of_overflow (by omega) (by omega), carryLoop, if_neg (by omega)]
      simp only [dueMicros, OsTime.micros]
      omega
  · cases h

end Sums

/-! ## The order of the timeouts -/

def OsTime.key (t : OsTime) : ℤ ×ₗ ℤ := toLex (t.sec, t.usec)

/-- The place of a timeout in the list: its time, then its registration. -/
def EloopTimeout.key (t : EloopTimeout) : (ℤ ×ₗ ℤ) ×ₗ ℕ := toLex (t.time.key, t.id)

theorem before_iff {a b : OsTime} : a.before b = true ↔ a.key < b.key := by
  simp [OsTime.before, OsTime.key, Prod.Lex.toLex_lt_toLex]

theorem before_eq_false_iff {a b : OsTime} : a.before b = false ↔ b.key ≤ a.key := by
  rw [← Bool.not_eq_true, before_iff, not_lt]

theorem key_lt_iff {a b : OsTime} (ha : 0 ≤ a.usec ∧ a.usec < 1000000)
    (hb : 0 ≤ b.usec ∧ b.usec < 1000000) : a.key < b.key ↔ a.micros < b.micros := by
  simp only [OsTime.key, Prod.Lex.toLex_lt_toLex, OsTime.micros]
  omega

theorem timeout_key_lt_iff {a b : EloopTimeout} :
    a.key < b.key ↔ a.time.key < b.time.key ∨ a.time.key = b.time.key ∧ a.id < b.id := by
  simp [EloopTimeout.key, Prod.Lex.toLex_lt_toLex]

theorem insertTimeout_eq {t : EloopTimeout} {l : List EloopTimeout} (hl : ∀ b ∈ l, b.id < t.id) :
    insertTimeout t l = insertByKey EloopTimeout.key t l := by
  induction l with
  | nil => rfl
  | cons b l ih =>
    have hid := hl b List.mem_cons_self
    have hiff : t.time.before b.time = true ↔ t.key < b.key := by
      rw [before_iff, timeout_key_lt_iff]
      exact ⟨Or.inl, fun h => h.resolve_right fun h => absurd h.2 (by omega)⟩
    simp only [insertTimeout, insertByKey, List.orderedInsert_cons, hiff]
    split
    · rfl
    · exact congrArg (b :: ·) (ih fun c hc => hl c (List.mem_cons_of_mem b hc))

theorem cancelLoop_eq (handler eloopData userData : Ptr) (l : List EloopTimeout) :
    cancelLoop handler eloopData userData l =
      (l.countP (·.matches handler eloopData userData),
        l.filter fun t => !t.matches handler eloopData userData,
        l.filter (·.matches handler eloopData userData)) := by
  induction l with
  | nil => rfl
  | cons t l ih =>
    rw [cancelLoop, ih]
    by_cases h : t.matches handler eloopData userData = true <;> simp [h]

/-!
## The event loop: the timeouts

Every call into the event loop is one of three **moves** of its timeouts, or leaves them alone,
whatever handler makes it; a turn of the loop is moves, one look at the first timeout, and moves
(`pass_moves`, `step_moves`). **`TimersInv`** is the invariant that the moves and the look keep:
every registration is in exactly one place, the list is in order, and what was run was run in
order and not early. **`run_timersInv`**: it holds after every run.
-/

/-! ### What a call does to the timeouts -/

/-- The part of the event loop that is about timeouts. -/
structure Timers where
  now : OsTime
  timeout : List EloopTimeout
  registered : List EloopTimeout
  fired : List Fired
  cancelled : List EloopTimeout
  passes : ℕ

def EloopData.timers (s : EloopData) : Timers where
  now := s.now
  timeout := s.timeout
  registered := s.registered
  fired := s.fired
  cancelled := s.cancelled
  passes := s.passes

section Moves

variable {abi : DataModel}

inductive Move (abi : DataModel) : Timers → Timers → Prop
  | advance {v : Timers} (now : Reading abi) (h : v.now.key ≤ now.1.key) :
      Move abi v { v with now := now }
  | register {v : Timers} (t : EloopTimeout) (hid : t.id = v.registered.length)
      (hsince : t.since = v.now) (htime : dueTime abi v.now t.secs t.usecs = some t.time) :
      Move abi v { v with
        timeout := insertTimeout t v.timeout
        registered := v.registered ++ [t] }
  | cancel {v : Timers} (p : EloopTimeout → Bool) :
      Move abi v { v with
        timeout := v.timeout.filter fun t => !p t
        cancelled := v.cancelled ++ v.timeout.filter p }

abbrev Moves (abi : DataModel) : Timers → Timers → Prop := Relation.ReflTransGen (Move abi)

/-- The look at the first timeout: it is taken off the list when it is due. -/
def Timers.check (v : Timers) : Timers :=
  match v.timeout with
  | [] => { v with passes := v.passes + 1 }
  | t :: rest =>
    if v.now.before t.time then { v with passes := v.passes + 1 }
    else
      { v with
        passes := v.passes + 1
        timeout := rest
        fired := v.fired ++ [⟨t, v.now, v.registered.length⟩] }

theorem check_cases (v : Timers) :
    (v.check = { v with passes := v.passes + 1 } ∧
        ∀ t ∈ v.timeout.head?, v.now.before t.time = true) ∨
      ∃ t rest, v.timeout = t :: rest ∧ t.time.key ≤ v.now.key ∧ v.check =
        { v with
          passes := v.passes + 1
          timeout := rest
          fired := v.fired ++ [⟨t, v.now, v.registered.length⟩] } := by
  obtain ⟨now, timeout, registered, fired, cancelled, passes⟩ := v
  cases timeout with
  | nil => exact Or.inl ⟨rfl, by simp⟩
  | cons t rest =>
    by_cases hdue : now.before t.time = true
    · exact Or.inl ⟨by simp [Timers.check, hdue], by simpa using hdue⟩
    · rw [Bool.not_eq_true] at hdue
      exact Or.inr ⟨t, rest, rfl, before_eq_false_iff.mp hdue, by simp [Timers.check, hdue]⟩

theorem advance_moves (s : EloopData) (now : Reading abi) :
    Moves abi s.timers (advance s now).timers := by
  unfold advance
  split
  · exact .refl
  next h => exact .single (.advance now (before_eq_false_iff.mp (Bool.not_eq_true _ ▸ h)))

@[simp] theorem registerSock_timers (s : EloopData) (sock : ℤ) (type : EventType)
    (handler eloopData userData : Ptr) (ok : Bool) :
    (registerSock s sock type handler eloopData userData ok).2.timers = s.timers := by
  unfold registerSock
  split <;> rfl

@[simp] theorem unregisterSock_timers (s : EloopData) (sock : ℤ) (type : EventType) :
    (unregisterSock s sock type).timers = s.timers := by
  unfold unregisterSock
  split <;> rfl

theorem exec_moves (s : EloopData) (c : Call abi) : Moves abi s.timers (exec s c).timers := by
  cases c with
  | registerTimeout secs usecs handler eloopData userData ok =>
    simp only [exec, registerTimeout]
    split
    · split
      · exact .refl
      next time htime => exact .single (.register _ rfl rfl htime)
    · exact .refl
  | cancelTimeout handler eloopData userData =>
    simp only [exec, cancelTimeout, cancelLoop_eq]
    exact .single (.cancel fun t => t.matches handler eloopData userData)
  | registerSock sock type handler eloopData userData ok =>
    simp only [exec, registerSock_timers]
    exact .refl
  | unregisterSock sock type =>
    simp only [exec, unregisterSock_timers]
    exact .refl
  | handleSignal sig => exact .refl
  | terminate => exact .refl
  | advance now => exact advance_moves s now

variable (script : ℕ → List (Call abi))

theorem invoke_moves (s : EloopData) : Moves abi s.timers (invoke script s).timers := by
  have hfold : ∀ (l : List (Call abi)) (s : EloopData),
      Moves abi s.timers (l.foldl exec s).timers := by
    intro l
    induction l with
    | nil => exact fun s => .refl
    | cons c l ih => exact fun s => (exec_moves s c).trans (ih (exec s c))
  exact hfold _ { s with calls := s.calls + 1 }

theorem signalLoop_moves (n i : ℕ) (s : EloopData) :
    Moves abi s.timers (signalLoop script n i s).timers := by
  induction n generalizing i s with
  | zero => exact .refl
  | succ n ih =>
    unfold signalLoop
    split
    · have hinvoke := invoke_moves script
        { s with signals := s.signals.modify i fun e => { e with signaled := 0 } }
      exact hinvoke.trans (ih _ _)
    · exact ih _ _

theorem processPendingSignals_moves (s : EloopData) :
    Moves abi s.timers (processPendingSignals script s).timers := by
  unfold processPendingSignals
  split
  · exact .refl
  · exact signalLoop_moves script _ 0 { s with signaled := 0 }

theorem runTimeout_moves (s : EloopData) :
    Moves abi s.timers.check (runTimeout script s).timers := by
  cases hs : s.timeout with
  | nil =>
    have hcheck : s.timers.check = (runTimeout script s).timers := by
      simp only [runTimeout, takeTimeout, hs, Timers.check, EloopData.timers]
    rw [hcheck]
  | cons t rest =>
    by_cases h : s.now.before t.time = true
    · have hcheck : s.timers.check = (runTimeout script s).timers := by
        simp only [runTimeout, takeTimeout, hs, h, Timers.check, EloopData.timers, if_true]
      rw [hcheck]
    · rw [Bool.not_eq_true] at h
      have hcheck : s.timers.check =
          { s.timers with
            passes := s.passes + 1
            timeout := rest
            fired := s.fired ++ [⟨t, s.now, s.registered.length⟩] } := by
        simp [hs, h, Timers.check, EloopData.timers]
      rw [hcheck]
      simp only [runTimeout, takeTimeout, hs, h]
      exact invoke_moves script { s with
        passes := s.passes + 1
        timeout := rest
        fired := s.fired ++ [⟨t, s.now, s.registered.length⟩] }

theorem dispatchLoop_moves (type : EventType) (polled : List EloopSock) (fds : List ℤ) (n i : ℕ)
    (s : EloopData) :
    Moves abi s.timers (dispatchLoop script type polled fds n i s).timers := by
  induction n generalizing i s with
  | zero => exact .refl
  | succ n ih =>
    unfold dispatchLoop
    split
    · exact .refl
    next entry _ =>
      split
      · have hinvoke := invoke_moves script
          { s with invoked := s.invoked ++ [⟨type, polled, fds, (entry, s.unregistered)⟩] }
        simp only
        split
        · exact hinvoke
        · exact hinvoke.trans (ih _ _)
      · exact ih _ _

theorem dispatch_moves (type : EventType) (polled : List EloopSock) (fds : List ℤ)
    (s : EloopData) : Moves abi s.timers (dispatch script type polled fds s).timers :=
  dispatchLoop_moves script type polled fds (s.tables type).table.length 0
    { setTable s type ⟨(s.tables type).table, false⟩ with
      dispatches := s.dispatches ++ [⟨type, polled, fds, (s.tables type).table⟩] }

theorem await_moves (s : EloopData) (sel : Select abi) :
    Moves abi s.timers (await s sel).timers := by
  have hfold : ∀ (l : List ℤ) (s : EloopData), (l.foldl handleSignal s).timers = s.timers := by
    intro l
    induction l with
    | nil => exact fun s => rfl
    | cons sig l ih => exact fun s => ih (handleSignal s sig)
  rw [await, hfold]
  exact advance_moves s sel.now

theorem pass_moves {s s' : EloopData} {sel : Select abi} (h : pass script s sel = some s') :
    ∃ v, Moves abi s.timers v ∧ Moves abi v.check s'.timers := by
  unfold pass at h
  split at h
  · simp only at h
    split at h
    · cases h
    · refine ⟨_, (await_moves s sel).trans (processPendingSignals_moves script _), ?_⟩
      have hrun := runTimeout_moves script (processPendingSignals script (await s sel))
      split at h
      · cases h
        exact hrun
      · cases h
        exact ((hrun.trans (dispatch_moves script ..)).trans (dispatch_moves script ..)).trans
          (dispatch_moves script ..)
  · cases h

theorem step_moves (s : EloopData) (op : Op abi) :
    Moves abi s.timers (step script s op).timers ∨
      ∃ v, Moves abi s.timers v ∧ Moves abi v.check (step script s op).timers := by
  cases op with
  | call c => exact Or.inl (exec_moves s c)
  | registerSignal sig handler userData ok =>
    simp only [step, registerSignal]
    split <;> exact Or.inl .refl
  | pass sel =>
    simp only [step]
    cases hpass : pass script s sel with
    | none => exact Or.inl .refl
    | some s' => exact Or.inr (pass_moves script hpass)

end Moves

/-! ### The invariant -/

section Invariant

variable {abi : DataModel}

/-- The timeouts of an event loop: every registration is in exactly one place, the list is in
order, and nothing was run too early or out of order. -/
structure TimersInv (abi : DataModel) (v : Timers) : Prop where
  reading : v.now.IsReading abi
  since : ∀ t ∈ v.registered, t.since.IsReading abi ∧ t.since.key ≤ v.now.key
  due : ∀ t ∈ v.registered, dueTime abi t.since t.secs t.usecs = some t.time
  ids : v.registered.map EloopTimeout.id = List.range v.registered.length
  once : (v.timeout ++ v.fired.map Fired.timeout ++ v.cancelled).Perm v.registered
  sorted : v.timeout.Pairwise fun a b => a.key < b.key
  early : ∀ f ∈ v.fired, f.at_.IsReading abi ∧ f.timeout.time.key ≤ f.at_.key
  bound : ∀ f ∈ v.fired, f.registrations ≤ v.registered.length
  behind : ∀ f ∈ v.fired, ∀ t ∈ v.timeout, t.id < f.registrations → f.timeout.key < t.key
  order : v.fired.Pairwise fun f g =>
    g.timeout.id < f.registrations → f.timeout.key < g.timeout.key

theorem timersInv_init {now : OsTime} (h : now.IsReading abi) :
    TimersInv abi (init now).timers where
  reading := h
  since := by simp [init, EloopData.timers]
  due := by simp [init, EloopData.timers]
  ids := rfl
  once := .refl _
  sorted := .nil
  early := by simp [init, EloopData.timers]
  bound := by simp [init, EloopData.timers]
  behind := by simp [init, EloopData.timers]
  order := .nil

variable {v : Timers} {t : EloopTimeout}

theorem TimersInv.mem_registered (h : TimersInv abi v)
    (ht : t ∈ v.timeout) : t ∈ v.registered :=
  h.once.mem_iff.mp (List.mem_append_left _ (List.mem_append_left _ ht))

theorem TimersInv.id_lt (h : TimersInv abi v)
    (ht : t ∈ v.registered) : t.id < v.registered.length := by
  have hmem : t.id ∈ v.registered.map EloopTimeout.id := List.mem_map_of_mem ht
  rw [h.ids] at hmem
  exact List.mem_range.mp hmem

theorem TimersInv.advance (h : TimersInv abi v) (now : Reading abi)
    (hnow : v.now.key ≤ now.1.key) : TimersInv abi { v with now := now } :=
  { h with
    reading := now.2
    since := fun t ht => ⟨(h.since t ht).1, (h.since t ht).2.trans hnow⟩ }

theorem TimersInv.register (h : TimersInv abi v)
    (hid : t.id = v.registered.length) (hsince : t.since = v.now)
    (htime : dueTime abi v.now t.secs t.usecs = some t.time) :
    TimersInv abi { v with
      timeout := insertTimeout t v.timeout
      registered := v.registered ++ [t] } := by
  have hlt : ∀ b ∈ v.timeout, b.id < t.id := fun b hb => hid ▸ h.id_lt (h.mem_registered hb)
  have heq := insertTimeout_eq hlt
  have hnew : ∀ f ∈ v.fired, ¬ t.id < f.registrations := fun f hf => by
    have := h.bound f hf
    omega
  refine ⟨h.reading, ?since, ?due, ?ids, ?once, ?sorted, h.early, ?bound, ?behind, h.order⟩
  case since =>
    intro b hb
    rcases List.mem_append.mp hb with hb | hb
    · exact h.since b hb
    · rw [List.mem_singleton.mp hb, hsince]
      exact ⟨h.reading, le_refl _⟩
  case due =>
    intro b hb
    rcases List.mem_append.mp hb with hb | hb
    · exact h.due b hb
    · rw [List.mem_singleton.mp hb, hsince]
      exact htime
  case ids =>
    show (v.registered ++ [t]).map EloopTimeout.id = List.range (v.registered ++ [t]).length
    rw [List.map_append, h.ids, List.map_singleton, hid, List.length_append, List.length_singleton,
      List.range_succ]
  case once =>
    show (insertTimeout t v.timeout ++ v.fired.map Fired.timeout ++ v.cancelled).Perm _
    rw [heq, List.append_assoc]
    refine ((insertByKey_perm EloopTimeout.key t v.timeout).append_right _).trans ?_
    rw [List.cons_append, ← List.append_assoc]
    exact (h.once.cons t).trans (List.perm_append_singleton t _).symm
  case sorted =>
    show (insertTimeout t v.timeout).Pairwise _
    rw [heq]
    have hle : SortedBy EloopTimeout.key v.timeout := h.sorted.imp fun hab => hab.le
    have hne : (insertByKey EloopTimeout.key t v.timeout).Pairwise fun a b => a.id ≠ b.id := by
      refine (List.Perm.pairwise_iff (fun hab => Ne.symm hab)
        (insertByKey_perm EloopTimeout.key t v.timeout)).mpr ?_
      refine List.pairwise_cons.mpr ⟨fun b hb => (hlt b hb).ne', ?_⟩
      have hnodup : (v.timeout.map EloopTimeout.id).Nodup := by
        have hall := h.ids ▸ List.nodup_range
        have hperm := h.once.map EloopTimeout.id
        rw [List.append_assoc, List.map_append] at hperm
        exact (List.nodup_append.mp (hperm.nodup_iff.mpr hall)).1
      exact List.pairwise_map.mp hnodup
    refine ((hle.insertByKey t).and hne).imp fun {a b} hab => ?_
    exact lt_of_le_of_ne hab.1 fun hkey => hab.2 (congrArg (fun k => (ofLex k).2) hkey)
  case bound =>
    intro f hf
    have := h.bound f hf
    simp only [List.length_append, List.length_singleton]
    omega
  case behind =>
    intro f hf b hb
    change b ∈ insertTimeout t v.timeout at hb
    rw [heq] at hb
    rcases mem_insertByKey.mp hb with rfl | hb
    · exact fun hlt => absurd hlt (hnew f hf)
    · exact h.behind f hf b hb

theorem TimersInv.cancel (h : TimersInv abi v) (p : EloopTimeout → Bool) :
    TimersInv abi { v with
      timeout := v.timeout.filter fun t => !p t
      cancelled := v.cancelled ++ v.timeout.filter p } := by
  refine { h with
    once := ?_
    sorted := h.sorted.filter _
    behind := fun f hf t ht => h.behind f hf t (List.mem_of_mem_filter ht) }
  refine List.Perm.trans ?_ h.once
  have hsplit := List.filter_append_perm p v.timeout
  show (v.timeout.filter (fun t => !p t) ++ v.fired.map Fired.timeout ++
    (v.cancelled ++ v.timeout.filter p)).Perm _
  rw [← List.append_assoc]
  refine List.perm_append_comm.trans ?_
  rw [← List.append_assoc, ← List.append_assoc]
  exact (hsplit.append_right _).append_right _

theorem TimersInv.check (h : TimersInv abi v) : TimersInv abi v.check := by
  rcases check_cases v with ⟨heq, -⟩ | ⟨t, rest, hv, hdue, heq⟩ <;> rw [heq]
  · exact { h with }
  · have hsorted := h.sorted
    have honce := h.once
    rw [hv] at hsorted honce
    obtain ⟨hfirst, hrest⟩ := List.pairwise_cons.mp hsorted
    have ht : t ∈ v.timeout := by simp [hv]
    refine ⟨h.reading, h.since, h.due, h.ids, ?once, hrest, ?early, ?bound, ?behind, ?order⟩
    case once =>
      refine List.Perm.trans ?_ honce
      show (rest ++ (v.fired ++ [_]).map Fired.timeout ++ v.cancelled).Perm _
      rw [List.map_append, List.map_singleton, ← List.append_assoc, List.append_assoc (rest ++ _),
        List.cons_append, List.cons_append]
      exact List.perm_middle
    case early =>
      intro f hf
      rcases List.mem_append.mp hf with hf | hf
      · exact h.early f hf
      · rw [List.mem_singleton.mp hf]
        exact ⟨h.reading, hdue⟩
    case bound =>
      intro f hf
      rcases List.mem_append.mp hf with hf | hf
      · exact h.bound f hf
      · rw [List.mem_singleton.mp hf]
    case behind =>
      intro f hf b hb
      rcases List.mem_append.mp hf with hf | hf
      · exact h.behind f hf b (by simp only [hv]; exact List.mem_cons_of_mem t hb)
      · rw [List.mem_singleton.mp hf]
        exact fun _ => hfirst b hb
    case order =>
      refine List.pairwise_append.mpr ⟨h.order, List.pairwise_singleton _ _, ?_⟩
      intro f hf g hg
      rw [List.mem_singleton.mp hg]
      exact h.behind f hf t ht

theorem TimersInv.move {v v' : Timers} (h : TimersInv abi v) (hm : Move abi v v') :
    TimersInv abi v' := by
  cases hm with
  | advance now hnow => exact h.advance now hnow
  | register t hid hsince htime => exact h.register hid hsince htime
  | cancel p => exact h.cancel p

theorem TimersInv.moves {v v' : Timers} (h : TimersInv abi v) (hm : Moves abi v v') :
    TimersInv abi v' := by
  induction hm with
  | refl => exact h
  | tail _ hstep ih => exact ih.move hstep

theorem TimersInv.step (script : ℕ → List (Call abi)) {s : EloopData}
    (h : TimersInv abi s.timers) (op : Op abi) : TimersInv abi (step script s op).timers := by
  rcases step_moves script s op with hm | ⟨v, hm, hm'⟩
  · exact h.moves hm
  · exact (h.moves hm).check.moves hm'

theorem run_timersInv (script : ℕ → List (Call abi)) (now : Reading abi) (ops : List (Op abi)) :
    TimersInv abi (run (step script) (init now) ops).timers :=
  run_inv (I := fun s : EloopData => TimersInv abi s.timers) (fun _ op h => h.step script op)
    (timersInv_init now.2) ops

end Invariant

end Hostapd.Utils.Eloop
