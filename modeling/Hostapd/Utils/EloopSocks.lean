import Hostapd.Utils.Eloop
import Mathlib.Logic.Relation

/-!
# The event loop: its promise about sockets

`SocketsPromise` is what the loop promises of every call of a socket handler: its registration was
in the table when `select` was called in that turn, `select` reported its descriptor, and it has
not been unregistered since. What `select` reported is kept by descriptor number, and the
`changed` flag of a table is cleared when its dispatch starts, so a handler that ran between the
two can put another registration under a reported descriptor.

* **`SockMove`**: what a call does to the tables; `changed_or_same`: a table is as it was unless
  its flag is set.
* **`SocketsInv`**: the registrations are told apart by their numbers, and every handler call was
  made by a dispatch for a registration of the table it started on.
* **`run_sockets`**: a run keeps the promise when every dispatch starts on a clean table, one in
  which only registrations that were polled stand under a reported descriptor; and that is the
  weakest condition on the table, for on another one the dispatch breaks the promise if its
  handlers leave the table alone.
-/

namespace Hostapd.Utils.Eloop

open Hostapd.Lib

/-! ## What a call does to the tables -/

/-- The part of the event loop that is about sockets. -/
structure Sockets where
  tables : EventType → SockTable
  socks : ℕ
  unregistered : List EloopSock
  dispatches : List (Dispatch (List EloopSock))
  invoked : List (Dispatch (EloopSock × List EloopSock))

def EloopData.sockets (s : EloopData) : Sockets where
  tables := s.tables
  socks := s.socks
  unregistered := s.unregistered
  dispatches := s.dispatches
  invoked := s.invoked

/-- What a call can do to the tables: append a registration with the next number to one, or
remove one of its registrations. Either sets the flag of the table. -/
inductive SockMove : Sockets → Sockets → Prop
  | register {v : Sockets} (type : EventType) (e : EloopSock) (hid : e.id = v.socks) :
      SockMove v { v with
        tables := Function.update v.tables type ⟨(v.tables type).table ++ [e], true⟩
        socks := v.socks + 1 }
  | unregister {v : Sockets} (type : EventType) (e : EloopSock) (l₁ l₂ : List EloopSock)
      (hsplit : (v.tables type).table = l₁ ++ e :: l₂) :
      SockMove v { v with
        tables := Function.update v.tables type ⟨l₁ ++ l₂, true⟩
        unregistered := v.unregistered ++ [e] }

abbrev SockMoves : Sockets → Sockets → Prop := Relation.ReflTransGen SockMove

section Moves

variable {abi : DataModel}

theorem registerSock_moves (s : EloopData) (sock : ℤ) (type : EventType)
    (handler eloopData userData : Ptr) (ok : Bool) :
    SockMoves s.sockets (registerSock s sock type handler eloopData userData ok).2.sockets := by
  unfold registerSock
  split
  · exact .single (.register type _ rfl)
  · exact .refl

theorem unregisterSock_moves (s : EloopData) (sock : ℤ) (type : EventType) :
    SockMoves s.sockets (unregisterSock s sock type).sockets := by
  unfold unregisterSock
  split
  · exact .refl
  next e hfind =>
    obtain ⟨hsock, l₁, l₂, hsplit, hbefore⟩ := List.find?_eq_some_iff_append.mp hfind
    have herase : ((s.tables type).table.eraseP fun e => e.sock = sock) = l₁ ++ l₂ := by
      rw [hsplit, List.eraseP_append_right _ fun b hb => by simpa using hbefore b hb]
      simp [of_decide_eq_true hsock]
    rw [herase]
    exact .single (.unregister type e l₁ l₂ hsplit)

theorem exec_sockMoves (s : EloopData) (c : Call abi) :
    SockMoves s.sockets (exec s c).sockets := by
  cases c with
  | registerTimeout secs usecs handler eloopData userData ok =>
    simp only [exec, registerTimeout]
    split
    · split <;> exact .refl
    · exact .refl
  | cancelTimeout handler eloopData userData => exact .refl
  | registerSock sock type handler eloopData userData ok =>
    exact registerSock_moves s sock type handler eloopData userData ok
  | unregisterSock sock type => exact unregisterSock_moves s sock type
  | handleSignal sig => exact .refl
  | terminate => exact .refl
  | advance now =>
    simp only [exec, advance]
    split <;> exact .refl

variable (script : ℕ → List (Call abi))

theorem invoke_sockMoves (s : EloopData) : SockMoves s.sockets (invoke script s).sockets := by
  have hfold : ∀ (l : List (Call abi)) (s : EloopData),
      SockMoves s.sockets (l.foldl exec s).sockets := by
    intro l
    induction l with
    | nil => exact fun s => .refl
    | cons c l ih => exact fun s => (exec_sockMoves s c).trans (ih (exec s c))
  exact hfold _ { s with calls := s.calls + 1 }

theorem signalLoop_sockMoves (n i : ℕ) (s : EloopData) :
    SockMoves s.sockets (signalLoop script n i s).sockets := by
  induction n generalizing i s with
  | zero => exact .refl
  | succ n ih =>
    unfold signalLoop
    split
    · have hinvoke := invoke_sockMoves script
        { s with signals := s.signals.modify i fun e => { e with signaled := 0 } }
      exact hinvoke.trans (ih _ _)
    · exact ih _ _

theorem processPendingSignals_sockMoves (s : EloopData) :
    SockMoves s.sockets (processPendingSignals script s).sockets := by
  unfold processPendingSignals
  split
  · exact .refl
  · exact signalLoop_sockMoves script _ 0 { s with signaled := 0 }

theorem runTimeout_sockMoves (s : EloopData) :
    SockMoves s.sockets (runTimeout script s).sockets := by
  unfold runTimeout takeTimeout
  simp only
  cases s.timeout with
  | nil => exact .refl
  | cons t rest =>
    by_cases h : s.now.before t.time = true
    · simp only [h, if_true]
      exact .refl
    · simp only [h]
      exact invoke_sockMoves script { s with
        passes := s.passes + 1
        timeout := rest
        fired := s.fired ++ [⟨t, s.now, s.registered.length⟩] }

@[simp] theorem await_sockets (s : EloopData) (sel : Select abi) :
    (await s sel).sockets = s.sockets := by
  have hfold : ∀ (l : List ℤ) (s : EloopData), (l.foldl handleSignal s).sockets = s.sockets := by
    intro l
    induction l with
    | nil => exact fun s => rfl
    | cons sig l ih => exact fun s => ih (handleSignal s sig)
  rw [await, hfold, advance]
  split <;> rfl

theorem SockMoves.record {v v' : Sockets} (h : SockMoves v v') :
    v'.dispatches = v.dispatches ∧ v'.invoked = v.invoked := by
  induction h with
  | refl => exact ⟨rfl, rfl⟩
  | tail _ hstep ih =>
    cases hstep with
    | register type e hid => exact ih
    | unregister type e l₁ l₂ hsplit => exact ih

theorem changed_or_same {v v' : Sockets} (h : SockMoves v v') (type : EventType) :
    (v'.tables type).changed = true ∨ v'.tables type = v.tables type := by
  induction h with
  | refl => exact Or.inr rfl
  | tail _ hstep ih =>
    cases hstep with
    | register type' e hid =>
      by_cases htype : type = type'
      · subst htype
        exact Or.inl (by simp)
      · simpa [Function.update_of_ne htype] using ih
    | unregister type' e l₁ l₂ hsplit =>
      by_cases htype : type = type'
      · subst htype
        exact Or.inl (by simp)
      · simpa [Function.update_of_ne htype] using ih

end Moves

/-! ## The invariant -/

/-- The registrations are told apart by their numbers: those in the tables by each other, and by
those that are gone. -/
structure Numbered (v : Sockets) : Prop where
  lt : ∀ type, ∀ e ∈ (v.tables type).table, e.id < v.socks
  gone_lt : ∀ e ∈ v.unregistered, e.id < v.socks
  nodup : ∀ type, ((v.tables type).table.map EloopSock.id).Nodup
  apart : ∀ type type', type ≠ type' → ∀ e ∈ (v.tables type).table,
    ∀ e' ∈ (v.tables type').table, e.id ≠ e'.id
  live : ∀ type, ∀ e ∈ (v.tables type).table, ∀ u ∈ v.unregistered, e.id ≠ u.id

variable {v v' : Sockets}

theorem Numbered.of_tables (h : Numbered v)
    (htable : ∀ type, (v'.tables type).table = (v.tables type).table)
    (hsocks : v'.socks = v.socks) (hgone : v'.unregistered = v.unregistered) : Numbered v' := by
  constructor
  case lt => exact fun type e he => hsocks ▸ h.lt type e (htable type ▸ he)
  case gone_lt => exact fun u hu => hsocks ▸ h.gone_lt u (hgone ▸ hu)
  case nodup => exact fun type => (htable type).symm ▸ h.nodup type
  case apart =>
    exact fun type type' hne e he e' he' =>
      h.apart type type' hne e (htable type ▸ he) e' (htable type' ▸ he')
  case live => exact fun type e he u hu => h.live type e (htable type ▸ he) u (hgone ▸ hu)

theorem Numbered.register {v : Sockets} (h : Numbered v) (type : EventType) {e : EloopSock}
    (hid : e.id = v.socks) :
    Numbered { v with
      tables := Function.update v.tables type ⟨(v.tables type).table ++ [e], true⟩
      socks := v.socks + 1 } := by
  have hmem : ∀ type' b, b ∈ (Function.update v.tables type
      ⟨(v.tables type).table ++ [e], true⟩ type').table →
      b ∈ (v.tables type').table ∨ type' = type ∧ b = e := by
    intro type' b hb
    by_cases htype : type' = type
    · subst htype
      simpa using hb
    · rw [Function.update_of_ne htype] at hb
      exact Or.inl hb
  constructor
  case lt =>
    intro type' b hb
    rcases hmem type' b hb with hb | ⟨-, rfl⟩
    · exact (h.lt type' b hb).trans (Nat.lt_succ_self _)
    · exact hid ▸ Nat.lt_succ_self _
  case gone_lt => exact fun u hu => (h.gone_lt u hu).trans (Nat.lt_succ_self _)
  case nodup =>
    intro type'
    by_cases htype : type' = type
    · subst htype
      simp only [Function.update_self, List.map_append, List.map_singleton]
      refine List.nodup_append.mpr ⟨h.nodup type', List.nodup_singleton _, ?_⟩
      intro a ha b hb hab
      obtain ⟨c, hc, rfl⟩ := List.mem_map.mp ha
      have := h.lt type' c hc
      rw [List.mem_singleton.mp hb] at hab
      omega
    · simp only [Function.update_of_ne htype]
      exact h.nodup type'
  case apart =>
    intro type₁ type₂ hne b hb c hc
    rcases hmem type₁ b hb with hb' | ⟨htype₁, rfl⟩ <;>
      rcases hmem type₂ c hc with hc' | ⟨htype₂, rfl⟩
    · exact h.apart type₁ type₂ hne b hb' c hc'
    · have := h.lt type₁ b hb'
      omega
    · have := h.lt type₂ c hc'
      omega
    · exact absurd (htype₁.trans htype₂.symm) hne
  case live =>
    intro type' b hb u hu
    rcases hmem type' b hb with hb | ⟨-, rfl⟩
    · exact h.live type' b hb u hu
    · have := h.gone_lt u hu
      omega

theorem Numbered.unregister {v : Sockets} (h : Numbered v) {type : EventType} {e : EloopSock}
    {l₁ l₂ : List EloopSock} (hsplit : (v.tables type).table = l₁ ++ e :: l₂) :
    Numbered { v with
      tables := Function.update v.tables type ⟨l₁ ++ l₂, true⟩
      unregistered := v.unregistered ++ [e] } := by
  have he : e ∈ (v.tables type).table := by simp [hsplit]
  have hsub : ∀ type', (Function.update v.tables type ⟨l₁ ++ l₂, true⟩ type').table.Sublist
      (v.tables type').table := by
    intro type'
    by_cases htype : type' = type
    · subst htype
      simp [hsplit]
    · rw [Function.update_of_ne htype]
  have hmem : ∀ type' b, b ∈ (Function.update v.tables type ⟨l₁ ++ l₂, true⟩ type').table →
      b ∈ (v.tables type').table := fun type' b hb => (hsub type').subset hb
  have hne : ∀ type' b, b ∈ (Function.update v.tables type ⟨l₁ ++ l₂, true⟩ type').table →
      b.id ≠ e.id := by
    intro type' b hb
    by_cases htype : type' = type
    · subst htype
      have hnodup := h.nodup type'
      rw [hsplit, List.map_append, List.map_cons] at hnodup
      have hnot := (List.nodup_middle.mp hnodup)
      simp only [Function.update_self] at hb
      intro heq
      refine (List.nodup_cons.mp hnot).1 ?_
      rw [← List.map_append, ← heq]
      exact List.mem_map_of_mem hb
    · rw [Function.update_of_ne htype] at hb
      exact h.apart type' type htype b hb e he
  constructor
  case lt => exact fun type' b hb => h.lt type' b (hmem type' b hb)
  case gone_lt =>
    intro u hu
    rcases List.mem_append.mp hu with hu | hu
    · exact h.gone_lt u hu
    · rw [List.mem_singleton.mp hu]
      exact h.lt type e he
  case nodup => exact fun type' => (h.nodup type').sublist ((hsub type').map _)
  case apart =>
    exact fun type₁ type₂ htype b hb c hc =>
      h.apart type₁ type₂ htype b (hmem type₁ b hb) c (hmem type₂ c hc)
  case live =>
    intro type' b hb u hu
    rcases List.mem_append.mp hu with hu | hu
    · exact h.live type' b (hmem type' b hb) u hu
    · rw [List.mem_singleton.mp hu]
      exact hne type' b hb

theorem Numbered.moves (h : Numbered v) (hm : SockMoves v v') : Numbered v' := by
  induction hm with
  | refl => exact h
  | tail _ hstep ih =>
    cases hstep with
    | register type e hid => exact ih.register type hid
    | unregister type e l₁ l₂ hsplit => exact ih.unregister hsplit

/-- A call of a socket handler was made by a dispatch that is on record, for a registration of the
table it started on whose descriptor was reported and that had not been unregistered. -/
structure MadeBy (dispatches : List (Dispatch (List EloopSock)))
    (i : Dispatch (EloopSock × List EloopSock)) : Prop where
  dispatch : ∃ table, ⟨i.type, i.polled, i.reported, table⟩ ∈ dispatches ∧ i.about.1 ∈ table
  reported : i.about.1.sock ∈ i.reported
  live : ∀ u ∈ i.about.2, i.about.1.id ≠ u.id

/-- The sockets of an event loop and the record of its dispatches. -/
structure SocketsInv (v : Sockets) : Prop where
  numbered : Numbered v
  made : ∀ i ∈ v.invoked, MadeBy v.dispatches i

theorem SocketsInv.moves (h : SocketsInv v) (hm : SockMoves v v') :
    SocketsInv v' := by
  obtain ⟨hdispatches, hinvoked⟩ := hm.record
  refine ⟨h.numbered.moves hm, ?_⟩
  rw [hdispatches, hinvoked]
  exact h.made

section Dispatch

variable {abi : DataModel} (script : ℕ → List (Call abi))

/-- The state in which a dispatch calls the handler of a socket. -/
abbrev recordCall (type : EventType) (polled : List EloopSock) (fds : List ℤ) (e : EloopSock)
    (s : EloopData) : EloopData :=
  { s with invoked := s.invoked ++ [⟨type, polled, fds, (e, s.unregistered)⟩] }

variable {type : EventType} {polled : List EloopSock} {fds : List ℤ} {s : EloopData}

theorem SocketsInv.dispatchLoop
    {table : List EloopSock} (n i : ℕ) (h : SocketsInv s.sockets)
    (hon : ⟨type, polled, fds, table⟩ ∈ s.dispatches) (htable : s.tables type = ⟨table, false⟩) :
    SocketsInv (dispatchLoop script type polled fds n i s).sockets := by
  induction n generalizing i s with
  | zero => exact h
  | succ n ih =>
    unfold Eloop.dispatchLoop
    split
    · exact h
    next e he =>
      split
      next hfd =>
        have hmem : e ∈ (s.tables type).table := List.mem_of_getElem? he
        have hrecord : SocketsInv (recordCall type polled fds e s).sockets := by
          refine ⟨h.numbered.of_tables (fun _ => rfl) rfl rfl, fun i hi => ?_⟩
          rcases List.mem_append.mp hi with hi' | hi'
          · exact h.made i hi'
          · rw [List.mem_singleton.mp hi']
            refine ⟨⟨table, hon, ?_⟩, hfd, h.numbered.live type e hmem⟩
            rw [htable] at hmem
            exact hmem
        have hmoves := invoke_sockMoves script (recordCall type polled fds e s)
        change SocketsInv (EloopData.sockets (if ((invoke script
          (recordCall type polled fds e s)).tables type).changed then _ else _))
        split
        · exact hrecord.moves hmoves
        next hsame =>
          refine ih (i + 1) (hrecord.moves hmoves) ?_ ?_
          · have hdispatches := hmoves.record.1
            change (invoke script (recordCall type polled fds e s)).dispatches = s.dispatches
              at hdispatches
            rw [hdispatches]
            exact hon
          · exact ((changed_or_same hmoves type).resolve_left hsame).trans htable
      · exact ih (i + 1) h hon htable

/-- The state in which a dispatch starts its loop. -/
abbrev startDispatch (type : EventType) (polled : List EloopSock) (fds : List ℤ)
    (s : EloopData) : EloopData :=
  { setTable s type ⟨(s.tables type).table, false⟩ with
    dispatches := s.dispatches ++ [⟨type, polled, fds, (s.tables type).table⟩] }

theorem SocketsInv.dispatch (type : EventType) (polled : List EloopSock) (fds : List ℤ)
    (h : SocketsInv s.sockets) :
    SocketsInv (dispatch script type polled fds s).sockets := by
  have htable : ∀ type', ((startDispatch type polled fds s).tables type').table =
      (s.tables type').table := by
    intro type'
    by_cases htype : type' = type
    · subst htype
      simp [setTable]
    · simp [setTable, Function.update_of_ne htype]
  have hstart : SocketsInv (startDispatch type polled fds s).sockets := by
    refine ⟨h.numbered.of_tables htable rfl rfl, fun i hi => ?_⟩
    obtain ⟨⟨table, hon, hmem⟩, hreported, hlive⟩ := h.made i hi
    exact ⟨⟨table, List.mem_append_left _ hon, hmem⟩, hreported, hlive⟩
  exact hstart.dispatchLoop script _ 0 (List.mem_append_right _ (List.mem_singleton_self _))
    (by simp [setTable])

/-! ## Runs -/

theorem SocketsInv.pass {s s' : EloopData} (h : SocketsInv s.sockets) {sel : Select abi}
    (hpass : pass script s sel = some s') : SocketsInv s'.sockets := by
  have hwait : SocketsInv (runTimeout script (processPendingSignals script
      (await s sel))).sockets := by
    refine SocketsInv.moves ?_ ((processPendingSignals_sockMoves script _).trans
      (runTimeout_sockMoves script _))
    rw [await_sockets]
    exact h
  unfold Eloop.pass at hpass
  split at hpass
  · simp only at hpass
    split at hpass
    · cases hpass
    · split at hpass
      · cases hpass
        exact hwait
      · cases hpass
        exact ((hwait.dispatch script _ _ _).dispatch script _ _ _).dispatch script _ _ _
  · cases hpass

theorem SocketsInv.step (h : SocketsInv s.sockets) (op : Op abi) :
    SocketsInv (step script s op).sockets := by
  cases op with
  | call c => exact h.moves (exec_sockMoves s c)
  | registerSignal sig handler userData ok =>
    simp only [Eloop.step, registerSignal]
    split <;> exact h
  | pass sel =>
    simp only [Eloop.step]
    cases hpass : Eloop.pass script s sel with
    | none => exact h
    | some s' => exact h.pass script hpass

theorem run_socketsInv (now : OsTime) (ops : List (Op abi)) :
    SocketsInv (run (step script) (init now) ops).sockets := by
  refine run_inv (I := fun s : EloopData => SocketsInv s.sockets) (fun s op h => h.step script op)
    ?_ ops
  constructor
  case numbered => constructor <;> simp [EloopData.sockets, init]
  case made => simp [EloopData.sockets, init]

/-- **Every handler called is registered**: though handlers register and unregister sockets while
the tables are walked, none is called for a registration that is gone. -/
theorem run_handlers (now : OsTime) (ops : List (Op abi)) :
    ∀ i ∈ (run (step script) (init now) ops).invoked,
      MadeBy (run (step script) (init now) ops).dispatches i :=
  (run_socketsInv script now ops).made

/-- Every dispatch started on a clean table: only registrations that were polled stand under the
descriptors that `select` reported. -/
def Clean (s : EloopData) : Prop :=
  ∀ d ∈ s.dispatches, ∀ e ∈ d.about, e.sock ∈ d.reported → e ∈ d.polled

instance (s : EloopData) : Decidable (Clean s) :=
  inferInstanceAs (Decidable (∀ d ∈ s.dispatches, ∀ e ∈ d.about, e.sock ∈ d.reported → e ∈ d.polled))

/-- What the loop promises of the calls of socket handlers: the registration was in the table at
the call of `select` of that turn, `select` reported its descriptor, and it is not among those
unregistered before the call. -/
def SocketsPromise (s : EloopData) : Prop :=
  ∀ i ∈ s.invoked, i.about.1 ∈ i.polled ∧ i.about.1.sock ∈ i.reported ∧
    ∀ u ∈ i.about.2, i.about.1.id ≠ u.id

instance (s : EloopData) : Decidable (SocketsPromise s) :=
  inferInstanceAs (Decidable (∀ i ∈ s.invoked, _ ∧ _ ∧ _))

theorem SocketsInv.promise (h : SocketsInv s.sockets) (hclean : Clean s) :
    SocketsPromise s := by
  intro i hi
  obtain ⟨⟨table, hon, hmem⟩, hreported, hlive⟩ := h.made i hi
  exact ⟨hclean _ hon _ hmem hreported, hreported, hlive⟩

theorem mem_dispatchLoop
    {c : Dispatch (EloopSock × List EloopSock)} (n i : ℕ) (hc : c ∈ s.invoked) :
    c ∈ (dispatchLoop script type polled fds n i s).invoked := by
  induction n generalizing i s with
  | zero => exact hc
  | succ n ih =>
    unfold Eloop.dispatchLoop
    split
    · exact hc
    next e he =>
      split
      · have hcall : c ∈ (invoke script (recordCall type polled fds e s)).invoked := by
          have hinvoked := (invoke_sockMoves script (recordCall type polled fds e s)).record.2
          change (invoke script (recordCall type polled fds e s)).invoked = _ at hinvoked
          rw [hinvoked]
          exact List.mem_append_left _ hc
        change c ∈ (if ((invoke script (recordCall type polled fds e s)).tables type).changed
          then invoke script (recordCall type polled fds e s) else _).invoked
        split
        · exact hcall
        · exact ih (i + 1) hcall
      · exact ih (i + 1) hc

theorem dispatchLoop_calls
    {e : EloopSock} (hfd : e.sock ∈ fds) (n i : ℕ)
    (hquiet : ∀ k, s.calls ≤ k → script k = []) (hsame : (s.tables type).changed = false)
    {j : ℕ} (hij : i ≤ j) (hj : j < i + n) (he : (s.tables type).table[j]? = some e) :
    ∃ c ∈ (dispatchLoop script type polled fds n i s).invoked,
      c.polled = polled ∧ c.about.1 = e := by
  induction n generalizing i s with
  | zero => omega
  | succ n ih =>
    unfold Eloop.dispatchLoop
    split
    next hnone =>
      have hlen := List.getElem?_eq_none_iff.mp hnone
      have := (List.getElem?_eq_some_iff.mp he).1
      omega
    next b hb =>
      have hcalls : invoke script (recordCall type polled fds b s) =
          { recordCall type polled fds b s with calls := s.calls + 1 } := by
        simp only [invoke, hquiet s.calls le_rfl, List.foldl_nil]
      simp only [hcalls]
      split
      · simp only [hsame, Bool.false_eq_true, if_false]
        by_cases hlast : i = j
        · subst hlast
          obtain rfl : b = e := Option.some.inj (hb.symm.trans he)
          exact ⟨_, mem_dispatchLoop script n (i + 1)
            (List.mem_append_right _ (List.mem_singleton_self _)), rfl, rfl⟩
        · exact ih (i + 1) (fun k hk => hquiet k (Nat.le_of_succ_le hk)) hsame (by omega)
            (by omega) he
      next hnot =>
        have hlast : i ≠ j := by
          rintro rfl
          obtain rfl : b = e := Option.some.inj (hb.symm.trans he)
          exact hnot hfd
        exact ih (i + 1) hquiet hsame (by omega) (by omega) he

/-- On a table that is not clean, a dispatch breaks the promise unless a handler changes the
table. -/
theorem dispatch_breaks
    (hquiet : ∀ k, s.calls ≤ k → script k = []) {e : EloopSock}
    (he : e ∈ (s.tables type).table) (hfd : e.sock ∈ fds) (hnew : e ∉ polled) :
    ¬ SocketsPromise (dispatch script type polled fds s) := by
  obtain ⟨j, hj, hget⟩ := List.getElem_of_mem he
  have hcall : ∃ c ∈ (dispatch script type polled fds s).invoked,
      c.polled = polled ∧ c.about.1 = e := by
    refine dispatchLoop_calls script hfd _ 0 (s := startDispatch type polled fds s) hquiet
      (by simp [setTable]) (Nat.zero_le j) (by simpa using hj) ?_
    simp [setTable, List.getElem?_eq_getElem hj, hget]
  obtain ⟨c, hc, hpolled, habout⟩ := hcall
  intro hpromise
  refine hnew ?_
  rw [← hpolled, ← habout]
  exact (hpromise c hc).1

/-- Source: `eloop_run`. In every run whose dispatches all start on clean tables, the promise
holds; and a dispatch on a table that is not clean breaks it, unless a handler changes the table
again. -/
theorem run_sockets (now : OsTime) (ops : List (Op abi)) :
    (Clean (run (step script) (init now) ops) →
      SocketsPromise (run (step script) (init now) ops)) ∧
    ∀ (type : EventType) (polled : List EloopSock) (fds : List ℤ),
      let s := run (step script) (init now) ops
      (∀ k, s.calls ≤ k → script k = []) →
      (∃ e ∈ (s.tables type).table, e.sock ∈ fds ∧ e ∉ polled) →
      ¬ SocketsPromise (dispatch script type polled fds s) := by
  refine ⟨(run_socketsInv script now ops).promise, ?_⟩
  rintro type polled fds s hquiet ⟨e, he, hfd, hnew⟩
  exact dispatch_breaks script hquiet he hfd hnew

end Dispatch

/-! ## A socket that was never polled -/

def midnight : Reading .lp64 := ⟨⟨0, 0⟩, by decide⟩

/-- A socket is registered for reading and a handler for a signal; in the first turn the signal
arrives, and the descriptor is ready. -/
def signalledTurn : List (Op .lp64) :=
  [.call (.registerSock 5 .read 100 0 0 true),
   .registerSignal 15 200 0 true,
   .pass ⟨midnight, [15], 1, false, fun type => if type = .read then [5] else []⟩]

/-- The signal handler, called first, closes the socket and opens another one, which gets the same
descriptor. -/
def reopen : ℕ → List (Call .lp64)
  | 0 => [.unregisterSock 5 .read, .registerSock 5 .read 101 0 0 true]
  | _ => []

/-- The handler of the new socket is called in the turn whose `select` saw the old one. -/
theorem reopened_socket_called :
    ¬ SocketsPromise (run (step reopen) (init ⟨0, 0⟩) signalledTurn) := by
  decide

theorem run_handlers_reopened :
    ∃ i ∈ (run (step reopen) (init ⟨0, 0⟩) signalledTurn).invoked,
      MadeBy (run (step reopen) (init ⟨0, 0⟩) signalledTurn).dispatches i :=
  (List.exists_mem_of_ne_nil _ (by decide)).imp fun _ h => ⟨h, run_handlers reopen _ _ _ h⟩

def idle : ℕ → List (Call .lp64) := fun _ => []

theorem run_sockets_signalled :
    SocketsPromise (run (step idle) (init ⟨0, 0⟩) signalledTurn) ∧
    (run (step idle) (init ⟨0, 0⟩) signalledTurn).invoked.length = 1 ∧
    ¬ SocketsPromise (dispatch idle .read [] [5]
      (run (step idle) (init ⟨0, 0⟩) signalledTurn)) := by
  refine ⟨(run_sockets idle ⟨0, 0⟩ signalledTurn).1 (by decide), by decide, ?_⟩
  exact (run_sockets idle ⟨0, 0⟩ signalledTurn).2 .read [] [5] (fun _ _ => rfl) (by decide)

end Hostapd.Utils.Eloop
