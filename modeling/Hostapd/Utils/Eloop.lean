import Hostapd.Lib.KeyOrder
import Hostapd.Lib.Run
import Mathlib.Algebra.Group.Int.Defs
import Mathlib.Algebra.Group.Nat.Defs
import Mathlib.Data.Prod.Lex

/-!
# The event loop

`eloop.c`: timeouts in a list ordered by time, three tables of sockets, signals, and the loop that
waits in `select` and hands out the work.

* **Time** is `struct os_time`, two `long`s, so its sums wrap at the width of the target
  (`DataModel`); the clock is a field of the state that never goes back.
* **The loop**: `pass` is one turn of `eloop_run`. A handler is any list of calls back into the
  event loop; the `k`-th handler call of a run makes the calls `script k`.
* **The record** of a run stands beside the data of the source and no function reads it: which
  timeouts were registered, run and cancelled, and which socket handlers were called.
-/

namespace Hostapd.Utils.Eloop

open Hostapd.Lib

/-! ## Time -/

/-- The width of `long` on the target. -/
inductive DataModel
  | ilp32 | lp64
  deriving DecidableEq

/-- The number of bits of a `long`. -/
def DataModel.longBits : DataModel → ℕ
  | .ilp32 => 32
  | .lp64 => 64

/-- The first number that a `long` is too small for. -/
def DataModel.longEnd (abi : DataModel) : ℤ := 2 ^ (abi.longBits - 1)

/-- A sum as a `long` holds it. -/
def DataModel.wrap (abi : DataModel) (x : ℤ) : ℤ := x.bmod (2 ^ abi.longBits)

/-- Source: `os.h`, `struct os_time`. -/
structure OsTime where
  sec : ℤ
  usec : ℤ
  deriving DecidableEq

/-- Source: `os.h`, `os_time_before`. -/
def OsTime.before (a b : OsTime) : Bool :=
  a.sec < b.sec || (a.sec = b.sec && a.usec < b.usec)

/-- What `os_get_time` can return. -/
def OsTime.IsReading (abi : DataModel) (t : OsTime) : Prop :=
  -abi.longEnd ≤ t.sec ∧ t.sec < abi.longEnd ∧ 0 ≤ t.usec ∧ t.usec < 1000000

instance (abi : DataModel) (t : OsTime) : Decidable (t.IsReading abi) :=
  inferInstanceAs (Decidable (_ ∧ _ ∧ _ ∧ _))

abbrev Reading (abi : DataModel) := { t : OsTime // t.IsReading abi }

/-- The carry loop of `eloop_register_timeout`. -/
def carryLoop (abi : DataModel) (sec usec : ℤ) : OsTime :=
  if 1000000 ≤ usec then carryLoop abi (abi.wrap (sec + 1)) (usec - 1000000) else ⟨sec, usec⟩
  termination_by usec.toNat

/-- The time at which a timeout is due; `none` when the seconds overflow, which is taken for
never. Source: `eloop_register_timeout`. -/
def dueTime (abi : DataModel) (now : OsTime) (secs usecs : UInt32) : Option OsTime :=
  let sec := abi.wrap (now.sec + secs.toNat)
  if sec < now.sec then none
  else some (carryLoop abi sec (abi.wrap (now.usec + usecs.toNat)))

/-! ## The data -/

abbrev Ptr := ℤ

/-- Source: `eloop.h`, `ELOOP_ALL_CTX`. -/
def eloopAllCtx : Ptr := -1

/-- A timeout. `id`, `since`, `secs` and `usecs` record its registration: its number, the clock
and the two arguments. Source: `eloop.c`, `struct eloop_timeout`. -/
structure EloopTimeout where
  time : OsTime
  eloopData : Ptr
  userData : Ptr
  handler : Ptr
  id : ℕ
  since : OsTime
  secs : UInt32
  usecs : UInt32
  deriving DecidableEq

/-- Source: `eloop.h`, `eloop_event_type`. -/
inductive EventType
  | read | write | exception
  deriving DecidableEq

/-- A registered socket. `id` records the number of the registration.
Source: `eloop.c`, `struct eloop_sock`. -/
structure EloopSock where
  sock : ℤ
  eloopData : Ptr
  userData : Ptr
  handler : Ptr
  id : ℕ
  deriving DecidableEq

/-- Source: `eloop.c`, `struct eloop_sock_table`; `count` is the length of the table. -/
structure SockTable where
  table : List EloopSock
  changed : Bool

/-- Source: `eloop.c`, `struct eloop_signal`. -/
structure EloopSignal where
  sig : ℤ
  userData : Ptr
  handler : Ptr
  signaled : ℕ

/-- The record of a timeout that was run: the clock, and how many timeouts had been registered. -/
structure Fired where
  timeout : EloopTimeout
  at_ : OsTime
  registrations : ℕ

/-- The record of a dispatch or of a call of a socket handler in it: the table at the call of
`select`, what `select` reported, and the table or the socket it is about. -/
structure Dispatch (α : Type) where
  type : EventType
  polled : List EloopSock
  reported : List ℤ
  about : α

/-- The event loop with the clock and the record of the run.
Source: `eloop.c`, `struct eloop_data`. -/
structure EloopData where
  maxSock : ℤ
  tables : EventType → SockTable
  timeout : List EloopTimeout
  signals : List EloopSignal
  signaled : ℕ
  terminate : Bool
  now : OsTime
  /-- The timeouts registered so far. -/
  registered : List EloopTimeout
  /-- The timeouts run so far. -/
  fired : List Fired
  /-- The timeouts cancelled so far. -/
  cancelled : List EloopTimeout
  /-- How often the loop has looked at its first timeout. -/
  passes : ℕ
  /-- The number of socket registrations so far. -/
  socks : ℕ
  /-- The sockets unregistered so far. -/
  unregistered : List EloopSock
  /-- The dispatches so far, with the table each one started on. -/
  dispatches : List (Dispatch (List EloopSock))
  /-- The calls of socket handlers so far, with the sockets unregistered before each. -/
  invoked : List (Dispatch (EloopSock × List EloopSock))
  /-- The number of handler calls so far. -/
  calls : ℕ

/-- Source: `eloop_init`. -/
def init (now : OsTime) : EloopData where
  maxSock := 0
  tables := fun _ => ⟨[], false⟩
  timeout := []
  signals := []
  signaled := 0
  terminate := false
  now := now
  registered := []
  fired := []
  cancelled := []
  passes := 0
  socks := 0
  unregistered := []
  dispatches := []
  invoked := []
  calls := 0

/-! ## Timeouts -/

/-- Link a timeout in front of the first one that is due later.
Source: the last loop of `eloop_register_timeout`. -/
def insertTimeout (timeout : EloopTimeout) : List EloopTimeout → List EloopTimeout
  | [] => [timeout]
  | tmp :: l =>
    if timeout.time.before tmp.time then timeout :: tmp :: l else tmp :: insertTimeout timeout l

/-- Register a timeout; `ok` says whether `os_zalloc` and `os_get_time` succeed.
Source: `eloop_register_timeout`. -/
def registerTimeout (abi : DataModel) (s : EloopData) (secs usecs : UInt32)
    (handler eloopData userData : Ptr) (ok : Bool) : ℤ × EloopData :=
  if ok then
    match dueTime abi s.now secs usecs with
    | none => (0, s)
    | some time =>
      let timeout : EloopTimeout :=
        { time, eloopData, userData, handler, secs, usecs
          id := s.registered.length, since := s.now }
      (0, { s with
        timeout := insertTimeout timeout s.timeout
        registered := s.registered ++ [timeout] })
  else (-1, s)

/-- Whether `eloop_cancel_timeout` is asked for a timeout. -/
def EloopTimeout.matches (timeout : EloopTimeout) (handler eloopData userData : Ptr) : Bool :=
  timeout.handler = handler &&
    (timeout.eloopData = eloopData || eloopData = eloopAllCtx) &&
    (timeout.userData = userData || userData = eloopAllCtx)

/-- The loop of `eloop_cancel_timeout` from a place in the list on: the number of timeouts it
removes, those that stay and those that go. -/
def cancelLoop (handler eloopData userData : Ptr) :
    List EloopTimeout → ℕ × List EloopTimeout × List EloopTimeout
  | [] => (0, [], [])
  | timeout :: l =>
    let (removed, stay, gone) := cancelLoop handler eloopData userData l
    if timeout.matches handler eloopData userData then (removed + 1, stay, timeout :: gone)
    else (removed, timeout :: stay, gone)

/-- Cancel the matching timeouts and return their number. Source: `eloop_cancel_timeout`. -/
def cancelTimeout (s : EloopData) (handler eloopData userData : Ptr) : ℕ × EloopData :=
  let (removed, stay, gone) := cancelLoop handler eloopData userData s.timeout
  (removed, { s with timeout := stay, cancelled := s.cancelled ++ gone })

/-! ## Sockets -/

def setTable (s : EloopData) (type : EventType) (table : SockTable) : EloopData :=
  { s with tables := Function.update s.tables type table }

/-- Append a socket to a table; `ok` says whether `os_realloc` succeeds.
Source: `eloop_register_sock`, `eloop_sock_table_add_sock`. -/
def registerSock (s : EloopData) (sock : ℤ) (type : EventType) (handler eloopData userData : Ptr)
    (ok : Bool) : ℤ × EloopData :=
  if ok then
    let entry : EloopSock := { sock, eloopData, userData, handler, id := s.socks }
    (0, { setTable s type ⟨(s.tables type).table ++ [entry], true⟩ with
      maxSock := max s.maxSock sock
      socks := s.socks + 1 })
  else (-1, s)

/-- Remove the first socket of a table with a descriptor.
Source: `eloop_unregister_sock`, `eloop_sock_table_remove_sock`. -/
def unregisterSock (s : EloopData) (sock : ℤ) (type : EventType) : EloopData :=
  match (s.tables type).table.find? fun e => e.sock = sock with
  | none => s
  | some entry =>
    { setTable s type ⟨(s.tables type).table.eraseP fun e => e.sock = sock, true⟩ with
      unregistered := s.unregistered ++ [entry] }

/-- The descriptors of a table. Source: `eloop_sock_table_set_fds`. -/
def setFds (table : SockTable) : List ℤ := table.table.map EloopSock.sock

/-! ## Signals -/

/-- Register a handler for a signal. Source: `eloop_register_signal`. -/
def registerSignal (s : EloopData) (sig : ℤ) (handler userData : Ptr) (ok : Bool) : ℤ × EloopData :=
  if ok then (0, { s with signals := s.signals ++ [⟨sig, userData, handler, 0⟩] }) else (-1, s)

/-- Count a signal for the first handler that is registered for it.
Source: `eloop_handle_signal`. -/
def handleSignal (s : EloopData) (sig : ℤ) : EloopData :=
  { s with
    signaled := s.signaled + 1
    signals := s.signals.modify (s.signals.findIdx fun e => e.sig = sig)
      fun e => { e with signaled := e.signaled + 1 } }

/-! ## Handlers -/

/-- What a handler can do, the passing of time and the arrival of signals included. -/
inductive Call (abi : DataModel)
  | registerTimeout (secs usecs : UInt32) (handler eloopData userData : Ptr) (ok : Bool)
  | cancelTimeout (handler eloopData userData : Ptr)
  | registerSock (sock : ℤ) (type : EventType) (handler eloopData userData : Ptr) (ok : Bool)
  | unregisterSock (sock : ℤ) (type : EventType)
  | handleSignal (sig : ℤ)
  | terminate
  | advance (now : Reading abi)

/-- The clock moves on to a reading, and never back. -/
def advance (s : EloopData) (now : OsTime) : EloopData := if now.before s.now then s else
    { s with now }

def exec {abi : DataModel} (s : EloopData) : Call abi → EloopData
  | .registerTimeout secs usecs handler eloopData userData ok =>
    (registerTimeout abi s secs usecs handler eloopData userData ok).2
  | .cancelTimeout handler eloopData userData => (cancelTimeout s handler eloopData userData).2
  | .registerSock sock type handler eloopData userData ok =>
    (registerSock s sock type handler eloopData userData ok).2
  | .unregisterSock sock type => unregisterSock s sock type
  | .handleSignal sig => handleSignal s sig
  | .terminate => { s with terminate := true }
  | .advance now => advance s now

section Loop

variable {abi : DataModel} (script : ℕ → List (Call abi))

def invoke (s : EloopData) : EloopData := (script s.calls).foldl exec
    { s with calls := s.calls + 1 }

/-- The loop of `eloop_process_pending_signals` from the `i`-th signal on; handlers do not register
signals, so `n` is the number of those that are left. -/
def signalLoop : ℕ → ℕ → EloopData → EloopData
  | 0, _, s => s
  | n + 1, i, s =>
    if (s.signals[i]?.elim 0 EloopSignal.signaled) ≠ 0 then
      signalLoop n (i + 1)
        (invoke script { s with signals := s.signals.modify i fun e => { e with signaled := 0 } })
    else signalLoop n (i + 1) s

/-- Call the handlers of the signals that arrived. Source: `eloop_process_pending_signals`. -/
def processPendingSignals (s : EloopData) : EloopData :=
  if s.signaled = 0 then s
  else signalLoop script s.signals.length 0 { s with signaled := 0 }

/-- Take the first timeout off the list if it is due. -/
def takeTimeout (s : EloopData) : Option EloopData :=
  match s.timeout with
  | [] => none
  | timeout :: rest =>
    if s.now.before timeout.time then none
    else some { s with
      timeout := rest
      fired := s.fired ++ [⟨timeout, s.now, s.registered.length⟩] }

def runTimeout (s : EloopData) : EloopData :=
  let s := { s with passes := s.passes + 1 }
  match takeTimeout s with
  | none => s
  | some s => invoke script s

/-- The loop of `eloop_sock_table_dispatch` from the `i`-th socket on. It leaves the table as soon
as a handler has changed it, so `n` is the number of sockets that are left. -/
def dispatchLoop (type : EventType) (polled : List EloopSock) (fds : List ℤ) :
    ℕ → ℕ → EloopData → EloopData
  | 0, _, s => s
  | n + 1, i, s =>
    match (s.tables type).table[i]? with
    | none => s
    | some entry =>
      if entry.sock ∈ fds then
        let s := invoke script { s with
          invoked := s.invoked ++ [⟨type, polled, fds, (entry, s.unregistered)⟩] }
        if (s.tables type).changed then s else dispatchLoop type polled fds n (i + 1) s
      else dispatchLoop type polled fds n (i + 1) s

/-- Call the handlers of the sockets that are ready. Source: `eloop_sock_table_dispatch`. -/
def dispatch (type : EventType) (polled : List EloopSock) (fds : List ℤ)
    (s : EloopData) : EloopData :=
  let table := (s.tables type).table
  let s := { setTable s type ⟨table, false⟩ with
    dispatches := s.dispatches ++ [⟨type, polled, fds, table⟩] }
  dispatchLoop script type polled fds table.length 0 s

/-- What `select` does: the clock and the signals that have arrived when it returns, its result,
whether its error is one other than `EINTR`, and the descriptors that are ready for each event. -/
structure Select (abi : DataModel) where
  now : Reading abi
  signals : List ℤ
  res : ℤ
  fatal : Bool
  ready : EventType → List ℤ

/-- The condition of the loop of `eloop_run`. -/
def running (s : EloopData) : Bool :=
  !s.terminate && (s.timeout ≠ [] || (s.tables .read).table ≠ [] || (s.tables .write).table ≠ [] ||
    (s.tables .exception).table ≠ [])

/-- The sockets of the passed set that `select` reports: it looks at descriptors up to the largest
one that was ever registered. -/
def reported (s : EloopData) (sel : Select abi) (type : EventType) : List ℤ :=
  (setFds (s.tables type)).filter fun fd => fd ≤ s.maxSock ∧ fd ∈ sel.ready type

/-- What happens while the loop waits in `select`. -/
def await (s : EloopData) (sel : Select abi) : EloopData :=
  sel.signals.foldl handleSignal (advance s sel.now)

/-- One turn of the loop; `none` when the loop ends. Source: `eloop_run`. -/
def pass (s : EloopData) (sel : Select abi) : Option EloopData :=
  if running s then
    let polled := fun type => (s.tables type).table
    let fds := reported s sel
    let s := await s sel
    if sel.res < 0 ∧ sel.fatal then none
    else
      let s := runTimeout script (processPendingSignals script s)
      if sel.res ≤ 0 then some s
      else
        let s := dispatch script .read (polled .read) (fds .read) s
        let s := dispatch script .write (polled .write) (fds .write) s
        some (dispatch script .exception (polled .exception) (fds .exception) s)
  else none

/-- What the program does: calls into the event loop, and turns of `eloop_run`. -/
inductive Op (abi : DataModel)
  | call (c : Call abi)
  | registerSignal (sig : ℤ) (handler userData : Ptr) (ok : Bool)
  | pass (sel : Select abi)

def step (s : EloopData) : Op abi → EloopData
  | .call c => exec s c
  | .registerSignal sig handler userData ok => (registerSignal s sig handler userData ok).2
  | .pass sel => (pass script s sel).getD s

end Loop

end Hostapd.Utils.Eloop
