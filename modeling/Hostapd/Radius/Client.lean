import Hostapd.Lib.Run
import Hostapd.Radius.Msg

/-!
# The RADIUS client

`radius_client.c`: requests wait in one list for their responses, are sent again by a timer, and
move to another server when the one in use does not answer.

* **`RadiusMsgList`** is a pending request and `RadiusClientData` the client; `Service` holds the
  servers, sockets and handlers for authentication or for accounting.
* **Sending**: `getId`, `send` with `listAdd`; **receiving**: `receive`.
* **The timer**: `timer` walks the list with `retransmit`; a failed send may open new sockets in
  the middle of the walk. When that frees the request being sent, the source goes on with freed
  memory and `timer` is `none`.
* **Servers**: `changeServer`, called by the failover in `timer`, by `retryPrimary` and by `reinit`.
* **The record** stands beside the data of the source and no function reads it: the identifiers
  issued and not yet sent, the evictions, and the changes of the accounting server.

What sockets do is an argument of each operation (`Sent`, `Connect`). The calls that a handler makes
into the client come after everything `receive` does to it, so in a run they stand as the operations
that follow. The statistics of the source and its logging are left out.
-/

namespace Hostapd.Radius.Client

open Hostapd.Lib

/-! ## The data -/

/-- Source: `radius_client.h`, `RadiusType`. -/
inductive RadiusType
  | auth | acct | acctInterim
  deriving DecidableEq

/-- The test of the source for accounting messages where it includes interim updates. -/
def RadiusType.isAcct (type : RadiusType) : Bool := type = .acct || type = .acctInterim

/-- Source: `RADIUS_CLIENT_FIRST_WAIT`. -/
def firstWait : ℕ := 3

/-- Source: `RADIUS_CLIENT_MAX_WAIT`. -/
def maxWait : ℕ := 120

/-- Source: `RADIUS_CLIENT_MAX_RETRIES`. -/
def maxRetries : ℕ := 10

/-- Source: `RADIUS_CLIENT_MAX_ENTRIES`. -/
def maxEntries : ℕ := 30

/-- Source: `RADIUS_CLIENT_NUM_FAILOVER`. -/
def numFailover : ℕ := 4

/-- The size of the buffer of `radius_client_receive`. -/
def recvBufLen : ℕ := 3000

inductive AddrFamily
  | inet | inet6 | unspec
  deriving DecidableEq

/-- Source: `radius_client.h`, `struct hostapd_radius_server`. -/
structure HostapdRadiusServer where
  af : AddrFamily
  sharedSecret : Bytes
  deriving DecidableEq

/-- Source: `radius_client.h`, `RadiusRxResult`. -/
inductive RadiusRxResult
  | processed | queued | unknown | invalidAuthenticator
  deriving DecidableEq

/-- What a handler says of a message, the request it is matched with and the shared secret.
Source: `struct radius_rx_handler`. -/
abbrev RxHandler := RadiusMsg → RadiusMsg → Bytes → RadiusRxResult

/-- The servers for authentication or for accounting, with the index of the one in use, the two
sockets for them, the one of these in use, and the handlers of their responses.
Source: `struct hostapd_radius_servers`, `struct radius_client_data`. -/
structure Service where
  servers : List HostapdRadiusServer
  server : ℕ
  servSock : ℤ
  servSock6 : ℤ
  sock : ℤ
  handlers : List RxHandler

/-- The server in use, `conf->auth_server` or `conf->acct_server`. -/
def Service.current (svc : Service) : Option HostapdRadiusServer := svc.servers[svc.server]?

/-- A pending request. Source: `struct radius_msg_list`. -/
structure RadiusMsgList where
  addr : MacAddr
  msg : RadiusMsg
  msgType : RadiusType
  firstTry : ℤ
  nextTry : ℤ
  attempts : ℕ
  nextWait : ℕ
  sharedSecret : Bytes
  deriving DecidableEq

/-- The record of a change of the accounting server: the server, and the pending requests before
and after. -/
structure AcctChange where
  server : HostapdRadiusServer
  before : List RadiusMsgList
  after : List RadiusMsgList

/-- The client. Source: `struct radius_client_data`. -/
structure RadiusClientData where
  auth : Service
  acct : Service
  msgs : List RadiusMsgList
  numMsgs : ℕ
  nextRadiusIdentifier : UInt8
  /-- The times at which `radius_client_timer` is registered to run. -/
  timers : List ℤ
  /-- The identifiers that were issued and that no message has been sent with. -/
  issued : List UInt8
  /-- How many requests were pending at each eviction. -/
  evicted : List ℕ
  /-- The changes of the accounting server. -/
  acctChanges : List AcctChange

/-- A client as `radius_client_init` leaves it. -/
def init (auth acct : Service) : RadiusClientData where
  auth := auth
  acct := acct
  msgs := []
  numMsgs := 0
  nextRadiusIdentifier := 0
  timers := []
  issued := []
  evicted := []
  acctChanges := []

/-- The servers and sockets for authentication or for accounting. -/
def RadiusClientData.service (s : RadiusClientData) (auth : Bool) : Service :=
  if auth then s.auth else s.acct

/-- Replace the servers and sockets for authentication or for accounting. -/
def RadiusClientData.setService (s : RadiusClientData) (auth : Bool) (svc : Service) :
    RadiusClientData :=
  if auth then { s with auth := svc } else { s with acct := svc }

/-- What the calls of `socket` return when a client opens its sockets anew, and whether `bind` and
`connect` succeed. -/
structure Connect where
  sock : ℤ
  sock6 : ℤ
  connected : Bool
  deriving DecidableEq

/-- What becomes of a datagram: it is sent, `send` fails, or it fails with one of the errors after
which the client opens its sockets anew. -/
inductive Sent
  | ok
  | failed
  | reconnect (c : Connect)
  deriving DecidableEq

def Sent.opens : Sent → Bool
  | .reconnect c => 0 ≤ c.sock || 0 ≤ c.sock6
  | _ => false

/-- Register a handler. Source: `radius_client_register`. -/
def register (s : RadiusClientData) (msgType : RadiusType) (handler : RxHandler) :
    RadiusClientData :=
  let svc := s.service (msgType ≠ .acct)
  s.setService (msgType ≠ .acct) { svc with handlers := svc.handlers ++ [handler] }

/-! ## Removing requests -/

/-- A walk over the list that unlinks, frees and counts the requests with a property: the loops of
`radius_client_list_del`, `radius_client_flush` and `radius_client_flush_auth`. -/
def unlinkWhere (p : RadiusMsgList → Bool) (s : RadiusClientData) : RadiusClientData :=
  { s with msgs := s.msgs.filter (!p ·), numMsgs := s.numMsgs - s.msgs.countP p }

/-- Source: `radius_client_list_del`. -/
def listDel (s : RadiusClientData) (msgType : RadiusType) (addr : Option MacAddr) :
    RadiusClientData :=
  match addr with
  | none => s
  | some addr => unlinkWhere (fun e => e.msgType = msgType && e.addr = addr) s

/-- Source: `radius_client_flush`. -/
def flush (s : RadiusClientData) (onlyAuth : Bool) : RadiusClientData :=
  let s := unlinkWhere (fun e => !onlyAuth || e.msgType = .auth) s
  if s.msgs = [] then { s with timers := [] } else s

/-- Source: `radius_client_flush_auth`. -/
def flushAuth (s : RadiusClientData) (addr : MacAddr) : RadiusClientData :=
  unlinkWhere (fun e => e.msgType = .auth && e.addr = addr) s

/-! ## Changing the server -/

section Digests

variable (hmacMd5 : Bytes → Bytes → Digest) (md5Vector : List Bytes → Digest)

/-- Source: `radius_client_update_acct_msgs`. -/
def updateAcctMsgs (s : RadiusClientData) (sharedSecret : Bytes) : RadiusClientData :=
  { s with msgs := s.msgs.map fun e =>
      if e.msgType = .acct then
        { e with sharedSecret, msg := finishAcct md5Vector e.msg sharedSecret }
      else e }

/-- The loop of `radius_change_server` over the retry counters. -/
def resetRetries (s : RadiusClientData) (auth : Bool) : RadiusClientData :=
  { s with msgs := s.msgs.map fun e =>
      if auth && e.msgType ≠ .auth || !auth && e.msgType ≠ .acct then e
      else { e with
        nextTry := e.firstTry + firstWait
        attempts := 0
        nextWait := firstWait * 2 } }

/-- The requests of `radius_change_server` for its new server: those with another secret are
flushed or finished again, and the retry counters are reset. -/
def adoptServer (s : RadiusClientData) (nserv : HostapdRadiusServer)
    (oserv : Option HostapdRadiusServer) (auth : Bool) : RadiusClientData :=
  let s :=
    if oserv.map (·.sharedSecret) = some nserv.sharedSecret then s
    else if auth then flush s true
    else updateAcctMsgs md5Vector s nserv.sharedSecret
  resetRetries s auth

/-- The rest of `radius_change_server`: the timer, and the socket that is connected. -/
def connectServer (s : RadiusClientData) (nserv : HostapdRadiusServer) (sock sock6 : ℤ)
    (auth : Bool) (now : ℤ) (connected : Bool) : RadiusClientData :=
  let s := if s.msgs = [] then s else { s with timers := [now + firstWait] }
  let selSock := match nserv.af with
    | .inet => some sock
    | .inet6 => some sock6
    | .unspec => none
  match selSock with
  | none => s
  | some sock => if connected then s.setService auth { s.service auth with sock } else s

/-- Use a server, over one of two sockets; `oserv` is `none` when these are new.
Source: `radius_change_server`. -/
def changeServer (s : RadiusClientData) (nserv : HostapdRadiusServer)
    (oserv : Option HostapdRadiusServer) (sock sock6 : ℤ) (auth : Bool) (now : ℤ)
    (connected : Bool) : RadiusClientData :=
  let before := s.msgs
  let s := adoptServer md5Vector s nserv oserv auth
  let s := if auth then s else { s with acctChanges := s.acctChanges ++ [⟨nserv, before, s.msgs⟩] }
  connectServer s nserv sock sock6 auth now connected

/-- Open the sockets and connect to the server in use.
Source: `radius_client_init_auth`, `radius_client_init_acct`. -/
def reinit (s : RadiusClientData) (auth : Bool) (c : Connect) (now : ℤ) : RadiusClientData :=
  let s := s.setService auth { s.service auth with servSock := c.sock, servSock6 := c.sock6 }
  if c.sock < 0 ∧ c.sock6 < 0 then s
  else
    match (s.service auth).current with
    | none => s
    | some nserv => changeServer md5Vector s nserv none c.sock c.sock6 auth now c.connected

/-- Source: `radius_client_handle_send_error`. -/
def handleSendError (s : RadiusClientData) (msgType : RadiusType) (now : ℤ) :
    Sent → RadiusClientData
  | .reconnect c => reinit md5Vector s (!msgType.isAcct) c now
  | _ => s

def switchServer (s : RadiusClientData) (next : ℕ) (auth : Bool) (now : ℤ) (connected : Bool) :
    RadiusClientData :=
  let svc := s.service auth
  match svc.servers[next]?, svc.current with
  | some nserv, some oserv =>
    changeServer md5Vector (s.setService auth { svc with server := next }) nserv (some oserv)
      svc.servSock svc.servSock6 auth now connected
  | _, _ => s

/-- Go back to the first server; `connected` says of which kind of server the new connection
succeeds. Source: `radius_retry_primary_timer`. -/
def retryPrimary (s : RadiusClientData) (now : ℤ) (connected : Bool → Bool) : RadiusClientData :=
  let retry (s : RadiusClientData) (auth : Bool) :=
    let svc := s.service auth
    if 0 ≤ svc.sock ∧ svc.servers ≠ [] ∧ svc.server ≠ 0 then
      switchServer md5Vector s 0 auth now (connected auth)
    else s
  retry (retry s true) false

/-! ## The timer -/

/-- Send the `i`-th request again and say whether it is to be removed; `none` when the request is
freed on the way. Source: `radius_client_retransmit`. -/
def retransmit (s : RadiusClientData) (i : ℕ) (now : ℤ) (sent : Sent) :
    Option (Bool × RadiusClientData) :=
  match s.msgs[i]? with
  | none => some (false, s)
  | some entry =>
    -- `reinit` flushes the authentication requests, this one among them
    if entry.msgType = .auth ∧ sent.opens then none
    else
      let s := { s with msgs := s.msgs.modify i fun e => { e with attempts := e.attempts + 1 } }
      let s := handleSendError md5Vector s entry.msgType now sent
      let s := { s with msgs := s.msgs.modify i fun e =>
        { e with nextTry := now + e.nextWait, nextWait := min (e.nextWait * 2) maxWait } }
      some ((s.msgs[i]?).elim false (fun e => maxRetries ≤ e.attempts), s)

/-- What the loop of `radius_client_timer` collects: the earliest next attempt, with zero for none,
and how many requests of either kind call for another server. -/
structure TimerScan where
  first : ℤ
  authFailover : ℕ
  acctFailover : ℕ

/-- The part of the loop of `radius_client_timer` for a request that stays. -/
def TimerScan.visit (scan : TimerScan) (entry : RadiusMsgList) : TimerScan where
  first := if scan.first = 0 ∨ entry.nextTry < scan.first then entry.nextTry else scan.first
  authFailover :=
    if numFailover < entry.attempts ∧ !entry.msgType.isAcct then scan.authFailover + 1
    else scan.authFailover
  acctFailover :=
    if numFailover < entry.attempts ∧ entry.msgType.isAcct then scan.acctFailover + 1
    else scan.acctFailover

/-- The loop of `radius_client_timer` from the `i`-th request on, with `n` requests left; `sent k`
is what becomes of the datagram of the request that has `k` others behind it. -/
def timerLoop (now : ℤ) (sent : ℕ → Sent) :
    ℕ → ℕ → TimerScan → RadiusClientData → Option (TimerScan × RadiusClientData)
  | 0, _, scan, s => some (scan, s)
  | n + 1, i, scan, s =>
    match s.msgs[i]? with
    | none => some (scan, s)
    | some entry =>
      match if entry.nextTry ≤ now then retransmit md5Vector s i now (sent n) else some (false, s) with
      | none => none
      | some (true, s) =>
        timerLoop now sent n i scan
          { s with msgs := s.msgs.eraseIdx i, numMsgs := s.numMsgs - 1 }
      | some (false, s) => timerLoop now sent n (i + 1) ((s.msgs[i]?).elim scan scan.visit) s

/-- Move on to the next server, when there are several and a request calls for it. -/
def failover (s : RadiusClientData) (count : ℕ) (auth : Bool) (now : ℤ) (connected : Bool) :
    RadiusClientData :=
  let svc := s.service auth
  if count ≠ 0 ∧ 1 < svc.servers.length then
    let next := if svc.server + 1 < svc.servers.length then svc.server + 1 else 0
    switchServer md5Vector s next auth now connected
  else s

/-- What the timer meets: the clock, what becomes of its datagrams, and of which kind of server a
new connection succeeds. -/
structure TimerWorld where
  now : ℤ
  sent : ℕ → Sent
  connected : Bool → Bool

/-- Source: `radius_client_timer`. -/
def timer (s : RadiusClientData) (w : TimerWorld) : Option RadiusClientData :=
  if s.msgs = [] then some s
  else
    (timerLoop md5Vector w.now w.sent s.msgs.length 0 ⟨0, 0, 0⟩ s).map fun (scan, s) =>
      let s := if s.msgs = [] then s else { s with timers := s.timers ++ [max scan.first w.now] }
      let s := failover md5Vector s scan.authFailover true w.now (w.connected true)
      failover md5Vector s scan.acctFailover false w.now (w.connected false)

/-! ## Sending and receiving -/

/-- The earliest next attempt of a list of requests, zero for none. -/
def earliest (msgs : List RadiusMsgList) : ℤ :=
  msgs.foldl (fun first e => if first = 0 ∨ e.nextTry < first then e.nextTry else first) 0

/-- Source: `radius_client_update_timeout`. -/
def updateTimeout (s : RadiusClientData) (now : ℤ) : RadiusClientData :=
  { s with timers := if s.msgs = [] then [] else [max (earliest s.msgs) now] }

/-- What a call of `radius_client_send` meets: the clock, whether the event loop has been
terminated, whether there is memory for the request, and what becomes of the datagram. -/
structure SendWorld where
  now : ℤ
  terminated : Bool
  mem : Bool
  sent : Sent

/-- Add a request in front; the last one is dropped when the counter says that the list is full.
Source: `radius_client_list_add`. -/
def listAdd (s : RadiusClientData) (msg : RadiusMsg) (msgType : RadiusType)
    (sharedSecret : Bytes) (addr : Option MacAddr) (w : SendWorld) : RadiusClientData :=
  if w.terminated ∨ ¬ w.mem then s
  else
    let entry : RadiusMsgList :=
      { addr := addr.getD 0, msg, msgType, sharedSecret
        firstTry := w.now, nextTry := w.now + firstWait
        attempts := 1, nextWait := firstWait * 2 }
    let held := s.msgs.length
    let s := updateTimeout { s with msgs := entry :: s.msgs } w.now
    if maxEntries ≤ s.numMsgs then
      if 0 < held then { s with msgs := s.msgs.dropLast, evicted := s.evicted ++ [held] } else s
    else { s with numMsgs := s.numMsgs + 1 }

/-- Send a request and add it to the list; `-1` when there is no server.
Source: `radius_client_send`. -/
def send (s : RadiusClientData) (msg : RadiusMsg) (msgType : RadiusType) (addr : Option MacAddr)
    (w : SendWorld) : ℤ × RadiusClientData :=
  let s := { s with issued := s.issued.filter (· ≠ identifier msg) }
  let s := if msgType = .acctInterim then listDel s msgType addr else s
  match (s.service (!msgType.isAcct)).current with
  | none => (-1, s)
  | some server =>
    let msg :=
      if msgType.isAcct then finishAcct md5Vector msg server.sharedSecret
      else (finish hmacMd5 msg server.sharedSecret).2
    let s := handleSendError md5Vector s msgType w.now w.sent
    let s := listAdd s msg msgType server.sharedSecret addr w
    match w.sent with
    | .ok => (msg.buf.length, s)
    | _ => (-1, s)

/-- Take the next identifier; the pending requests that have it are unlinked and freed.
Source: `radius_client_get_id`. -/
def getId (s : RadiusClientData) : UInt8 × RadiusClientData :=
  let id := s.nextRadiusIdentifier
  (id, { s with
    nextRadiusIdentifier := id + 1
    msgs := s.msgs.filter fun e => identifier e.msg ≠ id
    issued := s.issued.insert id })

/-- A request is one that a response of a type and with an identifier is matched with. -/
def RadiusMsgList.answeredBy (msgType : RadiusType) (id : UInt8) (req : RadiusMsgList) : Bool :=
  (req.msgType = msgType || req.msgType = .acctInterim && msgType = .acct) &&
    identifier req.msg = id

/-- Offer a message to the handlers in turn, until one has processed or queued it. -/
def handlerLoop (msg : RadiusMsg) (req : RadiusMsgList) : List RxHandler → Bool
  | [] => false
  | handler :: l =>
    match handler msg req.msg req.sharedSecret with
    | .processed => true
    | .queued => true
    | .invalidAuthenticator => handlerLoop msg req l
    | .unknown => handlerLoop msg req l

/-- Receive a datagram on a socket for authentication or for accounting, and say whether a handler
accepts the message. Source: `radius_client_receive`. -/
def receive (s : RadiusClientData) (msgType : RadiusType) (buf : Bytes) :
    Bool × RadiusClientData :=
  if recvBufLen ≤ buf.length then (false, s)
  else
    match parse buf with
    | none => (false, s)
    | some msg =>
      match s.msgs.find? (RadiusMsgList.answeredBy msgType (identifier msg)) with
      | none => (false, s)
      | some req =>
        -- the request is unlinked before the handlers are called and freed after, in any case
        (handlerLoop msg req (s.service (msgType ≠ .acct)).handlers,
          { s with
            msgs := s.msgs.eraseP (RadiusMsgList.answeredBy msgType (identifier msg))
            numMsgs := s.numMsgs - 1 })

/-! ## Runs -/

inductive Op
  | register (msgType : RadiusType) (handler : RxHandler)
  | getId
  | send (msg : RadiusMsg) (msgType : RadiusType) (addr : Option MacAddr) (w : SendWorld)
  | receive (msgType : RadiusType) (buf : Bytes)
  | timer (w : TimerWorld)
  | retryPrimary (now : ℤ) (connected : Bool → Bool)
  | flush (onlyAuth : Bool)
  | flushAuth (addr : MacAddr)

def exec (s : RadiusClientData) : Op → Option RadiusClientData
  | .register msgType handler => some (register s msgType handler)
  | .getId => some (getId s).2
  | .send msg msgType addr w => some (send hmacMd5 md5Vector s msg msgType addr w).2
  | .receive msgType buf => some (receive s msgType buf).2
  | .timer w => timer md5Vector { s with timers := s.timers.eraseP (· ≤ w.now) } w
  | .retryPrimary now connected => some (retryPrimary md5Vector s now connected)
  | .flush onlyAuth => some (flush s onlyAuth)
  | .flushAuth addr => some (flushAuth s addr)

/-- The step function of the client; nothing is said of a client that used freed memory. -/
def step (s : Option RadiusClientData) (op : Op) : Option RadiusClientData :=
  s.bind fun s => exec hmacMd5 md5Vector s op

end Digests

end Hostapd.Radius.Client
