import Hostapd.Lib.Run
import Hostapd.Radius.Msg

/-!
# The RADIUS server's sessions

`radius_server.c`: every EAP conversation is a session, linked in the list of the RADIUS client (an
access point) that it came from and counted over all clients. A session is found by the State
attribute of a request, leaves after a timeout or some time after its completion, and keeps a
request while its EAP method waits for something.

* **`RadiusSession`**, `RadiusClient`, **`RadiusServerData`**. A session's number, in the order of
  creation, stands for its pointer.
* **Creation and removal**: `newSession`, `getNewSession`, `sessionFree`, `sessionRemove`.
* **Requests**: `receiveAuth` with `radiusServerRequest` and `sessionRequest`, and `eapPendingCb`.

The EAP machine, the user database and the memory allocator are asked through the arguments of an
operation (`World`). Replies, their keys and the statistics are left out, except that a session
keeps its last reply. When the source uses memory it has freed, the operation is `none`.
-/

namespace Hostapd.Radius.Server

open Hostapd.Lib

/-! ## The data -/

/-- Source: `RADIUS_MAX_SESSION`. -/
def maxSession : ℤ := 100

/-- Source: `RADIUS_MAX_MSG_LEN`. -/
def maxMsgLen : ℕ := 3000

/-- Source: `radius.h`, `RADIUS_ATTR_STATE`. -/
def attrState : UInt8 := 24

/-- A session. `serial` counts the sessions created before it and stands for the pointer;
`completed` and `freed` record that it was completed, and freed. Source: `struct radius_session`. -/
structure RadiusSession where
  serial : ℕ
  sessId : UInt32
  eap : Option ℕ
  lastMsg : Option RadiusMsg
  lastFromPort : ℕ
  lastIdentifier : UInt8
  lastReply : Option RadiusMsg
  lastAuthenticator : Bytes
  completed : Bool
  freed : Bool
  deriving DecidableEq

/-- An access point with its sessions. Source: `struct radius_client`. -/
structure RadiusClient where
  addr : BitVec 32
  mask : BitVec 32
  addr6 : BitVec 128
  mask6 : BitVec 128
  sharedSecret : Bytes
  sessions : List RadiusSession

/-- The two timeouts of a session: `radius_server_session_timeout` and
`radius_server_session_remove_timeout`. -/
inductive TimeoutKind
  | session | remove
  deriving DecidableEq

/-- The server. Source: `struct radius_server_data`. -/
structure RadiusServerData where
  clients : List RadiusClient
  ipv6 : Bool
  nextSessId : UInt32
  numSess : ℤ
  /-- The registered timeouts, each with the number of its session. -/
  timers : List (TimeoutKind × ℕ)
  /-- The number of sessions created so far. -/
  created : ℕ

/-- A server without sessions. Source: `radius_server_init`. -/
def init (clients : List RadiusClient) (ipv6 : Bool) : RadiusServerData where
  clients := clients.map fun client => { client with sessions := [] }
  ipv6 := ipv6
  nextSessId := 0
  numSess := 0
  timers := []
  created := 0

def sessions (d : RadiusServerData) : List RadiusSession := d.clients.flatMap RadiusClient.sessions

def session (d : RadiusServerData) (serial : ℕ) : Option RadiusSession :=
  (sessions d).find? fun sess => sess.serial = serial

def modifySession (d : RadiusServerData) (serial : ℕ) (f : RadiusSession → RadiusSession) :
    RadiusServerData :=
  { d with clients := d.clients.map fun client =>
      { client with sessions := client.sessions.map fun sess =>
          if sess.serial = serial then f sess else sess } }

def cancelTimeout (d : RadiusServerData) (kind : TimeoutKind) (serial : ℕ) : RadiusServerData :=
  { d with timers := d.timers.filter (· ≠ (kind, serial)) }

/-- Register a timeout of a session; `ok` says whether there is memory for it, and no caller looks.
-/
def registerTimeout (d : RadiusServerData) (kind : TimeoutKind) (serial : ℕ) (ok : Bool) :
    RadiusServerData :=
  if ok then { d with timers := d.timers ++ [(kind, serial)] } else d

/-! ## Creation and removal -/

/-- The interface of the EAP machine after a call of `eap_server_sm_step`. -/
structure EapStep where
  eapReq : Bool
  eapSuccess : Bool
  eapFail : Bool
  hasReqData : Bool
  methodPending : Bool

def EapStep.answers (step : EapStep) : Bool :=
  (step.eapReq || step.eapSuccess || step.eapFail) && step.hasReqData || step.eapFail

def EapStep.complete (step : EapStep) : Bool := step.eapSuccess || step.eapFail

/-- What an operation meets: whether there is memory for the received datagram, the user name, a new
session, and its two timeouts, whether the user is found, the EAP machine that
`eap_server_sm_init` makes, what the machine then does, and the reply. -/
structure World where
  memBuf : Bool
  memUser : Bool
  memSess : Bool
  memTimer : Bool
  memRemove : Bool
  userFound : Bool
  eap : Option ℕ
  step : EapStep
  reply : Option RadiusMsg

/-- Free a session; one that is still linked stays in its list. Source:
`radius_server_session_free`. -/
def sessionFree (d : RadiusServerData) (serial : ℕ) : RadiusServerData :=
  let d := cancelTimeout (cancelTimeout d .session serial) .remove serial
  let d := modifySession d serial fun sess => { sess with freed := true }
  { d with numSess := d.numSess - 1 }

def unlink (d : RadiusServerData) (serial : ℕ) : RadiusServerData :=
  { d with clients := d.clients.map fun client =>
      { client with sessions := client.sessions.filter fun sess => sess.serial ≠ serial } }

/-- Source: `radius_server_session_remove`. -/
def sessionRemove (d : RadiusServerData) (serial : ℕ) : RadiusServerData :=
  let d := cancelTimeout d .remove serial
  if (session d serial).isSome then sessionFree (unlink d serial) serial else d

/-- A session as `radius_server_new_session` fills it in. -/
def freshSession (serial : ℕ) (sessId : UInt32) : RadiusSession where
  serial := serial
  sessId := sessId
  eap := none
  lastMsg := none
  lastFromPort := 0
  lastIdentifier := 0
  lastReply := none
  lastAuthenticator := List.replicate 16 0
  completed := false
  freed := false

/-- Link a new session, unless there are too many. Source: `radius_server_new_session`. -/
def newSession (d : RadiusServerData) (client : ℕ) (w : World) : Option ℕ × RadiusServerData :=
  if maxSession ≤ d.numSess then (none, d)
  else if w.memSess then
    let sess := freshSession d.created d.nextSessId
    let d := { d with
      nextSessId := d.nextSessId + 1
      created := d.created + 1
      clients := d.clients.modify client fun c => { c with sessions := sess :: c.sessions } }
    let d := registerTimeout d .session sess.serial w.memTimer
    (some sess.serial, { d with numSess := d.numSess + 1 })
  else (none, d)

/-- The first attribute of a type. Source: `radius_msg_get_attr`. -/
def getAttrOf (msg : RadiusMsg) (type : UInt8) : Option Bytes :=
  ((attrs msg).find? fun attr => attr.1 = type).map Prod.snd

/-- A new session with an EAP machine for the user of a request.
Source: `radius_server_get_new_session`. -/
def getNewSession (d : RadiusServerData) (client : ℕ) (msg : RadiusMsg) (w : World) :
    Option ℕ × RadiusServerData :=
  if w.memUser ∧ (getAttrOf msg attrUserName).isSome ∧ w.userFound then
    match newSession d client w with
    | (none, d) => (none, d)
    | (some serial, d) =>
      match w.eap with
      -- the session is freed, and stays linked
      | none => (none, sessionFree d serial)
      | some eap => (some serial, modifySession d serial fun sess => { sess with eap := some eap })
  else (none, d)

/-! ## Requests -/

def RadiusSession.isDuplicate (sess : RadiusSession) (msg : RadiusMsg) (fromPort : ℕ) : Bool :=
  sess.lastFromPort = fromPort && sess.lastIdentifier = identifier msg &&
    sess.lastAuthenticator = authenticator msg

def storeReply (d : RadiusServerData) (serial : ℕ) (msg : RadiusMsg) (fromPort : ℕ) (w : World) :
    RadiusServerData :=
  match w.reply with
  | none => d
  | some reply => modifySession d serial fun sess => { sess with
      lastReply := some reply
      lastFromPort := fromPort
      lastIdentifier := identifier msg
      lastAuthenticator := authenticator msg }

def completeSession (d : RadiusServerData) (serial : ℕ) (w : World) : RadiusServerData :=
  let d := modifySession d serial fun sess => { sess with completed := true }
  registerTimeout (cancelTimeout d .remove serial) .remove serial w.memRemove

/-- A request for a session, from a port, with the value returned. `forced` says that it was stored
with the session; its sender's address is then a string of the session, which is freed before it
is copied when the request is stored again. Source: `radius_server_request`, from the check for
duplicates on. -/
def sessionRequest (d : RadiusServerData) (serial : ℕ) (msg : RadiusMsg) (fromPort : ℕ)
    (forced : Bool) (w : World) : Option (ℤ × RadiusServerData) :=
  match session d serial with
  | none => some (-1, d)
  | some sess =>
    if sess.isDuplicate msg fromPort then some (if sess.lastReply.isSome then 0 else -1, d)
    else if getEap msg = none then some (-1, d)
    else if w.step.answers then
      let d := storeReply d serial msg fromPort w
      some (0, if w.step.complete then completeSession d serial w else d)
    else if w.step.methodPending then
      if forced then none
      else some (-2, modifySession d serial fun sess => { sess with
        lastMsg := some msg
        lastFromPort := fromPort })
    else some (-1, d)

/-- The session of a client with an identifier. Source: `radius_server_get_session`. -/
def getSession (d : RadiusServerData) (client : ℕ) (sessId : UInt32) : Option ℕ :=
  (d.clients[client]?).bind fun c =>
    (c.sessions.find? fun sess => sess.sessId = sessId).map RadiusSession.serial

/-- The session that the State attribute of a request names. -/
def stateSession (d : RadiusServerData) (client : ℕ) (state : Bytes) : Option ℕ :=
  if state.length = 4 then getSession d client (UInt32.ofNat (beNat state)) else none

/-- A request without a session of its own is for the one its State attribute names, or for a new
one. Source: `radius_server_request`. -/
def radiusServerRequest (d : RadiusServerData) (client : ℕ) (msg : RadiusMsg) (fromPort : ℕ)
    (w : World) : Option (ℤ × RadiusServerData) :=
  match getAttrOf msg attrState with
  | some state =>
    match stateSession d client state with
    | some serial => sessionRequest d serial msg fromPort false w
    | none => some (-1, d)
  | none =>
    match getNewSession d client msg w with
    | (some serial, d) => sessionRequest d serial msg fromPort false w
    | (none, d) => some (-1, d)

/-- The client of an address. Source: `radius_server_get_client`. -/
def getClient (d : RadiusServerData) (addr : BitVec 32) (addr6 : BitVec 128) : Option ℕ :=
  d.clients.findIdx? fun client =>
    if d.ipv6 then addr6 &&& client.mask6 = client.addr6 &&& client.mask6
    else client.addr &&& client.mask = addr &&& client.mask

section Digests

variable (hmacMd5 : Bytes → Bytes → Digest)

/-- The client and the message of a datagram that is an authentic Access-Request.
Source: `radius_server_receive_auth`, up to the call of `radius_server_request`. -/
def accessRequest (d : RadiusServerData) (buf : Bytes) (addr : BitVec 32) (addr6 : BitVec 128)
    (w : World) : Option (ℕ × RadiusMsg) :=
  if w.memBuf then
    (getClient d addr addr6).bind fun i =>
      (d.clients[i]?).bind fun client =>
        (parse (buf.take maxMsgLen)).bind fun msg =>
          if code msg = codeAccessRequest ∧ verifyMsgAuth hmacMd5 msg client.sharedSecret none = 0
          then some (i, msg) else none
  else none

/-- Source: `radius_server_receive_auth`. -/
def receiveAuth (d : RadiusServerData) (buf : Bytes) (addr : BitVec 32) (addr6 : BitVec 128)
    (fromPort : ℕ) (w : World) : Option RadiusServerData :=
  match accessRequest hmacMd5 d buf addr addr6 w with
  | none => some d
  | some (client, msg) => (radiusServerRequest d client msg fromPort w).map Prod.snd

/-- The session with an EAP machine and a stored request, and the request. -/
def pendingSession (d : RadiusServerData) (ctx : ℕ) : Option (RadiusSession × RadiusMsg) :=
  ((sessions d).find? fun sess => sess.eap = some ctx && sess.lastMsg.isSome).bind fun sess =>
    sess.lastMsg.map fun msg => (sess, msg)

/-- Take up a stored request again. Source: `radius_server_eap_pending_cb`. -/
def eapPendingCb (d : RadiusServerData) (ctx : ℕ) (w : World) : Option RadiusServerData :=
  match pendingSession d ctx with
  | none => some d
  | some (sess, msg) =>
    let d := modifySession d sess.serial fun sess => { sess with lastMsg := none }
    (sessionRequest d sess.serial msg sess.lastFromPort true w).map Prod.snd

inductive Op
  | receiveAuth (buf : Bytes) (addr : BitVec 32) (addr6 : BitVec 128) (fromPort : ℕ) (w : World)
  | eapPendingCb (ctx : ℕ) (w : World)
  | timeout (kind : TimeoutKind) (serial : ℕ)

/-- A timeout runs, if it is registered. Source: `radius_server_session_timeout`,
`radius_server_session_remove_timeout`. -/
def timeout (d : RadiusServerData) (kind : TimeoutKind) (serial : ℕ) : RadiusServerData :=
  if (kind, serial) ∈ d.timers then
    sessionRemove { d with timers := d.timers.erase (kind, serial) } serial
  else d

def exec (d : RadiusServerData) : Op → Option RadiusServerData
  | .receiveAuth buf addr addr6 fromPort w => receiveAuth hmacMd5 d buf addr addr6 fromPort w
  | .eapPendingCb ctx w => eapPendingCb d ctx w
  | .timeout kind serial => some (timeout d kind serial)

def step (d : Option RadiusServerData) (op : Op) : Option RadiusServerData :=
  d.bind fun d => exec hmacMd5 d op

end Digests

end Hostapd.Radius.Server
