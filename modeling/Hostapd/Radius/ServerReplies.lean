import Hostapd.Radius.MppeKeys
import Hostapd.Radius.Server

/-!
# The RADIUS server: EAP and replies

`Server.lean` asks for what the EAP machine does and for the reply that is built. Here both are
computed: the machine reads and writes the interface it shares with the server, and a reply is built
from this interface and from the request.

* **`encapsulateEap`**: the reply; it clears the flag of the interface that it answers.
* **`ReplyingServer`**: the sessions of `Server.lean`, each with its machine and interface, what the
  server does to its machines and what it sends (`Event`), and a record of each session's requests
  (`History`).
* **`request`**, `clientRequest`, `pendingCb`: a request on its two ways to an answer.

The EAP machine is a parameter (`EapServer`). As in `Server.lean`, an operation that uses memory it
has freed is `none`, and so is one that writes outside a buffer.
-/

namespace Hostapd.Radius.Server

open Hostapd.Lib

/-! ## The EAP machine and its interface -/

/-- Source: `radius.h`, `RADIUS_CODE_ACCESS_CHALLENGE`. -/
def codeAccessChallenge : UInt8 := 11

/-- Source: `radius.h`, `RADIUS_ATTR_PROXY_STATE`. -/
def attrProxyState : UInt8 := 33

/-- The part of the interface that the server uses. Source: `struct eap_eapol_interface`. -/
structure EapIf where
  eapResp : Bool
  eapRespData : Option Bytes
  portEnabled : Bool
  eapRestart : Bool
  eapReq : Bool
  eapReqData : Option Bytes
  eapSuccess : Bool
  eapFail : Bool
  eapKeyData : Option Bytes
  deriving DecidableEq

/-- The interface of a new machine, as `radius_server_get_new_session` leaves it. -/
def EapIf.fresh : EapIf where
  eapResp := false
  eapRespData := none
  portEnabled := true
  eapRestart := true
  eapReq := false
  eapReqData := none
  eapSuccess := false
  eapFail := false
  eapKeyData := none

/-- The EAP machine with states `M`: `eap_server_sm_step`, `eap_sm_method_pending` and
`eap_sm_pending_cb`. -/
structure EapServer (M : Type*) where
  step : M → EapIf → M × EapIf
  methodPending : M → Bool
  pendingCb : M → M

structure EapSession (M : Type*) where
  sm : M
  eapIf : EapIf
  deriving DecidableEq

/-- What the server sees of the machine after a step. -/
def EapSession.seen {M : Type*} (machine : EapServer M) (e : EapSession M) : EapStep where
  eapReq := e.eapIf.eapReq
  eapSuccess := e.eapIf.eapSuccess
  eapFail := e.eapIf.eapFail
  hasReqData := e.eapIf.eapReqData.isSome
  methodPending := machine.methodPending e.sm

/-- Give the machine the EAP data of a request, and let it step; `mem` says whether there is memory
for the data. -/
def EapSession.receive {M : Type*} (machine : EapServer M) (e : EapSession M) (eap : Bytes)
    (mem : Bool) : EapSession M :=
  let (sm, eapIf) := machine.step e.sm { e.eapIf with
    eapRespData := if mem then some eap else none
    eapResp := true }
  ⟨sm, eapIf⟩

/-! ## Replies -/

section Digests

variable (hmacMd5 : Bytes → Bytes → Digest) (md5Vector : List Bytes → Digest)

/-- The authenticator of a request, which the reply is computed over. -/
def requestAuth (request : RadiusMsg) : Digest :=
  Vector.ofFn fun i => (authenticator request).getD i 0

/-- The code of the reply; the flag that it answers is cleared. -/
def replyCode (eapIf : EapIf) : UInt8 × EapIf :=
  if eapIf.eapFail then (codeAccessReject, { eapIf with eapFail := false })
  else if eapIf.eapSuccess then (codeAccessAccept, { eapIf with eapSuccess := false })
  else (codeAccessChallenge, { eapIf with eapReq := false })

/-- The two halves of a session's key, of 32 octets at most, in an Access-Accept. -/
def addKeys (random : UInt16) (msg request : RadiusMsg) (secret key : Bytes) :
    Except Stop RadiusMsg := do
  let len := if 64 < key.length then 32 else key.length / 2
  let (_, msg) ← addMppeKeys md5Vector random msg (authenticator request) secret
    ((key.drop len).take len) (key.take len)
  return msg

/-- The reply of a session to a request, and the interface after it; `mem` says whether there is
memory for the reply. Source: `radius_server_encapsulate_eap`. -/
def encapsulateEap (secret : Bytes) (sessId : UInt32) (eapIf : EapIf) (request : RadiusMsg)
    (mem : Bool) (random : UInt16) : Except Stop (Option RadiusMsg × EapIf) := do
  let (code, eapIf) := replyCode eapIf
  if !mem then return (none, eapIf)
  else
    let msg := new code (identifier request)
    let msg := if code = codeAccessChallenge then
        (addAttr msg attrState (putBe 4 sessId.toNat)).getD msg
      else msg
    let msg := (eapIf.eapReqData).elim msg fun data => (addEap msg data).2
    let msg ← (match if code = codeAccessAccept then eapIf.eapKeyData else none with
      | some key => addKeys md5Vector random msg request secret key
      | none => return msg)
    match copyAttr msg request attrProxyState with
    | (none, _) => return (none, eapIf)
    | (some _, msg) =>
      return (some (finishSrv hmacMd5 md5Vector msg secret (requestAuth request)).2, eapIf)

/-- The reply to a request without a session. Source: `radius_server_reject`. -/
def reject (secret : Bytes) (request : RadiusMsg) (mem : Bool) : Option RadiusMsg :=
  if mem then
    match copyAttr (addEap (new codeAccessReject (identifier request)) [4, 0, 0, 4]).2 request
      attrProxyState with
    | (none, _) => none
    | (some _, msg) => some (finishSrv hmacMd5 md5Vector msg secret (requestAuth request)).2
  else none

end Digests

/-! ## The server -/

/-- What the server does to the EAP machine of a session, and what it sends to a port. -/
inductive Event
  | eapCalled (serial : ℕ)
  | sent (port : ℕ) (reply : RadiusMsg)
  deriving DecidableEq

/-- A request that was answered, by the port it came from, its identifier and its authenticator, and
the reply. -/
structure Answer where
  port : ℕ
  identifier : UInt8
  authenticator : Bytes
  reply : RadiusMsg
  deriving DecidableEq

/-- The record of a session's requests: the one answered last, the port that the request kept in
`last_msg` came from, and the port of the request that was last answered, or set aside until its
method goes on, on its arrival (zero before any). -/
structure History where
  answer : Option Answer
  setAside : ℕ
  arrival : ℕ
  deriving DecidableEq

def History.fresh : History := ⟨none, 0, 0⟩

structure ReplyingServer (M : Type*) where
  data : RadiusServerData
  eap : ℕ → Option (EapSession M)
  history : ℕ → History
  events : List Event

/-- What an operation meets: the world of `Server.lean`, of which the fields `step` and `reply` are
not used here, the state of a new EAP machine, whether there is memory for the EAP data and for the
reply, and what the random number generator gives. -/
structure Env (M : Type*) where
  world : World
  sm : M
  memEap : Bool
  memReply : Bool
  random : UInt16

section Server

variable {M : Type*}

def ReplyingServer.init (clients : List RadiusClient) (ipv6 : Bool) : ReplyingServer M where
  data := Server.init clients ipv6
  eap := fun _ => none
  history := fun _ => .fresh
  events := []

def ReplyingServer.emit (s : ReplyingServer M) (event : Event) : ReplyingServer M :=
  { s with events := s.events ++ [event] }

def ReplyingServer.setEap (s : ReplyingServer M) (serial : ℕ) (e : Option (EapSession M)) :
    ReplyingServer M :=
  { s with eap := Function.update s.eap serial e }

def ReplyingServer.setHistory (s : ReplyingServer M) (serial : ℕ) (f : History → History) :
    ReplyingServer M :=
  { s with history := Function.update s.history serial (f (s.history serial)) }

variable (machine : EapServer M) (hmacMd5 : Bytes → Bytes → Digest)
  (md5Vector : List Bytes → Digest)

/-- The way of a request on which a session is asked: from a client with a secret, from a port,
anew or after it was stored with the session. -/
structure Way where
  secret : Bytes
  /-- The `from_port` of the call. -/
  fromPort : ℕ
  /-- The port that the request came from. -/
  origin : ℕ
  forced : Bool

/-- The world that the machine and the reply make. -/
def Env.seen (env : Env M) (e : EapSession M) (reply : Option RadiusMsg) : World :=
  { env.world with step := e.seen machine, reply }

def reply (s : ReplyingServer M) (serial : ℕ) (msg : RadiusMsg) (way : Way) (w : World) :
    ReplyingServer M :=
  match w.reply with
  | none => s
  | some reply =>
    ({ s with data := storeReply s.data serial msg way.fromPort w }.emit
      (.sent way.origin reply)).setHistory serial fun h =>
        { h with
          answer := some ⟨way.origin, identifier msg, authenticator msg, reply⟩
          arrival := if way.forced then h.arrival else way.origin }

/-- Register the removal of a session whose conversation is over. -/
def complete (s : ReplyingServer M) (serial : ℕ) (w : World) : ReplyingServer M :=
  if w.step.complete then { s with data := completeSession s.data serial w } else s

/-- Answer a request with what the EAP machine has for the peer. -/
def answer (s : ReplyingServer M) (serial : ℕ) (sessId : UInt32) (e : EapSession M)
    (msg : RadiusMsg) (way : Way) (env : Env M) : Option (ℤ × ReplyingServer M) :=
  match encapsulateEap hmacMd5 md5Vector way.secret sessId e.eapIf msg env.memReply env.random with
  | .error _ => none
  | .ok (r, eapIf) =>
    let w := env.seen machine e r
    some (0, complete (reply (s.setEap serial (some ⟨e.sm, eapIf⟩)) serial msg way w) serial w)

/-- A request for a session, with the value returned. Source: `radius_server_request`, from the
check for duplicates on. -/
def request (s : ReplyingServer M) (serial : ℕ) (msg : RadiusMsg) (way : Way) (env : Env M) :
    Option (ℤ × ReplyingServer M) :=
  match session s.data serial, s.eap serial with
  | none, _ => some (-1, s)
  -- a session without a machine has been freed
  | some _, none => none
  | some sess, some e =>
    if sess.isDuplicate msg way.fromPort then
      match sess.lastReply with
      | some reply => some (0, s.emit (.sent way.origin reply))
      | none => some (-1, s)
    else
      match getEap msg with
      | none => some (-1, s)
      | some eap =>
        let e := e.receive machine eap env.memEap
        let s := (s.setEap serial (some e)).emit (.eapCalled serial)
        if (e.seen machine).answers then
          answer machine hmacMd5 md5Vector s serial sess.sessId e msg way env
        else if (e.seen machine).methodPending then
          if way.forced then none
          else
            some (-2, { s with data := modifySession s.data serial fun sess => { sess with
              lastMsg := some msg
              lastFromPort := way.fromPort } }.setHistory serial fun h =>
                { h with setAside := way.origin, arrival := way.origin })
        else some (-1, s)

def rejectRequest (s : ReplyingServer M) (msg : RadiusMsg) (secret : Bytes) (fromPort : ℕ)
    (env : Env M) : ReplyingServer M :=
  match reject hmacMd5 md5Vector secret msg env.memReply with
  | some reply => s.emit (.sent fromPort reply)
  | none => s

/-- The secret that the server shares with a client. -/
def clientSecret (d : RadiusServerData) (client : ℕ) : Bytes :=
  (d.clients[client]?).elim [] RadiusClient.sharedSecret

/-- A request without a session of its own is for the one its State attribute names, or for a new
one. Source: `radius_server_request`. -/
def clientRequest (s : ReplyingServer M) (client : ℕ) (msg : RadiusMsg) (fromPort : ℕ)
    (env : Env M) : Option (ℤ × ReplyingServer M) :=
  let secret := clientSecret s.data client
  let way : Way := ⟨secret, fromPort, fromPort, false⟩
  match getAttrOf msg attrState with
  | some state =>
    match stateSession s.data client state with
    | some serial => request machine hmacMd5 md5Vector s serial msg way env
    | none => some (-1, rejectRequest hmacMd5 md5Vector s msg secret fromPort env)
  | none =>
    match getNewSession s.data client msg env.world with
    | (some serial, d) =>
      let s := ({ s with data := d }.setEap serial (some ⟨env.sm, .fresh⟩)).setHistory serial
        fun _ => .fresh
      request machine hmacMd5 md5Vector s serial msg way env
    | (none, d) =>
      -- a session that was freed again has no machine and was asked for nothing
      let s := ({ s with data := d }.setEap s.data.created none).setHistory s.data.created
        fun _ => .fresh
      some (-1, rejectRequest hmacMd5 md5Vector s msg secret fromPort env)

/-- Source: `radius_server_receive_auth`. -/
def receiveRequest (s : ReplyingServer M) (buf : Bytes) (addr : BitVec 32) (addr6 : BitVec 128)
    (fromPort : ℕ) (env : Env M) : Option (ReplyingServer M) :=
  match accessRequest hmacMd5 s.data buf addr addr6 env.world with
  | none => some s
  | some (client, msg) =>
    (clientRequest machine hmacMd5 md5Vector s client msg fromPort env).map Prod.snd

/-- The secret of the client whose session waits for a callback. -/
def pendingSecret (d : RadiusServerData) (ctx : ℕ) : Bytes :=
  (d.clients.find? fun client => client.sessions.any fun sess =>
    sess.eap = some ctx && sess.lastMsg.isSome).elim [] RadiusClient.sharedSecret

/-- Take up a stored request again. Source: `radius_server_eap_pending_cb`. -/
def pendingCb (s : ReplyingServer M) (ctx : ℕ) (env : Env M) : Option (ReplyingServer M) :=
  match pendingSession s.data ctx with
  | none => some s
  | some (sess, msg) =>
    let way : Way := ⟨pendingSecret s.data ctx, sess.lastFromPort,
      (s.history sess.serial).setAside, true⟩
    let s := { s with data := modifySession s.data sess.serial fun sess =>
      { sess with lastMsg := none } }
    let s := (s.setEap sess.serial ((s.eap sess.serial).map fun e =>
      { e with sm := machine.pendingCb e.sm })).emit (.eapCalled sess.serial)
    (request machine hmacMd5 md5Vector s sess.serial msg way env).map Prod.snd

inductive ReplyOp (M : Type*)
  | receiveAuth (buf : Bytes) (addr : BitVec 32) (addr6 : BitVec 128) (fromPort : ℕ) (env : Env M)
  | eapPendingCb (ctx : ℕ) (env : Env M)
  | timeout (kind : TimeoutKind) (serial : ℕ)

def replyExec (s : ReplyingServer M) : ReplyOp M → Option (ReplyingServer M)
  | .receiveAuth buf addr addr6 fromPort env =>
    receiveRequest machine hmacMd5 md5Vector s buf addr addr6 fromPort env
  | .eapPendingCb ctx env => pendingCb machine hmacMd5 md5Vector s ctx env
  | .timeout kind serial => some { s with data := timeout s.data kind serial }

def replyStep (s : Option (ReplyingServer M)) (op : ReplyOp M) : Option (ReplyingServer M) :=
  s.bind fun s => replyExec machine hmacMd5 md5Vector s op

/-! ## What a request can do -/

variable {machine hmacMd5 md5Vector}

/-- The state after the EAP machine has been given the data of a request. -/
def ReplyingServer.called (s : ReplyingServer M) (serial : ℕ) (e : EapSession M) :
    ReplyingServer M :=
  (s.setEap serial (some e)).emit (.eapCalled serial)

/-- The request is new to a session with a machine, and carries the EAP data that lead to `e'`. -/
structure Taken (machine : EapServer M) (s : ReplyingServer M) (serial : ℕ) (msg : RadiusMsg)
    (way : Way) (env : Env M) (e' : EapSession M) : Prop where
  fresh : ∃ sess, session s.data serial = some sess ∧ sess.isDuplicate msg way.fromPort = false
  machine : ∃ e eap, s.eap serial = some e ∧ getEap msg = some eap ∧
    e' = e.receive machine eap env.memEap

inductive Requested (machine : EapServer M) (s : ReplyingServer M) (serial : ℕ) (msg : RadiusMsg)
    (way : Way) (env : Env M) : ℤ → ReplyingServer M → Prop
  | gone (hsess : session s.data serial = none) : Requested machine s serial msg way env (-1) s
  | resent (sess : RadiusSession) (reply : RadiusMsg) (hsess : session s.data serial = some sess)
      (hdup : sess.isDuplicate msg way.fromPort = true) (hreply : sess.lastReply = some reply) :
      Requested machine s serial msg way env 0 (s.emit (.sent way.origin reply))
  | repeated (sess : RadiusSession) (hsess : session s.data serial = some sess)
      (hdup : sess.isDuplicate msg way.fromPort = true) (hreply : sess.lastReply = none) :
      Requested machine s serial msg way env (-1) s
  | noEap (sess : RadiusSession) (hsess : session s.data serial = some sess)
      (hdup : sess.isDuplicate msg way.fromPort = false) (heap : getEap msg = none) :
      Requested machine s serial msg way env (-1) s
  | answered (e : EapSession M) (htaken : Taken machine s serial msg way env e)
      (hanswers : (e.seen machine).answers = true) (r : Option RadiusMsg) (eapIf : EapIf) :
      Requested machine s serial msg way env 0
        (complete (reply ((s.called serial e).setEap serial (some ⟨e.sm, eapIf⟩)) serial msg way
          (env.seen machine e r)) serial (env.seen machine e r))
  | setAside (e : EapSession M) (htaken : Taken machine s serial msg way env e)
      (hanswers : (e.seen machine).answers = false)
      (hpending : (e.seen machine).methodPending = true) (hforced : way.forced = false) :
      Requested machine s serial msg way env (-2)
        (ReplyingServer.setHistory { s.called serial e with
          data := modifySession s.data serial fun sess =>
            { sess with lastMsg := some msg, lastFromPort := way.fromPort } } serial fun h =>
          { h with setAside := way.origin, arrival := way.origin })
  | ignored (e : EapSession M) (htaken : Taken machine s serial msg way env e)
      (hanswers : (e.seen machine).answers = false)
      (hpending : (e.seen machine).methodPending = false) :
      Requested machine s serial msg way env (-1) (s.called serial e)

theorem request_cases {s s' : ReplyingServer M} {serial : ℕ} {msg : RadiusMsg} {way : Way}
    {env : Env M} {r : ℤ}
    (h : request machine hmacMd5 md5Vector s serial msg way env = some (r, s')) :
    Requested machine s serial msg way env r s' := by
  rw [request] at h
  split at h
  next hsess =>
    cases h
    exact .gone hsess
  next => cases h
  next sess e hsess he =>
    split at h
    next hdup =>
      split at h
      next reply hreply =>
        cases h
        exact .resent sess reply hsess hdup hreply
      next hreply =>
        cases h
        exact .repeated sess hsess hdup hreply
    next hdup =>
      have hfresh : sess.isDuplicate msg way.fromPort = false := Bool.not_eq_true _ ▸ hdup
      split at h
      next heap =>
        cases h
        exact .noEap sess hsess hfresh heap
      next eap heap =>
        have htaken : Taken machine s serial msg way env (e.receive machine eap env.memEap) :=
          ⟨⟨sess, hsess, hfresh⟩, e, eap, he, heap, rfl⟩
        simp only at h
        generalize e.receive machine eap env.memEap = e' at h htaken
        split at h
        next hanswers =>
          rw [answer] at h
          split at h
          · cases h
          · cases h
            exact .answered e' htaken hanswers _ _
        next hanswers =>
          have hquiet : (e'.seen machine).answers = false := Bool.not_eq_true _ ▸ hanswers
          split at h
          next hpending =>
            split at h
            · cases h
            next hforced =>
              cases h
              exact .setAside e' htaken hquiet hpending (Bool.not_eq_true _ ▸ hforced)
          next hpending =>
            cases h
            exact .ignored e' htaken hquiet (Bool.not_eq_true _ ▸ hpending)

end Server

end Hostapd.Radius.Server
