import Hostapd.Radius.Client

/-!
# Access control by an external RADIUS server

`ieee802_11_auth.c`: before a station may authenticate, the access point asks a RADIUS server and
keeps the answer for a while. The requests go through the RADIUS client that carries the EAP and
accounting messages too, but the questions wait in a list of their own, keyed by the identifier.

* **`AclQuery`**, **`CachedAcl`**, and `Bss`, which holds both lists and the client.
* **`allowedAddress`** answers from the lists of the configuration and from the cache, or asks the
  server with `radiusAclQuery`; **`recvRadius`** is the handler of the server's answers and
  `expire` the timer.
* **`eapRequest`**, `acctRequest`: how the other requests of the access point reach the client.
* **The record** stands beside the data of the source and no function reads it: the requests that
  were generated for a station, and the answers that were taken as acceptances.

A response is offered to `recvRadius` first; the authentication frame that is sent again after an
answer finds it in the cache, and the 802.1X handler, which is offered the rest, does not touch this
component.
-/

namespace Hostapd.Ap.Acl

open Hostapd.Lib Hostapd.Radius Hostapd.Radius.Client

/-! ## The data -/

/-- How long a query and its answer are kept, in seconds. Source: `RADIUS_ACL_TIMEOUT`. -/
def radiusAclTimeout : ℤ := 30

/-- Source: `ieee802_11_auth.h`, `HOSTAPD_ACL_*`. -/
inductive HostapdAcl
  | reject | accept | pending | acceptTimeout
  deriving DecidableEq

/-- Source: `ap_config.h`, the modes of `macaddr_acl`. -/
inductive MacaddrAcl
  | acceptUnlessDenied | denyUnlessAccepted | useExternalRadiusAuth
  deriving DecidableEq

/-- Source: `ap_config.h`, `struct mac_acl_entry`. -/
structure MacAclEntry where
  addr : MacAddr
  vlanId : ℤ
  deriving DecidableEq

/-- The configuration that the access control reads. -/
structure AclConf where
  macaddrAcl : MacaddrAcl
  acceptMac : List MacAclEntry
  denyMac : List MacAclEntry
  ownIpAddr : Option Bytes
  ownIpv6Addr : Option Bytes
  nasIdentifier : Option Bytes
  ownAddr : MacAddr
  ssid : Bytes

/-- A query without an answer yet. Source: `struct hostapd_acl_query_data`. -/
structure AclQuery where
  timestamp : ℤ
  radiusId : UInt8
  addr : MacAddr
  authMsg : Bytes
  deriving DecidableEq

/-- An answer of the server. Source: `struct hostapd_cached_radius_acl`. -/
structure CachedAcl where
  timestamp : ℤ
  addr : MacAddr
  accepted : HostapdAcl
  sessionTimeout : ℕ
  acctInterimInterval : ℕ
  vlanId : ℤ
  deriving DecidableEq

/-- The record of an acceptance: the station, the server's message, the request it was verified
against, and the secret. -/
structure Acceptance where
  addr : MacAddr
  msg : RadiusMsg
  req : RadiusMsg
  sharedSecret : Bytes

/-- The access control of a BSS with the RADIUS client it shares. Source: `struct hostapd_data`. -/
structure Bss where
  client : RadiusClientData
  aclQueries : List AclQuery
  aclCache : List CachedAcl
  /-- The requests of `radiusAclQuery`, as they were sent, with the station each is for. -/
  generated : List (MacAddr × RadiusMsg)
  /-- The acceptances so far. -/
  acceptances : List Acceptance

def init (auth acct : Service) : Bss where
  client := Client.init auth acct
  aclQueries := []
  aclCache := []
  generated := []
  acceptances := []

/-! ## The lists of the configuration -/

/-- The binary search of `hostapd_maclist_found`, with a bound on the number of its rounds. -/
def maclistSearch (list : List MacAclEntry) (addr : MacAddr) : ℕ → ℤ → ℤ → Option ℤ
  | 0, _, _ => none
  | n + 1, start, last =>
    if start ≤ last then
      let middle := (start + last) / 2
      match list[middle.toNat]? with
      | none => none
      | some entry =>
        if entry.addr = addr then some entry.vlanId
        else if entry.addr < addr then maclistSearch list addr n (middle + 1) last
        else maclistSearch list addr n start (middle - 1)
    else none

/-- The VLAN of an address in a sorted list. Source: `ap_config.c`, `hostapd_maclist_found`. -/
def maclistFound (list : List MacAclEntry) (addr : MacAddr) : Option ℤ :=
  maclistSearch list addr (list.length + 1) 0 (list.length - 1)

/-- The first entry of the cache for an address, if it has not expired.
Source: `hostapd_acl_cache_get`. -/
def aclCacheGet (s : Bss) (addr : MacAddr) (now : ℤ) : Option CachedAcl :=
  match s.aclCache.find? fun entry => entry.addr = addr with
  | none => none
  | some entry => if now - entry.timestamp > radiusAclTimeout then none else some entry

/-! ## Requests -/

section Digests

variable (hmacMd5 : Bytes → Bytes → Digest) (md5Vector : List Bytes → Digest)

/-- The attributes of the request for a station. Source: `hostapd_radius_acl_query`. -/
def aclAttrs (conf : AclConf) (addr : MacAddr) (password : Bytes) : List Record :=
  [(attrUserName, radiusAddrFormat addr), (attrUserPassword, password)] ++
    (conf.ownIpAddr.map fun ip => (attrNasIpAddress, ip)).toList ++
    (conf.ownIpv6Addr.map fun ip => (attrNasIpv6Address, ip)).toList ++
    (conf.nasIdentifier.map fun nas => (attrNasIdentifier, nas)).toList ++
    [(attrCalledStationId,
        (radius8021xAddrFormat conf.ownAddr ++ [58] ++ conf.ssid).take 127),
      (attrCallingStationId, radius8021xAddrFormat addr),
      (attrNasPortType, putBe 4 nasPortTypeIeee80211),
      (attrConnectInfo, "CONNECT 11Mbps 802.11b".toUTF8.toList)]

/-- A request with an authenticator in its header. Source: `radius_msg_new`,
`radius_msg_make_authenticator`. -/
def newRequest (code identifier : UInt8) (reqAuth : Digest) : RadiusMsg :=
  (new code identifier).write 4 reqAuth.toList

/-- The request for a station, without its Message-Authenticator; `none` when an attribute cannot
be added. -/
def aclRequest (conf : AclConf) (addr : MacAddr) (identifier : UInt8) (reqAuth : Digest)
    (sharedSecret : Bytes) : Option RadiusMsg :=
  (hideUserPassword md5Vector reqAuth.toList (radiusAddrFormat addr) sharedSecret).bind
    fun password =>
      addAttrs (newRequest codeAccessRequest identifier reqAuth) (aclAttrs conf addr password)

/-- What `hostapd_allowed_address` meets: the clock, the random authenticator of its request, whether
there is memory for the query, for the message and for the copy of the frame, and what
`radius_client_send` meets. -/
structure QueryWorld where
  now : ℤ
  reqAuth : Digest
  memQuery : Bool
  memMsg : Bool
  memAuthMsg : Bool
  send : SendWorld

/-- Ask the server about a station; `none` when the request cannot be built, else the identifier.
Source: `hostapd_radius_acl_query`. -/
def radiusAclQuery (conf : AclConf) (s : Bss) (server : HostapdRadiusServer) (addr : MacAddr)
    (w : QueryWorld) : Option UInt8 × Bss :=
  let (id, client) := getId s.client
  let s := { s with client }
  match if w.memMsg then aclRequest md5Vector conf addr id w.reqAuth server.sharedSecret
    else none with
  | none => (none, s)
  | some msg =>
    (some id, { s with
      client := (send hmacMd5 md5Vector s.client msg .auth (some addr) w.send).2
      generated := s.generated ++ [(addr, (finish hmacMd5 msg server.sharedSecret).2)] })

/-- What `hostapd_allowed_address` returns, with the values behind its pointers. -/
structure Allowed where
  res : HostapdAcl
  sessionTimeout : ℕ
  acctInterimInterval : ℕ
  vlanId : ℤ
  deriving DecidableEq

def Allowed.plain (res : HostapdAcl) : Allowed := ⟨res, 0, 0, 0⟩

/-- The answer for a station that the cache does not know: a new query, unless one is waiting.
Source: the end of `hostapd_allowed_address`. -/
def askServer (conf : AclConf) (s : Bss) (addr : MacAddr) (authMsg : Bytes) (w : QueryWorld) :
    HostapdAcl × Bss :=
  if s.aclQueries.any fun query => query.addr = addr then (.pending, s)
  else
    match s.client.auth.current with
    | none => (.reject, s)
    | some server =>
      if w.memQuery then
        match radiusAclQuery hmacMd5 md5Vector conf s server addr w with
        | (none, s) => (.reject, s)
        | (some radiusId, s) =>
          if w.memAuthMsg then
            (.pending, { s with
              aclQueries := ⟨w.now, radiusId, addr, authMsg⟩ :: s.aclQueries })
          else (.reject, s)
      else (.reject, s)

/-- Whether a station may authenticate. Source: `hostapd_allowed_address`. -/
def allowedAddress (conf : AclConf) (s : Bss) (addr : MacAddr) (authMsg : Bytes) (w : QueryWorld) :
    Allowed × Bss :=
  match maclistFound conf.acceptMac addr with
  | some vlanId => (⟨.accept, 0, 0, vlanId⟩, s)
  | none =>
    match maclistFound conf.denyMac addr with
    | some vlanId => (⟨.reject, 0, 0, vlanId⟩, s)
    | none =>
      match conf.macaddrAcl with
      | .acceptUnlessDenied => (.plain .accept, s)
      | .denyUnlessAccepted => (.plain .reject, s)
      | .useExternalRadiusAuth =>
        match aclCacheGet s addr w.now with
        | some entry =>
          (⟨entry.accepted, if entry.accepted = .acceptTimeout then entry.sessionTimeout else 0,
            entry.acctInterimInterval, entry.vlanId⟩, s)
        | none =>
          let (res, s) := askServer hmacMd5 md5Vector conf s addr authMsg w
          (.plain res, s)

/-- An EAP message in an Access-Request, with the attributes of the 802.1X machine; the message is
freed when `radius_client_send` fails, and `none` says that the client still holds it.
Source: `ieee802_1x.c`, `ieee802_1x_encapsulate_radius`. -/
def eapRequest (s : Bss) (addr : MacAddr) (reqAuth : Digest) (attrs : List Record)
    (w : SendWorld) : Option Bss :=
  let (id, client) := getId s.client
  let s := { s with client }
  match addAttrs (newRequest codeAccessRequest id reqAuth) attrs with
  | none => some s
  | some msg =>
    if s.client.auth.current.isSome ∧ w.sent ≠ .ok then none
    else some { s with client := (send hmacMd5 md5Vector s.client msg .auth (some addr) w).2 }

/-- An accounting message. Source: `accounting.c`, `accounting_msg` and its callers. -/
def acctRequest (s : Bss) (msgType : RadiusType) (addr : Option MacAddr) (reqAuth : Digest)
    (attrs : List Record) (w : SendWorld) : Bss :=
  let (id, client) := getId s.client
  let s := { s with client }
  match addAttrs (newRequest codeAccountingRequest id reqAuth) attrs with
  | none => s
  | some msg => { s with client := (send hmacMd5 md5Vector s.client msg msgType addr w).2 }

/-! ## Answers -/

/-- What the handler of an answer meets: the clock, and whether there is memory for the cache. -/
structure RecvWorld where
  now : ℤ
  mem : Bool

def cacheEntry (msg : RadiusMsg) (addr : MacAddr) (now : ℤ) : CachedAcl :=
  if code msg = codeAccessAccept then
    let sessionTimeout := getAttrInt32 msg attrSessionTimeout
    let interval := (getAttrInt32 msg attrAcctInterimInterval).getD 0
    { timestamp := now, addr
      accepted := if sessionTimeout.isSome then .acceptTimeout else .accept
      sessionTimeout := sessionTimeout.getD 0
      acctInterimInterval := if interval < 60 then 0 else interval
      vlanId := getVlanid msg }
  else ⟨now, addr, .reject, 0, 0, 0⟩

/-- The handler of the client's authentication messages: the first query with the identifier of the
response is answered, when the response verifies against the request that the client has matched it
with. Source: `hostapd_acl_recv_radius`. -/
def recvRadius (s : Bss) (msg req : RadiusMsg) (sharedSecret : Bytes) (w : RecvWorld) :
    RadiusRxResult × Bss :=
  match s.aclQueries.find? fun query => query.radiusId = identifier msg with
  | none => (.unknown, s)
  | some query =>
    if verify hmacMd5 md5Vector msg sharedSecret (some req) false ≠ 0 then
      (.invalidAuthenticator, s)
    else if code msg ≠ codeAccessAccept ∧ code msg ≠ codeAccessReject then (.unknown, s)
    else
      let s :=
        if w.mem then
          { s with
            aclCache := cacheEntry msg query.addr w.now :: s.aclCache
            acceptances := if code msg = codeAccessAccept then
              s.acceptances ++ [⟨query.addr, msg, req, sharedSecret⟩] else s.acceptances }
        else s
      (.processed, { s with
        aclQueries := s.aclQueries.eraseP fun query => query.radiusId = identifier msg })

/-- A datagram on the socket for authentication: the client unlinks the request it matches and
offers the message to `recvRadius`. -/
def recvAuth (s : Bss) (buf : Bytes) (w : RecvWorld) : Bss :=
  let s' := { s with client := (receive s.client .auth buf).2 }
  if recvBufLen ≤ buf.length then s'
  else
    match parse buf with
    | none => s'
    | some msg =>
      match s.client.msgs.find? (RadiusMsgList.answeredBy .auth (identifier msg)) with
      | none => s'
      | some req => (recvRadius hmacMd5 md5Vector s' msg req.msg req.sharedSecret w).2

def expired (now timestamp : ℤ) : Bool := now - timestamp > radiusAclTimeout

/-- Source: `hostapd_acl_expire`, `hostapd_acl_expire_cache`, `hostapd_acl_expire_queries`. -/
def expire (s : Bss) (now : ℤ) : Bss :=
  { s with
    aclCache := s.aclCache.filter fun entry => !expired now entry.timestamp
    aclQueries := s.aclQueries.filter fun query => !expired now query.timestamp }

/-! ## Runs -/

/-- The operations of the client that neither send a message nor receive one for authentication. -/
def quiet : Client.Op → Bool
  | .send _ _ _ _ => false
  | .receive msgType _ => msgType ≠ .auth
  | _ => true

/-- What happens to the access control and to the client it shares. -/
inductive Op
  | allowedAddress (addr : MacAddr) (authMsg : Bytes) (w : QueryWorld)
  | eapRequest (addr : MacAddr) (reqAuth : Digest) (attrs : List Record) (w : SendWorld)
  | acctRequest (interim : Bool) (addr : Option MacAddr) (reqAuth : Digest) (attrs : List Record)
      (w : SendWorld)
  | recvAuth (buf : Bytes) (w : RecvWorld)
  | expire (now : ℤ)
  | client (op : { op : Client.Op // quiet op = true })

/-- One operation; `none` when memory is used that was freed. -/
def exec (conf : AclConf) (s : Bss) : Op → Option Bss
  | .allowedAddress addr authMsg w =>
    some (allowedAddress hmacMd5 md5Vector conf s addr authMsg w).2
  | .eapRequest addr reqAuth attrs w => eapRequest hmacMd5 md5Vector s addr reqAuth attrs w
  | .acctRequest interim addr reqAuth attrs w =>
    some (acctRequest hmacMd5 md5Vector s (if interim then .acctInterim else .acct) addr reqAuth
      attrs w)
  | .recvAuth buf w => some (recvAuth hmacMd5 md5Vector s buf w)
  | .expire now => some (expire s now)
  | .client op =>
    (Client.exec hmacMd5 md5Vector s.client op.1).map fun client => { s with client }

def step (conf : AclConf) (s : Option Bss) (op : Op) : Option Bss :=
  s.bind fun s => exec hmacMd5 md5Vector conf s op

end Digests

end Hostapd.Ap.Acl
