import Hostapd.Common.Defs
import Hostapd.Lib.Octets

/-!
# The EAP server: data and policy

`eap_i.h` and the helpers of `eap_server.c`: the variables of the authenticator state machine of
RFC 4137, the parser of responses, and the policy that decides which method comes next and when the
conversation is over.

* **`EapMethod`**: a registered method, as functions on its own data and on the variables of the
  machine that methods write (`MethodVars`).
* **`EapSm`**: the machine. It ends with a record of the responses given to methods, which the
  source does not keep.

A pointer to a method's data that is NULL where the source follows it makes the result `none`.
-/

namespace Hostapd.EapServer

open Hostapd.Lib

/-! ## Constants -/

/-- Source: `eap_defs.h`, `EapType`. -/
abbrev EapType := UInt32

/-- Source: `EAP_TYPE_NONE`. -/
def typeNone : EapType := 0

/-- Source: `EAP_TYPE_IDENTITY`. -/
def typeIdentity : EapType := 1

/-- Source: `EAP_TYPE_NOTIFICATION`. -/
def typeNotification : EapType := 2

/-- Source: `EAP_TYPE_NAK`. -/
def typeNak : EapType := 3

/-- Source: `EAP_TYPE_EXPANDED`. -/
def typeExpanded : EapType := 254

/-- Source: `EAP_VENDOR_IETF`. -/
def vendorIetf : ℤ := 0

/-- Source: `EAP_CODE_RESPONSE`. -/
def codeResponse : UInt8 := 2

/-- Source: `EAP_CODE_SUCCESS`. -/
def codeSuccess : UInt8 := 3

/-- Source: `EAP_CODE_FAILURE`. -/
def codeFailure : UInt8 := 4

/-- Source: `sizeof(struct eap_hdr)`. -/
def hdrLen : ℕ := 4

/-- Source: `EAP_MAX_METHODS`. -/
def maxMethods : ℕ := 8

/-- Source: `EAP_MAX_AUTH_ROUNDS`. -/
def maxAuthRounds : ℕ := 50

/-! ## The variables of the machine -/

/-- The states. Source: `struct eap_sm`, `EAP_state`. -/
inductive EapState
  | disabled | initialise | idle | received | integrityCheck | methodResponse | methodRequest
  | proposeMethod | selectAction | sendRequest | discard | nak | retransmit | success | failure
  | timeoutFailure | pickUpMethod | initializePassthrough | idle2 | retransmit2 | received2
  | discard2 | sendRequest2 | aaaRequest | aaaResponse | aaaIdle | timeoutFailure2 | failure2
  | success2
  deriving DecidableEq

/-- Source: `struct eap_sm`, `methodState`. -/
inductive MethodState
  | proposed | cont | done
  deriving DecidableEq

/-- Source: `struct eap_sm`, `decision`. -/
inductive Decision
  | success | failure | cont | passthrough
  deriving DecidableEq

/-- Source: `struct eap_sm`, `method_pending`. -/
inductive MethodPending
  | none | wait | cont
  deriving DecidableEq

/-- What the user database knows. An entry behind the end of `methods` reads as its terminator, the
IETF type NONE. Source: `struct eap_user`. -/
structure EapUser where
  methods : List (ℤ × EapType)
  phase2 : Bool
  deriving DecidableEq

def noMethod : ℤ × EapType := (vendorIetf, typeNone)

/-- The vendor and type of the method at an index. -/
def EapUser.methodAt (user : EapUser) (idx : ℕ) : ℤ × EapType := user.methods.getD idx noMethod

def EapUser.hasMethod (user : EapUser) (idx : ℕ) : Bool :=
  idx < maxMethods && user.methodAt idx ≠ noMethod

/-- The interface variables that the layers below and behind the machine write between its steps.
Source: `struct eap_eapol_interface`. -/
structure LowerIf where
  eapResp : Bool
  eapRespData : Option Bytes
  portEnabled : Bool
  retransWhile : ℤ
  eapRestart : Bool
  eapReq : Bool
  eapNoReq : Bool
  eapSuccess : Bool
  eapFail : Bool
  eapTimeout : Bool
  eapKeyAvailable : Bool
  aaaEapReq : Bool
  aaaEapNoReq : Bool
  aaaSuccess : Bool
  aaaFail : Bool
  aaaEapReqData : Option Bytes
  aaaEapKeyData : Option Bytes
  aaaEapKeyAvailable : Bool
  aaaMethodTimeout : ℤ
  aaaEapResp : Bool
  aaaTimeout : Bool

/-- The variables of the machine that methods write. -/
structure MethodVars where
  identity : Option Bytes
  user : Option EapUser
  userEapMethodIndex : ℕ
  updateUser : Bool
  methodPending : MethodPending
  maxRetrans : ℤ

/-- A method with data `π`; `ω` is what its functions meet outside the machine. `event` is what a
timeout of the method's own does to its data (`eap_wsc_ext_reg_timeout`). Freeing the data (`reset`)
writes to nothing else. Source: `struct eap_method`. -/
structure EapMethod (π ω : Type) where
  vendor : ℤ
  method : EapType
  init : ω → MethodVars → Option π × MethodVars
  initPickUp : Option (ω → MethodVars → Option π × MethodVars)
  buildReq : ω → MethodVars → π → UInt8 → Option Bytes × π × MethodVars
  getTimeout : Option (MethodVars → π → ℤ × MethodVars)
  check : Option (ω → MethodVars → π → Option Bytes → Bool)
  process : ω → MethodVars → π → Option Bytes → π × MethodVars
  isDone : π → Bool
  getKey : Option (ω → π → Option Bytes)
  isSuccess : π → Bool
  event : ω → π → π

/-- What was parsed of a response. Source: `struct eap_sm`, the short-term variables. -/
structure Resp where
  rxResp : Bool
  respId : ℤ
  respMethod : EapType
  respVendor : ℤ
  respVendorMethod : EapType
  deriving DecidableEq

/-- A response given to a method: the state the machine came from, the response, the number of the
method's data, and what the method returned for a key if it was asked. -/
structure Processed where
  cameFrom : EapState
  resp : Option Bytes
  serial : ℕ
  key : Option (Option Bytes)
  deriving DecidableEq

/-- The machine. Source: `struct eap_sm`. -/
structure EapSm (π ω : Type) extends LowerIf, MethodVars, Resp where
  eapState : EapState
  currentMethod : EapType
  currentId : ℤ
  methodState : MethodState
  retransCount : ℤ
  lastReqData : Option Bytes
  methodTimeout : ℤ
  ignore : Bool
  decision : Decision
  m : Option (EapMethod π ω)
  eapMethodPriv : Option π
  changed : Bool
  lastId : ℤ
  backendAuth : Bool
  eapServer : Bool
  numRounds : ℕ
  startReauth : Bool
  eapReqData : Option Bytes
  eapKeyData : Option Bytes
  aaaEapRespData : Option Bytes
  /-- How often a method got data of its own; the number of the current data. -/
  instances : ℕ
  /-- The responses given to methods since INITIALIZE was entered. -/
  processed : List Processed

/-- What a step meets: what a method meets, the user database, a random octet, and whether there is
memory for a copy, for a copied key, and for a message of the machine's own. -/
structure World (ω : Type) where
  env : ω
  getEapUser : Bytes → Option EapUser
  rand : UInt8
  memDup : Bool
  memKey : Bool
  memMsg : Bool

variable {π ω : Type}

/-- A machine as it is allocated. Source: `eap_server_sm_init`. -/
def init (eapServer backendAuth : Bool) : EapSm π ω where
  eapResp := false
  eapRespData := none
  portEnabled := false
  retransWhile := 0
  eapRestart := false
  eapReq := false
  eapNoReq := false
  eapSuccess := false
  eapFail := false
  eapTimeout := false
  eapKeyAvailable := false
  aaaEapReq := false
  aaaEapNoReq := false
  aaaSuccess := false
  aaaFail := false
  aaaEapReqData := none
  aaaEapKeyData := none
  aaaEapKeyAvailable := false
  aaaMethodTimeout := 0
  aaaEapResp := false
  aaaTimeout := false
  identity := none
  user := none
  userEapMethodIndex := 0
  updateUser := false
  methodPending := .none
  maxRetrans := 5
  rxResp := false
  respId := 0
  respMethod := typeNone
  respVendor := vendorIetf
  respVendorMethod := typeNone
  eapState := .disabled
  currentMethod := typeNone
  currentId := 0
  methodState := .proposed
  retransCount := 0
  lastReqData := none
  methodTimeout := 0
  ignore := false
  decision := .success
  m := none
  eapMethodPriv := none
  changed := false
  lastId := 0
  backendAuth := backendAuth
  eapServer := eapServer
  numRounds := 0
  startReauth := false
  eapReqData := none
  eapKeyData := none
  aaaEapRespData := none
  instances := 0
  processed := []

/-! ## Responses and identifiers -/

/-- Copy a buffer over another one, with the value returned.
Source: `eap_copy_buf`, `eap_copy_data`. -/
def copyBuf (dst src : Option Bytes) (mem : Bool) : Bool × Option Bytes :=
  match src with
  | none => (false, dst)
  | some _ => if mem then (true, src) else (false, none)

/-- The header of a packet: code, identifier and length. Source: `struct eap_hdr`. -/
def hdr (buf : Bytes) : UInt8 × UInt8 × ℕ :=
  (buf.getD 0 0, buf.getD 1 0, beNat ((buf.drop 2).take 2))

/-- Source: `eap_sm_parseEapResp`. -/
def parseEapResp (resp : Option Bytes) : Resp :=
  let none_ : Resp := ⟨false, -1, typeNone, vendorIetf, typeNone⟩
  match resp with
  | none => none_
  | some buf =>
    let (code, identifier, plen) := hdr buf
    if buf.length < hdrLen ∨ buf.length < plen then none_
    else
      let r := { none_ with respId := identifier.toNat, rxResp := code = codeResponse }
      if hdrLen < plen then
        let r := { r with respMethod := (buf.getD hdrLen 0).toUInt32 }
        if r.respMethod = typeExpanded ∧ hdrLen + 8 ≤ plen then
          { r with
            respVendor := beNat ((buf.drop (hdrLen + 1)).take 3)
            respVendorMethod := UInt32.ofNat (beNat ((buf.drop (hdrLen + 4)).take 4)) }
        else r
      else r

def Resp.isOf (r : Resp) (type : EapType) : Bool :=
  r.respMethod = type ||
    r.respMethod = typeExpanded && r.respVendor = vendorIetf && r.respVendorMethod = type

/-- Source: `eap_sm_getId`. -/
def getId (data : Option Bytes) : ℤ :=
  match data with
  | none => -1
  | some buf => if buf.length < hdrLen then -1 else ((hdr buf).2.1.toNat : ℤ)

def idOctet (id : ℤ) : UInt8 := UInt8.ofNat (id % 256).toNat

/-- A packet without data. Source: `eap_sm_buildSuccess`, `eap_sm_buildFailure`. -/
def buildMsg (code : UInt8) (id : ℤ) (mem : Bool) : Option Bytes :=
  if mem then some [code, idOctet id, 0, 4] else none

/-- Source: `eap_sm_nextId`. -/
def nextId (lastId id : ℤ) (rand : UInt8) : ℤ :=
  if id < 0 then
    if (rand.toNat : ℤ) ≠ lastId then rand.toNat else (rand.toNat + 1) % 256
  else (id + 1) % 256

def rtoLoop : ℕ → ℤ → ℤ
  | 0, rto => rto
  | n + 1, rto => if 20 ≤ rto * 2 then 20 else rtoLoop n (rto * 2)

/-- Source: `eap_sm_calculateTimeout`. -/
def calculateTimeout (retransCount methodTimeout : ℤ) : ℤ :=
  if methodTimeout ≠ 0 then methodTimeout else rtoLoop retransCount.toNat 3

/-! ## The policy -/

/-- Look a user up. Source: `eap_user_get`, for phase 1. -/
def userGet (w : World ω) (identity : Bytes) (vars : MethodVars) : Bool × MethodVars :=
  match w.getEapUser identity with
  | none => (false, { vars with user := none })
  | some user => (true, { vars with user := some user, userEapMethodIndex := 0 })

/-- Remove the methods that a Nak does not list; the ones behind move up, and a terminator takes the
last place. Source: the loop of `eap_sm_process_nak`. -/
def processNakLoop (nakList : Bytes) : List (ℤ × EapType) → List (ℤ × EapType)
  | [] => []
  | entry :: rest =>
    if entry = noMethod then entry :: rest
    else if entry.1 = vendorIetf ∧ entry.2 ∈ nakList.map UInt8.toUInt32 then
      entry :: processNakLoop nakList rest
    else processNakLoop nakList rest ++ [noMethod]

/-- Source: `eap_sm_process_nak`. -/
def processNak (nakList : Bytes) (vars : MethodVars) : MethodVars :=
  { vars with user := vars.user.map fun user => { user with
      methods := user.methods.take vars.userEapMethodIndex ++
        processNakLoop nakList (user.methods.drop vars.userEapMethodIndex) } }

/-- Source: `eap_sm_Policy_update`. -/
def policyUpdate (nakList : Option Bytes) (sm : EapSm π ω) : EapSm π ω :=
  match nakList, sm.user with
  | some nakList, some user =>
    if user.phase2 then { sm with decision := .failure }
    else { sm with toMethodVars := processNak nakList sm.toMethodVars }
  | _, _ => sm

/-- The method to propose, a vendor and a type. Source: `eap_sm_Policy_getNextMethod`. -/
def getNextMethod (currentId : ℤ) (vars : MethodVars) : (ℤ × EapType) × MethodVars :=
  if vars.identity = none ∨ currentId = -1 then
    ((vendorIetf, typeIdentity), { vars with updateUser := true })
  else match vars.user with
    | some user =>
      if user.hasMethod vars.userEapMethodIndex then
        (user.methodAt vars.userEapMethodIndex,
          { vars with userEapMethodIndex := vars.userEapMethodIndex + 1 })
      else (noMethod, vars)
    | none => (noMethod, vars)

/-- The decision when the user is known. Source: the end of `eap_sm_Policy_getDecision`. -/
def methodsDecision (sm : EapSm π ω) : Decision × EapSm π ω :=
  let sm := { sm with startReauth := false }
  if sm.user.elim false (·.hasMethod sm.userEapMethodIndex) then (.cont, sm)
  else if sm.identity = none ∨ sm.currentId = -1 then (.cont, sm)
  else (.failure, sm)

/-- A user whose list starts with the Identity method. -/
def EapUser.startsWithIdentity (user : EapUser) : Bool :=
  user.methodAt 0 = (vendorIetf, typeIdentity)

/-- The decision when no method is done: the user is looked up first if need be.
Source: `eap_sm_Policy_getDecision`. -/
def userDecision (w : World ω) (sm : EapSm π ω) : Decision × EapSm π ω :=
  match sm.identity with
  | none => methodsDecision sm
  | some identity =>
    if (sm.user = none ∨ sm.updateUser) ∧ ¬ sm.startReauth then
      -- the Identity method is started once, for an identity selection hint, but not again
      let idReq := sm.user.elim false EapUser.startsWithIdentity && sm.currentMethod = typeIdentity
      match userGet w identity sm.toMethodVars with
      | (false, vars) => (.failure, { sm with toMethodVars := vars })
      | (true, vars) =>
        let sm := { sm with toMethodVars := vars }
        if idReq && sm.user.elim false EapUser.startsWithIdentity then
          (.failure, { sm with updateUser := true })
        else methodsDecision { sm with updateUser := false }
    else methodsDecision sm

/-- Source: `eap_sm_Policy_getDecision`. -/
def getDecision (w : World ω) (sm : EapSm π ω) : Option (Decision × EapSm π ω) :=
  if !sm.eapServer && sm.identity.isSome && !sm.startReauth then some (.passthrough, sm)
  else match sm.m, sm.eapMethodPriv with
    | none, _ => some (userDecision w sm)
    | some _, none => none
    | some m, some priv =>
      if sm.currentMethod ≠ typeIdentity ∧ m.isSuccess priv then
        some (.success, { sm with updateUser := true })
      else if m.isDone priv ∧ ¬ m.isSuccess priv then
        some (.failure, { sm with updateUser := true })
      else some (userDecision w sm)

/-- The registered method of a vendor and a type. Source: `eap_server_get_eap_method`. -/
def getEapMethod (registered : List (EapMethod π ω)) (vendor : ℤ) (method : EapType) :
    Option (EapMethod π ω) :=
  registered.find? fun m => m.vendor = vendor && m.method = method

/-- Source: `eap_sm_Policy_doPickUp`. -/
def doPickUp (method : EapType) : Bool := method = typeIdentity

end Hostapd.EapServer
