import Hostapd.Common.Defs
import Hostapd.Lib.Octets

/-!
# The 802.1X supplicant: data

The variables of the EAPOL state machines (`eapol_supp_sm.c`) and of the EAP peer machine
(`eap_peer/eap.c`), which read and write each other's.

* **`EapMethod`**: a method of the peer, as functions on data of its own.
* **`EapSm`** is the EAP machine, **`EapolSm`** the EAPOL machines with it. `notes` is a record that
  the source keeps in its log only: the states that the supplicant PAE machine enters, the
  initializations of the EAP machine, and what methods decided. The latest note is in front.
-/

namespace Hostapd.EapolSupp

open Hostapd.Lib

/-! ## The EAP peer machine -/

/-- Source: `struct eap_sm`, `EAP_state`. -/
inductive EapState
  | initialise | disabled | idle | received | getMethod | method | sendResponse | discard
  | identity | notification | retransmit | success | failure
  deriving DecidableEq

inductive EapDecision
  | fail | condSucc | uncondSucc
  deriving DecidableEq

inductive EapMethodState
  | none | init | cont | mayCont | done
  deriving DecidableEq

/-- The type octet of a request. Source: `EapType`. -/
abbrev EapType := ℕ

/-- Source: `EAP_TYPE_NONE`. -/
def typeNone : EapType := 0

/-- Source: `EAP_TYPE_IDENTITY`. -/
def typeIdentity : EapType := 1

/-- Source: `EAP_TYPE_NOTIFICATION`. -/
def typeNotification : EapType := 2

/-- Source: `EAP_TYPE_TLS`. -/
def typeTls : EapType := 13

/-- Source: `EAP_TYPE_LEAP`. -/
def typeLeap : EapType := 17

/-- Source: `EAP_TYPE_PEAP`. -/
def typePeap : EapType := 25

/-- Source: `EAP_TYPE_EXPANDED`. -/
def typeExpanded : EapType := 254

/-- Source: `EAP_VENDOR_IETF`. -/
def vendorIetf : ℕ := 0

/-- Source: `EAP_MAX_AUTH_ROUNDS`. -/
def maxAuthRounds : ℕ := 50

/-- Source: `EAP_CLIENT_TIMEOUT_DEFAULT`. -/
def clientTimeoutDefault : ℕ := 60

/-- What a method is given and what it returns. Source: `struct eap_method_ret`. -/
structure MethodRet where
  ignore : Bool
  methodState : EapMethodState
  decision : EapDecision
  allowNotifications : Bool
  deriving DecidableEq

/-- The variables of the machine that LEAP and PEAP write. -/
structure DoneFlags where
  leapDone : Bool
  peapDone : Bool
  deriving DecidableEq

/-- A method with data `π`. Source: `struct eap_method`. -/
structure EapMethod (π : Type) where
  vendor : ℕ
  method : EapType
  init : DoneFlags → Option π × DoneFlags
  hasReauthData : Option (π → Bool)
  deinitForReauth : π → π
  initForReauth : π → DoneFlags → Option π × DoneFlags
  process : π → DoneFlags → MethodRet → Option Bytes → Option Bytes × MethodRet × π × DoneFlags
  /-- `isKeyAvailable` and `getKey` together -/
  key : π → Option (Option Bytes)

/-- What was parsed of a packet. Source: `struct eap_sm`, the short-term variables. -/
structure EapReq where
  rxReq : Bool
  rxResp : Bool
  rxSuccess : Bool
  rxFailure : Bool
  reqId : ℤ
  reqMethod : EapType
  reqVendor : ℕ
  reqVendorMethod : ℕ
  deriving DecidableEq

structure EapSm (π : Type) extends EapReq, DoneFlags where
  eapState : EapState
  selectedMethod : EapType
  methodState : EapMethodState
  lastId : ℤ
  lastRespData : Option Bytes
  decision : EapDecision
  ignore : Bool
  clientTimeout : ℕ
  allowNotifications : Bool
  eapRespData : Option Bytes
  eapKeyAvailable : Bool
  eapKeyData : Option Bytes
  m : Option (EapMethod π)
  changed : Bool
  eapMethodPriv : Option π
  fastReauth : Bool
  reqMd5 : Bytes
  lastMd5 : Bytes
  workaround : Bool
  numRounds : ℕ
  forceDisabled : Bool
  prevFailure : Bool

/-! ## The EAPOL machines -/

/-- Source: `struct eapol_sm`, `SUPP_PAE_state`. -/
inductive PaeState
  | unknown | disconnected | logoff | connecting | authenticating | authenticated | held | restart
  | sForceAuth | sForceUnauth
  deriving DecidableEq

/-- Source: `struct eapol_sm`, `KEY_RX_state`. -/
inductive KeyRxState
  | unknown | noKeyReceive | keyReceive
  deriving DecidableEq

/-- Source: `struct eapol_sm`, `SUPP_BE_state`. -/
inductive BeState
  | unknown | initialise | idle | request | receive | response | fail | timeout | success
  deriving DecidableEq

inductive PortControl
  | auto | forceUnauthorized | forceAuthorized
  deriving DecidableEq

/-- Source: `struct eapol_sm`, `cb_status`. -/
inductive CbStatus
  | inProgress | success | failure
  deriving DecidableEq

inductive EapolOutput
  | start
  | logoff
  | eapPacket (resp : Bytes)
  | portAuthorized (authorized : Bool)
  | wepKey (unicast : Bool) (keyidx : UInt8) (key : Bytes)
  | eapolDone
  | abortedCached
  | cb (success : Bool)
  deriving DecidableEq

/-- What is noted: the PAE machine goes from one state to another one, the EAP machine is
initialized, and a method has decided. -/
inductive Note
  | pae (old new : PaeState)
  | eapInitialise
  | method (decision : EapDecision)
  deriving DecidableEq

/-- Where the program is: at rest; about to run the machines, for so many times already; or in the
loop of the EAP machine, which has or has not changed its state so far. -/
inductive Pc
  | rest
  | turn (i : ℕ)
  | eap (i : ℕ) (res : Bool)
  deriving DecidableEq

/-- The EAPOL machines with the EAP machine. Source: `struct eapol_sm`. -/
structure EapolSm (π : Type) where
  authWhile : ℕ
  heldWhile : ℕ
  startWhen : ℕ
  idleWhile : ℕ
  timerTickEnabled : Bool
  eapFail : Bool
  eapolEap : Bool
  eapSuccess : Bool
  initialise : Bool
  keyDone : Bool
  keyRun : Bool
  portControl : PortControl
  portEnabled : Bool
  suppPortStatus : Bool
  portValid : Bool
  suppAbort : Bool
  suppFail : Bool
  suppStart : Bool
  suppSuccess : Bool
  suppTimeout : Bool
  paeState : PaeState
  userLogoff : Bool
  logoffSent : Bool
  startCount : ℕ
  eapRestart : Bool
  sPortMode : PortControl
  heldPeriod : ℕ
  startPeriod : ℕ
  maxStart : ℕ
  keyRxState : KeyRxState
  rxKey : Bool
  beState : BeState
  eapNoResp : Bool
  eapReq : Bool
  eapResp : Bool
  authPeriod : ℕ
  changed : Bool
  eap : EapSm π
  initialReq : Bool
  lastRxKey : Option Bytes
  eapReqData : Option Bytes
  altAccept : Bool
  altReject : Bool
  replayCounterValid : Bool
  lastReplayCounter : Bytes
  accept8021xKeys : Bool
  requireUnicast : Bool
  requireBroadcast : Bool
  workaround : Bool
  cbStatus : CbStatus
  cachedPmk : Bool
  unicastKeyReceived : Bool
  broadcastKeyReceived : Bool
  /-- the timeout that goes on with the machines is registered -/
  stepTimeout : Bool
  pc : Pc
  notes : List Note
  out : List EapolOutput

/-- What a step meets outside: the methods of the build and of the configuration, the responses that
the machine builds itself, and whether the driver takes a key. -/
structure World (π : Type) where
  getEapMethod : ℕ → EapType → Option (EapMethod π)
  allowedMethod : ℕ → EapType → Bool
  pendingPin : Bool
  buildNak : ℤ → Option Bytes
  buildIdentity : ℤ → Option Bytes
  buildNotify : ℤ → Option Bytes
  setWepKey : Bool

structure EapolCrypto where
  md5 : Bytes → Bytes
  hmacMd5 : Bytes → Bytes → Bytes
  rc4Skip : Bytes → Bytes → Bytes

section Builders

variable {π : Type}

@[simp] def EapolSm.emit (sm : EapolSm π) (out : EapolOutput) : EapolSm π :=
  { sm with out := sm.out ++ [out] }

@[simp] def EapolSm.note (sm : EapolSm π) (note : Note) : EapolSm π :=
  { sm with notes := note :: sm.notes }

@[simp] def EapolSm.onEap (sm : EapolSm π) (f : EapSm π → EapSm π) : EapolSm π :=
  { sm with eap := f sm.eap }

/-- The tick of the timers goes on. Source: `eapol_enable_timer_tick`. -/
@[simp] def EapolSm.enableTimerTick (sm : EapolSm π) : EapolSm π :=
  { sm with timerTickEnabled := true }

end Builders

end Hostapd.EapolSupp
