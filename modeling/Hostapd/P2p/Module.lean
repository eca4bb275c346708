import Hostapd.P2p.Channels
import Hostapd.Utils.Eloop

/-!
# The P2P module

The data of `p2p_i.h`: the peer entries, the module context that links them, and what a received
message is parsed into.

* **`P2pDevice`**: a peer entry. Entries are in memory (`P2pData.mem`); the list of peers and the
  pointers of the module hold their addresses.
* **`P2pMessage`**: the attributes of a message. It also stands for a frame that is sent, by the
  attributes that are written into it.
* **`P2pData`**: the module. `out` is what it did to the outside, and `errors` what it did that
  no program may do: copies beyond the end of a field, reads behind a message, reads of an
  attribute that is absent, and an entry freed that is in use.
-/

namespace Hostapd.P2p

open Hostapd.Lib

open Hostapd.Utils.Eloop (OsTime)

/-! ## Numbers -/

/-- Source: `P2P_SC_SUCCESS`. -/
def scSuccess : UInt8 := 0

/-- Source: `P2P_SC_FAIL_INFO_CURRENTLY_UNAVAILABLE`. -/
def scFailInfoCurrentlyUnavailable : UInt8 := 1

/-- Source: `P2P_SC_FAIL_INCOMPATIBLE_PARAMS`. -/
def scFailIncompatibleParams : UInt8 := 2

/-- Source: `P2P_SC_FAIL_INVALID_PARAMS`. -/
def scFailInvalidParams : UInt8 := 4

/-- Source: `P2P_SC_FAIL_UNABLE_TO_ACCOMMODATE`. -/
def scFailUnableToAccommodate : UInt8 := 5

/-- Source: `P2P_SC_FAIL_NO_COMMON_CHANNELS`. -/
def scFailNoCommonChannels : UInt8 := 7

/-- Source: `P2P_SC_FAIL_BOTH_GO_INTENT_15`. -/
def scFailBothGoIntent15 : UInt8 := 9

/-- Source: `P2P_SC_FAIL_INCOMPATIBLE_PROV_METHOD`. -/
def scFailIncompatibleProvMethod : UInt8 := 10

/-- Source: `P2P_SC_FAIL_REJECTED_BY_USER`. -/
def scFailRejectedByUser : UInt8 := 11

/-- Source: `P2P_MAX_GO_INTENT`. -/
def maxGoIntent : UInt8 := 15

/-- Source: `P2P_DEV_CAPAB_SERVICE_DISCOVERY`. -/
def devCapabServiceDiscovery : UInt8 := 0x01

/-- Source: `P2P_DEV_CAPAB_CLIENT_DISCOVERABILITY`. -/
def devCapabClientDiscoverability : UInt8 := 0x02

/-- Source: `P2P_GROUP_CAPAB_PERSISTENT_GROUP`. -/
def groupCapabPersistentGroup : UInt8 := 0x02

/-- Source: `P2P_GROUP_CAPAB_INTRA_BSS_DIST`. -/
def groupCapabIntraBssDist : UInt8 := 0x08

/-- Source: `P2P_GROUP_CAPAB_CROSS_CONN`. -/
def groupCapabCrossConn : UInt8 := 0x10

/-- Source: `P2P_INVITATION_FLAGS_TYPE`. -/
def invitationFlagsType : UInt8 := 0x01

/-- Source: `P2P_WILDCARD_SSID`. -/
def wildcardSsid : Bytes := [0x44, 0x49, 0x52, 0x45, 0x43, 0x54, 0x2d]

/-- Source: `P2P_PEER_EXPIRATION_AGE`. -/
def peerExpirationAge : ℤ := 300

/-! ## Enumerations -/

/-- Source: `enum p2p_wps_method`. -/
inductive WpsMethod
  | notReady | pinLabel | pinDisplay | pinKeypad | pbc
  deriving DecidableEq

/-- The Device Password ID attribute, for the values the source compares it with.
Source: `enum wps_dev_password_id`. -/
inductive DevPasswordId
  | default | userSpecified | registrarSpecified | pushbutton | other
  deriving DecidableEq

/-- Source: `p2p_wps_method_pw_id`. -/
def WpsMethod.pwId : WpsMethod → DevPasswordId
  | .pinLabel => .default
  | .pinDisplay => .registrarSpecified
  | .pinKeypad => .userSpecified
  | .pbc => .pushbutton
  | .notReady => .default

/-- Source: `enum p2p_go_state`. -/
inductive GoState
  | unknownGo | localGo | remoteGo
  deriving DecidableEq

inductive P2pState
  | idle | search | connect | connectListen | goNeg | listenOnly | waitPeerConnect | waitPeerIdle
  | sdDuringFind | provisioning | pdDuringFind | invite | inviteListen
  deriving DecidableEq

/-- Source: `enum p2p_pending_action_state`. -/
inductive PendingAction
  | noPendingAction | goNegRequest | goNegResponse | goNegResponseFailure | goNegConfirm | sd | pd
  | invitationRequest | invitationResponse | devDiscRequest | devDiscResponse | goDiscReq
  deriving DecidableEq

/-- Source: `enum p2p_send_action_result`. -/
inductive SendActionResult
  | success | noAck | failed
  deriving DecidableEq

/-- Source: `enum p2p_after_scan`. -/
inductive AfterScan
  | nothing | listen | connect
  deriving DecidableEq

/-- Source: `enum p2p_invite_role`. -/
inductive InviteRole
  | go | activeGo | client
  deriving DecidableEq

/-! ## Messages -/

/-- The octets of an Operating Channel or Listen Channel attribute. -/
structure ChannelAttr where
  country : Country
  regClass : UInt8
  channel : UInt8
  deriving DecidableEq

/-- Source: the arguments of `p2p_channel_to_freq` for an attribute. -/
def ChannelAttr.freq (attr : ChannelAttr) : Option ℕ :=
  channelToFreq attr.country attr.regClass attr.channel

/-- The Group ID attribute, six octets and an SSID. -/
structure GroupId where
  deviceAddr : MacAddr
  ssid : Bytes
  deriving DecidableEq

structure DeviceInfo where
  deviceAddr : MacAddr
  configMethods : UInt16
  priDevType : Bytes
  numSecDevTypes : UInt8
  deriving DecidableEq

/-- A parsed message; `channelList` are the octets that `channel_list_len` counts, `ssid` is the
SSID element behind its two octets of header. Source: `struct p2p_message`. -/
structure P2pMessage where
  p2pAttributes : Bool
  dialogToken : UInt8
  capability : Option (UInt8 × UInt8)
  goIntent : Option UInt8
  status : Option UInt8
  listenChannel : Option ChannelAttr
  operatingChannel : Option ChannelAttr
  channelList : Option Bytes
  configTimeout : Option (UInt8 × UInt8)
  intendedAddr : Option MacAddr
  groupBssid : Option MacAddr
  invitationFlags : Option UInt8
  groupInfo : Option Bytes
  groupId : Option GroupId
  deviceId : Option MacAddr
  extListenTiming : Option (UInt16 × UInt16)
  deviceInfo : Option DeviceInfo
  deviceName : Bytes
  devPasswordId : DevPasswordId
  wpsConfigMethods : UInt16
  wpsPriDevType : Option Bytes
  wpsSecDevTypeList : Option Bytes
  wpsVendorExt : List Bytes
  manufacturer : Option Bytes
  modelName : Option Bytes
  modelNumber : Option Bytes
  serialNumber : Option Bytes
  dsParams : Option UInt8
  ssid : Option Bytes
  deriving DecidableEq

/-- A message without attributes: what the parser starts from. -/
def P2pMessage.empty : P2pMessage where
  p2pAttributes := false
  dialogToken := 0
  capability := none
  goIntent := none
  status := none
  listenChannel := none
  operatingChannel := none
  channelList := none
  configTimeout := none
  intendedAddr := none
  groupBssid := none
  invitationFlags := none
  groupInfo := none
  groupId := none
  deviceId := none
  extListenTiming := none
  deviceInfo := none
  deviceName := []
  devPasswordId := .default
  wpsConfigMethods := 0
  wpsPriDevType := none
  wpsSecDevTypeList := none
  wpsVendorExt := []
  manufacturer := none
  modelName := none
  modelNumber := none
  serialNumber := none
  dsParams := none
  ssid := none

/-- The P2P frames that are sent, each with the attributes written into it. -/
inductive Frame
  | goNegReq (msg : P2pMessage)
  | goNegResp (msg : P2pMessage)
  | goNegConf (msg : P2pMessage)
  | invitationReq (msg : P2pMessage)
  | invitationResp (msg : P2pMessage)
  | provDiscReq (msg : P2pMessage)
  | devDiscReq (msg : P2pMessage)
  | devDiscResp (msg : P2pMessage)
  | sdQuery
  deriving DecidableEq

/-! ## Peers -/

/-- What is known of a peer; the arrays by their contents. Source: `struct p2p_peer_info`. -/
structure PeerInfo where
  deviceAddr : MacAddr
  priDevType : Bytes
  deviceName : Bytes
  manufacturer : Bytes
  modelName : Bytes
  modelNumber : Bytes
  serialNumber : Bytes
  configMethods : UInt16
  devCapab : UInt8
  groupCapab : UInt8
  wpsSecDevTypeList : Bytes
  wpsVendorExt : List Bytes
  deriving DecidableEq

/-- The `P2P_DEV_*` bits of a peer that the modelled functions use. -/
structure DevFlags where
  probeReqOnly : Bool
  reported : Bool
  notYetReady : Bool
  sdInfo : Bool
  sdSchedule : Bool
  userRejected : Bool
  peerWaitingResponse : Bool
  preferPersistentGroup : Bool
  waitGoNegResponse : Bool
  waitGoNegConfirm : Bool
  groupClientOnly : Bool
  forceFreq : Bool
  pdForJoin : Bool
  reportedOnce : Bool
  deriving DecidableEq

/-- A peer entry; a frequency of 0 is one that is not known. Source: `struct p2p_device`. -/
structure P2pDevice where
  lastSeen : OsTime
  listenFreq : ℤ
  level : ℤ
  wpsMethod : WpsMethod
  info : PeerInfo
  interfaceAddr : MacAddr
  memberInGoDev : MacAddr
  memberInGoIface : MacAddr
  goNegReqSent : ℕ
  goState : GoState
  dialogToken : UInt8
  intendedAddr : MacAddr
  country : Country
  channels : P2pChannels
  operFreq : ℤ
  operSsid : Bytes
  reqConfigMethods : UInt16
  flags : DevFlags
  status : UInt8
  waitCount : ℕ
  connectReqs : ℕ
  invitationReqs : ℕ
  extListenPeriod : UInt16
  extListenInterval : UInt16
  goTimeout : UInt8
  clientTimeout : UInt8
  deriving DecidableEq

/-- An entry after `os_zalloc`, with its address. -/
def P2pDevice.zero (addr : MacAddr) : P2pDevice where
  lastSeen := ⟨0, 0⟩
  listenFreq := 0
  level := 0
  wpsMethod := .notReady
  info := ⟨addr, [], [], [], [], [], [], 0, 0, 0, [], []⟩
  interfaceAddr := 0
  memberInGoDev := 0
  memberInGoIface := 0
  goNegReqSent := 0
  goState := .unknownGo
  dialogToken := 0
  intendedAddr := 0
  country := ⟨0, 0, 0⟩
  channels := .empty
  operFreq := 0
  operSsid := []
  reqConfigMethods := 0
  flags := ⟨false, false, false, false, false, false, false, false, false, false, false, false,
    false, false⟩
  status := 0
  waitCount := 0
  connectReqs := 0
  invitationReqs := 0
  extListenPeriod := 0
  extListenInterval := 0
  goTimeout := 0
  clientTimeout := 0

/-! ## The module -/

/-- The configuration; `invitationProcess` is the callback that decides on an invitation, with the
status it returns, whether to act as GO, the BSSID of the group and the forced frequency, 0 for
none. Source: `struct p2p_config`. -/
structure P2pConfig where
  country : Country
  regClass : UInt8
  channel : UInt8
  opRegClass : UInt8
  opChannel : UInt8
  cfgOpChannel : Bool
  channels : P2pChannels
  devAddr : MacAddr
  devName : Bytes
  priDevType : Bytes
  numSecDevTypes : UInt8
  maxPeers : ℕ
  intraBss : Bool
  ssidPostfix : Bytes
  invitationProcess : Option
    (MacAddr → Option MacAddr → MacAddr → Bytes → Bool → UInt8 × Bool × MacAddr × ℕ)

/-- Source: `struct p2p_go_neg_results`; `status` -1 is a local failure, `freq` -1 an unknown
channel. -/
structure GoNegResults where
  status : ℤ
  roleGo : Bool
  freq : ℤ
  ssid : Bytes
  passphrase : Bytes
  peerDeviceAddr : MacAddr
  peerInterfaceAddr : MacAddr
  wpsMethod : WpsMethod
  freqList : List ℕ
  persistentGroup : Bool
  peerConfigTimeout : UInt8
  deriving DecidableEq

/-- The results after `os_memset(.., 0, ..)`. -/
def GoNegResults.zero : GoNegResults :=
  ⟨0, false, 0, [], [], 0, 0, .notReady, [], false, 0⟩

/-- What the module does to the outside: frames for the driver and calls of the configured
callbacks. -/
inductive Out
  | sendAction (freq : ℤ) (dst : MacAddr) (frame : Frame)
  | sendActionDone
  | stopListen
  | startListen (freq : ℕ)
  | p2pScan
  | goNegReqRx (addr : MacAddr) (pwId : DevPasswordId)
  | goNegCompleted (res : GoNegResults)
  | devFound (addr : MacAddr) (newDevice : Bool)
  | devLost (addr : MacAddr)
  | invitationReceived (sa : MacAddr) (bssid : Option MacAddr) (ssid : Bytes)
      (goDevAddr : MacAddr) (status : UInt8) (opFreq : ℤ)
  | invitationResult (status : ℤ) (bssid : Option MacAddr)
  deriving DecidableEq

/-- The fields that received octets are copied into. -/
inductive Dest
  | deviceName | operSsid | wpsSecDevTypeList | ssid | invSsid
  deriving DecidableEq

inductive MemError
  | overrun (dest : Dest) (len : ℕ)
  | overread
  | absent
  | freedInUse (dev : ℕ)
  deriving DecidableEq

/-- A frame that waits for the end of a scan. Source: `struct p2p_pending_action_tx`. -/
structure PendingActionTx where
  freq : ℤ
  dst : MacAddr
  frame : Frame
  deriving DecidableEq

/-- A query of service discovery. Source: `struct p2p_sd_query`. -/
structure SdQuery where
  peer : MacAddr
  forAllPeers : Bool
  deriving DecidableEq

/-- The module context; `mem` is what a pointer to an entry points to. Three components are kept for
the record only: `busy` is the entry that `p2p_add_device` is working on, `given` are the frames
that `p2p_send_action` has taken, and `settled` are the common channels that the operating channel
was last settled in. Source: `struct p2p_data`. -/
structure P2pData where
  cfg : P2pConfig
  state : P2pState
  mem : ℕ → P2pDevice
  devices : List ℕ
  goNegPeer : Option ℕ
  invitePeer : Option ℕ
  inviteGoDevAddr : Option MacAddr
  sdPeer : Option ℕ
  sdQueries : List SdQuery
  intendedAddr : MacAddr
  goIntent : UInt8
  nextTieBreaker : Bool
  ssid : Bytes
  opRegClass : UInt8
  opChannel : UInt8
  channels : P2pChannels
  pendingActionState : PendingAction
  pendingListenFreq : ℕ
  pendingListenTime : ℕ
  devCapab : UInt8
  inListen : Bool
  drvInListen : ℤ
  invRole : InviteRole
  invBssid : Option MacAddr
  invSsid : Bytes
  invSa : MacAddr
  invGroupBssid : Option MacAddr
  invGoDevAddr : MacAddr
  invStatus : UInt8
  invOpFreq : ℤ
  invPersistent : Bool
  p2pScanRunning : Bool
  startAfterScan : AfterScan
  afterScanPeer : MacAddr
  afterScanTx : Option PendingActionTx
  pendingClientDiscGo : Option ℕ
  pendingClientDiscAddr : MacAddr
  pendingDevDiscDialogToken : UInt8
  pendingDevDiscAddr : MacAddr
  pendingDevDiscFreq : ℤ
  extListen : Option (UInt16 × UInt16)
  peerFilter : MacAddr
  crossConnect : Bool
  bestFreq24 : ℤ
  bestFreq5 : ℤ
  bestFreqOverall : ℤ
  stateTimeout : Bool
  busy : Option ℕ
  given : List (MacAddr × Frame)
  settled : P2pChannels
  out : List Out
  errors : List MemError

/-- What a call gets from outside. The readings of the clock and the blocks of memory for entries
are numbered in the order in which a call asks for them; `frame` says whether there is memory for a
frame and `queue` for one that waits, `sent`, `listen` and `scan` whether the driver does what it is
asked for. -/
structure Env where
  clock : ℕ → OsTime
  block : ℕ → Option ℕ
  frame : Bool
  queue : Bool
  sent : Bool
  listen : Bool
  scan : Bool
  ssidChars : Bytes
  passphrase : Bytes

section Access

variable (p2p : P2pData)

def P2pData.modify (dev : ℕ) (f : P2pDevice → P2pDevice) : P2pData :=
  { p2p with mem := Function.update p2p.mem dev (f (p2p.mem dev)) }

def P2pData.setFlags (dev : ℕ) (f : DevFlags → DevFlags) : P2pData :=
  p2p.modify dev fun d => { d with flags := f d.flags }

def P2pData.emit (o : Out) : P2pData := { p2p with out := p2p.out ++ [o] }

def P2pData.fault (bad : Bool) (e : MemError) : P2pData :=
  { p2p with errors := if bad then p2p.errors ++ [e] else p2p.errors }

/-- Source: `p2p_set_state`. -/
def P2pData.setState (state : P2pState) : P2pData := { p2p with state := state }

/-- Source: `p2p_set_timeout`. -/
def P2pData.setTimeout : P2pData := { p2p with stateTimeout := true }

/-- Source: `p2p_clear_timeout`. -/
def P2pData.clearTimeout : P2pData := { p2p with stateTimeout := false }

/-- The frame whose TX status the module waits for. -/
def P2pData.pend (action : PendingAction) : P2pData := { p2p with pendingActionState := action }

/-- The entry of the peer that the module negotiates with. -/
def P2pData.setGoNegPeer (dev : ℕ) : P2pData := { p2p with goNegPeer := some dev }

/-- The peer with an address. Source: `p2p_get_device`. -/
def P2pData.getDevice (addr : MacAddr) : Option ℕ :=
  p2p.devices.find? fun d => (p2p.mem d).info.deviceAddr = addr

end Access

/-- Source: `p2p_send_action`; `false` is the result -1. -/
def sendAction (env : Env) (p2p : P2pData) (freq : ℤ) (dst : MacAddr) (frame : Frame) :
    P2pData × Bool :=
  if p2p.p2pScanRunning then
    if env.queue then
      ({ p2p with
          afterScanTx := some ⟨freq, dst, frame⟩
          given := p2p.given ++ [(dst, frame)] }, true)
    else ({ p2p with afterScanTx := none }, false)
  else if env.sent then
    ({ p2p.emit (.sendAction freq dst frame) with given := p2p.given ++ [(dst, frame)] }, true)
  else (p2p, false)

/-- A request that is sent again by the timer if it cannot be sent now. -/
def sendOrRetry (env : Env) (p2p : P2pData) (freq : ℤ) (dst : MacAddr) (frame : Frame) : P2pData :=
  match sendAction env p2p freq dst frame with
  | (p2p, true) => p2p
  | (p2p, false) => p2p.setTimeout

end Hostapd.P2p
