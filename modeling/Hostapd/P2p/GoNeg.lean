import Mathlib
import Hostapd.P2p.Device

/-!
# GO negotiation

`p2p_go_neg.c`, with the functions of `p2p.c` that it uses: how a GO Negotiation Request, Response
and Confirm are built, what the module does when it receives one, and how a negotiation ends.

* **`goDet`**: who becomes GO, from the own intent and the octet the peer sent.
* **`connectSend`**: the module asks.
* **`processGoNegReq`**, **`processGoNegResp`**, **`processGoNegConf`**: what it does with a frame
  of a peer. The message is what `p2p_parse` makes of the frame, `none` if it fails.
* **`goComplete`**, `goNegFailed`: the end of the negotiation.

The build is one without `CONFIG_P2P_STRICT`.
-/

namespace Hostapd.P2p

/-! ## Roles -/

/-- Whether the own end becomes GO; `none` is the result -1: both ends have to.
Source: `p2p_go_det`. -/
def goDet (ownIntent peerValue : UInt8) : Option Bool :=
  let peerIntent := peerValue >>> 1
  if ownIntent = peerIntent then
    if ownIntent = maxGoIntent then none else some (peerValue &&& 1 = 0)
  else some (peerIntent < ownIntent)

/-- The octet of a GO Intent attribute: the intent in front of the tie breaker. -/
def goIntentOctet (intent : UInt8) (tieBreaker : Bool) : UInt8 :=
  (intent <<< 1) ||| (if tieBreaker then 1 else 0)

/-! ## Frames -/

/-- The Config Methods of the Device Info attribute. Source: `p2p_buf_add_device_info`. -/
def deviceInfoMethods : WpsMethod → UInt16
  | .pbc => 0x0080
  | .pinLabel => 0x0004
  | .pinDisplay | .pinKeypad => 0x0108
  | .notReady => 0x0188

/-- The Device Info attribute. Source: `p2p_buf_add_device_info`. -/
def bufAddDeviceInfo (p2p : P2pData) (method : WpsMethod) (msg : P2pMessage) : P2pMessage :=
  { msg with
    deviceInfo := some
      { deviceAddr := p2p.cfg.devAddr
        configMethods := deviceInfoMethods method
        priDevType := p2p.cfg.priDevType
        numSecDevTypes := p2p.cfg.numSecDevTypes }
    deviceName := p2p.cfg.devName }

/-- The group capabilities of an end that may become GO. -/
def groupCapab (p2p : P2pData) (dev : ℕ) : UInt8 :=
  (if (p2p.mem dev).flags.preferPersistentGroup then groupCapabPersistentGroup else 0) |||
    (if p2p.crossConnect then groupCapabCrossConn else 0) |||
    (if p2p.cfg.intraBss then groupCapabIntraBssDist else 0)

def ownOperatingChannel (p2p : P2pData) : ChannelAttr :=
  ⟨p2p.cfg.country, p2p.opRegClass, p2p.opChannel⟩

/-- The next dialog token of an entry, which is never 0. -/
def nextDialogToken (token : UInt8) : UInt8 := if token + 1 = 0 then 1 else token + 1

/-- Source: `p2p_build_go_neg_req`. -/
def buildGoNegReq (p2p : P2pData) (dev : ℕ) : P2pData × P2pMessage :=
  let token := nextDialogToken (p2p.mem dev).dialogToken
  let msg := bufAddDeviceInfo p2p (p2p.mem dev).wpsMethod
    { P2pMessage.empty with
      p2pAttributes := true
      dialogToken := token
      capability := some (p2p.devCapab, groupCapab p2p dev)
      goIntent := some (goIntentOctet p2p.goIntent p2p.nextTieBreaker)
      configTimeout := some (100, 20)
      listenChannel := some ⟨p2p.cfg.country, p2p.cfg.regClass, p2p.cfg.channel⟩
      extListenTiming := p2p.extListen
      intendedAddr := some p2p.intendedAddr
      channelList := some (bufAddChannelList p2p.cfg.country p2p.channels)
      operatingChannel := some (ownOperatingChannel p2p)
      devPasswordId := (p2p.mem dev).wpsMethod.pwId }
  let p2p := p2p.modify dev fun d => { d with dialogToken := token }
  ({ p2p with nextTieBreaker := !p2p.nextTieBreaker }, msg)

/-- The frequency on which a frame is sent to a peer, if one is known. -/
def peerFreq (d : P2pDevice) : ℤ := if 0 < d.listenFreq then d.listenFreq else d.operFreq

/-- Source: `p2p_connect_send`; `false` is the result -1. -/
def connectSend (env : Env) (p2p : P2pData) (dev : ℕ) : P2pData × Bool :=
  let freq := peerFreq (p2p.mem dev)
  if freq ≤ 0 then (p2p, false)
  else if !env.frame then (p2p, false)
  else
    let (p2p, req) := buildGoNegReq p2p dev
    let p2p := ((p2p.setState .connect).pend .goNegRequest).setGoNegPeer dev
    let p2p := p2p.modify dev fun d =>
      { d with
        flags := { d.flags with waitGoNegResponse := true }
        connectReqs := d.connectReqs + 1 }
    (sendOrRetry env p2p freq (p2p.mem dev).info.deviceAddr (.goNegReq req), true)

/-- The state of a peer as a response to it sees it; without an entry it is not known. -/
def goStateOf (p2p : P2pData) (peer : Option ℕ) : GoState :=
  match peer with
  | some dev => (p2p.mem dev).goState
  | none => .unknownGo

def goNegRespChannels (p2p : P2pData) (peer : Option ℕ) (status : UInt8) : P2pChannels :=
  match peer with
  | none => p2p.channels
  | some dev =>
    if status ≠ scSuccess then p2p.channels
    else if (p2p.mem dev).goState = .remoteGo then p2p.channels
    else channelsIntersect p2p.channels (p2p.mem dev).channels

def wpsMethodOf (p2p : P2pData) (peer : Option ℕ) : WpsMethod :=
  match peer with
  | some dev => (p2p.mem dev).wpsMethod
  | none => .notReady

/-- The group capabilities of a response or a confirmation. -/
def goCapab (p2p : P2pData) (peer : Option ℕ) : UInt8 :=
  match peer with
  | some dev => if (p2p.mem dev).goState = .localGo then groupCapab p2p dev else 0
  | none => 0

/-- Source: `p2p_build_go_neg_resp`. -/
def buildGoNegResp (p2p : P2pData) (peer : Option ℕ) (dialogToken status : UInt8)
    (tieBreaker : Bool) : P2pMessage :=
  bufAddDeviceInfo p2p (wpsMethodOf p2p peer)
    { P2pMessage.empty with
      p2pAttributes := true
      dialogToken := dialogToken
      status := some status
      capability := some (p2p.devCapab, goCapab p2p peer)
      goIntent := some (goIntentOctet p2p.goIntent tieBreaker)
      configTimeout := some (100, 20)
      operatingChannel :=
        if goStateOf p2p peer = .remoteGo then none else some (ownOperatingChannel p2p)
      intendedAddr := some p2p.intendedAddr
      channelList :=
        some (bufAddChannelList p2p.cfg.country (goNegRespChannels p2p peer status))
      groupId :=
        if goStateOf p2p peer = .localGo then some ⟨p2p.cfg.devAddr, p2p.ssid⟩ else none
      devPasswordId := (wpsMethodOf p2p peer).pwId }

/-- Source: `p2p_build_go_neg_conf`. The roles that are not determined, -1 in the source, count as
the own end being GO. -/
def buildGoNegConf (p2p : P2pData) (peer : ℕ) (dialogToken status : UInt8)
    (respChan : Option ChannelAttr) (go : Option Bool) : P2pMessage :=
  { P2pMessage.empty with
    p2pAttributes := true
    dialogToken := dialogToken
    status := some status
    capability := some (p2p.devCapab, goCapab p2p (some peer))
    operatingChannel :=
      if go ≠ some false then some (ownOperatingChannel p2p)
      else some (respChan.getD (ownOperatingChannel p2p))
    channelList := some (bufAddChannelList p2p.cfg.country
      (channelsIntersect p2p.channels (p2p.mem peer).channels))
    groupId := if go ≠ some false then some ⟨p2p.cfg.devAddr, p2p.ssid⟩ else none }

/-! ## Channels -/

/-- Source: `p2p_peer_channels_check`; `false` is the result -1. -/
def peerChannelsCheck (p2p : P2pData) (own : P2pChannels) (dev : ℕ) (channelList : Bytes) :
    P2pData × Bool :=
  let p2p := p2p.modify dev fun d => { d with channels := .empty }
  match channelList with
  | c0 :: c1 :: c2 :: data =>
    let p2p := p2p.modify dev fun d => { d with country := ⟨c0, c1, c2⟩ }
    if c2 ≠ 0x04 ∧ ¬ (c0 = p2p.cfg.country.fst ∧ c1 = p2p.cfg.country.snd) then (p2p, false)
    else
      let classes := parseRegClasses maxRegClasses data
      let p2p := p2p.modify dev fun d =>
        { d with channels := ⟨classes.1, length_parseRegClasses_le maxRegClasses data⟩ }
      if !classes.2 then (p2p, false)
      else (p2p, (channelsIntersect own (p2p.mem dev).channels).regClass ≠ [])
  | _ => (p2p, false)

/-- The best channel of a band, where there is one and the list has it. -/
def bestChannel (best : ℤ) (intersection : P2pChannels) : Option (UInt8 × UInt8) :=
  if best ≤ 0 then none
  else (freqToChannel best.toNat).filter fun c => channelsIncludes intersection c.1 c.2

/-- The channel of another band to use instead of the own one. -/
def otherBand (p2p : P2pData) (intersection : P2pChannels) : Option (UInt8 × UInt8) :=
  match channelToFreq p2p.cfg.country p2p.opRegClass p2p.opChannel with
  | none => none
  | some freq =>
    if 2400 ≤ freq ∧ freq < 2500 then bestChannel p2p.bestFreq5 intersection
    else if 4900 ≤ freq ∧ freq < 6000 then bestChannel p2p.bestFreq24 intersection
    else none

/-- The first channel of a list; the zero octets of an array that is not used if there is none. -/
def firstChannel (channels : P2pChannels) : UInt8 × UInt8 :=
  match channels.regClass with
  | [] => (0, 0)
  | r :: _ => (r.regClass, r.channel.headD 0)

/-- Source: `p2p_reselect_channel`. -/
def reselectChannel (p2p : P2pData) (intersection : P2pChannels) : P2pData :=
  let c := (otherBand p2p intersection).getD (firstChannel intersection)
  { p2p with opRegClass := c.1, opChannel := c.2 }

/-- Source: `p2p_build_ssid`. -/
def buildSsid (env : Env) (p2p : P2pData) : P2pData :=
  { p2p with ssid := wildcardSsid ++ env.ssidChars ++ p2p.cfg.ssidPostfix }

/-- The end that becomes GO settles its operating channel and its SSID; `false` if there is no
common channel. -/
def settleChannel (env : Env) (p2p : P2pData) (dev : ℕ) : P2pData × Bool :=
  let intersection := channelsIntersect p2p.channels (p2p.mem dev).channels
  if (intersection.regClass.head?.map RegClass.channel).getD [] = [] then (p2p, false)
  else
    let p2p :=
      if channelsIncludes intersection p2p.opRegClass p2p.opChannel then p2p
      else reselectChannel p2p intersection
    (buildSsid env { p2p with settled := intersection }, true)

def settleAs (env : Env) (p2p : P2pData) (go : Bool) (dev : ℕ) : P2pData × Bool :=
  if go then settleChannel env p2p dev else (p2p, true)

/-! ## The end of a negotiation -/

/-- Source: `p2p_go_neg_failed`. -/
def goNegFailed (p2p : P2pData) (peer : Option ℕ) (status : ℤ) : P2pData :=
  let p2p := { p2p.clearTimeout.setState .idle with goNegPeer := none }
  let res := { GoNegResults.zero with status := status }
  match peer with
  | none => p2p.emit (.goNegCompleted res)
  | some dev =>
    p2p.emit (.goNegCompleted
      { res with
        peerDeviceAddr := (p2p.mem dev).info.deviceAddr
        peerInterfaceAddr := (p2p.mem dev).intendedAddr })

/-- Source: `P2P_MAX_CHANNELS`. -/
def maxChannels : ℕ := 50

def freqList (country : Country) (channels : P2pChannels) : List ℕ :=
  (channels.regClass.flatMap fun r =>
    r.channel.filterMap fun c => channelToFreq country r.regClass c).take (maxChannels - 1)

/-- A frequency as the source has it, -1 for an unknown channel. -/
def freqInt (freq : Option ℕ) : ℤ := (freq.map Int.ofNat).getD (-1)

/-- What `p2p_go_complete` reports. -/
def goNegResults (env : Env) (p2p : P2pData) (peer : ℕ) : GoNegResults :=
  let d := p2p.mem peer
  let go : Bool := d.goState = .localGo
  { status := 0
    roleGo := go
    freq :=
      if go then freqInt (channelToFreq p2p.cfg.country p2p.opRegClass p2p.opChannel)
      else d.operFreq
    ssid := p2p.ssid
    passphrase := if go then env.passphrase else []
    peerDeviceAddr := d.info.deviceAddr
    peerInterfaceAddr := d.intendedAddr
    wpsMethod := d.wpsMethod
    freqList := freqList d.country (channelsIntersect p2p.channels d.channels)
    persistentGroup := d.flags.preferPersistentGroup
    peerConfigTimeout := if go then d.clientTimeout else d.goTimeout }

/-- Source: `p2p_go_complete`. -/
def goComplete (env : Env) (p2p : P2pData) (peer : ℕ) : P2pData :=
  let res := goNegResults env p2p peer
  let p2p := p2p.clearTimeout.modify peer fun d =>
    { d with goNegReqSent := 0, wpsMethod := .notReady }
  (p2p.setState .provisioning).emit (.goNegCompleted res)

/-- Source: `p2p_stop_find_for_freq`. -/
def stopFindForFreq (p2p : P2pData) (freq : ℤ) : P2pData :=
  let p2p :=
    { p2p.clearTimeout.setState .idle with
      startAfterScan := .nothing
      goNegPeer := none
      sdPeer := none
      invitePeer := none }
  if 0 < freq ∧ p2p.drvInListen = freq ∧ p2p.inListen = true then p2p else p2p.emit .stopListen

def stopUnlessIdle (p2p : P2pData) (freq : ℤ) : P2pData :=
  if p2p.state ≠ .idle then stopFindForFreq p2p freq else p2p

/-! ## Receiving a request -/

/-- Whether the peer's method to enter the password goes with the own one. -/
def passwordIdFits (id : DevPasswordId) (method : WpsMethod) : Bool :=
  match id with
  | .default | .registrarSpecified => method = .pinKeypad
  | .userSpecified => method = .pinLabel || method = .pinDisplay
  | .pushbutton => method = .pbc
  | .other => false

/-- The attributes that a request must have, with their values. -/
structure GoNegReqAttrs where
  operatingChannel : ChannelAttr
  channelList : Bytes
  intendedAddr : MacAddr
  deviceAddr : MacAddr

/-- The checks of a request before its sender is looked up. -/
def goNegReqAttrs (msg : P2pMessage) : Option GoNegReqAttrs :=
  match msg.listenChannel, msg.operatingChannel, msg.channelList, msg.intendedAddr,
    msg.deviceInfo with
  | some _, some operatingChannel, some channelList, some intendedAddr, some info =>
    some ⟨operatingChannel, channelList, intendedAddr, info.deviceAddr⟩
  | _, _, _, _, _ => none

/-- A negotiation with an authorized peer starts with the configured channels. -/
def startAuthorized (p2p : P2pData) (dev : ℕ) : P2pData :=
  if p2p.goNegPeer.isSome ∨ (p2p.mem dev).flags.forceFreq then p2p
  else
    { p2p with
      opRegClass := p2p.cfg.opRegClass
      opChannel := p2p.cfg.opChannel
      channels := p2p.cfg.channels }

/-- Both ends send requests: the one with the lower address does not reply to the other. -/
def leavesReplyToPeer (p2p : P2pData) (dev : ℕ) (sa : MacAddr) : Bool :=
  0 < (p2p.mem dev).goNegReqSent && p2p.cfg.devAddr.toNat < sa.toNat

/-- A request is accepted: the state of the negotiation with the peer. -/
def acceptGoNegReq (p2p : P2pData) (dev : ℕ) (msg : P2pMessage) (attrs : GoNegReqAttrs) (go : Bool)
    (rxFreq : ℤ) : P2pData :=
  let p2p := p2p.modify dev fun d =>
    { d with
      goState := if go then .localGo else .remoteGo
      operFreq := freqInt attrs.operatingChannel.freq
      goTimeout := (msg.configTimeout.map Prod.fst).getD d.goTimeout
      clientTimeout := (msg.configTimeout.map Prod.snd).getD d.clientTimeout }
  let p2p := stopUnlessIdle p2p rxFreq
  let p2p := (p2p.setState .goNeg).clearTimeout
  let p2p := p2p.modify dev fun d =>
    { d with dialogToken := msg.dialogToken, intendedAddr := attrs.intendedAddr }
  p2p.setGoNegPeer dev

/-- A request from a peer that is ready, with the status to answer; `none` if it is left without an
answer. -/
def negotiate (env : Env) (p2p : P2pData) (dev : ℕ) (sa : MacAddr) (msg : P2pMessage)
    (attrs : GoNegReqAttrs) (rxFreq : ℤ) : P2pData × Option UInt8 :=
  let p2p := startAuthorized p2p dev
  let p2p := p2p.setFlags dev fun f => { f with notYetReady := false }
  match msg.goIntent with
  | none => (p2p, some scFailInvalidParams)
  | some intent =>
    if maxGoIntent < intent >>> 1 then (p2p, some scFailInvalidParams)
    else if leavesReplyToPeer p2p dev sa then (p2p, none)
    else
      match goDet p2p.goIntent intent with
      | none => (p2p, some scFailBothGoIntent15)
      | some go =>
        match peerChannelsCheck p2p p2p.channels dev attrs.channelList with
        | (p2p, false) => (p2p, some scFailNoCommonChannels)
        | (p2p, true) =>
          if !passwordIdFits msg.devPasswordId (p2p.mem dev).wpsMethod then
            (p2p, some scFailIncompatibleProvMethod)
          else
            match settleAs env p2p go dev with
            | (p2p, false) => (p2p, some scFailNoCommonChannels)
            | (p2p, true) => (acceptGoNegReq p2p dev msg attrs go rxFreq, some scSuccess)

/-- The entry of the sender, which is created or completed by the request. -/
def goNegReqDevice (env : Env) (p2p : P2pData) (sa : MacAddr) (msg : P2pMessage) :
    P2pData × Option ℕ :=
  match p2p.getDevice sa with
  | none => addDevFromGoNegReq env p2p sa msg
  | some dev =>
    if (p2p.mem dev).flags.probeReqOnly then (addDevInfo env p2p sa dev msg, some dev)
    else (p2p, some dev)

/-- What becomes of a request whose sender has the entry `dev`. -/
def judgeGoNegReq (env : Env) (p2p : P2pData) (dev : Option ℕ) (sa : MacAddr) (msg : P2pMessage)
    (attrs : GoNegReqAttrs) (rxFreq : ℤ) : P2pData × Option UInt8 :=
  match dev with
  | none => (p2p.emit (.goNegReqRx sa msg.devPasswordId), some scFailInfoCurrentlyUnavailable)
  | some d =>
    if (p2p.mem d).flags.userRejected then (p2p, some scFailRejectedByUser)
    else if (p2p.mem d).wpsMethod = .notReady then
      ((p2p.setFlags d fun f => { f with peerWaitingResponse := true }).emit
        (.goNegReqRx sa msg.devPasswordId), some scFailInfoCurrentlyUnavailable)
    else if p2p.goNegPeer.isSome ∧ p2p.goNegPeer ≠ some d then
      (p2p, some scFailUnableToAccommodate)
    else negotiate env p2p d sa msg attrs rxFreq

def answerFreq (p2p : P2pData) (rxFreq : ℤ) : Option ℤ :=
  if 0 < rxFreq then some rxFreq
  else (channelToFreq p2p.cfg.country p2p.cfg.regClass p2p.cfg.channel).map Int.ofNat

/-- The status that was given to the sender of a request. -/
def recordStatus (p2p : P2pData) (dev : Option ℕ) (status : UInt8) : P2pData :=
  match dev with
  | some d => p2p.modify d fun e => { e with status := status }
  | none => p2p

def awaitConfirm (p2p : P2pData) (dev : Option ℕ) (status : UInt8) : P2pData :=
  if status = scSuccess then
    match dev with
    | some d => (p2p.pend .goNegResponse).setFlags d fun f => { f with waitGoNegConfirm := true }
    | none => p2p.pend .goNegResponse
  else p2p.pend .goNegResponseFailure

/-- The answer to a request: the code behind the label `fail`. -/
def answerGoNegReq (env : Env) (p2p : P2pData) (dev : Option ℕ) (sa : MacAddr)
    (msg : P2pMessage) (status : UInt8) (rxFreq : ℤ) : P2pData :=
  let tieBreaker : Bool := (msg.goIntent.getD 0) &&& 1 ≠ 0
  let p2p := recordStatus p2p dev status
  if !env.frame then p2p
  else
    let resp := buildGoNegResp p2p dev msg.dialogToken status !tieBreaker
    match answerFreq p2p rxFreq with
    | none => p2p
    | some freq =>
      (sendAction env (awaitConfirm p2p dev status) freq sa (.goNegResp resp)).1

/-- Source: `p2p_process_go_neg_req`. -/
def processGoNegReq (env : Env) (p2p : P2pData) (sa : MacAddr) (msg : Option P2pMessage)
    (rxFreq : ℤ) : P2pData :=
  match msg with
  | none => p2p
  | some msg =>
    match goNegReqAttrs msg with
    | none => answerGoNegReq env p2p none sa msg scFailInvalidParams rxFreq
    | some attrs =>
      if attrs.deviceAddr ≠ sa then answerGoNegReq env p2p none sa msg scFailInvalidParams rxFreq
      else if msg.status.getD 0 ≠ 0 then
        answerGoNegReq env p2p (p2p.getDevice sa) sa msg scFailInvalidParams rxFreq
      else
        let (p2p, dev) := goNegReqDevice env p2p sa msg
        match judgeGoNegReq env p2p dev sa msg attrs rxFreq with
        | (p2p, none) => p2p
        | (p2p, some status) => answerGoNegReq env p2p dev sa msg status rxFreq

/-! ## Receiving a response -/

/-- The peer is not ready, or rejects the negotiation. -/
def goNegRejected (p2p : P2pData) (dev : ℕ) (status : UInt8) : P2pData :=
  let p2p := p2p.modify dev fun d => { d with goNegReqSent := 0 }
  let p2p :=
    if status = scFailInfoCurrentlyUnavailable then
      let p2p := p2p.modify dev fun d =>
        { d with flags := { d.flags with notYetReady := true }, waitCount := 0 }
      (p2p.setState .waitPeerIdle).setTimeout
    else goNegFailed p2p (some dev) status.toNat
  p2p.emit .sendActionDone

/-- The SSID of the group that the peer is going to own. -/
def takeGroupId (p2p : P2pData) (groupId : Option GroupId) : P2pData :=
  match groupId with
  | some id => { p2p with ssid := id.ssid }.fault (32 < id.ssid.length) (.overrun .ssid id.ssid.length)
  | none => { p2p with ssid := [] }

/-- The part of a response behind the roles: the status of the confirmation. -/
def settleGoNegResp (env : Env) (p2p : P2pData) (dev : ℕ) (msg : P2pMessage)
    (intendedAddr : MacAddr) (go : Bool) : P2pData × UInt8 :=
  let p2p := if go then p2p else takeGroupId p2p msg.groupId
  let p2p := p2p.modify dev fun d =>
    { d with
      goTimeout := (msg.configTimeout.map Prod.fst).getD d.goTimeout
      clientTimeout := (msg.configTimeout.map Prod.snd).getD d.clientTimeout }
  if msg.operatingChannel = none ∧ go = false then (p2p, scFailInvalidParams)
  else
    match msg.channelList with
    | none => (p2p, scFailInvalidParams)
    | some channelList =>
      match peerChannelsCheck p2p p2p.channels dev channelList with
      | (p2p, false) => (p2p, scFailNoCommonChannels)
      | (p2p, true) =>
        let p2p := p2p.modify dev fun d =>
          { d with operFreq := ((msg.operatingChannel.map fun c => freqInt c.freq).getD 0) }
        if !passwordIdFits msg.devPasswordId (p2p.mem dev).wpsMethod then
          (p2p, scFailIncompatibleProvMethod)
        else
          match settleAs env p2p go dev with
          | (p2p, false) => (p2p, scFailNoCommonChannels)
          | (p2p, true) =>
            let p2p := (p2p.setState .goNeg).clearTimeout
            (p2p.modify dev fun d => { d with intendedAddr := intendedAddr }, scSuccess)

/-- A response that accepts the negotiation: the status of the confirmation, and the roles. -/
def takeGoNegResp (env : Env) (p2p : P2pData) (dev : ℕ) (msg : P2pMessage) :
    P2pData × UInt8 × Option Bool :=
  match msg.intendedAddr with
  | none => (p2p, scFailInvalidParams, none)
  | some intendedAddr =>
    match msg.goIntent with
    | none => (p2p, scFailInvalidParams, none)
    | some intent =>
      if maxGoIntent < intent >>> 1 then (p2p, scFailInvalidParams, none)
      else
        match goDet p2p.goIntent intent with
        | none => (p2p, scFailIncompatibleParams, none)
        | some go =>
          let (p2p, status) := settleGoNegResp env p2p dev msg intendedAddr go
          (p2p, status, some go)

/-- The role that a confirmation settles, where it is not known the own end is GO. -/
def recordRole (p2p : P2pData) (dev : ℕ) (status : UInt8) (go : Option Bool) : P2pData :=
  if status = scSuccess then
    (p2p.pend .goNegConfirm).modify dev fun d =>
      { d with goState := if go ≠ some false then .localGo else .remoteGo }
  else p2p.pend .noPendingAction

/-- The confirmation is sent; where that fails, so has the negotiation. -/
def sendConf (env : Env) (p2p : P2pData) (dev : ℕ) (freq : ℤ) (sa : MacAddr) (conf : P2pMessage) :
    P2pData :=
  match sendAction env p2p freq sa (.goNegConf conf) with
  | (p2p, true) => p2p
  | (p2p, false) => goNegFailed p2p (some dev) (-1)

/-- The confirmation: the code behind the label `fail`. -/
def confirmGoNeg (env : Env) (p2p : P2pData) (dev : ℕ) (sa : MacAddr) (msg : P2pMessage)
    (status : UInt8) (go : Option Bool) (rxFreq : ℤ) : P2pData :=
  if !env.frame then p2p
  else
    let conf := buildGoNegConf p2p dev msg.dialogToken status msg.operatingChannel go
    let p2p := recordRole p2p dev status go
    let freq := if 0 < rxFreq then rxFreq else (p2p.mem dev).listenFreq
    sendConf env p2p dev freq sa conf

/-- The peer of the negotiation, if a frame comes from it and it is ready. -/
def goNegPeerOf (p2p : P2pData) (sa : MacAddr) : Option ℕ :=
  (p2p.getDevice sa).filter fun dev =>
    (p2p.mem dev).wpsMethod ≠ .notReady ∧ p2p.goNegPeer = some dev

/-- Source: `p2p_process_go_neg_resp`. -/
def processGoNegResp (env : Env) (p2p : P2pData) (sa : MacAddr) (msg : Option P2pMessage)
    (rxFreq : ℤ) : P2pData :=
  match goNegPeerOf p2p sa, msg with
  | some dev, some msg =>
    if !(p2p.mem dev).flags.waitGoNegResponse then p2p
    else
      let p2p := p2p.setFlags dev fun f => { f with waitGoNegResponse := false }
      if msg.dialogToken ≠ (p2p.mem dev).dialogToken then p2p
      else
        match msg.status with
        | none => confirmGoNeg env p2p dev sa msg scFailInvalidParams none rxFreq
        | some status =>
          if status ≠ 0 then goNegRejected p2p dev status
          else
            let (p2p, status, go) := takeGoNegResp env p2p dev msg
            confirmGoNeg env p2p dev sa msg status go rxFreq
  | _, _ => p2p

/-! ## Receiving a confirmation -/

def takeGoNegConf (env : Env) (p2p : P2pData) (dev : ℕ) (msg : P2pMessage) : P2pData :=
  if msg.status ≠ some 0 then p2p
  else
    let p2p := if (p2p.mem dev).goState = .remoteGo then takeGroupId p2p msg.groupId else p2p
    if (p2p.mem dev).goState = .unknownGo then p2p else goComplete env p2p dev

/-- The TX status of a response is not waited for once its confirmation is there. -/
def giveUpTxStatus (p2p : P2pData) : P2pData :=
  if p2p.pendingActionState = .goNegResponse then p2p.pend .noPendingAction else p2p

/-- Source: `p2p_process_go_neg_conf`. -/
def processGoNegConf (env : Env) (p2p : P2pData) (sa : MacAddr) (msg : Option P2pMessage) :
    P2pData :=
  match goNegPeerOf p2p sa with
  | none => p2p
  | some dev =>
    -- the message is parsed only behind this
    let p2p := giveUpTxStatus p2p
    match msg with
    | none => p2p
    | some msg =>
      if !(p2p.mem dev).flags.waitGoNegConfirm then p2p
      else
        let p2p := p2p.setFlags dev fun f => { f with waitGoNegConfirm := false }
        if msg.dialogToken ≠ (p2p.mem dev).dialogToken then p2p
        else takeGoNegConf env p2p dev msg

/-!
## Invitation

`p2p_invitation.c`: the module invites a peer into a group, and answers when it is invited.

* **`processInvitationReq`**: the answer to a request. Its operating channel is the one that
  `invitation_process` forces, if it is common (`forcedChannel`), and the configured one otherwise
  (`defaultChannel`), where only the list of common channels is added, not looked at.
* `inviteSend`, `processInvitationResp`: the module invites.
-/

/-! ### The answer -/

/-- What is answered: the status, the operating channel and the channel list, and the frequency
that is kept for the callback. -/
structure InvitationAnswer where
  status : UInt8
  regClass : UInt8
  channel : UInt8
  channels : Option P2pChannels
  opFreq : ℤ
  deriving DecidableEq

def InvitationAnswer.refuse (status : UInt8) (opFreq : ℤ) : InvitationAnswer :=
  ⟨status, 0, 0, none, opFreq⟩

def invitationChannels (p2p : P2pData) (dev : ℕ) : P2pChannels :=
  channelsIntersect p2p.cfg.channels (p2p.mem dev).channels

/-- The answer where `invitation_process` forces a frequency. -/
def forcedChannel (p2p : P2pData) (dev : ℕ) (status : UInt8) (opFreq : ℕ) : InvitationAnswer :=
  match freqToChannel opFreq with
  | none => .refuse scFailNoCommonChannels opFreq
  | some (regClass, channel) =>
    if !channelsIncludes (invitationChannels p2p dev) regClass channel then
      ⟨scFailNoCommonChannels, regClass, channel, none, opFreq⟩
    else
      ⟨status, regClass, channel,
        if status = scSuccess then some (invitationChannels p2p dev) else none, opFreq⟩

/-- The answer with the configured operating channel. -/
def defaultChannel (p2p : P2pData) (dev : ℕ) (status : UInt8) : InvitationAnswer :=
  match channelToFreq p2p.cfg.country p2p.cfg.opRegClass p2p.cfg.opChannel with
  | none => .refuse scFailNoCommonChannels (-1)
  | some freq =>
    if status = scSuccess then
      ⟨status, p2p.cfg.opRegClass, p2p.cfg.opChannel, some (invitationChannels p2p dev), freq⟩
    else .refuse status freq

structure InvitationDecision where
  status : UInt8
  go : Bool
  groupBssid : MacAddr
  opFreq : ℕ
  deriving DecidableEq

/-- What `invitation_process` decides; without it the invitation is refused. -/
def invitationDecision (p2p : P2pData) (sa : MacAddr) (msg : P2pMessage) (groupId : GroupId) :
    InvitationDecision :=
  let persistent : Bool :=
    match msg.invitationFlags with
    | some flags => flags &&& invitationFlagsType ≠ 0
    | none => true
  match p2p.cfg.invitationProcess with
  | none => ⟨scFailInfoCurrentlyUnavailable, false, 0, 0⟩
  | some process =>
    let r := process sa msg.groupBssid groupId.deviceAddr groupId.ssid persistent
    ⟨r.1, r.2.1, r.2.2.1, r.2.2.2⟩

def answerDecision (p2p : P2pData) (dev : ℕ) (decision : InvitationDecision) : InvitationAnswer :=
  if decision.opFreq ≠ 0 then forcedChannel p2p dev decision.status decision.opFreq
  else defaultChannel p2p dev decision.status

/-- Source: `p2p_build_invitation_resp`. -/
def buildInvitationResp (p2p : P2pData) (dialogToken : UInt8) (groupBssid : Option MacAddr)
    (answer : InvitationAnswer) : P2pMessage :=
  { P2pMessage.empty with
    p2pAttributes := true
    dialogToken := dialogToken
    status := some answer.status
    configTimeout := some (0, 0)
    operatingChannel :=
      if answer.regClass ≠ 0 ∧ answer.channel ≠ 0 then
        some ⟨p2p.cfg.country, answer.regClass, answer.channel⟩
      else none
    groupBssid := groupBssid
    channelList := answer.channels.map fun c => bufAddChannelList p2p.cfg.country c }

/-- What is kept of a request until the TX status of the answer is known. The Group ID is read
although it may be missing. -/
def keepInvitation (p2p : P2pData) (sa : MacAddr) (msg : P2pMessage) (answer : InvitationAnswer) :
    P2pData :=
  let p2p :=
    { p2p with
      invSa := sa
      invGroupBssid := msg.groupBssid
      invSsid := (msg.groupId.map GroupId.ssid).getD p2p.invSsid
      invGoDevAddr := (msg.groupId.map GroupId.deviceAddr).getD 0
      invStatus := answer.status
      invOpFreq := answer.opFreq }
  p2p.fault msg.groupId.isNone .absent

/-- The answer to a request: the code behind the label `fail`. -/
def answerInvitation (env : Env) (p2p : P2pData) (sa : MacAddr) (msg : P2pMessage)
    (decision : InvitationDecision) (answer : InvitationAnswer) (rxFreq : ℤ) : P2pData :=
  let bssid :=
    if decision.go ∧ answer.status = scSuccess ∧ decision.groupBssid ≠ 0 then
      some decision.groupBssid
    else none
  if !env.frame then p2p
  else
    let resp := buildInvitationResp p2p msg.dialogToken bssid answer
    match answerFreq p2p rxFreq with
    | none => p2p
    | some freq =>
      let p2p := keepInvitation p2p sa msg answer
      let p2p := p2p.pend .invitationResponse
      (sendAction env p2p freq sa (.invitationResp resp)).1

/-- A request that is refused before `invitation_process` is asked. -/
def refuseInvitation (env : Env) (p2p : P2pData) (sa : MacAddr) (msg : P2pMessage)
    (status : UInt8) (rxFreq : ℤ) : P2pData :=
  answerInvitation env p2p sa msg ⟨status, false, 0, 0⟩ (.refuse status 0) rxFreq

/-- A request whose sender has the entry `dev`. -/
def judgeInvitationReq (env : Env) (p2p : P2pData) (dev : ℕ) (sa : MacAddr) (msg : P2pMessage)
    (rxFreq : ℤ) : P2pData :=
  match msg.groupId, msg.channelList with
  | some groupId, some channelList =>
    match peerChannelsCheck p2p p2p.cfg.channels dev channelList with
    | (p2p, false) => refuseInvitation env p2p sa msg scFailNoCommonChannels rxFreq
    | (p2p, true) =>
      let decision := invitationDecision p2p sa msg groupId
      answerInvitation env p2p sa msg decision (answerDecision p2p dev decision) rxFreq
  | _, _ => refuseInvitation env p2p sa msg scFailInvalidParams rxFreq

/-- The entry of the sender, if it is known well enough. -/
def knownDevice (p2p : P2pData) (sa : MacAddr) : Option ℕ :=
  (p2p.getDevice sa).filter fun dev => !(p2p.mem dev).flags.probeReqOnly

/-- Source: `p2p_process_invitation_req`. -/
def processInvitationReq (env : Env) (p2p : P2pData) (sa : MacAddr) (msg : Option P2pMessage)
    (rxFreq : ℤ) : P2pData :=
  match msg with
  | none => p2p
  | some msg =>
    match knownDevice p2p sa with
    | some dev => judgeInvitationReq env p2p dev sa msg rxFreq
    | none =>
      match addDevice env p2p sa rxFreq 0 (some msg) with
      | (p2p, false) =>
        refuseInvitation env p2p sa msg scFailInfoCurrentlyUnavailable rxFreq
      | (p2p, true) =>
        match p2p.getDevice sa with
        | none => refuseInvitation env p2p sa msg scFailInfoCurrentlyUnavailable rxFreq
        | some dev => judgeInvitationReq env p2p dev sa msg rxFreq

/-! ### Inviting -/

def invitedGo (p2p : P2pData) (dev : ℕ) (goDevAddr : Option MacAddr) : MacAddr :=
  match goDevAddr with
  | some addr => addr
  | none => if p2p.invRole = .client then (p2p.mem dev).info.deviceAddr else p2p.cfg.devAddr

/-- Source: `p2p_build_invitation_req`. -/
def buildInvitationReq (p2p : P2pData) (dev : ℕ) (goDevAddr : Option MacAddr) :
    P2pData × P2pMessage :=
  let token := nextDialogToken (p2p.mem dev).dialogToken
  let msg := bufAddDeviceInfo p2p (p2p.mem dev).wpsMethod
    { P2pMessage.empty with
      p2pAttributes := true
      dialogToken := token
      configTimeout :=
        some (if p2p.invRole = .activeGo ∨ p2p.invPersistent = false then (0, 0) else (100, 20))
      invitationFlags := some (if p2p.invPersistent then invitationFlagsType else 0)
      operatingChannel := some (ownOperatingChannel p2p)
      groupBssid := p2p.invBssid
      channelList := some (bufAddChannelList p2p.cfg.country p2p.channels)
      groupId := some ⟨invitedGo p2p dev goDevAddr, p2p.invSsid⟩ }
  (p2p.modify dev fun d => { d with dialogToken := token }, msg)

/-- Source: `p2p_invite_send`; `false` is the result -1. -/
def inviteSend (env : Env) (p2p : P2pData) (dev : ℕ) (goDevAddr : Option MacAddr) :
    P2pData × Bool :=
  let freq := peerFreq (p2p.mem dev)
  if freq ≤ 0 then (p2p, false)
  else if !env.frame then (p2p, false)
  else
    let (p2p, req) := buildInvitationReq p2p dev goDevAddr
    let p2p :=
      { p2p.setState .invite with
        pendingActionState := .invitationRequest
        invitePeer := some dev }
    let p2p := p2p.modify dev fun d => { d with invitationReqs := d.invitationReqs + 1 }
    (sendOrRetry env p2p freq (p2p.mem dev).info.deviceAddr (.invitationReq req), true)

/-- Source: `p2p_process_invitation_resp`. -/
def processInvitationResp (p2p : P2pData) (sa : MacAddr) (msg : Option P2pMessage) : P2pData :=
  match p2p.getDevice sa, msg.bind P2pMessage.status with
  | some dev, some status =>
    if p2p.invitePeer ≠ some dev then p2p
    else
      let p2p := p2p.emit (.invitationResult status.toNat (msg.bind P2pMessage.groupBssid))
      { p2p.clearTimeout.setState .idle with invitePeer := none }
  | _, _ => p2p

end Hostapd.P2p
