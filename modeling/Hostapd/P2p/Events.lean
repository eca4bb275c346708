import Hostapd.P2p.GoNeg

/-!
# What happens to the module

The entry points of `p2p.c`: what the user asks for, the frames and scan results that come in, the
TX status of the frames that went out, and the timers.

* `Input` lists them, **`step`** is what one of them does to the module.

Searching for peers (`p2p_find`, `p2p_search`) is there as far as the other functions run into it;
the parameters of a scan and the Listen state that the user asks for are not.
-/

namespace Hostapd.P2p

open Hostapd.Lib

open Hostapd.Utils.Eloop (OsTime)

/-! ## Finding peers -/

/-- Source: `p2p_listen_in_find`; the time is drawn by chance. -/
def listenInFind (env : Env) (p2p : P2pData) (usec : ℕ) : P2pData :=
  match channelToFreq p2p.cfg.country p2p.cfg.regClass p2p.cfg.channel with
  | none => p2p
  | some freq =>
    let p2p := { p2p with pendingListenFreq := freq, pendingListenTime := usec }
    if !env.frame then p2p
    else if env.listen then p2p.emit (.startListen freq)
    else { p2p with pendingListenFreq := 0 }

/-- Source: `p2p_start_sd`; `false` is the result -1. -/
def startSd (env : Env) (p2p : P2pData) (dev : ℕ) : P2pData × Bool :=
  let freq := peerFreq (p2p.mem dev)
  if freq ≤ 0 then (p2p, false)
  else if !pendingSdReq p2p dev then (p2p, false)
  else if !env.frame then (p2p, false)
  else
    let p2p := { p2p with sdPeer := some dev, pendingActionState := .sd }
    sendAction env p2p freq (p2p.mem dev).info.deviceAddr .sdQuery

/-- Source: `p2p_build_prov_disc_req`. -/
def buildProvDiscReq (p2p : P2pData) (dev : ℕ) (token : UInt8) (join : Bool) : P2pMessage :=
  bufAddDeviceInfo p2p .notReady
    { P2pMessage.empty with
      p2pAttributes := true
      dialogToken := token
      capability := some (p2p.devCapab, 0)
      groupId :=
        if join then some ⟨(p2p.mem dev).info.deviceAddr, (p2p.mem dev).operSsid⟩ else none
      wpsConfigMethods := (p2p.mem dev).reqConfigMethods }

/-- Source: `p2p_send_prov_disc_req`; `false` is the result -1. -/
def sendProvDiscReq (env : Env) (p2p : P2pData) (dev : ℕ) (join : Bool) : P2pData × Bool :=
  let d := p2p.mem dev
  let freq := peerFreq d
  if freq ≤ 0 then (p2p, false)
  else if d.flags.groupClientOnly ∧ d.info.devCapab &&& devCapabClientDiscoverability = 0 then
    (p2p, false)
  else
    let token := nextDialogToken d.dialogToken
    let p2p := p2p.modify dev fun d => { d with dialogToken := token }
    if !env.frame then (p2p, false)
    else
      let req := buildProvDiscReq p2p dev token join
      sendAction env (p2p.pend .pd) freq d.info.deviceAddr
        (.provDiscReq req)

/-- The loop of `p2p_continue_find`; `true` if something was sent. -/
def continueWith (env : Env) : P2pData → List ℕ → P2pData × Bool
  | p2p, [] => (p2p, false)
  | p2p, dev :: devs =>
    let d := p2p.mem dev
    if d.flags.sdSchedule then startSd env p2p dev
    else if d.reqConfigMethods ≠ 0 ∧ d.flags.pdForJoin = false then
      match sendProvDiscReq env p2p dev false with
      | (p2p, true) => (p2p, true)
      | (p2p, false) => continueWith env p2p devs
    else continueWith env p2p devs

/-- Source: `p2p_continue_find`. -/
def continueFind (env : Env) (p2p : P2pData) (usec : ℕ) : P2pData :=
  match continueWith env (p2p.setState .search) p2p.devices with
  | (p2p, true) => p2p
  | (p2p, false) => listenInFind env p2p usec

/-- Source: `p2p_search`. -/
def search (env : Env) (p2p : P2pData) (usec : ℕ) : P2pData :=
  if p2p.drvInListen ≠ 0 then p2p
  else
    let p2p := p2p.emit .stopListen
    if env.scan then { p2p.emit .p2pScan with p2pScanRunning := true }
    else continueFind env p2p usec

/-- Source: `p2p_listen`, when it is called at the end of a scan. -/
def listenAfterScan (env : Env) (p2p : P2pData) : P2pData :=
  match channelToFreq p2p.cfg.country p2p.cfg.regClass p2p.cfg.channel with
  | none => p2p
  | some freq =>
    let p2p := { p2p with pendingListenFreq := freq }
    if p2p.p2pScanRunning then { p2p with startAfterScan := .listen }
    else if !env.frame then p2p
    else if env.listen then (p2p.emit (.startListen freq)).setState .listenOnly
    else { p2p with pendingListenFreq := 0 }

/-- The frame that has waited for the end of the scan. -/
def sendQueued (env : Env) (p2p : P2pData) (tx : PendingActionTx) : P2pData :=
  let p2p := if env.sent then p2p.emit (.sendAction tx.freq tx.dst tx.frame) else p2p
  { p2p with afterScanTx := none }

/-- The operation that has waited for the end of the scan; `true` if there was one. -/
def startQueued (env : Env) (p2p : P2pData) (op : AfterScan) : P2pData × Bool :=
  match op with
  | .nothing => (p2p, false)
  | .listen => (listenAfterScan env p2p, true)
  | .connect =>
    match p2p.getDevice p2p.afterScanPeer with
    | none => (p2p, false)
    | some dev => ((connectSend env p2p dev).1, true)

/-- Source: `p2p_run_after_scan`; `true` if there was something to do. -/
def runAfterScan (env : Env) (p2p : P2pData) : P2pData × Bool :=
  match p2p.afterScanTx with
  | some tx => (sendQueued env p2p tx, true)
  | none => startQueued env { p2p with startAfterScan := .nothing } p2p.startAfterScan

/-- Source: `p2p_scan_res_handler`. -/
def scanResHandler (env : Env) (p2p : P2pData) (bssid : MacAddr) (freq level : ℤ)
    (msg : Option P2pMessage) : P2pData :=
  let p2p := (addDevice env p2p bssid freq level msg).1
  match p2p.goNegPeer with
  | none => p2p
  | some dev =>
    if p2p.state = .search ∧ (p2p.mem dev).info.deviceAddr = bssid then (connectSend env p2p dev).1
    else p2p

/-- Source: `p2p_scan_res_handled`. -/
def scanResHandled (env : Env) (p2p : P2pData) (usec : ℕ) : P2pData :=
  match runAfterScan env { p2p with p2pScanRunning := false } with
  | (p2p, true) => p2p
  | (p2p, false) => if p2p.state = .search then continueFind env p2p usec else p2p

/-- Source: `p2p_scan_timeout`. -/
def scanTimeout (env : Env) (p2p : P2pData) : P2pData :=
  if p2p.p2pScanRunning then (runAfterScan env { p2p with p2pScanRunning := false }).1 else p2p

/-! ## Device discoverability -/

/-- Source: `p2p_send_dev_disc_req`; `false` is the result -1. -/
def sendDevDiscReq (env : Env) (p2p : P2pData) (dev : ℕ) : P2pData × Bool :=
  match p2p.getDevice (p2p.mem dev).memberInGoDev with
  | none => (p2p, false)
  | some go =>
    if (p2p.mem dev).operFreq ≤ 0 then (p2p, false)
    else if !env.frame then (p2p, false)
    else
      let token := nextDialogToken (p2p.mem go).dialogToken
      let p2p := p2p.modify go fun d => { d with dialogToken := token }
      let req :=
        { P2pMessage.empty with
          p2pAttributes := true
          dialogToken := token
          deviceId := some (p2p.mem dev).info.deviceAddr
          groupId := some ⟨(p2p.mem go).info.deviceAddr, (p2p.mem go).operSsid⟩ }
      let p2p :=
        { p2p with
          pendingClientDiscGo := some go
          pendingClientDiscAddr := (p2p.mem dev).info.deviceAddr
          pendingActionState := .devDiscRequest }
      sendAction env p2p (p2p.mem dev).operFreq (p2p.mem go).info.deviceAddr (.devDiscReq req)

/-- Source: `p2p_dev_disc_req_cb`. -/
def devDiscReqCb (p2p : P2pData) (success : Bool) : P2pData :=
  if success then p2p else (p2p.setState .connect).setTimeout

/-- Source: `p2p_send_dev_disc_resp`. -/
def sendDevDiscResp (env : Env) (p2p : P2pData) (token : UInt8) (addr : MacAddr) (freq : ℤ)
    (status : UInt8) : P2pData :=
  if !env.frame then p2p
  else
    let resp :=
      { P2pMessage.empty with p2pAttributes := true, dialogToken := token, status := some status }
    (sendAction env (p2p.pend .devDiscResponse) freq addr
      (.devDiscResp resp)).1

/-- Source: `p2p_go_disc_req_cb`. -/
def goDiscReqCb (env : Env) (p2p : P2pData) (success : Bool) : P2pData :=
  let p2p := p2p.emit .sendActionDone
  if p2p.pendingDevDiscDialogToken = 0 then p2p
  else
    { sendDevDiscResp env p2p p2p.pendingDevDiscDialogToken p2p.pendingDevDiscAddr
        p2p.pendingDevDiscFreq (if success then scSuccess else scFailUnableToAccommodate) with
      pendingDevDiscDialogToken := 0 }

/-! ## TX status -/

/-- Source: `p2p_go_neg_req_cb`. -/
def goNegReqCb (env : Env) (p2p : P2pData) (success : Bool) : P2pData :=
  match p2p.goNegPeer with
  | none => p2p
  | some dev =>
    let p2p :=
      if success then p2p.modify dev fun d => { d with goNegReqSent := d.goNegReqSent + 1 } else p2p
    let d := p2p.mem dev
    if success ∧ d.flags.userRejected then p2p.setState .idle
    else if success = false ∧ d.info.devCapab &&& devCapabClientDiscoverability ≠ 0 ∧
        d.memberInGoDev ≠ 0 then
      (sendDevDiscReq env (p2p.emit .sendActionDone) dev).1
    else (p2p.setState .connect).setTimeout

/-- Source: `p2p_go_neg_resp_cb`. -/
def goNegRespCb (p2p : P2pData) : P2pData :=
  if p2p.goNegPeer.isNone ∧ p2p.state = .provisioning then p2p
  else (p2p.setState .connect).setTimeout

/-- Source: `p2p_go_neg_resp_failure_cb`. -/
def goNegRespFailureCb (p2p : P2pData) : P2pData :=
  match p2p.goNegPeer with
  | none => p2p
  | some dev =>
    if (p2p.mem dev).status ≠ scSuccess then
      goNegFailed p2p (some dev) (p2p.mem dev).status.toNat
    else p2p

/-- Source: `p2p_go_neg_conf_cb`; without an acknowledgment the confirmation counts as received. -/
def goNegConfCb (env : Env) (p2p : P2pData) (result : SendActionResult) : P2pData :=
  let p2p := p2p.emit .sendActionDone
  if result = .failed then goNegFailed p2p p2p.goNegPeer (-1)
  else
    match p2p.goNegPeer with
    | none => p2p
    | some dev => goComplete env p2p dev

/-- Source: `p2p_sd_cb`. -/
def sdCb (env : Env) (p2p : P2pData) (success : Bool) (usec : ℕ) : P2pData :=
  match success, p2p.sdPeer with
  | false, some dev =>
    continueFind env
      { p2p.setFlags dev fun f => { f with sdSchedule := false } with sdPeer := none } usec
  | _, none => continueFind env p2p usec
  | true, some _ => (p2p.setState .sdDuringFind).setTimeout

/-- Source: `p2p_prov_disc_cb`. -/
def provDiscCb (env : Env) (p2p : P2pData) (success : Bool) (usec : ℕ) : P2pData :=
  if success then
    (if p2p.state = .search then p2p.setState .pdDuringFind else p2p).setTimeout
  else if p2p.state ≠ .idle then continueFind env p2p usec
  else p2p

/-- Source: `p2p_invitation_req_cb`. -/
def invitationReqCb (p2p : P2pData) : P2pData :=
  match p2p.invitePeer with
  | none => p2p
  | some _ => (p2p.setState .invite).setTimeout

/-- Source: `p2p_invitation_resp_cb`. -/
def invitationRespCb (p2p : P2pData) (success : Bool) : P2pData :=
  let p2p := p2p.emit .sendActionDone
  if success then
    p2p.emit (.invitationReceived p2p.invSa p2p.invGroupBssid p2p.invSsid p2p.invGoDevAddr
      p2p.invStatus p2p.invOpFreq)
  else p2p

/-- Source: `p2p_send_action_cb`. -/
def sendActionCb (env : Env) (p2p : P2pData) (result : SendActionResult) (usec : ℕ) : P2pData :=
  let success : Bool := result = .success
  let state := p2p.pendingActionState
  let p2p := p2p.pend .noPendingAction
  match state with
  | .noPendingAction => p2p
  | .goNegRequest => goNegReqCb env p2p success
  | .goNegResponse => goNegRespCb p2p
  | .goNegResponseFailure => goNegRespFailureCb p2p
  | .goNegConfirm => goNegConfCb env p2p result
  | .sd => sdCb env p2p success usec
  | .pd => provDiscCb env p2p success usec
  | .invitationRequest => invitationReqCb p2p
  | .invitationResponse => invitationRespCb p2p success
  | .devDiscRequest => devDiscReqCb p2p success
  | .devDiscResponse => p2p.emit .sendActionDone
  | .goDiscReq => goDiscReqCb env p2p success

/-! ## Timers -/

/-- The next request to the peer of the negotiation, unless there were too many. -/
def connectAgain (env : Env) (p2p : P2pData) (dev : ℕ) : P2pData :=
  if 120 ≤ (p2p.mem dev).connectReqs then goNegFailed p2p (some dev) (-1)
  else (connectSend env (p2p.setState .connect) dev).1

/-- Source: `p2p_timeout_connect_listen`. -/
def timeoutConnectListen (env : Env) (p2p : P2pData) : P2pData :=
  match p2p.goNegPeer with
  | none => p2p.setState .idle
  | some dev => if p2p.drvInListen ≠ 0 then p2p else connectAgain env p2p dev

/-- Source: `p2p_timeout_wait_peer_idle`. -/
def timeoutWaitPeerIdle (env : Env) (p2p : P2pData) (usec : ℕ) : P2pData :=
  match p2p.goNegPeer with
  | none => p2p
  | some dev =>
    let p2p := p2p.modify dev fun d => { d with waitCount := d.waitCount + 1 }
    if 120 ≤ (p2p.mem dev).waitCount then goNegFailed p2p (some dev) (-1)
    else listenInFind env (p2p.setState .waitPeerConnect) usec

/-- Source: `p2p_timeout_sd_during_find`. -/
def timeoutSdDuringFind (env : Env) (p2p : P2pData) (usec : ℕ) : P2pData :=
  match p2p.sdPeer with
  | none => continueFind env p2p usec
  | some dev =>
    let p2p := (p2p.emit .sendActionDone).setFlags dev fun f => { f with sdSchedule := false }
    continueFind env { p2p with sdPeer := none } usec

/-- Source: `p2p_timeout_invite`. -/
def timeoutInvite (env : Env) (p2p : P2pData) (usec : ℕ) : P2pData :=
  let p2p := (p2p.emit .sendActionDone).setState .inviteListen
  if p2p.invRole = .activeGo then p2p.setTimeout else listenInFind env p2p usec

/-- Source: `p2p_timeout_invite_listen`. -/
def timeoutInviteListen (env : Env) (p2p : P2pData) : P2pData :=
  match p2p.invitePeer with
  | none => p2p.setState .idle
  | some dev =>
    if (p2p.mem dev).invitationReqs < 100 then
      (inviteSend env (p2p.setState .invite) dev p2p.inviteGoDevAddr).1
    else (p2p.emit (.invitationResult (-1) none)).setState .idle

/-- Source: `p2p_state_timeout`. -/
def stateTimeout (env : Env) (p2p : P2pData) (usec : ℕ) : P2pData :=
  let p2p := { p2p with inListen := false }
  match p2p.state with
  | .idle | .goNeg | .listenOnly | .provisioning => p2p
  | .search => search env p2p usec
  | .connect => listenInFind env ((p2p.emit .sendActionDone).setState .connectListen) usec
  | .connectListen => timeoutConnectListen env p2p
  | .waitPeerConnect => (p2p.setState .waitPeerIdle).setTimeout
  | .waitPeerIdle => timeoutWaitPeerIdle env p2p usec
  | .sdDuringFind => timeoutSdDuringFind env p2p usec
  | .pdDuringFind => continueFind env (p2p.emit .sendActionDone) usec
  | .invite => timeoutInvite env p2p usec
  | .inviteListen => timeoutInviteListen env p2p

/-- Source: `p2p_listen_cb`. -/
def listenCb (p2p : P2pData) (freq : ℕ) : P2pData :=
  if freq ≠ p2p.pendingListenFreq then p2p
  else
    let p2p := { p2p with inListen := true, drvInListen := freq }
    let p2p := if p2p.pendingListenTime ≠ 0 then p2p.setTimeout else p2p
    { p2p with pendingListenFreq := 0 }

/-- The next step when the Listen state has ended. -/
def afterListen (env : Env) (p2p : P2pData) (usec : ℕ) : P2pData :=
  match p2p.state, p2p.goNegPeer with
  | .connectListen, some dev => connectAgain env p2p dev
  | .search, _ => search env p2p usec
  | _, _ => p2p

/-- Source: `p2p_listen_end`. -/
def listenEnd (env : Env) (p2p : P2pData) (usec : ℕ) : P2pData :=
  let p2p := { p2p with drvInListen := 0 }
  if p2p.inListen then p2p else afterListen env p2p usec

/-- Source: `p2p_go_neg_start`. -/
def goNegStart (env : Env) (p2p : P2pData) : P2pData :=
  match p2p.goNegPeer with
  | none => p2p
  | some dev =>
    let p2p := (p2p.emit .stopListen).modify dev fun d => { d with status := scSuccess }
    (connectSend env p2p dev).1

/-- Source: `p2p_invite_start`. -/
def inviteStart (env : Env) (p2p : P2pData) : P2pData :=
  match p2p.invitePeer with
  | none => p2p
  | some dev => (inviteSend env (p2p.emit .stopListen) dev p2p.inviteGoDevAddr).1

/-! ## What the user asks for -/

def supportedBest (p2p : P2pData) (best : ℤ) : Option (UInt8 × UInt8) :=
  if p2p.cfg.cfgOpChannel then none else bestChannel best p2p.cfg.channels

/-- Source: `p2p_prepare_channel`; `false` is the result -1. -/
def prepareChannel (p2p : P2pData) (forceFreq : ℕ) : P2pData × Bool :=
  if forceFreq ≠ 0 then
    match freqToChannel forceFreq with
    | none => (p2p, false)
    | some (regClass, channel) =>
      if !channelsIncludes p2p.cfg.channels regClass channel then (p2p, false)
      else
        ({ p2p with
            opRegClass := regClass
            opChannel := channel
            channels := .single regClass channel }, true)
  else
    let best := (supportedBest p2p p2p.bestFreqOverall).or
      ((supportedBest p2p p2p.bestFreq5).or (supportedBest p2p p2p.bestFreq24))
    let c := best.getD (p2p.cfg.opRegClass, p2p.cfg.opChannel)
    ({ p2p with opRegClass := c.1, opChannel := c.2, channels := p2p.cfg.channels }, true)

/-- The parameters of `p2p_connect` and `p2p_authorize`. -/
structure GroupFormation where
  peerAddr : MacAddr
  wpsMethod : WpsMethod
  goIntent : UInt8
  ownInterfaceAddr : MacAddr
  forceFreq : ℕ
  persistentGroup : Bool
  deriving DecidableEq

def prepareDevice (params : GroupFormation) (d : P2pDevice) : P2pDevice :=
  { d with
    goNegReqSent := 0
    goState := .unknownGo
    wpsMethod := params.wpsMethod
    status := scSuccess
    flags := { d.flags with
      notYetReady := false
      userRejected := false
      preferPersistentGroup := params.persistentGroup
      forceFreq := params.forceFreq ≠ 0 } }

/-- A peer that `p2p_connect` does not send a request to. -/
def cannotConnect (d : P2pDevice) : Bool :=
  d.flags.probeReqOnly ||
    d.flags.groupClientOnly &&
      (d.info.devCapab &&& devCapabClientDiscoverability = 0 || d.operFreq ≤ 0)

/-- An entry that a request is going to be sent to. -/
def prepareConnect (params : GroupFormation) (d : P2pDevice) : P2pDevice :=
  { prepareDevice params d with
    connectReqs := 0
    flags := { (prepareDevice params d).flags with
      waitGoNegResponse := false
      waitGoNegConfirm := false } }

/-- The parameters of a negotiation that the module keeps. -/
def takeParams (p2p : P2pData) (params : GroupFormation) : P2pData :=
  { p2p with goIntent := params.goIntent, intendedAddr := params.ownInterfaceAddr }

/-- The first request, at once or after the scan that is running. -/
def startConnect (env : Env) (p2p : P2pData) (peerAddr : MacAddr) (dev : ℕ) : P2pData :=
  if p2p.p2pScanRunning then
    { p2p with afterScanTx := none, startAfterScan := .connect, afterScanPeer := peerAddr }
  else (connectSend env { p2p with afterScanTx := none, startAfterScan := .nothing } dev).1

/-- Source: `p2p_connect`. -/
def connect (env : Env) (p2p : P2pData) (params : GroupFormation) : P2pData :=
  match prepareChannel p2p params.forceFreq with
  | (p2p, false) => p2p
  | (p2p, true) =>
    match p2p.getDevice params.peerAddr with
    | none => p2p
    | some dev =>
      if cannotConnect (p2p.mem dev) then p2p
      else
        let p2p := takeParams (p2p.modify dev (prepareConnect params)) params
        startConnect env (stopUnlessIdle p2p 0) params.peerAddr dev

/-- Source: `p2p_authorize`. -/
def authorize (p2p : P2pData) (params : GroupFormation) : P2pData :=
  match prepareChannel p2p params.forceFreq with
  | (p2p, false) => p2p
  | (p2p, true) =>
    match p2p.getDevice params.peerAddr with
    | none => p2p
    | some dev => takeParams (p2p.modify dev (prepareDevice params)) params

/-- Source: `p2p_unauthorize`. -/
def unauthorize (p2p : P2pData) (addr : MacAddr) : P2pData :=
  match p2p.getDevice addr with
  | none => p2p
  | some dev =>
    let p2p := p2p.modify dev fun d =>
      { d with
        wpsMethod := .notReady
        flags := { d.flags with waitGoNegResponse := false, waitGoNegConfirm := false } }
    { p2p with
      goNegPeer := if p2p.goNegPeer = some dev then none else p2p.goNegPeer
      afterScanTx := p2p.afterScanTx.filter fun tx => tx.dst ≠ addr }

/-- Source: `p2p_reject`. -/
def reject (p2p : P2pData) (addr : MacAddr) : P2pData :=
  match p2p.getDevice addr with
  | none => p2p
  | some dev =>
    p2p.modify dev fun d =>
      { d with status := scFailRejectedByUser, flags := { d.flags with userRejected := true } }

/-- The parameters of `p2p_invite`. -/
structure InviteParams where
  peer : MacAddr
  role : InviteRole
  bssid : Option MacAddr
  ssid : Bytes
  forceFreq : ℕ
  goDevAddr : Option MacAddr
  persistentGroup : Bool
  deriving DecidableEq

/-- The channels of an invitation; `false` if the frequency is not known. Unlike
`p2p_prepare_channel`, this does not look at the supported channels. -/
def inviteChannel (p2p : P2pData) (forceFreq : ℕ) : P2pData × Bool :=
  if forceFreq ≠ 0 then
    match freqToChannel forceFreq with
    | none => (p2p, false)
    | some (regClass, channel) =>
      ({ p2p with
          opRegClass := regClass
          opChannel := channel
          channels := .single regClass channel }, true)
  else
    ({ p2p with
        opRegClass := p2p.cfg.opRegClass
        opChannel := p2p.cfg.opChannel
        channels := p2p.cfg.channels }, true)

/-- The parameters of an invitation that the module keeps. -/
def takeInviteParams (p2p : P2pData) (params : InviteParams) : P2pData :=
  { p2p with
    invRole := params.role
    invBssid := params.bssid
    invSsid := params.ssid
    invPersistent := params.persistentGroup }

def invitePeer (env : Env) (p2p : P2pData) (params : InviteParams) : P2pData :=
  match p2p.getDevice params.peer with
  | none => p2p
  | some dev =>
    if (p2p.mem dev).listenFreq ≤ 0 ∧ (p2p.mem dev).operFreq ≤ 0 then p2p
    else
      match inviteChannel (p2p.modify dev fun d => { d with invitationReqs := 0 })
        params.forceFreq with
      | (p2p, false) => p2p
      | (p2p, true) =>
        (inviteSend env (takeInviteParams (stopUnlessIdle p2p 0) params) dev params.goDevAddr).1

/-- Source: `p2p_invite`. -/
def invite (env : Env) (p2p : P2pData) (params : InviteParams) : P2pData :=
  invitePeer env { p2p with inviteGoDevAddr := params.goDevAddr } params

/-- Source: `p2p_clear_go_neg`. -/
def clearGoNeg (p2p : P2pData) : P2pData :=
  { p2p.clearTimeout.setState .idle with goNegPeer := none }

/-- Source: `p2p_wps_success_cb`. -/
def wpsSuccessCb (p2p : P2pData) (macAddr : MacAddr) : P2pData :=
  match p2p.goNegPeer with
  | none => p2p
  | some dev => if macAddr = (p2p.mem dev).intendedAddr then clearGoNeg p2p else p2p

/-- Source: `p2p_group_formation_failed`. -/
def groupFormationFailed (p2p : P2pData) : P2pData :=
  if p2p.goNegPeer.isSome then clearGoNeg p2p else p2p

/-- Source: `p2p_flush`. -/
def flush (p2p : P2pData) : P2pData :=
  let p2p := { p2p.clearTimeout.setState .idle with startAfterScan := .nothing, goNegPeer := none }
  let p2p := p2p.devices.foldl removeDevice p2p
  { p2p with sdQueries := [], afterScanTx := none }

/-! ## The steps -/

/-- What may happen to the module; `usec` is the time that a Listen state is drawn to take. -/
inductive Input
  | goNegReq (sa : MacAddr) (msg : Option P2pMessage) (rxFreq : ℤ)
  | goNegResp (sa : MacAddr) (msg : Option P2pMessage) (rxFreq : ℤ)
  | goNegConf (sa : MacAddr) (msg : Option P2pMessage)
  | invitationReq (sa : MacAddr) (msg : Option P2pMessage) (rxFreq : ℤ)
  | invitationResp (sa : MacAddr) (msg : Option P2pMessage)
  | scanRes (bssid : MacAddr) (freq level : ℤ) (msg : Option P2pMessage)
  | scanResHandled (usec : ℕ)
  | scanTimeout
  | probeReq (addr : MacAddr) (msg : Option P2pMessage)
  | sendActionCb (result : SendActionResult) (usec : ℕ)
  | stateTimeout (usec : ℕ)
  | listenCb (freq : ℕ)
  | listenEnd (usec : ℕ)
  | goNegStart
  | inviteStart
  | expire (now : OsTime)
  | connect (params : GroupFormation)
  | authorize (params : GroupFormation)
  | unauthorize (addr : MacAddr)
  | reject (addr : MacAddr)
  | invite (params : InviteParams)
  | stopFind
  | wpsSuccess (macAddr : MacAddr)
  | groupFormationFailed
  | flush

def input (env : Env) (p2p : P2pData) : Input → P2pData
  | .goNegReq sa msg rxFreq => processGoNegReq env p2p sa msg rxFreq
  | .goNegResp sa msg rxFreq => processGoNegResp env p2p sa msg rxFreq
  | .goNegConf sa msg => processGoNegConf env p2p sa msg
  | .invitationReq sa msg rxFreq => processInvitationReq env p2p sa msg rxFreq
  | .invitationResp sa msg => processInvitationResp p2p sa msg
  | .scanRes bssid freq level msg => scanResHandler env p2p bssid freq level msg
  | .scanResHandled usec => scanResHandled env p2p usec
  | .scanTimeout => scanTimeout env p2p
  | .probeReq addr msg => addDevFromProbeReq env p2p addr msg
  | .sendActionCb result usec => sendActionCb env p2p result usec
  | .stateTimeout usec =>
    if p2p.stateTimeout then stateTimeout env p2p.clearTimeout usec else p2p
  | .listenCb freq => listenCb p2p freq
  | .listenEnd usec => listenEnd env p2p usec
  | .goNegStart => goNegStart env p2p
  | .inviteStart => inviteStart env p2p
  | .expire now => expirePeers p2p now
  | .connect params => connect env p2p params
  | .authorize params => authorize p2p params
  | .unauthorize addr => unauthorize p2p addr
  | .reject addr => reject p2p addr
  | .invite params => invite env p2p params
  | .stopFind => stopFindForFreq p2p 0
  | .wpsSuccess macAddr => wpsSuccessCb p2p macAddr
  | .groupFormationFailed => groupFormationFailed p2p
  | .flush => flush p2p

/-- A step of the module: what happens, with what it gets from outside. -/
def step (p2p : P2pData) (a : Env × Input) : P2pData := input a.1 p2p a.2

/-- The module after `p2p_init`, for a configuration that it accepts. -/
def init (cfg : P2pConfig) (tieBreaker : Bool) (devCapab : UInt8) : P2pData where
  cfg := cfg
  state := .idle
  mem := fun _ => .zero 0
  devices := []
  goNegPeer := none
  invitePeer := none
  inviteGoDevAddr := none
  sdPeer := none
  sdQueries := []
  intendedAddr := 0
  goIntent := 0
  nextTieBreaker := tieBreaker
  ssid := []
  opRegClass := 0
  opChannel := 0
  channels := .empty
  pendingActionState := .noPendingAction
  pendingListenFreq := 0
  pendingListenTime := 0
  devCapab := devCapab
  inListen := false
  drvInListen := 0
  invRole := .go
  invBssid := none
  invSsid := []
  invSa := 0
  invGroupBssid := none
  invGoDevAddr := 0
  invStatus := 0
  invOpFreq := 0
  invPersistent := false
  p2pScanRunning := false
  startAfterScan := .nothing
  afterScanPeer := 0
  afterScanTx := none
  pendingClientDiscGo := none
  pendingClientDiscAddr := 0
  pendingDevDiscDialogToken := 0
  pendingDevDiscAddr := 0
  pendingDevDiscFreq := 0
  extListen := none
  peerFilter := 0
  crossConnect := false
  bestFreq24 := 0
  bestFreq5 := 0
  bestFreqOverall := 0
  stateTimeout := false
  busy := none
  given := []
  settled := .empty
  out := []
  errors := []

/-! ## A module to look at -/

def sampleChannels : P2pChannels := ⟨[⟨81, [1, 6, 11], by decide⟩], by decide⟩

/-- A module that listens on channel 1 and operates on channel 6. -/
def sampleCfg (devAddr : MacAddr) (maxPeers : ℕ) : P2pConfig where
  country := ⟨0x58, 0x58, 0x04⟩
  regClass := 81
  channel := 1
  opRegClass := 81
  opChannel := 6
  cfgOpChannel := true
  channels := sampleChannels
  devAddr := devAddr
  devName := []
  priDevType := []
  numSecDevTypes := 0
  maxPeers := maxPeers
  intraBss := false
  ssidPostfix := []
  invitationProcess := none

/-- A call in the second `now`, with memory for an entry at `block` and everything else. -/
def sampleEnv (now : ℕ) (block : ℕ) : Env where
  clock := fun _ => ⟨now, 0⟩
  block := fun n => some (block + n)
  frame := true
  queue := true
  sent := true
  listen := true
  scan := true
  ssidChars := []
  passphrase := []

def sampleBeacon (addr : MacAddr) : P2pMessage :=
  { P2pMessage.empty with p2pAttributes := true, deviceInfo := some ⟨addr, 0, [], 0⟩ }

def sampleFormation (addr : MacAddr) : GroupFormation where
  peerAddr := addr
  wpsMethod := .pbc
  goIntent := 7
  ownInterfaceAddr := 0
  forceFreq := 0
  persistentGroup := false

/-- The module after a scan has found a peer, at 0, and the user has asked for a group with it. -/
def negotiating : P2pData :=
  [(sampleEnv 1 0, .scanRes 0x20 2412 0 (some (sampleBeacon 0x20))),
    (sampleEnv 1 0, .connect (sampleFormation 0x20))].foldl step (init (sampleCfg 0x10 4) false 0)

end Hostapd.P2p
