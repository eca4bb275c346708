import Hostapd.EapolSupp.EapPeer
import Hostapd.Lib.Run

/-!
# The 802.1X supplicant: the EAPOL machines

The supplicant PAE, the key receive and the supplicant backend machine of `eapol_supp_sm.c`, and the
program around them.

* **`paeStep`**, **`keyRxStep`** and **`beStep`** are the steps of the machines; the entries are
  named after the states, with the machine in front. `processKey` handles an EAPOL-Key frame.
* **`go`** goes on with `eapol_sm_step`, by one step of the three machines or by one of the EAP
  machine; `Pc` tells where the program is.
* **`step`** is a step of the program among its callers: nothing is done from outside before it is
  at rest. `rxEapol` receives a frame.
-/

namespace Hostapd.EapolSupp

open Hostapd.Lib

section Machine

variable {π : Type} (crypto : EapolCrypto) (w : World π)

/-! ## The supplicant PAE machine -/

/-- Source: `state_machine.h`, `SM_ENTRY`. -/
@[simp] def paeEntry (global : Bool) (st : PaeState) (sm : EapolSm π) : EapolSm π :=
  { sm.note (.pae sm.paeState st) with
    changed := sm.changed || !global || sm.paeState ≠ st
    paeState := st }

@[simp] def setPort (authorized : Bool) (sm : EapolSm π) : EapolSm π :=
  { sm.emit (.portAuthorized authorized) with suppPortStatus := authorized }

/-- Source: `SM_STATE(SUPP_PAE, LOGOFF)`. -/
def paeLogoff (sm : EapolSm π) : EapolSm π :=
  setPort false { (paeEntry true .logoff sm).emit .logoff with logoffSent := true }

/-- Source: `SM_STATE(SUPP_PAE, DISCONNECTED)`. -/
def paeDisconnected (global : Bool) (sm : EapolSm π) : EapolSm π :=
  { setPort false (paeEntry global .disconnected sm) with
    sPortMode := .auto
    startCount := 0
    logoffSent := false
    suppAbort := true
    unicastKeyReceived := false
    broadcastKeyReceived := false }

/-- Source: `SM_STATE(SUPP_PAE, CONNECTING)`. -/
def paeConnecting (sm : EapolSm π) : EapolSm π :=
  let sendStart : Bool := sm.paeState = .connecting
  let sm := paeEntry false .connecting sm
  let sm :=
    if sendStart then { sm with startWhen := sm.startPeriod, startCount := sm.startCount + 1 }
    -- the time that WPS leaves
    else { sm with startWhen := 1 }
  let sm := { sm.enableTimerTick with eapolEap := false }
  if sendStart then sm.emit .start else sm

/-- Source: `SM_STATE(SUPP_PAE, AUTHENTICATING)`. -/
def paeAuthenticating (sm : EapolSm π) : EapolSm π :=
  { paeEntry false .authenticating sm with
    startCount := 0
    suppSuccess := false
    suppFail := false
    suppTimeout := false
    keyRun := false
    keyDone := false
    suppStart := true }

/-- Source: `SM_STATE(SUPP_PAE, HELD)`. -/
def paeHeld (sm : EapolSm π) : EapolSm π :=
  let sm := paeEntry false .held sm
  { setPort false { sm.enableTimerTick with heldWhile := sm.heldPeriod } with
    cbStatus := .failure }

/-- Source: `SM_STATE(SUPP_PAE, AUTHENTICATED)`. -/
def paeAuthenticated (sm : EapolSm π) : EapolSm π :=
  { setPort true (paeEntry false .authenticated sm) with cbStatus := .success }

/-- Source: `SM_STATE(SUPP_PAE, RESTART)`. -/
def paeRestart (sm : EapolSm π) : EapolSm π :=
  { paeEntry false .restart sm with eapRestart := true }

/-- Source: `SM_STATE(SUPP_PAE, S_FORCE_AUTH)`. -/
def paeForceAuth (sm : EapolSm π) : EapolSm π :=
  { setPort true (paeEntry true .sForceAuth sm) with sPortMode := .forceAuthorized }

/-- Source: `SM_STATE(SUPP_PAE, S_FORCE_UNAUTH)`. -/
def paeForceUnauth (sm : EapolSm π) : EapolSm π :=
  ({ setPort false (paeEntry true .sForceUnauth sm) with
    sPortMode := .forceUnauthorized }).emit .logoff

/-- In AUTHENTICATING, a port that needs no EAPOL-Key frame becomes valid with the success. -/
def plaintextValid (sm : EapolSm π) : EapolSm π :=
  if sm.eapSuccess ∧ ¬ sm.portValid ∧ sm.accept8021xKeys ∧
      ¬ sm.requireUnicast ∧ ¬ sm.requireBroadcast then
    { sm.emit .eapolDone with portValid := true }
  else sm

/-- The transitions of a state of the PAE machine. -/
def paeSwitch (sm : EapolSm π) : EapolSm π :=
  match sm.paeState with
  | .unknown | .sForceAuth | .sForceUnauth => sm
  | .logoff => if ¬ sm.userLogoff then paeDisconnected false sm else sm
  | .disconnected => paeConnecting sm
  | .connecting =>
    if sm.startWhen = 0 ∧ sm.startCount < sm.maxStart then paeConnecting sm
    else if sm.startWhen = 0 ∧ sm.maxStart ≤ sm.startCount ∧ sm.portValid then paeAuthenticated sm
    else if sm.eapSuccess ∨ sm.eapFail then paeAuthenticating sm
    else if sm.eapolEap then paeRestart sm
    else if sm.startWhen = 0 ∧ sm.maxStart ≤ sm.startCount ∧ ¬ sm.portValid then paeHeld sm
    else sm
  | .authenticating =>
    let sm := plaintextValid sm
    if sm.eapSuccess ∧ sm.portValid then paeAuthenticated sm
    else if sm.eapFail ∨ (sm.keyDone ∧ ¬ sm.portValid) then paeHeld sm
    else if sm.suppTimeout then paeConnecting sm
    else sm
  | .held =>
    if sm.heldWhile = 0 then paeConnecting sm
    else if sm.eapolEap then paeRestart sm
    else sm
  | .authenticated =>
    if sm.eapolEap ∧ sm.portValid then paeRestart sm
    else if ¬ sm.portValid then paeDisconnected false sm
    else sm
  | .restart => if ¬ sm.eapRestart then paeAuthenticating sm else sm

/-- Source: `SM_STEP(SUPP_PAE)`. -/
def paeStep (sm : EapolSm π) : EapolSm π :=
  let down : Bool := sm.initialise || !sm.portEnabled
  if sm.userLogoff ∧ ¬ sm.logoffSent ∧ ¬ down then paeLogoff sm
  else if (sm.portControl = .auto ∧ sm.sPortMode ≠ sm.portControl) ∨ down then
    paeDisconnected true sm
  else if sm.portControl = .forceAuthorized ∧ sm.sPortMode ≠ sm.portControl then paeForceAuth sm
  else if sm.portControl = .forceUnauthorized ∧ sm.sPortMode ≠ sm.portControl then
    paeForceUnauth sm
  else paeSwitch sm

/-! ## The key receive machine -/

/-- The keys that encrypt and sign EAPOL-Key frames. LEAP derives only 16 octets, and no method
derives none. Source: `eapol_sm_get_key` and how `eapol_sm_processKey` calls it. -/
def masterKey (eap : EapSm π) : Option (Bytes × Bytes) :=
  if eap.eapKeyAvailable then
    match eap.eapKeyData with
    | none => none
    | some key =>
      if 64 ≤ key.length then some (key.take 32, (key.drop 32).take 32)
      else if key.length = 16 then some (key, key)
      else none
  else none

/-- The key of a frame with `keyLen` octets of key data. -/
def frameKey (encrKey frame : Bytes) (keyLen rxKeyLength : ℕ) : Option Bytes :=
  if 32 < keyLen ∨ 32 < rxKeyLength then none
  else if keyLen = rxKeyLength then
    some (crypto.rc4Skip ((frame.drop 15).take 16 ++ encrKey) ((frame.drop 48).take keyLen))
  else if keyLen = 0 then some (encrKey.take rxKeyLength)
  else none

/-- A key is given to the driver; when all required ones have been, the port is valid. -/
def installKey (frame key : Bytes) (sm : EapolSm π) : EapolSm π :=
  let keyIndex := frame.getD 31 0
  let unicast : Bool := keyIndex &&& 0x80 ≠ 0
  let sm := { sm.emit (.wepKey unicast (keyIndex &&& 0x03) key) with
    replayCounterValid := true
    lastReplayCounter := (frame.drop 7).take 8 }
  if w.setWepKey then
    let sm : EapolSm π := { sm with
      unicastKeyReceived := sm.unicastKeyReceived || unicast
      broadcastKeyReceived := sm.broadcastKeyReceived || !unicast }
    if (sm.unicastKeyReceived ∨ ¬ sm.requireUnicast) ∧
        (sm.broadcastKeyReceived ∨ ¬ sm.requireBroadcast) then
      { sm.emit .eapolDone with portValid := true }
    else sm
  else sm

/-- What follows in `eapol_sm_processKey` when the lower layer has reported its success. -/
def checkKey (frame : Bytes) (sm : EapolSm π) : EapolSm π :=
  match masterKey sm.eap with
  | none => sm
  | some (encrKey, signKey) =>
    -- octet strings of one length, compared as numbers
    if sm.replayCounterValid ∧ beNat ((frame.drop 7).take 8) ≤ beNat sm.lastReplayCounter then sm
    else
      let len := beNat ((frame.drop 2).take 2)
      let signed := overwrite (frame.take (4 + len)) 32 (List.replicate 16 0)
      if (frame.drop 32).take 16 ≠ crypto.hmacMd5 signKey signed then sm
      else
        match frameKey crypto encrKey frame (len - 44) (beNat ((frame.drop 5).take 2)) with
        | none => sm
        | some key => installKey w frame key sm

/-- Source: `eapol_sm_processKey`. -/
def processKey (sm : EapolSm π) : EapolSm π :=
  match sm.lastRxKey with
  | none => sm
  | some frame =>
    if ¬ sm.accept8021xKeys then sm
    else if frame.length < 4 + beNat ((frame.drop 2).take 2) then sm
    else checkKey crypto w frame (notifyLowerLayerSuccess sm)

/-- Source: `SM_ENTRY` in the key receive machine. -/
def keyRxEntry (global : Bool) (st : KeyRxState) (sm : EapolSm π) : EapolSm π :=
  { sm with
    changed := sm.changed || !global || sm.keyRxState ≠ st
    keyRxState := st }

/-- Source: `SM_STEP(KEY_RX)`. -/
def keyRxStep (sm : EapolSm π) : EapolSm π :=
  let sm := if sm.initialise ∨ ¬ sm.portEnabled then keyRxEntry true .noKeyReceive sm else sm
  if sm.keyRxState ≠ .unknown ∧ sm.rxKey then
    { processKey crypto w (keyRxEntry false .keyReceive sm) with rxKey := false }
  else sm

/-! ## The supplicant backend machine -/

/-- Source: `SM_ENTRY` in the supplicant backend machine. -/
def beEntry (global : Bool) (st : BeState) (sm : EapolSm π) : EapolSm π :=
  { sm with
    changed := sm.changed || !global || sm.beState ≠ st
    beState := st }

/-- Source: `SM_STATE(SUPP_BE, REQUEST)`. -/
def beRequest (sm : EapolSm π) : EapolSm π :=
  { beEntry false .request sm with authWhile := 0, eapReq := true }

/-- Source: `SM_STATE(SUPP_BE, RESPONSE)`. -/
def beResponse (sm : EapolSm π) : EapolSm π :=
  let sm := beEntry false .response sm
  -- eapol_sm_txSuppRsp
  let sm :=
    match sm.eap.eapRespData with
    | none => sm
    | some resp => (sm.emit (.eapPacket resp)).onEap fun eap => { eap with eapRespData := none }
  { sm with eapResp := false }

/-- Source: `SM_STATE(SUPP_BE, SUCCESS)`. -/
def beSuccess (sm : EapolSm π) : EapolSm π :=
  { beEntry false .success sm with
    keyRun := true
    suppSuccess := true
    replayCounterValid := sm.replayCounterValid && !sm.eap.eapKeyAvailable }

/-- Source: `SM_STATE(SUPP_BE, FAIL)`. -/
def beFail (sm : EapolSm π) : EapolSm π := { beEntry false .fail sm with suppFail := true }

/-- Source: `SM_STATE(SUPP_BE, TIMEOUT)`. -/
def beTimeout (sm : EapolSm π) : EapolSm π := { beEntry false .timeout sm with suppTimeout := true }

/-- Source: `SM_STATE(SUPP_BE, IDLE)`. -/
def beIdle (sm : EapolSm π) : EapolSm π :=
  { beEntry false .idle sm with suppStart := false, initialReq := true }

/-- Source: `SM_STATE(SUPP_BE, INITIALIZE)` and `eapol_sm_abortSupp`. -/
def beInitialise (sm : EapolSm π) : EapolSm π :=
  { eapAbort { beEntry true .initialise sm with lastRxKey := none, eapReqData := none } with
    suppAbort := false }

/-- Source: `SM_STATE(SUPP_BE, RECEIVE)`. -/
def beReceive (sm : EapolSm π) : EapolSm π :=
  let sm := beEntry false .receive sm
  { sm.enableTimerTick with
    authWhile := sm.authPeriod
    eapolEap := false
    eapNoResp := false
    initialReq := false }

/-- Source: `SM_STEP(SUPP_BE)`. -/
def beStep (sm : EapolSm π) : EapolSm π :=
  if sm.initialise ∨ sm.suppAbort then beInitialise sm
  else
    match sm.beState with
    | .unknown => sm
    | .request =>
      if sm.eapResp then beResponse sm
      else if sm.eapNoResp then beReceive sm
      else if sm.eapFail then beFail sm
      else if sm.eapSuccess then beSuccess sm
      else sm
    | .response => beReceive sm
    | .success | .fail | .timeout | .initialise => beIdle sm
    | .idle =>
      if sm.eapFail ∧ sm.suppStart then beFail sm
      else if sm.eapolEap ∧ sm.suppStart then beRequest sm
      else if sm.eapSuccess ∧ sm.suppStart then beSuccess sm
      else sm
    | .receive =>
      if sm.eapolEap then beRequest sm
      else if sm.eapFail then beFail sm
      else if sm.authWhile = 0 then beTimeout sm
      else if sm.eapSuccess then beSuccess sm
      else sm

/-! ## The program -/

/-- How often `eapol_sm_step` runs the machines at most. -/
def maxTurns : ℕ := 100

def startStep (sm : EapolSm π) : EapolSm π := { sm with pc := .turn 0 }

/-- The end of `eapol_sm_step`. -/
def endStep (sm : EapolSm π) : EapolSm π :=
  let sm := { sm with pc := .rest, stepTimeout := sm.stepTimeout || sm.changed }
  match sm.cbStatus with
  | .inProgress => sm
  | .success => { sm.emit (.cb true) with cbStatus := .inProgress }
  | .failure => { sm.emit (.cb false) with cbStatus := .inProgress }

/-- The program goes on. Source: `eapol_sm_step` and `eap_peer_sm_step`. -/
def go (sm : EapolSm π) : EapolSm π :=
  match sm.pc with
  | .rest => sm
  | .turn i =>
    let sm := paeStep { sm with changed := false }
    { beStep (keyRxStep crypto w sm) with pc := .eap i false }
  | .eap i res =>
    let sm := eapStep crypto w (sm.onEap fun eap => { eap with changed := false })
    if sm.eap.changed then { sm with pc := .eap i true }
    else
      let sm := { sm with changed := sm.changed || res }
      if sm.changed ∧ i + 1 < maxTurns then { sm with pc := .turn (i + 1) } else endStep sm

/-- The end of `eapol_sm_init`. -/
def initialised (sm : EapolSm π) : EapolSm π := startStep { sm with initialise := false }

/-- Source: `eapol_port_timers_tick`. -/
def portTimersTick (sm : EapolSm π) : EapolSm π :=
  let sm := { sm with
    authWhile := sm.authWhile - 1
    heldWhile := sm.heldWhile - 1
    startWhen := sm.startWhen - 1
    idleWhile := sm.idleWhile - 1 }
  startStep { sm with
    timerTickEnabled := sm.authWhile ≠ 0 || sm.heldWhile ≠ 0 || sm.startWhen ≠ 0 ||
      sm.idleWhile ≠ 0 }

/-- Source: `eapol_sm_abort_cached`. -/
def abortCached (sm : EapolSm π) : EapolSm π :=
  let sm := setPort false { sm with cachedPmk := false, paeState := .connecting }
  ({ sm with startWhen := 3 }.enableTimerTick).emit .abortedCached

def rxEapPacket (data : Bytes) (sm : EapolSm π) : EapolSm π :=
  let sm := if sm.cachedPmk then abortCached sm else sm
  startStep { sm with eapReqData := some data, eapolEap := true }

/-- The length that the EAPOL header says, or the EAP header where that is a workaround. -/
def payloadLen (sm : EapolSm π) (buf : Bytes) : ℕ :=
  let plen := beNat ((buf.drop 2).take 2)
  let elen := beNat ((buf.drop 6).take 2)
  if sm.workaround ∧ plen < buf.length - 4 ∧ buf.getD 1 0 = 0 ∧ 4 < buf.length - 4 ∧
      plen < elen ∧ elen ≤ buf.length - 4 then elen
  else plen

/-- An EAPOL-Key frame of the type RC4 that is long enough. -/
def isRc4Key (sm : EapolSm π) (buf : Bytes) : Bool :=
  4 ≤ buf.length && beNat ((buf.drop 2).take 2) ≤ buf.length - 4 && buf.getD 1 0 = 3 &&
    44 ≤ payloadLen sm buf && buf.getD 4 0 = 1

/-- Source: `eapol_sm_rx_eapol`. -/
def rxEapol (buf : Bytes) (sm : EapolSm π) : EapolSm π :=
  let plen := payloadLen sm buf
  if buf.length < 4 ∨ buf.length - 4 < beNat ((buf.drop 2).take 2) then sm
  -- IEEE802_1X_TYPE_EAP_PACKET
  else if buf.getD 1 0 = 0 then rxEapPacket ((buf.drop 4).take plen) sm
  else if isRc4Key sm buf then
    startStep { sm with lastRxKey := some (buf.take (4 + plen)), rxKey := true }
  else sm

/-- What happens: the program goes on, or something from outside. -/
inductive Op (π : Type)
  | go (w : World π)
  | initialised
  | rxEapol (buf : Bytes)
  | tick
  | stepTimeout
  | notifyPortEnabled (enabled : Bool)
  | notifyPortValid (valid : Bool)
  | notifyLogoff (logoff : Bool)
  | notifyLowerLayerSuccess
  | notifyPmkidAttempt (attempt : Bool)

/-- What is done from outside to machines at rest. -/
def outside (sm : EapolSm π) : Op π → EapolSm π
  | .go _ => sm
  | .initialised => sm
  | .rxEapol buf => rxEapol buf sm
  | .tick => if sm.timerTickEnabled then portTimersTick sm else sm
  | .stepTimeout => if sm.stepTimeout then startStep { sm with stepTimeout := false } else sm
  | .notifyPortEnabled enabled => startStep { sm with portEnabled := enabled }
  | .notifyPortValid valid => startStep { sm with portValid := valid }
  | .notifyLogoff logoff => startStep { sm with userLogoff := logoff }
  | .notifyLowerLayerSuccess => startStep (notifyLowerLayerSuccess sm)
  | .notifyPmkidAttempt attempt => { sm with cachedPmk := attempt }

/-- A step of the program: it goes on, or at rest something comes from outside. Before
`eapol_sm_init` has returned, nothing does. -/
def step (sm : EapolSm π) (op : Op π) : EapolSm π :=
  match op with
  | .go w => go crypto w sm
  | .initialised => if sm.pc = .rest ∧ sm.initialise then initialised sm else sm
  | op => if sm.pc = .rest ∧ ¬ sm.initialise then outside sm op else sm

/-- The configuration. Source: `struct eapol_config`, with `eapol_sm_configure`. -/
structure EapolConfig where
  heldPeriod : ℕ
  authPeriod : ℕ
  startPeriod : ℕ
  maxStart : ℕ
  accept8021xKeys : Bool
  requireUnicast : Bool
  requireBroadcast : Bool
  fastReauth : Bool
  workaround : Bool
  eapDisabled : Bool

/-- An EAP machine as it is allocated. Source: `eap_peer_sm_init`. -/
def eapInit (π : Type) (conf : EapolConfig) : EapSm π where
  toEapReq := EapReq.none
  toDoneFlags := ⟨false, false⟩
  eapState := .initialise
  selectedMethod := typeNone
  methodState := .none
  lastId := 0
  lastRespData := none
  decision := .fail
  ignore := false
  clientTimeout := clientTimeoutDefault
  allowNotifications := false
  eapRespData := none
  eapKeyAvailable := false
  eapKeyData := none
  m := none
  changed := false
  eapMethodPriv := none
  fastReauth := conf.fastReauth
  reqMd5 := List.replicate 16 0
  lastMd5 := List.replicate 16 0
  workaround := conf.workaround
  numRounds := 0
  forceDisabled := conf.eapDisabled
  prevFailure := false

/-- The machines as they are allocated, about to be run for the first time.
Source: `eapol_sm_init`, with a configuration that does not change afterwards. -/
def init (π : Type) (conf : EapolConfig) : EapolSm π where
  authWhile := 0
  heldWhile := 0
  startWhen := 0
  idleWhile := 0
  timerTickEnabled := true
  eapFail := false
  eapolEap := false
  eapSuccess := false
  initialise := true
  keyDone := false
  keyRun := false
  portControl := .auto
  portEnabled := false
  suppPortStatus := false
  portValid := false
  suppAbort := false
  suppFail := false
  suppStart := false
  suppSuccess := false
  suppTimeout := false
  paeState := .unknown
  userLogoff := false
  logoffSent := false
  startCount := 0
  eapRestart := false
  sPortMode := .auto
  heldPeriod := conf.heldPeriod
  startPeriod := conf.startPeriod
  maxStart := conf.maxStart
  keyRxState := .unknown
  rxKey := false
  beState := .unknown
  eapNoResp := false
  eapReq := false
  eapResp := false
  authPeriod := conf.authPeriod
  changed := false
  eap := eapInit π conf
  initialReq := false
  lastRxKey := none
  eapReqData := none
  altAccept := false
  altReject := false
  replayCounterValid := false
  lastReplayCounter := List.replicate 8 0
  accept8021xKeys := conf.accept8021xKeys
  requireUnicast := conf.requireUnicast
  requireBroadcast := conf.requireBroadcast
  workaround := conf.workaround
  cbStatus := .inProgress
  cachedPmk := false
  unicastKeyReceived := false
  broadcastKeyReceived := false
  stepTimeout := false
  pc := .turn 0
  notes := []
  out := []

end Machine

end Hostapd.EapolSupp
