import Hostapd.Wps.Common
import Hostapd.Wps.Pbc

/-!
# A run of the Registrar

`wps_registrar.c`: M2, and how the Registrar handles what it receives. **`processMsg`** handles a
message by its op code: `processWscMsg` with M1, M3, M5 and M7, `processWscAck`, `processWscNack` and
`processWscDone`.

Every message but M1 is checked with `nonceMismatch`, and M3, M5 and M7 once more with
`processRegistrarNonce`.
-/

namespace Hostapd.Wps

open Hostapd.Lib Hostapd.Utils.Eloop

namespace Registrar

/-! ## What the Registrar sends -/

/-- Source: `wps_build_config_methods_r` with `wps_set_pushbutton`. -/
def buildConfigMethodsR (w : WpsData) : Bytes :=
  let methods := w.wps.configMethods &&& (0xffff - configPushbutton)
  buildConfigMethods (if w.wps.registrar.pbc then methods ||| configPushbutton else methods)

/-- Source: `wps_build_uuid_r`. -/
def buildUuidR (w : WpsData) : Bytes := putAttr .uuidR w.uuidR

/-- Source: `wps_build_m2`. -/
def buildM2 (cr : Crypto) (d : Draws) (w : WpsData) : Option Bytes × WpsData :=
  match d.nonce with
  | none => (none, w)
  | some nonce =>
    let w := { w with nonceR := nonce }
    if ¬ d.mem .msg then (none, w)
    else
      match buildPublicKey d w with
      | (none, w) => (none, w)
      | (some publicKey, w) =>
        match deriveKeys cr d w with
        | (false, w) => (none, w)
        | (true, w) =>
          let msg := buildVersion ++ buildMsgType .m2 ++ buildEnrolleeNonce w ++
            buildRegistrarNonce w ++ buildUuidR w ++ publicKey ++ buildAuthTypeFlags ++
            buildEncrTypeFlags ++ buildConnTypeFlags ++ buildConfigMethodsR w ++
            buildDeviceAttrs w.wps.dev ++ buildRfBands w.wps.dev ++ buildAssocState ++
            buildConfigError cfgNoError ++ buildDevPasswordId w.devPwId ++
            buildOsVersion w.wps.dev
          match buildAuthenticator cr w msg with
          | none => (none, w)
          | some msg => (some msg, { w with state := .recvM3 })

/-! ## The credential -/

/-- Two digits for each octet. Source: `wpa_snprintf_hex`. -/
def hexText (b : Bytes) : Bytes :=
  let digit (n : UInt8) : UInt8 := if n < 10 then 0x30 + n else 0x57 + n
  b.flatMap fun c => [digit (c / 16), digit (c % 16)]

/-- The digits of `base64_encode`, without the padding that `wps_build_cred` removes. -/
def base64Text : Bytes → Bytes
  | [] => []
  | [a] => [digit (a / 4), digit (a % 4 * 16)]
  | [a, b] => [digit (a / 4), digit (a % 4 * 16 + b / 16), digit (b % 16 * 4)]
  | a :: b :: c :: rest =>
    [digit (a / 4), digit (a % 4 * 16 + b / 16), digit (b % 16 * 4 + c / 64), digit (c % 64)] ++
      base64Text rest
where
  digit (n : UInt8) : UInt8 :=
    if n < 26 then 0x41 + n else if n < 52 then 0x47 + n else if n < 62 then n - 4
    else if n = 62 then 0x2b else 0x2f

/-- The best of the authentication types that both sides know. Source: `wps_build_cred`. -/
def selectAuthType (types : ℕ) : Option ℕ :=
  [authWpa2psk, authWpapsk, authOpen, authShared].find? fun t => types &&& t ≠ 0

/-- The best of the encryption types for an authentication type. Source: `wps_build_cred`. -/
def selectEncrType (auth types : ℕ) : Option ℕ :=
  (if auth = authWpa2psk ∨ auth = authWpapsk then [encrAes, encrTkip] else [encrWep, encrNone]).find?
    fun t => types &&& t ≠ 0

/-- The Network Key of the credential: a new passphrase, the PSK, the configured key or a new PSK
for this device. Source: `wps_build_cred`. -/
def chooseKey (d : Draws) : Check := fun w =>
  let setKey (key : Bytes) (w : WpsData) : WpsData := { w with cred := { w.cred with key := key } }
  let ctx := w.wps
  if ctx.wpsState = .notConfigured ∧ ctx.ap ∧ ¬ ctx.registrar.disableAutoConf then
    match d.key with
    | none => (false, w)
    | some r =>
      if d.mem .newPsk then (true, setKey (base64Text r) { w with newPsk := some (base64Text r) })
      else (false, { w with newPsk := none })
  else if w.usePskKey ∧ ctx.psk.isSome then (true, setKey (hexText (ctx.psk.getD [])) w)
  else if ctx.networkKey.isSome then (true, setKey (ctx.networkKey.getD []) w)
  else if w.authType &&& (authWpapsk ||| authWpa2psk) ≠ 0 then
    match d.mem .newPsk, d.key with
    | true, some psk => (true, setKey (hexText psk) { w with newPsk := some psk })
    | _, _ => (false, { w with newPsk := none })
  else (true, w)

/-- Fill in the credential. Source: `wps_build_cred`, to `use_provided`. -/
def chooseCred (d : Draws) : Check := fun w =>
  match w.useCred with
  | some cred => (true, { w with cred := cred })
  | none =>
    match selectAuthType w.authType with
    | none => (false, { w with cred := { Credential.zero with ssid := w.wps.ssid } })
    | some auth =>
      match selectEncrType auth w.encrType with
      | none =>
        (false, { w with
          authType := auth
          cred := { Credential.zero with ssid := w.wps.ssid, authType := auth } })
      | some encr =>
        chooseKey d { w with
          authType := auth
          encrType := encr
          cred := { Credential.zero with
            ssid := w.wps.ssid, authType := auth, encrType := encr, macAddr := w.macAddrE } }

/-- Source: `wps_build_credential`. -/
def buildCredential (cred : Credential) : Bytes :=
  putAttr .networkIndex [1] ++ putAttr .ssid cred.ssid ++
    putAttr .authType (putBe16 cred.authType) ++ putAttr .encrType (putBe16 cred.encrType) ++
    putAttr .networkKey cred.key ++ putAttr .macAddr cred.macAddr

/-! ## Taking the attributes -/

/-- Source: `wps_process_enrollee_nonce`. -/
def processEnrolleeNonce (attr : ParseAttr) : Check :=
  need (attr.get .enrolleeNonce) fun val w => { w with nonceE := val }

/-- Source: `wps_process_registrar_nonce`. -/
def processRegistrarNonce (attr : ParseAttr) (w : WpsData) : Bool :=
  attr.get .registrarNonce = some w.nonceR

/-- Source: `wps_process_uuid_e`. -/
def processUuidE (attr : ParseAttr) : Check :=
  need (attr.get .uuidE) fun val w => { w with uuidE := val }

/-- Source: `wps_process_dev_password_id`. -/
def processDevPasswordId (attr : ParseAttr) : Check :=
  need (attr.get .devPasswordId) fun val w => { w with devPwId := beNat val }

/-- Source: `wps_process_e_hash1`. -/
def processEHash1 (attr : ParseAttr) : Check :=
  need (attr.get .eHash1) fun val w => { w with peerHash1 := val }

/-- Source: `wps_process_e_hash2`. -/
def processEHash2 (attr : ParseAttr) : Check :=
  need (attr.get .eHash2) fun val w => { w with peerHash2 := val }

/-- Source: `wps_process_mac_addr`. -/
def processMacAddr (attr : ParseAttr) : Check :=
  need (attr.get .macAddr) fun val w =>
    { w with macAddrE := val, peerDev := { w.peerDev with macAddr := val } }

/-- Source: `wps_process_pubkey`. -/
def processPubkey (d : Draws) (attr : ParseAttr) : Check := fun w =>
  match attr.get .publicKey with
  | none | some [] => (false, w)
  | some pk =>
    if d.mem .pubkey then (true, { w with dhPubkeyE := some pk })
    else (false, { w with dhPubkeyE := none })

/-- The types that both sides know; if there are none, all of ours, since some devices name theirs
wrong. -/
def commonTypes (own peer : ℕ) : ℕ := if own &&& peer = 0 then own else own &&& peer

/-- Source: `wps_process_auth_type_flags`. -/
def processAuthTypeFlags (attr : ParseAttr) : Check :=
  need (attr.get .authTypeFlags) fun val w =>
    { w with authType := commonTypes w.wps.authTypes (beNat val) }

/-- Source: `wps_process_encr_type_flags`. -/
def processEncrTypeFlags (attr : ParseAttr) : Check :=
  need (attr.get .encrTypeFlags) fun val w =>
    { w with encrType := commonTypes w.wps.encrTypes (beNat val) }

/-- Source: `wps_process_conn_type_flags`. -/
def processConnTypeFlags (attr : ParseAttr) : Check := need (attr.get .connTypeFlags) fun _ w => w

/-- Source: `wps_process_config_methods`. -/
def processConfigMethods (attr : ParseAttr) : Check :=
  need (attr.get .configMethods) fun val w =>
    if beNat val &&& configDisplay = 0 then { w with usePskKey := true } else w

/-- Source: `wps_process_wps_state`. -/
def processWpsState (attr : ParseAttr) : Check := need (attr.get .wpsState) fun _ w => w

/-- Source: `wps_process_assoc_state`. -/
def processAssocState (attr : ParseAttr) : Check := need (attr.get .assocState) fun _ w => w

/-- Source: `wps_process_config_error`. -/
def processConfigError (attr : ParseAttr) : Check := need (attr.get .configError) fun _ w => w

/-- What M1 brings, in the order in which it is taken. -/
def processM1Attrs (d : Draws) (attr : ParseAttr) : Check :=
  allOk [processUuidE attr, processMacAddr attr, processEnrolleeNonce attr, processPubkey d attr,
    processAuthTypeFlags attr, processEncrTypeFlags attr, processConnTypeFlags attr,
    processConfigMethods attr, processWpsState attr, processDeviceAttrs d attr,
    processRfBands attr, processAssocState attr, processDevPasswordId attr,
    processConfigError attr, processOsVersion attr]

/-- E-SNonce1 opens E-Hash1. Source: `wps_process_e_snonce1`. -/
def processESnonce1 (cr : Crypto) (attr : ParseAttr) : Check := fun w =>
  match attr.get .eSnonce1 with
  | none => (false, w)
  | some snonce =>
    if w.peerHash1 = hashOf cr w snonce w.psk1 then (true, w)
    else (false, { w with configError := cfgDevPasswordAuthFailure }.emit (.pwdAuthFail false 1))

/-- E-SNonce2 opens E-Hash2, and the PIN may be used again; otherwise the PIN is gone.
Source: `wps_process_e_snonce2`. -/
def processESnonce2 (cr : Crypto) (attr : ParseAttr) : Check := fun w =>
  match attr.get .eSnonce2 with
  | none => (false, w)
  | some snonce =>
    if w.peerHash2 = hashOf cr w snonce w.psk2 then
      (true, { w with wpsPinRevealed := false }.withRegistrar fun reg => unlockPin reg w.uuidE)
    else
      (false, ({ w with configError := cfgDevPasswordAuthFailure }.withRegistrar fun reg =>
        invalidatePin reg w.uuidE).emit (.pwdAuthFail false 2))

/-- Source: `wps_registrar_p2p_dev_addr_match`. -/
def p2pDevAddrMatch (w : WpsData) : Bool :=
  let reg := w.wps.registrar
  ¬ w.wps.p2p || isZeroEtherAddr reg.p2pDevAddr || reg.p2pDevAddr = w.p2pDevAddr

/-- Source: `wps_registrar_skip_overlap`. -/
def skipOverlap (w : WpsData) : Bool :=
  let reg := w.wps.registrar
  w.wps.p2p && !isZeroEtherAddr reg.p2pDevAddr && reg.p2pDevAddr = w.p2pDevAddr

/-- Only one device in PBC mode is in reach, or this one was selected. -/
def pbcDenied (w : WpsData) (now : OsTime) : Bool :=
  let reg := w.wps.registrar
  (reg.forcePbcOverlap || pbcOverlap reg (some w.uuidE) now || !p2pDevAddrMatch w) &&
    !skipOverlap w

/-! ## The messages of the Enrollee -/

/-- The Device Password ID is one that this Registrar does not serve now. -/
def unsupportedDevPwId (w : WpsData) : Bool :=
  w.devPwId < 0x10 ∧ w.devPwId ≠ devPwDefault ∧ w.devPwId ≠ devPwUserSpecified ∧
    w.devPwId ≠ devPwMachineSpecified ∧ w.devPwId ≠ devPwRegistrarSpecified ∧
    (w.devPwId ≠ devPwPushbutton ∨ ¬ w.wps.registrar.pbc)

/-- A device that does not like a passphrase as Network Key. -/
def wantsPskKey (dev : DeviceData) : Bool :=
  (cstr dev.manufacturer).take 6 = ascii "Apple " && cstr dev.modelName = ascii "AirPort"

/-- What follows the attributes of M1: push button, workaround, next state.
Source: `wps_process_m1`. -/
def acceptM1 (d : Draws) (w : WpsData) : WpsData :=
  if unsupportedDevPwId w then { w with state := .sendM2d }
  else if w.devPwId = devPwPushbutton ∧ pbcDenied w d.now then
    let w := { w with state := .sendM2d, configError := cfgMultiplePbcDetected }
    ((w.emit .pbcOverlap).emit (.fail .m1 cfgMultiplePbcDetected)).withRegistrar fun reg =>
      { reg with forcePbcOverlap := true }
  else
    let w := if w.devPwId = devPwPushbutton then
      { w with pbc := true }.withRegistrar fun reg =>
        addPbcSession reg w.macAddrE w.uuidE d.now (d.mem .data)
      else w
    { w with usePskKey := w.usePskKey || wantsPskKey w.peerDev, state := .sendM2 }

/-- Source: `wps_process_m1`. -/
def processM1 (d : Draws) (attr : ParseAttr) (w : WpsData) : ProcessRes × WpsData :=
  if w.state ≠ .recvM1 then (.failure, w)
  else
    match processM1Attrs d attr w with
    | (false, w) => (.failure, w)
    | (true, w) => (.continue, acceptM1 d w)

/-- A run in PBC mode is stopped by another device in PBC mode. -/
def rejectedByOverlap (w : WpsData) : Bool :=
  w.pbc && w.wps.registrar.forcePbcOverlap && !skipOverlap w

/-- The common frame of M3, M5 and M7: the state in which the message is expected, the overlap
check, the checks of the message, and the state after it; anything wrong leads to WSC_NACK. -/
def processStep (expected next : State) (checks : Check) (w : WpsData) : ProcessRes × WpsData :=
  if w.state ≠ expected then (.continue, { w with state := .sendWscNack })
  else if rejectedByOverlap w then
    (.continue, { w with state := .sendWscNack, configError := cfgMultiplePbcDetected })
  else
    match checks w with
    | (false, w) => (.continue, { w with state := .sendWscNack })
    | (true, w) => (.continue, { w with state := next })

/-- The Registrar Nonce and the Authenticator, which M3, M5 and M7 begin with. -/
def authentic (cr : Crypto) (msg : Bytes) (attr : ParseAttr) : List Check :=
  [guard (processRegistrarNonce attr),
    guard (processAuthenticator cr (attr.get .authenticator) msg)]

/-- Source: `wps_process_m3`. -/
def processM3 (cr : Crypto) (msg : Bytes) (attr : ParseAttr) : WpsData → ProcessRes × WpsData :=
  processStep .recvM3 .sendM4
    (allOk (authentic cr msg attr ++ [processEHash1 attr, processEHash2 attr]))

/-- Source: `wps_process_m5`. -/
def processM5 (cr : Crypto) (d : Draws) (msg : Bytes) (attr : ParseAttr) :
    WpsData → ProcessRes × WpsData :=
  processStep .recvM5 .sendM6
    (allOk (authentic cr msg attr ++ [withSettings cr d attr fun eattr =>
      processESnonce1 cr eattr]))

/-- The credential that is handed out has one authentication and one encryption type.
Source: `wps_sta_cred_cb`. -/
def staCredCb (w : WpsData) : WpsData :=
  let cred := w.cred
  let auth := if cred.authType &&& authWpa2psk ≠ 0 then authWpa2psk
    else if cred.authType &&& authWpapsk ≠ 0 then authWpapsk else cred.authType
  let encr := if cred.encrType &&& encrAes ≠ 0 then encrAes
    else if cred.encrType &&& encrTkip ≠ 0 then encrTkip else cred.encrType
  let w := { w with cred := { cred with authType := auth, encrType := encr } }
  w.emit (.cred w.cred)

/-- A Registrar on a station learns the settings of the access point; with new settings it goes on
to M8. Source: `wps_process_ap_settings_r`, `wps_cred_update`. -/
def processApSettingsR (attr : ParseAttr) : Check := fun w =>
  if w.wps.ap ∨ w.er then (true, w)
  else
    match processApSettings attr with
    | none => (false, w)
    | some cred =>
      match w.newApSettings with
      | some new => (true, { w with cred := { new with macAddr := cred.macAddr } })
      | none =>
        let w := { w with cred := cred }.withRegistrar pinCompleted
        (false, if w.apSettingsCb then w.emit (.apSettings w.cred) else staCredCb w)

/-- Source: `wps_process_m7`. -/
def processM7 (cr : Crypto) (d : Draws) (msg : Bytes) (attr : ParseAttr) :
    WpsData → ProcessRes × WpsData :=
  processStep .recvM7 .sendM8
    (allOk (authentic cr msg attr ++ [withSettings cr d attr fun eattr =>
      allOk [processESnonce2 cr eattr, processApSettingsR eattr]]))

/-- Source: `wps_process_wsc_msg`. -/
def processWscMsg (cr : Crypto) (d : Draws) (msg : Bytes) (w : WpsData) : ProcessRes × WpsData :=
  match parseMsg msg with
  | none => (.failure, w)
  | some attr =>
    match attr.msgTypeCode with
    | none => (.continue, { w with state := .sendWscNack })
    | some code =>
      if code ≠ MsgType.m1.code ∧ nonceMismatch w.nonceR (attr.get .registrarNonce) then
        (.failure, w)
      else
        match MsgType.ofCode code with
        | some .m1 => keepMsg d msg (processM1 d attr w)
        | some .m3 => keepMsg d msg (reportFailure .m3 (processM3 cr msg attr w))
        | some .m5 => keepMsg d msg (reportFailure .m5 (processM5 cr d msg attr w))
        | some .m7 => keepMsg d msg (reportFailure .m7 (processM7 cr d msg attr w))
        | _ => (.failure, w)

/-- Every outcome is a failure: without an external Registrar there is nothing to wait for.
Source: `wps_process_wsc_ack`. -/
def processWscAck (msg : Bytes) (w : WpsData) : ProcessRes × WpsData :=
  match parseMsg msg with
  | none => (.failure, w)
  | some attr =>
    if attr.msgTypeCode ≠ some MsgType.wscAck.code then (.failure, w)
    else if nonceMismatch w.nonceR (attr.get .registrarNonce) then (.failure, w)
    else if nonceMismatch w.nonceE (attr.get .enrolleeNonce) then (.failure, w)
    else (.failure, w)

/-- The message that an Enrollee's WSC_NACK in a state is about. -/
def nackedMsg : State → Option MsgType
  | .recvM3 => some .m2
  | .recvM5 => some .m4
  | .recvM7 => some .m6
  | .recvDone => some .m8
  | _ => none

/-- Source: `wps_process_wsc_nack`. -/
def processWscNack (msg : Bytes) (w : WpsData) : ProcessRes × WpsData :=
  let oldState := w.state
  let w := { w with state := .sendWscNack }
  match parseMsg msg with
  | none => (.failure, w)
  | some attr =>
    if attr.msgTypeCode ≠ some MsgType.wscNack.code then (.failure, w)
    else if nonceMismatch w.nonceR (attr.get .registrarNonce) then (.failure, w)
    else if nonceMismatch w.nonceE (attr.get .enrolleeNonce) then (.failure, w)
    else
      match attr.get .configError, nackedMsg oldState with
      | some err, some type => (.failure, w.emit (.fail type (beNat err)))
      | _, _ => (.failure, w)

/-- The Enrollee is done: the new keys are handed out and the mode ends.
Source: `wps_process_wsc_done`, from "Negotiation completed successfully" on. -/
def complete (w : WpsData) : WpsData :=
  let w :=
    match w.wps.wpsState, w.newPsk with
    | .notConfigured, some psk =>
      if w.wps.ap ∧ ¬ w.wps.registrar.disableAutoConf then
        let w := { w with newPsk := none, wps := { w.wps with wpsState := .configured } }
        w.emit (.cred {
          Credential.zero with
          ssid := w.wps.ssid
          authType := authWpapsk ||| authWpa2psk
          encrType := encrTkip ||| encrAes
          key := psk })
      else w
    | _, _ => w
  let w := if ¬ w.wps.ap ∧ ¬ w.er then staCredCb w else w
  let w :=
    match w.newPsk with
    | some psk => { w with newPsk := none }.emit (.newPsk w.macAddrE psk)
    | none => w
  let w := w.emit (.regSuccess w.macAddrE w.uuidE)
  let w := w.withRegistrar fun reg =>
    if w.pbc then pbcCompleted (removePbcSession reg w.uuidE) else pinCompleted reg
  w.emit .success

/-- Source: `wps_process_wsc_done`. -/
def processWscDone (msg : Bytes) (w : WpsData) : ProcessRes × WpsData :=
  if w.state ≠ .recvDone then (.failure, w)
  else
    match parseMsg msg with
    | none => (.failure, w)
    | some attr =>
      if attr.msgTypeCode ≠ some MsgType.wscDone.code then (.failure, w)
      else if nonceMismatch w.nonceR (attr.get .registrarNonce) then (.failure, w)
      else if nonceMismatch w.nonceE (attr.get .enrolleeNonce) then (.failure, w)
      else (.done, complete w)

/-- Source: `wps_registrar_process_msg`. -/
def processMsg (cr : Crypto) (d : Draws) (op : OpCode) (msg : Bytes) (w : WpsData) :
    ProcessRes × WpsData :=
  match op with
  | .msg => processWscMsg cr d msg w
  | .ack => processWscAck msg w
  | .nack => processWscNack msg w
  | .done =>
    match processWscDone msg w with
    | (.failure, w) =>
      (.failure, { w with state := .sendWscNack }.emit (.fail .wscDone w.configError))
    | (res, w) => (res, w)
  | _ => (.failure, w)

end Registrar

end Hostapd.Wps
