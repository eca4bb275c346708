import Hostapd.Wps.Common

/-!
# A run of the Enrollee

`wps_enrollee.c`: M1, and how the Enrollee handles what it receives. **`processMsg`** handles a
message by its op code: `processWscMsg` with M2, M2D, M4, M6 and M8, `processWscAck` and
`processWscNack`.

The Enrollee learns the Registrar Nonce from M2. It then sees it again only in WSC_ACK and
WSC_NACK; in the other messages it looks at its own nonce.
-/

namespace Hostapd.Wps.Enrollee

open Hostapd.Lib

/-! ## What the Enrollee sends -/

/-- Source: `wps_build_mac_addr`. -/
def buildMacAddr (w : WpsData) : Bytes := putAttr .macAddr w.macAddrE

/-- Source: `wps_build_wps_state`; a station is always new. -/
def buildWpsState (w : WpsData) : Bytes :=
  putAttr .wpsState [if w.wps.ap ∧ w.wps.wpsState = .configured then 2 else 1]

/-- Source: `wps_build_m1`. -/
def buildM1 (d : Draws) (w : WpsData) : Option Bytes × WpsData :=
  match d.nonce with
  | none => (none, w)
  | some nonce =>
    let w := { w with nonceE := nonce }
    if ¬ d.mem .msg then (none, w)
    else
      let methods := w.wps.configMethods
      match buildPublicKey d w with
      | (none, w) => (none, w)
      | (some publicKey, w) =>
        (some (buildVersion ++ buildMsgType .m1 ++ putAttr .uuidE w.uuidE ++ buildMacAddr w ++
            buildEnrolleeNonce w ++ publicKey ++ buildAuthTypeFlags ++ buildEncrTypeFlags ++
            buildConnTypeFlags ++
            buildConfigMethods (if w.wps.ap then methods &&& (0xffff - configPushbutton)
              else methods) ++
            buildWpsState w ++ buildDeviceAttrs w.wps.dev ++ buildRfBands w.wps.dev ++
            buildAssocState ++ buildDevPasswordId w.devPwId ++ buildConfigError cfgNoError ++
            buildOsVersion w.wps.dev),
          { w with state := .recvM2 })

/-! ## Taking the attributes -/

/-- Source: `wps_process_registrar_nonce`. -/
def processRegistrarNonce (attr : ParseAttr) : Check :=
  need (attr.get .registrarNonce) fun val w => { w with nonceR := val }

/-- Source: `wps_process_enrollee_nonce`. -/
def processEnrolleeNonce (attr : ParseAttr) (w : WpsData) : Bool :=
  attr.get .enrolleeNonce = some w.nonceE

/-- Source: `wps_process_uuid_r`. -/
def processUuidR (attr : ParseAttr) : Check :=
  need (attr.get .uuidR) fun val w => { w with uuidR := val }

/-- Source: `wps_process_pubkey`. -/
def processPubkey (cr : Crypto) (d : Draws) (attr : ParseAttr) : Check := fun w =>
  match attr.get .publicKey with
  | none | some [] => (false, w)
  | some pk =>
    if d.mem .pubkey then deriveKeys cr d { w with dhPubkeyR := some pk }
    else (false, { w with dhPubkeyR := none })

/-- Source: `wps_process_r_hash1`. -/
def processRHash1 (attr : ParseAttr) : Check :=
  need (attr.get .rHash1) fun val w => { w with peerHash1 := val }

/-- Source: `wps_process_r_hash2`. -/
def processRHash2 (attr : ParseAttr) : Check :=
  need (attr.get .rHash2) fun val w => { w with peerHash2 := val }

/-- A secret nonce of the Registrar opens its hash. -/
def processRSnonce (cr : Crypto) (snonce : Option Bytes) (hash psk : WpsData → Bytes) (part : ℕ) :
    Check := fun w =>
  match snonce with
  | none => (false, w)
  | some snonce =>
    if hash w = hashOf cr w snonce (psk w) then (true, w)
    else (false, { w with configError := cfgDevPasswordAuthFailure }.emit (.pwdAuthFail true part))

/-- Source: `wps_process_r_snonce1`. -/
def processRSnonce1 (cr : Crypto) (attr : ParseAttr) : Check :=
  processRSnonce cr (attr.get .rSnonce1) WpsData.peerHash1 WpsData.psk1 1

/-- Source: `wps_process_r_snonce2`. -/
def processRSnonce2 (cr : Crypto) (attr : ParseAttr) : Check :=
  processRSnonce cr (attr.get .rSnonce2) WpsData.peerHash2 WpsData.psk2 2

/-- Hand a credential out; one with another address than ours is taken, too.
Source: `wps_process_cred_e`. -/
def processCredE (cred : Bytes) : Check := fun w =>
  match (parseMsg cred).bind processCred with
  | none => (false, w)
  | some cred => (true, { w with cred := cred }.emit (.cred cred))

/-- The credentials of M8, which are for a station. Source: `wps_process_creds`. -/
def processCreds (attr : ParseAttr) : Check := fun w =>
  if w.wps.ap then (true, w)
  else if attr.cred = [] then (false, w)
  else allOk (attr.cred.map processCredE) w

/-- The settings of M8, which are for an access point. Source: `wps_process_ap_settings_e`. -/
def processApSettingsE (attr : ParseAttr) : Check := fun w =>
  if ¬ w.wps.ap then (true, w)
  else
    match processApSettings attr with
    | none => (false, w)
    | some cred => (true, w.emit (.cred cred))

/-! ## The messages of the Registrar -/

/-- The common frame of M2, M4, M6 and M8: the state in which the message is expected, its checks,
and the state after it; anything wrong leads to WSC_NACK. -/
def processStep (expected next : State) (checks : Check) (w : WpsData) : ProcessRes × WpsData :=
  if w.state ≠ expected then (.continue, { w with state := .sendWscNack })
  else
    match checks w with
    | (false, w) => (.continue, { w with state := .sendWscNack })
    | (true, w) => (.continue, { w with state := next })

/-- An access point refuses a Registrar with `WPS_CFG_SETUP_LOCKED`. -/
def refuseLocked (locked : WpsData → Bool) : Check := fun w =>
  if locked w then (false, { w with configError := cfgSetupLocked }) else (true, w)

/-- Source: `wps_process_m2`. The setup that is locked with 2 is refused only in M8. -/
def processM2 (cr : Crypto) (d : Draws) (msg : Bytes) (attr : ParseAttr) :
    WpsData → ProcessRes × WpsData :=
  processStep .recvM2 .sendM3
    (allOk [processRegistrarNonce attr, guard (processEnrolleeNonce attr), processUuidR attr,
      refuseLocked fun w =>
        w.wps.ap ∧ ((w.wps.apSetupLocked ≠ 0 ∧ w.wps.apSetupLocked ≠ 2) ∨ w.devPassword.isNone),
      processPubkey cr d attr, guard (processAuthenticator cr (attr.get .authenticator) msg),
      processDeviceAttrs d attr])

/-- Source: `wps_process_m2d`. Of the event only the error is kept. -/
def processM2d (attr : ParseAttr) (w : WpsData) : ProcessRes × WpsData :=
  if w.state ≠ .recvM2 then (.continue, { w with state := .sendWscNack })
  else
    (.continue,
      { w with state := .receivedM2d }.emit (.m2d ((attr.get .configError).map beNat)))

/-- The Enrollee Nonce and the Authenticator, which M4, M6 and M8 begin with. -/
def authentic (cr : Crypto) (msg : Bytes) (attr : ParseAttr) : List Check :=
  [guard (processEnrolleeNonce attr),
    guard (processAuthenticator cr (attr.get .authenticator) msg)]

/-- Source: `wps_process_m4`. -/
def processM4 (cr : Crypto) (d : Draws) (msg : Bytes) (attr : ParseAttr) :
    WpsData → ProcessRes × WpsData :=
  processStep .recvM4 .sendM5
    (allOk (authentic cr msg attr ++ [processRHash1 attr, processRHash2 attr,
      withSettings cr d attr fun eattr => processRSnonce1 cr eattr]))

/-- Source: `wps_process_m6`. -/
def processM6 (cr : Crypto) (d : Draws) (msg : Bytes) (attr : ParseAttr) :
    WpsData → ProcessRes × WpsData :=
  processStep .recvM6 .sendM7
    (allOk (authentic cr msg attr ++ [withSettings cr d attr fun eattr =>
      processRSnonce2 cr eattr]))

/-- Source: `wps_process_m8`. -/
def processM8 (cr : Crypto) (d : Draws) (msg : Bytes) (attr : ParseAttr) :
    WpsData → ProcessRes × WpsData :=
  processStep .recvM8 .wpsMsgDone
    (allOk (authentic cr msg attr ++ [refuseLocked fun w => w.wps.ap ∧ w.wps.apSetupLocked ≠ 0,
      withSettings cr d attr fun eattr => allOk [processCreds eattr, processApSettingsE eattr]]))

/-- Source: `wps_process_wsc_msg`. M2D is not kept for the Authenticator. -/
def processWscMsg (cr : Crypto) (d : Draws) (msg : Bytes) (w : WpsData) : ProcessRes × WpsData :=
  match parseMsg msg with
  | none => (.failure, w)
  | some attr =>
    if nonceMismatch w.nonceE (attr.get .enrolleeNonce) then (.failure, w)
    else
      match attr.msgTypeCode with
      | none => (.continue, { w with state := .sendWscNack })
      | some code =>
        match MsgType.ofCode code with
        | some .m2 => keepMsg d msg (processM2 cr d msg attr w)
        | some .m2d => processM2d attr w
        | some .m4 => keepMsg d msg (reportFailure .m4 (processM4 cr d msg attr w))
        | some .m6 => keepMsg d msg (reportFailure .m6 (processM6 cr d msg attr w))
        | some .m8 => keepMsg d msg (reportFailure .m8 (processM8 cr d msg attr w))
        | _ => (.failure, w)

/-- Source: `wps_process_wsc_ack`. -/
def processWscAck (msg : Bytes) (w : WpsData) : ProcessRes × WpsData :=
  match parseMsg msg with
  | none => (.failure, w)
  | some attr =>
    if attr.msgTypeCode ≠ some MsgType.wscAck.code then (.failure, w)
    else if nonceMismatch w.nonceR (attr.get .registrarNonce) then (.failure, w)
    else if nonceMismatch w.nonceE (attr.get .enrolleeNonce) then (.failure, w)
    else if w.state = .recvAck ∧ w.wps.ap then
      (.done, { w with state := .wpsFinished }.emit .success)
    else (.failure, w)

/-- The message that a Registrar's WSC_NACK in a state is about. -/
def nackedMsg : State → Option MsgType
  | .recvM4 => some .m3
  | .recvM6 => some .m5
  | .recvM8 => some .m7
  | _ => none

/-- Source: `wps_process_wsc_nack`. -/
def processWscNack (msg : Bytes) (w : WpsData) : ProcessRes × WpsData :=
  match parseMsg msg with
  | none => (.failure, w)
  | some attr =>
    if attr.msgTypeCode ≠ some MsgType.wscNack.code then (.failure, w)
    else if nonceMismatch w.nonceR (attr.get .registrarNonce) then (.failure, w)
    else if nonceMismatch w.nonceE (attr.get .enrolleeNonce) then (.failure, w)
    else
      match attr.get .configError with
      | none => (.failure, w)
      | some err =>
        let w' :=
          match nackedMsg w.state with
          | some type => w.emit (.fail type (beNat err))
          | none => w
        (.failure, { w' with state := .sendWscNack })

/-- The op code of a message from UPnP, which its type tells. -/
def upnpOpCode (op : OpCode) (msg : Bytes) : OpCode :=
  if op ≠ .upnp then op
  else
    match (parseMsg msg).bind ParseAttr.msgTypeCode with
    | none => .upnp
    | some code =>
      if code = MsgType.wscAck.code then .ack
      else if code = MsgType.wscNack.code then .nack
      else .upnp

/-- Source: `wps_enrollee_process_msg`. -/
def processMsg (cr : Crypto) (d : Draws) (op : OpCode) (msg : Bytes) (w : WpsData) :
    ProcessRes × WpsData :=
  match upnpOpCode op msg with
  | .msg | .upnp => processWscMsg cr d msg w
  | .ack => processWscAck msg w
  | .nack => processWscNack msg w
  | _ => (.failure, w)

end Hostapd.Wps.Enrollee
