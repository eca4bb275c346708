import Hostapd.Lib.CString
import Hostapd.Wps.Data

/-!
# What both roles of WPS share

`wps_common.c`, `wps_attr_build.c`, `wps_attr_process.c` and `wps_dev_attr.c`: the keys, the
protection of messages, and how attributes are built and taken.

* **`Check`**: a function that can fail halfway, as the source chains them with `||`; `allOk` is
  such a chain. What was written before the failure stays written.
* **Keys**: `kdf`, **`deriveKeys`**.
* **Received messages**: `memcmpNonce` is the comparison of nonces that WSC_ACK, WSC_NACK, WSC_Done
  and, at first, every WSC_MSG go through; `withSettings` opens the Encrypted Settings.
* **Protection**: `processAuthenticator` and `buildAuthenticator` over the previous message,
  `processKeyWrapAuth`, `decryptEncrSettings` with its padding, and their builders.
* **Devices and credentials**: `processDeviceAttrs`, `processCred`, `processApSettings`. What a
  credential that fails leaves half written is left out: nothing reads it.
-/

namespace Hostapd.Wps

open Hostapd.Lib

/-! ## Functions that can fail -/

/-- A function that changes the data of a run and says whether it succeeded. -/
abbrev Check := WpsData → Bool × WpsData

/-- Checks in order, up to the first one that fails: `a || b || ..` of the source. -/
def allOk : List Check → Check
  | [], w => (true, w)
  | f :: fs, w =>
    match f w with
    | (true, w) => allOk fs w
    | (false, w) => (false, w)

def guard (test : WpsData → Bool) : Check := fun w => (test w, w)

def need (attr : Option Bytes) (f : Bytes → WpsData → WpsData) : Check := fun w =>
  match attr with
  | none => (false, w)
  | some val => (true, f val w)

/-! ## Keys -/

/-- Source: `wpabuf_zeropad`. -/
def zeropad (mem : Bool) (len : ℕ) (buf : Bytes) : Option Bytes :=
  if len ≤ buf.length then some buf
  else if mem then some (List.replicate (len - buf.length) 0 ++ buf)
  else none

/-- Source: `wps_kdf`, without a label prefix; `SHA256_MAC_LEN` octets come from each round. -/
def kdf (cr : Crypto) (key label : Bytes) (resLen : ℕ) : Bytes :=
  ((List.range ((resLen + 31) / 32)).flatMap fun i =>
    cr.hmacSha256 key (putBe 4 (i + 1) ++ label ++ putBe 4 (resLen * 8))).take resLen

/-- Derive AuthKey and KeyWrapKey from the shared secret and the nonces. Source:
`wps_derive_keys`. -/
def deriveKeys (cr : Crypto) (d : Draws) : Check := fun w =>
  match w.dhPrivkey, if w.registrar then w.dhPubkeyE else w.dhPubkeyR with
  | some priv, some pubkey =>
    match (cr.dh5DeriveShared priv pubkey).bind (zeropad (d.mem .shared) 192) with
    | none => (false, w)
    | some dhShared =>
      let kdk := cr.hmacSha256 (cr.sha256 dhShared) (w.nonceE ++ w.macAddrE ++ w.nonceR)
      let keys := kdf cr kdk (ascii "Wi-Fi Easy and Secure Key Derivation") 80
      (true, { w with
        dhPrivkey := none
        authkey := keys.take 32
        keywrapkey := (keys.drop 32).take 16 })
  | _, _ => (false, w)

/-- What E-Hash1, E-Hash2, R-Hash1 and R-Hash2 commit to: a secret nonce with half a password, for
this pair of public keys. -/
def hashOf (cr : Crypto) (w : WpsData) (snonce psk : Bytes) : Bytes :=
  cr.hmacSha256 w.authkey
    (snonce ++ psk ++ w.dhPubkeyE.getD [] ++ w.dhPubkeyR.getD [])

/-! ## Protection of messages -/

/-- The Authenticator of a message behind the last one. -/
def authenticatorOf (cr : Crypto) (authkey last msg : Bytes) : Bytes :=
  (cr.hmacSha256 authkey (last ++ msg)).take authenticatorLen

/-- The Authenticator of a received message is right: the last 12 octets, where the attribute is
expected, are left out of it. Source: `wps_process_authenticator`. -/
def processAuthenticator (cr : Crypto) (authenticator : Option Bytes) (msg : Bytes)
    (w : WpsData) : Bool :=
  match authenticator, w.lastMsg with
  | some auth, some last =>
    authenticatorOf cr w.authkey last (msg.take (msg.length - 4 - authenticatorLen)) = auth
  | _, _ => false

/-- The Key Wrap Authenticator stands at the end of the settings and is right.
Source: `wps_process_key_wrap_auth`. -/
def processKeyWrapAuth (cr : Crypto) (msg : Bytes) (keyWrapAuth : Option Field) (w : WpsData) :
    Bool :=
  match keyWrapAuth with
  | none => false
  | some kwa =>
    let len := msg.length - 4 - kwaLen
    if len + 4 ≠ kwa.pos then false
    else (cr.hmacSha256 w.authkey (msg.take len)).take kwaLen = kwa.val

/-- Decrypt the Encrypted Settings and remove the padding. Source: `wps_decrypt_encr_settings`. -/
def decryptEncrSettings (cr : Crypto) (d : Draws) (w : WpsData) (encr : Option Bytes) :
    Option Bytes :=
  match encr with
  | none => none
  | some encr =>
    if encr.length < 32 ∨ encr.length % 16 ≠ 0 then none
    else if ¬ d.mem .decrypted then none
    else
      match cr.aes128CbcDecrypt w.keywrapkey (encr.take 16) (encr.drop 16) with
      | none => none
      | some plain =>
        let pad := plain.getLastD 0
        if plain.length < pad.toNat then none
        else if (plain.drop (plain.length - pad.toNat)).all (· = pad) then
          some (plain.take (plain.length - pad.toNat))
        else none

/-- Source: `wps_build_authenticator`, on the message so far. -/
def buildAuthenticator (cr : Crypto) (w : WpsData) (msg : Bytes) : Option Bytes :=
  w.lastMsg.map fun last =>
    msg ++ putAttr .authenticator (authenticatorOf cr w.authkey last msg)

/-- Source: `wps_build_key_wrap_auth`, on the settings so far. -/
def buildKeyWrapAuth (cr : Crypto) (w : WpsData) (plain : Bytes) : Bytes :=
  plain ++ putAttr .keyWrapAuth ((cr.hmacSha256 w.authkey plain).take kwaLen)

/-- Source: `wps_build_encr_settings`. -/
def buildEncrSettings (cr : Crypto) (d : Draws) (w : WpsData) (plain : Bytes) : Option Bytes :=
  let padLen := 16 - plain.length % 16
  let padded := plain ++ List.replicate padLen (UInt8.ofNat padLen)
  match d.iv with
  | none => none
  | some iv =>
    (cr.aes128CbcEncrypt w.keywrapkey iv padded).map fun data => putAttr .encrSettings (iv ++ data)

/-- The settings in the form that a message carries them, with a Key Wrap Authenticator. -/
def buildSettings (cr : Crypto) (d : Draws) (w : WpsData) (plain : Bytes) : Option Bytes :=
  buildEncrSettings cr d w (buildKeyWrapAuth cr w plain)

/-! ## Received messages -/

/-- The nonces differ, for the comparisons that are written
`os_memcmp(a, b, WPS_NONCE_LEN != 0)`: the length is the value of `16 != 0`, which is 1. -/
def memcmpNonce (a b : Bytes) : Bool := a.take 1 ≠ b.take 1

/-- A nonce is missing, or differs by `memcmpNonce`. -/
def nonceMismatch (nonce : Bytes) (attr : Option Bytes) : Bool :=
  match attr with
  | none => true
  | some val => memcmpNonce nonce val

/-- The message type of a parsed message, as its number. -/
def ParseAttr.msgTypeCode (attr : ParseAttr) : Option UInt8 := (attr.get .msgType).map at0

/-- Keep a copy of the last message for the Authenticator. -/
def saveLastMsg (d : Draws) (msg : Bytes) (w : WpsData) : WpsData :=
  { w with lastMsg := if d.mem .lastMsg then some msg else none }

/-- The Encrypted Settings of a message, decrypted and authenticated, are handed to `checks`. -/
def withSettings (cr : Crypto) (d : Draws) (attr : ParseAttr) (checks : ParseAttr → Check) :
    Check := fun w =>
  match decryptEncrSettings cr d w (attr.get .encrSettings) with
  | none => (false, w)
  | some decrypted =>
    match parseMsg decrypted with
    | none => (false, w)
    | some eattr =>
      allOk [guard (processKeyWrapAuth cr decrypted (eattr.field .keyWrapAuth)), checks eattr] w

def reportFailure (type : MsgType) (out : ProcessRes × WpsData) : ProcessRes × WpsData :=
  if out.1 = .failure ∨ out.2.state = .sendWscNack then
    (out.1, out.2.emit (.fail type out.2.configError))
  else out

def keepMsg (d : Draws) (msg : Bytes) (out : ProcessRes × WpsData) : ProcessRes × WpsData :=
  if out.1 = .continue then (out.1, saveLastMsg d msg out.2) else out

/-! ## Building attributes -/

/-- Source: `wps_build_version`. -/
def buildVersion : Bytes := putAttr .version [0x10]

/-- Source: `wps_build_msg_type`. -/
def buildMsgType (type : MsgType) : Bytes := putAttr .msgType [type.code]

/-- Source: `wps_build_enrollee_nonce`. -/
def buildEnrolleeNonce (w : WpsData) : Bytes := putAttr .enrolleeNonce w.nonceE

/-- Source: `wps_build_registrar_nonce`. -/
def buildRegistrarNonce (w : WpsData) : Bytes := putAttr .registrarNonce w.nonceR

/-- Source: `wps_build_auth_type_flags`, `WPS_AUTH_TYPES`. -/
def buildAuthTypeFlags : Bytes :=
  putAttr .authTypeFlags (putBe16 (authOpen ||| authWpapsk ||| authShared ||| authWpa2psk))

/-- Source: `wps_build_encr_type_flags`, `WPS_ENCR_TYPES`. -/
def buildEncrTypeFlags : Bytes :=
  putAttr .encrTypeFlags (putBe16 (encrNone ||| encrWep ||| encrTkip ||| encrAes))

/-- Source: `wps_build_conn_type_flags`, `WPS_CONN_ESS`. -/
def buildConnTypeFlags : Bytes := putAttr .connTypeFlags [0x01]

/-- Source: `wps_build_assoc_state`, `WPS_ASSOC_NOT_ASSOC`. -/
def buildAssocState : Bytes := putAttr .assocState (putBe16 0)

/-- Source: `wps_build_config_methods`. -/
def buildConfigMethods (methods : ℕ) : Bytes := putAttr .configMethods (putBe16 methods)

/-- Source: `wps_build_dev_password_id`. -/
def buildDevPasswordId (id : ℕ) : Bytes := putAttr .devPasswordId (putBe16 id)

/-- Source: `wps_build_config_error`. -/
def buildConfigError (err : ℕ) : Bytes := putAttr .configError (putBe16 err)

/-- Source: `wps_build_rf_bands`. -/
def buildRfBands (dev : DeviceData) : Bytes := putAttr .rfBands [UInt8.ofNat dev.rfBands]

/-- Source: `wps_build_os_version`. -/
def buildOsVersion (dev : DeviceData) : Bytes :=
  putAttr .osVersion (putBe 4 (0x80000000 ||| dev.osVersion))

/-- A text attribute of a device; an empty text is sent as a space. -/
def buildDevString (type : AttrType) (s : Option Bytes) : Bytes :=
  putAttr type (if cstr s = [] then [0x20] else cstr s)

/-- Source: `wps_build_device_attrs`. -/
def buildDeviceAttrs (dev : DeviceData) : Bytes :=
  buildDevString .manufacturer dev.manufacturer ++ buildDevString .modelName dev.modelName ++
    buildDevString .modelNumber dev.modelNumber ++ buildDevString .serialNumber dev.serialNumber ++
    putAttr .primaryDevType dev.priDevType ++ buildDevString .devName dev.deviceName

/-- Make a new key pair and write the public key. Source: `wps_build_public_key`. -/
def buildPublicKey (d : Draws) (w : WpsData) : Option Bytes × WpsData :=
  match d.dh with
  | none => (none, { w with dhPrivkey := none })
  | some (priv, pub) =>
    let w := { w with dhPrivkey := some priv }
    match zeropad (d.mem .pubkey) 192 pub with
    | none => (none, w)
    | some pubkey =>
      (some (putAttr .publicKey pubkey),
        if w.registrar then { w with dhPubkeyR := some pubkey }
        else { w with dhPubkeyE := some pubkey })

/-! ## Devices -/

/-- Take a text of the peer device. Source: `wps_process_manufacturer` and the four like it. -/
def processDevString (d : Draws) (attr : ParseAttr) (type : AttrType)
    (set : Option Bytes → DeviceData → DeviceData) : Check := fun w =>
  match attr.get type with
  | none => (false, w)
  | some str =>
    if d.mem (.devAttr type) then (true, { w with peerDev := set (some str) w.peerDev })
    else (false, { w with peerDev := set none w.peerDev })

/-- Source: `wps_process_manufacturer`. -/
def processManufacturer (d : Draws) (attr : ParseAttr) : Check :=
  processDevString d attr .manufacturer fun s dev => { dev with manufacturer := s }

/-- Source: `wps_process_model_name`. -/
def processModelName (d : Draws) (attr : ParseAttr) : Check :=
  processDevString d attr .modelName fun s dev => { dev with modelName := s }

/-- Source: `wps_process_model_number`. -/
def processModelNumber (d : Draws) (attr : ParseAttr) : Check :=
  processDevString d attr .modelNumber fun s dev => { dev with modelNumber := s }

/-- Source: `wps_process_serial_number`. -/
def processSerialNumber (d : Draws) (attr : ParseAttr) : Check :=
  processDevString d attr .serialNumber fun s dev => { dev with serialNumber := s }

/-- Source: `wps_process_dev_name`. -/
def processDevName (d : Draws) (attr : ParseAttr) : Check :=
  processDevString d attr .devName fun s dev => { dev with deviceName := s }

/-- Source: `wps_process_primary_dev_type`. -/
def processPrimaryDevType (attr : ParseAttr) : Check :=
  need (attr.get .primaryDevType) fun val w =>
    { w with peerDev := { w.peerDev with priDevType := val } }

/-- Source: `wps_process_device_attrs`. -/
def processDeviceAttrs (d : Draws) (attr : ParseAttr) : Check :=
  allOk [processManufacturer d attr, processModelName d attr, processModelNumber d attr,
    processSerialNumber d attr, processPrimaryDevType attr, processDevName d attr]

/-- Source: `wps_process_os_version`. -/
def processOsVersion (attr : ParseAttr) : Check :=
  need (attr.get .osVersion) fun val w =>
    { w with peerDev := { w.peerDev with osVersion := beNat val } }

/-- Source: `wps_process_rf_bands`. -/
def processRfBands (attr : ParseAttr) : Check :=
  need (attr.get .rfBands) fun val w =>
    { w with peerDev := { w.peerDev with rfBands := beNat val } }

/-! ## Credentials -/

/-- Take the SSID without the zeros behind it; one that is too long is ignored.
Source: `wps_process_cred_ssid`. -/
def processCredSsid (ssid : Bytes) (cred : Credential) : Credential :=
  let ssid := (ssid.reverse.dropWhile (· = 0)).reverse
  if ssid.length ≤ 32 then { cred with ssid := ssid } else cred

/-- Take the Network Key, which an open network need not have.
Source: `wps_process_cred_network_key`. -/
def processCredNetworkKey (key : Option Bytes) (cred : Credential) : Option Credential :=
  match key with
  | none => if cred.authType = authOpen ∧ cred.encrType = encrNone then some cred else none
  | some key => if key.length ≤ 64 then some { cred with key := key } else some cred

/-- Drop the NUL behind an ASCII passphrase. Source: `wps_workaround_cred_key`. -/
def workaroundCredKey (cred : Credential) : Credential :=
  if cred.authType &&& (authWpapsk ||| authWpa2psk) ≠ 0 ∧ 8 < cred.key.length ∧
      cred.key.length < 64 ∧ cred.key.getLastD 1 = 0 then
    { cred with key := cred.key.dropLast }
  else cred

/-- The attributes that a Credential and AP Settings have in common, on what `cred` holds.
Source: `wps_process_ap_settings`, from `wps_process_cred_ssid` on. -/
def processCredAttrs (attr : ParseAttr) (cred : Credential) : Option Credential :=
  match attr.get .ssid, attr.get .authType, attr.get .encrType with
  | some ssid, some auth, some encr =>
    let cred := processCredSsid ssid cred
    let cred := { cred with
      authType := beNat auth
      encrType := beNat encr
      keyIdx := ((attr.get .networkKeyIndex).map beNat).getD cred.keyIdx }
    match processCredNetworkKey (attr.get .networkKey) cred, attr.get .macAddr with
    | some cred, some mac => some (workaroundCredKey { cred with macAddr := mac })
    | _, _ => none
  | _, _, _ => none

/-- Source: `wps_process_cred`; the attributes that are only printed are left out. -/
def processCred (attr : ParseAttr) : Option Credential :=
  if (attr.get .networkIndex).isSome then processCredAttrs attr .zero else none

/-- Source: `wps_process_ap_settings`. -/
def processApSettings (attr : ParseAttr) : Option Credential := processCredAttrs attr .zero

end Hostapd.Wps
