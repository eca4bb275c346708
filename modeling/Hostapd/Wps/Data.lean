import Hostapd.Utils.Eloop
import Hostapd.Wps.Attr

/-!
# The data of a WPS run

`wps_i.h`, `wps.h` and the head of `wps_registrar.c`: the long term context with the Registrar in
it, and the data of one protocol run.

* **`WpsData`**: one run, as Registrar or as Enrollee, with the context it points at.
* **`Context`**, **`Registrar`**: what the runs of a device share. The PINs and the PBC sessions
  are lists, the newest in front.

The build is one without `CONFIG_WPS2`, `CONFIG_WPS_UPNP`, `CONFIG_WPS_OOB`, `CONFIG_WPS_STRICT` and
`CONFIG_WPS_TESTING`. The device list and what only goes into Beacons is left out.
-/

namespace Hostapd.Wps

open Hostapd.Lib Hostapd.Utils.Eloop

/-! ## Enumerations -/

/-- Source: `wps_i.h`, the states of `struct wps_data`. -/
inductive State
  | sendM1 | recvM2 | sendM3 | recvM4 | sendM5 | recvM6 | sendM7 | recvM8 | receivedM2d | wpsMsgDone
  | recvAck | wpsFinished | sendWscNack
  | recvM1 | sendM2 | recvM3 | sendM4 | recvM5 | sendM6 | recvM7 | sendM8 | recvDone | sendM2d
  | recvM2dAck
  deriving DecidableEq

/-- Source: `enum wsc_op_code`. -/
inductive OpCode
  | upnp | start | ack | nack | msg | done | fragAck
  deriving DecidableEq

/-- Source: `enum wps_process_res`. -/
inductive ProcessRes
  | done | continue | failure | pending
  deriving DecidableEq

/-- The types of messages. Source: `enum wps_msg_type`. -/
inductive MsgType
  | m1 | m2 | m2d | m3 | m4 | m5 | m6 | m7 | m8 | wscAck | wscNack | wscDone
  deriving DecidableEq

/-- Source: `enum wps_msg_type`. -/
def MsgType.code : MsgType → UInt8
  | .m1 => 0x04
  | .m2 => 0x05
  | .m2d => 0x06
  | .m3 => 0x07
  | .m4 => 0x08
  | .m5 => 0x09
  | .m6 => 0x0a
  | .m7 => 0x0b
  | .m8 => 0x0c
  | .wscAck => 0x0d
  | .wscNack => 0x0e
  | .wscDone => 0x0f

def MsgType.ofCode (code : UInt8) : Option MsgType :=
  [m1, m2, m2d, m3, m4, m5, m6, m7, m8, wscAck, wscNack, wscDone].find? fun type =>
    type.code = code

inductive WpsState
  | notConfigured | configured
  deriving DecidableEq

/-- Source: `enum wps_dev_password_id`. -/
def devPwDefault : ℕ := 0x0000
/-- Source: `enum wps_dev_password_id`. -/
def devPwUserSpecified : ℕ := 0x0001
/-- Source: `enum wps_dev_password_id`. -/
def devPwMachineSpecified : ℕ := 0x0002
/-- Source: `enum wps_dev_password_id`. -/
def devPwPushbutton : ℕ := 0x0004
/-- Source: `enum wps_dev_password_id`. -/
def devPwRegistrarSpecified : ℕ := 0x0005

/-- Source: `enum wps_config_error`. -/
def cfgNoError : ℕ := 0
/-- Source: `enum wps_config_error`. -/
def cfgMultiplePbcDetected : ℕ := 12
/-- Source: `enum wps_config_error`. -/
def cfgSetupLocked : ℕ := 15
/-- Source: `enum wps_config_error`. -/
def cfgDevPasswordAuthFailure : ℕ := 18

/-- Source: `WPS_AUTH_OPEN`, `WPS_AUTH_WPAPSK`, `WPS_AUTH_SHARED` and `WPS_AUTH_WPA2PSK`. -/
def authOpen : ℕ := 0x0001
@[inherit_doc authOpen] def authWpapsk : ℕ := 0x0002
@[inherit_doc authOpen] def authShared : ℕ := 0x0004
@[inherit_doc authOpen] def authWpa2psk : ℕ := 0x0020

/-- Source: `WPS_ENCR_NONE`, `WPS_ENCR_WEP`, `WPS_ENCR_TKIP` and `WPS_ENCR_AES`. -/
def encrNone : ℕ := 0x0001
@[inherit_doc encrNone] def encrWep : ℕ := 0x0002
@[inherit_doc encrNone] def encrTkip : ℕ := 0x0004
@[inherit_doc encrNone] def encrAes : ℕ := 0x0008

/-- Source: `WPS_CONFIG_DISPLAY`. -/
def configDisplay : ℕ := 0x0008

/-- Source: `WPS_CONFIG_PUSHBUTTON`. -/
def configPushbutton : ℕ := 0x0080

/-- Source: `WPS_PBC_WALK_TIME`. -/
def pbcWalkTime : ℤ := 120

/-- Source: `WPS_MAX_AUTHORIZED_MACS`. -/
def maxAuthorizedMacs : ℕ := 5

/-! ## Records -/

/-- Source: `struct wps_credential`. -/
structure Credential where
  ssid : Bytes
  authType : ℕ
  encrType : ℕ
  keyIdx : ℕ
  key : Bytes
  macAddr : Bytes
  deriving DecidableEq

def Credential.zero : Credential := ⟨[], 0, 0, 0, [], List.replicate ethAlen 0⟩

/-- A device. A string is what was copied, with what may stand behind a NUL.
Source: `struct wps_device_data`. -/
structure DeviceData where
  macAddr : Bytes
  deviceName : Option Bytes
  manufacturer : Option Bytes
  modelName : Option Bytes
  modelNumber : Option Bytes
  serialNumber : Option Bytes
  priDevType : Bytes
  osVersion : ℕ
  rfBands : ℕ
  deriving DecidableEq

def DeviceData.zero : DeviceData where
  macAddr := List.replicate ethAlen 0
  deviceName := none
  manufacturer := none
  modelName := none
  modelNumber := none
  serialNumber := none
  priDevType := List.replicate devTypeLen 0
  osVersion := 0
  rfBands := 0

def cstr (s : Option Bytes) : Bytes := (s.getD []).takeWhile (· ≠ 0)

/-- What the application and the driver are told. `newPsk` and `cred` hand a key out.
Source: the callbacks of `struct wps_context` and `struct wps_registrar_config`. -/
inductive Event
  | fail (msg : MsgType) (configError : ℕ)
  | success
  | pwdAuthFail (enrollee : Bool) (part : ℕ)
  | pbcOverlap
  | pbcTimeout
  | m2d (configError : Option ℕ)
  | newPsk (macAddr psk : Bytes)
  | cred (cred : Credential)
  | apSettings (cred : Credential)
  | pinNeeded (uuidE : Bytes)
  | regSuccess (macAddr uuidE : Bytes)
  deriving DecidableEq

/-- A configured PIN. `serial` counts the PINs configured before it and stands for the pointer.
Source: `struct wps_uuid_pin`. -/
structure UuidPin where
  serial : ℕ
  uuid : Bytes
  wildcardUuid : ℕ
  pin : Bytes
  locked : Bool
  expires : Bool
  expiration : OsTime
  enrolleeAddr : Bytes
  deriving DecidableEq

/-- Source: `struct wps_pbc_session`. -/
structure PbcSession where
  addr : Bytes
  uuidE : Bytes
  timestamp : OsTime
  deriving DecidableEq

/-- Source: `struct wps_registrar`. -/
structure Registrar where
  pbc : Bool
  selectedRegistrar : Bool
  pins : List UuidPin
  pbcSessions : List PbcSession
  skipCredBuild : Bool
  extraCred : Option Bytes
  disableAutoConf : Bool
  forcePbcOverlap : Bool
  authorizedMacs : List Bytes
  authorizedMacsUnion : List Bytes
  p2pDevAddr : Bytes
  /-- The number of PINs configured so far. -/
  pinsAdded : ℕ
  deriving DecidableEq

/-- The long term context; `p2p` says whether the build has `CONFIG_P2P`, and `events` is what was
told to the application so far. Source: `struct wps_context`. -/
structure Context where
  p2p : Bool
  ap : Bool
  registrar : Registrar
  wpsState : WpsState
  apSetupLocked : ℕ
  uuid : Bytes
  ssid : Bytes
  dev : DeviceData
  oobDevPwId : ℕ
  configMethods : ℕ
  encrTypes : ℕ
  authTypes : ℕ
  networkKey : Option Bytes
  psk : Option Bytes
  apSettings : Option Bytes
  events : List Event
  deriving DecidableEq

/-- The data of one run. Source: `struct wps_data`. -/
structure WpsData where
  wps : Context
  registrar : Bool
  er : Bool
  state : State
  uuidE : Bytes
  uuidR : Bytes
  macAddrE : Bytes
  nonceE : Bytes
  nonceR : Bytes
  psk1 : Bytes
  psk2 : Bytes
  snonce : Bytes
  peerHash1 : Bytes
  peerHash2 : Bytes
  dhPrivkey : Option Bytes
  dhPubkeyE : Option Bytes
  dhPubkeyR : Option Bytes
  authkey : Bytes
  keywrapkey : Bytes
  lastMsg : Option Bytes
  devPassword : Option Bytes
  devPwId : ℕ
  pbc : Bool
  encrType : ℕ
  authType : ℕ
  newPsk : Option Bytes
  wpsPinRevealed : Bool
  cred : Credential
  peerDev : DeviceData
  configError : ℕ
  newApSettings : Option Credential
  apSettingsCb : Bool
  useCred : Option Credential
  usePskKey : Bool
  p2pDevAddr : Bytes
  deriving DecidableEq

def WpsData.emit (w : WpsData) (e : Event) : WpsData :=
  { w with wps := { w.wps with events := w.wps.events ++ [e] } }

def WpsData.withRegistrar (w : WpsData) (f : Registrar → Registrar) : WpsData :=
  { w with wps := { w.wps with registrar := f w.wps.registrar } }

/-! ## What comes from outside -/

/-- The cryptographic functions. `dh5DeriveShared` takes the own private and the peer's public key,
the AES functions a key, an initialization vector and the data. -/
structure Crypto where
  sha256 : Bytes → Bytes
  hmacSha256 : Bytes → Bytes → Bytes
  dh5DeriveShared : Bytes → Bytes → Option Bytes
  aes128CbcEncrypt : Bytes → Bytes → Bytes → Option Bytes
  aes128CbcDecrypt : Bytes → Bytes → Bytes → Option Bytes

inductive Alloc
  | data | devPassword | newApSettings | pubkey | shared | devAttr (type : AttrType) | decrypted
  | plain | msg | lastMsg | cred | newPsk
  deriving DecidableEq

/-- What a step takes from outside: the time, whether there is memory, the random octets and the
key pair, which may be missing. -/
structure Draws where
  now : OsTime
  mem : Alloc → Bool
  nonce : Option Bytes
  snonce : Option Bytes
  iv : Option Bytes
  key : Option Bytes
  dh : Option (Bytes × Bytes)

/-! ## Beginning a run -/

/-- The data of a run, all zeros but for the context. -/
def WpsData.zero (wps : Context) : WpsData where
  wps := wps
  registrar := false
  er := false
  state := .sendM1
  uuidE := List.replicate uuidLen 0
  uuidR := List.replicate uuidLen 0
  macAddrE := List.replicate ethAlen 0
  nonceE := List.replicate nonceLen 0
  nonceR := List.replicate nonceLen 0
  psk1 := List.replicate 16 0
  psk2 := List.replicate 16 0
  snonce := List.replicate (2 * secretNonceLen) 0
  peerHash1 := List.replicate hashLen 0
  peerHash2 := List.replicate hashLen 0
  dhPrivkey := none
  dhPubkeyE := none
  dhPubkeyR := none
  authkey := List.replicate 32 0
  keywrapkey := List.replicate 16 0
  lastMsg := none
  devPassword := none
  devPwId := 0
  pbc := false
  encrType := 0
  authType := 0
  newPsk := none
  wpsPinRevealed := false
  cred := .zero
  peerDev := .zero
  configError := cfgNoError
  newApSettings := none
  apSettingsCb := false
  useCred := none
  usePskKey := false
  p2pDevAddr := List.replicate ethAlen 0

/-! ## A small setting -/

def Registrar.empty : Registrar where
  pbc := false
  selectedRegistrar := false
  pins := []
  pbcSessions := []
  skipCredBuild := false
  extraCred := none
  disableAutoConf := false
  forcePbcOverlap := false
  authorizedMacs := List.replicate maxAuthorizedMacs (List.replicate ethAlen 0)
  authorizedMacsUnion := List.replicate maxAuthorizedMacs (List.replicate ethAlen 0)
  p2pDevAddr := List.replicate ethAlen 0
  pinsAdded := 0

/-- An access point with such a Registrar and a key for its network. -/
def Context.accessPoint : Context where
  p2p := false
  ap := true
  registrar := .empty
  wpsState := .configured
  apSetupLocked := 0
  uuid := List.replicate uuidLen 0x52
  ssid := [0x61, 0x70]
  dev := .zero
  oobDevPwId := 0
  configMethods := configDisplay ||| configPushbutton
  encrTypes := encrAes
  authTypes := authWpa2psk
  networkKey := some (List.replicate 8 0x6b)
  psk := none
  apSettings := none
  events := []

/-- Cryptographic functions that protect nothing: every digest is 32 zeros. -/
def Crypto.plain : Crypto where
  sha256 _ := List.replicate 32 0
  hmacSha256 _ _ := List.replicate 32 0
  dh5DeriveShared _ _ := some []
  aes128CbcEncrypt _ _ data := some data
  aes128CbcDecrypt _ _ data := some data

/-- Enough memory, a time, and random octets that are all `c`. -/
def Draws.of (c : UInt8) (now : OsTime) : Draws where
  now := now
  mem _ := true
  nonce := some (List.replicate nonceLen c)
  snonce := some (List.replicate (2 * secretNonceLen) c)
  iv := some (List.replicate 16 c)
  key := some (List.replicate 16 c)
  dh := some ([c], [c])

end Hostapd.Wps
