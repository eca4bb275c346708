import Hostapd.Common.VendorIe
import Hostapd.P2p.GoNeg
import Hostapd.P2p.Group
import Hostapd.Wps.AttrCodec

/-!
# P2P frames as octets

The frames of `p2p_go_neg.c`, `p2p_invitation.c` and `p2p.c` that carry a P2P element, as the
builders of `p2p_build.c` write them into a buffer, and `p2p_parse_ies` for such frames.

* **`Layout`** is what a frame is made of, and **`Layout.build`** writes it. A write for
  which there is no room ends the program, and the length octet of an element is filled in behind
  it, modulo 256.
* **`parseIes`** puts the elements of a type together, and parses the WPS and the P2P attributes.

The build is one with `CONFIG_WPS2` and without `CONFIG_WPS_STRICT`.
-/

namespace Hostapd.P2p.Wire

open Hostapd.Lib
open Hostapd.Wps (Item Octets)

/-! ## Configuration -/

abbrev Text (n : ℕ) := {s : Bytes // s.length ≤ n ∧ 0 ∉ s}

abbrev Ssid := {s : Bytes // s.length ≤ 32}

/-- Source: `P2P_MAX_WPS_VENDOR_EXT`. -/
def maxWpsVendorExt : ℕ := 10

/-- What is written into frames of the configuration and the state of the module; a string that is
not set is empty. Source: `struct p2p_config`, `struct p2p_data`. -/
structure FrameConfig where
  country : Country
  regClass : UInt8
  channel : UInt8
  opRegClass : UInt8
  opChannel : UInt8
  channels : P2pChannels
  devAddr : MacAddr
  intendedAddr : MacAddr
  devCapab : UInt8
  goIntent : UInt8
  crossConnect : Bool
  intraBss : Bool
  numGroups : ℕ
  extListenPeriod : UInt16
  extListenInterval : UInt16
  ssid : Ssid
  invRole : InviteRole
  invPersistent : Bool
  invBssid : Option MacAddr
  invSsid : Ssid
  uuid : Octets Wps.uuidLen
  manufacturer : Text 64
  modelName : Text 32
  modelNumber : Text 32
  serialNumber : Text 32
  devName : Text 32
  configMethods : UInt16
  priDevType : Octets Wps.devTypeLen
  secDevType : List (Octets Wps.devTypeLen)
  vendorExt : List Bytes
  secDevType_le : secDevType.length ≤ secDeviceTypes
  vendorExt_le : vendorExt.length ≤ maxWpsVendorExt

/-- What is written into frames of the entry of a peer. Source: `struct p2p_device`. -/
structure FramePeer where
  deviceAddr : MacAddr
  dialogToken : UInt8
  preferPersistentGroup : Bool
  goState : GoState
  wpsMethod : WpsMethod
  channels : P2pChannels

/-- Source: `p2p_wps_method_pw_id`, with the numbers of `enum wps_dev_password_id`. -/
def pwIdCode : WpsMethod → UInt16
  | .pinLabel | .notReady => 0
  | .pinKeypad => 1
  | .pbc => 4
  | .pinDisplay => 5

/-! ## P2P attributes -/

def put (attr : UInt8 × Bytes) : Bytes := attr.1 :: putLe16 attr.2.length ++ attr.2

def ofAttr (attr : P2pAttr) (data : Bytes) : UInt8 × Bytes := (attr.id, data)

/-- Source: `p2p_buf_add_listen_channel`, `p2p_buf_add_operating_channel`. -/
def channelData (country : Country) (regClass channel : UInt8) : Bytes :=
  [country.fst, country.snd, country.third, regClass, channel]

/-- Source: `p2p_buf_add_device_info`. -/
def deviceInfo (cfg : FrameConfig) (method : WpsMethod) : Bytes :=
  macOctets cfg.devAddr ++ putBe16 (deviceInfoMethods method).toNat ++ cfg.priDevType.1 ++
    (UInt8.ofNat cfg.secDevType.length :: (cfg.secDevType.flatMap Subtype.val ++
      (attrDevName ++ (putBe16 cfg.devName.1.length ++ cfg.devName.1))))

/-- Source: `p2p_buf_add_group_id`. -/
def groupIdData (addr : MacAddr) (ssid : Ssid) : Bytes := macOctets addr ++ ssid.1

/-- Source: `p2p_buf_add_ext_listen_timing`, where an interval is set. -/
def extListenTiming (cfg : FrameConfig) : List (UInt8 × Bytes) :=
  if cfg.extListenInterval = 0 then []
  else [ofAttr .extListenTiming
    (putLe16 cfg.extListenPeriod.toNat ++ putLe16 cfg.extListenInterval.toNat)]

def operatingChannel (cfg : FrameConfig) : UInt8 × Bytes :=
  ofAttr .operatingChannel (channelData cfg.country cfg.opRegClass cfg.opChannel)

/-- Source: `p2p_buf_add_channel_list`. -/
def channelList (cfg : FrameConfig) (channels : P2pChannels) : UInt8 × Bytes :=
  ofAttr .channelList (bufAddChannelList cfg.country channels)

/-- The group capabilities of an end that may become GO. -/
def groupCapabOf (cfg : FrameConfig) (preferPersistentGroup : Bool) : UInt8 :=
  (if preferPersistentGroup then groupCapabPersistentGroup else 0) |||
    (if cfg.crossConnect then groupCapabCrossConn else 0) |||
    (if cfg.intraBss then groupCapabIntraBssDist else 0)

def goCapabOf (cfg : FrameConfig) : Option FramePeer → UInt8
  | some peer =>
    if peer.goState = .localGo then groupCapabOf cfg peer.preferPersistentGroup else 0
  | none => 0

/-! ## WPS attributes -/

/-- Source: `p2p_add_wps_string`. -/
def wpsString {n : ℕ} (val : Text n) : Bytes := if val.1 = [] then [0x20] else val.1

/-- The attributes in front of the vendor extensions. Source: `p2p_build_wps_ie`. -/
def wpsItems (cfg : FrameConfig) (pwId : UInt16) (allAttr : Bool) : List Item :=
  [.single .version [0x10]] ++
    (if allAttr then [.single .wpsState [1]] else []) ++
    [.single .devPasswordId (putBe16 pwId.toNat)] ++
    (if allAttr then
      [.single .responseType [0],
        .single .uuidE cfg.uuid.1,
        .single .manufacturer (wpsString cfg.manufacturer),
        .single .modelName (wpsString cfg.modelName),
        .single .modelNumber (wpsString cfg.modelNumber),
        .single .serialNumber (wpsString cfg.serialNumber),
        .single .primaryDevType cfg.priDevType.1,
        .single .devName (wpsString cfg.devName),
        .single .configMethods (putBe16 cfg.configMethods.toNat)]
    else []) ++
    [.wfa (Wps.wfaElems false [])] ++
    (if allAttr ∧ cfg.secDevType ≠ [] then
      [.single .secondaryDevTypeList (cfg.secDevType.flatMap Subtype.val)]
    else [])

def wpsFixed (cfg : FrameConfig) (pwId : UInt16) (allAttr : Bool) : Bytes :=
  (wpsItems cfg pwId allAttr).flatMap Item.put

/-- The vendor extensions that there is room for. Source: the loop of `p2p_build_wps_ie`. -/
def extsWritten : ℕ → List Bytes → List Bytes
  | _, [] => []
  | room, ext :: exts =>
    if room < 4 + ext.length then extsWritten room exts
    else ext :: extsWritten (room - (4 + ext.length)) exts

/-- The vendor extensions in a buffer with so much room for all attributes. -/
def wpsExts (cfg : FrameConfig) (room : ℕ) (pwId : UInt16) (allAttr : Bool) : List Bytes :=
  extsWritten (room - (wpsFixed cfg pwId allAttr).length) cfg.vendorExt

/-- Source: `p2p_build_wps_ie`. -/
def wpsData (cfg : FrameConfig) (room : ℕ) (pwId : UInt16) (allAttr : Bool) : Bytes :=
  wpsFixed cfg pwId allAttr ++
    (wpsExts cfg room pwId allAttr).flatMap fun ext => (Item.vendorExt ext).put

/-! ## Layouts -/

def wpsDevOuiWfa : ℕ := 0x0050f204

/-- Source: `P2P_IE_VENDOR_TYPE`. -/
def p2pVendorType : ℕ := 0x506f9a09

/-- An element around its data. Source: `p2p_buf_add_ie_hdr` and `p2p_buf_update_ie_hdr`. -/
def vendorIe (ouiType : ℕ) (data : Bytes) : Bytes :=
  eidVendorSpecific :: UInt8.ofNat (4 + data.length) :: (putBe 4 ouiType ++ data)

/-- What a frame is made of: the size of its buffer, what stands in front of the elements, the
attributes of the P2P element, and the arguments of `p2p_build_wps_ie`, where it is called. -/
structure Layout where
  size : ℕ
  header : Bytes
  attrs : List (UInt8 × Bytes)
  wps : Option (UInt16 × Bool)
  wpsFirst : Bool

/-- Source: `p2p_buf_add_public_action_hdr`. -/
def publicActionHdr (subtype dialogToken : UInt8) : Bytes :=
  [4, 9, 0x50, 0x6f, 0x9a, 9, subtype, dialogToken]

section Layouts

variable (cfg : FrameConfig)

/-- Source: `p2p_build_go_neg_req`. -/
def goNegReq (peer : FramePeer) (tieBreaker : Bool) : Layout where
  size := 1000
  header := publicActionHdr 0 (nextDialogToken peer.dialogToken)
  attrs :=
    [ofAttr .capability [cfg.devCapab, groupCapabOf cfg peer.preferPersistentGroup],
      ofAttr .groupOwnerIntent [goIntentOctet cfg.goIntent tieBreaker],
      ofAttr .configurationTimeout [100, 20],
      ofAttr .listenChannel (channelData cfg.country cfg.regClass cfg.channel)] ++
    extListenTiming cfg ++
    [ofAttr .intendedInterfaceAddr (macOctets cfg.intendedAddr),
      channelList cfg cfg.channels,
      ofAttr .deviceInfo (deviceInfo cfg peer.wpsMethod),
      operatingChannel cfg]
  wps := some (pwIdCode peer.wpsMethod, false)
  wpsFirst := false

def goNegRespChannelsOf (peer : Option FramePeer) (status : UInt8) : P2pChannels :=
  match peer with
  | some peer =>
    if status ≠ 0 ∨ peer.goState = .remoteGo then cfg.channels
    else channelsIntersect cfg.channels peer.channels
  | none => cfg.channels

def methodOf : Option FramePeer → WpsMethod
  | some peer => peer.wpsMethod
  | none => .notReady

def roleOf : Option FramePeer → GoState
  | some peer => peer.goState
  | none => .unknownGo

/-- Source: `p2p_build_go_neg_resp`. -/
def goNegResp (peer : Option FramePeer) (dialogToken status : UInt8) (tieBreaker : Bool) :
    Layout where
  size := 1000
  header := publicActionHdr 1 dialogToken
  attrs :=
    [ofAttr .status [status],
      ofAttr .capability [cfg.devCapab, goCapabOf cfg peer],
      ofAttr .groupOwnerIntent [goIntentOctet cfg.goIntent tieBreaker],
      ofAttr .configurationTimeout [100, 20]] ++
    (if roleOf peer = .remoteGo then [] else [operatingChannel cfg]) ++
    [ofAttr .intendedInterfaceAddr (macOctets cfg.intendedAddr),
      channelList cfg (goNegRespChannelsOf cfg peer status),
      ofAttr .deviceInfo (deviceInfo cfg (methodOf peer))] ++
    (if roleOf peer = .localGo then [ofAttr .groupId (groupIdData cfg.devAddr cfg.ssid)] else [])
  wps := some (pwIdCode (methodOf peer), false)
  wpsFirst := false

/-- `go` is an `int`, and -1 counts as a GO. Source: `p2p_build_go_neg_conf`. -/
def goNegConf (peer : FramePeer) (dialogToken status : UInt8) (respChan : Option ChannelAttr)
    (go : Bool) : Layout where
  size := 1000
  header := publicActionHdr 2 dialogToken
  attrs :=
    [ofAttr .status [status],
      ofAttr .capability [cfg.devCapab, goCapabOf cfg (some peer)],
      match respChan with
      | some chan =>
        if go then operatingChannel cfg
        else ofAttr .operatingChannel (channelData chan.country chan.regClass chan.channel)
      | none => operatingChannel cfg,
      channelList cfg (channelsIntersect cfg.channels peer.channels)] ++
    (if go then [ofAttr .groupId (groupIdData cfg.devAddr cfg.ssid)] else [])
  wps := none
  wpsFirst := false

/-- Source: `p2p_build_invitation_req`. -/
def invitationReq (peer : FramePeer) (goDevAddr : Option MacAddr) : Layout where
  size := 1000
  header := publicActionHdr 3 (nextDialogToken peer.dialogToken)
  attrs :=
    [ofAttr .configurationTimeout
        (if cfg.invRole = .activeGo ∨ cfg.invPersistent = false then [0, 0] else [100, 20]),
      ofAttr .invitationFlags [if cfg.invPersistent then invitationFlagsType else 0],
      operatingChannel cfg] ++
    (cfg.invBssid.map fun addr => ofAttr .groupBssid (macOctets addr)).toList ++
    [channelList cfg cfg.channels,
      ofAttr .groupId (groupIdData (goDevAddr.getD
        (if cfg.invRole = .client then peer.deviceAddr else cfg.devAddr)) cfg.invSsid),
      ofAttr .deviceInfo (deviceInfo cfg peer.wpsMethod)]
  wps := none
  wpsFirst := false

/-- Source: `p2p_build_invitation_resp`. -/
def invitationResp (dialogToken status : UInt8) (groupBssid : Option MacAddr)
    (regClass channel : UInt8) (channels : Option P2pChannels) : Layout where
  size := 1000
  header := publicActionHdr 4 dialogToken
  attrs :=
    [ofAttr .status [status],
      ofAttr .configurationTimeout [0, 0]] ++
    (if regClass ≠ 0 ∧ channel ≠ 0 then
      [ofAttr .operatingChannel (channelData cfg.country regClass channel)] else []) ++
    (groupBssid.map fun addr => ofAttr .groupBssid (macOctets addr)).toList ++
    (channels.map fun channels => channelList cfg channels).toList
  wps := none
  wpsFirst := false

/-- Source: `p2p_build_probe_resp_ies`. -/
def probeResp : Layout where
  size := 1000
  header := []
  attrs :=
    [ofAttr .capability [cfg.devCapab, 0]] ++
    extListenTiming cfg ++
    [ofAttr .deviceInfo (deviceInfo cfg .notReady)]
  wps := some (0, true)
  wpsFirst := true

/-- Source: `p2p_assoc_req_ie` for a group. -/
def assocReq (peer : Option FramePeer) : Layout where
  size := 200
  header := []
  attrs :=
    [ofAttr .capability [cfg.devCapab, 0]] ++
    extListenTiming cfg ++
    [ofAttr .deviceInfo (deviceInfo cfg (methodOf peer))]
  wps := none
  wpsFirst := false

/-- Concurrent operation under P2P management.
Source: `P2P_DEV_CAPAB_CONCURRENT_OPER`, `P2P_DEV_CAPAB_INFRA_MANAGED`. -/
def FrameConfig.managed : Bool := cfg.devCapab &&& 0x04 ≠ 0 ∧ cfg.devCapab &&& 0x08 ≠ 0

/-- Source: `p2p_assoc_req_ie_wlan_ap`, for an AP with a P2P element. The parser does not know the
Interface attribute. -/
def assocReqWlanAp : Layout where
  size := 200
  header := []
  attrs :=
    [ofAttr .capability [cfg.devCapab,
      if 0 < cfg.numGroups then
        0x01 ||| (if cfg.managed ∧ cfg.crossConnect then groupCapabCrossConn else 0)
      else 0]] ++
    (if cfg.managed then [(16, macOctets cfg.devAddr ++ 1 :: macOctets cfg.devAddr)] else [])
  wps := none
  wpsFirst := false

end Layouts

/-- The frames with what their builders are called with. -/
inductive SentFrame
  | goNegReq (peer : FramePeer) (tieBreaker : Bool)
  | goNegResp (peer : Option FramePeer) (dialogToken status : UInt8) (tieBreaker : Bool)
  | goNegConf (peer : FramePeer) (dialogToken status : UInt8) (respChan : Option ChannelAttr)
      (go : Bool)
  | invitationReq (peer : FramePeer) (goDevAddr : Option MacAddr)
  | invitationResp (dialogToken status : UInt8) (groupBssid : Option MacAddr)
      (regClass channel : UInt8) (channels : Option P2pChannels)
  | probeResp
  | assocReq (peer : Option FramePeer)
  | assocReqWlanAp

def SentFrame.layout (cfg : FrameConfig) : SentFrame → Layout
  | .goNegReq peer tieBreaker => Wire.goNegReq cfg peer tieBreaker
  | .goNegResp peer dialogToken status tieBreaker =>
    Wire.goNegResp cfg peer dialogToken status tieBreaker
  | .goNegConf peer dialogToken status respChan go =>
    Wire.goNegConf cfg peer dialogToken status respChan go
  | .invitationReq peer goDevAddr => Wire.invitationReq cfg peer goDevAddr
  | .invitationResp dialogToken status groupBssid regClass channel channels =>
    Wire.invitationResp cfg dialogToken status groupBssid regClass channel channels
  | .probeResp => Wire.probeResp cfg
  | .assocReq peer => Wire.assocReq cfg peer
  | .assocReqWlanAp => Wire.assocReqWlanAp cfg

namespace Layout

variable (cfg : FrameConfig) (layout : Layout)

def p2pElement : Bytes := vendorIe p2pVendorType (layout.attrs.flatMap put)

/-- The room for WPS attributes: what the buffer has left behind what stands in front of them. -/
def wpsRoom : ℕ :=
  layout.size - (layout.header.length +
    (if layout.wpsFirst then 0 else layout.p2pElement.length) + 6)

def wpsElement : Option Bytes :=
  layout.wps.map fun args =>
    vendorIe wpsDevOuiWfa (wpsData cfg layout.wpsRoom args.1 args.2)

def elements : List Bytes :=
  if layout.wpsFirst then (layout.wpsElement cfg).toList ++ [layout.p2pElement]
  else layout.p2pElement :: (layout.wpsElement cfg).toList

def build : Except Stop Bytes := do
  let buf ← putOctets layout.size [] layout.header
  (layout.elements cfg).foldlM (putOctets layout.size) buf

end Layout

/-! ## The parser -/

/-- What is taken from the WPS attributes. Source: `p2p_parse_wps_ie`. -/
structure WpsInfo where
  deviceName : Bytes
  configMethods : ℕ
  devPasswordId : ℕ
  priDevType : Option Bytes
  secDevTypeList : Option Bytes
  vendorExt : List Bytes
  manufacturer : Option Bytes
  modelName : Option Bytes
  modelNumber : Option Bytes
  serialNumber : Option Bytes
  deriving DecidableEq

def WpsInfo.zero : WpsInfo := ⟨[], 0, 0, none, none, [], none, none, none, none⟩

/-- A device name that fits `device_name`. -/
def wpsDeviceName (name : Option Bytes) : Bytes :=
  match name with
  | some name => if name.length < 33 then name else []
  | none => []

def WpsInfo.ofAttr (attr : Wps.ParseAttr) : WpsInfo where
  deviceName := wpsDeviceName (attr.get .devName)
  configMethods := ((attr.get .configMethods).map be16).getD 0
  devPasswordId := ((attr.get .devPasswordId).map be16).getD 0
  priDevType := attr.get .primaryDevType
  secDevTypeList := attr.get .secondaryDevTypeList
  vendorExt := attr.vendorExt
  manufacturer := attr.get .manufacturer
  modelName := attr.get .modelName
  modelNumber := attr.get .modelNumber
  serialNumber := attr.get .serialNumber

/-- Source: `p2p_parse_wps_ie`. -/
def parseWpsIe (buf : Bytes) : Option WpsInfo := (Wps.parseMsg buf).map WpsInfo.ofAttr

/-- Control characters of a device name are replaced, up to a zero octet. -/
def sanitize : Bytes → Bytes
  | [] => []
  | c :: rest => if c = 0 then c :: rest else (if c < 32 then 0x5f else c) :: sanitize rest

/-- The device name of a Device Info attribute. Source: `p2p_parse_attribute`. -/
def deviceInfoName (data : Bytes) : Bytes :=
  let name := data.drop (17 + 8 * (data.getD 16 0).toNat + 2)
  sanitize ((name.drop 2).take (be16 name))

/-- A parsed frame. Source: `struct p2p_message`. -/
structure ParsedIes where
  ssid : Option Bytes
  dsParams : Option Bytes
  wps : WpsInfo
  attrs : ParsedIe
  deviceName : Bytes
  deriving DecidableEq

/-- The last element with a number. Source: `ieee802_11_parse_elems`. -/
def lastElement (id : UInt8) (data : Bytes) : Option Bytes :=
  ((Lib.elements data).reverse.find? fun r => r.1 = id).map Prod.snd

/-- Source: `p2p_parse_ies`, where memory can be allocated; `none` is the result -1. -/
def parseIes (data : Bytes) : Except Stop (Option ParsedIes) := do
  let wpsAttributes ← VendorIe.vendorIeConcat true data wpsDevOuiWfa
  match (wpsAttributes.map parseWpsIe).getD (some .zero) with
  | none => return none
  | some wps => do
    let p2pAttributes ← VendorIe.vendorIeConcat true data p2pVendorType
    match (p2pAttributes.map fun buf => parseIe buf []).getD (some []) with
    | none => return none
    | some attrs =>
      return some
        { ssid := lastElement 0 data
          dsParams := (lastElement 3 data).filter fun ds => 1 ≤ ds.length
          wps := wps
          attrs := attrs
          deviceName := ((attrs.get .deviceInfo).map deviceInfoName).getD wps.deviceName }

end Hostapd.P2p.Wire
