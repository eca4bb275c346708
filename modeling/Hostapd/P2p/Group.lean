import Hostapd.P2p.Attributes

/-!
# The group of a GO

The member table of a group that this device owns (`p2p_group.c`) and the P2P IEs that tell of it.

* **`P2pGroup`**: the members, their number and the flag that asks for a new Beacon. `out` is what
  the callbacks of the group were given, in order.
* **`notifAssoc`**, **`notifDisassoc`**: what the AP reports; `notifFormationDone` ends group
  formation.
-/

namespace Hostapd.P2p

open Hostapd.Lib

/-! ## Data -/

/-- Source: `struct p2p_group_member`. -/
structure GroupMember where
  addr : MacAddr
  devAddr : MacAddr
  p2pIe : Option Bytes
  clientInfo : Option Bytes
  devCapab : UInt8
  deriving DecidableEq

/-- What the callbacks of a group are given: P2P IEs for Beacons, if they change, and Probe
Responses, and whether the group is idle. -/
inductive GroupNotice
  | ieUpdate (beaconIes : Option Bytes) (proberespIes : Bytes)
  | idleUpdate (idle : Bool)
  deriving DecidableEq

structure P2pGroup where
  members : List GroupMember
  numMembers : ℕ
  groupFormation : Bool
  beaconUpdate : Bool
  noa : Option Bytes
  out : List GroupNotice
  deriving DecidableEq

/-- Source: `P2P_SEC_DEVICE_TYPES`. -/
def secDeviceTypes : ℕ := 5

/-- What the IEs of a group tell of the configuration of the device and the group.
Source: `struct p2p_group_config` and `struct p2p_config`, with the sizes of its arrays and the 32
octets of a device name. -/
structure GroupConfig where
  persistentGroup : Bool
  maxClients : ℕ
  intraBss : Bool
  crossConnect : Bool
  devAddr : MacAddr
  priDevType : Bytes
  secDevType : List Bytes
  devName : Bytes
  priDevType_length : priDevType.length = 8
  secDevType_length : secDevType.length ≤ secDeviceTypes
  secDevType_lengths : ∀ type ∈ secDevType, type.length = 8
  devName_length : devName.length ≤ 32

def macOctets (addr : MacAddr) : Bytes := putBe 6 addr.toNat

@[simp] theorem length_macOctets (addr : MacAddr) : (macOctets addr).length = 6 := by
  simp [macOctets]

@[simp] theorem macOfBytes_macOctets (addr : MacAddr) : macOfBytes (macOctets addr) = addr := by
  have hlt : addr.toNat < 256 ^ 6 := addr.isLt
  rw [macOfBytes, macOctets, beNat_putBe hlt]
  exact BitVec.ofNat_toNat 48 addr

/-! ## The IEs -/

/-- Source: `P2P_GROUP_CAPAB_GROUP_LIMIT`. -/
def groupCapabGroupLimit : UInt8 := 0x04

def groupOwnCapab (cfg : GroupConfig) (group : P2pGroup) : UInt8 :=
  -- P2P_GROUP_CAPAB_GROUP_OWNER
  0x01
    ||| (if cfg.persistentGroup then 0x02 else 0)
    ||| (if cfg.intraBss then 0x08 else 0)
    ||| (if group.groupFormation then 0x40 else 0)
    ||| (if cfg.crossConnect then 0x10 else 0)
    ||| (if cfg.maxClients ≤ group.numMembers then groupCapabGroupLimit else 0)

/-- Source: `p2p_group_add_common_ies`. -/
def groupAddCommonIes (cfg : GroupConfig) (group : P2pGroup) : Bytes :=
  -- service discovery and the invitation procedure
  putAttr .capability [0x01 ||| 0x20, groupOwnCapab cfg group]

/-- Source: `p2p_group_add_noa`. -/
def groupAddNoa : Option Bytes → Bytes
  | none => []
  | some noa => putAttr .noticeOfAbsence noa

def deviceInfoData (cfg : GroupConfig) : Bytes :=
  -- the methods are push button, display and keypad
  macOctets cfg.devAddr ++ putBe16 0x0188 ++ cfg.priDevType
    ++ UInt8.ofNat cfg.secDevType.length :: cfg.secDevType.flatten
    ++ attrDevName ++ putBe16 cfg.devName.length ++ cfg.devName

/-- Source: `p2p_buf_add_device_info` without a peer. -/
def bufAddDeviceInfoAttr (cfg : GroupConfig) : Bytes := putAttr .deviceInfo (deviceInfoData cfg)

/-- A P2P IE around attributes. Source: `p2p_buf_add_ie_hdr` and `p2p_buf_update_ie_hdr`. -/
def p2pIe (attrs : Bytes) : Bytes :=
  eidVendorSpecific :: UInt8.ofNat (4 + attrs.length) :: (p2pIeVendorType ++ attrs)

def ieAttrs (ie : Bytes) : Bytes := ie.drop 6

@[simp] theorem ieAttrs_p2pIe (attrs : Bytes) : ieAttrs (p2pIe attrs) = attrs := rfl

/-- Source: `p2p_group_build_beacon_ie`. -/
def buildBeaconIe (cfg : GroupConfig) (group : P2pGroup) : Bytes :=
  p2pIe (groupAddCommonIes cfg group ++ putAttr .deviceId (macOctets cfg.devAddr)
    ++ groupAddNoa group.noa)

/-- The Client Info Descriptors that there is room for: the loop of
`p2p_group_build_probe_resp_ie` around `p2p_client_info`. -/
def clientInfos : ℕ → List GroupMember → Bytes
  | _, [] => []
  | room, m :: ms =>
    match m.clientInfo with
    | none => clientInfos room ms
    | some info =>
      if room < info.length + 1 then clientInfos room ms
      else info ++ clientInfos (room - info.length) ms

/-- The attributes of Probe Responses in front of the Group Info. -/
def probeRespFront (cfg : GroupConfig) (group : P2pGroup) : Bytes :=
  groupAddCommonIes cfg group ++ groupAddNoa group.noa ++ bufAddDeviceInfoAttr cfg

/-- What is left of the 257 octets behind the header of the Group Info. -/
def groupInfoRoom (cfg : GroupConfig) (group : P2pGroup) : ℕ :=
  257 - (6 + (probeRespFront cfg group).length + 3)

/-- Source: `p2p_group_build_probe_resp_ie`. -/
def buildProbeRespIe (cfg : GroupConfig) (group : P2pGroup) : Bytes :=
  p2pIe (probeRespFront cfg group
    ++ putAttr .groupInfo (clientInfos (groupInfoRoom cfg group) group.members))

/-- Source: `p2p_group_update_ies`. -/
def groupUpdateIes (cfg : GroupConfig) (group : P2pGroup) : P2pGroup :=
  let probeRespIe := buildProbeRespIe cfg group
  if group.beaconUpdate then
    { group with
      beaconUpdate := false
      out := group.out ++ [.ieUpdate (some (buildBeaconIe cfg group)) probeRespIe] }
  else { group with out := group.out ++ [.ieUpdate none probeRespIe] }

/-- The callback `idle_update`. -/
def P2pGroup.idleUpdate (group : P2pGroup) (idle : Bool) : P2pGroup :=
  { group with out := group.out ++ [.idleUpdate idle] }

/-! ## Members -/

def clientInfoDesc (addr : MacAddr) (capab : UInt8) (info : Bytes) : Bytes :=
  info.take 6 ++ macOctets addr ++ capab :: info.drop 6

/-- Source: `p2p_build_client_info`; the descriptor comes with the Device Capability and the P2P
Device Address. -/
def buildClientInfo (addr : MacAddr) (p2pIe : Bytes) : Option (Bytes × UInt8 × MacAddr) :=
  match parseIe p2pIe [] with
  | none => none
  | some msg =>
    match msg.get .capability, msg.get .deviceInfo with
    | some capability, some info =>
      let capab := capability.getD 0 0
      let desc := clientInfoDesc addr capab info
      some (UInt8.ofNat desc.length :: desc, capab, macOfBytes (info.take 6))
    | _, _ => none

/-- The entry for a station from the IEs of its (Re)Association Request. -/
def groupMember (addr : MacAddr) (ies : Bytes) : GroupMember :=
  let p2pIe := vendorIeConcat ies p2pIeVendorType
  let built := p2pIe.bind (buildClientInfo addr)
  { addr := addr
    devAddr := (built.map fun b => b.2.2).getD 0
    p2pIe := p2pIe
    clientInfo := built.map Prod.fst
    devCapab := (built.map fun b => b.2.1).getD 0 }

/-- Source: `p2p_group_notif_assoc`. -/
def notifAssoc (cfg : GroupConfig) (group : P2pGroup) (addr : MacAddr) (ies : Bytes) : P2pGroup :=
  let num := group.numMembers + 1
  let group :=
    { group with
      members := groupMember addr ies :: group.members
      numMembers := num
      beaconUpdate := if num = cfg.maxClients then true else group.beaconUpdate }
  let group := groupUpdateIes cfg group
  if num = 1 then group.idleUpdate false else group

/-- Source: `p2p_group_notif_disassoc`. -/
def notifDisassoc (cfg : GroupConfig) (group : P2pGroup) (addr : MacAddr) : P2pGroup :=
  if group.members.any fun m => m.addr = addr then
    let num := group.numMembers - 1
    let group :=
      { group with
        members := group.members.eraseP fun m => m.addr = addr
        numMembers := num
        -- an unsigned max_clients - 1 is the largest number for 0
        beaconUpdate := if num + 1 = cfg.maxClients then true else group.beaconUpdate }
    let group := groupUpdateIes cfg group
    if num = 0 then group.idleUpdate true else group
  else group

/-- Source: `p2p_group_notif_formation_done`. -/
def notifFormationDone (cfg : GroupConfig) (group : P2pGroup) : P2pGroup :=
  groupUpdateIes cfg { group with groupFormation := false, beaconUpdate := true }

/-- Source: `p2p_group_init`. -/
def P2pGroup.init (cfg : GroupConfig) : P2pGroup :=
  (groupUpdateIes cfg
    { members := []
      numMembers := 0
      groupFormation := true
      beaconUpdate := true
      noa := none
      out := [] }).idleUpdate true

inductive GroupCall
  | assoc (addr : MacAddr) (ies : Bytes)
  | disassoc (addr : MacAddr)
  | formationDone
  deriving DecidableEq

def groupStep (cfg : GroupConfig) (group : P2pGroup) : GroupCall → P2pGroup
  | .assoc addr ies => notifAssoc cfg group addr ies
  | .disassoc addr => notifDisassoc cfg group addr
  | .formationDone => notifFormationDone cfg group

end Hostapd.P2p
