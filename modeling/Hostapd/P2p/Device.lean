import Hostapd.P2p.Module

/-!
# The peer table

How entries come into the table and leave it, and what is copied into them (`p2p.c`, `p2p_parse.c`):
from scan results, with the clients that a GO lists in its Group Info, from Probe Requests and from
GO Negotiation Requests.

* **`addDevice`** is `p2p_add_device`. It marks its entry as `busy`; what frees it then is an
  error, since the entry is used again behind the clients.
-/

namespace Hostapd.P2p

open Hostapd.Lib

open Hostapd.Utils.Eloop (OsTime)

def macOfBytes (data : Bytes) : MacAddr := BitVec.ofNat 48 (beNat data)

/-! ## Entries -/

/-- The loop that looks for the entry seen least recently, the first one of them. -/
def oldestFrom (mem : ℕ → P2pDevice) : Option ℕ → List ℕ → Option ℕ
  | oldest, [] => oldest
  | none, d :: ds => oldestFrom mem (some d) ds
  | some o, d :: ds =>
    oldestFrom mem (some (if (mem d).lastSeen.before (mem o).lastSeen then d else o)) ds

def oldest (p2p : P2pData) : Option ℕ := oldestFrom p2p.mem none p2p.devices

/-- Source: `p2p_device_free`. -/
def deviceFree (p2p : P2pData) (dev : ℕ) : P2pData :=
  let p2p := p2p.fault (p2p.busy = some dev) (.freedInUse dev)
  { p2p with
    goNegPeer := if p2p.goNegPeer = some dev then none else p2p.goNegPeer
    invitePeer := if p2p.invitePeer = some dev then none else p2p.invitePeer
    sdPeer := if p2p.sdPeer = some dev then none else p2p.sdPeer
    pendingClientDiscGo :=
      if p2p.pendingClientDiscGo = some dev then none else p2p.pendingClientDiscGo
    out := p2p.out ++ [.devLost (p2p.mem dev).info.deviceAddr] }

def removeDevice (p2p : P2pData) (dev : ℕ) : P2pData :=
  deviceFree { p2p with devices := p2p.devices.erase dev } dev

/-- `os_zalloc` for an entry: `block` is what the allocator offers, never one that is in use. -/
def zallocDevice (p2p : P2pData) (block : Option ℕ) : Option ℕ :=
  block.filter fun b => b ∉ p2p.devices

def makeRoom (p2p : P2pData) : P2pData :=
  if p2p.devices.length + 1 > p2p.cfg.maxPeers then
    match oldest p2p with
    | some o => removeDevice p2p o
    | none => p2p
  else p2p

/-- Source: `p2p_create_device`. -/
def createDevice (p2p : P2pData) (addr : MacAddr) (block : Option ℕ) : P2pData × Option ℕ :=
  match p2p.getDevice addr with
  | some dev => (p2p, some dev)
  | none =>
    let p2p := makeRoom p2p
    match zallocDevice p2p block with
    | none => (p2p, none)
    | some dev =>
      ({ p2p with
          mem := Function.update p2p.mem dev (.zero addr)
          devices := dev :: p2p.devices }, some dev)

/-- Source: `p2p_expire_peers`. -/
def expirePeers (p2p : P2pData) (now : OsTime) : P2pData :=
  p2p.devices.foldl (fun q dev =>
    if (q.mem dev).lastSeen.sec + peerExpirationAge ≥ now.sec then q else removeDevice q dev) p2p

/-! ## The clients of a group -/

/-- Source: `struct p2p_client_info`. -/
structure ClientInfo where
  deviceAddr : MacAddr
  interfaceAddr : MacAddr
  devCapab : UInt8
  configMethods : UInt16
  priDevType : Bytes
  numSecDevTypes : UInt8
  secDevTypes : Bytes
  devName : Bytes
  deriving DecidableEq

/-- Source: `P2P_MAX_GROUP_ENTRIES`. -/
def maxGroupEntries : ℕ := 50

def attrDevName : Bytes := [0x10, 0x11]

/-- A 16-bit number in network order. Source: `WPA_GET_BE16`. -/
def getBe16 (data : Bytes) : UInt16 := (beNat (data.take 2)).toUInt16

/-- The end of a descriptor from the number of its secondary device types on: the list of them and
the name of the device. -/
def parseClientTail (data : Bytes) : Option (UInt8 × Bytes × Bytes) :=
  match data with
  | [] => none
  | num :: t =>
    if t.length < 8 * num.toNat then none
    else
      let name := t.drop (8 * num.toNat)
      if name.length < 4 then none
      else if name.take 2 ≠ attrDevName then none
      else
        let count := beNat ((name.drop 2).take 2)
        if (name.drop 4).length < count then none
        else some (num, t.take (8 * num.toNat), (name.drop 4).take (min count 32))

/-- One descriptor, behind the octet with its length. -/
def parseClient (desc : Bytes) : Option ClientInfo :=
  if desc.length < 24 then none
  else
    (parseClientTail (desc.drop 23)).map fun tail =>
      { deviceAddr := macOfBytes (desc.take 6)
        interfaceAddr := macOfBytes ((desc.drop 6).take 6)
        devCapab := desc.getD 12 0
        configMethods := getBe16 (desc.drop 13)
        priDevType := (desc.drop 15).take 8
        numSecDevTypes := tail.1
        secDevTypes := tail.2.1
        devName := tail.2.2 }

/-- A descriptor ends with its two addresses, and the Group Info with the descriptor: the octet
behind them is read nevertheless. -/
def capabBehindEnd (desc rest : Bytes) : Bool := desc.length = 12 && rest.isEmpty

/-- The loop over the descriptors, with room for so many; `none` is the result -1. The second
component tells of a read behind the attribute. Source: `p2p_group_info_parse`. -/
def groupInfoParse : ℕ → Bytes → Option (List ClientInfo) × Bool
  | _, [] => (some [], false)
  | 0, _ :: _ => (none, false)
  | room + 1, len :: g =>
    if g.length < len.toNat then (none, false)
    else
      let desc := g.take len.toNat
      let rest := g.drop len.toNat
      match parseClient desc with
      | none => (none, capabBehindEnd desc rest)
      | some cli =>
        if room = 0 then (none, false)
        else
          let r := groupInfoParse room rest
          (r.1.map (cli :: ·), r.2)

/-- Source: `p2p_copy_client_info`. -/
def copyClientInfo (p2p : P2pData) (dev : ℕ) (cli : ClientInfo) : P2pData :=
  let p2p := p2p.modify dev fun d =>
    { d with
      info := { d.info with
        deviceName := cli.devName
        devCapab := cli.devCapab
        configMethods := cli.configMethods
        priDevType := cli.priDevType
        wpsSecDevTypeList := cli.secDevTypes } }
  p2p.fault (128 < cli.secDevTypes.length) (.overrun .wpsSecDevTypeList cli.secDevTypes.length)

/-- What is known of a client that has an entry already. -/
def updateClient (p2p : P2pData) (dev : ℕ) (cli : ClientInfo) : P2pData :=
  let flags := (p2p.mem dev).flags
  let p2p :=
    -- only if this was not received directly from the client
    if flags.groupClientOnly || flags.probeReqOnly then copyClientInfo p2p dev cli else p2p
  p2p.setFlags dev fun f => { f with probeReqOnly := false }

/-- The entry of a client that has just been created. -/
def newClient (p2p : P2pData) (dev : ℕ) (cli : ClientInfo) (freq : ℤ) : P2pData :=
  let p2p := p2p.setFlags dev fun f => { f with groupClientOnly := true }
  let p2p := copyClientInfo p2p dev cli
  let p2p := p2p.modify dev fun d => { d with operFreq := freq }
  let p2p := p2p.emit (.devFound (p2p.mem dev).info.deviceAddr true)
  p2p.setFlags dev fun f => { f with reported := true, reportedOnce := true }

def seenInGroup (goDevAddr goInterfaceAddr interfaceAddr : MacAddr) (now : OsTime)
    (d : P2pDevice) : P2pDevice :=
  { d with
    interfaceAddr := interfaceAddr
    lastSeen := now
    memberInGoDev := goDevAddr
    memberInGoIface := goInterfaceAddr }

/-- One client of a group: the body of the loop of `p2p_add_group_clients`. -/
def addGroupClient (p2p : P2pData) (goDevAddr goInterfaceAddr : MacAddr) (freq : ℤ)
    (cli : ClientInfo) (now : OsTime) (block : Option ℕ) : P2pData :=
  match p2p.getDevice cli.deviceAddr with
  | some dev =>
    (updateClient p2p dev cli).modify dev
      (seenInGroup goDevAddr goInterfaceAddr cli.interfaceAddr now)
  | none =>
    match createDevice p2p cli.deviceAddr block with
    | (p2p, none) => p2p
    | (p2p, some dev) =>
      (newClient p2p dev cli freq).modify dev
        (seenInGroup goDevAddr goInterfaceAddr cli.interfaceAddr now)

/-- The loop over the clients from the one with index `c` on. -/
def addGroupClientsFrom (env : Env) (goDevAddr goInterfaceAddr : MacAddr) (freq : ℤ) :
    ℕ → P2pData → List ClientInfo → P2pData
  | _, p2p, [] => p2p
  | c, p2p, cli :: clients =>
    addGroupClientsFrom env goDevAddr goInterfaceAddr freq (c + 1)
      (addGroupClient p2p goDevAddr goInterfaceAddr freq cli (env.clock (c + 1))
        (env.block (c + 1))) clients

/-- Source: `p2p_add_group_clients`. The loop that is to clear the old data of the group copies the
address of the GO into every entry instead, since it calls `os_memcpy` and not `os_memcmp`. -/
def addGroupClients (env : Env) (p2p : P2pData) (goDevAddr goInterfaceAddr : MacAddr) (freq : ℤ)
    (groupInfo : Option Bytes) : P2pData :=
  match groupInfo with
  | none => p2p
  | some gi =>
    let r := groupInfoParse maxGroupEntries gi
    let p2p := p2p.fault r.2 .overread
    match r.1 with
    | none => p2p
    | some clients =>
      let p2p := p2p.devices.foldl (fun q dev =>
        q.modify dev fun d => { d with memberInGoIface := goInterfaceAddr }) p2p
      addGroupClientsFrom env goDevAddr goInterfaceAddr freq 0 p2p clients

/-! ## A peer -/

/-- A string attribute is taken if it is shorter than the field for it. -/
def takeString (size : ℕ) (attr : Option Bytes) (old : Bytes) : Bytes :=
  match attr with
  | some val => if val.length < size then val else old
  | none => old

/-- Source: `p2p_copy_wps_info`. -/
def copyWpsInfo (p2p : P2pData) (dev : ℕ) (probeReq : Bool) (msg : P2pMessage) : P2pData :=
  let p2p := p2p.modify dev fun d =>
    { d with
      info := { d.info with
        deviceName := msg.deviceName
        manufacturer := takeString 65 msg.manufacturer d.info.manufacturer
        modelName := takeString 33 msg.modelName d.info.modelName
        modelNumber := takeString 33 msg.modelNumber d.info.modelNumber
        serialNumber := takeString 33 msg.serialNumber d.info.serialNumber
        priDevType :=
          match msg.deviceInfo, msg.wpsPriDevType with
          | some info, _ => info.priDevType
          | none, some type => type
          | none, none => d.info.priDevType
        wpsSecDevTypeList := msg.wpsSecDevTypeList.getD d.info.wpsSecDevTypeList
        devCapab := (msg.capability.map Prod.fst).getD d.info.devCapab
        groupCapab := (msg.capability.map Prod.snd).getD d.info.groupCapab
        configMethods :=
          if probeReq then d.info.configMethods
          else
            match msg.deviceInfo with
            | some info =>
              if info.configMethods ≠ 0 then info.configMethods else msg.wpsConfigMethods
            | none => msg.wpsConfigMethods }
      extListenPeriod := (msg.extListenTiming.map Prod.fst).getD d.extListenPeriod
      extListenInterval := (msg.extListenTiming.map Prod.snd).getD d.extListenInterval }
  let len := (msg.wpsSecDevTypeList.getD []).length
  p2p.fault (128 < len) (.overrun .wpsSecDevTypeList len)

/-- A query of service discovery is waiting for a peer. Source: `p2p_pending_sd_req`. -/
def pendingSdReq (p2p : P2pData) (dev : ℕ) : Bool :=
  let d := p2p.mem dev
  d.info.devCapab &&& devCapabServiceDiscovery ≠ 0 &&
    p2p.sdQueries.any fun q =>
      if q.forAllPeers then !d.flags.sdInfo else q.peer = d.info.deviceAddr

/-- The frequency that a DS Parameter Set tells, where it counts. -/
def dsFreq (freq : ℤ) (dsParams : Option UInt8) : ℤ :=
  match dsParams with
  | none => freq
  | some ds =>
    if 2412 ≤ freq ∧ freq ≤ 2484 ∧ 1 ≤ ds ∧ ds ≤ 14 then
      if ds = 14 then 2484 else 2407 + ds.toNat * 5
    else freq

/-- The address of the peer that a frame is about. -/
def P2pMessage.deviceAddr (msg : P2pMessage) : Option MacAddr :=
  match msg.deviceInfo with
  | some info => some info.deviceAddr
  | none => msg.deviceId

/-- The SSID of a frame is copied with the length that its element has. -/
def copySsid (p2p : P2pData) (dev : ℕ) (ssid : Option Bytes) : P2pData :=
  match ssid with
  | none => p2p
  | some ssid =>
    if ssid = wildcardSsid then p2p
    else
      let p2p := p2p.modify dev fun d => { d with operSsid := ssid }
      p2p.fault (32 < ssid.length) (.overrun .operSsid ssid.length)

/-- What `p2p_add_device` writes into the entry, in front of the clients. -/
def fillDevice (env : Env) (p2p : P2pData) (dev : ℕ) (addr devAddr : MacAddr) (freq level : ℤ)
    (msg : P2pMessage) : P2pData :=
  let p2p := p2p.modify dev fun d =>
    { d with
      lastSeen := env.clock 0
      flags := { d.flags with probeReqOnly := false, groupClientOnly := false }
      interfaceAddr := if addr ≠ devAddr then addr else d.interfaceAddr }
  let p2p := copySsid p2p dev msg.ssid
  let freq := dsFreq freq msg.dsParams
  let p2p := p2p.modify dev fun d =>
    { d with
      listenFreq := freq
      operFreq := if msg.groupInfo.isSome then freq else d.operFreq
      level := level }
  let p2p := copyWpsInfo p2p dev false msg
  p2p.modify dev fun d => { d with info := { d.info with wpsVendorExt := msg.wpsVendorExt } }

/-- What `p2p_add_device` does with the entry behind the clients. -/
def reportDevice (p2p : P2pData) (dev : ℕ) (addr : MacAddr) : P2pData :=
  let p2p :=
    if pendingSdReq p2p dev then p2p.setFlags dev fun f => { f with sdSchedule := true } else p2p
  let flags := (p2p.mem dev).flags
  if flags.reported then p2p
  else if flags.userRejected then p2p
  else
    (p2p.emit (.devFound addr !flags.reportedOnce)).setFlags dev fun f =>
      { f with reported := true, reportedOnce := true }

/-- Source: `p2p_add_device`, where `msg` is what `p2p_parse_ies` makes of the elements; `false` is
the result -1. -/
def addDevice (env : Env) (p2p : P2pData) (addr : MacAddr) (freq level : ℤ)
    (msg : Option P2pMessage) : P2pData × Bool :=
  match msg with
  | none => (p2p, false)
  | some msg =>
    match msg.deviceAddr with
    | none => (p2p, false)
    | some devAddr =>
      if p2p.peerFilter ≠ 0 ∧ devAddr ≠ p2p.peerFilter then (p2p, true)
      else
        match createDevice p2p devAddr (env.block 0) with
        | (p2p, none) => (p2p, false)
        | (p2p, some dev) =>
          let p2p := fillDevice env { p2p with busy := some dev } dev addr devAddr freq level msg
          let p2p :=
            addGroupClients env p2p devAddr addr (dsFreq freq msg.dsParams) msg.groupInfo
          ({ reportDevice p2p dev addr with busy := none }, true)

/-- The part of `p2p_add_dev_info` that reports the peer. -/
def reportDevInfo (p2p : P2pData) (addr : MacAddr) (dev : ℕ) : P2pData :=
  let p2p := p2p.setFlags dev fun f => { f with probeReqOnly := false, groupClientOnly := false }
  let flags := (p2p.mem dev).flags
  if flags.userRejected then p2p
  else
    (p2p.emit (.devFound addr !flags.reportedOnce)).setFlags dev fun f =>
      { f with reported := true, reportedOnce := true }

/-- Source: `p2p_add_dev_info`. -/
def addDevInfo (env : Env) (p2p : P2pData) (addr : MacAddr) (dev : ℕ) (msg : P2pMessage) :
    P2pData :=
  let p2p := p2p.modify dev fun d => { d with lastSeen := env.clock 0 }
  let p2p := copyWpsInfo p2p dev false msg
  let p2p :=
    match msg.listenChannel.bind ChannelAttr.freq with
    | none => p2p
    | some freq => p2p.modify dev fun d => { d with listenFreq := freq }
  reportDevInfo p2p addr dev

/-- Source: `p2p_add_dev_from_go_neg_req`. -/
def addDevFromGoNegReq (env : Env) (p2p : P2pData) (addr : MacAddr) (msg : P2pMessage) :
    P2pData × Option ℕ :=
  match p2p.getDevice addr with
  | some dev => (p2p.modify dev fun d => { d with lastSeen := env.clock 0 }, some dev)
  | none =>
    match createDevice p2p addr (env.block 0) with
    | (p2p, none) => (p2p, none)
    | (p2p, some dev) => (addDevInfo env p2p addr dev msg, some dev)

def takeListenChannel (p2p : P2pData) (dev : ℕ) (attr : Option ChannelAttr) : P2pData :=
  match attr with
  | none => p2p
  | some attr =>
    p2p.modify dev fun d =>
      { d with country := attr.country, listenFreq := (attr.freq.map Int.ofNat).getD (-1) }

/-- Source: `p2p_add_dev_from_probe_req`. -/
def addDevFromProbeReq (env : Env) (p2p : P2pData) (addr : MacAddr) (msg : Option P2pMessage) :
    P2pData :=
  match msg with
  | none => p2p
  | some msg =>
    if !msg.p2pAttributes then p2p
    else if msg.ssid ≠ some wildcardSsid then p2p
    else
      match p2p.getDevice addr with
      | some dev =>
        match msg.listenChannel with
        | some attr =>
          if (p2p.mem dev).country.fst = 0 then
            p2p.modify dev fun d => { d with country := attr.country }
          else p2p
        | none => p2p
      | none =>
        match createDevice p2p addr (env.block 0) with
        | (p2p, none) => p2p
        | (p2p, some dev) =>
          let p2p := p2p.modify dev fun d =>
            { d with lastSeen := env.clock 0, flags := { d.flags with probeReqOnly := true } }
          copyWpsInfo (takeListenChannel p2p dev msg.listenChannel) dev true msg

end Hostapd.P2p
