import Hostapd.P2p.Group
import Mathlib.Data.Finset.Basic

/-!
# The member table of a group

What the member table and the IEs of a group say after any calls of the AP.

* **`Told`**: the callbacks have been told of the present state. `run_told`: they have after any
  calls.
* **`MemberTable`**: the table holds one entry for each associated station, and the IEs and the
  idle notices agree with it. **`memberTable_iff`**: this is so throughout a run exactly when no
  station associates that has not been disassociated in between.
-/

namespace Hostapd.P2p

open Hostapd.Lib

/-! ## Clients in Group Info -/

/-- The client that a Device Info attribute describes. -/
def clientOf (addr : MacAddr) (capab : UInt8) (info : Bytes) : Option ClientInfo :=
  (parseClientTail (info.drop 16)).map fun tail =>
    { deviceAddr := macOfBytes (info.take 6)
      interfaceAddr := addr
      devCapab := capab
      configMethods := getBe16 (info.drop 6)
      priDevType := (info.drop 8).take 8
      numSecDevTypes := tail.1
      secDevTypes := tail.2.1
      devName := tail.2.2 }

/-- The client that a member describes in its P2P IE. -/
def GroupMember.client (m : GroupMember) : Option ClientInfo :=
  match m.p2pIe.bind fun ie => parseIe ie [] with
  | none => none
  | some msg =>
    match msg.get .capability, msg.get .deviceInfo with
    | some capability, some info => clientOf m.addr (capability.getD 0 0) info
    | _, _ => none

/-- The members whose descriptors there is room for. -/
def fitting : ℕ → List GroupMember → List GroupMember
  | _, [] => []
  | room, m :: ms =>
    match m.clientInfo with
    | none => fitting room ms
    | some info =>
      if room < info.length + 1 then fitting room ms else m :: fitting (room - info.length) ms

/-- The descriptor of a member comes from its P2P IE. -/
def GroupMember.Built (m : GroupMember) : Prop :=
  m.clientInfo = (m.p2pIe.bind (buildClientInfo m.addr)).map Prod.fst

theorem groupMember_built (addr : MacAddr) (ies : Bytes) : (groupMember addr ies).Built := rfl

theorem clientInfoDesc_drop (addr : MacAddr) (capab : UInt8) {info : Bytes}
    (hlen : 17 ≤ info.length) (n : ℕ) :
    (clientInfoDesc addr capab info).drop (13 + n) = info.drop (6 + n) := by
  have hpre : (info.take 6 ++ macOctets addr ++ [capab]).length = 13 := by
    simp only [List.length_append, List.length_take, length_macOctets, List.length_singleton]
    omega
  have hshape : clientInfoDesc addr capab info =
      (info.take 6 ++ macOctets addr ++ [capab]) ++ info.drop 6 := by
    simp [clientInfoDesc]
  rw [hshape, ← List.drop_drop, ← hpre, List.drop_left, List.drop_drop]

theorem length_clientInfoDesc {addr : MacAddr} {capab : UInt8} {info : Bytes}
    (hlen : 17 ≤ info.length) : (clientInfoDesc addr capab info).length = info.length + 7 := by
  simp only [clientInfoDesc, List.length_append, List.length_take, length_macOctets,
    List.length_cons, List.length_drop]
  omega

theorem parseClient_clientInfoDesc {addr : MacAddr} {capab : UInt8} {info : Bytes}
    (hlen : 17 ≤ info.length) :
    parseClient (clientInfoDesc addr capab info) = clientOf addr capab info := by
  have h6 : (info.take 6).length = 6 := by
    rw [List.length_take]
    omega
  have hdev : (clientInfoDesc addr capab info).take 6 = info.take 6 := by
    rw [clientInfoDesc, List.append_assoc, List.take_left' h6]
  have hiface : ((clientInfoDesc addr capab info).drop 6).take 6 = macOctets addr := by
    rw [clientInfoDesc, List.append_assoc, List.drop_left' h6,
      List.take_left' (length_macOctets addr)]
  have hcapab : (clientInfoDesc addr capab info).getD 12 0 = capab := by
    have hpre : (info.take 6 ++ macOctets addr).length = 12 := by
      rw [List.length_append, h6, length_macOctets]
    rw [clientInfoDesc, List.getD_eq_getElem?_getD, List.getElem?_append_right hpre.le, hpre]
    rfl
  have hmethods := clientInfoDesc_drop addr capab hlen 0
  have htype := clientInfoDesc_drop addr capab hlen 2
  have htail := clientInfoDesc_drop addr capab hlen 10
  unfold parseClient clientOf
  rw [if_neg (by rw [length_clientInfoDesc hlen]; omega), htail, hdev, hiface, hcapab, hmethods,
    htype, macOfBytes_macOctets]

theorem GroupMember.Built.clientInfo_eq {m : GroupMember} (hm : m.Built) {ci : Bytes}
    (h : m.clientInfo = some ci) :
    ∃ desc cli, ci = UInt8.ofNat desc.length :: desc ∧ 24 ≤ desc.length ∧
      parseClient desc = some cli ∧ m.client = some cli := by
  rw [hm] at h
  obtain ⟨b, hb, rfl⟩ := Option.map_eq_some_iff.mp h
  obtain ⟨ie, hie, hbuild⟩ := Option.bind_eq_some_iff.mp hb
  unfold buildClientInfo at hbuild
  split at hbuild
  · cases hbuild
  · rename_i msg hmsg
    split at hbuild
    · rename_i capability info hcapab hinfo
      cases hbuild
      have hok := deviceInfoOk_of_parseIe hmsg hinfo
      unfold deviceInfoOk at hok
      split_ifs at hok with hshort
      have hlen : 17 ≤ info.length := Nat.le_of_not_lt hshort
      obtain ⟨tail, htail⟩ := parseClientTail_of_ok hok
      obtain ⟨cli, hcli⟩ : ∃ cli, clientOf m.addr (capability.getD 0 0) info = some cli := by
        rw [clientOf, htail]
        exact ⟨_, rfl⟩
      refine ⟨_, cli, rfl, ?_, (parseClient_clientInfoDesc hlen).trans hcli, ?_⟩
      · rw [length_clientInfoDesc hlen]
        omega
      · unfold GroupMember.client
        rw [hie]
        simp only [Option.bind_some, hmsg, hcapab, hinfo, hcli]
    · cases hbuild

theorem groupInfoParse_desc {n : ℕ} {desc rest : Bytes} {cli : ClientInfo}
    (hlen : desc.length < 256) (hcli : parseClient desc = some cli) :
    groupInfoParse (n + 2) (UInt8.ofNat desc.length :: (desc ++ rest)) =
      ((groupInfoParse (n + 1) rest).1.map (cli :: ·), (groupInfoParse (n + 1) rest).2) := by
  have hnat : (UInt8.ofNat desc.length).toNat = desc.length := by
    rw [UInt8.toNat_ofNat', Nat.mod_eq_of_lt hlen]
  rw [groupInfoParse]
  simp only [hnat, List.take_left, List.drop_left, hcli]
  rw [if_neg (by simp), if_neg (Nat.succ_ne_zero n)]

/-- **Group Info is read back**: the parser finds the clients of the members that fit. -/
theorem groupInfoParse_clientInfos {ms : List GroupMember} (hms : ∀ m ∈ ms, m.Built) {room n : ℕ}
    (hroom : room ≤ 257) (hn : room < 25 * n) :
    ∃ clients, groupInfoParse n (clientInfos room ms) = (some clients, false) ∧
      clients.map some = (fitting room ms).map GroupMember.client := by
  induction ms generalizing room n with
  | nil =>
    refine ⟨[], ?_, rfl⟩
    cases n <;> rfl
  | cons m ms ih =>
    have hms' : ∀ m ∈ ms, m.Built := fun k hk => hms k (List.mem_cons_of_mem m hk)
    unfold clientInfos fitting
    cases hinfo : m.clientInfo with
    | none => exact ih hms' hroom hn
    | some info =>
      simp only
      by_cases hfit : room < info.length + 1
      · rw [if_pos hfit, if_pos hfit]
        exact ih hms' hroom hn
      · rw [if_neg hfit, if_neg hfit]
        obtain ⟨desc, cli, rfl, hmin, hcli, hclient⟩ :=
          (hms m List.mem_cons_self).clientInfo_eq hinfo
        rw [List.length_cons] at hfit ⊢
        -- a descriptor takes at least 25 octets, so the entries of the result do not run out
        obtain ⟨n, rfl⟩ : ∃ k, n = k + 2 := ⟨n - 2, by omega⟩
        have hroom' : room - (desc.length + 1) ≤ 257 := by omega
        have hn' : room - (desc.length + 1) < 25 * (n + 1) := by omega
        obtain ⟨clients, hparse, hclients⟩ := ih hms' hroom' hn'
        refine ⟨cli :: clients, ?_, ?_⟩
        · rw [List.cons_append, groupInfoParse_desc (by omega) hcli, hparse]
          rfl
        · rw [List.map_cons, List.map_cons, hclient, hclients]

/-! ## The IEs fit and are parsed -/

section Ies

variable (cfg : GroupConfig) {group : P2pGroup}

theorem length_deviceInfoData :
    (deviceInfoData cfg).length = 21 + 8 * cfg.secDevType.length + cfg.devName.length := by
  have hflat : cfg.secDevType.flatten.length = 8 * cfg.secDevType.length := by
    rw [List.length_flatten, List.map_congr_left cfg.secDevType_lengths]
    simp [Nat.mul_comm]
  simp only [deviceInfoData, List.length_append, List.length_cons, length_macOctets,
    length_putBe16, cfg.priDevType_length, hflat, attrDevName, List.length_nil]
  omega

theorem deviceInfoOk_deviceInfoData : deviceInfoOk (deviceInfoData cfg) = true := by
  have hsec := cfg.secDevType_length
  unfold secDeviceTypes at hsec
  have hpre : (macOctets cfg.devAddr ++ putBe16 0x0188 ++ cfg.priDevType).length = 16 := by
    simp only [List.length_append, length_macOctets, length_putBe16, cfg.priDevType_length]
  have hflat : cfg.secDevType.flatten.length = 8 * cfg.secDevType.length := by
    rw [List.length_flatten, List.map_congr_left cfg.secDevType_lengths]
    simp [Nat.mul_comm]
  have hparts := deviceInfoOk_parts hpre hflat (by omega) cfg.devName_length
  rw [deviceInfoData]
  simpa only [List.append_assoc, List.cons_append] using hparts

variable {cfg}

theorem length_clientInfos (ms : List GroupMember) (room : ℕ) :
    (clientInfos room ms).length ≤ room := by
  induction ms generalizing room with
  | nil => exact Nat.zero_le room
  | cons m ms ih =>
    unfold clientInfos
    split
    · exact ih room
    · rename_i info _
      split_ifs with hfit
      · exact ih room
      · have hrest := ih (room - info.length)
        rw [List.length_append]
        omega

theorem parseIe_groupAddCommonIes (rest : Bytes) :
    parseIe (groupAddCommonIes cfg group ++ rest) [] =
      parseIe rest [(.capability, [0x01 ||| 0x20, groupOwnCapab cfg group])] := by
  rw [groupAddCommonIes, parseIe_putAttr (by simp), parseAttribute_of_minLen] <;> simp [P2pAttr.minLen]

theorem parseIe_buildBeaconIe (hnoa : group.noa = none) :
    parseIe (ieAttrs (buildBeaconIe cfg group)) [] =
      some [(.deviceId, macOctets cfg.devAddr),
        (.capability, [0x01 ||| 0x20, groupOwnCapab cfg group])] := by
  have hid : (macOctets cfg.devAddr).length < 2 ^ 16 := by simp
  rw [buildBeaconIe, ieAttrs_p2pIe, hnoa, groupAddNoa, List.append_assoc,
    parseIe_groupAddCommonIes, parseIe_putAttr hid, parseAttribute_of_minLen]
  · rfl
  all_goals simp [P2pAttr.minLen]

theorem parseIe_buildProbeRespIe (hnoa : group.noa = none) :
    parseIe (ieAttrs (buildProbeRespIe cfg group)) [] =
      some [(.groupInfo, clientInfos (groupInfoRoom cfg group) group.members),
        (.deviceInfo, deviceInfoData cfg),
        (.capability, [0x01 ||| 0x20, groupOwnCapab cfg group])] := by
  have hsec := cfg.secDevType_length
  have hname := cfg.devName_length
  have hinfo := length_deviceInfoData cfg
  have hclients := length_clientInfos group.members (groupInfoRoom cfg group)
  have hroom : groupInfoRoom cfg group ≤ 257 := Nat.sub_le _ _
  unfold secDeviceTypes at hsec
  rw [buildProbeRespIe, ieAttrs_p2pIe, probeRespFront, hnoa, groupAddNoa, List.append_nil,
    List.append_assoc, parseIe_groupAddCommonIes, bufAddDeviceInfoAttr, parseIe_putAttr (by omega),
    parseAttribute_of_minLen (by simp only [P2pAttr.minLen]; omega) (by simp)
      (fun _ => deviceInfoOk_deviceInfoData cfg) (by simp) (by simp), Option.bind_some,
    ← List.append_nil (putAttr .groupInfo _), parseIe_putAttr (by omega),
    parseAttribute_of_minLen (Nat.zero_le _) (by simp) (by simp) (by simp) (by simp)]
  rfl

end Ies

/-! ## What the callbacks have been told -/

def lastBeaconIe (out : List GroupNotice) : Option Bytes :=
  (out.filterMap fun
    | .ieUpdate beaconIes _ => beaconIes
    | .idleUpdate _ => none).getLast?

def lastProbeRespIe (out : List GroupNotice) : Option Bytes :=
  (out.filterMap fun
    | .ieUpdate _ proberespIes => some proberespIes
    | .idleUpdate _ => none).getLast?

def lastIdle (out : List GroupNotice) : Option Bool :=
  (out.filterMap fun
    | .ieUpdate _ _ => none
    | .idleUpdate idle => some idle).getLast?

def groupLimit (ie : Bytes) : Option Bool :=
  (parseIe (ieAttrs ie) []).bind fun msg =>
    (msg.get .capability).map fun capability => capability.getD 1 0 &&& groupCapabGroupLimit ≠ 0

def groupInfo (ie : Bytes) : Option Bytes :=
  (parseIe (ieAttrs ie) []).bind fun msg => msg.get .groupInfo

theorem groupOwnCapab_groupLimit (cfg : GroupConfig) (group : P2pGroup) :
    (groupOwnCapab cfg group &&& groupCapabGroupLimit ≠ 0) ↔ cfg.maxClients ≤ group.numMembers := by
  unfold groupOwnCapab
  by_cases hmax : cfg.maxClients ≤ group.numMembers
  · rw [if_pos hmax]
    refine iff_of_true ?_ hmax
    cases cfg.persistentGroup <;> cases cfg.intraBss <;> cases cfg.crossConnect <;>
      cases group.groupFormation <;> decide
  · rw [if_neg hmax]
    refine iff_of_false ?_ hmax
    cases cfg.persistentGroup <;> cases cfg.intraBss <;> cases cfg.crossConnect <;>
      cases group.groupFormation <;> decide

section Told

variable {cfg : GroupConfig} {group : P2pGroup}

theorem groupLimit_buildBeaconIe (hnoa : group.noa = none) :
    groupLimit (buildBeaconIe cfg group) = some (decide (cfg.maxClients ≤ group.numMembers)) := by
  rw [groupLimit, parseIe_buildBeaconIe hnoa]
  exact congrArg some (decide_eq_decide.mpr (groupOwnCapab_groupLimit cfg group))

theorem groupInfo_buildProbeRespIe (hnoa : group.noa = none) :
    groupInfo (buildProbeRespIe cfg group) =
      some (clientInfos (groupInfoRoom cfg group) group.members) := by
  rw [groupInfo, parseIe_buildProbeRespIe hnoa]
  rfl

variable (cfg group) in
/-- The last Beacon IE tells whether the group is full. -/
def BeaconTold : Prop :=
  ∃ ie, lastBeaconIe group.out = some ie ∧
    groupLimit ie = some (decide (cfg.maxClients ≤ group.numMembers))

variable (cfg group) in
/-- The members are counted and described by what they sent, and the callbacks have been told of
them. -/
structure Told : Prop where
  noa : group.noa = none
  num : group.numMembers = group.members.length
  built : ∀ m ∈ group.members, m.Built
  beacon : BeaconTold cfg group
  probeResp : lastProbeRespIe group.out = some (buildProbeRespIe cfg group)
  idle : lastIdle group.out = some group.members.isEmpty

@[simp] theorem lastIdle_idleUpdate (group : P2pGroup) (idle : Bool) :
    lastIdle (group.idleUpdate idle).out = some idle := by
  simp [lastIdle, P2pGroup.idleUpdate]

@[simp] theorem lastBeaconIe_idleUpdate (group : P2pGroup) (idle : Bool) :
    lastBeaconIe (group.idleUpdate idle).out = lastBeaconIe group.out := by
  simp [lastBeaconIe, P2pGroup.idleUpdate]

@[simp] theorem lastProbeRespIe_idleUpdate (group : P2pGroup) (idle : Bool) :
    lastProbeRespIe (group.idleUpdate idle).out = lastProbeRespIe group.out := by
  simp [lastProbeRespIe, P2pGroup.idleUpdate]

theorem groupUpdateIes_eq (cfg : GroupConfig) (group : P2pGroup) : ∃ out,
    groupUpdateIes cfg group = { group with out := out, beaconUpdate := false } ∧
      lastProbeRespIe out = some (buildProbeRespIe cfg group) ∧
      lastIdle out = lastIdle group.out ∧
      lastBeaconIe out =
        if group.beaconUpdate then some (buildBeaconIe cfg group) else lastBeaconIe group.out := by
  obtain ⟨members, num, formation, flag, noa, out⟩ := group
  cases flag
  · exact ⟨_, rfl, by simp [lastProbeRespIe], by simp [lastIdle],
      by simp [lastBeaconIe]⟩
  · exact ⟨_, rfl, by simp [lastProbeRespIe], by simp [lastIdle],
      by simp [lastBeaconIe]⟩

theorem beaconTold_groupUpdateIes (hnoa : group.noa = none)
    (hbeacon : group.beaconUpdate = true ∨ BeaconTold cfg group) :
    BeaconTold cfg (groupUpdateIes cfg group) := by
  obtain ⟨out, heq, -, -, hie⟩ := groupUpdateIes_eq cfg group
  rw [heq]
  by_cases hflag : group.beaconUpdate = true
  · rw [if_pos hflag] at hie
    exact ⟨_, hie, groupLimit_buildBeaconIe hnoa⟩
  · rw [if_neg hflag] at hie
    obtain ⟨ie, hlast, hlimit⟩ := hbeacon.resolve_left hflag
    exact ⟨ie, hie.trans hlast, hlimit⟩

theorem told_groupUpdateIes (group : P2pGroup) (hnoa : group.noa = none)
    (hnum : group.numMembers = group.members.length) (hbuilt : ∀ m ∈ group.members, m.Built)
    (hbeacon : group.beaconUpdate = true ∨ BeaconTold cfg group)
    (hidle : lastIdle group.out = some group.members.isEmpty) :
    Told cfg (groupUpdateIes cfg group) := by
  have hbeacon' := beaconTold_groupUpdateIes hnoa hbeacon
  obtain ⟨out, heq, hprobe, hlast, -⟩ := groupUpdateIes_eq cfg group
  rw [heq] at hbeacon' ⊢
  exact ⟨hnoa, hnum, hbuilt, hbeacon', hprobe, hlast.trans hidle⟩

theorem told_idleUpdate (group : P2pGroup) (hnoa : group.noa = none)
    (hnum : group.numMembers = group.members.length) (hbuilt : ∀ m ∈ group.members, m.Built)
    (hbeacon : group.beaconUpdate = true ∨ BeaconTold cfg group) :
    Told cfg ((groupUpdateIes cfg group).idleUpdate group.members.isEmpty) := by
  have hbeacon' := beaconTold_groupUpdateIes hnoa hbeacon
  obtain ⟨out, heq, hprobe, -, -⟩ := groupUpdateIes_eq cfg group
  rw [heq] at hbeacon' ⊢
  obtain ⟨ie, hie, hlimit⟩ := hbeacon'
  exact ⟨hnoa, hnum, hbuilt, ⟨ie, (lastBeaconIe_idleUpdate _ _).trans hie, hlimit⟩,
    (lastProbeRespIe_idleUpdate _ _).trans hprobe, lastIdle_idleUpdate _ _⟩

variable (cfg) in
theorem told_init : Told cfg (.init cfg) :=
  told_idleUpdate ⟨[], 0, true, true, none, []⟩ rfl rfl (by simp) (.inl rfl)

theorem BeaconTold.of_iff {group' : P2pGroup} (h : BeaconTold cfg group)
    (hout : group'.out = group.out)
    (hmax : cfg.maxClients ≤ group'.numMembers ↔ cfg.maxClients ≤ group.numMembers) :
    BeaconTold cfg group' := by
  obtain ⟨ie, hie, hlimit⟩ := h
  exact ⟨ie, by rw [hout, hie], hlimit.trans (congrArg some (decide_eq_decide.mpr hmax.symm))⟩

/-! ## Calls -/

variable (cfg group) in
abbrev joined (addr : MacAddr) (ies : Bytes) : P2pGroup :=
  { group with
    members := groupMember addr ies :: group.members
    numMembers := group.numMembers + 1
    beaconUpdate := if group.numMembers + 1 = cfg.maxClients then true else group.beaconUpdate }

variable (cfg group) in
abbrev parted (addr : MacAddr) : P2pGroup :=
  { group with
    members := group.members.eraseP fun m => m.addr = addr
    numMembers := group.numMembers - 1
    beaconUpdate :=
      if group.numMembers - 1 + 1 = cfg.maxClients then true else group.beaconUpdate }

/-- **One call keeps the callbacks told.** -/
theorem Told.step (h : Told cfg group) (call : GroupCall) : Told cfg (groupStep cfg group call) := by
  cases call with
  | assoc addr ies =>
    have hnum : group.numMembers + 1 = (groupMember addr ies :: group.members).length := by
      rw [List.length_cons, h.num]
    have hbuilt : ∀ m ∈ groupMember addr ies :: group.members, m.Built := by
      rintro m (_ | ⟨_, hm⟩)
      · exact groupMember_built addr ies
      · exact h.built m hm
    -- only the member that fills the group changes the Group Limit bit
    have hbeacon : (joined cfg group addr ies).beaconUpdate = true ∨
        BeaconTold cfg (joined cfg group addr ies) := by
      by_cases hfull : group.numMembers + 1 = cfg.maxClients
      · exact .inl (if_pos hfull)
      · refine .inr (h.beacon.of_iff rfl ?_)
        simp only
        omega
    simp only [groupStep, notifAssoc]
    by_cases hone : group.numMembers + 1 = 1
    · rw [if_pos hone]
      exact told_idleUpdate (joined cfg group addr ies) h.noa hnum hbuilt hbeacon
    · rw [if_neg hone]
      refine told_groupUpdateIes (joined cfg group addr ies) h.noa hnum hbuilt hbeacon
        (h.idle.trans ?_)
      -- the group was not idle before
      cases hmembers : group.members with
      | nil => exact absurd (by rw [h.num, hmembers]; rfl) hone
      | cons m ms => rfl
  | disassoc addr =>
    by_cases hany : group.members.any fun m => m.addr = addr
    · simp only [groupStep, notifDisassoc, if_pos hany]
      obtain ⟨m, hm, hmaddr⟩ := List.any_eq_true.mp hany
      have hlen : (group.members.eraseP fun m => m.addr = addr).length =
          group.members.length - 1 := List.length_eraseP_of_mem hm hmaddr
      have hpos : 0 < group.members.length := List.length_pos_of_mem hm
      have hnum : group.numMembers - 1 =
          (group.members.eraseP fun m => m.addr = addr).length := by
        rw [hlen, h.num]
      have hbuilt : ∀ m ∈ group.members.eraseP fun m => m.addr = addr, m.Built :=
        fun k hk => h.built k (List.mem_of_mem_eraseP hk)
      have hgroup := h.num
      -- only the member that leaves a full group changes the Group Limit bit
      have hbeacon : (parted cfg group addr).beaconUpdate = true ∨
          BeaconTold cfg (parted cfg group addr) := by
        by_cases hfull : group.numMembers - 1 + 1 = cfg.maxClients
        · exact .inl (if_pos hfull)
        · refine .inr (h.beacon.of_iff rfl ?_)
          simp only
          omega
      by_cases hzero : group.numMembers - 1 = 0
      · have hempty : (group.members.eraseP fun m => m.addr = addr).isEmpty = true := by
          rw [List.isEmpty_iff_length_eq_zero, ← hnum, hzero]
        rw [if_pos hzero]
        have htold := told_idleUpdate (parted cfg group addr) h.noa hnum hbuilt hbeacon
        simp only at htold
        rwa [hempty] at htold
      · have hempty : (group.members.eraseP fun m => m.addr = addr).isEmpty = false := by
          rw [List.isEmpty_eq_false_iff, ← List.length_pos_iff, ← hnum]
          omega
        have hempty' : group.members.isEmpty = false := by
          rw [List.isEmpty_eq_false_iff, ← List.length_pos_iff]
          exact hpos
        rw [if_neg hzero]
        refine told_groupUpdateIes (parted cfg group addr) h.noa hnum hbuilt hbeacon
          (h.idle.trans ?_)
        simp only
        rw [hempty, hempty']
    · simp only [groupStep, notifDisassoc, if_neg hany]
      exact h
  | formationDone =>
    exact told_groupUpdateIes { group with groupFormation := false, beaconUpdate := true }
      h.noa h.num h.built (.inl rfl) h.idle

variable (cfg) in
/-- **The callbacks have been told after any calls.** -/
theorem run_told (calls : List GroupCall) : Told cfg (run (groupStep cfg) (.init cfg) calls) :=
  run_inv (fun _ call h => h.step call) (told_init cfg) calls

end Told

/-! ## The member table -/

/-- The stations that are associated behind a call. -/
def associatedStep (s : Finset MacAddr) : GroupCall → Finset MacAddr
  | .assoc addr _ => insert addr s
  | .disassoc addr => s.erase addr
  | .formationDone => s

/-- The stations that are associated after the calls: those of which a `p2p_group_notif_assoc` was
not followed by a `p2p_group_notif_disassoc`. -/
def associated (calls : List GroupCall) : Finset MacAddr := run associatedStep ∅ calls

def OneEach (s : Finset MacAddr) (group : P2pGroup) : Prop :=
  ∀ addr, (group.members.map GroupMember.addr).count addr = if addr ∈ s then 1 else 0

/-- The member table holds one entry for each associated station; the counter, the Group Limit bit,
the idle notices and the Group Info agree with it. -/
structure MemberTable (cfg : GroupConfig) (s : Finset MacAddr) (group : P2pGroup) : Prop where
  entries : OneEach s group
  num : group.numMembers = group.members.length
  limit : ∃ ie, lastBeaconIe group.out = some ie ∧
    groupLimit ie = some (decide (cfg.maxClients ≤ group.numMembers))
  idle : lastIdle group.out = some group.members.isEmpty
  clients : ∃ ie gi clients, lastProbeRespIe group.out = some ie ∧ groupInfo ie = some gi ∧
    groupInfoParse maxGroupEntries gi = (some clients, false) ∧
    clients.map some = (fitting (groupInfoRoom cfg group) group.members).map GroupMember.client

theorem Told.memberTable {cfg : GroupConfig} {group : P2pGroup} (h : Told cfg group)
    {s : Finset MacAddr} (hs : OneEach s group) : MemberTable cfg s group := by
  have hroom : groupInfoRoom cfg group ≤ 257 := Nat.sub_le _ _
  have hentries : groupInfoRoom cfg group < 25 * maxGroupEntries := by
    unfold maxGroupEntries
    omega
  obtain ⟨clients, hparse, hclients⟩ := groupInfoParse_clientInfos h.built hroom hentries
  exact ⟨hs, h.num, h.beacon, h.idle, _, _, clients, h.probeResp,
    groupInfo_buildProbeRespIe h.noa, hparse, hclients⟩

theorem members_groupStep (cfg : GroupConfig) (group : P2pGroup) (call : GroupCall) :
    (groupStep cfg group call).members =
      match call with
      | .assoc addr ies => groupMember addr ies :: group.members
      | .disassoc addr => group.members.eraseP fun m => m.addr = addr
      | .formationDone => group.members := by
  have hupdate : ∀ group, (groupUpdateIes cfg group).members = group.members := by
    intro group
    obtain ⟨out, heq, -⟩ := groupUpdateIes_eq cfg group
    rw [heq]
  cases call with
  | assoc addr ies =>
    simp only [groupStep, notifAssoc]
    split
    · exact hupdate _
    · exact hupdate _
  | disassoc addr =>
    simp only [groupStep, notifDisassoc]
    by_cases hany : group.members.any fun m => m.addr = addr
    · rw [if_pos hany]
      split
      · exact hupdate _
      · exact hupdate _
    · rw [if_neg hany]
      refine (List.eraseP_of_forall_not ?_).symm
      intro m hm hmaddr
      exact hany (List.any_eq_true.mpr ⟨m, hm, hmaddr⟩)
  | formationDone => exact hupdate _

/-- A station associates that has been disassociated since it did so before. -/
def FirstAssoc (s : Finset MacAddr) : GroupCall → Prop
  | .assoc addr _ => addr ∉ s
  | .disassoc _ | .formationDone => True

theorem map_addr_eraseP (members : List GroupMember) (addr : MacAddr) :
    (members.eraseP fun m => m.addr = addr).map GroupMember.addr =
      (members.map GroupMember.addr).erase addr := by
  rw [List.erase_eq_eraseP', List.eraseP_map]
  rfl

/-- **One call keeps one entry for each station**, if the station does not associate again. -/
theorem OneEach.step {cfg : GroupConfig} {s : Finset MacAddr} {group : P2pGroup}
    (h : OneEach s group) {call : GroupCall} (hcall : FirstAssoc s call) :
    OneEach (associatedStep s call) (groupStep cfg group call) := by
  intro a
  have ha := h a
  rw [members_groupStep]
  cases call with
  | assoc addr ies =>
    have haddr : (group.members.map GroupMember.addr).count addr = 0 := by
      rw [h addr, if_neg hcall]
    simp only [List.map_cons, associatedStep, Finset.mem_insert]
    by_cases heq : a = addr
    · subst heq
      rw [if_pos (.inl rfl)]
      exact (List.count_cons_self).trans (by rw [haddr])
    · rw [show (groupMember addr ies).addr = addr from rfl, List.count_cons_of_ne (Ne.symm heq), ha]
      simp [heq]
  | disassoc addr =>
    simp only [associatedStep, Finset.mem_erase]
    rw [map_addr_eraseP]
    by_cases heq : a = addr
    · subst heq
      rw [List.count_erase_self, ha]
      split <;> simp
    · rw [List.count_erase_of_ne heq, ha]
      simp [heq]
  | formationDone => exact ha

theorem run_oneEach (cfg : GroupConfig) {calls : List GroupCall}
    (h : Along associatedStep FirstAssoc ∅ calls) :
    OneEach (associated calls) (run (groupStep cfg) (.init cfg) calls) := by
  induction calls using List.reverseRecOn with
  | nil =>
    intro addr
    rfl
  | append_singleton calls call ih =>
    obtain ⟨hcalls, hcall, -⟩ := Along.append.mp h
    rw [associated, run_snoc, run_snoc]
    exact (ih hcalls).step hcall

/-- **The member table**: it agrees with the associated stations throughout a run exactly when no
station associates again without having been disassociated. -/
theorem memberTable_iff (cfg : GroupConfig) (calls : List GroupCall) :
    (∀ before, before <+: calls →
        MemberTable cfg (associated before) (run (groupStep cfg) (.init cfg) before)) ↔
      Along associatedStep FirstAssoc ∅ calls := by
  constructor
  · intro h
    induction calls using List.reverseRecOn with
    | nil => trivial
    | append_singleton calls call ih =>
      have hcalls := ih fun before hbefore => h before (hbefore.trans (List.prefix_append _ _))
      refine Along.append.mpr ⟨hcalls, ?_, trivial⟩
      have hnow := (h calls (List.prefix_append _ _)).entries
      have hnext := (h (calls ++ [call]) (List.prefix_refl _)).entries
      cases call with
      | disassoc addr => trivial
      | formationDone => trivial
      | assoc addr ies =>
        -- a second entry for a station that has one
        intro hmem
        have hone : ((run (groupStep cfg) (.init cfg) calls).members.map GroupMember.addr).count
            addr = 1 := (hnow addr).trans (if_pos hmem)
        have htwo := hnext addr
        rw [associated, run_snoc, run_snoc, members_groupStep, List.map_cons,
          show (groupMember addr ies).addr = addr from rfl, List.count_cons_self, hone] at htwo
        split at htwo
        · exact absurd htwo (by decide)
        · exact absurd htwo (by decide)
  · rintro h before ⟨rest, rfl⟩
    exact (run_told cfg before).memberTable (run_oneEach cfg (Along.append.mp h).1)

def sampleGroupConfig : GroupConfig where
  persistentGroup := false
  maxClients := 4
  intraBss := false
  crossConnect := false
  devAddr := 1
  priDevType := [0, 10, 0, 0x50, 0xf2, 4, 0, 5]
  secDevType := []
  devName := [0x61]
  priDevType_length := rfl
  secDevType_length := by decide
  secDevType_lengths := by decide
  devName_length := by decide

theorem reassoc_two_entries :
    ¬ ∀ calls, MemberTable sampleGroupConfig (associated calls)
      (run (groupStep sampleGroupConfig) (.init sampleGroupConfig) calls) := by
  intro h
  have htwo := (h [.assoc 2 [], .assoc 2 []]).entries 2
  rw [run_cons, run_cons, run_nil, members_groupStep, members_groupStep] at htwo
  revert htwo
  decide

end Hostapd.P2p
