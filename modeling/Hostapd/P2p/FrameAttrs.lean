import Hostapd.P2p.Frames

/-!
# The attributes of P2P frames are accepted

What the parser of P2P attributes makes of the attributes that the builders write.

* **`parseIe_attrs`**: the parser takes every list of attributes that it accepts, and `get_of_mem`:
  of distinct attributes it keeps the data of each.
* **`SentFrame.layout_good`**: every frame consists of distinct attributes that the parser accepts,
  and its buffer has room for elements that are short enough.
-/

namespace Hostapd.P2p.Wire

open Hostapd.Lib

/-! ## P2P attributes -/

def known (attr : UInt8 × Bytes) : Option (P2pAttr × Bytes) :=
  (P2pAttr.ofId attr.1).map fun a => (a, attr.2)

structure AttrOk (attr : UInt8 × Bytes) : Prop where
  length_lt : attr.2.length < 2 ^ 16
  taken : ∀ msg, parseAttribute attr.1 attr.2 msg = some ((known attr).toList ++ msg)

theorem parseIe_attrs {l : List (UInt8 × Bytes)} (h : ∀ attr ∈ l, AttrOk attr) (msg : ParsedIe) :
    parseIe (l.flatMap put) msg = some ((l.filterMap known).reverse ++ msg) := by
  induction l generalizing msg with
  | nil => rfl
  | cons attr l ih =>
    have hattr := h attr List.mem_cons_self
    rw [List.flatMap_cons, put, parseIe_put hattr.length_lt, hattr.taken, Option.bind_some,
      ih fun a ha => h a (List.mem_cons_of_mem attr ha)]
    cases hknown : known attr with
    | none => simp [hknown]
    | some a => simp [hknown]

variable {attr : P2pAttr}

theorem id_of_ofId {id : UInt8} (h : P2pAttr.ofId id = some attr) :
    attr.id = id := by
  have hid := List.find?_some h
  exact of_decide_eq_true hid

theorem get_of_mem {l : List (UInt8 × Bytes)} (hnodup : (l.map Prod.fst).Nodup)
    {r : UInt8 × Bytes} (hr : r ∈ l) (hattr : P2pAttr.ofId r.1 = some attr)
    (msg : ParsedIe) : ParsedIe.get ((l.filterMap known).reverse ++ msg) attr = some r.2 := by
  induction l generalizing msg with
  | nil => cases hr
  | cons s l ih =>
    rw [List.map_cons, List.nodup_cons] at hnodup
    have hsplit : ((s :: l).filterMap known).reverse ++ msg =
        (l.filterMap known).reverse ++ ((known s).toList ++ msg) := by
      cases hknown : known s with
      | none => simp [hknown]
      | some a => simp [hknown]
    rw [hsplit]
    rcases List.mem_cons.mp hr with rfl | hmem
    · have hknown : known r = some (attr, r.2) := by rw [known, hattr, Option.map_some]
      have hother : List.lookup attr (l.filterMap known).reverse = none := by
        rw [List.lookup_eq_none_iff]
        rintro ⟨a, data⟩ ha
        obtain ⟨t, ht, hta⟩ := List.mem_filterMap.mp (List.mem_reverse.mp ha)
        rw [known, Option.map_eq_some_iff] at hta
        obtain ⟨b, hb, heq⟩ := hta
        obtain rfl : b = a := congrArg Prod.fst heq
        have hne : t.1 ≠ r.1 := fun h => hnodup.1 (h ▸ List.mem_map_of_mem ht)
        refine bne_iff_ne.mpr ?_
        rintro rfl
        exact hne ((id_of_ofId hb).symm.trans (id_of_ofId hattr))
      rw [hknown, ParsedIe.get, List.lookup_append, hother]
      simp
    · exact ih hnodup.2 hmem _

theorem AttrOk.of_minLen {data : Bytes} (hlen : attr.minLen ≤ data.length)
    (hmax : data.length < 2 ^ 16) (hgroup : attr = .groupId → data.length ≤ 6 + 32)
    (hinfo : attr = .deviceInfo → deviceInfoOk data = true)
    (hne : data ≠ []) : AttrOk (ofAttr attr data) := by
  refine ⟨hmax, fun msg => ?_⟩
  have hknown : known (ofAttr attr data) = some (attr, data) := by
    rw [known, ofAttr, P2pAttr.ofId_id, Option.map_some]
  rw [hknown]
  show parseAttribute attr.id data msg = some ((attr, data) :: msg)
  unfold parseAttribute
  rw [P2pAttr.ofId_id]
  simp only
  rw [if_neg fun h => hne h.1, if_neg (by omega), if_neg ?_, if_neg ?_]
  · rintro ⟨hattr, hok⟩
    exact Bool.noConfusion ((hinfo hattr).symm.trans hok)
  · rintro ⟨hattr, hlt⟩
    have := hgroup hattr
    omega

theorem AttrOk.skipped {attr : UInt8 × Bytes} (h : P2pAttr.ofId attr.1 = none)
    (hmax : attr.2.length < 2 ^ 16) : AttrOk attr := by
  refine ⟨hmax, fun msg => ?_⟩
  unfold parseAttribute known
  rw [h]
  rfl

/-! ## The attributes of the layouts -/

section Data

variable (cfg : FrameConfig)

theorem length_secDevType :
    (cfg.secDevType.flatMap Subtype.val).length = 8 * cfg.secDevType.length := by
  have hflat := Wps.length_flatten_octets cfg.secDevType
  rw [← List.flatMap_def] at hflat
  exact hflat.trans (Nat.mul_comm _ _)

theorem length_deviceInfo (method : WpsMethod) : (deviceInfo cfg method).length =
    21 + 8 * cfg.secDevType.length + cfg.devName.1.length := by
  have hpri : cfg.priDevType.1.length = 8 := cfg.priDevType.2
  simp only [deviceInfo, List.length_append, List.length_cons, length_macOctets, length_putBe16,
    hpri, length_secDevType, attrDevName, List.length_nil]
  omega

theorem length_deviceInfo_le (method : WpsMethod) : (deviceInfo cfg method).length ≤ 93 := by
  have hsec : cfg.secDevType.length ≤ 5 := cfg.secDevType_le
  have hname := cfg.devName.2.1
  rw [length_deviceInfo]
  omega

theorem length_deviceInfo_front (method : WpsMethod) :
    (macOctets cfg.devAddr ++ putBe16 (deviceInfoMethods method).toNat ++
      cfg.priDevType.1).length = 16 := by
  have hpri : cfg.priDevType.1.length = 8 := cfg.priDevType.2
  simp only [List.length_append, length_macOctets, length_putBe16, hpri]

theorem deviceInfo_ok (method : WpsMethod) : deviceInfoOk (deviceInfo cfg method) = true := by
  have hsec : cfg.secDevType.length ≤ 5 := cfg.secDevType_le
  exact deviceInfoOk_parts (length_deviceInfo_front cfg method) (length_secDevType cfg) (by omega)
    cfg.devName.2.1

theorem deviceInfoName_deviceInfo (method : WpsMethod) :
    deviceInfoName (deviceInfo cfg method) = sanitize cfg.devName.1 := by
  have hsec : cfg.secDevType.length ≤ 5 := cfg.secDevType_le
  have hname := cfg.devName.2.1
  have hfront := length_deviceInfo_front cfg method
  have htypes := length_secDevType cfg
  have hnum : (UInt8.ofNat cfg.secDevType.length).toNat = cfg.secDevType.length := by
    rw [UInt8.toNat_ofNat', Nat.mod_eq_of_lt (by omega)]
  rw [deviceInfo]
  generalize macOctets cfg.devAddr ++ putBe16 (deviceInfoMethods method).toNat ++
    cfg.priDevType.1 = front at hfront ⊢
  generalize cfg.secDevType.flatMap Subtype.val = types at htypes ⊢
  have hget : (front ++ (UInt8.ofNat cfg.secDevType.length ::
      (types ++ (attrDevName ++ (putBe16 cfg.devName.1.length ++ cfg.devName.1))))).getD 16 0 =
        UInt8.ofNat cfg.secDevType.length := by
    rw [List.getD_eq_getElem?_getD, List.getElem?_append_right (by omega), hfront]
    rfl
  have hdrop : (front ++ (UInt8.ofNat cfg.secDevType.length ::
      (types ++ (attrDevName ++ (putBe16 cfg.devName.1.length ++ cfg.devName.1))))).drop
        (17 + 8 * cfg.secDevType.length + 2) =
      putBe16 cfg.devName.1.length ++ cfg.devName.1 := by
    have hshape : front ++ (UInt8.ofNat cfg.secDevType.length ::
        (types ++ (attrDevName ++ (putBe16 cfg.devName.1.length ++ cfg.devName.1)))) =
        (front ++ [UInt8.ofNat cfg.secDevType.length] ++ types ++ attrDevName) ++
          (putBe16 cfg.devName.1.length ++ cfg.devName.1) := by
      simp only [List.append_assoc, List.cons_append, List.nil_append]
    rw [hshape]
    refine List.drop_left' ?_
    simp only [List.length_append, List.length_cons, List.length_nil, hfront, htypes, attrDevName]
  have hword : be16 (putBe16 cfg.devName.1.length ++ cfg.devName.1) = cfg.devName.1.length :=
    be16_putBe16 (by omega) _
  have hrest : ((putBe16 cfg.devName.1.length ++ cfg.devName.1).drop 2) = cfg.devName.1 := rfl
  rw [deviceInfoName]
  simp only [hget, hnum, hdrop, hword, hrest, List.take_length]

theorem length_flatMap_encode (l : List RegClass) :
    (l.flatMap RegClass.encode).length ≤ 22 * l.length := by
  induction l with
  | nil => exact Nat.zero_le _
  | cons r l ih =>
    have hle : r.channel.length ≤ 20 := r.le
    simp only [List.flatMap_cons, RegClass.encode, List.length_append, List.length_cons] at ih ⊢
    omega

theorem length_bufAddChannelList (country : Country) (channels : P2pChannels) :
    3 ≤ (bufAddChannelList country channels).length ∧
      (bufAddChannelList country channels).length ≤ 223 := by
  have hclasses : channels.regClass.length ≤ 10 := channels.le
  have hflat := length_flatMap_encode channels.regClass
  simp only [bufAddChannelList, List.length_append, List.length_cons, List.length_nil]
  omega

end Data

/-! ### Attributes one by one -/

theorem attrOk_small {data : Bytes} (hmin : attr.minLen ≤ data.length)
    (hpos : 0 < data.length) (hmax : data.length < 256) (hgroup : attr ≠ .groupId)
    (hinfo : attr ≠ .deviceInfo) : AttrOk (ofAttr attr data) :=
  .of_minLen hmin (by omega) (fun h => absurd h hgroup) (fun h => absurd h hinfo)
    (List.ne_nil_of_length_pos hpos)

section Single

variable (cfg : FrameConfig) {attr : P2pAttr}

theorem octet_attrOk (c : UInt8) (hmin : attr.minLen ≤ 1) (hgroup : attr ≠ .groupId)
    (hinfo : attr ≠ .deviceInfo) : AttrOk (ofAttr attr [c]) :=
  attrOk_small hmin Nat.one_pos (by simp) hgroup hinfo

theorem pair_attrOk (a b : UInt8) (hmin : attr.minLen ≤ 2) (hgroup : attr ≠ .groupId)
    (hinfo : attr ≠ .deviceInfo) : AttrOk (ofAttr attr [a, b]) :=
  attrOk_small hmin Nat.two_pos (by simp) hgroup hinfo

theorem addr_attrOk (addr : MacAddr) (hmin : attr.minLen ≤ 6) (hgroup : attr ≠ .groupId)
    (hinfo : attr ≠ .deviceInfo) : AttrOk (ofAttr attr (macOctets addr)) :=
  attrOk_small (by rwa [length_macOctets]) (by simp) (by simp) hgroup hinfo

theorem channel_attrOk (country : Country) (regClass channel : UInt8) (hmin : attr.minLen ≤ 5)
    (hgroup : attr ≠ .groupId) (hinfo : attr ≠ .deviceInfo) :
    AttrOk (ofAttr attr (channelData country regClass channel)) :=
  attrOk_small hmin (by simp [channelData]) (by simp [channelData]) hgroup hinfo

theorem deviceInfo_attrOk (method : WpsMethod) :
    AttrOk (ofAttr .deviceInfo (deviceInfo cfg method)) := by
  have hlen := length_deviceInfo cfg method
  have hle := length_deviceInfo_le cfg method
  refine .of_minLen ?_ (by omega) (fun h => nomatch h) (fun _ => deviceInfo_ok cfg method) ?_
  · simp only [P2pAttr.minLen]
    omega
  · exact List.ne_nil_of_length_pos (by omega)

theorem groupId_attrOk (addr : MacAddr) (ssid : Ssid) :
    AttrOk (ofAttr .groupId (groupIdData addr ssid)) := by
  have hssid := ssid.2
  have hlen : (groupIdData addr ssid).length = 6 + ssid.1.length := by
    rw [groupIdData, List.length_append, length_macOctets]
  refine .of_minLen ?_ (by omega) (fun _ => by omega) (fun h => nomatch h) ?_
  · simp only [P2pAttr.minLen]
    omega
  · exact List.ne_nil_of_length_pos (by omega)

theorem channelList_attrOk (channels : P2pChannels) : AttrOk (channelList cfg channels) := by
  have hlen := length_bufAddChannelList cfg.country channels
  refine attrOk_small ?_ (by omega) (by omega) (by decide) (by decide)
  simp only [P2pAttr.minLen]
  omega

theorem operatingChannel_attrOk : AttrOk (operatingChannel cfg) :=
  channel_attrOk _ _ _ (by decide) (by decide) (by decide)

theorem extListenTiming_attrOk : ∀ attr ∈ extListenTiming cfg, AttrOk attr := by
  unfold extListenTiming
  split_ifs
  · simp
  · rw [List.forall_mem_singleton]
    exact attrOk_small (by simp [P2pAttr.minLen]) (by simp) (by simp) (by decide) (by decide)

end Single

structure Layout.Good (cfg : FrameConfig) (layout : Layout) : Prop where
  attrOk : ∀ attr ∈ layout.attrs, AttrOk attr
  nodup : (layout.attrs.map Prod.fst).Nodup
  deviceInfo : ∀ data, (P2pAttr.id .deviceInfo, data) ∈ layout.attrs →
    ∃ method, data = Wire.deviceInfo cfg method
  room : layout.header.length + 514 ≤ layout.size ∨
    layout.wps = none ∧ layout.header.length + layout.p2pElement.length ≤ layout.size

section Layouts

variable (cfg : FrameConfig)

theorem deviceInfo_of_mem {layout : Layout} (method : WpsMethod)
    (hnodup : (layout.attrs.map Prod.fst).Nodup)
    (hmem : ofAttr .deviceInfo (deviceInfo cfg method) ∈ layout.attrs) :
    ∀ data, (P2pAttr.id .deviceInfo, data) ∈ layout.attrs →
      ∃ method, data = deviceInfo cfg method := by
  intro data hdata
  have heq := List.inj_on_of_nodup_map hnodup hdata hmem rfl
  exact ⟨method, congrArg Prod.snd heq⟩

theorem goNegReq_good (peer : FramePeer) (tieBreaker : Bool) :
    (goNegReq cfg peer tieBreaker).Good cfg := by
  have hnodup : ((goNegReq cfg peer tieBreaker).attrs.map Prod.fst).Nodup := by
    unfold goNegReq extListenTiming
    split_ifs
    all_goals simp [ofAttr, P2pAttr.id, channelList, operatingChannel]
  refine ⟨?_, hnodup, deviceInfo_of_mem cfg peer.wpsMethod hnodup (by simp [goNegReq]),
    .inl (by simp [goNegReq, publicActionHdr])⟩
  simp only [goNegReq, List.forall_mem_append, List.forall_mem_cons, List.not_mem_nil,
    false_imp_iff, implies_true, and_true]
  refine ⟨⟨⟨?_, ?_, ?_, ?_⟩, extListenTiming_attrOk cfg⟩, ?_, channelList_attrOk cfg _,
    deviceInfo_attrOk cfg _, operatingChannel_attrOk cfg⟩
  · exact pair_attrOk _ _ (by decide) (by decide) (by decide)
  · exact octet_attrOk _ (by decide) (by decide) (by decide)
  · exact pair_attrOk _ _ (by decide) (by decide) (by decide)
  · exact channel_attrOk _ _ _ (by decide) (by decide) (by decide)
  · exact addr_attrOk _ (by decide) (by decide) (by decide)

theorem goNegResp_good (peer : Option FramePeer) (dialogToken status : UInt8)
    (tieBreaker : Bool) : (goNegResp cfg peer dialogToken status tieBreaker).Good cfg := by
  have hnodup : ((goNegResp cfg peer dialogToken status tieBreaker).attrs.map
      Prod.fst).Nodup := by
    unfold goNegResp
    cases roleOf peer
    all_goals simp [ofAttr, P2pAttr.id, channelList, operatingChannel]
  refine ⟨?_, hnodup, deviceInfo_of_mem cfg (methodOf peer) hnodup (by simp [goNegResp]),
    .inl (by simp [goNegResp, publicActionHdr])⟩
  simp only [goNegResp, List.forall_mem_append, List.forall_mem_cons, List.not_mem_nil,
    false_imp_iff, implies_true, and_true]
  refine ⟨⟨⟨⟨?_, ?_, ?_, ?_⟩, ?_⟩, ?_, channelList_attrOk cfg _, deviceInfo_attrOk cfg _⟩, ?_⟩
  · exact octet_attrOk _ (by decide) (by decide) (by decide)
  · exact pair_attrOk _ _ (by decide) (by decide) (by decide)
  · exact octet_attrOk _ (by decide) (by decide) (by decide)
  · exact pair_attrOk _ _ (by decide) (by decide) (by decide)
  · split_ifs
    · exact List.forall_mem_nil _
    · exact List.forall_mem_singleton.mpr (operatingChannel_attrOk cfg)
  · exact addr_attrOk _ (by decide) (by decide) (by decide)
  · split_ifs
    · exact List.forall_mem_singleton.mpr (groupId_attrOk _ _)
    · exact List.forall_mem_nil _

theorem goNegConf_good (peer : FramePeer) (dialogToken status : UInt8)
    (respChan : Option ChannelAttr) (go : Bool) :
    (goNegConf cfg peer dialogToken status respChan go).Good cfg := by
  have hids : (goNegConf cfg peer dialogToken status respChan go).attrs.map Prod.fst =
      [0, 2, 17, 11] ++ if go then [15] else [] := by
    unfold goNegConf
    cases respChan <;> cases go <;> rfl
  refine ⟨?_, ?_, ?_, .inl (by simp [goNegConf, publicActionHdr])⟩
  · simp only [goNegConf, List.forall_mem_append, List.forall_mem_cons, List.not_mem_nil,
      false_imp_iff, implies_true, and_true]
    refine ⟨⟨?_, ?_, ?_, channelList_attrOk cfg _⟩, ?_⟩
    · exact octet_attrOk _ (by decide) (by decide) (by decide)
    · exact pair_attrOk _ _ (by decide) (by decide) (by decide)
    · cases respChan with
      | none => exact operatingChannel_attrOk cfg
      | some chan =>
        dsimp only
        split_ifs
        · exact operatingChannel_attrOk cfg
        · exact channel_attrOk _ _ _ (by decide) (by decide) (by decide)
    · split_ifs
      · exact List.forall_mem_singleton.mpr (groupId_attrOk _ _)
      · exact List.forall_mem_nil _
  · rw [hids]
    cases go <;> decide
  · intro data hdata
    have hmem := List.mem_map_of_mem (f := Prod.fst) hdata
    rw [hids] at hmem
    cases go <;> simp [P2pAttr.id] at hmem

theorem invitationReq_good (peer : FramePeer) (goDevAddr : Option MacAddr) :
    (invitationReq cfg peer goDevAddr).Good cfg := by
  have hnodup : ((invitationReq cfg peer goDevAddr).attrs.map Prod.fst).Nodup := by
    unfold invitationReq
    cases cfg.invBssid
    all_goals simp [ofAttr, P2pAttr.id, channelList, operatingChannel]
  refine ⟨?_, hnodup, deviceInfo_of_mem cfg peer.wpsMethod hnodup (by simp [invitationReq]),
    .inl (by simp [invitationReq, publicActionHdr])⟩
  simp only [invitationReq, List.forall_mem_append, List.forall_mem_cons, List.not_mem_nil,
    false_imp_iff, implies_true, and_true]
  refine ⟨⟨⟨?_, ?_, operatingChannel_attrOk cfg⟩, ?_⟩, channelList_attrOk cfg _,
    groupId_attrOk _ _, deviceInfo_attrOk cfg _⟩
  · split_ifs
    all_goals exact pair_attrOk _ _ (by decide) (by decide) (by decide)
  · exact octet_attrOk _ (by decide) (by decide) (by decide)
  · cases cfg.invBssid with
    | none => exact List.forall_mem_nil _
    | some addr =>
      exact List.forall_mem_singleton.mpr (addr_attrOk _ (by decide) (by decide) (by decide))

theorem invitationResp_good (dialogToken status : UInt8) (groupBssid : Option MacAddr)
    (regClass channel : UInt8) (channels : Option P2pChannels) :
    (invitationResp cfg dialogToken status groupBssid regClass channel channels).Good cfg := by
  have hids : (invitationResp cfg dialogToken status groupBssid regClass channel
      channels).attrs.map Prod.fst = [0, 5] ++ (if regClass ≠ 0 ∧ channel ≠ 0 then [17] else []) ++
        (if groupBssid.isSome then [7] else []) ++ (if channels.isSome then [11] else []) := by
    unfold invitationResp
    by_cases hchan : regClass ≠ 0 ∧ channel ≠ 0
    · simp only [if_pos hchan]
      cases groupBssid <;> cases channels <;> rfl
    · simp only [if_neg hchan]
      cases groupBssid <;> cases channels <;> rfl
  refine ⟨?_, ?_, ?_, .inl (by simp [invitationResp, publicActionHdr])⟩
  · simp only [invitationResp, List.forall_mem_append, List.forall_mem_cons, List.not_mem_nil,
      false_imp_iff, implies_true, and_true]
    refine ⟨⟨⟨⟨?_, ?_⟩, ?_⟩, ?_⟩, ?_⟩
    · exact octet_attrOk _ (by decide) (by decide) (by decide)
    · exact pair_attrOk _ _ (by decide) (by decide) (by decide)
    · split_ifs
      · exact List.forall_mem_singleton.mpr
          (channel_attrOk _ _ _ (by decide) (by decide) (by decide))
      · exact List.forall_mem_nil _
    · cases groupBssid with
      | none => exact List.forall_mem_nil _
      | some addr =>
        exact List.forall_mem_singleton.mpr (addr_attrOk _ (by decide) (by decide) (by decide))
    · cases channels with
      | none => exact List.forall_mem_nil _
      | some channels => exact List.forall_mem_singleton.mpr (channelList_attrOk cfg _)
  · rw [hids]
    split_ifs <;> decide
  · intro data hdata
    have hmem := List.mem_map_of_mem (f := Prod.fst) hdata
    rw [hids] at hmem
    split_ifs at hmem <;> simp [P2pAttr.id] at hmem

theorem capability_deviceInfo_attrOk (groupCapab : UInt8) (method : WpsMethod) :
    ∀ attr ∈ [ofAttr .capability [cfg.devCapab, groupCapab]] ++ extListenTiming cfg ++
      [ofAttr .deviceInfo (deviceInfo cfg method)], AttrOk attr := by
  simp only [List.forall_mem_append, List.forall_mem_cons, List.not_mem_nil, false_imp_iff,
    implies_true, and_true]
  exact ⟨⟨pair_attrOk _ _ (by decide) (by decide) (by decide), extListenTiming_attrOk cfg⟩,
    deviceInfo_attrOk cfg _⟩

theorem capability_deviceInfo_nodup (groupCapab : UInt8) (method : WpsMethod) :
    (([ofAttr .capability [cfg.devCapab, groupCapab]] ++ extListenTiming cfg ++
      [ofAttr .deviceInfo (deviceInfo cfg method)]).map Prod.fst).Nodup := by
  unfold extListenTiming
  split_ifs
  all_goals simp [ofAttr, P2pAttr.id]

theorem probeResp_good : (probeResp cfg).Good cfg :=
  ⟨capability_deviceInfo_attrOk cfg 0 .notReady, capability_deviceInfo_nodup cfg 0 .notReady,
    deviceInfo_of_mem cfg .notReady (capability_deviceInfo_nodup cfg 0 .notReady)
      (by simp [probeResp]), .inl (by simp [probeResp])⟩

theorem length_put (attr : UInt8 × Bytes) : (put attr).length = 3 + attr.2.length := by
  simp only [put, List.length_append, List.length_cons, length_putLe16]

theorem length_vendorIe (ouiType : ℕ) (data : Bytes) :
    (vendorIe ouiType data).length = 6 + data.length := by
  simp only [vendorIe, List.length_cons, List.length_append, length_putBe]
  omega

theorem assocReq_good (peer : Option FramePeer) : (assocReq cfg peer).Good cfg := by
  refine ⟨capability_deviceInfo_attrOk cfg 0 (methodOf peer),
    capability_deviceInfo_nodup cfg 0 (methodOf peer),
    deviceInfo_of_mem cfg (methodOf peer) (capability_deviceInfo_nodup cfg 0 (methodOf peer))
      (by simp [assocReq]), .inr ⟨rfl, ?_⟩⟩
  have hinfo := length_deviceInfo_le cfg (methodOf peer)
  have hext : ((extListenTiming cfg).flatMap put).length ≤ 7 := by
    unfold extListenTiming
    split_ifs
    · simp
    · simp [length_put, ofAttr]
  simp only [Layout.p2pElement, length_vendorIe, assocReq, List.flatMap_append,
    List.flatMap_singleton, List.length_append, length_put, ofAttr, List.length_cons,
    List.length_nil]
  omega

theorem assocReqWlanAp_good : (assocReqWlanAp cfg).Good cfg := by
  have hids : (assocReqWlanAp cfg).attrs.map Prod.fst =
      [2] ++ if cfg.managed then [16] else [] := by
    unfold assocReqWlanAp
    cases cfg.managed <;> rfl
  refine ⟨?_, ?_, ?_, .inr ⟨rfl, ?_⟩⟩
  · simp only [assocReqWlanAp, List.forall_mem_append, List.forall_mem_cons, List.not_mem_nil,
      false_imp_iff, implies_true, and_true]
    refine ⟨pair_attrOk _ _ (by decide) (by decide) (by decide), ?_⟩
    split_ifs
    · exact List.forall_mem_singleton.mpr (.skipped rfl (by simp))
    · exact List.forall_mem_nil _
  · rw [hids]
    cases cfg.managed <;> decide
  · intro data hdata
    have hmem := List.mem_map_of_mem (f := Prod.fst) hdata
    rw [hids] at hmem
    cases hmanaged : cfg.managed <;> simp [hmanaged, P2pAttr.id] at hmem
  · cases hmanaged : cfg.managed
    all_goals simp [assocReqWlanAp, Layout.p2pElement, length_vendorIe, length_put, ofAttr, hmanaged]

theorem SentFrame.layout_good (frame : SentFrame) : (frame.layout cfg).Good cfg := by
  cases frame with
  | goNegReq peer tieBreaker => exact goNegReq_good cfg peer tieBreaker
  | goNegResp peer dialogToken status tieBreaker =>
    exact goNegResp_good cfg peer dialogToken status tieBreaker
  | goNegConf peer dialogToken status respChan go =>
    exact goNegConf_good cfg peer dialogToken status respChan go
  | invitationReq peer goDevAddr => exact invitationReq_good cfg peer goDevAddr
  | invitationResp dialogToken status groupBssid regClass channel channels =>
    exact invitationResp_good cfg dialogToken status groupBssid regClass channel channels
  | probeResp => exact probeResp_good cfg
  | assocReq peer => exact assocReq_good cfg peer
  | assocReqWlanAp => exact assocReqWlanAp_good cfg

end Layouts

end Hostapd.P2p.Wire
