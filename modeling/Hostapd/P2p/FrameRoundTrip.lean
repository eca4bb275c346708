import Hostapd.P2p.FrameAttrs

/-!
# P2P frames are parsed again

* **`parseMsg_wps`**: the parser of WPS attributes takes what `p2p_build_wps_ie` writes, if the
  vendor extensions are ones of other vendors; it keeps no others (`vendorExt_of_parseMsg`).
* **`Layout.parseIes_elements`**: how the elements of a frame are taken apart.
* **`roundTrips_iff_fits`**: a frame is written, with the right length octets, and parsed again,
  exactly if both elements are short enough for their length octets and the vendor extensions are
  ones of other vendors.
-/

namespace Hostapd.P2p.Wire

open Hostapd.Lib
open Hostapd.Wps (Item Octets ParseAttr)

/-! ## Writing -/

theorem foldlM_putOctets {size : ℕ} {buf : Bytes} (h : buf.length ≤ size) (l : List Bytes) :
    l.foldlM (putOctets size) buf = putOctets size buf l.flatten := by
  induction l generalizing buf with
  | nil =>
    have hfits : buf.length + ([] : Bytes).length ≤ size := h
    rw [List.flatten_nil, putOctets_of hfits, List.append_nil]
    rfl
  | cons data l ih =>
    rw [List.foldlM_cons, List.flatten_cons, ← putOctets_bind]
    cases hput : putOctets size buf data with
    | error stop => rfl
    | ok buf' =>
      rw [ok_bind, ok_bind]
      refine ih ?_
      unfold putOctets at hput
      split_ifs at hput with hfits
      rw [← Except.ok.inj hput, List.length_append]
      exact hfits

theorem Layout.build_eq (cfg : FrameConfig) (layout : Layout)
    (hheader : layout.header.length ≤ layout.size) :
    layout.build cfg = putOctets layout.size layout.header (layout.elements cfg).flatten := by
  have hfits : ([] : Bytes).length + layout.header.length ≤ layout.size := by
    rwa [List.length_nil, Nat.zero_add]
  rw [Layout.build, putOctets_of hfits, List.nil_append, ok_bind, foldlM_putOctets hheader]

/-! ## WPS attributes -/

section Wps

variable (cfg : FrameConfig) (room : ℕ) (pwId : UInt16) (allAttr : Bool)

theorem length_wpsString {n : ℕ} (val : Text n) (hn : 0 < n) : (wpsString val).length ≤ n := by
  have hle := val.2.1
  unfold wpsString
  split_ifs
  · exact hn
  · exact hle

theorem wpsItems_fit : ∀ item ∈ wpsItems cfg pwId allAttr, item.Fits := by
  have hsec : (cfg.secDevType.flatMap Subtype.val).length = 8 * cfg.secDevType.length :=
    length_secDevType cfg
  have hsecLe : cfg.secDevType.length ≤ 5 := cfg.secDevType_le
  have htext : ∀ {n : ℕ} (val : Text n), 0 < n ∧ n < 65 → (wpsString val).length < 2 ^ 16 := by
    intro n val hn
    have hle := length_wpsString val hn.1
    omega
  simp only [wpsItems, List.forall_mem_append, List.forall_mem_cons, List.not_mem_nil,
    false_imp_iff, implies_true, and_true]
  refine ⟨⟨⟨⟨⟨?_, ?_⟩, ?_⟩, ?_⟩, ?_⟩, ?_⟩
  · exact Wps.fits_fixed rfl rfl (by decide)
  · split_ifs
    · exact List.forall_mem_singleton.mpr (Wps.fits_fixed rfl rfl (by decide))
    · exact List.forall_mem_nil _
  · exact Wps.fits_fixed rfl rfl (by decide)
  · split_ifs
    · simp only [List.forall_mem_cons, List.not_mem_nil, false_imp_iff, implies_true, and_true]
      refine ⟨Wps.fits_fixed rfl rfl (by decide), Wps.fits_fixed rfl cfg.uuid.2 (by decide),
        Wps.fits_free rfl (htext _ (by decide)) (by decide),
        Wps.fits_free rfl (htext _ (by decide)) (by decide),
        Wps.fits_free rfl (htext _ (by decide)) (by decide),
        Wps.fits_free rfl (htext _ (by decide)) (by decide),
        Wps.fits_fixed rfl cfg.priDevType.2 (by decide),
        Wps.fits_free rfl (htext _ (by decide)) (by decide),
        Wps.fits_fixed rfl rfl (by decide)⟩
    · exact List.forall_mem_nil _
  · refine ⟨?_, by decide⟩
    intro elem helem
    obtain rfl : elem = (0, [0x20]) := by simpa [Wps.wfaElems] using helem
    exact ⟨by decide, .inr rfl, by decide, by decide⟩
  · split_ifs
    · refine List.forall_mem_singleton.mpr ⟨by decide, (fun _ h => by cases h), fun _ => ?_, ?_⟩
      · have hmax : Wps.secDevTypeMaxLen = 128 := rfl
        refine ⟨by omega, ?_⟩
        rw [hsec]
        exact Nat.mul_mod_right 8 _
      · omega
    · exact List.forall_mem_nil _

theorem vendorExtVal_wpsItems :
    (wpsItems cfg pwId allAttr).filterMap Item.vendorExtVal = [] := by
  rw [List.filterMap_eq_nil_iff]
  cases allAttr
  · simp [wpsItems, Item.vendorExtVal]
  · by_cases hsec : cfg.secDevType = []
    · simp [wpsItems, Item.vendorExtVal, hsec]
    · simp [wpsItems, Item.vendorExtVal, hsec]

theorem length_extsWritten (room : ℕ) (exts : List Bytes) :
    (extsWritten room exts).length ≤ exts.length := by
  induction exts generalizing room with
  | nil => exact Nat.le_refl _
  | cons ext exts ih =>
    rw [extsWritten]
    split_ifs
    · exact (ih room).trans (Nat.le_succ _)
    · exact Nat.succ_le_succ (ih _)

/-- A vendor extension of another vendor, with the three octets that name the vendor. -/
def Foreign (ext : Bytes) : Prop := 3 ≤ ext.length ∧ beNat (ext.take 3) ≠ Wps.vendorIdWfa

instance (ext : Bytes) : Decidable (Foreign ext) := inferInstanceAs (Decidable (_ ∧ _))

def allItems : List Item :=
  wpsItems cfg pwId allAttr ++ (wpsExts cfg room pwId allAttr).map Item.vendorExt

theorem wpsData_eq : wpsData cfg room pwId allAttr =
    (allItems cfg room pwId allAttr).flatMap Item.put := by
  rw [wpsData, wpsFixed, allItems, List.flatMap_append, List.flatMap_map]

theorem vendorExtVal_allItems : (allItems cfg room pwId allAttr).filterMap Item.vendorExtVal =
    wpsExts cfg room pwId allAttr := by
  rw [allItems, List.filterMap_append, vendorExtVal_wpsItems, List.nil_append, List.filterMap_map]
  exact List.filterMap_some

theorem parseMsg_wps (hforeign : ∀ ext ∈ wpsExts cfg room pwId allAttr, Foreign ext)
    (hlen : (wpsData cfg room pwId allAttr).length < 256) :
    ∃ attr, Wps.parseMsg (wpsData cfg room pwId allAttr) = some attr ∧
      attr.Tells (allItems cfg room pwId allAttr) := by
  rw [wpsData_eq] at hlen ⊢
  refine Wps.parseMsg_items ?_ ?_
  · rw [allItems, List.forall_mem_append]
    refine ⟨wpsItems_fit cfg pwId allAttr, ?_⟩
    intro item hitem
    obtain ⟨ext, hext, rfl⟩ := List.mem_map.mp hitem
    have hput : (Item.vendorExt ext).put.length ≤
        ((allItems cfg room pwId allAttr).flatMap Item.put).length := by
      have hmem : Item.vendorExt ext ∈ allItems cfg room pwId allAttr :=
        List.mem_append_right _ hitem
      exact (List.sublist_flatten_of_mem (List.mem_map_of_mem hmem)).length_le
    have hext' : (Item.vendorExt ext).put.length = 4 + ext.length := by
      simp [Item.put, Wps.putAttr, Item.octets]
      omega
    have hmax : Wps.maxVendorExtLen = 1024 := rfl
    exact ⟨(hforeign ext hext).1, by omega, (hforeign ext hext).2⟩
  · rw [vendorExtVal_allItems]
    exact (length_extsWritten _ _).trans cfg.vendorExt_le

theorem parseVendorExtWfa_vendorExt {fuel : ℕ} {attr attr' : ParseAttr} {ext : Bytes}
    (h : Wps.parseVendorExtWfa fuel attr ext = some attr') : attr'.vendorExt = attr.vendorExt := by
  induction fuel generalizing attr ext with
  | zero => exact congrArg ParseAttr.vendorExt (Option.some.inj h).symm
  | succ fuel ih =>
    unfold Wps.parseVendorExtWfa at h
    split at h
    · split_ifs at h
      · exact congrArg ParseAttr.vendorExt (Option.some.inj h).symm
      · split at h
        · cases h
        · rename_i attr'' hset
          rw [ih h]
          unfold Wps.setVendorExtWfaSubelem at hset
          split_ifs at hset
          all_goals
            obtain rfl := Option.some.inj hset
            rfl
    · exact congrArg ParseAttr.vendorExt (Option.some.inj h).symm

theorem parseVendorExt_vendorExt {attr attr' : ParseAttr} {ext : Bytes}
    (h : Wps.parseVendorExt attr ext = some attr') :
    attr'.vendorExt = attr.vendorExt ++ [ext].filter fun ext => decide (Foreign ext) := by
  unfold Wps.parseVendorExt at h
  split_ifs at h with hshort hwfa
  · obtain rfl := Option.some.inj h
    have hnot : ¬ Foreign ext := fun hf => absurd hf.1 (by omega)
    simp [hnot]
  · rw [parseVendorExtWfa_vendorExt h]
    have hnot : ¬ Foreign ext := fun hf => hf.2 hwfa
    simp [hnot]
  · obtain rfl := Option.some.inj h
    have hforeign : Foreign ext := ⟨by omega, hwfa⟩
    simp [hforeign]

theorem keepAttrs_exts {exts : List Bytes} (hlen : ∀ ext ∈ exts, ext.length < 2 ^ 16) :
    ∃ l, Wps.encodeAttrs l = exts.flatMap (fun ext => (Item.vendorExt ext).put) ∧
      (∀ a ∈ l, a.code ≠ 0) ∧ ∀ attr pos attr', Wps.keepAttrs attr pos l = some attr' →
        attr'.vendorExt = attr.vendorExt ++ exts.filter fun ext => decide (Foreign ext) := by
  induction exts with
  | nil =>
    refine ⟨[], rfl, (fun a ha => nomatch ha), fun attr pos attr' h => ?_⟩
    rw [← Option.some.inj h, List.filter_nil, List.append_nil]
  | cons ext exts ih =>
    obtain ⟨l, hl, hcodes, hkeep⟩ := ih fun e he => hlen e (List.mem_cons_of_mem ext he)
    have hext : (Item.vendorExt ext).octets.length < 2 ^ 16 := hlen ext List.mem_cons_self
    refine ⟨(Item.vendorExt ext).attribute hext :: l, ?_, ?_, ?_⟩
    · rw [Wps.encodeAttrs_cons, hl, List.flatMap_cons, Item.encode_attribute]
    · exact List.forall_mem_cons.mpr ⟨Wps.AttrType.code_ne_zero .vendorExt, hcodes⟩
    · intro attr pos attr' h
      obtain ⟨attr₁, hset, hrest⟩ := Option.bind_eq_some_iff.mp h
      have hfirst : Wps.parseVendorExt attr ext = some attr₁ :=
        (Wps.setAttr_code attr .vendorExt (pos + 4) ext fun len hfixed => nomatch hfixed).symm.trans
          hset
      rw [hkeep attr₁ _ attr' hrest, parseVendorExt_vendorExt hfirst, List.append_assoc,
        ← List.filter_append, List.singleton_append]

theorem vendorExt_of_parseMsg (hlen : (wpsData cfg room pwId allAttr).length < 256)
    {attr : ParseAttr} (h : Wps.parseMsg (wpsData cfg room pwId allAttr) = some attr) :
    attr.vendorExt =
      (wpsExts cfg room pwId allAttr).filter fun ext => decide (Foreign ext) := by
  have hempty : ParseAttr.empty.Tells [] := ⟨fun type => rfl, rfl, rfl, rfl, rfl⟩
  obtain ⟨l, attr₀, hl, hcodes, hkeep, htells⟩ := hempty.keepAttrs (wpsItems_fit cfg pwId allAttr)
    (by rw [List.nil_append, vendorExtVal_wpsItems]; exact Nat.zero_le _) 0
  have hexts : ∀ ext ∈ wpsExts cfg room pwId allAttr, ext.length < 2 ^ 16 := by
    intro ext hext
    have hput : (Item.vendorExt ext).put.length ≤ (wpsData cfg room pwId allAttr).length := by
      rw [wpsData, List.length_append]
      exact (List.sublist_flatten_of_mem (List.mem_map_of_mem hext)).length_le.trans
        (Nat.le_add_left _ _)
    have hext' : (Item.vendorExt ext).put.length = 4 + ext.length := by
      simp [Item.put, Wps.putAttr, Item.octets]
      omega
    omega
  obtain ⟨l', hl', hcodes', hkeep'⟩ := keepAttrs_exts hexts
  have hparse : Wps.parseMsg (wpsData cfg room pwId allAttr) = Wps.keepAttrs .empty 0 (l ++ l') := by
    rw [wpsData, wpsFixed, ← hl, ← hl', ← Wps.encodeAttrs_append]
    have hall : ∀ a ∈ l ++ l', a.code ≠ 0 := List.forall_mem_append.mpr ⟨hcodes, hcodes'⟩
    rcases List.eq_nil_or_concat (l ++ l') with hnil | ⟨front, last, hconcat⟩
    · rw [hnil]
      rfl
    · rw [List.concat_eq_append] at hconcat
      rw [hconcat] at hall ⊢
      exact Wps.parseMsg_encodeAttrs (hall last (by simp)) front
  rw [hparse, Wps.keepAttrs_append, hkeep, Option.bind_some] at h
  have hprefix : attr₀.vendorExt = [] := by
    rw [htells.vendorExt, List.nil_append, vendorExtVal_wpsItems]
  rw [hkeep' _ _ _ h, hprefix, List.nil_append]

end Wps

/-! ## Elements -/

/-- The length octet of an element tells how many octets follow it. -/
def LengthOctetRight (ie : Bytes) : Prop := (ie.getD 1 0).toNat + 2 = ie.length

section Elements

variable {ouiType ouiType' : ℕ} {data : Bytes}

def ieRecord (ouiType : ℕ) (data : Bytes) : Record :=
  (eidVendorSpecific, putBe 4 ouiType ++ data)

theorem length_ieRecord : (ieRecord ouiType data).2.length = 4 + data.length := by
  rw [ieRecord, List.length_append, length_putBe]

theorem vendorIe_eq : vendorIe ouiType data = (ieRecord ouiType data).encode 0 := by
  rw [Record.encode, length_ieRecord]
  rfl

theorem isVendor_ieRecord (h : ouiType < 256 ^ 4) :
    VendorIe.isVendor ouiType' (ieRecord ouiType data) = decide (ouiType = ouiType') := by
  have htake : (putBe 4 ouiType ++ data).take 4 = putBe 4 ouiType :=
    List.take_left' (length_putBe 4 _)
  have hid : (ieRecord ouiType data).1 = wlanEidVendorSpecific := rfl
  have hlen : 4 ≤ (ieRecord ouiType data).2.length := by
    rw [length_ieRecord]
    exact Nat.le_add_right _ _
  have hvalue : beNat ((ieRecord ouiType data).2.take 4) = ouiType := by
    rw [ieRecord, htake, beNat_putBe h]
  rw [VendorIe.isVendor, hvalue]
  simp [hid, hlen]

theorem drop_ieRecord : (ieRecord ouiType data).2.drop 4 = data :=
  List.drop_left' (length_putBe 4 _)

theorem lengthOctetRight_iff :
    LengthOctetRight (vendorIe ouiType data) ↔ 4 + data.length < 256 := by
  have hget : ((vendorIe ouiType data).getD 1 0).toNat = (4 + data.length) % 256 :=
    UInt8.toNat_ofNat'
  rw [LengthOctetRight, hget, length_vendorIe]
  omega

end Elements

namespace Layout

variable (cfg : FrameConfig) (layout : Layout)

def wpsRecord : Option Record :=
  layout.wps.map fun args =>
    ieRecord wpsDevOuiWfa (wpsData cfg layout.wpsRoom args.1 args.2)

def p2pRecord : Record := ieRecord p2pVendorType (layout.attrs.flatMap put)

def records : List Record :=
  if layout.wpsFirst then (layout.wpsRecord cfg).toList ++ [layout.p2pRecord]
  else layout.p2pRecord :: (layout.wpsRecord cfg).toList

theorem elements_eq : layout.elements cfg = (layout.records cfg).map (Record.encode 0) := by
  unfold elements records wpsElement wpsRecord
  cases layout.wps with
  | none =>
    split_ifs
    all_goals simp [p2pElement, p2pRecord, vendorIe_eq]
  | some args =>
    split_ifs
    all_goals simp [p2pElement, p2pRecord, vendorIe_eq]

theorem flatten_elements : (layout.elements cfg).flatten = encodeElements (layout.records cfg) := by
  rw [elements_eq]
  rfl

theorem vendorData_records :
    VendorIe.vendorData p2pVendorType (layout.records cfg) = layout.attrs.flatMap put ∧
      VendorIe.vendorData wpsDevOuiWfa (layout.records cfg) =
        ((layout.wps.map fun args => wpsData cfg layout.wpsRoom args.1 args.2).getD []) := by
  have hp : p2pVendorType < 256 ^ 4 := by decide
  have hw : wpsDevOuiWfa < 256 ^ 4 := by decide
  have hne : p2pVendorType ≠ wpsDevOuiWfa := by decide
  unfold records wpsRecord p2pRecord
  cases layout.wps with
  | none =>
    split_ifs
    all_goals simp [VendorIe.vendorData_cons, isVendor_ieRecord hp, hne, drop_ieRecord]
  | some args =>
    split_ifs
    all_goals simp [VendorIe.vendorData_cons, isVendor_ieRecord hp, isVendor_ieRecord hw, hne,
      hne.symm, drop_ieRecord]

theorem any_records : (layout.records cfg).any (VendorIe.isVendor p2pVendorType) = true ∧
    (layout.records cfg).any (VendorIe.isVendor wpsDevOuiWfa) = layout.wps.isSome := by
  have hp : p2pVendorType < 256 ^ 4 := by decide
  have hw : wpsDevOuiWfa < 256 ^ 4 := by decide
  have hne : p2pVendorType ≠ wpsDevOuiWfa := by decide
  unfold records wpsRecord p2pRecord
  cases layout.wps with
  | none =>
    split_ifs
    all_goals simp [isVendor_ieRecord hp, hne]
  | some args =>
    split_ifs
    all_goals simp [isVendor_ieRecord hp, isVendor_ieRecord hw, hne, hne.symm]

theorem lastElement_elements (hlen : ∀ r ∈ layout.records cfg, r.2.length < 256) {id : UInt8}
    (hid : id ≠ eidVendorSpecific) : lastElement id (layout.elements cfg).flatten = none := by
  rw [lastElement, flatten_elements, elements_encodeElements hlen, Option.map_eq_none_iff,
    List.find?_eq_none]
  intro r hr
  have hvendor : r.1 = eidVendorSpecific := by
    unfold records wpsRecord p2pRecord at hr
    cases hwps : layout.wps with
    | none =>
      rw [hwps] at hr
      split_ifs at hr
      all_goals
        obtain rfl : r = _ := by simpa using hr
        rfl
    | some args =>
      rw [hwps] at hr
      split_ifs at hr
      all_goals
        rcases (by simpa using hr : r = _ ∨ r = _) with rfl | rfl
        all_goals rfl
  rw [hvendor]
  simpa using hid.symm

theorem parseIes_elements (hlen : ∀ r ∈ layout.records cfg, r.2.length < 256) :
    parseIes (layout.elements cfg).flatten =
      match (layout.wps.map fun args =>
          parseWpsIe (wpsData cfg layout.wpsRoom args.1 args.2)).getD (some .zero) with
      | none => .ok none
      | some wps =>
        match parseIe (layout.attrs.flatMap put) [] with
        | none => .ok none
        | some attrs => .ok (some
          { ssid := none
            dsParams := none
            wps := wps
            attrs := attrs
            deviceName := ((attrs.get .deviceInfo).map deviceInfoName).getD wps.deviceName }) := by
  have hssid : lastElement 0 (layout.elements cfg).flatten = none :=
    lastElement_elements cfg layout hlen (by decide)
  have hds : lastElement 3 (layout.elements cfg).flatten = none :=
    lastElement_elements cfg layout hlen (by decide)
  have helements : Lib.elements (layout.elements cfg).flatten = layout.records cfg := by
    rw [flatten_elements, elements_encodeElements hlen]
  obtain ⟨hp2pData, hwpsData⟩ := vendorData_records cfg layout
  obtain ⟨hp2pAny, hwpsAny⟩ := any_records cfg layout
  have hp2p : VendorIe.vendorIeConcat true (layout.elements cfg).flatten p2pVendorType =
      .ok (some (layout.attrs.flatMap put)) := by
    rw [VendorIe.vendorIeConcat_eq, helements, hp2pData, hp2pAny]
    rfl
  have hwps : VendorIe.vendorIeConcat true (layout.elements cfg).flatten wpsDevOuiWfa =
      .ok (layout.wps.map fun args => wpsData cfg layout.wpsRoom args.1 args.2) := by
    rw [VendorIe.vendorIeConcat_eq, helements, hwpsData, hwpsAny]
    cases layout.wps with
    | none => rfl
    | some args => rfl
  rw [parseIes, hwps, ok_bind, Option.map_map]
  simp only [hp2p, ok_bind, hssid, hds, Option.map_some, Option.getD_some, Option.filter_none,
    Function.comp_def]
  generalize (layout.wps.map fun args =>
    parseWpsIe (wpsData cfg layout.wpsRoom args.1 args.2)).getD (some .zero) = wps
  cases wps with
  | none => rfl
  | some wps =>
    generalize parseIe (layout.attrs.flatMap put) [] = attrs
    cases attrs with
    | none => rfl
    | some attrs => rfl

end Layout

/-! ## The round trip -/

structure WpsReturned (cfg : FrameConfig) (room : ℕ) (pwId : UInt16) (allAttr : Bool)
    (info : WpsInfo) : Prop where
  devPasswordId : info.devPasswordId = pwId.toNat
  vendorExt : info.vendorExt = wpsExts cfg room pwId allAttr
  manufacturer : allAttr → info.manufacturer = some (wpsString cfg.manufacturer)
  modelName : allAttr → info.modelName = some (wpsString cfg.modelName)
  modelNumber : allAttr → info.modelNumber = some (wpsString cfg.modelNumber)
  serialNumber : allAttr → info.serialNumber = some (wpsString cfg.serialNumber)
  deviceName : allAttr → info.deviceName = wpsString cfg.devName
  priDevType : allAttr → info.priDevType = some cfg.priDevType.1
  configMethods : allAttr → info.configMethods = cfg.configMethods.toNat
  secDevTypeList : allAttr → cfg.secDevType ≠ [] →
    info.secDevTypeList = some (cfg.secDevType.flatMap Subtype.val)

/-- The parsed frame has the values that were written: the data of every attribute that the parser
knows, the device name, and what there is of a WPS element. -/
structure Returned (cfg : FrameConfig) (layout : Layout) (msg : ParsedIes) : Prop where
  attrs : ∀ r ∈ layout.attrs, ∀ attr, P2pAttr.ofId r.1 = some attr → msg.attrs.get attr = some r.2
  deviceName : ∀ data, (P2pAttr.id .deviceInfo, data) ∈ layout.attrs →
    msg.deviceName = sanitize cfg.devName.1
  wps : ∀ args ∈ layout.wps, WpsReturned cfg layout.wpsRoom args.1 args.2 msg.wps

/-- The frame is written into its buffer, each element has the length that its length octet tells,
and the parser returns what was written. -/
def RoundTrips (cfg : FrameConfig) (layout : Layout) : Prop :=
  ∃ frame, layout.build cfg = .ok frame ∧
    frame = layout.header ++ (layout.elements cfg).flatten ∧
    (∀ ie ∈ layout.elements cfg, LengthOctetRight ie) ∧
    ∃ msg, parseIes (frame.drop layout.header.length) = .ok (some msg) ∧ Returned cfg layout msg

/-- The octets of the attributes of the P2P element. -/
def Layout.attrsLen (layout : Layout) : ℕ := (layout.attrs.map fun attr => 3 + attr.2.length).sum

/-- The octets of the attributes of the WPS element. -/
def wpsLen (cfg : FrameConfig) (room : ℕ) (pwId : UInt16) (allAttr : Bool) : ℕ :=
  ((allItems cfg room pwId allAttr).map fun item => 4 + item.octets.length).sum

/-- Both elements are short enough for their length octets, and the vendor extensions are ones of
other vendors. -/
structure Fits (cfg : FrameConfig) (layout : Layout) : Prop where
  p2p : 4 + layout.attrsLen < 256
  wps : ∀ args ∈ layout.wps, 4 + wpsLen cfg layout.wpsRoom args.1 args.2 < 256
  exts : ∀ args ∈ layout.wps, ∀ ext ∈ wpsExts cfg layout.wpsRoom args.1 args.2, Foreign ext

section RoundTrip

variable {cfg : FrameConfig} {layout : Layout}

theorem length_attrs (layout : Layout) :
    (layout.attrs.flatMap put).length = layout.attrsLen := by
  rw [List.length_flatMap, Layout.attrsLen]
  simp only [length_put]

theorem length_wpsData (cfg : FrameConfig) (room : ℕ) (pwId : UInt16) (allAttr : Bool) :
    (wpsData cfg room pwId allAttr).length = wpsLen cfg room pwId allAttr := by
  rw [wpsData_eq, List.length_flatMap, wpsLen]
  congr 1
  refine List.map_congr_left fun item _ => ?_
  simp only [Item.put, Wps.putAttr, List.length_append, length_putBe16]

theorem lengthOctets_iff : (∀ ie ∈ layout.elements cfg, LengthOctetRight ie) ↔
    4 + layout.attrsLen < 256 ∧
      ∀ args ∈ layout.wps, 4 + wpsLen cfg layout.wpsRoom args.1 args.2 < 256 := by
  have hp2p : LengthOctetRight layout.p2pElement ↔ 4 + layout.attrsLen < 256 := by
    rw [Layout.p2pElement, lengthOctetRight_iff, length_attrs]
  unfold Layout.elements Layout.wpsElement
  cases layout.wps with
  | none =>
    split_ifs
    all_goals simpa using hp2p
  | some args =>
    have hwps : LengthOctetRight (vendorIe wpsDevOuiWfa
        (wpsData cfg layout.wpsRoom args.1 args.2)) ↔
          4 + wpsLen cfg layout.wpsRoom args.1 args.2 < 256 := by
      rw [lengthOctetRight_iff, length_wpsData]
    split_ifs
    · simp [hp2p, hwps, and_comm]
    · simp [hp2p, hwps]

theorem Layout.records_lt (h : 4 + layout.attrsLen < 256)
    (hwps : ∀ args ∈ layout.wps, 4 + wpsLen cfg layout.wpsRoom args.1 args.2 < 256) :
    ∀ r ∈ layout.records cfg, r.2.length < 256 := by
  have hp2p : layout.p2pRecord.2.length < 256 := by
    rwa [Layout.p2pRecord, length_ieRecord, length_attrs]
  unfold Layout.records Layout.wpsRecord
  cases hlayout : layout.wps with
  | none =>
    split_ifs
    all_goals simpa using hp2p
  | some args =>
    have hshort : (ieRecord wpsDevOuiWfa
        (wpsData cfg layout.wpsRoom args.1 args.2)).2.length < 256 := by
      rw [length_ieRecord, length_wpsData]
      exact hwps args hlayout
    split_ifs
    all_goals simp [hp2p, hshort]

/-- The type of an attribute of which one is kept. -/
def singleType : Item → Option Wps.AttrType
  | .single type _ => some type
  | _ => none

theorem singleType_of_valueOf {item : Item} {type : Wps.AttrType} {val : Bytes}
    (h : item.valueOf type = some val) : singleType item = some type := by
  cases item with
  | single t v =>
    rw [Item.valueOf] at h
    split_ifs at h with heq
    exact congrArg some heq
  | cred v | reqDevType v | vendorExt v => cases h
  | wfa elems => cases h

theorem filterMap_valueOf {items : List Item} (hnodup : (items.filterMap singleType).Nodup)
    {type : Wps.AttrType} {val : Bytes} (hmem : .single type val ∈ items) :
    items.filterMap (Item.valueOf type) = [val] := by
  induction items with
  | nil => cases hmem
  | cons item items ih =>
    rcases List.mem_cons.mp hmem with rfl | hmem
    · have hhead : singleType (.single type val) = some type := rfl
      rw [List.filterMap_cons_some hhead, List.nodup_cons] at hnodup
      have hrest : items.filterMap (Item.valueOf type) = [] := by
        rw [List.filterMap_eq_nil_iff]
        intro i hi
        by_contra hne
        obtain ⟨v, hv⟩ := Option.ne_none_iff_exists'.mp hne
        exact hnodup.1 (List.mem_filterMap.mpr ⟨i, hi, singleType_of_valueOf hv⟩)
      have hvalue : (Item.single type val).valueOf type = some val := if_pos rfl
      rw [List.filterMap_cons_some hvalue, hrest]
    · have htail : (items.filterMap singleType).Nodup :=
        hnodup.sublist ((List.sublist_cons_self item items).filterMap singleType)
      have hvalue : item.valueOf type = none := by
        by_contra hne
        obtain ⟨v, hv⟩ := Option.ne_none_iff_exists'.mp hne
        rw [List.filterMap_cons_some (singleType_of_valueOf hv), List.nodup_cons] at hnodup
        exact hnodup.1 (List.mem_filterMap.mpr ⟨_, hmem, rfl⟩)
      rw [List.filterMap_cons_none hvalue, ih htail hmem]

theorem wpsItems_nodup (cfg : FrameConfig) (pwId : UInt16) (allAttr : Bool) :
    ((wpsItems cfg pwId allAttr).filterMap singleType).Nodup := by
  by_cases hsec : cfg.secDevType = []
  all_goals
    cases allAttr
    all_goals simp [wpsItems, singleType, hsec, List.filterMap_cons]

theorem wpsReturned_of_tells {room : ℕ} {pwId : UInt16} {allAttr : Bool} {attr : ParseAttr}
    (h : attr.Tells (allItems cfg room pwId allAttr)) :
    WpsReturned cfg room pwId allAttr (.ofAttr attr) := by
  have hexts : ∀ type, ((wpsExts cfg room pwId allAttr).map Item.vendorExt).filterMap
      (Item.valueOf type) = [] := by
    intro type
    rw [List.filterMap_map, List.filterMap_eq_nil_iff]
    exact fun ext _ => rfl
  have hget : ∀ {type val}, Item.single type val ∈ wpsItems cfg pwId allAttr →
      attr.get type = some val := by
    intro type val hmem
    rw [h.single, allItems, List.filterMap_append, hexts, List.append_nil,
      filterMap_valueOf (wpsItems_nodup cfg pwId allAttr) hmem]
    rfl
  have hword : ∀ n : UInt16, be16 (putBe16 n.toNat) = n.toNat := by
    intro n
    have hread := be16_putBe16 n.toNat_lt []
    rwa [List.append_nil] at hread
  constructor
  · have hpwId : attr.get .devPasswordId = some (putBe16 pwId.toNat) :=
      hget (by simp [wpsItems])
    rw [WpsInfo.ofAttr, hpwId]
    exact hword pwId
  · rw [WpsInfo.ofAttr, h.vendorExt, vendorExtVal_allItems]
  · exact fun hall => hget (by simp [wpsItems, hall])
  · exact fun hall => hget (by simp [wpsItems, hall])
  · exact fun hall => hget (by simp [wpsItems, hall])
  · exact fun hall => hget (by simp [wpsItems, hall])
  · intro hall
    have hname : attr.get .devName = some (wpsString cfg.devName) :=
      hget (by simp [wpsItems, hall])
    have hlen : (wpsString cfg.devName).length < 33 :=
      Nat.lt_succ_of_le (length_wpsString cfg.devName (by decide))
    rw [WpsInfo.ofAttr, hname]
    exact if_pos hlen
  · exact fun hall => hget (by simp [wpsItems, hall])
  · intro hall
    have hmethods : attr.get .configMethods = some (putBe16 cfg.configMethods.toNat) :=
      hget (by simp [wpsItems, hall])
    rw [WpsInfo.ofAttr, hmethods]
    exact hword cfg.configMethods
  · exact fun hall hsec => hget (by simp [wpsItems, hall, hsec])

theorem Layout.Good.returned (hgood : layout.Good cfg) {msg : ParsedIes}
    (hattrs : msg.attrs = (layout.attrs.filterMap known).reverse)
    (hname : msg.deviceName =
      ((msg.attrs.get .deviceInfo).map deviceInfoName).getD msg.wps.deviceName)
    (hwps : ∀ args ∈ layout.wps, WpsReturned cfg layout.wpsRoom args.1 args.2 msg.wps) :
    Returned cfg layout msg := by
  have hget : ∀ r ∈ layout.attrs, ∀ attr, P2pAttr.ofId r.1 = some attr →
      msg.attrs.get attr = some r.2 := by
    intro r hr attr hattr
    have hkept := get_of_mem hgood.nodup hr hattr []
    rwa [List.append_nil, ← hattrs] at hkept
  refine ⟨hget, ?_, hwps⟩
  intro data hdata
  obtain ⟨method, rfl⟩ := hgood.deviceInfo data hdata
  have hinfo : msg.attrs.get .deviceInfo = some (Wire.deviceInfo cfg method) :=
    hget _ hdata .deviceInfo (P2pAttr.ofId_id .deviceInfo)
  rw [hname, hinfo, Option.map_some, Option.getD_some, deviceInfoName_deviceInfo]

theorem Layout.Good.build_eq (hgood : layout.Good cfg) (h : 4 + layout.attrsLen < 256)
    (hwps : ∀ args ∈ layout.wps, 4 + wpsLen cfg layout.wpsRoom args.1 args.2 < 256) :
    layout.build cfg = .ok (layout.header ++ (layout.elements cfg).flatten) := by
  have hp2p : layout.p2pElement.length = 6 + layout.attrsLen := by
    rw [Layout.p2pElement, length_vendorIe, length_attrs]
  have hfits : layout.header.length ≤ layout.size ∧
      layout.header.length + (layout.elements cfg).flatten.length ≤ layout.size := by
    unfold Layout.elements Layout.wpsElement
    rcases hgood.room with hroom | ⟨hnone, hroom⟩
    · cases hlayout : layout.wps with
      | none =>
        split_ifs
        all_goals simp [hp2p]
        all_goals omega
      | some args =>
        have hshort := hwps args hlayout
        rw [← length_wpsData] at hshort
        split_ifs
        all_goals simp [hp2p, length_vendorIe]
        all_goals omega
    · rw [hnone]
      split_ifs
      all_goals simp
      all_goals omega
  rw [Layout.build_eq cfg layout hfits.1, putOctets_of hfits.2]

theorem Layout.Good.roundTrips (hgood : layout.Good cfg) (hfits : Fits cfg layout) :
    RoundTrips cfg layout := by
  have hlt := Layout.records_lt hfits.p2p hfits.wps
  have hattrs := parseIe_attrs hgood.attrOk []
  rw [List.append_nil] at hattrs
  refine ⟨_, hgood.build_eq hfits.p2p hfits.wps, rfl, lengthOctets_iff.mpr ⟨hfits.p2p, hfits.wps⟩,
    ?_⟩
  rw [List.drop_left, Layout.parseIes_elements cfg layout hlt, hattrs]
  cases hlayout : layout.wps with
  | none =>
    refine ⟨_, rfl, hgood.returned rfl rfl ?_⟩
    intro args hargs
    rw [hlayout] at hargs
    cases hargs
  | some args =>
    have hshort := hfits.wps args hlayout
    rw [← length_wpsData] at hshort
    obtain ⟨attr, hparse, htells⟩ := parseMsg_wps cfg layout.wpsRoom args.1 args.2
      (hfits.exts args hlayout) (by omega)
    rw [Option.map_some, parseWpsIe, hparse]
    refine ⟨_, rfl, hgood.returned rfl rfl ?_⟩
    intro args' hargs
    obtain rfl : args = args' := Option.some.inj (hlayout.symm.trans hargs)
    exact wpsReturned_of_tells htells

theorem fits_of_roundTrips (h : RoundTrips cfg layout) : Fits cfg layout := by
  obtain ⟨frame, -, rfl, hoctets, msg, hmsg, hreturned⟩ := h
  obtain ⟨hp2p, hwps⟩ := lengthOctets_iff.mp hoctets
  refine ⟨hp2p, hwps, ?_⟩
  intro args hargs
  have hlayout : layout.wps = some args := hargs
  have hshort := hwps args hargs
  rw [← length_wpsData] at hshort
  rw [List.drop_left, Layout.parseIes_elements cfg layout (Layout.records_lt hp2p hwps), hlayout,
    Option.map_some, Option.getD_some] at hmsg
  cases hparse : Wps.parseMsg (wpsData cfg layout.wpsRoom args.1 args.2) with
  | none =>
    rw [parseWpsIe, hparse] at hmsg
    cases hmsg
  | some attr =>
    rw [parseWpsIe, hparse] at hmsg
    have hkept := vendorExt_of_parseMsg cfg layout.wpsRoom args.1 args.2 (by omega) hparse
    have hinfo : msg.wps = .ofAttr attr := by
      dsimp only [Option.map_some] at hmsg
      cases hattrs : parseIe (layout.attrs.flatMap put) [] with
      | none =>
        rw [hattrs] at hmsg
        cases hmsg
      | some attrs =>
        rw [hattrs] at hmsg
        exact congrArg ParsedIes.wps (Option.some.inj (Except.ok.inj hmsg)).symm
    have hexts := (hreturned.wps args hargs).vendorExt
    rw [hinfo] at hexts
    have hsame := hexts.symm.trans hkept
    intro ext hext
    have hmem := List.filter_eq_self.mp hsame.symm ext hext
    exact of_decide_eq_true hmem

end RoundTrip

/-- **Round trip.** A frame is written, with the right length octets, and parsed again, exactly if
both its elements have at most 255 octets behind their length octet and the vendor extensions in it
are ones of other vendors. -/
theorem roundTrips_iff_fits (cfg : FrameConfig) (frame : SentFrame) :
    RoundTrips cfg (frame.layout cfg) ↔ Fits cfg (frame.layout cfg) :=
  ⟨fits_of_roundTrips, (frame.layout_good cfg).roundTrips⟩

def longText (n : ℕ) : Text n :=
  ⟨List.replicate n 0x61, by rw [List.length_replicate], fun h => by
    have heq := List.eq_of_mem_replicate h
    exact absurd heq (by decide)⟩

/-- A configuration with strings of the greatest lengths, and nothing else that is long. -/
def longStrings : FrameConfig where
  country := ⟨0x55, 0x53, 0x04⟩
  regClass := 81
  channel := 1
  opRegClass := 81
  opChannel := 6
  channels := .single 81 6
  devAddr := 0x020000000001
  intendedAddr := 0x020000000002
  devCapab := 0x25
  goIntent := 7
  crossConnect := false
  intraBss := true
  numGroups := 0
  extListenPeriod := 0
  extListenInterval := 0
  ssid := ⟨wildcardSsid, by decide⟩
  invRole := .go
  invPersistent := false
  invBssid := none
  invSsid := ⟨wildcardSsid, by decide⟩
  uuid := ⟨List.replicate 16 0, by decide⟩
  manufacturer := longText 64
  modelName := longText 32
  modelNumber := longText 32
  serialNumber := longText 32
  devName := longText 32
  configMethods := 0x0188
  priDevType := ⟨[0, 1, 0, 0x50, 0xf2, 4, 0, 1], by decide⟩
  secDevType := []
  vendorExt := []
  secDevType_le := by decide
  vendorExt_le := by decide

theorem long_strings_truncated : ¬ RoundTrips longStrings (SentFrame.probeResp.layout longStrings) := by
  intro h
  have hshort := (fits_of_roundTrips h).wps (0, true) rfl
  have hlong : 256 ≤ 4 + wpsLen longStrings (probeResp longStrings).wpsRoom 0 true := by
    decide +kernel
  exact absurd hshort (Nat.not_lt.mpr hlong)

end Hostapd.P2p.Wire
