import Hostapd.Common.Defs
import Hostapd.Lib.Checked

/-!
# WPS attributes

`wps_attr_parse.c` and the attribute layer of `wps_attr_build.c`: a WPS message is a sequence of
attributes, each a type and a length of two octets in front of its value.

* **`AttrType`**: the attributes the parser knows, with the numbers and the lengths it accepts.
* **`ParseAttr`**: what the parser keeps of a message. The last attribute of a type wins; up to ten
  Credentials, requested device types and vendor extensions are kept.
* **`parseMsg`**: the loop, with its two workarounds: an octet too many after a Network Key, and
  zero octets at the end of a message.
* **`putAttr`**: how an attribute is written.

The build is one without `CONFIG_WPS_STRICT`.
-/

namespace Hostapd.Wps

open Hostapd.Lib

/-! ## The types -/

/-- Source: `WPS_NONCE_LEN`. -/
def nonceLen : ℕ := 16

/-- Source: `WPS_UUID_LEN`. -/
def uuidLen : ℕ := 16

/-- Source: `WPS_HASH_LEN`. -/
def hashLen : ℕ := 32

/-- Source: `WPS_SECRET_NONCE_LEN`. -/
def secretNonceLen : ℕ := 16

/-- Source: `WPS_AUTHENTICATOR_LEN`. -/
def authenticatorLen : ℕ := 8

/-- Source: `WPS_KWA_LEN`. -/
def kwaLen : ℕ := 8

/-- Source: `WPS_DEV_TYPE_LEN`. -/
def devTypeLen : ℕ := 8

/-- Source: `WPS_SEC_DEV_TYPE_MAX_LEN`. -/
def secDevTypeMaxLen : ℕ := 128

/-- Source: `WPS_OOB_DEVICE_PASSWORD_ATTR_LEN`. -/
def oobDevicePasswordAttrLen : ℕ := 54

def ethAlen : ℕ := 6

/-- Source: `WPS_MAX_VENDOR_EXT_LEN`. -/
def maxVendorExtLen : ℕ := 1024

/-- Source: `MAX_CRED_COUNT`, `MAX_REQ_DEV_TYPE_COUNT` and `MAX_WPS_PARSE_VENDOR_EXT`. -/
def maxCount : ℕ := 10

/-- Source: `WPS_VENDOR_ID_WFA`. -/
def vendorIdWfa : ℕ := 14122

/-- The attributes that `wps_set_attr` knows. Source: `enum wps_attribute`. -/
inductive AttrType
  | assocState | authType | authTypeFlags | authenticator | configMethods | configError
  | connTypeFlags | cred | encrType | encrTypeFlags | devName | devPasswordId | eHash1 | eHash2
  | eSnonce1 | eSnonce2 | encrSettings | enrolleeNonce | keyWrapAuth | macAddr | manufacturer
  | msgType | modelName | modelNumber | networkIndex | networkKey | networkKeyIndex
  | oobDevicePassword | osVersion | publicKey | registrarNonce | requestType | responseType
  | rfBands | rHash1 | rHash2 | rSnonce1 | rSnonce2 | selectedRegistrar | serialNumber | wpsState
  | ssid | uuidE | uuidR | vendorExt | version | eapIdentity | selectedRegistrarConfigMethods
  | primaryDevType | secondaryDevTypeList | apSetupLocked | eapType | keyProvidedAuto
  | dot1xEnabled | requestedDevType
  deriving DecidableEq

/-- The attributes with their numbers. Source: `enum wps_attribute`. -/
def AttrType.table : List (ℕ × AttrType) :=
  [(0x1002, .assocState), (0x1003, .authType), (0x1004, .authTypeFlags), (0x1005, .authenticator),
    (0x1008, .configMethods), (0x1009, .configError), (0x100d, .connTypeFlags), (0x100e, .cred),
    (0x100f, .encrType), (0x1010, .encrTypeFlags), (0x1011, .devName), (0x1012, .devPasswordId),
    (0x1014, .eHash1), (0x1015, .eHash2), (0x1016, .eSnonce1), (0x1017, .eSnonce2),
    (0x1018, .encrSettings), (0x101a, .enrolleeNonce), (0x101e, .keyWrapAuth), (0x1020, .macAddr),
    (0x1021, .manufacturer), (0x1022, .msgType), (0x1023, .modelName), (0x1024, .modelNumber),
    (0x1026, .networkIndex), (0x1027, .networkKey), (0x1028, .networkKeyIndex),
    (0x102c, .oobDevicePassword), (0x102d, .osVersion), (0x1032, .publicKey),
    (0x1039, .registrarNonce), (0x103a, .requestType), (0x103b, .responseType), (0x103c, .rfBands),
    (0x103d, .rHash1), (0x103e, .rHash2), (0x103f, .rSnonce1), (0x1040, .rSnonce2),
    (0x1041, .selectedRegistrar), (0x1042, .serialNumber), (0x1044, .wpsState), (0x1045, .ssid),
    (0x1047, .uuidE), (0x1048, .uuidR), (0x1049, .vendorExt), (0x104a, .version),
    (0x104d, .eapIdentity), (0x1053, .selectedRegistrarConfigMethods), (0x1054, .primaryDevType),
    (0x1055, .secondaryDevTypeList), (0x1057, .apSetupLocked), (0x1059, .eapType),
    (0x1061, .keyProvidedAuto), (0x1062, .dot1xEnabled), (0x106a, .requestedDevType)]

def AttrType.ofCode (code : ℕ) : Option AttrType := table.lookup code

def AttrType.code (type : AttrType) : ℕ :=
  ((table.find? fun entry => entry.2 = type).map Prod.fst).getD 0

/-- The length that an attribute must have; `none` where any length is accepted.
Source: the checks of `wps_set_attr`. -/
def AttrType.fixedLen : AttrType → Option ℕ
  | .version | .msgType | .connTypeFlags | .rfBands | .wpsState | .networkIndex | .networkKeyIndex
  | .keyProvidedAuto | .dot1xEnabled | .selectedRegistrar | .requestType | .responseType
  | .apSetupLocked => some 1
  | .authTypeFlags | .encrTypeFlags | .configMethods | .selectedRegistrarConfigMethods
  | .assocState | .configError | .devPasswordId | .authType | .encrType => some 2
  | .osVersion => some 4
  | .macAddr => some ethAlen
  | .enrolleeNonce | .registrarNonce => some nonceLen
  | .uuidE | .uuidR => some uuidLen
  | .primaryDevType | .requestedDevType => some devTypeLen
  | .authenticator => some authenticatorLen
  | .keyWrapAuth => some kwaLen
  | .rHash1 | .rHash2 | .eHash1 | .eHash2 => some hashLen
  | .rSnonce1 | .rSnonce2 | .eSnonce1 | .eSnonce2 => some secretNonceLen
  | .oobDevicePassword => some oobDevicePasswordAttrLen
  | .manufacturer | .modelName | .modelNumber | .serialNumber | .devName | .publicKey
  | .encrSettings | .cred | .ssid | .networkKey | .eapType | .eapIdentity | .secondaryDevTypeList
  | .vendorExt => none

/-! ## What the parser keeps -/

/-- A value with its offset in the message, as a pointer into the message tells it. -/
structure Field where
  pos : ℕ
  val : Bytes
  deriving DecidableEq

/-- The parsed attributes: the single ones and the subelements of the WFA extension with the latest
in front, the others in their order. Source: `struct wps_parse_attr`. -/
structure ParseAttr where
  fields : List (AttrType × Field)
  wfa : List (UInt8 × Bytes)
  cred : List Bytes
  reqDevType : List Bytes
  vendorExt : List Bytes
  deriving DecidableEq

def ParseAttr.empty : ParseAttr := ⟨[], [], [], [], []⟩

/-- The attribute of a type as the source points at it. -/
def ParseAttr.field (attr : ParseAttr) (type : AttrType) : Option Field := attr.fields.lookup type

def ParseAttr.get (attr : ParseAttr) (type : AttrType) : Option Bytes :=
  (attr.field type).map Field.val

/-! ## The parser -/

/-- One subelement of the WFA extension. Source: `wps_set_vendor_ext_wfa_subelem`. -/
def setVendorExtWfaSubelem (attr : ParseAttr) (id : UInt8) (val : Bytes) : Option ParseAttr :=
  -- Version2, Network Key Shareable, Request to Enroll and Settings Delay Time
  if id ∈ [0, 2, 3, 4] then
    if val.length = 1 then some { attr with wfa := (id, val) :: attr.wfa } else none
  -- AuthorizedMACs
  else if id = 1 then some { attr with wfa := (id, val) :: attr.wfa }
  else some attr

/-- The subelements of the WFA extension. Source: `wps_parse_vendor_ext_wfa`. -/
def parseVendorExtWfa : ℕ → ParseAttr → Bytes → Option ParseAttr
  | 0, attr, _ => some attr
  | fuel + 1, attr, ext =>
    match ext with
    | id :: elen :: c :: rest =>
      if (c :: rest).length < elen.toNat then some attr
      else
        match setVendorExtWfaSubelem attr id ((c :: rest).take elen.toNat) with
        | none => none
        | some attr => parseVendorExtWfa fuel attr ((c :: rest).drop elen.toNat)
    | _ => some attr

/-- Source: `wps_parse_vendor_ext`. -/
def parseVendorExt (attr : ParseAttr) (val : Bytes) : Option ParseAttr :=
  if val.length < 3 then some attr
  else if beNat (val.take 3) = vendorIdWfa then parseVendorExtWfa val.length attr (val.drop 3)
  else if maxVendorExtLen < val.length then none
  else if maxCount ≤ attr.vendorExt.length then none
  else some { attr with vendorExt := attr.vendorExt ++ [val] }

/-- Keep one attribute. Source: `wps_set_attr`. -/
def setAttr (attr : ParseAttr) (code : ℕ) (pos : ℕ) (val : Bytes) : Option ParseAttr :=
  match AttrType.ofCode code with
  | none => some attr
  | some type =>
    if ∃ len ∈ type.fixedLen, val.length ≠ len then none
    else
      match type with
      | .cred =>
        if maxCount ≤ attr.cred.length then some attr
        else some { attr with cred := attr.cred ++ [val] }
      | .requestedDevType =>
        if maxCount ≤ attr.reqDevType.length then some attr
        else some { attr with reqDevType := attr.reqDevType ++ [val] }
      | .secondaryDevTypeList =>
        if secDevTypeMaxLen < val.length ∨ 0 < val.length % devTypeLen then none
        else some { attr with fields := (type, ⟨pos, val⟩) :: attr.fields }
      | .vendorExt => parseVendorExt attr val
      | _ => some { attr with fields := (type, ⟨pos, val⟩) :: attr.fields }

/-- The loop of `wps_parse_msg` over what is left of the message from the offset `pos` on;
`prevType` is the number of the attribute before. -/
def parseLoop : ℕ → ParseAttr → ℕ → ℕ → Bytes → Option ParseAttr
  | 0, attr, _, _, rest => if rest = [] then some attr else none
  | fuel + 1, attr, prevType, pos, rest =>
    if rest = [] then some attr
    else if rest.length < 4 then none
    else
      let type := be16 rest
      let len := be16 (rest.drop 2)
      let val := rest.drop 4
      if val.length < len then
        -- skip an unexpected octet after a Network Key
        if type / 256 ≠ 0x10 ∧ prevType = AttrType.code .networkKey then
          parseLoop fuel attr prevType (pos + 1) (rest.drop 1)
        else none
      -- skip unexpected padding
      else if type = 0 ∧ len = 0 ∧ val.all (· = 0) then some attr
      else
        match setAttr attr type (pos + 4) (val.take len) with
        | none => none
        | some attr => parseLoop fuel attr type (pos + 4 + len) (val.drop len)

/-- Source: `wps_parse_msg`. -/
def parseMsg (msg : Bytes) : Option ParseAttr := parseLoop msg.length .empty 0 0 msg

/-! ## Writing attributes -/

def putAttr (type : AttrType) (val : Bytes) : Bytes :=
  putBe16 type.code ++ putBe16 val.length ++ val

/-!
## The pointers that the WPS parser stores

`wps_parse_msg` copies nothing: what it keeps of a message are pointers into it, with lengths where
the type does not give them. `Attr.lean` has the values they point at. Here is the parser with the
pointers themselves, every read compared with the message, and the loops as the source runs them:
each one is a total function because its position goes forward, on the way back after a Network Key
too.

* **`PtrAttr`**: the pointers, with their values in a message (`PtrAttr.deref`).
* **`scanMsg`**: the parser; what it has stored is there whether it succeeds or not.
* **`scanMsg_inside`**: for every message it returns, with every pointer inside the message, and its
  values are those of `parseMsg`.
-/

/-! ### Pointers -/

/-- A pointer into a message, as an offset, with the length of what it points at. -/
structure Ptr where
  pos : ℕ
  len : ℕ
  deriving DecidableEq

def Ptr.deref (msg : Bytes) (p : Ptr) : Bytes := (msg.drop p.pos).take p.len

def Ptr.Inside (msg : Bytes) (p : Ptr) : Prop := p.pos + p.len ≤ msg.length

/-- The parsed attributes, in the order of `ParseAttr`. Source: `struct wps_parse_attr`. -/
structure PtrAttr where
  fields : List (AttrType × Ptr)
  wfa : List (UInt8 × Ptr)
  cred : List Ptr
  reqDevType : List Ptr
  vendorExt : List Ptr
  deriving DecidableEq

def PtrAttr.empty : PtrAttr := ⟨[], [], [], [], []⟩

def PtrAttr.pointers (attr : PtrAttr) : List Ptr :=
  attr.fields.map Prod.snd ++ attr.wfa.map Prod.snd ++ attr.cred ++ attr.reqDevType ++
    attr.vendorExt

/-- Every pointer that is stored lies in a message. -/
def PtrAttr.Inside (msg : Bytes) (attr : PtrAttr) : Prop := ∀ p ∈ attr.pointers, p.Inside msg

def PtrAttr.deref (msg : Bytes) (attr : PtrAttr) : ParseAttr where
  fields := attr.fields.map fun entry => (entry.1, ⟨entry.2.pos, entry.2.deref msg⟩)
  wfa := attr.wfa.map fun entry => (entry.1, entry.2.deref msg)
  cred := attr.cred.map (Ptr.deref msg)
  reqDevType := attr.reqDevType.map (Ptr.deref msg)
  vendorExt := attr.vendorExt.map (Ptr.deref msg)

/-! ### The parser -/

/-- A word in network order at an offset. Source: `WPA_GET_BE16`. -/
def rdBe16 (msg : Bytes) (pos : ℕ) : Except Stop ℕ := do
  let hi ← rd8 msg pos
  let lo ← rd8 msg (pos + 1)
  return hi.toNat * 256 + lo.toNat

/-- Store one subelement of the WFA extension. Source: `wps_set_vendor_ext_wfa_subelem`. -/
def storeWfaSubelem (attr : PtrAttr) (id : UInt8) (p : Ptr) : Bool × PtrAttr :=
  -- Version2, Network Key Shareable, Request to Enroll and Settings Delay Time
  if id ∈ [0, 2, 3, 4] then
    if p.len = 1 then (true, { attr with wfa := (id, p) :: attr.wfa }) else (false, attr)
  -- AuthorizedMACs
  else if id = 1 then (true, { attr with wfa := (id, p) :: attr.wfa })
  else (true, attr)

/-- The loop over the subelements of the WFA extension, up to its end.
Source: `wps_parse_vendor_ext_wfa`. -/
def scanWfa (msg : Bytes) (stop : ℕ) (attr : PtrAttr) (pos : ℕ) : Except Stop (Bool × PtrAttr) :=
  if pos + 2 < stop then do
    let id ← rd8 msg pos
    let elen ← rd8 msg (pos + 1)
    if stop < pos + 2 + elen.toNat then return (true, attr)
    else
      match storeWfaSubelem attr id ⟨pos + 2, elen.toNat⟩ with
      | (false, attr) => return (false, attr)
      | (true, attr) => scanWfa msg stop attr (pos + 2 + elen.toNat)
  else return (true, attr)
termination_by stop - pos

/-- Source: `wps_parse_vendor_ext`. -/
def scanVendorExt (msg : Bytes) (attr : PtrAttr) (p : Ptr) : Except Stop (Bool × PtrAttr) :=
  if p.len < 3 then return (true, attr)
  else do
    let vendorId ← rdBe24 msg p.pos
    if vendorId = vendorIdWfa then scanWfa msg (p.pos + p.len) attr (p.pos + 3)
    else if maxVendorExtLen < p.len then return (false, attr)
    else if maxCount ≤ attr.vendorExt.length then return (false, attr)
    else return (true, { attr with vendorExt := attr.vendorExt ++ [p] })

/-- Store one attribute. Source: `wps_set_attr`. -/
def storeAttr (msg : Bytes) (attr : PtrAttr) (code : ℕ) (p : Ptr) : Except Stop (Bool × PtrAttr) :=
  match AttrType.ofCode code with
  | none => return (true, attr)
  | some type =>
    if ∃ len ∈ type.fixedLen, p.len ≠ len then return (false, attr)
    else
      match type with
      | .cred =>
        if maxCount ≤ attr.cred.length then return (true, attr)
        else return (true, { attr with cred := attr.cred ++ [p] })
      | .requestedDevType =>
        if maxCount ≤ attr.reqDevType.length then return (true, attr)
        else return (true, { attr with reqDevType := attr.reqDevType ++ [p] })
      | .secondaryDevTypeList =>
        if secDevTypeMaxLen < p.len ∨ 0 < p.len % devTypeLen then return (false, attr)
        else return (true, { attr with fields := (type, p) :: attr.fields })
      | .vendorExt => scanVendorExt msg attr p
      | _ => return (true, { attr with fields := (type, p) :: attr.fields })

/-- There is nothing but zeros from an offset on. Source: `wps_parse_msg`, the loop over the
padding. -/
def zerosFrom (msg : Bytes) (pos : ℕ) : Except Stop Bool :=
  if pos < msg.length then do
    let b ← rd8 msg pos
    if b = 0 then zerosFrom msg (pos + 1) else return false
  else return true
termination_by msg.length - pos

/-- The loop of `wps_parse_msg` from an offset on; `prevType` is the number of the attribute before.
-/
def scanLoop (msg : Bytes) (attr : PtrAttr) (prevType pos : ℕ) : Except Stop (Bool × PtrAttr) :=
  if pos < msg.length then
    if msg.length - pos < 4 then return (false, attr)
    else do
      let type ← rdBe16 msg pos
      let len ← rdBe16 msg (pos + 2)
      if msg.length - (pos + 4) < len then
        -- `pos -= 3` behind the header: skip an unexpected octet after a Network Key
        if type / 256 ≠ 0x10 ∧ prevType = AttrType.code .networkKey then
          scanLoop msg attr prevType (pos + 4 - 3)
        else return (false, attr)
      else do
        let padding ← (if type = 0 ∧ len = 0 then zerosFrom msg (pos + 4) else return false)
        if padding then return (true, attr)
        else
          match ← storeAttr msg attr type ⟨pos + 4, len⟩ with
          | (false, attr) => return (false, attr)
          | (true, attr) => scanLoop msg attr type (pos + 4 + len)
  else return (true, attr)
termination_by msg.length - pos

/-- Source: `wps_parse_msg`. -/
def scanMsg (msg : Bytes) : Except Stop (Bool × PtrAttr) := scanLoop msg .empty 0 0

/-! ### The values are those of the parser -/

/-- A part of the parser returns, stores pointers into the message only, and has stored the values
that the parser of `Attr.lean` keeps, unless it fails as this one does. -/
def Follows (msg : Bytes) (x : Except Stop (Bool × PtrAttr)) (y : Option ParseAttr) : Prop :=
  ∃ ok attr, x = .ok (ok, attr) ∧ attr.Inside msg ∧
    y = if ok then some (attr.deref msg) else none

variable {msg : Bytes} {attr : PtrAttr}

theorem PtrAttr.Inside.succeeds (h : attr.Inside msg) :
    Follows msg (.ok (true, attr)) (some (attr.deref msg)) := ⟨true, attr, rfl, h, rfl⟩

theorem PtrAttr.Inside.fails (h : attr.Inside msg) : Follows msg (.ok (false, attr)) none :=
  ⟨false, attr, rfl, h, rfl⟩

variable {p : Ptr}

theorem Ptr.Inside.length_deref (h : p.Inside msg) : (p.deref msg).length = p.len := by
  unfold Ptr.Inside at h
  rw [deref, List.length_take, List.length_drop]
  omega

theorem PtrAttr.Inside.add (h : attr.Inside msg) (hp : p.Inside msg) {attr' : PtrAttr}
    (hadd : ∀ q ∈ attr'.pointers, q = p ∨ q ∈ attr.pointers) : attr'.Inside msg := by
  intro q hq
  rcases hadd q hq with rfl | hold
  · exact hp
  · exact h q hold

theorem PtrAttr.Inside.addField (h : attr.Inside msg) (hp : p.Inside msg)
    (type : AttrType) : PtrAttr.Inside msg { attr with fields := (type, p) :: attr.fields } :=
  h.add hp fun q hq => by simpa [pointers] using hq

theorem PtrAttr.Inside.addWfa (h : attr.Inside msg) (hp : p.Inside msg) (id : UInt8) :
    PtrAttr.Inside msg { attr with wfa := (id, p) :: attr.wfa } := by
  refine h.add hp fun q hq => ?_
  simp only [pointers, List.map_cons, List.mem_append, List.mem_cons] at hq ⊢
  tauto

theorem storeWfaSubelem_follows (h : attr.Inside msg) (hp : p.Inside msg) (id : UInt8) :
    Follows msg (.ok (storeWfaSubelem attr id p))
      (setVendorExtWfaSubelem (attr.deref msg) id (p.deref msg)) := by
  rw [storeWfaSubelem, setVendorExtWfaSubelem, hp.length_deref]
  split
  · split
    · exact (h.addWfa hp id).succeeds
    · exact h.fails
  · split
    · exact (h.addWfa hp id).succeeds
    · exact h.succeeds

theorem between_eq_cons {pos stop : ℕ} (hpos : pos < stop) (hstop : stop ≤ msg.length) :
    (msg.take stop).drop pos = msg[pos] :: (msg.take stop).drop (pos + 1) := by
  have hlen : pos < (msg.take stop).length := by
    rw [List.length_take]
    omega
  rw [List.drop_eq_getElem_cons hlen, List.getElem_take]

theorem take_between {pos len stop : ℕ} (h : pos + len ≤ stop) :
    ((msg.take stop).drop pos).take len = Ptr.deref msg ⟨pos, len⟩ := by
  rw [Ptr.deref, List.drop_take, List.take_take, Nat.min_eq_left (by omega)]

theorem parseVendorExtWfa_short {fuel : ℕ} {attr : ParseAttr} {ext : Bytes} (h : ext.length < 3) :
    parseVendorExtWfa fuel attr ext = some attr := by
  cases fuel with
  | zero => rfl
  | succ fuel =>
    unfold parseVendorExtWfa
    split
    · simp only [List.length_cons] at h
      omega
    · rfl

theorem scanWfa_follows {stop : ℕ} (hstop : stop ≤ msg.length) {fuel : ℕ} (h : attr.Inside msg)
    {pos : ℕ} (hfuel : stop - pos ≤ fuel) :
    Follows msg (scanWfa msg stop attr pos)
      (parseVendorExtWfa fuel (attr.deref msg) ((msg.take stop).drop pos)) := by
  induction fuel generalizing attr pos with
  | zero =>
    rw [scanWfa, if_neg (by omega)]
    exact h.succeeds
  | succ fuel ih =>
    rw [scanWfa]
    by_cases hmore : pos + 2 < stop
    · have hrest : (msg.take stop).drop (pos + 2) =
          msg[pos + 2] :: (msg.take stop).drop (pos + 3) := between_eq_cons hmore hstop
      have hlen : (msg[pos + 2] :: (msg.take stop).drop (pos + 3)).length = stop - (pos + 2) := by
        rw [← hrest, List.length_drop, List.length_take_of_le hstop]
      rw [if_pos hmore, rd8_of (by omega), ok_bind, rd8_of (by omega), ok_bind,
        between_eq_cons (by omega) hstop, between_eq_cons (by omega) hstop, hrest,
        parseVendorExtWfa, hlen]
      by_cases hfits : stop < pos + 2 + msg[pos + 1].toNat
      · rw [if_pos hfits, if_pos (by omega)]
        exact h.succeeds
      · rw [if_neg hfits, if_neg (by omega), ← hrest]
        have hp : Ptr.Inside msg ⟨pos + 2, msg[pos + 1].toNat⟩ := by
          show pos + 2 + msg[pos + 1].toNat ≤ msg.length
          omega
        have hval : ((msg.take stop).drop (pos + 2)).take msg[pos + 1].toNat =
            Ptr.deref msg ⟨pos + 2, msg[pos + 1].toNat⟩ :=
          take_between (Nat.le_of_not_lt hfits)
        obtain ⟨ok, attr', hstore, hinside, hset⟩ := storeWfaSubelem_follows h hp msg[pos]
        rw [hval, hset, Except.ok.inj hstore, List.drop_drop]
        cases ok with
        | false => exact hinside.fails
        | true => exact ih hinside (by omega)
    · rw [if_neg hmore]
      have hshort : ((msg.take stop).drop pos).length < 3 := by
        rw [List.length_drop, List.length_take]
        omega
      rw [parseVendorExtWfa_short hshort]
      exact h.succeeds

theorem rdBe24_eq {pos : ℕ} (h : pos + 3 ≤ msg.length) :
    rdBe24 msg pos = .ok (beNat ((msg.drop pos).take 3)) := by
  have hthree : (msg.drop pos).take 3 = [msg[pos], msg[pos + 1], msg[pos + 2]] := by
    rw [List.drop_eq_getElem_cons (by omega), List.drop_eq_getElem_cons (by omega),
      List.drop_eq_getElem_cons (by omega)]
    rfl
  rw [rdBe24, rd8_of (by omega), ok_bind, rd8_of (by omega), ok_bind, rd8_of (by omega), ok_bind,
    hthree]
  simp [beNat, pure, Except.pure]
  omega

theorem rdBe16_eq {pos : ℕ} (h : pos + 2 ≤ msg.length) :
    rdBe16 msg pos = .ok (be16 (msg.drop pos)) := by
  rw [rdBe16, rd8_of (by omega), ok_bind, rd8_of (by omega), ok_bind,
    List.drop_eq_getElem_cons (by omega), List.drop_eq_getElem_cons (by omega)]
  rfl

theorem scanVendorExt_follows (h : attr.Inside msg) (hp : p.Inside msg) :
    Follows msg (scanVendorExt msg attr p) (parseVendorExt (attr.deref msg) (p.deref msg)) := by
  have hend : p.pos + p.len ≤ msg.length := hp
  rw [scanVendorExt, parseVendorExt, hp.length_deref]
  by_cases hshort : p.len < 3
  · rw [if_pos hshort, if_pos hshort]
    exact h.succeeds
  · have hid : (p.deref msg).take 3 = (msg.drop p.pos).take 3 := by
      rw [Ptr.deref, List.take_take, Nat.min_eq_left (by omega)]
    have hrest : (p.deref msg).drop 3 = (msg.take (p.pos + p.len)).drop (p.pos + 3) := by
      rw [Ptr.deref, List.drop_take, List.drop_drop, List.drop_take]
      congr 1
      omega
    rw [if_neg hshort, if_neg hshort, rdBe24_eq (by omega), ok_bind, hid, hrest]
    split
    · exact scanWfa_follows hend h (by omega)
    · split
      · exact h.fails
      · have hcount : (attr.deref msg).vendorExt.length = attr.vendorExt.length := List.length_map _
        rw [hcount]
        split
        · exact h.fails
        · have hinside : PtrAttr.Inside msg { attr with vendorExt := attr.vendorExt ++ [p] } := by
            refine h.add hp fun q hq => ?_
            simp only [PtrAttr.pointers, List.mem_append, List.mem_singleton] at hq ⊢
            tauto
          have hmore := hinside.succeeds
          simp only [PtrAttr.deref, List.map_append, List.map_cons, List.map_nil] at hmore
          exact hmore

theorem storeAttr_follows (h : attr.Inside msg) (hp : p.Inside msg) (code : ℕ) :
    Follows msg (storeAttr msg attr code p)
      (setAttr (attr.deref msg) code p.pos (p.deref msg)) := by
  have hfield : ∀ type, Follows msg (.ok (true, { attr with fields := (type, p) :: attr.fields }))
      (some { attr.deref msg with
        fields := (type, ⟨p.pos, p.deref msg⟩) :: (attr.deref msg).fields }) :=
    fun type => (h.addField hp type).succeeds
  have hcred : PtrAttr.Inside msg { attr with cred := attr.cred ++ [p] } := by
    refine h.add hp fun q hq => ?_
    simp only [PtrAttr.pointers, List.mem_append, List.mem_singleton] at hq ⊢
    tauto
  have hreq : PtrAttr.Inside msg { attr with reqDevType := attr.reqDevType ++ [p] } := by
    refine h.add hp fun q hq => ?_
    simp only [PtrAttr.pointers, List.mem_append, List.mem_singleton] at hq ⊢
    tauto
  have hcredCount : (attr.deref msg).cred.length = attr.cred.length := List.length_map _
  have hreqCount : (attr.deref msg).reqDevType.length = attr.reqDevType.length := List.length_map _
  rw [storeAttr, setAttr]
  cases AttrType.ofCode code with
  | none => exact h.succeeds
  | some type =>
    simp only [hp.length_deref, hcredCount, hreqCount]
    by_cases hfixed : ∃ len ∈ type.fixedLen, p.len ≠ len
    · rw [if_pos hfixed, if_pos hfixed]
      exact h.fails
    · rw [if_neg hfixed, if_neg hfixed]
      cases type with
      | cred =>
        by_cases hcount : maxCount ≤ attr.cred.length
        · rw [if_pos hcount, if_pos hcount]
          exact h.succeeds
        · rw [if_neg hcount, if_neg hcount]
          have hmore := hcred.succeeds
          simp only [PtrAttr.deref, List.map_append, List.map_cons, List.map_nil] at hmore
          exact hmore
      | requestedDevType =>
        by_cases hcount : maxCount ≤ attr.reqDevType.length
        · rw [if_pos hcount, if_pos hcount]
          exact h.succeeds
        · rw [if_neg hcount, if_neg hcount]
          have hmore := hreq.succeeds
          simp only [PtrAttr.deref, List.map_append, List.map_cons, List.map_nil] at hmore
          exact hmore
      | secondaryDevTypeList =>
        by_cases hlen : secDevTypeMaxLen < p.len ∨ 0 < p.len % devTypeLen
        · rw [if_pos hlen, if_pos hlen]
          exact h.fails
        · rw [if_neg hlen, if_neg hlen]
          exact hfield _
      | vendorExt => exact scanVendorExt_follows h hp
      | _ => exact hfield _

theorem zerosFrom_eq {pos n : ℕ} (hn : msg.length - pos ≤ n) :
    zerosFrom msg pos = .ok ((msg.drop pos).all (· = 0)) := by
  induction n generalizing pos with
  | zero =>
    rw [zerosFrom, if_neg (by omega), List.drop_eq_nil_of_le (by omega)]
    rfl
  | succ n ih =>
    rw [zerosFrom]
    by_cases hpos : pos < msg.length
    · rw [if_pos hpos, rd8_of hpos, ok_bind, List.drop_eq_getElem_cons hpos, List.all_cons]
      by_cases hzero : msg[pos] = 0
      · rw [if_pos hzero, ih (by omega), hzero]
        simp
      · rw [if_neg hzero]
        simp [hzero, pure, Except.pure]
    · rw [if_neg hpos, List.drop_eq_nil_of_le (by omega)]
      rfl

/-- From every place of a message the loop returns; `fuel` is what `parseLoop` needs from there. -/
theorem scanLoop_follows {fuel : ℕ} (h : attr.Inside msg) {prevType pos : ℕ}
    (hpos : pos ≤ msg.length) (hfuel : msg.length - pos ≤ fuel) :
    Follows msg (scanLoop msg attr prevType pos)
      (parseLoop fuel (attr.deref msg) prevType pos (msg.drop pos)) := by
  induction fuel generalizing attr prevType pos with
  | zero =>
    have hend : msg.drop pos = [] := List.drop_eq_nil_of_le (by omega)
    rw [scanLoop, if_neg (by omega), parseLoop, if_pos hend]
    exact h.succeeds
  | succ fuel ih =>
    rw [scanLoop, parseLoop]
    by_cases hmore : pos < msg.length
    · have hne : msg.drop pos ≠ [] := by
        rw [Ne, List.drop_eq_nil_iff]
        omega
      rw [if_pos hmore, if_neg hne, List.length_drop]
      by_cases hshort : msg.length - pos < 4
      · rw [if_pos hshort, if_pos hshort]
        exact h.fails
      · rw [if_neg hshort, if_neg hshort, rdBe16_eq (by omega), ok_bind, rdBe16_eq (by omega),
          ok_bind]
        simp only [List.drop_drop, List.length_drop]
        by_cases hlong : msg.length - (pos + 4) < be16 (msg.drop (pos + 2))
        · rw [if_pos hlong, if_pos hlong]
          split
          · exact ih h (by omega) (by omega)
          · exact h.fails
        · rw [if_neg hlong, if_neg hlong]
          generalize htype : be16 (msg.drop pos) = type
          generalize hlen : be16 (msg.drop (pos + 2)) = len at hlong ⊢
          have hp : Ptr.Inside msg ⟨pos + 4, len⟩ := by
            show pos + 4 + len ≤ msg.length
            omega
          have hpadding : (if type = 0 ∧ len = 0 then zerosFrom msg (pos + 4) else
              (pure false : Except Stop Bool)) =
                .ok (decide (type = 0 ∧ len = 0 ∧ (msg.drop (pos + 4)).all (· = 0))) := by
            by_cases hzero : type = 0 ∧ len = 0
            · rw [if_pos hzero, zerosFrom_eq (Nat.le_refl _)]
              simp only [hzero, true_and, Bool.decide_eq_true]
            · rw [if_neg hzero]
              simp only [← and_assoc, hzero, false_and]
              rfl
          rw [hpadding, ok_bind]
          by_cases hpad : type = 0 ∧ len = 0 ∧ (msg.drop (pos + 4)).all (· = 0)
          · rw [if_pos hpad, if_pos (decide_eq_true hpad)]
            exact h.succeeds
          · obtain ⟨ok, attr', hstore, hinside, hset⟩ := storeAttr_follows h hp type
            have hval : (msg.drop (pos + 4)).take len = Ptr.deref msg ⟨pos + 4, len⟩ := rfl
            rw [if_neg hpad, if_neg (by simpa using hpad), hval, hset, hstore, ok_bind]
            cases ok with
            | false => exact hinside.fails
            | true => exact ih hinside (by omega) (by omega)
    · have hend : msg.drop pos = [] := List.drop_eq_nil_of_le (by omega)
      rw [if_neg hmore, if_pos hend]
      exact h.succeeds

/-- For every message the parser returns, with every pointer inside the message, and the values that
are pointed at are those of `parseMsg`. -/
theorem scanMsg_inside (msg : Bytes) : ∃ ok attr, scanMsg msg = .ok (ok, attr) ∧
    attr.Inside msg ∧ parseMsg msg = if ok then some (attr.deref msg) else none := by
  have hempty : PtrAttr.empty.Inside msg := fun p hp => nomatch hp
  exact scanLoop_follows hempty (Nat.zero_le _) (Nat.le_refl _)

end Hostapd.Wps
