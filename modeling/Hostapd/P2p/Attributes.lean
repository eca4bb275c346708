import Hostapd.P2p.Device

/-!
# P2P attributes as octets

The parser of the P2P IE (`p2p_parse.c`) and the writers that a group uses (`p2p_build.c`).

* **`vendorIeConcat`** puts the P2P IEs of a frame together.
* `putAttr` writes an attribute. **`parseIe_putAttr`**: what is written is parsed, and the loop goes
  on behind it.
* **`parseClientTail_of_ok`**: the parser of Group Info accepts the end of every Device Info that
  `parseAttribute` accepts.
-/

namespace Hostapd.P2p

open Hostapd.Lib

/-! ## What the parser keeps -/

/-- The attributes that `p2p_parse_attribute` knows. -/
inductive P2pAttr
  | status | minorReasonCode | capability | deviceId | groupOwnerIntent | configurationTimeout
  | listenChannel | groupBssid | extListenTiming | intendedInterfaceAddr | manageability
  | channelList | noticeOfAbsence | deviceInfo | groupInfo | groupId | operatingChannel
  | invitationFlags
  deriving DecidableEq

/-- Source: `enum p2p_attr_id`. -/
def P2pAttr.id : P2pAttr → UInt8
  | .status => 0
  | .minorReasonCode => 1
  | .capability => 2
  | .deviceId => 3
  | .groupOwnerIntent => 4
  | .configurationTimeout => 5
  | .listenChannel => 6
  | .groupBssid => 7
  | .extListenTiming => 8
  | .intendedInterfaceAddr => 9
  | .manageability => 10
  | .channelList => 11
  | .noticeOfAbsence => 12
  | .deviceInfo => 13
  | .groupInfo => 14
  | .groupId => 15
  | .operatingChannel => 17
  | .invitationFlags => 18

def P2pAttr.all : List P2pAttr :=
  [.status, .minorReasonCode, .capability, .deviceId, .groupOwnerIntent, .configurationTimeout,
    .listenChannel, .groupBssid, .extListenTiming, .intendedInterfaceAddr, .manageability,
    .channelList, .noticeOfAbsence, .deviceInfo, .groupInfo, .groupId, .operatingChannel,
    .invitationFlags]

def P2pAttr.ofId (id : UInt8) : Option P2pAttr := P2pAttr.all.find? fun attr => attr.id = id

theorem P2pAttr.ofId_id (attr : P2pAttr) : P2pAttr.ofId attr.id = some attr := by
  cases attr <;> rfl

/-- The octets that an attribute has at least. Source: the checks of `p2p_parse_attribute`. -/
def P2pAttr.minLen : P2pAttr → ℕ
  | .groupInfo => 0
  | .status | .minorReasonCode | .groupOwnerIntent | .manageability | .invitationFlags => 1
  | .capability | .configurationTimeout | .noticeOfAbsence => 2
  | .channelList => 3
  | .extListenTiming => 4
  | .listenChannel | .operatingChannel => 5
  | .deviceId | .groupBssid | .intendedInterfaceAddr | .groupId => 6
  | .deviceInfo => 17

/-- The data of the attributes that have been parsed, the latest in front, as the pointers of
`struct p2p_message` tell it. -/
abbrev ParsedIe := List (P2pAttr × Bytes)

def ParsedIe.get (msg : ParsedIe) (attr : P2pAttr) : Option Bytes := List.lookup attr msg

/-! ## The parser -/

/-- The end of a Device Info attribute, from the number of secondary device types on. -/
def deviceInfoTailOk : Bytes → Bool
  | [] => false
  | num :: t =>
    if t.length < 8 * num.toNat then false
    else
      let name := t.drop (8 * num.toNat)
      if name.length < 4 then false
      else if name.take 2 ≠ attrDevName then false
      else
        let nlen := beNat ((name.drop 2).take 2)
        if (name.drop 4).length < nlen ∨ 32 < nlen then false else true

/-- Source: the case `P2P_ATTR_DEVICE_INFO` of `p2p_parse_attribute`. -/
def deviceInfoOk (data : Bytes) : Bool :=
  if data.length < P2pAttr.minLen .deviceInfo then false else deviceInfoTailOk (data.drop 16)

/-- Source: `p2p_parse_attribute`. -/
def parseAttribute (id : UInt8) (data : Bytes) (msg : ParsedIe) : Option ParsedIe :=
  match P2pAttr.ofId id with
  -- an unknown attribute is skipped
  | none => some msg
  | some attr =>
    -- a null channel is ignored
    if data = [] ∧ (attr = .listenChannel ∨ attr = .operatingChannel) then some msg
    else if data.length < attr.minLen then none
    else if attr = .groupId ∧ 6 + 32 < data.length then none
    else if attr = .deviceInfo ∧ deviceInfoOk data = false then none
    else some ((attr, data) :: msg)

/-- The loop of `p2p_parse_p2p_ie` over what is left of the IE. -/
def parseLoop : ℕ → Bytes → ParsedIe → Option ParsedIe
  | 0, rest, msg => if rest = [] then some msg else none
  | fuel + 1, rest, msg =>
    match rest with
    | [] => some msg
    | id :: rest =>
      if rest.length < 2 then none
      else
        let len := le16 rest
        if (rest.drop 2).length < len then none
        else
          match parseAttribute id ((rest.drop 2).take len) msg with
          | none => none
          | some msg => parseLoop fuel ((rest.drop 2).drop len) msg

/-- Source: `p2p_parse_p2p_ie`. -/
def parseIe (buf : Bytes) (msg : ParsedIe) : Option ParsedIe := parseLoop buf.length buf msg

/-! ## Vendor elements -/

/-- Source: `WLAN_EID_VENDOR_SPECIFIC`. -/
def eidVendorSpecific : UInt8 := 0xdd

def p2pIeVendorType : Bytes := [0x50, 0x6f, 0x9a, 0x09]

/-- The data of the vendor elements of a type, one after the other; `none` in front of an element
that is cut off. -/
def vendorIes (type : Bytes) : ℕ → Bytes → List (Option Bytes)
  | 0, _ => []
  | fuel + 1, ies =>
    match ies with
    | id :: len :: rest =>
      if rest.length < len.toNat then [none]
      else
        let data := rest.take len.toNat
        let found :=
          if id = eidVendorSpecific ∧ 4 ≤ len.toNat ∧ data.take 4 = type then [some (data.drop 4)]
          else []
        found ++ vendorIes type fuel (rest.drop len.toNat)
    | _ => []

/-- Source: `ieee802_11_vendor_ie_concat`. A cut off element counts only in front of the first one
of the type. -/
def vendorIeConcat (ies : Bytes) (type : Bytes) : Option Bytes :=
  match vendorIes type ies.length ies with
  | some data :: rest => some (data ++ (rest.filterMap fun ie => ie).flatten)
  | _ => none

/-! ## What is written is parsed -/

def putAttr (attr : P2pAttr) (data : Bytes) : Bytes := attr.id :: putLe16 data.length ++ data

theorem parseLoop_congr {f g : ℕ} {rest : Bytes} {msg : ParsedIe} (hf : rest.length ≤ f)
    (hg : rest.length ≤ g) : parseLoop f rest msg = parseLoop g rest msg := by
  induction f generalizing g rest msg with
  | zero =>
    have hrest : rest = [] := List.length_eq_zero_iff.mp (Nat.le_zero.mp hf)
    subst hrest
    cases g <;> rfl
  | succ f ih =>
    cases rest with
    | nil => cases g <;> rfl
    | cons id rest =>
      rw [List.length_cons] at hf hg
      obtain ⟨g, rfl⟩ : ∃ k, g = k + 1 := ⟨g - 1, by omega⟩
      have hrest : ((rest.drop 2).drop (le16 rest)).length ≤ rest.length := by
        rw [List.length_drop, List.length_drop]
        omega
      simp only [parseLoop]
      split_ifs
      · rfl
      · rfl
      · split
        · rfl
        · exact ih (hrest.trans (Nat.le_of_succ_le_succ hf))
            (hrest.trans (Nat.le_of_succ_le_succ hg))

variable {data : Bytes}

theorem parseIe_put {id : UInt8} (hlen : data.length < 2 ^ 16) (rest : Bytes)
    (msg : ParsedIe) :
    parseIe (id :: putLe16 data.length ++ data ++ rest) msg =
      (parseAttribute id data msg).bind (parseIe rest) := by
  have hle : le16 (putLe16 data.length ++ (data ++ rest)) = data.length := le16_putLe16 hlen _
  have hdrop : (putLe16 data.length ++ (data ++ rest)).drop 2 = data ++ rest := rfl
  have hshape : id :: putLe16 data.length ++ data ++ rest =
      id :: (putLe16 data.length ++ (data ++ rest)) := by
    simp only [List.cons_append, List.append_assoc]
  rw [parseIe, hshape, List.length_cons, parseLoop]
  simp only
  have htotal : (putLe16 data.length ++ (data ++ rest)).length = 2 + (data.length + rest.length) := by
    rw [List.length_append, length_putLe16, List.length_append]
  have hdata : (data ++ rest).length = data.length + rest.length := List.length_append
  rw [hle, hdrop, if_neg (by omega), if_neg (by omega), List.take_left, List.drop_left]
  cases parseAttribute id data msg with
  | none => rfl
  | some msg =>
    refine parseLoop_congr ?_ le_rfl
    simp only [List.length_append, length_putLe16]
    omega

theorem parseIe_putAttr {attr : P2pAttr} (hlen : data.length < 2 ^ 16)
    (rest : Bytes) (msg : ParsedIe) :
    parseIe (putAttr attr data ++ rest) msg =
      (parseAttribute attr.id data msg).bind (parseIe rest) := parseIe_put hlen rest msg

theorem parseAttribute_of_minLen {attr : P2pAttr} (hlen : attr.minLen ≤ data.length)
    (hgroup : attr ≠ .groupId) (hinfo : attr = .deviceInfo → deviceInfoOk data = true)
    (hchan : attr ≠ .listenChannel) (hchan' : attr ≠ .operatingChannel) (msg : ParsedIe) :
    parseAttribute attr.id data msg = some ((attr, data) :: msg) := by
  unfold parseAttribute
  rw [P2pAttr.ofId_id]
  simp only
  rw [if_neg (by simp [hchan, hchan']), if_neg (by omega), if_neg (by simp [hgroup])]
  refine if_neg ?_
  rintro ⟨hattr, hok⟩
  exact Bool.noConfusion ((hinfo hattr).symm.trans hok)

theorem parseAttribute_deviceInfo {id : UInt8} {msg msg' : ParsedIe}
    (h : parseAttribute id data msg = some msg')
    (hmsg : ∀ info, msg.get .deviceInfo = some info → deviceInfoOk info = true) :
    ∀ info, msg'.get .deviceInfo = some info → deviceInfoOk info = true := by
  unfold parseAttribute at h
  split at h
  · cases h
    exact hmsg
  · rename_i attr _
    split_ifs at h with _ _ _ hinfo
    · cases h
      exact hmsg
    · cases h
      intro info hget
      by_cases hattr : attr = .deviceInfo
      · subst hattr
        have hdata : data = info := by simpa [ParsedIe.get, List.lookup_cons] using hget
        subst hdata
        simpa using hinfo
      · have hne : (P2pAttr.deviceInfo == attr) = false := by simpa using Ne.symm hattr
        refine hmsg info ?_
        simpa [ParsedIe.get, List.lookup_cons, hne] using hget

theorem parseLoop_deviceInfo {fuel : ℕ} {rest : Bytes} {msg msg' : ParsedIe}
    (h : parseLoop fuel rest msg = some msg')
    (hmsg : ∀ info, msg.get .deviceInfo = some info → deviceInfoOk info = true) :
    ∀ info, msg'.get .deviceInfo = some info → deviceInfoOk info = true := by
  induction fuel generalizing rest msg with
  | zero =>
    rw [parseLoop] at h
    split_ifs at h
    cases h
    exact hmsg
  | succ fuel ih =>
    cases rest with
    | nil =>
      cases h
      exact hmsg
    | cons id rest =>
      rw [parseLoop] at h
      simp only at h
      split_ifs at h
      split at h
      · cases h
      · rename_i hattr
        exact ih h (parseAttribute_deviceInfo hattr hmsg)

theorem deviceInfoOk_of_parseIe {buf : Bytes} {msg : ParsedIe} {info : Bytes}
    (h : parseIe buf [] = some msg) (hinfo : msg.get .deviceInfo = some info) :
    deviceInfoOk info = true :=
  parseLoop_deviceInfo h (fun _ hnone => by simp [ParsedIe.get] at hnone) info hinfo

theorem deviceInfoOk_parts {pre types name : Bytes} {n : ℕ} (hpre : pre.length = 16)
    (htypes : types.length = 8 * n) (hn : n < 256) (hname : name.length ≤ 32) :
    deviceInfoOk (pre ++ (UInt8.ofNat n ::
      (types ++ (attrDevName ++ (putBe16 name.length ++ name))))) = true := by
  have hnum : (UInt8.ofNat n).toNat = n := by rw [UInt8.toNat_ofNat', Nat.mod_eq_of_lt hn]
  have hnlen : beNat (putBe16 name.length) = name.length := by
    have hbe := be16_putBe16 (show name.length < 2 ^ 16 by omega) []
    simpa [beNat, be16, putBe16] using hbe
  have hmin : ¬ (pre ++ (UInt8.ofNat n ::
      (types ++ (attrDevName ++ (putBe16 name.length ++ name))))).length <
        P2pAttr.minLen .deviceInfo := by
    simp only [List.length_append, List.length_cons, hpre, P2pAttr.minLen]
    omega
  unfold deviceInfoOk
  rw [if_neg hmin, List.drop_left' hpre]
  unfold deviceInfoTailOk
  simp only [hnum, ← htypes, List.drop_left, List.length_append]
  rw [if_neg (by omega), if_neg (by simp [attrDevName]; omega)]
  have htake : (attrDevName ++ (putBe16 name.length ++ name)).take 2 = attrDevName := rfl
  have hlen : ((attrDevName ++ (putBe16 name.length ++ name)).drop 2).take 2 =
      putBe16 name.length := rfl
  have hend : (attrDevName ++ (putBe16 name.length ++ name)).drop 4 = name := rfl
  rw [htake, hlen, hend, hnlen, if_neg (by simp), if_neg (by omega)]

theorem parseClientTail_of_ok {tail : Bytes} (h : deviceInfoTailOk tail = true) :
    ∃ t, parseClientTail tail = some t := by
  cases tail with
  | nil => cases h
  | cons num t =>
    unfold deviceInfoTailOk at h
    unfold parseClientTail
    simp only at h ⊢
    split_ifs at h with hnum hname hhdr hlen
    rw [if_neg hnum, if_neg hname, if_neg hhdr, if_neg (fun hlt => hlen (.inl hlt))]
    exact ⟨_, rfl⟩

end Hostapd.P2p
