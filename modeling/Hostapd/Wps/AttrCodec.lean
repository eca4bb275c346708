import Hostapd.Wps.Items
import Hostapd.Wps.Registrar

/-!
# What is built is parsed

The attributes of `wps_attr_build.c` and `wps_dev_attr.c`, with those that `wps_enrollee.c` and
`wps_registrar.c` write for themselves, and `wps_parse_msg` and `wps_process_cred` that read them.
The WFA extension is that of a build with `CONFIG_WPS2`.

* **`Build`**: a call of one of these functions, with values in range; `Build.write` is what it puts
  into the message and `Build.given` what it was given. A `Message` is any calls in any order.
* **`attr_codec`**: the parser stays inside every message, tells of every built message what was
  sent, and a Credential is processed into what it was.
-/

namespace Hostapd.Wps

open Hostapd.Lib

/-! ## Values in range -/

abbrev Octets (n : ℕ) := {val : Bytes // val.length = n}

abbrev Value := {val : Bytes // val.length < 2 ^ 16}

/-- A text of a device, or none, that an attribute has room for. -/
abbrev DevText := {s : Option Bytes // (cstr s).length < 2 ^ 16}

/-- A vendor extension of another vendor than WFA. -/
abbrev ForeignExt :=
  {val : Bytes // 3 ≤ val.length ∧ val.length ≤ maxVendorExtLen ∧ beNat (val.take 3) ≠ vendorIdWfa}

/-- A credential whose fields are in range. Source: the sizes in `struct wps_credential`. -/
structure CredentialInRange where
  cred : Credential
  ssid_le : cred.ssid.length ≤ 32
  authType_lt : cred.authType < 2 ^ 16
  encrType_lt : cred.encrType < 2 ^ 16
  key_le : cred.key.length ≤ 64
  macAddr_len : cred.macAddr.length = ethAlen

/-! ## The functions -/

/-- A call of a `wps_build` function, under the name that the function has, with the value that it
is given or takes from its records. Registrar and Enrollee write their AP Settings by the functions
of a Credential. -/
inductive Build
  | version
  | wfaExt (reqToEnroll : Bool) (authMacs : {macs : List (Octets ethAlen) // macs.length ≤ 5})
  | msgType (type : MsgType)
  | reqType (type : UInt8)
  | respType (type : UInt8)
  | configMethods (methods : UInt16)
  | selRegConfigMethods (selReg : Bool) (methods : UInt16)
  | devPasswordId (id : UInt16)
  | selRegDevPasswordId (selReg : Bool) (id : UInt16)
  | selectedRegistrar (selReg : Bool)
  | apSetupLocked (locked : ℕ)
  | wpsState (state : UInt8)
  | configError (err : UInt16)
  | uuidE (uuid : Octets uuidLen)
  | uuidR (uuid : Octets uuidLen)
  | macAddr (addr : Octets ethAlen)
  | enrolleeNonce (nonce : Octets nonceLen)
  | registrarNonce (nonce : Octets nonceLen)
  | publicKey (pubkey : Value)
  | authenticator (hash : Octets authenticatorLen)
  | keyWrapAuth (hash : Octets kwaLen)
  | encrSettings (settings : Value)
  | authTypeFlags (types : UInt16)
  | encrTypeFlags (types : UInt16)
  | connTypeFlags
  | assocState
  | oobDevPassword (pubkeyHash : Octets 20) (id : UInt16) (password : Octets 32)
  | eHash (hash1 hash2 : Octets hashLen)
  | rHash (hash1 hash2 : Octets hashLen)
  | eSnonce1 (snonce : Octets secretNonceLen)
  | eSnonce2 (snonce : Octets secretNonceLen)
  | rSnonce1 (snonce : Octets secretNonceLen)
  | rSnonce2 (snonce : Octets secretNonceLen)
  | manufacturer (s : DevText)
  | modelName (s : DevText)
  | modelNumber (s : DevText)
  | serialNumber (s : DevText)
  | devName (s : DevText)
  | primaryDevType (type : Octets devTypeLen)
  | secondaryDevType (types : {types : List (Octets devTypeLen) // types.length ≤ 5})
  | reqDevType (types : List (Octets devTypeLen))
  | osVersion (os : UInt32)
  | rfBands (bands : UInt8)
  | vendorExt (exts : List ForeignExt)
  | credNetworkIdx
  | credSsid (ssid : Value)
  | credAuthType (type : UInt16)
  | credEncrType (type : UInt16)
  | credNetworkKey (key : Value)
  | cred (c : CredentialInRange)

/-- The subelements of the WFA extension. Source: `wps_build_wfa_ext`, with `WPS_VERSION` 0x20. -/
def wfaElems (reqToEnroll : Bool) (authMacs : List Bytes) : List (UInt8 × Bytes) :=
  [(0, [0x20])] ++ (if reqToEnroll then [(3, [1])] else []) ++
    (if authMacs = [] then [] else [(1, authMacs.flatten)])

/-- Source: `wps_build_wfa_ext`. -/
def buildWfaExt (reqToEnroll : Bool) (authMacs : List Bytes) : Bytes :=
  putAttr .vendorExt (putBe 3 vendorIdWfa ++ [0, 1, 0x20] ++
    (if reqToEnroll then [3, 1, 1] else []) ++
    (if authMacs = [] then []
      else [1, UInt8.ofNat (authMacs.length * ethAlen)] ++ authMacs.flatten))

/-- The attributes of the functions that write what they are given, as type and value. -/
def Build.attrs : Build → List (AttrType × Bytes)
  | version => [(.version, [0x10])]
  | msgType type => [(.msgType, [type.code])]
  | reqType type => [(.requestType, [type])]
  | respType type => [(.responseType, [type])]
  | configMethods methods => [(.configMethods, putBe16 methods.toNat)]
  | selRegConfigMethods selReg methods =>
    if selReg then [(.selectedRegistrarConfigMethods, putBe16 methods.toNat)] else []
  | devPasswordId id => [(.devPasswordId, putBe16 id.toNat)]
  | selRegDevPasswordId selReg id =>
    if selReg then [(.devPasswordId, putBe16 id.toNat)] else []
  | selectedRegistrar selReg => if selReg then [(.selectedRegistrar, [1])] else []
  | apSetupLocked locked => if locked ≠ 0 ∧ locked ≠ 2 then [(.apSetupLocked, [1])] else []
  | wpsState state => [(.wpsState, [state])]
  | configError err => [(.configError, putBe16 err.toNat)]
  | uuidE uuid => [(.uuidE, uuid.1)]
  | uuidR uuid => [(.uuidR, uuid.1)]
  | macAddr addr => [(.macAddr, addr.1)]
  | enrolleeNonce nonce => [(.enrolleeNonce, nonce.1)]
  | registrarNonce nonce => [(.registrarNonce, nonce.1)]
  | publicKey pubkey => [(.publicKey, pubkey.1)]
  | authenticator hash => [(.authenticator, hash.1)]
  | keyWrapAuth hash => [(.keyWrapAuth, hash.1)]
  | encrSettings settings => [(.encrSettings, settings.1)]
  | authTypeFlags types => [(.authTypeFlags, putBe16 types.toNat)]
  | encrTypeFlags types => [(.encrTypeFlags, putBe16 types.toNat)]
  | connTypeFlags => [(.connTypeFlags, [0x01])]
  | assocState => [(.assocState, putBe16 0)]
  | oobDevPassword pubkeyHash id password =>
    [(.oobDevicePassword, pubkeyHash.1 ++ putBe16 id.toNat ++ password.1)]
  | eHash hash1 hash2 => [(.eHash1, hash1.1), (.eHash2, hash2.1)]
  | rHash hash1 hash2 => [(.rHash1, hash1.1), (.rHash2, hash2.1)]
  | eSnonce1 snonce => [(.eSnonce1, snonce.1)]
  | eSnonce2 snonce => [(.eSnonce2, snonce.1)]
  | rSnonce1 snonce => [(.rSnonce1, snonce.1)]
  | rSnonce2 snonce => [(.rSnonce2, snonce.1)]
  | primaryDevType type => [(.primaryDevType, type.1)]
  | secondaryDevType types =>
    if types.1 = [] then [] else [(.secondaryDevTypeList, (types.1.map Subtype.val).flatten)]
  | rfBands bands => [(.rfBands, [bands])]
  | credNetworkIdx => [(.networkIndex, [1])]
  | credSsid ssid => [(.ssid, ssid.1)]
  | credAuthType type => [(.authType, putBe16 type.toNat)]
  | credEncrType type => [(.encrType, putBe16 type.toNat)]
  | credNetworkKey key => [(.networkKey, key.1)]
  | wfaExt _ _ | manufacturer _ | modelName _ | modelNumber _ | serialNumber _ | devName _
  | reqDevType _ | osVersion _ | vendorExt _ | cred _ => []

def Build.write : Build → Bytes
  | wfaExt reqToEnroll authMacs => buildWfaExt reqToEnroll (authMacs.1.map Subtype.val)
  | manufacturer s => buildDevString .manufacturer s.1
  | modelName s => buildDevString .modelName s.1
  | modelNumber s => buildDevString .modelNumber s.1
  | serialNumber s => buildDevString .serialNumber s.1
  | devName s => buildDevString .devName s.1
  | reqDevType types => types.flatMap fun type => putAttr .requestedDevType type.1
  | osVersion os => putAttr .osVersion (putBe 4 (0x80000000 ||| os.toNat))
  | vendorExt exts => exts.flatMap fun ext => putAttr .vendorExt ext.1
  | cred c => putAttr .cred (Registrar.buildCredential c.cred)
  | call => call.attrs.flatMap fun entry => putAttr entry.1 entry.2

/-- What a call was given, as the parser would tell it. -/
def Build.given : Build → List Item
  | wfaExt reqToEnroll authMacs => [.wfa (wfaElems reqToEnroll (authMacs.1.map Subtype.val))]
  | manufacturer s => [.single .manufacturer (cstr s.1)]
  | modelName s => [.single .modelName (cstr s.1)]
  | modelNumber s => [.single .modelNumber (cstr s.1)]
  | serialNumber s => [.single .serialNumber (cstr s.1)]
  | devName s => [.single .devName (cstr s.1)]
  | reqDevType types => types.map fun type => .reqDevType type.1
  | osVersion os => [.single .osVersion (putBe 4 os.toNat)]
  | vendorExt exts => exts.map fun ext => .vendorExt ext.1
  | cred c => [.cred (Registrar.buildCredential c.cred)]
  | call => call.attrs.map fun entry => .single entry.1 entry.2

/-! ## Messages -/

def devTexts : List AttrType := [.manufacturer, .modelName, .modelNumber, .serialNumber, .devName]

def Item.sent : Item → Item
  | .single type val =>
    if type ∈ devTexts ∧ val = [] then .single type [0x20]
    else if type = .osVersion then .single type (putBe 4 (0x80000000 ||| beNat val))
    else .single type val
  | item => item

/-- A message: any calls in any order, with no more vendor extensions than the parser takes. -/
structure Message where
  calls : List Build
  few : ((calls.flatMap Build.given).filterMap Item.vendorExtVal).length ≤ maxCount

def Message.write (m : Message) : Bytes := m.calls.flatMap Build.write

def Message.given (m : Message) : List Item := m.calls.flatMap Build.given

def Message.sent (m : Message) : List Item := m.given.map Item.sent

/-! ## What is written -/

variable {type : AttrType}

theorem fits_fixed {val : Bytes} {n : ℕ} (htype : type.fixedLen = some n)
    (hlen : val.length = n)
    (hsingle : type ∉ [.cred, .requestedDevType, .vendorExt, .secondaryDevTypeList]) :
    (Item.single type val).Fits := by
  have hn : n < 2 ^ 16 := by
    cases type <;> simp only [AttrType.fixedLen, Option.some.injEq, reduceCtorEq] at htype <;>
      subst htype <;> decide
  refine ⟨fun h => hsingle ?_, fun len hmem => ?_, fun h => ?_, by omega⟩
  · simp only [List.mem_cons] at h ⊢
    tauto
  · rw [htype, Option.mem_some] at hmem
    exact hlen.trans hmem
  · subst h
    simp at hsingle

theorem fits_free {val : Bytes} (htype : type.fixedLen = none)
    (hlen : val.length < 2 ^ 16)
    (hsingle : type ∉ [.cred, .requestedDevType, .vendorExt, .secondaryDevTypeList]) :
    (Item.single type val).Fits := by
  refine ⟨fun h => hsingle ?_, fun len hmem => ?_, fun h => ?_, hlen⟩
  · simp only [List.mem_cons] at h ⊢
    tauto
  · rw [htype] at hmem
    cases hmem
  · subst h
    simp at hsingle

theorem length_flatten_octets {n : ℕ} (l : List (Octets n)) :
    (l.map Subtype.val).flatten.length = l.length * n := by
  induction l with
  | nil => simp
  | cons v l ih =>
    rw [List.map_cons, List.flatten_cons, List.length_append, ih, v.2, List.length_cons,
      Nat.succ_mul, Nat.add_comm]

theorem Build.attrs_fit (call : Build) :
    ∀ entry ∈ call.attrs, (Item.single entry.1 entry.2).Fits := by
  have hone {type : AttrType} {val : Bytes} (h : (Item.single type val).Fits) :
      ∀ entry ∈ [(type, val)], (Item.single entry.1 entry.2).Fits := by simpa using h
  have htwo {type type' : AttrType} {val val' : Bytes} (h : (Item.single type val).Fits)
      (h' : (Item.single type' val').Fits) :
      ∀ entry ∈ [(type, val), (type', val')], (Item.single entry.1 entry.2).Fits := by
    simpa using ⟨h, h'⟩
  cases call with
  | version | connTypeFlags | assocState | credNetworkIdx =>
    exact hone (fits_fixed rfl rfl (by decide))
  | msgType v | reqType v | respType v | wpsState v | rfBands v =>
    exact hone (fits_fixed rfl rfl (by decide))
  | configMethods v | devPasswordId v | configError v | authTypeFlags v | encrTypeFlags v
  | credAuthType v | credEncrType v => exact hone (fits_fixed rfl rfl (by decide))
  | uuidE v | uuidR v | macAddr v | enrolleeNonce v | registrarNonce v | authenticator v
  | keyWrapAuth v | eSnonce1 v | eSnonce2 v | rSnonce1 v | rSnonce2 v | primaryDevType v =>
    exact hone (fits_fixed rfl v.2 (by decide))
  | publicKey v | encrSettings v | credSsid v | credNetworkKey v =>
    exact hone (fits_free rfl v.2 (by decide))
  | eHash v v' | rHash v v' =>
    exact htwo (fits_fixed rfl v.2 (by decide)) (fits_fixed rfl v'.2 (by decide))
  | oobDevPassword pubkeyHash id password =>
    refine hone (fits_fixed rfl ?_ (by decide))
    rw [List.length_append, List.length_append, pubkeyHash.2, password.2, length_putBe16]
    rfl
  | selRegConfigMethods selReg v | selRegDevPasswordId selReg v =>
    cases selReg with
    | false => exact fun entry h => nomatch h
    | true => exact hone (fits_fixed rfl rfl (by decide))
  | selectedRegistrar selReg =>
    cases selReg with
    | false => exact fun entry h => nomatch h
    | true => exact hone (fits_fixed rfl rfl (by decide))
  | apSetupLocked locked =>
    simp only [attrs]
    split
    · exact hone (fits_fixed rfl rfl (by decide))
    · exact fun entry h => nomatch h
  | secondaryDevType types =>
    simp only [attrs]
    split
    · exact fun entry h => nomatch h
    · have hlen := length_flatten_octets types.1
      have hfive := types.2
      refine hone ⟨by decide, (fun len h => nomatch h), fun _ => ?_, ?_⟩
      · rw [hlen]
        exact ⟨show types.1.length * 8 ≤ 128 by omega, Nat.mul_mod_left _ _⟩
      · rw [hlen]
        exact show types.1.length * 8 < 2 ^ 16 by omega
  | wfaExt reqToEnroll authMacs => exact fun entry h => nomatch h
  | manufacturer s | modelName s | modelNumber s | serialNumber s | devName s =>
    exact fun entry h => nomatch h
  | reqDevType v | osVersion v | vendorExt v | cred v => exact fun entry h => nomatch h

theorem Build.attrs_sent (call : Build) :
    ∀ entry ∈ call.attrs, (Item.single entry.1 entry.2).sent = .single entry.1 entry.2 := by
  have hkept {type : AttrType} (h : type ∉ .osVersion :: devTexts) (val : Bytes) :
      (Item.single type val).sent = .single type val := by
    rw [List.mem_cons, not_or] at h
    rw [Item.sent, if_neg (fun hval => h.2 hval.1), if_neg h.1]
  intro entry hentry
  refine hkept (fun htype => ?_) entry.2
  have hnone : ∀ type ∈ AttrType.osVersion :: devTexts, type ∉ call.attrs.map Prod.fst := by
    cases call with
    | selRegConfigMethods selReg v | selRegDevPasswordId selReg v | selectedRegistrar selReg =>
      cases selReg <;> simp [attrs, devTexts]
    | apSetupLocked locked =>
      simp only [attrs]
      split <;> simp [devTexts]
    | secondaryDevType types =>
      simp only [attrs]
      split <;> simp [devTexts]
    | _ => simp [attrs, devTexts]
  exact hnone entry.1 htype (List.mem_map_of_mem hentry)

theorem buildDevString_eq (htype : type ∈ devTexts) (s : Option Bytes) :
    buildDevString type s = (Item.single type (cstr s)).sent.put := by
  have hne : type ≠ .osVersion := by
    rintro rfl
    simp [devTexts] at htype
  rw [buildDevString, Item.sent]
  by_cases hempty : cstr s = []
  · rw [if_pos hempty, if_pos ⟨htype, hempty⟩]
    rfl
  · rw [if_neg hempty, if_neg fun h => hempty h.2, if_neg hne]
    rfl

theorem buildWfaExt_eq (reqToEnroll : Bool) {authMacs : List Bytes}
    (hlen : authMacs.flatten.length = authMacs.length * ethAlen) :
    buildWfaExt reqToEnroll authMacs = (Item.wfa (wfaElems reqToEnroll authMacs)).put := by
  simp only [buildWfaExt, Item.put, Item.octets, Item.type, wfaElems, List.flatMap_append,
    ← List.append_assoc]
  have hmacs : (if authMacs = [] then [] else
      [1, UInt8.ofNat (authMacs.length * ethAlen)] ++ authMacs.flatten) =
        (if authMacs = [] then [] else [((1 : UInt8), authMacs.flatten)]).flatMap Item.putElem := by
    split
    · rfl
    · simp only [List.flatMap_singleton, Item.putElem, hlen]
      rfl
  rw [hmacs]
  cases reqToEnroll <;> rfl

theorem Build.write_eq (call : Build) :
    call.write = (call.given.map Item.sent).flatMap Item.put := by
  have hattrs (h : call.write = call.attrs.flatMap fun entry => putAttr entry.1 entry.2)
      (hgiven : call.given = call.attrs.map fun entry => .single entry.1 entry.2) :
      call.write = (call.given.map Item.sent).flatMap Item.put := by
    rw [h, hgiven, List.map_map, List.flatMap_map]
    refine List.flatMap_congr fun entry hentry => ?_
    rw [Function.comp_apply, call.attrs_sent entry hentry]
    rfl
  have hone {item : Item} : ([item].map Item.sent).flatMap Item.put = item.sent.put := by simp
  cases call with
  | wfaExt reqToEnroll authMacs =>
    rw [write, given, hone, buildWfaExt_eq reqToEnroll]
    · rfl
    · rw [length_flatten_octets, List.length_map]
  | manufacturer s | modelName s | modelNumber s | serialNumber s | devName s =>
    rw [write, given, hone, buildDevString_eq (by decide)]
  | osVersion os =>
    have hos : beNat (putBe 4 os.toNat) = os.toNat := beNat_putBe os.toNat_lt
    have hsent : (Item.single .osVersion (putBe 4 os.toNat)).sent =
        .single .osVersion (putBe 4 (0x80000000 ||| os.toNat)) := by
      rw [Item.sent, if_neg (fun h => absurd h.1 (by decide)), if_pos rfl, hos]
    rw [write, given, hone, hsent]
    rfl
  | reqDevType types =>
    simp only [write, given, List.map_map, List.flatMap_map]
    rfl
  | vendorExt exts =>
    simp only [write, given, List.map_map, List.flatMap_map]
    rfl
  | cred c =>
    rw [write, given, hone]
    rfl
  | _ => exact hattrs rfl rfl

theorem length_buildCredential (c : CredentialInRange) :
    (Registrar.buildCredential c.cred).length < 2 ^ 16 := by
  have hssid := c.ssid_le
  have hkey := c.key_le
  have hmac := c.macAddr_len
  simp only [Registrar.buildCredential, putAttr, List.length_append, length_putBe16, hmac,
    List.length_singleton, ethAlen]
  omega

theorem wfaElems_fit (reqToEnroll : Bool) {authMacs : List (Octets ethAlen)}
    (hfive : authMacs.length ≤ 5) :
    (Item.wfa (wfaElems reqToEnroll (authMacs.map Subtype.val))).Fits := by
  have hlen : (authMacs.map Subtype.val).flatten.length = authMacs.length * 6 :=
    length_flatten_octets authMacs
  have hmacs : ∀ elem ∈ (if authMacs.map Subtype.val = [] then []
      else [((1 : UInt8), (authMacs.map Subtype.val).flatten)]), Item.ElemFits elem := by
    intro elem helem
    by_cases hnil : authMacs.map Subtype.val = []
    · rw [if_pos hnil] at helem
      cases helem
    · rw [if_neg hnil, List.mem_singleton] at helem
      have hpos : 0 < authMacs.length := by
        rw [← List.length_map Subtype.val]
        exact List.length_pos_iff.mpr hnil
      have hknown : (1 : UInt8) ≤ 4 := by decide
      rw [helem]
      refine ⟨hknown, .inl rfl, ?_, ?_⟩
      · rw [hlen]
        omega
      · rw [hlen]
        omega
  refine ⟨?_, ?_⟩
  · intro elem helem
    rw [wfaElems, List.mem_append, List.mem_append, List.mem_singleton] at helem
    rcases helem with (rfl | hreq) | hmac
    · exact ⟨by decide, .inr rfl, by decide, by decide⟩
    · cases reqToEnroll with
      | false => cases hreq
      | true =>
        rw [List.mem_singleton.mp hreq]
        exact ⟨by decide, .inr rfl, by decide, by decide⟩
    · exact hmacs elem hmac
  · have hput : ((wfaElems reqToEnroll (authMacs.map Subtype.val)).flatMap Item.putElem).length ≤
        38 := by
      rw [wfaElems]
      by_cases hnil : authMacs.map Subtype.val = []
      · rw [if_pos hnil]
        cases reqToEnroll <;> decide
      · rw [if_neg hnil, List.flatMap_append, List.length_append, List.flatMap_singleton,
          Item.putElem, List.length_cons, List.length_cons, hlen]
        cases reqToEnroll <;> simp [Item.putElem] <;> omega
    omega

theorem Build.sent_fits (call : Build) : ∀ item ∈ call.given, item.sent.Fits := by
  have hattrs (hgiven : call.given = call.attrs.map fun entry => .single entry.1 entry.2) :
      ∀ item ∈ call.given, item.sent.Fits := by
    rw [hgiven]
    intro item hitem
    obtain ⟨entry, hentry, rfl⟩ := List.mem_map.mp hitem
    rw [call.attrs_sent entry hentry]
    exact call.attrs_fit entry hentry
  have htext {type : AttrType} (htype : type ∈ devTexts) (hfree : type.fixedLen = none)
      (hsingle : type ∉ [.cred, .requestedDevType, .vendorExt, .secondaryDevTypeList])
      (s : DevText) : (Item.single type (cstr s.1)).sent.Fits := by
    rw [Item.sent]
    by_cases hempty : type ∈ devTexts ∧ cstr s.1 = []
    · rw [if_pos hempty]
      exact fits_free hfree (by decide) hsingle
    · have hne : type ≠ .osVersion := by
        rintro rfl
        cases hfree
      rw [if_neg hempty, if_neg hne]
      exact fits_free hfree s.2 hsingle
  cases call with
  | wfaExt reqToEnroll authMacs =>
    rw [given]
    intro item hitem
    rw [List.mem_singleton.mp hitem]
    exact wfaElems_fit reqToEnroll authMacs.2
  | manufacturer s | modelName s | modelNumber s | serialNumber s | devName s =>
    rw [given]
    intro item hitem
    rw [List.mem_singleton.mp hitem]
    exact htext (by decide) rfl (by decide) s
  | osVersion os =>
    rw [given]
    intro item hitem
    rw [List.mem_singleton.mp hitem, Item.sent, if_neg (fun h => absurd h.1 (by decide)),
      if_pos rfl]
    exact fits_fixed rfl (length_putBe _ _) (by decide)
  | reqDevType types =>
    rw [given]
    intro item hitem
    obtain ⟨type, -, rfl⟩ := List.mem_map.mp hitem
    exact type.2
  | vendorExt exts =>
    rw [given]
    intro item hitem
    obtain ⟨ext, -, rfl⟩ := List.mem_map.mp hitem
    exact ext.2
  | cred c =>
    rw [given]
    intro item hitem
    rw [List.mem_singleton.mp hitem]
    exact length_buildCredential c
  | _ => exact hattrs rfl

theorem Item.vendorExtVal_sent (item : Item) : item.sent.vendorExtVal = item.vendorExtVal := by
  cases item with
  | single type val =>
    rw [sent]
    split
    · rfl
    · split <;> rfl
  | cred val | reqDevType val | vendorExt val | wfa elems => rfl

theorem Message.parse_write (m : Message) :
    ∃ attr, parseMsg m.write = some attr ∧ attr.Tells m.sent := by
  have hwrite : m.write = m.sent.flatMap Item.put := by
    rw [write, sent, given, List.map_flatMap, List.flatMap_assoc]
    exact List.flatMap_congr fun call _ => call.write_eq
  have hfits : ∀ item ∈ m.sent, item.Fits := by
    intro item hitem
    obtain ⟨item', hgiven, rfl⟩ := List.mem_map.mp hitem
    obtain ⟨call, -, hcall⟩ := List.mem_flatMap.mp hgiven
    exact call.sent_fits item' hcall
  have hroom : (m.sent.filterMap Item.vendorExtVal).length ≤ maxCount := by
    have hsame : Item.vendorExtVal ∘ Item.sent = Item.vendorExtVal :=
      funext Item.vendorExtVal_sent
    rw [sent, List.filterMap_map, hsame]
    exact m.few
  rw [hwrite]
  exact parseMsg_items hfits hroom

/-! ## Credentials -/

theorem beNat_putBe16 {n : ℕ} (h : n < 2 ^ 16) : beNat (putBe16 n) = n := by
  have hread : beNat (putBe 2 n) = n := beNat_putBe (by omega)
  exact hread

/-- A credential as it arrives: without the zeros behind the SSID, without one zero behind a
passphrase, and without the key index, which is not sent. -/
def Credential.received (cred : Credential) : Credential where
  ssid := (cred.ssid.reverse.dropWhile (· = 0)).reverse
  authType := cred.authType
  encrType := cred.encrType
  keyIdx := 0
  key :=
    if cred.authType &&& (authWpapsk ||| authWpa2psk) ≠ 0 ∧ 8 < cred.key.length ∧
      cred.key.length < 64 ∧ cred.key.getLastD 1 = 0 then cred.key.dropLast else cred.key
  macAddr := cred.macAddr

theorem CredentialInRange.processCred (c : CredentialInRange) :
    ∃ attr, parseMsg (Registrar.buildCredential c.cred) = some attr ∧
      Wps.processCred attr = some c.cred.received := by
  let items : List Item := [.single .networkIndex [1], .single .ssid c.cred.ssid,
    .single .authType (putBe16 c.cred.authType), .single .encrType (putBe16 c.cred.encrType),
    .single .networkKey c.cred.key, .single .macAddr c.cred.macAddr]
  have hwrite : Registrar.buildCredential c.cred = items.flatMap Item.put := by
    simp [items, Registrar.buildCredential, Item.put, Item.type, Item.octets]
  have hssid : c.cred.ssid.length < 2 ^ 16 := Nat.lt_of_le_of_lt c.ssid_le (by decide)
  have hkey : c.cred.key.length < 2 ^ 16 := Nat.lt_of_le_of_lt c.key_le (by decide)
  have hfits : ∀ item ∈ items, item.Fits := by
    simp only [items, List.forall_mem_cons]
    exact ⟨fits_fixed rfl rfl (by decide), fits_free rfl hssid (by decide),
      fits_fixed rfl rfl (by decide), fits_fixed rfl rfl (by decide),
      fits_free rfl hkey (by decide), fits_fixed rfl c.macAddr_len (by decide),
      List.forall_mem_nil _⟩
  obtain ⟨attr, hparse, htells⟩ := parseMsg_items hfits (Nat.zero_le _)
  have hidx : attr.get .networkIndex = some [1] := htells.single .networkIndex
  have hssidGet : attr.get .ssid = some c.cred.ssid := htells.single .ssid
  have hauthGet : attr.get .authType = some (putBe16 c.cred.authType) := htells.single .authType
  have hencrGet : attr.get .encrType = some (putBe16 c.cred.encrType) := htells.single .encrType
  have hkeyIdx : attr.get .networkKeyIndex = none := htells.single .networkKeyIndex
  have hkeyGet : attr.get .networkKey = some c.cred.key := htells.single .networkKey
  have hmacGet : attr.get .macAddr = some c.cred.macAddr := htells.single .macAddr
  have hauth : beNat (putBe16 c.cred.authType) = c.cred.authType := beNat_putBe16 c.authType_lt
  have hencr : beNat (putBe16 c.cred.encrType) = c.cred.encrType := beNat_putBe16 c.encrType_lt
  have htrim : ((c.cred.ssid.reverse.dropWhile (· = 0)).reverse).length ≤ 32 := by
    have hsuffix : c.cred.ssid.reverse.dropWhile (· = 0) <:+ c.cred.ssid.reverse :=
      List.dropWhile_suffix _
    have hle := hsuffix.length_le
    rw [List.length_reverse] at hle ⊢
    exact Nat.le_trans hle c.ssid_le
  refine ⟨attr, by rw [hwrite, hparse], ?_⟩
  simp only [Wps.processCred, processCredAttrs, processCredSsid, processCredNetworkKey, hidx,
    hssidGet, hauthGet, hencrGet, hkeyIdx, hkeyGet, hmacGet, hauth, hencr, if_pos htrim,
    if_pos c.key_le, Option.isSome_some, if_true, Option.map_none, Option.getD_none]
  rw [workaroundCredKey, Credential.received]
  split <;> rfl

/-- For every message the parser returns, with pointers into the message only. Of every message that
is built it tells what was sent, which is what was given but for empty texts of a device and the top
bit of an OS version. A Credential that is built is processed into what it was, without trailing
zeros. -/
theorem attr_codec :
    (∀ msg, ∃ ok attr, scanMsg msg = .ok (ok, attr) ∧ attr.Inside msg ∧
      parseMsg msg = if ok then some (attr.deref msg) else none) ∧
    (∀ m : Message, ∃ attr, parseMsg m.write = some attr ∧ attr.Tells m.sent) ∧
    (∀ c : CredentialInRange, ∃ attr, parseMsg (Registrar.buildCredential c.cred) = some attr ∧
      processCred attr = some c.cred.received) :=
  ⟨scanMsg_inside, Message.parse_write, CredentialInRange.processCred⟩

theorem empty_text_is_changed :
    ¬ ∀ m : Message, ∃ attr, parseMsg m.write = some attr ∧ attr.Tells m.given := by
  intro h
  obtain ⟨attr, hparse, htells⟩ := h ⟨[.manufacturer ⟨none, by decide⟩], by decide⟩
  have hgiven : attr.get .manufacturer = some [] := htells.single .manufacturer
  have hspace : (parseMsg (buildDevString .manufacturer none)).bind
      (fun attr => attr.get .manufacturer) = some [0x20] := by decide
  have hwrite : parseMsg (buildDevString .manufacturer none) = some attr := hparse
  rw [hwrite, Option.bind_some, hgiven] at hspace
  cases hspace

end Hostapd.Wps
