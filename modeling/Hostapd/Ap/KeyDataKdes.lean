import Hostapd.Ap.WpaAuth.Machines
import Hostapd.Ap.WpaIeAgreement
import Hostapd.Common.KeyDataIes

/-!
# The key data of the authenticator

What message 3/4 and message 1/2 of the group key handshake carry for an RSN station (`wpa_auth.c`),
in a build with IEEE 802.11r and IEEE 802.11w.

* **`sealKeyData`**: the padded and wrapped key data in a frame.
* **`foldl_records`**: what the supplicant's parser notes of a message.
-/

namespace Hostapd.Ap.KeyData

open Hostapd.Lib Hostapd.Ft Hostapd.KeyDataIes
open Hostapd.Ap.WpaAuth (Group SendArgs Setup Sm gtkLenOf padKde)

/-! ## Messages -/

abbrev Payload (room : ℕ) := {payload : Bytes // payload.length ≤ room}

/-- The information elements, each if it is there; the WPA element without its selector and its
version. Source: `wpa_auth.h`, `struct wpa_authenticator`, `wpa_ie`. -/
structure Ies where
  rsn : Option (Payload 255)
  mdie : Option (Payload 255)
  wpa : Option (Payload 249)

/-- Source: `wpa_common.h`, `struct wpa_igtk_kde`, with the key index of the group. -/
structure IgtkKde where
  gnIgtk : ℕ
  pn : Vector UInt8 6
  igtk : Vector UInt8 16
  gnIgtk_lt : gnIgtk < 256

/-- The current keys of a group; the IGTK is for a station with protection of management frames.
Source: `wpa_auth_i.h`, `struct wpa_group`. -/
structure GroupKeys where
  cipher : WpaCipher
  gn : ℕ
  gtk : Bytes
  igtk : Option IgtkKde
  cipher_ne : cipher ≠ .none
  gn_lt : gn < 4
  length_gtk : gtk.length = gtkLenOf cipher

/-- What message 3/4 carries for FT: the FTIE and the values of the two timeouts. -/
structure FtElements where
  ftie : Payload 255
  reassociationDeadline : Vector UInt8 4
  r0KeyLifetime : Vector UInt8 4

structure Message where
  ies : Ies
  keys : GroupKeys
  ft : Option FtElements

/-! ## Their octets -/

def GroupKeys.gtkPayload (keys : GroupKeys) : Bytes :=
  [UInt8.ofNat (keys.gn % 4), 0] ++ keys.gtk

/-- The payload of the KDE with the IGTK. Source: `ieee80211w_kde_add`. -/
def IgtkKde.payload (k : IgtkKde) : Bytes :=
  [UInt8.ofNat k.gnIgtk, 0] ++ k.pn.toList ++ k.igtk.toList

/-- The KDEs of the group keys. Source: `SM_STATE(WPA_PTK_GROUP, REKEYNEGOTIATING)`. -/
def GroupKeys.kdes (keys : GroupKeys) : Bytes :=
  wpaAddKde rsnKeyDataGroupkey [UInt8.ofNat (keys.gn % 4), 0] keys.gtk ++
    match keys.igtk with
    | some k => wpaAddKde rsnKeyDataIgtk k.payload []
    | none => []

def Ies.records (ies : Ies) : List Record :=
  (ies.rsn.toList.map fun p => (wlanEidRsn, p.1)) ++
    (ies.mdie.toList.map fun p => (eidMobilityDomain, p.1)) ++
    ies.wpa.toList.map fun p =>
      (wlanEidVendorSpecific, putBe 4 wpaOuiType ++ (putLe16 1 ++ p.1))

/-- The elements of the FT handshake. Source: `SM_STATE(WPA_PTK, PTKINITNEGOTIATING)`. -/
def FtElements.records (ft : FtElements) : List Record :=
  [(eidFastBssTransition, ft.ftie.1),
    (eidTimeoutInterval, timeoutReassocDeadline :: ft.reassociationDeadline.toList),
    (eidTimeoutInterval, timeoutKeyLifetime :: ft.r0KeyLifetime.toList)]

/-- The key data of a message. Source: `SM_STATE(WPA_PTK, PTKINITNEGOTIATING)`. -/
def Message.kde (m : Message) : Bytes :=
  encodeElements m.ies.records ++ m.keys.kdes ++
    match m.ft with
    | some ft => encodeElements ft.records
    | none => []

/-- A frame with key data that is padded and wrapped. Source: `wpa_auth.c`, `__wpa_send_eapol`, the
branch for the AES versions. -/
def sealKeyData (C : Crypto) (kek : BitVec 128) (f : EapolKey) (kde : Bytes) : EapolKey :=
  let data := C.aesWrap kek (padKde kde)
  { f with
    length := BitVec.ofNat 16 (95 + data.length)
    keyDataLength := BitVec.ofNat 16 data.length
    body := data }

/-! ## What is read of them -/

/-- What the supplicant's parser is to find in a message. -/
def Message.received (m : Message) : SupplicantIes where
  wpaIe := m.ies.wpa.map fun p =>
    Record.encode 0 (wlanEidVendorSpecific, putBe 4 wpaOuiType ++ (putLe16 1 ++ p.1))
  rsnIe := m.ies.rsn.map fun p => Record.encode 0 (wlanEidRsn, p.1)
  pmkid := none
  gtk := some m.keys.gtkPayload
  macAddr := none
  smk := none
  nonce := none
  lifetime := none
  error := none
  igtk := m.keys.igtk.map IgtkKde.payload
  mdie := m.ies.mdie.map fun p => Record.encode 0 (eidMobilityDomain, p.1)
  ftie := m.ft.map fun ft => Record.encode 0 (eidFastBssTransition, ft.ftie.1)
  reassocDeadline := m.ft.map fun ft => Record.encode 0
    (eidTimeoutInterval, timeoutReassocDeadline :: ft.reassociationDeadline.toList)
  keyLifetime := m.ft.map fun ft => Record.encode 0
    (eidTimeoutInterval, timeoutKeyLifetime :: ft.r0KeyLifetime.toList)
  lnkid := none
  extCapab := none

/-! ## KDEs -/

theorem wpaAddKde_eq (kde : ℕ) (data data2 : Bytes) : wpaAddKde kde data data2 =
    Record.encode 0 (wlanEidVendorSpecific, putBe 4 kde ++ (data ++ data2)) := by
  rw [wpaAddKde, Record.encode]
  simp only [List.length_append, length_putBe, List.append_assoc, add_assoc, Nat.add_zero]

section Kde

variable {data : Bytes}

theorem kde_fields (kde : ℕ) (data : Bytes) (hkde : kde < 256 ^ 4) (hlen : data.length ≤ 251) :
    ((Record.encode 0 (wlanEidVendorSpecific, putBe 4 kde ++ data)).getD 1 0).toNat =
        4 + data.length ∧
      selector (Record.encode 0 (wlanEidVendorSpecific, putBe 4 kde ++ data)) = kde ∧
      (Record.encode 0 (wlanEidVendorSpecific, putBe 4 kde ++ data)).drop 6 = data := by
  have hpayload : (putBe 4 kde ++ data).length = 4 + data.length := by
    rw [List.length_append, length_putBe]
  refine ⟨?_, ?_, ?_⟩
  · have hfits : (putBe 4 kde ++ data).length + 0 < 256 := by omega
    rw [Record.encode, List.getD_cons_succ, List.getD_cons_zero, ← hpayload]
    exact toNat_length_octet (r := (wlanEidVendorSpecific, putBe 4 kde ++ data)) hfits
  · rw [selector, Record.encode, List.drop_succ_cons, List.drop_succ_cons, List.drop_zero,
      List.take_left' (length_putBe 4 kde), beNat_putBe hkde]
  · rw [Record.encode, List.drop_succ_cons, List.drop_succ_cons, List.drop_left' (length_putBe 4 kde)]

theorem noteVendor_gtk (ie : KdeIes) (hmin : 3 ≤ data.length) (hmax : data.length ≤ 251) :
    noteVendor ie (Record.encode 0
      (wlanEidVendorSpecific, putBe 4 rsnKeyDataGroupkey ++ data)) =
      { ie with gtk := some data } := by
  obtain ⟨hlen, hsel, hdrop⟩ := kde_fields rsnKeyDataGroupkey data (by decide) hmax
  have hother : rsnKeyDataGroupkey ≠ wpaOuiType ∧ rsnKeyDataGroupkey ≠ rsnKeyDataPmkid ∧
    rsnKeyDataGroupkey ≠ rsnKeyDataIgtk := by decide
  have hzero : 4 + data.length ≠ 0 := by omega
  have hmore : 6 < 4 + data.length := by omega
  rw [noteVendor, wpaParseGeneric]
  simp only [hlen, hsel, hdrop, hother.1, hother.2.1, hother.2.2, hzero, hmore, false_and, and_false,
    and_self, if_true, if_false]

theorem noteVendor_igtk (ie : KdeIes) (hmin : 3 ≤ data.length) (hmax : data.length ≤ 251) :
    noteVendor ie (Record.encode 0 (wlanEidVendorSpecific, putBe 4 rsnKeyDataIgtk ++ data)) =
      { ie with igtk := some data } := by
  obtain ⟨hlen, hsel, hdrop⟩ := kde_fields rsnKeyDataIgtk data (by decide) hmax
  have hother : rsnKeyDataIgtk ∉ [wpaOuiType, rsnKeyDataPmkid, rsnKeyDataGroupkey,
    rsnKeyDataMacAddr, rsnKeyDataSmk, rsnKeyDataNonce, rsnKeyDataLifetime, rsnKeyDataError] := by
    decide
  have hzero : 4 + data.length ≠ 0 := by omega
  have hmore : 6 < 4 + data.length := by omega
  simp only [List.mem_cons, List.not_mem_nil, or_false, not_or] at hother
  rw [noteVendor, wpaParseGeneric]
  simp only [hlen, hsel, hdrop, hother, hzero, hmore, false_and, and_false, and_self, if_true,
    if_false]

theorem noteVendor_wpa (ie : KdeIes) (hmax : data.length ≤ 249) :
    noteVendor ie (Record.encode 0
      (wlanEidVendorSpecific, putBe 4 wpaOuiType ++ (putLe16 1 ++ data))) =
      { ie with wpaIe := some (Record.encode 0
        (wlanEidVendorSpecific, putBe 4 wpaOuiType ++ (putLe16 1 ++ data))) } := by
  have hdata : (putLe16 1 ++ data).length = 2 + data.length := by
    rw [List.length_append, length_putLe16]
  obtain ⟨hlen, hsel, -⟩ := kde_fields wpaOuiType (putLe16 1 ++ data) (by decide) (by omega)
  have hversion : (Record.encode 0 (wlanEidVendorSpecific,
      putBe 4 wpaOuiType ++ (putLe16 1 ++ data))).getD 6 0 = 1 ∧
    (Record.encode 0 (wlanEidVendorSpecific,
      putBe 4 wpaOuiType ++ (putLe16 1 ++ data))).getD 7 0 = 0 := ⟨rfl, rfl⟩
  have hother : wpaOuiType ≠ rsnKeyDataIgtk := by decide
  have hzero : 4 + (2 + data.length) ≠ 0 := by omega
  have hmore : 6 ≤ 4 + (2 + data.length) := by omega
  rw [noteVendor, wpaParseGeneric]
  simp only [hlen, hdata, hsel, hversion.1, hversion.2, hother, hzero, hmore, and_false, and_self,
    if_true, if_false]

end Kde

/-! ## The elements of a message -/

def GroupKeys.records (keys : GroupKeys) : List Record :=
  (wlanEidVendorSpecific, putBe 4 rsnKeyDataGroupkey ++ keys.gtkPayload) ::
    keys.igtk.toList.map fun k => (wlanEidVendorSpecific, putBe 4 rsnKeyDataIgtk ++ k.payload)

def Message.records (m : Message) : List Record :=
  m.ies.records ++ m.keys.records ++ m.ft.toList.flatMap FtElements.records

theorem GroupKeys.kdes_eq (keys : GroupKeys) : keys.kdes = encodeElements keys.records := by
  rw [kdes, records, encodeElements_cons, wpaAddKde_eq, gtkPayload]
  congr 1
  cases keys.igtk with
  | none => rfl
  | some k => simp [wpaAddKde_eq]

theorem Message.kde_eq (m : Message) : m.kde = encodeElements m.records := by
  rw [kde, records, encodeElements_append, encodeElements_append, GroupKeys.kdes_eq]
  congr 1
  cases m.ft with
  | none => rfl
  | some ft => simp

theorem GroupKeys.length_gtkPayload (keys : GroupKeys) :
    7 ≤ keys.gtkPayload.length ∧ keys.gtkPayload.length ≤ 34 := by
  have hlen := keys.length_gtk
  have hne := keys.cipher_ne
  have hgtk : 5 ≤ keys.gtk.length ∧ keys.gtk.length ≤ 32 := by
    rw [hlen]
    cases hc : keys.cipher with
    | none => exact absurd hc hne
    | wep40 | wep104 | tkip | ccmp => simp [gtkLenOf]
  simp only [gtkPayload, List.cons_append, List.nil_append, List.length_cons]
  omega

@[simp] theorem IgtkKde.length_payload (k : IgtkKde) : k.payload.length = 24 := by
  simp [payload]

theorem Message.sendable (m : Message) : ∀ r ∈ m.records, Sendable r := by
  have hgtk := m.keys.length_gtkPayload
  have hpayload {id : UInt8} (hid : id ≠ wlanEidVendorSpecific) (p : Payload 255) :
      Sendable (id, p.1) := ⟨Nat.lt_succ_of_le p.2, fun h => hid h.1⟩
  intro r hr
  simp only [records, Ies.records, GroupKeys.records, FtElements.records, List.mem_append, List.mem_map, List.mem_cons,
    List.mem_flatMap, Option.mem_toList, List.not_mem_nil, or_false] at hr
  rcases hr with (((⟨p, -, rfl⟩ | ⟨p, -, rfl⟩) | ⟨p, -, rfl⟩) | rfl | ⟨k, -, rfl⟩) |
    ⟨ft, -, rfl | rfl | rfl⟩
  · exact hpayload (by decide) p
  · exact hpayload (by decide) p
  · have hp := p.2
    refine ⟨?_, fun h => nomatch h.2⟩
    simp only [List.length_append, length_putBe, length_putLe16]
    omega
  · refine ⟨?_, fun h => nomatch h.2⟩
    rw [List.length_append, length_putBe]
    omega
  · refine ⟨?_, fun h => nomatch h.2⟩
    rw [List.length_append, length_putBe, k.length_payload]
    omega
  · exact hpayload (by decide) ft.ftie
  · exact ⟨by simp, fun h => nomatch h.2⟩
  · exact ⟨by simp, fun h => nomatch h.2⟩

theorem foldl_toList {α σ : Type} (note : σ → Record → σ) (f : α → Record) (o : Option α) (s : σ) :
    (o.toList.map f).foldl note s = o.elim s fun a => note s (f a) := by
  cases o <;> rfl

theorem noteSupplicantIe_vendor (ie : SupplicantIes) (payload : Bytes) :
    noteSupplicantIe ie (wlanEidVendorSpecific, payload) =
      { ie with toKdeIes :=
          noteVendor ie.toKdeIes (Record.encode 0 (wlanEidVendorSpecific, payload)) } := rfl

theorem noteSupplicantIe_timeout (ie : SupplicantIes) {payload : Bytes} (h : 5 ≤ payload.length) :
    noteSupplicantIe ie (eidTimeoutInterval, payload) =
      if payload.getD 0 0 = timeoutReassocDeadline then
        { ie with reassocDeadline := some (Record.encode 0 (eidTimeoutInterval, payload)) }
      else if payload.getD 0 0 = timeoutKeyLifetime then
        { ie with keyLifetime := some (Record.encode 0 (eidTimeoutInterval, payload)) }
      else ie := by
  have hid : eidTimeoutInterval ≠ wlanEidRsn ∧ eidTimeoutInterval ≠ eidMobilityDomain ∧
    eidTimeoutInterval ≠ eidFastBssTransition := by decide
  rw [noteSupplicantIe, if_neg hid.1, if_neg hid.2.1, if_neg hid.2.2, if_pos ⟨rfl, h⟩]

theorem foldl_ftElements (ie : SupplicantIes) (ft : FtElements) :
    ft.records.foldl noteSupplicantIe ie =
      { ie with
        ftie := some (Record.encode 0 (eidFastBssTransition, ft.ftie.1))
        reassocDeadline := some (Record.encode 0
          (eidTimeoutInterval, timeoutReassocDeadline :: ft.reassociationDeadline.toList))
        keyLifetime := some (Record.encode 0
          (eidTimeoutInterval, timeoutKeyLifetime :: ft.r0KeyLifetime.toList)) } := by
  have hlen (v : Vector UInt8 4) (reason : UInt8) : 5 ≤ (reason :: v.toList).length := by simp
  have hne : timeoutKeyLifetime ≠ timeoutReassocDeadline := by decide
  simp only [FtElements.records, List.foldl_cons, List.foldl_nil, noteSupplicantIe_timeout _ (hlen _ _),
    List.getD_cons_zero, hne, if_true, if_false]
  rfl

theorem foldl_ies (ies : Ies) :
    ies.records.foldl noteSupplicantIe SupplicantIes.empty =
      { SupplicantIes.empty with
        rsnIe := ies.rsn.map fun p => Record.encode 0 (wlanEidRsn, p.1)
        mdie := ies.mdie.map fun p => Record.encode 0 (eidMobilityDomain, p.1)
        wpaIe := ies.wpa.map fun p =>
          Record.encode 0 (wlanEidVendorSpecific, putBe 4 wpaOuiType ++ (putLe16 1 ++ p.1)) } := by
  obtain ⟨rsn, mdie, wpa⟩ := ies
  have hwpa (ie : KdeIes) (p : Payload 249) := noteVendor_wpa ie p.2
  simp only [Ies.records, List.foldl_append, foldl_toList, noteSupplicantIe_vendor, hwpa]
  cases rsn <;> cases mdie <;> cases wpa <;> rfl

theorem foldl_groupKeys (ie : SupplicantIes) (keys : GroupKeys) :
    keys.records.foldl noteSupplicantIe ie =
      { ie with
        gtk := some keys.gtkPayload
        igtk := keys.igtk.elim ie.igtk fun k => some k.payload } := by
  obtain ⟨hmin, hmax⟩ := keys.length_gtkPayload
  have hgtk (ie : KdeIes) : noteVendor ie (Record.encode 0
      (wlanEidVendorSpecific, putBe 4 rsnKeyDataGroupkey ++ keys.gtkPayload)) =
      { ie with gtk := some keys.gtkPayload } := noteVendor_gtk ie (by omega) (by omega)
  have higtk (ie : KdeIes) (k : IgtkKde) : noteVendor ie (Record.encode 0
      (wlanEidVendorSpecific, putBe 4 rsnKeyDataIgtk ++ k.payload)) =
      { ie with igtk := some k.payload } :=
    noteVendor_igtk ie (by rw [k.length_payload]; omega) (by rw [k.length_payload]; omega)
  simp only [GroupKeys.records, List.foldl_cons, foldl_toList, noteSupplicantIe_vendor, hgtk, higtk]
  cases keys.igtk <;> rfl

/-- **What the supplicant notes of a message.** -/
theorem foldl_records (m : Message) :
    m.records.foldl noteSupplicantIe SupplicantIes.empty = m.received := by
  rw [Message.records, List.foldl_append, List.foldl_append, foldl_ies, foldl_groupKeys,
    Message.received]
  cases m.ft with
  | none => cases m.keys.igtk <;> rfl
  | some ft =>
    rw [Option.toList_some, List.flatMap_singleton, foldl_ftElements]
    cases m.keys.igtk <;> rfl

end Hostapd.Ap.KeyData
