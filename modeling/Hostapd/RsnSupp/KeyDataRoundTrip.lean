import Hostapd.Ap.KeyDataKdes
import Hostapd.RsnSupp.KeyDataSafe

/-!
# The key data of the authenticator at the supplicant

The supplicant's path from a frame with encrypted key data to the group keys: the check of the length
(`rxCheckLength`), the decryption (`decryptKeyData`), the parser and the functions that take the keys
from the KDEs.

* **`key_data_round_trip`**: what the authenticator puts into a message is what the supplicant finds,
  for every length of the key data and so for every padding.

The key wrap and its inverse are assumed to be inverse to each other (`KeyWrap`).
-/

namespace Hostapd.RsnSupp

open Hostapd.Lib Hostapd.KeyDataIes
open Hostapd.Ap.KeyData
open Hostapd.Ap.WpaAuth (padKde gtkLenOf)

/-! ## The keys in the KDEs -/

/-- The group key data of a KDE. Source: `wpa_supplicant_pairwise_gtk`,
`wpa_supplicant_process_1_of_2_rsn`. -/
def gtkData (sm : RxSm) (gtk : Bytes) (res : ℕ × WpaAlg) : WpaGtkData where
  alg := res.2
  tx := gtkTxBitWorkaround sm (gtk.getD 0 0 &&& 4 ≠ 0)
  keyRscLen := res.1
  keyidx := (gtk.getD 0 0 &&& 3).toNat
  gtk := overwrite (List.replicate gtkBufLen 0) 0 (gtk.drop 2)
  gtkLen := gtk.length - 2

/-- The group key of message 3/4; `none` is the failure. Source: `wpa_supplicant_pairwise_gtk`, up to
the driver. -/
def pairwiseGtk (sm : RxSm) (gtk : Bytes) : Option WpaGtkData :=
  if gtk.length < 2 ∨ gtk.length - 2 > gtkBufLen then none
  else (checkGroupCipher sm.groupCipher (gtk.length - 2) (gtk.length - 2)).map (gtkData sm gtk)

/-- The group key of message 1/2 of the group key handshake; `none` is the failure. The result of the
parser is not looked at. Source: `wpa_supplicant_process_1_of_2_rsn`. -/
def process1Of2Rsn (sm : RxSm) (f : EapolKey) : Option WpaGtkData :=
  match (wpaSupplicantParseIes f.keyData).2.gtk with
  | none => none
  | some gtk =>
    if ¬ f.keyInfo.isEncrKeyData then none
    else
      match checkGroupCipher sm.groupCipher (gtk.length - 2) (gtk.length - 2) with
      | none => none
      | some res => if gtk.length - 2 > gtkBufLen then none else some (gtkData sm gtk res)

/-- The key index, the packet number and the key that are given to the driver, if there is an IGTK;
the outer `none` is the failure. Source: `ieee80211w_set_keys`, for a management group cipher
AES-128-CMAC. -/
def ieee80211wSetKeys (igtk : Option Bytes) : Option (Option (ℕ × Bytes × Bytes)) :=
  match igtk with
  | none => some none
  | some igtk =>
    if igtk.length ≠ 24 then none
    else if le16 igtk > 4095 then none
    else some (some (le16 igtk, (igtk.drop 2).take 6, igtk.drop 8))

/-! ## Decryption -/

/-- The key wrap and its inverse. Source: `crypto/aes-wrap.c`, `aes_wrap`; `crypto/aes-unwrap.c`,
`aes_unwrap`. -/
structure KeyWrap (C : Crypto) : Prop where
  length : ∀ kek plain, plain.length % 8 = 0 → (C.aesWrap kek plain).length = plain.length + 8
  unwrap : ∀ kek plain, plain.length % 8 = 0 → C.aesUnwrap kek (C.aesWrap kek plain) = some plain

theorem padKde_eq (kde : Bytes) : ∃ tail, padKde kde = kde ++ tail ∧
    IsPadding wlanEidVendorSpecific tail ∧ tail.length ≤ 7 ∧ (padKde kde).length % 8 = 0 := by
  unfold padKde
  split
  · rename_i hblocks
    exact ⟨[], (List.append_nil kde).symm, .inl (by simp), by simp, hblocks⟩
  · rename_i hblocks
    refine ⟨0xdd :: List.replicate (7 - kde.length % 8) 0, rfl, ?_, ?_, ?_⟩
    · cases hn : 7 - kde.length % 8 with
      | zero => exact .inl (by simp)
      | succ n => exact .inr ⟨List.replicate n 0, rfl⟩
    · simp only [List.length_cons, List.length_replicate]
      omega
    · simp only [List.length_append, List.length_cons, List.length_replicate]
      omega

section Path

variable {C : RxCrypto} (hC : KeyWrap C.toCrypto) {sm : RxSm} {f : EapolKey} {kde : Bytes}

include hC

theorem length_sealKeyData (kek : BitVec 128) (hlen : kde.length < 60000) :
    (sealKeyData C.toCrypto kek f kde).keyDataLength.toNat =
        (sealKeyData C.toCrypto kek f kde).body.length ∧
      (sealKeyData C.toCrypto kek f kde).body.length = (padKde kde).length + 8 ∧
      (sealKeyData C.toCrypto kek f kde).length.toNat =
        95 + (sealKeyData C.toCrypto kek f kde).body.length := by
  obtain ⟨tail, htail, -, hshort, hblocks⟩ := padKde_eq kde
  have hbody := hC.length kek (padKde kde) hblocks
  have hpad : (padKde kde).length ≤ kde.length + 7 := by
    rw [htail, List.length_append]
    omega
  refine ⟨?_, hbody, ?_⟩
  · simp only [sealKeyData, BitVec.toNat_ofNat, hbody]
    omega
  · simp only [sealKeyData, BitVec.toNat_ofNat, hbody]
    omega

theorem rxCheckLength_sealed (kek : BitVec 128) (hlen : kde.length < 60000) :
    rxCheckLength sm none (sealKeyData C.toCrypto kek f kde) =
      (sm, .passed (sealKeyData C.toCrypto kek f kde) none) := by
  obtain ⟨hkdl, -, hlength⟩ := length_sealKeyData hC (f := f) kek hlen
  rw [rxCheckLength, if_neg (by rw [hkdl, hlength, eapolKeyLen]; omega)]
  rfl

theorem decryptKeyData_sealed (hset : sm.ptkSet = true)
    (hver : f.keyInfo.version = KeyInfo.hmacSha1Aes ∨ f.keyInfo.version = aes128Cmac)
    (hlen : kde.length < 60000) :
    ∃ plain, decryptKeyData C sm (sealKeyData C.toCrypto sm.ptk.kek f kde) = .ok (some plain) ∧
      plain.keyInfo = f.keyInfo ∧ plain.keyData = padKde kde := by
  obtain ⟨tail, htail, -, hshort, hblocks⟩ := padKde_eq kde
  obtain ⟨hkdl, hbody, -⟩ := length_sealKeyData hC (f := f) sm.ptk.kek hlen
  have hkeep : (sealKeyData C.toCrypto sm.ptk.kek f kde).keyInfo = f.keyInfo := rfl
  have hcipher : (sealKeyData C.toCrypto sm.ptk.kek f kde).body =
    C.aesWrap sm.ptk.kek (padKde kde) := rfl
  generalize hsent : sealKeyData C.toCrypto sm.ptk.kek f kde = sent at hkdl hbody hkeep hcipher ⊢
  have hunwrapped : unwrappedLen sent.keyDataLength = some (sent.keyDataLength - 8#16) := by
    rw [unwrappedLen, if_neg]
    rw [hkdl, hbody]
    omega
  obtain ⟨hn, -⟩ := unwrappedLen_toNat hunwrapped (by omega)
  generalize sent.keyDataLength - 8#16 = n at hunwrapped hn
  have hwhole : sent.body.take (8 + 8 * (n.toNat / 8)) = sent.body := List.take_of_length_le (by omega)
  have hplain : C.aesUnwrap sm.ptk.kek (sent.body.take (8 + 8 * (n.toNat / 8))) =
      some (padKde kde) := by
    rw [hwhole, hcipher]
    exact hC.unwrap _ _ hblocks
  have hall : rdSlice (padKde kde) 0 n.toNat = .ok (padKde kde) := by
    rw [show n.toNat = (padKde kde).length by omega]
    exact rdSlice_all _
  refine ⟨{ sent with body := overwrite sent.body 0 (padKde kde), keyDataLength := n }, ?_, hkeep, ?_⟩
  · unfold decryptKeyData
    dsimp only
    rw [hkeep, if_neg (by simp [hset]), if_neg (rc4_ne_aes hver), if_pos hver, hunwrapped]
    dsimp only
    rw [aesUnwrapInto_inside (by omega) (by omega) (by omega), ok_bind, hplain]
    dsimp only
    rw [hall, ok_bind, wrUpTo_of (by omega) (by omega), ok_bind]
    rfl
  · have hover : overwrite sent.body 0 (padKde kde) =
        padKde kde ++ sent.body.drop (padKde kde).length := by
      simp [overwrite]
    show (overwrite sent.body 0 (padKde kde)).take n.toNat = padKde kde
    rw [hover, List.take_left' (by omega)]

end Path

/-! ## The keys -/

theorem length_kde_lt (m : Message) : m.kde.length < 60000 := by
  have hgtk := m.keys.length_gtkPayload
  have hies : (encodeElements m.ies.records).length ≤ 771 := by
    obtain ⟨rsn, mdie, wpa⟩ := m.ies
    have hsome (room : ℕ) (o : Option (Payload room)) (f : Payload room → Record)
        (hf : ∀ p, (f p).2.length ≤ 255) : (encodeElements (o.toList.map f)).length ≤ 257 := by
      cases o with
      | none => exact Nat.zero_le _
      | some p =>
        have := hf p
        simp only [Option.toList_some, List.map_cons, List.map_nil, encodeElements_cons,
          encodeElements_nil, List.append_nil, Record.length_encode]
        omega
    have h₁ := hsome 255 rsn (fun p => (wlanEidRsn, p.1)) fun p => p.2
    have h₂ := hsome 255 mdie (fun p => (Ft.eidMobilityDomain, p.1)) fun p => p.2
    have h₃ := hsome 249 wpa (fun p => (wlanEidVendorSpecific, putBe 4 wpaOuiType ++ (putLe16 1 ++ p.1)))
      fun p => by
        have := p.2
        simp only [List.length_append, length_putBe, length_putLe16]
        omega
    simp only [Ies.records, encodeElements_append, List.length_append]
    omega
  have hkeys : m.keys.kdes.length ≤ 70 := by
    rw [GroupKeys.kdes_eq, GroupKeys.records, encodeElements_cons, List.length_append,
      Record.length_encode]
    cases m.keys.igtk with
    | none =>
      simp only [List.length_append, length_putBe, Option.toList_none, List.map_nil,
        encodeElements_nil, List.length_nil]
      omega
    | some k =>
      simp only [List.length_append, length_putBe, Option.toList_some, List.map_cons, List.map_nil,
        encodeElements_cons, encodeElements_nil, Record.length_encode, k.length_payload,
        List.append_nil]
      omega
  have hft : (encodeElements (m.ft.toList.flatMap FtElements.records)).length ≤ 271 := by
    cases m.ft with
    | none => exact Nat.zero_le _
    | some ft =>
      have := ft.ftie.2
      simp [FtElements.records]
      omega
  rw [Message.kde_eq, Message.records, encodeElements_append, encodeElements_append,
    ← GroupKeys.kdes_eq, List.length_append, List.length_append]
  omega

section Keys

variable {sm : RxSm} (keys : GroupKeys)

theorem checkGroupCipher_self {cipher : WpaCipher} (h : cipher ≠ .none) :
    ∃ res, checkGroupCipher cipher (gtkLenOf cipher) (gtkLenOf cipher) = some res := by
  cases cipher with
  | none => exact absurd rfl h
  | wep40 | wep104 | tkip | ccmp => exact ⟨_, rfl⟩

theorem length_gtk_le : keys.gtk.length ≤ gtkBufLen := by
  have hmax := keys.length_gtkPayload.2
  simp only [GroupKeys.gtkPayload, List.length_append, List.length_cons, List.length_nil] at hmax
  rw [gtkBufLen]
  omega

theorem index_octet {gn : ℕ} (h : gn < 4) :
    (UInt8.ofNat (gn % 4) &&& 3).toNat = gn ∧ UInt8.ofNat (gn % 4) &&& 4 = 0 := by
  match gn, h with
  | 0, _ | 1, _ | 2, _ | 3, _ => decide

theorem gtkData_gtkPayload (res : ℕ × WpaAlg) :
    (gtkData sm keys.gtkPayload res).keyidx = keys.gn ∧
      (gtkData sm keys.gtkPayload res).gtk.take (gtkData sm keys.gtkPayload res).gtkLen =
        keys.gtk ∧
      (gtkData sm keys.gtkPayload res).tx = false := by
  obtain ⟨hgn, htx⟩ := index_octet keys.gn_lt
  have hindex : keys.gtkPayload.getD 0 0 = UInt8.ofNat (keys.gn % 4) := rfl
  have hkey : keys.gtkPayload.drop 2 = keys.gtk := rfl
  have hoctets : keys.gtkPayload.length - 2 = keys.gtk.length := rfl
  refine ⟨?_, ?_, ?_⟩
  · simp only [gtkData, hindex, hgn]
  · simp only [gtkData, hkey, hoctets, overwrite, List.take_zero, List.nil_append]
    rw [List.take_left' rfl]
  · have hbit : ¬ keys.gtkPayload.getD 0 0 &&& 4 ≠ 0 := by
      rw [hindex, htx]
      simp
    simp only [gtkData, decide_eq_false hbit]
    rfl

theorem pairwiseGtk_gtkPayload (hcipher : sm.groupCipher = keys.cipher) :
    ∃ res, pairwiseGtk sm keys.gtkPayload = some (gtkData sm keys.gtkPayload res) := by
  obtain ⟨res, hres⟩ := checkGroupCipher_self keys.cipher_ne
  have hlen := length_gtk_le keys
  have hoctets : keys.gtkPayload.length - 2 = keys.gtk.length := rfl
  have hmin := keys.length_gtkPayload.1
  refine ⟨res, ?_⟩
  rw [pairwiseGtk, if_neg (by omega), hoctets, hcipher, keys.length_gtk, hres]
  rfl

theorem process1Of2Rsn_gtkPayload {f : EapolKey} (hcipher : sm.groupCipher = keys.cipher)
    (hencr : f.keyInfo.isEncrKeyData = true)
    (hgtk : (wpaSupplicantParseIes f.keyData).2.gtk = some keys.gtkPayload) :
    process1Of2Rsn sm f = pairwiseGtk sm keys.gtkPayload := by
  obtain ⟨res, hres⟩ := checkGroupCipher_self keys.cipher_ne
  have hlen := length_gtk_le keys
  have hoctets : keys.gtkPayload.length - 2 = keys.gtk.length := rfl
  have hmin := keys.length_gtkPayload.1
  rw [process1Of2Rsn, hgtk, pairwiseGtk]
  dsimp only
  rw [if_neg (by simp [hencr]), if_neg (by omega), hoctets, hcipher, keys.length_gtk, hres]
  dsimp only
  rw [if_neg (by rw [← keys.length_gtk]; omega)]
  rfl

theorem ieee80211wSetKeys_payload (k : IgtkKde) :
    ieee80211wSetKeys (some k.payload) =
      some (some (k.gnIgtk, k.pn.toList, k.igtk.toList)) := by
  have hindex : le16 k.payload = k.gnIgtk := by
    have hoctet : (UInt8.ofNat k.gnIgtk).toNat = k.gnIgtk := by
      rw [UInt8.toNat_ofNat']
      exact Nat.mod_eq_of_lt k.gnIgtk_lt
    show (UInt8.ofNat k.gnIgtk).toNat + (0 : UInt8).toNat * 256 = k.gnIgtk
    rw [hoctet]
    rfl
  have hpn : k.pn.toList.length = 6 := Vector.length_toList
  have hlt := k.gnIgtk_lt
  rw [ieee80211wSetKeys, if_neg (by rw [k.length_payload]; decide), hindex, if_neg (by omega)]
  have hkey : k.payload.drop 8 = k.igtk.toList := by
    show (k.pn.toList ++ k.igtk.toList).drop 6 = k.igtk.toList
    exact List.drop_left' hpn
  have hnum : (k.payload.drop 2).take 6 = k.pn.toList := by
    show (k.pn.toList ++ k.igtk.toList).take 6 = k.pn.toList
    exact List.take_left' hpn
  rw [hkey, hnum]

end Keys

/-! ## The round trip -/

/-- What the authenticator puts into message 3/4, or into message 1/2 of the group key handshake, the
supplicant finds: the length is accepted, the key data is decrypted, both parsers succeed and find
the elements and the KDEs of the message and nothing else, and the group key, its index and the IGTK
are taken from the KDEs. -/
theorem key_data_round_trip {C : RxCrypto} (hC : KeyWrap C.toCrypto) (m : Message) {sm : RxSm}
    {f : EapolKey} (hset : sm.ptkSet = true) (hencr : f.keyInfo.isEncrKeyData = true)
    (hver : f.keyInfo.version = KeyInfo.hmacSha1Aes ∨ f.keyInfo.version = aes128Cmac) :
    rxCheckLength sm none (sealKeyData C.toCrypto sm.ptk.kek f m.kde) =
        (sm, .passed (sealKeyData C.toCrypto sm.ptk.kek f m.kde) none) ∧
      ∃ plain,
        decryptKeyData C sm (sealKeyData C.toCrypto sm.ptk.kek f m.kde) = .ok (some plain) ∧
        wpaSupplicantParseIes plain.keyData = (true, m.received) ∧
        KeyDataIes.wpaParseKdeIes plain.keyData = (true, m.received.toKdeIes) ∧
        (sm.groupCipher = m.keys.cipher → ∃ gd,
          pairwiseGtk sm m.keys.gtkPayload = some gd ∧ process1Of2Rsn sm plain = some gd ∧
          gd.keyidx = m.keys.gn ∧ gd.gtk.take gd.gtkLen = m.keys.gtk ∧ gd.tx = false) ∧
        ieee80211wSetKeys m.received.igtk =
          some (m.keys.igtk.map fun k => (k.gnIgtk, k.pn.toList, k.igtk.toList)) := by
  have hlen := length_kde_lt m
  obtain ⟨plain, hplain, hinfo, hdata⟩ := decryptKeyData_sealed hC hset hver hlen
  obtain ⟨tail, htail, hpadding, -⟩ := padKde_eq m.kde
  obtain ⟨hsupp, hauth⟩ := parse_encodeElements m.sendable hpadding
  rw [← Message.kde_eq, ← htail, ← hdata, foldl_records] at hsupp hauth
  refine ⟨rxCheckLength_sealed hC _ hlen, plain, hplain, hsupp, hauth, fun hcipher => ?_, ?_⟩
  · obtain ⟨res, hres⟩ := pairwiseGtk_gtkPayload m.keys hcipher
    have hgroup : process1Of2Rsn sm plain = pairwiseGtk sm m.keys.gtkPayload := by
      apply process1Of2Rsn_gtkPayload m.keys hcipher
      · rw [hinfo, hencr]
      · rw [hsupp]
        rfl
    refine ⟨_, hres, ?_, gtkData_gtkPayload m.keys res⟩
    rw [hgroup, hres]
  · show ieee80211wSetKeys (m.keys.igtk.map IgtkKde.payload) = _
    cases m.keys.igtk with
    | none => rfl
    | some k => exact ieee80211wSetKeys_payload k

def sampleKeyWrap : RxCrypto :=
  { sampleRxCrypto with
    aesWrap := fun _ plain => List.replicate 8 0xa6 ++ plain
    aesUnwrap := fun _ cipher => some (cipher.drop 8) }

/-- Message 3/4 with an RSN element, a CCMP group key and an IGTK, 68 octets that need padding. -/
def sampleMessage : Message where
  ies := ⟨some ⟨[1, 0, 0, 0x0f, 0xac, 4, 1, 0, 0, 0x0f, 0xac, 4, 1, 0, 0, 0x0f, 0xac, 2, 0, 0],
    by decide⟩, none, none⟩
  keys := {
    cipher := .ccmp
    gn := 1
    gtk := List.replicate 16 0x5a
    igtk := some ⟨4, Vector.replicate 6 0, Vector.replicate 16 0x3c, by decide⟩
    cipher_ne := by decide
    gn_lt := by decide
    length_gtk := rfl }
  ft := none

theorem key_data_round_trip_msg_3 :
    ∃ plain, decryptKeyData sampleKeyWrap sampleRxSm (sealKeyData sampleKeyWrap.toCrypto
        sampleRxSm.ptk.kek (sampleRxFrame (KeyInfo.hmacSha1Aes ||| KeyInfo.encrKeyData))
        sampleMessage.kde) = .ok (some plain) ∧
      wpaSupplicantParseIes plain.keyData = (true, sampleMessage.received) := by
  have hwrap : KeyWrap sampleKeyWrap.toCrypto := by
    refine ⟨fun _ plain _ => ?_, fun _ plain _ => ?_⟩
    · show (List.replicate 8 (0xa6 : UInt8) ++ plain).length = plain.length + 8
      rw [List.length_append, List.length_replicate, add_comm]
    · show some ((List.replicate 8 (0xa6 : UInt8) ++ plain).drop 8) = some plain
      rw [List.drop_left' List.length_replicate]
  have hset : sampleRxSm.ptkSet = true := rfl
  obtain ⟨-, plain, hplain, hparse, -⟩ := key_data_round_trip hwrap sampleMessage hset
    (f := sampleRxFrame (KeyInfo.hmacSha1Aes ||| KeyInfo.encrKeyData)) (by decide)
    (.inl (by decide))
  exact ⟨plain, hplain, hparse⟩

end Hostapd.RsnSupp
