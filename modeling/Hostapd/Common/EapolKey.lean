import Hostapd.Common.Defs
import Hostapd.Lib.Octets

/-!
# EAPOL-Key frames and the pairwise key hierarchy

What `common/wpa_common.c` and `common/wpa_common.h` give both ends of the handshakes.

* **`EapolKey`**: an EAPOL-Key frame, the IEEE 802.1X header and `struct wpa_eapol_key` with what
  follows them. `EapolKey.ofBytes` reads one from octets of any length and `EapolKey.toBytes`
  writes it; `ofBytes_toBytes` and `toBytes_of_ofBytes` say they are inverse to each other.
* **`wpaEapolKeyMic`** and `wpaVerifyKeyMic`: the MIC of a frame and its check.
* **`wpaPmkToPtk`**: the pairwise transient key of two nonces; it does not depend on which side
  calls which nonce and address the first.

The MAC functions, the pseudo-random function and the ciphers are the parameter `Crypto`.
-/

namespace Hostapd

open Hostapd.Lib

/-! ## Key Information -/

/-- The Key Information field. Source: `wpa_common.h`, `WPA_KEY_INFO_*`. -/
abbrev KeyInfo := BitVec 16

namespace KeyInfo

abbrev bit (n : ℕ) : KeyInfo := BitVec.twoPow 16 n

/-- A frame of the 4-way handshake rather than of the group key handshake. -/
abbrev keyType : KeyInfo := bit 3
abbrev install : KeyInfo := bit 6
abbrev ack : KeyInfo := bit 7
abbrev mic : KeyInfo := bit 8
abbrev secure : KeyInfo := bit 9
abbrev error : KeyInfo := bit 10
abbrev encrKeyData : KeyInfo := bit 12
abbrev smkMessage : KeyInfo := bit 13

/-- `key_info & WPA_KEY_INFO_KEY_TYPE`, and so on for the other bits. -/
def isKeyType (ki : KeyInfo) : Bool := ki.getLsbD 3
def isInstall (ki : KeyInfo) : Bool := ki.getLsbD 6
def isAck (ki : KeyInfo) : Bool := ki.getLsbD 7
def isMic (ki : KeyInfo) : Bool := ki.getLsbD 8
def isError (ki : KeyInfo) : Bool := ki.getLsbD 10
def isRequest (ki : KeyInfo) : Bool := ki.getLsbD 11
def isEncrKeyData (ki : KeyInfo) : Bool := ki.getLsbD 12
def isSmkMessage (ki : KeyInfo) : Bool := ki.getLsbD 13

/-- The descriptor version, `key_info & WPA_KEY_INFO_TYPE_MASK`. -/
def version (ki : KeyInfo) : KeyInfo := ki &&& 7#16

/-- `WPA_KEY_INFO_TYPE_HMAC_MD5_RC4`. -/
abbrev hmacMd5Rc4 : KeyInfo := 1#16

/-- `WPA_KEY_INFO_TYPE_HMAC_SHA1_AES`. -/
abbrev hmacSha1Aes : KeyInfo := 2#16

end KeyInfo

/-! ## Frames -/

/-- The nonces, the counters and the keys of the handshakes. -/
abbrev Nonce := BitVec 256
abbrev ReplayCounter := BitVec 64
abbrev Pmk := BitVec 256

/-- An EAPOL-Key frame. `body` is what follows the fixed part: the key data, and any octets a
received frame carries after it. Source: `struct ieee802_1x_hdr`, `struct wpa_eapol_key`. -/
structure EapolKey where
  version : BitVec 8
  ptype : BitVec 8
  length : BitVec 16
  type : BitVec 8
  keyInfo : KeyInfo
  keyLength : BitVec 16
  replayCounter : ReplayCounter
  keyNonce : Nonce
  keyIv : BitVec 128
  keyRsc : BitVec 64
  keyId : BitVec 64
  keyMic : BitVec 128
  keyDataLength : BitVec 16
  body : Bytes
  deriving DecidableEq

/-- `IEEE802_1X_TYPE_EAPOL_KEY`. -/
def ieee8021xTypeEapolKey : BitVec 8 := 3#8

/-- `EAPOL_KEY_TYPE_RSN` and `EAPOL_KEY_TYPE_WPA`. -/
def eapolKeyTypeRsn : BitVec 8 := 2#8
def eapolKeyTypeWpa : BitVec 8 := 254#8

/-- The octets of the fixed part, `sizeof(struct ieee802_1x_hdr) + sizeof(struct wpa_eapol_key)`.
-/
def eapolKeyHdrLen : ℕ := 99

/-- The widths in octets of the fields of the fixed part. -/
def EapolKey.layout : List ℕ := [1, 1, 2, 1, 2, 2, 8, 32, 16, 8, 8, 16, 2]

/-- The fields of the fixed part with their widths. -/
def EapolKey.fields (f : EapolKey) : List (ℕ × ℕ) :=
  [(1, f.version.toNat), (1, f.ptype.toNat), (2, f.length.toNat), (1, f.type.toNat),
    (2, f.keyInfo.toNat), (2, f.keyLength.toNat), (8, f.replayCounter.toNat),
    (32, f.keyNonce.toNat), (16, f.keyIv.toNat), (8, f.keyRsc.toNat), (8, f.keyId.toNat),
    (16, f.keyMic.toNat), (2, f.keyDataLength.toNat)]

def EapolKey.toBytes (f : EapolKey) : Bytes := writeFields f.fields ++ f.body

/-- The frame at the front of a buffer, if the buffer holds the fixed part. -/
def EapolKey.ofBytes (data : Bytes) : Option EapolKey :=
  if data.length < eapolKeyHdrLen then none
  else match readFields EapolKey.layout data with
    | ([v, pt, len, ty, ki, kl, rc, no, iv, rsc, kid, mic, kdl], body) =>
      some {
        version := BitVec.ofNat 8 v
        ptype := BitVec.ofNat 8 pt
        length := BitVec.ofNat 16 len
        type := BitVec.ofNat 8 ty
        keyInfo := BitVec.ofNat 16 ki
        keyLength := BitVec.ofNat 16 kl
        replayCounter := BitVec.ofNat 64 rc
        keyNonce := BitVec.ofNat 256 no
        keyIv := BitVec.ofNat 128 iv
        keyRsc := BitVec.ofNat 64 rsc
        keyId := BitVec.ofNat 64 kid
        keyMic := BitVec.ofNat 128 mic
        keyDataLength := BitVec.ofNat 16 kdl
        body := body }
    | _ => none

namespace EapolKey

def keyData (f : EapolKey) : Bytes := f.body.take f.keyDataLength.toNat

theorem map_fst_fields (f : EapolKey) : f.fields.map (·.1) = layout := rfl

theorem fields_fit (f : EapolKey) : ∀ a ∈ f.fields, a.2 < 256 ^ a.1 := by
  have h8 (x : BitVec 8) : x.toNat < 256 ^ 1 := x.isLt
  have h16 (x : BitVec 16) : x.toNat < 256 ^ 2 := x.isLt
  have h64 (x : BitVec 64) : x.toNat < 256 ^ 8 := x.isLt
  have h128 (x : BitVec 128) : x.toNat < 256 ^ 16 := x.isLt
  have h256 (x : BitVec 256) : x.toNat < 256 ^ 32 := x.isLt
  intro a ha
  simp only [fields, List.mem_cons, List.not_mem_nil, or_false] at ha
  rcases ha with rfl | rfl | rfl | rfl | rfl | rfl | rfl | rfl | rfl | rfl | rfl | rfl | rfl
  · exact h8 _
  · exact h8 _
  · exact h16 _
  · exact h8 _
  · exact h16 _
  · exact h16 _
  · exact h64 _
  · exact h256 _
  · exact h128 _
  · exact h64 _
  · exact h64 _
  · exact h128 _
  · exact h16 _

@[simp] theorem length_toBytes (f : EapolKey) :
    f.toBytes.length = eapolKeyHdrLen + f.body.length := by
  rw [toBytes, List.length_append, length_writeFields, map_fst_fields]
  rfl

theorem ofBytes_toBytes (f : EapolKey) : ofBytes f.toBytes = some f := by
  have hlen : ¬ f.toBytes.length < eapolKeyHdrLen := by
    rw [length_toBytes]
    omega
  have hread : readFields layout f.toBytes = (f.fields.map (·.2), f.body) := by
    rw [← map_fst_fields f]
    exact readFields_writeFields f.fields f.fields_fit f.body
  rw [ofBytes, if_neg hlen, hread]
  simp [fields]

theorem toBytes_of_ofBytes {data : Bytes} {f : EapolKey} (h : ofBytes data = some f) :
    f.toBytes = data := by
  have hlen : eapolKeyHdrLen ≤ data.length := by
    by_contra hlt
    rw [ofBytes, if_pos (by omega)] at h
    exact nomatch h
  have hsum : layout.sum ≤ data.length := hlen
  have hfit (w k : ℕ) (hw : 2 ^ w = 256 ^ k) (l : Bytes) :
      (BitVec.ofNat w (beNat (l.take k))).toNat = beNat (l.take k) := by
    have hlt : beNat (l.take k) < 256 ^ (l.take k).length := beNat_lt _
    have hle : 256 ^ (l.take k).length ≤ 256 ^ k := Nat.pow_le_pow_right (by omega) (by simp)
    rw [BitVec.toNat_ofNat, Nat.mod_eq_of_lt (by omega)]
  rw [ofBytes, if_neg (by omega)] at h
  simp only [layout, readFields, Option.some.injEq] at h
  have hwrite := writeFields_readFields layout hsum
  rw [← hwrite, ← h, toBytes]
  congr 1
  simp only [fields, layout, readFields, List.zip_cons_cons, List.zip_nil_left,
    hfit 8 1 (by decide), hfit 16 2 (by decide), hfit 64 8 (by decide), hfit 128 16 (by decide),
    hfit 256 32 (by decide)]

end EapolKey

/-! ## Integrity -/

/-- The primitives of `src/crypto`: the MACs, the pseudo-random function that expands a PMK, the
key wrap and the stream cipher of the two descriptor versions. -/
structure Crypto where
  /-- `hmac_md5` with a 16-octet key. -/
  hmacMd5 : BitVec 128 → Bytes → BitVec 128
  /-- `hmac_sha1` with a 16-octet key. -/
  hmacSha1 : BitVec 128 → Bytes → BitVec 160
  /-- `sha1_prf` with the label `"Pairwise key expansion"` and 64 octets of output. -/
  sha1Prf : Pmk → Bytes → BitVec 512
  /-- `aes_wrap` with a 16-octet key. -/
  aesWrap : BitVec 128 → Bytes → Bytes
  /-- `aes_unwrap` with a 16-octet key. -/
  aesUnwrap : BitVec 128 → Bytes → Option Bytes
  /-- `rc4_skip` with a 32-octet key, skipping 256 octets. -/
  rc4Skip : BitVec 256 → Bytes → Bytes

variable (C : Crypto)

/-- The MIC of an EAPOL frame whose MIC field is zero, `none` for a descriptor version that has
none. Source: `wpa_common.c`, `wpa_eapol_key_mic`. -/
def wpaEapolKeyMic (key : BitVec 128) (ver : KeyInfo) (buf : Bytes) : Option (BitVec 128) :=
  if ver = KeyInfo.hmacMd5Rc4 then some (C.hmacMd5 key buf)
  else if ver = KeyInfo.hmacSha1Aes then some ((C.hmacSha1 key buf).extractLsb' 32 128)
  else none

def EapolKey.micUnder (kck : BitVec 128) (f : EapolKey) : Option (BitVec 128) :=
  wpaEapolKeyMic C kck f.keyInfo.version { f with keyMic := 0#128 }.toBytes

/-- Whether a frame carries the MIC under a key.
Source: `wpa_auth.c`, `wpa_verify_key_mic`; `rsn_supp/wpa.c`, the comparisons of
`wpa_supplicant_verify_eapol_key_mic`. -/
def EapolKey.micOk (kck : BitVec 128) (f : EapolKey) : Bool :=
  f.micUnder C kck == some f.keyMic

/-! ## Pairwise keys -/

/-- A pairwise transient key. `auth` holds the TKIP Michael keys for transmission and reception
by the authenticator; a 48-octet PTK does not reach them.
Source: `wpa_common.h`, `struct wpa_ptk`. -/
structure Ptk where
  kck : BitVec 128
  kek : BitVec 128
  tk1 : BitVec 128
  auth : Option (BitVec 64 × BitVec 64)
  deriving DecidableEq

def Ptk.zero : Ptk where
  kck := 0#128
  kek := 0#128
  tk1 := 0#128
  auth := none

/-- The temporal key handed to the driver: 16 octets, or 32 with the Michael keys. -/
structure Tk where
  tk1 : BitVec 128
  auth : Option (BitVec 64 × BitVec 64)
  deriving DecidableEq

/-- The octets of a PTK from `tk1` on that a key of the cipher takes: `klen` is 32 for TKIP and 16
otherwise. -/
def Ptk.tk (ptk : Ptk) (pairwise : WpaCipher) : Tk where
  tk1 := ptk.tk1
  auth := if pairwise = .tkip then ptk.auth else none

/-- The addresses and the nonces in the order the derivation takes them.
Source: `wpa_common.c`, `wpa_pmk_to_ptk`, the buffer `data`. -/
def ptkData (addr1 addr2 : MacAddr) (nonce1 nonce2 : Nonce) : Bytes :=
  putBe 6 (min addr1.toNat addr2.toNat) ++ putBe 6 (max addr1.toNat addr2.toNat) ++
    (putBe 32 (min nonce1.toNat nonce2.toNat) ++ putBe 32 (max nonce1.toNat nonce2.toNat))

/-- The PTK of a PMK, two addresses and two nonces. `long` asks for 64 octets rather than 48.
Source: `wpa_common.c`, `wpa_pmk_to_ptk`. -/
def wpaPmkToPtk (pmk : Pmk) (addr1 addr2 : MacAddr) (nonce1 nonce2 : Nonce) (long : Bool) : Ptk :=
  let out := C.sha1Prf pmk (ptkData addr1 addr2 nonce1 nonce2)
  { kck := out.extractLsb' 384 128
    kek := out.extractLsb' 256 128
    tk1 := out.extractLsb' 128 128
    auth := if long then some (out.extractLsb' 64 64, out.extractLsb' 0 64) else none }

end Hostapd

/-!
## Key data

The key data field of an EAPOL-Key frame: a sequence of elements, each an identifier, a length and
a payload, of which vendor elements are the key data encapsulations (KDEs).

* `wpaAddKde` writes a KDE.
* **`wpaParseKdeIes`** reads the field. The parsers of the authenticator (`wpa_auth_ie.c`) and of
  the supplicant (`rsn_supp/wpa_ie.c`) agree on what is modelled here, so both use it. The loop of
  the source is `parseIes`, with a bound on its iterations that is never reached.
-/

namespace Hostapd

open Hostapd.Lib

/-- `WLAN_EID_RSN` and `WLAN_EID_VENDOR_SPECIFIC`. -/
def wlanEidRsn : UInt8 := 48
def wlanEidVendorSpecific : UInt8 := 221

/-- The selectors of the KDEs. Source: `wpa_common.h`, `RSN_KEY_DATA_*` and `WPA_OUI_TYPE`. -/
def rsnKeyData (n : ℕ) : ℕ := 0x000fac00 + n
def rsnKeyDataGroupkey : ℕ := rsnKeyData 1
def rsnKeyDataMacAddr : ℕ := rsnKeyData 3
def rsnKeyDataPmkid : ℕ := rsnKeyData 4
def rsnKeyDataSmk : ℕ := rsnKeyData 5
def rsnKeyDataNonce : ℕ := rsnKeyData 6
def rsnKeyDataLifetime : ℕ := rsnKeyData 7
def rsnKeyDataError : ℕ := rsnKeyData 8
def wpaOuiType : ℕ := 0x0050f201

/-- A KDE with a payload in two parts. Source: `wpa_auth_ie.c`, `wpa_add_kde`. -/
def wpaAddKde (kde : ℕ) (data data2 : Bytes) : Bytes :=
  wlanEidVendorSpecific :: UInt8.ofNat (4 + data.length + data2.length) ::
    (putBe 4 kde ++ data ++ data2)

/-- What the key data holds: the two information elements whole, and the payloads of the KDEs.
Source: `wpa_auth_ie.h`, `struct wpa_eapol_ie_parse`. -/
structure EapolIeParse where
  wpaIe : Option Bytes
  rsnIe : Option Bytes
  pmkid : Option Bytes
  gtk : Option Bytes
  macAddr : Option Bytes
  smk : Option Bytes
  nonce : Option Bytes
  lifetime : Option Bytes
  error : Option Bytes
  deriving DecidableEq

def EapolIeParse.empty : EapolIeParse where
  wpaIe := none
  rsnIe := none
  pmkid := none
  gtk := none
  macAddr := none
  smk := none
  nonce := none
  lifetime := none
  error := none

/-- The selector of a vendor element, the four octets after its header. -/
def selector (elem : Bytes) : ℕ := beNat ((elem.drop 2).take 4)

/-- Note a vendor element; `true` for the end of the data.
Source: `wpa_auth_ie.c`, `wpa_parse_generic`. -/
def wpaParseGeneric (elem : Bytes) (ie : EapolIeParse) : Bool × EapolIeParse :=
  let len := (elem.getD 1 0).toNat
  let payload := elem.drop 6
  if len = 0 then (true, ie)
  else if 6 ≤ len ∧ selector elem = wpaOuiType ∧ elem.getD 6 0 = 1 ∧ elem.getD 7 0 = 0 then
    (false, { ie with wpaIe := some elem })
  else if 20 ≤ len ∧ selector elem = rsnKeyDataPmkid then (false, { ie with pmkid := some payload })
  else if 6 < len ∧ selector elem = rsnKeyDataGroupkey then
    (false, { ie with gtk := some payload })
  else if 6 < len ∧ selector elem = rsnKeyDataMacAddr then
    (false, { ie with macAddr := some payload })
  else if 6 < len ∧ selector elem = rsnKeyDataSmk then (false, { ie with smk := some payload })
  else if 6 < len ∧ selector elem = rsnKeyDataNonce then (false, { ie with nonce := some payload })
  else if 6 < len ∧ selector elem = rsnKeyDataLifetime then
    (false, { ie with lifetime := some payload })
  else if 6 < len ∧ selector elem = rsnKeyDataError then (false, { ie with error := some payload })
  else (false, ie)

/-- The loop over the elements from `pos` on, `none` for an element that runs past the end. -/
def parseIes : ℕ → Bytes → EapolIeParse → Option EapolIeParse
  | n + 1, eid :: len :: rest, ie =>
    if eid = wlanEidVendorSpecific ∧ len = 0 then some ie
    else if rest.length < len.toNat then none
    else
      let elem := eid :: len :: rest.take len.toNat
      let next := rest.drop len.toNat
      if eid = wlanEidRsn then parseIes n next { ie with rsnIe := some elem }
      else if eid = wlanEidVendorSpecific then
        if (wpaParseGeneric elem ie).1 then some (wpaParseGeneric elem ie).2
        else parseIes n next (wpaParseGeneric elem ie).2
      else parseIes n next ie
  | _, _, ie => some ie

/-- Read the key data. Source: `wpa_auth_ie.c`, `wpa_parse_kde_ies`; `rsn_supp/wpa_ie.c`,
`wpa_supplicant_parse_ies`. -/
def wpaParseKdeIes (buf : Bytes) : Option EapolIeParse :=
  parseIes buf.length buf EapolIeParse.empty

end Hostapd
