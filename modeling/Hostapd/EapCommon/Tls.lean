import Hostapd.EapServer.Eap

/-!
# EAP packets of the TLS methods

What the server's and the peer's `eap_server_tls_common.c` and `eap_tls_common.c` share: the header
of an EAP packet (`eap_common.c`), the Flags octet of EAP-TLS, EAP-TTLS, EAP-PEAP and EAP-FAST, and
the buffers of `wpabuf.c`.

* **`eapHdrValidate`**, **`eapMsgAlloc`**. The length field has 16 bits and `eapMsgAlloc` writes
  the low ones: `eapHdrValidate_eapMsgAlloc` says what of a packet is read back.
* **`Wpabuf`**: a buffer, with the promise that what is used fits. Putting too much into it is the
  `abort()` of `wpabuf_overflow`, and here `none`.
-/

namespace Hostapd.EapCommon

open Hostapd.Lib Hostapd.EapServer

/-! ## Headers -/

/-- Source: `EAP_CODE_REQUEST`. -/
def codeRequest : UInt8 := 1

inductive TlsMethod
  | tls | ttls | peap | fast
  deriving DecidableEq

/-- Source: `EAP_TYPE_TLS`, `EAP_TYPE_TTLS`, `EAP_TYPE_PEAP`, `EAP_TYPE_FAST`. -/
def TlsMethod.eapType : TlsMethod → EapType
  | .tls => 13
  | .ttls => 21
  | .peap => 25
  | .fast => 43

/-- The payload of a packet of the expected type. Source: `eap_hdr_validate`. -/
def eapHdrValidate (vendor : ℤ) (eapType : EapType) (msg : Bytes) : Option Bytes :=
  if msg.length < hdrLen then none
  else
    let len := be16 (msg.drop 2)
    if len < hdrLen + 1 ∨ len > msg.length then none
    else if (msg.getD 4 0).toUInt32 = typeExpanded then
      if len < hdrLen + 8 then none
      else if (beNat ((msg.drop 5).take 3) : ℤ) ≠ vendor ∨
          UInt32.ofNat (beNat ((msg.drop 8).take 4)) ≠ eapType then none
      else some ((msg.drop 12).take (len - hdrLen - 8))
    else if vendor ≠ vendorIetf ∨ (msg.getD 4 0).toUInt32 ≠ eapType then none
    else some ((msg.drop 5).take (len - hdrLen - 1))

/-- The header and the type of a packet with room for a payload. Source: `eap_msg_alloc`. -/
def eapMsgAlloc (vendor : ℤ) (type : EapType) (payloadLen : ℕ) (code identifier : UInt8) : Bytes :=
  let len := hdrLen + (if vendor = vendorIetf then 1 else 8) + payloadLen
  [code, identifier] ++ putBe16 len ++
    if vendor = vendorIetf then [type.toUInt8]
    else typeExpanded.toUInt8 :: putBe 3 (vendor % 2 ^ 24).toNat ++ putBe 4 type.toNat

variable {method : TlsMethod} {code identifier : UInt8}

theorem eapMsgAlloc_ietf (type : EapType) (payloadLen : ℕ) :
    eapMsgAlloc vendorIetf type payloadLen code identifier =
      [code, identifier] ++ putBe16 (5 + payloadLen) ++ [type.toUInt8] := by
  simp [eapMsgAlloc, hdrLen]

@[simp] theorem length_eapMsgAlloc_ietf (type : EapType) (payloadLen : ℕ) :
    (eapMsgAlloc vendorIetf type payloadLen code identifier).length = 5 := by
  simp [eapMsgAlloc_ietf]

theorem TlsMethod.toUInt32_octet (method : TlsMethod) :
    method.eapType.toUInt8.toUInt32 = method.eapType ∧ method.eapType ≠ typeExpanded := by
  cases method <;> decide

theorem eapHdrValidate_eapMsgAlloc (payload : Bytes) :
    eapHdrValidate vendorIetf method.eapType
        (eapMsgAlloc vendorIetf method.eapType payload.length code identifier ++ payload) =
      if (5 + payload.length) % 2 ^ 16 < 5 then none
      else some (payload.take ((5 + payload.length) % 2 ^ 16 - 5)) := by
  obtain ⟨hoctet, hexpanded⟩ := method.toUInt32_octet
  have hlen : be16 (putBe16 (5 + payload.length) ++ method.eapType.toUInt8 :: payload) =
      (5 + payload.length) % 2 ^ 16 := be16_putBe16_mod _ _
  have hmod : (5 + payload.length) % 2 ^ 16 ≤ 5 + payload.length := Nat.mod_le _ _
  simp only [eapMsgAlloc_ietf, eapHdrValidate, hdrLen, List.cons_append, List.nil_append,
    List.append_assoc, List.length_cons, List.drop_succ_cons, List.drop_zero, hlen]
  generalize (5 + payload.length) % 2 ^ 16 = len at hmod
  have htype : ((code :: identifier :: (putBe16 (5 + payload.length) ++
      method.eapType.toUInt8 :: payload)).getD 4 0).toUInt32 = method.eapType := hoctet
  have hdrop : (putBe16 (5 + payload.length) ++ method.eapType.toUInt8 :: payload).drop 3 =
      payload := rfl
  have hlong : ¬ (putBe16 (5 + payload.length) ++
      method.eapType.toUInt8 :: payload).length + 1 + 1 < 4 := by
    simp
  rw [if_neg hlong]
  by_cases hshort : len < 5
  · rw [if_pos (Or.inl hshort), if_pos hshort]
  · have hwhole : ¬ (len < 4 + 1 ∨ len > (putBe16 (5 + payload.length) ++
        method.eapType.toUInt8 :: payload).length + 1 + 1) := by
      simp only [List.length_append, length_putBe16, List.length_cons]
      omega
    rw [if_neg hwhole, htype, if_neg hexpanded, if_neg (by simp), hdrop, Nat.sub_sub,
      if_neg hshort]

/-! ## The Flags octet -/

/-- Source: `EAP_TLS_FLAGS_LENGTH_INCLUDED`. -/
def flagsLengthIncluded : UInt8 := 0x80

/-- Source: `EAP_TLS_FLAGS_MORE_FRAGMENTS`. -/
def flagsMoreFragments : UInt8 := 0x40

/-- Source: `EAP_TLS_FLAGS_START`. -/
def flagsStart : UInt8 := 0x20

def hasFlag (flags flag : UInt8) : Bool := flags &&& flag ≠ 0

/-- The Flags octet of a message: the version, and the flags that are set. -/
def tlsFlags (version : Fin 8) (moreFragments lengthIncluded : Bool) : UInt8 :=
  UInt8.ofNat version ||| (if moreFragments then flagsMoreFragments else 0) |||
    if lengthIncluded then flagsLengthIncluded else 0

section Flags

variable (version : Fin 8) (moreFragments lengthIncluded : Bool)

@[simp] theorem hasFlag_lengthIncluded :
    hasFlag (tlsFlags version moreFragments lengthIncluded) flagsLengthIncluded =
      lengthIncluded := by
  revert version moreFragments lengthIncluded
  decide

@[simp] theorem hasFlag_moreFragments :
    hasFlag (tlsFlags version moreFragments lengthIncluded) flagsMoreFragments =
      moreFragments := by
  revert version moreFragments lengthIncluded
  decide

@[simp] theorem hasFlag_start :
    hasFlag (tlsFlags version moreFragments lengthIncluded) flagsStart = false := by
  revert version moreFragments lengthIncluded
  decide

end Flags

/-! ## Payloads -/

/-- The TLS data behind the Flags: what stands behind the Message Length, if there is one. -/
def payloadOf (flags : UInt8) (buf : Bytes) : Bytes :=
  if hasFlag flags flagsLengthIncluded then buf.drop 4 else buf

/-- The TLS data of a packet: what stands behind the Flags and the Message Length. -/
def tlsPayload (method : TlsMethod) (respData : Bytes) : Bytes :=
  match eapHdrValidate vendorIetf method.eapType respData with
  | none | some [] => []
  | some (flags :: buf) => payloadOf flags buf

theorem tlsPayload_eq {respData : Bytes} {flags : UInt8} {buf : Bytes}
    (hresp : eapHdrValidate vendorIetf method.eapType respData = some (flags :: buf)) :
    tlsPayload method respData = payloadOf flags buf := by
  rw [tlsPayload, hresp]

/-- A packet of a message of `total` octets: the Flags, the Message Length if it is included, and
the part `chunk` of the message. -/
def tlsPacket (method : TlsMethod) (code id : UInt8) (version : Fin 8)
    (moreFragments lengthIncluded : Bool) (total : ℕ) (chunk : Bytes) : Bytes :=
  eapMsgAlloc vendorIetf method.eapType (1 + (if lengthIncluded then 4 else 0) + chunk.length)
      code id ++
    (tlsFlags version moreFragments lengthIncluded ::
      ((if lengthIncluded then putBe 4 total else []) ++ chunk))

section Packet

variable (method : TlsMethod) (code identifier : UInt8) (version : Fin 8) (moreFragments : Bool)
  {lengthIncluded : Bool} (total : ℕ) {chunk : Bytes}

theorem length_tlsPacket :
    (tlsPacket method code identifier version moreFragments lengthIncluded total chunk).length =
      6 + (if lengthIncluded then 4 else 0) + chunk.length := by
  cases lengthIncluded <;> simp [tlsPacket] <;> omega

theorem tlsPacket_read :
    eapHdrValidate vendorIetf method.eapType
        (tlsPacket method code identifier version moreFragments lengthIncluded total chunk) =
      if (6 + (if lengthIncluded then 4 else 0) + chunk.length) % 2 ^ 16 < 5 then none
      else some ((tlsFlags version moreFragments lengthIncluded ::
          ((if lengthIncluded then putBe 4 total else []) ++ chunk)).take
        ((6 + (if lengthIncluded then 4 else 0) + chunk.length) % 2 ^ 16 - 5)) := by
  have hlen : 1 + (if lengthIncluded then 4 else 0) + chunk.length =
      (tlsFlags version moreFragments lengthIncluded ::
        ((if lengthIncluded then putBe 4 total else []) ++ chunk)).length := by
    cases lengthIncluded <;> simp <;> omega
  have htotal : 6 + (if lengthIncluded then 4 else 0) + chunk.length =
      5 + (tlsFlags version moreFragments lengthIncluded ::
        ((if lengthIncluded then putBe 4 total else []) ++ chunk)).length := by
    rw [← hlen]
    omega
  rw [tlsPacket, hlen, htotal]
  exact eapHdrValidate_eapMsgAlloc _

theorem tlsPacket_read_of_lt
    (h : 6 + (if lengthIncluded then 4 else 0) + chunk.length < 2 ^ 16) :
    eapHdrValidate vendorIetf method.eapType
        (tlsPacket method code identifier version moreFragments lengthIncluded total chunk) =
      some (tlsFlags version moreFragments lengthIncluded ::
        ((if lengthIncluded then putBe 4 total else []) ++ chunk)) := by
  rw [tlsPacket_read, Nat.mod_eq_of_lt h, if_neg (by omega), List.take_of_length_le]
  cases lengthIncluded <;> simp <;> omega

theorem tlsPacket_read_of_ge (len : ℕ)
    (h : 6 + (if lengthIncluded then 4 else 0) + chunk.length = 2 ^ 16 + len)
    (hlen : len < 2 ^ 16) :
    eapHdrValidate vendorIetf method.eapType
        (tlsPacket method code identifier version moreFragments lengthIncluded total chunk) =
      if len < 5 then none
      else some ((tlsFlags version moreFragments lengthIncluded ::
        ((if lengthIncluded then putBe 4 total else []) ++ chunk)).take (len - 5)) := by
  rw [tlsPacket_read, h, Nat.add_mod_left, Nat.mod_eq_of_lt hlen]

end Packet

/-! ## Buffers -/

/-- A buffer of `size` octets. Source: `struct wpabuf`. -/
structure Wpabuf where
  size : ℕ
  data : Bytes
  fits : data.length ≤ size
  deriving DecidableEq

namespace Wpabuf

/-- Source: `wpabuf_alloc`. -/
def alloc (size : ℕ) : Wpabuf := ⟨size, [], Nat.zero_le size⟩

/-- A buffer that is just its data. Source: `wpabuf_set`. -/
def set (data : Bytes) : Wpabuf := ⟨data.length, data, le_rfl⟩

/-- Source: `wpabuf_tailroom`. -/
def tailroom (buf : Wpabuf) : ℕ := buf.size - buf.data.length

/-- Append data; `none` is the `abort()` of `wpabuf_overflow`. Source: `wpabuf_put_data`. -/
def putData (buf : Wpabuf) (data : Bytes) : Option Wpabuf :=
  if h : (buf.data ++ data).length ≤ buf.size then some ⟨buf.size, buf.data ++ data, h⟩ else none

theorem putData_alloc_eq_none {size : ℕ} {data : Bytes} :
    (alloc size).putData data = none ↔ size < data.length := by
  unfold putData
  split
  · rename_i hfits
    simpa [alloc] using hfits
  · rename_i hfits
    simpa [alloc] using hfits

theorem putData_of_tailroom {buf : Wpabuf} {data : Bytes} (h : ¬ buf.tailroom < data.length) :
    ∃ buf', buf.putData data = some buf' ∧ buf'.data = buf.data ++ data ∧
      buf'.size = buf.size := by
  have hfits := buf.fits
  have hroom : (buf.data ++ data).length ≤ buf.size := by
    rw [List.length_append]
    rw [tailroom] at h
    omega
  exact ⟨_, dif_pos hroom, rfl, rfl⟩

end Wpabuf

end Hostapd.EapCommon
