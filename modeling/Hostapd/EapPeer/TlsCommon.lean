import Hostapd.EapCommon.Tls

/-!
# EAP-TLS at the peer: fragments

`eap_tls_common.c` of the peer: a received TLS message is put together until as many octets as the
Message Length of its first fragment says are there, and given to the TLS library; the response is
sent in fragments, each after the server has acknowledged the one before.

* **`TlsLib`**: the TLS library, as functions on the state of a connection.
* **`EapSslData`**: what the peer keeps.

`tls_in_total` is only ever written, and left out.
-/

namespace Hostapd.EapPeer

open Hostapd.Lib Hostapd.EapServer Hostapd.EapCommon

/-! ## The data -/

/-- The TLS library on connections `κ`: a handshake step gives a response, if any, and application
data, if any. Source: `crypto/tls.h`. -/
structure TlsLib (κ : Type*) where
  handshake : κ → Bytes → κ × Option Bytes × Option Bytes
  established : κ → Bool
  getFailed : κ → Bool

structure EapSslData (κ : Type*) where
  conn : κ
  tlsOut : Option Bytes
  tlsOutPos : ℕ
  tlsOutLimit : ℕ
  tlsIn : Option Bytes
  tlsInLeft : ℕ
  includeTlsLength : Bool
  deriving DecidableEq

/-- What a request meets: an error pending in the TLS library, the workarounds for broken servers,
and memory for input and for output. -/
structure RequestEnv where
  getErrors : Bool
  workaround : Bool
  memIn : Bool
  memOut : Bool

variable {κ : Type*}

def eapPeerTlsResetInput (data : EapSslData κ) : EapSslData κ :=
  { data with tlsInLeft := 0, tlsIn := none }

def eapPeerTlsResetOutput (data : EapSslData κ) : EapSslData κ :=
  { data with tlsOutPos := 0, tlsOut := none }

/-! ## Receiving -/

def eapPeerTlsReassembleFragment (memIn : Bool) (data : EapSslData κ) (inData : Bytes) :
    EapSslData κ × ℤ :=
  let tlsIn := data.tlsIn.getD []
  if tlsIn.length + inData.length = 0 then (eapPeerTlsResetInput data, -1)
  else if tlsIn.length + inData.length > 65536 then (eapPeerTlsResetInput data, -1)
  else if inData.length > data.tlsInLeft then (eapPeerTlsResetInput data, -1)
  else if ¬ memIn then (eapPeerTlsResetInput data, -1)
  else
    ({ data with tlsIn := some (tlsIn ++ inData), tlsInLeft := data.tlsInLeft - inData.length },
      if data.tlsInLeft - inData.length > 0 then 1 else 0)

/-- The message, when it is complete, and whether more input is needed.
Source: `eap_peer_tls_data_reassemble`. -/
def eapPeerTlsDataReassemble (memIn : Bool) (data : EapSslData κ) (inData : Bytes) :
    EapSslData κ × Option Bytes × Bool :=
  if data.tlsInLeft > inData.length ∨ data.tlsIn.isSome then
    let (data, res) := eapPeerTlsReassembleFragment memIn data inData
    if res ≠ 0 then (data, none, res = 1) else (data, data.tlsIn, false)
  else if ¬ memIn then ({ data with tlsInLeft := 0, tlsIn := none }, none, false)
  else ({ data with tlsInLeft := 0, tlsIn := some inData }, some inData, false)

/-- How the processing of a request ends: the value returned, the response or application data, and
the message given to the TLS library. -/
structure HelperRes where
  ret : ℤ
  outData : Option Bytes
  passed : Option Bytes
  deriving DecidableEq

def eapTlsProcessInput (lib : TlsLib κ) (memIn : Bool) (data : EapSslData κ) (inData : Bytes) :
    EapSslData κ × HelperRes :=
  match eapPeerTlsDataReassemble memIn data inData with
  | (data, none, needMoreInput) => (data, ⟨if needMoreInput then 1 else -1, none, none⟩)
  | (data, some msg, _) =>
    let (conn, tlsOut, applData) := lib.handshake data.conn msg
    let data := eapPeerTlsResetInput { data with conn := conn, tlsOut := tlsOut }
    if applData.isSome ∧ lib.established conn ∧ ¬ lib.getFailed conn then
      (data, ⟨2, applData, some msg⟩)
    else (data, ⟨0, none, some msg⟩)

/-! ## Sending -/

def eapTlsProcessOutput (lib : TlsLib κ) (memOut : Bool) (data : EapSslData κ) (method : TlsMethod)
    (peapVersion : Fin 8) (id : UInt8) (ret : ℤ) : EapSslData κ × ℤ × Option Bytes :=
  match data.tlsOut with
  | none => (data, -1, none)
  | some tlsOut =>
    let left := tlsOut.length - data.tlsOutPos
    let moreFragments : Bool := left > data.tlsOutLimit
    let len := if moreFragments then data.tlsOutLimit else left
    let lengthIncluded : Bool :=
      (data.tlsOutPos = 0 && (tlsOut.length > data.tlsOutLimit || data.includeTlsLength)) ||
        (method = .peap && peapVersion = 0 && !lib.established data.conn)
    if ¬ memOut then (data, -1, none)
    else
      let outData := eapMsgAlloc vendorIetf method.eapType
          (1 + (if lengthIncluded then 4 else 0) + len) codeResponse id ++
        (tlsFlags peapVersion moreFragments lengthIncluded ::
          ((if lengthIncluded then putBe 4 tlsOut.length else []) ++
            (tlsOut.drop data.tlsOutPos).take len))
      let data := { data with tlsOutPos := data.tlsOutPos + len }
      (if moreFragments then data else eapPeerTlsResetOutput data, ret, some outData)

/-! ## A request -/

/-- Send the pending message, or say that there is none.
Source: `eap_peer_tls_process_helper`, behind the processing of the input. -/
def processHelperOutput (lib : TlsLib κ) (env : RequestEnv) (data : EapSslData κ)
    (method : TlsMethod) (peapVersion : Fin 8) (id : UInt8) (passed : Option Bytes) :
    EapSslData κ × HelperRes :=
  match data.tlsOut with
  | none => (eapPeerTlsResetOutput data, ⟨-1, none, passed⟩)
  | some [] => ({ data with tlsOut := none }, ⟨1, none, passed⟩)
  | some _ =>
    let ret : ℤ := if lib.getFailed data.conn then -1 else 0
    let (data, ret, outData) :=
      eapTlsProcessOutput lib env.memOut data method peapVersion id ret
    (data, ⟨ret, outData, passed⟩)

def eapPeerTlsProcessHelper (lib : TlsLib κ) (env : RequestEnv) (data : EapSslData κ)
    (method : TlsMethod) (peapVersion : Fin 8) (id : UInt8) (inData : Bytes) :
    EapSslData κ × HelperRes :=
  if (data.tlsOut.getD []).length > 0 ∧ inData.length > 0 then (data, ⟨-1, none, none⟩)
  else if (data.tlsOut.getD []).length = 0 then
    let (data, res) := eapTlsProcessInput lib env.memIn data inData
    if res.ret ≠ 0 then (data, res)
    else processHelperOutput lib env data method peapVersion id res.passed
  else processHelperOutput lib env data method peapVersion id none

/-- The Flags and the payload of a request that is not to be ignored.
Source: `eap_peer_tls_process_init`, behind the Flags octet. -/
def processInitLength (data : EapSslData κ) (flags : UInt8) (buf : Bytes) :
    EapSslData κ × Option (UInt8 × Bytes) :=
  if hasFlag flags flagsLengthIncluded then
    if buf.length < 4 then (data, none)
    else
      (if data.tlsInLeft = 0 then
          { data with tlsInLeft := beNat (buf.take 4), tlsIn := none } else data,
        some (flags, buf.drop 4))
  else (data, some (flags, buf))

def eapPeerTlsProcessInit (env : RequestEnv) (data : EapSslData κ) (method : TlsMethod)
    (reqData : Bytes) : EapSslData κ × Option (UInt8 × Bytes) :=
  if env.getErrors then (data, none)
  else
    match eapHdrValidate vendorIetf method.eapType reqData with
    | none => (data, none)
    | some [] => if ¬ env.workaround then (data, none) else processInitLength data 0 []
    | some (flags :: buf) => processInitLength data flags buf

/-- A request, as the methods process it: the payload of a Start is not looked at. `none` is an
ignored request. Source: `eap_tls_process` and its siblings. -/
def eapPeerTlsProcess (lib : TlsLib κ) (env : RequestEnv) (data : EapSslData κ)
    (method : TlsMethod) (peapVersion : Fin 8) (reqData : Bytes) :
    EapSslData κ × Option HelperRes :=
  match eapPeerTlsProcessInit env data method reqData with
  | (data, none) => (data, none)
  | (data, some (flags, buf)) =>
    let left := if hasFlag flags flagsStart then [] else buf
    let (data, res) :=
      eapPeerTlsProcessHelper lib env data method peapVersion (hdr reqData).2.1 left
    (data, some res)

end Hostapd.EapPeer
