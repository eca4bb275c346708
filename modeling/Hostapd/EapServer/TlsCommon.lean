import Hostapd.EapCommon.Tls

/-!
# EAP-TLS at the server: fragments

`eap_server_tls_common.c`: an outgoing TLS message is sent in fragments, each after the peer has
acknowledged the one before, and the fragments of an incoming one are put together in a buffer that
the Message Length of its first fragment sizes.

* **`EapSslData`**: what the server keeps. The TLS connection is left out: what the method and the
  TLS library do with a message comes in through `ProcessEnv`.
* **`eapServerTlsBuildMsg`**, **`eapServerTlsReassemble`**, **`eapServerTlsProcess`**.

The `abort()` of a buffer that overflows makes the result `none`.
-/

namespace Hostapd.EapServer

open Hostapd.Lib Hostapd.EapCommon

/-! ## The data -/

/-- Source: `struct eap_ssl_data`, `state`. -/
inductive SslState
  | msg | fragAck | waitFragAck
  deriving DecidableEq

structure EapSslData where
  tlsOut : Option Bytes
  tlsOutPos : ℕ
  tlsOutLimit : ℕ
  tlsIn : Option Wpabuf
  state : SslState
  deriving DecidableEq

/-- The data of a new connection. Source: `eap_server_tls_ssl_init`. -/
def EapSslData.init (tlsOutLimit : ℕ) : EapSslData where
  tlsOut := none
  tlsOutPos := 0
  tlsOutLimit := tlsOutLimit
  tlsIn := none
  state := .msg

/-! ## Sending -/

/-- The next packet of the outgoing message, when there is one and memory for it. The limit leaves
room for the Flags and the Message Length. Source: `eap_server_tls_build_msg`. -/
def eapServerTlsBuildMsg (memory : Bool) (data : EapSslData) (method : TlsMethod)
    (version : Fin 8) (id : UInt8) : EapSslData × Option Bytes :=
  match data.tlsOut with
  | none => (data, none)
  | some tlsOut =>
    let left := tlsOut.length - data.tlsOutPos
    let moreFragments : Bool := 1 + left > data.tlsOutLimit
    let lengthIncluded : Bool := moreFragments && data.tlsOutPos = 0
    let sendLen :=
      if moreFragments then data.tlsOutLimit - 1 - (if lengthIncluded then 4 else 0) else left
    let plen := 1 + sendLen + if lengthIncluded then 4 else 0
    if ¬ memory then (data, none)
    else
      let req := eapMsgAlloc vendorIetf method.eapType plen codeRequest id ++
        (tlsFlags version moreFragments lengthIncluded ::
          ((if lengthIncluded then putBe 4 tlsOut.length else []) ++
            (tlsOut.drop data.tlsOutPos).take sendLen))
      if data.tlsOutPos + sendLen = tlsOut.length then
        ({ data with tlsOut := none, tlsOutPos := 0, state := .msg }, some req)
      else
        ({ data with tlsOutPos := data.tlsOutPos + sendLen, state := .waitFragAck }, some req)

/-! ## Receiving -/

def eapServerTlsProcessCont (data : EapSslData) (tlsIn : Wpabuf) (buf : Bytes) :
    Option (EapSslData × ℤ) :=
  if buf.length > tlsIn.tailroom then some (data, -1)
  else (tlsIn.putData buf).map fun tlsIn => ({ data with tlsIn := some tlsIn }, 0)

def eapServerTlsProcessFragment (memory : Bool) (data : EapSslData) (flags : UInt8)
    (messageLength : ℕ) (buf : Bytes) : Option (EapSslData × ℤ) :=
  match data.tlsIn with
  | some _ => some (data, 0)
  | none =>
    if ¬ hasFlag flags flagsLengthIncluded then some (data, -1)
    else if messageLength > 65536 then some (data, -1)
    else if ¬ memory then some (data, -1)
    else ((Wpabuf.alloc messageLength).putData buf).map fun tlsIn =>
      ({ data with tlsIn := some tlsIn }, 0)

/-- What is left to do once a continuation has been appended: wait for more, or the message is
complete. Source: `eap_server_tls_reassemble`, from the check for more fragments on. -/
def reassembleTail (memory : Bool) (data : EapSslData) (flags : UInt8) (messageLength : ℕ)
    (buf : Bytes) : Option (EapSslData × ℤ) :=
  if hasFlag flags flagsMoreFragments then
    match eapServerTlsProcessFragment memory data flags messageLength buf with
    | none => none
    | some (data, ret) =>
      if ret < 0 then some (data, -1) else some ({ data with state := .fragAck }, 1)
  else
    let data := if data.state = .fragAck then { data with state := .msg } else data
    match data.tlsIn with
    | none => some ({ data with tlsIn := some (Wpabuf.set buf) }, 0)
    | some _ => some (data, 0)

/-- Take in a response after its Message Length: an acknowledgment, or a fragment.
Source: `eap_server_tls_reassemble`. -/
def reassembleBody (memory : Bool) (data : EapSslData) (flags : UInt8) (messageLength : ℕ)
    (buf : Bytes) : Option (EapSslData × ℤ) :=
  if data.state = .waitFragAck then
    if buf.length ≠ 0 then some (data, -1) else some (data, 1)
  else
    match data.tlsIn with
    | none => reassembleTail memory data flags messageLength buf
    | some tlsIn =>
      match eapServerTlsProcessCont data tlsIn buf with
      | none => none
      | some (data, ret) =>
        if ret < 0 then some (data, -1) else reassembleTail memory data flags messageLength buf

def eapServerTlsReassemble (memory : Bool) (data : EapSslData) (flags : UInt8) (buf : Bytes) :
    Option (EapSslData × ℤ) :=
  if hasFlag flags flagsLengthIncluded then
    if buf.length < 4 then some (data, -1)
    else reassembleBody memory data flags (beNat (buf.take 4)) (buf.drop 4)
  else reassembleBody memory data flags 0 buf

/-- What the processing of a response meets: whether the method accepts the version, whether there
is memory for a buffer, and, when a message is handed on, what the method leaves in `tls_out` and
how many alerts the TLS library has written. -/
structure ProcessEnv where
  procVersion : Bool
  memory : Bool
  tlsOut : Option Bytes
  writeAlerts : ℕ

/-- How the processing of a response ends: ignored without a look, refused for its version, failed,
answered with an acknowledgment or one itself, or a message handed on with the value returned. -/
inductive ProcessRes
  | ignored | refused | failed | ack | passed (msg : Bytes) (res : ℤ)
  deriving DecidableEq

def eapServerTlsFreeInBuf (data : EapSslData) : EapSslData := { data with tlsIn := none }

/-- Hand a message on to the method and the TLS library.
Source: `eap_server_tls_process`, from the call of `proc_msg` on. -/
def passOn (env : ProcessEnv) (data : EapSslData) : EapSslData × ProcessRes :=
  (eapServerTlsFreeInBuf { data with tlsOut := env.tlsOut },
    .passed ((data.tlsIn.map Wpabuf.data).getD []) (if env.writeAlerts > 1 then -1 else 0))

def eapServerTlsProcess (env : ProcessEnv) (data : EapSslData) (method : TlsMethod)
    (respData : Bytes) : Option (EapSslData × ProcessRes) :=
  match eapHdrValidate vendorIetf method.eapType respData with
  | none | some [] => some (data, .ignored)
  | some (flags :: buf) =>
    if ¬ env.procVersion then some (data, .refused)
    else
      match eapServerTlsReassemble env.memory data flags buf with
      | none => none
      | some (data, ret) =>
        if ret < 0 then some (eapServerTlsFreeInBuf data, .failed)
        else if ret = 1 then some (data, .ack)
        else some (passOn env data)

/-- Prepare the next request: an acknowledgment, the next fragment, or the first packet of what the
method has to send. Source: `eap_tls_buildReq` and its siblings. -/
def buildReq (memory : Bool) (tlsOut : Option Bytes) (data : EapSslData) (method : TlsMethod)
    (version : Fin 8) (id : UInt8) : EapSslData × Option Bytes :=
  match data.state with
  | .fragAck => (data, if memory then some
      (eapMsgAlloc vendorIetf method.eapType 1 codeRequest id ++ [tlsFlags version false false])
      else none)
  | .waitFragAck => eapServerTlsBuildMsg memory data method version id
  | .msg => eapServerTlsBuildMsg memory { data with tlsOut := tlsOut } method version id

end Hostapd.EapServer
