import Hostapd.Lib.Checked
import Hostapd.P2p.Module

/-!
# Service discovery

The GAS frames that carry service discovery (`p2p_sd.c`): a query, and a response that is sent in
one frame or, when it is longer than 1400 octets, asked for piece by piece.

* **`SdData`** is what the two sides keep. The handlers return what they did to the outside, as
  `SdOutput`s.
* **`sdResponse`** is the call that answers a query; **`rxGasInitialReq`**, **`rxGasInitialResp`**,
  **`rxGasComebackReq`** and **`rxGasComebackResp`** are the handlers of what stands behind the
  action field. They read a frame with bounds.
-/

namespace Hostapd.P2p.Sd

open Hostapd.Lib

/-! ## Data -/

/-- A query of service discovery, with its address as a number. Source: `struct p2p_sd_query`. -/
structure SdQuery where
  ref : ℕ
  forAllPeers : Bool
  deriving DecidableEq

inductive SdOutput
  | sdRequest (sa : MacAddr) (dialogToken : UInt8) (updateIndic : UInt16) (tlvs : Bytes)
  | sdResponse (sa : MacAddr) (updateIndic : UInt16) (tlvs : Bytes)
  | sendAction (dst : MacAddr) (frame : Bytes)
  | sendActionDone
  | clearTimeout
  /-- the flags of a peer: `P2P_DEV_SD_INFO` is set and `P2P_DEV_SD_SCHEDULE` is cleared -/
  | sdInfo (peer : MacAddr)
  /-- the message that tells the length of the reassembly buffer -/
  | reassemblyLength (len : ℕ)
  | continueFind
  deriving DecidableEq

/-- The part of the module that service discovery works on. `sdPeer` is the address of the peer.
Source: `struct p2p_data`. -/
structure SdData where
  state : P2pState
  sdPeer : Option MacAddr
  sdQuery : Option SdQuery
  sdQueries : List SdQuery
  srvUpdateIndic : UInt16
  sdResp : Option Bytes
  sdRespAddr : MacAddr
  sdRespDialogToken : UInt8
  sdRespPos : ℕ
  sdFragId : UInt8
  sdRxResp : Option Bytes
  sdRxUpdateIndic : UInt16
  deriving DecidableEq

/-! ## Frames -/

/-- Source: `WLAN_ACTION_PUBLIC`. -/
def actionPublic : UInt8 := 4

/-- Source: `WLAN_PA_GAS_INITIAL_REQ`. -/
def paGasInitialReq : UInt8 := 10

/-- Source: `WLAN_PA_GAS_INITIAL_RESP`. -/
def paGasInitialResp : UInt8 := 11

/-- Source: `WLAN_PA_GAS_COMEBACK_REQ`. -/
def paGasComebackReq : UInt8 := 12

/-- Source: `WLAN_PA_GAS_COMEBACK_RESP`. -/
def paGasComebackResp : UInt8 := 13

/-- Source: `WLAN_EID_ADV_PROTO`. -/
def eidAdvProto : UInt8 := 108

def nativeQueryProtocol : UInt8 := 0

def nqpVendorSpecific : ℕ := 56797

def ouiWfa : ℕ := 0x506f9a

def p2pOuiType : UInt8 := 9

/-- Source: `WLAN_STATUS_SUCCESS`. -/
def statusSuccess : ℕ := 0

/-- The octets of a response that one frame carries. -/
def fragLen : ℕ := 1400

/-- The Advertisement Protocol IE, with its limit octet. -/
def advProtoIe (limit : UInt8) : Bytes := [eidAdvProto, 2, limit, nativeQueryProtocol]

@[simp] theorem length_advProtoIe (limit : UInt8) : (advProtoIe limit).length = 4 := rfl

/-- The NQP header in front of TLVs, with a length field that counts `len` octets of them. -/
def nqpHeader (len : ℕ) (updateIndic : UInt16) : Bytes :=
  putLe16 nqpVendorSpecific ++ putLe16 (3 + 1 + 2 + len) ++ putBe 3 ouiWfa ++ [p2pOuiType]
    ++ putLe16 updateIndic.toNat

@[simp] theorem length_nqpHeader (len : ℕ) (updateIndic : UInt16) :
    (nqpHeader len updateIndic).length = 10 := rfl

def withLen (data : Bytes) : Bytes := putLe16 data.length ++ data

@[simp] theorem length_withLen (data : Bytes) : (withLen data).length = 2 + data.length := by
  simp [withLen]

/-- Source: `p2p_build_gas_comeback_req`. -/
def buildGasComebackReq (dialogToken : UInt8) : Bytes :=
  [actionPublic, paGasComebackReq, dialogToken]

/-- Source: `p2p_build_sd_response`. -/
def buildSdResponse (dialogToken : UInt8) (statusCode comebackDelay : ℕ) (updateIndic : UInt16)
    (tlvs : Option Bytes) : Bytes :=
  [actionPublic, paGasInitialResp, dialogToken] ++ putLe16 statusCode ++ putLe16 comebackDelay
    ++ advProtoIe 0x7f
    ++ withLen
      (match tlvs with
        | none => []
        | some tlvs => nqpHeader tlvs.length updateIndic ++ tlvs)

/-- Source: `p2p_build_gas_comeback_resp`. -/
def buildGasComebackResp (dialogToken : UInt8) (statusCode : ℕ) (updateIndic : UInt16)
    (data : Bytes) (fragId : UInt8) (more : Bool) (totalLen : ℕ) : Bytes :=
  [actionPublic, paGasComebackResp, dialogToken] ++ putLe16 statusCode
    ++ [fragId ||| (if more then 0x80 else 0)] ++ putLe16 0 ++ advProtoIe 0x7f
    ++ withLen ((if fragId = 0 then nqpHeader totalLen updateIndic else []) ++ data)

/-! ## Parsing

The functions read a frame behind its action field, at offsets. -/

/-- The Advertisement Protocol IE at an offset; the result is where it ends. -/
def readAdvProto (d : Bytes) (pos : ℕ) : Except Stop ℕ := do
  let id ← rd8 d pos
  need (id = eidAdvProto)
  let slen ← rd8 d (pos + 1)
  let next := pos + 2 + slen.toNat
  need (next ≤ d.length ∧ 2 ≤ slen.toNat)
  -- QueryRespLenLimit and PAME-BI are skipped
  let proto ← rd8 d (pos + 3)
  need (proto = nativeQueryProtocol)
  return next

/-- The length of a Query Request or a Query Response at an offset; the result is where its data
begins and where it ends. -/
def readQueryLen (d : Bytes) (pos : ℕ) : Except Stop (ℕ × ℕ) := do
  need (pos + 2 ≤ d.length)
  let slen ← rdLe16 d pos
  need (pos + 2 + slen ≤ d.length)
  return (pos + 2, pos + 2 + slen)

/-- The NQP header at an offset, up to the Service Update Indicator. In the first fragment of a
response the length counts what is not in the frame, so it is not checked against the end of the
data (`whole = false`). -/
def readNqpHeader (whole : Bool) (d : Bytes) (pos fin : ℕ) : Except Stop (UInt16 × ℕ) := do
  need (pos + 4 ≤ fin)
  let infoId ← rdLe16 d pos
  need (infoId = nqpVendorSpecific)
  let slen ← rdLe16 d (pos + 2)
  need (3 + 1 ≤ slen ∧ pos + 4 + (if whole then slen else 4) ≤ fin)
  let oui ← rdBe24 d (pos + 4)
  need (oui = ouiWfa)
  let ouiType ← rd8 d (pos + 7)
  need (ouiType = p2pOuiType)
  need (pos + 8 + 2 ≤ fin)
  let updateIndic ← rdLe16 d (pos + 8)
  return (UInt16.ofNat updateIndic, pos + 10)

/-- The parser of `p2p_rx_gas_initial_req`: the dialog token, the indicator and the TLVs. -/
def readInitialReq (d : Bytes) : Except Stop (UInt8 × UInt16 × Bytes) := do
  need (1 + 2 ≤ d.length)
  let dialogToken ← rd8 d 0
  let next ← readAdvProto d 1
  let (pos, fin) ← readQueryLen d next
  let (updateIndic, pos) ← readNqpHeader true d pos fin
  let tlvs ← rdSlice d pos fin
  return (dialogToken, updateIndic, tlvs)

inductive InitialResp
  | comeback (dialogToken : UInt8)
  | response (updateIndic : UInt16) (tlvs : Bytes)
  deriving DecidableEq

/-- The parser of `p2p_rx_gas_initial_resp`. -/
def readInitialResp (d : Bytes) : Except Stop InitialResp := do
  need (5 + 2 ≤ d.length)
  let dialogToken ← rd8 d 0
  let statusCode ← rdLe16 d 1
  let comebackDelay ← rdLe16 d 3
  need (statusCode = 0)
  let next ← readAdvProto d 5
  let (pos, fin) ← readQueryLen d next
  if comebackDelay ≠ 0 then return .comeback dialogToken
  else
    let (updateIndic, pos) ← readNqpHeader true d pos fin
    let tlvs ← rdSlice d pos fin
    return .response updateIndic tlvs

/-- What a Comeback Response says: the indicator if there was a header, and a fragment. -/
structure ComebackResp where
  dialogToken : UInt8
  more : Bool
  updateIndic : Option UInt16
  data : Bytes
  deriving DecidableEq

/-- The parser of `p2p_rx_gas_comeback_resp`; `pending` says that there is a reassembly buffer. -/
def readComebackResp (pending : Bool) (d : Bytes) : Except Stop ComebackResp := do
  need (6 + 2 ≤ d.length)
  let dialogToken ← rd8 d 0
  let statusCode ← rdLe16 d 1
  let frag ← rd8 d 3
  let more : Bool := (frag &&& 0x80) >>> 7 ≠ 0
  -- the comeback delay is read for a debug message only
  let _ ← rdLe16 d 4
  need (statusCode = 0)
  let next ← readAdvProto d 6
  let (pos, fin) ← readQueryLen d next
  need (fin ≠ pos)
  if pending then
    -- only the first fragment has a header
    let data ← rdSlice d pos fin
    return ⟨dialogToken, more, none, data⟩
  else
    let (updateIndic, pos) ← readNqpHeader false d pos fin
    let data ← rdSlice d pos fin
    return ⟨dialogToken, more, some updateIndic, data⟩

/-! ## Handlers -/

abbrev SdResult := SdData × List SdOutput

/-- A call that read nothing outside the frame, or one that did. -/
abbrev SdOutcome := Except Stop SdResult

/-- What follows a parser: a frame that is no good changes nothing. -/
def received {α : Type} (x : Except Stop α) (p2p : SdData) (out : List SdOutput)
    (f : α → SdResult) : SdOutcome :=
  match x with
  | .ok a => .ok ((f a).1, out ++ (f a).2)
  | .error .dropped => .ok (p2p, out)
  | .error .outside => .error .outside

/-- Source: `p2p_rx_gas_initial_req`. -/
def rxGasInitialReq (p2p : SdData) (sa : MacAddr) (d : Bytes) : SdOutcome :=
  received (readInitialReq d) p2p [] fun (dialogToken, updateIndic, tlvs) =>
    (p2p, [.sdRequest sa dialogToken updateIndic tlvs])

/-- Source: `p2p_sd_response`. -/
def sdResponse (p2p : SdData) (dst : MacAddr) (dialogToken : UInt8) (respTlvs : Bytes) :
    SdResult :=
  if fragLen < respTlvs.length then
    -- an older response is dropped
    ({ p2p with
        sdRespAddr := dst
        sdRespDialogToken := dialogToken
        sdResp := some respTlvs
        sdRespPos := 0
        sdFragId := 0 },
      [.sendAction dst (buildSdResponse dialogToken statusSuccess 1 p2p.srvUpdateIndic none)])
  else
    (p2p,
      [.sendAction dst
        (buildSdResponse dialogToken statusSuccess 0 p2p.srvUpdateIndic (some respTlvs))])

/-- The query has been answered. Source: the end of `p2p_rx_gas_initial_resp` and of
`p2p_rx_gas_comeback_resp`; `p2p_continue_find` goes on with the search. -/
def answered (p2p : SdData) (sa : MacAddr) (updateIndic : UInt16) (tlvs : Bytes) : SdResult :=
  let sdQueries :=
    match p2p.sdQuery with
    | some q => if q.forAllPeers then p2p.sdQueries else p2p.sdQueries.erase q
    | none => p2p.sdQueries
  ({ p2p with state := .search, sdPeer := none, sdQuery := none, sdQueries := sdQueries },
    [.sdInfo sa, .sdResponse sa updateIndic tlvs, .continueFind])

/-- Source: `p2p_rx_gas_initial_resp`. -/
def rxGasInitialResp (p2p : SdData) (sa : MacAddr) (d : Bytes) : SdOutcome :=
  if p2p.state ≠ .sdDuringFind ∨ p2p.sdPeer ≠ some sa then .ok (p2p, [])
  else
    received (readInitialResp d) p2p [.sendActionDone, .clearTimeout] fun resp =>
      match resp with
      | .comeback dialogToken =>
        -- an old reassembly buffer is dropped
        ({ p2p with sdRxResp := none }, [.sendAction sa (buildGasComebackReq dialogToken)])
      | .response updateIndic tlvs => answered p2p sa updateIndic tlvs

/-- Source: `p2p_rx_gas_comeback_req`. -/
def rxGasComebackReq (p2p : SdData) (sa : MacAddr) (d : Bytes) : SdOutcome :=
  match d with
  | [] => .ok (p2p, [])
  | dialogToken :: _ =>
    if dialogToken ≠ p2p.sdRespDialogToken then .ok (p2p, [])
    else
      match p2p.sdResp with
      | none => .ok (p2p, [])
      | some resp =>
        if sa ≠ p2p.sdRespAddr then .ok (p2p, [])
        else
          let left := resp.length - p2p.sdRespPos
          let more : Bool := fragLen < left
          let fragLen := if more then fragLen else left
          let frame := buildGasComebackResp dialogToken statusSuccess p2p.srvUpdateIndic
            ((resp.drop p2p.sdRespPos).take fragLen) p2p.sdFragId more resp.length
          .ok ({ p2p with
              sdFragId := p2p.sdFragId + 1
              sdRespPos := p2p.sdRespPos + fragLen
              sdResp := if more then some resp else none },
            [.sendAction sa frame])

/-- How long the reassembly buffer may be when more fragments are to come. -/
def maxReassembly : ℕ := 64000

/-- A fragment goes to the reassembly buffer.
Source: `p2p_rx_gas_comeback_resp`, from `skip_nqp_header` on. -/
def addFragment (p2p : SdData) (sa : MacAddr) (resp : ComebackResp) : SdResult :=
  let rx := p2p.sdRxResp.getD [] ++ resp.data
  let p2p := { p2p with
    sdRxResp := some rx
    sdRxUpdateIndic := resp.updateIndic.getD p2p.sdRxUpdateIndic }
  if resp.more then
    if maxReassembly < rx.length then
      ({ p2p with sdRxResp := none }, [.reassemblyLength rx.length])
    else
      (p2p, [.reassemblyLength rx.length,
        .sendAction sa (buildGasComebackReq resp.dialogToken)])
  else
    let r := answered { p2p with sdRxResp := none } sa p2p.sdRxUpdateIndic rx
    (r.1, .reassemblyLength rx.length :: r.2)

/-- Source: `p2p_rx_gas_comeback_resp`. -/
def rxGasComebackResp (p2p : SdData) (sa : MacAddr) (d : Bytes) : SdOutcome :=
  if p2p.state ≠ .sdDuringFind ∨ p2p.sdPeer ≠ some sa then .ok (p2p, [])
  else
    received (readComebackResp p2p.sdRxResp.isSome d) p2p [.sendActionDone, .clearTimeout]
      (addFragment p2p sa)

/-- The GAS frames among the action frames, from the category on.
Source: `p2p_rx_action` and `p2p_rx_action_public`. -/
def rxAction (p2p : SdData) (sa : MacAddr) (frame : Bytes) : SdOutcome :=
  match frame with
  | category :: action :: d =>
    if category ≠ actionPublic then .ok (p2p, [])
    else if action = paGasInitialReq then rxGasInitialReq p2p sa d
    else if action = paGasInitialResp then rxGasInitialResp p2p sa d
    else if action = paGasComebackReq then rxGasComebackReq p2p sa d
    else if action = paGasComebackResp then rxGasComebackResp p2p sa d
    else .ok (p2p, [])
  | _ => .ok (p2p, [])

end Hostapd.P2p.Sd
