import Hostapd.Ap.WpaAuth.Machines

/-!
# The WPA authenticator: receiving frames

`wpa_receive` of `wpa_auth.c` on one station, and the PeerKey handlers of `peerkey_auth.c`.

* `msgOf` tells the kinds of messages apart; **`admitted`** are the checks of the header,
  of the descriptor version and of the replay counters.
* **`wpaReceive`** is `wpa_receive` up to the point where the received frame is kept for the state
  machines. It returns what comes next (`Next`), which may concern other stations; the rest is
  `keepFrame` and a step of the machine.
-/

namespace Hostapd.Ap.WpaAuth

open Hostapd.Lib

variable (S : Setup)

/-! ## Messages -/

/-- The kinds of messages a station sends. Source: `wpa_auth.c`, the `enum` of `wpa_receive`. -/
inductive Msg
  | pairwise2 | pairwise4 | group2 | request | smkM1 | smkM3 | smkError
  deriving DecidableEq

def msgOf (f : EapolKey) : Msg :=
  if f.keyInfo.isSmkMessage && f.keyInfo.isRequest then
    if f.keyInfo.isError then .smkError else .smkM1
  else if f.keyInfo.isSmkMessage then .smkM3
  else if f.keyInfo.isRequest then .request
  else if !f.keyInfo.isKeyType then .group2
  else if f.keyDataLength = 0#16 then .pairwise4
  else .pairwise2

/-- The kinds whose descriptor version is checked. -/
def Msg.checksVersion : Msg → Bool
  | .request | .pairwise2 | .pairwise4 | .group2 => true
  | .smkM1 | .smkM3 | .smkError => false

/-- The checks of a frame before its kind is looked at: its key data fits, its type and its
descriptor version are those of the station, and its replay counter is above the last one for a
request and outstanding for a reply. -/
def admits (sm : Sm) (f : EapolKey) : Bool :=
  f.keyDataLength.toNat ≤ f.body.length &&
  f.type == (if sm.wpa = .wpa2 then eapolKeyTypeRsn else eapolKeyTypeWpa) &&
  (!((msgOf f).checksVersion && sm.pairwise == .ccmp) ||
    f.keyInfo.version == KeyInfo.hmacSha1Aes) &&
  (if f.keyInfo.isRequest then
    !(sm.reqReplayCounterUsed && f.replayCounter ≤ sm.reqReplayCounter)
  else scan f.replayCounter sm.keyReplay)

/-- The frame in a buffer, if it passes the first checks of `wpa_receive`. -/
def admitted (sm : Sm) (data : Bytes) : Option EapolKey :=
  if !S.conf.protoWpa && !S.conf.protoRsn then none
  else (EapolKey.ofBytes data).filter (admits sm)

/-! ## One frame -/

def eapolKeyIe (kde : EapolIeParse) : Option Bytes := kde.rsnIe <|> kde.wpaIe

/-- Whether the element of a 2/4 frame is the one of the association request.
Source: `wpa_common.c`, `wpa_compare_rsn_ie`. -/
def wpaCompareRsnIe (ie1 ie2 : Option Bytes) : Bool := ie1.isSome && ie1 == ie2

/-- Source: `wpa_receive`, `case PAIRWISE_2`; `true` to go on. -/
def checkPairwise2 (l : Loc) (f : EapolKey) : Loc × Bool :=
  if l.sm.wpaPtkState ≠ .ptkStart ∧ l.sm.wpaPtkState ≠ .ptkCalcNegotiating then (l, false)
  else if l.group.reject4wayHsForEntropy then
    let l := { l with
      group := { l.group with reject4wayHsForEntropy := false, firstStaSeen := false } }
    (wpaStaDisconnect S l, false)
  else match wpaParseKdeIes f.keyData with
    | none => (l, false)
    | some kde =>
      if wpaCompareRsnIe l.sm.wpaIe (eapolKeyIe kde) then (l, true)
      else (wpaStaDisconnect S l, false)

/-- Whether the machines are in a state for the frame. Source: `wpa_receive`, the `switch`. -/
def checkMsg (l : Loc) (f : EapolKey) : Loc × Bool :=
  match msgOf f with
  | .pairwise2 => checkPairwise2 S l f
  | .pairwise4 => (l, l.sm.wpaPtkState == .ptkInitNegotiating && l.sm.ptkValid)
  | .group2 => (l, l.sm.wpaPtkGroupState == .rekeyNegotiating && l.sm.ptkValid)
  | .smkM1 | .smkM3 | .smkError => (l, S.conf.peerkey && l.sm.ptkValid)
  | .request => (l, true)

inductive Next
  /-- Nothing. -/
  | stop
  /-- A PeerKey handler, and then nothing. -/
  | smk
  /-- A PeerKey handler, and then the frame is kept. -/
  | smkKeep
  /-- A Michael MIC failure report, a new PTK, and then the frame is kept. -/
  | micFailure
  /-- `wpa_rekey_gtk`, and then the frame is kept. -/
  | rekeyGtk
  /-- The frame is kept for the state machines. -/
  | keep

def requestNext (f : EapolKey) : Next :=
  if msgOf f = .smkError then .smk
  else if f.keyInfo.isError then .micFailure
  else if f.keyInfo.isKeyType then .keep
  else if msgOf f = .smkM1 then .smkKeep
  else if f.keyDataLength ≠ 0#16 ∧
      ((wpaParseKdeIes f.keyData).bind (·.macAddr)).isSome then .keep
  else .rekeyGtk

/-- Consume the replay counter of an accepted frame, and what follows. A request for a new
handshake gets one. Source: `wpa_receive`, from `if (key_info & WPA_KEY_INFO_REQUEST)` on. -/
def acceptFrame (l : Loc) (f : EapolKey) : Loc × Next :=
  let l := l.log (.accept f)
  if f.keyInfo.isRequest then
    let l := { l with sm := { l.sm with
      reqReplayCounterUsed := true
      reqReplayCounter := f.replayCounter } }
    if msgOf f ≠ .smkError ∧ !f.keyInfo.isError ∧ f.keyInfo.isKeyType then
      ({ l with sm := l.sm.wpaRequestNewPtk }, requestNext f)
    else (l, requestNext f)
  else
    ({ l with sm := { l.sm with keyReplay := clearHead l.sm.keyReplay } },
      if msgOf f = .smkM3 then .smk else .keep)

/-- The MIC check. A frame is let through without one only if there is no PTK yet and it is no
request. Source: `wpa_receive`, from `sm->MICVerified = FALSE` on. -/
def checkMic (l : Loc) (f : EapolKey) : Loc × Bool :=
  if l.sm.ptkValid then
    let ok := f.micOk S.crypto l.sm.ptk.kck
    ({ l with sm := { l.sm with micVerified := ok } }, ok)
  else ({ l with sm := { l.sm with micVerified := false } }, !f.keyInfo.isRequest)

def receiveFrame (l : Loc) (f : EapolKey) : Loc × Next :=
  let (l, go) := checkMsg S l f
  if !go || f.keyInfo.isAck || !f.keyInfo.isMic then (l, .stop)
  else
    let (l, go) := checkMic S l f
    if go then acceptFrame l f else (l, .stop)

/-- Receive a buffer. Source: `wpa_auth.c`, `wpa_receive`. -/
def wpaReceive (l : Loc) (data : Bytes) : Option (EapolKey × Loc × Next) :=
  (admitted S l.sm data).map fun f => (f, receiveFrame S l f)

/-- Keep an accepted frame for the state machines. Source: the end of `wpa_receive`. -/
def keepFrame (f : EapolKey) (sm : Sm) : Sm :=
  { sm with
    lastRxEapolKey := some f
    eapolKeyReceived := true
    eapolKeyPairwise := f.keyInfo.isKeyType
    eapolKeyRequest := f.keyInfo.isRequest
    sNonce := f.keyNonce }

/-! ## PeerKey -/

/-- The address in a MAC address KDE, if it is long enough. -/
def kdeMacAddr (kde : EapolIeParse) : Option MacAddr :=
  (kde.macAddr.filter (6 ≤ ·.length)).map fun a => BitVec.ofNat 48 (beNat (a.take 6))

/-- `STK_MUI_SMK` and `STK_ERR_STA_NR`. -/
def stkMuiSmk : ℕ := 4
def stkErrStaNr : ℕ := 1

/-- Source: `peerkey_auth.c`, `wpa_smk_send_error`. -/
def smkErrorArgs (peer : MacAddr) (mui errorType : ℕ) : SendArgs where
  keyInfo := KeyInfo.secure ||| KeyInfo.mic ||| KeyInfo.smkMessage ||| KeyInfo.error
  keyRsc := none
  nonce := none
  kde := wpaAddKde rsnKeyDataMacAddr (putBe 6 peer.toNat) [] ++
    wpaAddKde rsnKeyDataError (putBe 2 mui ++ putBe 2 errorType) []
  keyidx := 0
  encr := false

section Smk

variable {ι : Type*} (find : MacAddr → Option ι)

/-- The frame `wpa_smk_m1` sends for a station: M2 to the peer, or an error back.
Source: `peerkey_auth.c`, `wpa_smk_m1`. -/
def wpaSmkM1 (id : ι) (addr : MacAddr) (f : EapolKey) : List (ι × SendArgs) :=
  match wpaParseKdeIes f.keyData with
  | none => []
  | some kde => match kde.rsnIe, kdeMacAddr kde with
    | some rsnIe, some peer => match find peer with
      | none => [(id, smkErrorArgs peer stkMuiSmk stkErrStaNr)]
      | some other => [(other, {
          keyInfo := KeyInfo.secure ||| KeyInfo.mic ||| KeyInfo.ack ||| KeyInfo.smkMessage
          keyRsc := none
          nonce := some f.keyNonce
          kde := rsnIe ++ wpaAddKde rsnKeyDataMacAddr (putBe 6 addr.toNat) []
          keyidx := 0
          encr := false })]
    | _, _ => []

def lifetimeKde : Bytes := wpaAddKde rsnKeyDataLifetime (putBe 4 43200) []

/-- The frames `wpa_smk_m3` sends: M4 back and M5 to the initiator, or an error back. The SMK is
derived from random octets. Source: `peerkey_auth.c`, `wpa_smk_m3`. -/
def wpaSmkM3 (ans : Answers) (id : ι) (addr : MacAddr) (f : EapolKey) : List (ι × SendArgs) :=
  match wpaParseKdeIes f.keyData with
  | none => []
  | some kde => match kde.rsnIe, kdeMacAddr kde, kde.nonce.filter (32 ≤ ·.length) with
    | some rsnIe, some initiator, some nonce => match find initiator, ans.randomKey with
      | none, _ => [(id, smkErrorArgs initiator stkMuiSmk stkErrStaNr)]
      | some _, none => []
      | some other, some key =>
        let iNonce := nonce.take 32
        let pNonce := putBe 32 f.keyNonce.toNat
        let smk := (S.smkPrf key (putBe 6 S.conf.addr.toNat ++ ans.gtkEntropy ++ iNonce ++
          pNonce)).take 32
        [(id, {
            keyInfo := KeyInfo.secure ||| KeyInfo.mic ||| KeyInfo.install ||| KeyInfo.smkMessage
            keyRsc := none
            nonce := some f.keyNonce
            kde := wpaAddKde rsnKeyDataMacAddr (putBe 6 initiator.toNat) [] ++
              wpaAddKde rsnKeyDataNonce iNonce [] ++
              wpaAddKde rsnKeyDataSmk smk pNonce ++ lifetimeKde
            keyidx := 0
            encr := true }),
          (other, {
            keyInfo := KeyInfo.secure ||| KeyInfo.mic ||| KeyInfo.smkMessage
            keyRsc := none
            nonce := some (BitVec.ofNat 256 (beNat iNonce))
            kde := rsnIe ++ wpaAddKde rsnKeyDataMacAddr (putBe 6 addr.toNat) [] ++
              wpaAddKde rsnKeyDataNonce pNonce [] ++
              wpaAddKde rsnKeyDataSmk smk iNonce ++ lifetimeKde
            keyidx := 0
            encr := true })]
    | _, _, _ => []

/-- The frame `wpa_smk_error` sends to the peer. Source: `peerkey_auth.c`, `wpa_smk_error`. -/
def wpaSmkError (addr : MacAddr) (f : EapolKey) : List (ι × SendArgs) :=
  match wpaParseKdeIes f.keyData with
  | none => []
  | some kde => match kdeMacAddr kde, kde.error.filter (4 ≤ ·.length) with
    | some peer, some err => match find peer with
      | none => []
      | some other =>
        [(other, smkErrorArgs addr (beNat (err.take 2)) (beNat ((err.drop 2).take 2)))]
    | _, _ => []

/-- The frames of the PeerKey handler for a message. -/
def smkSends (ans : Answers) (id : ι) (addr : MacAddr) (f : EapolKey) : List (ι × SendArgs) :=
  match msgOf f with
  | .smkM1 => wpaSmkM1 find id addr f
  | .smkM3 => wpaSmkM3 S find ans id addr f
  | .smkError => wpaSmkError find addr f
  | .pairwise2 | .pairwise4 | .group2 | .request => []

end Smk

end Hostapd.Ap.WpaAuth
