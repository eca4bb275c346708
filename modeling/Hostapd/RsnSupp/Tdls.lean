import Hostapd.Common.RsnIe

/-!
# TDLS

Direct links between two stations of a BSS that protects its frames (`rsn_supp/tdls.c`,
`wpa_tdls_get_privacy` holds): the TPK handshake, its timers, and teardown.

* **`TdlsPeer`** is what a station keeps of another one, `TdlsSm` the peers and, in `out`, what went
  to the driver: frames, keys and operations.
* **`processTpkM1`**, **`processTpkM2`**, **`processTpkM3`** are the handlers. Their checks are
  `checkM1`, `checkM2` and `checkM3`.
-/

namespace Hostapd.RsnSupp.Tdls

/-! ## Elements -/

/-- The Link Identifier. Source: `struct wpa_tdls_lnkid`. -/
structure Lnkid where
  bssid : MacAddr
  initSta : MacAddr
  respSta : MacAddr
  extra : Bytes
  deriving DecidableEq

/-- The FTIE with what follows its nonces. Source: `struct wpa_tdls_ftie`. -/
structure Ftie where
  micControl : UInt16
  mic : Bytes
  anonce : Nonce
  snonce : Nonce
  subelems : Bytes
  deriving DecidableEq

/-- The Timeout Interval of a key. Source: `struct wpa_tdls_timeoutie`. -/
structure TimeoutIe where
  value : UInt32
  extra : Bytes
  deriving DecidableEq

/-- The elements of a frame, an element that is too short among the absent ones.
Source: `struct wpa_eapol_ie_parse`. -/
structure TdlsIes where
  lnkid : Option Lnkid
  rsnIe : Option Bytes
  ftie : Option Ftie
  keyLifetime : Option TimeoutIe
  deriving DecidableEq

def TdlsIes.empty : TdlsIes := ⟨none, none, none, none⟩

/-- A setup frame behind its category and action. The status counts in messages 2 and 3 only. -/
structure TdlsFrame where
  status : UInt16
  dtoken : UInt8
  ies : Option TdlsIes
  deriving DecidableEq

/-! ## Keys -/

/-- What a MIC is computed over; the MIC of the FTIE itself counts as zero. -/
inductive MicData
  | setup (transSeq : UInt8) (lnkid : Lnkid) (rsnie : Bytes) (timeoutie : TimeoutIe) (ftie : Ftie)
  | teardown (transSeq : UInt8) (rcode : UInt16) (dtoken : UInt8) (lnkid : Lnkid) (ftie : Ftie)
  deriving DecidableEq

/-- The addresses that go into a TPK, the lower one first, and the BSSID. -/
structure TpkContext where
  lower : MacAddr
  upper : MacAddr
  bssid : MacAddr
  deriving DecidableEq

structure TdlsCrypto (κ : Type) where
  /-- TPK-KCK from the lower and the upper nonce -/
  kck : Nonce → Nonce → TpkContext → κ
  /-- TPK-TK from the lower and the upper nonce -/
  tk : Nonce → Nonce → TpkContext → κ
  mic : κ → MicData → Bytes
  tk_injective : ∀ {n m n' m' : Nonce} {c c' : TpkContext},
    tk n m c = tk n' m' c' → n = n' ∧ m = m' ∧ c = c'

/-- A TPK, with the nonces that it has been derived from, which no function reads.
Source: `struct tpk`. -/
structure Tpk (κ : Type) where
  kck : κ
  tk : κ
  inonce : Nonce
  rnonce : Nonce
  deriving DecidableEq

section Model

variable {κ : Type} (crypto : TdlsCrypto κ)

/-- Source: `wpa_tdls_generate_tpk`. -/
def generateTpk (inonce rnonce : Nonce) (peerAddr ownAddr bssid : MacAddr) : Tpk κ :=
  let lo := if inonce < rnonce then inonce else rnonce
  let hi := if inonce < rnonce then rnonce else inonce
  let context : TpkContext :=
    if ownAddr < peerAddr then ⟨ownAddr, peerAddr, bssid⟩ else ⟨peerAddr, ownAddr, bssid⟩
  ⟨crypto.kck lo hi context, crypto.tk lo hi context, inonce, rnonce⟩

/-- Source: `wpa_tdls_ftie_mic`. -/
def ftieMic (kck : κ) (transSeq : UInt8) (lnkid : Lnkid) (rsnie : Bytes) (timeoutie : TimeoutIe)
    (ftie : Ftie) : Bytes :=
  crypto.mic kck (.setup transSeq lnkid rsnie timeoutie { ftie with mic := [] })

/-- Source: `wpa_tdls_key_mic_teardown`. -/
def keyMicTeardown (kck : κ) (transSeq : UInt8) (rcode : UInt16) (dtoken : UInt8) (lnkid : Lnkid)
    (ftie : Ftie) : Bytes :=
  crypto.mic kck (.teardown transSeq rcode dtoken lnkid { ftie with mic := [] })

/-! ## State -/

/-- The action codes. Source: `WLAN_TDLS_*`. -/
def setupRequest : UInt8 := 0
def setupResponse : UInt8 := 1
def setupConfirm : UInt8 := 2
def teardown : UInt8 := 3

def tpkRetryCount : ℕ := 3

/-- Source: `TPK_LIFETIME`, in seconds. -/
def tpkLifetime : UInt32 := 43200

def tdlsMaxIeLen : ℕ := 80

/-- What is sent again. Source: `struct tpk_timer`. -/
structure TpkTimer where
  count : ℕ
  actionCode : UInt8
  dialogToken : UInt8
  statusCode : UInt16
  buf : Option TdlsIes
  deriving DecidableEq

/-- What a station keeps of another one. A cipher is CCMP or not selected yet; there is a TPK where
`tpk_set` is set; `retryTimer` and `tpkTimer` are the timeouts that are registered for the entry.
Source: `struct wpa_tdls_peer`. -/
structure TdlsPeer (κ : Type) where
  initiator : Bool
  inonce : Nonce
  rnonce : Nonce
  rsnieI : Bytes
  rsnieP : Bytes
  lifetime : UInt32
  ccmp : Bool
  dtoken : UInt8
  tpk : Option (Tpk κ)
  tpkSuccess : Bool
  smTmr : TpkTimer
  retryTimer : Bool
  tpkTimer : Bool
  deriving DecidableEq

def TdlsPeer.zero : TdlsPeer κ where
  initiator := false
  inonce := 0
  rnonce := 0
  rsnieI := []
  rsnieP := []
  lifetime := 0
  ccmp := false
  dtoken := 0
  tpk := none
  tpkSuccess := false
  smTmr := ⟨0, 0, 0, 0, none⟩
  retryTimer := false
  tpkTimer := false

/-- Source: `wpa_tdls_peer_free`. -/
def TdlsPeer.free (peer : TdlsPeer κ) : TdlsPeer κ :=
  { peer with
    initiator := false
    inonce := 0
    rnonce := 0
    rsnieI := []
    rsnieP := []
    ccmp := false
    tpk := none
    tpkSuccess := false
    smTmr := { peer.smTmr with buf := none }
    retryTimer := false
    tpkTimer := false }

/-- Source: `enum tdls_oper`, as far as it is used. -/
inductive TdlsOper
  | teardown | enableLink | disableLink
  deriving DecidableEq

/-- What goes to the driver: frames, the TPK-TKs that it takes, keys deleted, and operations. -/
inductive TdlsOut (κ : Type)
  | send (dst : MacAddr) (actionCode dialogToken : UInt8) (statusCode : UInt16) (ies : TdlsIes)
  | setKey (addr : MacAddr) (tpk : Tpk κ)
  | delKey (addr : MacAddr)
  | oper (op : TdlsOper) (addr : MacAddr)
  deriving DecidableEq

/-- The fields of `struct wpa_sm` that TDLS uses. -/
structure TdlsSm (κ : Type) where
  ownAddr : MacAddr
  bssid : MacAddr
  tdlsDisabled : Bool
  tdlsProhibited : Bool
  peers : MacAddr → Option (TdlsPeer κ)
  out : List (TdlsOut κ)

/-- What a call gets from outside: random octets, and whether the driver sends a frame and takes a
key. -/
structure TdlsEnv where
  random : Option Nonce
  sent : Bool
  keySet : Bool
  deriving DecidableEq

def TdlsSm.put (sm : TdlsSm κ) (addr : MacAddr) (peer : TdlsPeer κ) : TdlsSm κ :=
  { sm with peers := Function.update sm.peers addr (some peer) }

def TdlsSm.emit (sm : TdlsSm κ) (out : TdlsOut κ) : TdlsSm κ := { sm with out := sm.out ++ [out] }

/-! ## Sending -/

def TdlsPeer.startRetry (peer : TdlsPeer κ) (actionCode dialogToken : UInt8) (statusCode : UInt16)
    (ies : TdlsIes) : TdlsPeer κ :=
  { peer with
    smTmr := ⟨tpkRetryCount, actionCode, dialogToken, statusCode, some ies⟩
    retryTimer := true }

/-- Source: `wpa_tdls_tpk_send`. -/
def tpkSend (sm : TdlsSm κ) (dst : MacAddr) (actionCode dialogToken : UInt8) (statusCode : UInt16)
    (ies : TdlsIes) (env : TdlsEnv) : TdlsSm κ :=
  if env.sent then
    let sm := sm.emit (.send dst actionCode dialogToken statusCode ies)
    -- no retries
    if actionCode = setupConfirm ∨ actionCode = teardown then sm
    else
      match sm.peers dst with
      | none => sm
      | some peer => sm.put dst (peer.startRetry actionCode dialogToken statusCode ies)
  else sm

/-- Source: `wpa_tdls_send_error`. -/
def sendError (sm : TdlsSm κ) (dst : MacAddr) (tdlsAction dialogToken : UInt8) (status : UInt16)
    (env : TdlsEnv) : TdlsSm κ :=
  tpkSend sm dst tdlsAction dialogToken status .empty env

/-- Source: `wpa_tdls_tpk_retry_timeout_cancel`. -/
def TdlsPeer.retryTimeoutCancel (peer : TdlsPeer κ) (actionCode : UInt8) : TdlsPeer κ :=
  if actionCode = peer.smTmr.actionCode then
    { peer with
      smTmr := { peer.smTmr with buf := none, count := 0, actionCode := 0xff }
      retryTimer := false }
  else peer

/-- The RSN element of a message 1: CCMP, the TPK handshake, and 16 replay counters. -/
def rsnieM1 : Bytes :=
  [48, 20, 0x01, 0x00] ++ rsnSelector 7 ++ [0x01, 0x00] ++ rsnSelector 4 ++ [0x01, 0x00]
    ++ rsnSelector 7 ++ [0x0c, 0x02]

/-- Source: `wpa_tdls_send_tpk_m1`. -/
def sendTpkM1 (sm : TdlsSm κ) (addr : MacAddr) (peer : TdlsPeer κ) (env : TdlsEnv) : TdlsSm κ :=
  match env.random with
  | none => sm.put addr peer.free
  | some nonce =>
    let peer := { peer with rsnieI := rsnieM1, inonce := nonce, lifetime := tpkLifetime }
    tpkSend (sm.put addr peer) addr setupRequest 0 0
      { lnkid := none
        rsnIe := some peer.rsnieI
        ftie := some ⟨0, [], 0, nonce, []⟩
        keyLifetime := some ⟨peer.lifetime, []⟩ } env

/-- The elements of messages 2 and 3, with the MIC under a TPK. -/
def tpkIes (peer : TdlsPeer κ) (tpk : Tpk κ) (transSeq : UInt8) (lnkid : Lnkid) : TdlsIes :=
  let ftie : Ftie := ⟨0, [], peer.rnonce, peer.inonce, []⟩
  let timeoutie : TimeoutIe := ⟨peer.lifetime, []⟩
  { lnkid := none
    rsnIe := some peer.rsnieP
    ftie := some
      { ftie with mic := ftieMic crypto tpk.kck transSeq lnkid peer.rsnieP timeoutie ftie }
    keyLifetime := some timeoutie }

/-- Source: `wpa_tdls_send_tpk_m2`. -/
def sendTpkM2 (sm : TdlsSm κ) (srcAddr : MacAddr) (dtoken : UInt8) (lnkid : Lnkid)
    (peer : TdlsPeer κ) (tpk : Tpk κ) (env : TdlsEnv) : TdlsSm κ :=
  tpkSend sm srcAddr setupResponse dtoken 0 (tpkIes crypto peer tpk 2 lnkid) env

/-- Source: `wpa_tdls_send_tpk_m3`. -/
def sendTpkM3 (sm : TdlsSm κ) (srcAddr : MacAddr) (dtoken : UInt8) (lnkid : Lnkid)
    (peer : TdlsPeer κ) (tpk : Tpk κ) (env : TdlsEnv) : TdlsSm κ :=
  tpkSend sm srcAddr setupConfirm dtoken 0 (tpkIes crypto peer tpk 3 lnkid) env

/-- Source: `wpa_tdls_start`. -/
def tdlsStart (sm : TdlsSm κ) (addr : MacAddr) (env : TdlsEnv) : TdlsSm κ :=
  if sm.tdlsDisabled ∨ sm.tdlsProhibited then sm
  else sendTpkM1 sm addr { (sm.peers addr).getD .zero with initiator := true } env

/-- Source: `wpa_tdls_reneg`. -/
def tdlsReneg (sm : TdlsSm κ) (addr : MacAddr) (env : TdlsEnv) : TdlsSm κ :=
  if sm.tdlsDisabled then sm
  else
    match sm.peers addr with
    | none => sm
    | some peer => if peer.tpkSuccess then tdlsStart sm addr env else sm

/-! ## Timeouts -/

/-- Source: `wpa_tdls_tpk_retry_timeout`, where it is registered. -/
def tpkRetryTimeout (sm : TdlsSm κ) (addr : MacAddr) (env : TdlsEnv) : TdlsSm κ :=
  match sm.peers addr with
  | none => sm
  | some peer =>
    if peer.retryTimer then
      if peer.smTmr.count = 0 then (sm.emit (.oper .teardown addr)).put addr peer.free
      else
        let peer := { peer with smTmr := { peer.smTmr with count := peer.smTmr.count - 1 } }
        match peer.smTmr.buf with
        | none => sm.put addr { peer with retryTimer := false }
        | some ies =>
          let sm := sm.put addr peer
          if env.sent then
            sm.emit (.send addr peer.smTmr.actionCode peer.smTmr.dialogToken peer.smTmr.statusCode
              ies)
          else sm
    else sm

/-- Source: `wpa_tdls_tpk_timeout`, where it is registered. -/
def tpkTimeout (sm : TdlsSm κ) (addr : MacAddr) (env : TdlsEnv) : TdlsSm κ :=
  match sm.peers addr with
  | none => sm
  | some peer =>
    if peer.tpkTimer then
      let sm := sm.put addr { peer with tpkTimer := false }
      if peer.initiator then tdlsStart sm addr env else sm.emit (.oper .teardown addr)
    else sm

/-! ## Keys -/

/-- Give the TPK-TK to the driver; tells whether it has taken it. Source: `wpa_tdls_set_key`. -/
def setKey (sm : TdlsSm κ) (addr : MacAddr) (peer : TdlsPeer κ) (tpk : Tpk κ) (env : TdlsEnv) :
    TdlsSm κ × Bool :=
  if peer.ccmp ∧ env.keySet then (sm.emit (.setKey addr tpk), true) else (sm, false)

/-- Source: `wpa_supplicant_verify_tdls_mic`. -/
def verifyTdlsMic (transSeq : UInt8) (peer : TdlsPeer κ) (lnkid : Lnkid) (timeoutie : TimeoutIe)
    (ftie : Ftie) : Bool :=
  match peer.tpk with
  | none => false
  | some tpk => ftieMic crypto tpk.kck transSeq lnkid peer.rsnieP timeoutie ftie = ftie.mic

/-- A wrong MIC: the key is deleted and the entry cleared. -/
def micFailure (sm : TdlsSm κ) (addr : MacAddr) (peer : TdlsPeer κ) : TdlsSm κ :=
  (sm.emit (.delKey addr)).put addr peer.free

/-- Source: `wpa_tdls_enable_link`. -/
def enableLink (sm : TdlsSm κ) (addr : MacAddr) (peer : TdlsPeer κ) : TdlsSm κ :=
  (sm.put addr { peer with tpkSuccess := true, tpkTimer := true }).emit (.oper .enableLink addr)

/-! ## Message 1 -/

/-- The status codes. Source: `WLAN_STATUS_*`. -/
def statusUnspecifiedFailure : UInt16 := 1
def statusUnacceptableLifetime : UInt16 := 6
def statusNotInSameBss : UInt16 := 7
def statusRequestDeclined : UInt16 := 37
def statusInvalidParameters : UInt16 := 38
def statusPairwiseCipherNotValid : UInt16 := 42
def statusInvalidRsnIeCapab : UInt16 := 45
def statusInvalidRsnie : UInt16 := 72

def checkLnkid (sm : TdlsSm κ) : Option TdlsIes → Except UInt16 (TdlsIes × Lnkid)
  | none => .error statusUnspecifiedFailure
  | some ies =>
    match ies.lnkid with
    | none => .error statusUnspecifiedFailure
    | some lnkid => if lnkid.bssid = sm.bssid then .ok (ies, lnkid) else .error statusNotInSameBss

def checkM1Rsn (rsnIe : Bytes) : Except UInt16 Unit :=
  if tdlsMaxIeLen < rsnIe.length then .error statusInvalidRsnie
  else
    match parseWpaIeRsn rsnIe with
    | none => .error statusInvalidRsnie
    | some ie =>
      if ie.pairwiseCipher &&& cipherCcmp = 0 then .error statusPairwiseCipherNotValid
      else if ie.capabilities &&& (capabilityNoPairwise ||| capabilityPeerkeyEnabled) ≠
          capabilityPeerkeyEnabled then .error statusInvalidRsnIeCapab
      else .ok ()

/-- What a message 1 brings: its Link Identifier, the initiator's nonce and RSN element, and the
lifetime. -/
structure M1Data where
  lnkid : Lnkid
  snonce : Nonce
  rsnIe : Bytes
  lifetime : UInt32
  deriving DecidableEq

/-- The checks of `wpa_tdls_process_tpk_m1` in front of the entry of the peer. -/
def checkM1 (sm : TdlsSm κ) (ies : Option TdlsIes) : Except UInt16 M1Data :=
  match checkLnkid sm ies with
  | .error status => .error status
  | .ok (ies, lnkid) =>
    if sm.tdlsProhibited then .error statusRequestDeclined
    else
      match ies.ftie, ies.rsnIe with
      | some ftie, some rsnIe =>
        match checkM1Rsn rsnIe with
        | .error status => .error status
        | .ok () =>
          match ies.keyLifetime with
          | none => .error statusUnacceptableLifetime
          | some timeoutie =>
            if timeoutie.value < 300 then .error statusUnacceptableLifetime
            else .ok ⟨lnkid, ftie.snonce, rsnIe, timeoutie.value⟩
      | _, _ => .error statusInvalidParameters

/-- The entry for a message 1: a link that is up is taken down, and a setup of our own given up for
a peer with a lower address. `none` where the message is discarded. -/
def entryForM1 (sm : TdlsSm κ) (srcAddr : MacAddr) : TdlsSm κ × Option (TdlsPeer κ) :=
  match sm.peers srcAddr with
  | none => (sm, some .zero)
  | some peer =>
    if peer.tpkSuccess then (sm.emit (.delKey srcAddr), some peer.free)
    else if peer.initiator then
      if sm.ownAddr < srcAddr then (sm, none) else (sm, some peer.free)
    else (sm, some peer)

def TdlsPeer.respond (peer : TdlsPeer κ) (dtoken : UInt8) (m1 : M1Data) (rnonce : Nonce)
    (tpk : Tpk κ) : TdlsPeer κ :=
  { peer with
    initiator := false
    dtoken := dtoken
    inonce := m1.snonce
    rnonce := rnonce
    rsnieI := m1.rsnIe
    -- the responder's element is not checked to be its own
    rsnieP := m1.rsnIe
    ccmp := true
    lifetime := m1.lifetime
    tpk := some tpk }

/-- Source: `wpa_tdls_process_tpk_m1`. -/
def processTpkM1 (sm : TdlsSm κ) (srcAddr : MacAddr) (frame : Option TdlsFrame) (env : TdlsEnv) :
    TdlsSm κ :=
  match frame with
  | none => sm
  | some frame =>
    match checkM1 sm frame.ies with
    | .error status => sendError sm srcAddr setupResponse frame.dtoken status env
    | .ok m1 =>
      match entryForM1 sm srcAddr with
      | (sm, none) => sm
      | (sm, some peer) =>
        match env.random with
        | none =>
          sendError (sm.put srcAddr { peer.free with dtoken := frame.dtoken }) srcAddr
            setupResponse frame.dtoken statusUnspecifiedFailure env
        | some rnonce =>
          let tpk := generateTpk crypto m1.snonce rnonce srcAddr sm.ownAddr sm.bssid
          let peer := peer.respond frame.dtoken m1 rnonce tpk
          sendTpkM2 crypto (sm.put srcAddr peer) srcAddr frame.dtoken m1.lnkid peer tpk env

/-! ## Message 2 -/

structure M2Data where
  lnkid : Lnkid
  ftie : Ftie
  rsnIe : Bytes
  keyLifetime : Option TimeoutIe
  deriving DecidableEq

/-- The checks of `wpa_tdls_process_tpk_m2` in front of the first field that is stored. The error
`none` is a frame that is discarded silently. -/
def checkM2 (sm : TdlsSm κ) (peer : TdlsPeer κ) (ies : Option TdlsIes) :
    Except (Option UInt16) M2Data :=
  match checkLnkid sm ies with
  | .error status => .error (some status)
  | .ok (ies, lnkid) =>
    match ies.ftie, ies.rsnIe with
    | some ftie, some rsnIe =>
      if rsnIe ≠ peer.rsnieI then .error (some statusInvalidRsnie)
      else
        match parseWpaIeRsn rsnIe with
        | none => .error (some statusInvalidRsnie)
        | some ie =>
          if ie.pairwiseCipher ≠ cipherCcmp then .error (some statusPairwiseCipherNotValid)
          else if peer.inonce ≠ ftie.snonce then .error none
          else .ok ⟨lnkid, ftie, rsnIe, ies.keyLifetime⟩
    | _, _ => .error (some statusInvalidParameters)

/-- The entry with the responder's nonce and element. -/
def TdlsPeer.learn (peer : TdlsPeer κ) (m2 : M2Data) : TdlsPeer κ :=
  { peer with rnonce := m2.ftie.anonce, rsnieP := m2.rsnIe, ccmp := true }

/-- The TPK of a message 2 that has passed the checks. -/
def tpkM2 (sm : TdlsSm κ) (srcAddr : MacAddr) (peer : TdlsPeer κ) (m2 : M2Data) : Tpk κ :=
  generateTpk crypto peer.inonce m2.ftie.anonce srcAddr sm.ownAddr sm.bssid

/-- An accepted message 2: the key is set and message 3 sent, and the link comes up even where the
driver has not taken the key. -/
def acceptM2 (sm : TdlsSm κ) (srcAddr : MacAddr) (dtoken : UInt8) (lnkid : Lnkid)
    (peer : TdlsPeer κ) (tpk : Tpk κ) (env : TdlsEnv) : TdlsSm κ :=
  let sm := (setKey sm srcAddr peer tpk env).1
  let peer := { peer with dtoken := dtoken }
  let sm := sendTpkM3 crypto (sm.put srcAddr peer) srcAddr dtoken lnkid peer tpk env
  enableLink sm srcAddr peer

/-- The part of `wpa_tdls_process_tpk_m2` that stores what the message brings: the nonce and the
element are kept even where the lifetime is refused. -/
def learnM2 (sm : TdlsSm κ) (srcAddr : MacAddr) (dtoken : UInt8) (peer : TdlsPeer κ) (m2 : M2Data)
    (env : TdlsEnv) : TdlsSm κ :=
  let sm := sm.put srcAddr (peer.learn m2)
  match m2.keyLifetime with
  | none => sendError sm srcAddr setupConfirm dtoken statusUnacceptableLifetime env
  | some timeoutie =>
    if timeoutie.value ≠ peer.lifetime then
      sendError sm srcAddr setupConfirm dtoken statusUnacceptableLifetime env
    else
      let tpk := tpkM2 crypto sm srcAddr peer m2
      let peer := { peer.learn m2 with tpk := some tpk }
      if verifyTdlsMic crypto 2 peer m2.lnkid timeoutie m2.ftie then
        acceptM2 crypto sm srcAddr dtoken m2.lnkid peer tpk env
      else micFailure sm srcAddr peer

/-- Source: `wpa_tdls_process_tpk_m2`. -/
def processTpkM2 (sm : TdlsSm κ) (srcAddr : MacAddr) (frame : Option TdlsFrame) (env : TdlsEnv) :
    TdlsSm κ :=
  match sm.peers srcAddr with
  | none => sm
  | some peer =>
    let peer := peer.retryTimeoutCancel setupRequest
    let sm := sm.put srcAddr peer
    match frame with
    | none => sm
    | some frame =>
      if frame.status ≠ 0 then sm
      else
        match checkM2 sm peer frame.ies with
        | .error none => sm
        | .error (some status) => sendError sm srcAddr setupConfirm frame.dtoken status env
        | .ok m2 => learnM2 crypto sm srcAddr frame.dtoken peer m2 env

/-! ## Message 3 -/

/-- The checks of `wpa_tdls_process_tpk_m3` but for the MIC. -/
def checkM3 (sm : TdlsSm κ) (peer : TdlsPeer κ) (ies : Option TdlsIes) :
    Option (Lnkid × Ftie × TimeoutIe) :=
  match checkLnkid sm ies with
  | .error _ => none
  | .ok (ies, lnkid) =>
    match ies.ftie, ies.rsnIe, ies.keyLifetime with
    | some ftie, some rsnIe, some timeoutie =>
      if rsnIe ≠ peer.rsnieP then none
      else if peer.rnonce ≠ ftie.anonce then none
      else if peer.inonce ≠ ftie.snonce then none
      else if timeoutie.value ≠ peer.lifetime then none
      else some (lnkid, ftie, timeoutie)
    | _, _, _ => none

/-- Source: `wpa_tdls_process_tpk_m3`. -/
def processTpkM3 (sm : TdlsSm κ) (srcAddr : MacAddr) (frame : Option TdlsFrame) (env : TdlsEnv) :
    TdlsSm κ :=
  match sm.peers srcAddr with
  | none => sm
  | some peer =>
    let peer := peer.retryTimeoutCancel setupResponse
    let sm := sm.put srcAddr peer
    match frame with
    | none => sm
    | some frame =>
      if frame.status ≠ 0 then sm
      else
        match checkM3 sm peer frame.ies with
        | none => sm
        | some (lnkid, ftie, timeoutie) =>
          match peer.tpk with
          | none => micFailure sm srcAddr peer
          | some tpk =>
            if verifyTdlsMic crypto 3 peer lnkid timeoutie ftie then
              match setKey sm srcAddr peer tpk env with
              | (sm, true) => enableLink sm srcAddr peer
              | (sm, false) => sm
            else micFailure sm srcAddr peer

/-! ## Teardown -/

/-- Source: `wpa_tdls_linkid`. -/
def linkid (sm : TdlsSm κ) (addr : MacAddr) (peer : TdlsPeer κ) : Lnkid :=
  if peer.initiator then ⟨sm.bssid, sm.ownAddr, addr, []⟩ else ⟨sm.bssid, addr, sm.ownAddr, []⟩

def teardownIes (sm : TdlsSm κ) (addr : MacAddr) (peer : TdlsPeer κ) (reasonCode : UInt16) :
    TdlsIes :=
  match peer.tpk, peer.tpkSuccess with
  | some tpk, true =>
    let ftie : Ftie := ⟨0, [], peer.rnonce, peer.inonce, []⟩
    { TdlsIes.empty with
      ftie := some
        { ftie with
          mic := keyMicTeardown crypto tpk.kck 4 reasonCode peer.dtoken (linkid sm addr peer)
            ftie } }
  | _, _ => .empty

/-- Source: `wpa_tdls_recv_teardown_notify`. -/
def recvTeardownNotify (sm : TdlsSm κ) (addr : MacAddr) (reasonCode : UInt16) (env : TdlsEnv) :
    TdlsSm κ :=
  if sm.tdlsDisabled then sm
  else
    match sm.peers addr with
    | none => sm
    | some peer =>
      -- the reason code of the frame is WLAN_REASON_TDLS_TEARDOWN_UNSPECIFIED in any case
      (tpkSend sm addr teardown 0 26 (teardownIes crypto sm addr peer reasonCode) env).put addr
        peer.free

def teardownOk (peer : TdlsPeer κ) (reasonCode : UInt16) (ies : Option TdlsIes) : Bool :=
  match ies with
  | none => false
  | some ies =>
    match ies.lnkid with
    | none => false
    | some lnkid =>
      match peer.tpk, peer.tpkSuccess with
      | some tpk, true =>
        match ies.ftie with
        | none => false
        | some ftie =>
          keyMicTeardown crypto tpk.kck 4 reasonCode peer.dtoken lnkid ftie = ftie.mic
      | _, _ => true

/-- Source: `wpa_tdls_recv_teardown`. -/
def recvTeardown (sm : TdlsSm κ) (srcAddr : MacAddr) (reasonCode : UInt16)
    (ies : Option TdlsIes) : TdlsSm κ :=
  match sm.peers srcAddr with
  | none => sm
  | some peer =>
    if teardownOk crypto peer reasonCode ies then
      (sm.emit (.oper .disableLink srcAddr)).put srcAddr peer.free
    else sm

/-! ## Inputs -/

/-- A received TDLS frame. A setup frame is `none` where it is too short. -/
inductive TdlsRx
  | tpkM1 (frame : Option TdlsFrame)
  | tpkM2 (frame : Option TdlsFrame)
  | tpkM3 (frame : Option TdlsFrame)
  | teardown (reasonCode : UInt16) (ies : Option TdlsIes)
  deriving DecidableEq

/-- What happens to a station: requests of the user, timeouts, and received frames. -/
inductive TdlsInput
  | start (addr : MacAddr)
  | reneg (addr : MacAddr)
  | teardownNotify (addr : MacAddr) (reasonCode : UInt16)
  | retryTimeout (addr : MacAddr)
  | tpkTimeout (addr : MacAddr)
  | rx (srcAddr : MacAddr) (frame : TdlsRx)
  deriving DecidableEq

/-- Source: `wpa_supplicant_rx_tdls`. -/
def rxTdls (sm : TdlsSm κ) (srcAddr : MacAddr) (frame : TdlsRx) (env : TdlsEnv) : TdlsSm κ :=
  if sm.tdlsDisabled ∨ srcAddr = sm.ownAddr then sm
  else
    match frame with
    | .tpkM1 frame => processTpkM1 crypto sm srcAddr frame env
    | .tpkM2 frame => processTpkM2 crypto sm srcAddr frame env
    | .tpkM3 frame => processTpkM3 crypto sm srcAddr frame env
    | .teardown reasonCode ies => recvTeardown crypto sm srcAddr reasonCode ies

def tdlsStep (sm : TdlsSm κ) (a : TdlsInput × TdlsEnv) : TdlsSm κ :=
  match a.1 with
  | .start addr => tdlsStart sm addr a.2
  | .reneg addr => tdlsReneg sm addr a.2
  | .teardownNotify addr reasonCode => recvTeardownNotify crypto sm addr reasonCode a.2
  | .retryTimeout addr => tpkRetryTimeout sm addr a.2
  | .tpkTimeout addr => tpkTimeout sm addr a.2
  | .rx srcAddr frame => rxTdls crypto sm srcAddr frame a.2

def TdlsSm.init (ownAddr bssid : MacAddr) (tdlsDisabled tdlsProhibited : Bool) : TdlsSm κ :=
  ⟨ownAddr, bssid, tdlsDisabled, tdlsProhibited, fun _ => none, []⟩

end Model

end Hostapd.RsnSupp.Tdls
