import Hostapd.Common.EapolKey
import Hostapd.Lib.ReplayWindow

/-!
# The WPA authenticator: its data

The data of `wpa_auth_i.h`: the state machine of a station, the state machine of a group, and what
the two exchange with the rest of the access point. Built without management frame protection and
without fast transition, with PeerKey, as in the repository's `defconfig`.

* **`Sm`** is `struct wpa_state_machine`, with the fields the two machines read. A pointer to a
  group is its VLAN id, by which `wpa_auth_sta_set_vlan` finds it.
* **`Group`** is `struct wpa_group`. `driverKeys` are the group keys given to the driver.
* **`Answers`** is what the callbacks and the random number generator answer at one moment. A
  `Setup` holds one for each moment, and a machine counts the moments with `now`, so no answer
  constrains another one.
* **`Ev`** is what a station's machine does that can be seen from outside, in a trace that is
  newest first. Timers are not in the state: an operation may fire any of them at any time.
-/

namespace Hostapd.Ap.WpaAuth

open Hostapd.Lib

/-! ## State machines -/

inductive PtkState
  | initialise | disconnect | disconnected | authentication | authentication2 | initPmk | initPsk
  | ptkStart | ptkCalcNegotiating | ptkCalcNegotiating2 | ptkInitNegotiating | ptkInitDone
  deriving DecidableEq

/-- The states of the machine that hands the group key to one station. -/
inductive PtkGroupState
  | idle | rekeyNegotiating | rekeyEstablished | keyError
  deriving DecidableEq

inductive GroupState
  | gtkInit | setKeys | setKeysDone
  deriving DecidableEq

/-- The events other parts report. Source: `wpa_auth.h`, `wpa_event`. -/
inductive WpaEvent
  | auth | assoc | disassoc | deauth | reauth | reauthEapol | assocFt
  deriving DecidableEq

/-- The variables of the EAPOL machine. Source: `wpa_auth.h`, `wpa_eapol_variable`. -/
inductive EapolVariable
  | portEnabled | portValid | authorized | portControlAuto | keyRun | keyAvailable | keyDone
  | incEapolFramesTx
  deriving DecidableEq

/-- A PMKSA cache entry as a station's machine uses it. -/
structure PmksaRef where
  pmk : Pmk
  pmkid : Bytes
  deriving DecidableEq

/-- The state machine of a station. Source: `wpa_auth_i.h`, `struct wpa_state_machine`. -/
structure Sm where
  group : ℤ
  addr : MacAddr
  wpaPtkState : PtkState
  wpaPtkGroupState : PtkGroupState
  init : Bool
  deauthenticationRequest : Bool
  authenticationRequest : Bool
  reAuthenticationRequest : Bool
  disconnect : Bool
  timeoutCtr : ℕ
  gTimeoutCtr : ℕ
  timeoutEvt : Bool
  eapolKeyReceived : Bool
  eapolKeyPairwise : Bool
  eapolKeyRequest : Bool
  micVerified : Bool
  gUpdateStationKeys : Bool
  aNonce : Nonce
  sNonce : Nonce
  pmk : Pmk
  ptk : Ptk
  ptkValid : Bool
  pairwiseSet : Bool
  pair : Bool
  keyReplay : List (Slot ReplayCounter)
  pInitAKeys : Bool
  ptkRequest : Bool
  ptkGroupInit : Bool
  lastRxEapolKey : Option EapolKey
  changed : Bool
  inStepLoop : Bool
  pendingDeinit : Bool
  started : Bool
  reqReplayCounter : ReplayCounter
  reqReplayCounterUsed : Bool
  wpaIe : Option Bytes
  wpa : WpaVersion
  pairwise : WpaCipher
  wpaKeyMgmt : WpaKeyMgmt
  pmksa : Option PmksaRef

/-- `RSNA_MAX_EAPOL_RETRIES`, `dot11RSNAConfigPairwiseUpdateCount` and
`dot11RSNAConfigGroupUpdateCount`. -/
def rsnaMaxEapolRetries : ℕ := 4
def pairwiseUpdateCount : ℕ := 4
def groupUpdateCount : ℕ := 4

def emptyReplay : List (Slot ReplayCounter) := List.replicate rsnaMaxEapolRetries ⟨0#64, false⟩

/-- A machine as `os_zalloc` leaves it, for a station with an address.
Source: `wpa_auth_sta_init`; the default group has VLAN id 0. -/
def Sm.zero (addr : MacAddr) : Sm where
  group := 0
  addr := addr
  wpaPtkState := .initialise
  wpaPtkGroupState := .idle
  init := false
  deauthenticationRequest := false
  authenticationRequest := false
  reAuthenticationRequest := false
  disconnect := false
  timeoutCtr := 0
  gTimeoutCtr := 0
  timeoutEvt := false
  eapolKeyReceived := false
  eapolKeyPairwise := false
  eapolKeyRequest := false
  micVerified := false
  gUpdateStationKeys := false
  aNonce := 0#256
  sNonce := 0#256
  pmk := 0#256
  ptk := Ptk.zero
  ptkValid := false
  pairwiseSet := false
  pair := false
  keyReplay := emptyReplay
  pInitAKeys := false
  ptkRequest := false
  ptkGroupInit := false
  lastRxEapolKey := none
  changed := false
  inStepLoop := false
  pendingDeinit := false
  started := false
  reqReplayCounter := 0#64
  reqReplayCounterUsed := false
  wpaIe := none
  wpa := .noWpa
  pairwise := .none
  wpaKeyMgmt := .none
  pmksa := none

/-- The state machine of a group. The two keys are `gtk 1` and `gtk 2`.
Source: `wpa_auth_i.h`, `struct wpa_group`. -/
structure Group where
  gInit : Bool
  gKeyDoneStations : ℤ
  gtkReKey : Bool
  gtkLen : ℕ
  gn : ℕ
  gm : ℕ
  gtkAuthenticator : Bool
  counter : Nonce
  wpaGroupState : GroupState
  gmk : BitVec 256
  gtk : ℕ → Bytes
  gNonce : Nonce
  changed : Bool
  firstStaSeen : Bool
  reject4wayHsForEntropy : Bool
  driverKeys : List (ℕ × Bytes)

/-! ## Outside -/

/-- The configuration. Source: `wpa_auth.h`, `struct wpa_auth_config`, with the address and the
information elements of `struct wpa_authenticator`. -/
structure Conf where
  addr : MacAddr
  /-- `conf.wpa & WPA_PROTO_WPA` and `conf.wpa & WPA_PROTO_RSN`. -/
  protoWpa : Bool
  protoRsn : Bool
  wpaGroup : WpaCipher
  eapolVersion : BitVec 8
  peerkey : Bool
  wpaIe : Bytes

/-- What the callbacks and the generators of random numbers answer at one moment. -/
structure Answers where
  /-- `get_eapol`. -/
  getEapol : EapolVariable → ℤ
  /-- The keys `get_psk` enumerates. -/
  getPsk : List Pmk
  /-- The first `PMK_LEN` octets `get_msk` writes, `none` where it fails. -/
  getMsk : Option Pmk
  /-- `set_key`. -/
  setKey : ℤ
  /-- What `get_seqnum` leaves in the cleared buffer. -/
  getSeqnum : BitVec 64
  /-- Whether `disconnect` removes the station before it returns. -/
  deinitOnDisconnect : Bool
  /-- Whether `mic_failure_report` starts countermeasures. -/
  countermeasures : Bool
  /-- `random_pool_ready() == 1`. -/
  randomPoolReady : Bool
  /-- `random_get_bytes` for a GMK and for an SMK. -/
  randomKey : Option (BitVec 256)
  /-- The counter `wpa_group_init_gmk_and_counter` computes. -/
  initCounter : Option Nonce
  /-- The time and the random octets `wpa_gmk_to_gtk` adds. -/
  gtkEntropy : Bytes

/-- What does not change in a run: the primitives, the configuration, and the answers at each
moment. `gtkPrf` is `sha1_prf` with the label `"Group key expansion"` and 32 octets of output,
`smkPrf` the one with `"SMK Derivation"`, `rsnPmkid` is `rsn_pmkid`. -/
structure Setup where
  crypto : Crypto
  gtkPrf : BitVec 256 → Bytes → Bytes
  smkPrf : BitVec 256 → Bytes → Bytes
  rsnPmkid : Pmk → MacAddr → MacAddr → Bytes
  conf : Conf
  cb : ℕ → Answers

/-- What a station's machine does that can be seen from outside, and what is reported to it. -/
inductive Ev
  /-- `wpa_auth_sm_event` is called. -/
  | reported (ev : WpaEvent)
  /-- A replay counter is put into a frame. -/
  | issue (c : ReplayCounter)
  /-- `wpa_auth_sta_associated` clears the replay window of a machine that has been started. -/
  | reset
  /-- A frame goes to `send_eapol`. -/
  | sent (f : EapolKey) (encrypt : Bool)
  /-- A received frame is let through: it has passed the replay counter check and, where there is
  a PTK, the MIC check, and its counter is consumed. -/
  | accept (f : EapolKey)
  /-- The pairwise machine enters a state. -/
  | enter (st : PtkState)
  /-- A new authenticator nonce. -/
  | aNonce (n : Nonce)
  /-- The MIC of a 2/4 frame matched under the PTK of this PMK. -/
  | selected (pmk : Pmk) (ptk : Ptk)
  /-- `set_key` for the station; no key removes the one that is set. -/
  | setKey (key : Option Tk)
  | setEapol (var : EapolVariable) (value : ℤ)
  | disconnect

/-! ## One station -/

structure Loc where
  sm : Sm
  group : Group
  now : ℕ
  trace : List Ev

namespace Loc

def log (l : Loc) (e : Ev) : Loc := { l with trace := e :: l.trace }

def tick (l : Loc) : Loc := { l with now := l.now + 1 }

/-- `wpa_auth_set_eapol`. -/
def setEapol (l : Loc) (var : EapolVariable) (value : ℤ) : Loc := l.log (.setEapol var value)

@[simp] theorem log_sm (l : Loc) (e : Ev) : (l.log e).sm = l.sm := rfl
@[simp] theorem log_group (l : Loc) (e : Ev) : (l.log e).group = l.group := rfl
@[simp] theorem log_now (l : Loc) (e : Ev) : (l.log e).now = l.now := rfl
@[simp] theorem log_trace (l : Loc) (e : Ev) : (l.log e).trace = e :: l.trace := rfl
@[simp] theorem tick_sm (l : Loc) : l.tick.sm = l.sm := rfl
@[simp] theorem tick_group (l : Loc) : l.tick.group = l.group := rfl
@[simp] theorem tick_trace (l : Loc) : l.tick.trace = l.trace := rfl
@[simp] theorem setEapol_sm (l : Loc) (v : EapolVariable) (x : ℤ) :
    (l.setEapol v x).sm = l.sm := rfl
@[simp] theorem setEapol_group (l : Loc) (v : EapolVariable) (x : ℤ) :
    (l.setEapol v x).group = l.group := rfl
@[simp] theorem setEapol_trace (l : Loc) (v : EapolVariable) (x : ℤ) :
    (l.setEapol v x).trace = .setEapol v x :: l.trace := rfl

end Loc

end Hostapd.Ap.WpaAuth
