import Hostapd.Common.FtIes
import Hostapd.Lib.Run

/-!
# Fast BSS transition at the access point

The access point's side of fast BSS transition (`ap/wpa_auth_ft.c`), with what the rest of the
access point does to the data it uses (`ap/ieee802_11.c`, `ap/wpa_auth_glue.c`, `ap/wpa_auth.c`).
The machine of a station holds the SNonce, the ANonce, the PMKR1Name, the R0KH-ID and the PTK side
by side; each is written on its own.

* **`processAuthReq`** answers an FT authentication request, over the air or from another access
  point. It stores what it reads while it reads.
* **`validateReassoc`** compares a reassociation request with what is stored.
* **`ftStep`** is one step of the access point for a station. The state keeps notes of what was
  written into the PTK and of the reassociation requests that were accepted, newest first.
-/

namespace Hostapd.Ap.Ft

open Hostapd.Lib Hostapd.Ft

/-! ## Configuration -/

/-- Source: `defs.h`, `enum mfp_options`. -/
inductive MfpOptions
  | no | optional | required
  deriving DecidableEq

/-- Source: `wpa_auth.h`, `struct wpa_auth_config`, and the address of the access point. -/
structure FtConf where
  addr : MacAddr
  wpaGroup : WpaCipher
  rsnPairwise : List WpaCipher
  wpaKeyMgmt : List WpaKeyMgmt
  rsnPreauth : Bool
  peerkey : Bool
  wmmEnabled : Bool
  ieee80211w : MfpOptions
  ssid : Bytes
  mobilityDomain : Bytes
  r0KeyHolder : Bytes
  r1KeyHolder : Bytes
  ftOverDs : Bool
  deriving DecidableEq

def groupSuite : WpaCipher → Option Bytes
  | .ccmp => some (rsnSelector 4)
  | .tkip => some (rsnSelector 2)
  | .wep104 => some (rsnSelector 5)
  | .wep40 => some (rsnSelector 1)
  | .none => none

/-- The pairwise suites, in the order they are written. -/
def pairwiseSuites (ciphers : List WpaCipher) : List Bytes :=
  [(WpaCipher.ccmp, 4), (.tkip, 2), (.none, 0)].filterMap fun (c, type) =>
    if c ∈ ciphers then some (rsnSelector type) else none

/-- The key management suites, in the order they are written. -/
def keyMgmtSuites (suites : List WpaKeyMgmt) : List Bytes :=
  [(WpaKeyMgmt.ieee8021x, 1), (.psk, 2), (.ftIeee8021x, 3), (.ftPsk, 4), (.ieee8021xSha256, 5),
    (.pskSha256, 6)].filterMap fun (k, type) =>
    if k ∈ suites then some (rsnSelector type) else none

def rsnCapab (conf : FtConf) : ℕ :=
  (if conf.rsnPreauth then 0x0001 else 0) + (if conf.peerkey then 0x0200 else 0) +
    (if conf.wmmEnabled then 0x000c else 0) + (if conf.ieee80211w = .no then 0 else 0x0080) +
    (if conf.ieee80211w = .required then 0x0040 else 0)

/-- The RSN element with a PMKID, behind its header. Source: `wpa_auth_ie.c`, `wpa_write_rsn_ie`.
-/
def writeRsnIe (conf : FtConf) (pmkid : Bytes) : Option Bytes :=
  match groupSuite conf.wpaGroup with
  | none => none
  | some group =>
    let pairwise := pairwiseSuites conf.rsnPairwise
    let keyMgmt := keyMgmtSuites conf.wpaKeyMgmt
    if pairwise = [] ∨ keyMgmt = [] then none
    else some (putLe16 1 ++ group ++ putLe16 pairwise.length ++ pairwise.flatten ++
      putLe16 keyMgmt.length ++ keyMgmt.flatten ++ putLe16 (rsnCapab conf) ++ putLe16 1 ++ pmkid ++
      if conf.ieee80211w = .no then [] else rsnSelector 6)

/-- The MDIE behind its header. Source: `wpa_write_mdie`. -/
def writeMdie (conf : FtConf) : Bytes :=
  mdieOctets conf.mobilityDomain (if conf.ftOverDs then 1 else 0)

/-- The FTIE behind its header. Source: `wpa_write_ftie`. -/
def writeFtie (conf : FtConf) (r0khId anonce snonce : Bytes) (subelems : List Record) : Bytes :=
  ftieOctets 0 (List.replicate 16 0) anonce snonce
    ((subelemR1khId, conf.r1KeyHolder) :: (subelemR0khId, r0khId) :: subelems)

/-! ## The machine of a station -/

/-- Source: `struct wpa_ft_pmk_r1_sa`. -/
structure PmkR1Sa where
  pmkR1 : Bytes
  pmkR1Name : Bytes
  spa : MacAddr
  pairwise : WpaCipher
  deriving DecidableEq

/-- What fast BSS transition uses of the machine of a station; `xxkey` is `none` where
`xxkey_len` is zero. Source: `wpa_auth_i.h`, `struct wpa_state_machine`. -/
structure FtSm where
  sNonce : Bytes
  aNonce : Bytes
  ptk : Ptk
  pairwiseSet : Bool
  pairwise : WpaCipher
  pmkR1Name : Bytes
  pmkR1NameValid : Bool
  r0khId : Bytes
  xxkey : Option Bytes
  supPmkR1Name : Bytes
  wpaKeyMgmt : WpaKeyMgmt
  wpa : WpaVersion
  mgmtFrameProt : Bool
  ftCompleted : Bool
  deriving DecidableEq

/-- A new machine, all zeros. Source: `wpa_auth_sta_init`. -/
def FtSm.zero : FtSm where
  sNonce := List.replicate nonceLen 0
  aNonce := List.replicate nonceLen 0
  ptk := Ptk.zero
  pairwiseSet := false
  pairwise := .none
  pmkR1Name := List.replicate 16 0
  pmkR1NameValid := false
  r0khId := []
  xxkey := none
  supPmkR1Name := List.replicate 16 0
  wpaKeyMgmt := .none
  wpa := .noWpa
  mgmtFrameProt := false
  ftCompleted := false

structure FtDerivation where
  pmkR1 : Bytes
  pmkR1Name : Bytes
  sNonce : Bytes
  aNonce : Bytes
  ptk : Ptk
  deriving DecidableEq

/-- What a reassociation request carries for fast BSS transition. -/
structure ReassocFrame where
  rsn : Bytes
  pmkid : Bytes
  mdie : Bytes
  ftie : Bytes
  r0khId : Bytes
  r1khId : Bytes
  ric : Option (List Record)
  deriving DecidableEq

/-- A note of what happened to the PTK of the station, or of an accepted request. -/
inductive FtNote
  /-- the machine was created -/
  | created
  /-- the PTK was set to zeros -/
  | cleared
  /-- the PTK was derived from a PMK-R1 -/
  | derived (d : FtDerivation)
  /-- the PTK was written in a 4-way handshake without fast BSS transition -/
  | otherPtk
  | accepted (frame : ReassocFrame)
  deriving DecidableEq

variable (C : FtCrypto) (conf : FtConf) (addr : MacAddr)

/-! ## The authentication request -/

/-- Source: `wpa_ft_fetch_pmk_r1`. -/
def fetchPmkR1 (cache : List PmkR1Sa) (spa : MacAddr) (pmkR1Name : Bytes) : Option PmkR1Sa :=
  cache.find? fun sa => sa.spa = spa ∧ sa.pmkR1Name = pmkR1Name

/-- The check of the MDIE both messages of a station are put through. -/
def mdieOk : Option Bytes → Bool
  | none => false
  | some mdie => 3 ≤ mdie.length ∧ mdie.take 2 = conf.mobilityDomain

/-- What the rest of the system does in an authentication request: the random octets, whether there
were enough, and whether the driver takes the key. -/
structure AuthEnv where
  aNonce : Bytes
  randomOk : Bool
  setKeyOk : Bool
  deriving DecidableEq

/-- Source: `WLAN_STATUS_SUCCESS`, `WLAN_STATUS_UNSPECIFIED_FAILURE`, `WLAN_STATUS_INVALID_PMKID`,
`WLAN_STATUS_INVALID_MDIE`, `WLAN_STATUS_INVALID_FTIE`, and `-1` as a `u16`. -/
def statusSuccess : ℕ := 0
def statusUnspecifiedFailure : ℕ := 1
def statusInvalidPmkid : ℕ := 53
def statusInvalidMdie : ℕ := 54
def statusInvalidFtie : ℕ := 55
def statusMinusOne : ℕ := 65535

/-- Source: `wpa_ft_install_ptk`. -/
def FtSm.installPtk (sm : FtSm) (setKeyOk : Bool) : FtSm :=
  if (sm.pairwise = .tkip ∨ sm.pairwise = .ccmp) ∧ setKeyOk then { sm with pairwiseSet := true }
  else sm

structure AuthReply where
  sm : FtSm
  /-- the PTK derived on the way -/
  derived : Option FtDerivation
  status : ℕ
  respIes : List Record
  deriving DecidableEq

def authFail (sm : FtSm) (status : ℕ) : AuthReply := ⟨sm, none, status, []⟩

/-- The PTK from a PMK-R1 and the nonces of the machine. -/
def derivePtk (sm : FtSm) (pmkR1 pmkR1Name : Bytes) (pairwise : WpaCipher) : FtDerivation where
  pmkR1 := pmkR1
  pmkR1Name := pmkR1Name
  sNonce := sm.sNonce
  aNonce := sm.aNonce
  ptk := C.pmkR1ToPtk pmkR1 sm.sNonce sm.aNonce addr conf.addr pmkR1Name (pairwise != .ccmp)

/-- An authentication request whose PMK-R1 was found: a new ANonce, the PTK and the response. -/
def grantAuth (env : AuthEnv) (sm : FtSm) (sa : PmkR1Sa) (pmkR1Name rsnPmkid r0khId : Bytes) :
    AuthReply :=
  let sm := { sm with pmkR1NameValid := true, pmkR1Name := pmkR1Name, aNonce := env.aNonce }
  if !env.randomOk then authFail sm statusUnspecifiedFailure
  else
    let d := derivePtk C conf addr sm sa.pmkR1 pmkR1Name sa.pairwise
    let sm := FtSm.installPtk { sm with ptk := d.ptk, pairwise := sa.pairwise } env.setKeyOk
    match writeRsnIe conf rsnPmkid with
    | none => ⟨sm, some d, statusUnspecifiedFailure, []⟩
    | some rsn => ⟨sm, some d, statusSuccess,
        [(wlanEidRsn, rsn), (eidMobilityDomain, writeMdie conf),
          (eidFastBssTransition, writeFtie conf r0khId sm.aNonce sm.sNonce [])]⟩

/-- An FT authentication request. A PMK-R1 that is not in the cache is asked for at another access
point, and the request fails. Source: `wpa_ft_process_auth_req`. -/
def processAuthReq (env : AuthEnv) (cache : List PmkR1Sa) (sm : FtSm) (ies : Bytes) : AuthReply :=
  let sm := { sm with pmkR1NameValid := false }
  match parseFtIes .authenticator ies with
  | none => authFail sm statusUnspecifiedFailure
  | some parse =>
    if !mdieOk conf parse.mdie then authFail sm statusInvalidMdie
    else
      match parse.ftie with
      | none => authFail sm statusInvalidFtie
      | some ftie =>
        let sm := { sm with sNonce := ftieSNonce ftie }
        match parse.r0khId with
        | none => authFail sm statusInvalidFtie
        | some r0khId =>
          let sm := { sm with r0khId := r0khId }
          match parse.rsnPmkid with
          | none => authFail sm statusInvalidPmkid
          | some rsnPmkid =>
            let pmkR1Name := (C.pmkR1Name rsnPmkid conf.r1KeyHolder addr).toList
            match fetchPmkR1 cache addr pmkR1Name with
            | none => authFail sm statusInvalidPmkid
            | some sa => grantAuth C conf addr env sm sa pmkR1Name rsnPmkid r0khId

/-! ## The reassociation request -/

/-- A reassociation request is accepted when it says what the machine holds. Source:
`wpa_ft_validate_reassoc`. -/
def validateReassoc (sm : FtSm) (ies : Bytes) : ℕ :=
  match parseFtIes .authenticator ies with
  | none => statusUnspecifiedFailure
  | some parse =>
    match parse.rsn with
    | none => statusUnspecifiedFailure
    | some rsn =>
      match parse.rsnPmkid with
      | none => statusInvalidPmkid
      | some rsnPmkid =>
        if rsnPmkid ≠ sm.pmkR1Name then statusInvalidPmkid
        else
          match parse.mdie with
          | none => statusInvalidMdie
          | some mdie =>
            if !mdieOk conf (some mdie) then statusInvalidMdie
            else
              match parse.ftie with
              | none => statusInvalidFtie
              | some ftie =>
                if ftieSNonce ftie ≠ sm.sNonce then statusMinusOne
                else if ftieANonce ftie ≠ sm.aNonce then statusMinusOne
                else if parse.r0khId ≠ some sm.r0khId then statusMinusOne
                else if parse.r1khId ≠ some conf.r1KeyHolder then statusMinusOne
                -- the name is compared a second time
                else if rsnPmkid ≠ sm.pmkR1Name then statusMinusOne
                else if ftieCount ftie ≠ 3 + parse.ric.toList.length then statusMinusOne
                else if ftMic C sm.ptk.kck addr conf.addr 5 rsn mdie ftie (parse.ric.getD []) ≠
                    ftieMic ftie then statusInvalidFtie
                else statusSuccess

/-- What a request carries, when it carries everything the access point looks at. -/
def readReassoc (ies : Bytes) : Option ReassocFrame := do
  let parse ← parseFtIes .authenticator ies
  let rsn ← parse.rsn
  let pmkid ← parse.rsnPmkid
  let mdie ← parse.mdie
  let ftie ← parse.ftie
  let r0khId ← parse.r0khId
  let r1khId ← parse.r1khId
  some ⟨rsn, pmkid, mdie, ftie, r0khId, r1khId, parse.ric⟩

/-! ## The other writers of the machine -/

/-- Source: `wpa_auth.h`, `wpa_event`. -/
inductive WpaEvent
  | auth | assoc | disassoc | deauth | reauth | reauthEapol | assocFt
  deriving DecidableEq

/-- Source: `wpa_remove_ptk`. -/
def FtSm.removePtk (sm : FtSm) : FtSm := { sm with ptk := Ptk.zero, pairwiseSet := false }

/-- An event, without the steps of the machine that follow it. Source: `wpa_auth_sm_event`. -/
def FtSm.event (sm : FtSm) (e : WpaEvent) (setKeyOk : Bool) : FtSm × List FtNote :=
  if e = .assocFt then ({ sm.installPtk setKeyOk with ftCompleted := true }, [])
  else
    let sm := { sm with ftCompleted := false }
    if sm.mgmtFrameProt ∧ e = .auth then (sm, [])
    else if e = .reauthEapol then ({ sm with ptk := Ptk.zero }, [.cleared])
    else (sm.removePtk, [.cleared])

/-- The states of the pairwise machine that write what fast BSS transition uses, with what the rest
of the system gives them.

* `authentication2` comes with the counter of the group;
* `initPmk` with the second half of the MSK, and `initPsk` with a PSK of the station;
* `ptkCalcNegotiating` with the number of keys tried, whether the MIC of the frame was right for
  one of them, and the PTK the frame was right for when it is not derived here. -/
inductive PtkEntry
  | initialise
  | authentication
  | authentication2 (counter : Bytes)
  | initPmk (xxkey : Option Bytes)
  | initPsk (psk : Option Bytes)
  | ptkCalcNegotiating (tried : ℕ) (micOk : Bool) (other : Ptk)
  | ptkInitDone (setKeyOk : Bool)
  deriving DecidableEq

/-- Source: `defs.h`, `wpa_key_mgmt_ft`. -/
def keyMgmtFt : WpaKeyMgmt → Bool
  | .ftIeee8021x | .ftPsk => true
  | _ => false

/-- The key hierarchy of the initial association, from the root key on. Source:
`wpa_auth_derive_ptk_ft`. -/
def derivePtkFt (sm : FtSm) (xxkey : Bytes) : FtDerivation :=
  let r0 := C.pmkR0 xxkey conf.ssid conf.mobilityDomain conf.r0KeyHolder addr
  derivePtk C conf addr sm (C.pmkR1 r0.1 conf.r1KeyHolder addr)
    (C.pmkR1Name r0.2.toList conf.r1KeyHolder addr).toList sm.pairwise

/-- What entering a state writes: the machine, the notes and the entries stored in the cache. -/
structure EntryEffect where
  sm : FtSm
  notes : List FtNote
  stored : List PmkR1Sa
  deriving DecidableEq

/-- Take the PTK that the MIC of message 2 was right for, after the check of its name. -/
def takePtk (sm : FtSm) (ptk : Ptk) (note : FtNote) : FtSm × List FtNote :=
  if sm.wpa = .wpa2 ∧ keyMgmtFt sm.wpaKeyMgmt ∧ sm.supPmkR1Name ≠ sm.pmkR1Name then (sm, [])
  else ({ sm with ptk := ptk }, [note])

/-- Source: `SM_STATE(WPA_PTK, PTKCALCNEGOTIATING)`. -/
def ptkCalcNegotiating (sm : FtSm) (tried : ℕ) (micOk : Bool) (other : Ptk) : EntryEffect :=
  if tried = 0 then ⟨sm, [], []⟩
  else
    match keyMgmtFt sm.wpaKeyMgmt, sm.xxkey with
    | true, some xxkey =>
      let d := derivePtkFt C conf addr sm xxkey
      let sm := { sm with pmkR1Name := d.pmkR1Name }
      let stored := List.replicate tried ⟨d.pmkR1, d.pmkR1Name, addr, sm.pairwise⟩
      if micOk then ⟨(takePtk sm d.ptk (.derived d)).1, (takePtk sm d.ptk (.derived d)).2, stored⟩
      else ⟨sm, [], stored⟩
    | _, _ =>
      if micOk then ⟨(takePtk sm other .otherPtk).1, (takePtk sm other .otherPtk).2, []⟩
      else ⟨sm, [], []⟩

/-- Entering a state. Source: the `SM_STATE(WPA_PTK, ..)` of `wpa_auth.c`. -/
def enter (sm : FtSm) : PtkEntry → EntryEffect
  | .initialise => ⟨sm.removePtk, [.cleared], []⟩
  | .authentication => ⟨{ sm with ptk := Ptk.zero }, [.cleared], []⟩
  | .authentication2 counter => ⟨{ sm with aNonce := counter }, [], []⟩
  | .initPmk xxkey => ⟨{ sm with xxkey := xxkey }, [], []⟩
  | .initPsk none => ⟨sm, [], []⟩
  | .initPsk (some psk) => ⟨{ sm with xxkey := some psk }, [], []⟩
  | .ptkCalcNegotiating tried micOk other => ptkCalcNegotiating C conf addr sm tried micOk other
  | .ptkInitDone setKeyOk => ⟨{ sm with pairwiseSet := sm.pairwiseSet || setKeyOk }, [], []⟩

/-- An EAPOL-Key frame: the name in a message 2 with fast BSS transition, if it gets so far, and
the nonce of the frame, if it gets to the end. Source: `wpa_receive`, `ft_check_msg_2_of_4`. -/
def FtSm.rxEapolKey (sm : FtSm) (supName keyNonce : Option Bytes) : FtSm :=
  { sm with
    supPmkR1Name := supName.getD sm.supPmkR1Name
    sNonce := keyNonce.getD sm.sNonce }

/-! ## The station -/

/-- Source: `ieee802_11_defs.h`, `WLAN_AUTH_*`. -/
inductive AuthAlg
  | openSystem | sharedKey | ft
  deriving DecidableEq

/-- Source: `sta_info.h`, `struct sta_info`; `auth` is the flag `WLAN_STA_AUTH`. -/
structure FtSta where
  authAlg : AuthAlg
  auth : Bool
  wpaSm : Option FtSm
  deriving DecidableEq

/-- A station that was just added. Source: `ap_sta_add`. -/
def FtSta.new : FtSta := ⟨.openSystem, false, none⟩

/-- The access point as far as one station goes, with the notes. -/
structure FtAp where
  cache : List PmkR1Sa
  sta : Option FtSta
  notes : List FtNote
  deriving DecidableEq

def FtAp.init (cache : List PmkR1Sa) : FtAp := ⟨cache, none, []⟩

/-- The machine of the station, created if there is none, and whether it was. -/
def FtSta.machine (sta : FtSta) : FtSm × List FtNote :=
  match sta.wpaSm with
  | some sm => (sm, [])
  | none => (FtSm.zero, [.created])

/-- What the rest of `check_assoc_ies` makes of an association request: whether it gets to the RSN
or WPA element, whether that element counts, whether `wpa_validate_wpa_ie` takes it, and what that
writes into the machine. -/
structure AssocChecks where
  early : Bool
  wpaIe : Bool
  validIe : Bool
  wpaKeyMgmt : WpaKeyMgmt
  pairwise : WpaCipher
  mgmtFrameProt : Bool
  wpa : WpaVersion
  deriving DecidableEq

/-- What `wpa_validate_wpa_ie` writes. -/
def FtSm.select (sm : FtSm) (checks : AssocChecks) : FtSm :=
  { sm with
    wpaKeyMgmt := checks.wpaKeyMgmt
    pairwise := checks.pairwise
    mgmtFrameProt := checks.mgmtFrameProt
    wpa := checks.wpa }

/-- Put an FT authentication request through the machine of the station. -/
def runAuthReq (ap : FtAp) (sta : FtSta) (env : AuthEnv) (ies : Bytes) : FtAp × ℕ :=
  let reply := processAuthReq C conf addr env ap.cache sta.machine.1 ies
  ({ ap with
      sta := some { sta with authAlg := .ft, wpaSm := some reply.sm }
      notes := (reply.derived.map .derived).toList ++ sta.machine.2 ++ ap.notes }, reply.status)

/-- An authentication frame that passes the checks in front of the algorithms, with open system
authentication. Source: `handle_auth`. -/
def authOpen (ap : FtAp) : FtAp :=
  let sta := ap.sta.getD .new
  match sta.wpaSm with
  | none => { ap with sta := some ⟨.openSystem, true, none⟩ }
  | some sm =>
    { ap with
      sta := some ⟨.openSystem, true, some (sm.event .auth false).1⟩
      notes := (sm.event .auth false).2 ++ ap.notes }

/-- The same with a shared key; `done` says that the challenge was answered.
Source: `handle_auth`, `auth_shared_key`. -/
def authShared (ap : FtAp) (done : Bool) : FtAp :=
  let sta := ap.sta.getD .new
  match sta.wpaSm, done with
  | some sm, true =>
    { ap with
      sta := some ⟨.sharedKey, true, some (sm.event .auth false).1⟩
      notes := (sm.event .auth false).2 ++ ap.notes }
  | _, _ => { ap with sta := some { sta with authAlg := .sharedKey, auth := sta.auth || done } }

/-- The same with fast BSS transition. Source: `handle_auth`, `handle_auth_ft_finish`. -/
def authFt (ap : FtAp) (env : AuthEnv) (ies : Bytes) : FtAp :=
  let sta := ap.sta.getD .new
  let r := runAuthReq C conf addr ap sta env ies
  if r.2 = statusSuccess then
    { r.1 with sta := r.1.sta.map fun sta => { sta with auth := true } }
  else r.1

/-- A request that another access point passes on. Source: `hostapd_wpa_auth_add_sta`,
`wpa_ft_rrb_rx_request`. -/
def rrbRxRequest (ap : FtAp) (env : AuthEnv) (ies : Bytes) : FtAp :=
  (runAuthReq C conf addr ap (ap.sta.getD .new) env ies).1

/-- An association or a reassociation request. A station that uses fast BSS transition need not
have been authenticated. Source: `handle_assoc`, `check_assoc_ies`. -/
def handleAssoc (ap : FtAp) (reassoc : Bool) (ies : Bytes) (checks : AssocChecks) : FtAp :=
  match ap.sta with
  | none => ap
  | some sta =>
    if ¬ (sta.authAlg = .ft ∧ sta.auth = false) ∧ sta.auth = false then ap
    else if !checks.early then ap
    else if !checks.wpaIe then
      -- `wpa_auth_sta_no_wpa`
      { ap with sta := some { sta with
          wpaSm := sta.wpaSm.map fun sm => { sm with wpaKeyMgmt := .none } } }
    else
      let sm := sta.machine.1.select checks
      let ap := { ap with
        sta := some { sta with wpaSm := some sm }
        notes := sta.machine.2 ++ ap.notes }
      if checks.validIe ∧ sta.authAlg = .ft ∧ reassoc ∧
          validateReassoc C conf addr sm ies = statusSuccess then
        { ap with notes := (readReassoc ies).toList.map .accepted ++ ap.notes }
      else ap

/-- Do something to the machine of the station, if there is one. -/
def onMachine (ap : FtAp) (f : FtSm → EntryEffect) : FtAp :=
  match ap.sta with
  | some ⟨authAlg, auth, some sm⟩ =>
    ⟨(f sm).stored ++ ap.cache, some ⟨authAlg, auth, some (f sm).sm⟩, (f sm).notes ++ ap.notes⟩
  | _ => ap

/-- What happens at the access point.

* `authOpen`, `authShared`, `authFt`: authentication frames, `rrbRequest` one over the distribution
  system, `assocReq` the association requests;
* `smEvent`, `enter`, `rxEapolKey`, `removePtk`: the machine of the station;
* `storePmkR1`: a PMK-R1 from another access point or of another station;
* `clearAuth`, `free`: the station is deauthenticated, or forgotten. -/
inductive FtOp
  | authOpen
  | authShared (done : Bool)
  | authFt (env : AuthEnv) (ies : Bytes)
  | rrbRequest (env : AuthEnv) (ies : Bytes)
  | assocReq (reassoc : Bool) (ies : Bytes) (checks : AssocChecks)
  | smEvent (e : WpaEvent) (setKeyOk : Bool)
  | enter (e : PtkEntry)
  | rxEapolKey (supName keyNonce : Option Bytes)
  | removePtk
  | storePmkR1 (sa : PmkR1Sa)
  | clearAuth
  | free
  deriving DecidableEq

def ftStep (ap : FtAp) : FtOp → FtAp
  | .authOpen => authOpen ap
  | .authShared done => authShared ap done
  | .authFt env ies => authFt C conf addr ap env ies
  | .rrbRequest env ies => rrbRxRequest C conf addr ap env ies
  | .assocReq reassoc ies checks => handleAssoc C conf addr ap reassoc ies checks
  | .smEvent e setKeyOk =>
    onMachine ap fun sm => ⟨(sm.event e setKeyOk).1, (sm.event e setKeyOk).2, []⟩
  | .enter e => onMachine ap fun sm => enter C conf addr sm e
  | .rxEapolKey supName keyNonce =>
    onMachine ap fun sm => ⟨sm.rxEapolKey supName keyNonce, [], []⟩
  | .removePtk => onMachine ap fun sm => ⟨sm.removePtk, [.cleared], []⟩
  | .storePmkR1 sa => { ap with cache := sa :: ap.cache }
  | .clearAuth => { ap with sta := ap.sta.map fun sta => { sta with auth := false } }
  | .free => { ap with sta := none }

end Hostapd.Ap.Ft
