import Hostapd.Common.Defs
import Hostapd.Lib.Run
import Hostapd.Lib.Tally

/-!
# The protection counters of an interface

An access point protects its transmissions while stations are associated that need it. `handle_assoc`
counts the stations that lack a capability in six counters of the interface, each station once in
each, which a bit of the station remembers; `ap_free_sta` takes a station out of those it is counted
in. `hostapd_ht_operation_update` computes the HT operation mode from the counters.

* **`Counter`**, **`StaInfo`**, **`Iface`**: the counters, a station with its bits, and the
  interface with the stations of all its BSSes.

What the checks of the SSID and of the security elements, the allocator and `hostapd_get_aid` answer
is given with a request (`Checks`); the beacons, the logging and what else `ap_free_sta` undoes are
left out.
-/

namespace Hostapd.Ap.Protection

open Hostapd.Lib

/-! ## The interface -/

/-- The counters; a station's bit for each has the name `nonerp_set` and so on.
Source: `hostapd.h`, `struct hostapd_iface`. -/
inductive Counter
  | numStaNonErp | numStaNoShortSlotTime | numStaNoShortPreamble
  | numStaHtNoGf | numStaNoHt | numStaHt20mhz
  deriving DecidableEq

/-- A station: the index of its BSS and its address. -/
structure Key where
  bss : ℕ
  addr : MacAddr
  deriving DecidableEq

/-- Source: `sta_info.h`, `struct sta_info`, with the `WLAN_STA_*` flags that are read here. -/
structure StaInfo where
  auth : Bool
  /-- `auth_alg == WLAN_AUTH_FT`. -/
  authAlgFt : Bool
  nonerp : Bool
  shortPreamble : Bool
  ht : Bool
  assocReqOk : Bool
  capability : BitVec 16
  listenInterval : BitVec 16
  supportedRates : Bytes
  htCapabilities : Option Bytes
  /-- The station is counted. -/
  set : Counter → Bool

/-- A station as `os_zalloc` leaves it. -/
def StaInfo.zero : StaInfo where
  auth := false
  authAlgFt := false
  nonerp := false
  shortPreamble := false
  ht := false
  assocReqOk := false
  capability := 0
  listenInterval := 0
  supportedRates := []
  htCapabilities := none
  set := fun _ => false

/-- Source: `ap_config.h`, `struct hostapd_bss_config`. -/
structure BssConf where
  maxListenInterval : ℕ
  disable11n : Bool

/-- Source: `ap_config.h`, `struct hostapd_config`. -/
structure Conf where
  /-- The current mode is `HOSTAPD_MODE_IEEE80211G`. -/
  modeG : Bool
  ieee80211n : Bool
  requireHt : Bool
  htOpModeFixed : Bool
  htCapab : BitVec 16
  bss : ℕ → BssConf

/-- The interface: `stas` are the stations of all BSSes, `sta` what is known of each.
Source: `hostapd.h`, `struct hostapd_iface`, `struct hostapd_data`. -/
structure Iface where
  conf : Conf
  stas : List Key
  sta : Key → StaInfo
  num : Counter → ℤ
  olbcHt : Bool
  htOpMode : BitVec 16
  tkipCountermeasures : ℕ → Bool

def init (conf : Conf) : Iface where
  conf := conf
  stas := []
  sta := fun _ => .zero
  num := fun _ => 0
  olbcHt := false
  htOpMode := 0
  tkipCountermeasures := fun _ => false

def modifySta (iface : Iface) (k : Key) (f : StaInfo → StaInfo) : Iface :=
  { iface with sta := Function.update iface.sta k (f (iface.sta k)) }

/-! ## The HT operation mode -/

/-- Source: `ieee802_11_defs.h`, `HT_INFO_OPERATION_MODE_OP_MODE_MASK`. -/
def opModeMask : BitVec 16 := 3

/-- Source: `ieee802_11_defs.h`, `HT_INFO_OPERATION_MODE_NON_GF_DEVS_PRESENT`. -/
def nonGfDevsPresent : BitVec 16 := 4

/-- Source: `ieee802_11_defs.h`, `HT_INFO_OPERATION_MODE_NON_HT_STA_PRESENT`. -/
def nonHtStaPresent : BitVec 16 := 16

/-- The values of the operation mode. Source: `ieee802_11_defs.h`, `OP_MODE_*`. -/
inductive OpMode
  | pure | mayBeLegacyStas | ht20mhzStaAssoced | mixed
  deriving DecidableEq

def OpMode.toBits : OpMode → BitVec 16
  | .pure => 0
  | .mayBeLegacyStas => 1
  | .ht20mhzStaAssoced => 2
  | .mixed => 3

/-- The BSS is a 20/40 MHz one: `HT_CAP_INFO_SUPP_CHANNEL_WIDTH_SET`. -/
def Conf.channelWidthSet (conf : Conf) : Bool := conf.htCapab.getLsbD 1

/-- Set a bit of the mode under a condition, and clear it otherwise. -/
def adjustBit (mode bit : BitVec 16) (present : Bool) : BitVec 16 :=
  if mode &&& bit = 0 ∧ present then mode ||| bit
  else if mode &&& bit ≠ 0 ∧ !present then mode &&& ~~~bit
  else mode

def newOpMode (iface : Iface) : OpMode :=
  if iface.num .numStaNoHt ≠ 0 then .mixed
  else if iface.conf.channelWidthSet ∧ iface.num .numStaHt20mhz ≠ 0 then .ht20mhzStaAssoced
  else if iface.olbcHt then .mayBeLegacyStas
  else .pure

def Conf.computesOpMode (conf : Conf) : Bool := conf.ieee80211n && !conf.htOpModeFixed

/-- Source: `hostapd_ht_operation_update`. -/
def htOperationUpdate (iface : Iface) : Iface :=
  if !iface.conf.computesOpMode then iface
  else
    let mode := adjustBit iface.htOpMode nonGfDevsPresent (iface.num .numStaHtNoGf ≠ 0)
    let mode := adjustBit mode nonHtStaPresent (iface.num .numStaNoHt ≠ 0 || iface.olbcHt)
    let new := (newOpMode iface).toBits
    { iface with
      htOpMode := if mode &&& opModeMask ≠ new then (mode &&& ~~~opModeMask) ||| new else mode }

/-! ## Counting a station -/

/-- Count a station under a condition, unless it is counted already. -/
def countSta (iface : Iface) (k : Key) (c : Counter) (lacks : Bool) : Iface :=
  if lacks ∧ (iface.sta k).set c = false then
    { modifySta iface k fun sta => { sta with set := Function.update sta.set c true } with
      num := Function.update iface.num c (iface.num c + 1) }
  else iface

def htCapabilitiesInfo : Bytes → BitVec 16
  | lo :: hi :: _ => hi.toBitVec ++ lo.toBitVec
  | _ => 0

def updateStaHt (iface : Iface) (k : Key) (htCapabilities : Bytes) : Iface :=
  let htCapab := htCapabilitiesInfo htCapabilities
  let iface := countSta iface k .numStaHtNoGf (!htCapab.getLsbD 4)
  countSta iface k .numStaHt20mhz (!htCapab.getLsbD 1)

def updateStaNoHt (iface : Iface) (k : Key) : Iface := countSta iface k .numStaNoHt true

def updateHtState (iface : Iface) (k : Key) : Iface :=
  htOperationUpdate <|
    match (iface.sta k).ht, (iface.sta k).htCapabilities with
    | true, some cap => updateStaHt iface k cap
    | _, _ => updateStaNoHt iface k

/-! ## Association requests -/

/-- The fields and elements of a request that are read here. -/
structure AssocReq where
  capabInfo : BitVec 16
  listenInterval : BitVec 16
  suppRates : Option Bytes
  extSuppRates : Option Bytes
  htCapabilities : Option Bytes

/-- What the code that is not here answers to a request: the parser of the elements, `check_ssid`,
the checks of `check_assoc_ies` for WPA, WPS and FT, the allocator and `hostapd_get_aid`. -/
structure Checks where
  parsed : Bool
  ssid : ℕ
  block : Bool
  security : ℕ
  aid : Bool

/-- Source: `ieee802_11_defs.h`, `WLAN_STATUS_SUCCESS`. -/
def statusSuccess : ℕ := 0

/-- Source: `ieee802_11_defs.h`, `WLAN_STATUS_UNSPECIFIED_FAILURE`. -/
def statusUnspecifiedFailure : ℕ := 1

/-- Source: `ieee802_11_defs.h`, `WLAN_STATUS_AP_UNABLE_TO_HANDLE_NEW_STA`. -/
def statusApUnableToHandleNewSta : ℕ := 17

/-- Source: `ieee802_11_defs.h`, `WLAN_STATUS_ASSOC_DENIED_NO_HT`. -/
def statusAssocDeniedNoHt : ℕ := 27

/-- Source: `ieee802_11_defs.h`, `WLAN_STATUS_ASSOC_DENIED_LISTEN_INT_TOO_LARGE`. -/
def statusListenIntTooLarge : ℕ := 51

/-- Source: `ieee802_11_defs.h`, `WLAN_REASON_MICHAEL_MIC_FAILURE`. -/
def reasonMichaelMicFailure : ℕ := 14

/-- Source: `sta_info.h`, `WLAN_SUPP_RATES_MAX`. -/
def suppRatesMax : ℕ := 32

/-- The size of `struct ieee80211_ht_capabilities`. -/
def htCapabilitiesLen : ℕ := 26

def copySuppRates (sta : StaInfo) (req : AssocReq) : ℕ × StaInfo :=
  match req.suppRates with
  | none => (statusUnspecifiedFailure, sta)
  | some supp =>
    if supp.length > suppRatesMax then (statusUnspecifiedFailure, sta)
    else
      let sta := { sta with supportedRates := supp }
      match req.extSuppRates with
      | none => (statusSuccess, sta)
      | some ext =>
        if supp.length + ext.length > suppRatesMax then (statusUnspecifiedFailure, sta)
        else (statusSuccess, { sta with supportedRates := supp ++ ext })

/-- The HT capabilities that count: long enough, and not in a BSS without HT. -/
def AssocReq.htCapab (req : AssocReq) (bss : BssConf) : Option Bytes :=
  if bss.disable11n then none else req.htCapabilities.filter fun cap => htCapabilitiesLen ≤ cap.length

def copyStaHtCapab (bss : BssConf) (sta : StaInfo) (req : AssocReq) (block : Bool) :
    ℕ × StaInfo :=
  match req.htCapab bss with
  | none => (statusSuccess, { sta with ht := false, htCapabilities := none })
  | some cap =>
    if sta.htCapabilities = none ∧ !block then (statusUnspecifiedFailure, sta)
    else (statusSuccess, { sta with ht := true, htCapabilities := some (cap.take htCapabilitiesLen) })

def checkAssocIes (conf : Conf) (bss : BssConf) (sta : StaInfo) (req : AssocReq) (checks : Checks) :
    ℕ × StaInfo :=
  if !checks.parsed then (statusUnspecifiedFailure, sta)
  else if checks.ssid ≠ statusSuccess then (checks.ssid, sta)
  else
    let (resp, sta) := copySuppRates sta req
    if resp ≠ statusSuccess then (resp, sta)
    else
      let (resp, sta) := copyStaHtCapab bss sta req checks.block
      if resp ≠ statusSuccess then (resp, sta)
      else if conf.ieee80211n ∧ conf.requireHt ∧ !sta.ht then (statusAssocDeniedNoHt, sta)
      else (checks.security, sta)

def hasErpRate (rates : Bytes) : Bool := rates.any fun r => 22 < (r &&& 0x7f).toNat

/-- What an accepted request writes into the station, before it is counted. -/
def StaInfo.accept (conf : Conf) (sta : StaInfo) (req : AssocReq) : StaInfo :=
  { sta with
    capability := req.capabInfo
    listenInterval := req.listenInterval
    nonerp := (conf.modeG || sta.nonerp) && !hasErpRate sta.supportedRates
    shortPreamble := req.capabInfo.getLsbD 5
    assocReqOk := true }

/-- Count a station that has been accepted. Source: `handle_assoc`. -/
def countAssoc (iface : Iface) (k : Key) : Iface :=
  let sta := iface.sta k
  let iface := countSta iface k .numStaNonErp sta.nonerp
  let iface := countSta iface k .numStaNoShortSlotTime (!sta.capability.getLsbD 10)
  let iface := countSta iface k .numStaNoShortPreamble (!sta.capability.getLsbD 5)
  updateHtState iface k

/-- The status code of the response, and what the request leaves; `none` is a deauthentication.
Source: `handle_assoc`. -/
def handleAssoc (iface : Iface) (k : Key) (req : AssocReq) (checks : Checks) : Option ℕ × Iface :=
  let sta := iface.sta k
  if k ∉ iface.stas ∨ (!sta.auth ∧ !sta.authAlgFt) then (none, iface)
  else if iface.tkipCountermeasures k.bss then (some reasonMichaelMicFailure, iface)
  else if req.listenInterval.toNat > (iface.conf.bss k.bss).maxListenInterval then
    (some statusListenIntTooLarge, iface)
  else
    let (resp, sta) := checkAssocIes iface.conf (iface.conf.bss k.bss) sta req checks
    let iface := modifySta iface k fun _ => sta
    if resp ≠ statusSuccess then (some resp, iface)
    else if !checks.aid then (some statusApUnableToHandleNewSta, iface)
    else
      (some statusSuccess, countAssoc (modifySta iface k fun sta => sta.accept iface.conf req) k)

/-! ## Stations that come and go -/

def uncountSta (iface : Iface) (k : Key) (c : Counter) : Iface :=
  if (iface.sta k).set c then
    { modifySta iface k fun sta => { sta with set := Function.update sta.set c false } with
      num := Function.update iface.num c (iface.num c - 1) }
  else iface

/-- Source: `ap_free_sta`. -/
def freeSta (iface : Iface) (k : Key) : Iface :=
  let iface := { iface with stas := iface.stas.erase k }
  let iface := uncountSta iface k .numStaNonErp
  let iface := uncountSta iface k .numStaNoShortSlotTime
  let iface := uncountSta iface k .numStaNoShortPreamble
  let iface := uncountSta iface k .numStaHtNoGf
  let iface := uncountSta iface k .numStaNoHt
  let iface := uncountSta iface k .numStaHt20mhz
  htOperationUpdate iface

/-- Source: `ap_sta_add`. -/
def staAdd (iface : Iface) (k : Key) : Iface :=
  if k ∈ iface.stas then iface
  else modifySta { iface with stas := k :: iface.stas } k fun _ => .zero

/-! ## Runs -/

/-- What happens to an interface: the authentication of a station goes on, it asks for an
association, it is removed; another BSS without HT is heard or not any more; countermeasures begin or
end. -/
inductive Op
  | auth (k : Key) (auth authAlgFt : Bool)
  | assoc (k : Key) (req : AssocReq) (checks : Checks)
  | free (k : Key)
  | olbcHt (detected : Bool)
  | countermeasures (bss : ℕ) (active : Bool)

def step (iface : Iface) : Op → Iface
  | .auth k auth authAlgFt => modifySta (staAdd iface k) k fun sta =>
      { sta with auth := auth, authAlgFt := authAlgFt }
  | .assoc k req checks => (handleAssoc iface k req checks).2
  | .free k => if k ∈ iface.stas then freeSta iface k else iface
  | .olbcHt detected => htOperationUpdate { iface with olbcHt := detected }
  | .countermeasures bss active =>
      { iface with tkipCountermeasures := Function.update iface.tkipCountermeasures bss active }

end Hostapd.Ap.Protection
