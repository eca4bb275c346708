import Hostapd.Common.RsnIe
import Hostapd.Lib.Elements

/-!
# The elements of fast BSS transition

What a station and an access point send each other in a fast BSS transition: the RSN element with
the name of a key, the mobility domain element (MDIE), the fast BSS transition element (FTIE) with
its subelements, and the resource information (RIC). The two sides have a parser each
(`ap/wpa_auth_ft.c`, `rsn_supp/wpa_ft.c`), and they differ in what they look for.

* **`parseFtIes`** is the parser, with the side as a parameter. It finds the end of the RIC by the
  count of protected elements in the FTIE.
* `FtCrypto` is the key hierarchy and the MIC, left open; **`ftMic`** says what the MIC covers.
-/

namespace Hostapd.Ft

open Hostapd.Lib

/-! ## Identifiers -/

/-- Source: `WLAN_EID_MOBILITY_DOMAIN`. -/
def eidMobilityDomain : UInt8 := 54

/-- Source: `WLAN_EID_FAST_BSS_TRANSITION`. -/
def eidFastBssTransition : UInt8 := 55

/-- Source: `WLAN_EID_TIMEOUT_INTERVAL`. -/
def eidTimeoutInterval : UInt8 := 56

/-- Source: `WLAN_EID_RIC_DATA`. -/
def eidRicData : UInt8 := 57

/-- Source: `FTIE_SUBELEM_R1KH_ID`, `FTIE_SUBELEM_GTK`, `FTIE_SUBELEM_R0KH_ID`,
`FTIE_SUBELEM_IGTK`. -/
def subelemR1khId : UInt8 := 1
def subelemGtk : UInt8 := 2
def subelemR0khId : UInt8 := 3
def subelemIgtk : UInt8 := 4

/-- Source: `FT_R1KH_ID_LEN`. -/
def r1khIdLen : ℕ := 6

/-- Source: `FT_R0KH_ID_MAX_LEN`. -/
def r0khIdMaxLen : ℕ := 48

/-- Source: `WPA_NONCE_LEN`. -/
def nonceLen : ℕ := 32

/-! ## The header of an FTIE -/

/-- Size of the header: MIC control, MIC and the two nonces. Source: `struct rsn_ftie`. -/
def ftieHdrLen : ℕ := 82

/-- The count of protected elements, `mic_control[1]`. -/
def ftieCount (ftie : Bytes) : ℕ := (ftie.getD 1 0).toNat

def ftieMic (ftie : Bytes) : Bytes := (ftie.drop 2).take 16

def ftieANonce (ftie : Bytes) : Bytes := (ftie.drop 18).take nonceLen

def ftieSNonce (ftie : Bytes) : Bytes := (ftie.drop 50).take nonceLen

/-! ## The parsers -/

inductive FtSide
  | authenticator | supplicant
  deriving DecidableEq

/-- What the parser finds; of `mdie`, `ftie`, `rsn`, `tie` and the keys the octets behind the
header. The authenticator has no `tie` and no `igtk`. Source: `struct wpa_ft_ies`. -/
structure FtIes where
  mdie : Option Bytes
  ftie : Option Bytes
  r1khId : Option Bytes
  gtk : Option Bytes
  r0khId : Option Bytes
  rsn : Option Bytes
  rsnPmkid : Option Bytes
  tie : Option Bytes
  igtk : Option Bytes
  ric : Option (List Record)
  deriving DecidableEq

def FtIes.empty : FtIes where
  mdie := none
  ftie := none
  r1khId := none
  gtk := none
  r0khId := none
  rsn := none
  rsnPmkid := none
  tie := none
  igtk := none
  ric := none

section Parser

variable (side : FtSide)

def parseSubelem (ies : FtIes) (e : Record) : Option FtIes :=
  if e.1 = subelemR1khId then
    if e.2.length = r1khIdLen then some { ies with r1khId := some e.2 } else none
  else if e.1 = subelemGtk then some { ies with gtk := some e.2 }
  else if e.1 = subelemR0khId then
    if 1 ≤ e.2.length ∧ e.2.length ≤ r0khIdMaxLen then some { ies with r0khId := some e.2 }
    else none
  else if e.1 = subelemIgtk ∧ side = .supplicant then some { ies with igtk := some e.2 }
  else some ies

/-- Source: `wpa_ft_parse_ftie`. -/
def parseFtie (ftie : Bytes) (ies : FtIes) : Option FtIes :=
  (elements (ftie.drop ftieHdrLen)).foldlM (parseSubelem side) { ies with ftie := some ftie }

/-- An element, with the count of protected elements of the last FTIE. -/
def parseElement (found : FtIes × ℕ) (e : Record) : Option (FtIes × ℕ) :=
  if e.1 = wlanEidRsn then
    match parseWpaIeRsn (e.encode 0) with
    | none => none
    | some data =>
      match data.pmkids with
      | [pmkid] => some ({ found.1 with rsn := some e.2, rsnPmkid := some pmkid }, found.2)
      | _ => some ({ found.1 with rsn := some e.2 }, found.2)
  else if e.1 = eidMobilityDomain then some ({ found.1 with mdie := some e.2 }, found.2)
  else if e.1 = eidFastBssTransition then
    if e.2.length < ftieHdrLen then none
    else (parseFtie side e.2 found.1).map fun ies => (ies, ftieCount e.2)
  else if e.1 = eidTimeoutInterval ∧ side = .supplicant then
    some ({ found.1 with tie := some e.2 }, found.2)
  else some found

/-- The protected elements of the frame without the RIC. -/
def FtIes.protectedCount (ies : FtIes) : ℕ :=
  ies.rsn.toList.length + ies.mdie.toList.length + ies.ftie.toList.length + ies.tie.toList.length

/-- The elements from the first one of the RIC on. -/
def ricElements (l : List Record) : List Record := l.dropWhile fun e => e.1 ≠ eidRicData

/-- Delimit the RIC, given the count in the FTIE and the elements from the RIC on. -/
def delimitRic (ies : FtIes) (count : ℕ) (ric : List Record) : Option FtIes :=
  -- no MIC
  if count = 0 then some { ies with ric := if ric = [] then none else some [] }
  else if count < ies.protectedCount then none
  else if count = ies.protectedCount ∧ ric ≠ [] then none
  else if ric.length < count - ies.protectedCount then none
  else some { ies with
    ric := if ric = [] then none else some (ric.take (count - ies.protectedCount)) }

/-- Source: `wpa_ft_parse_ies`, of `ap/wpa_auth_ft.c` and of `rsn_supp/wpa_ft.c`. -/
def parseFtIes (ies : Bytes) : Option FtIes :=
  match (elements ies).foldlM (parseElement side) (FtIes.empty, 0) with
  | none => none
  | some (found, count) => delimitRic found count (ricElements (elements ies))

end Parser

/-! ## Keys and MIC -/

/-- The key hierarchy, the MIC and the key wrap. The lengths of names, MICs and nonces are in the
types. Sources: `wpa_derive_pmk_r0`, `wpa_derive_pmk_r1`, `wpa_derive_pmk_r1_name`,
`wpa_pmk_r1_to_ptk` with 64 octets or with 48, `omac1_aes_128`, `aes_wrap` and `aes_unwrap`. -/
structure FtCrypto where
  /-- PMK-R0 and PMKR0Name from XXKey, SSID, MDID, R0KH-ID and the station -/
  pmkR0 : Bytes → Bytes → Bytes → Bytes → MacAddr → Bytes × Pmkid
  /-- PMK-R1 from PMK-R0, R1KH-ID and the station -/
  pmkR1 : Bytes → Bytes → MacAddr → Bytes
  /-- PMKR1Name from PMKR0Name, R1KH-ID and the station -/
  pmkR1Name : Bytes → Bytes → MacAddr → Pmkid
  /-- PTK from PMK-R1, SNonce, ANonce, the station, the BSSID and PMKR1Name -/
  pmkR1ToPtk : Bytes → Bytes → Bytes → MacAddr → MacAddr → Bytes → Bool → Ptk
  omac1 : BitVec 128 → Bytes → Vector UInt8 16
  aesWrap : BitVec 128 → Bytes → Bytes
  aesUnwrap : BitVec 128 → Bytes → Option Bytes

/-- The octets a MIC covers, with the MIC of the FTIE itself as zeros. -/
def ftMicData (sta ap : MacAddr) (seq : UInt8) (rsn mdie ftie : Bytes) (ric : List Record) :
    Bytes :=
  putBe 6 sta.toNat ++ putBe 6 ap.toNat ++ seq ::
    encodeElements ((wlanEidRsn, rsn) :: (eidMobilityDomain, mdie) ::
      (eidFastBssTransition, overwrite ftie 2 (List.replicate 16 0)) :: ric)

/-- Source: `wpa_ft_mic`. -/
def ftMic (C : FtCrypto) (kck : BitVec 128) (sta ap : MacAddr) (seq : UInt8)
    (rsn mdie ftie : Bytes) (ric : List Record) : Bytes :=
  (C.omac1 kck (ftMicData sta ap seq rsn mdie ftie ric)).toList

/-! ## Writing -/

/-- Source: `wpa_write_mdie`. -/
def mdieOctets (mobilityDomain : Bytes) (ftCapab : UInt8) : Bytes := mobilityDomain ++ [ftCapab]

/-- Source: `wpa_write_ftie`; the supplicant writes its own in `wpa_ft_gen_req_ies`. -/
def ftieOctets (count : UInt8) (mic anonce snonce : Bytes) (subelems : List Record) : Bytes :=
  0 :: count :: (mic ++ anonce ++ snonce ++ encodeElements subelems)

end Hostapd.Ft
