import Hostapd.Ap.Ft
import Hostapd.Common.WpaIe

/-!
# The elements of the authenticator

The RSN element and the WPA element that the authenticator writes into its beacons and frames
(`wpa_auth_ie.c`).

* **`wpaWriteRsnIe`, `wpaWriteWpaIe`** write an element into a buffer of `len` octets; `outside` is
  a write behind it, `dropped` the result -1. The suites are chosen from tables, in the order of the
  source.
* **`wpaAuthGenWpaIe`**: all elements, in a buffer of 128 octets.
* **`rsnIeData`, `wpaIeData`**: what the two elements say about a configuration. An element can only
  express some of the ciphers and key management suites.
-/

namespace Hostapd.Ap.WpaIe

open Hostapd.Lib Hostapd.Ft
open Hostapd.Ap.Ft (MfpOptions)

/-! ## Configuration -/

/-- Source: `WPA_PROTO_WPA` and `WPA_PROTO_RSN`. -/
def wpaProtoWpa : UInt16 := 0x01

@[inherit_doc wpaProtoWpa] def wpaProtoRsn : UInt16 := 0x02

/-- The configuration; `wpa`, the ciphers and the suites are bit fields, whose bits are all among the
lower sixteen. Source: `wpa_auth.h`, `struct wpa_auth_config`. -/
structure WpaAuthConfig where
  wpa : UInt16
  wpaKeyMgmt : UInt16
  wpaPairwise : UInt16
  wpaGroup : UInt16
  rsnPairwise : UInt16
  rsnPreauth : Bool
  peerkey : Bool
  wmmEnabled : Bool
  okc : Bool
  ieee80211w : MfpOptions
  mobilityDomain : Vector UInt8 2
  ftOverDs : Bool
  deriving DecidableEq

abbrev SuiteTable := List (UInt16 × Bytes)

def rsnGroupCiphers : SuiteTable :=
  [(cipherCcmp, rsnSelector 4), (cipherTkip, rsnSelector 2), (0x04, rsnSelector 5),
    (0x02, rsnSelector 1)]

def rsnPairwiseCiphers : SuiteTable :=
  [(cipherCcmp, rsnSelector 4), (cipherTkip, rsnSelector 2), (0x01, rsnSelector 0)]

def rsnKeyMgmts : SuiteTable :=
  [(0x01, rsnSelector 1), (0x02, rsnSelector 2), (keyMgmtFtIeee8021x, rsnSelector 3),
    (keyMgmtFtPsk, rsnSelector 4), (0x80, rsnSelector 5), (0x100, rsnSelector 6)]

def wpaGroupCiphers : SuiteTable :=
  [(cipherCcmp, wpaSelector 4), (cipherTkip, wpaSelector 2), (0x04, wpaSelector 5),
    (0x02, wpaSelector 1)]

def wpaPairwiseCiphers : SuiteTable :=
  [(cipherCcmp, wpaSelector 4), (cipherTkip, wpaSelector 2), (0x01, wpaSelector 0)]

def wpaKeyMgmts : SuiteTable := [(0x01, wpaSelector 1), (0x02, wpaSelector 2)]

/-- The suites of a set, in the order of the table. -/
def chosen (table : SuiteTable) (set : UInt16) : List Bytes :=
  (table.filter fun e => set &&& e.1 ≠ 0).map Prod.snd

def bits (table : SuiteTable) : UInt16 := table.foldr (fun e set => e.1 ||| set) 0

/-! ## Writing -/

def putGroup (len : ℕ) (buf : Bytes) (table : SuiteTable) (group : UInt16) : Except Stop Bytes :=
  match table.find? fun e => group = e.1 with
  | some e => putOctets len buf e.2
  | none => .error .dropped

/-- A list of suites behind its count; there has to be one. -/
def putSuites (len : ℕ) (buf : Bytes) (suites : List Bytes) : Except Stop Bytes := do
  need (suites ≠ [])
  putOctets len buf (putLe16 suites.length ++ suites.flatten)

def closeElement (buf : Bytes) : Bytes := buf.set 1 (UInt8.ofNat (buf.length - 2))

def wpaWriteWpaIe (conf : WpaAuthConfig) (len : ℕ) : Except Stop Bytes := do
  let buf ← putOctets len [] (wlanEidVendorSpecific :: 0 :: (wpaSelector 1 ++ putLe16 1))
  let buf ← putGroup len buf wpaGroupCiphers conf.wpaGroup
  let buf ← putSuites len buf (chosen wpaPairwiseCiphers conf.wpaPairwise)
  let buf ← putSuites len buf (chosen wpaKeyMgmts conf.wpaKeyMgmt)
  return closeElement buf

/-- The capabilities: preauthentication, PeerKey, 16 replay counters for WMM, and protection of
management frames. -/
def rsnCapabilities (conf : WpaAuthConfig) : UInt16 :=
  (if conf.rsnPreauth then 0x0001 else 0) ||| (if conf.peerkey then 0x0200 else 0) |||
    (if conf.wmmEnabled then 0x000c else 0) |||
      match conf.ieee80211w with
      | .no => 0
      | .optional => 0x0080
      | .required => 0x00c0

def putPmkid (len : ℕ) (buf : Bytes) : Option Bytes → Except Stop Bytes
  | some pmkid => do
    need (buf.length + 2 + pmkidLen ≤ len)
    putOctets len buf (putLe16 1 ++ pmkid)
  | none => .ok buf

/-- The management group cipher, behind a count of zero where there is no PMKID. -/
def putMgmtGroupCipher (conf : WpaAuthConfig) (len : ℕ) (buf : Bytes) (pmkid : Option Bytes) :
    Except Stop Bytes :=
  if conf.ieee80211w ≠ .no then do
    need (buf.length + 2 + 4 ≤ len)
    putOctets len buf ((if pmkid.isNone then putLe16 0 else []) ++ rsnSelector 6)
  else .ok buf

def wpaWriteRsnIe (conf : WpaAuthConfig) (len : ℕ) (pmkid : Option Bytes) :
    Except Stop Bytes := do
  let buf ← putOctets len [] (wlanEidRsn :: 0 :: putLe16 1)
  let buf ← putGroup len buf rsnGroupCiphers conf.wpaGroup
  let buf ← putSuites len buf (chosen rsnPairwiseCiphers conf.rsnPairwise)
  let buf ← putSuites len buf (chosen rsnKeyMgmts conf.wpaKeyMgmt)
  let buf ← putOctets len buf (putLe16 (rsnCapabilities conf).toNat)
  let buf ← putPmkid len buf pmkid
  let buf ← putMgmtGroupCipher conf len buf pmkid
  return closeElement buf

/-- Source: `wpa_auth_ft.c`, `wpa_write_mdie`. -/
def wpaWriteMdie (conf : WpaAuthConfig) (len : ℕ) : Except Stop Bytes := do
  need (¬ len < 5)
  putOctets len [] (Record.encode 0 (eidMobilityDomain,
    mdieOctets conf.mobilityDomain.toList (if conf.ftOverDs then 1 else 0)))

/-- The size of the buffer the elements are written to. -/
def genBufLen : ℕ := 128

/-- The elements of the authenticator; `malloc` tells whether there is memory for them.
Source: `wpa_auth_gen_wpa_ie`. -/
def wpaAuthGenWpaIe (conf : WpaAuthConfig) (malloc : Bool) : Except Stop Bytes := do
  let rsn ← (if conf.wpa &&& wpaProtoRsn ≠ 0 then wpaWriteRsnIe conf genBufLen none else .ok [])
  let mdie ← (if conf.wpaKeyMgmt &&& (keyMgmtFtIeee8021x ||| keyMgmtFtPsk) ≠ 0 then
    wpaWriteMdie conf (genBufLen - rsn.length) else .ok [])
  let wpa ← (if conf.wpa &&& wpaProtoWpa ≠ 0 then
    wpaWriteWpaIe conf (genBufLen - (rsn ++ mdie).length) else .ok [])
  need (malloc = true)
  return rsn ++ (mdie ++ wpa)

/-! ## What the elements say -/

/-- What an RSN element says about the configuration. -/
def rsnIeData (conf : WpaAuthConfig) (pmkid : Option Bytes) : WpaIeData where
  groupCipher := conf.wpaGroup
  pairwiseCipher := conf.rsnPairwise &&& bits rsnPairwiseCiphers
  keyMgmt := conf.wpaKeyMgmt &&& bits rsnKeyMgmts
  capabilities := rsnCapabilities conf
  pmkids := pmkid.toList
  mgmtGroupCipher := cipherAes128Cmac

/-- What a WPA element says about the configuration. -/
def wpaIeData (conf : WpaAuthConfig) : WpaIeData where
  groupCipher := conf.wpaGroup
  pairwiseCipher := conf.wpaPairwise &&& bits wpaPairwiseCiphers
  keyMgmt := conf.wpaKeyMgmt &&& bits wpaKeyMgmts
  capabilities := 0
  pmkids := []
  mgmtGroupCipher := 0

end Hostapd.Ap.WpaIe
