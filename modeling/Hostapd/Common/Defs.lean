import Mathlib.Data.BitVec

/-!
# Types shared by the components

The small vocabulary the components have in common: bytes, addresses, key management suites and
the lengths the sources name.

* **`WpaKeyMgmt`**: the `WPA_KEY_MGMT_*` suites with the predicates of `defs.h` over them. A
  station or a cache entry holds exactly one of them.
-/

namespace Hostapd

abbrev Bytes := List UInt8

/-- An Ethernet address, `u8 addr[ETH_ALEN]`. -/
abbrev MacAddr := BitVec 48

/-- Length of a PMK in octets. Source: `wpa_common.h`, `PMK_LEN`. -/
def pmkLen : ℕ := 32

/-- A PMK identifier, `u8 pmkid[PMKID_LEN]`. -/
abbrev Pmkid := Vector UInt8 16

/-- The authentication and key management suites.
Source: `defs.h`, the `WPA_KEY_MGMT_*` bits, of which a station has one at a time. -/
inductive WpaKeyMgmt
  | ieee8021x | psk | none | ieee8021xNoWpa | wpaNone | ftIeee8021x | ftPsk
  | ieee8021xSha256 | pskSha256 | wps
  deriving DecidableEq

/-- Source: `defs.h`, `wpa_key_mgmt_wpa_ieee8021x`. -/
def WpaKeyMgmt.wpaIeee8021x : WpaKeyMgmt → Bool
  | .ieee8021x | .ftIeee8021x | .ieee8021xSha256 => true
  | _ => false

/-- Source: `defs.h`, `wpa_key_mgmt_wpa_psk`. -/
def WpaKeyMgmt.wpaPsk : WpaKeyMgmt → Bool
  | .psk | .ftPsk | .pskSha256 => true
  | _ => false

/-- Source: `defs.h`, `wpa_key_mgmt_sha256`. -/
def WpaKeyMgmt.sha256 : WpaKeyMgmt → Bool
  | .pskSha256 | .ieee8021xSha256 => true
  | _ => false

/-- The cipher suites; `none` also stands for the zero of a machine with no suite selected.
Source: `defs.h`, the `WPA_CIPHER_*` bits. -/
inductive WpaCipher
  | none | wep40 | wep104 | tkip | ccmp
  deriving DecidableEq

/-- The protocol a station uses. Source: `wpa_auth_i.h`, `WPA_VERSION_*`. -/
inductive WpaVersion
  | noWpa | wpa | wpa2
  deriving DecidableEq

end Hostapd
