import Hostapd.Common.FtIes

/-!
# The elements of the key data

The parsers of the key data in a build with IEEE 802.11r, IEEE 802.11w and PeerKey: `wpaParseKdeIes`
of the authenticator (`wpa_auth_ie.c`) and `wpaSupplicantParseIes` of the supplicant
(`rsn_supp/wpa_ie.c`). Both run over the elements with `foldPadded` and note what they know; the
supplicant knows more elements. An element that runs past the end is a failure, and what was noted
before it remains.

* **`parse_encodeElements`**: of elements that were written, both parsers note each, whatever padding
  follows.
-/

namespace Hostapd.KeyDataIes

open Hostapd.Lib Hostapd.Ft

/-- `WLAN_EID_LINK_ID` and `WLAN_EID_EXT_CAPAB`. -/
def eidLinkId : UInt8 := 101

@[inherit_doc eidLinkId] def eidExtCapab : UInt8 := 127

/-- `WLAN_TIMEOUT_REASSOC_DEADLINE` and `WLAN_TIMEOUT_KEY_LIFETIME`. -/
def timeoutReassocDeadline : UInt8 := 1

@[inherit_doc timeoutReassocDeadline] def timeoutKeyLifetime : UInt8 := 2

/-- `RSN_KEY_DATA_IGTK`. -/
def rsnKeyDataIgtk : ℕ := rsnKeyData 9

/-- Source: `wpa_auth_ie.h`, `struct wpa_eapol_ie_parse`. -/
structure KdeIes extends EapolIeParse where
  igtk : Option Bytes
  mdie : Option Bytes
  ftie : Option Bytes
  deriving DecidableEq

/-- Source: `rsn_supp/wpa_ie.h`, `struct wpa_eapol_ie_parse`. -/
structure SupplicantIes extends KdeIes where
  reassocDeadline : Option Bytes
  keyLifetime : Option Bytes
  lnkid : Option Bytes
  extCapab : Option Bytes
  deriving DecidableEq

def KdeIes.empty : KdeIes where
  toEapolIeParse := EapolIeParse.empty
  igtk := none
  mdie := none
  ftie := none

def SupplicantIes.empty : SupplicantIes where
  toKdeIes := KdeIes.empty
  reassocDeadline := none
  keyLifetime := none
  lnkid := none
  extCapab := none

/-- Note a vendor element. The selectors differ from each other, so the IGTK, which comes last, needs
no look at the others. The end mark of `wpa_parse_generic` does not occur: the loop stops in front of
it. Source: `wpa_parse_generic`. -/
def noteVendor (ie : KdeIes) (elem : Bytes) : KdeIes :=
  { ie with
    toEapolIeParse := (wpaParseGeneric elem ie.toEapolIeParse).2
    igtk :=
      if 6 < (elem.getD 1 0).toNat ∧ selector elem = rsnKeyDataIgtk then some (elem.drop 6)
      else ie.igtk }

/-- Note an element. Source: `wpa_auth_ie.c`, `wpa_parse_kde_ies`, the body of the loop. -/
def noteKdeIe (ie : KdeIes) (r : Record) : KdeIes :=
  if r.1 = wlanEidRsn then { ie with rsnIe := some (r.encode 0) }
  else if r.1 = eidMobilityDomain then { ie with mdie := some (r.encode 0) }
  else if r.1 = eidFastBssTransition then { ie with ftie := some (r.encode 0) }
  else if r.1 = wlanEidVendorSpecific then noteVendor ie (r.encode 0)
  else ie

/-- Note an element. Source: `rsn_supp/wpa_ie.c`, `wpa_supplicant_parse_ies`, the body of the loop.
-/
def noteSupplicantIe (ie : SupplicantIes) (r : Record) : SupplicantIes :=
  if r.1 = wlanEidRsn then { ie with rsnIe := some (r.encode 0) }
  else if r.1 = eidMobilityDomain then { ie with mdie := some (r.encode 0) }
  else if r.1 = eidFastBssTransition then { ie with ftie := some (r.encode 0) }
  else if r.1 = eidTimeoutInterval ∧ 5 ≤ r.2.length then
    if r.2.getD 0 0 = timeoutReassocDeadline then { ie with reassocDeadline := some (r.encode 0) }
    else if r.2.getD 0 0 = timeoutKeyLifetime then { ie with keyLifetime := some (r.encode 0) }
    else ie
  else if r.1 = eidLinkId then { ie with lnkid := some (r.encode 0) }
  else if r.1 = eidExtCapab then { ie with extCapab := some (r.encode 0) }
  else if r.1 = wlanEidVendorSpecific then
    { ie with toKdeIes := noteVendor ie.toKdeIes (r.encode 0) }
  else ie

/-- Read the key data. Source: `wpa_auth_ie.c`, `wpa_parse_kde_ies`. -/
def wpaParseKdeIes (buf : Bytes) : Bool × KdeIes :=
  foldPadded wlanEidVendorSpecific noteKdeIe buf KdeIes.empty

/-- Read the key data. Source: `rsn_supp/wpa_ie.c`, `wpa_supplicant_parse_ies`. -/
def wpaSupplicantParseIes (buf : Bytes) : Bool × SupplicantIes :=
  foldPadded wlanEidVendorSpecific noteSupplicantIe buf SupplicantIes.empty

/-! ## Elements that were written -/

theorem toKdeIes_noteSupplicantIe (ie : SupplicantIes) (r : Record) :
    (noteSupplicantIe ie r).toKdeIes = noteKdeIe ie.toKdeIes r := by
  unfold noteSupplicantIe noteKdeIe
  split
  · rfl
  split
  · rfl
  split
  · rfl
  split
  · rename_i h
    have hother : r.1 ≠ wlanEidVendorSpecific := by
      rw [h.1]
      decide
    rw [if_neg hother]
    split
    · rfl
    split <;> rfl
  split
  · rename_i h
    rw [h]
    rfl
  split
  · rename_i h
    rw [h]
    rfl
  split <;> rfl

theorem toKdeIes_foldl (l : List Record) (ie : SupplicantIes) :
    (l.foldl noteSupplicantIe ie).toKdeIes = l.foldl noteKdeIe ie.toKdeIes := by
  induction l generalizing ie with
  | nil => rfl
  | cons r l ih => rw [List.foldl_cons, List.foldl_cons, ih, toKdeIes_noteSupplicantIe]

/-- An element of the key data: one octet for its length, and no vendor element without a payload. -/
def Sendable (r : Record) : Prop :=
  r.2.length < 256 ∧ ¬ (r.1 = wlanEidVendorSpecific ∧ r.2 = [])

/-- **Both parsers note the elements that were written**, whatever padding follows. -/
theorem parse_encodeElements {l : List Record} (h : ∀ r ∈ l, Sendable r) {tail : Bytes}
    (htail : IsPadding wlanEidVendorSpecific tail) :
    wpaSupplicantParseIes (encodeElements l ++ tail) =
        (true, l.foldl noteSupplicantIe SupplicantIes.empty) ∧
      wpaParseKdeIes (encodeElements l ++ tail) =
        (true, (l.foldl noteSupplicantIe SupplicantIes.empty).toKdeIes) := by
  constructor
  · exact foldPadded_encodeElements h htail _
  · rw [toKdeIes_foldl]
    exact foldPadded_encodeElements h htail _

end Hostapd.KeyDataIes
