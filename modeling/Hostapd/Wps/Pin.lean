import Hostapd.Wps.Data

/-!
# The PINs of a Registrar

`wps_registrar.c`: the list of configured PINs, from `wps_registrar_add_authorized_mac` to
`wps_registrar_unlock_pin`.

A PIN is configured for one UUID-E, for any (a wildcard, 1), or was a wildcard that a UUID-E was
given (2). **`unlockPin`** and **`invalidatePin`** look for a PIN by UUID-E and take the first one
they find.
-/

namespace Hostapd.Wps.Registrar

open Hostapd.Lib Hostapd.Utils.Eloop

/-! ## Authorized addresses -/

def bcast : Bytes := List.replicate ethAlen 0xff

def isZeroEtherAddr (addr : Bytes) : Bool := addr.all (· = 0)

/-- Drop the first address, if it is the one that is given: the search never gets past it.
Source: `wps_registrar_remove_authorized_mac`. -/
def removeAuthorizedMac (reg : Registrar) (addr : Bytes) : Registrar :=
  if reg.authorizedMacs.head? = some addr then
    { reg with authorizedMacs := reg.authorizedMacs.tail ++ [List.replicate ethAlen 0] }
  else reg

/-- Source: `wps_registrar_selected_registrar_changed`, without what only goes into Beacons. -/
def selectedRegistrarChanged (reg : Registrar) : Registrar :=
  { reg with authorizedMacsUnion := reg.authorizedMacs }

/-! ## Configuring and removing -/

/-- Unlink a PIN. Source: `wps_registrar_remove_pin`. -/
def removePin (reg : Registrar) (pin : UuidPin) : Registrar :=
  let addr := if isZeroEtherAddr pin.enrolleeAddr then bcast else pin.enrolleeAddr
  let reg := removeAuthorizedMac reg addr
  selectedRegistrarChanged { reg with pins := reg.pins.filter fun p => p.serial ≠ pin.serial }

/-- Source: `wps_registrar_invalidate_wildcard_pin`. -/
def invalidateWildcardPin (reg : Registrar) : Registrar :=
  match reg.pins.find? fun pin => pin.wildcardUuid ≠ 0 with
  | none => reg
  | some pin => removePin reg pin

/-- The first PIN that has a UUID, whatever it was configured for. -/
def firstOf (reg : Registrar) (uuid : Bytes) : Option UuidPin :=
  reg.pins.find? fun pin => pin.uuid = uuid

/-- Source: `wps_registrar_invalidate_pin`. -/
def invalidatePin (reg : Registrar) (uuid : Bytes) : Registrar :=
  match firstOf reg uuid with
  | none => reg
  | some pin => removePin reg pin

/-! ## Locking -/

def modifyPin (reg : Registrar) (serial : ℕ) (f : UuidPin → UuidPin) : Registrar :=
  { reg with pins := reg.pins.map fun pin => if pin.serial = serial then f pin else pin }

/-- Unlock the PIN of a UUID-E; one that was a wildcard is removed.
Source: `wps_registrar_unlock_pin`. -/
def unlockPin (reg : Registrar) (uuid : Bytes) : Registrar :=
  match firstOf reg uuid with
  | none => reg
  | some pin =>
    if pin.wildcardUuid = 2 then invalidatePin reg uuid
    else modifyPin reg pin.serial fun p => { p with locked := false }

/-- Source: `wps_registrar_pin_completed`. -/
def pinCompleted (reg : Registrar) : Registrar :=
  selectedRegistrarChanged { reg with selectedRegistrar := false }

end Hostapd.Wps.Registrar
