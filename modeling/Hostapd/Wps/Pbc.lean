import Hostapd.Wps.Pin

/-!
# Push button configuration

`wps_registrar.c`: the list of PBC sessions, `wps_registrar_add_pbc_session` to
`wps_registrar_pbc_overlap`.

The list has the latest activity in front, so what is too old stands at its end:
**`addPbcSession`** cuts it there, and **`pbcOverlap`** stops counting there.
-/

namespace Hostapd.Wps.Registrar

open Hostapd.Lib Hostapd.Utils.Eloop

/-! ## The sessions -/

/-- The walk time since a session was seen is over. -/
def expired (now : OsTime) (s : PbcSession) : Bool := s.timestamp.sec + pbcWalkTime < now.sec

/-- Record PBC activity; `mem` says whether there is memory for a new session.
Source: `wps_registrar_add_pbc_session`. -/
def addPbcSession (reg : Registrar) (addr uuidE : Bytes) (now : OsTime) (mem : Bool) : Registrar :=
  let same := fun s : PbcSession => s.addr = addr ∧ s.uuidE = uuidE
  if (reg.pbcSessions.any same) ∨ mem then
    let others := reg.pbcSessions.eraseP same
    { reg with
      pbcSessions := ⟨addr, uuidE, now⟩ :: others.takeWhile fun s => ¬ expired now s }
  else reg

/-- Source: `wps_registrar_remove_pbc_session`. -/
def removePbcSession (reg : Registrar) (uuidE : Bytes) : Registrar :=
  { reg with pbcSessions := reg.pbcSessions.filter fun s => s.uuidE ≠ uuidE }

/-- The loop of `wps_registrar_pbc_overlap`: `first` is the UUID-E of the first session, and `count`
the Enrollees found so far. -/
def overlapLoop (now : OsTime) (uuidE : Option Bytes) :
    Option Bytes → ℕ → List PbcSession → ℕ
  | _, count, [] => count
  | first, count, s :: rest =>
    if expired now s then count
    else if first = some s.uuidE then overlapLoop now uuidE first count rest
    else
      overlapLoop now uuidE (first.or (some s.uuidE))
        (if uuidE = some s.uuidE then count else count + 1) rest

/-- More than one Enrollee is active, with the requested one. Source:
`wps_registrar_pbc_overlap`. -/
def pbcOverlap (reg : Registrar) (uuidE : Option Bytes) (now : OsTime) : Bool :=
  1 < overlapLoop now uuidE none (if uuidE.isSome then 1 else 0) reg.pbcSessions

/-! ## The button -/

/-- Source: `wps_registrar_stop_pbc`. -/
def stopPbc (reg : Registrar) : Registrar :=
  let reg := { reg with
    selectedRegistrar := false
    pbc := false
    p2pDevAddr := List.replicate ethAlen 0 }
  selectedRegistrarChanged (removeAuthorizedMac reg bcast)

/-- Source: `wps_registrar_pbc_completed`; its timeout is one of the events that may come at any
time. -/
def pbcCompleted (reg : Registrar) : Registrar := stopPbc reg

end Hostapd.Wps.Registrar
