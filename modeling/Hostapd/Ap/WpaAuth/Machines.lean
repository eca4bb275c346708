import Hostapd.Ap.WpaAuth.Send

/-!
# The WPA authenticator: the pairwise key machine

`SM_STATE(WPA_PTK, ..)` and `SM_STEP(WPA_PTK)` of `wpa_auth.c`: one function for each state that
can be entered, and the step that chooses which one to enter.

* **`ptkStep`** is the step: the requests that apply in every state in their order, and then the
  transitions of the state (`ptkSwitch`).
-/

namespace Hostapd.Ap.WpaAuth

open Hostapd.Lib

variable (S : Setup)

/-! ## Entering a state -/

/-- Source: `state_machine.h`, `SM_ENTRY_MA`. -/
def smEntry (st : PtkState) (l : Loc) : Loc :=
  ({ l with sm := { l.sm with wpaPtkState := st, changed := true } }).log (.enter st)

/-- Take back the mark of a pending group key update.
Source: the lines `if (sm->GUpdateStationKeys) sm->group->GKeyDoneStations--`. -/
def clearGUpdate (l : Loc) : Loc :=
  { l with
    sm := { l.sm with gUpdateStationKeys := false }
    group := if l.sm.gUpdateStationKeys then
        { l.group with gKeyDoneStations := l.group.gKeyDoneStations - 1 }
      else l.group }

/-- Source: `SM_STATE(WPA_PTK, INITIALIZE)`. -/
def enterInitialise (l : Loc) : Loc :=
  let l := smEntry .initialise l
  let l := clearGUpdate { l with sm := { l.sm with changed := l.sm.changed && !l.sm.init } }
  let l := { l with sm := { l.sm with
    pInitAKeys := l.sm.pInitAKeys && l.sm.wpa != WpaVersion.wpa
    pair := true } }
  let l := (wpaRemovePtk (l.setEapol .portEnabled 0)).setEapol .portValid 0
  let l := { l with sm := { l.sm with timeoutCtr := 0 } }
  if l.sm.wpaKeyMgmt.wpaPsk then l.setEapol .authorized 0 else l

/-- Source: `SM_STATE(WPA_PTK, DISCONNECT)`. -/
def enterDisconnect (l : Loc) : Loc :=
  let l := smEntry .disconnect l
  wpaStaDisconnect S { l with sm := { l.sm with disconnect := false } }

/-- Source: `SM_STATE(WPA_PTK, DISCONNECTED)`. -/
def enterDisconnected (l : Loc) : Loc :=
  let l := smEntry .disconnected l
  { l with sm := { l.sm with deauthenticationRequest := false } }

/-- Source: `SM_STATE(WPA_PTK, AUTHENTICATION)`. -/
def enterAuthentication (l : Loc) : Loc :=
  let l := smEntry .authentication l
  let l := { l with sm := { l.sm with ptk := Ptk.zero, ptkValid := false } }
  let l := (l.setEapol .portControlAuto 1).setEapol .portEnabled 1
  { l with sm := { l.sm with authenticationRequest := false } }

/-- Re-initialize the group's keys when its first station connects. -/
def firstStation (l : Loc) : Loc :=
  if l.group.firstStaSeen then l
  else ({ l with
    group := { wpaGroupFirstStation S (S.cb l.now) l.group with firstStaSeen := true } }).tick

/-- Source: `SM_STATE(WPA_PTK, AUTHENTICATION2)`. -/
def enterAuthentication2 (l : Loc) : Loc :=
  let l := firstStation S (smEntry .authentication2 l)
  ({ l with
      sm := { l.sm with
        aNonce := l.group.counter
        reAuthenticationRequest := false
        timeoutCtr := 0 }
      group := { l.group with counter := l.group.counter + 1#256 } }).log (.aNonce l.group.counter)

/-- Source: `SM_STATE(WPA_PTK, INITPMK)`. -/
def enterInitPmk (l : Loc) : Loc :=
  let l := smEntry .initPmk l
  let pmk := match l.sm.pmksa with
    | some e => e.pmk
    | none => ((S.cb l.now).getMsk).getD l.sm.pmk
  (({ l with sm := { l.sm with pmk := pmk, reqReplayCounterUsed := false } }).tick).setEapol
    .keyRun 0

/-- Source: `SM_STATE(WPA_PTK, INITPSK)`. -/
def enterInitPsk (l : Loc) : Loc :=
  let l := smEntry .initPsk l
  let pmk := (S.cb l.now).getPsk.headD l.sm.pmk
  ({ l with sm := { l.sm with pmk := pmk, reqReplayCounterUsed := false } }).tick

/-- The key data of message 1/4: the PMKID, for a station that uses 802.1X with RSN. -/
def Sm.pmkidKde (sm : Sm) : Bytes :=
  if sm.wpa = .wpa2 ∧ sm.wpaKeyMgmt.wpaIeee8021x then
    wpaAddKde rsnKeyDataPmkid (match sm.pmksa with
      | some e => e.pmkid
      | none => S.rsnPmkid sm.pmk S.conf.addr sm.addr) []
  else []

def Sm.msg1 (sm : Sm) : SendArgs where
  keyInfo := KeyInfo.ack ||| KeyInfo.keyType
  keyRsc := none
  nonce := some sm.aNonce
  kde := sm.pmkidKde S
  keyidx := 0
  encr := false

/-- Source: `SM_STATE(WPA_PTK, PTKSTART)`. -/
def enterPtkStart (l : Loc) : Loc :=
  let l := smEntry .ptkStart l
  let l := { l with sm := { l.sm with
    ptkRequest := false
    timeoutEvt := false
    timeoutCtr := l.sm.timeoutCtr + 1 } }
  if pairwiseUpdateCount < l.sm.timeoutCtr then l else wpaSendEapol S l (l.sm.msg1 S)

/-- Source: `wpa_auth.c`, `wpa_derive_ptk`. -/
def Sm.wpaDerivePtk (sm : Sm) (pmk : Pmk) : Ptk :=
  wpaPmkToPtk S.crypto pmk S.conf.addr sm.addr sm.aNonce sm.sNonce (sm.pairwise != WpaCipher.ccmp)

def Sm.pmks (sm : Sm) (ans : Answers) : List Pmk :=
  if sm.wpaKeyMgmt.wpaPsk then ans.getPsk else [sm.pmk]

/-- The first PMK whose PTK verifies the last received frame, the loop of `PTKCALCNEGOTIATING`. -/
def Sm.findPmk (sm : Sm) (ans : Answers) : Option Pmk :=
  (sm.pmks ans).find? fun pmk =>
    sm.lastRxEapolKey.any fun f => f.micOk S.crypto (sm.wpaDerivePtk S pmk).kck

/-- Source: `SM_STATE(WPA_PTK, PTKCALCNEGOTIATING)`. -/
def enterPtkCalcNegotiating (l : Loc) : Loc :=
  let l := smEntry .ptkCalcNegotiating l
  let l := { l with sm := { l.sm with eapolKeyReceived := false } }
  match l.sm.findPmk S (S.cb l.now) with
  | none => l.tick
  | some pmk =>
    let ptk := l.sm.wpaDerivePtk S pmk
    (({ l with sm := { l.sm with
      pmk := if l.sm.wpaKeyMgmt.wpaPsk then pmk else l.sm.pmk
      micVerified := true
      ptk := ptk
      ptkValid := true } }).tick).log (.selected pmk ptk)

/-- Source: `SM_STATE(WPA_PTK, PTKCALCNEGOTIATING2)`. -/
def enterPtkCalcNegotiating2 (l : Loc) : Loc :=
  let l := smEntry .ptkCalcNegotiating2 l
  { l with sm := { l.sm with timeoutCtr := 0 } }

/-- The authenticator's information elements for a station; the RSN element comes first and is
left out for a station that uses WPA. -/
def Sm.ownIe (sm : Sm) : Bytes :=
  let ie := S.conf.wpaIe
  let len := (ie.getD 1 0).toNat + 2
  if sm.wpa = .wpa ∧ S.conf.protoRsn ∧ len < ie.length ∧ ie.getD 0 0 = wlanEidRsn then
    let rest := ie.drop len
    rest.take ((rest.getD 1 0).toNat + 2)
  else ie

def Group.gtkKde (g : Group) : Bytes :=
  wpaAddKde rsnKeyDataGroupkey [UInt8.ofNat (g.gn % 4), 0] (g.gtk g.gn)

def Sm.msg3 (sm : Sm) (g : Group) (rsc : BitVec 64) : SendArgs where
  keyInfo := (if sm.wpa = .wpa2 then KeyInfo.secure else 0#16) ||| KeyInfo.mic |||
    KeyInfo.ack ||| KeyInfo.install ||| KeyInfo.keyType
  keyRsc := if sm.wpa = .wpa2 then some rsc else none
  nonce := some sm.aNonce
  kde := sm.ownIe S ++ if sm.wpa = .wpa2 then g.gtkKde else []
  keyidx := if sm.wpa = .wpa2 then g.gn else 0
  encr := sm.wpa = .wpa2

/-- Source: `SM_STATE(WPA_PTK, PTKINITNEGOTIATING)`. -/
def enterPtkInitNegotiating (l : Loc) : Loc :=
  let l := smEntry .ptkInitNegotiating l
  let l := { l with sm := { l.sm with
    timeoutEvt := false
    timeoutCtr := l.sm.timeoutCtr + 1 } }
  if pairwiseUpdateCount < l.sm.timeoutCtr then l
  else wpaSendEapol S l.tick (l.sm.msg3 S l.group (S.cb l.now).getSeqnum)

/-- The end of `PTKINITDONE`: the EAPOL machine is told that the handshake is done. -/
def handshakeDone (l : Loc) : Loc :=
  let l := ((l.setEapol .portValid 1).setEapol .keyAvailable 0).setEapol .keyDone 1
  { l with sm := { l.sm with pInitAKeys := l.sm.pInitAKeys || l.sm.wpa == WpaVersion.wpa } }

/-- Source: `SM_STATE(WPA_PTK, PTKINITDONE)`. -/
def enterPtkInitDone (l : Loc) : Loc :=
  let l := smEntry .ptkInitDone l
  let l := { l with sm := { l.sm with eapolKeyReceived := false } }
  if l.sm.pair then
    let refused := (S.cb l.now).setKey ≠ 0
    let l := (l.log (.setKey (some (l.sm.ptk.tk l.sm.pairwise)))).tick
    if refused then wpaStaDisconnect S l
    else
      let l := { l with sm := { l.sm with pairwiseSet := true } }
      handshakeDone (if l.sm.wpaKeyMgmt.wpaPsk then l.setEapol .authorized 1 else l)
  else handshakeDone l

/-! ## The step -/

/-- A reply of the 4-way handshake has been received. -/
def Sm.pairwiseReply (sm : Sm) : Bool :=
  sm.eapolKeyReceived && !sm.eapolKeyRequest && sm.eapolKeyPairwise

/-- The transitions of each state. Source: `SM_STEP(WPA_PTK)`, the switch. -/
def ptkSwitch (l : Loc) : Loc :=
  match l.sm.wpaPtkState with
  | .initialise => l
  | .disconnect => enterDisconnected l
  | .disconnected => enterInitialise l
  | .authentication => enterAuthentication2 S l
  | .authentication2 =>
    if l.sm.wpaKeyMgmt.wpaIeee8021x ∧ 0 < (S.cb l.now).getEapol .keyRun then
      enterInitPmk S l.tick
    else if l.sm.wpaKeyMgmt.wpaPsk then enterInitPsk S l.tick
    else l.tick
  | .initPmk =>
    if 0 < (S.cb l.now).getEapol .keyAvailable then enterPtkStart S l.tick
    else enterDisconnect S l.tick
  | .initPsk =>
    if (S.cb l.now).getPsk.isEmpty then enterDisconnect S l.tick else enterPtkStart S l.tick
  | .ptkStart =>
    if l.sm.pairwiseReply then enterPtkCalcNegotiating S l
    else if pairwiseUpdateCount < l.sm.timeoutCtr then enterDisconnect S l
    else if l.sm.timeoutEvt then enterPtkStart S l
    else l
  | .ptkCalcNegotiating =>
    if l.sm.micVerified then enterPtkCalcNegotiating2 l
    else if l.sm.pairwiseReply then enterPtkCalcNegotiating S l
    else if l.sm.timeoutEvt then enterPtkStart S l
    else l
  | .ptkCalcNegotiating2 => enterPtkInitNegotiating S l
  | .ptkInitNegotiating =>
    if l.sm.pairwiseReply ∧ l.sm.micVerified then enterPtkInitDone S l
    else if pairwiseUpdateCount < l.sm.timeoutCtr then enterDisconnect S l
    else if l.sm.timeoutEvt then enterPtkInitNegotiating S l
    else l
  | .ptkInitDone => l

/-- One step of the machine. Source: `SM_STEP(WPA_PTK)`. -/
def ptkStep (l : Loc) : Loc :=
  if l.sm.init then enterInitialise l
  else if l.sm.disconnect then enterDisconnect S l
  else if l.sm.deauthenticationRequest then enterDisconnected l
  else if l.sm.authenticationRequest then enterAuthentication l
  else if l.sm.reAuthenticationRequest then enterAuthentication2 S l
  else if l.sm.ptkRequest then enterPtkStart S l
  else ptkSwitch S l

end Hostapd.Ap.WpaAuth

/-!
## The WPA authenticator: the group key machines

The two machines of `wpa_auth.c` that distribute a group key: `WPA_PTK_GROUP`, which hands it to
one station, and the machine of a group, which decides when there is a new one.

* **`ptkGroupStep`** is `SM_STEP(WPA_PTK_GROUP)`, over `enterIdle`, .., `enterKeyError`.
* **`wpaGroupSmStep`** is `wpa_group_sm_step`. Starting a rekey ends with a visit to every station
  (`wpa_group_update_sta`); the step returns whether to make it, and `markSta` is what a visit does
  to a station before it steps its machine.
-/

namespace Hostapd.Ap.WpaAuth

open Hostapd.Lib

variable (S : Setup)

/-! ### The group key of one station -/

/-- Source: `state_machine.h`, `SM_ENTRY_MA`. -/
def smGroupEntry (st : PtkGroupState) (l : Loc) : Loc :=
  { l with sm := { l.sm with wpaPtkGroupState := st, changed := true } }

/-- Source: `SM_STATE(WPA_PTK_GROUP, IDLE)`. -/
def enterIdle (l : Loc) : Loc :=
  let l := smGroupEntry .idle l
  { l with sm := { l.sm with changed := l.sm.changed && !l.sm.init, gTimeoutCtr := 0 } }

def Sm.groupMsg1 (sm : Sm) (g : Group) (rsc : BitVec 64) : SendArgs where
  keyInfo := KeyInfo.secure ||| KeyInfo.mic ||| KeyInfo.ack |||
    (if sm.pair then 0#16 else KeyInfo.install)
  keyRsc := some rsc
  nonce := some g.gNonce
  kde := if sm.wpa = .wpa2 then g.gtkKde else g.gtk g.gn
  keyidx := g.gn
  encr := true

/-- Source: `SM_STATE(WPA_PTK_GROUP, REKEYNEGOTIATING)`. -/
def enterRekeyNegotiating (l : Loc) : Loc :=
  let l := smGroupEntry .rekeyNegotiating l
  let l := { l with sm := { l.sm with gTimeoutCtr := l.sm.gTimeoutCtr + 1 } }
  if groupUpdateCount < l.sm.gTimeoutCtr then l
  else
    let l := { l with sm := { l.sm with
      pInitAKeys := l.sm.pInitAKeys && l.sm.wpa != WpaVersion.wpa
      timeoutEvt := false } }
    let rsc := if l.group.wpaGroupState = .setKeysDone then (S.cb l.now).getSeqnum else 0#64
    wpaSendEapol S l.tick (l.sm.groupMsg1 l.group rsc)

/-- Source: `SM_STATE(WPA_PTK_GROUP, REKEYESTABLISHED)`. -/
def enterRekeyEstablished (l : Loc) : Loc :=
  let l := smGroupEntry .rekeyEstablished l
  let l := clearGUpdate { l with sm := { l.sm with eapolKeyReceived := false } }
  { l with sm := { l.sm with gTimeoutCtr := 0 } }

/-- Source: `SM_STATE(WPA_PTK_GROUP, KEYERROR)`. -/
def enterKeyError (l : Loc) : Loc :=
  let l := clearGUpdate (smGroupEntry .keyError l)
  { l with sm := { l.sm with disconnect := true } }

/-- A reply of the group key handshake has been received. -/
def Sm.groupReply (sm : Sm) : Bool :=
  sm.eapolKeyReceived && !sm.eapolKeyRequest && !sm.eapolKeyPairwise

/-- One step of the machine. Source: `SM_STEP(WPA_PTK_GROUP)`. -/
def ptkGroupStep (l : Loc) : Loc :=
  if l.sm.init || l.sm.ptkGroupInit then
    let l := enterIdle l
    { l with sm := { l.sm with ptkGroupInit := false } }
  else match l.sm.wpaPtkGroupState with
    | .idle =>
      if l.sm.gUpdateStationKeys || (l.sm.wpa == WpaVersion.wpa && l.sm.pInitAKeys) then
        enterRekeyNegotiating S l
      else l
    | .rekeyNegotiating =>
      if l.sm.groupReply && l.sm.micVerified then enterRekeyEstablished l
      else if groupUpdateCount < l.sm.gTimeoutCtr then enterKeyError l
      else if l.sm.timeoutEvt then enterRekeyNegotiating S l
      else l
    | .keyError => enterIdle l
    | .rekeyEstablished => enterIdle l

/-! ### The group -/

/-- Source: `wpa_auth.c`, `wpa_group_gtk_init`. -/
def wpaGroupGtkInit (ans : Answers) (g : Group) : Group :=
  wpaGtkUpdate S ans { g with
    changed := false
    wpaGroupState := .gtkInit
    gtk := fun _ => List.replicate 32 0
    gn := 1
    gm := 2 }

/-- Source: `wpa_auth.c`, `wpa_group_setkeys`, before the visit to the stations. -/
def wpaGroupSetkeys (ans : Answers) (g : Group) : Group :=
  let g := { g with changed := true, wpaGroupState := .setKeys, gtkReKey := false }
  { wpaGtkUpdate S ans g.swapKeys with gKeyDoneStations := 0 }

/-- Source: `wpa_auth.c`, `wpa_group_setkeysdone`. -/
def wpaGroupSetkeysdone (g : Group) : Group :=
  wpaGroupConfigGroupKeys { g with changed := true, wpaGroupState := .setKeysDone }

/-- One step of the machine of a group, and whether the stations are to be visited.
Source: `wpa_auth.c`, `wpa_group_sm_step`. -/
def wpaGroupSmStep (ans : Answers) (g : Group) : Group × Bool :=
  if g.gInit then (wpaGroupGtkInit S ans g, false)
  else match g.wpaGroupState with
    | .gtkInit => if g.gtkAuthenticator then (wpaGroupSetkeysdone g, false) else (g, false)
    | .setKeysDone => if g.gtkReKey then (wpaGroupSetkeys S ans g, true) else (g, false)
    | .setKeys =>
      if g.gKeyDoneStations = 0 then (wpaGroupSetkeysdone g, false)
      else if g.gtkReKey then (wpaGroupSetkeys S ans g, true)
      else (g, false)

/-- The mark a visit to a station leaves, and whether its machine is stepped.
Source: `wpa_auth.c`, `wpa_group_update_sta`. -/
def markSta (l : Loc) : Loc × Bool :=
  if l.sm.wpaPtkState ≠ .ptkInitDone then
    ({ l with sm := { l.sm with gUpdateStationKeys := false } }, false)
  else
    ({ l with
      sm := { l.sm with gUpdateStationKeys := true }
      group := { l.group with gKeyDoneStations := l.group.gKeyDoneStations + 1 } }, true)

/-- The length of the group key. Source: `wpa_auth.c`, `wpa_group_set_key_len`. -/
def gtkLenOf : WpaCipher → ℕ
  | .ccmp => 16
  | .tkip => 32
  | .wep104 => 13
  | .wep40 => 5
  | .none => 0

/-- A group before its machine is stepped for the first time. -/
def Group.zero : Group where
  gInit := true
  gKeyDoneStations := 0
  gtkReKey := false
  gtkLen := gtkLenOf S.conf.wpaGroup
  gn := 0
  gm := 0
  gtkAuthenticator := true
  counter := 0#256
  wpaGroupState := .gtkInit
  gmk := 0#256
  gtk := fun _ => List.replicate 32 0
  gNonce := 0#256
  changed := false
  firstStaSeen := false
  reject4wayHsForEntropy := false
  driverKeys := []

/-- A new group, if there are random numbers for it: `GTK_INIT` and then `SETKEYSDONE`.
Source: `wpa_auth.c`, `wpa_group_init`. -/
def wpaGroupInit (ans ans' : Answers) : Option Group :=
  if ans.randomKey.isNone || ans.initCounter.isNone then none
  else
    let g := (wpaGroupSmStep S ans (wpaGroupInitGmkAndCounter ans (Group.zero S))).1
    some (wpaGroupSmStep S ans' { g with gInit := false }).1

end Hostapd.Ap.WpaAuth
