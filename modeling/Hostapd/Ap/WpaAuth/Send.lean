import Hostapd.Ap.WpaAuth.Types

/-!
# The WPA authenticator: sending frames and keys

The functions of `wpa_auth.c` the state machines call: `wpaSendEapol`, the group key functions,
`wpaRemovePtk` and `wpaStaDisconnect`.

* **`wpaSendEapol`** is `__wpa_send_eapol`, and also `wpa_send_eapol`, which adds a timeout. What
  a frame does to the station's machine is `wpaSendEapol_sm`: it shifts the replay window and
  touches nothing else. What it does to the trace is `wpaSendEapol_trace`.
-/

namespace Hostapd.Ap.WpaAuth

open Hostapd.Lib

variable (S : Setup)

/-! ## Frames -/

/-- The arguments of `__wpa_send_eapol`. -/
structure SendArgs where
  keyInfo : KeyInfo
  keyRsc : Option (BitVec 64)
  nonce : Option Nonce
  kde : Bytes
  keyidx : ℕ
  encr : Bool

def Sm.keyVersion (sm : Sm) : KeyInfo :=
  if sm.pairwise = .ccmp then KeyInfo.hmacSha1Aes else KeyInfo.hmacMd5Rc4

/-- The counter of the next frame: one more than that of the first slot. -/
def Sm.nextCounter (sm : Sm) : ReplayCounter :=
  (sm.keyReplay.headD ⟨0#64, false⟩).counter + 1#64

def Sm.keyInfoOf (sm : Sm) (a : SendArgs) : KeyInfo :=
  a.keyInfo ||| sm.keyVersion |||
    (if a.encr ∧ sm.wpa = .wpa2 then KeyInfo.encrKeyData else 0#16) |||
    (if sm.wpa = .wpa2 then 0#16 else BitVec.ofNat 16 a.keyidx <<< 4)

def Sm.keyLengthOf (sm : Sm) (a : SendArgs) : BitVec 16 :=
  if a.keyInfo.isSmkMessage then 0#16
  else match if a.keyInfo.isKeyType then sm.pairwise else S.conf.wpaGroup with
    | .ccmp => 16#16
    | .tkip => 32#16
    | .wep40 => 5#16
    | .wep104 => 13#16
    | .none => 0#16

/-- The key data padded to whole blocks for the key wrap. -/
def padKde (kde : Bytes) : Bytes :=
  if kde.length % 8 = 0 then kde
  else kde ++ 0xdd :: List.replicate (7 - kde.length % 8) 0

/-- The key data of a frame as it is sent, with the IV it uses and the group counter after it. -/
def Sm.keyData (sm : Sm) (counter : Nonce) (a : SendArgs) : Bytes × BitVec 128 × Nonce :=
  if a.encr then
    if sm.keyVersion = KeyInfo.hmacSha1Aes then
      (S.crypto.aesWrap sm.ptk.kek (padKde a.kde), 0#128, counter)
    else
      let iv := counter.extractLsb' 0 128
      (S.crypto.rc4Skip (iv ++ sm.ptk.kek) a.kde, iv, counter + 1#256)
  else (a.kde, 0#128, counter)

/-- The frame `__wpa_send_eapol` builds, before its MIC. -/
def Sm.frame (sm : Sm) (counter : Nonce) (a : SendArgs) : EapolKey where
  version := S.conf.eapolVersion
  ptype := ieee8021xTypeEapolKey
  length := BitVec.ofNat 16 (95 + (sm.keyData S counter a).1.length)
  type := if sm.wpa = .wpa2 then eapolKeyTypeRsn else eapolKeyTypeWpa
  keyInfo := sm.keyInfoOf a
  keyLength := sm.keyLengthOf S a
  replayCounter := sm.nextCounter
  keyNonce := a.nonce.getD 0#256
  keyIv := (sm.keyData S counter a).2.1
  keyRsc := a.keyRsc.getD 0#64
  keyId := 0#64
  keyMic := 0#128
  keyDataLength := BitVec.ofNat 16 (sm.keyData S counter a).1.length
  body := (sm.keyData S counter a).1

/-- The frame as it goes out; a frame with a MIC needs a PTK. -/
def Sm.signedFrame (sm : Sm) (counter : Nonce) (a : SendArgs) : Option EapolKey :=
  let f := sm.frame S counter a
  if a.keyInfo.isMic then
    if sm.ptkValid then some { f with keyMic := (f.micUnder S.crypto sm.ptk.kck).getD 0#128 }
    else none
  else some f

def transmit (l : Loc) : Option EapolKey → Loc
  | none => l
  | some f => (l.setEapol .incEapolFramesTx 1).log (.sent f l.sm.pairwiseSet)

/-- Send an EAPOL-Key frame. The counter is used up whether or not the frame goes out.
Source: `wpa_auth.c`, `__wpa_send_eapol`. -/
def wpaSendEapol (l : Loc) (a : SendArgs) : Loc :=
  transmit
    { l with
      sm := { l.sm with keyReplay := shift l.sm.nextCounter l.sm.keyReplay }
      group := { l.group with counter := (l.sm.keyData S l.group.counter a).2.2 }
      trace := .issue l.sm.nextCounter :: l.trace }
    (l.sm.signedFrame S l.group.counter a)

@[simp] theorem transmit_sm (l : Loc) (f : Option EapolKey) : (transmit l f).sm = l.sm := by
  cases f <;> rfl

@[simp] theorem transmit_group (l : Loc) (f : Option EapolKey) :
    (transmit l f).group = l.group := by
  cases f <;> rfl

@[simp] theorem wpaSendEapol_sm (l : Loc) (a : SendArgs) :
    (wpaSendEapol S l a).sm =
      { l.sm with keyReplay := shift l.sm.nextCounter l.sm.keyReplay } := by
  rw [wpaSendEapol, transmit_sm]

@[simp] theorem wpaSendEapol_group (l : Loc) (a : SendArgs) :
    (wpaSendEapol S l a).group =
      { l.group with counter := (l.sm.keyData S l.group.counter a).2.2 } := by
  rw [wpaSendEapol, transmit_group]

/-- The events of one frame: its counter, and the frame if it goes out. -/
def sendEvents (l : Loc) (a : SendArgs) : List Ev :=
  (transmit { l with trace := [.issue l.sm.nextCounter] }
    (l.sm.signedFrame S l.group.counter a)).trace

theorem wpaSendEapol_trace (l : Loc) (a : SendArgs) :
    (wpaSendEapol S l a).trace = sendEvents S l a ++ l.trace := by
  rw [wpaSendEapol, sendEvents]
  cases l.sm.signedFrame S l.group.counter a <;> rfl

/-! ## Group keys -/

/-- Compute the next group key. Source: `wpa_auth.c`, `wpa_gtk_update`, `wpa_gmk_to_gtk`. -/
def wpaGtkUpdate (ans : Answers) (g : Group) : Group :=
  let data := putBe 6 S.conf.addr.toNat ++ putBe 32 g.counter.toNat ++ ans.gtkEntropy
  { g with
    gNonce := g.counter
    counter := g.counter + 1#256
    gtk := Function.update g.gtk g.gn ((S.gtkPrf g.gmk data).take g.gtkLen) }

/-- Source: `wpa_auth.c`, `wpa_group_init_gmk_and_counter`. -/
def wpaGroupInitGmkAndCounter (ans : Answers) (g : Group) : Group :=
  match ans.randomKey with
  | none => g
  | some k => { g with gmk := k, counter := ans.initCounter.getD g.counter }

/-- Give the group key to the driver. Source: `wpa_auth.c`, `wpa_group_config_group_keys`. -/
def wpaGroupConfigGroupKeys (g : Group) : Group :=
  { g with driverKeys := (g.gn, g.gtk g.gn) :: g.driverKeys }

/-- The first station of a group. Source: `wpa_auth.c`, `wpa_group_first_station`. -/
def wpaGroupFirstStation (ans : Answers) (g : Group) : Group :=
  let g := if ans.randomPoolReady then g else { g with reject4wayHsForEntropy := true }
  wpaGroupConfigGroupKeys (wpaGtkUpdate S ans (wpaGroupInitGmkAndCounter ans g))

def Group.swapKeys (g : Group) : Group := { g with gn := g.gm, gm := g.gn }

/-- Two new group keys, for countermeasures. Source: `wpa_auth.c`, `wpa_gtk_rekey`. -/
def wpaGtkRekey (ans ans' : Answers) (g : Group) : Group :=
  wpaGtkUpdate S ans' (wpaGtkUpdate S ans g.swapKeys).swapKeys

/-- The part of a group the key functions leave alone: its state and its accounting. -/
def Group.control (g : Group) : GroupState × ℤ × Bool × Bool × Bool × Bool :=
  (g.wpaGroupState, g.gKeyDoneStations, g.gtkReKey, g.gInit, g.gtkAuthenticator, g.changed)

@[simp] theorem wpaGtkUpdate_control (ans : Answers) (g : Group) :
    (wpaGtkUpdate S ans g).control = g.control := rfl

@[simp] theorem wpaGroupInitGmkAndCounter_control (ans : Answers) (g : Group) :
    (wpaGroupInitGmkAndCounter ans g).control = g.control := by
  unfold wpaGroupInitGmkAndCounter
  split <;> rfl

@[simp] theorem wpaGroupConfigGroupKeys_control (g : Group) :
    (wpaGroupConfigGroupKeys g).control = g.control := rfl

@[simp] theorem wpaGroupFirstStation_control (ans : Answers) (g : Group) :
    (wpaGroupFirstStation S ans g).control = g.control := by
  unfold wpaGroupFirstStation
  dsimp only
  rw [wpaGroupConfigGroupKeys_control, wpaGtkUpdate_control, wpaGroupInitGmkAndCounter_control]
  split <;> rfl

@[simp] theorem wpaGtkRekey_control (ans ans' : Answers) (g : Group) :
    (wpaGtkRekey S ans ans' g).control = g.control := rfl

/-! ## Stations -/

/-- Remove the pairwise key. Source: `wpa_auth.c`, `wpa_remove_ptk`. -/
def wpaRemovePtk (l : Loc) : Loc :=
  ({ l with sm := { l.sm with ptkValid := false, ptk := Ptk.zero, pairwiseSet := false } }).log
    (.setKey none)

/-- Ask for the station to be disconnected. The callback may remove it at once, which a machine in
its step loop notes in `pendingDeinit`. Source: `wpa_auth.c`, `wpa_sta_disconnect`. -/
def wpaStaDisconnect (l : Loc) : Loc :=
  ({ l with
      sm := { l.sm with
        pendingDeinit := l.sm.pendingDeinit || (S.cb l.now).deinitOnDisconnect } }).tick.log
    .disconnect

/-- Source: `wpa_auth.c`, `wpa_request_new_ptk`. -/
def Sm.wpaRequestNewPtk (sm : Sm) : Sm := { sm with ptkRequest := true, ptkValid := false }

@[simp] theorem wpaRemovePtk_sm (l : Loc) : (wpaRemovePtk l).sm =
    { l.sm with ptkValid := false, ptk := Ptk.zero, pairwiseSet := false } := rfl

@[simp] theorem wpaRemovePtk_group (l : Loc) : (wpaRemovePtk l).group = l.group := rfl

@[simp] theorem wpaRemovePtk_trace (l : Loc) :
    (wpaRemovePtk l).trace = .setKey none :: l.trace := rfl

@[simp] theorem wpaStaDisconnect_sm (l : Loc) : (wpaStaDisconnect S l).sm =
    { l.sm with pendingDeinit := l.sm.pendingDeinit || (S.cb l.now).deinitOnDisconnect } := rfl

@[simp] theorem wpaStaDisconnect_group (l : Loc) : (wpaStaDisconnect S l).group = l.group := rfl

@[simp] theorem wpaStaDisconnect_trace (l : Loc) :
    (wpaStaDisconnect S l).trace = .disconnect :: l.trace := rfl

end Hostapd.Ap.WpaAuth
