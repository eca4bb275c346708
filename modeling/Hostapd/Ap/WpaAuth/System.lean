import Hostapd.Ap.WpaAuth.Receive

/-!
# The WPA authenticator: the whole component

All stations and all groups of `wpa_auth.c` together, with the calls other parts make.

* **`Auth`** is `struct wpa_authenticator` with the stations' machines. A call into the
  authenticator is not one step: `wpa_sm_step` steps a group, a group visits all stations, and a
  visit steps that station. What remains to be done of the calls under way is the `stack` of
  `Task`s, the innermost one first, as on the stack of the C program.
* **`exec`** is the beginning of a call from outside (`Op`), and **`micro`** does the innermost
  task. A call is complete when the stack is empty, and then the next one can be made.
* **`Reach P`**: the states reached by calls that meet the condition `P` when they are made,
  including the states in the middle of a call.

The callbacks return before the authenticator goes on; the only call back into it they may make is
`wpa_auth_sta_deinit` of the station they disconnect.
-/

namespace Hostapd.Ap.WpaAuth

open Hostapd.Lib

/-- A station is known by the allocation of its machine. -/
abbrev StaId := ℕ

/-- What remains to be done of a function that has called another one. -/
inductive Task
  /-- `wpa_sm_step`: the condition of the loop, and what follows. -/
  | check (id : StaId)
  /-- `wpa_auth_for_each_sta(.., wpa_group_update_sta, ..)`: the stations still to visit. -/
  | updateStas (ids : List StaId)
  /-- `wpa_rekey_gtk`: the condition of the inner loop. -/
  | rekeyCheck (g : ℤ)
  /-- `wpa_rekey_gtk`: the groups still to step. -/
  | rekeyGroups (gs : List ℤ)
  /-- `wpa_auth_sta_associated`, after the step with `Init`. -/
  | afterInit (id : StaId)
  /-- `wpa_auth_sm_event`, after the step with `Init`. -/
  | afterReauth (id : StaId) (ev : WpaEvent)
  /-- `wpa_receive`, after `wpa_rekey_gtk`. -/
  | receiveTail (id : StaId) (f : EapolKey)

/-- The authenticator. `groups` is the list of groups from the default one on, each known by its
VLAN id; `stas` is the list of stations in the order they are visited. Source: `wpa_auth_i.h`, `struct wpa_authenticator`. -/
structure Auth where
  now : ℕ
  stas : List StaId
  sm : StaId → Sm
  trace : StaId → List Ev
  groups : List ℤ
  group : ℤ → Group
  stack : List Task

variable (S : Setup)

/-! ## Access -/

namespace Auth

def loc (s : Auth) (id : StaId) : Loc where
  sm := s.sm id
  group := s.group (s.sm id).group
  now := s.now
  trace := s.trace id

def put (s : Auth) (id : StaId) (l : Loc) : Auth :=
  { s with
    now := l.now
    sm := Function.update s.sm id l.sm
    group := Function.update s.group (s.sm id).group l.group
    trace := Function.update s.trace id l.trace }

def onSta (s : Auth) (id : StaId) (f : Loc → Loc) : Auth := s.put id (f (s.loc id))

def setSm (s : Auth) (id : StaId) (f : Sm → Sm) : Auth :=
  { s with sm := Function.update s.sm id (f (s.sm id)) }

def setGroup (s : Auth) (g : ℤ) (f : Group → Group) : Auth :=
  { s with group := Function.update s.group g (f (s.group g)) }

/-- Leave something to be done after what is done next. -/
def push (s : Auth) (t : Task) : Auth := { s with stack := t :: s.stack }

end Auth

/-! ## Stepping a station -/

/-- Source: `wpa_auth.c`, `wpa_free_sta_sm`. -/
def wpaFreeStaSm (id : StaId) (s : Auth) : Auth :=
  { s.onSta id clearGUpdate with stas := s.stas.erase id }

/-- The end of `wpa_sm_step`, after its loop. -/
def finishStep (id : StaId) (s : Auth) : Auth :=
  let s := s.setSm id fun sm => { sm with inStepLoop := false }
  if (s.sm id).pendingDeinit then wpaFreeStaSm id s else s

/-- Step a group, with the visit to the stations still to be made.
Source: `wpa_auth.c`, `wpa_group_sm_step`. -/
def groupSmStep (g : ℤ) (s : Auth) : Auth :=
  let r := wpaGroupSmStep S (S.cb s.now) (s.group g)
  let s := { s.setGroup g fun _ => r.1 with now := s.now + 1 }
  if r.2 then s.push (.updateStas s.stas) else s

/-- The two machines of a station, the body of the loop of `wpa_sm_step` up to the group. -/
def stepMachines (l : Loc) : Loc :=
  let l := ptkStep S { l with sm := { l.sm with changed := false } }
  if l.sm.pendingDeinit then l else ptkGroupStep S l

/-- One iteration of the loop of `wpa_sm_step`. -/
def stepIteration (id : StaId) (s : Auth) : Auth :=
  if (s.sm id).pendingDeinit then finishStep id s
  else
    let s := (s.setGroup 0 fun g => { g with changed := false }).onSta id (stepMachines S)
    if (s.sm id).pendingDeinit then finishStep id s
    else groupSmStep S (s.sm id).group (s.push (.check id))

/-- Source: `wpa_auth.c`, `wpa_sm_step`. -/
def wpaSmStep (id : StaId) (s : Auth) : Auth :=
  if (s.sm id).inStepLoop then s
  else stepIteration S id (s.setSm id fun sm => { sm with inStepLoop := true })

/-! ## Tasks -/

/-- One step of a group in `wpa_rekey_gtk`. -/
def rekeyStep (g : ℤ) (s : Auth) : Auth :=
  groupSmStep S g ((s.setGroup g fun x => { x with changed := false }).push (.rekeyCheck g))

/-- The end of `wpa_auth_sm_event`: the PTK is removed, and the machine is stepped. -/
def eventEnd (ev : WpaEvent) (l : Loc) : Loc :=
  let l := { l with sm := { l.sm with ptkValid := false, ptk := Ptk.zero } }
  if ev = .reauthEapol then l else wpaRemovePtk l

/-- After the step with `Init`. -/
def Sm.initDone (sm : Sm) : Sm := { sm with init := false, authenticationRequest := true }

/-- Do a task. A station that has been removed meanwhile is passed over. -/
def runTask : Task → Auth → Auth
  | .check id, s =>
    if (s.sm id).changed || (s.group 0).changed then stepIteration S id s else finishStep id s
  | .updateStas [], s => s
  | .updateStas (id :: ids), s =>
    let s := s.push (.updateStas ids)
    if id ∈ s.stas then
      if (markSta (s.loc id)).2 then wpaSmStep S id (s.put id (markSta (s.loc id)).1)
      else s.put id (markSta (s.loc id)).1
    else s
  | .rekeyCheck g, s => if (s.group g).changed then rekeyStep S g s else s
  | .rekeyGroups [], s => s
  | .rekeyGroups (g :: gs), s =>
    rekeyStep S g ((s.setGroup g fun x => { x with gtkReKey := true }).push (.rekeyGroups gs))
  | .afterInit id, s => if id ∈ s.stas then wpaSmStep S id (s.setSm id Sm.initDone) else s
  | .afterReauth id ev, s =>
    if id ∈ s.stas then wpaSmStep S id ((s.setSm id Sm.initDone).onSta id (eventEnd ev)) else s
  | .receiveTail id f, s =>
    if id ∈ s.stas then wpaSmStep S id (s.setSm id (keepFrame f)) else s

def micro (s : Auth) : Auth :=
  match s.stack with
  | [] => s
  | t :: ts => runTask S t { s with stack := ts }

/-! ## Calls -/

/-- What the association request of a station decides; it is parsed elsewhere.
Source: `wpa_auth_ie.c`, `wpa_validate_wpa_ie`. -/
structure AssocInfo where
  wpa : WpaVersion
  pairwise : WpaCipher
  wpaKeyMgmt : WpaKeyMgmt
  pmksa : Option PmksaRef
  wpaIe : Option Bytes

inductive Op
  /-- `wpa_auth_sta_init`; the station is visited in the place `pos` of the list. -/
  | staInit (id : StaId) (addr : MacAddr) (pos : ℕ)
  | validateWpaIe (id : StaId) (info : AssocInfo)
  | staAssociated (id : StaId)
  | staNoWpa (id : StaId)
  | receive (id : StaId) (data : Bytes)
  | smEvent (id : StaId) (ev : WpaEvent)
  | sendEapolTimeout (id : StaId)
  | rekeyPtk (id : StaId)
  | rekeyGtk
  | rekeyGmk
  | smCallStep (id : StaId)
  | setVlan (id : StaId) (vlan : ℤ)
  | removePtk (id : StaId)
  | staDeinit (id : StaId)

/-- A new station. Source: `wpa_auth.c`, `wpa_auth_sta_init`. -/
def wpaAuthStaInit (id : StaId) (addr : MacAddr) (pos : ℕ) (s : Auth) : Auth :=
  { s with
    stas := s.stas.insertIdx (min pos s.stas.length) id
    sm := Function.update s.sm id (Sm.zero addr)
    trace := Function.update s.trace id [] }

/-- Source: `wpa_auth_ie.c`, `wpa_validate_wpa_ie`, its effect on the machine. -/
def Sm.associate (info : AssocInfo) (sm : Sm) : Sm :=
  { sm with
    wpa := info.wpa
    pairwise := info.pairwise
    wpaKeyMgmt := info.wpaKeyMgmt
    pmksa := info.pmksa
    wpaIe := info.wpaIe }

def Sm.start (sm : Sm) : Sm := { sm with started := true, init := true }

/-- Authenticate again, with a cleared replay window. -/
def reassociate (l : Loc) : Loc :=
  ({ l with sm := { l.sm with
    keyReplay := emptyReplay
    reAuthenticationRequest := true } }).log .reset

/-- Source: `wpa_auth.c`, `wpa_auth_sta_associated`. -/
def wpaAuthStaAssociated (id : StaId) (s : Auth) : Auth :=
  if !S.conf.protoWpa && !S.conf.protoRsn then s
  else if (s.sm id).started then wpaSmStep S id (s.onSta id reassociate)
  else wpaSmStep S id ((s.setSm id Sm.start).push (.afterInit id))

/-- The station has acknowledged nothing, but the update is not waited for any longer.
Source: `wpa_auth_sm_event`, `case WPA_REAUTH`, for a machine that has been started. -/
def reauthenticate (l : Loc) : Loc :=
  let pending := l.sm.gUpdateStationKeys
  let l := clearGUpdate l
  { l with sm := { l.sm with
    ptkGroupInit := l.sm.ptkGroupInit || pending
    reAuthenticationRequest := true } }

/-- The request an event makes of a machine that has been started. Source: `wpa_auth_sm_event`,
the `switch`. -/
def eventRequest (ev : WpaEvent) (l : Loc) : Loc :=
  match ev with
  | .deauth | .disassoc => { l with sm := { l.sm with deauthenticationRequest := true } }
  | .reauth | .reauthEapol => reauthenticate l
  | .auth | .assoc | .assocFt => l

/-- The events that start a machine that has not been started. -/
def WpaEvent.starts : WpaEvent → Bool
  | .reauth | .reauthEapol => true
  | .auth | .assoc | .assocFt | .deauth | .disassoc => false

/-- Source: `wpa_auth.c`, `wpa_auth_sm_event`. -/
def wpaAuthSmEvent (id : StaId) (ev : WpaEvent) (s : Auth) : Auth :=
  let s := s.onSta id (·.log (.reported ev))
  if ev.starts && !(s.sm id).started then
    wpaSmStep S id ((s.setSm id Sm.start).push (.afterReauth id ev))
  else wpaSmStep S id (s.onSta id fun l => eventEnd ev (eventRequest ev l))

def sendAll (s : Auth) (l : List (StaId × SendArgs)) : Auth :=
  l.foldl (fun s a => s.onSta a.1 fun l => wpaSendEapol S l a.2) s

def Auth.findSta (s : Auth) (a : MacAddr) : Option StaId :=
  s.stas.find? fun id => (s.sm id).addr == a

def smkHandler (id : StaId) (f : EapolKey) (s : Auth) : Auth :=
  { sendAll S s (smkSends S s.findSta (S.cb s.now) id (s.sm id).addr f) with now := s.now + 1 }

/-- Report a Michael MIC failure, which may start countermeasures with new keys for the default
group. Source: `wpa_auth.c`, `wpa_auth_mic_failure_report`, `wpa_gtk_rekey`. -/
def micFailureReport (s : Auth) : Auth :=
  { (if (S.cb s.now).countermeasures then
      s.setGroup 0 (wpaGtkRekey S (S.cb s.now) (S.cb (s.now + 1)))
    else s) with now := s.now + 2 }

/-- The end of `wpa_receive`. -/
def keepAndStep (id : StaId) (f : EapolKey) (s : Auth) : Auth :=
  wpaSmStep S id (s.setSm id (keepFrame f))

def afterReceive (id : StaId) (f : EapolKey) : Next → Auth → Auth
  | .stop, s => if (s.sm id).pendingDeinit then wpaFreeStaSm id s else s
  | .smk, s => smkHandler S id f s
  | .smkKeep, s => keepAndStep S id f (smkHandler S id f s)
  | .micFailure, s => keepAndStep S id f ((micFailureReport S s).setSm id Sm.wpaRequestNewPtk)
  | .rekeyGtk, s => (s.push (.receiveTail id f)).push (.rekeyGroups s.groups)
  | .keep, s => keepAndStep S id f s

/-- Source: `wpa_auth.c`, `wpa_receive`. -/
def wpaReceiveSta (id : StaId) (data : Bytes) (s : Auth) : Auth :=
  match wpaReceive S (s.loc id) data with
  | none => s
  | some (f, l, next) => afterReceive S id f next (s.put id l)

/-- The groups with a new one behind the default group. Source: `wpa_auth.c`,
`wpa_auth_add_group`. -/
def addGroup (vlan : ℤ) : List ℤ → List ℤ
  | [] => [vlan]
  | g :: gs => g :: vlan :: gs

/-- Source: `wpa_auth.c`, `wpa_auth_sta_set_vlan`. -/
def wpaAuthStaSetVlan (id : StaId) (vlan : ℤ) (s : Auth) : Auth :=
  if vlan ∈ s.groups then s.setSm id fun sm => { sm with group := vlan }
  else match wpaGroupInit S (S.cb s.now) (S.cb (s.now + 1)) with
    | none => { s with now := s.now + 2 }
    | some g =>
      { s.setGroup vlan (fun _ => g) with
        now := s.now + 2
        groups := addGroup vlan s.groups }.setSm id fun sm => { sm with group := vlan }

/-- Source: `wpa_auth.c`, `wpa_rekey_gmk`. -/
def wpaRekeyGmk (s : Auth) : Auth :=
  { s.setGroup 0 (fun g => { g with gmk := ((S.cb s.now).randomKey).getD g.gmk }) with
    now := s.now + 1 }

def withSta (id : StaId) (f : Auth → Auth) (s : Auth) : Auth := if id ∈ s.stas then f s else s

/-- The beginning of a call, up to what is left on the stack. -/
def exec : Op → Auth → Auth
  | .staInit id addr pos, s => if id ∈ s.stas then s else wpaAuthStaInit id addr pos s
  | .validateWpaIe id info, s => withSta id (·.setSm id (Sm.associate info)) s
  | .staAssociated id, s => withSta id (wpaAuthStaAssociated S id) s
  | .staNoWpa id, s => withSta id (·.setSm id fun sm => { sm with wpaKeyMgmt := .none }) s
  | .receive id data, s => withSta id (wpaReceiveSta S id data) s
  | .smEvent id ev, s => withSta id (wpaAuthSmEvent S id ev) s
  | .sendEapolTimeout id, s =>
    withSta id (fun s => wpaSmStep S id (s.setSm id fun sm => { sm with timeoutEvt := true })) s
  | .rekeyPtk id, s => withSta id (fun s => wpaSmStep S id (s.setSm id Sm.wpaRequestNewPtk)) s
  | .rekeyGtk, s => s.push (.rekeyGroups s.groups)
  | .rekeyGmk, s => wpaRekeyGmk S s
  | .smCallStep id, s => withSta id (wpaSmStep S id) s
  | .setVlan id vlan, s => withSta id (wpaAuthStaSetVlan S id vlan) s
  | .removePtk id, s => withSta id (·.onSta id wpaRemovePtk) s
  | .staDeinit id, s => withSta id (wpaFreeStaSm id) s

/-! ## Runs -/

/-- The authenticator after `wpa_init`, with its default group. -/
def wpaInit (g : Group) : Auth where
  now := 2
  stas := []
  sm := fun _ => Sm.zero 0
  trace := fun _ => []
  groups := [0]
  group := fun _ => g
  stack := []

/-- The states reached by calls that meet `P`, those in the middle of a call included. -/
inductive Reach (P : Auth → Op → Prop) : Auth → Prop
  | init {g : Group} (h : wpaGroupInit S (S.cb 0) (S.cb 1) = some g) : Reach P (wpaInit g)
  | call {s : Auth} {o : Op} (h : Reach P s) (hs : s.stack = []) (hp : P s o) :
      Reach P (exec S o s)
  | micro {s : Auth} (h : Reach P s) : Reach P (micro S s)

/-! ## Runs that are computed -/

variable {S} in
theorem Reach.afterMicros {P : Auth → Op → Prop} {s : Auth} (h : Reach S P s) (n : ℕ) :
    Reach S P ((WpaAuth.micro S)^[n] s) := by
  induction n with
  | zero => exact h
  | succ n ih =>
    rw [Function.iterate_succ_apply']
    exact .micro ih

/-- Calls one after another, each with `n` tasks. -/
def calls (n : ℕ) (s : Auth) (os : List Op) : Auth :=
  os.foldl (fun s o => (micro S)^[n] (exec S o s)) s

/-- Every call is made after the one before it is complete, and meets `p`. -/
def callsOk (p : Auth → Op → Bool) (n : ℕ) : Auth → List Op → Bool
  | _, [] => true
  | s, o :: os => s.stack.isEmpty && p s o && callsOk p n ((micro S)^[n] (exec S o s)) os

variable {S} in
theorem Reach.afterCalls {P : Auth → Op → Prop} {s : Auth} (h : Reach S P s)
    (p : Auth → Op → Bool) (hp : ∀ s o, p s o = true → P s o) (n : ℕ) (os : List Op)
    (hos : callsOk S p n s os = true) : Reach S P (calls S n s os) := by
  induction os generalizing s with
  | nil => exact h
  | cons o os ih =>
    rw [callsOk, Bool.and_eq_true, Bool.and_eq_true] at hos
    exact ih ((Reach.call h (List.isEmpty_iff.mp hos.1.1) (hp s o hos.1.2)).afterMicros n) hos.2

/-! ## A small access point -/

namespace Small

def answers : Answers where
  getEapol _ := 1
  getPsk := [7#256]
  getMsk := none
  setKey := 0
  getSeqnum := 0#64
  deinitOnDisconnect := false
  countermeasures := false
  randomPoolReady := true
  randomKey := some 5#256
  initCounter := some 9#256
  gtkEntropy := []

/-- An access point for WPA2-PSK with CCMP, with a MIC that is always zero. -/
def setup : Setup where
  crypto := {
    hmacMd5 := fun _ _ => 0#128
    hmacSha1 := fun _ _ => 0#160
    sha1Prf := fun pmk _ => pmk.zeroExtend 512
    aesWrap := fun _ x => x
    aesUnwrap := fun _ x => some x
    rc4Skip := fun _ x => x }
  gtkPrf := fun _ _ => List.replicate 32 1
  smkPrf := fun _ _ => []
  rsnPmkid := fun _ _ _ => []
  conf := {
    addr := 1#48
    protoWpa := false
    protoRsn := true
    wpaGroup := .ccmp
    eapolVersion := 2#8
    peerkey := false
    wpaIe := [48, 0] }
  cb := fun _ => answers

def frame (keyInfo : KeyInfo) (replayCounter : ReplayCounter) (body : Bytes) : EapolKey where
  version := 2#8
  ptype := ieee8021xTypeEapolKey
  length := BitVec.ofNat 16 (95 + body.length)
  type := eapolKeyTypeRsn
  keyInfo := keyInfo
  keyLength := 0#16
  replayCounter := replayCounter
  keyNonce := 33#256
  keyIv := 0#128
  keyRsc := 0#64
  keyId := 0#64
  keyMic := 0#128
  keyDataLength := BitVec.ofNat 16 body.length
  body := body

/-- The Key Information of messages 2/4 and 4/4, and of message 2/2. -/
def pairwiseInfo : KeyInfo := KeyInfo.hmacSha1Aes ||| KeyInfo.keyType ||| KeyInfo.mic
/-- A station appears, and is ready to be associated. -/
def join (id : StaId) (addr : MacAddr) : List Op :=
  [.staInit id addr 0, .validateWpaIe id ⟨.wpa2, .ccmp, .psk, none, some [48, 0]⟩,
    .smEvent id .assoc]

/-- A station appears, is associated and completes the 4-way handshake. -/
def connect (id : StaId) (addr : MacAddr) : List Op :=
  join id addr ++ [.staAssociated id,
    .receive id (frame pairwiseInfo 1#64 [48, 0]).toBytes,
    .receive id (frame pairwiseInfo 2#64 []).toBytes]

def group : Group := (wpaGroupInit setup answers answers).getD (Group.zero setup)

theorem reach_init {P : Auth → Op → Prop} : Reach setup P (wpaInit group) := .init rfl

end Small

end Hostapd.Ap.WpaAuth
