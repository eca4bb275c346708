import Hostapd.P2p.Events

/-!
# What happens beside a negotiation

Most of the module has nothing to do with GO negotiations: it searches for peers, queries services,
invites. What such a function may do to a negotiation and to the peer table is said once here.

* **`View`**: the part of the module that negotiations and the table consist of.
* **`Aside p q`**: from `p` to `q` the view has not changed. The module may have given up its
  negotiation, and may wait for another TX status; its pointers lead to entries of the table.
-/

namespace Hostapd.P2p

/-! ## The view -/

/-- A step of a negotiation as an entry keeps it, with the address of the peer. -/
structure Stance where
  deviceAddr : MacAddr
  goState : GoState
  wpsMethod : WpsMethod
  waitGoNegConfirm : Bool
  deriving DecidableEq

def P2pDevice.stance (d : P2pDevice) : Stance :=
  ⟨d.info.deviceAddr, d.goState, d.wpsMethod, d.flags.waitGoNegConfirm⟩

/-- The report of a negotiation that has succeeded. -/
def Out.completed? : Out → Option GoNegResults
  | .goNegCompleted res => if res.status = 0 then some res else none
  | _ => none

def Frame.isGoNeg : Frame → Bool
  | .goNegReq _ | .goNegResp _ | .goNegConf _ => true
  | _ => false

def MemError.freed? : MemError → Option ℕ
  | .freedInUse dev => some dev
  | _ => none

/-- The TX status of a frame that is not part of a negotiation. -/
def PendingAction.Other : PendingAction → Prop
  | .goNegRequest | .goNegResponse | .goNegConfirm => False
  | _ => True

@[ext] structure View where
  cfg : P2pConfig
  devices : List ℕ
  stance : ℕ → Stance
  busy : Option ℕ
  goIntent : UInt8
  opRegClass : UInt8
  opChannel : UInt8
  channels : P2pChannels
  settled : P2pChannels
  completed : List GoNegResults
  goNegGiven : List (MacAddr × Frame)
  freed : List ℕ

def P2pData.view (p2p : P2pData) : View where
  cfg := p2p.cfg
  devices := p2p.devices
  stance := fun d => (p2p.mem d).stance
  busy := p2p.busy
  goIntent := p2p.goIntent
  opRegClass := p2p.opRegClass
  opChannel := p2p.opChannel
  channels := p2p.channels
  settled := p2p.settled
  completed := p2p.out.filterMap Out.completed?
  goNegGiven := p2p.given.filter fun g => g.2.isGoNeg
  freed := p2p.errors.filterMap MemError.freed?

/-- Nothing has happened to negotiations, except that the own one may have been given up. -/
structure Aside (p q : P2pData) : Prop where
  view : q.view = p.view
  goNegPeer : ∀ d ∈ q.goNegPeer, d ∈ p.goNegPeer
  pending : q.pendingActionState = p.pendingActionState ∨ q.pendingActionState.Other
  invitePeer : ∀ d ∈ q.invitePeer, d ∈ p.invitePeer ∨ d ∈ p.devices
  sdPeer : ∀ d ∈ q.sdPeer, d ∈ p.sdPeer ∨ d ∈ p.devices
  pendingClientDiscGo : ∀ d ∈ q.pendingClientDiscGo, d ∈ p.pendingClientDiscGo ∨ d ∈ p.devices

/-! ## Small steps -/

section Steps

variable {p q r : P2pData}

theorem modify_view {dev : ℕ} {f : P2pDevice → P2pDevice} (h : ∀ d, (f d).stance = d.stance) :
    (p.modify dev f).view = p.view := by
  have hstance : ∀ d, ((p.modify dev f).mem d).stance = (p.mem d).stance := by
    intro d
    by_cases hd : d = dev
    · subst hd
      simp [P2pData.modify, h]
    · simp [P2pData.modify, Function.update_of_ne hd]
  ext1
  case stance => exact funext hstance
  all_goals rfl

theorem emit_view {o : Out} (h : o.completed? = none) : (p.emit o).view = p.view := by
  ext1
  case completed => simp [P2pData.view, P2pData.emit, h]
  all_goals rfl

theorem fault_view {bad : Bool} {e : MemError} (h : e.freed? = none) :
    (p.fault bad e).view = p.view := by
  ext1
  case freed => cases bad <;> simp [P2pData.view, P2pData.fault, h]
  all_goals rfl

namespace Aside

theorem devices (h : Aside p q) : q.devices = p.devices := congrArg View.devices h.view

theorem cfg (h : Aside p q) : q.cfg = p.cfg := congrArg View.cfg h.view

theorem stance (h : Aside p q) (d : ℕ) : (q.mem d).stance = (p.mem d).stance :=
  congrFun (congrArg View.stance h.view) d

theorem trans (h : Aside p q) (h' : Aside q r) : Aside p r where
  view := h'.view.trans h.view
  goNegPeer d hd := h.goNegPeer d (h'.goNegPeer d hd)
  pending := by
    rcases h'.pending with heq | hother
    · rw [heq]
      exact h.pending
    · exact .inr hother
  invitePeer d hd := (h'.invitePeer d hd).elim (h.invitePeer d) fun hq => .inr (h.devices ▸ hq)
  sdPeer d hd := (h'.sdPeer d hd).elim (h.sdPeer d) fun hq => .inr (h.devices ▸ hq)
  pendingClientDiscGo d hd :=
    (h'.pendingClientDiscGo d hd).elim (h.pendingClientDiscGo d) fun hq => .inr (h.devices ▸ hq)

theorem of_view (view : q.view = p.view) (goNegPeer : q.goNegPeer = p.goNegPeer)
    (pending : q.pendingActionState = p.pendingActionState)
    (invitePeer : q.invitePeer = p.invitePeer) (sdPeer : q.sdPeer = p.sdPeer)
    (pendingClientDiscGo : q.pendingClientDiscGo = p.pendingClientDiscGo) : Aside p q where
  view := view
  goNegPeer _ hd := goNegPeer ▸ hd
  pending := .inl pending
  invitePeer _ hd := .inl (invitePeer ▸ hd)
  sdPeer _ hd := .inl (sdPeer ▸ hd)
  pendingClientDiscGo _ hd := .inl (pendingClientDiscGo ▸ hd)

theorem refl (p : P2pData) : Aside p p := of_view rfl rfl rfl rfl rfl rfl

theorem other (h : Aside p q) (view : r.view = q.view) (goNegPeer : r.goNegPeer = q.goNegPeer)
    (pending : r.pendingActionState = q.pendingActionState)
    (invitePeer : r.invitePeer = q.invitePeer) (sdPeer : r.sdPeer = q.sdPeer)
    (pendingClientDiscGo : r.pendingClientDiscGo = q.pendingClientDiscGo) : Aside p r :=
  h.trans (of_view view goNegPeer pending invitePeer sdPeer pendingClientDiscGo)

theorem modify (h : Aside p q) (dev : ℕ) (f : P2pDevice → P2pDevice)
    (hf : ∀ d, (f d).stance = d.stance) : Aside p (q.modify dev f) :=
  h.other (modify_view hf) rfl rfl rfl rfl rfl

theorem setFlags (h : Aside p q) (dev : ℕ) (f : DevFlags → DevFlags)
    (hf : ∀ d, (f d).waitGoNegConfirm = d.waitGoNegConfirm) : Aside p (q.setFlags dev f) :=
  h.modify dev _ fun d => by simp [P2pDevice.stance, hf]

theorem emit (h : Aside p q) (o : Out) (ho : o.completed? = none) : Aside p (q.emit o) :=
  h.other (emit_view ho) rfl rfl rfl rfl rfl

theorem fault (h : Aside p q) (bad : Bool) (e : MemError) (he : e.freed? = none) :
    Aside p (q.fault bad e) :=
  h.other (fault_view he) rfl rfl rfl rfl rfl

theorem setState (h : Aside p q) (state : P2pState) : Aside p (q.setState state) :=
  h.other rfl rfl rfl rfl rfl rfl

theorem setTimeout (h : Aside p q) : Aside p q.setTimeout := h.other rfl rfl rfl rfl rfl rfl

theorem clearTimeout (h : Aside p q) : Aside p q.clearTimeout := h.other rfl rfl rfl rfl rfl rfl

theorem pend (h : Aside p q) (action : PendingAction) (ha : action.Other) :
    Aside p (q.pend action) :=
  h.trans ⟨rfl, fun _ hd => hd, .inr ha, fun _ hd => .inl hd, fun _ hd => .inl hd,
    fun _ hd => .inl hd⟩

theorem dropGoNegPeer (h : Aside p q) : Aside p { q with goNegPeer := none } :=
  h.trans ⟨rfl, fun _ hd => by simp at hd, .inl rfl, fun _ hd => .inl hd, fun _ hd => .inl hd,
    fun _ hd => .inl hd⟩

theorem dropSdPeer (h : Aside p q) : Aside p { q with sdPeer := none } :=
  h.trans ⟨rfl, fun _ hd => hd, .inl rfl, fun _ hd => .inl hd, fun _ hd => by simp at hd,
    fun _ hd => .inl hd⟩

theorem sendAction (h : Aside p q) (env : Env) (freq : ℤ) (dst : MacAddr) {frame : Frame}
    (hframe : frame.isGoNeg = false) : Aside p (sendAction env q freq dst frame).1 := by
  have hgiven : ((q.given ++ [(dst, frame)]).filter fun g => g.2.isGoNeg) =
      q.given.filter fun g => g.2.isGoNeg := by
    simp [hframe]
  unfold P2p.sendAction
  split_ifs
  · refine h.other ?_ rfl rfl rfl rfl rfl
    ext1
    case goNegGiven => exact hgiven
    all_goals rfl
  · exact h.other rfl rfl rfl rfl rfl rfl
  · refine h.other ?_ rfl rfl rfl rfl rfl
    ext1
    case goNegGiven => exact hgiven
    case completed => simp [P2pData.view, P2pData.emit, Out.completed?]
    all_goals rfl
  · exact h

theorem sendOrRetry (h : Aside p q) (env : Env) (freq : ℤ) (dst : MacAddr) {frame : Frame}
    (hframe : frame.isGoNeg = false) : Aside p (sendOrRetry env q freq dst frame) := by
  have hsend := h.sendAction env freq dst hframe
  unfold P2p.sendOrRetry
  cases hs : P2p.sendAction env q freq dst frame with
  | mk r sent =>
    rw [hs] at hsend
    cases sent with
    | true => exact hsend
    | false => exact hsend.setTimeout

end Aside

end Steps

/-! ## Functions that negotiations have nothing to do with -/

section Functions

variable (env : Env) {p : P2pData}

theorem getDevice_mem {addr : MacAddr} {d : ℕ} (h : p.getDevice addr = some d) : d ∈ p.devices :=
  List.mem_of_find?_eq_some h

theorem listenInFind_aside (usec : ℕ) : Aside p (listenInFind env p usec) := by
  unfold listenInFind
  split
  · exact .refl p
  · dsimp only
    split_ifs
    · exact .of_view rfl rfl rfl rfl rfl rfl
    · refine Aside.emit ?_ _ rfl
      exact .of_view rfl rfl rfl rfl rfl rfl
    · exact .of_view rfl rfl rfl rfl rfl rfl

theorem startSd_aside {dev : ℕ} (hdev : dev ∈ p.devices) : Aside p (startSd env p dev).1 := by
  unfold startSd
  dsimp only
  split_ifs
  · exact .refl p
  · exact .refl p
  · exact .refl p
  · refine Aside.sendAction ?_ env _ _ rfl
    refine ⟨rfl, fun _ hd => hd, .inr trivial, fun _ hd => .inl hd, ?_, fun _ hd => .inl hd⟩
    intro d hd
    obtain rfl : dev = d := Option.some.inj hd
    exact .inr hdev

theorem sendProvDiscReq_aside (dev : ℕ) (join : Bool) :
    Aside p (sendProvDiscReq env p dev join).1 := by
  unfold sendProvDiscReq
  dsimp only
  have htoken := (Aside.refl p).modify dev
    (fun d => { d with dialogToken := nextDialogToken (p.mem dev).dialogToken }) fun _ => rfl
  split_ifs
  · exact .refl p
  · exact .refl p
  · exact htoken
  · exact (htoken.pend .pd trivial).sendAction env _ _ rfl

theorem continueWith_aside {devs : List ℕ} (hdevs : ∀ d ∈ devs, d ∈ p.devices) :
    Aside p (continueWith env p devs).1 := by
  induction devs generalizing p with
  | nil => exact .refl p
  | cons dev devs ih =>
    have hrest : ∀ d ∈ devs, d ∈ p.devices := fun d hd => hdevs d (List.mem_cons_of_mem dev hd)
    unfold continueWith
    dsimp only
    split_ifs
    · exact startSd_aside env (hdevs dev List.mem_cons_self)
    · have hpd := sendProvDiscReq_aside env (p := p) dev false
      cases hsend : sendProvDiscReq env p dev false with
      | mk q sent =>
        rw [hsend] at hpd
        cases sent with
        | true => exact hpd
        | false => exact hpd.trans (ih fun d hd => hpd.devices.symm ▸ hrest d hd)
    · exact ih hrest

theorem continueFind_aside (usec : ℕ) : Aside p (continueFind env p usec) := by
  have hwith : Aside p (continueWith env (p.setState .search) p.devices).1 :=
    ((Aside.refl p).setState .search).trans (continueWith_aside env fun _ hd => hd)
  unfold continueFind
  cases hsend : continueWith env (p.setState .search) p.devices with
  | mk q sent =>
    rw [hsend] at hwith
    cases sent with
    | true => exact hwith
    | false => exact hwith.trans (listenInFind_aside env usec)

theorem search_aside (usec : ℕ) : Aside p (search env p usec) := by
  have hstop := (Aside.refl p).emit .stopListen rfl
  unfold search
  dsimp only
  split_ifs
  · exact .refl p
  · exact (hstop.emit .p2pScan rfl).other rfl rfl rfl rfl rfl rfl
  · exact hstop.trans (continueFind_aside env usec)

theorem listenAfterScan_aside : Aside p (listenAfterScan env p) := by
  unfold listenAfterScan
  split
  · exact .refl p
  · dsimp only
    split_ifs
    · exact .of_view rfl rfl rfl rfl rfl rfl
    · exact .of_view rfl rfl rfl rfl rfl rfl
    · refine (Aside.emit ?_ _ rfl).setState _
      exact .of_view rfl rfl rfl rfl rfl rfl
    · exact .of_view rfl rfl rfl rfl rfl rfl

theorem sendDevDiscReq_aside (dev : ℕ) : Aside p (sendDevDiscReq env p dev).1 := by
  unfold sendDevDiscReq
  cases hgo : p.getDevice (p.mem dev).memberInGoDev with
  | none => exact .refl p
  | some go =>
    have hmem : go ∈ p.devices := getDevice_mem hgo
    have htoken := (Aside.refl p).modify go
      (fun d => { d with dialogToken := nextDialogToken (p.mem go).dialogToken }) fun _ => rfl
    dsimp only
    split_ifs
    · exact .refl p
    · exact .refl p
    · refine Aside.sendAction (htoken.trans ?_) env _ _ rfl
      refine ⟨rfl, fun _ hd => hd, .inr trivial, fun _ hd => .inl hd, fun _ hd => .inl hd, ?_⟩
      intro d hd
      obtain rfl : go = d := Option.some.inj hd
      exact .inr hmem

theorem sendDevDiscResp_aside (token : UInt8) (addr : MacAddr) (freq : ℤ) (status : UInt8) :
    Aside p (sendDevDiscResp env p token addr freq status) := by
  unfold sendDevDiscResp
  dsimp only
  split_ifs
  · exact .refl p
  · exact ((Aside.refl p).pend .devDiscResponse trivial).sendAction env _ _ rfl

theorem goDiscReqCb_aside (success : Bool) : Aside p (goDiscReqCb env p success) := by
  have hdone := (Aside.refl p).emit .sendActionDone rfl
  unfold goDiscReqCb
  dsimp only
  split
  · exact hdone
  · exact (hdone.trans (sendDevDiscResp_aside env _ _ _ _)).other rfl rfl rfl rfl rfl rfl

theorem goNegFailed_aside (peer : Option ℕ) {status : ℤ} (h : status ≠ 0) :
    Aside p (goNegFailed p peer status) := by
  have hdrop : Aside p { p.clearTimeout.setState .idle with goNegPeer := none } :=
    ((Aside.refl p).clearTimeout.setState .idle).dropGoNegPeer
  unfold goNegFailed
  cases peer with
  | none => exact hdrop.emit _ (if_neg h)
  | some dev => exact hdrop.emit _ (if_neg h)

theorem stopFindForFreq_aside (freq : ℤ) : Aside p (stopFindForFreq p freq) := by
  have hstop : Aside p
      { p.clearTimeout.setState .idle with
        startAfterScan := .nothing
        goNegPeer := none
        sdPeer := none
        invitePeer := none } := by
    refine ⟨rfl, ?_, .inl rfl, ?_, ?_, fun _ hd => .inl hd⟩
    · exact fun _ hd => by simp at hd
    · exact fun _ hd => by simp at hd
    · exact fun _ hd => by simp at hd
  unfold stopFindForFreq
  dsimp only
  split_ifs
  · exact hstop
  · exact hstop.emit _ rfl

theorem stopUnlessIdle_aside (freq : ℤ) : Aside p (stopUnlessIdle p freq) := by
  unfold stopUnlessIdle
  split_ifs
  · exact stopFindForFreq_aside freq
  · exact .refl p

theorem peerChannelsCheck_aside (own : P2pChannels) (dev : ℕ) (channelList : Bytes) :
    Aside p (peerChannelsCheck p own dev channelList).1 := by
  have hclear := (Aside.refl p).modify dev (fun d => { d with channels := .empty }) fun _ => rfl
  unfold peerChannelsCheck
  dsimp only
  split
  · split_ifs
    all_goals dsimp only
    · exact hclear.modify _ _ fun _ => rfl
    · refine Aside.modify ?_ _ _ fun _ => rfl
      exact hclear.modify _ _ fun _ => rfl
    · refine Aside.modify ?_ _ _ fun _ => rfl
      exact hclear.modify _ _ fun _ => rfl
  · exact hclear

theorem answerInvitation_aside (sa : MacAddr) (msg : P2pMessage) (decision : InvitationDecision)
    (answer : InvitationAnswer) (rxFreq : ℤ) :
    Aside p (answerInvitation env p sa msg decision answer rxFreq) := by
  unfold answerInvitation
  dsimp only
  split_ifs
  all_goals
    first
    | exact .refl p
    | split
      · exact .refl p
      · refine (Aside.pend ?_ .invitationResponse trivial).sendAction env _ _ rfl
        refine Aside.fault ?_ _ _ rfl
        exact .of_view rfl rfl rfl rfl rfl rfl

theorem judgeInvitationReq_aside (dev : ℕ) (sa : MacAddr) (msg : P2pMessage) (rxFreq : ℤ) :
    Aside p (judgeInvitationReq env p dev sa msg rxFreq) := by
  unfold judgeInvitationReq refuseInvitation
  split
  · rename_i groupId channelList _ _
    have hcheck := peerChannelsCheck_aside (p := p) p.cfg.channels dev channelList
    cases h : peerChannelsCheck p p.cfg.channels dev channelList with
    | mk q common =>
      rw [h] at hcheck
      cases common with
      | false => exact hcheck.trans (answerInvitation_aside env _ _ _ _ _)
      | true => exact hcheck.trans (answerInvitation_aside env _ _ _ _ _)
  · exact answerInvitation_aside env _ _ _ _ _

theorem inviteSend_aside {dev : ℕ} (hdev : dev ∈ p.invitePeer ∨ dev ∈ p.devices)
    (goDevAddr : Option MacAddr) : Aside p (inviteSend env p dev goDevAddr).1 := by
  have htoken := (Aside.refl p).modify dev
    (fun d => { d with dialogToken := nextDialogToken (p.mem dev).dialogToken }) fun _ => rfl
  unfold inviteSend
  dsimp only
  split_ifs
  · exact .refl p
  · exact .refl p
  · refine Aside.sendOrRetry ?_ env _ _ rfl
    refine Aside.modify (htoken.trans ?_) _ _ fun _ => rfl
    refine ⟨rfl, fun _ hd => hd, .inr trivial, ?_, fun _ hd => .inl hd, fun _ hd => .inl hd⟩
    intro d hd
    obtain rfl : dev = d := Option.some.inj hd
    exact hdev

theorem processInvitationResp_aside (sa : MacAddr) (msg : Option P2pMessage) :
    Aside p (processInvitationResp p sa msg) := by
  unfold processInvitationResp
  split
  · split_ifs
    · exact .refl p
    · rename_i status _ _ _
      have hresult := ((Aside.refl p).emit
        (.invitationResult status.toNat (msg.bind P2pMessage.groupBssid)) rfl).clearTimeout.setState
        .idle
      refine hresult.trans ?_
      exact ⟨rfl, fun _ hd => hd, .inl rfl, fun _ hd => by simp at hd, fun _ hd => .inl hd,
        fun _ hd => .inl hd⟩
  · exact .refl p

/-! ### Entries -/

theorem copySsid_aside (dev : ℕ) (ssid : Option Bytes) : Aside p (copySsid p dev ssid) := by
  unfold copySsid
  split
  · exact .refl p
  · dsimp only
    split_ifs
    · exact .refl p
    · refine Aside.fault ?_ _ _ rfl
      exact (Aside.refl p).modify _ _ fun _ => rfl

theorem copyWpsInfo_aside (dev : ℕ) (probeReq : Bool) (msg : P2pMessage) :
    Aside p (copyWpsInfo p dev probeReq msg) := by
  unfold copyWpsInfo
  refine Aside.fault ?_ _ _ rfl
  exact (Aside.refl p).modify _ _ fun _ => rfl

theorem fillDevice_aside (dev : ℕ) (addr devAddr : MacAddr) (freq level : ℤ) (msg : P2pMessage) :
    Aside p (fillDevice env p dev addr devAddr freq level msg) := by
  unfold fillDevice
  dsimp only
  refine Aside.modify ?_ _ _ fun _ => rfl
  refine Aside.trans ?_ (copyWpsInfo_aside dev false msg)
  refine Aside.modify ?_ _ _ fun _ => rfl
  refine Aside.trans ?_ (copySsid_aside dev msg.ssid)
  exact (Aside.refl p).modify _ _ fun _ => rfl

theorem reportDevice_aside (dev : ℕ) (addr : MacAddr) : Aside p (reportDevice p dev addr) := by
  have hsched : Aside p (if pendingSdReq p dev then
      p.setFlags dev fun f => { f with sdSchedule := true } else p) := by
    split_ifs
    · exact (Aside.refl p).setFlags _ _ fun _ => rfl
    · exact .refl p
  unfold reportDevice
  dsimp only
  generalize (if pendingSdReq p dev = true then
      p.setFlags dev fun f => { f with sdSchedule := true } else p) = q at hsched ⊢
  split_ifs
  · exact hsched
  · exact hsched
  · exact (hsched.emit _ rfl).setFlags _ _ fun _ => rfl

theorem reportDevInfo_aside (addr : MacAddr) (dev : ℕ) : Aside p (reportDevInfo p addr dev) := by
  have hdirect := (Aside.refl p).setFlags dev
    (fun f => { f with probeReqOnly := false, groupClientOnly := false }) fun _ => rfl
  unfold reportDevInfo
  dsimp only
  split_ifs
  · exact hdirect
  · exact (hdirect.emit _ rfl).setFlags _ _ fun _ => rfl

theorem addDevInfo_aside (addr : MacAddr) (dev : ℕ) (msg : P2pMessage) :
    Aside p (addDevInfo env p addr dev msg) := by
  have hcopy := ((Aside.refl p).modify dev (fun d => { d with lastSeen := env.clock 0 })
    fun _ => rfl).trans (copyWpsInfo_aside dev false msg)
  unfold addDevInfo
  dsimp only
  refine Aside.trans ?_ (reportDevInfo_aside addr dev)
  split
  · exact hcopy
  · exact hcopy.modify _ _ fun _ => rfl

theorem copyClientInfo_aside (dev : ℕ) (cli : ClientInfo) :
    Aside p (copyClientInfo p dev cli) := by
  unfold copyClientInfo
  refine Aside.fault ?_ _ _ rfl
  exact (Aside.refl p).modify _ _ fun _ => rfl

theorem updateClient_aside (dev : ℕ) (cli : ClientInfo) : Aside p (updateClient p dev cli) := by
  unfold updateClient
  dsimp only
  refine Aside.setFlags ?_ _ _ fun _ => rfl
  split_ifs
  · exact copyClientInfo_aside dev cli
  · exact .refl p

theorem newClient_aside (dev : ℕ) (cli : ClientInfo) (freq : ℤ) :
    Aside p (newClient p dev cli freq) := by
  unfold newClient
  dsimp only
  refine Aside.setFlags ?_ _ _ fun _ => rfl
  refine Aside.emit ?_ _ rfl
  refine Aside.modify ?_ _ _ fun _ => rfl
  refine Aside.trans ?_ (copyClientInfo_aside dev cli)
  exact (Aside.refl p).setFlags _ _ fun _ => rfl

/-! ### TX status and timers -/

theorem goNegReqCb_aside (success : Bool) : Aside p (goNegReqCb env p success) := by
  unfold goNegReqCb
  cases p.goNegPeer with
  | none => exact .refl p
  | some dev =>
    have hcount : Aside p (if success then
        p.modify dev fun d => { d with goNegReqSent := d.goNegReqSent + 1 } else p) := by
      split_ifs
      · exact (Aside.refl p).modify _ _ fun _ => rfl
      · exact .refl p
    dsimp only
    generalize (if success = true then
        p.modify dev fun d => { d with goNegReqSent := d.goNegReqSent + 1 } else p) = q at hcount ⊢
    split_ifs
    · exact hcount.setState _
    · exact (hcount.emit _ rfl).trans (sendDevDiscReq_aside env dev)
    · exact (hcount.setState _).setTimeout

theorem goNegRespCb_aside : Aside p (goNegRespCb p) := by
  unfold goNegRespCb
  split_ifs
  · exact .refl p
  · exact ((Aside.refl p).setState _).setTimeout

theorem goNegRespFailureCb_aside : Aside p (goNegRespFailureCb p) := by
  unfold goNegRespFailureCb
  cases p.goNegPeer with
  | none => exact .refl p
  | some dev =>
    dsimp only
    split_ifs with hstatus
    · refine goNegFailed_aside (some dev) ?_
      intro hzero
      refine hstatus (UInt8.toNat_inj.mp ?_)
      exact_mod_cast hzero
    · exact .refl p

theorem sdCb_aside (success : Bool) (usec : ℕ) : Aside p (sdCb env p success usec) := by
  unfold sdCb
  split
  · rename_i dev _
    have hflag := (Aside.refl p).setFlags dev (fun f => { f with sdSchedule := false })
      fun _ => rfl
    exact hflag.dropSdPeer.trans (continueFind_aside env usec)
  · exact continueFind_aside env usec
  · exact ((Aside.refl p).setState _).setTimeout

theorem provDiscCb_aside (success : Bool) (usec : ℕ) :
    Aside p (provDiscCb env p success usec) := by
  unfold provDiscCb
  split_ifs
  · exact ((Aside.refl p).setState _).setTimeout
  · exact (Aside.refl p).setTimeout
  · exact continueFind_aside env usec
  · exact .refl p

theorem invitationReqCb_aside : Aside p (invitationReqCb p) := by
  unfold invitationReqCb
  split
  · exact .refl p
  · exact ((Aside.refl p).setState _).setTimeout

theorem invitationRespCb_aside (success : Bool) : Aside p (invitationRespCb p success) := by
  have hdone := (Aside.refl p).emit .sendActionDone rfl
  unfold invitationRespCb
  dsimp only
  split_ifs
  · exact hdone.emit _ rfl
  · exact hdone

theorem devDiscReqCb_aside (success : Bool) : Aside p (devDiscReqCb p success) := by
  unfold devDiscReqCb
  split_ifs
  · exact .refl p
  · exact ((Aside.refl p).setState _).setTimeout

theorem sendActionCb_aside (h : p.pendingActionState ≠ .goNegConfirm) (result : SendActionResult)
    (usec : ℕ) : Aside p (sendActionCb env p result usec) := by
  have hclear := (Aside.refl p).pend .noPendingAction trivial
  unfold sendActionCb
  dsimp only
  cases hstate : p.pendingActionState with
  | noPendingAction => exact hclear
  | goNegRequest => exact hclear.trans (goNegReqCb_aside env _)
  | goNegResponse => exact hclear.trans goNegRespCb_aside
  | goNegResponseFailure => exact hclear.trans goNegRespFailureCb_aside
  | goNegConfirm => exact absurd hstate h
  | sd => exact hclear.trans (sdCb_aside env _ usec)
  | pd => exact hclear.trans (provDiscCb_aside env _ usec)
  | invitationRequest => exact hclear.trans invitationReqCb_aside
  | invitationResponse => exact hclear.trans (invitationRespCb_aside _)
  | devDiscRequest => exact hclear.trans (devDiscReqCb_aside _)
  | devDiscResponse => exact hclear.emit _ rfl
  | goDiscReq => exact hclear.trans (goDiscReqCb_aside env _)

theorem timeoutWaitPeerIdle_aside (usec : ℕ) : Aside p (timeoutWaitPeerIdle env p usec) := by
  unfold timeoutWaitPeerIdle
  cases p.goNegPeer with
  | none => exact .refl p
  | some dev =>
    have hcount := (Aside.refl p).modify dev (fun d => { d with waitCount := d.waitCount + 1 })
      fun _ => rfl
    dsimp only
    split_ifs
    · exact hcount.trans (goNegFailed_aside _ (by decide))
    · exact (hcount.setState _).trans (listenInFind_aside env usec)

theorem timeoutSdDuringFind_aside (usec : ℕ) : Aside p (timeoutSdDuringFind env p usec) := by
  unfold timeoutSdDuringFind
  split
  · exact continueFind_aside env usec
  · rename_i dev _
    have hflag := ((Aside.refl p).emit .sendActionDone rfl).setFlags dev
      (fun f => { f with sdSchedule := false }) fun _ => rfl
    exact hflag.dropSdPeer.trans (continueFind_aside env usec)

theorem timeoutInvite_aside (usec : ℕ) : Aside p (timeoutInvite env p usec) := by
  have hlisten := ((Aside.refl p).emit .sendActionDone rfl).setState .inviteListen
  unfold timeoutInvite
  dsimp only
  split_ifs
  · exact hlisten.setTimeout
  · exact hlisten.trans (listenInFind_aside env usec)

theorem timeoutInviteListen_aside : Aside p (timeoutInviteListen env p) := by
  unfold timeoutInviteListen
  cases hpeer : p.invitePeer with
  | none => exact (Aside.refl p).setState _
  | some dev =>
    have hinvite : dev ∈ (p.setState .invite).invitePeer := hpeer
    dsimp only
    split_ifs
    · exact ((Aside.refl p).setState .invite).trans (inviteSend_aside env (.inl hinvite) _)
    · exact ((Aside.refl p).emit _ rfl).setState _

theorem listenCb_aside (freq : ℕ) : Aside p (listenCb p freq) := by
  unfold listenCb
  dsimp only
  split_ifs
  · exact .refl p
  · exact .of_view rfl rfl rfl rfl rfl rfl
  · exact .of_view rfl rfl rfl rfl rfl rfl

theorem inviteStart_aside : Aside p (inviteStart env p) := by
  unfold inviteStart
  cases hpeer : p.invitePeer with
  | none => exact .refl p
  | some dev =>
    have hinvite : dev ∈ (p.emit .stopListen).invitePeer := hpeer
    exact ((Aside.refl p).emit .stopListen rfl).trans (inviteSend_aside env (.inl hinvite) _)

theorem clearGoNeg_aside : Aside p (clearGoNeg p) :=
  ((Aside.refl p).clearTimeout.setState .idle).dropGoNegPeer

theorem wpsSuccessCb_aside (macAddr : MacAddr) : Aside p (wpsSuccessCb p macAddr) := by
  unfold wpsSuccessCb
  split
  · exact .refl p
  · split_ifs
    · exact clearGoNeg_aside
    · exact .refl p

theorem groupFormationFailed_aside : Aside p (groupFormationFailed p) := by
  unfold groupFormationFailed
  split_ifs
  · exact clearGoNeg_aside
  · exact .refl p

theorem reject_aside (addr : MacAddr) : Aside p (reject p addr) := by
  unfold reject
  split
  · exact .refl p
  · exact (Aside.refl p).modify _ _ fun _ => rfl

end Functions

end Hostapd.P2p
