import Hostapd.P2p.Aside

/-!
# Functions that leave the entries in place

* **`Steady p q`**: from `p` to `q` the entries are the same, with their addresses, and the pointers
  of the module lead to some of them. All functions are like this that neither create nor remove an
  entry; this includes the whole of the negotiation.
-/

namespace Hostapd.P2p

/-! ## Entries in place -/

def P2pData.addr (p2p : P2pData) (dev : ℕ) : MacAddr := (p2p.mem dev).info.deviceAddr

/-- The entries that were freed while they were in use. -/
def P2pData.freed (p2p : P2pData) : List ℕ := p2p.errors.filterMap MemError.freed?

/-- The entries are the same, and the pointers of the module lead to some of them. -/
structure Steady (p q : P2pData) : Prop where
  cfg : q.cfg = p.cfg
  devices : q.devices = p.devices
  addr : q.addr = p.addr
  busy : q.busy = p.busy
  freed : q.freed = p.freed
  goNegPeer : ∀ d ∈ q.goNegPeer, d ∈ p.goNegPeer ∨ d ∈ p.devices
  invitePeer : ∀ d ∈ q.invitePeer, d ∈ p.invitePeer ∨ d ∈ p.devices
  sdPeer : ∀ d ∈ q.sdPeer, d ∈ p.sdPeer ∨ d ∈ p.devices
  pendingClientDiscGo : ∀ d ∈ q.pendingClientDiscGo, d ∈ p.pendingClientDiscGo ∨ d ∈ p.devices

theorem Aside.steady {p q : P2pData} (h : Aside p q) : Steady p q where
  cfg := h.cfg
  devices := h.devices
  addr := funext fun d => congrArg Stance.deviceAddr (h.stance d)
  busy := congrArg View.busy h.view
  freed := congrArg View.freed h.view
  goNegPeer d hd := .inl (h.goNegPeer d hd)
  invitePeer := h.invitePeer
  sdPeer := h.sdPeer
  pendingClientDiscGo := h.pendingClientDiscGo

namespace Steady

variable {p q r : P2pData}

theorem trans (h : Steady p q) (h' : Steady q r) : Steady p r where
  cfg := h'.cfg.trans h.cfg
  devices := h'.devices.trans h.devices
  addr := h'.addr.trans h.addr
  busy := h'.busy.trans h.busy
  freed := h'.freed.trans h.freed
  goNegPeer d hd := (h'.goNegPeer d hd).elim (h.goNegPeer d) fun hq => .inr (h.devices ▸ hq)
  invitePeer d hd := (h'.invitePeer d hd).elim (h.invitePeer d) fun hq => .inr (h.devices ▸ hq)
  sdPeer d hd := (h'.sdPeer d hd).elim (h.sdPeer d) fun hq => .inr (h.devices ▸ hq)
  pendingClientDiscGo d hd :=
    (h'.pendingClientDiscGo d hd).elim (h.pendingClientDiscGo d) fun hq => .inr (h.devices ▸ hq)

theorem refl (p : P2pData) : Steady p p := (Aside.refl p).steady

theorem other (h : Steady p q) (cfg : r.cfg = q.cfg) (devices : r.devices = q.devices)
    (mem : r.mem = q.mem) (busy : r.busy = q.busy) (errors : r.errors = q.errors)
    (goNegPeer : r.goNegPeer = q.goNegPeer) (invitePeer : r.invitePeer = q.invitePeer)
    (sdPeer : r.sdPeer = q.sdPeer)
    (pendingClientDiscGo : r.pendingClientDiscGo = q.pendingClientDiscGo) : Steady p r := by
  refine h.trans ⟨cfg, devices, ?_, busy, ?_, ?_, ?_, ?_, ?_⟩
  · exact funext fun d => by unfold P2pData.addr; rw [mem]
  · unfold P2pData.freed
    rw [errors]
  · exact fun d hd => .inl (goNegPeer ▸ hd)
  · exact fun d hd => .inl (invitePeer ▸ hd)
  · exact fun d hd => .inl (sdPeer ▸ hd)
  · exact fun d hd => .inl (pendingClientDiscGo ▸ hd)

theorem modify (h : Steady p q) (dev : ℕ) (f : P2pDevice → P2pDevice)
    (hf : ∀ d, (f d).info.deviceAddr = d.info.deviceAddr) : Steady p (q.modify dev f) := by
  refine h.trans ⟨rfl, rfl, ?_, rfl, rfl, fun _ hd => .inl hd, fun _ hd => .inl hd,
    fun _ hd => .inl hd, fun _ hd => .inl hd⟩
  funext d
  by_cases hd : d = dev
  · subst hd
    simp [P2pData.addr, P2pData.modify, hf]
  · simp [P2pData.addr, P2pData.modify, Function.update_of_ne hd]

theorem setFlags (h : Steady p q) (dev : ℕ) (f : DevFlags → DevFlags) :
    Steady p (q.setFlags dev f) := h.modify dev _ fun _ => rfl

theorem emit (h : Steady p q) (o : Out) : Steady p (q.emit o) :=
  h.other rfl rfl rfl rfl rfl rfl rfl rfl rfl

theorem setState (h : Steady p q) (state : P2pState) : Steady p (q.setState state) :=
  h.other rfl rfl rfl rfl rfl rfl rfl rfl rfl

theorem pend (h : Steady p q) (action : PendingAction) : Steady p (q.pend action) :=
  h.other rfl rfl rfl rfl rfl rfl rfl rfl rfl

theorem clearTimeout (h : Steady p q) : Steady p q.clearTimeout :=
  h.other rfl rfl rfl rfl rfl rfl rfl rfl rfl

theorem sendAction (h : Steady p q) (env : Env) (freq : ℤ) (dst : MacAddr) (frame : Frame) :
    Steady p (sendAction env q freq dst frame).1 := by
  unfold P2p.sendAction
  split_ifs
  · exact h.other rfl rfl rfl rfl rfl rfl rfl rfl rfl
  · exact h.other rfl rfl rfl rfl rfl rfl rfl rfl rfl
  · exact h.other rfl rfl rfl rfl rfl rfl rfl rfl rfl
  · exact h

theorem sendOrRetry (h : Steady p q) (env : Env) (freq : ℤ) (dst : MacAddr) (frame : Frame) :
    Steady p (sendOrRetry env q freq dst frame) := by
  have hsend := h.sendAction env freq dst frame
  unfold P2p.sendOrRetry
  cases hs : P2p.sendAction env q freq dst frame with
  | mk r sent =>
    rw [hs] at hsend
    cases sent with
    | true => exact hsend
    | false => exact hsend.other rfl rfl rfl rfl rfl rfl rfl rfl rfl

theorem setGoNegPeer (h : Steady p q) {dev : ℕ} (hdev : dev ∈ p.goNegPeer ∨ dev ∈ p.devices) :
    Steady p (q.setGoNegPeer dev) where
  cfg := h.cfg
  devices := h.devices
  addr := h.addr
  busy := h.busy
  freed := h.freed
  goNegPeer d hd := by
    obtain rfl : dev = d := Option.some.inj hd
    exact hdev
  invitePeer := h.invitePeer
  sdPeer := h.sdPeer
  pendingClientDiscGo := h.pendingClientDiscGo

end Steady

section Negotiation

variable (env : Env) {p : P2pData}

variable {dev : ℕ}

theorem connectSend_steady (hdev : dev ∈ p.goNegPeer ∨ dev ∈ p.devices) :
    Steady p (connectSend env p dev).1 := by
  unfold connectSend
  dsimp only
  split_ifs
  · exact .refl p
  · exact .refl p
  · refine Steady.sendOrRetry ?_ env _ _ _
    refine Steady.modify ?_ _ _ fun _ => rfl
    refine Steady.setGoNegPeer ?_ hdev
    have htoken := (Steady.refl p).modify dev
      (fun d => { d with dialogToken := nextDialogToken (p.mem dev).dialogToken }) fun _ => rfl
    refine (Steady.setState ?_ _).pend _
    exact htoken.other rfl rfl rfl rfl rfl rfl rfl rfl rfl

theorem settleChannel_steady (dev : ℕ) : Steady p (settleChannel env p dev).1 := by
  unfold settleChannel
  dsimp only
  split_ifs
  · exact .refl p
  · exact (Steady.refl p).other rfl rfl rfl rfl rfl rfl rfl rfl rfl
  · exact (Steady.refl p).other rfl rfl rfl rfl rfl rfl rfl rfl rfl

theorem goComplete_steady (peer : ℕ) : Steady p (goComplete env p peer) := by
  unfold goComplete
  refine (Steady.setState ?_ _).emit _
  exact (Steady.refl p).clearTimeout.modify _ _ fun _ => rfl

theorem acceptGoNegReq_steady {q : P2pData} (h : Steady p q)
    (hdev : dev ∈ p.goNegPeer ∨ dev ∈ p.devices) (msg : P2pMessage) (attrs : GoNegReqAttrs)
    (go : Bool) (rxFreq : ℤ) : Steady p (acceptGoNegReq q dev msg attrs go rxFreq) := by
  unfold acceptGoNegReq
  dsimp only
  refine Steady.setGoNegPeer ?_ hdev
  refine Steady.modify ?_ _ _ fun _ => rfl
  refine (Steady.setState ?_ _).clearTimeout
  refine Steady.trans ?_ (stopUnlessIdle_aside rxFreq).steady
  exact h.modify _ _ fun _ => rfl

theorem startAuthorized_steady (dev : ℕ) : Steady p (startAuthorized p dev) := by
  unfold startAuthorized
  split_ifs
  · exact .refl p
  · exact (Steady.refl p).other rfl rfl rfl rfl rfl rfl rfl rfl rfl

theorem settleAs_steady (go : Bool) (dev : ℕ) :
    Steady p (settleAs env p go dev).1 := by
  cases go with
  | false => exact .refl p
  | true => exact settleChannel_steady env dev

theorem negotiate_steady (hdev : dev ∈ p.goNegPeer ∨ dev ∈ p.devices) (sa : MacAddr)
    (msg : P2pMessage) (attrs : GoNegReqAttrs) (rxFreq : ℤ) :
    Steady p (negotiate env p dev sa msg attrs rxFreq).1 := by
  have hstart : Steady p
      ((startAuthorized p dev).setFlags dev fun f => { f with notYetReady := false }) :=
    (startAuthorized_steady dev).setFlags _ _
  unfold negotiate
  dsimp only
  generalize ((startAuthorized p dev).setFlags dev fun f =>
    { f with notYetReady := false }) = q at hstart ⊢
  cases msg.goIntent with
  | none => exact hstart
  | some intent =>
    dsimp only
    split_ifs
    · exact hstart
    · exact hstart
    · cases goDet q.goIntent intent with
      | none => exact hstart
      | some go =>
        have hcheck := hstart.trans (peerChannelsCheck_aside q.channels dev attrs.channelList).steady
        dsimp only
        cases h : peerChannelsCheck q q.channels dev attrs.channelList with
        | mk r common =>
          rw [h] at hcheck
          cases common with
          | false => exact hcheck
          | true =>
            dsimp only at hcheck ⊢
            split_ifs
            · exact hcheck
            · have hsettle := hcheck.trans (settleAs_steady env go dev)
              cases hs : settleAs env r go dev with
              | mk t settled =>
                rw [hs] at hsettle
                cases settled with
                | false => exact hsettle
                | true => exact acceptGoNegReq_steady hsettle hdev msg attrs go rxFreq

theorem judgeGoNegReq_steady {o : Option ℕ} (ho : ∀ d ∈ o, d ∈ p.devices) (sa : MacAddr)
    (msg : P2pMessage) (attrs : GoNegReqAttrs) (rxFreq : ℤ) :
    Steady p (judgeGoNegReq env p o sa msg attrs rxFreq).1 := by
  unfold judgeGoNegReq
  cases o with
  | none => exact (Steady.refl p).emit _
  | some d =>
    dsimp only
    split_ifs
    · exact .refl p
    · exact ((Steady.refl p).setFlags _ _).emit _
    · exact .refl p
    · exact negotiate_steady env (.inr (ho d rfl)) sa msg attrs rxFreq

theorem recordStatus_aside (o : Option ℕ) (status : UInt8) :
    Aside p (recordStatus p o status) := by
  cases o with
  | none => exact .refl p
  | some d => exact (Aside.refl p).modify d (fun e => { e with status := status }) fun _ => rfl

theorem awaitConfirm_steady (o : Option ℕ) (status : UInt8) :
    Steady p (awaitConfirm p o status) := by
  unfold awaitConfirm
  split_ifs
  · cases o with
    | none => exact (Steady.refl p).pend _
    | some d => exact ((Steady.refl p).pend _).setFlags _ _
  · exact (Steady.refl p).pend _

theorem answerGoNegReq_steady (o : Option ℕ) (sa : MacAddr) (msg : P2pMessage) (status : UInt8)
    (rxFreq : ℤ) : Steady p (answerGoNegReq env p o sa msg status rxFreq) := by
  have hstatus : Steady p (recordStatus p o status) := (recordStatus_aside o status).steady
  unfold answerGoNegReq
  dsimp only
  split_ifs
  · exact hstatus
  · split
    · exact hstatus
    · exact (hstatus.trans (awaitConfirm_steady o status)).sendAction env _ _ _

/-! ### Response and confirmation -/

theorem takeGroupId_aside (groupId : Option GroupId) : Aside p (takeGroupId p groupId) := by
  unfold takeGroupId
  split
  · refine Aside.fault ?_ _ _ rfl
    exact .of_view rfl rfl rfl rfl rfl rfl
  · exact .of_view rfl rfl rfl rfl rfl rfl

theorem goNegRejected_aside (dev : ℕ) {status : UInt8} (h : status ≠ 0) :
    Aside p (goNegRejected p dev status) := by
  have hcount := (Aside.refl p).modify dev (fun d => { d with goNegReqSent := 0 }) fun _ => rfl
  unfold goNegRejected
  dsimp only
  refine Aside.emit ?_ _ rfl
  split_ifs
  · exact ((hcount.modify dev (fun d =>
      { d with flags := { d.flags with notYetReady := true }, waitCount := 0 })
      fun _ => rfl).setState _).setTimeout
  · refine hcount.trans (goNegFailed_aside _ ?_)
    intro hzero
    refine h (UInt8.toNat_inj.mp ?_)
    exact_mod_cast hzero

theorem settleGoNegResp_steady (dev : ℕ) (msg : P2pMessage) (intendedAddr : MacAddr) (go : Bool) :
    Steady p (settleGoNegResp env p dev msg intendedAddr go).1 := by
  have hgroup : Steady p (if go then p else takeGroupId p msg.groupId) := by
    split_ifs
    · exact .refl p
    · exact (takeGroupId_aside _).steady
  unfold settleGoNegResp
  dsimp only
  generalize (if go = true then p else takeGroupId p msg.groupId) = q at hgroup ⊢
  have htimes := hgroup.modify dev (fun d =>
    { d with
      goTimeout := (msg.configTimeout.map Prod.fst).getD d.goTimeout
      clientTimeout := (msg.configTimeout.map Prod.snd).getD d.clientTimeout }) fun _ => rfl
  generalize (q.modify dev _) = r at htimes ⊢
  split_ifs
  · exact htimes
  · cases msg.channelList with
    | none => exact htimes
    | some channelList =>
      have hcheck := htimes.trans (peerChannelsCheck_aside r.channels dev channelList).steady
      dsimp only
      cases h : peerChannelsCheck r r.channels dev channelList with
      | mk s common =>
        rw [h] at hcheck
        cases common with
        | false => exact hcheck
        | true =>
          have hfreq := hcheck.modify dev (fun d =>
            { d with operFreq := ((msg.operatingChannel.map fun c => freqInt c.freq).getD 0) })
            fun _ => rfl
          dsimp only at hfreq ⊢
          generalize (s.modify dev _) = t at hfreq ⊢
          split_ifs
          · exact hfreq
          · have hsettle := hfreq.trans (settleAs_steady env go dev)
            cases hs : settleAs env t go dev with
            | mk u settled =>
              rw [hs] at hsettle
              cases settled with
              | false => exact hsettle
              | true =>
                dsimp only
                refine Steady.modify ?_ _ _ fun _ => rfl
                exact (hsettle.setState .goNeg).clearTimeout

theorem takeGoNegResp_steady (dev : ℕ) (msg : P2pMessage) :
    Steady p (takeGoNegResp env p dev msg).1 := by
  unfold takeGoNegResp
  split
  · exact .refl p
  · split
    · exact .refl p
    · split_ifs
      · exact .refl p
      · split
        · exact .refl p
        · exact settleGoNegResp_steady env dev msg _ _

theorem recordRole_steady (dev : ℕ) (status : UInt8) (go : Option Bool) :
    Steady p (recordRole p dev status go) := by
  unfold recordRole
  split
  · exact ((Steady.refl p).pend _).modify dev _ fun _ => rfl
  · exact (Steady.refl p).pend _

theorem sendConf_steady {q : P2pData} (h : Steady p q) (dev : ℕ) (freq : ℤ) (sa : MacAddr)
    (conf : P2pMessage) : Steady p (sendConf env q dev freq sa conf) := by
  have hsend := h.sendAction env freq sa (.goNegConf conf)
  unfold sendConf
  cases hs : sendAction env q freq sa (.goNegConf conf) with
  | mk r sent =>
    rw [hs] at hsend
    cases sent with
    | true => exact hsend
    | false => exact hsend.trans (goNegFailed_aside _ (by decide)).steady

theorem confirmGoNeg_steady (dev : ℕ) (sa : MacAddr) (msg : P2pMessage) (status : UInt8)
    (go : Option Bool) (rxFreq : ℤ) :
    Steady p (confirmGoNeg env p dev sa msg status go rxFreq) := by
  unfold confirmGoNeg
  split
  · exact .refl p
  · exact sendConf_steady env (recordRole_steady dev status go) _ _ _ _

theorem processGoNegResp_steady (sa : MacAddr) (msg : Option P2pMessage) (rxFreq : ℤ) :
    Steady p (processGoNegResp env p sa msg rxFreq) := by
  unfold processGoNegResp
  split
  · rename_i dev msg _
    have hflag := (Steady.refl p).setFlags dev fun f => { f with waitGoNegResponse := false }
    dsimp only
    split_ifs
    · exact .refl p
    · exact hflag
    · split
      · exact hflag.trans (confirmGoNeg_steady env _ _ _ _ _ _)
      · rename_i status _
        split_ifs with hstatus
        · exact hflag.trans (goNegRejected_aside dev hstatus).steady
        · refine hflag.trans ?_
          exact (takeGoNegResp_steady env dev msg).trans (confirmGoNeg_steady env _ _ _ _ _ _)
  · exact .refl p

theorem giveUpTxStatus_aside : Aside p (giveUpTxStatus p) := by
  unfold giveUpTxStatus
  split_ifs
  · exact (Aside.refl p).pend .noPendingAction trivial
  · exact .refl p

theorem takeGoNegConf_steady (dev : ℕ) (msg : P2pMessage) :
    Steady p (takeGoNegConf env p dev msg) := by
  have hgroup : Steady p
      (if (p.mem dev).goState = .remoteGo then takeGroupId p msg.groupId else p) := by
    split_ifs
    · exact (takeGroupId_aside _).steady
    · exact .refl p
  unfold takeGoNegConf
  split
  · exact .refl p
  · dsimp only
    generalize (if (p.mem dev).goState = .remoteGo then takeGroupId p msg.groupId else p) = q
      at hgroup ⊢
    split
    · exact hgroup
    · exact hgroup.trans (goComplete_steady env dev)

theorem processGoNegConf_steady (sa : MacAddr) (msg : Option P2pMessage) :
    Steady p (processGoNegConf env p sa msg) := by
  unfold processGoNegConf
  split
  · exact .refl p
  · have hpend : Steady p (giveUpTxStatus p) := giveUpTxStatus_aside.steady
    split
    · exact hpend
    · dsimp only
      split_ifs
      · exact hpend
      · exact hpend.setFlags _ _
      · exact (hpend.setFlags _ _).trans (takeGoNegConf_steady env _ _)

/-! ### TX status, timers and the user -/

theorem goNegConfCb_steady (result : SendActionResult) : Steady p (goNegConfCb env p result) := by
  have hdone : Steady p (p.emit .sendActionDone) := (Steady.refl p).emit _
  unfold goNegConfCb
  dsimp only
  split_ifs
  · exact hdone.trans (goNegFailed_aside _ (by decide)).steady
  · split
    · exact hdone
    · exact hdone.trans (goComplete_steady env _)

theorem sendActionCb_steady (result : SendActionResult) (usec : ℕ) :
    Steady p (sendActionCb env p result usec) := by
  by_cases h : p.pendingActionState = .goNegConfirm
  · unfold sendActionCb
    rw [h]
    exact ((Steady.refl p).pend .noPendingAction).trans (goNegConfCb_steady env result)
  · exact (sendActionCb_aside env h result usec).steady

theorem connectAgain_steady (hdev : dev ∈ p.goNegPeer ∨ dev ∈ p.devices) :
    Steady p (connectAgain env p dev) := by
  have hconnect : dev ∈ (p.setState .connect).goNegPeer ∨ dev ∈ (p.setState .connect).devices :=
    hdev
  unfold connectAgain
  split_ifs
  · exact (goNegFailed_aside _ (by decide)).steady
  · exact ((Steady.refl p).setState .connect).trans (connectSend_steady env hconnect)

theorem timeoutConnectListen_steady : Steady p (timeoutConnectListen env p) := by
  unfold timeoutConnectListen
  cases hpeer : p.goNegPeer with
  | none => exact (Steady.refl p).setState _
  | some dev =>
    dsimp only
    split_ifs
    · exact .refl p
    · exact connectAgain_steady env (.inl hpeer)

theorem stateTimeout_steady (usec : ℕ) : Steady p (stateTimeout env p usec) := by
  have hlisten : Aside p { p with inListen := false } := .of_view rfl rfl rfl rfl rfl rfl
  unfold stateTimeout
  dsimp only
  split
  · exact hlisten.steady
  · exact hlisten.steady
  · exact hlisten.steady
  · exact hlisten.steady
  · exact (hlisten.trans (search_aside env usec)).steady
  · exact (((hlisten.emit _ rfl).setState _).trans (listenInFind_aside env usec)).steady
  · exact hlisten.steady.trans (timeoutConnectListen_steady env)
  · exact (hlisten.setState _).setTimeout.steady
  · exact (hlisten.trans (timeoutWaitPeerIdle_aside env usec)).steady
  · exact (hlisten.trans (timeoutSdDuringFind_aside env usec)).steady
  · exact ((hlisten.emit _ rfl).trans (continueFind_aside env usec)).steady
  · exact (hlisten.trans (timeoutInvite_aside env usec)).steady
  · exact (hlisten.trans (timeoutInviteListen_aside env)).steady

theorem afterListen_steady (usec : ℕ) : Steady p (afterListen env p usec) := by
  unfold afterListen
  split
  · rename_i dev _ hpeer
    exact connectAgain_steady env (.inl hpeer)
  · exact (search_aside env usec).steady
  · exact .refl p

theorem listenEnd_steady (usec : ℕ) : Steady p (listenEnd env p usec) := by
  have hend : Steady p { p with drvInListen := 0 } :=
    (Steady.refl p).other rfl rfl rfl rfl rfl rfl rfl rfl rfl
  unfold listenEnd
  dsimp only
  split
  · exact hend
  · exact hend.trans (afterListen_steady env usec)

theorem goNegStart_steady : Steady p (goNegStart env p) := by
  unfold goNegStart
  cases hpeer : p.goNegPeer with
  | none => exact .refl p
  | some dev =>
    have hstop := ((Steady.refl p).emit .stopListen).modify dev
      (fun d => { d with status := scSuccess }) fun _ => rfl
    refine hstop.trans (connectSend_steady env (.inl ?_))
    exact hpeer

theorem startQueued_steady (op : AfterScan) : Steady p (startQueued env p op).1 := by
  cases op with
  | nothing => exact .refl p
  | listen => exact (listenAfterScan_aside env).steady
  | connect =>
    unfold startQueued
    dsimp only
    cases hget : p.getDevice p.afterScanPeer with
    | none => exact .refl p
    | some dev => exact connectSend_steady env (.inr (getDevice_mem hget))

theorem sendQueued_aside (tx : PendingActionTx) : Aside p (sendQueued env p tx) := by
  unfold sendQueued
  dsimp only
  split_ifs
  · exact ((Aside.refl p).emit (.sendAction tx.freq tx.dst tx.frame) rfl).other rfl rfl rfl rfl rfl
      rfl
  · exact .of_view rfl rfl rfl rfl rfl rfl

theorem runAfterScan_steady : Steady p (runAfterScan env p).1 := by
  unfold runAfterScan
  split
  · exact (sendQueued_aside env _).steady
  · refine Steady.trans ?_ (startQueued_steady env _)
    exact (Steady.refl p).other rfl rfl rfl rfl rfl rfl rfl rfl rfl

theorem scanResHandled_steady (usec : ℕ) : Steady p (scanResHandled env p usec) := by
  have hrun : Steady p (runAfterScan env { p with p2pScanRunning := false }).1 := by
    refine Steady.trans ?_ (runAfterScan_steady env)
    exact (Steady.refl p).other rfl rfl rfl rfl rfl rfl rfl rfl rfl
  unfold scanResHandled
  cases h : runAfterScan env { p with p2pScanRunning := false } with
  | mk q ran =>
    rw [h] at hrun
    cases ran with
    | true => exact hrun
    | false =>
      dsimp only
      split_ifs
      · exact hrun.trans (continueFind_aside env usec).steady
      · exact hrun

theorem scanTimeout_steady : Steady p (scanTimeout env p) := by
  unfold scanTimeout
  split_ifs
  · refine Steady.trans ?_ (runAfterScan_steady env)
    exact (Steady.refl p).other rfl rfl rfl rfl rfl rfl rfl rfl rfl
  · exact .refl p

theorem prepareChannel_steady (forceFreq : ℕ) : Steady p (prepareChannel p forceFreq).1 := by
  unfold prepareChannel
  split_ifs
  · split
    · exact .refl p
    · split_ifs
      · exact .refl p
      · exact (Steady.refl p).other rfl rfl rfl rfl rfl rfl rfl rfl rfl
  · exact (Steady.refl p).other rfl rfl rfl rfl rfl rfl rfl rfl rfl

theorem startConnect_steady (peerAddr : MacAddr) (hdev : dev ∈ p.devices) :
    Steady p (startConnect env p peerAddr dev) := by
  unfold startConnect
  split
  · exact (Steady.refl p).other rfl rfl rfl rfl rfl rfl rfl rfl rfl
  · refine Steady.trans ?_ (connectSend_steady env (.inr hdev))
    exact (Steady.refl p).other rfl rfl rfl rfl rfl rfl rfl rfl rfl

theorem takeParams_steady {q : P2pData} (h : Steady p q) (params : GroupFormation) :
    Steady p (takeParams q params) :=
  h.other rfl rfl rfl rfl rfl rfl rfl rfl rfl

theorem connect_steady (params : GroupFormation) : Steady p (connect env p params) := by
  have hprepare : Steady p (prepareChannel p params.forceFreq).1 := prepareChannel_steady _
  unfold connect
  cases h : prepareChannel p params.forceFreq with
  | mk q ok =>
    rw [h] at hprepare
    cases ok with
    | false => exact hprepare
    | true =>
      dsimp only at hprepare ⊢
      cases hget : q.getDevice params.peerAddr with
      | none => exact hprepare
      | some dev =>
        have hdev : dev ∈ q.devices := getDevice_mem hget
        dsimp only
        split
        · exact hprepare
        · have hparams := takeParams_steady
            (hprepare.modify dev (prepareConnect params) fun _ => rfl) params
          have hstop := hparams.trans (stopUnlessIdle_aside 0).steady
          refine hstop.trans (startConnect_steady env _ ?_)
          rw [hstop.devices, ← hprepare.devices]
          exact hdev

theorem authorize_steady (params : GroupFormation) : Steady p (authorize p params) := by
  have hprepare : Steady p (prepareChannel p params.forceFreq).1 := prepareChannel_steady _
  unfold authorize
  cases h : prepareChannel p params.forceFreq with
  | mk q ok =>
    rw [h] at hprepare
    cases ok with
    | false => exact hprepare
    | true =>
      dsimp only at hprepare ⊢
      split
      · exact hprepare
      · exact takeParams_steady (hprepare.modify _ (prepareDevice params) fun _ => rfl) params

theorem unauthorize_steady (addr : MacAddr) : Steady p (unauthorize p addr) := by
  unfold unauthorize
  cases hget : p.getDevice addr with
  | none => exact .refl p
  | some dev =>
    have hmod := (Steady.refl p).modify dev (fun d =>
      { d with
        wpsMethod := .notReady
        flags := { d.flags with waitGoNegResponse := false, waitGoNegConfirm := false } })
      fun _ => rfl
    dsimp only
    refine hmod.trans ⟨rfl, rfl, rfl, rfl, rfl, ?_, fun _ hd => .inl hd, fun _ hd => .inl hd,
      fun _ hd => .inl hd⟩
    intro d hd
    split_ifs at hd
    · simp at hd
    · exact .inl hd

theorem inviteChannel_steady (forceFreq : ℕ) : Steady p (inviteChannel p forceFreq).1 := by
  unfold inviteChannel
  split_ifs
  · split
    · exact .refl p
    · exact (Steady.refl p).other rfl rfl rfl rfl rfl rfl rfl rfl rfl
  · exact (Steady.refl p).other rfl rfl rfl rfl rfl rfl rfl rfl rfl

theorem invitePeer_steady (params : InviteParams) : Steady p (invitePeer env p params) := by
  unfold invitePeer
  cases hget : p.getDevice params.peer with
  | none => exact .refl p
  | some dev =>
    have hdev : dev ∈ p.devices := getDevice_mem hget
    dsimp only
    split
    · exact .refl p
    · have hchannel := ((Steady.refl p).modify dev (fun d => { d with invitationReqs := 0 })
        fun _ => rfl).trans (inviteChannel_steady params.forceFreq)
      cases h : inviteChannel (p.modify dev fun d => { d with invitationReqs := 0 })
          params.forceFreq with
      | mk r ok =>
        rw [h] at hchannel
        cases ok with
        | false => exact hchannel
        | true =>
          have hstop : Steady p (takeInviteParams (stopUnlessIdle r 0) params) :=
            (hchannel.trans (stopUnlessIdle_aside 0).steady).other rfl rfl rfl rfl rfl rfl rfl rfl
              rfl
          exact hstop.trans (inviteSend_aside env (.inr (hstop.devices ▸ hdev)) _).steady

theorem invite_steady (params : InviteParams) : Steady p (invite env p params) := by
  refine Steady.trans ?_ (invitePeer_steady env params)
  exact (Steady.refl p).other rfl rfl rfl rfl rfl rfl rfl rfl rfl

end Negotiation

end Hostapd.P2p
