import Hostapd.EapolSupp.Data

/-!
# The 802.1X supplicant: the EAP peer machine

`SM_STATE(EAP, ..)` and `SM_STEP(EAP)` of `eap_peer/eap.c`: one function for each state that can be
entered, and the step that chooses which one to enter. The machine reads and writes the variables of
the EAPOL machines, so the functions are on both.

* **`parseEapReq`** reads the header of a packet.
* **`eapStep`** is the step: the rules that apply in every state, and then the transitions of the
  state (`stepLocal`).
* `eapAbort` and **`notifyLowerLayerSuccess`** are called by the EAPOL machines.
-/

namespace Hostapd.EapolSupp

open Hostapd.Lib

section EapPeer

variable {π : Type} (crypto : EapolCrypto) (w : World π)

/-! ## Packets -/

def EapReq.none : EapReq := ⟨false, false, false, false, 0, typeNone, vendorIetf, typeNone⟩

/-- The code of a packet and what follows the header, for a packet of `plen` octets. -/
def parseCode (selectedMethod : EapType) (req : Bytes) (plen : ℕ) (r : EapReq) : EapReq :=
  match req.getD 0 0 with
  -- EAP_CODE_REQUEST
  | 1 =>
    if plen < 4 + 1 then r
    else
      let r := { r with rxReq := true, reqMethod := (req.getD 4 0).toNat }
      if r.reqMethod = typeExpanded then
        if plen < 4 + 8 then r
        else { r with
          reqVendor := beNat ((req.drop 5).take 3)
          reqVendorMethod := beNat ((req.drop 8).take 4) }
      else r
  -- EAP_CODE_RESPONSE: LEAP reverses the roles
  | 2 =>
    if selectedMethod = typeLeap then
      if plen < 4 + 1 then r else { r with rxResp := true, reqMethod := (req.getD 4 0).toNat }
    else r
  -- EAP_CODE_SUCCESS
  | 3 => { r with rxSuccess := true }
  -- EAP_CODE_FAILURE
  | 4 => { r with rxFailure := true }
  | _ => r

/-- Source: `eap_sm_parseEapReq`. -/
def parseEapReq (sm : EapSm π) (req : Option Bytes) : EapSm π :=
  let none := { sm with toEapReq := EapReq.none }
  match req with
  | .none => none
  | some req =>
    let plen := beNat ((req.drop 2).take 2)
    if req.length < 4 ∨ req.length < plen then none
    else
      let r := { EapReq.none with reqId := (req.getD 1 0).toNat }
      { sm with
        toEapReq := parseCode sm.selectedMethod req plen r
        reqMd5 := if sm.workaround then crypto.md5 (req.take plen) else sm.reqMd5 }

/-! ## Entering a state -/

/-- Source: `state_machine.h`, `SM_ENTRY`. -/
def eapEntry (global : Bool) (st : EapState) (sm : EapolSm π) : EapolSm π :=
  sm.onEap fun eap => { eap with
    changed := eap.changed || !global || eap.eapState ≠ st
    eapState := st }

/-- Source: `eap_deinit_prev_method`. -/
def deinitPrevMethod (eap : EapSm π) : EapSm π :=
  if eap.m.isSome ∧ eap.eapMethodPriv.isSome then { eap with eapMethodPriv := none, m := none }
  else eap

/-- The current method has data that a new conversation can use. -/
def hasReauthData (eap : EapSm π) : Bool :=
  match eap.m, eap.eapMethodPriv with
  | some m, some priv =>
    match m.hasReauthData with
    | some f => f priv
    | none => false
  | _, _ => false

/-- The data of the previous method are kept for a new conversation, or freed. -/
def keepOrDeinit (eap : EapSm π) : EapSm π :=
  if eap.fastReauth ∧ hasReauthData eap ∧ ¬ eap.prevFailure then
    match eap.m, eap.eapMethodPriv with
    | some m, some priv => { eap with eapMethodPriv := some (m.deinitForReauth priv) }
    | _, _ => eap
  else deinitPrevMethod eap

/-- Source: `SM_STATE(EAP, INITIALIZE)`. -/
def enterInitialise (global : Bool) (sm : EapolSm π) : EapolSm π :=
  let sm := eapEntry global .initialise sm
  let sm := sm.note .eapInitialise
  let eap := keepOrDeinit sm.eap
  { sm with
    idleWhile := eap.clientTimeout
    timerTickEnabled := true
    eapSuccess := false
    eapFail := false
    eapRestart := false
    eapResp := false
    eapNoResp := false
    eap := { eap with
      selectedMethod := typeNone
      methodState := .none
      allowNotifications := true
      decision := .fail
      eapKeyData := none
      eapKeyAvailable := false
      -- does not match the first packet
      lastId := -1
      numRounds := 0
      prevFailure := false } }

/-- Source: `SM_STATE(EAP, DISABLED)`. -/
def enterDisabled (sm : EapolSm π) : EapolSm π :=
  (eapEntry true .disabled sm).onEap fun eap => { eap with numRounds := 0 }

/-- Source: `SM_STATE(EAP, IDLE)`. -/
def enterIdle (sm : EapolSm π) : EapolSm π := eapEntry false .idle sm

/-- Source: `SM_STATE(EAP, RECEIVED)`. -/
def enterReceived (sm : EapolSm π) : EapolSm π :=
  let sm := eapEntry false .received sm
  sm.onEap fun eap =>
    let eap := parseEapReq crypto eap sm.eapReqData
    { eap with numRounds := eap.numRounds + 1 }

def nak (eap : EapSm π) : EapSm π := { eap with eapRespData := w.buildNak eap.reqId }

/-- The selected method gets its data, those of an earlier conversation if it `reinit`ializes. -/
def initMethod (m : EapMethod π) (reinit : Bool) (eap : EapSm π) : EapSm π :=
  let eap := { eap with clientTimeout := clientTimeoutDefault }
  let r :=
    match reinit, eap.eapMethodPriv with
    | true, some priv => m.initForReauth priv eap.toDoneFlags
    | _, _ => m.init eap.toDoneFlags
  match r with
  | (some priv, flags) =>
    { eap with m := some m, eapMethodPriv := some priv, methodState := .init, toDoneFlags := flags }
  | (none, flags) =>
    let eap := { eap with
      m := none
      eapMethodPriv := none
      methodState := .none
      selectedMethod := typeNone
      toDoneFlags := flags }
    -- a PIN or a passphrase is waited for
    if eap.reqMethod = typeTls ∧ w.pendingPin then eap else nak w eap

/-- The body of `SM_STATE(EAP, GET_METHOD)`. -/
def getMethod (eap : EapSm π) : EapSm π :=
  let method := if eap.reqMethod = typeExpanded then eap.reqVendorMethod else eap.reqMethod
  if w.allowedMethod eap.reqVendor method ∧ (w.getEapMethod eap.reqVendor method).isSome then
    let reinit : Bool := eap.fastReauth ∧
      eap.m.any (fun m => m.vendor = eap.reqVendor ∧ m.method = method) ∧ hasReauthData eap
    let eap := if reinit then eap else deinitPrevMethod eap
    let eap := { eap with selectedMethod := eap.reqMethod }
    match eap.m <|> w.getEapMethod eap.reqVendor method with
    | none => nak w eap
    | some m => initMethod w m reinit eap
  else nak w eap

/-- Source: `SM_STATE(EAP, GET_METHOD)`. -/
def enterGetMethod (sm : EapolSm π) : EapolSm π :=
  (eapEntry false .getMethod sm).onEap (getMethod w)

def takeKey (m : EapMethod π) (priv : π) (eap : EapSm π) : EapSm π :=
  match m.key priv with
  | some key => { eap with eapKeyData := key }
  | none => eap

/-- Source: `SM_STATE(EAP, METHOD)`. -/
def enterMethod (sm : EapolSm π) : EapolSm π :=
  let sm := eapEntry false .method sm
  match sm.eap.m, sm.eap.eapMethodPriv with
  | some m, some priv =>
    let (resp, ret, priv, flags) := m.process priv sm.eap.toDoneFlags
      ⟨sm.eap.ignore, sm.eap.methodState, sm.eap.decision, sm.eap.allowNotifications⟩ sm.eapReqData
    let sm := sm.onEap fun eap => { eap with
      eapRespData := resp
      ignore := ret.ignore
      eapMethodPriv := some priv
      toDoneFlags := flags }
    if ret.ignore then sm
    else
      (sm.note (.method ret.decision)).onEap fun eap => takeKey m priv { eap with
        methodState := ret.methodState
        decision := ret.decision
        allowNotifications := ret.allowNotifications }
  -- no method is selected
  | _, _ => sm

/-- Source: `SM_STATE(EAP, SEND_RESPONSE)`. -/
def enterSendResponse (sm : EapolSm π) : EapolSm π :=
  let sm := eapEntry false .sendResponse sm
  let eap := sm.eap
  { sm with
    eapResp := sm.eapResp || eap.eapRespData.isSome
    eapReq := false
    idleWhile := eap.clientTimeout
    timerTickEnabled := true
    eap := { eap with
      lastRespData := eap.eapRespData
      lastMd5 := if eap.eapRespData.isSome ∧ eap.workaround then eap.reqMd5 else eap.lastMd5
      lastId := if eap.eapRespData.isSome then eap.reqId else eap.lastId } }

/-- Source: `SM_STATE(EAP, DISCARD)`. -/
def enterDiscard (sm : EapolSm π) : EapolSm π :=
  { eapEntry false .discard sm with eapReq := false, eapNoResp := true }

/-- Source: `SM_STATE(EAP, IDENTITY)`. -/
def enterIdentity (sm : EapolSm π) : EapolSm π :=
  (eapEntry false .identity sm).onEap fun eap =>
    { eap with eapRespData := w.buildIdentity eap.reqId }

/-- Source: `SM_STATE(EAP, NOTIFICATION)`. -/
def enterNotification (sm : EapolSm π) : EapolSm π :=
  (eapEntry false .notification sm).onEap fun eap =>
    { eap with eapRespData := w.buildNotify eap.reqId }

/-- Source: `SM_STATE(EAP, RETRANSMIT)`. -/
def enterRetransmit (sm : EapolSm π) : EapolSm π :=
  (eapEntry false .retransmit sm).onEap fun eap => { eap with eapRespData := eap.lastRespData }

def keyAvailable (eap : EapSm π) : EapSm π :=
  { eap with eapKeyAvailable := eap.eapKeyAvailable || eap.eapKeyData.isSome }

/-- Source: `SM_STATE(EAP, SUCCESS)`. -/
def enterSuccess (sm : EapolSm π) : EapolSm π :=
  { (eapEntry false .success sm).onEap keyAvailable with
    eapSuccess := true
    eapReq := false
    eapNoResp := true }

/-- Source: `SM_STATE(EAP, FAILURE)`. -/
def enterFailure (global : Bool) (sm : EapolSm π) : EapolSm π :=
  { (eapEntry global .failure sm).onEap fun eap => { eap with prevFailure := true } with
    eapFail := true
    eapReq := false
    eapNoResp := true }

/-! ## The step -/

/-- Source: `eap_success_workaround`. -/
def successWorkaround (eap : EapSm π) : Bool :=
  eap.workaround && (eap.reqId = (eap.lastId + 1) % 256 || eap.reqId = (eap.lastId + 2) % 256)

/-- The identifier of a Success or Failure packet is accepted. -/
def idAccepted (eap : EapSm π) : Bool := eap.reqId = eap.lastId || successWorkaround eap

/-- Source: `eap_peer_sm_step_idle`. -/
def stepIdle (sm : EapolSm π) : EapolSm π :=
  let eap := sm.eap
  if sm.eapReq then enterReceived crypto sm
  else if (sm.altAccept ∧ eap.decision ≠ .fail) ∨
      (sm.idleWhile = 0 ∧ eap.decision = .uncondSucc) then enterSuccess sm
  else if sm.altReject ∨ (sm.idleWhile = 0 ∧ eap.decision ≠ .uncondSucc) ∨
      (sm.altAccept ∧ eap.methodState ≠ .cont ∧ eap.decision = .fail) then enterFailure false sm
  else if eap.selectedMethod = typeLeap ∧ eap.leapDone ∧ eap.decision ≠ .fail ∧
      eap.methodState = .done then enterSuccess sm
  else if eap.selectedMethod = typePeap ∧ eap.peapDone ∧ eap.decision ≠ .fail ∧
      eap.methodState = .done then enterSuccess sm
  else sm

/-- Source: `eap_peer_req_is_duplicate`. -/
def reqIsDuplicate (eap : EapSm π) : Bool :=
  eap.reqId = eap.lastId && eap.rxReq && !(eap.workaround && eap.reqMd5 ≠ eap.lastMd5)

/-- Source: `eap_peer_sm_step_received`. -/
def stepReceived (sm : EapolSm π) : EapolSm π :=
  let eap := sm.eap
  let duplicate := reqIsDuplicate eap
  if eap.rxSuccess ∧ eap.decision ≠ .fail ∧ idAccepted eap then enterSuccess sm
  else if eap.methodState ≠ .cont ∧
      ((eap.rxFailure ∧ eap.decision ≠ .uncondSucc) ∨
        (eap.rxSuccess ∧ eap.decision = .fail ∧
          (eap.selectedMethod ≠ typeLeap ∨ eap.methodState ≠ .mayCont))) ∧
      idAccepted eap then enterFailure false sm
  else if eap.rxReq ∧ duplicate then enterRetransmit sm
  else if eap.rxReq ∧ ¬ duplicate ∧ eap.reqMethod = typeNotification ∧ eap.allowNotifications then
    enterNotification w sm
  else if eap.rxReq ∧ ¬ duplicate ∧ eap.selectedMethod = typeNone ∧
      eap.reqMethod = typeIdentity then enterIdentity w sm
  else if eap.rxReq ∧ ¬ duplicate ∧ eap.selectedMethod = typeNone ∧
      eap.reqMethod ≠ typeIdentity ∧ eap.reqMethod ≠ typeNotification then enterGetMethod w sm
  else if eap.rxReq ∧ ¬ duplicate ∧ eap.reqMethod = eap.selectedMethod ∧
      eap.methodState ≠ .done then enterMethod sm
  else if eap.selectedMethod = typeLeap ∧ (eap.rxSuccess ∨ eap.rxResp) then enterMethod sm
  else enterDiscard sm

/-- Source: `eap_peer_sm_step_local`. -/
def stepLocal (sm : EapolSm π) : EapolSm π :=
  match sm.eap.eapState with
  | .initialise => enterIdle sm
  | .disabled => if sm.portEnabled ∧ ¬ sm.eap.forceDisabled then enterInitialise false sm else sm
  | .idle => stepIdle crypto sm
  | .received => stepReceived w sm
  | .getMethod =>
    if sm.eap.selectedMethod = sm.eap.reqMethod then enterMethod sm else enterSendResponse sm
  | .method => if sm.eap.ignore then enterDiscard sm else enterSendResponse sm
  | .sendResponse | .discard => enterIdle sm
  | .identity | .notification | .retransmit => enterSendResponse sm
  | .success | .failure => sm

/-- Source: `SM_STEP(EAP)`. -/
def eapStep (sm : EapolSm π) : EapolSm π :=
  if sm.eapRestart ∧ sm.portEnabled then enterInitialise true sm
  else if ¬ sm.portEnabled ∨ sm.eap.forceDisabled then enterDisabled sm
  else if maxAuthRounds < sm.eap.numRounds then
    if sm.eap.numRounds = maxAuthRounds + 1 then
      enterFailure true (sm.onEap fun eap => { eap with numRounds := eap.numRounds + 1 })
    else sm
  else stepLocal crypto w sm

/-! ## Calls of the EAPOL machines -/

/-- Source: `eap_sm_abort`. -/
def eapAbort (sm : EapolSm π) : EapolSm π :=
  { sm.onEap fun eap => { eap with lastRespData := none, eapRespData := none, eapKeyData := none }
    with eapSuccess := false }

/-- A lower layer can report the success of what the method has decided. -/
def canSucceed (eap : EapSm π) : Bool :=
  eap.decision ≠ .fail && (eap.methodState = .mayCont || eap.methodState = .done)

/-- Source: `eap_notify_lower_layer_success`. -/
def notifyLowerLayerSuccess (sm : EapolSm π) : EapolSm π :=
  if sm.eapSuccess ∨ ¬ canSucceed sm.eap then sm
  else { sm.onEap keyAvailable with eapSuccess := true }

end EapPeer

end Hostapd.EapolSupp
