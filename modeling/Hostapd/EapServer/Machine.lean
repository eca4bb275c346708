import Hostapd.EapServer.Eap
import Hostapd.Lib.Run

/-!
# The EAP server: the authenticator state machine

`SM_STATE(EAP, ..)` and `SM_STEP(EAP)` of `eap_server.c`: one function for each state that can be
entered, and the step that chooses which one to enter.

* **`smStep`** is the step: the rules that apply in every state, and then the transitions of the
  state (`smSwitch`).
* **`step`** runs the machine among its callers. `eap_server_sm_step` repeats the step while
  `changed` is set, and nothing else happens in between: an operation of a caller while `changed`
  is set is not possible and does nothing.

A NULL pointer that the source follows makes the result `none`.
-/

namespace Hostapd.EapServer

open Hostapd.Lib

section Machine

variable {π ω : Type} (registered : List (EapMethod π ω)) (w : World ω)

/-! ## Entering a state -/

/-- Source: `state_machine.h`, `SM_ENTRY`. -/
def smEntry (global : Bool) (st : EapState) (sm : EapSm π ω) : EapSm π ω :=
  { sm with
    changed := sm.changed || !global || sm.eapState ≠ st
    eapState := st }

/-- Source: `SM_STATE(EAP, DISABLED)`. -/
def enterDisabled (global : Bool) (sm : EapSm π ω) : EapSm π ω :=
  { smEntry global .disabled sm with numRounds := 0 }

/-- Source: `SM_STATE(EAP, INITIALIZE)`. -/
def enterInitialise (global : Bool) (sm : EapSm π ω) : EapSm π ω :=
  let sm := smEntry global .initialise sm
  let sm := { sm with
    currentId := -1
    eapSuccess := false
    eapFail := false
    eapTimeout := false
    eapKeyData := none
    eapKeyAvailable := false
    eapRestart := false
    eapMethodPriv := if sm.m.isSome then none else sm.eapMethodPriv
    m := none
    userEapMethodIndex := 0 }
  let sm :=
    if sm.backendAuth then
      let resp := parseEapResp sm.eapRespData
      { sm with
        toResp := resp
        currentMethod := typeNone
        currentId := if resp.rxResp then resp.respId else sm.currentId }
    else sm
  { sm with numRounds := 0, methodPending := .none, processed := [] }

/-- Source: `SM_STATE(EAP, PICK_UP_METHOD)`. -/
def enterPickUpMethod (sm : EapSm π ω) : EapSm π ω :=
  let sm := smEntry false .pickUpMethod sm
  if doPickUp sm.respMethod then
    let priv := if sm.m.isSome then none else sm.eapMethodPriv
    let m := getEapMethod registered vendorIetf sm.respMethod
    match m.bind EapMethod.initPickUp with
    | none => { sm with m := none, eapMethodPriv := priv, currentMethod := typeNone }
    | some initPickUp =>
      match initPickUp w.env sm.toMethodVars with
      | (none, vars) => { sm with
          toMethodVars := vars
          m := none
          eapMethodPriv := none
          currentMethod := typeNone }
      | (some priv, vars) => { sm with
          toMethodVars := vars
          m := m
          eapMethodPriv := some priv
          instances := sm.instances + 1
          currentMethod := sm.respMethod }
  else sm

/-- Source: `SM_STATE(EAP, IDLE)`. -/
def enterIdle (sm : EapSm π ω) : EapSm π ω :=
  { smEntry false .idle sm with
    retransWhile := calculateTimeout sm.retransCount sm.methodTimeout }

def resend (sm : EapSm π ω) : EapSm π ω :=
  let sm := { sm with retransCount := sm.retransCount + 1 }
  if sm.retransCount ≤ sm.maxRetrans ∧ sm.lastReqData.isSome then
    let (ok, data) := copyBuf sm.eapReqData sm.lastReqData w.memDup
    { sm with eapReqData := data, eapReq := sm.eapReq || ok }
  else sm

/-- Source: `SM_STATE(EAP, RETRANSMIT)`. -/
def enterRetransmit (sm : EapSm π ω) : EapSm π ω := resend w (smEntry false .retransmit sm)

/-- Source: `SM_STATE(EAP, RECEIVED)`. -/
def enterReceived (sm : EapSm π ω) : EapSm π ω :=
  let sm := smEntry false .received sm
  { sm with toResp := parseEapResp sm.eapRespData, numRounds := sm.numRounds + 1 }

/-- Source: `SM_STATE(EAP, DISCARD)`. -/
def enterDiscard (sm : EapSm π ω) : EapSm π ω :=
  { smEntry false .discard sm with eapResp := false, eapNoReq := true }

def sendReq (sm : EapSm π ω) : EapSm π ω :=
  let sm := { sm with retransCount := 0, eapResp := false }
  if sm.eapReqData.isSome then
    let (ok, data) := copyBuf sm.lastReqData sm.eapReqData w.memDup
    { sm with lastReqData := data, eapReq := ok }
  else { sm with eapReq := false, eapNoReq := true }

/-- Source: `SM_STATE(EAP, SEND_REQUEST)`. -/
def enterSendRequest (sm : EapSm π ω) : EapSm π ω := sendReq w (smEntry false .sendRequest sm)

/-- Source: `SM_STATE(EAP, INTEGRITY_CHECK)`. -/
def enterIntegrityCheck (sm : EapSm π ω) : Option (EapSm π ω) :=
  let sm := smEntry false .integrityCheck sm
  match sm.m, sm.eapMethodPriv with
  | some m, some priv =>
    match m.check with
    | some check => some { sm with ignore := check w.env sm.toMethodVars priv sm.eapRespData }
    | none => some sm
  | _, _ => none

/-- Source: `SM_STATE(EAP, METHOD_REQUEST)`. -/
def enterMethodRequest (sm : EapSm π ω) : Option (EapSm π ω) :=
  let sm := smEntry false .methodRequest sm
  match sm.m, sm.eapMethodPriv with
  | none, _ => some sm
  | some _, none => none
  | some m, some priv =>
    let currentId := nextId sm.lastId sm.currentId w.rand
    let (data, priv, vars) := m.buildReq w.env sm.toMethodVars priv (idOctet currentId)
    let (timeout, vars) := match m.getTimeout with
      | some getTimeout => getTimeout vars priv
      | none => (0, vars)
    some { sm with
      toMethodVars := vars
      currentId := currentId
      lastId := currentId
      eapReqData := data
      eapMethodPriv := some priv
      methodTimeout := timeout }

/-- Source: `SM_STATE(EAP, METHOD_RESPONSE)`. -/
def enterMethodResponse (sm : EapSm π ω) : Option (EapSm π ω) :=
  let cameFrom := sm.eapState
  let sm := smEntry false .methodResponse sm
  match sm.m, sm.eapMethodPriv with
  | some m, some priv =>
    let (priv, vars) := m.process w.env sm.toMethodVars priv sm.eapRespData
    let sm := { sm with toMethodVars := vars, eapMethodPriv := some priv }
    if m.isDone priv then
      -- the policy update without a list of a Nak does nothing
      let key := m.getKey.bind fun getKey => getKey w.env priv
      some { sm with
        eapKeyData := key
        methodState := .done
        processed := sm.processed ++ [⟨cameFrom, sm.eapRespData, sm.instances, some key⟩] }
    else
      some { sm with
        methodState := .cont
        processed := sm.processed ++ [⟨cameFrom, sm.eapRespData, sm.instances, none⟩] }
  | _, _ => none

/-- Source: `SM_STATE(EAP, PROPOSE_METHOD)`. -/
def enterProposeMethod (sm : EapSm π ω) : EapSm π ω :=
  let sm := smEntry false .proposeMethod sm
  let ((vendor, type), vars) := getNextMethod sm.currentId sm.toMethodVars
  let sm := { sm with
    toMethodVars := vars
    currentMethod := if vendor = vendorIetf then type else typeExpanded
    eapMethodPriv := if sm.m.isSome then none else sm.eapMethodPriv
    m := getEapMethod registered vendor type }
  let sm := match sm.m with
    | none => sm
    | some m =>
      match m.init w.env sm.toMethodVars with
      | (none, vars) => { sm with
          toMethodVars := vars
          eapMethodPriv := none
          m := none
          currentMethod := typeNone }
      | (some priv, vars) => { sm with
          toMethodVars := vars
          eapMethodPriv := some priv
          instances := sm.instances + 1 }
  { sm with
    methodState := if sm.currentMethod = typeIdentity ∨ sm.currentMethod = typeNotification then
        .cont
      else .proposed }

/-- The list in a Nak. Source: `SM_STATE(EAP, NAK)`. -/
def nakList (resp : Option Bytes) : Option Bytes :=
  resp.bind fun buf =>
    let len := min (hdr buf).2.2 buf.length
    if hdrLen < buf.length ∧ (buf.getD hdrLen 0).toUInt32 = typeNak then
      some ((buf.drop (hdrLen + 1)).take (len - hdrLen - 1))
    else none

/-- Source: `SM_STATE(EAP, NAK)`. -/
def enterNak (sm : EapSm π ω) : Option (EapSm π ω) :=
  let sm := smEntry false .nak sm
  if sm.eapMethodPriv.isSome ∧ sm.m = none then none
  else some (policyUpdate (nakList sm.eapRespData) { sm with eapMethodPriv := none, m := none })

/-- Source: `SM_STATE(EAP, SELECT_ACTION)`. -/
def enterSelectAction (sm : EapSm π ω) : Option (EapSm π ω) :=
  (getDecision w (smEntry false .selectAction sm)).map fun (decision, sm) =>
    { sm with decision := decision }

/-- Source: `SM_STATE(EAP, TIMEOUT_FAILURE)`. -/
def enterTimeoutFailure (sm : EapSm π ω) : EapSm π ω :=
  { smEntry false .timeoutFailure sm with eapTimeout := true }

/-- Source: `SM_STATE(EAP, FAILURE)`. -/
def enterFailure (global : Bool) (sm : EapSm π ω) : EapSm π ω :=
  { smEntry global .failure sm with
    eapReqData := buildMsg codeFailure sm.currentId w.memMsg
    lastReqData := none
    eapFail := true }

/-- Source: `SM_STATE(EAP, SUCCESS)`. -/
def enterSuccess (sm : EapSm π ω) : EapSm π ω :=
  { smEntry false .success sm with
    eapReqData := buildMsg codeSuccess sm.currentId w.memMsg
    lastReqData := none
    eapKeyAvailable := sm.eapKeyAvailable || sm.eapKeyData.isSome
    eapSuccess := true }

/-- Source: `SM_STATE(EAP, INITIALIZE_PASSTHROUGH)`. -/
def enterInitializePassthrough (sm : EapSm π ω) : EapSm π ω :=
  { smEntry false .initializePassthrough sm with aaaEapRespData := none }

/-- Source: `SM_STATE(EAP, IDLE2)`. -/
def enterIdle2 (sm : EapSm π ω) : EapSm π ω :=
  { smEntry false .idle2 sm with
    retransWhile := calculateTimeout sm.retransCount sm.methodTimeout }

/-- Source: `SM_STATE(EAP, RETRANSMIT2)`. -/
def enterRetransmit2 (sm : EapSm π ω) : EapSm π ω := resend w (smEntry false .retransmit2 sm)

/-- Source: `SM_STATE(EAP, RECEIVED2)`. -/
def enterReceived2 (sm : EapSm π ω) : EapSm π ω :=
  let sm := smEntry false .received2 sm
  { sm with toResp := parseEapResp sm.eapRespData }

/-- Source: `SM_STATE(EAP, DISCARD2)`. -/
def enterDiscard2 (sm : EapSm π ω) : EapSm π ω :=
  { smEntry false .discard2 sm with eapResp := false, eapNoReq := true }

/-- Source: `SM_STATE(EAP, SEND_REQUEST2)`. -/
def enterSendRequest2 (sm : EapSm π ω) : EapSm π ω := sendReq w (smEntry false .sendRequest2 sm)

/-- Source: `SM_STATE(EAP, AAA_REQUEST)`. -/
def enterAaaRequest (sm : EapSm π ω) : EapSm π ω :=
  let sm := smEntry false .aaaRequest sm
  if sm.eapRespData.isSome then
    { sm with aaaEapRespData := (copyBuf sm.aaaEapRespData sm.eapRespData w.memDup).2 }
  else sm

/-- Source: `SM_STATE(EAP, AAA_RESPONSE)`. -/
def enterAaaResponse (sm : EapSm π ω) : EapSm π ω :=
  let sm := smEntry false .aaaResponse sm
  let data := (copyBuf sm.eapReqData sm.aaaEapReqData w.memDup).2
  { sm with eapReqData := data, currentId := getId data, methodTimeout := sm.aaaMethodTimeout }

/-- Source: `SM_STATE(EAP, AAA_IDLE)`. -/
def enterAaaIdle (sm : EapSm π ω) : EapSm π ω :=
  { smEntry false .aaaIdle sm with
    aaaFail := false
    aaaSuccess := false
    aaaEapReq := false
    aaaEapNoReq := false
    aaaEapResp := true }

/-- Source: `SM_STATE(EAP, TIMEOUT_FAILURE2)`. -/
def enterTimeoutFailure2 (sm : EapSm π ω) : EapSm π ω :=
  { smEntry false .timeoutFailure2 sm with eapTimeout := true }

/-- Source: `SM_STATE(EAP, FAILURE2)`. -/
def enterFailure2 (sm : EapSm π ω) : EapSm π ω :=
  { smEntry false .failure2 sm with
    eapReqData := (copyBuf sm.eapReqData sm.aaaEapReqData w.memDup).2
    eapFail := true }

/-- Source: `SM_STATE(EAP, SUCCESS2)`. -/
def enterSuccess2 (sm : EapSm π ω) : EapSm π ω :=
  { smEntry false .success2 sm with
    eapReqData := (copyBuf sm.eapReqData sm.aaaEapReqData w.memDup).2
    eapKeyAvailable := sm.aaaEapKeyAvailable
    eapKeyData := if sm.aaaEapKeyAvailable then
        (copyBuf sm.eapKeyData sm.aaaEapKeyData w.memKey).2
      else none
    eapSuccess := true
    startReauth := true }

/-! ## The step -/

/-- A Nak for a method that is only proposed, with the current identifier. -/
def EapSm.takesNak (sm : EapSm π ω) : Bool :=
  sm.rxResp && sm.respId = sm.currentId && sm.isOf typeNak && sm.methodState = .proposed

/-- A response of the current method with the current identifier. -/
def EapSm.takesResp (sm : EapSm π ω) : Bool :=
  sm.rxResp && sm.respId = sm.currentId && sm.isOf sm.currentMethod

/-- The transitions of a state. Source: `SM_STEP(EAP)`, the switch. -/
def smSwitch (sm : EapSm π ω) : Option (EapSm π ω) :=
  match sm.eapState with
  | .initialise =>
    if sm.backendAuth then
      if !sm.rxResp then enterSelectAction w sm
      else if sm.isOf typeNak then enterNak sm
      else some (enterPickUpMethod registered w sm)
    else enterSelectAction w sm
  | .pickUpMethod =>
    if sm.currentMethod = typeNone then enterSelectAction w sm else enterMethodResponse w sm
  | .disabled => some (if sm.portEnabled then enterInitialise false sm else sm)
  | .idle =>
    some (if sm.retransWhile = 0 then enterRetransmit w sm
      else if sm.eapResp then enterReceived sm else sm)
  | .retransmit =>
    some (if sm.maxRetrans < sm.retransCount then enterTimeoutFailure sm else enterIdle sm)
  | .received =>
    if sm.takesNak then enterNak sm
    else if sm.takesResp then enterIntegrityCheck w sm
    else some (enterDiscard sm)
  | .discard => some (enterIdle sm)
  | .sendRequest => some (enterIdle sm)
  | .integrityCheck => if sm.ignore then some (enterDiscard sm) else enterMethodResponse w sm
  | .methodRequest => some (enterSendRequest w sm)
  | .methodResponse =>
    if sm.methodState = .done then enterSelectAction w sm
    else match sm.methodPending with
      | .wait => some sm
      -- the pending message is processed again
      | .cont => enterMethodResponse w { sm with methodPending := .none }
      | .none => enterMethodRequest w sm
  | .proposeMethod =>
    match sm.methodPending with
    | .wait => some { sm with userEapMethodIndex := sm.userEapMethodIndex - 1 }
    | .cont => some (enterProposeMethod registered w { sm with methodPending := .none })
    | .none => enterMethodRequest w sm
  | .nak => enterSelectAction w sm
  | .selectAction =>
    some (match sm.decision with
      | .failure => enterFailure w false sm
      | .success => enterSuccess w sm
      | .passthrough => enterInitializePassthrough sm
      | .cont => enterProposeMethod registered w sm)
  | .timeoutFailure => some sm
  | .failure => some sm
  | .success => some sm
  | .initializePassthrough =>
    some (if sm.currentId = -1 then enterAaaIdle sm else enterAaaRequest w sm)
  | .idle2 =>
    some (if sm.eapResp then enterReceived2 sm
      else if sm.retransWhile = 0 then enterRetransmit2 w sm else sm)
  | .retransmit2 =>
    some (if sm.maxRetrans < sm.retransCount then enterTimeoutFailure2 sm else enterIdle2 sm)
  | .received2 =>
    some (if sm.rxResp && sm.respId = sm.currentId then enterAaaRequest w sm else enterDiscard2 sm)
  | .discard2 => some (enterIdle2 sm)
  | .sendRequest2 => some (enterIdle2 sm)
  | .aaaRequest => some (enterAaaIdle sm)
  | .aaaResponse => some (enterSendRequest2 w sm)
  | .aaaIdle =>
    some (if sm.aaaFail then enterFailure2 w sm
      else if sm.aaaSuccess then enterSuccess2 w sm
      else if sm.aaaEapReq then enterAaaResponse w sm
      else if sm.aaaTimeout then enterTimeoutFailure2 sm
      else sm)
  | .timeoutFailure2 => some sm
  | .failure2 => some sm
  | .success2 => some sm

/-- Source: `SM_STEP(EAP)`. -/
def smStep (sm : EapSm π ω) : Option (EapSm π ω) :=
  if sm.eapRestart && sm.portEnabled then some (enterInitialise true sm)
  else if !sm.portEnabled then some (enterDisabled true sm)
  else if maxAuthRounds < sm.numRounds then
    some (if sm.numRounds = maxAuthRounds + 1 then
      enterFailure w true { sm with numRounds := sm.numRounds + 1 } else sm)
  else smSwitch registered w sm

/-! ## Operations -/

/-- What happens to a machine: one iteration of the loop of `eap_server_sm_step`, or an operation of
its callers. -/
inductive Op (ω : Type)
  | smStep (w : World ω)
  | lower (vars : LowerIf)
  | pendingCb
  | notifyCached
  | clearIdentity
  | methodEvent (env : ω)

/-- An operation of the callers. Source: `eap_sm_pending_cb`, `eap_sm_notify_cached`,
`eap_server_clear_identity`, and the writes of the other layers to the interface. -/
def call (sm : EapSm π ω) : Op ω → EapSm π ω
  | .smStep _ => sm
  | .lower vars => { sm with toLowerIf := vars }
  | .pendingCb => if sm.methodPending = .wait then { sm with methodPending := .cont } else sm
  | .notifyCached => { sm with eapState := .success }
  | .clearIdentity => { sm with identity := none }
  | .methodEvent env =>
    match sm.m, sm.eapMethodPriv with
    | some m, some priv => { sm with eapMethodPriv := some (m.event env priv) }
    | _, _ => sm

/-- The step function of the machine among its callers. -/
def step (s : Option (EapSm π ω)) (op : Op ω) : Option (EapSm π ω) :=
  s.bind fun sm => match op with
    | .smStep w => smStep registered w { sm with changed := false }
    | op => some (if sm.changed then sm else call sm op)

end Machine

end Hostapd.EapServer
