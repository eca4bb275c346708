import Hostapd.EapolSupp.Machine

/-!
# The 802.1X supplicant: conversations of the EAP peer machine

The EAP peer machine among lower layers that do as they please, and what it did since it was last
initialized.

* **`EapEvent`**: the events of a conversation. `eapEvents` reads them off a step of the machine:
  a state is entered by a step that ends in it and did not begin in it.
* **`Watched`** is the machine with the record of its events, the latest in front; `watch` is its
  step among `PeerOp`, which are the steps of the machine and everything that others do to its
  variables.
* **`Proper`** is what the machine guarantees of a step: what a success is owed to
  (`OwedToMethod`), what a method is called for (`CallAllowed`), and how a retransmitted request is
  answered (`AnsweredFromStore`).
-/

namespace Hostapd.EapolSupp

open Hostapd.Lib

/-! ## Events -/

/-- What happens in a conversation: it begins; GET_METHOD selects a method; the method's `process`
is called, and has returned `ret`, and a key where it was asked for one. -/
inductive EapEvent (π : Type)
  | initialise
  | select (m : EapMethod π)
  | process (m : EapMethod π) (ret : MethodRet) (key : Option (Option Bytes))

variable {π : Type}

def EapEvent.isInitialise : EapEvent π → Bool
  | .initialise => true
  | _ => false

/-- The events since the machine was last initialized. -/
def sinceInit (log : List (EapEvent π)) : List (EapEvent π) :=
  log.takeWhile fun e => !e.isInitialise

/-- The method and the decision of a call that was not ignored. -/
def EapEvent.decided : EapEvent π → Option (EapMethod π × EapDecision)
  | .process m ret _ => if ret.ignore then none else some (m, ret.decision)
  | _ => none

/-- The method that decided last, and what it decided. -/
def latestDecision (log : List (EapEvent π)) : Option (EapMethod π × EapDecision) :=
  (sinceInit log).findSome? EapEvent.decided

/-- The call of `process` in METHOD. -/
def processEvents (p : EapolSm π) : List (EapEvent π) :=
  match p.eap.m, p.eap.eapMethodPriv with
  | some m, some priv =>
    let (_, ret, priv, _) := m.process priv p.eap.toDoneFlags
      ⟨p.eap.ignore, p.eap.methodState, p.eap.decision, p.eap.allowNotifications⟩ p.eapReqData
    [.process m ret (if ret.ignore then none else m.key priv)]
  | _, _ => []

def selectEvents (q : EapolSm π) : List (EapEvent π) :=
  match q.eap.m with
  | some m => if q.eap.selectedMethod = typeNone then [] else [.select m]
  | none => []

/-- The events of the step from `p` to `q`. -/
def eapEvents (p q : EapolSm π) : List (EapEvent π) :=
  match q.eap.eapState with
  -- INITIALIZE is noted; it is the one state that is entered from itself
  | .initialise => if q.notes.length = p.notes.length then [] else [.initialise]
  | .getMethod => if p.eap.eapState = .getMethod then [] else selectEvents q
  | .method => if p.eap.eapState = .method then [] else processEvents p
  | _ => []

/-! ## The machine among the lower layers -/

/-- The EAP machine makes a step, with the methods and the configuration of a moment; the lower
layers set their variables; and the functions that the machine offers to others are called:
`eap_get_eapRespData`, `eap_sm_abort`, `eap_invalidate_cached_session`, and the setters
`eap_set_fast_reauth`, `eap_set_workaround` and `eap_set_force_disabled`. -/
inductive PeerOp (π : Type)
  | step (w : World π)
  | lower (vars : EapolSm π)
  | getEapRespData
  | abort
  | invalidateCachedSession
  | set (fastReauth workaround forceDisabled : Bool)

structure Watched (π : Type) where
  sm : EapolSm π
  log : List (EapEvent π)

def watch (crypto : EapolCrypto) (s : Watched π) : PeerOp π → Watched π
  | .step w =>
    let q := eapStep crypto w s.sm
    ⟨q, eapEvents s.sm q ++ s.log⟩
  | .lower vars => ⟨{ vars with eap := s.sm.eap, notes := s.sm.notes }, s.log⟩
  | .getEapRespData => ⟨s.sm.onEap fun eap => { eap with eapRespData := none }, s.log⟩
  | .abort => ⟨eapAbort s.sm, s.log⟩
  | .invalidateCachedSession => ⟨s.sm.onEap deinitPrevMethod, s.log⟩
  | .set fastReauth workaround forceDisabled =>
    ⟨s.sm.onEap fun eap => { eap with
      fastReauth := fastReauth
      workaround := workaround
      forceDisabled := forceDisabled }, s.log⟩

def watchInit (π : Type) (conf : EapolConfig) : Watched π := ⟨init π conf, []⟩

/-! ## The guarantees -/

def EntersState (st : EapState) (p q : EapolSm π) : Prop :=
  q.eap.eapState = st ∧ p.eap.eapState ≠ st

/-- The success is owed to a method: it was selected in this conversation, the latest of its calls
that it did not ignore decided for success, and the key, if there is one, was returned by it in this
conversation. -/
def OwedToMethod (q : EapolSm π) (log : List (EapEvent π)) : Prop :=
  ∃ m d, .select m ∈ sinceInit log ∧ latestDecision log = some (m, d) ∧ d ≠ .fail ∧
    ∀ k, q.eap.eapKeyData = some k →
      ∃ ret, .process m ret (some (some k)) ∈ sinceInit log

/-- The packet is for the selected method: a request of its type, or for LEAP also a Success packet
or a response. -/
def ForSelected (eap : EapSm π) : Prop :=
  (eap.rxReq = true ∧ eap.reqMethod = eap.selectedMethod) ∨
    (eap.selectedMethod = typeLeap ∧ (eap.rxSuccess = true ∨ eap.rxResp = true))

/-- `process` is called of the method selected in this conversation, with its data, for a packet
that is for it. -/
def CallAllowed (p : EapolSm π) (log : List (EapEvent π)) : Prop :=
  ∀ m, p.eap.m = some m →
    p.eap.eapMethodPriv.isSome ∧ .select m ∈ sinceInit log ∧ ForSelected p.eap

/-- No transition that applies in every state is taken. -/
def localStep (p : EapolSm π) : Bool :=
  p.portEnabled && !p.eapRestart && !p.eap.forceDisabled && p.eap.numRounds ≤ maxAuthRounds

/-- The request was received with the identifier of the last one answered, and with workarounds
with its contents. -/
def Retransmitted (p : EapolSm π) : Prop :=
  localStep p = true ∧ p.eap.eapState = .received ∧ reqIsDuplicate p.eap = true

/-- The machine answers with the response that it has stored, in two steps, and calls no method. -/
def AnsweredFromStore (crypto : EapolCrypto) (p q : EapolSm π) : Prop :=
  q.eap.eapState = .retransmit ∧ eapEvents p q = [] ∧
    ∀ w : World π, let r := eapStep crypto w q
      r.eap.eapState = .sendResponse ∧ eapEvents q r = [] ∧
        r.eap.eapRespData = p.eap.lastRespData ∧ r.eap.lastRespData = p.eap.lastRespData ∧
        r.eapResp = (p.eapResp || p.eap.lastRespData.isSome) ∧ r.eapReq = false

def Proper (crypto : EapolCrypto) (s : Watched π) : PeerOp π → Prop
  | .step w =>
    let q := eapStep crypto w s.sm
    (EntersState .success s.sm q → OwedToMethod q s.log) ∧
      (EntersState .method s.sm q → CallAllowed s.sm s.log) ∧
      (Retransmitted s.sm → AnsweredFromStore crypto s.sm q)
  | _ => True

/-- The step is not one that follows a request of the type `EAP_TYPE_NONE`. -/
def NoTypeNone (s : Watched π) : PeerOp π → Prop
  | .step _ =>
    ¬ (s.sm.eap.eapState = .received ∧ s.sm.eap.rxReq = true ∧ s.sm.eap.reqMethod = typeNone)
  | _ => True

end Hostapd.EapolSupp
