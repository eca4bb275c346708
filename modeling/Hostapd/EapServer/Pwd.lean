import Hostapd.EapCommon.Pwd
import Hostapd.Lib.Run

/-!
# EAP-pwd at the server

`eap_server_pwd.c`, for a group of its configuration; `none` is a group that is not supported.

* **`EapPwdData`** is the method's data. A function that follows a pointer which is NULL has no
  result, here and in the peer.
* **`World`** is the method as the EAP state machine calls it, a request and then packets up to the
  one that is processed, with the Confirms that were sent and the one that was accepted.
-/

namespace Hostapd.Pwd.Server

open Hostapd.Lib

variable {P : Type}

structure EapPwdData (P : Type) where
  state : PwdState
  idPeer : Bytes
  idServer : Bytes
  password : Bytes
  token : Bytes
  groupNum : ℕ
  pwe : Option P
  k : Option ℕ
  privateValue : Option ℕ
  peerScalar : Option ℕ
  myScalar : Option ℕ
  myElement : Option P
  peerElement : Option P
  myConfirm : Bytes
  msk : List Bytes
  emsk : List Bytes

/-- What a call draws at random, and what the heap holds. -/
structure Draws where
  token : Bytes
  privateValue : ℕ
  mask : ℕ
  heap : ℕ → UInt8

/-- The method for a user with a password. Source: `eap_pwd_init`. -/
def eapPwdInit (pwdGroup : ℕ) (password : Bytes) : Option (EapPwdData P) :=
  if password = [] then none
  else some {
    state := .pwdIdReq
    idPeer := []
    idServer := ascii "server"
    password := password
    token := List.replicate 4 0
    groupNum := pwdGroup
    pwe := none
    k := none
    privateValue := none
    peerScalar := none
    myScalar := none
    myElement := none
    peerElement := none
    myConfirm := List.replicate sha256DigestLength 0
    msk := []
    emsk := [] }

section Method

variable [AddCommGroup P] [DecidableEq P] (hmac : Bytes → Bytes → Bytes) (crv : Option (Curve P))

def eapPwdBuildIdReq (data : EapPwdData P) (token : Bytes) : EapPwdData P × Option Bytes :=
  ({ data with token := token },
    some ([eapPwdOpcodeIdExch] ++ putBe16 data.groupNum ++
      [eapPwdDefaultRandFunc, eapPwdDefaultPrf] ++ token ++ [eapPwdPrepNone] ++ data.idServer))

def eapPwdBuildCommitReq (data : EapPwdData P) (r : Draws) :
    Option (EapPwdData P × Option Bytes) :=
  match crv, data.pwe with
  | some C, some pwe =>
    let privateValue := r.privateValue % C.order
    let mask := r.mask % C.order
    let myScalar := myScalarOf C privateValue mask
    let myElement := myElementOf pwe mask
    let data := { data with
      privateValue := some privateValue
      myScalar := some myScalar
      myElement := some myElement }
    match commitText C myElement myScalar with
    | none => some ({ data with state := .failure }, none)
    | some commit => some (data, some (eapPwdOpcodeCommitExch :: commit))
  | _, _ => none

def eapPwdBuildConfirmReq (data : EapPwdData P) : Option (EapPwdData P × Option Bytes) :=
  match crv, data.k, data.myElement, data.myScalar, data.peerElement, data.peerScalar with
  | some C, some k, some myElement, some myScalar, some peerElement, some peerScalar =>
    match confirmInput C data.groupNum k myElement myScalar peerElement peerScalar with
    | none => some ({ data with state := .failure }, none)
    | some input =>
      let conf := H hmac input
      some ({ data with myConfirm := conf }, some (eapPwdOpcodeConfirmExch :: conf))
  | _, _, _, _, _, _ => none

def eapPwdBuildReq (data : EapPwdData P) (r : Draws) : Option (EapPwdData P × Option Bytes) :=
  match data.state with
  | .pwdIdReq => some (eapPwdBuildIdReq data r.token)
  | .pwdCommitReq => eapPwdBuildCommitReq crv data r
  | .pwdConfirmReq => eapPwdBuildConfirmReq hmac crv data
  | _ => some (data, none)

/-- A packet is ignored. Source: `eap_pwd_check`. -/
def eapPwdCheck (data : EapPwdData P) (pkt : Packet) : Bool :=
  match pkt.body with
  | [] => true
  | opcode :: _ =>
    !(data.state = .pwdIdReq ∧ opcode = eapPwdOpcodeIdExch ∨
      data.state = .pwdCommitReq ∧ opcode = eapPwdOpcodeCommitExch ∨
      data.state = .pwdConfirmReq ∧ opcode = eapPwdOpcodeConfirmExch)

def eapPwdProcessIdResp (data : EapPwdData P) (payload : Bytes) : EapPwdData P :=
  if payload.length < 9 then data
  else if be16 payload ≠ data.groupNum ∨ payload.getD 2 0 ≠ eapPwdDefaultRandFunc ∨
      (payload.drop 4).take 4 ≠ data.token ∨ payload.getD 3 0 ≠ eapPwdDefaultPrf then
    { data with state := .failure }
  else
    let idPeer := payload.drop 9
    match computePasswordElement hmac crv data.password data.idServer idPeer data.token with
    | none => { data with idPeer := idPeer }
    | some pwe => { data with idPeer := idPeer, pwe := some pwe, state := .pwdCommitReq }

def eapPwdProcessCommitResp (data : EapPwdData P) (octets : Bytes) : Option (EapPwdData P) :=
  match crv, data.pwe, data.privateValue with
  | some C, some pwe, some privateValue =>
    let data := { data with peerScalar := some (scalarOf C octets), k := some 0 }
    match elementOf C octets with
    | none => some { data with state := .failure }
    | some peerElement =>
      let data := { data with peerElement := some peerElement }
      if inSmallSubgroup C peerElement then some { data with state := .failure }
      else
        match sharedKey C pwe privateValue (scalarOf C octets) peerElement with
        | none => some { data with state := .failure }
        | some k => some { data with k := some k, state := .pwdConfirmReq }
  | _, _, _ => none

/-- A Confirm is processed, and the hash that it was compared with, where it was accepted.
Source: `eap_pwd_process_confirm_resp`. -/
def eapPwdProcessConfirmResp (data : EapPwdData P) (heap : ℕ → UInt8) (octets : Bytes) :
    Option (EapPwdData P × Option Bytes) :=
  match crv, data.k, data.myElement, data.myScalar, data.peerElement, data.peerScalar with
  | some C, some k, some myElement, some myScalar, some peerElement, some peerScalar =>
    match confirmInput C data.groupNum k peerElement peerScalar myElement myScalar with
    | none => some (data, none)
    | some input =>
      let conf := H hmac input
      if conf.isPrefixOf octets then
        let keys := computeKeys hmac C (malloc heap C.primeLen) data.groupNum k peerScalar myScalar
          conf data.myConfirm
        some ({ data with msk := keys.1, emsk := keys.2, state := .success }, some conf)
      else some (data, none)
  | _, _, _, _, _, _ => none

def eapPwdProcess (data : EapPwdData P) (heap : ℕ → UInt8) (pkt : Packet) :
    Option (EapPwdData P × Option Bytes) :=
  match pkt.body with
  | [] => some (data, none)
  | opcode :: payload =>
    if opcode &&& 0x3f = eapPwdOpcodeIdExch then
      some (eapPwdProcessIdResp hmac crv data payload, none)
    else if opcode &&& 0x3f = eapPwdOpcodeCommitExch then
      (eapPwdProcessCommitResp crv data pkt.octets).map fun data => (data, none)
    else if opcode &&& 0x3f = eapPwdOpcodeConfirmExch then
      eapPwdProcessConfirmResp hmac crv data heap pkt.octets
    else some (data, none)

def eapPwdIsDone (data : EapPwdData P) : Bool := data.state = .success || data.state = .failure

end Method

/-! ## Sessions -/

/-- The method between the calls of the EAP state machine. -/
structure World (P : Type) where
  data : EapPwdData P
  /-- a request was sent and no response was processed -/
  waiting : Bool
  /-- the Confirms that were sent -/
  sent : List Bytes
  /-- the Confirm that was accepted -/
  accepted : Option Bytes

inductive Call
  | buildReq (r : Draws)
  | receive (heap : ℕ → UInt8) (pkt : Packet)

section Step

variable [AddCommGroup P] [DecidableEq P] (hmac : Bytes → Bytes → Bytes) (crv : Option (Curve P))

def confirmIn (data : EapPwdData P) (msg : Option Bytes) : List Bytes :=
  if data.state = .pwdConfirmReq then (msg.map List.tail).toList else []

/-- A call of the EAP state machine: requests are built until the method is done, and packets are
processed while a response is awaited. -/
def step : Option (World P) → Call → Option (World P)
  | none, _ => none
  | some w, .buildReq r =>
    if w.waiting ∨ eapPwdIsDone w.data then some w
    else
      (eapPwdBuildReq hmac crv w.data r).map fun out =>
        { w with data := out.1, waiting := true, sent := w.sent ++ confirmIn w.data out.2 }
  | some w, .receive heap pkt =>
    if ¬w.waiting ∨ eapPwdIsDone w.data ∨ eapPwdCheck w.data pkt then some w
    else
      (eapPwdProcess hmac crv w.data heap pkt).map fun out =>
        { w with data := out.1, waiting := false, accepted := out.2.or w.accepted }

def start (pwdGroup : ℕ) (password : Bytes) : Option (World P) :=
  (eapPwdInit pwdGroup password).map fun data => ⟨data, false, [], none⟩

end Step

end Hostapd.Pwd.Server

/-!
## EAP-pwd at the server: who makes the Confirm that is accepted

* **`Keyed`**: the data of a session, with the shared key that comes from the password element of
  the user's password and of both identities.
* **`Phase`** is the invariant of a session, a clause for each state; `step_phase`, `run_phase`.
* **`Authentic`**: the Confirm that was accepted is the hash of the shared key and both Commits, and
  whoever made it has computed this hash. **`authentic_iff`**: that is so exactly when the Commit of
  the peer is not hashed like the server's own.
-/

namespace Hostapd.Pwd.Server

open Hostapd.Lib

/-- What a session consists of, from the commitments on. -/
structure Session (P : Type) where
  pwe : P
  privateValue : ℕ
  myScalar : ℕ
  myElement : P
  peerScalar : ℕ
  peerElement : P
  k : ℕ

section Phases

variable {P : Type} [AddCommGroup P] [DecidableEq P] (hmac : Bytes → Bytes → Bytes)

def Session.own (C : Curve P) (groupNum : ℕ) (v : Session P) : Option Bytes :=
  confirmInput C groupNum v.k v.myElement v.myScalar v.peerElement v.peerScalar

def Session.peers (C : Curve P) (groupNum : ℕ) (v : Session P) : Option Bytes :=
  confirmInput C groupNum v.k v.peerElement v.peerScalar v.myElement v.myScalar

/-- The password element is the one of the user's password, both identities and the token. -/
def FromPassword (C : Curve P) (password : Bytes) (data : EapPwdData P) (pwe : P) : Prop :=
  computePasswordElement hmac (some C) password (ascii "server") data.idPeer data.token = some pwe

/-- The data of a session whose shared key comes from the password. -/
structure Keyed (C : Curve P) (password : Bytes) (data : EapPwdData P) (v : Session P) : Prop where
  fromPassword : FromPassword hmac C password data v.pwe
  privateValue : data.privateValue = some v.privateValue
  myScalar : data.myScalar = some v.myScalar
  myElement : data.myElement = some v.myElement
  peerScalar : data.peerScalar = some v.peerScalar
  peerElement : data.peerElement = some v.peerElement
  k : data.k = some v.k
  shared : sharedKey C v.pwe v.privateValue v.peerScalar v.peerElement = some v.k

/-- The Confirms that were sent are the session's own one. -/
def SentOwn (C : Curve P) (w : World P) (v : Session P) : Prop :=
  ∀ c ∈ w.sent, ∃ x, v.own C w.data.groupNum = some x ∧ c = H hmac x

def HasSent (C : Curve P) (w : World P) (v : Session P) : Prop :=
  ∃ x, v.own C w.data.groupNum = some x ∧ H hmac x ∈ w.sent

def Phase (C : Curve P) (password : Bytes) (w : World P) : Prop :=
  match w.data.state with
  | .pwdIdReq => w.sent = []
  | .pwdCommitReq => w.sent = [] ∧ ∃ pwe, FromPassword hmac C password w.data pwe ∧
      w.data.pwe = some pwe ∧
      (w.waiting = true → w.data.myScalar.isSome = true ∧ w.data.myElement.isSome = true)
  | .pwdConfirmReq => ∃ v, Keyed hmac C password w.data v ∧ SentOwn hmac C w v ∧
      (w.waiting = true → HasSent hmac C w v)
  | .success => ∃ v x, Keyed hmac C password w.data v ∧ SentOwn hmac C w v ∧ HasSent hmac C w v ∧
      v.peers C w.data.groupNum = some x ∧ w.accepted = some (H hmac x)
  | .failure => True

structure Inv (C : Curve P) (password : Bytes) (w : World P) : Prop where
  samePassword : w.data.password = password
  idServer : w.data.idServer = ascii "server"
  phase : Phase hmac C password w

end Phases

section Runs

variable {P : Type} [AddCommGroup P] [DecidableEq P] {hmac : Bytes → Bytes → Bytes} {C : Curve P}
  {password : Bytes} {w w' : World P}

variable {data : EapPwdData P} {v : Session P}

theorem buildConfirmReq_eq
    (hv : Keyed hmac C password data v) :
    eapPwdBuildConfirmReq hmac (some C) data =
      match v.own C data.groupNum with
      | none => some ({ data with state := .failure }, none)
      | some input =>
        some ({ data with myConfirm := H hmac input },
          some (eapPwdOpcodeConfirmExch :: H hmac input)) := by
  unfold eapPwdBuildConfirmReq Session.own
  rewrite [hv.k, hv.myElement, hv.myScalar, hv.peerElement, hv.peerScalar]
  rfl

theorem processConfirmResp_eq
    (hv : Keyed hmac C password data v) (heap : ℕ → UInt8) (octets : Bytes) :
    eapPwdProcessConfirmResp hmac (some C) data heap octets =
      match v.peers C data.groupNum with
      | none => some (data, none)
      | some input =>
        if (H hmac input).isPrefixOf octets then
          let keys := computeKeys hmac C (malloc heap C.primeLen) data.groupNum v.k v.peerScalar
            v.myScalar (H hmac input) data.myConfirm
          some ({ data with msk := keys.1, emsk := keys.2, state := .success },
            some (H hmac input))
        else some (data, none) := by
  unfold eapPwdProcessConfirmResp Session.peers
  rewrite [hv.k, hv.myElement, hv.myScalar, hv.peerElement, hv.peerScalar]
  rfl

theorem Keyed.of_eq {data data' : EapPwdData P}
    (hv : Keyed hmac C password data v) (hid : data'.idPeer = data.idPeer)
    (htoken : data'.token = data.token) (hprivate : data'.privateValue = data.privateValue)
    (hscalar : data'.myScalar = data.myScalar) (helement : data'.myElement = data.myElement)
    (hpeerScalar : data'.peerScalar = data.peerScalar)
    (hpeerElement : data'.peerElement = data.peerElement) (hk : data'.k = data.k) :
    Keyed hmac C password data' v where
  fromPassword := by
    rw [FromPassword, hid, htoken]
    exact hv.fromPassword
  privateValue := hprivate.trans hv.privateValue
  myScalar := hscalar.trans hv.myScalar
  myElement := helement.trans hv.myElement
  peerScalar := hpeerScalar.trans hv.peerScalar
  peerElement := hpeerElement.trans hv.peerElement
  k := hk.trans hv.k
  shared := hv.shared

theorem buildReq_inv {r : Draws} (hw : Inv hmac C password w)
    (h : step hmac (some C) (some w) (.buildReq r) = some w') : Inv hmac C password w' := by
  rw [step] at h
  split_ifs at h with hskip
  · cases h
    exact hw
  obtain ⟨⟨data, msg⟩, hbuild, rfl⟩ := Option.map_eq_some_iff.mp h
  have hphase := hw.phase
  unfold Phase at hphase
  unfold eapPwdBuildReq at hbuild
  cases hstate : w.data.state with
  | pwdIdReq =>
    rw [hstate] at hphase hbuild
    cases hbuild
    refine ⟨hw.samePassword, hw.idServer, ?_⟩
    simp [Phase, hstate, confirmIn, hphase]
  | pwdCommitReq =>
    rw [hstate] at hphase hbuild
    obtain ⟨hsent, pwe, hfrom, hpwe, -⟩ := hphase
    unfold eapPwdBuildCommitReq at hbuild
    rw [hpwe] at hbuild
    dsimp only at hbuild
    split at hbuild
    · cases hbuild
      exact ⟨hw.samePassword, hw.idServer, trivial⟩
    · cases hbuild
      refine ⟨hw.samePassword, hw.idServer, ?_⟩
      simp only [Phase, hstate, confirmIn]
      exact ⟨by simpa using hsent, pwe, hfrom, rfl, fun _ => ⟨rfl, rfl⟩⟩
  | pwdConfirmReq =>
    rw [hstate] at hphase hbuild
    obtain ⟨v, hv, hsent, -⟩ := hphase
    dsimp only at hbuild
    rw [buildConfirmReq_eq hv] at hbuild
    split at hbuild
    · cases hbuild
      exact ⟨hw.samePassword, hw.idServer, trivial⟩
    · next input hinput =>
      cases hbuild
      have hin : confirmIn w.data (some (eapPwdOpcodeConfirmExch :: H hmac input)) =
          [H hmac input] := by
        rw [confirmIn, if_pos hstate]
        rfl
      refine ⟨hw.samePassword, hw.idServer, ?_⟩
      simp only [Phase, hstate, hin]
      refine ⟨v, hv.of_eq rfl rfl rfl rfl rfl rfl rfl rfl, fun c hc => ?_, fun _ => ?_⟩
      · rcases List.mem_append.mp hc with hc | hc
        · exact hsent c hc
        · exact ⟨input, hinput, List.mem_singleton.mp hc⟩
      · exact ⟨input, hinput, List.mem_append_right _ (List.mem_singleton_self _)⟩
  | success =>
    have hdone : eapPwdIsDone w.data = true := by
      rw [eapPwdIsDone, hstate]
      rfl
    exact absurd (Or.inr hdone) hskip
  | failure =>
    have hdone : eapPwdIsDone w.data = true := by
      rw [eapPwdIsDone, hstate]
      rfl
    exact absurd (Or.inr hdone) hskip

theorem processIdResp_phase {payload : Bytes} (hw : Inv hmac C password w)
    (hstate : w.data.state = .pwdIdReq) :
    Inv hmac C password { w with
      data := eapPwdProcessIdResp hmac (some C) w.data payload, waiting := false } := by
  have hsent : w.sent = [] := by
    have hphase := hw.phase
    rwa [Phase, hstate] at hphase
  unfold eapPwdProcessIdResp
  split_ifs with hshort hchanged
  · refine ⟨hw.samePassword, hw.idServer, ?_⟩
    rw [Phase, hstate]
    exact hsent
  · exact ⟨hw.samePassword, hw.idServer, trivial⟩
  · dsimp only
    split
    · refine ⟨hw.samePassword, hw.idServer, ?_⟩
      simp only [Phase, hstate]
      exact hsent
    · next pwe hpwe =>
      refine ⟨hw.samePassword, hw.idServer, hsent, pwe, ?_, rfl, nofun⟩
      rw [FromPassword, ← hw.samePassword, ← hw.idServer]
      exact hpwe

theorem processCommitResp_phase {octets : Bytes}
    (hw : Inv hmac C password w) (hstate : w.data.state = .pwdCommitReq) (hwait : w.waiting = true)
    (h : eapPwdProcessCommitResp (some C) w.data octets = some data) :
    Inv hmac C password { w with data := data, waiting := false } := by
  have hphase := hw.phase
  rw [Phase, hstate] at hphase
  obtain ⟨hsent, pwe, hfrom, hpwe, hown⟩ := hphase
  obtain ⟨hscalar, helement⟩ := hown hwait
  obtain ⟨s, hs⟩ := Option.isSome_iff_exists.mp hscalar
  obtain ⟨E, hE⟩ := Option.isSome_iff_exists.mp helement
  unfold eapPwdProcessCommitResp at h
  rw [hpwe] at h
  cases hprivate : w.data.privateValue with
  | none =>
    rw [hprivate] at h
    cases h
  | some r =>
    rw [hprivate] at h
    dsimp only at h
    split at h
    · cases h
      exact ⟨hw.samePassword, hw.idServer, trivial⟩
    · next E' hE' =>
      split_ifs at h with hsmall
      · cases h
        exact ⟨hw.samePassword, hw.idServer, trivial⟩
      · split at h
        · cases h
          exact ⟨hw.samePassword, hw.idServer, trivial⟩
        · next k hk =>
          cases h
          refine ⟨hw.samePassword, hw.idServer,
            ⟨pwe, r, s, E, scalarOf C octets, E', k⟩, ?_, fun c hc => ?_, nofun⟩
          · exact ⟨hfrom, rfl, hs, hE, rfl, rfl, rfl, hk⟩
          · rw [hsent] at hc
            exact absurd hc List.not_mem_nil

theorem processConfirmResp_phase {heap : ℕ → UInt8} {octets : Bytes}
    {out : EapPwdData P × Option Bytes} (hw : Inv hmac C password w)
    (hstate : w.data.state = .pwdConfirmReq) (hwait : w.waiting = true)
    (h : eapPwdProcessConfirmResp hmac (some C) w.data heap octets = some out) :
    Inv hmac C password
      { w with data := out.1, waiting := false, accepted := out.2.or w.accepted } := by
  have hphase := hw.phase
  rw [Phase, hstate] at hphase
  obtain ⟨v, hv, hsent, hhas⟩ := hphase
  rw [processConfirmResp_eq hv] at h
  have hstay : Inv hmac C password { w with waiting := false } := by
    refine ⟨hw.samePassword, hw.idServer, ?_⟩
    rw [Phase, hstate]
    exact ⟨v, hv, hsent, nofun⟩
  split at h
  · cases h
    exact hstay
  · next input hinput =>
    split_ifs at h with hsame
    · cases h
      refine ⟨hw.samePassword, hw.idServer, v, input, ?_, hsent, hhas hwait, hinput, rfl⟩
      exact hv.of_eq rfl rfl rfl rfl rfl rfl rfl rfl
    · cases h
      exact hstay

omit [AddCommGroup P] [DecidableEq P] in
theorem eapPwdCheck_cases {pkt : Packet} (h : eapPwdCheck data pkt = false) :
    ∃ opcode payload, pkt.body = opcode :: payload ∧
      (data.state = .pwdIdReq ∧ opcode = eapPwdOpcodeIdExch ∨
        data.state = .pwdCommitReq ∧ opcode = eapPwdOpcodeCommitExch ∨
        data.state = .pwdConfirmReq ∧ opcode = eapPwdOpcodeConfirmExch) := by
  unfold eapPwdCheck at h
  split at h
  · cases h
  · next opcode payload hbody =>
    rw [Bool.not_eq_eq_eq_not] at h
    exact ⟨opcode, payload, hbody, of_decide_eq_true h⟩

theorem receive_inv {heap : ℕ → UInt8} {pkt : Packet} (hw : Inv hmac C password w)
    (h : step hmac (some C) (some w) (.receive heap pkt) = some w') :
    Inv hmac C password w' := by
  rw [step] at h
  split_ifs at h with hskip
  · cases h
    exact hw
  rw [not_or, not_or, not_not] at hskip
  obtain ⟨hwait, -, hcheck⟩ := hskip
  obtain ⟨out, hout, rfl⟩ := Option.map_eq_some_iff.mp h
  obtain ⟨opcode, payload, hbody, hcases⟩ := eapPwdCheck_cases (Bool.not_eq_true _ ▸ hcheck)
  unfold eapPwdProcess at hout
  rw [hbody] at hout
  dsimp only at hout
  rcases hcases with ⟨hstate, rfl⟩ | ⟨hstate, rfl⟩ | ⟨hstate, rfl⟩
  · rw [if_pos (by decide)] at hout
    cases hout
    exact processIdResp_phase hw hstate
  · rw [if_neg (by decide), if_pos (by decide)] at hout
    obtain ⟨data, hdata, rfl⟩ := Option.map_eq_some_iff.mp hout
    exact processCommitResp_phase hw hstate hwait hdata
  · rw [if_neg (by decide), if_neg (by decide), if_pos (by decide)] at hout
    exact processConfirmResp_phase hw hstate hwait hout

variable {pwdGroup : ℕ} {calls : List Call}

/-- **Every session keeps the invariant.** -/
theorem run_inv_of_start
    (h : run (step hmac (some C)) (start pwdGroup password) calls = some w) :
    Inv hmac C password w := by
  have hrun : ∀ w', run (step hmac (some C)) (start pwdGroup password) calls = some w' →
      Inv hmac C password w' := by
    refine run_inv (I := fun o : Option (World P) => ∀ w', o = some w' → Inv hmac C password w')
      (fun o call ho w' hw' => ?_) (fun w' hw' => ?_) calls
    · cases o with
      | none => cases hw'
      | some w =>
        cases call with
        | buildReq r => exact buildReq_inv (ho w rfl) hw'
        | receive heap pkt => exact receive_inv (ho w rfl) hw'
    · obtain ⟨data, hdata, rfl⟩ := Option.map_eq_some_iff.mp hw'
      unfold eapPwdInit at hdata
      split_ifs at hdata
      cases hdata
      exact ⟨rfl, rfl, rfl⟩
  exact hrun w h

theorem step_unsupported {call : Call}
    (hw : w.data.state = .pwdIdReq ∨ w.data.state = .failure)
    (h : step hmac none (some w) call = some w') :
    w'.data.state = .pwdIdReq ∨ w'.data.state = .failure := by
  cases call with
  | buildReq r =>
    rw [step] at h
    split_ifs at h with hskip
    · cases h
      exact hw
    obtain ⟨⟨data, msg⟩, hbuild, rfl⟩ := Option.map_eq_some_iff.mp h
    unfold eapPwdBuildReq at hbuild
    rcases hw with hstate | hstate
    · rw [hstate] at hbuild
      cases hbuild
      exact Or.inl hstate
    · rw [hstate] at hbuild
      cases hbuild
      exact Or.inr hstate
  | receive heap pkt =>
    rw [step] at h
    split_ifs at h with hskip
    · cases h
      exact hw
    rw [not_or, not_or] at hskip
    obtain ⟨out, hout, rfl⟩ := Option.map_eq_some_iff.mp h
    obtain ⟨opcode, payload, hbody, hcases⟩ := eapPwdCheck_cases (Bool.not_eq_true _ ▸ hskip.2.2)
    have hid : w.data.state = .pwdIdReq ∧ opcode = eapPwdOpcodeIdExch := by
      rcases hw with hstate | hstate
      · simpa [hstate] using hcases
      · simp [hstate] at hcases
    obtain ⟨hstate, rfl⟩ := hid
    unfold eapPwdProcess at hout
    rw [hbody] at hout
    dsimp only at hout
    rw [if_pos (by decide)] at hout
    cases hout
    unfold eapPwdProcessIdResp
    split_ifs
    · exact Or.inl hstate
    · exact Or.inr rfl
    · exact Or.inl hstate

theorem run_unsupported
    (h : run (step hmac none) (start pwdGroup password) calls = some w) :
    w.data.state = .pwdIdReq ∨ w.data.state = .failure := by
  have hrun : ∀ w' : World P, run (step hmac none) (start pwdGroup password) calls = some w' →
      (w'.data.state = .pwdIdReq ∨ w'.data.state = .failure) := by
    refine run_inv (I := fun o : Option (World P) => ∀ w', o = some w' →
      (w'.data.state = .pwdIdReq ∨ w'.data.state = .failure)) (fun o call ho w' hw' => ?_)
      (fun w' hw' => ?_) calls
    · cases o with
      | none => cases hw'
      | some w => exact step_unsupported (ho w rfl) hw'
    · obtain ⟨data, hdata, rfl⟩ := Option.map_eq_some_iff.mp hw'
      unfold eapPwdInit at hdata
      split_ifs at hdata
      cases hdata
      exact Or.inl rfl
  exact hrun w h

/-- The Confirm that was accepted is the hash of the shared key that comes from the password and of
both Commits, and is earned. -/
def Authentic (hmac : Bytes → Bytes → Bytes) (crv : Option (Curve P)) (password : Bytes)
    (w : World P) : Prop :=
  ∃ C v x, crv = some C ∧ Keyed hmac C password w.data v ∧
    v.peers C w.data.groupNum = some x ∧ w.accepted = some (H hmac x) ∧ Earned hmac w.sent x

/-- The Commit of the peer is hashed like the server's own. -/
def Reflected (crv : Option (Curve P)) (w : World P) : Prop :=
  ∃ C, crv = some C ∧ hashedCommit C w.data.peerElement w.data.peerScalar =
    hashedCommit C w.data.myElement w.data.myScalar

/-- **The server succeeds for a Confirm of its own exactly where the Commits are alike.** -/
theorem authentic_iff {crv : Option (Curve P)} (hcrv : ∀ C, crv = some C → C.Lawful)
    (hinj : ∀ key, Function.Injective (hmac key))
    (h : run (step hmac crv) (start pwdGroup password) calls = some w)
    (hsuccess : w.data.state = .success) :
    Authentic hmac crv password w ↔ ¬Reflected crv w := by
  cases crv with
  | none =>
    rcases run_unsupported h with hstate | hstate
    · rw [hsuccess] at hstate
      cases hstate
    · rw [hsuccess] at hstate
      cases hstate
  | some C =>
    have hphase := (run_inv_of_start h).phase
    rw [Phase, hsuccess] at hphase
    obtain ⟨v, x, hv, hsent, ⟨y, hy, hysent⟩, hx, haccepted⟩ := hphase
    have hreflected : Reflected (some C) w ↔ x = y := by
      rw [confirmInput_swap (hcrv C rfl) hx hy, Reflected]
      constructor
      · rintro ⟨C', hC', heq⟩
        cases hC'
        rwa [hv.peerElement, hv.peerScalar, hv.myElement, hv.myScalar] at heq
      · intro heq
        refine ⟨C, rfl, ?_⟩
        rwa [hv.peerElement, hv.peerScalar, hv.myElement, hv.myScalar]
    constructor
    · rintro ⟨C', v', x', hC', -, -, haccepted', hearned⟩ hsame
      rw [hreflected] at hsame
      rw [haccepted] at haccepted'
      rw [earned_iff hinj, ← Option.some.inj haccepted', hsame] at hearned
      exact hearned hysent
    · intro hdiff
      refine ⟨C, v, x, rfl, hv, hx, haccepted, (earned_iff hinj).mpr fun hxsent => ?_⟩
      obtain ⟨y', hy', hxy⟩ := hsent _ hxsent
      rw [hy] at hy'
      cases hy'
      exact hdiff (hreflected.mpr (hinj _ hxy))

end Runs

end Hostapd.Pwd.Server
