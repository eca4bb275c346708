import Hostapd.EapCommon.Pwd
import Hostapd.Lib.Run

/-!
# EAP-pwd at the peer

`eap_peer/eap_pwd.c`. The server chooses the group, so that the points of a session have a type that
depends on the number of the group.

* **`EapPwdData`** is the method's data, `Group` what belongs to the group and `Commitment` what
  belongs to a Commit; a Commit is answered in every state of the method, each time with values of
  its own.
* **`eapPwdProcess`** is the method, and **`World`** the method as the EAP state machine calls it:
  when it is done, it gets no more requests.
-/

namespace Hostapd.Pwd.Peer

open Hostapd.Lib

structure Commitment (P : Type) where
  privateValue : ℕ
  myScalar : ℕ
  myElement : P
  serverScalar : ℕ
  serverElement : P
  k : ℕ

/-- A group and the password element in it. Source: `EAP_PWD_group`. -/
structure Group (P : ℕ → Type) where
  num : ℕ
  curve : Curve (P num)
  pwe : P num
  commit : Option (Commitment (P num))

structure EapPwdData (P : ℕ → Type) where
  state : PwdState
  idPeer : Bytes
  idServer : Bytes
  password : Bytes
  groupNum : ℕ
  grp : Option (Group P)
  msk : List Bytes
  emsk : List Bytes

/-- What a call draws at random, and what the heap holds. -/
structure Draws where
  privateValue : ℕ
  mask : ℕ
  heap : ℕ → UInt8

variable {P : ℕ → Type}

/-- The method for an identity and a password. Source: `eap_pwd_init`. -/
def eapPwdInit (identity password : Option Bytes) : Option (EapPwdData P) :=
  match password, identity with
  | some password, some identity =>
    some {
      state := .pwdIdReq
      idPeer := identity
      idServer := []
      password := password
      groupNum := 0
      grp := none
      msk := []
      emsk := [] }
  | _, _ => none

/-- The group of a packet of the identity exchange, and the octets of its fields. -/
def idFields (groupNum : ℕ) (token identity : Bytes) : Bytes :=
  putBe16 groupNum ++ [eapPwdDefaultRandFunc, eapPwdDefaultPrf] ++ token ++ [eapPwdPrepNone] ++
    identity

section Method

variable [∀ n, AddCommGroup (P n)] [∀ n, DecidableEq (P n)] (hmac : Bytes → Bytes → Bytes)
  (crv : ∀ n, Option (Curve (P n)))

def eapPwdPerformIdExchange (data : EapPwdData P) (payload : Bytes) :
    EapPwdData P × Option Bytes :=
  if data.state ≠ .pwdIdReq ∨ payload.length < 9 then (data, none)
  else
    let num := be16 payload
    let data := { data with groupNum := num }
    if payload.getD 2 0 ≠ eapPwdDefaultRandFunc ∨ payload.getD 3 0 ≠ eapPwdDefaultPrf then
      (data, none)
    else
      let token := (payload.drop 4).take 4
      let data := { data with idServer := payload.drop 9, grp := none }
      match crv num with
      | none => (data, none)
      | some C =>
        match computePasswordElement hmac (some C) data.password data.idServer data.idPeer token
          with
        | none => (data, none)
        | some pwe =>
          ({ data with grp := some ⟨num, C, pwe, none⟩, state := .pwdCommitReq },
            some (eapPwdOpcodeIdExch :: idFields num token data.idPeer))

/-- The values of a Commit, with the shared key where there is one, and the response.
Source: `eap_pwd_perform_commit_exchange`. -/
def commitOf {Q : Type} [AddCommGroup Q] [DecidableEq Q] (C : Curve Q) (pwe : Q) (r : Draws)
    (octets : Bytes) : Commitment Q × Option Bytes :=
  let privateValue := r.privateValue % C.order
  let mask := r.mask % C.order
  let myScalar := myScalarOf C privateValue mask
  let myElement := myElementOf pwe mask
  let serverScalar := scalarOf C octets
  let commit : Commitment Q := ⟨privateValue, myScalar, myElement, serverScalar, 0, 0⟩
  match elementOf C octets with
  | none => (commit, none)
  | some serverElement =>
    let commit := { commit with serverElement := serverElement }
    if inSmallSubgroup C serverElement then (commit, none)
    else
      match sharedKey C pwe privateValue serverScalar serverElement with
      | none => (commit, none)
      | some k =>
        ({ commit with k := k },
          (commitText C myElement myScalar).map (eapPwdOpcodeCommitExch :: ·))

def eapPwdPerformCommitExchange (data : EapPwdData P) (r : Draws) (octets : Bytes) :
    Option (EapPwdData P × Option Bytes) :=
  match data.grp with
  | none => none
  | some g =>
    let out := commitOf g.curve g.pwe r octets
    some ({ data with
      grp := some { g with commit := some out.1 }
      state := if out.2.isSome then .pwdConfirmReq else .failure }, out.2)

/-- A Confirm is answered, and the hash that it was compared with, where it was accepted.
Source: `eap_pwd_perform_confirm_exchange`. -/
def eapPwdPerformConfirmExchange (data : EapPwdData P) (heap : ℕ → UInt8) (octets : Bytes) :
    Option (EapPwdData P × Option Bytes × Option Bytes) :=
  match data.grp with
  | none => none
  | some g =>
    match g.commit with
    | none => none
    | some c =>
      let failed := { data with state := .failure }
      match confirmInput g.curve data.groupNum c.k c.serverElement c.serverScalar c.myElement
        c.myScalar, confirmInput g.curve data.groupNum c.k c.myElement c.myScalar c.serverElement
        c.serverScalar with
      | some input, some own =>
        if (H hmac input).isPrefixOf octets then
          let conf := H hmac own
          let keys := computeKeys hmac g.curve (malloc heap g.curve.primeLen) data.groupNum c.k
            c.myScalar c.serverScalar conf (H hmac input)
          some ({ data with msk := keys.1, emsk := keys.2, state := .success },
            some (eapPwdOpcodeConfirmExch :: conf), some (H hmac input))
        else some (failed, none, none)
      | _, _ => some (failed, none, none)

/-- What a call of the method gives: the response, whether the method is done, and the Confirm that
was accepted. -/
structure Ret (P : ℕ → Type) where
  data : EapPwdData P
  resp : Option Bytes
  done : Bool
  accepted : Option Bytes

def eapPwdProcess (data : EapPwdData P) (r : Draws) (pkt : Packet) : Option (Ret P) :=
  match pkt.body with
  | [] => some ⟨data, none, false, none⟩
  | opcode :: payload =>
    if opcode &&& 0x3f = eapPwdOpcodeIdExch then
      let out := eapPwdPerformIdExchange hmac crv data payload
      some ⟨out.1, out.2, false, none⟩
    else if opcode &&& 0x3f = eapPwdOpcodeCommitExch then
      (eapPwdPerformCommitExchange data r pkt.octets).map fun out => ⟨out.1, out.2, false, none⟩
    else if opcode &&& 0x3f = eapPwdOpcodeConfirmExch then
      (eapPwdPerformConfirmExchange hmac data r.heap pkt.octets).map fun out =>
        ⟨out.1, out.2.1, true, out.2.2⟩
    else some ⟨data, none, false, none⟩

end Method

/-! ## Sessions -/

/-- The method between the calls of the EAP state machine. -/
structure World (P : ℕ → Type) where
  data : EapPwdData P
  /-- `METHOD_DONE` -/
  done : Bool
  /-- the Confirms that were sent -/
  sent : List Bytes
  /-- the Confirm that was accepted, and those that were sent before -/
  accepted : Option (Bytes × List Bytes)

section Step

variable [∀ n, AddCommGroup (P n)] [∀ n, DecidableEq (P n)] (hmac : Bytes → Bytes → Bytes)
  (crv : ∀ n, Option (Curve (P n)))

def step : Option (World P) → Draws × Packet → Option (World P)
  | none, _ => none
  | some w, (r, pkt) =>
    if w.done then some w
    else
      (eapPwdProcess hmac crv w.data r pkt).map fun out =>
        { data := out.data
          done := out.done
          sent := w.sent ++ if out.done then (out.resp.map List.tail).toList else []
          accepted := (out.accepted.map fun c => (c, w.sent)).or w.accepted }

def start (identity password : Option Bytes) : Option (World P) :=
  (eapPwdInit identity password).map fun data => ⟨data, false, [], none⟩

end Step

end Hostapd.Pwd.Peer

/-!
## EAP-pwd at the peer: who makes the Confirm that is accepted

* **`Inv`**: a group in the data is that of its number and has the password element of the peer's
  password and of both identities, and a commitment has the shared key where there is one and zero
  where there is none. Before the method is done no Confirm was sent. `step_inv` and
  `run_inv_of_start`.
* **`authentic_iff`**: the Confirm that was accepted is the hash of the shared key exactly where
  there is one, and then whoever made it has computed this hash. A Confirm is also accepted when the
  Commit before it was refused, because the shared point was at infinity.
-/

namespace Hostapd.Pwd.Peer

open Hostapd.Lib

section Invariant

variable {P : ℕ → Type} [∀ n, AddCommGroup (P n)] [∀ n, DecidableEq (P n)]
  (hmac : Bytes → Bytes → Bytes) (crv : ∀ n, Option (Curve (P n)))

/-- The password element is the one of the password and both identities, for a token. -/
def FromPassword (password : Bytes) (data : EapPwdData P) (g : Group P) : Prop :=
  crv g.num = some g.curve ∧ ∃ token, computePasswordElement hmac (some g.curve) password
    data.idServer data.idPeer token = some g.pwe

def keyOf (g : Group P) (c : Commitment (P g.num)) : Option ℕ :=
  sharedKey g.curve g.pwe c.privateValue c.serverScalar c.serverElement

def serversInput (data : EapPwdData P) (g : Group P) (c : Commitment (P g.num)) : Option Bytes :=
  confirmInput g.curve data.groupNum c.k c.serverElement c.serverScalar c.myElement c.myScalar

/-- The commitment has the shared key, zero where there is none, or the element was refused. -/
def KeyKept (g : Group P) (c : Commitment (P g.num)) : Prop :=
  c.k = (keyOf g c).getD 0 ∨ c.serverElement = 0

structure Inv (identity password : Bytes) (w : World P) : Prop where
  samePassword : w.data.password = password
  idPeer : w.data.idPeer = identity
  group : ∀ g, w.data.grp = some g → FromPassword hmac crv password w.data g ∧
    ∀ c, g.commit = some c → KeyKept g c
  sent : w.done = false → w.sent = [] ∧ w.data.state ≠ .success
  accepted : w.data.state = .success → ∃ g c x, w.data.grp = some g ∧ g.commit = some c ∧
    serversInput w.data g c = some x ∧ w.accepted = some (H hmac x, [])

/-- The Confirm that was accepted is the hash of the shared key that comes from the password and of
both Commits, and is earned. -/
def Authentic (password : Bytes) (w : World P) : Prop :=
  ∃ g c x before, w.data.grp = some g ∧ FromPassword hmac crv password w.data g ∧
    g.commit = some c ∧ keyOf g c = some c.k ∧ serversInput w.data g c = some x ∧
    w.accepted = some (H hmac x, before) ∧ Earned hmac before x

/-- The Commits of both sides have a shared point that is not at infinity. -/
def Shared (w : World P) : Prop :=
  ∃ g c, w.data.grp = some g ∧ g.commit = some c ∧
    sharedPoint g.curve g.pwe c.privateValue c.serverScalar c.serverElement ≠ 0

end Invariant

section Runs

variable {P : ℕ → Type} [∀ n, AddCommGroup (P n)] [∀ n, DecidableEq (P n)]
  {hmac : Bytes → Bytes → Bytes} {crv : ∀ n, Option (Curve (P n))} {identity password : Bytes}
  {w w' : World P}

variable (hmac crv) in
theorem eapPwdPerformIdExchange_cases (data : EapPwdData P) (payload : Bytes) :
    let data' := (eapPwdPerformIdExchange hmac crv data payload).1
    data'.password = data.password ∧ data'.idPeer = data.idPeer ∧
      (data' = data ∨ (data.state = .pwdIdReq ∧ data'.state = .pwdIdReq ∧
        (data'.grp = none ∨ data'.grp = data.grp ∧ data'.idServer = data.idServer)) ∨
      ∃ g, data'.grp = some g ∧ g.commit = none ∧ data'.state = .pwdCommitReq ∧
        FromPassword hmac crv data.password data' g) := by
  unfold eapPwdPerformIdExchange
  split_ifs with hskip hchanged
  · exact ⟨rfl, rfl, Or.inl rfl⟩
  · rw [not_or, not_not] at hskip
    exact ⟨rfl, rfl, Or.inr (Or.inl ⟨hskip.1, hskip.1, Or.inr ⟨rfl, rfl⟩⟩)⟩
  · rw [not_or, not_not] at hskip
    dsimp only
    split
    · exact ⟨rfl, rfl, Or.inr (Or.inl ⟨hskip.1, hskip.1, Or.inl rfl⟩)⟩
    · next C hC =>
      split
      · exact ⟨rfl, rfl, Or.inr (Or.inl ⟨hskip.1, hskip.1, Or.inl rfl⟩)⟩
      · next pwe hpwe =>
        exact ⟨rfl, rfl, Or.inr (Or.inr ⟨⟨be16 payload, C, pwe, none⟩, rfl, rfl, rfl, hC,
          (payload.drop 4).take 4, hpwe⟩)⟩

theorem commitOf_key {Q : Type} [AddCommGroup Q] [DecidableEq Q] {C : Curve Q}
    (hC : C.Lawful) (pwe : Q) (r : Draws) (octets : Bytes) :
    let c := (commitOf C pwe r octets).1
    c.k = (sharedKey C pwe c.privateValue c.serverScalar c.serverElement).getD 0 ∨
      c.serverElement = 0 := by
  unfold commitOf
  dsimp only
  split
  · exact Or.inr rfl
  · next E hE =>
    have hsmall : inSmallSubgroup C E = false := by
      simp [inSmallSubgroup, hC.cofactorOne]
    rw [hsmall, if_neg Bool.false_ne_true]
    split
    · next hnone =>
      left
      dsimp only
      rw [hnone]
      rfl
    · next k hk =>
      left
      dsimp only
      rw [hk]
      rfl

theorem idExchange_inv (hw : Inv hmac crv identity password w) (hdone : w.done = false)
    (payload : Bytes) :
    Inv hmac crv identity password
      { w with data := (eapPwdPerformIdExchange hmac crv w.data payload).1 } := by
  obtain ⟨hpassword, hid, hcases⟩ := eapPwdPerformIdExchange_cases hmac crv w.data payload
  obtain ⟨hsent, hstate⟩ := hw.sent hdone
  generalize (eapPwdPerformIdExchange hmac crv w.data payload).1 = data at hpassword hid hcases ⊢
  rcases hcases with rfl | ⟨-, hstate', hgrp⟩ | ⟨g, hg, hcommit, hstate', hfrom⟩
  · exact hw
  · have hne : data.state ≠ .success := by
      rw [hstate']
      exact nofun
    refine ⟨hpassword.trans hw.samePassword, hid.trans hw.idPeer, fun g hg => ?_,
      fun _ => ⟨hsent, hne⟩, fun h => absurd h hne⟩
    rcases hgrp with hnone | ⟨hsame, hserver⟩
    · rw [hnone] at hg
      cases hg
    · rw [hsame] at hg
      obtain ⟨⟨hcurve, token, htoken⟩, hkey⟩ := hw.group g hg
      refine ⟨⟨hcurve, token, ?_⟩, hkey⟩
      rw [hserver, hid]
      exact htoken
  · have hne : data.state ≠ .success := by
      rw [hstate']
      exact nofun
    refine ⟨hpassword.trans hw.samePassword, hid.trans hw.idPeer, fun g' hg' => ?_,
      fun _ => ⟨hsent, hne⟩, fun h => absurd h hne⟩
    cases hg.symm.trans hg'
    refine ⟨?_, fun c hc => ?_⟩
    · rw [← hw.samePassword]
      exact hfrom
    · rw [hcommit] at hc
      cases hc

theorem commitExchange_inv (hcrv : ∀ n C, crv n = some C → C.Lawful)
    (hw : Inv hmac crv identity password w) (hdone : w.done = false) {r : Draws} {octets : Bytes}
    {out : EapPwdData P × Option Bytes}
    (h : eapPwdPerformCommitExchange w.data r octets = some out) :
    Inv hmac crv identity password { w with data := out.1 } := by
  unfold eapPwdPerformCommitExchange at h
  split at h
  · cases h
  · next g hg =>
    cases h
    obtain ⟨hfrom, -⟩ := hw.group g hg
    obtain ⟨hsent, -⟩ := hw.sent hdone
    have hne : (if (commitOf g.curve g.pwe r octets).2.isSome then PwdState.pwdConfirmReq
        else .failure) ≠ .success := by
      split_ifs <;> exact nofun
    refine ⟨hw.samePassword, hw.idPeer, fun g' hg' => ?_, fun _ => ⟨hsent, hne⟩,
      fun h => absurd h hne⟩
    cases hg'
    refine ⟨hfrom, fun c hc => ?_⟩
    cases hc
    exact commitOf_key (hcrv g.num g.curve hfrom.1) g.pwe r octets

theorem confirmExchange_inv (hw : Inv hmac crv identity password w) (hdone : w.done = false)
    {heap : ℕ → UInt8} {octets : Bytes} {out : EapPwdData P × Option Bytes × Option Bytes}
    {sent : List Bytes}
    (h : eapPwdPerformConfirmExchange hmac w.data heap octets = some out) :
    Inv hmac crv identity password
      ⟨out.1, true, sent, (out.2.2.map fun c => (c, w.sent)).or w.accepted⟩ := by
  have hfailed : ∀ accepted, Inv hmac crv identity password
      ⟨{ w.data with state := .failure }, true, sent, accepted⟩ :=
    fun accepted => ⟨hw.samePassword, hw.idPeer, hw.group, nofun, nofun⟩
  unfold eapPwdPerformConfirmExchange at h
  split at h
  · cases h
  · next g hg =>
    split at h
    · cases h
    · next c hc =>
      dsimp only at h
      split at h
      · next input own hinput hown =>
        split_ifs at h with hsame
        · cases h
          refine ⟨hw.samePassword, hw.idPeer, hw.group, nofun,
            fun _ => ⟨g, c, input, hg, hc, hinput, ?_⟩⟩
          rw [(hw.sent hdone).1]
          rfl
        · cases h
          exact hfailed _
      · cases h
        exact hfailed _

/-- **A request keeps the invariant.** -/
theorem step_inv (hcrv : ∀ n C, crv n = some C → C.Lawful) {call : Draws × Packet}
    (hw : Inv hmac crv identity password w) (h : step hmac crv (some w) call = some w') :
    Inv hmac crv identity password w' := by
  obtain ⟨r, pkt⟩ := call
  rw [step] at h
  split_ifs at h with hdone
  · cases h
    exact hw
  rw [Bool.not_eq_true] at hdone
  obtain ⟨out, hout, rfl⟩ := Option.map_eq_some_iff.mp h
  have hsame : ∀ data, Inv hmac crv identity password { w with data := data } →
      Inv hmac crv identity password ⟨data, false, w.sent ++ [], w.accepted⟩ := by
    intro data hdata
    rw [List.append_nil, ← hdone]
    exact hdata
  unfold eapPwdProcess at hout
  split at hout
  · cases hout
    exact hsame w.data hw
  · split_ifs at hout
    · cases hout
      exact hsame _ (idExchange_inv hw hdone _)
    · obtain ⟨out, hcommit, rfl⟩ := Option.map_eq_some_iff.mp hout
      exact hsame _ (commitExchange_inv hcrv hw hdone hcommit)
    · obtain ⟨out, hconfirm, rfl⟩ := Option.map_eq_some_iff.mp hout
      exact confirmExchange_inv hw hdone hconfirm
    · cases hout
      exact hsame w.data hw

/-- **Every session keeps the invariant.** -/
theorem run_inv_of_start (hcrv : ∀ n C, crv n = some C → C.Lawful) {calls : List (Draws × Packet)}
    (h : run (step hmac crv) (start (some identity) (some password)) calls = some w) :
    Inv hmac crv identity password w := by
  have hrun : ∀ w', run (step hmac crv) (start (some identity) (some password)) calls = some w' →
      Inv hmac crv identity password w' := by
    refine run_inv (I := fun o : Option (World P) => ∀ w', o = some w' →
      Inv hmac crv identity password w') (fun o call ho w' hw' => ?_) (fun w' hw' => ?_) calls
    · cases o with
      | none => cases hw'
      | some w => exact step_inv hcrv (ho w rfl) hw'
    · cases hw'
      exact ⟨rfl, rfl, nofun, fun _ => ⟨rfl, nofun⟩, nofun⟩
  exact hrun w h

/-- **The peer succeeds for a hash of the shared key exactly where there is one.** -/
theorem authentic_iff (hcrv : ∀ n C, crv n = some C → C.Lawful)
    (hinj : ∀ key, Function.Injective (hmac key)) {calls : List (Draws × Packet)}
    (h : run (step hmac crv) (start (some identity) (some password)) calls = some w)
    (hsuccess : w.data.state = .success) : Authentic hmac crv password w ↔ Shared w := by
  have hw := run_inv_of_start hcrv h
  obtain ⟨g, c, x, hg, hc, hx, haccepted⟩ := hw.accepted hsuccess
  obtain ⟨hfrom, hkey⟩ := hw.group g hg
  have hkeyOf : (∃ k, keyOf g c = some k) ↔
      sharedPoint g.curve g.pwe c.privateValue c.serverScalar c.serverElement ≠ 0 := by
    unfold keyOf sharedKey
    dsimp only
    split_ifs with hzero
    · simp [hzero]
    · rw [← Option.isSome_iff_exists, Option.isSome_map, Option.isSome_iff_ne_none, ne_eq,
        (hcrv g.num g.curve hfrom.1).coordsZero]
  constructor
  · rintro ⟨g', c', x', before, hg', -, hc', hkey', -⟩
    exact ⟨g', c', hg', hc', by
      cases hg.symm.trans hg'
      cases hc.symm.trans hc'
      exact hkeyOf.mp ⟨_, hkey'⟩⟩
  · rintro ⟨g', c', hg', hc', hne⟩
    cases hg.symm.trans hg'
    cases hc.symm.trans hc'
    obtain ⟨k, hk⟩ := hkeyOf.mpr hne
    refine ⟨g, c, x, [], hg, hfrom, hc, ?_, hx, haccepted, (earned_iff hinj).mpr List.not_mem_nil⟩
    rcases hkey c hc with hkept | hzero
    · rw [hk, hkept, hk]
      rfl
    · -- an element at infinity is not hashed
      rw [serversInput, confirmInput, pointText,
        ((hcrv g.num g.curve hfrom.1).coordsZero _).mpr hzero] at hx
      cases hx

end Runs

end Hostapd.Pwd.Peer
