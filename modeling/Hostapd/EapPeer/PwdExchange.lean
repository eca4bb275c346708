import Hostapd.EapPeer.Pwd
import Hostapd.EapServer.Pwd
import Mathlib.Data.ZMod.Basic

/-!
# EAP-pwd: an exchange whose messages are not modified

* **`round`** is a request of the server and the response of the peer, `exchange` three of them.
* **`exchange_agrees_iff`**: both sides succeed with the same keys exactly where no private value
  and no mask is zero and the heaps hold the same octets behind the scalar of the peer.
* **`eapPwd_meets_iff`**: this, with what the server's and the peer's success rest on;
  `reflected_succeeds` is a peer that sends back what the server sends.
-/

namespace Hostapd.Pwd

open Hostapd.Lib

variable {P : ℕ → Type} [∀ n, AddCommGroup (P n)] [∀ n, DecidableEq (P n)]

/-- What an exchange draws at random, what the heaps hold, and the octets that stand behind each
message in memory. -/
structure Chance where
  server : Server.Draws
  peer : Peer.Draws
  beyond : Bytes

section Exchange

variable (hmac : Bytes → Bytes → Bytes) (crv : ∀ n, Option (Curve (P n))) (num : ℕ) (r : Chance)

def round (st : Server.EapPwdData (P num) × Peer.EapPwdData P) :
    Option (Server.EapPwdData (P num) × Peer.EapPwdData P) :=
  match Server.eapPwdBuildReq hmac (crv num) st.1 r.server with
  | none => none
  | some (s, none) => some (s, st.2)
  | some (s, some req) =>
    match Peer.eapPwdProcess hmac crv st.2 r.peer ⟨req, r.beyond⟩ with
    | none => none
    | some ret =>
      match ret.resp with
      | none => some (s, ret.data)
      | some resp =>
        if Server.eapPwdCheck s ⟨resp, r.beyond⟩ then some (s, ret.data)
        else
          (Server.eapPwdProcess hmac (crv num) s r.server.heap ⟨resp, r.beyond⟩).map fun out =>
            (out.1, ret.data)

/-- An exchange: identities, Commits and Confirms. -/
def exchange (password identity : Bytes) :
    Option (Server.EapPwdData (P num) × Peer.EapPwdData P) :=
  match Server.eapPwdInit num password, Peer.eapPwdInit (some identity) (some password) with
  | some s, some p =>
    ((round hmac crv num r (s, p)).bind (round hmac crv num r)).bind (round hmac crv num r)
  | _, _ => none

/-- Both sides have succeeded, with the same MSK and EMSK. -/
def Agrees (st : Server.EapPwdData (P num) × Peer.EapPwdData P) : Prop :=
  st.1.state = .success ∧ st.2.state = .success ∧ st.1.msk = st.2.msk ∧ st.1.emsk = st.2.emsk

end Exchange

def Drawn {Q : Type} (C : Curve Q) (r : Chance) : Prop :=
  r.server.privateValue % C.order ≠ 0 ∧ r.server.mask % C.order ≠ 0 ∧
    r.peer.privateValue % C.order ≠ 0 ∧ r.peer.mask % C.order ≠ 0

instance {Q : Type} (C : Curve Q) (r : Chance) : Decidable (Drawn C r) := by
  unfold Drawn
  infer_instance

def peerScalarOf {Q : Type} (C : Curve Q) (r : Chance) : ℕ :=
  myScalarOf C (r.peer.privateValue % C.order) (r.peer.mask % C.order)

/-- The heaps hold the same octets behind the scalar of the peer. -/
def SameHeap {Q : Type} (C : Curve Q) (r : Chance) : Prop :=
  ∀ i, numBytes (peerScalarOf C r) ≤ i → i < C.orderLen → r.server.heap i = r.peer.heap i

section Rounds

variable {hmac : Bytes → Bytes → Bytes} {crv : ∀ n, Option (Curve (P n))} {num : ℕ}
  {C : Curve (P num)} {r : Chance} {s : Server.EapPwdData (P num)} {p : Peer.EapPwdData P}

structure Identified (C : Curve (P num)) (pwe : P num) (s : Server.EapPwdData (P num))
    (p : Peer.EapPwdData P) : Prop where
  server : s.state = .pwdCommitReq
  serverPwe : s.pwe = some pwe
  serverNum : s.groupNum = num
  peerNum : p.groupNum = num
  group : ∃ commit, p.grp = some ⟨num, C, pwe, commit⟩

theorem idFields_spec {num : ℕ} (hnum : num < 2 ^ 16) {token : Bytes} (htoken : token.length = 4)
    (identity : Bytes) :
    be16 (Peer.idFields num token identity) = num ∧
      (Peer.idFields num token identity).getD 2 0 = eapPwdDefaultRandFunc ∧
      (Peer.idFields num token identity).getD 3 0 = eapPwdDefaultPrf ∧
      ((Peer.idFields num token identity).drop 4).take 4 = token ∧
      (Peer.idFields num token identity).drop 9 = identity ∧
      ¬(Peer.idFields num token identity).length < 9 := by
  have hsplit : Peer.idFields num token identity = putBe16 num ++
      ([eapPwdDefaultRandFunc, eapPwdDefaultPrf] ++ (token ++ ([eapPwdPrepNone] ++ identity))) := by
    simp only [Peer.idFields, List.append_assoc]
  have hdrop4 : (Peer.idFields num token identity).drop 4 =
      token ++ ([eapPwdPrepNone] ++ identity) := by
    rw [hsplit]
    rfl
  refine ⟨?_, ?_, ?_, ?_, ?_, ?_⟩
  · rw [hsplit]
    exact be16_putBe16 hnum _
  · rw [hsplit]
    rfl
  · rw [hsplit]
    rfl
  · rw [hdrop4]
    exact List.take_left' htoken
  · have hdrop9 : (Peer.idFields num token identity).drop 9 =
        (((Peer.idFields num token identity).drop 4).drop 4).drop 1 := by
      rw [List.drop_drop, List.drop_drop]
    rw [hdrop9, hdrop4, List.drop_left' htoken]
    rfl
  · rw [hsplit]
    simp only [List.length_append, length_putBe16, htoken, List.length_cons, List.length_nil]
    omega

variable (r) in
theorem peer_identity {token idServer : Bytes} (beyond : Bytes) {pwe : P num}
    (hcrv : crv num = some C) (hnum : num < 2 ^ 16) (htoken : token.length = 4)
    (hstate : p.state = .pwdIdReq)
    (hpwe : computePasswordElement hmac (some C) p.password idServer p.idPeer token = some pwe) :
    Peer.eapPwdProcess hmac crv p r.peer
        ⟨eapPwdOpcodeIdExch :: Peer.idFields num token idServer, beyond⟩ =
      some ⟨{ p with
          groupNum := num
          idServer := idServer
          grp := some ⟨num, C, pwe, none⟩
          state := .pwdCommitReq },
        some (eapPwdOpcodeIdExch :: Peer.idFields num token p.idPeer), false, none⟩ := by
  obtain ⟨h₁, h₂, h₃, h₄, h₅, h₆⟩ := idFields_spec hnum htoken idServer
  have hfirst : ¬(p.state ≠ .pwdIdReq ∨ (Peer.idFields num token idServer).length < 9) := by
    rw [not_or, not_not]
    exact ⟨hstate, h₆⟩
  have hsecond : ¬((Peer.idFields num token idServer).getD 2 0 ≠ eapPwdDefaultRandFunc ∨
      (Peer.idFields num token idServer).getD 3 0 ≠ eapPwdDefaultPrf) := by
    rw [not_or, not_not, not_not]
    exact ⟨h₂, h₃⟩
  unfold Peer.eapPwdProcess
  dsimp only
  rw [if_pos (by decide), Peer.eapPwdPerformIdExchange, if_neg hfirst]
  dsimp only
  rw [if_neg hsecond, h₁, h₄, h₅, hcrv]
  dsimp only
  rw [hpwe]

theorem server_identity {token identity : Bytes} (beyond : Bytes) (heap : ℕ → UInt8) {pwe : P num}
    (hcrv : crv num = some C) (hnum : num < 2 ^ 16) (htoken : token.length = 4)
    (hsnum : s.groupNum = num) (hstoken : s.token = token)
    (hpwe : computePasswordElement hmac (some C) s.password s.idServer identity token =
      some pwe) :
    ∃ s', Server.eapPwdProcess hmac (crv num) s heap
        ⟨eapPwdOpcodeIdExch :: Peer.idFields num token identity, beyond⟩ = some (s', none) ∧
      s'.state = .pwdCommitReq ∧ s'.pwe = some pwe ∧ s'.groupNum = num := by
  obtain ⟨h₁, h₂, h₃, h₄, h₅, h₆⟩ := idFields_spec hnum htoken identity
  have hsame : ¬(be16 (Peer.idFields num token identity) ≠ s.groupNum ∨
      (Peer.idFields num token identity).getD 2 0 ≠ eapPwdDefaultRandFunc ∨
      ((Peer.idFields num token identity).drop 4).take 4 ≠ s.token ∨
      (Peer.idFields num token identity).getD 3 0 ≠ eapPwdDefaultPrf) := by
    rw [not_or, not_or, not_or, not_not, not_not, not_not, not_not]
    exact ⟨h₁.trans hsnum.symm, h₂, h₄.trans hstoken.symm, h₃⟩
  unfold Server.eapPwdProcess
  dsimp only
  rw [if_pos (by decide), Server.eapPwdProcessIdResp, if_neg h₆, if_neg hsame]
  dsimp only
  rw [h₅, hstoken, hcrv, hpwe]
  exact ⟨_, rfl, rfl, rfl, hsnum⟩

variable (hmac crv) in
omit [∀ n, DecidableEq (P n)] in
theorem build_identity (hstate : s.state = .pwdIdReq) (hsnum : s.groupNum = num)
    (d : Server.Draws) :
    ∃ s', Server.eapPwdBuildReq hmac (crv num) s d =
        some (s', some (eapPwdOpcodeIdExch :: Peer.idFields num d.token s.idServer)) ∧
      s'.state = .pwdIdReq ∧ s'.groupNum = num ∧ s'.token = d.token ∧
      s'.password = s.password ∧ s'.idServer = s.idServer := by
  refine ⟨{ s with token := d.token }, ?_, hstate, hsnum, rfl, rfl, rfl⟩
  simp [Server.eapPwdBuildReq, hstate, Server.eapPwdBuildIdReq, Peer.idFields, hsnum]

theorem round_of {s' : Server.EapPwdData (P num)} {req resp : Bytes} {ret : Peer.Ret P}
    {out : Server.EapPwdData (P num) × Option Bytes}
    (hbuild : Server.eapPwdBuildReq hmac (crv num) s r.server = some (s', some req))
    (hpeer : Peer.eapPwdProcess hmac crv p r.peer ⟨req, r.beyond⟩ = some ret)
    (hresp : ret.resp = some resp) (hcheck : Server.eapPwdCheck s' ⟨resp, r.beyond⟩ = false)
    (hserver : Server.eapPwdProcess hmac (crv num) s' r.server.heap ⟨resp, r.beyond⟩ = some out) :
    round hmac crv num r (s, p) = some (out.1, ret.data) := by
  unfold round
  rw [hbuild]
  dsimp only
  rw [hpeer]
  dsimp only
  rw [hresp]
  dsimp only
  rw [if_neg (by rw [hcheck]; exact Bool.false_ne_true), hserver]
  rfl

theorem round_of_silent {s' : Server.EapPwdData (P num)} {req : Bytes} {ret : Peer.Ret P}
    (hbuild : Server.eapPwdBuildReq hmac (crv num) s r.server = some (s', some req))
    (hpeer : Peer.eapPwdProcess hmac crv p r.peer ⟨req, r.beyond⟩ = some ret)
    (hresp : ret.resp = none) : round hmac crv num r (s, p) = some (s', ret.data) := by
  unfold round
  rw [hbuild]
  dsimp only
  rw [hpeer]
  dsimp only
  rw [hresp]

theorem round_of_failure {s' : Server.EapPwdData (P num)}
    (hbuild : Server.eapPwdBuildReq hmac (crv num) s r.server = some (s', none)) :
    round hmac crv num r (s, p) = some (s', p) := by
  unfold round
  rw [hbuild]

/-- **The identities**: both sides have the password element. -/
theorem round_identity {password identity : Bytes} {pwe : P num} (hcrv : crv num = some C)
    (hnum : num < 2 ^ 16) (htoken : r.server.token.length = 4)
    (hpwe : computePasswordElement hmac (some C) password (ascii "server") identity
      r.server.token = some pwe)
    (hs : Server.eapPwdInit num password = some s)
    (hp : Peer.eapPwdInit (some identity) (some password) = some p) :
    ∃ s' p', round hmac crv num r (s, p) = some (s', p') ∧ Identified C pwe s' p' := by
  have hserver : s.state = .pwdIdReq ∧ s.groupNum = num ∧ s.password = password ∧
      s.idServer = ascii "server" := by
    unfold Server.eapPwdInit at hs
    split_ifs at hs
    cases hs
    exact ⟨rfl, rfl, rfl, rfl⟩
  have hpeer : p.state = .pwdIdReq ∧ p.password = password ∧ p.idPeer = identity := by
    cases hp
    exact ⟨rfl, rfl, rfl⟩
  obtain ⟨hstate, hsnum, hspassword, hid⟩ := hserver
  obtain ⟨hpstate, hppassword, hpid⟩ := hpeer
  obtain ⟨s₁, hbuild, hstate₁, hsnum₁, htoken₁, hpassword₁, hid₁⟩ :=
    build_identity hmac crv hstate hsnum r.server
  rw [hid] at hbuild
  rw [← hppassword, ← hpid] at hpwe
  have hanswer := peer_identity r r.beyond hcrv hnum htoken hpstate hpwe
  rw [hppassword, ← hspassword, ← hpassword₁, ← hid, ← hid₁] at hpwe
  obtain ⟨s₂, htake, hstate₂, hpwe₂, hsnum₂⟩ :=
    server_identity r.beyond r.server.heap hcrv hnum htoken hsnum₁ htoken₁ hpwe
  have hcheck : Server.eapPwdCheck s₁
      ⟨eapPwdOpcodeIdExch :: Peer.idFields num r.server.token p.idPeer, r.beyond⟩ = false := by
    simp [Server.eapPwdCheck, hstate₁]
  exact ⟨_, _, round_of hbuild hanswer rfl hcheck htake, hstate₂, hpwe₂, hsnum₂, rfl, none, rfl⟩

/-! ### The Commits -/

def serverScalarOf {Q : Type} (C : Curve Q) (r : Chance) : ℕ :=
  myScalarOf C (r.server.privateValue % C.order) (r.server.mask % C.order)

def serverElementOf {Q : Type} [AddCommGroup Q] (C : Curve Q) (pwe : Q) (r : Chance) : Q :=
  myElementOf pwe (r.server.mask % C.order)

def peerElementOf {Q : Type} [AddCommGroup Q] (C : Curve Q) (pwe : Q) (r : Chance) : Q :=
  myElementOf pwe (r.peer.mask % C.order)

structure HasCommitted (C : Curve (P num)) (pwe : P num) (r : Chance)
    (s : Server.EapPwdData (P num)) : Prop where
  state : s.state = .pwdCommitReq
  element : s.pwe = some pwe
  groupNum : s.groupNum = num
  privateValue : s.privateValue = some (r.server.privateValue % C.order)
  myScalar : s.myScalar = some (serverScalarOf C r)
  myElement : s.myElement = some (serverElementOf C pwe r)

structure Committed (C : Curve (P num)) (pwe : P num) (r : Chance) (k : ℕ)
    (s : Server.EapPwdData (P num)) (p : Peer.EapPwdData P) : Prop where
  state : s.state = .pwdConfirmReq
  serverNum : s.groupNum = num
  peerNum : p.groupNum = num
  key : s.k = some k
  myScalar : s.myScalar = some (serverScalarOf C r)
  myElement : s.myElement = some (serverElementOf C pwe r)
  peerScalar : s.peerScalar = some (peerScalarOf C r)
  peerElement : s.peerElement = some (peerElementOf C pwe r)
  group : p.grp = some ⟨num, C, pwe, some ⟨r.peer.privateValue % C.order, peerScalarOf C r,
    peerElementOf C pwe r, serverScalarOf C r, serverElementOf C pwe r, k⟩⟩

section Commits

variable {pwe : P num}

variable (hmac) in
omit [∀ n, DecidableEq (P n)] in
theorem build_commit (hcrv : crv num = some C) (h : Identified C pwe s p) {commit : Bytes}
    (hcommit : commitText C (serverElementOf C pwe r) (serverScalarOf C r) = some commit) :
    ∃ s', Server.eapPwdBuildReq hmac (crv num) s r.server =
        some (s', some (eapPwdOpcodeCommitExch :: commit)) ∧ HasCommitted C pwe r s' := by
  unfold Server.eapPwdBuildReq
  rw [h.server, hcrv]
  dsimp only
  unfold Server.eapPwdBuildCommitReq
  rw [h.serverPwe]
  dsimp only
  rw [serverElementOf, serverScalarOf] at hcommit
  rw [hcommit]
  exact ⟨_, rfl, h.server, rfl, h.serverNum, rfl, rfl, rfl⟩

variable (hmac) in
omit [∀ n, DecidableEq (P n)] in
theorem build_commit_none (hcrv : crv num = some C) (h : Identified C pwe s p)
    (hcommit : commitText C (serverElementOf C pwe r) (serverScalarOf C r) = none) :
    ∃ s', Server.eapPwdBuildReq hmac (crv num) s r.server = some (s', none) ∧
      s'.state = .failure := by
  unfold Server.eapPwdBuildReq
  rw [h.server, hcrv]
  dsimp only
  unfold Server.eapPwdBuildCommitReq
  rw [h.serverPwe]
  dsimp only
  rw [serverElementOf, serverScalarOf] at hcommit
  rw [hcommit]
  exact ⟨_, rfl, rfl⟩

theorem commitOf_eq (hC : C.Lawful) {commit : Bytes} (beyond : Bytes)
    (hcommit : commitText C (serverElementOf C pwe r) (serverScalarOf C r) = some commit) :
    Peer.commitOf C pwe r.peer (commit ++ beyond) =
      match sharedKey C pwe (r.peer.privateValue % C.order) (serverScalarOf C r)
        (serverElementOf C pwe r) with
      | none => (⟨r.peer.privateValue % C.order, peerScalarOf C r, peerElementOf C pwe r,
          serverScalarOf C r, serverElementOf C pwe r, 0⟩, none)
      | some k => (⟨r.peer.privateValue % C.order, peerScalarOf C r, peerElementOf C pwe r,
          serverScalarOf C r, serverElementOf C pwe r, k⟩,
          (commitText C (peerElementOf C pwe r) (peerScalarOf C r)).map
            (eapPwdOpcodeCommitExch :: ·)) := by
  have hsmall : inSmallSubgroup C (serverElementOf C pwe r) = false := by
    simp [inSmallSubgroup, hC.cofactorOne]
  unfold Peer.commitOf
  rw [elementOf_commitText hC hcommit,
    scalarOf_commitText hC hcommit (numBytes_myScalarOf hC _ _)]
  dsimp only
  rw [hsmall, if_neg Bool.false_ne_true]
  rfl

variable (hmac crv r) in
theorem peer_commit (h : Identified C pwe s p) (commit beyond : Bytes) :
    ∃ p', Peer.eapPwdProcess hmac crv p r.peer ⟨eapPwdOpcodeCommitExch :: commit, beyond⟩ =
        some ⟨p', (Peer.commitOf C pwe r.peer (commit ++ beyond)).2, false, none⟩ ∧
      p'.groupNum = num ∧ p'.grp = some ⟨num, C, pwe,
        some (Peer.commitOf C pwe r.peer (commit ++ beyond)).1⟩ := by
  obtain ⟨old, hgrp⟩ := h.group
  unfold Peer.eapPwdProcess
  dsimp only
  rw [if_neg (by decide), if_pos (by decide), Peer.eapPwdPerformCommitExchange, hgrp]
  exact ⟨_, rfl, h.peerNum, rfl⟩

variable (hmac) in
theorem server_commit (hC : C.Lawful) (hcrv : crv num = some C) {s : Server.EapPwdData (P num)}
    (h : HasCommitted C pwe r s) {commit : Bytes} (heap : ℕ → UInt8) (beyond : Bytes)
    (hcommit : commitText C (peerElementOf C pwe r) (peerScalarOf C r) = some commit) {k : ℕ}
    (hk : sharedKey C pwe (r.server.privateValue % C.order) (peerScalarOf C r)
      (peerElementOf C pwe r) = some k) :
    ∃ s', Server.eapPwdProcess hmac (crv num) s heap
        ⟨eapPwdOpcodeCommitExch :: commit, beyond⟩ = some (s', none) ∧
      s'.state = .pwdConfirmReq ∧ s'.groupNum = num ∧ s'.k = some k ∧
      s'.myScalar = some (serverScalarOf C r) ∧ s'.myElement = some (serverElementOf C pwe r) ∧
      s'.peerScalar = some (peerScalarOf C r) ∧
      s'.peerElement = some (peerElementOf C pwe r) := by
  have hsmall : inSmallSubgroup C (peerElementOf C pwe r) = false := by
    simp [inSmallSubgroup, hC.cofactorOne]
  have hoctets : (⟨eapPwdOpcodeCommitExch :: commit, beyond⟩ : Packet).octets = commit ++ beyond :=
    rfl
  unfold Server.eapPwdProcess
  dsimp only
  rw [if_neg (by decide), if_pos (by decide), hoctets, hcrv]
  unfold Server.eapPwdProcessCommitResp
  rw [h.element, h.privateValue]
  dsimp only
  rw [elementOf_commitText hC hcommit,
    scalarOf_commitText hC hcommit (numBytes_myScalarOf hC _ _)]
  dsimp only
  rw [hsmall, if_neg Bool.false_ne_true, hk]
  exact ⟨_, rfl, rfl, h.groupNum, rfl, h.myScalar, h.myElement, rfl, rfl⟩

variable (hmac) in
/-- **The Commits**: both sides have the shared key. -/
theorem round_commit (hC : C.Lawful) (hcrv : crv num = some C) (hpwe : pwe ≠ 0)
    (h : Identified C pwe s p) (hdrawn : Drawn C r) :
    ∃ s' p' k, round hmac crv num r (s, p) = some (s', p') ∧ Committed C pwe r k s' p' := by
  obtain ⟨hrs, hms, hrp, hmp⟩ := hdrawn
  obtain ⟨commit, hcommit⟩ : ∃ commit,
      commitText C (serverElementOf C pwe r) (serverScalarOf C r) = some commit := by
    rw [← Option.ne_none_iff_exists', ne_eq, commitText_eq_none_iff hC]
    exact fun hzero => hms ((myElementOf_eq_zero_iff hC hpwe _).mp hzero)
  obtain ⟨commit', hcommit'⟩ : ∃ commit,
      commitText C (peerElementOf C pwe r) (peerScalarOf C r) = some commit := by
    rw [← Option.ne_none_iff_exists', ne_eq, commitText_eq_none_iff hC]
    exact fun hzero => hmp ((myElementOf_eq_zero_iff hC hpwe _).mp hzero)
  obtain ⟨k, hk⟩ : ∃ k, sharedKey C pwe (r.peer.privateValue % C.order) (serverScalarOf C r)
      (serverElementOf C pwe r) = some k := by
    rw [← Option.ne_none_iff_exists']
    intro hnone
    rcases (sharedKey_eq_none_iff hC hpwe _ _ _).mp hnone with hzero | hzero
    · exact hrp hzero
    · exact hrs hzero
  have hk' : sharedKey C pwe (r.server.privateValue % C.order) (peerScalarOf C r)
      (peerElementOf C pwe r) = some k := by
    rw [← hk]
    exact sharedKey_commit hC _ _ _ _
  have hout := commitOf_eq hC r.beyond hcommit
  rw [hk] at hout
  dsimp only at hout
  rw [hcommit', Option.map_some] at hout
  obtain ⟨s₁, hbuild, hs₁⟩ := build_commit hmac hcrv h hcommit
  obtain ⟨p', hpeer, hpnum, hgrp⟩ := peer_commit hmac crv r h commit r.beyond
  rw [hout] at hpeer hgrp
  obtain ⟨s', hserver, h₁, h₂, h₃, h₄, h₅, h₆, h₇⟩ :=
    server_commit hmac hC hcrv hs₁ r.server.heap r.beyond hcommit' hk'
  have hcheck : Server.eapPwdCheck s₁ ⟨eapPwdOpcodeCommitExch :: commit', r.beyond⟩ = false := by
    simp [Server.eapPwdCheck, hs₁.state]
  exact ⟨s', p', k, round_of hbuild hpeer rfl hcheck hserver, h₁, h₂, hpnum, h₃, h₄, h₅, h₆, h₇,
    hgrp⟩

variable (hmac) in
theorem round_commit_not (hC : C.Lawful) (hcrv : crv num = some C) (hpwe : pwe ≠ 0)
    (h : Identified C pwe s p) (hdrawn : ¬Drawn C r) :
    ∃ s' p', round hmac crv num r (s, p) = some (s', p') ∧
      (s'.state = .failure ∨ Identified C pwe s' p') := by
  cases hcommit : commitText C (serverElementOf C pwe r) (serverScalarOf C r) with
  | none =>
    obtain ⟨s', hbuild, hs'⟩ := build_commit_none hmac hcrv h hcommit
    exact ⟨s', p, round_of_failure hbuild, Or.inl hs'⟩
  | some commit =>
    obtain ⟨s₁, hbuild, hs₁⟩ := build_commit hmac hcrv h hcommit
    obtain ⟨p', hpeer, hpnum, hgrp⟩ := peer_commit hmac crv r h commit r.beyond
    have hsilent : (Peer.commitOf C pwe r.peer (commit ++ r.beyond)).2 = none := by
      rw [commitOf_eq hC r.beyond hcommit]
      split
      · rfl
      · next k hk =>
        rw [Option.map_eq_none_iff, commitText_eq_none_iff hC, peerElementOf,
          myElementOf_eq_zero_iff hC hpwe]
        by_contra hmp
        have hms : r.server.mask % C.order ≠ 0 := by
          intro hzero
          rw [← myElementOf_eq_zero_iff hC hpwe, ← commitText_eq_none_iff hC] at hzero
          cases hzero.symm.trans hcommit
        have hshared := mt (sharedKey_eq_none_iff hC hpwe (r.peer.privateValue)
          r.server.privateValue (r.server.mask % C.order)).mpr (by
            rw [← ne_eq, Option.ne_none_iff_exists']
            exact ⟨k, hk⟩)
        rw [not_or] at hshared
        exact hdrawn ⟨hshared.2, hms, hshared.1, hmp⟩
    exact ⟨s₁, p', round_of_silent hbuild hpeer hsilent,
      Or.inr ⟨hs₁.state, hs₁.element, hs₁.groupNum, hpnum, _, hgrp⟩⟩

variable (hmac) in
omit [∀ n, DecidableEq (P n)] in
theorem build_confirm (hcrv : crv num = some C) {k : ℕ} (h : Committed C pwe r k s p) {own : Bytes}
    (hown : confirmInput C num k (serverElementOf C pwe r) (serverScalarOf C r)
      (peerElementOf C pwe r) (peerScalarOf C r) = some own) :
    ∃ s', Server.eapPwdBuildReq hmac (crv num) s r.server =
        some (s', some (eapPwdOpcodeConfirmExch :: H hmac own)) ∧
      Committed C pwe r k s' p ∧ s'.myConfirm = H hmac own := by
  unfold Server.eapPwdBuildReq
  rw [h.state, hcrv]
  dsimp only
  unfold Server.eapPwdBuildConfirmReq
  rw [h.key, h.myElement, h.myScalar, h.peerElement, h.peerScalar, h.serverNum]
  dsimp only
  rw [hown]
  exact ⟨_, rfl, ⟨h.state, rfl, h.peerNum, rfl, rfl, rfl, rfl, rfl, h.group⟩, rfl⟩

variable (hmac crv) in
theorem peer_confirm {k : ℕ} (h : Committed C pwe r k s p) {own peers : Bytes} (beyond : Bytes)
    (hown : confirmInput C num k (serverElementOf C pwe r) (serverScalarOf C r)
      (peerElementOf C pwe r) (peerScalarOf C r) = some own)
    (hpeers : confirmInput C num k (peerElementOf C pwe r) (peerScalarOf C r)
      (serverElementOf C pwe r) (serverScalarOf C r) = some peers) :
    ∃ p', Peer.eapPwdProcess hmac crv p r.peer
        ⟨eapPwdOpcodeConfirmExch :: H hmac own, beyond⟩ =
          some ⟨p', some (eapPwdOpcodeConfirmExch :: H hmac peers), true, some (H hmac own)⟩ ∧
      p'.state = .success ∧
      (p'.msk, p'.emsk) = computeKeys hmac C (malloc r.peer.heap C.primeLen) num k
        (peerScalarOf C r) (serverScalarOf C r) (H hmac peers) (H hmac own) := by
  have hoctets : (⟨eapPwdOpcodeConfirmExch :: H hmac own, beyond⟩ : Packet).octets =
      H hmac own ++ beyond := rfl
  have hprefix : (H hmac own).isPrefixOf (H hmac own ++ beyond) = true :=
    List.isPrefixOf_iff_prefix.mpr (List.prefix_append _ _)
  unfold Peer.eapPwdProcess
  dsimp only
  rw [if_neg (by decide), if_neg (by decide), if_pos (by decide),
    Peer.eapPwdPerformConfirmExchange, h.group, h.peerNum, hoctets]
  dsimp only
  rw [hown, hpeers]
  dsimp only
  rw [if_pos hprefix]
  exact ⟨_, rfl, rfl, rfl⟩

variable (hmac) in
theorem server_confirm (hcrv : crv num = some C) {k : ℕ} (h : Committed C pwe r k s p)
    {peers : Bytes} (heap : ℕ → UInt8) (beyond : Bytes)
    (hpeers : confirmInput C num k (peerElementOf C pwe r) (peerScalarOf C r)
      (serverElementOf C pwe r) (serverScalarOf C r) = some peers) :
    ∃ out, Server.eapPwdProcess hmac (crv num) s heap
        ⟨eapPwdOpcodeConfirmExch :: H hmac peers, beyond⟩ = some out ∧ out.1.state = .success ∧
      (out.1.msk, out.1.emsk) = computeKeys hmac C (malloc heap C.primeLen) num k
        (peerScalarOf C r) (serverScalarOf C r) (H hmac peers) s.myConfirm := by
  have hoctets : (⟨eapPwdOpcodeConfirmExch :: H hmac peers, beyond⟩ : Packet).octets =
      H hmac peers ++ beyond := rfl
  have hprefix : (H hmac peers).isPrefixOf (H hmac peers ++ beyond) = true :=
    List.isPrefixOf_iff_prefix.mpr (List.prefix_append _ _)
  unfold Server.eapPwdProcess
  dsimp only
  rw [if_neg (by decide), if_neg (by decide), if_pos (by decide), hoctets, hcrv]
  unfold Server.eapPwdProcessConfirmResp
  rw [h.key, h.myElement, h.myScalar, h.peerElement, h.peerScalar, h.serverNum]
  dsimp only
  rw [hpeers]
  dsimp only
  rw [if_pos hprefix]
  exact ⟨_, rfl, rfl, rfl⟩

variable (hmac) in
/-- **The Confirms**: both sides succeed. -/
theorem round_confirm (hC : C.Lawful) (hcrv : crv num = some C) (hpwe : pwe ≠ 0)
    (hdrawn : Drawn C r) {k : ℕ} (h : Committed C pwe r k s p) :
    ∃ s' p' c c', round hmac crv num r (s, p) = some (s', p') ∧ s'.state = .success ∧
      p'.state = .success ∧
      (s'.msk, s'.emsk) = computeKeys hmac C (malloc r.server.heap C.primeLen) num k
        (peerScalarOf C r) (serverScalarOf C r) c c' ∧
      (p'.msk, p'.emsk) = computeKeys hmac C (malloc r.peer.heap C.primeLen) num k
        (peerScalarOf C r) (serverScalarOf C r) c c' := by
  have hserver : serverElementOf C pwe r ≠ 0 := fun hzero =>
    hdrawn.2.1 ((myElementOf_eq_zero_iff hC hpwe _).mp hzero)
  have hpeer : peerElementOf C pwe r ≠ 0 := fun hzero =>
    hdrawn.2.2.2 ((myElementOf_eq_zero_iff hC hpwe _).mp hzero)
  obtain ⟨own, hown⟩ := exists_confirmInput hC hserver hpeer num k (serverScalarOf C r)
    (peerScalarOf C r)
  obtain ⟨peers, hpeers⟩ := exists_confirmInput hC hpeer hserver num k (peerScalarOf C r)
    (serverScalarOf C r)
  obtain ⟨s₁, hbuild, hs₁, hconfirm⟩ := build_confirm hmac hcrv h hown
  obtain ⟨p', hanswer, hp', hpkeys⟩ := peer_confirm hmac crv h r.beyond hown hpeers
  obtain ⟨out, haccept, hs', hskeys⟩ := server_confirm hmac hcrv hs₁ r.server.heap
    r.beyond hpeers
  have hcheck : Server.eapPwdCheck s₁ ⟨eapPwdOpcodeConfirmExch :: H hmac peers, r.beyond⟩ =
      false := by
    simp [Server.eapPwdCheck, hs₁.state]
  rw [hconfirm] at hskeys
  exact ⟨out.1, p', H hmac peers, H hmac own, round_of hbuild hanswer rfl hcheck haccept, hs', hp',
    hskeys, hpkeys⟩

end Commits

/-! ### The exchange -/

/-- **An exchange whose messages are not modified** ends with success and the same keys on both
sides exactly where no value is zero and the heaps agree. -/
theorem exchange_agrees_iff (hC : C.Lawful) (hinj : ∀ key, Function.Injective (hmac key))
    (hcrv : crv num = some C) (hnum : num < 2 ^ 16) {password identity : Bytes} {pwe : P num}
    (hpassword : password ≠ []) (htoken : r.server.token.length = 4)
    (hpwe : computePasswordElement hmac (some C) password (ascii "server") identity
      r.server.token = some pwe) :
    (∃ st, exchange hmac crv num r password identity = some st ∧ Agrees num st) ↔
      Drawn C r ∧ SameHeap C r := by
  have hne := computePasswordElement_ne_zero hmac hC hpwe
  obtain ⟨s₀, hs₀⟩ : ∃ s, Server.eapPwdInit (P := P num) num password = some s := by
    unfold Server.eapPwdInit
    rw [if_neg hpassword]
    exact ⟨_, rfl⟩
  obtain ⟨p₀, hp₀⟩ : ∃ p, Peer.eapPwdInit (P := P) (some identity) (some password) = some p :=
    ⟨_, rfl⟩
  obtain ⟨s₁, p₁, hround₁, h₁⟩ := round_identity hcrv hnum htoken hpwe hs₀ hp₀
  unfold exchange
  rw [hs₀, hp₀]
  dsimp only
  rw [hround₁, Option.bind_some]
  by_cases hdrawn : Drawn C r
  · obtain ⟨s₂, p₂, k, hround₂, h₂⟩ := round_commit hmac hC hcrv hne h₁ hdrawn
    obtain ⟨s₃, p₃, c, c', hround₃, hs₃, hp₃, hskeys, hpkeys⟩ :=
      round_confirm hmac hC hcrv hne hdrawn h₂
    have hheap : computeKeys hmac C (malloc r.server.heap C.primeLen) num k (peerScalarOf C r)
        (serverScalarOf C r) c c' = computeKeys hmac C (malloc r.peer.heap C.primeLen) num k
          (peerScalarOf C r) (serverScalarOf C r) c c' ↔ SameHeap C r :=
      computeKeys_eq_iff hinj hC.lengths (numBytes_myScalarOf hC _ _)
    have hkeys : Agrees num (s₃, p₃) ↔ SameHeap C r := by
      rw [← hheap, ← hskeys, ← hpkeys, Prod.mk.injEq]
      exact ⟨fun h => ⟨h.2.2.1, h.2.2.2⟩, fun h => ⟨hs₃, hp₃, h.1, h.2⟩⟩
    rw [hround₂, Option.bind_some, hround₃, ← hkeys]
    simp [hdrawn]
  · obtain ⟨s₂, p₂, hround₂, h₂⟩ := round_commit_not hmac hC hcrv hne h₁ hdrawn
    have hlast : ∃ s₃ p₃, round hmac crv num r (s₂, p₂) = some (s₃, p₃) ∧ s₃.state ≠ .success := by
      rcases h₂ with hfailed | h₂
      · have hbuild : Server.eapPwdBuildReq hmac (crv num) s₂ r.server = some (s₂, none) := by
          rw [Server.eapPwdBuildReq, hfailed]
        refine ⟨s₂, p₂, round_of_failure hbuild, ?_⟩
        rw [hfailed]
        exact nofun
      · obtain ⟨s₃, p₃, hround₃, h₃⟩ := round_commit_not hmac hC hcrv hne h₂ hdrawn
        refine ⟨s₃, p₃, hround₃, ?_⟩
        rcases h₃ with hfailed | h₃
        · rw [hfailed]
          exact nofun
        · rw [h₃.server]
          exact nofun
    obtain ⟨s₃, p₃, hround₃, hs₃⟩ := hlast
    rw [hround₂, Option.bind_some, hround₃]
    constructor
    · rintro ⟨st, hst, hagrees⟩
      cases hst
      exact absurd hagrees.1 hs₃
    · exact fun h => absurd h.1 hdrawn

end Rounds

/-! ## EAP-pwd -/

/-- **What success rests on.** The server's: a Confirm that the password was needed for, exactly
where the Commits are not hashed alike. The peer's: such a Confirm, exactly where the shared point
is not at infinity. And messages that are not modified lead to success with the same keys exactly
where no value is zero and the heaps agree. -/
theorem eapPwd_meets_iff {hmac : Bytes → Bytes → Bytes} {crv : ∀ n, Option (Curve (P n))}
    (hcrv : ∀ n C, crv n = some C → C.Lawful) (hinj : ∀ key, Function.Injective (hmac key)) :
    (∀ num password calls (w : Server.World (P num)),
      run (Server.step hmac (crv num)) (Server.start num password) calls = some w →
      w.data.state = .success →
        (Server.Authentic hmac (crv num) password w ↔ ¬Server.Reflected (crv num) w)) ∧
    (∀ identity password calls (w : Peer.World P),
      run (Peer.step hmac crv) (Peer.start (some identity) (some password)) calls = some w →
      w.data.state = .success → (Peer.Authentic hmac crv password w ↔ Peer.Shared w)) ∧
    ∀ num (C : Curve (P num)) password identity pwe r, crv num = some C → num < 2 ^ 16 →
      password ≠ [] → r.server.token.length = 4 →
      computePasswordElement hmac (some C) password (ascii "server") identity r.server.token =
        some pwe →
      ((∃ st, exchange hmac crv num r password identity = some st ∧ Agrees num st) ↔
        Drawn C r ∧ SameHeap C r) := by
  refine ⟨fun num password calls w h hsuccess => ?_, fun identity password calls w h hsuccess => ?_,
    fun num C password identity pwe r hC hnum hpassword htoken hpwe => ?_⟩
  · exact Server.authentic_iff (hcrv num) hinj h hsuccess
  · exact Peer.authentic_iff hcrv hinj h hsuccess
  · exact exchange_agrees_iff (hcrv num C hC) hinj hC hnum hpassword htoken hpwe

def smallCurve : Curve (ZMod 5) where
  prime := 7
  order := 5
  cofactor := 1
  coords p := if p = 0 then none else some (p.val, p.val)
  ofCoords x y := if x = y ∧ 0 < x ∧ x < 5 then some (x : ZMod 5) else none
  ofCompressed _ _ := some 1

theorem smallCurve_lawful : smallCurve.Lawful where
  orderPrime := by
    unfold smallCurve
    decide
  torsion := by
    unfold smallCurve
    decide
  cofactorOne := rfl
  lengths := by decide
  coordsZero := by
    unfold smallCurve
    decide
  coordsLt p x y h := by
    unfold smallCurve at h ⊢
    dsimp only at h ⊢
    split_ifs at h
    cases h
    have hp := p.val_lt
    omega
  ofCoordsCoords p x y h := by
    unfold smallCurve at h ⊢
    dsimp only at h ⊢
    split_ifs at h with hp
    cases h
    have hval := p.val_lt
    have hpos : 0 < p.val := Nat.pos_of_ne_zero fun h => hp ((ZMod.val_eq_zero p).mp h)
    rw [if_pos ⟨rfl, hpos, hval⟩, ZMod.natCast_val, ZMod.cast_id]
  ofCompressedNe x odd p h := by
    cases h
    decide

def plainHash (key x : Bytes) : Bytes := key ++ x

theorem plainHash_injective (key : Bytes) : Function.Injective (plainHash key) :=
  List.append_right_injective key

def smallChance : Chance :=
  ⟨⟨[1, 2, 3, 4], 2, 3, fun _ => 0⟩, ⟨3, 3, fun _ => 0⟩, []⟩

theorem exchange_agrees_small :
    ∃ st, exchange (P := fun _ => ZMod 5) plainHash (fun _ => some smallCurve) 19 smallChance
      (ascii "secret") (ascii "user") = some st ∧ Agrees (P := fun _ => ZMod 5) 19 st := by
  have hlawful : ∀ (n : ℕ) (C : Curve (ZMod 5)), some smallCurve = some C → C.Lawful := by
    intro n C hC
    cases hC
    exact smallCurve_lawful
  have hmeets := @eapPwd_meets_iff (fun _ => ZMod 5) _ _ plainHash (fun _ => some smallCurve)
    hlawful plainHash_injective
  refine (hmeets.2.2 19 smallCurve (ascii "secret") (ascii "user") 1 smallChance rfl (by decide)
    (by decide) rfl ?_).mpr ⟨by decide, fun i _ _ => rfl⟩
  decide

/-- The calls of a peer that takes part with its identity and then sends back what it gets. -/
def reflectingCalls : List Server.Call :=
  let draws := smallChance.server
  let element : ZMod 5 := serverElementOf smallCurve 1 smallChance
  let scalar := serverScalarOf smallCurve smallChance
  let commit := (commitText smallCurve element scalar).getD []
  let confirm := ((confirmInput smallCurve 19 4 element scalar element scalar).map
    (H plainHash)).getD []
  [.buildReq draws,
    .receive draws.heap ⟨eapPwdOpcodeIdExch :: Peer.idFields 19 draws.token (ascii "user"), []⟩,
    .buildReq draws, .receive draws.heap ⟨eapPwdOpcodeCommitExch :: commit, []⟩,
    .buildReq draws, .receive draws.heap ⟨eapPwdOpcodeConfirmExch :: confirm, []⟩]

theorem reflected_succeeds : ¬∀ w, run (Server.step plainHash (some smallCurve))
    (Server.start 19 (ascii "secret")) reflectingCalls = some w → w.data.state = .success →
      Server.Authentic plainHash (some smallCurve) (ascii "secret") w := by
  intro hall
  have hstate : (run (Server.step plainHash (some smallCurve)) (Server.start 19 (ascii "secret"))
      reflectingCalls).map (fun w => w.data.state) = some .success := by decide
  obtain ⟨w, hw, hsuccess⟩ := Option.map_eq_some_iff.mp hstate
  have halike : (run (Server.step plainHash (some smallCurve)) (Server.start 19 (ascii "secret"))
      reflectingCalls).map (fun w => hashedCommit smallCurve w.data.peerElement w.data.peerScalar) =
      (run (Server.step plainHash (some smallCurve)) (Server.start 19 (ascii "secret"))
        reflectingCalls).map
          (fun w => hashedCommit smallCurve w.data.myElement w.data.myScalar) := by decide
  rw [hw, Option.map_some, Option.map_some, Option.some.injEq] at halike
  have hlawful : ∀ C, some smallCurve = some C → C.Lawful := by
    intro C hC
    cases hC
    exact smallCurve_lawful
  exact (Server.authentic_iff hlawful plainHash_injective hw hsuccess).mp (hall w hw hsuccess)
    ⟨smallCurve, rfl, halike⟩

end Hostapd.Pwd
