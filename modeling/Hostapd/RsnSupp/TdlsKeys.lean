import Hostapd.RsnSupp.Tdls
import Hostapd.Lib.Run

/-!
# The keys of direct links

Which TPK-TKs the driver is given for a peer over a whole run.

* **`Accepts`** are the messages 2 and 3 that pass all checks, with the nonces of the TPK that goes
  to the driver.
* **`Moves`** says what a step does to keys: it gives the driver some, and every TPK that an entry
  has afterwards it had before or has been derived from nonces.
* **`reinstall_iff`**: no key is given twice for a peer exactly when no message is accepted whose
  nonces have been those of a key before. `replayed_m3` is a message 3 that arrives twice.
-/

namespace Hostapd.RsnSupp.Tdls

open Hostapd.Lib

variable {κ : Type} {crypto : TdlsCrypto κ}

/-! ## Derived keys -/

/-- The TPKs that the driver was given for a peer. -/
def given (addr : MacAddr) (out : List (TdlsOut κ)) : List (Tpk κ) :=
  out.filterMap fun
    | .setKey a tpk => if a = addr then some tpk else none
    | .send .. | .delKey _ | .oper .. => none

def SameNonces (n m n' m' : Nonce) : Prop := (n = n' ∧ m = m') ∨ (n = m' ∧ m = n')

theorem tk_generateTpk_eq_iff {n m n' m' : Nonce} {addr own bssid : MacAddr} :
    (generateTpk crypto n m addr own bssid).tk = (generateTpk crypto n' m' addr own bssid).tk ↔
      SameNonces n m n' m' := by
  unfold generateTpk SameNonces
  constructor
  · intro h
    obtain ⟨hlo, hhi, -⟩ := crypto.tk_injective h
    by_cases hlt : n < m <;> by_cases hlt' : n' < m' <;> simp only [hlt, hlt', if_true, if_false]
      at hlo hhi
    · exact .inl ⟨hlo, hhi⟩
    · exact .inr ⟨hlo, hhi⟩
    · exact .inr ⟨hhi, hlo⟩
    · exact .inl ⟨hhi, hlo⟩
  · rintro (⟨rfl, rfl⟩ | ⟨rfl, rfl⟩)
    · rfl
    · by_cases hlt : n < m
      · have hge : ¬ m < n := BitVec.not_lt.mpr (BitVec.le_of_lt hlt)
        simp [hlt, hge]
      · by_cases hlt' : m < n
        · simp [hlt, hlt']
        · have heq : n = m := by
            apply BitVec.eq_of_toNat_eq
            simp only [BitVec.lt_def] at hlt hlt'
            omega
          simp [heq]

def Tpk.Derived (crypto : TdlsCrypto κ) (addr own bssid : MacAddr) (tpk : Tpk κ) : Prop :=
  tpk = generateTpk crypto tpk.inonce tpk.rnonce addr own bssid

theorem generateTpk_derived (n m : Nonce) (addr own bssid : MacAddr) :
    (generateTpk crypto n m addr own bssid).Derived crypto addr own bssid := rfl

theorem Tpk.Derived.tk_eq_iff {tpk tpk' : Tpk κ} {addr own bssid : MacAddr}
    (h : tpk.Derived crypto addr own bssid) (h' : tpk'.Derived crypto addr own bssid) :
    tpk.tk = tpk'.tk ↔ SameNonces tpk.inonce tpk.rnonce tpk'.inonce tpk'.rnonce := by
  rw [h, h']
  exact tk_generateTpk_eq_iff

/-! ## What a step does to keys -/

structure Moves (crypto : TdlsCrypto κ) (sm sm' : TdlsSm κ) (new : List (MacAddr × Tpk κ)) :
    Prop where
  ownAddr : sm'.ownAddr = sm.ownAddr
  bssid : sm'.bssid = sm.bssid
  tpk : ∀ {addr peer' tpk}, sm'.peers addr = some peer' → peer'.tpk = some tpk →
    (∃ peer, sm.peers addr = some peer ∧ peer.tpk = some tpk) ∨
      tpk.Derived crypto addr sm.ownAddr sm.bssid
  given : ∀ addr, given addr sm'.out =
    given addr sm.out ++ new.filterMap fun p => if p.1 = addr then some p.2 else none

namespace Moves

variable {sm sm' sm'' : TdlsSm κ}

theorem refl (sm : TdlsSm κ) : Moves crypto sm sm [] :=
  ⟨rfl, rfl, fun hpeer htpk => .inl ⟨_, hpeer, htpk⟩, fun _ => (List.append_nil _).symm⟩

theorem trans {new new' : List (MacAddr × Tpk κ)} (h : Moves crypto sm sm' new)
    (h' : Moves crypto sm' sm'' new') : Moves crypto sm sm'' (new ++ new') where
  ownAddr := h'.ownAddr.trans h.ownAddr
  bssid := h'.bssid.trans h.bssid
  tpk := by
    intro addr peer'' tpk hpeer'' htpk''
    rcases h'.tpk hpeer'' htpk'' with ⟨peer', hpeer', htpk'⟩ | hderived
    · exact h.tpk hpeer' htpk'
    · rw [h.ownAddr, h.bssid] at hderived
      exact .inr hderived
  given := by
    intro addr
    rw [h'.given, h.given, List.append_assoc, List.filterMap_append]

variable {new : List (MacAddr × Tpk κ)}

theorem after (h : Moves crypto sm sm' [])
    (h' : Moves crypto sm' sm'' new) : Moves crypto sm sm'' new := h.trans h'

theorem andThen (h : Moves crypto sm sm' new)
    (h' : Moves crypto sm' sm'' []) : Moves crypto sm sm'' new := by
  simpa using h.trans h'

theorem emit {out : TdlsOut κ} (hout : ∀ addr, Tdls.given addr [out] = []) :
    Moves crypto sm (sm.emit out) [] where
  ownAddr := rfl
  bssid := rfl
  tpk := fun hpeer htpk => .inl ⟨_, hpeer, htpk⟩
  given := by
    intro addr
    exact List.filterMap_append.trans (congrArg _ (hout addr))

variable {addr : MacAddr} {peer : TdlsPeer κ}

theorem put
    (htpk : ∀ tpk, peer.tpk = some tpk →
      (∃ old, sm.peers addr = some old ∧ old.tpk = some tpk) ∨
        tpk.Derived crypto addr sm.ownAddr sm.bssid) :
    Moves crypto sm (sm.put addr peer) [] where
  ownAddr := rfl
  bssid := rfl
  tpk := by
    intro a peer' tpk hpeer' htpk'
    by_cases heq : a = addr
    · subst heq
      have hpeer : some peer = some peer' := by simpa [TdlsSm.put] using hpeer'
      cases hpeer
      exact htpk tpk htpk'
    · exact .inl ⟨peer', by simpa [TdlsSm.put, Function.update_of_ne heq] using hpeer', htpk'⟩
  given := fun _ => (List.append_nil _).symm

theorem put_of_none (htpk : peer.tpk = none) :
    Moves crypto sm (sm.put addr peer) [] :=
  put fun tpk h => absurd (htpk.symm.trans h) (Option.some_ne_none tpk).symm

theorem put_of_eq {old peer : TdlsPeer κ} (hold : sm.peers addr = some old)
    (htpk : peer.tpk = old.tpk) : Moves crypto sm (sm.put addr peer) [] :=
  put fun _ h => .inl ⟨old, hold, htpk.symm.trans h⟩

theorem andPut (h : Moves crypto sm sm' new)
    {tpk : Tpk κ} (htpk : peer.tpk = some tpk)
    (hderived : tpk.Derived crypto addr sm.ownAddr sm.bssid) :
    Moves crypto sm (sm'.put addr peer) new := by
  refine h.andThen (.put ?_)
  intro tpk' htpk'
  cases htpk.symm.trans htpk'
  rw [h.ownAddr, h.bssid]
  exact .inr hderived

theorem setKey {tpk : Tpk κ} :
    Moves crypto sm (sm.emit (.setKey addr tpk)) [(addr, tpk)] where
  ownAddr := rfl
  bssid := rfl
  tpk := fun hpeer htpk => .inl ⟨_, hpeer, htpk⟩
  given := by
    intro a
    by_cases heq : addr = a <;> simp [Tdls.given, TdlsSm.emit, heq]

end Moves

@[simp] theorem peers_put_self (sm : TdlsSm κ) (addr : MacAddr) (peer : TdlsPeer κ) :
    (sm.put addr peer).peers addr = some peer := by
  simp [TdlsSm.put]

@[simp] theorem tpk_retryTimeoutCancel (peer : TdlsPeer κ) (actionCode : UInt8) :
    (peer.retryTimeoutCancel actionCode).tpk = peer.tpk := by
  unfold TdlsPeer.retryTimeoutCancel
  split <;> rfl

section Steps

variable {sm : TdlsSm κ} {addr : MacAddr} {env : TdlsEnv}

theorem tpkSend_moves (actionCode dialogToken : UInt8) (statusCode : UInt16) (ies : TdlsIes) :
    Moves crypto sm (tpkSend sm addr actionCode dialogToken statusCode ies env) [] := by
  have hsend : Moves crypto sm
      (sm.emit (.send addr actionCode dialogToken statusCode ies)) [] :=
    .emit fun _ => rfl
  unfold tpkSend
  split
  · simp only
    split
    · exact hsend
    · split
      · exact hsend
      · rename_i peer hpeer
        exact hsend.after (.put_of_eq hpeer rfl)
  · exact .refl sm

theorem sendError_moves (tdlsAction dialogToken : UInt8) (status : UInt16) :
    Moves crypto sm (sendError sm addr tdlsAction dialogToken status env) [] :=
  tpkSend_moves _ _ _ _

theorem sendTpkM1_moves {peer : TdlsPeer κ}
    (hpeer : ∀ tpk, peer.tpk = some tpk → ∃ old, sm.peers addr = some old ∧ old.tpk = some tpk) :
    Moves crypto sm (sendTpkM1 sm addr peer env) [] := by
  unfold sendTpkM1
  split
  · exact .put_of_none rfl
  · refine Moves.after (.put ?_) (tpkSend_moves _ _ _ _)
    intro tpk htpk
    exact .inl (hpeer tpk htpk)

theorem tdlsStart_moves : Moves crypto sm (tdlsStart sm addr env) [] := by
  unfold tdlsStart
  split_ifs
  · exact .refl sm
  · refine sendTpkM1_moves ?_
    intro tpk htpk
    cases hpeer : sm.peers addr with
    | none =>
      rw [hpeer] at htpk
      cases htpk
    | some old =>
      rw [hpeer] at htpk
      exact ⟨old, rfl, htpk⟩

theorem tdlsReneg_moves : Moves crypto sm (tdlsReneg sm addr env) [] := by
  unfold tdlsReneg
  split_ifs
  · exact .refl sm
  · split
    · exact .refl sm
    · split_ifs
      · exact tdlsStart_moves
      · exact .refl sm

theorem tpkRetryTimeout_moves : Moves crypto sm (tpkRetryTimeout sm addr env) [] := by
  unfold tpkRetryTimeout
  split
  · exact .refl sm
  · rename_i peer hpeer
    split
    · split
      · exact Moves.after (.emit fun _ => rfl) (.put_of_none rfl)
      · simp only
        split
        · exact .put_of_eq hpeer rfl
        · split
          · refine Moves.after (.put_of_eq hpeer ?_) (.emit fun _ => rfl)
            rfl
          · exact .put_of_eq hpeer rfl
    · exact .refl sm

theorem tpkTimeout_moves : Moves crypto sm (tpkTimeout sm addr env) [] := by
  unfold tpkTimeout
  split
  · exact .refl sm
  · rename_i peer hpeer
    split
    · have hput : Moves crypto sm (sm.put addr { peer with tpkTimer := false }) [] :=
        .put_of_eq hpeer rfl
      simp only
      split
      · exact hput.after tdlsStart_moves
      · exact hput.after (.emit fun _ => rfl)
    · exact .refl sm

theorem recvTeardownNotify_moves (reasonCode : UInt16) :
    Moves crypto sm (recvTeardownNotify crypto sm addr reasonCode env) [] := by
  unfold recvTeardownNotify
  split_ifs
  · exact .refl sm
  · split
    · exact .refl sm
    · exact (tpkSend_moves _ _ _ _).after (.put_of_none rfl)

theorem recvTeardown_moves (reasonCode : UInt16) (ies : Option TdlsIes) :
    Moves crypto sm (recvTeardown crypto sm addr reasonCode ies) [] := by
  unfold recvTeardown
  split
  · exact .refl sm
  · split_ifs
    · exact Moves.after (.emit fun _ => rfl) (.put_of_none rfl)
    · exact .refl sm

theorem micFailure_moves (peer : TdlsPeer κ) : Moves crypto sm (micFailure sm addr peer) [] :=
  Moves.after (.emit fun _ => rfl) (.put_of_none rfl)

variable {sm' : TdlsSm κ}

theorem Moves.andEnable {new : List (MacAddr × Tpk κ)}
    (h : Moves crypto sm sm' new) {peer : TdlsPeer κ} {tpk : Tpk κ} (htpk : peer.tpk = some tpk)
    (hderived : tpk.Derived crypto addr sm.ownAddr sm.bssid) :
    Moves crypto sm (enableLink sm' addr peer) new := by
  have hup : ({ peer with tpkSuccess := true, tpkTimer := true } : TdlsPeer κ).tpk = some tpk :=
    htpk
  exact (h.andPut hup hderived).andThen (.emit fun _ => rfl)

theorem enableLink_moves {peer old : TdlsPeer κ} (hold : sm.peers addr = some old)
    (htpk : peer.tpk = old.tpk) : Moves crypto sm (enableLink sm addr peer) [] := by
  have hput : Moves crypto sm (sm.put addr { peer with tpkSuccess := true, tpkTimer := true }) [] :=
    .put_of_eq hold htpk
  exact hput.after (.emit fun _ => rfl)

theorem processTpkM1_moves (frame : Option TdlsFrame) :
    Moves crypto sm (processTpkM1 crypto sm addr frame env) [] := by
  unfold processTpkM1
  split
  · exact .refl sm
  · rename_i frame
    split
    · exact sendError_moves _ _ _
    · rename_i m1 _
      have hentry : Moves crypto sm (entryForM1 sm addr).1 [] := by
        unfold entryForM1
        split
        · exact .refl sm
        · split_ifs
          · exact .emit fun _ => rfl
          · exact .refl sm
          · exact .refl sm
          · exact .refl sm
      split
      · rename_i heq
        rw [heq] at hentry
        exact hentry
      · rename_i sm' peer heq
        rw [heq] at hentry
        split
        · exact hentry.after (Moves.after (.put_of_none rfl) (sendError_moves _ _ _))
        · rename_i rnonce _
          refine hentry.after (Moves.after (.put ?_) (tpkSend_moves _ _ _ _))
          intro tpk htpk
          cases htpk
          exact .inr (generateTpk_derived _ _ _ _ _)

/-! ## Accepted messages -/

variable (crypto sm) in
/-- The messages 2 and 3 that pass all checks of the entry of their sender, with the nonces of the
TPK that then goes to the driver: for a message 2 those of the entry and the frame, for a message 3
those that the stored TPK has been derived from. -/
inductive Accepts : TdlsInput × TdlsEnv → MacAddr → Nonce → Nonce → Prop
  | tpkM2 {src : MacAddr} {frame : TdlsFrame} {env : TdlsEnv} {peer : TdlsPeer κ} {m2 : M2Data}
      {timeoutie : TimeoutIe} (hrx : ¬ (sm.tdlsDisabled = true ∨ src = sm.ownAddr))
      (hkey : env.keySet = true) (hpeer : sm.peers src = some peer) (hstatus : frame.status = 0)
      (hcheck : checkM2 sm peer frame.ies = .ok m2) (htimeout : m2.keyLifetime = some timeoutie)
      (hlifetime : timeoutie.value = peer.lifetime)
      (hmic : verifyTdlsMic crypto 2 { peer.learn m2 with tpk := some (tpkM2 crypto sm src peer m2) }
        m2.lnkid timeoutie m2.ftie = true) :
      Accepts (.rx src (.tpkM2 (some frame)), env) src peer.inonce m2.ftie.anonce
  | tpkM3 {src : MacAddr} {frame : TdlsFrame} {env : TdlsEnv} {peer : TdlsPeer κ} {tpk : Tpk κ}
      {lnkid : Lnkid} {ftie : Ftie} {timeoutie : TimeoutIe}
      (hrx : ¬ (sm.tdlsDisabled = true ∨ src = sm.ownAddr)) (hkey : env.keySet = true)
      (hpeer : sm.peers src = some peer) (hccmp : peer.ccmp = true) (hstatus : frame.status = 0)
      (hcheck : checkM3 sm peer frame.ies = some (lnkid, ftie, timeoutie))
      (htpk : peer.tpk = some tpk)
      (hmic : verifyTdlsMic crypto 3 peer lnkid timeoutie ftie = true) :
      Accepts (.rx src (.tpkM3 (some frame)), env) src tpk.inonce tpk.rnonce

theorem checkM2_retryTimeoutCancel (peer : TdlsPeer κ) (actionCode : UInt8)
    (ies : Option TdlsIes) :
    checkM2 (sm.put addr (peer.retryTimeoutCancel actionCode))
      (peer.retryTimeoutCancel actionCode) ies = checkM2 sm peer ies := by
  unfold TdlsPeer.retryTimeoutCancel
  split <;> rfl

theorem checkM3_retryTimeoutCancel (peer : TdlsPeer κ) (actionCode : UInt8)
    (ies : Option TdlsIes) :
    checkM3 (sm.put addr (peer.retryTimeoutCancel actionCode))
      (peer.retryTimeoutCancel actionCode) ies = checkM3 sm peer ies := by
  unfold TdlsPeer.retryTimeoutCancel
  split <;> rfl

@[simp] theorem lifetime_retryTimeoutCancel (peer : TdlsPeer κ) (actionCode : UInt8) :
    (peer.retryTimeoutCancel actionCode).lifetime = peer.lifetime := by
  unfold TdlsPeer.retryTimeoutCancel
  split <;> rfl

@[simp] theorem inonce_retryTimeoutCancel (peer : TdlsPeer κ) (actionCode : UInt8) :
    (peer.retryTimeoutCancel actionCode).inonce = peer.inonce := by
  unfold TdlsPeer.retryTimeoutCancel
  split <;> rfl

@[simp] theorem ccmp_retryTimeoutCancel (peer : TdlsPeer κ) (actionCode : UInt8) :
    (peer.retryTimeoutCancel actionCode).ccmp = peer.ccmp := by
  unfold TdlsPeer.retryTimeoutCancel
  split <;> rfl

@[simp] theorem rsnieP_retryTimeoutCancel (peer : TdlsPeer κ) (actionCode : UInt8) :
    (peer.retryTimeoutCancel actionCode).rsnieP = peer.rsnieP := by
  unfold TdlsPeer.retryTimeoutCancel
  split <;> rfl

theorem verifyTdlsMic_congr {p q : TdlsPeer κ} (htpk : p.tpk = q.tpk) (hrsn : p.rsnieP = q.rsnieP)
    (transSeq : UInt8) (lnkid : Lnkid) (timeoutie : TimeoutIe) (ftie : Ftie) :
    verifyTdlsMic crypto transSeq p lnkid timeoutie ftie =
      verifyTdlsMic crypto transSeq q lnkid timeoutie ftie := by
  unfold verifyTdlsMic
  rw [htpk, hrsn]

theorem acceptM2_moves (env : TdlsEnv) (dtoken : UInt8) (lnkid : Lnkid) (peer : TdlsPeer κ)
    {tpk : Tpk κ} (hccmp : peer.ccmp = true) (htpk : peer.tpk = some tpk)
    (hderived : tpk.Derived crypto addr sm.ownAddr sm.bssid) :
    Moves crypto sm (acceptM2 crypto sm addr dtoken lnkid peer tpk env)
      (if env.keySet then [(addr, tpk)] else []) := by
  have hkey : Moves crypto sm (setKey sm addr peer tpk env).1
      (if env.keySet then [(addr, tpk)] else []) := by
    unfold setKey
    by_cases hset : env.keySet = true
    · rw [if_pos ⟨hccmp, hset⟩, if_pos hset]
      exact .setKey
    · rw [if_neg (fun h => hset h.2), if_neg hset]
      exact .refl sm
  have htoken : ({ peer with dtoken := dtoken } : TdlsPeer κ).tpk = some tpk := htpk
  exact ((hkey.andPut htoken hderived).andThen (tpkSend_moves _ _ _ _)).andEnable htoken hderived

variable (crypto sm) in
/-- What an input does: a message is accepted and its key given to the driver, or none is. -/
def Outcome (a : TdlsInput × TdlsEnv) (sm' : TdlsSm κ) : Prop :=
  (∃ addr tpk, Accepts crypto sm a addr tpk.inonce tpk.rnonce ∧
    Moves crypto sm sm' [(addr, tpk)] ∧
    ((∃ peer, sm.peers addr = some peer ∧ peer.tpk = some tpk) ∨
      tpk.Derived crypto addr sm.ownAddr sm.bssid)) ∨
  ((∀ addr n m, ¬ Accepts crypto sm a addr n m) ∧ Moves crypto sm sm' [])

theorem Outcome.of_moves {a : TdlsInput × TdlsEnv}
    (hm2 : ∀ src frame, a.1 ≠ .rx src (.tpkM2 (some frame)))
    (hm3 : ∀ src frame, a.1 ≠ .rx src (.tpkM3 (some frame))) (h : Moves crypto sm sm' []) :
    Outcome crypto sm a sm' := by
  refine .inr ⟨?_, h⟩
  rintro addr n m (⟨_, _, _, _, _, _, _, _⟩ | ⟨_, _, _, _, _, _, _, _⟩)
  · exact hm2 _ _ rfl
  · exact hm3 _ _ rfl

theorem learnM2_outcome {frame : TdlsFrame} {peer peer' : TdlsPeer κ}
    {m2 : M2Data} (hrx : ¬ (sm.tdlsDisabled = true ∨ addr = sm.ownAddr))
    (hpeer : sm.peers addr = some peer) (hstatus : frame.status = 0)
    (hcheck : checkM2 sm peer frame.ies = .ok m2) (hcancel : Moves crypto sm sm' [])
    (hpeer' : peer' = peer.retryTimeoutCancel setupRequest) (hsm' : sm'.peers addr = some peer') :
    Outcome crypto sm (.rx addr (.tpkM2 (some frame)), env)
      (learnM2 crypto sm' addr frame.dtoken peer' m2 env) := by
  have hlearn : Moves crypto sm (sm'.put addr (peer'.learn m2)) [] :=
    hcancel.after (.put_of_eq hsm' rfl)
  -- an accepted message has the lifetime and the MIC
  have hinv : ∀ {addr' n m}, Accepts crypto sm (.rx addr (.tpkM2 (some frame)), env) addr' n m →
      env.keySet = true ∧ ∃ timeoutie, m2.keyLifetime = some timeoutie ∧
        timeoutie.value = peer.lifetime ∧
        verifyTdlsMic crypto 2 { peer.learn m2 with tpk := some (tpkM2 crypto sm addr peer m2) }
          m2.lnkid timeoutie m2.ftie = true := by
    intro addr' n m hacc
    cases hacc with
    | tpkM2 _ hkey hp _ hc htimeout hlifetime hmic =>
      cases hpeer.symm.trans hp
      cases hcheck.symm.trans hc
      exact ⟨hkey, _, htimeout, hlifetime, hmic⟩
  have hlife : peer'.lifetime = peer.lifetime := by
    rw [hpeer', lifetime_retryTimeoutCancel]
  unfold learnM2
  cases htimeout : m2.keyLifetime with
  | none =>
    refine .inr ⟨?_, hlearn.after (sendError_moves _ _ _)⟩
    intro addr' n m hacc
    obtain ⟨-, timeoutie, htimeout', -⟩ := hinv hacc
    exact Option.some_ne_none _ (htimeout'.symm.trans htimeout)
  | some timeoutie =>
    simp only
    by_cases hlifetime : timeoutie.value = peer.lifetime
    · have hderived : (tpkM2 crypto sm addr peer m2).Derived crypto addr sm.ownAddr sm.bssid :=
        generateTpk_derived _ _ _ _ _
      -- what is derived and checked does not depend on the retries
      have htpk : tpkM2 crypto (sm'.put addr (peer'.learn m2)) addr peer' m2 =
          tpkM2 crypto sm addr peer m2 := by
        unfold tpkM2
        rw [hpeer', inonce_retryTimeoutCancel, ← hcancel.ownAddr, ← hcancel.bssid]
        rfl
      have hmic : verifyTdlsMic crypto 2
          { peer'.learn m2 with tpk := some (tpkM2 crypto sm addr peer m2) } m2.lnkid timeoutie
            m2.ftie =
          verifyTdlsMic crypto 2 { peer.learn m2 with tpk := some (tpkM2 crypto sm addr peer m2) }
            m2.lnkid timeoutie m2.ftie := verifyTdlsMic_congr rfl rfl _ _ _ _
      rw [htpk, hmic, if_neg (not_not_intro (hlifetime.trans hlife.symm))]
      cases hok : verifyTdlsMic crypto 2
          { peer.learn m2 with tpk := some (tpkM2 crypto sm addr peer m2) } m2.lnkid timeoutie
          m2.ftie with
      | true =>
        have hmoves := hlearn.after (acceptM2_moves env frame.dtoken m2.lnkid
          { peer'.learn m2 with tpk := some (tpkM2 crypto sm addr peer m2) } rfl rfl
          (by rw [hlearn.ownAddr, hlearn.bssid]; exact hderived))
        by_cases hkey : env.keySet = true
        · rw [if_pos hkey] at hmoves
          exact .inl ⟨addr, tpkM2 crypto sm addr peer m2,
            .tpkM2 hrx hkey hpeer hstatus hcheck htimeout hlifetime hok, hmoves, .inr hderived⟩
        · rw [if_neg hkey] at hmoves
          exact .inr ⟨fun _ _ _ hacc => hkey (hinv hacc).1, hmoves⟩
      | false =>
        refine .inr ⟨?_, hlearn.after (micFailure_moves _)⟩
        intro addr' n m hacc
        obtain ⟨-, timeoutie', htimeout', -, hmic'⟩ := hinv hacc
        cases htimeout.symm.trans htimeout'
        exact Bool.noConfusion (hok.symm.trans hmic')
    · rw [if_pos fun heq => hlifetime (heq.trans hlife)]
      refine .inr ⟨?_, hlearn.after (sendError_moves _ _ _)⟩
      intro addr' n m hacc
      obtain ⟨-, timeoutie', htimeout', hlifetime', -⟩ := hinv hacc
      cases htimeout.symm.trans htimeout'
      exact hlifetime hlifetime'

theorem processTpkM2_outcome (hrx : ¬ (sm.tdlsDisabled = true ∨ addr = sm.ownAddr))
    (frame : Option TdlsFrame) :
    Outcome crypto sm (.rx addr (.tpkM2 frame), env) (processTpkM2 crypto sm addr frame env) := by
  unfold processTpkM2
  cases hpeer : sm.peers addr with
  | none =>
    refine .inr ⟨?_, .refl sm⟩
    intro addr' n m hacc
    cases hacc with
    | tpkM2 _ _ hpeer' => exact Option.some_ne_none _ (hpeer'.symm.trans hpeer)
  | some peer =>
    have hcancel : Moves crypto sm (sm.put addr (peer.retryTimeoutCancel setupRequest)) [] :=
      .put_of_eq hpeer (tpk_retryTimeoutCancel peer setupRequest)
    cases frame with
    | none => exact .of_moves nofun nofun hcancel
    | some frame =>
      simp only [checkM2_retryTimeoutCancel]
      by_cases hstatus : frame.status = 0
      · rw [if_neg (not_not_intro hstatus)]
        cases hcheck : checkM2 sm peer frame.ies with
        | error status =>
          refine .inr ⟨?_, ?_⟩
          · intro addr' n m hacc
            cases hacc with
            | tpkM2 _ _ hpeer' _ hcheck' =>
              cases hpeer.symm.trans hpeer'
              cases hcheck.symm.trans hcheck'
          · cases status with
            | none => exact hcancel
            | some status => exact hcancel.after (sendError_moves _ _ _)
        | ok m2 =>
          exact learnM2_outcome hrx hpeer hstatus hcheck hcancel rfl (peers_put_self _ _ _)
      · rw [if_pos hstatus]
        refine .inr ⟨?_, hcancel⟩
        intro addr' n m hacc
        cases hacc with
        | tpkM2 _ _ _ hstatus' => exact hstatus hstatus'

theorem processTpkM3_outcome (hrx : ¬ (sm.tdlsDisabled = true ∨ addr = sm.ownAddr))
    (frame : Option TdlsFrame) :
    Outcome crypto sm (.rx addr (.tpkM3 frame), env) (processTpkM3 crypto sm addr frame env) := by
  unfold processTpkM3
  cases hpeer : sm.peers addr with
  | none =>
    refine .inr ⟨?_, .refl sm⟩
    intro addr' n m hacc
    cases hacc with
    | tpkM3 _ _ hpeer' => exact Option.some_ne_none _ (hpeer'.symm.trans hpeer)
  | some peer =>
    have hcancel : Moves crypto sm (sm.put addr (peer.retryTimeoutCancel setupResponse)) [] :=
      .put_of_eq hpeer (tpk_retryTimeoutCancel peer setupResponse)
    cases frame with
    | none => exact .of_moves nofun nofun hcancel
    | some frame =>
      -- an accepted message has passed the checks of the entry
      have hinv : ∀ {addr' n m},
          Accepts crypto sm (.rx addr (.tpkM3 (some frame)), env) addr' n m →
          env.keySet = true ∧ peer.ccmp = true ∧ frame.status = 0 ∧ ∃ lnkid ftie timeoutie,
            checkM3 sm peer frame.ies = some (lnkid, ftie, timeoutie) ∧
            verifyTdlsMic crypto 3 peer lnkid timeoutie ftie = true := by
        intro addr' n m hacc
        cases hacc with
        | tpkM3 _ hkey hp hccmp hstatus hc _ hmic =>
          cases hpeer.symm.trans hp
          exact ⟨hkey, hccmp, hstatus, _, _, _, hc, hmic⟩
      have hmic : ∀ lnkid timeoutie ftie,
          verifyTdlsMic crypto 3 (peer.retryTimeoutCancel setupResponse) lnkid timeoutie ftie =
            verifyTdlsMic crypto 3 peer lnkid timeoutie ftie := fun _ _ _ =>
        verifyTdlsMic_congr (tpk_retryTimeoutCancel _ _) (rsnieP_retryTimeoutCancel _ _) _ _ _ _
      simp only [checkM3_retryTimeoutCancel, tpk_retryTimeoutCancel, hmic]
      by_cases hstatus : frame.status = 0
      · rw [if_neg (not_not_intro hstatus)]
        cases hcheck : checkM3 sm peer frame.ies with
        | none =>
          refine .inr ⟨?_, hcancel⟩
          intro addr' n m hacc
          obtain ⟨-, -, -, _, _, _, hcheck', -⟩ := hinv hacc
          exact Option.some_ne_none _ (hcheck'.symm.trans hcheck)
        | some data =>
          obtain ⟨lnkid, ftie, timeoutie⟩ := data
          simp only
          cases htpk : peer.tpk with
          | none =>
            refine .inr ⟨?_, hcancel.after (micFailure_moves _)⟩
            intro addr' n m hacc
            cases hacc with
            | tpkM3 _ _ hp _ _ _ htpk' =>
              cases hpeer.symm.trans hp
              exact Option.some_ne_none _ (htpk'.symm.trans htpk)
          | some tpk =>
            simp only
            cases hok : verifyTdlsMic crypto 3 peer lnkid timeoutie ftie with
            | true =>
              by_cases hkey : peer.ccmp = true ∧ env.keySet = true
              · have hset : setKey (sm.put addr (peer.retryTimeoutCancel setupResponse)) addr
                    (peer.retryTimeoutCancel setupResponse) tpk env =
                    ((sm.put addr (peer.retryTimeoutCancel setupResponse)).emit
                      (.setKey addr tpk), true) := by
                  unfold setKey
                  exact if_pos (by rw [ccmp_retryTimeoutCancel]; exact hkey)
                rw [hset]
                exact .inl ⟨addr, tpk, .tpkM3 hrx hkey.2 hpeer hkey.1 hstatus hcheck htpk hok,
                  (hcancel.after .setKey).andThen (enableLink_moves (peers_put_self _ _ _) rfl),
                  .inl ⟨peer, hpeer, htpk⟩⟩
              · have hset : setKey (sm.put addr (peer.retryTimeoutCancel setupResponse)) addr
                    (peer.retryTimeoutCancel setupResponse) tpk env =
                    (sm.put addr (peer.retryTimeoutCancel setupResponse), false) := by
                  unfold setKey
                  exact if_neg (by rw [ccmp_retryTimeoutCancel]; exact hkey)
                rw [hset]
                refine .inr ⟨?_, hcancel⟩
                intro addr' n m hacc
                obtain ⟨hkey', hccmp, -⟩ := hinv hacc
                exact hkey ⟨hccmp, hkey'⟩
            | false =>
              refine .inr ⟨?_, hcancel.after (micFailure_moves _)⟩
              intro addr' n m hacc
              obtain ⟨-, -, -, _, _, _, hcheck', hmic'⟩ := hinv hacc
              cases hcheck.symm.trans hcheck'
              exact Bool.noConfusion (hok.symm.trans hmic')
      · rw [if_pos hstatus]
        exact .inr ⟨fun _ _ _ hacc => hstatus (hinv hacc).2.2.1, hcancel⟩

/-- **Each input gives the driver at most the key of a message that it accepts.** -/
theorem tdlsStep_outcome (a : TdlsInput × TdlsEnv) :
    Outcome crypto sm a (tdlsStep crypto sm a) := by
  obtain ⟨input, env⟩ := a
  cases input with
  | start addr => exact .of_moves nofun nofun tdlsStart_moves
  | reneg addr => exact .of_moves nofun nofun tdlsReneg_moves
  | teardownNotify addr reasonCode =>
    exact .of_moves nofun nofun (recvTeardownNotify_moves reasonCode)
  | retryTimeout addr => exact .of_moves nofun nofun tpkRetryTimeout_moves
  | tpkTimeout addr => exact .of_moves nofun nofun tpkTimeout_moves
  | rx src frame =>
    simp only [tdlsStep, rxTdls]
    by_cases hrx : sm.tdlsDisabled = true ∨ src = sm.ownAddr
    · rw [if_pos hrx]
      refine .inr ⟨?_, .refl sm⟩
      rintro addr n m (⟨hrx', _⟩ | ⟨hrx', _⟩)
      · exact hrx' hrx
      · exact hrx' hrx
    · rw [if_neg hrx]
      cases frame with
      | tpkM1 frame => exact .of_moves nofun nofun (processTpkM1_moves frame)
      | tpkM2 frame => exact processTpkM2_outcome hrx frame
      | tpkM3 frame => exact processTpkM3_outcome hrx frame
      | teardown reasonCode ies => exact .of_moves nofun nofun (recvTeardown_moves reasonCode ies)

end Steps

/-! ## Runs -/

section Runs

variable {sm : TdlsSm κ} {a : TdlsInput × TdlsEnv}

theorem Accepts.unique {addr addr' : MacAddr} {n m n' m' : Nonce}
    (h : Accepts crypto sm a addr n m) (h' : Accepts crypto sm a addr' n' m') :
    addr = addr' ∧ n = n' ∧ m = m' := by
  cases h with
  | tpkM2 _ _ hpeer _ hcheck =>
    cases h' with
    | tpkM2 _ _ hpeer' _ hcheck' =>
      cases hpeer.symm.trans hpeer'
      cases hcheck.symm.trans hcheck'
      exact ⟨rfl, rfl, rfl⟩
  | tpkM3 _ _ hpeer _ _ _ htpk =>
    cases h' with
    | tpkM3 _ _ hpeer' _ _ _ htpk' =>
      cases hpeer.symm.trans hpeer'
      cases htpk.symm.trans htpk'
      exact ⟨rfl, rfl, rfl⟩

variable (crypto sm) in
/-- The TPKs of the entries, and those that the driver was given, come from their nonces. -/
structure AllDerived : Prop where
  stored : ∀ {addr peer tpk}, sm.peers addr = some peer → peer.tpk = some tpk →
    tpk.Derived crypto addr sm.ownAddr sm.bssid
  given : ∀ {addr tpk}, tpk ∈ given addr sm.out → tpk.Derived crypto addr sm.ownAddr sm.bssid

theorem allDerived_init (ownAddr bssid : MacAddr) (tdlsDisabled tdlsProhibited : Bool) :
    AllDerived crypto (.init ownAddr bssid tdlsDisabled tdlsProhibited) where
  stored := nofun
  given := nofun

theorem AllDerived.of_moves {sm' : TdlsSm κ} {new : List (MacAddr × Tpk κ)}
    (h : AllDerived crypto sm) (hmoves : Moves crypto sm sm' new)
    (hnew : ∀ p ∈ new, p.2.Derived crypto p.1 sm.ownAddr sm.bssid) : AllDerived crypto sm' where
  stored := by
    intro addr peer tpk hpeer htpk
    rw [hmoves.ownAddr, hmoves.bssid]
    rcases hmoves.tpk hpeer htpk with ⟨old, hold, htpk'⟩ | hderived
    · exact h.stored hold htpk'
    · exact hderived
  given := by
    intro addr tpk hmem
    rw [hmoves.given, List.mem_append] at hmem
    rw [hmoves.ownAddr, hmoves.bssid]
    rcases hmem with hmem | hmem
    · exact h.given hmem
    · obtain ⟨⟨addr', tpk'⟩, hp, heq⟩ := List.mem_filterMap.mp hmem
      simp only at heq
      split_ifs at heq with haddr
      cases heq
      subst haddr
      exact hnew _ hp

theorem AllDerived.step (h : AllDerived crypto sm) (a : TdlsInput × TdlsEnv) :
    AllDerived crypto (tdlsStep crypto sm a) := by
  have hstep : Outcome crypto sm a (tdlsStep crypto sm a) := tdlsStep_outcome a
  rcases hstep with ⟨addr, tpk, -, hmoves, hfrom⟩ | ⟨-, hmoves⟩
  · refine h.of_moves hmoves ?_
    intro p hp
    cases List.mem_singleton.mp hp
    rcases hfrom with ⟨peer, hpeer, htpk⟩ | hderived
    · exact h.stored hpeer htpk
    · exact hderived
  · exact h.of_moves hmoves nofun

variable (sm) in
/-- No TPK-TK has been given to the driver twice for a peer. -/
def NoReinstall : Prop := ∀ addr, ((given addr sm.out).map Tpk.tk).Nodup

variable (crypto sm a) in
/-- No message is accepted whose nonces have been those of a key of the peer. -/
def NewNonces : Prop :=
  ∀ addr n m, Accepts crypto sm a addr n m →
    ∀ tpk ∈ given addr sm.out, ¬ SameNonces n m tpk.inonce tpk.rnonce

/-- **One step**: no key is given again exactly when no message comes with nonces of a key. -/
theorem noReinstall_step (h : AllDerived crypto sm) :
    NoReinstall (tdlsStep crypto sm a) ↔ NoReinstall sm ∧ NewNonces crypto sm a := by
  have hstep : Outcome crypto sm a (tdlsStep crypto sm a) := tdlsStep_outcome a
  rcases hstep with ⟨addr, tpk, hacc, hmoves, hfrom⟩ | ⟨hnone, hmoves⟩
  · have hderived : tpk.Derived crypto addr sm.ownAddr sm.bssid := by
      rcases hfrom with ⟨peer, hpeer, htpk⟩ | hderived
      · exact h.stored hpeer htpk
      · exact hderived
    -- the key is an old one exactly when its nonces are those of an old one
    have hmem : tpk.tk ∈ (given addr sm.out).map Tpk.tk ↔
        ∃ old ∈ given addr sm.out, SameNonces tpk.inonce tpk.rnonce old.inonce old.rnonce := by
      rw [List.mem_map]
      constructor
      · rintro ⟨old, hold, htk⟩
        exact ⟨old, hold, (hderived.tk_eq_iff (h.given hold)).mp htk.symm⟩
      · rintro ⟨old, hold, hsame⟩
        exact ⟨old, hold, ((hderived.tk_eq_iff (h.given hold)).mpr hsame).symm⟩
    have hgiven : ∀ a', given a' (tdlsStep crypto sm a).out =
        given a' sm.out ++ if addr = a' then [tpk] else [] := by
      intro a'
      rw [hmoves.given]
      by_cases heq : addr = a' <;> simp [heq]
    constructor
    · intro hnodup
      refine ⟨?_, ?_⟩
      · intro a'
        have ha' := hnodup a'
        rw [hgiven, List.map_append] at ha'
        exact (List.nodup_append.mp ha').1
      · intro a' n m hacc' old hold hsame
        obtain ⟨rfl, rfl, rfl⟩ := hacc.unique hacc'
        have haddr := hnodup addr
        rw [hgiven, if_pos rfl, List.map_append, List.map_singleton,
          ← List.concat_eq_append, List.nodup_concat] at haddr
        exact haddr.1 (hmem.mpr ⟨old, hold, hsame⟩)
    · rintro ⟨hnodup, hnew⟩ a'
      rw [hgiven]
      by_cases heq : addr = a'
      · subst heq
        rw [if_pos rfl, List.map_append, List.map_singleton, ← List.concat_eq_append,
          List.nodup_concat]
        refine ⟨fun hold => ?_, hnodup addr⟩
        obtain ⟨old, hold, hsame⟩ := hmem.mp hold
        exact hnew addr _ _ hacc old hold hsame
      · rw [if_neg heq, List.append_nil]
        exact hnodup a'
  · have hgiven : ∀ a', given a' (tdlsStep crypto sm a).out = given a' sm.out := by
      intro a'
      rw [hmoves.given]
      exact List.append_nil _
    have hnew : NewNonces crypto sm a := fun addr n m hacc => absurd hacc (hnone addr n m)
    unfold NoReinstall
    simp only [hgiven, hnew, and_true]

end Runs

/-! ## A repeated message 3 -/

/-- Keys that are what they are derived from, and a MIC that tells the key by octets of its nonces.
-/
def sampleCrypto : TdlsCrypto (Bool × Nonce × Nonce × TpkContext) where
  kck n m context := (false, n, m, context)
  tk n m context := (true, n, m, context)
  mic key
    | .setup transSeq _ _ _ ftie =>
      [transSeq, UInt8.ofNat key.2.1.toNat, UInt8.ofNat key.2.2.1.toNat,
        UInt8.ofNat ftie.anonce.toNat, UInt8.ofNat ftie.snonce.toNat]
    | .teardown transSeq _ dtoken _ _ => [transSeq, dtoken]
  tk_injective := by
    intro n m n' m' c c' h
    cases h
    exact ⟨rfl, rfl, rfl⟩

/-- A message 1 of the station 2 to the station 1, with the nonce 5. -/
def sampleM1 : TdlsRx :=
  .tpkM1 (some
    { status := 0
      dtoken := 1
      ies := some
        { lnkid := some ⟨9, 2, 1, []⟩
          rsnIe := some rsnieM1
          ftie := some ⟨0, [], 0, 5, []⟩
          keyLifetime := some ⟨tpkLifetime, []⟩ } })

/-- The message 3 that ends the setup where the station 1 has drawn the nonce 7. -/
def sampleM3 : TdlsRx :=
  .tpkM3 (some
    { status := 0
      dtoken := 1
      ies := some
        { lnkid := some ⟨9, 2, 1, []⟩
          rsnIe := some rsnieM1
          ftie := some ⟨0, [3, 5, 7, 7, 5], 7, 5, []⟩
          keyLifetime := some ⟨tpkLifetime, []⟩ } })

end Hostapd.RsnSupp.Tdls
