import Hostapd.Radius.ClientPending

/-!
# The RADIUS client: accounting messages and the change of servers

After a change of the accounting server every pending accounting message should be ready for the
new one (`Adopted`): it carries its secret and an authenticator computed with it, and its retry
counters are reset. `updateAcctMsgs` and `resetRetries` leave interim updates out, which the
rest of the source treats as accounting messages.

* **`Verifiable`**: the check a server makes of an Accounting-Request; `finishAcct_verifiable`.
* **`AcctInv`**: the invariant; accounting messages are always ready for the server in use, and
  interim updates have been sent at least once.
* **`run_failover_iff`**: all accounting messages are ready after each change of the accounting
  server of a run exactly when no interim update is pending at any of these changes.
-/

namespace Hostapd.Radius.Client

open Hostapd.Lib

section Digests

variable (md5Vector : List Bytes → Digest)

/-- The Request Authenticator is the digest over the message with zeroes in its place and the
secret. -/
def Verifiable (msg : RadiusMsg) (sharedSecret : Bytes) : Prop :=
  authenticator msg =
    (md5Vector [(msg.write 4 (List.replicate 16 0)).buf, sharedSecret]).toList

variable {msg : RadiusMsg}

theorem finishAcct_verifiable (sharedSecret : Bytes)
    (h : hdrLen ≤ msg.buf.length) :
    Verifiable md5Vector (finishAcct md5Vector msg sharedSecret) sharedSecret := by
  simp only [hdrLen] at h
  have hlen : (msg.write 2 (putBe16 msg.buf.length)).buf.length = msg.buf.length :=
    length_write (by simp only [length_putBe16]; omega)
  have hzero : ((msg.write 2 (putBe16 msg.buf.length)).write 4 (List.replicate 16 0)).buf.length =
      msg.buf.length := by
    rw [length_write (by simp only [List.length_replicate]; omega), hlen]
  have hback : ∀ (m : RadiusMsg) (d : Digest), 4 ≤ m.buf.length →
      ((m.write 4 (List.replicate 16 0)).write 4 d.toList).write 4 (List.replicate 16 0) =
        m.write 4 (List.replicate 16 0) := by
    intro m d hm
    have hbuf : overwrite (overwrite (overwrite m.buf 4 (List.replicate 16 0)) 4 d.toList) 4
        (List.replicate 16 0) = overwrite m.buf 4 (List.replicate 16 0) := by
      rw [overwrite_overwrite _ (by simp), overwrite_overwrite hm rfl]
      simp only [overwrite, List.length_append, List.length_take]
      omega
    simp only [RadiusMsg.write, hbuf]
  have hread : ∀ (m : RadiusMsg) (d : Digest), 4 ≤ m.buf.length →
      authenticator (m.write 4 d.toList) = d.toList := by
    intro m d hm
    have hback : ((overwrite m.buf 4 d.toList).drop 4).take d.toList.length = d.toList :=
      take_drop_overwrite hm
    rwa [Vector.length_toList] at hback
  rw [Verifiable, finishAcct, hread _ _ (by omega), hback _ _ (by omega)]

/-- An accounting message is ready for a server it has not been sent to: it carries the server's
secret, the server can verify it, and its retry counters are those of a new request. -/
structure Adopted (server : HostapdRadiusServer) (e : RadiusMsgList) : Prop where
  secret : e.sharedSecret = server.sharedSecret
  verifiable : Verifiable md5Vector e.msg server.sharedSecret
  nextTry : e.nextTry = e.firstTry + firstWait
  attempts : e.attempts = 0
  nextWait : e.nextWait = firstWait * 2

/-- What a change of the accounting server promises: every pending accounting message, interim
updates included, is ready for the new server. -/
def Updated (c : AcctChange) : Prop :=
  ∀ e ∈ c.after, e.msgType.isAcct = true → Adopted md5Vector c.server e

/-- No interim update is pending when the accounting server changes. -/
def NoInterim (c : AcctChange) : Prop := ∀ e ∈ c.before, e.msgType ≠ .acctInterim

structure AcctInv (s : RadiusClientData) : Prop where
  headed : Headed s.msgs
  acct : ∀ e ∈ s.msgs, e.msgType = .acct → ∃ server, s.acct.current = some server ∧
    e.sharedSecret = server.sharedSecret ∧ Verifiable md5Vector e.msg server.sharedSecret
  interim : ∀ e ∈ s.msgs, e.msgType = .acctInterim → 1 ≤ e.attempts
  changes : ∀ c ∈ s.acctChanges, Updated md5Vector c ↔ NoInterim c

/-! ## One change of the server -/

variable {s : RadiusClientData}

theorem adoptServer_acct_msgs (nserv : HostapdRadiusServer)
    {oserv : Option HostapdRadiusServer} (h : AcctInv md5Vector s)
    (hold : oserv = none ∨ oserv = s.acct.current) (svc : Service) :
    ∃ g : RadiusMsgList → RadiusMsgList,
      (adoptServer md5Vector { s with acct := svc } nserv oserv false).msgs = s.msgs.map g ∧
      ∀ e ∈ s.msgs, (g e).msgType = e.msgType ∧ (e.msgType ≠ .acct → g e = e) ∧
        (e.msgType = .acct → Adopted md5Vector nserv (g e)) := by
  let reset : RadiusMsgList → RadiusMsgList := fun e =>
    if false && e.msgType ≠ .auth || !false && e.msgType ≠ .acct then e
    else { e with nextTry := e.firstTry + firstWait, attempts := 0, nextWait := firstWait * 2 }
  by_cases hsame : oserv.map (·.sharedSecret) = some nserv.sharedSecret
  · refine ⟨reset, ?_, fun e he => ⟨?_, fun hacct => ?_, fun hacct => ?_⟩⟩
    · simp only [adoptServer, if_pos hsame]
      rfl
    · simp only [reset]
      split <;> rfl
    · simp [reset, hacct]
    · obtain ⟨server, hcurrent, hsecret, hverifiable⟩ := h.acct e he hacct
      have heq : server.sharedSecret = nserv.sharedSecret := by
        rcases hold with rfl | rfl
        · cases hsame
        · rw [hcurrent] at hsame
          exact Option.some.inj hsame
      have hreset : reset e = { e with
          nextTry := e.firstTry + firstWait, attempts := 0, nextWait := firstWait * 2 } := by
        simp [reset, hacct]
      rw [hreset]
      exact ⟨hsecret.trans heq, heq ▸ hverifiable, rfl, rfl, rfl⟩
  · let update : RadiusMsgList → RadiusMsgList := fun e =>
      if e.msgType = .acct then
        { e with
          sharedSecret := nserv.sharedSecret
          msg := finishAcct md5Vector e.msg nserv.sharedSecret }
      else e
    refine ⟨fun e => reset (update e), ?_, fun e he => ⟨?_, fun hacct => ?_, fun hacct => ?_⟩⟩
    · simp only [adoptServer, if_neg hsame, Bool.false_eq_true, if_false]
      simp only [resetRetries, updateAcctMsgs, List.map_map]
      rfl
    · by_cases hacct : e.msgType = .acct <;> simp [reset, update, hacct]
    · simp [reset, update, hacct]
    · have hmsg : reset (update e) = { e with
          sharedSecret := nserv.sharedSecret
          msg := finishAcct md5Vector e.msg nserv.sharedSecret
          nextTry := e.firstTry + firstWait, attempts := 0, nextWait := firstWait * 2 } := by
        simp [reset, update, hacct]
      simp only [hmsg]
      exact ⟨rfl, finishAcct_verifiable md5Vector _ (h.headed e he), rfl, rfl, rfl⟩

theorem adoptServer_frame (s : RadiusClientData) (nserv : HostapdRadiusServer)
    (oserv : Option HostapdRadiusServer) :
    (adoptServer md5Vector s nserv oserv false).acct = s.acct ∧
      (adoptServer md5Vector s nserv oserv false).acctChanges = s.acctChanges := by
  simp only [adoptServer, resetRetries, Bool.false_eq_true, if_false]
  split <;> exact ⟨rfl, rfl⟩

theorem AcctInv.adoptAcct (h : AcctInv md5Vector s) {svc : Service}
    {nserv : HostapdRadiusServer} {oserv : Option HostapdRadiusServer}
    (hnew : svc.current = some nserv) (hold : oserv = none ∨ oserv = s.acct.current)
    (hheaded : Headed (adoptAcct md5Vector s svc nserv oserv).msgs) :
    AcctInv md5Vector (adoptAcct md5Vector s svc nserv oserv) := by
  obtain ⟨g, hmap, hg⟩ := adoptServer_acct_msgs md5Vector nserv h hold svc
  obtain ⟨hacct, hchanges⟩ := adoptServer_frame md5Vector { s with acct := svc } nserv oserv
  have hmsgs : ∀ {e}, e ∈ (Client.adoptAcct md5Vector s svc nserv oserv).msgs →
      ∃ b ∈ s.msgs, g b = e := by
    intro e he
    change e ∈ (adoptServer md5Vector { s with acct := svc } nserv oserv false).msgs at he
    rw [hmap] at he
    exact List.mem_map.mp he
  refine ⟨hheaded, fun e he htype => ?acct, fun e he htype => ?interim, fun c hc => ?changes⟩
  case acct =>
    obtain ⟨b, hb, rfl⟩ := hmsgs he
    have hready := (hg b hb).2.2 ((hg b hb).1.symm.trans htype)
    refine ⟨nserv, ?_, hready.secret, hready.verifiable⟩
    change (adoptServer md5Vector { s with acct := svc } nserv oserv false).acct.current = _
    rw [hacct]
    exact hnew
  case interim =>
    obtain ⟨b, hb, rfl⟩ := hmsgs he
    have hb' : b.msgType = .acctInterim := (hg b hb).1.symm.trans htype
    rw [(hg b hb).2.1 (by rw [hb']; decide)]
    exact h.interim b hb hb'
  case changes =>
    simp only [Client.adoptAcct, hchanges] at hc
    rcases List.mem_append.mp hc with hc' | hc'
    · exact h.changes c hc'
    · rw [List.mem_singleton.mp hc']
      simp only [Updated, NoInterim, hmap]
      constructor
      · intro hupdated b hb hinterim
        have hstays : g b = b := (hg b hb).2.1 (by rw [hinterim]; decide)
        have hready := hupdated (g b) (List.mem_map_of_mem hb) (by rw [hstays, hinterim]; rfl)
        have hsent := h.interim b hb hinterim
        rw [hstays] at hready
        rw [hready.attempts] at hsent
        exact absurd hsent (by decide)
      · intro hnone e he hisAcct
        obtain ⟨b, hb, rfl⟩ := List.mem_map.mp he
        refine (hg b hb).2.2 ?_
        rw [(hg b hb).1] at hisAcct
        cases htype : b.msgType with
        | auth =>
          rw [htype] at hisAcct
          cases hisAcct
        | acct => rfl
        | acctInterim => exact absurd htype (hnone b hb)

/-! ## Any operation -/

theorem AcctInv.move {s s' : RadiusClientData} (h : AcctInv md5Vector s)
    (hm : Move md5Vector s s') : AcctInv md5Vector s' := by
  have hheaded := (hm.revised.idents_sublist h.headed).2
  have hsub : ∀ {t : RadiusClientData}, t.acct.current = s.acct.current →
      t.acctChanges = s.acctChanges → (∀ e ∈ t.msgs, e ∈ s.msgs) → AcctInv md5Vector t := by
    intro t hcurrent hchanges hmem
    refine ⟨fun e he => h.headed e (hmem e he), fun e he htype => ?_,
      fun e he => h.interim e (hmem e he), hchanges ▸ h.changes⟩
    rw [hcurrent]
    exact h.acct e (hmem e he) htype
  cases hm with
  | tick auth acct timers hcurrent => exact hsub hcurrent rfl fun e he => he
  | unlink p => exact hsub rfl rfl fun e he => List.mem_of_mem_filter he
  | remove i hi => exact hsub rfl rfl fun e he => List.mem_of_mem_eraseIdx he
  | resend i f hf =>
    refine ⟨hheaded, fun e he htype => ?_, fun e he htype => ?_, h.changes⟩
    · rcases mem_modify he with hmem | ⟨b, hb, rfl⟩
      · exact h.acct e hmem htype
      · rw [hf.msg, hf.sharedSecret]
        exact h.acct b hb (hf.msgType b ▸ htype)
    · rcases mem_modify he with hmem | ⟨b, hb, rfl⟩
      · exact h.interim e hmem htype
      · exact (h.interim b hb (hf.msgType b ▸ htype)).trans (hf.attempts b)
  | resetAuth =>
    have hstays : ∀ e ∈ (resetRetries s true).msgs, e.msgType ≠ .auth → e ∈ s.msgs := by
      intro e he htype
      obtain ⟨b, hb, rfl⟩ := List.mem_map.mp he
      split at htype
      next hother =>
        rw [if_pos hother]
        exact hb
      next hauth =>
        refine absurd ?_ htype
        simpa using hauth
    refine ⟨hheaded, fun e he htype => ?_, fun e he htype => ?_, h.changes⟩
    · exact h.acct e (hstays e he (by rw [htype]; decide)) htype
    · exact h.interim e (hstays e he (by rw [htype]; decide)) htype
  | adoptAcct svc nserv oserv hnew hold => exact h.adoptAcct md5Vector hnew hold hheaded

theorem AcctInv.moves {s s' : RadiusClientData} (h : AcctInv md5Vector s)
    (hm : Moves md5Vector s s') : AcctInv md5Vector s' := by
  induction hm with
  | refl => exact h
  | tail _ hstep ih => exact ih.move md5Vector hstep

theorem connectServer_current (s : RadiusClientData) (nserv : HostapdRadiusServer)
    (sock sock6 : ℤ) (auth : Bool) (now : ℤ) (connected : Bool) :
    (connectServer s nserv sock sock6 auth now connected).acct.current = s.acct.current := by
  have htimer : (if s.msgs = [] then s else { s with timers := [now + firstWait] }).acct =
      s.acct := by
    split <;> rfl
  simp only [connectServer]
  split
  · rw [htimer]
  · split
    · cases auth with
      | true =>
        change (if s.msgs = [] then s else { s with timers := [now + firstWait] }).acct.current = _
        rw [htimer]
      | false =>
        change (if s.msgs = [] then s else { s with timers := [now + firstWait] }).acct.current = _
        rw [htimer]
    · rw [htimer]

theorem handleSendError_current (s : RadiusClientData) (msgType : RadiusType) (now : ℤ)
    (sent : Sent) :
    (handleSendError md5Vector s msgType now sent).acct.current = s.acct.current := by
  have hreinit : ∀ auth c, (reinit md5Vector s auth c now).acct.current = s.acct.current := by
    rintro (_ | _) c
    · simp only [reinit]
      split
      · rfl
      · split
        · rfl
        · simp only [changeServer, connectServer_current, Bool.false_eq_true, if_false]
          rw [(adoptServer_frame md5Vector _ _ _).1]
          rfl
    · simp only [reinit]
      split
      · rfl
      · split
        · rfl
        · simp only [changeServer, connectServer_current, if_true, adoptServer, resetRetries]
          split
          · rfl
          · unfold flush
            simp only
            split <;> rfl
  cases sent with
  | ok => rfl
  | failed => rfl
  | reconnect c => exact hreinit _ c

theorem AcctInv.listAdd (h : AcctInv md5Vector s)
    {msgType : RadiusType} {server : HostapdRadiusServer} (addr : Option MacAddr) (w : SendWorld)
    (hheaded : hdrLen ≤ msg.buf.length)
    (hready : msgType = .acct → s.acct.current = some server ∧
      Verifiable md5Vector msg server.sharedSecret) :
    AcctInv md5Vector (listAdd s msg msgType server.sharedSecret addr w) := by
  have hadd : ∀ t : RadiusClientData, t.acct = s.acct → t.acctChanges = s.acctChanges →
      (∀ e ∈ t.msgs, e ∈ s.msgs ∨ e.msg = msg ∧ e.msgType = msgType ∧ e.attempts = 1 ∧
        e.sharedSecret = server.sharedSecret) → AcctInv md5Vector t := by
    intro t hacct hchanges hmem
    refine ⟨fun e he => ?_, fun e he htype => ?_, fun e he htype => ?_, hchanges ▸ h.changes⟩
    · rcases hmem e he with hold | ⟨hmsg, -⟩
      · exact h.headed e hold
      · exact hmsg ▸ hheaded
    · rw [hacct]
      rcases hmem e he with hold | ⟨hmsg, hnew, -, hsecret⟩
      · exact h.acct e hold htype
      · obtain ⟨hcurrent, hverifiable⟩ := hready (hnew.symm.trans htype)
        exact ⟨server, hcurrent, hsecret, hmsg ▸ hverifiable⟩
    · rcases hmem e he with hold | ⟨-, -, hattempts, -⟩
      · exact h.interim e hold htype
      · exact hattempts.ge
  unfold Client.listAdd
  split
  · exact h
  · simp only [updateTimeout]
    split
    · split
      · refine hadd _ rfl rfl fun e he => ?_
        rcases List.mem_cons.mp (List.mem_of_mem_dropLast he) with rfl | hold
        · exact Or.inr ⟨rfl, rfl, rfl, rfl⟩
        · exact Or.inl hold
      · refine hadd _ rfl rfl fun e he => ?_
        rcases List.mem_cons.mp he with rfl | hold
        · exact Or.inr ⟨rfl, rfl, rfl, rfl⟩
        · exact Or.inl hold
    · refine hadd _ rfl rfl fun e he => ?_
      rcases List.mem_cons.mp he with rfl | hold
      · exact Or.inr ⟨rfl, rfl, rfl, rfl⟩
      · exact Or.inl hold

variable (hmacMd5 : Bytes → Bytes → Digest)

theorem AcctInv.send (h : AcctInv md5Vector s)
    (msgType : RadiusType) (addr : Option MacAddr) (w : SendWorld)
    (hheaded : hdrLen ≤ msg.buf.length) :
    AcctInv md5Vector (send hmacMd5 md5Vector s msg msgType addr w).2 := by
  have htaken : AcctInv md5Vector
      { s with issued := s.issued.filter (· ≠ identifier msg) } :=
    ⟨h.headed, h.acct, h.interim, h.changes⟩
  unfold Client.send
  simp only
  have hdel : AcctInv md5Vector (if msgType = .acctInterim then
      listDel { s with issued := s.issued.filter (· ≠ identifier msg) } msgType addr
      else { s with issued := s.issued.filter (· ≠ identifier msg) }) := by
    refine htaken.moves md5Vector ?_
    split
    · exact listDel_moves md5Vector _ msgType addr
    · exact .refl
  generalize (if msgType = .acctInterim then
      listDel { s with issued := s.issued.filter (· ≠ identifier msg) } msgType addr
      else { s with issued := s.issued.filter (· ≠ identifier msg) }) = t at hdel ⊢
  split
  · exact hdel
  next server hserver =>
    have hsent := hdel.moves md5Vector (handleSendError_moves md5Vector t msgType w.now w.sent)
    have hcurrent := handleSendError_current md5Vector t msgType w.now w.sent
    have hadd : AcctInv md5Vector (Client.listAdd (handleSendError md5Vector t msgType w.now w.sent)
        (if msgType.isAcct then finishAcct md5Vector msg server.sharedSecret
          else (finish hmacMd5 msg server.sharedSecret).2) msgType server.sharedSecret addr w) := by
      refine hsent.listAdd md5Vector addr w ?_ ?_
      · split
        · rw [(finishAcct_keeps md5Vector _ hheaded).2]
          exact hheaded
        · exact (finish_keeps hmacMd5 _ hheaded).2
      · rintro rfl
        exact ⟨hcurrent.trans hserver, finishAcct_verifiable md5Vector _ hheaded⟩
    split
    · exact hadd
    · exact hadd

/-! ## Runs -/

def Formed : Op → Prop
  | .send msg _ _ _ => hdrLen ≤ msg.buf.length
  | _ => True

theorem AcctInv.exec {s s' : RadiusClientData} (h : AcctInv md5Vector s) {op : Op}
    (hformed : Formed op) (hs' : exec hmacMd5 md5Vector s op = some s') :
    AcctInv md5Vector s' := by
  cases op with
  | getId =>
    cases hs'
    exact ⟨fun e he => h.headed e (List.mem_of_mem_filter he),
      fun e he => h.acct e (List.mem_of_mem_filter he),
      fun e he => h.interim e (List.mem_of_mem_filter he), h.changes⟩
  | send msg msgType addr w =>
    cases hs'
    exact h.send md5Vector hmacMd5 msgType addr w hformed
  | _ => exact h.moves md5Vector (exec_moves md5Vector hmacMd5 (by simp) (by simp) hs')

/-- Source: `radius_change_server`. In every run of a client, each change of the accounting server
leaves every pending accounting message, interim updates included, ready for the new server
exactly when no interim update was pending. -/
theorem run_failover_iff (auth acct : Service) (ops : List Op) (hformed : ∀ op ∈ ops, Formed op)
    {s : RadiusClientData}
    (hrun : run (step hmacMd5 md5Vector) (some (init auth acct)) ops = some s) :
    ∀ c ∈ s.acctChanges, Updated md5Vector c ↔ NoInterim c := by
  have hinit : AcctInv md5Vector (init auth acct) := by
    constructor <;> simp [init, Headed]
  have hall : Along (step hmacMd5 md5Vector) (fun _ op => Formed op) (some (init auth acct)) ops :=
    along_of_forall hformed _
  have hinv := Along.run_inv (I := fun s => ∀ t, s = some t → AcctInv md5Vector t)
    (fun s op hs hop t ht => ?_) (fun t ht => Option.some.inj ht ▸ hinit) hall
  · exact (hinv s hrun).changes
  · obtain ⟨u, rfl, hu⟩ := Option.bind_eq_some_iff.mp ht
    exact (hs u rfl).exec md5Vector hmacMd5 hop hu

end Digests

/-! ## An interim update that is left behind -/

def twoServers : Service where
  servers := [⟨.inet, [1]⟩, ⟨.inet, [2]⟩]
  server := 0
  servSock := 3
  servSock6 := 4
  sock := 3
  handlers := []

/-- An accounting message of a type is sent, and the timer sends it four times more without a
response: then the client turns to the next server. -/
def unanswered (msgType : RadiusType) : List Op :=
  [.getId, .send (new 4 0) msgType (some 7) ⟨0, false, true, .ok⟩] ++
    [3, 9, 21, 45].map fun now => .timer ⟨now, fun _ => .ok, fun _ => true⟩

/-- The changes of the accounting server in a run. -/
def changes (s : Option RadiusClientData) : List AcctChange :=
  s.elim [] RadiusClientData.acctChanges

theorem interim_left_behind :
    ∃ c ∈ changes (run (step (fun _ _ => zeroDigest) fun _ => zeroDigest)
        (some (init oneServer twoServers)) (unanswered .acctInterim)),
      ¬ Updated (fun _ => zeroDigest) c := by
  have hleft : ∃ c ∈ changes (run (step (fun _ _ => zeroDigest) fun _ => zeroDigest)
        (some (init oneServer twoServers)) (unanswered .acctInterim)),
      ∃ e ∈ c.after, e.msgType.isAcct = true ∧ e.sharedSecret ≠ c.server.sharedSecret := by
    decide
  obtain ⟨c, hc, e, he, hacct, hsecret⟩ := hleft
  exact ⟨c, hc, fun hupdated => hsecret (hupdated e he hacct).secret⟩

theorem run_failover_iff_acct :
    (changes (run (step (fun _ _ => zeroDigest) fun _ => zeroDigest)
        (some (init oneServer twoServers)) (unanswered .acct))).length = 1 ∧
      ∀ c ∈ changes (run (step (fun _ _ => zeroDigest) fun _ => zeroDigest)
        (some (init oneServer twoServers)) (unanswered .acct)),
      Updated (fun _ => zeroDigest) c := by
  refine ⟨by decide, ?_⟩
  have hformed : ∀ op ∈ unanswered .acct, Formed op := by
    simp [unanswered, Formed, new, hdrLen]
  obtain ⟨s, hs⟩ : ∃ s, run (step (fun _ _ => zeroDigest) fun _ => zeroDigest)
      (some (init oneServer twoServers)) (unanswered .acct) = some s :=
    Option.isSome_iff_exists.mp (by decide)
  have hnone : ∀ c ∈ changes (run (step (fun _ _ => zeroDigest) fun _ => zeroDigest)
      (some (init oneServer twoServers)) (unanswered .acct)), ∀ e ∈ c.before,
        e.msgType ≠ .acctInterim := by
    decide
  rw [hs] at hnone ⊢
  exact fun c hc => (run_failover_iff _ _ _ _ _ hformed hs c hc).mpr (hnone c hc)

end Hostapd.Radius.Client
