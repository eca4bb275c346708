import Hostapd.Radius.Client
import Mathlib.Logic.Relation

/-!
# The RADIUS client: what an operation can do

Every operation of the client but `getId` and `send` is a sequence of a few moves on its list, and
the invariants of the later modules are kept move by move.

* **`finish_keeps`**, **`finishAcct_keeps`**: finishing a message keeps its identifier.
* **`Move`**, `Moves`, with one `_moves` lemma for each function of the model.
* **`timer_eq_none_iff`**: the timer frees the request it is sending exactly when an authentication
  request that is due runs into an error after which the client gets a new socket (`freesInUse`).
-/

namespace Hostapd.Radius

open Hostapd.Lib

/-! ## What finishing a message keeps -/

section Finishing

variable (hmacMd5 : Bytes → Bytes → Digest) (md5Vector : List Bytes → Digest)

variable {msg : RadiusMsg}

theorem length_write {pos : ℕ} {data : Bytes}
    (h : pos + data.length ≤ msg.buf.length) : (msg.write pos data).buf.length = msg.buf.length :=
  length_overwrite h

theorem identifier_write {pos : ℕ} {data : Bytes} (hpos : 2 ≤ pos)
    (h : pos ≤ msg.buf.length) : identifier (msg.write pos data) = identifier msg := by
  simp only [identifier, RadiusMsg.write, List.getD_eq_getElem?_getD,
    getElem?_overwrite_of_lt hpos h]

theorem addAttr_buf {msg m : RadiusMsg} {type : UInt8} {data : Bytes}
    (h : addAttr msg type data = some m) :
    m.buf = msg.buf ++ Record.encode attrHdrLen (type, data) := by
  have hroom : ∀ n, (makeRoom msg n).buf = msg.buf := by
    intro n
    unfold makeRoom
    split <;> rfl
  simp only [addAttr, put] at h
  split at h
  · cases h
  · split at h
    · cases h
    · cases h
      simp only [addAttrToArray, hroom]

theorem finishAcct_keeps (secret : Bytes) (h : hdrLen ≤ msg.buf.length) :
    identifier (finishAcct md5Vector msg secret) = identifier msg ∧
      (finishAcct md5Vector msg secret).buf.length = msg.buf.length := by
  simp only [hdrLen] at h
  have hlen : (msg.write 2 (putBe16 msg.buf.length)).buf.length = msg.buf.length :=
    length_write (by simp; omega)
  have hzero : ((msg.write 2 (putBe16 msg.buf.length)).write 4 (List.replicate 16 0)).buf.length =
      msg.buf.length := by
    rw [length_write (by simp only [List.length_replicate]; omega), hlen]
  constructor
  · rw [finishAcct, identifier_write (by omega) (by omega),
      identifier_write (by omega) (by omega), identifier_write (by omega) (by omega)]
  · rw [finishAcct, length_write (by simp only [Vector.length_toList]; omega), hzero]

theorem finish_keeps (secret : Bytes) (h : hdrLen ≤ msg.buf.length) :
    identifier (finish hmacMd5 msg secret).2 = identifier msg ∧
      hdrLen ≤ (finish hmacMd5 msg secret).2.buf.length := by
  simp only [hdrLen] at h ⊢
  unfold finish
  split
  · split
    · exact ⟨rfl, h⟩
    next m hm =>
      have hbuf := addAttr_buf hm
      have hlen : m.buf.length = msg.buf.length + 18 := by simp [hbuf]
      have hid : identifier m = identifier msg := by
        simp only [identifier, hbuf, List.getD_eq_getElem?_getD]
        rw [List.getElem?_append_left (by omega)]
      have hwrite : (m.write 2 (putBe16 m.buf.length)).buf.length = m.buf.length :=
        length_write (by simp; omega)
      constructor
      · rw [identifier_write (by omega) (by simp only [attrHdrLen]; omega),
          identifier_write (by omega) (by omega), hid]
      · rw [length_write (by simp [attrHdrLen]; omega), hwrite]
        omega
  · constructor
    · exact identifier_write (by omega) (by omega)
    · rw [length_write (by simp; omega)]
      exact h

end Finishing

namespace Client

/-! ## What the client does to its list -/

section Moves

variable (md5Vector : List Bytes → Digest)

/-- The client starts to use a server for accounting, with new sockets (`oserv` is `none`) or after
another server. -/
def adoptAcct (s : RadiusClientData) (svc : Service) (nserv : HostapdRadiusServer)
    (oserv : Option HostapdRadiusServer) : RadiusClientData :=
  let s' := adoptServer md5Vector { s with acct := svc } nserv oserv false
  { s' with acctChanges := s'.acctChanges ++ [⟨nserv, s.msgs, s'.msgs⟩] }

/-- What sending a request again does to its entry. -/
structure Resends (f : RadiusMsgList → RadiusMsgList) : Prop where
  msg : ∀ e, (f e).msg = e.msg
  msgType : ∀ e, (f e).msgType = e.msgType
  sharedSecret : ∀ e, (f e).sharedSecret = e.sharedSecret
  attempts : ∀ e, e.attempts ≤ (f e).attempts

/-- The moves of which every operation but `getId` and `send` consists. -/
inductive Move : RadiusClientData → RadiusClientData → Prop
  | tick {s : RadiusClientData} (auth acct : Service) (timers : List ℤ)
      (hcurrent : acct.current = s.acct.current) : Move s { s with auth, acct, timers }
  | unlink {s : RadiusClientData} (p : RadiusMsgList → Bool) : Move s (unlinkWhere p s)
  | remove {s : RadiusClientData} (i : ℕ) (hi : i < s.msgs.length) :
      Move s { s with msgs := s.msgs.eraseIdx i, numMsgs := s.numMsgs - 1 }
  | resend {s : RadiusClientData} (i : ℕ) (f : RadiusMsgList → RadiusMsgList)
      (hf : Resends f) : Move s { s with msgs := s.msgs.modify i f }
  | resetAuth {s : RadiusClientData} : Move s (resetRetries s true)
  | adoptAcct {s : RadiusClientData} (svc : Service) (nserv : HostapdRadiusServer)
      (oserv : Option HostapdRadiusServer) (hnew : svc.current = some nserv)
      (hold : oserv = none ∨ oserv = s.acct.current) :
      Move s (adoptAcct md5Vector s svc nserv oserv)

abbrev Moves : RadiusClientData → RadiusClientData → Prop := Relation.ReflTransGen (Move md5Vector)

theorem Moves.tick {s : RadiusClientData} (auth acct : Service) (timers : List ℤ)
    (hcurrent : acct.current = s.acct.current) :
    Moves md5Vector s { s with auth, acct, timers } :=
  .single (.tick auth acct timers hcurrent)

theorem flush_moves (s : RadiusClientData) (onlyAuth : Bool) :
    Moves md5Vector s (flush s onlyAuth) := by
  unfold flush
  have hunlink : Moves md5Vector s
      (unlinkWhere (fun e => !onlyAuth || e.msgType = .auth) s) := .single (.unlink _)
  simp only
  split
  · exact hunlink.trans (Moves.tick md5Vector _ _ [] rfl)
  · exact hunlink

theorem listDel_moves (s : RadiusClientData) (msgType : RadiusType) (addr : Option MacAddr) :
    Moves md5Vector s (listDel s msgType addr) := by
  cases addr with
  | none => exact .refl
  | some addr => exact .single (.unlink _)

theorem setService_auth_moves (s : RadiusClientData) (svc : Service) :
    Moves md5Vector s (s.setService true svc) := Moves.tick md5Vector svc s.acct s.timers rfl

theorem connectServer_moves (s : RadiusClientData) (nserv : HostapdRadiusServer) (sock sock6 : ℤ)
    (auth : Bool) (now : ℤ) (connected : Bool) :
    Moves md5Vector s (connectServer s nserv sock sock6 auth now connected) := by
  have htimer : Moves md5Vector s
      (if s.msgs = [] then s else { s with timers := [now + firstWait] }) := by
    split
    · exact .refl
    · exact Moves.tick md5Vector s.auth s.acct _ rfl
  refine htimer.trans ?_
  unfold connectServer
  generalize (if s.msgs = [] then s else { s with timers := [now + firstWait] }) = t
  simp only
  split
  · exact .refl
  next sock' _ =>
    split
    · cases auth with
      | true => exact setService_auth_moves md5Vector t _
      | false => exact Moves.tick md5Vector t.auth { t.acct with sock := sock' } t.timers rfl
    · exact .refl

theorem changeServer_auth_moves (s : RadiusClientData) (nserv : HostapdRadiusServer)
    (oserv : Option HostapdRadiusServer) (sock sock6 : ℤ) (now : ℤ) (connected : Bool) :
    Moves md5Vector s (changeServer md5Vector s nserv oserv sock sock6 true now connected) := by
  have hadopt : Moves md5Vector s (adoptServer md5Vector s nserv oserv true) := by
    unfold adoptServer
    simp only [if_true]
    split
    · exact .single .resetAuth
    · exact (flush_moves md5Vector s true).tail .resetAuth
  exact hadopt.trans (connectServer_moves md5Vector _ nserv sock sock6 true now connected)

theorem changeServer_acct_moves (s : RadiusClientData) (svc : Service)
    (nserv : HostapdRadiusServer) (oserv : Option HostapdRadiusServer)
    (hnew : svc.current = some nserv) (hold : oserv = none ∨ oserv = s.acct.current)
    (sock sock6 : ℤ) (now : ℤ) (connected : Bool) :
    Moves md5Vector s
      (changeServer md5Vector { s with acct := svc } nserv oserv sock sock6 false now connected) :=
  (Relation.ReflTransGen.single (.adoptAcct svc nserv oserv hnew hold)).trans
    (connectServer_moves md5Vector (adoptAcct md5Vector s svc nserv oserv) nserv sock sock6 false now
      connected)

theorem reinit_moves (s : RadiusClientData) (auth : Bool) (c : Connect) (now : ℤ) :
    Moves md5Vector s (reinit md5Vector s auth c now) := by
  unfold reinit
  cases auth with
  | true =>
    have hsocks := setService_auth_moves md5Vector s
      { s.service true with servSock := c.sock, servSock6 := c.sock6 }
    simp only
    split
    · exact hsocks
    · split
      · exact hsocks
      · exact hsocks.trans (changeServer_auth_moves md5Vector _ _ _ _ _ _ _)
  | false =>
    have hsocks : Moves md5Vector s
        (s.setService false { s.service false with servSock := c.sock, servSock6 := c.sock6 }) :=
      Moves.tick md5Vector s.auth { s.acct with servSock := c.sock, servSock6 := c.sock6 }
        s.timers rfl
    simp only
    split
    · exact hsocks
    · split
      · exact hsocks
      next nserv hnserv =>
        exact changeServer_acct_moves md5Vector s
          { s.service false with servSock := c.sock, servSock6 := c.sock6 } nserv none hnserv
          (Or.inl rfl) _ _ _ _

theorem handleSendError_moves (s : RadiusClientData) (msgType : RadiusType) (now : ℤ)
    (sent : Sent) : Moves md5Vector s (handleSendError md5Vector s msgType now sent) := by
  cases sent with
  | ok => exact .refl
  | failed => exact .refl
  | reconnect c => exact reinit_moves md5Vector s _ c now

theorem switchServer_moves (s : RadiusClientData) (next : ℕ) (auth : Bool) (now : ℤ)
    (connected : Bool) : Moves md5Vector s (switchServer md5Vector s next auth now connected) := by
  unfold switchServer
  simp only
  split
  next nserv oserv hnserv hoserv =>
    cases auth with
    | true =>
      exact (setService_auth_moves md5Vector s _).trans
        (changeServer_auth_moves md5Vector _ nserv _ _ _ _ _)
    | false =>
      exact changeServer_acct_moves md5Vector s { s.service false with server := next } nserv
        (some oserv) hnserv (Or.inr hoserv.symm) _ _ _ _
  · exact .refl

theorem failover_moves (s : RadiusClientData) (count : ℕ) (auth : Bool) (now : ℤ)
    (connected : Bool) : Moves md5Vector s (failover md5Vector s count auth now connected) := by
  unfold failover
  simp only
  split
  · exact switchServer_moves md5Vector s _ auth now connected
  · exact .refl

theorem retryPrimary_moves (s : RadiusClientData) (now : ℤ) (connected : Bool → Bool) :
    Moves md5Vector s (retryPrimary md5Vector s now connected) := by
  have hretry : ∀ (s : RadiusClientData) (auth : Bool), Moves md5Vector s
      (if 0 ≤ (s.service auth).sock ∧ (s.service auth).servers ≠ [] ∧ (s.service auth).server ≠ 0
        then switchServer md5Vector s 0 auth now (connected auth) else s) := by
    intro s auth
    split
    · exact switchServer_moves md5Vector s 0 auth now _
    · exact .refl
  exact (hretry s true).trans (hretry _ false)

theorem receive_moves (s : RadiusClientData) (msgType : RadiusType) (buf : Bytes) :
    Moves md5Vector s (receive s msgType buf).2 := by
  unfold receive
  split
  · exact .refl
  · split
    · exact .refl
    next msg _ =>
      split
      · exact .refl
      next req hreq =>
        obtain ⟨i, hi⟩ : ∃ i, s.msgs.findIdx? (RadiusMsgList.answeredBy msgType (identifier msg)) =
            some i := by
          rw [← Option.isSome_iff_exists, List.findIdx?_isSome, List.any_eq_true]
          exact ⟨req, List.mem_of_find?_eq_some hreq, List.find?_some hreq⟩
        have hlt := (List.findIdx?_eq_some_iff_findIdx_eq.mp hi).1
        simp only [List.eraseP_eq_eraseIdx, hi]
        exact .single (.remove i hlt)

variable {s s' : RadiusClientData} {i : ℕ} {now : ℤ} {sent : Sent}

theorem retransmit_moves {del : Bool}
    (h : retransmit md5Vector s i now sent = some (del, s')) : Moves md5Vector s s' := by
  unfold retransmit at h
  split at h
  · cases h
    exact .refl
  next e he =>
    split at h
    · cases h
    · cases h
      have hcount : Resends fun e => { e with attempts := e.attempts + 1 } :=
        ⟨fun _ => rfl, fun _ => rfl, fun _ => rfl, fun e => Nat.le_succ e.attempts⟩
      have hwait : Resends fun e =>
          { e with nextTry := now + e.nextWait, nextWait := min (e.nextWait * 2) maxWait } :=
        ⟨fun _ => rfl, fun _ => rfl, fun _ => rfl, fun _ => le_rfl⟩
      exact (Relation.ReflTransGen.single (.resend i _ hcount)).trans
        ((handleSendError_moves md5Vector _ e.msgType now sent).tail (.resend i _ hwait))

theorem retransmit_getElem
    (h : retransmit md5Vector s i now sent = some (true, s')) : i < s'.msgs.length := by
  unfold retransmit at h
  split at h
  · cases h
  · split at h
    · cases h
    · simp only [Option.some.injEq, Prod.mk.injEq] at h
      obtain ⟨hdel, rfl⟩ := h
      by_contra hi
      rw [List.getElem?_eq_none (Nat.le_of_not_lt hi)] at hdel
      cases hdel

theorem timerLoop_moves {sent : ℕ → Sent} (n : ℕ) {scan scan' : TimerScan}

    (h : timerLoop md5Vector now sent n i scan s = some (scan', s')) : Moves md5Vector s s' := by
  induction n generalizing i scan s with
  | zero =>
    cases h
    exact .refl
  | succ n ih =>
    unfold timerLoop at h
    split at h
    · cases h
      exact .refl
    next e he =>
      have hvisit : ∀ {del : Bool} {t : RadiusClientData},
          (if e.nextTry ≤ now then retransmit md5Vector s i now (sent n) else some (false, s)) =
            some (del, t) → Moves md5Vector s t ∧ (del = true → i < t.msgs.length) := by
        intro del t ht
        split at ht
        · refine ⟨retransmit_moves md5Vector ht, ?_⟩
          rintro rfl
          exact retransmit_getElem md5Vector ht
        · cases ht
          exact ⟨.refl, fun hdel => by cases hdel⟩
      split at h
      · cases h
      next t ht =>
        obtain ⟨hmoves, hi⟩ := hvisit ht
        exact (hmoves.tail (.remove i (hi rfl))).trans (ih h)
      next t ht => exact (hvisit ht).1.trans (ih h)

theorem timer_moves {w : TimerWorld}
    (h : timer md5Vector s w = some s') : Moves md5Vector s s' := by
  unfold timer at h
  split at h
  · cases h
    exact .refl
  · obtain ⟨⟨scan, t⟩, ht, rfl⟩ := Option.map_eq_some_iff.mp h
    refine (timerLoop_moves md5Vector _ ht).trans ?_
    have hregister : Moves md5Vector t (if t.msgs = [] then t else
        { t with timers := t.timers ++ [max scan.first w.now] }) := by
      split
      · exact .refl
      · exact Moves.tick md5Vector t.auth t.acct _ rfl
    exact hregister.trans ((failover_moves md5Vector _ _ true _ _).trans
      (failover_moves md5Vector _ _ false _ _))

theorem exec_moves (hmacMd5 : Bytes → Bytes → Digest) {op : Op}
    (hgetId : op ≠ .getId) (hsend : ∀ msg msgType addr w, op ≠ .send msg msgType addr w)
    (h : exec hmacMd5 md5Vector s op = some s') : Moves md5Vector s s' := by
  cases op with
  | register msgType handler =>
    cases h
    unfold register
    simp only
    cases decide (msgType ≠ .acct) with
    | true => exact setService_auth_moves md5Vector s _
    | false =>
      exact Moves.tick md5Vector s.auth { s.acct with handlers := s.acct.handlers ++ [handler] }
        s.timers rfl
  | getId => exact absurd rfl hgetId
  | send msg msgType addr w => exact absurd rfl (hsend msg msgType addr w)
  | receive msgType buf =>
    cases h
    exact receive_moves md5Vector s msgType buf
  | timer w =>
    exact (Moves.tick md5Vector s.auth s.acct (s.timers.eraseP (· ≤ w.now)) rfl).trans
      (timer_moves md5Vector h)
  | retryPrimary now connected =>
    cases h
    exact retryPrimary_moves md5Vector s now connected
  | flush onlyAuth =>
    cases h
    exact flush_moves md5Vector s onlyAuth
  | flushAuth addr =>
    cases h
    exact .single (.unlink _)

/-! ## A request freed while it is sent -/

/-- Some authentication request is due and the error of its datagram makes the client open its
sockets anew; `sent` is indexed as in `timerLoop`. -/
def freesInUse (now : ℤ) (sent : ℕ → Sent) : List RadiusMsgList → Bool
  | [] => false
  | e :: l => (e.msgType = .auth && e.nextTry ≤ now && (sent l.length).opens) ||
      freesInUse now sent l

def dueAuth (now : ℤ) (e : RadiusMsgList) : Bool := e.msgType = .auth && e.nextTry ≤ now

theorem freesInUse_congr {sent : ℕ → Sent} {l l' : List RadiusMsgList}
    (h : l.map (dueAuth now) = l'.map (dueAuth now)) :
    freesInUse now sent l = freesInUse now sent l' := by
  induction l generalizing l' with
  | nil =>
    rw [List.map_nil, List.nil_eq, List.map_eq_nil_iff] at h
    rw [h]
  | cons e l ih =>
    cases l' with
    | nil => cases h
    | cons e' l' =>
      simp only [List.map_cons, List.cons.injEq, dueAuth] at h
      have hlen : l.length = l'.length := by
        have := congrArg List.length h.2
        simpa using this
      simp only [freesInUse, h.1, ih h.2, hlen]

theorem connectServer_msgs (s : RadiusClientData) (nserv : HostapdRadiusServer) (sock sock6 : ℤ)
    (auth : Bool) (now : ℤ) (connected : Bool) :
    (connectServer s nserv sock sock6 auth now connected).msgs = s.msgs := by
  have hservice : ∀ (t : RadiusClientData) svc, (t.setService auth svc).msgs = t.msgs := by
    intro t svc
    cases auth <;> rfl
  have htimer : (if s.msgs = [] then s else { s with timers := [now + firstWait] }).msgs =
      s.msgs := by
    split <;> rfl
  simp only [connectServer]
  split
  · exact htimer
  · split
    · rw [hservice]
      exact htimer
    · exact htimer

/-- The authentication requests stay as they are when the client turns to a server for accounting.
-/
theorem changeServer_acct_dueAuth (s : RadiusClientData) (nserv : HostapdRadiusServer)
    (oserv : Option HostapdRadiusServer) (sock sock6 : ℤ) (now : ℤ) (connected : Bool) (now' : ℤ) :
    (changeServer md5Vector s nserv oserv sock sock6 false now connected).msgs.map (dueAuth now') =
      s.msgs.map (dueAuth now') := by
  have hmap : ∀ (f : RadiusMsgList → RadiusMsgList), (∀ e, dueAuth now' (f e) = dueAuth now' e) →
      ∀ l : List RadiusMsgList, (l.map f).map (dueAuth now') = l.map (dueAuth now') := by
    intro f hf l
    rw [List.map_map]
    exact List.map_congr_left fun e _ => hf e
  simp only [changeServer, connectServer_msgs, Bool.false_eq_true, if_false, adoptServer,
    resetRetries]
  rw [hmap]
  · split
    · rfl
    · refine hmap _ (fun e => ?_) s.msgs
      by_cases hacct : e.msgType = .acct <;> simp [dueAuth, hacct]
  · intro e
    by_cases hacct : e.msgType = .acct <;> simp [dueAuth, hacct]

/-- The client opens sockets in the middle of the timer's walk and the request being sent survives:
then the authentication requests are as they were. -/
theorem handleSendError_dueAuth {s : RadiusClientData} {msgType : RadiusType}
    (h : ¬ (msgType = .auth ∧ sent.opens)) (now' : ℤ) :
    (handleSendError md5Vector s msgType now sent).msgs.map (dueAuth now') =
      s.msgs.map (dueAuth now') := by
  cases sent with
  | ok => rfl
  | failed => rfl
  | reconnect c =>
    have hacct : ∀ acct : Bool, (acct = false → c.sock < 0 ∧ c.sock6 < 0) →
        (reinit md5Vector s (!acct) c now).msgs.map (dueAuth now') =
          s.msgs.map (dueAuth now') := by
      intro acct hclosed
      simp only [reinit]
      cases acct with
      | false =>
        rw [if_pos (hclosed rfl)]
        rfl
      | true =>
        split
        · rfl
        · split
          · rfl
          · exact changeServer_acct_dueAuth md5Vector _ _ _ _ _ _ _ _
    refine hacct msgType.isAcct fun hauth => ?_
    have hmsgType : msgType = .auth := by
      cases msgType <;> first | rfl | cases hauth
    have hclosed : ¬ (0 ≤ c.sock ∨ 0 ≤ c.sock6) := by
      simpa [hmsgType, Sent.opens] using h
    omega

theorem retransmit_eq_none_iff {s : RadiusClientData}
    {e : RadiusMsgList} (he : s.msgs[i]? = some e) :
    retransmit md5Vector s i now sent = none ↔ e.msgType = .auth ∧ sent.opens := by
  simp only [retransmit, he]
  by_cases h : e.msgType = .auth ∧ sent.opens
  · simp [h]
  · simp [h]

theorem retransmit_dueAuth {del : Bool}
    (h : retransmit md5Vector s i now sent = some (del, s')) (now' : ℤ) :
    (s'.msgs.drop (i + 1)).map (dueAuth now') = (s.msgs.drop (i + 1)).map (dueAuth now') := by
  have hmodify : ∀ (l : List RadiusMsgList) (f : RadiusMsgList → RadiusMsgList),
      (l.modify i f).drop (i + 1) = l.drop (i + 1) := by
    intro l f
    refine List.ext_getElem? fun j => ?_
    have hne : ¬ i = i + 1 + j := by omega
    simp [List.getElem?_drop, hne]
  unfold retransmit at h
  split at h
  · cases h
    rfl
  next e he =>
    split at h
    · cases h
    next hstays =>
      cases h
      simp only
      rw [hmodify, List.map_drop, handleSendError_dueAuth md5Vector hstays, ← List.map_drop,
        hmodify]

theorem timerLoop_eq_none_iff {sent : ℕ → Sent} (n i : ℕ) {scan : TimerScan}
    {s : RadiusClientData} (hn : (s.msgs.drop i).length = n) :
    timerLoop md5Vector now sent n i scan s = none ↔ freesInUse now sent (s.msgs.drop i) = true := by
  induction n generalizing i scan s with
  | zero => simp [timerLoop, List.length_eq_zero_iff.mp hn, freesInUse]
  | succ n ih =>
    have hi : i < s.msgs.length := by
      rw [List.length_drop] at hn
      omega
    have hget : s.msgs[i]? = some s.msgs[i] := List.getElem?_eq_getElem hi
    have hdrop : s.msgs.drop i = s.msgs[i] :: s.msgs.drop (i + 1) := List.drop_eq_getElem_cons hi
    have hbehind : (s.msgs.drop (i + 1)).length = n := by
      rw [hdrop, List.length_cons] at hn
      omega
    have hskip : ∀ scan, timerLoop md5Vector now sent n (i + 1) scan s = none ↔
        freesInUse now sent (s.msgs.drop (i + 1)) = true := fun scan => ih (i + 1) hbehind
    rw [hdrop, freesInUse, hbehind]
    unfold timerLoop
    rw [hget]
    simp only
    by_cases hdue : s.msgs[i].nextTry ≤ now
    · rw [if_pos hdue]
      cases hres : retransmit md5Vector s i now (sent n) with
      | none =>
        obtain ⟨hauth, hopens⟩ := (retransmit_eq_none_iff md5Vector hget).mp hres
        simp [hauth, hdue, hopens]
      | some p =>
        obtain ⟨del, t⟩ := p
        have hstays : ¬ (s.msgs[i].msgType = .auth ∧ (sent n).opens) := by
          intro hbad
          rw [(retransmit_eq_none_iff md5Vector hget).mpr hbad] at hres
          cases hres
        have hthis : (decide (s.msgs[i].msgType = .auth) && decide (s.msgs[i].nextTry ≤ now) &&
            (sent n).opens) = false := by
          by_contra hbad
          simp only [Bool.not_eq_false, Bool.and_eq_true, decide_eq_true_eq] at hbad
          exact hstays ⟨hbad.1.1, hbad.2⟩
        have hmap := retransmit_dueAuth md5Vector hres now
        have hrest : (t.msgs.drop (i + 1)).length = n := by
          have := congrArg List.length hmap
          rw [List.length_map, List.length_map] at this
          rw [this, hbehind]
        rw [hthis, Bool.false_or, ← freesInUse_congr hmap]
        cases del with
        | false => exact ih (i + 1) hrest
        | true =>
          have hlen : i < t.msgs.length := retransmit_getElem md5Vector hres
          have herase : (t.msgs.eraseIdx i).drop i = t.msgs.drop (i + 1) := by
            rw [List.eraseIdx_eq_take_drop_succ]
            refine List.drop_left' ?_
            rw [List.length_take]
            omega
          rw [← herase] at hrest ⊢
          exact ih (s := { t with msgs := t.msgs.eraseIdx i, numMsgs := t.numMsgs - 1 }) i hrest
    · rw [if_neg hdue, hskip]
      simp [hdue]

theorem timer_eq_none_iff {s : RadiusClientData} {w : TimerWorld} :
    timer md5Vector s w = none ↔ freesInUse w.now w.sent s.msgs = true := by
  unfold timer
  by_cases h : s.msgs = []
  · simp [h, freesInUse]
  · rw [if_neg h, Option.map_eq_none_iff]
    exact timerLoop_eq_none_iff md5Vector s.msgs.length 0 rfl

end Moves

end Client

end Hostapd.Radius
