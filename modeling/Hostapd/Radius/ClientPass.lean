import Hostapd.Radius.ClientFailover

/-!
# The RADIUS client: a retransmission pass

A run of `radius_client_timer` should send each request that is due once, use no request that has
been freed, and leave one timeout, in time for the next request. The pass registers its timeout
without cancelling another one, which is right as long as no call on the way registers one: a failed
send after which a socket is opened anew does, and so does the change to another server.

* **`visits`**: which requests a pass sends again; **`PassOk`**: what a pass should do.
* **`resend`**: what a pass makes of one request; **`timerLoop_calm`**: of all of them, when no send
  error opens a socket.
* **`Calm`**: no socket is opened in the pass, and no other server is turned to.
* **`run_pass`**: in every run whose passes are calm, each pass does what it should.
-/

namespace Hostapd.Radius.Client

open Hostapd.Lib

section Digests

variable (md5Vector : List Bytes → Digest)

/-! ## What a pass should do -/

/-- The requests that the loop of `radius_client_timer` sends again, each as the number of requests
behind it. The arguments are those of `timerLoop`. -/
def visits (now : ℤ) (sent : ℕ → Sent) : ℕ → ℕ → RadiusClientData → List ℕ
  | 0, _, _ => []
  | n + 1, i, s =>
    match s.msgs[i]? with
    | none => []
    | some entry =>
      if entry.nextTry ≤ now then
        n :: match retransmit md5Vector s i now (sent n) with
          | none => []
          | some (true, s) =>
            visits now sent n i { s with msgs := s.msgs.eraseIdx i, numMsgs := s.numMsgs - 1 }
          | some (false, s) => visits now sent n (i + 1) s
      else visits now sent n (i + 1) s

/-- A pass uses no freed request, sends each request that was due once, and, when requests remain,
leaves one timeout that is in time for all of them. -/
def PassOk (s : RadiusClientData) (w : TimerWorld) : Prop :=
  ∃ s', timer md5Vector s w = some s' ∧
    (visits md5Vector w.now w.sent s.msgs.length 0 s).Nodup ∧
    (∀ pre e rest, s.msgs = pre ++ e :: rest → e.nextTry ≤ w.now →
      rest.length ∈ visits md5Vector w.now w.sent s.msgs.length 0 s) ∧
    (s'.msgs ≠ [] → ∃ t, s'.timers = [t] ∧ ∀ e ∈ s'.msgs, t ≤ e.nextTry)

/-! ## A calm pass -/

/-- What a pass makes of a request: one that is due is sent, and removed after its last attempt. -/
def resend (now : ℤ) (e : RadiusMsgList) : Option RadiusMsgList :=
  if e.nextTry ≤ now then
    if maxRetries ≤ e.attempts + 1 then none
    else some { e with
      attempts := e.attempts + 1
      nextTry := now + e.nextWait
      nextWait := min (e.nextWait * 2) maxWait }
  else some e

/-- No request that is due meets an error after which a socket is opened; `sent` is indexed as in
`timerLoop`. -/
def NoOpening (now : ℤ) (sent : ℕ → Sent) : List RadiusMsgList → Prop
  | [] => True
  | e :: l => (e.nextTry ≤ now → (sent l.length).opens = false) ∧ NoOpening now sent l

/-- The client has another server of a kind, and a request of this kind that the pass keeps has been
sent too often. -/
def FailsOver (s : RadiusClientData) (now : ℤ) (auth : Bool) : Prop :=
  1 < (s.service auth).servers.length ∧
    ∃ e ∈ s.msgs.filterMap (resend now), e.msgType.isAcct = !auth ∧ numFailover < e.attempts

/-- A pass in which no socket is opened and no other server turned to. -/
structure Calm (s : RadiusClientData) (w : TimerWorld) : Prop where
  noOpening : NoOpening w.now w.sent s.msgs
  noFailover : ∀ auth, ¬ FailsOver s w.now auth

/-- The parts of a client that a calm pass leaves alone. -/
structure Undisturbed (s s' : RadiusClientData) : Prop where
  timers : s'.timers = s.timers
  servers : ∀ auth, (s'.service auth).servers = (s.service auth).servers

theorem Undisturbed.trans {s s' s'' : RadiusClientData} (h : Undisturbed s s')
    (h' : Undisturbed s' s'') : Undisturbed s s'' :=
  ⟨h'.timers.trans h.timers, fun auth => (h'.servers auth).trans (h.servers auth)⟩

theorem undisturbed_setService (s : RadiusClientData) (auth : Bool) {svc : Service}
    (h : svc.servers = (s.service auth).servers) : Undisturbed s (s.setService auth svc) := by
  refine ⟨by cases auth <;> rfl, fun auth' => ?_⟩
  cases auth <;> cases auth'
  · exact h
  · rfl
  · rfl
  · exact h

theorem handleSendError_calm (s : RadiusClientData) (msgType : RadiusType) (now : ℤ) {sent : Sent}
    (h : sent.opens = false) :
    (handleSendError md5Vector s msgType now sent).msgs = s.msgs ∧
      Undisturbed s (handleSendError md5Vector s msgType now sent) := by
  cases sent with
  | ok => exact ⟨rfl, rfl, fun _ => rfl⟩
  | failed => exact ⟨rfl, rfl, fun _ => rfl⟩
  | reconnect c =>
    have hclosed : c.sock < 0 ∧ c.sock6 < 0 := by simpa [Sent.opens] using h
    rw [handleSendError, reinit, if_pos hclosed]
    refine ⟨?_, undisturbed_setService s _ rfl⟩
    cases msgType.isAcct <;> rfl

/-- A request that is due, with what the pass makes of it before it is removed. -/
def sentAgain (now : ℤ) (e : RadiusMsgList) : RadiusMsgList :=
  { e with
    attempts := e.attempts + 1
    nextTry := now + e.nextWait
    nextWait := min (e.nextWait * 2) maxWait }

theorem modify_append_cons {α : Type*} (pre : List α) (e : α) (rest : List α) (f : α → α) :
    (pre ++ e :: rest).modify pre.length f = pre ++ f e :: rest := by
  induction pre with
  | nil => rfl
  | cons a pre ih => exact congrArg (a :: ·) ih

variable {s : RadiusClientData}

theorem retransmit_calm {pre rest : List RadiusMsgList} {e : RadiusMsgList}
    (hmsgs : s.msgs = pre ++ e :: rest) (now : ℤ) {sent : Sent} (h : sent.opens = false) :
    ∃ s', retransmit md5Vector s pre.length now sent =
        some (decide (maxRetries ≤ e.attempts + 1), s') ∧
      s'.msgs = pre ++ sentAgain now e :: rest ∧ Undisturbed s s' := by
  have hget : s.msgs[pre.length]? = some e := by rw [hmsgs]; simp
  obtain ⟨hkeep, hsame⟩ := handleSendError_calm md5Vector
    { s with msgs := s.msgs.modify pre.length fun e => { e with attempts := e.attempts + 1 } }
    e.msgType now h
  have hnot : ¬ (e.msgType = .auth ∧ sent.opens) := by simp [h]
  have hfinal : ((s.msgs.modify pre.length fun e => { e with attempts := e.attempts + 1 }).modify
      pre.length fun e => { e with
        nextTry := now + e.nextWait, nextWait := min (e.nextWait * 2) maxWait }) =
      pre ++ sentAgain now e :: rest := by
    rw [hmsgs, modify_append_cons, modify_append_cons]
    rfl
  refine ⟨{ handleSendError md5Vector { s with
      msgs := s.msgs.modify pre.length fun e => { e with attempts := e.attempts + 1 } }
      e.msgType now sent with msgs := pre ++ sentAgain now e :: rest }, ?_, rfl,
    hsame.timers, hsame.servers⟩
  simp only [retransmit, hget, if_neg hnot, hkeep, hfinal]
  simp [sentAgain]

/-- The requests of a list that are due, each as the number of requests behind it. -/
def dueBehind (now : ℤ) : List RadiusMsgList → List ℕ
  | [] => []
  | e :: l => if e.nextTry ≤ now then l.length :: dueBehind now l else dueBehind now l

variable {now : ℤ}

/-- The loop of a pass in which no socket is opened: each request that is due is sent once, and what
is left has been looked at. -/
theorem timerLoop_calm {sent : ℕ → Sent} (pre : List RadiusMsgList)
    {rest : List RadiusMsgList} (scan : TimerScan)
    (hmsgs : s.msgs = pre ++ rest) (h : NoOpening now sent rest) :
    visits md5Vector now sent rest.length pre.length s = dueBehind now rest ∧
      ∃ s', timerLoop md5Vector now sent rest.length pre.length scan s =
          some ((rest.filterMap (resend now)).foldl TimerScan.visit scan, s') ∧
        s'.msgs = pre ++ rest.filterMap (resend now) ∧ Undisturbed s s' := by
  induction rest generalizing pre scan s with
  | nil => exact ⟨rfl, s, rfl, hmsgs, rfl, fun _ => rfl⟩
  | cons e rest ih =>
    have hget : s.msgs[pre.length]? = some e := by rw [hmsgs]; simp
    -- The request stays: the rest of the loop begins behind it.
    have hstay : ∀ {t : RadiusClientData} {e' : RadiusMsgList}, t.msgs = pre ++ e' :: rest →
        visits md5Vector now sent rest.length (pre.length + 1) t = dueBehind now rest ∧
        ∃ s', timerLoop md5Vector now sent rest.length (pre.length + 1)
            ((t.msgs[pre.length]?).elim scan scan.visit) t =
            some ((e' :: rest.filterMap (resend now)).foldl TimerScan.visit scan, s') ∧
          s'.msgs = pre ++ e' :: rest.filterMap (resend now) ∧ Undisturbed t s' := by
      intro t e' ht
      have ht' : t.msgs = (pre ++ [e']) ++ rest := by rw [ht, List.append_assoc]; rfl
      have hvisit : (t.msgs[pre.length]?).elim scan scan.visit = scan.visit e' := by
        rw [ht]
        simp
      have hrest := ih (pre ++ [e']) (scan.visit e') ht' h.2
      rw [List.length_append, List.length_singleton, List.append_assoc] at hrest
      rw [hvisit]
      exact hrest
    by_cases hdue : e.nextTry ≤ now
    · obtain ⟨t, hres, ht, hsame⟩ := retransmit_calm md5Vector hmsgs now (h.1 hdue)
      by_cases hlast : maxRetries ≤ e.attempts + 1
      · -- The last attempt: the request is removed.
        have hgone : resend now e = none := by rw [resend, if_pos hdue, if_pos hlast]
        have ht' : ({ t with
            msgs := t.msgs.eraseIdx pre.length, numMsgs := t.numMsgs - 1 } :
              RadiusClientData).msgs = pre ++ rest := by
          simp [ht, List.eraseIdx_append_of_length_le]
        obtain ⟨hvisits, s', hloop, hleft, hsame'⟩ := ih pre scan ht' h.2
        refine ⟨?_, s', ?_, ?_, hsame.trans ⟨hsame'.timers, hsame'.servers⟩⟩
        · simp only [List.length_cons, visits, hget, if_pos hdue, hres, hlast, decide_true,
            dueBehind, hvisits]
        · simp only [List.length_cons, timerLoop, hget, if_pos hdue, hres, hlast, decide_true,
            List.filterMap_cons, hgone, hloop]
        · rw [List.filterMap_cons, hgone, hleft]
      · have hkept : resend now e = some (sentAgain now e) := by
          rw [resend, if_pos hdue, if_neg hlast]
          rfl
        obtain ⟨hvisits, s', hloop, hleft, hsame'⟩ := hstay ht
        refine ⟨?_, s', ?_, ?_, hsame.trans hsame'⟩
        · simp only [List.length_cons, visits, hget, if_pos hdue, hres, hlast, decide_false,
            dueBehind, hvisits]
        · simp only [List.length_cons, timerLoop, hget, if_pos hdue, hres, hlast, decide_false,
            List.filterMap_cons, hkept, hloop]
        · rw [List.filterMap_cons, hkept, hleft]
    · have hkept : resend now e = some e := if_neg hdue
      obtain ⟨hvisits, s', hloop, hleft, hsame⟩ := hstay hmsgs
      refine ⟨?_, s', ?_, ?_, hsame⟩
      · simp only [List.length_cons, visits, hget, if_neg hdue, dueBehind, hvisits]
      · simp only [List.length_cons, timerLoop, hget, if_neg hdue, List.filterMap_cons, hkept]
        rw [hget] at hloop
        exact hloop
      · rw [List.filterMap_cons, hkept, hleft]

variable {l : List RadiusMsgList}

theorem lt_length_of_mem_dueBehind {k : ℕ}
    (h : k ∈ dueBehind now l) : k < l.length := by
  induction l with
  | nil => cases h
  | cons e l ih =>
    rw [dueBehind] at h
    split at h
    · rcases List.mem_cons.mp h with rfl | h
      · exact Nat.lt_succ_self _
      · exact Nat.lt_succ_of_lt (ih h)
    · exact Nat.lt_succ_of_lt (ih h)

theorem nodup_dueBehind (now : ℤ) (l : List RadiusMsgList) : (dueBehind now l).Nodup := by
  induction l with
  | nil => exact .nil
  | cons e l ih =>
    rw [dueBehind]
    split
    · exact List.nodup_cons.mpr ⟨fun h => Nat.lt_irrefl _ (lt_length_of_mem_dueBehind h), ih⟩
    · exact ih

theorem mem_dueBehind (pre : List RadiusMsgList) {e : RadiusMsgList}
    (rest : List RadiusMsgList) (h : e.nextTry ≤ now) :
    rest.length ∈ dueBehind now (pre ++ e :: rest) := by
  induction pre with
  | nil =>
    rw [List.nil_append, dueBehind, if_pos h]
    exact List.mem_cons_self
  | cons a pre ih =>
    rw [List.cons_append, dueBehind]
    split
    · exact List.mem_cons_of_mem _ ih
    · exact ih

theorem foldl_visit_first {scan : TimerScan}
    (hl : ∀ e ∈ l, 0 < e.nextTry) (hscan : 0 ≤ scan.first) :
    (∀ e ∈ l, (l.foldl TimerScan.visit scan).first ≤ e.nextTry) ∧
      (scan.first ≠ 0 → (l.foldl TimerScan.visit scan).first ≤ scan.first) := by
  induction l generalizing scan with
  | nil => exact ⟨fun e he => absurd he List.not_mem_nil, fun _ => le_rfl⟩
  | cons e l ih =>
    have he := hl e List.mem_cons_self
    have hfirst : 0 < (scan.visit e).first ∧ (scan.visit e).first ≤ e.nextTry ∧
        (scan.first ≠ 0 → (scan.visit e).first ≤ scan.first) := by
      simp only [TimerScan.visit]
      split <;> omega
    obtain ⟨hpos, hle, hold⟩ := hfirst
    obtain ⟨hrest, hdown⟩ := ih (fun b hb => hl b (List.mem_cons_of_mem e hb)) hpos.le
    rw [List.foldl_cons]
    refine ⟨fun b hb => ?_, fun h => (hdown hpos.ne').trans (hold h)⟩
    rcases List.mem_cons.mp hb with rfl | hb
    · exact (hdown hpos.ne').trans hle
    · exact hrest b hb

theorem foldl_visit_failover {scan : TimerScan} :
    ((∀ e ∈ l, e.msgType.isAcct = false → ¬ numFailover < e.attempts) →
      (l.foldl TimerScan.visit scan).authFailover = scan.authFailover) ∧
    ((∀ e ∈ l, e.msgType.isAcct = true → ¬ numFailover < e.attempts) →
      (l.foldl TimerScan.visit scan).acctFailover = scan.acctFailover) := by
  induction l generalizing scan with
  | nil => exact ⟨fun _ => rfl, fun _ => rfl⟩
  | cons e l ih =>
    rw [List.foldl_cons]
    constructor
    · intro h
      have hthis := h e List.mem_cons_self
      rw [ih.1 fun b hb => h b (List.mem_cons_of_mem e hb)]
      exact if_neg fun hcount => hthis (by simpa using hcount.2) hcount.1
    · intro h
      have hthis := h e List.mem_cons_self
      rw [ih.2 fun b hb => h b (List.mem_cons_of_mem e hb)]
      exact if_neg fun hcount => hthis hcount.2 hcount.1

theorem nextTry_resend {e e' : RadiusMsgList} (h : resend now e = some e') :
    now ≤ e'.nextTry := by
  rw [resend] at h
  split at h
  · split at h
    · cases h
    · cases h
      simp
  · next hdue =>
    cases h
    exact (not_le.mp hdue).le

theorem failover_eq (s : RadiusClientData) {count : ℕ} {auth : Bool}
    (h : 1 < (s.service auth).servers.length → count = 0) (now : ℤ) (connected : Bool) :
    failover md5Vector s count auth now connected = s := by
  rw [failover]
  exact if_neg fun hboth => hboth.1 (h hboth.2)

variable {w : TimerWorld}

theorem timer_calm (h : Calm s w) (htimers : s.timers = [])
    (hne : s.msgs ≠ []) : ∃ s' : RadiusClientData, s'.timers = [] ∧
      s'.msgs = s.msgs.filterMap (resend w.now) ∧
      timer md5Vector s w = some (if s'.msgs = [] then s' else { s' with timers :=
        [max ((s.msgs.filterMap (resend w.now)).foldl TimerScan.visit ⟨0, 0, 0⟩).first w.now] }) := by
  obtain ⟨-, s', hloop, hleft, hsame⟩ :=
    timerLoop_calm md5Vector [] ⟨0, 0, 0⟩ (s := s) rfl h.noOpening
  generalize hscan : (s.msgs.filterMap (resend w.now)).foldl TimerScan.visit ⟨0, 0, 0⟩ = scan
    at hloop ⊢
  refine ⟨s', hsame.timers.trans htimers, hleft, ?_⟩
  have hloop' : timerLoop md5Vector w.now w.sent s.msgs.length 0 ⟨0, 0, 0⟩ s =
      some (scan, s') := hloop
  rw [timer, if_neg hne, hloop']
  simp only [Option.map_some, hsame.timers, htimers, List.nil_append]
  have hservers : ∀ auth, ((if s'.msgs = [] then s' else
      { s' with timers := [max scan.first w.now] }).service auth).servers =
      (s.service auth).servers := by
    intro auth
    rw [← hsame.servers auth]
    split
    · rfl
    · cases auth <;> rfl
  have hquiet : ∀ auth, 1 < (s.service auth).servers.length →
      ∀ e ∈ s.msgs.filterMap (resend w.now), e.msgType.isAcct = !auth →
        ¬ numFailover < e.attempts := fun auth hlen e he htype hcount =>
    h.noFailover auth ⟨hlen, e, he, htype, hcount⟩
  have hauth : 1 < (s.service true).servers.length → scan.authFailover = 0 := by
    intro hlen
    rw [← hscan]
    exact foldl_visit_failover.1 (hquiet true hlen)
  have hacct : 1 < (s.service false).servers.length → scan.acctFailover = 0 := by
    intro hlen
    rw [← hscan]
    exact foldl_visit_failover.2 (hquiet false hlen)
  rw [failover_eq md5Vector _ fun hlen => hauth (hservers true ▸ hlen),
    failover_eq md5Vector _ fun hlen => hacct (hservers false ▸ hlen)]

theorem passOk_of_calm (h : Calm s w)
    (htimers : s.timers = []) (hnow : 0 < w.now) : PassOk md5Vector s w := by
  have hvisits : visits md5Vector w.now w.sent s.msgs.length 0 s = dueBehind w.now s.msgs :=
    (timerLoop_calm md5Vector [] ⟨0, 0, 0⟩ (s := s) rfl h.noOpening).1
  have hdue : ∀ pre e rest, s.msgs = pre ++ e :: rest → e.nextTry ≤ w.now →
      rest.length ∈ dueBehind w.now s.msgs := by
    intro pre e rest hmsgs hdue
    rw [hmsgs]
    exact mem_dueBehind pre rest hdue
  by_cases hempty : s.msgs = []
  · refine ⟨s, if_pos hempty, ?_, ?_, fun hne => absurd hempty hne⟩
    · exact hvisits ▸ nodup_dueBehind w.now s.msgs
    · exact hvisits ▸ hdue
  obtain ⟨s', -, hleft, htimer⟩ := timer_calm md5Vector h htimers hempty
  refine ⟨_, htimer, hvisits ▸ nodup_dueBehind w.now s.msgs, hvisits ▸ hdue, fun hne => ?_⟩
  by_cases hgone : s'.msgs = []
  · rw [if_pos hgone] at hne
    exact absurd hgone hne
  · rw [if_neg hgone]
    refine ⟨_, rfl, fun e he => ?_⟩
    have hlater : ∀ e ∈ s.msgs.filterMap (resend w.now), w.now ≤ e.nextTry := by
      intro e he
      obtain ⟨b, -, hb⟩ := List.mem_filterMap.mp he
      exact nextTry_resend hb
    have hmem : e ∈ s.msgs.filterMap (resend w.now) := hleft ▸ he
    refine max_le ?_ (hlater e hmem)
    exact (foldl_visit_first (fun b hb => hnow.trans_le (hlater b hb)) le_rfl).1 e hmem

/-! ## One timeout at most -/

def Single (s : RadiusClientData) : Prop := s.timers.length ≤ 1

theorem timer_single {s s' : RadiusClientData} (h : Calm s w)
    (htimers : s.timers = []) (hs' : timer md5Vector s w = some s') : Single s' := by
  by_cases hempty : s.msgs = []
  · rw [timer, if_pos hempty] at hs'
    cases hs'
    simp [Single, htimers]
  · obtain ⟨t, ht, -, htimer⟩ := timer_calm md5Vector h htimers hempty
    rw [htimer] at hs'
    cases hs'
    split
    · simp [Single, ht]
    · simp [Single]

theorem flush_single (h : Single s) (onlyAuth : Bool) :
    Single (flush s onlyAuth) := by
  simp only [flush]
  split
  · simp [Single]
  · exact h

theorem connectServer_single (h : Single s) (nserv : HostapdRadiusServer)
    (sock sock6 : ℤ) (auth : Bool) (now : ℤ) (connected : Bool) :
    Single (connectServer s nserv sock sock6 auth now connected) := by
  have hservice : ∀ (t : RadiusClientData) svc, Single t → Single (t.setService auth svc) := by
    intro t svc ht
    cases auth <;> exact ht
  have htimer : Single (if s.msgs = [] then s else { s with timers := [now + firstWait] }) := by
    split
    · exact h
    · simp [Single]
  simp only [connectServer]
  split
  · exact htimer
  · split
    · exact hservice _ _ htimer
    · exact htimer

theorem changeServer_single (h : Single s) (nserv : HostapdRadiusServer)
    (oserv : Option HostapdRadiusServer) (sock sock6 : ℤ) (auth : Bool) (now : ℤ)
    (connected : Bool) :
    Single (changeServer md5Vector s nserv oserv sock sock6 auth now connected) := by
  have hadopt : Single (adoptServer md5Vector s nserv oserv auth) := by
    simp only [adoptServer]
    split
    · exact h
    · split
      · exact flush_single h true
      · exact h
  simp only [changeServer]
  refine connectServer_single ?_ nserv sock sock6 auth now connected
  split <;> exact hadopt

theorem setService_single (h : Single s) (auth : Bool) (svc : Service) :
    Single (s.setService auth svc) := by
  cases auth <;> exact h

theorem handleSendError_single (h : Single s) (msgType : RadiusType)
    (now : ℤ) (sent : Sent) : Single (handleSendError md5Vector s msgType now sent) := by
  cases sent with
  | ok => exact h
  | failed => exact h
  | reconnect c =>
    have hsocks := setService_single h (!msgType.isAcct)
      { s.service (!msgType.isAcct) with servSock := c.sock, servSock6 := c.sock6 }
    simp only [handleSendError, reinit]
    split
    · exact hsocks
    · split
      · exact hsocks
      · exact changeServer_single md5Vector hsocks _ _ _ _ _ _ _

theorem switchServer_single (h : Single s) (next : ℕ) (auth : Bool) (now : ℤ)
    (connected : Bool) : Single (switchServer md5Vector s next auth now connected) := by
  simp only [switchServer]
  split
  · exact changeServer_single md5Vector (setService_single h auth _) _ _ _ _ _ _ _
  · exact h

theorem retryPrimary_single (h : Single s) (now : ℤ)
    (connected : Bool → Bool) : Single (retryPrimary md5Vector s now connected) := by
  have hretry : ∀ (s : RadiusClientData) (auth : Bool), Single s → Single
      (if 0 ≤ (s.service auth).sock ∧ (s.service auth).servers ≠ [] ∧ (s.service auth).server ≠ 0
        then switchServer md5Vector s 0 auth now (connected auth) else s) := by
    intro s auth hs
    split
    · exact switchServer_single md5Vector hs 0 auth now _
    · exact hs
  exact hretry _ false (hretry s true h)

theorem listAdd_single (h : Single s) (msg : RadiusMsg)
    (msgType : RadiusType) (sharedSecret : Bytes) (addr : Option MacAddr) (w : SendWorld) :
    Single (listAdd s msg msgType sharedSecret addr w) := by
  simp only [listAdd, updateTimeout]
  split
  · exact h
  · split
    · split <;> simp [Single]
    · simp [Single]

theorem send_single (hmacMd5 : Bytes → Bytes → Digest) (h : Single s)
    (msg : RadiusMsg) (msgType : RadiusType) (addr : Option MacAddr) (w : SendWorld) :
    Single (send hmacMd5 md5Vector s msg msgType addr w).2 := by
  have hdel : Single (if msgType = .acctInterim then
      listDel { s with issued := s.issued.filter (· ≠ identifier msg) } msgType addr
      else { s with issued := s.issued.filter (· ≠ identifier msg) }) := by
    split
    · cases addr <;> exact h
    · exact h
  simp only [send]
  generalize (if msgType = .acctInterim then
      listDel { s with issued := s.issued.filter (· ≠ identifier msg) } msgType addr
      else { s with issued := s.issued.filter (· ≠ identifier msg) }) = t at hdel ⊢
  split
  · exact hdel
  next server hserver =>
    have hadd := fun m => listAdd_single
      (handleSendError_single md5Vector hdel msgType w.now w.sent) m msgType server.sharedSecret addr w
    split <;> exact hadd _

theorem receive_single (h : Single s) (msgType : RadiusType) (buf : Bytes) :
    Single (receive s msgType buf).2 := by
  unfold receive
  split
  · exact h
  · split
    · exact h
    · split <;> exact h

/-! ## Runs -/

/-- The event loop runs the timer when its timeout has expired. -/
def Called : Option RadiusClientData → Op → Prop
  | some s, .timer w => 0 < w.now ∧ ∃ t ∈ s.timers, t ≤ w.now
  | _, _ => True

def CalmStep : Option RadiusClientData → Op → Prop
  | some s, .timer w => Calm s w
  | _, _ => True

/-- A pass does what it should; its own timeout is gone when it begins. -/
def PassStep : Option RadiusClientData → Op → Prop
  | some s, .timer w => PassOk md5Vector { s with timers := s.timers.eraseP (· ≤ w.now) } w
  | _, _ => True

theorem eraseP_timers (h : Single s)
    (hdue : ∃ t ∈ s.timers, t ≤ now) : s.timers.eraseP (· ≤ now) = [] := by
  obtain ⟨t, ht, hle⟩ := hdue
  unfold Single at h
  match hs : s.timers with
  | [] => rw [hs] at ht; cases ht
  | [u] =>
    rw [hs, List.mem_singleton] at ht
    subst ht
    simp [hle]
  | u :: v :: l => rw [hs] at h; simp at h

variable (hmacMd5 : Bytes → Bytes → Digest)

theorem exec_single {s s' : RadiusClientData} (h : Single s) {op : Op} (hcalled : Called (some s) op)
    (hcalm : CalmStep (some s) op) (hs' : exec hmacMd5 md5Vector s op = some s') : Single s' := by
  cases op with
  | register msgType handler =>
    cases hs'
    exact setService_single h _ _
  | getId =>
    cases hs'
    exact h
  | send msg msgType addr w =>
    cases hs'
    exact send_single md5Vector hmacMd5 h msg msgType addr w
  | receive msgType buf =>
    cases hs'
    exact receive_single h msgType buf
  | timer w =>
    have hgone := eraseP_timers h hcalled.2
    exact timer_single md5Vector (s := { s with timers := s.timers.eraseP (· ≤ w.now) })
      ⟨hcalm.noOpening, hcalm.noFailover⟩ hgone hs'
  | retryPrimary now connected =>
    cases hs'
    exact retryPrimary_single md5Vector h now connected
  | flush onlyAuth =>
    cases hs'
    exact flush_single h onlyAuth
  | flushAuth addr =>
    cases hs'
    exact h

end Digests

/-! ## Passes that go wrong -/

instance : ∀ s op, Decidable (Called s op)
  | some s, .timer w => inferInstanceAs (Decidable (0 < w.now ∧ ∃ t ∈ s.timers, t ≤ w.now))
  | some _, .register _ _ | some _, .getId | some _, .send _ _ _ _ | some _, .receive _ _
  | some _, .retryPrimary _ _ | some _, .flush _ | some _, .flushAuth _ | none, _ => .isTrue trivial

instance instDecidableNoOpening (now : ℤ) (sent : ℕ → Sent) :
    ∀ l, Decidable (NoOpening now sent l)
  | [] => .isTrue trivial
  | _ :: l => @instDecidableAnd _ _ _ (instDecidableNoOpening now sent l)

instance (s : RadiusClientData) (now : ℤ) (auth : Bool) : Decidable (FailsOver s now auth) :=
  inferInstanceAs (Decidable (_ ∧ _))

instance (s : RadiusClientData) (w : TimerWorld) : Decidable (Calm s w) :=
  decidable_of_iff (NoOpening w.now w.sent s.msgs ∧ ∀ auth, ¬ FailsOver s w.now auth)
    ⟨fun ⟨hopening, hfailover⟩ => ⟨hopening, hfailover⟩, fun h => ⟨h.noOpening, h.noFailover⟩⟩

instance : ∀ s op, Decidable (CalmStep s op)
  | some s, .timer w => inferInstanceAs (Decidable (Calm s w))
  | some _, .register _ _ | some _, .getId | some _, .send _ _ _ _ | some _, .receive _ _
  | some _, .retryPrimary _ _ | some _, .flush _ | some _, .flushAuth _ | none, _ => .isTrue trivial

theorem exists_of_mem_dueBehind {now : ℤ} {l : List RadiusMsgList} {k : ℕ}
    (h : k ∈ dueBehind now l) :
    ∃ pre e rest, l = pre ++ e :: rest ∧ e.nextTry ≤ now ∧ rest.length = k := by
  induction l with
  | nil => cases h
  | cons a l ih =>
    have hbehind : k ∈ dueBehind now l →
        ∃ pre e rest, a :: l = pre ++ e :: rest ∧ e.nextTry ≤ now ∧ rest.length = k := by
      intro hmem
      obtain ⟨pre, e, rest, rfl, hdue, hlen⟩ := ih hmem
      exact ⟨a :: pre, e, rest, rfl, hdue, hlen⟩
    rw [dueBehind] at h
    split at h
    next hdue =>
      rcases List.mem_cons.mp h with rfl | h
      · exact ⟨[], a, l, rfl, hdue, rfl⟩
      · exact hbehind h
    next => exact hbehind h

instance (md5Vector : List Bytes → Digest) (s : RadiusClientData) (w : TimerWorld) :
    Decidable (PassOk md5Vector s w) :=
  decidable_of_iff (∃ s' ∈ timer md5Vector s w,
      (visits md5Vector w.now w.sent s.msgs.length 0 s).Nodup ∧
      (∀ k ∈ dueBehind w.now s.msgs, k ∈ visits md5Vector w.now w.sent s.msgs.length 0 s) ∧
      (s'.msgs ≠ [] → ∃ t ∈ s'.timers, s'.timers = [t] ∧ ∀ e ∈ s'.msgs, t ≤ e.nextTry)) <| by
    constructor
    · rintro ⟨s', hs', hnodup, hall, htimer⟩
      refine ⟨s', hs', hnodup, ?_, fun hne => ?_⟩
      · intro pre e rest hmsgs hdue
        exact hall _ (hmsgs ▸ mem_dueBehind pre rest hdue)
      · obtain ⟨t, -, ht⟩ := htimer hne
        exact ⟨t, ht⟩
    · rintro ⟨s', hs', hnodup, hall, htimer⟩
      refine ⟨s', hs', hnodup, ?_, fun hne => ?_⟩
      · intro k hk
        obtain ⟨pre, e, rest, hmsgs, hdue, rfl⟩ := exists_of_mem_dueBehind hk
        exact hall pre e rest hmsgs hdue
      · obtain ⟨t, ht, hle⟩ := htimer hne
        exact ⟨t, by simp [ht], ht, hle⟩

instance (md5Vector : List Bytes → Digest) : ∀ s op, Decidable (PassStep md5Vector s op)
  | some s, .timer w =>
    inferInstanceAs (Decidable (PassOk md5Vector { s with timers := s.timers.eraseP (· ≤ w.now) } w))
  | some _, .register _ _ | some _, .getId | some _, .send _ _ _ _ | some _, .receive _ _
  | some _, .retryPrimary _ _ | some _, .flush _ | some _, .flushAuth _ | none, _ => .isTrue trivial

/-- A request of a type is sent, and again when its first wait is over; `sent` is what becomes of
the second datagram. -/
def resentOnce (msgType : RadiusType) (sent : Sent) : List Op :=
  [.getId, .send (new 4 0) msgType (some 7) ⟨1, false, true, .ok⟩,
   .timer ⟨4, fun _ => sent, fun _ => true⟩]

/-- The event loop calls every pass of a run, and one of them does not do what it should. -/
def GoesWrong (acct : Service) (ops : List Op) : Prop :=
  Along (step (fun _ _ => zeroDigest) fun _ => zeroDigest) Called (some (init oneServer acct)) ops ∧
    ¬ Along (step (fun _ _ => zeroDigest) fun _ => zeroDigest) (PassStep fun _ => zeroDigest)
      (some (init oneServer acct)) ops

instance (acct : Service) (ops : List Op) : Decidable (GoesWrong acct ops) :=
  inferInstanceAs (Decidable (_ ∧ _))

end Hostapd.Radius.Client
