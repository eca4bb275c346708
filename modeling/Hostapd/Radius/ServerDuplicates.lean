import Hostapd.Radius.ServerReplies
import Hostapd.Radius.ServerSessions

/-!
# The RADIUS server: requests that are sent again

A request that comes a second time, from the same port and with the same identifier and
authenticator, should get the reply it got before and not reach the EAP machine. The session keeps
the identifier and the authenticator of the request it answered last, and its reply; but the port it
keeps is overwritten by a request that is set aside until its method goes on.

* **`Kept`**: the invariant. What a session keeps is what its record says: the identifier, the
  authenticator and the reply of the request answered last, and the port of the one that arrived
  last.
* **`run_duplicate_iff`**: in every run a request that is sent again after its answer gets the same
  reply, with the EAP machine left alone, exactly when the request of its session that was last
  answered or set aside on its arrival came from the same port.
-/

namespace Hostapd.Radius.Server

open Hostapd.Lib

/-! ## The invariant -/

structure Alike (sess' sess : RadiusSession) : Prop where
  serial : sess'.serial = sess.serial
  port : sess'.lastFromPort = sess.lastFromPort
  identifier : sess'.lastIdentifier = sess.lastIdentifier
  authenticator : sess'.lastAuthenticator = sess.lastAuthenticator
  reply : sess'.lastReply = sess.lastReply

/-- A session keeps what the record of its requests says. -/
structure Recorded (h : History) (sess : RadiusSession) : Prop where
  port : sess.lastFromPort = h.arrival
  answer : ∀ a ∈ h.answer, sess.lastIdentifier = a.identifier ∧
    sess.lastAuthenticator = a.authenticator ∧ sess.lastReply = some a.reply

theorem Recorded.alike {h : History} {sess sess' : RadiusSession} (hrec : Recorded h sess)
    (halike : Alike sess' sess) : Recorded h sess' := by
  refine ⟨halike.port.trans hrec.port, fun a ha => ?_⟩
  obtain ⟨hid, hauth, hreply⟩ := hrec.answer a ha
  exact ⟨halike.identifier.trans hid, halike.authenticator.trans hauth, halike.reply.trans hreply⟩

variable {M : Type*}

/-- Every linked session keeps what its record says, and one that answered has an EAP machine. -/
structure Kept (s : ReplyingServer M) : Prop where
  serials : ∀ sess ∈ sessions s.data, sess.serial < s.data.created
  recorded : ∀ sess ∈ sessions s.data, Recorded (s.history sess.serial) sess
  machines : ∀ serial, (s.history serial).answer.isSome → (s.eap serial).isSome

theorem Kept.init (clients : List RadiusClient) (ipv6 : Bool) :
    Kept (ReplyingServer.init (M := M) clients ipv6) := by
  have hnone : sessions (Server.init clients ipv6) = [] := by simp [sessions, Server.init]
  refine ⟨?_, ?_, fun serial h => ?_⟩
  · simp [ReplyingServer.init, hnone]
  · simp [ReplyingServer.init, hnone]
  · simp [ReplyingServer.init, History.fresh] at h

variable {s : ReplyingServer M}

/-- The sessions of a table are those of another, as far as their requests go. -/
structure Retained (d' d : RadiusServerData) : Prop where
  sessions : ∀ sess' ∈ sessions d', ∃ sess ∈ sessions d, Alike sess' sess
  created : d.created ≤ d'.created

theorem Alike.refl (sess : RadiusSession) : Alike sess sess := ⟨rfl, rfl, rfl, rfl, rfl⟩

theorem Retained.refl (d : RadiusServerData) : Retained d d :=
  ⟨fun sess hsess => ⟨sess, hsess, .refl sess⟩, le_refl _⟩

theorem Retained.trans {d d' d'' : RadiusServerData} (h' : Retained d'' d') (h : Retained d' d) :
    Retained d'' d := by
  refine ⟨fun sess'' hsess'' => ?_, h.created.trans h'.created⟩
  obtain ⟨sess', hsess', h₂⟩ := h'.sessions sess'' hsess''
  obtain ⟨sess, hsess, h₁⟩ := h.sessions sess' hsess'
  exact ⟨sess, hsess, h₂.serial.trans h₁.serial, h₂.port.trans h₁.port,
    h₂.identifier.trans h₁.identifier, h₂.authenticator.trans h₁.authenticator,
    h₂.reply.trans h₁.reply⟩

theorem retained_modify (d : RadiusServerData) (serial : ℕ) {f : RadiusSession → RadiusSession}
    (hf : ∀ sess, Alike (f sess) sess) : Retained (modifySession d serial f) d := by
  refine ⟨fun sess' hsess' => ?_, le_refl _⟩
  rw [sessions_modify] at hsess'
  obtain ⟨sess, hsess, rfl⟩ := List.mem_map.mp hsess'
  refine ⟨sess, hsess, ?_⟩
  split
  · exact hf sess
  · exact .refl sess

theorem retained_unlink (d : RadiusServerData) (serial : ℕ) : Retained (unlink d serial) d := by
  refine ⟨fun sess hsess => ?_, le_refl _⟩
  rw [sessions_unlink] at hsess
  exact ⟨sess, (List.mem_filter.mp hsess).1, .refl sess⟩

theorem retained_sessionFree (d : RadiusServerData) (serial : ℕ) :
    Retained (sessionFree d serial) d := by
  have h := retained_modify (cancelTimeout (cancelTimeout d .session serial) .remove serial) serial
    (f := fun sess => { sess with freed := true }) fun sess => ⟨rfl, rfl, rfl, rfl, rfl⟩
  exact ⟨h.sessions, h.created⟩

theorem retained_timeout (d : RadiusServerData) (kind : TimeoutKind) (serial : ℕ) :
    Retained (timeout d kind serial) d := by
  simp only [timeout, sessionRemove]
  split
  · split
    · have h := (retained_sessionFree _ serial).trans (retained_unlink
        (cancelTimeout { d with timers := d.timers.erase (kind, serial) } .remove serial) serial)
      exact ⟨h.sessions, h.created⟩
    · exact ⟨(Retained.refl d).sessions, le_refl _⟩
  · exact .refl d

theorem retained_completeSession (d : RadiusServerData) (serial : ℕ) (w : World) :
    Retained (completeSession d serial w) d := by
  have h := retained_modify d serial (f := fun sess => { sess with completed := true })
    fun sess => ⟨rfl, rfl, rfl, rfl, rfl⟩
  simp only [completeSession, registerTimeout]
  split <;> exact ⟨h.sessions, h.created⟩

variable {s' : ReplyingServer M}

theorem Kept.retained (h : Kept s) (hdata : Retained s'.data s.data)
    (hhistory : s'.history = s.history)
    (heap : ∀ serial, (s.eap serial).isSome → (s'.eap serial).isSome) : Kept s' := by
  refine ⟨fun sess' hsess' => ?_, fun sess' hsess' => ?_, fun serial hanswer => ?_⟩
  · obtain ⟨sess, hsess, halike⟩ := hdata.sessions sess' hsess'
    exact halike.serial ▸ (h.serials sess hsess).trans_le hdata.created
  · obtain ⟨sess, hsess, halike⟩ := hdata.sessions sess' hsess'
    rw [hhistory, halike.serial]
    exact (h.recorded sess hsess).alike halike
  · rw [hhistory] at hanswer
    exact heap serial (h.machines serial hanswer)

theorem Kept.modify (h : Kept s) (serial : ℕ) {f : RadiusSession → RadiusSession}
    {g : History → History} (hf : ∀ sess, (f sess).serial = sess.serial)
    (hfg : ∀ sess, Recorded (s.history serial) sess → Recorded (g (s.history serial)) (f sess))
    (heap : (s.eap serial).isSome) {events : List Event} :
    Kept (({ s with data := modifySession s.data serial f, events }).setHistory serial g) := by
  have hmem : ∀ sess' ∈ sessions (modifySession s.data serial f), ∃ sess ∈ sessions s.data,
      (if sess.serial = serial then f sess else sess) = sess' := by
    intro sess' hsess'
    rw [sessions_modify] at hsess'
    exact List.mem_map.mp hsess'
  refine ⟨fun sess' hsess' => ?_, fun sess' hsess' => ?_, fun serial' hanswer => ?_⟩
  · obtain ⟨sess, hsess, rfl⟩ := hmem sess' hsess'
    have hold := h.serials sess hsess
    split
    · exact (hf sess).symm ▸ hold
    · exact hold
  · obtain ⟨sess, hsess, rfl⟩ := hmem sess' hsess'
    have hold := h.recorded sess hsess
    by_cases hserial : sess.serial = serial
    · subst hserial
      simpa [ReplyingServer.setHistory, hf] using hfg sess hold
    · simpa [ReplyingServer.setHistory, hserial] using hold
  · by_cases hserial : serial' = serial
    · exact hserial ▸ heap
    · refine h.machines serial' ?_
      simpa [ReplyingServer.setHistory, hserial] using hanswer

/-! ## A request keeps it -/

/-- A request comes with the port that it came from, or after it was stored with the port that its
session keeps. -/
def Way.Fits (way : Way) (h : History) : Prop :=
  way.fromPort = if way.forced then h.arrival else way.origin

theorem Kept.setEap (h : Kept s) (serial : ℕ) (e : EapSession M) :
    Kept (s.setEap serial (some e)) := by
  refine h.retained (.refl _) rfl fun serial' heap => ?_
  by_cases hserial : serial' = serial
  · simp [ReplyingServer.setEap, hserial]
  · simpa [ReplyingServer.setEap, hserial] using heap

theorem Kept.emit (h : Kept s) (event : Event) : Kept (s.emit event) :=
  h.retained (.refl _) rfl fun _ heap => heap

theorem Kept.called (h : Kept s) (serial : ℕ) (e : EapSession M) : Kept (s.called serial e) :=
  (h.setEap serial e).emit _

variable {serial : ℕ}

theorem Kept.reply (h : Kept s) (heap : (s.eap serial).isSome) (msg : RadiusMsg)
    {way : Way} (hway : way.Fits (s.history serial)) (w : World) :
    Kept (reply s serial msg way w) := by
  rw [Server.reply]
  cases hreply : w.reply with
  | none => exact h
  | some r =>
    simp only [storeReply, hreply]
    refine h.modify serial ?_ ?_ heap
    · intro sess
      rfl
    · intro sess hrec
      refine ⟨hway, fun a ha => ?_⟩
      cases ha
      exact ⟨rfl, rfl, rfl⟩

theorem Kept.complete (h : Kept s) (serial : ℕ) (w : World) : Kept (complete s serial w) := by
  rw [Server.complete]
  split
  · exact h.retained (retained_completeSession _ serial w) rfl fun _ heap => heap
  · exact h

variable {machine : EapServer M} {hmacMd5 : Bytes → Bytes → Digest}
  {md5Vector : List Bytes → Digest}

variable {msg : RadiusMsg}

theorem Kept.request (h : Kept s)
    {way : Way} {env : Env M} {r : ℤ}
    (hr : request machine hmacMd5 md5Vector s serial msg way env = some (r, s'))
    (hway : way.Fits (s.history serial)) : Kept s' := by
  cases request_cases hr with
  | gone hsess => exact h
  | resent sess reply hsess hdup hreply => exact h.emit _
  | repeated sess hsess hdup hreply => exact h
  | noEap sess hsess hdup heap => exact h
  | answered e htaken hanswers r eapIf =>
    have hcalled := (h.called serial e).setEap serial ⟨e.sm, eapIf⟩
    exact (hcalled.reply (by simp [ReplyingServer.setEap]) msg hway _).complete serial _
  | setAside e htaken hanswers hpending hforced =>
    have hport : way.fromPort = way.origin := by
      rw [hway, hforced]
      rfl
    refine (h.called serial e).modify serial ?_ ?_ ?_
    · intro sess
      rfl
    · intro sess hrec
      exact ⟨hport, hrec.answer⟩
    · simp [ReplyingServer.called, ReplyingServer.setEap, ReplyingServer.emit]
  | ignored e htaken hanswers hpending => exact h.called serial e

/-! ## An operation keeps it -/

theorem Kept.rejectRequest (h : Kept s) (msg : RadiusMsg) (secret : Bytes) (fromPort : ℕ)
    (env : Env M) : Kept (rejectRequest hmacMd5 md5Vector s msg secret fromPort env) := by
  rw [Server.rejectRequest]
  split
  · exact h.emit _
  · exact h

variable {client : ℕ}

/-- The sessions after the attempt to make a new one: those before, and perhaps one with the number
that was next. -/
theorem getNewSession_sessions {d : RadiusServerData}
    (hclient : client < d.clients.length) (msg : RadiusMsg) (w : World) :
    let d' := (getNewSession d client msg w).2
    (∀ serial ∈ (getNewSession d client msg w).1, serial = d.created) ∧
      d.created ≤ d'.created ∧ ∀ sess' ∈ sessions d',
        (∃ sess ∈ sessions d, Alike sess' sess) ∨
          (sess'.serial = d.created ∧ d.created < d'.created ∧ Recorded .fresh sess') := by
  by_cases hcreates : Creates d msg w
  · have hlink : ∀ (timers : List (TimeoutKind × ℕ)) (d' : RadiusServerData),
        Retained d' (linkSession d client timers) → d.created ≤ d'.created ∧
          ∀ sess' ∈ sessions d', (∃ sess ∈ sessions d, Alike sess' sess) ∨
            (sess'.serial = d.created ∧ d.created < d'.created ∧ Recorded .fresh sess') := by
      intro timers d' hd'
      have hless : d.created < d'.created := hd'.created
      refine ⟨hless.le, fun sess' hsess' => ?_⟩
      obtain ⟨sess, hsess, halike⟩ := hd'.sessions sess' hsess'
      rcases List.mem_cons.mp ((sessions_linkSession hclient timers).mem_iff.mp hsess) with
        rfl | hsess
      · have hfresh : Recorded .fresh (freshSession d.created d.nextSessId) :=
          ⟨rfl, fun a ha => absurd ha nofun⟩
        exact .inr ⟨halike.serial, hless, hfresh.alike halike⟩
      · exact .inl ⟨sess, hsess, halike⟩
    rw [getNewSession_of_creates hcreates]
    cases heap : w.eap with
    | none => exact ⟨nofun, hlink _ _ (retained_sessionFree _ _)⟩
    | some eap =>
      exact ⟨fun serial hserial => (Option.some.inj hserial).symm, hlink _ _ <|
        retained_modify _ _ fun sess => ⟨rfl, rfl, rfl, rfl, rfl⟩⟩
  · rw [getNewSession_of_not_creates hcreates]
    exact ⟨nofun, le_refl _, fun sess hsess => .inl ⟨sess, hsess, .refl sess⟩⟩

theorem Kept.newSession (h : Kept s) (hclient : client < s.data.clients.length)
    (msg : RadiusMsg) (w : World) (e : Option (EapSession M)) :
    Kept (({ s with data := (getNewSession s.data client msg w).2 }.setEap s.data.created
      e).setHistory s.data.created fun _ => .fresh) := by
  obtain ⟨-, hcreated, hsessions⟩ := getNewSession_sessions hclient msg w
  refine ⟨fun sess' hsess' => ?_, fun sess' hsess' => ?_, fun serial hanswer => ?_⟩
  · obtain ⟨sess, hsess, halike⟩ | ⟨hserial, hless, -⟩ := hsessions sess' hsess'
    · exact halike.serial ▸ (h.serials sess hsess).trans_le hcreated
    · exact hserial ▸ hless
  · obtain ⟨sess, hsess, halike⟩ | ⟨hserial, -, hrec⟩ := hsessions sess' hsess'
    · have hold : sess'.serial ≠ s.data.created := halike.serial ▸ (h.serials sess hsess).ne
      simpa [ReplyingServer.setHistory, ReplyingServer.setEap, hold] using
        (halike.serial ▸ h.recorded sess hsess : Recorded (s.history sess'.serial) sess).alike
          halike
    · simpa [ReplyingServer.setHistory, hserial] using hrec
  · by_cases hserial : serial = s.data.created
    · simp [ReplyingServer.setHistory, hserial, History.fresh] at hanswer
    · simp only [ReplyingServer.setHistory, ReplyingServer.setEap, Function.update_of_ne hserial]
        at hanswer ⊢
      exact h.machines serial hanswer

theorem Kept.clientRequest (h : Kept s)
    (hclient : client < s.data.clients.length) {fromPort : ℕ} {env : Env M} {r : ℤ}
    (hr : clientRequest machine hmacMd5 md5Vector s client msg fromPort env = some (r, s')) :
    Kept s' := by
  rw [Server.clientRequest] at hr
  split at hr
  · split at hr
    · exact h.request hr rfl
    · cases hr
      exact h.rejectRequest _ _ _ _
  · obtain ⟨hserial, -⟩ := getNewSession_sessions hclient msg env.world
    have hnew := h.newSession hclient msg env.world
    split at hr
    next serial d hd =>
      rw [hd] at hserial hnew
      obtain rfl := hserial serial rfl
      exact (hnew _).request hr rfl
    next d hd =>
      rw [hd] at hnew
      cases hr
      exact (hnew none).rejectRequest _ _ _ _

theorem Kept.resumed (h : Kept s) (serial : ℕ) :
    let s' : ReplyingServer M := { s with data := modifySession s.data serial fun sess =>
      { sess with lastMsg := none } }
    Kept ((s'.setEap serial ((s.eap serial).map fun e =>
      { e with sm := machine.pendingCb e.sm })).emit (.eapCalled serial)) := by
  refine h.retained ?_ rfl fun serial' heap => ?_
  · exact retained_modify _ _ fun sess => ⟨rfl, rfl, rfl, rfl, rfl⟩
  · by_cases hserial : serial' = serial
    · subst hserial
      simpa [ReplyingServer.setEap, ReplyingServer.emit] using heap
    · simpa [ReplyingServer.setEap, ReplyingServer.emit, hserial] using heap

theorem Kept.exec (h : Kept s) {op : ReplyOp M}
    (hs' : replyExec machine hmacMd5 md5Vector s op = some s') : Kept s' := by
  match op with
  | .receiveAuth buf addr addr6 fromPort env =>
    rw [replyExec, receiveRequest] at hs'
    split at hs'
    · cases hs'
      exact h
    next client msg hmsg =>
      obtain ⟨⟨r, t⟩, hrequest, rfl⟩ := Option.map_eq_some_iff.mp hs'
      exact h.clientRequest (accessRequest_client hmacMd5 hmsg) hrequest
  | .eapPendingCb ctx env =>
    rw [replyExec, pendingCb] at hs'
    split at hs'
    · cases hs'
      exact h
    next sess msg hpending =>
      obtain ⟨⟨r, t⟩, hrequest, rfl⟩ := Option.map_eq_some_iff.mp hs'
      obtain ⟨found, hfound, hmsg⟩ := Option.bind_eq_some_iff.mp hpending
      obtain ⟨_, -, heq⟩ := Option.map_eq_some_iff.mp hmsg
      obtain rfl := congrArg Prod.fst heq
      exact (h.resumed found.serial).request hrequest
        (h.recorded found (List.mem_of_find?_eq_some hfound)).port
  | .timeout kind serial =>
    cases hs'
    exact h.retained (retained_timeout _ _ _) rfl fun _ heap => heap

/-! ## Requests that are sent again -/

/-- An operation delivers again, by its port, its identifier and its authenticator, the request that
the session its State attribute names answered last. -/
def SentAgain (hmacMd5 : Bytes → Bytes → Digest) (s : ReplyingServer M) (serial : ℕ) (a : Answer) :
    ReplyOp M → Prop
  | .receiveAuth buf addr addr6 fromPort env => ∃ client msg state,
      accessRequest hmacMd5 s.data buf addr addr6 env.world = some (client, msg) ∧
      getAttrOf msg attrState = some state ∧ stateSession s.data client state = some serial ∧
      (s.history serial).answer = some a ∧
      fromPort = a.port ∧ identifier msg = a.identifier ∧ authenticator msg = a.authenticator
  | .eapPendingCb _ _ | .timeout _ _ => False

/-- An operation sends the reply of an answer again, to the port it went to, and leaves the EAP
machine of the session alone. -/
def RepliesAgain (machine : EapServer M) (hmacMd5 : Bytes → Bytes → Digest)
    (md5Vector : List Bytes → Digest) (s : ReplyingServer M) (serial : ℕ) (a : Answer)
    (op : ReplyOp M) : Prop :=
  ∃ s', replyExec machine hmacMd5 md5Vector s op = some s' ∧ s'.eap serial = s.eap serial ∧
    s'.events = s.events ++ [.sent a.port a.reply]

theorem exists_session {d : RadiusServerData} {state : Bytes}
    (h : stateSession d client state = some serial) : ∃ sess, session d serial = some sess := by
  rw [stateSession] at h
  split at h
  · obtain ⟨c, hc, hfound⟩ := Option.bind_eq_some_iff.mp h
    obtain ⟨sess, hsess, rfl⟩ := Option.map_eq_some_iff.mp hfound
    have hmem : sess ∈ sessions d := List.mem_flatMap.mpr
      ⟨c, List.mem_of_getElem? hc, List.mem_of_find?_eq_some hsess⟩
    exact Option.isSome_iff_exists.mp (List.find?_isSome.mpr ⟨sess, hmem, by simp⟩)
  · cases h

theorem reply_events (s : ReplyingServer M) (serial : ℕ) (msg : RadiusMsg) (way : Way) (w : World) :
    ∃ l, (reply s serial msg way w).events = s.events ++ l := by
  rw [reply]
  split
  · exact ⟨[], by simp⟩
  · exact ⟨_, rfl⟩

theorem complete_events (s : ReplyingServer M) (serial : ℕ) (w : World) :
    (complete s serial w).events = s.events := by
  rw [complete]
  split <;> rfl

theorem request_events {sess : RadiusSession}
    (hsess : session s.data serial = some sess) {way : Way} {env : Env M} {r : ℤ}
    (hdup : sess.isDuplicate msg way.fromPort = false)
    (hr : request machine hmacMd5 md5Vector s serial msg way env = some (r, s')) :
    s'.events = s.events ∨ ∃ l, s'.events = s.events ++ .eapCalled serial :: l := by
  cases request_cases hr with
  | gone hnone => exact .inl rfl
  | resent sess' reply hsess' hdup' hreply =>
    rw [hsess] at hsess'
    cases hsess'
    rw [hdup] at hdup'
    cases hdup'
  | repeated sess' hsess' hdup' hreply => exact .inl rfl
  | noEap sess' hsess' hdup' heap => exact .inl rfl
  | answered e htaken hanswers r eapIf =>
    obtain ⟨l, hl⟩ := reply_events ((s.called serial e).setEap serial (some ⟨e.sm, eapIf⟩)) serial msg
      way (env.seen machine e r)
    refine .inr ⟨l, ?_⟩
    rw [complete_events, hl]
    simp [ReplyingServer.called, ReplyingServer.setEap, ReplyingServer.emit]
  | setAside e htaken hanswers hpending hforced => exact .inr ⟨[], rfl⟩
  | ignored e htaken hanswers hpending => exact .inr ⟨[], rfl⟩

theorem repliesAgain_iff (h : Kept s) {a : Answer} {op : ReplyOp M}
    (hop : SentAgain hmacMd5 s serial a op) :
    RepliesAgain machine hmacMd5 md5Vector s serial a op ↔
      (s.history serial).arrival = a.port := by
  cases op with
  | eapPendingCb ctx env => exact hop.elim
  | timeout kind serial => exact hop.elim
  | receiveAuth buf addr addr6 fromPort env =>
    obtain ⟨client, msg, state, hmsg, hstate, hserial, ha, rfl, hid, hauth⟩ := hop
    obtain ⟨sess, hsess⟩ := exists_session hserial
    obtain ⟨hmem, rfl⟩ := session_mem hsess
    have hrec := h.recorded sess hmem
    obtain ⟨hlastId, hlastAuth, hreply⟩ := hrec.answer a ha
    obtain ⟨e, he⟩ := Option.isSome_iff_exists.mp (h.machines sess.serial (by simp [ha]))
    -- The operation is a request for the session.
    have hexec : replyExec machine hmacMd5 md5Vector s
        (.receiveAuth buf addr addr6 a.port env) =
        (request machine hmacMd5 md5Vector s sess.serial msg
          ⟨clientSecret s.data client, a.port, a.port, false⟩ env).map Prod.snd := by
      simp only [replyExec, receiveRequest, hmsg, clientRequest, hstate, hserial]
    have hdup : sess.isDuplicate msg a.port = decide ((s.history sess.serial).arrival = a.port) := by
      rw [RadiusSession.isDuplicate, hrec.port, hlastId, hlastAuth, hid, hauth]
      simp
    rw [RepliesAgain, hexec]
    constructor
    · rintro ⟨s', hs', -, hevents⟩
      by_contra hport
      obtain ⟨⟨r, t⟩, hrequest, rfl⟩ := Option.map_eq_some_iff.mp hs'
      rw [decide_eq_false hport] at hdup
      rcases request_events hsess hdup hrequest with hsame | ⟨l, hl⟩
      · simp [hsame] at hevents
      · simp [hl] at hevents
    · intro hport
      rw [decide_eq_true hport] at hdup
      refine ⟨s.emit (.sent a.port a.reply), ?_, rfl, rfl⟩
      simp [request, hsess, he, hdup, hreply]

section Runs

variable (machine hmacMd5 md5Vector)

/-- Source: `radius_server_request`, `radius_server_eap_pending_cb`. In every run, a request that is
sent again after its session answered it, and before the session answers another, gets the same
reply and leaves the EAP machine alone exactly when the request of the session that was last
answered or set aside on its arrival came from the same port. -/
theorem run_duplicate_iff (clients : List RadiusClient) (ipv6 : Bool) (ops : List (ReplyOp M))
    {s : ReplyingServer M}
    (hrun : run (replyStep machine hmacMd5 md5Vector) (some (.init clients ipv6)) ops = some s)
    {serial : ℕ} {a : Answer} {op : ReplyOp M} (hop : SentAgain hmacMd5 s serial a op) :
    RepliesAgain machine hmacMd5 md5Vector s serial a op ↔
      (s.history serial).arrival = a.port := by
  have hkept : ∀ t, run (replyStep machine hmacMd5 md5Vector) (some (.init clients ipv6)) ops =
      some t → Kept t := by
    refine run_inv (I := fun s => ∀ t, s = some t → Kept t) ?_ ?_ ops
    · intro s op hs t ht
      obtain ⟨u, rfl, hu⟩ := Option.bind_eq_some_iff.mp ht
      exact (hs u rfl).exec hu
    · intro t ht
      cases ht
      exact .init clients ipv6
  exact repliesAgain_iff (hkept s hrun) hop

end Runs

/-! ## A request that is sent again while another is set aside -/

instance (s : ReplyingServer M) (serial : ℕ) (a : Answer) :
    ∀ op, Decidable (SentAgain hmacMd5 s serial a op)
  | .receiveAuth buf addr addr6 fromPort env =>
    decidable_of_iff (∃ p ∈ accessRequest hmacMd5 s.data buf addr addr6 env.world,
      ∃ state ∈ getAttrOf p.2 attrState, stateSession s.data p.1 state = some serial ∧
        (s.history serial).answer = some a ∧ fromPort = a.port ∧ identifier p.2 = a.identifier ∧
        authenticator p.2 = a.authenticator)
      ⟨fun ⟨p, hp, state, hstate, h⟩ => ⟨p.1, p.2, state, hp, hstate, h⟩,
        fun ⟨client, msg, state, hmsg, hstate, h⟩ => ⟨(client, msg), hmsg, state, hstate, h⟩⟩
  | .eapPendingCb _ _ | .timeout _ _ => .isFalse id

instance [DecidableEq M] (s : ReplyingServer M) (serial : ℕ) (a : Answer) (op : ReplyOp M) :
    Decidable (RepliesAgain machine hmacMd5 md5Vector s serial a op) :=
  inferInstanceAs (Decidable (∃ s' ∈ replyExec machine hmacMd5 md5Vector s op,
    s'.eap serial = s.eap serial ∧ s'.events = s.events ++ [.sent a.port a.reply]))

/-- A machine with one method, which has to wait on a response with identifier 1: it has not yet
waited, waits, or has waited. -/
inductive Lookup
  | before | waiting | after
  deriving DecidableEq

def lookupMachine : EapServer Lookup where
  step sm eapIf :=
    if sm = .waiting ∨ sm = .before ∧ eapIf.eapRespData = some [2, 1, 0, 4] then
      (.waiting, { eapIf with eapResp := false })
    else (sm, { eapIf with eapResp := false, eapReq := true, eapReqData := some [1, 1, 0, 4] })
  methodPending sm := sm = .waiting
  pendingCb _ := .after

/-- An Access-Request with an identifier and a State, which is left out of the first one, for an EAP
response. -/
def eapRequest (identifier : UInt8) (state : Bytes) (eapIdentifier : UInt8) : Bytes :=
  let attrs := [1, 3, 117] ++ state ++ [79, 6, 2, eapIdentifier, 0, 4] ++
    [80, 18] ++ List.replicate 16 0
  [1, identifier, 0, UInt8.ofNat (hdrLen + attrs.length)] ++ List.replicate 16 0 ++ attrs

def plenty : Env Lookup where
  world := ⟨true, true, true, true, true, true, some 0, ⟨false, false, false, false, false⟩, none⟩
  sm := .before
  memEap := true
  memReply := true
  random := 0

def zero16 : Digest := Vector.replicate 16 0

/-- A request from a port arrives at a server with one access point. -/
def arrives (identifier : UInt8) (state : Bytes) (eapIdentifier : UInt8) (port : ℕ) :
    ReplyOp Lookup :=
  .receiveAuth (eapRequest identifier state eapIdentifier) 0 0 port plenty

def lookupRun (ops : List (ReplyOp Lookup)) : Option (ReplyingServer Lookup) :=
  run (replyStep lookupMachine (fun _ _ => zero16) fun _ => zero16)
    (some (.init [accessPoint] false)) ops

/-- A session answers request 1, and sets request 2 aside, from another port. -/
def asideFromElsewhere : List (ReplyOp Lookup) :=
  [arrives 0 [] 0 1000, arrives 1 [24, 6, 0, 0, 0, 0] 0 1000, arrives 2 [24, 6, 0, 0, 0, 0] 1 1001]

theorem duplicate_reaches_machine :
    (lookupRun asideFromElsewhere).isSome ∧ ∀ s ∈ lookupRun asideFromElsewhere,
      ∃ a ∈ (s.history 0).answer,
        SentAgain (fun _ _ => zero16) s 0 a (arrives 1 [24, 6, 0, 0, 0, 0] 0 1000) ∧
        ¬ RepliesAgain lookupMachine (fun _ _ => zero16) (fun _ => zero16) s 0 a
          (arrives 1 [24, 6, 0, 0, 0, 0] 0 1000) := by
  decide +kernel

/-- Request 2 is answered when its method goes on. -/
def answeredLater : List (ReplyOp Lookup) := asideFromElsewhere ++ [.eapPendingCb 0 plenty]

theorem run_duplicate_iff_later :
    (lookupRun answeredLater).isSome ∧ ∀ s ∈ lookupRun answeredLater,
      ∃ a ∈ (s.history 0).answer,
        RepliesAgain lookupMachine (fun _ _ => zero16) (fun _ => zero16) s 0 a
          (arrives 2 [24, 6, 0, 0, 0, 0] 1 1001) := by
  refine ⟨by decide +kernel, fun s hs => ?_⟩
  have hagain : ∀ s ∈ lookupRun answeredLater, ∃ a ∈ (s.history 0).answer,
      SentAgain (fun _ _ => zero16) s 0 a (arrives 2 [24, 6, 0, 0, 0, 0] 1 1001) ∧
        (s.history 0).arrival = a.port := by
    decide +kernel
  obtain ⟨a, ha, hop, harrival⟩ := hagain s hs
  exact ⟨a, ha, (run_duplicate_iff _ _ _ _ _ _ hs hop).mpr harrival⟩

end Hostapd.Radius.Server
