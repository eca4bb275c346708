import Hostapd.Ap.Ieee80211Auth
import Hostapd.Radius.ClientPending

/-!
# Access control: whose answer it is

Every acceptance in the cache should come from the server's answer to a question about that very
station (`Promise`). The handler takes the first query with the identifier of the response, and
verifies the response against the request that the client matched with it: these belong together
as long as no other Access-Request gets the identifier of a query that is still waiting.

* **`Inv`**: the pending authentication request with the identifier of a waiting query was
  generated for the station of the first such query.
* **`run_provenance`**: the promise holds in every run in which identifiers of waiting queries are
  not reused for other Access-Requests (`FreshIdent`); an authentic acceptance that is matched
  with a request for something else breaks it.
-/

namespace Hostapd.Ap.Acl

open Hostapd.Lib Hostapd.Radius Hostapd.Radius.Client

/-! ## Queries by identifier -/

/-- The query that a response with an identifier answers. -/
def queryFor (queries : List AclQuery) (id : UInt8) : Option AclQuery :=
  queries.find? fun query => query.radiusId = id

theorem queryFor_filter {p : AclQuery → Bool} {queries : List AclQuery} {id : UInt8} {q : AclQuery}
    (horder : queries.Pairwise fun q q' => q.radiusId = q'.radiusId → p q = false → p q' = false)
    (h : queryFor (queries.filter p) id = some q) : queryFor queries id = some q := by
  induction queries with
  | nil => exact h
  | cons a l ih =>
    obtain ⟨ha, hl⟩ := List.pairwise_cons.mp horder
    by_cases hid : a.radiusId = id
    · by_cases hp : p a = true
      · simpa [queryFor, List.filter_cons, hp, List.find?_cons, hid] using h
      · have hpa : p a = false := Bool.not_eq_true _ ▸ hp
        rw [queryFor, List.filter_cons, if_neg hp] at h
        have hmem := List.mem_filter.mp (List.mem_of_find?_eq_some h)
        have hq : q.radiusId = id := by simpa using List.find?_some h
        rw [ha q hmem.1 (hid.trans hq.symm) hpa] at hmem
        exact absurd hmem.2 (by decide)
    · have hrest : queryFor (l.filter p) id = some q := by
        by_cases hp : p a = true
        · simpa [queryFor, List.filter_cons, hp, List.find?_cons, hid] using h
        · simpa [queryFor, List.filter_cons, hp] using h
      simpa [queryFor, List.find?_cons, hid] using ih hl hrest

theorem queryFor_eraseP {queries : List AclQuery} {id id' : UInt8} (hne : id ≠ id') :
    queryFor (queries.eraseP fun query => query.radiusId = id') id = queryFor queries id := by
  induction queries with
  | nil => rfl
  | cons a l ih =>
    by_cases hid : a.radiusId = id'
    · have hne' : ¬ id' = id := fun h => hne h.symm
      simp [queryFor, hid, hne']
    · rw [List.eraseP_cons_of_neg (by simpa using hid)]
      by_cases hid' : a.radiusId = id
      · simp [queryFor, hid']
      · simpa [queryFor, List.find?_cons, hid'] using ih

/-! ## Requests -/

section Requests

variable {hmacMd5 : Bytes → Bytes → Digest} {md5Vector : List Bytes → Digest}

theorem addAttrs_keeps {l : List Record} {msg m : RadiusMsg} (h : addAttrs msg l = some m)
    (hlen : hdrLen ≤ msg.buf.length) : identifier m = identifier msg ∧ hdrLen ≤ m.buf.length := by
  induction l generalizing msg with
  | nil =>
    cases h
    exact ⟨rfl, hlen⟩
  | cons attr l ih =>
    obtain ⟨msg', hattr, hrest⟩ := Option.bind_eq_some_iff.mp h
    have hbuf := addAttr_buf hattr
    have hlonger : hdrLen ≤ msg'.buf.length := by
      rw [hbuf, List.length_append]
      omega
    obtain ⟨hid, hfinal⟩ := ih hrest hlonger
    refine ⟨hid.trans ?_, hfinal⟩
    simp only [hdrLen] at hlen
    simp only [identifier, hbuf, List.getD_eq_getElem?_getD]
    rw [List.getElem?_append_left (by omega)]

theorem newRequest_keeps (code id : UInt8) (reqAuth : Digest) :
    identifier (newRequest code id reqAuth) = id ∧
      hdrLen ≤ (newRequest code id reqAuth).buf.length := by
  have hlen : (new code id).buf.length = hdrLen := by simp [new, hdrLen]
  constructor
  · rw [newRequest, identifier_write (by omega) (by rw [hlen]; decide)]
    rfl
  · rw [newRequest, length_write (by rw [Vector.length_toList, hlen]; decide), hlen]

theorem listAdd_sublist (s : RadiusClientData) (msg : RadiusMsg) (msgType : RadiusType)
    (sharedSecret : Bytes) (addr : Option MacAddr) (w : SendWorld) :
    ∃ entry : RadiusMsgList, entry.msg = msg ∧ entry.msgType = msgType ∧
      (listAdd s msg msgType sharedSecret addr w).msgs.Sublist (entry :: s.msgs) := by
  refine ⟨⟨addr.getD 0, msg, msgType, w.now, w.now + firstWait, 1, firstWait * 2, sharedSecret⟩,
    rfl, rfl, ?_⟩
  unfold listAdd
  split
  · exact List.sublist_cons_self _ _
  · simp only [updateTimeout]
    split
    · split
      · exact List.dropLast_sublist _
      · exact List.Sublist.refl _
    · exact List.Sublist.refl _

/-- What `send` does to the list: moves, and then at most one new request, the finished message. -/
theorem send_adds (s : RadiusClientData) {msg : RadiusMsg} (msgType : RadiusType)
    (addr : Option MacAddr) (w : SendWorld) (hlen : hdrLen ≤ msg.buf.length) :
    ∃ t entry, Moves md5Vector { s with issued := s.issued.filter (· ≠ identifier msg) } t ∧
      entry.msgType = msgType ∧ identifier entry.msg = identifier msg ∧
      hdrLen ≤ entry.msg.buf.length ∧
      (msgType = .auth → ∀ server, s.auth.current = some server →
        entry.msg = (finish hmacMd5 msg server.sharedSecret).2) ∧
      (msgType = .auth → s.auth.current = none →
        (send hmacMd5 md5Vector s msg msgType addr w).2.msgs = t.msgs) ∧
      (send hmacMd5 md5Vector s msg msgType addr w).2.msgs.Sublist (entry :: t.msgs) := by
  unfold send
  simp only
  have hdel : ∀ t : RadiusClientData, Moves md5Vector t
      (if msgType = .acctInterim then listDel t msgType addr else t) := by
    intro t
    split
    · exact listDel_moves md5Vector t msgType addr
    · exact .refl
  have hauth : ∀ t : RadiusClientData, msgType = .auth →
      (if msgType = .acctInterim then listDel t msgType addr else t) = t := by
    rintro t rfl
    rfl
  generalize hs : RadiusClientData.mk s.auth s.acct s.msgs s.numMsgs s.nextRadiusIdentifier
    s.timers (s.issued.filter (· ≠ identifier msg)) s.evicted s.acctChanges = s₀
  have hservice : s₀.auth = s.auth := by rw [← hs]
  split
  next hnone =>
    refine ⟨_, ⟨0, msg, msgType, 0, 0, 0, 0, []⟩, hdel s₀, rfl, rfl, hlen, ?_, fun _ _ => rfl,
      List.sublist_cons_self _ _⟩
    rintro hmsgType server hserver
    rw [hauth s₀ hmsgType, hmsgType] at hnone
    change s₀.auth.current = none at hnone
    rw [hservice, hserver] at hnone
    cases hnone
  next server hserver =>
    have hsent := (hdel s₀).trans (handleSendError_moves md5Vector _ msgType w.now w.sent)
    obtain ⟨entry, hmsg, htype, hsub⟩ := listAdd_sublist
      (handleSendError md5Vector (if msgType = .acctInterim then listDel s₀ msgType addr else s₀)
        msgType w.now w.sent)
      (if msgType.isAcct then finishAcct md5Vector msg server.sharedSecret
        else (finish hmacMd5 msg server.sharedSecret).2) msgType server.sharedSecret addr w
    have hkeeps : identifier entry.msg = identifier msg ∧ hdrLen ≤ entry.msg.buf.length := by
      rw [hmsg]
      split
      · obtain ⟨hid, hsame⟩ := finishAcct_keeps md5Vector server.sharedSecret hlen
        exact ⟨hid, hsame ▸ hlen⟩
      · exact finish_keeps hmacMd5 server.sharedSecret hlen
    have hsome : msgType = .auth → s.auth.current = some server := by
      intro hmsgType
      rw [hauth s₀ hmsgType, hmsgType] at hserver
      rw [← hservice]
      exact hserver
    refine ⟨_, entry, hsent, htype, hkeeps.1, hkeeps.2, ?_, ?_, ?_⟩
    · rintro hmsgType server' hserver'
      obtain rfl : server = server' := Option.some.inj ((hsome hmsgType).symm.trans hserver')
      rw [hmsg, hmsgType]
      rfl
    · intro hmsgType hnone
      rw [hsome hmsgType] at hnone
      cases hnone
    · split
      · exact hsub
      · exact hsub

end Requests

/-! ## The invariant -/

section Provenance

variable (hmacMd5 : Bytes → Bytes → Digest) (md5Vector : List Bytes → Digest)

/-- An acceptance is earned: the message accepts, and it verifies against a request that was
generated for the station. -/
structure Earned (generated : List (MacAddr × RadiusMsg)) (a : Acceptance) : Prop where
  code : code a.msg = codeAccessAccept
  verified : verify hmacMd5 md5Vector a.msg a.sharedSecret (some a.req) false = 0
  generated : (a.addr, a.req) ∈ generated

def CachedAcl.accepts (entry : CachedAcl) : Bool :=
  entry.accepted = .accept || entry.accepted = .acceptTimeout

structure Answers (s : Bss) : Prop where
  cached : ∀ entry ∈ s.aclCache, entry.accepts = true →
    ∃ a ∈ s.acceptances, a.addr = entry.addr
  earned : ∀ a ∈ s.acceptances, Earned hmacMd5 md5Vector s.generated a

/-- The invariant: the pending authentication request with the identifier of a waiting query was
generated for the station of the first such query. -/
structure Inv (s : Bss) : Prop extends Answers hmacMd5 md5Vector s where
  headed : Headed s.client.msgs
  distinct : (idents s.client.msgs).Nodup
  linked : ∀ e ∈ s.client.msgs, e.msgType = .auth →
    ∀ q, queryFor s.aclQueries (identifier e.msg) = some q → (q.addr, e.msg) ∈ s.generated

variable {hmacMd5 md5Vector} {s : Bss}

theorem Inv.thin (h : Inv hmacMd5 md5Vector s) {c : RadiusClientData}
    (hids : (idents c.msgs).Sublist (idents s.client.msgs)) (hheaded : Headed c.msgs)
    (hauth : ∀ e ∈ c.msgs, e.msgType = .auth →
      ∃ b ∈ s.client.msgs, b.msgType = .auth ∧ b.msg = e.msg) :
    Inv hmacMd5 md5Vector { s with client := c } := by
  refine ⟨⟨h.cached, h.earned⟩, hheaded, h.distinct.sublist hids, fun e he htype q hq => ?_⟩
  obtain ⟨b, hb, hbtype, hbmsg⟩ := hauth e he htype
  rw [← hbmsg] at hq ⊢
  exact h.linked b hb hbtype q hq

theorem Inv.moves (h : Inv hmacMd5 md5Vector s) {c : RadiusClientData}
    (hm : Moves md5Vector s.client c) : Inv hmacMd5 md5Vector { s with client := c } := by
  obtain ⟨hids, hheaded⟩ := (Moves.revised hm).idents_sublist h.headed
  refine h.thin hids hheaded fun e he htype => ?_
  obtain ⟨b, hb, hrevises⟩ := (Moves.revised hm).exists_of_mem he
  exact ⟨b, hb, hrevises.msgType.symm.trans htype, (hrevises.msg (by rw [htype]; decide)).symm⟩

theorem Inv.getId (h : Inv hmacMd5 md5Vector s) :
    Inv hmacMd5 md5Vector { s with client := (getId s.client).2 } ∧
      s.client.nextRadiusIdentifier ∉ idents (getId s.client).2.msgs := by
  refine ⟨h.thin (List.filter_sublist.map _) (fun e he => h.headed e (List.mem_of_mem_filter he))
    fun e he htype => ⟨e, List.mem_of_mem_filter he, htype, rfl⟩, ?_⟩
  intro hmem
  obtain ⟨e, he, hid⟩ := List.mem_map.mp hmem
  have := (List.mem_filter.mp he).2
  simp [hid] at this

variable {msg : RadiusMsg}

/-- A request with an identifier that is not pending is sent. If it is for authentication and
queries wait with its identifier, it was generated for the first of them. -/
theorem Inv.send (h : Inv hmacMd5 md5Vector s) (msgType : RadiusType)
    (addr : Option MacAddr) (w : SendWorld) (hlen : hdrLen ≤ msg.buf.length)
    (hnew : identifier msg ∉ idents s.client.msgs)
    (hown : msgType = .auth → ∀ server, s.client.auth.current = some server →
      ∀ q, queryFor s.aclQueries (identifier msg) = some q →
        (q.addr, (finish hmacMd5 msg server.sharedSecret).2) ∈ s.generated) :
    Inv hmacMd5 md5Vector
      { s with client := (send hmacMd5 md5Vector s.client msg msgType addr w).2 } := by
  obtain ⟨t, entry, hm, htype, hid, hentry, hfinish, hnoServer, hsub⟩ :=
    @send_adds hmacMd5 md5Vector s.client _ msgType addr w hlen
  have htaken : Inv hmacMd5 md5Vector { s with client := { s.client with
      issued := s.client.issued.filter (· ≠ identifier msg) } } :=
    h.thin (List.Sublist.refl _) h.headed fun e he htype => ⟨e, he, htype, rfl⟩
  have ht : Inv hmacMd5 md5Vector { s with client := t } := htaken.moves hm
  have hids : (idents t.msgs).Sublist (idents s.client.msgs) :=
    ((Moves.revised hm).idents_sublist h.headed).1
  have hnodup : (idents (entry :: t.msgs)).Nodup := by
    rw [idents, List.map_cons, hid]
    exact List.nodup_cons.mpr ⟨fun hmem => hnew (hids.subset hmem), ht.distinct⟩
  refine ⟨⟨h.cached, h.earned⟩, fun e he => ?_, hnodup.sublist (hsub.map _), fun e he hauth q hq => ?_⟩
  · rcases List.mem_cons.mp (hsub.subset he) with rfl | he'
    · exact hentry
    · exact ht.headed e he'
  · rcases List.mem_cons.mp (hsub.subset he) with rfl | he'
    · have hmsgType := htype.symm.trans hauth
      cases hserver : s.client.auth.current with
      | none =>
        rw [hnoServer hmsgType hserver] at he
        exact ht.linked e he hauth q hq
      | some server =>
        rw [hid] at hq
        rw [hfinish hmsgType server hserver]
        exact hown hmsgType server hserver q hq
    · exact ht.linked e he' hauth q hq

theorem Inv.addQuery (h : Inv hmacMd5 md5Vector s) (query : AclQuery)
    (hnew : query.radiusId ∉ idents s.client.msgs) :
    Inv hmacMd5 md5Vector { s with aclQueries := query :: s.aclQueries } := by
  refine ⟨⟨h.cached, h.earned⟩, h.headed, h.distinct, fun e he htype q hq => ?_⟩
  have hne : ¬ query.radiusId = identifier e.msg := fun heq =>
    hnew (List.mem_map.mpr ⟨e, he, heq.symm⟩)
  refine h.linked e he htype q ?_
  simpa [queryFor, List.find?_cons, hne] using hq

theorem Inv.record (h : Inv hmacMd5 md5Vector s) (r : MacAddr × RadiusMsg) :
    Inv hmacMd5 md5Vector { s with generated := s.generated ++ [r] } := by
  refine ⟨⟨h.cached, fun a ha => ?_⟩, h.headed, h.distinct, fun e he htype q hq => ?_⟩
  · obtain ⟨hcode, hverified, hgenerated⟩ := h.earned a ha
    exact ⟨hcode, hverified, List.mem_append_left _ hgenerated⟩
  · exact List.mem_append_left _ (h.linked e he htype q hq)

/-! ## The operations -/

/-- `hostapd_allowed_address` comes to ask the server about the station. -/
def Asks (conf : AclConf) (s : Bss) (addr : MacAddr) (w : QueryWorld) : Prop :=
  maclistFound conf.acceptMac addr = none ∧ maclistFound conf.denyMac addr = none ∧
    conf.macaddrAcl = .useExternalRadiusAuth ∧ aclCacheGet s addr w.now = none ∧
    (s.aclQueries.any fun query => query.addr = addr) = false

/-- A query waits whose identifier is the next one that is issued. -/
def NextIsHeld (s : Bss) : Prop := (queryFor s.aclQueries s.client.nextRadiusIdentifier).isSome

theorem aclRequest_keeps {conf : AclConf} {addr : MacAddr} {id : UInt8} {reqAuth : Digest}
    {sharedSecret : Bytes}
    (h : aclRequest md5Vector conf addr id reqAuth sharedSecret = some msg) :
    identifier msg = id ∧ hdrLen ≤ msg.buf.length := by
  obtain ⟨password, -, hattrs⟩ := Option.bind_eq_some_iff.mp h
  obtain ⟨hid, hlen⟩ := newRequest_keeps codeAccessRequest id reqAuth
  obtain ⟨hid', hlen'⟩ := addAttrs_keeps hattrs hlen
  exact ⟨hid'.trans hid, hlen'⟩

theorem Inv.askServer (h : Inv hmacMd5 md5Vector s) (conf : AclConf) (addr : MacAddr)
    (authMsg : Bytes) (w : QueryWorld)
    (hfresh : (s.aclQueries.any fun query => query.addr = addr) = false →
      w.memAuthMsg = true ∨ ¬ NextIsHeld s) :
    Inv hmacMd5 md5Vector (askServer hmacMd5 md5Vector conf s addr authMsg w).2 := by
  obtain ⟨hissued, hnew⟩ := h.getId
  unfold Acl.askServer
  split
  · exact h
  next hwaiting =>
    split
    · exact h
    next server hserver =>
      split
      · unfold radiusAclQuery
        simp only
        cases hbuilt : (if w.memMsg then aclRequest md5Vector conf addr
            (Client.getId s.client).1 w.reqAuth server.sharedSecret else none) with
        | none => exact hissued
        | some msg =>
          have hrequest : aclRequest md5Vector conf addr s.client.nextRadiusIdentifier w.reqAuth
              server.sharedSecret = some msg := by
            split at hbuilt
            · exact hbuilt
            · cases hbuilt
          obtain ⟨hid, hlen⟩ := aclRequest_keeps hrequest
          rw [← hid] at hnew
          have hmem : (addr, (finish hmacMd5 msg server.sharedSecret).2) ∈
              s.generated ++ [(addr, (finish hmacMd5 msg server.sharedSecret).2)] :=
            List.mem_append_right _ (List.mem_singleton_self _)
          simp only
          split
          · have hstored := (hissued.addQuery ⟨w.now, s.client.nextRadiusIdentifier, addr, authMsg⟩
              (by rw [← hid]; exact hnew)).record
                (addr, (finish hmacMd5 msg server.sharedSecret).2)
            refine hstored.send .auth (some addr) w.send hlen hnew fun _ server' hserver' q hq => ?_
            obtain rfl : server = server' := Option.some.inj (hserver.symm.trans hserver')
            rw [hid] at hq
            simp only [queryFor, List.find?_cons, decide_true, Option.some.injEq] at hq
            rw [← hq]
            exact hmem
          next hlost =>
            have hstored := hissued.record (addr, (finish hmacMd5 msg server.sharedSecret).2)
            refine hstored.send .auth (some addr) w.send hlen hnew fun _ _ _ q hq => ?_
            have hfree := (hfresh (by simpa using hwaiting)).resolve_left hlost
            rw [hid] at hq
            exact absurd (Option.isSome_of_eq_some hq) hfree
      · exact h

theorem Inv.allowedAddress (h : Inv hmacMd5 md5Vector s) (conf : AclConf) (addr : MacAddr)
    (authMsg : Bytes) (w : QueryWorld)
    (hfresh : Asks conf s addr w → w.memAuthMsg = true ∨ ¬ NextIsHeld s) :
    Inv hmacMd5 md5Vector (allowedAddress hmacMd5 md5Vector conf s addr authMsg w).2 := by
  unfold Acl.allowedAddress
  split
  · exact h
  next haccept =>
    split
    · exact h
    next hdeny =>
      split
      · exact h
      · exact h
      next hmode =>
        split
        · exact h
        next hcache =>
          exact h.askServer conf addr authMsg w fun hwaiting =>
            hfresh ⟨haccept, hdeny, hmode, hcache, hwaiting⟩

/-- A request of the 802.1X machine comes to be sent with the next identifier. -/
def SendsEap (s : Bss) (reqAuth : Digest) (attrs : List Record) : Prop :=
  (addAttrs (newRequest codeAccessRequest s.client.nextRadiusIdentifier reqAuth) attrs).isSome ∧
    s.client.auth.current.isSome

theorem Inv.eapRequest (h : Inv hmacMd5 md5Vector s) (addr : MacAddr) (reqAuth : Digest)
    (attrs : List Record) (w : SendWorld)
    (hfresh : SendsEap s reqAuth attrs → w.sent = .ok ∧ ¬ NextIsHeld s) :
    ∃ s', eapRequest hmacMd5 md5Vector s addr reqAuth attrs w = some s' ∧
      Inv hmacMd5 md5Vector s' := by
  obtain ⟨hissued, hnew⟩ := h.getId
  unfold Acl.eapRequest
  simp only
  cases hbuilt : addAttrs (newRequest codeAccessRequest (Client.getId s.client).1 reqAuth) attrs with
  | none => exact ⟨_, rfl, hissued⟩
  | some msg =>
    obtain ⟨hid, hlen⟩ := newRequest_keeps codeAccessRequest (Client.getId s.client).1 reqAuth
    obtain ⟨hid', hlen'⟩ := addAttrs_keeps hbuilt hlen
    have hmsg : identifier msg = s.client.nextRadiusIdentifier := hid'.trans hid
    rw [← hmsg] at hnew
    have hsends : s.client.auth.current.isSome → w.sent = .ok ∧ ¬ NextIsHeld s := fun hserver =>
      hfresh ⟨Option.isSome_of_eq_some hbuilt, hserver⟩
    simp only
    split
    next hbad => exact absurd (hsends hbad.1).1 hbad.2
    · refine ⟨_, rfl, hissued.send .auth (some addr) w hlen' hnew fun _ server hserver q hq => ?_⟩
      have hfree := (hsends (Option.isSome_of_eq_some hserver)).2
      rw [hmsg] at hq
      exact absurd (Option.isSome_of_eq_some hq) hfree

theorem Inv.acctRequest (h : Inv hmacMd5 md5Vector s) {msgType : RadiusType}
    (htype : msgType ≠ .auth) (addr : Option MacAddr) (reqAuth : Digest) (attrs : List Record)
    (w : SendWorld) :
    Inv hmacMd5 md5Vector (acctRequest hmacMd5 md5Vector s msgType addr reqAuth attrs w) := by
  obtain ⟨hissued, hnew⟩ := h.getId
  unfold Acl.acctRequest
  simp only
  cases hbuilt : addAttrs (newRequest codeAccountingRequest (Client.getId s.client).1 reqAuth)
      attrs with
  | none => exact hissued
  | some msg =>
    obtain ⟨hid, hlen⟩ :=
      newRequest_keeps codeAccountingRequest (Client.getId s.client).1 reqAuth
    obtain ⟨hid', hlen'⟩ := addAttrs_keeps hbuilt hlen
    have hmsg : identifier msg = s.client.nextRadiusIdentifier := hid'.trans hid
    rw [← hmsg] at hnew
    exact hissued.send msgType addr w hlen' hnew fun hauth => absurd hauth htype

/-- No query is removed for its age in front of an older one with the same identifier that stays. -/
def InOrder (s : Bss) (now : ℤ) : Prop :=
  s.aclQueries.Pairwise fun q q' => q.radiusId = q'.radiusId →
    expired now q.timestamp = true → expired now q'.timestamp = true

theorem Inv.expire (h : Inv hmacMd5 md5Vector s) (now : ℤ) (horder : InOrder s now) :
    Inv hmacMd5 md5Vector (expire s now) := by
  refine ⟨⟨fun entry he => h.cached entry (List.mem_of_mem_filter he), h.earned⟩, h.headed,
    h.distinct, fun e he htype q hq => ?_⟩
  refine h.linked e he htype q (queryFor_filter (horder.imp ?_) hq)
  intro a b hab hid hexpired
  simpa using hab hid (by simpa using hexpired)

theorem cacheEntry_addr (msg : RadiusMsg) (addr : MacAddr) (now : ℤ) :
    (cacheEntry msg addr now).addr = addr := by
  unfold cacheEntry
  split <;> rfl

theorem code_of_accepts {addr : MacAddr} {now : ℤ}
    (h : (cacheEntry msg addr now).accepts = true) : code msg = codeAccessAccept := by
  by_contra hcode
  rw [cacheEntry, if_neg hcode] at h
  cases h

/-- A response that is matched with a request: the request leaves the list, and if a query waits
with the identifier, the request was generated for its station. -/
theorem Inv.recvRadius (h : Inv hmacMd5 md5Vector s) {req : RadiusMsgList}
    (sharedSecret : Bytes) (w : RecvWorld) (hgone : identifier msg ∉ idents s.client.msgs)
    (hown : ∀ q, queryFor s.aclQueries (identifier msg) = some q →
      (q.addr, req.msg) ∈ s.generated) :
    Inv hmacMd5 md5Vector (recvRadius hmacMd5 md5Vector s msg req.msg sharedSecret w).2 := by
  unfold Acl.recvRadius
  split
  · exact h
  next query hquery =>
    split
    · exact h
    next hverify =>
      split
      · exact h
      next hcode =>
        have hlinked : ∀ e ∈ s.client.msgs, e.msgType = .auth → ∀ q,
            queryFor (s.aclQueries.eraseP fun query => query.radiusId = identifier msg)
              (identifier e.msg) = some q → (q.addr, e.msg) ∈ s.generated := by
          intro e he htype q hq
          have hne : identifier e.msg ≠ identifier msg := fun heq =>
            hgone (List.mem_map.mpr ⟨e, he, heq⟩)
          rw [queryFor_eraseP hne] at hq
          exact h.linked e he htype q hq
        simp only
        split
        · refine ⟨⟨fun entry he haccepts => ?_, fun a ha => ?_⟩, h.headed, h.distinct, hlinked⟩
          · rcases List.mem_cons.mp he with rfl | he'
            · rw [if_pos (code_of_accepts haccepts)]
              exact ⟨_, List.mem_append_right _ (List.mem_singleton_self _),
                (cacheEntry_addr _ _ _).symm⟩
            · obtain ⟨a, ha, haddr⟩ := h.cached entry he' haccepts
              refine ⟨a, ?_, haddr⟩
              split
              · exact List.mem_append_left _ ha
              · exact ha
          · split at ha
            next haccept =>
              rcases List.mem_append.mp ha with ha' | ha'
              · exact h.earned a ha'
              · rw [List.mem_singleton.mp ha']
                exact ⟨haccept, Decidable.not_not.mp hverify, hown query hquery⟩
            · exact h.earned a ha
        · exact ⟨⟨h.cached, h.earned⟩, h.headed, h.distinct, hlinked⟩

theorem Inv.recvAuth (h : Inv hmacMd5 md5Vector s) (buf : Bytes) (w : RecvWorld) :
    Inv hmacMd5 md5Vector (recvAuth hmacMd5 md5Vector s buf w) := by
  have hunlinked := h.moves (receive_moves md5Vector s.client .auth buf)
  unfold Acl.recvAuth
  simp only
  split
  · exact hunlinked
  next hshort =>
    split
    · exact hunlinked
    next msg hmsg =>
      split
      · exact hunlinked
      next req hreq =>
        have hans := List.find?_some hreq
        simp only [RadiusMsgList.answeredBy, reduceCtorEq, decide_false, Bool.and_false,
          Bool.or_false, Bool.and_eq_true, decide_eq_true_eq] at hans
        have hmem := List.mem_of_find?_eq_some hreq
        refine hunlinked.recvRadius req.sharedSecret w ?_ fun q hq => ?_
        · have hmsgs : (receive s.client .auth buf).2.msgs =
              s.client.msgs.eraseP (RadiusMsgList.answeredBy .auth (identifier msg)) := by
            simp only [receive, if_neg hshort, hmsg, hreq]
          obtain ⟨hfirst, l₁, l₂, hsplit, hbefore⟩ := List.find?_eq_some_iff_append.mp hreq
          have herase : s.client.msgs.eraseP
              (RadiusMsgList.answeredBy .auth (identifier msg)) = l₁ ++ l₂ := by
            rw [hsplit, List.eraseP_append_right _ fun b hb => by simpa using hbefore b hb]
            simp [hfirst]
          have hnodup := h.distinct
          rw [hsplit, idents, List.map_append, List.map_cons, List.nodup_middle,
            List.nodup_cons, ← List.map_append, hans.2] at hnodup
          simp only [hmsgs, herase]
          exact hnodup.1
        · rw [← hans.2] at hq
          exact h.linked req hmem hans.1 q hq

/-! ## Runs -/

/-- No Access-Request gets the identifier of a waiting query, except that of a new query, which is
stored in front of it; the identifiers of waiting queries are given back oldest first; and no
memory is used that was freed: an EAP request is sent without an error, and no authentication
request is freed while it is sent again. -/
def FreshIdent (conf : AclConf) : Option Bss → Op → Prop
  | some s, .allowedAddress addr _ w => Asks conf s addr w → w.memAuthMsg = true ∨ ¬ NextIsHeld s
  | some s, .eapRequest _ reqAuth attrs w =>
    SendsEap s reqAuth attrs → w.sent = .ok ∧ ¬ NextIsHeld s
  | some s, .expire now => InOrder s now
  | some s, .client ⟨.timer w, _⟩ => freesInUse w.now w.sent s.client.msgs = false
  | _, _ => True

/-- What the access control promises: its memory is in order, every entry that lets a station in
comes from an acceptance for it, and every acceptance is earned. -/
def Promise (hmacMd5 : Bytes → Bytes → Digest) (md5Vector : List Bytes → Digest) :
    Option Bss → Prop
  | some s => Answers hmacMd5 md5Vector s
  | none => False

theorem Inv.exec (h : Inv hmacMd5 md5Vector s) {conf : AclConf} {op : Op}
    (hfresh : FreshIdent conf (some s) op) :
    ∃ s', exec hmacMd5 md5Vector conf s op = some s' ∧ Inv hmacMd5 md5Vector s' := by
  cases op with
  | allowedAddress addr authMsg w => exact ⟨_, rfl, h.allowedAddress conf addr authMsg w hfresh⟩
  | eapRequest addr reqAuth attrs w => exact h.eapRequest addr reqAuth attrs w hfresh
  | acctRequest interim addr reqAuth attrs w =>
    refine ⟨_, rfl, h.acctRequest ?_ addr reqAuth attrs w⟩
    cases interim <;> decide
  | recvAuth buf w => exact ⟨_, rfl, h.recvAuth buf w⟩
  | expire now => exact ⟨_, rfl, h.expire now hfresh⟩
  | client op =>
    obtain ⟨op, hquiet⟩ := op
    by_cases hgetId : op = .getId
    · subst hgetId
      exact ⟨_, rfl, h.getId.1⟩
    obtain ⟨c, hc⟩ : ∃ c, Client.exec hmacMd5 md5Vector s.client op = some c := by
      cases op with
      | timer w =>
        refine Option.ne_none_iff_exists'.mp fun hnone => ?_
        have hfrees := (timer_eq_none_iff md5Vector).mp hnone
        rw [show freesInUse w.now w.sent s.client.msgs = false from hfresh] at hfrees
        cases hfrees
      | _ => exact ⟨_, rfl⟩
    refine ⟨{ s with client := c }, ?_, h.moves (exec_moves md5Vector hmacMd5 hgetId ?_ hc)⟩
    · simp only [Acl.exec, hc]
      rfl
    · rintro msg msgType addr w rfl
      cases hquiet

theorem init_inv (auth acct : Service) : Inv hmacMd5 md5Vector (init auth acct) := by
  constructor
  case toAnswers => constructor <;> simp [init]
  case headed => simp [init, Client.init, Headed]
  case distinct => exact List.nodup_nil
  case linked => simp [init, Client.init]

/-- An authentic acceptance that the client has matched with a request which was not generated for
the station of the query breaks the promise. -/
theorem recvAuth_breaks {buf : Bytes} {w : RecvWorld} {req : RadiusMsgList}
    {query : AclQuery} (hshort : buf.length < recvBufLen) (hparse : parse buf = some msg)
    (hreq : s.client.msgs.find? (RadiusMsgList.answeredBy .auth (identifier msg)) = some req)
    (hquery : queryFor s.aclQueries (identifier msg) = some query)
    (hcode : code msg = codeAccessAccept)
    (hverify : verify hmacMd5 md5Vector msg req.sharedSecret (some req.msg) false = 0)
    (hmem : w.mem = true) (hother : (query.addr, req.msg) ∉ s.generated) :
    ¬ Promise hmacMd5 md5Vector (some (recvAuth hmacMd5 md5Vector s buf w)) := by
  have hquery' : s.aclQueries.find? (fun query => query.radiusId = identifier msg) = some query :=
    hquery
  have hrecv : (recvAuth hmacMd5 md5Vector s buf w).acceptances =
        s.acceptances ++ [⟨query.addr, msg, req.msg, req.sharedSecret⟩] ∧
      (recvAuth hmacMd5 md5Vector s buf w).generated = s.generated := by
    constructor <;>
      simp [Acl.recvAuth, if_neg (Nat.not_le_of_lt hshort), hparse, hreq, Acl.recvRadius,
        hquery', hverify, hcode, hmem]
  intro hpromise
  have hearned := hpromise.earned ⟨query.addr, msg, req.msg, req.sharedSecret⟩ (by
    rw [hrecv.1]
    exact List.mem_append_right _ (List.mem_singleton_self _))
  rw [hrecv.2] at hearned
  exact hother hearned.generated

end Provenance

/-- Source: `ieee802_11_auth.c`. In every run whose operations all meet the condition, with any
interleaving of queries, EAP and accounting messages, responses, retransmissions and expiry, the
promise holds; and in any state, an authentic acceptance that is matched with a request for
something else than the query with its identifier breaks it. -/
theorem run_provenance (hmacMd5 : Bytes → Bytes → Digest) (md5Vector : List Bytes → Digest)
    (conf : AclConf) (auth acct : Service) (ops : List Op) :
    (Along (step hmacMd5 md5Vector conf) (FreshIdent conf) (some (init auth acct)) ops →
      Promise hmacMd5 md5Vector
        (run (step hmacMd5 md5Vector conf) (some (init auth acct)) ops)) ∧
    ∀ (s : Bss) (buf : Bytes) (w : RecvWorld) (msg : RadiusMsg) (req : RadiusMsgList)
      (query : AclQuery), buf.length < recvBufLen → parse buf = some msg →
      s.client.msgs.find? (RadiusMsgList.answeredBy .auth (identifier msg)) = some req →
      queryFor s.aclQueries (identifier msg) = some query → code msg = codeAccessAccept →
      verify hmacMd5 md5Vector msg req.sharedSecret (some req.msg) false = 0 → w.mem = true →
      (query.addr, req.msg) ∉ s.generated →
      ¬ Promise hmacMd5 md5Vector (some (recvAuth hmacMd5 md5Vector s buf w)) := by
  refine ⟨fun hfresh => ?_, fun s buf w msg req query => recvAuth_breaks⟩
  have hinv := Along.run_inv (I := fun s => ∃ t, s = some t ∧ Inv hmacMd5 md5Vector t)
    (fun s op hs hop => ?_) ⟨_, rfl, init_inv auth acct⟩ hfresh
  · obtain ⟨t, ht, hinv⟩ := hinv
    rw [ht]
    exact hinv.toAnswers
  · obtain ⟨t, rfl, ht⟩ := hs
    exact ht.exec hop

/-! ## An answer for another station -/

def externalOnly : AclConf where
  macaddrAcl := .useExternalRadiusAuth
  acceptMac := []
  denyMac := []
  ownIpAddr := none
  ownIpv6Addr := none
  nasIdentifier := none
  ownAddr := 9
  ssid := [97]

/-- A datagram that is sent, and memory for everything. -/
def undisturbed : SendWorld := ⟨0, false, true, .ok⟩

def askOne : Op := .allowedAddress 1 [] ⟨0, zeroDigest, true, true, true, undisturbed⟩

/-- The Access-Accept with identifier 0 and an authenticator of zeroes. -/
def acceptZero : Bytes := [2, 0, 0, 20] ++ List.replicate 16 0

/-- The question about station 1 is lost, its identifier goes round, and the EAP request of station
2 that gets it is answered. -/
def lostQuestion : List Op :=
  [askOne] ++ List.replicate 255 (.client ⟨.getId, rfl⟩) ++
    [.eapRequest 2 zeroDigest [] undisturbed, .recvAuth acceptZero ⟨0, true⟩]

/-- An acceptance that no request for its station earned. -/
def Stray : Option Bss → Prop
  | some s => ∃ a ∈ s.acceptances, (a.addr, a.req) ∉ s.generated
  | none => False

instance : ∀ s, Decidable (Stray s)
  | some s => inferInstanceAs (Decidable (∃ a ∈ s.acceptances, (a.addr, a.req) ∉ s.generated))
  | none => .isFalse id

theorem Stray.breaks {hmacMd5 : Bytes → Bytes → Digest} {md5Vector : List Bytes → Digest}
    {s : Option Bss} (h : Stray s) : ¬ Promise hmacMd5 md5Vector s := by
  intro hpromise
  cases s with
  | none => exact h
  | some s =>
    obtain ⟨a, ha, hother⟩ := h
    exact hother (hpromise.earned a ha).generated

set_option maxRecDepth 100000 in
theorem accepted_for_other_station :
    ¬ Promise (fun _ _ => zeroDigest) (fun _ => zeroDigest)
      (run (step (fun _ _ => zeroDigest) (fun _ => zeroDigest) externalOnly)
        (some (init oneServer oneServer)) lostQuestion) :=
  Stray.breaks (by decide +kernel)

/-- A question about station 1 waits with the identifier of a pending EAP request. -/
def reusedIdentifier : Bss :=
  { init oneServer oneServer with
    client := { Client.init oneServer oneServer with
      msgs := [⟨2, new 1 0, .auth, 0, 3, 1, 6, [1]⟩] }
    aclQueries := [⟨0, 0, 1, []⟩] }

/-- `acceptZero`, parsed. -/
def acceptMsg : RadiusMsg := ⟨acceptZero, 20, [], defaultAttrCount⟩

/-- Station 1 is asked about and accepted; and the second half at `reusedIdentifier`. -/
theorem run_provenance_accepted :
    Promise (fun _ _ => zeroDigest) (fun _ => zeroDigest)
        (run (step (fun _ _ => zeroDigest) (fun _ => zeroDigest) externalOnly)
          (some (init oneServer oneServer)) [askOne, .recvAuth acceptZero ⟨0, true⟩]) ∧
      ¬ Promise (fun _ _ => zeroDigest) (fun _ => zeroDigest)
        (some (recvAuth (fun _ _ => zeroDigest) (fun _ => zeroDigest) reusedIdentifier acceptZero
          ⟨0, true⟩)) := by
  constructor
  · exact (run_provenance _ _ _ _ _ _).1 ⟨fun _ => Or.inl rfl, trivial, trivial⟩
  · exact (run_provenance (fun _ _ => zeroDigest) (fun _ => zeroDigest) externalOnly oneServer
      oneServer []).2 reusedIdentifier acceptZero ⟨0, true⟩ acceptMsg
      ⟨2, new 1 0, .auth, 0, 3, 1, 6, [1]⟩ ⟨0, 0, 1, []⟩ (by decide) (by decide) (by decide)
      (by decide) (by decide) (by decide) rfl (by decide)

end Hostapd.Ap.Acl
