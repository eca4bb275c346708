import Hostapd.Radius.ClientMoves

/-!
# The RADIUS client: its list of pending requests

What the list promises (`Tidy`): the counter is its length, it holds at most `maxEntries` requests,
their identifiers are pairwise distinct, and a request is dropped for a new one only when it is
full. `getId` unlinks the requests with its identifier and does not count them.

* **`Held`**: the invariant; an identifier that was issued and not yet sent is not pending.
* **`run_pending_iff`**: a run keeps the promise exactly when no identifier is issued while a
  request with it is pending, and no request is freed while it is sent again.
* **`receive_unaccepted_iff`**: a message that no handler accepts leaves the list alone exactly when
  no request is matched with it.
-/

namespace Hostapd.Radius.Client

open Hostapd.Lib

def idents (msgs : List RadiusMsgList) : List UInt8 := msgs.map fun e => identifier e.msg

structure Tidy (s : RadiusClientData) : Prop where
  count : s.numMsgs = s.msgs.length
  bound : s.msgs.length ≤ maxEntries
  distinct : (idents s.msgs).Nodup
  evicted : ∀ n ∈ s.evicted, n = maxEntries

def Headed (msgs : List RadiusMsgList) : Prop := ∀ e ∈ msgs, hdrLen ≤ e.msg.buf.length

structure Held (s : RadiusClientData) : Prop extends Tidy s where
  headed : Headed s.msgs
  unsent : ∀ id ∈ idents s.msgs, id ∉ s.issued

/-! ## The moves -/

section Moves

variable {md5Vector : List Bytes → Digest} {s s' : RadiusClientData}

/-- What has become of a request that stays: it has its type, the message too unless it is for
accounting, and the header with the identifier. -/
structure Revises (e b : RadiusMsgList) : Prop where
  msgType : e.msgType = b.msgType
  msg : e.msgType ≠ .acct → e.msg = b.msg
  header : hdrLen ≤ b.msg.buf.length →
    identifier e.msg = identifier b.msg ∧ hdrLen ≤ e.msg.buf.length

instance : Std.Refl Revises := ⟨fun _ => ⟨rfl, fun _ => rfl, fun h => ⟨rfl, h⟩⟩⟩

instance : IsTrans RadiusMsgList Revises where
  trans _ b _ h h' := by
    refine ⟨h.msgType.trans h'.msgType, fun hother => ?_, fun hlen => ?_⟩
    · exact (h.msg hother).trans (h'.msg (h.msgType ▸ hother))
    · obtain ⟨hid', hlen'⟩ := h'.header hlen
      obtain ⟨hid, hlen''⟩ := h.header hlen'
      exact ⟨hid.trans hid', hlen''⟩

theorem revises_of_same {e b : RadiusMsgList} (htype : e.msgType = b.msgType)
    (hmsg : e.msg = b.msg) : Revises e b :=
  ⟨htype, fun _ => hmsg, fun hlen => ⟨by rw [hmsg], by rw [hmsg]; exact hlen⟩⟩

/-- The requests `msgs'` are what has become of some of the requests `msgs`, in their order. -/
abbrev Revised (msgs' msgs : List RadiusMsgList) : Prop := List.SublistForall₂ Revises msgs' msgs

variable {f : RadiusMsgList → RadiusMsgList}

theorem revised_map (hf : ∀ b, Revises (f b) b)
    (msgs : List RadiusMsgList) : Revised (msgs.map f) msgs := by
  induction msgs with
  | nil => exact .nil
  | cons b msgs ih => exact .cons (hf b) ih

theorem revised_modify (hf : ∀ b, Revises (f b) b)
    (msgs : List RadiusMsgList) (i : ℕ) : Revised (msgs.modify i f) msgs := by
  induction msgs generalizing i with
  | nil =>
    rw [List.modify_nil]
    exact .nil
  | cons b msgs ih =>
    cases i with
    | zero => exact .cons (hf b) (refl_of _ msgs)
    | succ i => exact .cons (refl_of _ b) (ih i)

theorem Revised.exists_of_mem {msgs' msgs : List RadiusMsgList} (h : Revised msgs' msgs)
    {e : RadiusMsgList} (he : e ∈ msgs') : ∃ b ∈ msgs, Revises e b := by
  induction h with
  | nil => exact absurd he List.not_mem_nil
  | cons hr _ ih =>
    rcases List.mem_cons.mp he with rfl | he'
    · exact ⟨_, List.mem_cons_self, hr⟩
    · obtain ⟨b, hb, hrevises⟩ := ih he'
      exact ⟨b, List.mem_cons_of_mem _ hb, hrevises⟩
  | cons_right _ ih =>
    obtain ⟨b, hb, hrevises⟩ := ih he
    exact ⟨b, List.mem_cons_of_mem _ hb, hrevises⟩

theorem Revised.idents_sublist {msgs' msgs : List RadiusMsgList} (h : Revised msgs' msgs)
    (hheaded : Headed msgs) : (idents msgs').Sublist (idents msgs) ∧ Headed msgs' := by
  refine ⟨?_, fun e he => ?_⟩
  · induction h with
    | nil => exact List.nil_sublist _
    | cons hr _ ih =>
      rw [idents, List.map_cons, (hr.header (hheaded _ List.mem_cons_self)).1]
      exact (ih fun e he => hheaded e (List.mem_cons_of_mem _ he)).cons_cons _
    | cons_right _ ih => exact (ih fun e he => hheaded e (List.mem_cons_of_mem _ he)).cons _
  · obtain ⟨b, hb, hrevises⟩ := h.exists_of_mem he
    exact (hrevises.header (hheaded b hb)).2

theorem mem_modify {msgs : List RadiusMsgList} {i : ℕ}
    {e : RadiusMsgList} (he : e ∈ msgs.modify i f) : e ∈ msgs ∨ ∃ b ∈ msgs, e = f b := by
  obtain ⟨j, hj⟩ := List.mem_iff_getElem?.mp he
  rw [List.getElem?_modify] at hj
  by_cases hij : i = j
  · obtain ⟨b, hb, rfl⟩ := Option.map_eq_some_iff.mp hj
    refine Or.inr ⟨b, List.mem_of_getElem? hb, ?_⟩
    simp [hij]
  · simp only [hij, if_false] at hj
    refine Or.inl (List.mem_of_getElem? (i := j) ?_)
    simpa using hj

theorem revised_resetRetries (s : RadiusClientData) (auth : Bool) :
    Revised (resetRetries s auth).msgs s.msgs := by
  refine revised_map (fun b => ?_) s.msgs
  split <;> exact revises_of_same rfl rfl

theorem revised_updateAcctMsgs (s : RadiusClientData) (sharedSecret : Bytes) :
    Revised (updateAcctMsgs md5Vector s sharedSecret).msgs s.msgs := by
  refine revised_map (fun b => ?_) s.msgs
  split
  case isTrue hacct =>
    refine ⟨rfl, fun hother => absurd hacct hother, fun hlen => ?_⟩
    obtain ⟨hid, hsame⟩ := finishAcct_keeps md5Vector sharedSecret hlen
    exact ⟨hid, hsame ▸ hlen⟩
  case isFalse => exact revises_of_same rfl rfl

theorem Move.revised (h : Move md5Vector s s') : Revised s'.msgs s.msgs := by
  cases h with
  | tick auth acct timers hcurrent => exact refl_of _ s.msgs
  | unlink p => exact List.filter_sublist.sublistForall₂
  | remove i hi => exact (List.eraseIdx_sublist _ _).sublistForall₂
  | resend i f hf => exact revised_modify (fun b => revises_of_same (hf.msgType b) (hf.msg b)) _ i
  | resetAuth => exact revised_resetRetries s true
  | adoptAcct svc nserv oserv hnew hold =>
    simp only [Client.adoptAcct, adoptServer, Bool.false_eq_true, if_false]
    split
    · exact revised_resetRetries { s with acct := svc } false
    · exact trans_of _ (revised_resetRetries _ false) (revised_updateAcctMsgs { s with acct := svc } _)

theorem Moves.revised (h : Moves md5Vector s s') : Revised s'.msgs s.msgs := by
  induction h with
  | refl => exact refl_of _ s.msgs
  | tail _ hmove ih => exact trans_of _ hmove.revised ih

theorem Move.count (h : Move md5Vector s s') (hcount : s.numMsgs = s.msgs.length) :
    s'.numMsgs = s'.msgs.length := by
  have hadopt : ∀ (t : RadiusClientData) nserv oserv, t.numMsgs = t.msgs.length →
      (adoptServer md5Vector t nserv oserv false).numMsgs =
        (adoptServer md5Vector t nserv oserv false).msgs.length := by
    intro t nserv oserv ht
    simp only [adoptServer, resetRetries, Bool.false_eq_true, if_false, List.length_map]
    split
    · exact ht
    · simp only [updateAcctMsgs, List.length_map]
      exact ht
  cases h with
  | tick auth acct timers hcurrent => exact hcount
  | unlink p =>
    have hsplit := List.length_eq_countP_add_countP p (l := s.msgs)
    have hfilter : (s.msgs.filter (!p ·)).length = s.msgs.countP fun e => decide ¬ p e = true := by
      rw [← List.countP_eq_length_filter]
      exact List.countP_congr fun e _ => by simp
    simp only [unlinkWhere, hfilter]
    omega
  | remove i hi =>
    simp only [List.length_eraseIdx, if_pos hi]
    omega
  | resend i f hf => simpa using hcount
  | resetAuth => simpa [resetRetries] using hcount
  | adoptAcct svc nserv oserv hnew hold => exact hadopt { s with acct := svc } nserv oserv hcount

theorem Move.record (h : Move md5Vector s s') : s'.issued = s.issued ∧ s'.evicted = s.evicted := by
  cases h with
  | adoptAcct svc nserv oserv hnew hold =>
    simp only [Client.adoptAcct, adoptServer, resetRetries, Bool.false_eq_true, if_false]
    split <;> exact ⟨rfl, rfl⟩
  | _ => exact ⟨rfl, rfl⟩

theorem Held.relist (h : Held s) (hids : (idents s'.msgs).Sublist (idents s.msgs))
    (hheaded : Headed s'.msgs) (hcount : s'.numMsgs = s'.msgs.length)
    (hissued : ∀ id ∈ idents s.msgs, id ∉ s'.issued) (hevicted : s'.evicted = s.evicted) :
    Held s' where
  count := hcount
  bound := by
    have hlen := hids.length_le
    simp only [idents, List.length_map] at hlen
    exact hlen.trans h.bound
  distinct := h.distinct.sublist hids
  evicted := hevicted ▸ h.evicted
  headed := hheaded
  unsent := fun id hid => hissued id (hids.subset hid)

theorem Held.moves (h : Held s) (hm : Moves md5Vector s s') :
    Held s' ∧ (idents s'.msgs).Sublist (idents s.msgs) ∧ s'.issued = s.issued := by
  induction hm with
  | refl => exact ⟨h, List.Sublist.refl _, rfl⟩
  | tail _ hstep ih =>
    obtain ⟨hheld, hids, hissued⟩ := ih
    obtain ⟨hids', hheaded⟩ := hstep.revised.idents_sublist hheld.headed
    obtain ⟨hissued', hevicted⟩ := hstep.record
    refine ⟨hheld.relist hids' hheaded (hstep.count hheld.count) ?_ hevicted, hids'.trans hids,
      hissued'.trans hissued⟩
    rw [hissued']
    exact hheld.unsent

end Moves

/-! ## The operations -/

section Operations

variable {hmacMd5 : Bytes → Bytes → Digest} {md5Vector : List Bytes → Digest}
variable {s : RadiusClientData}

theorem Held.listAdd (h : Held s) {msg : RadiusMsg} (msgType : RadiusType) (sharedSecret : Bytes)
    (addr : Option MacAddr) (w : SendWorld) (hnew : identifier msg ∉ idents s.msgs)
    (hissued : identifier msg ∉ s.issued) (hheaded : hdrLen ≤ msg.buf.length) :
    Held (listAdd s msg msgType sharedSecret addr w) := by
  unfold Client.listAdd
  split
  · exact h
  · simp only [updateTimeout]
    generalize hentry : RadiusMsgList.mk (addr.getD 0) msg msgType w.now (w.now + firstWait) 1
      (firstWait * 2) sharedSecret = entry
    have hmsg : entry.msg = msg := by rw [← hentry]
    have hnodup : (idents (entry :: s.msgs)).Nodup := by
      rw [idents, List.map_cons, hmsg]
      exact List.nodup_cons.mpr ⟨hnew, h.distinct⟩
    have hall : Headed (entry :: s.msgs) := by
      rintro e (_ | ⟨_, he⟩)
      · exact hmsg ▸ hheaded
      · exact h.headed e he
    have hunsent : ∀ id ∈ idents (entry :: s.msgs), id ∉ s.issued := by
      rintro id (_ | ⟨_, hid⟩)
      · simp only [hmsg]
        exact hissued
      · exact h.unsent id hid
    have hcount := h.count
    have hbound := h.bound
    by_cases hfull : maxEntries ≤ s.numMsgs
    · have hlen : s.msgs.length = maxEntries := by omega
      have hpos : 0 < s.msgs.length := by
        rw [hlen]
        decide
      have hsub : (entry :: s.msgs).dropLast.Sublist (entry :: s.msgs) := List.dropLast_sublist _
      rw [if_pos hfull, if_pos hpos]
      refine ⟨⟨?_, ?_, hnodup.sublist (hsub.map _), ?_⟩, fun e he => hall e (hsub.subset he),
        fun id hid => hunsent id ((hsub.map _).subset hid)⟩
      · simpa using hcount
      · simpa using hbound
      · intro n hn
        rcases List.mem_append.mp hn with hn' | hn'
        · exact h.evicted n hn'
        · rw [List.mem_singleton.mp hn', hlen]
    · rw [if_neg hfull]
      refine ⟨⟨?_, ?_, hnodup, h.evicted⟩, hall, hunsent⟩
      · simpa using hcount
      · simp only [List.length_cons]
        omega

theorem Held.getId (h : Held s) (hfree : ∀ e ∈ s.msgs, identifier e.msg ≠ s.nextRadiusIdentifier) :
    Held (getId s).2 := by
  have hall : (s.msgs.filter fun e => identifier e.msg ≠ s.nextRadiusIdentifier) = s.msgs := by
    rw [List.filter_eq_self]
    exact fun e he => by simpa using hfree e he
  refine h.relist (List.filter_sublist.map _) (fun e he => h.headed e (List.mem_of_mem_filter he))
    ?_ ?_ rfl
  · simp only [Client.getId, hall]
    exact h.count
  · intro id hid hmem
    rcases List.mem_insert_iff.mp hmem with rfl | hmem'
    · obtain ⟨e, he, heq⟩ := List.mem_map.mp hid
      exact hfree e he heq
    · exact h.unsent id hid hmem'

theorem Held.send (h : Held s) {msg : RadiusMsg} (msgType : RadiusType) (addr : Option MacAddr)
    (w : SendWorld) (hheaded : hdrLen ≤ msg.buf.length) (hissued : identifier msg ∈ s.issued) :
    Held (send hmacMd5 md5Vector s msg msgType addr w).2 := by
  have hgone : identifier msg ∉ s.issued.filter (· ≠ identifier msg) := by simp
  have htaken : Held { s with issued := s.issued.filter (· ≠ identifier msg) } :=
    h.relist (List.Sublist.refl _) h.headed h.count
      (fun id hid hmem => h.unsent id hid (List.mem_of_mem_filter hmem)) rfl
  have hfresh : identifier msg ∉ idents s.msgs := fun hmem => h.unsent _ hmem hissued
  unfold Client.send
  simp only
  generalize hstart : RadiusClientData.mk s.auth s.acct s.msgs s.numMsgs s.nextRadiusIdentifier
    s.timers (s.issued.filter (· ≠ identifier msg)) s.evicted s.acctChanges = t at htaken
  have hdel : Moves md5Vector t (if msgType = .acctInterim then listDel t msgType addr else t) := by
    split
    · exact listDel_moves md5Vector t msgType addr
    · exact .refl
  generalize (if msgType = .acctInterim then listDel t msgType addr else t) = t' at hdel
  split
  · exact (htaken.moves hdel).1
  next server hserver =>
    have hmoves := hdel.trans (handleSendError_moves md5Vector t' msgType w.now w.sent)
    obtain ⟨hheld, hids, hrest⟩ := htaken.moves hmoves
    have hkeeps : ∀ m : RadiusMsg, m = (if msgType.isAcct then
        finishAcct md5Vector msg server.sharedSecret
        else (finish hmacMd5 msg server.sharedSecret).2) →
        identifier m = identifier msg ∧ hdrLen ≤ m.buf.length := by
      rintro m rfl
      split
      · obtain ⟨hid, hlen⟩ := finishAcct_keeps md5Vector server.sharedSecret hheaded
        exact ⟨hid, hlen ▸ hheaded⟩
      · exact finish_keeps hmacMd5 server.sharedSecret hheaded
    obtain ⟨hid, hlen⟩ := hkeeps _ rfl
    have hadd := hheld.listAdd msgType server.sharedSecret addr w
      (by rw [hid]; exact fun hmem => hfresh (by simpa [← hstart] using hids.subset hmem))
      (by rw [hid, hrest, ← hstart]; exact hgone) hlen
    split
    · exact hadd
    · exact hadd

/-- What the callers of the client promise: a message has a header, with an identifier that was
issued and that no message has been sent with since. -/
def Issued : Option RadiusClientData → Op → Prop
  | some s, .send msg _ _ _ => hdrLen ≤ msg.buf.length ∧ identifier msg ∈ s.issued
  | _, _ => True

/-- No identifier is issued that a pending request has, and no request is freed while it is sent
again. -/
def NoReuse : Option RadiusClientData → Op → Prop
  | some s, .getId => ∀ e ∈ s.msgs, identifier e.msg ≠ s.nextRadiusIdentifier
  | some s, .timer w => freesInUse w.now w.sent s.msgs = false
  | _, _ => True

/-- The promise, of a client whose memory is in order. -/
def PendingPromise : Option RadiusClientData → Prop
  | some s => Tidy s
  | none => False

theorem init_held (auth acct : Service) : Held (init auth acct) := by
  refine ⟨⟨rfl, ?_, List.nodup_nil, ?_⟩, ?_, ?_⟩ <;> simp [init, idents, Headed]

theorem Held.exec (h : Held s) {op : Op} (hissued : Issued (some s) op)
    (hreuse : NoReuse (some s) op) :
    ∃ s', exec hmacMd5 md5Vector s op = some s' ∧ Held s' := by
  by_cases hgetId : op = .getId
  · subst hgetId
    exact ⟨_, rfl, h.getId hreuse⟩
  by_cases hsend : ∃ msg msgType addr w, op = .send msg msgType addr w
  · obtain ⟨msg, msgType, addr, w, rfl⟩ := hsend
    exact ⟨_, rfl, h.send msgType addr w hissued.1 hissued.2⟩
  · obtain ⟨s', hs'⟩ : ∃ s', Client.exec hmacMd5 md5Vector s op = some s' := by
      cases op with
      | timer w =>
        refine Option.ne_none_iff_exists'.mp fun hnone => ?_
        have hfrees := (timer_eq_none_iff md5Vector).mp hnone
        rw [show freesInUse w.now w.sent s.msgs = false from hreuse] at hfrees
        cases hfrees
      | _ => exact ⟨_, rfl⟩
    refine ⟨s', hs', (h.moves (exec_moves md5Vector hmacMd5 hgetId ?_ hs')).1⟩
    rintro msg msgType addr w rfl
    exact hsend ⟨msg, msgType, addr, w, rfl⟩

theorem Held.exec_broken (h : Held s) {op : Op} (hreuse : ¬ NoReuse (some s) op) :
    ¬ PendingPromise (Client.exec hmacMd5 md5Vector s op) := by
  cases op with
  | getId =>
    simp only [NoReuse, ne_eq, not_forall, Decidable.not_not] at hreuse
    obtain ⟨e, he, hid⟩ := hreuse
    intro htidy
    have hlt : (s.msgs.filter fun e => identifier e.msg ≠ s.nextRadiusIdentifier).length <
        s.msgs.length := List.length_filter_lt_length_iff_exists.mpr ⟨e, he, by simpa using hid⟩
    have hcount : s.numMsgs =
        (s.msgs.filter fun e => identifier e.msg ≠ s.nextRadiusIdentifier).length := htidy.count
    have := h.count
    omega
  | timer w =>
    simp only [NoReuse, Bool.not_eq_false] at hreuse
    have hnone : Client.exec hmacMd5 md5Vector s (.timer w) = none :=
      (timer_eq_none_iff md5Vector).mpr hreuse
    rw [hnone]
    exact id
  | _ => exact absurd trivial hreuse

end Operations

/-! ## Runs -/

section Runs

variable (hmacMd5 : Bytes → Bytes → Digest) (md5Vector : List Bytes → Digest)

/-- Source: `radius_client_list_add`, `radius_client_get_id`. In every run of a client whose
callers send messages with identifiers of their own, the list keeps its promise after every
operation exactly when, along the run, no identifier is issued while a request with it is pending,
and no request is freed while it is sent again. -/
theorem run_pending_iff (auth acct : Service) (ops : List Op)
    (hissued : Along (step hmacMd5 md5Vector) Issued (some (init auth acct)) ops) :
    Along (step hmacMd5 md5Vector) (fun s op => PendingPromise (step hmacMd5 md5Vector s op))
        (some (init auth acct)) ops ↔
      Along (step hmacMd5 md5Vector) NoReuse (some (init auth acct)) ops := by
  refine Along.congr (I := fun s => ∃ t, s = some t ∧ Held t) ?_ ?_ ⟨_, rfl, init_held auth acct⟩
    hissued
  · rintro s op ⟨t, rfl, ht⟩ hop hreuse
    exact ht.exec hop hreuse
  · rintro s op ⟨t, rfl, ht⟩ hop
    constructor
    · intro hpromise
      by_contra hreuse
      exact ht.exec_broken hreuse hpromise
    · intro hreuse
      have hexec : ∃ t', Client.exec hmacMd5 md5Vector t op = some t' ∧ Held t' :=
        ht.exec hop hreuse
      obtain ⟨t', ht', hheld⟩ := hexec
      change PendingPromise (Client.exec hmacMd5 md5Vector t op)
      rw [ht']
      exact hheld.toTidy

end Runs

/-! ## An identifier that is used again -/

instance (s : RadiusClientData) : Decidable (Tidy s) :=
  decidable_of_iff (s.numMsgs = s.msgs.length ∧ s.msgs.length ≤ maxEntries ∧
      (idents s.msgs).Nodup ∧ ∀ n ∈ s.evicted, n = maxEntries)
    ⟨fun ⟨hcount, hbound, hdistinct, hevicted⟩ => ⟨hcount, hbound, hdistinct, hevicted⟩,
      fun h => ⟨h.count, h.bound, h.distinct, h.evicted⟩⟩

instance : ∀ s, Decidable (PendingPromise s)
  | some s => inferInstanceAs (Decidable (Tidy s))
  | none => .isFalse id

instance : ∀ s op, Decidable (Issued s op)
  | some s, .send msg _ _ _ =>
    inferInstanceAs (Decidable (hdrLen ≤ msg.buf.length ∧ identifier msg ∈ s.issued))
  | some _, .register _ _ | some _, .getId | some _, .receive _ _ | some _, .timer _
  | some _, .retryPrimary _ _ | some _, .flush _ | some _, .flushAuth _ | none, _ => .isTrue trivial

instance : ∀ s op, Decidable (NoReuse s op)
  | some s, .getId =>
    inferInstanceAs (Decidable (∀ e ∈ s.msgs, identifier e.msg ≠ s.nextRadiusIdentifier))
  | some s, .timer w => inferInstanceAs (Decidable (freesInUse w.now w.sent s.msgs = false))
  | some _, .register _ _ | some _, .send _ _ _ _ | some _, .receive _ _ | some _, .retryPrimary _ _
  | some _, .flush _ | some _, .flushAuth _ | none, _ => .isTrue trivial

def oneServer : Service where
  servers := [⟨.inet, [1]⟩]
  server := 0
  servSock := 3
  servSock6 := 4
  sock := 3
  handlers := []

def zeroDigest : Digest := Vector.replicate 16 0

/-- An accounting request is sent and stays pending while all identifiers are issued once more. -/
def wrapAround : List Op :=
  [.getId, .send (new 4 0) .acct none ⟨0, false, true, .ok⟩] ++ List.replicate 256 .getId

set_option maxRecDepth 100000 in
theorem reused_identifier_miscounted :
    Along (step (fun _ _ => zeroDigest) fun _ => zeroDigest) Issued
        (some (init oneServer oneServer)) wrapAround ∧
      ¬ PendingPromise (run (step (fun _ _ => zeroDigest) fun _ => zeroDigest)
        (some (init oneServer oneServer)) wrapAround) := by
  decide +kernel

def twoRequests : List Op :=
  [.getId, .send (new 4 0) .acct none ⟨0, false, true, .ok⟩,
   .getId, .send (new 1 1) .auth (some 7) ⟨1, false, true, .ok⟩,
   .timer ⟨3, fun _ => .ok, fun _ => true⟩]

theorem run_pending_iff_two_requests :
    Along (step (fun _ _ => zeroDigest) fun _ => zeroDigest)
        (fun s op => PendingPromise (step (fun _ _ => zeroDigest) (fun _ => zeroDigest) s op))
        (some (init oneServer oneServer)) twoRequests :=
  (run_pending_iff _ _ _ _ _ (by decide)).mpr (by decide)

/-! ## A message that no handler accepts -/

/-- No handler of the socket's kind processes or queues the datagram: each says of the message and
the request it is matched with that the message is unknown or its authenticator invalid. -/
def Unaccepted (s : RadiusClientData) (msgType : RadiusType) (buf : Bytes) : Prop :=
  ∀ msg, parse buf = some msg →
    ∀ req, s.msgs.find? (RadiusMsgList.answeredBy msgType (identifier msg)) = some req →
      ∀ handler ∈ (s.service (msgType ≠ .acct)).handlers,
        handler msg req.msg req.sharedSecret = .unknown ∨
          handler msg req.msg req.sharedSecret = .invalidAuthenticator

/-- The datagram is a message that some pending request is matched with. -/
def Matched (s : RadiusClientData) (msgType : RadiusType) (buf : Bytes) : Prop :=
  buf.length < recvBufLen ∧ ∃ msg, parse buf = some msg ∧
    ∃ req ∈ s.msgs, req.answeredBy msgType (identifier msg) = true

theorem receive_unmatched {s : RadiusClientData} {msgType : RadiusType} {buf : Bytes}
    (h : ¬ Matched s msgType buf) : receive s msgType buf = (false, s) := by
  unfold receive
  split
  · rfl
  next hlen =>
    split
    · rfl
    next msg hmsg =>
      have hnone : s.msgs.find? (RadiusMsgList.answeredBy msgType (identifier msg)) = none := by
        rw [List.find?_eq_none]
        exact fun req hreq hans => h ⟨Nat.lt_of_not_le hlen, msg, hmsg, req, hreq, hans⟩
      rw [hnone]

theorem receive_matched {s : RadiusClientData} {msgType : RadiusType} {buf : Bytes}
    (h : Matched s msgType buf) : (receive s msgType buf).2.msgs.length < s.msgs.length := by
  obtain ⟨hlen, msg, hmsg, req, hreq, hans⟩ := h
  obtain ⟨found, hfound⟩ : ∃ found,
      s.msgs.find? (RadiusMsgList.answeredBy msgType (identifier msg)) = some found := by
    rw [← Option.isSome_iff_exists, List.find?_isSome]
    exact ⟨req, hreq, hans⟩
  unfold receive
  rw [if_neg (Nat.not_le_of_lt hlen), hmsg]
  simp only [hfound]
  rw [List.length_eraseP_of_mem hreq hans]
  exact Nat.pred_lt (List.length_pos_of_mem hreq).ne'

theorem handlerLoop_unaccepted {msg : RadiusMsg} {req : RadiusMsgList} {l : List RxHandler}
    (h : ∀ handler ∈ l, handler msg req.msg req.sharedSecret = .unknown ∨
      handler msg req.msg req.sharedSecret = .invalidAuthenticator) :
    handlerLoop msg req l = false := by
  induction l with
  | nil => rfl
  | cons handler l ih =>
    have hrest := ih fun b hb => h b (List.mem_cons_of_mem handler hb)
    unfold handlerLoop
    rcases h handler List.mem_cons_self with heq | heq <;> rw [heq] <;> exact hrest

/-- Source: `radius_client_receive`. For every list and every datagram that no handler accepts: the
client reports no acceptance, and it keeps the list and the retransmission schedule, so that the
genuine response is still matched with its request, exactly when the datagram is matched with no
request. -/
theorem receive_unaccepted_iff (s : RadiusClientData) (msgType : RadiusType) (buf : Bytes)
    (h : Unaccepted s msgType buf) :
    (receive s msgType buf).1 = false ∧
      (((receive s msgType buf).2.msgs = s.msgs ∧ (receive s msgType buf).2.timers = s.timers ∧
        ∀ msgType' buf', Matched s msgType' buf' →
          Matched (receive s msgType buf).2 msgType' buf') ↔ ¬ Matched s msgType buf) := by
  refine ⟨?_, ?_, ?_⟩
  · unfold receive
    split
    · rfl
    · split
      · rfl
      next msg hmsg =>
        split
        · rfl
        next req hreq =>
          exact handlerLoop_unaccepted (h msg hmsg req hreq)
  · rintro ⟨hmsgs, -, -⟩ hmatched
    exact absurd (congrArg List.length hmsgs) (receive_matched hmatched).ne
  · intro hunmatched
    rw [receive_unmatched hunmatched]
    exact ⟨rfl, rfl, fun _ _ hmatched => hmatched⟩

/-- A client with one request pending and a handler that finds every authenticator invalid. -/
def onePending : RadiusClientData :=
  { init { oneServer with handlers := [fun _ _ _ => .invalidAuthenticator] } oneServer with
    msgs := [⟨0, new 1 7, .auth, 0, 3, 1, 6, [1]⟩]
    numMsgs := 1 }

/-- The twenty octets of an Access-Accept with identifier 7 and an authenticator of zeroes. -/
def forgedAccept : Bytes := [2, 7, 0, 20] ++ List.replicate 16 0

theorem onePending_unaccepted : Unaccepted onePending .auth forgedAccept := by
  rintro msg - req - handler hhandler
  rw [List.mem_singleton.mp hhandler]
  exact Or.inr rfl

theorem forged_datagram_cancels :
    Unaccepted onePending .auth forgedAccept ∧ onePending.msgs.length = 1 ∧
      (receive onePending .auth forgedAccept).2.msgs = [] := by
  refine ⟨onePending_unaccepted, rfl, ?_⟩
  decide

theorem receive_unaccepted_iff_forged :
    (receive onePending .auth forgedAccept).1 = false ∧
      (receive onePending .acct forgedAccept).2.msgs = onePending.msgs := by
  have hacct : Unaccepted onePending .acct forgedAccept := by
    rintro msg - req - handler (_ | _)
  refine ⟨(receive_unaccepted_iff _ _ _ onePending_unaccepted).1,
    ((receive_unaccepted_iff _ _ _ hacct).2.mpr ?_).1⟩
  rintro ⟨-, msg, -, req, hreq, hans⟩
  rw [List.mem_singleton.mp hreq] at hans
  cases hans

end Hostapd.Radius.Client
