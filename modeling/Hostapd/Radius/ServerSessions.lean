import Hostapd.Radius.Server

/-!
# The RADIUS server: its table of sessions

What the table promises (`Sound`): the counter is the number of sessions linked in the lists of the
clients and within its bound, every linked session is live, and their identifiers are pairwise
distinct while these have not gone round.

* **`Inv`**: the invariant. Sessions are told apart by their numbers, and an identifier is a number
  modulo 2^32.
* **`run_sessions_iff`**: a run keeps the promise exactly when it creates no session without an EAP
  machine, gets memory for every timeout, and stores no stored request again (`NoFailure`).
-/

namespace Hostapd.Radius.Server

open Hostapd.Lib

/-! ## The sessions of all clients -/

theorem sessions_modify (d : RadiusServerData) (serial : ℕ) (f : RadiusSession → RadiusSession) :
    sessions (modifySession d serial f) =
      (sessions d).map fun sess => if sess.serial = serial then f sess else sess := by
  simp only [sessions, modifySession, List.flatMap_map, List.map_flatMap]

theorem sessions_unlink (d : RadiusServerData) (serial : ℕ) :
    sessions (unlink d serial) = (sessions d).filter fun sess => sess.serial ≠ serial := by
  simp only [sessions, unlink, List.flatMap_map, List.filter_flatMap]

variable {client : ℕ}

theorem sessions_link {clients : List RadiusClient} (h : client < clients.length)
    (sess : RadiusSession) :
    ((clients.modify client fun c => { c with sessions := sess :: c.sessions }).flatMap
      RadiusClient.sessions).Perm (sess :: clients.flatMap RadiusClient.sessions) := by
  induction clients generalizing client with
  | nil => exact absurd h (Nat.not_lt_zero _)
  | cons c l ih =>
    cases client with
    | zero => exact List.Perm.refl _
    | succ n =>
      have hrest := ih (Nat.lt_of_succ_lt_succ h)
      simp only [List.modify_succ_cons, List.flatMap_cons]
      exact (hrest.append_left _).trans List.perm_middle

/-! ## The invariant -/

/-- A linked session is live: it has not been freed, its timeout is registered, and so is its removal
when it is completed. -/
structure Live (d : RadiusServerData) (sess : RadiusSession) : Prop where
  linked : sess.freed = false
  timeout : (TimeoutKind.session, sess.serial) ∈ d.timers
  removal : sess.completed = true → (TimeoutKind.remove, sess.serial) ∈ d.timers

structure Sound (d : RadiusServerData) : Prop where
  count : d.numSess = (sessions d).length
  bound : d.numSess ≤ maxSession
  live : ∀ sess ∈ sessions d, Live d sess
  distinct : d.created < 2 ^ 32 → ((sessions d).map RadiusSession.sessId).Nodup

structure Inv (d : RadiusServerData) : Prop where
  count : d.numSess = (sessions d).length
  bound : d.numSess ≤ maxSession
  live : ∀ sess ∈ sessions d, Live d sess
  serials : ((sessions d).map RadiusSession.serial).Nodup
  named : ∀ sess ∈ sessions d, sess.serial < d.created ∧ sess.sessId = UInt32.ofNat sess.serial
  next : d.nextSessId = UInt32.ofNat d.created
  timed : ∀ p ∈ d.timers, p.2 < d.created

variable {d : RadiusServerData}

theorem Inv.sound (h : Inv d) : Sound d := by
  refine ⟨h.count, h.bound, h.live, fun hcreated => ?_⟩
  have hids : (sessions d).map RadiusSession.sessId =
      ((sessions d).map RadiusSession.serial).map UInt32.ofNat := by
    rw [List.map_map]
    exact List.map_congr_left fun sess hsess => (h.named sess hsess).2
  rw [hids]
  refine List.Nodup.map_on ?_ h.serials
  intro a ha b hb hab
  obtain ⟨sess, hsess, rfl⟩ := List.mem_map.mp ha
  obtain ⟨sess', hsess', rfl⟩ := List.mem_map.mp hb
  have hlt := (h.named sess hsess).1.trans hcreated
  have hlt' := (h.named sess' hsess').1.trans hcreated
  have hnat := congrArg UInt32.toNat hab
  rwa [UInt32.toNat_ofNat_of_lt' hlt, UInt32.toNat_ofNat_of_lt' hlt'] at hnat

variable {sess : RadiusSession}

theorem Inv.session_eq (h : Inv d) (hsess : sess ∈ sessions d) :
    session d sess.serial = some sess := by
  obtain ⟨found, hfound⟩ : ∃ found, session d sess.serial = some found := by
    rw [← Option.isSome_iff_exists, session, List.find?_isSome]
    exact ⟨sess, hsess, by simp⟩
  have hserial : found.serial = sess.serial := by simpa using List.find?_some hfound
  rw [hfound, List.inj_on_of_nodup_map h.serials (List.mem_of_find?_eq_some hfound) hsess hserial]

variable {serial : ℕ}

theorem session_mem (h : session d serial = some sess) :
    sess ∈ sessions d ∧ sess.serial = serial :=
  ⟨List.mem_of_find?_eq_some h, by simpa using List.find?_some h⟩

variable {f : RadiusSession → RadiusSession}

theorem Inv.update (h : Inv d) (serial : ℕ)
    {timers : List (TimeoutKind × ℕ)}
    (hf : ∀ sess, (f sess).serial = sess.serial ∧ (f sess).sessId = sess.sessId)
    (htimed : ∀ p ∈ timers, p.2 < d.created)
    (hlive : ∀ sess ∈ sessions d,
      Live { d with timers := timers } (if sess.serial = serial then f sess else sess)) :
    Inv { modifySession d serial f with timers := timers } := by
  have hsessions : sessions { modifySession d serial f with timers := timers } =
      (sessions d).map fun sess => if sess.serial = serial then f sess else sess :=
    sessions_modify d serial f
  have hkept : ∀ sess : RadiusSession,
      (if sess.serial = serial then f sess else sess).serial = sess.serial ∧
        (if sess.serial = serial then f sess else sess).sessId = sess.sessId := by
    intro sess
    split
    · exact hf sess
    · exact ⟨rfl, rfl⟩
  refine ⟨?_, h.bound, ?_, ?_, ?_, h.next, htimed⟩
  · rw [hsessions, List.length_map]
    exact h.count
  · intro sess hsess
    rw [hsessions] at hsess
    obtain ⟨sess', hsess', rfl⟩ := List.mem_map.mp hsess
    have hold := hlive sess' hsess'
    exact ⟨hold.linked, hold.timeout, hold.removal⟩
  · rw [hsessions, List.map_map]
    exact (List.map_congr_left fun sess _ => (hkept sess).1) ▸ h.serials
  · intro sess hsess
    rw [hsessions] at hsess
    obtain ⟨sess', hsess', rfl⟩ := List.mem_map.mp hsess
    rw [(hkept sess').1, (hkept sess').2]
    exact h.named sess' hsess'

theorem Inv.modify (h : Inv d) (serial : ℕ)
    (hf : ∀ sess, (f sess).serial = sess.serial ∧ (f sess).sessId = sess.sessId ∧
      (f sess).freed = sess.freed ∧ (f sess).completed = sess.completed) :
    Inv (modifySession d serial f) := by
  refine h.update serial (fun sess => ⟨(hf sess).1, (hf sess).2.1⟩) h.timed fun sess hsess => ?_
  obtain ⟨hlinked, htimeout, hremoval⟩ := h.live sess hsess
  obtain ⟨hserial, -, hfreed, hcompleted⟩ := hf sess
  split
  · exact ⟨hfreed.trans hlinked, hserial ▸ htimeout,
      fun hdone => hserial ▸ hremoval (hcompleted ▸ hdone)⟩
  · exact ⟨hlinked, htimeout, hremoval⟩

variable {w : World}

theorem Inv.complete (h : Inv d)
    (hsess : session d serial = some sess) (hw : w.memRemove = true) :
    Inv (completeSession d serial w) := by
  have hd : completeSession d serial w =
      { modifySession d serial (fun sess => { sess with completed := true }) with
        timers := d.timers.filter (· ≠ (.remove, serial)) ++ [(.remove, serial)] } := by
    simp only [completeSession, registerTimeout, hw, if_true, cancelTimeout, modifySession]
  rw [hd]
  have htimed : ∀ p ∈ d.timers.filter (· ≠ (.remove, serial)) ++ [(.remove, serial)],
      p.2 < d.created := by
    intro p hp
    rcases List.mem_append.mp hp with hp | hp
    · exact h.timed p (List.mem_of_mem_filter hp)
    · obtain ⟨hmem, rfl⟩ := session_mem hsess
      rw [List.mem_singleton.mp hp]
      exact (h.named sess hmem).1
  refine h.update serial (fun sess => ⟨rfl, rfl⟩) htimed fun sess hsess => ?_
  obtain ⟨hlinked, htimeout, hremoval⟩ := h.live sess hsess
  have htimeout' : (TimeoutKind.session, sess.serial) ∈
      d.timers.filter (· ≠ (.remove, serial)) ++ [(.remove, serial)] :=
    List.mem_append_left _ (List.mem_filter.mpr ⟨htimeout, by simp⟩)
  split
  case isTrue hserial =>
    exact ⟨hlinked, htimeout', fun _ => List.mem_append_right _ (by simp [hserial])⟩
  case isFalse hserial =>
    refine ⟨hlinked, htimeout', fun hdone => List.mem_append_left _ ?_⟩
    exact List.mem_filter.mpr ⟨hremoval hdone, by simp [hserial]⟩

/-! ## Removal -/

theorem length_unlink (h : Inv d)
    (hsess : session d serial = some sess) :
    (sessions d).length = (sessions (unlink d serial)).length + 1 := by
  obtain ⟨hmem, rfl⟩ := session_mem hsess
  have hone : (sessions d).countP (fun s => s.serial = sess.serial) = 1 := by
    have hcount := List.count_eq_one_of_mem h.serials (List.mem_map_of_mem hmem)
    rw [List.count_eq_countP, List.countP_map] at hcount
    rw [← hcount]
    exact List.countP_congr fun s _ => by simp
  rw [List.length_eq_countP_add_countP (fun s : RadiusSession => s.serial = sess.serial), hone,
    sessions_unlink, List.countP_eq_length_filter, Nat.add_comm]
  simp only [decide_eq_true_eq, ne_eq]

theorem Inv.remove (h : Inv d) (serial : ℕ) {timers : List (TimeoutKind × ℕ)}
    (hsub : timers ⊆ d.timers) (htimers : ∀ p ∈ d.timers, p.2 ≠ serial → p ∈ timers) :
    Inv (sessionRemove { d with timers := timers } serial) := by
  have hlive : ∀ timers', (∀ p ∈ timers, p.2 ≠ serial → p ∈ timers') →
      ∀ sess ∈ sessions d, sess.serial ≠ serial → Live { d with timers := timers' } sess := by
    intro timers' htimers' sess hsess hne
    obtain ⟨hlinked, htimeout, hremoval⟩ := h.live sess hsess
    exact ⟨hlinked, htimers' _ (htimers _ htimeout hne) hne,
      fun hdone => htimers' _ (htimers _ (hremoval hdone) hne) hne⟩
  have hcancel : ∀ (p : TimeoutKind × ℕ) (kind : TimeoutKind), p.2 ≠ serial →
      p ≠ (kind, serial) := fun p kind hne heq => hne (by rw [heq])
  rw [sessionRemove]
  split
  case isTrue hfound =>
    obtain ⟨sess, hsess⟩ := Option.isSome_iff_exists.mp hfound
    have hlength := length_unlink h hsess
    have hrest : ∀ sess, sess ∈ sessions (unlink d serial) ↔
        sess ∈ sessions d ∧ sess.serial ≠ serial := by
      intro sess
      rw [sessions_unlink, List.mem_filter, decide_eq_true_eq]
    -- the session is no longer linked, so nothing linked is written to
    have hsessions : ∀ f, sessions (modifySession (unlink d serial) serial f) =
        sessions (unlink d serial) := by
      intro f
      rw [sessions_modify]
      refine (List.map_congr_left fun sess hsess => ?_).trans (List.map_id _)
      rw [if_neg ((hrest sess).mp hsess).2, id]
    refine ⟨?_, ?_, ?_, ?_, ?_, h.next, fun p hp => h.timed p (hsub ?_)⟩
    · show d.numSess - 1 = ((sessions (modifySession (unlink d serial) serial
        fun sess => { sess with freed := true })).length : ℤ)
      rw [hsessions, h.count, hlength]
      omega
    · exact (Int.sub_le_self _ (by decide)).trans h.bound
    · intro sess' hsess'
      obtain ⟨hmem, hne⟩ := (hrest sess').mp (hsessions _ ▸ hsess')
      have hold := hlive (((timers.filter (· ≠ (TimeoutKind.remove, serial))).filter
        (· ≠ (TimeoutKind.session, serial))).filter (· ≠ (TimeoutKind.remove, serial)))
        (fun p hp hne => by simp [hp, hcancel p _ hne]) sess' hmem hne
      exact ⟨hold.linked, hold.timeout, hold.removal⟩
    · show ((sessions (modifySession (unlink d serial) serial _)).map _).Nodup
      rw [hsessions, sessions_unlink]
      exact h.serials.sublist (List.filter_sublist.map _)
    · exact fun sess' hsess' => h.named sess' ((hrest sess').mp (hsessions _ ▸ hsess')).1
    · exact List.mem_of_mem_filter (List.mem_of_mem_filter (List.mem_of_mem_filter hp))
  case isFalse hmissing =>
    have hne : ∀ sess ∈ sessions d, sess.serial ≠ serial := by
      intro sess hsess hserial
      have hfound := h.session_eq hsess
      rw [hserial] at hfound
      exact hmissing (Option.isSome_iff_exists.mpr ⟨sess, hfound⟩)
    refine ⟨h.count, h.bound, fun sess hsess => ?_, h.serials, h.named, h.next,
      fun p hp => h.timed p (hsub (List.mem_of_mem_filter hp))⟩
    have hold := hlive (timers.filter (· ≠ (TimeoutKind.remove, serial)))
      (fun p hp hne => by simp [hp, hcancel p _ hne]) sess hsess (hne sess hsess)
    exact ⟨hold.linked, hold.timeout, hold.removal⟩

/-! ## Creation -/

/-- A request without a State attribute gets as far as a new session. -/
def Creates (d : RadiusServerData) (msg : RadiusMsg) (w : World) : Prop :=
  (w.memUser ∧ (getAttrOf msg attrUserName).isSome ∧ w.userFound) ∧
    ¬ maxSession ≤ d.numSess ∧ w.memSess

def linkSession (d : RadiusServerData) (client : ℕ) (timers : List (TimeoutKind × ℕ)) :
    RadiusServerData :=
  { d with
    nextSessId := d.nextSessId + 1
    created := d.created + 1
    clients := d.clients.modify client fun c => { c with
      sessions := freshSession d.created d.nextSessId :: c.sessions }
    timers := timers
    numSess := d.numSess + 1 }

variable {msg : RadiusMsg}

theorem newSession_of_creates (hcreates : Creates d msg w)
    (client : ℕ) :
    newSession d client w = (some d.created, linkSession d client
      (if w.memTimer then d.timers ++ [(.session, d.created)] else d.timers)) := by
  obtain ⟨-, hroom, hmem⟩ := hcreates
  rw [newSession, if_neg hroom, if_pos hmem]
  cases htimer : w.memTimer <;> simp [registerTimeout, linkSession, freshSession]

theorem getNewSession_of_not_creates (h : ¬ Creates d msg w)
    (client : ℕ) : getNewSession d client msg w = (none, d) := by
  by_cases huser : w.memUser ∧ (getAttrOf msg attrUserName).isSome ∧ w.userFound
  · have hnone : newSession d client w = (none, d) := by
      rw [newSession]
      split
      · rfl
      · split
        · exact absurd ⟨huser, ‹_›, ‹_›⟩ h
        · rfl
    rw [getNewSession, if_pos huser, hnone]
  · rw [getNewSession, if_neg huser]

theorem sessions_linkSession (hclient : client < d.clients.length)
    (timers : List (TimeoutKind × ℕ)) :
    (sessions (linkSession d client timers)).Perm
      (freshSession d.created d.nextSessId :: sessions d) :=
  sessions_link hclient _

theorem Inv.linkSession (h : Inv d) (hclient : client < d.clients.length)
    (hroom : ¬ maxSession ≤ d.numSess) :
    Inv (linkSession d client (d.timers ++ [(.session, d.created)])) := by
  have hperm := sessions_linkSession hclient (d.timers ++ [(.session, d.created)])
  have hfresh : d.created ∉ (sessions d).map RadiusSession.serial := by
    intro hmem
    obtain ⟨sess, hsess, hserial⟩ := List.mem_map.mp hmem
    exact absurd (h.named sess hsess).1 (by omega)
  refine ⟨?_, ?_, ?_, ?_, ?_, ?_, ?_⟩
  · rw [hperm.length_eq, List.length_cons]
    have hcount := h.count
    show d.numSess + 1 = _
    omega
  · show d.numSess + 1 ≤ maxSession
    omega
  · intro sess hsess
    rcases List.mem_cons.mp (hperm.mem_iff.mp hsess) with rfl | hold
    · exact ⟨rfl, List.mem_append_right _ (List.mem_singleton_self _), nofun⟩
    · obtain ⟨hlinked, htimeout, hremoval⟩ := h.live sess hold
      exact ⟨hlinked, List.mem_append_left _ htimeout,
        fun hdone => List.mem_append_left _ (hremoval hdone)⟩
  · rw [(hperm.map _).nodup_iff]
    exact List.nodup_cons.mpr ⟨hfresh, h.serials⟩
  · intro sess hsess
    rcases List.mem_cons.mp (hperm.mem_iff.mp hsess) with rfl | hold
    · exact ⟨Nat.lt_succ_self _, h.next⟩
    · exact ⟨Nat.lt_succ_of_lt (h.named sess hold).1, (h.named sess hold).2⟩
  · show d.nextSessId + 1 = UInt32.ofNat (d.created + 1)
    rw [h.next, UInt32.ofNat_add]
    rfl
  · intro p hp
    rcases List.mem_append.mp hp with hp | hp
    · exact Nat.lt_succ_of_lt (h.timed p hp)
    · rw [List.mem_singleton.mp hp]
      exact Nat.lt_succ_self _

/-! ## Requests -/

/-- A request for a session is neither a duplicate nor without EAP data, so the EAP machine gets it.
-/
def Served (sess : RadiusSession) (msg : RadiusMsg) (fromPort : ℕ) : Prop :=
  sess.isDuplicate msg fromPort = false ∧ getEap msg ≠ none

/-- Nothing fails on a request for a session: there is memory for the timeout when it completes the
session, and it is not stored twice. -/
structure RequestOk (sess : RadiusSession) (msg : RadiusMsg) (fromPort : ℕ) (forced : Bool)
    (w : World) : Prop where
  removal : Served sess msg fromPort → w.step.answers → w.step.complete → w.memRemove
  stored : forced → Served sess msg fromPort → ¬ w.step.answers → ¬ w.step.methodPending

/-- What the state promises: it is there, and its table is sound. -/
def Promise : Option RadiusServerData → Prop
  | some d => Sound d
  | none => False

theorem Inv.storeReply (h : Inv d) (serial : ℕ) (msg : RadiusMsg) (fromPort : ℕ) (w : World) :
    Inv (storeReply d serial msg fromPort w) := by
  rw [Server.storeReply]
  split
  · exact h
  · exact h.modify serial fun sess => ⟨rfl, rfl, rfl, rfl⟩

theorem session_modify (hsess : session d serial = some sess)
    (hf : ∀ sess, (f sess).serial = sess.serial) :
    session (modifySession d serial f) serial = some (f sess) := by
  have hpred : ((fun s : RadiusSession => decide (s.serial = serial)) ∘
      fun s => if s.serial = serial then f s else s) = fun s => decide (s.serial = serial) := by
    funext s
    simp only [Function.comp]
    split
    · rw [hf]
    · rfl
  rw [session, sessions_modify, List.find?_map, hpred, ← session, hsess, Option.map_some,
    if_pos (session_mem hsess).2]

theorem session_storeReply
    (hsess : session d serial = some sess) (msg : RadiusMsg) (fromPort : ℕ) (w : World) :
    ∃ sess', session (storeReply d serial msg fromPort w) serial = some sess' := by
  rw [storeReply]
  split
  · exact ⟨sess, hsess⟩
  · exact ⟨_, session_modify hsess fun sess => rfl⟩

variable {fromPort : ℕ}

theorem sessionRequest_inv (h : Inv d)
    (hsess : session d serial = some sess) {forced : Bool}
    (hok : RequestOk sess msg fromPort forced w) :
    ∃ r d', sessionRequest d serial msg fromPort forced w = some (r, d') ∧ Inv d' := by
  rw [sessionRequest, hsess]
  simp only
  split
  · exact ⟨_, _, rfl, h⟩
  rename_i hdup
  split
  · exact ⟨_, _, rfl, h⟩
  rename_i heap
  have hserved : Served sess msg fromPort := ⟨by simpa using hdup, heap⟩
  split
  case isTrue hanswers =>
    obtain ⟨sess', hsess'⟩ := session_storeReply hsess msg fromPort w
    refine ⟨_, _, rfl, ?_⟩
    split
    case isTrue hcomplete =>
      exact (h.storeReply serial msg fromPort w).complete hsess'
        (hok.removal hserved hanswers hcomplete)
    case isFalse => exact h.storeReply serial msg fromPort w
  case isFalse hanswers =>
    split
    case isTrue hpending =>
      cases forced
      · exact ⟨_, _, rfl, h.modify serial fun sess => ⟨rfl, rfl, rfl, rfl⟩⟩
      · exact absurd hpending (hok.stored rfl hserved hanswers)
    case isFalse => exact ⟨_, _, rfl, h⟩

/-! ## Requests that break the promise -/

def Lost (d : RadiusServerData) : Prop :=
  ∃ sess ∈ sessions d, (TimeoutKind.session, sess.serial) ∉ d.timers

theorem Lost.not_sound (h : Lost d) : ¬ Sound d := fun hsound =>
  let ⟨sess, hsess, hlost⟩ := h
  hlost (hsound.live sess hsess).timeout

theorem Lost.modify (h : Lost d) (serial : ℕ)
    (hf : ∀ sess, (f sess).serial = sess.serial) : Lost (modifySession d serial f) := by
  obtain ⟨sess, hsess, hlost⟩ := h
  refine ⟨if sess.serial = serial then f sess else sess, ?_, ?_⟩
  · rw [sessions_modify]
    exact List.mem_map_of_mem hsess
  · split
    · rw [hf]
      exact hlost
    · exact hlost

theorem Lost.storeReply (h : Lost d) (serial : ℕ) (msg : RadiusMsg) (fromPort : ℕ) (w : World) :
    Lost (storeReply d serial msg fromPort w) := by
  rw [Server.storeReply]
  split
  · exact h
  · exact h.modify serial fun sess => rfl

theorem Lost.complete (h : Lost d) (serial : ℕ) (w : World) : Lost
    (completeSession d serial w) := by
  obtain ⟨sess, hsess, hlost⟩ := h.modify serial (f := fun sess => { sess with completed := true })
    fun sess => rfl
  have hfilter : (TimeoutKind.session, sess.serial) ∉ d.timers.filter (· ≠ (.remove, serial)) :=
    fun hmem => hlost (List.mem_of_mem_filter hmem)
  rw [completeSession, registerTimeout]
  split
  · refine ⟨sess, hsess, fun hmem => ?_⟩
    rcases List.mem_append.mp hmem with hmem | hmem
    · exact hfilter hmem
    · exact absurd (congrArg Prod.fst (List.mem_singleton.mp hmem)) (by simp)
  · exact ⟨sess, hsess, hfilter⟩

theorem Lost.sessionRequest (h : Lost d) (serial : ℕ) (msg : RadiusMsg) (fromPort : ℕ)
    (forced : Bool) (w : World) :
    ¬ Promise ((sessionRequest d serial msg fromPort forced w).map Prod.snd) := by
  rw [Server.sessionRequest]
  split
  · exact h.not_sound
  split
  · exact h.not_sound
  split
  · exact h.not_sound
  split
  · have hreply := h.storeReply serial msg fromPort w
    simp only [Option.map_some, Promise]
    split
    · exact (hreply.complete serial w).not_sound
    · exact hreply.not_sound
  split
  · split
    · exact id
    · exact Lost.not_sound (h.modify serial fun sess => by rfl)
  · exact h.not_sound

theorem sessionRequest_broken
    (hsess : session d serial = some sess) {forced : Bool}
    (hbad : ¬ RequestOk sess msg fromPort forced w) :
    ¬ Promise ((sessionRequest d serial msg fromPort forced w).map Prod.snd) := by
  intro hpromise
  rw [sessionRequest, hsess] at hpromise
  refine hbad ⟨fun hserved hanswers hcomplete => ?_, fun hforced hserved hanswers hpending => ?_⟩
  · obtain ⟨sess', hsess'⟩ := session_storeReply hsess msg fromPort w
    simp only [hserved.1, hserved.2, hanswers, hcomplete, if_true, Bool.false_eq_true, if_false,
      Option.map_some, Promise] at hpromise
    have hdone := session_mem (session_modify hsess' (f := fun sess => { sess with completed := true })
      fun sess => rfl)
    by_contra hmem
    rw [completeSession, registerTimeout, if_neg hmem] at hpromise
    have hremoval := (hpromise.live _ hdone.1).removal rfl
    rw [hdone.2] at hremoval
    exact absurd (List.mem_filter.mp hremoval).2 (by simp)
  · simp only [hserved.1, hserved.2, hanswers, hpending, hforced, if_true, Bool.false_eq_true,
      if_false, Option.map_none, Promise] at hpromise

theorem getNewSession_of_creates (hcreates : Creates d msg w)
    (client : ℕ) :
    getNewSession d client msg w =
      let d' := linkSession d client
        (if w.memTimer then d.timers ++ [(.session, d.created)] else d.timers)
      match w.eap with
      | none => (none, sessionFree d' d.created)
      | some eap => (some d.created,
          modifySession d' d.created fun sess => { sess with eap := some eap }) := by
  have hnew := newSession_of_creates hcreates client
  cases heap : w.eap with
  | none => simp only [getNewSession, if_pos hcreates.1, hnew, heap]
  | some eap => simp only [getNewSession, if_pos hcreates.1, hnew, heap]

theorem Inv.getNewSession (h : Inv d) (hclient : client < d.clients.length)
    (hcreates : Creates d msg w) (htimer : w.memTimer = true)
    {eap : ℕ} (heap : w.eap = some eap) :
    ∃ d', getNewSession d client msg w = (some d.created, d') ∧ Inv d' ∧
      session d' d.created = some { freshSession d.created d.nextSessId with eap := some eap } := by
  have hinv := h.linkSession hclient hcreates.2.1
  have hsess : session (Server.linkSession d client (d.timers ++ [(.session, d.created)]))
      d.created = some (freshSession d.created d.nextSessId) :=
    hinv.session_eq ((sessions_linkSession hclient _).mem_iff.mpr List.mem_cons_self)
  refine ⟨_, ?_, hinv.modify d.created (f := fun sess => { sess with eap := some eap })
    fun sess => ⟨rfl, rfl, rfl, rfl⟩, session_modify hsess fun sess => rfl⟩
  rw [getNewSession_of_creates hcreates, heap, htimer]
  rfl

theorem getNewSession_freed (hclient : client < d.clients.length)
    (hcreates : Creates d msg w) (heap : w.eap = none) :
    ∃ d', getNewSession d client msg w = (none, d') ∧ ¬ Sound d' := by
  refine ⟨_, by rw [getNewSession_of_creates hcreates, heap], fun hsound => ?_⟩
  have hlinked := (hsound.live { freshSession d.created d.nextSessId with freed := true } ?_).linked
  · exact absurd hlinked (by simp)
  · show _ ∈ sessions (modifySession _ d.created _)
    rw [sessions_modify]
    refine List.mem_map.mpr ⟨freshSession d.created d.nextSessId,
      (sessions_linkSession hclient _).mem_iff.mpr List.mem_cons_self, ?_⟩
    exact if_pos rfl

theorem getNewSession_lost (h : Inv d) (hclient : client < d.clients.length)
    (hcreates : Creates d msg w) (htimer : ¬ w.memTimer = true)
    {eap : ℕ} (heap : w.eap = some eap) :
    ∃ d', getNewSession d client msg w = (some d.created, d') ∧ Lost d' := by
  have hlost : Lost (linkSession d client d.timers) :=
    ⟨freshSession d.created d.nextSessId,
      (sessions_linkSession hclient _).mem_iff.mpr List.mem_cons_self,
      fun hmem => Nat.lt_irrefl _ (h.timed _ hmem)⟩
  refine ⟨_, ?_, hlost.modify d.created (f := fun sess => { sess with eap := some eap })
    fun sess => rfl⟩
  rw [getNewSession_of_creates hcreates, heap, if_neg htimer]

/-! ## One operation -/

/-- Nothing fails on a request of a client. A new session gets its timeout and an EAP machine. -/
def ClientRequestOk (d : RadiusServerData) (client : ℕ) (msg : RadiusMsg) (fromPort : ℕ)
    (w : World) : Prop :=
  match getAttrOf msg attrState with
  | some state => ∀ serial ∈ stateSession d client state, ∀ sess ∈ session d serial,
      RequestOk sess msg fromPort false w
  | none => Creates d msg w →
      w.memTimer ∧ w.eap.isSome ∧
        RequestOk (freshSession d.created d.nextSessId) msg fromPort false w

theorem stateSession_session (h : Inv d) {state : Bytes}
    (hserial : stateSession d client state = some serial) :
    ∃ sess, session d serial = some sess := by
  rw [stateSession] at hserial
  split at hserial
  · obtain ⟨c, hc, hfound⟩ := Option.bind_eq_some_iff.mp hserial
    obtain ⟨sess, hsess, rfl⟩ := Option.map_eq_some_iff.mp hfound
    exact ⟨sess, h.session_eq (List.mem_flatMap.mpr
      ⟨c, List.mem_of_getElem? hc, List.mem_of_find?_eq_some hsess⟩)⟩
  · exact absurd hserial nofun

theorem radiusServerRequest_inv (h : Inv d) (hclient : client < d.clients.length)
    (hok : ClientRequestOk d client msg fromPort w) :
    ∃ r d', radiusServerRequest d client msg fromPort w = some (r, d') ∧ Inv d' := by
  rw [radiusServerRequest]
  rw [ClientRequestOk] at hok
  split
  case h_1 state hstate =>
    rw [hstate] at hok
    split
    case h_1 serial hserial =>
      obtain ⟨sess, hsess⟩ := stateSession_session h hserial
      exact sessionRequest_inv h hsess (hok serial hserial sess hsess)
    case h_2 => exact ⟨_, _, rfl, h⟩
  case h_2 hstate =>
    rw [hstate] at hok
    by_cases hcreates : Creates d msg w
    · obtain ⟨htimer, heap, hrequest⟩ := hok hcreates
      obtain ⟨eap, heap⟩ := Option.isSome_iff_exists.mp heap
      obtain ⟨d', hnew, hinv, hsess⟩ := h.getNewSession hclient hcreates htimer heap
      rw [hnew]
      exact sessionRequest_inv hinv hsess ⟨hrequest.removal, hrequest.stored⟩
    · rw [getNewSession_of_not_creates hcreates]
      exact ⟨_, _, rfl, h⟩

theorem radiusServerRequest_broken (h : Inv d) (hclient : client < d.clients.length)

    (hbad : ¬ ClientRequestOk d client msg fromPort w) :
    ¬ Promise ((radiusServerRequest d client msg fromPort w).map Prod.snd) := by
  intro hpromise
  refine hbad ?_
  rw [radiusServerRequest] at hpromise
  rw [ClientRequestOk]
  split
  case h_1 state hstate =>
    intro serial hserial sess hsess
    rw [hstate] at hpromise
    simp only [Option.mem_def.mp hserial] at hpromise
    exact by_contra fun hreq => sessionRequest_broken hsess hreq hpromise
  case h_2 hstate =>
    intro hcreates
    rw [hstate] at hpromise
    cases heap : w.eap with
    | none =>
      obtain ⟨d', hnew, hunsound⟩ := getNewSession_freed hclient hcreates heap
      rw [hnew] at hpromise
      exact absurd hpromise hunsound
    | some eap =>
      by_cases htimer : w.memTimer = true
      · obtain ⟨d', hnew, -, hsess⟩ := h.getNewSession hclient hcreates htimer heap
        rw [hnew] at hpromise
        refine ⟨htimer, rfl, by_contra fun hreq => sessionRequest_broken hsess ?_ hpromise⟩
        exact fun hok => hreq ⟨hok.removal, hok.stored⟩
      · obtain ⟨d', hnew, hlost⟩ := getNewSession_lost h hclient hcreates htimer heap
        rw [hnew] at hpromise
        exact absurd hpromise (hlost.sessionRequest d.created msg fromPort false w)

theorem pendingSession_taken (h : Inv d) {ctx : ℕ}
    (hpending : pendingSession d ctx = some (sess, msg)) :
    let d' := modifySession d sess.serial fun sess => { sess with lastMsg := none }
    Inv d' ∧ session d' sess.serial = some { sess with lastMsg := none } := by
  obtain ⟨found, hfound, hmsg⟩ := Option.bind_eq_some_iff.mp hpending
  obtain ⟨_, -, heq⟩ := Option.map_eq_some_iff.mp hmsg
  obtain rfl := congrArg Prod.fst heq
  exact ⟨h.modify _ fun sess => ⟨rfl, rfl, rfl, rfl⟩,
    session_modify (h.session_eq (List.mem_of_find?_eq_some hfound)) fun sess => rfl⟩

theorem Inv.timeout (h : Inv d) (kind : TimeoutKind) (serial : ℕ) : Inv
    (timeout d kind serial) := by
  rw [Server.timeout]
  split
  · refine h.remove serial (List.erase_subset) fun p hp hne => ?_
    exact (List.mem_erase_of_ne fun heq => hne (congrArg Prod.snd heq)).mpr hp
  · exact h

section Digests

variable (hmacMd5 : Bytes → Bytes → Digest)

/-- Nothing fails in an operation: on an Access-Request of a client, or on a stored request that is
taken up again. -/
def NoFailure : Option RadiusServerData → Op → Prop
  | some d, .receiveAuth buf addr addr6 fromPort w =>
    ∀ request ∈ accessRequest hmacMd5 d buf addr addr6 w,
      ClientRequestOk d request.1 request.2 fromPort w
  | some d, .eapPendingCb ctx w => ∀ pending ∈ pendingSession d ctx,
      RequestOk pending.1 pending.2 pending.1.lastFromPort true w
  | _, _ => True

theorem accessRequest_client {buf : Bytes} {addr : BitVec 32} {addr6 : BitVec 128} {w : World}
    {client : ℕ} {msg : RadiusMsg}
    (h : accessRequest hmacMd5 d buf addr addr6 w = some (client, msg)) :
    client < d.clients.length := by
  rw [accessRequest] at h
  split at h
  · obtain ⟨i, -, h⟩ := Option.bind_eq_some_iff.mp h
    obtain ⟨c, hc, h⟩ := Option.bind_eq_some_iff.mp h
    obtain ⟨m, -, h⟩ := Option.bind_eq_some_iff.mp h
    split at h
    · cases h
      exact (List.getElem?_eq_some_iff.mp hc).1
    · exact absurd h nofun
  · exact absurd h nofun

theorem exec_inv (h : Inv d) {op : Op} (hop : NoFailure hmacMd5 (some d) op) :
    ∃ d', exec hmacMd5 d op = some d' ∧ Inv d' := by
  cases op with
  | receiveAuth buf addr addr6 fromPort w =>
    cases hrequest : accessRequest hmacMd5 d buf addr addr6 w with
    | none => exact ⟨d, by rw [exec, receiveAuth, hrequest], h⟩
    | some request =>
      obtain ⟨r, d', hd', hinv⟩ := radiusServerRequest_inv h
        (accessRequest_client hmacMd5 hrequest) (hop request hrequest)
      refine ⟨d', ?_, hinv⟩
      rw [exec, receiveAuth, hrequest]
      exact congrArg (Option.map Prod.snd) hd'
  | eapPendingCb ctx w =>
    cases hpending : pendingSession d ctx with
    | none => exact ⟨d, by rw [exec, eapPendingCb, hpending], h⟩
    | some pending =>
      obtain ⟨hinv, hsess⟩ := pendingSession_taken h hpending
      have hok := hop pending hpending
      have hok' : RequestOk { pending.1 with lastMsg := none } pending.2 pending.1.lastFromPort true
          w := ⟨hok.removal, hok.stored⟩
      obtain ⟨r, d', hd', hinv'⟩ := sessionRequest_inv hinv hsess hok'
      refine ⟨d', ?_, hinv'⟩
      rw [exec, eapPendingCb, hpending]
      exact congrArg (Option.map Prod.snd) hd'
  | timeout kind serial => exact ⟨_, rfl, h.timeout kind serial⟩

theorem exec_broken (h : Inv d) {op : Op} (hop : ¬ NoFailure hmacMd5 (some d) op) :
    ¬ Promise (exec hmacMd5 d op) := by
  cases op with
  | receiveAuth buf addr addr6 fromPort w =>
    obtain ⟨request, hrequest, hbad⟩ : ∃ request,
        accessRequest hmacMd5 d buf addr addr6 w = some request ∧
          ¬ ClientRequestOk d request.1 request.2 fromPort w := by
      simpa only [NoFailure, Option.mem_def, not_forall, exists_prop] using hop
    rw [exec, receiveAuth, hrequest]
    exact radiusServerRequest_broken h (accessRequest_client hmacMd5 hrequest) hbad
  | eapPendingCb ctx w =>
    obtain ⟨pending, hpending, hbad⟩ : ∃ pending, pendingSession d ctx = some pending ∧
        ¬ RequestOk pending.1 pending.2 pending.1.lastFromPort true w := by
      simpa only [NoFailure, Option.mem_def, not_forall, exists_prop] using hop
    obtain ⟨-, hsess⟩ := pendingSession_taken h hpending
    rw [exec, eapPendingCb, hpending]
    exact sessionRequest_broken hsess fun hok => hbad ⟨hok.removal, hok.stored⟩
  | timeout kind serial => exact absurd trivial hop

/-! ## Runs -/

theorem inv_init (clients : List RadiusClient) (ipv6 : Bool) : Inv (init clients ipv6) := by
  have hempty : sessions (init clients ipv6) = [] := by
    simp [sessions, init]
  exact ⟨by rw [hempty]; rfl, show (0 : ℤ) ≤ maxSession by decide, by simp [hempty],
    by simp [hempty], by simp [hempty], rfl, nofun⟩

/-- Source: `radius_server_session_free`, `radius_server_session_remove`,
`radius_server_new_session`. In every run the table of sessions is sound after each operation
exactly when nothing fails in an operation: every new session gets an EAP machine, there is memory
for every timeout, and no stored request is stored again. -/
theorem run_sessions_iff (clients : List RadiusClient) (ipv6 : Bool) (ops : List Op) :
    Along (step hmacMd5) (fun s op => Promise (step hmacMd5 s op)) (some (init clients ipv6)) ops ↔
      Along (step hmacMd5) (NoFailure hmacMd5) (some (init clients ipv6)) ops := by
  refine along_congr (I := fun s => ∃ d, s = some d ∧ Inv d) ?_ ?_ ⟨_, rfl, inv_init clients ipv6⟩
    ops
  · rintro _ op ⟨d, rfl, hinv⟩ hop
    exact exec_inv hmacMd5 hinv hop
  · rintro _ op ⟨d, rfl, hinv⟩
    refine ⟨fun hpromise => by_contra fun hop => exec_broken hmacMd5 hinv hop hpromise,
      fun hop => ?_⟩
    obtain ⟨d', hd', hinv'⟩ := exec_inv hmacMd5 hinv hop
    show Promise (exec hmacMd5 d op)
    rw [hd']
    exact hinv'.sound

end Digests

/-! ## A session that is freed and stays linked -/

/-- An Access-Request with a User-Name and a Message-Authenticator. -/
def userRequest : Bytes :=
  [1, 0, 0, 41] ++ List.replicate 16 0 ++ [1, 3, 117] ++ [80, 18] ++ List.replicate 16 0

def accessPoint : RadiusClient := ⟨0, 0, 0, 0, [115], []⟩

/-- Everything but the EAP machine of a new session gets memory. -/
def noEapMachine : World :=
  ⟨true, true, true, true, true, true, none, ⟨false, false, false, false, false⟩, none⟩

theorem freed_session_linked :
    ¬ Along (step fun _ _ => Vector.replicate 16 0)
      (fun s op => Promise (step (fun _ _ => Vector.replicate 16 0) s op))
      (some (init [accessPoint] false)) [.receiveAuth userRequest 0 0 1812 noEapMachine] := by
  obtain ⟨d, hd, hcount⟩ : ∃ d, step (fun _ _ => Vector.replicate 16 0)
      (some (init [accessPoint] false)) (.receiveAuth userRequest 0 0 1812 noEapMachine) = some d ∧
        d.numSess ≠ (sessions d).length :=
    ⟨_, rfl, by decide⟩
  rintro ⟨hpromise, -⟩
  rw [hd] at hpromise
  exact hcount hpromise.count

end Hostapd.Radius.Server
