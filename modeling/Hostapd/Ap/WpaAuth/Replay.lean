import Hostapd.Ap.WpaAuth.Calls

/-!
# The WPA authenticator: replay protection

The replay counters of one station. Its trace is an exchange in the sense of
`Hostapd.Lib.ReplayWindow`: frames issue counters, replies that are let through are accepted, and
`wpa_auth_sta_associated` forgets all.

* **`Replay`** is the invariant: `key_replay` tracks the exchange, the counters issued are
  `1, 2, ..` (`Numbered`), and the counters of requests go up to the last one kept. **`replay_lifts`**
  says that everything a machine does keeps it.
* **`reply_counters`**: in every reachable state, the replies accepted since the window was cleared
  carry counters that were issued and that increase.
-/

namespace Hostapd.Ap.WpaAuth

open Hostapd.Lib

/-! ## Exchanges -/

/-- The part of an event in the exchange of counters. -/
def Ev.exchange : Ev → Option (Exchange ReplayCounter)
  | .issue c => some (.issue c)
  | .accept f => if f.keyInfo.isRequest then none else some (.accept f.replayCounter)
  | .reset => some .reset
  | _ => none

def exchanges (tr : List Ev) : List (Exchange ReplayCounter) := tr.filterMap Ev.exchange

/-- The counters of the requests accepted since `INITPMK` or `INITPSK` was last entered. -/
def requests : List Ev → List ReplayCounter
  | [] => []
  | .enter .initPmk :: _ => []
  | .enter .initPsk :: _ => []
  | .accept f :: t => if f.keyInfo.isRequest then f.replayCounter :: requests t else requests t
  | _ :: t => requests t

/-- The counters `1, 2, ..`, newest first, wrapped around. -/
def Numbered : List ReplayCounter → Prop
  | [] => True
  | c :: t => c = BitVec.ofNat 64 (t.length + 1) ∧ Numbered t

theorem Numbered.mem {l : List ReplayCounter} (h : Numbered l) {c : ReplayCounter} (hc : c ∈ l) :
    ∃ n, 0 < n ∧ n ≤ l.length ∧ c = BitVec.ofNat 64 n := by
  induction l with
  | nil => exact absurd hc List.not_mem_nil
  | cons d l ih =>
    rcases List.mem_cons.mp hc with rfl | hc
    · exact ⟨l.length + 1, Nat.succ_pos _, Nat.le_refl _, h.1⟩
    · obtain ⟨n, hpos, hn, heq⟩ := ih h.2 hc
      exact ⟨n, hpos, Nat.le_succ_of_le hn, heq⟩

theorem Numbered.pairwise {l : List ReplayCounter} (h : Numbered l) (hl : l.length < 2 ^ 64) :
    l.Pairwise (· > ·) := by
  induction l with
  | nil => exact List.Pairwise.nil
  | cons c l ih =>
    rw [List.length_cons] at hl
    refine List.pairwise_cons.mpr ⟨?_, ih h.2 (by omega)⟩
    intro d hd
    obtain ⟨n, -, hn, rfl⟩ := h.2.mem hd
    rw [h.1, gt_iff_lt, BitVec.lt_def, BitVec.toNat_ofNat, BitVec.toNat_ofNat,
      Nat.mod_eq_of_lt (by omega), Nat.mod_eq_of_lt (by omega)]
    omega

/-- The events that are neither in the exchange nor about requests. -/
def Ev.isQuiet : Ev → Bool
  | .issue _ | .reset | .accept _ | .enter .initPmk | .enter .initPsk => false
  | _ => true

theorem exchanges_append {es : List Ev} (hes : ∀ e ∈ es, e.isQuiet = true) (tr : List Ev) :
    exchanges (es ++ tr) = exchanges tr := by
  have hnone : es.filterMap Ev.exchange = [] := by
    refine List.filterMap_eq_nil_iff.mpr fun e he => ?_
    have hq := hes e he
    unfold Ev.isQuiet at hq
    split at hq <;> first | exact Bool.noConfusion hq | skip
    unfold Ev.exchange
    split <;> first | rfl | simp_all
  rw [exchanges, List.filterMap_append, hnone, List.nil_append]
  rfl

theorem requests_append {es : List Ev} (hes : ∀ e ∈ es, e.isQuiet = true) (tr : List Ev) :
    requests (es ++ tr) = requests tr := by
  induction es with
  | nil => rfl
  | cons e es ih =>
    have hq := hes e List.mem_cons_self
    have ih := ih fun e he => hes e (List.mem_cons_of_mem _ he)
    rw [List.cons_append, requests, ih]
    all_goals
      intros
      simp_all [Ev.isQuiet]

/-! ## The invariant -/

/-- The counters of a station's machine and what it has done. -/
structure Replay (sm : Sm) (tr : List Ev) : Prop where
  window : sm.keyReplay ≠ []
  head : (sm.keyReplay.headD ⟨0#64, false⟩).counter =
    BitVec.ofNat 64 (issued (exchanges tr)).length
  numbered : Numbered (issued (exchanges tr))
  tracks : Tracks sm.keyReplay (exchanges tr)
  responds : Responds (exchanges tr)
  used : ∀ c ∈ requests tr, sm.reqReplayCounterUsed = true ∧ c ≤ sm.reqReplayCounter
  increasing : (requests tr).Pairwise (· > ·)

namespace Replay

variable {sm sm' : Sm} {tr : List Ev}

theorem quiet (h : Replay sm tr) {es : List Ev} (hes : ∀ e ∈ es, e.isQuiet = true)
    (hwin : sm'.keyReplay = sm.keyReplay)
    (hused : sm'.reqReplayCounterUsed = sm.reqReplayCounterUsed)
    (hctr : sm'.reqReplayCounter = sm.reqReplayCounter) : Replay sm' (es ++ tr) := by
  constructor
  · exact hwin ▸ h.window
  · rw [hwin, exchanges_append hes]
    exact h.head
  · rw [exchanges_append hes]
    exact h.numbered
  · rw [hwin, exchanges_append hes]
    exact h.tracks
  · rw [exchanges_append hes]
    exact h.responds
  · rw [requests_append hes, hused, hctr]
    exact h.used
  · rw [requests_append hes]
    exact h.increasing

theorem same (h : Replay sm tr) (hwin : sm'.keyReplay = sm.keyReplay)
    (hused : sm'.reqReplayCounterUsed = sm.reqReplayCounterUsed)
    (hctr : sm'.reqReplayCounter = sm.reqReplayCounter) : Replay sm' tr := by
  have hnone : ∀ e ∈ ([] : List Ev), e.isQuiet = true := fun _ he => absurd he List.not_mem_nil
  exact h.quiet hnone hwin hused hctr

theorem log (h : Replay sm tr) (e : Ev) (he : e.isQuiet = true) : Replay sm (e :: tr) := by
  have hone : ∀ e' ∈ [e], e'.isQuiet = true := fun _ he' => (List.mem_singleton.mp he') ▸ he
  exact h.quiet hone rfl rfl rfl

theorem issue (h : Replay sm tr) :
    Replay { sm with keyReplay := shift sm.nextCounter sm.keyReplay }
      (.issue sm.nextCounter :: tr) := by
  have hnext : sm.nextCounter = BitVec.ofNat 64 ((issued (exchanges tr)).length + 1) := by
    rw [Sm.nextCounter, h.head, BitVec.ofNat_add]
  constructor
  · exact List.cons_ne_nil _ _
  · exact hnext
  · exact ⟨hnext, h.numbered⟩
  · exact h.tracks.issue sm.nextCounter
  · exact h.responds
  · exact h.used
  · exact h.increasing

theorem acceptReply (h : Replay sm tr) {f : EapolKey} (hreq : f.keyInfo.isRequest = false)
    (hscan : scan f.replayCounter sm.keyReplay = true) :
    Replay { sm with keyReplay := clearHead sm.keyReplay } (.accept f :: tr) := by
  have hex : exchanges (.accept f :: tr) = .accept f.replayCounter :: exchanges tr := by
    rw [exchanges, List.filterMap_cons_some (b := .accept f.replayCounter)]
    · rfl
    · rw [Ev.exchange, hreq]
      rfl
  have hrequests : requests (.accept f :: tr) = requests tr := by
    rw [requests, hreq]
    rfl
  constructor
  · intro hnil
    refine h.window ?_
    cases hw : sm.keyReplay with
    | nil => rfl
    | cons x w =>
      rw [show clearHead sm.keyReplay = { x with valid := false } :: w by rw [hw]; rfl] at hnil
      exact absurd hnil (List.cons_ne_nil _ _)
  · have hhead : ∀ w : List (Slot ReplayCounter),
        ((clearHead w).headD ⟨0#64, false⟩).counter = (w.headD ⟨0#64, false⟩).counter := by
      intro w
      cases w <;> rfl
    rw [hhead, hex]
    exact h.head
  · rw [hex]
    exact h.numbered
  · rw [hex]
    exact Tracks.accept f.replayCounter
  · rw [hex]
    exact h.tracks.responds h.responds hscan
  · rw [hrequests]
    exact h.used
  · rw [hrequests]
    exact h.increasing

theorem acceptRequest (h : Replay sm tr) {f : EapolKey} (hreq : f.keyInfo.isRequest = true)
    (hctr : (!(sm.reqReplayCounterUsed && f.replayCounter ≤ sm.reqReplayCounter)) = true) :
    Replay { sm with reqReplayCounterUsed := true, reqReplayCounter := f.replayCounter }
      (.accept f :: tr) := by
  have hex : exchanges (.accept f :: tr) = exchanges tr := by
    rw [exchanges, List.filterMap_cons_none]
    · rfl
    · rw [Ev.exchange, hreq]
      rfl
  have hrequests : requests (.accept f :: tr) = f.replayCounter :: requests tr := by
    rw [requests, hreq]
    rfl
  have hlt : ∀ c ∈ requests tr, c < f.replayCounter := by
    intro c hc
    obtain ⟨hused, hle⟩ := h.used c hc
    rw [hused, Bool.true_and, Bool.not_eq_true', decide_eq_false_iff_not, BitVec.not_le] at hctr
    exact Nat.lt_of_le_of_lt hle hctr
  constructor
  · exact h.window
  · rw [hex]
    exact h.head
  · rw [hex]
    exact h.numbered
  · rw [hex]
    exact h.tracks
  · rw [hex]
    exact h.responds
  · rw [hrequests]
    intro c hc
    rcases List.mem_cons.mp hc with rfl | hc
    · exact ⟨rfl, BitVec.le_refl _⟩
    · exact ⟨rfl, BitVec.le_of_lt (hlt c hc)⟩
  · rw [hrequests]
    exact List.pairwise_cons.mpr ⟨hlt, h.increasing⟩

theorem reset (h : Replay sm tr) : Replay { sm with keyReplay := emptyReplay } (.reset :: tr) where
  window := List.cons_ne_nil _ _
  head := rfl
  numbered := trivial
  tracks := Tracks.reset rfl
  responds := h.responds
  used := h.used
  increasing := h.increasing

theorem choosePmk (h : Replay sm tr) {st : PtkState} (hst : st = .initPmk ∨ st = .initPsk) :
    Replay { sm with reqReplayCounterUsed := false } (.enter st :: tr) := by
  have hrequests : requests (.enter st :: tr) = [] := by
    rcases hst with rfl | rfl <;> rfl
  refine ⟨h.window, h.head, h.numbered, h.tracks, h.responds, ?_, ?_⟩
  · rw [hrequests]
    exact fun c hc => absurd hc List.not_mem_nil
  · rw [hrequests]
    exact List.Pairwise.nil

end Replay

/-! ## What the machine does -/

section Moves

variable (S : Setup)

variable {l : Loc}

theorem Replay.send (h : Replay l.sm l.trace) (a : SendArgs) :
    Replay (wpaSendEapol S l a).sm (wpaSendEapol S l a).trace := by
  rw [wpaSendEapol_sm, wpaSendEapol]
  cases l.sm.signedFrame S l.group.counter a with
  | none => exact h.issue
  | some f => exact (h.issue.log (.setEapol .incEapolFramesTx 1) rfl).log _ rfl

theorem Replay.sendOpt (h : Replay l.sm l.trace) (a : Option SendArgs) :
    Replay (sendOpt S l a).sm (sendOpt S l a).trace := by
  cases a with
  | none => exact h
  | some a => exact h.send S a

theorem Replay.ptkStep (h : Replay l.sm l.trace) :
    Replay (ptkStep S l).sm (ptkStep S l).trace := by
  have hm := ptkStep_move S l
  generalize WpaAuth.ptkStep S l = l' at hm
  cases hm with
  | stay => exact h
  | initialise =>
    rw [enterInitialise_sm, enterInitialise_trace]
    have hev : ∀ e ∈ (if l.sm.wpaKeyMgmt.wpaPsk then [Ev.setEapol .authorized 0] else []) ++
        [.setEapol .portValid 0, .setKey none, .setEapol .portEnabled 0, .enter .initialise],
        e.isQuiet = true := by
      split <;> simp [Ev.isQuiet]
    have hq : Replay l.sm.initialised _ := h.quiet hev rfl rfl rfl
    rwa [List.append_assoc] at hq
  | disconnect =>
    rw [enterDisconnect_trace]
    exact ((h.log (.enter .disconnect) rfl).log .disconnect rfl).same rfl rfl rfl
  | disconnected => exact (h.log (.enter .disconnected) rfl).same rfl rfl rfl
  | authentication =>
    rw [enterAuthentication_trace]
    have hlog := (h.log (.enter .authentication) rfl).log (.setEapol .portControlAuto 1) rfl
    exact (hlog.log (.setEapol .portEnabled 1) rfl).same rfl rfl rfl
  | authentication2 =>
    rw [enterAuthentication2_sm, enterAuthentication2_trace]
    exact ((h.log (.enter .authentication2) rfl).log (.aNonce _) rfl).same rfl rfl rfl
  | initPmk n =>
    have hpmk := h.choosePmk (.inl rfl : PtkState.initPmk = .initPmk ∨ _)
    exact (hpmk.log (.setEapol .keyRun 0) rfl).same rfl rfl rfl
  | initPsk n =>
    have hpsk := h.choosePmk (.inr rfl : PtkState.initPsk = .initPmk ∨ _)
    exact hpsk.same rfl rfl rfl
  | ptkStart n =>
    obtain ⟨a, -, ha⟩ := enterPtkStart_eq S (l.atMoment n)
    rw [ha]
    refine Replay.sendOpt S ?_ a
    exact (h.log (.enter .ptkStart) rfl).same rfl rfl rfl
  | ptkCalc =>
    rcases enterPtkCalcNegotiating_cases S l with ⟨-, hsm, -, htr⟩ | ⟨pmk, -, hsm, -, htr⟩
    · rw [hsm, htr]
      exact (h.log (.enter .ptkCalcNegotiating) rfl).same rfl rfl rfl
    · rw [hsm, htr]
      exact ((h.log (.enter .ptkCalcNegotiating) rfl).log (.selected _ _) rfl).same rfl rfl rfl
  | ptkCalc2 => exact (h.log (.enter .ptkCalcNegotiating2) rfl).same rfl rfl rfl
  | ptkInitNeg =>
    obtain ⟨n, a, -, ha⟩ := enterPtkInitNegotiating_eq S l
    rw [ha]
    refine Replay.sendOpt S ?_ a
    exact (h.log (.enter .ptkInitNegotiating) rfl).same rfl rfl rfl
  | ptkDone =>
    obtain ⟨⟨ps, pk, pd, hsm⟩, -, es, hes, htr⟩ := enterPtkInitDone_spec S l
    rw [hsm, htr]
    refine (h.log (.enter .ptkInitDone) rfl).quiet ?_ rfl rfl rfl
    intro e he
    rcases hes e he with rfl | rfl | ⟨var, x, rfl⟩ <;> rfl

theorem Replay.ptkGroupStep (h : Replay l.sm l.trace) :
    Replay (ptkGroupStep S l).sm (ptkGroupStep S l).trace := by
  have hm := ptkGroupStep_move S l
  generalize WpaAuth.ptkGroupStep S l = l' at hm
  cases hm with
  | stay => exact h
  | reset => exact h.same rfl rfl rfl
  | idle => exact h.same rfl rfl rfl
  | rekey =>
    obtain ⟨n, a, -, ha⟩ := enterRekeyNegotiating_eq S l
    rw [ha]
    have hsm : Replay l.sm.rekeying l.trace := h.same rfl rfl rfl
    exact Replay.sendOpt S hsm a
  | established => exact h.same rfl rfl rfl
  | keyError => exact h.same rfl rfl rfl

theorem Replay.stepMachines (h : Replay l.sm l.trace) :
    Replay (stepMachines S l).sm (stepMachines S l).trace := by
  have hsm : Replay { l.sm with changed := false } l.trace := h.same rfl rfl rfl
  have hstep := Replay.ptkStep S (l := { l with sm := { l.sm with changed := false } }) hsm
  unfold WpaAuth.stepMachines
  dsimp only
  split
  · exact hstep
  · exact hstep.ptkGroupStep S

theorem Replay.eventRequest (h : Replay l.sm l.trace) (ev : WpaEvent) :
    Replay (eventRequest ev l).sm (eventRequest ev l).trace := by
  cases ev <;> exact h.same rfl rfl rfl

theorem Replay.eventEnd (h : Replay l.sm l.trace) (ev : WpaEvent) :
    Replay (eventEnd ev l).sm (eventEnd ev l).trace := by
  have hsame : Replay { l.sm with ptkValid := false, ptk := Ptk.zero } l.trace :=
    h.same rfl rfl rfl
  unfold WpaAuth.eventEnd
  dsimp only
  split
  · exact hsame
  · exact (hsame.log (.setKey none) rfl).same rfl rfl rfl

theorem Replay.acceptFrame (h : Replay l.sm l.trace) {f : EapolKey}
    (hf : admits l.sm f = true) :
    Replay (acceptFrame l f).1.sm (acceptFrame l f).1.trace := by
  have hctr := (Bool.and_eq_true _ _ ▸ hf).2
  unfold WpaAuth.acceptFrame
  dsimp only
  by_cases hreq : f.keyInfo.isRequest = true
  · rw [if_pos hreq] at hctr ⊢
    have hacc := h.acceptRequest hreq hctr
    split
    · exact hacc.same rfl rfl rfl
    · exact hacc
  · rw [if_neg hreq] at hctr ⊢
    exact h.acceptReply (Bool.eq_false_iff.mpr hreq) hctr

theorem Replay.receiveFrame (h : Replay l.sm l.trace) {f : EapolKey}
    (hf : admits l.sm f = true) :
    Replay (receiveFrame S l f).1.sm (receiveFrame S l f).1.trace := by
  have hm := receiveFrame_move S l f
  generalize WpaAuth.receiveFrame S l f = r at hm
  cases hm with
  | drop => exact h
  | disconnect g hg => exact (h.log .disconnect rfl).same rfl rfl rfl
  | badMic => exact h.same rfl rfl rfl
  | accept hp =>
    refine Replay.acceptFrame (l := { l with sm := { l.sm with micVerified := l.sm.ptkValid } })
      (h.same rfl rfl rfl) ?_
    exact hf

theorem replay_lifts (P : Auth → Op → Prop) : Lifts S P Replay Replay where
  zero _ := {
    window := List.cons_ne_nil _ _
    head := rfl
    numbered := trivial
    tracks := fun c hc => absurd hc List.not_mem_nil
    responds := trivial
    used := fun c hc => absurd hc List.not_mem_nil
    increasing := List.Pairwise.nil }
  ready h := h
  loop _ h := h.same rfl rfl rfl
  step _ h _ := h.stepMachines S
  leave h _ := h.same rfl rfl rfl
  send _ a h := h.send S a
  mark _ h := h.same rfl rfl rfl
  vlan _ h := h.same rfl rfl rfl
  associate _ h _ := h.same rfl rfl rfl
  noWpa h _ := h.same rfl rfl rfl
  removePtk _ h _ := (h.log (.setKey none) rfl).same rfl rfl rfl
  timeout h _ := h.same rfl rfl rfl
  newPtk h _ := h.same rfl rfl rfl
  start h _ := h.same rfl rfl rfl
  associated _ h _ := h.reset.same rfl rfl rfl
  startEvent ev _ h _ := (h.log (.reported ev) rfl).same rfl rfl rfl
  event l ev h _ :=
    Replay.eventEnd (Replay.eventRequest (l := l.log (.reported ev)) (h.log _ rfl) ev) ev
  initDone h _ _ := h.same rfl rfl rfl
  initDoneEvent l ev h _ _ :=
    Replay.eventEnd (l := { l with sm := l.sm.initDone }) (h.same rfl rfl rfl) ev
  receive l f h _ hf _ := by
    have hr := h.receiveFrame S hf
    generalize receiveFrame S l f = r at hr
    obtain ⟨l', next⟩ := r
    cases next with
    | stop => exact hr
    | smk => exact hr
    | smkKeep => exact hr
    | micFailure => exact hr.same rfl rfl rfl
    | rekeyGtk => exact hr
    | keep => exact hr.same rfl rfl rfl
  tail _ h _ := h.same rfl rfl rfl

end Moves

/-! ## Replay protection -/

variable {S : Setup} {P : Auth → Op → Prop} {s : Auth} {id : StaId}

theorem Reach.replay (h : Reach S P s) (hid : id ∈ s.stas) : Replay (s.sm id) (s.trace id) :=
  ((replay_lifts S P).reach h).calm id hid

/-- The replies accepted since the replay window was cleared carry counters the authenticator has
issued, and successive ones carry increasing counters. -/
theorem reply_counters (h : Reach S P s) (hid : id ∈ s.stas)
    (hsent : (issued (exchanges (s.trace id))).length < 2 ^ 64) :
    (accepted (exchanges (s.trace id))).Pairwise (· > ·) ∧
      ∀ c ∈ accepted (exchanges (s.trace id)), c ∈ issued (exchanges (s.trace id)) := by
  have hr := h.replay hid
  refine ⟨hr.responds.pairwise_accepted (hr.numbered.pairwise hsent), ?_⟩
  intro c hc
  exact hr.responds.mem_issued hc

/-- Replay protection. In an association in which fewer than `2 ^ 64` frames were sent, the replies
that were let through carry counters the authenticator has issued, and successive ones carry
increasing counters. The requests let through since a PMK was chosen carry increasing counters. -/
theorem replay_protection (h : Reach S P s) (hid : id ∈ s.stas) :
    ((issued (exchanges (s.trace id))).length < 2 ^ 64 →
      (accepted (exchanges (s.trace id))).Pairwise (· > ·) ∧
        ∀ c ∈ accepted (exchanges (s.trace id)), c ∈ issued (exchanges (s.trace id))) ∧
      (requests (s.trace id)).Pairwise (· > ·) :=
  ⟨reply_counters h hid, (h.replay hid).increasing⟩

/-- The trace of a station that completes the 4-way handshake. -/
def Small.connected : List Ev :=
  (calls Small.setup 20 (wpaInit Small.group) (Small.connect 0 2#48)).trace 0

theorem replay_protection_connected :
    ((issued (exchanges Small.connected)).length < 2 ^ 64 →
      (accepted (exchanges Small.connected)).Pairwise (· > ·) ∧
        ∀ c ∈ accepted (exchanges Small.connected), c ∈ issued (exchanges Small.connected)) ∧
      (requests Small.connected).Pairwise (· > ·) := by
  have hreach : Reach Small.setup (fun _ _ => True) _ :=
    Small.reach_init.afterCalls (fun _ _ => true) (fun _ _ _ => trivial) 20
      (Small.connect 0 2#48) (by decide +kernel)
  exact replay_protection hreach (by decide +kernel)

end Hostapd.Ap.WpaAuth
