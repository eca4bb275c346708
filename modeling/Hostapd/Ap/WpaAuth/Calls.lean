import Hostapd.Ap.WpaAuth.Lift

/-!
# The WPA authenticator: invariants along a run

The calls from outside keep an invariant of the machines of the stations, as the tasks do, and so
it holds in every reachable state: **`Lifts.reach`**.
-/

namespace Hostapd.Ap.WpaAuth

open Hostapd.Lib

variable {S : Setup} {P : Auth → Op → Prop} {Ready Calm : Sm → List Ev → Prop}

/-! ## Calls -/

theorem Control.pushTail {s u : Auth} (h : Control s) (hs : s.stack = []) {t : Task}
    {i : StaId} (ht : t.loop? = none) (hstas : u.stas = s.stas) (hstack : u.stack = [])
    (hsm : ∀ j, j ≠ i → u.sm j = s.sm j)
    (hid : (u.sm i).inStepLoop = (s.sm i).inStepLoop ∧
      (u.sm i).changed = (s.sm i).changed ∧
      (u.sm i).pendingDeinit = (s.sm i).pendingDeinit)
    (hinit : t.Inits i ∨ (u.sm i).init = (s.sm i).init)
    (hreq : ∀ j f, t = .receiveTail j f → f.keyInfo.isRequest = true) : Control (u.push t) := by
  have hloops : loops (u.push t).stack = [] := by
    rw [Auth.push_stack, loops_cons_of_none ht, hstack]
    rfl
  have hsame : ∀ j, (u.sm j).inStepLoop = (s.sm j).inStepLoop ∧
      (u.sm j).changed = (s.sm j).changed ∧
      (u.sm j).pendingDeinit = (s.sm j).pendingDeinit := by
    intro j
    by_cases hne : j = i
    · exact hne ▸ hid
    · rw [hsm j hne]
      exact ⟨rfl, rfl, rfl⟩
  have hidle : ∀ j ∈ u.stas, Idle (s.sm j) := fun j hj => h.idle hs (hstas ▸ hj)
  constructor
  · exact hstas ▸ h.nodup
  · intro j hj
    rw [hloops, Auth.push_sm, (hsame j).1, (hidle j hj).loop]
    exact ⟨nofun, fun hm => absurd hm List.not_mem_nil⟩
  · rw [hloops]
    exact List.nodup_nil
  · intro j hj
    rw [hloops] at hj
    exact absurd hj List.not_mem_nil
  · intro j hj _
    rw [Auth.push_sm, (hsame j).2.1]
    exact (hidle j hj).changed
  · intro j hj
    rw [Auth.push_sm, (hsame j).2.2]
    exact (hidle j hj).alive
  · intro j hj hi
    refine ⟨t, List.mem_cons_self, ?_⟩
    by_cases hne : j = i
    · subst hne
      rcases hinit with hinit | hinit
      · exact hinit
      · rw [Auth.push_sm, hinit, (hidle j hj).init] at hi
        exact Bool.noConfusion hi
    · rw [Auth.push_sm, hsm j hne, (hidle j hj).init] at hi
      exact Bool.noConfusion hi
  · intro u hu
    rw [Auth.push_stack, hstack] at hu
    exact absurd hu List.not_mem_nil
  · intro j f hf
    rw [Auth.push_stack, hstack] at hf
    rcases List.mem_cons.mp hf with hf | hf
    · exact hreq j f hf.symm
    · exact absurd hf List.not_mem_nil

variable {id : StaId}

theorem Lifts.call (h : Lifts S P Ready Calm) {s u : Auth} (hg : Good Calm s)
    (hs : s.stack = []) (hid : id ∈ s.stas) (hstas : u.stas = s.stas)
    (hstack : u.stack = s.stack) (hsm : ∀ j, j ≠ id → u.sm j = s.sm j)
    (htr : ∀ j, j ≠ id → u.trace j = s.trace j) (hctl : SameControl (s.sm id) (u.sm id))
    (hready : Idle (s.sm id) → Calm (s.sm id) (s.trace id) →
      Ready (u.sm id) (u.trace id)) :
    Good Calm (wpaSmStep S id u) := by
  have hidle := hg.control.idle hs hid
  have hc : Control u := by
    refine hg.control.congr hstas hstack fun j _ => ?_
    by_cases hne : j = id
    · exact hne ▸ hctl
    · exact hsm j hne ▸ SameControl.rfl
  refine h.smStep (hstas ▸ hid) hc (hctl.loop.trans hidle.loop)
    (hready hidle (hg.calm id hid)) ?_
  intro j hj hne
  rw [hstas] at hj
  rw [hsm j hne, htr j hne]
  exact hg.calm j hj

variable {s : Auth}

theorem Lifts.callStart (h : Lifts S P Ready Calm) (hg : Good Calm s)
    (hs : s.stack = []) (hid : id ∈ s.stas) {t : Task} (ht : t.loop? = none) (hti : t.Inits id)
    (hready : Idle (s.sm id) → Calm (s.sm id) (s.trace id) →
      Ready (s.sm id).start (s.trace id)) :
    Good Calm (wpaSmStep S id ((s.setSm id Sm.start).push t)) := by
  have hidle := hg.control.idle hs hid
  have hsm : (s.setSm id Sm.start).sm id = (s.sm id).start := Auth.setSm_sm_self s id _
  have hc : Control ((s.setSm id Sm.start).push t) := by
    refine hg.control.pushTail hs (i := id) ht rfl hs
      (fun j hne => Auth.setSm_sm_of_ne s _ hne) ?_ (.inl hti) ?_
    · rw [hsm]
      exact ⟨rfl, rfl, rfl⟩
    · rintro j f rfl
      rcases hti with hti | ⟨ev, hti⟩ <;> exact Task.noConfusion hti
  refine h.smStep (s := (s.setSm id Sm.start).push t) hid hc ?_ ?_ ?_
  · rw [Auth.push_sm, hsm]
    exact hidle.loop
  · rw [Auth.push_sm, hsm]
    exact hready hidle (hg.calm id hid)
  · intro j hj hne
    rw [Auth.push_sm, Auth.setSm_sm_of_ne s _ hne]
    exact hg.calm j hj

theorem Good.callChange {s u : Auth} {i : StaId} (hg : Good Calm s) (hs : s.stack = [])
    (hstas : u.stas = s.stas) (hstack : u.stack = s.stack)
    (hsm : ∀ j, j ≠ i → u.sm j = s.sm j) (htr : ∀ j, j ≠ i → u.trace j = s.trace j)
    (hctl : SameControl (s.sm i) (u.sm i))
    (hcalm : Idle (s.sm i) → Calm (s.sm i) (s.trace i) → Calm (u.sm i) (u.trace i)) :
    Good Calm u :=
  hg.change hstas hstack hsm htr hctl fun hid =>
    hcalm (hg.control.idle hs hid) (hg.calm i hid)

theorem Lifts.afterSends (h : Lifts S P Ready Calm) (hg : Good Calm s)
    (l : List (StaId × SendArgs)) :
    Good Calm (sendAll S s l) ∧ (sendAll S s l).stas = s.stas ∧
      (sendAll S s l).stack = s.stack := by
  induction l generalizing s with
  | nil => exact ⟨hg, rfl, rfl⟩
  | cons a l ih =>
    have hone : Good Calm (s.onSta a.1 fun l => wpaSendEapol S l a.2) := by
      refine hg.change (i := a.1) rfl rfl (fun j hne => Auth.onSta_sm_of_ne s hne _)
        (fun j hne => Auth.onSta_trace_of_ne s hne _) ?_ ?_
      · rw [Auth.onSta_sm_self, wpaSendEapol_sm]
        exact ⟨rfl, rfl, rfl, fun hi => hi⟩
      · intro hid
        rw [Auth.onSta_sm_self, Auth.onSta_trace_self]
        exact h.send (s.loc a.1) a.2 (hg.calm a.1 hid)
    exact ih hone

theorem Lifts.afterSmk (h : Lifts S P Ready Calm) (hg : Good Calm s) (id : StaId)
    (f : EapolKey) :
    Good Calm (smkHandler S id f s) ∧ (smkHandler S id f s).stas = s.stas ∧
      (smkHandler S id f s).stack = s.stack := by
  obtain ⟨hgood, hstas, hstack⟩ := h.afterSends hg
    (smkSends S s.findSta (S.cb s.now) id (s.sm id).addr f)
  exact ⟨hgood.groups rfl rfl rfl rfl, hstas, hstack⟩

theorem acceptFrame_control (l : Loc) (f : EapolKey) :
    SameControl l.sm (acceptFrame l f).1.sm ∧ (acceptFrame l f).2 ≠ .stop := by
  unfold acceptFrame requestNext
  dsimp only
  split
  · split
    · refine ⟨⟨rfl, rfl, rfl, fun h => h⟩, ?_⟩
      repeat' split
      all_goals exact nofun
    · refine ⟨⟨rfl, rfl, rfl, fun h => h⟩, ?_⟩
      repeat' split
      all_goals exact nofun
  · refine ⟨⟨rfl, rfl, rfl, fun h => h⟩, ?_⟩
    split <;> exact nofun

def Next.ofRequest : Next → Bool
  | .smkKeep | .micFailure | .rekeyGtk => true
  | .stop | .smk | .keep => false

theorem acceptFrame_request {l : Loc} {f : EapolKey}
    (h : (acceptFrame l f).2.ofRequest = true) : f.keyInfo.isRequest = true := by
  by_contra hreq
  unfold acceptFrame at h
  dsimp only at h
  rw [if_neg hreq] at h
  split at h <;> exact Bool.noConfusion h

theorem receiveFrame_control (l : Loc) (f : EapolKey) :
    (receiveFrame S l f).1.sm.inStepLoop = l.sm.inStepLoop ∧
      (receiveFrame S l f).1.sm.changed = l.sm.changed ∧
      (receiveFrame S l f).1.sm.init = l.sm.init ∧
      ((receiveFrame S l f).1.sm.pendingDeinit = l.sm.pendingDeinit ∨
        (receiveFrame S l f).2 = .stop) ∧
      ((receiveFrame S l f).2.ofRequest = true → f.keyInfo.isRequest = true) := by
  have h := receiveFrame_move S l f
  generalize receiveFrame S l f = r at h
  cases h with
  | drop => exact ⟨rfl, rfl, rfl, .inl rfl, nofun⟩
  | disconnect => exact ⟨rfl, rfl, rfl, .inr rfl, nofun⟩
  | badMic => exact ⟨rfl, rfl, rfl, .inl rfl, nofun⟩
  | accept =>
    obtain ⟨hctl, -⟩ :=
      acceptFrame_control { l with sm := { l.sm with micVerified := l.sm.ptkValid } } f
    have hinit : (acceptFrame { l with sm := { l.sm with micVerified := l.sm.ptkValid } } f).1.sm.init
        = l.sm.init := by
      unfold acceptFrame
      dsimp only
      split
      · split <;> rfl
      · rfl
    exact ⟨hctl.loop, hctl.changed, hinit, .inl hctl.alive, acceptFrame_request⟩

theorem Lifts.receiveSta (h : Lifts S P Ready Calm) (hg : Good Calm s)
    (hs : s.stack = []) (hid : id ∈ s.stas) (data : Bytes) :
    Good Calm (wpaReceiveSta S id data s) := by
  have hidle := hg.control.idle hs hid
  unfold wpaReceiveSta wpaReceive
  cases hadm : admitted S (s.loc id).sm data with
  | none => exact hg
  | some f =>
    have hadmits : admits (s.sm id) f = true := by
      unfold admitted at hadm
      split at hadm
      · exact nomatch hadm
      · exact (Option.filter_eq_some_iff.mp hadm).2
    obtain ⟨hloop, hchanged, hinit, hpd, hreq⟩ := receiveFrame_control (S := S) (s.loc id) f
    have hrec := h.receive (s.loc id) f (hg.calm id hid) hidle hadmits
    simp only [Option.map_some]
    generalize receiveFrame S (s.loc id) f = r at hloop hchanged hinit hpd hreq hrec
    obtain ⟨l, next⟩ := r
    set s1 := s.put id l with hs1
    have hsm1 : s1.sm id = l.sm := Auth.put_sm_self s id l
    have htr1 : s1.trace id = l.trace := Auth.put_trace_self s id l
    have hsm : ∀ j, j ≠ id → s1.sm j = s.sm j := fun j hne => Auth.put_sm_of_ne s l hne
    have htr : ∀ j, j ≠ id → s1.trace j = s.trace j := fun j hne => Auth.put_trace_of_ne s l hne
    by_cases hdead : l.sm.pendingDeinit = true
    · -- the callback has removed the station
      have hnext : next = .stop := by
        rcases hpd with hpd | hpd
        · rw [show l.sm.pendingDeinit = (s.sm id).pendingDeinit from hpd, hidle.alive] at hdead
          exact Bool.noConfusion hdead
        · exact hpd
      subst hnext
      have hbut : GoodBut Calm id s := by
        refine ⟨hg.control.but ?_, fun j hj _ => hg.calm j hj⟩
        rw [hs]
        exact List.not_mem_nil
      have hfree := (hbut.congr (u := s1) rfl rfl hsm htr).free
      rw [← hsm1] at hdead
      simp only [afterReceive, if_pos hdead]
      exact hfree
    have hdead : l.sm.pendingDeinit = false := Bool.eq_false_iff.mpr hdead
    have hafter := hrec hdead
    have hctl : SameControl (s.sm id) (s1.sm id) := by
      rw [hsm1]
      refine ⟨hloop, hchanged, hdead.trans hidle.alive.symm, ?_⟩
      intro hi
      exact hinit ▸ hi
    have hkeep : ∀ s2 : Auth, s2.stas = s.stas → s2.stack = s.stack →
        (∀ j, j ≠ id → s2.sm j = s.sm j) → (∀ j, j ≠ id → s2.trace j = s.trace j) →
        SameControl (s.sm id) (s2.sm id) → Ready (s2.sm id) (s2.trace id) →
        Good Calm (wpaSmStep S id s2) := fun s2 h1 h2 h3 h4 h5 h6 =>
      h.call hg hs hid h1 h2 h3 h4 h5 fun _ _ => h6
    cases next with
    | stop =>
      have hcalm : Calm l.sm l.trace := hafter
      have hne : ¬ (s1.sm id).pendingDeinit = true := by
        rw [hsm1, hdead]
        exact Bool.false_ne_true
      simp only [afterReceive, if_neg hne]
      refine hg.change (i := id) rfl rfl hsm htr hctl fun _ => ?_
      rw [hsm1, htr1]
      exact hcalm
    | smk =>
      have hcalm : Calm l.sm l.trace := hafter
      refine (h.afterSmk (hg.change (i := id) (u := s1) rfl rfl hsm htr hctl fun _ => ?_)
        id f).1
      rw [hsm1, htr1]
      exact hcalm
    | smkKeep =>
      have hcalm : Calm l.sm l.trace := hafter
      have hg1 : Good Calm s1 := hg.change (i := id) rfl rfl hsm htr hctl fun _ => by
        rw [hsm1, htr1]
        exact hcalm
      obtain ⟨hg2, hstas2, hstack2⟩ := h.afterSmk hg1 id f
      have hid2 : id ∈ (smkHandler S id f s1).stas := hstas2 ▸ hid
      refine h.call hg2 (hstack2.trans hs) hid2 (u := (smkHandler S id f s1).setSm id
        (keepFrame f)) rfl rfl (fun j hne => Auth.setSm_sm_of_ne _ _ hne) (fun _ _ => rfl) ?_ ?_
      · rw [Auth.setSm_sm_self]
        exact ⟨rfl, rfl, rfl, fun hi => hi⟩
      · intro _ hcalm2
        rw [Auth.setSm_sm_self]
        exact h.tail f hcalm2 (hreq rfl)
    | micFailure =>
      have hready : Ready (keepFrame f l.sm.wpaRequestNewPtk) l.trace := hafter
      have hmsm : (micFailureReport S s1).sm = s1.sm := by
        unfold micFailureReport
        split <;> rfl
      have hmtr : (micFailureReport S s1).trace = s1.trace := by
        unfold micFailureReport
        split <;> rfl
      have hmstas : (micFailureReport S s1).stas = s1.stas := by
        unfold micFailureReport
        split <;> rfl
      have hmstack : (micFailureReport S s1).stack = s1.stack := by
        unfold micFailureReport
        split <;> rfl
      refine hkeep (((micFailureReport S s1).setSm id Sm.wpaRequestNewPtk).setSm id (keepFrame f))
        hmstas hmstack ?_ ?_ ?_ ?_
      · intro j hne
        rw [Auth.setSm_sm_of_ne _ _ hne, Auth.setSm_sm_of_ne _ _ hne, hmsm]
        exact hsm j hne
      · intro j hne
        rw [Auth.setSm_trace, Auth.setSm_trace, hmtr]
        exact htr j hne
      · rw [Auth.setSm_sm_self, Auth.setSm_sm_self, hmsm]
        exact ⟨hctl.loop, hctl.changed, hctl.alive, hctl.init⟩
      · rw [Auth.setSm_sm_self, Auth.setSm_sm_self, Auth.setSm_trace, Auth.setSm_trace, hmsm,
          hmtr, hsm1, htr1]
        exact hready
    | rekeyGtk =>
      have hcalm : Calm l.sm l.trace := hafter
      have hg1 : Good Calm s1 := hg.change (i := id) rfl rfl hsm htr hctl fun _ => by
        rw [hsm1, htr1]
        exact hcalm
      have htail : Control (s1.push (.receiveTail id f)) := by
        refine hg1.control.pushTail hs (i := id) rfl rfl hs (fun _ _ => rfl)
          ⟨rfl, rfl, rfl⟩ (.inr rfl) ?_
        intro j f' hf
        rw [← (Task.receiveTail.inj hf).2]
        exact hreq rfl
      exact ⟨htail.push (t := .rekeyGroups s1.groups) rfl rfl, hg1.calm⟩
    | keep =>
      have hready : Ready (keepFrame f l.sm) l.trace := hafter
      refine hkeep (s1.setSm id (keepFrame f)) rfl rfl ?_ ?_ ?_ ?_
      · intro j hne
        rw [Auth.setSm_sm_of_ne _ _ hne]
        exact hsm j hne
      · exact htr
      · rw [Auth.setSm_sm_self]
        exact ⟨hctl.loop, hctl.changed, hctl.alive, hctl.init⟩
      · rw [Auth.setSm_sm_self, Auth.setSm_trace, hsm1, htr1]
        exact hready

/-! ## All calls -/

theorem nodup_insert {l : List StaId} (h : l.Nodup) (hid : id ∉ l) (pos : ℕ) :
    (l.insertIdx (min pos l.length) id).Nodup :=
  (List.perm_insertIdx id l (Nat.min_le_right ..)).nodup_iff.mpr (List.nodup_cons.mpr ⟨hid, h⟩)

theorem mem_insert {l : List StaId} {id j : StaId} {pos : ℕ} :
    j ∈ l.insertIdx (min pos l.length) id ↔ j = id ∨ j ∈ l := by
  rw [(List.perm_insertIdx id l (Nat.min_le_right ..)).mem_iff, List.mem_cons]

theorem Lifts.init (h : Lifts S P Ready Calm) (hg : Good Calm s)
    (hs : s.stack = []) (hid : id ∉ s.stas) (addr : MacAddr) (pos : ℕ) :
    Good Calm (wpaAuthStaInit id addr pos s) := by
  set s1 := wpaAuthStaInit id addr pos s with hs1
  have hsm : s1.sm id = Sm.zero addr := Function.update_self ..
  have htr : s1.trace id = [] := Function.update_self ..
  have hsm' : ∀ j, j ≠ id → s1.sm j = s.sm j := fun j hne => Function.update_of_ne hne ..
  have htr' : ∀ j, j ≠ id → s1.trace j = s.trace j := fun j hne => Function.update_of_ne hne ..
  have hstack : s1.stack = [] := hs
  have hloops : loops s1.stack = [] := by rw [hstack]; rfl
  have hidle : ∀ j ∈ s1.stas, Idle (s1.sm j) := by
    intro j hj
    by_cases hne : j = id
    · subst hne
      rw [hsm]
      exact ⟨rfl, rfl, rfl, rfl⟩
    · rw [hsm' j hne]
      exact hg.control.idle hs ((mem_insert.mp hj).resolve_left hne)
  refine ⟨?_, ?_⟩
  · constructor
    · exact nodup_insert hg.control.nodup hid pos
    · intro j hj
      rw [hloops, (hidle j hj).loop]
      exact ⟨nofun, fun hm => absurd hm List.not_mem_nil⟩
    · rw [hloops]
      exact List.nodup_nil
    · intro j hj
      rw [hloops] at hj
      exact absurd hj List.not_mem_nil
    · exact fun j hj _ => (hidle j hj).changed
    · exact fun j hj => (hidle j hj).alive
    · intro j hj hi
      rw [(hidle j hj).init] at hi
      exact Bool.noConfusion hi
    · rw [hstack]
      exact fun t ht => absurd ht List.not_mem_nil
    · rw [hstack]
      exact fun j f hf => absurd hf List.not_mem_nil
  · intro j hj
    by_cases hne : j = id
    · subst hne
      rw [hsm, htr]
      exact h.zero addr
    · rw [hsm' j hne, htr' j hne]
      exact hg.calm j ((mem_insert.mp hj).resolve_left hne)

theorem Lifts.staAssociated (h : Lifts S P Ready Calm) (hg : Good Calm s)
    (hs : s.stack = []) (hid : id ∈ s.stas) (hp : P s (.staAssociated id)) :
    Good Calm (wpaAuthStaAssociated S id s) := by
  unfold wpaAuthStaAssociated
  split
  · exact hg
  · split
    · refine h.call hg hs hid (u := s.onSta id reassociate) rfl rfl
        (fun j hne => Auth.onSta_sm_of_ne s hne _) (fun j hne => Auth.onSta_trace_of_ne s hne _)
        ?_ ?_
      · rw [Auth.onSta_sm_self]
        exact ⟨rfl, rfl, rfl, fun hi => hi⟩
      · intro hidle hcalm
        rw [Auth.onSta_sm_self, Auth.onSta_trace_self]
        exact h.associated hp hcalm hidle
    · exact h.callStart hg hs hid rfl (.inl rfl) fun hidle hcalm => h.start hcalm hidle

theorem eventRequest_control (ev : WpaEvent) (l : Loc) :
    SameControl l.sm (eventRequest ev l).sm := by
  cases ev <;> exact ⟨rfl, rfl, rfl, fun hi => hi⟩

theorem Lifts.smEvent (h : Lifts S P Ready Calm) (hg : Good Calm s)
    (hs : s.stack = []) (hid : id ∈ s.stas) (ev : WpaEvent) :
    Good Calm (wpaAuthSmEvent S id ev s) := by
  set s1 := s.onSta id (·.log (.reported ev)) with hs1
  have hsm1 : s1.sm = s.sm := by
    funext j
    by_cases hne : j = id
    · subst hne
      exact Auth.onSta_sm_self s j _
    · exact Auth.onSta_sm_of_ne s hne _
  have hdef : wpaAuthSmEvent S id ev s =
      if ev.starts && !(s1.sm id).started then
        wpaSmStep S id ((s1.setSm id Sm.start).push (.afterReauth id ev))
      else wpaSmStep S id (s1.onSta id fun l => eventEnd ev (eventRequest ev l)) := rfl
  have hidle := hg.control.idle hs hid
  have hcalm := hg.calm id hid
  have hloc : s1.loc id = (s.loc id).log (.reported ev) := by
    have hgroup : s1.group (s.sm id).group = s.group (s.sm id).group := Function.update_self ..
    have htrace : s1.trace id = .reported ev :: s.trace id := Auth.onSta_trace_self s id _
    rw [Auth.loc, hsm1, hgroup, htrace]
    rfl
  rw [hdef]
  split
  · next hstart =>
    refine h.smStep (s := (s1.setSm id Sm.start).push (.afterReauth id ev)) hid ?_ ?_ ?_ ?_
    · refine hg.control.pushTail hs (i := id) rfl rfl hs ?_ ?_ (.inl (.inr ⟨ev, rfl⟩)) (by simp)
      · intro j hne
        rw [Auth.setSm_sm_of_ne s1 _ hne, hsm1]
      · rw [Auth.setSm_sm_self, hsm1]
        exact ⟨rfl, rfl, rfl⟩
    · rw [Auth.push_sm, Auth.setSm_sm_self, hsm1]
      exact hidle.loop
    · rw [Auth.push_sm, Auth.setSm_sm_self, hsm1]
      have htr : ((s1.setSm id Sm.start).push (.afterReauth id ev)).trace id =
          .reported ev :: s.trace id := Auth.onSta_trace_self s id (·.log (.reported ev))
      rw [htr]
      exact h.startEvent ev (Bool.and_eq_true _ _ ▸ hstart).1 hcalm hidle
    · intro j hj hne
      rw [Auth.push_sm, Auth.setSm_sm_of_ne s1 _ hne, hsm1]
      have htr : ((s1.setSm id Sm.start).push (.afterReauth id ev)).trace j = s.trace j :=
        Auth.onSta_trace_of_ne s hne (·.log (.reported ev))
      rw [htr]
      exact hg.calm j hj
  · have hctl : SameControl (s.sm id)
        (eventEnd ev (eventRequest ev ((s.loc id).log (.reported ev)))).sm := by
      have h1 := eventRequest_control ev ((s.loc id).log (.reported ev))
      have h2 := eventEnd_control ev (eventRequest ev ((s.loc id).log (.reported ev)))
      exact ⟨h2.loop.trans h1.loop, h2.changed.trans h1.changed, h2.alive.trans h1.alive,
        fun hi => h1.init (h2.init hi)⟩
    refine h.call hg hs hid (u := s1.onSta id fun l => eventEnd ev (eventRequest ev l)) rfl rfl
      ?_ ?_ ?_ ?_
    · intro j hne
      rw [Auth.onSta_sm_of_ne s1 hne, hsm1]
    · intro j hne
      rw [Auth.onSta_trace_of_ne s1 hne]
      exact Auth.onSta_trace_of_ne s hne _
    · rw [Auth.onSta_sm_self, hloc]
      exact hctl
    · intro _ _
      rw [Auth.onSta_sm_self, Auth.onSta_trace_self, hloc]
      exact h.event (s.loc id) ev hcalm hidle

theorem Lifts.setVlan (h : Lifts S P Ready Calm) (hg : Good Calm s)
    (hs : s.stack = []) (g : ℤ) : Good Calm (wpaAuthStaSetVlan S id g s) := by
  have hmove : ∀ s1 : Auth, Good Calm s1 → s1.stack = [] →
      Good Calm (s1.setSm id fun sm => { sm with group := g }) := by
    intro s1 hg1 hs1
    refine hg1.callChange hs1 (i := id) rfl rfl (fun j hne => Auth.setSm_sm_of_ne s1 _ hne)
      (fun _ _ => rfl) ?_ ?_
    · rw [Auth.setSm_sm_self]
      exact ⟨rfl, rfl, rfl, fun hi => hi⟩
    · intro _ hcalm
      rw [Auth.setSm_sm_self]
      exact h.vlan g hcalm
  unfold wpaAuthStaSetVlan
  split
  · exact hmove s hg hs
  · split
    · exact hg.groups rfl rfl rfl rfl
    · exact hmove _ (hg.groups rfl rfl rfl rfl) hs

theorem Lifts.exec (h : Lifts S P Ready Calm) {o : Op} (hg : Good Calm s)
    (hs : s.stack = []) (hp : P s o) : Good Calm (exec S o s) := by
  have hchange : ∀ (id : StaId) (f : Sm → Sm), SameControl (s.sm id) (f (s.sm id)) →
      (Idle (s.sm id) → Calm (s.sm id) (s.trace id) → Calm (f (s.sm id)) (s.trace id)) →
      Good Calm (s.setSm id f) := by
    intro id f hctl hcalm
    refine hg.callChange hs (i := id) rfl rfl (fun j hne => Auth.setSm_sm_of_ne s _ hne)
      (fun _ _ => rfl) ?_ ?_
    · rw [Auth.setSm_sm_self]
      exact hctl
    · rw [Auth.setSm_sm_self]
      exact hcalm
  have hstep : ∀ (id : StaId) (f : Sm → Sm), id ∈ s.stas → SameControl (s.sm id) (f (s.sm id)) →
      (Idle (s.sm id) → Calm (s.sm id) (s.trace id) → Ready (f (s.sm id)) (s.trace id)) →
      Good Calm (wpaSmStep S id (s.setSm id f)) := by
    intro id f hid hctl hready
    refine h.call hg hs hid (u := s.setSm id f) rfl rfl
      (fun j hne => Auth.setSm_sm_of_ne s _ hne) (fun _ _ => rfl) ?_ ?_
    · rw [Auth.setSm_sm_self]
      exact hctl
    · rw [Auth.setSm_sm_self]
      exact hready
  have hwith : ∀ (id : StaId) (f : Auth → Auth), (id ∈ s.stas → Good Calm (f s)) →
      Good Calm (withSta id f s) := by
    intro id f hf
    unfold withSta
    split
    · next hid => exact hf hid
    · exact hg
  cases o with
  | staInit id addr pos =>
    rw [WpaAuth.exec]
    split
    · exact hg
    · next hid => exact h.init hg hs hid addr pos
  | validateWpaIe id info =>
    refine hwith id (·.setSm id (Sm.associate info)) fun _ => ?_
    refine hchange id (Sm.associate info) ⟨rfl, rfl, rfl, fun hi => hi⟩ ?_
    exact fun hidle hcalm => h.associate info hcalm hidle
  | staAssociated id => exact hwith id _ fun hid => h.staAssociated hg hs hid hp
  | staNoWpa id =>
    refine hwith id (·.setSm id fun sm => { sm with wpaKeyMgmt := .none }) fun _ => ?_
    refine hchange id _ ⟨rfl, rfl, rfl, fun hi => hi⟩ ?_
    exact fun hidle hcalm => h.noWpa hcalm hidle
  | receive id data => exact hwith id _ fun hid => h.receiveSta hg hs hid data
  | smEvent id ev => exact hwith id _ fun hid => h.smEvent hg hs hid ev
  | sendEapolTimeout id =>
    refine hwith id (fun s => wpaSmStep S id (s.setSm id fun sm => { sm with timeoutEvt := true }))
      fun hid => ?_
    refine hstep id _ hid ⟨rfl, rfl, rfl, fun hi => hi⟩ ?_
    exact fun hidle hcalm => h.timeout hcalm hidle
  | rekeyPtk id =>
    refine hwith id (fun s => wpaSmStep S id (s.setSm id Sm.wpaRequestNewPtk)) fun hid => ?_
    refine hstep id Sm.wpaRequestNewPtk hid ⟨rfl, rfl, rfl, fun hi => hi⟩ ?_
    exact fun hidle hcalm => h.newPtk hcalm hidle
  | rekeyGtk => exact hg.push rfl rfl
  | rekeyGmk => exact hg.groups rfl rfl rfl rfl
  | smCallStep id =>
    refine hwith id (wpaSmStep S id) fun hid => ?_
    refine h.call hg hs hid rfl rfl (fun _ _ => rfl) (fun _ _ => rfl) SameControl.rfl ?_
    exact fun _ hcalm => h.ready hcalm
  | setVlan id vlan => exact hwith id _ fun _ => h.setVlan hg hs vlan
  | removePtk id =>
    refine hwith id (·.onSta id wpaRemovePtk) fun _ => ?_
    refine hg.callChange hs (i := id) rfl rfl
      (fun j hne => Auth.onSta_sm_of_ne s hne _) (fun j hne => Auth.onSta_trace_of_ne s hne _)
      ?_ ?_
    · rw [Auth.onSta_sm_self]
      exact ⟨rfl, rfl, rfl, fun hi => hi⟩
    · intro hidle hcalm
      rw [Auth.onSta_sm_self, Auth.onSta_trace_self]
      exact h.removePtk (s.loc id) hcalm hidle
  | staDeinit id =>
    refine hwith id (wpaFreeStaSm id) fun _ => ?_
    refine GoodBut.free ⟨hg.control.but ?_, fun j hj _ => hg.calm j hj⟩
    rw [hs]
    exact List.not_mem_nil

theorem Good.wpaInit (g : Group) : Good Calm (wpaInit g) := by
  have hnone : ∀ {p : StaId → Prop}, ∀ id ∈ ([] : List StaId), p id :=
    fun id hid => absurd hid List.not_mem_nil
  refine ⟨?_, hnone⟩
  constructor
  · exact List.nodup_nil
  · exact hnone
  · exact List.nodup_nil
  · exact hnone
  · exact hnone
  · exact hnone
  · exact hnone
  · exact fun t ht => absurd ht List.not_mem_nil
  · exact fun j f hf => absurd hf List.not_mem_nil

theorem Lifts.reach (h : Lifts S P Ready Calm) (hr : Reach S P s) : Good Calm s := by
  induction hr with
  | init _ => exact Good.wpaInit _
  | call _ hs hp ih => exact h.exec ih hs hp
  | @micro s _ ih =>
    unfold WpaAuth.micro
    split
    · exact ih
    · next t ts hst =>
      refine h.task (s := { s with stack := ts }) (t := t) ?_
      rw [Auth.push, ← hst]
      exact ih

end Hostapd.Ap.WpaAuth
