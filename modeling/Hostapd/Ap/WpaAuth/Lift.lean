import Hostapd.Ap.WpaAuth.Control

/-!
# The WPA authenticator: from one station to all

The rule by which an invariant of the machine of one station becomes an invariant of the
authenticator, in the middle of calls too.

* **`Lifts P Ready Calm`**: `Calm` holds of a machine and its trace between the tasks, and `Ready`
  before the two machines are stepped. There is one condition for each function that touches a
  machine; calls from outside find the machine `Idle`.
* **`Lifts.reach`**: then `Calm` holds of every station in every reachable state. The work is done
  by `Lifts.iteration` for the loop of `wpa_sm_step`.
-/

namespace Hostapd.Ap.WpaAuth

open Hostapd.Lib

variable (S : Setup)

/-- What a receiving machine has to satisfy, for each thing that may follow. -/
def AfterFrame (Ready Calm : Sm → List Ev → Prop) (l : Loc) (f : EapolKey) : Next → Prop
  | .micFailure => Ready (keepFrame f l.sm.wpaRequestNewPtk) l.trace
  | .keep => Ready (keepFrame f l.sm) l.trace
  | .stop | .smk | .smkKeep | .rekeyGtk => Calm l.sm l.trace

structure Lifts (P : Auth → Op → Prop) (Ready Calm : Sm → List Ev → Prop) : Prop where
  zero : ∀ addr, Calm (Sm.zero addr) []
  ready : ∀ {sm tr}, Calm sm tr → Ready sm tr
  loop : ∀ {sm tr} b, Ready sm tr → Ready { sm with inStepLoop := b } tr
  step : ∀ l : Loc, Ready l.sm l.trace → (stepMachines S l).sm.pendingDeinit = false →
    Calm (stepMachines S l).sm (stepMachines S l).trace
  leave : ∀ {sm tr}, Calm sm tr → sm.changed = false → Calm { sm with inStepLoop := false } tr
  send : ∀ (l : Loc) a, Calm l.sm l.trace → Calm (wpaSendEapol S l a).sm (wpaSendEapol S l a).trace
  mark : ∀ {sm tr} b, Calm sm tr → Calm { sm with gUpdateStationKeys := b } tr
  vlan : ∀ {sm tr} g, Calm sm tr → Calm { sm with group := g } tr
  associate : ∀ {sm tr} info, Calm sm tr → Idle sm → Calm (sm.associate info) tr
  noWpa : ∀ {sm tr}, Calm sm tr → Idle sm → Calm { sm with wpaKeyMgmt := .none } tr
  removePtk : ∀ l : Loc, Calm l.sm l.trace → Idle l.sm →
    Calm (wpaRemovePtk l).sm (wpaRemovePtk l).trace
  timeout : ∀ {sm tr}, Calm sm tr → Idle sm → Ready { sm with timeoutEvt := true } tr
  newPtk : ∀ {sm tr}, Calm sm tr → Idle sm → Ready sm.wpaRequestNewPtk tr
  start : ∀ {sm tr}, Calm sm tr → Idle sm → Ready sm.start tr
  associated : ∀ {s id}, P s (.staAssociated id) → Calm (s.sm id) (s.trace id) →
    Idle (s.sm id) → Ready (reassociate (s.loc id)).sm (reassociate (s.loc id)).trace
  startEvent : ∀ {sm tr} ev, ev.starts = true → Calm sm tr → Idle sm →
    Ready sm.start (.reported ev :: tr)
  event : ∀ (l : Loc) ev, Calm l.sm l.trace → Idle l.sm →
    Ready (eventEnd ev (eventRequest ev (l.log (.reported ev)))).sm
      (eventEnd ev (eventRequest ev (l.log (.reported ev)))).trace
  initDone : ∀ {sm tr}, Calm sm tr → sm.inStepLoop = false → sm.changed = false →
    Ready sm.initDone tr
  initDoneEvent : ∀ (l : Loc) ev, Calm l.sm l.trace → l.sm.inStepLoop = false →
    l.sm.changed = false → Ready (eventEnd ev { l with sm := l.sm.initDone }).sm
      (eventEnd ev { l with sm := l.sm.initDone }).trace
  receive : ∀ (l : Loc) f, Calm l.sm l.trace → Idle l.sm → admits l.sm f = true →
    (receiveFrame S l f).1.sm.pendingDeinit = false →
    AfterFrame Ready Calm (receiveFrame S l f).1 f (receiveFrame S l f).2
  tail : ∀ {sm tr} f, Calm sm tr → f.keyInfo.isRequest = true → Ready (keepFrame f sm) tr

/-- The control flow, with an invariant of every station. -/
structure Good (Calm : Sm → List Ev → Prop) (s : Auth) : Prop where
  control : Control s
  calm : ∀ id ∈ s.stas, Calm (s.sm id) (s.trace id)

/-- The control flow but for one station, with the invariant of the others. -/
structure GoodBut (Calm : Sm → List Ev → Prop) (id : StaId) (s : Auth) : Prop where
  control : ControlBut id s
  calm : ∀ j ∈ s.stas, j ≠ id → Calm (s.sm j) (s.trace j)

variable {S} {P : Auth → Op → Prop} {Ready Calm : Sm → List Ev → Prop}

variable {s : Auth} {id : StaId}

theorem GoodBut.free (h : GoodBut Calm id s) :
    Good Calm (wpaFreeStaSm id s) := by
  refine ⟨h.control.free, ?_⟩
  intro j hj
  have hj' : j ∈ s.stas.erase id := hj
  have hne : j ≠ id := fun he => (h.control.nodup.mem_erase_iff.mp hj').1 he
  have hsm : (wpaFreeStaSm id s).sm j = s.sm j := Auth.onSta_sm_of_ne s hne clearGUpdate
  have htr : (wpaFreeStaSm id s).trace j = s.trace j := Auth.onSta_trace_of_ne s hne clearGUpdate
  rw [hsm, htr]
  exact h.calm j (List.mem_of_mem_erase hj') hne

theorem GoodBut.congr {s u : Auth} (h : GoodBut Calm id s)
    (hstas : u.stas = s.stas) (hstack : u.stack = s.stack)
    (hsm : ∀ j, j ≠ id → u.sm j = s.sm j) (htr : ∀ j, j ≠ id → u.trace j = s.trace j) :
    GoodBut Calm id u := by
  refine ⟨h.control.congr hstas hstack fun j _ hne => hsm j hne ▸ SameControl.rfl, ?_⟩
  intro j hj hne
  rw [hstas] at hj
  rw [hsm j hne, htr j hne]
  exact h.calm j hj hne

theorem Good.afterGroup (h : Good Calm s) (g : ℤ) : Good Calm (groupSmStep S g s) := by
  have hbase : Good Calm { groupSmStep S g s with stack := s.stack } := by
    refine ⟨h.control.congr (groupSmStep_stas S g s) rfl ?_, ?_⟩
    · intro id _
      rw [show ({ groupSmStep S g s with stack := s.stack } : Auth).sm = s.sm from
        groupSmStep_sm S g s]
      exact SameControl.rfl
    · intro id hid
      have hid' : id ∈ s.stas := groupSmStep_stas S g s ▸ hid
      rw [show ({ groupSmStep S g s with stack := s.stack } : Auth).sm = s.sm from
        groupSmStep_sm S g s, show ({ groupSmStep S g s with stack := s.stack } : Auth).trace =
          s.trace from groupSmStep_trace S g s]
      exact h.calm id hid'
  rcases groupSmStep_stack S g s with hst | hst
  · rw [← hst] at hbase
    exact hbase
  · have heq : groupSmStep S g s =
        ({ groupSmStep S g s with stack := s.stack } : Auth).push
          (.updateStas s.stas) := by
      rw [Auth.push, ← hst]
    rw [heq]
    exact ⟨hbase.control.push rfl rfl, hbase.calm⟩

theorem Lifts.iteration (h : Lifts S P Ready Calm)
    (hc : Control (s.push (.check id))) (hr : Ready (s.sm id) (s.trace id))
    (ho : ∀ j ∈ s.stas, j ≠ id → Calm (s.sm j) (s.trace j)) :
    Good Calm (stepIteration S id s) := by
  have hid : id ∈ s.stas := hc.known id List.mem_cons_self
  have halive : (s.sm id).pendingDeinit = false := hc.alive id hid
  have hloop : (s.sm id).inStepLoop = true := (hc.loop id hid).mpr List.mem_cons_self
  have hinit : (s.sm id).init = true → ∃ t ∈ s.stack, t.Inits id := by
    intro hi
    obtain ⟨t, ht, hti⟩ := hc.init id hid hi
    rcases List.mem_cons.mp ht with rfl | ht
    · exact absurd hti inits_check
    · exact ⟨t, ht, hti⟩
  have hbut : GoodBut Calm id s := ⟨hc.but_check, ho⟩
  -- the state after the two machines of the station
  set s0 := s.setGroup 0 fun g => { g with changed := false } with hs0
  set l := stepMachines S (s0.loc id) with hl
  set s1 := s0.put id l with hs1
  have hbut1 : GoodBut Calm id s1 := hbut.congr rfl rfl
    (fun j hne => Auth.put_sm_of_ne s0 l hne) (fun j hne => Auth.put_trace_of_ne s0 l hne)
  have hsm1 : s1.sm id = l.sm := Auth.put_sm_self s0 id l
  have hframe := stepMachines_frame S (s0.loc id)
  have hdef : stepIteration S id s =
      if (s1.sm id).pendingDeinit then finishStep id s1
      else groupSmStep S (s1.sm id).group (s1.push (.check id)) := by
    rw [stepIteration, if_neg (by rw [halive]; exact Bool.false_ne_true)]
    rfl
  rw [hdef]
  split
  · next hpd =>
    -- the callback has removed the station
    have hfin : finishStep id s1 =
        wpaFreeStaSm id (s1.setSm id fun sm => { sm with inStepLoop := false }) := by
      rw [finishStep]
      refine if_pos ?_
      rw [Auth.setSm_sm_self]
      exact hpd
    rw [hfin]
    refine GoodBut.free (hbut1.congr rfl rfl ?_ fun _ _ => rfl)
    intro j hne
    exact Auth.setSm_sm_of_ne s1 _ hne
  · next hpd =>
    have hpd : (s1.sm id).pendingDeinit = false := Bool.eq_false_iff.mpr hpd
    have hctrl : Control (s1.push (.check id)) := by
      refine hbut1.control.enter hid ?_ hpd ?_
      · rw [hsm1, hframe.loop]
        exact hloop
      · rw [hsm1, hframe.init]
        exact hinit
    refine Good.afterGroup ⟨hctrl, ?_⟩ _
    intro j hj
    by_cases hne : j = id
    · subst hne
      rw [Auth.push_sm, Auth.push_trace, hsm1, Auth.put_trace_self]
      exact h.step (s0.loc j) hr (hsm1 ▸ hpd)
    · exact hbut1.calm j hj hne

theorem Lifts.smStep (h : Lifts S P Ready Calm) (hid : id ∈ s.stas)
    (hc : Control s) (hl : (s.sm id).inStepLoop = false) (hr : Ready (s.sm id) (s.trace id))
    (ho : ∀ j ∈ s.stas, j ≠ id → Calm (s.sm j) (s.trace j)) :
    Good Calm (wpaSmStep S id s) := by
  have hnot : id ∉ loops s.stack := by
    intro hm
    rw [(hc.loop id hid).mpr hm] at hl
    exact Bool.noConfusion hl
  rw [wpaSmStep, if_neg (by rw [hl]; exact Bool.false_ne_true)]
  set s1 := s.setSm id fun sm => { sm with inStepLoop := true } with hs1
  have hsm1 : s1.sm id = { s.sm id with inStepLoop := true } := Auth.setSm_sm_self s id _
  refine h.iteration (s := s1) ?_ ?_ ?_
  · refine ((hc.but hnot).congr (u := s1) rfl rfl ?_).enter hid ?_ ?_ ?_
    · intro j _ hne
      rw [hs1, Auth.setSm_sm_of_ne s _ hne]
      exact SameControl.rfl
    · rw [hsm1]
    · rw [hsm1]
      exact hc.alive id hid
    · rw [hsm1]
      exact hc.init id hid
  · rw [hsm1]
    exact h.loop true hr
  · intro j hj hne
    rw [hs1, Auth.setSm_sm_of_ne s _ hne]
    exact ho j hj hne

/-! ## Tasks -/

theorem Good.change {s u : Auth} (h : Good Calm s) {i : StaId} (hstas : u.stas = s.stas)
    (hstack : u.stack = s.stack) (hsm : ∀ j, j ≠ i → u.sm j = s.sm j)
    (htr : ∀ j, j ≠ i → u.trace j = s.trace j) (hid : SameControl (s.sm i) (u.sm i))
    (hcalm : i ∈ s.stas → Calm (u.sm i) (u.trace i)) : Good Calm u := by
  refine ⟨h.control.congr hstas hstack ?_, ?_⟩
  · intro j _
    by_cases hne : j = i
    · exact hne ▸ hid
    · exact hsm j hne ▸ SameControl.rfl
  · intro j hj
    rw [hstas] at hj
    by_cases hne : j = i
    · subst hne
      exact hcalm hj
    · rw [hsm j hne, htr j hne]
      exact h.calm j hj

theorem Good.groups {s s' : Auth} (h : Good Calm s) (hstas : s'.stas = s.stas)
    (hstack : s'.stack = s.stack) (hsm : s'.sm = s.sm) (htr : s'.trace = s.trace) :
    Good Calm s' := by
  refine ⟨h.control.congr hstas hstack fun j _ => hsm ▸ SameControl.rfl, ?_⟩
  rw [hstas, hsm, htr]
  exact h.calm

variable {t : Task}

theorem Good.push (h : Good Calm s) (hloop : t.loop? = none)
    (htail : t.isTail = false) : Good Calm (s.push t) :=
  ⟨h.control.push hloop htail, h.calm⟩

theorem Good.pop (h : Good Calm (s.push t)) (hloop : t.loop? = none)
    (htail : t.isTail = false) : Good Calm s :=
  ⟨h.control.pop hloop htail, h.calm⟩

theorem Good.rekey (h : Good Calm s) (g : ℤ) : Good Calm (rekeyStep S g s) := by
  have hset : Good Calm (s.setGroup g fun x => { x with changed := false }) :=
    h.groups rfl rfl rfl rfl
  exact (hset.push (t := .rekeyCheck g) rfl rfl).afterGroup g

theorem Lifts.finish (h : Lifts S P Ready Calm)
    (hg : Good Calm (s.push (.check id))) (hch : (s.sm id).changed = false) :
    Good Calm (finishStep id s) := by
  have hid : id ∈ s.stas := hg.control.known id List.mem_cons_self
  have halive : (s.sm id).pendingDeinit = false := hg.control.alive id hid
  set s1 := s.setSm id fun sm => { sm with inStepLoop := false } with hs1
  have hsm1 : s1.sm id = { s.sm id with inStepLoop := false } := Auth.setSm_sm_self s id _
  rw [finishStep_alive halive, ← hs1]
  have hbut : ControlBut id s1 := hg.control.but_check.congr (u := s1) rfl rfl fun j _ hne => by
    rw [hs1, Auth.setSm_sm_of_ne s _ hne]
    exact SameControl.rfl
  refine ⟨hbut.out (by rw [hsm1]) (by rw [hsm1]; exact hch) (by rw [hsm1]; exact halive) ?_, ?_⟩
  · rw [hsm1]
    intro hi
    obtain ⟨t, ht, hti⟩ := hg.control.init id hid hi
    rcases List.mem_cons.mp ht with rfl | ht
    · exact absurd hti inits_check
    · exact ⟨t, ht, hti⟩
  · intro j hj
    by_cases hne : j = id
    · subst hne
      rw [hsm1]
      exact h.leave (hg.calm j hid) hch
    · rw [hs1, Auth.setSm_sm_of_ne s _ hne]
      exact hg.calm j hj

theorem Control.but_tail (h : Control (s.push t)) (ht : t.isTail = true)
    (hid : ∀ j, t.Inits j → j = id) : ControlBut id s ∧ s.stack = [] := by
  have hnil := h.tail_nil ht
  have hloop : t.loop? = none := by
    cases t <;> first | rfl | exact Bool.noConfusion ht
  have hloops : loops s.stack = [] := by rw [hnil]; rfl
  have hpush : loops (s.push t).stack = loops s.stack := loops_cons_of_none hloop s.stack
  refine ⟨?_, hnil⟩
  constructor
  · exact h.nodup
  · intro j hj _
    rw [← hpush]
    exact h.loop j hj
  · rw [hloops]
    exact List.nodup_nil
  · intro j hj
    rw [hloops] at hj
    exact absurd hj List.not_mem_nil
  · exact fun j hj _ => h.changed j hj
  · exact fun j hj _ => h.alive j hj
  · intro j hj hne hi
    obtain ⟨u, hu, hui⟩ := h.init j hj hi
    rw [Auth.push_stack, hnil] at hu
    rcases List.mem_cons.mp hu with rfl | hu
    · exact absurd (hid j hui) hne
    · exact absurd hu List.not_mem_nil
  · rw [hnil]
    exact fun t ht => absurd ht List.not_mem_nil
  · rw [hnil]
    exact fun j f hf => absurd hf List.not_mem_nil

theorem Lifts.tailStep (h : Lifts S P Ready Calm) {s u : Auth}
    (hg : Good Calm (s.push t)) (ht : t.isTail = true) (hinits : ∀ j, t.Inits j → j = id)
    (hid : id ∈ s.stas) (hstas : u.stas = s.stas) (hstack : u.stack = s.stack)
    (hsm : ∀ j, j ≠ id → u.sm j = s.sm j) (htr : ∀ j, j ≠ id → u.trace j = s.trace j)
    (hctl : (u.sm id).inStepLoop = (s.sm id).inStepLoop ∧
      (u.sm id).changed = (s.sm id).changed ∧
      (u.sm id).pendingDeinit = (s.sm id).pendingDeinit)
    (hinit : (u.sm id).init = false ∨ ∀ j, ¬ t.Inits j ∧ (u.sm id).init = (s.sm id).init)
    (hready : (s.sm id).inStepLoop = false → (s.sm id).changed = false →
      Calm (s.sm id) (s.trace id) → Ready (u.sm id) (u.trace id)) :
    Good Calm (wpaSmStep S id u) := by
  obtain ⟨hbut, hnil⟩ := hg.control.but_tail ht hinits
  have hloop : (s.sm id).inStepLoop = false := by
    rw [Bool.eq_false_iff, Ne, show (s.sm id) = (s.push t).sm id from rfl,
      hg.control.loop id hid]
    intro hm
    rw [show loops (s.push t).stack = loops s.stack from
      loops_cons_of_none (by cases t <;> first | rfl | exact Bool.noConfusion ht) s.stack,
      hnil] at hm
    exact List.not_mem_nil hm
  have hch : (s.sm id).changed = false := hg.control.changed id hid hloop
  have halive : (s.sm id).pendingDeinit = false := hg.control.alive id hid
  have hinit' : (u.sm id).init = false := by
    rcases hinit with hi | hi
    · exact hi
    · rw [Bool.eq_false_iff]
      intro hi'
      rw [(hi id).2] at hi'
      obtain ⟨u, hu, hui⟩ := hg.control.init id hid hi'
      rw [Auth.push_stack, hnil] at hu
      rcases List.mem_cons.mp hu with rfl | hu
      · exact (hi id).1 hui
      · exact List.not_mem_nil hu
  have hc' : Control u := by
    refine (hbut.congr hstas hstack fun j _ hne => hsm j hne ▸ SameControl.rfl).out
      (hctl.1.trans hloop) (hctl.2.1.trans hch) (hctl.2.2.trans halive) ?_
    intro hi
    rw [hinit'] at hi
    exact Bool.noConfusion hi
  refine h.smStep (hstas ▸ hid) hc' (hctl.1.trans hloop)
    (hready hloop hch (hg.calm id hid)) ?_
  intro j hj hne
  rw [hstas] at hj
  rw [hsm j hne, htr j hne]
  exact hg.calm j hj

theorem eventEnd_control (ev : WpaEvent) (l : Loc) : SameControl l.sm (eventEnd ev l).sm := by
  unfold eventEnd
  dsimp only
  split <;> exact ⟨rfl, rfl, rfl, id⟩

theorem inits_other (h : t = .afterInit id ∨ ∃ ev, t = .afterReauth id ev) :
    ∀ j, t.Inits j → j = id := by
  rintro j (hj | ⟨ev', hj⟩)
  · rcases h with rfl | ⟨ev, rfl⟩
    · exact (Task.afterInit.inj hj).symm
    · exact Task.noConfusion hj
  · rcases h with rfl | ⟨ev, rfl⟩
    · exact Task.noConfusion hj
    · exact (Task.afterReauth.inj hj).1.symm

theorem Good.absent (hg : Good Calm (s.push t))
    (ht : t.isTail = true) (hinits : ∀ j, t.Inits j → j = id) (hid : id ∉ s.stas) :
    Good Calm s := by
  obtain ⟨hbut, -⟩ := hg.control.but_tail ht hinits
  have hne : ∀ j ∈ s.stas, j ≠ id := fun j hj he => hid (he ▸ hj)
  refine ⟨?_, hg.calm⟩
  constructor
  · exact hbut.nodup
  · exact fun j hj => hbut.loop j hj (hne j hj)
  · exact hbut.once
  · exact fun j hj => (hbut.known j hj).1
  · exact fun j hj => hbut.changed j hj (hne j hj)
  · exact fun j hj => hbut.alive j hj (hne j hj)
  · exact fun j hj => hbut.init j hj (hne j hj)
  · exact hbut.below
  · exact hbut.request

theorem Lifts.visit (h : Lifts S P Ready Calm) (hg : Good Calm s)
    (hid : id ∈ s.stas) :
    Good Calm (if (markSta (s.loc id)).2 then wpaSmStep S id (s.put id (markSta (s.loc id)).1)
      else s.put id (markSta (s.loc id)).1) := by
  have hmark : ∃ b, (markSta (s.loc id)).1.sm = { s.sm id with gUpdateStationKeys := b } ∧
      (markSta (s.loc id)).1.trace = s.trace id := by
    unfold markSta
    split
    · exact ⟨false, rfl, rfl⟩
    · exact ⟨true, rfl, rfl⟩
  obtain ⟨b, hsm, htr⟩ := hmark
  have hput : Good Calm (s.put id (markSta (s.loc id)).1) := by
    refine hg.change rfl rfl (fun j hne => Auth.put_sm_of_ne s _ hne)
      (fun j hne => Auth.put_trace_of_ne s _ hne) ?_ ?_
    · rw [Auth.put_sm_self, hsm]
      exact ⟨rfl, rfl, rfl, fun hi => hi⟩
    · intro _
      rw [Auth.put_sm_self, Auth.put_trace_self, hsm, htr]
      exact h.mark b (hg.calm id hid)
  split
  · by_cases hl : ((s.put id (markSta (s.loc id)).1).sm id).inStepLoop = true
    · rw [wpaSmStep, if_pos hl]
      exact hput
    · exact h.smStep hid hput.control (Bool.eq_false_iff.mpr hl) (h.ready (hput.calm id hid))
        fun j hj _ => hput.calm j hj
  · exact hput

theorem Lifts.task (h : Lifts S P Ready Calm)
    (hg : Good Calm (s.push t)) : Good Calm (runTask S t s) := by
  cases t with
  | check id =>
    rw [runTask]
    split
    · exact h.iteration hg.control (h.ready (hg.calm id (hg.control.known id List.mem_cons_self)))
        fun j hj _ => hg.calm j hj
    · next hch =>
      rw [Bool.or_eq_true, not_or] at hch
      exact h.finish hg (Bool.eq_false_iff.mpr hch.1)
  | updateStas ids =>
    have hpop := hg.pop rfl rfl
    cases ids with
    | nil => exact hpop
    | cons id ids =>
      have hpush : Good Calm (s.push (.updateStas ids)) := hpop.push rfl rfl
      rw [runTask]
      split
      · next hid => exact h.visit hpush hid
      · exact hpush
  | rekeyCheck g =>
    have hpop := hg.pop rfl rfl
    rw [runTask]
    split
    · exact hpop.rekey g
    · exact hpop
  | rekeyGroups gs =>
    have hpop := hg.pop rfl rfl
    cases gs with
    | nil => exact hpop
    | cons g gs =>
      have hset : Good Calm (s.setGroup g fun x => { x with gtkReKey := true }) :=
        hpop.groups rfl rfl rfl rfl
      exact (hset.push (t := .rekeyGroups gs) rfl rfl).rekey g
  | afterInit id =>
    rw [runTask]
    split
    · next hid =>
      refine h.tailStep hg rfl (inits_other (.inl rfl)) hid (u := s.setSm id Sm.initDone) rfl rfl
        (fun j hne => Auth.setSm_sm_of_ne s _ hne) (fun _ _ => rfl) ?_ ?_ ?_
      · rw [Auth.setSm_sm_self]
        exact ⟨rfl, rfl, rfl⟩
      · rw [Auth.setSm_sm_self]
        exact .inl rfl
      · intro hl hc hcalm
        rw [Auth.setSm_sm_self]
        exact h.initDone hcalm hl hc
    · next hid => exact hg.absent rfl (inits_other (.inl rfl)) hid
  | afterReauth id ev =>
    rw [runTask]
    split
    · next hid =>
      set s1 := s.setSm id Sm.initDone with hs1
      have hctl := eventEnd_control ev (s1.loc id)
      have hsm1 : s1.sm id = (s.sm id).initDone := Auth.setSm_sm_self s id _
      refine h.tailStep hg rfl (inits_other (.inr ⟨ev, rfl⟩)) hid
        (u := s1.onSta id (eventEnd ev)) rfl rfl ?_ ?_ ?_ ?_ ?_
      · intro j hne
        rw [Auth.onSta_sm_of_ne s1 hne, hs1, Auth.setSm_sm_of_ne s _ hne]
      · exact fun j hne => Auth.onSta_trace_of_ne s1 hne _
      · rw [Auth.onSta_sm_self]
        exact ⟨hctl.loop.trans (by rw [Auth.loc_sm, hsm1]; rfl),
          hctl.changed.trans (by rw [Auth.loc_sm, hsm1]; rfl),
          hctl.alive.trans (by rw [Auth.loc_sm, hsm1]; rfl)⟩
      · rw [Auth.onSta_sm_self]
        refine .inl (Bool.eq_false_iff.mpr fun hi => ?_)
        have hi' := hctl.init hi
        rw [Auth.loc_sm, hsm1] at hi'
        exact Bool.noConfusion hi'
      · intro hl hc hcalm
        rw [Auth.onSta_sm_self, Auth.onSta_trace_self, hs1, Auth.loc_setSm s id Sm.initDone rfl]
        exact h.initDoneEvent (s.loc id) ev hcalm hl hc
    · next hid => exact hg.absent rfl (inits_other (.inr ⟨ev, rfl⟩)) hid
  | receiveTail id f =>
    have hno : ∀ j, ¬ (Task.receiveTail id f).Inits j := by
      rintro j (hj | ⟨ev, hj⟩) <;> exact Task.noConfusion hj
    rw [runTask]
    split
    · next hid =>
      refine h.tailStep hg rfl (fun j hj => absurd hj (hno j)) hid
        (u := s.setSm id (keepFrame f)) rfl rfl
        (fun j hne => Auth.setSm_sm_of_ne s _ hne) (fun _ _ => rfl) ?_ ?_ ?_
      · rw [Auth.setSm_sm_self]
        exact ⟨rfl, rfl, rfl⟩
      · rw [Auth.setSm_sm_self]
        exact .inr fun j => ⟨hno j, rfl⟩
      · intro _ _ hcalm
        rw [Auth.setSm_sm_self]
        exact h.tail f hcalm (hg.control.request id f List.mem_cons_self)
    · next hid => exact hg.absent rfl (fun j hj => absurd hj (hno j)) hid

end Hostapd.Ap.WpaAuth
