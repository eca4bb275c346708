import Hostapd.Ap.WpaAuth.Rekeying

/-!
# The WPA authenticator: every step is a turn

**`Flow.turn`** shows of every task and of every call what it does to the groups and to their
accounts, and **`Flow.reach`** that the invariant it needs holds in every reachable state.
-/

namespace Hostapd.Ap.WpaAuth

open Hostapd.Lib

variable {S : Setup} {s u : Auth} {id : StaId} {ts : List Task} {a : Step}

/-! ## Rules -/

theorem Ends.loops (h : Ends ts) : loops ts = [] := by
  cases ts with
  | nil => rfl
  | cons t ts =>
    refine List.filterMap_eq_nil_iff.mpr fun u hu => ?_
    have htail := h u hu
    cases u <;> first | rfl | exact Bool.noConfusion htail

theorem Flow.levels (h : Flow s) (hs : Outside s.stack) (hu : ∀ g, unvisited u.stack g = [])
    (hsame : Same s u) (hshape : Shape u u.stack) : Turn s a u :=
  .level hsame (h.waiting_outside hs)
    (fun g => hsame.excess fun j _ => by rw [hs.unvisited, hu]) hshape
    fun g hunder _ => absurd hunder (hs.idle g)

theorem Flow.levels_ends (h : Flow s) (hs : Outside s.stack) (hu : Ends u.stack)
    (hsame : Same s u) : Turn s a u := h.levels hs hu.outside.unvisited hsame (.rest hu)

theorem Stepped.turn {r : Auth} (h : Stepped id ts s r) (hs : Outside s.stack) (hid : id ∈ s.stas)
    (hts : Ends ts) : Turn s a r := by
  refine .stepped id ts h hid ?_ hs.idle (.inl ?_)
  · rcases h.ends with ⟨hstack, -⟩ | ⟨hstack, -⟩
    · exact hstack ▸ .loop hts
    · exact hstack ▸ .rest hts
  · rcases h.ends with ⟨hstack, -⟩ | ⟨hstack, -⟩
    · exact hstack ▸ hts.outside_check id
    · exact hstack ▸ hts.outside

theorem Flow.steps (h : Flow s) (hs : Outside s.stack) (hid : id ∈ s.stas) (hlevel : Level id s u)
    (hu : Ends u.stack) (hloop : (u.sm id).inStepLoop = false)
    (halive : (u.sm id).pendingDeinit = false) : Turn s a (wpaSmStep S id u) := by
  have hwaiting : ∀ g, Waiting (u.group g) := fun g =>
    (h.waiting_outside hs g).of_frame (hlevel.frame g)
  have hout : id ∉ unvisited u.stack (u.sm id).group := by
    rw [hu.outside.unvisited]
    exact List.not_mem_nil
  refine (hlevel.stepped (wpaSmStep_stepped S ?_ ?_ hloop halive hout hwaiting)).turn hs hid hu
  · exact hlevel.stas ▸ h.good.control.nodup
  · exact hlevel.stas ▸ hid

theorem Same.level_outside (h : Same s u) (hs : Outside s.stack) (hu : Ends u.stack) :
    Level id s u := h.level fun g => by rw [hs.unvisited, hu.outside.unvisited]

/-! ## A visit -/

variable {g : ℤ} {ids : List StaId}

theorem excess_mark
    (hs : s.stack = .updateStas (id :: ids) :: .rekeyCheck g :: ts) (hnodup : s.stas.Nodup)
    (hid : id ∈ s.stas) (hids : id ∉ ids) (hstas : u.stas = s.stas)
    (hu : u.stack = .updateStas ids :: .rekeyCheck g :: ts)
    (hsm : ∀ j, j ≠ id → u.sm j = s.sm j) (hhome : (u.sm id).group = (s.sm id).group)
    {x : ℤ} (hcount : (u.group x).gKeyDoneStations = (s.group x).gKeyDoneStations +
      if (s.sm id).group = x then share (u.sm id).gUpdateStationKeys else 0) :
    u.excess x = s.excess x +
      if (s.sm id).group = x ∧ x ≠ g then share (s.sm id).gUpdateStationKeys else 0 := by
  have hchange : u.owed x - share (u.owes x id) = s.owed x - share (s.owes x id) := by
    rw [Auth.owed, hstas]
    refine tally_change hnodup hid fun j _ hne => ?_
    have hmem : j ∈ unvisited u.stack x ↔ j ∈ unvisited s.stack x := by
      rw [hu, hs, unvisited, unvisited]
      split
      · simp [hne]
      · rfl
    rw [Auth.owes, Auth.owes, hsm j hne, decide_eq_decide.mpr (not_congr hmem)]
  have hafter : u.owes x id = (decide ((s.sm id).group = x) && (u.sm id).gUpdateStationKeys) := by
    have hnot : id ∉ unvisited u.stack x := by
      rw [hu, unvisited]
      split
      · exact hids
      · exact List.not_mem_nil
    rw [Auth.owes, hhome, decide_eq_true hnot, Bool.and_true]
  have hbefore : s.owes x id =
      (decide ((s.sm id).group = x ∧ x ≠ g) && (s.sm id).gUpdateStationKeys) := by
    have hiff : id ∉ unvisited s.stack x ↔ x ≠ g := by
      rw [hs, unvisited]
      split
      case isTrue hg => simp [hg]
      case isFalse hg => simp [Ne.symm hg]
    rw [Auth.owes, decide_eq_decide.mpr hiff, Bool.decide_and, Bool.and_right_comm]
  rw [hafter, hbefore] at hchange
  rw [Auth.excess, Auth.excess, hcount]
  by_cases hx : (s.sm id).group = x
  · by_cases hg : x = g
    · simp only [hx, hg, decide_true, Bool.true_and, ne_eq, not_true_eq_false, and_false,
        decide_false, Bool.false_and, share_false, if_true, if_false] at hchange ⊢
      omega
    · simp only [hx, hg, decide_true, Bool.true_and, ne_eq, not_false_eq_true, and_true,
        if_true] at hchange ⊢
      omega
  · simp only [hx, decide_false, Bool.false_and, share_false, false_and, if_false] at hchange ⊢
    omega

variable {gs : List ℤ}

theorem Flow.idle_visit (h : Flow s)
    (hs : s.stack = .updateStas ids :: .rekeyCheck g :: .rekeyGroups gs :: ts)
    (hends : RekeyEnds ts)
    (hid : id ∈ s.stas) : Idle (s.sm id) := by
  have hcontrol := h.good.control
  have hloop : (s.sm id).inStepLoop = false := by
    rw [Bool.eq_false_iff, Ne, hcontrol.loop id hid, hs]
    show ¬ id ∈ loops ts
    rw [hends.ends.loops]
    exact List.not_mem_nil
  refine ⟨hloop, hcontrol.changed id hid hloop, Bool.eq_false_iff.mpr fun hinit => ?_,
    hcontrol.alive id hid⟩
  obtain ⟨t, ht, hti⟩ := hcontrol.init id hid hinit
  have hreceive : ∀ t ∈ s.stack, ¬ t.Inits id := by
    rw [hs]
    simp only [List.forall_mem_cons]
    refine ⟨?_, ?_, ?_, fun t ht => ?_⟩
    · rintro (hi | ⟨ev, hi⟩) <;> exact Task.noConfusion hi
    · rintro (hi | ⟨ev, hi⟩) <;> exact Task.noConfusion hi
    · rintro (hi | ⟨ev, hi⟩) <;> exact Task.noConfusion hi
    · obtain ⟨j, f, rfl⟩ := hends t ht
      rintro (hi | ⟨ev, hi⟩) <;> exact Task.noConfusion hi
  exact hreceive t ht hti

theorem markSta_cases (l : Loc) :
    l.sm.wpaPtkState = .ptkInitDone ∧ markSta l = ({ l with
        sm := { l.sm with gUpdateStationKeys := true }
        group := { l.group with gKeyDoneStations := l.group.gKeyDoneStations + 1 } }, true) ∨
      markSta l = ({ l with sm := { l.sm with gUpdateStationKeys := false } }, false) := by
  unfold markSta
  split
  case isTrue => exact .inr rfl
  case isFalse hdone => exact .inl ⟨not_not.mp hdone, rfl⟩

theorem visit_put (hs : s.stack = .rekeyCheck g :: ts)
    (hnodup : s.stas.Nodup) (hid : id ∈ s.stas) (hids : id ∉ ids) {l : Loc}
    (hhome : l.sm.group = (s.sm id).group)
    (hcount : l.group.gKeyDoneStations =
      (s.group (s.sm id).group).gKeyDoneStations + share l.sm.gUpdateStationKeys)
    (hframe : l.group.frame = (s.group (s.sm id).group).frame) :
    (∀ j, (((s.push (.updateStas ids)).put id l).sm j).group = (s.sm j).group) ∧
      (∀ x, (((s.push (.updateStas ids)).put id l).group x).frame = (s.group x).frame) ∧
      ∀ x, ((s.push (.updateStas ids)).put id l).excess x =
        (s.push (.updateStas (id :: ids))).excess x +
          if (s.sm id).group = x ∧ x ≠ g then share (s.sm id).gUpdateStationKeys else 0 := by
  set u := (s.push (.updateStas ids)).put id l with hu
  have hself : u.sm id = l.sm := Auth.put_sm_self _ id l
  have hother : ∀ j, j ≠ id → u.sm j = s.sm j := fun j hne => Auth.put_sm_of_ne _ l hne
  have hgself : u.group (s.sm id).group = l.group := Function.update_self ..
  have hgother : ∀ x, x ≠ (s.sm id).group → u.group x = s.group x :=
    fun x hx => Function.update_of_ne hx ..
  refine ⟨fun j => ?_, fun x => ?_, fun x => ?_⟩
  · by_cases hne : j = id
    · rw [hne, hself, hhome]
    · rw [hother j hne]
  · by_cases hx : x = (s.sm id).group
    · rw [hx, hgself, hframe]
    · rw [hgother x hx]
  · have hbefore : (s.push (.updateStas (id :: ids))).stack =
        .updateStas (id :: ids) :: .rekeyCheck g :: ts := by rw [Auth.push_stack, hs]
    have hafter : u.stack = .updateStas ids :: .rekeyCheck g :: ts := by
      rw [hu, Auth.put_stack, Auth.push_stack, hs]
    refine excess_mark (u := u) hbefore hnodup hid hids rfl hafter hother ?_ ?_
    · rw [hself]
      exact hhome
    · show (u.group x).gKeyDoneStations = (s.group x).gKeyDoneStations +
        if (s.sm id).group = x then share (u.sm id).gUpdateStationKeys else 0
      by_cases hx : (s.sm id).group = x
      · rw [if_pos hx, ← hx, hgself, hself, hcount]
      · rw [if_neg hx, hgother x (Ne.symm hx), add_zero]

theorem Flow.visit
    (h : Flow (s.push (.updateStas (id :: ids))))
    (hs : s.stack = .rekeyCheck g :: .rekeyGroups gs :: ts) (hends : RekeyEnds ts)
    (hids : id ∉ ids) (hid : id ∈ s.stas) :
    Visited id g (.updateStas ids :: s.stack) (s.push (.updateStas (id :: ids)))
      (runTask S (.updateStas (id :: ids)) s) := by
  have hstack : (s.push (.updateStas (id :: ids))).stack =
      .updateStas (id :: ids) :: .rekeyCheck g :: .rekeyGroups gs :: ts := by
    rw [Auth.push_stack, hs]
  have hidle : Idle (s.sm id) := h.idle_visit hstack hends hid
  have hnodup : s.stas.Nodup := h.good.control.nodup
  have hwaiting : ∀ x, Waiting (s.group x) :=
    h.waiting fun g us hus => absurd (List.cons.inj hus).1 nofun
  set v := s.push (.updateStas ids) with hv
  rw [runTask, ← hv, if_pos (show id ∈ v.stas from hid)]
  rcases markSta_cases (v.loc id) with ⟨hdone, hmark⟩ | hmark
  · -- it is marked, and its machine is stepped
    rw [hmark, if_pos rfl]
    set l : Loc := { v.loc id with
      sm := { s.sm id with gUpdateStationKeys := true }
      group := { s.group (s.sm id).group with
        gKeyDoneStations := (s.group (s.sm id).group).gKeyDoneStations + 1 } } with hl
    obtain ⟨hhome, hframe, hexcess⟩ :=
      visit_put (l := l) hs hnodup hid hids rfl rfl rfl
    rw [← hv] at hhome hframe hexcess
    set u := v.put id l with hu
    have huid : u.sm id = { s.sm id with gUpdateStationKeys := true } := Auth.put_sm_self v id l
    have hmarked : Marked (u.sm id) := huid ▸ (h.good.calm id hid).marked hidle hdone
    have hloop : (u.sm id).inStepLoop = false := by rw [huid]; exact hidle.loop
    have halive : (u.sm id).pendingDeinit = false := by rw [huid]; exact hidle.alive
    have hout : id ∉ unvisited u.stack (u.sm id).group := by
      rw [hu, Auth.put_stack, hv, Auth.push_stack, hs, unvisited]
      split
      · exact hids
      · exact List.not_mem_nil
    have hstep : Stepped id u.stack u (wpaSmStep S id u) :=
      wpaSmStep_stepped S hnodup hid hloop halive hout fun x => (hwaiting x).of_frame (hframe x)
    obtain ⟨hkept, hstas⟩ := wpaSmStep_marked S hloop halive hmarked
    refine ⟨hstas, hstep.groups, fun j => (hstep.home j).trans (hhome j), hstep.waiting,
      fun x => (hstep.excess x).trans (hexcess x), .inr ⟨?_, hkept, fun x hx => ?_⟩⟩
    · rcases hstep.ends with ⟨hstack, -⟩ | ⟨-, herase, -⟩
      · exact hstack
      · rw [herase] at hstas
        have hgone : id ∈ u.stas.erase id := hstas.symm ▸ hid
        exact absurd rfl ((List.Nodup.mem_erase_iff hnodup).mp hgone).1
    · have hne : ((wpaSmStep S id u).group x).wpaGroupState ≠ (u.group x).wpaGroupState :=
        fun he => hx (he.trans (frame_state (hframe x)))
      exact ⟨(hstep.leave x hne).1.trans (hhome id), (hstep.leave x hne).2⟩
  · -- it is passed over
    rw [hmark, if_neg Bool.false_ne_true]
    set l : Loc := { v.loc id with sm := { s.sm id with gUpdateStationKeys := false } } with hl
    obtain ⟨hhome, -, hexcess⟩ :=
      visit_put (l := l) hs hnodup hid hids rfl (add_zero _).symm rfl
    have hsame : ∀ x, (v.put id l).group x = s.group x := by
      intro x
      by_cases hx : x = (s.sm id).group
      · subst hx
        exact Function.update_self ..
      · exact Function.update_of_ne hx ..
    refine ⟨rfl, rfl, hhome, fun x => (hsame x).symm ▸ hwaiting x, hexcess,
      .inl ⟨rfl, fun x => ?_⟩⟩
    exact ⟨congrArg Group.gKeyDoneStations (hsame x), congrArg Group.wpaGroupState (hsame x),
      congrArg Group.changed (hsame x)⟩

/-! ## Tasks -/

theorem Regrouped.shape {x : Group} {r : Auth}
    (h : Regrouped g x (.rekeyGroups gs :: ts) s r) (hnodup : s.stas.Nodup) (hends : RekeyEnds ts)
    (hgs : ∀ y ∈ g :: gs, y ∈ s.groups) : Shape r r.stack := by
  have hgs' : ∀ y ∈ g :: gs, y ∈ r.groups := h.groups ▸ hgs
  rcases h.out with ⟨hstack, -⟩ | ⟨hstack, -⟩ | ⟨hstack, -⟩
  · exact hstack ▸ .rekey hends hgs'
  · exact hstack ▸ .rekey hends hgs'
  · exact hstack ▸ .visits hends hgs' hnodup

theorem Regrouped.asked {x : Group} {r : Auth} {f : Group → Group}
    (h : Regrouped g x ts (s.setGroup g f) r)
    (hcount : (f (s.group g)).gKeyDoneStations = (s.group g).gKeyDoneStations)
    (hstate : (f (s.group g)).wpaGroupState = (s.group g).wpaGroupState) :
    Regrouped g x ts s r := by
  have hself : (s.setGroup g f).group g = f (s.group g) := Function.update_self ..
  have hout := h.out
  rw [hself, hcount, hstate] at hout
  exact ⟨h.stas, h.groups, h.sm, h.group.trans (Function.update_idem ..), h.running, hout⟩

theorem Flow.at_rest (h : Flow s) (hs : Ends s.stack) (hid : id ∈ s.stas) :
    (s.sm id).inStepLoop = false ∧ (s.sm id).pendingDeinit = false := by
  refine ⟨?_, h.good.control.alive id hid⟩
  rw [Bool.eq_false_iff, Ne, h.good.control.loop id hid, hs.loops]
  exact List.not_mem_nil

theorem Flow.tail {t : Task} (h : Flow (s.push t)) (ht : t.isTail = true) (hs : Ends s.stack) :
    Turn (s.push t) .task (runTask S t s) := by
  have hends : Ends (s.push t).stack := fun u hu => by
    rcases List.mem_cons.mp hu with rfl | hu
    · exact ht
    · exact hs u hu
  have habsent : Turn (s.push t) .task s := h.levels_ends hends.outside hs same_pop
  have hstep : ∀ {id u}, id ∈ s.stas → Same s u → u.stack = s.stack →
      (u.sm id).inStepLoop = (s.sm id).inStepLoop →
      (u.sm id).pendingDeinit = (s.sm id).pendingDeinit →
      Turn (s.push t) .task (wpaSmStep S id u) := by
    intro id u hid hsame hstack hloop halive
    obtain ⟨hloop', halive'⟩ := h.at_rest hends hid
    have hu : Ends u.stack := hstack ▸ hs
    exact h.steps hends.outside hid ((same_pop.trans hsame).level_outside hends.outside hu) hu
      (hloop.trans hloop') (halive.trans halive')
  cases t with
  | afterInit id =>
    rw [runTask]
    split
    case isTrue hid =>
      refine hstep hid (same_setSm rfl rfl) rfl ?_ ?_ <;> rw [Auth.setSm_sm_self] <;> rfl
    case isFalse => exact habsent
  | afterReauth id ev =>
    rw [runTask]
    split
    case isTrue hid =>
      have hkept := eventEnd_kept ev ((s.setSm id Sm.initDone).loc id)
      have hctl := eventEnd_control ev ((s.setSm id Sm.initDone).loc id)
      refine hstep hid ((same_setSm rfl rfl).trans hkept.same) rfl ?_ ?_
      · rw [Auth.onSta_sm_self, hctl.loop, Auth.loc_sm, Auth.setSm_sm_self]
        rfl
      · rw [Auth.onSta_sm_self, hctl.alive, Auth.loc_sm, Auth.setSm_sm_self]
        rfl
    case isFalse => exact habsent
  | receiveTail id f =>
    rw [runTask]
    split
    case isTrue hid =>
      refine hstep hid (same_setSm rfl rfl) rfl ?_ ?_ <;> rw [Auth.setSm_sm_self] <;> rfl
    case isFalse => exact habsent
  | _ => exact Bool.noConfusion ht

theorem Flow.loop (h : Flow (s.push (.check id))) (hs : Ends s.stack) :
    Turn (s.push (.check id)) .task (runTask S (.check id) s) := by
  have houtside : Outside (s.push (.check id)).stack := hs.outside_check id
  have hid : id ∈ s.stas := h.good.control.known id List.mem_cons_self
  have halive : (s.sm id).pendingDeinit = false := h.good.control.alive id hid
  rw [runTask]
  split
  · have hout : id ∉ unvisited s.stack (s.sm id).group := by
      rw [hs.outside.unvisited]
      exact List.not_mem_nil
    have hstep := stepIteration_stepped S (s := s) h.good.control.nodup hid halive hout
      (h.waiting_outside houtside)
    exact ((same_pop.level_outside houtside hs).stepped hstep).turn houtside hid hs
  · rw [finishStep_alive halive]
    exact h.levels_ends houtside hs (same_pop.trans (same_setSm rfl rfl))

theorem Flow.visited (h : Flow (s.push (.check id)))
    (hs : s.stack = .updateStas ids :: .rekeyCheck g :: .rekeyGroups gs :: ts)
    (hends : RekeyEnds ts) (hgs : ∀ x ∈ g :: gs, x ∈ s.groups) (hids : (id :: ids).Nodup)
    (hmarked : Marked (s.sm id)) : Turn (s.push (.check id)) .task (runTask S (.check id) s) := by
  obtain ⟨hnew, hnodup⟩ := List.nodup_cons.mp hids
  have hid : id ∈ s.stas := h.good.control.known id List.mem_cons_self
  have halive : (s.sm id).pendingDeinit = false := h.good.control.alive id hid
  have hwaiting : ∀ x, Waiting (s.group x) :=
    h.waiting fun g us hus => absurd (List.cons.inj hus).1 nofun
  have hout : ∀ x, id ∉ unvisited s.stack x := fun x => by
    rw [hs, unvisited]
    split
    · exact hnew
    · exact List.not_mem_nil
  rw [runTask]
  split
  · have hstep := stepIteration_stepped S (s := s) h.good.control.nodup hid halive (hout _) hwaiting
    obtain ⟨hkept, hstas⟩ := stepIteration_marked S halive hmarked
    have hstack : (stepIteration S id s).stack = .check id :: s.stack := by
      rcases hstep.ends with ⟨hstack, -⟩ | ⟨-, herase, -⟩
      · exact hstack
      · rw [herase] at hstas
        have hgone : id ∈ s.stas.erase id := hstas.symm ▸ hid
        exact absurd rfl ((List.Nodup.mem_erase_iff h.good.control.nodup).mp hgone).1
    refine .stepped id s.stack ((same_pop.level fun _ => rfl).stepped hstep) hid ?_
      (fun x => not_underRekey_check x id s.stack) (.inr ⟨hstas, hkept, ?_⟩)
    · rw [hstack, hs]
      exact .visited hends (hstep.groups ▸ hgs) hids hkept
    · rw [hstack]
      exact hout _
  · rw [finishStep_alive halive]
    have hsame : Same (s.push (.check id)) (s.setSm id fun sm => { sm with inStepLoop := false }) :=
      same_pop.trans (same_setSm rfl rfl)
    refine .level hsame hwaiting (fun x => hsame.excess fun _ _ => Iff.rfl) ?_
      fun x hunder _ => absurd hunder (not_underRekey_check x id s.stack)
    rw [Auth.setSm_stack, hs]
    exact .visits hends hgs hnodup

theorem Flow.visits (h : Flow (s.push (.updateStas ids)))
    (hs : s.stack = .rekeyCheck g :: .rekeyGroups gs :: ts) (hends : RekeyEnds ts)
    (hgs : ∀ x ∈ g :: gs, x ∈ s.groups) (hids : ids.Nodup) :
    Turn (s.push (.updateStas ids)) .task (runTask S (.updateStas ids) s) := by
  have hwaiting : ∀ x, Waiting (s.group x) :=
    h.waiting fun g us hus => absurd (List.cons.inj hus).1 nofun
  have hunder : ∀ x, UnderRekey x (s.push (.updateStas ids)).stack → x = g := by
    rintro x (⟨us, hus⟩ | ⟨js, us, hus⟩)
    · exact absurd (List.cons.inj hus).1 nofun
    · have htop := (List.cons.inj hus).2
      rw [hs] at htop
      exact (Task.rekeyCheck.inj (List.cons.inj htop).1).symm
  cases ids with
  | nil =>
    have hsame : Same (s.push (.updateStas [])) s := same_pop
    refine .level hsame hwaiting (fun x => hsame.excess fun j _ => ?_) ?_
      fun x hx _ => hunder x hx ▸ .inl ⟨_, hs⟩
    · rw [Auth.push_stack, hs]
      show j ∈ [] ↔ j ∈ if g = x then [] else []
      rw [ite_self]
    · show Shape s s.stack
      rw [hs]
      exact .rekey hends hgs
  | cons id ids =>
    obtain ⟨hnew, hnodup⟩ := List.nodup_cons.mp hids
    by_cases hid : id ∈ s.stas
    · have hstack : (s.push (.updateStas (id :: ids))).stack =
          .updateStas (id :: ids) :: .rekeyCheck g :: .rekeyGroups gs :: ts := by
        rw [Auth.push_stack, hs]
      have hvisit := h.visit (S := S) hs hends hnew hid
      rw [hs] at hvisit
      refine .visit id ids g _ hstack hid hnew (hgs g List.mem_cons_self) hvisit ?_
      have hgs' : ∀ x ∈ g :: gs, x ∈ (runTask S (.updateStas (id :: ids)) s).groups :=
        hvisit.groups ▸ hgs
      rcases hvisit.out with ⟨hstack, -⟩ | ⟨hstack, hmarked, -⟩
      · exact hstack ▸ .visits hends hgs' hnodup
      · exact hstack ▸ .visited hends hgs' hids hmarked
    · rw [runTask, if_neg (show id ∉ (s.push (.updateStas ids)).stas from hid)]
      have hsame : Same (s.push (.updateStas (id :: ids))) (s.push (.updateStas ids)) :=
        ⟨rfl, rfl, fun _ => rfl, fun _ => rfl, fun _ => rfl⟩
      refine .level hsame hwaiting (fun x => hsame.excess fun j hj => ?_) ?_
        fun x hx _ => hunder x hx ▸ .inr ⟨ids, _, by rw [Auth.push_stack, hs]⟩
      · have hne : j ≠ id := fun he => hid (he ▸ hj)
        rw [Auth.push_stack, Auth.push_stack, hs, unvisited, unvisited]
        split
        · simp [hne]
        · rfl
      · rw [Auth.push_stack, hs]
        exact .visits hends hgs hnodup

theorem Flow.task {t : Task} (h : Flow (s.push t)) : Turn (s.push t) .task (runTask S t s) := by
  have hnodup : s.stas.Nodup := h.good.control.nodup
  have hshape := h.shape
  rw [Auth.push_stack] at hshape
  generalize hst : s.stack = ts at hshape
  cases hshape with
  | rest hends => exact h.tail (hends t List.mem_cons_self) (hst ▸ hends.tail)
  | loop hends => exact h.loop (hst ▸ hends)
  | @groups gs _ hends hgs =>
    have hs : Outside (s.push (.rekeyGroups gs)).stack := outside_rekeyGroups gs s.stack
    cases gs with
    | nil => exact h.levels_ends hs (hst ▸ hends.ends) same_pop
    | cons g gs =>
      have hwaiting := h.waiting_outside hs
      set u := (s.setGroup g fun x => { x with gtkReKey := true }).push (.rekeyGroups gs) with hu
      have hrunning : Running (u.group g) := by
        rw [show u.group g = { s.group g with gtkReKey := true } from Function.update_self ..]
        exact ⟨(hwaiting g).init, (hwaiting g).state⟩
      obtain ⟨x, hre⟩ := rekeyStep_regrouped (S := S) hrunning
      have hre' : Regrouped g x u.stack (s.push (.rekeyGroups (g :: gs))) (rekeyStep S g u) :=
        Regrouped.asked (s := s.push (.rekeyGroups (g :: gs)))
          (f := fun x => { x with gtkReKey := true }) ⟨hre.stas, hre.groups, hre.sm, hre.group, hre.running, hre.out⟩ rfl rfl
      refine .regroup g x _ hre' (hgs g List.mem_cons_self) hs.unvisited
        (fun y _ => hwaiting y) ?_
      rw [hu, Auth.push_stack, Auth.setGroup_stack, hst] at hre'
      exact hre'.shape hnodup hends hgs
  | @rekey g gs ts hends hgs =>
    have hout : ∀ y, unvisited (s.push (.rekeyCheck g)).stack y = [] := fun _ => rfl
    rw [runTask]
    split
    case isTrue hchanged =>
      obtain ⟨x, hre⟩ := rekeyStep_regrouped (S := S) (s := s) (h.running g)
      have hre' : Regrouped g x s.stack (s.push (.rekeyCheck g)) (rekeyStep S g s) :=
        ⟨hre.stas, hre.groups, hre.sm, hre.group, hre.running, hre.out⟩
      refine .regroup g x _ hre' (hgs g List.mem_cons_self) hout (fun y hy => ?_) ?_
      · refine ⟨h.running y, Bool.eq_false_iff.mpr fun hrekey => ?_⟩
        obtain ⟨⟨us, hus⟩, -⟩ := h.rekey y hrekey
        exact hy (Task.rekeyCheck.inj (List.cons.inj hus).1).symm
      · rw [hst] at hre'
        exact hre'.shape hnodup hends hgs
    case isFalse hchanged =>
      refine .level same_pop (h.waiting fun y us hus => ?_)
        (fun y => same_pop.excess fun j _ => ?_) ?_ fun y hunder hchanged' => ?_
      · rw [← Task.rekeyCheck.inj (List.cons.inj hus).1]
        exact Bool.eq_false_iff.mpr hchanged
      · rw [hout, hst]
        rfl
      · rw [hst]
        exact .groups hends fun y hy => hgs y (List.mem_cons_of_mem g hy)
      · rcases hunder with ⟨us, hus⟩ | ⟨ids, us, hus⟩
        · rw [← Task.rekeyCheck.inj (List.cons.inj hus).1] at hchanged'
          exact absurd hchanged' hchanged
        · cases (List.cons.inj hus).1
  | visits hends hgs hids => exact h.visits hst hends hgs hids
  | visited hends hgs hids hmarked => exact h.visited hst hends hgs hids hmarked

/-! ## Calls -/

theorem sendAll_same (s : Auth) (l : List (StaId × SendArgs)) :
    Same s (sendAll S s l) ∧ (sendAll S s l).stack = s.stack ∧
      ∀ j, ((sendAll S s l).sm j).inStepLoop = (s.sm j).inStepLoop ∧
        ((sendAll S s l).sm j).pendingDeinit = (s.sm j).pendingDeinit := by
  induction l generalizing s with
  | nil => exact ⟨Same.rfl, rfl, fun _ => ⟨rfl, rfl⟩⟩
  | cons a l ih =>
    set u := s.onSta a.1 fun l => wpaSendEapol S l a.2 with hu
    obtain ⟨hsame, hstack, hctl⟩ := ih u
    refine ⟨(wpaSendEapol_kept S (s.loc a.1) a.2).same.trans hsame, hstack, fun j => ?_⟩
    have hone : (u.sm j).inStepLoop = (s.sm j).inStepLoop ∧
        (u.sm j).pendingDeinit = (s.sm j).pendingDeinit := by
      by_cases hne : j = a.1
      · rw [hne, hu, Auth.onSta_sm_self, wpaSendEapol_sm]
        exact ⟨rfl, rfl⟩
      · rw [hu, Auth.onSta_sm_of_ne s hne]
        exact ⟨rfl, rfl⟩
    exact ⟨(hctl j).1.trans hone.1, (hctl j).2.trans hone.2⟩

theorem smkHandler_same (s : Auth) (id : StaId) (f : EapolKey) :
    Same s (smkHandler S id f s) ∧ (smkHandler S id f s).stack = s.stack ∧
      ∀ j, ((smkHandler S id f s).sm j).inStepLoop = (s.sm j).inStepLoop ∧
        ((smkHandler S id f s).sm j).pendingDeinit = (s.sm j).pendingDeinit := by
  obtain ⟨hsame, hstack, hctl⟩ := sendAll_same (S := S) s
    (smkSends S s.findSta (S.cb s.now) id (s.sm id).addr f)
  exact ⟨⟨hsame.stas, hsame.groups, hsame.home, hsame.mark, hsame.control⟩, hstack, hctl⟩

theorem micFailureReport_same (s : Auth) : Same s (micFailureReport S s) := by
  have hsame : Same s (s.setGroup 0 (wpaGtkRekey S (S.cb s.now) (S.cb (s.now + 1)))) :=
    same_setGroup rfl
  unfold micFailureReport
  split
  · exact ⟨rfl, rfl, hsame.home, hsame.mark, hsame.control⟩
  · exact ⟨rfl, rfl, fun _ => rfl, fun _ => rfl, fun _ => rfl⟩

theorem Flow.callLevel (h : Flow s) (hs : s.stack = []) (hsame : Same s u) (hu : u.stack = []) :
    Turn s a u := by
  refine h.levels_ends ?_ ?_ hsame
  · rw [hs]
    exact Ends.nil.outside
  · rw [hu]
    exact Ends.nil

theorem Flow.callStep (h : Flow s) (hs : s.stack = []) (hid : id ∈ s.stas) (hlevel : Level id s u)
    (hu : Ends u.stack) (hloop : (u.sm id).inStepLoop = (s.sm id).inStepLoop)
    (halive : (u.sm id).pendingDeinit = (s.sm id).pendingDeinit) :
    Turn s a (wpaSmStep S id u) := by
  obtain ⟨hloop', halive'⟩ := h.at_rest (hs ▸ Ends.nil) hid
  refine h.steps ?_ hid hlevel hu (hloop.trans hloop') (halive.trans halive')
  rw [hs]
  exact Ends.nil.outside

theorem Flow.callSame (h : Flow s) (hs : s.stack = []) (hid : id ∈ s.stas) (hsame : Same s u)
    (hu : Ends u.stack) (hloop : (u.sm id).inStepLoop = (s.sm id).inStepLoop)
    (halive : (u.sm id).pendingDeinit = (s.sm id).pendingDeinit) :
    Turn s a (wpaSmStep S id u) := by
  refine h.callStep hs hid (hsame.level_outside ?_ hu) hu hloop halive
  rw [hs]
  exact Ends.nil.outside

theorem Flow.callSetSm (h : Flow s) (hs : s.stack = []) (hid : id ∈ s.stas) {f : Sm → Sm}
    {t : List Task} (ht : Ends t) (hhome : (f (s.sm id)).group = (s.sm id).group)
    (hmark : (f (s.sm id)).gUpdateStationKeys = (s.sm id).gUpdateStationKeys)
    (hloop : (f (s.sm id)).inStepLoop = (s.sm id).inStepLoop)
    (halive : (f (s.sm id)).pendingDeinit = (s.sm id).pendingDeinit) :
    Turn s a (wpaSmStep S id { s.setSm id f with stack := t }) := by
  have hsame : Same s (s.setSm id f) := same_setSm hhome hmark
  have hself : (s.setSm id f).sm id = f (s.sm id) := Auth.setSm_sm_self s id f
  refine h.callSame hs hid ⟨rfl, rfl, hsame.home, hsame.mark, hsame.control⟩ ht ?_ ?_
  · rw [← hloop, ← hself]
  · rw [← halive, ← hself]

theorem Flow.receiveSta (h : Flow s) (hs : s.stack = []) (hid : id ∈ s.stas) (data : Bytes) :
    Turn s a (wpaReceiveSta S id data s) := by
  have houtside : Outside s.stack := hs ▸ Ends.nil.outside
  unfold wpaReceiveSta wpaReceive
  cases hadm : admitted S (s.loc id).sm data with
  | none => exact h.callLevel hs Same.rfl hs
  | some f =>
    obtain ⟨hloop, -, -, halive, -⟩ := receiveFrame_control (S := S) (s.loc id) f
    have hkept := receiveFrame_kept S (s.loc id) f
    simp only [Option.map_some]
    generalize receiveFrame S (s.loc id) f = r at hloop halive hkept
    obtain ⟨l, next⟩ := r
    have hsame : Same s (s.put id l) := hkept.same
    have hself : (s.put id l).sm id = l.sm := Auth.put_sm_self s id l
    have hkeep : ∀ u : Auth, next ≠ .stop → Same s u → u.stack = [] →
        (u.sm id).inStepLoop = l.sm.inStepLoop → (u.sm id).pendingDeinit = l.sm.pendingDeinit →
        Turn s a (keepAndStep S id f u) := by
      intro u hgo hsame' hu hl hp
      have hset : Same u (u.setSm id (keepFrame f)) := same_setSm rfl rfl
      refine h.callSame hs hid (hsame'.trans hset) (hu ▸ Ends.nil) ?_ ?_
      · rw [Auth.setSm_sm_self]
        exact hl.trans hloop
      · rw [Auth.setSm_sm_self]
        exact hp.trans (halive.resolve_right hgo)
    cases next with
    | stop =>
      simp only [afterReceive]
      split
      · have hends : Ends s.stack := hs ▸ Ends.nil
        refine Stepped.turn ((hsame.level fun _ => rfl).stepped
          (wpaFreeStaSm_stepped (s := s.put id l) h.good.control.nodup hid ?_ ?_)) houtside hid hends
        · rw [Auth.put_stack, houtside.unvisited]
          exact List.not_mem_nil
        · exact fun g => (h.waiting_outside houtside g).of_frame
            (control_frame (hsame.control g)).2.1
      · exact h.callLevel hs hsame hs
    | smk =>
      obtain ⟨hsmk, hstack, -⟩ := smkHandler_same (S := S) (s.put id l) id f
      exact h.callLevel hs (hsame.trans hsmk) (hstack.trans hs)
    | smkKeep =>
      obtain ⟨hsmk, hstack, hctl⟩ := smkHandler_same (S := S) (s.put id l) id f
      exact hkeep (smkHandler S id f (s.put id l)) (by simp) (hsame.trans hsmk) (hstack.trans hs)
        ((hctl id).1.trans (congrArg Sm.inStepLoop hself))
        ((hctl id).2.trans (congrArg Sm.pendingDeinit hself))
    | micFailure =>
      have hmic := micFailureReport_same (S := S) (s.put id l)
      have hmsm : (micFailureReport S (s.put id l)).sm = (s.put id l).sm := by
        unfold micFailureReport
        split <;> rfl
      have hmstack : (micFailureReport S (s.put id l)).stack = s.stack := by
        unfold micFailureReport
        split <;> rfl
      refine hkeep ((micFailureReport S (s.put id l)).setSm id Sm.wpaRequestNewPtk) (by simp)
        ((hsame.trans hmic).trans (same_setSm rfl rfl)) (hmstack.trans hs) ?_ ?_
      · rw [Auth.setSm_sm_self, hmsm, hself]
        rfl
      · rw [Auth.setSm_sm_self, hmsm, hself]
        rfl
    | rekeyGtk =>
      have hends : RekeyEnds [.receiveTail id f] := fun t ht => ⟨id, f, List.mem_singleton.mp ht⟩
      refine h.levels houtside (fun _ => rfl)
        ⟨hsame.stas, hsame.groups, hsame.home, hsame.mark, hsame.control⟩ ?_
      show Shape _ (.rekeyGroups s.groups :: .receiveTail id f :: s.stack)
      rw [hs]
      exact .groups hends fun x hx => hx
    | keep =>
      exact hkeep (s.put id l) (by simp) hsame hs (congrArg Sm.inStepLoop hself)
        (congrArg Sm.pendingDeinit hself)

theorem Flow.smEvent (h : Flow s) (hs : s.stack = []) (hid : id ∈ s.stas) (ev : WpaEvent) :
    Turn s a (wpaAuthSmEvent S id ev s) := by
  set s1 := s.onSta id (·.log (.reported ev)) with hs1
  have hsame : Same s s1 := Kept.same (l := (s.loc id).log (.reported ev)) ⟨rfl, rfl, rfl⟩
  have hself : s1.sm id = s.sm id := Auth.onSta_sm_self s id _
  have hdef : wpaAuthSmEvent S id ev s =
      if ev.starts && !(s1.sm id).started then
        wpaSmStep S id ((s1.setSm id Sm.start).push (.afterReauth id ev))
      else wpaSmStep S id (s1.onSta id fun l => eventEnd ev (eventRequest ev l)) := rfl
  rw [hdef]
  split
  · have hset : Same s1 (s1.setSm id Sm.start) := same_setSm rfl rfl
    have hall := hsame.trans hset
    refine h.callSame hs hid (u := (s1.setSm id Sm.start).push (.afterReauth id ev))
      ⟨hall.stas, hall.groups, hall.home, hall.mark, hall.control⟩ ?_ ?_ ?_
    · intro t ht
      rw [Auth.push_stack, show (s1.setSm id Sm.start).stack = [] from hs] at ht
      exact List.mem_singleton.mp ht ▸ rfl
    · rw [Auth.push_sm, Auth.setSm_sm_self, hself]
      rfl
    · rw [Auth.push_sm, Auth.setSm_sm_self, hself]
      rfl
  · have hends : Ends s1.stack := (show s1.stack = [] from hs) ▸ Ends.nil
    have hlevel : Level id s s1 := hsame.level fun _ => rfl
    have hset : Settles (s1.loc id) (eventEnd ev (eventRequest ev (s1.loc id))) :=
      (eventRequest_settles ev _).trans (eventEnd_kept ev _).settles
    have h1 := eventRequest_control ev (s1.loc id)
    have h2 := eventEnd_control ev (eventRequest ev (s1.loc id))
    refine h.callStep hs hid (hlevel.trans (hset.level h.good.control.nodup hid ?_)) hends ?_ ?_
    · rw [hends.outside.unvisited]
      exact List.not_mem_nil
    · rw [Auth.onSta_sm_self, h2.loop, h1.loop, Auth.loc_sm, hself]
    · rw [Auth.onSta_sm_self, h2.alive, h1.alive, Auth.loc_sm, hself]

theorem wpaAuthStaSetVlan_cases (s : Auth) (id : StaId) (vlan : ℤ) :
    (vlan ∉ s.groups ∧ wpaGroupInit S (S.cb s.now) (S.cb (s.now + 1)) = none ∧
        wpaAuthStaSetVlan S id vlan s = { s with now := s.now + 2 }) ∨
      (wpaAuthStaSetVlan S id vlan s).stack = s.stack ∧
        (wpaAuthStaSetVlan S id vlan s).stas = s.stas ∧
        (wpaAuthStaSetVlan S id vlan s).sm =
          Function.update s.sm id { s.sm id with group := vlan } ∧
        Moved vlan s (wpaAuthStaSetVlan S id vlan s) := by
  unfold wpaAuthStaSetVlan
  split
  case isTrue hvlan =>
    exact .inr ⟨rfl, rfl, rfl, fun _ => ⟨rfl, rfl⟩, fun hnot => absurd hvlan hnot⟩
  case isFalse hvlan =>
    split
    · next hx => exact .inl ⟨hvlan, hx, rfl⟩
    · next x hx =>
      obtain ⟨hwaiting, hcount, -⟩ := wpaGroupInit_waiting S hx
      exact .inr ⟨rfl, rfl, rfl, fun hmem => absurd hmem hvlan,
        fun _ => ⟨rfl, x, hwaiting, hcount, rfl⟩⟩

theorem Flow.setVlan (h : Flow s) (hs : s.stack = []) (hid : id ∈ s.stas) (vlan : ℤ) :
    Turn s (.call (.setVlan id vlan)) (wpaAuthStaSetVlan S id vlan s) := by
  rcases wpaAuthStaSetVlan_cases (S := S) s id vlan with
    ⟨-, -, heq⟩ | ⟨hstack, hstas, hsm, hgroups⟩
  · rw [heq]
    exact h.callLevel hs ⟨rfl, rfl, fun _ => rfl, fun _ => rfl, fun _ => rfl⟩ hs
  · exact .move id vlan hs hid (hstack.trans hs) hstas hsm hgroups

theorem Flow.exec (h : Flow s) (hs : s.stack = []) (o : Op) :
    Turn s (.call o) (exec S o s) := by
  have hwith : ∀ (id : StaId) (f : Auth → Auth), (id ∈ s.stas → Turn s (.call o) (f s)) →
      Turn s (.call o) (withSta id f s) := by
    intro id f hf
    unfold withSta
    split
    · next hid => exact hf hid
    · exact h.callLevel hs Same.rfl hs
  cases o with
  | staInit id addr pos =>
    rw [WpaAuth.exec]
    split
    · exact h.callLevel hs Same.rfl hs
    · next hid => exact .join id addr pos hs hid
  | validateWpaIe id info =>
    exact hwith id (·.setSm id (Sm.associate info)) fun _ =>
      h.callLevel hs (same_setSm rfl rfl) hs
  | staAssociated id =>
    refine hwith id (wpaAuthStaAssociated S id) fun hid => ?_
    unfold wpaAuthStaAssociated
    split
    · exact h.callLevel hs Same.rfl hs
    · split
      · have hkept : Kept (s.loc id) (reassociate (s.loc id)) := ⟨rfl, rfl, rfl⟩
        refine h.callSame hs hid hkept.same ?_ ?_ ?_
        · exact (show s.stack = [] from hs) ▸ Ends.nil
        · rw [Auth.onSta_sm_self]
          rfl
        · rw [Auth.onSta_sm_self]
          rfl
      · refine h.callSetSm hs hid (f := Sm.start) (t := .afterInit id :: s.stack) ?_ rfl rfl rfl rfl
        rw [hs]
        exact fun t ht => List.mem_singleton.mp ht ▸ rfl
  | staNoWpa id =>
    exact hwith id (·.setSm id fun sm => { sm with wpaKeyMgmt := .none }) fun _ =>
      h.callLevel hs (same_setSm rfl rfl) hs
  | receive id data => exact hwith id _ fun hid => h.receiveSta hs hid data
  | smEvent id ev => exact hwith id _ fun hid => h.smEvent hs hid ev
  | sendEapolTimeout id =>
    exact hwith id (fun s => wpaSmStep S id (s.setSm id fun sm => { sm with timeoutEvt := true }))
      fun hid => h.callSetSm hs hid (f := fun sm => { sm with timeoutEvt := true }) (t := s.stack)
        (hs ▸ Ends.nil) rfl rfl rfl rfl
  | rekeyPtk id =>
    exact hwith id (fun s => wpaSmStep S id (s.setSm id Sm.wpaRequestNewPtk)) fun hid =>
      h.callSetSm hs hid (f := Sm.wpaRequestNewPtk) (t := s.stack) (hs ▸ Ends.nil) rfl rfl rfl rfl
  | rekeyGtk =>
    refine h.levels (hs ▸ Ends.nil.outside) (fun _ => rfl)
      ⟨rfl, rfl, fun _ => rfl, fun _ => rfl, fun _ => rfl⟩ ?_
    show Shape _ (.rekeyGroups s.groups :: s.stack)
    rw [hs]
    exact .groups (fun t ht => absurd ht List.not_mem_nil) fun x hx => hx
  | rekeyGmk =>
    have hsame : Same s
        (s.setGroup 0 fun g => { g with gmk := ((S.cb s.now).randomKey).getD g.gmk }) :=
      same_setGroup rfl
    exact h.callLevel hs ⟨rfl, rfl, hsame.home, hsame.mark, hsame.control⟩ hs
  | smCallStep id =>
    exact hwith id _ fun hid => h.callSame hs hid Same.rfl (hs ▸ Ends.nil) rfl rfl
  | setVlan id vlan => exact hwith id _ fun hid => h.setVlan hs hid vlan
  | removePtk id =>
    have hkept : Kept (s.loc id) (wpaRemovePtk (s.loc id)) := ⟨rfl, rfl, rfl⟩
    exact hwith id (·.onSta id wpaRemovePtk) fun _ => h.callLevel hs hkept.same hs
  | staDeinit id =>
    refine hwith id (wpaFreeStaSm id) fun hid => ?_
    have houtside : Outside s.stack := hs ▸ Ends.nil.outside
    have hout : id ∉ unvisited s.stack (s.sm id).group := by
      rw [houtside.unvisited]
      exact List.not_mem_nil
    exact (wpaFreeStaSm_stepped h.good.control.nodup hid hout (h.waiting_outside houtside)).turn
      houtside hid (hs ▸ Ends.nil)

/-! ## All steps -/

theorem Flow.turn (h : Flow s) (a : Step) : step S s a = s ∨ Turn s a (step S s a) := by
  cases a with
  | call o =>
    rw [step]
    split
    case isTrue hs => exact .inr (h.exec (List.isEmpty_iff.mp hs) o)
    case isFalse => exact .inl rfl
  | task =>
    rw [step, micro]
    split
    · exact .inl rfl
    · next t ts hst =>
      have hpush : ({ s with stack := ts } : Auth).push t = s := by rw [Auth.push, ← hst]
      refine .inr ?_
      have hturn := Flow.task (S := S) (s := { s with stack := ts }) (t := t) (hpush.symm ▸ h)
      rwa [hpush] at hturn

theorem Flow.reach (h : Reach S (fun _ _ => True) s) : Flow s := by
  induction h with
  | @init g hg =>
    obtain ⟨hwaiting, -⟩ := wpaGroupInit_waiting S hg
    refine ⟨Good.wpaInit g, fun id hid => absurd hid List.not_mem_nil, List.mem_singleton.mpr rfl,
      fun _ => hwaiting.toRunning, fun _ hrekey => ?_, .rest Ends.nil⟩
    rw [show ((wpaInit g).group _).gtkReKey = g.gtkReKey from rfl, hwaiting.rekey] at hrekey
    exact Bool.noConfusion hrekey
  | @call s o hr hs hp ih => exact (ih.exec hs o).flow ih (hr.call hs hp).still
  | @micro s hr ih =>
    rcases ih.turn (S := S) .task with hsame | hturn
    · exact (show micro S s = s from hsame).symm ▸ ih
    · exact hturn.flow ih hr.micro.still

end Hostapd.Ap.WpaAuth
