import Hostapd.Ap.WpaAuth.Accounting

/-!
# The WPA authenticator: the flow of a rekey

What a step of a station's machine does to its group, and what is on the stack while a group is
rekeyed.

* **`Waiting`**: a group that no rekey has been asked of. Its machine only ends a rekey
  (`finishRekey`).
* **`Level`**: two states with the same accounts. **`Stepped`** is what an iteration of the loop of
  `wpa_sm_step` does: it keeps the accounts, and ends the rekey of the group when the count is zero,
  unless the station is removed.
* **`Shape`**: the stacks that are reached.
-/

namespace Hostapd.Ap.WpaAuth

open Hostapd.Lib

variable (S : Setup)

/-! ## Groups -/

structure Running (g : Group) : Prop where
  init : g.gInit = false
  state : g.wpaGroupState ≠ .gtkInit

/-- The group has been set up, and no rekey is asked of it. -/
structure Waiting (g : Group) : Prop extends Running g where
  rekey : g.gtkReKey = false

theorem Running.of_frame {g g' : Group} (h : Running g) (hframe : g'.frame = g.frame) :
    Running g' := by
  simp only [Group.frame, Prod.mk.injEq] at hframe
  exact ⟨hframe.2.2.trans h.init, fun hst => h.state (hframe.1.symm.trans hst)⟩

theorem Waiting.of_frame {g g' : Group} (h : Waiting g) (hframe : g'.frame = g.frame) :
    Waiting g' := by
  refine ⟨h.toRunning.of_frame hframe, ?_⟩
  simp only [Group.frame, Prod.mk.injEq] at hframe
  exact hframe.2.1.trans h.rekey

/-- The rekey is over when nobody owes an acknowledgement. -/
def Group.finishRekey (g : Group) : Group :=
  if g.wpaGroupState = .setKeys ∧ g.gKeyDoneStations = 0 then wpaGroupSetkeysdone g else g

theorem finishRekey_count (g : Group) :
    g.finishRekey.gKeyDoneStations = g.gKeyDoneStations := by
  unfold Group.finishRekey
  split <;> rfl

variable {g : Group}

theorem finishRekey_running (h : Running g) : Running g.finishRekey := by
  unfold Group.finishRekey
  split
  · exact ⟨h.init, nofun⟩
  · exact h

theorem finishRekey_rekey (g : Group) : g.finishRekey.gtkReKey = g.gtkReKey := by
  unfold Group.finishRekey
  split <;> rfl

theorem finishRekey_setKeys (h : g.finishRekey.wpaGroupState = .setKeys) :
    g.wpaGroupState = .setKeys ∧ g.gKeyDoneStations ≠ 0 := by
  unfold Group.finishRekey at h
  split at h
  · exact absurd h nofun
  case isFalse hnot => exact ⟨h, fun hzero => hnot ⟨h, hzero⟩⟩

theorem finishRekey_state (h : g.finishRekey.wpaGroupState ≠ g.wpaGroupState) :
    g.gKeyDoneStations = 0 := by
  unfold Group.finishRekey at h
  split at h
  case isTrue hzero => exact hzero.2
  case isFalse => exact absurd rfl h

theorem wpaGroupSmStep_waiting (ans : Answers) (h : Waiting g) :
    wpaGroupSmStep S ans g = (g.finishRekey, false) := by
  obtain ⟨⟨hinit, hst⟩, hrekey⟩ := h
  rw [wpaGroupSmStep, hinit, Group.finishRekey]
  cases hstate : g.wpaGroupState with
  | gtkInit => exact absurd hstate hst
  | setKeysDone => simp [hrekey]
  | setKeys =>
    simp only [hrekey, Bool.false_eq_true, if_false, true_and]
    split <;> rfl

theorem wpaGroupInit_waiting {ans ans' : Answers}
    (h : wpaGroupInit S ans ans' = some g) :
    Waiting g ∧ g.gKeyDoneStations = 0 ∧ g.wpaGroupState = .setKeysDone := by
  unfold wpaGroupInit at h
  split at h
  · exact absurd h nofun
  · obtain ⟨k, hk⟩ : ∃ k, ans.randomKey = some k := by
      rename_i hnone
      rw [Bool.or_eq_true, not_or] at hnone
      exact Option.ne_none_iff_exists'.mp fun hn => hnone.1 (by rw [hn]; rfl)
    rw [← Option.some.inj h]
    simp only [wpaGroupInitGmkAndCounter, hk]
    exact ⟨⟨⟨rfl, nofun⟩, rfl⟩, rfl, rfl⟩

/-! ## Accounts -/

/-- Two states between which no mark, no count and no group has changed. -/
structure Same (s u : Auth) : Prop where
  stas : u.stas = s.stas
  groups : u.groups = s.groups
  home : ∀ j, (u.sm j).group = (s.sm j).group
  mark : ∀ j, (u.sm j).gUpdateStationKeys = (s.sm j).gUpdateStationKeys
  control : ∀ g, (u.group g).control = (s.group g).control

/-- Two states with the same accounts, between which only the mark of one station may have
changed. -/
structure Level (id : StaId) (s u : Auth) : Prop where
  stas : u.stas = s.stas
  groups : u.groups = s.groups
  home : ∀ j, (u.sm j).group = (s.sm j).group
  mark : ∀ j, j ≠ id → (u.sm j).gUpdateStationKeys = (s.sm j).gUpdateStationKeys
  frame : ∀ g, (u.group g).frame = (s.group g).frame
  excess : ∀ g, u.excess g = s.excess g

section Accounts

variable {s u v : Auth} {id : StaId}

theorem Same.rfl : Same s s :=
  ⟨Eq.refl _, Eq.refl _, fun _ => Eq.refl _, fun _ => Eq.refl _, fun _ => Eq.refl _⟩

theorem same_pop {t : Task} : Same (s.push t) s :=
  ⟨Eq.refl _, Eq.refl _, fun _ => Eq.refl _, fun _ => Eq.refl _, fun _ => Eq.refl _⟩

theorem Same.trans (h : Same s u) (h' : Same u v) : Same s v :=
  ⟨h'.stas.trans h.stas, h'.groups.trans h.groups, fun j => (h'.home j).trans (h.home j),
    fun j => (h'.mark j).trans (h.mark j), fun g => (h'.control g).trans (h.control g)⟩

theorem Kept.same {l : Loc} (h : Kept (s.loc id) l) : Same s (s.put id l) := by
  have hsm : ∀ j, ((s.put id l).sm j).group = (s.sm j).group ∧
      ((s.put id l).sm j).gUpdateStationKeys = (s.sm j).gUpdateStationKeys := by
    intro j
    by_cases hne : j = id
    · subst hne
      rw [Auth.put_sm_self]
      exact ⟨h.home, h.flag⟩
    · rw [Auth.put_sm_of_ne s l hne]
      exact ⟨Eq.refl _, Eq.refl _⟩
  refine ⟨Eq.refl _, Eq.refl _, fun j => (hsm j).1, fun j => (hsm j).2, fun g => ?_⟩
  by_cases hg : g = (s.sm id).group
  · subst hg
    exact (congrArg Group.control (Function.update_self ..)).trans h.control
  · exact congrArg Group.control (Function.update_of_ne hg ..)

theorem same_setSm {f : Sm → Sm} (hhome : (f (s.sm id)).group = (s.sm id).group)
    (hmark : (f (s.sm id)).gUpdateStationKeys = (s.sm id).gUpdateStationKeys) :
    Same s (s.setSm id f) := by
  have hsm : ∀ j, ((s.setSm id f).sm j).group = (s.sm j).group ∧
      ((s.setSm id f).sm j).gUpdateStationKeys = (s.sm j).gUpdateStationKeys := by
    intro j
    by_cases hne : j = id
    · subst hne
      rw [Auth.setSm_sm_self]
      exact ⟨hhome, hmark⟩
    · rw [Auth.setSm_sm_of_ne s f hne]
      exact ⟨Eq.refl _, Eq.refl _⟩
  exact ⟨Eq.refl _, Eq.refl _, fun j => (hsm j).1, fun j => (hsm j).2, fun _ => Eq.refl _⟩

theorem same_setGroup {g : ℤ} {f : Group → Group}
    (h : (f (s.group g)).control = (s.group g).control) : Same s (s.setGroup g f) := by
  refine ⟨Eq.refl _, Eq.refl _, fun _ => Eq.refl _, fun _ => Eq.refl _, fun x => ?_⟩
  by_cases hx : x = g
  · subst hx
    exact (congrArg Group.control (Function.update_self ..)).trans h
  · exact congrArg Group.control (Function.update_of_ne hx ..)

theorem Same.excess (h : Same s u) {g : ℤ}
    (hunvisited : ∀ j ∈ s.stas, j ∈ unvisited u.stack g ↔ j ∈ unvisited s.stack g) :
    u.excess g = s.excess g :=
  excess_congr h.stas (fun j _ => ⟨h.home j, h.mark j⟩) hunvisited (control_frame (h.control g)).1

theorem Same.level (h : Same s u) (hunvisited : ∀ g, unvisited u.stack g = unvisited s.stack g) :
    Level id s u :=
  ⟨h.stas, h.groups, h.home, fun j _ => h.mark j, fun g => (control_frame (h.control g)).2.1,
    fun g => h.excess fun j _ => by rw [hunvisited g]⟩

theorem Level.trans (h : Level id s u) (h' : Level id u v) : Level id s v :=
  ⟨h'.stas.trans h.stas, h'.groups.trans h.groups, fun j => (h'.home j).trans (h.home j),
    fun j hne => (h'.mark j hne).trans (h.mark j hne), fun g => (h'.frame g).trans (h.frame g),
    fun g => (h'.excess g).trans (h.excess g)⟩

theorem Settles.level {l : Loc} (h : Settles (s.loc id) l) (hnodup : s.stas.Nodup)
    (hid : id ∈ s.stas) (hout : id ∉ unvisited s.stack (s.sm id).group) :
    Level id s (s.put id l) := by
  refine ⟨Eq.refl _, Eq.refl _, fun j => ?_, fun j hne => ?_, fun g => ?_,
    excess_put hnodup hid h hout⟩
  · by_cases hne : j = id
    · subst hne
      rw [Auth.put_sm_self]
      exact h.home
    · rw [Auth.put_sm_of_ne s l hne]
  · rw [Auth.put_sm_of_ne s l hne]
  · by_cases hg : g = (s.sm id).group
    · subst hg
      exact (congrArg Group.frame (Function.update_self ..)).trans h.frame
    · exact congrArg Group.frame (Function.update_of_ne hg ..)

end Accounts

/-! ## One iteration -/

/-- What an iteration of the loop of `wpa_sm_step` does, with `ts` left to be done after the loop:
the loop goes on, or the station is removed. -/
structure Stepped (id : StaId) (ts : List Task) (s r : Auth) : Prop where
  groups : r.groups = s.groups
  home : ∀ j, (r.sm j).group = (s.sm j).group
  mark : ∀ j, j ≠ id → (r.sm j).gUpdateStationKeys = (s.sm j).gUpdateStationKeys
  waiting : ∀ g, Waiting (r.group g)
  excess : ∀ g, r.excess g = s.excess g
  leave : ∀ g, (r.group g).wpaGroupState ≠ (s.group g).wpaGroupState →
    g = (s.sm id).group ∧ (r.group g).gKeyDoneStations = 0
  ends : r.stack = .check id :: ts ∧ r.stas = s.stas ∧
      ((r.group (s.sm id).group).wpaGroupState = .setKeys →
        (r.group (s.sm id).group).gKeyDoneStations ≠ 0) ∨
    r.stack = ts ∧ r.stas = s.stas.erase id ∧
      ∀ g, (r.group g).wpaGroupState = (s.group g).wpaGroupState

section Iteration

variable {s u r : Auth} {id : StaId} {ts : List Task}

theorem frame_state {g g' : Group} (h : g'.frame = g.frame) :
    g'.wpaGroupState = g.wpaGroupState := congrArg (·.1) h

theorem Level.stepped (h : Level id s u) (h' : Stepped id ts u r) : Stepped id ts s r := by
  have hstate : ∀ g, (u.group g).wpaGroupState = (s.group g).wpaGroupState :=
    fun g => frame_state (h.frame g)
  refine ⟨h'.groups.trans h.groups, fun j => (h'.home j).trans (h.home j),
    fun j hne => (h'.mark j hne).trans (h.mark j hne), h'.waiting,
    fun g => (h'.excess g).trans (h.excess g), fun g => ?_, ?_⟩
  · rw [← hstate g, ← h.home id]
    exact h'.leave g
  · rcases h'.ends with ⟨hstack, hstas, hstay⟩ | ⟨hstack, hstas, hgone⟩
    · exact .inl ⟨hstack, hstas.trans h.stas, h.home id ▸ hstay⟩
    · exact .inr ⟨hstack, h.stas ▸ hstas, fun g => (hgone g).trans (hstate g)⟩

theorem wpaFreeStaSm_stepped (hnodup : s.stas.Nodup) (hid : id ∈ s.stas)
    (hout : id ∉ unvisited s.stack (s.sm id).group) (hwaiting : ∀ g, Waiting (s.group g)) :
    Stepped id s.stack s (wpaFreeStaSm id s) := by
  have hlevel := (clearGUpdate_settles (s.loc id)).level hnodup hid hout
  have hstate : ∀ g, ((wpaFreeStaSm id s).group g).wpaGroupState = (s.group g).wpaGroupState :=
    fun g => frame_state (hlevel.frame g)
  exact ⟨Eq.refl _, hlevel.home, hlevel.mark, fun g => (hwaiting g).of_frame (hlevel.frame g),
    excess_free hnodup hid hout, fun g hne => absurd (hstate g) hne,
    .inr ⟨Eq.refl _, Eq.refl _, hstate⟩⟩

theorem level_setGroup {g : ℤ} {f : Group → Group}
    (hframe : (f (s.group g)).frame = (s.group g).frame)
    (hcount : (f (s.group g)).gKeyDoneStations = (s.group g).gKeyDoneStations) :
    Level id s (s.setGroup g f) := by
  have hgroup : ∀ x, ((s.setGroup g f).group x).frame = (s.group x).frame ∧
      ((s.setGroup g f).group x).gKeyDoneStations = (s.group x).gKeyDoneStations := by
    intro x
    by_cases hx : x = g
    · subst hx
      rw [show (s.setGroup x f).group x = f (s.group x) from Function.update_self ..]
      exact ⟨hframe, hcount⟩
    · rw [show (s.setGroup g f).group x = s.group x from Function.update_of_ne hx ..]
      exact ⟨rfl, rfl⟩
  refine ⟨rfl, rfl, fun _ => rfl, fun _ _ => rfl, fun x => (hgroup x).1, fun x => ?_⟩
  exact excess_congr (s := s) (u := s.setGroup g f) rfl (fun _ _ => ⟨rfl, rfl⟩) (fun _ _ => Iff.rfl) (hgroup x).2

variable (S : Setup)

theorem groupSmStep_waiting {g : ℤ} (h : Waiting (s.group g)) :
    groupSmStep S g s = { s.setGroup g Group.finishRekey with now := s.now + 1 } := by
  rw [groupSmStep, wpaGroupSmStep_waiting S _ h]
  rfl

theorem stays_stepped (hwaiting : ∀ g, Waiting (s.group g)) :
    Stepped id s.stack s (groupSmStep S (s.sm id).group (s.push (.check id))) := by
  rw [groupSmStep_waiting S (s := s.push (.check id)) (hwaiting _)]
  set r := { (s.push (.check id)).setGroup (s.sm id).group Group.finishRekey with
    now := s.now + 1 } with hr
  have hself : r.group (s.sm id).group = (s.group (s.sm id).group).finishRekey :=
    Function.update_self ..
  have hother : ∀ g, g ≠ (s.sm id).group → r.group g = s.group g :=
    fun g hg => Function.update_of_ne hg ..
  refine ⟨rfl, fun _ => rfl, fun _ _ => rfl, fun g => ?_, fun g => ?_, fun g => ?_, ?_⟩
  · by_cases hg : g = (s.sm id).group
    · rw [hg, hself]
      exact ⟨finishRekey_running (hwaiting _).toRunning,
        (finishRekey_rekey _).trans (hwaiting _).rekey⟩
    · exact hother g hg ▸ hwaiting g
  · refine excess_congr (s := s) (u := r) rfl (fun _ _ => ⟨rfl, rfl⟩) (fun _ _ => Iff.rfl) ?_
    by_cases hg : g = (s.sm id).group
    · rw [hg, hself]
      exact finishRekey_count _
    · rw [hother g hg]
  · by_cases hg : g = (s.sm id).group
    · rw [hg, hself]
      exact fun hne => ⟨rfl, (finishRekey_count _).trans (finishRekey_state hne)⟩
    · rw [hother g hg]
      exact fun hne => absurd rfl hne
  · refine .inl ⟨rfl, rfl, ?_⟩
    rw [hself, finishRekey_count]
    exact fun hst => (finishRekey_setKeys hst).2

theorem stepIteration_stepped (hnodup : s.stas.Nodup) (hid : id ∈ s.stas)
    (halive : (s.sm id).pendingDeinit = false) (hout : id ∉ unvisited s.stack (s.sm id).group)
    (hwaiting : ∀ g, Waiting (s.group g)) : Stepped id s.stack s (stepIteration S id s) := by
  set s0 := s.setGroup 0 fun g => { g with changed := false } with hs0
  set s1 := s0.put id (stepMachines S (s0.loc id)) with hs1
  have hlevel : Level id s s1 := (level_setGroup rfl rfl).trans
    ((stepMachines_settles S (s0.loc id)).level hnodup hid hout)
  have hwaiting1 : ∀ g, Waiting (s1.group g) := fun g => (hwaiting g).of_frame (hlevel.frame g)
  have hdef : stepIteration S id s =
      if (s1.sm id).pendingDeinit then finishStep id s1
      else groupSmStep S (s1.sm id).group (s1.push (.check id)) := by
    rw [stepIteration, if_neg (by rw [halive]; exact Bool.false_ne_true)]
    rfl
  rw [hdef]
  split
  case isTrue hpd =>
    -- the callback has removed the station
    set s2 := s1.setSm id fun sm => { sm with inStepLoop := false } with hs2
    have hsame : Same s1 s2 := same_setSm rfl rfl
    have hfin : finishStep id s1 = wpaFreeStaSm id s2 := by
      rw [finishStep]
      refine if_pos ?_
      rw [Auth.setSm_sm_self]
      exact hpd
    rw [hfin]
    refine (hlevel.trans (hsame.level fun _ => rfl)).stepped
      (wpaFreeStaSm_stepped (s := s2) hnodup hid ?_ hwaiting1)
    rw [hsame.home, hlevel.home]
    exact hout
  case isFalse => exact hlevel.stepped (stays_stepped S hwaiting1)

theorem stepIteration_marked (halive : (s.sm id).pendingDeinit = false)
    (hmarked : Marked (s.sm id)) :
    Marked ((stepIteration S id s).sm id) ∧ (stepIteration S id s).stas = s.stas := by
  set s0 := s.setGroup 0 fun g => { g with changed := false } with hs0
  set s1 := s0.put id (stepMachines S (s0.loc id)) with hs1
  obtain ⟨hmarked1, halive1⟩ := hmarked.stepMachines (S := S) (l := s0.loc id) halive
  have hsm1 : s1.sm id = (stepMachines S (s0.loc id)).sm := Auth.put_sm_self s0 id _
  have hdef : stepIteration S id s = groupSmStep S (s1.sm id).group (s1.push (.check id)) := by
    rw [stepIteration, if_neg (by rw [halive]; exact Bool.false_ne_true)]
    exact if_neg (by rw [← hs0, Auth.onSta, ← hs1, hsm1, halive1]; exact Bool.false_ne_true)
  rw [hdef, groupSmStep_sm, groupSmStep_stas, Auth.push_sm, hsm1]
  exact ⟨hmarked1, rfl⟩

theorem wpaSmStep_marked (hloop : (s.sm id).inStepLoop = false)
    (halive : (s.sm id).pendingDeinit = false) (hmarked : Marked (s.sm id)) :
    Marked ((wpaSmStep S id s).sm id) ∧ (wpaSmStep S id s).stas = s.stas := by
  rw [wpaSmStep, if_neg (by rw [hloop]; exact Bool.false_ne_true)]
  obtain ⟨hflag, hdone, ⟨h1, h2, h3, h4, h5, h6⟩, hreset, hreply, hgroup⟩ := hmarked
  refine stepIteration_marked S (s := s.setSm id fun sm => { sm with inStepLoop := true }) ?_ ?_
  · rw [Auth.setSm_sm_self]
    exact halive
  · rw [Auth.setSm_sm_self]
    exact ⟨hflag, hdone, ⟨h1, h2, h3, h4, h5, h6⟩, hreset, hreply, hgroup⟩

theorem wpaSmStep_stepped (hnodup : s.stas.Nodup) (hid : id ∈ s.stas)
    (hloop : (s.sm id).inStepLoop = false) (halive : (s.sm id).pendingDeinit = false)
    (hout : id ∉ unvisited s.stack (s.sm id).group) (hwaiting : ∀ g, Waiting (s.group g)) :
    Stepped id s.stack s (wpaSmStep S id s) := by
  rw [wpaSmStep, if_neg (by rw [hloop]; exact Bool.false_ne_true)]
  set s1 := s.setSm id fun sm => { sm with inStepLoop := true } with hs1
  have hsame : Same s s1 := same_setSm rfl rfl
  refine (hsame.level fun _ => rfl).stepped (stepIteration_stepped S (s := s1) hnodup hid ?_ ?_
    hwaiting)
  · rw [hs1, Auth.setSm_sm_self]
    exact halive
  · rw [hsame.home]
    exact hout

end Iteration

end Hostapd.Ap.WpaAuth
