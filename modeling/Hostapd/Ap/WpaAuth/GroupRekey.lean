import Hostapd.Ap.WpaAuth.RekeyTurns

/-!
# The WPA authenticator: is a group rekey accounted for, and does it end?

* **`groupRekey_accounted`**: the count of every group is the number of its stations that owe an
  acknowledgement exactly along the runs that never move a station that owes one to another group,
  and never visit one for the rekey of another group. The visit of `wpa_group_setkeys` is made to
  all stations of the authenticator, and the count is taken back for one group only.
* **`groupRekey_ends`**: with a single group, no call leaves the group in `SETKEYS` with nobody to
  wait for, if no station is freed that is the last one it waits for. `wpa_free_sta_sm` takes the
  count back and does not step the group.
-/

namespace Hostapd.Ap.WpaAuth

open Hostapd.Lib

variable (S : Setup)

/-! ## What is promised -/

def Auth.marked (s : Auth) (g : ℤ) : ℤ :=
  tally s.stas fun id => (s.sm id).group = g && (s.sm id).gUpdateStationKeys

/-- The counts are right: between calls a count is the number of marked stations of the group, and
in the middle of a rekey the stations that are still to be visited are left out. -/
structure Accounted (s : Auth) : Prop where
  owed : ∀ g ∈ s.groups, (s.group g).gKeyDoneStations = s.owed g
  marked : s.stack = [] → ∀ g ∈ s.groups, (s.group g).gKeyDoneStations = s.marked g

/-- A group leaves `SETKEYS` only when none of its stations is marked. -/
def LeavesClear (s r : Auth) : Prop :=
  ∀ g ∈ s.groups, (s.group g).wpaGroupState = .setKeys → (r.group g).wpaGroupState = .setKeysDone →
    ∀ id ∈ r.stas, (r.sm id).group = g → (r.sm id).gUpdateStationKeys = false

/-- No marked station is moved to another group, and none is visited for the rekey of another
group than its own. -/
def Steady (s : Auth) : Step → Prop
  | .call (.setVlan id vlan) => s.stack = [] → id ∈ s.stas → (s.sm id).gUpdateStationKeys = true →
      vlan = (s.sm id).group ∨
        vlan ∉ s.groups ∧ wpaGroupInit S (S.cb s.now) (S.cb (s.now + 1)) = none
  | .task => ∀ id ids g ts, s.stack = .updateStas (id :: ids) :: .rekeyCheck g :: ts →
      id ∈ s.stas → (s.sm id).gUpdateStationKeys = true → (s.sm id).group = g
  | .call _ => True

/-! ## Accounts -/

section Balance

variable {S} {s r : Auth} {a : Step}

theorem owed_eq_marked (hs : s.stack = []) (g : ℤ) : s.owed g = s.marked g := by
  refine tally_congr fun j _ => ?_
  rw [Auth.owes, hs]
  simp [unvisited]

theorem accounted_of_balance (h : ∀ g, s.excess g = 0) : Accounted s := by
  have howed : ∀ g, (s.group g).gKeyDoneStations = s.owed g := fun g => by
    have hg := h g
    rw [Auth.excess] at hg
    omega
  exact ⟨fun g _ => howed g, fun hs g _ => (howed g).trans (owed_eq_marked hs g)⟩

variable {id : StaId}

theorem count_pos (h : ∀ g, r.excess g = 0) (hid : id ∈ r.stas)
    (hmarked : Marked (r.sm id)) (hout : id ∉ unvisited r.stack (r.sm id).group) :
    0 < (r.group (r.sm id).group).gKeyDoneStations := by
  have howes : r.owes (r.sm id).group id = true := by
    rw [Auth.owes, hmarked.flag, decide_eq_true rfl, decide_eq_true hout]
    rfl
  have hpos : 0 < r.owed (r.sm id).group := tally_pos hid howes
  have hzero := h (r.sm id).group
  rw [Auth.excess] at hzero
  omega

theorem excess_join {addr : MacAddr} {pos : ℕ} (hid : id ∉ s.stas) (g : ℤ) :
    (wpaAuthStaInit id addr pos s).excess g = s.excess g := by
  set r := wpaAuthStaInit id addr pos s with hr
  have hself : r.sm id = Sm.zero addr := Function.update_self ..
  have hother : ∀ j, j ≠ id → r.sm j = s.sm j := fun j hne => Function.update_of_ne hne ..
  have hnone : r.owes g id = false := by
    rw [Auth.owes, hself]
    simp [Sm.zero]
  have howed : r.owed g = s.owed g := by
    show tally (s.stas.insertIdx (min pos s.stas.length) id) (r.owes g) = _
    rw [tally_insertIdx (Nat.min_le_right ..), hnone, share_false, add_zero]
    refine tally_congr fun j hj => ?_
    rw [Auth.owes, Auth.owes, hother j (ne_of_mem_of_not_mem hj hid)]
    rfl
  rw [Auth.excess, howed]
  rfl

theorem excess_move {vlan : ℤ} (h : Flow s) (hbalance : ∀ g, s.excess g = 0)
    (hid : id ∈ s.stas) (hs : s.stack = []) (hstack : r.stack = []) (hstas : r.stas = s.stas)
    (hsm : r.sm = Function.update s.sm id { s.sm id with group := vlan }) (hgroups : Moved vlan s r)
    (hsteady : (s.sm id).gUpdateStationKeys = true → vlan = (s.sm id).group) (g : ℤ) :
    r.excess g = 0 := by
  have hsame : ∀ j ∈ s.stas, r.owes g j = s.owes g j := by
    intro j _
    rw [Auth.owes, Auth.owes, hs, hstack, hsm]
    by_cases hne : j = id
    · subst hne
      rw [Function.update_self]
      cases hflag : (s.sm j).gUpdateStationKeys with
      | false => simp
      | true => simp [hsteady hflag]
    · rw [Function.update_of_ne hne]
  have howed : r.owed g = s.owed g := by
    rw [Auth.owed, hstas]
    exact tally_congr hsame
  have hzero := hbalance g
  rw [Auth.excess] at hzero ⊢
  by_cases hvlan : vlan ∈ s.groups
  · rw [howed, (hgroups.known hvlan).2]
    exact hzero
  · obtain ⟨-, x, -, hcount, hgroup⟩ := hgroups.added hvlan
    by_cases hg : g = vlan
    · -- nobody is in the new group yet
      have hnone : s.owed g = 0 := by
        refine tally_eq_zero_iff.mpr fun j hj => ?_
        have hne : (s.sm j).group ≠ g := fun he => hvlan (hg ▸ he ▸ h.homes j hj)
        rw [Auth.owes, decide_eq_false hne]
        rfl
      rw [howed, hnone, hgroup, hg, Function.update_self, hcount, sub_zero]
    · rw [howed, hgroup, Function.update_of_ne hg]
      exact hzero

theorem excess_regroup {g : ℤ} {x : Group} {ts : List Task} (h : Regrouped g x ts s r)
    (hbalance : ∀ y, s.excess y = 0) (hunvisited : ∀ y, unvisited s.stack y = []) (y : ℤ) :
    r.excess y = 0 := by
  have hzero := hbalance y
  have hcongr : (∀ j ∈ s.stas, j ∈ unvisited r.stack y ↔ j ∈ unvisited s.stack y) →
      (r.group y).gKeyDoneStations = (s.group y).gKeyDoneStations → r.excess y = 0 :=
    fun hun hcount => (excess_congr h.stas (fun j _ => by rw [h.sm]; exact ⟨rfl, rfl⟩) hun
      hcount).trans hzero
  have hself : r.group g = x := by rw [h.group, Function.update_self]
  have hother : y ≠ g → r.group y = s.group y := fun hne => by
    rw [h.group, Function.update_of_ne hne]
  rcases h.out with ⟨hstack, -, hcount, -⟩ | ⟨hstack, -, hcount, hcount', -⟩ |
    ⟨hstack, -, -, hcount, -⟩
  · refine hcongr (fun j _ => by rw [hstack, hunvisited]; rfl) ?_
    by_cases hy : y = g
    · rw [hy, hself, hcount]
    · rw [hother hy]
  · refine hcongr (fun j _ => by rw [hstack, hunvisited]; rfl) ?_
    by_cases hy : y = g
    · rw [hy, hself, hcount, hcount']
    · rw [hother hy]
  · by_cases hy : y = g
    · -- everybody is to be visited
      have hnone : r.owed y = 0 := by
        refine tally_eq_zero_iff.mpr fun j hj => ?_
        have hmem : j ∈ unvisited r.stack y := by
          rw [hstack, unvisited, if_pos hy.symm]
          exact h.stas ▸ hj
        rw [Auth.owes, decide_eq_false (not_not.mpr hmem), Bool.and_false]
      rw [Auth.excess, hnone, hy, hself, hcount, sub_zero]
    · refine hcongr (fun j _ => ?_) (by rw [hother hy])
      rw [hstack, hunvisited, unvisited, if_neg (Ne.symm hy)]

theorem Turn.balance (ht : Turn s a r) (h : Flow s) (hbalance : ∀ g, s.excess g = 0)
    (hvisit : ∀ id ids g ts, a = .task → s.stack = .updateStas (id :: ids) :: .rekeyCheck g :: ts →
      id ∈ s.stas → (s.sm id).gUpdateStationKeys = true → (s.sm id).group = g)
    (hmove : ∀ id vlan, a = .call (.setVlan id vlan) → s.stack = [] → id ∈ s.stas →
      r.sm = Function.update s.sm id { s.sm id with group := vlan } → Moved vlan s r →
      (s.sm id).gUpdateStationKeys = true → vlan = (s.sm id).group) :
    ∀ g, r.excess g = 0 := by
  cases ht with
  | level _ _ hexcess _ _ => exact fun g => (hexcess g).trans (hbalance g)
  | stepped id ts hstep _ _ _ _ => exact fun g => (hstep.excess g).trans (hbalance g)
  | visit id ids g ts hs hid _ _ hvis _ =>
    intro x
    rw [hvis.excess, hbalance, zero_add]
    split
    case isTrue hx =>
      cases hflag : (s.sm id).gUpdateStationKeys with
      | false => rfl
      | true => exact absurd (hx.1.symm.trans (hvisit id ids g ts rfl hs hid hflag)) hx.2
    case isFalse => rfl
  | regroup g x ts hre _ hunvisited _ _ => exact excess_regroup hre hbalance hunvisited
  | join id addr pos hs hid => exact fun g => (excess_join hid g).trans (hbalance g)
  | move id vlan hs hid hstack hstas hsm hgroups =>
    exact excess_move h hbalance hid hs hstack hstas hsm hgroups
      (hmove id vlan rfl hs hid hsm hgroups)

theorem Turn.leaves (ht : Turn s a r) (hbalance : ∀ g, r.excess g = 0) : LeavesClear s r := by
  have hnone : ∀ {g}, (r.group g).gKeyDoneStations = 0 → unvisited r.stack g = [] →
      ∀ id ∈ r.stas, (r.sm id).group = g → (r.sm id).gUpdateStationKeys = false := by
    intro g hcount hun id hid hhome
    have hzero := hbalance g
    rw [Auth.excess, hcount, zero_sub, neg_eq_zero] at hzero
    exact owed_eq_zero hzero hun hid hhome
  intro g hg hst hst'
  have hdiff : (r.group g).wpaGroupState ≠ (s.group g).wpaGroupState := by
    rw [hst, hst']
    decide
  cases ht with
  | level hsame _ _ _ _ =>
    exact absurd (frame_state (control_frame (hsame.control g)).2.1) hdiff
  | stepped id ts hstep hid _ _ hplace =>
    obtain ⟨hhome, hcount⟩ := hstep.leave g hdiff
    rcases hplace with hout | ⟨hstas, hmarked, hnot⟩
    · exact hnone hcount (hout.unvisited g)
    · rw [← hstep.home] at hnot hhome
      have hpos := count_pos hbalance (hstas ▸ hid) hmarked hnot
      rw [← hhome, hcount] at hpos
      exact absurd hpos (lt_irrefl 0)
  | visit id ids x ts hs hid hnew _ hvis _ =>
    rcases hvis.out with ⟨-, hsame⟩ | ⟨hstack, hmarked, hleave⟩
    · exact absurd (hsame g).2.1 hdiff
    · obtain ⟨hhome, hcount⟩ := hleave g hdiff
      rw [← hvis.home] at hhome
      have hnot : id ∉ unvisited r.stack (r.sm id).group := by
        rw [hstack, unvisited, unvisited]
        split
        · exact hnew
        · exact List.not_mem_nil
      have hpos := count_pos hbalance (hvis.stas.symm ▸ hid) hmarked hnot
      rw [← hhome, hcount] at hpos
      exact absurd hpos (lt_irrefl 0)
  | regroup y x ts hre _ _ _ _ =>
    by_cases hy : g = y
    · subst hy
      have hself : r.group g = x := by rw [hre.group, Function.update_self]
      rcases hre.out with ⟨-, -, -, hsame, -⟩ | ⟨hstack, -, -, hcount, -⟩ | ⟨-, -, -, -, hset⟩
      · exact absurd (hself ▸ hsame) hdiff
      · exact hnone (hself.symm ▸ hcount) (by rw [hstack]; rfl)
      · rw [hself, hset] at hst'
        cases hst'
    · rw [hre.group, Function.update_of_ne hy] at hdiff
      exact absurd rfl hdiff
  | join id addr pos _ _ => exact absurd rfl hdiff
  | move id vlan hs hid hstack hstas hsm hgroups =>
    by_cases hvlan : vlan ∈ s.groups
    · rw [(hgroups.known hvlan).2] at hdiff
      exact absurd rfl hdiff
    · obtain ⟨-, x, -, -, hgroup⟩ := hgroups.added hvlan
      rw [hgroup, Function.update_of_ne (ne_of_mem_of_not_mem hg hvlan)] at hdiff
      exact absurd rfl hdiff

theorem not_accounted {g : ℤ} (hg : g ∈ r.groups) (h : r.excess g = 1) : ¬ Accounted r := by
  intro hacc
  have howed := hacc.owed g hg
  rw [Auth.excess] at h
  omega

theorem Flow.move_slips {vlan : ℤ} (h : Flow s) (hbalance : ∀ g, s.excess g = 0)
    (hid : id ∈ s.stas) (hs : s.stack = []) (hstack : r.stack = []) (hstas : r.stas = s.stas)
    (hsm : r.sm = Function.update s.sm id { s.sm id with group := vlan }) (hgroups : Moved vlan s r)
    (hflag : (s.sm id).gUpdateStationKeys = true) (hne : vlan ≠ (s.sm id).group) :
    ¬ Accounted r := by
  set g := (s.sm id).group with hg
  have hmem : g ∈ s.groups := h.homes id hid
  obtain ⟨-, -, hkept, hsame⟩ :=
    hgroups.spec (h.waiting_outside (hs ▸ Ends.nil.outside))
  have hchange : r.owed g - share (r.owes g id) = s.owed g - share (s.owes g id) := by
    rw [Auth.owed, hstas]
    refine tally_change h.good.control.nodup hid fun j _ hj => ?_
    rw [Auth.owes, Auth.owes, hs, hstack, hsm, Function.update_of_ne hj]
  have hafter : r.owes g id = false := by
    rw [Auth.owes, hsm, Function.update_self, decide_eq_false hne]
    rfl
  have hbefore : s.owes g id = true := by
    rw [Auth.owes, hflag, hs]
    simp [unvisited, hg]
  have hzero := hbalance g
  rw [hafter, hbefore, share_true, share_false] at hchange
  rw [Auth.excess] at hzero
  refine not_accounted (hkept g hmem) ?_
  rw [Auth.excess, hsame g hmem]
  omega

theorem Flow.visit_slips {ids : List StaId} {g : ℤ} {ts : List Task} (h : Flow s)
    (hbalance : ∀ x, s.excess x = 0)
    (hs : s.stack = .updateStas (id :: ids) :: .rekeyCheck g :: ts) (hid : id ∈ s.stas)
    (hflag : (s.sm id).gUpdateStationKeys = true) (hne : (s.sm id).group ≠ g) :
    ¬ Accounted (micro S s) := by
  have hshape := h.shape
  rw [hs] at hshape
  cases hshape with
  | rest hends => exact absurd (hends _ List.mem_cons_self) nofun
  | visits hends hgs hids =>
    rename_i gs ts
    set v : Auth := { s with stack := .rekeyCheck g :: .rekeyGroups gs :: ts } with hv
    have hpush : v.push (.updateStas (id :: ids)) = s := by rw [Auth.push, hv, ← hs]
    have hvisit := Flow.visit (S := S) (s := v) (hpush.symm ▸ h) rfl hends
      (List.nodup_cons.mp hids).1 hid
    have hmicro : micro S s = runTask S (.updateStas (id :: ids)) v := by rw [micro, hs]
    rw [hmicro]
    refine not_accounted (hvisit.groups ▸ h.homes id hid) ?_
    rw [hvisit.excess, hpush, hbalance, zero_add]
    rw [if_pos ⟨rfl, hne⟩, hflag, share_true]

theorem Flow.steady_of_accounted (h : Flow s) (hbalance : ∀ g, s.excess g = 0)
    (hacc : Accounted (step S s a)) : Steady S s a := by
  cases a with
  | task =>
    intro id ids g ts hs hid hflag
    by_contra hne
    exact h.visit_slips hbalance hs hid hflag hne hacc
  | call o =>
    cases o with
    | setVlan id vlan =>
      intro hs hid hflag
      have hstep : step S s (.call (.setVlan id vlan)) = wpaAuthStaSetVlan S id vlan s := by
        rw [step, if_pos (List.isEmpty_iff.mpr hs), WpaAuth.exec, withSta, if_pos hid]
      rw [hstep] at hacc
      rcases wpaAuthStaSetVlan_cases (S := S) s id vlan with
        ⟨hvlan, hnone, -⟩ | ⟨hstack, hstas, hsm, hgroups⟩
      · exact .inr ⟨hvlan, hnone⟩
      · left
        by_contra hne
        exact h.move_slips hbalance hid hs (hstack.trans hs) hstas hsm hgroups hflag hne hacc
    | _ => trivial

theorem Flow.balance (h : Flow s) (hbalance : ∀ g, s.excess g = 0) (hsteady : Steady S s a) :
    (∀ g, (step S s a).excess g = 0) ∧ LeavesClear s (step S s a) := by
  rcases h.turn (S := S) a with hsame | hturn
  · rw [hsame]
    refine ⟨hbalance, fun g _ hst hst' => ?_⟩
    rw [hst] at hst'
    exact absurd hst' nofun
  · have hnext := hturn.balance h hbalance ?_ ?_
    · exact ⟨hnext, hturn.leaves hnext⟩
    · rintro id ids g ts rfl hs hid hflag
      exact hsteady id ids g ts hs hid hflag
    · rintro id vlan rfl hs hid hsm - hflag
      rcases hsteady hs hid hflag with hhome | ⟨hvlan, hnone⟩
      · exact hhome
      · -- the group cannot be made
        have hstep : step S s (.call (.setVlan id vlan)) = { s with now := s.now + 2 } := by
          rw [step, if_pos (List.isEmpty_iff.mpr hs), WpaAuth.exec, withSta, if_pos hid, wpaAuthStaSetVlan,
            if_neg hvlan, hnone]
        rw [hstep] at hsm
        have hhome := congrArg (fun f => (f id).group) hsm
        simp only [Function.update_self] at hhome
        exact hhome.symm

end Balance

theorem wpaInit_balance {g : Group} (hg : wpaGroupInit S (S.cb 0) (S.cb 1) = some g) (x : ℤ) :
    (wpaInit g).excess x = 0 := by
  rw [Auth.excess, show ((wpaInit g).group x).gKeyDoneStations = g.gKeyDoneStations from rfl,
    (wpaGroupInit_waiting S hg).2.1]
  rfl

/-- The counts are right in every state of a run, and a group leaves `SETKEYS` only when none of its
stations is marked, exactly if no step of the run moves a marked station to another group or visits
one for the rekey of another group. -/
theorem groupRekey_accounted {g : Group} (hg : wpaGroupInit S (S.cb 0) (S.cb 1) = some g)
    (l : List Step) :
    Along (step S) (fun s a => Accounted (step S s a) ∧ LeavesClear s (step S s a)) (wpaInit g) l ↔
      Along (step S) (Steady S) (wpaInit g) l := by
  refine along_congr (I := fun s => Reach S (fun _ _ => True) s ∧ ∀ x, s.excess x = 0) ?_ ?_
    ⟨.init hg, wpaInit_balance S hg⟩ l
  · rintro s a ⟨hreach, hbalance⟩ hsteady
    exact ⟨hreach.step fun _ _ => trivial,
      ((Flow.reach hreach).balance hbalance hsteady).1⟩
  · rintro s a ⟨hreach, hbalance⟩
    constructor
    · rintro ⟨hacc, -⟩
      exact (Flow.reach hreach).steady_of_accounted hbalance hacc
    · intro hsteady
      obtain ⟨hnext, hleaves⟩ := (Flow.reach hreach).balance hbalance hsteady
      exact ⟨accounted_of_balance hnext, hleaves⟩

def Small.vlans : List Op :=
  connect 1 11#48 ++ connect 2 12#48 ++ [.setVlan 1 5, .rekeyGtk]

theorem groupRekey_accounted_small :
    Along (step Small.setup)
        (fun s a => Accounted (step Small.setup s a) ∧ LeavesClear s (step Small.setup s a))
        (wpaInit Small.group) (Small.vlans.map .call) ↔
      Along (step Small.setup) (Steady Small.setup) (wpaInit Small.group) (Small.vlans.map .call) :=
  groupRekey_accounted Small.setup rfl (Small.vlans.map .call)

theorem groupRekey_counts_twice :
    ∃ s, Reach Small.setup (fun _ _ => True) s ∧ s.stack = [] ∧ 0 ∈ s.groups ∧
      s.marked 0 = 1 ∧ (s.group 0).gKeyDoneStations = 2 := by
  obtain ⟨s, hreach, hs⟩ : ∃ s, Reach Small.setup (fun _ _ => True) s ∧ (s.stack.isEmpty &&
      s.groups.contains 0 && s.marked 0 == 1 && (s.group 0).gKeyDoneStations == 2) = true :=
    ⟨calls Small.setup 30 (wpaInit Small.group) Small.vlans,
      Small.reach_init.afterCalls (fun _ _ => true) (fun _ _ _ => trivial) 30 Small.vlans
        (by decide +kernel), by decide +kernel⟩
  simp only [Bool.and_eq_true, List.isEmpty_iff, List.contains_iff_mem, beq_iff_eq] at hs
  exact ⟨s, hreach, hs.1.1.1, hs.1.1.2, hs.1.2, hs.2⟩

/-! ## The end of a rekey -/

/-- Between calls, a single group in `SETKEYS` waits for somebody. -/
def Awaits (s : Auth) : Prop :=
  s.stack = [] → s.groups = [0] → (s.group 0).wpaGroupState = .setKeys →
    0 < (s.group 0).gKeyDoneStations ∧ ∃ id ∈ s.stas, (s.sm id).gUpdateStationKeys = true

/-- No marked station is freed while a single group in `SETKEYS` waits for nobody else. -/
def KeepsLast (s : Auth) (a : Step) : Prop :=
  ∀ id ∈ s.stas, id ∉ (step S s a).stas → (s.sm id).gUpdateStationKeys = true → s.groups = [0] →
    (s.group 0).wpaGroupState = .setKeys → (s.group 0).gKeyDoneStations ≠ 1

/-- A single group is in balance, and in `SETKEYS` without anybody to wait for only while it is about
to be stepped again. -/
structure Advancing (s : Auth) : Prop where
  balance : ∀ g, s.excess g = 0
  pending : (s.group 0).wpaGroupState = .setKeys → (s.group 0).gKeyDoneStations = 0 →
    (s.group 0).changed = true ∧ UnderRekey 0 s.stack

section Ends

variable {S} {s r : Auth} {a : Step}

theorem Turn.single (ht : Turn s a r) (hr : r.groups = [0]) (h : Flow s) : s.groups = [0] := by
  cases ht with
  | level hsame _ _ _ _ => exact hsame.groups ▸ hr
  | stepped id ts hstep _ _ _ _ => exact hstep.groups ▸ hr
  | visit id ids g ts _ _ _ _ hvis _ => exact hvis.groups ▸ hr
  | regroup g x ts hre _ _ _ _ => exact hre.groups ▸ hr
  | join id addr pos _ _ => exact hr
  | move id vlan _ _ _ _ _ hgroups =>
    by_cases hvlan : vlan ∈ s.groups
    · exact (hgroups.known hvlan).1 ▸ hr
    · -- the new group would stand behind the default one
      obtain ⟨hadd, -⟩ := hgroups.added hvlan
      have hmain := h.main
      rw [hadd] at hr
      cases hs : s.groups with
      | nil =>
        rw [hs] at hmain
        exact absurd hmain List.not_mem_nil
      | cons g gs =>
        rw [hs] at hr
        exact absurd (List.cons.inj hr).2 nofun

theorem Stepped.freed {id : StaId} {ts : List Task} (h : Stepped id ts s r) (hid : id ∈ s.stas)
    (hnodup : s.stas.Nodup) (hstas : r.stas = s.stas.erase id) (hs : ∀ g, s.excess g = 0)
    (hr : (r.group 0).gKeyDoneStations = 0) (hr' : r.excess 0 = 0)
    (hun : unvisited r.stack 0 = []) :
    (s.group 0).gKeyDoneStations = 0 ∨
      (s.group 0).gKeyDoneStations = 1 ∧ (s.sm id).gUpdateStationKeys = true := by
  have hnone : r.owed 0 = 0 := by
    rw [Auth.excess, hr] at hr'
    omega
  have hothers : tally (s.stas.erase id) (s.owes 0) = 0 := by
    refine tally_eq_zero_iff.mpr fun j hj => ?_
    have hne : j ≠ id := (hnodup.mem_erase_iff.mp hj).1
    rw [Auth.owes, ← h.home, ← h.mark j hne]
    by_cases hgroup : (r.sm j).group = 0
    · rw [owed_eq_zero hnone hun (hstas.symm ▸ hj) hgroup]
      simp
    · simp [hgroup]
  have hcount := hs 0
  rw [Auth.excess] at hcount
  have hsplit := tally_erase hid (s.owes 0)
  rw [hothers] at hsplit
  cases howes : s.owes 0 id with
  | false =>
    rw [howes, share_false] at hsplit
    left
    rw [Auth.owed] at hcount
    omega
  | true =>
    rw [howes, share_true] at hsplit
    right
    rw [Auth.owes, Bool.and_eq_true, Bool.and_eq_true] at howes
    rw [Auth.owed] at hcount
    exact ⟨by omega, howes.1.2⟩

theorem Turn.advances (ht : Turn s a r) (h : Flow s) (hone : r.groups = [0])
    (hadv : Advancing s) (hlast : ∀ id ∈ s.stas, id ∉ r.stas → (s.sm id).gUpdateStationKeys = true →
      (s.group 0).wpaGroupState = .setKeys → (s.group 0).gKeyDoneStations ≠ 1) : Advancing r := by
  have hsingle := ht.single hone h
  have hzero : ∀ {x}, x ∈ s.groups → x = 0 := fun hx => List.mem_singleton.mp (hsingle ▸ hx)
  have hbalance : ∀ g, r.excess g = 0 := by
    refine ht.balance h hadv.balance ?_ ?_
    · rintro id ids g ts - hs hid -
      have hshape := h.shape
      rw [hs] at hshape
      cases hshape with
      | rest hends => cases hends _ List.mem_cons_self
      | visits _ hgs _ =>
        rw [hzero (h.homes id hid), hzero (hgs g List.mem_cons_self)]
    · rintro id vlan - - hid - hgroups -
      by_cases hvlan : vlan ∈ s.groups
      · rw [hzero hvlan, hzero (h.homes id hid)]
      · obtain ⟨hadd, -⟩ := hgroups.added hvlan
        rw [hadd, hsingle] at hone
        cases (List.cons.inj hone).2
  refine ⟨hbalance, fun hst hcount => ?_⟩
  cases ht with
  | level hsame _ _ _ hunder =>
    obtain ⟨hc, hf, hch⟩ := control_frame (hsame.control 0)
    obtain ⟨hchanged, hrekey⟩ := hadv.pending ((frame_state hf).symm.trans hst) (hc.symm.trans hcount)
    exact ⟨hch.trans hchanged, hunder 0 hrekey hchanged⟩
  | stepped id ts hstep hid _ hidle hplace =>
    have hhome : (s.sm id).group = 0 := hzero (h.homes id hid)
    exfalso
    rcases hstep.ends with ⟨-, -, hstay⟩ | ⟨hstack, hstas, hstate⟩
    · rw [hhome] at hstay
      exact hstay hst hcount
    · rcases hplace with hout | ⟨hall, -⟩
      · have hst' : (s.group 0).wpaGroupState = .setKeys := (hstate 0).symm.trans hst
        have hgone : id ∉ r.stas := by
          rw [hstas]
          exact fun hmem => (h.good.control.nodup.mem_erase_iff.mp hmem).1 rfl
        rcases hstep.freed hid h.good.control.nodup hstas hadv.balance hcount (hbalance 0)
          (hout.unvisited 0) with hnobody | ⟨hself, hflag⟩
        · exact hidle 0 (hadv.pending hst' hnobody).2
        · exact hlast id hid hgone hflag hst' hself
      · rw [hall] at hstas
        have hmem : id ∈ s.stas.erase id := hstas ▸ hid
        exact (h.good.control.nodup.mem_erase_iff.mp hmem).1 rfl
  | visit id ids g ts hs hid hnew hg hvis _ =>
    rcases hvis.out with ⟨hstack, hsame⟩ | ⟨hstack, hmarked, -⟩
    · obtain ⟨hc, hf, hch⟩ := hsame 0
      obtain ⟨hchanged, -⟩ := hadv.pending (hf.symm.trans hst) (hc.symm.trans hcount)
      refine ⟨hch.trans hchanged, .inr ⟨ids, ts, ?_⟩⟩
      rw [hstack, hzero hg]
    · exfalso
      have hnot : id ∉ unvisited r.stack (r.sm id).group := by
        rw [hstack, unvisited, unvisited]
        split
        · exact hnew
        · exact List.not_mem_nil
      have hpos := count_pos hbalance (hvis.stas.symm ▸ hid) hmarked hnot
      rw [hvis.home, hzero (h.homes id hid), hcount] at hpos
      exact lt_irrefl 0 hpos
  | regroup g x ts hre hg _ _ _ =>
    have hg0 : g = 0 := hzero hg
    subst hg0
    have hself : r.group 0 = x := by rw [hre.group, Function.update_self]
    rw [hself] at hst hcount ⊢
    rcases hre.out with ⟨-, -, -, -, hstay⟩ | ⟨-, -, -, -, hdone⟩ | ⟨hstack, hchanged, -⟩
    · exact absurd hcount (hstay hst)
    · rw [hdone] at hst
      cases hst
    · exact ⟨hchanged, .inr ⟨s.stas, ts, hstack⟩⟩
  | join id addr pos hs _ =>
    obtain ⟨-, hrekey⟩ := hadv.pending hst hcount
    exact absurd hrekey (hs ▸ Ends.nil.outside.idle 0)
  | move id vlan hs hid _ _ _ hgroups =>
    obtain ⟨-, -, -, hsame⟩ := hgroups.spec (h.waiting_outside (hs ▸ Ends.nil.outside))
    rw [hsame 0 h.main] at hst hcount
    obtain ⟨-, hrekey⟩ := hadv.pending hst hcount
    exact absurd hrekey (hs ▸ Ends.nil.outside.idle 0)

theorem Advancing.awaits (hadv : s.groups = [0] → Advancing s) : Awaits s := by
  intro hs hone hst
  obtain ⟨hbalance, hpending⟩ := hadv hone
  have hne : (s.group 0).gKeyDoneStations ≠ 0 := fun hcount =>
    Ends.nil.outside.idle 0 (hs ▸ (hpending hst hcount).2)
  have howed := hbalance 0
  rw [Auth.excess] at howed
  have hnonneg : 0 ≤ s.owed 0 := tally_nonneg ..
  refine ⟨by omega, ?_⟩
  by_contra hnone
  have hzero : s.owed 0 = 0 := by
    refine tally_eq_zero_iff.mpr fun j hj => ?_
    have hflag : (s.sm j).gUpdateStationKeys = false :=
      Bool.eq_false_iff.mpr fun hflag => hnone ⟨j, hj, hflag⟩
    rw [Auth.owes, hflag, Bool.and_false, Bool.false_and]
  omega

end Ends

/-- With a single group, in every run that never frees the last station the group waits for, the
group is in `SETKEYS` after a call only while it waits for somebody. -/
theorem groupRekey_ends {g : Group} (hg : wpaGroupInit S (S.cb 0) (S.cb 1) = some g) (l : List Step)
    (hl : Along (step S) (KeepsLast S) (wpaInit g) l) :
    Along (step S) (fun s a => Awaits (step S s a)) (wpaInit g) l := by
  have hrun : ∀ s a, Reach S (fun _ _ => True) s ∧ (s.groups = [0] → Advancing s) →
      KeepsLast S s a →
      Reach S (fun _ _ => True) (step S s a) ∧
        ((step S s a).groups = [0] → Advancing (step S s a)) := by
    rintro s a ⟨hreach, hadv⟩ hlast
    refine ⟨hreach.step fun _ _ => trivial, fun hone => ?_⟩
    rcases (Flow.reach hreach).turn (S := S) a with hsame | hturn
    · rw [hsame] at hone ⊢
      exact hadv hone
    · have hsingle := hturn.single hone (Flow.reach hreach)
      exact hturn.advances (Flow.reach hreach) hone (hadv hsingle)
        fun id hid hgone hflag hst => hlast id hid hgone hflag hsingle hst
  refine (Along.congr (I := fun s => Reach S (fun _ _ => True) s ∧ (s.groups = [0] → Advancing s))
    (D := fun _ _ => True) (fun s a hI hlast _ => hrun s a hI hlast) (fun s a hI hlast => ?_)
    ⟨.init hg, fun _ => ⟨wpaInit_balance S hg, fun hst => ?_⟩⟩ hl).mpr
    (along_of_forall (P := fun _ => True) (fun _ _ => trivial) _)
  · exact ⟨fun _ => trivial, fun _ => Advancing.awaits (hrun s a hI hlast).2⟩
  · rw [show ((wpaInit g).group 0).wpaGroupState = g.wpaGroupState from rfl,
      (wpaGroupInit_waiting S hg).2.2] at hst
    exact absurd hst nofun

instance (s : Auth) (a : Step) : Decidable (KeepsLast S s a) :=
  inferInstanceAs (Decidable (∀ id ∈ s.stas, id ∉ (step S s a).stas →
    (s.sm id).gUpdateStationKeys = true → s.groups = [0] → (s.group 0).wpaGroupState = .setKeys →
      (s.group 0).gKeyDoneStations ≠ 1))

/-- A station connects, and is asked for an acknowledgement. -/
def Small.rekeyed : List Op := connect 1 11#48 ++ [.rekeyGtk]

/-- The calls one after another, with the tasks of each. -/
def Small.steps (os : List Op) : List Step :=
  os.flatMap fun o => .call o :: List.replicate 12 .task

theorem groupRekey_ends_small :
    Along (step Small.setup) (fun s a => Awaits (step Small.setup s a)) (wpaInit Small.group)
      (Small.steps Small.rekeyed) :=
  groupRekey_ends Small.setup rfl (Small.steps Small.rekeyed) (by decide +kernel)

/-- The station leaves without an acknowledgement. -/
def Small.left : List Op := rekeyed ++ [.staDeinit 1]

theorem groupRekey_stuck :
    ∃ s, Reach Small.setup (fun _ _ => True) s ∧ s.stack = [] ∧ s.groups = [0] ∧
      (s.group 0).wpaGroupState = .setKeys ∧ (s.group 0).gKeyDoneStations = 0 := by
  obtain ⟨s, hreach, hs⟩ : ∃ s, Reach Small.setup (fun _ _ => True) s ∧ (s.stack.isEmpty &&
      s.groups == [0] && decide ((s.group 0).wpaGroupState = .setKeys) &&
      (s.group 0).gKeyDoneStations == 0) = true :=
    ⟨calls Small.setup 12 (wpaInit Small.group) Small.left,
      Small.reach_init.afterCalls (fun _ _ => true) (fun _ _ _ => trivial) 12
        Small.left (by decide +kernel), by decide +kernel⟩
  simp only [Bool.and_eq_true, List.isEmpty_iff, decide_eq_true_eq, beq_iff_eq] at hs
  exact ⟨s, hreach, hs.1.1.1, hs.1.1.2, hs.1.2, hs.2⟩

end Hostapd.Ap.WpaAuth
