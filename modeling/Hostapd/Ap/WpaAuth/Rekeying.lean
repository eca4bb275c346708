import Hostapd.Ap.WpaAuth.GroupFlow
import Hostapd.Lib.Run

/-!
# The WPA authenticator: what a step does to the accounts

A run is a list of steps, each of which begins a call from outside or does the innermost task of
the call under way. Here it is said once what one step can do to the groups and to their accounts.

* **`Shape`**: the stacks that are reached. **`Flow`** is the invariant of every run.
* **`Turn`**: what a step does. A visit to a station is the only task that can change an `excess`,
  and `wpa_auth_sta_set_vlan` is the only call.
* **`Flow.turn`** proves it of the code, and **`Turn.flow`** is the invariant.
-/

namespace Hostapd.Ap.WpaAuth

open Hostapd.Lib

variable (S : Setup)

/-! ## Runs -/

inductive Step
  /-- A call from outside; while another one is under way nothing happens. -/
  | call (o : Op)
  /-- The innermost task of the call under way. -/
  | task

def step (s : Auth) : Step → Auth
  | .call o => if s.stack.isEmpty then exec S o s else s
  | .task => micro S s

variable {S} in
theorem Reach.step {P : Auth → Op → Prop} {s : Auth} (h : Reach S P s) {a : Step}
    (hp : ∀ o, a = .call o → P s o) : Reach S P (step S s a) := by
  cases a with
  | call o =>
    rw [WpaAuth.step]
    split
    case isTrue hs => exact h.call (List.isEmpty_iff.mp hs) (hp o rfl)
    case isFalse => exact h
  | task => exact h.micro

/-! ## The stack -/

/-- Nothing is under way above the rest of the call from outside. -/
def Ends (ts : List Task) : Prop := ∀ t ∈ ts, t.isTail = true

def RekeyEnds (ts : List Task) : Prop := ∀ t ∈ ts, ∃ id f, t = .receiveTail id f

/-- A group is being rekeyed, and its machine will be stepped again if it has changed. -/
def UnderRekey (g : ℤ) (ts : List Task) : Prop :=
  (∃ us, ts = .rekeyCheck g :: us) ∨ ∃ ids us, ts = .updateStas ids :: .rekeyCheck g :: us

/-- No group is being rekeyed, or the next one is about to be. -/
structure Outside (ts : List Task) : Prop where
  unvisited : ∀ g, unvisited ts g = []
  idle : ∀ g, ¬ UnderRekey g ts

/-- The stacks that are reached. A station is stepped at the end of a call, or because it has been
visited for a rekey; then its mark is still there. -/
inductive Shape (s : Auth) : List Task → Prop
  | rest {ts} (hends : Ends ts) : Shape s ts
  | loop {id ts} (hends : Ends ts) : Shape s (.check id :: ts)
  | groups {gs ts} (hends : RekeyEnds ts) (hgs : ∀ x ∈ gs, x ∈ s.groups) :
      Shape s (.rekeyGroups gs :: ts)
  | rekey {g gs ts} (hends : RekeyEnds ts) (hgs : ∀ x ∈ g :: gs, x ∈ s.groups) :
      Shape s (.rekeyCheck g :: .rekeyGroups gs :: ts)
  | visits {ids g gs ts} (hends : RekeyEnds ts) (hgs : ∀ x ∈ g :: gs, x ∈ s.groups)
      (hids : ids.Nodup) : Shape s (.updateStas ids :: .rekeyCheck g :: .rekeyGroups gs :: ts)
  | visited {id ids g gs ts} (hends : RekeyEnds ts) (hgs : ∀ x ∈ g :: gs, x ∈ s.groups)
      (hids : (id :: ids).Nodup) (hmarked : Marked (s.sm id)) :
      Shape s (.check id :: .updateStas ids :: .rekeyCheck g :: .rekeyGroups gs :: ts)

theorem Ends.nil : Ends [] := fun _ ht => absurd ht List.not_mem_nil

variable {ts : List Task}

theorem Ends.tail {t : Task} (h : Ends (t :: ts)) : Ends ts :=
  fun u hu => h u (List.mem_cons_of_mem t hu)

theorem RekeyEnds.ends (h : RekeyEnds ts) : Ends ts := by
  intro t ht
  obtain ⟨id, f, rfl⟩ := h t ht
  rfl

theorem Ends.outside (h : Ends ts) : Outside ts := by
  constructor
  · intro g
    cases ts with
    | nil => rfl
    | cons t ts => cases t <;> first | rfl | exact absurd (h _ List.mem_cons_self) nofun
  · rintro g (⟨us, rfl⟩ | ⟨ids, us, rfl⟩) <;> exact absurd (h _ List.mem_cons_self) nofun

theorem not_underRekey_check (g : ℤ) (id : StaId) (ts : List Task) :
    ¬ UnderRekey g (.check id :: ts) := by
  rintro (⟨us, hus⟩ | ⟨ids, us, hus⟩) <;> exact absurd (List.cons.inj hus).1 nofun

theorem Ends.outside_check (h : Ends ts) (id : StaId) :
    Outside (.check id :: ts) := ⟨h.outside.unvisited, fun g => not_underRekey_check g id ts⟩

theorem outside_rekeyGroups (gs : List ℤ) (ts : List Task) : Outside (.rekeyGroups gs :: ts) := by
  refine ⟨fun _ => rfl, ?_⟩
  rintro g (⟨us, hus⟩ | ⟨ids, us, hus⟩) <;> exact absurd (List.cons.inj hus).1 nofun

/-! ## Groups -/

/-- What a step of a group does in `wpa_rekey_gtk`: nothing, the end of a rekey, or the start of
one. -/
theorem wpaGroupSmStep_cases (ans : Answers) {g : Group} (h : Running g) :
    wpaGroupSmStep S ans g = (g, false) ∧ g.gtkReKey = false ∧
        (g.wpaGroupState = .setKeys → g.gKeyDoneStations ≠ 0) ∨
      wpaGroupSmStep S ans g = (wpaGroupSetkeysdone g, false) ∧ g.wpaGroupState = .setKeys ∧
        g.gKeyDoneStations = 0 ∨
      wpaGroupSmStep S ans g = (wpaGroupSetkeys S ans g, true) := by
  rw [wpaGroupSmStep, h.init]
  cases hst : g.wpaGroupState with
  | gtkInit => exact absurd hst h.state
  | setKeysDone =>
    cases hrekey : g.gtkReKey with
    | false => exact .inl ⟨rfl, rfl, by simp⟩
    | true => exact .inr (.inr rfl)
  | setKeys =>
    by_cases hcount : g.gKeyDoneStations = 0
    · exact .inr (.inl ⟨by simp [hcount], rfl, hcount⟩)
    · cases hrekey : g.gtkReKey with
      | false => exact .inl ⟨by simp [hcount], rfl, fun _ => hcount⟩
      | true => exact .inr (.inr (by simp [hcount]))

/-- A group has been stepped to `x` in `wpa_rekey_gtk`, with `ts` left to be done for the other
groups. -/
structure Regrouped (g : ℤ) (x : Group) (ts : List Task) (s r : Auth) : Prop where
  stas : r.stas = s.stas
  groups : r.groups = s.groups
  sm : r.sm = s.sm
  group : r.group = Function.update s.group g x
  running : Running x
  out : r.stack = .rekeyCheck g :: ts ∧ x.gtkReKey = false ∧
        x.gKeyDoneStations = (s.group g).gKeyDoneStations ∧
        x.wpaGroupState = (s.group g).wpaGroupState ∧
        (x.wpaGroupState = .setKeys → x.gKeyDoneStations ≠ 0) ∨
      r.stack = .rekeyCheck g :: ts ∧ x.changed = true ∧ (s.group g).gKeyDoneStations = 0 ∧
        x.gKeyDoneStations = 0 ∧ x.wpaGroupState = .setKeysDone ∨
      r.stack = .updateStas s.stas :: .rekeyCheck g :: ts ∧ x.changed = true ∧
        x.gtkReKey = false ∧ x.gKeyDoneStations = 0 ∧ x.wpaGroupState = .setKeys

section Regroup

variable {S} {s : Auth} {g : ℤ} {x : Group}

theorem groupSmStep_stays (h : wpaGroupSmStep S (S.cb s.now) (s.group g) = (x, false)) :
    groupSmStep S g s = { s.setGroup g fun _ => x with now := s.now + 1 } := by
  rw [groupSmStep, h]
  rfl

theorem groupSmStep_visits (h : wpaGroupSmStep S (S.cb s.now) (s.group g) = (x, true)) :
    groupSmStep S g s =
      ({ s.setGroup g fun _ => x with now := s.now + 1 } : Auth).push (.updateStas s.stas) := by
  rw [groupSmStep, h]
  rfl

theorem rekeyStep_regrouped (h : Running (s.group g)) :
    ∃ x, Regrouped g x s.stack s (rekeyStep S g s) := by
  set y : Group := { s.group g with changed := false } with hy
  have hrunning : Running y := ⟨h.init, h.state⟩
  set u := (s.setGroup g fun x => { x with changed := false }).push (.rekeyCheck g) with hu
  have hself : wpaGroupSmStep S (S.cb u.now) (u.group g) = wpaGroupSmStep S (S.cb u.now) y :=
    congrArg (wpaGroupSmStep S (S.cb u.now)) (Function.update_self ..)
  have hgroup : ∀ x, Function.update u.group g x = Function.update s.group g x :=
    fun x => Function.update_idem ..
  rw [rekeyStep, ← hu]
  rcases wpaGroupSmStep_cases S (S.cb u.now) hrunning with
    ⟨hstep, hrekey, hcount⟩ | ⟨hstep, hst, hcount⟩ | hstep
  · rw [groupSmStep_stays (hself.trans hstep)]
    exact ⟨y, rfl, rfl, rfl, hgroup y, hrunning, .inl ⟨rfl, hrekey, rfl, rfl, hcount⟩⟩
  · rw [groupSmStep_stays (hself.trans hstep)]
    exact ⟨_, rfl, rfl, rfl, hgroup _, ⟨hrunning.init, nofun⟩,
      .inr (.inl ⟨rfl, rfl, hcount, hcount, rfl⟩)⟩
  · rw [groupSmStep_visits (hself.trans hstep)]
    exact ⟨_, rfl, rfl, rfl, hgroup _, ⟨hrunning.init, nofun⟩,
      .inr (.inr ⟨rfl, rfl, rfl, rfl, rfl⟩)⟩

end Regroup

/-! ## Visits -/

/-- A station that a rekey of the group `g` visits, with `ts` left to be done: it is passed over, or
marked and stepped. One of another group is counted again if it is marked already. -/
structure Visited (id : StaId) (g : ℤ) (ts : List Task) (s r : Auth) : Prop where
  stas : r.stas = s.stas
  groups : r.groups = s.groups
  home : ∀ j, (r.sm j).group = (s.sm j).group
  waiting : ∀ x, Waiting (r.group x)
  excess : ∀ x, r.excess x = s.excess x +
    if (s.sm id).group = x ∧ x ≠ g then share (s.sm id).gUpdateStationKeys else 0
  out : r.stack = ts ∧
        (∀ x, (r.group x).gKeyDoneStations = (s.group x).gKeyDoneStations ∧
          (r.group x).wpaGroupState = (s.group x).wpaGroupState ∧
          (r.group x).changed = (s.group x).changed) ∨
      r.stack = .check id :: ts ∧ Marked (r.sm id) ∧
        ∀ x, (r.group x).wpaGroupState ≠ (s.group x).wpaGroupState →
          x = (s.sm id).group ∧ (r.group x).gKeyDoneStations = 0

/-! ## Turns -/

structure Flow (s : Auth) : Prop where
  good : Good (fun sm _ => Still sm) s
  homes : ∀ id ∈ s.stas, (s.sm id).group ∈ s.groups
  main : 0 ∈ s.groups
  running : ∀ g, Running (s.group g)
  rekey : ∀ g, (s.group g).gtkReKey = true →
    (∃ ts, s.stack = .rekeyCheck g :: ts) ∧ (s.group g).changed = true
  shape : Shape s s.stack

/-- The groups after a station has been moved to the group `vlan`. -/
structure Moved (vlan : ℤ) (s r : Auth) : Prop where
  known : vlan ∈ s.groups → r.groups = s.groups ∧ r.group = s.group
  added : vlan ∉ s.groups → r.groups = addGroup vlan s.groups ∧
    ∃ x, Waiting x ∧ x.gKeyDoneStations = 0 ∧ r.group = Function.update s.group vlan x

inductive Turn (s : Auth) : Step → Auth → Prop
  /-- The accounts are not touched. -/
  | level {a r} (hsame : Same s r) (hwaiting : ∀ g, Waiting (s.group g))
      (hexcess : ∀ g, r.excess g = s.excess g) (hshape : Shape r r.stack)
      (hunder : ∀ g, UnderRekey g s.stack → (s.group g).changed = true → UnderRekey g r.stack) :
      Turn s a r
  /-- A station is stepped at the end of a call, or after it has been visited for a rekey. -/
  | stepped {a r} (id ts) (h : Stepped id ts s r) (hid : id ∈ s.stas) (hshape : Shape r r.stack)
      (hidle : ∀ g, ¬ UnderRekey g s.stack)
      (hplace : Outside r.stack ∨ r.stas = s.stas ∧ Marked (r.sm id) ∧
        id ∉ unvisited r.stack (s.sm id).group) : Turn s a r
  /-- A station is visited for a rekey. -/
  | visit {r} (id ids g ts) (hs : s.stack = .updateStas (id :: ids) :: .rekeyCheck g :: ts)
      (hid : id ∈ s.stas) (hnew : id ∉ ids) (hg : g ∈ s.groups)
      (h : Visited id g (.updateStas ids :: .rekeyCheck g :: ts) s r) (hshape : Shape r r.stack) :
      Turn s .task r
  /-- A group is stepped for a rekey. -/
  | regroup {a r} (g x ts) (h : Regrouped g x ts s r) (hg : g ∈ s.groups)
      (hunvisited : ∀ y, unvisited s.stack y = []) (hwaiting : ∀ y, y ≠ g → Waiting (s.group y))
      (hshape : Shape r r.stack) : Turn s a r
  /-- A station appears. -/
  | join {a} (id addr pos) (hs : s.stack = []) (hid : id ∉ s.stas) :
      Turn s a (wpaAuthStaInit id addr pos s)
  /-- A station is moved to another group. -/
  | move {r} (id vlan) (hs : s.stack = []) (hid : id ∈ s.stas) (hstack : r.stack = [])
      (hstas : r.stas = s.stas)
      (hsm : r.sm = Function.update s.sm id { s.sm id with group := vlan })
      (hgroups : Moved vlan s r) : Turn s (.call (.setVlan id vlan)) r

theorem mem_addGroup {vlan x : ℤ} {gs : List ℤ} : x ∈ addGroup vlan gs ↔ x = vlan ∨ x ∈ gs := by
  cases gs with
  | nil => simp [addGroup]
  | cons g gs =>
    simp only [addGroup, List.mem_cons]
    tauto

section Turns

variable {s r : Auth} {a : Step}

theorem Flow.waiting (h : Flow s)
    (htop : ∀ g ts, s.stack = .rekeyCheck g :: ts → (s.group g).changed = false) (g : ℤ) :
    Waiting (s.group g) := by
  refine ⟨h.running g, Bool.eq_false_iff.mpr fun hrekey => ?_⟩
  obtain ⟨⟨ts, hts⟩, hchanged⟩ := h.rekey g hrekey
  rw [htop g ts hts] at hchanged
  exact Bool.noConfusion hchanged

theorem Flow.waiting_outside (h : Flow s) (hs : Outside s.stack) (g : ℤ) : Waiting (s.group g) :=
  h.waiting (fun g ts hts => absurd (.inl ⟨ts, hts⟩) (hs.idle g)) g

theorem Stepped.mem {id : StaId} {ts : List Task} (h : Stepped id ts s r) {j : StaId}
    (hj : j ∈ r.stas) : j ∈ s.stas := by
  rcases h.ends with ⟨-, hstas, -⟩ | ⟨-, hstas, -⟩
  · exact hstas ▸ hj
  · exact List.mem_of_mem_erase (hstas ▸ hj)

theorem Moved.spec {vlan : ℤ} (h : Moved vlan s r) (hwaiting : ∀ g, Waiting (s.group g)) :
    (∀ g, Waiting (r.group g)) ∧ vlan ∈ r.groups ∧ (∀ g ∈ s.groups, g ∈ r.groups) ∧
      ∀ g ∈ s.groups, r.group g = s.group g := by
  by_cases hvlan : vlan ∈ s.groups
  · obtain ⟨hgroups, hgroup⟩ := h.known hvlan
    rw [hgroups, hgroup]
    exact ⟨hwaiting, hvlan, fun _ hg => hg, fun _ _ => rfl⟩
  · obtain ⟨hgroups, x, hx, -, hgroup⟩ := h.added hvlan
    rw [hgroups, hgroup]
    refine ⟨fun g => ?_, mem_addGroup.mpr (.inl rfl), fun g hg => mem_addGroup.mpr (.inr hg),
      fun g hg => ?_⟩
    · by_cases hg : g = vlan
      · rw [hg, Function.update_self]
        exact hx
      · rw [Function.update_of_ne hg]
        exact hwaiting g
    · exact Function.update_of_ne (ne_of_mem_of_not_mem hg hvlan) ..

theorem Turn.flow (ht : Turn s a r) (h : Flow s) (hgood : Good (fun sm _ => Still sm) r) :
    Flow r := by
  have hwaits : (∀ g, Waiting (r.group g)) → ∀ g, (r.group g).gtkReKey = true →
      (∃ ts, r.stack = .rekeyCheck g :: ts) ∧ (r.group g).changed = true := by
    intro hw g hg
    rw [(hw g).rekey] at hg
    exact Bool.noConfusion hg
  cases ht with
  | level hsame hwaiting _ hshape _ =>
    have hw : ∀ g, Waiting (r.group g) := fun g =>
      (hwaiting g).of_frame (control_frame (hsame.control g)).2.1
    refine ⟨hgood, fun j hj => ?_, hsame.groups ▸ h.main, fun g => (hw g).toRunning, hwaits hw,
      hshape⟩
    rw [hsame.home, hsame.groups]
    exact h.homes j (hsame.stas ▸ hj)
  | stepped id ts hstep _ hshape _ _ =>
    refine ⟨hgood, fun j hj => ?_, hstep.groups ▸ h.main, fun g => (hstep.waiting g).toRunning,
      hwaits hstep.waiting, hshape⟩
    rw [hstep.home, hstep.groups]
    exact h.homes j (hstep.mem hj)
  | visit id ids g ts _ _ _ _ hvisit hshape =>
    refine ⟨hgood, fun j hj => ?_, hvisit.groups ▸ h.main, fun g => (hvisit.waiting g).toRunning,
      hwaits hvisit.waiting, hshape⟩
    rw [hvisit.home, hvisit.groups]
    exact h.homes j (hvisit.stas ▸ hj)
  | regroup g x ts hre _ _ hwaiting hshape =>
    have hself : r.group g = x := hre.group ▸ Function.update_self ..
    have hother : ∀ y, y ≠ g → r.group y = s.group y :=
      fun y hy => hre.group ▸ Function.update_of_ne hy ..
    refine ⟨hgood, fun j hj => ?_, hre.groups ▸ h.main, fun y => ?_, fun y hrekey => ?_, hshape⟩
    · rw [hre.sm, hre.groups]
      exact h.homes j (hre.stas ▸ hj)
    · by_cases hy : y = g
      · rw [hy, hself]
        exact hre.running
      · rw [hother y hy]
        exact h.running y
    · by_cases hy : y = g
      · rw [hy, hself] at hrekey
        rw [hy, hself]
        rcases hre.out with ⟨-, hfalse, -⟩ | ⟨hstack, hchanged, -⟩ | ⟨-, -, hfalse, -⟩
        · rw [hfalse] at hrekey
          exact Bool.noConfusion hrekey
        · exact ⟨⟨ts, hstack⟩, hchanged⟩
        · rw [hfalse] at hrekey
          exact Bool.noConfusion hrekey
      · rw [hother y hy, (hwaiting y hy).rekey] at hrekey
        exact Bool.noConfusion hrekey
  | join id addr pos hs hid =>
    refine ⟨hgood, fun j hj => ?_, h.main, h.running, fun g hrekey => ?_, ?_⟩
    · by_cases hne : j = id
      · rw [hne, show (wpaAuthStaInit id addr pos s).sm id = Sm.zero addr from
          Function.update_self ..]
        exact h.main
      · rw [show (wpaAuthStaInit id addr pos s).sm j = s.sm j from Function.update_of_ne hne ..]
        exact h.homes j ((mem_insert.mp hj).resolve_left hne)
    · obtain ⟨⟨ts, hts⟩, -⟩ := h.rekey g hrekey
      exact absurd (hs.symm.trans hts) nofun
    · rw [show (wpaAuthStaInit id addr pos s).stack = [] from hs]
      exact .rest Ends.nil
  | move id vlan hs hid hstack hstas hsm hgroups =>
    have hw := h.waiting_outside (hs ▸ Ends.nil.outside)
    obtain ⟨hwaiting, hvlan, hkept, -⟩ := hgroups.spec hw
    refine ⟨hgood, fun j hj => ?_, hkept 0 h.main, fun g => (hwaiting g).toRunning,
      hwaits hwaiting, hstack ▸ .rest Ends.nil⟩
    by_cases hne : j = id
    · rw [hsm, hne, Function.update_self]
      exact hvlan
    · rw [hsm, Function.update_of_ne hne]
      exact hkept _ (h.homes j (hstas ▸ hj))

end Turns

end Hostapd.Ap.WpaAuth
