import Hostapd.Ap.WpaAuth.Resting
import Hostapd.Lib.Tally

/-!
# The WPA authenticator: who owes the group an acknowledgement

A rekey marks stations with `gUpdateStationKeys` and counts them in `gKeyDoneStations` of their
group; the mark and the count are taken back together. How far a count is off is its `excess`.

* **`Settles`**: what the code for one station does leaves the count without that station alone.
  There is one lemma for each function.
* **`owed`**: how many stations owe a group an acknowledgement; a rekey under way has not asked the
  stations that it has still to visit (`unvisited`).
* **`excess_put`**, `excess_free`, `excess_congr`: what changes nothing of the excess.
-/

namespace Hostapd.Ap.WpaAuth

open Hostapd.Lib

/-! ## One station -/

def Loc.others (l : Loc) : ℤ := l.group.gKeyDoneStations - share l.sm.gUpdateStationKeys

/-- The part of a group that only its own machine writes. -/
def Group.frame (g : Group) : GroupState × Bool × Bool := (g.wpaGroupState, g.gtkReKey, g.gInit)

/-- The code for one station touches neither the mark nor the count. -/
structure Kept (l l' : Loc) : Prop where
  flag : l'.sm.gUpdateStationKeys = l.sm.gUpdateStationKeys
  home : l'.sm.group = l.sm.group
  control : l'.group.control = l.group.control

/-- The code for one station keeps the accounts of its group. -/
structure Settles (l l' : Loc) : Prop where
  others : l'.others = l.others
  home : l'.sm.group = l.sm.group
  frame : l'.group.frame = l.group.frame

theorem Settles.rfl {l : Loc} : Settles l l := ⟨Eq.refl _, Eq.refl _, Eq.refl _⟩

theorem Settles.trans {l l' l'' : Loc} (h : Settles l l') (h' : Settles l' l'') : Settles l l'' :=
  ⟨h'.others.trans h.others, h'.home.trans h.home, h'.frame.trans h.frame⟩

theorem control_frame {g g' : Group} (h : g'.control = g.control) :
    g'.gKeyDoneStations = g.gKeyDoneStations ∧ g'.frame = g.frame ∧ g'.changed = g.changed := by
  simp only [Group.control, Prod.mk.injEq] at h
  obtain ⟨hst, hcount, hrekey, hinit, -, hchanged⟩ := h
  exact ⟨hcount, by rw [Group.frame, hst, hrekey, hinit, Group.frame], hchanged⟩

theorem Kept.settles {l l' : Loc} (h : Kept l l') : Settles l l' := by
  obtain ⟨hcount, hframe, -⟩ := control_frame h.control
  exact ⟨by rw [Loc.others, h.flag, hcount, Loc.others], h.home, hframe⟩

theorem Kept.rfl {l : Loc} : Kept l l := ⟨Eq.refl _, Eq.refl _, Eq.refl _⟩

theorem clearGUpdate_settles (l : Loc) : Settles l (clearGUpdate l) := by
  cases hflag : l.sm.gUpdateStationKeys <;>
    exact ⟨by simp [Loc.others, clearGUpdate, hflag], rfl, by simp [clearGUpdate, hflag, Group.frame]⟩

section Steps

variable (S : Setup)

theorem wpaSendEapol_kept (l : Loc) (a : SendArgs) : Kept l (wpaSendEapol S l a) := by
  refine ⟨?_, ?_, ?_⟩
  · rw [wpaSendEapol_sm]
  · rw [wpaSendEapol_sm]
  · rw [wpaSendEapol_group]
    rfl

theorem sendOpt_settles (l : Loc) (a : Option SendArgs) : Settles l (sendOpt S l a) := by
  cases a with
  | none => exact .rfl
  | some a => exact (wpaSendEapol_kept S l a).settles

theorem enterInitialise_settles (l : Loc) : Settles l (enterInitialise l) := by
  obtain ⟨hothers, -, hframe⟩ := clearGUpdate_settles l
  refine ⟨?_, ?_, ?_⟩
  · rw [← hothers, Loc.others, Loc.others, enterInitialise_sm, enterInitialise_group, clearGUpdate_sm]
    rfl
  · rw [enterInitialise_sm]
    rfl
  · rw [enterInitialise_group, hframe]

theorem ptkStep_settles (l : Loc) : Settles l (ptkStep S l) := by
  have hm := ptkStep_move S l
  generalize ptkStep S l = l' at hm
  cases hm with
  | initialise => exact enterInitialise_settles l
  | authentication2 =>
    refine Kept.settles ⟨?_, ?_, enterAuthentication2_control S l⟩
    · rw [enterAuthentication2_sm]
    · rw [enterAuthentication2_sm]
  | ptkStart n =>
    obtain ⟨a, -, ha⟩ := enterPtkStart_eq S (l.atMoment n)
    rw [ha]
    refine Settles.trans ?_ (sendOpt_settles S _ a)
    exact Kept.settles ⟨rfl, rfl, rfl⟩
  | ptkCalc =>
    rcases enterPtkCalcNegotiating_cases S l with ⟨-, hsm, hg, -⟩ | ⟨pmk, -, hsm, hg, -⟩
    · exact Kept.settles ⟨by rw [hsm]; rfl, by rw [hsm]; rfl, by rw [hg]⟩
    · exact Kept.settles ⟨by rw [hsm]; rfl, by rw [hsm]; rfl, by rw [hg]⟩
  | ptkInitNeg =>
    obtain ⟨n, a, -, ha⟩ := enterPtkInitNegotiating_eq S l
    rw [ha]
    refine Settles.trans ?_ (sendOpt_settles S _ a)
    exact Kept.settles ⟨rfl, rfl, rfl⟩
  | ptkDone =>
    obtain ⟨⟨ps, pk, pd, hsm⟩, hg, -⟩ := enterPtkInitDone_spec S l
    exact Kept.settles ⟨by rw [hsm]; rfl, by rw [hsm]; rfl, by rw [hg]⟩
  | _ => exact Kept.settles ⟨rfl, rfl, rfl⟩

theorem ptkGroupStep_settles (l : Loc) : Settles l (ptkGroupStep S l) := by
  have hm := ptkGroupStep_move S l
  generalize ptkGroupStep S l = l' at hm
  cases hm with
  | rekey =>
    obtain ⟨n, a, -, ha⟩ := enterRekeyNegotiating_eq S l
    rw [ha]
    refine Settles.trans ?_ (sendOpt_settles S _ a)
    exact Kept.settles ⟨rfl, rfl, rfl⟩
  | established =>
    obtain ⟨hothers, -, hframe⟩ := clearGUpdate_settles l
    exact ⟨hothers, rfl, hframe⟩
  | keyError =>
    obtain ⟨hothers, -, hframe⟩ := clearGUpdate_settles l
    exact ⟨hothers, rfl, hframe⟩
  | _ => exact Kept.settles ⟨rfl, rfl, rfl⟩

theorem stepMachines_settles (l : Loc) : Settles l (stepMachines S l) := by
  have hptk : Settles l (ptkStep S { l with sm := { l.sm with changed := false } }) := by
    refine Settles.trans ?_ (ptkStep_settles S _)
    exact Kept.settles ⟨rfl, rfl, rfl⟩
  unfold stepMachines
  dsimp only
  split
  · exact hptk
  · exact hptk.trans (ptkGroupStep_settles S _)

theorem receiveFrame_kept (l : Loc) (f : EapolKey) : Kept l (receiveFrame S l f).1 := by
  have hm := receiveFrame_move S l f
  generalize receiveFrame S l f = r at hm
  cases hm with
  | drop => exact .rfl
  | disconnect g hg => exact ⟨rfl, rfl, hg⟩
  | badMic => exact ⟨rfl, rfl, rfl⟩
  | accept =>
    unfold acceptFrame
    dsimp only
    split
    · split <;> exact ⟨rfl, rfl, rfl⟩
    · exact ⟨rfl, rfl, rfl⟩

end Steps

theorem eventEnd_kept (ev : WpaEvent) (l : Loc) : Kept l (eventEnd ev l) := by
  unfold eventEnd
  dsimp only
  split <;> exact ⟨rfl, rfl, rfl⟩

theorem eventRequest_settles (ev : WpaEvent) (l : Loc) : Settles l (eventRequest ev l) := by
  have hre : Settles l (reauthenticate l) := by
    obtain ⟨hothers, hhome, hframe⟩ := clearGUpdate_settles l
    exact ⟨hothers, hhome, hframe⟩
  cases ev with
  | reauth | reauthEapol => exact hre
  | _ => exact Kept.settles ⟨rfl, rfl, rfl⟩

/-! ## All stations -/

/-- The stations that the rekey of a group under way has still to visit. -/
def unvisited : List Task → ℤ → List StaId
  | .check _ :: ts, g => unvisited ts g
  | .updateStas ids :: .rekeyCheck g' :: _, g => if g' = g then ids else []
  | _, _ => []

namespace Auth

def owes (s : Auth) (g : ℤ) (id : StaId) : Bool :=
  (s.sm id).group = g && (s.sm id).gUpdateStationKeys && id ∉ unvisited s.stack g

/-- How many stations owe a group an acknowledgement. -/
def owed (s : Auth) (g : ℤ) : ℤ := tally s.stas (s.owes g)

def excess (s : Auth) (g : ℤ) : ℤ := (s.group g).gKeyDoneStations - s.owed g

end Auth

section Excess

variable {s u : Auth} {id : StaId}

theorem excess_congr (hstas : u.stas = s.stas)
    (hsm : ∀ j ∈ s.stas, (u.sm j).group = (s.sm j).group ∧
      (u.sm j).gUpdateStationKeys = (s.sm j).gUpdateStationKeys) {g : ℤ}
    (hunvisited : ∀ j ∈ s.stas, j ∈ unvisited u.stack g ↔ j ∈ unvisited s.stack g)
    (hcount : (u.group g).gKeyDoneStations = (s.group g).gKeyDoneStations) :
    u.excess g = s.excess g := by
  rw [Auth.excess, Auth.excess, hcount, Auth.owed, Auth.owed, hstas]
  congr 1
  refine tally_congr fun j hj => ?_
  rw [Auth.owes, Auth.owes, (hsm j hj).1, (hsm j hj).2, decide_eq_decide.mpr (not_congr (hunvisited j hj))]

theorem excess_put (hnodup : s.stas.Nodup) (hid : id ∈ s.stas) {l : Loc}
    (h : Settles (s.loc id) l) (hout : id ∉ unvisited s.stack (s.sm id).group) (g : ℤ) :
    (s.put id l).excess g = s.excess g := by
  have hchange : (s.put id l).owed g - share ((s.put id l).owes g id) =
      s.owed g - share (s.owes g id) := by
    refine tally_change hnodup hid fun j _ hne => ?_
    rw [Auth.owes, Auth.owes, Auth.put_sm_of_ne s l hne, Auth.put_stack]
  have hhome : l.sm.group = (s.sm id).group := h.home
  have howes : ∀ {t : Auth} {sm : Sm}, t.sm id = sm → t.stack = s.stack →
      sm.group = (s.sm id).group →
      t.owes g id = (decide ((s.sm id).group = g) && sm.gUpdateStationKeys) := by
    rintro t sm rfl hstack hgroup
    rw [Auth.owes, hgroup, hstack]
    by_cases hg : (s.sm id).group = g
    · subst hg
      simp [hout]
    · simp [hg]
  rw [howes (Auth.put_sm_self s id l) rfl hhome, howes rfl rfl rfl] at hchange
  have hothers : l.group.gKeyDoneStations - share l.sm.gUpdateStationKeys =
      (s.group (s.sm id).group).gKeyDoneStations - share (s.sm id).gUpdateStationKeys := h.others
  rw [Auth.excess, Auth.excess]
  by_cases hg : (s.sm id).group = g
  · subst hg
    rw [show (s.put id l).group (s.sm id).group = l.group from Function.update_self ..]
    simp only [decide_true, Bool.true_and] at hchange
    omega
  · rw [show (s.put id l).group g = s.group g from Function.update_of_ne (Ne.symm hg) ..]
    simp only [hg, decide_false, Bool.false_and] at hchange
    omega

theorem excess_free (hnodup : s.stas.Nodup) (hid : id ∈ s.stas)
    (hout : id ∉ unvisited s.stack (s.sm id).group) (g : ℤ) :
    (wpaFreeStaSm id s).excess g = s.excess g := by
  rw [← excess_put hnodup hid (clearGUpdate_settles (s.loc id)) hout g]
  have hnone : (s.onSta id clearGUpdate).owes g id = false := by
    rw [Auth.owes, Auth.onSta_sm_self, clearGUpdate_sm]
    simp
  have herase : (wpaFreeStaSm id s).owed g = (s.onSta id clearGUpdate).owed g := by
    show tally (s.stas.erase id) ((s.onSta id clearGUpdate).owes g) = _
    rw [tally_erase hid, hnone, share_false, sub_zero]
    rfl
  rw [Auth.excess, herase]
  rfl

theorem owed_eq_zero {g : ℤ} (h : s.owed g = 0) (hall : unvisited s.stack g = []) {j : StaId}
    (hj : j ∈ s.stas) (hgroup : (s.sm j).group = g) : (s.sm j).gUpdateStationKeys = false := by
  have hnone := tally_eq_zero_iff.mp h j hj
  rw [Auth.owes, hall, hgroup] at hnone
  simpa using hnone

end Excess

end Hostapd.Ap.WpaAuth
