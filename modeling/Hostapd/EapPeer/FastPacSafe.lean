import Hostapd.EapPeer.FastPacLoad
import Mathlib.Data.List.TakeWhile

/-!
# EAP-FAST at the peer: PACs that a text keeps

* **`lineOf_assignment`**: how a line with an equals sign is split.
* **`TextSafe`**: the fields fit into the line buffer, and the lines into which newlines break a
  field leave the entry as it is.
* **`textRoundTrip_iff`**: entries are read back exactly when each of them is `TextSafe`.
-/

namespace Hostapd.EapPeer

open Hostapd.Lib

/-! ## A line with a value -/

/-- A character that ends neither a line nor a name. -/
def NameChar (c : UInt8) : Prop := c ≠ 0 ∧ c ≠ newline ∧ c ≠ 13 ∧ c ≠ equalsSign

instance (c : UInt8) : Decidable (NameChar c) := by
  unfold NameChar
  infer_instance

theorem nameChar_of_all {key : Bytes} (h : (key.all fun c => decide (NameChar c)) = true) :
    ∀ c ∈ key, NameChar c := by
  intro c hc
  exact of_decide_eq_true (List.all_eq_true.mp h c hc)

theorem lineOf_assignment {key : Bytes} (hkey : ∀ c ∈ key, NameChar c) (value : Bytes)
    (hlen : key.length < lineBufLen - 1) :
    lineOf (key ++ equalsSign :: value) =
      (key, some ((value.take (lineBufLen - 1 - key.length - 1)).takeWhile
        fun c => c ≠ 0 ∧ c ≠ newline ∧ c ≠ 13)) := by
  obtain ⟨room, hroom⟩ : ∃ room, lineBufLen - 1 - key.length = room + 1 :=
    Nat.exists_eq_add_of_lt (Nat.sub_pos_of_lt hlen) |>.imp fun k hk => by omega
  have htext : lineText (key ++ equalsSign :: value) =
      key ++ equalsSign :: (value.take room).takeWhile fun c => c ≠ 0 ∧ c ≠ newline ∧ c ≠ 13 := by
    rw [lineText, List.take_append, List.take_of_length_le (Nat.le_of_lt hlen), hroom,
      List.take_succ_cons, List.takeWhile_append_of_pos, List.takeWhile_cons_of_pos (by decide)]
    intro c hc
    obtain ⟨h₁, h₂, h₃, -⟩ := hkey c hc
    exact decide_eq_true ⟨h₁, h₂, h₃⟩
  have hname : ∀ c ∈ key, decide (c ≠ equalsSign) = true := fun c hc => by
    simpa using (hkey c hc).2.2.2
  rw [lineOf, htext, splitLine, List.takeWhile_append_of_pos hname,
    List.dropWhile_append_of_pos hname, List.takeWhile_cons_of_neg (by simp),
    List.dropWhile_cons_of_neg (by simp), hroom, List.append_nil]
  rfl

theorem lineOf_hexLine {key data : Bytes} (hkey : ∀ c ∈ key, NameChar c)
    (hlen : key.length + 1 + 2 * data.length ≤ lineBufLen - 1) :
    lineOf (hexLine key data) = (key, some (hexText data)) := by
  have htake : (hexText data).take (lineBufLen - 1 - key.length - 1) = hexText data := by
    rw [List.take_of_length_le]
    rw [length_hexText]
    omega
  have hdigits : ∀ c ∈ hexText data, decide (c ≠ 0 ∧ c ≠ newline ∧ c ≠ 13) = true := by
    intro c hc
    have hdigit := isxdigit_of_mem_hexText hc
    refine decide_eq_true ⟨?_, ?_, ?_⟩ <;> rintro rfl <;> exact absurd hdigit (by decide)
  rw [hexLine, lineOf_assignment hkey _ (by omega), htake, List.takeWhile_eq_self_iff.mpr hdigits]

theorem length_lineOf {line key value : Bytes} (h : lineOf line = (key, some value)) :
    key.length + 1 + value.length ≤ lineBufLen - 1 := by
  have hline : (lineText line).length ≤ lineBufLen - 1 :=
    Nat.le_trans (List.takeWhile_prefix _).length_le (List.length_take_le _ _)
  have hsplit := congrArg List.length
    (List.takeWhile_append_dropWhile (p := fun c => decide (c ≠ equalsSign)) (l := lineText line))
  obtain ⟨rfl, hvalue⟩ := Prod.mk.inj h
  cases hdrop : (lineText line).dropWhile (· ≠ equalsSign) with
  | nil =>
    rw [hdrop] at hvalue
    cases hvalue
  | cons c rest =>
    rw [hdrop] at hvalue
    cases hvalue
    rw [hdrop, List.length_append, List.length_cons] at hsplit
    omega

/-! ## What lines assign -/

/-- The octets of a field for which a line has room. -/
def fieldRoom (f : PacField) : ℕ := (lineBufLen - 1 - f.name.length - 1) / 2

theorem fieldOf_name (f : PacField) : fieldOf f.name = some f := by
  cases f <;> decide

variable {f : PacField}

theorem name_of_fieldOf {key : Bytes} (h : fieldOf key = some f) :
    f.name = key := by
  have hname := List.find?_some h
  simpa using hname

theorem nameChar_name (f : PacField) : ∀ c ∈ f.name, NameChar c := by
  apply nameChar_of_all
  cases f <;> decide

variable {value : Option Bytes} {v : PacValue}

theorem parseField_cases
    (h : parseField f value = .ok v) :
    (f = .pacType ∧ ∃ t, v = .type t) ∨
      (f ≠ .pacType ∧ ∃ s data, value = some s ∧ readHex s = some data ∧ v = .octets data) := by
  have hhex : ∀ {err}, hexValueOf err value = .ok v →
      ∃ s data, value = some s ∧ readHex s = some data ∧ v = .octets data := by
    intro err hv
    rw [hexValueOf] at hv
    split at hv
    · cases hv
    · next data hdata =>
      cases hv
      obtain ⟨s, hs, hread⟩ := Option.bind_eq_some_iff.mp hdata
      exact ⟨s, data, hs, hread, rfl⟩
  cases f with
  | pacType =>
    refine Or.inl ⟨rfl, ?_⟩
    rw [parseField, eapFastParsePacType.eq_def] at h
    split at h
    · cases h
    · dsimp only at h
      split_ifs at h
      cases h
      exact ⟨_, rfl⟩
  | pacKey =>
    refine Or.inr ⟨nofun, ?_⟩
    rw [parseField, eapFastParsePacKey] at h
    split at h
    · cases h
    · next data hdata =>
      split_ifs at h
      cases h
      obtain ⟨s, hs, hread⟩ := Option.bind_eq_some_iff.mp hdata
      exact ⟨s, data, hs, hread, rfl⟩
  | pacOpaque => exact Or.inr ⟨nofun, hhex h⟩
  | aId => exact Or.inr ⟨nofun, hhex h⟩
  | iId => exact Or.inr ⟨nofun, hhex h⟩
  | aIdInfo => exact Or.inr ⟨nofun, hhex h⟩

theorem get_set_of_parseField
    (h : parseField f value = .ok v) (pac : EapFastPac) (g : PacField) :
    (pac.set (f, v)).get g = if f = g then some v else pac.get g := by
  rcases parseField_cases h with ⟨rfl, t, rfl⟩ | ⟨hne, s, data, -, -, rfl⟩
  · cases g <;> rfl
  · cases f with
    | pacType => exact absurd rfl hne
    | pacKey => cases g <;> rfl
    | pacOpaque => cases g <;> rfl
    | aId => cases g <;> rfl
    | iId => cases g <;> rfl
    | aIdInfo => cases g <;> rfl

theorem lineOf_of_assigned {line : Bytes}
    (h : assigned line = some (f, v)) :
    (lineOf line).1 = f.name ∧ parseField f (lineOf line).2 = .ok v := by
  unfold assigned at h
  split at h
  · cases h
  · next f' hfield =>
    split at h
    · cases h
    · next v' hparse =>
      cases h
      exact ⟨(name_of_fieldOf hfield).symm, hparse⟩

/-- **The last assignment counts.** -/
theorem get_setAll (pac : EapFastPac) (ls : List Bytes) (f : PacField) :
    (setAll pac ls).get f = (lastAssigned f (ls.filterMap assigned)).or (pac.get f) := by
  refine get_foldl (fun a ha s g => ?_) pac f
  obtain ⟨line, -, hline⟩ := List.mem_filterMap.mp ha
  exact get_set_of_parseField (lineOf_of_assigned hline).2 s g

/-- **What a line assigns fits into a line.** -/
theorem length_of_assigned {line data : Bytes}
    (h : assigned line = some (f, .octets data)) : data.length ≤ fieldRoom f := by
  obtain ⟨hname, hparse⟩ := lineOf_of_assigned h
  rcases parseField_cases hparse with ⟨-, t, ht⟩ | ⟨-, s, data', hs, hread, hdata⟩
  · cases ht
  · cases hdata
    have hline : lineOf line = (f.name, some s) := Prod.ext hname hs
    have hlen := length_lineOf hline
    have htwice := length_readHex hread
    rw [fieldRoom, Nat.le_div_iff_mul_le Nat.two_pos]
    omega

/-! ## The lines of an entry -/

theorem readable_of_unknown {line key : Bytes} (hkey : (lineOf line).1 = key)
    (hstart : key ≠ ascii "START") (hend : key ≠ ascii "END") (hfield : fieldOf key = none) :
    Readable line ∧ assigned line = none := by
  refine ⟨⟨by rwa [hkey], by rwa [hkey], fun f hf => ?_⟩, ?_⟩
  · rw [hkey, hfield] at hf
    cases hf
  · rw [assigned, hkey, hfield]

theorem name_ne_mark (f : PacField) : f.name ≠ ascii "START" ∧ f.name ≠ ascii "END" := by
  cases f <;> decide

theorem readable_of_parseField {line : Bytes}
    (hline : lineOf line = (f.name, value)) (hparse : parseField f value = .ok v) :
    Readable line ∧ assigned line = some (f, v) := by
  refine ⟨⟨?_, ?_, fun f' hf' => ?_⟩, ?_⟩
  · rw [hline]
    exact (name_ne_mark f).1
  · rw [hline]
    exact (name_ne_mark f).2
  · rw [hline, fieldOf_name] at hf'
    cases hf'
    rw [hline]
    exact ⟨v, hparse⟩
  · rw [assigned, hline]
    dsimp only
    rw [fieldOf_name]
    dsimp only
    rw [hparse]

theorem readable_hexLine {data : Bytes} (hf : f ≠ .pacType)
    (hkey : f = .pacKey → data.length = eapFastPacKeyLen) (hfits : data.length ≤ fieldRoom f) :
    Readable (hexLine f.name data) ∧ assigned (hexLine f.name data) = some (f, .octets data) := by
  have hroom : f.name.length + 1 + 2 * data.length ≤ lineBufLen - 1 := by
    have hname : f.name.length + 1 ≤ lineBufLen - 1 := by cases f <;> decide
    rw [fieldRoom, Nat.le_div_iff_mul_le Nat.two_pos] at hfits
    omega
  refine readable_of_parseField (lineOf_hexLine (nameChar_name f) hroom) ?_
  have hread : eapFastParseHex (some (hexText data)) = some data := readHex_hexText data
  have hhex : ∀ err, hexValueOf err (some (hexText data)) = .ok (.octets data) := by
    intro err
    rw [hexValueOf, hread]
  cases f with
  | pacType => exact absurd rfl hf
  | pacKey =>
    rw [parseField, eapFastParsePacKey, hread]
    exact if_pos (hkey rfl)
  | pacOpaque => exact hhex _
  | aId => exact hhex _
  | iId => exact hhex _
  | aIdInfo => exact hhex _

theorem readable_txtLine (data : Bytes) :
    Readable (txtLine f.name data) ∧ assigned (txtLine f.name data) = none := by
  have hline : txtLine f.name data =
      (f.name ++ ascii "-txt") ++ equalsSign :: (lines (data ++ [newline])).headD [] := by
    have hsplit : ascii "-txt=" = ascii "-txt" ++ [equalsSign] := rfl
    rw [txtLine, hsplit]
    simp only [List.append_assoc, List.singleton_append]
  have hkey : ∀ c ∈ f.name ++ ascii "-txt", NameChar c := by
    apply nameChar_of_all
    cases f <;> decide
  have hlen : (f.name ++ ascii "-txt").length < lineBufLen - 1 := by cases f <;> decide
  have hname : (lineOf (txtLine f.name data)).1 = f.name ++ ascii "-txt" := by
    rw [hline, lineOf_assignment hkey _ hlen]
  refine readable_of_unknown hname ?_ ?_ ?_
  · cases f <;> decide
  · cases f <;> decide
  · cases f <;> decide

theorem readable_pacInfoLine (data : Bytes) :
    Readable (hexLine (ascii "PAC-Info") data) ∧
      assigned (hexLine (ascii "PAC-Info") data) = none := by
  have hname : (lineOf (hexLine (ascii "PAC-Info") data)).1 = ascii "PAC-Info" := by
    rw [hexLine, lineOf_assignment (nameChar_of_all (by decide)) _ (by decide)]
  exact readable_of_unknown hname (by decide) (by decide) (by decide)

theorem readable_pacTypeLine {t : ℕ} (h : knownPacType t = true) :
    Readable (ascii "PAC-Type=" ++ ascii (toString t)) ∧
      assigned (ascii "PAC-Type=" ++ ascii (toString t)) = some (.pacType, .type t) := by
  simp only [knownPacType, Bool.or_eq_true, decide_eq_true_eq] at h
  have hline : ∀ t, t = pacTypeTunnelPac ∨ t = pacTypeUserAuthorization ∨
      t = pacTypeMachineAuthentication → lineOf (ascii "PAC-Type=" ++ ascii (toString t)) =
        (PacField.name .pacType, some (ascii (toString t))) := by
    rintro t (rfl | rfl | rfl) <;> rfl
  refine readable_of_parseField (hline t (by rwa [← or_assoc])) ?_
  rcases h with (rfl | rfl) | rfl <;> rfl

/-! ## Entries that a text keeps -/

def iIdLines (pac : EapFastPac) : List Bytes := pac.iId.elim [] extraLines

/-- The lines that the characters of A-ID-Info bring. -/
def aIdInfoLines (pac : EapFastPac) : List Bytes := pac.aIdInfo.elim [] extraLines

/-- The values that these lines give to fields. A-ID-Info stands behind the lines of I-ID. -/
def strayAssignments (pac : EapFastPac) : List (PacField × PacValue) :=
  ((iIdLines pac).filterMap assigned).filter (fun a => a.1 ≠ .aIdInfo) ++
    (aIdInfoLines pac).filterMap assigned

/-- An entry that a text keeps: the fields fit into the line buffer, and the lines into which
newlines break I-ID and A-ID-Info are passed over or set a field to what it is. -/
structure TextSafe (pac : EapFastPac) : Prop where
  fits : ∀ f data, pac.get f = some (.octets data) → data.length ≤ fieldRoom f
  readable : ∀ line ∈ iIdLines pac ++ aIdInfoLines pac, Readable line
  stray : ∀ f v, lastAssigned f (strayAssignments pac) = some v → pac.get f = some v

def own (pac : EapFastPac) (f : PacField) : List (PacField × PacValue) :=
  ((pac.get f).map fun v => (f, v)).toList

theorem lastAssigned_own (pac : EapFastPac) (f g : PacField) :
    lastAssigned g (own pac f) = if f = g then pac.get g else none := by
  unfold own
  cases hf : pac.get f with
  | none =>
    by_cases hfg : f = g
    · rw [if_pos hfg, ← hfg, hf]
      rfl
    · rw [if_neg hfg]
      rfl
  | some v =>
    rw [Option.map_some, Option.toList_some, lastAssigned_singleton]
    by_cases hfg : f = g
    · rw [if_pos hfg, if_pos hfg, ← hfg, hf]
    · rw [if_neg hfg, if_neg hfg]

section Entry

variable {pac : EapFastPac}

theorem filterMap_fieldLines {f : PacField} {data : Option Bytes} (txt : Bool)
    (hget : pac.get f = data.map .octets) (hf : f ≠ .pacType)
    (hkey : pac.pacKey.length = eapFastPacKeyLen)
    (hfits : ∀ f data, pac.get f = some (.octets data) → data.length ≤ fieldRoom f) :
    (fieldLines f.name data txt).filterMap assigned =
      own pac f ++ if txt then (data.elim [] extraLines).filterMap assigned else [] := by
  rw [own, hget]
  cases data with
  | none => cases txt <;> rfl
  | some data =>
    have hkey' : f = .pacKey → data.length = eapFastPacKeyLen := by
      rintro rfl
      cases hget
      exact hkey
    obtain ⟨-, hline⟩ := readable_hexLine hf hkey' (hfits f data hget)
    rw [fieldLines, List.filterMap_cons_some hline]
    cases txt with
    | false => rfl
    | true =>
      rw [if_pos rfl, if_pos rfl, List.filterMap_cons_none (readable_txtLine data).2]
      rfl

theorem filterMap_bodyLines (htype : knownPacType pac.pacType = true)
    (hkey : pac.pacKey.length = eapFastPacKeyLen)
    (hfits : ∀ f data, pac.get f = some (.octets data) → data.length ≤ fieldRoom f) :
    (bodyLines pac).filterMap assigned =
      own pac .pacType ++ own pac .pacKey ++ own pac .pacOpaque ++ own pac .aId ++ own pac .iId ++
        (iIdLines pac).filterMap assigned ++ own pac .aIdInfo ++
        (aIdInfoLines pac).filterMap assigned := by
  have hinfo : (fieldLines (ascii "PAC-Info") pac.pacInfo false).filterMap assigned = [] := by
    cases pac.pacInfo with
    | none => rfl
    | some info => exact List.filterMap_cons_none (readable_pacInfoLine info).2
  have hfield : ∀ (f : PacField) (data : Option Bytes) txt, pac.get f = data.map .octets →
      f ≠ .pacType → (fieldLines f.name data txt).filterMap assigned =
        own pac f ++ if txt then (data.elim [] extraLines).filterMap assigned else [] :=
    fun f data txt hget hf => filterMap_fieldLines txt hget hf hkey hfits
  rw [bodyLines, List.filterMap_cons_some (readable_pacTypeLine htype).2, List.filterMap_append,
    List.filterMap_append, List.filterMap_append, List.filterMap_append, List.filterMap_append]
  have h₁ := hfield .pacKey (some pac.pacKey) false rfl (by decide)
  have h₂ := hfield .pacOpaque pac.pacOpaque false rfl (by decide)
  have h₃ := hfield .aId pac.aId false rfl (by decide)
  have h₄ := hfield .iId pac.iId true rfl (by decide)
  have h₅ := hfield .aIdInfo pac.aIdInfo true rfl (by decide)
  simp only [PacField.name] at h₁ h₂ h₃ h₄ h₅
  rw [h₁, h₂, h₃, h₄, h₅, hinfo]
  simp only [Bool.false_eq_true, if_false, if_true, List.append_nil, List.append_assoc, iIdLines,
    aIdInfoLines]
  rfl

/-- **What is read back**: the last value that the extra lines give to a field, and where they give
none, the value that it has. -/
theorem get_readBack (htype : knownPacType pac.pacType = true)
    (hkey : pac.pacKey.length = eapFastPacKeyLen) (hinfo : pac.aIdInfo.isSome = true)
    (hfits : ∀ f data, pac.get f = some (.octets data) → data.length ≤ fieldRoom f)
    (f : PacField) :
    (readBack pac).get f = (lastAssigned f (strayAssignments pac)).or (pac.get f) := by
  rw [readBack, get_setAll, filterMap_bodyLines htype hkey hfits, strayAssignments]
  obtain ⟨info, hinfo⟩ := Option.isSome_iff_exists.mp hinfo
  have hget : pac.get .aIdInfo = some (.octets info) := by
    rw [EapFastPac.get, hinfo]
    rfl
  simp only [lastAssigned_append, lastAssigned_own]
  by_cases hf : f = .aIdInfo
  · subst hf
    rw [lastAssigned_eq_none (l := List.filter _ _)
      fun a ha => by simpa using (List.mem_filter.mp ha).2, hget]
    cases lastAssigned .aIdInfo ((aIdInfoLines pac).filterMap assigned) <;> simp
  · rw [lastAssigned_filter hf]
    cases lastAssigned f ((aIdInfoLines pac).filterMap assigned) with
    | some v => simp
    | none =>
      cases lastAssigned f ((iIdLines pac).filterMap assigned) with
      | some v => simp [Ne.symm hf]
      | none => cases f <;> simp [EapFastPac.get, newPac] at hf ⊢

/-- The lines of a field whose octets fit are `Readable`, and those that its characters bring have
to be. -/
theorem readable_fieldLines {f : PacField} {data : Option Bytes} (txt : Bool)
    (hget : pac.get f = data.map .octets) (hf : f ≠ .pacType)
    (hkey : pac.pacKey.length = eapFastPacKeyLen)
    (hfits : ∀ f data, pac.get f = some (.octets data) → data.length ≤ fieldRoom f)
    (htxt : txt = true → ∀ line ∈ data.elim [] extraLines, Readable line) :
    ∀ line ∈ fieldLines f.name data txt, Readable line := by
  cases data with
  | none => exact List.forall_mem_nil _
  | some data =>
    have hkey' : f = .pacKey → data.length = eapFastPacKeyLen := by
      rintro rfl
      cases hget
      exact hkey
    rw [fieldLines, List.forall_mem_cons]
    refine ⟨(readable_hexLine hf hkey' (hfits f data hget)).1, ?_⟩
    cases txt with
    | false => exact List.forall_mem_nil _
    | true =>
      rw [if_pos rfl, List.forall_mem_cons]
      exact ⟨(readable_txtLine data).1, htxt rfl⟩

theorem mem_bodyLines_of_extra {line : Bytes} (h : line ∈ iIdLines pac ++ aIdInfoLines pac) :
    line ∈ bodyLines pac := by
  have hfield : ∀ {name : Bytes} {data : Option Bytes}, line ∈ data.elim [] extraLines →
      line ∈ fieldLines name data true := by
    intro name data hline
    cases data with
    | none => exact absurd hline List.not_mem_nil
    | some data => exact List.mem_cons_of_mem _ (List.mem_cons_of_mem _ hline)
  rw [bodyLines, List.mem_cons, List.mem_append, List.mem_append]
  rcases List.mem_append.mp h with hline | hline
  · exact Or.inr (Or.inl (Or.inr (hfield hline)))
  · exact Or.inr (Or.inr (hfield hline))

/-- **An entry is read back exactly when it is `TextSafe`.** -/
theorem textSafe_iff (htype : knownPacType pac.pacType = true)
    (hkey : pac.pacKey.length = eapFastPacKeyLen) (hinfo : pac.aIdInfo.isSome = true) :
    (∀ line ∈ bodyLines pac, Readable line) ∧ (∀ f, (readBack pac).get f = pac.get f) ↔
      TextSafe pac := by
  constructor
  · rintro ⟨hreadable, hback⟩
    have hfits : ∀ f data, pac.get f = some (.octets data) → data.length ≤ fieldRoom f := by
      intro f data hget
      have hlast := (hback f).trans hget
      rw [readBack, get_setAll] at hlast
      rcases Option.or_eq_some_iff.mp hlast with hlast | ⟨-, hnew⟩
      · obtain ⟨line, -, hline⟩ := List.mem_filterMap.mp (mem_of_lastAssigned hlast)
        exact length_of_assigned hline
      · -- only the key has octets to begin with
        cases f <;> cases hnew
        decide
    refine ⟨hfits, fun line hline => hreadable line (mem_bodyLines_of_extra hline), ?_⟩
    intro f v hstray
    rw [← hback f, get_readBack htype hkey hinfo hfits, hstray]
    rfl
  · intro h
    have hfield : ∀ (f : PacField) (data : Option Bytes) txt, pac.get f = data.map .octets →
        f ≠ .pacType → (txt = true → ∀ line ∈ data.elim [] extraLines, Readable line) →
          ∀ line ∈ fieldLines f.name data txt, Readable line :=
      fun f data txt hget hf htxt => readable_fieldLines txt hget hf hkey h.fits htxt
    refine ⟨?_, fun f => ?_⟩
    · simp only [bodyLines, List.forall_mem_cons, List.forall_mem_append]
      refine ⟨(readable_pacTypeLine htype).1, ⟨⟨⟨⟨?_, ?_⟩, ?_⟩, ?_⟩, ?_⟩, ?_⟩
      · exact hfield .pacKey (some pac.pacKey) false rfl (by decide) (by simp)
      · exact hfield .pacOpaque pac.pacOpaque false rfl (by decide) (by simp)
      · cases pac.pacInfo with
        | none => exact List.forall_mem_nil _
        | some info =>
          rw [fieldLines, List.forall_mem_cons]
          exact ⟨(readable_pacInfoLine info).1, List.forall_mem_nil _⟩
      · exact hfield .aId pac.aId false rfl (by decide) (by simp)
      · exact hfield .iId pac.iId true rfl (by decide) fun _ line hline =>
          h.readable line (List.mem_append_left _ hline)
      · exact hfield .aIdInfo pac.aIdInfo true rfl (by decide) fun _ line hline =>
          h.readable line (List.mem_append_right _ hline)
    · rw [get_readBack htype hkey hinfo h.fits]
      cases hlast : lastAssigned f (strayAssignments pac) with
      | none => rfl
      | some v => exact (h.stray f v hlast).symm

end Entry

/-! ## The text of entries -/

/-- Entries as they are read back of what was written of them. -/
def TextRoundTrip (l : List EapFastPac) : Prop :=
  ∃ data l', eapFastSavePac l = some data ∧ eapFastLoadPac data = .ok l' ∧
    List.Forall₂ (fun pac pac' : EapFastPac => ∀ f, pac'.get f = pac.get f) l l'

/-- **Entries are read back exactly when each of them is `TextSafe`.** -/
theorem textRoundTrip_iff {l : List EapFastPac}
    (hl : ∀ pac ∈ l, knownPacType pac.pacType = true ∧ pac.pacKey.length = eapFastPacKeyLen ∧
      pac.aIdInfo.isSome = true) :
    TextRoundTrip l ↔ ∀ pac ∈ l, TextSafe pac := by
  have htype : ∀ pac ∈ l, knownPacType pac.pacType = true := fun pac hpac => (hl pac hpac).1
  have hsafe : ∀ pac ∈ l, ((∀ line ∈ bodyLines pac, Readable line) ∧
      ∀ f, (readBack pac).get f = pac.get f) ↔ TextSafe pac := by
    intro pac hpac
    obtain ⟨h₁, h₂, h₃⟩ := hl pac hpac
    exact textSafe_iff h₁ h₂ h₃
  constructor
  · rintro ⟨data, l', hsave, hload, hsame⟩
    obtain ⟨hreadable, rfl⟩ := (eapFastLoadPac_eq htype hsave).mp ⟨hload, hsame.length_eq.symm⟩
    rw [List.forall₂_map_right_iff, List.forall₂_same] at hsame
    intro pac hpac
    exact (hsafe pac hpac).mp ⟨hreadable pac hpac, hsame pac hpac⟩
  · intro h
    have hback : ∀ pac ∈ l, _ := fun pac hpac => (hsafe pac hpac).mpr (h pac hpac)
    obtain ⟨hload, -⟩ := (eapFastLoadPac_eq htype (eapFastSavePac_eq htype)).mpr
      ⟨fun pac hpac => (hback pac hpac).1, rfl⟩
    refine ⟨_, _, eapFastSavePac_eq htype, hload, ?_⟩
    rw [List.forall₂_map_right_iff, List.forall₂_same]
    exact fun pac hpac => (hback pac hpac).2

end Hostapd.EapPeer
