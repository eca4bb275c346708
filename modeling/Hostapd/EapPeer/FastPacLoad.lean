import Hostapd.EapPeer.FastPac

/-!
# EAP-FAST at the peer: the text of PACs

* **`entryText`** is the text of an entry, and **`eapFastSavePac_eq`** says that the growing buffer
  has room for all of them.
* **`lines_entryText`**: its lines, `entryLines`. A field that is written as characters breaks into
  lines where it has newlines, and `extraLines` are those behind the first one.
-/

namespace Hostapd.EapPeer

open Hostapd.Lib

/-! ## The writer -/

section Writer

variable {b : TextBuf} {field data : Bytes}

theorem print_of_room {s : Bytes} (h : b.text.length + s.length + 1 ≤ b.bufLen) :
    b.print s = some { b with text := b.text ++ s } := by
  unfold TextBuf.print
  rw [if_pos (by omega)]

theorem printHex_of_room (h : b.text.length + 2 * data.length + 1 ≤ b.bufLen) :
    b.printHex data = { b with text := b.text ++ hexText data } := by
  induction data generalizing b with
  | nil => simp [TextBuf.printHex]
  | cons c data ih =>
    have hpair : (hexPair c).length = 2 := rfl
    rw [List.length_cons] at h
    rw [TextBuf.printHex, print_of_room (by omega)]
    dsimp only
    rw [ih (by simp only [List.length_append]; omega), hexText_cons, List.append_assoc]

theorem printChars_of_room (h : b.text.length + data.length + 1 ≤ b.bufLen) :
    b.printChars data = ({ b with text := b.text ++ data }, true) := by
  induction data generalizing b with
  | nil => simp [TextBuf.printChars]
  | cons c data ih =>
    rw [List.length_cons] at h
    rw [TextBuf.printChars, print_of_room (by rw [List.length_singleton]; omega)]
    dsimp only
    rw [ih (by simp only [List.length_append, List.length_singleton]; omega), List.append_assoc]
    rfl

/-- The line that holds a field in hexadecimal, and the lines that hold its characters. -/
def fieldText (field : Bytes) (data : Option Bytes) (txt : Bool) : Bytes :=
  match data with
  | none => []
  | some data =>
    field ++ ascii "=" ++ hexText data ++ [newline] ++
      if txt then field ++ ascii "-txt=" ++ data ++ [newline] else []

theorem writeTxt_of_room (h : b.text.length + field.length + data.length + 7 ≤ b.bufLen) :
    writeTxt b field data =
      { b with text := b.text ++ (field ++ ascii "-txt=" ++ data ++ [newline]) } := by
  have hlen : (field ++ ascii "-txt=").length = field.length + 5 := by
    rw [List.length_append]
    rfl
  unfold writeTxt
  rw [print_of_room (by rw [hlen]; omega)]
  dsimp only
  rw [printChars_of_room (by simp only [List.length_append, hlen]; omega)]
  dsimp only
  rw [print_of_room (by simp only [List.length_append, hlen, List.length_singleton]; omega)]
  simp only [Option.getD_some, List.append_assoc]

/-- A field is written in full, and leaves room for the end of the entry and the beginning of the
next one. -/
theorem eapFastWrite_eq {t : Bytes} {m : ℕ} (field : Bytes) (data : Option Bytes) (txt : Bool)
    (hlen : t.length ≤ m) (hnone : data = none → t.length + 28 ≤ m) :
    ∃ n, eapFastWrite ⟨t, m⟩ field data txt = ⟨t ++ fieldText field data txt, n⟩ ∧
      (t ++ fieldText field data txt).length + 28 ≤ n := by
  cases data with
  | none =>
    refine ⟨m, ?_, ?_⟩
    · simp [eapFastWrite, fieldText]
    · simpa [fieldText] using hnone rfl
  | some data =>
    have hsign : (field ++ ascii "=").length = field.length + 1 := by
      rw [List.length_append]
      rfl
    obtain ⟨need, hneed⟩ : ∃ need, field.length + data.length * 2 + 30 +
      (if txt = true then field.length + data.length + 20 else 0) = need := ⟨_, rfl⟩
    obtain ⟨n, hgrow, hn⟩ : ∃ n, (if m < t.length + need then
        (⟨t, m + need⟩ : TextBuf) else ⟨t, m⟩) = ⟨t, n⟩ ∧ t.length + need ≤ n := by
      split_ifs with hless
      · exact ⟨m + need, rfl, Nat.add_le_add_right hlen need⟩
      · exact ⟨m, rfl, not_lt.mp hless⟩
    refine ⟨n, ?_, ?_⟩
    · unfold eapFastWrite
      dsimp only
      rw [hneed, hgrow, print_of_room (by dsimp only; omega)]
      dsimp only
      rw [printHex_of_room (by simp only [List.length_append, hsign]; omega)]
      dsimp only
      rw [print_of_room (by
        simp only [List.length_append, hsign, length_hexText, List.length_singleton]
        omega)]
      dsimp only
      cases txt with
      | false => simp [fieldText]
      | true =>
        rw [if_pos rfl] at hneed ⊢
        rw [writeTxt_of_room (by
          simp only [List.length_append, hsign, length_hexText, List.length_singleton]
          omega)]
        simp [fieldText]
    · have htxt : (ascii "-txt=").length = 5 := rfl
      cases txt with
      | false =>
        simp only [fieldText, List.length_append, hsign, length_hexText, List.length_singleton,
          Bool.false_eq_true, if_false, List.length_nil] at hneed ⊢
        omega
      | true =>
        simp only [fieldText, List.length_append, hsign, htxt, length_hexText,
          List.length_singleton, if_true] at hneed ⊢
        have heq : (ascii "=").length = 1 := rfl
        omega

def startText (pac : EapFastPac) : Bytes :=
  ascii "START" ++ [newline] ++ (ascii "PAC-Type=" ++ ascii (toString pac.pacType) ++ [newline])

def entryText (pac : EapFastPac) : Bytes :=
  startText pac ++ fieldText (ascii "PAC-Key") (some pac.pacKey) false ++
    fieldText (ascii "PAC-Opaque") pac.pacOpaque false ++
    fieldText (ascii "PAC-Info") pac.pacInfo false ++
    fieldText (ascii "A-ID") pac.aId false ++
    fieldText (ascii "I-ID") pac.iId true ++
    fieldText (ascii "A-ID-Info") pac.aIdInfo true ++ (ascii "END" ++ [newline])

theorem eapFastAddPacData_eq {t : Bytes} {m : ℕ} {pac : EapFastPac}
    (htype : knownPacType pac.pacType = true) (h : t.length + 24 ≤ m) :
    ∃ n, eapFastAddPacData pac ⟨t, m⟩ = some ⟨t ++ entryText pac, n⟩ ∧
      (t ++ entryText pac).length + 24 ≤ n := by
  have hstart : ascii "START\nPAC-Type=" ++ ascii (toString pac.pacType) ++ [newline] =
      startText pac := by
    have hsplit : ascii "START\nPAC-Type=" = ascii "START" ++ [newline] ++ ascii "PAC-Type=" := rfl
    rw [startText, hsplit]
    simp only [List.append_assoc]
  have hlen : (startText pac).length = 17 := by
    simp only [knownPacType, Bool.or_eq_true, decide_eq_true_eq] at htype
    rcases htype with (h | h) | h <;> rw [startText, h] <;> rfl
  have hend : ascii "END\n" = ascii "END" ++ [newline] := rfl
  have hendLen : (ascii "END" ++ [newline]).length = 4 := rfl
  unfold eapFastAddPacData
  rw [hstart, print_of_room (by dsimp only; omega)]
  dsimp only
  -- the buffer grows with the first field, whatever the length of the key
  obtain ⟨n₁, h₁, hroom₁⟩ := eapFastWrite_eq (t := t ++ startText pac) (m := m) (ascii "PAC-Key")
    (some pac.pacKey) false (by rw [List.length_append]; omega) nofun
  rw [h₁]
  obtain ⟨n₂, h₂, hroom₂⟩ := eapFastWrite_eq (ascii "PAC-Opaque") pac.pacOpaque false
    (Nat.le_trans (Nat.le_add_right _ _) hroom₁) fun _ => hroom₁
  rw [h₂]
  obtain ⟨n₃, h₃, hroom₃⟩ := eapFastWrite_eq (ascii "PAC-Info") pac.pacInfo false
    (Nat.le_trans (Nat.le_add_right _ _) hroom₂) fun _ => hroom₂
  rw [h₃]
  obtain ⟨n₄, h₄, hroom₄⟩ := eapFastWrite_eq (ascii "A-ID") pac.aId false
    (Nat.le_trans (Nat.le_add_right _ _) hroom₃) fun _ => hroom₃
  rw [h₄]
  obtain ⟨n₅, h₅, hroom₅⟩ := eapFastWrite_eq (ascii "I-ID") pac.iId true
    (Nat.le_trans (Nat.le_add_right _ _) hroom₄) fun _ => hroom₄
  rw [h₅]
  obtain ⟨n₆, h₆, hroom₆⟩ := eapFastWrite_eq (ascii "A-ID-Info") pac.aIdInfo true
    (Nat.le_trans (Nat.le_add_right _ _) hroom₅) fun _ => hroom₅
  rw [h₆, hend, print_of_room (by dsimp only; omega)]
  refine ⟨n₆, ?_, ?_⟩
  · simp only [entryText, List.append_assoc]
  · simp only [entryText, List.length_append] at hroom₆ hendLen ⊢
    omega

theorem addPacs_eq {l : List EapFastPac} (htype : ∀ pac ∈ l, knownPacType pac.pacType = true)
    {t : Bytes} {m : ℕ} (h : t.length + 24 ≤ m) :
    ∃ n, addPacs l ⟨t, m⟩ = some ⟨t ++ l.flatMap entryText, n⟩ := by
  induction l generalizing t m with
  | nil => exact ⟨m, by simp [addPacs]⟩
  | cons pac l ih =>
    obtain ⟨n, hadd, hroom⟩ := eapFastAddPacData_eq (htype pac List.mem_cons_self) h
    obtain ⟨n', hl⟩ := ih (fun pac' hpac' => htype pac' (List.mem_cons_of_mem _ hpac')) hroom
    refine ⟨n', ?_⟩
    rw [addPacs, hadd]
    dsimp only
    rw [hl, List.flatMap_cons, List.append_assoc]

/-- **The text**: the buffer has room for every entry. -/
theorem eapFastSavePac_eq {l : List EapFastPac}
    (htype : ∀ pac ∈ l, knownPacType pac.pacType = true) :
    eapFastSavePac l = some (pacFileHdr ++ newline :: l.flatMap entryText) := by
  have hlen : (pacFileHdr ++ [newline]).length = 45 := by decide
  obtain ⟨n, hl⟩ := addPacs_eq (t := pacFileHdr ++ [newline]) (m := 1024) htype
    (by rw [hlen]; decide)
  unfold eapFastSavePac
  rw [print_of_room (by dsimp only; rw [hlen]; decide)]
  dsimp only
  rw [List.nil_append, hl, Option.map_some, List.append_assoc]
  rfl

end Writer

/-! ## The lines -/

/-- The lines behind the first one, of a field that is written as characters. -/
def extraLines (data : Bytes) : List Bytes := (lines (data ++ [newline])).tail

def txtLine (field data : Bytes) : Bytes :=
  field ++ ascii "-txt=" ++ (lines (data ++ [newline])).headD []

def hexLine (field data : Bytes) : Bytes := field ++ equalsSign :: hexText data

def fieldLines (field : Bytes) (data : Option Bytes) (txt : Bool) : List Bytes :=
  match data with
  | none => []
  | some data => hexLine field data :: if txt then txtLine field data :: extraLines data else []

def bodyLines (pac : EapFastPac) : List Bytes :=
  (ascii "PAC-Type=" ++ ascii (toString pac.pacType)) ::
    (fieldLines (ascii "PAC-Key") (some pac.pacKey) false ++
      fieldLines (ascii "PAC-Opaque") pac.pacOpaque false ++
      fieldLines (ascii "PAC-Info") pac.pacInfo false ++
      fieldLines (ascii "A-ID") pac.aId false ++
      fieldLines (ascii "I-ID") pac.iId true ++
      fieldLines (ascii "A-ID-Info") pac.aIdInfo true)

def entryLines (pac : EapFastPac) : List Bytes :=
  ascii "START" :: (bodyLines pac ++ [ascii "END"])

theorem newline_not_mem_hexText (data : Bytes) : newline ∉ hexText data := by
  intro hmem
  have hdigit := isxdigit_of_mem_hexText hmem
  revert hdigit
  decide

theorem lines_fieldText {field : Bytes} (hfield : newline ∉ field) (data : Option Bytes)
    (txt : Bool) (rest : Bytes) :
    lines (fieldText field data txt ++ rest) = fieldLines field data txt ++ lines rest := by
  have hsign : ascii "=" = [equalsSign] := rfl
  cases data with
  | none => rfl
  | some data =>
    have hline : newline ∉ hexLine field data := by
      rw [hexLine, List.mem_append, List.mem_cons, not_or, not_or]
      exact ⟨hfield, by decide, newline_not_mem_hexText data⟩
    have hfirst : ∀ rest, lines (field ++ ascii "=" ++ hexText data ++ [newline] ++ rest) =
        hexLine field data :: lines rest := by
      intro rest
      rw [← lines_line hline, hexLine, hsign]
      simp only [List.append_assoc, List.cons_append, List.nil_append]
    cases txt with
    | false => simpa [fieldText, fieldLines] using hfirst rest
    | true =>
      obtain ⟨first, more, hmore⟩ := List.exists_cons_of_ne_nil
        (lines_ne_nil (l := data ++ [newline]) (by simp))
      have hprefix : newline ∉ field ++ ascii "-txt=" := by
        rw [List.mem_append, not_or]
        exact ⟨hfield, by decide⟩
      have htxt : lines (field ++ ascii "-txt=" ++ data ++ [newline] ++ rest) =
          txtLine field data :: (extraLines data ++ lines rest) := by
        have hassoc : field ++ ascii "-txt=" ++ data ++ [newline] ++ rest =
            field ++ ascii "-txt=" ++ data ++ newline :: rest := by
          simp only [List.append_assoc, List.singleton_append]
        rw [hassoc, lines_append_newline, List.append_assoc (field ++ ascii "-txt="),
          lines_prefix hprefix hmore, txtLine, extraLines, hmore]
        rfl
      have hsplit : fieldText field (some data) true ++ rest =
          field ++ ascii "=" ++ hexText data ++ [newline] ++
            (field ++ ascii "-txt=" ++ data ++ [newline] ++ rest) := by
        simp only [fieldText, if_true, List.append_assoc]
      rw [hsplit, hfirst, htxt]
      rfl

theorem newline_not_mem_ascii_toString {t : ℕ} (h : knownPacType t = true) :
    newline ∉ ascii (toString t) := by
  simp only [knownPacType, Bool.or_eq_true, decide_eq_true_eq] at h
  rcases h with (rfl | rfl) | rfl <;> decide

/-- **The lines of an entry.** -/
theorem lines_entryText {pac : EapFastPac} (htype : knownPacType pac.pacType = true)
    (rest : Bytes) : lines (entryText pac ++ rest) = entryLines pac ++ lines rest := by
  have hstart : ∀ rest, lines (startText pac ++ rest) =
      ascii "START" :: (ascii "PAC-Type=" ++ ascii (toString pac.pacType)) :: lines rest := by
    intro rest
    have hline : newline ∉ ascii "PAC-Type=" ++ ascii (toString pac.pacType) := by
      rw [List.mem_append, not_or]
      exact ⟨by decide, newline_not_mem_ascii_toString htype⟩
    have hkey : newline ∉ ascii "START" := by decide
    rw [startText, ← lines_line hline, ← lines_line hkey]
    simp only [List.append_assoc, List.cons_append, List.nil_append]
  have hend : lines (ascii "END" ++ [newline] ++ rest) = ascii "END" :: lines rest := by
    have hkey : newline ∉ ascii "END" := by decide
    rw [← lines_line hkey]
    simp only [List.append_assoc, List.singleton_append]
  simp only [entryText, List.append_assoc]
  rw [hstart, lines_fieldText (by decide), lines_fieldText (by decide), lines_fieldText (by decide),
    lines_fieldText (by decide), lines_fieldText (by decide), lines_fieldText (by decide),
    ← List.append_assoc (ascii "END"), hend]
  simp only [entryLines, bodyLines, List.cons_append, List.append_assoc, List.nil_append]

theorem lines_flatMap_entryText {l : List EapFastPac}
    (htype : ∀ pac ∈ l, knownPacType pac.pacType = true) :
    lines (l.flatMap entryText) = l.flatMap entryLines := by
  induction l with
  | nil => rfl
  | cons pac l ih =>
    rw [List.flatMap_cons, List.flatMap_cons, lines_entryText (htype pac List.mem_cons_self),
      ih fun pac' hpac' => htype pac' (List.mem_cons_of_mem _ hpac')]

/-!
## EAP-FAST at the peer: PACs that are read from a text

* **`loadAll`** is the reader on lines, with `loadLines_eq`.
* **`assigned`** is the field that a line sets, and **`Readable`** says that a line neither begins
  nor ends an entry and is not refused.
* **`loadAll_count`**: what is read has as many entries as there are lines that end one. So where a
  text of entries is read as just as many entries, no line inside an entry ends it.
* **`TextSafe`**: the fields fit into the line buffer, and the lines into which newlines break a
  field leave the entry as it is. **`textRoundTrip_iff`**: entries are read back exactly when each
  of them is `TextSafe`.
-/

/-! ### The reader on lines -/

def lineOf (line : Bytes) : Bytes × Option Bytes := splitLine (lineText line)

def loadAll : List Bytes → LoadState → Except PacError LoadState
  | [], st => .ok st
  | line :: ls, st =>
    match loadLine st (lineOf line) with
    | .error err => .error err
    | .ok st => loadAll ls st

theorem loadLines_eq {n : ℕ} {pos : Bytes} (h : pos.length ≤ n) (st : LoadState) :
    loadLines n pos st = loadAll (lines pos) st := by
  induction n generalizing pos st with
  | zero =>
    rw [List.eq_nil_of_length_eq_zero (Nat.le_zero.mp h)]
    rfl
  | succ n ih =>
    by_cases hpos : pos = []
    · subst hpos
      rfl
    · have hrest : ((pos.dropWhile (· ≠ newline)).tail).length ≤ n := by
        have hdrop := (List.dropWhile_suffix (l := pos) (· ≠ newline)).length_le
        have hpos' := List.length_pos_iff.mpr hpos
        rw [List.length_tail]
        omega
      rw [loadLines, eapFastReadLine, if_neg hpos, lines_eq_cons hpos, loadAll, lineOf]
      dsimp only
      cases loadLine st (splitLine (lineText (pos.takeWhile (· ≠ newline)))) with
      | error err => rfl
      | ok st => exact ih hrest st

theorem loadAll_append (ls ls' : List Bytes) (st : LoadState) :
    loadAll (ls ++ ls') st = (loadAll ls st).bind (loadAll ls') := by
  induction ls generalizing st with
  | nil => rfl
  | cons line ls ih =>
    rw [List.cons_append, loadAll, loadAll]
    cases loadLine st (lineOf line) with
    | error err => rfl
    | ok st => exact ih st

/-! ### Entries are ended by lines -/

def endsEntry (line : Bytes) : Bool := (lineOf line).1 = ascii "END"

theorem loadLine_count {st st' : LoadState} {line : Bytes}
    (h : loadLine st (lineOf line) = .ok st') :
    st'.2.length = st.2.length + if endsEntry line then 1 else 0 := by
  unfold loadLine at h
  by_cases hstart : (lineOf line).1 = ascii "START"
  · have hend : endsEntry line = false := by
      rw [endsEntry, hstart]
      decide
    rw [if_pos hstart, eapFastParseStart] at h
    rw [hend]
    split at h
    · cases h
    · cases h
      rfl
  · rw [if_neg hstart] at h
    by_cases hend : (lineOf line).1 = ascii "END"
    · have hends : endsEntry line = true := decide_eq_true hend
      rw [if_pos hend, eapFastParseEnd] at h
      rw [hends]
      split at h
      · cases h
      · cases h
        simp
    · have hends : endsEntry line = false := decide_eq_false hend
      rw [if_neg hend] at h
      rw [hends]
      split at h
      · cases h
      · split at h
        · cases h
          rfl
        · split at h
          · cases h
          · cases h
            rfl

variable {ls : List Bytes}

/-- **As many entries are read as lines end one.** -/
theorem loadAll_count {st st' : LoadState} (h : loadAll ls st = .ok st') :
    st'.2.length = st.2.length + ls.countP endsEntry := by
  induction ls generalizing st with
  | nil =>
    cases h
    rfl
  | cons line ls ih =>
    rw [loadAll] at h
    split at h
    · cases h
    · next st₁ hline =>
      rw [ih h, loadLine_count hline, List.countP_cons]
      omega

/-! ### Lines inside an entry -/

def assigned (line : Bytes) : Option (PacField × PacValue) :=
  match fieldOf (lineOf line).1 with
  | none => none
  | some f =>
    match parseField f (lineOf line).2 with
    | .error _ => none
    | .ok v => some (f, v)

/-- A line that neither begins nor ends an entry, and whose value is not refused. -/
def Readable (line : Bytes) : Prop :=
  (lineOf line).1 ≠ ascii "START" ∧ (lineOf line).1 ≠ ascii "END" ∧
    ∀ f, fieldOf (lineOf line).1 = some f → ∃ v, parseField f (lineOf line).2 = .ok v

def setAll (pac : EapFastPac) (ls : List Bytes) : EapFastPac :=
  (ls.filterMap assigned).foldl EapFastPac.set pac

variable {pac : EapFastPac} {l : List EapFastPac} {st' : LoadState}

/-- Inside an entry a line that does not end it is read exactly when it is `Readable`, and sets what
it assigns. -/
theorem loadLine_inside {line : Bytes}
    (hend : endsEntry line = false) :
    loadLine (some pac, l) (lineOf line) = .ok st' ↔
      Readable line ∧ st' = (some (setAll pac [line]), l) := by
  have hend' : (lineOf line).1 ≠ ascii "END" := of_decide_eq_false hend
  unfold loadLine
  by_cases hstart : (lineOf line).1 = ascii "START"
  · rw [if_pos hstart]
    refine ⟨fun h => ?_, fun h => absurd hstart h.1.1⟩
    cases h
  · rw [if_neg hstart, if_neg hend']
    dsimp only
    cases hfield : fieldOf (lineOf line).1 with
    | none =>
      have hset : setAll pac [line] = pac := by
        simp [setAll, assigned, hfield]
      rw [hset]
      refine ⟨fun h => ⟨⟨hstart, hend', fun f hf => ?_⟩, ?_⟩, fun h => ?_⟩
      · rw [hfield] at hf
        cases hf
      · cases h
        rfl
      · rw [h.2]
    | some f =>
      dsimp only
      cases hparse : parseField f (lineOf line).2 with
      | error err =>
        refine ⟨fun h => ?_, fun h => ?_⟩
        · cases h
        · obtain ⟨v, hv⟩ := h.1.2.2 f hfield
          rw [hparse] at hv
          cases hv
      | ok v =>
        have hset : setAll pac [line] = pac.set (f, v) := by
          simp [setAll, assigned, hfield, hparse]
        rw [hset]
        dsimp only
        refine ⟨fun h => ⟨⟨hstart, hend', fun f' hf' => ?_⟩, ?_⟩, fun h => ?_⟩
        · rw [hfield] at hf'
          cases hf'
          exact ⟨v, hparse⟩
        · cases h
          rfl
        · rw [h.2]

theorem loadAll_inside
    (hend : ls.countP endsEntry = 0) :
    loadAll ls (some pac, l) = .ok st' ↔
      (∀ line ∈ ls, Readable line) ∧ st' = (some (setAll pac ls), l) := by
  induction ls generalizing pac with
  | nil => simp [loadAll, setAll, eq_comm]
  | cons line ls ih =>
    rw [List.countP_cons, Nat.add_eq_zero_iff] at hend
    have hline : endsEntry line = false := by
      by_contra hne
      rw [Bool.not_eq_false] at hne
      rw [hne] at hend
      exact absurd hend.2 (by simp)
    have hsetAll : setAll (setAll pac [line]) ls = setAll pac (line :: ls) := by
      rw [setAll, setAll, setAll, ← List.foldl_append, ← List.filterMap_append,
        List.singleton_append]
    rw [loadAll]
    cases hload : loadLine (some pac, l) (lineOf line) with
    | error err =>
      refine ⟨fun h => ?_, fun h => ?_⟩
      · cases h
      · rw [(loadLine_inside hline).mpr ⟨h.1 line List.mem_cons_self, rfl⟩] at hload
        cases hload
    | ok st₁ =>
      obtain ⟨hreadable, rfl⟩ := (loadLine_inside hline).mp hload
      dsimp only
      rw [ih hend.1, hsetAll]
      simp [hreadable]

/-! ### Entries -/

def newPac : EapFastPac :=
  ⟨List.replicate eapFastPacKeyLen 0, none, none, none, none, none, pacTypeTunnelPac⟩

/-- The entry that is read of the lines of an entry. -/
def readBack (pac : EapFastPac) : EapFastPac := setAll newPac (bodyLines pac)

/-- The lines of an entry are read exactly when those between START and END are `Readable`, where
none of them ends the entry. -/
theorem loadAll_entryLines
    (hend : (bodyLines pac).countP endsEntry = 0) :
    loadAll (entryLines pac ++ ls) (none, l) = .ok st' ↔
      (∀ line ∈ bodyLines pac, Readable line) ∧
        loadAll ls (none, l ++ [readBack pac]) = .ok st' := by
  have hstart : ∀ rest, loadAll (ascii "START" :: rest) (none, l) =
      loadAll rest (some newPac, l) := fun rest => rfl
  have hlast : ∀ pac, loadAll [ascii "END"] (some pac, l) = .ok (none, l ++ [pac]) :=
    fun pac => rfl
  rw [entryLines, List.cons_append, hstart, List.append_assoc, loadAll_append]
  cases hbody : loadAll (bodyLines pac) (some newPac, l) with
  | error err =>
    refine ⟨fun h => ?_, fun h => ?_⟩
    · cases h
    · rw [(loadAll_inside hend).mpr ⟨h.1, rfl⟩] at hbody
      cases hbody
  | ok st₁ =>
    obtain ⟨hreadable, rfl⟩ := (loadAll_inside hend).mp hbody
    have hrest : loadAll ([ascii "END"] ++ ls) (some (setAll newPac (bodyLines pac)), l) =
        loadAll ls (none, l ++ [readBack pac]) := by
      rw [loadAll_append, hlast]
      rfl
    rw [Except.bind, hrest]
    exact ⟨fun h => ⟨hreadable, h⟩, fun h => h.2⟩

theorem loadAll_entries {l l₀ : List EapFastPac}
    (hend : ∀ pac ∈ l, (bodyLines pac).countP endsEntry = 0) :
    loadAll (l.flatMap entryLines) (none, l₀) = .ok st' ↔
      (∀ pac ∈ l, ∀ line ∈ bodyLines pac, Readable line) ∧
        st' = (none, l₀ ++ l.map readBack) := by
  induction l generalizing l₀ with
  | nil => simp [loadAll, eq_comm]
  | cons pac l ih =>
    rw [List.flatMap_cons, loadAll_entryLines (hend pac List.mem_cons_self),
      ih fun pac' hpac' => hend pac' (List.mem_cons_of_mem _ hpac'), List.forall_mem_cons,
      List.map_cons, List.append_assoc, List.singleton_append, and_assoc]

theorem countP_entryLines (pac : EapFastPac) :
    (entryLines pac).countP endsEntry = (bodyLines pac).countP endsEntry + 1 := by
  have hstart : endsEntry (ascii "START") = false := by decide
  have hend : endsEntry (ascii "END") = true := by decide
  rw [entryLines, List.countP_cons, hstart, List.countP_append, List.countP_singleton, hend]
  simp

theorem countP_bodyLines
    (h : (l.flatMap entryLines).countP endsEntry ≤ l.length) :
    ∀ pac ∈ l, (bodyLines pac).countP endsEntry = 0 := by
  have hle : ∀ l : List EapFastPac, l.length ≤ (l.flatMap entryLines).countP endsEntry := by
    intro l
    induction l with
    | nil => exact Nat.zero_le _
    | cons pac l ih =>
      rw [List.flatMap_cons, List.countP_append, countP_entryLines, List.length_cons]
      omega
  induction l with
  | nil => exact nofun
  | cons pac l ih =>
    have hl := hle l
    rw [List.flatMap_cons, List.countP_append, countP_entryLines, List.length_cons] at h
    rw [List.forall_mem_cons]
    exact ⟨by omega, ih (by omega)⟩

theorem Readable.endsEntry {line : Bytes} (h : Readable line) : endsEntry line = false :=
  decide_eq_false h.2.1

/-- **What is read of the text of entries**: as many entries are read exactly when the lines inside
them are `Readable`, and then each is what its own lines say. -/
theorem eapFastLoadPac_eq {l l' : List EapFastPac} {data : Bytes}
    (htype : ∀ pac ∈ l, knownPacType pac.pacType = true) (hdata : eapFastSavePac l = some data) :
    eapFastLoadPac data = .ok l' ∧ l'.length = l.length ↔
      (∀ pac ∈ l, ∀ line ∈ bodyLines pac, Readable line) ∧ l' = l.map readBack := by
  have hread : ∀ rest, eapFastReadLine (pacFileHdr ++ newline :: rest) =
      some ((pacFileHdr, none), rest) := fun rest => rfl
  rw [eapFastSavePac_eq htype] at hdata
  cases hdata
  rw [eapFastLoadPac, hread]
  dsimp only
  rw [if_neg (not_not.mpr rfl), loadLines_eq le_rfl, lines_flatMap_entryText htype]
  constructor
  · rintro ⟨hload, hlen⟩
    cases hall : loadAll (l.flatMap entryLines) (none, []) with
    | error err =>
      rw [hall] at hload
      cases hload
    | ok st =>
      have hcount := loadAll_count hall
      have hst : st.2.length = l'.length := by
        rw [hall] at hload
        rcases st with ⟨_ | pac, l₁⟩
        · cases hload
          rfl
        · cases hload
      obtain ⟨hreadable, rfl⟩ := (loadAll_entries (countP_bodyLines (by
        rw [← hlen, ← hst, hcount]
        exact Nat.le_add_left _ _))).mp hall
      rw [hall] at hload
      cases hload
      exact ⟨hreadable, List.nil_append _⟩
  · rintro ⟨hreadable, rfl⟩
    have hend : ∀ pac ∈ l, (bodyLines pac).countP endsEntry = 0 := by
      intro pac hpac
      refine List.countP_eq_zero.mpr fun line hline => ?_
      rw [(hreadable pac hpac line hline).endsEntry]
      exact Bool.false_ne_true
    rw [(loadAll_entries hend).mpr ⟨hreadable, rfl⟩]
    exact ⟨rfl, List.length_map _⟩

end Hostapd.EapPeer
