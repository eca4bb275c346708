import Hostapd.Wps.Httpread

/-!
# The HTTP reader: the copy loop

* **`Checked`**: what the check at the top of the loop can do, one constructor for each case.
* **`Room`**: the buffer has room for what was read, or for all of the announced content.
* **`LoopRule`**: the rule for the loop: an invariant of its turns, and what holds at its end.
* **`bodyLoop_room`**: no copy goes beyond the buffer, and the loop ends.
-/

namespace Hostapd.Wps.Http

open Hostapd.Lib Hostapd.Utils.Eloop

variable {abi : DataModel} {mem : ℕ → Bool}

/-! ## The check -/

def LineEnds (line : Bytes) : Prop := line.length ≥ 2 ∧ line.drop (line.length - 2) = [13, 10]

/-- What the check at the top of the copy loop can do. -/
inductive Checked (abi : DataModel) (h : Httpread) : Httpread → BodyCheck → Prop
  | inLine (hc : h.chunked = true) (hd : h.inChunkData = false)
      (hline : ¬ LineEnds (h.body.drop h.chunkStart)) : Checked abi h h .go
  | badLine (hc : h.chunked = true) (hd : h.inChunkData = false)
      (hline : LineEnds (h.body.drop h.chunkStart))
      (hx : isxdigit (at0 (h.body.drop h.chunkStart)) = false) : Checked abi h h .bad
  | lastLine (hc : h.chunked = true) (hd : h.inChunkData = false)
      (hline : LineEnds (h.body.drop h.chunkStart))
      (hx : isxdigit (at0 (h.body.drop h.chunkStart)) = true)
      (hsize : hexInt abi (h.body.drop h.chunkStart) = 0) :
      Checked abi h { h with chunkSize := 0, body := h.body.take h.chunkStart, inTrailer := true }
        .trailer
  | sizeLine (hc : h.chunked = true) (hd : h.inChunkData = false)
      (hline : LineEnds (h.body.drop h.chunkStart))
      (hx : isxdigit (at0 (h.body.drop h.chunkStart)) = true)
      (hsize : hexInt abi (h.body.drop h.chunkStart) ≠ 0) :
      Checked abi h
        { h with
          chunkSize := hexInt abi (h.body.drop h.chunkStart)
          body := h.body.take h.chunkStart
          inChunkData := true } .go
  | inChunk (hc : h.chunked = true) (hd : h.inChunkData = true)
      (hmore : (h.body.length - h.chunkStart : ℤ) ≠ int32 (h.chunkSize + 2)) : Checked abi h h .go
  | underrun (hc : h.chunked = true) (hd : h.inChunkData = true)
      (hend : (h.body.length - h.chunkStart : ℤ) = int32 (h.chunkSize + 2))
      (hlen : h.body.length < 2) : Checked abi h h (.fault .underrun)
  | badEnd (hc : h.chunked = true) (hd : h.inChunkData = true)
      (hend : (h.body.length - h.chunkStart : ℤ) = int32 (h.chunkSize + 2))
      (htail : ¬ ∃ l, h.body = l ++ [13, 10]) : Checked abi h h .bad
  | chunkEnd (hc : h.chunked = true) (hd : h.inChunkData = true)
      (hend : (h.body.length - h.chunkStart : ℤ) = int32 (h.chunkSize + 2)) (l : Bytes)
      (hbody : h.body = l ++ [13, 10]) :
      Checked abi h
        { h with body := l, chunkStart := l.length, inChunkData := false, chunkSize := 0 } .go
  | whole (hc : h.chunked = false) (hcl : h.gotContentLength = true)
      (hlen : h.contentLength ≤ h.body.length) : Checked abi h { h with gotBody := true } .file
  | content (hc : h.chunked = false)
      (hmore : h.gotContentLength = true → (h.body.length : ℤ) < h.contentLength) :
      Checked abi h h .go

variable {h : Httpread}

theorem chunkEnd_checked (hc : h.chunked = true) (hd : h.inChunkData = true)
    (hend : (h.body.length - h.chunkStart : ℤ) = int32 (h.chunkSize + 2)) :
    Checked abi h (bodyCheck abi h).1 (bodyCheck abi h).2 := by
  have hunfold : bodyCheck abi h = endChunk h := by
    simp only [bodyCheck, hc, hd, hend, not_true, and_false, if_false, if_true]
  rw [hunfold, endChunk]
  have hrev : h.body = h.body.reverse.reverse := h.body.reverse_reverse.symm
  match hbody : h.body.reverse with
  | [] =>
    rw [hbody] at hrev
    exact .underrun hc hd hend (by rw [hrev]; decide)
  | [b] =>
    rw [hbody] at hrev
    dsimp only
    split
    · exact .underrun hc hd hend (by rw [hrev]; simp)
    · refine .badEnd hc hd hend ?_
      rintro ⟨l, hl⟩
      have hlen := congrArg List.length (hl.symm.trans hrev)
      simp at hlen
  | b :: a :: l =>
    rw [hbody] at hrev
    dsimp only
    split
    · rename_i heq
      have h2 : h.body = l.reverse ++ [13, 10] := by
        rw [hrev, heq.1, heq.2]
        simp
      have hcase : Checked abi h _ _ := .chunkEnd hc hd hend l.reverse h2
      rwa [List.length_reverse] at hcase
    · rename_i hne
      refine .badEnd hc hd hend ?_
      rintro ⟨l', hl'⟩
      have hcons := congrArg List.reverse (hl'.symm.trans hrev)
      simp at hcons
      exact hne ⟨hcons.1.symm, hcons.2.1.symm⟩

theorem bodyCheck_checked (abi : DataModel) (h : Httpread) :
    Checked abi h (bodyCheck abi h).1 (bodyCheck abi h).2 := by
  cases hc : h.chunked with
  | false =>
    by_cases hwhole : h.gotContentLength = true ∧ (h.body.length : ℤ) ≥ h.contentLength
    · have heq : bodyCheck abi h = ({ h with gotBody := true }, .file) := by
        simp [bodyCheck, hc, hwhole.1, hwhole.2]
      rw [heq]
      exact .whole hc hwhole.1 hwhole.2
    · have heq : bodyCheck abi h = (h, .go) := by
        simp only [bodyCheck, hc, Bool.false_eq_true, false_and, if_false]
        exact if_neg hwhole
      rw [heq]
      exact .content hc fun hcl => lt_of_not_ge fun hle => hwhole ⟨hcl, hle⟩
  | true =>
    cases hd : h.inChunkData with
    | true =>
      by_cases hend : (h.body.length - h.chunkStart : ℤ) = int32 (h.chunkSize + 2)
      · exact chunkEnd_checked hc hd hend
      · have heq : bodyCheck abi h = (h, .go) := by
          simp [bodyCheck, hc, hd, hend]
        rw [heq]
        exact .inChunk hc hd hend
    | false =>
      by_cases hline : LineEnds (h.body.drop h.chunkStart)
      · have hline' := hline
        unfold LineEnds at hline'
        cases hx : isxdigit (at0 (h.body.drop h.chunkStart)) with
        | false =>
          have heq : bodyCheck abi h = (h, .bad) := by
            simp only [bodyCheck, hc, hd, hx, Bool.false_eq_true, not_false_eq_true, and_self,
              if_true, Bool.not_false]
            exact if_pos hline'
          rw [heq]
          exact .badLine hc hd hline hx
        | true =>
          by_cases hsize : hexInt abi (h.body.drop h.chunkStart) = 0
          · have heq : bodyCheck abi h =
                ({ h with chunkSize := 0, body := h.body.take h.chunkStart, inTrailer := true },
                  .trailer) := by
              simp only [bodyCheck, hc, hd, hx, hsize, Bool.false_eq_true, not_false_eq_true,
                and_self, if_true, Bool.not_true, if_false]
              exact if_pos hline'
            rw [heq]
            exact .lastLine hc hd hline hx hsize
          · have heq : bodyCheck abi h =
                ({ h with
                    chunkSize := hexInt abi (h.body.drop h.chunkStart)
                    body := h.body.take h.chunkStart
                    inChunkData := true }, .go) := by
              simp only [bodyCheck, hc, hd, hx, hsize, Bool.false_eq_true, not_false_eq_true,
                and_self, if_true, Bool.not_true, if_false]
              exact if_pos hline'
            rw [heq]
            exact .sizeLine hc hd hline hx hsize
      · have heq : bodyCheck abi h = (h, .go) := by
          simp only [bodyCheck, hc, hd, Bool.false_eq_true, not_false_eq_true, and_self, if_true]
          exact if_neg hline
        rw [heq]
        exact .inLine hc hd hline

theorem checked_of_eq {h' : Httpread} {c : BodyCheck} (heq : bodyCheck abi h = (h', c)) :
    Checked abi h h' c := by
  have hcheck := bodyCheck_checked abi h
  rwa [heq] at hcheck

structure Kept (h h' : Httpread) : Prop where
  maxBytes : h'.maxBytes = h.maxBytes
  gotHdr : h'.gotHdr = h.gotHdr
  hdr : h'.hdr = h.hdr
  gotContentLength : h'.gotContentLength = h.gotContentLength
  contentLength : h'.contentLength = h.contentLength
  chunked : h'.chunked = h.chunked
  bodyAlloc : h'.bodyAlloc = h.bodyAlloc

theorem Kept.refl (h : Httpread) : Kept h h := ⟨rfl, rfl, rfl, rfl, rfl, rfl, rfl⟩

theorem Kept.trans {h h' h'' : Httpread} (h₁ : Kept h h') (h₂ : Kept h' h'') : Kept h h'' :=
  ⟨h₂.maxBytes.trans h₁.maxBytes, h₂.gotHdr.trans h₁.gotHdr, h₂.hdr.trans h₁.hdr,
    h₂.gotContentLength.trans h₁.gotContentLength, h₂.contentLength.trans h₁.contentLength,
    h₂.chunked.trans h₁.chunked, h₂.bodyAlloc.trans h₁.bodyAlloc⟩

variable {h' : Httpread} {c : BodyCheck}

theorem Checked.kept (hcheck : Checked abi h h' c) : Kept h h' := by
  cases hcheck <;> exact ⟨rfl, rfl, rfl, rfl, rfl, rfl, rfl⟩

/-- There is more to copy of an announced content. -/
def Passed (h : Httpread) : Prop :=
  h.chunked = false → h.gotContentLength = true → (h.body.length : ℤ) < h.contentLength

theorem Checked.passed (hcheck : Checked abi h h' .go) : Passed h' := by
  intro hplain
  cases hcheck with
  | content _ hmore => exact hmore
  | inLine hc | sizeLine hc | inChunk hc | chunkEnd hc => exact absurd (hc.symm.trans hplain) nofun

/-! ## Room in the buffer -/

/-- Room for `n` more octets, or for all of the announced content. -/
structure Room (h : Httpread) (n : ℕ) : Prop where
  start : h.chunkStart ≤ h.body.length
  inside : (h.body.length : ℤ) < h.bodyAlloc
  alloc : h.bodyAlloc < 2 ^ 31
  content : h.contentLength < 2 ^ 31
  plain : h.chunked = true → h.gotContentLength = false
  room : (h.body.length : ℤ) + n < h.bodyAlloc ∨
    (h.gotContentLength = true ∧ h.contentLength < h.bodyAlloc)

theorem plain_of_content {n : ℕ} (hroom : Room h n) (hcl : h.gotContentLength = true) :
    h.chunked = false := by
  by_contra hc
  rw [hroom.plain (by simpa using hc)] at hcl
  cases hcl

theorem Room.check {n : ℕ} (hroom : Room h n) (hcheck : Checked abi h h' c) : Room h' n := by
  obtain ⟨hstart, hinside, halloc, hcontent, hplain, hroom⟩ := hroom
  cases hcheck with
  | inLine | badLine | inChunk | underrun | badEnd | whole | content =>
    exact ⟨hstart, hinside, halloc, hcontent, hplain, hroom⟩
  | lastLine | sizeLine =>
    have hlen : (h.body.take h.chunkStart).length = h.chunkStart := by
      rw [List.length_take]
      omega
    exact ⟨hlen.ge, by dsimp only; omega, halloc, hcontent, hplain,
      hroom.imp_left fun hlt => by dsimp only; omega⟩
  | chunkEnd hc hd hend l hbody =>
    have hlen : h.body.length = l.length + 2 := by rw [hbody, List.length_append]; rfl
    exact ⟨le_refl _, by dsimp only; omega, halloc, hcontent, hplain,
      hroom.imp_left fun hlt => by dsimp only; omega⟩

def copied (h : Httpread) (rest : Bytes) : Httpread :=
  { h with body := h.body ++ rest.take (copyLen h rest.length).toNat }

def left (h : Httpread) (rest : Bytes) : Bytes := rest.drop (copyLen h rest.length).toNat

theorem copied_kept (h : Httpread) (rest : Bytes) : Kept h (copied h rest) :=
  ⟨rfl, rfl, rfl, rfl, rfl, rfl, rfl⟩

theorem copyLen_le {n : ℕ} (hroom : Room h n) (hpass : Passed h) (hn : 0 < n) :
    copyLen h n ≤ n ∧
      (h.chunked = false → h.gotContentLength = true →
        0 < copyLen h n ∧ h.body.length + copyLen h n ≤ h.contentLength) := by
  have hinside := hroom.inside
  have halloc := hroom.alloc
  have hcontent := hroom.content
  unfold copyLen
  cases hc : h.chunked with
  | true =>
    refine ⟨?_, nofun⟩
    split
    · exact min_le_right _ _
    · rw [if_pos rfl]
      omega
  | false =>
    simp only [Bool.false_eq_true, false_and, if_false]
    by_cases hcl : h.gotContentLength = true
    · have hless := hpass hc hcl
      have hexact : int32 (h.contentLength - h.body.length) = h.contentLength - h.body.length :=
        int32_eq (by omega) (by omega)
      rw [if_pos hcl, hexact]
      exact ⟨min_le_right _ _, fun _ _ => by omega⟩
    · rw [if_neg hcl]
      exact ⟨le_refl _, fun _ h => absurd h hcl⟩

variable {rest : Bytes}

theorem Room.copy (hroom : Room h rest.length) (hpass : Passed h) (hrest : rest ≠ [])
    (hpos : 0 ≤ copyLen h rest.length) :
    h.body.length + copyLen h rest.length < h.bodyAlloc ∧
      Room (copied h rest) (left h rest).length := by
  have hn : 0 < rest.length := List.length_pos_iff.mpr hrest
  obtain ⟨hle, hcontent⟩ := copyLen_le hroom hpass hn
  have hinside : h.body.length + copyLen h rest.length < h.bodyAlloc := by
    rcases hroom.room with hlt | ⟨hcl, hlt⟩
    · omega
    · have hend := (hcontent (plain_of_content hroom hcl) hcl).2
      omega
  have hlen : ((copied h rest).body.length : ℤ) = h.body.length + copyLen h rest.length := by
    simp only [copied, List.length_append, List.length_take]
    omega
  have hleft : ((left h rest).length : ℤ) = rest.length - copyLen h rest.length := by
    simp only [left, List.length_drop]
    omega
  refine ⟨hinside, ⟨?_, by rw [hlen]; exact hinside, hroom.alloc, hroom.content, hroom.plain, ?_⟩⟩
  · have hstart := hroom.start
    have hsame : (copied h rest).chunkStart = h.chunkStart := rfl
    omega
  · rw [hlen, hleft]
    exact hroom.room.imp_left fun hlt => by
      have hsame : (copied h rest).bodyAlloc = h.bodyAlloc := rfl
      omega

/-! ## The copy loop -/

/-- The rule for the copy loop: an invariant `I` of its turns, and what holds where it ends. -/
structure LoopRule (abi : DataModel) (I : ℕ → Httpread → Bytes → Prop)
    (Q : Httpread → BodyEnd → Prop) : Prop where
  fuel : ∀ h rest, ¬ I 0 h rest
  trailer : ∀ {fuel h rest h'}, I (fuel + 1) h rest → bodyCheck abi h = (h', .trailer) →
    Q h' (.stop rest)
  file : ∀ {fuel h rest h'}, I (fuel + 1) h rest → bodyCheck abi h = (h', .file) → Q h' .file
  bad : ∀ {fuel h rest h'}, I (fuel + 1) h rest → bodyCheck abi h = (h', .bad) → Q h' .bad
  underrun : ∀ {fuel h rest h' f}, I (fuel + 1) h rest → bodyCheck abi h = (h', .fault f) →
    Q h' (.fault f)
  empty : ∀ {fuel h h'}, I (fuel + 1) h [] → bodyCheck abi h = (h', .go) → Q h' (.stop [])
  negative : ∀ {fuel h rest h'}, I (fuel + 1) h rest → bodyCheck abi h = (h', .go) → rest ≠ [] →
    copyLen h' rest.length < 0 → Q h' (.fault .negativeCopy)
  turn : ∀ {fuel h rest h'}, I (fuel + 1) h rest → bodyCheck abi h = (h', .go) → rest ≠ [] →
    0 ≤ copyLen h' rest.length → h'.body.length + copyLen h' rest.length ≤ h'.bodyAlloc ∧
      I fuel (copied h' rest) (left h' rest)

theorem LoopRule.run {I : ℕ → Httpread → Bytes → Prop} {Q : Httpread → BodyEnd → Prop}
    (hrule : LoopRule abi I Q) {fuel : ℕ} {h : Httpread} (hI : I fuel h rest) :
    Q (bodyLoop abi fuel h rest).1 (bodyLoop abi fuel h rest).2 := by
  induction fuel generalizing h rest with
  | zero => exact absurd hI (hrule.fuel h rest)
  | succ fuel ih =>
    rw [bodyLoop]
    rcases hcheck : bodyCheck abi h with ⟨h', c⟩
    cases c with
    | trailer => exact hrule.trailer hI hcheck
    | file => exact hrule.file hI hcheck
    | bad => exact hrule.bad hI hcheck
    | fault f => exact hrule.underrun hI hcheck
    | go =>
      dsimp only
      by_cases hrest : rest = []
      · subst hrest
        rw [if_pos rfl]
        exact hrule.empty hI hcheck
      · rw [if_neg hrest]
        by_cases hneg : copyLen h' rest.length < 0
        · rw [if_pos hneg]
          exact hrule.negative hI hcheck hrest hneg
        · obtain ⟨hroom, hnext⟩ := hrule.turn hI hcheck hrest (not_lt.mp hneg)
          rw [if_neg hneg, if_neg (not_lt.mpr hroom)]
          exact ih hnext

def AtEnd (h : Httpread) : Prop :=
  h.chunked = true ∧ h.inChunkData = true ∧
    (h.body.length - h.chunkStart : ℤ) = int32 (h.chunkSize + 2)

/-- Turns for `n` octets: one copies at least one octet, unless it is the one behind the size line
of a chunk whose end comes at once. -/
def Turns (fuel : ℕ) (h : Httpread) (n : ℕ) : Prop :=
  2 * n + 1 ≤ fuel ∧ (¬ AtEnd h → 2 * n + 2 ≤ fuel)

theorem copyLen_eq_zero {n : ℕ} (hroom : Room h n) (hpass : Passed h) (hn : 0 < n)
    (hzero : copyLen h n = 0) : AtEnd h := by
  have hstart := hroom.start
  have hinside := hroom.inside
  have halloc := hroom.alloc
  obtain ⟨-, hcontent⟩ := copyLen_le hroom hpass hn
  cases hc : h.chunked with
  | false =>
    cases hcl : h.gotContentLength with
    | true => exact absurd hzero (hcontent hc hcl).1.ne'
    | false =>
      simp only [copyLen, hc, hcl, Bool.false_eq_true, false_and, if_false] at hzero
      omega
  | true =>
    cases hd : h.inChunkData with
    | false =>
      simp [copyLen, hc, hd] at hzero
    | true =>
      have hwrap : int32 ((h.chunkStart : ℤ) + h.chunkSize + 2 - h.body.length) = 0 := by
        simp only [copyLen, hc, hd, and_self, if_true] at hzero
        omega
      have hsub : (h.chunkStart : ℤ) + h.chunkSize + 2 - h.body.length =
          h.chunkSize + 2 - (h.body.length - h.chunkStart) := by omega
      rw [hsub] at hwrap
      have heq : int32 (h.chunkSize + 2) = int32 (h.body.length - h.chunkStart) :=
        Int.bmod_eq_bmod_iff_bmod_sub_eq_zero.mpr hwrap
      have hexact : int32 ((h.body.length : ℤ) - h.chunkStart) = h.body.length - h.chunkStart :=
        int32_eq (by omega) (by omega)
      exact ⟨hc, hd, (heq.trans hexact).symm⟩

theorem Turns.turn {fuel : ℕ} (hturns : Turns (fuel + 1) h rest.length)
    (hroom : Room h rest.length) (hcheck : Checked abi h h' .go) (hrest : rest ≠ [])
    (hpos : 0 ≤ copyLen h' rest.length) : Turns fuel (copied h' rest) (left h' rest).length := by
  obtain ⟨hbase, hmore⟩ := hturns
  have hn : 0 < rest.length := List.length_pos_iff.mpr hrest
  have hroom' := hroom.check hcheck
  have hleft : (left h' rest).length = rest.length - (copyLen h' rest.length).toNat :=
    List.length_drop
  by_cases hzero : copyLen h' rest.length = 0
  · -- this turn copies nothing: it is at the end of a chunk, and was not before
    have hend := copyLen_eq_zero hroom' hcheck.passed hn hzero
    have hbefore : ¬ AtEnd h := by
      rintro ⟨-, hd, heq⟩
      cases hcheck with
      | inLine _ hd' | sizeLine _ hd' => exact absurd (hd.symm.trans hd') nofun
      | inChunk _ _ hne => exact hne heq
      | chunkEnd => exact absurd hend.2.1 nofun
      | content hc => exact absurd (hend.1.symm.trans hc) nofun
    have hcopied : copied h' rest = h' := by
      simp [copied, hzero]
    rw [hcopied]
    have hmore' := hmore hbefore
    exact ⟨by omega, fun hne => absurd hend hne⟩
  · exact ⟨by omega, fun _ => by omega⟩

/-- **No copy goes beyond the buffer, and the copy loop ends.** -/
theorem bodyLoop_room (abi : DataModel) (hroom : Room h rest.length) :
    let res := bodyLoop abi (2 * rest.length + 2) h rest
    Kept h res.1 ∧ Room res.1 0 ∧ res.2 ≠ .fault .overrun ∧ res.2 ≠ .fault .stuck ∧
      ∀ rest', res.2 = .stop rest' → Passed res.1 := by
  have hrule : LoopRule abi
      (fun fuel h₁ rest => Kept h h₁ ∧ Room h₁ rest.length ∧ Turns fuel h₁ rest.length)
      (fun h₁ e => Kept h h₁ ∧ Room h₁ 0 ∧ e ≠ .fault .overrun ∧ e ≠ .fault .stuck ∧
        ∀ rest', e = .stop rest' → Passed h₁) := by
    have hless : ∀ {h₁ : Httpread} {n : ℕ}, Room h₁ n → Room h₁ 0 := fun hr =>
      { hr with room := Or.inl (by simpa using hr.inside) }
    refine ⟨?_, ?_, ?_, ?_, ?_, ?_, ?_, ?_⟩
    · rintro h₁ rest ⟨-, -, hturns, -⟩
      omega
    · rintro fuel h₁ rest h₂ ⟨hkept, hr, -⟩ heq
      have hcheck := checked_of_eq heq
      refine ⟨hkept.trans hcheck.kept, hless (hr.check hcheck), nofun, nofun, fun _ _ hplain => ?_⟩
      cases hcheck with
      | lastLine hc => exact absurd (hc.symm.trans hplain) nofun
    · rintro fuel h₁ rest h₂ ⟨hkept, hr, -⟩ heq
      have hcheck := checked_of_eq heq
      exact ⟨hkept.trans hcheck.kept, hless (hr.check hcheck), nofun, nofun, nofun⟩
    · rintro fuel h₁ rest h₂ ⟨hkept, hr, -⟩ heq
      have hcheck := checked_of_eq heq
      exact ⟨hkept.trans hcheck.kept, hless (hr.check hcheck), nofun, nofun, nofun⟩
    · rintro fuel h₁ rest h₂ f ⟨hkept, hr, -⟩ heq
      cases checked_of_eq heq
      exact ⟨hkept, hless hr, nofun, nofun, nofun⟩
    · rintro fuel h₁ h₂ ⟨hkept, hr, -⟩ heq
      have hcheck := checked_of_eq heq
      exact ⟨hkept.trans hcheck.kept, hr.check hcheck, nofun, nofun, fun _ _ => hcheck.passed⟩
    · rintro fuel h₁ rest h₂ ⟨hkept, hr, -⟩ heq - -
      have hcheck := checked_of_eq heq
      exact ⟨hkept.trans hcheck.kept, hless (hr.check hcheck), nofun, nofun, nofun⟩
    · rintro fuel h₁ rest h₂ ⟨hkept, hr, hturns⟩ heq hrest hpos
      have hcheck := checked_of_eq heq
      obtain ⟨hinside, hnext⟩ := (hr.check hcheck).copy hcheck.passed hrest hpos
      exact ⟨hinside.le, (hkept.trans hcheck.kept).trans (copied_kept h₂ rest), hnext,
        hturns.turn hr hcheck hrest hpos⟩
  exact hrule.run ⟨Kept.refl h, hroom, by omega, fun _ => le_refl _⟩

end Hostapd.Wps.Http
