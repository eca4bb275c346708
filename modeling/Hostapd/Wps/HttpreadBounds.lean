import Hostapd.Wps.HttpreadLoop

/-!
# The HTTP reader: bounds

* **`CopiesFit`**: the sizes of chunks fit, and what is copied stays below `max_bytes`. Nothing in
  the loop sees to it. **`bodyLoop_fits`**: where it holds no copy is of a negative length, and
  `body_nbytes` stays below `max_bytes`.
* **`ensureRoom_some`**: the allocation makes room, whatever length was announced.
* **`Steady`**: the reader between two calls. **`enter_ok`**, **`copyBody_ok`**: a call keeps it.
* **`httpread_bounds`**: the same for runs of the handler.
-/

namespace Hostapd.Wps.Http

open Hostapd.Lib Hostapd.Utils.Eloop

variable {abi : DataModel} {mem : ℕ → Bool} {h h' : Httpread} {c : BodyCheck}

/-! ## What nothing sees to -/

/-- The size of a chunk fits an `int`, with the CR and LF behind it. -/
def SizeFits (h : Httpread) : Prop :=
  h.chunked = true → h.inChunkData = true → 0 ≤ h.chunkSize ∧ h.chunkSize ≤ 2 ^ 31 - 3

/-- Of `n` octets that were read, what goes to the body stays below `max_bytes`: all of them, or the
octet of a size line, the chunk, or the announced content. -/
def BelowMax (h : Httpread) (n : ℕ) : Prop :=
  (h.body.length : ℤ) + n ≤ h.maxBytes ∨
    if h.chunked = true ∧ h.inChunkData = true then
      (h.chunkStart : ℤ) + h.chunkSize + 2 ≤ h.maxBytes
    else if h.chunked = true then (h.body.length : ℤ) + 1 ≤ h.maxBytes
    else h.gotContentLength = true ∧ h.contentLength ≤ h.maxBytes

/-- Along the turns of the copy loop sizes fit, and what is copied stays below `max_bytes`. -/
def CopiesFit (abi : DataModel) : ℕ → Httpread → Bytes → Prop
  | 0, _, _ => True
  | fuel + 1, h, rest =>
    (bodyCheck abi h).2 = .go → SizeFits (bodyCheck abi h).1 ∧
      (rest ≠ [] → BelowMax (bodyCheck abi h).1 rest.length ∧
        CopiesFit abi fuel (copied (bodyCheck abi h).1 rest) (left (bodyCheck abi h).1 rest))

/-- A chunk of a size that fits, and a body below `max_bytes`. -/
structure Fitted (h : Httpread) : Prop where
  size : SizeFits h
  chunk : h.chunked = true → h.inChunkData = true →
    (h.body.length : ℤ) ≤ h.chunkStart + h.chunkSize + 2
  body : h.body = [] ∨ (h.body.length : ℤ) ≤ h.maxBytes

theorem Fitted.check (hfit : Fitted h) (hsize : SizeFits h') (hcheck : Checked abi h h' c) :
    Fitted h' := by
  obtain ⟨hs, hchunk, hbody⟩ := hfit
  have htake : ∀ n, h.body.take n = [] ∨ ((h.body.take n).length : ℤ) ≤ h.maxBytes := by
    intro n
    rcases hbody with hnil | hle
    · exact Or.inl (by rw [hnil, List.take_nil])
    · refine Or.inr ?_
      rw [List.length_take]
      omega
  cases hcheck with
  | inLine | badLine | inChunk | underrun | badEnd | whole | content => exact ⟨hs, hchunk, hbody⟩
  | lastLine hc hd => exact ⟨hsize, fun _ h' => absurd (hd.symm.trans h') nofun, htake _⟩
  | sizeLine hc hd =>
    refine ⟨hsize, fun _ _ => ?_, htake _⟩
    have hnonneg := (hsize hc rfl).1
    dsimp only at hnonneg ⊢
    rw [List.length_take]
    omega
  | chunkEnd hc hd hend l hl =>
    refine ⟨hsize, nofun, ?_⟩
    have hlen : h.body.length = l.length + 2 := by rw [hl, List.length_append]; rfl
    rcases hbody with hnil | hle
    · rw [hnil] at hlen
      simp at hlen
    · exact Or.inr (by dsimp only; omega)

variable {n : ℕ}

theorem Fitted.chunkLeft (hfit : Fitted h) (hroom : Room h n) (hc : h.chunked = true)
    (hd : h.inChunkData = true) :
    copyLen h n = min ((h.chunkStart : ℤ) + h.chunkSize + 2 - h.body.length) n ∧
      (h.body.length : ℤ) ≤ h.chunkStart + h.chunkSize + 2 := by
  obtain ⟨hlo, hhi⟩ := hfit.size hc hd
  have hchunk := hfit.chunk hc hd
  have hstart := hroom.start
  refine ⟨?_, hchunk⟩
  rw [copyLen, if_pos ⟨hc, hd⟩, int32_eq (by omega) (by omega)]

theorem Fitted.copyLen_nonneg (hfit : Fitted h) (hroom : Room h n) (hpass : Passed h)
    (hn : 0 < n) : 0 ≤ copyLen h n := by
  cases hc : h.chunked with
  | false =>
    cases hcl : h.gotContentLength with
    | true => exact ((copyLen_le hroom hpass hn).2 hc hcl).1.le
    | false =>
      simp only [copyLen, hc, hcl, Bool.false_eq_true, false_and, if_false]
      omega
  | true =>
    cases hd : h.inChunkData with
    | false => simp [copyLen, hc, hd]
    | true =>
      obtain ⟨heq, hle⟩ := hfit.chunkLeft hroom hc hd
      omega

variable {rest : Bytes}

theorem Fitted.copy (hfit : Fitted h) (hroom : Room h rest.length)
    (hpass : Passed h) (hrest : rest ≠ []) (hmax : BelowMax h rest.length) :
    Fitted (copied h rest) := by
  have hn : 0 < rest.length := List.length_pos_iff.mpr hrest
  have hpos := hfit.copyLen_nonneg hroom hpass hn
  obtain ⟨hle, hcontent⟩ := copyLen_le hroom hpass hn
  have hlen : ((copied h rest).body.length : ℤ) = h.body.length + copyLen h rest.length := by
    simp only [copied, List.length_append, List.length_take]
    omega
  refine ⟨hfit.size, fun hc hd => ?_, Or.inr ?_⟩
  · obtain ⟨heq, hchunk⟩ := hfit.chunkLeft hroom hc hd
    have hcs : (copied h rest).chunkStart = h.chunkStart ∧
        (copied h rest).chunkSize = h.chunkSize := ⟨rfl, rfl⟩
    rw [hlen, hcs.1, hcs.2]
    omega
  · rw [hlen]
    show _ ≤ h.maxBytes
    rcases hmax with hall | hpart
    · omega
    · cases hc : h.chunked with
      | true =>
        cases hd : h.inChunkData with
        | true =>
          obtain ⟨heq, -⟩ := hfit.chunkLeft hroom hc hd
          rw [if_pos ⟨hc, hd⟩] at hpart
          omega
        | false =>
          have hone : copyLen h rest.length = 1 := by simp [copyLen, hc, hd]
          simp only [hc, hd, Bool.false_eq_true, and_false, if_false, if_true] at hpart
          omega
      | false =>
        simp only [hc, Bool.false_eq_true, false_and, if_false] at hpart
        have hend := (hcontent hc hpart.1).2
        omega

/-- **No copy is of a negative length, and the body stays below `max_bytes`**, where sizes fit and
what is copied stays below `max_bytes`. -/
theorem bodyLoop_fits (abi : DataModel) (hroom : Room h rest.length)
    (hfit : Fitted h)
    (hcopies : CopiesFit abi (2 * rest.length + 2) h rest) :
    let res := bodyLoop abi (2 * rest.length + 2) h rest
    Fitted res.1 ∧ ∀ f, res.2 ≠ .fault f := by
  have hrule : LoopRule abi
      (fun fuel h₁ rest => Room h₁ rest.length ∧ Turns fuel h₁ rest.length ∧ Fitted h₁ ∧
        CopiesFit abi fuel h₁ rest)
      (fun h₁ e => Fitted h₁ ∧ ∀ f, e ≠ .fault f) := by
    have hgo : ∀ {fuel h₁ rest h₂}, CopiesFit abi (fuel + 1) h₁ rest →
        bodyCheck abi h₁ = (h₂, .go) → SizeFits h₂ ∧ (rest ≠ [] →
          BelowMax h₂ rest.length ∧ CopiesFit abi fuel (copied h₂ rest) (left h₂ rest)) := by
      intro fuel h₁ rest h₂ hfits heq
      have hfits' := hfits (by rw [heq])
      rwa [heq] at hfits'
    refine ⟨?_, ?_, ?_, ?_, ?_, ?_, ?_, ?_⟩
    · rintro h₁ rest ⟨-, ⟨hturns, -⟩, -⟩
      omega
    · rintro fuel h₁ rest h₂ ⟨-, -, hf, -⟩ heq
      have hcheck := checked_of_eq heq
      refine ⟨hf.check ?_ hcheck, nofun⟩
      cases hcheck with
      | lastLine _ hd => exact fun _ h' => absurd (hd.symm.trans h') nofun
    · rintro fuel h₁ rest h₂ ⟨-, -, hf, -⟩ heq
      have hcheck := checked_of_eq heq
      refine ⟨hf.check ?_ hcheck, nofun⟩
      cases hcheck with
      | whole => exact hf.size
    · rintro fuel h₁ rest h₂ ⟨-, -, hf, -⟩ heq
      have hcheck := checked_of_eq heq
      refine ⟨hf.check ?_ hcheck, nofun⟩
      cases hcheck with
      | badLine | badEnd => exact hf.size
    · rintro fuel h₁ rest h₂ f ⟨hr, -, hf, -⟩ heq
      cases checked_of_eq heq with
      | underrun hc hd hend hlen =>
        -- a chunk that fits has at least its CR and LF
        obtain ⟨hlo, hhi⟩ := hf.size hc hd
        rw [int32_eq (by omega) (by omega)] at hend
        omega
    · rintro fuel h₁ h₂ ⟨-, -, hf, hfits⟩ heq
      exact ⟨hf.check (hgo hfits heq).1 (checked_of_eq heq), nofun⟩
    · rintro fuel h₁ rest h₂ ⟨hr, -, hf, hfits⟩ heq hrest hneg
      have hcheck := checked_of_eq heq
      have hnonneg := (hf.check (hgo hfits heq).1 hcheck).copyLen_nonneg (hr.check hcheck)
        hcheck.passed (List.length_pos_iff.mpr hrest)
      omega
    · rintro fuel h₁ rest h₂ ⟨hr, hturns, hf, hfits⟩ heq hrest hpos
      have hcheck := checked_of_eq heq
      obtain ⟨hsize, hmore⟩ := hgo hfits heq
      obtain ⟨hmax, hnext⟩ := hmore hrest
      obtain ⟨hinside, hroom'⟩ := (hr.check hcheck).copy hcheck.passed hrest hpos
      exact ⟨hinside.le, hroom', hturns.turn hr hcheck hrest hpos,
        (hf.check hsize hcheck).copy (hr.check hcheck) hcheck.passed hrest hmax, hnext⟩
  exact hrule.run ⟨hroom, ⟨by omega, fun _ => le_refl _⟩, hfit, hcopies⟩

/-! ## The allocation -/

/-- The buffer is for all of the announced content. -/
def Fixed (h : Httpread) : Prop :=
  h.gotContentLength = true ∧ 0 ≤ h.contentLength ∧ h.contentLength < h.bodyAlloc

/-- The buffer grows step by step; where a content is announced it is one whose end does not fit an
`int`. -/
def Grown (h : Httpread) : Prop :=
  4096 ∣ h.bodyAlloc ∧ (h.gotContentLength = true → h.contentLength = 2 ^ 31 - 1)

structure Steady (h : Httpread) : Prop where
  hdr : h.hdr.length ≤ headerMaxSize
  start : h.chunkStart ≤ h.body.length
  content : -2 ^ 31 ≤ h.contentLength ∧ h.contentLength < 2 ^ 31
  plain : h.chunked = true → h.gotContentLength = false
  sized : (h.bodyAlloc = 0 ∧ h.body = []) ∨
    ((h.body.length : ℤ) < h.bodyAlloc ∧ h.bodyAlloc < 2 ^ 31 ∧
      (h.gotContentLength = true → (h.body.length : ℤ) ≤ h.contentLength) ∧ (Fixed h ∨ Grown h))
  fresh : h.gotHdr = false → h = { create h.maxBytes with hdr := h.hdr }

theorem room_enough (hst : Steady h) (hn : 0 < n) (hread : n ≤ readbufSize)
    (henough : ¬ h.bodyAlloc < int32 (h.body.length + n + 1)) :
    Room h n ∧ (Fixed h ∨ Grown h) := by
  have hread' : n ≤ 1024 := hread
  have hc := hst.content
  rcases hst.sized with ⟨halloc, hbody⟩ | ⟨hinside, halloc, -, hkind⟩
  · have hlen : h.body.length = 0 := by rw [hbody]; rfl
    rw [int32_eq (by omega) (by omega)] at henough
    omega
  · refine ⟨⟨hst.start, hinside, halloc, hc.2, hst.plain, ?_⟩, hkind⟩
    by_cases hwrap : (h.body.length : ℤ) + n + 1 < 2 ^ 31
    · rw [int32_eq (by omega) hwrap] at henough
      exact Or.inl (by omega)
    · rcases hkind with hfixed | ⟨⟨k, hk⟩, -⟩
      · exact Or.inr ⟨hfixed.1, hfixed.2.2⟩
      · -- a buffer that grew by steps ends 4096 octets in front of the wrap
        omega

theorem newSize_cases {size : ℤ} (hst : Steady h) (hsize : size = newSize h) (hpos : 0 ≤ size) :
    (h.gotContentLength = true ∧ size = h.contentLength + 1 ∧ h.contentLength < 2 ^ 31 - 1 ∧
        (h.body.length : ℤ) ≤ h.contentLength) ∨
      (size = h.bodyAlloc + 4096 ∧ size < 2 ^ 31 ∧
        (h.gotContentLength = true → h.contentLength = 2 ^ 31 - 1 ∨ h.contentLength < size)) := by
  obtain ⟨hclo, hchi⟩ := hst.content
  have hend : (h.contentLength = 2 ^ 31 - 1 ∧ int32 (h.contentLength + 1) = -2 ^ 31) ∨
      (h.contentLength < 2 ^ 31 - 1 ∧ int32 (h.contentLength + 1) = h.contentLength + 1) := by
    rcases eq_or_lt_of_le (show h.contentLength ≤ 2 ^ 31 - 1 by omega) with heq | hlt
    · exact Or.inl ⟨heq, by rw [heq]; decide⟩
    · exact Or.inr ⟨hlt, int32_eq (by omega) (by omega)⟩
  have halloc : 0 ≤ h.bodyAlloc ∧ h.bodyAlloc < 2 ^ 31 := by
    rcases hst.sized with ⟨hzero, -⟩ | ⟨hin, hlt, -⟩
    · omega
    · omega
  have hstep : (h.bodyAlloc + 4096 < 2 ^ 31 ∧ int32 (h.bodyAlloc + 4096) = h.bodyAlloc + 4096) ∨
      (int32 (h.bodyAlloc + 4096) = h.bodyAlloc + 4096 - 2 ^ 32) := by
    by_cases hlt : h.bodyAlloc + 4096 < 2 ^ 31
    · exact Or.inl ⟨hlt, int32_eq (by omega) hlt⟩
    · exact Or.inr (int32_eq_sub (by omega) (by omega))
  have hlow := (int32_bounds (h.bodyAlloc + 4096)).1
  unfold newSize bodybufDelta at hsize
  dsimp only at hsize
  split at hsize
  · rename_i hcond
    obtain ⟨hcl, hless⟩ := hcond
    have hexact : h.contentLength < 2 ^ 31 - 1 ∧ int32 (h.contentLength + 1) =
        h.contentLength + 1 := hend.resolve_left fun h => by omega
    refine Or.inl ⟨hcl, hsize.trans hexact.2, hexact.1, ?_⟩
    rcases hst.sized with ⟨hzero, hbody⟩ | ⟨-, -, hcovers, -⟩
    · have hlen : h.body.length = 0 := by rw [hbody]; rfl
      omega
    · exact hcovers hcl
  · rename_i hcond
    have hexact : h.bodyAlloc + 4096 < 2 ^ 31 ∧ int32 (h.bodyAlloc + 4096) =
        h.bodyAlloc + 4096 := hstep.resolve_right fun h => by omega
    refine Or.inr ⟨hsize.trans hexact.2, by omega, fun hcl => ?_⟩
    have hle : ¬ int32 (h.bodyAlloc + 4096) < int32 (h.contentLength + 1) :=
      fun hlt => hcond ⟨hcl, hlt⟩
    omega

theorem room_larger {size : ℤ} (hst : Steady h) (hread : n ≤ readbufSize)
    (hsize : size = newSize h) (hpos : 0 ≤ size) (heq : h' = { h with bodyAlloc := size }) :
    Room h' n ∧
      (Fixed h' ∨ Grown h' ∨ (h'.gotContentLength = true ∧ h'.contentLength < 0)) := by
  have hread' : n ≤ 1024 := hread
  have hchi := hst.content.2
  have hbefore : (h.bodyAlloc = 0 ∧ h.body.length = 0) ∨ (h.body.length : ℤ) < h.bodyAlloc := by
    rcases hst.sized with ⟨hzero, hbody⟩ | ⟨hin, -⟩
    · exact Or.inl ⟨hzero, by rw [hbody]; rfl⟩
    · exact Or.inr hin
  have halloc : h'.bodyAlloc = size := by rw [heq]
  have hkept : h'.contentLength = h.contentLength ∧ h'.gotContentLength = h.gotContentLength ∧
      h'.body = h.body := by rw [heq]; exact ⟨rfl, rfl, rfl⟩
  have hroom : ∀ (hin : (h.body.length : ℤ) < size) (hlt : size < 2 ^ 31)
      (hor : (h.body.length : ℤ) + n < size ∨ (h.gotContentLength = true ∧ h.contentLength < size)),
      Room h' n := by
    intro hin hlt hor
    rw [heq]
    exact ⟨hst.start, hin, hlt, hchi, hst.plain, hor⟩
  unfold Fixed Grown
  rw [halloc, hkept.1, hkept.2.1]
  rcases newSize_cases hst hsize hpos with ⟨hcl, hnew, hsmall, hcover⟩ | ⟨hnew, hlt, hcl⟩
  · exact ⟨hroom (by omega) (by omega) (Or.inr ⟨hcl, by omega⟩),
      Or.inl ⟨hcl, by omega, by omega⟩⟩
  · refine ⟨hroom (by omega) hlt (Or.inl (by omega)), ?_⟩
    have hdvd : ¬ Fixed h → (4096 : ℤ) ∣ size := by
      intro hnot
      rcases hst.sized with ⟨hzero, -⟩ | ⟨-, -, -, hkind⟩
      · exact ⟨1, by omega⟩
      · obtain ⟨k, hk⟩ := (hkind.resolve_left hnot).1
        exact ⟨k + 1, by omega⟩
    by_cases hgot : h.gotContentLength = true
    · rcases hcl hgot with hmax | hless
      · refine Or.inr (Or.inl ⟨hdvd fun hfixed => ?_, fun _ => hmax⟩)
        have hin := hfixed.2.2
        omega
      · by_cases hneg : h.contentLength < 0
        · exact Or.inr (Or.inr ⟨hgot, hneg⟩)
        · exact Or.inl ⟨hgot, not_lt.mp hneg, hless⟩
    · exact Or.inr (Or.inl ⟨hdvd fun hfixed => hgot hfixed.1, fun h => absurd h hgot⟩)

theorem ensureRoom_some (hst : Steady h) (hn : 0 < n) (hread : n ≤ readbufSize)
    (hsome : ensureRoom mem h n = some h') :
    Room h' n ∧ (∃ size, h' = { h with bodyAlloc := size }) ∧
      (Fixed h' ∨ Grown h' ∨ (h'.gotContentLength = true ∧ h'.contentLength < 0)) := by
  unfold ensureRoom at hsome
  by_cases hneed : h.bodyAlloc < int32 (h.body.length + n + 1)
  · rw [if_pos hneed] at hsome
    split at hsome
    · cases hsome
    · split at hsome
      · rename_i hpos
        rw [Option.some.injEq] at hsome
        obtain ⟨hroom, hkind⟩ := room_larger hst hread rfl hpos.1 hsome.symm
        exact ⟨hroom, ⟨_, hsome.symm⟩, hkind⟩
      · cases hsome
  · rw [if_neg hneed, Option.some.injEq] at hsome
    subst hsome
    obtain ⟨hroom, hkind⟩ := room_enough hst hn hread hneed
    exact ⟨hroom, ⟨_, rfl⟩, hkind.imp_right Or.inl⟩

/-! ## Calls of the handler -/

theorem readTrailer_eq (h : Httpread) (rest : Bytes) :
    ∃ t i g, (readTrailer h rest).1 = { h with trailerState := t, inTrailer := i, gotBody := g } := by
  induction rest generalizing h with
  | nil => exact ⟨_, _, _, rfl⟩
  | cons c rest ih =>
    have hstep : ∀ t, ∃ t' i g, (readTrailer { h with trailerState := t } rest).1 =
        { h with trailerState := t', inTrailer := i, gotBody := g } := by
      intro t
      obtain ⟨t', i, g, heq⟩ := ih { h with trailerState := t }
      exact ⟨t', i, g, heq⟩
    rw [readTrailer]
    cases h.trailerState with
    | lineBegin =>
      dsimp only
      split <;> exact hstep _
    | emptyCr =>
      dsimp only
      split
      · exact ⟨_, _, _, rfl⟩
      · exact hstep _
    | nonempty =>
      dsimp only
      split
      · exact hstep _
      · exact ih h
    | nonemptyCr =>
      dsimp only
      split <;> exact hstep _

/-- What the analysis of the header leaves alone, and what it sets. -/
structure Analyzed (h h' : Httpread) : Prop where
  gotHdr : h'.gotHdr = h.gotHdr
  hdr : h'.hdr = h.hdr
  gotBody : h'.gotBody = h.gotBody
  body : h'.body = h.body
  bodyAlloc : h'.bodyAlloc = h.bodyAlloc
  chunkStart : h'.chunkStart = h.chunkStart
  inTrailer : h'.inTrailer = h.inTrailer
  trailerState : h'.trailerState = h.trailerState
  inChunkData : h.inChunkData = false → h'.inChunkData = false
  content : -2 ^ 31 ≤ h.contentLength ∧ h.contentLength < 2 ^ 31 →
    -2 ^ 31 ≤ h'.contentLength ∧ h'.contentLength < 2 ^ 31

theorem Analyzed.refl (h : Httpread) : Analyzed h h :=
  ⟨rfl, rfl, rfl, rfl, rfl, rfl, rfl, rfl, id, id⟩

theorem Analyzed.trans {h h' h'' : Httpread} (h₁ : Analyzed h h') (h₂ : Analyzed h' h'') :
    Analyzed h h'' :=
  ⟨h₂.gotHdr.trans h₁.gotHdr, h₂.hdr.trans h₁.hdr, h₂.gotBody.trans h₁.gotBody,
    h₂.body.trans h₁.body, h₂.bodyAlloc.trans h₁.bodyAlloc, h₂.chunkStart.trans h₁.chunkStart,
    h₂.inTrailer.trans h₁.inTrailer, h₂.trailerState.trans h₁.trailerState,
    fun h => h₂.inChunkData (h₁.inChunkData h), fun h => h₂.content (h₁.content h)⟩

theorem hdrOptionAnalyze_analyzed {hbp : Bytes} (hsome : hdrOptionAnalyze abi h hbp = some h') :
    Analyzed h h' := by
  unfold hdrOptionAnalyze at hsome
  dsimp only at hsome
  split_ifs at hsome
  · rw [Option.some.injEq] at hsome
    rw [← hsome]
    exact ⟨rfl, rfl, rfl, rfl, rfl, rfl, rfl, rfl, id, fun _ => int32_bounds _⟩
  · rw [Option.some.injEq] at hsome
    rw [← hsome]
    exact ⟨rfl, rfl, rfl, rfl, rfl, rfl, rfl, rfl, fun _ => rfl, id⟩
  · rw [Option.some.injEq] at hsome
    rw [← hsome]
    exact Analyzed.refl h
  · rw [Option.some.injEq] at hsome
    rw [← hsome]
    exact Analyzed.refl h

theorem optionsAnalyze_analyzed {fuel : ℕ} {hbp : Bytes}
    (hsome : optionsAnalyze abi fuel h hbp = some h') : Analyzed h h' := by
  induction fuel generalizing h hbp with
  | zero => cases hsome
  | succ fuel ih =>
    rw [optionsAnalyze] at hsome
    split_ifs at hsome
    · rw [Option.some.injEq] at hsome
      rw [hsome]
      exact Analyzed.refl h'
    · split at hsome
      · cases hsome
      · rename_i h₁ hoption
        exact (hdrOptionAnalyze_analyzed hoption).trans (ih hsome)

theorem firstLineAnalyze_analyzed {hbp : Bytes}
    (hsome : firstLineAnalyze abi mem h = some (h', hbp)) :
    Analyzed h h' ∧ h'.maxBytes = h.maxBytes := by
  unfold firstLineAnalyze at hsome
  dsimp only at hsome
  split_ifs at hsome
  all_goals
    rw [Option.some.injEq, Prod.mk.injEq] at hsome
    rw [← hsome.1]
    exact ⟨⟨rfl, rfl, rfl, rfl, rfl, rfl, rfl, rfl, id, id⟩, rfl⟩

theorem bodyAllowed_analyzed (h : Httpread) :
    Analyzed h (bodyAllowed h) ∧
      ((bodyAllowed h).chunked = true → (bodyAllowed h).gotContentLength = false) := by
  have hplain : h.chunked = true → (h.gotContentLength && !h.chunked) = false := by
    intro hc
    rw [hc, Bool.not_true, Bool.and_false]
  unfold bodyAllowed
  dsimp only
  split
  · exact ⟨⟨rfl, rfl, rfl, rfl, rfl, rfl, rfl, rfl, id, id⟩, hplain⟩
  · exact ⟨⟨rfl, rfl, rfl, rfl, rfl, rfl, rfl, rfl, id, id⟩, hplain⟩

theorem hdrAnalyze_analyzed (hsome : hdrAnalyze abi mem h = some h') :
    Analyzed h h' ∧ (h'.chunked = true → h'.gotContentLength = false) := by
  unfold hdrAnalyze at hsome
  split at hsome
  · cases hsome
  · rename_i h₁ hbp hfirst
    obtain ⟨h₂, hoptions, rfl⟩ := Option.map_eq_some_iff.mp hsome
    obtain ⟨hbody, hplain⟩ := bodyAllowed_analyzed h₂
    exact ⟨((firstLineAnalyze_analyzed hfirst).1.trans (optionsAnalyze_analyzed hoptions)).trans
      hbody, hplain⟩

theorem readHeader_eq (data : Bytes) (hlen : h.hdr.length ≤ headerMaxSize) :
    ∃ hdr, hdr.length ≤ headerMaxSize ∧
      ((readHeader h data = ({ h with hdr }, .more)) ∨ (readHeader h data = ({ h with hdr }, .full)) ∨
        ∃ rest, rest.length < data.length ∧
          readHeader h data = ({ h with hdr, gotHdr := true }, .complete rest)) := by
  induction data generalizing h with
  | nil => exact ⟨h.hdr, hlen, Or.inl rfl⟩
  | cons b data ih =>
    rw [readHeader]
    by_cases hfull : h.hdr.length = headerMaxSize
    · rw [if_pos hfull]
      exact ⟨h.hdr, hlen, Or.inr (Or.inl rfl)⟩
    · rw [if_neg hfull]
      have hnext : (h.hdr ++ [b]).length ≤ headerMaxSize := by
        rw [List.length_append, List.length_singleton]
        omega
      dsimp only
      split
      · exact ⟨_, hnext, Or.inr (Or.inr ⟨data, Nat.lt_succ_self _, rfl⟩)⟩
      · obtain ⟨hdr, hle, hmore | hfull' | ⟨rest, hrest, hcomplete⟩⟩ :=
          ih (h := { h with hdr := h.hdr ++ [b] }) hnext
        · exact ⟨hdr, hle, Or.inl hmore⟩
        · exact ⟨hdr, hle, Or.inr (Or.inl hfull')⟩
        · exact ⟨hdr, hle, Or.inr (Or.inr ⟨rest, hrest.trans (Nat.lt_succ_self _), hcomplete⟩)⟩

/-- The length of the body, and the NUL behind it, fit an `int`. -/
def Short (h : Httpread) : Prop := (h.body.length : ℤ) < 2 ^ 31 - 1

theorem Steady.short (hst : Steady h) : Short h := by
  unfold Short
  rcases hst.sized with ⟨-, hbody⟩ | ⟨hin, hlt, -⟩
  · rw [hbody]
    decide
  · omega

theorem Room.short (hroom : Room h n) : Short h := by
  have hin := hroom.inside
  have hlt := hroom.alloc
  unfold Short
  omega

/-- How a call gets to the copy loop, or to its end: in bounds, from a reader `h₀`. -/
def EntryOk (h₀ : Httpread) : Entry → Prop
  | .done h o => h.hdr.length ≤ headerMaxSize ∧ Short h ∧ (∀ f, o ≠ .fault f) ∧
      (o = .getMore → Steady h) ∧ (Fitted h₀ → Fitted h)
  | .copy h rest => h.hdr.length ≤ headerMaxSize ∧ h.gotHdr = true ∧ -2 ^ 31 ≤ h.contentLength ∧
      Room h rest.length ∧
      (Fixed h ∨ Grown h ∨ (h.gotContentLength = true ∧ h.contentLength < 0)) ∧
      (Fitted h₀ → Fitted h)

theorem finishFile_ok (hin : h.bodyAlloc = 0 ∨ (h.body.length : ℤ) < h.bodyAlloc) :
    finishFile h = ({ h with gotFile := true }, .gotFile) := by
  rw [finishFile, if_neg]
  rintro ⟨hne, hle⟩
  omega

theorem Steady.inside (hst : Steady h) : h.bodyAlloc = 0 ∨ (h.body.length : ℤ) < h.bodyAlloc :=
  hst.sized.imp And.left And.left

theorem finish_entryOk {h₀ : Httpread} (hlen : h.hdr.length ≤ headerMaxSize) (hshort : Short h)
    (hin : h.bodyAlloc = 0 ∨ (h.body.length : ℤ) < h.bodyAlloc) (hfit : Fitted h₀ → Fitted h) :
    EntryOk h₀ (.ofPair (finishFile h)) := by
  rw [finishFile_ok hin]
  exact ⟨hlen, hshort, nofun, nofun,
    fun hf => ⟨(hfit hf).size, (hfit hf).chunk, (hfit hf).body⟩⟩

theorem afterBody_ok (hst : Steady h) (hgot : h.gotHdr = true) (rest : Bytes) :
    (afterBody h rest).1.hdr.length ≤ headerMaxSize ∧ Short (afterBody h rest).1 ∧
      (∀ f, (afterBody h rest).2 ≠ .fault f) ∧
      ((afterBody h rest).2 = .getMore → Steady (afterBody h rest).1) ∧
      (Fitted h → Fitted (afterBody h rest).1) := by
  unfold afterBody
  split
  · obtain ⟨t, i, g, heq⟩ := readTrailer_eq h rest
    have hst' : Steady (readTrailer h rest).1 := by
      rw [heq]
      exact ⟨hst.hdr, hst.start, hst.content, hst.plain, hst.sized,
        fun hno => absurd (hgot.symm.trans hno) nofun⟩
    have hfit : Fitted h → Fitted (readTrailer h rest).1 := by
      rw [heq]
      exact fun hf => ⟨hf.size, hf.chunk, hf.body⟩
    rcases hres : readTrailer h rest with ⟨h', _ | _⟩
    · rw [hres] at hst' hfit
      exact ⟨hst'.hdr, hst'.short, nofun, fun _ => hst', hfit⟩
    · rw [hres] at hst' hfit
      dsimp only
      rw [finishFile_ok hst'.inside]
      exact ⟨hst'.hdr, hst'.short, nofun, nofun,
        fun hf => ⟨(hfit hf).size, (hfit hf).chunk, (hfit hf).body⟩⟩
  · exact ⟨hst.hdr, hst.short, nofun, fun _ => hst, id⟩

theorem enterBody_ok {h₀ : Httpread} (hst : Steady h) (hgot : h.gotHdr = true)
    (hread : rest.length ≤ readbufSize) (hfit : Fitted h₀ → Fitted h) :
    EntryOk h₀ (enterBody mem h rest) := by
  unfold enterBody
  split
  · exact finish_entryOk hst.hdr hst.short hst.inside
      fun hf => ⟨(hfit hf).size, (hfit hf).chunk, (hfit hf).body⟩
  · split
    · exact ⟨hst.hdr, hst.short, nofun, fun _ => hst, hfit⟩
    · rename_i hrest
      split
      · split
        · exact ⟨hst.hdr, hst.short, nofun, nofun, hfit⟩
        · rename_i h' hsome
          obtain ⟨hroom, ⟨size, rfl⟩, hkind⟩ :=
            ensureRoom_some hst (List.length_pos_iff.mpr hrest) hread hsome
          exact ⟨hst.hdr, hgot, hst.content.1, hroom, hkind,
            fun hf => ⟨(hfit hf).size, (hfit hf).chunk, (hfit hf).body⟩⟩
      · obtain ⟨hlen, hshort, hfault, hmore, hkeep⟩ := afterBody_ok hst hgot rest
        exact ⟨hlen, hshort, hfault, hmore, fun hf => hkeep (hfit hf)⟩

theorem enter_ok (abi : DataModel) (mem : ℕ → Bool) {read : Option Bytes} (hst : Steady h)
    (hread : ∀ data, read = some data → data.length ≤ readbufSize) :
    EntryOk h (enter abi mem h read) := by
  unfold enter
  split
  · exact ⟨hst.hdr, hst.short, nofun, nofun, id⟩
  · split
    · exact ⟨hst.hdr, hst.short, nofun, nofun, id⟩
    · split
      · exact ⟨hst.hdr, hst.short, nofun, nofun, id⟩
      · exact finish_entryOk hst.hdr hst.short hst.inside fun hf => ⟨hf.size, hf.chunk, hf.body⟩
  · rename_i data _
    have hdata := hread data rfl
    cases hgot : h.gotHdr with
    | true =>
      rw [if_pos rfl]
      exact enterBody_ok hst hgot hdata id
    | false =>
      -- before the header is complete there is nothing but the header
      have hfresh := hst.fresh hgot
      have hempty : Fitted h → ∀ h' : Httpread, h'.body = [] → h'.inChunkData = false →
          Fitted h' := fun _ h' hbody hd =>
        ⟨fun _ hd' => absurd (hd.symm.trans hd') nofun,
          fun _ hd' => absurd (hd.symm.trans hd') nofun, Or.inl hbody⟩
      have hbody : h.body = [] := by rw [hfresh]; rfl
      have halloc : h.bodyAlloc = 0 := by rw [hfresh]; rfl
      have hchunk : h.inChunkData = false := by rw [hfresh]; rfl
      have hstart : h.chunkStart = 0 := by rw [hfresh]; rfl
      have hshort : ∀ h' : Httpread, h'.body = [] → Short h' := fun h' hnil => by
        unfold Short
        rw [hnil]
        decide
      simp only [Bool.false_eq_true, if_false]
      obtain ⟨hdr, hle, hmore | hfull | ⟨rest, hrest, hcomplete⟩⟩ :=
        readHeader_eq data hst.hdr
      · rw [hmore]
        refine ⟨hle, hshort _ hbody, nofun, fun _ => ⟨hle, hst.start, hst.content, hst.plain, hst.sized, fun _ => ?_⟩,
          fun hf => hempty hf _ hbody hchunk⟩
        rw [hfresh]
        rfl
      · rw [hfull]
        exact ⟨hle, hshort _ hbody, nofun, nofun, fun hf => hempty hf _ hbody hchunk⟩
      · rw [hcomplete]
        dsimp only
        split
        · exact ⟨hle, hshort _ hbody, nofun, nofun, fun hf => hempty hf _ hbody hchunk⟩
        · rename_i h' hsome
          obtain ⟨han, hplain⟩ := hdrAnalyze_analyzed hsome
          have hbody' : h'.body = [] := han.body.trans hbody
          have halloc' : h'.bodyAlloc = 0 := han.bodyAlloc.trans halloc
          have hlen' : h'.hdr.length ≤ headerMaxSize := han.hdr ▸ hle
          have hfit : Fitted h → Fitted h' := fun hf =>
            hempty hf h' hbody' (han.inChunkData hchunk)
          have hst' : Steady h' :=
            ⟨hlen', by rw [han.chunkStart, hbody']; exact hstart.le, han.content hst.content, hplain,
              Or.inl ⟨halloc', hbody'⟩, fun hno => absurd (han.gotHdr.symm.trans hno) nofun⟩
          split
          · exact finish_entryOk hlen' (hshort _ hbody') (Or.inl halloc') hfit
          · split
            · exact finish_entryOk hlen' (hshort _ hbody') (Or.inl halloc') hfit
            · exact enterBody_ok hst' han.gotHdr (by omega) hfit

theorem copyBody_ok (abi : DataModel) (hok : EntryOk h' (.copy h rest)) :
    let res := copyBody abi h rest
    res.1.hdr.length ≤ headerMaxSize ∧ Short res.1 ∧ res.2 ≠ .fault .overrun ∧
      res.2 ≠ .fault .stuck ∧
      (res.2 = .getMore → Steady res.1) ∧
      (Fitted h → CopiesFit abi (2 * rest.length + 2) h rest →
        Fitted res.1 ∧ ∀ f, res.2 ≠ .fault f) := by
  obtain ⟨hlen, hgot, hlow, hroom, hkind, -⟩ := hok
  obtain ⟨hkept, hroom', hover, hstuck, hpassed⟩ := bodyLoop_room abi hroom
  have hfits := bodyLoop_fits abi hroom
  have hlen' : (bodyLoop abi (2 * rest.length + 2) h rest).1.hdr.length ≤ headerMaxSize := by
    rwa [hkept.hdr]
  unfold copyBody
  rcases hres : bodyLoop abi (2 * rest.length + 2) h rest with ⟨h₁, e⟩
  simp only [hres] at hkept hroom' hover hstuck hpassed hfits hlen'
  cases e with
  | stop rest' =>
    have hpass := hpassed rest' rfl
    have hst : Steady h₁ := by
      refine ⟨hlen', hroom'.start, ⟨by rw [hkept.contentLength]; exact hlow, hroom'.content⟩,
        hroom'.plain, Or.inr ⟨hroom'.inside, hroom'.alloc, fun hcl => ?_, ?_⟩,
        fun hno => absurd ((hkept.gotHdr.trans hgot).symm.trans hno) nofun⟩
      · exact (hpass (plain_of_content hroom' hcl) hcl).le
      · unfold Fixed Grown at hkind ⊢
        rw [hkept.gotContentLength, hkept.contentLength, hkept.bodyAlloc]
        rcases hkind with hfixed | hgrown | ⟨hcl, hneg⟩
        · exact Or.inl hfixed
        · exact Or.inr hgrown
        · -- a negative length would have ended the loop
          have hcl' := hkept.gotContentLength.trans hcl
          have hmore := hpass (plain_of_content hroom' hcl') hcl'
          rw [hkept.contentLength] at hmore
          omega
    obtain ⟨hle, hshort, hfault, hmore, hkeep⟩ := afterBody_ok hst (hkept.gotHdr.trans hgot) rest'
    exact ⟨hle, hshort, hfault _, hfault _, hmore,
      fun hf hcopies => ⟨hkeep (hfits hf hcopies).1, hfault⟩⟩
  | file =>
    dsimp only
    rw [finishFile_ok (Or.inr hroom'.inside)]
    refine ⟨hlen', hroom'.short, nofun, nofun, nofun, fun hf hcopies => ⟨?_, nofun⟩⟩
    have hf₁ := (hfits hf hcopies).1
    exact ⟨hf₁.size, hf₁.chunk, hf₁.body⟩
  | bad =>
    exact ⟨hlen', hroom'.short, nofun, nofun, nofun,
      fun hf hcopies => ⟨(hfits hf hcopies).1, nofun⟩⟩
  | fault f =>
    refine ⟨hlen', hroom'.short, fun heq => hover (congrArg _ ?_), fun heq => hstuck (congrArg _ ?_), nofun,
      fun hf hcopies => absurd rfl ((hfits hf hcopies).2 f)⟩
    · exact Outcome.fault.inj heq
    · exact Outcome.fault.inj heq

/-! ## Runs -/

structure SessionOk (s : Session) : Prop where
  hdr : s.h.hdr.length ≤ headerMaxSize
  short : Short s.h
  overrun : s.last ≠ .fault .overrun
  stuck : s.last ≠ .fault .stuck
  steady : s.last = .getMore → Steady s.h

structure SessionFits (s : Session) : Prop where
  fault : ∀ f, s.last ≠ .fault f
  fitted : Fitted s.h

/-- The copies of a call fit, if it gets to the copy loop. -/
def ReadFits (abi : DataModel) (mem : ℕ → Bool) (s : Session) (read : Option Bytes) : Prop :=
  s.last = .getMore → ∀ h rest, enter abi mem s.h read = .copy h rest →
    CopiesFit abi (2 * rest.length + 2) h rest

/-- A `read` gives no more than its buffer holds. -/
def Delivers (read : Option Bytes) : Prop := ∀ data, read = some data → data.length ≤ readbufSize

theorem session_init (maxBytes : ℤ) :
    SessionOk (Session.init maxBytes) ∧ SessionFits (Session.init maxBytes) :=
  ⟨⟨Nat.zero_le _, (by decide : ((0 : ℕ) : ℤ) < 2 ^ 31 - 1), nofun, nofun, fun _ => ⟨Nat.zero_le _, le_refl _,
    (by decide : (-2 ^ 31 : ℤ) ≤ 0 ∧ (0 : ℤ) < 2 ^ 31), nofun,
    Or.inl ⟨rfl, rfl⟩, fun _ => rfl⟩⟩, ⟨nofun, nofun, nofun, Or.inl rfl⟩⟩

theorem session_read (abi : DataModel) (mem : ℕ → Bool) {s : Session} {read : Option Bytes}
    (hok : SessionOk s)
    (hread : Delivers read) :
    SessionOk (s.read abi mem read) ∧
      (SessionFits s → ReadFits abi mem s read → SessionFits (s.read abi mem read)) := by
  unfold Session.read
  by_cases hlast : s.last = .getMore
  · rw [if_neg (not_not.mpr hlast)]
    have hentry := enter_ok abi mem (hok.steady hlast) hread
    unfold readHandler
    cases hcase : enter abi mem s.h read with
    | done h o =>
      rw [hcase] at hentry
      obtain ⟨hlen, hshort, hfault, hmore, hfit⟩ := hentry
      exact ⟨⟨hlen, hshort, hfault _, hfault _, hmore⟩, fun hs _ => ⟨hfault, hfit hs.fitted⟩⟩
    | copy h rest =>
      rw [hcase] at hentry
      obtain ⟨hlen, hshort, hover, hstuck, hmore, hfits⟩ := copyBody_ok abi hentry
      refine ⟨⟨hlen, hshort, hover, hstuck, hmore⟩, fun hs hcopies => ?_⟩
      obtain ⟨hfitted, hfault⟩ := hfits (hentry.2.2.2.2.2 hs.fitted) (hcopies hlast h rest hcase)
      exact ⟨hfault, hfitted⟩
  · rw [if_pos hlast]
    exact ⟨hok, fun hs _ => hs⟩

theorem session_run (abi : DataModel) (mem : ℕ → Bool) {s : Session} (hok : SessionOk s)
    {reads : List (Option Bytes)}
    (hreads : ∀ read ∈ reads, Delivers read) :
    SessionOk (run (Session.read abi mem) s reads) ∧
      (SessionFits s → Along (Session.read abi mem) (ReadFits abi mem) s reads →
        SessionFits (run (Session.read abi mem) s reads)) := by
  induction reads generalizing s with
  | nil => exact ⟨hok, fun hs _ => hs⟩
  | cons read reads ih =>
    obtain ⟨hok', hfits⟩ := session_read abi mem hok
      (hreads read List.mem_cons_self)
    obtain ⟨hrun, hrunfits⟩ := ih hok' fun r hr => hreads r (List.mem_cons_of_mem read hr)
    exact ⟨hrun, fun hs hall => hrunfits (hfits hs hall.1) hall.2⟩

/-- **The bounds of the HTTP reader**: whatever is read, the header and the body stay inside their
buffers and every call comes back. Where the sizes of chunks fit an `int` and what is copied stays
below `max_bytes`, nothing is copied that is of a negative length, and the body does not exceed
`max_bytes`. -/
theorem httpread_bounds (abi : DataModel) (mem : ℕ → Bool) (maxBytes : ℤ)
    {reads : List (Option Bytes)} (hreads : ∀ read ∈ reads, Delivers read) :
    let s := run (Session.read abi mem) (Session.init maxBytes) reads
    (s.h.hdr.length ≤ headerMaxSize ∧ s.last ≠ .fault .overrun ∧ s.last ≠ .fault .stuck) ∧
      (Along (Session.read abi mem) (ReadFits abi mem) (Session.init maxBytes) reads →
        (∀ f, s.last ≠ .fault f) ∧ (s.h.body = [] ∨ (s.h.body.length : ℤ) ≤ s.h.maxBytes)) := by
  obtain ⟨hok, hfits⟩ := session_init maxBytes
  obtain ⟨hrun, hrunfits⟩ := session_run abi mem hok hreads
  refine ⟨⟨hrun.hdr, hrun.overrun, hrun.stuck⟩, fun hall => ?_⟩
  have hs := hrunfits hfits hall
  exact ⟨hs.fault, hs.fitted.body⟩

def chunkedPost : Bytes :=
  ascii "POST / HTTP/1.1\r\nTransfer-Encoding: chunked\r\n\r\n2\r\nok\r\n0\r\n\r\n"

theorem httpread_bounds_chunkedPost :
    (∀ read ∈ [some chunkedPost], Delivers read) ∧
      (run (Session.read .lp64 fun _ => true) (Session.init 100) [some chunkedPost]).h.hdr.length ≤
        headerMaxSize := by
  have hreads : ∀ read ∈ [some chunkedPost], Delivers read := by
    intro read hread data hdata
    rw [List.mem_singleton.mp hread, Option.some.injEq] at hdata
    rw [← hdata]
    decide
  exact ⟨hreads, (httpread_bounds .lp64 (fun _ => true) 100 hreads).1.1⟩

/-- A chunk of a size that is no `int` is copied with a negative length, and a content beyond
`max_bytes` is delivered. -/
theorem httpread_out_of_bounds :
    (run (Session.read .lp64 fun _ => true) (Session.init 100)
        [some (ascii "POST / HTTP/1.1\r\nTransfer-Encoding: chunked\r\n\r\nFFFFFFF0\r\nx")]).last =
          .fault .negativeCopy ∧
      (let s := run (Session.read .lp64 fun _ => true) (Session.init 3)
        [some (ascii "POST / HTTP/1.1\r\nContent-Length: 5\r\n\r\nhello")]
      s.events = [.fileReady] ∧ s.h.maxBytes = 3 ∧ s.h.body.length = 5) := by
  decide +kernel

end Hostapd.Wps.Http
