import Hostapd.Wps.Common

/-!
# The round trip of the Encrypted Settings

`wps_build_key_wrap_auth` and `wps_build_encr_settings` of `wps_attr_build.c` put attributes into an
encrypted attribute; `wps_decrypt_encr_settings` of `wps_common.c`, `wps_parse_msg` and
`wps_process_key_wrap_auth` of `wps_attr_process.c` take them out.

* **`Attribute`**: an attribute with a number and a length of 16 bits; `keepAttrs` is what
  `wps_set_attr` makes of a list of them.
* **`parseMsg_encodeAttrs`**: the parser finds the attributes that were written.
* **`decryptSettings`**, **`checkKeyWrapAuth`**: decryption and check with every read compared with
  the buffer (`decryptSettings_eq`, `checkKeyWrapAuth_eq`).
* **`encr_settings_round_trip`**: what was built is accepted and is what it was; and whatever is
  decrypted, the reads stay inside.
-/

namespace Hostapd.Wps

open Hostapd.Lib

/-! ## Lists of attributes -/

structure Attribute where
  code : ℕ
  val : Bytes
  code_lt : code < 2 ^ 16
  length_lt : val.length < 2 ^ 16

def Attribute.encode (a : Attribute) : Bytes := putBe16 a.code ++ putBe16 a.val.length ++ a.val

def encodeAttrs (l : List Attribute) : Bytes := l.flatMap Attribute.encode

@[simp] theorem encodeAttrs_nil : encodeAttrs [] = [] := rfl

@[simp] theorem encodeAttrs_cons (a : Attribute) (l : List Attribute) :
    encodeAttrs (a :: l) = a.encode ++ encodeAttrs l := rfl

@[simp] theorem encodeAttrs_append (l l' : List Attribute) :
    encodeAttrs (l ++ l') = encodeAttrs l ++ encodeAttrs l' := by simp [encodeAttrs]

@[simp] theorem Attribute.length_encode (a : Attribute) : a.encode.length = a.val.length + 4 := by
  simp only [encode, List.length_append, length_putBe16]
  omega

/-- What `wps_set_attr` keeps of attributes that begin at an offset. -/
def keepAttrs : ParseAttr → ℕ → List Attribute → Option ParseAttr
  | attr, _, [] => some attr
  | attr, pos, a :: l =>
    (setAttr attr a.code (pos + 4) a.val).bind fun attr => keepAttrs attr (pos + a.encode.length) l

theorem keepAttrs_append (l l' : List Attribute) (attr : ParseAttr) (pos : ℕ) :
    keepAttrs attr pos (l ++ l') = (keepAttrs attr pos l).bind fun attr =>
      keepAttrs attr (pos + (encodeAttrs l).length) l' := by
  induction l generalizing attr pos with
  | nil => rfl
  | cons a l ih =>
    simp only [List.cons_append, keepAttrs, ih, encodeAttrs_cons, List.length_append,
      Option.bind_assoc, Nat.add_assoc]

theorem Attribute.read_encode (a : Attribute) (rest : Bytes) :
    be16 (a.encode ++ rest) = a.code ∧ be16 ((a.encode ++ rest).drop 2) = a.val.length ∧
      (a.encode ++ rest).drop 4 = a.val ++ rest := by
  refine ⟨?_, ?_, ?_⟩
  · rw [encode, List.append_assoc, List.append_assoc, be16_putBe16 a.code_lt]
  · rw [encode, List.append_assoc, List.append_assoc, List.drop_left' (length_putBe16 _),
      be16_putBe16 a.length_lt]
  · rw [encode, List.append_assoc, List.drop_left' (by simp)]

theorem parseLoop_encode (a : Attribute) {rest : Bytes} (hpad : a.code = 0 → ¬ rest.all (· = 0))
    (fuel : ℕ) (attr : ParseAttr) (prevType pos : ℕ) :
    parseLoop (fuel + 1) attr prevType pos (a.encode ++ rest) =
      (setAttr attr a.code (pos + 4) a.val).bind fun attr =>
        parseLoop fuel attr a.code (pos + 4 + a.val.length) rest := by
  obtain ⟨htype, hlen, hval⟩ := a.read_encode rest
  have hne : a.encode ++ rest ≠ [] := by
    refine List.ne_nil_of_length_pos ?_
    rw [List.length_append, a.length_encode]
    omega
  have hfour : ¬ (a.encode ++ rest).length < 4 := by
    rw [List.length_append, a.length_encode]
    omega
  have hfits : ¬ (a.val ++ rest).length < a.val.length := by
    rw [List.length_append]
    omega
  have hnot : ¬ (a.code = 0 ∧ a.val.length = 0 ∧ (a.val ++ rest).all (· = 0)) := by
    rintro ⟨hcode, hnil, hall⟩
    rw [List.length_eq_zero_iff.mp hnil, List.nil_append] at hall
    exact hpad hcode hall
  rw [parseLoop, if_neg hne, if_neg hfour]
  simp only [htype, hlen, hval, if_neg hfits, if_neg hnot, List.take_left, List.drop_left]
  cases setAttr attr a.code (pos + 4) a.val <;> rfl

theorem putBe16_not_zero {n : ℕ} (hn : n < 2 ^ 16) (hne : n ≠ 0) : ¬ (putBe16 n).all (· = 0) := by
  intro hall
  have hread := be16_putBe16 hn []
  simp only [putBe16, List.all_cons, List.all_nil, Bool.and_true, Bool.and_eq_true,
    decide_eq_true_eq] at hall
  rw [putBe16, hall.1, hall.2] at hread
  exact hne hread.symm

theorem encodeAttrs_not_zero {l : List Attribute} {a : Attribute} (ha : a ∈ l) (hne : a.code ≠ 0) :
    ¬ (encodeAttrs l).all (· = 0) := by
  intro hall
  refine putBe16_not_zero a.code_lt hne (List.all_eq_true.mpr fun b hb => ?_)
  have hmem : b ∈ encodeAttrs l := by
    refine List.mem_flatMap.mpr ⟨a, ha, ?_⟩
    rw [Attribute.encode, List.append_assoc]
    exact List.mem_append_left _ hb
  exact List.all_eq_true.mp hall b hmem

theorem parseLoop_encodeAttrs {last : Attribute} (hlast : last.code ≠ 0) (l : List Attribute)
    {fuel : ℕ} (attr : ParseAttr) (prevType pos : ℕ)
    (hfuel : (encodeAttrs (l ++ [last])).length ≤ fuel) :
    parseLoop fuel attr prevType pos (encodeAttrs (l ++ [last])) =
      keepAttrs attr pos (l ++ [last]) := by
  have hnil (fuel : ℕ) (attr : ParseAttr) (prevType pos : ℕ) :
      parseLoop fuel attr prevType pos [] = some attr := by cases fuel <;> rfl
  induction l generalizing fuel attr prevType pos with
  | nil =>
    simp only [List.nil_append, encodeAttrs_cons, encodeAttrs_nil, List.length_append,
      last.length_encode] at hfuel ⊢
    have hpos : fuel ≠ 0 := by omega
    obtain ⟨fuel, rfl⟩ := Nat.exists_eq_add_one_of_ne_zero hpos
    rw [parseLoop_encode last (fun h => absurd h hlast), keepAttrs]
    simp only [hnil, keepAttrs]
  | cons a l ih =>
    simp only [List.cons_append, encodeAttrs_cons, List.length_append, a.length_encode] at hfuel ⊢
    have hpos : fuel ≠ 0 := by omega
    obtain ⟨fuel, rfl⟩ := Nat.exists_eq_add_one_of_ne_zero hpos
    have hrest : ¬ (encodeAttrs (l ++ [last])).all (· = 0) :=
      encodeAttrs_not_zero (List.mem_append_right l List.mem_cons_self) hlast
    rw [parseLoop_encode a fun _ => hrest, keepAttrs]
    congr 1
    funext attr
    rw [ih _ _ _ (by omega), a.length_encode]
    congr 1
    omega

theorem parseMsg_encodeAttrs {last : Attribute} (hlast : last.code ≠ 0) (l : List Attribute) :
    parseMsg (encodeAttrs (l ++ [last])) = keepAttrs .empty 0 (l ++ [last]) :=
  parseLoop_encodeAttrs hlast l .empty 0 0 (Nat.le_refl _)

/-! ## Reading with bounds -/

/-- The octet at a place that a pointer has reached, which may have run past the front. -/
def rdAt (d : Bytes) (pos : ℤ) : Except Stop UInt8 :=
  if pos < 0 then .error .outside else rd8 d pos.toNat

/-- The loop over the padding, `pos` downwards. -/
def padLoop (decrypted : Bytes) (pad : UInt8) : ℕ → ℤ → Except Stop Bool
  | 0, _ => .ok true
  | i + 1, pos => do
    let b ← rdAt decrypted pos
    if b ≠ pad then return false
    padLoop decrypted pad i (pos - 1)

/-- `wps_decrypt_encr_settings`, with every read compared with the buffer it is from. -/
def decryptSettings (cr : Crypto) (d : Draws) (w : WpsData) (encr : Option Bytes) :
    Except Stop (Option Bytes) :=
  match encr with
  | none => .ok none
  | some encr =>
    if encr.length < 32 ∨ encr.length % 16 ≠ 0 then .ok none
    else if ¬ d.mem .decrypted then .ok none
    else do
      let iv ← rdSlice encr 0 16
      let data ← rdSlice encr 16 encr.length
      match cr.aes128CbcDecrypt w.keywrapkey iv data with
      | none => return none
      | some decrypted =>
        let pos : ℤ := decrypted.length - 1
        let pad ← rdAt decrypted pos
        if decrypted.length < pad.toNat then return none
        let padded ← padLoop decrypted pad pad.toNat pos
        if padded then return some (decrypted.take (decrypted.length - pad.toNat))
        return none

/-- `wps_process_key_wrap_auth`, with every read compared with the decrypted settings. -/
def checkKeyWrapAuth (cr : Crypto) (msg : Bytes) (keyWrapAuth : Option Field) (w : WpsData) :
    Except Stop Bool :=
  match keyWrapAuth with
  | none => .ok false
  | some kwa => do
    let len : ℤ := msg.length - 4 - kwaLen
    if len ≠ (kwa.pos : ℤ) - 4 then return false
    if len < 0 then .error .outside
    else do
      let head ← rdSlice msg 0 len.toNat
      let val ← rdSlice msg kwa.pos (kwa.pos + kwaLen)
      return (cr.hmacSha256 w.authkey head).take kwaLen = val

theorem padLoop_eq {decrypted : Bytes} (pad : UInt8) {i n : ℕ} (hi : i ≤ n)
    (hn : n ≤ decrypted.length) :
    padLoop decrypted pad i ((n : ℤ) - 1) =
      .ok (((decrypted.take n).drop (n - i)).all (· = pad)) := by
  induction i generalizing n with
  | zero => simp [padLoop]
  | succ i ih =>
    obtain ⟨n, rfl⟩ := Nat.exists_eq_add_one_of_ne_zero (Nat.ne_of_gt (Nat.lt_of_lt_of_le
      (Nat.succ_pos i) hi))
    have hpos : ((n + 1 : ℕ) : ℤ) - 1 = n := by omega
    have hread : rdAt decrypted n = .ok decrypted[n] := by
      rw [rdAt, if_neg (by omega), Int.toNat_natCast, rd8_of hn]
    have hsplit : (decrypted.take (n + 1)).drop (n + 1 - (i + 1)) =
        (decrypted.take n).drop (n - i) ++ [decrypted[n]] := by
      have hle : n - i ≤ (decrypted.take n).length := by
        rw [List.length_take]
        omega
      rw [List.take_add_one, List.getElem?_eq_getElem hn, Nat.add_sub_add_right,
        List.drop_append_of_le_length hle]
      rfl
    rw [padLoop, hpos, hread, ok_bind, hsplit, List.all_append]
    by_cases hb : decrypted[n] = pad
    · rw [if_neg (not_not.mpr hb), ih (by omega) (by omega)]
      simp [hb]
    · rw [if_pos hb]
      simp [hb, pure, Except.pure]

section Decryption

variable {cr : Crypto} (hlength : ∀ key iv data decrypted,
  cr.aes128CbcDecrypt key iv data = some decrypted → decrypted.length = data.length)

include hlength

theorem decryptSettings_eq (d : Draws) (w : WpsData) (encr : Option Bytes) :
    decryptSettings cr d w encr = .ok (decryptEncrSettings cr d w encr) := by
  cases encr with
  | none => rfl
  | some encr =>
    rw [decryptSettings, decryptEncrSettings]
    by_cases hshort : encr.length < 32 ∨ encr.length % 16 ≠ 0
    · rw [if_pos hshort, if_pos hshort]
    · by_cases hmem : d.mem .decrypted
      · have hlong : 32 ≤ encr.length := Nat.le_of_not_lt (not_or.mp hshort).1
        have hiv : rdSlice encr 0 16 = .ok (encr.take 16) := rdSlice_of (by omega) (by omega)
        have hdata : rdSlice encr 16 encr.length = .ok (encr.drop 16) := by
          rw [rdSlice_of (by omega) (Nat.le_refl _), List.take_length]
        rw [if_neg hshort, if_neg hshort, if_neg (not_not.mpr hmem), if_neg (not_not.mpr hmem),
          hiv, ok_bind, hdata, ok_bind]
        cases hdecrypt : cr.aes128CbcDecrypt w.keywrapkey (encr.take 16) (encr.drop 16) with
        | none => rfl
        | some decrypted =>
          have hpos : 0 < decrypted.length := by
            rw [hlength _ _ _ _ hdecrypt, List.length_drop]
            omega
          have hlast : rdAt decrypted ((decrypted.length : ℤ) - 1) =
              .ok (decrypted.getLastD 0) := by
            have hindex : ((decrypted.length : ℤ) - 1).toNat = decrypted.length - 1 := by omega
            rw [rdAt, if_neg (by omega), hindex, rd8_of (by omega), List.getLastD_eq_getLast?,
              List.getLast?_eq_getElem?, List.getElem?_eq_getElem (by omega)]
            rfl
          simp only [hlast, ok_bind]
          by_cases hpad : decrypted.length < (decrypted.getLastD 0).toNat
          · rw [if_pos hpad, if_pos hpad]
            rfl
          · rw [if_neg hpad, if_neg hpad, padLoop_eq _ (Nat.le_of_not_lt hpad) (Nat.le_refl _),
              List.take_length, ok_bind]
            split <;> rfl
      · rw [if_neg hshort, if_neg hshort, if_pos hmem, if_pos hmem]

end Decryption

/-! ### The Key Wrap Authenticator -/

/-- The attributes that are kept point into the message, at values of the length of their type. -/
def Inside (msg : Bytes) (attr : ParseAttr) : Prop :=
  ∀ type field, (type, field) ∈ attr.fields →
    4 ≤ field.pos ∧ field.pos + field.val.length ≤ msg.length ∧
      (msg.drop field.pos).take field.val.length = field.val ∧
      ∀ len ∈ type.fixedLen, field.val.length = len

variable {attr attr' : ParseAttr} {val : Bytes}

/-- A subelement changes nothing but the subelements, and whether it is taken does not depend on
what was kept before. -/
theorem setVendorExtWfaSubelem_frame {id : UInt8}
    (h : setVendorExtWfaSubelem attr id val = some attr') :
    attr'.fields = attr.fields ∧ attr'.vendorExt = attr.vendorExt := by
  unfold setVendorExtWfaSubelem at h
  split at h
  · split at h
    · cases h
      exact ⟨rfl, rfl⟩
    · cases h
  · split at h <;> cases h <;> exact ⟨rfl, rfl⟩

theorem parseVendorExtWfa_frame {fuel : ℕ} {ext : Bytes}
    (h : parseVendorExtWfa fuel attr ext = some attr') :
    attr'.fields = attr.fields ∧ attr'.vendorExt = attr.vendorExt := by
  induction fuel generalizing attr ext with
  | zero =>
    cases h
    exact ⟨rfl, rfl⟩
  | succ fuel ih =>
    unfold parseVendorExtWfa at h
    split at h
    · split at h
      · cases h
        exact ⟨rfl, rfl⟩
      · split at h
        · cases h
        · next hset =>
          obtain ⟨hfields, hext⟩ := setVendorExtWfaSubelem_frame hset
          obtain ⟨hfields', hext'⟩ := ih h
          exact ⟨hfields'.trans hfields, hext'.trans hext⟩
    · cases h
      exact ⟨rfl, rfl⟩

variable {code pos : ℕ}

/-- What is kept of an attribute: a value of the length of its type, or something else than a
single value. -/
theorem setAttr_fields
    (h : setAttr attr code pos val = some attr') :
    attr'.fields = attr.fields ∨ ∃ type, (∀ len ∈ type.fixedLen, val.length = len) ∧
      attr'.fields = (type, ⟨pos, val⟩) :: attr.fields := by
  unfold setAttr at h
  split at h
  · cases h
    exact .inl rfl
  · next type _ =>
    split at h
    · cases h
    · next hnot =>
      have hfixed : ∀ len ∈ type.fixedLen, val.length = len :=
        fun len hlen => not_not.mp fun hne => hnot ⟨len, hlen, hne⟩
      split at h
      · split at h <;> cases h <;> exact .inl rfl
      · split at h <;> cases h <;> exact .inl rfl
      · split at h
        · cases h
        · cases h
          exact .inr ⟨_, hfixed, rfl⟩
      · unfold parseVendorExt at h
        split at h
        · cases h
          exact .inl rfl
        · split at h
          · exact .inl (parseVendorExtWfa_frame h).1
          · split at h
            · cases h
            · split at h <;> cases h
              exact .inl rfl
      · cases h
        exact .inr ⟨_, hfixed, rfl⟩

variable {msg : Bytes}

theorem Inside.setAttr
    (h : Inside msg attr) (hpos : 4 ≤ pos) (hval : pos + val.length ≤ msg.length)
    (hread : (msg.drop pos).take val.length = val)
    (hset : setAttr attr code pos val = some attr') : Inside msg attr' := by
  intro type field hmem
  rcases setAttr_fields hset with hfields | ⟨type', hfixed, hfields⟩
  · exact h type field (hfields ▸ hmem)
  · rw [hfields] at hmem
    rcases List.mem_cons.mp hmem with heq | hmem
    · cases heq
      exact ⟨hpos, hval, hread, hfixed⟩
    · exact h type field hmem

theorem Inside.parseLoop {fuel prevType pos : ℕ}
    (h : Inside msg attr) (hpos : pos ≤ msg.length)
    (hparse : parseLoop fuel attr prevType pos (msg.drop pos) = some attr') : Inside msg attr' := by
  induction fuel generalizing attr prevType pos with
  | zero =>
    unfold Wps.parseLoop at hparse
    split at hparse <;> cases hparse
    exact h
  | succ fuel ih =>
    unfold Wps.parseLoop at hparse
    split at hparse
    · cases hparse
      exact h
    · split at hparse
      · cases hparse
      · next hfour =>
        rw [List.length_drop] at hfour
        simp only [List.drop_drop] at hparse
        split at hparse
        · split at hparse
          · exact ih h (by omega) hparse
          · cases hparse
        · next hfits =>
          rw [List.length_drop] at hfits
          split at hparse
          · cases hparse
            exact h
          · split at hparse
            · cases hparse
            · next attr'' hset =>
              have hlen : ((msg.drop (pos + 4)).take (be16 (msg.drop (pos + 2)))).length =
                  be16 (msg.drop (pos + 2)) := by
                rw [List.length_take, List.length_drop]
                omega
              refine ih (h.setAttr (by omega) ?_ ?_ hset) (by omega) hparse
              · rw [hlen]
                omega
              · rw [hlen]

theorem inside_of_parseMsg {attr : ParseAttr} (h : parseMsg msg = some attr) :
    Inside msg attr :=
  Inside.parseLoop (fun _ _ hmem => absurd hmem List.not_mem_nil) (Nat.zero_le _)
    (by rwa [List.drop_zero])

theorem checkKeyWrapAuth_eq (cr : Crypto) (w : WpsData) {attr : ParseAttr}
    (h : parseMsg msg = some attr) :
    checkKeyWrapAuth cr msg (attr.field .keyWrapAuth) w =
      .ok (processKeyWrapAuth cr msg (attr.field .keyWrapAuth) w) := by
  cases hfield : attr.field .keyWrapAuth with
  | none => rfl
  | some kwa =>
    have hmem : (AttrType.keyWrapAuth, kwa) ∈ attr.fields := by
      obtain ⟨before, after, heq, -⟩ := List.lookup_eq_some_iff.mp hfield
      rw [heq]
      exact List.mem_append_right _ List.mem_cons_self
    obtain ⟨hfour, hinside, hread, hfixed⟩ := inside_of_parseMsg h .keyWrapAuth kwa hmem
    have hlength : kwa.val.length = kwaLen := hfixed kwaLen rfl
    rw [hlength] at hinside hread
    have hlen : (msg.length : ℤ) - 4 - (kwaLen : ℕ) = ((msg.length - 4 - kwaLen : ℕ) : ℤ) := by
      omega
    have hval : rdSlice msg kwa.pos (kwa.pos + kwaLen) = .ok kwa.val := by
      rw [rdSlice_of (Nat.le_add_right _ _) hinside, ← hread, List.take_drop]
    have hhead : rdSlice msg 0 (msg.length - 4 - kwaLen) =
        .ok (msg.take (msg.length - 4 - kwaLen)) := rdSlice_of (Nat.zero_le _) (by omega)
    rw [checkKeyWrapAuth, processKeyWrapAuth, hlen]
    by_cases hend : msg.length - 4 - kwaLen + 4 = kwa.pos
    · rw [if_neg (by omega), if_neg (by omega), Int.toNat_natCast, hhead, ok_bind, hval, ok_bind,
        if_neg (not_not.mpr hend)]
      rfl
    · rw [if_pos (by omega), if_pos hend]
      rfl

/-! ## Attributes that are taken -/

/-- `wps_set_attr` takes the attribute, on its own. -/
def Attribute.Valid (a : Attribute) : Prop := (setAttr .empty a.code 4 a.val).isSome

/-- A Vendor Extension of another vendor; the parser takes ten of them. -/
def isForeign (code : ℕ) (val : Bytes) : Bool :=
  AttrType.ofCode code = some .vendorExt ∧ 3 ≤ val.length ∧ beNat (val.take 3) ≠ vendorIdWfa

structure ValidAttrs (l : List Attribute) : Prop where
  each : ∀ a ∈ l, a.Valid
  foreign : l.countP (fun a => isForeign a.code a.val) ≤ maxCount

theorem setVendorExtWfaSubelem_isSome (attr attr' : ParseAttr) (id : UInt8) (val : Bytes) :
    (setVendorExtWfaSubelem attr id val).isSome = (setVendorExtWfaSubelem attr' id val).isSome := by
  unfold setVendorExtWfaSubelem
  split
  · split <;> rfl
  · split <;> rfl

theorem parseVendorExtWfa_isSome (fuel : ℕ) (attr attr' : ParseAttr) (ext : Bytes) :
    (parseVendorExtWfa fuel attr ext).isSome = (parseVendorExtWfa fuel attr' ext).isSome := by
  induction fuel generalizing attr attr' ext with
  | zero => rfl
  | succ fuel ih =>
    unfold parseVendorExtWfa
    split
    · next id elen c rest =>
      split
      · rfl
      · have hsame := setVendorExtWfaSubelem_isSome attr attr' id ((c :: rest).take elen.toNat)
        cases hset : setVendorExtWfaSubelem attr id ((c :: rest).take elen.toNat) with
        | none =>
          rw [hset] at hsame
          rw [Option.isSome_eq_false_iff.mp hsame.symm |> Option.isNone_iff_eq_none.mp]
        | some kept =>
          rw [hset] at hsame
          obtain ⟨kept', hset'⟩ := Option.isSome_iff_exists.mp hsame.symm
          rw [hset']
          exact ih kept kept' _
    · rfl

theorem isForeign_iff {code : ℕ} (h : AttrType.ofCode code = some .vendorExt) :
    isForeign code val ↔ ¬ val.length < 3 ∧ beNat (val.take 3) ≠ vendorIdWfa := by
  rw [isForeign, decide_eq_true_iff, Nat.not_lt]
  exact and_iff_right h

theorem parseVendorExt_isSome {code : ℕ} (h : AttrType.ofCode code = some .vendorExt)
    (halone : (parseVendorExt .empty val).isSome) {attr : ParseAttr}
    (hroom : isForeign code val → attr.vendorExt.length < maxCount) :
    (parseVendorExt attr val).isSome := by
  rw [isForeign_iff h] at hroom
  unfold parseVendorExt at halone ⊢
  by_cases hshort : val.length < 3
  · rw [if_pos hshort]
    rfl
  · rw [if_neg hshort] at halone ⊢
    by_cases hwfa : beNat (val.take 3) = vendorIdWfa
    · rw [if_pos hwfa] at halone ⊢
      rwa [parseVendorExtWfa_isSome _ attr .empty]
    · rw [if_neg hwfa] at halone ⊢
      by_cases hlong : maxVendorExtLen < val.length
      · rw [if_pos hlong] at halone
        cases halone
      · rw [if_neg hlong, if_neg (Nat.not_le.mpr (hroom ⟨hshort, hwfa⟩))]
        rfl

theorem setAttr_isSome {a : Attribute} (ha : a.Valid) {attr : ParseAttr}
    (hroom : isForeign a.code a.val → attr.vendorExt.length < maxCount) (pos : ℕ) :
    (setAttr attr a.code pos a.val).isSome := by
  unfold Attribute.Valid at ha
  unfold setAttr at ha ⊢
  cases htype : AttrType.ofCode a.code with
  | none => rfl
  | some type =>
    simp only [htype] at ha ⊢
    by_cases hfixed : ∃ len ∈ type.fixedLen, a.val.length ≠ len
    · rw [if_pos hfixed] at ha
      cases ha
    · rw [if_neg hfixed] at ha ⊢
      split
      · split <;> rfl
      · split <;> rfl
      · dsimp only at ha
        split at ha
        · cases ha
        · next hlist =>
          rw [if_neg hlist]
          rfl
      · exact parseVendorExt_isSome htype ha hroom
      · rfl

theorem setAttr_vendorExt
    (h : setAttr attr code pos val = some attr') :
    attr'.vendorExt.length ≤ attr.vendorExt.length + if isForeign code val then 1 else 0 := by
  unfold setAttr at h
  split at h
  · cases h
    exact Nat.le_add_right _ _
  · next htype =>
    split at h
    · cases h
    · split at h
      · split at h <;> cases h <;> exact Nat.le_add_right _ _
      · split at h <;> cases h <;> exact Nat.le_add_right _ _
      · split at h
        · cases h
        · cases h
          exact Nat.le_add_right _ _
      · unfold parseVendorExt at h
        split at h
        · cases h
          exact Nat.le_add_right _ _
        · next hshort =>
          split at h
          · rw [(parseVendorExtWfa_frame h).2]
            exact Nat.le_add_right _ _
          · next hwfa =>
            split at h
            · cases h
            · split at h <;> cases h
              rw [if_pos ((isForeign_iff htype).mpr ⟨hshort, hwfa⟩), List.length_append]
              exact Nat.le_refl _
      · cases h
        exact Nat.le_add_right _ _

theorem keepAttrs_isSome {l : List Attribute} (hl : ∀ a ∈ l, a.Valid) {attr : ParseAttr}
    (hroom : attr.vendorExt.length + l.countP (fun a => isForeign a.code a.val) ≤ maxCount)
    (pos : ℕ) : (keepAttrs attr pos l).isSome := by
  induction l generalizing attr pos with
  | nil => rfl
  | cons a l ih =>
    rw [List.countP_cons] at hroom
    have hfirst : isForeign a.code a.val → attr.vendorExt.length < maxCount := by
      intro hforeign
      rw [if_pos hforeign] at hroom
      omega
    have hset := setAttr_isSome (hl a List.mem_cons_self) hfirst (pos + 4)
    obtain ⟨attr', hset⟩ := Option.isSome_iff_exists.mp hset
    have hcount := setAttr_vendorExt hset
    rw [keepAttrs, hset]
    exact ih (fun b hb => hl b (List.mem_cons_of_mem a hb)) (by omega) _

/-! ## The round trip -/

/-- AES-128-CBC decrypts what it encrypted, in place, and HMAC-SHA256 has 32 octets. -/
structure CbcInverse (cr : Crypto) : Prop where
  encrypts : ∀ key iv data, key.length = 16 → iv.length = 16 → data.length % 16 = 0 →
    ∃ enc, cr.aes128CbcEncrypt key iv data = some enc ∧ enc.length = data.length ∧
      cr.aes128CbcDecrypt key iv enc = some data
  length_decrypted : ∀ key iv data decrypted,
    cr.aes128CbcDecrypt key iv data = some decrypted → decrypted.length = data.length
  length_hmac : ∀ key data, (cr.hmacSha256 key data).length = 32

section RoundTrip

variable {cr : Crypto} (hcr : CbcInverse cr) {w w' : WpsData}

include hcr

theorem decrypt_buildEncrSettings (hkey : w'.keywrapkey = w.keywrapkey)
    (hlen : w.keywrapkey.length = 16) {d d' : Draws} {iv : Bytes} (hiv : d.iv = some iv)
    (hivlen : iv.length = 16) (hmem : d'.mem .decrypted) (plain : Bytes) :
    ∃ value, buildEncrSettings cr d w plain = some (putAttr .encrSettings value) ∧
      decryptEncrSettings cr d' w' (some value) = some plain := by
  obtain ⟨padLen, hpadLen⟩ : ∃ padLen, padLen = 16 - plain.length % 16 := ⟨_, rfl⟩
  have hpadded : (plain ++ List.replicate padLen (UInt8.ofNat padLen)).length % 16 = 0 := by
    rw [List.length_append, List.length_replicate]
    omega
  obtain ⟨enc, henc, henclen, hdec⟩ := hcr.encrypts w.keywrapkey iv _ hlen hivlen hpadded
  rw [List.length_append, List.length_replicate] at henclen
  refine ⟨iv ++ enc, ?_, ?_⟩
  · simp only [buildEncrSettings, hiv, ← hpadLen, henc, Option.map_some]
  · have hvalue : ¬ ((iv ++ enc).length < 32 ∨ (iv ++ enc).length % 16 ≠ 0) := by
      rw [List.length_append, hivlen, henclen]
      omega
    have hlast : (plain ++ List.replicate padLen (UInt8.ofNat padLen)).getLastD 0 =
        UInt8.ofNat padLen := by
      obtain ⟨k, hk⟩ := Nat.exists_eq_add_one_of_ne_zero (show padLen ≠ 0 by omega)
      rw [hk, List.replicate_succ', ← List.append_assoc, List.getLastD_eq_getLast?,
        List.getLast?_concat]
      rfl
    have hoctet : (UInt8.ofNat padLen).toNat = padLen := by
      rw [UInt8.toNat_ofNat']
      omega
    have hfront : (plain ++ List.replicate padLen (UInt8.ofNat padLen)).length - padLen =
        plain.length := by
      rw [List.length_append, List.length_replicate, Nat.add_sub_cancel]
    have hroom : ¬ (plain ++ List.replicate padLen (UInt8.ofNat padLen)).length < padLen := by
      rw [List.length_append, List.length_replicate]
      omega
    simp only [decryptEncrSettings, if_neg hvalue, hmem, not_true_eq_false, if_false, hkey,
      List.take_left' hivlen, List.drop_left' hivlen, hdec, hlast, hoctet, hfront, if_neg hroom,
      List.take_left, List.drop_left]
    rw [if_pos]
    exact List.all_eq_true.mpr fun b hb => decide_eq_true (List.eq_of_mem_replicate hb)

def kwaAttr (plain : Bytes) : Attribute where
  code := AttrType.code .keyWrapAuth
  val := (cr.hmacSha256 w.authkey plain).take kwaLen
  code_lt := by decide
  length_lt := by
    rw [List.length_take_of_le]
    · decide
    · rw [hcr.length_hmac]
      decide

theorem buildKeyWrapAuth_eq (l : List Attribute) :
    buildKeyWrapAuth cr w (encodeAttrs l) =
      encodeAttrs (l ++ [kwaAttr (w := w) hcr (encodeAttrs l)]) := by
  rw [encodeAttrs_append, encodeAttrs_cons, encodeAttrs_nil, List.append_nil]
  rfl

theorem parseMsg_buildKeyWrapAuth (l : List Attribute) :
    parseMsg (buildKeyWrapAuth cr w (encodeAttrs l)) = (keepAttrs .empty 0 l).map fun attr =>
      { attr with fields := (.keyWrapAuth, ⟨(encodeAttrs l).length + 4,
          (cr.hmacSha256 w.authkey (encodeAttrs l)).take kwaLen⟩) :: attr.fields } := by
  have hlast : (kwaAttr (w := w) hcr (encodeAttrs l)).code ≠ 0 := by
    show AttrType.code .keyWrapAuth ≠ 0
    decide
  have hfixed : ¬ ∃ len ∈ AttrType.fixedLen .keyWrapAuth,
      ((cr.hmacSha256 w.authkey (encodeAttrs l)).take kwaLen).length ≠ len := by
    rintro ⟨len, hlen, hne⟩
    cases hlen
    rw [List.length_take_of_le] at hne
    · exact hne rfl
    · rw [hcr.length_hmac]
      decide
  have hset (attr : ParseAttr) : keepAttrs attr (0 + (encodeAttrs l).length)
      [kwaAttr (w := w) hcr (encodeAttrs l)] =
      some { attr with fields := (.keyWrapAuth, ⟨(encodeAttrs l).length + 4,
        (cr.hmacSha256 w.authkey (encodeAttrs l)).take kwaLen⟩) :: attr.fields } := by
    have htype : AttrType.ofCode (AttrType.code .keyWrapAuth) = some .keyWrapAuth := by decide
    simp only [keepAttrs, kwaAttr, setAttr, htype, if_neg hfixed, Nat.zero_add, Option.bind_some]
  rw [buildKeyWrapAuth_eq hcr, parseMsg_encodeAttrs hlast, keepAttrs_append, Option.map_eq_bind]
  congr 1
  funext attr
  exact hset attr

theorem processKeyWrapAuth_build (hauth : w'.authkey = w.authkey) (plain : Bytes) :
    processKeyWrapAuth cr (buildKeyWrapAuth cr w plain) (some ⟨plain.length + 4,
      (cr.hmacSha256 w.authkey plain).take kwaLen⟩) w' = true := by
  have hlength : ((cr.hmacSha256 w.authkey plain).take kwaLen).length = kwaLen := by
    rw [List.length_take_of_le]
    rw [hcr.length_hmac]
    decide
  have hlen : (buildKeyWrapAuth cr w plain).length - 4 - kwaLen = plain.length := by
    simp only [buildKeyWrapAuth, putAttr, List.length_append, length_putBe16, hlength]
    omega
  simp only [processKeyWrapAuth, hlen, hauth]
  rw [if_neg (not_not.mpr rfl), buildKeyWrapAuth, List.take_left]
  exact decide_eq_true rfl

/-- Source: `wps_build_key_wrap_auth`, `wps_build_encr_settings`, `wps_decrypt_encr_settings`,
`wps_process_key_wrap_auth`. Attributes that are put into the Encrypted Settings with the keys of a
run are decrypted to what they were, parsed to what `wps_set_attr` keeps of them, and accepted; and
whatever is received, decryption and check read inside the buffers. -/
theorem encr_settings_round_trip (hauth : w'.authkey = w.authkey)
    (hkey : w'.keywrapkey = w.keywrapkey) (hlen : w.keywrapkey.length = 16) {d d' : Draws}
    {iv : Bytes} (hiv : d.iv = some iv) (hivlen : iv.length = 16) (hmem : d'.mem .decrypted) :
    (∀ l : List Attribute, ValidAttrs l → ∃ value kept eattr,
      buildSettings cr d w (encodeAttrs l) = some (putAttr .encrSettings value) ∧
      decryptSettings cr d' w' (some value) =
        .ok (some (buildKeyWrapAuth cr w (encodeAttrs l))) ∧
      parseMsg (buildKeyWrapAuth cr w (encodeAttrs l)) = some eattr ∧
      keepAttrs .empty 0 l = some kept ∧
      (∃ kwa, eattr = { kept with fields := (.keyWrapAuth, kwa) :: kept.fields }) ∧
      checkKeyWrapAuth cr (buildKeyWrapAuth cr w (encodeAttrs l)) (eattr.field .keyWrapAuth) w' =
        .ok true) ∧
    ∀ encr, ∃ decrypted, decryptSettings cr d' w' encr = .ok decrypted ∧
      ∀ msg eattr, decrypted = some msg → parseMsg msg = some eattr →
        ∃ accepted, checkKeyWrapAuth cr msg (eattr.field .keyWrapAuth) w' = .ok accepted := by
  constructor
  · intro l hl
    obtain ⟨value, hbuild, hdecrypt⟩ := decrypt_buildEncrSettings hcr hkey hlen hiv hivlen hmem
      (buildKeyWrapAuth cr w (encodeAttrs l))
    have hroom : ParseAttr.empty.vendorExt.length +
        l.countP (fun a => isForeign a.code a.val) ≤ maxCount := by
      show 0 + _ ≤ maxCount
      rw [Nat.zero_add]
      exact hl.foreign
    obtain ⟨kept, hkept⟩ := Option.isSome_iff_exists.mp
      (keepAttrs_isSome hl.each hroom 0)
    have hparse := parseMsg_buildKeyWrapAuth hcr (w := w) l
    rw [hkept, Option.map_some] at hparse
    refine ⟨value, kept, _, hbuild, ?_, hparse, hkept, ⟨_, rfl⟩, ?_⟩
    · rw [decryptSettings_eq hcr.length_decrypted, hdecrypt]
    · rw [checkKeyWrapAuth_eq cr w' hparse]
      exact congrArg _ (processKeyWrapAuth_build hcr hauth (encodeAttrs l))
  · intro encr
    exact ⟨_, decryptSettings_eq hcr.length_decrypted d' w' encr,
      fun msg eattr _ hparse => ⟨_, checkKeyWrapAuth_eq cr w' hparse⟩⟩

end RoundTrip

/-- Functions of the right lengths, with a cipher that adds the first octet of the key. -/
def shiftCrypto : Crypto where
  sha256 _ := List.replicate 32 0
  hmacSha256 _ _ := List.replicate 32 0
  dh5DeriveShared _ _ := none
  aes128CbcEncrypt key _ data := some (data.map (· + key.headD 0))
  aes128CbcDecrypt key _ data := some (data.map (· - key.headD 0))

theorem shiftCrypto_inverse : CbcInverse shiftCrypto where
  encrypts key iv data _ _ _ := by
    refine ⟨data.map (· + key.headD 0), rfl, List.length_map _, ?_⟩
    simp [shiftCrypto, Function.comp_def]
  length_decrypted key iv data decrypted h := by
    cases h
    exact List.length_map _
  length_hmac _ _ := List.length_replicate

def oneDraw : Draws where
  now := ⟨0, 0⟩
  mem _ := true
  nonce := none
  snonce := none
  iv := some (List.replicate 16 0x11)
  key := none
  dh := none

theorem version_round_trip :
    let w := { WpsData.zero .accessPoint with keywrapkey := List.replicate 16 0x07 }
    ∃ value, buildSettings shiftCrypto oneDraw w buildVersion = some (putAttr .encrSettings value) ∧
      decryptSettings shiftCrypto oneDraw w (some value) =
        .ok (some (buildKeyWrapAuth shiftCrypto w buildVersion)) := by
  intro w
  obtain ⟨hbuilt, -⟩ := encr_settings_round_trip shiftCrypto_inverse (rfl : w.authkey = w.authkey)
    (rfl : w.keywrapkey = w.keywrapkey) rfl (rfl : oneDraw.iv = some (List.replicate 16 0x11)) rfl
    (rfl : oneDraw.mem .decrypted = true)
  obtain ⟨value, -, -, hbuild, hdecrypt, -⟩ := hbuilt
    [⟨AttrType.code .version, [0x10], by decide, by decide⟩] ⟨by
      intro a ha
      rw [List.mem_singleton.mp ha]
      show (setAttr .empty (AttrType.code .version) 4 [0x10]).isSome
      decide, by decide⟩
  exact ⟨value, hbuild, hdecrypt⟩

end Hostapd.Wps
