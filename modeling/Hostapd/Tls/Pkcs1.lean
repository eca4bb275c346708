import Hostapd.Tls.Asn1
import Mathlib.Data.List.TakeWhile
import Mathlib.Data.Nat.Log

/-!
# The RSA public operation and PKCS #1 blocks

`rsa.c`: the import of a public key and the operation with it. `pkcs1.c`: taking the data out of the
block it yields. The modular exponentiation of `bignum.c` is a parameter.

* **`IsBlock`**: a block `00 BT PS 00 D` that is taken, with a padding string of at least eight
  octets.
* **`stripBlock_eq_some_iff`**: the data of a block is taken exactly if it is such a block.
-/

namespace Hostapd.Tls

open Hostapd.Lib

/-! ## RSA -/

/-- The public part of a key. Source: `struct crypto_rsa_key`. -/
structure RsaKey where
  n : ℕ
  e : ℕ
  deriving DecidableEq

/-- Base, exponent and modulus of a modular exponentiation, which may fail.
Source: `bignum_exptmod`. -/
abbrev Exptmod := ℕ → ℕ → ℕ → Option ℕ

/-- The octets a number takes. Source: `bignum_get_unsigned_bin_len`. -/
def bignumLen (n : ℕ) : ℕ := if n = 0 then 0 else n.log2 / 8 + 1

/-- Source: `crypto_rsa_get_modulus_len`. -/
def RsaKey.modulusLen (key : RsaKey) : ℕ := bignumLen key.n

/-- Source: `crypto_rsa_parse_integer`. -/
def rsaParseInteger (pos : Bytes) : Option (ℕ × Bytes) := do
  let hdr ← asn1GetNext pos
  if hdr.cls ≠ asn1ClassUniversal ∨ hdr.tag ≠ asn1TagInteger then none
  else some (beNat hdr.payload, hdr.rest)

/-- Source: `crypto_rsa_import_public_key`. -/
def rsaImportPublicKey (buf : Bytes) : Option RsaKey := do
  let hdr ← asn1GetNext buf
  if hdr.cls ≠ asn1ClassUniversal ∨ hdr.tag ≠ asn1TagSequence then none
  else
    let (n, pos) ← rsaParseInteger hdr.payload
    let (e, pos) ← rsaParseInteger pos
    -- extra data in the sequence is refused
    if pos ≠ [] then none else some ⟨n, e⟩

/-- The operation with the public key, on at most `outlen` octets of output.
Source: `crypto_rsa_exptmod` with `use_private` 0. -/
def rsaExptmod (exptmod : Exptmod) (key : RsaKey) (input : Bytes) (outlen : ℕ) : Option Bytes :=
  if key.n < beNat input then none
  else do
    let tmp ← exptmod (beNat input) key.e key.n
    if outlen < key.modulusLen then none
    else if key.modulusLen < bignumLen tmp then none
    else some (putBe key.modulusLen tmp)

theorem length_rsaExptmod {exptmod : Exptmod} {key : RsaKey} {input block : Bytes} {outlen : ℕ}
    (h : rsaExptmod exptmod key input outlen = some block) : block.length = key.modulusLen := by
  simp only [rsaExptmod, Option.bind_eq_bind, Option.ite_none_left_eq_some,
    Option.bind_eq_some_iff, Option.some.injEq] at h
  obtain ⟨-, tmp, -, -, -, rfl⟩ := h
  exact length_putBe _ _

/-! ## Blocks -/

def minPad : ℕ := 8

def minHashLen : ℕ := 16

/-- What is left of the zeros of a padding string of type 0, and what follows: the last zero
stays. -/
def skipZeros : Bytes → Bytes
  | 0 :: 0 :: l => skipZeros (0 :: l)
  | l => l

/-- The data of a block. Source: `pkcs1_decrypt_public_key`, after the operation. -/
def stripBlock (plain : Bytes) : Option Bytes :=
  match plain with
  | b₀ :: b₁ :: b₂ :: l =>
    if plain.length < 3 + minPad + minHashLen ∨ b₀ ≠ 0 ∨ (b₁ ≠ 0 ∧ b₁ ≠ 1) then none
    else if (b₁ = 0 ∧ b₂ ≠ 0) ∨ (b₁ = 1 ∧ b₂ ≠ 0xff) then none
    else
      let pos := if b₁ = 0 then skipZeros l else l.dropWhile (· = 0xff)
      if plain.length - pos.length - 2 < minPad then none
      else if pos.length ≤ minHashLen then none
      else match pos with
        | 0 :: d => some d
        | _ => none
  | _ => none

/-- A block that is taken: `00 BT PS 00 D`, with a padding string of zeros for block type 0, where
the data begins with the first other octet, and of ones for block type 1. -/
structure IsBlock (bt : UInt8) (pad d block : Bytes) : Prop where
  eq : block = 0 :: bt :: (pad ++ 0 :: d)
  type : bt = 0 ∧ (∀ b ∈ pad, b = 0) ∧ d.head? ≠ some 0 ∨ bt = 1 ∧ ∀ b ∈ pad, b = 0xff
  pad : minPad ≤ pad.length
  data : minHashLen ≤ d.length

theorem skipZeros_replicate (n : ℕ) {d : Bytes} (hd : d.head? ≠ some 0) :
    skipZeros (List.replicate n 0 ++ 0 :: d) = 0 :: d := by
  induction n with
  | zero =>
    cases d with
    | nil => rfl
    | cons b d =>
      have hb : b ≠ 0 := by simpa using hd
      simp [skipZeros, hb]
  | succ n ih =>
    cases n with
    | zero => simpa [skipZeros] using ih
    | succ n => simpa [List.replicate_succ, skipZeros] using ih

theorem skipZeros_eq_cons {l d : Bytes} (h : skipZeros l = 0 :: d) (hd : d ≠ []) :
    (∃ n, l = List.replicate n 0 ++ 0 :: d) ∧ d.head? ≠ some 0 := by
  fun_induction skipZeros l with
  | case1 l ih =>
    obtain ⟨⟨n, hl⟩, hhead⟩ := ih h
    exact ⟨⟨n + 1, by rw [hl, List.replicate_succ, List.cons_append]⟩, hhead⟩
  | case2 l hne =>
    subst h
    refine ⟨⟨0, rfl⟩, ?_⟩
    cases d with
    | nil => exact absurd rfl hd
    | cons b d =>
      intro hb
      obtain rfl : b = 0 := Option.some.inj hb
      exact hne d rfl

theorem dropWhile_replicate (n : ℕ) (d : Bytes) :
    (List.replicate n 0xff ++ 0 :: d).dropWhile (· = 0xff) = (0 : UInt8) :: d := by
  induction n with
  | zero => rfl
  | succ n ih =>
    rw [List.replicate_succ, List.cons_append, List.dropWhile_cons_of_pos (by simp), ih]

theorem dropWhile_eq_cons {l d : Bytes} (h : l.dropWhile (· = 0xff) = (0 : UInt8) :: d) :
    ∃ n, l = List.replicate n 0xff ++ 0 :: d := by
  refine ⟨(l.takeWhile (· = 0xff)).length, ?_⟩
  have hones : l.takeWhile (· = 0xff) = List.replicate (l.takeWhile (· = 0xff)).length 0xff :=
    List.eq_replicate_iff.mpr ⟨rfl, fun b hb => by simpa using List.mem_takeWhile_imp hb⟩
  rw [← hones, ← h, List.takeWhile_append_dropWhile]

theorem stripBlock_eq_some_iff {block d : Bytes} :
    stripBlock block = some d ↔ ∃ bt pad, IsBlock bt pad d block := by
  constructor
  · intro h
    match block with
    | [] => simp [stripBlock] at h
    | [_] => simp [stripBlock] at h
    | [_, _] => simp [stripBlock] at h
    | b₀ :: b₁ :: b₂ :: l =>
      simp only [stripBlock, Option.ite_none_left_eq_some, not_or, not_and, not_not] at h
      generalize hpos : (if b₁ = 0 then skipZeros l else l.dropWhile (· = 0xff)) = pos at h
      obtain ⟨⟨-, rfl, htype⟩, ⟨hzero, hone⟩, hpad, hdata, hd⟩ := h
      have hpos' : pos = 0 :: d := by
        split at hd
        · rw [Option.some.inj hd]
        · cases hd
      subst hpos'
      have hlen : minHashLen ≤ d.length := by
        rw [List.length_cons] at hdata
        omega
      by_cases hb : b₁ = 0
      · rw [if_pos hb] at hpos
        have hne : d ≠ [] := List.ne_nil_of_length_pos (lt_of_lt_of_le (by decide) hlen)
        obtain ⟨⟨n, rfl⟩, hhead⟩ := skipZeros_eq_cons hpos hne
        refine ⟨0, List.replicate (n + 1) 0, ?_, .inl ⟨rfl, by simp, hhead⟩, ?_, hlen⟩
        · rw [hb, hzero hb, List.replicate_succ, List.cons_append]
        · simp only [List.length_cons, List.length_append, List.length_replicate] at hpad ⊢
          omega
      · have hb₁ : b₁ = 1 := htype hb
        rw [if_neg hb] at hpos
        obtain ⟨n, rfl⟩ := dropWhile_eq_cons hpos
        refine ⟨1, List.replicate (n + 1) 0xff, ?_, .inr ⟨rfl, by simp⟩, ?_, hlen⟩
        · rw [hb₁, hone hb₁, List.replicate_succ, List.cons_append]
        · simp only [List.length_cons, List.length_append, List.length_replicate] at hpad ⊢
          omega
  · rintro ⟨bt, pad, rfl, htype, hpad, hdata⟩
    -- the padding string is one octet, which is looked at first, and the rest of it
    obtain ⟨n, hn⟩ : ∃ n, pad.length = n + 1 := ⟨pad.length - 1, by simp only [minPad] at hpad; omega⟩
    rcases htype with ⟨rfl, hz, hhead⟩ | ⟨rfl, hones⟩
    · obtain rfl : pad = 0 :: List.replicate n 0 := List.eq_replicate_iff.mpr ⟨hn, hz⟩
      simp only [List.cons_append, stripBlock, if_true, skipZeros_replicate n hhead]
      simp [minPad, minHashLen] at hpad hdata ⊢
      omega
    · obtain rfl : pad = 0xff :: List.replicate n 0xff := List.eq_replicate_iff.mpr ⟨hn, hones⟩
      simp only [List.cons_append, stripBlock, dropWhile_replicate n d]
      simp [minPad, minHashLen] at hpad hdata ⊢
      omega

end Hostapd.Tls
