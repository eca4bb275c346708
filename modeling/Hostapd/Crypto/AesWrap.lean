import Mathlib.Data.BitVec
import Mathlib.Logic.Equiv.Basic
import Mathlib.Tactic

/-!
# AES key wrap

`aes-wrap.c` and `aes-unwrap.c`. A semiblock of 8 octets is a number of 64 bits, the first octet on
top, and a block is two of them. Both functions work on the integrity register `A` and the
semiblocks `R[1] .. R[n]`, in six passes: `aes_wrap` from front to back, `aes_unwrap` from back to
front.

A step folds its number `t = n * j + i` into `A`. RFC 3394 takes all 64 bits of `t`, the code
(`a[7] ^= n * j + i`) the low octet.

* **`unwrapPass_wrapPass`**, **`wrapPass_unwrapPass`**: one pass undoes the other, whatever is
  folded in.
* **`wrapPasses_congr`**: below 256 the two counters are the same.
* **`wrapPasses_refl`**: what the identity makes of `A`, where they are not.
* **`aes_wrap_rfc3394`**: the wrapping is that of RFC 3394 for up to 42 semiblocks, and for no
  greater number.
-/

namespace Hostapd.AesWrap

/-! ## The functions -/

abbrev Semiblock := BitVec 64

abbrev BlockCipher := Equiv.Perm (Semiblock × Semiblock)

/-- How a step folds its number into the integrity register. -/
abbrev Fold := Semiblock → ℕ → Semiblock

/-- `a[7] ^= n * j + i`: the number is cut to an octet. -/
def foldOctet : Fold := fun a t => a ^^^ (BitVec.ofNat 8 t).setWidth 64

/-- The loop over `i` of `aes_wrap`: `base` is `n * j`. -/
def wrapPass (cipher : BlockCipher) (fold : Fold) (base : ℕ) :
    ℕ → Semiblock → List Semiblock → Semiblock × List Semiblock
  | _, a, [] => (a, [])
  | i, a, r :: rs =>
    let b := cipher (a, r)
    let rest := wrapPass cipher fold base (i + 1) (fold b.1 (base + i)) rs
    (rest.1, b.2 :: rest.2)

/-- The loop over `i` of `aes_unwrap`, which goes over the semiblocks from the last one. -/
def unwrapPass (cipher : BlockCipher) (fold : Fold) (base : ℕ) :
    ℕ → Semiblock → List Semiblock → Semiblock × List Semiblock
  | _, a, [] => (a, [])
  | i, a, r :: rs =>
    let rest := unwrapPass cipher fold base (i + 1) a rs
    let b := cipher.symm (fold rest.1 (base + i), r)
    (b.1, b.2 :: rest.2)

/-- The loop over `j` of `aes_wrap`. -/
def wrapPasses (cipher : BlockCipher) (fold : Fold) (n : ℕ) (js : List ℕ)
    (s : Semiblock × List Semiblock) : Semiblock × List Semiblock :=
  js.foldl (fun s j => wrapPass cipher fold (n * j) 1 s.1 s.2) s

/-- The loop over `j` of `aes_unwrap`. -/
def unwrapPasses (cipher : BlockCipher) (fold : Fold) (n : ℕ) (js : List ℕ)
    (s : Semiblock × List Semiblock) : Semiblock × List Semiblock :=
  js.foldr (fun j s => unwrapPass cipher fold (n * j) 1 s.1 s.2) s

def initialValue : Semiblock := 0xa6a6a6a6a6a6a6a6

/-- Source: `aes_wrap`; `ctx` is what `aes_encrypt_init` returns for the key, and the plaintext has
`n` semiblocks. -/
def aesWrap (ctx : Option BlockCipher) (plain : List Semiblock) :
    Option (Semiblock × List Semiblock) :=
  ctx.map fun cipher =>
    wrapPasses cipher foldOctet plain.length (List.range 6) (initialValue, plain)

/-- Source: `aes_unwrap`; `ctx` is what `aes_decrypt_init` returns for the key. -/
def aesUnwrap (ctx : Option BlockCipher) (wrapped : Semiblock × List Semiblock) :
    Option (List Semiblock) :=
  ctx.bind fun cipher =>
    let s := unwrapPasses cipher foldOctet wrapped.2.length (List.range 6) wrapped
    if s.1 = initialValue then some s.2 else none

/-- The wrapping of RFC 3394: `A = MSB(64, B) ^ t` with `t` in 64 bits. -/
def rfc3394Wrap (cipher : BlockCipher) (plain : List Semiblock) : Semiblock × List Semiblock :=
  wrapPasses cipher (fun a t => a ^^^ BitVec.ofNat 64 t) plain.length (List.range 6)
    (initialValue, plain)

/-! ## One pass undoes the other -/

variable {cipher : BlockCipher} {fold fold' : Fold} {base : ℕ}

theorem foldOctet_foldOctet (a : Semiblock) (t : ℕ) : foldOctet (foldOctet a t) t = a := by
  unfold foldOctet
  rw [BitVec.xor_assoc, BitVec.xor_self, BitVec.xor_zero]

theorem length_wrapPass (i : ℕ) (a : Semiblock) (rs : List Semiblock) :
    (wrapPass cipher fold base i a rs).2.length = rs.length := by
  induction rs generalizing i a with
  | nil => rfl
  | cons r rs ih => exact congrArg (· + 1) (ih _ _)

theorem length_unwrapPass (i : ℕ) (a : Semiblock) (rs : List Semiblock) :
    (unwrapPass cipher fold base i a rs).2.length = rs.length := by
  induction rs generalizing i with
  | nil => rfl
  | cons r rs ih => exact congrArg (· + 1) (ih _)

theorem unwrapPass_wrapPass (hfold : ∀ a t, fold (fold a t) t = a) (i : ℕ) (a : Semiblock)
    (rs : List Semiblock) :
    unwrapPass cipher fold base i (wrapPass cipher fold base i a rs).1
      (wrapPass cipher fold base i a rs).2 = (a, rs) := by
  induction rs generalizing i a with
  | nil => rfl
  | cons r rs ih =>
    simp only [wrapPass, unwrapPass]
    rw [ih, hfold, Prod.mk.eta, Equiv.symm_apply_apply]

theorem wrapPass_unwrapPass (hfold : ∀ a t, fold (fold a t) t = a) (i : ℕ) (a : Semiblock)
    (rs : List Semiblock) :
    wrapPass cipher fold base i (unwrapPass cipher fold base i a rs).1
      (unwrapPass cipher fold base i a rs).2 = (a, rs) := by
  induction rs generalizing i with
  | nil => rfl
  | cons r rs ih =>
    simp only [wrapPass, unwrapPass]
    rw [Prod.mk.eta, Equiv.apply_symm_apply, hfold, ih]

variable {n : ℕ}

theorem unwrapPasses_wrapPasses (hfold : ∀ a t, fold (fold a t) t = a) (js : List ℕ)
    (s : Semiblock × List Semiblock) :
    unwrapPasses cipher fold n js (wrapPasses cipher fold n js s) = s := by
  induction js generalizing s with
  | nil => rfl
  | cons j js ih =>
    have hrest := ih (wrapPass cipher fold (n * j) 1 s.1 s.2)
    simp only [unwrapPasses, wrapPasses, List.foldl_cons, List.foldr_cons] at hrest ⊢
    rw [hrest]
    exact unwrapPass_wrapPass hfold 1 s.1 s.2

theorem wrapPasses_unwrapPasses (hfold : ∀ a t, fold (fold a t) t = a) (js : List ℕ)
    (s : Semiblock × List Semiblock) :
    wrapPasses cipher fold n js (unwrapPasses cipher fold n js s) = s := by
  induction js with
  | nil => rfl
  | cons j js ih =>
    simp only [unwrapPasses, wrapPasses, List.foldl_cons, List.foldr_cons] at ih ⊢
    rw [wrapPass_unwrapPass hfold]
    exact ih

theorem length_wrapPasses (js : List ℕ) (s : Semiblock × List Semiblock) :
    (wrapPasses cipher fold n js s).2.length = s.2.length := by
  induction js generalizing s with
  | nil => rfl
  | cons j js ih => exact (ih _).trans (length_wrapPass 1 s.1 s.2)

theorem length_unwrapPasses (js : List ℕ) (s : Semiblock × List Semiblock) :
    (unwrapPasses cipher fold n js s).2.length = s.2.length := by
  induction js with
  | nil => rfl
  | cons j js ih => exact (length_unwrapPass 1 _ _).trans ih

theorem aesWrap_some (plain : List Semiblock) : aesWrap (some cipher) plain =
    some (wrapPasses cipher foldOctet plain.length (List.range 6) (initialValue, plain)) := rfl

theorem aesUnwrap_eq_some_iff {wrapped : Semiblock × List Semiblock} {plain : List Semiblock} :
    aesUnwrap (some cipher) wrapped = some plain ↔ aesWrap (some cipher) plain = some wrapped := by
  have hfold := foldOctet_foldOctet
  simp only [aesWrap, aesUnwrap, Option.map_some, Option.bind_some, Option.some.injEq]
  constructor
  · intro h
    split_ifs at h with hinit
    obtain rfl := Option.some.inj h
    rw [length_unwrapPasses, ← hinit, Prod.mk.eta]
    exact wrapPasses_unwrapPasses hfold _ _
  · rintro rfl
    rw [length_wrapPasses, unwrapPasses_wrapPasses hfold, if_pos rfl]

/-! ## The number of a step -/

theorem foldOctet_of_lt {t : ℕ} (h : t < 256) (a : Semiblock) :
    foldOctet a t = a ^^^ BitVec.ofNat 64 t := by
  unfold foldOctet
  congr 1
  apply BitVec.eq_of_toNat_eq
  simp only [BitVec.toNat_setWidth, BitVec.toNat_ofNat]
  omega

theorem wrapPass_congr {i : ℕ} {rs : List Semiblock}
    (h : ∀ t < base + i + rs.length, ∀ a, fold a t = fold' a t) (a : Semiblock) :
    wrapPass cipher fold base i a rs = wrapPass cipher fold' base i a rs := by
  induction rs generalizing i a with
  | nil => rfl
  | cons r rs ih =>
    have hrest := ih (i := i + 1) fun t ht => h t (by rw [List.length_cons]; omega)
    simp only [wrapPass]
    rw [h (base + i) (by rw [List.length_cons]; omega), hrest]

theorem wrapPasses_congr {js : List ℕ} {s : Semiblock × List Semiblock} (hn : s.2.length = n)
    (h : ∀ j ∈ js, ∀ t ≤ n * j + n, ∀ a, fold a t = fold' a t) :
    wrapPasses cipher fold n js s = wrapPasses cipher fold' n js s := by
  induction js generalizing s with
  | nil => rfl
  | cons j js ih =>
    have hpass : wrapPass cipher fold (n * j) 1 s.1 s.2 =
        wrapPass cipher fold' (n * j) 1 s.1 s.2 :=
      wrapPass_congr (fun t ht => h j List.mem_cons_self t (by omega)) s.1
    simp only [wrapPasses, List.foldl_cons] at ih ⊢
    rw [hpass]
    exact ih ((length_wrapPass 1 s.1 s.2).trans hn) fun k hk => h k (List.mem_cons_of_mem j hk)

/-! ### Under the identity -/

/-- The numbers up to `m`, folded in one after the other. -/
def foldUpTo (fold : Fold) (a : Semiblock) : ℕ → Semiblock
  | 0 => a
  | m + 1 => fold (foldUpTo fold a m) (m + 1)

theorem wrapPass_refl (a : Semiblock) (i : ℕ) (rs : List Semiblock) :
    wrapPass (Equiv.refl _) fold base (i + 1) (foldUpTo fold a (base + i)) rs =
      (foldUpTo fold a (base + i + rs.length), rs) := by
  induction rs generalizing i with
  | nil => rfl
  | cons r rs ih =>
    have hrest := ih (i + 1)
    simp only [wrapPass, Equiv.refl_apply, List.length_cons] at hrest ⊢
    rw [show base + (i + 1) = base + i + 1 from (Nat.add_assoc base i 1).symm] at hrest ⊢
    rw [foldUpTo, show base + i + 1 + rs.length = base + i + (rs.length + 1) by omega] at hrest
    rw [hrest]

theorem wrapPasses_refl (fold : Fold) (a : Semiblock) (rs : List Semiblock) (k : ℕ) :
    wrapPasses (Equiv.refl _) fold rs.length (List.range k) (a, rs) =
      (foldUpTo fold a (rs.length * k), rs) := by
  induction k with
  | zero => rfl
  | succ k ih =>
    have hpass := @wrapPass_refl fold (rs.length * k) a 0 rs
    simp only [wrapPasses, List.range_succ, List.foldl_append, List.foldl_cons,
      List.foldl_nil] at ih ⊢
    rw [ih, Nat.mul_succ]
    exact hpass

theorem getLsbD_foldOctet {h : ℕ} (hh : 8 ≤ h) (a : Semiblock) (m : ℕ) :
    (foldUpTo foldOctet a m).getLsbD h = a.getLsbD h := by
  induction m with
  | zero => rfl
  | succ m ih =>
    have hzero : ((BitVec.ofNat 8 (m + 1)).setWidth 64).getLsbD h = false := by
      simp [BitVec.getLsbD_setWidth, BitVec.getLsbD_of_ge _ _ hh]
    simp only [foldUpTo, foldOctet, BitVec.getLsbD_xor] at ih ⊢
    rw [hzero, ih, Bool.xor_false]

/-- The numbers from `2 ^ h` on have the bit `h`, so that each of them changes it. -/
theorem getLsbD_foldUpTo {h : ℕ} (hpos : 0 < h) (hh : h < 64) (a : Semiblock) {m : ℕ}
    (hm : m < 2 ^ (h + 1)) :
    (foldUpTo (fun a t => a ^^^ BitVec.ofNat 64 t) a m).getLsbD h =
      (a.getLsbD h ^^ decide (2 ^ h ≤ m ∧ m % 2 = 0)) := by
  have heven : 2 ^ h % 2 = 0 := Nat.mod_eq_zero_of_dvd (dvd_pow_self 2 hpos.ne')
  rw [pow_succ] at hm
  induction m with
  | zero => simp [foldUpTo]
  | succ m ih =>
    have hbit : (BitVec.ofNat 64 (m + 1)).getLsbD h = decide (2 ^ h ≤ m + 1) := by
      rw [BitVec.getLsbD_ofNat, decide_eq_true hh, Bool.true_and, Nat.testBit_eq_decide_div_mod_eq]
      congr 1
      have hpow : 0 < 2 ^ h := Nat.two_pow_pos h
      by_cases hle : 2 ^ h ≤ m + 1
      · have hone : (m + 1) / 2 ^ h = 1 := Nat.div_eq_of_lt_le (by omega) (by omega)
        simp [hone, hle]
      · simp [Nat.div_eq_of_lt (not_le.mp hle), hle]
    simp only [foldUpTo, BitVec.getLsbD_xor]
    rw [ih (by omega), hbit, Bool.xor_assoc]
    congr 1
    by_cases hle : 2 ^ h ≤ m
    · by_cases hmod : m % 2 = 0
      · simp [hle, hmod, Nat.le_succ_of_le hle, show (m + 1) % 2 ≠ 0 by omega]
      · simp [hle, hmod, Nat.le_succ_of_le hle, show (m + 1) % 2 = 0 by omega]
    · by_cases heq : 2 ^ h = m + 1
      · simp [← heq, hle, heven]
      · simp [hle, show ¬ 2 ^ h ≤ m + 1 by omega]

theorem aesWrap_refl_ne {plain : List Semiblock} (hlen : 42 < plain.length)
    (hint : plain.length < 2 ^ 31) :
    aesWrap (some (Equiv.refl _)) plain ≠ some (rfc3394Wrap (Equiv.refl _) plain) := by
  intro h
  have hreg : foldUpTo foldOctet initialValue (plain.length * 6) =
      foldUpTo (fun a t => a ^^^ BitVec.ofNat 64 t) initialValue (plain.length * 6) := by
    rw [aesWrap_some, rfc3394Wrap, wrapPasses_refl, wrapPasses_refl] at h
    exact congrArg Prod.fst (Option.some.inj h)
  -- the top bit of the last number is folded in an odd number of times
  have hne : plain.length * 6 ≠ 0 := by omega
  have hlow : 8 ≤ Nat.log2 (plain.length * 6) := (Nat.le_log2 hne).mpr (by omega)
  have hhigh : Nat.log2 (plain.length * 6) < 64 := (Nat.log2_lt hne).mpr (by omega)
  have hbit := getLsbD_foldOctet hlow initialValue (plain.length * 6)
  rw [hreg, getLsbD_foldUpTo (by omega) hhigh _ Nat.lt_log2_self,
    decide_eq_true ⟨Nat.log2_self_le hne, by omega⟩] at hbit
  cases hold : initialValue.getLsbD (Nat.log2 (plain.length * 6)) <;> simp [hold] at hbit

/-! ## The wrapping -/

/-- `aes_unwrap` undoes `aes_wrap` and takes nothing else, for every number of semiblocks. The
wrapping is that of RFC 3394 exactly for those whose numbers of steps fit in an octet. -/
theorem aes_wrap_rfc3394 (n : ℕ) :
    (∀ cipher plain, (aesWrap (some cipher) plain).bind (aesUnwrap (some cipher)) = some plain) ∧
      (∀ cipher wrapped plain, aesUnwrap (some cipher) wrapped = some plain →
        aesWrap (some cipher) plain = some wrapped) ∧
      (n < 2 ^ 31 → ((∀ cipher plain, plain.length = n →
        aesWrap (some cipher) plain = some (rfc3394Wrap cipher plain)) ↔ n ≤ 42)) := by
  refine ⟨fun cipher plain => ?_, fun _ _ _ => aesUnwrap_eq_some_iff.mp, fun hint => ⟨?_, ?_⟩⟩
  · rw [aesWrap_some, Option.bind_some]
    exact aesUnwrap_eq_some_iff.mpr (aesWrap_some plain)
  · intro h
    by_contra hn
    have hlen : (List.replicate n (0 : Semiblock)).length = n := List.length_replicate
    exact aesWrap_refl_ne (by omega) (by omega) (h _ _ hlen)
  · rintro hn cipher plain rfl
    refine congrArg some (wrapPasses_congr rfl fun j hj t ht a => foldOctet_of_lt ?_ a)
    have hsteps := Nat.mul_le_mul_left plain.length (Nat.le_of_lt_succ (List.mem_range.mp hj))
    omega

theorem aes_wrap_43_semiblocks :
    aesWrap (some (Equiv.refl _)) (List.replicate 43 0) ≠
      some (rfc3394Wrap (Equiv.refl _) (List.replicate 43 0)) := by
  decide +kernel

end Hostapd.AesWrap
