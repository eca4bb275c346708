import Mathlib.Data.BitVec
import Mathlib.Tactic

/-!
# OMAC1 of a vector

`aes-omac1.c`. A block of 16 octets is a number of 128 bits, the octet 0 on top.

`omac1_aes_128_vector` goes on to the next element right after the last octet of one: it reads
`addr[e]` and `len[e]`, also when there is no element `e`, and then takes an octet of that element,
also when it is empty.

* **`gfMulx_eq`**: the loop over the octets doubles in the field.
* **`vector_eq`**: the function is the CMAC of the octets it reads.
* **`Closed`**: the vectors whose reads all stay inside.
* **`omac1_vector_iff`**: the vectors for which the function does what it is for.
-/

namespace Hostapd.Omac1

/-! ## Blocks -/

abbrev Block := BitVec 128

/-- The bit of a block at which its octet `i` begins. -/
def place (i : ℕ) : ℕ := 8 * (15 - i)

def octet (x : Block) (i : ℕ) : BitVec 8 := x.extractLsb' (place i) 8

def setOctet (x : Block) (i : ℕ) (o : BitVec 8) : Block :=
  x &&& ~~~ ((255 : Block) <<< place i) ||| o.setWidth 128 <<< place i

/-- `x[i] ^= o`. -/
def xorOctet (x : Block) (i : ℕ) (o : BitVec 8) : Block := x ^^^ o.setWidth 128 <<< place i

/-- Octets from index `i` on, with zeros around them. -/
def octetsAt : ℕ → List UInt8 → Block
  | _, [] => 0
  | i, o :: l => o.toBitVec.setWidth 128 <<< place i ^^^ octetsAt (i + 1) l

/-- A round of the loop in `gf_mulx`. -/
def shiftOctet (pad : Block) (i : ℕ) : Block :=
  setOctet pad i (octet pad i <<< 1 ||| octet pad (i + 1) >>> 7)

/-- Source: `gf_mulx`. -/
def gfMulx (pad : Block) : Block :=
  let shifted := (List.range 15).foldl shiftOctet pad
  let shifted := setOctet shifted 15 (octet shifted 15 <<< 1)
  if octet pad 0 &&& 0x80 ≠ 0 then xorOctet shifted 15 0x87 else shifted

/-! ## The function -/

/-- What is left of the current element, and the elements behind it. -/
abbrev Cursor := List UInt8 × List (List UInt8)

/-- `*pos++`, and the next element if this one is used up; `none` is a read outside. -/
def readOctet : Cursor → Option (UInt8 × Cursor)
  | ([], _) => none
  | ([b], e) => e.head?.map fun x => (b, x, e.tail)
  | (b :: c :: rest, e) => some (b, c :: rest, e)

/-- A loop over `cbc[i] ^= *pos++`, with `k` rounds from index `i` on. -/
def absorb : ℕ → ℕ → Cursor → Block → Option (Block × Cursor)
  | 0, _, c, cbc => some (cbc, c)
  | k + 1, i, c, cbc => do
    let (b, c) ← readOctet c
    absorb k (i + 1) c (xorOctet cbc i b.toBitVec)

variable (aes : Block → Block)

/-- The loop over whole blocks, and what is left behind it. -/
def blocks (left : ℕ) (c : Cursor) (cbc : Block) : Option (Block × Cursor × ℕ) :=
  if 16 ≤ left then do
    let (cbc, c) ← absorb 16 0 c cbc
    blocks (left - 16) c (if 16 < left then aes cbc else cbc)
  else some (cbc, c, left)
  termination_by left

/-- Source: `omac1_aes_128_vector`, behind the loop over whole blocks. -/
def finish (total : ℕ) (cbc : Block) (c : Cursor) (left : ℕ) : Option Block :=
  let pad := gfMulx (aes 0)
  if left ≠ 0 ∨ total = 0 then do
    let (cbc, _) ← absorb left 0 c cbc
    some (aes (gfMulx pad ^^^ xorOctet cbc left 0x80))
  else some (aes (pad ^^^ cbc))

/-- Source: `omac1_aes_128_vector`; `ctx` is what `aes_encrypt_init` returns for the key. A read
outside is `none`, a return value of -1 `some none`. -/
def omac1Aes128Vector (ctx : Option (Block → Block)) (elems : List (List UInt8)) :
    Option (Option Block) :=
  match ctx with
  | none => some none
  | some aes => do
    let total := (elems.map List.length).sum
    let addr ← elems.head?
    let (cbc, c, left) ← blocks aes total (addr, elems.tail) 0
    (finish aes total cbc c left).map some

/-! ## CMAC -/

def double (x : Block) : Block := if x.msb then (x <<< 1) ^^^ 0x87 else x <<< 1

/-- The CMAC of RFC 4493 behind the chaining value `x`. -/
def cmacFrom (x : Block) (msg : List UInt8) : Block :=
  if 16 < msg.length then cmacFrom (aes (x ^^^ octetsAt 0 (msg.take 16))) (msg.drop 16)
  else if msg.length = 16 then aes (x ^^^ octetsAt 0 msg ^^^ double (aes 0))
  else aes (x ^^^ octetsAt 0 (msg ++ [0x80]) ^^^ double (double (aes 0)))
  termination_by msg.length
  decreasing_by simp; omega

def cmac (msg : List UInt8) : Block := cmacFrom aes 0 msg

/-! ## Doubling by octets -/

theorem getLsbD_255 (m : ℕ) : (255 : Block).getLsbD m = decide (m < 8) := by
  have hones : (255 : Block) = (BitVec.allOnes 8).setWidth 128 := by decide
  rw [hones, BitVec.getLsbD_setWidth, BitVec.getLsbD_allOnes]
  by_cases hm : m < 8
  · simp [hm, show m < 128 by omega]
  · simp [hm]

theorem getLsbD_setOctet (x : Block) (i : ℕ) (o : BitVec 8) {k : ℕ} (hk : k < 128) :
    (setOctet x i o).getLsbD k =
      if place i ≤ k ∧ k < place i + 8 then o.getLsbD (k - place i) else x.getLsbD k := by
  unfold setOctet
  rw [BitVec.getLsbD_or, BitVec.getLsbD_and, BitVec.getLsbD_not, BitVec.getLsbD_shiftLeft,
    BitVec.getLsbD_shiftLeft, getLsbD_255, BitVec.getLsbD_setWidth]
  by_cases hlow : k < place i
  · simp [hk, hlow, not_le.mpr hlow]
  · by_cases hhigh : k < place i + 8
    · simp [hk, hlow, hhigh, not_lt.mp hlow, show k - place i < 8 by omega,
        show k - place i < 128 by omega]
    · simp [hk, hhigh, show ¬ k - place i < 8 by omega,
        BitVec.getLsbD_of_ge o (k - place i) (by omega)]

theorem getLsbD_shiftOctet (x : Block) {i : ℕ} (hi : i < 15) {k : ℕ} (hk : k < 128) :
    (shiftOctet x i).getLsbD k =
      if place i ≤ k ∧ k < place i + 8 then x.getLsbD (k - 1) else x.getLsbD k := by
  unfold shiftOctet
  rw [getLsbD_setOctet x i _ hk]
  refine if_ctx_congr Iff.rfl (fun hin => ?_) fun _ => rfl
  have hplace : place i = place (i + 1) + 8 := by unfold place; omega
  have hpos : 8 ≤ place i := by omega
  rw [BitVec.getLsbD_or, BitVec.getLsbD_shiftLeft, BitVec.getLsbD_ushiftRight, octet, octet,
    BitVec.getLsbD_extractLsb', BitVec.getLsbD_extractLsb']
  by_cases hfirst : k = place i
  · subst hfirst
    simp [hplace]
  · have hback : place i + (k - place i - 1) = k - 1 := by omega
    simp [hback, show k - place i < 8 by omega, show ¬ k - place i < 1 by omega,
      show k - place i - 1 < 8 by omega, show ¬ 7 + (k - place i) < 8 by omega]

theorem getLsbD_shifted (x : Block) {n : ℕ} (hn : n ≤ 15) {k : ℕ} (hk : k < 128) :
    ((List.range n).foldl shiftOctet x).getLsbD k =
      if 8 * (16 - n) ≤ k then x.getLsbD (k - 1) else x.getLsbD k := by
  induction n generalizing k with
  | zero => simp [show ¬ 128 ≤ k by omega]
  | succ n ih =>
    rw [List.range_succ, List.foldl_append, List.foldl_cons, List.foldl_nil,
      getLsbD_shiftOctet _ (by omega) hk, ih (by omega) hk, ih (by omega) (by omega)]
    unfold place
    split_ifs <;> first | rfl | omega

theorem and_0x80_ne_zero_iff : ∀ o : BitVec 8, o &&& 0x80 ≠ 0 ↔ o.getLsbD 7 = true := by decide

theorem gfMulx_eq (x : Block) : gfMulx x = double x := by
  have hshift : setOctet ((List.range 15).foldl shiftOctet x) 15
      (octet ((List.range 15).foldl shiftOctet x) 15 <<< 1) = x <<< 1 := by
    apply BitVec.eq_of_getLsbD_eq
    intro k hk
    rw [getLsbD_setOctet _ _ _ hk, BitVec.getLsbD_shiftLeft, BitVec.getLsbD_shiftLeft, octet,
      BitVec.getLsbD_extractLsb', getLsbD_shifted x le_rfl hk]
    have hplace : place 15 = 0 := rfl
    rw [hplace]
    by_cases hlast : k < 8
    · rw [getLsbD_shifted x le_rfl (by omega)]
      by_cases hzero : k < 1
      · simp [hzero, hlast]
      · simp [hzero, hlast, hk, show k - 1 < 8 by omega, show ¬ 8 ≤ k - 1 by omega]
    · simp [hlast, hk, show 8 ≤ k by omega, show ¬ k < 1 by omega]
  have hmsb : octet x 0 &&& 0x80 ≠ 0 ↔ x.msb = true := by
    rw [and_0x80_ne_zero_iff, octet, BitVec.getLsbD_extractLsb', BitVec.msb_eq_getLsbD_last]
    simp [place]
  unfold gfMulx double xorOctet
  dsimp only
  rw [hshift]
  by_cases h : x.msb = true
  · rw [if_pos (hmsb.mpr h), if_pos h]
    rfl
  · rw [if_neg (hmsb.not.mpr h), if_neg h]

/-! ## Reading -/

/-- The octets of `n` reads. -/
def readOctets : ℕ → Cursor → Option (List UInt8 × Cursor)
  | 0, c => some ([], c)
  | n + 1, c => do
    let (b, c) ← readOctet c
    let (l, c) ← readOctets n c
    some (b :: l, c)

theorem absorb_eq (k i : ℕ) (c : Cursor) (cbc : Block) :
    absorb k i c cbc = (readOctets k c).map fun r => (cbc ^^^ octetsAt i r.1, r.2) := by
  induction k generalizing i c cbc with
  | zero => simp [absorb, readOctets, octetsAt]
  | succ k ih =>
    cases h : readOctet c with
    | none => simp [absorb, readOctets, h]
    | some r =>
      simp only [absorb, readOctets, h, Option.bind_eq_bind, Option.bind_some]
      rw [ih]
      cases readOctets k r.2 with
      | none => rfl
      | some s => simp [xorOctet, octetsAt, BitVec.xor_assoc]

theorem length_readOctets {n : ℕ} {c : Cursor} {r : List UInt8 × Cursor}
    (h : readOctets n c = some r) : r.1.length = n := by
  induction n generalizing c r with
  | zero =>
    obtain rfl := Option.some.inj h
    rfl
  | succ n ih =>
    simp only [readOctets, Option.bind_eq_bind, Option.bind_eq_some_iff] at h
    obtain ⟨r, -, s, hs, heq⟩ := h
    obtain rfl := Option.some.inj heq
    exact congrArg (· + 1) (ih hs)

theorem readOctets_add (m n : ℕ) (c : Cursor) : readOctets (m + n) c =
    (readOctets m c).bind fun r => (readOctets n r.2).map fun s => (r.1 ++ s.1, s.2) := by
  induction m generalizing c with
  | zero => simp [readOctets]
  | succ m ih =>
    rw [Nat.succ_add]
    cases h : readOctet c with
    | none => simp [readOctets, h]
    | some r =>
      simp only [readOctets, h, Option.bind_eq_bind, Option.bind_some]
      rw [ih]
      cases readOctets m r.2 with
      | none => rfl
      | some s => cases hs : readOctets n s.2 <;> simp [hs]

theorem octetsAt_append (i : ℕ) (l l' : List UInt8) :
    octetsAt i (l ++ l') = octetsAt i l ^^^ octetsAt (i + l.length) l' := by
  induction l generalizing i with
  | nil => simp [octetsAt]
  | cons b l ih =>
    rw [List.cons_append, octetsAt, ih, octetsAt, BitVec.xor_assoc, List.length_cons,
      Nat.add_assoc, Nat.add_comm 1]

variable {aes}

theorem cmacFrom_part {msg : List UInt8} (h : msg.length < 16) (x : Block) : cmacFrom aes x msg =
    aes (x ^^^ octetsAt 0 msg ^^^ octetsAt msg.length [0x80] ^^^ double (double (aes 0))) := by
  rw [cmacFrom, if_neg (by omega), if_neg (by omega), octetsAt_append, Nat.zero_add,
    ← BitVec.xor_assoc x]

theorem cmacFrom_last {msg : List UInt8} (h : msg.length = 16) (x : Block) :
    cmacFrom aes x msg = aes (x ^^^ octetsAt 0 msg ^^^ double (aes 0)) := by
  rw [cmacFrom, if_neg (by omega), if_pos h]

theorem cmacFrom_append {l msg : List UInt8} (hl : l.length = 16) (hmsg : msg ≠ []) (x : Block) :
    cmacFrom aes x (l ++ msg) = cmacFrom aes (aes (x ^^^ octetsAt 0 l)) msg := by
  have hpos : 0 < msg.length := List.length_pos_iff.mpr hmsg
  rw [cmacFrom, if_pos (by rw [List.length_append]; omega), List.take_left' hl,
    List.drop_left' hl]

theorem finish_part {left total : ℕ} (hpart : left < 16) (htotal : left ≠ 0 ∨ total = 0) (x : Block)
    (c : Cursor) :
    finish aes total x c left = (readOctets left c).map fun r => cmacFrom aes x r.1 := by
  unfold finish
  rw [if_pos htotal, absorb_eq, gfMulx_eq, gfMulx_eq]
  cases h : readOctets left c with
  | none => rfl
  | some r =>
    have hlen := length_readOctets h
    have hpad : xorOctet (x ^^^ octetsAt 0 r.1) left 0x80 =
        x ^^^ octetsAt 0 r.1 ^^^ octetsAt left [0x80] := by
      simp [xorOctet, octetsAt]
    rw [Option.map_some, Option.map_some, Option.bind_eq_bind, Option.bind_some,
      cmacFrom_part (hlen.trans_lt hpart), hlen, ← hpad]
    exact congrArg (some ∘ aes) (BitVec.xor_comm _ _)

theorem finish_blocks {total : ℕ} (htotal : total ≠ 0) (left : ℕ) (hleft : left ≠ 0) (x : Block)
    (c : Cursor) : ((blocks aes left c x).bind fun r => finish aes total r.1 r.2.1 r.2.2) =
      (readOctets left c).map fun r => cmacFrom aes x r.1 := by
  induction left using Nat.strong_induction_on generalizing x c with
  | _ left ih =>
    rw [blocks]
    by_cases hpart : left < 16
    · rw [if_neg (not_le.mpr hpart), Option.bind_some]
      exact finish_part hpart (.inl hleft) x c
    · obtain ⟨n, rfl⟩ : ∃ n, left = 16 + n := ⟨left - 16, by omega⟩
      rw [if_pos (not_lt.mp hpart), absorb_eq, readOctets_add, Nat.add_sub_cancel_left]
      cases h : readOctets 16 c with
      | none => rfl
      | some r =>
        have hlen := length_readOctets h
        rw [Option.map_some, Option.bind_eq_bind, Option.bind_some, Option.bind_some,
          Option.map_map]
        dsimp only
        cases n with
        | zero =>
          have hmac : finish aes total (x ^^^ octetsAt 0 r.1) r.2 0 =
              some (aes (double (aes 0) ^^^ (x ^^^ octetsAt 0 r.1))) := by
            unfold finish
            rw [if_neg (by simp [htotal]), gfMulx_eq]
          rw [blocks, if_neg (by decide), Option.bind_some, if_neg (by decide), hmac,
            BitVec.xor_comm]
          simp [readOctets, cmacFrom_last hlen]
        | succ n =>
          rw [if_pos (by omega), ih (n + 1) (by omega) (by omega)]
          cases hs : readOctets (n + 1) r.2 with
          | none => rfl
          | some s =>
            have hne : s.1 ≠ [] := List.ne_nil_of_length_eq_add_one (length_readOctets hs)
            rw [Option.map_some, Option.map_some, Function.comp_apply, cmacFrom_append hlen hne]

theorem vector_eq (x : List UInt8) (e : List (List UInt8)) :
    omac1Aes128Vector (some aes) (x :: e) =
      (readOctets (x :: e).flatten.length (x, e)).map fun r => some (cmac aes r.1) := by
  unfold omac1Aes128Vector cmac
  dsimp only [List.head?_cons, List.tail_cons]
  rw [← List.length_flatten]
  have hmac : ((blocks aes (x :: e).flatten.length (x, e) 0).bind fun r =>
      finish aes (x :: e).flatten.length r.1 r.2.1 r.2.2) =
      (readOctets (x :: e).flatten.length (x, e)).map fun r => cmacFrom aes 0 r.1 := by
    by_cases htotal : (x :: e).flatten.length = 0
    · rw [htotal, blocks, if_neg (by decide), Option.bind_some]
      exact finish_part (Nat.zero_lt_succ 15) (.inr rfl) 0 (x, e)
    · exact finish_blocks htotal _ htotal 0 (x, e)
  have hmac' := congrArg (Option.map some) hmac
  rw [Option.map_bind, Option.map_map] at hmac'
  exact hmac'

/-! ## Where the reads stay inside -/

/-- There is an empty element, and all behind it are empty. -/
def Closed : List (List UInt8) → Prop
  | [] => False
  | [] :: e => ∀ x ∈ e, x = []
  | (_ :: _) :: e => Closed e

theorem closed_of_flatten {x : List UInt8} {e : List (List UInt8)} (h : (x :: e).flatten = []) :
    Closed (x :: e) := by
  rw [List.flatten_eq_nil_iff] at h
  obtain rfl := h x List.mem_cons_self
  exact fun y hy => h y (List.mem_cons_of_mem _ hy)

theorem closed_of_readOctets {x : List UInt8} {e : List (List UInt8)} {r : List UInt8 × Cursor}
    {n : ℕ} (hn : (x :: e).flatten.length = n) (h : readOctets n (x, e) = some r) :
    Closed (x :: e) := by
  induction n generalizing x e r with
  | zero => exact closed_of_flatten (List.length_eq_zero_iff.mp hn)
  | succ n ih =>
    simp only [readOctets, Option.bind_eq_bind, Option.bind_eq_some_iff] at h
    obtain ⟨s, hs, u, hu, -⟩ := h
    match x, e with
    | [], _ => cases hs
    | [_], [] => cases hs
    | [b], y :: e =>
      obtain rfl := Option.some.inj hs
      exact ih (x := y) (e := e) (by simpa using hn) hu
    | b :: c :: rest, e =>
      obtain rfl := Option.some.inj hs
      exact ih (x := c :: rest) (by simpa using hn) hu

theorem readOctets_of_closed {x : List UInt8} {e : List (List UInt8)} {n : ℕ}
    (hn : (x :: e).flatten.length = n) (h : Closed (x :: e)) :
    ∃ c, readOctets n (x, e) = some ((x :: e).flatten, c) := by
  induction n generalizing x e with
  | zero => exact ⟨(x, e), by rw [List.length_eq_zero_iff.mp hn, readOctets]⟩
  | succ n ih =>
    match x, e with
    | [], e =>
      have hnil : ([] :: e).flatten = [] := List.flatten_eq_nil_iff.mpr fun y hy =>
        (List.mem_cons.mp hy).elim id (h y)
      rw [hnil] at hn
      cases hn
    | [_], [] => exact h.elim
    | [b], y :: e =>
      obtain ⟨c, hc⟩ := ih (x := y) (e := e) (by simpa using hn) h
      exact ⟨c, by simp [readOctets, readOctet, hc]⟩
    | b :: d :: rest, e =>
      obtain ⟨c, hc⟩ := ih (x := d :: rest) (e := e) (by simpa using hn) h
      exact ⟨c, by simp [readOctets, readOctet, hc]⟩

/-! ## The vectors -/

/-- The function returns the CMAC of all octets, with all reads inside, exactly for the vectors that
have an empty element and no octets behind one. -/
theorem omac1_vector_iff (aes : Block → Block) (elems : List (List UInt8)) :
    omac1Aes128Vector (some aes) elems = some (some (cmac aes elems.flatten)) ↔ Closed elems := by
  cases elems with
  | nil => exact ⟨nofun, False.elim⟩
  | cons x e =>
    rw [vector_eq]
    constructor
    · intro h
      obtain ⟨r, hr, -⟩ := Option.map_eq_some_iff.mp h
      exact closed_of_readOctets rfl hr
    · intro h
      obtain ⟨c, hc⟩ := readOctets_of_closed rfl h
      rw [hc, Option.map_some]

/-- A single octet, as `omac1_aes_128` passes it. -/
theorem omac1_single_overread :
    omac1Aes128Vector (some id) [[0x61]] ≠ some (some (cmac id [[0x61]].flatten)) := by
  rw [vector_eq]
  exact nofun

end Hostapd.Omac1
