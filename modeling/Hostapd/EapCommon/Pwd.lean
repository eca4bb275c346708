import Hostapd.Common.Defs
import Hostapd.Lib.CString
import Hostapd.Lib.Octets
import Mathlib.Algebra.Module.Defs
import Mathlib.Data.Nat.Prime.Defs
import Mathlib.Data.Nat.Size
import Mathlib.GroupTheory.OrderOfElement

/-!
# EAP-pwd: what the server and the peer share

`eap_pwd_common.c` and the parts of `eap_server_pwd.c` and `eap_pwd.c` that are alike.

* **`Curve`**: the operations of an elliptic curve group that OpenSSL provides, on points that form
  an additive group. **`Curve.Lawful`**: the group has prime order, and coordinates are read and
  written.
* **`computePasswordElement`** looks for a point that comes from the password and the identities.
* **`confirmInput`** is what a Confirm hashes, `commitText` is a Commit, `sharedKey` what both sides
  compute from it, and **`computeKeys`** the MSK and EMSK.

Numbers are as large as they have to be, `numBytes`. The source writes them at the front of a
buffer, where it hashes them (`field`), and at the end of one, where it sends them (`padded`).
-/

namespace Hostapd.Pwd

open Hostapd.Lib

/-! ## Numbers -/

/-- Source: `BN_num_bytes`. -/
def numBytes (n : ℕ) : ℕ := (n.size + 7) / 8

/-- Source: `BN_bn2bin`. -/
def bn2bin (n : ℕ) : Bytes := putBe (numBytes n) n

def field (k n : ℕ) : Bytes := overwrite (List.replicate k 0) 0 (bn2bin n)

def padded (k n : ℕ) : Bytes := overwrite (List.replicate k 0) (k - numBytes n) (bn2bin n)

@[simp] theorem length_bn2bin (n : ℕ) : (bn2bin n).length = numBytes n := length_putBe _ _

theorem lt_pow_numBytes (n : ℕ) : n < 256 ^ numBytes n := by
  have hsize : n < 2 ^ n.size := Nat.lt_size_self n
  have hpow : (256 : ℕ) ^ numBytes n = 2 ^ (8 * numBytes n) := by
    rw [pow_mul]
    rfl
  rw [hpow]
  refine Nat.lt_of_lt_of_le hsize (Nat.pow_le_pow_right Nat.two_pos ?_)
  rw [numBytes]
  omega

theorem numBytes_le {m n : ℕ} (h : m ≤ n) : numBytes m ≤ numBytes n := by
  have hsize := Nat.size_le_size h
  unfold numBytes
  omega

theorem beNat_bn2bin (n : ℕ) : beNat (bn2bin n) = n := beNat_putBe (lt_pow_numBytes n)

theorem length_field {k n : ℕ} (h : numBytes n ≤ k) : (field k n).length = k := by
  rw [field, length_overwrite, List.length_replicate]
  rw [length_bn2bin, List.length_replicate, Nat.zero_add]
  exact h

theorem length_padded {k n : ℕ} (h : numBytes n ≤ k) : (padded k n).length = k := by
  rw [padded, length_overwrite, List.length_replicate]
  rw [length_bn2bin, List.length_replicate, Nat.sub_add_cancel h]

theorem beNat_padded {k n : ℕ} (h : numBytes n ≤ k) : beNat (padded k n) = n := by
  have hzero : ∀ j l, beNat (List.replicate j 0 ++ l) = beNat l := by
    intro j l
    induction j with
    | zero => rfl
    | succ j ih => exact ih
  have hlen : (List.replicate k (0 : UInt8)).length = k := List.length_replicate
  rw [padded, overwrite, List.drop_of_length_le, List.append_nil, List.take_replicate, hzero,
    beNat_bn2bin]
  rw [hlen, length_bn2bin, Nat.sub_add_cancel h]

/-! ## The group -/

structure Curve (P : Type) where
  /-- `EC_GROUP_get_curve_GFp` -/
  prime : ℕ
  /-- `EC_GROUP_get_order` -/
  order : ℕ
  /-- `EC_GROUP_get_cofactor` -/
  cofactor : ℕ
  /-- `EC_POINT_get_affine_coordinates_GFp` -/
  coords : P → Option (ℕ × ℕ)
  /-- `EC_POINT_set_affine_coordinates_GFp` -/
  ofCoords : ℕ → ℕ → Option P
  /-- `EC_POINT_set_compressed_coordinates_GFp`, for a point on the curve -/
  ofCompressed : ℕ → Bool → Option P

section Group

variable {P : Type} [AddCommGroup P] (C : Curve P)

structure Curve.Lawful : Prop where
  orderPrime : C.order.Prime
  torsion : ∀ p : P, C.order • p = 0
  cofactorOne : C.cofactor = 1
  lengths : numBytes C.order = numBytes C.prime
  coordsZero : ∀ p : P, C.coords p = none ↔ p = 0
  coordsLt : ∀ p x y, C.coords p = some (x, y) → x < C.prime ∧ y < C.prime
  ofCoordsCoords : ∀ p x y, C.coords p = some (x, y) → C.ofCoords x y = some p
  ofCompressedNe : ∀ x odd p, C.ofCompressed x odd = some p → p ≠ 0

def Curve.primeLen : ℕ := numBytes C.prime

def Curve.orderLen : ℕ := numBytes C.order

/-- The coordinates of a point as they are hashed. -/
def pointText (p : P) : Option Bytes :=
  (C.coords p).map fun xy => field C.primeLen xy.1 ++ field C.primeLen xy.2

def scalarText (s : ℕ) : Bytes := (field C.primeLen s).take C.orderLen

/-- A point outside of the group's small subgroup. -/
def inSmallSubgroup [DecidableEq P] (p : P) : Bool := C.cofactor ≠ 1 && C.cofactor • p = 0

end Group

/-! ## The random function and the key derivation -/

def sha256DigestLength : ℕ := 32

section Hash

variable (hmac : Bytes → Bytes → Bytes)

/-- Source: `H_Init`, `H_Update` and `H_Final`. -/
def H (x : Bytes) : Bytes := hmac (List.replicate sha256DigestLength 0) x

/-- The digests from a counter on, each behind the one before. -/
def kdfDigests (key label : Bytes) (bits : ℕ) : ℕ → ℕ → Bytes → List Bytes
  | 0, _, _ => []
  | n + 1, ctr, digest =>
    let digest := hmac key (digest ++ putBe16 ctr ++ label ++ putBe16 bits)
    digest :: kdfDigests key label bits n (ctr + 1) digest

def eapPwdKdf (key label : Bytes) (bits : ℕ) : List Bytes :=
  kdfDigests hmac key label bits (((bits + 7) / 8 + 31) / 32) 1 []

/-- The result of the key derivation in a buffer, with the excess bits cleared. -/
def kdfOctets (key label : Bytes) (bits : ℕ) : Bytes :=
  match (eapPwdKdf hmac key label bits).flatten.take ((bits + 7) / 8) with
  | [] => []
  | c :: l => if bits % 8 ≠ 0 then UInt8.ofNat (c.toNat % 2 ^ (bits % 8)) :: l else c :: l

/-! ## The password element -/

section Element

variable {P : Type} [AddCommGroup P] [DecidableEq P]

def passwordCandidate (C : Curve P) (password idServer idPeer token : Bytes) (ctr : ℕ) :
    Option P :=
  let digest := H hmac (token ++ idPeer ++ idServer ++ password ++ [UInt8.ofNat ctr])
  let x := beNat (kdfOctets hmac digest (ascii "EAP-pwd Hunting And Pecking") C.prime.size)
  if C.prime ≤ x then none
  else
    match C.ofCompressed x (beNat digest % 2 = 1) with
    | none => none
    | some p =>
      if C.cofactor ≠ 1 then if C.cofactor • p = 0 then none else some (C.cofactor • p)
      else some p

/-- The password element, where the group is supported and one of eleven counters gives a point.
Source: `compute_password_element`. -/
def computePasswordElement (C : Option (Curve P)) (password idServer idPeer token : Bytes) :
    Option P :=
  match C with
  | none => none
  | some C => (List.range 11).findSome? fun i =>
      passwordCandidate hmac C password idServer idPeer token (i + 1)

theorem computePasswordElement_ne_zero {C : Curve P} (hC : C.Lawful)
    {password idServer idPeer token : Bytes} {p : P}
    (h : computePasswordElement hmac (some C) password idServer idPeer token = some p) : p ≠ 0 := by
  obtain ⟨i, -, hi⟩ := List.exists_of_findSome?_eq_some h
  rw [passwordCandidate, hC.cofactorOne] at hi
  split at hi
  · cases hi
  · split at hi
    · cases hi
    · next p' hp' =>
      rw [if_neg (not_not.mpr rfl)] at hi
      cases hi
      exact hC.ofCompressedNe _ _ _ hp'

end Element

/-! ## Commit and Confirm -/

def eapPwdDefaultRandFunc : UInt8 := 1

def eapPwdDefaultPrf : UInt8 := 1

def eapPwdPrepNone : UInt8 := 0

def eapPwdOpcodeIdExch : UInt8 := 1

def eapPwdOpcodeCommitExch : UInt8 := 2

def eapPwdOpcodeConfirmExch : UInt8 := 3

/-- A packet behind its type, and the octets that stand behind it in memory. A packet whose header
is not valid has no octets. -/
structure Packet where
  body : Bytes
  beyond : Bytes

/-- What is read from a position of the payload on. -/
def Packet.octets (pkt : Packet) : Bytes := pkt.body.drop 1 ++ pkt.beyond

inductive PwdState
  | pwdIdReq | pwdCommitReq | pwdConfirmReq | success | failure
  deriving DecidableEq

section Commit

variable {P : Type} [AddCommGroup P] [DecidableEq P] (C : Curve P)

def myScalarOf (privateValue mask : ℕ) : ℕ := (privateValue + mask) % C.order

def myElementOf (pwe : P) (mask : ℕ) : P := -(mask • pwe)

def commitText (element : P) (scalar : ℕ) : Option Bytes :=
  (C.coords element).map fun xy =>
    padded C.primeLen xy.1 ++ padded C.primeLen xy.2 ++ padded C.orderLen scalar

def elementOf (octets : Bytes) : Option P :=
  C.ofCoords (beNat (octets.take C.primeLen)) (beNat ((octets.drop C.primeLen).take C.primeLen))

def scalarOf (octets : Bytes) : ℕ :=
  beNat ((octets.drop (C.primeLen + C.primeLen)).take C.orderLen)

def sharedPoint (pwe : P) (privateValue scalar : ℕ) (element : P) : P :=
  let K := privateValue • (scalar • pwe + element)
  if C.cofactor ≠ 1 then C.cofactor • K else K

/-- The shared key, `k`. -/
def sharedKey (pwe : P) (privateValue scalar : ℕ) (element : P) : Option ℕ :=
  let K := sharedPoint C pwe privateValue scalar element
  if K = 0 then none else (C.coords K).map Prod.fst

def ciphersuite (groupNum : ℕ) : Bytes :=
  putBe16 groupNum ++ [eapPwdDefaultRandFunc, eapPwdDefaultPrf]

/-- What is hashed for a Confirm: the shared key, the Commit of its sender and that of the other
side. -/
def confirmInput (groupNum k : ℕ) (element : P) (scalar : ℕ) (element' : P) (scalar' : ℕ) :
    Option Bytes :=
  match pointText C element, pointText C element' with
  | some e, some e' =>
    some (field C.primeLen k ++ e ++ scalarText C scalar ++ e' ++ scalarText C scalar' ++
      ciphersuite groupNum)
  | _, _ => none

def eapTypePwd : UInt8 := 52

/-- What the session identifier hashes. The buffer for the scalars is not cleared: `heap` is what it
holds to begin with. -/
def sessionInput (heap : Bytes) (groupNum peerScalar serverScalar : ℕ) : Bytes :=
  let cruft := overwrite heap 0 (bn2bin peerScalar)
  let cruft' := overwrite cruft 0 (bn2bin serverScalar)
  ciphersuite groupNum ++ cruft.take C.orderLen ++ cruft'.take C.orderLen

/-- The MSK and the EMSK. Source: `compute_keys`. -/
def computeKeys (heap : Bytes) (groupNum k peerScalar serverScalar : ℕ)
    (commitPeer commitServer : Bytes) : List Bytes × List Bytes :=
  let sessionId := eapTypePwd :: H hmac (sessionInput C heap groupNum peerScalar serverScalar)
  let mk := H hmac (field C.primeLen k ++ commitPeer ++ commitServer)
  let mskEmsk := eapPwdKdf hmac mk sessionId ((64 + 64) * 8)
  (mskEmsk.take 2, mskEmsk.drop 2)

def malloc (heap : ℕ → UInt8) (len : ℕ) : Bytes := (List.range len).map heap

end Commit

end Hash

/-! ## Who has made a Confirm -/

section Earned

variable {hmac : Bytes → Bytes → Bytes}

/-- The hash of an input is earned: whatever the other side has hashed, where the hash is one of
those that were sent to it or comes from what it has hashed, it has hashed the input. -/
def Earned (hmac : Bytes → Bytes → Bytes) (sent : List Bytes) (input : Bytes) : Prop :=
  ∀ hashed : Set Bytes, (H hmac input ∈ sent ∨ ∃ x ∈ hashed, H hmac x = H hmac input) →
    input ∈ hashed

theorem earned_iff (hinj : ∀ key, Function.Injective (hmac key)) {sent : List Bytes}
    {input : Bytes} : Earned hmac sent input ↔ H hmac input ∉ sent := by
  constructor
  · intro h hsent
    exact h ∅ (Or.inl hsent)
  · rintro hsent hashed (h | ⟨x, hx, heq⟩)
    · exact absurd h hsent
    · rwa [← hinj _ heq]

end Earned

section Swap

variable {P : Type} [AddCommGroup P] {C : Curve P}

def hashedCommit (C : Curve P) (element : Option P) (scalar : Option ℕ) :
    Option Bytes × Option Bytes :=
  (element.bind (pointText C), scalar.map (scalarText C))

theorem length_pointText (hC : C.Lawful) {p : P} {e : Bytes} (h : pointText C p = some e) :
    e.length = C.primeLen + C.primeLen := by
  obtain ⟨⟨x, y⟩, hxy, rfl⟩ := Option.map_eq_some_iff.mp h
  obtain ⟨hx, hy⟩ := hC.coordsLt p x y hxy
  have hx' : numBytes x ≤ C.primeLen := numBytes_le hx.le
  have hy' : numBytes y ≤ C.primeLen := numBytes_le hy.le
  dsimp only
  rw [List.length_append, length_field hx', length_field hy']

theorem length_scalarText (hC : C.Lawful) (s : ℕ) : (scalarText C s).length = C.orderLen := by
  have hlen : C.orderLen = C.primeLen := hC.lengths
  have hfield : C.primeLen ≤ (field C.primeLen s).length := by
    simp only [field, overwrite, List.length_append, List.length_take, List.length_drop,
      List.length_replicate, length_bn2bin]
    omega
  rw [scalarText, List.length_take, hlen, Nat.min_eq_left hfield]

/-- **The two Confirms are the same hash exactly when the two Commits are hashed alike.** -/
theorem confirmInput_swap (hC : C.Lawful) {num k s s' : ℕ} {E E' : P} {x y : Bytes}
    (hx : confirmInput C num k E s E' s' = some x) (hy : confirmInput C num k E' s' E s = some y) :
    x = y ↔ hashedCommit C (some E) (some s) = hashedCommit C (some E') (some s') := by
  unfold confirmInput at hx hy
  cases he : pointText C E with
  | none =>
    rw [he] at hx
    cases hx
  | some e =>
    cases he' : pointText C E' with
    | none =>
      rw [he, he'] at hx
      cases hx
    | some e' =>
      rw [he, he'] at hx hy
      cases hx
      cases hy
      have hlen : e.length = e'.length := by
        rw [length_pointText hC he, length_pointText hC he']
      have hlen' : (scalarText C s).length = (scalarText C s').length := by
        rw [length_scalarText hC, length_scalarText hC]
      have hpieces : hashedCommit C (some E) (some s) = hashedCommit C (some E') (some s') ↔
          e = e' ∧ scalarText C s = scalarText C s' := by
        simp [hashedCommit, he, he']
      rw [hpieces]
      constructor
      · intro h
        simp only [List.append_assoc] at h
        obtain ⟨rfl, hrest⟩ := List.append_inj (List.append_cancel_left h) hlen
        exact ⟨rfl, (List.append_inj hrest hlen').1⟩
      · rintro ⟨rfl, hs⟩
        rw [hs]

end Swap

/-!
## EAP-pwd: the two Commits of a session

What the group's laws say of the values that both sides compute.

* **`sharedPoint_commit`**: from the Commit of the other side each side gets the same multiple of
  the password element, which is at infinity where a private value is zero (`nsmul_eq_zero_iff`).
* **`elementOf_commitText`**, `scalarOf_commitText`: a Commit is read back.
* **`computeKeys_eq_iff`**: two sides with the same shared key, Commits and Confirms derive the same
  keys exactly where their heaps hold the same octets behind the scalar of the peer.
-/

section Element

variable {P : Type} [AddCommGroup P] {C : Curve P} {pwe : P}

theorem nsmul_eq_zero_iff (hC : C.Lawful) (hpwe : pwe ≠ 0) {n : ℕ} :
    n • pwe = 0 ↔ C.order ∣ n := by
  have hprime : Fact C.order.Prime := ⟨hC.orderPrime⟩
  rw [← addOrderOf_dvd_iff_nsmul_eq_zero, addOrderOf_eq_prime (hC.torsion pwe) hpwe]

theorem nsmul_mod_order (hC : C.Lawful) (n : ℕ) : (n % C.order) • pwe = n • pwe := by
  conv_rhs => rw [← Nat.div_add_mod n C.order, add_nsmul, mul_nsmul, hC.torsion, nsmul_zero,
    zero_add]

theorem dvd_mod_iff (n : ℕ) (hC : C.Lawful) : C.order ∣ n % C.order ↔ n % C.order = 0 := by
  constructor
  · intro h
    exact Nat.eq_zero_of_dvd_of_lt h (Nat.mod_lt _ hC.orderPrime.pos)
  · intro h
    rw [h]
    exact dvd_zero _

/-- **The shared point**: the product of both private values times the password element. -/
theorem sharedPoint_commit (hC : C.Lawful) (r r' m' : ℕ) :
    sharedPoint C pwe r (myScalarOf C r' m') (myElementOf pwe m') = (r' * r) • pwe := by
  have hsum : myScalarOf C r' m' • pwe + myElementOf pwe m' = r' • pwe := by
    rw [myScalarOf, nsmul_mod_order hC, add_nsmul, myElementOf, add_neg_cancel_right]
  rw [sharedPoint, hC.cofactorOne, hsum, if_neg (not_not.mpr rfl), mul_nsmul]

theorem myElementOf_eq_zero_iff (hC : C.Lawful) (hpwe : pwe ≠ 0) (m : ℕ) :
    myElementOf pwe (m % C.order) = 0 ↔ m % C.order = 0 := by
  rw [myElementOf, neg_eq_zero, nsmul_eq_zero_iff hC hpwe, dvd_mod_iff m hC]

theorem sharedPoint_eq_zero_iff (hC : C.Lawful) (hpwe : pwe ≠ 0) (r r' m' : ℕ) :
    sharedPoint C pwe (r % C.order) (myScalarOf C (r' % C.order) m') (myElementOf pwe m') = 0 ↔
      r % C.order = 0 ∨ r' % C.order = 0 := by
  rw [sharedPoint_commit hC, nsmul_eq_zero_iff hC hpwe, hC.orderPrime.dvd_mul, dvd_mod_iff r hC,
    dvd_mod_iff r' hC, or_comm]

theorem numBytes_myScalarOf (hC : C.Lawful) (r m : ℕ) :
    numBytes (myScalarOf C r m) ≤ C.orderLen :=
  numBytes_le (Nat.mod_lt _ hC.orderPrime.pos).le

/-- **Both sides compute the same shared key.** -/
theorem sharedKey_commit [DecidableEq P] (hC : C.Lawful) (r m r' m' : ℕ) :
    sharedKey C pwe r (myScalarOf C r' m') (myElementOf pwe m') =
      sharedKey C pwe r' (myScalarOf C r m) (myElementOf pwe m) := by
  rw [sharedKey, sharedKey, sharedPoint_commit hC, sharedPoint_commit hC, Nat.mul_comm]

theorem sharedKey_eq_none_iff [DecidableEq P] (hC : C.Lawful) (hpwe : pwe ≠ 0) (r r' m' : ℕ) :
    sharedKey C pwe (r % C.order) (myScalarOf C (r' % C.order) m') (myElementOf pwe m') = none ↔
      r % C.order = 0 ∨ r' % C.order = 0 := by
  rw [← sharedPoint_eq_zero_iff hC hpwe r r' m', sharedKey]
  split_ifs with hzero
  · simp [hzero]
  · rw [Option.map_eq_none_iff, hC.coordsZero]

end Element

section Commit

variable {P : Type} [AddCommGroup P] {C : Curve P}

theorem commitText_eq_none_iff (hC : C.Lawful) (E : P) (s : ℕ) :
    commitText C E s = none ↔ E = 0 := by
  rw [commitText, Option.map_eq_none_iff, hC.coordsZero]

variable {commit : Bytes}

theorem commitText_eq_some (hC : C.Lawful) {E : P} {s : ℕ}
    (h : commitText C E s = some commit) : ∃ x y, C.coords E = some (x, y) ∧
      commit = padded C.primeLen x ++ padded C.primeLen y ++ padded C.orderLen s ∧
      numBytes x ≤ C.primeLen ∧ numBytes y ≤ C.primeLen := by
  obtain ⟨⟨x, y⟩, hxy, rfl⟩ := Option.map_eq_some_iff.mp h
  obtain ⟨hx, hy⟩ := hC.coordsLt E x y hxy
  exact ⟨x, y, hxy, rfl, numBytes_le hx.le, numBytes_le hy.le⟩

theorem elementOf_commitText (hC : C.Lawful) {E : P} {s : ℕ}
    (h : commitText C E s = some commit) (beyond : Bytes) :
    elementOf C (commit ++ beyond) = some E := by
  obtain ⟨x, y, hxy, rfl, hx, hy⟩ := commitText_eq_some hC h
  have hlen := length_padded hx
  simp only [elementOf, List.append_assoc]
  rw [List.take_left' hlen, List.drop_left' hlen, List.take_left' (length_padded hy),
    beNat_padded hx, beNat_padded hy]
  exact hC.ofCoordsCoords E x y hxy

theorem scalarOf_commitText (hC : C.Lawful) {E : P} {s : ℕ}
    (h : commitText C E s = some commit) (hs : numBytes s ≤ C.orderLen) (beyond : Bytes) :
    scalarOf C (commit ++ beyond) = s := by
  obtain ⟨x, y, -, rfl, hx, hy⟩ := commitText_eq_some hC h
  have hlen : (padded C.primeLen x ++ padded C.primeLen y).length = C.primeLen + C.primeLen := by
    rw [List.length_append, length_padded hx, length_padded hy]
  rw [scalarOf, List.append_assoc, List.drop_left' hlen, List.take_left' (length_padded hs),
    beNat_padded hs]

theorem exists_confirmInput (hC : C.Lawful) {E E' : P} (hE : E ≠ 0) (hE' : E' ≠ 0)
    (num k s s' : ℕ) : ∃ x, confirmInput C num k E s E' s' = some x := by
  have htext : ∀ p : P, p ≠ 0 → ∃ e, pointText C p = some e := by
    intro p hp
    rw [← Option.ne_none_iff_exists', ne_eq, pointText, Option.map_eq_none_iff, hC.coordsZero]
    exact hp
  obtain ⟨e, he⟩ := htext E hE
  obtain ⟨e', he'⟩ := htext E' hE'
  rw [confirmInput, he, he']
  exact ⟨_, rfl⟩

end Commit

section Keys

variable {P : Type} {C : Curve P} {hmac : Bytes → Bytes → Bytes}

theorem overwrite_malloc (heap : ℕ → UInt8) (len : ℕ) (data : Bytes) :
    overwrite (malloc heap len) 0 data = data ++ (malloc heap len).drop data.length := by
  rw [overwrite, List.take_zero, List.nil_append, Nat.zero_add]

variable {heap heap' : ℕ → UInt8}

theorem drop_malloc_eq_iff {len n : ℕ} :
    (malloc heap len).drop n = (malloc heap' len).drop n ↔
      ∀ i, n ≤ i → i < len → heap i = heap' i := by
  rw [malloc, malloc, ← List.map_drop, ← List.map_drop, List.map_inj_left, List.range_eq_range',
    List.drop_range']
  refine ⟨fun h i hn hlen => h i ?_, fun h i hi => ?_⟩
  · rw [List.mem_range'_1]
    omega
  · rw [List.mem_range'_1] at hi
    exact h i (by omega) (by omega)

/-- Two sides hash the same for the session identifier exactly where their heaps hold the same
octets behind the scalar of the peer. -/
theorem sessionInput_eq_iff {num s s' : ℕ}
    (hlen : C.orderLen = C.primeLen) (hs : numBytes s ≤ C.orderLen) :
    sessionInput C (malloc heap C.primeLen) num s s' =
        sessionInput C (malloc heap' C.primeLen) num s s' ↔
      ∀ i, numBytes s ≤ i → i < C.orderLen → heap i = heap' i := by
  have hfirst : ∀ heap, (overwrite (malloc heap C.primeLen) 0 (bn2bin s)).length = C.orderLen := by
    intro heap
    rw [length_overwrite]
    · simp [malloc, hlen]
    · simpa [malloc, hlen] using hlen ▸ hs
  have hcruft : overwrite (malloc heap C.primeLen) 0 (bn2bin s) =
      overwrite (malloc heap' C.primeLen) 0 (bn2bin s) ↔
        ∀ i, numBytes s ≤ i → i < C.orderLen → heap i = heap' i := by
    rw [overwrite_malloc, overwrite_malloc, List.append_cancel_left_eq, length_bn2bin,
      drop_malloc_eq_iff, hlen]
  rw [← hcruft]
  constructor
  · intro h
    have hlengths : (ciphersuite num ++
        (overwrite (malloc heap C.primeLen) 0 (bn2bin s)).take C.orderLen).length =
        (ciphersuite num ++
          (overwrite (malloc heap' C.primeLen) 0 (bn2bin s)).take C.orderLen).length := by
      rw [List.length_append, List.length_append, List.length_take, List.length_take,
        hfirst, hfirst]
    have htake := List.append_cancel_left (List.append_inj h hlengths).1
    rwa [List.take_of_length_le (hfirst heap).le, List.take_of_length_le (hfirst heap').le]
      at htake
  · intro h
    rw [sessionInput, sessionInput, h]

/-- **Both sides derive the same keys exactly where their heaps hold the same octets behind the
scalar of the peer.** -/
theorem computeKeys_eq_iff (hinj : ∀ key, Function.Injective (hmac key))
    {num k s s' : ℕ} {commitPeer commitServer : Bytes}
    (hlen : C.orderLen = C.primeLen) (hs : numBytes s ≤ C.orderLen) :
    computeKeys hmac C (malloc heap C.primeLen) num k s s' commitPeer commitServer =
        computeKeys hmac C (malloc heap' C.primeLen) num k s s' commitPeer commitServer ↔
      ∀ i, numBytes s ≤ i → i < C.orderLen → heap i = heap' i := by
  rw [← @sessionInput_eq_iff _ C _ _ num s s' hlen hs]
  constructor
  · intro h
    -- the first digest of the MSK has hashed the session identifier
    have hmsk := (Prod.mk.inj h).1
    have hdigest := hinj _ (List.cons.inj hmsk).1
    have hid := List.append_cancel_left (List.append_cancel_right hdigest)
    exact hinj _ (List.cons.inj hid).2
  · intro h
    rw [computeKeys, computeKeys, h]

end Keys

end Hostapd.Pwd
