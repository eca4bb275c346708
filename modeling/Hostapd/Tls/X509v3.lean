import Hostapd.Tls.Pkcs1
import Hostapd.Lib.CString

/-!
# X.509 certificates

`x509v3.c`: the names and the certificates that chain validation reads, the comparison of names,
and the check of a signature. The hashes and the modular exponentiation are parameters.

* **`x509NameCompare`**, with `X509Name.Same`: what names it finds equal.
* **`x509CertificateCheckSignature`**, with its parts `signatureDigest` (the digest algorithm that
  goes with the algorithm of the signature), `recoveredData` (what the public operation yields) and
  `digestOf` (the digest in it).
-/

namespace Hostapd.Tls

open Hostapd.Lib

/-! ## Names -/

inductive X509NameAttrType
  | notUsed | dc | cn | c | l | st | o | ou
  deriving DecidableEq

def X509NameAttrType.code : X509NameAttrType → ℕ
  | .notUsed => 0
  | .dc => 1
  | .cn => 2
  | .c => 3
  | .l => 4
  | .st => 5
  | .o => 6
  | .ou => 7

theorem X509NameAttrType.code_injective : Function.Injective X509NameAttrType.code := by
  intro a b h
  cases a <;> cases b <;> first | rfl | cases h

abbrev CString := {s : Bytes // 0 ∉ s}

/-- Source: `struct x509_name_attr`; `value` is missing where the pointer is `NULL`. -/
structure X509NameAttr where
  type : X509NameAttrType
  value : Option CString
  deriving DecidableEq

/-- Source: `struct x509_name`, what a comparison reads of it. -/
structure X509Name where
  attr : List X509NameAttr
  email : Option CString
  deriving DecidableEq

/-- Whether there is memory for a copy of a string, and for a buffer. -/
structure X509Alloc where
  strdup : Bytes → Bool
  malloc : ℕ → Bool

def X509Alloc.ample : X509Alloc := ⟨fun _ => true, fun _ => true⟩

/-- The string without white space in front and with one white space for several, where the
octet before was white space if `remove` is set. -/
def stripFrom : Bool → Bytes → Bytes
  | _, [] => []
  | remove, c :: l => if remove && isblank c then stripFrom true l else c :: stripFrom (isblank c) l

def x509StrStripWhitespace (a : Bytes) : Bytes :=
  let out := stripFrom true a
  if 2 ≤ out.length ∧ out.getLast?.any isblank then out.dropLast else out

/-- The difference of the first characters that differ, in lower case. -/
def osStrcasecmp : Bytes → Bytes → ℤ
  | [], [] => 0
  | [], b :: _ => -((tolower b).toNat : ℤ)
  | a :: _, [] => (tolower a).toNat
  | a :: s, b :: t =>
    if tolower a = tolower b then osStrcasecmp s t else (tolower a).toNat - (tolower b).toNat

def x509StrCompare (alloc : X509Alloc) : Option CString → Option CString → ℤ
  | none, some _ => -1
  | some _, none => 1
  | none, none => 0
  | some a, some b =>
    if alloc.strdup a && alloc.strdup b then
      osStrcasecmp (x509StrStripWhitespace a) (x509StrStripWhitespace b)
    else osStrcasecmp a b

/-- The attributes of two names of the same number of them. -/
def x509AttrsCompare (alloc : X509Alloc) : List X509NameAttr → List X509NameAttr → ℤ
  | a :: as, b :: bs =>
    if a.type.code < b.type.code then -1
    else if b.type.code < a.type.code then -1
    else
      let res := x509StrCompare alloc a.value b.value
      if res ≠ 0 then res else x509AttrsCompare alloc as bs
  | _, _ => 0

def x509NameCompare (alloc : X509Alloc) (a b : X509Name) : ℤ :=
  if a.attr.length < b.attr.length then -1
  else if b.attr.length < a.attr.length then 1
  else
    let res := x509AttrsCompare alloc a.attr b.attr
    if res ≠ 0 then res else x509StrCompare alloc a.email b.email

/-- What two strings have in common that are found equal. -/
def CString.canonical (s : CString) : Bytes := (x509StrStripWhitespace s).map tolower

/-- The names have the same types of attributes, with values that are the same up to case and white
space, and such an address. -/
def X509Name.Same (a b : X509Name) : Prop :=
  a.attr.map (fun x => (x.type, x.value.map CString.canonical)) =
      b.attr.map (fun x => (x.type, x.value.map CString.canonical)) ∧
    a.email.map CString.canonical = b.email.map CString.canonical

instance (a b : X509Name) : Decidable (a.Same b) := inferInstanceAs (Decidable (_ ∧ _))

theorem tolower_ne_zero {b : UInt8} (h : b ≠ 0) : tolower b ≠ 0 := by
  unfold tolower
  split
  · rename_i hupper
    intro hz
    have hnat := congrArg UInt8.toNat hz
    simp only [Bool.and_eq_true, decide_eq_true_eq, UInt8.le_iff_toNat_le, UInt8.toNat_add,
      UInt8.reduceToNat] at hupper hnat
    omega
  · exact h

theorem isblank_tolower (b : UInt8) : isblank (tolower b) = isblank b := by
  unfold tolower
  split
  · rename_i hupper
    simp only [Bool.and_eq_true, decide_eq_true_eq, UInt8.le_iff_toNat_le, UInt8.reduceToNat]
      at hupper
    have hne {c : UInt8} (hc : c.toNat < 0x41) : b ≠ c ∧ b + 0x20 ≠ c := by
      refine ⟨fun h => ?_, fun h => ?_⟩
      · rw [h] at hupper
        omega
      · have hnat := congrArg UInt8.toNat h
        simp only [UInt8.toNat_add, UInt8.reduceToNat] at hnat
        omega
    simp [isblank, hne (show (0x20 : UInt8).toNat < 0x41 by decide),
      hne (show (0x09 : UInt8).toNat < 0x41 by decide)]
  · rfl

theorem osStrcasecmp_eq_zero_iff {s t : Bytes} (hs : 0 ∉ s) (ht : 0 ∉ t) :
    osStrcasecmp s t = 0 ↔ s.map tolower = t.map tolower := by
  induction s generalizing t with
  | nil =>
    cases t with
    | nil => simp [osStrcasecmp]
    | cons b t =>
      have hb : tolower b ≠ 0 := tolower_ne_zero fun h => ht (h ▸ List.mem_cons_self)
      have hnat : (tolower b).toNat ≠ 0 := fun h => hb (UInt8.toNat.inj h)
      simp only [osStrcasecmp, List.map_nil, List.map_cons]
      constructor
      · intro h
        omega
      · intro h
        cases h
  | cons a s ih =>
    cases t with
    | nil =>
      have ha : tolower a ≠ 0 := tolower_ne_zero fun h => hs (h ▸ List.mem_cons_self)
      have hnat : (tolower a).toNat ≠ 0 := fun h => ha (UInt8.toNat.inj h)
      simp only [osStrcasecmp, List.map_nil, List.map_cons]
      constructor
      · intro h
        omega
      · intro h
        cases h
    | cons b t =>
      rw [osStrcasecmp]
      split_ifs with hab
      · rw [ih (fun h => hs (List.mem_cons_of_mem a h)) fun h => ht (List.mem_cons_of_mem b h)]
        simp [hab]
      · have hnat : (tolower a).toNat ≠ (tolower b).toNat := fun h => hab (UInt8.toNat.inj h)
        simp only [List.map_cons, List.cons.injEq, hab, false_and, iff_false]
        omega

theorem map_stripFrom (remove : Bool) (s : Bytes) :
    (stripFrom remove s).map tolower = stripFrom remove (s.map tolower) := by
  induction s generalizing remove with
  | nil => rfl
  | cons c s ih =>
    simp only [stripFrom, List.map_cons, isblank_tolower]
    split_ifs
    · exact ih true
    · rw [List.map_cons, ih]

theorem map_strip (s : Bytes) :
    (x509StrStripWhitespace s).map tolower = x509StrStripWhitespace (s.map tolower) := by
  have hlast : ((stripFrom true s).map tolower).getLast?.any isblank =
      (stripFrom true s).getLast?.any isblank := by
    rw [List.getLast?_map]
    cases (stripFrom true s).getLast? <;> simp [isblank_tolower]
  simp only [x509StrStripWhitespace, ← map_stripFrom, hlast, List.length_map]
  split_ifs
  · exact List.map_dropLast
  · rfl

theorem mem_stripFrom {remove : Bool} {s : Bytes} {b : UInt8} (h : b ∈ stripFrom remove s) :
    b ∈ s := by
  induction s generalizing remove with
  | nil => exact h
  | cons c s ih =>
    rw [stripFrom] at h
    split_ifs at h
    · exact List.mem_cons_of_mem c (ih h)
    · rcases List.mem_cons.mp h with rfl | h
      · exact List.mem_cons_self
      · exact List.mem_cons_of_mem c (ih h)

theorem mem_strip {s : Bytes} {b : UInt8} (h : b ∈ x509StrStripWhitespace s) : b ∈ s := by
  simp only [x509StrStripWhitespace] at h
  split_ifs at h
  · exact mem_stripFrom (List.dropLast_subset _ h)
  · exact mem_stripFrom h

variable {alloc : X509Alloc}

theorem x509StrCompare_sound {a b : Option CString}
    (h : x509StrCompare alloc a b = 0) : a.map CString.canonical = b.map CString.canonical := by
  cases a with
  | none =>
    cases b with
    | none => rfl
    | some b => cases h
  | some a =>
    cases b with
    | none => cases h
    | some b =>
      rw [x509StrCompare] at h
      refine congrArg some ?_
      split_ifs at h
      · exact (osStrcasecmp_eq_zero_iff (fun h => a.2 (mem_strip h)) fun h => b.2 (mem_strip h)).mp h
      · have hsame := (osStrcasecmp_eq_zero_iff a.2 b.2).mp h
        rw [CString.canonical, CString.canonical, map_strip, map_strip, hsame]

theorem x509AttrsCompare_sound {as bs : List X509NameAttr}
    (hlen : as.length = bs.length) (h : x509AttrsCompare alloc as bs = 0) :
    as.map (fun x => (x.type, x.value.map CString.canonical)) =
      bs.map (fun x => (x.type, x.value.map CString.canonical)) := by
  induction as generalizing bs with
  | nil =>
    obtain rfl : bs = [] := List.length_eq_zero_iff.mp hlen.symm
    rfl
  | cons a as ih =>
    cases bs with
    | nil => cases hlen
    | cons b bs =>
      simp only [x509AttrsCompare] at h
      split_ifs at h with hlt hgt hne
      · exact absurd h hne
      · have htype : a.type = b.type := X509NameAttrType.code_injective (by omega)
        rw [List.map_cons, List.map_cons, ih (by simpa using hlen) h, htype,
          x509StrCompare_sound (not_not.mp hne)]

theorem x509NameCompare_sound {a b : X509Name}
    (h : x509NameCompare alloc a b = 0) : a.Same b := by
  simp only [x509NameCompare] at h
  split_ifs at h with hlt hgt hne
  · cases h
  · exact absurd h hne
  · exact ⟨x509AttrsCompare_sound (by omega) (not_not.mp hne), x509StrCompare_sound h⟩

/-! ## Certificates -/

/-- Source: `X509_CERT_V1`, `X509_CERT_V2`, `X509_CERT_V3`. -/
inductive X509Version
  | v1 | v2 | v3
  deriving DecidableEq

/-- A certificate, what the checks read of it; the times are in seconds and not negative, as the
parser makes them. `basicConstraints`, `pathLen` and `keyUsage` are the bits of
`extensions_present`. Source: `struct x509_certificate`. -/
structure X509Certificate where
  version : X509Version
  /-- The components of the algorithm of the signature, `signature.oid`. -/
  signature : List ℕ
  issuer : X509Name
  subject : X509Name
  notBefore : ℕ
  notAfter : ℕ
  publicKey : Bytes
  signValue : Bytes
  basicConstraints : Bool
  ca : Bool
  pathLen : Bool
  pathLenConstraint : ℕ
  keyUsage : Bool
  keyUsageBits : ℕ
  tbsCert : Bytes
  deriving DecidableEq

/-- Source: `X509_KEY_USAGE_KEY_CERT_SIGN`, the number of the bit. -/
def x509KeyUsageKeyCertSign : ℕ := 5

/-! ## Signatures -/

/-- The modular exponentiation and the hashes. Source: `crypto.h`, `bignum.h`. -/
structure X509Crypto where
  exptmod : Exptmod
  md5Vector : Bytes → Vector UInt8 16
  sha1Vector : Bytes → Vector UInt8 20
  sha256Vector : Bytes → Vector UInt8 32

inductive DigestAlg
  | md5 | sha1 | sha256
  deriving DecidableEq

def X509Crypto.digest (cr : X509Crypto) (data : Bytes) : DigestAlg → Bytes
  | .md5 => (cr.md5Vector data).toList
  | .sha1 => (cr.sha1Vector data).toList
  | .sha256 => (cr.sha256Vector data).toList

def DigestAlg.hashLen : DigestAlg → ℕ
  | .md5 => 16
  | .sha1 => 20
  | .sha256 => 32

@[simp] theorem X509Crypto.length_digest (cr : X509Crypto) (data : Bytes) (alg : DigestAlg) :
    (cr.digest data alg).length = alg.hashLen := by
  cases alg <;> simp [digest, DigestAlg.hashLen]

def x509RsadsiOid (oid : List ℕ) : Bool := oid.take 4 = [1, 2, 840, 113549]

def x509PkcsOid (oid : List ℕ) : Bool := x509RsadsiOid oid && oid[4]? = some 1

def x509DigestOid (oid : List ℕ) : Bool := x509RsadsiOid oid && oid[4]? = some 2

def x509Sha1Oid (oid : List ℕ) : Bool := oid = [1, 3, 14, 3, 2, 26]

def x509Sha256Oid (oid : List ℕ) : Bool := oid = [2, 16, 840, 1, 101, 3, 4, 2, 1]

/-- Whether the algorithm of a signature is one of PKCS #1, with the number of it. -/
def pkcs1Signature (oid : List ℕ) : Option ℕ :=
  if x509PkcsOid oid && oid.length = 7 && oid[5]? = some 1 then oid[6]? else none

/-- The digest algorithm of a signature algorithm of PKCS #1. -/
def signatureDigest : ℕ → Option DigestAlg
  | 4 => some .md5
  | 5 => some .sha1
  | 11 => some .sha256
  | _ => none

/-- Whether the digest algorithm of the signed data goes with the one of the certificate. -/
def digestMatches (oid : List ℕ) (alg : ℕ) : Bool :=
  if x509Sha1Oid oid then alg = 5
  else if x509Sha256Oid oid then alg = 11
  -- only MD5 of the RSADSI digests, by its number
  else x509DigestOid oid && (oid.getD 5 0 = 5) && alg = 4

/-- What the public operation of the issuer's key yields on the signature: the block. -/
def recoveredBlock (cr : X509Crypto) (alloc : X509Alloc) (issuer cert : X509Certificate) :
    Option (RsaKey × Bytes) := do
  let key ← rsaImportPublicKey issuer.publicKey
  if alloc.malloc cert.signValue.length then
    let block ← rsaExptmod cr.exptmod key cert.signValue cert.signValue.length
    some (key, block)
  else none

/-- The digest in the signed data, which ends where the digest says. The parameters of the
algorithm are passed over, and so is what follows the digest; the length of the whole sequence is
only looked at for the algorithm. -/
def digestOf (alg : ℕ) (data : Bytes) : Option Bytes := do
  let info ← asn1GetNext data
  if info.cls ≠ asn1ClassUniversal ∨ info.tag ≠ asn1TagSequence then none
  else
    let da ← asn1GetNext info.payload
    if da.cls ≠ asn1ClassUniversal ∨ da.tag ≠ asn1TagSequence then none
    else
      let (oid, _) ← asn1GetOid da.payload
      if ¬ digestMatches oid alg then none
      else
        let digest ← asn1GetNext (da.rest ++ info.rest)
        if digest.cls ≠ asn1ClassUniversal ∨ digest.tag ≠ asn1TagOctetstring then none
        else some digest.payload

/-- Source: `x509_certificate_check_signature`; `true` is the result 0. -/
def x509CertificateCheckSignature (cr : X509Crypto) (alloc : X509Alloc)
    (issuer cert : X509Certificate) : Bool :=
  match pkcs1Signature cert.signature with
  | none => false
  | some alg =>
    match (recoveredBlock cr alloc issuer cert).bind fun b => stripBlock b.2 with
    | none => false
    | some data =>
      match digestOf alg data, signatureDigest alg with
      | some digest, some d => digest = cr.digest cert.tbsCert d
      | _, _ => false

/-- The true exponentiation, and hashes that are all zeros. -/
def X509Crypto.zero : X509Crypto where
  exptmod b e n := some (b ^ e % n)
  md5Vector _ := Vector.replicate 16 0
  sha1Vector _ := Vector.replicate 20 0
  sha256Vector _ := Vector.replicate 32 0

/-- A public key of `n` octets `FF`, at most 60 of them, with exponent 1: the operation is the
identity. -/
def identityKey (n : ℕ) : Bytes :=
  der 0x30 (der 0x02 (List.replicate n 0xff) ++ der 0x02 [0x01])

/-- A signature is accepted exactly if its algorithm is supported and the public operation yields a
block whose data hold the hash. -/
theorem checkSignature_eq_true_iff {cr : X509Crypto}
    {issuer cert : X509Certificate} :
    x509CertificateCheckSignature cr alloc issuer cert = true ↔
      ∃ alg d key block data, pkcs1Signature cert.signature = some alg ∧
        signatureDigest alg = some d ∧ recoveredBlock cr alloc issuer cert = some (key, block) ∧
        stripBlock block = some data ∧ digestOf alg data = some (cr.digest cert.tbsCert d) := by
  unfold x509CertificateCheckSignature
  constructor
  · intro h
    split at h
    · cases h
    · rename_i alg halg
      split at h
      · cases h
      · rename_i data hdata
        split at h
        · rename_i digest d hdigest hd
          obtain ⟨⟨key, block⟩, hblock, hstrip⟩ := Option.bind_eq_some_iff.mp hdata
          rw [decide_eq_true_eq] at h
          exact ⟨alg, d, key, block, data, halg, hd, hblock, hstrip, h ▸ hdigest⟩
        · cases h
  · rintro ⟨alg, d, key, block, data, halg, hd, hblock, hstrip, hdigest⟩
    simp [halg, hblock, hstrip, hdigest, hd]

end Hostapd.Tls
