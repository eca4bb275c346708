import Hostapd.Tls.X509v3

/-!
# Which blocks pass as a signature

A signature is meant to be accepted for one block only: `00 01 FF .. FF 00` and the DigestInfo in
DER, with the hash of the certificate.

* **`Reading`**: the ways the check reads a block. `checkSignature_iff_reading`: a signature is
  accepted exactly if the recovered block has one.
* **`Reading.Strict`**: a reading that takes none of the liberties the check leaves open: block type
  0, other than DER's two octets in front of an element, the components of the digest algorithm in
  other octets, parameters other than NULL, a sequence that does not end with the digest, octets
  behind it.
* **`checkSignature_strict_iff`**: for a certificate only the one block is accepted exactly if each
  reading of its recovered block is strict.
-/

namespace Hostapd.Tls

open Hostapd.Lib

/-! ## The one block -/

/-- The octets of the object identifier of a digest algorithm. -/
def DigestAlg.oid : DigestAlg → Bytes
  | .md5 => [0x2a, 0x86, 0x48, 0x86, 0xf7, 0x0d, 0x02, 0x05]
  | .sha1 => [0x2b, 0x0e, 0x03, 0x02, 0x1a]
  | .sha256 => [0x60, 0x86, 0x48, 0x01, 0x65, 0x03, 0x04, 0x02, 0x01]

/-- A digest algorithm with its parameters, which are NULL. -/
def DigestAlg.identifier (d : DigestAlg) : Bytes := der 0x30 (der 0x06 d.oid ++ [0x05, 0x00])

def digestInfo (d : DigestAlg) (hash : Bytes) : Bytes := der 0x30 (d.identifier ++ der 0x04 hash)

/-- The padding string that fills a block of `k` octets. -/
def strictPad (k : ℕ) (d : DigestAlg) (hash : Bytes) : Bytes :=
  List.replicate (k - 3 - (digestInfo d hash).length) 0xff

/-- The block of `k` octets for a hash. -/
def strictBlock (k : ℕ) (d : DigestAlg) (hash : Bytes) : Bytes :=
  0x00 :: 0x01 :: (strictPad k d hash ++ 0x00 :: digestInfo d hash)

/-- A signature is accepted only if the public operation yields the one block for the key, the
algorithm and the hash, of the length of the modulus and with a padding string of eight octets or
more. -/
def SignatureStrict (cr : X509Crypto) (alloc : X509Alloc) (issuer cert : X509Certificate) : Prop :=
  x509CertificateCheckSignature cr alloc issuer cert = true →
    ∃ alg d key, pkcs1Signature cert.signature = some alg ∧ signatureDigest alg = some d ∧
      rsaImportPublicKey issuer.publicKey = some key ∧
      rsaExptmod cr.exptmod key cert.signValue cert.signValue.length =
        some (strictBlock key.modulusLen d (cr.digest cert.tbsCert d)) ∧
      8 ≤ (strictPad key.modulusLen d (cr.digest cert.tbsCert d)).length ∧
      (strictBlock key.modulusLen d (cr.digest cert.tbsCert d)).length = key.modulusLen

/-! ## Readings -/

/-- A way to read a block: the block type and the padding string, the headers of the sequence, of
the algorithm, of its identifier and of the digest, the octets of the identifier, the parameters,
and what is left behind the hash. -/
structure Reading (alg : ℕ) (hash block : Bytes) where
  bt : UInt8
  pad : Bytes
  infoHdr : Bytes
  infoLen : ℕ
  daHdr : Bytes
  oidHdr : Bytes
  oid : Bytes
  params : Bytes
  digestHdr : Bytes
  trailing : Bytes
  isBlock : IsBlock bt pad
    (infoHdr ++ (daHdr ++ (oidHdr ++ (oid ++ params)) ++ (digestHdr ++ (hash ++ trailing)))) block
  isHeader_info : IsHeader asn1ClassUniversal asn1TagSequence infoLen infoHdr
  -- the sequence holds the algorithm, and ends somewhere in the block
  infoLen_ge : (daHdr ++ (oidHdr ++ (oid ++ params))).length ≤ infoLen
  infoLen_le : infoLen ≤
    (daHdr ++ (oidHdr ++ (oid ++ params)) ++ (digestHdr ++ (hash ++ trailing))).length
  isHeader_da : IsHeader asn1ClassUniversal asn1TagSequence (oidHdr ++ (oid ++ params)).length daHdr
  isHeader_oid : IsHeader asn1ClassUniversal asn1TagOid oid.length oidHdr
  oid_matches : ∃ comps, asn1ParseOid oid = some comps ∧ digestMatches comps alg = true
  oid_ne : oid ≠ []
  isHeader_digest : IsHeader asn1ClassUniversal asn1TagOctetstring hash.length digestHdr

structure Reading.Strict {alg : ℕ} {hash block : Bytes} (d : DigestAlg) (r : Reading alg hash block) :
    Prop where
  bt : r.bt = 0x01
  infoHdr : r.infoHdr = [0x30, UInt8.ofNat r.infoLen]
  infoLen : r.infoLen =
    (r.daHdr ++ (r.oidHdr ++ (r.oid ++ r.params)) ++ (r.digestHdr ++ hash)).length
  daHdr : r.daHdr = [0x30, UInt8.ofNat (r.oidHdr ++ (r.oid ++ r.params)).length]
  oidHdr : r.oidHdr = [0x06, UInt8.ofNat r.oid.length]
  oid : r.oid = d.oid
  params : r.params = [0x05, 0x00]
  digestHdr : r.digestHdr = [0x04, UInt8.ofNat hash.length]
  trailing : r.trailing = []

section

variable {alg : ℕ} {hash block : Bytes} (r : Reading alg hash block)

def Reading.identifier : Bytes := r.daHdr ++ (r.oidHdr ++ (r.oid ++ r.params))

def Reading.digest : Bytes := r.digestHdr ++ (hash ++ r.trailing)

theorem Reading.exists_info :
    ∃ n, (r.identifier ++ r.digest.take n).length = r.infoLen := by
  obtain ⟨n, hn⟩ := Nat.exists_eq_add_of_le r.infoLen_ge
  refine ⟨n, ?_⟩
  have hall : r.infoLen ≤ (r.identifier ++ r.digest).length := r.infoLen_le
  have hge : r.infoLen = r.identifier.length + n := hn
  rw [List.length_append] at hall
  rw [List.length_append, List.length_take, min_eq_left (by omega), hge]

end

theorem asn1GetOid_eq_some_iff {buf rest : Bytes} {comps : List ℕ} :
    asn1GetOid buf = some (comps, rest) ↔
      ∃ oidHdr oid, buf = oidHdr ++ (oid ++ rest) ∧ oid ≠ [] ∧ asn1ParseOid oid = some comps ∧
        IsHeader asn1ClassUniversal asn1TagOid oid.length oidHdr := by
  simp only [asn1GetOid, Option.bind_eq_bind, Option.bind_eq_some_iff, Option.ite_none_left_eq_some,
    List.length_eq_zero_iff, not_or, not_not, Option.some.injEq, Prod.mk.injEq]
  constructor
  · rintro ⟨⟨cls, tag, oid, rest'⟩, hget, hne, ⟨rfl, rfl⟩, comps', hparse, rfl, rfl⟩
    obtain ⟨oidHdr, heq, hhdr⟩ := asn1GetNext_eq_some_iff.mp hget
    exact ⟨oidHdr, oid, heq, hne, hparse, hhdr⟩
  · rintro ⟨oidHdr, oid, heq, hne, hparse, hhdr⟩
    exact ⟨⟨_, _, oid, rest⟩, asn1GetNext_eq_some_iff.mpr ⟨oidHdr, heq, hhdr⟩, hne, ⟨rfl, rfl⟩,
      comps, hparse, rfl, rfl⟩

theorem digestOf_iff_reading {alg : ℕ} {hash block : Bytes} :
    (∃ data, stripBlock block = some data ∧ digestOf alg data = some hash) ↔
      Nonempty (Reading alg hash block) := by
  constructor
  · rintro ⟨data, hstrip, hdigest⟩
    obtain ⟨bt, pad, hblock⟩ := stripBlock_eq_some_iff.mp hstrip
    simp only [digestOf, Option.bind_eq_bind, Option.bind_eq_some_iff,
      Option.ite_none_left_eq_some, not_or, not_not, Option.some.injEq, Prod.exists] at hdigest
    obtain ⟨⟨_, _, info, rest⟩, hinfo, ⟨rfl, rfl⟩, ⟨_, _, da, daRest⟩, hda, ⟨rfl, rfl⟩, comps, params,
      hoid, hmatches, ⟨_, _, hash', trailing⟩, hdig, ⟨rfl, rfl⟩, rfl⟩ := hdigest
    obtain ⟨infoHdr, rfl, hinfoHdr⟩ := asn1GetNext_eq_some_iff.mp hinfo
    obtain ⟨daHdr, rfl, hdaHdr⟩ := asn1GetNext_eq_some_iff.mp hda
    obtain ⟨oidHdr, oid, rfl, hne, hparse, hoidHdr⟩ := asn1GetOid_eq_some_iff.mp hoid
    obtain ⟨digestHdr, heq, hdigestHdr⟩ := asn1GetNext_eq_some_iff.mp hdig
    refine ⟨⟨bt, pad, infoHdr, _, daHdr, oidHdr, oid, params, digestHdr, trailing, ?_, hinfoHdr, ?_,
      ?_, hdaHdr, hoidHdr, ⟨comps, hparse, hmatches⟩, hne, hdigestHdr⟩⟩
    · simpa [← heq, List.append_assoc] using hblock
    · simp
    · rw [← heq]
      simp
  · rintro ⟨r⟩
    obtain ⟨comps, hparse, hmatches⟩ := r.oid_matches
    refine ⟨_, stripBlock_eq_some_iff.mpr ⟨r.bt, r.pad, r.isBlock⟩, ?_⟩
    obtain ⟨n, hlen⟩ := r.exists_info
    have hinfo : asn1GetNext (r.infoHdr ++ (r.identifier ++ r.digest)) =
        some ⟨asn1ClassUniversal, asn1TagSequence, r.identifier ++ r.digest.take n,
          r.digest.drop n⟩ := by
      refine asn1GetNext_eq_some_iff.mpr ⟨r.infoHdr, by simp, ?_⟩
      rw [hlen]
      exact r.isHeader_info
    have hda : asn1GetNext (r.identifier ++ r.digest.take n) =
        some ⟨asn1ClassUniversal, asn1TagSequence, r.oidHdr ++ (r.oid ++ r.params),
          r.digest.take n⟩ :=
      asn1GetNext_eq_some_iff.mpr ⟨r.daHdr, by simp [Reading.identifier], r.isHeader_da⟩
    have hoid : asn1GetOid (r.oidHdr ++ (r.oid ++ r.params)) = some (comps, r.params) :=
      asn1GetOid_eq_some_iff.mpr ⟨r.oidHdr, r.oid, rfl, r.oid_ne, hparse, r.isHeader_oid⟩
    have hdig : asn1GetNext r.digest =
        some ⟨asn1ClassUniversal, asn1TagOctetstring, hash, r.trailing⟩ :=
      asn1GetNext_eq_some_iff.mpr ⟨r.digestHdr, rfl, r.isHeader_digest⟩
    change digestOf alg (r.infoHdr ++ (r.identifier ++ r.digest)) = some hash
    rw [digestOf, hinfo]
    simp [hda, hoid, hmatches, hdig]

/-- A signature is accepted exactly if its algorithm is supported and the recovered block has a
reading. -/
theorem checkSignature_iff_reading {cr : X509Crypto} {alloc : X509Alloc}
    {issuer cert : X509Certificate} :
    x509CertificateCheckSignature cr alloc issuer cert = true ↔
      ∃ alg d key block, pkcs1Signature cert.signature = some alg ∧
        signatureDigest alg = some d ∧ recoveredBlock cr alloc issuer cert = some (key, block) ∧
        Nonempty (Reading alg (cr.digest cert.tbsCert d) block) := by
  rw [checkSignature_eq_true_iff]
  constructor
  · rintro ⟨alg, d, key, block, data, halg, hd, hblock, hstrip, hdigest⟩
    exact ⟨alg, d, key, block, halg, hd, hblock, digestOf_iff_reading.mp ⟨data, hstrip, hdigest⟩⟩
  · rintro ⟨alg, d, key, block, halg, hd, hblock, hread⟩
    obtain ⟨data, hstrip, hdigest⟩ := digestOf_iff_reading.mpr hread
    exact ⟨alg, d, key, block, data, halg, hd, hblock, hstrip, hdigest⟩

/-! ## Strict readings -/

theorem DigestAlg.length_oid_le (d : DigestAlg) : d.oid.length ≤ 9 := by
  cases d <;> decide

theorem DigestAlg.hashLen_le (d : DigestAlg) : minHashLen ≤ d.hashLen ∧ d.hashLen ≤ 32 := by
  cases d <;> decide

theorem length_digestInfo (d : DigestAlg) (hash : Bytes) :
    (digestInfo d hash).length = d.oid.length + hash.length + 10 := by
  simp only [digestInfo, DigestAlg.identifier, length_der, List.length_append, List.length_cons,
    List.length_nil]
  omega

section

variable {alg : ℕ} {hash block : Bytes} {d : DigestAlg}

theorem Reading.Strict.block_eq {r : Reading alg hash block} (h : r.Strict d) :
    block = strictBlock block.length d hash ∧ 8 ≤ (strictPad block.length d hash).length := by
  have hdata : r.infoHdr ++ (r.daHdr ++ (r.oidHdr ++ (r.oid ++ r.params)) ++
      (r.digestHdr ++ (hash ++ r.trailing))) = digestInfo d hash := by
    rw [h.infoHdr, h.infoLen, h.daHdr, h.oidHdr, h.oid, h.params, h.digestHdr, h.trailing,
      List.append_nil]
    rfl
  have hblock := r.isBlock
  rw [hdata] at hblock
  have hlen : r.pad.length = block.length - 3 - (digestInfo d hash).length := by
    have hall := congrArg List.length hblock.eq
    simp only [List.length_cons, List.length_append] at hall
    omega
  have hpad : r.pad = strictPad block.length d hash := by
    refine List.eq_replicate_iff.mpr ⟨hlen, ?_⟩
    rcases hblock.type with ⟨hbt, -⟩ | ⟨-, hones⟩
    · exact absurd (h.bt.symm.trans hbt) (by decide)
    · exact hones
  refine ⟨?_, hpad ▸ hblock.pad⟩
  rw [strictBlock, ← hpad, ← h.bt]
  exact hblock.eq

theorem strict_of_block_eq {k : ℕ} (hhash : hash.length = d.hashLen)
    (hpad : 8 ≤ (strictPad k d hash).length) (r : Reading alg hash (strictBlock k d hash)) :
    r.Strict d := by
  have hoidLen := d.length_oid_le
  have hhashLen := d.hashLen_le
  have hdata : IsBlock 0x01 (strictPad k d hash) (digestInfo d hash) (strictBlock k d hash) :=
    ⟨rfl, .inr ⟨rfl, fun b hb => List.eq_of_mem_replicate hb⟩, hpad, by
      rw [length_digestInfo]
      omega⟩
  have hstrip := stripBlock_eq_some_iff.mpr ⟨_, _, hdata⟩
  rw [stripBlock_eq_some_iff.mpr ⟨_, _, r.isBlock⟩, Option.some.injEq] at hstrip
  have hbt : r.bt = 0x01 := by
    have heq : strictBlock k d hash = 0x00 :: r.bt :: _ := r.isBlock.eq
    exact (List.cons.inj (List.cons.inj heq).2).1.symm
  -- the sequence
  obtain ⟨n, hn⟩ := r.exists_info
  have hinfo : IsHeader asn1ClassUniversal asn1TagSequence (d.identifier ++ der 0x04 hash).length
      [0x30, UInt8.ofNat (d.identifier ++ der 0x04 hash).length] := by
    refine isHeader_der 0x30 (by decide) ?_
    simp only [DigestAlg.identifier, length_der, List.length_append, List.length_cons,
      List.length_nil]
    omega
  have hinfoEq : r.infoHdr ++ (r.identifier ++ r.digest.take n ++ r.digest.drop n) =
      [0x30, UInt8.ofNat (d.identifier ++ der 0x04 hash).length] ++
        (d.identifier ++ der 0x04 hash ++ []) := by
    rw [List.append_assoc r.identifier, List.take_append_drop, List.append_nil]
    exact hstrip
  obtain ⟨hinfoHdr, hpayload, hrest⟩ :=
    IsHeader.unique (hn.symm ▸ r.isHeader_info) hinfo hinfoEq
  have htake : r.digest.take n = r.digest := by
    rw [← List.append_nil (r.digest.take n), ← hrest, List.take_append_drop]
  rw [htake] at hpayload hn
  -- the algorithm
  have hda : IsHeader asn1ClassUniversal asn1TagSequence (der 0x06 d.oid ++ [0x05, 0x00]).length
      [0x30, UInt8.ofNat (der 0x06 d.oid ++ [0x05, 0x00]).length] := by
    refine isHeader_der 0x30 (by decide) ?_
    simp only [length_der, List.length_append, List.length_cons, List.length_nil]
    omega
  have hdaEq : r.daHdr ++ (r.oidHdr ++ (r.oid ++ r.params) ++ r.digest) =
      [0x30, UInt8.ofNat (der 0x06 d.oid ++ [0x05, 0x00]).length] ++
        (der 0x06 d.oid ++ [0x05, 0x00] ++ der 0x04 hash) := by
    rw [← List.append_assoc]
    exact hpayload
  obtain ⟨hdaHdr, halg, hdigest⟩ := r.isHeader_da.unique hda hdaEq
  -- its identifier
  have hoid : IsHeader asn1ClassUniversal asn1TagOid d.oid.length
      [0x06, UInt8.ofNat d.oid.length] := isHeader_der 0x06 (by decide) (by omega)
  obtain ⟨hoidHdr, hoidEq, hparams⟩ := r.isHeader_oid.unique hoid halg
  -- the digest
  have hdig : IsHeader asn1ClassUniversal asn1TagOctetstring hash.length
      [0x04, UInt8.ofNat hash.length] := isHeader_der 0x04 (by decide) (by omega)
  have hdigEq : r.digestHdr ++ (hash ++ r.trailing) =
      [0x04, UInt8.ofNat hash.length] ++ (hash ++ []) := by
    rw [List.append_nil]
    exact hdigest
  obtain ⟨hdigestHdr, -, htrailing⟩ := r.isHeader_digest.unique hdig hdigEq
  have hinfoLen : r.infoLen = (d.identifier ++ der 0x04 hash).length := by rw [← hn, hpayload]
  refine ⟨hbt, ?_, ?_, ?_, ?_, hoidEq, hparams, hdigestHdr, htrailing⟩
  · rw [hinfoHdr, hinfoLen]
  · rw [← hn, Reading.identifier, Reading.digest, htrailing, List.append_nil]
  · rw [hdaHdr, halg]
  · rw [hoidHdr, hoidEq]

end

/-- Only the one block is accepted for a certificate exactly if each reading of the block that the
issuer's key recovers from the signature is strict. -/
theorem checkSignature_strict_iff (cr : X509Crypto) (alloc : X509Alloc)
    (issuer cert : X509Certificate) :
    SignatureStrict cr alloc issuer cert ↔
      ∀ alg d key block, pkcs1Signature cert.signature = some alg → signatureDigest alg = some d →
        recoveredBlock cr alloc issuer cert = some (key, block) →
        ∀ r : Reading alg (cr.digest cert.tbsCert d) block, r.Strict d := by
  have hrecovered {key : RsaKey} {block : Bytes}
      (h : recoveredBlock cr alloc issuer cert = some (key, block)) :
      rsaImportPublicKey issuer.publicKey = some key ∧
        rsaExptmod cr.exptmod key cert.signValue cert.signValue.length = some block := by
    simp only [recoveredBlock, Option.bind_eq_bind, Option.bind_eq_some_iff] at h
    obtain ⟨key', hkey, h⟩ := h
    split_ifs at h
    obtain ⟨block', hblock, h⟩ := Option.bind_eq_some_iff.mp h
    obtain ⟨rfl, rfl⟩ := Prod.mk.inj (Option.some.inj h)
    exact ⟨hkey, hblock⟩
  constructor
  · intro hstrict alg d key block halg hd hblock r
    obtain ⟨alg', d', key', halg', hd', hkey', hexpt, hpad, -⟩ :=
      hstrict (checkSignature_iff_reading.mpr ⟨alg, d, key, block, halg, hd, hblock, ⟨r⟩⟩)
    obtain rfl : alg = alg' := Option.some.inj (halg.symm.trans halg')
    obtain rfl : d = d' := Option.some.inj (hd.symm.trans hd')
    obtain rfl : key = key' := Option.some.inj ((hrecovered hblock).1.symm.trans hkey')
    obtain rfl : block = _ := Option.some.inj ((hrecovered hblock).2.symm.trans hexpt)
    exact strict_of_block_eq (cr.length_digest _ d) hpad r
  · intro hreadings haccept
    obtain ⟨alg, d, key, block, halg, hd, hblock, ⟨r⟩⟩ := checkSignature_iff_reading.mp haccept
    obtain ⟨hkey, hexpt⟩ := hrecovered hblock
    obtain ⟨heq, hpad⟩ := (hreadings alg d key block halg hd hblock r).block_eq
    have hlen := length_rsaExptmod hexpt
    rw [hlen] at heq hpad
    refine ⟨alg, d, key, halg, hd, hkey, heq ▸ hexpt, hpad, ?_⟩
    rw [← heq, hlen]

/-- A certificate with an MD5 signature: a block with octets behind the digest. -/
def forgedCert : X509Certificate where
  version := .v3
  signature := [1, 2, 840, 113549, 1, 1, 4]
  issuer := ⟨[], none⟩
  subject := ⟨[], none⟩
  notBefore := 0
  notAfter := 0
  publicKey := identityKey 60
  signValue := 0x00 :: 0x01 :: (List.replicate 8 0xff ++
    0x00 :: (digestInfo .md5 (List.replicate 16 0) ++ List.replicate 15 0x2a))
  basicConstraints := false
  ca := false
  pathLen := false
  pathLenConstraint := 0
  keyUsage := false
  keyUsageBits := 0
  tbsCert := []

theorem forgedCert_accepted : ¬ SignatureStrict .zero .ample forgedCert forgedCert := by
  have haccept : x509CertificateCheckSignature .zero .ample forgedCert forgedCert = true := by
    decide +kernel
  have himport : rsaImportPublicKey forgedCert.publicKey = some ⟨256 ^ 60 - 1, 1⟩ := by
    decide +kernel
  have hblock : rsaExptmod X509Crypto.zero.exptmod ⟨256 ^ 60 - 1, 1⟩ forgedCert.signValue
      forgedCert.signValue.length = some forgedCert.signValue := by decide +kernel
  intro hstrict
  obtain ⟨alg, d, key, halg, hd, hkey, hexpt, -⟩ := hstrict haccept
  obtain rfl : key = ⟨256 ^ 60 - 1, 1⟩ := Option.some.inj (hkey.symm.trans himport)
  obtain rfl : alg = 4 :=
    Option.some.inj (halg.symm.trans (show pkcs1Signature forgedCert.signature = some 4 by decide))
  obtain rfl : d = .md5 := Option.some.inj (hd.symm.trans rfl)
  have heq := Option.some.inj (hblock.symm.trans hexpt)
  -- there the padding string of the forged block has ended
  exact absurd (congrArg (·[10]?) heq) (by decide +kernel)

end Hostapd.Tls
