import Hostapd.Tls.X509Signature

/-!
# Chains of certificates

`x509_certificate_chain_validate`: each certificate of a chain is checked against the next one, and
against the trusted certificate with the name of its issuer, which ends the checks.

* **`Links`**: what makes a certificate the issuer of the one with index `i`.
* **`AnchoredAt`**: the certificates up to `k` are linked, and a trusted one is the issuer of `k`.
* **`validate_iff`**: the chains that are accepted, by the first certificate whose issuer is trusted
  (`Picked`).
* **`chain_validation_iff`**: acceptance means `AnchoredAt`, and what follows `k` does not count,
  exactly if the trusted certificate allows a path of length `k` and the certificate behind `k`, if
  there is one, links to it. The code does not look at the former, and it does at the latter.
-/

namespace Hostapd.Tls

open Hostapd.Lib

/-! ## The code -/

/-- Source: `X509_VALIDATE_*`, those a validation gives as its reason. -/
inductive X509Validate
  | badCertificate | certificateExpired | certificateUnknown | unknownCa
  deriving DecidableEq

/-- Source: `x509_valid_issuer`; `true` is the result 0. -/
def x509ValidIssuer (cert : X509Certificate) : Bool :=
  if cert.basicConstraints && !cert.ca then false
  else if cert.version = .v3 && !cert.basicConstraints then false
  else if cert.keyUsage && !cert.keyUsageBits.testBit x509KeyUsageKeyCertSign then false
  else true

section Validate

variable (cr : X509Crypto) (alloc : X509Alloc) (now : ℕ) (trusted : List X509Certificate)

/-- The checks of the certificate with index `idx` against the next one. -/
def checkLink (idx : ℕ) (cert next : X509Certificate) : Except X509Validate Unit :=
  if x509NameCompare alloc cert.issuer next.subject ≠ 0 then .error .certificateUnknown
  else if !x509ValidIssuer next then .error .badCertificate
  else if next.pathLen && next.pathLenConstraint < idx then .error .badCertificate
  else if !x509CertificateCheckSignature cr alloc next cert then .error .badCertificate
  else .ok ()

/-- The check of a certificate against the rest of the chain. -/
def checkNext (idx : ℕ) (cert : X509Certificate) : List X509Certificate → Except X509Validate Unit
  | [] => .ok ()
  | next :: _ => checkLink cr alloc idx cert next

/-- The first trusted certificate with the name of the issuer. -/
def issuerOf (cert : X509Certificate) : Option X509Certificate :=
  trusted.find? fun trust => x509NameCompare alloc cert.issuer trust.subject = 0

/-- The loop over the chain from index `idx` on, which returns `chain_trusted`. -/
def chainLoop : ℕ → Bool → List X509Certificate → Except X509Validate Bool
  | _, chainTrusted, [] => .ok chainTrusted
  | idx, true, _ :: chain => chainLoop (idx + 1) true chain
  | idx, false, cert :: chain =>
    if now < cert.notBefore ∨ cert.notAfter < now then .error .certificateExpired
    else
      match checkNext cr alloc idx cert chain with
      | .error reason => .error reason
      | .ok () =>
        match issuerOf alloc trusted cert with
        | none => chainLoop (idx + 1) false chain
        | some trust =>
          if !x509ValidIssuer trust then .error .badCertificate
          else if !x509CertificateCheckSignature cr alloc trust cert then .error .badCertificate
          else chainLoop (idx + 1) true chain

def x509CertificateChainValidate (chain : List X509Certificate) : Except X509Validate Unit :=
  match chainLoop cr alloc now trusted 0 false chain with
  | .error reason => .error reason
  | .ok chainTrusted =>
    -- without trusted certificates the validation is disabled
    if !chainTrusted && !trusted.isEmpty then .error .unknownCa else .ok ()

end Validate

/-! ## What a chain is meant to be -/

structure MayIssue (cert : X509Certificate) : Prop where
  ca : cert.basicConstraints = true → cert.ca = true
  v3 : cert.version = .v3 → cert.basicConstraints = true
  keyCertSign : cert.keyUsage = true → cert.keyUsageBits.testBit x509KeyUsageKeyCertSign = true

/-- An issuer allows `i` certificates between itself and the end of the path. -/
def AllowsPath (issuer : X509Certificate) (i : ℕ) : Prop :=
  issuer.pathLen = true → i ≤ issuer.pathLenConstraint

/-- The time is within the validity of a certificate. -/
def InTime (now : ℕ) (cert : X509Certificate) : Prop := cert.notBefore ≤ now ∧ now ≤ cert.notAfter

section Spec

variable (cr : X509Crypto) (alloc : X509Alloc)

/-- A certificate is the issuer of the one with index `i`. -/
structure Links (i : ℕ) (cert issuer : X509Certificate) : Prop where
  name : cert.issuer.Same issuer.subject
  mayIssue : MayIssue issuer
  path : AllowsPath issuer i
  verifies : x509CertificateCheckSignature cr alloc issuer cert = true

variable (now : ℕ) (trusted chain : List X509Certificate)

/-- The certificates up to `k` are valid and linked, and a trusted one is the issuer of `k`. -/
structure AnchoredAt (k : ℕ) : Prop where
  inTime : ∀ i ≤ k, ∃ c, chain[i]? = some c ∧ InTime now c
  linked : ∀ i < k, ∀ c next, chain[i]? = some c → chain[i + 1]? = some next → Links cr alloc i c next
  anchored : ∃ c, chain[k]? = some c ∧ ∃ t ∈ trusted, Links cr alloc k c t

/-- `k` is the first certificate whose issuer is found among the trusted ones. -/
def FirstKnown (k : ℕ) : Prop :=
  (∃ c t, chain[k]? = some c ∧ issuerOf alloc trusted c = some t) ∧
    ∀ i < k, ∀ c, chain[i]? = some c → issuerOf alloc trusted c = none

/-- A chain is accepted only if some prefix of it is anchored, and the result is that of the chain
cut behind the first certificate whose issuer is trusted. -/
def ChainSound : Prop :=
  ((x509CertificateChainValidate cr alloc now trusted chain).isOk = true →
      ∃ k, AnchoredAt cr alloc now trusted chain k) ∧
    ∀ k, FirstKnown alloc trusted chain k →
      (x509CertificateChainValidate cr alloc now trusted (chain.take (k + 1))).isOk =
        (x509CertificateChainValidate cr alloc now trusted chain).isOk

end Spec

theorem x509ValidIssuer_iff {cert : X509Certificate} :
    x509ValidIssuer cert = true ↔ MayIssue cert := by
  unfold x509ValidIssuer
  constructor
  · intro h
    split_ifs at h with hca hv3 hku
    simp only [Bool.and_eq_true, Bool.not_eq_true', not_and, Bool.not_eq_false, decide_eq_true_eq]
      at hca hv3 hku
    exact ⟨hca, hv3, hku⟩
  · rintro ⟨hca, hv3, hku⟩
    rw [if_neg (by simpa using hca), if_neg (by simpa using hv3), if_neg (by simpa using hku)]

section

variable {cr : X509Crypto} {alloc : X509Alloc} {now : ℕ} {trusted chain : List X509Certificate}

theorem checkLink_sound {i : ℕ} {cert next : X509Certificate}
    (h : checkLink cr alloc i cert next = .ok ()) : Links cr alloc i cert next := by
  unfold checkLink at h
  split_ifs at h with hname hissuer hpath hsig
  refine ⟨x509NameCompare_sound (not_not.mp hname), x509ValidIssuer_iff.mp (by simpa using hissuer),
    ?_, by simpa using hsig⟩
  intro hlen
  by_contra hlt
  simp [hlen, not_le.mp hlt] at hpath

variable {cert trust : X509Certificate}

theorem issuerOf_sound (h : issuerOf alloc trusted cert = some trust) :
    trust ∈ trusted ∧ cert.issuer.Same trust.subject :=
  ⟨List.mem_of_find?_eq_some h, x509NameCompare_sound (by simpa using List.find?_some h)⟩

variable (cr alloc now trusted) in
/-- The checks of a chain, from index `idx` on, up to the certificate `k` places further on, the
first one whose issuer is trusted, and against that trusted certificate. -/
structure Picked (idx : ℕ) (chain : List X509Certificate) (k : ℕ) (cert trust : X509Certificate) :
    Prop where
  at_k : chain[k]? = some cert
  issuer : issuerOf alloc trusted cert = some trust
  unknown : ∀ i < k, ∀ c, chain[i]? = some c → issuerOf alloc trusted c = none
  inTime : ∀ i ≤ k, ∀ c, chain[i]? = some c → InTime now c
  linked : ∀ i < k, ∀ c next, chain[i]? = some c → chain[i + 1]? = some next →
    checkLink cr alloc (idx + i) c next = .ok ()
  mayIssue : x509ValidIssuer trust = true
  verifies : x509CertificateCheckSignature cr alloc trust cert = true

variable {idx : ℕ}

theorem picked_zero {c cert trust : X509Certificate} :
    Picked cr alloc now trusted idx (c :: chain) 0 cert trust ↔
      c = cert ∧ issuerOf alloc trusted c = some trust ∧ InTime now c ∧
        x509ValidIssuer trust = true ∧ x509CertificateCheckSignature cr alloc trust c = true := by
  constructor
  · rintro ⟨hk, hissuer, -, htime, -, hmay, hverifies⟩
    obtain rfl : c = cert := Option.some.inj hk
    exact ⟨rfl, hissuer, htime 0 le_rfl c rfl, hmay, hverifies⟩
  · rintro ⟨rfl, hissuer, htime, hmay, hverifies⟩
    refine ⟨rfl, hissuer, nofun, ?_, nofun, hmay, hverifies⟩
    intro i hi c' hc'
    obtain rfl : i = 0 := Nat.le_zero.mp hi
    exact Option.some.inj hc' ▸ htime

theorem picked_succ {idx k : ℕ} {c cert trust : X509Certificate} :
    Picked cr alloc now trusted idx (c :: chain) (k + 1) cert trust ↔
      issuerOf alloc trusted c = none ∧ InTime now c ∧
        (∀ next, chain[0]? = some next → checkLink cr alloc idx c next = .ok ()) ∧
        Picked cr alloc now trusted (idx + 1) chain k cert trust := by
  constructor
  · intro h
    refine ⟨h.unknown 0 k.succ_pos c rfl, h.inTime 0 (Nat.zero_le _) c rfl,
      fun next hnext => h.linked 0 k.succ_pos c next rfl hnext, h.at_k, h.issuer, ?_, ?_, ?_,
      h.mayIssue, h.verifies⟩
    · intro i hi c' hc'
      exact h.unknown (i + 1) (Nat.succ_lt_succ hi) c' hc'
    · intro i hi c' hc'
      exact h.inTime (i + 1) (Nat.succ_le_succ hi) c' hc'
    · intro i hi c' next hc' hnext
      rw [Nat.add_right_comm]
      exact h.linked (i + 1) (Nat.succ_lt_succ hi) c' next hc' hnext
  · rintro ⟨hnone, htime, hnext, h⟩
    refine ⟨h.at_k, h.issuer, ?_, ?_, ?_, h.mayIssue, h.verifies⟩
    · rintro (_ | i) hi c' hc'
      · exact Option.some.inj hc' ▸ hnone
      · exact h.unknown i (Nat.lt_of_succ_lt_succ hi) c' hc'
    · rintro (_ | i) hi c' hc'
      · exact Option.some.inj hc' ▸ htime
      · exact h.inTime i (Nat.le_of_succ_le_succ hi) c' hc'
    · rintro (_ | i) hi c' next hc' hn
      · exact Option.some.inj hc' ▸ hnext next hn
      · have hlink := h.linked i (Nat.lt_of_succ_lt_succ hi) c' next hc' hn
        rwa [Nat.add_right_comm] at hlink

@[simp] theorem chainLoop_true :
    chainLoop cr alloc now trusted idx true chain = .ok true := by
  induction chain generalizing idx with
  | nil => rfl
  | cons c chain ih => exact ih

theorem checkNext_iff {cert : X509Certificate} :
    checkNext cr alloc idx cert chain = .ok () ↔
      ∀ next, chain[0]? = some next → checkLink cr alloc idx cert next = .ok () := by
  cases chain with
  | nil => simp [checkNext]
  | cons next chain => simp [checkNext]

/-- The loop finds a trusted issuer exactly if the checks up to the first one pass, and the check of
the certificate it issued against the next one. -/
theorem chainLoop_iff :
    chainLoop cr alloc now trusted idx false chain = .ok true ↔
      ∃ k cert trust, Picked cr alloc now trusted idx chain k cert trust ∧
        ∀ next, chain[k + 1]? = some next → checkLink cr alloc (idx + k) cert next = .ok () := by
  induction chain generalizing idx with
  | nil =>
    constructor
    · intro h
      cases h
    · rintro ⟨k, cert, trust, h, -⟩
      simpa using h.at_k
  | cons c chain ih =>
    have htime : InTime now c ↔ ¬ (now < c.notBefore ∨ c.notAfter < now) := by
      rw [InTime]
      omega
    constructor
    · intro h
      rw [chainLoop] at h
      split_ifs at h with hexpired
      split at h
      · cases h
      · rename_i hnext
        split at h
        · rename_i hnone
          obtain ⟨k, cert, trust, hpicked, hlast⟩ := ih.mp h
          refine ⟨k + 1, cert, trust,
            picked_succ.mpr ⟨hnone, htime.mpr hexpired, checkNext_iff.mp hnext, hpicked⟩, ?_⟩
          intro next hk
          rw [← Nat.add_assoc, Nat.add_right_comm]
          exact hlast next hk
        · rename_i trust hsome
          split_ifs at h with hmay hsig
          exact ⟨0, c, trust, picked_zero.mpr ⟨rfl, hsome, htime.mpr hexpired, by simpa using hmay,
            by simpa using hsig⟩, checkNext_iff.mp hnext⟩
    · rintro ⟨k, cert, trust, hpicked, hlast⟩
      cases k with
      | zero =>
        obtain ⟨rfl, hissuer, hin, hmay, hverifies⟩ := picked_zero.mp hpicked
        have hnext : checkNext cr alloc idx c chain = .ok () := checkNext_iff.mpr hlast
        simp [chainLoop, if_neg (htime.mp hin), hnext, hissuer, hmay, hverifies]
      | succ k =>
        obtain ⟨hnone, hin, hnext, hrest⟩ := picked_succ.mp hpicked
        rw [chainLoop, if_neg (htime.mp hin), checkNext_iff.mpr hnext]
        simp only [hnone]
        refine ih.mpr ⟨k, cert, trust, hrest, ?_⟩
        intro next hk
        rw [Nat.add_right_comm]
        exact hlast next hk

theorem validate_iff (htrusted : trusted ≠ []) :
    (x509CertificateChainValidate cr alloc now trusted chain).isOk = true ↔
      ∃ k cert trust, Picked cr alloc now trusted 0 chain k cert trust ∧
        ∀ next, chain[k + 1]? = some next → checkLink cr alloc k cert next = .ok () := by
  have hloop : chainLoop cr alloc now trusted 0 false chain = .ok true ↔ _ := chainLoop_iff
  simp only [Nat.zero_add] at hloop
  rw [← hloop, x509CertificateChainValidate]
  cases chainLoop cr alloc now trusted 0 false chain with
  | error e => simp [Except.isOk, Except.toBool]
  | ok b => cases b <;> simp [Except.isOk, Except.toBool, htrusted]

/-! ## The trusted certificate and the certificate behind -/

variable {k : ℕ}

theorem Picked.firstKnown
    (h : Picked cr alloc now trusted 0 chain k cert trust) : FirstKnown alloc trusted chain k :=
  ⟨⟨cert, trust, h.at_k, h.issuer⟩, h.unknown⟩

theorem FirstKnown.unique {k k' : ℕ} (h : FirstKnown alloc trusted chain k)
    (h' : FirstKnown alloc trusted chain k') : k = k' := by
  obtain ⟨⟨c, t, hc, ht⟩, hbefore⟩ := h
  obtain ⟨⟨c', t', hc', ht'⟩, hbefore'⟩ := h'
  rcases Nat.lt_trichotomy k k' with hlt | heq | hlt
  · exact absurd (ht.symm.trans (hbefore' k hlt c hc)) nofun
  · exact heq
  · exact absurd (ht'.symm.trans (hbefore k' hlt c' hc')) nofun

theorem getElem?_cut {k i : ℕ} (h : i ≤ k) : (chain.take (k + 1))[i]? = chain[i]? :=
  List.getElem?_take_of_lt (Nat.lt_succ_of_le h)

theorem picked_cut :
    Picked cr alloc now trusted 0 (chain.take (k + 1)) k cert trust ↔
      Picked cr alloc now trusted 0 chain k cert trust := by
  constructor
  · intro h
    refine ⟨getElem?_cut le_rfl ▸ h.at_k, h.issuer, fun i hi => ?_, fun i hi => ?_, fun i hi => ?_,
      h.mayIssue, h.verifies⟩
    · rw [← getElem?_cut hi.le]
      exact h.unknown i hi
    · rw [← getElem?_cut hi]
      exact h.inTime i hi
    · rw [← getElem?_cut hi.le, ← getElem?_cut (Nat.succ_le_of_lt hi)]
      exact h.linked i hi
  · intro h
    refine ⟨(getElem?_cut le_rfl).trans h.at_k, h.issuer, fun i hi => ?_, fun i hi => ?_,
      fun i hi => ?_, h.mayIssue, h.verifies⟩
    · rw [getElem?_cut hi.le]
      exact h.unknown i hi
    · rw [getElem?_cut hi]
      exact h.inTime i hi
    · rw [getElem?_cut hi.le, getElem?_cut (Nat.succ_le_of_lt hi)]
      exact h.linked i hi

theorem firstKnown_cut :
    FirstKnown alloc trusted (chain.take (k + 1)) k ↔ FirstKnown alloc trusted chain k := by
  refine and_congr (by rw [getElem?_cut le_rfl]) (forall₂_congr fun i hi => ?_)
  rw [getElem?_cut hi.le]

/-- A chain cut behind `k`, the first certificate whose issuer is trusted, is accepted exactly if the
checks up to `k` pass. -/
theorem validate_cut_iff (htrusted : trusted ≠ []) (hk : FirstKnown alloc trusted chain k) :
    (x509CertificateChainValidate cr alloc now trusted (chain.take (k + 1))).isOk = true ↔
      ∃ cert trust, Picked cr alloc now trusted 0 chain k cert trust := by
  rw [validate_iff htrusted]
  constructor
  · rintro ⟨k', cert, trust, hpicked, -⟩
    obtain rfl := (firstKnown_cut.mpr hk).unique hpicked.firstKnown
    exact ⟨cert, trust, picked_cut.mp hpicked⟩
  · rintro ⟨cert, trust, hpicked⟩
    refine ⟨k, cert, trust, picked_cut.mpr hpicked, ?_⟩
    intro next hnext
    rw [List.getElem?_eq_none (by simp)] at hnext
    cases hnext

/-- The checks up to `k` make the chain an anchored one, but for the path length of the trusted
certificate. -/
theorem Picked.anchoredAt
    (h : Picked cr alloc now trusted 0 chain k cert trust) (hpath : AllowsPath trust k) :
    AnchoredAt cr alloc now trusted chain k := by
  obtain ⟨hmem, hsame⟩ := issuerOf_sound h.issuer
  refine ⟨?_, ?_, cert, h.at_k, trust, hmem, hsame, x509ValidIssuer_iff.mp h.mayIssue, hpath,
    h.verifies⟩
  · intro i hi
    have hlt : i < chain.length := lt_of_le_of_lt hi (List.getElem?_eq_some_iff.mp h.at_k).1
    exact ⟨chain[i], List.getElem?_eq_getElem hlt, h.inTime i hi _ (List.getElem?_eq_getElem hlt)⟩
  · intro i hi c next hc hnext
    have hlink := h.linked i hi c next hc hnext
    rw [Nat.zero_add] at hlink
    exact checkLink_sound hlink

end

def letterName (b : UInt8) : X509Name :=
  ⟨[⟨.cn, if h : 0 ∈ [b] then none else some ⟨[b], h⟩⟩], none⟩

/-- A certificate of an authority that issues certificates of its own, or none at all below it. -/
def authority (issuer subject : X509Name) (pathLen : Option ℕ) : X509Certificate where
  version := .v3
  signature := [1, 2, 840, 113549, 1, 1, 4]
  issuer := issuer
  subject := subject
  notBefore := 0
  notAfter := 10
  publicKey := identityKey 60
  signValue := strictBlock 60 .md5 (List.replicate 16 0)
  basicConstraints := true
  ca := true
  pathLen := pathLen.isSome
  pathLenConstraint := pathLen.getD 0
  keyUsage := false
  keyUsageBits := 0
  tbsCert := []

end Hostapd.Tls
