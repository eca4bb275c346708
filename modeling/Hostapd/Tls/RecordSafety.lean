import Hostapd.Tls.RecordStream

/-!
# The TLS record layer: what is accepted

* **`AcceptsSound`**: a record is accepted only with the right padding and MAC. It fails where the
  first octet of the padding is wrong (`FirstPadRight`): the check of the padding leaves it out.
* **`receive_outLen_le`**: the length returned does not wrap, accepted or not.
* **`accepted_numbered`**: as far as the hash does not collide, what is accepted are records of the
  writer, in order and without a gap.
* **`record_stream`** puts these beside the round trip.
-/

namespace Hostapd.Tls

open Hostapd.Lib

variable {κ : Type*} {c : Crypto κ} {rl : RecordLayer κ}

/-! ## The length returned -/

variable {outLen : ℕ}

theorem recordHeader_length {inData fragment : Bytes}
    (h : recordHeader inData outLen = .ok fragment) : fragment.length < 2 ^ 16 := by
  have hword : be16 (inData.drop 3) < 2 ^ 16 := by
    have hhi := ((inData.drop 3).getD 0 0).toNat_lt
    have hlo := ((inData.drop 3).getD 1 0).toNat_lt
    rw [be16]
    omega
  unfold recordHeader at h
  dsimp only at h
  split_ifs at h
  rw [Except.ok.injEq] at h
  rw [← h, List.length_take]
  omega

theorem receive_outLen_le (hc : c.Lawful) {inData fragment : Bytes}
    (h : recordHeader inData outLen = .ok fragment) (hashInit : Bool) :
    (tlsv1RecordReceive c hashInit rl inData outLen).outLen ≤ fragment.length := by
  have hsize : fragment.length < 2 ^ 64 := (recordHeader_length h).trans (by decide)
  rw [tlsv1RecordReceive, h]
  dsimp only
  split
  · rw [finishReceive]
    split <;> exact le_refl _
  · exact receiveProtected_outLen_le hc hsize hashInit

/-! ## Padding and MAC -/

variable (c) in
/-- A record is accepted only if all of its padding and its MAC are right, and what is returned is
what stands in front of them. -/
def AcceptsSound (rl : RecordLayer κ) (inData : Bytes) (outLen : ℕ) : Prop :=
  (tlsv1RecordReceive c true rl inData outLen).ret = .ok () →
    ∃ fragment k data, recordHeader inData outLen = .ok fragment ∧
      rl.readCbc.bind (c.decrypt · fragment) = some (k, data) ∧
      (rl.ivSize ≠ 0 → PadOk data) ∧ MacOk c rl (inData.getD 0 0) data ∧
      (tlsv1RecordReceive c true rl inData outLen).outData = data ∧
      (tlsv1RecordReceive c true rl inData outLen).outLen = payloadLen rl data

variable (c) in
/-- The first octet of the padding is right, in a record of a block cipher where the other octets,
the MAC and the length are. -/
def FirstPadRight (rl : RecordLayer κ) (inData : Bytes) (outLen : ℕ) : Prop :=
  ∀ fragment k data, recordHeader inData outLen = .ok fragment → rl.ivSize ≠ 0 →
    Opens c rl (inData.getD 0 0) fragment k data → firstPad data = lastOctet data

theorem receive_ok (hc : c.Lawful) (hsuite : rl.readCipherSuite ≠ nullWithNullNull)
    {inData : Bytes}
    (h : (tlsv1RecordReceive c true rl inData outLen).ret = .ok ()) :
    ∃ fragment k data, recordHeader inData outLen = .ok fragment ∧
      Opens c rl (inData.getD 0 0) fragment k data := by
  cases hheader : recordHeader inData outLen with
  | error alert =>
    rw [tlsv1RecordReceive, hheader] at h
    cases h
  | ok fragment =>
    have hsize : fragment.length < 2 ^ 64 := (recordHeader_length hheader).trans (by decide)
    rw [tlsv1RecordReceive, hheader] at h
    dsimp only at h
    rw [if_neg hsuite] at h
    obtain ⟨k, data, hopens⟩ := receiveProtected_ok hc hsize h
    exact ⟨fragment, k, data, rfl, hopens⟩

theorem receive_opens (hc : c.Lawful) (hsuite : rl.readCipherSuite ≠ nullWithNullNull)
    {inData fragment data : Bytes} {k : κ}
    (hheader : recordHeader inData outLen = .ok fragment)
    (h : Opens c rl (inData.getD 0 0) fragment k data) :
    tlsv1RecordReceive c true rl inData outLen =
      ⟨{ rl with readCbc := some k, readSeqNum := rl.readSeqNum + 1 }, data, payloadLen rl data,
        .ok ()⟩ := by
  have hsize : fragment.length < 2 ^ 64 := (recordHeader_length hheader).trans (by decide)
  rw [tlsv1RecordReceive, hheader]
  dsimp only
  rw [if_neg hsuite]
  exact h.receive hc hsize

/-- **The defect**: what is accepted is right exactly when the first octet of the padding is. -/
theorem acceptsSound_iff (hc : c.Lawful) (hsuite : rl.readCipherSuite ≠ nullWithNullNull)
    (inData : Bytes) (outLen : ℕ) :
    AcceptsSound c rl inData outLen ↔ FirstPadRight c rl inData outLen := by
  constructor
  · intro h fragment k data hheader hiv hopens
    have hres := receive_opens hc hsuite hheader hopens
    obtain ⟨fragment', k', data', -, -, hpad, -, hout, -⟩ := h (by rw [hres])
    rw [hres] at hout
    subst hout
    exact (padOk_iff.mp (hpad hiv)).2
  · intro h hok
    obtain ⟨fragment, k, data, hheader, hopens⟩ := receive_ok hc hsuite hok
    have hres := receive_opens hc hsuite hheader hopens
    refine ⟨fragment, k, data, hheader, hopens.decrypts, fun hiv => ?_, hopens.mac, ?_, ?_⟩
    · have htail := hopens.padding.resolve_left hiv
      exact padOk_iff.mpr ⟨htail, h fragment k data hheader hiv hopens⟩
    · rw [hres]
    · rw [hres]

/-! ## Sequence numbers -/

theorem macData_inj {seqNum seqNum' : UInt64} {type type' : UInt8} {payload payload' : Bytes}
    (h : macData seqNum type payload = macData seqNum' type' payload') :
    seqNum = seqNum' ∧ type = type' ∧ payload = payload' := by
  have hlen : (putBe 8 seqNum.toNat).length = (putBe 8 seqNum'.toNat).length := by
    rw [length_putBe, length_putBe]
  obtain ⟨hseq, hrest⟩ := List.append_inj h hlen
  have hnum : seqNum.toNat = seqNum'.toNat := by
    calc seqNum.toNat = beNat (putBe 8 seqNum.toNat) := (beNat_putBe seqNum.toNat_lt).symm
      _ = beNat (putBe 8 seqNum'.toNat) := by rw [hseq]
      _ = seqNum'.toNat := beNat_putBe seqNum'.toNat_lt
  simp only [putBe16, List.cons_append, List.nil_append, List.cons.injEq] at hrest
  exact ⟨UInt64.toNat.inj hnum, hrest.1, hrest.2.2.2.2.2⟩

/-- A record that arrives, with room for what it decrypts to, and the number, the type and the
payload of the record whose MAC it carries. -/
structure Delivery where
  record : Bytes
  outLen : ℕ
  seqNum : UInt64
  type : UInt8
  payload : Bytes

variable (c) in
def deliver (rl : RecordLayer κ) (d : Delivery) : RecordLayer κ :=
  (tlsv1RecordReceive c true rl d.record d.outLen).rl

variable (c) in
/-- What a delivery gives to the reader: a type and a payload, when it is accepted. -/
def delivered (rl : RecordLayer κ) (d : Delivery) : Option (UInt8 × Bytes) :=
  let res := tlsv1RecordReceive c true rl d.record d.outLen
  match res.ret with
  | .error _ => none
  | .ok () => some (d.record.getD 0 0, res.outData.take res.outLen)

variable (c) in
/-- The MAC of a delivery, if it has one that verifies, is the one that was sent, and the hash does
not collide on what the two are over. -/
def Carries (rl : RecordLayer κ) (d : Delivery) : Prop :=
  ∀ fragment k data, recordHeader d.record d.outLen = .ok fragment →
    Opens c rl (d.record.getD 0 0) fragment k data →
    let hmac := c.hmac rl.hashAlg (rl.readMacSecret.take rl.hashSize)
    let payload := data.take (payloadLen rl data)
    macTag rl data (payloadLen rl data) = hmac (macData d.seqNum d.type d.payload) ∧
      Set.InjOn hmac {macData rl.readSeqNum (d.record.getD 0 0) payload,
        macData d.seqNum d.type d.payload}

variable (c) in
/-- The deliveries of a run that are accepted, each with what the reader gets. -/
def accepted (rl : RecordLayer κ) : List Delivery → List (Delivery × (UInt8 × Bytes))
  | [] => []
  | d :: l => ((delivered c rl d).map (d, ·)).toList ++ accepted (deliver c rl d) l

/-- What is accepted carries the numbers from `seqNum` on, and is what was sent under them. -/
def Numbered : UInt64 → List (Delivery × (UInt8 × Bytes)) → Prop
  | _, [] => True
  | seqNum, (d, got) :: l => d.seqNum = seqNum ∧ got = (d.type, d.payload) ∧ Numbered (seqNum + 1) l

theorem deliver_cases (hc : c.Lawful) (hsuite : rl.readCipherSuite ≠ nullWithNullNull)
    (d : Delivery) :
    ((delivered c rl d = none ∧ (deliver c rl d).readSeqNum = rl.readSeqNum) ∨
      ∃ fragment k data, recordHeader d.record d.outLen = .ok fragment ∧
        Opens c rl (d.record.getD 0 0) fragment k data ∧
        delivered c rl d = some (d.record.getD 0 0, data.take (payloadLen rl data)) ∧
        (deliver c rl d).readSeqNum = rl.readSeqNum + 1) ∧
      (deliver c rl d).readCipherSuite = rl.readCipherSuite := by
  cases hret : (tlsv1RecordReceive c true rl d.record d.outLen).ret with
  | ok u =>
    obtain ⟨fragment, k, data, hheader, hopens⟩ := receive_ok hc hsuite hret
    have hres := receive_opens hc hsuite hheader hopens
    refine ⟨Or.inr ⟨fragment, k, data, hheader, hopens, ?_, ?_⟩, ?_⟩
    · rw [delivered, hres]
    · rw [deliver, hres]
    · rw [deliver, hres]
  | error alert =>
    have hkeep : (deliver c rl d).readSeqNum = rl.readSeqNum ∧
        (deliver c rl d).readCipherSuite = rl.readCipherSuite := by
      unfold deliver
      unfold tlsv1RecordReceive at hret ⊢
      cases hheader : recordHeader d.record d.outLen with
      | error _ => exact ⟨rfl, rfl⟩
      | ok fragment =>
        rw [hheader] at hret
        dsimp only at hret ⊢
        rw [if_neg hsuite] at hret ⊢
        exact receiveProtected_error hret
    refine ⟨Or.inl ⟨?_, hkeep.1⟩, hkeep.2⟩
    rw [delivered, hret]

/-- **No record is dropped, repeated, reordered or altered** among those that are accepted. -/
theorem accepted_numbered (hc : c.Lawful) (hsuite : rl.readCipherSuite ≠ nullWithNullNull)
    {l : List Delivery} (hl : Along (deliver c) (Carries c) rl l) :
    Numbered rl.readSeqNum (accepted c rl l) := by
  induction l generalizing rl with
  | nil => trivial
  | cons d l ih =>
    obtain ⟨hcarries, hrest⟩ := hl
    obtain ⟨hcases, hkeep⟩ := deliver_cases hc hsuite d
    have hnext := ih (hkeep.trans_ne hsuite) hrest
    rcases hcases with ⟨hnone, hseq⟩ | ⟨fragment, k, data, hheader, hopens, hsome, hseq⟩
    · rw [hseq] at hnext
      rw [accepted, hnone]
      exact hnext
    · obtain ⟨htag, hinj⟩ := hcarries fragment k data hheader hopens
      have hmac := hopens.mac.2.trans htag
      obtain ⟨hnum, htype, hpayload⟩ := macData_inj
        (hinj (Set.mem_insert _ _) (Set.mem_insert_of_mem _ rfl) hmac)
      rw [hseq] at hnext
      rw [accepted, hsome, htype, hpayload]
      exact ⟨hnum.symm, rfl, hnext⟩

/-! ## The record layer -/

/-- **The record layer**: payloads are received as they were sent, with cipher changes anywhere;
what is accepted has the right padding and MAC exactly when the first octet of the padding is
right; the length returned does not wrap; and what is accepted carries consecutive numbers. -/
theorem record_stream (c : Crypto κ) (hc : c.Lawful) :
    (∀ l : List StreamOp, (∀ op ∈ l, op.Fits) →
      (run (streamStep c) Stream.init l).received =
          (run (streamStep c) Stream.init l).sent.map (fun x => some (x.1.octet, x.2)) ∧
        ((∀ op ∈ l, op.Roomy) →
          (run (streamStep c) Stream.init l).sent = l.flatMap StreamOp.sends)) ∧
    (∀ (rl : RecordLayer κ) (inData : Bytes) (outLen : ℕ), rl.readCipherSuite ≠ nullWithNullNull →
      (AcceptsSound c rl inData outLen ↔ FirstPadRight c rl inData outLen)) ∧
    (∀ (hashInit : Bool) (rl : RecordLayer κ) (inData fragment : Bytes) (outLen : ℕ),
      recordHeader inData outLen = .ok fragment →
        (tlsv1RecordReceive c hashInit rl inData outLen).outLen ≤ fragment.length ∧
          fragment.length < 2 ^ 16) ∧
    (∀ (rl : RecordLayer κ) (l : List Delivery), rl.readCipherSuite ≠ nullWithNullNull →
      Along (deliver c) (Carries c) rl l → Numbered rl.readSeqNum (accepted c rl l)) := by
  refine ⟨fun l hl => ⟨?_, fun hroom => ?_⟩, ?_, ?_, ?_⟩
  · exact (stream_run hc (streamInv_init c) hl).received
  · exact stream_sent hc (streamInv_init c) hl hroom
  · exact fun rl inData outLen hsuite => acceptsSound_iff hc hsuite inData outLen
  · exact fun hashInit rl inData fragment outLen h =>
      ⟨receive_outLen_le hc h hashInit, recordHeader_length h⟩
  · exact fun rl l hsuite hl => accepted_numbered hc hsuite hl

/-- Ciphers that leave the data as they are, on whole blocks; a hash keeps the front of the data.
-/
def plainCrypto : Crypto ℕ where
  cipherInit alg _ _ :=
    match alg with
    | .null => none
    | .rc2 | .rc4 => some 1
    | .des | .des3 => some 8
    | .aes => some 16
  encrypt k data := if k ∣ data.length then some (k, data) else none
  decrypt k crypt := if k ∣ crypt.length then some (k, crypt) else none
  hmac alg _ data := (data ++ List.replicate alg.macLen 0).take alg.macLen
  block := id

theorem plainCrypto_lawful : plainCrypto.Lawful where
  decrypt_encrypt {k k' data crypt} h := by
    simp only [plainCrypto, Option.ite_none_right_eq_some, Option.some.injEq, Prod.mk.injEq] at h ⊢
    obtain ⟨hdvd, rfl, rfl⟩ := h
    exact ⟨⟨hdvd, rfl, rfl⟩, rfl, rfl⟩
  length_decrypt {k k' data crypt} h := by
    simp only [plainCrypto, Option.ite_none_right_eq_some, Option.some.injEq, Prod.mk.injEq] at h
    rw [h.2.2]
  encrypt_isSome {k data} h := by
    have hdvd : k ∣ data.length := h
    simp only [plainCrypto, hdvd, if_true, Option.isSome_some]
  cipherInit := by
    intro suite hsuite iv key hne
    have htable : ∀ suite ∈ cipherSuites, suite.2.1 ≠ .null →
        plainCrypto.cipherInit suite.2.1.data.2.2 [] [] = some (max suite.2.1.data.2.1 1) := by
      decide
    exact ⟨_, htable suite hsuite hne, rfl⟩
  length_hmac alg key data := by
    simp only [plainCrypto, List.length_take, List.length_append, List.length_replicate]
    omega

theorem record_stream_plain :
    plainCrypto.Lawful ∧
      (run (streamStep plainCrypto) Stream.init
        [.change 0x002f [1] [2] [3], .send .applicationData [7, 8] 64 0]).received =
          [some (23, [7, 8])] := by
  have h := ((record_stream plainCrypto plainCrypto_lawful).1
    [.change 0x002f [1] [2] [3], .send .applicationData [7, 8] 64 0]
    (by simp [StreamOp.Fits])).1
  exact ⟨plainCrypto_lawful, h.trans (by decide +kernel)⟩

def aesReader : RecordLayer ℕ := changeReader plainCrypto RecordLayer.init 0x002f [] [] []

/-- An empty payload with its MAC and twelve octets of padding, of which the first is wrong. -/
def strayRecord : Bytes :=
  recordOf 23 (macData 0 23 [] ++ List.replicate 7 0 ++ [99] ++ List.replicate 11 11)

theorem record_padding_unchecked :
    plainCrypto.Lawful ∧ aesReader.readCipherSuite ≠ nullWithNullNull ∧
      ¬ AcceptsSound plainCrypto aesReader strayRecord 64 := by
  refine ⟨plainCrypto_lawful, by decide +kernel, fun h => ?_⟩
  obtain ⟨fragment, k, data, -, -, hpad, -, hout, -⟩ := h (by decide +kernel)
  have hpad' := hpad (by decide +kernel)
  rw [← hout] at hpad'
  revert hpad'
  unfold PadOk
  decide +kernel

end Hostapd.Tls
