import Hostapd.Lib.Run
import Hostapd.Tls.Record

/-!
# The TLS record layer: what is sent is what is received

* **`receive_send`**: a reader in step with a writer gets the payload of a record, and they stay in
  step (`Synced`); `send_room`: with room in the buffer a payload is sent.
* **`Opens`**: what a record is that `receiveProtected` accepts (`Opens.receive`,
  `receiveProtected_ok`), with `PadTail` and `MacOk`. **`padOk_iff`**: the check of the padding
  leaves out its first octet.
* **`stream_run`**, **`stream_sent`**: the same over runs with cipher changes.
-/

namespace Hostapd.Tls

open Hostapd.Lib

variable {κ : Type*} {c : Crypto κ}

/-! ## Lengths and padding -/

theorem sizeSub_eq {a b : ℕ} (hb : b ≤ a) (ha : a < 2 ^ 64) : sizeSub a b = a - b := by
  unfold sizeSub
  omega

theorem padLen_spec {ivSize : ℕ} (hiv : 0 < ivSize) (len : ℕ) :
    padLen ivSize len < ivSize ∧ ivSize ∣ len + padLen ivSize len + 1 := by
  have hmod := Nat.mod_lt (len + 1) hiv
  unfold padLen
  split
  · rename_i hzero
    exact ⟨hiv, by rw [Nat.add_zero]; exact Nat.dvd_of_mod_eq_zero hzero⟩
  · rename_i hne
    refine ⟨by omega, ?_⟩
    have hdiv := Nat.div_add_mod (len + 1) ivSize
    refine ⟨(len + 1) / ivSize + 1, ?_⟩
    rw [Nat.mul_add, Nat.mul_one]
    omega

/-- The last octets, as many as the last one says, are all equal to it. -/
def PadTail (data : Bytes) : Prop :=
  (lastOctet data).toNat < data.length ∧
    (data.drop (data.length - (lastOctet data).toNat)).all (· = lastOctet data) = true

/-- The padding of a record: as many octets as the last one says, in front of it, and it, are all
equal to it. -/
def PadOk (data : Bytes) : Prop :=
  (lastOctet data).toNat < data.length ∧
    ∀ a ∈ data.drop (data.length - (lastOctet data).toNat - 1), a = lastOctet data

def firstPad (data : Bytes) : UInt8 := data.getD (data.length - (lastOctet data).toNat - 1) 0

theorem padOk_iff {data : Bytes} : PadOk data ↔ PadTail data ∧ firstPad data = lastOctet data := by
  unfold PadOk PadTail firstPad
  rw [and_assoc]
  refine and_congr_right fun hlen => ?_
  have hpos : data.length - (lastOctet data).toNat - 1 < data.length := by omega
  have hcons : data.drop (data.length - (lastOctet data).toNat - 1) =
      data.getD (data.length - (lastOctet data).toNat - 1) 0 ::
        data.drop (data.length - (lastOctet data).toNat) := by
    rw [List.drop_eq_getElem_cons hpos, List.getD_eq_getElem?_getD, List.getElem?_eq_getElem hpos,
      Option.getD_some]
    congr 2
    omega
  rw [hcons]
  simp only [List.mem_cons, forall_eq_or_imp, List.all_eq_true, decide_eq_true_eq]
  exact and_comm

def unpadded (ivSize : ℕ) (data : Bytes) : ℕ :=
  if ivSize = 0 then data.length else data.length - ((lastOctet data).toNat + 1)

theorem unpadded_le (ivSize : ℕ) (data : Bytes) : unpadded ivSize data ≤ data.length := by
  unfold unpadded
  split <;> omega

theorem removePadding_ok_iff {ivSize n : ℕ} {data : Bytes} (hsize : data.length < 2 ^ 64) :
    removePadding ivSize data = .ok n ↔
      (ivSize = 0 ∨ PadTail data) ∧ n = unpadded ivSize data := by
  unfold removePadding unpadded
  by_cases hiv : ivSize = 0
  · simp [hiv, eq_comm]
  · rw [if_neg hiv, if_neg hiv]
    by_cases hempty : data.length = 0
    · have hnot : ¬ PadTail data := fun h => by
        have := h.1
        omega
      rw [if_pos hempty]
      simp [hiv, hnot]
    · rw [if_neg hempty]
      dsimp only
      by_cases hlen : (lastOctet data).toNat < data.length
      · rw [if_neg (not_le.mpr hlen)]
        by_cases htail : (data.drop (data.length - (lastOctet data).toNat)).all
            (· = lastOctet data) = true
        · rw [if_neg (not_not.mpr htail), sizeSub_eq hlen hsize, Except.ok.injEq]
          simp only [hiv, false_or, eq_comm (a := n)]
          exact (and_iff_right ⟨hlen, htail⟩).symm
        · rw [if_pos htail]
          have hnot : ¬ PadTail data := fun h => htail h.2
          simp [hiv, hnot]
      · rw [if_pos (not_lt.mp hlen)]
        have hnot : ¬ PadTail data := fun h => hlen h.1
        simp [hiv, hnot]

/-! ## What is accepted -/

/-- The octets in front of the padding and the MAC. -/
def payloadLen (rl : RecordLayer κ) (data : Bytes) : ℕ := unpadded rl.ivSize data - rl.hashSize

def macTag (rl : RecordLayer κ) (data : Bytes) (len : ℕ) : Bytes := (data.drop len).take rl.hashSize

variable (c) in
/-- There is a MAC, and it verifies for the current read sequence number. -/
def MacOk (rl : RecordLayer κ) (type : UInt8) (data : Bytes) : Prop :=
  rl.hashSize ≤ unpadded rl.ivSize data ∧
    readMac c rl type (data.take (payloadLen rl data)) = macTag rl data (payloadLen rl data)

variable {rl : RecordLayer κ} {type : UInt8} {data fragment : Bytes}

theorem length_macTag (h : rl.hashSize ≤ unpadded rl.ivSize data) :
    (macTag rl data (payloadLen rl data)).length = rl.hashSize := by
  have hle := unpadded_le rl.ivSize data
  rw [macTag, List.length_take, List.length_drop, payloadLen]
  omega

theorem verifyMac_len_le (hashInit : Bool) (rl : RecordLayer κ) (type : UInt8) (data : Bytes)
    {len : ℕ} (hsize : len < 2 ^ 64) :
    (verifyMac c hashInit rl type data len).1 ≤ len := by
  unfold verifyMac
  by_cases hroom : len < rl.hashSize
  · rw [if_pos hroom]
  · rw [if_neg hroom]
    have hsub : sizeSub len rl.hashSize ≤ len := by
      rw [sizeSub_eq (not_lt.mp hroom) hsize]
      exact Nat.sub_le _ _
    dsimp only
    split
    · exact hsub
    · split <;> exact hsub

theorem verifyMac_ok_iff (rl : RecordLayer κ) (type : UInt8) (hsize : data.length < 2 ^ 64) :
    ((verifyMac c true rl type data (unpadded rl.ivSize data)).2 = .ok () ↔ MacOk c rl type data) ∧
      (MacOk c rl type data →
        verifyMac c true rl type data (unpadded rl.ivSize data) = (payloadLen rl data, .ok ())) := by
  have hle := unpadded_le rl.ivSize data
  unfold verifyMac
  by_cases hroom : unpadded rl.ivSize data < rl.hashSize
  · rw [if_pos hroom]
    have hnot : ¬ MacOk c rl type data := fun h => absurd h.1 (by omega)
    exact ⟨iff_of_false nofun hnot, fun h => absurd h hnot⟩
  · have hsub : sizeSub (unpadded rl.ivSize data) rl.hashSize = payloadLen rl data :=
      sizeSub_eq (by omega) (by omega)
    have htag := length_macTag (not_lt.mp hroom)
    rw [if_neg hroom]
    simp only [hsub, not_true, if_false]
    by_cases hmac : readMac c rl type (data.take (payloadLen rl data)) =
        macTag rl data (payloadLen rl data)
    · have hlen := congrArg List.length hmac
      rw [htag] at hlen
      have hgood : ¬ ((readMac c rl type (data.take (payloadLen rl data))).length ≠ rl.hashSize ∨
          readMac c rl type (data.take (payloadLen rl data)) ≠
            (data.drop (payloadLen rl data)).take
              (readMac c rl type (data.take (payloadLen rl data))).length) := by
        rw [hlen]
        exact fun h => h.elim (fun hne => hne rfl) fun hne => hne hmac
      rw [if_neg hgood]
      exact ⟨iff_of_true rfl ⟨not_lt.mp hroom, hmac⟩, fun _ => rfl⟩
    · have hbad : (readMac c rl type (data.take (payloadLen rl data))).length ≠ rl.hashSize ∨
          readMac c rl type (data.take (payloadLen rl data)) ≠
            (data.drop (payloadLen rl data)).take
              (readMac c rl type (data.take (payloadLen rl data))).length := by
        by_contra hgood
        rw [not_or, not_not, not_not] at hgood
        obtain ⟨hlen, hmac'⟩ := hgood
        rw [hlen] at hmac'
        exact hmac hmac'
      rw [if_pos hbad]
      exact ⟨iff_of_false nofun fun h => hmac h.2, fun h => absurd h.2 hmac⟩

/-- A protected record is accepted: what it decrypts to has a padding that the check lets through,
a MAC that verifies, and a payload that is not too long. -/
structure Opens (c : Crypto κ) (rl : RecordLayer κ) (type : UInt8) (fragment : Bytes) (k : κ)
    (data : Bytes) : Prop where
  decrypts : rl.readCbc.bind (c.decrypt · fragment) = some (k, data)
  padding : rl.ivSize = 0 ∨ PadTail data
  mac : MacOk c rl type data
  short : recordHeaderLen + payloadLen rl data ≤ 17408

theorem length_decrypts (hc : c.Lawful) {k : κ}
    (h : rl.readCbc.bind (c.decrypt · fragment) = some (k, data)) :
    data.length = fragment.length := by
  obtain ⟨k₀, -, hdec⟩ := Option.bind_eq_some_iff.mp h
  exact hc.length_decrypt hdec

theorem Opens.receive (hc : c.Lawful) {k : κ} (h : Opens c rl type fragment k data)
    (hsize : fragment.length < 2 ^ 64) :
    receiveProtected c true rl type fragment =
      ⟨{ rl with readCbc := some k, readSeqNum := rl.readSeqNum + 1 }, data, payloadLen rl data,
        .ok ()⟩ := by
  have hlen : data.length < 2 ^ 64 := (length_decrypts hc h.decrypts).trans_lt hsize
  have hpad := (removePadding_ok_iff hlen).mpr ⟨h.padding, rfl⟩
  have hmac : verifyMac c true { rl with readCbc := some k } type data (unpadded rl.ivSize data) =
      (payloadLen rl data, .ok ()) := (verifyMac_ok_iff _ type hlen).2 h.mac
  have hshort : ¬ recordHeaderLen + payloadLen rl data > 17408 := not_lt.mpr h.short
  rw [receiveProtected, h.decrypts]
  simp only [hpad, hmac]
  exact if_neg hshort

theorem receiveProtected_outLen_le (hc : c.Lawful) (hsize : fragment.length < 2 ^ 64)
    (hashInit : Bool) :
    (receiveProtected c hashInit rl type fragment).outLen ≤ fragment.length := by
  rcases hdec : rl.readCbc.bind (c.decrypt · fragment) with _ | ⟨k, data⟩
  · rw [receiveProtected, hdec]
  · have hsame := length_decrypts hc hdec
    have hlen : data.length < 2 ^ 64 := hsame.trans_lt hsize
    rw [receiveProtected, hdec]
    cases hpad : removePadding rl.ivSize data with
    | error alert =>
      simp only [hpad]
      exact hsame.le
    | ok n =>
      have hn : n ≤ data.length := by
        rw [((removePadding_ok_iff hlen).mp hpad).2]
        exact unpadded_le rl.ivSize data
      have hmac := verifyMac_len_le (c := c) hashInit { rl with readCbc := some k } type data
        (hn.trans_lt hlen)
      simp only [hpad]
      rcases hverify : verifyMac c hashInit { rl with readCbc := some k } type data n with ⟨len, _ | _⟩
      · rw [hverify] at hmac
        exact hmac.trans (hn.trans hsame.le)
      · rw [hverify] at hmac
        simp only [finishReceive]
        split <;> exact hmac.trans (hn.trans hsame.le)

theorem receiveProtected_ok (hc : c.Lawful) (hsize : fragment.length < 2 ^ 64)
    (h : (receiveProtected c true rl type fragment).ret = .ok ()) :
    ∃ k data, Opens c rl type fragment k data := by
  rcases hdec : rl.readCbc.bind (c.decrypt · fragment) with _ | ⟨k, data⟩
  · rw [receiveProtected, hdec] at h
    cases h
  · have hlen : data.length < 2 ^ 64 := (length_decrypts hc hdec).trans_lt hsize
    rw [receiveProtected, hdec] at h
    cases hpad : removePadding rl.ivSize data with
    | error alert =>
      simp only [hpad] at h
      cases h
    | ok n =>
      obtain ⟨hpadding, rfl⟩ := (removePadding_ok_iff hlen).mp hpad
      have hverify := verifyMac_ok_iff (c := c) { rl with readCbc := some k } type hlen
      simp only [hpad] at h
      by_cases hmac : MacOk c { rl with readCbc := some k } type data
      · rw [hverify.2 hmac] at h
        simp only [finishReceive] at h
        split at h
        · cases h
        · rename_i hshort
          exact ⟨k, data, hdec, hpadding, hmac, not_lt.mp hshort⟩
      · rcases hres : verifyMac c true { rl with readCbc := some k } type data
          (unpadded rl.ivSize data) with ⟨len, alert | _⟩
        · rw [hres] at h
          cases h
        · have hok := hverify.1.mp (by rw [hres])
          exact absurd hok hmac

theorem receiveProtected_error {hashInit : Bool} {alert : TlsAlert}
    (h : (receiveProtected c hashInit rl type fragment).ret = .error alert) :
    (receiveProtected c hashInit rl type fragment).rl.readSeqNum = rl.readSeqNum ∧
      (receiveProtected c hashInit rl type fragment).rl.readCipherSuite = rl.readCipherSuite := by
  rcases hdec : rl.readCbc.bind (c.decrypt · fragment) with _ | ⟨k, data⟩
  · rw [receiveProtected, hdec]
    exact ⟨rfl, rfl⟩
  · rw [receiveProtected, hdec] at h ⊢
    cases hpad : removePadding rl.ivSize data with
    | error alert => simp only [hpad, and_self]
    | ok n =>
      simp only [hpad] at h ⊢
      rcases hverify : verifyMac c hashInit { rl with readCbc := some k } type data n
        with ⟨len, alert' | _⟩
      · exact ⟨rfl, rfl⟩
      · rw [hverify] at h
        dsimp only at h ⊢
        unfold finishReceive at h ⊢
        split at h
        · rename_i hlong
          rw [if_pos hlong]
          exact ⟨rfl, rfl⟩
        · cases h

/-! ## A record as it is sent -/

theorem recordHeader_recordOf (type : ContentType) (fragment : Bytes) {outLen : ℕ}
    (hshort : recordHeaderLen + fragment.length ≤ 18432) (hroom : fragment.length ≤ outLen) :
    recordHeader (recordOf type.octet fragment) outLen = .ok fragment := by
  have hfits : fragment.length < 2 ^ 16 := by
    simp only [recordHeaderLen] at hshort
    omega
  have hversion : be16 ((recordOf type.octet fragment).drop 1) = tlsVersion :=
    be16_putBe16 (by decide) _
  have hlen : be16 ((recordOf type.octet fragment).drop 3) = fragment.length :=
    be16_putBe16 hfits fragment
  have hlength : (recordOf type.octet fragment).length = recordHeaderLen + fragment.length := by
    simp [recordOf, recordHeaderLen]
    omega
  have hdrop : (recordOf type.octet fragment).drop recordHeaderLen = fragment := rfl
  have htype : (recordOf type.octet fragment).getD 0 0 = type.octet := rfl
  have hknown : ¬ (type.octet ≠ ContentType.handshake.octet ∧
      type.octet ≠ ContentType.changeCipherSpec.octet ∧ type.octet ≠ ContentType.alert.octet ∧
      type.octet ≠ ContentType.applicationData.octet) := by
    cases type <;> decide
  simp only [recordHeader, hlength, htype, hknown, hversion, hlen, hdrop, if_false, not_lt.mpr
    hshort, not_lt.mpr hroom, gt_iff_lt, ne_eq, not_true, Nat.add_sub_cancel_left, lt_irrefl,
    List.take_length, not_lt.mpr (Nat.le_add_right recordHeaderLen fragment.length)]

theorem length_le_recordOf (type : UInt8) (fragment : Bytes) :
    fragment.length ≤ (recordOf type fragment).length := by
  rw [recordOf, List.length_append]
  exact Nat.le_add_left _ _

theorem padTail_append (front : Bytes) {pad : ℕ} (hpad : pad < 256) :
    PadTail (front ++ List.replicate (pad + 1) (UInt8.ofNat pad)) ∧
      lastOctet (front ++ List.replicate (pad + 1) (UInt8.ofNat pad)) = UInt8.ofNat pad := by
  have hlast : lastOctet (front ++ List.replicate (pad + 1) (UInt8.ofNat pad)) =
      UInt8.ofNat pad := by
    have hlen : (front ++ List.replicate (pad + 1) (UInt8.ofNat pad)).length - 1 =
        front.length + pad := by
      simp
    rw [lastOctet, hlen, List.getD_eq_getElem?_getD, List.getElem?_append_right (by omega)]
    simp
  have hnat : (UInt8.ofNat pad).toNat = pad := by
    simp only [UInt8.toNat_ofNat']
    omega
  refine ⟨⟨?_, ?_⟩, hlast⟩
  · rw [hlast, hnat]
    simp
    omega
  · rw [hlast, hnat]
    have hdrop : (front ++ List.replicate (pad + 1) (UInt8.ofNat pad)).length - pad =
        front.length + 1 := by
      simp
      omega
    rw [hdrop, List.drop_append, List.drop_of_length_le (Nat.le_succ _)]
    simp

/-- A writer and a reader in step: what the writer writes with, the reader reads with. -/
structure Synced (w r : RecordLayer κ) : Prop where
  hashAlg : r.hashAlg = w.hashAlg
  hashSize : r.hashSize = w.hashSize
  ivSize : r.ivSize = w.ivSize
  keyMaterialLen : r.keyMaterialLen = w.keyMaterialLen
  cipherAlg : r.cipherAlg = w.cipherAlg
  cipherSuite : r.cipherSuite = w.cipherSuite
  macSecret : r.readMacSecret = w.writeMacSecret
  activeSuite : r.readCipherSuite = w.writeCipherSuite
  seqNum : r.readSeqNum = w.writeSeqNum
  cbc : r.readCbc = w.writeCbc

/-- A writer whose active cipher suite is set up: the hash has its size, and the cipher is there for
blocks of its size. -/
structure Armed (c : Crypto κ) (w : RecordLayer κ) : Prop where
  ivSize : w.ivSize ≤ 16
  hashSize : w.writeCipherSuite ≠ nullWithNullNull → w.hashSize = w.hashAlg.macLen
  cbc : w.writeCipherSuite ≠ nullWithNullNull →
    ∃ k, w.writeCbc = some k ∧ c.block k = max w.ivSize 1

variable {w r : RecordLayer κ} {payload : Bytes} {bufSize : ℕ}

theorem macLen_le (alg : HashAlg) : alg.macLen ≤ 20 := by
  cases alg <;> decide

theorem protectedData_opens (hc : c.Lawful) (hsync : Synced w r)
    (hhash : w.hashSize = w.hashAlg.macLen) (hiv : w.ivSize ≤ 16)
    (h : protectedData c w type payload bufSize = some data) :
    (r.ivSize = 0 ∨ PadTail data) ∧ MacOk c r type data ∧ payloadLen r data = payload.length ∧
      data.take payload.length = payload ∧
      data.length ≤ payload.length + 36 ∧ max w.ivSize 1 ∣ data.length := by
  obtain ⟨mac, hmac⟩ : ∃ mac, mac = c.hmac w.hashAlg (w.writeMacSecret.take w.hashSize)
      (macData w.writeSeqNum type payload) := ⟨_, rfl⟩
  have hlen : mac.length = w.hashSize := by rw [hmac, hc.length_hmac, hhash]
  have hbound := macLen_le w.hashAlg
  have hread : ∀ p, readMac c r type p = c.hmac w.hashAlg (w.writeMacSecret.take w.hashSize)
      (macData w.writeSeqNum type p) := by
    intro p
    rw [readMac, hsync.hashAlg, hsync.hashSize, hsync.macSecret, hsync.seqNum]
  -- whatever the padding is, the MAC is where the reader looks for it
  have hopen : ∀ tail : Bytes, unpadded r.ivSize (payload ++ mac ++ tail) =
      (payload ++ mac).length → MacOk c r type (payload ++ mac ++ tail) ∧
        payloadLen r (payload ++ mac ++ tail) = payload.length := by
    intro tail hun
    have hfront : payloadLen r (payload ++ mac ++ tail) = payload.length := by
      rw [payloadLen, hun, List.length_append, hlen, hsync.hashSize, Nat.add_sub_cancel]
    refine ⟨⟨?_, ?_⟩, hfront⟩
    · rw [hun, List.length_append, hlen, hsync.hashSize]
      exact Nat.le_add_left _ _
    · rw [hfront, hread, macTag, hsync.hashSize, List.append_assoc, List.take_left, List.drop_left,
        ← hmac, List.take_left' hlen]
  unfold protectedData at h
  dsimp only at h
  rw [← hmac] at h
  split at h
  · cases h
  · by_cases hzero : w.ivSize = 0
    · rw [if_pos hzero, Option.some.injEq] at h
      obtain ⟨hmacok, hfront⟩ := hopen [] (by rw [unpadded, hsync.ivSize, if_pos hzero]; simp)
      rw [List.append_nil, h] at hmacok hfront
      refine ⟨Or.inl (hsync.ivSize.trans hzero), hmacok, hfront, ?_, ?_, ?_⟩
      · rw [← h, List.take_left]
      · rw [← h, List.length_append]
        omega
      · simp [hzero]
    · rw [if_neg hzero] at h
      split at h
      · cases h
      · obtain ⟨hsmall, hdvd⟩ := padLen_spec (Nat.pos_of_ne_zero hzero) (payload ++ mac).length
        obtain ⟨htail, hlast⟩ := padTail_append (payload ++ mac)
          (show padLen w.ivSize (payload ++ mac).length < 256 by omega)
        have hun : unpadded r.ivSize (payload ++ mac ++ List.replicate
            (padLen w.ivSize (payload ++ mac).length + 1)
            (UInt8.ofNat (padLen w.ivSize (payload ++ mac).length))) = (payload ++ mac).length := by
          have hnat : (UInt8.ofNat (padLen w.ivSize (payload ++ mac).length)).toNat =
              padLen w.ivSize (payload ++ mac).length := by
            simp only [UInt8.toNat_ofNat']
            omega
          rw [unpadded, hsync.ivSize, if_neg hzero, hlast, hnat, List.length_append,
            List.length_replicate]
          omega
        obtain ⟨hmacok, hfront⟩ := hopen _ hun
        rw [Option.some.injEq] at h
        rw [h] at hmacok hfront htail
        refine ⟨Or.inr htail, hmacok, hfront, ?_, ?_, ?_⟩
        · rw [← h, List.append_assoc, List.take_left]
        · have hfrontlen : (payload ++ mac).length = payload.length + mac.length :=
            List.length_append
          rw [← h, List.length_append, List.length_replicate]
          omega
        · have hmax : max w.ivSize 1 = w.ivSize := by omega
          rw [hmax, ← h, List.length_append, List.length_replicate, ← Nat.add_assoc]
          exact hdvd

theorem protectedData_isSome (hc : c.Lawful) (hhash : w.hashSize = w.hashAlg.macLen)
    (hiv : w.ivSize ≤ 16) (type : UInt8) (hroom : payload.length + 41 ≤ bufSize) :
    ∃ data, protectedData c w type payload bufSize = some data := by
  have hbound := macLen_le w.hashAlg
  have hlen := hc.length_hmac w.hashAlg (w.writeMacSecret.take w.hashSize)
    (macData w.writeSeqNum type payload)
  have hfits : ¬ bufSize - (recordHeaderLen + payload.length) < w.hashSize := by
    rw [recordHeaderLen]
    omega
  unfold protectedData
  dsimp only
  rw [if_neg hfits]
  by_cases hzero : w.ivSize = 0
  · exact ⟨_, if_pos hzero⟩
  · have hsmall := (padLen_spec (Nat.pos_of_ne_zero hzero) (payload ++
      c.hmac w.hashAlg (w.writeMacSecret.take w.hashSize)
        (macData w.writeSeqNum type payload)).length).1
    rw [if_neg hzero, if_neg]
    · exact ⟨_, rfl⟩
    · rw [List.length_append] at hsmall ⊢
      rw [recordHeaderLen]
      omega

theorem send_room (hc : c.Lawful) (harm : Armed c w) (type : ContentType)
    (hroom : payload.length + 41 ≤ bufSize) :
    ∃ w' record, tlsv1RecordSend c true w type.octet payload bufSize = (w', some record) := by
  unfold tlsv1RecordSend
  by_cases hnull : w.writeCipherSuite = nullWithNullNull
  · exact ⟨_, _, if_pos hnull⟩
  · obtain ⟨data, hdata⟩ := protectedData_isSome hc (harm.hashSize hnull) harm.ivSize type.octet
      hroom
    obtain ⟨k, hk, hblock⟩ := harm.cbc hnull
    have hdvd : c.block k ∣ data.length := by
      have hsync : Synced w { w with
          readMacSecret := w.writeMacSecret, readCipherSuite := w.writeCipherSuite,
          readSeqNum := w.writeSeqNum, readCbc := w.writeCbc } :=
        ⟨rfl, rfl, rfl, rfl, rfl, rfl, rfl, rfl, rfl, rfl⟩
      rw [hblock]
      exact (protectedData_opens hc hsync (harm.hashSize hnull) harm.ivSize hdata).2.2.2.2.2
    obtain ⟨⟨k', crypt⟩, hcrypt⟩ := Option.isSome_iff_exists.mp (hc.encrypt_isSome hdvd)
    rw [if_neg hnull]
    simp only [not_true, if_false, hdata, hk, Option.bind_some, hcrypt]
    exact ⟨_, _, rfl⟩

theorem send_none {w' : RecordLayer κ} {type : UInt8}
    (h : tlsv1RecordSend c true w type payload bufSize = (w', none)) : w' = w := by
  unfold tlsv1RecordSend at h
  split at h
  · cases h
  · simp only [not_true, if_false] at h
    split at h
    · cases h
      rfl
    · split at h
      · cases h
        rfl
      · cases h

/-- **A record is received as it was sent**: a reader in step gets the payload, and both stay in
step. -/
theorem receive_send (hc : c.Lawful) (hsync : Synced w r) (harm : Armed c w) (type : ContentType)
    (hpayload : payload.length ≤ 2 ^ 14) {w' : RecordLayer κ} {record : Bytes}
    (hsend : tlsv1RecordSend c true w type.octet payload bufSize = (w', some record)) {outLen : ℕ}
    (hout : record.length ≤ outLen) :
    record.getD 0 0 = type.octet ∧ Armed c w' ∧ ∃ r' outData len,
      tlsv1RecordReceive c true r record outLen = ⟨r', outData, len, .ok ()⟩ ∧
        outData.take len = payload ∧ Synced w' r' := by
  unfold tlsv1RecordSend at hsend
  by_cases hnull : w.writeCipherSuite = nullWithNullNull
  · rw [if_pos hnull, Prod.mk.injEq, Option.some.injEq] at hsend
    obtain ⟨rfl, rfl⟩ := hsend
    have hlen : payload.length ≤ outLen := (length_le_recordOf _ _).trans hout
    have hheader := recordHeader_recordOf type payload
      (by rw [recordHeaderLen]; omega) hlen
    refine ⟨rfl, ⟨harm.ivSize, fun h => absurd hnull h, fun h => absurd hnull h⟩,
      { r with readSeqNum := r.readSeqNum + 1 }, payload, payload.length, ?_, List.take_length, ?_⟩
    · rw [tlsv1RecordReceive, hheader]
      dsimp only
      rw [if_pos (hsync.activeSuite.trans hnull), finishReceive, if_neg]
      rw [recordHeaderLen]
      omega
    · exact { hsync with seqNum := congrArg (· + 1) hsync.seqNum }
  · simp only [if_neg hnull, not_true, if_false] at hsend
    split at hsend
    · cases hsend
    · rename_i data hdata
      split at hsend
      · cases hsend
      · rename_i k' crypt hcrypt
        rw [Prod.mk.injEq, Option.some.injEq] at hsend
        obtain ⟨rfl, rfl⟩ := hsend
        obtain ⟨k, hk, hencrypt⟩ := Option.bind_eq_some_iff.mp hcrypt
        obtain ⟨hdecrypt, hlen, hblock⟩ := hc.decrypt_encrypt hencrypt
        obtain ⟨hpad, hmac, hfront, htake, hbound, -⟩ := protectedData_opens hc hsync
          (harm.hashSize hnull) harm.ivSize hdata
        have hshort : crypt.length ≤ 2 ^ 14 + 36 := by omega
        have hroom : crypt.length ≤ outLen := (length_le_recordOf _ _).trans hout
        have hheader := recordHeader_recordOf type crypt
          (by rw [recordHeaderLen]; omega) hroom
        have hopens : Opens c r type.octet crypt k' data := by
          refine ⟨?_, hpad, hmac, ?_⟩
          · rw [hsync.cbc, hk]
            exact hdecrypt
          · rw [hfront, recordHeaderLen]
            omega
        refine ⟨rfl, ⟨harm.ivSize, harm.hashSize, fun h => ?_⟩,
          { r with readCbc := some k', readSeqNum := r.readSeqNum + 1 }, data, payloadLen r data,
          ?_, ?_, ?_⟩
        · obtain ⟨k₀, hk₀, hsize⟩ := harm.cbc h
          rw [hk, Option.some.injEq] at hk₀
          exact ⟨k', rfl, by rw [hblock, hk₀, hsize]⟩
        · have hactive : r.readCipherSuite ≠ nullWithNullNull := by rwa [hsync.activeSuite]
          rw [tlsv1RecordReceive, hheader]
          dsimp only
          rw [if_neg hactive]
          exact hopens.receive hc (by omega)
        · rw [hfront, htake]
        · exact { hsync with seqNum := congrArg (· + 1) hsync.seqNum, cbc := rfl }

/-! ## The stream -/

/-- The two ends of a direction of a connection, with the payloads that were sent, and what the
reader got of each record: its content type and its payload, or nothing. -/
structure Stream (κ : Type*) where
  writer : RecordLayer κ
  reader : RecordLayer κ
  sent : List (ContentType × Bytes)
  received : List (Option (UInt8 × Bytes))

/-- What happens on a stream: the cipher changes at both ends, or a payload is sent from a buffer
and received into one with some octets to spare. -/
inductive StreamOp
  | change (cipherSuite : UInt16) (macSecret key iv : Bytes)
  | send (type : ContentType) (payload : Bytes) (bufSize spare : ℕ)

/-- A new cipher for the writer. Source: the callers of `tlsv1_record_change_write_cipher`. -/
def changeWriter (c : Crypto κ) (w : RecordLayer κ) (cipherSuite : UInt16)
    (macSecret key iv : Bytes) : RecordLayer κ :=
  match setCipherSuite w cipherSuite with
  | (w, false) => w
  | (w, true) =>
    (changeWriteCipher c
      { w with writeMacSecret := macSecret, writeKey := key, writeIv := iv }).1

/-- A new cipher for the reader. Source: the callers of `tlsv1_record_change_read_cipher`. -/
def changeReader (c : Crypto κ) (r : RecordLayer κ) (cipherSuite : UInt16)
    (macSecret key iv : Bytes) : RecordLayer κ :=
  match setCipherSuite r cipherSuite with
  | (r, false) => r
  | (r, true) =>
    (changeReadCipher c { r with readMacSecret := macSecret, readKey := key, readIv := iv }).1

def streamStep (c : Crypto κ) (s : Stream κ) : StreamOp → Stream κ
  | .change cipherSuite macSecret key iv =>
    { s with
      writer := changeWriter c s.writer cipherSuite macSecret key iv
      reader := changeReader c s.reader cipherSuite macSecret key iv }
  | .send type payload bufSize spare =>
    match tlsv1RecordSend c true s.writer type.octet payload bufSize with
    | (w, none) => { s with writer := w }
    | (w, some record) =>
      let res := tlsv1RecordReceive c true s.reader record (record.length + spare)
      { writer := w
        reader := res.rl
        sent := s.sent ++ [(type, payload)]
        received := s.received ++
          [match res.ret with
            | .error _ => none
            | .ok () => some (record.getD 0 0, res.outData.take res.outLen)] }

def Stream.init : Stream κ := ⟨RecordLayer.init, RecordLayer.init, [], []⟩

/-- The invariant of a stream: both ends are in step, and what was sent was received. -/
structure StreamInv (c : Crypto κ) (s : Stream κ) : Prop where
  synced : Synced s.writer s.reader
  armed : Armed c s.writer
  received : s.received = s.sent.map fun x => some (x.1.octet, x.2)

theorem streamInv_init (c : Crypto κ) : StreamInv c Stream.init :=
  ⟨⟨rfl, rfl, rfl, rfl, rfl, rfl, rfl, rfl, rfl, rfl⟩,
    ⟨Nat.zero_le 16, fun h => absurd rfl h, fun h => absurd rfl h⟩, rfl⟩

theorem cipherSuites_ok : ∀ suite ∈ cipherSuites,
    suite.2.1.data.2.1 ≤ 16 ∧ (suite.1 = nullWithNullNull → suite.2.1.data.2.2 = .null) ∧
      (suite.1 ≠ nullWithNullNull → suite.2.1 ≠ .null ∧ suite.2.1.data.2.2 ≠ .null ∧
        suite.2.2.isSome) := by
  decide

theorem setCipherSuite_some {rl : RecordLayer κ} {cipherSuite suite : UInt16} {cipher : TlsCipher}
    {hash : Option HashAlg}
    (h : cipherSuites.find? (·.1 = cipherSuite) = some (suite, cipher, hash)) :
    setCipherSuite rl cipherSuite =
      ({ rl with
          cipherSuite := cipherSuite
          hashAlg := hash.getD rl.hashAlg
          hashSize := (hash.map HashAlg.macLen).getD rl.hashSize
          keyMaterialLen := cipher.data.1
          ivSize := cipher.data.2.1
          cipherAlg := cipher.data.2.2 }, true) := by
  rw [setCipherSuite, h]
  cases hash <;> rfl

theorem change_synced (hc : c.Lawful) (hsync : Synced w r) (harm : Armed c w)
    (cipherSuite : UInt16) (macSecret key iv : Bytes) :
    Synced (changeWriter c w cipherSuite macSecret key iv)
        (changeReader c r cipherSuite macSecret key iv) ∧
      Armed c (changeWriter c w cipherSuite macSecret key iv) := by
  rcases hfind : cipherSuites.find? (·.1 = cipherSuite) with _ | ⟨suite, cipher, hash⟩
  · -- an unknown suite is noted, and the ciphers in use stay
    have hw : changeWriter c w cipherSuite macSecret key iv = { w with cipherSuite } := by
      simp [changeWriter, setCipherSuite, hfind]
    have hr : changeReader c r cipherSuite macSecret key iv = { r with cipherSuite } := by
      simp [changeReader, setCipherSuite, hfind]
    rw [hw, hr]
    exact ⟨{ hsync with cipherSuite := rfl }, ⟨harm.ivSize, harm.hashSize, harm.cbc⟩⟩
  · obtain ⟨hiv, hnull, hset⟩ := cipherSuites_ok _ (List.mem_of_find?_eq_some hfind)
    have hsuite : suite = cipherSuite := by simpa using List.find?_some hfind
    simp only [changeWriter, changeReader, setCipherSuite_some hfind, changeWriteCipher,
      changeReadCipher]
    by_cases hzero : cipherSuite = nullWithNullNull
    · have halg : cipher.data.2.2 = .null := hnull (hsuite.trans hzero)
      simp only [halg, if_true]
      exact ⟨⟨by rw [hsync.hashAlg], by rw [hsync.hashSize], rfl, rfl, rfl, rfl, rfl, rfl, rfl,
        rfl⟩, ⟨hiv, fun h => absurd hzero h, fun h => absurd hzero h⟩⟩
    · obtain ⟨hcipher, halg, hhash⟩ := hset (hsuite.trans_ne hzero)
      obtain ⟨k, hinit, hblock⟩ := hc.cipherInit _ (List.mem_of_find?_eq_some hfind) iv
        (key.take cipher.data.1) hcipher
      obtain ⟨alg, rfl⟩ := Option.isSome_iff_exists.mp hhash
      simp only [halg, if_false, hinit]
      exact ⟨⟨rfl, rfl, rfl, rfl, rfl, rfl, rfl, rfl, rfl, rfl⟩,
        ⟨hiv, fun _ => rfl, fun _ => ⟨k, rfl, hblock⟩⟩⟩

def StreamOp.Fits : StreamOp → Prop
  | .change _ _ _ _ => True
  | .send _ payload _ _ => payload.length ≤ 2 ^ 14

variable {s : Stream κ}

theorem streamStep_inv (hc : c.Lawful) (op : StreamOp) (h : StreamInv c s)
    (hop : op.Fits) : StreamInv c (streamStep c s op) := by
  cases op with
  | change cipherSuite macSecret key iv =>
    obtain ⟨hsync, harm⟩ := change_synced hc h.synced h.armed cipherSuite macSecret key iv
    exact ⟨hsync, harm, h.received⟩
  | send type payload bufSize spare =>
    rcases hsend : tlsv1RecordSend c true s.writer type.octet payload bufSize with ⟨w, _ | record⟩
    · have hsame : streamStep c s (.send type payload bufSize spare) = s := by
        simp only [streamStep, hsend]
        rw [send_none hsend]
      rwa [hsame]
    · obtain ⟨htype, harm, r', outData, len, hres, hpayload, hsync⟩ := receive_send hc h.synced
        h.armed type hop hsend (Nat.le_add_right record.length spare)
      refine ⟨?_, by simpa only [streamStep, hsend] using harm, ?_⟩
      · simp only [streamStep, hsend, hres]
        exact hsync
      · simp only [streamStep, hsend, hres, h.received, htype, hpayload, List.map_append,
          List.map_cons, List.map_nil]

/-- A buffer has room for the header, the MAC and the padding of its payload. -/
def StreamOp.Roomy : StreamOp → Prop
  | .change _ _ _ _ => True
  | .send _ payload bufSize _ => payload.length + 41 ≤ bufSize

def StreamOp.sends : StreamOp → List (ContentType × Bytes)
  | .change _ _ _ _ => []
  | .send type payload _ _ => [(type, payload)]

theorem streamStep_sent (hc : c.Lawful) (op : StreamOp) (h : StreamInv c s)
    (hop : op.Roomy) : (streamStep c s op).sent = s.sent ++ op.sends := by
  cases op with
  | change cipherSuite macSecret key iv => exact (List.append_nil _).symm
  | send type payload bufSize spare =>
    obtain ⟨w', record, hsend⟩ := send_room hc h.armed type hop
    simp only [streamStep, hsend]
    rfl

theorem stream_run (hc : c.Lawful) (h : StreamInv c s) {l : List StreamOp}
    (hl : ∀ op ∈ l, op.Fits) : StreamInv c (run (streamStep c) s l) :=
  Along.run_inv (fun _ op hs hop => streamStep_inv hc op hs hop) h (along_of_forall hl s)

theorem stream_sent (hc : c.Lawful) (h : StreamInv c s) {l : List StreamOp}
    (hl : ∀ op ∈ l, op.Fits) (hroom : ∀ op ∈ l, op.Roomy) :
    (run (streamStep c) s l).sent = s.sent ++ l.flatMap StreamOp.sends := by
  induction l generalizing s with
  | nil => exact (List.append_nil _).symm
  | cons op l ih =>
    have hstep := streamStep_inv hc op h (hl op List.mem_cons_self)
    rw [run_cons, ih hstep (fun a ha => hl a (List.mem_cons_of_mem op ha))
      (fun a ha => hroom a (List.mem_cons_of_mem op ha)),
      streamStep_sent hc op h (hroom op List.mem_cons_self), List.flatMap_cons, List.append_assoc]

end Hostapd.Tls
