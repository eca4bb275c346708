import Hostapd.EapCommon.Ikev2
import Hostapd.EapCommon.Tls

/-!
# The encrypted payload of IKEv2

`ikev2_build_encrypted` and `ikev2_decrypt_payload` (`ikev2_common.c`). The ciphers are parameters
that decrypt what they have encrypted, with as many octets; the MACs are any functions.

* **`decryptPayload_safe`**: what is returned is no longer than what was decrypted, and nothing is
  read outside the message.
* **`Built`** is a message in its parts. `buildEncrypted_eq_ok`: what is built has them.
  `decryptPayload_parts`, `Built.parses`: what is made of a message with these parts.
* **`Built.roundTrips_iff`**: the payload is parsed and decrypted again, and the length fields are
  right, exactly if the lengths fit these fields.
* **`ikev2_payloads`** puts this beside the parsers of `Ikev2`.
-/

namespace Hostapd.EapCommon

open Hostapd.Lib

/-! ## Ciphers and keys -/

/-- A cipher in CBC mode, from a key and an initialization vector. Source:
`crypto_cipher_encrypt`, `crypto_cipher_decrypt`. -/
structure Ikev2Cipher where
  encrypt : Bytes → Bytes → Bytes → Option Bytes
  decrypt : Bytes → Bytes → Bytes → Option Bytes
  length_encrypt : ∀ {key iv plain crypt}, encrypt key iv plain = some crypt →
    crypt.length = plain.length
  length_decrypt : ∀ {key iv crypt plain}, decrypt key iv crypt = some plain →
    plain.length = crypt.length
  decrypt_encrypt : ∀ {key iv plain crypt}, encrypt key iv plain = some crypt →
    decrypt key iv crypt = some plain

structure Ikev2Crypto where
  des3 : Ikev2Cipher
  aes : Ikev2Cipher
  hmacSha1 : Bytes → Bytes → Vector UInt8 20
  hmacMd5 : Bytes → Bytes → Vector UInt8 16

/-- The keys for integrity and encryption of the two sides; a key has its length with it.
Source: `struct ikev2_keys`. -/
structure Ikev2Keys where
  skAi : Option Bytes
  skAr : Option Bytes
  skEi : Option Bytes
  skEr : Option Bytes

def Ikev2Keys.skA (keys : Ikev2Keys) (initiator : Bool) : Option Bytes :=
  if initiator then keys.skAi else keys.skAr

def Ikev2Keys.skE (keys : Ikev2Keys) (initiator : Bool) : Option Bytes :=
  if initiator then keys.skEi else keys.skEr

variable (C : Ikev2Crypto)

def ikev2EncrEncrypt (alg : ℕ) (key iv plain : Bytes) : Option Bytes :=
  if alg = encr3des then C.des3.encrypt key iv plain
  else if alg = encrAesCbc then C.aes.encrypt key iv plain
  else none

def ikev2EncrDecrypt (alg : ℕ) (key iv crypt : Bytes) : Option Bytes :=
  if alg = encr3des then C.des3.decrypt key iv crypt
  else if alg = encrAesCbc then C.aes.decrypt key iv crypt
  else none

def ikev2IntegHash (alg : ℕ) (key data : Bytes) : Option Bytes :=
  if alg = authHmacSha196 then
    if key.length ≠ 20 then none else some ((C.hmacSha1 key data).toList.take 12)
  else if alg = authHmacMd596 then
    if key.length ≠ 16 then none else some ((C.hmacMd5 key data).toList.take 12)
  else none

/-! ## Decryption -/

/-- The result is the buffer with what was decrypted, and the length in `res_len`; `none` is the
result `NULL`. `msg` begins with the header. Source: `ikev2_decrypt_payload`. -/
def decryptPayload (encrId integId : ℕ) (keys : Ikev2Keys) (initiator : Bool) (msg : Bytes)
    (encrypted : Option Span) : Except Stop (Option (Bytes × ℕ)) :=
  match encrypted, ikev2GetEncr encrId, ikev2GetInteg integId with
  | some encrypted, some encrAlg, some integAlg =>
    if encrypted.len < encrAlg.len + 1 + integAlg.len then return none
    else
      match keys.skA initiator with
      | none => return none
      | some skA => do
        let pos := encrypted.pos + encrAlg.len
        let integ := encrypted.pos + encrypted.len - integAlg.len
        let hashed ← rdSlice msg 0 integ
        match ikev2IntegHash C integId skA hashed with
        | none => return none
        | some hash => do
          let icv ← rdSlice msg integ (integ + integAlg.len)
          if icv ≠ hash then return none
          else
            match keys.skE initiator with
            | none => return none
            | some skE => do
              let iv ← rdSlice msg encrypted.pos pos
              let crypt ← rdSlice msg pos integ
              match ikev2EncrDecrypt C encrAlg.id skE iv crypt with
              | none => return none
              | some decrypted => do
                let padLen ← rd8 decrypted (decrypted.length - 1)
                if decrypted.length < padLen.toNat + 1 then return none
                else return some (decrypted, decrypted.length - (padLen.toNat + 1))
  | _, _, _ => return none

/-! ## Encryption -/

/-- Why no message is built: `wpabuf_overflow` aborts, or the result is -1. -/
inductive BuildStop
  | overflow
  | failed
  deriving DecidableEq

def putTo (buf : Wpabuf) (data : Bytes) : Except BuildStop Wpabuf :=
  match buf.putData data with
  | some buf => .ok buf
  | none => .error .overflow

/-- The octets of padding in front of the one that tells how many there are. -/
def padLen (ivLen len : ℕ) : ℕ :=
  let pad := ivLen - (len + 1) % ivLen
  if pad = ivLen then 0 else pad

/-- The plaintext with its padding; a buffer holds zeros behind its data. -/
def padded (ivLen : ℕ) (plain : Bytes) : Bytes :=
  plain ++ (List.replicate (padLen ivLen plain.length) 0 ++
    [UInt8.ofNat (padLen ivLen plain.length)])

def ikev2UpdateHdr (msg : Bytes) : Bytes := overwrite msg 24 (putBe 4 msg.length)

/-- The message that is built; `iv` is what `random_get_bytes` writes.
Source: `ikev2_build_encrypted`. -/
def buildEncrypted (encrId integId : ℕ) (keys : Ikev2Keys) (initiator : Bool) (msg plain : Wpabuf)
    (nextPayload : UInt8) (random : (n : ℕ) → Option (Vector UInt8 n)) : Except BuildStop Bytes :=
  match ikev2GetEncr encrId, ikev2GetInteg integId, keys.skE initiator, keys.skA initiator with
  | some encrAlg, some integAlg, some skE, some skA => do
    let phdr := msg.data.length
    let msg ← putTo msg [nextPayload, 0, 0, 0]
    let msg ← putTo msg (((random encrAlg.len).map Vector.toList).getD
      (List.replicate encrAlg.len 0))
    match random encrAlg.len with
    | none => .error .failed
    | some iv => do
      let pad := padLen encrAlg.len plain.data.length
      let plain ← putTo plain (List.replicate pad 0)
      let plain ← putTo plain [UInt8.ofNat pad]
      match ikev2EncrEncrypt C encrAlg.id skE iv.toList plain.data with
      | none => .error .failed
      | some crypt => do
        let msg ← putTo msg crypt
        let msg ← putTo msg (List.replicate integAlg.len 0)
        let data := ikev2UpdateHdr
          (overwrite msg.data (phdr + 2) (putBe16 (msg.data.length - phdr)))
        match ikev2IntegHash C integId skA (data.take (data.length - integAlg.len)) with
        | none => .error .failed
        | some icv => .ok (overwrite data (data.length - integAlg.len) icv)
  | _, _, _, _ => .error .failed

/-! ## Facts about the parts -/

section Parts

variable {C} {encrId integId : ℕ} {encrAlg integAlg : Ikev2Alg} {key iv plain crypt data hash : Bytes}

theorem ikev2GetEncr_eq_some (h : ikev2GetEncr encrId = some encrAlg) :
    encrAlg.id = encrId ∧ (encrAlg.len = 16 ∨ encrAlg.len = 8) := by
  have hid := List.find?_some h
  have hmem := List.mem_of_find?_eq_some h
  simp only [List.mem_cons, List.not_mem_nil, or_false] at hmem
  rcases hmem with rfl | rfl
  · exact ⟨by simpa using hid, .inl rfl⟩
  · exact ⟨by simpa using hid, .inr rfl⟩

theorem ikev2GetInteg_eq_some (h : ikev2GetInteg integId = some integAlg) : integAlg.len = 12 := by
  have hmem := List.mem_of_find?_eq_some h
  simp only [List.mem_cons, List.not_mem_nil, or_false] at hmem
  rcases hmem with rfl | rfl <;> rfl

theorem length_ikev2IntegHash (h : ikev2IntegHash C integId key data = some hash) :
    hash.length = 12 := by
  unfold ikev2IntegHash at h
  split_ifs at h
  · obtain rfl := Option.some.inj h
    simp
  · obtain rfl := Option.some.inj h
    simp

theorem length_ikev2EncrEncrypt (h : ikev2EncrEncrypt C encrId key iv plain = some crypt) :
    crypt.length = plain.length := by
  unfold ikev2EncrEncrypt at h
  split_ifs at h
  · exact C.des3.length_encrypt h
  · exact C.aes.length_encrypt h

theorem length_ikev2EncrDecrypt (h : ikev2EncrDecrypt C encrId key iv crypt = some plain) :
    plain.length = crypt.length := by
  unfold ikev2EncrDecrypt at h
  split_ifs at h
  · exact C.des3.length_decrypt h
  · exact C.aes.length_decrypt h

theorem ikev2EncrDecrypt_encrypt (h : ikev2EncrEncrypt C encrId key iv plain = some crypt) :
    ikev2EncrDecrypt C encrId key iv crypt = some plain := by
  unfold ikev2EncrEncrypt at h
  unfold ikev2EncrDecrypt
  split_ifs at h ⊢
  · exact C.des3.decrypt_encrypt h
  · exact C.aes.decrypt_encrypt h

theorem length_padded (ivLen : ℕ) (plain : Bytes) :
    (padded ivLen plain).length = plain.length + padLen ivLen plain.length + 1 := by
  simp only [padded, List.length_append, List.length_replicate, List.length_singleton]
  omega

theorem unpad_padded {ivLen : ℕ} (h : padLen ivLen plain.length < 256) :
    (rd8 (padded ivLen plain) ((padded ivLen plain).length - 1) >>= fun pad =>
      if (padded ivLen plain).length < pad.toNat + 1 then return none
      else return some (padded ivLen plain, (padded ivLen plain).length - (pad.toNat + 1))) =
      .ok (some (padded ivLen plain, plain.length)) := by
  have hlast : rd8 (padded ivLen plain) ((padded ivLen plain).length - 1) =
      .ok (UInt8.ofNat (padLen ivLen plain.length)) := by
    have hread := rd8_append (plain ++ List.replicate (padLen ivLen plain.length) 0)
      [UInt8.ofNat (padLen ivLen plain.length)] 0
    rw [length_padded, Nat.add_sub_cancel]
    rw [List.length_append, List.length_replicate, List.append_assoc] at hread
    exact hread
  have hpad : (UInt8.ofNat (padLen ivLen plain.length)).toNat = padLen ivLen plain.length :=
    UInt8.toNat_ofNat_of_lt h
  rw [hlast, ok_bind, hpad, length_padded, if_neg (by omega)]
  congr 3
  omega

theorem padLen_lt {ivLen : ℕ} (h : ivLen = 16 ∨ ivLen = 8) (len : ℕ) : padLen ivLen len < 256 := by
  unfold padLen
  dsimp only
  split_ifs <;> omega

end Parts

/-! ## Decryption stays in bounds -/

/-- **Decryption** reads nothing outside the message that the payload lies in, and the length that it
returns is not larger than the buffer. -/
theorem decryptPayload_safe (encrId integId : ℕ) (keys : Ikev2Keys) (initiator : Bool) {msg : Bytes}
    {encrypted : Option Span} (hspan : ∀ span ∈ encrypted, span.Within 0 msg.length) :
    Safe (decryptPayload C encrId integId keys initiator msg encrypted) fun r =>
      ∀ decrypted len, r = some (decrypted, len) → len ≤ decrypted.length := by
  unfold decryptPayload
  split
  swap
  · exact Safe.pure (by simp)
  rename_i span encrAlg integAlg hencr hinteg
  obtain ⟨-, hend⟩ := hspan span rfl
  split_ifs with hshort
  · exact Safe.pure (by simp)
  split
  · exact Safe.pure (by simp)
  refine .bind (.rdSlice (by omega) (by omega)) fun hashed _ => ?_
  split
  · exact Safe.pure (by simp)
  refine .bind (.rdSlice (by omega) (by omega)) fun icv _ => ?_
  split_ifs
  · exact Safe.pure (by simp)
  split
  · exact Safe.pure (by simp)
  refine .bind (.rdSlice (by omega) (by omega)) fun iv _ =>
    .bind (.rdSlice (by omega) (by omega)) fun crypt hcrypt => ?_
  split
  · exact Safe.pure (by simp)
  rename_i decrypted hdecrypt
  have hlen := length_ikev2EncrDecrypt hdecrypt
  refine .bind (.rd8 (by omega)) fun pad _ => ?_
  split_ifs
  · exact Safe.pure (by simp)
  · refine Safe.pure ?_
    rintro d n heq
    obtain ⟨rfl, rfl⟩ := Prod.mk.inj (Option.some.inj heq)
    exact Nat.sub_le _ _

theorem decryptPayload_parts {C} {encrId integId : ℕ} {keys : Ikev2Keys} {initiator : Bool}
    {encrAlg integAlg : Ikev2Alg} {skA skE head iv crypt icv decrypted : Bytes}
    (hencr : ikev2GetEncr encrId = some encrAlg) (hinteg : ikev2GetInteg integId = some integAlg)
    (hA : keys.skA initiator = some skA) (hE : keys.skE initiator = some skE)
    (hiv : iv.length = encrAlg.len) (hroom : 0 < crypt.length)
    (hhash : ikev2IntegHash C integId skA (head ++ (iv ++ crypt)) = some icv)
    (hdecrypt : ikev2EncrDecrypt C encrAlg.id skE iv crypt = some decrypted) :
    decryptPayload C encrId integId keys initiator (head ++ ((iv ++ crypt) ++ icv))
        (some ⟨head.length, iv.length + crypt.length + 12⟩) =
      rd8 decrypted (decrypted.length - 1) >>= fun padLen =>
        if decrypted.length < padLen.toNat + 1 then return none
        else return some (decrypted, decrypted.length - (padLen.toNat + 1)) := by
  have hmac := ikev2GetInteg_eq_some hinteg
  have hicv := length_ikev2IntegHash hhash
  have hinteg' : head.length + (iv.length + crypt.length + 12) - 12 =
      head.length + (iv ++ crypt).length := by
    rw [List.length_append]
    omega
  have hhashed : rdSlice (head ++ ((iv ++ crypt) ++ icv)) 0 (head.length + (iv ++ crypt).length) =
      .ok (head ++ (iv ++ crypt)) := by
    have hread := rdSlice_middle [] (head ++ (iv ++ crypt)) icv
    rwa [List.nil_append, List.length_nil, Nat.zero_add, List.append_assoc, List.length_append]
      at hread
  have hread : rdSlice (head ++ ((iv ++ crypt) ++ icv)) (head.length + (iv ++ crypt).length)
      (head.length + (iv ++ crypt).length + 12) = .ok icv := by
    have hread := rdSlice_append (head ++ (iv ++ crypt)) icv
    rwa [List.append_assoc, List.length_append, hicv] at hread
  have hivRead : rdSlice (head ++ ((iv ++ crypt) ++ icv)) head.length (head.length + encrAlg.len) =
      .ok iv := by
    rw [← hiv, List.append_assoc iv]
    exact rdSlice_middle head iv (crypt ++ icv)
  have hcryptRead : rdSlice (head ++ ((iv ++ crypt) ++ icv)) (head.length + encrAlg.len)
      (head.length + (iv ++ crypt).length) = .ok crypt := by
    have hread := rdSlice_middle (head ++ iv) crypt icv
    have hhead : (head ++ iv).length = head.length + encrAlg.len := by
      rw [List.length_append, hiv]
    have hbody : head.length + (iv ++ crypt).length = head.length + encrAlg.len + crypt.length := by
      rw [List.length_append, hiv, Nat.add_assoc]
    rw [hhead] at hread
    rw [hbody]
    simpa only [List.append_assoc] using hread
  unfold decryptPayload
  simp only [hencr, hinteg, hA, hmac, hinteg', hhashed, hread, hivRead, hcryptRead, ok_bind, hE,
    hhash, hdecrypt]
  rw [if_neg (by omega), if_neg (not_not_intro rfl)]

/-! ## The message that is built -/

/-- What is hashed of a message: what stood in the buffer, with the length of the message in its
header, and the payload up to the checksum. -/
def hashedOctets (front : Bytes) (nextPayload : UInt8) (body : Bytes) (total : ℕ) : Bytes :=
  overwrite front 24 (putBe 4 total) ++
    (([nextPayload, 0] ++ putBe16 (total - front.length)) ++ body)

/-- A built message in its parts: what stood in the buffer, the header of the payload, the
initialization vector, the ciphertext and the checksum. -/
structure Built (encrId integId : ℕ) (keys : Ikev2Keys) (initiator : Bool) (front plain : Bytes)
    (nextPayload : UInt8) (msg : Bytes) where
  encrAlg : Ikev2Alg
  integAlg : Ikev2Alg
  skA : Bytes
  skE : Bytes
  iv : Bytes
  crypt : Bytes
  icv : Bytes
  encr : ikev2GetEncr encrId = some encrAlg
  integ : ikev2GetInteg integId = some integAlg
  keyA : keys.skA initiator = some skA
  keyE : keys.skE initiator = some skE
  length_iv : iv.length = encrAlg.len
  encrypts : ikev2EncrEncrypt C encrAlg.id skE iv (padded encrAlg.len plain) = some crypt
  total : ℕ
  length_total : total = front.length + 4 + iv.length + crypt.length + 12
  hashes : ikev2IntegHash C integId skA (hashedOctets front nextPayload (iv ++ crypt) total) =
    some icv
  parts : msg = hashedOctets front nextPayload (iv ++ crypt) total ++ icv

theorem putTo_eq_ok {buf buf' : Wpabuf} {data : Bytes} (h : putTo buf data = .ok buf') :
    buf'.data = buf.data ++ data := by
  unfold putTo Wpabuf.putData at h
  by_cases hfits : (buf.data ++ data).length ≤ buf.size
  · simp only [dif_pos hfits] at h
    exact (congrArg Wpabuf.data (Except.ok.inj h)).symm
  · simp only [dif_neg hfits] at h
    cases h

theorem overwrite_front {front post data : Bytes} {n : ℕ} (h : n + data.length ≤ front.length) :
    overwrite (front ++ post) n data = overwrite front n data ++ post := by
  have htake : (front ++ post).take n = front.take n :=
    List.take_append_of_le_length (by omega)
  have hdrop : (front ++ post).drop (n + data.length) = front.drop (n + data.length) ++ post :=
    List.drop_append_of_le_length h
  rw [overwrite, overwrite, htake, hdrop]
  simp only [List.append_assoc]

theorem ikev2UpdateHdr_overwrite {front body tail : Bytes} {nextPayload : UInt8} {total : ℕ}
    (hhdr : 28 ≤ front.length) (htotal : total = front.length + 4 + body.length + tail.length) :
    ikev2UpdateHdr (overwrite ((front ++ [nextPayload, 0]) ++ ([0, 0] ++ (body ++ tail)))
        (front.length + 2) (putBe16 (total - front.length))) =
      hashedOctets front nextPayload body total ++ tail := by
  have hword : overwrite ((front ++ [nextPayload, 0]) ++ ([0, 0] ++ (body ++ tail)))
        (front.length + 2) (putBe16 (total - front.length)) =
      front ++ ((([nextPayload, 0] ++ putBe16 (total - front.length)) ++ body) ++ tail) := by
    rw [overwrite_append (by simp) (by simp)]
    simp only [List.append_assoc]
  have hlen : (front ++ ((([nextPayload, 0] ++ putBe16 (total - front.length)) ++ body) ++
      tail)).length = total := by
    simp only [List.length_append, List.length_cons, List.length_nil, length_putBe16]
    omega
  rw [hword, ikev2UpdateHdr, hlen, overwrite_front (by rw [length_putBe]; omega), hashedOctets]
  simp only [List.append_assoc]

section Build

variable {C} {encrId integId : ℕ} {keys : Ikev2Keys} {initiator : Bool} {msg plain : Wpabuf}
  {nextPayload : UInt8} {random : (n : ℕ) → Option (Vector UInt8 n)} {m : Bytes}

theorem buildEncrypted_eq_ok (hhdr : 28 ≤ msg.data.length)
    (h : buildEncrypted C encrId integId keys initiator msg plain nextPayload random = .ok m) :
    Nonempty (Built C encrId integId keys initiator msg.data plain.data nextPayload m) := by
  unfold buildEncrypted at h
  split at h
  swap
  · cases h
  rename_i encrAlg integAlg skE skA hencr hinteg hkeyE hkeyA
  have hmac := ikev2GetInteg_eq_some hinteg
  obtain ⟨msg1, hput1, h⟩ := bind_eq_ok h
  obtain ⟨msg2, hput2, h⟩ := bind_eq_ok h
  split at h
  · cases h
  rename_i iv hrandom
  obtain ⟨plain1, hpad1, h⟩ := bind_eq_ok h
  obtain ⟨plain2, hpad2, h⟩ := bind_eq_ok h
  split at h
  · cases h
  rename_i crypt hcrypt
  obtain ⟨msg3, hput3, h⟩ := bind_eq_ok h
  obtain ⟨msg4, hput4, h⟩ := bind_eq_ok h
  dsimp only at h
  have hplain : plain2.data = padded encrAlg.len plain.data := by
    rw [putTo_eq_ok hpad2, putTo_eq_ok hpad1, List.append_assoc]
    rfl
  have hdata : msg4.data = (msg.data ++ [nextPayload, 0]) ++
      ([0, 0] ++ ((iv.toList ++ crypt) ++ List.replicate 12 0)) := by
    rw [putTo_eq_ok hput4, putTo_eq_ok hput3, putTo_eq_ok hput2, putTo_eq_ok hput1, hrandom, hmac]
    simp
  have htotal : msg4.data.length =
      msg.data.length + 4 + (iv.toList ++ crypt).length + (List.replicate 12 (0 : UInt8)).length := by
    rw [hdata]
    simp only [List.length_append, List.length_cons, List.length_nil, List.length_replicate]
    omega
  generalize msg4.data.length = total at h htotal
  rw [hdata, ikev2UpdateHdr_overwrite hhdr htotal, List.length_append, List.length_replicate,
    hmac, Nat.add_sub_cancel, List.take_left] at h
  split at h
  · cases h
  rename_i icv hicv
  have hlen12 := length_ikev2IntegHash hicv
  have hwrite : overwrite (hashedOctets msg.data nextPayload (iv.toList ++ crypt) total ++
        (List.replicate 12 0 ++ []))
        (hashedOctets msg.data nextPayload (iv.toList ++ crypt) total).length icv =
      hashedOctets msg.data nextPayload (iv.toList ++ crypt) total ++ (icv ++ []) :=
    overwrite_append rfl (by rw [List.length_replicate, hlen12])
  rw [List.append_nil, List.append_nil] at hwrite
  rw [hwrite] at h
  rw [hplain] at hcrypt
  rw [List.length_append, List.length_replicate] at htotal
  exact ⟨{
    encrAlg := encrAlg
    integAlg := integAlg
    skA := skA
    skE := skE
    iv := iv.toList
    crypt := crypt
    icv := icv
    encr := hencr
    integ := hinteg
    keyA := hkeyA
    keyE := hkeyE
    length_iv := iv.length_toList
    encrypts := hcrypt
    total := total
    length_total := by omega
    hashes := hicv
    parts := (Except.ok.inj h).symm }⟩

variable {front text : Bytes}

section Parts

variable (b : Built C encrId integId keys initiator front text nextPayload m)
include b

theorem Built.length_front (hhdr : 28 ≤ front.length) :
    (overwrite front 24 (putBe 4 b.total)).length = front.length :=
  length_overwrite (by rw [length_putBe]; omega)

theorem Built.length_icv : b.icv.length = 12 := length_ikev2IntegHash b.hashes

theorem Built.length_crypt :
    b.crypt.length = text.length + padLen b.encrAlg.len text.length + 1 := by
  rw [length_ikev2EncrEncrypt b.encrypts, length_padded]

theorem Built.drop_front (hhdr : 28 ≤ front.length) : m.drop front.length =
    [nextPayload, 0] ++ putBe16 (b.total - front.length) ++ ((b.iv ++ b.crypt) ++ b.icv) := by
  calc m.drop front.length
      = (overwrite front 24 (putBe 4 b.total) ++ (([nextPayload, 0] ++
          putBe16 (b.total - front.length) ++ (b.iv ++ b.crypt)) ++ b.icv)).drop front.length := by
        rw [← List.append_assoc]
        exact congrArg (List.drop _) b.parts
    _ = ([nextPayload, 0] ++ putBe16 (b.total - front.length) ++ (b.iv ++ b.crypt)) ++ b.icv :=
        List.drop_left' (b.length_front hhdr)
    _ = _ := List.append_assoc _ _ _

theorem Built.length_msg (hhdr : 28 ≤ front.length) : m.length = b.total := by
  have hlen := congrArg List.length b.parts
  have hicv := b.length_icv
  have htotal := b.length_total
  simp only [hashedOctets, List.length_append, b.length_front hhdr, List.length_cons,
    List.length_nil, length_putBe16] at hlen
  omega

theorem Built.decrypts (hhdr : 28 ≤ front.length) :
    decryptPayload C encrId integId keys initiator m
        (some ⟨front.length + 4, b.iv.length + b.crypt.length + 12⟩) =
      .ok (some (padded b.encrAlg.len text, text.length)) := by
  have hlen : (overwrite front 24 (putBe 4 b.total) ++ ([nextPayload, 0] ++
      putBe16 (b.total - front.length))).length = front.length + 4 := by
    simp only [List.length_append, b.length_front hhdr, List.length_cons, List.length_nil,
      length_putBe16]
  have hparts := b.parts
  have hhashes := b.hashes
  rw [hashedOctets, ← List.append_assoc] at hparts hhashes
  have hdec := decryptPayload_parts b.encr b.integ b.keyA b.keyE b.length_iv
    (by rw [b.length_crypt]; omega) hhashes (ikev2EncrDecrypt_encrypt b.encrypts)
  rw [hlen, ← List.append_assoc, ← hparts] at hdec
  rw [hdec]
  exact unpad_padded (padLen_lt (ikev2GetEncr_eq_some b.encr).2 _)

theorem Built.parses (hhdr : 28 ≤ front.length)
    (hfits : b.total - front.length < 2 ^ 16) : ∃ payloads,
      ParsesPayloads payloadEncrypted (m.drop front.length) (.ok (payloads, true)) ∧
        payloads.encrypted = some ⟨4, b.iv.length + b.crypt.length + 12⟩ ∧
        payloads.encrNextPayload = nextPayload := by
  have htotal := b.length_total
  have hicv := b.length_icv
  have hrest := b.drop_front hhdr
  have hlen : (m.drop front.length).length = b.total - front.length := by
    rw [List.length_drop, b.length_msg hhdr]
  have hword : be16 ((m.drop front.length).drop (0 + 2)) = b.total - front.length := by
    rw [hrest]
    exact be16_putBe16 hfits _
  have hnext : (m.drop front.length).getD 0 0 = nextPayload := by
    rw [hrest]
    rfl
  generalize m.drop front.length = rest at *
  have hcode : Ikev2Payload.ofCode payloadEncrypted = some .encrypted := rfl
  have hspan : b.total - front.length - 4 = b.iv.length + b.crypt.length + 12 := by omega
  have hlast : Ikev2Payload.encrypted = .encrypted ∧ b.total - front.length = rest.length :=
    ⟨rfl, hlen.symm⟩
  have hround : payloadRound rest ⟨payloadEncrypted, 0, .zero⟩ = _ :=
    payloadRound_valid (by decide) (by omega) (by rw [hword]; omega)
  rw [hword, hnext, hcode] at hround
  dsimp only at hround
  rw [Nat.zero_add, if_pos hlast, hspan] at hround
  have hdone : ∀ payloads, payloadRound rest
      ⟨noNextPayload, b.total - front.length, payloads⟩ = .ok (.inr (payloads, true)) := by
    intro payloads
    simp [payloadRound, hlen, pure, Except.pure]
  have hreturns := (returns_iff_of_next (tryRound_of_next hround)).mpr
    ((returns_iff_of_done (tryRound_of_done (hdone _))).mpr rfl)
  exact ⟨_, hreturns, rfl, rfl⟩

theorem Built.header (hhdr : 28 ≤ front.length) (hfits : b.total < 2 ^ 32) :
    beNat ((m.drop 24).take 4) = m.length := by
  have hfront := b.length_front hhdr
  have hread : ((overwrite front 24 (putBe 4 b.total)).drop 24).take (putBe 4 b.total).length =
      putBe 4 b.total := take_drop_overwrite (by omega)
  rw [length_putBe] at hread
  have hcut : (m.drop 24).take 4 = putBe 4 b.total := by
    calc (m.drop 24).take 4
        = ((overwrite front 24 (putBe 4 b.total) ++ (([nextPayload, 0] ++
            putBe16 (b.total - front.length) ++ (b.iv ++ b.crypt)) ++ b.icv)).drop 24).take 4 := by
          rw [← List.append_assoc]
          exact congrArg (fun l => (l.drop 24).take 4) b.parts
      _ = ((overwrite front 24 (putBe 4 b.total)).drop 24).take 4 := by
          rw [List.drop_append_of_le_length (by omega), List.take_append_of_le_length]
          rw [List.length_drop]
          omega
      _ = putBe 4 b.total := hread
  rw [hcut, beNat_putBe hfits, b.length_msg hhdr]

end Parts

end Build

/-! ## The round trip -/

/-- The length of the payload for a plaintext of `len` octets. -/
def encryptedLen (ivLen len : ℕ) : ℕ := 4 + ivLen + (len + padLen ivLen len + 1) + 12

/-- A message that ends with an encrypted payload at `phdr` tells its lengths, and the payload is
parsed, and decrypted with the same keys, into the plaintext and the type of the payload in it. -/
structure RoundTrips (encrId integId : ℕ) (keys : Ikev2Keys) (initiator : Bool) (phdr : ℕ)
    (plain : Bytes) (nextPayload : UInt8) (msg : Bytes) : Prop where
  length : beNat ((msg.drop 24).take 4) = msg.length
  payloadLength : be16 (msg.drop (phdr + 2)) = msg.length - phdr
  decrypts : ∃ payloads span decrypted,
    ParsesPayloads payloadEncrypted (msg.drop phdr) (.ok (payloads, true)) ∧
      payloads.encrypted = some span ∧ payloads.encrNextPayload = nextPayload ∧
      decryptPayload C encrId integId keys initiator msg (some ⟨phdr + span.pos, span.len⟩) =
        .ok (some (decrypted, plain.length)) ∧
      decrypted.take plain.length = plain

section RoundTrip

variable {C} {encrId integId : ℕ} {keys : Ikev2Keys} {initiator : Bool} {front plain m : Bytes}
  {nextPayload : UInt8}

theorem Built.roundTrips_iff (b : Built C encrId integId keys initiator front plain nextPayload m)
    (hhdr : 28 ≤ front.length) :
    RoundTrips C encrId integId keys initiator front.length plain nextPayload m ↔
      encryptedLen b.encrAlg.len plain.length < 2 ^ 16 ∧
        front.length + encryptedLen b.encrAlg.len plain.length < 2 ^ 32 := by
  have htotal := b.length_total
  have hcrypt := b.length_crypt
  have hlen := b.length_msg hhdr
  have hiv := b.length_iv
  have hpayload : b.total = front.length + encryptedLen b.encrAlg.len plain.length := by
    rw [encryptedLen]
    omega
  rw [← hpayload]
  constructor
  · rintro ⟨hlength, hword, -⟩
    have hmax : be16 (m.drop (front.length + 2)) < 2 ^ 16 := be16_lt _
    have hmax32 := beNat_lt ((m.drop 24).take 4)
    have htake : ((m.drop 24).take 4).length = 4 := by
      rw [List.length_take, List.length_drop]
      omega
    rw [htake] at hmax32
    omega
  · rintro ⟨hfits16, hfits32⟩
    have hdiff : b.total - front.length < 2 ^ 16 := by omega
    obtain ⟨payloads, hparse, hspan, hnext⟩ := b.parses hhdr hdiff
    refine ⟨b.header hhdr hfits32, ?_, payloads, _, _, hparse, hspan, hnext,
      b.decrypts hhdr, List.take_left⟩
    rw [hlen, ← List.drop_drop, b.drop_front hhdr]
    exact be16_putBe16 hdiff _

end RoundTrip

/-! ## Payloads as a whole -/

/-- The parser ends without reading outside the message, and what it returns lies inside. -/
def ParsesInside (nextPayload : UInt8) (data : Bytes) : Prop :=
  ∃ payloads ok, ParsesPayloads nextPayload data (.ok (payloads, ok)) ∧
    payloads.Inside data.length

theorem parsesInside_iff (nextPayload : UInt8) (data : Bytes) :
    ParsesInside nextPayload data ↔ dangles nextPayload data = false := by
  obtain ⟨r, hr, hend⟩ := parsePayloads_returns nextPayload data
  cases hdangles : dangles nextPayload data with
  | true =>
    rw [hdangles] at hend
    obtain rfl : r = .error .outside := hend
    simp only [Bool.true_eq_false, iff_false]
    rintro ⟨payloads, ok, hok, -⟩
    cases hr.unique hok
  | false =>
    rw [hdangles] at hend
    obtain ⟨payloads, ok, rfl, hin⟩ := hend
    exact iff_of_true ⟨payloads, ok, hr, hin⟩ rfl

/-- **Payloads of IKEv2.** The parser of payloads stays inside the message exactly if the chain of
payloads does not break off inside a header; those of proposals and transforms, and decryption,
always do. An encrypted payload is read again exactly if its length and that of the message fit
their fields. -/
theorem ikev2_payloads :
    (∀ nextPayload data, ParsesInside nextPayload data ↔ dangles nextPayload data = false) ∧
    (∀ groups sai1, ∃ r, ProcessesSai1 groups sai1 r ∧ r ≠ .error .outside) ∧
    (∀ encrId integId keys initiator msg encrypted,
      (∀ span ∈ encrypted, Span.Within 0 msg.length span) →
      Safe (decryptPayload C encrId integId keys initiator msg encrypted) fun r =>
        ∀ decrypted len, r = some (decrypted, len) → len ≤ decrypted.length) ∧
    (∀ encrId integId keys initiator msg plain nextPayload random m,
      28 ≤ msg.data.length →
      buildEncrypted C encrId integId keys initiator msg plain nextPayload random = .ok m →
      ∃ encrAlg, ikev2GetEncr encrId = some encrAlg ∧
        (RoundTrips C encrId integId keys initiator msg.data.length plain.data nextPayload m ↔
          encryptedLen encrAlg.len plain.data.length < 2 ^ 16 ∧
            msg.data.length + encryptedLen encrAlg.len plain.data.length < 2 ^ 32)) := by
  refine ⟨parsesInside_iff, processSai1_returns, ?_, ?_⟩
  · intro encrId integId keys initiator msg encrypted hspan
    exact decryptPayload_safe C encrId integId keys initiator hspan
  · intro encrId integId keys initiator msg plain nextPayload random m hhdr hbuilt
    obtain ⟨b⟩ := buildEncrypted_eq_ok hhdr hbuilt
    exact ⟨b.encrAlg, b.encr, b.roundTrips_iff hhdr⟩

def cipherOn (key iv plain crypt : Bytes) (h : crypt.length = plain.length) : Ikev2Cipher where
  encrypt k i p := if k = key ∧ i = iv ∧ p = plain then some crypt else none
  decrypt k i c := if k = key ∧ i = iv ∧ c = crypt then some plain else none
  length_encrypt := by
    intro k i p c heq
    split_ifs at heq with hcase
    obtain rfl := Option.some.inj heq
    rw [hcase.2.2, h]
  length_decrypt := by
    intro k i c p heq
    split_ifs at heq with hcase
    obtain rfl := Option.some.inj heq
    rw [hcase.2.2, h]
  decrypt_encrypt := by
    intro k i p c heq
    split_ifs at heq with hcase
    obtain rfl := Option.some.inj heq
    obtain ⟨rfl, rfl, rfl⟩ := hcase
    exact if_pos ⟨rfl, rfl, rfl⟩

/-- AES-128 in CBC mode on one block, and the HMAC-SHA1 of the message around it. -/
def oneBlock : Ikev2Crypto where
  des3 := cipherOn [] [] [] [] rfl
  aes := cipherOn ((List.range 16).map UInt8.ofNat) ((List.range 16).map (UInt8.ofNat · + 0xa0))
    [0, 0, 0, 7, 1, 2, 3, 0, 0, 0, 0, 0, 0, 0, 0, 8]
    [0x8c, 0xb9, 0x08, 0xaf, 0x59, 0xe7, 0x17, 0xe1, 0x2d, 0x97, 0x0d, 0x15, 0xe6, 0x74, 0x41,
      0xc5] rfl
  hmacSha1 _ _ := ⟨#[0x91, 0xe1, 0xf1, 0x67, 0x44, 0x37, 0x52, 0xcf, 0xef, 0x8f, 0x4b, 0x71, 0x4a,
    0xa9, 0x55, 0x1c, 0x85, 0x40, 0x1e, 0xb3], rfl⟩
  hmacMd5 _ _ := Vector.replicate 16 0

def oneBlockKeys : Ikev2Keys where
  skAi := some ((List.range 20).map UInt8.ofNat)
  skAr := none
  skEi := some ((List.range 16).map UInt8.ofNat)
  skEr := none

def oneBlockHeader : Bytes :=
  (List.range 16).map UInt8.ofNat ++ [46, 0x20, 35, 0x08, 0, 0, 0, 1, 0, 0, 0, 0]

def oneBlockPlain : Bytes := [0, 0, 0, 7, 1, 2, 3]

theorem ikev2_payloads_oneBlock : ∃ m, m.length = 76 ∧
    RoundTrips oneBlock 12 2 oneBlockKeys true 28 oneBlockPlain 39 m := by
  have hbuilt : ∃ m, buildEncrypted oneBlock 12 2 oneBlockKeys true
        ⟨100, oneBlockHeader, by decide⟩ ⟨20, oneBlockPlain, by decide⟩ 39
        (fun n => some (Vector.ofFn fun i : Fin n => UInt8.ofNat i + 0xa0)) = .ok m ∧
      m.length = 76 := ⟨_, rfl, rfl⟩
  obtain ⟨m, hbuilt, hlen⟩ := hbuilt
  obtain ⟨encrAlg, hencr, hiff⟩ := (ikev2_payloads oneBlock).2.2.2 _ _ _ _ _ _ _ _ _ (by decide) hbuilt
  obtain rfl : (⟨12, 16, 16⟩ : Ikev2Alg) = encrAlg := Option.some.inj hencr
  exact ⟨m, hlen, hiff.mpr (by decide)⟩

theorem no_room_for_header : ¬ ParsesInside 33 [] := by
  rw [parsesInside_iff, dangles_short (by decide) (by decide)]
  exact Bool.noConfusion

end Hostapd.EapCommon
