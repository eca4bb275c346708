import Hostapd.Common.Defs
import Hostapd.Lib.Octets

/-!
# The TLS record layer

`tlsv1_record.c`: a payload is sent with a MAC over its sequence number, header and octets, and for
block ciphers with padding, encrypted; a record received is decrypted, and its padding and MAC are
checked before the payload is taken from the front of it.

* **`Crypto`**: ciphers with states `κ`, and the keyed hashes, as functions. `Crypto.Lawful` is what
  the record layer relies on.
* **`RecordLayer`**, with `setCipherSuite`, `changeWriteCipher`, `changeReadCipher`.

A sequence number, eight octets that `inc_byte_array` increments, is a `UInt64`; lengths are
`size_t`, of which `sizeSub` is the difference.
-/

namespace Hostapd.Tls

open Hostapd.Lib

/-! ## Constants -/

def tlsVersion : ℕ := 0x0301

/-- Source: `TLS_RECORD_HEADER_LEN`. -/
def recordHeaderLen : ℕ := 5

/-- Source: `TLS_CONTENT_TYPE_*`. -/
inductive ContentType
  | changeCipherSpec | alert | handshake | applicationData
  deriving DecidableEq

def ContentType.octet : ContentType → UInt8
  | .changeCipherSpec => 20
  | .alert => 21
  | .handshake => 22
  | .applicationData => 23

/-- Source: `TLS_ALERT_*`, those of the record layer. -/
inductive TlsAlert
  | unexpectedMessage | badRecordMac | decryptionFailed | recordOverflow | decodeError
  | protocolVersion | internalError
  deriving DecidableEq

/-- Source: `enum crypto_hash_alg`, the keyed ones. -/
inductive HashAlg
  | hmacMd5 | hmacSha1
  deriving DecidableEq

/-- Source: `MD5_MAC_LEN`, `SHA1_MAC_LEN`. -/
def HashAlg.macLen : HashAlg → ℕ
  | .hmacMd5 => 16
  | .hmacSha1 => 20

/-- Source: `enum crypto_cipher_alg`. -/
inductive CipherAlg
  | null | aes | des3 | des | rc2 | rc4
  deriving DecidableEq

inductive TlsCipher
  | null | rc4_40 | rc4_128 | rc2Cbc40 | ideaCbc | des40Cbc | desCbc | des3EdeCbc | aes128Cbc
  | aes256Cbc
  deriving DecidableEq

/-- The length of the key, the block size (also of the IV), and the algorithm of a cipher.
Source: `tls_ciphers`. -/
def TlsCipher.data : TlsCipher → ℕ × ℕ × CipherAlg
  | .null => (0, 0, .null)
  | .ideaCbc => (16, 8, .null)
  | .rc2Cbc40 => (5, 0, .rc2)
  | .rc4_40 => (5, 0, .rc4)
  | .rc4_128 => (16, 0, .rc4)
  | .des40Cbc => (5, 8, .des)
  | .desCbc => (8, 8, .des)
  | .des3EdeCbc => (24, 8, .des3)
  | .aes128Cbc => (16, 16, .aes)
  | .aes256Cbc => (32, 16, .aes)

/-- Source: `TLS_NULL_WITH_NULL_NULL`. -/
def nullWithNullNull : UInt16 := 0

/-- The cipher suites, each with its cipher and its hash. Source: `tls_cipher_suites`. -/
def cipherSuites : List (UInt16 × TlsCipher × Option HashAlg) :=
  [(nullWithNullNull, .null, none), (0x0004, .rc4_128, some .hmacMd5),
    (0x0005, .rc4_128, some .hmacSha1), (0x0009, .desCbc, some .hmacSha1),
    (0x000a, .des3EdeCbc, some .hmacSha1), (0x0018, .rc4_128, some .hmacMd5),
    (0x001a, .desCbc, some .hmacSha1), (0x001b, .des3EdeCbc, some .hmacSha1),
    (0x002f, .aes128Cbc, some .hmacSha1), (0x0034, .aes128Cbc, some .hmacSha1),
    (0x0035, .aes256Cbc, some .hmacSha1), (0x003a, .aes256Cbc, some .hmacSha1)]

/-! ## Ciphers and hashes -/

/-- The ciphers, with states `κ`, and the keyed hashes. Source: `crypto.h`. -/
structure Crypto (κ : Type*) where
  /-- `crypto_cipher_init` on an IV and a key. -/
  cipherInit : CipherAlg → Bytes → Bytes → Option κ
  encrypt : κ → Bytes → Option (κ × Bytes)
  decrypt : κ → Bytes → Option (κ × Bytes)
  /-- `crypto_hash_init`, `crypto_hash_update` and `crypto_hash_finish` on a key and the data. -/
  hmac : HashAlg → Bytes → Bytes → Bytes
  /-- The block size of a cipher, 1 for a stream cipher. -/
  block : κ → ℕ

/-- What is relied on: ciphers are length-preserving inverses that keep the two directions in step
and work on whole blocks, and a hash has the length of its algorithm. -/
structure Crypto.Lawful {κ : Type*} (c : Crypto κ) : Prop where
  decrypt_encrypt : ∀ {k k' data crypt}, c.encrypt k data = some (k', crypt) →
    c.decrypt k crypt = some (k', data) ∧ crypt.length = data.length ∧ c.block k' = c.block k
  length_decrypt : ∀ {k k' data crypt}, c.decrypt k crypt = some (k', data) →
    data.length = crypt.length
  encrypt_isSome : ∀ {k data}, c.block k ∣ data.length → (c.encrypt k data).isSome
  cipherInit : ∀ suite ∈ cipherSuites, ∀ iv key, suite.2.1 ≠ .null →
    ∃ k, c.cipherInit suite.2.1.data.2.2 iv key = some k ∧ c.block k = max suite.2.1.data.2.1 1
  length_hmac : ∀ alg key data, (c.hmac alg key data).length = alg.macLen

variable {κ : Type*}

/-! ## The record layer -/

/-- Source: `struct tlsv1_record_layer`. -/
structure RecordLayer (κ : Type*) where
  writeMacSecret : Bytes
  readMacSecret : Bytes
  writeKey : Bytes
  readKey : Bytes
  writeIv : Bytes
  readIv : Bytes
  hashSize : ℕ
  keyMaterialLen : ℕ
  ivSize : ℕ
  hashAlg : HashAlg
  cipherAlg : CipherAlg
  writeSeqNum : UInt64
  readSeqNum : UInt64
  cipherSuite : UInt16
  writeCipherSuite : UInt16
  readCipherSuite : UInt16
  writeCbc : Option κ
  readCbc : Option κ

/-- A record layer as it is allocated, before any key is known. -/
def RecordLayer.init : RecordLayer κ where
  writeMacSecret := List.replicate 20 0
  readMacSecret := List.replicate 20 0
  writeKey := List.replicate 32 0
  readKey := List.replicate 32 0
  writeIv := List.replicate 16 0
  readIv := List.replicate 16 0
  hashSize := 0
  keyMaterialLen := 0
  ivSize := 0
  hashAlg := .hmacMd5
  cipherAlg := .null
  writeSeqNum := 0
  readSeqNum := 0
  cipherSuite := nullWithNullNull
  writeCipherSuite := nullWithNullNull
  readCipherSuite := nullWithNullNull
  writeCbc := none
  readCbc := none

/-- Source: `tlsv1_record_set_cipher_suite`. -/
def setCipherSuite (rl : RecordLayer κ) (cipherSuite : UInt16) : RecordLayer κ × Bool :=
  let rl := { rl with cipherSuite := cipherSuite }
  match cipherSuites.find? (·.1 = cipherSuite) with
  | none => (rl, false)
  | some (_, cipher, hash) =>
    let rl :=
      match hash with
      | none => rl
      | some alg => { rl with hashAlg := alg, hashSize := alg.macLen }
    ({ rl with
        keyMaterialLen := cipher.data.1, ivSize := cipher.data.2.1, cipherAlg := cipher.data.2.2 },
      true)

variable (c : Crypto κ)

/-- Source: `tlsv1_record_change_write_cipher`. -/
def changeWriteCipher (rl : RecordLayer κ) : RecordLayer κ × Bool :=
  let rl := { rl with writeCipherSuite := rl.cipherSuite, writeSeqNum := 0, writeCbc := none }
  if rl.cipherAlg = .null then (rl, true)
  else
    match c.cipherInit rl.cipherAlg rl.writeIv (rl.writeKey.take rl.keyMaterialLen) with
    | none => (rl, false)
    | some k => ({ rl with writeCbc := some k }, true)

/-- Source: `tlsv1_record_change_read_cipher`. -/
def changeReadCipher (rl : RecordLayer κ) : RecordLayer κ × Bool :=
  let rl := { rl with readCipherSuite := rl.cipherSuite, readSeqNum := 0, readCbc := none }
  if rl.cipherAlg = .null then (rl, true)
  else
    match c.cipherInit rl.cipherAlg rl.readIv (rl.readKey.take rl.keyMaterialLen) with
    | none => (rl, false)
    | some k => ({ rl with readCbc := some k }, true)

/-! ## Sending -/

/-- What the MAC of a record is over: the sequence number, the type, the version, the length and the
payload. -/
def macData (seqNum : UInt64) (type : UInt8) (payload : Bytes) : Bytes :=
  putBe 8 seqNum.toNat ++ ([type] ++ putBe16 tlsVersion ++ putBe16 payload.length ++ payload)

/-- The padding behind `len` octets, with the octet that counts it.
Source: `tlsv1_record_send`, the computation of `pad`. -/
def padLen (ivSize len : ℕ) : ℕ :=
  if (len + 1) % ivSize = 0 then 0 else ivSize - (len + 1) % ivSize

/-- A record: the header with the length of the fragment, and the fragment. -/
def recordOf (type : UInt8) (fragment : Bytes) : Bytes :=
  [type] ++ putBe16 tlsVersion ++ putBe16 fragment.length ++ fragment

/-- The payload with its MAC and padding, as far as there is room in a buffer of `bufSize` octets.
Source: `tlsv1_record_send`, up to the encryption. -/
def protectedData (rl : RecordLayer κ) (type : UInt8) (payload : Bytes) (bufSize : ℕ) :
    Option Bytes :=
  let pos := recordHeaderLen + payload.length
  if bufSize - pos < rl.hashSize then none
  else
    let mac := c.hmac rl.hashAlg (rl.writeMacSecret.take rl.hashSize)
      (macData rl.writeSeqNum type payload)
    let data := payload ++ mac
    if rl.ivSize = 0 then some data
    else
      let pad := padLen rl.ivSize data.length
      if recordHeaderLen + data.length + pad + 1 > bufSize then none
      else some (data ++ List.replicate (pad + 1) (UInt8.ofNat pad))

/-- Send a payload; `none` is the failure. `hashInit` says whether there is memory for the hash. A
cipher that is missing where one is needed is used by the source all the same.
Source: `tlsv1_record_send`. -/
def tlsv1RecordSend (hashInit : Bool) (rl : RecordLayer κ) (type : UInt8) (payload : Bytes)
    (bufSize : ℕ) : RecordLayer κ × Option Bytes :=
  if rl.writeCipherSuite = nullWithNullNull then
    ({ rl with writeSeqNum := rl.writeSeqNum + 1 }, some (recordOf type payload))
  else if ¬ hashInit then (rl, none)
  else
    match protectedData c rl type payload bufSize with
    | none => (rl, none)
    | some data =>
      match rl.writeCbc.bind (c.encrypt · data) with
      | none => (rl, none)
      | some (k, crypt) =>
        ({ rl with writeCbc := some k, writeSeqNum := rl.writeSeqNum + 1 },
          some (recordOf type crypt))

/-! ## Receiving -/

/-- The difference of two lengths, modulo the size of a word. Source: `size_t`. -/
def sizeSub (a b : ℕ) : ℕ := (a + 2 ^ 64 - b) % 2 ^ 64

/-- The fragment of a record, when the header is in order and there are `outLen` octets for it.
Source: `tlsv1_record_receive`, up to the decryption. -/
def recordHeader (inData : Bytes) (outLen : ℕ) : Except TlsAlert Bytes :=
  if inData.length < recordHeaderLen then .error .decodeError
  else if inData.getD 0 0 ≠ ContentType.handshake.octet ∧
      inData.getD 0 0 ≠ ContentType.changeCipherSpec.octet ∧
      inData.getD 0 0 ≠ ContentType.alert.octet ∧
      inData.getD 0 0 ≠ ContentType.applicationData.octet then .error .unexpectedMessage
  else if be16 (inData.drop 1) ≠ tlsVersion then .error .protocolVersion
  else
    let rlen := be16 (inData.drop 3)
    if recordHeaderLen + rlen > 18432 then .error .recordOverflow
    else if rlen > inData.length - recordHeaderLen then .error .decodeError
    else if outLen < rlen then .error .internalError
    else .ok ((inData.drop recordHeaderLen).take rlen)

def lastOctet (data : Bytes) : UInt8 := data.getD (data.length - 1) 0

/-- The number of octets in front of the padding. Source: `tlsv1_record_receive`, the block
ciphers. -/
def removePadding (ivSize : ℕ) (data : Bytes) : Except TlsAlert ℕ :=
  if ivSize = 0 then .ok data.length
  else if data.length = 0 then .error .decodeError
  else
    let padlen := lastOctet data
    if padlen.toNat ≥ data.length then .error .decryptionFailed
    else if ¬ (data.drop (data.length - padlen.toNat)).all (· = padlen) then
      .error .decryptionFailed
    else .ok (sizeSub data.length (padlen.toNat + 1))

/-- The MAC of a payload for the current read sequence number. -/
def readMac (rl : RecordLayer κ) (type : UInt8) (payload : Bytes) : Bytes :=
  c.hmac rl.hashAlg (rl.readMacSecret.take rl.hashSize) (macData rl.readSeqNum type payload)

/-- The number of octets in front of the MAC, and whether it verifies.
Source: `tlsv1_record_receive`, from the check of `hash_size` on. -/
def verifyMac (hashInit : Bool) (rl : RecordLayer κ) (type : UInt8) (data : Bytes) (outLen : ℕ) :
    ℕ × Except TlsAlert Unit :=
  if outLen < rl.hashSize then (outLen, .error .internalError)
  else
    let outLen := sizeSub outLen rl.hashSize
    if ¬ hashInit then (outLen, .error .internalError)
    else
      let hash := readMac c rl type (data.take outLen)
      if hash.length ≠ rl.hashSize ∨ hash ≠ (data.drop outLen).take hash.length then
        (outLen, .error .badRecordMac)
      else (outLen, .ok ())

/-- How a call ends: the record layer, the buffer with what was decrypted, the length returned, and
the alert or the success. -/
structure Received (κ : Type*) where
  rl : RecordLayer κ
  outData : Bytes
  outLen : ℕ
  ret : Except TlsAlert Unit

/-- The last check and the next sequence number. Source: `tlsv1_record_receive`, its end. -/
def finishReceive (rl : RecordLayer κ) (outData : Bytes) (outLen : ℕ) : Received κ :=
  if recordHeaderLen + outLen > 17408 then ⟨rl, outData, outLen, .error .recordOverflow⟩
  else ⟨{ rl with readSeqNum := rl.readSeqNum + 1 }, outData, outLen, .ok ()⟩

/-- Decrypt a fragment and check it. Source: `tlsv1_record_receive`, for a cipher suite. -/
def receiveProtected (hashInit : Bool) (rl : RecordLayer κ) (type : UInt8) (fragment : Bytes) :
    Received κ :=
  match rl.readCbc.bind (c.decrypt · fragment) with
  | none => ⟨rl, fragment, fragment.length, .error .decryptionFailed⟩
  | some (k, data) =>
    let rl := { rl with readCbc := some k }
    match removePadding rl.ivSize data with
    | .error alert => ⟨rl, data, data.length, .error alert⟩
    | .ok outLen =>
      match verifyMac c hashInit rl type data outLen with
      | (outLen, .error alert) => ⟨rl, data, outLen, .error alert⟩
      | (outLen, .ok ()) => finishReceive rl data outLen

/-- Receive a record into a buffer of `outLen` octets. Source: `tlsv1_record_receive`. -/
def tlsv1RecordReceive (hashInit : Bool) (rl : RecordLayer κ) (inData : Bytes) (outLen : ℕ) :
    Received κ :=
  match recordHeader inData outLen with
  | .error alert => ⟨rl, [], outLen, .error alert⟩
  | .ok fragment =>
    if rl.readCipherSuite = nullWithNullNull then finishReceive rl fragment fragment.length
    else receiveProtected c hashInit rl (inData.getD 0 0) fragment

end Hostapd.Tls
