import Hostapd.Lib.Chain
import Hostapd.Radius.RoundTrip

/-!
# Microsoft key attributes

The session keys that an Access-Accept carries to the access point, in two vendor attributes, as
`radius.c` writes and reads them. Allocated buffers are read and written with bounds.

* **Writing**: `encryptMsKey` pads a key and hides it block by block, `addMppeKeys` allocates the
  buffer of each attribute and appends the two.
* **Reading**: `getVendorAttr` looks through the vendor attributes of a message, `decryptMsKey`
  uncovers a key, `getMsKeys` reads both. `NULL` is `none`.
-/

namespace Hostapd.Radius

open Hostapd.Lib

/-! ## Constants -/

/-- Source: `radius.h`, `RADIUS_ATTR_VENDOR_SPECIFIC`. -/
def attrVendorSpecific : UInt8 := 26

/-- Source: `radius.h`, `RADIUS_VENDOR_ID_MICROSOFT`. -/
def vendorIdMicrosoft : ℕ := 311

/-- Source: `radius.h`, `RADIUS_VENDOR_ATTR_MS_MPPE_*`. -/
def vendorAttrMsMppeSendKey : UInt8 := 16

@[inherit_doc vendorAttrMsMppeSendKey]
def vendorAttrMsMppeRecvKey : UInt8 := 17

/-- Length of a vendor attribute's header. Source: `radius.h`, `sizeof(struct radius_attr_vendor)`.
-/
def vendorHdrLen : ℕ := 2

/-- Octets in front of the hidden key: vendor, header and salt. Source: `radius_msg_add_mppe_keys`,
`hlen`. -/
def mppeHdrLen : ℕ := 4 + vendorHdrLen + 2

/-- Source: `radius.h`, `struct radius_ms_mppe_keys`. -/
structure RadiusMsMppeKeys where
  send : Option Bytes
  recv : Option Bytes
  deriving DecidableEq

section Md5

variable (md5Vector : List Bytes → Digest)

/-- The pad of a block: the digest over the parts `addr`. -/
def keyPad (addr : List Bytes) : Bytes := (md5Vector addr).toList

/-! ## Writing -/

/-- Round a length up to whole blocks, in `int`. Source: `encrypt_ms_key`. -/
def paddedLen (len : ℕ) : ℕ := if len &&& 0x0f ≠ 0 then (len &&& 0xf0) + 16 else len

/-- The loop of `encrypt_ms_key` over the blocks from `pos` on, bounded by their number. `saltbuf`
stands for the last parts of the first digest, which later ones replace by the block before. -/
def encryptLoop (secret reqAuth saltbuf : Bytes) :
    ℕ → Bytes → ℕ → ℕ → Bool → Except Stop Bytes
  | 0, buf, _, _, _ => .ok buf
  | n + 1, buf, pos, len, first =>
    if 0 < len then do
      let addr ← (if first then .ok [secret, reqAuth, saltbuf]
        else do
          let prev ← rdSlice buf (pos - 16) pos
          return [secret, prev])
      let block ← rdSlice buf pos (pos + 16)
      let buf ← wrSlice buf pos (block.zipWith (· ^^^ ·) (keyPad md5Vector addr))
      encryptLoop secret reqAuth saltbuf n buf (pos + 16) (len - 16) false
    else .ok buf

/-- Pad a key, hide it and append it to a buffer of `size` octets. Gives back the length too.
Source: `encrypt_ms_key`. -/
def encryptMsKey (key : Bytes) (salt : UInt16) (reqAuth secret : Bytes) (size : ℕ) (buf : Bytes) :
    Except Stop (Bytes × ℕ) := do
  let saltbuf := putBe16 salt.toNat
  let ebuf := buf.length
  let len := paddedLen (1 + key.length)
  let buf ← putOctets size buf (List.replicate len 0)
  let buf ← wrSlice buf ebuf [UInt8.ofNat key.length]
  let buf ← wrSlice buf (ebuf + 1) key
  let buf ← encryptLoop md5Vector secret reqAuth saltbuf len buf ebuf len true
  return (buf, len)

/-- The payload of one key attribute, in a buffer of `size` octets. The source has these lines
twice, once for each key. Source: `radius_msg_add_mppe_keys`. -/
def mppeKeyAttr (vendorType : UInt8) (key : Bytes) (salt : UInt16) (reqAuth secret : Bytes)
    (size : ℕ) : Except Stop Bytes := do
  let buf ← putOctets size [] (putBe 4 vendorIdMicrosoft)
  let vhdr := buf.length
  let buf ← putOctets size buf [vendorType, 0]
  let buf ← putOctets size buf (putBe16 salt.toNat)
  let (buf, elen) ← encryptMsKey md5Vector key salt reqAuth secret size buf
  -- vendor_length, which is not written before
  let buf ← wrSlice buf (vhdr + 1) [UInt8.ofNat (mppeHdrLen + elen - 4)]
  rdSlice buf 0 (mppeHdrLen + elen)

/-- Append the two keys to a message. `random` is what the random number generator gives.
Source: `radius_msg_add_mppe_keys`, which allocates both buffers by the length of the Send-Key. -/
def addMppeKeys (random : UInt16) (msg : RadiusMsg) (reqAuth secret sendKey recvKey : Bytes) :
    Except Stop (Bool × RadiusMsg) := do
  let salt := random ||| 0x8000
  let buf ← mppeKeyAttr md5Vector vendorAttrMsMppeSendKey sendKey salt reqAuth secret
    (mppeHdrLen + sendKey.length + 16)
  match addAttr msg attrVendorSpecific buf with
  | none => return (false, msg)
  | some msg => do
    let salt := salt ^^^ 1
    let buf ← mppeKeyAttr md5Vector vendorAttrMsMppeRecvKey recvKey salt reqAuth secret
      (mppeHdrLen + sendKey.length + 16)
    match addAttr msg attrVendorSpecific buf with
    | none => return (false, msg)
    | some msg => return (true, msg)

/-! ## Reading -/

/-- The loop of `radius_msg_get_vendor_attr` over the vendor's attributes in one payload, of which
`left` octets are left from `pos` on. -/
def vendorLoop (subtype : UInt8) (data : Bytes) : ℕ → ℕ → ℕ → Except Stop (Option Bytes)
  | 0, _, _ => .ok none
  | n + 1, pos, left =>
    if vendorHdrLen ≤ left then do
      let vendorLength ← rd8 data (pos + 1)
      if vendorLength.toNat > left ∨ vendorLength.toNat < vendorHdrLen then return none
      else
        let vendorType ← rd8 data pos
        if vendorType ≠ subtype then
          vendorLoop subtype data n (pos + vendorLength.toNat) (left - vendorLength.toNat)
        else
          let payload ← rdSlice data (pos + vendorHdrLen) (pos + vendorLength.toNat)
          return some payload
    else .ok none

/-- The loop of `radius_msg_get_vendor_attr` over the attributes of the message. -/
def getVendorAttrLoop (vendor : ℕ) (subtype : UInt8) : List Record → Except Stop (Option Bytes)
  | [] => .ok none
  | attr :: l =>
    let left := attr.2.length
    if attr.1 ≠ attrVendorSpecific ∨ left < 4 then getVendorAttrLoop vendor subtype l
    else do
      let vendorId ← rdSlice attr.2 0 4
      if beNat vendorId ≠ vendor then getVendorAttrLoop vendor subtype l
      else
        match ← vendorLoop subtype attr.2 left 4 (left - 4) with
        | some data => return some data
        | none => getVendorAttrLoop vendor subtype l

/-- The first attribute of a vendor and a type. Source: `radius_msg_get_vendor_attr`. -/
def getVendorAttr (msg : RadiusMsg) (vendor : ℕ) (subtype : UInt8) :
    Except Stop (Option Bytes) := do
  let l ← readAttrs msg
  getVendorAttrLoop vendor subtype l

/-- The loop of `decrypt_ms_key` over the blocks from `pos` on, into a buffer of `plen` octets. -/
def decryptLoop (secret reqAuth key : Bytes) (plen : ℕ) :
    ℕ → Bytes → ℕ → ℕ → Bool → Except Stop Bytes
  | 0, plain, _, _, _ => .ok plain
  | n + 1, plain, pos, left, first =>
    if 0 < left then do
      let addr ← (if first then do
          let salt ← rdSlice key 0 2
          return [secret, reqAuth, salt]
        else do
          let prev ← rdSlice key (pos - 16) pos
          return [secret, prev])
      let block ← rdSlice key pos (pos + 16)
      let plain ← putOctets plen plain (block.zipWith (· ^^^ ·) (keyPad md5Vector addr))
      decryptLoop secret reqAuth key plen n plain (pos + 16) (left - 16) false
    else .ok plain

/-- Uncover a key: a salt and whole blocks, of which the first octet is the key's length.
Source: `decrypt_ms_key`. -/
def decryptMsKey (key reqAuth secret : Bytes) : Except Stop (Option Bytes) :=
  let len := key.length
  if len < 2 + 16 then .ok none
  else
    let left := len - 2
    if left % 16 ≠ 0 then .ok none
    else do
      let plen := left
      let plain ← decryptLoop md5Vector secret reqAuth key plen left [] 2 left true
      let n ← rd8 plain 0
      if n.toNat = 0 ∨ n.toNat > plen - 1 then return none
      else
        let res ← rdSlice plain 1 (1 + n.toNat)
        return some res

/-- One key of a message. The source has these lines twice. Source: `radius_msg_get_ms_keys`. -/
def getMsKey (msg : RadiusMsg) (subtype : UInt8) (reqAuth secret : Bytes) :
    Except Stop (Option Bytes) := do
  match ← getVendorAttr msg vendorIdMicrosoft subtype with
  | none => return none
  | some key => decryptMsKey md5Vector key reqAuth secret

/-- The two keys of a message, hidden under the authenticator of the request it answers.
Source: `radius_msg_get_ms_keys`. -/
def getMsKeys (msg sentMsg : RadiusMsg) (secret : Bytes) : Except Stop RadiusMsMppeKeys := do
  let send ← getMsKey md5Vector msg vendorAttrMsMppeSendKey (authenticator sentMsg) secret
  let recv ← getMsKey md5Vector msg vendorAttrMsMppeRecvKey (authenticator sentMsg) secret
  return { send, recv }

end Md5

/-!
## Microsoft key attributes: what is written and what is read back

* **`mppeKeyAttr_eq`**: the payload of one key attribute, written into a buffer that is large
  enough for the rounded length; into any other buffer the writer leaves the buffer
  (`mppeKeyAttr_outside`).
* **`decryptMsKey_hidden`**: a key that has been padded and hidden is uncovered.
* **`addMppeKeys_holds`**: the attributes that a message holds when the keys have been added.
* **`ms_keys_round_trip_iff`**: the keys come back out of the finished and parsed message exactly
  when the Receive-Key, rounded down to whole blocks, is no longer than the Send-Key, by which the
  buffer of both is allocated.
-/

theorem paddedLen_eq : ∀ n < 241, paddedLen n = (n + 15) / 16 * 16 := by
  decide +kernel

theorem xor_cancel (a b : UInt8) : a ^^^ b ^^^ b = a := by
  rw [UInt8.xor_assoc, UInt8.xor_self, UInt8.xor_zero]

/-- A key with its length in front and zeroes behind, up to whole blocks. -/
def plainKey (key : Bytes) : Bytes :=
  UInt8.ofNat key.length ::
    (key ++ List.replicate (paddedLen (1 + key.length) - (1 + key.length)) 0)

theorem padded_key {key : Bytes} (hkey : key.length ≤ 239) :
    ∃ k, paddedLen (1 + key.length) = (k + 1) * 16 ∧ k = key.length / 16 ∧
      1 + key.length ≤ paddedLen (1 + key.length) ∧
      (plainKey key).length = paddedLen (1 + key.length) := by
  have hpad := paddedLen_eq (1 + key.length) (by omega)
  refine ⟨key.length / 16, by omega, rfl, by omega, ?_⟩
  rw [plainKey, List.length_cons, List.length_append, List.length_replicate]
  omega

section Md5

variable (md5Vector : List Bytes → Digest)

/-- Hide some blocks of a string, the first of them under the digest over `addr`. -/
def hide (secret : Bytes) : ℕ → List Bytes → Bytes → Bytes :=
  chain (· ^^^ ·) 16 (keyPad md5Vector) fun block => [secret, block]

def uncover (secret : Bytes) : ℕ → List Bytes → Bytes → Bytes :=
  unchain (· ^^^ ·) 16 (keyPad md5Vector) fun block => [secret, block]

def hiddenKey (secret reqAuth saltbuf key : Bytes) : Bytes :=
  hide md5Vector secret (key.length / 16 + 1) [secret, reqAuth, saltbuf] (plainKey key)

variable {md5Vector} {secret reqAuth saltbuf key : Bytes}

@[simp] theorem length_keyPad (addr : List Bytes) : (keyPad md5Vector addr).length = 16 :=
  Vector.length_toList

/-- The parts that the digest for the next block is over, behind the octets `pre`. -/
inductive Addr (secret reqAuth saltbuf : Bytes) : Bool → Bytes → List Bytes → Prop
  | first (pre : Bytes) : Addr secret reqAuth saltbuf true pre [secret, reqAuth, saltbuf]
  | later (pre block : Bytes) (h : block.length = 16) :
      Addr secret reqAuth saltbuf false (pre ++ block) [secret, block]

theorem rdSlice_before {pre block rest : Bytes} (h : block.length = 16) :
    rdSlice (pre ++ block ++ rest) ((pre ++ block).length - 16) (pre ++ block).length =
      .ok block := by
  have hread := rdSlice_middle pre block rest
  rwa [List.append_assoc, List.length_append, h, Nat.add_sub_cancel, ← h]

theorem exists_block {k : ℕ} {todo : Bytes} (h : todo.length = (k + 1) * 16) :
    ∃ block rest, todo = block ++ rest ∧ block.length = 16 ∧ rest.length = k * 16 := by
  refine ⟨todo.take 16, todo.drop 16, (List.take_append_drop 16 todo).symm, ?_, ?_⟩
  · rw [List.length_take]
    omega
  · rw [List.length_drop]
    omega

/-! ### Writing -/

theorem encryptLoop_eq (k : ℕ) {n : ℕ} (hn : k ≤ n) {first : Bool} {pre todo : Bytes}
    {addr : List Bytes} (haddr : Addr secret reqAuth saltbuf first pre addr)
    (htodo : todo.length = k * 16) :
    encryptLoop md5Vector secret reqAuth saltbuf n (pre ++ todo) pre.length (k * 16) first =
      .ok (pre ++ hide md5Vector secret k addr todo) := by
  induction k generalizing n first pre todo addr with
  | zero =>
    rw [Nat.zero_mul] at htodo
    rw [List.length_eq_zero_iff.mp htodo]
    cases n <;> rfl
  | succ k ih =>
    obtain ⟨n, rfl⟩ := Nat.exists_eq_add_of_le' (Nat.one_le_of_lt hn)
    obtain ⟨block, rest, rfl, hblock, hrest⟩ := exists_block htodo
    have hread : (if first then Except.ok [secret, reqAuth, saltbuf]
        else do
          let prev ← rdSlice (pre ++ (block ++ rest)) (pre.length - 16) pre.length
          return [secret, prev]) = (Except.ok addr : Except Stop (List Bytes)) := by
      cases haddr with
      | first => rfl
      | later pre prev hprev =>
        rw [rdSlice_before hprev]
        rfl
    have hhidden : (block.zipWith (· ^^^ ·) (keyPad md5Vector addr)).length = 16 := by
      rw [List.length_zipWith, length_keyPad, hblock, Nat.min_self]
    have hmiddle := rdSlice_middle pre block rest
    rw [hblock] at hmiddle
    have hnext := ih (Nat.le_of_succ_le_succ hn) (.later pre _ hhidden) hrest
    rw [List.length_append, hhidden, List.append_assoc] at hnext
    rw [encryptLoop, if_pos (by omega), hread, ok_bind, hmiddle, ok_bind,
      wrSlice_append rest (hblock.trans hhidden.symm), ok_bind,
      show (k + 1) * 16 - 16 = k * 16 by omega, hnext]
    rw [hide, chain, List.take_left' hblock, List.drop_left' hblock, List.append_assoc]

theorem length_hiddenKey (hkey : key.length ≤ 239) :
    (hiddenKey md5Vector secret reqAuth saltbuf key).length = paddedLen (1 + key.length) := by
  obtain ⟨k, hblocks, rfl, -, hplain⟩ := padded_key hkey
  rw [hiddenKey, hide, length_chain length_keyPad _ _ (hplain.trans hblocks), hplain]

variable {salt : UInt16} {size : ℕ}

theorem encryptMsKey_eq {buf : Bytes} (hkey : key.length ≤ 239)
    (hfits : buf.length + paddedLen (1 + key.length) ≤ size) :
    encryptMsKey md5Vector key salt reqAuth secret size buf =
      .ok (buf ++ hiddenKey md5Vector secret reqAuth (putBe16 salt.toNat) key,
        paddedLen (1 + key.length)) := by
  obtain ⟨k, hblocks, rfl, hle, hplain⟩ := padded_key hkey
  have hzeros : List.replicate (paddedLen (1 + key.length)) (0 : UInt8) =
      [0] ++ (List.replicate key.length 0 ++
        List.replicate (paddedLen (1 + key.length) - (1 + key.length)) 0) := by
    rw [List.replicate_append_replicate, ← List.replicate_one, List.replicate_append_replicate]
    congr 1
    omega
  have hput : putOctets size buf (List.replicate (paddedLen (1 + key.length)) 0) =
      .ok (buf ++ List.replicate (paddedLen (1 + key.length)) 0) :=
    putOctets_of (by rwa [List.length_replicate])
  have hlength : ∀ rest, wrSlice (buf ++ ([0] ++ rest)) buf.length [UInt8.ofNat key.length] =
      .ok (buf ++ ([UInt8.ofNat key.length] ++ rest)) := fun rest => wrSlice_append rest rfl
  have hcopy : wrSlice (buf ++ ([UInt8.ofNat key.length] ++ (List.replicate key.length 0 ++
      List.replicate (paddedLen (1 + key.length) - (1 + key.length)) 0))) (buf.length + 1) key =
        .ok (buf ++ plainKey key) := by
    have hold : (List.replicate key.length (0 : UInt8)).length = key.length :=
      List.length_replicate
    have hwrite : wrSlice ((buf ++ [UInt8.ofNat key.length]) ++ (_ ++ _)) _ key = _ :=
      wrSlice_append (List.replicate (paddedLen (1 + key.length) - (1 + key.length)) 0) hold
    rwa [List.append_assoc, List.append_assoc, List.length_append] at hwrite
  have hloop : encryptLoop md5Vector secret reqAuth (putBe16 salt.toNat)
      (paddedLen (1 + key.length)) (buf ++ plainKey key) buf.length (paddedLen (1 + key.length))
        true = .ok (buf ++ hiddenKey md5Vector secret reqAuth (putBe16 salt.toNat) key) := by
    have hn : key.length / 16 + 1 ≤ (key.length / 16 + 1) * 16 := by omega
    rw [hblocks]
    exact encryptLoop_eq _ hn (.first buf) (hplain.trans hblocks)
  unfold encryptMsKey
  dsimp only
  rw [hput, ok_bind, hzeros, hlength, ok_bind, hcopy, ok_bind, hloop, ok_bind]
  rfl

theorem encryptMsKey_outside {buf : Bytes}
    (hfits : ¬ buf.length + paddedLen (1 + key.length) ≤ size) :
    encryptMsKey md5Vector key salt reqAuth secret size buf = .error .outside := by
  have hput : putOctets size buf (List.replicate (paddedLen (1 + key.length)) 0) =
      .error .outside := if_neg (by rwa [List.length_replicate])
  unfold encryptMsKey
  dsimp only
  rw [hput]
  rfl

def mppePayload (md5Vector : List Bytes → Digest) (vendorType : UInt8) (secret reqAuth salt key :
    Bytes) : Bytes :=
  putBe 4 vendorIdMicrosoft ++ ([vendorType, UInt8.ofNat (paddedLen (1 + key.length) + 4)] ++
    (salt ++ hiddenKey md5Vector secret reqAuth salt key))

variable {vendorType : UInt8}

theorem mppeKeyAttr_front
    (hsize : mppeHdrLen ≤ size) :
    mppeKeyAttr md5Vector vendorType key salt reqAuth secret size = (do
      let (buf, elen) ← encryptMsKey md5Vector key salt reqAuth secret size
        (putBe 4 vendorIdMicrosoft ++ [vendorType, 0] ++ putBe16 salt.toNat)
      let buf ← wrSlice buf 5 [UInt8.ofNat (mppeHdrLen + elen - 4)]
      rdSlice buf 0 (mppeHdrLen + elen)) := by
  have hsize' : 8 ≤ size := hsize
  have hvendor : putOctets size [] (putBe 4 vendorIdMicrosoft) =
      .ok (putBe 4 vendorIdMicrosoft) := putOctets_of (by rw [length_putBe]; simp; omega)
  have hhdr : putOctets size (putBe 4 vendorIdMicrosoft) [vendorType, 0] =
      .ok (putBe 4 vendorIdMicrosoft ++ [vendorType, 0]) :=
    putOctets_of (by rw [length_putBe]; simp; omega)
  have hsalt : putOctets size (putBe 4 vendorIdMicrosoft ++ [vendorType, 0])
      (putBe16 salt.toNat) = .ok (putBe 4 vendorIdMicrosoft ++ [vendorType, 0] ++
        putBe16 salt.toNat) :=
    putOctets_of (by rw [List.length_append, length_putBe, length_putBe16]; simp; omega)
  unfold mppeKeyAttr
  rw [hvendor, ok_bind]
  dsimp only
  rw [hhdr, ok_bind, hsalt, ok_bind, length_putBe]

theorem mppeKeyAttr_eq (hkey : key.length ≤ 239)
    (hfits : mppeHdrLen + paddedLen (1 + key.length) ≤ size) :
    mppeKeyAttr md5Vector vendorType key salt reqAuth secret size =
      .ok (mppePayload md5Vector vendorType secret reqAuth (putBe16 salt.toNat) key) := by
  have hhidden : (hiddenKey md5Vector secret reqAuth (putBe16 salt.toNat) key).length =
      paddedLen (1 + key.length) := length_hiddenKey hkey
  have hwrite : wrSlice (putBe 4 vendorIdMicrosoft ++ [vendorType, 0] ++ putBe16 salt.toNat ++
      hiddenKey md5Vector secret reqAuth (putBe16 salt.toNat) key) 5
        [UInt8.ofNat (mppeHdrLen + paddedLen (1 + key.length) - 4)] =
      .ok (mppePayload md5Vector vendorType secret reqAuth (putBe16 salt.toNat) key) := by
    have hslice : wrSlice ((putBe 4 vendorIdMicrosoft ++ [vendorType]) ++ ([0] ++ _)) _
        [UInt8.ofNat (mppeHdrLen + paddedLen (1 + key.length) - 4)] = _ :=
      wrSlice_append (putBe16 salt.toNat ++
        hiddenKey md5Vector secret reqAuth (putBe16 salt.toNat) key) rfl
    have hlen : mppeHdrLen + paddedLen (1 + key.length) - 4 = paddedLen (1 + key.length) + 4 := by
      rw [mppeHdrLen, vendorHdrLen]
      omega
    rw [hlen] at hslice ⊢
    simpa [mppePayload] using hslice
  have hall := rdSlice_all
    (mppePayload md5Vector vendorType secret reqAuth (putBe16 salt.toNat) key)
  have hlen : (mppePayload md5Vector vendorType secret reqAuth (putBe16 salt.toNat) key).length =
      mppeHdrLen + paddedLen (1 + key.length) := by
    simp [mppePayload, hhidden, mppeHdrLen, vendorHdrLen]
    omega
  rw [hlen] at hall
  rw [mppeKeyAttr_front (by omega),
    encryptMsKey_eq hkey (by simpa [mppeHdrLen, vendorHdrLen] using hfits), ok_bind]
  dsimp only
  rw [hwrite, ok_bind, hall]

theorem mppeKeyAttr_outside
    (hsize : mppeHdrLen ≤ size) (hfits : ¬ mppeHdrLen + paddedLen (1 + key.length) ≤ size) :
    mppeKeyAttr md5Vector vendorType key salt reqAuth secret size = .error .outside := by
  rw [mppeKeyAttr_front hsize, encryptMsKey_outside]
  · rfl
  · simpa [mppeHdrLen, vendorHdrLen] using hfits

/-! ### Reading -/

theorem decryptLoop_eq (k : ℕ) {n plen : ℕ} (hn : k ≤ n) {first : Bool} {pre todo plain : Bytes}
    {addr : List Bytes} (haddr : Addr secret reqAuth saltbuf first pre addr)
    (hfirst : first = true → pre = saltbuf) (hsalt : saltbuf.length = 2)
    (htodo : todo.length = k * 16) (hroom : plain.length + k * 16 ≤ plen) :
    decryptLoop md5Vector secret reqAuth (pre ++ todo) plen n plain pre.length (k * 16) first =
      .ok (plain ++ uncover md5Vector secret k addr todo) := by
  induction k generalizing n first pre todo addr plain with
  | zero => cases n <;> simp [decryptLoop, uncover, unchain]
  | succ k ih =>
    obtain ⟨n, rfl⟩ := Nat.exists_eq_add_of_le' (Nat.one_le_of_lt hn)
    obtain ⟨block, rest, rfl, hblock, hrest⟩ := exists_block htodo
    have hread : (if first then do
          let salt ← rdSlice (pre ++ (block ++ rest)) 0 2
          return [secret, reqAuth, salt]
        else do
          let prev ← rdSlice (pre ++ (block ++ rest)) (pre.length - 16) pre.length
          return [secret, prev]) = (Except.ok addr : Except Stop (List Bytes)) := by
      cases haddr with
      | first =>
        have hslice := rdSlice_middle [] pre (block ++ rest)
        rw [List.nil_append, List.length_nil, Nat.zero_add, hfirst rfl, hsalt] at hslice
        rw [if_pos rfl, hfirst rfl, hslice]
        rfl
      | later pre prev hprev =>
        rw [if_neg (by simp), rdSlice_before hprev]
        rfl
    have hplain : (block.zipWith (· ^^^ ·) (keyPad md5Vector addr)).length = 16 := by
      rw [List.length_zipWith, length_keyPad, hblock, Nat.min_self]
    have hput : putOctets plen plain (block.zipWith (· ^^^ ·) (keyPad md5Vector addr)) =
        .ok (plain ++ block.zipWith (· ^^^ ·) (keyPad md5Vector addr)) := putOctets_of (by omega)
    have hmiddle := rdSlice_middle pre block rest
    rw [hblock] at hmiddle
    have hroom' : (plain ++ block.zipWith (· ^^^ ·) (keyPad md5Vector addr)).length + k * 16 ≤
        plen := by
      rw [List.length_append]
      omega
    have hnext := ih (Nat.le_of_succ_le_succ hn) (.later pre _ hblock) (by simp) hrest hroom'
    rw [List.length_append, hblock, List.append_assoc] at hnext
    rw [decryptLoop, if_pos (by omega), hread, ok_bind, hmiddle, ok_bind, hput, ok_bind,
      show (k + 1) * 16 - 16 = k * 16 by omega, hnext]
    rw [uncover, unchain, List.take_left' hblock, List.drop_left' hblock, List.append_assoc]

/-- **A key that has been padded and hidden is uncovered.** -/
theorem decryptMsKey_hidden {salt : Bytes} (hsalt : salt.length = 2) (hne : key ≠ [])
    (hkey : key.length ≤ 239) :
    decryptMsKey md5Vector (salt ++ hiddenKey md5Vector secret reqAuth salt key) reqAuth secret =
      .ok (some key) := by
  obtain ⟨k, hblocks, rfl, hle, hplain⟩ := padded_key hkey
  have hhidden : (hiddenKey md5Vector secret reqAuth salt key).length =
      paddedLen (1 + key.length) := length_hiddenKey hkey
  have hpos : 0 < key.length := List.length_pos_iff.mpr hne
  have huncover : uncover md5Vector secret (key.length / 16 + 1) [secret, reqAuth, salt]
      (hiddenKey md5Vector secret reqAuth salt key) = plainKey key :=
    unchain_chain length_keyPad xor_cancel _ _ (hplain.trans hblocks)
  have hloop : decryptLoop md5Vector secret reqAuth
      (salt ++ hiddenKey md5Vector secret reqAuth salt key) (paddedLen (1 + key.length))
        (paddedLen (1 + key.length)) [] 2 (paddedLen (1 + key.length)) true =
          .ok (plainKey key) := by
    have hn : key.length / 16 + 1 ≤ (key.length / 16 + 1) * 16 := by omega
    have hroom : ([] : Bytes).length + (key.length / 16 + 1) * 16 ≤ (key.length / 16 + 1) * 16 := by
      rw [List.length_nil, Nat.zero_add]
    rw [hblocks, ← hsalt, ← huncover, ← List.nil_append (uncover ..)]
    exact decryptLoop_eq _ hn (.first salt) (fun _ => rfl) hsalt (hhidden.trans hblocks) hroom
  have hlen : (salt ++ hiddenKey md5Vector secret reqAuth salt key).length - 2 =
      paddedLen (1 + key.length) := by
    rw [List.length_append, hhidden, hsalt]
    omega
  have hoctet : (UInt8.ofNat key.length).toNat = key.length := by
    rw [UInt8.toNat_ofNat']
    omega
  have hres : rdSlice (plainKey key) 1 (1 + key.length) = .ok key := rdSlice_middle [_] key _
  unfold decryptMsKey
  dsimp only
  rw [if_neg (by rw [List.length_append, hhidden, hsalt]; omega), hlen, if_neg (by omega), hloop,
    ok_bind]
  rw [show rd8 (plainKey key) 0 = .ok (UInt8.ofNat key.length) from rfl, ok_bind, hoctet,
    if_neg (by omega), hres]
  rfl

theorem vendorLoop_single {subtype vendorType : UInt8} {vendor body : Bytes} (n : ℕ)
    (hvendor : vendor.length = 4) (hbody : body.length + 2 < 256) :
    vendorLoop subtype
        (vendor ++ ([vendorType, UInt8.ofNat (body.length + 2)] ++ body)) (n + 2) 4
        (body.length + 2) =
      .ok (if vendorType = subtype then some body else none) := by
  have hoctet : (UInt8.ofNat (body.length + 2)).toNat = body.length + 2 := by
    rw [UInt8.toNat_ofNat']
    omega
  have hlength : rd8 (vendor ++ ([vendorType, UInt8.ofNat (body.length + 2)] ++ body)) (4 + 1) =
      .ok (UInt8.ofNat (body.length + 2)) := by
    rw [← hvendor, rd8_append]
    rfl
  have htype : rd8 (vendor ++ ([vendorType, UInt8.ofNat (body.length + 2)] ++ body)) 4 =
      .ok vendorType := by
    have := rd8_append vendor ([vendorType, UInt8.ofNat (body.length + 2)] ++ body) 0
    rw [hvendor] at this
    exact this
  rw [vendorLoop, if_pos (by simp [vendorHdrLen]), hlength, ok_bind, hoctet,
    if_neg (by simp [vendorHdrLen]), htype, ok_bind]
  by_cases hsub : vendorType = subtype
  · have hslice : rdSlice (vendor ++ ([vendorType, UInt8.ofNat (body.length + 2)] ++ body))
        (4 + vendorHdrLen) (4 + (body.length + 2)) = .ok body := by
      have := rdSlice_append (vendor ++ [vendorType, UInt8.ofNat (body.length + 2)]) body
      rw [List.append_assoc, List.length_append, hvendor, Nat.add_assoc] at this
      rw [Nat.add_comm body.length] at this ⊢
      exact this
    rw [if_neg (not_not.mpr hsub), hslice, if_pos hsub]
    rfl
  · rw [if_pos hsub, vendorLoop, if_neg (by simp [vendorHdrLen]), if_neg hsub]

theorem getVendorAttrLoop_append {vendor : ℕ} {subtype : UInt8} {l : List Record}
    (h : getVendorAttrLoop vendor subtype l = .ok none) (l' : List Record) :
    getVendorAttrLoop vendor subtype (l ++ l') = getVendorAttrLoop vendor subtype l' := by
  induction l with
  | nil => rfl
  | cons attr l ih =>
    rw [getVendorAttrLoop] at h
    rw [List.cons_append, getVendorAttrLoop]
    split at h
    · rename_i hother
      rw [if_pos hother]
      exact ih h
    · rename_i hother
      rw [if_neg hother]
      obtain ⟨id, hid, h⟩ := bind_eq_ok h
      rw [hid, ok_bind]
      split at h
      · rename_i hvendor
        rw [if_pos hvendor]
        exact ih h
      · rename_i hvendor
        rw [if_neg hvendor]
        obtain ⟨found, hfound, h⟩ := bind_eq_ok h
        rw [hfound, ok_bind]
        cases found with
        | some data => cases h
        | none => exact ih h

def mppeAttr (md5Vector : List Bytes → Digest) (vendorType : UInt8) (secret reqAuth salt key :
    Bytes) : Record :=
  (attrVendorSpecific, mppePayload md5Vector vendorType secret reqAuth salt key)

theorem length_mppePayload {salt : Bytes} (hsalt : salt.length = 2)
    (hkey : key.length ≤ 239) :
    (mppePayload md5Vector vendorType secret reqAuth salt key).length =
      mppeHdrLen + paddedLen (1 + key.length) := by
  rw [mppePayload, List.length_append, List.length_append, List.length_append, length_putBe,
    length_hiddenKey hkey, hsalt, mppeHdrLen, vendorHdrLen]
  simp only [List.length_cons, List.length_nil]
  omega

theorem getVendorAttrLoop_mppeAttr {subtype vendorType : UInt8} {salt : Bytes}
    (hsalt : salt.length = 2) (hkey : key.length ≤ 239) (l : List Record) :
    getVendorAttrLoop vendorIdMicrosoft subtype
        (mppeAttr md5Vector vendorType secret reqAuth salt key :: l) =
      if vendorType = subtype then
        .ok (some (salt ++ hiddenKey md5Vector secret reqAuth salt key))
      else getVendorAttrLoop vendorIdMicrosoft subtype l := by
  obtain ⟨k, hblocks, rfl, hle, hplain⟩ := padded_key hkey
  have hhidden : (hiddenKey md5Vector secret reqAuth salt key).length =
      paddedLen (1 + key.length) := length_hiddenKey hkey
  have hbody : (salt ++ hiddenKey md5Vector secret reqAuth salt key).length + 2 =
      paddedLen (1 + key.length) + 4 := by
    rw [List.length_append, hsalt, hhidden]
    omega
  have hpayload : mppePayload md5Vector vendorType secret reqAuth salt key =
      putBe 4 vendorIdMicrosoft ++ ([vendorType, UInt8.ofNat
        ((salt ++ hiddenKey md5Vector secret reqAuth salt key).length + 2)] ++
          (salt ++ hiddenKey md5Vector secret reqAuth salt key)) := by
    rw [hbody]
    rfl
  have hlen : (mppePayload md5Vector vendorType secret reqAuth salt key).length - 4 =
      (salt ++ hiddenKey md5Vector secret reqAuth salt key).length + 2 := by
    rw [length_mppePayload hsalt hkey, hbody, mppeHdrLen, vendorHdrLen]
    omega
  have hvendor : rdSlice (mppePayload md5Vector vendorType secret reqAuth salt key) 0 4 =
      .ok (putBe 4 vendorIdMicrosoft) := rdSlice_middle [] (putBe 4 vendorIdMicrosoft) _
  obtain ⟨n, hn⟩ : ∃ n, (mppePayload md5Vector vendorType secret reqAuth salt key).length =
      n + 2 := Nat.exists_eq_add_of_le' (by
        rw [length_mppePayload hsalt hkey, mppeHdrLen, vendorHdrLen]
        omega)
  have hfound : vendorLoop subtype (mppePayload md5Vector vendorType secret reqAuth salt key)
      (mppePayload md5Vector vendorType secret reqAuth salt key).length 4
        ((mppePayload md5Vector vendorType secret reqAuth salt key).length - 4) =
      .ok (if vendorType = subtype then
        some (salt ++ hiddenKey md5Vector secret reqAuth salt key) else none) := by
    rw [hlen, hn, hpayload]
    exact vendorLoop_single n (length_putBe 4 _) (by omega)
  have hours : ¬ (attrVendorSpecific ≠ attrVendorSpecific ∨
      (mppePayload md5Vector vendorType secret reqAuth salt key).length < 4) := by
    rw [length_mppePayload hsalt hkey, mppeHdrLen, vendorHdrLen]
    simp only [ne_eq, not_true_eq_false, false_or]
    omega
  have hid : ¬ beNat (putBe 4 vendorIdMicrosoft) ≠ vendorIdMicrosoft := by decide
  rw [getVendorAttrLoop, mppeAttr, if_neg hours, hvendor, ok_bind, if_neg hid, hfound, ok_bind]
  split_ifs <;> rfl

/-! ### The two keys of a message -/

/-- The salt of the Send-Key, and that of the Receive-Key. -/
def sendSalt (random : UInt16) : Bytes := putBe16 (random ||| 0x8000).toNat

@[inherit_doc sendSalt]
def recvSalt (random : UInt16) : Bytes := putBe16 ((random ||| 0x8000) ^^^ 1).toNat

def mppeAttrs (md5Vector : List Bytes → Digest) (random : UInt16) (secret reqAuth sendKey recvKey :
    Bytes) : List Record :=
  [mppeAttr md5Vector vendorAttrMsMppeSendKey secret reqAuth (sendSalt random) sendKey,
    mppeAttr md5Vector vendorAttrMsMppeRecvKey secret reqAuth (recvSalt random) recvKey]

section Adding

variable {msg : RadiusMsg} {hdr : Bytes} {l : List Record} {sendKey recvKey : Bytes}
  {random : UInt16}

variable (md5Vector secret reqAuth) in
theorem addAttr_mppeAttr (h : Holds msg hdr l) (vendorType : UInt8) {salt : Bytes}
    (hsalt : salt.length = 2) (hkey : key.length ≤ 239) :
    ∃ m, addAttr msg attrVendorSpecific
        (mppePayload md5Vector vendorType secret reqAuth salt key) = some m ∧
      Holds m hdr (l ++ [mppeAttr md5Vector vendorType secret reqAuth salt key]) := by
  obtain ⟨k, hblocks, rfl, -, -⟩ := padded_key hkey
  have hsome : addAttr msg attrVendorSpecific
      (mppePayload md5Vector vendorType secret reqAuth salt key) ≠ none := by
    intro hnone
    have hlong := (addAttr_eq_none_iff h _ _).mp hnone
    rw [length_mppePayload hsalt hkey, hblocks] at hlong
    simp only [maxAttrLen, attrHdrLen, mppeHdrLen, vendorHdrLen] at hlong
    omega
  obtain ⟨m, hm⟩ := Option.ne_none_iff_exists'.mp hsome
  exact ⟨m, hm, addAttr_holds h hm⟩

variable (md5Vector secret reqAuth recvKey random) in
theorem addMppeKeys_send (h : Holds msg hdr l) (hsend : sendKey.length ≤ 239) :
    ∃ m, Holds m hdr (l ++
        [mppeAttr md5Vector vendorAttrMsMppeSendKey secret reqAuth (sendSalt random) sendKey]) ∧
      addMppeKeys md5Vector random msg reqAuth secret sendKey recvKey = (do
        let buf ← mppeKeyAttr md5Vector vendorAttrMsMppeRecvKey recvKey
          ((random ||| 0x8000) ^^^ 1) reqAuth secret (mppeHdrLen + sendKey.length + 16)
        match addAttr m attrVendorSpecific buf with
        | none => return (false, m)
        | some msg => return (true, msg)) := by
  obtain ⟨m, hm, hholds⟩ := addAttr_mppeAttr md5Vector secret reqAuth h vendorAttrMsMppeSendKey
    (length_putBe16 (random ||| 0x8000).toNat) hsend
  refine ⟨m, hholds, ?_⟩
  obtain ⟨k, hblocks, rfl, -, -⟩ := padded_key hsend
  unfold addMppeKeys
  dsimp only
  rw [mppeKeyAttr_eq hsend (by omega), ok_bind, hm]

variable (md5Vector secret reqAuth random) in
/-- **The keys are added**, when the Receive-Key fits the buffer allocated by the length of the
Send-Key. -/
theorem addMppeKeys_holds (h : Holds msg hdr l) (hsend : sendKey.length ≤ 239)
    (hrecv : recvKey.length ≤ 239) (hfits : recvKey.length / 16 * 16 ≤ sendKey.length) :
    ∃ m, addMppeKeys md5Vector random msg reqAuth secret sendKey recvKey = .ok (true, m) ∧
      Holds m hdr (l ++ mppeAttrs md5Vector random secret reqAuth sendKey recvKey) := by
  obtain ⟨m₁, hholds₁, hadd⟩ := addMppeKeys_send md5Vector secret reqAuth recvKey random h hsend
  obtain ⟨m, hm, hholds⟩ := addAttr_mppeAttr md5Vector secret reqAuth hholds₁
    vendorAttrMsMppeRecvKey (length_putBe16 ((random ||| 0x8000) ^^^ 1).toNat) hrecv
  obtain ⟨k, hblocks, rfl, -, -⟩ := padded_key hrecv
  rw [List.append_assoc] at hholds
  refine ⟨m, ?_, hholds⟩
  rw [hadd, mppeKeyAttr_eq hrecv (by omega), ok_bind, hm]
  rfl

theorem addMppeKeys_outside (h : Holds msg hdr l) (hsend : sendKey.length ≤ 239)
    (hrecv : recvKey.length ≤ 239) (hfits : ¬ recvKey.length / 16 * 16 ≤ sendKey.length) :
    addMppeKeys md5Vector random msg reqAuth secret sendKey recvKey = .error .outside := by
  obtain ⟨m, -, hadd⟩ := addMppeKeys_send md5Vector secret reqAuth recvKey random h hsend
  obtain ⟨k, hblocks, rfl, -, -⟩ := padded_key hrecv
  rw [hadd, mppeKeyAttr_outside (by omega) (by omega)]
  rfl

theorem getMsKeys_of_attrs {p sent : RadiusMsg} {rest : List Record}
    (hholds : Holds p hdr
      (l ++ mppeAttrs md5Vector random secret reqAuth sendKey recvKey ++ rest))
    (hfresh : ∀ subtype ∈ [vendorAttrMsMppeSendKey, vendorAttrMsMppeRecvKey],
      getVendorAttrLoop vendorIdMicrosoft subtype l = .ok none)
    (hsend : sendKey ≠ []) (hsend' : sendKey.length ≤ 239) (hrecv : recvKey ≠ [])
    (hrecv' : recvKey.length ≤ 239) (hsent : authenticator sent = reqAuth) :
    getMsKeys md5Vector p sent secret = .ok { send := some sendKey, recv := some recvKey } := by
  have hsalt : (sendSalt random).length = 2 := length_putBe16 _
  have hsalt' : (recvSalt random).length = 2 := length_putBe16 _
  have hfind : getMsKey md5Vector p vendorAttrMsMppeSendKey reqAuth secret =
      .ok (some sendKey) := by
    rw [getMsKey, getVendorAttr, hholds.readAttrs_eq, hholds.attrs_eq, ok_bind, List.append_assoc,
      getVendorAttrLoop_append (hfresh _ (by simp)), mppeAttrs, List.cons_append,
      getVendorAttrLoop_mppeAttr hsalt hsend', if_pos rfl, ok_bind]
    exact decryptMsKey_hidden hsalt hsend hsend'
  have hfind' : getMsKey md5Vector p vendorAttrMsMppeRecvKey reqAuth secret =
      .ok (some recvKey) := by
    rw [getMsKey, getVendorAttr, hholds.readAttrs_eq, hholds.attrs_eq, ok_bind, List.append_assoc,
      getVendorAttrLoop_append (hfresh _ (by simp)), mppeAttrs, List.cons_append,
      getVendorAttrLoop_mppeAttr hsalt hsend', if_neg (by decide), List.cons_append,
      getVendorAttrLoop_mppeAttr hsalt' hrecv', if_pos rfl, ok_bind]
    exact decryptMsKey_hidden hsalt' hrecv hrecv'
  rw [getMsKeys, hsent, hfind, ok_bind, hfind']
  rfl

end Adding

end Md5

/-- **Exactly when the two keys come back.** Two non-empty keys of up to 239 octets, added to a
message that has no such key yet: they are written within the buffers that are allocated for them,
and the finished and parsed message gives them back for the same secret and request authenticator,
if and only if the Receive-Key, rounded down to whole blocks, is no longer than the Send-Key. The
buffer of the Receive-Key is allocated by the length of the Send-Key. -/
theorem ms_keys_round_trip_iff (hmacMd5 : Bytes → Bytes → Digest) (md5Vector : List Bytes → Digest)
    (code identifier : UInt8) (ops : List BuildOp) (random : UInt16) (secret : Bytes) (req : Digest)
    (sendKey recvKey : Bytes) (hsend : sendKey ≠ []) (hsend' : sendKey.length ≤ 239)
    (hrecv : recvKey ≠ []) (hrecv' : recvKey.length ≤ 239)
    (hfresh : ∀ subtype ∈ [vendorAttrMsMppeSendKey, vendorAttrMsMppeRecvKey],
      getVendorAttr (build code identifier ops) vendorIdMicrosoft subtype = .ok none) :
    (∃ m, addMppeKeys md5Vector random (build code identifier ops) req.toList secret sendKey
          recvKey = .ok (true, m) ∧
        ∀ ops' : List BuildOp,
          (finishSrv hmacMd5 md5Vector (ops'.foldl buildStep m) secret req).1 = true →
          ∃ p, parse (finishSrv hmacMd5 md5Vector (ops'.foldl buildStep m) secret req).2.buf =
              some p ∧
            ∀ sent, authenticator sent = req.toList →
              getMsKeys md5Vector p sent secret =
                .ok { send := some sendKey, recv := some recvKey }) ↔
      recvKey.length / 16 * 16 ≤ sendKey.length := by
  have hbuild := build_holds code identifier ops
  constructor
  · rintro ⟨m, hm, -⟩
    by_contra hfits
    rw [addMppeKeys_outside hbuild hsend' hrecv' hfits] at hm
    cases hm
  · intro hfits
    obtain ⟨m, hm, hholds⟩ := addMppeKeys_holds md5Vector secret req.toList random hbuild hsend'
      hrecv' hfits
    refine ⟨m, hm, fun ops' hfin => ?_⟩
    obtain ⟨resp, mac, hfinished, hiff⟩ := @finishSrv_spec hmacMd5 md5Vector _ _ _ _
      (foldl_buildStep_holds ops' hholds) secret req
    obtain ⟨p, hp, -, hattrs, hp'⟩ := hfinished.parse (hiff.mp hfin)
    refine ⟨p, hp, fun sent hsent => ?_⟩
    have hfresh' : ∀ subtype ∈ [vendorAttrMsMppeSendKey, vendorAttrMsMppeRecvKey],
        getVendorAttrLoop vendorIdMicrosoft subtype (ops.flatMap BuildOp.given) = .ok none := by
      intro subtype hsub
      have := hfresh subtype hsub
      rwa [getVendorAttr, hbuild.readAttrs_eq, hbuild.attrs_eq, ok_bind] at this
    have hshape := hp'.holds
    rw [List.append_assoc (_ ++ mppeAttrs ..)] at hshape
    exact getMsKeys_of_attrs hshape hfresh' hsend hsend' hrecv hrecv' hsent

theorem ms_keys_round_trip_short :
    ∃ m, addMppeKeys (fun _ => zeroDigest) 5 (build 2 7 []) zeroDigest.toList [6] [1] [2] =
        .ok (true, m) ∧
      ∀ ops' : List BuildOp, (finishSrv (fun _ _ => zeroDigest) (fun _ => zeroDigest)
          (ops'.foldl buildStep m) [6] zeroDigest).1 = true →
        ∃ p, parse (finishSrv (fun _ _ => zeroDigest) (fun _ => zeroDigest)
              (ops'.foldl buildStep m) [6] zeroDigest).2.buf = some p ∧
          ∀ sent, authenticator sent = zeroDigest.toList →
            getMsKeys (fun _ => zeroDigest) p sent [6] =
              .ok { send := some [1], recv := some [2] } :=
  (ms_keys_round_trip_iff (fun _ _ => zeroDigest) (fun _ => zeroDigest) 2 7 [] 5 [6] zeroDigest [1]
    [2] (by decide) (by decide) (by decide) (by decide) fun _ _ => rfl).mpr (by decide)

/-- With a Send-Key of one octet and a Receive-Key of one block, the writer leaves the buffer of the
Receive-Key. -/
theorem recv_key_written_outside :
    ¬ ∃ m, addMppeKeys (fun _ => zeroDigest) 5 (build 2 7 []) zeroDigest.toList [6] [1]
      (List.replicate 16 2) = .ok (true, m) := by
  rintro ⟨m, hm⟩
  rw [addMppeKeys_outside (build_holds 2 7 []) (by simp) (by simp) (by simp)] at hm
  cases hm

end Hostapd.Radius
