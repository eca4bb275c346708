import Hostapd.Common.EapolKey
import Hostapd.Lib.Checked

/-!
# The supplicant: receiving EAPOL-Key frames

What `rsn_supp/wpa.c` does with a frame before one of the handshakes takes it.

* **`rxChecks`**: the checks on lengths, type, descriptor version, replay counter, flags and MIC.
* **`decryptKeyData`**: the key data of an RSN frame, decrypted in place. The pointer to the key data
  may be used for as many octets as the frame's length field of the key data says.
* **`process1Of2Wpa`**: the group key of a WPA frame, decrypted into the group key data.
* **`rxEapol`**: the whole function, up to the handshake that takes the frame.

The frame is an `EapolKey` whose `body` is all that was received behind the fixed part. The AES and
RC4 functions are those of `Crypto`.
-/

namespace Hostapd.RsnSupp

open Hostapd.Lib

/-! ## The machine -/

/-- `WPA_KEY_INFO_TYPE_AES_128_CMAC`. -/
def aes128Cmac : KeyInfo := 3#16

/-- Octets of `struct wpa_eapol_key` and of `struct ieee802_1x_hdr`. -/
def eapolKeyLen : ℕ := 95

@[inherit_doc eapolKeyLen]
def ieee8021xHdrLen : ℕ := 4

structure RxCrypto extends Crypto where
  /-- `omac1_aes_128`. -/
  omac1Aes128 : BitVec 128 → Bytes → BitVec 128
  /-- `wpa_pmk_to_ptk` with the label `"Peer key expansion"`. -/
  peerKeyExpansion : Bytes → MacAddr → MacAddr → Nonce → Nonce → Bool → Ptk

/-- The build options that matter here: `CONFIG_IEEE80211R`, `CONFIG_IEEE80211W` and
`CONFIG_PEERKEY`. -/
structure RxBuild where
  ieee80211r : Bool
  ieee80211w : Bool
  peerkey : Bool

/-- A peer of the PeerKey handshakes. Source: `peerkey.h`, `struct wpa_peerkey`. -/
structure WpaPeerkey where
  initiator : Bool
  addr : MacAddr
  inonce : Nonce
  smk : Bytes
  replayCounter : ReplayCounter
  replayCounterSet : Bool
  useSha256 : Bool
  stk : Ptk
  tstk : Ptk
  stkSet : Bool
  tstkSet : Bool
  deriving DecidableEq

/-- What the reception of frames uses of the machine. `proto` is `.wpa2` for `WPA_PROTO_RSN`.
Source: `wpa_i.h`, `struct wpa_sm`. -/
structure RxSm where
  ownAddr : MacAddr
  ptk : Ptk
  tptk : Ptk
  ptkSet : Bool
  tptkSet : Bool
  rxReplayCounter : ReplayCounter
  rxReplayCounterSet : Bool
  proto : WpaVersion
  pairwiseCipher : WpaCipher
  groupCipher : WpaCipher
  keyMgmt : WpaKeyMgmt
  peerkey : List WpaPeerkey
  deriving DecidableEq

/-- Source: `defs.h`, `wpa_key_mgmt_ft`. -/
def keyMgmtFt : WpaKeyMgmt → Bool
  | .ftIeee8021x | .ftPsk => true
  | _ => false

variable (C : RxCrypto) (B : RxBuild)

/-! ## The MIC -/

/-- The MIC of the octets that the frame's length field counts, with a zero in its place.
Source: `wpa_common.c`, `wpa_eapol_key_mic`. A version without a MIC leaves the zero. -/
def rxMic (kck : BitVec 128) (f : EapolKey) : BitVec 128 :=
  let buf := { f with keyMic := 0#128, body := f.body.take (f.length.toNat - eapolKeyLen) }.toBytes
  if (B.ieee80211r ∨ B.ieee80211w) ∧ f.keyInfo.version = aes128Cmac then C.omac1Aes128 kck buf
  else (wpaEapolKeyMic C.toCrypto kck f.keyInfo.version buf).getD 0#128

/-- Verify the MIC under the PTK being negotiated, else under the PTK; `none` is the failure.
Source: `wpa_supplicant_verify_eapol_key_mic`. -/
def verifyEapolKeyMic (sm : RxSm) (f : EapolKey) : Option RxSm :=
  if sm.tptkSet ∧ f.keyMic = rxMic C B sm.tptk.kck f then
    some { sm with
      tptkSet := false
      ptkSet := true
      ptk := sm.tptk
      rxReplayCounter := f.replayCounter
      rxReplayCounterSet := true }
  else if sm.ptkSet ∧ f.keyMic = rxMic C B sm.ptk.kck f then
    some { sm with rxReplayCounter := f.replayCounter, rxReplayCounterSet := true }
  else none

/-- Verify the MIC of a frame of a peer; the initiator derives the STK first.
Source: `peerkey.c`, `peerkey_verify_eapol_key_mic`. -/
def peerkeyVerifyEapolKeyMic (sm : RxSm) (peerkey : WpaPeerkey) (f : EapolKey) :
    Bool × WpaPeerkey :=
  let peerkey :=
    if peerkey.initiator ∧ ¬ peerkey.stkSet then
      { peerkey with
        stk := C.peerKeyExpansion peerkey.smk sm.ownAddr peerkey.addr peerkey.inonce f.keyNonce
          peerkey.useSha256
        stkSet := true }
    else peerkey
  if peerkey.tstkSet ∧ f.keyMic = rxMic C B peerkey.tstk.kck f then
    (true, { peerkey with
      tstkSet := false
      stkSet := true
      stk := peerkey.tstk
      replayCounter := f.replayCounter
      replayCounterSet := true })
  else if peerkey.stkSet ∧ f.keyMic = rxMic C B peerkey.stk.kck f then
    (true, { peerkey with replayCounter := f.replayCounter, replayCounterSet := true })
  else (false, peerkey)

/-! ## The checks -/

/-- The descriptor versions that are known. Source: `wpa_sm_rx_eapol`. -/
def knownVersion (ver : KeyInfo) : Bool :=
  ver = KeyInfo.hmacMd5Rc4 ∨ ((B.ieee80211r ∨ B.ieee80211w) ∧ ver = aes128Cmac) ∨
    ver = KeyInfo.hmacSha1Aes

/-- The descriptor version goes with the key management and the ciphers. Source: `wpa_sm_rx_eapol`.
-/
def versionAllowed (sm : RxSm) (keyInfo : KeyInfo) : Bool :=
  if B.ieee80211r ∧ keyMgmtFt sm.keyMgmt then keyInfo.version = aes128Cmac
  else if B.ieee80211w ∧ sm.keyMgmt.sha256 then keyInfo.version = aes128Cmac
  else if sm.pairwiseCipher = .ccmp ∧ keyInfo.version ≠ KeyInfo.hmacSha1Aes then
    sm.groupCipher ≠ .ccmp ∧ ¬ keyInfo.isKeyType
  else true

/-- The replay counter of a frame from a peer. Source: `wpa_sm_rx_eapol`. -/
def peerReplayOk (peerkey : WpaPeerkey) (f : EapolKey) : Bool :=
  if ¬ peerkey.initiator ∧ peerkey.replayCounterSet ∧ f.replayCounter ≤ peerkey.replayCounter then
    false
  else if peerkey.initiator then f.replayCounter + 1#64 = peerkey.replayCounter
  else true

/-- The replay counter and the flags of a frame, from a peer or from the authenticator.
Source: `wpa_sm_rx_eapol`. -/
def flagsOk (sm : RxSm) (peer : Option WpaPeerkey) (f : EapolKey) : Bool :=
  match peer with
  | some peerkey =>
    (f.keyInfo.isSmkMessage ∨ peerReplayOk peerkey f) ∧
      ¬ (peerkey.initiator ∧ f.keyInfo.isAck) ∧
      (f.keyInfo.isAck ∨ f.keyInfo.isSmkMessage ∨ peerkey.initiator) ∧ ¬ f.keyInfo.isRequest
  | none =>
    ¬ (sm.rxReplayCounterSet ∧ f.replayCounter ≤ sm.rxReplayCounter) ∧
      (f.keyInfo.isAck ∨ f.keyInfo.isSmkMessage) ∧ ¬ f.keyInfo.isRequest

/-- Where the checks end: the function returns, or the frame is taken, with the peer it is from. -/
inductive Checked
  | out (ret : ℤ)
  | passed (f : EapolKey) (peer : Option MacAddr)
  deriving DecidableEq

/-- The length of the key data. Source: `wpa_sm_rx_eapol`, `key_data overflow`. -/
def rxCheckLength (sm : RxSm) (peer : Option WpaPeerkey) (f : EapolKey) : RxSm × Checked :=
  if f.keyDataLength.toNat > f.length.toNat - eapolKeyLen then (sm, .out (-1))
  else (sm, .passed f (peer.map WpaPeerkey.addr))

/-- The MIC of a frame that has one, then the length of its key data. Source: `wpa_sm_rx_eapol`. -/
def rxCheckMic (sm : RxSm) (peer : Option WpaPeerkey) (f : EapolKey) : RxSm × Checked :=
  if ¬ f.keyInfo.isMic then rxCheckLength sm peer f
  else
    match peer with
    | none =>
      match verifyEapolKeyMic C B sm f with
      | none => (sm, .out (-1))
      | some sm => rxCheckLength sm none f
    | some peerkey =>
      let res := peerkeyVerifyEapolKeyMic C B sm peerkey f
      let sm := { sm with
        peerkey := sm.peerkey.modify (sm.peerkey.findIdx fun p => p.addr = peerkey.addr)
          fun _ => res.2 }
      if res.1 then rxCheckLength sm (some peerkey) f else (sm, .out (-1))

/-- The peer a frame is from. Source: `wpa_sm_rx_eapol`, the loop over `sm->peerkey`. -/
def rxPeer (sm : RxSm) (srcAddr : MacAddr) : Option WpaPeerkey :=
  if B.peerkey then sm.peerkey.find? fun p => p.addr = srcAddr else none

/-- The checks of a received frame. Source: `wpa_sm_rx_eapol`, up to the decryption. -/
def rxChecks (sm : RxSm) (srcAddr : MacAddr) (buf : Bytes) : RxSm × Checked :=
  match EapolKey.ofBytes buf with
  | none => (sm, .out 0)
  | some f =>
    let plen := f.length.toNat
    if f.ptype ≠ ieee8021xTypeEapolKey then (sm, .out 0)
    else if plen > buf.length - ieee8021xHdrLen ∨ plen < eapolKeyLen then (sm, .out 0)
    else if f.type ≠ eapolKeyTypeWpa ∧ f.type ≠ eapolKeyTypeRsn then (sm, .out 0)
    else if ¬ knownVersion B f.keyInfo.version then (sm, .out (-1))
    else if ¬ versionAllowed B sm f.keyInfo then (sm, .out (-1))
    else if ¬ flagsOk sm (rxPeer B sm srcAddr) f then (sm, .out (-1))
    else rxCheckMic C B sm (rxPeer B sm srcAddr) f

/-! ## Decryption -/

/-- Unwrap `8 * (n + 1)` octets behind a pointer that may be used for `stop` octets, into a buffer of
`room` octets. Source: `crypto/aes-unwrap.c`, `aes_unwrap`, of which the computation is the
parameter. -/
def aesUnwrapInto (kek : BitVec 128) (n : ℕ) (stop : ℕ) (cipher : Bytes) (room : ℕ) :
    Except Stop (Option Bytes) := do
  let a ← rdUpTo stop cipher 0 8
  let r ← rdUpTo stop cipher 8 (8 + 8 * n)
  let _ ← putOctets room [] r
  return C.aesUnwrap kek (a ++ r)

/-- The length of the unwrapped key data, in 16 bits; `none` for data that is not whole blocks.
Source: `wpa_supplicant_decrypt_key_data`. -/
def unwrappedLen (keydatalen : BitVec 16) : Option (BitVec 16) :=
  if keydatalen.toNat % 8 ≠ 0 then none else some (keydatalen - 8#16)

/-- Decrypt the key data of an RSN frame in place; `none` is the failure.
Source: `wpa_supplicant_decrypt_key_data`. -/
def decryptKeyData (sm : RxSm) (f : EapolKey) : Except Stop (Option EapolKey) :=
  let ver := f.keyInfo.version
  let stop := f.keyDataLength.toNat
  if ¬ sm.ptkSet then .ok none
  else if ver = KeyInfo.hmacMd5Rc4 then do
    let data ← rdUpTo stop f.body 0 stop
    let body ← wrUpTo stop f.body 0 (C.rc4Skip (f.keyIv ++ sm.ptk.kek) data)
    return some { f with body }
  else if ver = KeyInfo.hmacSha1Aes ∨ ver = aes128Cmac then
    match unwrappedLen f.keyDataLength with
    | none => .ok none
    | some keydatalen => do
      match ← aesUnwrapInto C sm.ptk.kek (keydatalen.toNat / 8) stop f.body keydatalen.toNat with
      | none => return none
      | some buf =>
        let plain ← rdSlice buf 0 keydatalen.toNat
        let body ← wrUpTo stop f.body 0 plain
        return some { f with body, keyDataLength := keydatalen }
  else .ok none

/-! ## The group key of WPA -/

/-- Source: `defs.h`, `enum wpa_alg`, the algorithms of a group key. -/
inductive WpaAlg
  | wep | tkip | ccmp
  deriving DecidableEq

/-- Source: `wpa.c`, `struct wpa_gtk_data`. -/
structure WpaGtkData where
  alg : WpaAlg
  tx : Bool
  keyRscLen : ℕ
  keyidx : ℕ
  gtk : Bytes
  gtkLen : ℕ
  deriving DecidableEq

/-- Octets of the buffer for a group key. Source: `wpa.c`, `struct wpa_gtk_data`, `gtk`. -/
def gtkBufLen : ℕ := 32

/-- The length of the packet number and the algorithm of a group cipher, if the lengths suit it.
Source: `wpa_supplicant_check_group_cipher`. -/
def checkGroupCipher (groupCipher : WpaCipher) (keylen maxkeylen : ℕ) : Option (ℕ × WpaAlg) :=
  let suits (n : ℕ) (res : ℕ × WpaAlg) := if keylen ≠ n ∨ maxkeylen < n then none else some res
  match groupCipher with
  | .ccmp => suits 16 (6, .ccmp)
  | .tkip => suits 32 (6, .tkip)
  | .wep104 => suits 13 (0, .wep)
  | .wep40 => suits 5 (0, .wep)
  | .none => none

/-- Source: `wpa_supplicant_gtk_tx_bit_workaround`. -/
def gtkTxBitWorkaround (sm : RxSm) (tx : Bool) : Bool :=
  if tx ∧ sm.pairwiseCipher ≠ .none then false else tx

/-- The group key in message 1/2 of WPA; `none` is the failure.
Source: `wpa_supplicant_process_1_of_2_wpa`. -/
def process1Of2Wpa (sm : RxSm) (f : EapolKey) (keydatalen extraLen : ℕ) :
    Except Stop (Option WpaGtkData) :=
  let ver := f.keyInfo.version
  let gtkLen := f.keyLength.toNat
  if keydatalen > extraLen then .ok none
  else if ver = KeyInfo.hmacSha1Aes ∧ keydatalen < 8 then .ok none
  else
    let maxkeylen := if ver = KeyInfo.hmacSha1Aes then keydatalen - 8 else keydatalen
    match checkGroupCipher sm.groupCipher gtkLen maxkeylen with
    | none => .ok none
    | some (keyRscLen, alg) =>
      let gd (gtk : Bytes) : WpaGtkData :=
        { alg
          tx := gtkTxBitWorkaround sm f.keyInfo.isInstall
          keyRscLen
          keyidx := ((f.keyInfo >>> 4) &&& 3#16).toNat
          gtk
          gtkLen }
      let zeroes := List.replicate gtkBufLen 0
      if ver = KeyInfo.hmacMd5Rc4 then
        if keydatalen > gtkBufLen then .ok none
        else do
          let data ← rdUpTo keydatalen f.body 0 keydatalen
          let gtk ← wrSlice zeroes 0 (C.rc4Skip (f.keyIv ++ sm.ptk.kek) data)
          return some (gd gtk)
      else if ver = KeyInfo.hmacSha1Aes then
        if keydatalen % 8 ≠ 0 then .ok none
        else if maxkeylen > gtkBufLen then .ok none
        else do
          match ← aesUnwrapInto C sm.ptk.kek (maxkeylen / 8) keydatalen f.body gtkBufLen with
          | none => return none
          | some plain =>
            let gtk ← wrSlice zeroes 0 plain
            return some (gd gtk)
      else .ok none

/-! ## Reception -/

/-- What takes a frame. The group key of WPA is what `process1Of2Wpa` gives; without it the station
is deauthenticated. -/
inductive Handshake
  | peerkey4Way (peer : MacAddr)
  | msg3Of4
  | msg1Of4
  | smk
  | group1Of2Rsn
  | group1Of2Wpa (gd : Option WpaGtkData)
  | dropped
  deriving DecidableEq

/-- Message 1/2 of the group key handshake. Source: `wpa_supplicant_process_1_of_2`. -/
def process1Of2 (sm : RxSm) (f : EapolKey) (extraLen : ℕ) : Except Stop Handshake :=
  if sm.proto = .wpa2 then .ok .group1Of2Rsn
  else do
    let gd ← process1Of2Wpa C sm f f.keyDataLength.toNat extraLen
    return .group1Of2Wpa gd

/-- The handshake for a frame; `none` for one that is refused. Source: `wpa_sm_rx_eapol`, after the
decryption. -/
def dispatch (sm : RxSm) (peer : Option MacAddr) (f : EapolKey) : Except Stop (Option Handshake) :=
  if f.keyInfo.isKeyType then
    if f.keyInfo &&& 0x30#16 ≠ 0#16 then .ok none
    else match peer with
      | some addr => .ok (some (.peerkey4Way addr))
      | none => .ok (some (if f.keyInfo.isMic then .msg3Of4 else .msg1Of4))
  else if f.keyInfo.isSmkMessage then .ok (some .smk)
  else if f.keyInfo.isMic then do
    let taken ← process1Of2 C sm f f.keyDataLength.toNat
    return some taken
  else .ok (some .dropped)

/-- What became of a frame: the value returned, and the handshake with the frame it takes. -/
abbrev RxOut := ℤ × Option (Handshake × EapolKey)

/-- Take a frame that has passed the checks. Source: `wpa_sm_rx_eapol`, from the decryption on. -/
def rxTake (sm : RxSm) (peer : Option MacAddr) (f : EapolKey) : Except Stop RxOut := do
  let f? ← (if sm.proto = .wpa2 ∧ f.keyInfo.isEncrKeyData then decryptKeyData C sm f
    else .ok (some f))
  match f? with
  | none => return (-1, none)
  | some f =>
    match ← dispatch C sm peer f with
    | none => return (-1, none)
    | some taken => return (1, some (taken, f))

/-- Receive a frame. Source: `wpa_sm_rx_eapol`. -/
def rxEapol (sm : RxSm) (srcAddr : MacAddr) (buf : Bytes) : Except Stop (RxSm × RxOut) :=
  match rxChecks C B sm srcAddr buf with
  | (sm, .out ret) => .ok (sm, ret, none)
  | (sm, .passed f peer) => do
    let out ← rxTake C sm peer f
    return (sm, out)

end Hostapd.RsnSupp
