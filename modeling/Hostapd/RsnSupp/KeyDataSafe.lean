import Hostapd.RsnSupp.RxEapol

/-!
# The supplicant: the arithmetic of the key data

* **`rxChecks_passed`**: a frame that passes the checks holds as many octets of key data as it says.
* **`decryptKeyData_inside`** and **`process1Of2Wpa_inside`**: the two decryptions stay inside that
  many octets, except the first one for an AES version and no key data at all, where the length of
  the unwrapped data wraps around (`decryptKeyData_outside`).
* **`keyDataSafe_iff`**: so a received frame is handled safely exactly when it is not such a frame.
-/

namespace Hostapd.RsnSupp

open Hostapd.Lib

variable {C : RxCrypto} {B : RxBuild} {sm sm' : RxSm} {srcAddr : MacAddr} {buf : Bytes}
  {f f' : EapolKey} {peer : Option MacAddr}

/-! ## The checks -/

theorem rxCheckLength_passed {pk : Option WpaPeerkey}
    (h : rxCheckLength sm pk f = (sm', .passed f' peer)) :
    f' = f ∧ f.keyDataLength.toNat ≤ f.length.toNat - eapolKeyLen := by
  unfold rxCheckLength at h
  split at h
  · cases h
  · rename_i hfits
    cases h
    exact ⟨rfl, not_lt.mp hfits⟩

theorem rxCheckMic_passed {pk : Option WpaPeerkey}
    (h : rxCheckMic C B sm pk f = (sm', .passed f' peer)) :
    f' = f ∧ f.keyDataLength.toNat ≤ f.length.toNat - eapolKeyLen := by
  unfold rxCheckMic at h
  split at h
  · exact rxCheckLength_passed h
  · split at h
    · split at h
      · cases h
      · exact rxCheckLength_passed h
    · dsimp only at h
      split at h
      · exact rxCheckLength_passed h
      · cases h

/-- **A frame that passes the checks** is the one received, and holds its key data. -/
theorem rxChecks_passed (h : rxChecks C B sm srcAddr buf = (sm', .passed f peer)) :
    EapolKey.ofBytes buf = some f ∧ f.keyDataLength.toNat ≤ f.body.length := by
  unfold rxChecks at h
  split at h
  · cases h
  · rename_i f₀ hof
    dsimp only at h
    split at h
    · cases h
    split at h
    · cases h
    rename_i hlen
    split at h
    · cases h
    split at h
    · cases h
    split at h
    · cases h
    split at h
    · cases h
    obtain ⟨rfl, hkdl⟩ := rxCheckMic_passed h
    have hbuf := congrArg List.length (EapolKey.toBytes_of_ofBytes hof)
    rw [EapolKey.length_toBytes] at hbuf
    simp only [ieee8021xHdrLen, eapolKeyLen, eapolKeyHdrLen] at hlen hkdl hbuf
    exact ⟨hof, by omega⟩

/-! ## Decryption -/

/-- The lengths of what the ciphers give: RC4 keeps the length, the key unwrap takes 8 octets off.
Source: `crypto/rc4.c`, `rc4_skip`; `crypto/aes-unwrap.c`, `aes_unwrap`. -/
structure CryptoLengths (C : Crypto) : Prop where
  rc4 : ∀ key data, (C.rc4Skip key data).length = data.length
  unwrap : ∀ kek cipher plain, C.aesUnwrap kek cipher = some plain →
    plain.length + 8 = cipher.length

theorem aesUnwrapInto_inside {kek : BitVec 128} {n stop room : ℕ} {cipher : Bytes}
    (hstop : 8 + 8 * n ≤ stop) (hlen : stop ≤ cipher.length) (hroom : 8 * n ≤ room) :
    aesUnwrapInto C kek n stop cipher room = .ok (C.aesUnwrap kek (cipher.take (8 + 8 * n))) := by
  have hjoin : (cipher.take 8).drop 0 ++ (cipher.take (8 + 8 * n)).drop 8 =
      cipher.take (8 + 8 * n) := by
    have hfront : (cipher.take (8 + 8 * n)).take 8 = cipher.take 8 := by
      rw [List.take_take, Nat.min_eq_left (Nat.le_add_right 8 _)]
    rw [List.drop_zero, ← hfront, List.take_append_drop]
  have hput : ((cipher.take (8 + 8 * n)).drop 8).length = 8 * n := by
    rw [List.length_drop, List.length_take, Nat.min_eq_left (by omega)]
    omega
  rw [aesUnwrapInto, rdUpTo_of (by omega) (by omega) (by omega), ok_bind,
    rdUpTo_of (by omega) (by omega) hstop, ok_bind,
    putOctets_of (by rw [hput, List.length_nil]; omega), ok_bind, hjoin]
  rfl

theorem aesUnwrapInto_outside {kek : BitVec 128} {n stop room : ℕ} {cipher : Bytes}
    (hstop : stop < 8) : aesUnwrapInto C kek n stop cipher room = .error .outside := by
  rw [aesUnwrapInto, rdUpTo, if_neg (by omega)]
  rfl

/-- The frame whose key data is unwrapped: an RSN frame with encrypted key data and an AES version,
when there is a PTK. -/
def NeedsUnwrap (sm : RxSm) (f : EapolKey) : Prop :=
  sm.proto = .wpa2 ∧ f.keyInfo.isEncrKeyData = true ∧ sm.ptkSet = true ∧
    (f.keyInfo.version = KeyInfo.hmacSha1Aes ∨ f.keyInfo.version = aes128Cmac)

theorem unwrappedLen_toNat {keydatalen n : BitVec 16} (h : unwrappedLen keydatalen = some n)
    (hpos : keydatalen.toNat ≠ 0) : n.toNat + 8 = keydatalen.toNat ∧ keydatalen.toNat % 8 = 0 := by
  unfold unwrappedLen at h
  split at h
  · cases h
  · rename_i hblocks
    cases h
    rw [not_not] at hblocks
    have hlt := keydatalen.isLt
    rw [BitVec.toNat_sub_of_le (by rw [BitVec.le_def]; simp; omega)]
    simp only [BitVec.toNat_ofNat]
    omega

theorem rc4_ne_aes {ver : KeyInfo} (h : ver = KeyInfo.hmacSha1Aes ∨ ver = aes128Cmac) :
    ver ≠ KeyInfo.hmacMd5Rc4 := by
  rcases h with rfl | rfl <;> decide

/-- **Decryption inside the key data**, when it is not the unwrapping of nothing. The frame that
comes out holds its key data too. -/
theorem decryptKeyData_inside (hC : CryptoLengths C.toCrypto)
    (hkdl : f.keyDataLength.toNat ≤ f.body.length) (hproto : sm.proto = .wpa2)
    (hencr : f.keyInfo.isEncrKeyData = true)
    (hne : NeedsUnwrap sm f → f.keyDataLength.toNat ≠ 0) :
    ∃ res, decryptKeyData C sm f = .ok res ∧
      ∀ g, res = some g → g.keyDataLength.toNat ≤ g.body.length := by
  unfold decryptKeyData
  dsimp only
  split
  · exact ⟨none, rfl, fun g hg => nomatch hg⟩
  rename_i hptk
  rw [Bool.not_eq_true, Bool.not_eq_false] at hptk
  split
  · have hdata : ((f.body.take f.keyDataLength.toNat).drop 0).length = f.keyDataLength.toNat := by
      rw [List.drop_zero, List.length_take, Nat.min_eq_left hkdl]
    have hfits : 0 + (C.rc4Skip (f.keyIv ++ sm.ptk.kek)
        ((f.body.take f.keyDataLength.toNat).drop 0)).length ≤ f.keyDataLength.toNat := by
      rw [hC.rc4, hdata, Nat.zero_add]
    rw [rdUpTo_of (Nat.zero_le _) hkdl le_rfl, ok_bind, wrUpTo_of (hfits.trans hkdl) hfits, ok_bind]
    refine ⟨_, rfl, fun g hg => ?_⟩
    cases hg
    rwa [length_overwrite (hfits.trans hkdl)]
  split
  · rename_i haes
    have hpos := hne ⟨hproto, hencr, hptk, haes⟩
    split
    · exact ⟨none, rfl, fun g hg => nomatch hg⟩
    · rename_i n hn
      obtain ⟨hlen, hblocks⟩ := unwrappedLen_toNat hn hpos
      rw [aesUnwrapInto_inside (by omega) hkdl (by omega), ok_bind]
      split
      · exact ⟨none, rfl, fun g hg => nomatch hg⟩
      · rename_i plain hplain
        have hplainLen := hC.unwrap _ _ _ hplain
        rw [List.length_take, Nat.min_eq_left (by omega)] at hplainLen
        have hall : rdSlice plain 0 n.toNat = .ok plain := by
          rw [show n.toNat = plain.length by omega]
          exact rdSlice_all plain
        have hfits : 0 + plain.length ≤ f.keyDataLength.toNat := by omega
        rw [hall, ok_bind, wrUpTo_of (hfits.trans hkdl) hfits, ok_bind]
        refine ⟨_, rfl, fun g hg => ?_⟩
        cases hg
        rw [length_overwrite (hfits.trans hkdl)]
        show n.toNat ≤ f.body.length
        omega
  · exact ⟨none, rfl, fun g hg => nomatch hg⟩

/-- **Unwrapping nothing**: the length wraps around, and the unwrapping reads past the key data. -/
theorem decryptKeyData_outside (hneeds : NeedsUnwrap sm f) (hzero : f.keyDataLength.toNat = 0) :
    decryptKeyData C sm f = .error .outside := by
  obtain ⟨-, -, hptk, haes⟩ := hneeds
  unfold decryptKeyData
  dsimp only
  rw [if_neg (by simp [hptk]), if_neg (rc4_ne_aes haes), if_pos haes, unwrappedLen,
    if_neg (by simp [hzero])]
  dsimp only
  rw [aesUnwrapInto_outside (by omega)]
  rfl

theorem decryptKeyData_misaligned (hneeds : NeedsUnwrap sm f)
    (hblocks : f.keyDataLength.toNat % 8 ≠ 0) : decryptKeyData C sm f = .ok none := by
  obtain ⟨-, -, hptk, haes⟩ := hneeds
  unfold decryptKeyData
  dsimp only
  rw [if_neg (by simp [hptk]), if_neg (rc4_ne_aes haes), if_pos haes, unwrappedLen, if_pos hblocks]

/-! ## The group key of WPA -/

/-- **The group key is decrypted inside the key data**, whatever its length. -/
theorem process1Of2Wpa_inside (hC : CryptoLengths C.toCrypto) {keydatalen extraLen : ℕ}
    (hextra : extraLen ≤ f.body.length) :
    ∃ res, process1Of2Wpa C sm f keydatalen extraLen = .ok res := by
  unfold process1Of2Wpa
  dsimp only
  split
  · exact ⟨none, rfl⟩
  rename_i hfits
  split
  · exact ⟨none, rfl⟩
  rename_i hshort
  split
  · exact ⟨none, rfl⟩
  split
  · rename_i hrc4
    split
    · exact ⟨none, rfl⟩
    rename_i hroom
    have hdata : ((f.body.take keydatalen).drop 0).length = keydatalen := by
      rw [List.drop_zero, List.length_take, Nat.min_eq_left (by omega)]
    rw [rdUpTo_of (Nat.zero_le _) (by omega) le_rfl, ok_bind,
      wrSlice_of (by rw [hC.rc4, hdata, List.length_replicate]; omega)]
    exact ⟨_, rfl⟩
  split
  · rename_i haes
    split
    · exact ⟨none, rfl⟩
    rename_i hblocks
    split
    · exact ⟨none, rfl⟩
    rename_i hroom
    have hlong : 8 ≤ keydatalen := by
      by_contra hlt
      exact hshort ⟨haes, not_le.mp hlt⟩
    rw [aesUnwrapInto_inside (by omega) (by omega) (by omega), ok_bind]
    split
    · exact ⟨none, rfl⟩
    · rename_i plain hplain
      have hplainLen := hC.unwrap _ _ _ hplain
      rw [List.length_take, Nat.min_eq_left (by omega)] at hplainLen
      rw [wrSlice_of (by rw [List.length_replicate]; omega)]
      exact ⟨_, rfl⟩
  · exact ⟨none, rfl⟩

theorem process1Of2Wpa_refused {keydatalen extraLen : ℕ}
    (haes : f.keyInfo.version = KeyInfo.hmacSha1Aes)
    (hbad : keydatalen < 8 ∨ keydatalen % 8 ≠ 0) :
    process1Of2Wpa C sm f keydatalen extraLen = .ok none := by
  unfold process1Of2Wpa
  dsimp only
  split
  · rfl
  split
  · rfl
  rename_i hshort
  have hblocks : keydatalen % 8 ≠ 0 := hbad.resolve_left fun hlt => hshort ⟨haes, hlt⟩
  split
  · rfl
  rw [if_neg (by rw [haes]; decide), if_pos hblocks]

/-! ## Reception -/

/-- A frame whose key data is what the two decryptions could be handed wrongly: an RSN frame that
needs unwrapping, without any key data. -/
def UnwrapsNothing (C : RxCrypto) (B : RxBuild) (sm : RxSm) (srcAddr : MacAddr) (buf : Bytes) :
    Prop :=
  ∃ sm' f peer, rxChecks C B sm srcAddr buf = (sm', .passed f peer) ∧ NeedsUnwrap sm' f ∧
    f.keyDataLength.toNat = 0

/-- A received frame is handled safely: nothing is read or written outside its key data and the
buffers, the length of the unwrapped key data does not wrap around, and wrapped key data that is
short or not whole blocks is refused, in an RSN frame as in message 1/2 of WPA. -/
structure KeyDataSafe (C : RxCrypto) (B : RxBuild) (sm : RxSm) (srcAddr : MacAddr) (buf : Bytes) :
    Prop where
  inside : ∃ res, rxEapol C B sm srcAddr buf = .ok res
  noWrap : ∀ sm' f peer, rxChecks C B sm srcAddr buf = (sm', .passed f peer) → NeedsUnwrap sm' f →
    ∀ n, unwrappedLen f.keyDataLength = some n → n.toNat + 8 = f.keyDataLength.toNat
  refused : ∀ sm' f peer, rxChecks C B sm srcAddr buf = (sm', .passed f peer) → NeedsUnwrap sm' f →
    f.keyDataLength.toNat < 8 ∨ f.keyDataLength.toNat % 8 ≠ 0 →
      rxEapol C B sm srcAddr buf = .ok (sm', -1, none)
  refusedWpa : ∀ sm' f peer, rxChecks C B sm srcAddr buf = (sm', .passed f peer) →
    f.keyInfo.version = KeyInfo.hmacSha1Aes →
      f.keyDataLength.toNat < 8 ∨ f.keyDataLength.toNat % 8 ≠ 0 →
        process1Of2Wpa C sm' f f.keyDataLength.toNat f.keyDataLength.toNat = .ok none

theorem dispatch_inside (hC : CryptoLengths C.toCrypto)
    (hkdl : f.keyDataLength.toNat ≤ f.body.length) : ∃ res, dispatch C sm peer f = .ok res := by
  unfold dispatch
  split
  · split
    · exact ⟨_, rfl⟩
    · split <;> exact ⟨_, rfl⟩
  split
  · exact ⟨_, rfl⟩
  split
  · unfold process1Of2
    split
    · exact ⟨_, rfl⟩
    · obtain ⟨gd, hgd⟩ : ∃ gd, process1Of2Wpa C sm f f.keyDataLength.toNat f.keyDataLength.toNat =
          .ok gd := process1Of2Wpa_inside hC hkdl
      rw [hgd]
      exact ⟨_, rfl⟩
  · exact ⟨_, rfl⟩

theorem rxTake_inside (hC : CryptoLengths C.toCrypto)
    (hkdl : f.keyDataLength.toNat ≤ f.body.length)
    (hne : NeedsUnwrap sm f → f.keyDataLength.toNat ≠ 0) : ∃ res, rxTake C sm peer f = .ok res := by
  have hdecrypted : ∃ res, (if sm.proto = .wpa2 ∧ f.keyInfo.isEncrKeyData then decryptKeyData C sm f
      else .ok (some f)) = .ok res ∧ ∀ g, res = some g → g.keyDataLength.toNat ≤ g.body.length := by
    split
    · rename_i hencr
      exact decryptKeyData_inside hC hkdl hencr.1 hencr.2 hne
    · refine ⟨some f, rfl, fun g hg => ?_⟩
      cases hg
      exact hkdl
  obtain ⟨res, hres, hholds⟩ := hdecrypted
  rw [rxTake, hres, ok_bind]
  cases res with
  | none => exact ⟨_, rfl⟩
  | some g =>
    obtain ⟨taken, htaken⟩ : ∃ taken, dispatch C sm peer g = .ok taken :=
      dispatch_inside hC (hholds g rfl)
    dsimp only
    rw [htaken, ok_bind]
    cases taken with
    | none => exact ⟨_, rfl⟩
    | some taken => exact ⟨_, rfl⟩

theorem rxEapol_outside (h : UnwrapsNothing C B sm srcAddr buf) :
    rxEapol C B sm srcAddr buf = .error .outside := by
  obtain ⟨sm', f, peer, hchecks, hneeds, hzero⟩ := h
  rw [rxEapol, hchecks]
  dsimp only
  rw [rxTake, if_pos ⟨hneeds.1, hneeds.2.1⟩, decryptKeyData_outside hneeds hzero]
  rfl

/-- **Exactly when received key data is handled safely**: every frame is, unless it has passed the
checks, needs unwrapping and has no key data. -/
theorem keyDataSafe_iff (C : RxCrypto) (hC : CryptoLengths C.toCrypto) (B : RxBuild) (sm : RxSm)
    (srcAddr : MacAddr) (buf : Bytes) :
    KeyDataSafe C B sm srcAddr buf ↔ ¬ UnwrapsNothing C B sm srcAddr buf := by
  constructor
  · intro hsafe hnothing
    obtain ⟨res, hres⟩ := hsafe.inside
    rw [rxEapol_outside hnothing] at hres
    cases hres
  · intro hnot
    have hpos : ∀ sm' f peer, rxChecks C B sm srcAddr buf = (sm', .passed f peer) →
        NeedsUnwrap sm' f → f.keyDataLength.toNat ≠ 0 := by
      intro sm' f peer hchecks hneeds hzero
      exact hnot ⟨sm', f, peer, hchecks, hneeds, hzero⟩
    refine ⟨?_, ?_, ?_, ?_⟩
    · rw [rxEapol]
      split
      · exact ⟨_, rfl⟩
      · rename_i sm' f peer hchecks
        obtain ⟨out, hout⟩ : ∃ out, rxTake C sm' peer f = .ok out :=
          rxTake_inside hC (rxChecks_passed hchecks).2 (hpos sm' f peer hchecks)
        rw [hout]
        exact ⟨_, rfl⟩
    · intro sm' f peer hchecks hneeds n hn
      exact (unwrappedLen_toNat hn (hpos sm' f peer hchecks hneeds)).1
    · intro sm' f peer hchecks hneeds hbad
      have hblocks : f.keyDataLength.toNat % 8 ≠ 0 := by
        have := hpos sm' f peer hchecks hneeds
        omega
      rw [rxEapol, hchecks]
      dsimp only
      rw [rxTake, if_pos ⟨hneeds.1, hneeds.2.1⟩, decryptKeyData_misaligned hneeds hblocks]
      rfl
    · intro sm' f peer _ haes hbad
      exact process1Of2Wpa_refused haes hbad

def sampleRxSm : RxSm where
  ownAddr := 2#48
  ptk := Ptk.zero
  tptk := Ptk.zero
  ptkSet := true
  tptkSet := false
  rxReplayCounter := 0#64
  rxReplayCounterSet := true
  proto := .wpa2
  pairwiseCipher := .ccmp
  groupCipher := .ccmp
  keyMgmt := .psk
  peerkey := []

def sampleRxFrame (keyInfo : KeyInfo) : EapolKey where
  version := 1#8
  ptype := ieee8021xTypeEapolKey
  length := 95#16
  type := eapolKeyTypeRsn
  keyInfo := keyInfo
  keyLength := 16#16
  replayCounter := 1#64
  keyNonce := 0#256
  keyIv := 0#128
  keyRsc := 0#64
  keyId := 0#64
  keyMic := 0#128
  keyDataLength := 0#16
  body := []

def sampleRxCrypto : RxCrypto where
  hmacMd5 _ _ := 0#128
  hmacSha1 _ _ := 0#160
  sha1Prf _ _ := 0#512
  aesWrap _ data := data
  aesUnwrap _ _ := none
  rc4Skip _ data := data
  omac1Aes128 _ _ := 0#128
  peerKeyExpansion _ _ _ _ _ _ := Ptk.zero

def sampleRxBuild : RxBuild := ⟨false, false, true⟩

theorem msg_1_of_4_safe : KeyDataSafe sampleRxCrypto sampleRxBuild sampleRxSm 1#48
    (sampleRxFrame (KeyInfo.hmacSha1Aes ||| KeyInfo.keyType ||| KeyInfo.ack)).toBytes := by
  have hlengths : CryptoLengths sampleRxCrypto.toCrypto :=
    ⟨fun _ _ => rfl, fun _ _ _ h => nomatch h⟩
  refine (keyDataSafe_iff sampleRxCrypto hlengths sampleRxBuild sampleRxSm 1#48 _).mpr ?_
  rintro ⟨sm', f, peer, hchecks, hneeds, -⟩
  have hof := (rxChecks_passed hchecks).1
  rw [EapolKey.ofBytes_toBytes] at hof
  cases hof
  exact absurd hneeds.2.1 (by decide)

/-- A frame with the flag for encrypted key data and without key data, which the station unwraps
past its end. It has no MIC, so that anyone can send it. -/
theorem empty_key_data_unsafe : ¬ KeyDataSafe sampleRxCrypto sampleRxBuild sampleRxSm 1#48
    (sampleRxFrame (KeyInfo.hmacSha1Aes ||| KeyInfo.ack ||| KeyInfo.encrKeyData)).toBytes := by
  intro hsafe
  obtain ⟨res, hres⟩ := hsafe.inside
  have houtside : UnwrapsNothing sampleRxCrypto sampleRxBuild sampleRxSm 1#48
      (sampleRxFrame (KeyInfo.hmacSha1Aes ||| KeyInfo.ack ||| KeyInfo.encrKeyData)).toBytes := by
    refine ⟨sampleRxSm,
      sampleRxFrame (KeyInfo.hmacSha1Aes ||| KeyInfo.ack ||| KeyInfo.encrKeyData), none, ?_,
      ⟨rfl, by decide, rfl, by decide⟩, rfl⟩
    rw [rxChecks, EapolKey.ofBytes_toBytes, EapolKey.length_toBytes]
    rfl
  rw [rxEapol_outside houtside] at hres
  cases hres

end Hostapd.RsnSupp
