import Mathlib.Data.BitVec
import Mathlib.Tactic

/-!
# Milenage

`milenage.c`: the functions f1 to f5*, the challenge of the network (`milenageGenerate`), the check
on the USIM side (`milenageCheck`) and the network's check of an AUTS (`milenageAuts`). Values are
numbers with their first octet on top, so that `os_memcmp` compares them as numbers; a block rotated
by octets is rotated by eight times as many bits. The block cipher is a function that does not fail.

`milenage_check` compares the sequence numbers before it looks at MAC-A.

* **`milenageAuts_autsOf`**: the AUTS of a USIM is accepted by the network and gives its SQN.
* **`milenageCheck_generate`**: what the USIM makes of a challenge of the network.
* **`milenage_authentic`**: an AUTN with another MAC-A is rejected exactly if its sequence number is
  greater than that of the USIM.
-/

namespace Hostapd.Milenage

/-! ## The functions -/

abbrev Block := BitVec 128

/-- Source: `aes_128_encrypt_block`. -/
abbrev BlockCipher := Block → Block → Block

variable (aes : BlockCipher) (opc k rand : Block)

def temp : Block := aes k (rand ^^^ opc)

/-- MAC-A and MAC-S. Source: `milenage_f1`. -/
def milenageF1 (sqn : BitVec 48) (amf : BitVec 16) : BitVec 64 × BitVec 64 :=
  let in1 : Block := ((sqn ++ amf) ++ (sqn ++ amf) : BitVec ((48 + 16) + (48 + 16)))
  let out := aes k ((in1 ^^^ opc).rotateLeft 64 ^^^ temp aes opc k rand) ^^^ opc
  (out.extractLsb' 64 64, out.extractLsb' 0 64)

/-- What `milenage_f2345` computes. -/
structure F2345 where
  res : BitVec 64
  ck : Block
  ik : Block
  ak : BitVec 48
  akstar : BitVec 48
  deriving DecidableEq

/-- Source: `milenage_f2345`. -/
def milenageF2345 : F2345 :=
  let tmp := temp aes opc k rand ^^^ opc
  let out2 := aes k (tmp ^^^ 1) ^^^ opc
  { res := out2.extractLsb' 0 64
    ak := out2.extractLsb' 80 48
    ck := aes k (tmp.rotateLeft 32 ^^^ 2) ^^^ opc
    ik := aes k (tmp.rotateLeft 64 ^^^ 4) ^^^ opc
    akstar := (aes k (tmp.rotateLeft 96 ^^^ 8) ^^^ opc).extractLsb' 80 48 }

structure Autn where
  sqnAk : BitVec 48
  amf : BitVec 16
  macA : BitVec 64
  deriving DecidableEq

structure Auts where
  sqnAk : BitVec 48
  macS : BitVec 64
  deriving DecidableEq

/-- What `milenage_generate` writes. -/
structure Challenge where
  autn : Autn
  ik : Block
  ck : Block
  res : BitVec 64
  deriving DecidableEq

/-- Source: `milenage_generate`; `none` is a `res_len` of 0. -/
def milenageGenerate (amf : BitVec 16) (sqn : BitVec 48) (resLen : ℕ) : Option Challenge :=
  if resLen < 8 then none
  else
    let macA := (milenageF1 aes opc k rand sqn amf).1
    let f := milenageF2345 aes opc k rand
    some { autn := ⟨sqn ^^^ f.ak, amf, macA⟩, ik := f.ik, ck := f.ck, res := f.res }

/-- The SQN of an AUTS; `none` is a return value of -1. Source: `milenage_auts`. -/
def milenageAuts (auts : Auts) : Option (BitVec 48) :=
  let sqn := auts.sqnAk ^^^ (milenageF2345 aes opc k rand).akstar
  if (milenageF1 aes opc k rand sqn 0).2 ≠ auts.macS then none else some sqn

/-- What `milenage_check` returns and writes; `auts` is `none` if it is not written. -/
structure Check where
  ret : ℤ
  ik : Block
  ck : Block
  res : BitVec 64
  auts : Option Auts
  deriving DecidableEq

def autsOf (sqn : BitVec 48) : Auts where
  sqnAk := sqn ^^^ (milenageF2345 aes opc k rand).akstar
  macS := (milenageF1 aes opc k rand sqn 0).2

def rxSqn (autn : Autn) : BitVec 48 := autn.sqnAk ^^^ (milenageF2345 aes opc k rand).ak

/-- Source: `milenage_check`. -/
def milenageCheck (sqn : BitVec 48) (autn : Autn) : Check :=
  let f := milenageF2345 aes opc k rand
  let rx := rxSqn aes opc k rand autn
  if rx ≤ sqn then ⟨-2, f.ik, f.ck, f.res, some (autsOf aes opc k rand sqn)⟩
  else if (milenageF1 aes opc k rand rx autn.amf).1 ≠ autn.macA then
    ⟨-1, f.ik, f.ck, f.res, none⟩
  else ⟨0, f.ik, f.ck, f.res, none⟩

/-! ## Both sides -/

variable {aes opc k rand}

theorem xor_xor_self {w : ℕ} (x y : BitVec w) : x ^^^ y ^^^ y = x := by
  rw [BitVec.xor_assoc, BitVec.xor_self, BitVec.xor_zero]

theorem milenageAuts_autsOf (sqn : BitVec 48) :
    milenageAuts aes opc k rand (autsOf aes opc k rand sqn) = some sqn := by
  unfold milenageAuts autsOf
  dsimp only
  rw [xor_xor_self]
  exact if_neg fun h => h rfl

theorem rxSqn_generate {amf : BitVec 16} {sqn : BitVec 48} {resLen : ℕ} {c : Challenge}
    (h : milenageGenerate aes opc k rand amf sqn resLen = some c) :
    rxSqn aes opc k rand c.autn = sqn := by
  unfold milenageGenerate at h
  split_ifs at h
  obtain rfl := Option.some.inj h
  exact xor_xor_self _ _

theorem milenageCheck_generate {amf : BitVec 16} {sqn : BitVec 48} {resLen : ℕ} {c : Challenge}
    (h : milenageGenerate aes opc k rand amf sqn resLen = some c) (usim : BitVec 48) :
    milenageCheck aes opc k rand usim c.autn =
      if usim < sqn then ⟨0, c.ik, c.ck, c.res, none⟩
      else ⟨-2, c.ik, c.ck, c.res, some (autsOf aes opc k rand usim)⟩ := by
  have hsqn := rxSqn_generate h
  unfold milenageGenerate at h
  split_ifs at h
  obtain rfl := Option.some.inj h
  unfold milenageCheck
  dsimp only at hsqn ⊢
  rw [hsqn]
  by_cases hle : sqn ≤ usim
  · rw [if_pos hle, if_neg (BitVec.not_lt.mpr hle)]
  · rw [if_neg hle, if_pos (BitVec.not_le.mp hle)]
    exact if_neg fun hmac => hmac rfl

/-! ## A wrong MAC -/

/-- The MAC part of an AUTN is not the one that the USIM computes. -/
def WrongMac (aes : BlockCipher) (opc k rand : Block) (autn : Autn) : Prop :=
  (milenageF1 aes opc k rand (rxSqn aes opc k rand autn) autn.amf).1 ≠ autn.macA

/-- What is asked of the check of an AUTN with a wrong MAC. -/
structure Rejected (c : Check) : Prop where
  ret : c.ret = -1
  auts : c.auts = none

/-- A challenge of the network succeeds with the same keys and response exactly if its SQN is the
greater one, and leads to an AUTS with the SQN of the USIM otherwise. An AUTN with a wrong MAC is
rejected exactly if its SQN is greater than that of the USIM. -/
theorem milenage_authentic (aes : BlockCipher) (opc k rand : Block) (usim : BitVec 48) :
    (∀ amf sqn resLen c, milenageGenerate aes opc k rand amf sqn resLen = some c →
      let check := milenageCheck aes opc k rand usim c.autn
      (check.ret = 0 ↔ usim < sqn) ∧
        (usim < sqn → check.ck = c.ck ∧ check.ik = c.ik ∧ check.res = c.res) ∧
        (¬ usim < sqn → check.ret = -2 ∧
          check.auts.bind (milenageAuts aes opc k rand) = some usim)) ∧
      ∀ autn, (WrongMac aes opc k rand autn → Rejected (milenageCheck aes opc k rand usim autn)) ↔
        (WrongMac aes opc k rand autn → usim < rxSqn aes opc k rand autn) := by
  refine ⟨fun amf sqn resLen c h => ?_, fun autn => forall_congr' fun hwrong => ⟨?_, ?_⟩⟩
  · rw [milenageCheck_generate h usim]
    by_cases hlt : usim < sqn
    · simp [hlt]
    · simp [hlt, milenageAuts_autsOf]
  · intro h
    by_contra hle
    have hret := h.ret
    unfold milenageCheck at hret
    rw [if_pos (BitVec.not_lt.mp hle)] at hret
    simp at hret
  · intro hlt
    have hmac : (milenageF1 aes opc k rand (rxSqn aes opc k rand autn) autn.amf).1 ≠ autn.macA :=
      hwrong
    unfold milenageCheck
    rw [if_neg (BitVec.not_le.mpr hlt), if_pos hmac]
    exact ⟨rfl, rfl⟩

theorem wrong_mac_resynchronised :
    let aes : BlockCipher := fun k x => k ^^^ x
    WrongMac aes 0 0 0 ⟨0, 0, 1⟩ ∧ ¬ Rejected (milenageCheck aes 0 0 0 0 ⟨0, 0, 1⟩) := by
  intro aes
  refine ⟨?_, fun h => ?_⟩
  · unfold WrongMac
    decide
  · exact absurd h.ret (by decide)

end Hostapd.Milenage
