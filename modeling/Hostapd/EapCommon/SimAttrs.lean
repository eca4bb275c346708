import Hostapd.Common.Defs
import Hostapd.Lib.Checked
import Hostapd.Lib.Loop
import Hostapd.Lib.Span

/-!
# Attributes of EAP-SIM and EAP-AKA

`eap_sim_common.c`: the parser of the attributes of a message, and of those that are encrypted in
it. What it keeps are pointers into the message; here they are offsets.

* **`eapSimAttrCase`**: what the parser does with one attribute, by its type. It reads nothing
  outside the attribute and stores nothing outside it (`eapSimAttrCase_spec`), and whether it takes
  the attribute does not depend on the ones before (`SimAttr.Accepted`).
* **`EapSimParseAttr`**: the loop over the attributes. The `continue` for an AT_KDF that there is no
  room for goes round without moving on.
* **`eap_sim_attrs`**: the loop returns, with everything it has stored inside the attribute it comes
  from, exactly if it does not come to an AT_KDF after ten of them (`TooManyKdf`).
-/

namespace Hostapd.EapCommon

open Hostapd.Lib

/-! ## Attributes -/

/-- The types of attributes. Source: `EAP_SIM_AT_*`. -/
inductive EapSimAt
  | rand | autn | res | auts | padding | nonceMt | permanentIdReq | mac | notification | anyIdReq
  | identity | versionList | selectedVersion | fullauthIdReq | counter | counterTooSmall | nonceS
  | clientErrorCode | kdfInput | kdf | iv | encrData | nextPseudonym | nextReauthId | checkcode
  | resultInd | bidding
  deriving DecidableEq

def EapSimAt.ofCode (code : UInt8) : Option EapSimAt :=
  match code.toNat with
  | 1 => some .rand
  | 2 => some .autn
  | 3 => some .res
  | 4 => some .auts
  | 6 => some .padding
  | 7 => some .nonceMt
  | 10 => some .permanentIdReq
  | 11 => some .mac
  | 12 => some .notification
  | 13 => some .anyIdReq
  | 14 => some .identity
  | 15 => some .versionList
  | 16 => some .selectedVersion
  | 17 => some .fullauthIdReq
  | 19 => some .counter
  | 20 => some .counterTooSmall
  | 21 => some .nonceS
  | 22 => some .clientErrorCode
  | 23 => some .kdfInput
  | 24 => some .kdf
  | 129 => some .iv
  | 130 => some .encrData
  | 132 => some .nextPseudonym
  | 133 => some .nextReauthId
  | 134 => some .checkcode
  | 135 => some .resultInd
  | 136 => some .bidding
  | _ => none

def gsmRandLen : ℕ := 16

def eapAkaRandLen : ℕ := 16

def eapAkaAutnLen : ℕ := 16

def eapAkaAutsLen : ℕ := 14

def eapSimNonceMtLen : ℕ := 16

def eapSimNonceSLen : ℕ := 16

def eapSimMacLen : ℕ := 16

def eapAkaMinResLen : ℕ := 4

def eapAkaMaxResLen : ℕ := 16

def eapAkaCheckcodeLen : ℕ := 20

def eapAkaPrimeCheckcodeLen : ℕ := 32

def eapAkaPrimeKdfMax : ℕ := 10

inductive EapSimIdReq
  | noIdReq | anyId | fullauthId | permanentId
  deriving DecidableEq

/-- The parsed attributes. A pointer is an offset, or missing where it is `NULL`; `kdf` holds the
first `kdf_count` entries of its table. Source: `struct eap_sim_attrs`. -/
structure EapSimAttrs where
  rand : Option ℕ
  autn : Option ℕ
  mac : Option ℕ
  iv : Option ℕ
  encrData : Option ℕ
  versionList : Option ℕ
  nonceS : Option ℕ
  nextPseudonym : Option ℕ
  nextReauthId : Option ℕ
  nonceMt : Option ℕ
  identity : Option ℕ
  res : Option ℕ
  auts : Option ℕ
  checkcode : Option ℕ
  kdfInput : Option ℕ
  bidding : Option ℕ
  numChal : ℕ
  versionListLen : ℕ
  encrDataLen : ℕ
  nextPseudonymLen : ℕ
  nextReauthIdLen : ℕ
  identityLen : ℕ
  resLen : ℕ
  resLenBits : ℕ
  checkcodeLen : ℕ
  kdfInputLen : ℕ
  idReq : EapSimIdReq
  notification : ℤ
  counter : ℤ
  selectedVersion : ℤ
  clientErrorCode : ℤ
  counterTooSmall : Bool
  resultInd : Bool
  kdf : List ℕ
  deriving DecidableEq

/-- Nothing parsed yet. Source: `eap_sim_parse_attr`, in front of the loop. -/
def EapSimAttrs.init : EapSimAttrs where
  rand := none
  autn := none
  mac := none
  iv := none
  encrData := none
  versionList := none
  nonceS := none
  nextPseudonym := none
  nextReauthId := none
  nonceMt := none
  identity := none
  res := none
  auts := none
  checkcode := none
  kdfInput := none
  bidding := none
  numChal := 0
  versionListLen := 0
  encrDataLen := 0
  nextPseudonymLen := 0
  nextReauthIdLen := 0
  identityLen := 0
  resLen := 0
  resLenBits := 0
  checkcodeLen := 0
  kdfInputLen := 0
  idReq := .noIdReq
  notification := -1
  counter := -1
  selectedVersion := -1
  clientErrorCode := -1
  counterTooSmall := false
  resultInd := false
  kdf := []

/-- What the pointer for a type of attribute points at: as many octets as the length that is stored
with it says, or as the attribute has by its type. -/
def EapSimAttrs.stored (attr : EapSimAttrs) : EapSimAt → Option Span
  | .rand => attr.rand.map (⟨·, attr.numChal * gsmRandLen⟩)
  | .autn => attr.autn.map (⟨·, eapAkaAutnLen⟩)
  | .res => attr.res.map (⟨·, attr.resLen⟩)
  | .auts => attr.auts.map (⟨·, eapAkaAutsLen⟩)
  | .nonceMt => attr.nonceMt.map (⟨·, eapSimNonceMtLen⟩)
  | .mac => attr.mac.map (⟨·, eapSimMacLen⟩)
  | .identity => attr.identity.map (⟨·, attr.identityLen⟩)
  | .versionList => attr.versionList.map (⟨·, attr.versionListLen⟩)
  | .nonceS => attr.nonceS.map (⟨·, eapSimNonceSLen⟩)
  | .kdfInput => attr.kdfInput.map (⟨·, attr.kdfInputLen⟩)
  | .iv => attr.iv.map (⟨·, eapSimMacLen⟩)
  | .encrData => attr.encrData.map (⟨·, attr.encrDataLen⟩)
  | .nextPseudonym => attr.nextPseudonym.map (⟨·, attr.nextPseudonymLen⟩)
  | .nextReauthId => attr.nextReauthId.map (⟨·, attr.nextReauthIdLen⟩)
  | .checkcode => attr.checkcode.map (⟨·, attr.checkcodeLen⟩)
  | .bidding => attr.bidding.map (⟨·, 2⟩)
  | .padding | .permanentIdReq | .notification | .anyIdReq | .selectedVersion | .fullauthIdReq
  | .counter | .counterTooSmall | .clientErrorCode | .kdf | .resultInd => none

/-! ## The parser -/

/-- How a case of the switch ends: with `return -1`, with `break`, or with `continue`, which leaves
out what moves on to the next attribute. -/
inductive CaseEnd
  | fail (attr : EapSimAttrs)
  | next (attr : EapSimAttrs)
  | again (attr : EapSimAttrs)
  deriving DecidableEq

def zeroPadding (data : Bytes) (i : ℕ) : Except Stop Bool :=
  if i < data.length then do
    let b ← rd8 data i
    if b ≠ 0 then return false else zeroPadding data (i + 1)
  else return true
termination_by data.length - i

/-- The cases of the switch: `data` are the `alen` octets at `apos`.
Source: `eap_sim_parse_attr`. -/
def eapSimAttrCase (aka encr : ℤ) (attr : EapSimAttrs) (apos : ℕ) (data : Bytes) :
    EapSimAt → Except Stop CaseEnd
  | .rand =>
    let alen := data.length - 2
    if (aka = 0 ∧ alen % gsmRandLen ≠ 0) ∨ (aka ≠ 0 ∧ alen ≠ eapAkaRandLen) then
      return .fail attr
    else return .next { attr with rand := some (apos + 2), numChal := alen / gsmRandLen }
  | .autn =>
    if aka = 0 then return .fail attr
    else if data.length - 2 ≠ eapAkaAutnLen then return .fail attr
    else return .next { attr with autn := some (apos + 2) }
  | .padding =>
    if encr = 0 then return .fail attr
    else do
      let zeros ← zeroPadding data 2
      if zeros then return .next attr else return .fail attr
  | .nonceMt =>
    if data.length ≠ 2 + eapSimNonceMtLen then return .fail attr
    else return .next { attr with nonceMt := some (apos + 2) }
  | .permanentIdReq => return .next { attr with idReq := .permanentId }
  | .mac =>
    if data.length ≠ 2 + eapSimMacLen then return .fail attr
    else return .next { attr with mac := some (apos + 2) }
  | .notification =>
    if data.length ≠ 2 then return .fail attr
    else do
      let code ← rdBe16 data 0
      return .next { attr with notification := code }
  | .anyIdReq => return .next { attr with idReq := .anyId }
  | .identity => do
    let plen ← rdBe16 data 0
    if data.length - 2 < plen then return .fail attr
    else return .next { attr with identity := some (apos + 2), identityLen := plen }
  | .versionList =>
    if aka ≠ 0 then return .fail attr
    else do
      let listLen ← rdBe16 data 0
      if listLen < 2 ∨ data.length - 2 < listLen then return .fail attr
      else return .next { attr with versionList := some (apos + 2), versionListLen := listLen }
  | .selectedVersion =>
    if data.length ≠ 2 then return .fail attr
    else do
      let version ← rdBe16 data 0
      return .next { attr with selectedVersion := version }
  | .fullauthIdReq => return .next { attr with idReq := .fullauthId }
  | .counter =>
    if encr = 0 then return .fail attr
    else if data.length ≠ 2 then return .fail attr
    else do
      let counter ← rdBe16 data 0
      return .next { attr with counter := counter }
  | .counterTooSmall =>
    if encr = 0 then return .fail attr
    else if data.length ≠ 2 then return .fail attr
    else return .next { attr with counterTooSmall := true }
  | .nonceS =>
    if encr = 0 then return .fail attr
    else if data.length ≠ 2 + eapSimNonceSLen then return .fail attr
    else return .next { attr with nonceS := some (apos + 2) }
  | .clientErrorCode =>
    if data.length ≠ 2 then return .fail attr
    else do
      let code ← rdBe16 data 0
      return .next { attr with clientErrorCode := code }
  | .iv =>
    if data.length ≠ 2 + eapSimMacLen then return .fail attr
    else return .next { attr with iv := some (apos + 2) }
  | .encrData =>
    -- stored before the length is looked at
    let attr := { attr with encrData := some (apos + 2), encrDataLen := data.length - 2 }
    if attr.encrDataLen % 16 ≠ 0 then return .fail attr else return .next attr
  | .nextPseudonym =>
    if encr = 0 then return .fail attr
    else do
      let plen ← rdBe16 data 0
      if data.length - 2 < plen then return .fail attr
      else return .next { attr with nextPseudonym := some (apos + 2), nextPseudonymLen := plen }
  | .nextReauthId =>
    if encr = 0 then return .fail attr
    else do
      let plen ← rdBe16 data 0
      if data.length - 2 < plen then return .fail attr
      else return .next { attr with nextReauthId := some (apos + 2), nextReauthIdLen := plen }
  | .res => do
    let bits ← rdBe16 data 0
    let attr := { attr with resLenBits := bits }
    let alen := data.length - 2
    if aka = 0 ∨ alen < eapAkaMinResLen ∨ eapAkaMaxResLen < alen then return .fail attr
    else return .next { attr with res := some (apos + 2), resLen := alen }
  | .auts =>
    if aka = 0 then return .fail attr
    else if data.length ≠ eapAkaAutsLen then return .fail attr
    else return .next { attr with auts := some apos }
  | .checkcode =>
    let alen := data.length - 2
    if aka = 0 then return .fail attr
    else if alen ≠ 0 ∧ alen ≠ eapAkaCheckcodeLen ∧ alen ≠ eapAkaPrimeCheckcodeLen then
      return .fail attr
    else return .next { attr with checkcode := some (apos + 2), checkcodeLen := alen }
  | .resultInd =>
    if encr ≠ 0 then return .fail attr
    else if data.length ≠ 2 then return .fail attr
    else return .next { attr with resultInd := true }
  | .kdfInput =>
    if aka ≠ 2 then return .fail attr
    else do
      let plen ← rdBe16 data 0
      if data.length - 2 < plen then return .fail attr
      else return .next { attr with kdfInput := some (apos + 2), kdfInputLen := plen }
  | .kdf =>
    if aka ≠ 2 then return .fail attr
    else if data.length ≠ 2 then return .fail attr
    -- too many AT_KDF attributes: `continue`
    else if attr.kdf.length = eapAkaPrimeKdfMax then return .again attr
    else do
      let kdf ← rdBe16 data 0
      return .next { attr with kdf := attr.kdf ++ [kdf] }
  | .bidding =>
    if data.length ≠ 2 then return .fail attr
    else return .next { attr with bidding := some apos }

def eapSimAttr (aka encr : ℤ) (attr : EapSimAttrs) (apos : ℕ) (data : Bytes) (type : UInt8) :
    Except Stop CaseEnd :=
  match EapSimAt.ofCode type with
  | some known => eapSimAttrCase aka encr attr apos data known
  -- unrecognized attributes below 128 are not skippable
  | none => if type < 128 then return .fail attr else return .next attr

/-- A round of the loop. Source: `eap_sim_parse_attr`. -/
def eapSimParseRound (buf : Bytes) (aka encr : ℤ) (s : ℕ × EapSimAttrs) :
    Except Stop ((ℕ × EapSimAttrs) ⊕ (Bool × EapSimAttrs)) :=
  let pos := s.1
  if pos < buf.length then
    if buf.length < pos + 2 then return .inr (false, s.2)
    else do
      let len ← rd8 buf (pos + 1)
      if buf.length < pos + len.toNat * 4 then return .inr (false, s.2)
      else if len = 0 then return .inr (false, s.2)
      else
        let type ← rd8 buf pos
        let data ← rdSlice buf (pos + 2) (pos + len.toNat * 4)
        let result ← eapSimAttr aka encr s.2 (pos + 2) data type
        match result with
        | .fail attr => return .inr (false, attr)
        | .next attr => return .inl (pos + len.toNat * 4, attr)
        | .again attr => return .inl (pos, attr)
  else return .inr (true, s.2)

/-- The parser returns a result, with what it has stored. Source: `eap_sim_parse_attr`. -/
def EapSimParseAttr (buf : Bytes) (aka encr : ℤ) (r : Except Stop (Bool × EapSimAttrs)) : Prop :=
  Returns (tryRound (eapSimParseRound buf aka encr)) (0, .init) r

/-! ## One attribute -/

/-- What one attribute may leave in the table: a pointer for its type, into the attribute. -/
def Stores (attr attr' : EapSimAttrs) (type : EapSimAt) (apos alen : ℕ) : Prop :=
  ∀ t s, attr'.stored t = some s →
    attr.stored t = some s ∨ t = type ∧ s.Within apos (apos + alen)

/-- The attribute is taken, whatever has been parsed before. -/
def Takes (aka encr : ℤ) (type : EapSimAt) (data : Bytes) : Prop :=
  ∃ attr, eapSimAttrCase aka encr .init 0 data type = .ok (.next attr)

def CaseSpec (aka encr : ℤ) (attr : EapSimAttrs) (type : EapSimAt) (apos : ℕ) (data : Bytes) :
    Except Stop CaseEnd → Prop
  | .error _ => False
  | .ok (.fail attr') => ¬ Takes aka encr type data ∧ Stores attr attr' type apos data.length
  | .ok (.next attr') =>
    Takes aka encr type data ∧ Stores attr attr' type apos data.length ∧
      if type = .kdf then
        attr.kdf.length ≠ eapAkaPrimeKdfMax ∧ attr'.kdf.length = attr.kdf.length + 1
      else attr'.kdf = attr.kdf
  | .ok (.again attr') =>
    Takes aka encr type data ∧ type = .kdf ∧ attr' = attr ∧ attr.kdf.length = eapAkaPrimeKdfMax

section Cases

variable {aka encr : ℤ} {attr attr' : EapSimAttrs} {type : EapSimAt} {apos : ℕ} {data : Bytes}

theorem Stores.same (h : attr'.stored = attr.stored) {alen : ℕ} :
    Stores attr attr' type apos alen := by
  intro t s hs
  rw [h] at hs
  exact .inl hs

theorem Stores.pointer (pos len : ℕ) {alen : ℕ}
    (h : ∀ t, attr'.stored t = if t = type then some ⟨pos, len⟩ else attr.stored t)
    (hlo : apos ≤ pos) (hhi : pos + len ≤ apos + alen) : Stores attr attr' type apos alen := by
  intro t s hs
  rw [h t] at hs
  split at hs
  · cases hs
    exact .inr ⟨‹_›, hlo, hhi⟩
  · exact .inl hs

theorem zeroPadding_returns (data : Bytes) (i : ℕ) : ∃ zeros, zeroPadding data i = .ok zeros := by
  induction hn : data.length - i generalizing i with
  | zero =>
    rw [zeroPadding, if_neg (by omega)]
    exact ⟨true, rfl⟩
  | succ n ih =>
    rw [zeroPadding, if_pos (by omega), rd8_of (by omega), ok_bind]
    split
    · exact ⟨false, rfl⟩
    · exact ih (i + 1) (by omega)

theorem CaseSpec.fail (hnot : ¬ Takes aka encr type data) (h : attr'.stored = attr.stored) :
    CaseSpec aka encr attr type apos data (.ok (.fail attr')) :=
  ⟨hnot, .same h⟩

theorem CaseSpec.next (htakes : Takes aka encr type data) (h : attr'.stored = attr.stored)
    (hne : type ≠ .kdf) (hkdf : attr'.kdf = attr.kdf) :
    CaseSpec aka encr attr type apos data (.ok (.next attr')) :=
  ⟨htakes, .same h, by rwa [if_neg hne]⟩

theorem CaseSpec.pointer (pos len : ℕ) (htakes : Takes aka encr type data)
    (h : ∀ t, attr'.stored t = if t = type then some ⟨pos, len⟩ else attr.stored t)
    (hlo : apos ≤ pos) (hhi : pos + len ≤ apos + data.length) (hne : type ≠ .kdf)
    (hkdf : attr'.kdf = attr.kdf) : CaseSpec aka encr attr type apos data (.ok (.next attr')) :=
  ⟨htakes, .pointer pos len h hlo hhi, by rwa [if_neg hne]⟩

theorem not_takes {b : EapSimAttrs}
    (h : Takes aka encr type data ↔
      ∃ a, (pure (.fail b) : Except Stop CaseEnd) = .ok (.next a)) :
    ¬ Takes aka encr type data := by
  intro ht
  obtain ⟨a, heq⟩ := h.mp ht
  cases heq

theorem takes {b : EapSimAttrs}
    (h : Takes aka encr type data ↔
      ∃ a, (pure (.next b) : Except Stop CaseEnd) = .ok (.next a)) : Takes aka encr type data :=
  h.mpr ⟨b, rfl⟩

theorem eapSimAttrCase_spec (attr : EapSimAttrs) (apos : ℕ) (h : 2 ≤ data.length) :
    CaseSpec aka encr attr type apos data (eapSimAttrCase aka encr attr apos data type) := by
  obtain ⟨n, hn⟩ := rdBe16_returns (i := 0) h
  obtain ⟨zeros, hzeros⟩ := zeroPadding_returns data 2
  have htakes : Takes aka encr type data ↔
    ∃ attr, eapSimAttrCase aka encr .init 0 data type = .ok (.next attr) := Iff.rfl
  cases type with
  | permanentIdReq => exact .next ⟨_, rfl⟩ rfl (by decide) rfl
  | anyIdReq => exact .next ⟨_, rfl⟩ rfl (by decide) rfl
  | fullauthIdReq => exact .next ⟨_, rfl⟩ rfl (by decide) rfl
  | rand =>
    have hmul := Nat.div_mul_le_self (data.length - 2) gsmRandLen
    simp only [eapSimAttrCase] at htakes ⊢
    split_ifs at htakes ⊢ with hlen
    · exact .fail (not_takes htakes) rfl
    · exact .pointer (apos + 2) ((data.length - 2) / gsmRandLen * gsmRandLen) (takes htakes)
        (fun t => by cases t <;> rfl) (by omega) (by omega) (by decide) rfl
  | autn =>
    simp only [eapSimAttrCase] at htakes ⊢
    split_ifs at htakes ⊢ with haka hlen
    · exact .fail (not_takes htakes) rfl
    · exact .fail (not_takes htakes) rfl
    · exact .pointer (apos + 2) eapAkaAutnLen (takes htakes)
        (fun t => by cases t <;> rfl) (by omega) (by omega) (by decide) rfl
  | nonceMt =>
    simp only [eapSimAttrCase] at htakes ⊢
    split_ifs at htakes ⊢ with hlen
    · exact .fail (not_takes htakes) rfl
    · exact .pointer (apos + 2) eapSimNonceMtLen (takes htakes)
        (fun t => by cases t <;> rfl) (by omega) (by omega) (by decide) rfl
  | mac =>
    simp only [eapSimAttrCase] at htakes ⊢
    split_ifs at htakes ⊢ with hlen
    · exact .fail (not_takes htakes) rfl
    · exact .pointer (apos + 2) eapSimMacLen (takes htakes)
        (fun t => by cases t <;> rfl) (by omega) (by omega) (by decide) rfl
  | nonceS =>
    simp only [eapSimAttrCase] at htakes ⊢
    split_ifs at htakes ⊢ with hencr hlen
    · exact .fail (not_takes htakes) rfl
    · exact .fail (not_takes htakes) rfl
    · exact .pointer (apos + 2) eapSimNonceSLen (takes htakes)
        (fun t => by cases t <;> rfl) (by omega) (by omega) (by decide) rfl
  | iv =>
    simp only [eapSimAttrCase] at htakes ⊢
    split_ifs at htakes ⊢ with hlen
    · exact .fail (not_takes htakes) rfl
    · exact .pointer (apos + 2) eapSimMacLen (takes htakes)
        (fun t => by cases t <;> rfl) (by omega) (by omega) (by decide) rfl
  | auts =>
    simp only [eapSimAttrCase] at htakes ⊢
    split_ifs at htakes ⊢ with haka hlen
    · exact .fail (not_takes htakes) rfl
    · exact .fail (not_takes htakes) rfl
    · exact .pointer apos eapAkaAutsLen (takes htakes)
        (fun t => by cases t <;> rfl) (by omega) (by omega) (by decide) rfl
  | checkcode =>
    simp only [eapSimAttrCase] at htakes ⊢
    split_ifs at htakes ⊢ with haka hlen
    · exact .fail (not_takes htakes) rfl
    · exact .fail (not_takes htakes) rfl
    · exact .pointer (apos + 2) (data.length - 2) (takes htakes)
        (fun t => by cases t <;> rfl) (by omega) (by omega) (by decide) rfl
  | bidding =>
    simp only [eapSimAttrCase] at htakes ⊢
    split_ifs at htakes ⊢ with hlen
    · exact .fail (not_takes htakes) rfl
    · exact .pointer apos 2 (takes htakes)
        (fun t => by cases t <;> rfl) (by omega) (by omega) (by decide) rfl
  | res =>
    simp only [eapSimAttrCase, hn, ok_bind] at htakes ⊢
    split_ifs at htakes ⊢ with hlen
    · exact .fail (not_takes htakes) rfl
    · exact .pointer (apos + 2) (data.length - 2) (takes htakes)
        (fun t => by cases t <;> rfl) (by omega) (by omega) (by decide) rfl
  | identity =>
    simp only [eapSimAttrCase, hn, ok_bind] at htakes ⊢
    split_ifs at htakes ⊢ with hlen
    · exact .fail (not_takes htakes) rfl
    · exact .pointer (apos + 2) n (takes htakes)
        (fun t => by cases t <;> rfl) (by omega) (by omega) (by decide) rfl
  | versionList =>
    simp only [eapSimAttrCase, hn, ok_bind] at htakes ⊢
    split_ifs at htakes ⊢ with haka hlen
    · exact .fail (not_takes htakes) rfl
    · exact .fail (not_takes htakes) rfl
    · exact .pointer (apos + 2) n (takes htakes)
        (fun t => by cases t <;> rfl) (by omega) (by omega) (by decide) rfl
  | kdfInput =>
    simp only [eapSimAttrCase, hn, ok_bind] at htakes ⊢
    split_ifs at htakes ⊢ with haka hlen
    · exact .fail (not_takes htakes) rfl
    · exact .fail (not_takes htakes) rfl
    · exact .pointer (apos + 2) n (takes htakes)
        (fun t => by cases t <;> rfl) (by omega) (by omega) (by decide) rfl
  | nextPseudonym =>
    simp only [eapSimAttrCase, hn, ok_bind] at htakes ⊢
    split_ifs at htakes ⊢ with hencr hlen
    · exact .fail (not_takes htakes) rfl
    · exact .fail (not_takes htakes) rfl
    · exact .pointer (apos + 2) n (takes htakes)
        (fun t => by cases t <;> rfl) (by omega) (by omega) (by decide) rfl
  | nextReauthId =>
    simp only [eapSimAttrCase, hn, ok_bind] at htakes ⊢
    split_ifs at htakes ⊢ with hencr hlen
    · exact .fail (not_takes htakes) rfl
    · exact .fail (not_takes htakes) rfl
    · exact .pointer (apos + 2) n (takes htakes)
        (fun t => by cases t <;> rfl) (by omega) (by omega) (by decide) rfl
  | encrData =>
    simp only [eapSimAttrCase] at htakes ⊢
    split_ifs at htakes ⊢ with hlen
    · exact ⟨not_takes htakes, .pointer (apos + 2) (data.length - 2)
        (fun t => by cases t <;> rfl) (by omega) (by omega)⟩
    · exact .pointer (apos + 2) (data.length - 2) (takes htakes)
        (fun t => by cases t <;> rfl) (by omega) (by omega) (by decide) rfl
  | counterTooSmall =>
    simp only [eapSimAttrCase] at htakes ⊢
    split_ifs at htakes ⊢ with hencr hlen
    · exact .fail (not_takes htakes) rfl
    · exact .fail (not_takes htakes) rfl
    · exact .next (takes htakes) rfl (by decide) rfl
  | resultInd =>
    simp only [eapSimAttrCase] at htakes ⊢
    split_ifs at htakes ⊢ with hencr hlen
    · exact .fail (not_takes htakes) rfl
    · exact .fail (not_takes htakes) rfl
    · exact .next (takes htakes) rfl (by decide) rfl
  | notification =>
    simp only [eapSimAttrCase, hn, ok_bind] at htakes ⊢
    split_ifs at htakes ⊢ with hlen
    · exact .fail (not_takes htakes) rfl
    · exact .next (takes htakes) rfl (by decide) rfl
  | selectedVersion =>
    simp only [eapSimAttrCase, hn, ok_bind] at htakes ⊢
    split_ifs at htakes ⊢ with hlen
    · exact .fail (not_takes htakes) rfl
    · exact .next (takes htakes) rfl (by decide) rfl
  | clientErrorCode =>
    simp only [eapSimAttrCase, hn, ok_bind] at htakes ⊢
    split_ifs at htakes ⊢ with hlen
    · exact .fail (not_takes htakes) rfl
    · exact .next (takes htakes) rfl (by decide) rfl
  | counter =>
    simp only [eapSimAttrCase, hn, ok_bind] at htakes ⊢
    split_ifs at htakes ⊢ with hencr hlen
    · exact .fail (not_takes htakes) rfl
    · exact .fail (not_takes htakes) rfl
    · exact .next (takes htakes) rfl (by decide) rfl
  | padding =>
    simp only [eapSimAttrCase, hzeros, ok_bind] at htakes ⊢
    split_ifs at htakes ⊢ with hencr hzero
    · exact .fail (not_takes htakes) rfl
    · exact .next (takes htakes) rfl (by decide) rfl
    · exact .fail (not_takes htakes) rfl
  | kdf =>
    have hinit : ¬ EapSimAttrs.init.kdf.length = eapAkaPrimeKdfMax := by decide
    simp only [eapSimAttrCase, hn, ok_bind, if_neg hinit] at htakes ⊢
    split_ifs at htakes ⊢ with haka hlen hfull
    · exact .fail (not_takes htakes) rfl
    · exact .fail (not_takes htakes) rfl
    · exact ⟨takes htakes, rfl, rfl, hfull⟩
    · exact ⟨takes htakes, .same rfl, hfull, List.length_append⟩

end Cases

/-! ## Attributes of a message -/

/-- An attribute as it stands in a message, with its length in words of four octets. -/
structure SimAttr where
  type : UInt8
  words : UInt8
  data : Bytes
  fits : data.length + 2 = words.toNat * 4

namespace SimAttr

def encode (a : SimAttr) : Bytes := a.type :: a.words :: a.data

/-- The parser takes the attribute, whatever has been parsed before. -/
def Accepted (aka encr : ℤ) (a : SimAttr) : Prop :=
  ∃ attr, eapSimAttr aka encr .init 0 a.data a.type = .ok (.next attr)

def isKdf (a : SimAttr) : Bool := EapSimAt.ofCode a.type = some .kdf

end SimAttr

/-- Everything that is stored lies inside the attribute it comes from. -/
def EapSimAttrs.Inside (buf : Bytes) (attr : EapSimAttrs) : Prop :=
  ∀ t s, attr.stored t = some s → ∃ (before : List SimAttr) (a : SimAttr) (rest : Bytes),
    buf = before.flatMap SimAttr.encode ++ (a.encode ++ rest) ∧ EapSimAt.ofCode a.type = some t ∧
      s.Within ((before.flatMap SimAttr.encode).length + 2)
        ((before.flatMap SimAttr.encode).length + a.encode.length)

/-- Attributes that are taken, ten of them AT_KDF, and one more AT_KDF. -/
def TooManyKdf (aka encr : ℤ) (buf : Bytes) : Prop :=
  ∃ (before : List SimAttr) (a : SimAttr) (rest : Bytes),
    buf = before.flatMap SimAttr.encode ++ (a.encode ++ rest) ∧
      (∀ b ∈ before, b.Accepted aka encr) ∧ a.Accepted aka encr ∧ a.isKdf = true ∧
      eapAkaPrimeKdfMax ≤ before.countP SimAttr.isKdf

inductive AttrEnd (aka encr : ℤ) (attr : EapSimAttrs) (a : SimAttr) (apos : ℕ) :
    Except Stop CaseEnd → Prop
  | fail {attr' : EapSimAttrs} : ¬ a.Accepted aka encr →
      (∀ t s, attr'.stored t = some s → attr.stored t = some s ∨
        EapSimAt.ofCode a.type = some t ∧ s.Within apos (apos + a.data.length)) →
      AttrEnd aka encr attr a apos (.ok (.fail attr'))
  | next {attr' : EapSimAttrs} : a.Accepted aka encr →
      (∀ t s, attr'.stored t = some s → attr.stored t = some s ∨
        EapSimAt.ofCode a.type = some t ∧ s.Within apos (apos + a.data.length)) →
      (if a.isKdf then
        attr.kdf.length ≠ eapAkaPrimeKdfMax ∧ attr'.kdf.length = attr.kdf.length + 1
      else attr'.kdf = attr.kdf) →
      AttrEnd aka encr attr a apos (.ok (.next attr'))
  | again : a.Accepted aka encr → a.isKdf = true → attr.kdf.length = eapAkaPrimeKdfMax →
      AttrEnd aka encr attr a apos (.ok (.again attr))

section Rounds

variable {aka encr : ℤ} {attr : EapSimAttrs} {buf pre rest : Bytes}

theorem SimAttr.two_le (a : SimAttr) : 2 ≤ a.data.length := by
  have hfits := a.fits
  omega

@[simp] theorem SimAttr.length_encode (a : SimAttr) : a.encode.length = a.data.length + 2 := rfl

theorem eapSimAttr_ends (attr : EapSimAttrs) (a : SimAttr) (apos : ℕ) :
    AttrEnd aka encr attr a apos (eapSimAttr aka encr attr apos a.data a.type) := by
  have hAccepted : a.Accepted aka encr ↔
    ∃ attr, eapSimAttr aka encr .init 0 a.data a.type = .ok (.next attr) := Iff.rfl
  unfold eapSimAttr at hAccepted ⊢
  cases hcode : EapSimAt.ofCode a.type with
  | none =>
    have hkdf : a.isKdf = false := by simp [SimAttr.isKdf, hcode]
    simp only [hcode] at hAccepted ⊢
    split_ifs at hAccepted ⊢ with hlow
    · refine .fail (fun h => ?_) fun t s hs => .inl hs
      obtain ⟨attr', heq⟩ := hAccepted.mp h
      cases heq
    · exact .next (hAccepted.mpr ⟨_, rfl⟩) (fun t s hs => .inl hs) (by rw [hkdf]; rfl)
  | some type =>
    have hkdf : a.isKdf = decide (type = .kdf) := by simp [SimAttr.isKdf, hcode]
    simp only [hcode] at hAccepted ⊢
    have hspec := @eapSimAttrCase_spec aka encr type a.data attr apos a.two_le
    have hstores {attr' : EapSimAttrs} (h : Stores attr attr' type apos a.data.length)
        (t : EapSimAt) (s : Span) (hs : attr'.stored t = some s) : attr.stored t = some s ∨
          some type = some t ∧ s.Within apos (apos + a.data.length) :=
      (h t s hs).imp_right fun ⟨ht, hwithin⟩ => ⟨by rw [ht], hwithin⟩
    rw [← hcode] at hstores
    match eapSimAttrCase aka encr attr apos a.data type, hspec with
    | .ok (.fail attr'), ⟨hnot, hs⟩ => exact .fail (fun h => hnot (hAccepted.mp h)) (hstores hs)
    | .ok (.next attr'), ⟨htakes, hs, hlen⟩ =>
      refine .next (hAccepted.mpr htakes) (hstores hs) ?_
      simp only [hkdf, decide_eq_true_eq]
      exact hlen
    | .ok (.again attr'), ⟨htakes, htype, heq, hfull⟩ =>
      subst heq
      exact .again (hAccepted.mpr htakes) (by rw [hkdf, htype]; rfl) hfull

theorem eapSimParseRound_attr (a : SimAttr) :
    eapSimParseRound (pre ++ (a.encode ++ rest)) aka encr (pre.length, attr) = (do
      let result ← eapSimAttr aka encr attr (pre.length + 2) a.data a.type
      match result with
      | .fail attr => return .inr (false, attr)
      | .next attr => return .inl (pre.length + a.encode.length, attr)
      | .again attr => return .inl (pre.length, attr)) := by
  have hfits := a.fits
  have htwo := a.two_le
  have hlen : (pre ++ (a.encode ++ rest)).length =
      pre.length + (a.data.length + 2 + rest.length) := by
    simp only [List.length_append, SimAttr.length_encode]
  have hwords : rd8 (pre ++ (a.encode ++ rest)) (pre.length + 1) = .ok a.words := rd8_append pre _ 1
  have htype : rd8 (pre ++ (a.encode ++ rest)) pre.length = .ok a.type := rd8_append pre _ 0
  have hdata : rdSlice (pre ++ (a.encode ++ rest)) (pre.length + 2)
      (pre.length + a.words.toNat * 4) = .ok a.data := by
    have hmiddle := rdSlice_middle (pre ++ [a.type, a.words]) a.data rest
    simp only [List.append_assoc, List.length_append, List.length_cons, List.length_nil] at hmiddle
    rw [← hfits, ← Nat.add_assoc, Nat.add_right_comm]
    exact hmiddle
  have hne : ¬ a.words = 0 := by
    rintro h
    rw [h] at hfits
    simp at hfits
  unfold eapSimParseRound
  simp only []
  rw [if_pos (by omega), if_neg (by omega), hwords, ok_bind, if_neg (by omega), if_neg hne, htype,
    ok_bind, hdata, ok_bind, SimAttr.length_encode, hfits]

theorem eapSimParseRound_end (h : ∀ (a : SimAttr) (rest' : Bytes), rest ≠ a.encode ++ rest') :
    ∃ ok, eapSimParseRound (pre ++ rest) aka encr (pre.length, attr) = .ok (.inr (ok, attr)) := by
  unfold eapSimParseRound
  simp only [List.length_append]
  match rest, h with
  | [], _ => exact ⟨true, if_neg (by simp)⟩
  | [b], _ =>
    refine ⟨false, ?_⟩
    rw [if_pos (by simp), if_pos (by simp)]
    rfl
  | type :: words :: tail, h =>
    have hwords : rd8 (pre ++ type :: words :: tail) (pre.length + 1) = .ok words :=
      rd8_append pre _ 1
    refine ⟨false, ?_⟩
    rw [if_pos (by simp), if_neg (by simp), hwords, ok_bind]
    by_cases hlong : pre.length + (tail.length + 1 + 1) < pre.length + words.toNat * 4
    · rw [List.length_cons, List.length_cons, if_pos hlong]
      rfl
    · rw [List.length_cons, List.length_cons, if_neg hlong]
      by_cases hzero : words = 0
      · rw [if_pos hzero]
        rfl
      · have hpos : words.toNat ≠ 0 := fun h => hzero (UInt8.toNat.inj h)
        have hfits : (tail.take (words.toNat * 4 - 2)).length + 2 = words.toNat * 4 := by
          rw [List.length_take]
          omega
        refine absurd ?_ (h ⟨type, words, _, hfits⟩ (tail.drop (words.toNat * 4 - 2)))
        simp [SimAttr.encode]

end Rounds

/-! ## The loop -/

section Loop

variable {aka encr : ℤ} {attr : EapSimAttrs} {buf pre rest : Bytes}

/-- The loop at an attribute that is taken: it stays there for an AT_KDF for which there is no room,
and else it moves on. -/
theorem round_of_accepted {a : SimAttr} (ha : a.Accepted aka encr) :
    if a.isKdf ∧ attr.kdf.length = eapAkaPrimeKdfMax then
      eapSimParseRound (pre ++ (a.encode ++ rest)) aka encr (pre.length, attr) =
        .ok (.inl (pre.length, attr))
    else ∃ attr', attr'.kdf.length = attr.kdf.length + (if a.isKdf then 1 else 0) ∧
      eapSimParseRound (pre ++ (a.encode ++ rest)) aka encr (pre.length, attr) =
        .ok (.inl ((pre ++ a.encode).length, attr')) := by
  rw [eapSimParseRound_attr]
  match eapSimAttr aka encr attr (pre.length + 2) a.data a.type,
    @eapSimAttr_ends aka encr attr a (pre.length + 2) with
  | _, .fail hnot _ => exact absurd ha hnot
  | .ok (.next attr'), .next _ _ hkdf =>
    rw [List.length_append]
    split_ifs at hkdf with hk
    · rw [if_neg fun h => hkdf.1 h.2]
      exact ⟨attr', by rw [hkdf.2, if_pos hk], rfl⟩
    · rw [if_neg fun h => hk h.1]
      exact ⟨attr', by rw [hkdf, if_neg hk, Nat.add_zero], rfl⟩
  | _, .again _ hk hfull =>
    rw [if_pos ⟨hk, hfull⟩]
    rfl

theorem not_returns_of_kdfs {a : SimAttr} (ha : a.Accepted aka encr) (hkdf : a.isKdf = true)
    {before : List SimAttr} (hbefore : ∀ b ∈ before, b.Accepted aka encr) (pre : Bytes)
    (hcount : eapAkaPrimeKdfMax ≤ attr.kdf.length + before.countP SimAttr.isKdf)
    (hfew : attr.kdf.length ≤ eapAkaPrimeKdfMax) (r : Except Stop (Bool × EapSimAttrs)) :
    ¬ Returns (tryRound (eapSimParseRound
      (pre ++ (before.flatMap SimAttr.encode ++ (a.encode ++ rest))) aka encr))
        (pre.length, attr) r := by
  induction before generalizing pre attr with
  | nil =>
    have hround := @round_of_accepted aka encr attr pre rest a ha
    rw [List.countP_nil, Nat.add_zero] at hcount
    rw [if_pos ⟨hkdf, Nat.le_antisymm hfew hcount⟩] at hround
    exact not_returns_of_stuck (tryRound_of_next hround)
  | cons b before ih =>
    have hround := @round_of_accepted aka encr attr pre
      (before.flatMap SimAttr.encode ++ (a.encode ++ rest)) b (hbefore b List.mem_cons_self)
    rw [List.flatMap_cons, List.append_assoc]
    by_cases hfull : b.isKdf ∧ attr.kdf.length = eapAkaPrimeKdfMax
    · rw [if_pos hfull] at hround
      exact not_returns_of_stuck (tryRound_of_next hround)
    · rw [if_neg hfull] at hround
      obtain ⟨attr', hlen, hnext⟩ := hround
      rw [returns_iff_of_next (tryRound_of_next hnext), ← List.append_assoc]
      rw [List.countP_cons, ← Nat.add_assoc, Nat.add_right_comm, ← hlen] at hcount
      refine ih (fun c hc => hbefore c (List.mem_cons_of_mem b hc)) (pre ++ b.encode) hcount ?_
      by_cases hk : b.isKdf = true
      · have hne : attr.kdf.length ≠ eapAkaPrimeKdfMax := fun h => hfull ⟨hk, h⟩
        rw [if_pos hk] at hlen
        omega
      · rw [if_neg hk] at hlen
        omega

/-- Where the loop is: behind attributes that it has taken. -/
def Behind (aka encr : ℤ) (buf : Bytes) (s : ℕ × EapSimAttrs) : Prop :=
  ∃ (before : List SimAttr) (rest : Bytes), buf = before.flatMap SimAttr.encode ++ rest ∧
    s.1 = (before.flatMap SimAttr.encode).length ∧ (∀ b ∈ before, b.Accepted aka encr) ∧
    s.2.kdf.length = before.countP SimAttr.isKdf ∧ s.2.Inside buf

theorem EapSimAttrs.Inside.attribute {attr' : EapSimAttrs} {before : List SimAttr} {a : SimAttr}
    (h : attr.Inside (before.flatMap SimAttr.encode ++ (a.encode ++ rest)))
    (hstores : ∀ t s, attr'.stored t = some s → attr.stored t = some s ∨
      EapSimAt.ofCode a.type = some t ∧ s.Within ((before.flatMap SimAttr.encode).length + 2)
        ((before.flatMap SimAttr.encode).length + 2 + a.data.length)) :
    attr'.Inside (before.flatMap SimAttr.encode ++ (a.encode ++ rest)) := by
  intro t s hs
  rcases hstores t s hs with hold | ⟨htype, hwithin⟩
  · exact h t s hold
  · refine ⟨before, a, rest, rfl, htype, hwithin.mono (Nat.le_refl _) ?_⟩
    rw [SimAttr.length_encode]
    omega

theorem Behind.round (hfew : ¬ TooManyKdf aka encr buf) {s : ℕ × EapSimAttrs}
    (h : Behind aka encr buf s) :
    (∃ s', tryRound (eapSimParseRound buf aka encr) s = .inl s' ∧ Behind aka encr buf s' ∧
      buf.length - s'.1 < buf.length - s.1) ∨
    ∃ r, tryRound (eapSimParseRound buf aka encr) s = .inr r ∧
      ∃ ok attr, r = .ok (ok, attr) ∧ attr.Inside buf := by
  obtain ⟨pos, attr⟩ := s
  obtain ⟨before, rest, rfl, rfl, hbefore, hkdf, hinside⟩ := h
  by_cases hattr : ∃ (a : SimAttr) (rest' : Bytes), rest = a.encode ++ rest'
  · obtain ⟨a, rest', rfl⟩ := hattr
    have hround := @eapSimParseRound_attr aka encr attr
      (before.flatMap SimAttr.encode) rest' a
    have hends := @eapSimAttr_ends aka encr attr a
      ((before.flatMap SimAttr.encode).length + 2)
    generalize eapSimAttr aka encr attr ((before.flatMap SimAttr.encode).length + 2) a.data a.type =
      result at hends hround
    cases hends with
    | fail _ hstores =>
      exact .inr ⟨_, tryRound_of_done hround, false, _, rfl, hinside.attribute hstores⟩
    | next haccepted hstores hlen =>
      refine .inl ⟨_, tryRound_of_next hround, ⟨before ++ [a], rest', ?_, ?_, ?_, ?_,
        hinside.attribute hstores⟩, ?_⟩
      · simp
      · simp
      · intro b hb
        rcases List.mem_append.mp hb with hb | hb
        · exact hbefore b hb
        · rw [List.mem_singleton.mp hb]
          exact haccepted
      · rw [List.countP_append, List.countP_singleton, ← hkdf]
        split_ifs at hlen ⊢ with hk
        · exact hlen.2
        · rw [hlen, Nat.add_zero]
      · simp only [List.length_append, SimAttr.length_encode]
        omega
    | again haccepted hk hfull =>
      exact absurd
        ⟨before, a, rest', rfl, hbefore, haccepted, hk, Nat.le_of_eq (hfull.symm.trans hkdf)⟩ hfew
  · obtain ⟨ok, hround⟩ := @eapSimParseRound_end aka encr attr
      (before.flatMap SimAttr.encode) rest fun a rest' h => hattr ⟨a, rest', h⟩
    exact .inr ⟨_, tryRound_of_done hround, ok, attr, rfl, hinside⟩

theorem eapSimParseAttr_iff (buf : Bytes) (aka encr : ℤ) :
    (∃ ok attr, EapSimParseAttr buf aka encr (.ok (ok, attr)) ∧ attr.Inside buf) ↔
      ¬ TooManyKdf aka encr buf := by
  constructor
  · rintro ⟨ok, attr, hreturns, -⟩ ⟨before, a, rest, rfl, hbefore, ha, hkdf, hcount⟩
    exact not_returns_of_kdfs ha hkdf hbefore [] (by simpa [EapSimAttrs.init] using hcount)
      (by decide) _ hreturns
  · intro hfew
    have hstart : Behind aka encr buf (0, .init) :=
      ⟨[], buf, rfl, rfl, (fun b hb => nomatch hb), rfl, fun t s hs => by cases t <;> cases hs⟩
    obtain ⟨r, hreturns, ok, attr, rfl, hinside⟩ := returns_of_measure (Behind aka encr buf) _
      (fun s => buf.length - s.1) (fun s hs => hs.round hfew) hstart
    exact ⟨ok, attr, hreturns, hinside⟩

end Loop

/-! ## Encrypted attributes -/

section Encrypted

-- `aes_128_cbc_decrypt`, which decrypts in place
variable (decrypt : Bytes → Bytes → (data : Bytes) → Option (Vector UInt8 data.length))

/-- The octets that the encrypted attributes are read from. -/
def decryptedData (kEncr encrData : Bytes) (iv : Option Bytes) : Option Bytes :=
  iv.bind fun iv => (decrypt kEncr iv encrData).map Vector.toList

/-- The parser of the encrypted attributes returns a result: the octets that were decrypted, with
the attributes. Source: `eap_sim_parse_encr`. -/
def EapSimParseEncr (kEncr encrData : Bytes) (iv : Option Bytes) (aka : ℤ)
    (r : Except Stop (Option (Bytes × EapSimAttrs))) : Prop :=
  match decryptedData decrypt kEncr encrData iv with
  | none => r = .ok none
  | some decrypted => ∃ parsed, EapSimParseAttr decrypted aka 1 parsed ∧
      r = parsed.map fun result => if result.1 then some (decrypted, result.2) else none

theorem eapSimParseEncr_iff (kEncr encrData : Bytes) (iv : Option Bytes) (aka : ℤ) :
    (∃ result, EapSimParseEncr decrypt kEncr encrData iv aka (.ok result) ∧
      ∀ decrypted attr, result = some (decrypted, attr) → attr.Inside decrypted) ↔
    ∀ decrypted, decryptedData decrypt kEncr encrData iv = some decrypted →
      ¬ TooManyKdf aka 1 decrypted := by
  unfold EapSimParseEncr
  cases decryptedData decrypt kEncr encrData iv with
  | none =>
    constructor
    · intro _ decrypted h
      cases h
    · intro _
      exact ⟨none, rfl, fun decrypted attr h => nomatch h⟩
  | some decrypted =>
    constructor
    · rintro ⟨result, ⟨parsed, hparsed, hresult⟩, -⟩ _ ⟨⟩ hmany
      obtain ⟨before, a, rest, rfl, hbefore, ha, hkdf, hcount⟩ := hmany
      exact not_returns_of_kdfs ha hkdf hbefore [] (by simpa [EapSimAttrs.init] using hcount)
        (by decide) _ hparsed
    · intro h
      obtain ⟨ok, attr, hreturns, hinside⟩ := (eapSimParseAttr_iff decrypted aka 1).mpr (h _ rfl)
      refine ⟨_, ⟨_, hreturns, rfl⟩, ?_⟩
      intro decrypted' attr' heq
      cases ok with
      | false => cases heq
      | true =>
        cases heq
        exact hinside

/-- **Attributes are parsed in bounds**, those of a message and those that are encrypted in it,
exactly if there is no AT_KDF after ten of them. -/
theorem eap_sim_attrs :
    (∀ buf aka encr, (∃ ok attr, EapSimParseAttr buf aka encr (.ok (ok, attr)) ∧ attr.Inside buf) ↔
      ¬ TooManyKdf aka encr buf) ∧
    ∀ kEncr encrData iv aka, (∃ result, EapSimParseEncr decrypt kEncr encrData iv aka (.ok result) ∧
        ∀ decrypted attr, result = some (decrypted, attr) → attr.Inside decrypted) ↔
      ∀ decrypted, decryptedData decrypt kEncr encrData iv = some decrypted →
        ¬ TooManyKdf aka 1 decrypted :=
  ⟨eapSimParseAttr_iff, eapSimParseEncr_iff decrypt⟩

/-- AT_KDF with the key derivation function of EAP-AKA'. -/
def kdfAttr : SimAttr where
  type := 24
  words := 1
  data := [0, 1]
  fits := rfl

theorem eleven_kdfs_never_parsed :
    ¬ ∃ r, EapSimParseAttr ((List.replicate 11 kdfAttr).flatMap SimAttr.encode) 2 0 r := by
  rintro ⟨r, hreturns⟩
  have htaken : kdfAttr.Accepted 2 0 := ⟨{ EapSimAttrs.init with kdf := [1] }, by decide⟩
  have hbefore : ∀ b ∈ List.replicate 10 kdfAttr, b.Accepted 2 0 := by
    intro b hb
    rwa [List.eq_of_mem_replicate hb]
  exact @not_returns_of_kdfs 2 0 _ [] _ htaken rfl _ hbefore [] (by decide) (by decide) r hreturns

end Encrypted

end Hostapd.EapCommon
