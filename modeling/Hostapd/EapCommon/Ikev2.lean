import Hostapd.Common.Defs
import Hostapd.Lib.Checked
import Hostapd.Lib.Loop
import Hostapd.Lib.Span

/-!
# Payloads of IKEv2

The parser of the payloads of a message (`ikev2_common.c`), and those of the proposals and transforms
in an SA payload (`eap_peer/ikev2.c`). A pointer into a message is an offset here, and the `end` of a
parser the end of the string that it is given.

* **`payloadRound`** is one round of `ikev2_parse_payloads`. A header for which there is no room is
  reported, and then read all the same.
* **`saRound`** is one round over the proposals. `processSai1_returns`: this loop ends and stays
  inside the SA payload, as do the transforms inside their proposal.
-/

namespace Hostapd.EapCommon

open Hostapd.Lib

/-! ## Payloads -/

/-- The types of payloads that are known. Source: `IKEV2_PAYLOAD_*`. -/
inductive Ikev2Payload
  | sa | keyExchange | idi | idr | certificate | authentication | nonce | notification | encrypted
  deriving DecidableEq

def Ikev2Payload.ofCode (code : UInt8) : Option Ikev2Payload :=
  match code.toNat with
  | 33 => some .sa
  | 34 => some .keyExchange
  | 35 => some .idi
  | 36 => some .idr
  | 37 => some .certificate
  | 39 => some .authentication
  | 40 => some .nonce
  | 41 => some .notification
  | 46 => some .encrypted
  | _ => none

/-- Source: `IKEV2_PAYLOAD_NO_NEXT_PAYLOAD`. -/
def noNextPayload : UInt8 := 0

/-- Source: `IKEV2_PAYLOAD_ENCRYPTED`. -/
def payloadEncrypted : UInt8 := 46

/-- Source: `IKEV2_PAYLOAD_FLAGS_CRITICAL`. -/
def payloadFlagsCritical : UInt8 := 0x01

/-- The parsed payloads. Source: `struct ikev2_payloads`. -/
structure Ikev2Payloads where
  sa : Option Span
  ke : Option Span
  idi : Option Span
  idr : Option Span
  cert : Option Span
  auth : Option Span
  nonce : Option Span
  encrypted : Option Span
  encrNextPayload : UInt8
  notification : Option Span
  deriving DecidableEq

def Ikev2Payloads.zero : Ikev2Payloads where
  sa := none
  ke := none
  idi := none
  idr := none
  cert := none
  auth := none
  nonce := none
  encrypted := none
  encrNextPayload := 0
  notification := none

def Ikev2Payloads.stored (payloads : Ikev2Payloads) : Ikev2Payload → Option Span
  | .sa => payloads.sa
  | .keyExchange => payloads.ke
  | .idi => payloads.idi
  | .idr => payloads.idr
  | .certificate => payloads.cert
  | .authentication => payloads.auth
  | .nonce => payloads.nonce
  | .notification => payloads.notification
  | .encrypted => payloads.encrypted

/-- The cases of the switch of `ikev2_parse_payloads`. -/
def Ikev2Payloads.store (payloads : Ikev2Payloads) (span : Span) : Ikev2Payload → Ikev2Payloads
  | .sa => { payloads with sa := span }
  | .keyExchange => { payloads with ke := span }
  | .idi => { payloads with idi := span }
  | .idr => { payloads with idr := span }
  | .certificate => { payloads with cert := span }
  | .authentication => { payloads with auth := span }
  | .nonce => { payloads with nonce := span }
  | .notification => { payloads with notification := span }
  | .encrypted => { payloads with encrypted := span }

theorem stored_store (payloads : Ikev2Payloads) (span : Span) (type t : Ikev2Payload) :
    (payloads.store span type).stored t = if t = type then some span else payloads.stored t := by
  cases type <;> cases t <;> rfl

def Ikev2Payloads.Inside (payloads : Ikev2Payloads) (len : ℕ) : Prop :=
  ∀ type, ∀ span ∈ payloads.stored type, span.Within 0 len

structure PayloadState where
  nextPayload : UInt8
  pos : ℕ
  payloads : Ikev2Payloads
  deriving DecidableEq

/-- One round of the loop, and what stands behind the loop; `false` is the result -1.
Source: `ikev2_parse_payloads`. -/
def payloadRound (data : Bytes) (s : PayloadState) :
    Except Stop (PayloadState ⊕ (Ikev2Payloads × Bool)) :=
  if s.nextPayload = noNextPayload then
    return .inr (s.payloads, decide (s.pos = data.length))
  else do
    -- a message that is too short for the header is only reported
    let plen ← rdBe16 data (s.pos + 2)
    if plen < 4 ∨ data.length < s.pos + plen then return .inr (s.payloads, false)
    else do
      let nextPayload ← rd8 data s.pos
      let flags ← rd8 data (s.pos + 1)
      match Ikev2Payload.ofCode s.nextPayload with
      | none =>
        if flags &&& payloadFlagsCritical ≠ 0 then return .inr (s.payloads, false)
        else return .inl ⟨nextPayload, s.pos + plen, s.payloads⟩
      | some type =>
        let payloads := s.payloads.store ⟨s.pos + 4, plen - 4⟩ type
        if type = .encrypted ∧ s.pos + plen = data.length then
          return .inl ⟨noNextPayload, s.pos + plen, { payloads with encrNextPayload := nextPayload }⟩
        else return .inl ⟨nextPayload, s.pos + plen, payloads⟩

/-- The parser returns `r`. Source: `ikev2_parse_payloads`. -/
def ParsesPayloads (nextPayload : UInt8) (data : Bytes)
    (r : Except Stop (Ikev2Payloads × Bool)) : Prop :=
  Returns (tryRound (payloadRound data)) ⟨nextPayload, 0, .zero⟩ r

/-- The chain of payloads breaks off inside a header: behind payloads that the parser takes another
one is announced, for whose header there is no room. -/
def dangles (nextPayload : UInt8) (rest : Bytes) : Bool :=
  if nextPayload = noNextPayload then false
  else if rest.length < 4 then true
  else
    let plen := be16 (rest.drop 2)
    if plen < 4 ∨ rest.length < plen then false
    else
      match Ikev2Payload.ofCode nextPayload with
      | none =>
        if rest.getD 1 0 &&& payloadFlagsCritical ≠ 0 then false
        else dangles (rest.getD 0 0) (rest.drop plen)
      | some type =>
        if type = .encrypted ∧ plen = rest.length then false
        else dangles (rest.getD 0 0) (rest.drop plen)
termination_by rest.length
decreasing_by all_goals (simp only [List.length_drop]; omega)

def PayloadsEnd (data : Bytes) (broken : Bool) (r : Except Stop (Ikev2Payloads × Bool)) : Prop :=
  if broken then r = .error .outside
  else ∃ payloads ok, r = .ok (payloads, ok) ∧ payloads.Inside data.length

theorem inside_store {payloads : Ikev2Payloads} {len pos n : ℕ} (h : payloads.Inside len)
    (hn : pos + n ≤ len) (type : Ikev2Payload) : (payloads.store ⟨pos, n⟩ type).Inside len := by
  intro t span hspan
  rw [stored_store] at hspan
  split_ifs at hspan with heq
  · obtain rfl : (⟨pos, n⟩ : Span) = span := Option.some.inj hspan
    exact ⟨Nat.zero_le _, hn⟩
  · exact h t span hspan

section Chain

variable {nextPayload : UInt8} {rest : Bytes}

theorem dangles_done : dangles noNextPayload rest = false := by
  rw [dangles, if_pos rfl]

theorem dangles_short (hnext : nextPayload ≠ noNextPayload) (hshort : rest.length < 4) :
    dangles nextPayload rest = true := by
  rw [dangles, if_neg hnext, if_pos hshort]

theorem dangles_invalid (hnext : nextPayload ≠ noNextPayload) (hroom : ¬ rest.length < 4)
    (hlen : be16 (rest.drop 2) < 4 ∨ rest.length < be16 (rest.drop 2)) :
    dangles nextPayload rest = false := by
  rw [dangles, if_neg hnext, if_neg hroom]
  exact if_pos hlen

theorem dangles_valid (hnext : nextPayload ≠ noNextPayload) (hroom : ¬ rest.length < 4)
    (hlen : ¬ (be16 (rest.drop 2) < 4 ∨ rest.length < be16 (rest.drop 2))) :
    dangles nextPayload rest =
      match Ikev2Payload.ofCode nextPayload with
      | none =>
        if rest.getD 1 0 &&& payloadFlagsCritical ≠ 0 then false
        else dangles (rest.getD 0 0) (rest.drop (be16 (rest.drop 2)))
      | some type =>
        if type = .encrypted ∧ be16 (rest.drop 2) = rest.length then false
        else dangles (rest.getD 0 0) (rest.drop (be16 (rest.drop 2))) := by
  rw [dangles, if_neg hnext, if_neg hroom]
  exact if_neg hlen

end Chain

theorem payloadRound_valid {data : Bytes} {nextPayload : UInt8} {pos : ℕ}
    {payloads : Ikev2Payloads} (hnext : nextPayload ≠ noNextPayload)
    (hroom : pos + 4 ≤ data.length)
    (hlen : ¬ (be16 (data.drop (pos + 2)) < 4 ∨
      data.length < pos + be16 (data.drop (pos + 2)))) :
    payloadRound data ⟨nextPayload, pos, payloads⟩ =
      match Ikev2Payload.ofCode nextPayload with
      | none =>
        if data.getD (pos + 1) 0 &&& payloadFlagsCritical ≠ 0 then .ok (.inr (payloads, false))
        else .ok (.inl ⟨data.getD pos 0, pos + be16 (data.drop (pos + 2)), payloads⟩)
      | some type =>
        if type = .encrypted ∧ pos + be16 (data.drop (pos + 2)) = data.length then
          .ok (.inl ⟨noNextPayload, pos + be16 (data.drop (pos + 2)),
            { payloads.store ⟨pos + 4, be16 (data.drop (pos + 2)) - 4⟩ type with
              encrNextPayload := data.getD pos 0 }⟩)
        else .ok (.inl ⟨data.getD pos 0, pos + be16 (data.drop (pos + 2)),
          payloads.store ⟨pos + 4, be16 (data.drop (pos + 2)) - 4⟩ type⟩) := by
  have hread := rdBe16_of (d := data) (i := pos + 2) (by omega)
  have hread0 := rd8_getD (d := data) (i := pos) (by omega)
  have hread1 := rd8_getD (d := data) (i := pos + 1) (by omega)
  simp only [payloadRound, if_neg hnext, hread, hread0, hread1, ok_bind, if_neg hlen]
  rfl

theorem payloadRound_spec {data : Bytes} {s : PayloadState} (hpos : s.pos ≤ data.length)
    (hin : s.payloads.Inside data.length) :
    (∃ s', tryRound (payloadRound data) s = .inl s' ∧ s'.pos ≤ data.length ∧
        s'.payloads.Inside data.length ∧
        dangles s'.nextPayload (data.drop s'.pos) = dangles s.nextPayload (data.drop s.pos) ∧
        s.pos < s'.pos) ∨
      ∃ r, tryRound (payloadRound data) s = .inr r ∧
        PayloadsEnd data (dangles s.nextPayload (data.drop s.pos)) r := by
  obtain ⟨nextPayload, pos, payloads⟩ := s
  dsimp only at hpos hin ⊢
  have hrest : (data.drop pos).length = data.length - pos := List.length_drop
  have hdrop : (data.drop pos).drop 2 = data.drop (pos + 2) := List.drop_drop
  have hget : ∀ i, (data.drop pos).getD i 0 = data.getD (pos + i) 0 := by
    intro i
    simp [List.getD_eq_getElem?_getD]
  have hrefused : ∀ ok, PayloadsEnd data false (.ok (payloads, ok)) :=
    fun ok => ⟨payloads, ok, rfl, hin⟩
  by_cases hnext : nextPayload = noNextPayload
  · subst hnext
    refine .inr ⟨.ok (payloads, decide (pos = data.length)), tryRound_of_done ?_, ?_⟩
    · simp [payloadRound, pure, Except.pure]
    · rw [dangles_done]
      exact hrefused _
  by_cases hroom : (data.drop pos).length < 4
  · refine .inr ⟨.error .outside, tryRound_of_error ?_, ?_⟩
    · have hread := rdBe16_outside (d := data) (i := pos + 2) (by omega)
      simp only [payloadRound, if_neg hnext, hread]
      rfl
    · rw [dangles_short hnext hroom]
      rfl
  have hread := rdBe16_of (d := data) (i := pos + 2) (by omega)
  by_cases hlen : be16 (data.drop (pos + 2)) < 4 ∨
      data.length < pos + be16 (data.drop (pos + 2))
  · refine .inr ⟨.ok (payloads, false), tryRound_of_done ?_, ?_⟩
    · simp only [payloadRound, if_neg hnext, hread, ok_bind, if_pos hlen]
      rfl
    · rw [dangles_invalid hnext hroom (by rw [hdrop]; omega)]
      exact hrefused _
  have hlen' : ¬ (be16 ((data.drop pos).drop 2) < 4 ∨
      (data.drop pos).length < be16 ((data.drop pos).drop 2)) := by
    rw [hdrop]
    omega
  have hchain := dangles_valid hnext hroom hlen'
  have hnextPos : (data.drop pos).drop (be16 (data.drop (pos + 2))) =
      data.drop (pos + be16 (data.drop (pos + 2))) := List.drop_drop
  rw [hdrop, hget, hget, hnextPos, Nat.add_zero] at hchain
  have hround := @payloadRound_valid data nextPayload pos payloads hnext (by omega) hlen
  generalize be16 (data.drop (pos + 2)) = plen at hchain hround hlen
  have hplen : 4 ≤ plen ∧ pos + plen ≤ data.length := by omega
  cases htype : Ikev2Payload.ofCode nextPayload with
  | none =>
    rw [htype] at hchain hround
    dsimp only at hchain hround
    by_cases hcritical : data.getD (pos + 1) 0 &&& payloadFlagsCritical ≠ 0
    · rw [if_pos hcritical] at hchain hround
      refine .inr ⟨_, tryRound_of_done hround, ?_⟩
      rw [hchain]
      exact hrefused false
    · rw [if_neg hcritical] at hchain hround
      exact .inl ⟨_, tryRound_of_next hround, hplen.2, hin, hchain.symm,
        Nat.lt_add_of_pos_right (by omega)⟩
  | some type =>
    rw [htype] at hchain hround
    dsimp only at hchain hround
    have hstore := @inside_store _ _ (pos + 4) (plen - 4) hin (by omega) type
    by_cases hlast : type = .encrypted ∧ pos + plen = data.length
    · have hlast' : type = .encrypted ∧ plen = (data.drop pos).length := ⟨hlast.1, by omega⟩
      rw [if_pos hlast'] at hchain
      rw [if_pos hlast] at hround
      refine .inl ⟨_, tryRound_of_next hround, hplen.2, ?_, ?_,
        Nat.lt_add_of_pos_right (by omega)⟩
      · intro t
        have hsame := hstore t
        cases t <;> exact hsame
      · rw [hchain]
        exact dangles_done
    · have hlast' : ¬ (type = .encrypted ∧ plen = (data.drop pos).length) := by
        rintro ⟨htype, heq⟩
        exact hlast ⟨htype, by omega⟩
      rw [if_neg hlast'] at hchain
      rw [if_neg hlast] at hround
      exact .inl ⟨_, tryRound_of_next hround, hplen.2, hstore, hchain.symm,
        Nat.lt_add_of_pos_right (by omega)⟩

/-- **The parser of payloads** ends for every message, and reads outside it exactly if the chain
breaks off inside a header. Otherwise all it stores lies inside. -/
theorem parsePayloads_returns (nextPayload : UInt8) (data : Bytes) :
    ∃ r, ParsesPayloads nextPayload data r ∧ PayloadsEnd data (dangles nextPayload data) r := by
  refine returns_of_measure
    (fun s => s.pos ≤ data.length ∧ s.payloads.Inside data.length ∧
      dangles s.nextPayload (data.drop s.pos) = dangles nextPayload data)
    _ (fun s => data.length - s.pos) ?_ ⟨Nat.zero_le _, ?_, by rw [List.drop_zero]⟩
  · rintro s ⟨hpos, hin, hchain⟩
    rcases payloadRound_spec hpos hin with ⟨s', hnext, hpos', hin', hchain', hlt⟩ | ⟨r, hdone, hr⟩
    · exact .inl ⟨s', hnext, ⟨hpos', hin', hchain'.trans hchain⟩, by omega⟩
    · rw [hchain] at hr
      exact .inr ⟨r, hdone, hr⟩
  · intro type span hspan
    cases type <;> cases hspan

/-! ## Algorithms -/

/-- An algorithm with the lengths of its key and of its block or hash. Source:
`struct ikev2_integ_alg`, `struct ikev2_prf_alg`, `struct ikev2_encr_alg`. -/
structure Ikev2Alg where
  id : ℕ
  keyLen : ℕ
  len : ℕ
  deriving DecidableEq

/-- Source: `ENCR_3DES`, `ENCR_AES_CBC`, `AUTH_HMAC_MD5_96`, `AUTH_HMAC_SHA1_96`. -/
def encr3des : ℕ := 3
def encrAesCbc : ℕ := 12
def authHmacMd596 : ℕ := 1
def authHmacSha196 : ℕ := 2

/-- Source: `ikev2_get_integ`, over `ikev2_integ_algs`. -/
def ikev2GetInteg (id : ℕ) : Option Ikev2Alg :=
  [⟨authHmacSha196, 20, 12⟩, ⟨authHmacMd596, 16, 12⟩].find? fun alg : Ikev2Alg => alg.id = id

/-- Source: `ikev2_get_prf`, over `ikev2_prf_algs`. -/
def ikev2GetPrf (id : ℕ) : Option Ikev2Alg :=
  [⟨2, 20, 20⟩, ⟨1, 16, 16⟩].find? fun alg : Ikev2Alg => alg.id = id

/-- Source: `ikev2_get_encr`, over `ikev2_encr_algs`. -/
def ikev2GetEncr (id : ℕ) : Option Ikev2Alg :=
  [⟨encrAesCbc, 16, 16⟩, ⟨encr3des, 24, 8⟩].find? fun alg : Ikev2Alg => alg.id = id

/-! ## Proposals -/

/-- What a proposal has chosen so far; `none` is -1. Source: `struct ikev2_proposal_data`. -/
structure ProposalData where
  proposalNum : ℕ
  integ : Option ℕ
  prf : Option ℕ
  encr : Option ℕ
  dh : Option ℕ
  deriving DecidableEq

/-- A transform for encryption; AES comes with the attribute for a key of 128 bits. `pos` is behind
the header of the transform, and `data` ends with it. -/
def takeEncr (data : Bytes) (pos id : ℕ) (prop : ProposalData) : Except Stop ProposalData :=
  if (ikev2GetEncr id).isNone then return prop
  else if id = encrAesCbc then
    if data.length - pos ≠ 4 then return prop
    else do
      let attr ← rdBe16 data pos
      if attr ≠ 0x800e then return prop
      else do
        let bits ← rdBe16 data (pos + 2)
        if bits ≠ 128 then return prop else return { prop with encr := id }
  else return { prop with encr := id }

/-- The cases of the switch of `ikev2_parse_transform`; `groups` are the ids in the table of
Diffie-Hellman groups. -/
def takeTransform (groups : List ℕ) (data : Bytes) (pos : ℕ) (type : UInt8) (id : ℕ)
    (prop : ProposalData) : Except Stop ProposalData :=
  match type.toNat with
  | 1 => takeEncr data pos id prop
  | 2 => return if (ikev2GetPrf id).isSome then { prop with prf := id } else prop
  | 3 => return if (ikev2GetInteg id).isSome then { prop with integ := id } else prop
  | 4 => return if id ∈ groups then { prop with dh := id } else prop
  | _ => return prop

/-- `end` is the end of `data`; `none` is the result -1. Source: `ikev2_parse_transform`. -/
def parseTransform (groups : List ℕ) (data : Bytes) (pos : ℕ) (prop : ProposalData) :
    Except Stop (Option (ℕ × ProposalData)) :=
  if data.length - pos < 8 then return none
  else do
    let len ← rdBe16 data (pos + 2)
    if len < 8 ∨ data.length < pos + len then return none
    else do
      let id ← rdBe16 data (pos + 6)
      let type ← rd8 data pos
      if type ≠ 0 ∧ type ≠ 3 then return none
      else do
        -- the attributes go into a debug message
        let _ ← rdSlice data (pos + 8) (pos + len)
        let transformType ← rd8 data (pos + 4)
        let prop ← takeTransform groups (data.take (pos + len)) (pos + 8) transformType id prop
        return some (len, prop)

def parseTransforms (groups : List ℕ) (data : Bytes) :
    ℕ → ℕ → ProposalData → Except Stop (Option (ℕ × ProposalData))
  | 0, pos, prop => return some (pos, prop)
  | n + 1, pos, prop => do
    let r ← parseTransform groups data pos prop
    match r with
    | none => return none
    | some (len, prop) => parseTransforms groups data n (pos + len) prop

/-- The number of a proposal is the one before or the next one. -/
def ProposalData.number (prop : ProposalData) (num : ℕ) : Option ProposalData :=
  if num = prop.proposalNum then some prop
  else if num = prop.proposalNum + 1 then some { prop with proposalNum := num }
  else none

/-- `end` is the end of `data`; `none` is the result -1. Source: `ikev2_parse_proposal`. -/
def parseProposal (groups : List ℕ) (data : Bytes) (pos : ℕ) (prop : ProposalData) :
    Except Stop (Option (ℕ × ProposalData)) :=
  if data.length - pos < 8 then return none
  else do
    let len ← rdBe16 data (pos + 2)
    if len < 8 ∨ data.length < pos + len then return none
    else do
      let type ← rd8 data pos
      let num ← rd8 data (pos + 4)
      let protocolId ← rd8 data (pos + 5)
      let spiSize ← rd8 data (pos + 6)
      let numTransforms ← rd8 data (pos + 7)
      if type ≠ 0 ∧ type ≠ 2 then return none
      else if protocolId ≠ 1 then return none
      else
        match prop.number num.toNat with
        | none => return none
        | some prop =>
          if pos + len < pos + 8 + spiSize.toNat then return none
          else do
            -- the SPI goes into a debug message
            let _ ← rdSlice data (pos + 8) (pos + 8 + spiSize.toNat)
            if spiSize ≠ 0 then return none
            else if numTransforms = 0 then return none
            else do
              let r ← parseTransforms groups (data.take (pos + len)) numTransforms.toNat (pos + 8)
                prop
              match r with
              | none => return none
              | some (ppos, prop) =>
                if ppos ≠ pos + len then return none else return some (len, prop)

/-- Where the loop over the proposals is, and the proposal that was found. -/
structure SaState where
  pos : ℕ
  proposalNum : ℕ
  found : Option ProposalData
  deriving DecidableEq

def ProposalData.complete (prop : ProposalData) : Bool :=
  prop.integ.isSome && prop.prf.isSome && prop.encr.isSome && prop.dh.isSome

/-- One round of the loop over the proposals, and what stands behind the loop; `none` is the result
-1. Source: `ikev2_process_sai1`. -/
def saRound (groups : List ℕ) (sai1 : Bytes) (s : SaState) :
    Except Stop (SaState ⊕ Option ProposalData) :=
  if s.pos < sai1.length then do
    let r ← parseProposal groups sai1 s.pos ⟨s.proposalNum, none, none, none, none⟩
    match r with
    | none => return .inr none
    | some (len, prop) =>
      return .inl ⟨s.pos + len, prop.proposalNum,
        if s.found.isNone && prop.complete then some prop else s.found⟩
  else if s.pos ≠ sai1.length then return .inr none
  else return .inr s.found

/-- The parser of an SA payload returns `r`. Source: `ikev2_process_sai1`. -/
def ProcessesSai1 (groups : List ℕ) (sai1 : Bytes) (r : Except Stop (Option ProposalData)) : Prop :=
  Returns (tryRound (saRound groups sai1)) ⟨0, 1, none⟩ r

section Proposals

variable {groups : List ℕ} {data : Bytes}

theorem takeEncr_safe (pos id : ℕ) (prop : ProposalData) :
    Safe (takeEncr data pos id prop) fun _ => True := by
  unfold takeEncr
  split_ifs with hget haes hlen
  · trivial
  · trivial
  · refine .bind (.rdBe16 (by omega)) fun attr _ => ?_
    split_ifs
    · trivial
    · refine .bind (.rdBe16 (by omega)) fun bits _ => ?_
      split_ifs <;> trivial
  · trivial

theorem takeTransform_safe (pos : ℕ) (type : UInt8) (id : ℕ) (prop : ProposalData) :
    Safe (takeTransform groups data pos type id prop) fun _ => True := by
  unfold takeTransform
  split
  · exact takeEncr_safe pos id prop
  all_goals trivial

theorem parseTransform_safe (pos : ℕ) (prop : ProposalData) :
    Safe (parseTransform groups data pos prop) fun r =>
      ∀ len prop', r = some (len, prop') → 8 ≤ len ∧ pos + len ≤ data.length := by
  unfold parseTransform
  split_ifs with hshort
  · exact Safe.pure (by simp)
  refine .bind (.rdBe16 (by omega)) fun len _ => ?_
  split_ifs with hlen
  · exact Safe.pure (by simp)
  refine .bind (.rdBe16 (by omega)) fun id _ => .bind (.rd8 (by omega)) fun type _ => ?_
  split_ifs
  · exact Safe.pure (by simp)
  refine .bind (.rdSlice (by omega) (by omega)) fun _ _ => .bind (.rd8 (by omega)) fun _ _ =>
    .bind (takeTransform_safe _ _ _ _) fun prop' _ => Safe.pure ?_
  rintro n p heq
  obtain ⟨rfl, rfl⟩ := Prod.mk.inj (Option.some.inj heq)
  omega

theorem parseTransforms_safe (n pos : ℕ) (prop : ProposalData) :
    Safe (parseTransforms groups data n pos prop) fun _ => True := by
  induction n generalizing pos prop with
  | zero => trivial
  | succ n ih =>
    refine .bind (parseTransform_safe pos prop) fun r _ => ?_
    cases r with
    | none => trivial
    | some x => exact ih _ _

theorem parseProposal_safe (pos : ℕ) (prop : ProposalData) :
    Safe (parseProposal groups data pos prop) fun r =>
      ∀ len prop', r = some (len, prop') → 8 ≤ len ∧ pos + len ≤ data.length := by
  unfold parseProposal
  split_ifs with hshort
  · exact Safe.pure (by simp)
  refine .bind (.rdBe16 (by omega)) fun len _ => ?_
  split_ifs with hlen
  · exact Safe.pure (by simp)
  refine .bind (.rd8 (by omega)) fun type _ => .bind (.rd8 (by omega)) fun num _ =>
    .bind (.rd8 (by omega)) fun protocolId _ => .bind (.rd8 (by omega)) fun spiSize _ =>
    .bind (.rd8 (by omega)) fun numTransforms _ => ?_
  by_cases htype : type ≠ 0 ∧ type ≠ 2
  · rw [if_pos htype]
    exact Safe.pure (by simp)
  rw [if_neg htype]
  by_cases hprotocol : protocolId ≠ 1
  · rw [if_pos hprotocol]
    exact Safe.pure (by simp)
  rw [if_neg hprotocol]
  cases prop.number num.toNat with
  | none => exact Safe.pure (by simp)
  | some prop =>
    dsimp only
    by_cases hspi : pos + len < pos + 8 + spiSize.toNat
    · rw [if_pos hspi]
      exact Safe.pure (by simp)
    rw [if_neg hspi]
    refine .bind (.rdSlice (by omega) (by omega)) fun _ _ => ?_
    split_ifs
    · exact Safe.pure (by simp)
    · exact Safe.pure (by simp)
    refine .bind (parseTransforms_safe _ _ _) fun r _ => ?_
    cases r with
    | none => exact Safe.pure (by simp)
    | some x =>
      dsimp only
      split_ifs
      · exact Safe.pure (by simp)
      · refine Safe.pure ?_
        rintro n p heq
        obtain ⟨rfl, rfl⟩ := Prod.mk.inj (Option.some.inj heq)
        omega

end Proposals

/-- **The parser of an SA payload** ends, and never reads outside the payload. -/
theorem processSai1_returns (groups : List ℕ) (sai1 : Bytes) :
    ∃ r, ProcessesSai1 groups sai1 r ∧ r ≠ .error .outside := by
  refine returns_of_measure (fun _ => True) _ (fun s => sai1.length - s.pos) ?_ trivial
  rintro ⟨pos, proposalNum, found⟩ -
  by_cases hmore : pos < sai1.length
  · have hsafe := @parseProposal_safe groups sai1 pos
      ⟨proposalNum, none, none, none, none⟩
    cases hparse : parseProposal groups sai1 pos ⟨proposalNum, none, none, none, none⟩ with
    | error stop =>
      rw [hparse] at hsafe
      refine .inr ⟨.error stop, tryRound_of_error ?_, ?_⟩
      · simp only [saRound, if_pos hmore, hparse]
        rfl
      · intro heq
        rw [Except.error.inj heq] at hsafe
        exact Stop.noConfusion hsafe
    | ok r =>
      rw [hparse] at hsafe
      cases r with
      | none =>
        refine .inr ⟨.ok none, tryRound_of_done ?_, nofun⟩
        simp only [saRound, if_pos hmore, hparse]
        rfl
      | some x =>
        obtain ⟨len, prop⟩ := x
        obtain ⟨hlen, hend⟩ := hsafe len prop rfl
        refine .inl ⟨⟨pos + len, prop.proposalNum,
          if found.isNone && prop.complete then some prop else found⟩, tryRound_of_next ?_,
          trivial, ?_⟩
        · simp only [saRound, if_pos hmore, hparse]
          rfl
        · dsimp only
          omega
  · by_cases hend : pos ≠ sai1.length
    · refine .inr ⟨.ok none, tryRound_of_done ?_, nofun⟩
      simp only [saRound, if_neg hmore, if_pos hend]
      rfl
    · refine .inr ⟨.ok found, tryRound_of_done ?_, nofun⟩
      simp only [saRound, if_neg hmore, if_neg hend]
      rfl

end Hostapd.EapCommon
