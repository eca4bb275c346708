import Hostapd.P2p.Sd

/-!
# The frames of service discovery

* **`rxAction_safe`**: no handler reads outside the frame it is given, whatever the frame holds, and
  a reassembly buffer that is short enough stays so. `Bounded` is what is said of the buffer.
* **`rxActions_bounded`**: so it is for any frames, one after the other.
-/

namespace Hostapd.P2p.Sd

open Hostapd.Lib

/-! ## Bounds -/

section Safety

variable {d : Bytes} {pos fin : ℕ}

theorem readAdvProto_safe (h : pos + 2 ≤ d.length) :
    Safe (readAdvProto d pos) fun next => next ≤ d.length := by
  refine .bind (.rd8 (by omega)) fun _ _ => .bind .need fun _ _ => ?_
  refine .bind (.rd8 (by omega)) fun slen _ => .bind .need fun _ hnext => ?_
  refine .bind (.rd8 (by omega)) fun _ _ => .bind .need fun _ _ => ?_
  exact hnext.1

theorem readQueryLen_safe :
    Safe (readQueryLen d pos) fun r => r.1 ≤ r.2 ∧ r.2 ≤ d.length := by
  refine .bind .need fun _ hpos => .bind (.rdLe16 hpos) fun slen _ => .bind .need fun _ hfin => ?_
  exact ⟨Nat.le_add_right _ _, hfin⟩

theorem readNqpHeader_safe (whole : Bool) (hfin : fin ≤ d.length) :
    Safe (readNqpHeader whole d pos fin) fun r => r.2 ≤ fin := by
  refine .bind .need fun _ hpos => .bind (.rdLe16 (by omega)) fun _ _ => .bind .need fun _ _ => ?_
  refine .bind (.rdLe16 (by omega)) fun slen _ => .bind .need fun _ hlen => ?_
  have h4 : pos + 4 + 4 ≤ fin := by
    cases whole <;> simp at hlen <;> omega
  refine .bind (.rdBe24 (by omega)) fun _ _ => .bind .need fun _ _ => ?_
  refine .bind (.rd8 (by omega)) fun _ _ => .bind .need fun _ _ => .bind .need fun _ hind => ?_
  exact .bind (.rdLe16 (by omega)) fun _ _ => hind

theorem readInitialReq_safe : Safe (readInitialReq d) fun _ => True := by
  refine .bind .need fun _ hlen => .bind (.rd8 (by omega)) fun _ _ => ?_
  refine .bind (readAdvProto_safe (by omega)) fun next _ => ?_
  refine .bind readQueryLen_safe fun r hr => ?_
  refine .bind (readNqpHeader_safe true hr.2) fun r' hr' => ?_
  exact .bind (.rdSlice hr' hr.2) fun _ _ => trivial

theorem readInitialResp_safe : Safe (readInitialResp d) fun _ => True := by
  refine .bind .need fun _ hlen => .bind (.rd8 (by omega)) fun _ _ => ?_
  refine .bind (.rdLe16 (by omega)) fun _ _ => .bind (.rdLe16 (by omega)) fun delay _ => ?_
  refine .bind .need fun _ _ => .bind (readAdvProto_safe (by omega)) fun next _ => ?_
  refine .bind readQueryLen_safe fun r hr => ?_
  dsimp only
  split_ifs
  · trivial
  · refine .bind (readNqpHeader_safe true hr.2) fun r' hr' => ?_
    exact .bind (.rdSlice hr' hr.2) fun _ _ => trivial

theorem readComebackResp_safe (pending : Bool) :
    Safe (readComebackResp pending d) fun resp => resp.data.length ≤ d.length := by
  refine .bind .need fun _ hlen => .bind (.rd8 (by omega)) fun _ _ => ?_
  refine .bind (.rdLe16 (by omega)) fun _ _ => .bind (.rd8 (by omega)) fun _ _ => ?_
  refine .bind (.rdLe16 (by omega)) fun _ _ => .bind .need fun _ _ => ?_
  refine .bind (readAdvProto_safe (by omega)) fun next _ => .bind readQueryLen_safe fun r hr => ?_
  refine .bind .need fun _ _ => ?_
  have hle : r.2 ≤ d.length := hr.2
  split_ifs
  · refine .bind (.rdSlice hr.1 hle) fun data hdata => ?_
    change data.length ≤ d.length
    omega
  · refine .bind (readNqpHeader_safe false hle) fun r' hr' => ?_
    refine .bind (.rdSlice hr' hle) fun data hdata => ?_
    change data.length ≤ d.length
    omega

end Safety

/-! ## The reassembly buffer -/

def rxLength (p2p : SdData) : ℕ := (p2p.sdRxResp.getD []).length

/-- A call has kept the reassembly buffer short: afterwards it holds no more than the limit, and in
between no more than that and what the frame of `n` octets has. -/
structure Bounded (n : ℕ) (r : SdResult) : Prop where
  rest : rxLength r.1 ≤ maxReassembly
  peak : ∀ len, .reassemblyLength len ∈ r.2 → len ≤ maxReassembly + n

section Buffer

variable {p2p : SdData} {sa : MacAddr} {d : Bytes} {n : ℕ}

theorem Bounded.same {q : SdData} {out : List SdOutput} (h : rxLength p2p ≤ maxReassembly)
    (hq : q.sdRxResp = p2p.sdRxResp) (hout : ∀ len, .reassemblyLength len ∉ out) :
    Bounded n (q, out) where
  rest := by rwa [rxLength, hq]
  peak len hlen := absurd hlen (hout len)

theorem received_safe {α : Type} {x : Except Stop α} {Q : α → Prop} (hx : Safe x Q)
    {out : List SdOutput} (hout : ∀ len, .reassemblyLength len ∉ out) {f : α → SdResult}
    (hp : rxLength p2p ≤ maxReassembly) (hf : ∀ a, Q a → Bounded n (f a)) :
    Safe (received x p2p out f) (Bounded n) := by
  unfold received
  cases x with
  | ok a =>
    have ha := hf a hx
    refine .pure ⟨ha.rest, fun len hlen => ?_⟩
    rcases List.mem_append.mp hlen with h | h
    · exact absurd h (hout len)
    · exact ha.peak len h
  | error stop =>
    have hstop : stop = .dropped := hx
    subst hstop
    exact .pure (.same hp rfl hout)

theorem addFragment_bounded (hp : rxLength p2p ≤ maxReassembly) {resp : ComebackResp}
    (hresp : resp.data.length ≤ n) : Bounded n (addFragment p2p sa resp) := by
  have hlen : (p2p.sdRxResp.getD [] ++ resp.data).length ≤ maxReassembly + n := by
    rw [List.length_append]
    exact Nat.add_le_add hp hresp
  unfold addFragment
  dsimp only
  split_ifs with hmore hlong
  · exact ⟨Nat.zero_le _, by simpa using hlen⟩
  · exact ⟨Nat.not_lt.mp hlong, by simpa using hlen⟩
  · exact ⟨Nat.zero_le _, by simpa [answered] using hlen⟩

theorem rxGasComebackReq_safe (hp : rxLength p2p ≤ maxReassembly) :
    Safe (rxGasComebackReq p2p sa d) (Bounded n) := by
  have hsame {q : SdData} {out : List SdOutput} (hq : q.sdRxResp = p2p.sdRxResp)
      (hout : ∀ len, .reassemblyLength len ∉ out) : Safe (.ok (q, out)) (Bounded n) :=
    .pure (.same hp hq hout)
  unfold rxGasComebackReq
  split
  · exact hsame rfl (by simp)
  · split
    · exact hsame rfl (by simp)
    · split
      · exact hsame rfl (by simp)
      · split
        · exact hsame rfl (by simp)
        · exact hsame rfl (by simp)

theorem rxAction_safe (hp : rxLength p2p ≤ maxReassembly) (sa : MacAddr) (frame : Bytes) :
    Safe (rxAction p2p sa frame) (Bounded frame.length) := by
  have hsame {out : List SdOutput} (hout : ∀ len, .reassemblyLength len ∉ out) :
      Bounded frame.length (p2p, out) := .same hp rfl hout
  unfold rxAction
  split
  case h_2 => exact .pure (hsame (by simp))
  case h_1 category action d =>
    split_ifs
    · exact .pure (hsame (by simp))
    · exact received_safe readInitialReq_safe (by simp) hp fun _ _ => hsame (by simp)
    · unfold rxGasInitialResp
      split_ifs
      · exact .pure (hsame (by simp))
      · refine received_safe readInitialResp_safe (by simp) hp fun resp _ => ?_
        cases resp with
        | comeback dialogToken => exact ⟨Nat.zero_le _, by simp⟩
        | response updateIndic tlvs => exact .same hp rfl (by simp)
    · exact rxGasComebackReq_safe hp
    · unfold rxGasComebackResp
      split_ifs
      · exact .pure (hsame (by simp))
      · refine received_safe (readComebackResp_safe _) (by simp) hp fun resp hresp => ?_
        exact addFragment_bounded hp (hresp.trans (by simp; omega))
    · exact .pure (hsame (by simp))

/-- Frames that are received one after the other, with what each of them did. -/
def rxActions (p2p : SdData) : List (MacAddr × Bytes) → Except Stop (SdData × List SdResult)
  | [] => .ok (p2p, [])
  | (sa, frame) :: l => do
    let r ← rxAction p2p sa frame
    let rs ← rxActions r.1 l
    return (rs.1, r :: rs.2)

theorem rxActions_bounded (hp : rxLength p2p ≤ maxReassembly) (l : List (MacAddr × Bytes)) :
    Safe (rxActions p2p l) fun rs =>
      rxLength rs.1 ≤ maxReassembly ∧ List.Forall₂ (fun f r => Bounded f.2.length r) l rs.2 := by
  induction l generalizing p2p with
  | nil => exact .pure ⟨hp, .nil⟩
  | cons f l ih =>
    refine .bind (rxAction_safe hp f.1 f.2) fun r hr => .bind (ih hr.rest) fun rs hrs => ?_
    exact .pure ⟨hrs.1, .cons hr hrs.2⟩

end Buffer

/-! ## Round trips -/

section RoundTrip

variable (pre : Bytes)

theorem readAdvProto_append (limit : UInt8) (post : Bytes) :
    readAdvProto (pre ++ (advProtoIe limit ++ post)) pre.length = .ok (pre.length + 4) := by
  have hrd (i : ℕ) : rd8 (pre ++ (advProtoIe limit ++ post)) (pre.length + i) =
      rd8 (advProtoIe limit ++ post) i := rd8_append pre _ i
  have h0 : rd8 (pre ++ (advProtoIe limit ++ post)) pre.length = .ok eidAdvProto := hrd 0
  have h1 : rd8 (pre ++ (advProtoIe limit ++ post)) (pre.length + 1) = .ok 2 := hrd 1
  have h3 : rd8 (pre ++ (advProtoIe limit ++ post)) (pre.length + 3) = .ok nativeQueryProtocol :=
    hrd 3
  have hlen : pre.length + 4 ≤ (pre ++ (advProtoIe limit ++ post)).length := by
    simp
  have hneed : pre.length + 2 + (2 : UInt8).toNat ≤ (pre ++ (advProtoIe limit ++ post)).length ∧
      2 ≤ (2 : UInt8).toNat := ⟨hlen, le_rfl⟩
  simp only [readAdvProto, h0, h1, h3, ok_bind, need_of hneed, need_of]
  rfl

theorem readQueryLen_append {data : Bytes} (h : data.length < 2 ^ 16) :
    readQueryLen (pre ++ withLen data) pre.length =
      .ok (pre.length + 2, pre.length + 2 + data.length) := by
  have hlen : (pre ++ withLen data).length = pre.length + 2 + data.length := by
    simp
    omega
  have hslen : rdLe16 (pre ++ withLen data) pre.length = .ok data.length :=
    (rdLe16_append pre (withLen data) 0).trans (rdLe16_putLe16 h data)
  have hpos : pre.length + 2 ≤ (pre ++ withLen data).length := by omega
  have hfin : pre.length + 2 + data.length ≤ (pre ++ withLen data).length := hlen.ge
  simp only [readQueryLen, need_of hpos, hslen, ok_bind, need_of hfin]
  rfl

theorem readNqpHeader_append (whole : Bool) {len : ℕ} (updateIndic : UInt16) (post : Bytes)
    {fin : ℕ} (hlen : 3 + 1 + 2 + len < 2 ^ 16) (hfin : pre.length + 10 ≤ fin)
    (hwhole : whole = true → pre.length + 10 + len ≤ fin) :
    readNqpHeader whole (pre ++ (nqpHeader len updateIndic ++ post)) pre.length fin =
      .ok (updateIndic, pre.length + 10) := by
  have hoff (i : ℕ) : rdLe16 (pre ++ (nqpHeader len updateIndic ++ post)) (pre.length + i) =
      rdLe16 (nqpHeader len updateIndic ++ post) i := rdLe16_append pre _ i
  have hinfo : rdLe16 (pre ++ (nqpHeader len updateIndic ++ post)) pre.length =
      .ok nqpVendorSpecific := hoff 0
  have hslen : rdLe16 (pre ++ (nqpHeader len updateIndic ++ post)) (pre.length + 2) =
      .ok (3 + 1 + 2 + len) :=
    (hoff 2).trans <|
      rdLe16_putLe16 hlen (putBe 3 ouiWfa ++ [p2pOuiType] ++ putLe16 updateIndic.toNat ++ post)
  have hind : rdLe16 (pre ++ (nqpHeader len updateIndic ++ post)) (pre.length + 8) =
      .ok updateIndic.toNat := (hoff 8).trans (rdLe16_putLe16 updateIndic.toNat_lt post)
  have houi : rdBe24 (pre ++ (nqpHeader len updateIndic ++ post)) (pre.length + 4) = .ok ouiWfa :=
    rdBe24_append pre _ 4
  have htype : rd8 (pre ++ (nqpHeader len updateIndic ++ post)) (pre.length + 7) =
      .ok p2pOuiType := rd8_append pre _ 7
  have h4 : pre.length + 4 ≤ fin := by omega
  have h10 : pre.length + 8 + 2 ≤ fin := hfin
  have hcheck : 3 + 1 ≤ 3 + 1 + 2 + len ∧
      pre.length + 4 + (if whole then 3 + 1 + 2 + len else 4) ≤ fin := by
    refine ⟨by omega, ?_⟩
    cases whole
    · simp only [Bool.false_eq_true, if_false]
      omega
    · have := hwhole rfl
      simp only [if_true]
      omega
  simp only [readNqpHeader, need_of h4, hinfo, hslen, need_of hcheck, houi, htype, need_of h10,
    hind, ok_bind, need_of]
  exact congrArg (fun u => Except.ok (u, pre.length + 10)) UInt16.ofNat_toNat

end RoundTrip

/-- What stands behind the action field of an Initial Response. -/
def initialRespBody (dialogToken : UInt8) (comebackDelay : ℕ) (data : Bytes) : Bytes :=
  dialogToken :: (putLe16 statusSuccess ++ putLe16 comebackDelay
    ++ (advProtoIe 0x7f ++ withLen data))

/-- What stands behind the action field of a Comeback Response. -/
def comebackRespBody (dialogToken frag : UInt8) (data : Bytes) : Bytes :=
  dialogToken :: (putLe16 statusSuccess ++ frag :: putLe16 0 ++ (advProtoIe 0x7f ++ withLen data))

theorem buildSdResponse_eq (dialogToken : UInt8) (comebackDelay : ℕ) (updateIndic : UInt16)
    (tlvs : Option Bytes) :
    buildSdResponse dialogToken statusSuccess comebackDelay updateIndic tlvs =
      actionPublic :: paGasInitialResp :: initialRespBody dialogToken comebackDelay
        (match tlvs with
          | none => []
          | some tlvs => nqpHeader tlvs.length updateIndic ++ tlvs) := rfl

theorem buildGasComebackResp_eq (dialogToken : UInt8) (updateIndic : UInt16) (data : Bytes)
    (fragId : UInt8) (more : Bool) (totalLen : ℕ) :
    buildGasComebackResp dialogToken statusSuccess updateIndic data fragId more totalLen =
      actionPublic :: paGasComebackResp :: comebackRespBody dialogToken
        (fragId ||| (if more then 0x80 else 0))
        ((if fragId = 0 then nqpHeader totalLen updateIndic else []) ++ data) := rfl

section Responses

variable (dialogToken : UInt8) {updateIndic : UInt16} {data tlvs : Bytes}

theorem readInitialResp_head (comebackDelay : ℕ) (hdelay : comebackDelay < 2 ^ 16)
    (hdata : data.length < 2 ^ 16) :
    let d := initialRespBody dialogToken comebackDelay data
    5 + 2 ≤ d.length ∧ rd8 d 0 = .ok dialogToken ∧ rdLe16 d 1 = .ok 0 ∧
      rdLe16 d 3 = .ok comebackDelay ∧ readAdvProto d 5 = .ok 9 ∧
      readQueryLen d 9 = .ok (11, 11 + data.length) := by
  refine ⟨?_, rfl, rfl, ?_, ?_, ?_⟩
  · simp [initialRespBody]
    omega
  · exact rdLe16_putLe16 hdelay (advProtoIe 0x7f ++ withLen data)
  · exact readAdvProto_append
      (dialogToken :: (putLe16 statusSuccess ++ putLe16 comebackDelay)) 0x7f (withLen data)
  · exact readQueryLen_append (dialogToken :: (putLe16 statusSuccess ++ putLe16 comebackDelay
      ++ advProtoIe 0x7f)) hdata

theorem readInitialResp_build (h : 10 + tlvs.length < 2 ^ 16) :
    readInitialResp (initialRespBody dialogToken 0 (nqpHeader tlvs.length updateIndic ++ tlvs)) =
      .ok (.response updateIndic tlvs) := by
  have hlen : (nqpHeader tlvs.length updateIndic ++ tlvs).length = 10 + tlvs.length := by simp
  obtain ⟨hsize, htoken, hstatus, hdelay, hadv, hquery⟩ :=
    readInitialResp_head dialogToken 0 (by decide) (hlen ▸ h)
  have hhead : readNqpHeader true
      (initialRespBody dialogToken 0 (nqpHeader tlvs.length updateIndic ++ tlvs)) 11
      (11 + (10 + tlvs.length)) = .ok (updateIndic, 21) :=
    readNqpHeader_append (dialogToken :: (putLe16 statusSuccess ++ putLe16 0
      ++ advProtoIe 0x7f ++ putLe16 (nqpHeader tlvs.length updateIndic ++ tlvs).length)) true
      updateIndic tlvs (by omega) (by simp; omega) fun _ => by simp; omega
  have hslice : rdSlice
      (initialRespBody dialogToken 0 (nqpHeader tlvs.length updateIndic ++ tlvs)) 21
      (11 + (10 + tlvs.length)) = .ok tlvs := by
    rw [← Nat.add_assoc]
    exact rdSlice_append (dialogToken :: (putLe16 statusSuccess ++ putLe16 0 ++ advProtoIe 0x7f
      ++ putLe16 (nqpHeader tlvs.length updateIndic ++ tlvs).length
      ++ nqpHeader tlvs.length updateIndic)) tlvs
  rw [hlen] at hquery
  simp only [readInitialResp, need_of hsize, htoken, hstatus, hdelay, hadv, hquery, hhead, hslice,
    ok_bind, need_of, ne_eq, not_true_eq_false, if_false]
  rfl

theorem readInitialResp_build_comeback :
    readInitialResp (initialRespBody dialogToken 1 []) = .ok (.comeback dialogToken) := by
  obtain ⟨hsize, htoken, hstatus, hdelay, hadv, hquery⟩ :=
    @readInitialResp_head dialogToken [] 1 (by decide) (by decide)
  simp only [readInitialResp, need_of hsize, htoken, hstatus, hdelay, hadv, hquery, ok_bind,
    need_of, ne_eq, one_ne_zero, not_false_eq_true, if_true]
  rfl

theorem readComebackResp_head (frag : UInt8) (hdata : data.length < 2 ^ 16) :
    let d := comebackRespBody dialogToken frag data
    6 + 2 ≤ d.length ∧ rd8 d 0 = .ok dialogToken ∧ rdLe16 d 1 = .ok 0 ∧ rd8 d 3 = .ok frag ∧
      rdLe16 d 4 = .ok 0 ∧ readAdvProto d 6 = .ok 10 ∧
      readQueryLen d 10 = .ok (12, 12 + data.length) := by
  refine ⟨?_, rfl, rfl, rfl, rfl, ?_, ?_⟩
  · simp [comebackRespBody]
    omega
  · exact readAdvProto_append
      (dialogToken :: (putLe16 statusSuccess ++ frag :: putLe16 0)) 0x7f (withLen data)
  · exact readQueryLen_append
      (dialogToken :: (putLe16 statusSuccess ++ frag :: putLe16 0 ++ advProtoIe 0x7f)) hdata

theorem readComebackResp_build_next (frag : UInt8) (hne : data ≠ []) (h : data.length < 2 ^ 16) :
    readComebackResp true (comebackRespBody dialogToken frag data) =
      .ok ⟨dialogToken, (frag &&& 0x80) >>> 7 ≠ 0, none, data⟩ := by
  obtain ⟨hsize, htoken, hstatus, hfrag, hdelay, hadv, hquery⟩ :=
    readComebackResp_head dialogToken frag h
  have hfin : 12 + data.length ≠ 12 := by
    have := List.length_pos_iff.mpr hne
    omega
  have hslice : rdSlice (comebackRespBody dialogToken frag data) 12 (12 + data.length) =
      .ok data :=
    rdSlice_append (dialogToken :: (putLe16 statusSuccess ++ frag :: putLe16 0 ++ advProtoIe 0x7f
      ++ putLe16 data.length)) data
  simp only [readComebackResp, need_of hsize, htoken, hstatus, hfrag, hdelay, hadv, hquery,
    need_of hfin, hslice, ok_bind, need_of, if_true]
  rfl

theorem readComebackResp_build_first (frag : UInt8) {totalLen : ℕ}
    (htotal : 10 + totalLen < 2 ^ 16) (h : 10 + data.length < 2 ^ 16) :
    readComebackResp false
        (comebackRespBody dialogToken frag (nqpHeader totalLen updateIndic ++ data)) =
      .ok ⟨dialogToken, (frag &&& 0x80) >>> 7 ≠ 0, some updateIndic, data⟩ := by
  have hlen : (nqpHeader totalLen updateIndic ++ data).length = 10 + data.length := by simp
  obtain ⟨hsize, htoken, hstatus, hfrag, hdelay, hadv, hquery⟩ :=
    readComebackResp_head dialogToken frag (hlen ▸ h)
  have hfin : 12 + (10 + data.length) ≠ 12 := by omega
  have hhead : readNqpHeader false
      (comebackRespBody dialogToken frag (nqpHeader totalLen updateIndic ++ data)) 12
      (12 + (10 + data.length)) = .ok (updateIndic, 22) :=
    readNqpHeader_append (dialogToken :: (putLe16 statusSuccess ++ frag :: putLe16 0
      ++ advProtoIe 0x7f ++ putLe16 (nqpHeader totalLen updateIndic ++ data).length)) false
      updateIndic data (by omega) (by simp; omega) nofun
  have hslice : rdSlice
      (comebackRespBody dialogToken frag (nqpHeader totalLen updateIndic ++ data)) 22
      (12 + (10 + data.length)) = .ok data := by
    rw [← Nat.add_assoc]
    exact rdSlice_append (dialogToken :: (putLe16 statusSuccess ++ frag :: putLe16 0
      ++ advProtoIe 0x7f ++ putLe16 (nqpHeader totalLen updateIndic ++ data).length
      ++ nqpHeader totalLen updateIndic)) data
  rw [hlen] at hquery
  simp only [readComebackResp, need_of hsize, htoken, hstatus, hfrag, hdelay, hadv, hquery,
    need_of hfin, hhead, hslice, ok_bind, need_of, Bool.false_eq_true, if_false]
  rfl

end Responses

end Hostapd.P2p.Sd
