import Hostapd.EapServer.TlsCommon
import Hostapd.Lib.Run

/-!
# EAP-TLS at the server: reassembly

Over any sequence of responses and requests, what the reassembly promises (`Keeps`): no write
exceeds the buffer, a message handed on is the concatenation of the payloads received since it
began, and after an error the next message starts from an empty buffer.

* **`Holding`**: the invariant. The buffer holds what was received since the message began, and
  there is one only while fragments are being acknowledged.
* **`reassemble_cases`**: all a reassembly can do to it.
* **`reassembly_safe_iff`**: a run keeps the promise exactly when no first fragment carries more
  than its Message Length, and no version is refused in the middle of a message (`Orderly`).
-/

namespace Hostapd.EapServer

open Hostapd.Lib Hostapd.EapCommon

/-! ## Runs -/

/-- The data of a connection, with the payloads received since the message began, and whether the
process has aborted. -/
structure TlsSession where
  data : EapSslData
  since : Bytes
  aborted : Bool
  deriving DecidableEq

/-- What happens to a connection: a response is processed, or a request is prepared. -/
inductive TlsOp
  | process (env : ProcessEnv) (respData : Bytes)
  | buildReq (memory : Bool) (tlsOut : Option Bytes) (id : UInt8)

/-- The payloads received since the message began, after one more response: an acknowledged one
adds its payload, and a message that was handed on or given up is over. -/
def sinceAfter (since payload : Bytes) : ProcessRes → Bytes
  | .ignored => since
  | .ack => since ++ payload
  | .refused | .failed | .passed _ _ => []

section Runs

variable (method : TlsMethod) (version : Fin 8)

def tlsStep (s : TlsSession) (op : TlsOp) : TlsSession :=
  if s.aborted then s
  else
    match op with
    | .process env respData =>
      match eapServerTlsProcess env s.data method respData with
      | none => { s with aborted := true }
      | some (data, res) =>
        { s with data := data, since := sinceAfter s.since (tlsPayload method respData) res }
    | .buildReq memory tlsOut id =>
      { s with data := (buildReq memory tlsOut s.data method version id).1 }

def TlsSession.init (tlsOutLimit : ℕ) : TlsSession := ⟨EapSslData.init tlsOutLimit, [], false⟩

/-- The processing of a response returns an error. -/
def ProcessRes.isError : ProcessRes → Bool
  | .ignored | .ack => false
  | .refused | .failed => true
  | .passed _ res => res < 0

/-- What a response is promised: it is processed without an abort, a message handed on is what was
received since it began, and an error leaves no buffer. -/
def Keeps (s : TlsSession) : TlsOp → Prop
  | .process env respData => s.aborted = false →
    ∃ data res, eapServerTlsProcess env s.data method respData = some (data, res) ∧
      (∀ msg ret, res = .passed msg ret → msg = s.since ++ tlsPayload method respData) ∧
      (res.isError → data.tlsIn = none)
  | .buildReq _ _ _ => True

/-- A first fragment, for which there is memory, carries more than its Message Length. -/
def Overflows (memory : Bool) (flags : UInt8) (messageLength : ℕ) (buf : Bytes) : Prop :=
  hasFlag flags flagsLengthIncluded ∧ messageLength ≤ 65536 ∧ memory ∧ messageLength < buf.length

/-- A response that is the first of several fragments does not overflow what is allocated for it.
-/
def FirstFragmentFits (memory : Bool) (data : EapSslData) (flags : UInt8) (buf : Bytes) : Prop :=
  data.tlsIn = none → data.state ≠ .waitFragAck → hasFlag flags flagsMoreFragments →
    4 ≤ buf.length → ¬ Overflows memory flags (beNat (buf.take 4)) (buf.drop 4)

/-- The condition on a response: a first fragment fits its Message Length, and the version is not
refused in the middle of a message. -/
def Orderly (s : TlsSession) : TlsOp → Prop
  | .process env respData => s.aborted = false → ∀ flags buf,
    eapHdrValidate vendorIetf method.eapType respData = some (flags :: buf) →
      if env.procVersion then FirstFragmentFits env.memory s.data flags buf
      else s.data.tlsIn = none
  | .buildReq _ _ _ => True

end Runs

/-! ## What a reassembly can do -/

/-- The buffer holds what was received since the message began, and there is one only while its
fragments are being acknowledged. -/
def Holding (data : EapSslData) (since : Bytes) : Prop :=
  match data.tlsIn with
  | none => since = []
  | some tlsIn => tlsIn.data = since ∧ data.state = .fragAck

theorem holding_of_none {data : EapSslData} (h : data.tlsIn = none) : Holding data [] := by
  rw [Holding, h]

theorem Holding.eq_nil {data : EapSslData} {since : Bytes} (h : Holding data since)
    (hnone : data.tlsIn = none) : since = [] := by
  rwa [Holding, hnone] at h

/-- A message is complete: the buffer holds all of it. -/
def Complete (data : EapSslData) (msg : Bytes) : Prop :=
  ∃ tlsIn, data.tlsIn = some tlsIn ∧ tlsIn.data = msg

variable (memory : Bool) {data : EapSslData} (flags : UInt8) (buf : Bytes) {since : Bytes}

theorem reassembleTail_some {tlsIn : Wpabuf} (h : data.tlsIn = some tlsIn) (messageLength : ℕ) :
    (∃ data', reassembleTail memory data flags messageLength buf = some (data', 1) ∧
      Holding data' tlsIn.data) ∨
    ∃ data', reassembleTail memory data flags messageLength buf = some (data', 0) ∧
      Complete data' tlsIn.data := by
  unfold reassembleTail
  by_cases hmore : hasFlag flags flagsMoreFragments = true
  · have hcont : eapServerTlsProcessFragment memory data flags messageLength buf =
        some (data, 0) := by
      rw [eapServerTlsProcessFragment, h]
    refine Or.inl ⟨{ data with state := .fragAck }, ?_, ?_⟩
    · rw [if_pos hmore, hcont]
      rfl
    · simp [Holding, h]
  · refine Or.inr ⟨if data.state = .fragAck then { data with state := .msg } else data, ?_,
      tlsIn, ?_, rfl⟩
    · rw [if_neg hmore]
      split <;> simp_all
    · split <;> exact h

/-- The first fragment of several does not fit what is allocated for it, is refused, or begins a
buffer. -/
theorem processFragment_first (h : data.tlsIn = none) (messageLength : ℕ) :
    (Overflows memory flags messageLength buf ∧
      eapServerTlsProcessFragment memory data flags messageLength buf = none) ∨
    (¬ Overflows memory flags messageLength buf ∧
      (eapServerTlsProcessFragment memory data flags messageLength buf = some (data, -1) ∨
        ∃ tlsIn : Wpabuf, eapServerTlsProcessFragment memory data flags messageLength buf =
          some ({ data with tlsIn := some tlsIn }, 0) ∧ tlsIn.data = buf)) := by
  rw [eapServerTlsProcessFragment, h]
  by_cases hlength : hasFlag flags flagsLengthIncluded = true
  · by_cases hlong : messageLength > 65536
    · exact Or.inr ⟨fun hover => absurd hover.2.1 (by omega), Or.inl (by simp [hlength, hlong])⟩
    · by_cases hmemory : memory = true
      · simp only [hlength, hlong, hmemory, not_true, if_false]
        by_cases hfits : buf.length ≤ messageLength
        · refine Or.inr ⟨fun hover => absurd hover.2.2.2 (by omega), Or.inr ?_⟩
          exact ⟨⟨messageLength, buf, hfits⟩, by simp [Wpabuf.putData, Wpabuf.alloc, hfits], rfl⟩
        · refine Or.inl ⟨⟨hlength, by omega, rfl, by omega⟩, ?_⟩
          rw [Wpabuf.putData_alloc_eq_none.mpr (by omega)]
          rfl
      · exact Or.inr ⟨fun hover => hmemory hover.2.2.1, Or.inl (by simp [hlength, hlong, hmemory])⟩
  · exact Or.inr ⟨fun hover => hlength hover.1, Or.inl (by simp [hlength])⟩

/-- A response without a buffer: it overflows what is allocated for it, is refused, begins a
buffer, or is the whole message. -/
theorem reassembleTail_none (h : data.tlsIn = none) (messageLength : ℕ) :
    (hasFlag flags flagsMoreFragments ∧ Overflows memory flags messageLength buf ∧
      reassembleTail memory data flags messageLength buf = none) ∨
    (¬ (hasFlag flags flagsMoreFragments ∧ Overflows memory flags messageLength buf) ∧
      ∃ data' ret, reassembleTail memory data flags messageLength buf = some (data', ret) ∧
        (ret = -1 ∨ (ret = 1 ∧ Holding data' buf) ∨ (ret = 0 ∧ Complete data' buf))) := by
  unfold reassembleTail
  by_cases hmore : hasFlag flags flagsMoreFragments = true
  · rw [if_pos hmore]
    rcases processFragment_first memory flags buf h messageLength
      with ⟨hover, hres⟩ | ⟨hover, hres | ⟨tlsIn, hres, hdata⟩⟩
    · exact Or.inl ⟨hmore, hover, by rw [hres]⟩
    · exact Or.inr ⟨fun h => hover h.2, data, -1, by rw [hres]; rfl, Or.inl rfl⟩
    · exact Or.inr ⟨fun h => hover h.2, { data with tlsIn := some tlsIn, state := .fragAck }, 1,
        by rw [hres]; rfl, Or.inr (Or.inl ⟨rfl, hdata, rfl⟩)⟩
  · rw [if_neg hmore]
    refine Or.inr ⟨fun h => hmore h.1, { (if data.state = .fragAck then
      { data with state := .msg } else data) with tlsIn := some (Wpabuf.set buf) }, 0, ?_,
      Or.inr (Or.inr ⟨rfl, _, rfl, rfl⟩)⟩
    split <;> simp_all

/-- Behind the Message Length: an overflow, or an error, an acknowledgment or a complete message
with what was received so far. -/
theorem reassembleBody_cases (h : Holding data since) (messageLength : ℕ) :
    ((data.tlsIn = none ∧ data.state ≠ .waitFragAck ∧ hasFlag flags flagsMoreFragments ∧
        Overflows memory flags messageLength buf) ∧
      reassembleBody memory data flags messageLength buf = none) ∨
    (¬ (data.tlsIn = none ∧ data.state ≠ .waitFragAck ∧ hasFlag flags flagsMoreFragments ∧
        Overflows memory flags messageLength buf) ∧
      ∃ data' ret, reassembleBody memory data flags messageLength buf = some (data', ret) ∧
        (ret = -1 ∨ (ret = 1 ∧ Holding data' (since ++ buf)) ∨
          (ret = 0 ∧ Complete data' (since ++ buf)))) := by
  unfold reassembleBody
  by_cases hwait : data.state = .waitFragAck
  · rw [if_pos hwait]
    refine Or.inr ⟨fun hover => hover.2.1 hwait, ?_⟩
    by_cases hempty : buf.length ≠ 0
    · exact ⟨data, -1, if_pos hempty, Or.inl rfl⟩
    · have hbuf : buf = [] := by simpa using hempty
      exact ⟨data, 1, if_neg hempty, Or.inr (Or.inl ⟨rfl, by simpa [hbuf] using h⟩)⟩
  · rw [if_neg hwait]
    cases hin : data.tlsIn with
    | none =>
      rw [h.eq_nil hin, List.nil_append]
      rcases reassembleTail_none memory flags buf hin messageLength
        with ⟨hmore, hover, hres⟩ | ⟨hfits, hres⟩
      · exact Or.inl ⟨⟨rfl, hwait, hmore, hover⟩, hres⟩
      · exact Or.inr ⟨fun hover => hfits hover.2.2, hres⟩
    | some tlsIn =>
      refine Or.inr ⟨nofun, ?_⟩
      have hsince : tlsIn.data = since := by
        rw [Holding, hin] at h
        exact h.1
      by_cases hroom : buf.length > tlsIn.tailroom
      · exact ⟨data, -1, by simp [eapServerTlsProcessCont, hroom], Or.inl rfl⟩
      · obtain ⟨tlsIn', hput, hdata, -⟩ := Wpabuf.putData_of_tailroom hroom
        have hcont : eapServerTlsProcessCont data tlsIn buf =
            some ({ data with tlsIn := some tlsIn' }, 0) := by
          rw [eapServerTlsProcessCont, if_neg hroom, hput]
          rfl
        rw [hsince] at hdata
        have htail := reassembleTail_some memory flags buf
          (show { data with tlsIn := some tlsIn' }.tlsIn = some tlsIn' from rfl) messageLength
        rw [hdata] at htail
        simp only [hcont, lt_irrefl, if_false]
        rcases htail with ⟨data', hres, hholding⟩ | ⟨data', hres, hcomplete⟩
        · exact ⟨data', 1, hres, Or.inr (Or.inl ⟨rfl, hholding⟩)⟩
        · exact ⟨data', 0, hres, Or.inr (Or.inr ⟨rfl, hcomplete⟩)⟩

/-- All a reassembly can do: overflow, fail, ask for more or give an acknowledgment with the buffer
holding what was received, or complete the message. -/
theorem reassemble_cases (h : Holding data since) :
    (¬ FirstFragmentFits memory data flags buf ∧
      eapServerTlsReassemble memory data flags buf = none) ∨
    (FirstFragmentFits memory data flags buf ∧
      ∃ data' ret, eapServerTlsReassemble memory data flags buf = some (data', ret) ∧
        (ret = -1 ∨ (ret = 1 ∧ Holding data' (since ++ payloadOf flags buf)) ∨
          (ret = 0 ∧ Complete data' (since ++ payloadOf flags buf)))) := by
  unfold eapServerTlsReassemble payloadOf
  by_cases hlength : hasFlag flags flagsLengthIncluded = true
  · rw [if_pos hlength, if_pos hlength]
    by_cases hshort : buf.length < 4
    · exact Or.inr ⟨fun _ _ _ hlong => absurd hlong (by omega), data, -1, if_pos hshort,
        Or.inl rfl⟩
    · rw [if_neg hshort]
      rcases reassembleBody_cases memory flags (buf.drop 4) h
        (beNat (buf.take 4)) with ⟨hover, hres⟩ | ⟨hfits, hres⟩
      · obtain ⟨hin, hwait, hmore, hover⟩ := hover
        exact Or.inl ⟨fun hall => hall hin hwait hmore (by omega) hover, hres⟩
      · exact Or.inr ⟨fun hin hwait hmore _ hover => hfits ⟨hin, hwait, hmore, hover⟩, hres⟩
  · rw [if_neg hlength, if_neg hlength]
    rcases reassembleBody_cases memory flags buf h 0
      with ⟨hover, -⟩ | ⟨-, hres⟩
    · exact absurd hover.2.2.2.1 hlength
    · exact Or.inr ⟨fun _ _ _ _ hover => hlength hover.1, hres⟩

/-! ## Steps -/

section Steps

variable {method : TlsMethod} {version : Fin 8} {env : ProcessEnv} {respData buf : Bytes}
  {flags : UInt8}

theorem eapServerTlsProcess_eq
    (hresp : eapHdrValidate vendorIetf method.eapType respData = some (flags :: buf))
    (hversion : env.procVersion) :
    eapServerTlsProcess env data method respData =
      match eapServerTlsReassemble env.memory data flags buf with
      | none => none
      | some (data, ret) =>
        if ret < 0 then some (eapServerTlsFreeInBuf data, .failed)
        else if ret = 1 then some (data, .ack)
        else some (passOn env data) := by
  rw [eapServerTlsProcess, hresp]
  exact if_neg (not_not.mpr hversion)

/-- A response whose version is accepted: it aborts the process exactly when it is a first fragment
that does not fit, and otherwise keeps the buffer, gives it up, or hands it on. -/
theorem process_cases (h : Holding data since)
    (hresp : eapHdrValidate vendorIetf method.eapType respData = some (flags :: buf))
    (hversion : env.procVersion) :
    (¬ FirstFragmentFits env.memory data flags buf ∧
      eapServerTlsProcess env data method respData = none) ∨
    (FirstFragmentFits env.memory data flags buf ∧
      ∃ data' res, eapServerTlsProcess env data method respData = some (data', res) ∧
        ((res = .failed ∧ data'.tlsIn = none) ∨
          (res = .ack ∧ Holding data' (since ++ payloadOf flags buf)) ∨
          (∃ ret, res = .passed (since ++ payloadOf flags buf) ret ∧ data'.tlsIn = none))) := by
  rw [eapServerTlsProcess_eq hresp hversion]
  rcases reassemble_cases env.memory flags buf h
    with ⟨hfits, hres⟩ | ⟨hfits, data', ret, hres, rfl | ⟨rfl, hholding⟩ | ⟨rfl, hcomplete⟩⟩
  · exact Or.inl ⟨hfits, by rw [hres]⟩
  · exact Or.inr ⟨hfits, eapServerTlsFreeInBuf data', .failed, by rw [hres]; rfl,
      Or.inl ⟨rfl, rfl⟩⟩
  · exact Or.inr ⟨hfits, data', .ack, by rw [hres]; rfl, Or.inr (Or.inl ⟨rfl, hholding⟩)⟩
  · obtain ⟨tlsIn, hin, hdata⟩ := hcomplete
    refine Or.inr ⟨hfits, (passOn env data').1, (passOn env data').2, by rw [hres]; rfl,
      Or.inr (Or.inr ⟨if env.writeAlerts > 1 then -1 else 0, ?_, rfl⟩)⟩
    simp [passOn, hin, hdata]

theorem process_ignored
    (hresp : ∀ flags buf, eapHdrValidate vendorIetf method.eapType respData ≠ some (flags :: buf)) :
    eapServerTlsProcess env data method respData = some (data, .ignored) := by
  unfold eapServerTlsProcess
  rcases hread : eapHdrValidate vendorIetf method.eapType respData with _ | _ | ⟨flags, buf⟩
  · rfl
  · rfl
  · exact absurd hread (hresp flags buf)

theorem process_refused
    (hresp : eapHdrValidate vendorIetf method.eapType respData = some (flags :: buf))
    (hversion : env.procVersion = false) :
    eapServerTlsProcess env data method respData = some (data, .refused) := by
  simp [eapServerTlsProcess, hresp, hversion]

theorem buildReq_holding (h : Holding data since) (memory : Bool) (tlsOut : Option Bytes)
    (id : UInt8) : Holding (buildReq memory tlsOut data method version id).1 since := by
  have hbuild : ∀ data' : EapSslData, data'.tlsIn = data.tlsIn → data.tlsIn = none →
      Holding (eapServerTlsBuildMsg memory data' method version id).1 since := by
    intro data' hin hnone
    have hsame : (eapServerTlsBuildMsg memory data' method version id).1.tlsIn = none := by
      unfold eapServerTlsBuildMsg
      split
      · exact hin.trans hnone
      · dsimp only
        split_ifs <;> exact hin.trans hnone
    rw [h.eq_nil hnone]
    exact holding_of_none hsame
  have hnone : data.state ≠ .fragAck → data.tlsIn = none := by
    intro hstate
    cases hin : data.tlsIn with
    | none => rfl
    | some tlsIn =>
      rw [Holding, hin] at h
      exact absurd h.2 hstate
  unfold buildReq
  split
  · exact h
  · rename_i hstate
    exact hbuild data rfl (hnone (by rw [hstate]; decide))
  · rename_i hstate
    exact hbuild { data with tlsOut := tlsOut } rfl (hnone (by rw [hstate]; decide))

def TlsInv (s : TlsSession) : Prop := s.aborted = false → Holding s.data s.since

variable {s : TlsSession}

theorem tlsStep_process (hrun : s.aborted = false) {data' : EapSslData}
    {res : ProcessRes} (h : eapServerTlsProcess env s.data method respData = some (data', res)) :
    tlsStep method version s (.process env respData) =
      ⟨data', sinceAfter s.since (tlsPayload method respData) res, false⟩ := by
  obtain ⟨data, since, aborted⟩ := s
  cases hrun
  simp only at h
  simp [tlsStep, h]

theorem tlsStep_inv (op : TlsOp) (h : TlsInv s) (hop : Orderly method s op) :
    TlsInv (tlsStep method version s op) := by
  by_cases hrun : s.aborted = false
  · cases op with
    | buildReq memory tlsOut id =>
      intro _
      simp only [tlsStep, hrun, Bool.false_eq_true, if_false]
      exact buildReq_holding (h hrun) memory tlsOut id
    | process env respData =>
      intro _
      by_cases hresp : ∃ flags buf,
          eapHdrValidate vendorIetf method.eapType respData = some (flags :: buf)
      · obtain ⟨flags, buf, hresp⟩ := hresp
        have hcond := hop hrun flags buf hresp
        by_cases hversion : env.procVersion = true
        · rw [if_pos hversion] at hcond
          rcases process_cases (h hrun) hresp hversion
            with ⟨hfits, -⟩ | ⟨-, data', res, hres, ⟨rfl, hnone⟩ | ⟨rfl, hholding⟩ |
              ⟨ret, rfl, hnone⟩⟩
          · exact absurd hcond hfits
          · rw [tlsStep_process hrun hres]
            exact holding_of_none hnone
          · rw [tlsStep_process hrun hres, tlsPayload_eq hresp]
            exact hholding
          · rw [tlsStep_process hrun hres]
            exact holding_of_none hnone
        · rw [if_neg hversion] at hcond
          rw [tlsStep_process hrun (process_refused hresp (by simpa using hversion))]
          exact holding_of_none hcond
      · rw [tlsStep_process hrun (process_ignored fun flags buf hread => hresp ⟨flags, buf, hread⟩)]
        exact h hrun
  · have hsame : tlsStep method version s op = s := by
      unfold tlsStep
      rw [if_pos (by simpa using hrun)]
    rwa [hsame]

theorem keeps_iff_orderly (op : TlsOp) (h : TlsInv s) :
    Keeps method s op ↔ Orderly method s op := by
  cases op with
  | buildReq memory tlsOut id => exact Iff.rfl
  | process env respData =>
    refine forall_congr' fun hrun => ?_
    by_cases hresp : ∃ flags buf,
        eapHdrValidate vendorIetf method.eapType respData = some (flags :: buf)
    · obtain ⟨flags, buf, hresp⟩ := hresp
      have honly : (∀ flags' buf',
          eapHdrValidate vendorIetf method.eapType respData = some (flags' :: buf') →
            if env.procVersion then FirstFragmentFits env.memory s.data flags' buf'
            else s.data.tlsIn = none) ↔
          if env.procVersion then FirstFragmentFits env.memory s.data flags buf
            else s.data.tlsIn = none := by
        constructor
        · intro hall
          exact hall flags buf hresp
        · intro hone flags' buf' hread
          rw [hresp, Option.some.injEq, List.cons.injEq] at hread
          rwa [← hread.1, ← hread.2]
      rw [honly]
      by_cases hversion : env.procVersion = true
      · rw [if_pos hversion]
        rcases process_cases (h hrun) hresp hversion
          with ⟨hfits, hres⟩ | ⟨hfits, data', res, hres, ⟨rfl, hnone⟩ | ⟨rfl, hholding⟩ |
            ⟨ret, rfl, hnone⟩⟩
        · simp [hres, hfits]
        · simp [hres, hfits, hnone]
        · simp [hres, hfits, ProcessRes.isError]
        · simp [hres, hfits, hnone, tlsPayload_eq hresp]
      · rw [if_neg hversion]
        simp [process_refused hresp (by simpa using hversion),
          ProcessRes.isError]
    · have hignored : eapServerTlsProcess env s.data method respData = some (s.data, .ignored) :=
        process_ignored fun flags buf hread => hresp ⟨flags, buf, hread⟩
      refine iff_of_true ⟨s.data, .ignored, hignored, nofun, nofun⟩ ?_
      intro flags buf hread
      exact absurd ⟨flags, buf, hread⟩ hresp

end Steps

/-! ## Runs -/

/-- **Reassembly**: in every run, every response is processed without an abort, hands on just what
was received since the message began, and leaves no buffer after an error, exactly when no first
fragment carries more than its Message Length and no version is refused in the middle of a message.
-/
theorem reassembly_safe_iff (method : TlsMethod) (version : Fin 8) (tlsOutLimit : ℕ)
    (l : List TlsOp) :
    Along (tlsStep method version) (Keeps method) (TlsSession.init tlsOutLimit) l ↔
      Along (tlsStep method version) (Orderly method) (TlsSession.init tlsOutLimit) l :=
  along_congr (fun _ op h hop => tlsStep_inv op h hop) (fun _ op h => keeps_iff_orderly op h)
    (fun _ => holding_of_none rfl) l

/-- A first fragment of two octets for a Message Length of one. -/
def overlongFragment : Bytes := [2, 1, 0, 12, 13, 0xc0, 0, 0, 0, 1, 7, 7]

theorem reassembly_overflow :
    eapServerTlsProcess ⟨true, true, none, 0⟩ (EapSslData.init 1398) .tls overlongFragment = none ∧
      ¬ ∀ l, Along (tlsStep .tls 0) (Keeps .tls) (TlsSession.init 1398) l := by
  have habort : eapServerTlsProcess ⟨true, true, none, 0⟩ (EapSslData.init 1398) .tls
      overlongFragment = none := by decide
  refine ⟨habort, fun hall => ?_⟩
  obtain ⟨data, res, hres, -⟩ := (hall [.process ⟨true, true, none, 0⟩ overlongFragment]).1 rfl
  have hsome : eapServerTlsProcess ⟨true, true, none, 0⟩ (EapSslData.init 1398) .tls
      overlongFragment = some (data, res) := hres
  rw [habort] at hsome
  cases hsome

end Hostapd.EapServer
