import Hostapd.EapPeer.TlsCommon
import Hostapd.EapServer.TlsCommon
import Hostapd.Lib.Transfer

/-!
# EAP-TLS fragments from the server to the peer

The requests that `eapServerTlsBuildMsg` builds for a TLS message, given to the peer one after the
other (`requests`).

* **`buildMsg_last`**, **`buildMsg_more`**: the packets the server builds.
* **`process_ack`**, **`process_message`**: what the peer makes of a packet.
* **`Requesting`**: the middle of a message, where the peer has what the server has sent.
-/

namespace Hostapd.EapPeer

open Hostapd.Lib Hostapd.EapServer Hostapd.EapCommon

variable {κ : Type*}

/-! ## The link -/

def requestReception : Option HelperRes → Reception Bytes
  | some ⟨_, _, some msg⟩ => .message msg
  | some ⟨1, none, none⟩ => .ackAsked
  | _ => .nothing

/-- The environment of a peer with memory, and no error pending in the TLS library. -/
def requestEnv (workaround memOut : Bool) : RequestEnv := ⟨false, workaround, true, memOut⟩

/-- Requests from a server with memory to a peer. A packet fits when what is behind its type is
within the limit. -/
def requests (lib : TlsLib κ) (method : TlsMethod) (version peapVersion : Fin 8)
    (workaround memOut : Bool) (limit : ℕ) :
    Link EapServer.EapSslData (EapSslData κ) UInt8 Bytes Bytes where
  send data id := eapServerTlsBuildMsg true data method version id
  recv data p :=
    ((eapPeerTlsProcess lib (requestEnv workaround memOut) data method peapVersion p).1,
      requestReception
        (eapPeerTlsProcess lib (requestEnv workaround memOut) data method peapVersion p).2)
  Fits p := p.length ≤ hdrLen + 1 + limit
  Sent data := data.tlsOut = none

structure Sending (server : EapServer.EapSslData) (msg : Bytes) (limit : ℕ) : Prop where
  tlsOut : server.tlsOut = some msg
  pos : server.tlsOutPos = 0
  limit : server.tlsOutLimit = limit

structure Waiting (peer : EapSslData κ) : Prop where
  tlsOut : (peer.tlsOut.getD []).length = 0
  tlsIn : peer.tlsIn = none
  left : peer.tlsInLeft = 0

/-! ## The packets -/

section Server

variable {data : EapServer.EapSslData} (method : TlsMethod) (version : Fin 8) (id : UInt8)
  {msg : Bytes}

theorem buildMsg_last (hmsg : data.tlsOut = some msg) (hpos : data.tlsOutPos ≤ msg.length)
    (h : 1 + (msg.length - data.tlsOutPos) ≤ data.tlsOutLimit) :
    eapServerTlsBuildMsg true data method version id =
      ({ data with tlsOut := none, tlsOutPos := 0, state := .msg },
        some (tlsPacket method codeRequest id version false false msg.length
          (msg.drop data.tlsOutPos))) := by
  have hfit : ¬ 1 + (msg.length - data.tlsOutPos) > data.tlsOutLimit := by omega
  have hall : data.tlsOutPos + (msg.length - data.tlsOutPos) = msg.length := by omega
  have htake : (msg.drop data.tlsOutPos).take (msg.length - data.tlsOutPos) =
      msg.drop data.tlsOutPos := by
    rw [← List.length_drop, List.take_length]
  simp [eapServerTlsBuildMsg, hmsg, hfit, hall, htake, tlsPacket]

/-- The number of octets in a packet that is not the last. -/
def chunkLen (limit pos : ℕ) : ℕ := limit - 1 - if pos = 0 then 4 else 0

theorem buildMsg_more (hmsg : data.tlsOut = some msg) (hlimit : 6 ≤ data.tlsOutLimit)
    (h : data.tlsOutLimit < 1 + (msg.length - data.tlsOutPos)) :
    eapServerTlsBuildMsg true data method version id =
      ({ data with
          tlsOutPos := data.tlsOutPos + chunkLen data.tlsOutLimit data.tlsOutPos,
          state := .waitFragAck },
        some (tlsPacket method codeRequest id version true (data.tlsOutPos = 0) msg.length
          ((msg.drop data.tlsOutPos).take (chunkLen data.tlsOutLimit data.tlsOutPos)))) := by
  have hshort : chunkLen data.tlsOutLimit data.tlsOutPos < msg.length - data.tlsOutPos := by
    unfold chunkLen
    omega
  have hnot : ¬ data.tlsOutPos + chunkLen data.tlsOutLimit data.tlsOutPos = msg.length := by omega
  have hlen : ((msg.drop data.tlsOutPos).take
      (chunkLen data.tlsOutLimit data.tlsOutPos)).length =
        chunkLen data.tlsOutLimit data.tlsOutPos := by
    rw [List.length_take, List.length_drop]
    omega
  rw [tlsPacket, hlen]
  by_cases hzero : data.tlsOutPos = 0
  · simp only [hzero, chunkLen, if_true, Nat.zero_add, Nat.sub_zero] at hnot h ⊢
    simp only [eapServerTlsBuildMsg, hmsg, hzero, Nat.sub_zero, gt_iff_lt, h, decide_true,
      Bool.and_self, if_true, not_true, if_false, Nat.zero_add, hnot]
    congr 4
    omega
  · simp only [hzero, chunkLen, if_false, Nat.sub_zero] at hnot ⊢
    simp [eapServerTlsBuildMsg, hmsg, hzero, h, hnot]

end Server

/-! ## The peer -/

section Peer

variable (lib : TlsLib κ) (workaround memOut : Bool) (method : TlsMethod)
  (version peapVersion : Fin 8) (id : UInt8) (more : Bool) {data : EapSslData κ} {incl : Bool}
  {total : ℕ} {chunk : Bytes}

/-- The peer behind the Flags and the Message Length of a packet. -/
def lengthRead (data : EapSslData κ) (incl : Bool) (total : ℕ) : EapSslData κ :=
  if incl ∧ data.tlsInLeft = 0 then { data with tlsInLeft := total, tlsIn := none } else data

theorem process_packet (hout : (data.tlsOut.getD []).length = 0)
    (hfits : 6 + (if incl then 4 else 0) + chunk.length < 2 ^ 16) (htotal : total < 256 ^ 4) :
    eapPeerTlsProcess lib (requestEnv workaround memOut) data method peapVersion
        (tlsPacket method codeRequest id version more incl total chunk) =
      (let (data, res) := eapTlsProcessInput lib true (lengthRead data incl total) chunk
       let id := (hdr (tlsPacket method codeRequest id version more incl total chunk)).2.1
       if res.ret ≠ 0 then (data, some res)
       else
        let (data, res) := processHelperOutput lib (requestEnv workaround memOut) data method
          peapVersion id res.passed
        (data, some res)) := by
  have hread := tlsPacket_read_of_lt method codeRequest id version more total hfits
  have hinit : eapPeerTlsProcessInit (requestEnv workaround memOut) data method
      (tlsPacket method codeRequest id version more incl total chunk) =
        (lengthRead data incl total, some (tlsFlags version more incl, chunk)) := by
    simp only [eapPeerTlsProcessInit, requestEnv, hread, processInitLength, lengthRead]
    cases incl with
    | false => simp
    | true =>
      have htake : (putBe 4 total ++ chunk).take 4 = putBe 4 total := List.take_left' (by simp)
      have hdrop : (putBe 4 total ++ chunk).drop 4 = chunk := List.drop_left' (by simp)
      simp [htake, hdrop, beNat_putBe htotal]
  have hsame : ((lengthRead data incl total).tlsOut.getD []).length = 0 := by
    rw [← hout, lengthRead]
    split <;> rfl
  simp only [eapPeerTlsProcess, hinit, hasFlag_start, Bool.false_eq_true, if_false,
    eapPeerTlsProcessHelper, hsame, lt_irrefl, gt_iff_lt, false_and, if_true]
  rw [requestEnv]
  dsimp only
  split <;> rfl

variable {data' : EapSslData κ}

theorem process_ack (hout : (data.tlsOut.getD []).length = 0)
    (hfits : 6 + (if incl then 4 else 0) + chunk.length < 2 ^ 16) (htotal : total < 256 ^ 4)

    (h : eapPeerTlsDataReassemble true (lengthRead data incl total) chunk = (data', none, true)) :
    eapPeerTlsProcess lib (requestEnv workaround memOut) data method peapVersion
        (tlsPacket method codeRequest id version more incl total chunk) =
      (data', some ⟨1, none, none⟩) := by
  rw [process_packet _ _ _ _ _ _ _ _ hout hfits htotal, eapTlsProcessInput, h]
  rfl

theorem processHelperOutput_passed (env : RequestEnv) (passed : Option Bytes) :
    (processHelperOutput lib env data method peapVersion id passed).2.passed = passed := by
  unfold processHelperOutput
  split <;> rfl

theorem eapTlsProcessInput_message {inData msg : Bytes} {need : Bool}
    (h : eapPeerTlsDataReassemble true data inData = (data', some msg, need)) :
    (eapTlsProcessInput lib true data inData).2.passed = some msg := by
  rw [eapTlsProcessInput, h]
  dsimp only
  split <;> rfl

theorem requestReception_message {res : HelperRes} {msg : Bytes} (h : res.passed = some msg) :
    requestReception (some res) = .message msg := by
  obtain ⟨ret, outData, passed⟩ := res
  cases h
  rfl

theorem process_message (hout : (data.tlsOut.getD []).length = 0)
    (hfits : 6 + (if incl then 4 else 0) + chunk.length < 2 ^ 16) (htotal : total < 256 ^ 4)
    {msg : Bytes} {need : Bool}
    (h : eapPeerTlsDataReassemble true (lengthRead data incl total) chunk =
      (data', some msg, need)) :
    requestReception (eapPeerTlsProcess lib (requestEnv workaround memOut) data method peapVersion
      (tlsPacket method codeRequest id version more incl total chunk)).2 = .message msg := by
  have hinput := eapTlsProcessInput_message lib h
  rw [process_packet _ _ _ _ _ _ _ _ hout hfits htotal]
  dsimp only
  split
  · exact requestReception_message hinput
  · exact requestReception_message ((processHelperOutput_passed _ _ _ _ _ _).trans hinput)

theorem dataReassemble_more (hne : chunk ≠ []) (hleft : chunk.length < data.tlsInLeft)
    (htotal : (data.tlsIn.getD []).length + chunk.length ≤ 65536) :
    eapPeerTlsDataReassemble true data chunk =
      ({ data with
          tlsIn := some (data.tlsIn.getD [] ++ chunk), tlsInLeft := data.tlsInLeft - chunk.length },
        none, true) := by
  have hlen : 0 < chunk.length := List.length_pos_of_ne_nil hne
  rw [eapPeerTlsDataReassemble, if_pos (Or.inl hleft), eapPeerTlsReassembleFragment]
  simp only [show ¬ (data.tlsIn.getD []).length + chunk.length = 0 by omega,
    show ¬ (data.tlsIn.getD []).length + chunk.length > 65536 by omega,
    show ¬ chunk.length > data.tlsInLeft by omega,
    show data.tlsInLeft - chunk.length > 0 by omega, if_true, if_false, not_true]
  rfl

theorem dataReassemble_last {got : Bytes} (hgot : data.tlsIn = some got) (hne : chunk ≠ [])
    (hleft : data.tlsInLeft = chunk.length) (htotal : got.length + chunk.length ≤ 65536) :
    eapPeerTlsDataReassemble true data chunk =
      ({ data with tlsIn := some (got ++ chunk), tlsInLeft := 0 }, some (got ++ chunk), false) := by
  have hlen : 0 < chunk.length := List.length_pos_of_ne_nil hne
  rw [eapPeerTlsDataReassemble, if_pos (Or.inr (by simp [hgot])), eapPeerTlsReassembleFragment]
  simp [hgot, hleft, show ¬ got.length + chunk.length > 65536 by omega, hne]

theorem dataReassemble_whole (chunk : Bytes) (hin : data.tlsIn = none)
    (hleft : data.tlsInLeft = 0) :
    eapPeerTlsDataReassemble true data chunk =
      ({ data with tlsInLeft := 0, tlsIn := some chunk }, some chunk, false) := by
  simp [eapPeerTlsDataReassemble, hin, hleft]

theorem helper_empty (h : Waiting data) (id : UInt8) :
    (eapPeerTlsProcessHelper lib (requestEnv workaround memOut) data method peapVersion id
      []).2.passed = some [] := by
  have hinput := eapTlsProcessInput_message lib (dataReassemble_whole [] h.tlsIn h.left)
  rw [eapPeerTlsProcessHelper, if_neg (by simp), if_pos h.tlsOut]
  dsimp only [requestEnv]
  split
  · exact hinput
  · exact (processHelperOutput_passed _ _ _ _ _ _).trans hinput

theorem process_empty (h : Waiting data) (p : Bytes)
    (hread : eapHdrValidate vendorIetf method.eapType p = none ∨
      eapHdrValidate vendorIetf method.eapType p = some [] ∨
      eapHdrValidate vendorIetf method.eapType p = some [tlsFlags version false false]) :
    requestReception (eapPeerTlsProcess lib (requestEnv workaround memOut) data method peapVersion
      p).2 = .nothing ∨
    requestReception (eapPeerTlsProcess lib (requestEnv workaround memOut) data method peapVersion
      p).2 = .message [] := by
  have hflags : ∀ flags : UInt8, hasFlag flags flagsLengthIncluded = false →
      hasFlag flags flagsStart = false →
      eapPeerTlsProcessInit (requestEnv workaround memOut) data method p =
        (data, some (flags, [])) →
      requestReception (eapPeerTlsProcess lib (requestEnv workaround memOut) data method
        peapVersion p).2 = .message [] := by
    intro flags _ hstart hinit
    rw [eapPeerTlsProcess, hinit]
    simp only [hstart, Bool.false_eq_true, if_false]
    exact requestReception_message (helper_empty lib workaround memOut method peapVersion h _)
  rcases hread with hread | hread | hread
  · left
    simp [eapPeerTlsProcess, eapPeerTlsProcessInit, requestEnv, hread, requestReception]
  · cases workaround with
    | false =>
      left
      simp [eapPeerTlsProcess, eapPeerTlsProcessInit, requestEnv, hread, requestReception]
    | true =>
      refine Or.inr (hflags 0 (by decide) (by decide) ?_)
      simp [eapPeerTlsProcessInit, requestEnv, hread, processInitLength,
        show hasFlag 0 flagsLengthIncluded = false by decide]
  · refine Or.inr (hflags (tlsFlags version false false) (by simp) (by simp) ?_)
    simp [eapPeerTlsProcessInit, requestEnv, hread, processInitLength]

end Peer

/-! ## The message -/

section Message

variable {lib : TlsLib κ} {method : TlsMethod} {version peapVersion : Fin 8}
  {workaround memOut : Bool} {limit : ℕ} {msg : Bytes}

/-- In the middle of a message, with `n` octets to go: the peer has what the server has sent. -/
structure Requesting (limit : ℕ) (msg : Bytes) (n : ℕ) (server : EapServer.EapSslData)
    (peer : EapSslData κ) : Prop where
  tlsOut : server.tlsOut = some msg
  limit : server.tlsOutLimit = limit
  left : n = msg.length - server.tlsOutPos
  pos : server.tlsOutPos < msg.length
  peerOut : (peer.tlsOut.getD []).length = 0
  peer : (server.tlsOutPos = 0 ∧ peer.tlsIn = none ∧ peer.tlsInLeft = 0) ∨
    (0 < server.tlsOutPos ∧ peer.tlsIn = some (msg.take server.tlsOutPos) ∧
      peer.tlsInLeft = msg.length - server.tlsOutPos)

theorem Sending.requesting {server : EapServer.EapSslData} {peer : EapSslData κ}
    (hserver : Sending server msg limit) (hpeer : Waiting peer) (hmsg : msg ≠ []) :
    Requesting limit msg msg.length server peer := by
  have hlen : 0 < msg.length := List.length_pos_of_ne_nil hmsg
  exact ⟨hserver.tlsOut, hserver.limit, by rw [hserver.pos, Nat.sub_zero],
    by rwa [hserver.pos], hpeer.tlsOut, Or.inl ⟨hserver.pos, hpeer.tlsIn, hpeer.left⟩⟩

variable {n : ℕ} {server : EapServer.EapSslData} {peer : EapSslData κ}

theorem requests_recv {p : Bytes} {peer' : EapSslData κ} {res : Option HelperRes}
    (h : eapPeerTlsProcess lib (requestEnv workaround memOut) peer method peapVersion p =
      (peer', res)) :
    (requests lib method version peapVersion workaround memOut limit).recv peer p =
      (peer', requestReception res) := by
  simp only [requests, h]

theorem Requesting.last (h : Requesting limit msg n server peer) (htotal : msg.length ≤ 65536)
    (hfits : hdrLen + 1 + min limit (1 + msg.length) < 2 ^ 16)
    (hlast : 1 + (msg.length - server.tlsOutPos) ≤ limit) (id : UInt8) :
    (requests lib method version peapVersion workaround memOut limit).Advances msg
      (Requesting limit msg) n server peer id := by
  have hpos := h.pos
  have hchunk : (msg.drop server.tlsOutPos).length = msg.length - server.tlsOutPos :=
    List.length_drop
  have hne : msg.drop server.tlsOutPos ≠ [] := by
    rw [ne_eq, List.drop_eq_nil_iff]
    omega
  have hshort : 6 + (if false then 4 else 0) + (msg.drop server.tlsOutPos).length < 2 ^ 16 := by
    simp only [hdrLen] at hfits
    rw [if_neg (by decide), hchunk]
    omega
  have hrecv : ((requests lib method version peapVersion workaround memOut limit).recv peer
      (tlsPacket method codeRequest id version false false msg.length
        (msg.drop server.tlsOutPos))).2 = .message msg := by
    obtain ⟨hzero, hin, hleft⟩ | ⟨hmid, hin, hleft⟩ := h.peer
    · have hwhole := process_message lib workaround memOut method version peapVersion id false
        h.peerOut hshort (by omega)
        (dataReassemble_whole _ (show (lengthRead peer false msg.length).tlsIn = none from hin)
          hleft)
      rw [hzero, List.drop_zero] at hwhole ⊢
      exact hwhole
    · have hdone := process_message lib workaround memOut method version peapVersion id false
        h.peerOut hshort (by omega)
        (dataReassemble_last (show (lengthRead peer false msg.length).tlsIn = _ from hin) hne
          (hleft.trans hchunk.symm) (by rw [List.length_take, hchunk]; omega))
      rw [List.take_append_drop] at hdone
      exact hdone
  refine ⟨_, _, buildMsg_last method version id h.tlsOut hpos.le (h.limit.symm ▸ hlast), ?_,
    Or.inl ⟨rfl, _, Prod.ext rfl hrecv⟩⟩
  show (tlsPacket _ _ _ _ _ _ _ _).length ≤ hdrLen + 1 + limit
  rw [length_tlsPacket, hchunk, if_neg (by decide), hdrLen]
  omega

theorem Requesting.more (h : Requesting limit msg n server peer) (hlimit : 6 ≤ limit)
    (htotal : msg.length ≤ 65536) (hfits : hdrLen + 1 + min limit (1 + msg.length) < 2 ^ 16)
    (hmore : limit < 1 + (msg.length - server.tlsOutPos)) (id : UInt8) :
    (requests lib method version peapVersion workaround memOut limit).Advances msg
      (Requesting limit msg) n server peer id := by
  have hpos := h.pos
  have hbuild := buildMsg_more method version id h.tlsOut
    (h.limit ▸ hlimit) (h.limit ▸ hmore)
  rw [h.limit] at hbuild
  have hk : 0 < chunkLen limit server.tlsOutPos ∧
      chunkLen limit server.tlsOutPos < msg.length - server.tlsOutPos := by
    unfold chunkLen
    split <;> omega
  have hchunk : ((msg.drop server.tlsOutPos).take (chunkLen limit server.tlsOutPos)).length =
      chunkLen limit server.tlsOutPos := by
    rw [List.length_take, List.length_drop]
    omega
  have hne : (msg.drop server.tlsOutPos).take (chunkLen limit server.tlsOutPos) ≠ [] := by
    refine List.ne_nil_of_length_pos ?_
    rw [hchunk]
    exact hk.1
  have hpayload : (if decide (server.tlsOutPos = 0) = true then 4 else 0) +
      chunkLen limit server.tlsOutPos = limit - 1 := by
    unfold chunkLen
    by_cases hzero : server.tlsOutPos = 0
    · simp only [hzero, decide_true, if_true]
      omega
    · simp only [hzero, decide_false, Bool.false_eq_true, if_false]
      omega
  have hshort : 6 + (if decide (server.tlsOutPos = 0) = true then 4 else 0) +
      ((msg.drop server.tlsOutPos).take (chunkLen limit server.tlsOutPos)).length < 2 ^ 16 := by
    simp only [hdrLen] at hfits
    rw [hchunk, Nat.add_assoc, hpayload]
    omega
  -- what the peer has once it has read the Message Length
  have hread : ((lengthRead peer (decide (server.tlsOutPos = 0)) msg.length).tlsIn.getD []) =
        msg.take server.tlsOutPos ∧
      (lengthRead peer (decide (server.tlsOutPos = 0)) msg.length).tlsInLeft =
        msg.length - server.tlsOutPos ∧
      (lengthRead peer (decide (server.tlsOutPos = 0)) msg.length).tlsOut = peer.tlsOut := by
    obtain ⟨hzero, hin, hleft⟩ | ⟨hmid, hin, hleft⟩ := h.peer
    · simp [lengthRead, hzero, hleft]
    · simp [lengthRead, show ¬ server.tlsOutPos = 0 by omega, hin, hleft]
  have hack := process_ack lib workaround memOut method version peapVersion id true h.peerOut
    hshort (by omega)
    (dataReassemble_more hne
      (show _ < (lengthRead peer (decide (server.tlsOutPos = 0)) msg.length).tlsInLeft by
        rw [hread.2.1, hchunk]; exact hk.2)
      (by rw [hread.1, hchunk, List.length_take]; omega))
  rw [hread.1, hread.2.1, hchunk] at hack
  refine ⟨_, _, hbuild, ?_, Or.inr ⟨?_, _,
    msg.length - (server.tlsOutPos + chunkLen limit server.tlsOutPos), ?_,
    requests_recv hack, ?_⟩⟩
  · show (tlsPacket _ _ _ _ _ _ _ _).length ≤ hdrLen + 1 + limit
    rw [length_tlsPacket, hchunk, Nat.add_assoc, hpayload, hdrLen]
    omega
  · show ¬ server.tlsOut = none
    simp [h.tlsOut]
  · rw [h.left]
    omega
  · refine ⟨h.tlsOut, rfl, rfl, ?_, ?_, Or.inr ⟨?_, ?_, ?_⟩⟩
    · show server.tlsOutPos + chunkLen limit server.tlsOutPos < msg.length
      omega
    · exact hread.2.2 ▸ h.peerOut
    · show 0 < server.tlsOutPos + chunkLen limit server.tlsOutPos
      omega
    · show some _ = some (msg.take (server.tlsOutPos + chunkLen limit server.tlsOutPos))
      rw [List.take_add]
    · show _ - _ = msg.length - (server.tlsOutPos + chunkLen limit server.tlsOutPos)
      omega

theorem Requesting.advances (h : Requesting limit msg n server peer) (hlimit : 6 ≤ limit)
    (htotal : msg.length ≤ 65536) (hfits : hdrLen + 1 + min limit (1 + msg.length) < 2 ^ 16)
    (id : UInt8) :
    (requests lib method version peapVersion workaround memOut limit).Advances msg
      (Requesting limit msg) n server peer id := by
  by_cases hlast : 1 + (msg.length - server.tlsOutPos) ≤ limit
  · exact h.last htotal hfits hlast id
  · exact h.more hlimit htotal hfits (by omega) id

theorem requests_transfer (hserver : Sending server msg limit) (hpeer : Waiting peer)
    (hmsg : msg ≠ []) (hlimit : 6 ≤ limit) (htotal : msg.length ≤ 65536)
    (hfits : hdrLen + 1 + min limit (1 + msg.length) < 2 ^ 16) (ids : ℕ → UInt8) :
    Transfer (requests lib method version peapVersion workaround memOut limit) msg ids server
      peer :=
  Transfer.of_measure (fun _ _ _ id h => h.advances hlimit htotal hfits id)
    (hserver.requesting hpeer hmsg) ids

theorem not_requests_transfer (hserver : Sending server msg limit) (hpeer : Waiting peer)
    (hmsg : msg ≠ []) (hlimit : 6 ≤ limit) (htotal : msg.length ≤ 65536)
    (hlong : 2 ^ 16 ≤ hdrLen + 1 + min limit (1 + msg.length)) (ids : ℕ → UInt8) :
    ¬ Transfer (requests lib method version peapVersion workaround memOut limit) msg ids server
      peer := by
  intro htransfer
  have hlen : 0 < msg.length := List.length_pos_of_ne_nil hmsg
  obtain ⟨s', p, hsend, hfirst⟩ := htransfer.first
  change eapServerTlsBuildMsg true server method version (ids 0) = (s', some p) at hsend
  by_cases hlast : 1 + msg.length ≤ limit
  · have hbuild := buildMsg_last method version (ids 0) hserver.tlsOut
      (by rw [hserver.pos]; exact hlen.le)
      (by rw [hserver.pos, hserver.limit]; exact hlast)
    rw [hserver.pos, List.drop_zero] at hbuild
    rw [hbuild, Prod.mk.injEq, Option.some.injEq] at hsend
    obtain ⟨rfl, rfl⟩ := hsend
    have hempty := process_empty lib workaround memOut method version peapVersion hpeer
      (tlsPacket method codeRequest (ids 0) version false false msg.length msg) (by
        simp only [hdrLen] at hlong
        rw [tlsPacket_read_of_ge _ _ _ _ _ _ (msg.length - 65530) (by simp; omega) (by omega)]
        by_cases hcut : msg.length - 65530 < 5
        · exact Or.inl (if_pos hcut)
        · rw [if_neg hcut]
          obtain heq | heq : msg.length - 65530 = 5 ∨ msg.length - 65530 = 6 := by omega
          · exact Or.inr (Or.inl (by rw [heq]; rfl))
          · exact Or.inr (Or.inr (by rw [heq]; rfl)))
    obtain ⟨-, hsent⟩ | ⟨hmessage, -⟩ := hfirst
    · exact hsent rfl
    · rcases hempty with hres | hres
      · cases hres.symm.trans hmessage
      · exact hmsg (Reception.message.inj (hres.symm.trans hmessage)).symm
  · have hbuild := buildMsg_more method version (ids 0) hserver.tlsOut
      (by rw [hserver.limit]; exact hlimit)
      (by rw [hserver.pos, hserver.limit]; omega)
    rw [hserver.pos, hserver.limit, List.drop_zero] at hbuild
    rw [hbuild, Prod.mk.injEq, Option.some.injEq] at hsend
    obtain ⟨rfl, rfl⟩ := hsend
    have hchunk : (msg.take (chunkLen limit 0)).length = limit - 5 := by
      rw [List.length_take]
      simp only [chunkLen, if_true]
      omega
    have hempty := process_empty lib workaround memOut method version peapVersion hpeer
      (tlsPacket method codeRequest (ids 0) version true (decide (0 = 0)) msg.length
        (msg.take (chunkLen limit 0))) (by
        simp only [hdrLen] at hlong
        rw [tlsPacket_read_of_ge _ _ _ _ _ _ (limit - 65531) (by rw [hchunk]; simp; omega)
          (by omega)]
        by_cases hcut : limit - 65531 < 5
        · exact Or.inl (if_pos hcut)
        · rw [if_neg hcut]
          have heq : limit - 65531 = 5 := by omega
          exact Or.inr (Or.inl (by rw [heq]; rfl)))
    obtain ⟨hack, -⟩ | ⟨-, hsent⟩ := hfirst
    · rcases hempty with hres | hres
      · cases hres.symm.trans hack
      · cases hres.symm.trans hack
    · cases hserver.tlsOut.symm.trans hsent

end Message

end Hostapd.EapPeer
