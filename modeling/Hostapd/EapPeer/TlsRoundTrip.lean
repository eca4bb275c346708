import Hostapd.EapPeer.TlsRequests

/-!
# EAP-TLS fragments between the server and the peer

The responses that `eapTlsProcessOutput` builds for a TLS message, given to the server one after the
other (`responses`), and both directions together.

* **`processOutput_last`**, **`processOutput_more`**: the packets the peer builds.
* **`Responding`**: the middle of a message, where the server has what the peer has sent.
* **`fragmentation_round_trip`**: in both directions every message goes over, exactly when its first
  packet is short enough for the 16-bit length of the EAP header. Neither side looks at that length:
  it fits for every limit up to 65525.
-/

namespace Hostapd.EapPeer

open Hostapd.Lib Hostapd.EapServer Hostapd.EapCommon

variable {κ : Type*}

/-! ## The link -/

/-- What the server makes of a response, with its state behind it. -/
def responseReception (data : EapServer.EapSslData) : ProcessRes → Reception Bytes
  | .ack => if data.state = .fragAck then .ackAsked else .nothing
  | .passed msg _ => .message msg
  | _ => .nothing

/-- The environment of a server with memory, of which the method accepts the version. -/
def responseEnv (tlsOut : Option Bytes) (writeAlerts : ℕ) : ProcessEnv :=
  ⟨true, true, tlsOut, writeAlerts⟩

/-- Responses from a peer with memory to a server. A packet fits when its TLS data is within the
limit. -/
def responses (lib : TlsLib κ) (method : TlsMethod) (peapVersion : Fin 8) (tlsOut : Option Bytes)
    (writeAlerts limit : ℕ) : Link (EapSslData κ) EapServer.EapSslData UInt8 Bytes Bytes where
  send data id :=
    ((eapTlsProcessOutput lib true data method peapVersion id 0).1,
      (eapTlsProcessOutput lib true data method peapVersion id 0).2.2)
  recv data p :=
    match eapServerTlsProcess (responseEnv tlsOut writeAlerts) data method p with
    | none => (data, .nothing)
    | some (data, res) => (data, responseReception data res)
  Fits p := (tlsPayload method p).length ≤ limit
  Sent data := data.tlsOut = none

structure Answering (peer : EapSslData κ) (msg : Bytes) (limit : ℕ) : Prop where
  tlsOut : peer.tlsOut = some msg
  pos : peer.tlsOutPos = 0
  limit : peer.tlsOutLimit = limit

structure Listening (server : EapServer.EapSslData) : Prop where
  tlsIn : server.tlsIn = none
  state : server.state ≠ .waitFragAck

local instance neZeroEight : NeZero 8 := ⟨by decide⟩

/-- The Message Length is included in the packet at `pos`. -/
def lengthIncluded (lib : TlsLib κ) (peer : EapSslData κ) (method : TlsMethod)
    (peapVersion : Fin 8) (msg : Bytes) (pos : ℕ) : Bool :=
  (pos = 0 && (msg.length > peer.tlsOutLimit || peer.includeTlsLength)) ||
    (method = .peap && peapVersion = 0 && !lib.established peer.conn)

/-! ## The packets -/

section Peer

variable (lib : TlsLib κ) (method : TlsMethod) (peapVersion : Fin 8) (id : UInt8) (pos : ℕ)
  {peer : EapSslData κ} {msg : Bytes}

theorem processOutput_last (hmsg : peer.tlsOut = some msg)
    (h : msg.length - pos ≤ peer.tlsOutLimit) :
    eapTlsProcessOutput lib true { peer with tlsOutPos := pos } method peapVersion id 0 =
      ({ peer with tlsOutPos := 0, tlsOut := none }, 0,
        some (tlsPacket method codeResponse id peapVersion false
          (lengthIncluded lib peer method peapVersion msg pos) msg.length (msg.drop pos))) := by
  have htake : (msg.drop pos).take (msg.length - pos) = msg.drop pos := by
    rw [← List.length_drop, List.take_length]
  simp only [eapTlsProcessOutput, hmsg, gt_iff_lt, not_lt.mpr h, decide_false,
    Bool.false_eq_true, if_false, not_true, htake, tlsPacket, List.length_drop,
    eapPeerTlsResetOutput, lengthIncluded]

theorem processOutput_more (hmsg : peer.tlsOut = some msg)
    (h : peer.tlsOutLimit < msg.length - pos) :
    eapTlsProcessOutput lib true { peer with tlsOutPos := pos } method peapVersion id 0 =
      ({ peer with tlsOutPos := pos + peer.tlsOutLimit }, 0,
        some (tlsPacket method codeResponse id peapVersion true
          (lengthIncluded lib peer method peapVersion msg pos) msg.length
          ((msg.drop pos).take peer.tlsOutLimit))) := by
  have hlen : ((msg.drop pos).take peer.tlsOutLimit).length = peer.tlsOutLimit := by
    rw [List.length_take, List.length_drop]
    omega
  simp only [eapTlsProcessOutput, hmsg, gt_iff_lt, h, decide_true, if_true, not_true, if_false,
    tlsPacket, hlen, lengthIncluded]

variable (tlsOut : Option Bytes) (writeAlerts limit : ℕ)

theorem responses_send {peer' : EapSslData κ} {p : Bytes}
    (h : eapTlsProcessOutput lib true peer method peapVersion id 0 = (peer', 0, some p)) :
    (responses lib method peapVersion tlsOut writeAlerts limit).send peer id =
      (peer', some p) := by
  simp only [responses, h]

end Peer

/-! ## The server -/

section Server

variable (lib : TlsLib κ) (method : TlsMethod) (peapVersion : Fin 8) (tlsOut : Option Bytes)
  (writeAlerts limit : ℕ) {data : EapServer.EapSslData} {p buf : Bytes} {flags : UInt8}

theorem responses_read
    (hread : eapHdrValidate vendorIetf method.eapType p = some (flags :: buf)) :
    (responses lib method peapVersion tlsOut writeAlerts limit).recv data p =
      match eapServerTlsReassemble true data flags buf with
      | none => (data, .nothing)
      | some (data, ret) =>
        if ret < 0 then (eapServerTlsFreeInBuf data, .nothing)
        else if ret = 1 then (data, if data.state = .fragAck then .ackAsked else .nothing)
        else
          ((passOn (responseEnv tlsOut writeAlerts) data).1,
            .message ((data.tlsIn.map Wpabuf.data).getD [])) := by
  simp only [responses, eapServerTlsProcess, hread, responseEnv, not_true, if_false]
  cases eapServerTlsReassemble true data flags buf with
  | none => rfl
  | some a =>
    dsimp only
    split_ifs <;> simp_all [responseReception, passOn]

variable (more incl : Bool) (chunk : Bytes) {total : ℕ}

theorem reassemble_packet (htotal : total < 256 ^ 4) :
    eapServerTlsReassemble true data (tlsFlags peapVersion more incl)
        ((if incl then putBe 4 total else []) ++ chunk) =
      reassembleBody true data (tlsFlags peapVersion more incl) (if incl then total else 0)
        chunk := by
  cases incl with
  | false => simp [eapServerTlsReassemble]
  | true =>
    have htake : (putBe 4 total ++ chunk).take 4 = putBe 4 total := List.take_left' (by simp)
    have hdrop : (putBe 4 total ++ chunk).drop 4 = chunk := List.drop_left' (by simp)
    simp [eapServerTlsReassemble, htake, hdrop, beNat_putBe htotal]

theorem reassembleBody_whole (h : Listening data) (messageLength : ℕ) :
    ∃ data', reassembleBody true data (tlsFlags peapVersion false incl) messageLength chunk =
        some (data', 0) ∧ data'.tlsIn = some (Wpabuf.set chunk) := by
  have hin := h.tlsIn
  rw [reassembleBody, if_neg h.state, hin]
  by_cases hack : data.state = .fragAck <;> simp [reassembleTail, hack, hin]

theorem reassembleBody_first (h : Listening data) (htotal : total ≤ 65536)
    (hchunk : chunk.length ≤ total) :
    ∃ tlsIn : Wpabuf,
      reassembleBody true data (tlsFlags peapVersion true true) total chunk =
        some ({ data with tlsIn := some tlsIn, state := .fragAck }, 1) ∧
      tlsIn.data = chunk ∧ tlsIn.size = total := by
  obtain ⟨tlsIn, hput, hdata, hsize⟩ := Wpabuf.putData_of_tailroom
    (show ¬ (Wpabuf.alloc total).tailroom < chunk.length by
      simpa [Wpabuf.alloc, Wpabuf.tailroom] using hchunk)
  refine ⟨tlsIn, ?_, hdata, hsize⟩
  rw [reassembleBody, if_neg h.state, h.tlsIn]
  simp [reassembleTail, eapServerTlsProcessFragment, h.tlsIn, hput, not_lt.mpr htotal]

theorem reassembleBody_next {tlsIn : Wpabuf} (hin : data.tlsIn = some tlsIn)
    (hstate : data.state = .fragAck) (hroom : tlsIn.data.length + chunk.length ≤ tlsIn.size)
    (messageLength : ℕ) :
    ∃ tlsIn' : Wpabuf, tlsIn'.data = tlsIn.data ++ chunk ∧ tlsIn'.size = tlsIn.size ∧
      reassembleBody true data (tlsFlags peapVersion more incl) messageLength chunk =
        if more then some ({ data with tlsIn := some tlsIn', state := .fragAck }, 1)
        else some ({ data with tlsIn := some tlsIn', state := .msg }, 0) := by
  have hfits : ¬ tlsIn.tailroom < chunk.length := by
    rw [Wpabuf.tailroom]
    omega
  obtain ⟨tlsIn', hput, hdata, hsize⟩ := Wpabuf.putData_of_tailroom hfits
  refine ⟨tlsIn', hdata, hsize, ?_⟩
  rw [reassembleBody, hstate, if_neg (by decide), hin]
  cases more <;>
    simp [eapServerTlsProcessCont, hfits, hput, reassembleTail, eapServerTlsProcessFragment, hstate]

theorem responses_message {data' : EapServer.EapSslData} {tlsIn : Wpabuf}
    (hread : eapHdrValidate vendorIetf method.eapType p = some (flags :: buf))
    (hres : eapServerTlsReassemble true data flags buf = some (data', 0))
    (hin : data'.tlsIn = some tlsIn) :
    ((responses lib method peapVersion tlsOut writeAlerts limit).recv data p).2 =
      .message tlsIn.data := by
  rw [responses_read lib method peapVersion tlsOut writeAlerts limit hread, hres]
  simp [hin]

theorem responses_ack {data' : EapServer.EapSslData}
    (hread : eapHdrValidate vendorIetf method.eapType p = some (flags :: buf))
    (hres : eapServerTlsReassemble true data flags buf = some (data', 1))
    (hstate : data'.state = .fragAck) :
    (responses lib method peapVersion tlsOut writeAlerts limit).recv data p =
      (data', .ackAsked) := by
  rw [responses_read lib method peapVersion tlsOut writeAlerts limit hread, hres]
  simp [hstate]

theorem responses_nothing
    (hread : eapHdrValidate vendorIetf method.eapType p = none ∨
      eapHdrValidate vendorIetf method.eapType p = some [] ∨
      ∃ buf, eapHdrValidate vendorIetf method.eapType p =
        some (tlsFlags peapVersion more true :: buf) ∧ buf.length < 4) :
    ((responses lib method peapVersion tlsOut writeAlerts limit).recv data p).2 = .nothing := by
  rcases hread with hread | hread | ⟨buf, hread, hshort⟩
  · simp [responses, eapServerTlsProcess, hread, responseReception]
  · simp [responses, eapServerTlsProcess, hread, responseReception]
  · rw [responses_read lib method peapVersion tlsOut writeAlerts limit hread]
    simp [eapServerTlsReassemble, hshort]

end Server

/-! ## The message -/

section Message

variable {lib : TlsLib κ} {method : TlsMethod} {peapVersion : Fin 8} {tlsOut : Option Bytes}
  {writeAlerts limit : ℕ} {msg : Bytes}

/-- In the middle of a message, with `n` octets to go: the server has what the peer has sent. The
peer that began is `peer₀`. -/
structure Responding (peer₀ : EapSslData κ) (msg : Bytes) (n : ℕ) (peer : EapSslData κ)
    (server : EapServer.EapSslData) : Prop where
  same : peer = { peer₀ with tlsOutPos := peer.tlsOutPos }
  tlsOut : peer₀.tlsOut = some msg
  left : n = msg.length - peer.tlsOutPos
  pos : peer.tlsOutPos < msg.length
  progress : (peer.tlsOutPos = 0 ∧ Listening server) ∨
    (0 < peer.tlsOutPos ∧ server.state = .fragAck ∧ ∃ tlsIn : Wpabuf,
      server.tlsIn = some tlsIn ∧ tlsIn.data = msg.take peer.tlsOutPos ∧ tlsIn.size = msg.length)

theorem Answering.responding {peer : EapSslData κ} {server : EapServer.EapSslData}
    (hpeer : Answering peer msg limit) (hserver : Listening server) (hmsg : msg ≠ []) :
    Responding peer msg msg.length peer server := by
  have hlen : 0 < msg.length := List.length_pos_of_ne_nil hmsg
  exact ⟨rfl, hpeer.tlsOut, by rw [hpeer.pos, Nat.sub_zero], by rwa [hpeer.pos],
    Or.inl ⟨hpeer.pos, hserver⟩⟩

def firstLen (lib : TlsLib κ) (peer : EapSslData κ) (method : TlsMethod) (peapVersion : Fin 8)
    (msg : Bytes) : ℕ :=
  hdrLen + 2 + (if lengthIncluded lib peer method peapVersion msg 0 then 4 else 0) +
    min peer.tlsOutLimit msg.length

variable (lib method peapVersion) in
theorem packet_len_le (peer : EapSslData κ) (pos len : ℕ)
    (hlen : len ≤ min peer.tlsOutLimit msg.length) :
    6 + (if lengthIncluded lib peer method peapVersion msg pos then 4 else 0) + len ≤
      firstLen lib peer method peapVersion msg := by
  have hincl : lengthIncluded lib peer method peapVersion msg pos = true →
      lengthIncluded lib peer method peapVersion msg 0 = true := by
    unfold lengthIncluded
    intro h
    simp only [Bool.or_eq_true, Bool.and_eq_true] at h ⊢
    exact h.imp_left fun h => ⟨by decide, h.2⟩
  unfold firstLen hdrLen
  cases hpos : lengthIncluded lib peer method peapVersion msg pos with
  | false =>
    simp only [Bool.false_eq_true, if_false]
    split <;> omega
  | true =>
    rw [hincl hpos]
    simp only [if_true]
    omega

variable {n : ℕ} {peer₀ peer : EapSslData κ} {server : EapServer.EapSslData}

theorem tlsPayload_tlsPacket {code id : UInt8} {more incl : Bool} {total : ℕ} {chunk : Bytes}
    (h : 6 + (if incl then 4 else 0) + chunk.length < 2 ^ 16) :
    tlsPayload method (tlsPacket method code id peapVersion more incl total chunk) = chunk := by
  rw [tlsPayload_eq (tlsPacket_read_of_lt _ _ _ _ _ _ h), payloadOf, hasFlag_lengthIncluded]
  cases incl with
  | false => rfl
  | true => exact List.drop_left' (by simp)

theorem Responding.last (h : Responding peer₀ msg n peer server)
    (hl : peer₀.tlsOutLimit = limit) (htotal : msg.length ≤ 65536)
    (hfits : firstLen lib peer₀ method peapVersion msg < 2 ^ 16)
    (hlast : msg.length - peer.tlsOutPos ≤ limit) (id : UInt8) :
    (responses lib method peapVersion tlsOut writeAlerts limit).Advances msg
      (Responding peer₀ msg) n peer server id := by
  subst hl
  have hpos := h.pos
  have hprogress := h.progress
  obtain ⟨pos, rfl⟩ : ∃ pos, peer = { peer₀ with tlsOutPos := pos } := ⟨_, h.same⟩
  dsimp only at hpos hprogress hlast
  have hchunk : (msg.drop pos).length = msg.length - pos := List.length_drop
  have hshort := (packet_len_le lib method peapVersion peer₀ pos (msg.drop pos).length
    (by rw [hchunk]; omega)).trans_lt hfits
  have hread := tlsPacket_read_of_lt method codeResponse id peapVersion false msg.length hshort
  have hrecv : ((responses lib method peapVersion tlsOut writeAlerts peer₀.tlsOutLimit).recv server
      (tlsPacket method codeResponse id peapVersion false
        (lengthIncluded lib peer₀ method peapVersion msg pos) msg.length (msg.drop pos))).2 =
          .message msg := by
    obtain ⟨rfl, hlistening⟩ | ⟨hmid, hstate, tlsIn, hin, hdata, hsize⟩ := hprogress
    · obtain ⟨data', hres, hin'⟩ := reassembleBody_whole peapVersion
        (lengthIncluded lib peer₀ method peapVersion msg 0) (msg.drop 0) hlistening
        (if lengthIncluded lib peer₀ method peapVersion msg 0 then msg.length else 0)
      rw [← reassemble_packet peapVersion _ _ _ (by omega)] at hres
      exact responses_message lib method peapVersion tlsOut writeAlerts _ hread hres hin'
    · obtain ⟨tlsIn', hdata', -, hres⟩ := reassembleBody_next peapVersion false
        (lengthIncluded lib peer₀ method peapVersion msg pos) (msg.drop pos)
        hin hstate (by rw [hdata, hsize, hchunk, List.length_take]; omega)
        (if lengthIncluded lib peer₀ method peapVersion msg pos then msg.length else 0)
      rw [← reassemble_packet peapVersion _ _ _ (by omega)] at hres
      rw [responses_message lib method peapVersion tlsOut writeAlerts _ hread hres rfl, hdata',
        hdata, List.take_append_drop]
  refine ⟨_, _, responses_send lib method peapVersion id tlsOut writeAlerts _
    (processOutput_last lib method peapVersion id pos h.tlsOut hlast), ?_,
    Or.inl ⟨rfl, _, Prod.ext rfl hrecv⟩⟩
  show (tlsPayload method (tlsPacket _ _ _ _ _ _ _ _)).length ≤ peer₀.tlsOutLimit
  rw [tlsPayload_tlsPacket hshort, hchunk]
  exact hlast

theorem Responding.more (h : Responding peer₀ msg n peer server) (hlimit : 1 ≤ limit)
    (hl : peer₀.tlsOutLimit = limit) (htotal : msg.length ≤ 65536)
    (hfits : firstLen lib peer₀ method peapVersion msg < 2 ^ 16)
    (hmore : limit < msg.length - peer.tlsOutPos) (id : UInt8) :
    (responses lib method peapVersion tlsOut writeAlerts limit).Advances msg
      (Responding peer₀ msg) n peer server id := by
  subst hl
  have hpos := h.pos
  have hprogress := h.progress
  have hleft := h.left
  obtain ⟨pos, rfl⟩ : ∃ pos, peer = { peer₀ with tlsOutPos := pos } := ⟨_, h.same⟩
  dsimp only at hpos hprogress hmore hleft
  have hchunk : ((msg.drop pos).take peer₀.tlsOutLimit).length = peer₀.tlsOutLimit := by
    rw [List.length_take, List.length_drop]
    omega
  have hshort := (packet_len_le lib method peapVersion peer₀ pos
    ((msg.drop pos).take peer₀.tlsOutLimit).length (by rw [hchunk]; omega)).trans_lt hfits
  have hread := tlsPacket_read_of_lt method codeResponse id peapVersion true msg.length hshort
  have hrecv : ∃ tlsIn : Wpabuf,
      (responses lib method peapVersion tlsOut writeAlerts peer₀.tlsOutLimit).recv server
        (tlsPacket method codeResponse id peapVersion true
          (lengthIncluded lib peer₀ method peapVersion msg pos) msg.length
          ((msg.drop pos).take peer₀.tlsOutLimit)) =
        ({ server with tlsIn := some tlsIn, state := .fragAck }, .ackAsked) ∧
      tlsIn.data = msg.take (pos + peer₀.tlsOutLimit) ∧ tlsIn.size = msg.length := by
    obtain ⟨rfl, hlistening⟩ | ⟨hmid, hstate, tlsIn, hin, hdata, hsize⟩ := hprogress
    · have hfirst : lengthIncluded lib peer₀ method peapVersion msg 0 = true := by
        have hover : peer₀.tlsOutLimit < msg.length := by omega
        simp [lengthIncluded, hover]
      rw [hfirst] at hread ⊢
      obtain ⟨tlsIn, hres, hdata, hsize⟩ := reassembleBody_first peapVersion
        ((msg.drop 0).take peer₀.tlsOutLimit) hlistening htotal (by rw [hchunk]; omega)
      refine ⟨tlsIn, ?_, by rw [hdata, Nat.zero_add, List.drop_zero], hsize⟩
      rw [if_pos rfl] at hread
      have hpacket : eapServerTlsReassemble true server (tlsFlags peapVersion true true)
          (putBe 4 msg.length ++ (msg.drop 0).take peer₀.tlsOutLimit) = _ :=
        (reassemble_packet peapVersion true true _ (by omega)).trans hres
      exact responses_ack lib method peapVersion tlsOut writeAlerts _ hread hpacket rfl
    · obtain ⟨tlsIn', hdata', hsize', hres⟩ := reassembleBody_next peapVersion true
        (lengthIncluded lib peer₀ method peapVersion msg pos)
        ((msg.drop pos).take peer₀.tlsOutLimit)
        hin hstate (by rw [hdata, hsize, hchunk, List.length_take]; omega)
        (if lengthIncluded lib peer₀ method peapVersion msg pos then msg.length else 0)
      rw [← reassemble_packet peapVersion _ _ _ (by omega)] at hres
      refine ⟨tlsIn', responses_ack lib method peapVersion tlsOut writeAlerts _ hread hres rfl,
        ?_, hsize'.trans hsize⟩
      rw [hdata', hdata, List.take_add]
  obtain ⟨tlsIn, hrecv, hdata, hsize⟩ := hrecv
  refine ⟨_, _, responses_send lib method peapVersion id tlsOut writeAlerts _
    (processOutput_more lib method peapVersion id pos h.tlsOut hmore), ?_,
    Or.inr ⟨?_, _, msg.length - (pos + peer₀.tlsOutLimit), ?_, hrecv, ?_⟩⟩
  · show (tlsPayload method (tlsPacket _ _ _ _ _ _ _ _)).length ≤ peer₀.tlsOutLimit
    rw [tlsPayload_tlsPacket hshort, hchunk]
  · show ¬ peer₀.tlsOut = none
    simp [h.tlsOut]
  · omega
  · refine ⟨rfl, h.tlsOut, rfl, ?_, Or.inr ⟨?_, rfl, tlsIn, rfl, hdata, hsize⟩⟩
    · show pos + peer₀.tlsOutLimit < msg.length
      omega
    · show 0 < pos + peer₀.tlsOutLimit
      omega

theorem Responding.advances (h : Responding peer₀ msg n peer server) (hlimit : 1 ≤ limit)
    (hl : peer₀.tlsOutLimit = limit) (htotal : msg.length ≤ 65536)
    (hfits : firstLen lib peer₀ method peapVersion msg < 2 ^ 16) (id : UInt8) :
    (responses lib method peapVersion tlsOut writeAlerts limit).Advances msg
      (Responding peer₀ msg) n peer server id := by
  by_cases hlast : msg.length - peer.tlsOutPos ≤ limit
  · exact h.last hl htotal hfits hlast id
  · exact h.more hlimit hl htotal hfits (by omega) id

theorem responses_transfer (hpeer : Answering peer msg limit) (hserver : Listening server)
    (hmsg : msg ≠ []) (hlimit : 1 ≤ limit) (htotal : msg.length ≤ 65536)
    (hfits : firstLen lib peer method peapVersion msg < 2 ^ 16) (ids : ℕ → UInt8) :
    Transfer (responses lib method peapVersion tlsOut writeAlerts limit) msg ids peer server :=
  Transfer.of_measure
    (fun _ _ _ id h => h.advances hlimit hpeer.limit htotal hfits id)
    (hpeer.responding hserver hmsg) ids

theorem read_overlong_more (hlong : 2 ^ 16 ≤ 10 + limit) (hmore : limit < msg.length)
    (htotal : msg.length ≤ 65536) (id : UInt8) :
    eapHdrValidate vendorIetf method.eapType
        (tlsPacket method codeResponse id peapVersion true true msg.length (msg.take limit)) =
      none ∨
    eapHdrValidate vendorIetf method.eapType
        (tlsPacket method codeResponse id peapVersion true true msg.length (msg.take limit)) =
      some [] ∨
    ∃ buf, eapHdrValidate vendorIetf method.eapType
        (tlsPacket method codeResponse id peapVersion true true msg.length (msg.take limit)) =
      some (tlsFlags peapVersion true true :: buf) ∧ buf.length < 4 := by
  have hchunk : (msg.take limit).length = limit := by
    rw [List.length_take]
    omega
  rw [tlsPacket_read_of_ge _ _ _ _ _ _ (limit - 65526) (by rw [hchunk]; simp; omega) (by omega)]
  by_cases hcut : limit - 65526 < 5
  · exact Or.inl (if_pos hcut)
  · rw [if_neg hcut]
    obtain ⟨k, hk⟩ : ∃ k, limit - 65526 - 5 = k := ⟨_, rfl⟩
    rw [hk]
    cases k with
    | zero => exact Or.inr (Or.inl rfl)
    | succ k =>
      refine Or.inr (Or.inr ⟨_, rfl, ?_⟩)
      refine (List.length_take_le _ _).trans_lt ?_
      omega

variable (method peapVersion) in
/-- What is read of a packet with the whole message that is too long: nothing, or no octet of the
message. -/
theorem read_overlong_last {incl : Bool}
    (hlong : 2 ^ 16 ≤ 6 + (if incl then 4 else 0) + msg.length) (htotal : msg.length ≤ 65536)
    (id : UInt8) :
    (eapHdrValidate vendorIetf method.eapType
        (tlsPacket method codeResponse id peapVersion false incl msg.length msg) = none ∨
      eapHdrValidate vendorIetf method.eapType
        (tlsPacket method codeResponse id peapVersion false incl msg.length msg) = some [] ∨
      ∃ buf, eapHdrValidate vendorIetf method.eapType
        (tlsPacket method codeResponse id peapVersion false incl msg.length msg) =
          some (tlsFlags peapVersion false true :: buf) ∧ buf.length < 4) ∨
    eapHdrValidate vendorIetf method.eapType
      (tlsPacket method codeResponse id peapVersion false incl msg.length msg) =
        some (tlsFlags peapVersion false incl :: ((if incl then putBe 4 msg.length else []) ++ []))
        := by
  obtain ⟨len, hlen⟩ : ∃ len, 6 + (if incl then 4 else 0) + msg.length = 2 ^ 16 + len :=
    ⟨_, (Nat.add_sub_of_le hlong).symm⟩
  have hsmall : len ≤ 6 + if incl then 4 else 0 := by omega
  rw [tlsPacket_read_of_ge _ _ _ _ _ _ len hlen (by split at hsmall <;> omega)]
  by_cases hcut : len < 5
  · exact Or.inl (Or.inl (if_pos hcut))
  · rw [if_neg hcut]
    obtain ⟨k, hk⟩ : ∃ k, len - 5 = k := ⟨_, rfl⟩
    rw [hk]
    cases incl with
    | false =>
      obtain rfl | rfl : k = 0 ∨ k = 1 := by
        rw [if_neg (by decide)] at hsmall
        omega
      · exact Or.inl (Or.inr (Or.inl rfl))
      · exact Or.inr rfl
    | true =>
      rw [if_pos rfl] at hsmall
      rcases k with _ | k
      · exact Or.inl (Or.inr (Or.inl rfl))
      · by_cases hfour : k = 4
        · refine Or.inr ?_
          rw [hfour, List.take_succ_cons, if_pos rfl, List.append_nil,
            List.take_left' (length_putBe 4 _)]
        · refine Or.inl (Or.inr (Or.inr ⟨_, rfl, (List.length_take_le _ _).trans_lt ?_⟩))
          omega

variable (lib method peapVersion tlsOut writeAlerts limit) in
/-- A packet of which no octet of the message is read is nothing to the server, or an empty message.
-/
theorem responses_overlong_last (hserver : Listening server) {incl : Bool}
    (hlong : 2 ^ 16 ≤ 6 + (if incl then 4 else 0) + msg.length) (htotal : msg.length ≤ 65536)
    (id : UInt8) :
    ((responses lib method peapVersion tlsOut writeAlerts limit).recv server
        (tlsPacket method codeResponse id peapVersion false incl msg.length msg)).2 = .nothing ∨
      ((responses lib method peapVersion tlsOut writeAlerts limit).recv server
        (tlsPacket method codeResponse id peapVersion false incl msg.length msg)).2 =
          .message [] := by
  rcases read_overlong_last method peapVersion hlong htotal id with hread | hread
  · exact Or.inl (responses_nothing lib method peapVersion tlsOut writeAlerts limit false hread)
  · obtain ⟨data', hres, hin⟩ := reassembleBody_whole peapVersion incl [] hserver
      (if incl then msg.length else 0)
    rw [← reassemble_packet peapVersion _ _ _ (by omega)] at hres
    exact Or.inr (responses_message lib method peapVersion tlsOut writeAlerts limit hread hres hin)

theorem not_responses_transfer (hpeer : Answering peer msg limit) (hserver : Listening server)
    (hmsg : msg ≠ []) (htotal : msg.length ≤ 65536)
    (hlong : 2 ^ 16 ≤ firstLen lib peer method peapVersion msg) (ids : ℕ → UInt8) :
    ¬ Transfer (responses lib method peapVersion tlsOut writeAlerts limit) msg ids peer server := by
  intro htransfer
  obtain ⟨peer', p, hsend, hfirst⟩ := htransfer.first
  have hsame : peer = { peer with tlsOutPos := 0 } := by
    have hpos := hpeer.pos
    obtain ⟨conn, out, pos, outLimit, inp, left, incl⟩ := peer
    cases hpos
    rfl
  rw [firstLen, hdrLen, hpeer.limit] at hlong
  by_cases hlast : msg.length ≤ limit
  · have hbuild := responses_send lib method peapVersion (ids 0) tlsOut writeAlerts limit
      (processOutput_last lib method peapVersion (ids 0) 0 hpeer.tlsOut
        (by rwa [hpeer.limit, Nat.sub_zero]))
    rw [← hsame, hsend, Prod.mk.injEq, Option.some.injEq, List.drop_zero] at hbuild
    obtain ⟨rfl, rfl⟩ := hbuild
    rw [Nat.min_eq_right hlast] at hlong
    have hempty := responses_overlong_last lib method peapVersion tlsOut writeAlerts limit hserver
      hlong htotal (ids 0)
    obtain ⟨-, hsent⟩ | ⟨hmessage, -⟩ := hfirst
    · exact hsent rfl
    · rcases hempty with hres | hres
      · cases hres.symm.trans hmessage
      · exact hmsg (Reception.message.inj (hres.symm.trans hmessage)).symm
  · have hbuild := responses_send lib method peapVersion (ids 0) tlsOut writeAlerts limit
      (processOutput_more lib method peapVersion (ids 0) 0 hpeer.tlsOut
        (by rw [hpeer.limit]; omega))
    have hincl : lengthIncluded lib peer method peapVersion msg 0 = true := by
      simp [lengthIncluded, hpeer.limit, not_le.mp hlast]
    rw [hincl] at hbuild hlong
    rw [← hsame, hsend, Prod.mk.injEq, Option.some.injEq, List.drop_zero, hpeer.limit] at hbuild
    obtain ⟨rfl, rfl⟩ := hbuild
    have hover : 2 ^ 16 ≤ 10 + limit := by
      rw [if_pos rfl] at hlong
      omega
    have hnothing : ((responses lib method peapVersion tlsOut writeAlerts limit).recv server
        (tlsPacket method codeResponse (ids 0) peapVersion true true msg.length
          (msg.take limit))).2 = .nothing :=
      responses_nothing lib method peapVersion tlsOut writeAlerts limit true
        (read_overlong_more hover (by omega) htotal (ids 0))
    obtain ⟨hack, -⟩ | ⟨-, hsent⟩ := hfirst
    · cases hnothing.symm.trans hack
    · cases hpeer.tlsOut.symm.trans hsent

end Message

/-! ## Both directions -/

/-- **Fragmentation round trip**: in both directions, a TLS message goes over in finitely many
packets that fit the limit, each but the last one asking for an acknowledgment and the last one
handing on just that message, exactly when the first packet is short enough for the length field of
the EAP header. -/
theorem fragmentation_round_trip (lib : TlsLib κ) (method : TlsMethod) (version peapVersion : Fin 8)
    {msg : Bytes} (hmsg : msg ≠ []) (htotal : msg.length ≤ 65536) (ids : ℕ → UInt8) :
    (∀ (workaround memOut : Bool) (limit : ℕ) (server : EapServer.EapSslData)
        (peer : EapSslData κ), 6 ≤ limit → Sending server msg limit → Waiting peer →
      (Transfer (requests lib method version peapVersion workaround memOut limit) msg ids server
          peer ↔
        hdrLen + 1 + min limit (1 + msg.length) < 2 ^ 16)) ∧
    ∀ (tlsOut : Option Bytes) (writeAlerts limit : ℕ) (peer : EapSslData κ)
        (server : EapServer.EapSslData), 1 ≤ limit → Answering peer msg limit →
      Listening server →
      (Transfer (responses lib method peapVersion tlsOut writeAlerts limit) msg ids peer server ↔
        firstLen lib peer method peapVersion msg < 2 ^ 16) := by
  constructor
  · intro workaround memOut limit server peer hlimit hserver hpeer
    constructor
    · intro htransfer
      by_contra hlong
      exact not_requests_transfer hserver hpeer hmsg hlimit htotal (not_lt.mp hlong) ids htransfer
    · intro hfits
      exact requests_transfer hserver hpeer hmsg hlimit htotal hfits ids
  · intro tlsOut writeAlerts limit peer server hlimit hpeer hserver
    constructor
    · intro htransfer
      by_contra hlong
      exact not_responses_transfer hpeer hserver hmsg htotal (not_lt.mp hlong) ids htransfer
    · intro hfits
      exact responses_transfer hpeer hserver hmsg hlimit htotal hfits ids

def silentLib : TlsLib Unit := ⟨fun _ _ => ((), none, none), fun _ => false, fun _ => false⟩

def quietPeer (msg : Option Bytes) (limit : ℕ) : EapSslData Unit :=
  ⟨(), msg, 0, limit, none, 0, false⟩

/-- Ten octets go over in both directions, in requests of at most six octets and in responses with
at most three. -/
theorem fragmentation_round_trip_ten :
    Transfer (requests silentLib .tls 0 0 false true 6) (List.replicate 10 7) (fun _ => 1)
        ⟨some (List.replicate 10 7), 0, 6, none, .msg⟩ (quietPeer none 3) ∧
      Transfer (responses silentLib .tls 0 none 0 3) (List.replicate 10 7) (fun _ => 1)
        (quietPeer (some (List.replicate 10 7)) 3) (EapServer.EapSslData.init 6) := by
  have htrip := fragmentation_round_trip silentLib .tls 0 0
    (show List.replicate 10 (7 : UInt8) ≠ [] by decide) (by decide) fun _ => 1
  exact ⟨(htrip.1 false true 6 _ _ le_rfl ⟨rfl, rfl, rfl⟩ ⟨rfl, rfl, rfl⟩).mpr (by decide),
    (htrip.2 none 0 3 _ _ (by decide) ⟨rfl, rfl, rfl⟩ ⟨rfl, by decide⟩).mpr (by decide)⟩

/-- A message of 65530 octets and a limit above it: the length of its only packet is 65536, the
length field says zero, and the message does not go over in either direction. -/
theorem fragmentation_overlong :
    ¬ Transfer (requests silentLib .tls 0 0 false true 65531) (List.replicate 65530 7) (fun _ => 1)
        ⟨some (List.replicate 65530 7), 0, 65531, none, .msg⟩ (quietPeer none 65530) ∧
      ¬ Transfer (responses silentLib .tls 0 none 0 65530) (List.replicate 65530 7) (fun _ => 1)
        (quietPeer (some (List.replicate 65530 7)) 65530) (EapServer.EapSslData.init 65531) := by
  have htotal : (List.replicate 65530 (7 : UInt8)).length = 65530 := List.length_replicate
  have hmsg : List.replicate 65530 (7 : UInt8) ≠ [] :=
    List.ne_nil_of_length_pos (by rw [htotal]; omega)
  have hlistening : Listening (EapServer.EapSslData.init 65531) := ⟨rfl, by decide⟩
  have hanswering : Answering (quietPeer (some (List.replicate 65530 7)) 65530)
      (List.replicate 65530 7) 65530 := ⟨rfl, rfl, rfl⟩
  refine ⟨not_requests_transfer (show Sending _ _ 65531 from ⟨rfl, rfl, rfl⟩) ⟨rfl, rfl, rfl⟩ hmsg
    (by omega) (by omega) ?_ _,
    not_responses_transfer hanswering hlistening hmsg (by omega) ?_ _⟩
  · rw [htotal, hdrLen]
    omega
  · rw [firstLen, htotal, hdrLen, hanswering.limit]
    omega

end Hostapd.EapPeer
