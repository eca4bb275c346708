import Hostapd.EapCommon.Pwd
import Hostapd.Lib.Run
import Hostapd.Lib.Slots

/-!
# EAP-pwd: pointers

The pointers of the method's data on both sides, `eap_peer/eap_pwd.c` and `eap_server_pwd.c`, with
every call that may fail, and the octets that are read of a payload.

* **`PwdData`** is the part of the data that the packets are checked against, with the pointers. The
  structure of the group is allocated without being cleared, and its parts with it.
* The functions that compute something are lists of instructions (`peerCommit`, `confirmProg`): what
  they allocate for the data, what they use, and what they read.
* **`Sound`** is the invariant of the pointers.
* **`pwd_memory_safe`**: along runs whose packets come in their state, are not too short, and name a
  group that has a password element, nothing is used that is not there.

The numbers of octets of a coordinate and of a scalar are `primeLen` and `orderLen` of the group.
What a function allocates for itself it frees at its end; it is left out, but for the failure of the
call.
-/

namespace Hostapd.Pwd.Memory

open Hostapd.Lib Slots

/-! ## The data -/

/-- The pointers. `otherScalar` and `otherElement` are those that are received. -/
inductive PwdPtr
  | k | privateValue | otherScalar | myScalar | otherElement | myElement
  | grp | group | pwe | order | prime
  deriving DecidableEq

/-- The structure of the group, and what it points to. -/
def groupPtrs : List PwdPtr := [.grp, .group, .pwe, .order, .prime]

/-- What a Confirm is computed from. -/
def sharedPtrs : List PwdPtr := [.k, .otherScalar, .myScalar, .otherElement, .myElement]

/-- What a server has made for its Commit. -/
def ownPtrs : List PwdPtr := [.privateValue, .myScalar, .myElement]

/-- Source: `struct eap_pwd_data`. -/
structure PwdData where
  state : PwdState
  groupNum : ℕ
  token : Bytes
  ptrs : PwdPtr → Ptr

def PwdData.init (groupNum : ℕ) : PwdData :=
  ⟨.pwdIdReq, groupNum, List.replicate 4 0, fun _ => .null⟩

/-- The group and what it points to is freed, where it is not NULL. -/
def freeGroup (m : PwdPtr → Ptr) : Except MemFault (PwdPtr → Ptr) :=
  if groupPtrs.any fun x => m x = .stale then .error .freed
  else .ok fun x => if x ∈ groupPtrs then .stale else m x

/-- Source: `eap_pwd_deinit`, `eap_pwd_reset`. -/
def eapPwdDeinit (d : PwdData) : Except MemFault Unit :=
  if (.privateValue :: sharedPtrs).any fun x => d.ptrs x = .stale then .error .freed
  else
    match d.ptrs .grp with
    | .null => .ok ()
    | .stale => .error .freed
    | .live => (freeGroup d.ptrs).map fun _ => ()

/-! ## The group -/

def supportedGroups : List ℕ := [19, 20, 21, 25, 26]

/-- The allocations, and the search for the password element. -/
def pweProg : List (Instr PwdPtr) :=
  [.use [.grp], .alloc .group, .attempt, .attempt, .use [.group], .alloc .pwe, .alloc .order,
    .alloc .prime, .attempt, .use [.group, .prime], .attempt, .use [.group, .order], .attempt,
    .attempt, .attempt, .use [.group, .pwe, .prime], .attempt]

def computePasswordElement (ok : ℕ → Bool) (num : ℕ) (m : PwdPtr → Ptr) :
    Except MemFault (Bool × (PwdPtr → Ptr)) :=
  if num ∉ supportedGroups then .ok (false, m)
  else do
    let (found, m) ← exec ok 0 pweProg fun x =>
      if x ∈ [PwdPtr.pwe, PwdPtr.order, PwdPtr.prime] then .null else m x
    if found then return (true, m)
    else
      let m ← freeGroup m
      return (false, m)

/-- A structure for the group, and the password element. -/
def setGroup (ok : ℕ → Bool) (d : PwdData) : Except MemFault (Bool × PwdData) :=
  if ok 0 then do
    let (found, m) ← computePasswordElement (fun i => ok (i + 1)) d.groupNum fun x =>
      if x = .grp then .live else if x ∈ groupPtrs then .stale else d.ptrs x
    return (found, { d with ptrs := m })
  else .ok (false, { d with ptrs := Function.update d.ptrs .grp .null })

/-! ## The peer -/

section Method

variable (primeLen orderLen : ℕ → ℕ)

/-- The octets of a Commit. -/
def commitLen (num : ℕ) : ℕ := primeLen num + primeLen num + orderLen num

def peerIdExchange (ok : ℕ → Bool) (d : PwdData) (payload : Bytes) : Except MemFault PwdData :=
  if d.state ≠ .pwdIdReq ∨ payload.length < 9 then .ok d
  else
    let d := { d with groupNum := be16 payload }
    if payload.getD 2 0 ≠ eapPwdDefaultRandFunc ∨ payload.getD 3 0 ≠ eapPwdDefaultPrf then .ok d
    else if ok 0 then do
      let (found, d) ← setGroup (fun i => ok (i + 2)) d
      return if found && ok 1 then { d with state := .pwdCommitReq } else d
    else .ok d

/-- Source: `eap_pwd_perform_commit_exchange`. -/
def peerCommit (n : ℕ) : List (Instr PwdPtr) :=
  [.alloc .privateValue, .use [.grp, .group], .alloc .myElement, .attempt, .alloc .myScalar,
    .attempt, .attempt, .use [.privateValue, .order, .myScalar, .pwe, .myElement], .attempt,
    .attempt, .attempt, .attempt, .alloc .otherScalar, .alloc .k, .attempt, .attempt,
    .alloc .otherElement, .use [.prime, .order], .read n,
    .use [.otherElement, .otherScalar, .privateValue, .k], .attempt]

/-- A Confirm is compared. Source: `eap_pwd_perform_confirm_exchange`,
`eap_pwd_process_confirm_resp`. -/
def confirmProg : List (Instr PwdPtr) :=
  [.use [.grp, .prime], .attempt, .attempt, .attempt, .use [.k, .group, .otherElement], .attempt,
    .use [.otherScalar, .order, .myElement], .attempt, .use [.myScalar], .read sha256DigestLength,
    .attempt]

def peerCommitExchange (ok : ℕ → Bool) (d : PwdData) (len : ℕ) : Except MemFault PwdData := do
  let (done, m) ← exec ok len (peerCommit (commitLen primeLen orderLen d.groupNum)) d.ptrs
  return { d with ptrs := m, state := if done then .pwdConfirmReq else .failure }

def peerConfirmExchange (ok : ℕ → Bool) (d : PwdData) (len : ℕ) : Except MemFault PwdData := do
  let (same, m) ← exec ok len confirmProg d.ptrs
  -- the own Confirm and the keys
  return { d with ptrs := m, state := if same && ok confirmProg.length then .success else .failure }

/-- A request, behind its type. Source: `eap_pwd_process`. -/
def peerProcess (d : PwdData) (pkt : (ℕ → Bool) × Bytes) : Except MemFault PwdData :=
  match pkt.2 with
  | [] => .ok d
  | opcode :: payload =>
    if opcode &&& 0x3f = eapPwdOpcodeIdExch then peerIdExchange pkt.1 d payload
    else if opcode &&& 0x3f = eapPwdOpcodeCommitExch then
      peerCommitExchange primeLen orderLen pkt.1 d payload.length
    else if opcode &&& 0x3f = eapPwdOpcodeConfirmExch then
      peerConfirmExchange pkt.1 d payload.length
    else .ok d

def peerNext (x : Except MemFault PwdData) (pkt : (ℕ → Bool) × Bytes) : Except MemFault PwdData :=
  x.bind fun d => peerProcess primeLen orderLen d pkt

/-! ## The server -/

/-- The method between the calls of the EAP state machine; it waits for a response when it has built
a request. -/
structure Server where
  data : PwdData
  waiting : Bool

inductive ServerCall
  | buildReq (ok : ℕ → Bool) (token : Bytes)
  | receive (ok : ℕ → Bool) (body : Bytes)

/-- Source: `eap_pwd_build_commit_req`. -/
def serverBuildCommit : List (Instr PwdPtr) :=
  [.alloc .privateValue, .use [.grp, .group], .alloc .myElement, .alloc .myScalar, .attempt,
    .use [.privateValue, .order, .myScalar, .pwe, .myElement], .attempt, .attempt, .attempt,
    .attempt, .attempt, .use [.prime], .attempt, .attempt, .attempt]

/-- Source: `eap_pwd_build_confirm_req`. -/
def serverBuildConfirm : List (Instr PwdPtr) :=
  [.use [.grp, .prime], .attempt, .attempt, .attempt, .use [.k, .group, .myElement], .attempt,
    .use [.myScalar, .order, .otherElement], .attempt, .use [.otherScalar], .attempt]

/-- Source: `eap_pwd_process_commit_resp`. -/
def serverCommit (n : ℕ) : List (Instr PwdPtr) :=
  [.alloc .otherScalar, .alloc .k, .attempt, .attempt, .attempt, .use [.grp, .group], .attempt,
    .attempt, .alloc .otherElement, .attempt, .use [.prime, .order], .read n,
    .use [.otherElement, .pwe, .otherScalar, .privateValue, .k], .attempt]

/-- A request is built by a program, or the method fails. -/
def serverBuild (ok : ℕ → Bool) (d : PwdData) (p : List (Instr PwdPtr)) :
    Except MemFault PwdData := do
  let (built, m) ← exec ok 0 p d.ptrs
  return { d with ptrs := m, state := if built then d.state else .failure }

def serverBuildReq (ok : ℕ → Bool) (token : Bytes) (d : PwdData) : Except MemFault PwdData :=
  match d.state with
  | .pwdIdReq => .ok (if ok 0 then { d with token := token } else { d with state := .failure })
  | .pwdCommitReq => serverBuild ok d serverBuildCommit
  | .pwdConfirmReq => serverBuild ok d serverBuildConfirm
  | .success | .failure => .ok d

/-- The response has the values of the request. -/
def sameParameters (d : PwdData) (payload : Bytes) : Bool :=
  be16 payload = d.groupNum ∧ payload.getD 2 0 = eapPwdDefaultRandFunc ∧
    (payload.drop 4).take 4 = d.token ∧ payload.getD 3 0 = eapPwdDefaultPrf

def serverIdResp (ok : ℕ → Bool) (d : PwdData) (payload : Bytes) : Except MemFault PwdData :=
  if payload.length < 9 then .ok d
  else if sameParameters d payload then
    if ok 0 then do
      let (found, d) ← setGroup (fun i => ok (i + 1)) d
      return if found then { d with state := .pwdCommitReq } else d
    else .ok d
  else .ok { d with state := .failure }

def serverCommitResp (ok : ℕ → Bool) (d : PwdData) (len : ℕ) : Except MemFault PwdData := do
  let (done, m) ← exec ok len (serverCommit (commitLen primeLen orderLen d.groupNum)) d.ptrs
  return { d with ptrs := m, state := if done then .pwdConfirmReq else .failure }

def serverConfirmResp (ok : ℕ → Bool) (d : PwdData) (len : ℕ) : Except MemFault PwdData := do
  let (same, m) ← exec ok len confirmProg d.ptrs
  let state := if ok confirmProg.length then PwdState.success else .failure
  return { d with ptrs := m, state := if same then state else d.state }

/-- A response is ignored. Source: `eap_pwd_check`. -/
def serverCheck (d : PwdData) (opcode : UInt8) : Bool :=
  !(d.state = .pwdIdReq ∧ opcode = eapPwdOpcodeIdExch ∨
    d.state = .pwdCommitReq ∧ opcode = eapPwdOpcodeCommitExch ∨
    d.state = .pwdConfirmReq ∧ opcode = eapPwdOpcodeConfirmExch)

/-- Source: `eap_pwd_process`. -/
def serverProcess (ok : ℕ → Bool) (d : PwdData) (opcode : UInt8) (payload : Bytes) :
    Except MemFault PwdData :=
  if opcode &&& 0x3f = eapPwdOpcodeIdExch then serverIdResp ok d payload
  else if opcode &&& 0x3f = eapPwdOpcodeCommitExch then
    serverCommitResp primeLen orderLen ok d payload.length
  else if opcode &&& 0x3f = eapPwdOpcodeConfirmExch then serverConfirmResp ok d payload.length
  else .ok d

/-- The method is done. -/
def Server.done (w : Server) : Bool := w.data.state = .success || w.data.state = .failure

/-- A call of the EAP state machine. -/
def serverStep (w : Server) : ServerCall → Except MemFault Server
  | .buildReq ok token =>
    if w.waiting || w.done then .ok w
    else (serverBuildReq ok token w.data).map fun d => ⟨d, true⟩
  | .receive ok body =>
    match body with
    | [] => .ok w
    | opcode :: payload =>
      if !w.waiting || w.done || serverCheck w.data opcode then .ok w
      else (serverProcess primeLen orderLen ok w.data opcode payload).map fun d => ⟨d, false⟩

def serverNext (x : Except MemFault Server) (call : ServerCall) : Except MemFault Server :=
  x.bind fun w => serverStep primeLen orderLen w call

end Method

/-! ## The invariant -/

/-- The pointers lead to objects. -/
def Ready (m : PwdPtr → Ptr) (xs : List PwdPtr) : Prop := ∀ x ∈ xs, m x = .live

/-- Nothing was freed or never set, and a group is there as a whole. -/
def Sound (m : PwdPtr → Ptr) : Prop :=
  (∀ x, x ∉ groupPtrs → m x ≠ .stale) ∧ (m .grp = .null ∨ Ready m groupPtrs)

/-- What the states of the method need. -/
structure Inv (d : PwdData) : Prop where
  sound : Sound d.ptrs
  commit : d.state = .pwdCommitReq → Ready d.ptrs groupPtrs
  confirm : d.state = .pwdConfirmReq → Ready d.ptrs groupPtrs ∧ Ready d.ptrs sharedPtrs

section Lemmas

variable {ok : ℕ → Bool} {s : List PwdPtr} {p : List (Instr PwdPtr)} {m : PwdPtr → Ptr}
  {d : PwdData}

/-- A program that leaves the group alone. -/
theorem Sound.exec (h : Sound m) (ok : ℕ → Bool) (len : ℕ) (hp : defined s p = true)
    (hs : Ready m s) (hlen : readUpTo p ≤ len) (hgroup : ∀ x ∈ groupPtrs, x ∉ allocated p) :
    ∃ b m', exec ok len p m = .ok (b, m') ∧ Sound m' ∧ (∀ x, x ∉ allocated p → m' x = m x) ∧
      (b = true → ∀ x, x ∈ s ∨ x ∈ allocated p → m' x = .live) := by
  obtain ⟨b, m', hexec, hsame, hstale, hlive, -⟩ := exec_of_defined ok len hp hs hlen
  refine ⟨b, m', hexec, ⟨fun x hx => hstale x (h.1 x hx), ?_⟩, hsame, hlive⟩
  refine h.2.imp (fun hnull => ?_) fun hready x hx => ?_
  · rw [hsame _ (hgroup _ (by decide)), hnull]
  · rw [hsame x (hgroup x hx), hready x hx]

theorem eapPwdDeinit_of (h : Sound d.ptrs) : eapPwdDeinit d = .ok () := by
  obtain ⟨hsound, hgrp⟩ := h
  have hown : ¬ ((PwdPtr.privateValue :: sharedPtrs).any fun x => d.ptrs x = .stale) = true := by
    simp only [List.any_eq_true, decide_eq_true_eq, not_exists, not_and]
    exact fun x hx => hsound x (by revert x; decide)
  rw [eapPwdDeinit, if_neg hown]
  rcases hgrp with hnull | hready
  · rw [hnull]
  · have hgroup : ¬ (groupPtrs.any fun x => d.ptrs x = .stale) = true := by
      simp only [List.any_eq_true, decide_eq_true_eq, not_exists, not_and]
      intro x hx
      rw [hready x hx]
      decide
    rw [hready .grp (by decide)]
    simp only [freeGroup, if_neg hgroup]
    rfl

/-- A group is allocated, and has no password element. -/
def GroupFails (ok : ℕ → Bool) (num : ℕ) : Prop :=
  ok 0 = true ∧ ¬ (num ∈ supportedGroups ∧ ∀ i < pweProg.length, ok (i + 1) = true)

theorem setGroup_spec (h : Sound d.ptrs) (hfails : ¬ GroupFails ok d.groupNum) :
    ∃ found m, setGroup ok d = .ok (found, { d with ptrs := m }) ∧ Sound m ∧
      (found = true → Ready m groupPtrs) := by
  unfold setGroup
  by_cases hok : ok 0 = true
  · obtain ⟨hnum, hall⟩ := not_not.mp fun hnot => hfails ⟨hok, hnot⟩
    rw [if_pos hok, computePasswordElement, if_neg (not_not.mpr hnum)]
    generalize hm : (fun x => if x ∈ [PwdPtr.pwe, PwdPtr.order, PwdPtr.prime] then Ptr.null else
      if x = .grp then .live else if x ∈ groupPtrs then .stale else d.ptrs x) = m
    have hgrp : ∀ x ∈ [PwdPtr.grp], m x = .live := by
      intro x hx
      rw [← hm, List.mem_singleton.mp hx]
      rfl
    obtain ⟨b, m', hexec, hsame, -, hlive, hend⟩ :=
      exec_of_defined (fun i => ok (i + 1)) 0 (p := pweProg) (by decide) hgrp (by decide)
    obtain rfl : b = true := hend hall
    have hready : Ready m' groupPtrs := fun x hx => hlive rfl x (by revert x; decide)
    refine ⟨true, m', ?_, ⟨fun x hx => ?_, .inr hready⟩, fun _ => hready⟩
    · simp only [bind, Except.bind, hexec]
      rfl
    · have hof (l : List PwdPtr) (hl : ∀ y ∈ l, y ∈ groupPtrs) : x ∉ l := fun hmem => hx (hl x hmem)
      have hne : x ≠ .grp := fun heq => hof [.grp] (by decide) (List.mem_singleton.mpr heq)
      rw [hsame x (hof _ (by decide)), ← hm]
      simp only [if_neg (hof [.pwe, .order, .prime] (by decide)), if_neg hne, if_neg hx]
      exact h.1 x hx
  · rw [if_neg hok]
    refine ⟨false, _, rfl, ⟨fun x hx => ?_, .inl (Function.update_self _ _ _)⟩, nofun⟩
    have hne : x ≠ .grp := by
      rintro rfl
      exact hx (by decide)
    rw [Function.update_of_ne hne]
    exact h.1 x hx

end Lemmas

/-! ## Steps -/

section Steps

variable {primeLen orderLen : ℕ → ℕ} {ok : ℕ → Bool} {d : PwdData} {payload : Bytes}

/-- A request comes in its state and is not too short, and no exchange of the identities leaves a
group without a password element. -/
def PeerFine (primeLen orderLen : ℕ → ℕ) (d : PwdData) (pkt : (ℕ → Bool) × Bytes) : Prop :=
  match pkt.2 with
  | [] => True
  | opcode :: payload =>
    if opcode &&& 0x3f = eapPwdOpcodeIdExch then
      d.state = .pwdIdReq → 9 ≤ payload.length → payload.getD 2 0 = eapPwdDefaultRandFunc →
        payload.getD 3 0 = eapPwdDefaultPrf → pkt.1 0 = true →
        ¬ GroupFails (fun i => pkt.1 (i + 2)) (be16 payload)
    else if opcode &&& 0x3f = eapPwdOpcodeCommitExch then
      d.state = .pwdCommitReq ∧ commitLen primeLen orderLen d.groupNum ≤ payload.length
    else if opcode &&& 0x3f = eapPwdOpcodeConfirmExch then
      d.state = .pwdConfirmReq ∧ sha256DigestLength ≤ payload.length
    else True

/-- A packet belongs to the state of the method. -/
def Belongs (state : PwdState) (body : Bytes) : Prop :=
  match body with
  | [] => False
  | opcode :: _ =>
    (state = .pwdIdReq ∧ opcode &&& 0x3f = eapPwdOpcodeIdExch) ∨
      (state = .pwdCommitReq ∧ opcode &&& 0x3f = eapPwdOpcodeCommitExch) ∨
      (state = .pwdConfirmReq ∧ opcode &&& 0x3f = eapPwdOpcodeConfirmExch)

theorem Inv.init (num : ℕ) : Inv (PwdData.init num) :=
  ⟨⟨fun _ _ => nofun, .inl rfl⟩, nofun, nofun⟩

/-- Data with a state that needs nothing. -/
theorem Inv.of_sound (h : Sound d.ptrs)
    (hstate : d.state ≠ .pwdCommitReq ∧ d.state ≠ .pwdConfirmReq) : Inv d :=
  ⟨h, fun heq => absurd heq hstate.1, fun heq => absurd heq hstate.2⟩

theorem peerIdExchange_spec (h : Inv d) (hfine : d.state = .pwdIdReq → 9 ≤ payload.length →
    payload.getD 2 0 = eapPwdDefaultRandFunc → payload.getD 3 0 = eapPwdDefaultPrf → ok 0 = true →
    ¬ GroupFails (fun i => ok (i + 2)) (be16 payload)) :
    ∃ d', peerIdExchange ok d payload = .ok d' ∧ Inv d' := by
  unfold peerIdExchange
  by_cases hskip : d.state ≠ .pwdIdReq ∨ payload.length < 9
  · exact ⟨d, if_pos hskip, h⟩
  rw [if_neg hskip]
  simp only [not_or, not_not, not_lt] at hskip
  have hid : Inv { d with groupNum := be16 payload } :=
    .of_sound h.sound ⟨by simp [hskip.1], by simp [hskip.1]⟩
  dsimp only
  by_cases hparams : payload.getD 2 0 ≠ eapPwdDefaultRandFunc ∨
      payload.getD 3 0 ≠ eapPwdDefaultPrf
  · exact ⟨_, if_pos hparams, hid⟩
  rw [if_neg hparams]
  simp only [not_or, not_not] at hparams
  by_cases hok : ok 0 = true
  · rw [if_pos hok]
    obtain ⟨found, m, hset, hsound, hready⟩ := setGroup_spec
      (d := { d with groupNum := be16 payload }) h.sound
      (hfine hskip.1 hskip.2 hparams.1 hparams.2 hok)
    rw [hset]
    refine ⟨_, rfl, ?_⟩
    dsimp only
    split_ifs with hfound
    · rw [Bool.and_eq_true] at hfound
      exact ⟨hsound, fun _ => hready hfound.1, nofun⟩
    · exact .of_sound hsound ⟨by simp [hskip.1], by simp [hskip.1]⟩
  · exact ⟨_, if_neg hok, hid⟩

theorem peerCommitExchange_spec (h : Inv d) (ok : ℕ → Bool) (hstate : d.state = .pwdCommitReq)
    {len : ℕ} (hlen : commitLen primeLen orderLen d.groupNum ≤ len) :
    ∃ d', peerCommitExchange primeLen orderLen ok d len = .ok d' ∧ Inv d' := by
  obtain ⟨n, hn⟩ : ∃ n, commitLen primeLen orderLen d.groupNum = n := ⟨_, rfl⟩
  rw [hn] at hlen
  obtain ⟨b, m, hexec, hsound, hsame, hlive⟩ := h.sound.exec ok len
    (p := peerCommit n) (s := groupPtrs) rfl (h.commit hstate) (by simpa [readUpTo, peerCommit])
    (by simp [groupPtrs, peerCommit, allocated])
  unfold peerCommitExchange
  rw [hn, hexec]
  refine ⟨_, rfl, ?_⟩
  cases b with
  | false => exact .of_sound hsound ⟨by simp, by simp⟩
  | true =>
    refine ⟨hsound, by simp, fun _ => ⟨fun x hx => hlive rfl x (.inl hx), fun x hx => ?_⟩⟩
    refine hlive rfl x (.inr ?_)
    change x ∈ [PwdPtr.privateValue, .myElement, .myScalar, .otherScalar, .k, .otherElement]
    revert x
    decide

/-- A Confirm is compared without a fault, and no pointer changes. -/
theorem exec_confirmProg (h : Inv d) (ok : ℕ → Bool) (hstate : d.state = .pwdConfirmReq)
    {len : ℕ} (hlen : sha256DigestLength ≤ len) :
    ∃ b, exec ok len confirmProg d.ptrs = .ok (b, d.ptrs) := by
  obtain ⟨hgroup, hshared⟩ := h.confirm hstate
  obtain ⟨b, m, hexec, -, hsame, -⟩ := h.sound.exec ok len (p := confirmProg)
    (s := groupPtrs ++ sharedPtrs) (by decide)
    (fun x hx => (List.mem_append.mp hx).elim (hgroup x) (hshared x))
    (by simpa [readUpTo, confirmProg]) (by decide)
  obtain rfl : m = d.ptrs := funext fun x => hsame x (by simp [confirmProg, allocated])
  exact ⟨b, hexec⟩

theorem peerProcess_spec (h : Inv d) {pkt : (ℕ → Bool) × Bytes}
    (hfine : PeerFine primeLen orderLen d pkt) :
    ∃ d', peerProcess primeLen orderLen d pkt = .ok d' ∧ Inv d' ∧
      (¬ Belongs d.state pkt.2 → d' = d) := by
  obtain ⟨ok, body⟩ := pkt
  cases body with
  | nil => exact ⟨d, rfl, h, fun _ => rfl⟩
  | cons opcode payload =>
    simp only [PeerFine, peerProcess, Belongs] at hfine ⊢
    by_cases hid : opcode &&& 0x3f = eapPwdOpcodeIdExch
    · rw [if_pos hid] at hfine ⊢
      obtain ⟨d', hrun, hd'⟩ := peerIdExchange_spec h hfine
      refine ⟨d', hrun, hd', fun hnot => ?_⟩
      rw [peerIdExchange, if_pos (.inl fun hst => hnot (.inl ⟨hst, hid⟩))] at hrun
      exact (Except.ok.inj hrun).symm
    rw [if_neg hid] at hfine ⊢
    by_cases hcommit : opcode &&& 0x3f = eapPwdOpcodeCommitExch
    · rw [if_pos hcommit] at hfine ⊢
      obtain ⟨d', hrun, hd'⟩ := peerCommitExchange_spec h ok hfine.1 hfine.2
      exact ⟨d', hrun, hd', fun hnot => absurd (.inr (.inl ⟨hfine.1, hcommit⟩)) hnot⟩
    rw [if_neg hcommit] at hfine ⊢
    by_cases hconfirm : opcode &&& 0x3f = eapPwdOpcodeConfirmExch
    · rw [if_pos hconfirm] at hfine ⊢
      obtain ⟨b, hexec⟩ := exec_confirmProg h ok hfine.1 hfine.2
      rw [peerConfirmExchange, hexec]
      refine ⟨_, rfl, .of_sound h.sound ?_,
        fun hnot => absurd (.inr (.inr ⟨hfine.1, hconfirm⟩)) hnot⟩
      dsimp only
      split_ifs <;> exact ⟨nofun, nofun⟩
    · rw [if_neg hconfirm]
      exact ⟨d, rfl, h, fun _ => rfl⟩

/-- A response that is taken is not too short, and leaves no group without a password element. -/
def ServerFine (primeLen orderLen : ℕ → ℕ) (w : Server) : ServerCall → Prop
  | .receive ok (opcode :: payload) =>
    w.waiting = true → serverCheck w.data opcode = false →
      if opcode = eapPwdOpcodeIdExch then
        9 ≤ payload.length → sameParameters w.data payload = true → ok 0 = true →
          ¬ GroupFails (fun i => ok (i + 1)) w.data.groupNum
      else if opcode = eapPwdOpcodeCommitExch then
        commitLen primeLen orderLen w.data.groupNum ≤ payload.length
      else sha256DigestLength ≤ payload.length
  | _ => True

/-- The invariant of the server: behind its Commit it has its own values. -/
structure ServerInv (w : Server) : Prop where
  inv : Inv w.data
  own : w.data.state = .pwdCommitReq → w.waiting = true → Ready w.data.ptrs ownPtrs

/-- A program for a request. -/
theorem serverBuild_spec {p : List (Instr PwdPtr)} {s : List PwdPtr} (h : Inv d)
    (ok : ℕ → Bool) (hp : defined s p = true) (hs : Ready d.ptrs s) (hread : readUpTo p = 0)
    (halloc : ∀ x ∈ groupPtrs, x ∉ allocated p)
    (hshared : d.state = .pwdConfirmReq → ∀ x ∈ sharedPtrs, x ∉ allocated p) :
    ∃ d', serverBuild ok d p = .ok d' ∧ Inv d' ∧
      (d'.state = .pwdCommitReq → ∀ x ∈ allocated p, d'.ptrs x = .live) := by
  obtain ⟨b, m, hexec, hsound, hsame, hlive⟩ :=
    h.sound.exec ok 0 hp hs hread.le halloc
  have hgroup {xs : List PwdPtr} (hxs : ∀ x ∈ xs, x ∉ allocated p) (hready : Ready d.ptrs xs) :
      Ready m xs := fun x hx => (hsame x (hxs x hx)).trans (hready x hx)
  rw [serverBuild, hexec]
  refine ⟨_, rfl, ?_⟩
  cases b with
  | false => exact ⟨.of_sound hsound ⟨nofun, nofun⟩, nofun⟩
  | true =>
    refine ⟨⟨hsound, fun hst => hgroup halloc (h.commit hst), fun hst => ?_⟩,
      fun _ x hx => hlive rfl x (.inr hx)⟩
    exact ⟨hgroup halloc (h.confirm hst).1, hgroup (hshared hst) (h.confirm hst).2⟩

theorem serverBuildReq_spec (h : Inv d) (ok : ℕ → Bool) (token : Bytes) :
    ∃ d', serverBuildReq ok token d = .ok d' ∧ Inv d' ∧
      (d'.state = .pwdCommitReq → Ready d'.ptrs ownPtrs) := by
  unfold serverBuildReq
  cases hstate : d.state with
  | pwdIdReq =>
    dsimp only
    split_ifs
    · exact ⟨_, rfl, .of_sound h.sound ⟨by simp, by simp⟩, by simp⟩
    · exact ⟨_, rfl, .of_sound h.sound ⟨nofun, nofun⟩, nofun⟩
  | pwdCommitReq =>
    obtain ⟨d', hbuild, hd', hown⟩ := serverBuild_spec (p := serverBuildCommit)
      (s := groupPtrs) h ok (by decide) (h.commit hstate) rfl (by decide) (by simp [hstate])
    refine ⟨d', hbuild, hd', fun hst x hx => hown hst x ?_⟩
    revert x
    decide
  | pwdConfirmReq =>
    obtain ⟨hgroup, hshared⟩ := h.confirm hstate
    obtain ⟨d', hbuild, hd', -⟩ := serverBuild_spec (p := serverBuildConfirm)
      (s := groupPtrs ++ sharedPtrs) h ok (by decide)
      (fun x hx => (List.mem_append.mp hx).elim (hgroup x) (hshared x)) rfl (by decide)
      fun _ => by decide
    refine ⟨d', hbuild, hd', fun hst => ?_⟩
    obtain ⟨⟨b, m⟩, -, hd'⟩ : ∃ out, exec ok 0 serverBuildConfirm d.ptrs = .ok out ∧
        d' = { d with ptrs := out.2, state := if out.1 then d.state else .failure } := by
      unfold serverBuild at hbuild
      cases hexec : exec ok 0 serverBuildConfirm d.ptrs with
      | error e => rw [hexec] at hbuild; cases hbuild
      | ok out => rw [hexec] at hbuild; exact ⟨out, rfl, (Except.ok.inj hbuild).symm⟩
    rw [hd'] at hst
    cases b <;> simp [hstate] at hst
  | success => exact ⟨d, rfl, h, by simp [hstate]⟩
  | failure => exact ⟨d, rfl, h, by simp [hstate]⟩

theorem serverIdResp_spec (h : Inv d) (hstate : d.state = .pwdIdReq)
    (hfine : 9 ≤ payload.length → sameParameters d payload = true → ok 0 = true →
      ¬ GroupFails (fun i => ok (i + 1)) d.groupNum) :
    ∃ d', serverIdResp ok d payload = .ok d' ∧ Inv d' := by
  unfold serverIdResp
  by_cases hlen : payload.length < 9
  · exact ⟨d, if_pos hlen, h⟩
  rw [if_neg hlen]
  by_cases hsame : sameParameters d payload = true
  · rw [if_pos hsame]
    by_cases hok : ok 0 = true
    · rw [if_pos hok]
      obtain ⟨found, m, hset, hsound, hready⟩ :=
        setGroup_spec h.sound (hfine (not_lt.mp hlen) hsame hok)
      rw [hset]
      refine ⟨_, rfl, ?_⟩
      cases found with
      | true => exact ⟨hsound, fun _ => hready rfl, nofun⟩
      | false => exact .of_sound hsound ⟨by simp [hstate], by simp [hstate]⟩
    · exact ⟨d, if_neg hok, h⟩
  · exact ⟨_, if_neg hsame, .of_sound h.sound ⟨nofun, nofun⟩⟩

theorem serverCommitResp_spec (h : Inv d) (ok : ℕ → Bool) (hstate : d.state = .pwdCommitReq)
    (hown : Ready d.ptrs ownPtrs) {len : ℕ}
    (hlen : commitLen primeLen orderLen d.groupNum ≤ len) :
    ∃ d', serverCommitResp primeLen orderLen ok d len = .ok d' ∧ Inv d' := by
  obtain ⟨n, hn⟩ : ∃ n, commitLen primeLen orderLen d.groupNum = n := ⟨_, rfl⟩
  rw [hn] at hlen
  obtain ⟨b, m, hexec, hsound, hsame, hlive⟩ := h.sound.exec ok len
    (p := serverCommit n) (s := groupPtrs ++ ownPtrs) rfl
    (fun x hx => (List.mem_append.mp hx).elim (h.commit hstate x) (hown x))
    (by simpa [readUpTo, serverCommit]) (by simp [groupPtrs, serverCommit, allocated])
  unfold serverCommitResp
  rw [hn, hexec]
  refine ⟨_, rfl, ?_⟩
  cases b with
  | false => exact .of_sound hsound ⟨by simp, by simp⟩
  | true =>
    refine ⟨hsound, by simp, fun _ => ⟨fun x hx => hlive rfl x (.inl ?_), fun x hx => ?_⟩⟩
    · exact List.mem_append_left _ hx
    · refine hlive rfl x ?_
      change x ∈ groupPtrs ++ ownPtrs ∨ x ∈ [PwdPtr.otherScalar, .k, .otherElement]
      revert x
      decide

/-- A response that is not ignored. -/
theorem serverCheck_cases {opcode : UInt8} (h : serverCheck d opcode = false) :
    (d.state = .pwdIdReq ∧ opcode = eapPwdOpcodeIdExch) ∨
      (d.state = .pwdCommitReq ∧ opcode = eapPwdOpcodeCommitExch) ∨
      (d.state = .pwdConfirmReq ∧ opcode = eapPwdOpcodeConfirmExch) := by
  simpa only [serverCheck, Bool.not_eq_false', decide_eq_true_eq] using h

theorem serverStep_spec {w : Server} (h : ServerInv w) {call : ServerCall}
    (hfine : ServerFine primeLen orderLen w call) :
    ∃ w', serverStep primeLen orderLen w call = .ok w' ∧ ServerInv w' := by
  cases call with
  | buildReq ok token =>
    rw [serverStep]
    split_ifs
    · exact ⟨w, rfl, h⟩
    · obtain ⟨d', hbuild, hd', hown⟩ := serverBuildReq_spec h.inv ok token
      exact ⟨⟨d', true⟩, by rw [hbuild]; rfl, hd', fun hst _ => hown hst⟩
  | receive ok body =>
    cases body with
    | nil => exact ⟨w, rfl, h⟩
    | cons opcode payload =>
      rw [serverStep]
      by_cases hskip : (!w.waiting || w.done || serverCheck w.data opcode) = true
      · exact ⟨w, if_pos hskip, h⟩
      rw [if_neg hskip]
      simp only [Bool.or_eq_true, not_or, Bool.not_eq_true, Bool.not_eq_false'] at hskip
      obtain ⟨⟨hwaiting, -⟩, hcheck⟩ := hskip
      have hfine := hfine hwaiting hcheck
      have hdone {d' : PwdData}
          (hrun : serverProcess primeLen orderLen ok w.data opcode payload = .ok d')
          (hd' : Inv d') : ∃ w', ((serverProcess primeLen orderLen ok w.data opcode payload).map
            fun d => (⟨d, false⟩ : Server)) = .ok w' ∧ ServerInv w' :=
        ⟨⟨d', false⟩, by rw [hrun]; rfl, hd', nofun⟩
      rcases serverCheck_cases hcheck with ⟨hstate, rfl⟩ | ⟨hstate, rfl⟩ | ⟨hstate, rfl⟩
      · obtain ⟨d', hrun, hd'⟩ := serverIdResp_spec h.inv hstate hfine
        exact hdone hrun hd'
      · obtain ⟨d', hrun, hd'⟩ :=
          serverCommitResp_spec h.inv ok hstate (h.own hstate hwaiting) hfine
        exact hdone hrun hd'
      · obtain ⟨b, hexec⟩ := exec_confirmProg h.inv ok hstate hfine
        have hrun : serverProcess primeLen orderLen ok w.data eapPwdOpcodeConfirmExch payload =
            serverConfirmResp ok w.data payload.length := rfl
        rw [serverConfirmResp, hexec] at hrun
        refine hdone hrun ?_
        cases b with
        | false => exact ⟨h.inv.sound, h.inv.commit, h.inv.confirm⟩
        | true =>
          refine .of_sound h.inv.sound ?_
          by_cases hkeys : ok confirmProg.length = true <;> simp [hkeys]

end Steps

/-! ## Runs -/

variable (primeLen orderLen : ℕ → ℕ)

/-- **The pointers of EAP-pwd**: along a run whose requests or responses are fine the peer and the
server come to no fault, not in freeing their data either, and a packet that does not belong to the
state changes nothing. -/
theorem pwd_memory_safe {pkts : List ((ℕ → Bool) × Bytes)} {calls : List ServerCall} {num : ℕ}
    (hpeer : Along (peerNext primeLen orderLen)
      (fun x pkt => ∀ d, x = .ok d → PeerFine primeLen orderLen d pkt) (.ok (.init 0)) pkts)
    (hserver : Along (serverNext primeLen orderLen)
      (fun x call => ∀ w, x = .ok w → ServerFine primeLen orderLen w call)
      (.ok ⟨.init num, false⟩) calls) :
    (∃ d, run (peerNext primeLen orderLen) (.ok (.init 0)) pkts = .ok d ∧
      eapPwdDeinit d = .ok () ∧ ∀ pkt, PeerFine primeLen orderLen d pkt →
        ¬ Belongs d.state pkt.2 → peerProcess primeLen orderLen d pkt = .ok d) ∧
    ∃ w, run (serverNext primeLen orderLen) (.ok ⟨.init num, false⟩) calls = .ok w ∧
      eapPwdDeinit w.data = .ok () ∧ ∀ ok body, ¬ Belongs w.data.state body →
        serverStep primeLen orderLen w (.receive ok body) = .ok w := by
  constructor
  · have hrun : ∃ d, run (peerNext primeLen orderLen) (.ok (.init 0)) pkts = .ok d ∧ Inv d := by
      refine Along.run_inv (I := fun x => ∃ d, x = .ok d ∧ Inv d) ?_ ⟨_, rfl, .init 0⟩ hpeer
      rintro _ pkt ⟨d, rfl, hd⟩ hfine
      obtain ⟨d', hstep, hd', -⟩ := peerProcess_spec hd (hfine d rfl)
      exact ⟨d', hstep, hd'⟩
    obtain ⟨d, hrun, hd⟩ := hrun
    refine ⟨d, hrun, eapPwdDeinit_of hd.sound, fun pkt hfine hnot => ?_⟩
    obtain ⟨d', hstep, -, hsame⟩ := peerProcess_spec hd hfine
    rw [hstep, hsame hnot]
  · have hrun : ∃ w, run (serverNext primeLen orderLen) (.ok ⟨.init num, false⟩) calls = .ok w ∧
        ServerInv w := by
      refine Along.run_inv (I := fun x => ∃ w, x = .ok w ∧ ServerInv w) ?_
        ⟨_, rfl, .init num, fun hst => by cases hst⟩ hserver
      rintro _ call ⟨w, rfl, hw⟩ hfine
      exact serverStep_spec hw (hfine w rfl)
    obtain ⟨w, hrun, hw⟩ := hrun
    refine ⟨w, hrun, eapPwdDeinit_of hw.inv.sound, fun ok body hnot => ?_⟩
    cases body with
    | nil => rfl
    | cons opcode payload =>
      refine if_pos ?_
      by_contra hnotskip
      simp only [Bool.or_eq_true, not_or, Bool.not_eq_true, Bool.not_eq_false'] at hnotskip
      rcases serverCheck_cases hnotskip.2 with ⟨hstate, rfl⟩ | ⟨hstate, rfl⟩ | ⟨hstate, rfl⟩
      · exact hnot (.inl ⟨hstate, rfl⟩)
      · exact hnot (.inr (.inl ⟨hstate, rfl⟩))
      · exact hnot (.inr (.inr ⟨hstate, rfl⟩))

/-- Coordinates and scalars of 32 octets. -/
def len32 : ℕ → ℕ := fun _ => 32

/-- A request of group 19. -/
def idRequest (num : UInt8) : Bytes := [eapPwdOpcodeIdExch, 0, num, 1, 1, 0, 0, 0, 0, 0]

/-- The first exchange, where all calls succeed. -/
theorem pwd_memory_safe_first :
    (∃ d, run (peerNext len32 len32) (.ok (.init 0)) [(fun _ => true, idRequest 19)] = .ok d ∧
      eapPwdDeinit d = .ok () ∧ ∀ pkt, PeerFine len32 len32 d pkt →
        ¬ Belongs d.state pkt.2 → peerProcess len32 len32 d pkt = .ok d) ∧
    ∃ w, run (serverNext len32 len32) (.ok ⟨.init 19, false⟩) [.buildReq (fun _ => true) []] =
        .ok w ∧ eapPwdDeinit w.data = .ok () ∧ ∀ ok body,
        ¬ Belongs w.data.state body → serverStep len32 len32 w (.receive ok body) = .ok w := by
  refine pwd_memory_safe len32 len32 ⟨?_, trivial⟩ ⟨fun w _ => trivial, trivial⟩
  rintro d - - - - - - ⟨-, hfails⟩
  exact hfails ⟨by decide, fun _ _ => rfl⟩

/-- A Commit is the first request: the group is NULL. -/
theorem early_commit_follows_null :
    ¬ ∀ pkts, ∃ d, run (peerNext len32 len32) (.ok (.init 0)) pkts = .ok d := by
  intro h
  obtain ⟨d, hrun⟩ := h [(fun _ => true, [eapPwdOpcodeCommitExch])]
  have hfault : run (peerNext len32 len32) (.ok (.init 0))
      [(fun _ => true, [eapPwdOpcodeCommitExch])] = .error .null := rfl
  rw [hfault] at hrun
  cases hrun

end Hostapd.Pwd.Memory
