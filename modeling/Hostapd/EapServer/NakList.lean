import Hostapd.EapServer.SuccessEarned
import Hostapd.Lib.Loop

/-!
# The EAP server: the list of a Nak

A Nak lists the methods that the peer would take. `eap_sm_process_nak` removes the others from the
user's methods, in place.

* **`nakBody`**: the body of the loop, on the whole array; `nak_returns` says what the loop
  returns.
* **`nakSpan`**: where the NAK state finds the list in the packet, with the arithmetic of `size_t`.
* **`nak_filters`**: the two together, over every run.
-/

namespace Hostapd.EapServer

open Hostapd.Lib

/-! ## The loop -/

def Listed (nakList : Bytes) (entry : ℤ × EapType) : Prop :=
  entry.1 = vendorIetf ∧ entry.2 ∈ nakList.map UInt8.toUInt32

instance (nakList : Bytes) (entry : ℤ × EapType) : Decidable (Listed nakList entry) :=
  inferInstanceAs (Decidable (_ ∧ _))

/-- One round, with the array and the index: go on, or move up what is behind the entry. Source:
`eap_sm_process_nak`. -/
def nakBody (nakList : Bytes) (s : List (ℤ × EapType) × ℕ) :
    (List (ℤ × EapType) × ℕ) ⊕ List (ℤ × EapType) :=
  if s.2 < maxMethods ∧ s.1.getD s.2 noMethod ≠ noMethod then
    if Listed nakList (s.1.getD s.2 noMethod) then .inl (s.1, s.2 + 1)
    else .inl (s.1.take s.2 ++ s.1.drop (s.2 + 1) ++ [noMethod], s.2)
  else .inr s.1

/-- The methods of a user: an array whose entries behind the methods are terminators. Source:
`eap.h`, `struct eap_user`, as `hostapd_config_read_eap_user` fills it. -/
structure MethodArray where
  methods : List (ℤ × EapType)
  free : ℕ
  methods_ne : ∀ entry ∈ methods, entry ≠ noMethod
  length_eq : methods.length + free = maxMethods

def MethodArray.entries (a : MethodArray) : List (ℤ × EapType) :=
  a.methods ++ List.replicate a.free noMethod

@[simp] theorem MethodArray.length_entries (a : MethodArray) : a.entries.length = maxMethods := by
  rw [entries, List.length_append, List.length_replicate, a.length_eq]

/-- The entries in front of an index, then the methods behind it that a Nak lists, and terminators.
-/
def MethodArray.filtered (a : MethodArray) (nakList : Bytes) (idx : ℕ) : List (ℤ × EapType) :=
  let kept := a.entries.take idx ++ (a.methods.drop idx).filter (Listed nakList)
  kept ++ List.replicate (maxMethods - kept.length) noMethod

section Loop

variable {nakList : Bytes}

theorem nak_returns_from (nakList : Bytes) (pre : List (ℤ × EapType)) {methods : List (ℤ × EapType)} (free : ℕ)
    (hne : ∀ entry ∈ methods, entry ≠ noMethod)
    (hlen : pre.length + (methods.length + free) = maxMethods) :
    Returns (nakBody nakList) (pre ++ (methods ++ List.replicate free noMethod), pre.length)
      (pre ++ (methods.filter (Listed nakList) ++
        List.replicate (methods.length - (methods.filter (Listed nakList)).length + free)
          noMethod)) := by
  induction methods generalizing pre free with
  | nil =>
    have hend : nakBody nakList (pre ++ ([] ++ List.replicate free noMethod), pre.length) =
        .inr (pre ++ ([] ++ List.replicate free noMethod)) := by
      have hget : (pre ++ ([] ++ List.replicate free noMethod)).getD pre.length noMethod =
          noMethod := by
        rw [List.getD_eq_getElem?_getD, List.getElem?_append_right le_rfl, Nat.sub_self]
        cases free <;> rfl
      rw [nakBody, if_neg]
      rintro ⟨-, hgo⟩
      exact hgo hget
    rw [returns_iff_of_done hend]
    simp
  | cons entry methods ih =>
    have hentry : entry ≠ noMethod := hne entry List.mem_cons_self
    have hrest : ∀ entry ∈ methods, entry ≠ noMethod := fun e he =>
      hne e (List.mem_cons_of_mem entry he)
    have hget : (pre ++ (entry :: methods ++ List.replicate free noMethod)).getD pre.length
        noMethod = entry := by
      rw [List.getD_eq_getElem?_getD, List.getElem?_append_right le_rfl, Nat.sub_self]
      rfl
    rw [List.length_cons] at hlen
    have hgo : pre.length < maxMethods ∧
        (pre ++ (entry :: methods ++ List.replicate free noMethod)).getD pre.length noMethod ≠
          noMethod := by
      rw [hget]
      exact ⟨by omega, hentry⟩
    by_cases hlisted : Listed nakList entry
    · -- the entry stays, and the loop goes on behind it
      have hbody : nakBody nakList
          (pre ++ (entry :: methods ++ List.replicate free noMethod), pre.length) =
          .inl ((pre ++ [entry]) ++ (methods ++ List.replicate free noMethod),
            (pre ++ [entry]).length) := by
        rw [nakBody, if_pos hgo, hget, if_pos hlisted]
        simp
      have hnext := ih (pre ++ [entry]) free hrest
        (by rw [List.length_append, List.length_singleton]; omega)
      rw [returns_iff_of_next hbody]
      simpa [hlisted] using hnext
    · -- the entry goes, and the array gets a terminator
      have hbody : nakBody nakList
          (pre ++ (entry :: methods ++ List.replicate free noMethod), pre.length) =
          .inl (pre ++ (methods ++ List.replicate (free + 1) noMethod), pre.length) := by
        rw [nakBody, if_pos hgo, hget, if_neg hlisted, List.replicate_succ']
        simp
      have hnext := ih pre (free + 1) hrest (by omega)
      have hcount : (methods.filter (Listed nakList)).length ≤ methods.length :=
        List.length_filter_le _ _
      rw [returns_iff_of_next hbody]
      have hfree : methods.length - (methods.filter (Listed nakList)).length + (free + 1) =
          methods.length + 1 - (methods.filter (Listed nakList)).length + free := by omega
      simpa [hlisted, hfree] using hnext

theorem processNakLoop_append {methods : List (ℤ × EapType)} (free : ℕ)
    (hne : ∀ entry ∈ methods, entry ≠ noMethod) :
    processNakLoop nakList (methods ++ List.replicate free noMethod) =
      methods.filter (Listed nakList) ++
        List.replicate (methods.length - (methods.filter (Listed nakList)).length + free)
          noMethod := by
  induction methods with
  | nil =>
    cases free with
    | zero => rfl
    | succ free => simp [List.replicate_succ, processNakLoop]
  | cons entry methods ih =>
    have hentry : entry ≠ noMethod := hne entry List.mem_cons_self
    have hrest := ih fun e he => hne e (List.mem_cons_of_mem entry he)
    have hcount : (methods.filter (Listed nakList)).length ≤ methods.length :=
      List.length_filter_le _ _
    rw [List.cons_append, processNakLoop, if_neg hentry, hrest]
    by_cases hlisted : Listed nakList entry
    · have hpos : entry.1 = vendorIetf ∧ entry.2 ∈ nakList.map UInt8.toUInt32 := hlisted
      rw [if_pos hpos]
      simp [hlisted]
    · have hneg : ¬ (entry.1 = vendorIetf ∧ entry.2 ∈ nakList.map UInt8.toUInt32) := hlisted
      have hfree : methods.length + 1 - (methods.filter (Listed nakList)).length + free =
          methods.length - (methods.filter (Listed nakList)).length + free + 1 := by omega
      rw [if_neg hneg]
      simp only [List.filter_cons, decide_eq_false hlisted, Bool.false_eq_true, if_false,
        List.length_cons, hfree, List.replicate_succ', List.append_assoc]

theorem MethodArray.drop_entries (a : MethodArray) (idx : ℕ) :
    a.entries.drop idx =
      a.methods.drop idx ++ List.replicate (a.free - (idx - a.methods.length)) noMethod := by
  rw [entries, List.drop_append, List.drop_replicate]

theorem MethodArray.filtered_eq (a : MethodArray) (idx : ℕ) :
    a.filtered nakList idx = a.entries.take idx ++ ((a.methods.drop idx).filter (Listed nakList) ++
      List.replicate ((a.methods.drop idx).length -
        ((a.methods.drop idx).filter (Listed nakList)).length +
          (a.free - (idx - a.methods.length))) noMethod) := by
  have hcount : ((a.methods.drop idx).filter (Listed nakList)).length ≤ (a.methods.drop idx).length :=
    List.length_filter_le _ _
  have hlen := a.length_eq
  have hdrop : (a.methods.drop idx).length = a.methods.length - idx := List.length_drop
  have htake : (a.entries.take idx).length = min idx maxMethods := by
    rw [List.length_take, a.length_entries]
  rw [filtered, List.append_assoc, List.length_append, htake]
  congr 4
  omega

theorem nak_returns (a : MethodArray) (idx : ℕ) :
    Returns (nakBody nakList) (a.entries, idx) (a.filtered nakList idx) := by
  rw [a.filtered_eq]
  by_cases hidx : idx ≤ maxMethods
  · have hpre : (a.entries.take idx).length = idx := by
      rw [List.length_take, a.length_entries, Nat.min_eq_left hidx]
    have hne : ∀ entry ∈ a.methods.drop idx, entry ≠ noMethod := fun e he =>
      a.methods_ne e (List.mem_of_mem_drop he)
    have hlen := a.length_eq
    have hdrop : (a.methods.drop idx).length = a.methods.length - idx := List.length_drop
    have hloop := nak_returns_from nakList (a.entries.take idx)
      (a.free - (idx - a.methods.length)) hne (by omega)
    rwa [← a.drop_entries, List.take_append_drop, hpre] at hloop
  · have hend : nakBody nakList (a.entries, idx) = .inr a.entries := by
      rw [nakBody, if_neg]
      rintro ⟨hlt, -⟩
      exact hidx hlt.le
    have hlen := a.length_eq
    have hnone : a.methods.drop idx = [] := List.drop_of_length_le (by omega)
    have hfree : a.free - (idx - a.methods.length) = 0 := by omega
    rw [returns_iff_of_done hend, hnone, hfree, List.take_of_length_le (by simp; omega)]
    simp

theorem processNak_methods (a : MethodArray) (vars : MethodVars) {user : EapUser}
    (huser : vars.user = some user) (hmethods : user.methods = a.entries) :
    (processNak nakList vars).user =
      some { user with methods := a.filtered nakList vars.userEapMethodIndex } := by
  have hne : ∀ entry ∈ a.methods.drop vars.userEapMethodIndex, entry ≠ noMethod := fun e he =>
    a.methods_ne e (List.mem_of_mem_drop he)
  rw [a.filtered_eq, ← processNakLoop_append _ hne, ← a.drop_entries, processNak, huser,
    Option.map_some, hmethods]

end Loop

/-! ## The list in the packet -/

/-- Where the list is in the packet: an offset and a length, a `size_t`. Source: `SM_STATE(EAP, NAK)`.
-/
def nakSpan (buf : Bytes) : Option (ℕ × BitVec 64) :=
  if hdrLen < buf.length then
    let len := BitVec.ofNat 64 (min (hdr buf).2.2 buf.length) - 4#64
    if (buf.getD hdrLen 0).toUInt32 = typeNak then some (hdrLen + 1, len - 1#64) else none
  else none

/-- The list lies inside the packet, and is what the policy is given. -/
def NakInside (resp : Option Bytes) : Prop :=
  ∀ buf, resp = some buf → ∀ off len, nakSpan buf = some (off, len) →
    off + len.toNat ≤ buf.length ∧ nakList resp = some ((buf.drop off).take len.toNat)

theorem length_of_respMethod {buf : Bytes}
    (h : (parseEapResp (some buf)).respMethod ≠ typeNone) :
    hdrLen < (hdr buf).2.2 ∧ (hdr buf).2.2 ≤ buf.length := by
  rw [parseEapResp] at h
  generalize hdr buf = head at h ⊢
  obtain ⟨code, identifier, plen⟩ := head
  dsimp only at h ⊢
  split at h
  · exact absurd rfl h
  case isFalse hfits =>
    split at h
    case isTrue htype => exact ⟨htype, by omega⟩
    case isFalse => exact absurd rfl h

theorem nakInside_of_parsed {resp : Option Bytes} (h : (parseEapResp resp).isOf typeNak = true) :
    NakInside resp := by
  rintro buf rfl off len hspan
  have htype : (parseEapResp (some buf)).respMethod ≠ typeNone := by
    intro hnone
    simp [Resp.isOf, hnone, typeNone, typeNak, typeExpanded] at h
  obtain ⟨hmin, hmax⟩ := length_of_respMethod htype
  have hoctets : (hdr buf).2.2 < 256 ^ 2 := by
    refine lt_of_lt_of_le (beNat_lt _) (Nat.pow_le_pow_right (by decide) ?_)
    rw [List.length_take]
    exact Nat.min_le_left _ _
  rw [nakSpan, if_pos (lt_of_lt_of_le hmin hmax)] at hspan
  dsimp only at hspan
  split at hspan
  case isFalse => cases hspan
  case isTrue hnak =>
    have hlen : (BitVec.ofNat 64 (min (hdr buf).2.2 buf.length) - 4#64 - 1#64).toNat =
        min (hdr buf).2.2 buf.length - hdrLen - 1 := by
      rw [hdrLen] at hmin
      rw [Nat.min_eq_left hmax]
      simp only [BitVec.toNat_sub, BitVec.toNat_ofNat, hdrLen]
      omega
    cases hspan
    rw [hlen]
    refine ⟨?_, ?_⟩
    · rw [Nat.min_eq_left hmax]
      omega
    · rw [nakList, Option.bind_some, if_pos ⟨lt_of_lt_of_le hmin hmax, hnak⟩]

/-! ## Entering NAK -/

section Entering

variable {π ω : Type} {registered : List (EapMethod π ω)} {w : World ω}

theorem enterPickUpMethod_state (registered : List (EapMethod π ω)) (w : World ω)
    (sm : EapSm π ω) : (enterPickUpMethod registered w sm).eapState = .pickUpMethod := by
  unfold enterPickUpMethod
  dsimp only
  split
  · split
    · rfl
    · split <;> rfl
  · rfl

theorem enterProposeMethod_state (registered : List (EapMethod π ω)) (w : World ω)
    (sm : EapSm π ω) : (enterProposeMethod registered w sm).eapState = .proposeMethod := by
  unfold enterProposeMethod
  dsimp only
  split
  · rfl
  · split <;> rfl

variable {sm sm' : EapSm π ω}

theorem smSwitch_nak (h : smSwitch registered w sm = some sm')
    (hnak : sm'.eapState = .nak) :
    sm.isOf typeNak = true ∧ enterNak sm = some sm' ∧
      (sm.eapState = .received ∨ sm.eapState = .initialise ∧ sm.backendAuth = true) := by
  have hother (hplain : Plain sm'.eapState = true) : False := by
    rw [hnak] at hplain
    cases hplain
  have hquiet {sm'' : EapSm π ω} (heq : some sm'' = some sm') (hq : Quiet sm sm'') : False :=
    hother (Option.some.inj heq ▸ hq.plain)
  have hstate {st : EapState} (hst : sm'.eapState = st) (hne : decide (st = .nak) = false) :
      False := of_decide_eq_false hne (hst.symm.trans hnak)
  cases hst : sm.eapState with
  | initialise =>
    simp only [smSwitch, hst] at h
    split at h
    case isTrue hbackend =>
      split at h
      · exact (hstate (enterSelectAction_entered h).1 rfl).elim
      split at h
      case isTrue hof => exact ⟨hof, h, .inr ⟨rfl, hbackend⟩⟩
      case isFalse =>
        cases h
        exact (hstate (enterPickUpMethod_state registered w sm) rfl).elim
    case isFalse => exact (hstate (enterSelectAction_entered h).1 rfl).elim
  | received =>
    simp only [smSwitch, hst] at h
    split at h
    case isTrue htakes =>
      simp only [EapSm.takesNak, Bool.and_eq_true] at htakes
      exact ⟨htakes.1.2, h, .inl rfl⟩
    split at h
    · obtain ⟨-, ignore, rfl⟩ := enterIntegrityCheck_spec h
      exact (hstate rfl rfl).elim
    · cases h
      exact (hstate rfl rfl).elim
  | pickUpMethod =>
    simp only [smSwitch, hst] at h
    split at h
    · exact (hstate (enterSelectAction_entered h).1 rfl).elim
    · exact (hstate (enterMethodResponse_spec h).state rfl).elim
  | integrityCheck =>
    simp only [smSwitch, hst] at h
    split at h
    · cases h
      exact (hstate rfl rfl).elim
    · exact (hstate (enterMethodResponse_spec h).state rfl).elim
  | methodResponse =>
    simp only [smSwitch, hst] at h
    split at h
    · exact (hstate (enterSelectAction_entered h).1 rfl).elim
    split at h
    · cases h
      exact (hstate hst rfl).elim
    · exact (hstate (enterMethodResponse_spec h).state rfl).elim
    · exact (hstate (enterMethodRequest_spec h).1 rfl).elim
  | proposeMethod =>
    simp only [smSwitch, hst] at h
    split at h
    · cases h
      exact (hstate rfl rfl).elim
    · cases h
      exact (hstate (enterProposeMethod_state registered w _) rfl).elim
    · exact (hstate (enterMethodRequest_spec h).1 rfl).elim
  | nak =>
    simp only [smSwitch, hst] at h
    exact (hstate (enterSelectAction_entered h).1 rfl).elim
  | selectAction =>
    simp only [smSwitch, hst] at h
    cases hdecision : sm.decision with
    | cont =>
      rw [hdecision] at h
      cases h
      exact (hstate (enterProposeMethod_state registered w _) rfl).elim
    | failure | success | passthrough =>
      rw [hdecision] at h
      cases h
      exact (hstate rfl rfl).elim
  | disabled =>
    simp only [smSwitch, hst] at h
    split at h
    · cases h
      exact (hstate (enterInitialise_spec false sm).1 rfl).elim
    · cases h
      exact (hstate hst rfl).elim
  | idle =>
    simp only [smSwitch, hst] at h
    split at h
    · exact (hquiet h (quiet_resend rfl).of_entry).elim
    split at h
    · cases h
      exact (hstate rfl rfl).elim
    · cases h
      exact (hstate hst rfl).elim
  | idle2 =>
    simp only [smSwitch, hst] at h
    split at h
    · cases h
      exact (hstate rfl rfl).elim
    split at h
    · exact (hquiet h (quiet_resend rfl).of_entry).elim
    · cases h
      exact (hstate hst rfl).elim
  | retransmit | retransmit2 =>
    simp only [smSwitch, hst] at h
    split at h
    · cases h
      exact (hstate rfl rfl).elim
    · cases h
      exact (hstate rfl rfl).elim
  | methodRequest | aaaResponse =>
    simp only [smSwitch, hst] at h
    exact (hquiet h (quiet_sendReq rfl).of_entry).elim
  | initializePassthrough =>
    simp only [smSwitch, hst] at h
    split at h
    · cases h
      exact (hstate rfl rfl).elim
    · exact (hquiet h (quiet_aaaRequest sm)).elim
  | received2 =>
    simp only [smSwitch, hst] at h
    split at h
    · exact (hquiet h (quiet_aaaRequest sm)).elim
    · cases h
      exact (hstate rfl rfl).elim
  | aaaIdle =>
    simp only [smSwitch, hst] at h
    split at h
    · cases h
      exact (hstate rfl rfl).elim
    split at h
    · cases h
      exact (hstate rfl rfl).elim
    split at h
    · cases h
      exact (hstate rfl rfl).elim
    split at h
    · cases h
      exact (hstate rfl rfl).elim
    · cases h
      exact (hstate hst rfl).elim
  | discard | sendRequest | discard2 | sendRequest2 | aaaRequest =>
    simp only [smSwitch, hst] at h
    cases h
    exact (hstate rfl rfl).elim
  | timeoutFailure | failure | success | timeoutFailure2 | failure2 | success2 =>
    simp only [smSwitch, hst] at h
    cases h
    exact (hstate hst rfl).elim

/-- A machine in INITIALIZE has just entered it, and parsed the response if it picks one up. -/
def Started (sm : EapSm π ω) : Prop :=
  sm.eapState = .initialise → sm.changed = true ∧ sm.eapRestart = false ∧
    (sm.backendAuth = true → sm.toResp = parseEapResp sm.eapRespData)

theorem started_of_ne {sm : EapSm π ω} (h : sm.eapState ≠ .initialise) : Started sm :=
  fun hst => absurd hst h

theorem started_of_state {sm : EapSm π ω} {st : EapState} (h : sm.eapState = st)
    (hne : decide (st = .initialise) = false) : Started sm :=
  started_of_ne (h ▸ of_decide_eq_false hne)

theorem started_initialise {g : Bool} {sm : EapSm π ω} (h : g = true → sm.eapState ≠ .initialise) :
    Started (enterInitialise g sm) := by
  intro _
  have hchanged : (smEntry g .initialise sm).changed = true := by
    cases g with
    | false => simp [smEntry]
    | true => simp [smEntry, h rfl]
  cases hbackend : sm.backendAuth <;>
    simpa [enterInitialise, smEntry, hbackend] using hchanged

theorem Started.smStep (hgood : Good sm) (h : Started sm)
    (hsm' : smStep registered w { sm with changed := false } = some sm') : Started sm' := by
  have hinv := hgood.unchanged.1.inv
  rw [EapServer.smStep] at hsm'
  split at hsm'
  case isTrue hrestart =>
    cases hsm'
    refine started_initialise fun _ hst => ?_
    rw [Bool.and_eq_true] at hrestart
    cases (h hst).2.1.symm.trans hrestart.1
  split at hsm'
  · cases hsm'
    exact started_of_state rfl rfl
  split at hsm'
  case isTrue hover =>
    split at hsm'
    · cases hsm'
      exact started_of_state rfl rfl
    case isFalse hmore =>
      cases hsm'
      have habort : sm.eapState = .failure ∨ sm.eapState = .success :=
        hgood.rounds.abort (lt_of_le_of_ne hover (Ne.symm hmore))
      refine started_of_ne fun hst => ?_
      rcases habort with hother | hother
      · cases hother.symm.trans hst
      · cases hother.symm.trans hst
  case isFalse =>
    have hmove := smSwitch_move hsm'
    cases hmove with
    | quiet hq => exact started_of_ne fun hst => Bool.noConfusion (hst ▸ hq.plain)
    | stay hst =>
      refine started_of_ne fun hinit => ?_
      rcases hst with hst | hst | hst
      · cases hst.symm.trans hinit
      · cases hst.symm.trans hinit
      · cases hst.symm.trans hinit
    | initialise => exact started_initialise fun h => Bool.noConfusion h
    | pickUp => exact started_of_state (enterPickUpMethod_state registered w _) rfl
    | received => exact started_of_state rfl rfl
    | check _ hcheck =>
      obtain ⟨-, ignore, rfl⟩ := enterIntegrityCheck_spec hcheck
      exact started_of_state rfl rfl
    | response _ hresp => exact started_of_state (enterMethodResponse_spec hresp).state rfl
    | again _ hresp => exact started_of_state (enterMethodResponse_spec hresp).state rfl
    | request hreq => exact started_of_state (enterMethodRequest_spec hreq).1 rfl
    | propose => exact started_of_state (enterProposeMethod_state registered w _) rfl
    | nak hnak => exact started_of_state (enterNak_spec hnak).1 rfl
    | select _ hselect => exact started_of_state (enterSelectAction_entered hselect).1 rfl
    | success => exact started_of_state rfl rfl

theorem Started.call {sm : EapSm π ω} (h : Started sm) (op : Op ω) :
    Started (if sm.changed then sm else call sm op) := by
  split
  case isTrue => exact h
  case isFalse hrest =>
    have hne : sm.eapState ≠ .initialise := fun hst => hrest (h hst).1
    apply started_of_ne
    cases op with
    | smStep w => exact hne
    | lower vars => exact hne
    | pendingCb =>
      rw [EapServer.call]
      split <;> exact hne
    | notifyCached => rintro ⟨⟩
    | clearIdentity => exact hne
    | methodEvent env =>
      simp only [EapServer.call]
      split <;> exact hne

theorem Started.step (hgood : Good sm) (h : Started sm) {op : Op ω}
    (hsm' : step registered (some sm) op = some sm') : Started sm' := by
  cases op with
  | smStep w => exact h.smStep hgood hsm'
  | lower vars => exact Option.some.inj hsm' ▸ h.call (.lower vars)
  | pendingCb => exact Option.some.inj hsm' ▸ h.call .pendingCb
  | notifyCached => exact Option.some.inj hsm' ▸ h.call .notifyCached
  | clearIdentity => exact Option.some.inj hsm' ▸ h.call .clearIdentity
  | methodEvent env => exact Option.some.inj hsm' ▸ h.call (.methodEvent env)

theorem nakInside_of_entered (hgood : Good sm) (h : Started sm)
    (hsm' : smStep registered w { sm with changed := false } = some sm')
    (hnak : sm'.eapState = .nak) (hentered : sm'.changed = true) : NakInside sm.eapRespData := by
  have hfacts := hgood.facts
  rcases smStep_cases hsm' with rfl | rfl | ⟨-, rfl⟩ | ⟨-, rfl⟩ | ⟨-, hswitch⟩
  · exact absurd ((enterInitialise_spec true _).1.symm.trans hnak) nofun
  · exact absurd hnak nofun
  · exact absurd hnak nofun
  · exact absurd hentered nofun
  · obtain ⟨hof, -, hfrom⟩ := smSwitch_nak hswitch hnak
    have hparsed : sm.toResp = parseEapResp sm.eapRespData := by
      rcases hfrom with hst | ⟨hst, hbackend⟩
      · exact hfacts.at hst
      · exact (h hst).2.2 hbackend
    apply nakInside_of_parsed
    rw [← hparsed]
    exact hof

end Entering

/-- Source: `eap_sm_process_nak`, `SM_STATE(EAP, NAK)`. The loop returns for every array of methods,
index and list, with the entries in front of the index, the methods behind it that are listed, and
terminators; and in every run NAK is entered only for a packet whose list is inside it. -/
theorem nak_filters {π ω : Type} (registered : List (EapMethod π ω)) (eapServer backendAuth : Bool)
    (ops : List (Op ω)) :
    (∀ (a : MethodArray) (list : Bytes) (vars : MethodVars),
      Returns (nakBody list) (a.entries, vars.userEapMethodIndex)
        (a.filtered list vars.userEapMethodIndex) ∧
      ∀ user, vars.user = some user → user.methods = a.entries →
        (processNak list vars).user =
          some { user with methods := a.filtered list vars.userEapMethodIndex }) ∧
    Along (step registered) (fun s op => ∀ w sm sm', op = .smStep w → s = some sm →
        step registered s op = some sm' → sm'.eapState = .nak → sm'.changed = true →
          NakInside sm.eapRespData) (some (init eapServer backendAuth)) ops := by
  refine ⟨fun a list vars => ⟨nak_returns a _, fun user huser hmethods =>
    processNak_methods a vars huser hmethods⟩, ?_⟩
  have hany : Along (step registered) (fun _ _ => True) (some (init eapServer backendAuth)) ops :=
    along_of_forall (P := fun _ => True) (fun _ _ => trivial) _
  refine (along_congr (I := fun s => ∀ sm, s = some sm → Good sm ∧ Started sm) ?_ ?_
    (fun sm hsm => Option.some.inj hsm ▸
      ⟨good_init eapServer backendAuth, started_of_ne nofun⟩) ops).mpr hany
  · intro s op hinv _ sm' hsm'
    obtain ⟨sm, rfl, -⟩ := Option.bind_eq_some_iff.mp hsm'
    obtain ⟨hgood, hstarted⟩ := hinv sm rfl
    exact ⟨hgood.step hsm', hstarted.step hgood hsm'⟩
  · refine fun s op hinv => iff_of_true ?_ trivial
    rintro w sm sm' rfl rfl hsm' hnak hentered
    obtain ⟨hgood, hstarted⟩ := hinv sm rfl
    exact nakInside_of_entered hgood hstarted hsm' hnak hentered

/-- A Nak for one of the methods behind the first: the vendor method goes, the duplicate stays. -/
example : (⟨[(vendorIetf, 4), (vendorIetf, 25), (9, 1), (vendorIetf, 13), (vendorIetf, 25)], 3,
    by decide, rfl⟩ : MethodArray).filtered [25] 1 =
      [(vendorIetf, 4), (vendorIetf, 25), (vendorIetf, 25)] ++ List.replicate 5 noMethod := by
  decide

end Hostapd.EapServer
