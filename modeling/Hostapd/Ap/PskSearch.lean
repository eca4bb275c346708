import Hostapd.Ap.Ft
import Hostapd.Lib.Enumerate

/-!
# The PSK of a station

The list of configured PSKs, the iterator over those of a station (`ap_config.c`), and the loop of
`PTKCALCNEGOTIATING` (`wpa_auth.c`) that looks for the one that a received message 2/4 was made
with. Built with fast BSS transition.

* **`hostapdGetPsk`** resumes behind the PSK it returned last. `hostapdGetPsk_enumerates`: it gives
  the PSKs of the station, shared or with its address, in the order of the list.
* `calcRound` is one round of the loop, **`finish`** what the state does behind it.
* **`CompleteSearch`**: what is asked for.
* **`psk_search`**: exactly when it holds. `wpa_auth_derive_ptk_ft` derives the PTK from the root
  key that `INITPSK` chose, whichever PSK it is given, so with fast BSS transition only the first
  PSK of a station is ever tried. And a `MICVerified` that an older PTK has set stays set.
-/

namespace Hostapd.Ap.PskSearch

open Hostapd.Lib Hostapd.Ft Hostapd.Ap.Ft

/-! ## The list of PSKs -/

structure HostapdWpaPsk where
  group : Bool
  psk : Pmk
  addr : MacAddr
  deriving DecidableEq

/-- A pointer to a PMK with what it points to: the PSK at a position of the list, or the PMK of the
machine itself. -/
structure PmkRef where
  pos : Option ℕ
  pmk : Pmk
  deriving DecidableEq

def HostapdWpaPsk.meets (psk : HostapdWpaPsk) (addr : MacAddr) : Bool :=
  psk.group || psk.addr == addr

/-- The loop over the list, from the entry with position `i` on. -/
def getPskFrom (addr : MacAddr) (prevPsk : Option PmkRef) :
    ℕ → Bool → List HostapdWpaPsk → Option PmkRef
  | _, _, [] => none
  | i, nextOk, psk :: rest =>
    if nextOk && psk.meets addr then some ⟨some i, psk.psk⟩
    else
      getPskFrom addr prevPsk (i + 1) (nextOk || prevPsk.bind PmkRef.pos == some i) rest

def hostapdGetPsk (psks : List HostapdWpaPsk) (addr : MacAddr) (prevPsk : Option PmkRef) :
    Option PmkRef :=
  getPskFrom addr prevPsk 0 prevPsk.isNone psks

/-- The PSKs of a station, in the order of the list, from the entry with position `i` on. -/
def stationPsksFrom (addr : MacAddr) : ℕ → List HostapdWpaPsk → List PmkRef
  | _, [] => []
  | i, psk :: rest =>
    if psk.meets addr then ⟨some i, psk.psk⟩ :: stationPsksFrom addr (i + 1) rest
    else stationPsksFrom addr (i + 1) rest

def stationPsks (psks : List HostapdWpaPsk) (addr : MacAddr) : List PmkRef :=
  stationPsksFrom addr 0 psks

section Iterator

variable {addr : MacAddr} {prevPsk : Option PmkRef}

theorem getPskFrom_true (i : ℕ) (l : List HostapdWpaPsk) :
    getPskFrom addr prevPsk i true l = (stationPsksFrom addr i l).head? := by
  induction l generalizing i with
  | nil => rfl
  | cons psk rest ih =>
    by_cases hmeets : psk.meets addr = true
    · simp [getPskFrom, stationPsksFrom, hmeets]
    · simp [getPskFrom, stationPsksFrom, hmeets, ih]

theorem getPskFrom_false {j : ℕ} (hprev : prevPsk.bind PmkRef.pos = some j)
    (pre : List HostapdWpaPsk) (psk : HostapdWpaPsk) (rest : List HostapdWpaPsk) (i : ℕ)
    (hj : j = i + pre.length) :
    getPskFrom addr prevPsk i false (pre ++ psk :: rest) =
      (stationPsksFrom addr (j + 1) rest).head? := by
  induction pre generalizing i with
  | nil =>
    obtain rfl : j = i := by simpa using hj
    simp [getPskFrom, hprev, getPskFrom_true]
  | cons x pre ih =>
    have hne : (j == i) = false := by
      simp only [List.length_cons] at hj
      simp only [beq_eq_false_iff_ne]
      omega
    have hstep := ih (i + 1) (by simp only [List.length_cons] at hj; omega)
    simpa [getPskFrom, hprev, hne] using hstep

theorem hostapdGetPsk_none (psks : List HostapdWpaPsk) :
    hostapdGetPsk psks addr none = (stationPsks psks addr).head? :=
  getPskFrom_true 0 psks

theorem hostapdGetPsk_some (pre : List HostapdWpaPsk) (psk : HostapdWpaPsk)
    (rest : List HostapdWpaPsk) (pmk : Pmk) :
    hostapdGetPsk (pre ++ psk :: rest) addr (some ⟨some pre.length, pmk⟩) =
      (stationPsksFrom addr (pre.length + 1) rest).head? :=
  getPskFrom_false rfl pre psk rest 0 (by omega)

theorem enumerates_from {psks : List HostapdWpaPsk} (l pre : List HostapdWpaPsk)
    (hpsks : psks = pre ++ l)
    (hnext : hostapdGetPsk psks addr prevPsk = (stationPsksFrom addr pre.length l).head?) :
    Enumerates (hostapdGetPsk psks addr) prevPsk (stationPsksFrom addr pre.length l) := by
  induction l generalizing pre prevPsk with
  | nil => exact .nil hnext
  | cons psk rest ih =>
    have hpsks' : psks = (pre ++ [psk]) ++ rest := by simp [hpsks]
    have hlen : (pre ++ [psk]).length = pre.length + 1 := by simp
    have htail := fun p => @ih p (pre ++ [psk]) hpsks'
    simp only [hlen] at htail
    by_cases hmeets : psk.meets addr = true
    · have hlist : stationPsksFrom addr pre.length (psk :: rest) =
          ⟨some pre.length, psk.psk⟩ :: stationPsksFrom addr (pre.length + 1) rest := by
        simp [stationPsksFrom, hmeets]
      rw [hlist] at hnext ⊢
      refine .cons hnext (htail _ ?_)
      rw [hpsks]
      exact hostapdGetPsk_some pre psk rest psk.psk
    · have hlist : stationPsksFrom addr pre.length (psk :: rest) =
          stationPsksFrom addr (pre.length + 1) rest := by
        simp [stationPsksFrom, hmeets]
      rw [hlist] at hnext ⊢
      exact htail _ hnext

/-- **The iterator** gives the PSKs of the station, in the order of the list. -/
theorem hostapdGetPsk_enumerates (psks : List HostapdWpaPsk) (addr : MacAddr) :
    Enumerates (hostapdGetPsk psks addr) none (stationPsks psks addr) :=
  enumerates_from psks [] rfl (hostapdGetPsk_none psks)

theorem pos_of_mem_stationPsksFrom {ref : PmkRef} (i : ℕ) (l : List HostapdWpaPsk)
    (h : ref ∈ stationPsksFrom addr i l) : ∃ j, i ≤ j ∧ ref.pos = some j := by
  induction l generalizing i with
  | nil => simp [stationPsksFrom] at h
  | cons psk rest ih =>
    have hrest : ref ∈ stationPsksFrom addr (i + 1) rest → ∃ j, i ≤ j ∧ ref.pos = some j := by
      intro hmem
      obtain ⟨j, hj, hpos⟩ := ih (i + 1) hmem
      exact ⟨j, by omega, hpos⟩
    by_cases hmeets : psk.meets addr = true
    · simp only [stationPsksFrom, hmeets, if_true, List.mem_cons] at h
      rcases h with rfl | hmem
      · exact ⟨i, Nat.le_refl i, rfl⟩
      · exact hrest hmem
    · simp only [stationPsksFrom, hmeets] at h
      exact hrest h

theorem stationPsksFrom_nodup (i : ℕ) (l : List HostapdWpaPsk) :
    (stationPsksFrom addr i l).Nodup := by
  induction l generalizing i with
  | nil => exact List.nodup_nil
  | cons psk rest ih =>
    by_cases hmeets : psk.meets addr = true
    · simp only [stationPsksFrom, hmeets, if_true]
      refine List.nodup_cons.mpr ⟨?_, ih (i + 1)⟩
      intro hmem
      obtain ⟨j, hj, hpos⟩ := pos_of_mem_stationPsksFrom (i + 1) rest hmem
      have : i = j := Option.some.inj hpos
      omega
    · simp only [stationPsksFrom, hmeets]
      exact ih (i + 1)

end Iterator

/-! ## The machine -/

/-- What the search uses of the machine of a station; `lastRxEapolKey` is the message 2/4, `stored`
what was put into the cache of PMK-R1. Source: `struct wpa_state_machine`. -/
structure PskSm where
  addr : MacAddr
  ft : FtSm
  pmk : Pmk
  ptkValid : Bool
  micVerified : Bool
  eapolKeyReceived : Bool
  pending1Of4Timeout : Bool
  lastRxEapolKey : EapolKey
  stored : List PmkR1Sa

def pmkOctets (pmk : Pmk) : Bytes := putBe 32 pmk.toNat

def nonceOf (octets : Bytes) : Nonce := BitVec.ofNat 256 (beNat octets)

/-- Source: `WPA_KEY_INFO_TYPE_AES_128_CMAC`. -/
def aes128Cmac : KeyInfo := 3#16

variable (C : Crypto) (F : FtCrypto) (conf : FtConf)

/-- Source: `wpa_eapol_key_mic`, with the descriptor version that fast BSS transition adds. -/
def eapolKeyMic (key : BitVec 128) (ver : KeyInfo) (buf : Bytes) : Option (BitVec 128) :=
  if ver = aes128Cmac then some (BitVec.ofNat 128 (beNat (F.omac1 key buf).toList))
  else wpaEapolKeyMic C key ver buf

/-- Source: `wpa_verify_key_mic`. -/
def verifyKeyMic (ptk : Ptk) (f : EapolKey) : Bool :=
  eapolKeyMic C F ptk.kck f.keyInfo.version { f with keyMic := 0#128 }.toBytes == some f.keyMic

def PskSm.expandedPtk (sm : PskSm) (pmk : Pmk) : Ptk :=
  wpaPmkToPtk C pmk conf.addr sm.addr (nonceOf sm.ft.aNonce) (nonceOf sm.ft.sNonce)
    (sm.ft.pairwise != .ccmp)

/-- Source: `wpa_derive_ptk`. With fast BSS transition the PMK is not used; where there is no root
key the PTK is not written, and the result -1 is not looked at. -/
def wpaDerivePtk (sm : PskSm) (pmk : Pmk) (ptk : Ptk) : PskSm × Ptk :=
  if keyMgmtFt sm.ft.wpaKeyMgmt then
    match sm.ft.xxkey with
    | none => (sm, ptk)
    | some xxkey =>
      let d := derivePtkFt F conf sm.addr sm.ft xxkey
      ({ sm with
          ft := { sm.ft with pmkR1Name := d.pmkR1Name }
          stored := ⟨d.pmkR1, d.pmkR1Name, sm.addr, sm.ft.pairwise⟩ :: sm.stored }, d.ptk)
  else (sm, sm.expandedPtk C conf pmk)

/-- Source: `SM_STATE(WPA_PTK, INITPSK)`. -/
def enterInitPsk (psks : List HostapdWpaPsk) (sm : PskSm) : PskSm :=
  match hostapdGetPsk psks sm.addr none with
  | some ref =>
    { sm with pmk := ref.pmk, ft := { sm.ft with xxkey := some (pmkOctets ref.pmk) } }
  | none => sm

/-! ## The search -/

/-- The state of the loop: the machine, the variable `PTK`, and the PMKs tried so far. -/
structure Calc where
  sm : PskSm
  ptk : Ptk
  tried : List PmkRef

def attempt (c : Calc) (ref : PmkRef) : Calc × Bool :=
  let r := wpaDerivePtk C F conf c.sm ref.pmk c.ptk
  (⟨r.1, r.2, c.tried ++ [ref]⟩, verifyKeyMic C F r.2 r.1.lastRxEapolKey)

/-- One round of the loop, from the variable `pmk` on; the result is the PMK that the MIC was right
for. -/
def calcRound (psks : List HostapdWpaPsk) (addr : MacAddr) (psk : Bool)
    (x : Option PmkRef × Calc) : (Option PmkRef × Calc) ⊕ (Calc × Option PmkRef) :=
  if psk then searchRound (hostapdGetPsk psks addr) (attempt C F conf) x
  else
    let own : PmkRef := ⟨none, x.2.sm.pmk⟩
    let r := attempt C F conf x.2 own
    .inr (r.1, if r.2 then some own else none)

/-- `SM_STATE(WPA_PTK, PTKCALCNEGOTIATING)` in front of its loop. -/
def enterCalc (sm : PskSm) : PskSm := { sm with eapolKeyReceived := false }

/-- `SM_STATE(WPA_PTK, PTKCALCNEGOTIATING)` behind its loop. -/
def finish (r : Calc × Option PmkRef) : PskSm :=
  let sm := r.1.sm
  match r.2 with
  | none => sm
  | some ref =>
    if sm.ft.wpa = .wpa2 ∧ keyMgmtFt sm.ft.wpaKeyMgmt ∧ sm.ft.supPmkR1Name ≠ sm.ft.pmkR1Name then sm
    else
      { sm with
        pending1Of4Timeout := false
        pmk := if sm.ft.wpaKeyMgmt.wpaPsk then ref.pmk else sm.pmk
        micVerified := true
        ft := { sm.ft with ptk := r.1.ptk }
        ptkValid := true }

/-- The loop returns `r`, from what happens to be in the variable `PTK`. -/
def SearchReturns (psks : List HostapdWpaPsk) (sm : PskSm) (stack : Ptk)
    (r : Calc × Option PmkRef) : Prop :=
  Returns (calcRound C F conf psks sm.addr sm.ft.wpaKeyMgmt.wpaPsk)
    (none, ⟨enterCalc sm, stack, []⟩) r

/-! ## What is asked for -/

/-- The MIC of the message is right under the PTK that a PMK gives. With fast BSS transition the
PMK is the root of the key hierarchy. -/
def Answers (sm : PskSm) (pmk : Pmk) : Prop :=
  verifyKeyMic C F
    (if keyMgmtFt sm.ft.wpaKeyMgmt then
      (derivePtkFt F conf sm.addr sm.ft (pmkOctets pmk)).ptk
    else sm.expandedPtk C conf pmk) sm.lastRxEapolKey = true

/-- A valid message 2/4: with fast BSS transition it carries the PMKR1Name of the PSK it was made
with. -/
def ValidMsg2 (psks : List HostapdWpaPsk) (sm : PskSm) : Prop :=
  sm.ft.wpa = .wpa2 → keyMgmtFt sm.ft.wpaKeyMgmt = true → ∀ ref ∈ stationPsks psks sm.addr,
    Answers C F conf sm ref.pmk →
      sm.ft.supPmkR1Name = (derivePtkFt F conf sm.addr sm.ft (pmkOctets ref.pmk)).pmkR1Name

/-- The search is complete: it ends, it tries PSKs of the station, each at most once and in the
order of the list, the message is accepted exactly if one of them answers it, and the PMK that is
kept is one that does. -/
def CompleteSearch (psks : List HostapdWpaPsk) (sm : PskSm) (stack : Ptk) : Prop :=
  ∃ r, SearchReturns C F conf psks sm stack r ∧
    r.1.tried <+: stationPsks psks sm.addr ∧ r.1.tried.Nodup ∧
    ((finish r).micVerified = true ↔
      ∃ ref ∈ stationPsks psks sm.addr, Answers C F conf sm ref.pmk) ∧
    ((finish r).micVerified = true →
      ∃ ref ∈ stationPsks psks sm.addr, Answers C F conf sm ref.pmk ∧ (finish r).pmk = ref.pmk)

/-- What `INITPSK` leaves behind: the first PSK of the station is the PMK and the root key. -/
def InitByPsk (psks : List HostapdWpaPsk) (sm : PskSm) : Prop :=
  ∀ ref ∈ (stationPsks psks sm.addr).head?,
    sm.pmk = ref.pmk ∧ sm.ft.xxkey = some (pmkOctets ref.pmk)

theorem enterInitPsk_initByPsk (psks : List HostapdWpaPsk) (sm : PskSm) :
    InitByPsk psks (enterInitPsk psks sm) := by
  intro ref href
  have haddr : (enterInitPsk psks sm).addr = sm.addr := by
    unfold enterInitPsk
    split <;> rfl
  rw [haddr, ← hostapdGetPsk_none] at href
  have hfirst : hostapdGetPsk psks sm.addr none = some ref := href
  unfold enterInitPsk
  rw [hfirst]
  exact ⟨rfl, rfl⟩

/-! ## What the search does -/

variable {C F conf} {psks : List HostapdWpaPsk} {sm : PskSm}

/-- In the loop the machine changes the PMKR1Name and the cache at most. -/
structure SameSm (sm : PskSm) (c : Calc) : Prop where
  addr : c.sm.addr = sm.addr
  ft : ∃ name, c.sm.ft = { sm.ft with pmkR1Name := name }
  pmk : c.sm.pmk = sm.pmk
  micVerified : c.sm.micVerified = sm.micVerified
  frame : c.sm.lastRxEapolKey = sm.lastRxEapolKey

theorem wpaDerivePtk_of_ft (hft : keyMgmtFt sm.ft.wpaKeyMgmt = true) {xxkey : Bytes}
    (hxx : sm.ft.xxkey = some xxkey) (pmk : Pmk) (ptk : Ptk) :
    wpaDerivePtk C F conf sm pmk ptk =
      ({ sm with
          ft := { sm.ft with pmkR1Name := (derivePtkFt F conf sm.addr sm.ft xxkey).pmkR1Name }
          stored := ⟨(derivePtkFt F conf sm.addr sm.ft xxkey).pmkR1,
            (derivePtkFt F conf sm.addr sm.ft xxkey).pmkR1Name, sm.addr, sm.ft.pairwise⟩ ::
              sm.stored }, (derivePtkFt F conf sm.addr sm.ft xxkey).ptk) := by
  simp [wpaDerivePtk, hft, hxx]

theorem wpaDerivePtk_of_not_ft (hft : keyMgmtFt sm.ft.wpaKeyMgmt = false) (pmk : Pmk) (ptk : Ptk) :
    wpaDerivePtk C F conf sm pmk ptk = (sm, sm.expandedPtk C conf pmk) := by
  simp [wpaDerivePtk, hft]

variable {c : Calc}

theorem attempt_eq {ref : PmkRef} {r : PskSm × Ptk}
    (h : wpaDerivePtk C F conf c.sm ref.pmk c.ptk = r) :
    attempt C F conf c ref =
      (⟨r.1, r.2, c.tried ++ [ref]⟩, verifyKeyMic C F r.2 r.1.lastRxEapolKey) := by
  unfold attempt
  rw [h]

theorem attempt_of_ft (hft : keyMgmtFt sm.ft.wpaKeyMgmt = true) {xxkey : Bytes}
    (hxx : sm.ft.xxkey = some xxkey) (h : SameSm sm c) (ref : PmkRef) :
    SameSm sm (attempt C F conf c ref).1 ∧
      (attempt C F conf c ref).2 =
        verifyKeyMic C F (derivePtkFt F conf sm.addr sm.ft xxkey).ptk sm.lastRxEapolKey ∧
      (attempt C F conf c ref).1.tried = c.tried ++ [ref] ∧
      (attempt C F conf c ref).1.sm.ft.pmkR1Name =
        (derivePtkFt F conf sm.addr sm.ft xxkey).pmkR1Name := by
  obtain ⟨name, hname⟩ := h.ft
  have hft' : keyMgmtFt c.sm.ft.wpaKeyMgmt = true := by rw [hname]; exact hft
  have hxx' : c.sm.ft.xxkey = some xxkey := by rw [hname]; exact hxx
  have hderive : derivePtkFt F conf c.sm.addr c.sm.ft xxkey =
      derivePtkFt F conf sm.addr sm.ft xxkey := by
    rw [hname, h.addr]
    rfl
  have hd : wpaDerivePtk C F conf c.sm ref.pmk c.ptk = _ :=
    wpaDerivePtk_of_ft hft' hxx' ref.pmk c.ptk
  rw [hderive] at hd
  rw [attempt_eq hd]
  refine ⟨⟨h.addr, ⟨(derivePtkFt F conf sm.addr sm.ft xxkey).pmkR1Name, ?_⟩, h.pmk, h.micVerified,
    h.frame⟩, ?_, rfl, rfl⟩
  · dsimp only
    rw [hname]
  · exact congrArg (verifyKeyMic C F _) h.frame

theorem attempt_of_not_ft (hft : keyMgmtFt sm.ft.wpaKeyMgmt = false) (h : SameSm sm c)
    (ref : PmkRef) :
    SameSm sm (attempt C F conf c ref).1 ∧
      (attempt C F conf c ref).2 =
        verifyKeyMic C F (sm.expandedPtk C conf ref.pmk) sm.lastRxEapolKey ∧
      (attempt C F conf c ref).1.tried = c.tried ++ [ref] := by
  obtain ⟨name, hname⟩ := h.ft
  have hft' : keyMgmtFt c.sm.ft.wpaKeyMgmt = false := by rw [hname]; exact hft
  have hexpand : c.sm.expandedPtk C conf ref.pmk = sm.expandedPtk C conf ref.pmk := by
    unfold PskSm.expandedPtk
    rw [hname, h.addr]
  have hd : wpaDerivePtk C F conf c.sm ref.pmk c.ptk = _ :=
    wpaDerivePtk_of_not_ft hft' ref.pmk c.ptk
  rw [hexpand] at hd
  rw [attempt_eq hd]
  refine ⟨⟨h.addr, h.ft, h.pmk, h.micVerified, h.frame⟩, ?_, rfl⟩
  exact congrArg (verifyKeyMic C F _) h.frame

theorem searchReturns (hpsk : sm.ft.wpaKeyMgmt.wpaPsk = true) (stack : Ptk) :
    SearchReturns C F conf psks sm stack
      (firstSuccess (attempt C F conf) ⟨enterCalc sm, stack, []⟩ (stationPsks psks sm.addr)) := by
  have hround : calcRound C F conf psks sm.addr sm.ft.wpaKeyMgmt.wpaPsk =
      searchRound (hostapdGetPsk psks sm.addr) (attempt C F conf) := by
    funext x
    simp [calcRound, hpsk]
  unfold SearchReturns
  rw [hround]
  exact (hostapdGetPsk_enumerates psks sm.addr).returns _

theorem finish_some (h : SameSm sm c) (hpsk : sm.ft.wpaKeyMgmt.wpaPsk = true)
    (ref : PmkRef) (hname : sm.ft.wpa = .wpa2 → keyMgmtFt sm.ft.wpaKeyMgmt = true →
      sm.ft.supPmkR1Name = c.sm.ft.pmkR1Name) :
    (finish (c, some ref)).micVerified = true ∧ (finish (c, some ref)).pmk = ref.pmk := by
  obtain ⟨name, hft⟩ := h.ft
  have hpass : ¬ (c.sm.ft.wpa = .wpa2 ∧ keyMgmtFt c.sm.ft.wpaKeyMgmt = true ∧
      c.sm.ft.supPmkR1Name ≠ c.sm.ft.pmkR1Name) := by
    rintro ⟨hwpa, hmgmt, hne⟩
    refine hne ?_
    rw [hft] at hwpa hmgmt
    have hsup : c.sm.ft.supPmkR1Name = sm.ft.supPmkR1Name := by rw [hft]
    exact hsup.trans (hname hwpa hmgmt)
  have hpsk' : c.sm.ft.wpaKeyMgmt.wpaPsk = true := by
    rw [hft]
    exact hpsk
  unfold finish
  dsimp only
  rw [if_neg hpass]
  exact ⟨rfl, if_pos hpsk'⟩

/-! ## When the search is complete -/

def UsesFt (sm : PskSm) : Prop := keyMgmtFt sm.ft.wpaKeyMgmt = true

/-- **The condition**: where no PSK answers the message, no older PTK has set `MICVerified`; and
with fast BSS transition the first PSK of the station answers it where any of them does. -/
def FirstAnswers (C : Crypto) (F : FtCrypto) (conf : FtConf) (psks : List HostapdWpaPsk)
    (sm : PskSm) : Prop :=
  (sm.micVerified = true → ∃ ref ∈ stationPsks psks sm.addr, Answers C F conf sm ref.pmk) ∧
    (UsesFt sm → (∃ ref ∈ stationPsks psks sm.addr, Answers C F conf sm ref.pmk) →
      ∃ ref ∈ (stationPsks psks sm.addr).head?, Answers C F conf sm ref.pmk)

structure Searched (psks : List HostapdWpaPsk) (sm : PskSm) (r : Calc × Option PmkRef) : Prop where
  same : SameSm sm r.1
  tried : r.1.tried <+: stationPsks psks sm.addr

variable (C F conf) in
theorem search_of_not_ft (hft : ¬ UsesFt sm) (psks : List HostapdWpaPsk) (stack : Ptk) :
    let r := firstSuccess (attempt C F conf) ⟨enterCalc sm, stack, []⟩ (stationPsks psks sm.addr)
    Searched psks sm r ∧
      (∀ ref, r.2 = some ref → ref ∈ stationPsks psks sm.addr ∧ Answers C F conf sm ref.pmk) ∧
      (r.2 = none → ¬ ∃ ref ∈ stationPsks psks sm.addr, Answers C F conf sm ref.pmk) := by
  have hft' : keyMgmtFt sm.ft.wpaKeyMgmt = false := by simpa [UsesFt] using hft
  have hanswers : ∀ pmk, Answers C F conf sm pmk ↔
      verifyKeyMic C F (sm.expandedPtk C conf pmk) sm.lastRxEapolKey = true := by
    intro pmk
    simp [Answers, hft']
  have hstart : SameSm sm ⟨enterCalc sm, stack, []⟩ := ⟨rfl, ⟨_, rfl⟩, rfl, rfl, rfl⟩
  obtain ⟨hsame, hfind, ⟨t, ht, htried⟩, -⟩ := firstSuccess_spec (attempt C F conf) (SameSm sm)
    (fun ref => verifyKeyMic C F (sm.expandedPtk C conf ref.pmk) sm.lastRxEapolKey) Calc.tried
    (fun c ref h => attempt_of_not_ft hft' h ref) hstart (stationPsks psks sm.addr)
  dsimp only
  refine ⟨⟨hsame, ?_⟩, ?_, ?_⟩
  · rw [htried]
    exact ht
  · intro ref href
    rw [hfind] at href
    have hgood := List.find?_some href
    exact ⟨List.mem_of_find?_eq_some href, (hanswers _).mpr hgood⟩
  · rintro hnone ⟨ref, hmem, hanswer⟩
    rw [hfind] at hnone
    have hbad := List.find?_eq_none.mp hnone ref hmem
    exact hbad ((hanswers _).mp hanswer)

variable (C F conf) in
theorem search_of_ft (hft : UsesFt sm) (hinit : InitByPsk psks sm) (stack : Ptk) :
    let r := firstSuccess (attempt C F conf) ⟨enterCalc sm, stack, []⟩ (stationPsks psks sm.addr)
    Searched psks sm r ∧
      (∀ ref, r.2 = some ref → (stationPsks psks sm.addr).head? = some ref ∧
        Answers C F conf sm ref.pmk ∧ r.1.sm.ft.pmkR1Name =
          (derivePtkFt F conf sm.addr sm.ft (pmkOctets ref.pmk)).pmkR1Name) ∧
      (r.2 = none → ¬ ∃ ref ∈ (stationPsks psks sm.addr).head?, Answers C F conf sm ref.pmk) := by
  have hanswers : ∀ pmk, Answers C F conf sm pmk ↔ verifyKeyMic C F
      (derivePtkFt F conf sm.addr sm.ft (pmkOctets pmk)).ptk sm.lastRxEapolKey = true := by
    intro pmk
    simp [Answers, show keyMgmtFt sm.ft.wpaKeyMgmt = true from hft]
  have hstart : SameSm sm ⟨enterCalc sm, stack, []⟩ := ⟨rfl, ⟨_, rfl⟩, rfl, rfl, rfl⟩
  cases hlist : stationPsks psks sm.addr with
  | nil =>
    refine ⟨⟨hstart, List.nil_prefix⟩, ?_, ?_⟩
    · simp [firstSuccess]
    · simp
  | cons first rest =>
    obtain ⟨-, hxx⟩ := hinit first (by rw [hlist]; rfl)
    obtain ⟨hsame, hfind, ⟨t, ht, htried⟩, hlast⟩ := firstSuccess_spec (attempt C F conf)
      (SameSm sm)
      (fun _ => verifyKeyMic C F (derivePtkFt F conf sm.addr sm.ft (pmkOctets first.pmk)).ptk
        sm.lastRxEapolKey) Calc.tried
      (fun c ref h => ⟨(attempt_of_ft hft hxx h ref).1, (attempt_of_ft hft hxx h ref).2.1,
        (attempt_of_ft hft hxx h ref).2.2.1⟩) hstart (first :: rest)
    dsimp only
    refine ⟨⟨hsame, ?_⟩, ?_, ?_⟩
    · rw [htried, hlist]
      exact ht
    · intro ref href
      obtain ⟨c, hc, hr⟩ := hlast ref href
      rw [hfind] at href
      have hgood := List.find?_some href
      have hfirst : first = ref := by
        simpa [List.find?_cons, hgood] using href
      subst hfirst
      refine ⟨rfl, (hanswers _).mpr hgood, ?_⟩
      rw [hr]
      exact (attempt_of_ft hft hxx hc first).2.2.2
    · rintro hnone ⟨ref, hmem, hanswer⟩
      obtain rfl : first = ref := Option.some.inj hmem
      rw [hfind] at hnone
      have hbad := List.find?_eq_none.mp hnone first List.mem_cons_self
      exact hbad ((hanswers _).mp hanswer)

def SomeAnswers (C : Crypto) (F : FtCrypto) (conf : FtConf) (psks : List HostapdWpaPsk)
    (sm : PskSm) : Prop :=
  ∃ ref ∈ stationPsks psks sm.addr, Answers C F conf sm ref.pmk

theorem search_some (hpsk : sm.ft.wpaKeyMgmt.wpaPsk = true) (hinit : InitByPsk psks sm)
    (hvalid : ValidMsg2 C F conf psks sm) (stack : Ptk) {ref : PmkRef}
    (hr : firstSuccess (attempt C F conf) ⟨enterCalc sm, stack, []⟩ (stationPsks psks sm.addr) =
      (c, some ref)) :
    (finish (c, some ref)).micVerified = true ∧ (finish (c, some ref)).pmk = ref.pmk ∧
      ref ∈ stationPsks psks sm.addr ∧ Answers C F conf sm ref.pmk ∧
      (UsesFt sm → (stationPsks psks sm.addr).head? = some ref) := by
  by_cases hft : UsesFt sm
  · obtain ⟨hsearched, hsome, -⟩ := search_of_ft C F conf hft hinit stack
    rw [hr] at hsearched hsome
    obtain ⟨hhead, hanswer, hname⟩ := hsome ref rfl
    have hmem : ref ∈ stationPsks psks sm.addr := List.mem_of_mem_head? hhead
    obtain ⟨hmic, hpmk⟩ := finish_some hsearched.same hpsk ref fun hwpa hmgmt =>
      (hvalid hwpa hmgmt ref hmem hanswer).trans hname.symm
    exact ⟨hmic, hpmk, hmem, hanswer, fun _ => hhead⟩
  · obtain ⟨hsearched, hsome, -⟩ := search_of_not_ft C F conf hft psks stack
    rw [hr] at hsearched hsome
    obtain ⟨hmem, hanswer⟩ := hsome ref rfl
    obtain ⟨hmic, hpmk⟩ := finish_some hsearched.same hpsk ref fun _ hmgmt => absurd hmgmt hft
    exact ⟨hmic, hpmk, hmem, hanswer, fun h => absurd h hft⟩

theorem search_none (hinit : InitByPsk psks sm) (stack : Ptk)
    (hr : firstSuccess (attempt C F conf) ⟨enterCalc sm, stack, []⟩ (stationPsks psks sm.addr) =
      (c, none)) :
    (finish (c, none)).micVerified = sm.micVerified ∧ (finish (c, none)).pmk = sm.pmk ∧
      (¬ UsesFt sm → ¬ SomeAnswers C F conf psks sm) ∧
      (UsesFt sm → ¬ ∃ ref ∈ (stationPsks psks sm.addr).head?, Answers C F conf sm ref.pmk) := by
  by_cases hft : UsesFt sm
  · obtain ⟨hsearched, -, hnone⟩ := search_of_ft C F conf hft hinit stack
    rw [hr] at hsearched hnone
    exact ⟨hsearched.same.micVerified, hsearched.same.pmk, fun h => absurd hft h,
      fun _ => hnone rfl⟩
  · obtain ⟨hsearched, -, hnone⟩ := search_of_not_ft C F conf hft psks stack
    rw [hr] at hsearched hnone
    exact ⟨hsearched.same.micVerified, hsearched.same.pmk, fun _ => hnone rfl,
      fun h => absurd h hft⟩

theorem searched (hinit : InitByPsk psks sm) (stack : Ptk) : Searched psks sm
    (firstSuccess (attempt C F conf) ⟨enterCalc sm, stack, []⟩ (stationPsks psks sm.addr)) := by
  by_cases hft : UsesFt sm
  · exact (search_of_ft C F conf hft hinit stack).1
  · exact (search_of_not_ft C F conf hft psks stack).1

/-- **The search for the PSK of a station**: for every list of PSKs and every valid message 2/4 it
is complete exactly if no older PTK has set `MICVerified` for a message that no PSK answers, and,
with fast BSS transition, the first PSK of the station answers where any of them does. -/
theorem psk_search (hpsk : sm.ft.wpaKeyMgmt.wpaPsk = true) (hinit : InitByPsk psks sm)
    (hvalid : ValidMsg2 C F conf psks sm) (stack : Ptk) :
    CompleteSearch C F conf psks sm stack ↔ FirstAnswers C F conf psks sm := by
  have hreturns : SearchReturns C F conf psks sm stack _ := searchReturns hpsk stack
  have hsearched : Searched psks sm (firstSuccess (attempt C F conf) ⟨enterCalc sm, stack, []⟩
    (stationPsks psks sm.addr)) := searched hinit stack
  cases hr : firstSuccess (attempt C F conf) ⟨enterCalc sm, stack, []⟩
      (stationPsks psks sm.addr) with
  | mk c found =>
    rw [hr] at hreturns hsearched
    constructor
    · rintro ⟨r, hreturns', -, -, hiff, hkept⟩
      obtain rfl : r = (c, found) := Returns.unique hreturns' hreturns
      cases found with
      | some ref =>
        obtain ⟨-, -, hmem, hanswer, hhead⟩ := search_some hpsk hinit hvalid stack hr
        exact ⟨fun _ => ⟨ref, hmem, hanswer⟩, fun hft _ => ⟨ref, hhead hft, hanswer⟩⟩
      | none =>
        obtain ⟨hmic, hpmk, -, hfirst⟩ := search_none (C := C) (F := F) hinit stack hr
        refine ⟨fun hset => hiff.mp (hmic.trans hset), ?_⟩
        intro hft hsome
        -- the message is accepted all the same, with the PMK of the first PSK
        obtain ⟨ref, hmem, hanswer, hpmk'⟩ := hkept (hiff.mpr hsome)
        cases hhead : (stationPsks psks sm.addr).head? with
        | none =>
          rw [List.head?_eq_none_iff.mp hhead] at hmem
          exact absurd hmem List.not_mem_nil
        | some first =>
          have hsame : sm.pmk = first.pmk := (hinit first hhead).1
          refine ⟨first, rfl, ?_⟩
          rw [← hsame, ← hpmk, hpmk']
          exact hanswer
    · rintro ⟨hset, hft⟩
      have hprefix : c.tried <+: stationPsks psks sm.addr := hsearched.tried
      have hnodup : c.tried.Nodup := (stationPsksFrom_nodup 0 psks).sublist hprefix.sublist
      refine ⟨(c, found), hreturns, hprefix, hnodup, ?_⟩
      cases found with
      | some ref =>
        obtain ⟨hmic, hpmk, hmem, hanswer, -⟩ := search_some hpsk hinit hvalid stack hr
        exact ⟨⟨fun _ => ⟨ref, hmem, hanswer⟩, fun _ => hmic⟩,
          fun _ => ⟨ref, hmem, hanswer, hpmk⟩⟩
      | none =>
        obtain ⟨hmic, -, hplain, hfirst⟩ := search_none (C := C) (F := F) hinit stack hr
        have hno : ¬ SomeAnswers C F conf psks sm := by
          intro hsome
          by_cases h : UsesFt sm
          · exact hfirst h (hft h hsome)
          · exact hplain h hsome
        have hclear : ¬ (finish (c, none)).micVerified = true :=
          fun h => hno (hset (hmic.symm.trans h))
        exact ⟨⟨fun h => absurd h hclear, fun h => absurd h hno⟩, fun h => absurd h hclear⟩

/-! ## A station with the second PSK -/

instance (C : Crypto) (F : FtCrypto) (conf : FtConf) (sm : PskSm) (pmk : Pmk) :
    Decidable (Answers C F conf sm pmk) :=
  inferInstanceAs (Decidable (_ = true))

/-- Primitives to compute with: the MIC is the key, and the keys are taken from the root. -/
def sampleCrypto : Crypto where
  hmacMd5 key _ := key
  hmacSha1 _ _ := 0
  sha1Prf pmk _ := BitVec.ofNat 512 (pmk.toNat * 2 ^ 384)
  aesWrap _ data := data
  aesUnwrap _ data := some data
  rc4Skip _ data := data

def sampleFtCrypto : FtCrypto where
  pmkR0 xxkey _ _ _ _ := (xxkey, Vector.replicate 16 0)
  pmkR1 pmkR0 _ _ := pmkR0
  pmkR1Name _ _ _ := Vector.replicate 16 0
  pmkR1ToPtk pmkR1 _ _ _ _ _ _ := ⟨BitVec.ofNat 128 (beNat pmkR1), 0, 0, none⟩
  omac1 kck _ := Vector.replicate 16 (UInt8.ofNat kck.toNat)
  aesWrap _ data := data
  aesUnwrap _ data := some data

def sampleConf : FtConf where
  addr := 1
  wpaGroup := .ccmp
  rsnPairwise := [.ccmp]
  wpaKeyMgmt := [.ftPsk, .psk]
  rsnPreauth := false
  peerkey := false
  wmmEnabled := false
  ieee80211w := .no
  ssid := []
  mobilityDomain := [1, 2]
  r0KeyHolder := [7]
  r1KeyHolder := [0, 0, 0, 0, 0, 1]
  ftOverDs := false

def sampleMsg2 (version : KeyInfo) (mic : BitVec 128) : EapolKey where
  version := 1
  ptype := 3
  length := 95
  type := eapolKeyTypeRsn
  keyInfo := KeyInfo.keyType ||| KeyInfo.mic ||| version
  keyLength := 0
  replayCounter := 1
  keyNonce := 5
  keyIv := 0
  keyRsc := 0
  keyId := 0
  keyMic := mic
  keyDataLength := 0
  body := []

/-- The machine of a station behind `INITPSK`, with a message 2/4 for it. -/
def sampleSm (psks : List HostapdWpaPsk) (mgmt : WpaKeyMgmt) (frame : EapolKey) : PskSm :=
  enterInitPsk psks
    { addr := 2
      ft := { FtSm.zero with wpaKeyMgmt := mgmt, wpa := .wpa2, pairwise := .ccmp }
      pmk := 0
      ptkValid := false
      micVerified := false
      eapolKeyReceived := true
      pending1Of4Timeout := true
      lastRxEapolKey := frame
      stored := [] }

/-- A PSK of another station, one that is shared, and one of the station. -/
def samplePsks : List HostapdWpaPsk := [⟨false, 9, 3⟩, ⟨true, 1, 0⟩, ⟨false, 2, 2⟩]

/-- The message that the station makes with its own PSK. -/
def sampleCmacMsg2 : EapolKey := sampleMsg2 aes128Cmac 0x02020202020202020202020202020202

/-- **The own PSK of a station that uses fast BSS transition is not found** behind a shared one:
the MIC is right under it, and the message is not accepted. -/
theorem second_psk_not_found :
    ¬ CompleteSearch sampleCrypto sampleFtCrypto sampleConf samplePsks
      (sampleSm samplePsks .ftPsk sampleCmacMsg2) Ptk.zero := by
  rintro ⟨r, hreturns, -, -, hiff, -⟩
  have hsearch : SearchReturns sampleCrypto sampleFtCrypto sampleConf samplePsks
      (sampleSm samplePsks .ftPsk sampleCmacMsg2) Ptk.zero _ := searchReturns rfl Ptk.zero
  obtain rfl := Returns.unique hreturns hsearch
  have haccepted := hiff.mpr ⟨⟨some 2, 2⟩, by decide +kernel, by decide +kernel⟩
  exact absurd haccepted (by decide +kernel)

theorem psk_search_two :
    CompleteSearch sampleCrypto sampleFtCrypto sampleConf samplePsks
      (sampleSm samplePsks .psk (sampleMsg2 KeyInfo.hmacMd5Rc4 2)) Ptk.zero := by
  have hinit : InitByPsk samplePsks
      (sampleSm samplePsks .psk (sampleMsg2 KeyInfo.hmacMd5Rc4 2)) :=
    enterInitPsk_initByPsk samplePsks _
  refine (psk_search (by decide +kernel) hinit ?_ Ptk.zero).mpr ⟨?_, ?_⟩
  · exact fun _ h => absurd h (by decide +kernel)
  · exact fun h => absurd h (by decide +kernel)
  · exact fun h => absurd h (by unfold UsesFt; decide +kernel)

end Hostapd.Ap.PskSearch
