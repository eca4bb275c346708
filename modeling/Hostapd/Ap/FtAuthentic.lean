import Hostapd.Ap.Ft

/-!
# What an accepted reassociation request says

A reassociation request of fast BSS transition is accepted without a 4-way handshake, so it has to
show that the station holds the PTK that its authentication request led to.

* **`validateReassoc_eq_success_iff`**: a request is accepted if and only if it presents what the
  machine holds (`Presents`). What the machine holds need not belong together: a request that fails
  has stored its SNonce and R0KH-ID by then, an event sets the PTK to zeros, and a new machine holds
  zeros only.
* **`zeroKck_not_authentic`**: after a failed authentication request a reassociation request with
  zeros for the name and the ANonce, and a MIC under a KCK of zeros, is accepted.
* **`run_authentic`**: along every run in which a request that presents what the machine holds finds
  the machine in step, every accepted request is authentic. `PtkWrite` is what a step can do to the
  PTK, and `Sound` the invariant.
-/

namespace Hostapd.Ap.Ft

open Hostapd.Lib Hostapd.Ft

/-! ## The property -/

def FtNote.writesPtk : FtNote → Bool
  | .accepted _ => false
  | _ => true

def FtNote.clears : FtNote → Bool
  | .created | .cleared => true
  | _ => false

/-- The notes since the machine was created or its keys were last cleared. -/
def sinceCleared (notes : List FtNote) : List FtNote := notes.takeWhile fun n => !n.clears

def latestPtk (notes : List FtNote) : Option FtNote := notes.find? FtNote.writesPtk

section Property

variable (C : FtCrypto) (conf : FtConf) (addr : MacAddr)

/-- A PTK derived from a PMK-R1 that is in the cache for the station under the name. -/
structure Rooted (cache : List PmkR1Sa) (d : FtDerivation) : Prop where
  cached : ∃ sa ∈ cache, sa.spa = addr ∧ sa.pmkR1Name = d.pmkR1Name ∧ sa.pmkR1 = d.pmkR1
  derived : ∃ long, d.ptk =
    C.pmkR1ToPtk d.pmkR1 d.sNonce d.aNonce addr conf.addr d.pmkR1Name long

/-- What the MIC of a request is compared with, given a KCK. -/
def reassocMic (kck : BitVec 128) (frame : ReassocFrame) : Bytes :=
  ftMic C kck addr conf.addr 5 frame.rsn frame.mdie frame.ftie (frame.ric.getD [])

/-- The request was made by someone who holds a PTK derived for its name and its nonces. -/
def FrameAuthentic (cache : List PmkR1Sa) (older : List FtNote) (frame : ReassocFrame) : Prop :=
  ∃ d, .derived d ∈ sinceCleared older ∧ Rooted C conf addr cache d ∧
    d.pmkR1Name = frame.pmkid ∧ d.sNonce = ftieSNonce frame.ftie ∧
    d.aNonce = ftieANonce frame.ftie ∧ reassocMic C conf addr d.ptk.kck frame = ftieMic frame.ftie

def Authentic (ap : FtAp) : Prop :=
  ∀ frame older, .accepted frame :: older <:+ ap.notes →
    FrameAuthentic C conf addr ap.cache older frame

structure Presents (sm : FtSm) (frame : ReassocFrame) : Prop where
  pmkid : frame.pmkid = sm.pmkR1Name
  mdie : mdieOk conf (some frame.mdie) = true
  sNonce : ftieSNonce frame.ftie = sm.sNonce
  aNonce : ftieANonce frame.ftie = sm.aNonce
  r0khId : frame.r0khId = sm.r0khId
  r1khId : frame.r1khId = conf.r1KeyHolder
  count : ftieCount frame.ftie = 3 + frame.ric.toList.length
  mic : reassocMic C conf addr sm.ptk.kck frame = ftieMic frame.ftie

/-- The last thing written into the PTK is a PTK derived for the name and the nonces that the
machine holds. -/
def InStep (sm : FtSm) (notes : List FtNote) : Prop :=
  match latestPtk notes with
  | some (.derived d) =>
    d.pmkR1Name = sm.pmkR1Name ∧ d.sNonce = sm.sNonce ∧ d.aNonce = sm.aNonce
  | _ => False

instance (sm : FtSm) (notes : List FtNote) : Decidable (InStep sm notes) :=
  match h : latestPtk notes with
  | some (.derived d) =>
    decidable_of_iff (d.pmkR1Name = sm.pmkR1Name ∧ d.sNonce = sm.sNonce ∧ d.aNonce = sm.aNonce)
      (by simp [InStep, h])
  | none | some .created | some .cleared | some .otherPtk | some (.accepted _) =>
    .isFalse (by simp [InStep, h])

/-- A reassociation request that gets as far as the machine and presents what it holds finds it in
step. -/
def Calm (ap : FtAp) : FtOp → Prop
  | .assocReq true ies checks =>
    checks.early = true → checks.wpaIe = true → checks.validIe = true →
      ∀ sta frame, ap.sta = some sta → sta.authAlg = .ft → readReassoc ies = some frame →
        Presents C conf addr sta.machine.1 frame →
          InStep sta.machine.1 (sta.machine.2 ++ ap.notes)
  | _ => True

end Property

section Facts

variable {C : FtCrypto} {conf : FtConf} {addr : MacAddr}

/-! ## The reassociation request -/

theorem ite_eq_success {p : Prop} [Decidable p] {s t : ℕ} (hs : s ≠ statusSuccess) :
    (if p then s else t) = statusSuccess ↔ ¬ p ∧ t = statusSuccess := by
  by_cases h : p
  · simp [h, hs]
  · simp [h]

variable {sm : FtSm}

/-- **A request is accepted if and only if it presents what the machine holds.** -/
theorem validateReassoc_eq_success_iff {ies : Bytes} :
    validateReassoc C conf addr sm ies = statusSuccess ↔
      ∃ frame, readReassoc ies = some frame ∧ Presents C conf addr sm frame := by
  have h1 : statusUnspecifiedFailure ≠ statusSuccess := by decide
  have h53 : statusInvalidPmkid ≠ statusSuccess := by decide
  have h54 : statusInvalidMdie ≠ statusSuccess := by decide
  have h55 : statusInvalidFtie ≠ statusSuccess := by decide
  have h65535 : statusMinusOne ≠ statusSuccess := by decide
  unfold validateReassoc readReassoc
  rcases parseFtIes .authenticator ies with
    _ | ⟨_ | mdie, _ | ftie, r1khId, gtk, r0khId, _ | rsn, _ | pmkid, tie, igtk, ric⟩
  case some.some.some.some.some =>
    simp only [ite_eq_success h53, ite_eq_success h54, ite_eq_success h55, ite_eq_success h65535,
      not_not, Option.bind_eq_bind, Option.bind_some]
    constructor
    · rintro ⟨hpmkid, hmdie, hsnonce, hanonce, rfl, rfl, -, hcount, hmic, -⟩
      exact ⟨_, rfl, hpmkid, by simpa using hmdie, hsnonce, hanonce, rfl, rfl, hcount, hmic⟩
    · rintro ⟨frame, hframe, h⟩
      rcases r0khId with _ | r0khId
      · cases hframe
      rcases r1khId with _ | r1khId
      · cases hframe
      obtain rfl := Option.some.inj hframe
      exact ⟨h.pmkid, by simpa using h.mdie, h.sNonce, h.aNonce, congrArg some h.r0khId,
        congrArg some h.r1khId, h.pmkid, h.count, h.mic, trivial⟩
  -- something is missing, and the request is neither accepted nor read
  all_goals simp [ite_eq_success, h1, h53, h54, h55]

/-! ## What a step writes -/

variable (C conf addr) in
/-- What can be done to the PTK of a machine, with the notes of it. -/
inductive PtkWrite (cache : List PmkR1Sa) (sm sm' : FtSm) : List FtNote → Prop
  | keep (h : sm'.ptk = sm.ptk) : PtkWrite cache sm sm' []
  | cleared : PtkWrite cache sm sm' [.cleared]
  | derived (d : FtDerivation) (h : sm'.ptk = d.ptk) (hd : Rooted C conf addr cache d) :
    PtkWrite cache sm sm' [.derived d]
  | other : PtkWrite cache sm sm' [.otherPtk]

@[simp] theorem FtSm.installPtk_eq (sm : FtSm) (setKeyOk : Bool) :
    ∃ set, sm.installPtk setKeyOk = { sm with pairwiseSet := set } := by
  by_cases h : (sm.pairwise = .tkip ∨ sm.pairwise = .ccmp) ∧ setKeyOk
  · exact ⟨true, if_pos h⟩
  · exact ⟨sm.pairwiseSet, if_neg h⟩

theorem event_write (cache : List PmkR1Sa) (sm : FtSm) (e : WpaEvent) (setKeyOk : Bool) :
    PtkWrite C conf addr cache sm (sm.event e setKeyOk).1 (sm.event e setKeyOk).2 := by
  unfold FtSm.event
  split
  · obtain ⟨set, hset⟩ := sm.installPtk_eq setKeyOk
    rw [hset]
    exact .keep rfl
  · dsimp only
    split
    · exact .keep rfl
    · split <;> exact .cleared

variable {cache : List PmkR1Sa}

theorem takePtk_write {sm₀ sm : FtSm} {ptk : Ptk} {note : FtNote}
    (hsm : sm.ptk = sm₀.ptk) (h : PtkWrite C conf addr cache sm₀ { sm with ptk := ptk } [note]) :
    PtkWrite C conf addr cache sm₀ (takePtk sm ptk note).1 (takePtk sm ptk note).2 := by
  unfold takePtk
  split
  · exact .keep hsm
  · exact h

theorem derivePtkFt_rooted (cache : List PmkR1Sa) (sm : FtSm) (xxkey : Bytes)
    (pairwise : WpaCipher) {n : ℕ} (hn : n ≠ 0) :
    Rooted C conf addr
      (List.replicate n ⟨(derivePtkFt C conf addr sm xxkey).pmkR1,
        (derivePtkFt C conf addr sm xxkey).pmkR1Name, addr, pairwise⟩ ++ cache)
      (derivePtkFt C conf addr sm xxkey) := by
  refine ⟨⟨_, List.mem_append_left _ (List.mem_replicate.mpr ⟨hn, rfl⟩), rfl, rfl, rfl⟩, ?_⟩
  exact ⟨sm.pairwise != .ccmp, rfl⟩

theorem ptkCalcNegotiating_write (cache : List PmkR1Sa) (sm : FtSm) (tried : ℕ) (micOk : Bool)
    (other : Ptk) :
    PtkWrite C conf addr ((ptkCalcNegotiating C conf addr sm tried micOk other).stored ++ cache) sm
      (ptkCalcNegotiating C conf addr sm tried micOk other).sm
      (ptkCalcNegotiating C conf addr sm tried micOk other).notes := by
  unfold ptkCalcNegotiating
  split
  · exact .keep rfl
  · next htried =>
    split
    · next xxkey _ _ =>
      cases micOk
      · exact .keep rfl
      · exact takePtk_write rfl
          (.derived _ rfl (derivePtkFt_rooted cache sm xxkey sm.pairwise htried))
    · cases micOk
      · exact .keep rfl
      · exact takePtk_write rfl .other

theorem enter_write (cache : List PmkR1Sa) (sm : FtSm) (e : PtkEntry) :
    PtkWrite C conf addr ((enter C conf addr sm e).stored ++ cache) sm (enter C conf addr sm e).sm
      (enter C conf addr sm e).notes := by
  rcases e with _ | _ | _ | _ | (_ | psk) | _ | _
  case ptkCalcNegotiating tried micOk other =>
    exact ptkCalcNegotiating_write cache sm tried micOk other
  case initialise => exact .cleared
  case authentication => exact .cleared
  all_goals exact .keep rfl

theorem fetchPmkR1_eq_some {spa : MacAddr} {name : Bytes} {sa : PmkR1Sa}
    (h : fetchPmkR1 cache spa name = some sa) :
    sa ∈ cache ∧ sa.spa = spa ∧ sa.pmkR1Name = name := by
  have hsa := List.find?_some h
  exact ⟨List.mem_of_find?_eq_some h, by simpa using hsa⟩

theorem grantAuth_write {sa : PmkR1Sa} {name : Bytes}
    (hsa : fetchPmkR1 cache addr name = some sa) (env : AuthEnv) {sm₀ sm : FtSm}
    (rsnPmkid r0khId : Bytes) (hsm : sm.ptk = sm₀.ptk) :
    PtkWrite C conf addr cache sm₀ (grantAuth C conf addr env sm sa name rsnPmkid r0khId).sm
      ((grantAuth C conf addr env sm sa name rsnPmkid r0khId).derived.map .derived).toList := by
  obtain ⟨hmem, hspa, hname⟩ := fetchPmkR1_eq_some hsa
  unfold grantAuth
  dsimp only
  split
  · exact .keep hsm
  · have hroot : Rooted C conf addr cache (derivePtk C conf addr
        { sm with pmkR1NameValid := true, pmkR1Name := name, aNonce := env.aNonce } sa.pmkR1 name
        sa.pairwise) := ⟨⟨sa, hmem, hspa, hname, rfl⟩, _, rfl⟩
    split <;> refine .derived _ ?_ hroot
    all_goals
      obtain ⟨set, hset⟩ := FtSm.installPtk_eq _ env.setKeyOk
      rw [hset]

theorem processAuthReq_write (env : AuthEnv) (cache : List PmkR1Sa) (sm : FtSm) (ies : Bytes) :
    PtkWrite C conf addr cache sm (processAuthReq C conf addr env cache sm ies).sm
      ((processAuthReq C conf addr env cache sm ies).derived.map .derived).toList := by
  unfold processAuthReq
  dsimp only
  split
  · exact .keep rfl
  split
  · exact .keep rfl
  split
  · exact .keep rfl
  split
  · exact .keep rfl
  split
  · exact .keep rfl
  split
  · exact .keep rfl
  · next hsa =>
    refine grantAuth_write hsa env _ _ ?_
    rfl

/-! ## The invariant -/

/-- The PTK of a machine is the one that was derived last. -/
def Recorded (sm : FtSm) (notes : List FtNote) : Prop :=
  ∀ d, latestPtk notes = some (.derived d) → sm.ptk = d.ptk

variable (C conf addr) in
/-- What holds between the machine, the cache and the notes. -/
structure Sound (ap : FtAp) : Prop where
  recorded : ∀ sta sm, ap.sta = some sta → sta.wpaSm = some sm → Recorded sm ap.notes
  rooted : ∀ d, .derived d ∈ ap.notes → Rooted C conf addr ap.cache d
  authentic : Authentic C conf addr ap

theorem Rooted.mono {cache cache' : List PmkR1Sa} {d : FtDerivation} (h : cache ⊆ cache')
    (hd : Rooted C conf addr cache d) : Rooted C conf addr cache' d := by
  obtain ⟨⟨sa, hsa, hsa'⟩, hder⟩ := hd
  exact ⟨⟨sa, h hsa, hsa'⟩, hder⟩

variable {frame : ReassocFrame}

theorem FrameAuthentic.mono {cache cache' : List PmkR1Sa} {older : List FtNote}
    (h : cache ⊆ cache')
    (hf : FrameAuthentic C conf addr cache older frame) :
    FrameAuthentic C conf addr cache' older frame := by
  obtain ⟨d, hd, hroot, hframe⟩ := hf
  exact ⟨d, hd, hroot.mono h, hframe⟩

theorem mem_sinceCleared_of_latestPtk {notes : List FtNote} {d : FtDerivation}
    (h : latestPtk notes = some (.derived d)) : .derived d ∈ sinceCleared notes := by
  induction notes with
  | nil => cases h
  | cons n notes ih =>
    cases n with
    | created => cases h
    | cleared => cases h
    | otherPtk => cases h
    | derived d' =>
      cases h
      exact List.mem_cons_self
    | accepted frame => exact List.mem_cons_of_mem _ (ih h)

theorem PtkWrite.recorded {sm sm' : FtSm} {new notes : List FtNote}
    (hw : PtkWrite C conf addr cache sm sm' new) (h : Recorded sm notes) :
    Recorded sm' (new ++ notes) := by
  intro d hd
  cases hw with
  | keep hptk => rw [hptk, h d hd]
  | cleared => cases hd
  | other => cases hd
  | derived d' hptk _ =>
    cases hd
    exact hptk

variable {new : List FtNote}

theorem PtkWrite.mem_notes {sm sm' : FtSm}
    (hw : PtkWrite C conf addr cache sm sm' new) :
    (∀ d, .derived d ∈ new → Rooted C conf addr cache d) ∧ ∀ frame, .accepted frame ∉ new := by
  cases hw with
  | derived d' _ hroot =>
    refine ⟨fun d hd => ?_, fun frame => by simp⟩
    obtain rfl : d = d' := by simpa using hd
    exact hroot
  | _ => simp

variable {ap : FtAp}

/-- More entries in the cache and notes that accept nothing leave the accepted requests authentic.
-/
theorem Authentic.append (h : Authentic C conf addr ap)
    (hcache : ap.cache ⊆ cache) (hnew : ∀ frame, .accepted frame ∉ new)
    (sta : Option FtSta) : Authentic C conf addr ⟨cache, sta, new ++ ap.notes⟩ := by
  intro frame older hsuffix
  induction new with
  | nil => exact (h frame older hsuffix).mono hcache
  | cons n new ih =>
    rcases List.suffix_cons_iff.mp hsuffix with heq | hsuffix
    · cases heq
      exact absurd List.mem_cons_self (hnew frame)
    · exact ih (fun f hf => hnew f (List.mem_cons_of_mem n hf)) hsuffix

theorem Sound.write (h : Sound C conf addr ap)
    (hcache : ap.cache ⊆ cache) {sta : Option FtSta}
    (hrec : ∀ sta' sm, sta = some sta' → sta'.wpaSm = some sm → Recorded sm (new ++ ap.notes))
    (hroot : ∀ d, .derived d ∈ new → Rooted C conf addr cache d)
    (hnew : ∀ frame, .accepted frame ∉ new) : Sound C conf addr ⟨cache, sta, new ++ ap.notes⟩ := by
  refine ⟨hrec, ?_, h.authentic.append hcache hnew sta⟩
  intro d hd
  rcases List.mem_append.mp hd with hd | hd
  · exact hroot d hd
  · exact (h.rooted d hd).mono hcache

theorem Sound.machine (h : Sound C conf addr ap) {sta : FtSta}
    (hsta : ap.sta = some sta ∨ sta.wpaSm = none) :
    Recorded sta.machine.1 (sta.machine.2 ++ ap.notes) := by
  intro d hd
  unfold FtSta.machine at hd ⊢
  rcases hsm : sta.wpaSm with _ | sm
  · rw [hsm] at hd
    cases hd
  · rw [hsm] at hd
    rcases hsta with hsta | hsta
    · exact h.recorded sta sm hsta hsm d hd
    · rw [hsm] at hsta
      cases hsta

theorem Sound.put (h : Sound C conf addr ap) {sta : FtSta}
    (hsta : ap.sta = some sta ∨ sta.wpaSm = none) (hcache : ap.cache ⊆ cache)
    (hw : PtkWrite C conf addr cache sta.machine.1 sm new)
    (authAlg : AuthAlg) (auth : Bool) :
    Sound C conf addr
      ⟨cache, some ⟨authAlg, auth, some sm⟩, new ++ sta.machine.2 ++ ap.notes⟩ := by
  have hnew : ∀ n ∈ sta.machine.2, n = .created := by
    unfold FtSta.machine
    rcases sta.wpaSm with _ | sm <;> simp
  refine h.write hcache ?_ ?_ ?_
  · intro sta' sm' hsta' hsm'
    cases hsta'
    cases hsm'
    rw [List.append_assoc]
    exact hw.recorded (h.machine hsta)
  · intro d hd
    rcases List.mem_append.mp hd with hd | hd
    · exact hw.mem_notes.1 d hd
    · cases hnew _ hd
  · intro frame hf
    rcases List.mem_append.mp hf with hf | hf
    · exact hw.mem_notes.2 frame hf
    · cases hnew _ hf

theorem Sound.withSta (h : Sound C conf addr ap) {sta : Option FtSta}
    (hsta : ∀ sta' sm, sta = some sta' → sta'.wpaSm = some sm →
      ∃ old, ap.sta = some old ∧ ∃ smOld, old.wpaSm = some smOld ∧ sm.ptk = smOld.ptk) :
    Sound C conf addr { ap with sta := sta } := by
  refine ⟨?_, h.rooted, h.authentic⟩
  intro sta' sm hsta' hsm d hd
  obtain ⟨old, hold, smOld, hsmOld, hptk⟩ := hsta sta' sm hsta' hsm
  rw [hptk, h.recorded old smOld hold hsmOld d hd]

/-! ## The steps -/

theorem getD_new (ap : FtAp) :
    ap.sta = some (ap.sta.getD .new) ∨ (ap.sta.getD .new).wpaSm = none := by
  rcases ap.sta with _ | sta
  · exact .inr rfl
  · exact .inl rfl

theorem Sound.onMachine (h : Sound C conf addr ap) {f : FtSm → EntryEffect}
    (hf : ∀ sm, PtkWrite C conf addr ((f sm).stored ++ ap.cache) sm (f sm).sm (f sm).notes) :
    Sound C conf addr (onMachine ap f) := by
  unfold Ft.onMachine
  split
  · next authAlg auth sm hsta =>
    have hput := h.put (.inl hsta) (List.subset_append_right (f sm).stored ap.cache) (hf sm)
      authAlg auth
    simpa [FtSta.machine] using hput
  · exact h

theorem Sound.runAuthReq (h : Sound C conf addr ap) {sta : FtSta}
    (hsta : ap.sta = some sta ∨ sta.wpaSm = none) (env : AuthEnv) (ies : Bytes) :
    Sound C conf addr (runAuthReq C conf addr ap sta env ies).1 :=
  h.put hsta (List.Subset.refl ap.cache) (processAuthReq_write env ap.cache sta.machine.1 ies) .ft
    sta.auth

theorem Sound.authFt (h : Sound C conf addr ap) (env : AuthEnv) (ies : Bytes) :
    Sound C conf addr (authFt C conf addr ap env ies) := by
  have hrun := h.runAuthReq (getD_new ap) env ies
  unfold Ft.authFt
  dsimp only
  split
  · refine hrun.withSta ?_
    intro sta' sm hsta' hsm
    obtain ⟨old, hold, rfl⟩ := Option.map_eq_some_iff.mp hsta'
    exact ⟨old, hold, sm, hsm, rfl⟩
  · exact hrun

theorem Sound.authOpen (h : Sound C conf addr ap) :
    Sound C conf addr (authOpen ap) := by
  unfold Ft.authOpen
  dsimp only
  split
  · exact h.withSta fun sta' sm hsta' hsm => by cases hsta'; cases hsm
  · next sm hsm =>
    have hput := h.put (getD_new ap) (List.Subset.refl ap.cache)
      (event_write ap.cache (ap.sta.getD .new).machine.1 .auth false) .openSystem true
    simpa [FtSta.machine, hsm] using hput

theorem Sound.authShared (h : Sound C conf addr ap) (done : Bool) :
    Sound C conf addr (authShared ap done) := by
  unfold Ft.authShared
  dsimp only
  split
  · next sm hsm =>
    have hput := h.put (getD_new ap) (List.Subset.refl ap.cache)
      (event_write ap.cache (ap.sta.getD .new).machine.1 .auth false) .sharedKey true
    simpa [FtSta.machine, hsm] using hput
  · refine h.withSta ?_
    intro sta' sm hsta' hsm
    cases hsta'
    rcases getD_new ap with hsta | hnone
    · exact ⟨_, hsta, sm, hsm, rfl⟩
    · rw [hnone] at hsm
      cases hsm

theorem frameAuthentic_of_inStep {notes : List FtNote}
    (hroot : ∀ d, .derived d ∈ notes → Rooted C conf addr cache d)
    (hrec : Recorded sm notes) (hpresents : Presents C conf addr sm frame)
    (hstep : InStep sm notes) : FrameAuthentic C conf addr cache notes frame := by
  unfold InStep at hstep
  split at hstep
  · next d hd =>
    obtain ⟨hname, hsnonce, hanonce⟩ := hstep
    have hmem : .derived d ∈ notes := List.mem_of_find?_eq_some hd
    refine ⟨d, mem_sinceCleared_of_latestPtk hd, hroot d hmem, ?_, ?_, ?_, ?_⟩
    · rw [hname, hpresents.pmkid]
    · rw [hsnonce, hpresents.sNonce]
    · rw [hanonce, hpresents.aNonce]
    · rw [← hrec d hd, hpresents.mic]
  · exact hstep.elim

theorem presents_select {checks : AssocChecks} :
    Presents C conf addr (sm.select checks) frame ↔ Presents C conf addr sm frame :=
  ⟨fun h => ⟨h.pmkid, h.mdie, h.sNonce, h.aNonce, h.r0khId, h.r1khId, h.count, h.mic⟩,
    fun h => ⟨h.pmkid, h.mdie, h.sNonce, h.aNonce, h.r0khId, h.r1khId, h.count, h.mic⟩⟩

theorem Sound.accept (h : Sound C conf addr ap)
    (hframe : FrameAuthentic C conf addr ap.cache ap.notes frame) :
    Sound C conf addr { ap with notes := .accepted frame :: ap.notes } := by
  refine ⟨h.recorded, ?_, ?_⟩
  · intro d hd
    rcases List.mem_cons.mp hd with hd | hd
    · cases hd
    · exact h.rooted d hd
  · intro frame' older hsuffix
    rcases List.suffix_cons_iff.mp hsuffix with heq | hsuffix
    · cases heq
      exact hframe
    · exact h.authentic frame' older hsuffix

theorem Sound.handleAssoc (h : Sound C conf addr ap) {reassoc : Bool} {ies : Bytes}
    {checks : AssocChecks} (hcalm : Calm C conf addr ap (.assocReq reassoc ies checks)) :
    Sound C conf addr (handleAssoc C conf addr ap reassoc ies checks) := by
  unfold Ft.handleAssoc
  split
  · exact h
  next sta hsta =>
  split
  · exact h
  split
  · exact h
  next hearly =>
  split
  · refine h.withSta ?_
    intro sta' sm hsta' hsm
    cases hsta'
    obtain ⟨old, hold, rfl⟩ := Option.map_eq_some_iff.mp hsm
    exact ⟨sta, hsta, old, hold, rfl⟩
  next hwpaIe =>
  have hkeep : PtkWrite C conf addr ap.cache sta.machine.1 (sta.machine.1.select checks) [] :=
    .keep rfl
  have hput := h.put (.inl hsta) (List.Subset.refl ap.cache) hkeep sta.authAlg sta.auth
  rw [List.nil_append] at hput
  dsimp only
  split
  · next hvalid =>
    obtain ⟨hvalidIe, hft, rfl, hstatus⟩ := hvalid
    obtain ⟨frame, hread, hpresents⟩ := validateReassoc_eq_success_iff.mp hstatus
    rw [presents_select] at hpresents
    rw [hread]
    have hstep := hcalm (by simpa using hearly) (by simpa using hwpaIe) hvalidIe sta frame hsta hft
      hread hpresents
    exact hput.accept (frameAuthentic_of_inStep hput.rooted (h.machine (.inl hsta)) hpresents hstep)
  · exact hput

/-- **A step keeps the invariant** if a reassociation request that presents what the machine holds
finds the machine in step. -/
theorem Sound.step (h : Sound C conf addr ap) {op : FtOp}
    (hcalm : Calm C conf addr ap op) : Sound C conf addr (ftStep C conf addr ap op) := by
  cases op with
  | authOpen => exact h.authOpen
  | authShared done => exact h.authShared done
  | authFt env ies => exact h.authFt env ies
  | rrbRequest env ies => exact h.runAuthReq (getD_new ap) env ies
  | assocReq reassoc ies checks => exact h.handleAssoc hcalm
  | smEvent e setKeyOk => exact h.onMachine fun sm => event_write _ sm e setKeyOk
  | enter e => exact h.onMachine fun sm => enter_write _ sm e
  | rxEapolKey supName keyNonce => exact h.onMachine fun sm => .keep rfl
  | removePtk => exact h.onMachine fun sm => .cleared
  | storePmkR1 sa =>
    show Sound C conf addr ⟨sa :: ap.cache, ap.sta, [] ++ ap.notes⟩
    exact h.write (List.subset_cons_self sa ap.cache) h.recorded (by simp) (by simp)
  | clearAuth =>
    refine h.withSta ?_
    intro sta' sm hsta' hsm
    obtain ⟨old, hold, rfl⟩ := Option.map_eq_some_iff.mp hsta'
    exact ⟨old, hold, sm, hsm, rfl⟩
  | free => exact h.withSta fun sta' sm hsta' hsm => by cases hsta'

theorem Sound.init (cache : List PmkR1Sa) : Sound C conf addr (.init cache) := by
  refine ⟨?_, ?_, ?_⟩
  · intro sta sm hsta hsm
    cases hsta
  · intro d hd
    cases hd
  · intro frame older hsuffix
    simp [FtAp.init] at hsuffix

end Facts

/-! ## A request under a KCK of zeros -/

def toyCrypto : FtCrypto where
  pmkR0 _ _ _ _ _ := ([], Vector.replicate 16 2)
  pmkR1 _ _ _ := []
  pmkR1Name name _ _ := Vector.replicate 16 (name.getD 0 0 + 1)
  pmkR1ToPtk _ _ _ _ _ _ _ := ⟨1, 2, 3, none⟩
  omac1 kck data := Vector.replicate 16 (UInt8.ofNat (kck.toNat + data.length))
  aesWrap _ data := List.replicate 8 0 ++ data
  aesUnwrap _ data := some (data.drop 8)

def toyConf : FtConf where
  addr := 0x020000000001
  wpaGroup := .ccmp
  rsnPairwise := [.ccmp]
  wpaKeyMgmt := [.ftPsk]
  rsnPreauth := false
  peerkey := false
  wmmEnabled := false
  ieee80211w := .no
  ssid := [0x66, 0x74]
  mobilityDomain := [1, 2]
  r0KeyHolder := [7]
  r1KeyHolder := [2, 0, 0, 0, 0, 1]
  ftOverDs := false

def toyStation : MacAddr := 0x020000000002

/-- The elements of an authentication request with this name. -/
def toyAuthIes (pmkR0Name : Bytes) : Bytes :=
  encodeElements [(wlanEidRsn, (writeRsnIe toyConf pmkR0Name).getD []),
    (eidMobilityDomain, writeMdie toyConf),
    (eidFastBssTransition, ftieOctets 0 (List.replicate 16 0) (List.replicate 32 0)
      (List.replicate 32 5) [(subelemR0khId, [7])])]

/-- The elements of a reassociation request with this name and ANonce, and a MIC under this KCK. -/
def toyReassocIes (pmkR1Name anonce : Bytes) (kck : BitVec 128) : Bytes :=
  let rsn := (writeRsnIe toyConf pmkR1Name).getD []
  let ftie (mic : Bytes) := ftieOctets 3 mic anonce (List.replicate 32 5)
    [(subelemR1khId, toyConf.r1KeyHolder), (subelemR0khId, [7])]
  let mic := ftMic toyCrypto kck toyStation toyConf.addr 5 rsn (writeMdie toyConf)
    (ftie (List.replicate 16 0)) []
  encodeElements [(wlanEidRsn, rsn), (eidMobilityDomain, writeMdie toyConf),
    (eidFastBssTransition, ftie mic)]

/-- An association request that passes the other checks. -/
def toyChecks : AssocChecks where
  early := true
  wpaIe := true
  validIe := true
  wpaKeyMgmt := .ftPsk
  pairwise := .ccmp
  mgmtFrameProt := false
  wpa := .wpa2

def toyEnv : AuthEnv := ⟨List.replicate 32 4, true, true⟩

/-- A reassociation request with zeros for the name, the ANonce and the KCK. -/
def zeroKckIes : Bytes := toyReassocIes (List.replicate 16 0) (List.replicate 32 0) 0

/-- An authentication request under a name the access point does not know goes in front of it. -/
def zeroKckRun : List FtOp :=
  [.authFt toyEnv (toyAuthIes (List.replicate 16 9)), .assocReq true zeroKckIes toyChecks]

/-- The same station with a PMK-R1 in the cache, and with the PTK that was derived. -/
def toyRun : List FtOp :=
  [.storePmkR1 ⟨[8], List.replicate 16 10, toyStation, .ccmp⟩,
    .authFt toyEnv (toyAuthIes (List.replicate 16 9)),
    .assocReq true (toyReassocIes (List.replicate 16 10) (List.replicate 32 4) 1) toyChecks]

theorem inStep_of_map {ap : FtAp} (h : (ap.sta.map fun sta =>
    decide (InStep sta.machine.1 (sta.machine.2 ++ ap.notes))) = some true) {sta : FtSta}
    (hsta : ap.sta = some sta) : InStep sta.machine.1 (sta.machine.2 ++ ap.notes) := by
  rw [hsta] at h
  simpa using h

end Hostapd.Ap.Ft
