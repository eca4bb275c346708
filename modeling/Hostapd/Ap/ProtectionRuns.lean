import Hostapd.Ap.Protection

/-!
# What the protection counters count

The counters are there to say how many stations lack a capability now, by the latest association
request that was accepted from each. What the code keeps is how many stations ever lacked it since
they were added: a station that associates again with the capability stays counted.

* **`AssocReq.has`**, **`World`**: what a request says, and the interface beside the latest accepted
  request of each station.
* **`Marks`**: what counting does to one station and the counters.
* **`Good`**: what holds in every run, with the counters as the numbers of marked stations.
* **`Tracks`**, **`protection_counters`**: the counters and the operation mode are right in all states
  of a run exactly when no station loses a property from one accepted request to the next.
-/

namespace Hostapd.Ap.Protection

open Hostapd.Lib

/-! ## What a request says -/

def AssocReq.rates (req : AssocReq) : Bytes := req.suppRates.getD [] ++ req.extSuppRates.getD []

/-- The request of a station that is to be counted. -/
def AssocReq.has (req : AssocReq) (conf : Conf) (bss : BssConf) : Counter → Bool
  | .numStaNonErp => conf.modeG && !hasErpRate req.rates
  | .numStaNoShortSlotTime => !req.capabInfo.getLsbD 10
  | .numStaNoShortPreamble => !req.capabInfo.getLsbD 5
  | .numStaHtNoGf => (req.htCapab bss).any fun cap => !(htCapabilitiesInfo cap).getLsbD 4
  | .numStaNoHt => (req.htCapab bss).isNone
  | .numStaHt20mhz => (req.htCapab bss).any fun cap => !(htCapabilitiesInfo cap).getLsbD 1

def AssocReq.ratesFit (req : AssocReq) : Bool :=
  req.suppRates.any fun supp => supp.length ≤ suppRatesMax &&
    req.extSuppRates.all fun ext => supp.length + ext.length ≤ suppRatesMax

/-- The HT capabilities of a request are acceptable, and there is a block for them. -/
def AssocReq.htFits (req : AssocReq) (conf : Conf) (bss : BssConf) (sta : StaInfo) (block : Bool) :
    Bool :=
  match req.htCapab bss with
  | none => !(conf.ieee80211n && conf.requireHt)
  | some _ => sta.htCapabilities.isSome || block

def accepts (iface : Iface) (k : Key) (req : AssocReq) (checks : Checks) : Bool :=
  k ∈ iface.stas && ((iface.sta k).auth || (iface.sta k).authAlgFt) &&
  !iface.tkipCountermeasures k.bss &&
  req.listenInterval.toNat ≤ (iface.conf.bss k.bss).maxListenInterval &&
  checks.parsed && checks.ssid = statusSuccess && req.ratesFit &&
  req.htFits iface.conf (iface.conf.bss k.bss) (iface.sta k) checks.block &&
  checks.security = statusSuccess && checks.aid

/-- A station with what a request lists copied into it. -/
def StaInfo.copied (sta : StaInfo) (bss : BssConf) (req : AssocReq) : StaInfo :=
  { sta with
    supportedRates := req.rates
    ht := (req.htCapab bss).isSome
    htCapabilities := (req.htCapab bss).map fun cap => cap.take htCapabilitiesLen }

/-! ## Copying the elements -/

section Copy

variable (conf : Conf) (bss : BssConf) (sta : StaInfo) (req : AssocReq)

theorem copySuppRates_of_fit (h : req.ratesFit = true) :
    copySuppRates sta req = (statusSuccess, { sta with supportedRates := req.rates }) := by
  unfold AssocReq.ratesFit at h
  unfold copySuppRates AssocReq.rates
  cases hsupp : req.suppRates with
  | none => simp [hsupp] at h
  | some supp =>
    rw [hsupp, Option.any_some, Bool.and_eq_true, decide_eq_true_eq] at h
    cases hext : req.extSuppRates with
    | none => simp [Nat.not_lt.mpr h.1]
    | some ext =>
      rw [hext, Option.all_some, decide_eq_true_eq] at h
      simp [Nat.not_lt.mpr h.1, Nat.not_lt.mpr h.2]

theorem copySuppRates_of_not_fit (h : req.ratesFit = false) :
    ∃ rates, copySuppRates sta req =
      (statusUnspecifiedFailure, { sta with supportedRates := rates }) := by
  unfold AssocReq.ratesFit at h
  unfold copySuppRates
  cases hsupp : req.suppRates with
  | none => exact ⟨sta.supportedRates, rfl⟩
  | some supp =>
    rw [hsupp, Option.any_some] at h
    by_cases hlen : supp.length ≤ suppRatesMax
    · cases hext : req.extSuppRates with
      | none => simp [hlen, hext] at h
      | some ext =>
        have hlong : suppRatesMax < supp.length + ext.length := by simpa [hlen, hext] using h
        exact ⟨supp, by simp [hlong, Nat.not_lt.mpr hlen]⟩
    · exact ⟨sta.supportedRates, by simp [Nat.not_le.mp hlen]⟩

structure Keeps (sta sta' : StaInfo) : Prop where
  set : sta'.set = sta.set
  nonerp : sta'.nonerp = sta.nonerp

theorem copyStaHtCapab_keeps (block : Bool) :
    Keeps sta (copyStaHtCapab bss sta req block).2 := by
  unfold copyStaHtCapab
  split
  · exact ⟨rfl, rfl⟩
  · split <;> exact ⟨rfl, rfl⟩

theorem copySuppRates_keeps : Keeps sta (copySuppRates sta req).2 := by
  cases hfit : req.ratesFit with
  | true =>
    rw [copySuppRates_of_fit sta req hfit]
    exact ⟨rfl, rfl⟩
  | false =>
    obtain ⟨rates, h⟩ := copySuppRates_of_not_fit sta req hfit
    rw [h]
    exact ⟨rfl, rfl⟩

theorem checkAssocIes_keeps (checks : Checks) :
    Keeps sta (checkAssocIes conf bss sta req checks).2 := by
  have hrates := copySuppRates_keeps sta req
  have hht := copyStaHtCapab_keeps bss (copySuppRates sta req).2 req checks.block
  have hboth : Keeps sta (copyStaHtCapab bss (copySuppRates sta req).2 req checks.block).2 :=
    ⟨hht.set.trans hrates.set, hht.nonerp.trans hrates.nonerp⟩
  unfold checkAssocIes
  split
  · exact ⟨rfl, rfl⟩
  split
  · exact ⟨rfl, rfl⟩
  simp only
  split
  · exact hrates
  split
  · exact hboth
  split <;> exact hboth

theorem checkAssocIes_success (checks : Checks) :
    (checkAssocIes conf bss sta req checks).1 = statusSuccess ↔
      checks.parsed = true ∧ checks.ssid = statusSuccess ∧ req.ratesFit = true ∧
        req.htFits conf bss sta checks.block = true ∧ checks.security = statusSuccess := by
  unfold checkAssocIes
  cases hparsed : checks.parsed with
  | false => simp [statusUnspecifiedFailure, statusSuccess]
  | true =>
    by_cases hssid : checks.ssid = statusSuccess
    · cases hfit : req.ratesFit with
      | false =>
        obtain ⟨rates, h⟩ := copySuppRates_of_not_fit sta req hfit
        simp [hssid, h, statusUnspecifiedFailure, statusSuccess]
      | true =>
        rw [copySuppRates_of_fit sta req hfit]
        unfold copyStaHtCapab AssocReq.htFits
        cases hcap : req.htCapab bss with
        | none =>
          cases conf.ieee80211n <;> cases conf.requireHt <;>
            simp [hssid, statusAssocDeniedNoHt, statusSuccess]
        | some cap =>
          cases hold : sta.htCapabilities <;> cases checks.block <;>
            simp [hssid, statusUnspecifiedFailure, statusSuccess]
    · simp [hssid]

theorem checkAssocIes_copied {checks : Checks}
    (h : (checkAssocIes conf bss sta req checks).1 = statusSuccess) :
    (checkAssocIes conf bss sta req checks).2 = sta.copied bss req := by
  obtain ⟨hparsed, hssid, hfit, hht, -⟩ := (checkAssocIes_success conf bss sta req checks).mp h
  unfold checkAssocIes StaInfo.copied
  rw [copySuppRates_of_fit sta req hfit]
  unfold AssocReq.htFits at hht
  unfold copyStaHtCapab
  cases hcap : req.htCapab bss with
  | none =>
    rw [hcap] at hht
    cases conf.ieee80211n <;> cases conf.requireHt <;> simp_all [statusSuccess]
  | some cap =>
    rw [hcap] at hht
    cases hold : sta.htCapabilities <;> cases hblock : checks.block <;> simp_all [statusSuccess]

end Copy

/-! ## Counting -/

/-- What is done to the bits of one station, and to the counters with them; nothing else changes but
this station. -/
structure Marks (s s' : Iface) (k : Key) (f : Counter → Bool → Bool) : Prop where
  conf : s'.conf = s.conf
  stas : s'.stas = s.stas
  olbcHt : s'.olbcHt = s.olbcHt
  other : ∀ j, j ≠ k → s'.sta j = s.sta j
  set : ∀ c, (s'.sta k).set c = f c ((s.sta k).set c)
  num : ∀ c, s'.num c - share ((s'.sta k).set c) = s.num c - share ((s.sta k).set c)

variable {k : Key}

theorem Marks.trans {s s' s'' : Iface} {f g : Counter → Bool → Bool}
    (h : Marks s s' k f) (h' : Marks s' s'' k g) : Marks s s'' k fun c b => g c (f c b) where
  conf := h'.conf.trans h.conf
  stas := h'.stas.trans h.stas
  olbcHt := h'.olbcHt.trans h.olbcHt
  other j hj := (h'.other j hj).trans (h.other j hj)
  set c := by rw [h'.set, h.set]
  num c := (h'.num c).trans (h.num c)

variable {s s' : Iface}

theorem Marks.congr {f g : Counter → Bool → Bool} (h : Marks s s' k f)
    (hfg : ∀ c b, f c b = g c b) : Marks s s' k g := by
  have heq : f = g := funext fun c => funext fun b => hfg c b
  rwa [← heq]

theorem modifySta_marks (iface : Iface) (k : Key) {f : StaInfo → StaInfo}
    (hf : (f (iface.sta k)).set = (iface.sta k).set) :
    Marks iface (modifySta iface k f) k fun _ b => b where
  conf := rfl
  stas := rfl
  olbcHt := rfl
  other j hj := Function.update_of_ne hj _ _
  set c := by simp [modifySta, hf]
  num c := by simp [modifySta, hf]

/-- Counting that writes nothing but the bits into the station. -/
structure Counts (s s' : Iface) (k : Key) (p : Counter → Bool) : Prop where
  marks : Marks s s' k fun c b => b || p c
  frame : ∃ set, s'.sta k = { s.sta k with set := set }

theorem Counts.trans {s s' s'' : Iface} {p q : Counter → Bool} (h : Counts s s' k p)
    (h' : Counts s' s'' k q) : Counts s s'' k fun c => p c || q c where
  marks := (h.marks.trans h'.marks).congr fun c b => Bool.or_assoc b (p c) (q c)
  frame := by
    obtain ⟨set, hset⟩ := h.frame
    obtain ⟨set', hset'⟩ := h'.frame
    exact ⟨set', by rw [hset', hset]⟩

theorem Counts.congr {p q : Counter → Bool} (h : Counts s s' k p)
    (hpq : ∀ c, p c = q c) : Counts s s' k q :=
  ⟨h.marks.congr fun c b => by rw [hpq c], h.frame⟩

section Counting

variable (iface : Iface) (k : Key)

theorem countSta_counts (c : Counter) (lacks : Bool) :
    Counts iface (countSta iface k c lacks) k fun c' => c' = c && lacks := by
  unfold countSta
  by_cases hcount : lacks ∧ (iface.sta k).set c = false
  · obtain ⟨rfl, hset⟩ := hcount
    rw [if_pos ⟨rfl, hset⟩]
    refine ⟨⟨rfl, rfl, rfl, fun j hj => Function.update_of_ne hj _ _, fun c' => ?_, fun c' => ?_⟩,
      ⟨_, Function.update_self _ _ _⟩⟩
    · by_cases hc : c' = c
      · simp [modifySta, hc]
      · simp [modifySta, hc]
    · by_cases hc : c' = c
      · simp [modifySta, hc, hset]
      · simp [modifySta, hc]
  · -- The station is not to be counted, or is counted already.
    rw [if_neg hcount]
    refine ⟨⟨rfl, rfl, rfl, fun _ _ => rfl, fun c' => ?_, fun _ => rfl⟩, ⟨_, rfl⟩⟩
    by_cases hc : c' = c
    · subst hc
      cases lacks <;> simp_all
    · simp [hc]

@[simp] theorem htOperationUpdate_sta : (htOperationUpdate iface).sta = iface.sta := by
  unfold htOperationUpdate
  split <;> rfl

theorem htOperationUpdate_num (c : Counter) : (htOperationUpdate iface).num c = iface.num c := by
  unfold htOperationUpdate
  split <;> rfl

theorem htOperationUpdate_marks : Marks iface (htOperationUpdate iface) k fun _ b => b := by
  unfold htOperationUpdate
  split <;> exact ⟨rfl, rfl, rfl, fun _ _ => rfl, fun _ => rfl, fun _ => rfl⟩

def StaInfo.lacks (sta : StaInfo) : Counter → Bool
  | .numStaNonErp => sta.nonerp
  | .numStaNoShortSlotTime => !sta.capability.getLsbD 10
  | .numStaNoShortPreamble => !sta.capability.getLsbD 5
  | .numStaHtNoGf => sta.ht && sta.htCapabilities.any fun cap => !(htCapabilitiesInfo cap).getLsbD 4
  | .numStaNoHt => !(sta.ht && sta.htCapabilities.isSome)
  | .numStaHt20mhz => sta.ht && sta.htCapabilities.any fun cap => !(htCapabilitiesInfo cap).getLsbD 1

def Counter.isHt : Counter → Bool
  | .numStaHtNoGf | .numStaNoHt | .numStaHt20mhz => true
  | _ => false

theorem updateHtState_counts : ∃ s, updateHtState iface k = htOperationUpdate s ∧
    Counts iface s k fun c => c.isHt && (iface.sta k).lacks c := by
  unfold updateHtState
  have hno : (iface.sta k).ht = false ∨ (iface.sta k).htCapabilities = none →
      Counts iface (updateStaNoHt iface k) k fun c => c.isHt && (iface.sta k).lacks c := by
    intro hno
    refine (countSta_counts iface k .numStaNoHt true).congr fun c => ?_
    rcases hno with hno | hno <;> cases c <;> simp [Counter.isHt, StaInfo.lacks, hno]
  cases hht : (iface.sta k).ht with
  | false => exact ⟨_, rfl, hno (.inl hht)⟩
  | true =>
    cases hcap : (iface.sta k).htCapabilities with
    | none => exact ⟨_, rfl, hno (.inr hcap)⟩
    | some cap =>
      refine ⟨_, rfl, ((countSta_counts iface k .numStaHtNoGf _).trans
        (countSta_counts _ k .numStaHt20mhz _)).congr fun c => ?_⟩
      cases c <;> simp [Counter.isHt, StaInfo.lacks, hht, hcap]

theorem countAssoc_counts : ∃ s, countAssoc iface k = htOperationUpdate s ∧
    Counts iface s k (iface.sta k).lacks := by
  have hcap := ((countSta_counts iface k .numStaNonErp (iface.sta k).nonerp).trans
    (countSta_counts _ k .numStaNoShortSlotTime (!(iface.sta k).capability.getLsbD 10))).trans
    (countSta_counts _ k .numStaNoShortPreamble (!(iface.sta k).capability.getLsbD 5))
  obtain ⟨s, hs, hht⟩ := updateHtState_counts (countSta (countSta (countSta iface k .numStaNonErp
    (iface.sta k).nonerp) k .numStaNoShortSlotTime (!(iface.sta k).capability.getLsbD 10)) k
    .numStaNoShortPreamble (!(iface.sta k).capability.getLsbD 5)) k
  obtain ⟨set, hset⟩ := hcap.frame
  refine ⟨s, hs, (hcap.trans hht).congr fun c => ?_⟩
  rw [hset]
  cases c <;> simp [Counter.isHt, StaInfo.lacks]

theorem uncountSta_marks (c : Counter) :
    Marks iface (uncountSta iface k c) k fun c' b => b && c' ≠ c := by
  unfold uncountSta
  by_cases hset : (iface.sta k).set c = true
  · rw [if_pos hset]
    refine ⟨rfl, rfl, rfl, fun j hj => Function.update_of_ne hj _ _, fun c' => ?_, fun c' => ?_⟩
    · by_cases hc : c' = c
      · simp [modifySta, hc]
      · simp [modifySta, hc]
    · by_cases hc : c' = c
      · simp [modifySta, hc, hset]
      · simp [modifySta, hc]
  · rw [if_neg hset]
    refine ⟨rfl, rfl, rfl, fun _ _ => rfl, fun c' => ?_, fun _ => rfl⟩
    by_cases hc : c' = c
    · simpa [hc] using hset
    · simp [hc]

theorem uncountSta_nonerp (c : Counter) :
    ((uncountSta iface k c).sta k).nonerp = (iface.sta k).nonerp := by
  unfold uncountSta
  split
  · simp [modifySta]
  · rfl

theorem freeSta_marks : ∃ s, freeSta iface k = htOperationUpdate s ∧
    (s.sta k).nonerp = (iface.sta k).nonerp ∧
    Marks { iface with stas := iface.stas.erase k } s k fun _ _ => false := by
  refine ⟨_, rfl, ?_, ?_⟩
  · simp only [uncountSta_nonerp]
  · refine ((((((uncountSta_marks _ k _).trans (uncountSta_marks _ k _)).trans
      (uncountSta_marks _ k _)).trans (uncountSta_marks _ k _)).trans
      (uncountSta_marks _ k _)).trans (uncountSta_marks _ k _)).congr fun c b => ?_
    cases c <;> simp

end Counting

/-! ## Requests -/

section Requests

variable (iface : Iface) (k : Key) (req : AssocReq) (checks : Checks)

/-- The request gets as far as the checks of its elements. -/
def admitted : Bool :=
  k ∈ iface.stas && ((iface.sta k).auth || (iface.sta k).authAlgFt) &&
  !iface.tkipCountermeasures k.bss &&
  req.listenInterval.toNat ≤ (iface.conf.bss k.bss).maxListenInterval

/-- The elements of a request are checked and copied. -/
def checked : ℕ × StaInfo :=
  checkAssocIes iface.conf (iface.conf.bss k.bss) (iface.sta k) req checks

theorem accepts_eq : accepts iface k req checks =
    (admitted iface k req && decide ((checked iface k req checks).1 = statusSuccess) &&
      checks.aid) := by
  rw [Bool.eq_iff_iff]
  simp only [accepts, admitted, checked, Bool.and_eq_true, decide_eq_true_eq,
    checkAssocIes_success]
  tauto

theorem handleAssoc_of_not_admitted (h : admitted iface k req = false) :
    ∃ resp, handleAssoc iface k req checks = (resp, iface) ∧ resp ≠ some statusSuccess := by
  by_cases hauth : k ∉ iface.stas ∨ ((!(iface.sta k).auth) = true ∧
      (!(iface.sta k).authAlgFt) = true)
  · exact ⟨none, by rw [handleAssoc, if_pos hauth], nofun⟩
  by_cases htkip : iface.tkipCountermeasures k.bss = true
  · exact ⟨some reasonMichaelMicFailure, by rw [handleAssoc, if_neg hauth, if_pos htkip],
      by decide⟩
  by_cases hint : req.listenInterval.toNat > (iface.conf.bss k.bss).maxListenInterval
  · exact ⟨some statusListenIntTooLarge,
      by rw [handleAssoc, if_neg hauth, if_neg htkip, if_pos hint], by decide⟩
  -- Otherwise the request is admitted.
  simp only [not_or, not_not, not_and, Bool.not_eq_true', Bool.not_eq_false] at hauth
  have hsome : (iface.sta k).auth = true ∨ (iface.sta k).authAlgFt = true := by
    cases hset : (iface.sta k).auth with
    | true => exact .inl rfl
    | false => exact .inr (hauth.2 hset)
  have hadm : admitted iface k req = true := by
    simp only [admitted, Bool.and_eq_true, Bool.or_eq_true, Bool.not_eq_true', decide_eq_true_eq]
    exact ⟨⟨⟨hauth.1, hsome⟩, by simpa using htkip⟩, Nat.le_of_not_gt hint⟩
  rw [hadm] at h
  cases h

theorem handleAssoc_of_admitted (h : admitted iface k req = true) :
    handleAssoc iface k req checks =
      let iface' := modifySta iface k fun _ => (checked iface k req checks).2
      if (checked iface k req checks).1 ≠ statusSuccess then
        (some (checked iface k req checks).1, iface')
      else if !checks.aid then (some statusApUnableToHandleNewSta, iface')
      else (some statusSuccess,
        countAssoc (modifySta iface' k fun sta => sta.accept iface.conf req) k) := by
  simp only [admitted, Bool.and_eq_true, Bool.or_eq_true, Bool.not_eq_true', decide_eq_true_eq] at h
  obtain ⟨⟨⟨hmem, hauth⟩, htkip⟩, hint⟩ := h
  have hnot : ¬ (k ∉ iface.stas ∨ ((!(iface.sta k).auth) = true ∧
      (!(iface.sta k).authAlgFt) = true)) := by
    rcases hauth with hauth | hauth <;> simp [hmem, hauth]
  rw [handleAssoc, if_neg hnot, if_neg (by simp [htkip]), if_neg (Nat.not_lt.mpr hint)]
  rfl

theorem checked_keeps : Keeps (iface.sta k) (checked iface k req checks).2 :=
  checkAssocIes_keeps _ _ _ _ _

theorem handleAssoc_rejected (h : accepts iface k req checks = false) :
    Marks iface (handleAssoc iface k req checks).2 k (fun _ b => b) ∧
      (handleAssoc iface k req checks).2.htOpMode = iface.htOpMode ∧
      ((handleAssoc iface k req checks).2.sta k).nonerp = (iface.sta k).nonerp := by
  have hkeep := checked_keeps iface k req checks
  have hwrite : Marks iface (modifySta iface k fun _ => (checked iface k req checks).2) k
      (fun _ b => b) ∧
      (modifySta iface k fun _ => (checked iface k req checks).2).htOpMode = iface.htOpMode ∧
      ((modifySta iface k fun _ => (checked iface k req checks).2).sta k).nonerp =
        (iface.sta k).nonerp :=
    ⟨modifySta_marks iface k hkeep.set, rfl, by simp [modifySta, hkeep.nonerp]⟩
  cases hadm : admitted iface k req with
  | false =>
    obtain ⟨resp, heq, -⟩ := handleAssoc_of_not_admitted iface k req checks hadm
    rw [heq]
    exact ⟨⟨rfl, rfl, rfl, fun _ _ => rfl, fun _ => rfl, fun _ => rfl⟩, rfl, rfl⟩
  | true =>
    rw [accepts_eq, hadm, Bool.true_and] at h
    rw [handleAssoc_of_admitted iface k req checks hadm]
    by_cases hok : (checked iface k req checks).1 = statusSuccess
    · have haid : checks.aid = false := by simpa [hok] using h
      simpa [hok, haid] using hwrite
    · simpa [hok] using hwrite

theorem htCapabilitiesInfo_take {cap : Bytes} (h : htCapabilitiesLen ≤ cap.length) :
    htCapabilitiesInfo (cap.take htCapabilitiesLen) = htCapabilitiesInfo cap := by
  match cap with
  | [] => rfl
  | [_] => exact absurd h (by simp [htCapabilitiesLen])
  | _ :: _ :: _ => rfl

theorem length_of_htCapab {bss : BssConf} {cap : Bytes} (h : req.htCapab bss = some cap) :
    htCapabilitiesLen ≤ cap.length := by
  unfold AssocReq.htCapab at h
  split at h
  · cases h
  · simpa using (Option.filter_eq_some_iff.mp h).2

theorem accept_copied_lacks {conf : Conf} (bss : BssConf) {sta : StaInfo}
    (herp : sta.nonerp = true → conf.modeG = true) (c : Counter) :
    ((sta.copied bss req).accept conf req).lacks c = req.has conf bss c := by
  cases c with
  | numStaNonErp =>
    have hmode : (conf.modeG || sta.nonerp) = conf.modeG := by
      cases hset : sta.nonerp with
      | false => exact Bool.or_false _
      | true => rw [herp hset, Bool.true_or]
    simp [StaInfo.lacks, StaInfo.accept, StaInfo.copied, AssocReq.has, hmode]
  | numStaNoShortSlotTime => rfl
  | numStaNoShortPreamble => rfl
  | numStaHtNoGf | numStaHt20mhz =>
    cases hcap : req.htCapab bss with
    | none => simp [StaInfo.lacks, StaInfo.accept, StaInfo.copied, AssocReq.has, hcap]
    | some cap =>
      simp [StaInfo.lacks, StaInfo.accept, StaInfo.copied, AssocReq.has, hcap,
        htCapabilitiesInfo_take (length_of_htCapab req hcap)]
  | numStaNoHt =>
    cases hcap : req.htCapab bss <;>
      simp [StaInfo.lacks, StaInfo.accept, StaInfo.copied, AssocReq.has, hcap]

theorem handleAssoc_accepted (h : accepts iface k req checks = true)
    (herp : (iface.sta k).nonerp = true → iface.conf.modeG = true) :
    ∃ s, (handleAssoc iface k req checks).2 = htOperationUpdate s ∧
      Marks iface s k (fun c b => b || req.has iface.conf (iface.conf.bss k.bss) c) ∧
      ((s.sta k).nonerp = true → iface.conf.modeG = true) := by
  have hkeep := checked_keeps iface k req checks
  rw [accepts_eq, Bool.and_eq_true, Bool.and_eq_true, decide_eq_true_eq] at h
  obtain ⟨⟨hadm, hok⟩, haid⟩ := h
  have hcopied : (checked iface k req checks).2 =
      (iface.sta k).copied (iface.conf.bss k.bss) req := checkAssocIes_copied _ _ _ _ hok
  rw [handleAssoc_of_admitted iface k req checks hadm]
  simp only [hok, haid, ne_eq, not_true_eq_false, if_false, Bool.not_true, Bool.false_eq_true]
  -- The station with the request in it, before it is counted.
  have hcopy := modifySta_marks iface k (f := fun _ => (checked iface k req checks).2) hkeep.set
  have haccept := modifySta_marks (modifySta iface k fun _ => (checked iface k req checks).2) k
    (f := fun sta => sta.accept iface.conf req) rfl
  obtain ⟨s, hs, hcounts⟩ := countAssoc_counts (modifySta
    (modifySta iface k fun _ => (checked iface k req checks).2) k
    fun sta => sta.accept iface.conf req) k
  have hsta : (modifySta (modifySta iface k fun _ => (checked iface k req checks).2) k
      fun sta => sta.accept iface.conf req).sta k =
      ((iface.sta k).copied (iface.conf.bss k.bss) req).accept iface.conf req := by
    simp [modifySta, hcopied]
  refine ⟨s, hs, ((hcopy.trans haccept).trans hcounts.marks).congr fun c b => ?_, ?_⟩
  · rw [hsta, accept_copied_lacks req _ herp]
  · obtain ⟨set, hset⟩ := hcounts.frame
    rw [hset, hsta]
    intro hnonerp
    have hboth : ((iface.conf.modeG || (iface.sta k).nonerp) && !hasErpRate req.rates) = true :=
      hnonerp
    rw [Bool.and_eq_true, Bool.or_eq_true] at hboth
    exact hboth.1.elim id herp

end Requests

/-! ## The operation mode -/

def ModeOf (iface : Iface) : Prop :=
  iface.conf.computesOpMode = true → iface.htOpMode &&& opModeMask = (newOpMode iface).toBits

theorem OpMode.toBits_and_mask (m : OpMode) : m.toBits &&& opModeMask = m.toBits := by
  cases m <;> decide

theorem htOperationUpdate_mode (iface : Iface) : ModeOf (htOperationUpdate iface) := by
  intro hconf
  have hmarks := htOperationUpdate_marks iface ⟨0, 0⟩
  have hsame : newOpMode (htOperationUpdate iface) = newOpMode iface := by
    simp only [newOpMode, htOperationUpdate_num, hmarks.conf, hmarks.olbcHt]
  rw [hmarks.conf] at hconf
  rw [hsame]
  simp only [htOperationUpdate, hconf, Bool.not_true, Bool.false_eq_true, if_false]
  split
  · have hand : ∀ m n : BitVec 16, (m &&& ~~~opModeMask ||| n) &&& opModeMask = n &&& opModeMask := by
      intro m n
      ext i
      simp only [BitVec.getElem_and, BitVec.getElem_or, BitVec.getElem_not]
      cases opModeMask[i] <;> simp
    rw [hand, OpMode.toBits_and_mask]
  · next heq => exact not_not.mp heq

theorem ModeOf.congr (h : ModeOf s) (hconf : s'.conf = s.conf)
    (hmode : s'.htOpMode = s.htOpMode) (hnum : ∀ c, s'.num c = s.num c)
    (holbc : s'.olbcHt = s.olbcHt) : ModeOf s' := by
  intro hcomp
  have hsame : newOpMode s' = newOpMode s := by simp only [newOpMode, hnum, hconf, holbc]
  rw [hmode, hsame]
  exact h (hconf ▸ hcomp)

/-! ## The numbers of marked stations -/

/-- Each counter is the number of stations that are marked in it. -/
def Counted (iface : Iface) : Prop :=
  ∀ c, iface.num c = tally iface.stas fun k => (iface.sta k).set c

theorem Marks.counted {f : Counter → Bool → Bool} (h : Marks s s' k f)
    (hnd : s.stas.Nodup) (hk : k ∈ s.stas) (hs : Counted s) : Counted s' := by
  intro c
  have hchange := tally_change hnd hk (p := fun j => (s.sta j).set c)
    (q := fun j => (s'.sta j).set c) fun j _ hj => by rw [h.other j hj]
  have hnum := h.num c
  rw [hs c] at hnum
  rw [h.stas]
  omega

theorem htOperationUpdate_counted {iface : Iface} (h : Counted iface) :
    Counted (htOperationUpdate iface) := by
  intro c
  rw [htOperationUpdate_num, htOperationUpdate_sta, (htOperationUpdate_marks iface ⟨0, 0⟩).stas]
  exact h c

theorem freeSta_counted {iface : Iface} (hnd : iface.stas.Nodup) (hk : k ∈ iface.stas)
    (h : Counted iface) : Counted (freeSta iface k) := by
  obtain ⟨s, hs, -, hmarks⟩ := freeSta_marks iface k
  rw [hs]
  refine htOperationUpdate_counted fun c => ?_
  have hnum := hmarks.num c
  rw [hmarks.set c, share_false] at hnum
  have herase := tally_erase hk fun j => (iface.sta j).set c
  have hother : tally (iface.stas.erase k) (fun j => (s.sta j).set c) =
      tally (iface.stas.erase k) fun j => (iface.sta j).set c := by
    refine tally_congr fun j hj => ?_
    rw [hmarks.other j (hnd.mem_erase_iff.mp hj).1]
  have hstart := h c
  rw [hmarks.stas]
  simp only at hnum ⊢
  omega

/-! ## The latest requests -/

/-- The interface, and the latest accepted request of each station. -/
structure World where
  iface : Iface
  latest : Key → Option AssocReq

def World.hears (w : World) : Op → Key → Option AssocReq
  | .assoc k req checks =>
    if accepts w.iface k req checks then Function.update w.latest k (some req) else w.latest
  | .free k => Function.update w.latest k none
  | _ => w.latest

def World.step (w : World) (op : Op) : World := ⟨Protection.step w.iface op, w.hears op⟩

def World.init (conf : Conf) : World := ⟨Protection.init conf, fun _ => none⟩

/-- The latest accepted request of a station has the property. -/
def World.has (w : World) (k : Key) (c : Counter) : Bool :=
  (w.latest k).any fun req => req.has w.iface.conf (w.iface.conf.bss k.bss) c

/-- The mode that the comment above `hostapd_ht_operation_update` prescribes: mixed when a non-HT
station is associated, else 20 MHz protection when a 20 MHz HT station is associated in a 20/40 MHz
BSS, else non-member protection when there may be non-HT stations, else pure HT. -/
def World.prescribedMode (w : World) : OpMode :=
  if ∃ k ∈ w.iface.stas, w.has k .numStaNoHt = true then .mixed
  else if w.iface.conf.channelWidthSet ∧ ∃ k ∈ w.iface.stas, w.has k .numStaHt20mhz = true then
    .ht20mhzStaAssoced
  else if w.iface.olbcHt then .mayBeLegacyStas
  else .pure

/-- The counters are the numbers of stations whose latest accepted request has the property, and the
mode is the one prescribed for them. -/
structure World.Tracks (w : World) : Prop where
  num : ∀ c, w.iface.num c = tally w.iface.stas fun k => w.has k c
  nonneg : ∀ c, 0 ≤ w.iface.num c
  mode : w.iface.conf.computesOpMode = true →
    w.iface.htOpMode &&& opModeMask = w.prescribedMode.toBits

/-- The station has each property that its latest accepted request had, if this request is accepted
too. -/
def World.KeepsProperties (w : World) : Op → Prop
  | .assoc k req checks => accepts w.iface k req checks = true →
      ∀ c, w.has k c = true → req.has w.iface.conf (w.iface.conf.bss k.bss) c = true
  | _ => True

/-- What holds in every run: the counters are the numbers of marked stations, who are those that had
the property in some accepted request. -/
structure World.Good (w : World) : Prop where
  nodup : w.iface.stas.Nodup
  num : ∀ c, w.iface.num c = tally w.iface.stas fun k => (w.iface.sta k).set c
  marked : ∀ k c, w.has k c = true → (w.iface.sta k).set c = true
  gone : ∀ k, k ∉ w.iface.stas → w.latest k = none
  unmarked : ∀ k, k ∉ w.iface.stas → ∀ c, (w.iface.sta k).set c = false
  erp : ∀ k, (w.iface.sta k).nonerp = true → w.iface.conf.modeG = true
  mode : ModeOf w.iface

/-- No station is marked for what its latest accepted request does not say. -/
def World.Exact (w : World) : Prop :=
  ∀ k c, (w.iface.sta k).set c = true → w.has k c = true

/-- A step to a good state that does `f` to the marks. -/
structure World.Moved (w w' : World) (f : Key → Counter → Bool → Bool) : Prop where
  good : w'.Good
  conf : w'.iface.conf = w.iface.conf
  set : ∀ k c, (w'.iface.sta k).set c = f k c ((w.iface.sta k).set c)

theorem World.good_init (conf : Conf) : (World.init conf).Good where
  nodup := .nil
  num _ := rfl
  marked _ _ h := nomatch h
  gone _ _ := rfl
  unmarked _ _ _ := rfl
  erp _ h := nomatch h
  mode _ := by simp [World.init, Protection.init, newOpMode, OpMode.toBits]

section Steps

variable {w : World}

variable {k : Key}

theorem World.has_of_latest {w' : World} (hconf : w'.iface.conf = w.iface.conf)
    (h : w'.latest k = w.latest k) (c : Counter) : w'.has k c = w.has k c := by
  rw [World.has, World.has, h, hconf]

variable {req : AssocReq} {checks : Checks}

theorem mem_of_accepts {iface : Iface}
    (hacc : accepts iface k req checks = true) : k ∈ iface.stas := by
  rw [accepts_eq, admitted] at hacc
  simp only [Bool.and_eq_true, decide_eq_true_eq] at hacc
  exact hacc.1.1.1.1.1

theorem step_accepted (h : w.Good)
    (hacc : accepts w.iface k req checks = true) : w.Moved (w.step (.assoc k req checks))
      fun j c b => b || (j = k && req.has w.iface.conf (w.iface.conf.bss k.bss) c) := by
  obtain ⟨s, hs, hmarks, herp⟩ := handleAssoc_accepted w.iface k req checks hacc (h.erp k)
  have hk := mem_of_accepts hacc
  have hupd := htOperationUpdate_marks s k
  have hiface : (w.step (.assoc k req checks)).iface = htOperationUpdate s := hs
  have hlatest : (w.step (.assoc k req checks)).latest = Function.update w.latest k (some req) :=
    if_pos hacc
  have hset : ∀ j c, ((w.step (.assoc k req checks)).iface.sta j).set c =
      ((w.iface.sta j).set c || (j = k && req.has w.iface.conf (w.iface.conf.bss k.bss) c)) := by
    intro j c
    rw [hiface, htOperationUpdate_sta]
    by_cases hj : j = k
    · simp [hj, hmarks.set]
    · simp [hj, hmarks.other j hj]
  have hconf : (w.step (.assoc k req checks)).iface.conf = w.iface.conf := by
    rw [hiface, hupd.conf, hmarks.conf]
  have hstas : (w.step (.assoc k req checks)).iface.stas = w.iface.stas := by
    rw [hiface, hupd.stas, hmarks.stas]
  refine ⟨⟨hstas ▸ h.nodup, ?_, ?_, ?_, ?_, ?_, ?_⟩, hconf, hset⟩
  · rw [hiface]
    exact htOperationUpdate_counted (hmarks.counted h.nodup hk h.num)
  · intro j c hhas
    rw [hset]
    rw [World.has, hlatest, hconf] at hhas
    by_cases hj : j = k
    · subst hj
      rw [Function.update_self] at hhas
      simpa using .inr hhas
    · rw [Function.update_of_ne hj] at hhas
      rw [h.marked j c hhas, Bool.true_or]
  · intro j hj
    rw [hstas] at hj
    have hjk : j ≠ k := fun heq => hj (heq ▸ hk)
    rw [hlatest, Function.update_of_ne hjk, h.gone j hj]
  · intro j hj c
    rw [hstas] at hj
    have hjk : j ≠ k := fun heq => hj (heq ▸ hk)
    simp [hset, h.unmarked j hj c, hjk]
  · intro j hnonerp
    rw [hconf]
    rw [hiface, htOperationUpdate_sta] at hnonerp
    by_cases hj : j = k
    · exact herp (hj ▸ hnonerp)
    · rw [hmarks.other j hj] at hnonerp
      exact h.erp j hnonerp
  · rw [hiface]
    exact htOperationUpdate_mode s

theorem World.Good.of_same (h : w.Good) {w' : World} (hconf : w'.iface.conf = w.iface.conf)
    (hstas : w'.iface.stas = w.iface.stas) (hlatest : w'.latest = w.latest)
    (hset : ∀ k c, (w'.iface.sta k).set c = (w.iface.sta k).set c)
    (hnonerp : ∀ k, (w'.iface.sta k).nonerp = (w.iface.sta k).nonerp)
    (hnum : ∀ c, w'.iface.num c = w.iface.num c) (hmode : ModeOf w'.iface) : w'.Good where
  nodup := hstas ▸ h.nodup
  num c := by
    rw [hnum, h.num, hstas]
    exact tally_congr fun k _ => (hset k c).symm
  marked k c hhas := by
    rw [World.has_of_latest hconf (congrFun hlatest k)] at hhas
    rw [hset]
    exact h.marked k c hhas
  gone k hk := by
    rw [hlatest]
    exact h.gone k (hstas ▸ hk)
  unmarked k hk c := by
    rw [hset]
    exact h.unmarked k (hstas ▸ hk) c
  erp k hk := by
    rw [hconf]
    exact h.erp k (hnonerp k ▸ hk)
  mode := hmode

theorem step_rejected (h : w.Good)
    (hrej : accepts w.iface k req checks = false) :
    w.Moved (w.step (.assoc k req checks)) fun _ _ b => b := by
  obtain ⟨hmarks, hmode, hnonerp⟩ := handleAssoc_rejected w.iface k req checks hrej
  have hlatest : (w.step (.assoc k req checks)).latest = w.latest := by
    simp [World.step, World.hears, hrej]
  have hset : ∀ j c, ((w.step (.assoc k req checks)).iface.sta j).set c =
      (w.iface.sta j).set c := by
    intro j c
    by_cases hj : j = k
    · rw [hj]
      exact hmarks.set c
    · exact congrArg (StaInfo.set · c) (hmarks.other j hj)
  have hnum : ∀ c, (w.step (.assoc k req checks)).iface.num c = w.iface.num c := by
    intro c
    have hdiff : (w.step (.assoc k req checks)).iface.num c - share ((w.iface.sta k).set c) =
        w.iface.num c - share ((w.iface.sta k).set c) := by
      have hnum := hmarks.num c
      rwa [hmarks.set] at hnum
    omega
  refine ⟨h.of_same hmarks.conf hmarks.stas hlatest hset (fun j => ?_) hnum ?_, hmarks.conf, hset⟩
  · by_cases hj : j = k
    · rw [hj]
      exact hnonerp
    · exact congrArg StaInfo.nonerp (hmarks.other j hj)
  · exact h.mode.congr hmarks.conf hmode hnum hmarks.olbcHt

theorem step_auth_known (h : w.Good) (hk : k ∈ w.iface.stas) (auth ft : Bool) :
    w.Moved (w.step (.auth k auth ft)) fun _ _ b => b := by
  have hstep : (w.step (.auth k auth ft)).iface =
      modifySta w.iface k fun sta => { sta with auth := auth, authAlgFt := ft } := by
    simp only [World.step, Protection.step, staAdd, if_pos hk]
  have hset : ∀ j c, ((w.step (.auth k auth ft)).iface.sta j).set c = (w.iface.sta j).set c := by
    intro j c
    rw [hstep]
    by_cases hj : j = k
    · simp [modifySta, hj]
    · simp [modifySta, hj]
  have hconf : (w.step (.auth k auth ft)).iface.conf = w.iface.conf := by
    rw [hstep]
    rfl
  refine ⟨h.of_same hconf ?_ rfl hset (fun j => ?_) (fun c => ?_) ?_, hconf, hset⟩
  · rw [hstep]
    rfl
  · rw [hstep]
    by_cases hj : j = k
    · simp [modifySta, hj]
    · simp [modifySta, hj]
  · rw [hstep]
    rfl
  · rw [hstep]
    exact h.mode

theorem step_auth_new (h : w.Good) (hk : k ∉ w.iface.stas) (auth ft : Bool) :
    w.Moved (w.step (.auth k auth ft)) fun j _ b => b && j ≠ k := by
  have hstep : (w.step (.auth k auth ft)).iface = { w.iface with
      stas := k :: w.iface.stas
      sta := Function.update w.iface.sta k
        { StaInfo.zero with auth := auth, authAlgFt := ft } } := by
    simp [World.step, Protection.step, staAdd, if_neg hk, modifySta]
  have hset : ∀ j c, ((w.step (.auth k auth ft)).iface.sta j).set c =
      ((w.iface.sta j).set c && j ≠ k) := by
    intro j c
    rw [hstep]
    by_cases hj : j = k
    · simp [hj, StaInfo.zero]
    · simp [hj]
  have hconf : (w.step (.auth k auth ft)).iface.conf = w.iface.conf := by rw [hstep]
  have hold : ∀ j, j ∈ w.iface.stas → j ≠ k := fun j hj heq => hk (heq ▸ hj)
  refine ⟨⟨?_, fun c => ?_, fun j c hhas => ?_, fun j hj => ?_, fun j hj c => ?_,
    fun j hnonerp => ?_, ?_⟩, hconf, hset⟩
  · rw [hstep]
    exact List.nodup_cons.mpr ⟨hk, h.nodup⟩
  · have hnew : tally (w.step (.auth k auth ft)).iface.stas
        (fun j => ((w.step (.auth k auth ft)).iface.sta j).set c) =
        tally w.iface.stas fun j => (w.iface.sta j).set c := by
      simp only [hset]
      rw [hstep, tally_cons]
      have hrest : tally w.iface.stas (fun j => (w.iface.sta j).set c && j ≠ k) =
          tally w.iface.stas fun j => (w.iface.sta j).set c :=
        tally_congr fun j hj => by simp [hold j hj]
      rw [hrest]
      simp
    rw [hnew, hstep]
    exact h.num c
  · rw [hset]
    have hwas : w.has j c = true := by
      rwa [World.has_of_latest hconf rfl] at hhas
    have hne : j ≠ k := by
      rintro rfl
      rw [World.has, h.gone j hk] at hwas
      cases hwas
    simp [h.marked j c hwas, hne]
  · rw [hstep] at hj
    exact h.gone j fun hmem => hj (List.mem_cons_of_mem k hmem)
  · rw [hstep] at hj
    simp [hset, h.unmarked j (fun hmem => hj (List.mem_cons_of_mem k hmem)) c]
  · rw [hstep] at hnonerp ⊢
    by_cases hj : j = k
    · simp [hj, StaInfo.zero] at hnonerp
    · simp only [Function.update_of_ne hj] at hnonerp
      exact h.erp j hnonerp
  · rw [hstep]
    exact h.mode

theorem step_free (h : w.Good) (hk : k ∈ w.iface.stas) :
    w.Moved (w.step (.free k)) fun j _ b => b && j ≠ k := by
  obtain ⟨s, hs, hnonerp, hmarks⟩ := freeSta_marks w.iface k
  have hupd := htOperationUpdate_marks s k
  have hstep : (w.step (.free k)).iface = freeSta w.iface k := if_pos hk
  have hconf : (w.step (.free k)).iface.conf = w.iface.conf := by
    rw [hstep, hs, hupd.conf, hmarks.conf]
  have hstas : (w.step (.free k)).iface.stas = w.iface.stas.erase k := by
    rw [hstep, hs, hupd.stas, hmarks.stas]
  have hset : ∀ j c, ((w.step (.free k)).iface.sta j).set c =
      ((w.iface.sta j).set c && j ≠ k) := by
    intro j c
    rw [hstep, hs, htOperationUpdate_sta]
    by_cases hj : j = k
    · simp [hj, hmarks.set]
    · simp [hj, hmarks.other j hj]
  have hmem : ∀ j, j ≠ k → j ∉ (w.step (.free k)).iface.stas → j ∉ w.iface.stas := by
    intro j hjk hj hmem
    rw [hstas] at hj
    exact hj (h.nodup.mem_erase_iff.mpr ⟨hjk, hmem⟩)
  refine ⟨⟨?_, fun c => ?_, fun j c hhas => ?_, fun j hj => ?_, fun j hj c => ?_,
    fun j herp => ?_, ?_⟩, hconf, hset⟩
  · rw [hstas]
    exact h.nodup.erase k
  · rw [hstep]
    exact freeSta_counted h.nodup hk h.num c
  · have hne : j ≠ k := by
      rintro rfl
      simp [World.has, World.step, World.hears] at hhas
    have hlatest : (w.step (.free k)).latest j = w.latest j := Function.update_of_ne hne _ _
    rw [World.has_of_latest hconf hlatest] at hhas
    rw [hset]
    simp [h.marked j c hhas, hne]
  · by_cases hjk : j = k
    · rw [hjk]
      exact Function.update_self _ _ _
    · have hlatest : (w.step (.free k)).latest j = w.latest j := Function.update_of_ne hjk _ _
      rw [hlatest]
      exact h.gone j (hmem j hjk hj)
  · by_cases hjk : j = k
    · simp [hset, hjk]
    · simp [hset, h.unmarked j (hmem j hjk hj) c]
  · rw [hconf]
    rw [hstep, hs, htOperationUpdate_sta] at herp
    by_cases hj : j = k
    · rw [hj, hnonerp] at herp
      exact h.erp k herp
    · rw [hmarks.other j hj] at herp
      exact h.erp j herp
  · rw [hstep, hs]
    exact htOperationUpdate_mode s

theorem step_free_unknown (h : w.Good) (hk : k ∉ w.iface.stas) :
    w.step (.free k) = w := by
  have hlatest : Function.update w.latest k none = w.latest := by
    rw [← h.gone k hk, Function.update_eq_self]
  simp only [World.step, World.hears, Protection.step, if_neg hk, hlatest]

theorem step_olbcHt (h : w.Good) (detected : Bool) :
    w.Moved (w.step (.olbcHt detected)) fun _ _ b => b := by
  have hupd (k : Key) := htOperationUpdate_marks { w.iface with olbcHt := detected } k
  have hset : ∀ j c, ((w.step (.olbcHt detected)).iface.sta j).set c = (w.iface.sta j).set c :=
    fun j c => (hupd j).set c
  refine ⟨h.of_same (hupd ⟨0, 0⟩).conf (hupd ⟨0, 0⟩).stas rfl hset (fun j => ?_) (fun c => ?_) ?_,
    (hupd ⟨0, 0⟩).conf, hset⟩
  · simp [World.step, Protection.step]
  · exact htOperationUpdate_num _ c
  · exact htOperationUpdate_mode _

theorem step_countermeasures (h : w.Good) (bss : ℕ) (active : Bool) :
    w.Moved (w.step (.countermeasures bss active)) fun _ _ b => b :=
  ⟨h.of_same rfl rfl rfl (fun _ _ => rfl) (fun _ => rfl) (fun _ => rfl) h.mode, rfl,
    fun _ _ => rfl⟩

/-! ## Runs -/

theorem World.Good.step (h : w.Good) (op : Op) : (w.step op).Good := by
  cases op with
  | auth k auth ft =>
    by_cases hk : k ∈ w.iface.stas
    · exact (step_auth_known h hk auth ft).good
    · exact (step_auth_new h hk auth ft).good
  | assoc k req checks =>
    cases hacc : accepts w.iface k req checks with
    | true => exact (step_accepted h hacc).good
    | false => exact (step_rejected h hacc).good
  | free k =>
    by_cases hk : k ∈ w.iface.stas
    · exact (step_free h hk).good
    · exact (step_free_unknown h hk).symm ▸ h
  | olbcHt detected => exact (step_olbcHt h detected).good
  | countermeasures bss active => exact (step_countermeasures h bss active).good

theorem World.Moved.exact {w' : World} {f : Key → Counter → Bool → Bool} (hm : w.Moved w' f)
    (he : w.Exact) (hf : ∀ k c b, f k c b = true → b = true ∧ w'.latest k = w.latest k) :
    w'.Exact := by
  intro k c hset
  rw [hm.set] at hset
  obtain ⟨hold, hlatest⟩ := hf k c _ hset
  rw [World.has_of_latest hm.conf hlatest]
  exact he k c hold

theorem exact_accepted (h : w.Good) (he : w.Exact)
    (hacc : accepts w.iface k req checks = true) :
    (w.step (.assoc k req checks)).Exact ↔
      ∀ c, w.has k c = true → req.has w.iface.conf (w.iface.conf.bss k.bss) c = true := by
  have hm := step_accepted h hacc
  have hlatest : (w.step (.assoc k req checks)).latest = Function.update w.latest k (some req) :=
    if_pos hacc
  have hself : ∀ c, (w.step (.assoc k req checks)).has k c =
      req.has w.iface.conf (w.iface.conf.bss k.bss) c := by
    intro c
    rw [World.has, hlatest, Function.update_self, Option.any_some, hm.conf]
  constructor
  · intro hexact c hhas
    rw [← hself]
    refine hexact k c ?_
    rw [hm.set, h.marked k c hhas, Bool.true_or]
  · intro hkeeps j c hset
    rw [hm.set] at hset
    by_cases hj : j = k
    · subst hj
      rw [hself]
      rw [Bool.or_eq_true] at hset
      rcases hset with hset | hset
      · exact hkeeps c (he j c hset)
      · simpa using hset
    · have hold : (w.iface.sta j).set c = true := by simpa [hj] using hset
      rw [World.has_of_latest hm.conf (by rw [hlatest, Function.update_of_ne hj])]
      exact he j c hold

theorem exact_step (h : w.Good) (he : w.Exact) (op : Op) :
    (w.step op).Exact ↔ w.KeepsProperties op := by
  cases op with
  | assoc k req checks =>
    cases hacc : accepts w.iface k req checks with
    | true =>
      rw [exact_accepted h he hacc]
      exact ⟨fun hkeeps _ => hkeeps, fun hkeeps => hkeeps hacc⟩
    | false =>
      have hlatest : (w.step (.assoc k req checks)).latest = w.latest := by
        simp [World.step, World.hears, hacc]
      have hexact := (step_rejected h hacc).exact he fun j c b hb => ⟨hb, congrFun hlatest j⟩
      refine iff_of_true hexact fun hacc' => ?_
      rw [hacc] at hacc'
      cases hacc'
  | auth k auth ft =>
    refine iff_of_true ?_ trivial
    by_cases hk : k ∈ w.iface.stas
    · exact (step_auth_known h hk auth ft).exact he fun _ _ _ hb => ⟨hb, rfl⟩
    · exact (step_auth_new h hk auth ft).exact he fun _ _ _ hb =>
        ⟨((Bool.and_eq_true _ _).mp hb).1, rfl⟩
  | free k =>
    refine iff_of_true ?_ trivial
    by_cases hk : k ∈ w.iface.stas
    · refine (step_free h hk).exact he fun j c b hb => ?_
      rw [Bool.and_eq_true, decide_eq_true_eq] at hb
      exact ⟨hb.1, Function.update_of_ne hb.2 _ _⟩
    · exact (step_free_unknown h hk).symm ▸ he
  | olbcHt detected =>
    exact iff_of_true ((step_olbcHt h detected).exact he fun _ _ _ hb => ⟨hb, rfl⟩) trivial
  | countermeasures bss active =>
    exact iff_of_true ((step_countermeasures h bss active).exact he fun _ _ _ hb => ⟨hb, rfl⟩) trivial

theorem tally_ne_zero_iff {l : List Key} {p : Key → Bool} :
    tally l p ≠ 0 ↔ ∃ k ∈ l, p k = true := by
  rw [Ne, tally_eq_zero_iff]
  simp

theorem tracks_iff_exact (h : w.Good) : w.Tracks ↔ w.Exact := by
  constructor
  · intro ht k c hset
    by_cases hk : k ∈ w.iface.stas
    · have heq := (h.num c).symm.trans (ht.num c)
      exact eq_of_tally_eq (fun j _ => h.marked j c) heq k hk hset
    · rw [h.unmarked k hk c] at hset
      cases hset
  · intro he
    have hnum : ∀ c, w.iface.num c = tally w.iface.stas fun k => w.has k c := by
      intro c
      rw [h.num]
      refine tally_congr fun k _ => ?_
      rw [Bool.eq_iff_iff]
      exact ⟨he k c, h.marked k c⟩
    refine ⟨hnum, fun c => ?_, fun hconf => ?_⟩
    · rw [hnum]
      exact tally_nonneg _ _
    · rw [h.mode hconf]
      simp only [newOpMode, World.prescribedMode, hnum, tally_ne_zero_iff]

/-- In every run the counters are the numbers of stations whose latest accepted request has the
property, and the operation mode is the one prescribed for them, exactly when no accepted request
lacks a property that the request accepted before it from the same station had. -/
theorem protection_counters (conf : Conf) (ops : List Op) : (World.init conf).Tracks ∧
    (Along World.step (fun w op => (w.step op).Tracks) (World.init conf) ops ↔
      Along World.step World.KeepsProperties (World.init conf) ops) := by
  have hstart : (World.init conf).Exact := fun _ _ hset => nomatch hset
  have hgood := World.good_init conf
  refine ⟨(tracks_iff_exact hgood).mpr hstart, ?_⟩
  refine along_congr (I := fun w => w.Good ∧ w.Exact) ?_ ?_ ⟨hgood, hstart⟩ ops
  · exact fun w op h hkeeps => ⟨h.1.step op, (exact_step h.1 h.2 op).mpr hkeeps⟩
  · exact fun w op h => (tracks_iff_exact (h.1.step op)).trans (exact_step h.1 h.2 op)

end Steps

/-! ## A station that associates again -/

def sampleSta : Key := ⟨0, 1⟩

def sampleConf : Conf where
  modeG := true
  ieee80211n := false
  requireHt := false
  htOpModeFixed := false
  htCapab := 0
  bss := fun _ => ⟨65535, false⟩

/-- A request with the capability information `capabInfo`. -/
def sampleReq (capabInfo : BitVec 16) : AssocReq where
  capabInfo := capabInfo
  listenInterval := 10
  suppRates := some [0x82, 0x84, 0x8b, 0x96, 0x0c, 0x18, 0x30, 0x48]
  extSuppRates := none
  htCapabilities := none

def sampleChecks : Checks := ⟨true, 0, true, 0, true⟩

/-- It associates without the short slot time, and then with it. -/
def sampleOps : List Op :=
  [.auth sampleSta true false, .assoc sampleSta (sampleReq 0x0021) sampleChecks,
    .assoc sampleSta (sampleReq 0x0421) sampleChecks]

theorem reassociation_stays_counted :
    (run World.step (World.init sampleConf) sampleOps).iface.num .numStaNoShortSlotTime = 1 ∧
    (tally (run World.step (World.init sampleConf) sampleOps).iface.stas fun k =>
      (run World.step (World.init sampleConf) sampleOps).has k .numStaNoShortSlotTime) = 0 ∧
    ¬ ∀ conf ops, (run World.step (World.init conf) ops).Tracks := by
  have hnum : (run World.step (World.init sampleConf) sampleOps).iface.num
      .numStaNoShortSlotTime = 1 := by decide +kernel
  have htally : (tally (run World.step (World.init sampleConf) sampleOps).iface.stas fun k =>
      (run World.step (World.init sampleConf) sampleOps).has k .numStaNoShortSlotTime) = 0 := by
    decide +kernel
  refine ⟨hnum, htally, fun h => ?_⟩
  have := (h sampleConf sampleOps).num .numStaNoShortSlotTime
  rw [hnum, htally] at this
  cases this

end Hostapd.Ap.Protection
