import Hostapd.Ap.WpaAuth.Replay

/-!
# The WPA authenticator: what a trace shows

The properties of the trace of a station the 4-way handshake is about, and how they go on as the
trace grows.

* **`Selected`**: since the nonce was taken, a 2/4 frame was accepted, and its MIC verifies under
  the PTK of a PMK, that nonce and the nonce of the frame.
* **`Authenticated`**: and after it a 4/4 frame was accepted, whose MIC verifies under the same PTK
  and whose replay counter was issued in between.
* **`Secured`**: before each event that opens the port to the station (`Ev.grants`), the station
  was `Authenticated`, and the key that was set is the temporal key of that PTK.
-/

namespace Hostapd.Ap.WpaAuth

open Hostapd.Lib

variable (S : Setup)

/-! ## Definitions -/

def aNonceOf : List Ev → Nonce
  | [] => 0#256
  | .aNonce n :: _ => n
  | _ :: t => aNonceOf t

/-- The station has been reported to authenticate or to associate, and since then no frame has
been let through and the replay window has not been cleared. -/
def announced : List Ev → Bool
  | [] => false
  | .reported .auth :: _ => true
  | .reported .assoc :: _ => true
  | .accept _ :: _ => false
  | .reset :: _ => false
  | _ :: t => announced t

def NoAuth2 (tr : List Ev) : Prop := ∀ e ∈ tr, e ≠ .enter .authentication2

/-- The PTK of a PMK, a nonce of the authenticator and a nonce of the station. -/
def DerivedFrom (addr : MacAddr) (ptk : Ptk) (pmk : Pmk) (aNonce sNonce : Nonce) : Prop :=
  ∃ long, ptk = wpaPmkToPtk S.crypto pmk S.conf.addr addr aNonce sNonce long

/-- Message 2/4 was accepted, and has led to the PTK; `c` was issued since. -/
def SelectedIssue (addr : MacAddr) (ptk : Ptk) (tr : List Ev) (c : Option ReplayCounter) : Prop :=
  ∃ l2 pmk l1 f2 l0, tr = l2 ++ .selected pmk ptk :: (l1 ++ .accept f2 :: l0) ∧
    NoAuth2 l2 ∧ NoAuth2 l1 ∧ (∀ x ∈ c, Ev.issue x ∈ l2 ++ l1) ∧
    msgOf f2 = .pairwise2 ∧ DerivedFrom S addr ptk pmk (aNonceOf l0) f2.keyNonce ∧
    f2.micOk S.crypto ptk.kck = true

/-- Message 2/4 was accepted, and has led to the PTK. -/
def Selected (addr : MacAddr) (ptk : Ptk) (tr : List Ev) : Prop := SelectedIssue S addr ptk tr none

/-- A frame is a pairwise frame of a reply, without key data. -/
structure IsMsg4 (f : EapolKey) : Prop where
  pairwise : f.keyInfo.isKeyType = true
  reply : f.keyInfo.isRequest = false
  empty : f.keyDataLength = 0#16

/-- The station has shown in the current handshake that it has the PTK. -/
def Authenticated (addr : MacAddr) (ptk : Ptk) (tr : List Ev) : Prop :=
  ∃ l f4 t, tr = l ++ .accept f4 :: t ∧ NoAuth2 l ∧ IsMsg4 f4 ∧
    f4.micOk S.crypto ptk.kck = true ∧ SelectedIssue S addr ptk t (some f4.replayCounter)

/-- The events that open the port to a station: `PTKINITDONE` is entered, the pairwise key is
configured, the port is authorized or declared valid. -/
def Ev.grants : Ev → Bool
  | .enter .ptkInitDone => true
  | .setKey (some _) => true
  | .setEapol .authorized x => x == 1
  | .setEapol .portValid x => x == 1
  | _ => false

/-- The port was opened only to a station that had authenticated, with the key of its PTK. -/
def Secured (addr : MacAddr) : List Ev → Prop
  | [] => True
  | e :: tr => (e.grants = true → ∃ ptk, Authenticated S addr ptk tr ∧
      ∀ k, e = .setKey (some k) → ∃ c, k = ptk.tk c) ∧ Secured addr tr

/-! ## Growing traces -/

def Ev.isPlain : Ev → Bool
  | .reported _ | .reset | .accept _ | .aNonce _ | .enter .authentication2 => false
  | e => !e.grants

variable {es tr : List Ev}

theorem Ev.not_grants_of_isPlain {e : Ev} (h : e.isPlain = true) : e.grants = false := by
  unfold Ev.isPlain at h
  split at h <;> first | exact Bool.noConfusion h | exact Bool.not_eq_true' _ ▸ h

theorem Ev.not_auth2_of_isPlain {e : Ev} (h : e.isPlain = true) : e ≠ .enter .authentication2 := by
  rintro rfl
  exact Bool.noConfusion h

theorem noAuth2_of_plain (h : ∀ e ∈ es, e.isPlain = true) : NoAuth2 es :=
  fun e he => Ev.not_auth2_of_isPlain (h e he)

theorem NoAuth2.append {l l' : List Ev} (h : NoAuth2 l) (h' : NoAuth2 l') : NoAuth2 (l ++ l') := by
  intro e he
  rcases List.mem_append.mp he with he | he
  · exact h e he
  · exact h' e he

theorem aNonceOf_append (h : ∀ e ∈ es, e.isPlain = true) : aNonceOf (es ++ tr) = aNonceOf tr := by
  induction es with
  | nil => rfl
  | cons e es ih =>
    have he := h e List.mem_cons_self
    have ih := ih fun x hx => h x (List.mem_cons_of_mem _ hx)
    rw [List.cons_append, aNonceOf, ih]
    rintro n rfl
    exact Bool.noConfusion he

theorem announced_append (h : ∀ e ∈ es, e.isPlain = true) :
    announced (es ++ tr) = announced tr := by
  induction es with
  | nil => rfl
  | cons e es ih =>
    have he := h e List.mem_cons_self
    have ih := ih fun x hx => h x (List.mem_cons_of_mem _ hx)
    rw [List.cons_append, announced, ih]
    all_goals
      intros
      simp_all [Ev.isPlain]

variable {S} {addr : MacAddr} {ptk : Ptk}

theorem SelectedIssue.append {c : Option ReplayCounter} (h : SelectedIssue S addr ptk tr c)
    (hes : NoAuth2 es) : SelectedIssue S addr ptk (es ++ tr) c := by
  obtain ⟨l2, pmk, l1, f2, l0, rfl, h2, h1, hc, hmsg, hptk, hmic⟩ := h
  refine ⟨es ++ l2, pmk, l1, f2, l0, by simp, hes.append h2, h1, ?_, hmsg, hptk, hmic⟩
  intro x hx
  rw [List.append_assoc]
  exact List.mem_append_right _ (hc x hx)

theorem Selected.append (h : Selected S addr ptk tr) (hes : NoAuth2 es) :
    Selected S addr ptk (es ++ tr) :=
  SelectedIssue.append h hes

theorem Authenticated.append (h : Authenticated S addr ptk tr) (hes : NoAuth2 es) :
    Authenticated S addr ptk (es ++ tr) := by
  obtain ⟨l, f4, t, rfl, hl, hf, hmic, hsel⟩ := h
  exact ⟨es ++ l, f4, t, by simp, hes.append hl, hf, hmic, hsel⟩

theorem Secured.append (h : Secured S addr tr) (hes : ∀ e ∈ es, e.grants = false) :
    Secured S addr (es ++ tr) := by
  induction es with
  | nil => exact h
  | cons e es ih =>
    refine ⟨fun hg => ?_, ih fun x hx => hes x (List.mem_cons_of_mem _ hx)⟩
    rw [hes e List.mem_cons_self] at hg
    exact Bool.noConfusion hg

theorem Secured.plain (h : Secured S addr tr) (hes : ∀ e ∈ es, e.isPlain = true) :
    Secured S addr (es ++ tr) :=
  h.append fun e he => Ev.not_grants_of_isPlain (hes e he)

theorem Secured.grant (h : Secured S addr tr) (ha : Authenticated S addr ptk tr)
    (hes : ∀ e ∈ es, e ≠ .enter .authentication2 ∧ ∀ k, e = .setKey (some k) → ∃ c, k = ptk.tk c) :
    Secured S addr (es ++ tr) := by
  induction es with
  | nil => exact h
  | cons e es ih =>
    have hes' := fun x hx => hes x (List.mem_cons_of_mem _ hx)
    exact ⟨fun _ => ⟨ptk, ha.append fun x hx => (hes' x hx).1, (hes e List.mem_cons_self).2⟩,
      ih hes'⟩

theorem Secured.authenticated (h : Secured S addr tr) {newer older : List Ev} {e : Ev}
    (htr : tr = newer ++ e :: older) (hg : e.grants = true) :
    ∃ ptk, Authenticated S addr ptk older ∧ ∀ k, e = .setKey (some k) → ∃ c, k = ptk.tk c := by
  subst htr
  induction newer with
  | nil => exact h.1 hg
  | cons x newer ih => exact ih h.2

/-! ## Accepted frames -/

variable {f : EapolKey}

theorem issue_of_outstanding {c : ReplayCounter} {l l0 : List Ev}
    (hf : f.keyInfo.isRequest = false) (h : c ∈ outstanding (exchanges (l ++ .accept f :: l0))) :
    Ev.issue c ∈ l := by
  induction l with
  | nil =>
    have hex : exchanges ([] ++ .accept f :: l0) = .accept f.replayCounter :: exchanges l0 := by
      rw [List.nil_append, exchanges, List.filterMap_cons_some]
      · rfl
      · rw [Ev.exchange, hf]
        rfl
    rw [hex] at h
    exact absurd h List.not_mem_nil
  | cons e l ih =>
    rw [List.cons_append, exchanges] at h
    cases he : e.exchange with
    | none =>
      rw [List.filterMap_cons_none he] at h
      exact List.mem_cons_of_mem _ (ih h)
    | some x =>
      rw [List.filterMap_cons_some he] at h
      cases x with
      | issue d =>
        have hd : e = .issue d := by
          unfold Ev.exchange at he
          split at he
          · exact congrArg Ev.issue (Exchange.issue.inj (Option.some.inj he))
          · split at he <;> simp at he
          · simp at he
          · cases he
        rcases List.mem_cons.mp h with rfl | h
        · exact hd ▸ List.mem_cons_self
        · exact List.mem_cons_of_mem _ (ih h)
      | accept d => exact absurd h List.not_mem_nil
      | reset => exact absurd h List.not_mem_nil

theorem msgOf_reply (h : f.keyInfo.isRequest = false) :
    msgOf f = if f.keyInfo.isSmkMessage then .smkM3
      else if !f.keyInfo.isKeyType then .group2
      else if f.keyDataLength = 0#16 then .pairwise4
      else .pairwise2 := by
  rw [msgOf, h, Bool.and_false]
  rfl

theorem reply_of_pairwise2 (h : msgOf f = .pairwise2) :
    f.keyInfo.isRequest = false := by
  unfold msgOf at h
  by_contra hr
  rw [Bool.not_eq_false] at hr
  simp only [hr, Bool.and_true] at h
  split at h
  · split at h <;> exact nomatch h
  · exact nomatch h

theorem isMsg4_of_pairwise4 (h : msgOf f = .pairwise4) : IsMsg4 f := by
  unfold msgOf at h
  split at h
  · split at h <;> exact nomatch h
  · split at h
    · exact nomatch h
    · split at h
      · exact nomatch h
      · next hreq =>
        split at h
        · exact nomatch h
        · next hkey =>
          split at h
          · next hlen =>
            rw [Bool.not_eq_true', Bool.not_eq_false] at hkey
            exact ⟨hkey, Bool.eq_false_iff.mpr hreq, hlen⟩
          · exact nomatch h

theorem Selected.authenticated (h : Selected S addr ptk tr)
    (hmsg : msgOf f = .pairwise4) (hmic : f.micOk S.crypto ptk.kck = true)
    (hout : f.replayCounter ∈ outstanding (exchanges tr)) :
    Authenticated S addr ptk (.accept f :: tr) := by
  obtain ⟨l2, pmk, l1, f2, l0, htr, h2, h1, -, hmsg2, hptk, hmic2⟩ := h
  have hissue : Ev.issue f.replayCounter ∈ l2 ++ .selected pmk ptk :: l1 := by
    have hout' : f.replayCounter ∈
        outstanding (exchanges ((l2 ++ .selected pmk ptk :: l1) ++ .accept f2 :: l0)) := by
      rw [List.append_assoc, List.cons_append, ← htr]
      exact hout
    exact issue_of_outstanding (reply_of_pairwise2 hmsg2) hout'
  refine ⟨[], f, tr, rfl, fun e he => absurd he List.not_mem_nil, isMsg4_of_pairwise4 hmsg, hmic,
    l2, pmk, l1, f2, l0, htr, h2, h1, ?_, hmsg2, hptk, hmic2⟩
  intro x hx
  obtain rfl := Option.some.inj hx
  simpa using hissue

end Hostapd.Ap.WpaAuth
