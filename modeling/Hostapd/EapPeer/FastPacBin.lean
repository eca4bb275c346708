import Hostapd.EapPeer.FastPacSafe

/-!
# EAP-FAST at the peer: PACs in the binary format, and what storage keeps

* **`attributes`** are the attributes of a PAC-Info. `eapFastPacGetAId_aId`: the reader of a file
  takes the last A-ID. So does provisioning, which clears the flag for mandatory attributes first.
* **`BinSafe`** says that this makes no difference. **`binRoundTrip_iff`**: entries are read back
  exactly when each of them is `BinSafe`.
* **`pacs_kept_iff`**: entries as servers provision them are read back of both formats exactly when
  each is `TextSafe` and `BinSafe`; `iId_ends_entry` is one that is not.
-/

namespace Hostapd.EapPeer

open Hostapd.Lib

/-! ## PAC-Info -/

/-- The attributes of a PAC-Info, for as many as there can be. -/
def attributes : ℕ → Bytes → List (ℕ × Bytes)
  | 0, _ => []
  | n + 1, pos =>
    if pos.length ≤ 4 then []
    else
      let len := be16 (pos.drop 2)
      if (pos.drop 4).length < len then []
      else (be16 pos, (pos.drop 4).take len) :: attributes n ((pos.drop 4).drop len)

/-- The attributes without the flag for mandatory ones. -/
def unflagged (l : List (ℕ × Bytes)) : List (ℕ × Bytes) := l.map fun a => (a.1 % 2 ^ 15, a.2)

/-- The fields that come from PAC-Info are apart from the others. -/
def SameStored (pac pac' : EapFastPac) : Prop :=
  pac'.pacKey = pac.pacKey ∧ pac'.pacOpaque = pac.pacOpaque ∧ pac'.pacInfo = pac.pacInfo

theorem SameStored.trans {pac₁ pac₂ pac₃ : EapFastPac} (h : SameStored pac₁ pac₂)
    (h' : SameStored pac₂ pac₃) : SameStored pac₁ pac₃ :=
  ⟨h'.1.trans h.1, h'.2.1.trans h.2.1, h'.2.2.trans h.2.2⟩

theorem eapFastPacGetAId_stored (n : ℕ) (pos : Bytes) (pac : EapFastPac) :
    SameStored pac (eapFastPacGetAId n pos pac) ∧
      (eapFastPacGetAId n pos pac).pacType = pac.pacType := by
  induction n generalizing pos pac with
  | zero => exact ⟨⟨rfl, rfl, rfl⟩, rfl⟩
  | succ n ih =>
    rw [eapFastPacGetAId]
    split_ifs
    · exact ⟨⟨rfl, rfl, rfl⟩, rfl⟩
    · dsimp only
      split_ifs
      · exact ⟨⟨rfl, rfl, rfl⟩, rfl⟩
      · exact ih _ _
      · exact ih _ _
      · exact ih _ _
      · exact ih _ _

/-- **The reader of a file takes the last A-ID.** -/
theorem eapFastPacGetAId_aId (n : ℕ) (pos : Bytes) (pac : EapFastPac) :
    (eapFastPacGetAId n pos pac).aId =
      (lastAssigned pacTypeAId (attributes n pos)).or pac.aId := by
  induction n generalizing pos pac with
  | zero => rfl
  | succ n ih =>
    rw [eapFastPacGetAId, attributes]
    by_cases hshort : pos.length ≤ 4
    · rw [if_pos hshort, if_pos hshort]
      rfl
    · rw [if_neg hshort, if_neg hshort]
      dsimp only
      by_cases hlong : (pos.drop 4).length < be16 (pos.drop 2)
      · rw [if_pos hlong, if_pos hlong]
        rfl
      · have hcons : ∀ a l, (a :: l : List (ℕ × Bytes)) = [a] ++ l := fun a l => rfl
        rw [if_neg hlong, if_neg hlong, ih, hcons, lastAssigned_append, lastAssigned_singleton]
        cases lastAssigned pacTypeAId (attributes n ((pos.drop 4).drop (be16 (pos.drop 2)))) with
        | some v => rfl
        | none =>
          by_cases htype : be16 pos = pacTypeAId
          · simp [htype]
          · simp [htype]

theorem eapFastParsePacInfo_spec {entry entry' : EapFastPac} {type : ℕ} {value : Bytes}
    (h : eapFastParsePacInfo entry type value = some entry') :
    SameStored entry entry' ∧
      (knownPacType entry.pacType = true → knownPacType entry'.pacType = true) ∧
      entry'.aId = if type % 2 ^ 15 = pacTypeAId then some value else entry.aId := by
  unfold eapFastParsePacInfo at h
  dsimp only at h
  by_cases haId : type % 2 ^ 15 = pacTypeAId
  · rw [if_pos haId] at h ⊢
    cases h
    exact ⟨⟨rfl, rfl, rfl⟩, id, rfl⟩
  · rw [if_neg haId] at h ⊢
    split_ifs at h with h₁ h₂ h₃ h₄
    · cases h
      exact ⟨⟨rfl, rfl, rfl⟩, id, rfl⟩
    · cases h
      exact ⟨⟨rfl, rfl, rfl⟩, id, rfl⟩
    · cases h
      exact ⟨⟨rfl, rfl, rfl⟩, fun _ => h₄.2, rfl⟩
    · cases h
      exact ⟨⟨rfl, rfl, rfl⟩, id, rfl⟩

/-- **Provisioning takes the last A-ID**, flagged as mandatory or not. -/
theorem processPacInfo_spec {n : ℕ} {pos : Bytes} {entry entry' : EapFastPac}
    (h : processPacInfo n pos entry = some entry') :
    SameStored entry entry' ∧
      (knownPacType entry.pacType = true → knownPacType entry'.pacType = true) ∧
      entry'.aId = (lastAssigned pacTypeAId (unflagged (attributes n pos))).or entry.aId := by
  induction n generalizing pos entry with
  | zero =>
    cases h
    exact ⟨⟨rfl, rfl, rfl⟩, id, rfl⟩
  | succ n ih =>
    rw [processPacInfo] at h
    rw [attributes]
    by_cases hshort : pos.length ≤ 4
    · rw [if_pos hshort] at h ⊢
      cases h
      exact ⟨⟨rfl, rfl, rfl⟩, id, rfl⟩
    · rw [if_neg hshort] at h ⊢
      dsimp only at h ⊢
      split_ifs at h with hlong
      split at h
      · cases h
      · next entry₁ hattr =>
        obtain ⟨hstored₁, htype₁, haId₁⟩ := eapFastParsePacInfo_spec hattr
        obtain ⟨hstored, htype, haId⟩ := ih h
        refine ⟨hstored₁.trans hstored, htype ∘ htype₁, ?_⟩
        have hcons : ∀ a l, unflagged (a :: l) = [(a.1 % 2 ^ 15, a.2)] ++ unflagged l :=
          fun a l => rfl
        rw [if_neg hlong, hcons, haId, haId₁, lastAssigned_append, lastAssigned_singleton]
        cases lastAssigned pacTypeAId
          (unflagged (attributes n ((pos.drop 4).drop (be16 (pos.drop 2))))) with
        | some v => rfl
        | none =>
          by_cases hflag : be16 pos % 2 ^ 15 = pacTypeAId
          · rw [if_pos hflag, if_pos hflag]
            rfl
          · rw [if_neg hflag, if_neg hflag]
            rfl

structure Received (pac : EapFastPac) (pacOpaque info : Bytes) : Prop where
  opaqueEq : pac.pacOpaque = some pacOpaque
  infoEq : pac.pacInfo = some info
  opaqueLen : pacOpaque.length ≤ 65535
  infoLen : info.length ≤ 65535
  key : pac.pacKey.length = eapFastPacKeyLen
  type : knownPacType pac.pacType = true
  aIdInfo : pac.aIdInfo.isSome = true
  aId : pac.aId = lastAssigned pacTypeAId (unflagged (attributes info.length info))

theorem Provisioned.received {pac : EapFastPac} (h : Provisioned pac) :
    ∃ pacOpaque info, Received pac pacOpaque info := by
  obtain ⟨key, pacOpaque, info, hkey, hopaque, hinfo, hprocess⟩ := h
  unfold eapFastProcessPacInfo at hprocess
  dsimp only [Option.getD_some] at hprocess
  split at hprocess
  · cases hprocess
  · next entry hentry =>
    split_ifs at hprocess with hnone
    cases hprocess
    obtain ⟨⟨h₁, h₂, h₃⟩, htype, haId⟩ := processPacInfo_spec hentry
    refine ⟨pacOpaque, info, h₂, h₃, hopaque, hinfo, ?_,
      htype (rfl : knownPacType pacTypeTunnelPac = true), ?_, ?_⟩
    · rwa [h₁]
    · rw [not_or, Bool.not_eq_true, Option.isNone_eq_false_iff,
        Bool.not_eq_true, Option.isNone_eq_false_iff] at hnone
      exact hnone.2
    · rw [haId]
      exact Option.or_none

/-! ## The binary format -/

/-- An entry that the binary format keeps: the reader of a file, which does not look at the flag for
mandatory attributes, finds the same A-ID as provisioning. -/
def BinSafe (pac : EapFastPac) : Prop :=
  let attrs := attributes (pac.pacInfo.getD []).length (pac.pacInfo.getD [])
  lastAssigned pacTypeAId attrs = lastAssigned pacTypeAId (unflagged attrs)

/-- The fields that a file in the binary format holds. -/
def SameBin (pac pac' : EapFastPac) : Prop :=
  pac'.pacType = pac.pacType ∧ SameStored pac pac' ∧ pac'.aId = pac.aId

/-- Entries as they are read back of what was written of them. -/
def BinRoundTrip (l : List EapFastPac) : Prop :=
  ∃ data l', eapFastSavePacBin l = some data ∧ eapFastLoadPacBin data = some l' ∧
    List.Forall₂ SameBin l l'

/-- The entry that is read of the octets of an entry. -/
def readBackBin (pac : EapFastPac) : EapFastPac :=
  eapFastPacGetAId (pac.pacInfo.getD []).length (pac.pacInfo.getD [])
    ⟨pac.pacKey, pac.pacOpaque, pac.pacInfo, none, none, none, pac.pacType⟩

section Entry

variable {pac : EapFastPac} {pacOpaque info : Bytes}

theorem Received.type_lt (h : Received pac pacOpaque info) : pac.pacType < 2 ^ 16 := by
  have htype := h.type
  simp only [knownPacType, Bool.or_eq_true, decide_eq_true_eq] at htype
  rcases htype with (h | h) | h <;> rw [h] <;> decide

theorem loadPacBin_pacBin (h : Received pac pacOpaque info) (rest : Bytes) :
    loadPacBin (pacBin pac ++ rest) = some (readBackBin pac, rest) := by
  have hsplit : pacBin pac ++ rest = putBe16 pac.pacType ++ (pac.pacKey ++
      (putBe16 pacOpaque.length ++ (pacOpaque ++ (putBe16 info.length ++ (info ++ rest))))) := by
    rw [pacBin, h.opaqueEq, h.infoEq]
    simp only [Option.getD_some, List.append_assoc]
  have hkey : pac.pacKey.length = 32 := h.key
  have hopaque : pacOpaque.length < 2 ^ 16 := Nat.lt_succ_of_le h.opaqueLen
  have hinfo : info.length < 2 ^ 16 := Nat.lt_succ_of_le h.infoLen
  -- the positions in front of the key, the two lengths and PAC-Opaque
  have h₂ : ∀ l, (putBe16 pac.pacType ++ l).drop 2 = l := fun l => rfl
  have h₃₄ : ∀ l, (putBe16 pac.pacType ++ (pac.pacKey ++ l)).drop 34 = l := by
    intro l
    have hdrop : (putBe16 pac.pacType ++ (pac.pacKey ++ l)).drop 34 =
        ((putBe16 pac.pacType ++ (pac.pacKey ++ l)).drop 2).drop 32 := by rw [List.drop_drop]
    rw [hdrop, h₂, List.drop_left' hkey]
  have h₃₆ : ∀ n l, (putBe16 pac.pacType ++ (pac.pacKey ++ (putBe16 n ++ l))).drop 36 = l := by
    intro n l
    have hdrop : (putBe16 pac.pacType ++ (pac.pacKey ++ (putBe16 n ++ l))).drop 36 =
        ((putBe16 pac.pacType ++ (pac.pacKey ++ (putBe16 n ++ l))).drop 34).drop 2 := by
      rw [List.drop_drop]
    rw [hdrop, h₃₄]
    rfl
  have hinfoPos : ∀ l, (pacOpaque ++ (putBe16 info.length ++ l)).drop (pacOpaque.length + 2) =
      l := by
    intro l
    rw [← List.drop_drop, List.drop_left]
    rfl
  rw [hsplit, loadPacBin, h₂, h₃₄, h₃₆, be16_putBe16 h.type_lt, be16_putBe16 hopaque]
  dsimp only
  rw [List.take_left' h.key, List.take_left, List.drop_left, be16_putBe16 hinfo, hinfoPos,
    List.take_left, List.drop_left, if_neg, if_neg, if_neg, readBackBin, h.opaqueEq, h.infoEq]
  · rfl
  · simp only [List.length_append]
    omega
  · simp only [List.length_append, length_putBe16]
    omega
  · simp only [List.length_append, length_putBe16, hkey]
    omega

theorem length_pacBin_pos : 0 < (pacBin pac).length := by
  simp only [pacBin, List.length_append, length_putBe16]
  omega

/-- **An entry is read back exactly when it is `BinSafe`.** -/
theorem binSafe_iff (h : Received pac pacOpaque info) : SameBin pac (readBackBin pac) ↔
    BinSafe pac := by
  obtain ⟨hstored, htype⟩ := eapFastPacGetAId_stored (pac.pacInfo.getD []).length
    (pac.pacInfo.getD []) ⟨pac.pacKey, pac.pacOpaque, pac.pacInfo, none, none, none, pac.pacType⟩
  have haId : (readBackBin pac).aId =
      lastAssigned pacTypeAId (attributes (pac.pacInfo.getD []).length (pac.pacInfo.getD [])) := by
    rw [readBackBin, eapFastPacGetAId_aId]
    exact Option.or_none
  have hown : pac.aId = lastAssigned pacTypeAId
      (unflagged (attributes (pac.pacInfo.getD []).length (pac.pacInfo.getD []))) := by
    rw [h.aId, h.infoEq]
    rfl
  refine ⟨fun hsame => ?_, fun hsafe => ⟨htype, hstored, ?_⟩⟩
  · rw [BinSafe, ← haId, ← hown]
    exact hsame.2.2
  · rw [haId, hown]
    exact hsafe

end Entry

theorem loadPacsBin_flatMap {l : List EapFastPac} {n : ℕ}
    (hl : ∀ pac ∈ l, ∃ pacOpaque info, Received pac pacOpaque info)
    (hn : (l.flatMap pacBin).length ≤ n) :
    loadPacsBin n (l.flatMap pacBin) = some (l.map readBackBin) := by
  induction l generalizing n with
  | nil => cases n <;> rfl
  | cons pac l ih =>
    obtain ⟨pacOpaque, info, hpac⟩ := hl pac List.mem_cons_self
    have hpos : 0 < (pacBin pac).length := length_pacBin_pos
    rw [List.flatMap_cons, List.length_append] at hn
    obtain ⟨n, rfl⟩ := Nat.exists_eq_add_of_lt (Nat.lt_of_lt_of_le hpos (Nat.le_of_add_right_le hn))
    have hne : pacBin pac ++ l.flatMap pacBin ≠ [] := by
      rw [← List.length_pos_iff, List.length_append]
      exact Nat.add_pos_left hpos _
    rw [List.flatMap_cons, Nat.zero_add, loadPacsBin, if_neg hne, loadPacBin_pacBin hpac]
    dsimp only
    rw [ih (fun pac' hpac' => hl pac' (List.mem_cons_of_mem _ hpac')) (by omega)]
    rfl

/-- **Entries are read back exactly when each of them is `BinSafe`.** -/
theorem binRoundTrip_iff {l : List EapFastPac}
    (hl : ∀ pac ∈ l, ∃ pacOpaque info, Received pac pacOpaque info) :
    BinRoundTrip l ↔ ∀ pac ∈ l, BinSafe pac := by
  have hsave : eapFastSavePacBin l = some (putBe 4 eapFastPacBinaryMagic ++
      putBe16 eapFastPacBinaryFormatVersion ++ l.flatMap pacBin) := by
    rw [eapFastSavePacBin, if_neg]
    rw [List.any_eq_true]
    rintro ⟨pac, hpac, hlong⟩
    obtain ⟨pacOpaque, info, h⟩ := hl pac hpac
    rw [decide_eq_true_eq, h.opaqueEq, h.infoEq] at hlong
    exact hlong.elim (not_lt.mpr h.opaqueLen) (not_lt.mpr h.infoLen)
  have hload : eapFastLoadPacBin (putBe 4 eapFastPacBinaryMagic ++
      putBe16 eapFastPacBinaryFormatVersion ++ l.flatMap pacBin) = some (l.map readBackBin) := by
    rw [eapFastLoadPacBin, if_neg (by simp [putBe16]), if_neg]
    · refine loadPacsBin_flatMap hl ?_
      rw [List.length_append]
      exact Nat.le_add_left _ _
    · rintro (hshort | hmagic | hversion)
      · rw [List.length_append] at hshort
        exact absurd hshort (not_lt.mpr (Nat.le_add_right 6 _))
      · rw [List.append_assoc, List.take_left' (length_putBe 4 _),
          beNat_putBe (by decide)] at hmagic
        exact hmagic rfl
      · rw [List.append_assoc, List.drop_left' (length_putBe 4 _), be16_putBe16 (by decide)]
          at hversion
        exact hversion rfl
  have hsame : BinRoundTrip l ↔ ∀ pac ∈ l, SameBin pac (readBackBin pac) := by
    constructor
    · rintro ⟨data, l', hdata, hl', h⟩
      cases hsave.symm.trans hdata
      cases hload.symm.trans hl'
      rwa [List.forall₂_map_right_iff, List.forall₂_same] at h
    · intro h
      refine ⟨_, _, hsave, hload, ?_⟩
      rwa [List.forall₂_map_right_iff, List.forall₂_same]
  rw [hsame]
  refine forall₂_congr fun pac hpac => ?_
  obtain ⟨pacOpaque, info, h⟩ := hl pac hpac
  exact binSafe_iff h

/-! ## Storage -/

/-- **PACs are kept exactly when each is `TextSafe` and `BinSafe`**: entries as servers provision
them are read back of a text and of a file in the binary format as they are. -/
theorem pacs_kept_iff {l : List EapFastPac} (hl : ∀ pac ∈ l, Provisioned pac) :
    TextRoundTrip l ∧ BinRoundTrip l ↔ ∀ pac ∈ l, TextSafe pac ∧ BinSafe pac := by
  have hreceived : ∀ pac ∈ l, ∃ pacOpaque info, Received pac pacOpaque info :=
    fun pac hpac => (hl pac hpac).received
  have htext : TextRoundTrip l ↔ ∀ pac ∈ l, TextSafe pac := by
    refine textRoundTrip_iff fun pac hpac => ?_
    obtain ⟨pacOpaque, info, h⟩ := hreceived pac hpac
    exact ⟨h.type, h.key, h.aIdInfo⟩
  rw [htext, binRoundTrip_iff hreceived, ← forall₂_and]

def pacFor (iId : Bytes) : EapFastPac where
  pacKey := List.replicate eapFastPacKeyLen 7
  pacOpaque := some [1, 2, 3]
  pacInfo := some (putBe16 pacTypeAId ++ putBe16 2 ++ ascii "ap" ++
    putBe16 pacTypeIId ++ putBe16 iId.length ++ iId ++
    putBe16 pacTypeAIdInfo ++ putBe16 4 ++ ascii "home")
  aId := some (ascii "ap")
  iId := some iId
  aIdInfo := some (ascii "home")
  pacType := pacTypeTunnelPac

theorem pacs_kept_user :
    TextRoundTrip [pacFor (ascii "user")] ∧ BinRoundTrip [pacFor (ascii "user")] := by
  have hprovisioned : Provisioned (pacFor (ascii "user")) :=
    ⟨List.replicate eapFastPacKeyLen 7, [1, 2, 3], (pacFor (ascii "user")).pacInfo.getD [],
      by decide, by decide, by decide, by decide⟩
  have htext : TextSafe (pacFor (ascii "user")) := by
    have hlines : iIdLines (pacFor (ascii "user")) ++ aIdInfoLines (pacFor (ascii "user")) =
        [] := by decide
    refine ⟨fun f data hget => ?_, ?_, fun f v hstray => ?_⟩
    · cases f <;> cases hget <;> decide
    · rw [hlines]
      exact nofun
    · have hnone : strayAssignments (pacFor (ascii "user")) = [] := by decide
      rw [hnone] at hstray
      cases hstray
  have hbin : BinSafe (pacFor (ascii "user")) := by
    unfold BinSafe
    decide
  refine (pacs_kept_iff ?_).mpr ?_
  · rw [List.forall_mem_singleton]
    exact hprovisioned
  · rw [List.forall_mem_singleton]
    exact ⟨htext, hbin⟩

theorem iId_ends_entry : ¬∀ l : List EapFastPac, (∀ pac ∈ l, Provisioned pac) →
    TextRoundTrip l ∧ BinRoundTrip l := by
  intro hall
  have hprovisioned : Provisioned (pacFor (ascii "user\nEND")) :=
    ⟨List.replicate eapFastPacKeyLen 7, [1, 2, 3], (pacFor (ascii "user\nEND")).pacInfo.getD [],
      by decide, by decide, by decide, by decide⟩
  obtain ⟨htext, -⟩ := hall [pacFor (ascii "user\nEND")] (by
    rw [List.forall_mem_singleton]
    exact hprovisioned)
  have hsafe := (textRoundTrip_iff (by
    rw [List.forall_mem_singleton]
    exact ⟨rfl, rfl, rfl⟩)).mp htext _ (List.mem_singleton_self _)
  have hline := hsafe.readable (ascii "END") (by decide)
  exact hline.2.1 rfl

end Hostapd.EapPeer
