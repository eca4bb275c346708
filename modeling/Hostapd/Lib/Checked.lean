import Hostapd.Lib.Octets

/-!
# Reading a string with bounds

A parser that reads a string of octets at offsets, as a computation that can stop: because the
string is no good, or because it reads where there is nothing.

* `wrSlice` writes and `mvSlice` moves inside the string; **`mvSlice_gap`**: moving the middle of a
  string back opens a gap in front of it.
* **`Safe x Q`**: `x` never reads outside the string, and what it returns satisfies `Q`. `Safe.bind`
  is the rule for sequences, and there is one for each of the reading functions.
-/

namespace Hostapd.Lib

inductive Stop
  | dropped
  | outside
  deriving DecidableEq

def rd8 (d : List UInt8) (i : ℕ) : Except Stop UInt8 :=
  match d[i]? with
  | some b => .ok b
  | none => .error .outside

def rdLe16 (d : List UInt8) (i : ℕ) : Except Stop ℕ := do
  let lo ← rd8 d i
  let hi ← rd8 d (i + 1)
  return lo.toNat + hi.toNat * 256

def rdBe16 (d : List UInt8) (i : ℕ) : Except Stop ℕ := do
  let hi ← rd8 d i
  let lo ← rd8 d (i + 1)
  return hi.toNat * 256 + lo.toNat

def rdBe24 (d : List UInt8) (i : ℕ) : Except Stop ℕ := do
  let hi ← rd8 d i
  let mid ← rd8 d (i + 1)
  let lo ← rd8 d (i + 2)
  return hi.toNat * 65536 + mid.toNat * 256 + lo.toNat

def rdSlice (d : List UInt8) (i j : ℕ) : Except Stop (List UInt8) :=
  if i ≤ j ∧ j ≤ d.length then .ok ((d.take j).drop i) else .error .outside

def need (c : Prop) [Decidable c] : Except Stop Unit :=
  if c then .ok () else .error .dropped

def wrSlice (d : List UInt8) (i : ℕ) (data : List UInt8) : Except Stop (List UInt8) :=
  if i + data.length ≤ d.length then .ok (overwrite d i data) else .error .outside

/-- `memmove`: copy the octets from `i` up to `j` to the offset `k`. -/
def mvSlice (d : List UInt8) (k i j : ℕ) : Except Stop (List UInt8) := do
  let data ← rdSlice d i j
  wrSlice d k data

/-- The octets from one offset up to another one, through a pointer that may be used up to `stop`.
-/
def rdUpTo (stop : ℕ) (d : List UInt8) (i j : ℕ) : Except Stop (List UInt8) :=
  if j ≤ stop then rdSlice d i j else .error .outside

/-- Write octets at an offset, through a pointer that may be used up to `stop`. -/
def wrUpTo (stop : ℕ) (d : List UInt8) (i : ℕ) (data : List UInt8) : Except Stop (List UInt8) :=
  if i + data.length ≤ stop then wrSlice d i data else .error .outside

/-- Append to what has been written into a buffer of `size` octets. -/
def putOctets (size : ℕ) (buf data : List UInt8) : Except Stop (List UInt8) :=
  if buf.length + data.length ≤ size then .ok (buf ++ data) else .error .outside

@[simp] theorem ok_bind {α β : Type} (a : α) (f : α → Except Stop β) :
    (Except.ok a >>= f) = f a := rfl

theorem bind_eq_ok {ε α β : Type} {x : Except ε α} {f : α → Except ε β} {b : β}
    (h : (x >>= f) = .ok b) : ∃ a, x = .ok a ∧ f a = .ok b := by
  cases x with
  | ok a => exact ⟨a, rfl, h⟩
  | error stop => cases h

section Values

variable {d : List UInt8} {i j : ℕ} {b : UInt8}

@[simp] theorem rd8_zero : rd8 (b :: d) 0 = .ok b := rfl

theorem rd8_of (h : i < d.length) : rd8 d i = .ok d[i] := by
  rw [rd8, List.getElem?_eq_getElem h]

theorem rd8_getD (h : i < d.length) : rd8 d i = .ok (d.getD i 0) := by
  rw [rd8_of h, List.getD_eq_getElem?_getD, List.getElem?_eq_getElem h]
  rfl

theorem rdBe16_returns (h : i + 2 ≤ d.length) : ∃ n, rdBe16 d i = .ok n := by
  rw [rdBe16, rd8_of (by omega), ok_bind, rd8_of (by omega), ok_bind]
  exact ⟨_, rfl⟩

theorem rd8_outside (h : d.length ≤ i) : rd8 d i = .error .outside := by
  rw [rd8, List.getElem?_eq_none h]

theorem rdBe16_outside (h : d.length < i + 2) : rdBe16 d i = .error .outside := by
  rw [rdBe16]
  by_cases hi : i < d.length
  · rw [rd8_of hi, ok_bind, rd8_outside (by omega)]
    rfl
  · rw [rd8_outside (by omega)]
    rfl

theorem rdBe16_of (h : i + 2 ≤ d.length) : rdBe16 d i = .ok (be16 (d.drop i)) := by
  have hhi : i < d.length := by omega
  have hlo : i + 1 < d.length := by omega
  rw [rdBe16, rd8_getD hhi, ok_bind, rd8_getD hlo, ok_bind]
  simp [be16, List.getD_eq_getElem?_getD]
  rfl

theorem need_of {c : Prop} [Decidable c] (h : c) : need c = .ok () := if_pos h

theorem need_of_not {c : Prop} [Decidable c] (h : ¬ c) : need c = .error .dropped := if_neg h

theorem need_eq_ok {c : Prop} [Decidable c] {u : Unit} (h : need c = .ok u) : c := by
  by_contra hc
  rw [need_of_not hc] at h
  cases h

theorem putOctets_of {size : ℕ} {buf data : List UInt8} (h : buf.length + data.length ≤ size) :
    putOctets size buf data = .ok (buf ++ data) := if_pos h

theorem putOctets_eq_ok {size : ℕ} {buf data buf' : List UInt8}
    (h : putOctets size buf data = .ok buf') : buf' = buf ++ data := by
  unfold putOctets at h
  split at h
  · exact (Except.ok.inj h).symm
  · cases h

theorem putOctets_bind (size : ℕ) (buf data data' : List UInt8) :
    (putOctets size buf data >>= fun buf' => putOctets size buf' data') =
      putOctets size buf (data ++ data') := by
  unfold putOctets
  by_cases h : buf.length + data.length ≤ size
  · rw [if_pos h, ok_bind, List.append_assoc, List.length_append, List.length_append,
      Nat.add_assoc]
  · rw [if_neg h, if_neg]
    · rfl
    · rw [List.length_append]
      omega

theorem rdSlice_of (hij : i ≤ j) (hj : j ≤ d.length) : rdSlice d i j = .ok ((d.take j).drop i) :=
  if_pos ⟨hij, hj⟩

@[simp] theorem rd8_append (pre l : List UInt8) (i : ℕ) :
    rd8 (pre ++ l) (pre.length + i) = rd8 l i := by
  rw [rd8, rd8, List.getElem?_append_right (Nat.le_add_right _ _), Nat.add_sub_cancel_left]

@[simp] theorem rdLe16_append (pre l : List UInt8) (i : ℕ) :
    rdLe16 (pre ++ l) (pre.length + i) = rdLe16 l i := by
  simp only [rdLe16, Nat.add_assoc, rd8_append]

@[simp] theorem rdBe24_append (pre l : List UInt8) (i : ℕ) :
    rdBe24 (pre ++ l) (pre.length + i) = rdBe24 l i := by
  simp only [rdBe24, Nat.add_assoc, rd8_append]

theorem rdLe16_putLe16 {n : ℕ} (h : n < 2 ^ 16) (l : List UInt8) :
    rdLe16 (putLe16 n ++ l) 0 = .ok n := congrArg Except.ok (le16_putLe16 h l)

@[simp] theorem rdSlice_append_add (pre l : List UInt8) (i j : ℕ) :
    rdSlice (pre ++ l) (pre.length + i) (pre.length + j) = rdSlice l i j := by
  have htake : ((pre ++ l).take (pre.length + j)).drop (pre.length + i) = (l.take j).drop i := by
    rw [List.take_append, List.take_of_length_le (Nat.le_add_right _ _), Nat.add_sub_cancel_left,
      List.drop_append, List.drop_of_length_le (Nat.le_add_right _ _), Nat.add_sub_cancel_left,
      List.nil_append]
  simp only [rdSlice, htake, List.length_append, Nat.add_le_add_iff_left]

theorem rdSlice_append (pre post : List UInt8) :
    rdSlice (pre ++ post) pre.length (pre.length + post.length) = .ok post := by
  rw [rdSlice_of (Nat.le_add_right _ _) List.length_append.ge, ← List.length_append,
    List.take_length, List.drop_left]

theorem rdSlice_middle (pre mid post : List UInt8) :
    rdSlice (pre ++ (mid ++ post)) pre.length (pre.length + mid.length) = .ok mid := by
  rw [rdSlice_of (Nat.le_add_right _ _), ← List.append_assoc, ← List.length_append, List.take_left,
    List.drop_left]
  simp only [List.length_append]
  omega

theorem rdSlice_all (d : List UInt8) : rdSlice d 0 d.length = .ok d := by
  rw [rdSlice_of (Nat.zero_le _) le_rfl, List.take_length, List.drop_zero]

theorem rdLe16_middle {n : ℕ} (h : n < 2 ^ 16) (pre post : List UInt8) :
    rdLe16 (pre ++ (putLe16 n ++ post)) pre.length = .ok n := by
  have hread := rdLe16_append pre (putLe16 n ++ post) 0
  rwa [Nat.add_zero, rdLe16_putLe16 h] at hread

theorem rdUpTo_of {stop : ℕ} (hij : i ≤ j) (hj : j ≤ d.length) (hstop : j ≤ stop) :
    rdUpTo stop d i j = .ok ((d.take j).drop i) := by
  rw [rdUpTo, if_pos hstop, rdSlice_of hij hj]

/-! ### Writing -/

theorem wrUpTo_of {stop : ℕ} {data : List UInt8} (hd : i + data.length ≤ d.length)
    (hstop : i + data.length ≤ stop) : wrUpTo stop d i data = .ok (overwrite d i data) := by
  rw [wrUpTo, if_pos hstop, wrSlice, if_pos hd]

theorem wrSlice_of {data : List UInt8} (h : i + data.length ≤ d.length) :
    wrSlice d i data = .ok (overwrite d i data) := if_pos h

theorem wrSlice_append {a b c : List UInt8} (post : List UInt8) (h : b.length = c.length) :
    wrSlice (a ++ (b ++ post)) a.length c = .ok (a ++ (c ++ post)) := by
  rw [wrSlice_of, overwrite_append rfl h]
  simp only [List.length_append]
  omega

/-- Moving the middle of a string back opens a gap in front of it, which reads as what stood there;
what stands behind the middle is overwritten. -/
theorem mvSlice_gap (pre mid post : List UInt8) {g : ℕ} (hg : g ≤ post.length) :
    mvSlice (pre ++ (mid ++ post)) (pre.length + g) pre.length (pre.length + mid.length) =
      .ok (pre ++ ((mid ++ post).take g ++ (mid ++ post.drop g))) := by
  have hfits : pre.length + g + mid.length ≤ (pre ++ (mid ++ post)).length := by
    simp only [List.length_append]
    omega
  have htake : (pre ++ (mid ++ post)).take (pre.length + g) = pre ++ (mid ++ post).take g := by
    rw [List.take_append, List.take_of_length_le (Nat.le_add_right _ _), Nat.add_sub_cancel_left]
  have hdrop : (pre ++ (mid ++ post)).drop (pre.length + g + mid.length) = post.drop g := by
    rw [← List.append_assoc, List.drop_append, List.length_append,
      List.drop_of_length_le (by rw [List.length_append]; omega), List.nil_append]
    congr 1
    omega
  rw [mvSlice, rdSlice_middle, ok_bind, wrSlice_of hfits, overwrite, htake, hdrop]
  simp only [List.append_assoc]

theorem mvSlice_front {pre l m : List UInt8} {g : ℕ}
    (h : mvSlice (pre ++ l) (pre.length + g) i j = .ok m) :
    ∃ post, m = pre ++ (l.take g ++ post) := by
  unfold mvSlice rdSlice at h
  split at h
  · rw [ok_bind, wrSlice] at h
    split at h
    · cases h
      refine ⟨((pre ++ l).take j).drop i ++ (pre ++ l).drop (pre.length + g +
        (((pre ++ l).take j).drop i).length), ?_⟩
      rw [overwrite, List.take_append, List.take_of_length_le (Nat.le_add_right _ _),
        Nat.add_sub_cancel_left]
      simp only [List.append_assoc]
    · cases h
  · cases h

end Values

/-! ## Safety -/

section Safety

variable {α β : Type}

/-- A computation that reads nothing outside, and whose results satisfy `Q`. -/
def Safe (x : Except Stop α) (Q : α → Prop) : Prop :=
  match x with
  | .ok a => Q a
  | .error stop => stop = .dropped

variable {x : Except Stop α} {Q : α → Prop} {R : β → Prop} {d : List UInt8} {i j : ℕ}

theorem Safe.pure {a : α} (h : Q a) : Safe (.ok a) Q := h

theorem Safe.mono {Q' : α → Prop} (h : Safe x Q) (hQ : ∀ a, Q a → Q' a) : Safe x Q' := by
  cases x with
  | ok a => exact hQ a h
  | error stop => exact h

theorem Safe.bind {f : α → Except Stop β} (h : Safe x Q) (hf : ∀ a, Q a → Safe (f a) R) :
    Safe (x >>= f) R := by
  cases x with
  | ok a => exact hf a h
  | error stop => exact h

theorem Safe.ne_outside (h : Safe x Q) : x ≠ .error .outside := by
  rintro rfl
  exact Stop.noConfusion h

theorem Safe.need {c : Prop} [Decidable c] : Safe (need c) fun _ => c := by
  unfold Lib.need
  split_ifs with h
  · exact h
  · rfl

theorem Safe.rd8 (h : i < d.length) : Safe (rd8 d i) fun _ => True := by
  rw [Lib.rd8, List.getElem?_eq_getElem h]
  trivial

theorem Safe.rdLe16 (h : i + 2 ≤ d.length) : Safe (rdLe16 d i) fun _ => True :=
  .bind (.rd8 (by omega)) fun _ _ => .bind (.rd8 (by omega)) fun _ _ => trivial

theorem Safe.rdBe16 (h : i + 2 ≤ d.length) : Safe (rdBe16 d i) fun _ => True :=
  .bind (.rd8 (by omega)) fun _ _ => .bind (.rd8 (by omega)) fun _ _ => trivial

theorem Safe.rdBe24 (h : i + 3 ≤ d.length) : Safe (rdBe24 d i) fun _ => True :=
  .bind (.rd8 (by omega)) fun _ _ => .bind (.rd8 (by omega)) fun _ _ =>
    .bind (.rd8 (by omega)) fun _ _ => trivial

theorem Safe.rdSlice (hij : i ≤ j) (hj : j ≤ d.length) :
    Safe (rdSlice d i j) fun data => data.length = j - i := by
  rw [rdSlice_of hij hj]
  change ((d.take j).drop i).length = j - i
  rw [List.length_drop, List.length_take, Nat.min_eq_left hj]

theorem Safe.putOctets {size : ℕ} {buf data : List UInt8} (h : buf.length + data.length ≤ size) :
    Safe (putOctets size buf data) fun buf' => buf'.length = buf.length + data.length := by
  rw [Lib.putOctets, if_pos h]
  exact List.length_append

end Safety

end Hostapd.Lib
