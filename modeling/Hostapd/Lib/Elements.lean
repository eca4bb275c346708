import Hostapd.Lib.Octets

/-!
# Sequences of elements

An element is a record with an identifier octet and a length octet that counts the payload. A
reader goes over a sequence of them and stops in front of one that runs past the end.

* **`elements`** reads, `encodeElements` writes.
* **`elements_encodeElements_append`**: what was written is read back, and the reader goes on
  behind it.
* **`foldPadded`** notes each element up to a padding; `foldPadded_encodeElements` says what it
  makes of elements that were written, whatever padding follows.
-/

namespace Hostapd.Lib

def readElements : ℕ → List UInt8 → List Record
  | fuel + 1, id :: len :: rest =>
    if rest.length < len.toNat then []
    else (id, rest.take len.toNat) :: readElements fuel (rest.drop len.toNat)
  | _, _ => []

/-- The elements up to one that runs past the end. -/
def elements (buf : List UInt8) : List Record := readElements buf.length buf

def encodeElements (l : List Record) : List UInt8 := l.flatMap (Record.encode 0)

@[simp] theorem encodeElements_nil : encodeElements [] = [] := rfl

@[simp] theorem encodeElements_cons (r : Record) (l : List Record) :
    encodeElements (r :: l) = r.encode 0 ++ encodeElements l := rfl

@[simp] theorem encodeElements_append (l l' : List Record) :
    encodeElements (l ++ l') = encodeElements l ++ encodeElements l' := by
  simp [encodeElements]

@[simp] theorem elements_nil : elements [] = [] := rfl

theorem readElements_congr {n m : ℕ} {buf : List UInt8} (hn : buf.length ≤ n)
    (hm : buf.length ≤ m) : readElements n buf = readElements m buf := by
  induction n generalizing m buf with
  | zero =>
    have hnil : buf = [] := List.length_eq_zero_iff.mp (by omega)
    subst hnil
    cases m <;> rfl
  | succ n ih =>
    match buf, m with
    | [], m => cases m <;> rfl
    | [_], m => cases m <;> rfl
    | _ :: _ :: _, 0 => exact absurd hm (by simp)
    | id :: len :: rest, m + 1 =>
      simp only [List.length_cons] at hn hm
      have hrest : readElements n (rest.drop len.toNat) = readElements m (rest.drop len.toNat) := by
        refine ih ?_ ?_
        · rw [List.length_drop]
          omega
        · rw [List.length_drop]
          omega
      simp only [readElements, hrest]

theorem elements_of_le {id len : UInt8} {rest : List UInt8} (h : len.toNat ≤ rest.length) :
    elements (id :: len :: rest) = (id, rest.take len.toNat) :: elements (rest.drop len.toNat) := by
  have hle : (rest.drop len.toNat).length ≤ rest.length + 1 := by
    rw [List.length_drop]
    omega
  rw [elements, List.length_cons, readElements, if_neg (Nat.not_lt.mpr h)]
  exact congrArg _ (readElements_congr hle le_rfl)

theorem elements_of_lt {id len : UInt8} {rest : List UInt8} (h : rest.length < len.toNat) :
    elements (id :: len :: rest) = [] := by
  rw [elements, List.length_cons, readElements, if_pos h]

theorem elements_encode_append {r : Record} (h : r.2.length < 256) (rest : List UInt8) :
    elements (r.encode 0 ++ rest) = r :: elements rest := by
  have hlen : (UInt8.ofNat (r.2.length + 0)).toNat = r.2.length := toNat_length_octet h
  have hread : elements (r.encode 0 ++ rest) =
      (r.1, (r.2 ++ rest).take r.2.length) ::
        readElements (r.2.length + rest.length + 1) ((r.2 ++ rest).drop r.2.length) := by
    have hfuel : (r.encode 0 ++ rest).length = (r.2.length + rest.length + 1) + 1 := by
      rw [List.length_append, Record.length_encode]
      omega
    have hnot : ¬ (r.2 ++ rest).length < r.2.length := by
      rw [List.length_append]
      omega
    rw [elements, hfuel]
    simp only [Record.encode, List.cons_append, readElements, hlen, if_neg hnot]
  rw [hread, List.take_left, List.drop_left]
  exact congrArg (r :: ·) (readElements_congr (by omega) le_rfl)

theorem elements_encodeElements_append {l : List Record} (h : ∀ r ∈ l, r.2.length < 256)
    (rest : List UInt8) : elements (encodeElements l ++ rest) = l ++ elements rest := by
  induction l with
  | nil => rfl
  | cons r l ih =>
    have hr : r.2.length < 256 := h r List.mem_cons_self
    have hl := ih fun a ha => h a (List.mem_cons_of_mem r ha)
    rw [encodeElements_cons, List.append_assoc, elements_encode_append hr, hl, List.cons_append]

theorem elements_encodeElements {l : List Record} (h : ∀ r ∈ l, r.2.length < 256) :
    elements (encodeElements l) = l := by
  have hread := elements_encodeElements_append h []
  rwa [List.append_nil, elements_nil, List.append_nil] at hread

/-! ## Padding -/

section Padding

variable {σ : Type*} (pad : UInt8) (note : σ → Record → σ)

def foldElements : ℕ → List UInt8 → σ → Bool × σ
  | fuel + 1, id :: len :: rest, s =>
    if id = pad ∧ len = 0 then (true, s)
    else if rest.length < len.toNat then (false, s)
    else foldElements fuel (rest.drop len.toNat) (note s (id, rest.take len.toNat))
  | _, _, s => (true, s)

/-- Note the elements up to the padding, which starts with an element `pad` without a payload; the
result is `false` at an element that runs past the end. -/
def foldPadded (buf : List UInt8) (s : σ) : Bool × σ := foldElements pad note buf.length buf s

/-- What may follow the elements: less than an element, or a padding. -/
def IsPadding (tail : List UInt8) : Prop := tail.length < 2 ∨ [pad, 0] <+: tail

variable {pad note}

theorem foldElements_congr {n m : ℕ} {buf : List UInt8} (hn : buf.length ≤ n)
    (hm : buf.length ≤ m) (s : σ) :
    foldElements pad note n buf s = foldElements pad note m buf s := by
  induction n generalizing m buf s with
  | zero =>
    have hnil : buf = [] := List.length_eq_zero_iff.mp (by omega)
    subst hnil
    cases m <;> rfl
  | succ n ih =>
    match buf, m with
    | [], m => cases m <;> rfl
    | [_], m => cases m <;> rfl
    | _ :: _ :: _, 0 => exact absurd hm (by simp)
    | id :: len :: rest, m + 1 =>
      simp only [List.length_cons] at hn hm
      have hrest (s : σ) : foldElements pad note n (rest.drop len.toNat) s =
          foldElements pad note m (rest.drop len.toNat) s := by
        apply ih
        · rw [List.length_drop]
          omega
        · rw [List.length_drop]
          omega
      simp only [foldElements, hrest]

theorem foldPadded_encode_append {r : Record} (hlen : r.2.length < 256)
    (hne : ¬ (r.1 = pad ∧ r.2 = [])) (rest : List UInt8) (s : σ) :
    foldPadded pad note (r.encode 0 ++ rest) s = foldPadded pad note rest (note s r) := by
  have hoctet : (UInt8.ofNat (r.2.length + 0)).toNat = r.2.length := toNat_length_octet hlen
  have hgo : ¬ (r.1 = pad ∧ UInt8.ofNat (r.2.length + 0) = 0) := by
    rintro ⟨hid, hzero⟩
    apply hne
    rw [hzero] at hoctet
    exact ⟨hid, List.length_eq_zero_iff.mp hoctet.symm⟩
  have hfuel : (r.encode 0 ++ rest).length = (r.2.length + rest.length + 1) + 1 := by
    rw [List.length_append, Record.length_encode]
    omega
  have hfits : ¬ (r.2 ++ rest).length < r.2.length := by
    rw [List.length_append]
    omega
  rw [foldPadded, hfuel]
  simp only [Record.encode, List.cons_append, foldElements, if_neg hgo, hoctet, if_neg hfits,
    List.take_left, List.drop_left]
  exact foldElements_congr (by omega) le_rfl _

theorem foldPadded_padding {tail : List UInt8} (h : IsPadding pad tail) (s : σ) :
    foldPadded pad note tail s = (true, s) := by
  match tail, h with
  | [], _ => rfl
  | [_], _ => rfl
  | id :: len :: rest, h =>
    rcases h with h | ⟨_, h⟩
    · simp only [List.length_cons] at h
      omega
    · cases h
      simp [foldPadded, foldElements]

/-- **Elements that were written are noted**, all and in their order, whatever padding follows. -/
theorem foldPadded_encodeElements {l : List Record}
    (h : ∀ r ∈ l, r.2.length < 256 ∧ ¬ (r.1 = pad ∧ r.2 = [])) {tail : List UInt8}
    (htail : IsPadding pad tail) (s : σ) :
    foldPadded pad note (encodeElements l ++ tail) s = (true, l.foldl note s) := by
  induction l generalizing s with
  | nil => exact foldPadded_padding htail s
  | cons r l ih =>
    obtain ⟨hlen, hne⟩ := h r List.mem_cons_self
    have hl := ih fun a ha => h a (List.mem_cons_of_mem r ha)
    rw [encodeElements_cons, List.append_assoc, foldPadded_encode_append hlen hne, hl,
      List.foldl_cons]

end Padding

end Hostapd.Lib
