import Mathlib.Data.List.Basic
import Mathlib.Data.BitVec

/-!
# Octet strings

Writing into the middle of an octet string, 16-bit words in network order, and records with a
type and a length octet.

* **`overwrite buf pos data`** is `memcpy` of `data` into `buf` at `pos`; on a string cut at the
  right places it replaces one part (**`overwrite_append`**). What it leaves alone is
  `getElem?_overwrite_of_lt`, what is read back `take_drop_overwrite`.
* **`Record`**: a type octet and a payload. `Record.encode extra` writes it with a length octet
  that counts the payload and `extra` octets; `Record.readAt` reads one at an offset, and
  `offsets` are the places of consecutive records. **`map_readAt_offsets`**: reading at the
  offsets gives the records back.
* **`readFields`, `writeFields`**: a header of fixed-width fields. `readFields_writeFields` and
  `writeFields_readFields`: what is written is read back, and what is read is written back.
-/

namespace Hostapd.Lib

/-! ## Writing in place -/

section Overwrite

variable {α : Type*}

/-- `memcpy` of `data` into `buf` at `pos`. -/
def overwrite (buf : List α) (pos : ℕ) (data : List α) : List α :=
  buf.take pos ++ data ++ buf.drop (pos + data.length)

theorem overwrite_append {pre old post data : List α} {n : ℕ} (hn : pre.length = n)
    (h : old.length = data.length) :
    overwrite (pre ++ (old ++ post)) n data = pre ++ (data ++ post) := by
  subst hn
  have hdrop : (pre ++ (old ++ post)).drop (pre.length + data.length) = post := by
    rw [← h, ← List.append_assoc, ← List.length_append, List.drop_left]
  rw [overwrite, List.take_left, hdrop, List.append_assoc]

variable {buf data : List α}

theorem length_overwrite {pos : ℕ} (h : pos + data.length ≤ buf.length) :
    (overwrite buf pos data).length = buf.length := by
  simp only [overwrite, List.length_append, List.length_take, List.length_drop]
  omega

theorem getElem?_overwrite_of_lt {pos i : ℕ} (h : i < pos)
    (hpos : pos ≤ buf.length) : (overwrite buf pos data)[i]? = buf[i]? := by
  have hlen : i < (buf.take pos).length := by
    rw [List.length_take]
    omega
  rw [overwrite, List.append_assoc, List.getElem?_append_left hlen, List.getElem?_take_of_lt h]

theorem take_drop_overwrite {pos : ℕ} (hpos : pos ≤ buf.length) :
    ((overwrite buf pos data).drop pos).take data.length = data := by
  have hlen : (buf.take pos).length = pos := by
    rw [List.length_take]
    omega
  rw [overwrite, List.append_assoc, List.drop_left' hlen, List.take_left]

theorem overwrite_overwrite {buf data data' : List α} {pos : ℕ} (hpos : pos ≤ buf.length)
    (h : data'.length = data.length) :
    overwrite (overwrite buf pos data') pos data = overwrite buf pos data := by
  have hlen : (buf.take pos).length = pos := by
    rw [List.length_take]
    omega
  have htake : (overwrite buf pos data').take pos = buf.take pos := by
    rw [overwrite, List.append_assoc, List.take_left' hlen]
  have hdrop : (overwrite buf pos data').drop (pos + data.length) =
      buf.drop (pos + data.length) := by
    rw [overwrite, ← h]
    refine List.drop_left' ?_
    rw [List.length_append, hlen]
  rw [overwrite, htake, hdrop, overwrite]

end Overwrite

/-! ## Words in network order -/

/-- The 16-bit word in network order at the front of a string. -/
def be16 (b : List UInt8) : ℕ := (b.getD 0 0).toNat * 256 + (b.getD 1 0).toNat

/-- The two octets of a word in network order, truncated to 16 bits. -/
def putBe16 (n : ℕ) : List UInt8 := [UInt8.ofNat (n / 256), UInt8.ofNat n]

theorem be16_lt (b : List UInt8) : be16 b < 2 ^ 16 := by
  have hhi := (b.getD 0 0).toNat_lt
  have hlo := (b.getD 1 0).toNat_lt
  rw [be16]
  omega

@[simp] theorem length_putBe16 (n : ℕ) : (putBe16 n).length = 2 := rfl

theorem be16_putBe16_mod (n : ℕ) (l : List UInt8) : be16 (putBe16 n ++ l) = n % 2 ^ 16 := by
  simp only [be16, putBe16, List.cons_append, List.nil_append, List.getD_cons_zero,
    List.getD_cons_succ, UInt8.toNat_ofNat']
  omega

theorem be16_putBe16 {n : ℕ} (h : n < 2 ^ 16) (l : List UInt8) : be16 (putBe16 n ++ l) = n := by
  rw [be16_putBe16_mod, Nat.mod_eq_of_lt h]

/-! ## Words with the low octet first -/

/-- The 16-bit word at the front of a string, low octet first. -/
def le16 (b : List UInt8) : ℕ := (b.getD 0 0).toNat + (b.getD 1 0).toNat * 256

/-- The two octets of a word, low octet first, truncated to 16 bits. -/
def putLe16 (n : ℕ) : List UInt8 := [UInt8.ofNat n, UInt8.ofNat (n / 256)]

@[simp] theorem length_putLe16 (n : ℕ) : (putLe16 n).length = 2 := rfl

theorem le16_putLe16 {n : ℕ} (h : n < 2 ^ 16) (l : List UInt8) : le16 (putLe16 n ++ l) = n := by
  simp only [le16, putLe16, List.cons_append, List.nil_append, List.getD_cons_zero,
    List.getD_cons_succ, UInt8.toNat_ofNat']
  omega

/-! ## Numbers in network order -/

/-- The number whose octets, most significant first, are `l`. -/
def beNat (l : List UInt8) : ℕ := l.foldl (fun n b => n * 256 + b.toNat) 0

/-- The last `k` octets of a number, most significant first. -/
def putBe : ℕ → ℕ → List UInt8
  | 0, _ => []
  | k + 1, n => putBe k (n / 256) ++ [UInt8.ofNat n]

theorem beNat_append_singleton (l : List UInt8) (b : UInt8) :
    beNat (l ++ [b]) = beNat l * 256 + b.toNat := by
  simp [beNat]

@[simp] theorem length_putBe (k n : ℕ) : (putBe k n).length = k := by
  induction k generalizing n with
  | zero => rfl
  | succ k ih => simp [putBe, ih]

theorem beNat_putBe {k n : ℕ} (h : n < 256 ^ k) : beNat (putBe k n) = n := by
  induction k generalizing n with
  | zero =>
    have hn : n = 0 := by simpa using h
    rw [hn]
    rfl
  | succ k ih =>
    have hdiv : n / 256 < 256 ^ k := by
      rw [pow_succ] at h
      omega
    rw [putBe, beNat_append_singleton, ih hdiv]
    simp only [UInt8.toNat_ofNat']
    omega

theorem putBe_beNat (l : List UInt8) : putBe l.length (beNat l) = l := by
  induction l using List.reverseRecOn with
  | nil => rfl
  | append_singleton l b ih =>
    have hb : b.toNat < 256 := b.toNat_lt
    have hdiv : (beNat l * 256 + b.toNat) / 256 = beNat l := by omega
    have hmod : UInt8.ofNat (beNat l * 256 + b.toNat) = b := by
      apply UInt8.toNat.inj
      simp only [UInt8.toNat_ofNat']
      omega
    rw [beNat_append_singleton, List.length_append, List.length_singleton, putBe, hdiv, hmod, ih]

theorem beNat_lt (l : List UInt8) : beNat l < 256 ^ l.length := by
  induction l using List.reverseRecOn with
  | nil => simp [beNat]
  | append_singleton l b ih =>
    have hb : b.toNat < 256 := b.toNat_lt
    rw [beNat_append_singleton, List.length_append, List.length_singleton, pow_succ]
    omega

/-! ## Fixed-width fields -/

/-- Read fields of the given widths in octets from the front of a string. -/
def readFields : List ℕ → List UInt8 → List ℕ × List UInt8
  | [], b => ([], b)
  | w :: ws, b => (beNat (b.take w) :: (readFields ws (b.drop w)).1, (readFields ws (b.drop w)).2)

/-- Write fields, each a width in octets and a value. -/
def writeFields : List (ℕ × ℕ) → List UInt8
  | [] => []
  | (w, v) :: l => putBe w v ++ writeFields l

@[simp] theorem length_writeFields (l : List (ℕ × ℕ)) :
    (writeFields l).length = (l.map (·.1)).sum := by
  induction l with
  | nil => rfl
  | cons a l ih => simp [writeFields, ih]

theorem readFields_writeFields (l : List (ℕ × ℕ)) (h : ∀ a ∈ l, a.2 < 256 ^ a.1)
    (rest : List UInt8) :
    readFields (l.map (·.1)) (writeFields l ++ rest) = (l.map (·.2), rest) := by
  induction l with
  | nil => rfl
  | cons a l ih =>
    have ha : a.2 < 256 ^ a.1 := h a List.mem_cons_self
    have hl := ih fun b hb => h b (List.mem_cons_of_mem a hb)
    have htake : (putBe a.1 a.2 ++ (writeFields l ++ rest)).take a.1 = putBe a.1 a.2 :=
      List.take_left' (length_putBe a.1 a.2)
    have hdrop : (putBe a.1 a.2 ++ (writeFields l ++ rest)).drop a.1 = writeFields l ++ rest :=
      List.drop_left' (length_putBe a.1 a.2)
    simp only [List.map_cons, readFields, writeFields, List.append_assoc, htake, hdrop, hl,
      beNat_putBe ha]

theorem writeFields_readFields (ws : List ℕ) {b : List UInt8} (h : ws.sum ≤ b.length) :
    writeFields (ws.zip (readFields ws b).1) ++ (readFields ws b).2 = b := by
  induction ws generalizing b with
  | nil => rfl
  | cons w ws ih =>
    have hw : w ≤ b.length := by
      rw [List.sum_cons] at h
      omega
    have hrest : ws.sum ≤ (b.drop w).length := by
      rw [List.sum_cons] at h
      rw [List.length_drop]
      omega
    have htake : putBe w (beNat (b.take w)) = b.take w := by
      have hlen : (b.take w).length = w := by simp [hw]
      calc putBe w (beNat (b.take w))
          = putBe (b.take w).length (beNat (b.take w)) := by rw [hlen]
        _ = b.take w := putBe_beNat _
    simp only [readFields, List.zip_cons_cons, writeFields, List.append_assoc, ih hrest, htake,
      List.take_append_drop]

/-! ## Records -/

abbrev Record := UInt8 × List UInt8

section Records

variable (extra : ℕ)

/-- The octets of a record, with a length octet that counts `extra` octets more than the payload.
-/
def Record.encode (r : Record) : List UInt8 := r.1 :: UInt8.ofNat (r.2.length + extra) :: r.2

def Record.readAt (buf : List UInt8) (pos : ℕ) : Record :=
  (buf.getD pos 0, (buf.drop (pos + 2)).take ((buf.getD (pos + 1) 0).toNat - extra))

/-- The offsets of consecutive records from `pos` on. -/
def offsets : ℕ → List Record → List ℕ
  | _, [] => []
  | pos, r :: l => pos :: offsets (pos + (r.2.length + 2)) l

@[simp] theorem Record.length_encode (r : Record) : (r.encode extra).length = r.2.length + 2 :=
  rfl

@[simp] theorem length_offsets (pos : ℕ) (l : List Record) : (offsets pos l).length = l.length := by
  induction l generalizing pos with
  | nil => rfl
  | cons r l ih => simp [offsets, ih]

theorem offsets_append (pos : ℕ) (l : List Record) (r : Record) :
    offsets pos (l ++ [r]) =
      offsets pos l ++ [pos + (l.flatMap (Record.encode extra)).length] := by
  induction l generalizing pos with
  | nil => simp [offsets]
  | cons a l ih =>
    simp only [List.cons_append, offsets, ih, List.flatMap_cons, List.length_append,
      Record.length_encode]
    congr 3
    omega

theorem mem_offsets {pos n : ℕ} {l : List Record} (h : pos ∈ offsets n l) :
    ∃ before r after, l = before ++ r :: after ∧
      pos = n + (before.flatMap (Record.encode extra)).length := by
  induction l generalizing n with
  | nil => cases h
  | cons a l ih =>
    rcases List.mem_cons.mp h with rfl | h
    · exact ⟨[], a, l, rfl, rfl⟩
    · obtain ⟨before, r, after, rfl, rfl⟩ := ih h
      refine ⟨a :: before, r, after, rfl, ?_⟩
      rw [List.flatMap_cons, List.length_append, Record.length_encode, Nat.add_assoc]

variable {extra}

theorem toNat_length_octet {r : Record} (h : r.2.length + extra < 256) :
    (UInt8.ofNat (r.2.length + extra)).toNat = r.2.length + extra := by
  simp only [UInt8.toNat_ofNat']
  omega

variable (extra) in
theorem getD_encode (pre post : List UInt8) (r : Record) :
    (pre ++ (r.encode extra ++ post)).getD pre.length 0 = r.1 ∧
      (pre ++ (r.encode extra ++ post)).getD (pre.length + 1) 0 =
        UInt8.ofNat (r.2.length + extra) := by
  simp [Record.encode, List.getD_eq_getElem?_getD]

theorem Record.readAt_encode (pre post : List UInt8) {r : Record}
    (h : r.2.length + extra < 256) :
    Record.readAt extra (pre ++ (r.encode extra ++ post)) pre.length = r := by
  obtain ⟨htype, hlen⟩ := getD_encode extra pre post r
  unfold Record.readAt
  rw [htype, hlen, toNat_length_octet h]
  have hdrop : (pre ++ (r.encode extra ++ post)).drop (pre.length + 2) = r.2 ++ post := by
    rw [List.drop_append]
    simp [Record.encode]
  rw [hdrop]
  simp

variable (extra) in
theorem map_readAt_offsets (pre post : List UInt8) {l : List Record}
    (h : ∀ r ∈ l, r.2.length + extra < 256) :
    (offsets pre.length l).map
      (Record.readAt extra (pre ++ (l.flatMap (Record.encode extra) ++ post))) = l := by
  induction l generalizing pre with
  | nil => rfl
  | cons r l ih =>
    have hr := Record.readAt_encode pre (l.flatMap (Record.encode extra) ++ post)
      (h r List.mem_cons_self)
    have hrest := ih (pre ++ r.encode extra) fun a ha => h a (List.mem_cons_of_mem r ha)
    simp only [offsets, List.map_cons, List.flatMap_cons, List.append_assoc] at hr hrest ⊢
    rw [hr]
    refine congrArg (r :: ·) ?_
    simpa [List.length_append] using hrest

end Records

end Hostapd.Lib
