import Mathlib.Data.List.Basic

/-!
# Texts in lines, and the assignments they make

* **`lines`**: the lines of a text. A newline ends a line, and the last line may lack it.
  `lines_append_newline` splits a text at a newline, `lines_line` is about a line that has none
  inside, and `lines_prefix` about a line that begins with one thing and goes on with anything.
* **`lastAssigned`**: the last value that a list of assignments gives to a name. **`get_foldl`**: it
  is what is read in the end.
-/

namespace Hostapd.Lib

/-! ## Lines -/

def newline : UInt8 := 10

def lines : List UInt8 → List (List UInt8)
  | [] => []
  | b :: l =>
    if b = newline then [] :: lines l
    else
      match lines l with
      | [] => [[b]]
      | line :: ls => (b :: line) :: ls

@[simp] theorem lines_nil : lines [] = [] := rfl

@[simp] theorem lines_cons_newline (l : List UInt8) : lines (newline :: l) = [] :: lines l := by
  simp [lines]

theorem lines_cons_of_ne {b : UInt8} (h : b ≠ newline) {l line : List UInt8}
    {ls : List (List UInt8)} (hl : lines l = line :: ls) : lines (b :: l) = (b :: line) :: ls := by
  rw [lines, if_neg h, hl]

theorem lines_ne_nil {l : List UInt8} (h : l ≠ []) : lines l ≠ [] := by
  cases l with
  | nil => exact absurd rfl h
  | cons b l =>
    rw [lines]
    split_ifs
    · exact List.cons_ne_nil _ _
    · split <;> exact List.cons_ne_nil _ _

theorem lines_append_newline (t rest : List UInt8) :
    lines (t ++ newline :: rest) = lines (t ++ [newline]) ++ lines rest := by
  induction t with
  | nil => simp
  | cons b t ih =>
    simp only [List.cons_append]
    by_cases hb : b = newline
    · subst hb
      rw [lines_cons_newline, lines_cons_newline, ih, List.cons_append]
    · obtain ⟨line, ls, hls⟩ := List.exists_cons_of_ne_nil (lines_ne_nil (l := t ++ [newline])
        (by simp))
      have hrest : lines (t ++ newline :: rest) = line :: (ls ++ lines rest) := by
        rw [ih, hls, List.cons_append]
      rw [lines_cons_of_ne hb hls, lines_cons_of_ne hb hrest, List.cons_append]

theorem lines_prefix {pre l line : List UInt8} {ls : List (List UInt8)} (hpre : newline ∉ pre)
    (hl : lines l = line :: ls) : lines (pre ++ l) = (pre ++ line) :: ls := by
  induction pre with
  | nil => exact hl
  | cons b pre ih =>
    obtain ⟨hb, hpre'⟩ := not_or.mp (mt List.mem_cons.mpr hpre)
    exact lines_cons_of_ne (Ne.symm hb) (ih hpre')

theorem lines_line {line : List UInt8} (h : newline ∉ line) (rest : List UInt8) :
    lines (line ++ newline :: rest) = line :: lines rest := by
  have hfirst := lines_prefix h (lines_cons_newline rest)
  rwa [List.append_nil] at hfirst

theorem lines_eq_cons {s : List UInt8} (h : s ≠ []) :
    lines s = s.takeWhile (· ≠ newline) :: lines (s.dropWhile (· ≠ newline)).tail := by
  induction s with
  | nil => exact absurd rfl h
  | cons b s ih =>
    by_cases hb : b = newline
    · subst hb
      simp
    · rw [List.takeWhile_cons_of_pos (by simpa using hb),
        List.dropWhile_cons_of_pos (by simpa using hb)]
      cases s with
      | nil => simp [lines, hb]
      | cons c s => exact lines_cons_of_ne hb (ih (List.cons_ne_nil c s))

/-! ## Assignments -/

section Assign

variable {ι ν σ : Type*} [DecidableEq ι]

def lastAssigned (f : ι) (l : List (ι × ν)) : Option ν :=
  (l.reverse.find? fun a => a.1 = f).map Prod.snd

@[simp] theorem lastAssigned_nil (f : ι) : lastAssigned f ([] : List (ι × ν)) = none := rfl

theorem lastAssigned_append (f : ι) (l l' : List (ι × ν)) :
    lastAssigned f (l ++ l') = (lastAssigned f l').or (lastAssigned f l) := by
  unfold lastAssigned
  rw [List.reverse_append, List.find?_append]
  cases List.find? (fun a : ι × ν => decide (a.1 = f)) l'.reverse <;> rfl

theorem lastAssigned_singleton (f : ι) (a : ι × ν) :
    lastAssigned f [a] = if a.1 = f then some a.2 else none := by
  by_cases h : a.1 = f <;> simp [lastAssigned, h]

variable {l : List (ι × ν)}

/-- **The last assignment counts**, and where there is none, what was there. -/
theorem get_foldl {set : σ → ι × ν → σ} {get : σ → ι → Option ν}
    (hset : ∀ a ∈ l, ∀ s f, get (set s a) f = if a.1 = f then some a.2 else get s f) (s : σ)
    (f : ι) : get (l.foldl set s) f = (lastAssigned f l).or (get s f) := by
  induction l generalizing s with
  | nil => rfl
  | cons a l ih =>
    have hcons : a :: l = [a] ++ l := rfl
    rw [List.foldl_cons, ih fun a' ha' => hset a' (List.mem_cons_of_mem a ha'),
      hset a List.mem_cons_self, hcons, lastAssigned_append, lastAssigned_singleton]
    cases lastAssigned f l with
    | some v => rfl
    | none =>
      by_cases h : a.1 = f
      · rw [if_pos h, if_pos h]
        rfl
      · rw [if_neg h, if_neg h]
        rfl

theorem lastAssigned_eq_none {f : ι} (h : ∀ a ∈ l, a.1 ≠ f) :
    lastAssigned f l = none := by
  rw [lastAssigned, List.find?_eq_none.mpr, Option.map_none]
  intro a ha
  simpa using h a (List.mem_reverse.mp ha)

theorem mem_of_lastAssigned {f : ι} {v : ν} (h : lastAssigned f l = some v) :
    (f, v) ∈ l := by
  obtain ⟨a, ha, rfl⟩ := Option.map_eq_some_iff.mp h
  have hname : a.1 = f := by simpa using List.find?_some ha
  have hmem := List.mem_reverse.mp (List.mem_of_find?_eq_some ha)
  rwa [← hname]

theorem lastAssigned_filter {f g : ι} (hne : f ≠ g) (l : List (ι × ν)) :
    lastAssigned f (l.filter fun a => a.1 ≠ g) = lastAssigned f l := by
  induction l with
  | nil => rfl
  | cons a l ih =>
    have hcons : a :: l = [a] ++ l := rfl
    rw [hcons, List.filter_append, lastAssigned_append, lastAssigned_append, ih]
    by_cases h : a.1 = g
    · have hother : a.1 ≠ f := fun hf => hne (hf.symm.trans h)
      rw [List.filter_cons_of_neg (by simpa using h), lastAssigned_singleton, if_neg hother]
      rfl
    · rw [List.filter_cons_of_pos (by simpa using h)]
      rfl

end Assign

end Hostapd.Lib
