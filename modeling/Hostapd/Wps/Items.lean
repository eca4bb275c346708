import Hostapd.Wps.EncrSettings

/-!
# Attributes as the parser tells them

`wps_parse_msg` on a message of attributes that it accepts: what its result says of every one.

* **`Item`**: an attribute by the place that `struct wps_parse_attr` has for it; `Item.put` is how
  it stands in a message and `Item.Fits` what the parser asks of it.
* **`ParseAttr.Tells`**: a result has, of every type, the last value; the WFA subelements, the
  latest in front; and the first ten Credentials and requested device types and all vendor
  extensions, in their order.
* **`parseMsg_items`**: the parser takes every message of such attributes and tells them.
-/

namespace Hostapd.Wps

open Hostapd.Lib

/-! ## Items -/

/-- An attribute, by the place that the parser has for it. -/
inductive Item
  | single (type : AttrType) (val : Bytes)
  | cred (val : Bytes)
  | reqDevType (val : Bytes)
  | vendorExt (val : Bytes)
  /-- A WFA extension, with the numbers and values of its subelements. -/
  | wfa (elems : List (UInt8 × Bytes))
  deriving DecidableEq

namespace Item

def type : Item → AttrType
  | single type _ => type
  | cred _ => .cred
  | reqDevType _ => .requestedDevType
  | vendorExt _ | wfa _ => .vendorExt

def putElem (elem : UInt8 × Bytes) : Bytes := elem.1 :: UInt8.ofNat elem.2.length :: elem.2

def octets : Item → Bytes
  | single _ val | cred val | reqDevType val | vendorExt val => val
  | wfa elems => putBe 3 vendorIdWfa ++ elems.flatMap putElem

def put (item : Item) : Bytes := putAttr item.type item.octets

/-- The parser asks of a subelement that it has a number it knows and the length of this number. -/
def ElemFits (elem : UInt8 × Bytes) : Prop :=
  elem.1 ≤ 4 ∧ (elem.1 = 1 ∨ elem.2.length = 1) ∧ 0 < elem.2.length ∧ elem.2.length < 256

def Fits : Item → Prop
  | single type val =>
    type ∉ [.cred, .requestedDevType, .vendorExt] ∧ (∀ len ∈ type.fixedLen, val.length = len) ∧
      (type = .secondaryDevTypeList →
        val.length ≤ secDevTypeMaxLen ∧ val.length % devTypeLen = 0) ∧ val.length < 2 ^ 16
  | cred val => val.length < 2 ^ 16
  | reqDevType val => val.length = devTypeLen
  | vendorExt val =>
    3 ≤ val.length ∧ val.length ≤ maxVendorExtLen ∧ beNat (val.take 3) ≠ vendorIdWfa
  | wfa elems => (∀ elem ∈ elems, ElemFits elem) ∧ (elems.flatMap putElem).length + 3 < 2 ^ 16

def valueOf (type : AttrType) : Item → Option Bytes
  | single type' val => if type' = type then some val else none
  | _ => none

def credVal : Item → Option Bytes
  | cred val => some val
  | _ => none

def reqDevTypeVal : Item → Option Bytes
  | reqDevType val => some val
  | _ => none

def vendorExtVal : Item → Option Bytes
  | vendorExt val => some val
  | _ => none

def elems : Item → List (UInt8 × Bytes)
  | wfa elems => elems
  | _ => []

end Item

/-- What the parser tells of the attributes of a message. -/
structure ParseAttr.Tells (attr : ParseAttr) (items : List Item) : Prop where
  single : ∀ type, attr.get type = (items.filterMap (Item.valueOf type)).getLast?
  wfa : attr.wfa = (items.flatMap Item.elems).reverse
  cred : attr.cred = (items.filterMap Item.credVal).take maxCount
  reqDevType : attr.reqDevType = (items.filterMap Item.reqDevTypeVal).take maxCount
  vendorExt : attr.vendorExt = items.filterMap Item.vendorExtVal

/-! ## One attribute -/

def ParseAttr.keep (attr : ParseAttr) (pos : ℕ) : Item → ParseAttr
  | .single type val => { attr with fields := (type, ⟨pos, val⟩) :: attr.fields }
  | .cred val =>
    if maxCount ≤ attr.cred.length then attr else { attr with cred := attr.cred ++ [val] }
  | .reqDevType val =>
    if maxCount ≤ attr.reqDevType.length then attr
    else { attr with reqDevType := attr.reqDevType ++ [val] }
  | .vendorExt val => { attr with vendorExt := attr.vendorExt ++ [val] }
  | .wfa elems => { attr with wfa := elems.reverse ++ attr.wfa }

theorem AttrType.ofCode_code (type : AttrType) : ofCode type.code = some type := by
  cases type <;> decide

theorem AttrType.code_ne_zero (type : AttrType) : type.code ≠ 0 := by
  cases type <;> decide

theorem AttrType.code_lt (type : AttrType) : type.code < 2 ^ 16 := by
  cases type <;> decide

theorem setVendorExtWfaSubelem_fits {elem : UInt8 × Bytes} (h : Item.ElemFits elem)
    (attr : ParseAttr) :
    setVendorExtWfaSubelem attr elem.1 elem.2 = some { attr with wfa := elem :: attr.wfa } := by
  obtain ⟨hid, hlen, -, -⟩ := h
  rw [setVendorExtWfaSubelem]
  by_cases hmacs : elem.1 = 1
  · rw [hmacs, if_neg (by decide), if_pos rfl, ← hmacs]
  · have hknown : elem.1 ∈ [0, 2, 3, 4] := by
      have hle : elem.1.toNat ≤ 4 := hid
      have hne : elem.1.toNat ≠ 1 := fun h => hmacs (UInt8.toNat_inj.mp h)
      simp only [List.mem_cons, List.not_mem_nil, or_false, ← UInt8.toNat_inj]
      simp only [UInt8.toNat_ofNat]
      omega
    rw [if_pos hknown, if_pos (hlen.resolve_left hmacs)]

theorem parseVendorExtWfa_elems {elems : List (UInt8 × Bytes)}
    (h : ∀ elem ∈ elems, Item.ElemFits elem) {fuel : ℕ} (attr : ParseAttr)
    (hfuel : (elems.flatMap Item.putElem).length ≤ fuel) :
    parseVendorExtWfa fuel attr (elems.flatMap Item.putElem) =
      some { attr with wfa := elems.reverse ++ attr.wfa } := by
  induction elems generalizing fuel attr with
  | nil => cases fuel <;> rfl
  | cons elem elems ih =>
    have helem : Item.ElemFits elem := h elem List.mem_cons_self
    have hpos : 0 < elem.2.length := helem.2.2.1
    have hshort : elem.2.length < 256 := helem.2.2.2
    have hlen : (UInt8.ofNat elem.2.length).toNat = elem.2.length := by
      rw [UInt8.toNat_ofNat', Nat.mod_eq_of_lt hshort]
    obtain ⟨c, val, hval⟩ : ∃ c val, elem.2 = c :: val := List.exists_cons_of_length_pos hpos
    simp only [List.flatMap_cons, Item.putElem, List.cons_append, List.length_cons,
      List.length_append] at hfuel ⊢
    obtain ⟨fuel, rfl⟩ := Nat.exists_eq_add_one_of_ne_zero (Nat.ne_of_gt (Nat.lt_of_lt_of_le
      (Nat.succ_pos _) hfuel))
    have hrest : ∀ rest, parseVendorExtWfa (fuel + 1) attr
        (elem.1 :: UInt8.ofNat elem.2.length :: (elem.2 ++ rest)) =
          (setVendorExtWfaSubelem attr elem.1 elem.2).bind fun attr =>
            parseVendorExtWfa fuel attr rest := by
      intro rest
      have hfits : ¬ (elem.2 ++ rest).length < elem.2.length := by
        rw [List.length_append]
        omega
      rw [hval, List.cons_append, parseVendorExtWfa, ← List.cons_append, ← hval, hlen,
        if_neg hfits, List.take_left, List.drop_left]
      cases setVendorExtWfaSubelem attr elem.1 elem.2 <;> rfl
    rw [hrest, setVendorExtWfaSubelem_fits helem, Option.bind_some,
      ih (fun e he => h e (List.mem_cons_of_mem _ he)) _ (by omega), List.reverse_cons,
      List.append_assoc]
    rfl

theorem setAttr_code (attr : ParseAttr) (type : AttrType) (pos : ℕ) (val : Bytes) :
    (∀ len ∈ type.fixedLen, val.length = len) → setAttr attr type.code pos val =
      match type with
      | .cred =>
        if maxCount ≤ attr.cred.length then some attr
        else some { attr with cred := attr.cred ++ [val] }
      | .requestedDevType =>
        if maxCount ≤ attr.reqDevType.length then some attr
        else some { attr with reqDevType := attr.reqDevType ++ [val] }
      | .secondaryDevTypeList =>
        if secDevTypeMaxLen < val.length ∨ 0 < val.length % devTypeLen then none
        else some { attr with fields := (type, ⟨pos, val⟩) :: attr.fields }
      | .vendorExt => parseVendorExt attr val
      | _ => some { attr with fields := (type, ⟨pos, val⟩) :: attr.fields } := by
  intro hfixed
  have hnot : ¬ ∃ len ∈ type.fixedLen, val.length ≠ len :=
    fun ⟨len, hlen, hne⟩ => hne (hfixed len hlen)
  rw [setAttr, AttrType.ofCode_code]
  refine (if_neg hnot).trans ?_
  cases type <;> rfl

variable {attr : ParseAttr}

theorem setAttr_item {item : Item} (h : item.Fits)
    (hroom : item.vendorExtVal.isSome → attr.vendorExt.length < maxCount) (pos : ℕ) :
    setAttr attr item.type.code pos item.octets = some (attr.keep pos item) := by
  cases item with
  | single type val =>
    obtain ⟨hsingle, hfixed, hsec, -⟩ := h
    refine (setAttr_code attr type pos val hfixed).trans ?_
    split
    · simp at hsingle
    · simp at hsingle
    · have hlist : ¬ (secDevTypeMaxLen < val.length ∨ 0 < val.length % devTypeLen) := by
        obtain ⟨hmax, hmod⟩ := hsec rfl
        omega
      rw [if_neg hlist]
      rfl
    · simp at hsingle
    · rfl
  | cred val =>
    refine (setAttr_code attr .cred pos val fun len hlen => nomatch hlen).trans ?_
    simp only [ParseAttr.keep]
    split <;> rfl
  | reqDevType val =>
    have hlen : val.length = devTypeLen := h
    refine (setAttr_code attr .requestedDevType pos val fun len hfixed =>
      hlen.trans (Option.mem_some.mp hfixed)).trans ?_
    simp only [ParseAttr.keep]
    split <;> rfl
  | vendorExt val =>
    obtain ⟨hthree, hmax, hid⟩ := h
    have hcount : attr.vendorExt.length < maxCount := hroom rfl
    refine (setAttr_code attr .vendorExt pos val fun len hlen => nomatch hlen).trans ?_
    simp only [parseVendorExt]
    rw [if_neg (by omega), if_neg hid, if_neg (by omega), if_neg (by omega)]
    rfl
  | wfa elems =>
    have hlen : (putBe 3 vendorIdWfa).length = 3 := length_putBe 3 _
    have hid : beNat (putBe 3 vendorIdWfa) = vendorIdWfa := beNat_putBe (by decide)
    have hoctets : (Item.wfa elems).octets = putBe 3 vendorIdWfa ++ elems.flatMap Item.putElem := by
      simp only [Item.octets]
    rw [hoctets]
    refine (setAttr_code attr .vendorExt pos _ fun len hlen => nomatch hlen).trans ?_
    simp only []
    rw [parseVendorExt, List.length_append, hlen, if_neg (by omega), List.take_left' hlen, hid,
      if_pos rfl, List.drop_left' hlen, parseVendorExtWfa_elems h.1 _ (by omega)]
    rfl

/-! ## All of them -/

theorem filterMap_concat (f : Item → Option Bytes) (items : List Item) (item : Item) :
    (items ++ [item]).filterMap f = items.filterMap f ++ (f item).toList := by
  rw [List.filterMap_append]
  cases hf : f item with
  | none => simp [hf]
  | some val => simp [hf]

theorem ParseAttr.get_keep (attr : ParseAttr) (pos : ℕ) (item : Item) (type : AttrType) :
    (attr.keep pos item).get type = (item.valueOf type).or (attr.get type) := by
  cases item with
  | single type' val =>
    by_cases htype : type' = type
    · subst htype
      simp [keep, get, field, Item.valueOf]
    · have hne : (type == type') = false := beq_false_of_ne (Ne.symm htype)
      simp [keep, get, field, Item.valueOf, List.lookup_cons, htype, hne]
  | cred val | reqDevType val =>
    simp only [keep]
    split <;> rfl
  | vendorExt val | wfa elems => rfl

theorem take_maxCount_concat (l : List Bytes) (val : Bytes) :
    (l ++ [val]).take maxCount =
      if maxCount ≤ (l.take maxCount).length then l.take maxCount
      else l.take maxCount ++ [val] := by
  rw [List.length_take]
  split
  · rw [List.take_append_of_le_length (by omega)]
  · rw [List.take_of_length_le (i := maxCount) (l := l) (by omega), List.take_of_length_le]
    rw [List.length_append, List.length_singleton]
    omega

theorem ParseAttr.Tells.keep {items : List Item} (h : attr.Tells items)
    (pos : ℕ) (item : Item) : (attr.keep pos item).Tells (items ++ [item]) := by
  refine ⟨fun type => ?_, ?_, ?_, ?_, ?_⟩
  · rw [get_keep, h.single, filterMap_concat]
    cases item.valueOf type <;> simp
  · rw [List.flatMap_append, List.reverse_append, ← h.wfa]
    cases item with
    | cred val | reqDevType val =>
      simp only [ParseAttr.keep]
      split <;> rfl
    | single type val | vendorExt val => rfl
    | wfa elems => simp [ParseAttr.keep, Item.elems]
  · rw [filterMap_concat]
    cases item with
    | cred val =>
      simp only [Item.credVal, Option.toList, take_maxCount_concat, ← h.cred, ParseAttr.keep]
      split <;> rfl
    | reqDevType val =>
      simp only [ParseAttr.keep, Item.credVal, Option.toList, List.append_nil, ← h.cred]
      split <;> rfl
    | single type val | vendorExt val | wfa elems =>
      simp only [Item.credVal, Option.toList, List.append_nil, ← h.cred]
      rfl
  · rw [filterMap_concat]
    cases item with
    | cred val =>
      simp only [ParseAttr.keep, Item.reqDevTypeVal, Option.toList, List.append_nil,
        ← h.reqDevType]
      split <;> rfl
    | reqDevType val =>
      simp only [Item.reqDevTypeVal, Option.toList, take_maxCount_concat, ← h.reqDevType,
        ParseAttr.keep]
      split <;> rfl
    | single type val | vendorExt val | wfa elems =>
      simp only [Item.reqDevTypeVal, Option.toList, List.append_nil, ← h.reqDevType]
      rfl
  · rw [filterMap_concat, ← h.vendorExt]
    cases item with
    | cred val | reqDevType val =>
      simp only [ParseAttr.keep, Item.vendorExtVal, Option.toList, List.append_nil]
      split <;> rfl
    | single type val | wfa elems =>
      simp only [Item.vendorExtVal, Option.toList, List.append_nil]
      rfl
    | vendorExt val => rfl

def Item.attribute (item : Item) (h : item.octets.length < 2 ^ 16) : Attribute where
  code := item.type.code
  val := item.octets
  code_lt := item.type.code_lt
  length_lt := h

theorem Item.Fits.length_lt {item : Item} (h : item.Fits) : item.octets.length < 2 ^ 16 := by
  cases item with
  | single type val => exact h.2.2.2
  | cred val => exact h
  | reqDevType val =>
    have hlen : val.length = devTypeLen := h
    show val.length < 2 ^ 16
    rw [hlen]
    decide
  | vendorExt val => exact Nat.lt_of_le_of_lt h.2.1 (by decide)
  | wfa elems =>
    have hlen := h.2
    simp only [octets, List.length_append, length_putBe]
    omega

theorem Item.encode_attribute (item : Item) (h : item.octets.length < 2 ^ 16) :
    (item.attribute h).encode = item.put := rfl

theorem ParseAttr.Tells.keepAttrs {before items : List Item}
    (h : attr.Tells before) (hfits : ∀ item ∈ items, item.Fits)
    (hroom : ((before ++ items).filterMap Item.vendorExtVal).length ≤ maxCount) (pos : ℕ) :
    ∃ l attr', encodeAttrs l = items.flatMap Item.put ∧ (∀ a ∈ l, a.code ≠ 0) ∧
      Wps.keepAttrs attr pos l = some attr' ∧ attr'.Tells (before ++ items) := by
  induction items generalizing attr before pos with
  | nil =>
    rw [List.append_nil]
    exact ⟨[], attr, rfl, (fun a ha => nomatch ha), rfl, h⟩
  | cons item items ih =>
    have hitem : item.Fits := hfits item List.mem_cons_self
    have hsplit : before ++ item :: items = before ++ [item] ++ items := by
      rw [List.append_assoc, List.singleton_append]
    rw [hsplit] at hroom ⊢
    have hfree : item.vendorExtVal.isSome → attr.vendorExt.length < maxCount := by
      intro hext
      obtain ⟨val, hval⟩ := Option.isSome_iff_exists.mp hext
      rw [List.filterMap_append, filterMap_concat, ← h.vendorExt, hval, List.length_append,
        List.length_append, Option.toList_some, List.length_singleton] at hroom
      omega
    obtain ⟨l, attr', hl, hcodes, hkeep, htells⟩ := ih (h.keep (pos + 4) item)
      (fun i hi => hfits i (List.mem_cons_of_mem _ hi)) hroom
      (pos + (item.attribute hitem.length_lt).encode.length)
    refine ⟨item.attribute hitem.length_lt :: l, attr', ?_, ?_, ?_, htells⟩
    · rw [encodeAttrs_cons, hl, List.flatMap_cons, item.encode_attribute]
    · exact List.forall_mem_cons.mpr ⟨item.type.code_ne_zero, hcodes⟩
    · show (setAttr attr item.type.code (pos + 4) item.octets).bind _ = some attr'
      rw [setAttr_item hitem hfree]
      exact hkeep

/-- The parser takes a message of attributes that fit, with ten vendor extensions at most, and tells
them. -/
theorem parseMsg_items {items : List Item} (hfits : ∀ item ∈ items, item.Fits)
    (hroom : (items.filterMap Item.vendorExtVal).length ≤ maxCount) :
    ∃ attr, parseMsg (items.flatMap Item.put) = some attr ∧ attr.Tells items := by
  have hempty : ParseAttr.empty.Tells [] := ⟨fun type => rfl, rfl, rfl, rfl, rfl⟩
  obtain ⟨l, attr, hl, hcodes, hkeep, htells⟩ := hempty.keepAttrs hfits hroom 0
  refine ⟨attr, ?_, htells⟩
  rw [← hl, ← hkeep]
  rcases List.eq_nil_or_concat l with rfl | ⟨l, last, rfl⟩
  · rfl
  · rw [List.concat_eq_append] at hcodes ⊢
    exact parseMsg_encodeAttrs (hcodes last (by simp)) l

end Hostapd.Wps
