import Hostapd.Common.VendorIe
import Hostapd.Lib.Pieces
import Hostapd.Wps.Common

/-!
# WPS elements

`wps_attr_build.c`, `wps_ie_encapsulate`: the WPS attributes of a Beacon or Probe Response frame are
put into as many vendor specific elements as it takes, of 251 octets each. The buffer for them is
allocated with 100 octets more than the attributes, and every element adds 6.

* **`wpsIeEncapsulate_eq`**: the elements are written if their headers fit the 100 octets; else
  `wpabuf_put` overflows.
* **`encapsulation_iff`**: attributes are written and read back by `vendorIeConcat`, from between
  any other elements, exactly when they are 4016 octets at most.
-/

namespace Hostapd.Wps

open Hostapd.Lib Hostapd.VendorIe

/-- Source: `wps_defs.h`, `WPS_DEV_OUI_WFA`. -/
def wpsDevOuiWfa : ℕ := 0x0050f204

/-- The octets of attributes that one element takes. -/
def maxFragment : ℕ := 251

/-- The loop of `wps_ie_encapsulate`: `data` is what is left between `pos` and `end`. -/
def encapsulateLoop (size : ℕ) : ℕ → Bytes → Bytes → Except Stop Bytes
  | 0, _, ie => .ok ie
  | fuel + 1, data, ie => do
    if data = [] then return ie
    let fragLen := if data.length > maxFragment then maxFragment else data.length
    let ie ← putOctets size ie [wlanEidVendorSpecific]
    let ie ← putOctets size ie [UInt8.ofNat (4 + fragLen)]
    let ie ← putOctets size ie (putBe 4 wpsDevOuiWfa)
    let ie ← putOctets size ie (data.take fragLen)
    encapsulateLoop size fuel (data.drop fragLen) ie

/-- The elements for attributes; `none` without memory. A write behind the end of the buffer ends
the program, in `wpabuf_overflow`. Source: `wps_ie_encapsulate`. -/
def wpsIeEncapsulate (mem : Bool) (data : Bytes) : Except Stop (Option Bytes) := do
  if ¬ mem then return none
  let ie ← encapsulateLoop (data.length + 100) data.length data []
  return some ie

def wpsElement (frag : Bytes) : Record := (wlanEidVendorSpecific, putBe 4 wpsDevOuiWfa ++ frag)

def wpsElements (data : Bytes) : List Record := (pieces maxFragment data).map wpsElement

@[simp] theorem wpsElements_nil : wpsElements [] = [] := by simp [wpsElements]

theorem wpsElements_of_ne_nil {data : Bytes} (h : data ≠ []) :
    wpsElements data =
      wpsElement (data.take maxFragment) :: wpsElements (data.drop maxFragment) := by
  rw [wpsElements, pieces_of_ne_nil (by decide) h, List.map_cons]
  rfl

theorem encode_wpsElement {frag : Bytes} :
    (wpsElement frag).encode 0 = [wlanEidVendorSpecific] ++ ([UInt8.ofNat (4 + frag.length)] ++
      (putBe 4 wpsDevOuiWfa ++ frag)) := by
  simp [wpsElement, Record.encode]

theorem length_encode_wpsElement (frag : Bytes) :
    ((wpsElement frag).encode 0).length = frag.length + 6 := by
  rw [Record.length_encode, wpsElement, List.length_append, length_putBe]
  omega

theorem length_encodeElements_map (frags : List Bytes) :
    (encodeElements (frags.map wpsElement)).length = frags.flatten.length + 6 * frags.length := by
  induction frags with
  | nil => rfl
  | cons frag frags ih =>
    rw [List.map_cons, encodeElements_cons, List.length_append, ih, length_encode_wpsElement,
      List.flatten_cons, List.length_append, List.length_cons]
    omega

theorem length_encodeElements_wpsElements (data : Bytes) :
    (encodeElements (wpsElements data)).length =
      data.length + 6 * ((data.length + 250) / 251) := by
  have hn : 0 < maxFragment := by decide
  rw [wpsElements, length_encodeElements_map, flatten_pieces hn, length_pieces hn]
  rfl

theorem putElement_eq (size : ℕ) (ie frag : Bytes) (f : Bytes → Except Stop Bytes) :
    (do
      let ie ← putOctets size ie [wlanEidVendorSpecific]
      let ie ← putOctets size ie [UInt8.ofNat (4 + frag.length)]
      let ie ← putOctets size ie (putBe 4 wpsDevOuiWfa)
      let ie ← putOctets size ie frag
      f ie) = putOctets size ie ((wpsElement frag).encode 0) >>= f := by
  rw [encode_wpsElement, ← putOctets_bind, bind_assoc]
  refine congrArg _ (funext fun ie => ?_)
  rw [← putOctets_bind, bind_assoc]
  refine congrArg _ (funext fun ie => ?_)
  rw [← putOctets_bind, bind_assoc]

theorem encapsulateLoop_eq {size fuel : ℕ} {data ie : Bytes} (hfuel : data.length ≤ fuel)
    (hie : ie.length ≤ size) :
    encapsulateLoop size fuel data ie = putOctets size ie (encodeElements (wpsElements data)) := by
  have hend {ie : Bytes} (hie : ie.length ≤ size) :
      putOctets size ie (encodeElements (wpsElements [])) = .ok ie := by
    rw [wpsElements_nil, encodeElements_nil, putOctets_of hie, List.append_nil]
  induction fuel generalizing data ie with
  | zero =>
    have hnil : data = [] := List.length_eq_zero_iff.mp (Nat.le_zero.mp hfuel)
    rw [hnil, hend hie, encapsulateLoop]
  | succ fuel ih =>
    rw [encapsulateLoop]
    by_cases hnil : data = []
    · rw [if_pos hnil, hnil, hend hie]
      rfl
    · have hpos : 0 < data.length := List.length_pos_of_ne_nil hnil
      have hfrag : (if data.length > maxFragment then maxFragment else data.length) =
          (data.take maxFragment).length := by
        rw [List.length_take]
        split <;> omega
      have htake : data.take (data.take maxFragment).length = data.take maxFragment := by
        rw [List.length_take, ← List.take_take, List.take_length]
      have hdrop : data.drop (data.take maxFragment).length = data.drop maxFragment := by
        rw [List.length_take]
        rcases Nat.le_total maxFragment data.length with hle | hle
        · rw [Nat.min_eq_left hle]
        · rw [Nat.min_eq_right hle, List.drop_of_length_le hle, List.drop_length]
      rw [if_neg hnil]
      simp only [hfrag, htake, hdrop]
      rw [putElement_eq, wpsElements_of_ne_nil hnil, encodeElements_cons, ← putOctets_bind]
      by_cases hfits : ie.length + ((wpsElement (data.take maxFragment)).encode 0).length ≤ size
      · rw [putOctets_of hfits, ok_bind, ok_bind]
        apply ih
        · rw [List.length_drop]
          have hmax : 0 < maxFragment := by decide
          omega
        · rwa [List.length_append]
      · rw [putOctets, if_neg hfits]
        rfl

/-- Source: `wps_ie_encapsulate`. The elements fit the buffer exactly when their headers fit the 100
octets that were added. -/
theorem wpsIeEncapsulate_eq (data : Bytes) :
    wpsIeEncapsulate true data = if 6 * ((data.length + 250) / 251) ≤ 100 then
      .ok (some (encodeElements (wpsElements data))) else .error .outside := by
  rw [wpsIeEncapsulate, if_neg (by decide),
    encapsulateLoop_eq (Nat.le_refl _) (Nat.zero_le _), putOctets,
    length_encodeElements_wpsElements, List.length_nil, Nat.zero_add, List.nil_append]
  simp only [Nat.add_le_add_iff_left]
  split <;> rfl

/-! ## Reading the elements back -/

theorem isVendor_wpsElement (frag : Bytes) : isVendor wpsDevOuiWfa (wpsElement frag) := by
  have htake : (putBe 4 wpsDevOuiWfa ++ frag).take 4 = putBe 4 wpsDevOuiWfa :=
    List.take_left' (length_putBe 4 _)
  refine decide_eq_true ⟨rfl, ?_, ?_⟩
  · rw [wpsElement, List.length_append, length_putBe]
    omega
  · rw [wpsElement, htake]
    exact beNat_putBe (by decide)

theorem flatMap_wpsElements (data : Bytes) :
    (wpsElements data).flatMap (fun r => r.2.drop 4) = data := by
  have hdrop (frag : Bytes) : (wpsElement frag).2.drop 4 = frag :=
    List.drop_left' (length_putBe 4 _)
  rw [wpsElements, List.flatMap_map]
  simp only [hdrop]
  rw [List.flatMap_id', flatten_pieces (by decide)]

theorem wellFormed_wpsElements {data : Bytes} {r : Record} (h : r ∈ wpsElements data) :
    isVendor wpsDevOuiWfa r ∧ r.2.length < 256 := by
  obtain ⟨frag, hfrag, rfl⟩ := List.mem_map.mp h
  have hle : frag.length ≤ 251 := length_le_of_mem_pieces (by decide) hfrag
  refine ⟨isVendor_wpsElement frag, ?_⟩
  rw [wpsElement, List.length_append, length_putBe]
  omega

/-- What is promised of attributes: their elements are written, and from among other elements, in
front of them, between them and behind them, they are read back; whatever octets are given, the
reader stays inside them. -/
structure Encapsulates (data : Bytes) : Prop where
  roundTrip : ∃ ies : List Record, wpsIeEncapsulate true data = .ok (some (encodeElements ies)) ∧
    (∀ r ∈ ies, isVendor wpsDevOuiWfa r ∧ r.2.length < 256) ∧
    ∀ l : List Record, l.filter (isVendor wpsDevOuiWfa) = ies →
      (∀ r ∈ l, ¬ isVendor wpsDevOuiWfa r → r.2.length < 256) →
      vendorIeConcat true (encodeElements l) wpsDevOuiWfa = .ok (some data)
  inside : ∀ mem ies ouiType, ∃ buf, vendorIeConcat mem ies ouiType = .ok buf

/-- Source: `wps_ie_encapsulate`, `ieee802_11_vendor_ie_concat`. Attributes are put into elements
and read back exactly when they are 4016 octets at most, which 16 elements hold. -/
theorem encapsulation_iff {data : Bytes} (h : data ≠ []) :
    Encapsulates data ↔ data.length ≤ 4016 := by
  have hfits : 6 * ((data.length + 250) / 251) ≤ 100 ↔ data.length ≤ 4016 := by omega
  rw [← hfits]
  constructor
  · rintro ⟨⟨ies, hwritten, -, -⟩, -⟩
    by_contra hnot
    rw [wpsIeEncapsulate_eq, if_neg hnot] at hwritten
    cases hwritten
  · intro hle
    refine ⟨⟨wpsElements data, by rw [wpsIeEncapsulate_eq, if_pos hle],
      fun r hr => wellFormed_wpsElements hr, ?_⟩, ?_⟩
    · intro l hothers hl
      have hlength : ∀ r ∈ l, r.2.length < 256 := by
        intro r hr
        by_cases hvendor : isVendor wpsDevOuiWfa r
        · exact (wellFormed_wpsElements (hothers ▸ List.mem_filter.mpr ⟨hr, hvendor⟩)).2
        · exact hl r hr hvendor
      have hany : l.any (isVendor wpsDevOuiWfa) := by
        rw [wpsElements_of_ne_nil h] at hothers
        rw [List.any_eq_true]
        exact ⟨_, List.mem_filter.mp (hothers ▸ List.mem_cons_self)⟩
      rw [vendorIeConcat_eq, elements_encodeElements hlength, if_pos ⟨hany, rfl⟩, vendorData,
        hothers, flatMap_wpsElements]
    · intro mem ies ouiType
      exact ⟨_, vendorIeConcat_eq mem ies ouiType⟩

/-- The vendor extensions of a Beacon. Source: `wps_build_vendor_ext`. -/
def buildVendorExt (exts : List Bytes) : Bytes := exts.flatMap (putAttr .vendorExt)

theorem length_buildVendorExt (n : ℕ) (ext : Bytes) :
    (buildVendorExt (List.replicate n ext)).length = n * (ext.length + 4) := by
  have hattr : (putAttr .vendorExt ext).length = ext.length + 4 := by
    simp only [putAttr, List.length_append, length_putBe16]
    omega
  rw [buildVendorExt, List.length_flatMap, List.map_replicate, List.sum_replicate_nat, hattr]

/-- Four vendor extensions of 1024 octets are not put into elements: the 17th header does not fit.
-/
theorem four_extensions_overflow :
    ¬ Encapsulates (buildVendorExt (List.replicate 4 (List.replicate 1024 0))) := by
  intro h
  obtain ⟨ies, hwritten, -, -⟩ := h.roundTrip
  have hlength : (buildVendorExt (List.replicate 4 (List.replicate 1024 0))).length = 4112 := by
    rw [length_buildVendorExt, List.length_replicate]
  rw [wpsIeEncapsulate_eq, hlength] at hwritten
  cases hwritten

theorem three_extensions_fit :
    Encapsulates (buildVendorExt (List.replicate 3 (List.replicate 900 0))) := by
  have hlength : (buildVendorExt (List.replicate 3 (List.replicate 900 0))).length = 2712 := by
    rw [length_buildVendorExt, List.length_replicate]
  refine (encapsulation_iff ?_).mpr ?_
  · exact List.ne_nil_of_length_pos (by rw [hlength]; decide)
  · rw [hlength]
    decide

end Hostapd.Wps
