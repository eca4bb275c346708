import Hostapd.Radius.Msg

/-!
# RADIUS messages: what is built is what is received

* **`Holds msg hdr l`**: the buffer of a message is its header followed by the encoded attributes
  `l`, and the offset array points at them. Building keeps it (`addAttr_holds`, `addEap_holds`,
  `copyAttr_holds`, **`build_holds`**), parsing establishes it (`parse_holds`), and it determines
  the attributes (`Holds.attrs_eq`).
* **`finishSrv_spec`**: a finished response is the header with the length and the response
  authenticator, the attributes built, and the Message-Authenticator.
* **`finishSrv_parse`**: parsing a finished response gives the attributes back, `verify` accepts
  it against its request, and `getEap` returns what was given as EAP data. With its
  Message-Authenticator checked, `verify` needs the one `finishSrv` adds to be the only one: the
  check rejects a message with several.
-/

namespace Hostapd.Radius

open Hostapd.Lib

/-! ## The shape of a message -/

/-- A message with the header `hdr` and the attributes `l`: the buffer holds them, within its
allocated size, and the array their offsets. -/
structure Holds (msg : RadiusMsg) (hdr : Bytes) (l : List Record) : Prop where
  hdr_length : hdr.length = hdrLen
  buf : msg.buf = hdr ++ l.flatMap (Record.encode attrHdrLen)
  pos : msg.attrPos = offsets hdrLen l
  payload : ∀ r ∈ l, r.2.length ≤ maxAttrLen
  room : msg.buf.length ≤ msg.size

theorem length_octet_lt {r : Record} (h : r.2.length ≤ maxAttrLen) :
    r.2.length + attrHdrLen < 256 := by
  simp only [maxAttrLen, attrHdrLen] at *
  omega

variable {msg : RadiusMsg} {hdr : Bytes} {l : List Record}

theorem Holds.attrs_eq (h : Holds msg hdr l) :
    attrs msg = l := by
  have := map_readAt_offsets attrHdrLen hdr [] fun r hr =>
    length_octet_lt (h.payload r hr)
  rw [List.append_nil, ← h.buf, h.hdr_length, ← h.pos] at this
  exact this

variable {pos : ℕ}

theorem Holds.exists_attr (h : Holds msg hdr l)
    (hpos : pos ∈ msg.attrPos) :
    ∃ pre r post, msg.buf = pre ++ (r.encode attrHdrLen ++ post) ∧ pre.length = pos ∧
      hdrLen ≤ pos ∧ r.2.length + attrHdrLen < 256 ∧ getAttr msg pos = r := by
  rw [h.pos] at hpos
  obtain ⟨before, r, after, rfl, rfl⟩ := mem_offsets attrHdrLen hpos
  have hoctet : r.2.length + attrHdrLen < 256 := length_octet_lt (h.payload r (by simp))
  have hbuf : msg.buf = (hdr ++ before.flatMap (Record.encode attrHdrLen)) ++
      (r.encode attrHdrLen ++ after.flatMap (Record.encode attrHdrLen)) := by
    rw [h.buf, List.flatMap_append, List.flatMap_cons, List.append_assoc]
  have hlen : (hdr ++ before.flatMap (Record.encode attrHdrLen)).length =
      hdrLen + (before.flatMap (Record.encode attrHdrLen)).length := by
    rw [List.length_append, h.hdr_length]
  refine ⟨_, r, _, hbuf, hlen, Nat.le_add_right _ _, hoctet, ?_⟩
  rw [getAttr, hbuf, ← hlen]
  exact Record.readAt_encode _ _ hoctet

theorem Holds.readAttr_eq (h : Holds msg hdr l)
    (hpos : pos ∈ msg.attrPos) : readAttr msg pos = .ok (getAttr msg pos) := by
  obtain ⟨pre, r, post, hbuf, rfl, -, hoctet, hget⟩ := h.exists_attr hpos
  have htype : rd8 msg.buf pre.length = .ok r.1 := by
    have := rd8_append pre (r.encode attrHdrLen ++ post) 0
    rw [hbuf]
    exact this
  have hlength : rd8 msg.buf (pre.length + 1) = .ok (UInt8.ofNat (r.2.length + attrHdrLen)) := by
    rw [hbuf, rd8_append]
    rfl
  have hpayload : rdSlice msg.buf (pre.length + attrHdrLen)
      (pre.length + (r.2.length + attrHdrLen)) = .ok r.2 := by
    have := rdSlice_middle (pre ++ [r.1, UInt8.ofNat (r.2.length + attrHdrLen)]) r.2 post
    rw [hbuf, Nat.add_comm r.2.length]
    simpa [Record.encode, attrHdrLen, Nat.add_assoc, Nat.add_comm, Nat.add_left_comm] using this
  rw [readAttr, htype, ok_bind, hlength, ok_bind, toNat_length_octet hoctet, hpayload, ok_bind, hget]
  rfl

theorem Holds.readAttrs_eq (h : Holds msg hdr l) :
    readAttrs msg = .ok (attrs msg) := by
  have hmap : ∀ poss : List ℕ, (∀ pos ∈ poss, pos ∈ msg.attrPos) →
      poss.mapM (readAttr msg) = .ok (poss.map (getAttr msg)) := by
    intro poss
    induction poss with
    | nil => exact fun _ => rfl
    | cons pos poss ih =>
      intro hall
      rw [List.mapM_cons, h.readAttr_eq (hall pos List.mem_cons_self), ok_bind,
        ih fun a ha => hall a (List.mem_cons_of_mem pos ha), ok_bind]
      rfl
  exact hmap msg.attrPos fun pos hpos => hpos

theorem new_holds (code identifier : UInt8) :
    Holds (new code identifier) ([code, identifier] ++ List.replicate 18 0) [] :=
  ⟨rfl, rfl, rfl, fun _ hr => (nomatch hr), by simp [new, defaultMsgSize]⟩

/-! ## Building -/

theorem addAttr_eq_none_iff
    (h : Holds msg hdr l) (type : UInt8) (data : Bytes) :
    addAttr msg type data = none ↔ maxAttrLen < data.length := by
  have hroom := h.room
  unfold addAttr
  by_cases hlen : data.length > maxAttrLen
  · simp [hlen]
  · have hput : (makeRoom msg (attrHdrLen + data.length)).buf.length +
        (Record.encode attrHdrLen (type, data)).length ≤
          (makeRoom msg (attrHdrLen + data.length)).size := by
      unfold makeRoom
      rw [Record.length_encode]
      split <;> simp only [attrHdrLen] at * <;> omega
    rw [if_neg hlen]
    simp only [put, if_neg (not_lt.mpr hput), Option.map_some, reduceCtorEq, false_iff]
    omega

theorem addAttr_holds {msg m : RadiusMsg} (h : Holds msg hdr l)
    {type : UInt8} {data : Bytes} (hm : addAttr msg type data = some m) :
    Holds m hdr (l ++ [(type, data)]) := by
  have hlen : ¬ data.length > maxAttrLen := by
    intro hlong
    rw [(addAttr_eq_none_iff h type data).mpr hlong] at hm
    cases hm
  unfold addAttr at hm
  rw [if_neg hlen] at hm
  obtain ⟨m', hput, rfl⟩ := Option.map_eq_some_iff.mp hm
  have hroom : (makeRoom msg (attrHdrLen + data.length)).buf = msg.buf ∧
      (makeRoom msg (attrHdrLen + data.length)).attrPos = msg.attrPos := by
    unfold makeRoom
    split <;> exact ⟨rfl, rfl⟩
  unfold put at hput
  split at hput
  · cases hput
  · rename_i hfits
    cases hput
    refine ⟨h.hdr_length, ?_, ?_, ?_, ?_⟩
    · show (makeRoom msg _).buf ++ _ = _
      rw [hroom.1, h.buf]
      simp
    · show (makeRoom msg _).attrPos ++ _ = _
      rw [hroom.2, h.pos, offsets_append attrHdrLen, h.buf, List.length_append, h.hdr_length]
    · intro r hr
      rcases List.mem_append.mp hr with hr | hr
      · exact h.payload r hr
      · rw [List.mem_singleton.mp hr]
        exact not_lt.mp hlen
    · show (_ ++ _ : Bytes).length ≤ (makeRoom msg _).size
      rw [List.length_append]
      omega

/-- The fragments an EAP packet is sent in: all of the longest payload but the last. -/
def fragments : ℕ → Bytes → List Bytes
  | 0, _ => []
  | n + 1, data =>
    if data.length > 0 then data.take maxAttrLen :: fragments n (data.drop maxAttrLen) else []

theorem flatten_fragments (n : ℕ) (data : Bytes) (h : data.length ≤ n) :
    (fragments n data).flatten = data := by
  induction n generalizing data with
  | zero => exact (List.length_eq_zero_iff.mp (by omega)).symm
  | succ n ih =>
    unfold fragments
    split
    · rw [List.flatten_cons, ih, List.take_append_drop]
      simp only [List.length_drop, maxAttrLen, attrHdrLen]
      omega
    · exact (List.length_eq_zero_iff.mp (by omega)).symm

theorem addEapLoop_holds (n : ℕ)
    (h : Holds msg hdr l) (data : Bytes) :
    (addEapLoop n msg data).1 = true ∧
      Holds (addEapLoop n msg data).2 hdr
        (l ++ (fragments n data).map fun d => (attrEapMessage, d)) := by
  induction n generalizing msg l data with
  | zero => simpa [addEapLoop, fragments] using h
  | succ n ih =>
    unfold addEapLoop fragments
    split
    · have hsome : addAttr msg attrEapMessage (data.take maxAttrLen) ≠ none := by
        rw [Ne, addAttr_eq_none_iff h, List.length_take]
        omega
      obtain ⟨m, hm⟩ := Option.ne_none_iff_exists'.mp hsome
      rw [hm]
      have := ih (addAttr_holds h hm) (data.drop maxAttrLen)
      simpa [List.append_assoc] using this
    · simpa using h

theorem addEap_holds (h : Holds msg hdr l)
    (data : Bytes) :
    (addEap msg data).1 = true ∧
      Holds (addEap msg data).2 hdr
        (l ++ (fragments data.length data).map fun d => (attrEapMessage, d)) :=
  addEapLoop_holds data.length h data

theorem copyAttrLoop_holds (type : UInt8) (src : List Record)
    (hsrc : ∀ r ∈ src, r.2.length ≤ maxAttrLen) (count : ℕ)
    (h : Holds msg hdr l) :
    (copyAttrLoop type src count msg).1 =
        some (count + (src.filter fun r => r.1 = type).length) ∧
      Holds (copyAttrLoop type src count msg).2 hdr (l ++ src.filter fun r => r.1 = type) := by
  induction src generalizing msg l count with
  | nil => simpa [copyAttrLoop] using h
  | cons r src ih =>
    have hrest : ∀ a ∈ src, a.2.length ≤ maxAttrLen := fun a ha =>
      hsrc a (List.mem_cons_of_mem r ha)
    unfold copyAttrLoop
    by_cases htype : r.1 = type
    · have hsome : addAttr msg type r.2 ≠ none := by
        rw [Ne, addAttr_eq_none_iff h]
        exact not_lt.mpr (hsrc r List.mem_cons_self)
      obtain ⟨m, hm⟩ := Option.ne_none_iff_exists'.mp hsome
      obtain ⟨hcount, hholds⟩ := ih hrest (count + 1) (addAttr_holds h hm)
      rw [if_pos htype, hm, List.filter_cons_of_pos (by simpa using htype)]
      refine ⟨hcount.trans (congrArg some ?_), ?_⟩
      · rw [List.length_cons]
        omega
      · rw [show r = (type, r.2) from Prod.ext htype rfl, List.append_cons]
        exact hholds
    · rw [if_neg htype, List.filter_cons_of_neg (by simpa using htype)]
      exact ih hrest count h

theorem copyAttr_holds {msg src : RadiusMsg} {hdr srcHdr : Bytes} {l srcl : List Record}
    (h : Holds msg hdr l) (hsrc : Holds src srcHdr srcl) (type : UInt8) :
    (copyAttr msg src type).1 = some (srcl.filter fun r => r.1 = type).length ∧
      Holds (copyAttr msg src type).2 hdr (l ++ srcl.filter fun r => r.1 = type) := by
  unfold copyAttr
  rw [hsrc.attrs_eq]
  have := copyAttrLoop_holds type srcl hsrc.payload 0 h
  rwa [Nat.zero_add] at this

/-- A message some header and attributes of which it holds, as building and parsing make them. -/
abbrev GoodMsg := { msg : RadiusMsg // ∃ hdr l, Holds msg hdr l }

inductive BuildOp
  | addAttr (type : UInt8) (data : Bytes)
  | addEap (data : Bytes)
  | copyAttr (src : GoodMsg) (type : UInt8)

/-- One building call; a payload that is too long leaves the message as it was. -/
def buildStep (msg : RadiusMsg) : BuildOp → RadiusMsg
  | .addAttr type data => (addAttr msg type data).getD msg
  | .addEap data => (addEap msg data).2
  | .copyAttr src type => (copyAttr msg src type).2

/-- The message that `radius_msg_new` and a sequence of calls build. -/
def build (code identifier : UInt8) (ops : List BuildOp) : RadiusMsg :=
  ops.foldl buildStep (new code identifier)

/-- The attributes a building call is asked to append. -/
def BuildOp.given : BuildOp → List Record
  | .addAttr type data => if data.length ≤ maxAttrLen then [(type, data)] else []
  | .addEap data => (fragments data.length data).map fun d => (attrEapMessage, d)
  | .copyAttr src type => (attrs src.1).filter fun r => r.1 = type

theorem buildStep_holds (h : Holds msg hdr l)
    (op : BuildOp) : Holds (buildStep msg op) hdr (l ++ op.given) := by
  cases op with
  | addAttr type data =>
    simp only [buildStep, BuildOp.given]
    cases hm : Radius.addAttr msg type data with
    | none =>
      rw [if_neg (not_le.mpr ((addAttr_eq_none_iff h type data).mp hm))]
      simpa using h
    | some m =>
      have hlen : data.length ≤ maxAttrLen := by
        by_contra hlong
        rw [(addAttr_eq_none_iff h type data).mpr (not_le.mp hlong)] at hm
        cases hm
      rw [if_pos hlen]
      exact addAttr_holds h hm
  | addEap data => exact (addEap_holds h data).2
  | copyAttr src type =>
    obtain ⟨src, srcHdr, srcl, hsrc⟩ := src
    have := (copyAttr_holds h hsrc type).2
    rwa [← hsrc.attrs_eq] at this

theorem foldl_buildStep_holds (ops : List BuildOp)
    (h : Holds msg hdr l) :
    Holds (ops.foldl buildStep msg) hdr (l ++ ops.flatMap BuildOp.given) := by
  induction ops generalizing msg l with
  | nil => simpa using h
  | cons op ops ih =>
    rw [List.flatMap_cons, ← List.append_assoc]
    exact ih (buildStep_holds h op)

theorem build_holds (code identifier : UInt8) (ops : List BuildOp) :
    Holds (build code identifier ops) ([code, identifier] ++ List.replicate 18 0)
      (ops.flatMap BuildOp.given) :=
  foldl_buildStep_holds ops (new_holds code identifier)

/-! ## Parsing -/

theorem parseLoop_encoded (n : ℕ) (msg : RadiusMsg) (pre : Bytes) (l : List Record)
    (hbuf : msg.buf = pre ++ l.flatMap (Record.encode attrHdrLen))
    (hl : ∀ r ∈ l, r.2.length ≤ maxAttrLen) (hn : l.length ≤ n) :
    ∃ m, parseLoop n msg pre.length = some m ∧ m.buf = msg.buf ∧ m.size = msg.size ∧
      m.attrPos = msg.attrPos ++ offsets pre.length l := by
  induction n generalizing msg pre l with
  | zero =>
    obtain rfl := List.length_eq_zero_iff.mp (Nat.le_zero.mp hn)
    exact ⟨msg, rfl, rfl, rfl, by simp [offsets]⟩
  | succ n ih =>
    cases l with
    | nil =>
      refine ⟨msg, ?_, rfl, rfl, by simp [offsets]⟩
      rw [parseLoop, if_neg (by simp [hbuf])]
    | cons r l =>
      have hr := hl r List.mem_cons_self
      rw [List.flatMap_cons] at hbuf
      have hlen : (msg.buf.getD (pre.length + 1) 0).toNat = r.2.length + attrHdrLen := by
        rw [hbuf, (getD_encode attrHdrLen pre _ r).2, toNat_length_octet (length_octet_lt hr)]
      have hsize : msg.buf.length =
          pre.length + (r.2.length + 2) + (l.flatMap (Record.encode attrHdrLen)).length := by
        rw [hbuf, List.length_append, List.length_append, Record.length_encode]
        omega
      have hbuf' : (addAttrToArray msg pre.length).buf =
          (pre ++ r.encode attrHdrLen) ++ l.flatMap (Record.encode attrHdrLen) := by
        rw [List.append_assoc]
        exact hbuf
      obtain ⟨m, hm, hmbuf, hmsize, hmpos⟩ := ih (addAttrToArray msg pre.length)
        (pre ++ r.encode attrHdrLen) l hbuf' (fun a ha => hl a (List.mem_cons_of_mem r ha))
        (by simpa using hn)
      rw [List.length_append, Record.length_encode] at hm hmpos
      refine ⟨m, ?_, hmbuf, hmsize, ?_⟩
      · rw [parseLoop, if_pos (by omega), if_neg (by simp only [attrHdrLen]; omega)]
        dsimp only
        rw [hlen, if_neg (by simp only [attrHdrLen]; omega)]
        exact hm
      · rw [hmpos]
        simp [addAttrToArray, offsets]

/-- Parsing what a message holds, when its length field says so and fits, gives the message
back. -/
theorem parse_encoded (hhdr : hdr.length = hdrLen)
    (hl : ∀ r ∈ l, r.2.length ≤ maxAttrLen)
    (hlen : be16 (hdr.drop 2) = (hdr ++ l.flatMap (Record.encode attrHdrLen)).length) :
    ∃ m, parse (hdr ++ l.flatMap (Record.encode attrHdrLen)) = some m ∧ Holds m hdr l := by
  have hbe : be16 ((hdr ++ l.flatMap (Record.encode attrHdrLen)).drop 2) = be16 (hdr.drop 2) := by
    simp only [be16, hdrLen] at *
    rw [List.drop_append_of_le_length (by omega)]
    simp only [List.getD_eq_getElem?_getD, List.getElem?_append_left, List.length_drop, hhdr,
      Nat.reduceSub, Nat.reduceLT]
  have hge : hdrLen ≤ (hdr ++ l.flatMap (Record.encode attrHdrLen)).length := by
    rw [List.length_append, hhdr]
    omega
  have hcount : l.length ≤ (hdr ++ l.flatMap (Record.encode attrHdrLen)).length := by
    have : l.length ≤ (l.flatMap (Record.encode attrHdrLen)).length := by
      clear hl hlen hbe hge
      induction l with
      | nil => simp
      | cons r l ih =>
        rw [List.flatMap_cons, List.length_append, Record.length_encode, List.length_cons]
        omega
    rw [List.length_append]
    omega
  obtain ⟨m, hm, hbuf, hsize, hpos⟩ := parseLoop_encoded _
    { buf := hdr ++ l.flatMap (Record.encode attrHdrLen)
      size := (hdr ++ l.flatMap (Record.encode attrHdrLen)).length
      attrPos := []
      attrSize := defaultAttrCount } hdr l rfl hl hcount
  rw [hhdr] at hm hpos
  refine ⟨m, ?_, hhdr, hbuf, hpos, hl, by rw [hbuf, hsize]⟩
  unfold parse
  rw [if_neg (by omega)]
  dsimp only
  rw [hbe, hlen, if_neg (by omega), List.take_length]
  exact hm

theorem encode_readAt {buf : Bytes} (hpos : pos < buf.length)
    (hge : attrHdrLen ≤ (buf.getD (pos + 1) 0).toNat)
    (hfit : pos + (buf.getD (pos + 1) 0).toNat ≤ buf.length) :
    (Record.readAt attrHdrLen buf pos).encode attrHdrLen =
        (buf.drop pos).take (buf.getD (pos + 1) 0).toNat ∧
      (Record.readAt attrHdrLen buf pos).2.length = (buf.getD (pos + 1) 0).toNat - attrHdrLen := by
  simp only [attrHdrLen] at *
  have hlen : (Record.readAt 2 buf pos).2.length = (buf.getD (pos + 1) 0).toNat - 2 := by
    simp only [Record.readAt, List.length_take, List.length_drop]
    omega
  refine ⟨?_, hlen⟩
  have hoctet : UInt8.ofNat ((Record.readAt 2 buf pos).2.length + 2) = buf.getD (pos + 1) 0 := by
    rw [hlen, Nat.sub_add_cancel hge, UInt8.ofNat_toNat]
  have hpos' : pos + 1 < buf.length := by omega
  obtain ⟨k, hk⟩ := Nat.exists_eq_add_of_le' hge
  rw [Record.encode, hoctet, hk, ← List.cons_getElem_drop_succ (h := hpos),
    ← List.cons_getElem_drop_succ (h := hpos'), List.take_succ_cons, List.take_succ_cons]
  simp only [Record.readAt, hk, Nat.add_sub_cancel]
  simp [List.getD_eq_getElem?_getD, hpos, hpos']

/-- Where the parsing loop stands: the octets up to `pos` are the header and the attributes `l`,
whose offsets have been stored. -/
structure Scanned (msg : RadiusMsg) (hdr : Bytes) (l : List Record) (pos : ℕ) : Prop where
  pos_le : pos ≤ msg.buf.length
  hdr_length : hdr.length = hdrLen
  front : msg.buf.take pos = hdr ++ l.flatMap (Record.encode attrHdrLen)
  array : msg.attrPos = offsets hdrLen l
  payload : ∀ r ∈ l, r.2.length ≤ maxAttrLen
  room : msg.buf.length ≤ msg.size

theorem Scanned.holds
    (h : Scanned msg hdr l pos) (hend : msg.buf.length ≤ pos) : Holds msg hdr l :=
  ⟨h.hdr_length, by rw [← h.front, List.take_of_length_le hend], h.array, h.payload, h.room⟩

theorem Scanned.next
    (h : Scanned msg hdr l pos) (hlt : pos < msg.buf.length)
    (hge : attrHdrLen ≤ (msg.buf.getD (pos + 1) 0).toNat)
    (hfit : pos + (msg.buf.getD (pos + 1) 0).toNat ≤ msg.buf.length) :
    Scanned (addAttrToArray msg pos) hdr (l ++ [getAttr msg pos])
      (pos + (msg.buf.getD (pos + 1) 0).toNat) := by
  obtain ⟨henc, hrlen⟩ := encode_readAt hlt hge hfit
  have hoctet : (msg.buf.getD (pos + 1) 0).toNat < 256 := UInt8.toNat_lt _
  have hfrontLen := congrArg List.length h.front
  rw [List.length_take, Nat.min_eq_left h.pos_le, List.length_append, h.hdr_length] at hfrontLen
  refine ⟨hfit, h.hdr_length, ?_, ?_, ?_, h.room⟩
  · show msg.buf.take _ = _
    rw [List.take_add, h.front, List.flatMap_append, List.flatMap_singleton, getAttr, henc,
      List.append_assoc]
  · show msg.attrPos ++ [pos] = _
    rw [h.array, offsets_append attrHdrLen, ← hfrontLen]
  · intro r hr
    rcases List.mem_append.mp hr with hr | hr
    · exact h.payload r hr
    · rw [List.mem_singleton.mp hr, getAttr, hrlen]
      simp only [attrHdrLen, maxAttrLen]
      omega

theorem parseLoop_holds (n : ℕ) {msg m : RadiusMsg}
    (hs : Scanned msg hdr l pos) (hn : msg.buf.length - pos ≤ n)
    (h : parseLoop n msg pos = some m) : ∃ l', Holds m hdr l' := by
  induction n generalizing msg l pos with
  | zero =>
    cases h
    exact ⟨l, hs.holds (by omega)⟩
  | succ n ih =>
    unfold parseLoop at h
    split at h
    · rename_i hlt
      dsimp only at h
      split at h
      · cases h
      · split at h
        · cases h
        · rename_i hfit
          rw [not_or, not_lt, not_lt] at hfit
          refine ih (hs.next hlt hfit.2 hfit.1) ?_ h
          have hge : 2 ≤ (msg.buf.getD (pos + 1) 0).toNat := hfit.2
          show msg.buf.length - _ ≤ n
          omega
    · cases h
      exact ⟨l, hs.holds (by omega)⟩

theorem parse_holds {data : Bytes} {m : RadiusMsg} (h : parse data = some m) :
    ∃ hdr l, Holds m hdr l := by
  unfold parse at h
  dsimp only at h
  split at h
  · cases h
  · split at h
    · cases h
    · rename_i hlen
      rw [not_or, not_lt, not_lt] at hlen
      have hfront : (data.take (be16 (data.drop 2))).take hdrLen = data.take hdrLen := by
        rw [List.take_take, min_eq_left hlen.1]
      refine ⟨data.take hdrLen, parseLoop_holds (l := []) _
        ⟨?_, List.length_take_of_le (by omega), by simpa using hfront, rfl,
          fun _ hr => (nomatch hr), ?_⟩ ?_ h⟩
      all_goals simp only [List.length_take]
      all_goals omega

/-! ## Finishing and verifying -/

/-- The octets of a finished response in its parts: the header with its length and authenticator,
the encoded attributes, and the Message-Authenticator. -/
def wire (code identifier : UInt8) (length auth body mac : Bytes) : Bytes :=
  [code, identifier] ++ (length ++ (auth ++ (body ++
    ([attrMessageAuthenticator, 18] ++ mac))))

section Wire

variable {code identifier : UInt8} {length auth body mac : Bytes}

theorem wire_write_length {new : Bytes} (h : length.length = new.length) :
    overwrite (wire code identifier length auth body mac) 2 new =
      wire code identifier new auth body mac :=
  overwrite_append rfl h

theorem wire_write_auth {new : Bytes} (hlen : length.length = 2) (h : auth.length = new.length) :
    overwrite (wire code identifier length auth body mac) 4 new =
      wire code identifier length new body mac := by
  unfold wire
  rw [← List.append_assoc, overwrite_append (by simp [hlen]) h, List.append_assoc]

theorem wire_write_mac {new : Bytes} (hlen : length.length = 2) (hauth : auth.length = 16)
    (h : mac.length = new.length) :
    overwrite (wire code identifier length auth body mac) (20 + body.length + 2) new =
      wire code identifier length auth body new := by
  have hsplit : ∀ mac : Bytes, wire code identifier length auth body mac =
      ([code, identifier] ++ length ++ auth ++ body ++ [attrMessageAuthenticator, 18]) ++
        (mac ++ []) := fun mac => by simp [wire]
  rw [hsplit, hsplit, overwrite_append _ h]
  simp only [List.length_append, List.length_cons, List.length_nil, hlen, hauth]

theorem wire_take (h : length.length = 2) :
    (wire code identifier length auth body mac).take 4 = [code, identifier] ++ length := by
  unfold wire
  rw [← List.append_assoc, List.take_append_of_le_length (by simp [h]),
    List.take_of_length_le (by simp [h])]

theorem wire_auth (h : length.length = 2) (hauth : auth.length = 16) :
    ((wire code identifier length auth body mac).drop 4).take 16 = auth := by
  unfold wire
  rw [← List.append_assoc, List.drop_left' (by simp [h]), List.take_left' hauth]

theorem wire_drop (h : length.length = 2) (hauth : auth.length = 16) :
    (wire code identifier length auth body mac).drop hdrLen =
      body ++ ([attrMessageAuthenticator, 18] ++ mac) := by
  unfold wire
  rw [← List.append_assoc, ← List.append_assoc, List.drop_left' (by simp [h, hauth, hdrLen])]

theorem wire_mac (h : length.length = 2) (hauth : auth.length = 16) (hmac : mac.length = 16) :
    ((wire code identifier length auth body mac).drop (20 + body.length + 2)).take 16 = mac := by
  have hsplit : wire code identifier length auth body mac =
      ([code, identifier] ++ length ++ auth ++ body ++ [attrMessageAuthenticator, 18]) ++ mac := by
    simp [wire]
  rw [hsplit, List.drop_left' (by simp [h, hauth]; omega), List.take_of_length_le hmac.le]

theorem wire_eq (l : List Record) (hmac : mac.length = 16) :
    wire code identifier length auth (l.flatMap (Record.encode attrHdrLen)) mac =
      ([code, identifier] ++ length ++ auth) ++
        (l ++ [(attrMessageAuthenticator, mac)]).flatMap (Record.encode attrHdrLen) := by
  simp [wire, Record.encode, hmac, attrHdrLen]

end Wire

section Digests

variable (hmacMd5 : Bytes → Bytes → Digest) (md5Vector : List Bytes → Digest)

/-- A finished response: its two authenticators over its parts, and the attributes it holds. -/
structure Finished (code identifier : UInt8) (l : List Record) (secret req resp mac : Bytes)
    (msg : RadiusMsg) : Prop where
  mac_eq : mac = (hmacMd5 secret (wire code identifier (putBe16 msg.buf.length) req
    (l.flatMap (Record.encode attrHdrLen)) (List.replicate 16 0))).toList
  resp_eq : resp = (md5Vector [[code, identifier] ++ putBe16 msg.buf.length, req,
    l.flatMap (Record.encode attrHdrLen) ++ ([attrMessageAuthenticator, 18] ++ mac),
    secret]).toList
  holds : Holds msg ([code, identifier] ++ putBe16 msg.buf.length ++ resp)
    (l ++ [(attrMessageAuthenticator, mac)])

variable {hmacMd5 md5Vector}

theorem Finished.buf_eq {code identifier : UInt8} {l : List Record}
    {secret req resp mac : Bytes} {msg : RadiusMsg}
    (h : Finished hmacMd5 md5Vector code identifier l secret req resp mac msg) :
    msg.buf = wire code identifier (putBe16 msg.buf.length) resp
      (l.flatMap (Record.encode attrHdrLen)) mac := by
  have hmac : mac.length = 16 := by rw [h.mac_eq, Vector.length_toList]
  rw [wire_eq l hmac]
  exact h.holds.buf

/-- `finishSrv` finishes a message whose header is still zero, and reports whether its length
fits the length field. -/
theorem finishSrv_spec {msg : RadiusMsg} {code identifier : UInt8} {l : List Record}
    (h : Holds msg ([code, identifier] ++ List.replicate 18 0) l) (secret : Bytes)
    (req : Digest) :
    ∃ resp mac,
      Finished hmacMd5 md5Vector code identifier l secret req.toList resp mac
        (finishSrv hmacMd5 md5Vector msg secret req).2 ∧
      ((finishSrv hmacMd5 md5Vector msg secret req).1 = true ↔
        (finishSrv hmacMd5 md5Vector msg secret req).2.buf.length ≤ 0xffff) := by
  have hsome : addAttr msg attrMessageAuthenticator (List.replicate 16 0) ≠ none := by
    rw [Ne, addAttr_eq_none_iff h, List.length_replicate]
    decide
  obtain ⟨m, hm⟩ := Option.ne_none_iff_exists'.mp hsome
  have hm1 := addAttr_holds h hm
  set body := l.flatMap (Record.encode attrHdrLen) with hbody
  have hpos : msg.buf.length = 20 + body.length := by
    rw [h.buf, List.length_append, h.hdr_length, hdrLen]
  have hzero : m.buf = wire code identifier [0, 0] (List.replicate 16 0) body
      (List.replicate 16 0) := by
    rw [wire_eq l (List.length_replicate ..), hm1.buf]
    rfl
  have hwire : ∀ length auth mac : Bytes, length.length = 2 → auth.length = 16 →
      mac.length = 16 → (wire code identifier length auth body mac).length = m.buf.length := by
    intro length auth mac h1 h2 h3
    simp only [hzero, wire, List.length_append, List.length_cons, List.length_nil,
      List.length_replicate, h1, h2, h3]
  set n := m.buf.length with hn
  set mac := (hmacMd5 secret
    (wire code identifier (putBe16 n) req.toList body (List.replicate 16 0))).toList with hmac
  set resp := (md5Vector [[code, identifier] ++ putBe16 n, req.toList,
    body ++ ([attrMessageAuthenticator, 18] ++ mac), secret]).toList with hresp
  have hbuf : (finishSrv hmacMd5 md5Vector msg secret req).2.buf =
      wire code identifier (putBe16 n) resp body mac := by
    have hlength : overwrite m.buf 2 (putBe16 n) = wire code identifier (putBe16 n)
        (List.replicate 16 0) body (List.replicate 16 0) := by
      rw [hzero]
      exact wire_write_length rfl
    have hauth : overwrite (wire code identifier (putBe16 n) (List.replicate 16 0) body
        (List.replicate 16 0)) 4 req.toList = wire code identifier (putBe16 n) req.toList body
          (List.replicate 16 0) := wire_write_auth rfl (by simp)
    have hattr : overwrite (wire code identifier (putBe16 n) req.toList body
        (List.replicate 16 0)) (20 + body.length + 2) mac =
          wire code identifier (putBe16 n) req.toList body mac :=
      wire_write_mac rfl (by simp) (by simp [hmac])
    have hresponse : overwrite (wire code identifier (putBe16 n) req.toList body mac) 4 resp =
        wire code identifier (putBe16 n) resp body mac := wire_write_auth rfl (by simp [hresp])
    simp only [finishSrv, hm, RadiusMsg.write, responseAuth, hpos, attrHdrLen]
    rw [← hn, hlength, hauth, ← hmac, hattr, wire_take rfl, wire_drop rfl (by simp), ← hresp,
      hresponse]
  have hlen : (finishSrv hmacMd5 md5Vector msg secret req).2.buf.length = n := by
    rw [hbuf, hwire _ _ _ rfl (by simp [hresp]) (by simp [hmac])]
  refine ⟨resp, mac, ⟨?_, ?_, ?_⟩, ?_⟩
  · rw [hlen]
  · rw [hlen]
  · refine ⟨by simp [hresp, hdrLen], ?_, ?_, ?_, ?_⟩
    · rw [hlen, hbuf, hbody, wire_eq l (by simp [hmac])]
    · simp only [finishSrv, hm, RadiusMsg.write]
      rw [hm1.pos, offsets_append attrHdrLen, offsets_append attrHdrLen]
    · intro r hr
      rcases List.mem_append.mp hr with hr | hr
      · exact h.payload r hr
      · rw [List.mem_singleton.mp hr]
        simp [hmac, maxAttrLen, attrHdrLen]
    · rw [hlen]
      simpa only [finishSrv, hm, RadiusMsg.write] using hm1.room
  · simp only [finishSrv, hm, decide_eq_true_eq]

section Received

variable {code identifier : UInt8} {l : List Record} {secret req resp mac : Bytes}
  {msg m : RadiusMsg}

theorem Finished.lengths
    (h : Finished hmacMd5 md5Vector code identifier l secret req resp mac msg) :
    mac.length = 16 ∧ resp.length = 16 := by
  rw [h.mac_eq, h.resp_eq, Vector.length_toList, Vector.length_toList]
  exact ⟨rfl, rfl⟩

theorem Finished.parse (h : Finished hmacMd5 md5Vector code identifier l secret req resp mac msg)
    (hlen : msg.buf.length ≤ 0xffff) :
    ∃ m, Radius.parse msg.buf = some m ∧ m.buf = msg.buf ∧ attrs m = attrs msg ∧
      Finished hmacMd5 md5Vector code identifier l secret req resp mac m := by
  have hbe : be16 (([code, identifier] ++ putBe16 msg.buf.length ++ resp).drop 2) =
      (([code, identifier] ++ putBe16 msg.buf.length ++ resp) ++
        (l ++ [(attrMessageAuthenticator, mac)]).flatMap (Record.encode attrHdrLen)).length := by
    rw [← h.holds.buf, List.append_assoc]
    show be16 (putBe16 msg.buf.length ++ resp) = _
    exact be16_putBe16 (by omega) resp
  obtain ⟨m, hm, hholds⟩ := parse_encoded h.holds.hdr_length h.holds.payload hbe
  rw [← h.holds.buf] at hm
  have hbuf : m.buf = msg.buf := hholds.buf.trans h.holds.buf.symm
  refine ⟨m, hm, hbuf, by rw [hholds.attrs_eq, h.holds.attrs_eq], ?_, ?_, ?_⟩
  · rw [hbuf]
    exact h.mac_eq
  · rw [hbuf]
    exact h.resp_eq
  · rw [hbuf]
    exact hholds

/-- The search for the Message-Authenticator finds the one `finishSrv` has added, if it is the
only one. -/
theorem Finished.findMsgAuth
    (h : Finished hmacMd5 md5Vector code identifier l secret req resp mac m)
    (honly : ∀ r ∈ l, r.1 ≠ attrMessageAuthenticator) :
    findMsgAuth m = some (20 + (l.flatMap (Record.encode attrHdrLen)).length) := by
  have hattrs := h.holds.attrs_eq
  have hpos := h.holds.pos
  rw [offsets_append attrHdrLen] at hpos
  have hsplit : (offsets hdrLen l).map (getAttr m) = l ∧
      getAttr m (hdrLen + (l.flatMap (Record.encode attrHdrLen)).length) =
        (attrMessageAuthenticator, mac) := by
    unfold attrs at hattrs
    rw [hpos, List.map_append, List.map_singleton] at hattrs
    obtain ⟨hl, hlast⟩ := List.append_inj hattrs (by simp)
    exact ⟨hl, by simpa using hlast⟩
  have hnone : (offsets hdrLen l).filter
      (fun pos => (getAttr m pos).1 = attrMessageAuthenticator) = [] := by
    refine List.filter_eq_nil_iff.mpr fun pos hmem => ?_
    have : getAttr m pos ∈ l := by
      rw [← hsplit.1]
      exact List.mem_map_of_mem hmem
    simpa using honly _ this
  unfold Radius.findMsgAuth
  rw [hpos, List.filter_append, hnone, List.filter_singleton, hsplit.2]
  rfl

/-- A finished response passes the check of its Message-Authenticator, if that is its only one.
-/
theorem Finished.verifyMsgAuth
    (h : Finished hmacMd5 md5Vector code identifier l secret req resp mac m)
    (hreq : req.length = 16) (honly : ∀ r ∈ l, r.1 ≠ attrMessageAuthenticator) :
    verifyMsgAuth hmacMd5 m secret (some req) = 0 := by
  obtain ⟨hmac, hresp⟩ := h.lengths
  have hfind := h.findMsgAuth honly
  have hbuf := h.buf_eq
  have hmacEq := h.mac_eq
  generalize l.flatMap (Record.encode attrHdrLen) = body at hfind hbuf hmacEq
  unfold Radius.verifyMsgAuth
  rw [hfind]
  dsimp only [RadiusMsg.write, attrHdrLen]
  rw [hbuf, wire_mac rfl hresp hmac, wire_write_mac rfl hresp (by simpa using hmac),
    wire_write_auth rfl (by rw [hresp, hreq]), if_pos]
  exact hmacEq

/-- A finished response verifies against its request, when its Message-Authenticator is not
checked or is its only one. -/
theorem Finished.verify
    (h : Finished hmacMd5 md5Vector code identifier l secret req resp mac m)
    (hreq : req.length = 16) {sent : RadiusMsg} (hsent : authenticator sent = req) (auth : Bool)
    (honly : auth = true → ∀ r ∈ l, r.1 ≠ attrMessageAuthenticator) :
    verify hmacMd5 md5Vector m secret (some sent) auth = 0 := by
  obtain ⟨hmac, hresp⟩ := h.lengths
  have hauth : authenticator m = resp := by
    rw [authenticator, h.buf_eq, wire_auth rfl hresp]
  have hresponse : (responseAuth md5Vector m req secret).toList = resp := by
    have htake : m.buf.take 4 = [code, identifier] ++ putBe16 m.buf.length := by
      rw [h.buf_eq, wire_take rfl, ← h.buf_eq]
    have hdrop : m.buf.drop hdrLen = l.flatMap (Record.encode attrHdrLen) ++
        ([attrMessageAuthenticator, 18] ++ mac) := by
      rw [h.buf_eq, wire_drop rfl hresp]
    rw [responseAuth, htake, hdrop]
    exact h.resp_eq.symm
  unfold Radius.verify
  dsimp only
  rw [hsent, hauth, hresponse, if_pos rfl, if_neg]
  rintro ⟨hon, hbad⟩
  exact hbad (h.verifyMsgAuth hreq (honly hon))

theorem Finished.getEap
    (h : Finished hmacMd5 md5Vector code identifier l secret req resp mac m) :
    getEap m = if ((l.filter fun r => r.1 = attrEapMessage).flatMap Prod.snd).length = 0 then none
      else some ((l.filter fun r => r.1 = attrEapMessage).flatMap Prod.snd) := by
  unfold Radius.getEap
  rw [h.holds.attrs_eq, List.filter_append]
  simp [attrMessageAuthenticator, attrEapMessage]

end Received

/-- The EAP payloads of building calls of which one is `addEap data` and no other one gives an
EAP-Message attribute are `data`. -/
theorem eap_of_given {pre post : List BuildOp} {data : Bytes}
    (hother : ∀ op ∈ pre ++ post, ∀ r ∈ op.given, r.1 ≠ attrEapMessage) :
    (((pre ++ [BuildOp.addEap data] ++ post).flatMap BuildOp.given).filter
      fun r => r.1 = attrEapMessage).flatMap Prod.snd = data := by
  have hnone : ∀ ops : List BuildOp, (∀ op ∈ ops, op ∈ pre ++ post) →
      (ops.flatMap BuildOp.given).filter (fun r => r.1 = attrEapMessage) = [] := by
    intro ops hops
    refine List.filter_eq_nil_iff.mpr fun r hr => ?_
    obtain ⟨op, hop, hmem⟩ := List.mem_flatMap.mp hr
    simpa using hother op (hops op hop) r hmem
  have heap : (BuildOp.addEap data).given.filter (fun r => r.1 = attrEapMessage) =
      (BuildOp.addEap data).given := by
    refine List.filter_eq_self.mpr fun r hr => ?_
    obtain ⟨d, -, rfl⟩ := List.mem_map.mp hr
    simp
  rw [List.flatMap_append, List.flatMap_append, List.filter_append, List.filter_append,
    hnone pre fun op hop => List.mem_append_left _ hop,
    hnone post fun op hop => List.mem_append_right _ hop, List.flatMap_singleton, heap]
  simp only [List.nil_append, List.append_nil, BuildOp.given]
  rw [List.flatMap_map, List.flatMap_id', flatten_fragments _ _ le_rfl]

/-- **Round trip.** A message built by any calls and finished for a request and a secret parses;
the parsed message has the attributes of the finished one, which are those given and the
Message-Authenticator; it verifies against any message with the request's authenticator, its
Message-Authenticator included if none was given; and the EAP packet of a single `addEap` comes
back when nothing else gave EAP-Message attributes. -/
theorem finishSrv_parse (hmacMd5 : Bytes → Bytes → Digest) (md5Vector : List Bytes → Digest)
    (code identifier : UInt8) (ops : List BuildOp) (secret : Bytes) (req : Digest)
    (hfin : (finishSrv hmacMd5 md5Vector (build code identifier ops) secret req).1 = true) :
    ∃ m mac,
      parse (finishSrv hmacMd5 md5Vector (build code identifier ops) secret req).2.buf = some m ∧
      attrs m = attrs (finishSrv hmacMd5 md5Vector (build code identifier ops) secret req).2 ∧
      attrs m = ops.flatMap BuildOp.given ++ [(attrMessageAuthenticator, mac)] ∧
      (∀ sent auth, authenticator sent = req.toList →
        (auth = true → ∀ r ∈ ops.flatMap BuildOp.given, r.1 ≠ attrMessageAuthenticator) →
        verify hmacMd5 md5Vector m secret (some sent) auth = 0) ∧
      ∀ pre data post, ops = pre ++ [BuildOp.addEap data] ++ post → data ≠ [] →
        (∀ op ∈ pre ++ post, ∀ r ∈ op.given, r.1 ≠ attrEapMessage) → getEap m = some data := by
  obtain ⟨resp, mac, hfinished, hfits⟩ := @finishSrv_spec hmacMd5 md5Vector _ _ _ _
    (build_holds code identifier ops) secret req
  obtain ⟨m, hm, -, hattrs, hm'⟩ := hfinished.parse (hfits.mp hfin)
  refine ⟨m, mac, hm, hattrs, hm'.holds.attrs_eq, ?_, ?_⟩
  · intro sent auth hsent honly
    exact hm'.verify (by simp) hsent auth honly
  · intro pre data post hops hdata hother
    rw [hm'.getEap, hops, eap_of_given hother, if_neg]
    exact fun hzero => hdata (List.length_eq_zero_iff.mp hzero)

end Digests

/-- A digest and a request with that authenticator, for runs on fixed inputs. -/
def zeroDigest : Digest := Vector.replicate 16 0

def zeroRequest : RadiusMsg := new 1 7

theorem finishSrv_parse_challenge :
    ∃ m, parse (finishSrv (fun _ _ => zeroDigest) (fun _ => zeroDigest)
        (build 11 7 [.addAttr 24 [1, 2], .addEap [3, 4, 5]]) [6] zeroDigest).2.buf = some m ∧
      verify (fun _ _ => zeroDigest) (fun _ => zeroDigest) m [6] (some zeroRequest) true = 0 ∧
      getEap m = some [3, 4, 5] := by
  obtain ⟨m, mac, hm, -, -, hverify, heap⟩ := finishSrv_parse (fun _ _ => zeroDigest)
    (fun _ => zeroDigest) 11 7 [.addAttr 24 [1, 2], .addEap [3, 4, 5]] [6] zeroDigest (by decide)
  exact ⟨m, hm, hverify zeroRequest true (by decide) (by decide),
    heap [.addAttr 24 [1, 2]] [3, 4, 5] [] rfl (by decide) (by decide)⟩

/-- A response to which a Message-Authenticator had been added before it was finished carries two
of them, and is rejected when the check is asked for. -/
theorem two_message_authenticators_rejected :
    (finishSrv (fun _ _ => zeroDigest) (fun _ => zeroDigest)
        (build 2 7 [.addAttr attrMessageAuthenticator zeroDigest.toList]) [6] zeroDigest).1 = true ∧
      authenticator zeroRequest = zeroDigest.toList ∧
      (parse (finishSrv (fun _ _ => zeroDigest) (fun _ => zeroDigest)
          (build 2 7 [.addAttr attrMessageAuthenticator zeroDigest.toList]) [6]
          zeroDigest).2.buf).map
        (fun m => verify (fun _ _ => zeroDigest) (fun _ => zeroDigest) m [6] (some zeroRequest)
          true) = some 1 := by
  refine ⟨by decide, by decide, ?_⟩
  decide +kernel

end Hostapd.Radius
