import Hostapd.Radius.MppeKeys

/-!
# RADIUS attribute accessors, with bounds

The accessors of a parsed message, each reading and writing with bounds: what they touch of the
message is inside it, for every length that the parser admits for an attribute.

* **`readVlanid_eq`**, **`verifyMsgAuthUpTo_eq`**: where nothing is touched outside, they compute
  what the models without bounds do, and the check leaves the message as it was.
* **`accessors_inside_iff`**: all of them stay inside every parsed message, unless its only
  Message-Authenticator has fewer than 16 octets behind its header.
-/

namespace Hostapd.Radius

open Hostapd.Lib

/-! ## The accessors -/

/-- Copy the payload of the first attribute of a type into a buffer of `room` octets, if there is
one, and give its length back. Source: `radius_msg_get_attr`. -/
def msgGetAttr (msg : RadiusMsg) (type : UInt8) (room : Option ℕ) :
    Except Stop (Option (ℕ × Bytes)) := do
  let l ← readAttrs msg
  match l.find? fun attr => attr.1 = type with
  | none => return none
  | some attr =>
    let dlen := attr.2.length
    match room with
    | none => return some (dlen, [])
    | some len => do
      let data ← rdSlice attr.2 0 (if dlen > len then len else dlen)
      let buf ← putOctets len [] data
      return some (dlen, buf)

/-- The loop body of `radius_msg_get_vlanid`, with its buffer of ten characters. -/
def readTunnel (tunnel : List RadiusTunnelAttrs) (attr : Record) :
    Except Stop (List RadiusTunnelAttrs) :=
  let data := attr.2
  let dlen := attr.2.length
  if attrHdrLen + dlen < 3 then .ok tunnel
  else do
    let tag ← rd8 data 0
    let tun := if tunnelTags ≤ tag.toNat then 0 else tag.toNat
    if attr.1 = attrTunnelType then
      if attrHdrLen + dlen ≠ 6 then return tunnel
      else
        let type ← rdBe24 data 1
        return tunnel.modify tun fun t => { t with tagUsed := t.tagUsed + 1, type }
    else if attr.1 = attrTunnelMediumType then
      if attrHdrLen + dlen ≠ 6 then return tunnel
      else
        let mediumType ← rdBe24 data 1
        return tunnel.modify tun fun t => { t with tagUsed := t.tagUsed + 1, mediumType }
    else if attr.1 = attrTunnelPrivateGroupId then
      let start := if tag.toNat < tunnelTags then 1 else 0
      let dlen := dlen - start
      if 10 ≤ dlen then return tunnel
      else
        let data ← rdSlice data start (start + dlen)
        let buf ← putOctets 10 [] data
        let _ ← putOctets 10 buf [0]
        return tunnel.modify tun fun t => { t with tagUsed := t.tagUsed + 1, vlanid := atoi buf }
    else return tunnel

/-- The loop of `radius_msg_get_vlanid` over the attributes. -/
def readTunnels : List RadiusTunnelAttrs → List Record → Except Stop (List RadiusTunnelAttrs)
  | tunnel, [] => .ok tunnel
  | tunnel, attr :: l => do
    let tunnel ← readTunnel tunnel attr
    readTunnels tunnel l

/-- Source: `radius_msg_get_vlanid`. -/
def readVlanid (msg : RadiusMsg) : Except Stop ℤ := do
  let l ← readAttrs msg
  let tunnel ← readTunnels (List.replicate tunnelTags ⟨0, 0, 0, 0⟩) l
  match tunnel.find? fun t => t.tagUsed ≠ 0 ∧ t.type = tunnelTypeVlan ∧
      t.mediumType = tunnelMediumType802 ∧ 0 < t.vlanid with
  | none => return -1
  | some t => return t.vlanid

/-- Check the Message-Authenticator and put back what was overwritten for it; `stop` is where the
part of the buffer ends that the pointer to the attribute at an offset may be used for.
Source: `radius_msg_verify_msg_auth`. -/
def verifyMsgAuthUpTo (hmacMd5 : Bytes → Bytes → Digest) (stop : ℕ → ℕ) (msg : RadiusMsg)
    (secret : Bytes) (reqAuth : Option Digest) : Except Stop (ℕ × RadiusMsg) := do
  let _ ← readAttrs msg
  match findMsgAuth msg with
  | none => return (1, msg)
  | some attr =>
    let orig ← rdUpTo (stop attr) msg.buf (attr + attrHdrLen) (attr + attrHdrLen + 16)
    let buf ← wrUpTo (stop attr) msg.buf (attr + attrHdrLen) (List.replicate 16 0)
    let origAuthenticator := authenticator { msg with buf }
    let buf := match reqAuth with
      | some auth => overwrite buf 4 auth.toList
      | none => buf
    let auth := hmacMd5 secret buf
    let buf ← wrUpTo (stop attr) buf (attr + attrHdrLen) orig
    let buf := match reqAuth with
      | some _ => overwrite buf 4 origAuthenticator
      | none => buf
    return (if orig = auth.toList then 0 else 1, { msg with buf })

/-! ## What they compute -/

theorem rdBe24_rest {tag : UInt8} {rest : Bytes} (h : rest.length = 3) :
    rdBe24 (tag :: rest) 1 = .ok (beNat rest) := by
  obtain ⟨a, b, c, rfl⟩ := List.length_eq_three.mp h
  have hbe : beNat [a, b, c] = a.toNat * 65536 + b.toNat * 256 + c.toNat := by
    simp only [beNat, List.foldl_cons, List.foldl_nil]
    omega
  rw [hbe]
  rfl

theorem rdSlice_group (tag : UInt8) (rest : Bytes) (tagged : Prop) [Decidable tagged] :
    rdSlice (tag :: rest) (if tagged then 1 else 0)
        ((if tagged then 1 else 0) + ((tag :: rest).length - if tagged then 1 else 0)) =
      .ok (if tagged then rest else tag :: rest) := by
  by_cases h : tagged
  · simp only [if_pos h]
    exact rdSlice_append [tag] rest
  · simp only [if_neg h]
    rw [Nat.zero_add]
    exact rdSlice_all (tag :: rest)

theorem readTunnel_eq (tunnel : List RadiusTunnelAttrs) (attr : Record) :
    readTunnel tunnel attr = .ok (tunnelStep tunnel attr) := by
  obtain ⟨type, data⟩ := attr
  cases data with
  | nil => rfl
  | cons tag rest =>
    have hlong : ¬ attrHdrLen + (tag :: rest).length < 3 := by
      rw [attrHdrLen, List.length_cons]
      omega
    have hfour : attrHdrLen + (tag :: rest).length ≠ 6 ↔ ¬ (tag :: rest).length = 4 := by
      rw [attrHdrLen]
      omega
    unfold readTunnel tunnelStep
    dsimp only
    rw [if_neg hlong, rd8_zero, ok_bind]
    simp only [hfour, ite_not]
    by_cases htype : type = attrTunnelType
    · rw [if_pos htype, if_pos htype]
      split
      · rename_i hlen
        rw [rdBe24_rest (Nat.succ.inj hlen)]
        rfl
      · rfl
    rw [if_neg htype, if_neg htype]
    by_cases hmedium : type = attrTunnelMediumType
    · rw [if_pos hmedium, if_pos hmedium]
      split
      · rename_i hlen
        rw [rdBe24_rest (Nat.succ.inj hlen)]
        rfl
      · rfl
    rw [if_neg hmedium, if_neg hmedium]
    by_cases hgroup : type = attrTunnelPrivateGroupId
    · rw [if_pos hgroup, if_pos hgroup, rdSlice_group tag rest]
      have hlen : (if tag.toNat < tunnelTags then rest else tag :: rest).length =
          (tag :: rest).length - if tag.toNat < tunnelTags then 1 else 0 := by
        split_ifs <;> rfl
      rw [← hlen]
      generalize (if tag.toNat < tunnelTags then rest else tag :: rest) = data
      split
      · rfl
      · rename_i hshort
        rw [ok_bind, putOctets_of (by rw [List.length_nil]; omega), ok_bind,
          putOctets_of (by simp; omega), ok_bind]
        rfl
    · rw [if_neg hgroup, if_neg hgroup]
      rfl

theorem readTunnels_eq (tunnel : List RadiusTunnelAttrs) (l : List Record) :
    readTunnels tunnel l = .ok (l.foldl tunnelStep tunnel) := by
  induction l generalizing tunnel with
  | nil => rfl
  | cons attr l ih => rw [readTunnels, readTunnel_eq, ok_bind, ih, List.foldl_cons]

/-- The search in one payload reads inside it. The induction is on the bound, and what is left from
the place on ends with the payload. -/
theorem vendorLoop_inside (subtype : UInt8) (data : Bytes) (n pos left : ℕ)
    (hleft : pos + left = data.length) : ∃ res, vendorLoop subtype data n pos left = .ok res := by
  induction n generalizing pos left with
  | zero => exact ⟨none, rfl⟩
  | succ n ih =>
    rw [vendorLoop]
    split
    · rename_i hhdr
      rw [vendorHdrLen] at hhdr
      rw [rd8_of (by omega), ok_bind]
      generalize data[pos + 1].toNat = vendorLength
      split
      · exact ⟨none, rfl⟩
      · rename_i hfits
        rw [not_or, not_lt, not_lt, vendorHdrLen] at hfits
        rw [rd8_of (by omega), ok_bind]
        split
        · exact ih _ _ (by omega)
        · rw [rdSlice_of (by rw [vendorHdrLen]; omega) (by omega)]
          exact ⟨_, rfl⟩
    · exact ⟨none, rfl⟩

theorem getVendorAttrLoop_inside (vendor : ℕ) (subtype : UInt8) (l : List Record) :
    ∃ res, getVendorAttrLoop vendor subtype l = .ok res := by
  induction l with
  | nil => exact ⟨none, rfl⟩
  | cons attr l ih =>
    rw [getVendorAttrLoop]
    split
    · exact ih
    · rename_i hours
      rw [not_or, not_lt] at hours
      rw [rdSlice_of (Nat.zero_le 4) hours.2, ok_bind]
      split
      · exact ih
      · obtain ⟨res, hres⟩ := vendorLoop_inside subtype attr.2 attr.2.length 4 (attr.2.length - 4)
          (by omega)
        rw [hres, ok_bind]
        cases res with
        | none => exact ih
        | some data => exact ⟨some data, rfl⟩

/-- **A key attribute of any length and content is uncovered inside its buffers.** -/
theorem decryptMsKey_inside (md5Vector : List Bytes → Digest) (key reqAuth secret : Bytes) :
    ∃ res, decryptMsKey md5Vector key reqAuth secret = .ok res := by
  unfold decryptMsKey
  dsimp only
  split
  · exact ⟨none, rfl⟩
  · rename_i hlen
    split
    · exact ⟨none, rfl⟩
    · rename_i hblocks
      obtain ⟨salt, hidden, rfl, hsalt⟩ : ∃ salt hidden, key = salt ++ hidden ∧ salt.length = 2 :=
        ⟨key.take 2, key.drop 2, (List.take_append_drop 2 key).symm, by
          rw [List.length_take]
          omega⟩
      rw [List.length_append, hsalt] at hlen hblocks ⊢
      rw [Nat.add_sub_cancel_left] at hblocks ⊢
      obtain ⟨k, hk⟩ : ∃ k, hidden.length = k * 16 := ⟨hidden.length / 16, by omega⟩
      have hloop : decryptLoop md5Vector secret reqAuth (salt ++ hidden) (k * 16) (k * 16) [] 2
          (k * 16) true = .ok (uncover md5Vector secret k [secret, reqAuth, salt] hidden) := by
        rw [← hsalt, ← List.nil_append (uncover ..)]
        exact decryptLoop_eq k (by omega) (.first salt) (fun _ => rfl) hsalt hk
          (by rw [List.length_nil, Nat.zero_add])
      have hplain : (uncover md5Vector secret k [secret, reqAuth, salt] hidden).length =
          hidden.length := length_unchain length_keyPad k _ hk
      rw [hk, hloop, ok_bind, rd8_of (by omega), ok_bind]
      split
      · exact ⟨none, rfl⟩
      · rename_i hfits
        rw [not_or] at hfits
        rw [rdSlice_of (by omega) (by omega)]
        exact ⟨_, rfl⟩

section Parsed

variable {msg : RadiusMsg} {hdr : Bytes} {l : List Record} (h : Holds msg hdr l)
include h

/-- **The VLAN is read inside the message.** -/
theorem readVlanid_eq : readVlanid msg = .ok (getVlanid msg) := by
  rw [readVlanid, h.readAttrs_eq, ok_bind, readTunnels_eq, ok_bind, getVlanid]
  cases ((attrs msg).foldl tunnelStep (List.replicate tunnelTags ⟨0, 0, 0, 0⟩)).find? fun t =>
      t.tagUsed ≠ 0 ∧ t.type = tunnelTypeVlan ∧ t.mediumType = tunnelMediumType802 ∧
        0 < t.vlanid with
  | none => rfl
  | some t => rfl

theorem msgGetAttr_eq (type : UInt8) (room : Option ℕ) :
    msgGetAttr msg type room = .ok (((attrs msg).find? fun attr => attr.1 = type).map fun attr =>
      (attr.2.length, attr.2.take (room.getD 0))) := by
  rw [msgGetAttr, h.readAttrs_eq, ok_bind]
  cases (attrs msg).find? fun attr => attr.1 = type with
  | none => rfl
  | some attr =>
    cases room with
    | none => simp; rfl
    | some len =>
      have hmin : (if attr.2.length > len then len else attr.2.length) = min len attr.2.length := by
        split <;> omega
      have hread : rdSlice attr.2 0 (min len attr.2.length) = .ok (attr.2.take len) := by
        rw [rdSlice_of (Nat.zero_le _) (Nat.min_le_right _ _), List.drop_zero, List.take_eq_take_min]
        simp
      have hput : putOctets len [] (attr.2.take len) = .ok ([] ++ attr.2.take len) :=
        putOctets_of (by simp)
      dsimp only
      rw [hmin, hread, ok_bind, hput]
      rfl

end Parsed

/-! ### The Message-Authenticator -/

theorem findMsgAuth_mem {msg : RadiusMsg} {attr : ℕ} (hfind : findMsgAuth msg = some attr) :
    attr ∈ msg.attrPos := by
  unfold findMsgAuth at hfind
  split at hfind
  · rename_i pos hfilter
    cases hfind
    exact List.mem_of_mem_filter (hfilter ▸ List.mem_singleton_self attr)
  · cases hfind

/-- A message in parts: what precedes the authenticator, the authenticator, the octets up to a
Message-Authenticator, the Message-Authenticator, and the rest. -/
def inParts (front auth mid mac post : Bytes) : Bytes := front ++ (auth ++ (mid ++ (mac ++ post)))

/-- The lengths of the parts in front of a Message-Authenticator at `pos`. -/
structure Placed (front auth mid : Bytes) (pos : ℕ) : Prop where
  front : front.length = 4
  auth : auth.length = 16
  mid : mid.length + hdrLen = pos

section Parts

variable {front auth mid mac post new buf : Bytes} {pos stop : ℕ}

theorem inParts_eq : inParts front auth mid mac post = (front ++ auth ++ mid) ++ (mac ++ post) := by
  simp [inParts]

theorem Placed.length (h : Placed front auth mid pos) : (front ++ auth ++ mid).length = pos := by
  rw [List.length_append, List.length_append, h.front, h.auth, ← h.mid, hdrLen]
  omega

theorem Placed.write_auth (h : Placed front auth mid pos) (hnew : new.length = 16) :
    overwrite (inParts front auth mid mac post) 4 new = inParts front new mid mac post :=
  overwrite_append h.front (h.auth.trans hnew.symm)

theorem Placed.write_mac (h : Placed front auth mid pos) (hmac : mac.length = new.length) :
    overwrite (inParts front auth mid mac post) pos new = inParts front auth mid new post := by
  rw [inParts_eq, inParts_eq, overwrite_append h.length hmac]

theorem Placed.wrUpTo_mac (h : Placed front auth mid pos) (hstop : pos + 16 ≤ stop)
    (hmac : mac.length = 16) (hnew : new.length = 16) :
    wrUpTo stop (inParts front auth mid mac post) pos new =
      .ok (inParts front auth mid new post) := by
  rw [wrUpTo, if_pos (by rwa [hnew]), inParts_eq, inParts_eq, ← h.length]
  exact wrSlice_append post (hmac.trans hnew.symm)

theorem Placed.rdUpTo_mac (h : Placed front auth mid pos) (hstop : pos + 16 ≤ stop)
    (hmac : mac.length = 16) :
    rdUpTo stop (inParts front auth mid mac post) pos (pos + 16) = .ok mac := by
  have hread := rdSlice_middle (front ++ auth ++ mid) mac post
  rw [h.length, hmac] at hread
  rw [rdUpTo, if_pos hstop, inParts_eq, hread]

theorem Placed.take_mac (h : Placed front auth mid pos) (hmac : mac.length = 16) :
    ((inParts front auth mid mac post).drop pos).take 16 = mac := by
  rw [inParts_eq, List.drop_left' h.length, List.take_left' hmac]

theorem Placed.authenticator_eq (h : Placed front auth mid pos) (msg : RadiusMsg) :
    authenticator { msg with buf := inParts front auth mid mac post } = auth := by
  rw [authenticator, inParts, List.drop_left' h.front, List.take_left' h.auth]

theorem exists_parts (hhdr : hdrLen ≤ pos) (hpos : pos + 16 ≤ buf.length) :
    ∃ front auth mid mac post, buf = inParts front auth mid mac post ∧
      Placed front auth mid pos ∧ mac.length = 16 := by
  rw [hdrLen] at hhdr
  have hrest : (buf.drop pos).take 16 ++ buf.drop (pos + 16) = buf.drop pos := by
    rw [← List.drop_drop, List.take_append_drop]
  have hmid : (buf.drop 20).take (pos - 20) ++ buf.drop pos = buf.drop 20 := by
    rw [show pos = 20 + (pos - 20) by omega, ← List.drop_drop, Nat.add_sub_cancel_left,
      List.take_append_drop]
  have hauth : (buf.drop 4).take 16 ++ buf.drop 20 = buf.drop 4 := by
    rw [show 20 = 4 + 16 from rfl, ← List.drop_drop, List.take_append_drop]
  refine ⟨buf.take 4, (buf.drop 4).take 16, (buf.drop 20).take (pos - 20),
    (buf.drop pos).take 16, buf.drop (pos + 16), ?_, ⟨?_, ?_, ?_⟩, ?_⟩
  · rw [inParts, hrest, hmid, hauth, List.take_append_drop]
  all_goals
    simp only [List.length_take, List.length_drop, hdrLen]
    omega

end Parts

section Check

variable {hmacMd5 : Bytes → Bytes → Digest} {stop : ℕ → ℕ} {msg : RadiusMsg} {hdr : Bytes}
  {l : List Record} {secret : Bytes} {reqAuth : Option Digest}

/-- **The check leaves the message as it was**, when its pointer may be used for 16 octets behind
the attribute's header: what it has overwritten it puts back. -/
theorem verifyMsgAuthUpTo_eq (h : Holds msg hdr l)
    (hstop : ∀ attr, findMsgAuth msg = some attr →
      attr + attrHdrLen + 16 ≤ stop attr ∧ attr + attrHdrLen + 16 ≤ msg.buf.length) :
    verifyMsgAuthUpTo hmacMd5 stop msg secret reqAuth =
      .ok (verifyMsgAuth hmacMd5 msg secret (reqAuth.map Vector.toList), msg) := by
  rw [verifyMsgAuthUpTo, h.readAttrs_eq, ok_bind, verifyMsgAuth]
  cases hfind : findMsgAuth msg with
  | none => rfl
  | some attr =>
    obtain ⟨hptr, hlen⟩ := hstop attr hfind
    obtain ⟨-, -, -, -, -, hhdr, -, -⟩ := h.exists_attr (findMsgAuth_mem hfind)
    obtain ⟨front, auth, mid, mac, post, hbuf, hp, hmac⟩ :=
      exists_parts (show hdrLen ≤ attr + attrHdrLen by omega) hlen
    have hzero : (List.replicate 16 (0 : UInt8)).length = 16 := List.length_replicate
    have hback : msg = { msg with buf := inParts front auth mid mac post } := by rw [← hbuf]
    dsimp only [RadiusMsg.write]
    rw [hbuf, hp.rdUpTo_mac hptr hmac, ok_bind, hp.wrUpTo_mac hptr hmac hzero, ok_bind,
      hp.authenticator_eq, hp.take_mac hmac, hp.write_mac (hmac.trans hzero.symm)]
    cases reqAuth with
    | none =>
      dsimp only
      rw [hp.wrUpTo_mac hptr hzero hmac, ok_bind, ← hback]
      rfl
    | some req =>
      have hreq : req.toList.length = 16 := Vector.length_toList
      have hp' : Placed front req.toList mid (attr + attrHdrLen) := ⟨hp.front, hreq, hp.mid⟩
      simp only [Option.map_some, hp.write_auth hreq]
      rw [hp'.wrUpTo_mac hptr hzero hmac, ok_bind, hp'.write_auth hp.auth, ← hback]
      rfl

theorem verifyMsgAuthUpTo_inside {res : ℕ} {m : RadiusMsg}
    (hok : verifyMsgAuthUpTo hmacMd5 stop msg secret reqAuth = .ok (res, m)) {attr : ℕ}
    (hfind : findMsgAuth msg = some attr) :
    attr + attrHdrLen + 16 ≤ stop attr ∧ attr + attrHdrLen + 16 ≤ msg.buf.length := by
  rw [verifyMsgAuthUpTo] at hok
  obtain ⟨attrs, -, hok⟩ := bind_eq_ok hok
  rw [hfind] at hok
  obtain ⟨orig, hread, -⟩ := bind_eq_ok hok
  unfold rdUpTo rdSlice at hread
  split at hread
  · rename_i hptr
    split at hread
    · rename_i hbuf
      exact ⟨hptr, hbuf.2⟩
    · cases hread
  · cases hread

end Check

/-! ## Inside the message -/

/-- The accessors touch nothing outside: each one returns, whatever it is asked for, the check of
the Message-Authenticator with the message as it was and its pointer into the attribute used up to
`stop` at most. -/
structure StaysInside (hmacMd5 : Bytes → Bytes → Digest) (md5Vector : List Bytes → Digest)
    (stop : ℕ → ℕ) (msg : RadiusMsg) : Prop where
  verify : ∀ secret reqAuth, ∃ res,
    verifyMsgAuthUpTo hmacMd5 stop msg secret reqAuth = .ok (res, msg)
  vendor : ∀ vendor subtype, ∃ key, getVendorAttr msg vendor subtype = .ok key
  key : ∀ vendor subtype key, getVendorAttr msg vendor subtype = .ok (some key) →
    ∀ reqAuth secret, ∃ res, decryptMsKey md5Vector key reqAuth secret = .ok res
  vlanid : ∃ id, readVlanid msg = .ok id
  attr : ∀ type room, ∃ res, msgGetAttr msg type room = .ok res

section Inside

variable (hmacMd5 : Bytes → Bytes → Digest) (md5Vector : List Bytes → Digest)

/-- The accessors stay inside a well-formed message exactly when the check of the
Message-Authenticator does. -/
theorem staysInside_iff {msg : RadiusMsg} {hdr : Bytes} {l : List Record} (h : Holds msg hdr l)
    {stop : ℕ → ℕ} :
    StaysInside hmacMd5 md5Vector stop msg ↔
      ∀ attr, findMsgAuth msg = some attr →
        attr + attrHdrLen + 16 ≤ stop attr ∧ attr + attrHdrLen + 16 ≤ msg.buf.length := by
  constructor
  · intro hinside attr hfind
    obtain ⟨res, hres⟩ := hinside.verify [] none
    exact verifyMsgAuthUpTo_inside hres hfind
  · intro hstop
    refine ⟨?_, ?_, ?_, ?_, ?_⟩
    · intro secret reqAuth
      exact ⟨_, verifyMsgAuthUpTo_eq h hstop⟩
    · intro vendor subtype
      rw [getVendorAttr, h.readAttrs_eq, ok_bind]
      exact getVendorAttrLoop_inside vendor subtype (attrs msg)
    · intro vendor subtype key _ reqAuth secret
      exact decryptMsKey_inside md5Vector key reqAuth secret
    · exact ⟨_, readVlanid_eq h⟩
    · intro type room
      exact ⟨_, msgGetAttr_eq h type room⟩

/-- Where the payload of the attribute at an offset ends. -/
def attrEnd (msg : RadiusMsg) (pos : ℕ) : ℕ := pos + attrHdrLen + (getAttr msg pos).2.length

theorem Holds.attrEnd_le {msg : RadiusMsg} {hdr : Bytes} {l : List Record} (h : Holds msg hdr l)
    {pos : ℕ} (hpos : pos ∈ msg.attrPos) : attrEnd msg pos ≤ msg.buf.length := by
  obtain ⟨pre, r, post, hbuf, rfl, -, -, hget⟩ := h.exists_attr hpos
  rw [attrEnd, hget, hbuf, List.length_append, List.length_append, Record.length_encode, attrHdrLen]
  omega

/-- **Exactly when the accessors stay inside.** On a parsed message they read and write inside the
attributes of the message, and the check of the Message-Authenticator restores it, if and only if
its only Message-Authenticator, when it has one and no more, is followed by 16 octets of the
message behind its header. The pointer stays inside that very attribute if and only if these 16
octets are its own. -/
theorem accessors_inside_iff {data : Bytes} {msg : RadiusMsg} (h : parse data = some msg) :
    (StaysInside hmacMd5 md5Vector (fun _ => msg.buf.length) msg ↔
      ∀ attr, findMsgAuth msg = some attr → attr + attrHdrLen + 16 ≤ msg.buf.length) ∧
    (StaysInside hmacMd5 md5Vector (attrEnd msg) msg ↔
      ∀ attr, findMsgAuth msg = some attr → 16 ≤ (getAttr msg attr).2.length) := by
  obtain ⟨hdr, l, hholds⟩ := parse_holds h
  rw [staysInside_iff hmacMd5 md5Vector hholds, staysInside_iff hmacMd5 md5Vector hholds]
  refine ⟨?_, ?_⟩
  · constructor
    · intro hstop attr hfind
      exact (hstop attr hfind).2
    · intro hlen attr hfind
      exact ⟨hlen attr hfind, hlen attr hfind⟩
  · constructor
    · intro hstop attr hfind
      have hptr := (hstop attr hfind).1
      rw [attrEnd] at hptr
      omega
    · intro hlen attr hfind
      have hown := hlen attr hfind
      have hend := hholds.attrEnd_le (findMsgAuth_mem hfind)
      rw [attrEnd] at hend ⊢
      omega

end Inside

/-- An Access-Request with a Message-Authenticator of some octets at its end, behind a header of
zeroes, and what the parser makes of it. -/
def requestWith (mac : Bytes) : Bytes :=
  [1, 0] ++ putBe16 (22 + mac.length) ++ List.replicate 16 0 ++
    [attrMessageAuthenticator, UInt8.ofNat (2 + mac.length)] ++ mac

@[inherit_doc requestWith]
def parsedRequest (mac : Bytes) : RadiusMsg where
  buf := requestWith mac
  size := 22 + mac.length
  attrPos := [20]
  attrSize := defaultAttrCount

theorem full_authenticator_inside :
    StaysInside (fun _ _ => zeroDigest) (fun _ => zeroDigest)
      (fun _ => (parsedRequest zeroDigest.toList).buf.length) (parsedRequest zeroDigest.toList) := by
  have hparse : parse (requestWith zeroDigest.toList) = some (parsedRequest zeroDigest.toList) := by
    decide +kernel
  refine (accessors_inside_iff (fun _ _ => zeroDigest) (fun _ => zeroDigest) hparse).1.mpr ?_
  intro attr hfind
  cases hfind
  decide

theorem bare_authenticator_outside :
    parse (requestWith []) = some (parsedRequest []) ∧
      ¬ StaysInside (fun _ _ => zeroDigest) (fun _ => zeroDigest)
        (fun _ => (parsedRequest []).buf.length) (parsedRequest []) := by
  refine ⟨by decide +kernel, ?_⟩
  intro hinside
  obtain ⟨res, hres⟩ := hinside.verify [] none
  cases hres

end Hostapd.Radius
