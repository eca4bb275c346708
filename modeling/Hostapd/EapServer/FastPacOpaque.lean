import Hostapd.Common.Defs
import Hostapd.Lib.Octets
import Mathlib.Tactic

/-!
# PAC-Opaque of EAP-FAST

`eap_server_fast.c`: `eap_fast_build_pac` puts the PAC-Key, its expiration time and the identity of
the peer into an encrypted PAC-Opaque, `eap_fast_session_ticket_cb` reads them from the ticket that
comes back.

The attributes have a type and a length octet; a multiple of eight octets is reached with octets
`PAC_OPAQUE_TYPE_PAD`. At an attribute of that type the reader sets `pos` to the end of the buffer
and then, as behind every attribute, adds `2 + pos[1]`: it reads behind the buffer.

* **`parseAttrs_putAttr`**: the reader goes over attributes that it accepts.
* **`parseAttrs_eq_none_iff`**: when it reads outside.
* **`build_isSome_iff`**: the buffer of `eap_fast_build_pac` has no room for the identity in
  PAC-Info but the 100 octets to spare; with more `wpabuf_overflow` ends the server.
* **`pac_opaque_round_trip`**: for which identities and times the PAC-Opaque comes back as it was.
-/

namespace Hostapd.EapServer.FastPac

open Hostapd.Lib

/-! ## The functions -/

/-- Key wrap under the key of the server, for whole numbers of semiblocks: it adds one. -/
structure KeyWrap where
  wrap : Bytes → Bytes
  unwrap : Bytes → Option Bytes
  unwrap_wrap : ∀ p, p.length % 8 = 0 → unwrap (wrap p) = some p
  length_wrap : ∀ p, p.length % 8 = 0 → (wrap p).length = p.length + 8

def pacKeyLen : ℕ := 32
def pacOpaqueTypePad : UInt8 := 0
def pacOpaqueTypeKey : UInt8 := 1
def pacOpaqueTypeLifetime : UInt8 := 2
def pacOpaqueTypeIdentity : UInt8 := 3

def pacTypePacKey : ℕ := 1
def pacTypePacOpaque : ℕ := 2
def pacTypeCredLifetime : ℕ := 3
def pacTypeAId : ℕ := 4
def pacTypeIId : ℕ := 5
def pacTypeAIdInfo : ℕ := 7
def pacTypePacInfo : ℕ := 9
def pacTypePacType : ℕ := 10

/-- An attribute of PAC-Opaque; the length octet is that of a `size_t`. -/
def putAttr (a : UInt8 × Bytes) : Bytes := a.1 :: UInt8.ofNat a.2.length :: a.2

/-- Source: `WPA_PUT_BE32`. -/
def putBe32 (n : ℤ) : Bytes := putBe 4 (n % 2 ^ 32).toNat

/-- The attributes that are encrypted; `expiry` is `now.sec + data->pac_key_lifetime`. -/
def pacAttrs (pacKey : Bytes) (expiry : ℤ) (identity : Option Bytes) : List (UInt8 × Bytes) :=
  [(pacOpaqueTypeKey, pacKey), (pacOpaqueTypeLifetime, putBe32 expiry)] ++
    (identity.map fun id => (pacOpaqueTypeIdentity, id)).toList

def pacBuf (pacKey : Bytes) (expiry : ℤ) (identity : Option Bytes) : Bytes :=
  let attrs := (pacAttrs pacKey expiry identity).flatMap putAttr
  attrs ++ List.replicate ((8 - attrs.length % 8) % 8) pacOpaqueTypePad

/-- Source: `eap_fast_put_tlv`; the length is a `u16`. -/
def putTlv (type : ℕ) (data : Bytes) : Bytes :=
  putBe16 type ++ putBe16 data.length ++ data.take (data.length % 2 ^ 16)

/-- What a server has; its identity is not cut to 16 bits. -/
structure Server where
  srvId : Bytes
  srvIdInfo : Bytes
  short : srvId.length < 2 ^ 16 ∧ srvIdInfo.length < 2 ^ 16
  pacKeyLifetime : ℤ
  pacKeyRefreshTime : ℤ

def pacOpaqueTlv (kw : KeyWrap) (pacKey : Bytes) (expiry : ℤ) (identity : Option Bytes) : Bytes :=
  putTlv pacTypePacOpaque (kw.wrap (pacBuf pacKey expiry identity))

/-- Source: `eap_fast_build_pac`, with `pacKey` for the random octets and `now` for the time, and with
memory; `none` stands for `wpabuf_overflow`. -/
def eapFastBuildPac (kw : KeyWrap) (srv : Server) (identity : Option Bytes) (pacKey : Bytes)
    (now : ℤ) : Option Bytes :=
  let expiry := now + srv.pacKeyLifetime
  let bufLen := 4 + (4 + pacKeyLen) +
    (4 + (kw.wrap (pacBuf pacKey expiry identity)).length) + srv.srvId.length +
    srv.srvIdInfo.length + 100 + 6
  let info := putTlv pacTypeCredLifetime (putBe32 expiry) ++ putTlv pacTypeAId srv.srvId ++
    (identity.map (putTlv pacTypeIId)).getD [] ++ putTlv pacTypeAIdInfo srv.srvIdInfo ++
    putTlv pacTypePacType (putBe16 1)
  let pac := putTlv pacTypePacKey pacKey ++ pacOpaqueTlv kw pacKey expiry identity ++
    putBe16 pacTypePacInfo ++ putBe16 info.length ++ info
  let msg := putBe16 (0x8000 + 3) ++ putBe16 2 ++ putBe16 1 ++
    putBe16 (0x8000 + 11) ++ putBe16 pac.length ++ pac
  if bufLen < msg.length then none else some msg

structure Found where
  pacKey : Option Bytes
  lifetime : ℕ
  identity : Option Bytes
  deriving DecidableEq

/-- An attribute that is no padding; `none` is a return value of -1. -/
def noteAttr (f : Found) (type : UInt8) (value : Bytes) : Option Found :=
  if type = pacOpaqueTypeKey then
    if value.length ≠ pacKeyLen then none else some { f with pacKey := some value }
  else if type = pacOpaqueTypeLifetime then
    if value.length ≠ 4 then none else some { f with lifetime := beNat value }
  else if type = pacOpaqueTypeIdentity then some { f with identity := some value }
  else some f

/-- The loop over the attributes; `none` is a read outside, `some none` a return value of -1. -/
def parseAttrs : Bytes → Found → Option (Option Found)
  | type :: len :: rest, f =>
    if rest.length < len.toNat then some (some f)
    else if type = pacOpaqueTypePad then none
    else
      match noteAttr f type (rest.take len.toNat) with
      | none => some none
      | some f => parseAttrs (rest.drop len.toNat) f
  | _, f => some (some f)
  termination_by buf => buf.length
  decreasing_by simp; omega

structure Ticket where
  pacKey : Bytes
  lifetime : ℕ
  identity : Option Bytes
  sendNewPac : ℕ
  deriving DecidableEq

inductive TicketResult
  | overread
  | ret (r : ℤ)
  | accepted (t : Ticket)
  deriving DecidableEq

def sendNewPac (srv : Server) (now : Option ℤ) (lifetime : ℕ) : ℕ :=
  match now with
  | none => 2
  | some now =>
    if lifetime = 0 ∨ now > lifetime then 2 else if lifetime - now < srv.pacKeyRefreshTime then 1
    else 0

/-- The decrypted PAC-Opaque of a ticket; without one the ticket is ignored. `mem` says whether there
is memory for the buffer. Source: `eap_fast_session_ticket_cb`. -/
def decryptTicket (kw : KeyWrap) (mem : Bool) (ticket : Bytes) : Option Bytes :=
  if ticket.length < 4 ∨ be16 ticket ≠ pacTypePacOpaque then none
  else
    let len := be16 (ticket.drop 2)
    if len < 8 ∨ len % 8 ≠ 0 ∨ ticket.length - 4 < len then none
    else if mem then kw.unwrap ((ticket.drop 4).take len)
    else none

/-- Source: `eap_fast_session_ticket_cb`; `now` is the time, if there is one. There is memory for the
identity. -/
def eapFastSessionTicketCb (kw : KeyWrap) (srv : Server) (mem : Bool) (now : Option ℤ)
    (ticket : Bytes) : TicketResult :=
  match decryptTicket kw mem ticket with
  | none => .ret 0
  | some buf =>
    match parseAttrs buf ⟨none, 0, none⟩ with
    | none => .overread
    | some none => .ret (-1)
    | some (some f) =>
      match f.pacKey with
      | none => .ret (-1)
      | some pacKey => .accepted ⟨pacKey, f.lifetime, f.identity, sendNewPac srv now f.lifetime⟩

/-! ## Reading attributes -/

structure Passed (a : UInt8 × Bytes) : Prop where
  short : a.2.length < 256
  type : a.1 ≠ pacOpaqueTypePad
  key : a.1 = pacOpaqueTypeKey → a.2.length = pacKeyLen
  lifetime : a.1 = pacOpaqueTypeLifetime → a.2.length = 4

theorem parseAttrs_putAttr {type : UInt8} {value : Bytes} (h : value.length < 256)
    (ht : type ≠ pacOpaqueTypePad) (rest : Bytes) (f : Found) :
    parseAttrs (putAttr (type, value) ++ rest) f =
      match noteAttr f type value with
      | none => some none
      | some f => parseAttrs rest f := by
  have hlen : (UInt8.ofNat value.length).toNat = value.length := by
    rw [UInt8.toNat_ofNat', Nat.mod_eq_of_lt h]
  change parseAttrs (type :: UInt8.ofNat value.length :: (value ++ rest)) f = _
  rw [parseAttrs, hlen, List.take_left, List.drop_left,
    if_neg (by rw [List.length_append]; omega), if_neg ht]

theorem Passed.noteAttr {a : UInt8 × Bytes} (h : Passed a) (f : Found) :
    ∃ g, noteAttr f a.1 a.2 = some g := by
  unfold FastPac.noteAttr
  split_ifs with hkey hlen hlife hlen
  · exact absurd (h.key hkey) hlen
  · exact ⟨_, rfl⟩
  · exact absurd (h.lifetime hlife) hlen
  all_goals exact ⟨_, rfl⟩

theorem passed_of_noteAttr {f g : Found} {type : UInt8} {value : Bytes}
    (h : noteAttr f type value = some g) (hlen : value.length < 256)
    (hpad : type ≠ pacOpaqueTypePad) : Passed (type, value) := by
  unfold FastPac.noteAttr at h
  refine ⟨hlen, hpad, fun hkey => ?_, fun hlife => ?_⟩
  · by_contra hne
    rw [if_pos hkey, if_pos hne] at h
    cases h
  · have hkey : type ≠ pacOpaqueTypeKey := by
      rintro rfl
      cases hlife
    by_contra hne
    rw [if_neg hkey, if_pos hlife, if_pos hne] at h
    cases h

/-- Behind attributes that are passed there is padding that counts as an attribute. -/
def HasPad (buf : Bytes) : Prop :=
  ∃ (attrs : List (UInt8 × Bytes)) (len : UInt8) (rest : Bytes),
    buf = attrs.flatMap putAttr ++ pacOpaqueTypePad :: len :: rest ∧ len.toNat ≤ rest.length ∧
      ∀ a ∈ attrs, Passed a

theorem parseAttrs_eq_none_iff (buf : Bytes) (f : Found) : parseAttrs buf f = none ↔ HasPad buf := by
  constructor
  · intro h
    induction buf, f using parseAttrs.induct with
    | case1 type len rest f hlen => simp [parseAttrs, hlen] at h
    | case2 len rest f hlen => exact ⟨[], len, rest, rfl, not_lt.mp hlen, nofun⟩
    | case3 type len rest f hlen hpad hnote => simp [parseAttrs, hlen, hpad, hnote] at h
    | case4 type len rest f hlen hpad g hnote ih =>
      rw [parseAttrs, if_neg hlen, if_neg hpad, hnote] at h
      obtain ⟨attrs, len', rest', hbuf, hfits, hattrs⟩ := ih h
      have htake : (rest.take len.toNat).length = len.toNat :=
        List.length_take_of_le (not_lt.mp hlen)
      refine ⟨(type, rest.take len.toNat) :: attrs, len', rest', ?_, hfits, ?_⟩
      · rw [List.flatMap_cons, List.append_assoc, ← hbuf, putAttr, htake, UInt8.ofNat_toNat,
          List.cons_append, List.cons_append, List.take_append_drop]
      · intro a ha
        rcases List.mem_cons.mp ha with rfl | ha
        · exact passed_of_noteAttr hnote (htake.trans_lt len.toNat_lt) hpad
        · exact hattrs a ha
    | case5 buf f hshort =>
      unfold parseAttrs at h
      split at h
      · exact absurd rfl (hshort _ _ _)
      · cases h
  · rintro ⟨attrs, len, rest, rfl, hfits, hattrs⟩
    induction attrs generalizing f with
    | nil => simp [parseAttrs, not_lt.mpr hfits]
    | cons a attrs ih =>
      obtain ⟨type, value⟩ := a
      have ha := hattrs _ List.mem_cons_self
      obtain ⟨g, hg⟩ : ∃ g, noteAttr f type value = some g := ha.noteAttr f
      rw [List.flatMap_cons, List.append_assoc, parseAttrs_putAttr ha.short ha.type, hg]
      exact ih g fun b hb => hattrs b (List.mem_cons_of_mem _ hb)

theorem identity_length_lt {buf : Bytes} {f g : Found} (h : parseAttrs buf f = some (some g))
    (hf : ∀ id ∈ f.identity, id.length < 256) : ∀ id ∈ g.identity, id.length < 256 := by
  induction buf, f using parseAttrs.induct with
  | case1 type len rest f hlen =>
    rw [parseAttrs, if_pos hlen] at h
    obtain rfl := Option.some.inj (Option.some.inj h)
    exact hf
  | case2 len rest f hlen => simp [parseAttrs, hlen] at h
  | case3 type len rest f hlen hpad hnote => simp [parseAttrs, hlen, hpad, hnote] at h
  | case4 type len rest f hlen hpad g' hnote ih =>
    rw [parseAttrs, if_neg hlen, if_neg hpad, hnote] at h
    refine ih h ?_
    have htake : (rest.take len.toNat).length < 256 :=
      (List.length_take_le _ _).trans_lt len.toNat_lt
    unfold noteAttr at hnote
    split_ifs at hnote
    · obtain rfl := Option.some.inj hnote
      exact hf
    · obtain rfl := Option.some.inj hnote
      exact hf
    · obtain rfl := Option.some.inj hnote
      rintro id hid
      obtain rfl := Option.some.inj hid
      exact htake
    · obtain rfl := Option.some.inj hnote
      exact hf
  | case5 buf f hshort =>
    unfold parseAttrs at h
    split at h
    · exact absurd rfl (hshort _ _ _)
    · obtain rfl := Option.some.inj (Option.some.inj h)
      exact hf

/-! ## What is issued -/

def pads (identity : Option Bytes) : ℕ := (8 - (40 + identity.elim 0 fun id => 2 + id.length) % 8) % 8

variable {kw : KeyWrap} {srv : Server} {pacKey : Bytes} {expiry : ℤ} {identity : Option Bytes}

theorem length_pacAttrs (hkey : pacKey.length = pacKeyLen) :
    ((pacAttrs pacKey expiry identity).flatMap putAttr).length =
      40 + identity.elim 0 fun id => 2 + id.length := by
  cases identity <;> simp [pacAttrs, putAttr, putBe32, hkey, pacKeyLen]; omega

theorem pacBuf_eq (hkey : pacKey.length = pacKeyLen) : pacBuf pacKey expiry identity =
    (pacAttrs pacKey expiry identity).flatMap putAttr ++
      List.replicate (pads identity) pacOpaqueTypePad := by
  rw [pacBuf, length_pacAttrs hkey, pads]

theorem parseAttrs_pads (k : ℕ) (f : Found) :
    parseAttrs (List.replicate k pacOpaqueTypePad) f = if k ≤ 1 then some (some f) else none := by
  match k with
  | 0 => simp [parseAttrs]
  | 1 => simp [parseAttrs]
  | k + 2 => simp [List.replicate_succ, parseAttrs, pacOpaqueTypePad]

theorem beNat_putBe32 (n : ℤ) : (beNat (putBe32 n) : ℤ) = n % 2 ^ 32 := by
  rw [putBe32, beNat_putBe (by omega)]
  omega

theorem parseAttrs_pacBuf (hkey : pacKey.length = pacKeyLen)
    (hid : ∀ id ∈ identity, id.length < 256) :
    parseAttrs (pacBuf pacKey expiry identity) ⟨none, 0, none⟩ =
      if pads identity ≤ 1 then some (some ⟨some pacKey, beNat (putBe32 expiry), identity⟩)
      else none := by
  have hlife : (putBe32 expiry).length = 4 := length_putBe 4 _
  have hfront : ∀ rest, parseAttrs (putAttr (pacOpaqueTypeKey, pacKey) ++
      (putAttr (pacOpaqueTypeLifetime, putBe32 expiry) ++ rest)) ⟨none, 0, none⟩ =
      parseAttrs rest ⟨some pacKey, beNat (putBe32 expiry), none⟩ := by
    intro rest
    have hshort : pacKey.length < 256 := by rw [hkey]; decide
    rw [parseAttrs_putAttr hshort (by decide), show noteAttr ⟨none, 0, none⟩ pacOpaqueTypeKey pacKey =
      some ⟨some pacKey, 0, none⟩ by simp [noteAttr, hkey]]
    dsimp only
    rw [parseAttrs_putAttr (by rw [hlife]; decide) (by decide),
      show noteAttr ⟨some pacKey, 0, none⟩ pacOpaqueTypeLifetime (putBe32 expiry) =
        some ⟨some pacKey, beNat (putBe32 expiry), none⟩ by
          simp [noteAttr, hlife, pacOpaqueTypeLifetime, pacOpaqueTypeKey]]
  rw [pacBuf_eq hkey]
  cases identity with
  | none =>
    simp only [pacAttrs, Option.map_none, Option.toList_none, List.append_nil, List.flatMap_cons,
      List.flatMap_nil, List.append_assoc]
    rw [hfront, parseAttrs_pads]
  | some id =>
    simp only [pacAttrs, Option.map_some, Option.toList_some, List.cons_append, List.nil_append,
      List.flatMap_cons, List.flatMap_nil, List.append_assoc]
    rw [hfront, parseAttrs_putAttr (hid id rfl) (by decide)]
    simp only [noteAttr, pacOpaqueTypeIdentity, pacOpaqueTypeKey, pacOpaqueTypeLifetime]
    exact parseAttrs_pads _ _

theorem length_pacBuf (hkey : pacKey.length = pacKeyLen) :
    (pacBuf pacKey expiry identity).length =
      40 + (identity.elim 0 fun id => 2 + id.length) + pads identity := by
  rw [pacBuf_eq hkey, List.length_append, length_pacAttrs hkey, List.length_replicate]

theorem length_pacBuf_mod (hkey : pacKey.length = pacKeyLen) :
    (pacBuf pacKey expiry identity).length % 8 = 0 := by
  rw [length_pacBuf hkey, pads]
  omega

theorem length_pacBuf_lt (hkey : pacKey.length = pacKeyLen)
    (hid : ∀ id ∈ identity, id.length < 256) : (pacBuf pacKey expiry identity).length < 305 := by
  rw [length_pacBuf hkey, pads]
  cases identity with
  | none => exact (show 40 < 305 by decide)
  | some id =>
    have hlen := hid id rfl
    rw [Option.elim_some]
    omega

theorem putTlv_eq {data : Bytes} (h : data.length < 2 ^ 16) (type : ℕ) :
    putTlv type data = putBe16 type ++ (putBe16 data.length ++ data) := by
  rw [putTlv, Nat.mod_eq_of_lt h, List.take_length, List.append_assoc]

theorem decryptTicket_issued (hkey : pacKey.length = pacKeyLen)
    (hid : ∀ id ∈ identity, id.length < 256) :
    decryptTicket kw true (pacOpaqueTlv kw pacKey expiry identity) =
      some (pacBuf pacKey expiry identity) := by
  have hmod : (pacBuf pacKey expiry identity).length % 8 = 0 := length_pacBuf_mod hkey
  have hlen := kw.length_wrap _ hmod
  have hlt : (pacBuf pacKey expiry identity).length < 305 := length_pacBuf_lt hkey hid
  have hunwrap := kw.unwrap_wrap _ hmod
  rw [pacOpaqueTlv]
  generalize pacBuf pacKey expiry identity = buf at *
  generalize kw.wrap buf = w at *
  rw [putTlv_eq (by omega), decryptTicket, be16_putBe16 (by decide),
    List.drop_left' (length_putBe16 _), be16_putBe16 (by omega), ← List.append_assoc,
    List.drop_left' (by simp)]
  dsimp only
  rw [List.take_length, if_neg (by simp; omega), if_neg (by simp; omega), if_pos rfl, hunwrap]

theorem callback_issued (hkey : pacKey.length = pacKeyLen)
    (hid : ∀ id ∈ identity, id.length < 256) (now : Option ℤ) :
    eapFastSessionTicketCb kw srv true now (pacOpaqueTlv kw pacKey expiry identity) =
      if pads identity ≤ 1 then
        .accepted ⟨pacKey, beNat (putBe32 expiry), identity,
          sendNewPac srv now (beNat (putBe32 expiry))⟩
      else .overread := by
  unfold eapFastSessionTicketCb
  rw [decryptTicket_issued hkey hid]
  dsimp only
  rw [parseAttrs_pacBuf hkey hid]
  split_ifs <;> rfl

theorem length_putTlv {data : Bytes} (h : data.length < 2 ^ 16) (type : ℕ) :
    (putTlv type data).length = 4 + data.length := by
  rw [putTlv_eq h, List.length_append, List.length_append, length_putBe16, length_putBe16]
  omega

theorem build_isSome_iff (hkey : pacKey.length = pacKeyLen)
    (hid : ∀ id ∈ identity, id.length < 256) (now : ℤ) :
    (eapFastBuildPac kw srv identity pacKey now).isSome ↔ ∀ id ∈ identity, id.length ≤ 70 := by
  have hwrap := kw.length_wrap (pacBuf pacKey (now + srv.pacKeyLifetime) identity)
    (length_pacBuf_mod hkey)
  have hlt : (pacBuf pacKey (now + srv.pacKeyLifetime) identity).length < 305 :=
    length_pacBuf_lt hkey hid
  have hlife : (putBe32 (now + srv.pacKeyLifetime)).length = 4 := length_putBe 4 _
  have hkeyTlv := length_putTlv (by rw [hkey]; decide : pacKey.length < 2 ^ 16) pacTypePacKey
  have hopaqueTlv := @length_putTlv (kw.wrap (pacBuf pacKey (now + srv.pacKeyLifetime) identity))
    (by omega) pacTypePacOpaque
  have hlifeTlv := @length_putTlv (putBe32 (now + srv.pacKeyLifetime)) (by rw [hlife]; decide)
    pacTypeCredLifetime
  have htypeTlv : (putTlv pacTypePacType (putBe16 1)).length = 6 := by decide
  unfold eapFastBuildPac pacOpaqueTlv
  simp only [List.length_append, length_putBe16]
  rw [hkeyTlv, hopaqueTlv, hlifeTlv, htypeTlv, length_putTlv srv.short.1,
    length_putTlv srv.short.2, hlife, hkey]
  cases identity with
  | none => simp [pacKeyLen]; omega
  | some id =>
    have hlen := hid id rfl
    simp only [Option.map_some, Option.getD_some, Option.mem_def, Option.some.injEq, forall_eq']
    rw [length_putTlv (by omega)]
    split_ifs with h
    · simp [pacKeyLen] at h ⊢; omega
    · simp [pacKeyLen] at h ⊢; omega

/-! ## The round trip -/

/-- A PAC is issued, and its PAC-Opaque brings back the key, the time and the identity. -/
def RoundTrips (kw : KeyWrap) (srv : Server) (identity : Option Bytes) (pacKey : Bytes) (now : ℤ)
    (later : Option ℤ) : Prop :=
  (eapFastBuildPac kw srv identity pacKey now).isSome ∧
    ∃ t, eapFastSessionTicketCb kw srv true later
        (pacOpaqueTlv kw pacKey (now + srv.pacKeyLifetime) identity) = .accepted t ∧
      t.pacKey = pacKey ∧ t.lifetime = now + srv.pacKeyLifetime ∧ t.identity = identity

/-- The time has 32 bits, and an identity has at most 70 octets and leaves room for one octet of
padding at most. -/
def Recoverable (srv : Server) (identity : Option Bytes) (now : ℤ) : Prop :=
  (0 ≤ now + srv.pacKeyLifetime ∧ now + srv.pacKeyLifetime < 2 ^ 32) ∧
    ∀ id ∈ identity, id.length ≤ 70 ∧ (id.length % 8 = 5 ∨ id.length % 8 = 6)

theorem roundTrips_iff (hkey : pacKey.length = pacKeyLen) (now : ℤ) (later : Option ℤ) :
    RoundTrips kw srv identity pacKey now later ↔ Recoverable srv identity now := by
  by_cases hid : ∀ id ∈ identity, id.length < 256
  · have hpads : pads identity ≤ 1 ↔ ∀ id ∈ identity, id.length % 8 = 5 ∨ id.length % 8 = 6 := by
      unfold pads
      cases identity with
      | none => simp
      | some id =>
        simp only [Option.elim_some, Option.mem_def, Option.some.injEq, forall_eq']
        omega
    unfold RoundTrips Recoverable
    rw [build_isSome_iff hkey hid, callback_issued hkey hid, forall₂_and, ← hpads]
    have htime := beNat_putBe32 (now + srv.pacKeyLifetime)
    constructor
    · rintro ⟨hroom, t, ht, -, hlife, -⟩
      split_ifs at ht with hp
      obtain rfl := TicketResult.accepted.inj ht
      rw [htime] at hlife
      exact ⟨by omega, hroom, hp⟩
    · rintro ⟨hfits, hroom, hp⟩
      rw [if_pos hp]
      exact ⟨hroom, _, rfl, rfl, htime.trans (Int.emod_eq_of_lt hfits.1 hfits.2), rfl⟩
  · refine iff_of_false ?_ fun h => hid fun id hmem => by have := (h.2 id hmem).1; omega
    rintro ⟨-, t, ht, -, -, hident⟩
    refine hid ?_
    rw [← hident]
    unfold eapFastSessionTicketCb at ht
    split at ht
    · cases ht
    · split at ht
      · cases ht
      · cases ht
      · rename_i f hparse
        split at ht
        · cases ht
        · obtain rfl := TicketResult.accepted.inj ht
          exact identity_length_lt hparse nofun

/-- The PAC-Opaque that is issued for an identity and a time brings both back, with the key, exactly
for the times of 32 bits and identities of certain lengths. A ticket is read inside its buffers
exactly if there is no attribute of padding behind attributes that the reader goes over. -/
theorem pac_opaque_round_trip (kw : KeyWrap) (srv : Server) :
    (∀ identity pacKey now later, pacKey.length = pacKeyLen →
      (RoundTrips kw srv identity pacKey now later ↔ Recoverable srv identity now)) ∧
    ∀ mem now ticket, eapFastSessionTicketCb kw srv mem now ticket ≠ .overread ↔
      ∀ buf ∈ decryptTicket kw mem ticket, ¬ HasPad buf := by
  refine ⟨fun _ _ now later hkey => roundTrips_iff hkey now later, fun mem now ticket => ?_⟩
  unfold eapFastSessionTicketCb
  cases decryptTicket kw mem ticket with
  | none => simp
  | some buf =>
    simp only [Option.mem_def, Option.some.injEq, forall_eq']
    rw [← parseAttrs_eq_none_iff buf ⟨none, 0, none⟩]
    split
    · rename_i h
      simp [h]
    · rename_i h
      simp [h]
    · rename_i f h
      cases f.pacKey <;> simp [h]

def zerosWrap : KeyWrap where
  wrap p := List.replicate 8 0 ++ p
  unwrap c := some (c.drop 8)
  unwrap_wrap p _ := by simp
  length_wrap p _ := by simp

def sampleServer : Server := ⟨[], [], by decide, 604800, 86400⟩

theorem nine_octets_overread :
    ¬ RoundTrips zerosWrap sampleServer (some (List.replicate 9 0x61)) (List.replicate 32 0) 0
      none := by
  rintro ⟨-, t, ht, -⟩
  rw [callback_issued (by decide) (by simp)] at ht
  simp [pads] at ht

end Hostapd.EapServer.FastPac
