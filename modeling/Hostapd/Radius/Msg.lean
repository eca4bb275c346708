import Hostapd.Common.Defs
import Hostapd.Lib.Checked

/-!
# RADIUS messages

Building, finishing, parsing and verifying RADIUS messages, as `radius.c` does it: over one
buffer that holds the header and the attributes, and an array of the attributes' offsets.

* **`RadiusMsg`**: the buffer with its allocated size, and the offset array with its own. The
  pointers of the source into the buffer are offsets here, and `wpabuf_resize` and the growth of
  the array change the two sizes.
* **Receiving**: `parse`, `getEap`, `verifyMsgAuth`, `verify`.
* **Attributes in place**: `readAttrs` reads the headers with bounds and finds the part of the
  buffer that each payload is.
-/

namespace Hostapd.Radius

open Hostapd.Lib

/-- A 16-octet digest or authenticator, `u8[MD5_MAC_LEN]`. -/
abbrev Digest := Vector UInt8 16

/-- Length of the message header. Source: `radius.h`, `sizeof(struct radius_hdr)`. -/
def hdrLen : ℕ := 20

/-- Length of an attribute header. Source: `radius.h`, `sizeof(struct radius_attr_hdr)`. -/
def attrHdrLen : ℕ := 2

/-- Longest attribute payload. Source: `radius.h`, `RADIUS_MAX_ATTR_LEN`. -/
def maxAttrLen : ℕ := 255 - attrHdrLen

/-- Source: `radius.h`, `RADIUS_ATTR_EAP_MESSAGE`. -/
def attrEapMessage : UInt8 := 79

/-- Source: `radius.h`, `RADIUS_ATTR_MESSAGE_AUTHENTICATOR`. -/
def attrMessageAuthenticator : UInt8 := 80

/-- A message under construction or parsed. `buf` are the used octets of the buffer, of `size`
allocated ones; `attrPos` are the used entries of the offset array, of `attrSize` allocated ones.
Source: `radius.c`, `struct radius_msg`, with its `struct wpabuf`. -/
structure RadiusMsg where
  buf : Bytes
  size : ℕ
  attrPos : List ℕ
  attrSize : ℕ
  deriving DecidableEq

/-- Source: `radius.h`, `RADIUS_DEFAULT_MSG_SIZE` and `RADIUS_DEFAULT_ATTR_COUNT`. -/
def defaultMsgSize : ℕ := 1024

@[inherit_doc defaultMsgSize]
def defaultAttrCount : ℕ := 16

/-- The attribute header and payload at an offset. Source: `radius_get_attr_hdr`. -/
def getAttr (msg : RadiusMsg) (pos : ℕ) : Record := Record.readAt attrHdrLen msg.buf pos

def attrs (msg : RadiusMsg) : List Record := msg.attrPos.map (getAttr msg)

/-- An attribute through the pointer to its header: the header is read, and the payload is the part
of the buffer that the pointer may be used for. Source: `radius_get_attr_hdr`. -/
def readAttr (msg : RadiusMsg) (pos : ℕ) : Except Stop Record := do
  let type ← rd8 msg.buf pos
  let length ← rd8 msg.buf (pos + 1)
  let payload ← rdSlice msg.buf (pos + attrHdrLen) (pos + length.toNat)
  return (type, payload)

/-- The attributes through the pointers to their headers. -/
def readAttrs (msg : RadiusMsg) : Except Stop (List Record) := msg.attrPos.mapM (readAttr msg)

/-- The authenticator in the header, `msg->hdr->authenticator`. -/
def authenticator (msg : RadiusMsg) : Bytes := (msg.buf.drop 4).take 16

/-- The identifier in the header, `msg->hdr->identifier`. -/
def identifier (msg : RadiusMsg) : UInt8 := msg.buf.getD 1 0

/-- Source: `radius_msg_new`, `radius_msg_set_hdr` on a zeroed buffer. -/
def new (code identifier : UInt8) : RadiusMsg where
  buf := [code, identifier] ++ List.replicate 18 0
  size := defaultMsgSize
  attrPos := []
  attrSize := defaultAttrCount

/-- Append an offset, doubling a full array. Source: `radius_msg_add_attr_to_array`. -/
def addAttrToArray (msg : RadiusMsg) (pos : ℕ) : RadiusMsg :=
  { msg with
    attrSize := if msg.attrPos.length ≥ msg.attrSize then msg.attrSize * 2 else msg.attrSize
    attrPos := msg.attrPos ++ [pos] }

/-- Grow a buffer that lacks the room. Source: `wpabuf_tailroom`, `wpabuf_resize`. -/
def makeRoom (msg : RadiusMsg) (needed : ℕ) : RadiusMsg :=
  if msg.size - msg.buf.length < needed then { msg with size := msg.buf.length + needed } else msg

/-- Append octets to the buffer; `none` is the `abort` of an overflow.
Source: `wpabuf_put`, `wpabuf_put_data`. -/
def put (msg : RadiusMsg) (data : Bytes) : Option RadiusMsg :=
  if msg.buf.length + data.length > msg.size then none
  else some { msg with buf := msg.buf ++ data }

/-- Append an attribute; `none` when the payload is too long.
Source: `radius_msg_add_attr`. -/
def addAttr (msg : RadiusMsg) (type : UInt8) (data : Bytes) : Option RadiusMsg :=
  if data.length > maxAttrLen then none
  else
    let bufNeeded := attrHdrLen + data.length
    let pos := msg.buf.length
    (put (makeRoom msg bufNeeded) (Record.encode attrHdrLen (type, data))).map fun msg =>
      addAttrToArray msg pos

/-- The loop of `radius_msg_add_eap` over the data left, bounded by its length. -/
def addEapLoop : ℕ → RadiusMsg → Bytes → Bool × RadiusMsg
  | 0, msg, _ => (true, msg)
  | n + 1, msg, data =>
    if data.length > 0 then
      match addAttr msg attrEapMessage (data.take maxAttrLen) with
      | none => (false, msg)
      | some msg => addEapLoop n msg (data.drop maxAttrLen)
    else (true, msg)

/-- Append an EAP packet in as many EAP-Message attributes as it needs.
Source: `radius_msg_add_eap`. -/
def addEap (msg : RadiusMsg) (data : Bytes) : Bool × RadiusMsg := addEapLoop data.length msg data

/-- The loop of `radius_msg_copy_attr` over the attributes of the source; `none` is `-1`. -/
def copyAttrLoop (type : UInt8) : List Record → ℕ → RadiusMsg → Option ℕ × RadiusMsg
  | [], count, dst => (some count, dst)
  | attr :: l, count, dst =>
    if attr.1 = type then
      match addAttr dst type attr.2 with
      | none => (none, dst)
      | some dst => copyAttrLoop type l (count + 1) dst
    else copyAttrLoop type l count dst

/-- Append the attributes of a type of another message. Source: `radius_msg_copy_attr`. -/
def copyAttr (dst src : RadiusMsg) (type : UInt8) : Option ℕ × RadiusMsg :=
  copyAttrLoop type (attrs src) 0 dst

def RadiusMsg.write (msg : RadiusMsg) (pos : ℕ) (data : Bytes) : RadiusMsg :=
  { msg with buf := overwrite msg.buf pos data }

/-! ## Finishing a message -/

section Digests

variable (hmacMd5 : Bytes → Bytes → Digest) (md5Vector : List Bytes → Digest)

/-- The response authenticator over the header's first four octets, the request's authenticator,
the attributes and the secret. -/
def responseAuth (msg : RadiusMsg) (reqAuth secret : Bytes) : Digest :=
  md5Vector [msg.buf.take 4, reqAuth, msg.buf.drop hdrLen, secret]

/-- Finish a response: append a zeroed Message-Authenticator, set the length, compute the
Message-Authenticator over the message with the request's authenticator in its header, then the
response authenticator. The length field holds 16 bits; `false` when it did not fit, or the
attribute could not be added. Source: `radius_msg_finish_srv`. -/
def finishSrv (msg : RadiusMsg) (secret : Bytes) (reqAuthenticator : Digest) : Bool × RadiusMsg :=
  match addAttr msg attrMessageAuthenticator (List.replicate 16 0) with
  | none => (false, msg)
  | some m =>
    let attr := msg.buf.length
    let m := m.write 2 (putBe16 m.buf.length)
    let m := m.write 4 reqAuthenticator.toList
    let m := m.write (attr + attrHdrLen) (hmacMd5 secret m.buf).toList
    let m := m.write 4 (responseAuth md5Vector m reqAuthenticator.toList secret).toList
    (decide (m.buf.length ≤ 0xffff), m)

/-- Finish an Access-Request: append a zeroed Message-Authenticator, set the length, compute the
Message-Authenticator over the message. An empty secret stands for none.
Source: `radius_msg_finish`. -/
def finish (msg : RadiusMsg) (secret : Bytes) : Bool × RadiusMsg :=
  if secret ≠ [] then
    match addAttr msg attrMessageAuthenticator (List.replicate 16 0) with
    | none => (false, msg)
    | some m =>
      let attr := msg.buf.length
      let m := m.write 2 (putBe16 m.buf.length)
      let m := m.write (attr + attrHdrLen) (hmacMd5 secret m.buf).toList
      (decide (m.buf.length ≤ 0xffff), m)
  else
    let m := msg.write 2 (putBe16 msg.buf.length)
    (decide (m.buf.length ≤ 0xffff), m)

/-- Finish an Accounting-Request: set the length, compute the Request Authenticator over the
message with zeroes in its place. Source: `radius_msg_finish_acct`. -/
def finishAcct (msg : RadiusMsg) (secret : Bytes) : RadiusMsg :=
  let m := msg.write 2 (putBe16 msg.buf.length)
  let m := m.write 4 (List.replicate 16 0)
  m.write 4 (md5Vector [m.buf, secret]).toList

/-! ## Receiving -/

/-- The loop of `radius_msg_parse` over the attributes from `pos` to the end of the buffer,
bounded by the number of octets; `none` is the failure path. -/
def parseLoop : ℕ → RadiusMsg → ℕ → Option RadiusMsg
  | 0, msg, _ => some msg
  | n + 1, msg, pos =>
    if pos < msg.buf.length then
      if msg.buf.length - pos < attrHdrLen then none
      else
        let length := (msg.buf.getD (pos + 1) 0).toNat
        if pos + length > msg.buf.length ∨ length < attrHdrLen then none
        else parseLoop n (addAttrToArray msg pos) (pos + length)
    else some msg

/-- Parse a message: copy as many octets as its length field says and find the attributes.
Source: `radius_msg_parse`. -/
def parse (data : Bytes) : Option RadiusMsg :=
  if data.length < hdrLen then none
  else
    let msgLen := be16 (data.drop 2)
    if msgLen < hdrLen ∨ msgLen > data.length then none
    else
      let msg : RadiusMsg :=
        { buf := data.take msgLen, size := msgLen, attrPos := [], attrSize := defaultAttrCount }
      parseLoop msgLen msg hdrLen

/-- The payloads of the EAP-Message attributes, joined; `none` when there is nothing in them.
Source: `radius_msg_get_eap`. -/
def getEap (msg : RadiusMsg) : Option Bytes :=
  let eap := ((attrs msg).filter fun attr => attr.1 = attrEapMessage).flatMap Prod.snd
  if eap.length = 0 then none else some eap

/-- The search of `radius_msg_verify_msg_auth` for its attribute: `none` when there is none or
more than one. -/
def findMsgAuth (msg : RadiusMsg) : Option ℕ :=
  match msg.attrPos.filter fun pos => (getAttr msg pos).1 = attrMessageAuthenticator with
  | [pos] => some pos
  | _ => none

/-- Check the Message-Authenticator: with the attribute zeroed and the request's authenticator in
the header, the HMAC over the message is what the attribute held. `0` accepts, `1` rejects.
Source: `radius_msg_verify_msg_auth`, which puts both back after computing the HMAC. -/
def verifyMsgAuth (msg : RadiusMsg) (secret : Bytes) (reqAuth : Option Bytes) : ℕ :=
  match findMsgAuth msg with
  | none => 1
  | some attr =>
    let orig := (msg.buf.drop (attr + attrHdrLen)).take 16
    let m := msg.write (attr + attrHdrLen) (List.replicate 16 0)
    let m := match reqAuth with
      | some auth => m.write 4 auth
      | none => m
    if orig = (hmacMd5 secret m.buf).toList then 0 else 1

/-- Check a response against the request it answers: with `auth`, its Message-Authenticator, and
in any case its response authenticator. Source: `radius_msg_verify`. -/
def verify (msg : RadiusMsg) (secret : Bytes) (sentMsg : Option RadiusMsg) (auth : Bool) : ℕ :=
  match sentMsg with
  | none => 1
  | some sent =>
    if auth ∧ verifyMsgAuth hmacMd5 msg secret (some (authenticator sent)) ≠ 0 then 1
    else if (responseAuth md5Vector msg (authenticator sent) secret).toList = authenticator msg
      then 0 else 1

end Digests

/-!
## RADIUS attributes

The attributes that the access point writes into its requests and reads from the responses.

* **Writing**: `addAttrs`, several in order; `hideUserPassword`, the User-Password under a secret.
* **Reading**: `getAttrInt32`, and `getVlanid`, which collects the tunnel attributes of a message by
  their tags.
* `radiusAddrFormat`, `radius8021xAddrFormat`: an address as the requests spell it.
-/

/-! ### Constants -/

/-- Source: `radius.h`, `RADIUS_CODE_*`. -/
def codeAccessRequest : UInt8 := 1

@[inherit_doc codeAccessRequest]
def codeAccessAccept : UInt8 := 2

@[inherit_doc codeAccessRequest]
def codeAccessReject : UInt8 := 3

@[inherit_doc codeAccessRequest]
def codeAccountingRequest : UInt8 := 4

/-- Source: `radius.h`, `RADIUS_ATTR_*`. -/
def attrUserName : UInt8 := 1

@[inherit_doc attrUserName]
def attrUserPassword : UInt8 := 2

@[inherit_doc attrUserName]
def attrNasIpAddress : UInt8 := 4

@[inherit_doc attrUserName]
def attrSessionTimeout : UInt8 := 27

@[inherit_doc attrUserName]
def attrCalledStationId : UInt8 := 30

@[inherit_doc attrUserName]
def attrCallingStationId : UInt8 := 31

@[inherit_doc attrUserName]
def attrNasIdentifier : UInt8 := 32

@[inherit_doc attrUserName]
def attrNasPortType : UInt8 := 61

@[inherit_doc attrUserName]
def attrTunnelType : UInt8 := 64

@[inherit_doc attrUserName]
def attrTunnelMediumType : UInt8 := 65

@[inherit_doc attrUserName]
def attrConnectInfo : UInt8 := 77

@[inherit_doc attrUserName]
def attrTunnelPrivateGroupId : UInt8 := 81

@[inherit_doc attrUserName]
def attrAcctInterimInterval : UInt8 := 85

@[inherit_doc attrUserName]
def attrNasIpv6Address : UInt8 := 95

/-- Source: `radius.h`, `RADIUS_NAS_PORT_TYPE_IEEE_802_11`. -/
def nasPortTypeIeee80211 : ℕ := 19

/-- Source: `radius.h`, `RADIUS_TUNNEL_TAGS`. -/
def tunnelTags : ℕ := 32

/-- Source: `radius.h`, `RADIUS_TUNNEL_TYPE_VLAN`. -/
def tunnelTypeVlan : ℕ := 13

/-- Source: `radius.h`, `RADIUS_TUNNEL_MEDIUM_TYPE_802`. -/
def tunnelMediumType802 : ℕ := 6

/-! ### Writing -/

/-- The code in the header, `msg->hdr->code`. -/
def code (msg : RadiusMsg) : UInt8 := msg.buf.getD 0 0

/-- Append attributes in order, until one cannot be added. -/
def addAttrs (msg : RadiusMsg) : List Record → Option RadiusMsg
  | [] => some msg
  | attr :: l => (addAttr msg attr.1 attr.2).bind fun msg => addAttrs msg l

/-- A hexadecimal digit; `alpha` is the letter for ten. -/
def hexDigit (alpha : UInt8) (n : ℕ) : UInt8 :=
  if n < 10 then UInt8.ofNat (48 + n) else alpha + UInt8.ofNat (n - 10)

def hexOctet (alpha : UInt8) (b : UInt8) : Bytes :=
  [hexDigit alpha (b.toNat / 16), hexDigit alpha (b.toNat % 16)]

def addrOctets (addr : MacAddr) : Bytes := putBe 6 addr.toNat

/-- Six octets in small letters. Source: `radius.h`, `RADIUS_ADDR_FORMAT`. -/
def radiusAddrFormat (addr : MacAddr) : Bytes := (addrOctets addr).flatMap (hexOctet 97)

/-- Six octets in capital letters, with hyphens between them.
Source: `radius.h`, `RADIUS_802_1X_ADDR_FORMAT`. -/
def radius8021xAddrFormat (addr : MacAddr) : Bytes :=
  ((addrOctets addr).map (hexOctet 65)).intersperse [45] |>.flatten

section UserPassword

variable (md5Vector : List Bytes → Digest)

/-- The loop over the blocks of 16 octets; `prev` is the authenticator or the hidden block before.
-/
def hideBlocks (secret : Bytes) : ℕ → Bytes → Bytes → Bytes
  | 0, _, _ => []
  | n + 1, prev, data =>
    let hash := (md5Vector [secret, prev]).toList
    let block := (data.take 16).zipWith (· ^^^ ·) hash
    block ++ hideBlocks secret n block (data.drop 16)

/-- The payload of a User-Password attribute. `none` when the password is too long.
Source: `radius_msg_add_attr_user_password`. -/
def hideUserPassword (reqAuth data secret : Bytes) : Option Bytes :=
  if data.length > 128 then none
  else
    let blocks := (data.length + 15) / 16
    let buf := data ++ List.replicate (blocks * 16 - data.length) 0
    some (hideBlocks md5Vector secret blocks reqAuth buf)

end UserPassword

/-! ### Reading -/

/-- The first attribute of a type, read as a 32-bit integer.
Source: `radius_msg_get_attr_int32`. -/
def getAttrInt32 (msg : RadiusMsg) (type : UInt8) : Option ℕ :=
  match (attrs msg).find? fun attr => attr.1 = type with
  | none => none
  | some attr => if attr.2.length = 4 then some (beNat attr.2) else none

/-- Source: `radius.c`, `struct radius_tunnel_attrs`. -/
structure RadiusTunnelAttrs where
  tagUsed : ℕ
  type : ℕ
  mediumType : ℕ
  vlanid : ℤ

/-- The digits at the front of a string as a number. -/
def atoiDigits : ℕ → Bytes → ℕ
  | n, [] => n
  | n, b :: l => if 48 ≤ b ∧ b ≤ 57 then atoiDigits (n * 10 + (b.toNat - 48)) l else n

/-- Source: the C library's `atoi`. -/
def atoi (data : Bytes) : ℤ :=
  match data.dropWhile fun b => b = 32 ∨ (9 ≤ b ∧ b ≤ 13) with
  | 43 :: l => atoiDigits 0 l
  | 45 :: l => -atoiDigits 0 l
  | l => atoiDigits 0 l

/-- The loop body of `radius_msg_get_vlanid`. -/
def tunnelStep (tunnel : List RadiusTunnelAttrs) (attr : Record) : List RadiusTunnelAttrs :=
  match attr.2 with
  | [] => tunnel
  | tag :: rest =>
    let tun := if tunnelTags ≤ tag.toNat then 0 else tag.toNat
    if attr.1 = attrTunnelType then
      if attr.2.length = 4 then
        tunnel.modify tun fun t => { t with tagUsed := t.tagUsed + 1, type := beNat rest }
      else tunnel
    else if attr.1 = attrTunnelMediumType then
      if attr.2.length = 4 then
        tunnel.modify tun fun t => { t with tagUsed := t.tagUsed + 1, mediumType := beNat rest }
      else tunnel
    else if attr.1 = attrTunnelPrivateGroupId then
      let data := if tag.toNat < tunnelTags then rest else attr.2
      if 10 ≤ data.length then tunnel
      else tunnel.modify tun fun t => { t with tagUsed := t.tagUsed + 1, vlanid := atoi data }
    else tunnel

/-- The VLAN of the first tunnel that has one, else `-1`. Source: `radius_msg_get_vlanid`. -/
def getVlanid (msg : RadiusMsg) : ℤ :=
  let tunnel := (attrs msg).foldl tunnelStep (List.replicate tunnelTags ⟨0, 0, 0, 0⟩)
  match tunnel.find? fun t => t.tagUsed ≠ 0 ∧ t.type = tunnelTypeVlan ∧
      t.mediumType = tunnelMediumType802 ∧ 0 < t.vlanid with
  | none => -1
  | some t => t.vlanid

end Hostapd.Radius
