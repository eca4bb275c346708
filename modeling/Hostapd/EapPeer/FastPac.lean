import Hostapd.Common.Defs
import Hostapd.Lib.Hex
import Hostapd.Lib.Lines
import Hostapd.Lib.Octets

/-!
# EAP-FAST at the peer: storage of PACs

`eap_fast_pac.c`, with PAC files that are blobs, and the part of `eap_fast.c` that makes an entry of
the PAC-Info that a server sends.

* **`EapFastPac`**: an entry.
* **`eapFastSavePac`** writes entries as text into a buffer that grows (`TextBuf`), field by field
  (`eapFastWrite`).
* **`eapFastLoadPac`** reads a text line by line. `eapFastReadLine` cuts a line to the line buffer
  and splits it, `parseField` is what the functions for the fields have in common.
* **`eapFastSavePacBin`** and **`eapFastLoadPacBin`**: the binary format.

Memory is not short, and an allocation of no octets is not NULL.
-/

namespace Hostapd.EapPeer

open Hostapd.Lib

/-! ## Entries -/

def eapFastPacKeyLen : ℕ := 32

def pacTypeTunnelPac : ℕ := 1

def pacTypeMachineAuthentication : ℕ := 2

def pacTypeUserAuthorization : ℕ := 3

def knownPacType (t : ℕ) : Bool :=
  t = pacTypeTunnelPac || t = pacTypeUserAuthorization || t = pacTypeMachineAuthentication

/-- A PAC. Source: `struct eap_fast_pac`. -/
structure EapFastPac where
  pacKey : Bytes
  pacOpaque : Option Bytes
  pacInfo : Option Bytes
  aId : Option Bytes
  iId : Option Bytes
  aIdInfo : Option Bytes
  pacType : ℕ
  deriving DecidableEq

/-! ## Writing text -/

def pacFileHdr : Bytes := ascii "wpa_supplicant EAP-FAST PAC file - version 1"

/-- A buffer for text: what stands in front of `pos`, and the size. -/
structure TextBuf where
  text : Bytes
  bufLen : ℕ

/-- `os_snprintf` at `pos`, where the text and its NUL fit. -/
def TextBuf.print (b : TextBuf) (s : Bytes) : Option TextBuf :=
  if s.length < b.bufLen - b.text.length then some { b with text := b.text ++ s } else none

/-- Source: `wpa_snprintf_hex`. -/
def TextBuf.printHex (b : TextBuf) : Bytes → TextBuf
  | [] => b
  | c :: data =>
    match b.print (hexPair c) with
    | none => b
    | some b => b.printHex data

/-- The octets of a field as characters, and whether they fit. -/
def TextBuf.printChars (b : TextBuf) : Bytes → TextBuf × Bool
  | [] => (b, true)
  | c :: data =>
    match b.print [c] with
    | none => (b, false)
    | some b => b.printChars data

def writeTxt (b : TextBuf) (field data : Bytes) : TextBuf :=
  match b.print (field ++ ascii "-txt=") with
  | none => b
  | some b =>
    match b.printChars data with
    | (b, false) => b
    | (b, true) => (b.print [newline]).getD b

def eapFastWrite (b : TextBuf) (field : Bytes) (data : Option Bytes) (txt : Bool) : TextBuf :=
  match data with
  | none => b
  | some data =>
    let need := field.length + data.length * 2 + 30 +
      if txt then field.length + data.length + 20 else 0
    let b := if b.bufLen < b.text.length + need then { b with bufLen := b.bufLen + need } else b
    match b.print (field ++ ascii "=") with
    | none => b
    | some b =>
      let b := b.printHex data
      match b.print [newline] with
      | none => b
      | some b => if txt then writeTxt b field data else b

def eapFastAddPacData (pac : EapFastPac) (b : TextBuf) : Option TextBuf :=
  match b.print (ascii "START\nPAC-Type=" ++ ascii (toString pac.pacType) ++ [newline]) with
  | none => none
  | some b =>
    let b := eapFastWrite b (ascii "PAC-Key") (some pac.pacKey) false
    let b := eapFastWrite b (ascii "PAC-Opaque") pac.pacOpaque false
    let b := eapFastWrite b (ascii "PAC-Info") pac.pacInfo false
    let b := eapFastWrite b (ascii "A-ID") pac.aId false
    let b := eapFastWrite b (ascii "I-ID") pac.iId true
    let b := eapFastWrite b (ascii "A-ID-Info") pac.aIdInfo true
    b.print (ascii "END\n")

def addPacs : List EapFastPac → TextBuf → Option TextBuf
  | [], b => some b
  | pac :: l, b =>
    match eapFastAddPacData pac b with
    | none => none
    | some b => addPacs l b

/-- The data of the blob. Source: `eap_fast_save_pac`. -/
def eapFastSavePac (l : List EapFastPac) : Option Bytes :=
  match ({ text := [], bufLen := 1024 } : TextBuf).print (pacFileHdr ++ [newline]) with
  | none => none
  | some b => (addPacs l b).map TextBuf.text

/-! ## Reading text -/

/-- Source: `eap_fast_init_pac_data`, `buf_len`. -/
def lineBufLen : ℕ := 2048

/-- A line as it stands in the line buffer: cut to its length, and up to a NUL or a carriage
return. -/
def lineText (line : Bytes) : Bytes :=
  (line.take (lineBufLen - 1)).takeWhile fun c => c ≠ 0 ∧ c ≠ newline ∧ c ≠ 13

/-- The sign that separates a field from its value. -/
def equalsSign : UInt8 := 0x3d

def splitLine (s : Bytes) : Bytes × Option Bytes :=
  (s.takeWhile (· ≠ equalsSign), (s.dropWhile (· ≠ equalsSign)).tail?)

/-- What stands in the line buffer after a line has been read, and the text behind it.
Source: `eap_fast_read_line`. -/
def eapFastReadLine (pos : Bytes) : Option ((Bytes × Option Bytes) × Bytes) :=
  if pos = [] then none
  else some (splitLine (lineText (pos.takeWhile (· ≠ newline))),
    (pos.dropWhile (· ≠ newline)).tail)

def eapFastParseHex (value : Option Bytes) : Option Bytes := value.bind readHex

/-- The number at the front of a string, as a long holds it and then an int. Source: `atoi`. -/
def atoi (s : Bytes) : ℤ :=
  let s := s.dropWhile fun c => c = 0x20 ∨ (0x09 ≤ c ∧ c ≤ 0x0d)
  let n : ℤ :=
    match s with
    | 0x2d :: s => -(numeral isdigit 10 s : ℤ)
    | 0x2b :: s => numeral isdigit 10 s
    | s => numeral isdigit 10 s
  int32 (max (-2 ^ 63) (min (2 ^ 63 - 1) n))

inductive PacError
  | header | startWithoutEnd | endWithoutStart | unexpectedLine | pacType | pacKey | pacOpaque | aId
  | iId | aIdInfo | notTerminated
  /-- `atoi` is called with NULL -/
  | nullType
  deriving DecidableEq

inductive PacField
  | pacType | pacKey | pacOpaque | aId | iId | aIdInfo
  deriving DecidableEq

inductive PacValue
  | type (t : ℕ)
  | octets (data : Bytes)
  deriving DecidableEq

def PacField.name : PacField → Bytes
  | pacType => ascii "PAC-Type"
  | pacKey => ascii "PAC-Key"
  | pacOpaque => ascii "PAC-Opaque"
  | aId => ascii "A-ID"
  | iId => ascii "I-ID"
  | aIdInfo => ascii "A-ID-Info"

def hexValueOf (err : PacError) (pos : Option Bytes) : Except PacError PacValue :=
  match eapFastParseHex pos with
  | none => .error err
  | some data => .ok (.octets data)

/-- The value of a `PAC-Type` line. Source: `eap_fast_parse_pac_type`. -/
def eapFastParsePacType (pos : Option Bytes) : Except PacError PacValue :=
  match pos with
  | none => .error .nullType
  | some pos =>
    let t := (atoi pos % 2 ^ 16).toNat
    if knownPacType t then .ok (.type t) else .error .pacType

/-- The value of a `PAC-Key` line. Source: `eap_fast_parse_pac_key`. -/
def eapFastParsePacKey (pos : Option Bytes) : Except PacError PacValue :=
  match eapFastParseHex pos with
  | none => .error .pacKey
  | some key => if key.length = eapFastPacKeyLen then .ok (.octets key) else .error .pacKey

def eapFastParsePacOpaque : Option Bytes → Except PacError PacValue := hexValueOf .pacOpaque

def eapFastParseAId : Option Bytes → Except PacError PacValue := hexValueOf .aId

def eapFastParseIId : Option Bytes → Except PacError PacValue := hexValueOf .iId

def eapFastParseAIdInfo : Option Bytes → Except PacError PacValue := hexValueOf .aIdInfo

def parseField : PacField → Option Bytes → Except PacError PacValue
  | .pacType => eapFastParsePacType
  | .pacKey => eapFastParsePacKey
  | .pacOpaque => eapFastParsePacOpaque
  | .aId => eapFastParseAId
  | .iId => eapFastParseIId
  | .aIdInfo => eapFastParseAIdInfo

/-- A field is set; no field takes a value of the other kind. -/
def EapFastPac.set (pac : EapFastPac) : PacField × PacValue → EapFastPac
  | (.pacType, .type t) => { pac with pacType := t }
  | (.pacKey, .octets data) => { pac with pacKey := data }
  | (.pacOpaque, .octets data) => { pac with pacOpaque := some data }
  | (.aId, .octets data) => { pac with aId := some data }
  | (.iId, .octets data) => { pac with iId := some data }
  | (.aIdInfo, .octets data) => { pac with aIdInfo := some data }
  | _ => pac

def EapFastPac.get (pac : EapFastPac) : PacField → Option PacValue
  | .pacType => some (.type pac.pacType)
  | .pacKey => some (.octets pac.pacKey)
  | .pacOpaque => pac.pacOpaque.map .octets
  | .aId => pac.aId.map .octets
  | .iId => pac.iId.map .octets
  | .aIdInfo => pac.aIdInfo.map .octets

def fieldOf (name : Bytes) : Option PacField :=
  [.pacType, .pacKey, .pacOpaque, .aId, .iId, .aIdInfo].find? fun f => f.name = name

/-- The entry in a block, and the entries before it. -/
abbrev LoadState := Option EapFastPac × List EapFastPac

def eapFastParseStart (st : LoadState) : Except PacError LoadState :=
  match st.1 with
  | some _ => .error .startWithoutEnd
  | none =>
    .ok (some ⟨List.replicate eapFastPacKeyLen 0, none, none, none, none, none, pacTypeTunnelPac⟩,
      st.2)

def eapFastParseEnd (st : LoadState) : Except PacError LoadState :=
  match st.1 with
  | none => .error .endWithoutStart
  | some pac => .ok (none, st.2 ++ [pac])

/-- A line of the text. Source: `eap_fast_load_pac`. -/
def loadLine (st : LoadState) (line : Bytes × Option Bytes) : Except PacError LoadState :=
  if line.1 = ascii "START" then eapFastParseStart st
  else if line.1 = ascii "END" then eapFastParseEnd st
  else
    match st.1 with
    | none => .error .unexpectedLine
    | some pac =>
      match fieldOf line.1 with
      | none => .ok st
      | some f =>
        match parseField f line.2 with
        | .error err => .error err
        | .ok v => .ok (some (pac.set (f, v)), st.2)

/-- The lines of the text, for as many as it can have. -/
def loadLines : ℕ → Bytes → LoadState → Except PacError LoadState
  | 0, _, st => .ok st
  | n + 1, pos, st =>
    match eapFastReadLine pos with
    | none => .ok st
    | some (line, pos) =>
      match loadLine st line with
      | .error err => .error err
      | .ok st => loadLines n pos st

/-- The entries of a blob. Source: `eap_fast_load_pac`. -/
def eapFastLoadPac (data : Bytes) : Except PacError (List EapFastPac) :=
  match eapFastReadLine data with
  | none => .error .header
  | some (line, pos) =>
    if line.1 ≠ pacFileHdr then .error .header
    else
      match loadLines pos.length pos (none, []) with
      | .error err => .error err
      | .ok (some _, _) => .error .notTerminated
      | .ok (none, l) => .ok l

/-! ## The binary format -/

def eapFastPacBinaryMagic : ℕ := 0x6ae4920c

def eapFastPacBinaryFormatVersion : ℕ := 0

def pacBin (pac : EapFastPac) : Bytes :=
  putBe16 pac.pacType ++ pac.pacKey ++
    putBe16 (pac.pacOpaque.getD []).length ++ pac.pacOpaque.getD [] ++
    putBe16 (pac.pacInfo.getD []).length ++ pac.pacInfo.getD []

/-- The data of the blob. Source: `eap_fast_save_pac_bin`. -/
def eapFastSavePacBin (l : List EapFastPac) : Option Bytes :=
  if l.any fun pac => 65535 < (pac.pacOpaque.getD []).length ∨
      65535 < (pac.pacInfo.getD []).length then none
  else
    some (putBe 4 eapFastPacBinaryMagic ++ putBe16 eapFastPacBinaryFormatVersion ++
      l.flatMap pacBin)

def pacTypeAId : ℕ := 4

def pacTypeIId : ℕ := 5

def pacTypeAIdInfo : ℕ := 7

def pacTypePacType : ℕ := 10

/-- The attributes of PAC-Info, for as many as there can be. Source: `eap_fast_pac_get_a_id`. -/
def eapFastPacGetAId : ℕ → Bytes → EapFastPac → EapFastPac
  | 0, _, pac => pac
  | n + 1, pos, pac =>
    if pos.length ≤ 4 then pac
    else
      let type := be16 pos
      let len := be16 (pos.drop 2)
      let value := (pos.drop 4).take len
      if (pos.drop 4).length < len then pac
      else
        eapFastPacGetAId n ((pos.drop 4).drop len)
          { pac with
            aId := if type = pacTypeAId then some value else pac.aId
            aIdInfo := if type = pacTypeAIdInfo then some value else pac.aIdInfo }

/-- An entry of the file, and what stands behind it. -/
def loadPacBin (pos : Bytes) : Option (EapFastPac × Bytes) :=
  if pos.length < 2 + 32 + 2 + 2 then none
  else
    let type := be16 pos
    let key := (pos.drop 2).take eapFastPacKeyLen
    let opaqueLen := be16 (pos.drop 34)
    let pos := pos.drop 36
    if pos.length < opaqueLen + 2 then none
    else
      let pacOpaque := pos.take opaqueLen
      let infoLen := be16 (pos.drop opaqueLen)
      let pos := pos.drop (opaqueLen + 2)
      if pos.length < infoLen then none
      else
        let pacInfo := pos.take infoLen
        some (eapFastPacGetAId infoLen pacInfo
          ⟨key, some pacOpaque, some pacInfo, none, none, none, type⟩, pos.drop infoLen)

/-- The entries of the file, for as many as there can be. -/
def loadPacsBin : ℕ → Bytes → Option (List EapFastPac)
  | 0, _ => some []
  | n + 1, pos =>
    if pos = [] then some []
    else
      match loadPacBin pos with
      | none => none
      | some (pac, pos) => (loadPacsBin n pos).map (pac :: ·)

/-- The entries of a blob. Source: `eap_fast_load_pac_bin`. -/
def eapFastLoadPacBin (data : Bytes) : Option (List EapFastPac) :=
  if data = [] then some []
  else if data.length < 6 ∨ beNat (data.take 4) ≠ eapFastPacBinaryMagic ∨
      be16 (data.drop 4) ≠ eapFastPacBinaryFormatVersion then none
  else loadPacsBin data.length (data.drop 6)

/-! ## Provisioning -/

/-- An attribute of PAC-Info. Source: `eap_fast_parse_pac_info`. -/
def eapFastParsePacInfo (entry : EapFastPac) (type : ℕ) (value : Bytes) : Option EapFastPac :=
  -- the flag for mandatory attributes
  let type := type % 2 ^ 15
  if type = pacTypeAId then some { entry with aId := some value }
  else if type = pacTypeIId then some { entry with iId := some value }
  else if type = pacTypeAIdInfo then some { entry with aIdInfo := some value }
  else if type = pacTypePacType then
    if value.length = 2 ∧ knownPacType (be16 value) then
      some { entry with pacType := be16 value }
    else none
  else some entry

/-- The attributes of PAC-Info, for as many as there can be. -/
def processPacInfo : ℕ → Bytes → EapFastPac → Option EapFastPac
  | 0, _, entry => some entry
  | n + 1, pos, entry =>
    if pos.length ≤ 4 then some entry
    else
      let len := be16 (pos.drop 2)
      if (pos.drop 4).length < len then none
      else
        match eapFastParsePacInfo entry (be16 pos) ((pos.drop 4).take len) with
        | none => none
        | some entry => processPacInfo n ((pos.drop 4).drop len) entry

/-- The entry of a PAC that a server has sent. Source: `eap_fast_process_pac_info`. -/
def eapFastProcessPacInfo (entry : EapFastPac) : Option EapFastPac :=
  let info := entry.pacInfo.getD []
  match processPacInfo info.length info { entry with pacType := pacTypeTunnelPac } with
  | none => none
  | some entry => if entry.aId.isNone ∨ entry.aIdInfo.isNone then none else some entry

def Provisioned (pac : EapFastPac) : Prop :=
  ∃ key pacOpaque info : Bytes, key.length = eapFastPacKeyLen ∧ pacOpaque.length ≤ 65535 ∧
    info.length ≤ 65535 ∧
    eapFastProcessPacInfo ⟨key, some pacOpaque, some info, none, none, none, 0⟩ = some pac

end Hostapd.EapPeer
