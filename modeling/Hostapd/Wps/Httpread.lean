import Hostapd.Common.Defs
import Hostapd.Lib.CString
import Hostapd.Utils.Eloop

/-!
# The HTTP reader

`httpread.c`: one message is read from a socket, a piece at a time, and handed to the application
when it is complete.

* **The header**: `readHeader` collects it up to the empty line, and `hdrAnalyze` reads its first
  line and those options that tell where the body ends.
* **The body**: `ensureRoom` enlarges the buffer, and `bodyLoop` copies octets into it, where
  `bodyCheck` watches for the end of a chunk's size line, of a chunk, or of the body; `readTrailer`
  skips what follows the last chunk.
* **`readHandler`** handles one result of `read`. A `Session` is the reader with what its
  application was told.

Lengths are `int`s: a sum or a number that does not fit one is cut to 32 bits (`int32`). A copy of a
negative length, one beyond the buffer, a look in front of the buffer, and a loop that does not end
are `Fault`s. `abi` is the width of `long`, `mem` says of which sizes there is memory.
-/

namespace Hostapd.Wps.Http

open Hostapd.Lib Hostapd.Utils.Eloop

/-! ## Data -/

/-- Source: `HTTPREAD_READBUF_SIZE`. -/
def readbufSize : ℕ := 1024

/-- Source: `HTTPREAD_HEADER_MAX_SIZE`. -/
def headerMaxSize : ℕ := 4096

/-- Source: `HTTPREAD_BODYBUF_DELTA`. -/
def bodybufDelta : ℤ := 4096

/-- Source: `enum httpread_hdr_type`. -/
inductive HdrType
  | unknown | reply | get | head | post | put | delete | trace | connect | notify | mSearch | mPost
  | subscribe | unsubscribe
  deriving DecidableEq

inductive TrailerState
  | lineBegin | emptyCr | nonempty | nonemptyCr
  deriving DecidableEq

/-- Source: `struct httpread`, what the read handler uses. `hdr` and `body` are the octets in front
of `hdr_nbytes` and `body_nbytes`; `body` is allocated where `bodyAlloc` is not 0. -/
structure Httpread where
  maxBytes : ℤ
  gotHdr : Bool
  hdr : Bytes
  hdrType : HdrType
  version : Bool
  replyCode : ℤ
  gotContentLength : Bool
  contentLength : ℤ
  chunked : Bool
  uri : Bytes
  gotBody : Bool
  body : Bytes
  bodyAlloc : ℤ
  gotFile : Bool
  inChunkData : Bool
  chunkStart : ℕ
  chunkSize : ℤ
  inTrailer : Bool
  trailerState : TrailerState
  deriving DecidableEq

/-- Source: `httpread_create`. -/
def create (maxBytes : ℤ) : Httpread where
  maxBytes := maxBytes
  gotHdr := false
  hdr := []
  hdrType := .unknown
  version := false
  replyCode := 0
  gotContentLength := false
  contentLength := 0
  chunked := false
  uri := []
  gotBody := false
  body := []
  bodyAlloc := 0
  gotFile := false
  inChunkData := false
  chunkStart := 0
  chunkSize := 0
  inTrailer := false
  trailerState := .lineBegin

/-- What the source does not define, or does not come back from. -/
inductive Fault
  /-- A copy of a negative number of octets. -/
  | negativeCopy
  /-- A write at or beyond the end of the buffer. -/
  | overrun
  /-- A look at the octets in front of the buffer. -/
  | underrun
  /-- A loop that does not end. -/
  | stuck
  deriving DecidableEq

/-- How a call of the handler ends. Source: the labels of `httpread_read_handler`. -/
inductive Outcome
  | getMore | bad | gotFile
  | fault (f : Fault)
  deriving DecidableEq

variable (abi : DataModel) (mem : ℕ → Bool) (h : Httpread)

/-! ## The header -/

/-- A decimal number as an `int`; it begins with a digit. Source: `atol`. -/
def atoi (s : Bytes) : ℤ := int32 (min (numeral isdigit 10 s : ℤ) (abi.longEnd - 1))

/-- A hexadecimal number as an `int`; it begins with a digit. Source: `strtoul` to the base 16. -/
def hexInt (s : Bytes) : ℤ :=
  let digits := if at0 s = 0x30 ∧ tolower (at0 s.tail) = 0x78 then s.drop 2 else s
  int32 (min (numeral isxdigit 16 digits : ℤ) (2 * abi.longEnd - 1))

/-- Source: `httpread_hdr_option_analyze`. -/
def hdrOptionAnalyze (hbp : Bytes) : Option Httpread :=
  let value := (hbp.dropWhile isgraph).dropWhile isblank
  if wordEq hbp (ascii "CONTENT-LENGTH:") then
    if !isdigit (at0 value) then none
    else some { h with contentLength := atoi abi value, gotContentLength := true }
  else if wordEq hbp (ascii "TRANSFER_ENCODING:") || wordEq hbp (ascii "TRANSFER-ENCODING:") then
    if wordEq value (ascii "CHUNKED") then some { h with chunked := true, inChunkData := false }
    else some h
  else some h

/-- The methods the reader knows. Source: `httpread_hdr_analyze`. -/
def methods : List (Bytes × HdrType) :=
  [(ascii "GET", .get), (ascii "HEAD", .head), (ascii "POST", .post), (ascii "PUT", .put),
    (ascii "DELETE", .delete), (ascii "TRACE", .trace), (ascii "CONNECT", .connect),
    (ascii "NOTIFY", .notify), (ascii "M-SEARCH", .mSearch), (ascii "M-POST", .mPost),
    (ascii "SUBSCRIBE", .subscribe), (ascii "UNSUBSCRIBE", .unsubscribe)]

def isVersion1 (s : Bytes) : Bool :=
  s.getD 0 0 = 0x31 && s.getD 1 0 = 0x2e && isdigit (s.getD 2 0) && s.getD 2 0 ≠ 0x30

/-- A URI with its escapes replaced. Source: `httpread_hdr_analyze`, the translation of `rawuri`. -/
def decodeUri : Bytes → Bytes
  | 0x25 :: a :: b :: l =>
    if isxdigit a && isxdigit b then
      UInt8.ofNat (digitValue a * 16 + digitValue b) :: decodeUri l
    else 0x25 :: decodeUri (a :: b :: l)
  | b :: l => b :: decodeUri l
  | [] => []

/-- The first line: what stands behind it, or behind what was read of it.
Source: `httpread_hdr_analyze`. -/
def firstLineAnalyze : Option (Httpread × Bytes) :=
  let hbp := h.hdr
  if !isgraph (at0 hbp) then none
  else if hbp.take 5 = ascii "HTTP/" then
    let hbp := hbp.drop 5
    let version := h.version || isVersion1 hbp
    let hbp := (hbp.dropWhile isgraph).dropWhile isblank
    if !isdigit (at0 hbp) then none
    else some ({ h with hdrType := .reply, version, replyCode := atoi abi hbp }, hbp)
  else
    let hdrType := ((methods.find? fun m => wordEq hbp m.1).map Prod.snd).getD .unknown
    let hbp := (hbp.dropWhile isgraph).dropWhile isblank
    let rawuri := hbp.takeWhile isgraph
    if !mem (rawuri.length + 1) then none
    else
      let hbp := (hbp.dropWhile isgraph).dropWhile isblank
      if hbp.take 5 = ascii "HTTP/" then
        some ({ h with
          hdrType, uri := decodeUri rawuri, version := h.version || isVersion1 (hbp.drop 5) },
          hbp.drop 5)
      else some ({ h with hdrType, uri := decodeUri rawuri }, hbp)

/-- The options, up to the empty line; the fuel is the number of octets left.
Source: `httpread_hdr_analyze`. -/
def optionsAnalyze : ℕ → Httpread → Bytes → Option Httpread
  | 0, _, _ => none
  | fuel + 1, h, hbp =>
    if at0 hbp = 10 ∨ (at0 hbp = 13 ∧ at0 hbp.tail = 10) then some h
    else if !isgraph (at0 hbp) then none
    else
      match hdrOptionAnalyze abi h hbp with
      | none => none
      | some h => optionsAnalyze fuel h (skipLine hbp)

/-- The messages whose header says that there is no body. Source: `httpread_hdr_analyze`, "For some
types, we should not try to read a body". -/
def bodyless : Bool :=
  match h.hdrType with
  | .reply => h.replyCode ≠ 200
  | .get | .head => !h.chunked && !h.gotContentLength
  | _ => false

/-- The chunks override a length, and there may be no body. Source: `httpread_hdr_analyze`, its end.
-/
def bodyAllowed : Httpread :=
  let h := { h with gotContentLength := h.gotContentLength && !h.chunked }
  if bodyless h then { h with maxBytes := 0 } else h

/-- Analyze the header. Source: `httpread_hdr_analyze`. -/
def hdrAnalyze : Option Httpread :=
  match firstLineAnalyze abi mem h with
  | none => none
  | some (h, hbp) =>
    let hbp := skipLine hbp
    (optionsAnalyze abi (hbp.length + 1) h hbp).map bodyAllowed

inductive HeaderRead
  | more | full
  | complete (rest : Bytes)
  deriving DecidableEq

def endsHeader (hdr : Bytes) : Bool := hdr.drop (hdr.length - 4) = [13, 10, 13, 10]

/-- Collect the header. Source: `httpread_read_handler`, the loop of the header. -/
def readHeader : Httpread → Bytes → Httpread × HeaderRead
  | h, [] => (h, .more)
  | h, b :: rest =>
    if h.hdr.length = headerMaxSize then (h, .full)
    else
      let h := { h with hdr := h.hdr ++ [b] }
      if endsHeader h.hdr then ({ h with gotHdr := true }, .complete rest)
      else readHeader h rest

/-! ## The body -/

/-- The size of a larger buffer: one more step, or all of the announced content.
Source: `httpread_read_handler`, `new_alloc_nbytes`. -/
def newSize : ℤ :=
  let size := int32 (h.bodyAlloc + bodybufDelta)
  if h.gotContentLength ∧ size < int32 (h.contentLength + 1) then int32 (h.contentLength + 1)
  else size

/-- Room for `n` more octets and a NUL.
Source: `httpread_read_handler`, the allocation of the body. -/
def ensureRoom (n : ℕ) : Option Httpread :=
  if h.bodyAlloc < int32 (h.body.length + n + 1) then
    if (h.body.length : ℤ) ≥ h.maxBytes then none
    else if 0 ≤ newSize h ∧ mem (newSize h).toNat then some { h with bodyAlloc := newSize h }
    else none
  else some h

/-- What the check at the top of the copy loop says. -/
inductive BodyCheck
  | go | trailer | file | bad
  | fault (f : Fault)
  deriving DecidableEq

/-- A chunk has to end with CR and LF, which are thrown away.
Source: `httpread_read_handler`, "end of chunk reached". -/
def endChunk : Httpread × BodyCheck :=
  match h.body.reverse with
  | [] => (h, .fault .underrun)
  | [b] => if b = 10 then (h, .fault .underrun) else (h, .bad)
  | b :: a :: l =>
    if b = 10 ∧ a = 13 then
      ({ h with body := l.reverse, chunkStart := l.length, inChunkData := false, chunkSize := 0 },
        .go)
    else (h, .bad)

/-- Source: `httpread_read_handler`, "See if we need to stop" in the body copy loop. -/
def bodyCheck : Httpread × BodyCheck :=
  if h.chunked ∧ ¬ h.inChunkData then
    let line := h.body.drop h.chunkStart
    if line.length ≥ 2 ∧ line.drop (line.length - 2) = [13, 10] then
      if !isxdigit (at0 line) then (h, .bad)
      else
        -- the size line is thrown away
        let h : Httpread :=
          { h with chunkSize := hexInt abi line, body := h.body.take h.chunkStart }
        if h.chunkSize = 0 then ({ h with inTrailer := true }, .trailer)
        else ({ h with inChunkData := true }, .go)
    else (h, .go)
  else if h.chunked then
    if (h.body.length - h.chunkStart : ℤ) = int32 (h.chunkSize + 2) then endChunk h
    else (h, .go)
  else if h.gotContentLength ∧ (h.body.length : ℤ) ≥ h.contentLength then
    ({ h with gotBody := true }, .file)
  else (h, .go)

/-- How many of `n` octets are copied at once. An octet of a size line is copied alone.
Source: `httpread_read_handler`, `ncopy`. -/
def copyLen (n : ℕ) : ℤ :=
  if h.chunked ∧ h.inChunkData then
    min (int32 ((h.chunkStart : ℤ) + h.chunkSize + 2 - h.body.length)) n
  else if h.chunked then 1
  else if h.gotContentLength then min (int32 (h.contentLength - h.body.length)) n
  else n

inductive BodyEnd
  | stop (rest : Bytes)
  | file | bad
  | fault (f : Fault)
  deriving DecidableEq

/-- The body copy loop; the fuel is for its turns. Source: `httpread_read_handler`. -/
def bodyLoop : ℕ → Httpread → Bytes → Httpread × BodyEnd
  | 0, h, _ => (h, .fault .stuck)
  | fuel + 1, h, rest =>
    match bodyCheck abi h with
    | (h, .trailer) => (h, .stop rest)
    | (h, .file) => (h, .file)
    | (h, .bad) => (h, .bad)
    | (h, .fault f) => (h, .fault f)
    | (h, .go) =>
      if rest = [] then (h, .stop [])
      else
        let ncopy := copyLen h rest.length
        if ncopy < 0 then (h, .fault .negativeCopy)
        else if h.bodyAlloc < h.body.length + ncopy then (h, .fault .overrun)
        else
          bodyLoop fuel { h with body := h.body ++ rest.take ncopy.toNat } (rest.drop ncopy.toNat)

/-- Skip the trailer; the second component says whether it ended. Source: `httpread_read_handler`,
the loop of the trailer. -/
def readTrailer : Httpread → Bytes → Httpread × Bool
  | h, [] => (h, false)
  | h, c :: rest =>
    match h.trailerState with
    | .lineBegin =>
      if c = 13 then readTrailer { h with trailerState := .emptyCr } rest
      else readTrailer { h with trailerState := .nonempty } rest
    | .emptyCr =>
      if c = 10 then
        ({ h with trailerState := .lineBegin, inTrailer := false, gotBody := true }, true)
      else readTrailer { h with trailerState := .nonempty } rest
    | .nonempty =>
      if c = 13 then readTrailer { h with trailerState := .nonemptyCr } rest
      else readTrailer h rest
    | .nonemptyCr =>
      if c = 10 then readTrailer { h with trailerState := .lineBegin } rest
      else readTrailer { h with trailerState := .nonempty } rest

/-! ## The handler -/

/-- The file is complete, and its end marked. Source: `httpread_read_handler`, `got_file`. -/
def finishFile : Httpread × Outcome :=
  if h.bodyAlloc ≠ 0 ∧ h.bodyAlloc ≤ h.body.length then (h, .fault .overrun)
  else ({ h with gotFile := true }, .gotFile)

/-- The headers whose message has no body for the reader. Source: `httpread_read_handler`, "Certain
types of requests never have data". -/
def neverBody (hdr : Bytes) : Bool :=
  [ascii "SUBSCRIBE", ascii "UNSUBSCRIBE", ascii "HEAD", ascii "GET"].any fun word =>
    (hdr.take word.length).map tolower = word.map tolower

/-- What was read is behind the copy loop. Source: `httpread_read_handler`, from the trailer on. -/
def afterBody (rest : Bytes) : Httpread × Outcome :=
  if h.chunked ∧ h.inTrailer then
    match readTrailer h rest with
    | (h, true) => finishFile h
    | (h, false) => (h, .getMore)
  else (h, .getMore)

/-- How far a call gets without the copy loop: to its end, or to the loop with some octets. -/
inductive Entry
  | done (h : Httpread) (outcome : Outcome)
  | copy (h : Httpread) (rest : Bytes)
  deriving DecidableEq

def Entry.ofPair (res : Httpread × Outcome) : Entry := .done res.1 res.2

/-- Behind the header. Source: `httpread_read_handler`, from the types that never have data on. -/
def enterBody (rest : Bytes) : Entry :=
  if neverBody h.hdr then .ofPair (finishFile { h with gotBody := true })
  else if rest = [] then .done h .getMore
  else if !h.gotBody then
    match ensureRoom mem h rest.length with
    | none => .done h .bad
    | some h => .copy h rest
  else .ofPair (afterBody h rest)

/-- Up to the copy loop; what was read is a failure, the end of the transmission, or some octets.
Source: `httpread_read_handler`. -/
def enter (read : Option Bytes) : Entry :=
  match read with
  | none => .done h .bad
  | some [] =>
    if !h.gotHdr then .done h .bad
    else if h.chunked || h.gotContentLength then .done h .bad
    else .ofPair (finishFile { h with gotBody := true })
  | some data =>
    if h.gotHdr then enterBody mem h data
    else
      match readHeader h data with
      | (h, .more) => .done h .getMore
      | (h, .full) => .done h .bad
      | (h, .complete rest) =>
        match hdrAnalyze abi mem h with
        | none => .done h .bad
        | some h =>
          if h.maxBytes = 0 then .ofPair (finishFile h)
          else if h.gotContentLength ∧ h.contentLength = 0 then .ofPair (finishFile h)
          else enterBody mem h rest

/-- From the copy loop on. Source: `httpread_read_handler`. -/
def copyBody (rest : Bytes) : Httpread × Outcome :=
  match bodyLoop abi (2 * rest.length + 2) h rest with
  | (h, .stop rest) => afterBody h rest
  | (h, .file) => finishFile h
  | (h, .bad) => (h, .bad)
  | (h, .fault f) => (h, .fault f)

def Entry.finish : Entry → Httpread × Outcome
  | .done h outcome => (h, outcome)
  | .copy h rest => copyBody abi h rest

/-- Handle the result of a `read`. Source: `httpread_read_handler`. -/
def readHandler (read : Option Bytes) : Httpread × Outcome := (enter abi mem h read).finish abi

/-! ## Sessions -/

/-- Source: `enum httpread_event`, without the timeout. -/
inductive Event
  | fileReady | error
  deriving DecidableEq

/-- A reader, how its last call ended, and what its application was told. -/
structure Session where
  h : Httpread
  last : Outcome
  events : List Event
  deriving DecidableEq

def Session.init (maxBytes : ℤ) : Session := ⟨create maxBytes, .getMore, []⟩

/-- One result of `read`. Behind a file the socket is not watched any more, and behind an error the
application destroys the reader. -/
def Session.read (s : Session) (data : Option Bytes) : Session :=
  if s.last ≠ .getMore then s
  else
    let (h, outcome) := readHandler abi mem s.h data
    { h
      last := outcome
      events := s.events ++
        match outcome with
        | .gotFile => [.fileReady]
        | .bad => [.error]
        | _ => [] }

end Hostapd.Wps.Http
