import PapitalErp.Lib.ByteFields
import PapitalErp.Lib.Transition

/-!
# The archives of the backup

A ZIP archive is written as a stream: for each entry its local header, its compressed chunks and a
descriptor with what is known only now, and at the end a directory of the entries and the end record.

The compressor takes the pieces of an entry and gives chunks; the pieces are read while the chunks are
written, here the chunks first. An output that closes early, which ends the archive with an error, is left
out. The moment of the archive comes as the numbers that its pattern finds.
-/

namespace PapitalErp.ZipStream

open ByteFields Transition

def ZIP32_LIMIT : ℕ := 0xffffffff
def MAX_ENTRIES : ℕ := 0xffff
/-- A data descriptor, and names in UTF-8. -/
def FLAGS : ℕ := 0x0808
def METHOD_DEFLATE : ℕ := 8
def VERSION : ℕ := 20

/-! ## The checksum -/

def crcBit (c : UInt32) : UInt32 := if c &&& 1 ≠ 0 then (0xedb88320 : UInt32) ^^^ (c >>> 1) else c >>> 1

/-- The entry of the table at a byte. -/
def CRC_TABLE (n : UInt32) : UInt32 := crcBit^[8] n

def crcByte (c : UInt32) (byte : UInt8) : UInt32 := CRC_TABLE ((c ^^^ byte.toUInt32) &&& 0xff) ^^^ (c >>> 8)

def crc32 (buf : Bytes) (previous : UInt32) : UInt32 := buf.foldl crcByte (previous ^^^ 0xffffffff) ^^^ 0xffffffff

/-! ## The moment of the archive -/

structure WallClock where
  year : ℕ
  month : ℕ
  day : ℕ
  hour : ℕ
  minute : ℕ
  second : ℕ
  deriving DecidableEq

structure DosDateTime where
  time : ℕ
  date : ℕ
  deriving DecidableEq

def dosDateTime (wallClock : Option WallClock) : DosDateTime :=
  match wallClock with
  | none => ⟨0, (1 <<< 5) ||| 1⟩
  | some m =>
      ⟨(m.hour <<< 11) ||| (m.minute <<< 5) ||| (m.second / 2),
        ((max 1980 m.year - 1980) <<< 9) ||| (m.month <<< 5) ||| m.day⟩

/-! ## The writer -/

inductive ZipError where
  | ZipSizeLimitError (what : String)
  /-- a number that does not fit its field -/
  | RangeError
  deriving DecidableEq

structure ZipEntryInfo where
  name : String
  crc : UInt32
  uncompressedBytes : ℕ
  compressedBytes : ℕ
  offset : ℕ
  deriving DecidableEq

/-- A piece of an entry's content. -/
inductive Piece where
  | text (s : String)
  | buffer (bytes : Bytes)
  deriving DecidableEq

/-- `Buffer.from(s, 'utf8')`. -/
def utf8 (s : String) : Bytes := s.toUTF8.data.toList

def Piece.buf : Piece → Bytes
  | .text s => utf8 s
  | .buffer bytes => bytes

structure Entry where
  name : String
  source : List Piece
  deriving DecidableEq

/-- The pieces that reach the compressor. -/
def Entry.bufs (entry : Entry) : List Bytes := (entry.source.map Piece.buf).filter (· ≠ [])

structure ZipStreamWriter where
  offset : ℕ
  entries : List ZipEntryInfo
  dos : DosDateTime
  out : Bytes

/-- `writeUInt16LE` and `writeUInt32LE`. -/
def writeUInt (width value : ℕ) : Except ZipError Bytes :=
  if value < 256 ^ width then .ok (number width value) else .error .RangeError

namespace ZipStreamWriter

variable (w : ZipStreamWriter)

def write (buf : Bytes) : Except ZipError ZipStreamWriter :=
  if ZIP32_LIMIT < w.offset + buf.length then .error (.ZipSizeLimitError "the archive")
  else .ok { w with offset := w.offset + buf.length, out := w.out ++ buf }

def localHeader (nameLength : ℕ) : Except ZipError Bytes := do
  let time ← writeUInt 2 w.dos.time
  let date ← writeUInt 2 w.dos.date
  let nameLength ← writeUInt 2 nameLength
  return number 4 0x04034b50 ++ number 2 VERSION ++ number 2 FLAGS ++ number 2 METHOD_DEFLATE ++ time ++ date ++
    List.replicate 12 0 ++ nameLength ++ number 2 0

/-- One piece of the content; an empty one is passed over. -/
def readPiece (name : String) (state : UInt32 × ℕ) (buf : Bytes) : Except ZipError (UInt32 × ℕ) :=
  if buf = [] then .ok state
  else if ZIP32_LIMIT < state.2 + buf.length then .error (.ZipSizeLimitError ("entry " ++ name))
  else .ok (crc32 buf state.1, state.2 + buf.length)

def descriptor (crc : UInt32) (compressed size : ℕ) : Except ZipError Bytes := do
  let compressed ← writeUInt 4 compressed
  let size ← writeUInt 4 size
  return number 4 0x08074b50 ++ number 4 crc.toNat ++ compressed ++ size

variable (deflate : List Bytes → List Bytes)

def addEntry (entry : Entry) : Except ZipError ZipStreamWriter := do
  ensure (w.entries.length < MAX_ENTRIES) (.ZipSizeLimitError "the entry count")
  let nameBytes := utf8 entry.name
  let header ← w.localHeader nameBytes.length
  let opened ← w.write (header ++ nameBytes)
  let chunks := deflate entry.bufs
  let pumped ← chunks.foldlM write opened
  let compressed := (chunks.map List.length).sum
  let (crc, size) ← (entry.source.map Piece.buf).foldlM (readPiece entry.name) (0, 0)
  let closing ← descriptor crc compressed size
  let closed ← pumped.write closing
  return { closed with entries := w.entries ++ [⟨entry.name, crc, size, compressed, w.offset⟩] }

def centralHeader (e : ZipEntryInfo) : Except ZipError Bytes := do
  let time ← writeUInt 2 w.dos.time
  let date ← writeUInt 2 w.dos.date
  let compressed ← writeUInt 4 e.compressedBytes
  let size ← writeUInt 4 e.uncompressedBytes
  let nameLength ← writeUInt 2 (utf8 e.name).length
  let offset ← writeUInt 4 e.offset
  return number 4 0x02014b50 ++ number 2 VERSION ++ number 2 VERSION ++ number 2 FLAGS ++ number 2 METHOD_DEFLATE ++
    time ++ date ++ number 4 e.crc.toNat ++ compressed ++ size ++ nameLength ++ List.replicate 12 0 ++ offset

def addRecord (e : ZipEntryInfo) : Except ZipError ZipStreamWriter := do
  let header ← w.centralHeader e
  w.write (header ++ utf8 e.name)

def finish : Except ZipError ZipStreamWriter := do
  let start := w.offset
  let listed ← w.entries.foldlM addRecord w
  let count ← writeUInt 2 w.entries.length
  let size ← writeUInt 4 (listed.offset - start)
  let start ← writeUInt 4 start
  listed.write (number 4 0x06054b50 ++ List.replicate 4 0 ++ count ++ count ++ size ++ start ++ number 2 0)

end ZipStreamWriter

/-- The archive of some entries. -/
def writeArchive (deflate : List Bytes → List Bytes) (dos : DosDateTime) (entries : List Entry) :
    Except ZipError Bytes := do
  let w ← entries.foldlM (fun w entry => w.addEntry deflate entry) (⟨0, [], dos, []⟩ : ZipStreamWriter)
  let w ← w.finish
  return w.out

end PapitalErp.ZipStream
