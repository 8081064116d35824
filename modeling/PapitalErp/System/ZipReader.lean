import PapitalErp.System.ZipStream

/-!
# Reading an archive

What a reader of the format does: it finds the end record, goes through the directory, and takes each entry
from its local header on. It refuses what does not agree: signatures, names, the sizes and the checksum of
the descriptor, and those of the content itself.
-/

namespace PapitalErp.ZipStream

open ByteFields

/-- An entry as it is read. -/
structure ReadEntry where
  name : String
  crc : UInt32
  uncompressedBytes : ℕ
  compressedBytes : ℕ
  offset : ℕ
  content : Bytes
  deriving DecidableEq

/-- A line of the directory. -/
structure DirectoryLine where
  nameBytes : Bytes
  crc : ℕ
  compressed : ℕ
  size : ℕ
  offset : ℕ

/-- The text that some bytes are the UTF-8 of. -/
def decodeName (bytes : Bytes) : Option String :=
  (ByteArray.utf8Decode? ⟨bytes.toArray⟩).map fun chars => String.ofList chars.toList

/-- The number of entries and the start of the directory. -/
def readEnd (s : Bytes) : Option (ℕ × ℕ) := do
  let (signature, s) ← takeNumber 4 s
  let (_, s) ← takeBytes 4 s
  let (_, s) ← takeNumber 2 s
  let (count, s) ← takeNumber 2 s
  let (_, s) ← takeNumber 4 s
  let (start, s) ← takeNumber 4 s
  let (comment, _) ← takeNumber 2 s
  if signature = 0x06054b50 ∧ comment = 0 then some (count, start) else none

def readLine (s : Bytes) : Option (DirectoryLine × Bytes) := do
  let (signature, s) ← takeNumber 4 s
  let (_, s) ← takeBytes 4 s
  let (flags, s) ← takeNumber 2 s
  let (method, s) ← takeNumber 2 s
  let (_, s) ← takeBytes 4 s
  let (crc, s) ← takeNumber 4 s
  let (compressed, s) ← takeNumber 4 s
  let (size, s) ← takeNumber 4 s
  let (nameLength, s) ← takeNumber 2 s
  let (extraLength, s) ← takeNumber 2 s
  let (commentLength, s) ← takeNumber 2 s
  let (_, s) ← takeBytes 8 s
  let (offset, s) ← takeNumber 4 s
  let (nameBytes, s) ← takeBytes nameLength s
  let (_, s) ← takeBytes (extraLength + commentLength) s
  if signature = 0x02014b50 ∧ flags = FLAGS ∧ method = METHOD_DEFLATE then
    some (⟨nameBytes, crc, compressed, size, offset⟩, s)
  else none

def readLines : ℕ → Bytes → Option (List DirectoryLine)
  | 0, _ => some []
  | count + 1, s => do
      let (line, s) ← readLine s
      let lines ← readLines count s
      return line :: lines

/-- The name of a local header and what follows it. -/
def readLocal (s : Bytes) : Option (Bytes × Bytes) := do
  let (signature, s) ← takeNumber 4 s
  let (_, s) ← takeNumber 2 s
  let (flags, s) ← takeNumber 2 s
  let (method, s) ← takeNumber 2 s
  let (_, s) ← takeBytes 16 s
  let (nameLength, s) ← takeNumber 2 s
  let (extraLength, s) ← takeNumber 2 s
  let (nameBytes, s) ← takeBytes nameLength s
  let (_, s) ← takeBytes extraLength s
  if signature = 0x04034b50 ∧ flags = FLAGS ∧ method = METHOD_DEFLATE then some (nameBytes, s) else none

/-- The checksum and the sizes of a descriptor. -/
def readDescriptor (s : Bytes) : Option (ℕ × ℕ × ℕ) := do
  let (signature, s) ← takeNumber 4 s
  let (crc, s) ← takeNumber 4 s
  let (compressed, s) ← takeNumber 4 s
  let (size, _) ← takeNumber 4 s
  if signature = 0x08074b50 then some (crc, compressed, size) else none

variable (inflate : Bytes → Option Bytes)

def readEntry (archive : Bytes) (line : DirectoryLine) : Option ReadEntry := do
  let (nameBytes, s) ← readLocal (archive.drop line.offset)
  let (data, s) ← takeBytes line.compressed s
  let descriptor ← readDescriptor s
  let content ← inflate data
  let name ← decodeName nameBytes
  if nameBytes = line.nameBytes ∧ descriptor = (line.crc, line.compressed, line.size) ∧
      (crc32 content 0).toNat = line.crc ∧ content.length = line.size then
    some ⟨name, crc32 content 0, line.size, line.compressed, line.offset, content⟩
  else none

/-- The entries of an archive; the end record is its last 22 bytes. -/
def readArchive (archive : Bytes) : Option (List ReadEntry) := do
  let (count, start) ← readEnd (archive.drop (archive.length - 22))
  let lines ← readLines count (archive.drop start)
  lines.mapM (readEntry inflate archive)

end PapitalErp.ZipStream
