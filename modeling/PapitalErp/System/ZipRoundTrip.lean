import PapitalErp.System.ZipReader

/-!
# Archives read back

Within the limits of the format the writer makes an archive of known bytes: the records of the entries, the
directory and the end record. A reader that starts at the end record finds every entry at its offset with
its name, its checksum, its sizes and its content.

What is compressed is taken to be decompressed to itself.
-/

namespace PapitalErp.ZipStream

open ByteFields Transition

/-! ## The checksum of a stream -/

theorem crc32_nil (previous : UInt32) : crc32 [] previous = previous := by
  simp [crc32]

/-- The checksum of a part is continued by the next one. -/
theorem crc32_append (p q : Bytes) (previous : UInt32) : crc32 (p ++ q) previous = crc32 q (crc32 p previous) := by
  simp [crc32]

/-! ## The bytes of an archive -/

def Entry.content (e : Entry) : Bytes := (e.source.map Piece.buf).flatten

section Layout

variable (dos : DosDateTime) (deflate : List Bytes → List Bytes)

def localHeaderBytes (nameLength : ℕ) : Bytes :=
  number 4 0x04034b50 ++ number 2 VERSION ++ number 2 FLAGS ++ number 2 METHOD_DEFLATE ++ number 2 dos.time ++
    number 2 dos.date ++ List.replicate 12 0 ++ number 2 nameLength ++ number 2 0

def descriptorBytes (crc : UInt32) (compressed size : ℕ) : Bytes :=
  number 4 0x08074b50 ++ number 4 crc.toNat ++ number 4 compressed ++ number 4 size

def centralHeaderBytes (e : ZipEntryInfo) : Bytes :=
  number 4 0x02014b50 ++ number 2 VERSION ++ number 2 VERSION ++ number 2 FLAGS ++ number 2 METHOD_DEFLATE ++
    number 2 dos.time ++ number 2 dos.date ++ number 4 e.crc.toNat ++ number 4 e.compressedBytes ++
    number 4 e.uncompressedBytes ++ number 2 (utf8 e.name).length ++ List.replicate 12 0 ++ number 4 e.offset

def endBytes (count size start : ℕ) : Bytes :=
  number 4 0x06054b50 ++ List.replicate 4 0 ++ number 2 count ++ number 2 count ++ number 4 size ++ number 4 start ++
    number 2 0

def Entry.compressed (e : Entry) : Bytes := (deflate e.bufs).flatten

/-- What the directory says of an entry at an offset. -/
def Entry.info (e : Entry) (offset : ℕ) : ZipEntryInfo where
  name := e.name
  crc := crc32 e.content 0
  uncompressedBytes := e.content.length
  compressedBytes := (e.compressed deflate).length
  offset

def Entry.record (e : Entry) : Bytes :=
  localHeaderBytes dos (utf8 e.name).length ++ utf8 e.name ++ e.compressed deflate ++
    descriptorBytes (crc32 e.content 0) (e.compressed deflate).length e.content.length

/-- The entries of the directory, the first one at an offset. -/
def infos : ℕ → List Entry → List ZipEntryInfo
  | _, [] => []
  | offset, e :: rest => e.info deflate offset :: infos (offset + (e.record dos deflate).length) rest

def records (entries : List Entry) : Bytes := entries.flatMap fun e => e.record dos deflate

def directory (listed : List ZipEntryInfo) : Bytes := listed.flatMap fun e => centralHeaderBytes dos e ++ utf8 e.name

def archiveBytes (entries : List Entry) : Bytes :=
  records dos deflate entries ++ directory dos (infos dos deflate 0 entries) ++
    endBytes entries.length (directory dos (infos dos deflate 0 entries)).length (records dos deflate entries).length

end Layout

/-- The limits of the writer. -/
structure WithinLimits (dos : DosDateTime) (deflate : List Bytes → List Bytes) (entries : List Entry) : Prop where
  clock : dos.time < 65536 ∧ dos.date < 65536
  count : entries.length ≤ MAX_ENTRIES
  names : ∀ e ∈ entries, (utf8 e.name).length < 65536
  contents : ∀ e ∈ entries, e.content.length ≤ ZIP32_LIMIT
  archive : (archiveBytes dos deflate entries).length ≤ ZIP32_LIMIT

/-! ## The writer makes these bytes -/

theorem writeUInt_ok {width value : ℕ} (fits : value < 256 ^ width) :
    writeUInt width value = .ok (number width value) := if_pos fits

section Writer

variable {deflate : List Bytes → List Bytes} {w : ZipStreamWriter} {buf : Bytes} {e : Entry}

theorem write_ok (fits : w.offset + buf.length ≤ ZIP32_LIMIT) :
    w.write buf = .ok { w with offset := w.offset + buf.length, out := w.out ++ buf } :=
  if_neg (not_lt.mpr fits)

theorem pump_ok {chunks : List Bytes} (fits : w.offset + chunks.flatten.length ≤ ZIP32_LIMIT) :
    chunks.foldlM ZipStreamWriter.write w =
      .ok { w with offset := w.offset + chunks.flatten.length, out := w.out ++ chunks.flatten } := by
  induction chunks generalizing w with
  | nil => simp [pure, Except.pure]
  | cons chunk chunks ih =>
      rw [List.flatten_cons, List.length_append] at fits
      have first : w.offset + chunk.length ≤ ZIP32_LIMIT := by omega
      rw [List.foldlM_cons, write_ok first]
      have rest := ih (w := { w with offset := w.offset + chunk.length, out := w.out ++ chunk }) (by
        dsimp only
        omega)
      simp only [bind, Except.bind, rest, List.flatten_cons, List.length_append, List.append_assoc, Nat.add_assoc]

/-- The pieces one after the other have the checksum of the whole. -/
theorem readPieces_ok (name : String) {bufs : List Bytes} {crc : UInt32} {size : ℕ}
    (fits : size + bufs.flatten.length ≤ ZIP32_LIMIT) :
    bufs.foldlM (ZipStreamWriter.readPiece name) (crc, size) =
      .ok (crc32 bufs.flatten crc, size + bufs.flatten.length) := by
  induction bufs generalizing crc size with
  | nil => simp [pure, Except.pure, crc32_nil]
  | cons buf bufs ih =>
      rw [List.flatten_cons, List.length_append] at fits
      have piece : ZipStreamWriter.readPiece name (crc, size) buf = .ok (crc32 buf crc, size + buf.length) := by
        by_cases empty : buf = []
        · subst empty
          simp [ZipStreamWriter.readPiece, crc32_nil]
        · rw [ZipStreamWriter.readPiece, if_neg empty, if_neg (by dsimp only; omega)]
      rw [List.foldlM_cons, piece, List.flatten_cons, crc32_append, List.length_append, ← Nat.add_assoc]
      exact ih (by omega)

/-- The checksum and the size of an entry, piece by piece. -/
theorem streamed_ok (content : e.content.length ≤ ZIP32_LIMIT) :
    (e.source.map Piece.buf).foldlM (ZipStreamWriter.readPiece e.name) (0, 0) =
      .ok (crc32 e.content 0, e.content.length) := by
  have pieces : (e.source.map Piece.buf).foldlM (ZipStreamWriter.readPiece e.name) (0, 0) =
      .ok (crc32 e.content 0, 0 + e.content.length) :=
    readPieces_ok e.name ((Nat.zero_add _).trans_le content)
  rw [pieces, Nat.zero_add]

theorem flatten_bufs (e : Entry) : e.bufs.flatten = e.content := by
  have dropped : ∀ l : List Bytes, (l.filter (· ≠ [])).flatten = l.flatten := by
    intro l
    induction l with
    | nil => rfl
    | cons buf l ih =>
        by_cases empty : buf = []
        · simpa [empty] using ih
        · simpa [empty] using ih
  exact dropped _

theorem length_localHeaderBytes (dos : DosDateTime) (n : ℕ) : (localHeaderBytes dos n).length = 30 := by
  simp only [localHeaderBytes, List.length_append, length_number, List.length_replicate]

theorem length_descriptorBytes (crc : UInt32) (compressed size : ℕ) :
    (descriptorBytes crc compressed size).length = 16 := by
  simp only [descriptorBytes, List.length_append, length_number]

theorem length_record (dos : DosDateTime) (e : Entry) :
    (e.record dos deflate).length = 30 + (utf8 e.name).length + (e.compressed deflate).length + 16 := by
  simp only [Entry.record, List.length_append, length_localHeaderBytes, length_descriptorBytes]

/-- An entry adds its record and its line of the directory. -/
theorem addEntry_ok (clock : w.dos.time < 65536 ∧ w.dos.date < 65536) (count : w.entries.length < MAX_ENTRIES)
    (name : (utf8 e.name).length < 65536) (content : e.content.length ≤ ZIP32_LIMIT)
    (fits : w.offset + (e.record w.dos deflate).length ≤ ZIP32_LIMIT) :
    w.addEntry deflate e = .ok
      { w with
        offset := w.offset + (e.record w.dos deflate).length
        out := w.out ++ e.record w.dos deflate
        entries := w.entries ++ [e.info deflate w.offset] } := by
  rw [length_record] at fits
  have header : w.localHeader (utf8 e.name).length = .ok (localHeaderBytes w.dos (utf8 e.name).length) := by
    simp only [ZipStreamWriter.localHeader, bind_eq_ok, pure_eq_ok]
    exact ⟨_, writeUInt_ok clock.1, _, writeUInt_ok clock.2, _, writeUInt_ok name, rfl⟩
  have closing : ZipStreamWriter.descriptor (crc32 e.content 0) (e.compressed deflate).length e.content.length =
      .ok (descriptorBytes (crc32 e.content 0) (e.compressed deflate).length e.content.length) := by
    simp only [ZipStreamWriter.descriptor, bind_eq_ok, pure_eq_ok]
    have limit : ZIP32_LIMIT < 256 ^ 4 := by decide
    exact ⟨_, writeUInt_ok (by omega), _, writeUInt_ok (content.trans_lt limit), rfl⟩
  have sizes : ((deflate e.bufs).map List.length).sum = (e.compressed deflate).length := by
    rw [Entry.compressed, List.length_flatten]
  have named : (localHeaderBytes w.dos (utf8 e.name).length ++ utf8 e.name).length = 30 + (utf8 e.name).length := by
    rw [List.length_append, length_localHeaderBytes]
  have compressed : (deflate e.bufs).flatten.length = (e.compressed deflate).length := rfl
  have ended := length_descriptorBytes (crc32 e.content 0) (e.compressed deflate).length e.content.length
  simp only [ZipStreamWriter.addEntry, bind_eq_ok, pure_eq_ok, sizes]
  refine ⟨(), ensure_eq_ok.mpr count, _, header, _, write_ok ?_, _, pump_ok ?_, _, streamed_ok content, _, closing, _,
    write_ok ?_, ?_⟩
  · omega
  · dsimp only
    omega
  · dsimp only
    omega
  · dsimp only
    rw [named, compressed, ended, length_record]
    simp only [Entry.record, Entry.info, Entry.compressed, List.append_assoc, Nat.add_assoc]

theorem addEntries_ok {entries : List Entry} (clock : w.dos.time < 65536 ∧ w.dos.date < 65536)
    (count : w.entries.length + entries.length ≤ MAX_ENTRIES) (names : ∀ e ∈ entries, (utf8 e.name).length < 65536)
    (contents : ∀ e ∈ entries, e.content.length ≤ ZIP32_LIMIT)
    (fits : w.offset + (records w.dos deflate entries).length ≤ ZIP32_LIMIT) :
    entries.foldlM (fun w entry => w.addEntry deflate entry) w = .ok
      { w with
        offset := w.offset + (records w.dos deflate entries).length
        out := w.out ++ records w.dos deflate entries
        entries := w.entries ++ infos w.dos deflate w.offset entries } := by
  induction entries generalizing w with
  | nil => simp [records, infos, pure, Except.pure]
  | cons e entries ih =>
      have split : records w.dos deflate (e :: entries) = e.record w.dos deflate ++ records w.dos deflate entries := rfl
      rw [split, List.length_append] at fits
      rw [List.length_cons] at count
      have first : w.addEntry deflate e = .ok
          { w with
            offset := w.offset + (e.record w.dos deflate).length
            out := w.out ++ e.record w.dos deflate
            entries := w.entries ++ [e.info deflate w.offset] } :=
        addEntry_ok clock (by omega) (names e List.mem_cons_self) (contents e List.mem_cons_self) (by omega)
      have rest := ih (w := { w with
          offset := w.offset + (e.record w.dos deflate).length
          out := w.out ++ e.record w.dos deflate
          entries := w.entries ++ [e.info deflate w.offset] }) clock (by
            rw [List.length_append, List.length_singleton]
            omega) (fun f mem => names f (List.mem_cons_of_mem e mem))
        (fun f mem => contents f (List.mem_cons_of_mem e mem)) (by
          dsimp only
          omega)
      rw [List.foldlM_cons, first]
      refine rest.trans ?_
      simp only [split, infos, List.length_append, List.append_assoc, Nat.add_assoc, List.singleton_append]

/-- What the fields of the directory hold. -/
structure InRange (e : ZipEntryInfo) : Prop where
  name : (utf8 e.name).length < 65536
  compressed : e.compressedBytes ≤ ZIP32_LIMIT
  size : e.uncompressedBytes ≤ ZIP32_LIMIT
  offset : e.offset ≤ ZIP32_LIMIT

theorem length_infos {dos : DosDateTime} (offset : ℕ) (entries : List Entry) :
    (infos dos deflate offset entries).length = entries.length := by
  induction entries generalizing offset with
  | nil => rfl
  | cons e entries ih => rw [infos, List.length_cons, ih, List.length_cons]

theorem infos_inRange {dos : DosDateTime} {entries : List Entry} {offset : ℕ}
    (names : ∀ e ∈ entries, (utf8 e.name).length < 65536) (contents : ∀ e ∈ entries, e.content.length ≤ ZIP32_LIMIT)
    (fits : offset + (records dos deflate entries).length ≤ ZIP32_LIMIT) :
    ∀ info ∈ infos dos deflate offset entries, InRange info := by
  induction entries generalizing offset with
  | nil => exact nofun
  | cons e entries ih =>
      have split : records dos deflate (e :: entries) = e.record dos deflate ++ records dos deflate entries := rfl
      have length : (e.record dos deflate).length = _ := length_record dos e
      rw [split, List.length_append] at fits
      intro info mem
      obtain rfl | mem := List.mem_cons.mp mem
      · exact ⟨names e List.mem_cons_self, show (e.compressed deflate).length ≤ ZIP32_LIMIT by omega,
          contents e List.mem_cons_self, show offset ≤ ZIP32_LIMIT by omega⟩
      · exact ih (fun f mem => names f (List.mem_cons_of_mem e mem)) (fun f mem => contents f (List.mem_cons_of_mem e mem))
          (by omega) info mem

theorem addRecords_ok {listed : List ZipEntryInfo} (clock : w.dos.time < 65536 ∧ w.dos.date < 65536)
    (inRange : ∀ e ∈ listed, InRange e) (fits : w.offset + (directory w.dos listed).length ≤ ZIP32_LIMIT) :
    listed.foldlM ZipStreamWriter.addRecord w = .ok
      { w with offset := w.offset + (directory w.dos listed).length, out := w.out ++ directory w.dos listed } := by
  have limit : ZIP32_LIMIT < 256 ^ 4 := by decide
  induction listed generalizing w with
  | nil => simp [directory, pure, Except.pure]
  | cons e listed ih =>
      obtain ⟨name, compressed, size, offset⟩ := inRange e List.mem_cons_self
      have split : directory w.dos (e :: listed) = (centralHeaderBytes w.dos e ++ utf8 e.name) ++ directory w.dos listed :=
        rfl
      rw [split, List.length_append] at fits
      have header : w.centralHeader e = .ok (centralHeaderBytes w.dos e) := by
        simp only [ZipStreamWriter.centralHeader, bind_eq_ok, pure_eq_ok]
        exact ⟨_, writeUInt_ok clock.1, _, writeUInt_ok clock.2, _, writeUInt_ok (compressed.trans_lt limit), _,
          writeUInt_ok (size.trans_lt limit), _, writeUInt_ok name, _, writeUInt_ok (offset.trans_lt limit), rfl⟩
      have first : w.addRecord e = .ok
          { w with
            offset := w.offset + (centralHeaderBytes w.dos e ++ utf8 e.name).length
            out := w.out ++ (centralHeaderBytes w.dos e ++ utf8 e.name) } := by
        simp only [ZipStreamWriter.addRecord, bind_eq_ok]
        exact ⟨_, header, write_ok (by omega)⟩
      have rest := ih (w := { w with
          offset := w.offset + (centralHeaderBytes w.dos e ++ utf8 e.name).length
          out := w.out ++ (centralHeaderBytes w.dos e ++ utf8 e.name) }) clock
        (fun f mem => inRange f (List.mem_cons_of_mem e mem)) (by
          dsimp only
          omega)
      rw [List.foldlM_cons, first]
      refine rest.trans ?_
      simp only [split, List.length_append, List.append_assoc, Nat.add_assoc]

theorem length_endBytes (count size start : ℕ) : (endBytes count size start).length = 22 := by
  simp only [endBytes, List.length_append, length_number, List.length_replicate]

theorem finish_ok (clock : w.dos.time < 65536 ∧ w.dos.date < 65536)
    (count : w.entries.length ≤ MAX_ENTRIES) (inRange : ∀ e ∈ w.entries, InRange e)
    (fits : w.offset + (directory w.dos w.entries).length + 22 ≤ ZIP32_LIMIT) :
    ∃ closed, w.finish = .ok closed ∧ closed.out = w.out ++ directory w.dos w.entries ++
      endBytes w.entries.length (directory w.dos w.entries).length w.offset := by
  have limit : ZIP32_LIMIT < 256 ^ 4 := by decide
  have most : MAX_ENTRIES < 256 ^ 2 := by decide
  have ended := length_endBytes w.entries.length (directory w.dos w.entries).length w.offset
  have size : w.offset + (directory w.dos w.entries).length - w.offset = (directory w.dos w.entries).length :=
    Nat.add_sub_cancel_left _ _
  refine ⟨{ w with
    offset := w.offset + (directory w.dos w.entries).length +
      (endBytes w.entries.length (directory w.dos w.entries).length w.offset).length
    out := w.out ++ directory w.dos w.entries ++
      endBytes w.entries.length (directory w.dos w.entries).length w.offset }, ?_, rfl⟩
  simp only [ZipStreamWriter.finish, bind_eq_ok]
  refine ⟨_, addRecords_ok clock inRange (by omega), _, writeUInt_ok (by omega), _, writeUInt_ok (by
    dsimp only
    omega), _, writeUInt_ok (by omega), ?_⟩
  dsimp only
  rw [size]
  exact write_ok (by
    dsimp only [endBytes] at ended ⊢
    omega)

/-- Within the limits the writer makes the archive of its entries. -/
theorem writeArchive_ok {dos : DosDateTime} {entries : List Entry} (limits : WithinLimits dos deflate entries) :
    writeArchive deflate dos entries = .ok (archiveBytes dos deflate entries) := by
  obtain ⟨clock, count, names, contents, archive⟩ := limits
  rw [archiveBytes, List.length_append, List.length_append, length_endBytes] at archive
  have recordsFit : 0 + (records dos deflate entries).length ≤ ZIP32_LIMIT := by omega
  have ranged : ∀ info ∈ infos dos deflate 0 entries, InRange info := infos_inRange names contents recordsFit
  have added := addEntries_ok (w := ⟨0, [], dos, []⟩) clock ((Nat.zero_add _).trans_le count) names contents recordsFit
  have listed : (infos dos deflate 0 entries).length = entries.length := length_infos 0 entries
  obtain ⟨closed, ended, out⟩ := finish_ok (w := ⟨0 + (records dos deflate entries).length,
    [] ++ infos dos deflate 0 entries, dos, [] ++ records dos deflate entries⟩) clock
    (show (infos dos deflate 0 entries).length ≤ MAX_ENTRIES by omega) ranged
    (show 0 + (records dos deflate entries).length + (directory dos (infos dos deflate 0 entries)).length + 22 ≤
      ZIP32_LIMIT by omega)
  simp only [writeArchive, bind_eq_ok, pure_eq_ok]
  refine ⟨_, added, closed, ended, out.trans ?_⟩
  dsimp only
  rw [List.nil_append, List.nil_append, listed, Nat.zero_add, archiveBytes]

end Writer

/-! ## The reader finds them -/

section Reader

variable {dos : DosDateTime} {deflate : List Bytes → List Bytes} {e : Entry} {rest : Bytes}

theorem decodeName_utf8 (name : String) : decodeName (utf8 name) = some name := by
  have bytes : (⟨(utf8 name).toArray⟩ : ByteArray) = name.toList.utf8Encode := by
    simp [utf8]
  rw [decodeName, bytes, List.utf8Decode?_utf8Encode]
  simp

/-- Two fields that are passed over as one. -/
theorem takeBytes_pair {n : ℕ} {p q : Bytes} (length : p.length + q.length = n) (rest : Bytes) :
    takeBytes n (p ++ (q ++ rest)) = some (p ++ q, rest) := by
  rw [← List.append_assoc]
  exact takeBytes_append (by rw [List.length_append, length]) rest

theorem readEnd_endBytes {count size start : ℕ} (fewCount : count < 256 ^ 2) (fewSize : size < 256 ^ 4)
    (fewStart : start < 256 ^ 4) : readEnd (endBytes count size start) = some (count, start) := by
  have signature : (0x06054b50 : ℕ) < 256 ^ 4 := by norm_num
  have comment : takeNumber 2 (number 2 0) = some (0, []) := by decide
  have gap : (List.replicate 4 0 : Bytes).length = 4 := List.length_replicate
  rw [readEnd, endBytes]
  simp only [List.append_assoc]
  refine read_next (takeNumber_number signature _) ?_
  refine read_next (takeBytes_append gap _) ?_
  refine read_next (takeNumber_number fewCount _) ?_
  refine read_next (takeNumber_number fewCount _) ?_
  refine read_next (takeNumber_number fewSize _) ?_
  refine read_next (takeNumber_number fewStart _) ?_
  refine read_next comment ?_
  exact if_pos ⟨rfl, rfl⟩

/-- What the reader gets from a line of the directory. -/
def ZipEntryInfo.line (e : ZipEntryInfo) : DirectoryLine where
  nameBytes := utf8 e.name
  crc := e.crc.toNat
  compressed := e.compressedBytes
  size := e.uncompressedBytes
  offset := e.offset

theorem zeros_split (n : ℕ) : (List.replicate (4 + n) 0 : Bytes) = number 2 0 ++ (number 2 0 ++ List.replicate n 0) := by
  rw [Nat.add_comm]
  rfl

theorem readLine_line {info : ZipEntryInfo} (inRange : InRange info) :
    readLine (centralHeaderBytes dos info ++ utf8 info.name ++ rest) = some (info.line, rest) := by
  have limit : ZIP32_LIMIT < 256 ^ 4 := by decide
  have signature : (0x02014b50 : ℕ) < 256 ^ 4 := by norm_num
  have flags : FLAGS < 256 ^ 2 := by decide
  have method : METHOD_DEFLATE < 256 ^ 2 := by decide
  have zero : 0 < 256 ^ 2 := by norm_num
  have gap : (List.replicate 8 0 : Bytes).length = 8 := List.length_replicate
  have pair (a b : ℕ) : (number 2 a).length + (number 2 b).length = 4 := by
    rw [length_number, length_number]
  have zeros : (List.replicate 12 0 : Bytes) = number 2 0 ++ (number 2 0 ++ List.replicate 8 0) := zeros_split 8
  rw [readLine, centralHeaderBytes, zeros]
  simp only [List.append_assoc]
  refine read_next (takeNumber_number signature _) ?_
  refine read_next (takeBytes_pair (pair _ _) _) ?_
  refine read_next (takeNumber_number flags _) ?_
  refine read_next (takeNumber_number method _) ?_
  refine read_next (takeBytes_pair (pair _ _) _) ?_
  refine read_next (takeNumber_number info.crc.toNat_lt _) ?_
  refine read_next (takeNumber_number (inRange.compressed.trans_lt limit) _) ?_
  refine read_next (takeNumber_number (inRange.size.trans_lt limit) _) ?_
  refine read_next (takeNumber_number inRange.name _) ?_
  refine read_next (takeNumber_number zero _) ?_
  refine read_next (takeNumber_number zero _) ?_
  refine read_next (takeBytes_append gap _) ?_
  refine read_next (takeNumber_number (inRange.offset.trans_lt limit) _) ?_
  refine read_next (takeBytes_append rfl _) ?_
  refine read_next (takeBytes_zero _) ?_
  exact if_pos ⟨rfl, rfl, rfl⟩

theorem readLines_directory {listed : List ZipEntryInfo} (inRange : ∀ e ∈ listed, InRange e) :
    readLines listed.length (directory dos listed ++ rest) = some (listed.map ZipEntryInfo.line) := by
  induction listed with
  | nil => rfl
  | cons e listed ih =>
      have split : directory dos (e :: listed) ++ rest =
          centralHeaderBytes dos e ++ utf8 e.name ++ (directory dos listed ++ rest) := by
        simp only [directory, List.flatMap_cons, List.append_assoc]
      have others := ih fun f mem => inRange f (List.mem_cons_of_mem e mem)
      rw [List.length_cons, readLines, split, readLine_line (inRange e List.mem_cons_self)]
      simp only [Option.bind_eq_bind, Option.bind_some, others, List.map_cons, Option.pure_def]

theorem readLocal_record {nameBytes : Bytes}
    (few : nameBytes.length < 256 ^ 2) :
    readLocal (localHeaderBytes dos nameBytes.length ++ (nameBytes ++ rest)) = some (nameBytes, rest) := by
  have signature : (0x04034b50 : ℕ) < 256 ^ 4 := by norm_num
  have version : VERSION < 256 ^ 2 := by decide
  have flags : FLAGS < 256 ^ 2 := by decide
  have method : METHOD_DEFLATE < 256 ^ 2 := by decide
  have zero : 0 < 256 ^ 2 := by norm_num
  have passed : (number 2 dos.time ++ (number 2 dos.date ++ List.replicate 12 0)).length = 16 := by
    simp only [List.length_append, length_number, List.length_replicate]
  have moment (s : Bytes) : takeBytes 16 (number 2 dos.time ++ (number 2 dos.date ++ (List.replicate 12 0 ++ s))) =
      some (number 2 dos.time ++ (number 2 dos.date ++ List.replicate 12 0), s) := by
    simpa only [List.append_assoc] using takeBytes_append passed s
  rw [readLocal, localHeaderBytes]
  simp only [List.append_assoc]
  refine read_next (takeNumber_number signature _) ?_
  refine read_next (takeNumber_number version _) ?_
  refine read_next (takeNumber_number flags _) ?_
  refine read_next (takeNumber_number method _) ?_
  refine read_next (moment _) ?_
  refine read_next (takeNumber_number few _) ?_
  refine read_next (takeNumber_number zero _) ?_
  refine read_next (takeBytes_append rfl _) ?_
  refine read_next (takeBytes_zero _) ?_
  exact if_pos ⟨rfl, rfl, rfl⟩

theorem readDescriptor_bytes {crc : UInt32} {compressed size : ℕ} (fewCompressed : compressed < 256 ^ 4)
    (fewSize : size < 256 ^ 4) :
    readDescriptor (descriptorBytes crc compressed size ++ rest) = some (crc.toNat, compressed, size) := by
  have signature : (0x08074b50 : ℕ) < 256 ^ 4 := by norm_num
  rw [readDescriptor, descriptorBytes]
  simp only [List.append_assoc]
  refine read_next (takeNumber_number signature _) ?_
  refine read_next (takeNumber_number crc.toNat_lt _) ?_
  refine read_next (takeNumber_number fewCompressed _) ?_
  refine read_next (takeNumber_number fewSize _) ?_
  exact if_pos rfl

variable {inflate : Bytes → Option Bytes} {entries : List Entry}

/-- What is read of an entry at an offset. -/
def Entry.readAt (deflate : List Bytes → List Bytes) (e : Entry) (offset : ℕ) : ReadEntry where
  name := e.name
  crc := crc32 e.content 0
  uncompressedBytes := e.content.length
  compressedBytes := (e.compressed deflate).length
  offset
  content := e.content

theorem readEntry_record (inverse : ∀ bufs, inflate (deflate bufs).flatten = some bufs.flatten)
    (name : (utf8 e.name).length < 65536) (content : e.content.length ≤ ZIP32_LIMIT) {before : Bytes}
    (fits : before.length + (e.record dos deflate).length ≤ ZIP32_LIMIT) :
    readEntry inflate (before ++ (e.record dos deflate ++ rest)) (e.info deflate before.length).line =
      some (e.readAt deflate before.length) := by
  have limit : ZIP32_LIMIT < 256 ^ 4 := by decide
  have length : (e.record dos deflate).length = _ := length_record dos e
  have decompressed : inflate (e.compressed deflate) = some e.content := by
    rw [Entry.compressed, inverse, flatten_bufs]
  have found : (before ++ (e.record dos deflate ++ rest)).drop (e.info deflate before.length).line.offset =
      localHeaderBytes dos (utf8 e.name).length ++ (utf8 e.name ++ (e.compressed deflate ++
        (descriptorBytes (crc32 e.content 0) (e.compressed deflate).length e.content.length ++ rest))) := by
    refine List.drop_left.trans ?_
    simp only [Entry.record, List.append_assoc]
  rw [readEntry, found]
  refine read_next (readLocal_record name) ?_
  refine read_next (takeBytes_append rfl _) ?_
  refine read_next (readDescriptor_bytes (by omega) (content.trans_lt limit)) ?_
  refine read_next decompressed ?_
  refine read_next (decodeName_utf8 e.name) ?_
  exact if_pos ⟨rfl, rfl, rfl, rfl⟩

/-- Where the record of an entry starts. -/
def offsetOf (dos : DosDateTime) (deflate : List Bytes → List Bytes) (entries : List Entry) (k : ℕ) : ℕ :=
  (records dos deflate (entries.take k)).length

theorem readEntries_records (inverse : ∀ bufs, inflate (deflate bufs).flatten = some bufs.flatten)
    (names : ∀ e ∈ entries, (utf8 e.name).length < 65536) (contents : ∀ e ∈ entries, e.content.length ≤ ZIP32_LIMIT)
    {before : Bytes} (fits : before.length + (records dos deflate entries).length ≤ ZIP32_LIMIT) :
    ((infos dos deflate before.length entries).map ZipEntryInfo.line).mapM
        (readEntry inflate (before ++ (records dos deflate entries ++ rest))) =
      some (entries.mapIdx fun k e => e.readAt deflate (before.length + offsetOf dos deflate entries k)) := by
  induction entries generalizing before with
  | nil => rfl
  | cons e entries ih =>
      have split : records dos deflate (e :: entries) = e.record dos deflate ++ records dos deflate entries := rfl
      rw [split, List.length_append] at fits
      have first (after : Bytes) : readEntry inflate (before ++ (e.record dos deflate ++ after))
          (e.info deflate before.length).line = some (e.readAt deflate before.length) :=
        readEntry_record inverse (names e List.mem_cons_self) (contents e List.mem_cons_self) (by omega)
      have next : (before ++ e.record dos deflate).length = before.length + (e.record dos deflate).length :=
        List.length_append
      have others := ih (fun f mem => names f (List.mem_cons_of_mem e mem))
        (fun f mem => contents f (List.mem_cons_of_mem e mem))
        (show (before ++ e.record dos deflate).length + (records dos deflate entries).length ≤ ZIP32_LIMIT by omega)
      have later (k : ℕ) : offsetOf dos deflate (e :: entries) (k + 1) =
          (e.record dos deflate).length + offsetOf dos deflate entries k := by
        rw [offsetOf, List.take_succ_cons, records, List.flatMap_cons, List.length_append]
        rfl
      rw [next, List.append_assoc] at others
      rw [infos, List.map_cons, List.mapM_cons, split, List.append_assoc, first, others, List.mapIdx_cons]
      simp only [later, Nat.add_assoc]
      rfl

theorem readArchive_bytes (inverse : ∀ bufs, inflate (deflate bufs).flatten = some bufs.flatten)
    (limits : WithinLimits dos deflate entries) :
    readArchive inflate (archiveBytes dos deflate entries) =
      some (entries.mapIdx fun k e => e.readAt deflate (offsetOf dos deflate entries k)) := by
  obtain ⟨clock, count, names, contents, archive⟩ := limits
  have limit : ZIP32_LIMIT < 256 ^ 4 := by decide
  have most : MAX_ENTRIES < 256 ^ 2 := by decide
  let listed := infos dos deflate 0 entries
  let ending := endBytes entries.length (directory dos listed).length (records dos deflate entries).length
  have bytes : archiveBytes dos deflate entries = records dos deflate entries ++ (directory dos listed ++ ending) :=
    List.append_assoc _ _ _
  have ended : ending.length = 22 := length_endBytes _ _ _
  rw [bytes, List.length_append, List.length_append, ended] at archive
  have ranged : ∀ info ∈ listed, InRange info := infos_inRange names contents (by omega)
  have last : (archiveBytes dos deflate entries).drop ((archiveBytes dos deflate entries).length - 22) = ending := by
    have start : (archiveBytes dos deflate entries).length - 22 =
        (records dos deflate entries ++ directory dos listed).length := by
      rw [bytes, ← List.append_assoc, List.length_append, ended]
      omega
    rw [start, bytes, ← List.append_assoc, List.drop_left]
  have lines : readLines entries.length ((archiveBytes dos deflate entries).drop (records dos deflate entries).length) =
      some (listed.map ZipEntryInfo.line) := by
    rw [bytes, List.drop_left, ← length_infos 0 entries]
    exact readLines_directory ranged
  have found : (listed.map ZipEntryInfo.line).mapM (readEntry inflate ([] ++ (records dos deflate entries ++
      (directory dos listed ++ ending)))) =
        some (entries.mapIdx fun k e => e.readAt deflate (0 + offsetOf dos deflate entries k)) :=
    readEntries_records inverse names contents
      (show 0 + (records dos deflate entries).length ≤ ZIP32_LIMIT by omega)
  simp only [List.nil_append, Nat.zero_add, ← bytes] at found
  rw [readArchive, last]
  refine read_next (readEnd_endBytes (count.trans_lt most) (by omega) (by omega)) ?_
  exact read_next lines found

/-- An entry's local header is where its record starts. -/
theorem drop_offsetOf (dos : DosDateTime) (deflate : List Bytes → List Bytes) {k : ℕ} (inside : k < entries.length) :
    (records dos deflate entries).drop (offsetOf dos deflate entries k) =
      entries[k].record dos deflate ++ records dos deflate (entries.drop (k + 1)) := by
  have split : records dos deflate entries =
      records dos deflate (entries.take k) ++ records dos deflate (entries.drop k) := by
    rw [records, records, records, ← List.flatMap_append, List.take_append_drop]
  rw [split, offsetOf, List.drop_left, List.drop_eq_getElem_cons inside]
  rfl

end Reader

/-! ## The round trip -/

theorem packed (i : ℕ) {a b c : ℕ} (hb : b < 2 ^ i) (hc : c < 32) :
    a <<< (i + 5) ||| b <<< 5 ||| c = (a * 2 ^ i + b) * 32 + c := by
  rw [Nat.shiftLeft_add, ← Nat.shiftLeft_or_distrib, ← Nat.shiftLeft_add_eq_or_of_lt hb,
    ← Nat.shiftLeft_add_eq_or_of_lt hc, Nat.shiftLeft_eq, Nat.shiftLeft_eq]

/-- The fields give back a moment that fits them, to two seconds and from 1980 on. -/
theorem dos_date_time_read_back {m : WallClock} (date : m.year < 2108 ∧ m.month < 16 ∧ m.day < 32)
    (time : m.hour < 32 ∧ m.minute < 64 ∧ m.second < 64) :
    let dos := dosDateTime (.some m)
    (dos.time < 65536 ∧ dos.date < 65536) ∧
      (1980 + dos.date / 512, dos.date / 32 % 16, dos.date % 32) = (max 1980 m.year, m.month, m.day) ∧
      (dos.time / 2048, dos.time / 32 % 64, dos.time % 32 * 2) = (m.hour, m.minute, m.second - m.second % 2) := by
  obtain ⟨year, month, day⟩ := date
  obtain ⟨hour, minute, second⟩ := time
  have date := packed 4 (a := max 1980 m.year - 1980) month day
  have time := packed 6 (a := m.hour) minute (c := m.second / 2) (by omega)
  simp only [dosDateTime, Prod.mk.injEq]
  rw [date, time]
  omega

theorem dos_date_time_read_back_now :
    1980 + (dosDateTime (.some ⟨2026, 11, 20, 6, 30, 15⟩)).date / 512 = 2026 :=
  (Prod.ext_iff.mp (dos_date_time_read_back (m := ⟨2026, 11, 20, 6, 30, 15⟩) (by decide) (by decide)).2.1).1

/-- An archive is read back as its entries, each with its name, its checksum, its sizes and its content, in
their order; the local header of each is at its offset, and the checksum over the pieces is that of the
content. -/
theorem archive_read_back {dos : DosDateTime} {deflate : List Bytes → List Bytes} {inflate : Bytes → Option Bytes}
    {entries : List Entry} (limits : WithinLimits dos deflate entries)
    (inverse : ∀ bufs, inflate (deflate bufs).flatten = some bufs.flatten) :
    ∃ archive, writeArchive deflate dos entries = .ok archive ∧
      readArchive inflate archive =
        some (entries.mapIdx fun k e => e.readAt deflate (offsetOf dos deflate entries k)) ∧
      (∀ k, (inside : k < entries.length) → ∃ rest, archive.drop (offsetOf dos deflate entries k) =
        localHeaderBytes dos (utf8 entries[k].name).length ++ utf8 entries[k].name ++ rest) ∧
      ∀ e ∈ entries, (e.source.map Piece.buf).foldlM (ZipStreamWriter.readPiece e.name) (0, 0) =
        .ok (crc32 e.content 0, e.content.length) := by
  refine ⟨_, writeArchive_ok limits, readArchive_bytes inverse limits, fun k inside => ?_, fun e mem =>
    streamed_ok (limits.contents e mem)⟩
  have start : offsetOf dos deflate entries k ≤ (records dos deflate entries).length := by
    have record := congrArg List.length (drop_offsetOf dos deflate inside)
    rw [List.length_drop, List.length_append, length_record] at record
    omega
  rw [archiveBytes, List.append_assoc, List.drop_append_of_le_length start, drop_offsetOf dos deflate inside,
    Entry.record]
  simp only [List.append_assoc]
  exact ⟨_, rfl⟩

/-- What the compressor makes of one letter and of nothing; of other contents only that it is undone. -/
def smallDeflate (bufs : List Bytes) : List Bytes :=
  if bufs.flatten = [] then [[3, 0]] else if bufs.flatten = [97] then [[75, 4], [0]] else [5 :: bufs.flatten]

def smallInflate (data : Bytes) : Option Bytes :=
  if data = [3, 0] then some []
  else if data = [75, 4, 0] then some [97]
  else if data.head? = some 5 then some data.tail
  else none

/-- An archive with a file of one letter and an empty one. -/
theorem archive_read_back_small : ∃ archive,
    writeArchive smallDeflate ⟨0, 33⟩ [⟨"نام", [.text "", .buffer [97]]⟩, ⟨"b", []⟩] = .ok archive ∧
      readArchive smallInflate archive =
        some [⟨"نام", 0xe8b7be43, 1, 3, 0, [97]⟩, ⟨"b", 0, 0, 2, 55, []⟩] := by
  have limits : WithinLimits ⟨0, 33⟩ smallDeflate [⟨"نام", [.text "", .buffer [97]]⟩, ⟨"b", []⟩] := by
    refine ⟨?_, ?_, ?_, ?_, ?_⟩ <;> decide +kernel
  have inverse (bufs : List Bytes) : smallInflate (smallDeflate bufs).flatten = some bufs.flatten := by
    rw [smallDeflate]
    split_ifs with empty letter
    · exact (congrArg some empty).symm
    · exact (congrArg some letter).symm
    · simp [smallInflate]
  obtain ⟨archive, written, read, -⟩ := archive_read_back limits inverse
  refine ⟨archive, written, read.trans ?_⟩
  decide +kernel

end PapitalErp.ZipStream
