import MultipleCiphers.Codec

/-!
# The VFS shim: reading and writing files

SQLite reads and writes files through a table of methods. The encryption layer puts its own
methods in front of those of the operating system: on a read it decrypts what came from the file,
on a write it encrypts what goes there. What it has to do depends on the kind of the file, and for
journals on what was read or written just before, because a journal does not tell where its pages
are. The shim infers it from the sizes of the requests.

## The underlying file

`RealFile φ` is the file of the operating system, over a state `φ` of its own. Its methods may
return any code at any time. So what is proved for every `RealFile` holds whatever faults occur,
in whatever order.

## The log

`Shim.log` lists the underlying reads and writes and the codec calls a request makes, oldest
first. It has no counterpart in the source and nothing reads it; statements about *every* read or
write of a request are statements about it.

## Main definitions

* `RealFile`, `McFile`, `Shim`, `ShimEvent`.
* `mcIoRead` and its handlers `mcReadMainDb`, `mcReadMainJournal`, `mcReadSubJournal`, `mcReadWal`.
* `mcIoWrite` and its handlers `mcWriteMainDb`, `mcWriteMainJournal`, `mcWriteSubJournal`,
  `mcWriteWal`.
-/

namespace MultipleCiphers

open Bytes

/-- The methods of the underlying file that the shim uses. `xRead` fills a buffer of the length
asked for, whatever code it returns. -/
structure RealFile (φ : Type) where
  /-- `xRead amount offset`. -/
  xRead : φ → ℕ → ℤ → ResultCode × Bytes × φ
  length_xRead : ∀ s amt ofst, (xRead s amt ofst).2.1.length = amt
  /-- `xWrite data offset`. -/
  xWrite : φ → Bytes → ℤ → ResultCode × φ

/-- The kinds of files SQLite opens, as far as the shim tells them apart. -/
inductive FileKind where
  | mainDb
  | mainJournal
  | subJournal
  | wal
  | other
  deriving DecidableEq, Repr

/-- `struct sqlite3mc_file`: the kind of the file, the codec that applies to it (its own for a
main database file, that of the main database file for a journal), and the page size of the
B-tree that codec belongs to. -/
structure McFile (σ : Type) where
  kind : FileKind
  codec : Option (Codec σ)
  pageSize : ℕ

/-- The codec of a file if it encrypts. -/
def McFile.encryptedCodec {σ : Type} (file : McFile σ) : Option (Codec σ) :=
  file.codec.filter fun codec => codec.isEncrypted

/-- What a request does to the world outside the shim. -/
inductive ShimEvent where
  /-- A read of the underlying file. -/
  | read (amount : ℕ) (offset : ℤ) (rc : ResultCode)
  /-- A write to the underlying file. -/
  | write (data : Bytes) (offset : ℤ) (rc : ResultCode)
  /-- A page encrypted or decrypted. -/
  | codec (page : ℕ) (mode : CodecMode) (rc : ResultCode)
  deriving DecidableEq, Repr

/-- The result code of an event. -/
def ShimEvent.rc : ShimEvent → ResultCode
  | .read _ _ rc | .write _ _ rc | .codec _ _ rc => rc

/-- The state a request works on: the underlying file, the environment of the codec, and the page
number the shim remembers for a journal. -/
structure Shim (φ : Type) where
  real : φ
  env : Env
  pageNo : ℕ
  log : List ShimEvent

/-- `walFrameHeaderSize`. -/
def walFrameHeaderSize : ℕ := 24

section Handlers

variable {σ φ : Type} (D : ℕ → CipherDescriptor σ) (R : RealFile φ)

/-- `REALFILE(pFile)->pMethods->xRead`. -/
def Shim.xRead (s : Shim φ) (amount : ℕ) (offset : ℤ) : ResultCode × Bytes × Shim φ :=
  let (rc, buffer, real) := R.xRead s.real amount offset
  (rc, buffer, { s with real, log := s.log ++ [.read amount offset rc] })

/-- `REALFILE(pFile)->pMethods->xWrite`. -/
def Shim.xWrite (s : Shim φ) (data : Bytes) (offset : ℤ) : ResultCode × Shim φ :=
  let (rc, real) := R.xWrite s.real data offset
  (rc, { s with real, log := s.log ++ [.write data offset rc] })

/-- `sqlite3mcCodec` followed by `sqlite3mcGetCodecLastError`. -/
def Shim.runCodec (s : Shim φ) (codec : Codec σ) (data : Bytes) (page : ℕ) (mode : CodecMode) :
    ResultCode × Bytes × Shim φ :=
  let (rc, out, env) := sqlite3mcCodec D codec data page mode s.env
  (rc, out, { s with env, log := s.log ++ [.codec page mode rc] })

/-! ### Reading -/

/-- The page loop of `mcReadMainDb`, from page `pageNo` on with the return code at `rc`. `data` is
the part of the buffer still to be decrypted. -/
def mcReadPages (codec : Codec σ) (pageSize : ℕ) :
    ℕ → ℕ → Bytes → ResultCode → Shim φ → ResultCode × Bytes × Shim φ
  | 0, _, data, rc, s => (rc, data, s)
  | nPages + 1, pageNo, data, _, s =>
    let (rc, out, s) := s.runCodec D codec (data.take pageSize) pageNo .load
    let (rc, rest, s) := mcReadPages codec pageSize nPages (pageNo + 1) (data.drop pageSize) rc s
    (rc, out ++ rest, s)

/-- `mcReadMainDb`. The sixteen bytes of the salt are delivered as they are. A partial page is
read again as a whole and decrypted. -/
def mcReadMainDb (file : McFile σ) (buffer : Bytes) (count offset : ℕ) (s : Shim φ) :
    ResultCode × Bytes × Shim φ :=
  if offset = 0 ∧ count = 16 then (.ok, buffer, s)
  else
    match file.encryptedCodec with
    | some codec =>
      let pageSize := file.pageSize
      let deltaOffset := offset % pageSize
      let deltaCount := count % pageSize
      if deltaOffset ≠ 0 ∨ deltaCount ≠ 0 then
        let prevOffset := offset - deltaOffset
        let (rc, pageBuffer, s) := s.xRead R pageSize prevOffset
        if rc = .ioerrShortRead then (rc, buffer, s)
        else
          let pageNo := prevOffset / pageSize + 1
          let (rc, pageBuffer, s) := s.runCodec D codec pageBuffer pageNo .load
          (rc, splice buffer 0 (slice pageBuffer deltaOffset count), s)
      else mcReadPages D codec pageSize (count / pageSize) (offset / pageSize + 1) buffer .ok s
    | none => (.ok, buffer, s)

/-- The journal read handlers: a read of one page after a page number was seen is decrypted, a
read of four bytes is taken for a page number. `forget` says whether the page number is used up
by the page. -/
def readJournalPage (forget : Bool) (file : McFile σ) (buffer : Bytes) (count : ℕ) (s : Shim φ) :
    ResultCode × Bytes × Shim φ :=
  match file.encryptedCodec with
  | some codec =>
    if count = file.pageSize ∧ s.pageNo ≠ 0 then
      let (rc, out, s) := s.runCodec D codec buffer s.pageNo .load
      (rc, out, if forget then { s with pageNo := 0 } else s)
    else if count = 4 then (.ok, buffer, { s with pageNo := get4byte buffer })
    else (.ok, buffer, s)
  | none => (.ok, buffer, s)

/-- `mcReadMainJournal`. -/
def mcReadMainJournal (file : McFile σ) (buffer : Bytes) (count : ℕ) (s : Shim φ) :
    ResultCode × Bytes × Shim φ :=
  readJournalPage D true file buffer count s

/-- `mcReadSubJournal`. Here the page number stays. -/
def mcReadSubJournal (file : McFile σ) (buffer : Bytes) (count : ℕ) (s : Shim φ) :
    ResultCode × Bytes × Shim φ :=
  readJournalPage D false file buffer count s

/-- `mcReadWal`. The page number of a page is read from the frame header in front of it; a whole
frame, which only the legacy mode reads, carries it along. -/
def mcReadWal (file : McFile σ) (buffer : Bytes) (count offset : ℕ) (s : Shim φ) :
    ResultCode × Bytes × Shim φ :=
  match file.encryptedCodec with
  | some codec =>
    if count = file.pageSize then
      let (rc, ac, s) := s.xRead R 4 ((offset : ℤ) - walFrameHeaderSize)
      let pageNo := if rc = .ok then get4byte ac else 0
      if pageNo ≠ 0 then s.runCodec D codec buffer pageNo .load
      else (rc, buffer, s)
    else if codec.walLegacy ≠ 0 ∧ count = file.pageSize + walFrameHeaderSize then
      let pageNo := get4byte buffer
      if pageNo ≠ 0 then
        let (rc, out, s) := s.runCodec D codec (buffer.drop walFrameHeaderSize) pageNo .load
        (rc, buffer.take walFrameHeaderSize ++ out, s)
      else (.ok, buffer, s)
    else (.ok, buffer, s)
  | none => (.ok, buffer, s)

/-- `mcIoRead`. Only a short read ends the request; any other code of the first read is replaced
by that of the handler, if the file is of a kind that has one. -/
def mcIoRead (file : McFile σ) (count offset : ℕ) (s : Shim φ) : ResultCode × Bytes × Shim φ :=
  let (rc, buffer, s) := s.xRead R count offset
  if rc = .ioerrShortRead then (rc, buffer, s)
  else
    match file.kind with
    | .mainDb => mcReadMainDb D R file buffer count offset s
    | .mainJournal => mcReadMainJournal D file buffer count s
    | .subJournal => mcReadSubJournal D file buffer count s
    | .wal => mcReadWal D R file buffer count offset s
    | .other => (rc, buffer, s)

/-! ### Writing -/

/-- The page loop of `mcWriteMainDb`: each page is encrypted and written, and the return code is
that of the last write. -/
def mcWritePages (codec : Codec σ) (pageSize : ℕ) :
    ℕ → ℕ → Bytes → ℕ → ResultCode → Shim φ → ResultCode × Shim φ
  | 0, _, _, _, rc, s => (rc, s)
  | nPages + 1, pageNo, data, offset, _, s =>
    let (_, bufferEncrypted, s) := s.runCodec D codec (data.take pageSize) pageNo .database
    let (rc, s) := s.xWrite R bufferEncrypted offset
    mcWritePages codec pageSize nPages (pageNo + 1) (data.drop pageSize) (offset + pageSize) rc s

/-- `mcWriteMainDb`. A request that is not for whole pages is written as it is. -/
def mcWriteMainDb (file : McFile σ) (buffer : Bytes) (offset : ℕ) (s : Shim φ) :
    ResultCode × Shim φ :=
  match file.encryptedCodec with
  | some codec =>
    let pageSize := file.pageSize
    let count := buffer.length
    if offset % pageSize ≠ 0 ∨ count % pageSize ≠ 0 then s.xWrite R buffer offset
    else mcWritePages D R codec pageSize (count / pageSize) (offset / pageSize + 1) buffer offset
      .ok s
  | none => s.xWrite R buffer offset

/-- The journal write handlers: a write of one page after a page number was seen is encrypted, a
write of four bytes is taken for a page number. -/
def writeJournalPage (file : McFile σ) (buffer : Bytes) (offset : ℕ) (s : Shim φ) :
    ResultCode × Shim φ :=
  match file.encryptedCodec with
  | some codec =>
    if buffer.length = file.pageSize ∧ s.pageNo ≠ 0 then
      let (_, bufferEncrypted, s) := s.runCodec D codec buffer s.pageNo .journal
      s.xWrite R bufferEncrypted offset
    else
      let (rc, s) := s.xWrite R buffer offset
      (rc, if buffer.length = 4 then
        { s with pageNo := if rc = .ok then get4byte buffer else 0 } else s)
  | none => s.xWrite R buffer offset

/-- `mcWriteMainJournal`. -/
def mcWriteMainJournal (file : McFile σ) (buffer : Bytes) (offset : ℕ) (s : Shim φ) :
    ResultCode × Shim φ :=
  writeJournalPage D R file buffer offset s

/-- `mcWriteSubJournal`. -/
def mcWriteSubJournal (file : McFile σ) (buffer : Bytes) (offset : ℕ) (s : Shim φ) :
    ResultCode × Shim φ :=
  writeJournalPage D R file buffer offset s

/-- `mcWriteWal`. Only the legacy mode encrypts here; otherwise the pages arrive encrypted. -/
def mcWriteWal (file : McFile σ) (buffer : Bytes) (offset : ℕ) (s : Shim φ) :
    ResultCode × Shim φ :=
  match file.encryptedCodec.filter fun codec => codec.walLegacy ≠ 0 with
  | some codec =>
    if buffer.length = file.pageSize then
      let (rc, ac, s) := s.xRead R 4 ((offset : ℤ) - walFrameHeaderSize)
      let pageNo := if rc = .ok then get4byte ac else 0
      if pageNo ≠ 0 then
        let (_, bufferEncrypted, s) := s.runCodec D codec buffer pageNo .journal
        s.xWrite R bufferEncrypted offset
      else s.xWrite R buffer offset
    else if buffer.length = file.pageSize + walFrameHeaderSize then
      let pageNo := get4byte buffer
      if pageNo ≠ 0 then
        let (_, bufferEncrypted, s) :=
          s.runCodec D codec (buffer.drop walFrameHeaderSize) pageNo .journal
        let (_, s) := s.xWrite R (buffer.take walFrameHeaderSize) offset
        s.xWrite R bufferEncrypted (offset + walFrameHeaderSize : ℕ)
      else s.xWrite R buffer offset
    else s.xWrite R buffer offset
  | none => s.xWrite R buffer offset

/-- `mcIoWrite`. -/
def mcIoWrite (file : McFile σ) (buffer : Bytes) (offset : ℕ) (s : Shim φ) :
    ResultCode × Shim φ :=
  match file.kind with
  | .mainDb => mcWriteMainDb D R file buffer offset s
  | .mainJournal => mcWriteMainJournal D R file buffer offset s
  | .subJournal => mcWriteSubJournal D R file buffer offset s
  | .wal => mcWriteWal D R file buffer offset s
  | .other => s.xWrite R buffer offset

end Handlers

end MultipleCiphers
