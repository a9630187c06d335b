import MultipleCiphers.Vfs.File
import MultipleCiphers.Storage
import MultipleCiphers.Ciphers.RoundTrip

/-!
# The rollback journal

The pager writes a rollback journal in a fixed protocol, and the shim sees nothing of it but the
sizes and offsets of reads and writes. This file has the protocol: where the pager puts a journal
header, a record, or the name of a super-journal, what bytes it writes there and in which pieces,
and how the journal is updated when it is synced and finished when the transaction ends. Every
read and write goes through the handlers of the shim, to a file that works.

## The journal file

A journal is a sequence of sections. Each starts at a sector boundary with a header that fills a
sector, and goes on with records: page number, page image, checksum. The pager has no buffer larger
than a page, so it fills a sector that is larger with several copies of a header of one page. A
transaction that spans several databases ends its journals with the name of a super-journal.

A header is written before the number of its records is known. The sync fills it in.

## What the pager wrote

`JournalState.items` lists the headers, records and names that make up the journal of the running
transaction, in the order they were written, each with the bytes the pager wrote there. It has no
counterpart in the source and nothing of the protocol reads it.

## Main definitions

* `memoryFile` — an underlying file that never fails.
* `PagerConfig`, `ReadCodec` — page size, sector size and flags of the pager; a codec with a read
  cipher.
* `JournalItem`, `JournalPiece` — what a journal consists of, and the raw writes of an item.
* `JournalState`, `JournalAction`, `JournalStep` — the protocol.
* `JournalItem.reads`, `JournalState.readBack` — playing the journal back.
-/

namespace MultipleCiphers

open Bytes

/-! ### The file -/

/-- A file in memory: a read past its end is short and filled up with zeros. -/
def memoryFile : RealFile Bytes where
  xRead := fun f amount offset =>
    let data := slice f offset.toNat amount
    (if data.length = amount then .ok else .ioerrShortRead, data ++ zeros (amount - data.length), f)
  length_xRead := by
    intro f amount offset
    have := length_slice f offset.toNat amount
    simp only [List.length_append, length_zeros]
    omega
  xWrite := fun f data offset => (.ok, writeAt f offset.toNat data)

/-- A write to the file in memory. -/
theorem xWrite_memoryFile (shim : Shim Bytes) (data : Bytes) (offset : ℕ) :
    shim.xWrite memoryFile data offset = (.ok, { shim with
      real := writeAt shim.real offset data
      log := shim.log ++ [.write data offset .ok] }) := rfl

/-- A read of a range of the file. -/
theorem xRead_memoryFile {count offset : ℕ} {shim : Shim Bytes}
    (hin : offset + count ≤ shim.real.length) :
    shim.xRead memoryFile count offset = (.ok, slice shim.real offset count,
      { shim with log := shim.log ++ [.read count offset .ok] }) := by
  have hlen := length_slice_of_le hin
  simp [Shim.xRead, memoryFile, hlen, zeros]

/-- A read that reaches beyond the end of the file. -/
theorem xRead_memoryFile_short {count offset : ℕ} {shim : Shim Bytes}
    (hout : shim.real.length < offset + count) (hpos : 0 < count) :
    shim.xRead memoryFile count offset = (.ioerrShortRead,
      slice shim.real offset count ++ zeros (count - (slice shim.real offset count).length),
      { shim with log := shim.log ++ [.read count offset .ioerrShortRead] }) := by
  have hlen : (slice shim.real offset count).length ≠ count := by
    rw [length_slice]
    omega
  simp [Shim.xRead, memoryFile, hlen]

/-- The configuration of the pager as far as the journal depends on it. SQLite takes powers of two
for both sizes. -/
structure PagerConfig where
  pageSize : ℕ
  sectorSize : ℕ
  /-- `noSync`: the journal is never synced. -/
  noSync : Bool
  /-- `SQLITE_IOCAP_SAFE_APPEND` of the device. -/
  safeAppend : Bool
  /-- `fullSync`. -/
  fullSync : Bool
  pageSize_valid : ∃ k, 9 ≤ k ∧ k ≤ 16 ∧ pageSize = 2 ^ k
  sectorSize_valid : ∃ k, 5 ≤ k ∧ k ≤ 16 ∧ sectorSize = 2 ^ k

/-- The smallest page size. -/
theorem pageSize512_valid : ∃ k, 9 ≤ k ∧ k ≤ 16 ∧ 512 = 2 ^ k := ⟨9, by decide⟩

/-- A codec that has a cipher to read with. -/
structure ReadCodec where
  codec : Codec Cipher
  cipher : Cipher
  isEncrypted : codec.isEncrypted = true
  hasReadCipher : codec.hasReadCipher = true
  readCipher : codec.readCipher = some cipher
  wellFormed : cipher.WellFormed

/-! ### Headers, records and names -/

/-- `aJournalMagic`. -/
def aJournalMagic : Bytes := [0xd9, 0xd5, 0x05, 0xf9, 0x20, 0xa1, 0x63, 0xd7]

namespace PagerConfig

variable (c : PagerConfig)

/-- `nHeader` of `writeJournalHdr`: how much of a header is written at once. -/
def nHeader : ℕ := min c.pageSize c.sectorSize

/-- How often the loop of `writeJournalHdr` runs. -/
def headerChunks : ℕ := (c.sectorSize + c.nHeader - 1) / c.nHeader

/-- `journalHdrOffset`: the sector boundary at or after the offset `journalOff`. -/
def journalHdrOffset (journalOff : ℕ) : ℕ :=
  if journalOff = 0 then 0 else ((journalOff - 1) / c.sectorSize + 1) * c.sectorSize

/-- Whether headers are completed when the journal is synced. Otherwise they say from the start
that records fill the file. -/
def updatesHeader : Bool := !c.noSync && !c.safeAppend

/-- The header of `writeJournalHdr`. Magic and number of records come with the sync. -/
def journalHdr (cksumInit dbOrigSize : ℕ) : Bytes :=
  (if c.updatesHeader then zeros 12 else aJournalMagic ++ put4byte 0xffffffff) ++
    put4byte cksumInit ++ put4byte dbOrigSize ++ put4byte c.sectorSize ++ put4byte c.pageSize ++
    zeros (c.nHeader - 28)

/-- `pager_cksum`: every two-hundredth byte of the page, from the end, added to `cksumInit`. -/
def pagerCksum (cksumInit : ℕ) (data : Bytes) : ℕ :=
  (cksumInit + ((List.range ((c.pageSize - 1) / 200)).map fun k =>
    (data.getD (c.pageSize - 200 * (k + 1)) 0).toNat).sum) % 2 ^ 32

end PagerConfig

/-- The checksum of a super-journal name: the sum of its bytes, taken as signed. -/
def superJournalCksum (name : Bytes) : ℕ :=
  ((name.map fun b : UInt8 =>
    if b < 128 then (b.toNat : ℤ) else (b.toNat : ℤ) - 256).sum % 2 ^ 32).toNat

/-- One raw write: the bytes, where they go, and whether they are the image of a page. -/
structure JournalPiece where
  offset : ℕ
  data : Bytes
  /-- The number of the page whose image this is. -/
  page : Option ℕ

/-- The end of a piece. -/
def JournalPiece.stop (p : JournalPiece) : ℕ := p.offset + p.data.length

/-- What a journal consists of. -/
inductive JournalItem where
  /-- A header: its first chunk, and the chunk that fills the rest of the sector. -/
  | header (offset : ℕ) (first copy : Bytes)
  /-- A record. -/
  | record (offset pgno : ℕ) (image : Bytes) (cksum : ℕ)
  /-- The name of a super-journal, with the page number in front of it. -/
  | superJournal (offset pgno : ℕ) (name : Bytes)

namespace JournalItem

/-- The chunks of a header behind the first, from number `k` on, `n` of them. -/
def headerCopies (nHeader offset : ℕ) (copy : Bytes) : ℕ → ℕ → List JournalPiece
  | 0, _ => []
  | n + 1, k => ⟨offset + k * nHeader, copy, none⟩ :: headerCopies nHeader offset copy n (k + 1)

/-- The writes of an item: the loops of `writeJournalHdr`, `pagerAddPageToRollbackJournal` and
`writeSuperJournal`. -/
def pieces (c : PagerConfig) : JournalItem → List JournalPiece
  | header offset first copy =>
    ⟨offset, first, none⟩ :: headerCopies c.nHeader offset copy (c.headerChunks - 1) 1
  | record offset pgno image cksum =>
    [⟨offset, put4byte pgno, none⟩, ⟨offset + 4, image, some pgno⟩,
      ⟨offset + image.length + 4, put4byte cksum, none⟩]
  | superJournal offset pgno name =>
    [⟨offset, put4byte pgno, none⟩, ⟨offset + 4, name, none⟩,
      ⟨offset + 4 + name.length, put4byte name.length, none⟩,
      ⟨offset + 4 + name.length + 4, put4byte (superJournalCksum name), none⟩,
      ⟨offset + 4 + name.length + 8, aJournalMagic, none⟩]

/-- The reads that play an item back, in their order, with what the pager wrote there:
`readJournalHdr`, `pager_playback_one_page` and `readSuperJournal`. -/
def reads : JournalItem → List JournalPiece
  | header offset first _ =>
    [⟨offset, slice first 0 8, none⟩, ⟨offset + 8, slice first 8 4, none⟩,
      ⟨offset + 12, slice first 12 4, none⟩, ⟨offset + 16, slice first 16 4, none⟩] ++
    if offset = 0 then
      [⟨offset + 20, slice first 20 4, none⟩, ⟨offset + 24, slice first 24 4, none⟩] else []
  | record offset pgno image cksum =>
    [⟨offset, put4byte pgno, none⟩, ⟨offset + 4, image, some pgno⟩,
      ⟨offset + image.length + 4, put4byte cksum, none⟩]
  | superJournal offset _ name =>
    let szJ := offset + 20 + name.length
    [⟨szJ - 16, put4byte name.length, none⟩, ⟨szJ - 12, put4byte (superJournalCksum name), none⟩,
      ⟨szJ - 8, aJournalMagic, none⟩, ⟨szJ - 16 - name.length, name, none⟩]

/-- The header at `journalHdr` with its first bytes overwritten by `zHeader`. -/
def complete (journalHdr : ℕ) (zHeader : Bytes) : JournalItem → JournalItem
  | header offset first copy =>
    header offset (if offset = journalHdr then splice first 0 zHeader else first) copy
  | item => item

/-- Whether an item is the name of a super-journal, which is read before the rest. -/
def isSuperJournal : JournalItem → Bool
  | superJournal _ _ _ => true
  | _ => false

end JournalItem

/-! ### The state -/

/-- Where the pager is in its protocol. -/
inductive JournalPhase where
  /-- The journal file is not open. -/
  | closed
  /-- It is open, and no transaction writes to it. -/
  | idle
  /-- A transaction writes to it. -/
  | writing
  /-- The transaction is about to be committed or rolled back. -/
  | finishing
  deriving DecidableEq, Repr

/-- The pager's view of its journal, and the file behind the shim. -/
structure JournalState where
  config : PagerConfig
  codec : ReadCodec
  phase : JournalPhase
  shim : Shim Bytes
  journalOff : ℕ
  journalHdr : ℕ
  nRec : ℕ
  cksumInit : ℕ
  /-- What the pager wrote. -/
  items : List JournalItem

/-- How a transaction finishes its journal. -/
inductive JournalEnd where
  /-- `journal_mode = TRUNCATE`. -/
  | truncate
  /-- `zeroJournalHdr`, for `journal_mode = PERSIST` and for exclusive locking. -/
  | zeroHeader (doTruncate : Bool) (journalSizeLimit : ℤ)
  /-- `journal_mode = DELETE`. -/
  | delete
  deriving DecidableEq, Repr

/-- What happens to a journal file. -/
inductive JournalAction where
  /-- Between two transactions: the codec of the database and the configuration may change. -/
  | configure (config : PagerConfig) (codec : ReadCodec)
  /-- The file is opened, with the content found in it. -/
  | openFile (existing : Bytes)
  /-- The file is closed and left as it is. -/
  | closeFile
  /-- `pager_open_journal`: a transaction begins. -/
  | begin (cksumInit dbOrigSize : ℕ)
  /-- `pagerAddPageToRollbackJournal`. -/
  | record (pgno : ℕ) (image : Bytes)
  /-- `syncJournal`. The values are those of a new header. -/
  | sync (newHdr : Bool) (cksumInit dbOrigSize : ℕ)
  /-- `writeSuperJournal`. -/
  | superJournal (name : Bytes)
  /-- Any read of the file: a playback, or a part of one. -/
  | read (count offset : ℕ)
  /-- `pager_end_transaction`. -/
  | finish (how : JournalEnd)

/-- The writes of the pieces `ps`, one after the other. -/
def writePieces (P : Primitives) (file : McFile Cipher) :
    List JournalPiece → Shim Bytes → Shim Bytes
  | [], shim => shim
  | p :: ps, shim =>
    writePieces P file ps
      (mcIoWrite (builtinDescriptors P) memoryFile file p.data p.offset shim).2

/-- The results of reading the pieces `ps` one after the other. -/
def readPieces (P : Primitives) (file : McFile Cipher) :
    List JournalPiece → Shim Bytes → List (ResultCode × Bytes)
  | [], _ => []
  | p :: ps, shim =>
    let (rc, buffer, shim) :=
      mcIoRead (builtinDescriptors P) memoryFile file p.data.length p.offset shim
    (rc, buffer) :: readPieces P file ps shim

namespace JournalState

variable (P : Primitives) (s : JournalState)

/-- The journal file as the shim has it. -/
def file : McFile Cipher := ⟨.mainJournal, some s.codec.codec, s.config.pageSize⟩

/-- `sqlite3OsWrite` on the journal. -/
def write (data : Bytes) (offset : ℕ) : JournalState :=
  { s with shim := (mcIoWrite (builtinDescriptors P) memoryFile s.file data offset s.shim).2 }

/-- `sqlite3OsRead` on the journal. -/
def read (count offset : ℕ) : ResultCode × Bytes × JournalState :=
  let (rc, buffer, shim) :=
    mcIoRead (builtinDescriptors P) memoryFile s.file count offset s.shim
  (rc, buffer, { s with shim := shim })

/-- `sqlite3OsTruncate`, which makes a file shorter. -/
def truncate (size : ℕ) : JournalState :=
  { s with shim := { s.shim with real := s.shim.real.take size } }

/-- All writes of an item, which from then on is part of the journal. -/
def writeItem (item : JournalItem) : JournalState :=
  { s with
    shim := writePieces P s.file (item.pieces s.config) s.shim
    items := s.items ++ [item] }

/-- `writeJournalHdr`. -/
def writeJournalHdr (cksumInit dbOrigSize : ℕ) : JournalState :=
  let offset := s.config.journalHdrOffset s.journalOff
  let header := s.config.journalHdr cksumInit dbOrigSize
  { s.writeItem P (.header offset header header) with
    journalHdr := offset
    journalOff := offset + s.config.headerChunks * s.config.nHeader
    cksumInit := cksumInit }

/-- `pagerAddPageToRollbackJournal`. -/
def pagerAddPageToRollbackJournal (pgno : ℕ) (image : Bytes) : JournalState :=
  let cksum := s.config.pagerCksum s.cksumInit image
  { s.writeItem P (.record s.journalOff pgno image cksum) with
    journalOff := s.journalOff + 8 + s.config.pageSize
    nRec := s.nRec + 1 }

/-- The part of `syncJournal` that completes the header. A header that an earlier journal left
behind the end of this one is made invalid first. -/
def completeHeader : JournalState :=
  let zHeader := aJournalMagic ++ put4byte s.nRec
  let iNextHdrOffset := s.config.journalHdrOffset s.journalOff
  let (rc, aMagic, shim) :=
    mcIoRead (builtinDescriptors P) memoryFile s.file 8 iNextHdrOffset s.shim
  let shim :=
    if rc = .ok ∧ aMagic = aJournalMagic then
      (mcIoWrite (builtinDescriptors P) memoryFile s.file [0] iNextHdrOffset shim).2
    else shim
  { s with
    shim := (mcIoWrite (builtinDescriptors P) memoryFile s.file zHeader s.journalHdr shim).2
    items := s.items.map (JournalItem.complete s.journalHdr zHeader) }

/-- `syncJournal`. A sync without a new header is the last one of a transaction. -/
def syncJournal (newHdr : Bool) (cksumInit dbOrigSize : ℕ) : JournalState :=
  let s := { s with phase := if newHdr then s.phase else .finishing }
  if s.config.noSync then s
  else if s.config.safeAppend then { s with journalHdr := s.journalOff }
  else
    let s := { s.completeHeader P with journalHdr := s.journalOff }
    if newHdr then { s with nRec := 0 }.writeJournalHdr P cksumInit dbOrigSize else s

/-- `writeSuperJournal`. What lies behind the name is cut off. -/
def writeSuperJournal (name : Bytes) : JournalState :=
  let offset := if s.config.fullSync then s.config.journalHdrOffset s.journalOff else s.journalOff
  let pgno := pagerMjPgno s.config.pageSize
  let journalOff := offset + name.length + 20
  { (s.writeItem P (.superJournal offset pgno name)).truncate journalOff with
    phase := .finishing
    journalOff := journalOff }

/-- `zeroJournalHdr`. -/
def zeroJournalHdr (doTruncate : Bool) (journalSizeLimit : ℤ) : JournalState :=
  if s.journalOff = 0 then s
  else
    let s := if doTruncate ∨ journalSizeLimit = 0 then s.truncate 0 else s.write P (zeros 28) 0
    if journalSizeLimit > 0 then s.truncate journalSizeLimit.toNat else s

/-- The part of `pager_end_transaction` that finishes the journal. -/
def pagerEndTransaction (how : JournalEnd) : JournalState :=
  let s := match how with
    | .truncate =>
      { if s.journalOff = 0 then s else s.truncate 0 with phase := .idle }
    | .zeroHeader doTruncate limit => { s.zeroJournalHdr P doTruncate limit with phase := .idle }
    | .delete => { s.truncate 0 with phase := .closed }
  { s with journalOff := 0, nRec := 0, items := [] }

/-- The reads of a playback: the name of the super-journal comes first. -/
def playbackReads : List JournalPiece :=
  ((s.items.filter JournalItem.isSuperJournal) ++
    s.items.filter fun item => !item.isSuperJournal).flatMap JournalItem.reads

/-- What a playback of the journal reads, by a handle on which the shim remembers `pageNo`. -/
def readBack (pageNo : ℕ) : List (ResultCode × Bytes) :=
  readPieces P s.file s.playbackReads { s.shim with pageNo }

end JournalState

/-! ### The protocol -/

/-- What the protocol allows in a state. An image is that of a database page. -/
def JournalAction.Allowed (s : JournalState) : JournalAction → Prop
  | configure _ _ => s.phase = .closed ∨ s.phase = .idle
  | openFile _ => s.phase = .closed
  | closeFile => s.phase = .idle
  | begin _ _ => s.phase = .idle
  | record pgno image => s.phase = .writing ∧ (0 < pgno ∧ pgno < 2 ^ 32) ∧
      DatabasePage pgno image ∧ image.length = s.config.pageSize
  | sync newHdr _ _ => s.phase = .writing ∨ s.phase = .finishing ∧ newHdr = false
  | superJournal _ => s.phase = .writing
  | read _ _ => s.phase ≠ .closed
  | finish _ => s.phase ≠ .closed

/-- The state after an action. -/
def JournalState.after (P : Primitives) (s : JournalState) : JournalAction → JournalState
  | .configure config codec => { s with config, codec }
  | .openFile existing =>
    { s with phase := .idle, shim := { s.shim with real := existing, pageNo := 0 } }
  | .closeFile => { s with phase := .closed }
  | .begin cksumInit dbOrigSize =>
    { s with phase := .writing, journalOff := 0, journalHdr := 0, nRec := 0 }.writeJournalHdr P
      cksumInit dbOrigSize
  | .record pgno image => s.pagerAddPageToRollbackJournal P pgno image
  | .sync newHdr cksumInit dbOrigSize => s.syncJournal P newHdr cksumInit dbOrigSize
  | .superJournal name => s.writeSuperJournal P name
  | .read count offset => (s.read P count offset).2.2
  | .finish how => s.pagerEndTransaction P how

/-- One step of the protocol. -/
def JournalStep (P : Primitives) (s : JournalState) (a : JournalAction) (t : JournalState) : Prop :=
  a.Allowed s ∧ t = s.after P a

end MultipleCiphers
