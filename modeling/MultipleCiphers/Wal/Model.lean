import MultipleCiphers.Journal.Model
import MultipleCiphers.Lib.Transition
import MultipleCiphers.Vfs.Stack

/-!
# The write-ahead log

SQLite writes changed pages to a write-ahead log. It consists of a header and of frames: a frame
header with the number of the page and a checksum, and the image of the page. A frame that the
running transaction has written may be overwritten; its checksum is made up for when the
transaction is committed.

Where pages are encrypted depends on the mode. In the standard mode SQLite asks the shim for the
encrypted page before it computes the checksum, and the write of the page passes the shim as it is.
In the legacy mode SQLite handles the plain page, and the shim encrypts it when it is written: it
takes a write of the size of a page for a page, and reads its number from the file.

## The log

`WalState` is the connection that writes, with its copy of the header of the wal-index, the shared
one and the file. The file works. `WalAction` are the operations on the log: `walFrames` writes
pages, for a spill or a commit; `walRestartHdr` starts over when all frames are in the database
file; the others are rollbacks and savepoints.

## Main definitions

* `walWriteToLog`, `walWriteOneFrame`, `walRewriteChecksums`, `walFrames` — the writer.
* `walPagerCodec` — the page that SQLite puts into a frame.
* `WalStep` — one operation of the writer.
* `WalState.readPage`, `WalState.readFrame` — the reads of a page and of a whole frame.
-/

namespace MultipleCiphers

open Bytes

/-! ### Headers and checksums -/

/-- What does not change while the log is open. -/
structure WalConfig where
  szPage : ℕ
  /-- `sqlite3SectorSize` of the log. -/
  sectorSize : ℕ
  /-- Not set for a device with `SQLITE_IOCAP_POWERSAFE_OVERWRITE`. -/
  padToSectorBoundary : Bool
  /-- The file of the database has the methods of the shim, which is the top VFS. -/
  vfsOnTop : Bool
  /-- `SQLITE_BIGENDIAN`. -/
  bigEndian : Bool
  mxWalSize : ℤ
  szPage_valid : ∃ k, 9 ≤ k ∧ k ≤ 16 ∧ szPage = 2 ^ k
  sectorSize_valid : 32 ≤ sectorSize

/-- `WAL_HDRSIZE`. -/
def walHdrSize : ℕ := 32

/-- The size of a frame. -/
def WalConfig.szFrame (c : WalConfig) : ℕ := walFrameHeaderSize + c.szPage

/-- `walFrameOffset`. Frames are counted from one. -/
def WalConfig.walFrameOffset (c : WalConfig) (iFrame : ℕ) : ℕ :=
  walHdrSize + (iFrame - 1) * c.szFrame

/-- `walChecksumBytes`. The words have the byte order that the log names: they are native ones on a
machine of that order, and swapped on any other. -/
def walChecksumBytes (bigEndCksum : Bool) : Bytes → ℕ × ℕ → ℕ × ℕ
  | a₀ :: a₁ :: a₂ :: a₃ :: b₀ :: b₁ :: b₂ :: b₃ :: rest, (s1, s2) =>
    let word := if bigEndCksum then get4byte else load32LE
    let s1 := (s1 + word [a₀, a₁, a₂, a₃] + s2) % 2 ^ 32
    let s2 := (s2 + word [b₀, b₁, b₂, b₃] + s1) % 2 ^ 32
    walChecksumBytes bigEndCksum rest (s1, s2)
  | _, s => s

/-- `struct WalIndexHdr`. -/
structure WalIndexHdr where
  iChange : ℕ
  bigEndCksum : Bool
  mxFrame : ℕ
  nPage : ℕ
  aFrameCksum : ℕ × ℕ
  aSalt : Bytes
  deriving DecidableEq, Repr

/-- A page of the dirty list. -/
structure PgHdr where
  pgno : ℕ
  data : Bytes

/-- The frame that holds a page. -/
def PgHdr.frame (p : PgHdr) : ℕ × Bytes := (p.pgno, p.data)

/-- `aWalData` of a savepoint. -/
structure WalSavepoint where
  mxFrame : ℕ
  aFrameCksum : ℕ × ℕ
  nCkpt : ℕ

/-- The connection that writes to the log. -/
structure WalState where
  config : WalConfig
  codec : Codec Cipher
  /-- The log file. -/
  shim : Shim Bytes
  hdr : WalIndexHdr
  /-- The header in the wal-index, which other connections see. -/
  live : WalIndexHdr
  iReCksum : ℕ
  nCkpt : ℕ
  truncateOnCommit : Bool
  savepoints : List WalSavepoint
  /-- The frames of the wal-index: the number of the page, and the content that was last written. -/
  frames : List (ℕ × Bytes)

section Operations

variable (P : Primitives)

/-! ### The file -/

/-- The log file of the database. -/
def WalState.walFile (s : WalState) : McFile Cipher := ⟨.wal, some s.codec, s.config.szPage⟩

/-- `sqlite3OsWrite` on the log. -/
def WalState.write (s : WalState) (data : Bytes) (offset : ℕ) : WalState :=
  { s with shim := (mcIoWrite (builtinDescriptors P) memoryFile s.walFile data offset s.shim).2 }

/-- `sqlite3OsRead` on the log. -/
def WalState.read (s : WalState) (count offset : ℕ) : ResultCode × Bytes × WalState :=
  let (rc, buffer, shim) :=
    mcIoRead (builtinDescriptors P) memoryFile s.walFile count offset s.shim
  (rc, buffer, { s with shim })

/-- `sqlite3WalReadFrame`: the page of a frame. -/
def WalState.readPage (s : WalState) (iRead : ℕ) : ResultCode × Bytes × WalState :=
  s.read P s.config.szPage (s.config.walFrameOffset iRead + walFrameHeaderSize)

/-- The read of a whole frame, as recovery and `walRewriteChecksums` make it. -/
def WalState.readFrame (s : WalState) (iRead : ℕ) : ResultCode × Bytes × WalState :=
  s.read P (s.config.szPage + walFrameHeaderSize) (s.config.walFrameOffset iRead)

/-! ### The writer -/

/-- The file handle of the database, with the shim on top or below another VFS. -/
def WalState.fd (s : WalState) : List (FileLayer Cipher) :=
  let layers := [FileLayer.multipleCiphers 0 ⟨0, some s.codec⟩, .real]
  if s.config.vfsOnTop then layers else .shim :: layers

/-- The page in the form in which `sqlite3mcPagerCodec` hands it to SQLite for the log. -/
def walPagerCodec (s : WalState) (pPg : PgHdr) : Bytes × WalState :=
  let (_, aData, env) :=
    sqlite3mcPagerCodec (builtinDescriptors P) s.fd pPg.data pPg.pgno s.shim.env
  (aData, { s with shim := { s.shim with env } })

/-- `walEncodeFrame`. Once frames were overwritten, salt and checksum are left for later. -/
def walEncodeFrame (s : WalState) (iPage nTruncate : ℕ) (aData : Bytes) : Bytes × WalState :=
  let aFrame := put4byte iPage ++ put4byte nTruncate
  if s.iReCksum = 0 then
    let aCksum := walChecksumBytes s.hdr.bigEndCksum aFrame s.hdr.aFrameCksum
    let aCksum := walChecksumBytes s.hdr.bigEndCksum aData aCksum
    (aFrame ++ s.hdr.aSalt ++ put4byte aCksum.1 ++ put4byte aCksum.2,
      { s with hdr := { s.hdr with aFrameCksum := aCksum } })
  else (aFrame ++ zeros 16, s)

/-- `walWriteToLog`: the part before the sync point is written for itself. -/
def walWriteToLog (s : WalState) (iSyncPoint : ℕ) (pContent : Bytes) (iOffset : ℕ) : WalState :=
  if iOffset < iSyncPoint ∧ iOffset + pContent.length ≥ iSyncPoint then
    let iFirstAmt := iSyncPoint - iOffset
    let s := s.write P (pContent.take iFirstAmt) iOffset
    if pContent.length - iFirstAmt = 0 then s
    else s.write P (pContent.drop iFirstAmt) (iOffset + iFirstAmt)
  else s.write P pContent iOffset

/-- `walWriteOneFrame`. -/
def walWriteOneFrame (s : WalState) (iSyncPoint : ℕ) (pPage : PgHdr) (nTruncate iOffset : ℕ) :
    WalState :=
  let (pData, s) := walPagerCodec P s pPage
  let (aFrame, s) := walEncodeFrame s pPage.pgno nTruncate pData
  let s := walWriteToLog P s iSyncPoint aFrame iOffset
  walWriteToLog P s iSyncPoint pData (iOffset + walFrameHeaderSize)

/-- The loop of `walRewriteChecksums`, over `n` frames from `iRead` on. -/
def rewriteFrames : ℕ → ℕ → WalState → ResultCode × WalState
  | 0, _, s => (.ok, s)
  | n + 1, iRead, s =>
    match s.readFrame P iRead with
    | (.ok, aBuf, s) =>
      let (aFrame, s) := walEncodeFrame s (get4byte (slice aBuf 0 4)) (get4byte (slice aBuf 4 4))
        (aBuf.drop walFrameHeaderSize)
      rewriteFrames n (iRead + 1) (s.write P aFrame (s.config.walFrameOffset iRead))
    | (rc, _, s) => (rc, s)

/-- `walRewriteChecksums`. -/
def walRewriteChecksums (s : WalState) (iLast : ℕ) : ResultCode × WalState :=
  let iCksumOff := if s.iReCksum = 1 then 24 else s.config.walFrameOffset (s.iReCksum - 1) + 16
  let (rc, aBuf, s) := s.read P 8 iCksumOff
  let iRead := s.iReCksum
  let s := { s with
    hdr := { s.hdr with aFrameCksum := (get4byte (slice aBuf 0 4), get4byte (slice aBuf 4 4)) }
    iReCksum := 0 }
  if rc = .ok then rewriteFrames P (iLast + 1 - iRead) iRead s else (rc, s)

/-- `walFindFrame`: the last of the first `n` frames with a page, or zero. -/
def walFindFrame (s : WalState) (pgno : ℕ) : ℕ → ℕ
  | 0 => 0
  | n + 1 => if s.frames[n]?.map Prod.fst = some pgno then n + 1 else walFindFrame s pgno n

/-- The frame of the transaction that holds a page, or zero. -/
def overwritten (s : WalState) (iFirst pgno : ℕ) : ℕ :=
  let iWrite := walFindFrame s pgno s.hdr.mxFrame
  if iFirst ≠ 0 ∧ iWrite ≥ iFirst then iWrite else 0

/-- Overwriting the page of a frame. -/
def walOverwrite (s : WalState) (iWrite : ℕ) (p : PgHdr) : WalState :=
  let s := if s.iReCksum = 0 ∨ iWrite < s.iReCksum then { s with iReCksum := iWrite } else s
  let (pData, s) := walPagerCodec P s p
  let s := s.write P pData (s.config.walFrameOffset iWrite + walFrameHeaderSize)
  { s with frames := s.frames.set (iWrite - 1) p.frame }

/-- The loop of `walFrames` over the dirty pages; the last frame before it is `iFrame`. It delivers
the pages that were appended. The last page of a commit always is. -/
def walWritePages (iFirst nTruncate : ℕ) (isCommit : Bool) :
    ℕ → List PgHdr → WalState → List PgHdr × WalState
  | _, [], s => ([], s)
  | iFrame, p :: pDirty, s =>
    let iWrite := if pDirty ≠ [] ∨ isCommit = false then overwritten s iFirst p.pgno else 0
    if iWrite ≠ 0 then
      walWritePages iFirst nTruncate isCommit iFrame pDirty (walOverwrite P s iWrite p)
    else
      let nDbSize := if isCommit = true ∧ pDirty = [] then nTruncate else 0
      let s := walWriteOneFrame P s 0 p nDbSize (s.config.walFrameOffset (iFrame + 1))
      let (appended, s) := walWritePages iFirst nTruncate isCommit (iFrame + 1) pDirty s
      (p :: appended, s)

/-- The loop of `walFrames` that repeats the last page up to the sync point. It delivers how often
it was repeated. The sync point is less than a sector away, so a turn for each byte of a sector is
enough. -/
def walPadFrames (iSyncPoint : ℕ) (pLast : PgHdr) (nTruncate : ℕ) :
    ℕ → ℕ → WalState → ℕ × WalState
  | 0, _, s => (0, s)
  | fuel + 1, iFrame, s =>
    let iOffset := s.config.walFrameOffset (iFrame + 1)
    if iOffset < iSyncPoint then
      let s := walWriteOneFrame P s iSyncPoint pLast nTruncate iOffset
      let (nExtra, s) := walPadFrames iSyncPoint pLast nTruncate fuel (iFrame + 1) s
      (nExtra + 1, s)
    else (0, s)

/-- The header of a log, behind which the first frame is written. -/
def walHeader (s : WalState) (aSalt : Bytes) : Bytes :=
  put4byte (if s.config.bigEndian then 0x377f0683 else 0x377f0682) ++ put4byte 3007000 ++
    put4byte s.config.szPage ++ put4byte s.nCkpt ++ aSalt

/-- `walFrames` writes the header if there are no frames. The first log of a connection gets a
random salt. -/
def walBegin (s : WalState) (randomSalt : Bytes) : WalState :=
  if s.hdr.mxFrame = 0 then
    let aSalt := if s.nCkpt = 0 then randomSalt else s.hdr.aSalt
    let aWalHdr := walHeader s aSalt
    let aCksum := walChecksumBytes s.config.bigEndian aWalHdr (0, 0)
    let s := { s with
      hdr := { s.hdr with
        aSalt := aSalt
        bigEndCksum := s.config.bigEndian
        aFrameCksum := aCksum }
      truncateOnCommit := true }
    s.write P (aWalHdr ++ put4byte aCksum.1 ++ put4byte aCksum.2) 0
  else s

/-- `walLimitSize`. -/
def walLimitSize (s : WalState) (nMax : ℕ) : WalState :=
  if s.shim.real.length > nMax then { s with shim := { s.shim with real := s.shim.real.take nMax } }
  else s

/-- What `walFrames` does when the frames of a commit are written: it repeats the last page, if it
is to be synced and the device needs that, and limits the size of the file. It delivers the number
of copies. -/
def walFinish (s : WalState) (appended : List PgHdr) (nTruncate iFrame : ℕ) (sync : Bool) :
    ℕ × WalState :=
  let iOffset := s.config.walFrameOffset (iFrame + 1)
  let sectorSize := s.config.sectorSize
  let iSyncPoint := (iOffset + sectorSize - 1) / sectorSize * sectorSize
  let (nExtra, s) := match appended.getLast? with
    | some pLast =>
      if sync = true ∧ s.config.padToSectorBoundary = true then
        walPadFrames P iSyncPoint pLast nTruncate sectorSize iFrame s
      else (0, s)
    | none => (0, s)
  if s.truncateOnCommit = true ∧ s.config.mxWalSize ≥ 0 then
    let sz := max s.config.mxWalSize.toNat (s.config.walFrameOffset (iFrame + nExtra + 1))
    (nExtra, { walLimitSize s sz with truncateOnCommit := false })
  else (nExtra, s)

/-- The frames of the copies of the last page. -/
def repeatedFrames (appended : List PgHdr) (nExtra : ℕ) : List (ℕ × Bytes) :=
  match appended.getLast? with
  | some pLast => List.replicate nExtra pLast.frame
  | none => []

/-- `walFrames`. With `isCommit` the frames complete the transaction, and `sync` says whether they
are to be synced. -/
def walFrames (s : WalState) (pList : List PgHdr) (nTruncate : ℕ) (isCommit sync : Bool)
    (randomSalt : Bytes) : ResultCode × WalState :=
  let iFirst := if s.hdr = s.live then 0 else s.live.mxFrame + 1
  let s := walBegin P s randomSalt
  let (appended, s) := walWritePages P iFirst nTruncate isCommit s.hdr.mxFrame pList s
  let iFrame := s.hdr.mxFrame + appended.length
  let (rc, s) :=
    if isCommit = true ∧ s.iReCksum ≠ 0 then walRewriteChecksums P s iFrame else (.ok, s)
  if rc = .ok then
    let (nExtra, s) := if isCommit then walFinish P s appended nTruncate iFrame sync else (0, s)
    let hdr := { s.hdr with mxFrame := iFrame + nExtra }
    let s := { s with
      frames := s.frames ++ appended.map PgHdr.frame ++ repeatedFrames appended nExtra }
    if isCommit then
      let hdr := { hdr with iChange := hdr.iChange + 1, nPage := nTruncate }
      (.ok, { s with hdr, live := hdr })
    else (.ok, { s with hdr })
  else (rc, s)

/-! ### Restarts, rollbacks and savepoints -/

/-- `walRestartHdr`. A checkpoint that truncates the log does so behind it. -/
def walRestartHdr (s : WalState) (salt1 : ℕ) (truncate : Bool) : WalState :=
  let aSalt := put4byte ((get4byte (slice s.hdr.aSalt 0 4) + 1) % 2 ^ 32) ++ put4byte salt1
  let hdr := { s.hdr with mxFrame := 0, aSalt }
  { s with
    nCkpt := s.nCkpt + 1
    hdr
    live := hdr
    frames := []
    shim := if truncate then { s.shim with real := [] } else s.shim }

/-- `sqlite3WalUndo`. -/
def sqlite3WalUndo (s : WalState) : WalState :=
  { s with
    hdr := s.live
    iReCksum := 0
    savepoints := []
    frames := s.frames.take s.live.mxFrame }

/-- `sqlite3WalSavepoint`, which opens a savepoint. -/
def sqlite3WalSavepoint (s : WalState) : WalState :=
  { s with savepoints := s.savepoints ++ [⟨s.hdr.mxFrame, s.hdr.aFrameCksum, s.nCkpt⟩] }

/-- `sqlite3WalSavepointUndo`, behind which the pager keeps the savepoint and those before it. A
savepoint from before the log was restarted goes back to its start. -/
def sqlite3WalSavepointUndo (s : WalState) (k : ℕ) : WalState :=
  match s.savepoints[k]? with
  | none => s
  | some sp =>
    let sp := if sp.nCkpt ≠ s.nCkpt then { sp with mxFrame := 0, nCkpt := s.nCkpt } else sp
    let s := { s with savepoints := s.savepoints.take k ++ [sp] }
    if sp.mxFrame < s.hdr.mxFrame then
      { s with
        hdr := { s.hdr with mxFrame := sp.mxFrame, aFrameCksum := sp.aFrameCksum }
        iReCksum := if s.iReCksum > sp.mxFrame then 0 else s.iReCksum
        frames := s.frames.take sp.mxFrame }
    else s

/-! ### Steps -/

/-- The operations of the writer. -/
inductive WalAction where
  | frames (pList : List PgHdr) (nTruncate : ℕ) (isCommit sync : Bool) (randomSalt : Bytes)
  | restart (salt1 : ℕ) (truncate : Bool)
  | undo
  | savepoint
  | savepointUndo (k : ℕ)
  | release (k : ℕ)

/-- When SQLite performs an operation. Pages are given to the log as the codec would see them; the
log is restarted before anything of a transaction was written. -/
def WalAction.Allowed (s : WalState) : WalAction → Prop
  | .frames pList nTruncate isCommit _ randomSalt =>
    pList ≠ [] ∧ (pList.map PgHdr.pgno).Nodup ∧ randomSalt.length = 8 ∧ nTruncate < 2 ^ 32 ∧
      (isCommit = true ↔ nTruncate ≠ 0) ∧ ∀ p ∈ pList, p.pgno ≠ 0 ∧ p.pgno < 2 ^ 32 ∧
        DatabasePage p.pgno p.data ∧ p.data.length = s.config.szPage
  | .restart _ _ => s.hdr = s.live
  | _ => True

/-- The state after an operation. When a transaction is committed its savepoints are released. -/
def WalState.after (s : WalState) : WalAction → WalState
  | .frames pList nTruncate isCommit sync randomSalt =>
    let (rc, s) := walFrames P s pList nTruncate isCommit sync randomSalt
    if rc = .ok ∧ isCommit = true then { s with savepoints := [] } else s
  | .restart salt1 truncate => walRestartHdr s salt1 truncate
  | .undo => sqlite3WalUndo s
  | .savepoint => sqlite3WalSavepoint s
  | .savepointUndo k => sqlite3WalSavepointUndo s k
  | .release k => { s with savepoints := s.savepoints.take k }

/-- One operation of the writer. -/
def WalStep (s : WalState) (a : WalAction) (t : WalState) : Prop := a.Allowed s ∧ s.after P a = t

end Operations

end MultipleCiphers
