import MultipleCiphers.Lib.Transition
import MultipleCiphers.Vfs.Stack
import MultipleCiphers.Journal.Model

/-!
# The sub-journal

A statement or savepoint that is rolled back needs the pages as they were when it began. The pager
keeps them in a sub-journal: records of a page number and a page image, without checksums. The
sub-journal is a temporary file. It starts out in memory, and goes to a file when it grows beyond a
limit that the application can set, or at once if the limit is zero.

The shim has a write handler that encrypts the images of a sub-journal with the codec of its main
database. Which database that is it looks up when the file is opened, by the name of the file. The
pager opens sub-journals without a name.

## What is modelled

The handle of the sub-journal with its three states, and the operations of the pager on it:
opening a savepoint, storing a page, releasing and rolling back a savepoint, the end of the
transaction. `SubJournalState.records` lists the pages that the pager stored and still counts on.
It has no counterpart in the source and none of the operations reads it.

Which savepoint a page is stored for the pager finds in bit vectors. Here it is an argument.

## Main results

* `SubJournalState.Inv` — what holds in every state of a run, `subJournalStep_inv`.
* `subJournal_encrypted_iff` — in every state of every run, the images in the file are encrypted
  exactly if each is its own encryption.
* `subJournal_plaintext` — a savepoint over two pages.
-/

namespace MultipleCiphers

open Bytes

/-! ### Opening a file -/

/-- `mcVfsOpen`, for what the reads and writes need of the file. A journal belongs to the main
database file whose name is found by the journal's own name; without a name there is none.
`filenameDatabase` is `sqlite3_filename_database`. -/
def mcVfsOpen {σ : Type} (w : Vfses σ) (filenameDatabase : ℕ → ℕ) (vfs : ℕ) (zName : Option ℕ)
    (kind : FileKind) (pageSize : ℕ) : McFile σ where
  kind := kind
  codec :=
    match zName, kind with
    | some zName, .mainJournal | some zName, .subJournal | some zName, .wal =>
      (mcFindDbMainFileName w vfs (filenameDatabase zName)).bind MainFile.codec
    | _, _ => none
  pageSize := pageSize

/-- The file handle of a sub-journal. -/
inductive SubJournalHandle where
  /-- The file is not open. -/
  | closed
  /-- `struct MemJournal`: the content, and the size beyond which it goes to a file. A negative
  size means never. -/
  | memory (content : Bytes) (nSpill : ℤ)
  /-- A file of the shim. -/
  | file (file : McFile Cipher) (shim : Shim Bytes)

/-- What the pager has configured for its sub-journal. -/
structure SubJournalConfig where
  /-- The VFS of the pager. -/
  vfs : ℕ
  /-- `sqlite3_filename_database`. -/
  filenameDatabase : ℕ → ℕ
  pageSize : ℕ
  /-- `journalMode == PAGER_JOURNALMODE_MEMORY || subjInMemory`. -/
  inMemory : Bool
  /-- `sqlite3Config.nStmtSpill`. -/
  nStmtSpill : ℤ
  exclusiveMode : Bool

/-- `struct PagerSavepoint`, as far as the sub-journal depends on it. -/
structure PagerSavepoint where
  iSubRec : ℕ
  bTruncateOnRelease : Bool

/-- `subjRequiresPage` on savepoint number `i`, `first` being the first one that needs the page. -/
def PagerSavepoint.afterStore (first i : ℕ) (savepoint : PagerSavepoint) : PagerSavepoint :=
  if first < i then { savepoint with bTruncateOnRelease := false } else savepoint

/-- The pager's view of its sub-journal, and the files open at the time. -/
structure SubJournalState where
  config : SubJournalConfig
  vfses : Vfses Cipher
  env : Env
  sjfd : SubJournalHandle
  nSubRec : ℕ
  savepoints : List PagerSavepoint
  /-- The pages the pager stored: number and image. -/
  records : List (ℕ × Bytes)

/-- The size of a record. -/
def SubJournalConfig.recordSize (c : SubJournalConfig) : ℕ := 4 + c.pageSize

section Operations

variable (P : Primitives)

/-- The loop of `memjrnlCreateFile`: the first `n` chunks of the content are written. -/
def memjrnlFlush (file : McFile Cipher) (nChunk : ℕ) (content : Bytes) :
    ℕ → Shim Bytes → Shim Bytes
  | 0, shim => shim
  | n + 1, shim =>
    (mcIoWrite (builtinDescriptors P) memoryFile file (slice content (n * nChunk) nChunk)
      (n * nChunk) (memjrnlFlush file nChunk content n shim)).2

namespace SubJournalState

variable (s : SubJournalState)

/-- `sqlite3OsOpen` for a sub-journal: a new file without a name. -/
def openFile : SubJournalHandle :=
  .file (mcVfsOpen s.vfses s.config.filenameDatabase s.config.vfs none .subJournal
    s.config.pageSize) ⟨[], s.env, 0, []⟩

/-- `openSubJournal`. -/
def openSubJournal : SubJournalState :=
  match s.sjfd with
  | .closed =>
    let nStmtSpill := if s.config.inMemory then -1 else s.config.nStmtSpill
    { s with sjfd := if nStmtSpill = 0 then s.openFile else .memory [] nStmtSpill }
  | _ => s

/-- `sqlite3OsWrite` on the sub-journal, which for a journal in memory is `memjrnlWrite`. -/
def write (data : Bytes) (offset : ℕ) : SubJournalState :=
  match s.sjfd with
  | .closed => s
  | .memory content nSpill =>
    if nSpill > 0 ∧ (data.length + offset : ℤ) > nSpill then
      match s.openFile with
      | .file file shim =>
        let nChunk := nSpill.toNat
        let shim :=
          memjrnlFlush P file nChunk content ((content.length + nChunk - 1) / nChunk) shim
        { s with sjfd := .file file (mcIoWrite (builtinDescriptors P) memoryFile file data offset
            shim).2 }
      | _ => s
    else if offset = 0 ∧ content ≠ [] then { s with sjfd := .memory (splice content 0 data) nSpill }
    else { s with sjfd := .memory (content.take offset ++ data) nSpill }
  | .file file shim =>
    { s with sjfd := .file file (mcIoWrite (builtinDescriptors P) memoryFile file data offset
        shim).2 }

/-- `sqlite3OsRead` on the sub-journal, which for a journal in memory is `memjrnlRead`. -/
def read (count offset : ℕ) : ResultCode × Bytes × SubJournalState :=
  match s.sjfd with
  | .closed => (.ioerr, zeros count, s)
  | .memory content _ =>
    if count + offset > content.length then (.ioerrShortRead, zeros count, s)
    else (.ok, slice content offset count, s)
  | .file file shim =>
    let (rc, buffer, shim) := mcIoRead (builtinDescriptors P) memoryFile file count offset shim
    (rc, buffer, { s with sjfd := .file file shim })

/-- `subjournalPage`. The page is the first one of its number for the savepoint `first`; no later
savepoint gives its part of the sub-journal back. -/
def subjournalPage (pgno : ℕ) (image : Bytes) (first : ℕ) : SubJournalState :=
  let s := { s with savepoints := s.savepoints.mapIdx (PagerSavepoint.afterStore first) }
  let s := s.openSubJournal
  let offset := s.nSubRec * s.config.recordSize
  let s := (s.write P (put4byte pgno) offset).write P image (offset + 4)
  { s with nSubRec := s.nSubRec + 1, records := s.records ++ [(pgno, image)] }

/-- The reads of `pager_playback_one_page` from record number `i` of a sub-journal. -/
def readRecord (i : ℕ) : (ResultCode × Bytes) × (ResultCode × Bytes) × SubJournalState :=
  let offset := i * s.config.recordSize
  let (rc, pgno, s) := s.read P 4 offset
  let (rc', image, s) := s.read P s.config.pageSize (offset + 4)
  ((rc, pgno), (rc', image), s)

/-- The last loop of `pagerPlaybackSavepoint`: the records from number `i` on, `n` of them. -/
def playback : ℕ → ℕ → SubJournalState → SubJournalState
  | 0, _, s => s
  | n + 1, i, s =>
    let ((rc, _), (rc', _), s) := s.readRecord P i
    if rc = .ok ∧ rc' = .ok then playback n (i + 1) s else s

/-- `sqlite3PagerSavepoint` with `SAVEPOINT_RELEASE`. -/
def release (iSavepoint : ℕ) : SubJournalState :=
  match s.savepoints[iSavepoint]? with
  | none => s
  | some pRel =>
    let s := { s with savepoints := s.savepoints.take iSavepoint }
    if pRel.bTruncateOnRelease then
      match s.sjfd with
      | .closed => s
      | .memory content nSpill =>
        { s with
          sjfd := .memory (content.take (s.config.recordSize * pRel.iSubRec)) nSpill
          nSubRec := pRel.iSubRec
          records := s.records.take pRel.iSubRec }
      | .file _ _ =>
        { s with nSubRec := pRel.iSubRec, records := s.records.take pRel.iSubRec }
    else s

/-- `sqlite3PagerSavepoint` with `SAVEPOINT_ROLLBACK`. -/
def rollback (iSavepoint : ℕ) : SubJournalState :=
  match s.savepoints[iSavepoint]? with
  | none => s
  | some pSavepoint =>
    playback P (s.nSubRec - pSavepoint.iSubRec) pSavepoint.iSubRec
      { s with savepoints := s.savepoints.take (iSavepoint + 1) }

/-- `releaseAllSavepoints`. -/
def releaseAllSavepoints : SubJournalState :=
  { s with
    sjfd :=
      match s.sjfd with
      | .file file shim => if s.config.exclusiveMode then .file file shim else .closed
      | _ => .closed
    nSubRec := 0
    savepoints := []
    records := [] }

end SubJournalState

/-- What happens to a sub-journal. -/
inductive SubJournalAction where
  /-- Other files are opened and closed, and random bytes are drawn elsewhere. -/
  | others (vfses : Vfses Cipher) (env : Env)
  /-- `pagerOpenSavepoint`. -/
  | openSavepoint
  /-- `subjournalPage`. -/
  | store (pgno : ℕ) (image : Bytes) (first : ℕ)
  | release (iSavepoint : ℕ)
  | rollback (iSavepoint : ℕ)
  /-- The end of the transaction. -/
  | releaseAll

/-- The state after an action. -/
def SubJournalState.after (s : SubJournalState) : SubJournalAction → SubJournalState
  | .others vfses env => { s with vfses, env }
  | .openSavepoint => { s with savepoints := s.savepoints ++ [⟨s.nSubRec, true⟩] }
  | .store pgno image first => s.subjournalPage P pgno image first
  | .release iSavepoint => s.release iSavepoint
  | .rollback iSavepoint => s.rollback P iSavepoint
  | .releaseAll => s.releaseAllSavepoints

/-- What the pager does in a state: it stores pages of its page size for a savepoint. -/
def SubJournalAction.Allowed (s : SubJournalState) : SubJournalAction → Prop
  | store pgno image first =>
    first < s.savepoints.length ∧ pgno < 2 ^ 32 ∧ image.length = s.config.pageSize
  | _ => True

/-- One step of a run. -/
def SubJournalStep (s : SubJournalState) (a : SubJournalAction) (t : SubJournalState) : Prop :=
  a.Allowed s ∧ t = s.after P a

/-- Before the first transaction. -/
structure SubJournalState.Initial (s : SubJournalState) : Prop where
  closed : s.sjfd = .closed
  nSubRec : s.nSubRec = 0
  savepoints : s.savepoints = []
  records : s.records = []

/-- **The images in the file are encrypted** with the codec and can be read back. -/
structure SubJournalEncrypted (codec : Codec Cipher) (s : SubJournalState) : Prop where
  stored : ∀ file shim, s.sjfd = .file file shim → ∀ i r, s.records[i]? = some r →
    ∃ env, slice shim.real (i * s.config.recordSize + 4) s.config.pageSize =
      (sqlite3mcCodec (builtinDescriptors P) codec r.2 r.1 .journal env).2.1
  readBack : ∀ file shim, s.sjfd = .file file shim → ∀ i r, s.records[i]? = some r →
    (s.readRecord P i).2.1 = (.ok, r.2)

end Operations

/-! ### A file without a codec -/

section Plain

variable {P : Primitives} {file : McFile Cipher} {shim : Shim Bytes}

/-- A file of a sub-journal with which no codec is associated. -/
structure McFile.PlainSubJournal (file : McFile Cipher) : Prop where
  codec : file.codec = none
  kind : file.kind = .subJournal

theorem mcIoWrite_plain (h : file.PlainSubJournal) (data : Bytes) (offset : ℕ) :
    (mcIoWrite (builtinDescriptors P) memoryFile file data offset shim).2.real =
      writeAt shim.real offset data := by
  simp only [mcIoWrite, h.kind, mcWriteSubJournal, writeJournalPage, McFile.encryptedCodec, h.codec,
    Option.filter_none, xWrite_memoryFile]

theorem mcIoRead_plain (h : file.PlainSubJournal) {count offset : ℕ}
    (hin : offset + count ≤ shim.real.length) :
    ∃ shim', mcIoRead (builtinDescriptors P) memoryFile file count offset shim =
      (.ok, slice shim.real offset count, shim') ∧ shim'.real = shim.real := by
  refine ⟨{ shim with log := shim.log ++ [.read count offset .ok] }, ?_, rfl⟩
  simp only [mcIoRead, xRead_memoryFile hin, h.kind, mcReadSubJournal, readJournalPage,
    McFile.encryptedCodec, h.codec, Option.filter_none, reduceCtorEq, if_false]

/-- A read leaves the file as it is, also where it ends early. -/
theorem mcIoRead_plain_real (h : file.PlainSubJournal) (count offset : ℕ) :
    (mcIoRead (builtinDescriptors P) memoryFile file count offset shim).2.2.real = shim.real := by
  simp only [mcIoRead, Shim.xRead, memoryFile, h.kind, mcReadSubJournal, readJournalPage,
    McFile.encryptedCodec, h.codec, Option.filter_none]
  split <;> rfl

/-- **A sub-journal has no codec**, because it is opened without a name. -/
theorem openFile_plain (s : SubJournalState) :
    ∃ file shim, s.openFile = .file file shim ∧ file.PlainSubJournal ∧ shim.real = [] :=
  ⟨_, _, rfl, ⟨rfl, rfl⟩, rfl⟩

/-- The content of a journal in memory goes to the file in its chunks. -/
theorem memjrnlFlush_real (h : file.PlainSubJournal) {content : Bytes} {nChunk : ℕ}
    (hreal : shim.real = []) {n : ℕ} (hn : (n - 1) * nChunk ≤ content.length) :
    (memjrnlFlush P file nChunk content n shim).real = content.take (n * nChunk) := by
  induction n with
  | zero => rw [memjrnlFlush, hreal, Nat.zero_mul, List.take_zero]
  | succ n ih =>
    have hle : n * nChunk ≤ content.length := by simpa using hn
    have hprev : (n - 1) * nChunk ≤ content.length :=
      le_trans (Nat.mul_le_mul_right _ (Nat.sub_le n 1)) hle
    have hlen : (content.take (n * nChunk)).length = n * nChunk := List.length_take_of_le hle
    rw [memjrnlFlush, mcIoWrite_plain h, ih hprev, Nat.succ_mul, List.take_add, writeAt, splice,
      List.take_append_of_le_length hlen.ge, List.take_of_length_le hlen.le]
    rw [List.drop_eq_nil_of_le, List.append_nil, slice]
    simp only [List.length_append, length_zeros, hlen]
    omega

/-- The number of chunks is enough for the content. -/
theorem memjrnlFlush_all (h : file.PlainSubJournal) (content : Bytes) {nChunk : ℕ}
    (hchunk : 0 < nChunk) (hreal : shim.real = []) :
    (memjrnlFlush P file nChunk content ((content.length + nChunk - 1) / nChunk) shim).real =
      content := by
  have hdiv := Nat.div_add_mod (content.length + nChunk - 1) nChunk
  have hmod := Nat.mod_lt (content.length + nChunk - 1) hchunk
  generalize hn : (content.length + nChunk - 1) / nChunk = n at hdiv
  have hle : (n - 1) * nChunk ≤ content.length := by
    rw [Nat.sub_mul, Nat.one_mul, Nat.mul_comm]
    omega
  rw [memjrnlFlush_real h hreal hle, List.take_of_length_le]
  rw [Nat.mul_comm]
  omega

end Plain

/-! ### The invariant -/

/-- The content of a sub-journal, wherever it is kept. -/
def SubJournalHandle.bytes : SubJournalHandle → Bytes
  | .closed => []
  | .memory content _ => content
  | .file _ shim => shim.real

/-- No codec is associated with the file. -/
def SubJournalHandle.Plain : SubJournalHandle → Prop
  | .closed | .memory _ _ => True
  | .file mcFile _ => mcFile.PlainSubJournal

namespace SubJournalState

variable {P : Primitives} {s : SubJournalState}

/-- **The invariant.** The sub-journal has the records the pager stored, as they are. -/
structure Inv (s : SubJournalState) : Prop where
  plain : s.sjfd.Plain
  closed : s.sjfd = .closed → s.nSubRec = 0
  /-- A journal in memory ends with the last record. -/
  memory : ∀ content nSpill, s.sjfd = .memory content nSpill →
    content.length = s.nSubRec * s.config.recordSize
  length_le : s.nSubRec * s.config.recordSize ≤ s.sjfd.bytes.length
  length_records : s.records.length = s.nSubRec
  /-- A savepoint starts no later than the next. -/
  savepoints : (s.savepoints.map PagerSavepoint.iSubRec ++ [s.nSubRec]).Pairwise (· ≤ ·)
  images : ∀ r ∈ s.records, r.2.length = s.config.pageSize
  stored : ∀ i r, s.records[i]? = some r →
    slice s.sjfd.bytes (i * s.config.recordSize) s.config.recordSize = put4byte r.1 ++ r.2

theorem Initial.inv (h : s.Initial) : s.Inv where
  plain := by rw [h.closed]; trivial
  closed := fun _ => h.nSubRec
  memory := fun content nSpill hm => by rw [h.closed] at hm; cases hm
  length_le := by rw [h.nSubRec, Nat.zero_mul]; exact Nat.zero_le _
  length_records := by rw [h.records, h.nSubRec]; rfl
  savepoints := by rw [h.savepoints]; exact List.pairwise_singleton _ _
  images := fun r hr => by rw [h.records] at hr; cases hr
  stored := fun i r hr => by rw [h.records] at hr; cases hr

/-! ### Writing -/

/-- What a write to an open sub-journal does: the bytes are there afterwards, wherever the journal
is kept then. A journal in memory is written at its end. -/
theorem write_spec (hplain : s.sjfd.Plain) (hopen : s.sjfd ≠ .closed) (data : Bytes) {offset : ℕ}
    (hend : ∀ content nSpill, s.sjfd = .memory content nSpill → content.length = offset) :
    ∃ sjfd, s.write P data offset = { s with sjfd } ∧ sjfd.Plain ∧ sjfd ≠ .closed ∧
      sjfd.bytes = writeAt s.sjfd.bytes offset data ∧
      ∀ content nSpill, sjfd = .memory content nSpill → content.length = offset + data.length := by
  rcases hs : s.sjfd with _ | ⟨content, nSpill⟩ | ⟨file, shim⟩
  · exact absurd hs hopen
  · have hlen := hend content nSpill hs
    by_cases hspill : nSpill > 0 ∧ (data.length + offset : ℤ) > nSpill
    · -- the content goes to the file, and then the data
      obtain ⟨file, shim, hfile, hp, hreal⟩ := openFile_plain s
      have hflush := memjrnlFlush_all (P := P) hp content
        (by omega : 0 < nSpill.toNat) hreal
      simp only [write, hs, hfile, if_pos hspill]
      refine ⟨_, rfl, hp, by rintro ⟨⟩, ?_, by rintro _ _ ⟨⟩⟩
      simp only [SubJournalHandle.bytes]
      rw [mcIoWrite_plain hp, hflush]
    · have hmem : s.write P data offset = { s with sjfd := .memory (content ++ data) nSpill } := by
        simp only [write, hs, if_neg hspill]
        by_cases hzero : offset = 0 ∧ content ≠ []
        · exact absurd (List.eq_nil_of_length_eq_zero (hlen.trans hzero.1)) hzero.2
        · rw [if_neg hzero, ← hlen, List.take_length]
      refine ⟨_, hmem, trivial, by rintro ⟨⟩, ?_, ?_⟩
      · simp only [SubJournalHandle.bytes, writeAt, splice]
        rw [List.take_append_of_le_length hlen.ge, List.take_of_length_le hlen.le,
          List.drop_eq_nil_of_le, List.append_nil]
        simp only [List.length_append, length_zeros]
        omega
      · rintro _ _ ⟨⟩
        rw [List.length_append, hlen]
  · refine ⟨.file file (mcIoWrite (builtinDescriptors P) memoryFile file data offset shim).2, ?_,
      ?_, by rintro ⟨⟩, ?_, by rintro _ _ ⟨⟩⟩
    · simp only [write, hs]
    · rwa [hs] at hplain
    · rw [hs] at hplain
      exact mcIoWrite_plain hplain data offset

/-- The sub-journal is open after `openSubJournal`, with the content it had. -/
theorem openSubJournal_spec {stop : ℕ} (hplain : s.sjfd.Plain)
    (hclosed : s.sjfd = .closed → stop = 0)
    (hmemory : ∀ content nSpill, s.sjfd = .memory content nSpill → content.length = stop) :
    ∃ sjfd, s.openSubJournal = { s with sjfd } ∧ sjfd.Plain ∧ sjfd ≠ .closed ∧
      sjfd.bytes = s.sjfd.bytes ∧
      ∀ content nSpill, sjfd = .memory content nSpill → content.length = stop := by
  rcases hs : s.sjfd with _ | ⟨content, nSpill⟩ | ⟨file, shim⟩
  · obtain ⟨file, shim, hfile, hp, hreal⟩ := openFile_plain s
    simp only [openSubJournal, hs]
    by_cases hzero : (if s.config.inMemory then -1 else s.config.nStmtSpill) = 0
    · rw [if_pos hzero, hfile]
      exact ⟨_, rfl, hp, by rintro ⟨⟩, hreal, by rintro _ _ ⟨⟩⟩
    · rw [if_neg hzero]
      exact ⟨_, rfl, trivial, by rintro ⟨⟩, rfl, by rintro _ _ ⟨⟩; exact (hclosed hs).symm⟩
  · exact ⟨.memory content nSpill, by simp only [openSubJournal, hs]; rw [← hs], trivial,
      by rintro ⟨⟩, rfl, by rintro _ _ ⟨⟩; exact hmemory _ _ hs⟩
  · exact ⟨.file file shim, by simp only [openSubJournal, hs]; rw [← hs], hs ▸ hplain,
      by rintro ⟨⟩, rfl, by rintro _ _ ⟨⟩⟩

/-- Two writes, one behind the other, in a file. -/
theorem slice_writeAt_writeAt (f d e : Bytes) (off : ℕ) :
    slice (writeAt (writeAt f off d) (off + d.length) e) off (d.length + e.length) = d ++ e := by
  rw [slice_add, slice_writeAt_self, slice_writeAt_of_disjoint, slice_writeAt_self]
  · rw [length_writeAt]
    omega
  · omega

/-- A range of the file before the place where it is cut off. -/
theorem slice_take {b : Bytes} {n off len : ℕ} (h : off + len ≤ n) :
    slice (b.take n) off len = slice b off len := by
  rw [slice, List.drop_take, List.take_take, min_eq_left (by omega), slice]

/-- The numbers at which the savepoints start stay in order when a record is added. -/
theorem savepoints_le_succ {starts : List ℕ} {n m : ℕ} (h : (starts ++ [n]).Pairwise (· ≤ ·))
    (hle : n ≤ m) : (starts ++ [m]).Pairwise (· ≤ ·) := by
  rw [List.pairwise_append] at h ⊢
  refine ⟨h.1, List.pairwise_singleton _ _, fun a ha b hb => ?_⟩
  have hn := h.2.2 a ha n (List.mem_singleton_self n)
  rw [List.mem_singleton.mp hb]
  omega

theorem iSubRec_afterStore (first : ℕ) (savepoints : List PagerSavepoint) :
    (savepoints.mapIdx (PagerSavepoint.afterStore first)).map PagerSavepoint.iSubRec =
      savepoints.map PagerSavepoint.iSubRec := by
  refine List.ext_getElem? fun i => ?_
  rw [List.getElem?_map, List.getElem?_mapIdx, List.getElem?_map]
  rcases savepoints[i]? with _ | savepoint
  · rfl
  · simp only [Option.map_some, PagerSavepoint.afterStore]
    split <;> rfl

/-- Storing a page keeps the invariant. -/
theorem Inv.subjournalPage (hs : s.Inv) {pgno : ℕ} {image : Bytes}
    (himage : image.length = s.config.pageSize) (first : ℕ) :
    (s.subjournalPage P pgno image first).Inv := by
  obtain ⟨savepoints, hsp⟩ : ∃ l, l = s.savepoints.mapIdx (PagerSavepoint.afterStore first) :=
    ⟨_, rfl⟩
  obtain ⟨offset, hoff⟩ : ∃ o, o = s.nSubRec * s.config.recordSize := ⟨_, rfl⟩
  have hsize : s.config.recordSize = 4 + s.config.pageSize := rfl
  have hnum : (put4byte pgno).length = 4 := length_put4byte pgno
  have hclosed : s.sjfd = .closed → offset = 0 := fun h => by rw [hoff, hs.closed h, Nat.zero_mul]
  -- the handle once the sub-journal is open, with the page number, and with the image
  obtain ⟨sjfd₀, h₀, hp₀, ho₀, hb₀, hm₀⟩ := openSubJournal_spec (s := { s with savepoints })
    hs.plain hclosed fun content nSpill h => by rw [hs.memory content nSpill h, hoff]
  obtain ⟨sjfd₁, h₁, hp₁, ho₁, hb₁, hm₁⟩ := write_spec (P := P)
    (s := { s with savepoints, sjfd := sjfd₀ }) hp₀ ho₀ (put4byte pgno) hm₀
  rw [hnum] at hm₁
  obtain ⟨sjfd₂, h₂, hp₂, ho₂, hb₂, hm₂⟩ := write_spec (P := P)
    (s := { s with savepoints, sjfd := sjfd₁ }) hp₁ ho₁ image hm₁
  have hresult : s.subjournalPage P pgno image first = { s with
      savepoints, sjfd := sjfd₂, nSubRec := s.nSubRec + 1,
      records := s.records ++ [(pgno, image)] } := by
    simp only [SubJournalState.subjournalPage, ← hsp, h₀]
    rw [← hoff, h₁, h₂]
  have hbytes : sjfd₂.bytes =
      writeAt (writeAt s.sjfd.bytes offset (put4byte pgno)) (offset + 4) image := by
    rw [hb₂, hb₁, hb₀]
  have hle : offset ≤ s.sjfd.bytes.length := hoff ▸ hs.length_le
  have hsucc : (s.nSubRec + 1) * s.config.recordSize = offset + 4 + image.length := by
    rw [Nat.succ_mul, ← hoff, hsize, himage]
    omega
  rw [hresult]
  refine ⟨hp₂, fun h => absurd h ho₂, ?_, ?_, ?_, ?_, ?_, ?_⟩
  · intro content nSpill h
    rw [hm₂ content nSpill h, hsucc]
  · show (s.nSubRec + 1) * s.config.recordSize ≤ sjfd₂.bytes.length
    rw [hbytes, length_writeAt, hsucc]
    exact le_max_right _ _
  · rw [List.length_append, hs.length_records, List.length_singleton]
  · show (savepoints.map PagerSavepoint.iSubRec ++ [s.nSubRec + 1]).Pairwise (· ≤ ·)
    rw [hsp, iSubRec_afterStore]
    exact savepoints_le_succ hs.savepoints (Nat.le_succ _)
  · intro r hr
    rcases List.mem_append.mp hr with hr | hr
    · exact hs.images r hr
    · rw [List.mem_singleton.mp hr, himage]
  · intro i r hr
    show slice sjfd₂.bytes (i * s.config.recordSize) s.config.recordSize = _
    rw [hbytes]
    rcases Nat.lt_or_ge i s.nSubRec with hi | hi
    · -- an earlier record lies before what was written
      have hrecord : (i + 1) * s.config.recordSize ≤ offset := by
        rw [hoff]
        exact Nat.mul_le_mul_right _ hi
      rw [Nat.succ_mul] at hrecord
      rw [List.getElem?_append_left (by rw [hs.length_records]; exact hi)] at hr
      rw [slice_writeAt_of_disjoint (by rw [length_writeAt]; omega) (by omega),
        slice_writeAt_of_disjoint (by omega) (by omega), hs.stored i r hr]
    · rw [List.getElem?_append_right (by rw [hs.length_records]; exact hi), hs.length_records] at hr
      obtain ⟨hi', rfl⟩ : i - s.nSubRec = 0 ∧ (pgno, image) = r := by
        rcases hk : i - s.nSubRec with _ | k
        · rw [hk] at hr
          exact ⟨rfl, by simpa using hr⟩
        · rw [hk] at hr
          simp at hr
      have hin : i = s.nSubRec := by omega
      have htwo := slice_writeAt_writeAt s.sjfd.bytes (put4byte pgno) image offset
      rw [hnum, himage] at htwo
      rw [hin, ← hoff, hsize, htwo]

/-! ### Reading -/

/-- A read of what is there. -/
theorem read_inside (hplain : s.sjfd.Plain) (hopen : s.sjfd ≠ .closed) {count offset : ℕ}
    (hin : offset + count ≤ s.sjfd.bytes.length) :
    (s.read P count offset).1 = .ok ∧
      (s.read P count offset).2.1 = slice s.sjfd.bytes offset count := by
  rcases hs : s.sjfd with _ | ⟨content, nSpill⟩ | ⟨file, shim⟩
  · exact absurd hs hopen
  · rw [hs] at hin
    have hlen : ¬ count + offset > content.length := by
      simp only [SubJournalHandle.bytes] at hin
      omega
    have hread : s.read P count offset = (.ok, slice content offset count, s) := by
      simp only [read, hs, if_neg hlen]
    rw [hread]
    exact ⟨rfl, rfl⟩
  · rw [hs] at hplain hin
    obtain ⟨shim', hread, -⟩ := mcIoRead_plain (P := P) hplain hin
    have hread' : s.read P count offset =
        (.ok, slice shim.real offset count, { s with sjfd := .file file shim' }) := by
      simp only [read, hs, hread]
    rw [hread']
    exact ⟨rfl, rfl⟩

/-- Reading leaves the state as it is, but for the remaining state of the shim. -/
theorem read_spec (hplain : s.sjfd.Plain) (count offset : ℕ) :
    ∃ sjfd, (s.read P count offset).2.2 = { s with sjfd } ∧ sjfd.Plain ∧
      sjfd.bytes = s.sjfd.bytes ∧ (sjfd = .closed ↔ s.sjfd = .closed) ∧
      ∀ content nSpill, sjfd = .memory content nSpill ↔ s.sjfd = .memory content nSpill := by
  rcases hs : s.sjfd with _ | ⟨content, nSpill⟩ | ⟨file, shim⟩
  · exact ⟨.closed, by simp only [read, hs]; rw [← hs], trivial, rfl, Iff.rfl, fun _ _ => Iff.rfl⟩
  · refine ⟨.memory content nSpill, ?_, trivial, rfl, Iff.rfl, fun _ _ => Iff.rfl⟩
    simp only [read, hs]
    split <;> rw [← hs]
  · refine ⟨.file file (mcIoRead (builtinDescriptors P) memoryFile file count offset shim).2.2, ?_,
      ?_, ?_, ?_, ?_⟩
    · simp only [read, hs]
    · rwa [hs] at hplain
    · rw [hs] at hplain
      exact mcIoRead_plain_real hplain count offset
    · exact iff_of_false (by rintro ⟨⟩) (by rintro ⟨⟩)
    · exact fun _ _ => iff_of_false (by rintro ⟨⟩) (by rintro ⟨⟩)

/-- Where a record lies, and its two parts. -/
theorem Inv.record (hs : s.Inv) {i : ℕ} {r : ℕ × Bytes} (hr : s.records[i]? = some r) :
    s.sjfd ≠ .closed ∧
      i * s.config.recordSize + 4 + s.config.pageSize ≤ s.sjfd.bytes.length ∧
      slice s.sjfd.bytes (i * s.config.recordSize) 4 = put4byte r.1 ∧
      slice s.sjfd.bytes (i * s.config.recordSize + 4) s.config.pageSize = r.2 := by
  have hi : i < s.nSubRec := by
    rw [← hs.length_records]
    exact (List.getElem?_eq_some_iff.mp hr).1
  have hsize : s.config.recordSize = 4 + s.config.pageSize := rfl
  have hend : i * s.config.recordSize + s.config.recordSize ≤ s.sjfd.bytes.length := by
    refine le_trans ?_ hs.length_le
    rw [← Nat.succ_mul]
    exact Nat.mul_le_mul_right _ hi
  have hrecord := hs.stored i r hr
  have hlen : (slice s.sjfd.bytes (i * s.config.recordSize) 4).length = (put4byte r.1).length := by
    rw [length_put4byte, length_slice_of_le (by omega)]
  rw [hsize, slice_add, ← hsize] at hrecord
  refine ⟨fun h => ?_, by omega, List.append_inj hrecord hlen⟩
  have := hs.closed h
  omega

/-- A record that the pager stored is read as it was stored. -/
theorem Inv.readRecord (hs : s.Inv) {i : ℕ} {r : ℕ × Bytes} (hr : s.records[i]? = some r) :
    (s.readRecord P i).1 = (.ok, put4byte r.1) ∧ (s.readRecord P i).2.1 = (.ok, r.2) := by
  obtain ⟨hopen, hend, hnumber, himage⟩ := hs.record hr
  obtain ⟨offset, hoff⟩ : ∃ o, o = i * s.config.recordSize := ⟨_, rfl⟩
  rw [← hoff] at hend hnumber himage
  have hin : offset + 4 ≤ s.sjfd.bytes.length := by omega
  obtain ⟨hrc, hread⟩ := read_inside (P := P) hs.plain hopen hin
  obtain ⟨sjfd, hstate, hp, hb, hc, -⟩ := read_spec (P := P) hs.plain 4 offset
  rw [← hb] at hend
  obtain ⟨hrc', hread'⟩ := read_inside (P := P) (s := { s with sjfd }) hp
    (fun h => hopen (hc.mp h)) hend
  simp only [SubJournalState.readRecord, ← hoff]
  rw [hstate]
  refine ⟨Prod.ext hrc (hread.trans hnumber), Prod.ext hrc' (hread'.trans ?_)⟩
  rw [← himage, ← hb]

/-- Reading keeps the invariant. -/
theorem Inv.read (hs : s.Inv) (count offset : ℕ) : (s.read P count offset).2.2.Inv := by
  obtain ⟨sjfd, h, hp, hb, hc, hm⟩ := read_spec (P := P) hs.plain count offset
  rw [h]
  refine ⟨hp, fun h => hs.closed (hc.mp h), fun _ _ h => hs.memory _ _ ((hm _ _).mp h), ?_,
    hs.length_records, hs.savepoints, hs.images, ?_⟩
  · show s.nSubRec * s.config.recordSize ≤ sjfd.bytes.length
    rw [hb]
    exact hs.length_le
  · intro i r hr
    show slice sjfd.bytes (i * s.config.recordSize) s.config.recordSize = _
    rw [hb]
    exact hs.stored i r hr

theorem Inv.playback (n : ℕ) : ∀ {i : ℕ} {s : SubJournalState}, s.Inv → (playback P n i s).Inv := by
  induction n with
  | zero => exact fun hs => hs
  | succ n ih =>
    intro i s hs
    have hread : (s.readRecord P i).2.2.Inv := (hs.read 4 _).read _ _
    simp only [SubJournalState.playback]
    split
    · exact ih hread
    · exact hread

/-! ### Releasing -/

/-- What a savepoint takes along, its start included, is a prefix. -/
theorem savepoints_take {savepoints : List PagerSavepoint} {n k : ℕ} {pRel : PagerSavepoint}
    (h : (savepoints.map PagerSavepoint.iSubRec ++ [n]).Pairwise (· ≤ ·))
    (hk : savepoints[k]? = some pRel) :
    pRel.iSubRec ≤ n ∧
      ((savepoints.take k).map PagerSavepoint.iSubRec ++ [pRel.iSubRec]).Pairwise (· ≤ ·) := by
  obtain ⟨hlt, rfl⟩ := List.getElem?_eq_some_iff.mp hk
  obtain ⟨hpair, -, hle⟩ := List.pairwise_append.mp h
  refine ⟨hle _ (List.mem_map_of_mem (List.getElem_mem hlt)) n (List.mem_singleton_self n), ?_⟩
  have htake : (savepoints.take k).map PagerSavepoint.iSubRec ++ [savepoints[k].iSubRec] =
      (savepoints.map PagerSavepoint.iSubRec).take (k + 1) := by
    rw [← List.map_take, List.take_succ_eq_append_getElem hlt, List.map_append]
    rfl
  rw [htake]
  exact hpair.sublist (List.take_sublist _ _)

theorem savepoints_take_of_le {savepoints : List PagerSavepoint} {n : ℕ} (k : ℕ)
    (h : (savepoints.map PagerSavepoint.iSubRec ++ [n]).Pairwise (· ≤ ·)) :
    ((savepoints.take k).map PagerSavepoint.iSubRec ++ [n]).Pairwise (· ≤ ·) :=
  h.sublist (((List.take_sublist k savepoints).map _).append_right _)

theorem Inv.takeSavepoints (hs : s.Inv) (k : ℕ) :
    ({ s with savepoints := s.savepoints.take k } : SubJournalState).Inv :=
  ⟨hs.plain, hs.closed, hs.memory, hs.length_le, hs.length_records,
    savepoints_take_of_le k hs.savepoints, hs.images, hs.stored⟩

/-- A release keeps the records before the savepoint. -/
theorem Inv.release (hs : s.Inv) (k : ℕ) : (s.release k).Inv := by
  rcases hk : s.savepoints[k]? with _ | pRel
  · simp only [SubJournalState.release, hk]
    exact hs
  · obtain ⟨hle, hpair⟩ := savepoints_take hs.savepoints hk
    have htake := hs.takeSavepoints k
    have hlen : (s.records.take pRel.iSubRec).length = pRel.iSubRec :=
      List.length_take_of_le (by rw [hs.length_records]; exact hle)
    have hmul : pRel.iSubRec * s.config.recordSize ≤ s.nSubRec * s.config.recordSize :=
      Nat.mul_le_mul_right _ hle
    have hkept : ∀ i r, (s.records.take pRel.iSubRec)[i]? = some r →
        (i + 1) * s.config.recordSize ≤ pRel.iSubRec * s.config.recordSize ∧
          s.records[i]? = some r := by
      intro i r hr
      have hi : i < pRel.iSubRec := hlen ▸ (List.getElem?_eq_some_iff.mp hr).1
      rw [List.getElem?_take_of_lt hi] at hr
      exact ⟨Nat.mul_le_mul_right _ hi, hr⟩
    by_cases htrunc : pRel.bTruncateOnRelease = true
    · rcases hj : s.sjfd with _ | ⟨content, nSpill⟩ | ⟨file, shim⟩
      · simp only [SubJournalState.release, hk, if_pos htrunc, hj]
        exact hj ▸ htake
      · have hcontent := hs.memory _ _ hj
        have hcut : (content.take (s.config.recordSize * pRel.iSubRec)).length =
            pRel.iSubRec * s.config.recordSize := by
          rw [Nat.mul_comm, List.length_take_of_le]
          omega
        simp only [SubJournalState.release, hk, if_pos htrunc, hj]
        refine ⟨trivial, by rintro ⟨⟩, by rintro _ _ ⟨⟩; exact hcut, hcut.ge, hlen, hpair,
          fun r hr => hs.images r (List.mem_of_mem_take hr), fun i r hr => ?_⟩
        obtain ⟨hi, hr'⟩ := hkept i r hr
        rw [Nat.succ_mul] at hi
        have hst := hs.stored i r hr'
        rw [hj] at hst
        rw [← hst]
        exact slice_take (hi.trans_eq (Nat.mul_comm _ _))
      · have hplain := hs.plain
        have hfile := hs.length_le
        have hst := hs.stored
        rw [hj] at hplain hfile hst
        simp only [SubJournalState.release, hk, if_pos htrunc, hj]
        exact ⟨hplain, by rintro ⟨⟩, by rintro _ _ ⟨⟩, le_trans hmul hfile, hlen, hpair,
          fun r hr => hs.images r (List.mem_of_mem_take hr),
          fun i r hr => hst i r (hkept i r hr).2⟩
    · simp only [SubJournalState.release, hk, if_neg htrunc]
      exact htake

theorem Inv.rollback (hs : s.Inv) (k : ℕ) : (s.rollback P k).Inv := by
  simp only [SubJournalState.rollback]
  rcases s.savepoints[k]? with _ | pSavepoint
  · exact hs
  · exact (hs.takeSavepoints (k + 1)).playback _

theorem Inv.releaseAllSavepoints (hs : s.Inv) : s.releaseAllSavepoints.Inv := by
  have hplain := hs.plain
  refine ⟨?_, fun _ => rfl, ?_, ?_, rfl, List.pairwise_singleton _ _, by rintro _ ⟨⟩,
    by rintro _ _ ⟨⟩⟩
  · simp only [SubJournalState.releaseAllSavepoints]
    rcases hj : s.sjfd with _ | ⟨content, nSpill⟩ | ⟨file, shim⟩
    · trivial
    · trivial
    · rw [hj] at hplain
      by_cases hex : s.config.exclusiveMode = true
      · simp only [if_pos hex]
        exact hplain
      · simp only [if_neg hex]
        trivial
  · intro content nSpill h
    simp only [SubJournalState.releaseAllSavepoints] at h
    split at h
    · split at h <;> cases h
    · cases h
  · simp only [SubJournalState.releaseAllSavepoints, Nat.zero_mul]
    exact Nat.zero_le _

end SubJournalState

/-! ### Runs -/

section Runs

variable {P : Primitives} {s t : SubJournalState}

/-- **Every step keeps the invariant.** -/
theorem subJournalStep_inv {a : SubJournalAction} (hs : s.Inv) (h : SubJournalStep P s a t) :
    t.Inv := by
  obtain ⟨hallowed, rfl⟩ := h
  cases a with
  | others vfses env =>
    exact ⟨hs.plain, hs.closed, hs.memory, hs.length_le, hs.length_records, hs.savepoints,
      hs.images, hs.stored⟩
  | openSavepoint =>
    refine ⟨hs.plain, hs.closed, hs.memory, hs.length_le, hs.length_records, ?_, hs.images,
      hs.stored⟩
    show ((s.savepoints ++ [PagerSavepoint.mk s.nSubRec true]).map PagerSavepoint.iSubRec ++
      [s.nSubRec]).Pairwise (· ≤ ·)
    rw [List.map_append, List.pairwise_append]
    refine ⟨hs.savepoints, List.pairwise_singleton _ _, fun a ha b hb => ?_⟩
    rw [List.mem_singleton.mp hb]
    rcases List.mem_append.mp ha with ha | ha
    · exact (List.pairwise_append.mp hs.savepoints).2.2 a ha _ (List.mem_singleton_self _)
    · exact (List.mem_singleton.mp ha).le
  | store pgno image first => exact hs.subjournalPage hallowed.2.2 first
  | release k => exact hs.release k
  | rollback k => exact hs.rollback k
  | releaseAll => exact hs.releaseAllSavepoints

/-- **When the images in a sub-journal file are encrypted.** In every state that any run reaches,
and for every codec: if each image in the file is its own encryption. They can be read back in any
case. -/
theorem subJournal_encrypted_iff {as : List SubJournalAction} (codec : Codec Cipher)
    (hs : s.Initial) (hrun : Transition.Run (SubJournalStep P) s as t) :
    SubJournalEncrypted P codec t ↔
      ∀ file shim, t.sjfd = .file file shim → ∀ r ∈ t.records,
        ∃ env, (sqlite3mcCodec (builtinDescriptors P) codec r.2 r.1 .journal env).2.1 = r.2 := by
  have ht : t.Inv :=
    hrun.invariant SubJournalState.Inv (fun hi hstep => subJournalStep_inv hi hstep) hs.inv
  constructor
  · intro h file shim hj r hr
    obtain ⟨i, hi⟩ := List.mem_iff_getElem?.mp hr
    obtain ⟨env, henv⟩ := h.stored file shim hj i r hi
    have himage := (ht.record hi).2.2.2
    rw [hj] at himage
    exact ⟨env, henv.symm.trans himage⟩
  · intro h
    refine ⟨fun file shim hj i r hi => ?_, fun file shim hj i r hi => (ht.readRecord hi).2⟩
    obtain ⟨env, henv⟩ := h file shim hj r (List.mem_of_getElem? hi)
    have himage := (ht.record hi).2.2.2
    rw [hj] at himage
    exact ⟨env, himage.trans henv.symm⟩

end Runs

/-! ### A savepoint over two pages -/

/-- An RC4 database between two transactions, in a process with no other database. Statement
journals grow to `nStmtSpill` bytes before they go to a file. -/
def rc4SubJournal (nStmtSpill : ℤ) : SubJournalState where
  config := ⟨0, id, 512, false, nStmtSpill, false⟩
  vfses := ⟨fun _ => true, [0], fun _ => [⟨0, some rc4Codec⟩]⟩
  env := rc4Env
  sjfd := .closed
  nSubRec := 0
  savepoints := []
  records := []

theorem rc4SubJournal_initial (nStmtSpill : ℤ) : (rc4SubJournal nStmtSpill).Initial :=
  ⟨rfl, rfl, rfl, rfl⟩

/-- A savepoint for which a page of zeros is stored. -/
theorem rc4SubJournal_run (nStmtSpill : ℤ) :
    Transition.Run (SubJournalStep nullPrimitives) (rc4SubJournal nStmtSpill)
      [.openSavepoint, .store 2 (zeros 512) 0]
      (((rc4SubJournal nStmtSpill).after nullPrimitives .openSavepoint).after nullPrimitives
        (.store 2 (zeros 512) 0)) :=
  .cons ⟨trivial, rfl⟩ (.cons ⟨⟨Nat.one_pos, by decide, length_zeros 512⟩, rfl⟩ (.nil _))

set_option maxRecDepth 10000 in
/-- As long as the sub-journal is in memory there is nothing in a file. -/
theorem subJournal_encrypted_memory :
    SubJournalEncrypted nullPrimitives rc4Codec
      (((rc4SubJournal 65536).after nullPrimitives .openSavepoint).after nullPrimitives
        (.store 2 (zeros 512) 0)) :=
  (subJournal_encrypted_iff rc4Codec (rc4SubJournal_initial 65536)
    (rc4SubJournal_run 65536)).mpr fun _ _ h => by cases h

set_option maxRecDepth 10000 in
/-- **A page in plaintext.** With a limit of zero the sub-journal is a file from the start, and the
image of a page of an RC4 database is there as it was handed over. -/
theorem subJournal_plaintext :
    ¬ ∀ (P : Primitives) (codec : Codec Cipher) (s t : SubJournalState)
      (as : List SubJournalAction), s.Initial → codec.isEncrypted = true →
      (∃ name, (mcFindDbMainFileName s.vfses s.config.vfs name).bind MainFile.codec = some codec) →
      Transition.Run (SubJournalStep P) s as t → SubJournalEncrypted P codec t := by
  intro h
  have hrun := rc4SubJournal_run 0
  obtain ⟨env, henv⟩ := (h nullPrimitives rc4Codec _ _ _ (rc4SubJournal_initial 0) rfl ⟨0, rfl⟩
    hrun).stored _ _ rfl 0 (2, zeros 512) rfl
  have hinv := hrun.invariant SubJournalState.Inv
    (fun hi hstep => subJournalStep_inv hi hstep) (rc4SubJournal_initial 0).inv
  have himage : zeros 512 = sqlite3mcRC4 (zeros 16) (zeros 512) :=
    (hinv.record (r := (2, zeros 512)) (i := 0) rfl).2.2.2.symm.trans henv
  apply rc4_zeros
  rw [← himage]
  rfl

end MultipleCiphers
