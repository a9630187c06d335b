import MultipleCiphers.Ciphers.Builtin
import MultipleCiphers.Vfs.File

/-!
# Which read errors the shim reports

A read request does an outer read of the underlying file and then, depending on the kind of the
file, some *later steps*: a read of the whole page behind a partial request, a read of the page
number in a WAL frame header, decryptions. `laterCodes` lists the result codes of these steps, in
order and without running the shim.

The return code of the request is the code of the last later step. Whatever failed before that
step and did not end the request at once is forgotten. The one code that does end a request at
once is the short read.

## Main results

* `mcIoRead_steps` — return code and log of a request in terms of `laterCodes`.
* `mcIoRead_reports_iff` — exactly when a request that returns `SQLITE_OK` did nothing that failed.
* `mcIoRead_hides_failed_read` — an I/O error on a whole page read as success.
-/

namespace MultipleCiphers

open Bytes

/-- A request reports its errors: it returns `SQLITE_OK` only if everything it did succeeded. -/
def ReportsErrors {φ : Type} (result : ResultCode × Bytes × Shim φ) : Prop :=
  result.1 = .ok → ∀ e ∈ result.2.2.log, e.rc = .ok

/-- The code of the last of several steps, `SQLITE_OK` if there is none. -/
def lastCode (codes : List ResultCode) : ResultCode := codes.getLast?.getD .ok

section Codes

variable {σ φ : Type} (D : ℕ → CipherDescriptor σ) (R : RealFile φ)

/-- The code with which an encrypted codec decrypts a page. -/
def loadCode (codec : Codec σ) (page : ℕ) (data : Bytes) : ResultCode :=
  if codec.hasReadCipher then (sqlite3mcDecrypt D codec page data).1 else .ok

/-- The codes of the page loop of `mcReadMainDb`. -/
def pageCodes (codec : Codec σ) (pageSize : ℕ) : ℕ → ℕ → Bytes → List ResultCode
  | 0, _, _ => []
  | nPages + 1, pageNo, data =>
    loadCode D codec pageNo (data.take pageSize) ::
      pageCodes codec pageSize nPages (pageNo + 1) (data.drop pageSize)

/-- The codes of what follows the outer read of a main database file. -/
def mainDbCodes (file : McFile σ) (buffer : Bytes) (count offset : ℕ) (real : φ) :
    List ResultCode :=
  if offset = 0 ∧ count = 16 then []
  else
    match file.encryptedCodec with
    | some codec =>
      let deltaOffset := offset % file.pageSize
      if deltaOffset ≠ 0 ∨ count % file.pageSize ≠ 0 then
        let (rc, pageBuffer, _) := R.xRead real file.pageSize (offset - deltaOffset : ℕ)
        if rc = .ioerrShortRead then [rc]
        else [rc, loadCode D codec ((offset - deltaOffset) / file.pageSize + 1) pageBuffer]
      else pageCodes D codec file.pageSize (count / file.pageSize)
        (offset / file.pageSize + 1) buffer
    | none => []

/-- The codes of what follows the outer read of a journal file. -/
def journalCodes (file : McFile σ) (buffer : Bytes) (count pageNo : ℕ) : List ResultCode :=
  match file.encryptedCodec with
  | some codec =>
    if count = file.pageSize ∧ pageNo ≠ 0 then [loadCode D codec pageNo buffer] else []
  | none => []

/-- The codes of what follows the outer read of a WAL file. -/
def walCodes (file : McFile σ) (buffer : Bytes) (count offset : ℕ) (real : φ) : List ResultCode :=
  match file.encryptedCodec with
  | some codec =>
    if count = file.pageSize then
      let (rc, ac, _) := R.xRead real 4 ((offset : ℤ) - walFrameHeaderSize)
      if rc = .ok ∧ get4byte ac ≠ 0 then [rc, loadCode D codec (get4byte ac) buffer] else [rc]
    else if codec.walLegacy ≠ 0 ∧ count = file.pageSize + walFrameHeaderSize ∧
        get4byte buffer ≠ 0 then
      [loadCode D codec (get4byte buffer) (buffer.drop walFrameHeaderSize)]
    else []
  | none => []

/-- The codes of what follows the outer read of a file, `buffer` being what that read delivered
and `real` the state it left. -/
def laterCodes (file : McFile σ) (buffer : Bytes) (count offset pageNo : ℕ) (real : φ) :
    List ResultCode :=
  match file.kind with
  | .mainDb => mainDbCodes D R file buffer count offset real
  | .mainJournal | .subJournal => journalCodes D file buffer count pageNo
  | .wal => walCodes D R file buffer count offset real
  | .other => []

end Codes

section Handlers

variable {σ φ : Type} {D : ℕ → CipherDescriptor σ} {R : RealFile φ}

theorem encryptedCodec_isEncrypted {file : McFile σ} {codec : Codec σ}
    (h : file.encryptedCodec = some codec) : codec.isEncrypted = true := by
  have := Option.filter_eq_some_iff.mp h
  exact this.2

/-- A load leaves everything but the log as it is, and its code is `loadCode`. -/
theorem runCodec_load {codec : Codec σ} (henc : codec.isEncrypted = true) (s : Shim φ)
    (data : Bytes) (page : ℕ) :
    (s.runCodec D codec data page .load).1 = loadCode D codec page data ∧
      (s.runCodec D codec data page .load).2.2 =
        { s with log := s.log ++ [.codec page .load (loadCode D codec page data)] } := by
  unfold Shim.runCodec sqlite3mcCodec loadCode
  by_cases h : codec.hasReadCipher <;> simp [henc, h]

/-- What is proved of each handler: its return code is that of its last step, and the codes it
logs are those of its steps. -/
def StepsAre (codes : List ResultCode) (s : Shim φ) (result : ResultCode × Bytes × Shim φ) : Prop :=
  result.1 = lastCode codes ∧
    result.2.2.log.map ShimEvent.rc = s.log.map ShimEvent.rc ++ codes

theorem StepsAre.nil (buffer : Bytes) {s s' : Shim φ} (h : s'.log = s.log) :
    StepsAre [] s (.ok, buffer, s') := by
  constructor
  · rfl
  · simp [h]

/-- The page loop. The return code it starts with survives only if there is no page. -/
theorem mcReadPages_steps {codec : Codec σ} (henc : codec.isEncrypted = true) (pageSize : ℕ) :
    ∀ (nPages pageNo : ℕ) (data : Bytes) (rc : ResultCode) (s : Shim φ),
      (mcReadPages D codec pageSize nPages pageNo data rc s).1 =
          (pageCodes D codec pageSize nPages pageNo data).getLast?.getD rc ∧
        (mcReadPages D codec pageSize nPages pageNo data rc s).2.2.log.map ShimEvent.rc =
          s.log.map ShimEvent.rc ++ pageCodes D codec pageSize nPages pageNo data := by
  intro nPages
  induction nPages with
  | zero =>
    intro pageNo data rc s
    simp [mcReadPages, pageCodes]
  | succ nPages ih =>
    intro pageNo data rc s
    obtain ⟨hrc, hs⟩ := runCodec_load (D := D) henc s (data.take pageSize) pageNo
    obtain ⟨ih₁, ih₂⟩ := ih (pageNo + 1) (data.drop pageSize)
      (s.runCodec D codec (data.take pageSize) pageNo .load).1
      (s.runCodec D codec (data.take pageSize) pageNo .load).2.2
    refine ⟨?_, ?_⟩
    · simp only [mcReadPages, pageCodes]
      rw [ih₁, hrc, List.getLast?_cons, Option.getD_some]
    · simp only [mcReadPages, pageCodes]
      rw [ih₂, hs]
      simp [ShimEvent.rc]

theorem mcReadMainDb_steps (file : McFile σ) (buffer : Bytes) (count offset : ℕ) (s : Shim φ) :
    StepsAre (mainDbCodes D R file buffer count offset s.real) s
      (mcReadMainDb D R file buffer count offset s) := by
  unfold mcReadMainDb mainDbCodes
  by_cases hsalt : offset = 0 ∧ count = 16
  · rw [if_pos hsalt, if_pos hsalt]
    exact StepsAre.nil buffer rfl
  rw [if_neg hsalt, if_neg hsalt]
  cases hcodec : file.encryptedCodec with
  | none => exact StepsAre.nil buffer rfl
  | some codec =>
    have henc := encryptedCodec_isEncrypted hcodec
    dsimp only
    by_cases hpart : offset % file.pageSize ≠ 0 ∨ count % file.pageSize ≠ 0
    · rw [if_pos hpart, if_pos hpart]
      set x := s.xRead R file.pageSize (offset - offset % file.pageSize : ℕ) with hx
      have hx₁ : (R.xRead s.real file.pageSize (offset - offset % file.pageSize : ℕ)).1 = x.1 := rfl
      have hx₂ : (R.xRead s.real file.pageSize (offset - offset % file.pageSize : ℕ)).2.1 = x.2.1 :=
        rfl
      have hlog : x.2.2.log.map ShimEvent.rc = s.log.map ShimEvent.rc ++ [x.1] := by
        simp [hx, Shim.xRead, ShimEvent.rc]
      rw [hx₁, hx₂]
      by_cases hshort : x.1 = .ioerrShortRead
      · rw [if_pos hshort, if_pos hshort]
        exact ⟨rfl, hlog⟩
      · rw [if_neg hshort, if_neg hshort]
        obtain ⟨hrc, hs⟩ := runCodec_load (D := D) henc x.2.2 x.2.1
          ((offset - offset % file.pageSize) / file.pageSize + 1)
        refine ⟨hrc, ?_⟩
        dsimp only
        rw [hs]
        simp [hlog, ShimEvent.rc]
    · rw [if_neg hpart, if_neg hpart]
      exact mcReadPages_steps henc file.pageSize (count / file.pageSize)
        (offset / file.pageSize + 1) buffer .ok s

theorem readJournalPage_steps (forget : Bool) (file : McFile σ) (buffer : Bytes) (count : ℕ)
    (s : Shim φ) :
    StepsAre (journalCodes D file buffer count s.pageNo) s
      (readJournalPage D forget file buffer count s) := by
  unfold readJournalPage journalCodes
  cases hcodec : file.encryptedCodec with
  | none => exact StepsAre.nil buffer rfl
  | some codec =>
    dsimp only
    by_cases hpage : count = file.pageSize ∧ s.pageNo ≠ 0
    · rw [if_pos hpage, if_pos hpage]
      obtain ⟨hrc, hs⟩ :=
        runCodec_load (D := D) (encryptedCodec_isEncrypted hcodec) s buffer s.pageNo
      refine ⟨hrc, ?_⟩
      cases forget <;> simp [hs, ShimEvent.rc]
    · rw [if_neg hpage, if_neg hpage]
      by_cases hnum : count = 4
      · rw [if_pos hnum]
        exact StepsAre.nil buffer rfl
      · rw [if_neg hnum]
        exact StepsAre.nil buffer rfl

theorem mcReadWal_steps (file : McFile σ) (buffer : Bytes) (count offset : ℕ) (s : Shim φ) :
    StepsAre (walCodes D R file buffer count offset s.real) s
      (mcReadWal D R file buffer count offset s) := by
  unfold mcReadWal walCodes
  cases hcodec : file.encryptedCodec with
  | none => exact StepsAre.nil buffer rfl
  | some codec =>
    have henc := encryptedCodec_isEncrypted hcodec
    dsimp only
    by_cases hpage : count = file.pageSize
    · rw [if_pos hpage, if_pos hpage]
      set x := s.xRead R 4 ((offset : ℤ) - walFrameHeaderSize) with hx
      have hx₁ : (R.xRead s.real 4 ((offset : ℤ) - walFrameHeaderSize)).1 = x.1 := rfl
      have hx₂ : (R.xRead s.real 4 ((offset : ℤ) - walFrameHeaderSize)).2.1 = x.2.1 := rfl
      have hlog : x.2.2.log.map ShimEvent.rc = s.log.map ShimEvent.rc ++ [x.1] := by
        simp [hx, Shim.xRead, ShimEvent.rc]
      rw [hx₁, hx₂]
      by_cases hno : x.1 = .ok ∧ get4byte x.2.1 ≠ 0
      · obtain ⟨hrc, hs⟩ := runCodec_load (D := D) henc x.2.2 buffer (get4byte x.2.1)
        rw [if_pos hno, if_pos (by rw [if_pos hno.1]; exact hno.2), if_pos hno.1]
        refine ⟨hrc, ?_⟩
        rw [hs]
        simp [hlog, ShimEvent.rc]
      · have hz : (if x.1 = .ok then get4byte x.2.1 else 0) = 0 := by
          split_ifs with hok
          · by_contra hne
            exact hno ⟨hok, hne⟩
          · rfl
        rw [if_neg hno, if_neg (by rw [hz]; simp)]
        exact ⟨rfl, hlog⟩
    · rw [if_neg hpage, if_neg hpage]
      by_cases hframe : codec.walLegacy ≠ 0 ∧ count = file.pageSize + walFrameHeaderSize
      · rw [if_pos hframe]
        by_cases hno : get4byte buffer ≠ 0
        · obtain ⟨hrc, hs⟩ := runCodec_load (D := D) henc s (buffer.drop walFrameHeaderSize)
            (get4byte buffer)
          rw [if_pos hno, if_pos ⟨hframe.1, hframe.2, hno⟩]
          refine ⟨hrc, ?_⟩
          dsimp only
          rw [hs]
          simp [ShimEvent.rc]
        · rw [if_neg hno, if_neg (fun h => hno h.2.2)]
          exact StepsAre.nil buffer rfl
      · rw [if_neg hframe, if_neg (fun h => hframe ⟨h.1, h.2.1⟩)]
        exact StepsAre.nil buffer rfl

end Handlers

section Requests

variable {σ φ : Type} {D : ℕ → CipherDescriptor σ} {R : RealFile φ}

/-- A request whose outer read is not cut short, on a file of a kind with a handler. -/
theorem mcIoRead_steps {file : McFile σ} (hkind : file.kind ≠ .other) (count offset : ℕ)
    {s : Shim φ} (hshort : (R.xRead s.real count offset).1 ≠ .ioerrShortRead) :
    StepsAre (laterCodes D R file (R.xRead s.real count offset).2.1 count offset s.pageNo
        (R.xRead s.real count offset).2.2) (s.xRead R count offset).2.2
      (mcIoRead D R file count offset s) := by
  have hshort' : ¬ (s.xRead R count offset).1 = .ioerrShortRead := hshort
  unfold mcIoRead laterCodes
  dsimp only
  rw [if_neg hshort']
  cases hk : file.kind with
  | mainDb => exact mcReadMainDb_steps file _ count offset _
  | mainJournal => exact readJournalPage_steps true file _ count _
  | subJournal => exact readJournalPage_steps false file _ count _
  | wal => exact mcReadWal_steps file _ count offset _
  | other => exact absurd hk hkind

/-- The condition under which a request reports its errors: the outer read was cut short, or the
file is of a kind without a handler, or the last later step fails, or nothing fails. -/
def NothingHidden (D : ℕ → CipherDescriptor σ) (R : RealFile φ) (file : McFile σ)
    (count offset pageNo : ℕ) (real : φ) : Prop :=
  let (rc, buffer, real) := R.xRead real count offset
  let later := laterCodes D R file buffer count offset pageNo real
  rc = .ioerrShortRead ∨ file.kind = .other ∨ lastCode later ≠ .ok ∨
    (rc = .ok ∧ ∀ c ∈ later, c = .ok)

/-- **When a read request reports its errors.** For every kind of file, codec, offset, count and
behaviour of the underlying file, a request that returns `SQLITE_OK` did nothing that failed if
and only if `NothingHidden`. -/
theorem mcIoRead_reports_iff (file : McFile σ) (count offset pageNo : ℕ) (real : φ) (env : Env) :
    ReportsErrors (mcIoRead D R file count offset ⟨real, env, pageNo, []⟩) ↔
      NothingHidden D R file count offset pageNo real := by
  set s : Shim φ := ⟨real, env, pageNo, []⟩ with hs
  have hlog : (s.xRead R count offset).2.2.log.map ShimEvent.rc =
      [(R.xRead real count offset).1] := by
    simp [hs, Shim.xRead, ShimEvent.rc]
  unfold ReportsErrors NothingHidden
  dsimp only
  by_cases hshort : (R.xRead real count offset).1 = .ioerrShortRead
  · have hres : (mcIoRead D R file count offset s).1 = .ioerrShortRead := by
      have h' : (s.xRead R count offset).1 = .ioerrShortRead := hshort
      simp [mcIoRead, h']
    simp [hres, hshort]
  by_cases hkind : file.kind = .other
  · have hshort' : ¬ (s.xRead R count offset).1 = .ioerrShortRead := hshort
    have hres : mcIoRead D R file count offset s = s.xRead R count offset := by
      simp [mcIoRead, hshort', hkind]
    refine ⟨fun _ => Or.inr (Or.inl hkind), fun _ => ?_⟩
    rw [hres]
    intro hok e he
    have hmem : e.rc ∈ (s.xRead R count offset).2.2.log.map ShimEvent.rc :=
      List.mem_map_of_mem he
    rw [hlog, List.mem_singleton] at hmem
    rw [hmem]
    exact hok
  · obtain ⟨hcode, hcodes⟩ := mcIoRead_steps (D := D) hkind count offset (s := s) hshort
    rw [hlog] at hcodes
    have hall : (∀ e ∈ (mcIoRead D R file count offset s).2.2.log, e.rc = .ok) ↔
        ∀ c ∈ (mcIoRead D R file count offset s).2.2.log.map ShimEvent.rc, c = .ok := by
      simp
    rw [hall, hcode, hcodes]
    set later := laterCodes D R file (R.xRead real count offset).2.1 count offset pageNo
      (R.xRead real count offset).2.2
    constructor
    · intro h
      by_cases hlast : lastCode later = .ok
      · have := h hlast
        exact Or.inr (Or.inr (Or.inr ⟨this _ (by simp), fun c hc => this c (by simp [hc])⟩))
      · exact Or.inr (Or.inr (Or.inl hlast))
    · rintro (h | h | h | ⟨h, hl⟩) hlast c hc
      · exact absurd h hshort
      · exact absurd h hkind
      · exact absurd hlast h
      · rcases List.mem_append.mp hc with hc | hc
        · rw [List.mem_singleton.mp hc]
          exact h
        · exact hl c hc

end Requests

/-! ### A failed read that reads as success -/

/-- A file whose every read fails with `SQLITE_IOERR`. -/
def failingFile : RealFile Unit where
  xRead := fun _ amt _ => (.ioerr, zeros amt, ())
  length_xRead := fun _ _ _ => length_zeros _
  xWrite := fun _ _ _ => (.ok, ())

/-- A connection with no pending configuration that never runs out of anything. -/
def plainEnv : Env where
  codecParams := []
  cipherNames := builtinCipherNames
  malloc := fun _ => true
  random := fun _ => 0
  argon2 := fun _ => .enough

/-- A main database file encrypted with RC4, with pages of `512` bytes. -/
def rc4DbFile : McFile Cipher where
  kind := .mainDb
  codec := some { (sqlite3mcCodecInit : Codec Cipher) with
    isEncrypted := true
    hasReadCipher := true
    readCipherType := 5
    readCipher := some (.rc4 ⟨1, 0, zeros 16⟩)
    hasWriteCipher := true
    writeCipherType := 5
    writeCipher := some (.rc4 ⟨1, 0, zeros 16⟩) }
  pageSize := 512

/-- **A failed read of a whole page is reported as success.** The page is encrypted with RC4, the
underlying read fails with `SQLITE_IOERR`, and the request returns `SQLITE_OK`, whatever the
primitives. -/
theorem mcIoRead_hides_failed_read :
    ¬ ∃ P : Primitives, ReportsErrors
      (mcIoRead (builtinDescriptors P) failingFile rc4DbFile 512 0 ⟨(), plainEnv, 0, []⟩) := by
  rintro ⟨P, h⟩
  have hok : (mcIoRead (builtinDescriptors P) failingFile rc4DbFile 512 0
      ⟨(), plainEnv, 0, []⟩).1 = .ok := rfl
  have hread : ShimEvent.read 512 0 .ioerr ∈
      (mcIoRead (builtinDescriptors P) failingFile rc4DbFile 512 0
        ⟨(), plainEnv, 0, []⟩).2.2.log := List.mem_cons_self
  have hbad := h hok _ hread
  cases hbad

end MultipleCiphers
