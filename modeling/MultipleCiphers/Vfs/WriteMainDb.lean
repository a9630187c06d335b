import MultipleCiphers.Vfs.ReadErrors

/-!
# What reaches an encrypted main database file

A write request for whole pages is a loop: each page is copied into the codec's buffer, encrypted
there, and the buffer is handed to the underlying file. The loop looks neither at the outcome of
the encryption nor, until the last page, at the outcome of the write. So a page the cipher refuses
is written as it is, in plaintext, and an I/O error on any page but the last is lost.

## Main results

* `mcWritePages_spec` — the loop in terms of `pageWrites`, the list of what it does per page.
* `mcWriteMainDb_safe_iff` — a request writes ciphertext only and reports every failure exactly if
  the reserved bytes fit the write cipher and no write fails unless the last one does.
* `mcWriteMainDb_writes_plaintext` — a refused page reaches the file in plaintext.
-/

namespace MultipleCiphers

open Bytes

/-- What the page loop of `mcWriteMainDb` does with one page. -/
structure PageWrite where
  page : ℕ
  offset : ℕ
  /-- The outcome of the encryption. -/
  code : ResultCode
  /-- The bytes handed to `xWrite`. -/
  out : Bytes
  /-- The outcome of the write. -/
  rc : ResultCode

/-- The events of one page. -/
def PageWrite.events (p : PageWrite) : List ShimEvent :=
  [.codec p.page .database p.code, .write p.out p.offset p.rc]

section Loop

variable {σ φ : Type} (D : ℕ → CipherDescriptor σ) (R : RealFile φ)

/-- What the page loop does, page by page. -/
def pageWrites (codec : Codec σ) (pageSize : ℕ) :
    ℕ → ℕ → Bytes → ℕ → Env → φ → List PageWrite
  | 0, _, _, _, _, _ => []
  | nPages + 1, pageNo, data, offset, env, real =>
    let (code, out, env) := sqlite3mcCodec D codec (data.take pageSize) pageNo .database env
    let (rc, real) := R.xWrite real out offset
    ⟨pageNo, offset, code, out, rc⟩ ::
      pageWrites codec pageSize nPages (pageNo + 1) (data.drop pageSize)
        (offset + pageSize) env real

/-- The outcomes of the writes of a request for whole pages, in order. -/
def writeCodes (file : McFile σ) (codec : Codec σ) (buffer : Bytes) (offset : ℕ) (env : Env)
    (real : φ) : List ResultCode :=
  (pageWrites D R codec file.pageSize (buffer.length / file.pageSize)
    (offset / file.pageSize + 1) buffer offset env real).map PageWrite.rc

variable {D R}

/-- The loop: its return code is that of the last write, its log is what it does page by page. -/
theorem mcWritePages_spec (codec : Codec σ) (pageSize : ℕ) :
    ∀ (nPages pageNo : ℕ) (data : Bytes) (offset : ℕ) (rc : ResultCode) (s : Shim φ),
      (mcWritePages D R codec pageSize nPages pageNo data offset rc s).1 =
          ((pageWrites D R codec pageSize nPages pageNo data offset s.env s.real).map
            PageWrite.rc).getLast?.getD rc ∧
        (mcWritePages D R codec pageSize nPages pageNo data offset rc s).2.log =
          s.log ++ (pageWrites D R codec pageSize nPages pageNo data offset s.env s.real).flatMap
            PageWrite.events := by
  intro nPages
  induction nPages with
  | zero =>
    intro pageNo data offset rc s
    simp [mcWritePages, pageWrites]
  | succ nPages ih =>
    intro pageNo data offset rc s
    obtain ⟨ih₁, ih₂⟩ := ih (pageNo + 1) (data.drop pageSize) (offset + pageSize)
      ((s.runCodec D codec (data.take pageSize) pageNo .database).2.2.xWrite R
        (s.runCodec D codec (data.take pageSize) pageNo .database).2.1 offset).1
      ((s.runCodec D codec (data.take pageSize) pageNo .database).2.2.xWrite R
        (s.runCodec D codec (data.take pageSize) pageNo .database).2.1 offset).2
    constructor
    · simp only [mcWritePages, pageWrites, List.map_cons]
      rw [ih₁, List.getLast?_cons, Option.getD_some]
      rfl
    · simp only [mcWritePages, pageWrites, List.flatMap_cons]
      rw [ih₂]
      simp [Shim.runCodec, Shim.xWrite, PageWrite.events]

/-- Each entry is the encryption of the page it is about. -/
theorem mem_pageWrites {codec : Codec σ} {w : σ} (henc : codec.isEncrypted = true)
    (hhas : codec.hasWriteCipher = true) (hw : codec.writeCipher = some w) {pageSize : ℕ} :
    ∀ {nPages pageNo : ℕ} {data : Bytes} {offset : ℕ} {env : Env} {real : φ} {p : PageWrite},
      p ∈ pageWrites D R codec pageSize nPages pageNo data offset env real →
      ∃ i < nPages, p.offset = offset + i * pageSize ∧ ∃ env env',
        (D codec.writeCipherType).encryptPage w (pageNo + i) (slice data (i * pageSize) pageSize)
          codec.writeReservedBytes env = (p.code, p.out, env') := by
  intro nPages
  induction nPages with
  | zero => intro pageNo data offset env real p hp; simp [pageWrites] at hp
  | succ nPages ih =>
    intro pageNo data offset env real p hp
    rcases hx : (D codec.writeCipherType).encryptPage w pageNo (data.take pageSize)
      codec.writeReservedBytes env with ⟨code, out, env₁⟩
    simp only [pageWrites, sqlite3mcCodec_database henc hhas hw, hx, List.mem_cons] at hp
    rcases hp with rfl | hp
    · have hslice : slice data (0 * pageSize) pageSize = data.take pageSize := by simp [slice]
      exact ⟨0, Nat.succ_pos _, by simp, env, env₁, by rw [Nat.add_zero, hslice, hx]⟩
    · obtain ⟨i, hi, hoff, e, e', heq⟩ := ih hp
      refine ⟨i + 1, Nat.succ_lt_succ hi, by rw [hoff]; ring, e, e', ?_⟩
      have hpage : pageNo + (i + 1) = pageNo + 1 + i := by ring
      have hslice : slice data ((i + 1) * pageSize) pageSize =
          slice (data.drop pageSize) (i * pageSize) pageSize := by
        rw [slice, slice, List.drop_drop, Nat.succ_mul, Nat.add_comm pageSize]
      rw [hpage, hslice, heq]

end Loop

section Request

variable {φ : Type} {P : Primitives} {R : RealFile φ}

/-- A request for whole pages is safe: whatever it writes is a successful encryption, under the
write cipher `w`, of the page whose place it is written to; and it returns an error if an
encryption or a write fails. -/
def WritesSafely (P : Primitives) (codec : Codec Cipher) (w : Cipher) (pageSize : ℕ)
    (buffer : Bytes) (offset : ℕ) (result : ResultCode × Shim φ) : Prop :=
  (∀ out ofst rc, ShimEvent.write out ofst rc ∈ result.2.log →
    ∃ i < buffer.length / pageSize, ofst = (offset + i * pageSize : ℕ) ∧ ∃ env env',
      (builtinDescriptors P codec.writeCipherType).encryptPage w (offset / pageSize + 1 + i)
        (slice buffer (i * pageSize) pageSize) codec.writeReservedBytes env = (.ok, out, env')) ∧
  ∀ e ∈ result.2.log, e.rc ≠ .ok → result.1 ≠ .ok

/-- A request for whole pages of an encrypted file goes through the page loop. -/
theorem mcWriteMainDb_wholePages {file : McFile Cipher} {codec : Codec Cipher}
    (hfile : file.codec = some codec) (henc : codec.isEncrypted = true) {buffer : Bytes}
    {offset : ℕ} (hoff : offset % file.pageSize = 0) (hlen : buffer.length % file.pageSize = 0)
    (s : Shim φ) :
    mcWriteMainDb (builtinDescriptors P) R file buffer offset s =
      mcWritePages (builtinDescriptors P) R codec file.pageSize (buffer.length / file.pageSize)
        (offset / file.pageSize + 1) buffer offset .ok s := by
  have hcodec : file.encryptedCodec = some codec := by
    simp [McFile.encryptedCodec, hfile, henc]
  simp [mcWriteMainDb, hcodec, hoff, hlen]

/-- **When a write request is safe.** For every built-in cipher, every contents and every
behaviour of the underlying file, a request of one or more whole pages writes ciphertext only and
reports every failure if and only if the reserved bytes fit the write cipher, and no write fails
unless the last one does. -/
theorem mcWriteMainDb_safe_iff (file : McFile Cipher) (codec : Codec Cipher) (w : Cipher)
    (buffer : Bytes) (offset : ℕ) (real : φ) (env : Env) (pageNo : ℕ)
    (hfile : file.codec = some codec) (henc : codec.isEncrypted = true)
    (hhas : codec.hasWriteCipher = true) (hw : codec.writeCipher = some w)
    (hoff : offset % file.pageSize = 0) (hlen : buffer.length % file.pageSize = 0)
    (hpages : 0 < buffer.length / file.pageSize) :
    WritesSafely P codec w file.pageSize buffer offset
        (mcWriteMainDb (builtinDescriptors P) R file buffer offset ⟨real, env, pageNo, []⟩) ↔
      w.fits codec.writeReservedBytes = true ∧
        ((∃ c ∈ writeCodes (builtinDescriptors P) R file codec buffer offset env real, c ≠ .ok) →
          lastCode
            (writeCodes (builtinDescriptors P) R file codec buffer offset env real) ≠ .ok) := by
  rw [mcWriteMainDb_wholePages hfile henc hoff hlen, writeCodes]
  set nPages := buffer.length / file.pageSize with hn
  obtain ⟨hrc, hlog⟩ := mcWritePages_spec (D := builtinDescriptors P) (R := R) codec file.pageSize
    nPages (offset / file.pageSize + 1) buffer offset .ok ⟨real, env, pageNo, []⟩
  set writes := pageWrites (builtinDescriptors P) R codec file.pageSize nPages
    (offset / file.pageSize + 1) buffer offset env real with hwrites
  have hmem : ∀ p ∈ writes, ∃ i < nPages, p.offset = offset + i * file.pageSize ∧ ∃ env env',
      (builtinDescriptors P codec.writeCipherType).encryptPage w (offset / file.pageSize + 1 + i)
        (slice buffer (i * file.pageSize) file.pageSize) codec.writeReservedBytes env
        = (p.code, p.out, env') := fun p hp => mem_pageWrites henc hhas hw hp
  unfold WritesSafely
  rw [hrc, hlog, List.nil_append]
  constructor
  · rintro ⟨hsafe, herr⟩
    constructor
    · -- the first page is written, so its encryption succeeded
      obtain ⟨m, hm⟩ : ∃ m, nPages = m + 1 := ⟨nPages - 1, by omega⟩
      obtain ⟨p, hp⟩ : ∃ p, p ∈ writes := by
        rw [hwrites, hm, pageWrites]
        exact ⟨_, List.mem_cons_self⟩
      obtain ⟨i, -, -, e, e', heq⟩ := hsafe p.out p.offset p.rc
        (List.mem_flatMap.mpr ⟨p, hp, by simp [PageWrite.events]⟩)
      have hcode := encryptPage_code (P := P) codec.writeCipherType w
          (offset / file.pageSize + 1 + i)
        (slice buffer (i * file.pageSize) file.pageSize) codec.writeReservedBytes e
      rw [heq] at hcode
      by_contra hfit
      rw [if_neg hfit] at hcode
      cases hcode
    · rintro ⟨c, hc, hbad⟩
      obtain ⟨p, hp, rfl⟩ := List.mem_map.mp hc
      exact herr (.write p.out p.offset p.rc)
        (List.mem_flatMap.mpr ⟨p, hp, by simp [PageWrite.events]⟩) hbad
  · rintro ⟨hfit, hlast⟩
    have hok : ∀ p ∈ writes, p.code = .ok := by
      intro p hp
      obtain ⟨i, -, -, e, e', heq⟩ := hmem p hp
      have hcode := encryptPage_code (P := P) codec.writeCipherType w
          (offset / file.pageSize + 1 + i)
        (slice buffer (i * file.pageSize) file.pageSize) codec.writeReservedBytes e
      rw [heq, if_pos hfit] at hcode
      exact hcode
    constructor
    · intro out ofst rc hev
      obtain ⟨p, hp, hev⟩ := List.mem_flatMap.mp hev
      obtain ⟨rfl, rfl, rfl⟩ : out = p.out ∧ ofst = p.offset ∧ rc = p.rc := by
        simpa [PageWrite.events] using hev
      obtain ⟨i, hi, hoffset, e, e', heq⟩ := hmem p hp
      exact ⟨i, hi, by rw [hoffset], e, e', by rw [heq, hok p hp]⟩
    · intro e he hbad
      obtain ⟨p, hp, he⟩ := List.mem_flatMap.mp he
      refine hlast ⟨p.rc, List.mem_map_of_mem hp, ?_⟩
      rcases List.mem_cons.mp he with rfl | he
      · exact absurd (hok p hp) hbad
      · rw [List.mem_singleton.mp he] at hbad
        exact hbad

end Request

/-- A file whose reads and writes all succeed. -/
def workingFile : RealFile Unit where
  xRead := fun _ amt _ => (.ok, zeros amt, ())
  length_xRead := fun _ _ _ => length_zeros _
  xWrite := fun _ _ _ => (.ok, ())

/-- One page written to the RC4 database `rc4DbFile`. -/
theorem mcWriteMainDb_safe_rc4 :
    ∃ codec w, rc4DbFile.codec = some codec ∧
      WritesSafely nullPrimitives codec w 512 (zeros 512) 0
        (mcWriteMainDb (builtinDescriptors nullPrimitives) workingFile rc4DbFile (zeros 512) 0
          ⟨(), plainEnv, 0, []⟩) := by
  refine ⟨_, .rc4 ⟨1, 0, zeros 16⟩, rfl, ?_⟩
  have hlen : (zeros 512).length = 512 := length_zeros 512
  refine (mcWriteMainDb_safe_iff rc4DbFile _ _ (zeros 512) 0 () plainEnv 0 rfl rfl rfl rfl rfl
    (by rw [hlen]; rfl) (by rw [hlen]; decide)).mpr ⟨rfl, ?_⟩
  have hdiv : (zeros 512).length / rc4DbFile.pageSize = 0 + 1 := by rw [hlen]; rfl
  rintro ⟨c, hc, hbad⟩
  rw [writeCodes, hdiv] at hc
  exact absurd (List.mem_singleton.mp hc) hbad

/-! ### A page in plaintext -/

/-- The codec during a rekey from AES-128, whose pages have no reserved bytes the codec knows of,
to ChaCha20 in its legacy mode, which insists on `32` of them. -/
def legacyRekeyCodec : Codec Cipher :=
  { (sqlite3mcCodecInit : Codec Cipher) with
    isEncrypted := true
    hasReadCipher := true
    readCipherType := 1
    readCipher := some (.aes128 ⟨0, 0, zeros 16⟩)
    hasWriteCipher := true
    writeCipherType := 3
    writeCipher := some (.chacha20 ⟨1, 4096, 12345, 0, zeros 32, zeros 16⟩) }

/-- The main database file that codec belongs to. -/
def legacyRekeyFile : McFile Cipher := ⟨.mainDb, some legacyRekeyCodec, 4096⟩

/-- The page that the write cipher refuses goes to the file as it is, and the write reports
success. -/
theorem mcWriteMainDb_legacyRekey (P : Primitives) :
    mcWriteMainDb (builtinDescriptors P) workingFile legacyRekeyFile (zeros 4096) 0
        ⟨(), plainEnv, 0, []⟩ =
      (.ok, ⟨(), plainEnv, 0, [.codec 1 .database .corrupt, .write (zeros 4096) 0 .ok]⟩) := by
  have hlen : (zeros 4096).length = 4096 := length_zeros 4096
  have hpage : (zeros 4096).take 4096 = zeros 4096 := List.take_of_length_le hlen.le
  have hdiv : (zeros 4096).length / legacyRekeyFile.pageSize = 0 + 1 := by rw [hlen]; rfl
  rw [mcWriteMainDb_wholePages rfl rfl rfl (by rw [hlen]; rfl), hdiv]
  simp only [mcWritePages, Shim.runCodec, legacyRekeyFile, hpage]
  rw [sqlite3mcCodec_database (w := .chacha20 ⟨1, 4096, 12345, 0, zeros 32, zeros 16⟩) rfl rfl rfl,
    encryptPage_refused _ rfl]
  rfl

/-- **A refused page is written in plaintext, and nothing is reported.** -/
theorem mcWriteMainDb_writes_plaintext :
    ¬ ∃ P : Primitives, WritesSafely P legacyRekeyCodec
      (.chacha20 ⟨1, 4096, 12345, 0, zeros 32, zeros 16⟩) 4096 (zeros 4096) 0
      (mcWriteMainDb (builtinDescriptors P) workingFile legacyRekeyFile (zeros 4096) 0
        ⟨(), plainEnv, 0, []⟩) := by
  rintro ⟨P, hsafe⟩
  rw [mcWriteMainDb_legacyRekey] at hsafe
  exact hsafe.2 (.codec 1 .database .corrupt) List.mem_cons_self (by decide) rfl

end MultipleCiphers
