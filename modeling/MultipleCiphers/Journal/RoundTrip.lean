import MultipleCiphers.Journal.Model
import MultipleCiphers.Lib.Transition

/-!
# The journal round trip

The shim does not know the protocol of the journal. It takes a write of four bytes for a page
number, remembers it, and takes a write of the size of a page, once it remembers a page number, for
the image of that page. This file says what that inference gets right. In a run in which no other
write than an image has the size of a page while a page number is remembered, every header, page
number, checksum and name is stored as it is, every image is stored encrypted with the read cipher
and its own page number, and a playback reads what the pager wrote.

## When it goes wrong

A header is written in chunks that are a page long wherever sectors are at least as large as pages.
The first header of a journal file that has just been opened is safe: no page number has been seen
yet. A later one is not. It may be written in the middle of a journal, after the cache has spilled,
or at its start by the next transaction on the same handle, and each time the shim remembers the
checksum or the page number it saw last: a page number is forgotten when a page is read and kept
when one is written. The name of a super-journal comes right after a page number of its own, so one
that is as long as a page is always taken for an image.

## The invariant

`JournalState.Inv` says of the items of the journal that their raw writes are in the file, in
front of the write position, and out of the way of the one write that goes back: the completion of
the current header.

## Main results

* `JournalStep.inv` — a step that meets `ShimInfers` keeps the invariant.
* `journal_roundTrip` — in every state that a run of such steps reaches the journal is stored and
  read back as claimed.
-/

namespace MultipleCiphers

open Bytes

variable {P : Primitives}

/-! ### The sizes of a header -/

namespace PagerConfig

variable (c : PagerConfig)

theorem le_pageSize : 512 ≤ c.pageSize := by
  obtain ⟨k, hk, -, h⟩ := c.pageSize_valid
  rw [h]
  calc 512 = 2 ^ 9 := by norm_num
    _ ≤ 2 ^ k := Nat.pow_le_pow_right (by omega) hk

theorem le_sectorSize : 32 ≤ c.sectorSize := by
  obtain ⟨k, hk, -, h⟩ := c.sectorSize_valid
  rw [h]
  calc 32 = 2 ^ 5 := by norm_num
    _ ≤ 2 ^ k := Nat.pow_le_pow_right (by omega) hk

theorem le_nHeader : 32 ≤ c.nHeader := by
  have := c.le_pageSize
  have := c.le_sectorSize
  rw [nHeader]
  omega

/-- The chunks of a header fill its sector. -/
theorem headerChunks_mul_nHeader : c.headerChunks * c.nHeader = c.sectorSize := by
  have hpos : 0 < c.nHeader := by
    have := c.le_nHeader
    omega
  have hdvd : c.nHeader ∣ c.sectorSize := by
    obtain ⟨j, -, -, hj⟩ := c.sectorSize_valid
    obtain ⟨k, -, -, hk⟩ := c.pageSize_valid
    rw [nHeader]
    rcases le_total c.pageSize c.sectorSize with h | h
    · rw [min_eq_left h, hj, hk]
      rw [hj, hk] at h
      exact Nat.pow_dvd_pow 2 ((Nat.pow_le_pow_iff_right (by omega)).mp h)
    · rw [min_eq_right h]
  obtain ⟨m, hm⟩ := hdvd
  have hm' : c.sectorSize = m * c.nHeader := by rw [hm, Nat.mul_comm]
  rw [headerChunks, hm', Nat.add_sub_assoc hpos, Nat.add_comm, Nat.add_mul_div_right _ _ hpos,
    Nat.div_eq_of_lt (by omega), Nat.zero_add]

theorem headerChunks_pos : 0 < c.headerChunks := by
  have h := c.headerChunks_mul_nHeader
  have := c.le_sectorSize
  rcases Nat.eq_zero_or_pos c.headerChunks with h0 | h0
  · rw [h0] at h
    omega
  · exact h0

theorem length_journalHdr (cksumInit dbOrigSize : ℕ) :
    (c.journalHdr cksumInit dbOrigSize).length = c.nHeader := by
  have h := c.le_nHeader
  have hmagic :
      (if c.updatesHeader then zeros 12 else aJournalMagic ++ put4byte 0xffffffff).length =
      12 := by
    cases c.updatesHeader <;> rfl
  simp only [journalHdr, List.length_append, hmagic, length_put4byte, length_zeros]
  omega

theorem le_journalHdrOffset (journalOff : ℕ) : journalOff ≤ c.journalHdrOffset journalOff := by
  rw [journalHdrOffset]
  by_cases h : journalOff = 0
  · rw [if_pos h]
    omega
  · have hs := c.le_sectorSize
    have hlt := Nat.lt_div_mul_add (a := journalOff - 1) (b := c.sectorSize) (by omega)
    rw [if_neg h, Nat.add_mul, Nat.one_mul]
    omega

end PagerConfig

/-! ### What is stored -/

/-- How the bytes of a piece are stored: as they are, or, if they are the image of a page,
encrypted with the read cipher and the number of that page. -/
def JournalPiece.EncodedAs (P : Primitives) (codec : ReadCodec) (p : JournalPiece)
    (stored : Bytes) : Prop :=
  match p.page with
  | none => stored = p.data
  | some pgno => ∃ env env' : Env,
      (builtinDescriptors P codec.codec.readCipherType).encryptPage codec.cipher pgno p.data
        codec.codec.readReservedBytes env = (.ok, stored, env')

/-- The file holds the bytes of a piece in their place. -/
def JournalPiece.StoredIn (P : Primitives) (codec : ReadCodec) (file : Bytes) (p : JournalPiece) :
    Prop :=
  p.EncodedAs P codec (slice file p.offset p.data.length)

/-- An image is one of a page that the read cipher can encrypt. -/
def JournalPiece.Valid (config : PagerConfig) (codec : ReadCodec) (p : JournalPiece) : Prop :=
  ∀ pgno, p.page = some pgno → DatabasePage pgno p.data ∧ p.data.length = config.pageSize ∧
    pgno ≠ 0 ∧ codec.cipher.fits codec.codec.readReservedBytes = true

theorem JournalPiece.StoredIn.congr {codec : ReadCodec} {f g : Bytes} {p : JournalPiece}
    (h : p.StoredIn P codec f) (hs : slice g p.offset p.data.length =
      slice f p.offset p.data.length) : p.StoredIn P codec g := by
  rw [StoredIn, hs]
  exact h

/-- Encryption of a valid piece for the journal. -/
theorem JournalPiece.Valid.encode {config : PagerConfig} {codec : ReadCodec} {p : JournalPiece}
    {pgno : ℕ} (hvalid : p.Valid config codec) (hp : p.page = some pgno) (env : Env) :
    ∃ stored env', sqlite3mcCodec (builtinDescriptors P) codec.codec p.data pgno .journal env =
      (.ok, stored, env') ∧ stored.length = p.data.length ∧ p.EncodedAs P codec stored := by
  obtain ⟨hpage, -, -, hfits⟩ := hvalid pgno hp
  have hback := decryptPage_encryptPage (P := P) codec.wellFormed hfits hpage
    codec.codec.readCipherType codec.codec.readCipherType 0 env
  have hcodec : sqlite3mcCodec (builtinDescriptors P) codec.codec p.data pgno .journal env =
      (builtinDescriptors P codec.codec.readCipherType).encryptPage codec.cipher pgno p.data
        codec.codec.readReservedBytes env := by
    simp [sqlite3mcCodec, codec.isEncrypted, codec.hasReadCipher, sqlite3mcEncrypt,
      codec.readCipher]
  obtain ⟨rc, stored, env', henc⟩ : ∃ rc stored env',
      (builtinDescriptors P codec.codec.readCipherType).encryptPage codec.cipher pgno p.data
        codec.codec.readReservedBytes env = (rc, stored, env') := ⟨_, _, _, rfl⟩
  have hrc : rc = .ok := by simpa [henc] using hback.ok
  refine ⟨stored, env', by rw [hcodec, henc, hrc], by simpa [henc] using hback.length_eq, ?_⟩
  rw [EncodedAs, hp]
  exact ⟨env, env', by rw [henc, hrc]⟩

/-- Decryption of what is stored for a piece. -/
theorem JournalPiece.Valid.decode {config : PagerConfig} {codec : ReadCodec} {p : JournalPiece}
    {pgno : ℕ} {stored : Bytes} (hvalid : p.Valid config codec) (hp : p.page = some pgno)
    (h : p.EncodedAs P codec stored) (env : Env) :
    ∃ plain, sqlite3mcCodec (builtinDescriptors P) codec.codec stored pgno .load env =
      (.ok, plain, env) ∧
      SameContent (codec.cipher.nReserved codec.codec.readReservedBytes) plain p.data := by
  obtain ⟨hpage, -, -, hfits⟩ := hvalid pgno hp
  rw [EncodedAs, hp] at h
  obtain ⟨env₁, env₂, henc⟩ := h
  have hback := decryptPage_encryptPage (P := P) codec.wellFormed hfits hpage
    codec.codec.readCipherType codec.codec.readCipherType codec.codec.hmacCheck env₁
  rw [henc] at hback
  refine ⟨_, ?_, hback.content⟩
  have hok := hback.dec_ok
  simp only at hok
  simp [sqlite3mcCodec, codec.isEncrypted, codec.hasReadCipher, sqlite3mcDecrypt,
    codec.readCipher, hok]

/-! ### Raw writes -/

/-- What the shim makes of a sequence of writes is right: it remembers the number of the page
before each image, and no number before a write of the size of a page that is none. -/
def Inferred (config : PagerConfig) : ℕ → List JournalPiece → Prop
  | _, [] => True
  | pageNo, p :: ps =>
    (match p.page with
      | none => p.data.length = config.pageSize → pageNo = 0
      | some pgno => pageNo = pgno) ∧
    Inferred config (if p.data.length = 4 then get4byte p.data else pageNo) ps

namespace JournalState

variable (s : JournalState)

/-- The codec of the journal file encrypts. -/
theorem encryptedCodec_file : s.file.encryptedCodec = some s.codec.codec := by
  simp [McFile.encryptedCodec, file, s.codec.isEncrypted]

/-- A write that is not taken for an image. -/
theorem mcIoWrite_verbatim (data : Bytes) (offset : ℕ) {shim : Shim Bytes}
    (h : data.length = s.config.pageSize → shim.pageNo = 0) :
    (mcIoWrite (builtinDescriptors P) memoryFile s.file data offset shim).2.real =
        writeAt shim.real offset data ∧
      (mcIoWrite (builtinDescriptors P) memoryFile s.file data offset shim).2.pageNo =
        if data.length = 4 then get4byte data else shim.pageNo := by
  have hno : ¬(data.length = s.config.pageSize ∧ shim.pageNo ≠ 0) := fun hc => hc.2 (h hc.1)
  have hwrite : mcIoWrite (builtinDescriptors P) memoryFile s.file data offset shim =
      mcWriteMainJournal (builtinDescriptors P) memoryFile s.file data offset shim := rfl
  have hsize : s.file.pageSize = s.config.pageSize := rfl
  simp only [hwrite, mcWriteMainJournal, writeJournalPage, encryptedCodec_file, hsize, hno,
    if_false, xWrite_memoryFile]
  by_cases h4 : data.length = 4
  · simp [h4]
  · simp [h4]

/-- A write that is taken for the image of the page whose number is remembered. -/
theorem write_image {p : JournalPiece} {pgno : ℕ} (hp : p.page = some pgno)
    (hvalid : p.Valid s.config s.codec) (hno : s.shim.pageNo = pgno) :
    ∃ stored, (s.write P p.data p.offset).shim.real = writeAt s.shim.real p.offset stored ∧
      (s.write P p.data p.offset).shim.pageNo = s.shim.pageNo ∧ stored.length = p.data.length ∧
      p.EncodedAs P s.codec stored := by
  obtain ⟨-, hlen, hne, -⟩ := hvalid pgno hp
  obtain ⟨stored, env', hcodec, hl, henc⟩ := hvalid.encode (P := P) hp s.shim.env
  have himage : p.data.length = s.config.pageSize ∧ s.shim.pageNo ≠ 0 := ⟨hlen, by rwa [hno]⟩
  have hwrite : mcIoWrite (builtinDescriptors P) memoryFile s.file p.data p.offset s.shim =
      mcWriteMainJournal (builtinDescriptors P) memoryFile s.file p.data p.offset s.shim := rfl
  have hsize : s.file.pageSize = s.config.pageSize := rfl
  rw [← hno] at hcodec
  refine ⟨stored, ?_, ?_, hl, henc⟩
  all_goals
    simp only [write, hwrite, mcWriteMainJournal, writeJournalPage, encryptedCodec_file, hsize,
      himage, ne_eq, not_false_eq_true, and_self, if_true, Shim.runCodec, hcodec,
      xWrite_memoryFile]

/-- A write whose purpose the shim infers stores the piece, and what it remembers then. -/
theorem write_piece {p : JournalPiece} {ps : List JournalPiece}
    (hvalid : p.Valid s.config s.codec) (hinf : Inferred s.config s.shim.pageNo (p :: ps)) :
    ∃ stored, (s.write P p.data p.offset).shim.real = writeAt s.shim.real p.offset stored ∧
      stored.length = p.data.length ∧ p.EncodedAs P s.codec stored ∧
      Inferred s.config (s.write P p.data p.offset).shim.pageNo ps := by
  obtain ⟨hp, hps⟩ := hinf
  rcases hpage : p.page with _ | pgno
  · rw [hpage] at hp
    obtain ⟨hreal, hno⟩ := s.mcIoWrite_verbatim (P := P) p.data p.offset hp
    rw [← hno] at hps
    refine ⟨p.data, hreal, rfl, ?_, hps⟩
    rw [JournalPiece.EncodedAs, hpage]
  · rw [hpage] at hp
    obtain ⟨stored, hreal, hno, hl, henc⟩ := s.write_image (P := P) hpage hvalid hp
    obtain ⟨-, hlen, -, -⟩ := hvalid pgno hpage
    have h4 : p.data.length ≠ 4 := by
      have := s.config.le_pageSize
      omega
    rw [if_neg h4] at hps
    exact ⟨stored, hreal, hl, henc, by rw [hno]; exact hps⟩

/-- **Writing pieces one behind the other.** Each is stored, and what lies before them stays. -/
theorem writePieces_stored {ps : List JournalPiece} (hvalid : ∀ p ∈ ps, p.Valid s.config s.codec)
    (hord : ps.Pairwise fun a b => a.stop ≤ b.offset)
    (hinf : Inferred s.config s.shim.pageNo ps) :
    (∀ p ∈ ps, p.StoredIn P s.codec (writePieces P s.file ps s.shim).real ∧
        p.stop ≤ (writePieces P s.file ps s.shim).real.length) ∧
      s.shim.real.length ≤ (writePieces P s.file ps s.shim).real.length ∧
      ∀ o len, o + len ≤ s.shim.real.length → (∀ p ∈ ps, o + len ≤ p.offset) →
        slice (writePieces P s.file ps s.shim).real o len = slice s.shim.real o len := by
  induction ps generalizing s with
  | nil => exact ⟨fun p hp => absurd hp List.not_mem_nil, le_rfl, fun _ _ _ _ => rfl⟩
  | cons p ps ih =>
    obtain ⟨hpps, hord⟩ := List.pairwise_cons.mp hord
    obtain ⟨stored, hreal, hl, henc, hinf⟩ :=
      s.write_piece (P := P) (hvalid p List.mem_cons_self) hinf
    obtain ⟨hst, hle, hkeep⟩ := ih (s := s.write P p.data p.offset)
      (fun q hq => hvalid q (List.mem_cons_of_mem p hq)) hord hinf
    have hlen : (s.write P p.data p.offset).shim.real.length =
        max s.shim.real.length p.stop := by
      rw [hreal, length_writeAt, hl, JournalPiece.stop]
    have hrest : writePieces P s.file (p :: ps) s.shim =
        writePieces P (s.write P p.data p.offset).file ps (s.write P p.data p.offset).shim := rfl
    rw [hrest]
    refine ⟨fun q hq => ?_, by omega, fun o len hin hbefore => ?_⟩
    · rcases List.mem_cons.mp hq with rfl | hq
      · refine ⟨?_, by omega⟩
        rw [JournalPiece.StoredIn,
          hkeep _ _ (by rw [hlen, JournalPiece.stop]; omega) hpps, hreal, ← hl, slice_writeAt_self]
        exact henc
      · exact hst q hq
    · rw [hkeep o len (by omega) fun q hq => hbefore q (List.mem_cons_of_mem p hq),
        hreal, slice_writeAt_of_disjoint hin (Or.inl (hbefore p List.mem_cons_self))]

end JournalState

/-! ### Items -/

namespace JournalItem

variable {config : PagerConfig} {codec : ReadCodec}

/-- An item the pager may write, and the shim may take for what it is: an image is one of a page
that can be encrypted, and a name is not as long as a page. -/
def Valid (config : PagerConfig) (codec : ReadCodec) : JournalItem → Prop
  | header _ first copy => first.length = config.nHeader ∧ copy.length = config.nHeader
  | record _ pgno image _ => DatabasePage pgno image ∧ image.length = config.pageSize ∧
      (0 < pgno ∧ pgno < 2 ^ 32) ∧ codec.cipher.fits codec.codec.readReservedBytes = true
  | superJournal _ _ name => name.length ≠ config.pageSize

/-- Where an item starts. -/
def start : JournalItem → ℕ
  | header offset _ _ => offset
  | record offset _ _ _ => offset
  | superJournal offset _ _ => offset

/-- Where an item ends. -/
def stop (config : PagerConfig) : JournalItem → ℕ
  | header offset _ _ => offset + config.headerChunks * config.nHeader
  | record offset _ image _ => offset + image.length + 8
  | superJournal offset _ name => offset + name.length + 20

theorem mem_headerCopies {n offset : ℕ} {copy : Bytes} (hcopy : copy.length = n) {m k : ℕ}
    {p : JournalPiece} (hp : p ∈ headerCopies n offset copy m k) :
    p.page = none ∧ p.data = copy ∧ offset + k * n ≤ p.offset ∧ p.stop ≤ offset + (k + m) * n := by
  induction m generalizing k with
  | zero => exact absurd hp List.not_mem_nil
  | succ m ih =>
    rcases List.mem_cons.mp hp with rfl | hp
    · refine ⟨rfl, rfl, le_rfl, ?_⟩
      have hmul : k * n + n ≤ (k + (m + 1)) * n := by
        calc k * n + n = (k + 1) * n := by ring
          _ ≤ (k + (m + 1)) * n := Nat.mul_le_mul_right n (by omega)
      simp only [JournalPiece.stop, hcopy]
      omega
    · obtain ⟨hpage, hdata, hle, hstop⟩ := ih hp
      have hmul : k * n ≤ (k + 1) * n := Nat.mul_le_mul_right n (by omega)
      have hsum : k + 1 + m = k + (m + 1) := by omega
      exact ⟨hpage, hdata, by omega, hsum ▸ hstop⟩

theorem pairwise_headerCopies {n offset : ℕ} {copy : Bytes} (hcopy : copy.length = n) (m k : ℕ) :
    (headerCopies n offset copy m k).Pairwise fun a b => a.stop ≤ b.offset := by
  induction m generalizing k with
  | zero => exact List.Pairwise.nil
  | succ m ih =>
    refine List.pairwise_cons.mpr ⟨fun p hp => ?_, ih (k + 1)⟩
    have hle := (mem_headerCopies hcopy hp).2.2.1
    have hmul : (k + 1) * n = k * n + n := by ring
    simp only [JournalPiece.stop, hcopy]
    omega

/-- The pieces of an item lie in it, one behind the other. -/
theorem pieces_bounds {item : JournalItem} (hvalid : item.Valid config codec) {p : JournalPiece}
    (hp : p ∈ item.pieces config) : item.start ≤ p.offset ∧ p.stop ≤ item.stop config := by
  cases item with
  | header offset first copy =>
    obtain ⟨hfirst, hcopy⟩ := hvalid
    have hpos := config.headerChunks_pos
    rcases List.mem_cons.mp hp with rfl | hp
    · have hmul := Nat.mul_le_mul_right config.nHeader hpos
      simp only [start, stop, JournalPiece.stop, hfirst]
      omega
    · obtain ⟨-, -, hle, hstop⟩ := mem_headerCopies hcopy hp
      have hsum : 1 + (config.headerChunks - 1) = config.headerChunks := by omega
      rw [hsum] at hstop
      exact ⟨by rw [start]; omega, hstop⟩
  | record offset pgno image cksum =>
    simp only [pieces, List.mem_cons, List.not_mem_nil, or_false] at hp
    rcases hp with rfl | rfl | rfl <;>
      simp only [start, stop, JournalPiece.stop, length_put4byte] <;> omega
  | superJournal offset pgno name =>
    simp only [pieces, List.mem_cons, List.not_mem_nil, or_false] at hp
    rcases hp with rfl | rfl | rfl | rfl | rfl <;>
      simp only [start, stop, JournalPiece.stop, length_put4byte, aJournalMagic, List.length_cons,
        List.length_nil] <;> omega

theorem pairwise_pieces {item : JournalItem} (hvalid : item.Valid config codec) :
    (item.pieces config).Pairwise fun a b => a.stop ≤ b.offset := by
  cases item with
  | header offset first copy =>
    obtain ⟨hfirst, hcopy⟩ := hvalid
    refine List.pairwise_cons.mpr ⟨fun p hp => ?_, pairwise_headerCopies hcopy _ 1⟩
    have hle := (mem_headerCopies hcopy hp).2.2.1
    simp only [JournalPiece.stop, hfirst]
    omega
  | record offset pgno image cksum =>
    simp [pieces, JournalPiece.stop]
    omega
  | superJournal offset pgno name =>
    simp [pieces, JournalPiece.stop]
    omega

theorem pieces_valid {item : JournalItem} (hvalid : item.Valid config codec) {p : JournalPiece}
    (hp : p ∈ item.pieces config) : p.Valid config codec := by
  intro pgno hpage
  cases item with
  | header offset first copy =>
    rcases List.mem_cons.mp hp with rfl | hp
    · cases hpage
    · rw [(mem_headerCopies hvalid.2 hp).1] at hpage
      cases hpage
  | record offset pgno' image cksum =>
    obtain ⟨himage, hlen, hpos, hfits⟩ := hvalid
    simp only [pieces, List.mem_cons, List.not_mem_nil, or_false] at hp
    rcases hp with rfl | rfl | rfl
    · cases hpage
    · obtain rfl := Option.some.inj hpage
      exact ⟨himage, hlen, by omega, hfits⟩
    · cases hpage
  | superJournal offset pgno' name =>
    simp only [pieces, List.mem_cons, List.not_mem_nil, or_false] at hp
    rcases hp with rfl | rfl | rfl | rfl | rfl <;> cases hpage

/-- Chunks that are not taken for images leave the page number alone. -/
theorem inferred_headerCopies {offset pageNo : ℕ} {copy : Bytes}
    (hcopy : copy.length = config.nHeader)
    (hno : config.nHeader = config.pageSize → pageNo = 0) (m k : ℕ) :
    Inferred config pageNo (headerCopies config.nHeader offset copy m k) := by
  induction m generalizing k with
  | zero => trivial
  | succ m ih =>
    have h4 : copy.length ≠ 4 := by
      have := config.le_nHeader
      omega
    refine ⟨fun h => hno (hcopy ▸ h), ?_⟩
    rw [if_neg h4]
    exact ih (k + 1)

/-- A header is taken for what it is if no page number is remembered, or if its chunks are shorter
than a page. -/
theorem inferred_header {offset pageNo : ℕ} {first copy : Bytes}
    (hvalid : (header offset first copy).Valid config codec)
    (hno : config.pageSize ≤ config.sectorSize → pageNo = 0) :
    Inferred config pageNo ((header offset first copy).pieces config) := by
  obtain ⟨hfirst, hcopy⟩ := hvalid
  have hno' : config.nHeader = config.pageSize → pageNo = 0 := by
    intro h
    refine hno ?_
    rw [PagerConfig.nHeader] at h
    omega
  have h4 : first.length ≠ 4 := by
    have := config.le_nHeader
    omega
  refine ⟨fun h => hno' (hfirst ▸ h), ?_⟩
  rw [if_neg h4]
  exact inferred_headerCopies hcopy hno' _ 1

/-- A record is always taken for what it is: it brings its page number along. -/
theorem inferred_record {offset pageNo pgno cksum : ℕ} {image : Bytes}
    (hvalid : (record offset pgno image cksum).Valid config codec) :
    Inferred config pageNo ((record offset pgno image cksum).pieces config) := by
  obtain ⟨-, hlen, hpgno, -⟩ := hvalid
  have h512 := config.le_pageSize
  have h4 : image.length ≠ 4 := by omega
  refine ⟨fun h => ?_, ?_, fun h => ?_, trivial⟩
  · simp only [length_put4byte] at h
    omega
  · simp only [length_put4byte, if_true]
    exact get4byte_put4byte hpgno.2
  · simp only [length_put4byte] at h
    omega

/-- So is the name of a super-journal that is not as long as a page. -/
theorem inferred_superJournal {offset pageNo pgno : ℕ} {name : Bytes}
    (hvalid : (superJournal offset pgno name).Valid config codec) :
    Inferred config pageNo ((superJournal offset pgno name).pieces config) := by
  have h512 := config.le_pageSize
  have hshort : ∀ (n : ℕ) {no : ℕ}, n < 512 → n = config.pageSize → no = 0 := by
    intro n no hn h
    omega
  exact ⟨hshort 4 (by omega), fun h => absurd h hvalid, hshort 4 (by omega), hshort 4 (by omega),
    hshort 8 (by omega), trivial⟩

end JournalItem

/-! ### The invariant -/

/-- An item that the completion of the header at `journalHdr` does not disturb: the header itself,
or one that lies before or behind the bytes that are written. -/
def JournalItem.Clear (config : PagerConfig) (journalHdr : ℕ) (item : JournalItem) : Prop :=
  (∃ first copy, item = .header journalHdr first copy) ∨
    item.stop config ≤ journalHdr ∨ journalHdr + 12 ≤ item.start

/-- The journal is in the file, in front of the write position. -/
structure JournalState.Held (P : Primitives) (s : JournalState) : Prop where
  valid : ∀ item ∈ s.items, item.Valid s.config s.codec
  stored : ∀ item ∈ s.items, ∀ p ∈ item.pieces s.config,
    p.StoredIn P s.codec s.shim.real ∧ p.stop ≤ s.shim.real.length
  before : ∀ item ∈ s.items, item.stop s.config ≤ s.journalOff

/-- And it is out of the way of the completion of the current header. -/
structure JournalState.Inv (P : Primitives) (s : JournalState) : Prop extends s.Held P where
  clear : s.config.updatesHeader = true → ∀ item ∈ s.items, item.Clear s.config s.journalHdr
  behind : s.phase = .writing → s.config.updatesHeader = true → s.journalHdr + 12 ≤ s.journalOff
  empty : s.phase = .closed ∨ s.phase = .idle → s.items = []

namespace JournalState

variable {s : JournalState}

theorem Inv.of_empty (h : s.items = []) (hphase : s.phase ≠ .writing) : s.Inv P where
  valid := fun item hi => by simp [h] at hi
  stored := fun item hi => by simp [h] at hi
  before := fun item hi => by simp [h] at hi
  clear := fun _ item hi => by simp [h] at hi
  behind := fun hw => absurd hw hphase
  empty := fun _ => h

/-- A read of the journal: a short one ends there. -/
theorem mcIoRead_file (count offset : ℕ) (shim : Shim Bytes) :
    mcIoRead (builtinDescriptors P) memoryFile s.file count offset shim =
      let r := shim.xRead memoryFile count offset
      if r.1 = .ioerrShortRead then r
      else mcReadMainJournal (builtinDescriptors P) s.file r.2.1 count r.2.2 := rfl

/-- Reading does not change the file. -/
theorem mcIoRead_real (count offset : ℕ) (shim : Shim Bytes) :
    (mcIoRead (builtinDescriptors P) memoryFile s.file count offset shim).2.2.real = shim.real := by
  have hx : (shim.xRead memoryFile count offset).2.2.real = shim.real := rfl
  rw [mcIoRead_file]
  dsimp only
  by_cases hshort : (shim.xRead memoryFile count offset).1 = .ioerrShortRead
  · rw [if_pos hshort, hx]
  · rw [if_neg hshort, mcReadMainJournal, readJournalPage, encryptedCodec_file]
    dsimp only
    by_cases himage : count = s.file.pageSize ∧ (shim.xRead memoryFile count offset).2.2.pageNo ≠ 0
    · rw [if_pos himage]
      rfl
    · rw [if_neg himage]
      by_cases h4 : count = 4
      · rw [if_pos h4]
        exact hx
      · rw [if_neg h4]
        exact hx

/-- A read of neither a page nor four bytes leaves the page number alone. -/
theorem mcIoRead_pageNo {count : ℕ} (hsize : count ≠ s.config.pageSize) (h4 : count ≠ 4)
    (offset : ℕ) (shim : Shim Bytes) :
    (mcIoRead (builtinDescriptors P) memoryFile s.file count offset shim).2.2.pageNo =
      shim.pageNo := by
  have hx : (shim.xRead memoryFile count offset).2.2.pageNo = shim.pageNo := rfl
  have hno : ¬(count = s.file.pageSize ∧ (shim.xRead memoryFile count offset).2.2.pageNo ≠ 0) :=
    fun h => hsize h.1
  rw [mcIoRead_file]
  dsimp only
  by_cases hshort : (shim.xRead memoryFile count offset).1 = .ioerrShortRead
  · rw [if_pos hshort, hx]
  · rw [if_neg hshort, mcReadMainJournal, readJournalPage, encryptedCodec_file]
    dsimp only
    rw [if_neg hno, if_neg h4]
    exact hx

/-- An item behind the write position joins the journal. -/
theorem Held.writeItem (hinv : s.Held P) {item : JournalItem} (hvalid : item.Valid s.config s.codec)
    (hstart : s.journalOff ≤ item.start)
    (hinf : Inferred s.config s.shim.pageNo (item.pieces s.config)) :
    (∀ i ∈ s.items ++ [item], i.Valid s.config s.codec) ∧
      ∀ i ∈ s.items ++ [item], ∀ p ∈ i.pieces s.config,
        p.StoredIn P s.codec (writePieces P s.file (item.pieces s.config) s.shim).real ∧
          p.stop ≤ (writePieces P s.file (item.pieces s.config) s.shim).real.length := by
  obtain ⟨hst, hle, hkeep⟩ := s.writePieces_stored (P := P)
    (fun p hp => JournalItem.pieces_valid hvalid hp) (JournalItem.pairwise_pieces hvalid) hinf
  refine ⟨fun i hi => ?_, fun i hi p hp => ?_⟩
  · rcases List.mem_append.mp hi with hi | hi
    · exact hinv.valid i hi
    · rw [List.mem_singleton.mp hi]
      exact hvalid
  · rcases List.mem_append.mp hi with hi | hi
    · obtain ⟨hpst, hpin⟩ := hinv.stored i hi p hp
      have hpstop := (JournalItem.pieces_bounds (hinv.valid i hi) hp).2
      have hioff := hinv.before i hi
      refine ⟨hpst.congr (hkeep _ _ hpin fun q hq => ?_), hpin.trans hle⟩
      have hq := (JournalItem.pieces_bounds hvalid hq).1
      rw [JournalPiece.stop] at hpstop
      omega
    · rw [List.mem_singleton.mp hi] at hp
      exact hst p hp

/-- An item in front of the header at `journalHdr`, or behind its first bytes, is left alone by the
completion of that header. -/
theorem complete_eq_self {config : PagerConfig} {codec : ReadCodec} {item : JournalItem}
    {journalHdr : ℕ} (zHeader : Bytes) (hvalid : item.Valid config codec)
    (h : item.stop config ≤ journalHdr ∨ journalHdr + 12 ≤ item.start) :
    item.complete journalHdr zHeader = item := by
  cases item with
  | header offset first copy =>
    have hne : offset ≠ journalHdr := by
      have h32 := config.le_nHeader
      have hchunks := Nat.mul_le_mul_right config.nHeader config.headerChunks_pos
      simp only [JournalItem.stop, JournalItem.start] at h
      omega
    rw [JournalItem.complete, if_neg hne]
  | record offset pgno image cksum => rfl
  | superJournal offset pgno name => rfl

/-- What the completion of a header leaves in the file: the bytes of the header, and perhaps a zero
behind the journal. -/
theorem completeHeader_shim (s : JournalState) :
    ∃ real : Bytes, s.shim.real.length ≤ real.length ∧
      (∀ o len, o + len ≤ s.shim.real.length → o + len ≤ s.journalOff →
        slice real o len = slice s.shim.real o len) ∧
      (s.completeHeader P).shim.real =
        writeAt real s.journalHdr (aJournalMagic ++ put4byte s.nRec) ∧
      (s.completeHeader P).shim.pageNo = s.shim.pageNo := by
  have h512 := s.config.le_pageSize
  have hoff := s.config.le_journalHdrOffset s.journalOff
  obtain ⟨rc, aMagic, shim, hread⟩ : ∃ rc aMagic shim,
      mcIoRead (builtinDescriptors P) memoryFile s.file 8 (s.config.journalHdrOffset s.journalOff)
        s.shim = (rc, aMagic, shim) := ⟨_, _, _, rfl⟩
  have hreal := s.mcIoRead_real (P := P) 8 (s.config.journalHdrOffset s.journalOff) s.shim
  have hno := s.mcIoRead_pageNo (P := P) (show 8 ≠ s.config.pageSize by omega) (by omega)
    (s.config.journalHdrOffset s.journalOff) s.shim
  rw [hread] at hreal hno
  have hz : (aJournalMagic ++ put4byte s.nRec).length = 12 := rfl
  -- the zero that makes a header of an earlier journal invalid
  obtain ⟨shim', hshim', hlen, hkeep, hno'⟩ : ∃ shim', (if rc = .ok ∧ aMagic = aJournalMagic then
      (mcIoWrite (builtinDescriptors P) memoryFile s.file [0]
        (s.config.journalHdrOffset s.journalOff) shim).2 else shim) = shim' ∧
      shim.real.length ≤ shim'.real.length ∧
      (∀ o len, o + len ≤ shim.real.length → o + len ≤ s.journalOff →
        slice shim'.real o len = slice shim.real o len) ∧ shim'.pageNo = shim.pageNo := by
    by_cases hm : rc = .ok ∧ aMagic = aJournalMagic
    · obtain ⟨hw, hwno⟩ := s.mcIoWrite_verbatim (P := P) [0]
        (s.config.journalHdrOffset s.journalOff) (show [0].length = _ → shim.pageNo = 0 from
          fun h => by simp at h; omega)
      refine ⟨_, if_pos hm, ?_, fun o len hin hle => ?_, hwno⟩
      · rw [hw, length_writeAt]
        exact le_max_left _ _
      · rw [hw, slice_writeAt_of_disjoint hin (Or.inl (by omega))]
    · exact ⟨shim, if_neg hm, le_rfl, fun _ _ _ _ => rfl, rfl⟩
  obtain ⟨hw, hwno⟩ := s.mcIoWrite_verbatim (P := P) (aJournalMagic ++ put4byte s.nRec)
    s.journalHdr (show _ → shim'.pageNo = 0 from fun h => by rw [hz] at h; omega)
  have hcomplete : (s.completeHeader P).shim = (mcIoWrite (builtinDescriptors P) memoryFile s.file
      (aJournalMagic ++ put4byte s.nRec) s.journalHdr shim').2 := by
    simp only [completeHeader, hread, hshim']
  refine ⟨shim'.real, by rw [← hreal]; exact hlen, fun o len hin hle => ?_, ?_, ?_⟩
  · rw [hkeep o len (by rw [hreal]; exact hin) hle, hreal]
  · rw [hcomplete, hw]
  · rw [hcomplete, hwno, if_neg (by rw [hz]; omega), hno', hno]

/-- A new header, behind everything that was written. -/
theorem Held.writeJournalHdr (hinv : s.Held P) (cksumInit dbOrigSize : ℕ)
    (hphase : s.phase = .writing)
    (hno : s.config.pageSize ≤ s.config.sectorSize → s.shim.pageNo = 0) :
    (s.writeJournalHdr P cksumInit dbOrigSize).Inv P := by
  have hlen := s.config.length_journalHdr cksumInit dbOrigSize
  have hoff := s.config.le_journalHdrOffset s.journalOff
  have hchunks := Nat.mul_le_mul_right s.config.nHeader s.config.headerChunks_pos
  have h32 := s.config.le_nHeader
  obtain ⟨item, hitem⟩ : ∃ i, i = JournalItem.header (s.config.journalHdrOffset s.journalOff)
      (s.config.journalHdr cksumInit dbOrigSize) (s.config.journalHdr cksumInit dbOrigSize) :=
    ⟨_, rfl⟩
  have hvalid : item.Valid s.config s.codec := by
    rw [hitem]
    exact ⟨hlen, hlen⟩
  obtain ⟨hval, hst⟩ := hinv.writeItem (P := P) hvalid (by rw [hitem]; exact hoff)
    (by rw [hitem] at hvalid ⊢; exact JournalItem.inferred_header hvalid hno)
  rw [hitem] at hval hst
  refine { valid := hval, stored := hst, before := ?_, clear := ?_, behind := ?_, empty := ?_ }
  · intro i hi
    rcases List.mem_append.mp hi with hi | hi
    · have := hinv.before i hi
      show i.stop s.config ≤ s.config.journalHdrOffset s.journalOff + _
      omega
    · rw [List.mem_singleton.mp hi]
      exact le_rfl
  · intro _ i hi
    rcases List.mem_append.mp hi with hi | hi
    · exact Or.inr (Or.inl ((hinv.before i hi).trans hoff))
    · exact Or.inl ⟨_, _, List.mem_singleton.mp hi⟩
  · intro _ _
    show s.config.journalHdrOffset s.journalOff + 12 ≤ s.config.journalHdrOffset s.journalOff + _
    omega
  · intro h
    have : s.phase = .closed ∨ s.phase = .idle := h
    rw [hphase] at this
    rcases this with h | h <;> cases h

/-- Completing the current header keeps the journal, with that header as it now is. -/
theorem Inv.completeHeader (hinv : s.Inv P) (hup : s.config.updatesHeader = true) :
    (s.completeHeader P).Held P := by
  obtain ⟨real, hle, hkeep, hreal, -⟩ := s.completeHeader_shim (P := P)
  obtain ⟨z, hz⟩ : ∃ z, z = aJournalMagic ++ put4byte s.nRec := ⟨_, rfl⟩
  have hlz : z.length = 12 := by
    rw [hz]
    rfl
  have h32 := s.config.le_nHeader
  have hlen := length_writeAt real s.journalHdr z
  rw [← hz] at hreal
  -- a piece in front of the header's first bytes, or behind them, is where it was
  have hout : ∀ item ∈ s.items, ∀ p ∈ item.pieces s.config,
      (p.stop ≤ s.journalHdr ∨ s.journalHdr + 12 ≤ p.offset) →
      p.StoredIn P s.codec (writeAt real s.journalHdr z) ∧
        p.stop ≤ (writeAt real s.journalHdr z).length := by
    intro item hi p hp hdis
    obtain ⟨hst, hin⟩ := hinv.stored item hi p hp
    have hoff := ((JournalItem.pieces_bounds (hinv.valid item hi) hp).2).trans (hinv.before item hi)
    refine ⟨hst.congr ?_, by omega⟩
    rw [JournalPiece.stop] at hin hoff hdis
    rw [slice_writeAt_of_disjoint (by omega) (by omega), hkeep _ _ hin hoff]
  have hitems : (s.completeHeader P).items =
      s.items.map (JournalItem.complete s.journalHdr z) := by
    rw [hz]
    rfl
  refine { valid := ?_, stored := ?_, before := ?_ }
  · intro i hi
    rw [hitems] at hi
    obtain ⟨item, hitem, rfl⟩ := List.mem_map.mp hi
    have hvalid := hinv.valid item hitem
    rcases hinv.clear hup item hitem with ⟨first, copy, rfl⟩ | hclear
    · rw [JournalItem.complete, if_pos rfl]
      refine ⟨?_, hvalid.2⟩
      rw [length_splice (by rw [hvalid.1]; omega)]
      exact hvalid.1
    · rw [complete_eq_self z hvalid hclear]
      exact hvalid
  · intro i hi p hp
    rw [hitems] at hi
    obtain ⟨item, hitem, rfl⟩ := List.mem_map.mp hi
    have hvalid := hinv.valid item hitem
    rw [hreal]
    rcases hinv.clear hup item hitem with ⟨first, copy, rfl⟩ | hclear
    · rw [JournalItem.complete, if_pos rfl] at hp
      rcases List.mem_cons.mp hp with rfl | hp
      · -- the first chunk, overwritten at its start
        obtain ⟨hst, hin⟩ := hinv.stored _ hitem ⟨s.journalHdr, first, none⟩ List.mem_cons_self
        have hoff := ((JournalItem.pieces_bounds hvalid
          (p := ⟨s.journalHdr, first, none⟩) List.mem_cons_self).2).trans (hinv.before _ hitem)
        have hfirst : slice s.shim.real s.journalHdr first.length = first := hst
        have hl : (splice first 0 z).length = first.length :=
          length_splice (by rw [hvalid.1]; omega)
        simp only [JournalPiece.stop] at hin hoff
        refine ⟨?_, by simp only [JournalPiece.stop, hl]; omega⟩
        show slice _ s.journalHdr (splice first 0 z).length = splice first 0 z
        rw [hl, slice_writeAt_inside (by omega) (by rw [hvalid.1]; omega), hkeep _ _ hin hoff,
          hfirst]
      · have hge := (JournalItem.mem_headerCopies hvalid.2 hp).2.2.1
        exact hout _ hitem p (List.mem_cons_of_mem _ hp) (Or.inr (by omega))
    · rw [complete_eq_self z hvalid hclear] at hp
      obtain ⟨hstart, hstop⟩ := JournalItem.pieces_bounds hvalid hp
      exact hout item hitem p hp (by omega)
  · intro i hi
    rw [hitems] at hi
    obtain ⟨item, hitem, rfl⟩ := List.mem_map.mp hi
    have hbefore := hinv.before item hitem
    cases item with
    | header offset first copy => exact hbefore
    | record offset pgno image cksum => exact hbefore
    | superJournal offset pgno name => exact hbefore

/-- A record, behind everything that was written. -/
theorem Inv.record (hinv : s.Inv P) {pgno : ℕ} {image : Bytes} (hphase : s.phase = .writing)
    (hpgno : 0 < pgno ∧ pgno < 2 ^ 32) (himage : DatabasePage pgno image)
    (hlen : image.length = s.config.pageSize)
    (hfits : s.codec.cipher.fits s.codec.codec.readReservedBytes = true) :
    (s.pagerAddPageToRollbackJournal P pgno image).Inv P := by
  have hvalid : (JournalItem.record s.journalOff pgno image
      (s.config.pagerCksum s.cksumInit image)).Valid s.config s.codec :=
    ⟨himage, hlen, hpgno, hfits⟩
  obtain ⟨hval, hst⟩ := hinv.toHeld.writeItem (P := P) hvalid le_rfl
    (JournalItem.inferred_record hvalid)
  refine { valid := hval, stored := hst, before := ?_, clear := ?_, behind := ?_, empty := ?_ }
  · intro i hi
    show i.stop s.config ≤ s.journalOff + 8 + s.config.pageSize
    rcases List.mem_append.mp hi with hi | hi
    · have := hinv.before i hi
      omega
    · rw [List.mem_singleton.mp hi, JournalItem.stop]
      omega
  · intro hup i hi
    rcases List.mem_append.mp hi with hi | hi
    · exact hinv.clear hup i hi
    · rw [List.mem_singleton.mp hi]
      exact Or.inr (Or.inr (hinv.behind hphase hup))
  · intro _ hup
    have hbehind := hinv.behind hphase hup
    show s.journalHdr + 12 ≤ s.journalOff + 8 + s.config.pageSize
    omega
  · intro h
    have : s.phase = .closed ∨ s.phase = .idle := h
    rw [hphase] at this
    rcases this with h | h <;> cases h

/-- The name of a super-journal, behind everything that was written. -/
theorem Inv.superJournal (hinv : s.Inv P) {name : Bytes} (hphase : s.phase = .writing)
    (hname : name.length ≠ s.config.pageSize) : (s.writeSuperJournal P name).Inv P := by
  obtain ⟨offset, hoffset⟩ : ∃ o, o = if s.config.fullSync then
      s.config.journalHdrOffset s.journalOff else s.journalOff := ⟨_, rfl⟩
  have hoff : s.journalOff ≤ offset := by
    have := s.config.le_journalHdrOffset s.journalOff
    rw [hoffset]
    split <;> omega
  have hvalid : (JournalItem.superJournal offset (pagerMjPgno s.config.pageSize) name).Valid
      s.config s.codec := hname
  obtain ⟨hval, hst⟩ := hinv.toHeld.writeItem (P := P) hvalid hoff
    (JournalItem.inferred_superJournal hvalid)
  have hstop : ∀ i ∈ s.items ++ [JournalItem.superJournal offset (pagerMjPgno s.config.pageSize)
      name], i.stop s.config ≤ offset + name.length + 20 := by
    intro i hi
    rcases List.mem_append.mp hi with hi | hi
    · have := hinv.before i hi
      omega
    · rw [List.mem_singleton.mp hi, JournalItem.stop]
  have heq : s.writeSuperJournal P name = { (s.writeItem P (.superJournal offset
      (pagerMjPgno s.config.pageSize) name)).truncate (offset + name.length + 20) with
      phase := .finishing, journalOff := offset + name.length + 20 } := by
    rw [hoffset]
    rfl
  rw [heq]
  refine { valid := hval, stored := ?_, before := hstop, clear := ?_, behind := ?_, empty := ?_ }
  · -- cutting the file behind the name takes nothing away from the journal
    intro i hi p hp
    obtain ⟨hpst, hpin⟩ := hst i hi p hp
    have hpstop := ((JournalItem.pieces_bounds (hval i hi) hp).2).trans (hstop i hi)
    rw [JournalPiece.stop] at hpstop hpin
    refine ⟨hpst.congr ?_, ?_⟩
    · show slice (List.take (offset + name.length + 20) _) p.offset p.data.length = _
      rw [slice, List.drop_take, List.take_take, min_eq_left (by omega)]
      rfl
    · show p.stop ≤ (List.take (offset + name.length + 20) _).length
      rw [List.length_take, JournalPiece.stop]
      exact le_min hpstop hpin
  · intro hup i hi
    rcases List.mem_append.mp hi with hi | hi
    · exact hinv.clear hup i hi
    · rw [List.mem_singleton.mp hi]
      exact Or.inr (Or.inr ((hinv.behind hphase hup).trans hoff))
  · intro h
    cases h
  · intro h
    rcases h with h | h <;> cases h

/-- The sync: nothing changes where headers are not completed; otherwise the header is completed,
and a new one may follow. -/
theorem Inv.sync (hinv : s.Inv P) {newHdr : Bool} (cksumInit dbOrigSize : ℕ)
    (hphase : s.phase = .writing ∨ s.phase = .finishing ∧ newHdr = false)
    (hno : newHdr = true → s.config.updatesHeader = true →
      s.config.pageSize ≤ s.config.sectorSize → s.shim.pageNo = 0) :
    (s.syncJournal P newHdr cksumInit dbOrigSize).Inv P := by
  obtain ⟨t, ht⟩ : ∃ t : JournalState,
      t = { s with phase := if newHdr then s.phase else .finishing } := ⟨_, rfl⟩
  have hheld : t.Held P := by
    rw [ht]
    exact { valid := hinv.valid, stored := hinv.stored, before := hinv.before }
  have hopen : ¬(t.phase = .closed ∨ t.phase = .idle) := by
    rw [ht]
    rcases hphase with h | ⟨h, -⟩ <;> cases newHdr <;> simp [h]
  have hbehind : t.phase = .writing → t.config.updatesHeader = true →
      t.journalHdr + 12 ≤ t.journalOff := by
    rw [ht]
    cases newHdr with
    | true => exact hinv.behind
    | false =>
      intro h
      cases h
  have hinvt : t.Inv P :=
    { hheld with
      clear := by
        rw [ht]
        exact hinv.clear
      behind := hbehind
      empty := fun h => absurd h hopen }
  have hsync : s.syncJournal P newHdr cksumInit dbOrigSize =
      if s.config.noSync then t
      else if s.config.safeAppend then { t with journalHdr := s.journalOff }
      else if newHdr then ({ t.completeHeader P with
        journalHdr := s.journalOff, nRec := 0 } : JournalState).writeJournalHdr P cksumInit
          dbOrigSize
      else { t.completeHeader P with journalHdr := s.journalOff } := by
    rw [ht]
    rfl
  rw [hsync]
  by_cases hns : s.config.noSync = true
  · rw [if_pos hns]
    exact hinvt
  rw [if_neg hns]
  by_cases hsa : s.config.safeAppend = true
  · have hup : s.config.updatesHeader = false := by simp [PagerConfig.updatesHeader, hsa]
    have hupt : t.config.updatesHeader = false := by rwa [ht]
    rw [if_pos hsa]
    exact
      { valid := hheld.valid
        stored := hheld.stored
        before := hheld.before
        clear := fun h => by simp [hupt] at h
        behind := fun _ h => by simp [hupt] at h
        empty := fun h => absurd h hopen }
  rw [if_neg hsa]
  have hup : s.config.updatesHeader = true := by simp [PagerConfig.updatesHeader, hns, hsa]
  have hcomplete : (t.completeHeader P).Held P := hinvt.completeHeader (by rwa [ht])
  have hoff : (t.completeHeader P).journalOff = s.journalOff := by
    rw [ht]
    rfl
  cases newHdr with
  | true =>
    have hno' : (t.completeHeader P).shim.pageNo = s.shim.pageNo := by
      obtain ⟨-, -, -, -, h⟩ := t.completeHeader_shim (P := P)
      rw [h, ht]
    have hw : (t.completeHeader P).phase = .writing := by
      rw [ht]
      rcases hphase with h | ⟨-, h⟩
      · exact h
      · cases h
    have hconfig : (t.completeHeader P).config = s.config := by
      rw [ht]
      rfl
    have hheld' : ({ t.completeHeader P with
        journalHdr := s.journalOff, nRec := 0 } : JournalState).Held P :=
      { valid := hcomplete.valid, stored := hcomplete.stored, before := hcomplete.before }
    rw [if_pos rfl]
    refine hheld'.writeJournalHdr cksumInit dbOrigSize hw fun h => ?_
    show (t.completeHeader P).shim.pageNo = 0
    rw [hno']
    exact hno rfl hup (by rw [← hconfig]; exact h)
  | false =>
    rw [if_neg Bool.false_ne_true]
    exact
      { valid := hcomplete.valid
        stored := hcomplete.stored
        before := hcomplete.before
        clear := fun _ i hi => Or.inr (Or.inl (by
          have := hcomplete.before i hi
          rwa [hoff] at this))
        behind := fun h => by
          have : t.phase = .writing := h
          rw [ht] at this
          cases this
        empty := fun h => absurd h hopen }

end JournalState

/-! ### The protocol -/

/-- The condition on a step under which the shim infers what the step writes. A header is written
in chunks shorter than a page, or while no page number is remembered; the name of a super-journal
is not as long as a page; and the read cipher accepts the reserved bytes it is used with. -/
def ShimInfers (s : JournalState) : JournalAction → Prop
  | .begin _ _ => s.config.pageSize ≤ s.config.sectorSize → s.shim.pageNo = 0
  | .sync newHdr _ _ => newHdr = true → s.config.updatesHeader = true →
      s.config.pageSize ≤ s.config.sectorSize → s.shim.pageNo = 0
  | .superJournal name => name.length ≠ s.config.pageSize
  | .record _ _ => s.codec.cipher.fits s.codec.codec.readReservedBytes = true
  | .configure _ _ | .openFile _ | .closeFile | .read _ _ | .finish _ => True

/-- **A step that meets the condition keeps the invariant.** -/
theorem JournalStep.inv {s t : JournalState} {a : JournalAction} (hinv : s.Inv P)
    (hcond : ShimInfers s a) (hstep : JournalStep P s a t) : t.Inv P := by
  obtain ⟨hphase, rfl⟩ := hstep
  cases a with
  | configure config codec =>
    have hempty := hinv.empty hphase
    exact .of_empty hempty fun h => by
      have : s.phase = .writing := h
      rcases hphase with hp | hp <;> rw [hp] at this <;> cases this
  | openFile existing => exact .of_empty (hinv.empty (Or.inl hphase)) fun h => by cases h
  | closeFile => exact .of_empty (hinv.empty (Or.inr hphase)) fun h => by cases h
  | begin cksumInit dbOrigSize =>
    have hempty : s.items = [] := hinv.empty (Or.inr hphase)
    refine JournalState.Held.writeJournalHdr
      { valid := fun i hi => ?_, stored := fun i hi => ?_, before := fun i hi => ?_ }
      cksumInit dbOrigSize rfl hcond
    all_goals
      have : i ∈ s.items := hi
      rw [hempty] at this
      cases this
  | record pgno image =>
    obtain ⟨hphase, hpgno, himage, hlen⟩ := hphase
    exact hinv.record hphase hpgno himage hlen hcond
  | sync newHdr cksumInit dbOrigSize => exact hinv.sync cksumInit dbOrigSize hphase hcond
  | superJournal name => exact hinv.superJournal hphase hcond
  | read count offset =>
    have hreal := s.mcIoRead_real (P := P) count offset s.shim
    have hheld : (s.read P count offset).2.2.Held P :=
      { valid := hinv.valid, stored := ?_, before := hinv.before }
    · exact
        { hheld with clear := hinv.clear, behind := hinv.behind, empty := hinv.empty }
    intro i hi p hp
    show p.StoredIn P s.codec (mcIoRead (builtinDescriptors P) memoryFile s.file count offset
      s.shim).2.2.real ∧ p.stop ≤ (mcIoRead (builtinDescriptors P) memoryFile s.file count offset
      s.shim).2.2.real.length
    rw [hreal]
    exact hinv.stored i hi p hp
  | finish how =>
    refine .of_empty rfl fun h => ?_
    cases how <;> cases h

/-! ### Playing the journal back -/

/-- What a read that plays back a piece delivers: the piece, but for the bytes at the end of an
image that belong to the cipher. -/
def JournalPiece.ReadAs (codec : ReadCodec) (p : JournalPiece) (r : ResultCode × Bytes) : Prop :=
  r.1 = .ok ∧ SameContent
    (if p.page.isSome then codec.cipher.nReserved codec.codec.readReservedBytes else 0) r.2 p.data

/-- What the shim makes of a sequence of reads is right: it remembers the number of the page before
each image, and no other read has the size of a page. -/
def ReadInferred (config : PagerConfig) : ℕ → List JournalPiece → Prop
  | _, [] => True
  | pageNo, p :: ps =>
    match p.page with
    | none => p.data.length ≠ config.pageSize ∧
        ReadInferred config (if p.data.length = 4 then get4byte p.data else pageNo) ps
    | some pgno => pageNo = pgno ∧ ReadInferred config 0 ps

namespace JournalState

variable (s : JournalState)

/-- A read that does not have the size of a page. -/
theorem mcIoRead_verbatim {count offset : ℕ} {shim : Shim Bytes}
    (hsize : count ≠ s.config.pageSize) (hin : offset + count ≤ shim.real.length) :
    ∃ shim', mcIoRead (builtinDescriptors P) memoryFile s.file count offset shim =
        (.ok, slice shim.real offset count, shim') ∧ shim'.real = shim.real ∧
      shim'.pageNo = if count = 4 then get4byte (slice shim.real offset count)
        else shim.pageNo := by
  have hno : ∀ n : ℕ, ¬(count = s.file.pageSize ∧ n ≠ 0) := fun n h => hsize h.1
  have hshort : ¬(ResultCode.ok = ResultCode.ioerrShortRead) := fun h => by cases h
  simp only [mcIoRead_file, xRead_memoryFile hin, hshort, if_false, mcReadMainJournal,
    readJournalPage, encryptedCodec_file, hno]
  by_cases h4 : count = 4
  · exact ⟨_, if_pos h4, rfl, by rw [if_pos h4]⟩
  · exact ⟨_, if_neg h4, rfl, by rw [if_neg h4]⟩

/-- A read of an image after a read of its page number. -/
theorem mcIoRead_image {p : JournalPiece} {pgno : ℕ} {shim : Shim Bytes} (hp : p.page = some pgno)
    (hvalid : p.Valid s.config s.codec) (hst : p.StoredIn P s.codec shim.real)
    (hin : p.stop ≤ shim.real.length) (hno : shim.pageNo = pgno) :
    ∃ plain shim', mcIoRead (builtinDescriptors P) memoryFile s.file p.data.length p.offset shim =
        (.ok, plain, shim') ∧ shim'.real = shim.real ∧ shim'.pageNo = 0 ∧
      SameContent (s.codec.cipher.nReserved s.codec.codec.readReservedBytes) plain p.data := by
  obtain ⟨-, hlen, hne, -⟩ := hvalid pgno hp
  obtain ⟨plain, hcodec, hcontent⟩ := hvalid.decode hp hst shim.env
  have himage : (p.data.length = s.file.pageSize ∧ pgno ≠ 0) = True := eq_true ⟨hlen, hne⟩
  have hshort : ¬(ResultCode.ok = ResultCode.ioerrShortRead) := fun h => by cases h
  refine ⟨plain, { shim with
    pageNo := 0
    log := shim.log ++ [.read p.data.length p.offset .ok] ++ [.codec pgno .load .ok] },
      ?_, rfl, rfl,
    hcontent⟩
  simp only [mcIoRead_file, xRead_memoryFile hin, hshort, if_false, mcReadMainJournal,
    readJournalPage, encryptedCodec_file, hno, himage, if_true, Shim.runCodec, hcodec]

/-- **Reading pieces that are stored.** Each read delivers its piece. -/
theorem readPieces_readAs {ps : List JournalPiece} {shim : Shim Bytes}
    (hvalid : ∀ p ∈ ps, p.Valid s.config s.codec)
    (hst : ∀ p ∈ ps, p.StoredIn P s.codec shim.real ∧ p.stop ≤ shim.real.length)
    (hinf : ReadInferred s.config shim.pageNo ps) :
    List.Forall₂ (JournalPiece.ReadAs s.codec) ps (readPieces P s.file ps shim) := by
  induction ps generalizing shim with
  | nil => exact List.Forall₂.nil
  | cons p ps ih =>
    obtain ⟨hpst, hpin⟩ := hst p List.mem_cons_self
    have hvalid' : ∀ q ∈ ps, q.Valid s.config s.codec :=
      fun q hq => hvalid q (List.mem_cons_of_mem p hq)
    have hst' : ∀ q ∈ ps, q.StoredIn P s.codec shim.real ∧ q.stop ≤ shim.real.length :=
      fun q hq => hst q (List.mem_cons_of_mem p hq)
    rcases hpage : p.page with _ | pgno
    · rw [ReadInferred, hpage] at hinf
      obtain ⟨hsize, hrest⟩ := hinf
      obtain ⟨shim', hread, hreal, hno⟩ := s.mcIoRead_verbatim (P := P) hsize hpin
      have hdata : slice shim.real p.offset p.data.length = p.data := by
        rw [JournalPiece.StoredIn, JournalPiece.EncodedAs, hpage] at hpst
        exact hpst
      rw [hdata] at hread hno
      rw [← hno] at hrest
      simp only [readPieces, hread]
      refine List.Forall₂.cons ⟨rfl, SameContent.refl _ _⟩ (ih hvalid' ?_ hrest)
      rw [hreal]
      exact hst'
    · rw [ReadInferred, hpage] at hinf
      obtain ⟨hno, hrest⟩ := hinf
      obtain ⟨plain, shim', hread, hreal, hno', hcontent⟩ :=
        s.mcIoRead_image (P := P) hpage (hvalid p List.mem_cons_self) hpst hpin hno
      rw [← hno'] at hrest
      simp only [readPieces, hread]
      refine List.Forall₂.cons ⟨rfl, ?_⟩ (ih hvalid' ?_ hrest)
      · rw [hpage]
        exact hcontent
      · rw [hreal]
        exact hst'

end JournalState

namespace JournalItem

variable {config : PagerConfig} {codec : ReadCodec} {file : Bytes}

/-- The reads of an item are of what is stored for it. -/
theorem reads_stored {item : JournalItem} (hvalid : item.Valid config codec)
    (hst : ∀ p ∈ item.pieces config, p.StoredIn P codec file ∧ p.stop ≤ file.length)
    {p : JournalPiece} (hp : p ∈ item.reads) :
    p.Valid config codec ∧ p.StoredIn P codec file ∧ p.stop ≤ file.length := by
  cases item with
  | header offset first copy =>
    obtain ⟨hfirst, hin⟩ := hst ⟨offset, first, none⟩ List.mem_cons_self
    have h32 := config.le_nHeader
    have hlen : first.length = config.nHeader := hvalid.1
    have hslice : slice file offset first.length = first := hfirst
    rw [JournalPiece.stop] at hin
    -- every field of the header is a slice of its first chunk
    have hfield : ∀ o n, o + n ≤ 28 → (⟨offset + o, slice first o n, none⟩ : JournalPiece).Valid
        config codec ∧ (⟨offset + o, slice first o n, none⟩ : JournalPiece).StoredIn P codec file ∧
        (⟨offset + o, slice first o n, none⟩ : JournalPiece).stop ≤ file.length := by
      intro o n hon
      have hl : (slice first o n).length = n := length_slice_of_le (by omega)
      refine ⟨(fun pgno h => by cases h), ?_, ?_⟩
      · show slice file (offset + o) (slice first o n).length = slice first o n
        rw [hl, ← slice_slice (show o + n ≤ first.length by omega), hslice]
      · simp only [JournalPiece.stop, hl]
        simp only at hin
        omega
    have hmem : ∃ o n, o + n ≤ 28 ∧ p = ⟨offset + o, slice first o n, none⟩ := by
      simp only [reads, List.mem_append, List.mem_cons, List.not_mem_nil, or_false] at hp
      rcases hp with (rfl | rfl | rfl | rfl) | hp
      · exact ⟨0, 8, by omega, rfl⟩
      · exact ⟨8, 4, by omega, rfl⟩
      · exact ⟨12, 4, by omega, rfl⟩
      · exact ⟨16, 4, by omega, rfl⟩
      · by_cases h0 : offset = 0
        · simp only [h0, if_true, List.mem_cons, List.not_mem_nil, or_false] at hp
          rcases hp with rfl | rfl
          · exact ⟨20, 4, by omega, by rw [h0]⟩
          · exact ⟨24, 4, by omega, by rw [h0]⟩
        · rw [if_neg h0] at hp
          exact absurd hp List.not_mem_nil
    obtain ⟨o, n, hon, rfl⟩ := hmem
    exact hfield o n hon
  | record offset pgno image cksum => exact ⟨pieces_valid hvalid hp, hst p hp⟩
  | superJournal offset pgno name =>
    have hmem : p ∈ (superJournal offset pgno name).pieces config := by
      simp only [reads, List.mem_cons, List.not_mem_nil, or_false] at hp
      simp only [pieces, List.mem_cons, List.not_mem_nil, or_false]
      rcases hp with rfl | rfl | rfl | rfl
      · exact Or.inr (Or.inr (Or.inl (by congr 1; omega)))
      · exact Or.inr (Or.inr (Or.inr (Or.inl (by congr 1; omega))))
      · exact Or.inr (Or.inr (Or.inr (Or.inr (by congr 1; omega))))
      · exact Or.inr (Or.inl (by congr 1; omega))
    exact ⟨pieces_valid hvalid hmem, hst p hmem⟩

/-- Whatever page number is remembered, the reads of an item are taken for what they are. -/
theorem readInferred_reads {item : JournalItem} (hvalid : item.Valid config codec)
    (pageNo : ℕ) {ps : List JournalPiece} (hps : ∀ n, ReadInferred config n ps) :
    ReadInferred config pageNo (item.reads ++ ps) := by
  have h512 := config.le_pageSize
  cases item with
  | header offset first copy =>
    have h32 := config.le_nHeader
    have hlen : first.length = config.nHeader := hvalid.1
    have hfield : ∀ o n, o + n ≤ 28 → (slice first o n).length ≠ config.pageSize := by
      intro o n hon
      rw [length_slice_of_le (by omega)]
      omega
    refine ⟨hfield 0 8 (by omega), hfield 8 4 (by omega), hfield 12 4 (by omega),
      hfield 16 4 (by omega), ?_⟩
    by_cases h0 : offset = 0
    · rw [if_pos h0]
      exact ⟨hfield 20 4 (by omega), hfield 24 4 (by omega), hps _⟩
    · rw [if_neg h0]
      exact hps _
  | record offset pgno image cksum =>
    obtain ⟨-, -, hpgno, -⟩ := hvalid
    have h4 : ∀ n : ℕ, (put4byte n).length ≠ config.pageSize := by
      intro n
      rw [length_put4byte]
      omega
    exact ⟨h4 pgno, get4byte_put4byte hpgno.2, h4 cksum, hps _⟩
  | superJournal offset pgno name =>
    have h4 : ∀ n : ℕ, (put4byte n).length ≠ config.pageSize := by
      intro n
      rw [length_put4byte]
      omega
    have h8 : aJournalMagic.length ≠ config.pageSize := by
      simp only [aJournalMagic, List.length_cons, List.length_nil]
      omega
    exact ⟨h4 _, h4 _, h8, hvalid, hps _⟩

end JournalItem

/-! ### The round trip -/

/-- The journal is stored as it should be, and a playback by any handle reads what was written. -/
structure JournalState.RoundTrips (P : Primitives) (s : JournalState) : Prop where
  /-- Headers, page numbers, checksums and names are stored as they are, images encrypted with the
  read cipher and the number of their page. -/
  stored : ∀ item ∈ s.items, ∀ p ∈ item.pieces s.config, p.StoredIn P s.codec s.shim.real
  /-- A playback, whatever page number the shim remembers at its start, reads what was written. -/
  readBack : ∀ pageNo, List.Forall₂ (JournalPiece.ReadAs s.codec) s.playbackReads
    (s.readBack P pageNo)

theorem readInferred_items {config : PagerConfig} {codec : ReadCodec} {items : List JournalItem}
    (h : ∀ item ∈ items, item.Valid config codec) (pageNo : ℕ) :
    ReadInferred config pageNo (items.flatMap JournalItem.reads) := by
  induction items generalizing pageNo with
  | nil => trivial
  | cons item items ih =>
    rw [List.flatMap_cons]
    exact JournalItem.readInferred_reads (h item List.mem_cons_self) pageNo
      (ih fun i hi => h i (List.mem_cons_of_mem item hi))

/-- Where the invariant holds the journal makes the round trip. -/
theorem JournalState.Held.roundTrips {s : JournalState} (hinv : s.Held P) : s.RoundTrips P where
  stored := fun item hi p hp => (hinv.stored item hi p hp).1
  readBack := by
    intro pageNo
    have hmem : ∀ item ∈ (s.items.filter JournalItem.isSuperJournal) ++
        s.items.filter (fun item => !item.isSuperJournal), item ∈ s.items := by
      intro item hi
      rcases List.mem_append.mp hi with hi | hi
      · exact (List.mem_filter.mp hi).1
      · exact (List.mem_filter.mp hi).1
    have hreads : ∀ p ∈ s.playbackReads, p.Valid s.config s.codec ∧
        p.StoredIn P s.codec s.shim.real ∧ p.stop ≤ s.shim.real.length := by
      intro p hp
      obtain ⟨item, hi, hp⟩ := List.mem_flatMap.mp hp
      exact JournalItem.reads_stored (hinv.valid item (hmem item hi))
        (hinv.stored item (hmem item hi)) hp
    exact s.readPieces_readAs (fun p hp => (hreads p hp).1) (fun p hp => (hreads p hp).2)
      (readInferred_items (fun item hi => hinv.valid item (hmem item hi)) pageNo)

/-- **The journal round trip.** From a journal file that is closed, in every state that a run of
the protocol reaches, if all its steps meet the condition `ShimInfers`, the journal of the running
transaction is stored as it should be and a playback reads what the pager wrote. -/
theorem journal_roundTrip (P : Primitives) {s t : JournalState} {as : List JournalAction}
    (hclosed : s.phase = .closed) (hitems : s.items = [])
    (hrun : Transition.GuardedRun (JournalStep P) ShimInfers s as t) : t.RoundTrips P := by
  have hinv : s.Inv P := .of_empty hitems fun h => by
    rw [hclosed] at h
    cases h
  exact (hrun.invariant (JournalState.Inv P)
    (fun hi hg hst => JournalStep.inv hi hg hst) hinv).toHeld.roundTrips

/-! ### Two journals

An RC4 database with pages of two sectors, and one with pages of one sector. -/

/-- Pages of `pageSize` bytes on a device with sectors of 512 bytes. -/
def pagesOn512 (pageSize : ℕ) (h : ∃ k, 9 ≤ k ∧ k ≤ 16 ∧ pageSize = 2 ^ k) : PagerConfig where
  pageSize := pageSize
  sectorSize := 512
  noSync := false
  safeAppend := false
  fullSync := true
  pageSize_valid := h
  sectorSize_valid := ⟨9, by omega, by omega, rfl⟩

/-- The journal file of an RC4 database before it is opened. -/
def closedJournal (config : PagerConfig) : JournalState where
  config := config
  codec := ⟨rc4Codec, .rc4 ⟨1, 0, zeros 16⟩, rfl, rfl, rfl, trivial⟩
  phase := .closed
  shim := ⟨[], rc4Env, 0, []⟩
  journalOff := 0
  journalHdr := 0
  nRec := 0
  cksumInit := 0
  items := []

/-- A record of a page of zeros may always be written. -/
theorem record_allowed {s : JournalState} {n : ℕ} (hphase : s.phase = .writing)
    (hn : n = s.config.pageSize) : (JournalAction.record 2 (zeros n)).Allowed s :=
  ⟨hphase, by decide, databasePage_zeros (hn ▸ s.config.le_pageSize), by rw [length_zeros, hn]⟩

/-- RC4 accepts any reserved bytes. -/
theorem record_infers {s : JournalState} {c : RC4Cipher} (h : s.codec.cipher = .rc4 c) (pgno : ℕ)
    (image : Bytes) : ShimInfers s (.record pgno image) := by
  rw [ShimInfers, h]
  rfl

set_option maxRecDepth 10000 in
/-- A transaction with a spill and a super-journal, synced for its commit. -/
theorem journal_roundTrip_spill :
    (([.openFile [], .begin 1 1, .record 2 (zeros 1024), .sync true 2 1, .record 2 (zeros 1024),
      .superJournal [0x6d, 0x6a], .sync false 0 0] : List JournalAction).foldl
        (JournalState.after nullPrimitives)
        (closedJournal (pagesOn512 1024 ⟨10, by decide⟩))).RoundTrips nullPrimitives := by
  have hsector : ¬ 1024 ≤ 512 := by decide
  refine @journal_roundTrip nullPrimitives (closedJournal (pagesOn512 1024 ⟨10, by decide⟩)) _
    [.openFile [], .begin 1 1, .record 2 (zeros 1024), .sync true 2 1, .record 2 (zeros 1024),
      .superJournal [0x6d, 0x6a], .sync false 0 0] rfl rfl ?_
  refine .cons trivial ⟨rfl, rfl⟩ ?_
  refine .cons (fun h => absurd h hsector) ⟨rfl, rfl⟩ ?_
  refine .cons (record_infers rfl _ _) ⟨record_allowed rfl rfl, rfl⟩ ?_
  refine .cons (fun _ _ h => absurd h hsector) ⟨Or.inl rfl, rfl⟩ ?_
  refine .cons (record_infers rfl _ _) ⟨record_allowed rfl rfl, rfl⟩ ?_
  refine .cons (show 2 ≠ 1024 by decide) ⟨rfl, rfl⟩ ?_
  refine .cons (fun h => by cases h) ⟨Or.inr ⟨rfl, rfl⟩, rfl⟩ ?_
  exact .nil _

namespace JournalState

variable (s : JournalState)

/-- On an RC4 database a write that is taken for an image is stored encrypted. -/
theorem mcIoWrite_rc4 (hcodec : s.codec.codec = rc4Codec) {data : Bytes} (offset : ℕ)
    {shim : Shim Bytes} (hlen : data.length = s.config.pageSize) (hno : shim.pageNo ≠ 0) :
    (mcIoWrite (builtinDescriptors P) memoryFile s.file data offset shim).2.real =
      writeAt shim.real offset (sqlite3mcRC4 (zeros 16) data) := by
  have hwrite : mcIoWrite (builtinDescriptors P) memoryFile s.file data offset shim =
      mcWriteMainJournal (builtinDescriptors P) memoryFile s.file data offset shim := rfl
  have hsize : s.file.pageSize = s.config.pageSize := rfl
  simp only [hwrite, mcWriteMainJournal, writeJournalPage, encryptedCodec_file, hcodec, hsize, hlen,
    hno, ne_eq, not_false_eq_true, and_self, if_true, xWrite_memoryFile]
  rfl

/-- A header of one chunk is the last thing a spill writes. -/
theorem syncJournal_shim (hsync : s.config.noSync = false) (hsafe : s.config.safeAppend = false)
    (hone : s.config.headerChunks = 1) (cksumInit dbOrigSize : ℕ) :
    (s.syncJournal P true cksumInit dbOrigSize).shim =
      (mcIoWrite (builtinDescriptors P) memoryFile s.file
        (s.config.journalHdr cksumInit dbOrigSize) (s.config.journalHdrOffset s.journalOff)
        (s.completeHeader P).shim).2 := by
  have hcopies : (s.completeHeader P).config.headerChunks - 1 = 0 := by
    rw [show (s.completeHeader P).config = s.config from rfl, hone]
  simp only [syncJournal, hsync, hsafe, if_true, Bool.false_eq_true, if_false, writeJournalHdr,
    writeItem, JournalItem.pieces, hcopies, JournalItem.headerCopies, writePieces]
  rfl

end JournalState

/-- A spill in a journal with pages of one sector. -/
def spilledJournal : JournalState :=
  ([.openFile [], .begin 1 1, .record 2 (zeros 512), .sync true 1 1] : List JournalAction).foldl
    (JournalState.after nullPrimitives) (closedJournal (pagesOn512 512 ⟨9, by decide⟩))

/-- The journal before its spill. -/
def recordedJournal : JournalState :=
  ([.openFile [], .begin 1 1, .record 2 (zeros 512)] : List JournalAction).foldl
    (JournalState.after nullPrimitives) (closedJournal (pagesOn512 512 ⟨9, by decide⟩))

theorem recordedJournal_config : recordedJournal.config = pagesOn512 512 ⟨9, by decide⟩ := by
  rw [recordedJournal, List.foldl]
  rfl

theorem spilledJournal_eq :
    spilledJournal = recordedJournal.syncJournal nullPrimitives true 1 1 := by
  rw [spilledJournal, recordedJournal]
  simp only [List.foldl_cons, List.foldl_nil]
  rw [← JournalState.after]

set_option maxRecDepth 100000 in
/-- The shim still remembers the checksum of the record. -/
theorem recordedJournal_pageNo :
    (recordedJournal.completeHeader nullPrimitives).shim.pageNo ≠ 0 := by
  decide

theorem recordedJournal_offset :
    recordedJournal.config.journalHdrOffset recordedJournal.journalOff = 1536 := by
  rw [recordedJournal_config]
  decide

/-- The header behind the record does not begin with the zero that the pager wrote. -/
theorem spilledJournal_header : (slice spilledJournal.shim.real 1536 512)[0]? ≠ some 0 := by
  have hshim := recordedJournal.syncJournal_shim (P := nullPrimitives)
    (by rw [recordedJournal_config]; rfl) (by rw [recordedJournal_config]; rfl)
    (by rw [recordedJournal_config]; decide) 1 1
  have hlen : (recordedJournal.config.journalHdr 1 1).length = 512 := by
    rw [PagerConfig.length_journalHdr, recordedJournal_config]
    rfl
  have hfirst : (recordedJournal.config.journalHdr 1 1)[0]? = some 0 := by
    rw [recordedJournal_config]
    rfl
  have hslice := slice_writeAt_self (recordedJournal.completeHeader nullPrimitives).shim.real 1536
    (sqlite3mcRC4 (zeros 16) (recordedJournal.config.journalHdr 1 1))
  rw [length_sqlite3mcRC4, hlen] at hslice
  rw [spilledJournal_eq, hshim, recordedJournal.mcIoWrite_rc4 rfl _ ?_ recordedJournal_pageNo,
    recordedJournal_offset, hslice, sqlite3mcRC4_zeros_first hfirst]
  · decide
  · rw [hlen, recordedJournal_config]
    rfl

set_option maxRecDepth 10000 in
/-- **A header of the size of a page is stored encrypted.** In a journal with pages of one sector
the header that follows a spilled record is taken for the image of a page, because the shim still
remembers the checksum of that record as the page number. -/
theorem journal_header_encrypted :
    ¬ ∀ (P : Primitives) (s t : JournalState) (as : List JournalAction), s.phase = .closed →
      s.items = [] → Transition.Run (JournalStep P) s as t → t.RoundTrips P := by
  intro h
  have hrun : Transition.Run (JournalStep nullPrimitives)
      (closedJournal (pagesOn512 512 ⟨9, by decide⟩))
      [.openFile [], .begin 1 1, .record 2 (zeros 512), .sync true 1 1] spilledJournal :=
    .cons ⟨rfl, rfl⟩ (.cons ⟨rfl, rfl⟩ (.cons ⟨record_allowed rfl rfl, rfl⟩
      (.cons ⟨Or.inl rfl, rfl⟩ (.nil _))))
  have hstored := (h nullPrimitives _ _ _ rfl rfl hrun).stored
  have hslice : slice spilledJournal.shim.real 1536 512 =
      (pagesOn512 512 ⟨9, by decide⟩).journalHdr 1 1 :=
    hstored _ (List.mem_append_right _ List.mem_cons_self) _ List.mem_cons_self
  apply spilledJournal_header
  rw [hslice]
  rfl

end MultipleCiphers
