import MultipleCiphers.Wal.Frames
import MultipleCiphers.Wal.Positions

/-!
# The writer of the log in the standard mode

In the standard mode a page is encrypted before it gets into the log, and the shim passes the writes
on as they are. The checksums are computed from the encrypted pages.

The writer may overwrite frames of its transaction, repeat the last frame and split a write at a
sync point. Whatever it does, the frames are encrypted under their own numbers. The frames from the
first on that was overwritten are without a checksum until the checksums are made up for.

## Main definitions

* `Codec.EqualCiphers` — a codec whose read and write cipher are equal.
* `WalState.Writing` — the file while `walFrames` writes.
* `WalState.Rewriting` — the file while checksums are made up for.

## Main results

* `WalState.Writing.append`, `WalState.Writing.overwrite` — a frame is written.
* `walWritePages_writing`, `walRewriteChecksums_writing`, `walFinish_writing` — the loops of
  `walFrames`.
-/

namespace MultipleCiphers

open Bytes

/-! ### The codec and the file -/

/-- A codec whose read and write cipher are equal, with as many reserved bytes as the cipher needs.
The key operations give a codec those that its cipher asks for. -/
structure Codec.EqualCiphers (codec : Codec Cipher) (cipher : Cipher) : Prop where
  isEncrypted : codec.isEncrypted = true
  hasReadCipher : codec.hasReadCipher = true
  hasWriteCipher : codec.hasWriteCipher = true
  readCipher : codec.readCipher = some cipher
  writeCipher : codec.writeCipher = some cipher
  reserved : codec.writeReservedBytes = codec.readReservedBytes
  wellFormed : cipher.WellFormed
  fits : cipher.fits codec.readReservedBytes = true

theorem Codec.EqualCiphers.readsWith {codec : Codec Cipher} {cipher : Cipher}
    (h : codec.EqualCiphers cipher) : codec.ReadsWith cipher :=
  ⟨h.isEncrypted, h.hasReadCipher, h.readCipher, h.wellFormed, h.fits⟩

/-- The log in the standard mode, with the shim as top VFS. -/
structure WalState.Standard (cipher : Cipher) (s : WalState) : Prop where
  codec : s.codec.EqualCiphers cipher
  walLegacy : s.codec.walLegacy = 0
  vfsOnTop : s.config.vfsOnTop = true

section Standard

variable {P : Primitives} {cipher : Cipher} {s : WalState}

theorem WalState.Standard.withShim (h : s.Standard cipher) (shim : Shim Bytes) :
    (s.withShim shim).Standard cipher := ⟨h.codec, h.walLegacy, h.vfsOnTop⟩

/-- Writes pass the shim. -/
theorem WalState.Standard.write (h : s.Standard cipher) (data : Bytes) (offset : ℕ) :
    ∃ shim, s.write P data offset = s.withShim shim ∧
      shim.real = writeAt s.shim.real offset data := by
  have hnone : s.walFile.encryptedCodec.filter (fun codec => codec.walLegacy ≠ 0) = none := by
    simp [McFile.encryptedCodec, WalState.walFile, h.codec.isEncrypted, h.walLegacy]
  have hkind : s.walFile.kind = .wal := rfl
  refine ⟨_, rfl, ?_⟩
  simp only [mcIoWrite, hkind, mcWriteWal, hnone, xWrite_memoryFile]

/-- A write that is split at a sync point. -/
theorem walWriteToLog_standard (h : s.Standard cipher) (iSyncPoint : ℕ) (pContent : Bytes)
    {iOffset : ℕ} (hin : iOffset ≤ s.shim.real.length) :
    ∃ shim, walWriteToLog P s iSyncPoint pContent iOffset = s.withShim shim ∧
      shim.real = writeAt s.shim.real iOffset pContent := by
  by_cases hsplit : iOffset < iSyncPoint ∧ iOffset + pContent.length ≥ iSyncPoint
  · obtain ⟨shim₁, hw₁, hreal₁⟩ := h.write (P := P) (pContent.take (iSyncPoint - iOffset)) iOffset
    by_cases hrest : pContent.length - (iSyncPoint - iOffset) = 0
    · refine ⟨shim₁, ?_, ?_⟩
      · rw [walWriteToLog, if_pos hsplit]
        simp only [hrest, if_true, hw₁]
      · rw [hreal₁, List.take_of_length_le (by omega)]
    · obtain ⟨shim₂, hw₂, hreal₂⟩ := (h.withShim shim₁).write (P := P)
        (pContent.drop (iSyncPoint - iOffset)) (iOffset + (iSyncPoint - iOffset))
      have hlen : (pContent.take (iSyncPoint - iOffset)).length = iSyncPoint - iOffset := by
        rw [List.length_take]
        omega
      refine ⟨shim₂, ?_, ?_⟩
      · rw [walWriteToLog, if_pos hsplit]
        simp only [hrest, if_false, hw₁, hw₂]
        rfl
      · have happ := writeAt_append (b := pContent.drop (iSyncPoint - iOffset))
          (a := pContent.take (iSyncPoint - iOffset)) hin
        rw [hlen, List.take_append_drop] at happ
        rw [hreal₂, ← happ, ← hreal₁]
        rfl
  · rw [walWriteToLog, if_neg hsplit]
    exact h.write pContent iOffset

/-- The page is encrypted for the log. -/
theorem walPagerCodec_standard (h : s.Standard cipher) {p : PgHdr} (hp : p.Valid s.config) :
    ∃ image shim, walPagerCodec P s p = (image, s.withShim shim) ∧
      shim.real = s.shim.real ∧ image.length = s.config.szPage ∧
      Encrypts P cipher s.codec.readReservedBytes p.pgno p.data image := by
  obtain ⟨-, hlen, henc⟩ := encryptPage_encrypts (P := P) h.codec.wellFormed h.codec.fits hp.page
    s.codec.writeCipherType s.shim.env
  have hfd : pagerWalCodec s.fd = some s.codec := by
    simp [WalState.fd, h.vfsOnTop, pagerWalCodec, h.walLegacy, h.codec.isEncrypted]
  have hcodec : sqlite3mcPagerCodec (builtinDescriptors P) s.fd p.data p.pgno s.shim.env =
      (builtinDescriptors P s.codec.writeCipherType).encryptPage cipher p.pgno p.data
        s.codec.readReservedBytes s.shim.env := by
    simp [sqlite3mcPagerCodec, hfd, sqlite3mcCodec, h.codec.isEncrypted, h.codec.hasWriteCipher,
      sqlite3mcEncrypt, h.codec.writeCipher, h.codec.reserved]
  rw [walPagerCodec]
  simp only [hcodec]
  exact ⟨_, _, rfl, rfl, hlen.trans hp.length, henc⟩

/-- What a frame is made of. -/
theorem walWriteOneFrame_standard (h : s.Standard cipher) {p : PgHdr} (hp : p.Valid s.config)
    (hsalt : s.hdr.aSalt.length = 8) (iSyncPoint nTruncate : ℕ) {iOffset : ℕ}
    (hin : iOffset ≤ s.shim.real.length) :
    ∃ header image shim aFrameCksum, walWriteOneFrame P s iSyncPoint p nTruncate iOffset =
        { s with shim, hdr := { s.hdr with aFrameCksum } } ∧
      shim.real = writeAt s.shim.real iOffset (header ++ image) ∧ header.length = 24 ∧
      slice header 0 4 = put4byte p.pgno ∧ image.length = s.config.szPage ∧
      Encrypts P cipher s.codec.readReservedBytes p.pgno p.data image ∧
      let new := walChecksumBytes s.hdr.bigEndCksum image
        (walChecksumBytes s.hdr.bigEndCksum (put4byte p.pgno ++ put4byte nTruncate)
          s.hdr.aFrameCksum)
      (s.iReCksum = 0 → aFrameCksum = new ∧
        header = encodedFrame p.pgno nTruncate s.hdr.aSalt new) := by
  obtain ⟨image, shim₁, hcodec, hreal₁, himage, henc⟩ := walPagerCodec_standard (P := P) h hp
  obtain ⟨header, aFrameCksum, hencode, hheader, hnumber, hnew⟩ :=
    walEncodeFrame_eq (s.withShim shim₁) hsalt p.pgno nTruncate image
  have h₂ : WalState.Standard cipher { s.withShim shim₁ with
      hdr := { s.hdr with aFrameCksum } } := ⟨h.codec, h.walLegacy, h.vfsOnTop⟩
  rw [← hreal₁] at hin
  obtain ⟨shim₃, hlog₃, hreal₃⟩ := walWriteToLog_standard (P := P) h₂ iSyncPoint header hin
  have hin₄ : iOffset + walFrameHeaderSize ≤ shim₃.real.length := by
    rw [hreal₃, length_writeAt, hheader]
    exact le_max_right _ _
  obtain ⟨shim₄, hlog₄, hreal₄⟩ := walWriteToLog_standard (P := P) (h₂.withShim shim₃) iSyncPoint
    image hin₄
  refine ⟨header, image, shim₄, aFrameCksum, ?_, ?_, hheader, hnumber, himage, henc, hnew⟩
  · rw [walWriteOneFrame, hcodec]
    simp only [hencode]
    exact (congrArg (walWriteToLog P · iSyncPoint image _) hlog₃).trans hlog₄
  · have happ := writeAt_append (a := header) (b := image) hin
    rw [hheader] at happ
    rw [hreal₄, ← hreal₁, ← happ]
    exact congrArg (writeAt · _ _) hreal₃

/-! ### The file while frames are written -/

variable (P cipher) in
/-- The file while `walFrames` writes: it holds the frames, and those before the first that was
overwritten have valid checksums. -/
structure WalState.Writing (s : WalState) (frames : List (ℕ × Bytes)) : Prop where
  inside : s.config.walFrameOffset (frames.length + 1) ≤ s.shim.real.length
  held : Held P cipher s.codec.readReservedBytes s.config s.shim.real frames
  valid : ∀ i, 0 < i → i ≤ frames.length → s.iReCksum = 0 ∨ i < s.iReCksum →
    CksumValid s.config s.hdr.bigEndCksum s.shim.real i
  cksum : s.iReCksum = 0 → s.hdr.aFrameCksum = storedCksum s.config s.shim.real frames.length
  reCksum_le : s.iReCksum ≤ frames.length
  aSalt : s.hdr.aSalt.length = 8

theorem WalState.Standard.same {t : WalState} (h : s.Standard cipher) (hst : s.Same t) :
    t.Standard cipher :=
  ⟨hst.codec ▸ h.codec, hst.codec ▸ h.walLegacy, hst.config ▸ h.vfsOnTop⟩

/-- **A frame is appended.** -/
theorem WalState.Writing.append {frames : List (ℕ × Bytes)} (hw : s.Writing P cipher frames)
    (h : s.Standard cipher) {p : PgHdr} (hp : p.Valid s.config) (iSyncPoint nTruncate : ℕ) :
    let t := walWriteOneFrame P s iSyncPoint p nTruncate
      (s.config.walFrameOffset (frames.length + 1))
    t.Writing P cipher (frames ++ [p.frame]) ∧ s.Same t ∧ t.frames = s.frames ∧
      ∀ i, i ≤ frames.length →
        storedCksum s.config t.shim.real i = storedCksum s.config s.shim.real i := by
  obtain ⟨header, image, shim, aFrameCksum, hone, hreal, hheader, hnumber, himage, henc, hnew⟩ :=
    walWriteOneFrame_standard (P := P) h hp hw.aSalt iSyncPoint nTruncate hw.inside
  have hd : (header ++ image).length = s.config.szFrame := by
    rw [List.length_append, hheader, himage]
    rfl
  have hnum : get4byte (slice header 0 4) = p.frame.1 := by
    rw [hnumber]
    exact get4byte_put4byte hp.pgno_lt
  have hheld := hw.held.append hw.inside hheader himage hnum henc hp.page hp.length hp.pgno_ne
  have hbefore : ∀ i, i ≤ frames.length →
      storedCksum s.config shim.real i = storedCksum s.config s.shim.real i := by
    intro i hi
    rw [hreal]
    exact storedCksum_before hw.inside (s.config.walFrameOffset_mono (by omega))
  have hslice : slice shim.real (s.config.walFrameOffset (frames.length + 1)) s.config.szFrame =
      header ++ image := by
    rw [hreal, ← hd, slice_writeAt_self]
  have hlast : s.iReCksum = 0 →
      aFrameCksum = storedCksum s.config shim.real (frames.length + 1) ∧
      CksumValid s.config s.hdr.bigEndCksum shim.real (frames.length + 1) := by
    intro h0
    obtain ⟨hh, hencoded⟩ := hnew h0
    rw [hencoded] at hslice
    obtain ⟨hstored, hvalid⟩ := cksumValid_encoded hw.aSalt himage (Nat.succ_pos frames.length)
      ((hbefore frames.length le_rfl).trans (hw.cksum h0).symm) hslice
    exact ⟨hh.trans hstored.symm, hvalid⟩
  have hlen : (frames ++ [p.frame]).length = frames.length + 1 := by
    rw [List.length_append]
    rfl
  intro t
  have ht : t = { s with shim, hdr := { s.hdr with aFrameCksum } } := hone
  clear_value t
  subst ht
  refine ⟨⟨?_, ?_, ?_, ?_, ?_, hw.aSalt⟩, WalState.Same.cksum s shim aFrameCksum, rfl, hbefore⟩
  · rw [hlen, s.config.walFrameOffset_succ (Nat.succ_pos _)]
    show _ ≤ shim.real.length
    rw [hreal, length_writeAt, hd]
    exact le_max_right _ _
  · show Held P cipher s.codec.readReservedBytes s.config shim.real (frames ++ [p.frame])
    rw [hreal]
    exact hheld
  · intro i hpos hi hre'
    show CksumValid s.config s.hdr.bigEndCksum shim.real i
    rw [hlen] at hi
    rcases Nat.lt_or_ge i (frames.length + 1) with hlt | hge
    · rw [hreal]
      exact (hw.valid i hpos (by omega) hre').before hpos hw.inside
        (s.config.walFrameOffset_mono (by omega))
    · have hle := hw.reCksum_le
      obtain rfl : i = frames.length + 1 := by omega
      exact (hlast (hre'.resolve_right (by simp only; omega))).2
  · intro h0
    rw [hlen]
    exact (hlast h0).1
  · rw [hlen]
    exact hw.reCksum_le.trans (Nat.le_succ _)

/-- **The page of a frame is overwritten.** Its checksum, and those behind it, are to be made up
for. -/
theorem WalState.Writing.overwrite {acc : List (ℕ × Bytes)}
    (hw : s.Writing P cipher (s.frames ++ acc)) (h : s.Standard cipher) {p : PgHdr}
    (hp : p.Valid s.config) {iWrite : ℕ} (hpos : 0 < iWrite) (hle : iWrite ≤ s.frames.length)
    (hfind : s.frames[iWrite - 1]?.map Prod.fst = some p.pgno) :
    let t := walOverwrite P s iWrite p
    t.Writing P cipher (t.frames ++ acc) ∧
      ∀ i, storedCksum s.config t.shim.real i = storedCksum s.config s.shim.real i := by
  obtain ⟨iReCksum, hre⟩ : ∃ n, n = if s.iReCksum = 0 ∨ iWrite < s.iReCksum then iWrite
    else s.iReCksum := ⟨_, rfl⟩
  have hfirst :
      (if s.iReCksum = 0 ∨ iWrite < s.iReCksum then { s with iReCksum := iWrite } else s) =
      { s with iReCksum } := by
    rw [hre]
    split <;> rfl
  have h₁ : WalState.Standard cipher { s with iReCksum } := ⟨h.codec, h.walLegacy, h.vfsOnTop⟩
  obtain ⟨image, shim₂, hcodec, hreal₂, himage, henc⟩ := walPagerCodec_standard (P := P) h₁ hp
  obtain ⟨shim₃, hwrite, hreal₃⟩ := (h₁.withShim shim₂).write (P := P) image
    ((WalState.withShim { s with iReCksum } shim₂).config.walFrameOffset iWrite +
      walFrameHeaderSize)
  have hreal : shim₃.real = writeAt s.shim.real
      (s.config.walFrameOffset iWrite + walFrameHeaderSize) image := by
    rw [hreal₃, ← hreal₂]
    rfl
  obtain ⟨f, hf, hpgno⟩ : ∃ f, (s.frames ++ acc)[iWrite - 1]? = some f ∧ f.1 = p.pgno := by
    rw [List.getElem?_append_left (by omega)]
    obtain ⟨f, hf, hpgno⟩ := Option.map_eq_some_iff.mp hfind
    exact ⟨f, hf, hpgno⟩
  have hframe := hw.held _ f hf
  rw [← hpgno] at henc
  have hpage := hp.page
  rw [← hpgno] at hpage
  have hheld := hw.held.overwrite hf himage henc hpage hp.length
  rw [show iWrite - 1 + 1 = iWrite by omega, ← hreal, hpgno] at hheld
  have hin := hframe.inside
  rw [show iWrite - 1 + 1 = iWrite by omega] at hin
  have hsz := s.config.szFrame_eq
  have hhdr : walFrameHeaderSize = 24 := rfl
  have hoff : s.config.walFrameOffset iWrite + walFrameHeaderSize ≤ s.shim.real.length := by omega
  intro t
  have ht : t = { s with
      iReCksum
      shim := shim₃
      frames := s.frames.set (iWrite - 1) p.frame } := by
    show walOverwrite P s iWrite p = _
    rw [walOverwrite]
    simp only [hfirst, hcodec, hwrite]
    rfl
  clear_value t
  subst ht
  have hset : s.frames.set (iWrite - 1) p.frame ++ acc =
      (s.frames ++ acc).set (iWrite - 1) p.frame := by
    rw [List.set_append_left _ _ (by omega)]
  refine ⟨⟨?_, ?_, ?_, ?_, ?_, hw.aSalt⟩, ?_⟩
  · show s.config.walFrameOffset ((s.frames.set (iWrite - 1) p.frame ++ acc).length + 1) ≤
      shim₃.real.length
    rw [hset, List.length_set, hreal, length_writeAt]
    exact hw.inside.trans (le_max_left _ _)
  · show Held P cipher s.codec.readReservedBytes s.config shim₃.real
      (s.frames.set (iWrite - 1) p.frame ++ acc)
    rw [hset]
    exact hheld
  · intro i hipos hi hvalid
    show CksumValid s.config s.hdr.bigEndCksum shim₃.real i
    simp only [hset, List.length_set] at hi
    have hlt : i < iWrite ∧ (s.iReCksum = 0 ∨ i < s.iReCksum) := by
      simp only [hre] at hvalid
      split at hvalid <;> omega
    rw [hreal]
    refine (hw.valid i hipos hi hlt.2).before hipos hoff ?_
    have hmono := s.config.walFrameOffset_mono (show i + 1 ≤ iWrite by omega)
    omega
  · intro h0
    exfalso
    simp only [hre] at h0
    split at h0 <;> omega
  · have hle' := hw.reCksum_le
    simp only [hset, List.length_set]
    rw [List.length_append] at hle' ⊢
    rw [hre]
    split <;> omega
  · intro i
    show storedCksum s.config shim₃.real i = _
    rw [hreal]
    exact storedCksum_overwrite hpos hoff himage

/-- **The dirty pages are written.** -/
theorem walWritePages_writing (iFirst nTruncate : ℕ) (isCommit : Bool) {pList : List PgHdr}
    (hw : s.Writing P cipher s.frames) (h : s.Standard cipher)
    (hpages : ∀ p ∈ pList, p.Valid s.config) (hlen : s.frames.length = s.hdr.mxFrame) :
    let r := walWritePages P iFirst nTruncate isCommit s.hdr.mxFrame pList s
    r.2.Writing P cipher (r.2.frames ++ r.1.map PgHdr.frame) ∧
      ∀ i, i ≤ s.hdr.mxFrame →
        storedCksum s.config r.2.shim.real i = storedCksum s.config s.shim.real i := by
  obtain ⟨I, hI⟩ : ∃ I : WalState → List (ℕ × Bytes) → Prop, I = fun t frames =>
    s.Same t ∧ s.hdr.mxFrame ≤ frames.length ∧ t.Writing P cipher frames ∧
      ∀ i, i ≤ s.hdr.mxFrame →
        storedCksum s.config t.shim.real i = storedCksum s.config s.shim.real i := ⟨_, rfl⟩
  have happend : ∀ (t : WalState) (frames : List (ℕ × Bytes)), ∀ p ∈ pList, ∀ nDbSize, I t frames →
      I (walWriteOneFrame P t 0 p nDbSize (t.config.walFrameOffset (frames.length + 1)))
        (frames ++ [p.frame]) := by
    rw [hI]
    rintro t frames p hp nDbSize ⟨hsame, hle, hw₁, hkept₁⟩
    obtain ⟨hw₂, hsame₂, -, hkept₂⟩ := hw₁.append (h.same hsame)
      (by rw [hsame.config]; exact hpages p hp) 0 nDbSize
    refine ⟨hsame.trans hsame₂, ?_, hw₂, ?_⟩
    · rw [List.length_append]
      omega
    · intro i hi
      rw [← hkept₁ i hi, ← hsame.config]
      exact hkept₂ i (hi.trans hle)
  have hover : ∀ (t : WalState) (acc : List (ℕ × Bytes)), ∀ p ∈ pList, ∀ iWrite, 0 < iWrite →
      iWrite ≤ t.frames.length → t.frames[iWrite - 1]?.map Prod.fst = some p.pgno →
      I t (t.frames ++ acc) →
        I (walOverwrite P t iWrite p) ((walOverwrite P t iWrite p).frames ++ acc) := by
    rw [hI]
    rintro t acc p hp iWrite hpos hle' hfind ⟨hsame, hle, hw₁, hkept₁⟩
    obtain ⟨hw₂, hkept₂⟩ := hw₁.overwrite (h.same hsame)
      (by rw [hsame.config]; exact hpages p hp) hpos hle' hfind
    have hsame₂ := walOverwrite_same (P := P) hfind
    refine ⟨hsame.trans hsame₂, ?_, hw₂, ?_⟩
    · rw [List.length_append, hsame₂.length_frames, ← List.length_append]
      exact hle
    · intro i hi
      rw [← hkept₁ i hi, ← hsame.config]
      exact hkept₂ i
  have hinit : I s (s.frames ++ []) := by
    rw [hI, List.append_nil]
    exact ⟨WalState.Same.refl s, hlen.ge, hw, fun i _ => rfl⟩
  have hrule := walWritePages_rule (P := P) iFirst nTruncate isCommit happend hover hinit
    (by rw [List.append_nil, hlen]) hlen
  simp only [hI, List.append_nil] at hrule
  exact ⟨hrule.2.2.1, hrule.2.2.2⟩

/-! ### Making up for the checksums -/

/-- A read that does not have the size of a page delivers the bytes of the file. -/
theorem WalState.Standard.read (h : s.Standard cipher) {count offset : ℕ}
    (hsize : count ≠ s.config.szPage) (hin : offset + count ≤ s.shim.real.length) :
    ∃ shim, s.read P count offset = (.ok, slice s.shim.real offset count, s.withShim shim) ∧
      shim.real = s.shim.real := by
  have hcodec : s.walFile.encryptedCodec = some s.codec := by
    simp [McFile.encryptedCodec, WalState.walFile, h.codec.isEncrypted]
  have hkind : s.walFile.kind = .wal := rfl
  have hlegacy : ¬(s.codec.walLegacy ≠ 0 ∧ count = s.walFile.pageSize + walFrameHeaderSize) :=
    fun hc => hc.1 h.walLegacy
  have hsize' : ¬ count = s.walFile.pageSize := hsize
  simp only [WalState.read, mcIoRead, xRead_memoryFile hin, hkind, mcReadWal, hcodec, hsize',
    hlegacy, if_false, reduceCtorEq]
  exact ⟨_, rfl, rfl⟩

/-- A whole frame is read as it is. -/
theorem WalState.Standard.readFrame (h : s.Standard cipher) {iFrame : ℕ}
    (hin : s.config.walFrameOffset iFrame + s.config.szFrame ≤ s.shim.real.length) :
    ∃ shim, s.readFrame P iFrame =
        (.ok, slice s.shim.real (s.config.walFrameOffset iFrame) s.config.szFrame,
          s.withShim shim) ∧ shim.real = s.shim.real := by
  have hsz : s.config.szPage + walFrameHeaderSize = s.config.szFrame := Nat.add_comm _ _
  have hne : s.config.szFrame ≠ s.config.szPage := by
    rw [s.config.szFrame_eq]
    omega
  rw [WalState.readFrame, hsz]
  exact h.read hne hin

variable (P cipher) in
/-- The file while checksums are made up for: those before frame `iRead` are valid. -/
structure WalState.Rewriting (s : WalState) (frames : List (ℕ × Bytes)) (iRead : ℕ) : Prop where
  inside : s.config.walFrameOffset (frames.length + 1) ≤ s.shim.real.length
  held : Held P cipher s.codec.readReservedBytes s.config s.shim.real frames
  valid : ∀ i, 0 < i → i < iRead → CksumValid s.config s.hdr.bigEndCksum s.shim.real i
  cksum : s.hdr.aFrameCksum = storedCksum s.config s.shim.real (iRead - 1)
  reCksum : s.iReCksum = 0
  aSalt : s.hdr.aSalt.length = 8

/-- **The header of one frame is rewritten.** -/
theorem WalState.Rewriting.step {frames : List (ℕ × Bytes)} {iRead : ℕ}
    (hw : s.Rewriting P cipher frames iRead) (h : s.Standard cipher) (hpos : 0 < iRead)
    (hle : iRead ≤ frames.length) :
    ∃ shim t, s.readFrame P iRead =
        (.ok, slice s.shim.real (s.config.walFrameOffset iRead) s.config.szFrame,
          s.withShim shim) ∧
      (let aBuf := slice s.shim.real (s.config.walFrameOffset iRead) s.config.szFrame
       let e := walEncodeFrame (s.withShim shim) (get4byte (slice aBuf 0 4))
         (get4byte (slice aBuf 4 4)) (aBuf.drop walFrameHeaderSize)
       e.2.write P e.1 (e.2.config.walFrameOffset iRead) = t) ∧
      t.Rewriting P cipher frames (iRead + 1) ∧ s.Same t := by
  have hsz := s.config.szFrame_eq
  have hhdr : walFrameHeaderSize = 24 := rfl
  obtain ⟨k, rfl⟩ : ∃ k, iRead = k + 1 := ⟨iRead - 1, by omega⟩
  have hframe := hw.held k _ (List.getElem?_eq_getElem (by omega))
  have hin := hframe.inside
  obtain ⟨shim, hread, hreal⟩ := h.readFrame (P := P) hin
  obtain ⟨aBuf, haBuf⟩ : ∃ b, slice s.shim.real (s.config.walFrameOffset (k + 1))
    s.config.szFrame = b := ⟨_, rfl⟩
  have hlenBuf : aBuf.length = s.config.szFrame := by
    rw [← haBuf]
    exact length_slice_of_le hin
  obtain ⟨header, aFrameCksum, hencode, hheader, hnumber, hnew⟩ := walEncodeFrame_eq
    (s.withShim shim) hw.aSalt (get4byte (slice aBuf 0 4)) (get4byte (slice aBuf 4 4))
    (aBuf.drop walFrameHeaderSize)
  obtain ⟨hcksum, hencoded⟩ := hnew hw.reCksum
  have h₂ : WalState.Standard cipher { s.withShim shim with
      hdr := { s.hdr with aFrameCksum } } := ⟨h.codec, h.walLegacy, h.vfsOnTop⟩
  obtain ⟨shim₃, hwrite, hreal₃⟩ := h₂.write (P := P) header (s.config.walFrameOffset (k + 1))
  have hreal₄ : shim₃.real = writeAt s.shim.real (s.config.walFrameOffset (k + 1)) header := by
    rw [hreal₃, ← hreal]
    rfl
  have hoff : s.config.walFrameOffset (k + 1) ≤ s.shim.real.length := by omega
  have hnum : get4byte (slice header 0 4) =
      get4byte (slice s.shim.real (s.config.walFrameOffset (k + 1)) 4) := by
    rw [hnumber, get4byte_put4byte (get4byte_lt _), ← haBuf, slice_slice (by omega), Nat.add_zero]
  have himage : (aBuf.drop walFrameHeaderSize).length = s.config.szPage := by
    rw [List.length_drop, hlenBuf]
    omega
  have hslice : slice shim₃.real (s.config.walFrameOffset (k + 1)) s.config.szFrame =
      header ++ aBuf.drop walFrameHeaderSize := by
    rw [hreal₄, hsz, slice_add, slice_writeAt_start _ _ (by omega), slice_full hheader,
      slice_writeAt_apart hoff (by omega), ← haBuf, slice_drop, hsz, hhdr, Nat.add_sub_cancel_left]
  have hprev : storedCksum s.config shim₃.real k = s.hdr.aFrameCksum := by
    rw [hreal₄, storedCksum_before hoff le_rfl]
    exact hw.cksum.symm
  rw [hencoded] at hslice
  obtain ⟨hstored, hvalid⟩ := cksumValid_encoded hw.aSalt himage (Nat.succ_pos k) hprev hslice
  rw [haBuf] at hread ⊢
  refine ⟨shim, { s with shim := shim₃, hdr := { s.hdr with aFrameCksum } }, hread, ?_,
    ⟨?_, ?_, ?_, ?_, hw.reCksum, hw.aSalt⟩, WalState.Same.cksum s shim₃ aFrameCksum⟩
  · simp only [hencode]
    exact hwrite
  · show _ ≤ shim₃.real.length
    rw [hreal₄, length_writeAt]
    exact hw.inside.trans (le_max_left _ _)
  · show Held P cipher s.codec.readReservedBytes s.config shim₃.real frames
    rw [hreal₄]
    exact hw.held.rewriteHeader (by omega) hheader hnum
  · intro i hipos hi
    show CksumValid s.config s.hdr.bigEndCksum shim₃.real i
    rcases Nat.lt_or_ge i (k + 1) with hlt | hge
    · rw [hreal₄]
      exact (hw.valid i hipos hlt).before hipos hoff (s.config.walFrameOffset_mono (by omega))
    · obtain rfl : i = k + 1 := by omega
      exact hvalid
  · exact hcksum.trans hstored.symm

/-- The headers of `n` frames are rewritten. -/
theorem rewriteFrames_rewriting {frames : List (ℕ × Bytes)} {n iRead : ℕ}
    (hw : s.Rewriting P cipher frames iRead) (h : s.Standard cipher) (hpos : 0 < iRead)
    (hle : iRead + n ≤ frames.length + 1) :
    let r := rewriteFrames P n iRead s
    r.1 = .ok ∧ r.2.Rewriting P cipher frames (iRead + n) := by
  induction n generalizing s iRead with
  | zero => exact ⟨rfl, hw⟩
  | succ n ih =>
    obtain ⟨shim, t, hread, hwrite, hw₁, hsame₁⟩ := hw.step h hpos (by omega)
    have hr : rewriteFrames P (n + 1) iRead s = rewriteFrames P n (iRead + 1) t := by
      rw [rewriteFrames]
      simp only [hread, hwrite]
    obtain ⟨hrc, hw₂⟩ := ih hw₁ (h.same hsame₁) (Nat.succ_pos _) (by omega)
    rw [hr, show iRead + (n + 1) = iRead + 1 + n by omega]
    exact ⟨hrc, hw₂⟩

/-- **All checksums are valid** when they are made up for. -/
theorem walRewriteChecksums_writing {frames : List (ℕ × Bytes)}
    (hw : s.Writing P cipher frames) (h : s.Standard cipher) (hre : s.iReCksum ≠ 0) :
    let r := walRewriteChecksums P s frames.length
    r.1 = .ok ∧ r.2.Writing P cipher frames := by
  have hle := hw.reCksum_le
  obtain ⟨iCksumOff, hoff⟩ : ∃ o, o = if s.iReCksum = 1 then 24 else
    s.config.walFrameOffset (s.iReCksum - 1) + 16 := ⟨_, rfl⟩
  have hsz := s.config.szFrame_eq
  have hin : iCksumOff + 8 ≤ s.shim.real.length := by
    have hinside := hw.inside
    have h32 := s.config.le_walFrameOffset (frames.length + 1)
    rw [hoff]
    split
    · omega
    · have hlt := s.config.walFrameOffset_lt (i := s.iReCksum - 1) (j := frames.length + 1)
        (by omega) (by omega)
      omega
  have h512 := s.config.le_szPage
  obtain ⟨shim, hread, hreal⟩ := h.read (P := P) (show 8 ≠ s.config.szPage by omega) hin
  have hstored : (get4byte (slice (slice s.shim.real iCksumOff 8) 0 4),
      get4byte (slice (slice s.shim.real iCksumOff 8) 4 4)) =
      storedCksum s.config s.shim.real (s.iReCksum - 1) := by
    have hoff' : iCksumOff = if s.iReCksum - 1 = 0 then 24 else
        s.config.walFrameOffset (s.iReCksum - 1) + 16 := by
      rw [hoff]
      split <;> split <;> first | rfl | omega
    rw [slice_slice (by omega), slice_slice (by omega), storedCksum, hoff']
    rfl
  obtain ⟨t, ht⟩ : ∃ t, t = { s with
      shim
      hdr := { s.hdr with aFrameCksum := storedCksum s.config s.shim.real (s.iReCksum - 1) }
      iReCksum := 0 } := ⟨_, rfl⟩
  have hsame₁ : s.Same t := by
    rw [ht]
    exact ⟨rfl, rfl, rfl, rfl, rfl, rfl, rfl, rfl, rfl⟩
  have hw₁ : t.Rewriting P cipher frames s.iReCksum := by
    rw [ht]
    refine ⟨?_, ?_, ?_, ?_, rfl, hw.aSalt⟩
    · show _ ≤ shim.real.length
      rw [hreal]
      exact hw.inside
    · show Held P cipher s.codec.readReservedBytes s.config shim.real frames
      rw [hreal]
      exact hw.held
    · intro i hpos hi
      show CksumValid s.config s.hdr.bigEndCksum shim.real i
      rw [hreal]
      exact hw.valid i hpos (by omega) (.inr hi)
    · show _ = storedCksum s.config shim.real (s.iReCksum - 1)
      rw [hreal]
  have hr : walRewriteChecksums P s frames.length =
      rewriteFrames P (frames.length + 1 - s.iReCksum) s.iReCksum t := by
    rw [walRewriteChecksums, ht]
    simp only [← hoff, hread, hstored, if_true, WalState.withShim]
  obtain ⟨hrc, hw₂⟩ := rewriteFrames_rewriting
    (n := frames.length + 1 - s.iReCksum) hw₁ (h.same hsame₁) (by omega) (by omega)
  rw [show s.iReCksum + (frames.length + 1 - s.iReCksum) = frames.length + 1 by omega] at hw₂
  intro r
  rw [show r = _ from hr]
  refine ⟨hrc, hw₂.inside, hw₂.held, ?_, ?_, ?_, hw₂.aSalt⟩
  · intro i hpos hi _
    exact hw₂.valid i hpos (by omega)
  · intro _
    exact hw₂.cksum
  · rw [hw₂.reCksum]
    exact Nat.zero_le _

/-! ### The end of a commit -/

/-- **The last page is repeated.** -/
theorem walPadFrames_writing {frames : List (ℕ × Bytes)} {pLast : PgHdr} {fuel iFrame : ℕ}
    (hw : s.Writing P cipher frames) (h : s.Standard cipher) (hp : pLast.Valid s.config)
    (hframe : frames.length = iFrame) (iSyncPoint nTruncate : ℕ) :
    let r := walPadFrames P iSyncPoint pLast nTruncate fuel iFrame s
    r.2.Writing P cipher (frames ++ List.replicate r.1 pLast.frame) := by
  refine (walPadFrames_rule (P := P) (I := fun t frames => s.Same t ∧ t.Writing P cipher frames) ?_
    ⟨WalState.Same.refl s, hw⟩ hframe).2
  rintro t frames ⟨hsame, hw₁⟩ -
  obtain ⟨hw₂, hsame₂, -, -⟩ := hw₁.append (h.same hsame) (hsame.config ▸ hp) iSyncPoint nTruncate
  exact ⟨hsame.trans hsame₂, hw₂⟩

/-- The end of the file is cut off behind the frames. -/
theorem WalState.Writing.limit {frames : List (ℕ × Bytes)} (hw : s.Writing P cipher frames)
    (sz : ℕ) (hsz : s.config.walFrameOffset (frames.length + 1) ≤ sz) :
    (walLimitSize s sz).Writing P cipher frames := by
  obtain ⟨shim, hlimit, hreal | hreal⟩ := walLimitSize_same s sz
  · rw [hlimit]
    refine ⟨?_, ?_, ?_, ?_, hw.reCksum_le, hw.aSalt⟩
    all_goals simp only [WalState.withShim, hreal]
    · exact hw.inside
    · exact hw.held
    · exact hw.valid
    · exact hw.cksum
  · rw [hlimit]
    refine ⟨?_, ?_, ?_, ?_, hw.reCksum_le, hw.aSalt⟩
    all_goals simp only [WalState.withShim, hreal]
    · rw [List.length_take]
      exact le_min hsz hw.inside
    · exact hw.held.take_file hsz
    · intro i hpos hi hre
      exact (hw.valid i hpos hi hre).take_file hpos
        ((s.config.walFrameOffset_mono (by omega)).trans hsz)
    · intro h0
      rw [storedCksum_take_file hsz]
      exact hw.cksum h0

/-- What is put behind the frames of a commit. -/
theorem walFinish_writing {frames : List (ℕ × Bytes)} {appended : List PgHdr} {iFrame : ℕ}
    (hw : s.Writing P cipher frames) (h : s.Standard cipher)
    (hpages : ∀ p ∈ appended, p.Valid s.config) (hframe : frames.length = iFrame) (nTruncate : ℕ)
    (sync : Bool) :
    let r := walFinish P s appended nTruncate iFrame sync
    r.2.Writing P cipher (frames ++ repeatedFrames appended r.1) := by
  obtain ⟨pad, hpad, hfinish⟩ := walFinish_eq (P := P) s appended nTruncate iFrame sync
  have hpadded : pad.2.Writing P cipher (frames ++ repeatedFrames appended pad.1) ∧
      s.Same pad.2 ∧ (repeatedFrames appended pad.1).length = pad.1 := by
    rcases hpad with rfl | ⟨pLast, hlast, -, hpad⟩
    · have hnil : repeatedFrames appended 0 = [] := by
        rw [repeatedFrames]
        split <;> rfl
      rw [hnil, List.append_nil]
      exact ⟨hw, WalState.Same.refl s, rfl⟩
    · have hrepeat : repeatedFrames appended pad.1 = List.replicate pad.1 pLast.frame := by
        rw [repeatedFrames, hlast]
      rw [hrepeat, List.length_replicate, hpad]
      exact ⟨walPadFrames_writing hw h (hpages pLast (List.mem_of_getLast? hlast)) hframe _ _,
        (walPadFrames_same _ _ _ _ _ _).1, rfl⟩
  obtain ⟨hw', hsame, hlen⟩ := hpadded
  intro r
  rw [show r = _ from hfinish]
  split
  · have hlimit := hw'.limit (max s.config.mxWalSize.toNat
      (s.config.walFrameOffset (iFrame + pad.1 + 1))) (by
        rw [List.length_append, hlen, hframe, hsame.config]
        exact le_max_right _ _)
    exact ⟨hlimit.inside, hlimit.held, hlimit.valid, hlimit.cksum, hlimit.reCksum_le,
      hlimit.aSalt⟩
  · exact hw'

end Standard

end MultipleCiphers
