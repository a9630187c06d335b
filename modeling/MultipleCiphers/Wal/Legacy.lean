import MultipleCiphers.Wal.Frames
import MultipleCiphers.Wal.Positions

/-!
# The log in the legacy mode

In the legacy mode SQLite hands plain pages to the shim, which encrypts what has the size of a page:
a write of another size is passed on as it is. The writer splits a write in two at a sync point. If
that is inside the page of a frame, neither part has the size of a page, and the page is in the file
in plaintext.

The sync point is the end of a sector, and only the frames that repeat the last page of a commit
reach it. Where it falls follows from the number of frames, which is known before the commit. As
long as it does not fall inside a page, every page in the file is encrypted, also in the frames that
are not in use any more.

## Main definitions

* `SlotsEncrypted` — what is in the file where pages are stored.
* `NoSplit` — no operation splits a page.
* `WalState.LegacySafe` — the pages in the file are encrypted, and read back.

## Main results

* `walLegacy_encrypted` — in every run that splits no page, pages are encrypted and read back.
* `walLegacy_plaintext` — a run that splits one.
-/

namespace MultipleCiphers

open Bytes

/-! ### Where pages are stored -/

section Slots

/-- What is in the file where the page of a frame is stored is nothing, or an encryption of one of
the pages `W`, or the part of it that was not cut off. -/
def SlotsEncrypted (P : Primitives) (cipher : Cipher) (reserved : ℤ) (c : WalConfig)
    (W : List PgHdr) (file : Bytes) : Prop :=
  ∀ i, 0 < i → slice file (c.walFrameOffset i + walFrameHeaderSize) c.szPage = [] ∨
    ∃ p ∈ W, ∃ image, Encrypts P cipher reserved p.pgno p.data image ∧
      slice file (c.walFrameOffset i + walFrameHeaderSize) c.szPage <+: image

variable {P : Primitives} {cipher : Cipher} {reserved : ℤ} {c : WalConfig} {W : List PgHdr}
  {file : Bytes}

theorem SlotsEncrypted.nil : SlotsEncrypted P cipher reserved c W [] := by
  intro i _
  left
  simp [slice]

/-- A write that touches no page. -/
theorem SlotsEncrypted.apart (h : SlotsEncrypted P cipher reserved c W file) {off : ℕ} {d : Bytes}
    (hoff : off ≤ file.length)
    (hdis : ∀ i, 0 < i → c.walFrameOffset i + c.szFrame ≤ off ∨
      off + d.length ≤ c.walFrameOffset i + walFrameHeaderSize) :
    SlotsEncrypted P cipher reserved c W (writeAt file off d) := by
  intro i hi
  have hsz := c.szFrame_eq
  have hhdr : walFrameHeaderSize = 24 := rfl
  have hrange := hdis i hi
  rw [slice_writeAt_apart hoff (by omega)]
  exact h i hi

/-- **A page is written** to its place, behind its header or by itself. -/
theorem SlotsEncrypted.page (h : SlotsEncrypted P cipher reserved c W file) (header : Bytes)
    {off iFrame : ℕ} {image : Bytes} {p : PgHdr} (hoff : off ≤ file.length) (hpos : 0 < iFrame)
    (hstart : c.walFrameOffset iFrame ≤ off)
    (hheader : off + header.length = c.walFrameOffset iFrame + walFrameHeaderSize)
    (himage : image.length = c.szPage) (hmem : p ∈ W)
    (henc : Encrypts P cipher reserved p.pgno p.data image) :
    SlotsEncrypted P cipher reserved c W (writeAt file off (header ++ image)) := by
  have hsz := c.szFrame_eq
  have hhdr : walFrameHeaderSize = 24 := rfl
  have hd : (header ++ image).length = header.length + c.szPage := by
    rw [List.length_append, himage]
  intro i hi
  rcases Nat.lt_trichotomy i iFrame with hlt | rfl | hgt
  · have hle := c.walFrameOffset_lt hi hlt
    rw [slice_writeAt_apart hoff (by omega)]
    exact h i hi
  · right
    refine ⟨p, hmem, image, henc, [], ?_⟩
    rw [← hheader, slice_writeAt_part _ _ (by omega), slice_append_behind rfl himage,
      List.append_nil]
  · have hle := c.walFrameOffset_lt hpos hgt
    rw [slice_writeAt_apart hoff (by omega)]
    exact h i hi

/-- The end of the file is cut off. -/
theorem SlotsEncrypted.take_file (h : SlotsEncrypted P cipher reserved c W file) (n : ℕ) :
    SlotsEncrypted P cipher reserved c W (file.take n) := by
  intro i hi
  have hcut : slice (file.take n) (c.walFrameOffset i + walFrameHeaderSize) c.szPage <+:
      slice file (c.walFrameOffset i + walFrameHeaderSize) c.szPage := by
    rw [slice, slice, List.drop_take, List.take_take, min_comm, ← List.take_take]
    exact List.take_prefix _ _
  rcases h i hi with hnil | ⟨p, hmem, image, henc, hpart⟩
  · left
    rw [hnil] at hcut
    exact List.prefix_nil.mp hcut
  · exact .inr ⟨p, hmem, image, henc, hcut.trans hpart⟩

end Slots

/-! ### The file -/

/-- The log in the legacy mode. -/
structure WalState.Legacy (cipher : Cipher) (s : WalState) : Prop where
  codec : s.codec.ReadsWith cipher
  walLegacy : s.codec.walLegacy ≠ 0

section Legacy

variable {P : Primitives} {cipher : Cipher} {s : WalState}

theorem WalState.Legacy.same {t : WalState} (h : s.Legacy cipher) (hst : s.Same t) :
    t.Legacy cipher := ⟨hst.codec ▸ h.codec, hst.codec ▸ h.walLegacy⟩

theorem WalState.Legacy.withShim (h : s.Legacy cipher) (shim : Shim Bytes) :
    (s.withShim shim).Legacy cipher := ⟨h.codec, h.walLegacy⟩

/-- The shim finds the codec. -/
theorem WalState.Legacy.encryptedCodec (h : s.Legacy cipher) :
    s.walFile.encryptedCodec = some s.codec := by
  simp [McFile.encryptedCodec, WalState.walFile, h.codec.isEncrypted]

/-- What is shorter than a page is written as it is. -/
theorem WalState.Legacy.write_short (h : s.Legacy cipher) (data : Bytes)
    (hshort : data.length < s.config.szPage) (offset : ℕ) :
    ∃ shim, s.write P data offset = s.withShim shim ∧
      shim.real = writeAt s.shim.real offset data := by
  have hcodec : s.walFile.encryptedCodec.filter (fun codec => codec.walLegacy ≠ 0) =
      some s.codec := by
    rw [h.encryptedCodec]
    simp [h.walLegacy]
  have hkind : s.walFile.kind = .wal := rfl
  have hsize : s.walFile.pageSize = s.config.szPage := rfl
  have hpage : ¬ data.length = s.config.szPage := by omega
  have hframe : ¬ data.length = s.config.szPage + walFrameHeaderSize := by omega
  refine ⟨_, rfl, ?_⟩
  simp only [mcIoWrite, hkind, mcWriteWal, hcodec, hsize, if_neg hpage, if_neg hframe,
    xWrite_memoryFile]

/-- **A page is encrypted** under the number in the header in front of it. -/
theorem WalState.Legacy.write_page (h : s.Legacy cipher) {p : PgHdr} (hp : p.Valid s.config)
    {iOffset : ℕ} (hin : iOffset + 4 ≤ s.shim.real.length)
    (hnumber : get4byte (slice s.shim.real iOffset 4) = p.pgno) :
    ∃ image shim, s.write P p.data (iOffset + walFrameHeaderSize) = s.withShim shim ∧
      shim.real = writeAt s.shim.real (iOffset + walFrameHeaderSize) image ∧
      image.length = s.config.szPage ∧
      Encrypts P cipher s.codec.readReservedBytes p.pgno p.data image := by
  have hcodec : s.walFile.encryptedCodec.filter (fun codec => codec.walLegacy ≠ 0) =
      some s.codec := by
    rw [h.encryptedCodec]
    simp [h.walLegacy]
  have hkind : s.walFile.kind = .wal := rfl
  have hsize : s.walFile.pageSize = s.config.szPage := rfl
  have hoff : ((iOffset + walFrameHeaderSize : ℕ) : ℤ) - walFrameHeaderSize = (iOffset : ℤ) := by
    omega
  obtain ⟨shim₁, hread, hreal₁⟩ : ∃ shim, s.shim.xRead memoryFile 4 iOffset =
      (.ok, slice s.shim.real iOffset 4, shim) ∧ shim.real = s.shim.real :=
    ⟨_, xRead_memoryFile hin, rfl⟩
  obtain ⟨-, hlen, henc⟩ := encryptPage_encrypts (P := P) h.codec.wellFormed h.codec.fits hp.page
    s.codec.readCipherType shim₁.env
  have hjournal : sqlite3mcCodec (builtinDescriptors P) s.codec p.data p.pgno .journal shim₁.env =
      (builtinDescriptors P s.codec.readCipherType).encryptPage cipher p.pgno p.data
        s.codec.readReservedBytes shim₁.env := by
    simp [sqlite3mcCodec, h.codec.isEncrypted, h.codec.hasReadCipher, sqlite3mcEncrypt,
      h.codec.readCipher]
  refine ⟨_, _, rfl, ?_, hlen.trans hp.length, henc⟩
  simp only [mcIoWrite, hkind, mcWriteWal, hcodec, hsize, hp.length, if_true, hoff, hread, hnumber,
    ne_eq, hp.pgno_ne, not_false_eq_true, Shim.runCodec, hjournal, xWrite_memoryFile, hreal₁]

/-- A header of a frame is written, whole or in two parts. -/
theorem walWriteToLog_header (h : s.Legacy cipher) (iSyncPoint : ℕ) {header : Bytes}
    (hheader : header.length = 24) {iOffset : ℕ} (hin : iOffset ≤ s.shim.real.length) :
    ∃ shim, walWriteToLog P s iSyncPoint header iOffset = s.withShim shim ∧
      shim.real = writeAt s.shim.real iOffset header := by
  have h512 := s.config.le_szPage
  by_cases hsplit : iOffset < iSyncPoint ∧ iOffset + header.length ≥ iSyncPoint
  · have hlen : (header.take (iSyncPoint - iOffset)).length = iSyncPoint - iOffset := by
      rw [List.length_take]
      omega
    obtain ⟨shim₁, hw₁, hreal₁⟩ := h.write_short (P := P) (header.take (iSyncPoint - iOffset))
      (by omega) iOffset
    by_cases hrest : header.length - (iSyncPoint - iOffset) = 0
    · refine ⟨shim₁, ?_, ?_⟩
      · rw [walWriteToLog, if_pos hsplit]
        simp only [hrest, if_true, hw₁]
      · rw [hreal₁, List.take_of_length_le (by omega)]
    · obtain ⟨shim₂, hw₂, hreal₂⟩ := (h.withShim shim₁).write_short (P := P)
        (header.drop (iSyncPoint - iOffset)) (by
          rw [List.length_drop]
          show _ < s.config.szPage
          omega) (iOffset + (iSyncPoint - iOffset))
      refine ⟨shim₂, ?_, ?_⟩
      · rw [walWriteToLog, if_pos hsplit]
        simp only [hrest, if_false, hw₁, hw₂]
        rfl
      · have happ := writeAt_append (b := header.drop (iSyncPoint - iOffset))
          (a := header.take (iSyncPoint - iOffset)) hin
        rw [hlen, List.take_append_drop] at happ
        rw [hreal₂, ← happ, ← hreal₁]
        rfl
  · rw [walWriteToLog, if_neg hsplit]
    exact h.write_short header (by omega) iOffset

/-- **A page that is not split is encrypted.** -/
theorem walWriteToLog_page (h : s.Legacy cipher) {p : PgHdr} (hp : p.Valid s.config)
    {iSyncPoint iOffset : ℕ} (hin : iOffset + 4 ≤ s.shim.real.length)
    (hnumber : get4byte (slice s.shim.real iOffset 4) = p.pgno)
    (hsplit : iSyncPoint ≤ iOffset + walFrameHeaderSize ∨
      iOffset + s.config.szFrame ≤ iSyncPoint) :
    ∃ image shim, walWriteToLog P s iSyncPoint p.data (iOffset + walFrameHeaderSize) =
        s.withShim shim ∧ shim.real = writeAt s.shim.real (iOffset + walFrameHeaderSize) image ∧
      image.length = s.config.szPage ∧
      Encrypts P cipher s.codec.readReservedBytes p.pgno p.data image := by
  have hsz := s.config.szFrame_eq
  have hhdr : walFrameHeaderSize = 24 := rfl
  have hlen := hp.length
  obtain ⟨image, shim, hwrite, hreal⟩ := h.write_page (P := P) hp hin hnumber
  refine ⟨image, shim, ?_, hreal⟩
  by_cases hcut : iOffset + walFrameHeaderSize < iSyncPoint ∧
      iOffset + walFrameHeaderSize + p.data.length ≥ iSyncPoint
  · -- the sync point is the end of the page, and nothing is left for a second write
    have hall : iSyncPoint - (iOffset + walFrameHeaderSize) = p.data.length := by omega
    rw [walWriteToLog, if_pos hcut]
    simp only [hall, Nat.sub_self, if_true, List.take_length, hwrite]
  · rw [walWriteToLog, if_neg hcut]
    exact hwrite

/-- The page is handed to the log as it is. -/
theorem walPagerCodec_legacy (h : s.Legacy cipher) (p : PgHdr) :
    walPagerCodec P s p = (p.data, s) := by
  have hfd : pagerWalCodec s.fd = none := by
    rw [WalState.fd]
    split <;> simp [pagerWalCodec, h.walLegacy]
  rw [walPagerCodec]
  simp only [sqlite3mcPagerCodec, hfd]

/-- What a frame is made of. -/
theorem walWriteOneFrame_legacy (h : s.Legacy cipher) {p : PgHdr} (hp : p.Valid s.config)
    (hsalt : s.hdr.aSalt.length = 8) (nTruncate : ℕ) {iSyncPoint iOffset : ℕ}
    (hin : iOffset ≤ s.shim.real.length)
    (hsplit : iSyncPoint ≤ iOffset + walFrameHeaderSize ∨
      iOffset + s.config.szFrame ≤ iSyncPoint) :
    ∃ header image shim aFrameCksum, walWriteOneFrame P s iSyncPoint p nTruncate iOffset =
        { s with shim, hdr := { s.hdr with aFrameCksum } } ∧
      shim.real = writeAt s.shim.real iOffset (header ++ image) ∧ header.length = 24 ∧
      slice header 0 4 = put4byte p.pgno ∧ image.length = s.config.szPage ∧
      Encrypts P cipher s.codec.readReservedBytes p.pgno p.data image := by
  obtain ⟨header, aFrameCksum, hencode, hheader, hnumber, -⟩ :=
    walEncodeFrame_eq s hsalt p.pgno nTruncate p.data
  have h₂ : WalState.Legacy cipher { s with hdr := { s.hdr with aFrameCksum } } :=
    ⟨h.codec, h.walLegacy⟩
  obtain ⟨shim₃, hlog₃, hreal₃⟩ := walWriteToLog_header (P := P) h₂ iSyncPoint hheader hin
  have hin₄ : iOffset + 4 ≤ shim₃.real.length := by
    rw [hreal₃, length_writeAt, hheader]
    omega
  have hnumber₄ : get4byte (slice shim₃.real iOffset 4) = p.pgno := by
    rw [hreal₃, slice_writeAt_start _ _ (by omega), hnumber, get4byte_put4byte hp.pgno_lt]
  obtain ⟨image, shim₄, hlog₄, hreal₄, himage, henc⟩ := walWriteToLog_page (P := P)
    (h₂.withShim shim₃) hp hin₄ hnumber₄ hsplit
  refine ⟨header, image, shim₄, aFrameCksum, ?_, ?_, hheader, hnumber, himage, henc⟩
  · rw [walWriteOneFrame, walPagerCodec_legacy h]
    simp only [hencode, hlog₃, hlog₄]
    rfl
  · have happ := writeAt_append (a := header) (b := image) hin
    rw [hheader] at happ
    rw [hreal₄, ← happ]
    exact congrArg (writeAt · _ _) hreal₃

/-! ### The loops of `walFrames` -/

variable (P cipher) in
/-- The file while `walFrames` writes: it holds the frames, and only encrypted pages. -/
structure WalState.LegacyWriting (s : WalState) (W : List PgHdr) (frames : List (ℕ × Bytes)) :
    Prop where
  inside : s.config.walFrameOffset (frames.length + 1) ≤ s.shim.real.length
  held : Held P cipher s.codec.readReservedBytes s.config s.shim.real frames
  slots : SlotsEncrypted P cipher s.codec.readReservedBytes s.config W s.shim.real
  aSalt : s.hdr.aSalt.length = 8

variable {W : List PgHdr}

/-- **A frame is appended.** -/
theorem WalState.LegacyWriting.append {frames : List (ℕ × Bytes)}
    (hw : s.LegacyWriting P cipher W frames) (h : s.Legacy cipher) {p : PgHdr}
    (hp : p.Valid s.config) (hmem : p ∈ W) (iSyncPoint nTruncate : ℕ)
    (hsplit : iSyncPoint ≤ s.config.walFrameOffset (frames.length + 1) + walFrameHeaderSize ∨
      s.config.walFrameOffset (frames.length + 1) + s.config.szFrame ≤ iSyncPoint) :
    let t := walWriteOneFrame P s iSyncPoint p nTruncate
      (s.config.walFrameOffset (frames.length + 1))
    t.LegacyWriting P cipher W (frames ++ [p.frame]) ∧ s.Same t ∧ t.frames = s.frames := by
  obtain ⟨header, image, shim, aFrameCksum, hone, hreal, hheader, hnumber, himage, henc⟩ :=
    walWriteOneFrame_legacy (P := P) h hp hw.aSalt nTruncate hw.inside hsplit
  have hnum : get4byte (slice header 0 4) = p.frame.1 := by
    rw [hnumber]
    exact get4byte_put4byte hp.pgno_lt
  have hheld := hw.held.append hw.inside hheader himage hnum henc hp.page hp.length hp.pgno_ne
  have hslots := hw.slots.page header hw.inside (Nat.succ_pos frames.length) le_rfl
    (by rw [hheader]; rfl) himage hmem henc
  intro t
  have ht : t = { s with shim, hdr := { s.hdr with aFrameCksum } } := hone
  clear_value t
  subst ht
  refine ⟨⟨?_, ?_, ?_, hw.aSalt⟩, WalState.Same.cksum s shim aFrameCksum, rfl⟩
  · rw [List.length_append, List.length_singleton, s.config.walFrameOffset_succ (Nat.succ_pos _)]
    show _ ≤ shim.real.length
    rw [hreal, length_writeAt, List.length_append, hheader, himage]
    exact le_max_right _ _
  · show Held P cipher s.codec.readReservedBytes s.config shim.real (frames ++ [p.frame])
    rw [hreal]
    exact hheld
  · show SlotsEncrypted P cipher s.codec.readReservedBytes s.config W shim.real
    rw [hreal]
    exact hslots

/-- **The page of a frame is overwritten.** -/
theorem WalState.LegacyWriting.overwrite {acc : List (ℕ × Bytes)}
    (hw : s.LegacyWriting P cipher W (s.frames ++ acc)) (h : s.Legacy cipher) {p : PgHdr}
    (hp : p.Valid s.config) (hmem : p ∈ W) {iWrite : ℕ} (hpos : 0 < iWrite)
    (hle : iWrite ≤ s.frames.length)
    (hfind : s.frames[iWrite - 1]?.map Prod.fst = some p.pgno) :
    let t := walOverwrite P s iWrite p
    t.LegacyWriting P cipher W (t.frames ++ acc) := by
  obtain ⟨iReCksum, hre⟩ : ∃ n, n = if s.iReCksum = 0 ∨ iWrite < s.iReCksum then iWrite
    else s.iReCksum := ⟨_, rfl⟩
  have hfirst :
      (if s.iReCksum = 0 ∨ iWrite < s.iReCksum then { s with iReCksum := iWrite } else s) =
      { s with iReCksum } := by
    rw [hre]
    split <;> rfl
  have h₁ : WalState.Legacy cipher { s with iReCksum } := ⟨h.codec, h.walLegacy⟩
  obtain ⟨f, hf, hpgno⟩ : ∃ f, (s.frames ++ acc)[iWrite - 1]? = some f ∧ f.1 = p.pgno := by
    rw [List.getElem?_append_left (by omega)]
    exact Option.map_eq_some_iff.mp hfind
  have hframe := hw.held _ f hf
  have hin := hframe.inside
  have hnumber := hframe.number
  rw [show iWrite - 1 + 1 = iWrite by omega] at hin hnumber
  have hsz := s.config.szFrame_eq
  have hhdr : walFrameHeaderSize = 24 := rfl
  obtain ⟨image, shim, hwrite, hreal, himage, henc⟩ := h₁.write_page (P := P) hp
    (show s.config.walFrameOffset iWrite + 4 ≤ s.shim.real.length by omega)
    (hnumber.trans hpgno)
  have henc' : Encrypts P cipher s.codec.readReservedBytes f.1 p.data image := hpgno ▸ henc
  have hpage : DatabasePage f.1 p.data := hpgno ▸ hp.page
  have hheld := hw.held.overwrite hf himage henc' hpage hp.length
  rw [show iWrite - 1 + 1 = iWrite by omega, hpgno] at hheld
  have hslots := hw.slots.page [] (show s.config.walFrameOffset iWrite +
    walFrameHeaderSize ≤ s.shim.real.length by omega) hpos (Nat.le_add_right _ _) rfl himage hmem
    henc
  have hset : s.frames.set (iWrite - 1) p.frame ++ acc =
      (s.frames ++ acc).set (iWrite - 1) p.frame := by
    rw [List.set_append_left _ _ (by omega)]
  intro t
  have ht : t = { s with
      iReCksum
      shim
      frames := s.frames.set (iWrite - 1) p.frame } := by
    show walOverwrite P s iWrite p = _
    rw [walOverwrite]
    simp only [hfirst, walPagerCodec_legacy h₁, hwrite]
    rfl
  clear_value t
  subst ht
  refine ⟨?_, ?_, ?_, hw.aSalt⟩
  · show s.config.walFrameOffset ((s.frames.set (iWrite - 1) p.frame ++ acc).length + 1) ≤
      shim.real.length
    rw [hset, List.length_set, hreal, length_writeAt]
    exact hw.inside.trans (le_max_left _ _)
  · show Held P cipher s.codec.readReservedBytes s.config shim.real
      (s.frames.set (iWrite - 1) p.frame ++ acc)
    rw [hset, hreal]
    exact hheld
  · show SlotsEncrypted P cipher s.codec.readReservedBytes s.config W shim.real
    rw [hreal]
    exact hslots

/-- **The dirty pages are written.** -/
theorem walWritePages_legacy (iFirst nTruncate : ℕ) (isCommit : Bool) {pList : List PgHdr}
    (hw : s.LegacyWriting P cipher W s.frames) (h : s.Legacy cipher)
    (hpages : ∀ p ∈ pList, p.Valid s.config ∧ p ∈ W) (hlen : s.frames.length = s.hdr.mxFrame) :
    let r := walWritePages P iFirst nTruncate isCommit s.hdr.mxFrame pList s
    r.2.LegacyWriting P cipher W (r.2.frames ++ r.1.map PgHdr.frame) := by
  have hinit : s.Same s ∧ s.LegacyWriting P cipher W (s.frames ++ []) := by
    rw [List.append_nil]
    exact ⟨WalState.Same.refl s, hw⟩
  have happend : ∀ (t : WalState) (frames : List (ℕ × Bytes)), ∀ p ∈ pList, ∀ nDbSize,
      s.Same t ∧ t.LegacyWriting P cipher W frames →
      s.Same (walWriteOneFrame P t 0 p nDbSize (t.config.walFrameOffset (frames.length + 1))) ∧
        (walWriteOneFrame P t 0 p nDbSize
          (t.config.walFrameOffset (frames.length + 1))).LegacyWriting P cipher W
            (frames ++ [p.frame]) := by
    rintro t frames p hp nDbSize ⟨hsame, hw₁⟩
    obtain ⟨hw₂, hsame₂, -⟩ := hw₁.append (h.same hsame)
      (by rw [hsame.config]; exact (hpages p hp).1) (hpages p hp).2 0 nDbSize (.inl (Nat.zero_le _))
    exact ⟨hsame.trans hsame₂, hw₂⟩
  have hover : ∀ (t : WalState) (acc : List (ℕ × Bytes)), ∀ p ∈ pList, ∀ iWrite, 0 < iWrite →
      iWrite ≤ t.frames.length → t.frames[iWrite - 1]?.map Prod.fst = some p.pgno →
      s.Same t ∧ t.LegacyWriting P cipher W (t.frames ++ acc) →
      s.Same (walOverwrite P t iWrite p) ∧
        (walOverwrite P t iWrite p).LegacyWriting P cipher W
          ((walOverwrite P t iWrite p).frames ++ acc) := by
    rintro t acc p hp iWrite hpos hle hfind ⟨hsame, hw₁⟩
    exact ⟨hsame.trans (walOverwrite_same hfind), hw₁.overwrite (h.same hsame)
      (by rw [hsame.config]; exact (hpages p hp).1) (hpages p hp).2 hpos hle hfind⟩
  obtain ⟨-, hw'⟩ := walWritePages_rule (P := P)
    (I := fun t frames => s.Same t ∧ t.LegacyWriting P cipher W frames) iFirst nTruncate isCommit
    happend hover hinit (by rw [List.append_nil, hlen]) hlen
  rw [List.append_nil] at hw'
  exact hw'

/-- A read that has neither the size of a page nor that of a frame. -/
theorem WalState.Legacy.read (h : s.Legacy cipher) {count offset : ℕ}
    (hsize : count < s.config.szPage) (hin : offset + count ≤ s.shim.real.length) :
    ∃ shim, s.read P count offset = (.ok, slice s.shim.real offset count, s.withShim shim) ∧
      shim.real = s.shim.real := by
  have hkind : s.walFile.kind = .wal := rfl
  have hpage : ¬ count = s.walFile.pageSize := ne_of_lt hsize
  have hframe : ¬(s.codec.walLegacy ≠ 0 ∧ count = s.walFile.pageSize + walFrameHeaderSize) := by
    rintro ⟨-, heq⟩
    have hsize' : s.walFile.pageSize = s.config.szPage := rfl
    omega
  simp only [WalState.read, mcIoRead, xRead_memoryFile hin, hkind, mcReadWal, h.encryptedCodec,
    hpage, hframe, if_false, reduceCtorEq]
  exact ⟨_, rfl, rfl⟩

/-- The read of a whole frame delivers its header, and the page decrypted. -/
theorem WalState.Legacy.readFrame (h : s.Legacy cipher) {iFrame : ℕ} {f : ℕ × Bytes}
    (hf : FrameStored P cipher s.codec.readReservedBytes s.config s.shim.real iFrame f) :
    ∃ aBuf shim, s.readFrame P iFrame = (.ok, aBuf, s.withShim shim) ∧
      shim.real = s.shim.real ∧ get4byte (slice aBuf 0 4) = f.1 := by
  have hsz := s.config.szFrame_eq
  have hhdr : walFrameHeaderSize = 24 := rfl
  have hin : s.config.walFrameOffset iFrame + (s.config.szPage + walFrameHeaderSize) ≤
      s.shim.real.length := by
    have hinside := hf.inside
    omega
  have hkind : s.walFile.kind = .wal := rfl
  have hsize : s.walFile.pageSize = s.config.szPage := rfl
  have hpage : ¬ s.config.szPage + walFrameHeaderSize = s.config.szPage := by omega
  obtain ⟨buffer, hbuffer⟩ : ∃ b, slice s.shim.real (s.config.walFrameOffset iFrame)
    (s.config.szPage + walFrameHeaderSize) = b := ⟨_, rfl⟩
  have hlen : buffer.length = s.config.szPage + walFrameHeaderSize := by
    rw [← hbuffer]
    exact length_slice_of_le hin
  have hstart : slice buffer 0 4 = slice s.shim.real (s.config.walFrameOffset iFrame) 4 := by
    rw [← hbuffer, slice_slice (by omega), Nat.add_zero]
  have hnumber : get4byte buffer = f.1 := by
    rw [← get4byte_take buffer, show buffer.take 4 = slice buffer 0 4 from rfl, hstart]
    exact hf.number
  have hbody : buffer.drop walFrameHeaderSize = slice s.shim.real
      (s.config.walFrameOffset iFrame + walFrameHeaderSize) s.config.szPage := by
    rw [← hbuffer, slice_drop, Nat.add_sub_cancel]
  obtain ⟨hrc, -⟩ := hf.image.decrypt h.codec.wellFormed h.codec.fits hf.page
    s.codec.readCipherType s.codec.hmacCheck
  have hload : ∀ env, (sqlite3mcCodec (builtinDescriptors P) s.codec
      (buffer.drop walFrameHeaderSize) f.1 .load env).1 = .ok := by
    intro env
    rw [hbody]
    simp [sqlite3mcCodec, h.codec.isEncrypted, h.codec.hasReadCipher, sqlite3mcDecrypt,
      h.codec.readCipher, hrc]
  have hread := xRead_memoryFile hin
  rw [hbuffer] at hread
  obtain ⟨shim₁, hshim₁⟩ : ∃ shim : Shim Bytes, { s.shim with log := s.shim.log ++
      [.read (s.config.szPage + walFrameHeaderSize) (s.config.walFrameOffset iFrame) .ok] } =
      shim := ⟨_, rfl⟩
  rw [hshim₁] at hread
  obtain ⟨rc, out, env, hcodec⟩ : ∃ rc out env, sqlite3mcCodec (builtinDescriptors P) s.codec
    (buffer.drop walFrameHeaderSize) f.1 .load shim₁.env = (rc, out, env) := ⟨_, _, _, rfl⟩
  have hrc' : rc = .ok := by
    have hok := hload shim₁.env
    rw [hcodec] at hok
    exact hok
  refine ⟨buffer.take walFrameHeaderSize ++ out,
    { shim₁ with env, log := shim₁.log ++ [.codec f.1 .load rc] }, ?_, ?_, ?_⟩
  · simp only [WalState.readFrame, WalState.read, mcIoRead, hread, hkind, mcReadWal,
      h.encryptedCodec, hsize, hpage, h.walLegacy, ne_eq, not_false_eq_true, true_and, if_true,
      if_false, reduceCtorEq, hnumber, hf.pgno_ne, Shim.runCodec, hcodec, hrc', WalState.withShim]
  · show shim₁.real = _
    rw [← hshim₁]
  · rw [slice_append_left _ (by rw [List.length_take]; omega), slice_take (by omega), hstart]
    exact hf.number

/-- The headers of frames are rewritten. -/
theorem rewriteFrames_legacy {frames : List (ℕ × Bytes)} {n iRead : ℕ}
    (hw : s.LegacyWriting P cipher W frames) (h : s.Legacy cipher) (hpos : 0 < iRead)
    (hle : iRead + n ≤ frames.length + 1) :
    let r := rewriteFrames P n iRead s
    r.1 = .ok ∧ r.2.LegacyWriting P cipher W frames := by
  induction n generalizing s iRead with
  | zero => exact ⟨rfl, hw⟩
  | succ n ih =>
    obtain ⟨k, rfl⟩ : ∃ k, iRead = k + 1 := ⟨iRead - 1, by omega⟩
    have hf := hw.held k _ (List.getElem?_eq_getElem (by omega))
    have hin := hf.inside
    have hsz := s.config.szFrame_eq
    have hhdr : walFrameHeaderSize = 24 := rfl
    obtain ⟨aBuf, shim, hread, hreal, hnumber⟩ := h.readFrame hf
    obtain ⟨header, aFrameCksum, hencode, hheader, hstart, -⟩ := walEncodeFrame_eq
      (s.withShim shim) hw.aSalt (get4byte (slice aBuf 0 4)) (get4byte (slice aBuf 4 4))
      (aBuf.drop walFrameHeaderSize)
    have h₂ : WalState.Legacy cipher { s.withShim shim with
        hdr := { s.hdr with aFrameCksum } } := ⟨h.codec, h.walLegacy⟩
    obtain ⟨shim₃, hwrite, hreal₃⟩ := h₂.write_short (P := P) header
      (by
        have h512 := s.config.le_szPage
        show _ < s.config.szPage
        omega) (s.config.walFrameOffset (k + 1))
    have hreal₄ : shim₃.real = writeAt s.shim.real (s.config.walFrameOffset (k + 1)) header := by
      rw [hreal₃, ← hreal]
      rfl
    have hoff : s.config.walFrameOffset (k + 1) ≤ s.shim.real.length := by omega
    have hnum : get4byte (slice header 0 4) =
        get4byte (slice s.shim.real (s.config.walFrameOffset (k + 1)) 4) := by
      rw [hstart, get4byte_put4byte (get4byte_lt _), hnumber, hf.number]
    obtain ⟨t, ht⟩ : ∃ t, t = { s with shim := shim₃, hdr := { s.hdr with aFrameCksum } } :=
      ⟨_, rfl⟩
    have hr : rewriteFrames P (n + 1) (k + 1) s = rewriteFrames P n (k + 1 + 1) t := by
      rw [rewriteFrames]
      simp only [hread, hencode]
      exact congrArg (rewriteFrames P n (k + 1 + 1)) (hwrite.trans ht.symm)
    have hw₁ : t.LegacyWriting P cipher W frames := by
      rw [ht]
      refine ⟨?_, ?_, ?_, hw.aSalt⟩
      · show _ ≤ shim₃.real.length
        rw [hreal₄, length_writeAt]
        exact hw.inside.trans (le_max_left _ _)
      · show Held P cipher s.codec.readReservedBytes s.config shim₃.real frames
        rw [hreal₄]
        exact hw.held.rewriteHeader (by omega) hheader hnum
      · show SlotsEncrypted P cipher s.codec.readReservedBytes s.config W shim₃.real
        rw [hreal₄]
        refine hw.slots.apart hoff fun i hi => ?_
        rcases Nat.lt_trichotomy i (k + 1) with hlt | rfl | hgt
        · exact .inl (s.config.walFrameOffset_lt hi hlt)
        · exact .inr (by omega)
        · have hlt := s.config.walFrameOffset_lt (i := k + 1) (Nat.succ_pos k) hgt
          exact .inr (by omega)
    obtain ⟨hrc, hw₂⟩ := ih hw₁ (by rw [ht]; exact ⟨h.codec, h.walLegacy⟩)
      (Nat.succ_pos (k + 1)) (show k + 1 + 1 + n ≤ frames.length + 1 by omega)
    rw [hr]
    exact ⟨hrc, hw₂⟩

/-- Making up for the checksums. -/
theorem walRewriteChecksums_legacy {frames : List (ℕ × Bytes)}
    (hw : s.LegacyWriting P cipher W frames) (h : s.Legacy cipher) (hre : s.iReCksum ≠ 0)
    (hle : s.iReCksum ≤ frames.length) :
    let r := walRewriteChecksums P s frames.length
    r.1 = .ok ∧ r.2.LegacyWriting P cipher W frames := by
  obtain ⟨iCksumOff, hoff⟩ : ∃ o, o = if s.iReCksum = 1 then 24 else
    s.config.walFrameOffset (s.iReCksum - 1) + 16 := ⟨_, rfl⟩
  have hsz := s.config.szFrame_eq
  have h512 := s.config.le_szPage
  have hin : iCksumOff + 8 ≤ s.shim.real.length := by
    have hinside := hw.inside
    have h32 := s.config.le_walFrameOffset (frames.length + 1)
    rw [hoff]
    split
    · omega
    · have hlt := s.config.walFrameOffset_lt (i := s.iReCksum - 1) (j := frames.length + 1)
        (by omega) (by omega)
      omega
  obtain ⟨shim, hread, hreal⟩ := h.read (P := P) (show 8 < s.config.szPage by omega) hin
  obtain ⟨t, ht⟩ : ∃ t, t = { s with
      shim
      hdr := { s.hdr with
        aFrameCksum := (get4byte (slice (slice s.shim.real iCksumOff 8) 0 4),
          get4byte (slice (slice s.shim.real iCksumOff 8) 4 4)) }
      iReCksum := 0 } := ⟨_, rfl⟩
  have hw₁ : t.LegacyWriting P cipher W frames := by
    rw [ht]
    refine ⟨?_, ?_, ?_, hw.aSalt⟩
    all_goals simp only [hreal]
    · exact hw.inside
    · exact hw.held
    · exact hw.slots
  have hr : walRewriteChecksums P s frames.length =
      rewriteFrames P (frames.length + 1 - s.iReCksum) s.iReCksum t := by
    rw [walRewriteChecksums, ht]
    simp only [← hoff, hread, if_true, WalState.withShim]
  rw [hr]
  exact rewriteFrames_legacy hw₁ (by rw [ht]; exact ⟨h.codec, h.walLegacy⟩) (by omega) (by omega)

/-! ### The end of a commit -/

/-- **No operation splits a page**: where a commit repeats its last page, the sync point does not
fall inside the page of a frame. -/
def NoSplit (s : WalState) : WalAction → Prop
  | .frames pList _ isCommit sync _ =>
    isCommit = true → sync = true → s.config.padToSectorBoundary = true →
      let iFirst := if s.hdr = s.live then 0 else s.live.mxFrame + 1
      let iFrame := s.hdr.mxFrame + (appendedPages s iFirst isCommit pList).length
      let iOffset := s.config.walFrameOffset (iFrame + 1)
      let sectorSize := s.config.sectorSize
      let iSyncPoint := (iOffset + sectorSize - 1) / sectorSize * sectorSize
      (iSyncPoint - iOffset) % s.config.szFrame ≤ walFrameHeaderSize
  | _ => True

/-- **The last page is repeated.** Frames are written up to the sync point, so it is in none of
their pages if it is not in one of this row. -/
theorem walPadFrames_legacy {frames : List (ℕ × Bytes)} {pLast : PgHdr} {fuel iFrame : ℕ}
    (hw : s.LegacyWriting P cipher W frames) (h : s.Legacy cipher) (hp : pLast.Valid s.config)
    (hmem : pLast ∈ W) (hframe : frames.length = iFrame) {iSyncPoint : ℕ} (nTruncate : ℕ)
    (hsync : (iSyncPoint - s.config.walFrameOffset (iFrame + 1)) % s.config.szFrame ≤
      walFrameHeaderSize) :
    let r := walPadFrames P iSyncPoint pLast nTruncate fuel iFrame s
    r.2.LegacyWriting P cipher W (frames ++ List.replicate r.1 pLast.frame) := by
  have hsz := s.config.szFrame_eq
  have hhdr : walFrameHeaderSize = 24 := rfl
  refine (walPadFrames_rule (P := P) (I := fun t frames => s.Same t ∧
    (iSyncPoint - s.config.walFrameOffset (frames.length + 1)) % s.config.szFrame ≤
      walFrameHeaderSize ∧ t.LegacyWriting P cipher W frames) ?_
    ⟨WalState.Same.refl s, hframe ▸ hsync, hw⟩ hframe).2.2
  rintro t frames ⟨hsame, hsync₁, hw₁⟩ hlt
  rw [hsame.config] at hlt
  have hsplit : iSyncPoint ≤ s.config.walFrameOffset (frames.length + 1) + walFrameHeaderSize ∨
      s.config.walFrameOffset (frames.length + 1) + s.config.szFrame ≤ iSyncPoint := by
    by_contra hinside
    rw [not_or, not_le, not_le] at hinside
    rw [Nat.mod_eq_of_lt (by omega)] at hsync₁
    omega
  obtain ⟨hw₂, hsame₂, -⟩ := hw₁.append (h.same hsame) (hsame.config ▸ hp) hmem iSyncPoint nTruncate
    (by rw [hsame.config]; exact hsplit)
  refine ⟨hsame.trans hsame₂, ?_, hw₂⟩
  rw [List.length_append, List.length_singleton,
    s.config.walFrameOffset_succ (show 0 < frames.length + 1 by omega)]
  rcases hsplit with hle | hge
  · -- the sync point is reached
    rw [Nat.sub_eq_zero_of_le (by omega), Nat.zero_mod]
    exact Nat.zero_le _
  · rw [← Nat.sub_sub, ← Nat.mod_eq_sub_mod (by omega)]
    exact hsync₁

/-- The end of the file is cut off behind the frames. -/
theorem WalState.LegacyWriting.limit {frames : List (ℕ × Bytes)}
    (hw : s.LegacyWriting P cipher W frames) (sz : ℕ)
    (hsz : s.config.walFrameOffset (frames.length + 1) ≤ sz) :
    (walLimitSize s sz).LegacyWriting P cipher W frames := by
  obtain ⟨shim, hlimit, hreal | hreal⟩ := walLimitSize_same s sz
  · rw [hlimit]
    refine ⟨?_, ?_, ?_, hw.aSalt⟩
    all_goals simp only [WalState.withShim, hreal]
    · exact hw.inside
    · exact hw.held
    · exact hw.slots
  · rw [hlimit]
    refine ⟨?_, ?_, ?_, hw.aSalt⟩
    all_goals simp only [WalState.withShim, hreal]
    · rw [List.length_take]
      exact le_min hsz hw.inside
    · exact hw.held.take_file hsz
    · exact hw.slots.take_file sz

/-- What is put behind the frames of a commit. -/
theorem walFinish_legacy {frames : List (ℕ × Bytes)} {appended : List PgHdr} {iFrame : ℕ}
    (hw : s.LegacyWriting P cipher W frames) (h : s.Legacy cipher)
    (hpages : ∀ p ∈ appended, p.Valid s.config ∧ p ∈ W) (hframe : frames.length = iFrame)
    (nTruncate : ℕ) {sync : Bool}
    (hsync : sync = true → s.config.padToSectorBoundary = true →
      ((s.config.walFrameOffset (iFrame + 1) + s.config.sectorSize - 1) / s.config.sectorSize *
        s.config.sectorSize - s.config.walFrameOffset (iFrame + 1)) % s.config.szFrame ≤
          walFrameHeaderSize) :
    let r := walFinish P s appended nTruncate iFrame sync
    r.2.LegacyWriting P cipher W (frames ++ repeatedFrames appended r.1) := by
  obtain ⟨pad, hpad, hfinish⟩ := walFinish_eq (P := P) s appended nTruncate iFrame sync
  have hpadded : pad.2.LegacyWriting P cipher W (frames ++ repeatedFrames appended pad.1) ∧
      s.Same pad.2 ∧ (repeatedFrames appended pad.1).length = pad.1 := by
    rcases hpad with rfl | ⟨pLast, hlast, hon, hpad⟩
    · have hnil : repeatedFrames appended 0 = [] := by
        rw [repeatedFrames]
        split <;> rfl
      rw [hnil, List.append_nil]
      exact ⟨hw, WalState.Same.refl s, rfl⟩
    · obtain ⟨hp, hmem⟩ := hpages pLast (List.mem_of_getLast? hlast)
      have hrepeat : repeatedFrames appended pad.1 = List.replicate pad.1 pLast.frame := by
        rw [repeatedFrames, hlast]
      rw [hrepeat, List.length_replicate, hpad]
      exact ⟨walPadFrames_legacy hw h hp hmem hframe nTruncate (hsync hon.1 hon.2),
        (walPadFrames_same _ _ _ _ _ _).1, rfl⟩
  obtain ⟨hw', hsame, hlen⟩ := hpadded
  intro r
  rw [show r = _ from hfinish]
  split
  · have hlimit := hw'.limit (max s.config.mxWalSize.toNat
      (s.config.walFrameOffset (iFrame + pad.1 + 1))) (by
        rw [List.length_append, hlen, hframe, hsame.config]
        exact le_max_right _ _)
    exact ⟨hlimit.inside, hlimit.held, hlimit.slots, hlimit.aSalt⟩
  · exact hw'

/-! ### Between two operations -/

variable (P cipher) in
/-- The log between two operations, with the pages `W` that were handed to it. -/
structure WalState.LegacyInv (W : List PgHdr) (s : WalState) : Prop where
  legacy : s.Legacy cipher
  placed : s.Placed
  held : Held P cipher s.codec.readReservedBytes s.config s.shim.real s.frames
  slots : SlotsEncrypted P cipher s.codec.readReservedBytes s.config W s.shim.real

/-- The header of the log is written, if there are no frames. -/
theorem walBegin_legacy (h : s.LegacyInv P cipher W) {randomSalt : Bytes}
    (hsalt : randomSalt.length = 8) :
    let t := walBegin P s randomSalt
    t.Legacy cipher ∧ t.LegacyWriting P cipher W t.frames := by
  obtain ⟨hconfig, hcodec, -, -, -, hmx, hframes, -, haSalt⟩ :=
    walBegin_positions (P := P) s h.placed.aSalt hsalt
  have hlegacy : (walBegin P s randomSalt).Legacy cipher :=
    ⟨hcodec ▸ h.legacy.codec, hcodec ▸ h.legacy.walLegacy⟩
  refine ⟨hlegacy, ?_⟩
  by_cases hzero : s.hdr.mxFrame = 0
  · obtain ⟨header, t₁, hheader, hlegacy₁, hreal₁, hconfig₁, hbegin⟩ : ∃ header t₁,
        List.length header = 32 ∧ WalState.Legacy cipher t₁ ∧ t₁.shim.real = s.shim.real ∧
        t₁.config = s.config ∧ walBegin P s randomSalt = t₁.write P header 0 := by
      rw [walBegin, if_pos hzero]
      refine ⟨_, _, ?_, ?_, ?_, ?_, rfl⟩
      · simp only [walHeader, List.length_append, length_put4byte]
        split
        · rw [hsalt]
        · rw [h.placed.aSalt]
      · exact ⟨h.legacy.codec, h.legacy.walLegacy⟩
      · rfl
      · rfl
    obtain ⟨shim, hwrite, hreal⟩ := hlegacy₁.write_short (P := P) header
      (by
        have h512 := t₁.config.le_szPage
        omega) 0
    rw [hreal₁] at hreal
    have hnil : (walBegin P s randomSalt).frames = [] := by
      rw [hframes]
      exact List.length_eq_zero_iff.mp (h.placed.length.trans hzero)
    have hfile : (walBegin P s randomSalt).shim.real = writeAt s.shim.real 0 header := by
      rw [hbegin, hwrite]
      exact hreal
    have hhdr : walFrameHeaderSize = 24 := rfl
    rw [hnil]
    refine ⟨?_, Held.nil, ?_, haSalt⟩
    · have h32 : (walBegin P s randomSalt).config.walFrameOffset 1 = 32 := by
        simp [WalConfig.walFrameOffset, walHdrSize]
      show (walBegin P s randomSalt).config.walFrameOffset 1 ≤ _
      rw [h32, hfile, length_writeAt, hheader]
      exact le_max_right _ _
    · rw [hfile, hconfig, hcodec]
      refine h.slots.apart (Nat.zero_le _) fun i hi => .inr ?_
      have h32 := s.config.le_walFrameOffset i
      omega
  · have ht : walBegin P s randomSalt = s := by rw [walBegin, if_neg hzero]
    rw [ht]
    exact ⟨h.held.inside (h.placed.length ▸ hzero), h.held, h.slots, h.placed.aSalt⟩

/-- **Frames are written.** -/
theorem WalState.LegacyInv.frames (h : s.LegacyInv P cipher W) {pList : List PgHdr}
    {randomSalt : Bytes} {nTruncate : ℕ} {isCommit sync : Bool}
    (hallowed : (WalAction.frames pList nTruncate isCommit sync randomSalt).Allowed s)
    (hmem : ∀ p ∈ pList, p ∈ W)
    (hsplit : NoSplit s (.frames pList nTruncate isCommit sync randomSalt)) :
    (s.after P (.frames pList nTruncate isCommit sync randomSalt)).LegacyInv P cipher W := by
  have hsalt := hallowed.2.2.1
  have hplaced := h.placed.frames (P := P) pList nTruncate isCommit sync hsalt
  obtain ⟨hlegacy, hbegin⟩ := walBegin_legacy h hsalt
  obtain ⟨hconfig₀, -, -, -, -, hmx₀, hframes₀, -, -⟩ :=
    walBegin_positions (P := P) s h.placed.aSalt hsalt
  have hwritten := walWritePages_legacy (if s.hdr = s.live then 0 else s.live.mxFrame + 1)
    nTruncate isCommit hbegin hlegacy
    (fun p hp => ⟨by rw [hconfig₀]; exact hallowed.valid p hp, hmem p hp⟩)
    (by rw [hframes₀, hmx₀, h.placed.length])
  have hpos := walWritten_positions (P := P) h.placed pList nTruncate isCommit hsalt
  obtain ⟨r, hr⟩ : ∃ r, walWritten P s pList nTruncate isCommit randomSalt = r := ⟨_, rfl⟩
  rw [hr] at hpos
  have hw : r.2.LegacyWriting P cipher W (r.2.frames ++ r.1.map PgHdr.frame) := by
    rw [← hr]
    exact hwritten
  obtain ⟨appended, u⟩ := r
  obtain ⟨hsame, hconfig, -, -, -, hmx, hlen, -, hle, -, -, happended⟩ := hpos
  simp only at hsame hconfig hmx hlen hle happended hw
  have hleg := hlegacy.same hsame
  have hpages : ∀ p ∈ appended, p.Valid u.config ∧ p ∈ W := by
    intro p hp
    rw [happended] at hp
    have hp' := mem_of_mem_appendedPages hp
    exact ⟨by rw [hconfig]; exact hallowed.valid p hp', hmem p hp'⟩
  have hlen' : (u.frames ++ appended.map PgHdr.frame).length =
      u.hdr.mxFrame + appended.length := by
    rw [List.length_append, List.length_map, hlen, hmx]
  cases isCommit with
  | false =>
    rw [after_spill hr] at hplaced ⊢
    exact ⟨⟨hleg.codec, hleg.walLegacy⟩, hplaced, hw.held, hw.slots⟩
  | true =>
    obtain ⟨v, hv, hw₁, hsame₁, hframes₁⟩ : ∃ v, (if u.iReCksum ≠ 0 then
        walRewriteChecksums P u (u.hdr.mxFrame + appended.length) else (.ok, u)) = (.ok, v) ∧
        v.LegacyWriting P cipher W (u.frames ++ appended.map PgHdr.frame) ∧ u.Same v ∧
        v.frames = u.frames := by
      by_cases hre : u.iReCksum = 0
      · exact ⟨u, if_neg (not_not.mpr hre), hw, WalState.Same.refl u, rfl⟩
      · obtain ⟨hrc, hw'⟩ := walRewriteChecksums_legacy hw hleg hre (by omega)
        obtain ⟨hsame', hframes', -⟩ :=
          walRewriteChecksums_same (P := P) u (u.hdr.mxFrame + appended.length)
        rw [hlen'] at hrc hw'
        refine ⟨_, ?_, hw', hsame', hframes'⟩
        rw [if_pos hre, ← hrc]
    have hleg₁ := hleg.same hsame₁
    have hsync : sync = true → v.config.padToSectorBoundary = true →
        ((v.config.walFrameOffset (u.hdr.mxFrame + appended.length + 1) + v.config.sectorSize - 1) /
          v.config.sectorSize * v.config.sectorSize -
            v.config.walFrameOffset (u.hdr.mxFrame + appended.length + 1)) % v.config.szFrame ≤
              walFrameHeaderSize := by
      rw [hsame₁.config, hconfig, hmx, happended]
      exact hsplit rfl
    have hw₂ := walFinish_legacy hw₁ hleg₁ (by rw [hsame₁.config]; exact hpages) hlen' nTruncate
      hsync
    obtain ⟨hsame₂, hframes₂, -, -⟩ := walFinish_same (P := P) v appended nTruncate
      (u.hdr.mxFrame + appended.length) sync
    obtain ⟨x, hx⟩ : ∃ x, walFinish P v appended nTruncate (u.hdr.mxFrame + appended.length)
      sync = x := ⟨_, rfl⟩
    rw [hx] at hw₂ hsame₂ hframes₂
    obtain ⟨nExtra, x⟩ := x
    have hleg₂ := hleg₁.same hsame₂
    rw [after_commit hr hv hx] at hplaced ⊢
    rw [show x.frames = u.frames from hframes₂.trans hframes₁] at hplaced ⊢
    exact ⟨⟨hleg₂.codec, hleg₂.walLegacy⟩, hplaced, hw₂.held, hw₂.slots⟩

/-- The pages of an operation. -/
def WalAction.pages : WalAction → List PgHdr
  | .frames pList _ _ _ _ => pList
  | _ => []

/-- **One operation of the writer.** All but writing frames leave the file alone or truncate it, and
keep a part of the frames. -/
theorem WalState.LegacyInv.step {t : WalState} {a : WalAction} (h : s.LegacyInv P cipher W)
    (hmem : ∀ p ∈ a.pages, p ∈ W) (hsplit : NoSplit s a) (hstep : WalStep P s a t) :
    t.LegacyInv P cipher W := by
  have hplaced := h.placed.step hstep
  obtain ⟨hallowed, rfl⟩ := hstep
  have hcodec := h.legacy.codec
  have hwal := h.legacy.walLegacy
  cases a with
  | frames pList nTruncate isCommit sync randomSalt => exact h.frames hallowed hmem hsplit
  | restart salt1 truncate =>
    refine ⟨⟨hcodec, hwal⟩, hplaced, Held.nil, ?_⟩
    show SlotsEncrypted P cipher s.codec.readReservedBytes s.config W
      (if truncate then { s.shim with real := [] } else s.shim).real
    split
    · exact SlotsEncrypted.nil
    · exact h.slots
  | undo => exact ⟨⟨hcodec, hwal⟩, hplaced, h.held.take _, h.slots⟩
  | savepoint => exact ⟨⟨hcodec, hwal⟩, hplaced, h.held, h.slots⟩
  | savepointUndo k =>
    cases hk : s.savepoints[k]? with
    | none =>
      have hnone : sqlite3WalSavepointUndo s k = s := by rw [sqlite3WalSavepointUndo, hk]
      show (sqlite3WalSavepointUndo s k).LegacyInv P cipher W
      rw [hnone]
      exact h
    | some sp =>
      have hback : s.after P (.savepointUndo k) = _ := sqlite3WalSavepointUndo_eq hk
      rw [hback] at hplaced ⊢
      simp only at hplaced ⊢
      split at hplaced
      · rename_i hlt
        rw [if_pos hlt]
        exact ⟨⟨hcodec, hwal⟩, hplaced, h.held.take _, h.slots⟩
      · rename_i hlt
        rw [if_neg hlt]
        exact ⟨⟨hcodec, hwal⟩, hplaced, h.held, h.slots⟩
  | release k => exact ⟨⟨hcodec, hwal⟩, hplaced, h.held, h.slots⟩

/-! ### Runs -/

variable (P cipher) in
/-- The pages in the file are encrypted, each an encryption of one of the pages `W`, and every frame
of the log is the encryption of the page last written there, which a read delivers. -/
structure WalState.LegacySafe (W : List PgHdr) (s : WalState) : Prop where
  slots : SlotsEncrypted P cipher s.codec.readReservedBytes s.config W s.shim.real
  image : ∀ k f, s.frames[k]? = some f → Encrypts P cipher s.codec.readReservedBytes f.1 f.2
    (slice s.shim.real (s.config.walFrameOffset (k + 1) + walFrameHeaderSize) s.config.szPage)
  read : ∀ k f, s.frames[k]? = some f → (s.readPage P (k + 1)).1 = .ok ∧
    SameContent (cipher.nReserved s.codec.readReservedBytes) (s.readPage P (k + 1)).2.1 f.2

theorem WalState.LegacyInv.safe (h : s.LegacyInv P cipher W) : s.LegacySafe P cipher W :=
  ⟨h.slots, fun k f hk => (h.held k f hk).image,
    fun k f hk => (h.held k f hk).readPage h.legacy.codec⟩

/-- **The log in the legacy mode.** In every run on a new log file that splits no page, the pages in
the file are encryptions of pages that were handed to the log, and every frame is read back. -/
theorem walLegacy_encrypted {s t : WalState} {as : List WalAction} (hfresh : s.Fresh)
    (hfile : s.shim.real = []) (hlegacy : s.Legacy cipher)
    (hrun : Transition.GuardedRun (WalStep P) NoSplit s as t) :
    t.LegacySafe P cipher (as.flatMap WalAction.pages) := by
  have hinit : s.LegacyInv P cipher (as.flatMap WalAction.pages) := by
    refine ⟨hlegacy, hfresh.placed, ?_, ?_⟩
    · rw [hfresh.frames]
      exact Held.nil
    · rw [hfile]
      exact SlotsEncrypted.nil
  refine (hrun.mem.invariant (WalState.LegacyInv P cipher (as.flatMap WalAction.pages)) ?_
    hinit).safe
  intro s t a hinv hguard hstep
  exact hinv.step (fun p hp => List.mem_flatMap.mpr ⟨a, hguard.2, hp⟩) hguard.1 hstep

end Legacy

/-! ### Two runs -/

/-- RC4 has one encryption of a page. -/
theorem Encrypts.rc4 {P : Primitives} {c : RC4Cipher} {reserved : ℤ} {pgno : ℕ}
    {page image : Bytes} (h : Encrypts P (.rc4 c) reserved pgno page image) :
    image = sqlite3mcRC4 c.key page := by
  obtain ⟨t, env, env', henc⟩ := h
  exact (congrArg (fun r => r.2.1) henc).symm

/-- An RC4 codec in the legacy mode. -/
def legacyRc4Codec : Codec Cipher := { rc4Codec with walLegacy := 1 }

theorem emptyWal_legacy : (emptyWal legacyRc4Codec).Legacy (.rc4 ⟨1, 0, zeros 16⟩) :=
  ⟨⟨rfl, rfl, rfl, trivial, rfl⟩, by decide⟩

/-- An empty log on a device with sectors of 32 bytes, the smallest that are taken over. -/
def emptyWalOn32 : WalState :=
  { emptyWal legacyRc4Codec with config := { walOn4096 with
      sectorSize := 32
      sectorSize_valid := le_rfl } }

set_option maxRecDepth 10000 in
/-- A spill, the page again in the same frame, and a synced commit of it. The frame of the commit
ends 16 bytes before the end of a sector, so that the sync point is in the header of the third
frame, in which the page is repeated. -/
theorem walLegacy_encrypted_overwritten :
    let t := ([.frames [zeroPage] 0 false false (zeros 8),
      .frames [zeroPage] 0 false false (zeros 8), .frames [zeroPage] 2 true true (zeros 8)] :
        List WalAction).foldl (WalState.after nullPrimitives) emptyWalOn32
    t.LegacySafe nullPrimitives (.rc4 ⟨1, 0, zeros 16⟩) [zeroPage, zeroPage, zeroPage] ∧
      t.frames.length = 3 := by
  refine ⟨@walLegacy_encrypted nullPrimitives (.rc4 ⟨1, 0, zeros 16⟩) emptyWalOn32 _
    [.frames [zeroPage] 0 false false (zeros 8), .frames [zeroPage] 0 false false (zeros 8),
      .frames [zeroPage] 2 true true (zeros 8)] ⟨rfl, rfl, rfl, rfl, rfl, rfl, rfl⟩ rfl
      ⟨⟨rfl, rfl, rfl, trivial, rfl⟩, by decide⟩ ?_, by decide⟩
  refine .cons (fun h => by cases h) ⟨zeroPage_allowed rfl (by decide) (by decide) _, rfl⟩ ?_
  refine .cons (fun h => by cases h) ⟨zeroPage_allowed rfl (by decide) (by decide) _, rfl⟩ ?_
  refine .cons (fun _ _ _ => ?_) ⟨zeroPage_allowed rfl (by decide) (by decide) _, rfl⟩ ?_
  · decide
  · exact .nil _

/-- A synced commit of a page on a device with sectors of 4096 bytes. The sync point is inside the
page of the eighth frame. -/
def splitWal : WalState :=
  (emptyWal legacyRc4Codec).after nullPrimitives (.frames [zeroPage] 2 true true (zeros 8))

set_option maxRecDepth 10000 in
theorem splitWal_config : splitWal.config = walOn4096 := rfl

set_option maxRecDepth 100000 in
/-- The page of the eighth frame is in plaintext. -/
theorem splitWal_page : slice splitWal.shim.real
    (walOn4096.walFrameOffset 8 + walFrameHeaderSize) walOn4096.szPage = zeros 512 := by
  decide

/-- **A page in plaintext.** The commit repeats the page up to the end of the sector, and writes the
last copy in two parts. -/
theorem walLegacy_plaintext :
    ¬ ∀ (P : Primitives) (cipher : Cipher) (s t : WalState) (as : List WalAction), s.Fresh →
      s.shim.real = [] → s.Legacy cipher → Transition.Run (WalStep P) s as t →
        t.LegacySafe P cipher (as.flatMap WalAction.pages) := by
  intro h
  have hrun : Transition.Run (WalStep nullPrimitives) (emptyWal legacyRc4Codec)
      [.frames [zeroPage] 2 true true (zeros 8)] splitWal :=
    .cons ⟨zeroPage_allowed rfl (by decide) (by decide) _, rfl⟩ (.nil _)
  have hslots := (h nullPrimitives (.rc4 ⟨1, 0, zeros 16⟩) _ _ _ (emptyWal_fresh legacyRc4Codec)
    rfl emptyWal_legacy hrun).slots
  rw [splitWal_config] at hslots
  have hslot := hslots 8 (by decide)
  rw [splitWal_page] at hslot
  rcases hslot with hnil | ⟨p, hp, image, henc, hpart⟩
  · exact absurd hnil (List.cons_ne_nil _ _)
  · have hpage : p = zeroPage := by simpa [WalAction.pages] using hp
    rw [hpage] at henc
    have himage : image = sqlite3mcRC4 (zeros 16) (zeros 512) := henc.rc4
    have hfirst : image[0]? = some 0 := by
      obtain ⟨rest, hrest⟩ := hpart
      rw [← hrest]
      rfl
    apply rc4_zeros
    rw [← himage]
    exact hfirst

end MultipleCiphers
