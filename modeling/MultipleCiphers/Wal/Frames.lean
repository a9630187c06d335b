import MultipleCiphers.Ciphers.RoundTrip
import MultipleCiphers.Wal.Model

/-!
# Frames in the log file

What the bytes of a log file say about frames, and what remains of that when a frame is written,
when the page of a frame is overwritten, when the header of a frame is, and when the end of the file
is cut off. Nothing here depends on how the bytes came into the file.

## Main definitions

* `Encrypts` — an image is the encryption of a page.
* `FrameStored`, `Held` — a frame is in the file, and a list of frames is.
* `storedCksum`, `CksumValid` — the checksum in the header of a frame, and that it is the right one.

## Main results

* `FrameStored.readPage` — the page of a frame is read back.
* `Held.append`, `Held.overwrite`, `Held.rewriteHeader`, `Held.take_file` — the frames after a
  write.
* `cksumValid_encoded` — a header that is computed from the checksum before is valid.
-/

namespace MultipleCiphers

open Bytes

/-! ### Offsets -/

namespace WalConfig

variable (c : WalConfig)

theorem le_szPage : 512 ≤ c.szPage := by
  obtain ⟨k, hk, -, h⟩ := c.szPage_valid
  calc 512 = 2 ^ 9 := rfl
    _ ≤ 2 ^ k := Nat.pow_le_pow_right (by omega) hk
    _ = c.szPage := h.symm

theorem szFrame_eq : c.szFrame = 24 + c.szPage := rfl

theorem le_walFrameOffset (iFrame : ℕ) : 32 ≤ c.walFrameOffset iFrame := Nat.le_add_right _ _

theorem walFrameOffset_succ {iFrame : ℕ} (h : 0 < iFrame) :
    c.walFrameOffset (iFrame + 1) = c.walFrameOffset iFrame + c.szFrame := by
  obtain ⟨n, rfl⟩ : ∃ n, iFrame = n + 1 := ⟨iFrame - 1, by omega⟩
  simp only [walFrameOffset, Nat.add_sub_cancel]
  ring

/-- A frame ends before the next begins. -/
theorem walFrameOffset_lt {i j : ℕ} (hi : 0 < i) (hij : i < j) :
    c.walFrameOffset i + c.szFrame ≤ c.walFrameOffset j := by
  rw [← c.walFrameOffset_succ hi]
  exact Nat.add_le_add_left (Nat.mul_le_mul_right _ (by omega)) _

theorem walFrameOffset_mono {i j : ℕ} (hij : i ≤ j) : c.walFrameOffset i ≤ c.walFrameOffset j :=
  Nat.add_le_add_left (Nat.mul_le_mul_right _ (by omega)) _

end WalConfig

/-! ### Images -/

/-- An image is the encryption of a page with a cipher. -/
def Encrypts (P : Primitives) (cipher : Cipher) (reserved : ℤ) (pgno : ℕ) (page image : Bytes) :
    Prop :=
  ∃ t env env', (builtinDescriptors P t).encryptPage cipher pgno page reserved env =
    (.ok, image, env')

section Images

variable {P : Primitives} {cipher : Cipher} {reserved : ℤ} {pgno : ℕ} {page image : Bytes}

/-- Encryption of a page that fits. -/
theorem encryptPage_encrypts (hwf : cipher.WellFormed) (hfits : cipher.fits reserved = true)
    (hpage : DatabasePage pgno page) (t : ℕ) (env : Env) :
    let enc := (builtinDescriptors P t).encryptPage cipher pgno page reserved env
    enc.1 = .ok ∧ enc.2.1.length = page.length ∧ Encrypts P cipher reserved pgno page enc.2.1 := by
  intro enc
  have hback := decryptPage_encryptPage (P := P) hwf hfits hpage t t 0 env
  refine ⟨hback.ok, hback.length_eq, t, env, enc.2.2, ?_⟩
  show enc = _
  rw [← show enc.1 = .ok from hback.ok]

/-- Decryption of an image. -/
theorem Encrypts.decrypt (h : Encrypts P cipher reserved pgno page image)
    (hwf : cipher.WellFormed) (hfits : cipher.fits reserved = true)
    (hpage : DatabasePage pgno page) (t : ℕ) (hmacCheck : ℤ) :
    let dec := (builtinDescriptors P t).decryptPage cipher pgno image reserved hmacCheck
    dec.1 = .ok ∧ SameContent (cipher.nReserved reserved) dec.2 page := by
  obtain ⟨t', env, env', henc⟩ := h
  have hback := decryptPage_encryptPage (P := P) hwf hfits hpage t' t hmacCheck env
  rw [henc] at hback
  exact ⟨hback.dec_ok, hback.content⟩

end Images

/-! ### Frames -/

/-- A page that SQLite hands to the log. -/
structure PgHdr.Valid (c : WalConfig) (p : PgHdr) : Prop where
  pgno_ne : p.pgno ≠ 0
  pgno_lt : p.pgno < 2 ^ 32
  page : DatabasePage p.pgno p.data
  length : p.data.length = c.szPage

/-- The pages of an operation are valid. -/
theorem WalAction.Allowed.valid {s : WalState} {pList : List PgHdr} {nTruncate : ℕ}
    {isCommit sync : Bool} {randomSalt : Bytes}
    (h : (WalAction.frames pList nTruncate isCommit sync randomSalt).Allowed s) :
    ∀ p ∈ pList, p.Valid s.config := by
  obtain ⟨-, -, -, -, -, hpages⟩ := h
  intro p hp
  obtain ⟨hne, hlt, hpage, hlen⟩ := hpages p hp
  exact ⟨hne, hlt, hpage, hlen⟩

section Frames

variable (P : Primitives) (cipher : Cipher) (reserved : ℤ) (c : WalConfig)

/-- A frame is in the file: its number and the encrypted page. -/
structure FrameStored (file : Bytes) (iFrame : ℕ) (f : ℕ × Bytes) : Prop where
  inside : c.walFrameOffset iFrame + c.szFrame ≤ file.length
  number : get4byte (slice file (c.walFrameOffset iFrame) 4) = f.1
  image : Encrypts P cipher reserved f.1 f.2
    (slice file (c.walFrameOffset iFrame + walFrameHeaderSize) c.szPage)
  page : DatabasePage f.1 f.2
  length : f.2.length = c.szPage
  pgno_ne : f.1 ≠ 0

/-- Frames are in the file, from the first on. -/
def Held (file : Bytes) (frames : List (ℕ × Bytes)) : Prop :=
  ∀ k f, frames[k]? = some f → FrameStored P cipher reserved c file (k + 1) f

variable {P cipher reserved c} {file : Bytes} {frames : List (ℕ × Bytes)} {f : ℕ × Bytes}

theorem FrameStored.congr {file' : Bytes} {iFrame : ℕ}
    (h : FrameStored P cipher reserved c file iFrame f)
    (hin : c.walFrameOffset iFrame + c.szFrame ≤ file'.length)
    (hnumber : get4byte (slice file' (c.walFrameOffset iFrame) 4) =
      get4byte (slice file (c.walFrameOffset iFrame) 4))
    (himage : slice file' (c.walFrameOffset iFrame + walFrameHeaderSize) c.szPage =
      slice file (c.walFrameOffset iFrame + walFrameHeaderSize) c.szPage) :
    FrameStored P cipher reserved c file' iFrame f :=
  ⟨hin, hnumber.trans h.number, himage ▸ h.image, h.page, h.length, h.pgno_ne⟩

/-- A write that does not touch a frame. -/
theorem FrameStored.apart {iFrame off : ℕ} {d : Bytes}
    (h : FrameStored P cipher reserved c file iFrame f) (hoff : off ≤ file.length)
    (hdis : c.walFrameOffset iFrame + c.szFrame ≤ off ∨
      off + d.length ≤ c.walFrameOffset iFrame) :
    FrameStored P cipher reserved c (writeAt file off d) iFrame f := by
  have hin := h.inside
  have hsz := c.szFrame_eq
  have hhdr : walFrameHeaderSize = 24 := rfl
  refine h.congr ?_ ?_ (slice_writeAt_apart hoff (by omega))
  · rw [length_writeAt]
    omega
  · rw [slice_writeAt_apart hoff (by omega)]

theorem Held.nil : Held P cipher reserved c file [] := fun k f h => by simp at h

/-- The end of the frames is inside the file. -/
theorem Held.inside (h : Held P cipher reserved c file frames) (hne : frames.length ≠ 0) :
    c.walFrameOffset (frames.length + 1) ≤ file.length := by
  obtain ⟨n, hn⟩ : ∃ n, frames.length = n + 1 := ⟨frames.length - 1, by omega⟩
  have hlast := (h n _ (List.getElem?_eq_getElem (by omega))).inside
  rw [hn, c.walFrameOffset_succ (by omega)]
  exact hlast

/-- The first of the frames. -/
theorem Held.take (h : Held P cipher reserved c file frames) (n : ℕ) :
    Held P cipher reserved c file (frames.take n) := by
  intro k f hk
  rw [List.getElem?_take] at hk
  split at hk
  · exact h k f hk
  · cases hk

/-- **A frame is written** behind the others. -/
theorem Held.append (h : Held P cipher reserved c file frames) {header image : Bytes}
    (hoff : c.walFrameOffset (frames.length + 1) ≤ file.length) (hheader : header.length = 24)
    (himage : image.length = c.szPage) (hnumber : get4byte (slice header 0 4) = f.1)
    (henc : Encrypts P cipher reserved f.1 f.2 image) (hpage : DatabasePage f.1 f.2)
    (hlength : f.2.length = c.szPage) (hne : f.1 ≠ 0) :
    Held P cipher reserved c
      (writeAt file (c.walFrameOffset (frames.length + 1)) (header ++ image)) (frames ++ [f]) := by
  have hd : (header ++ image).length = c.szFrame := by
    rw [List.length_append, hheader, himage]
    rfl
  have hsz := c.szFrame_eq
  intro k g hk
  rcases Nat.lt_trichotomy k frames.length with hlt | rfl | hgt
  · rw [List.getElem?_append_left hlt] at hk
    exact (h k g hk).apart hoff (.inl (c.walFrameOffset_lt (by omega) (by omega)))
  · rw [List.getElem?_append_right le_rfl, Nat.sub_self] at hk
    cases hk
    refine ⟨?_, ?_, ?_, hpage, hlength, hne⟩
    · rw [length_writeAt, hd]
      omega
    · rw [slice_writeAt_start _ _ (by omega), slice_append_left _ (by omega), hnumber]
    · rw [slice_writeAt_part _ _ (by rw [hd]; exact le_of_eq hsz.symm),
        slice_append_behind (show header.length = walFrameHeaderSize from hheader) himage]
      exact henc
  · rw [List.getElem?_append_right (by omega)] at hk
    obtain ⟨m, hm⟩ : ∃ m, k - frames.length = m + 1 := ⟨k - frames.length - 1, by omega⟩
    rw [hm] at hk
    cases hk

/-- **The page of a frame is overwritten.** -/
theorem Held.overwrite (h : Held P cipher reserved c file frames) {k : ℕ} {page image : Bytes}
    (hk : frames[k]? = some f) (himage : image.length = c.szPage)
    (henc : Encrypts P cipher reserved f.1 page image) (hpage : DatabasePage f.1 page)
    (hlength : page.length = c.szPage) :
    Held P cipher reserved c
      (writeAt file (c.walFrameOffset (k + 1) + walFrameHeaderSize) image)
      (frames.set k (f.1, page)) := by
  have hsz := c.szFrame_eq
  have hhdr : walFrameHeaderSize = 24 := rfl
  have hframe := h k f hk
  have hin := hframe.inside
  have hoff : c.walFrameOffset (k + 1) + walFrameHeaderSize ≤ file.length := by omega
  intro j g hj
  rw [List.getElem?_set] at hj
  by_cases hjk : k = j
  · subst hjk
    rw [if_pos rfl] at hj
    split at hj
    · cases hj
      refine ⟨?_, ?_, ?_, hpage, hlength, hframe.pgno_ne⟩
      · rw [length_writeAt]
        omega
      · rw [slice_writeAt_apart hoff (by omega)]
        exact hframe.number
      · rw [← himage, slice_writeAt_self]
        exact henc
    · cases hj
  · rw [if_neg hjk] at hj
    refine (h j g hj).apart hoff ?_
    rcases Nat.lt_or_gt_of_ne hjk with hlt | hgt
    · have hle := c.walFrameOffset_lt (i := k + 1) (j := j + 1) (by omega) (by omega)
      exact .inr (by omega)
    · have hle := c.walFrameOffset_lt (i := j + 1) (j := k + 1) (by omega) (by omega)
      exact .inl (by omega)

/-- **The header of a frame is overwritten**, but for the number. -/
theorem Held.rewriteHeader (h : Held P cipher reserved c file frames) {k : ℕ} {header : Bytes}
    (hk : k < frames.length) (hheader : header.length = 24)
    (hnumber : get4byte (slice header 0 4) =
      get4byte (slice file (c.walFrameOffset (k + 1)) 4)) :
    Held P cipher reserved c (writeAt file (c.walFrameOffset (k + 1)) header) frames := by
  have hsz := c.szFrame_eq
  have hhdr : walFrameHeaderSize = 24 := rfl
  have hin := (h k _ (List.getElem?_eq_getElem hk)).inside
  have hoff : c.walFrameOffset (k + 1) ≤ file.length := by omega
  intro j g hj
  have hframe := h j g hj
  rcases Nat.lt_trichotomy j k with hlt | rfl | hgt
  · exact hframe.apart hoff (.inl (c.walFrameOffset_lt (by omega) (by omega)))
  · refine hframe.congr ?_ ?_ (slice_writeAt_apart hoff (by omega))
    · rw [length_writeAt]
      omega
    · rw [slice_writeAt_start _ _ (by omega), hnumber]
  · have hle := c.walFrameOffset_lt (i := k + 1) (j := j + 1) (by omega) (by omega)
    exact hframe.apart hoff (.inr (by omega))

/-- The end of the file is cut off behind the frames. -/
theorem Held.take_file (h : Held P cipher reserved c file frames) {n : ℕ}
    (hn : c.walFrameOffset (frames.length + 1) ≤ n) :
    Held P cipher reserved c (file.take n) frames := by
  have hsz := c.szFrame_eq
  have hhdr : walFrameHeaderSize = 24 := rfl
  intro k f hk
  have hframe := h k f hk
  have hin := hframe.inside
  have hlt : k < frames.length := (List.getElem?_eq_some_iff.mp hk).1
  have hle := c.walFrameOffset_lt (i := k + 1) (j := frames.length + 1) (by omega) (by omega)
  refine hframe.congr ?_ ?_ (slice_take (by omega))
  · rw [List.length_take]
    omega
  · rw [slice_take (by omega)]

end Frames

/-! ### Reading a page -/

/-- A codec that reads with a cipher, with as many reserved bytes as that needs. The key operations
give a codec those that its cipher asks for. -/
structure Codec.ReadsWith (codec : Codec Cipher) (cipher : Cipher) : Prop where
  isEncrypted : codec.isEncrypted = true
  hasReadCipher : codec.hasReadCipher = true
  readCipher : codec.readCipher = some cipher
  wellFormed : cipher.WellFormed
  fits : cipher.fits codec.readReservedBytes = true

section Reading

variable {P : Primitives} {cipher : Cipher}

/-- The page of a frame is decrypted under the number in its header. -/
theorem FrameStored.readPage {s : WalState} {iFrame : ℕ} {f : ℕ × Bytes}
    (hf : FrameStored P cipher s.codec.readReservedBytes s.config s.shim.real iFrame f)
    (h : s.codec.ReadsWith cipher) :
    (s.readPage P iFrame).1 = .ok ∧
      SameContent (cipher.nReserved s.codec.readReservedBytes) (s.readPage P iFrame).2.1 f.2 := by
  have hsz := s.config.szFrame_eq
  have hhdr : walFrameHeaderSize = 24 := rfl
  have hin := hf.inside
  have hpageIn : s.config.walFrameOffset iFrame + walFrameHeaderSize + s.config.szPage ≤
      s.shim.real.length := by omega
  have hoff : ((s.config.walFrameOffset iFrame + walFrameHeaderSize : ℕ) : ℤ) - walFrameHeaderSize =
      (s.config.walFrameOffset iFrame : ℤ) := by omega
  obtain ⟨shim₁, hread₁, hreal₁⟩ : ∃ shim, s.shim.xRead memoryFile s.config.szPage
      (s.config.walFrameOffset iFrame + walFrameHeaderSize : ℕ) = (.ok, slice s.shim.real
        (s.config.walFrameOffset iFrame + walFrameHeaderSize) s.config.szPage, shim) ∧
      shim.real = s.shim.real := ⟨_, xRead_memoryFile hpageIn, rfl⟩
  obtain ⟨shim₂, hread₂⟩ : ∃ shim, shim₁.xRead memoryFile 4 (s.config.walFrameOffset iFrame) =
      (.ok, slice shim₁.real (s.config.walFrameOffset iFrame) 4, shim) :=
    ⟨_, xRead_memoryFile (by rw [hreal₁]; omega)⟩
  rw [hreal₁] at hread₂
  have hcodec : s.walFile.encryptedCodec = some s.codec := by
    simp [McFile.encryptedCodec, WalState.walFile, h.isEncrypted]
  have hkind : s.walFile.kind = .wal := rfl
  have hsize : s.walFile.pageSize = s.config.szPage := rfl
  obtain ⟨hrc, hsame⟩ := hf.image.decrypt h.wellFormed h.fits hf.page
    s.codec.readCipherType s.codec.hmacCheck
  have hload : ∀ env, sqlite3mcCodec (builtinDescriptors P) s.codec (slice s.shim.real
      (s.config.walFrameOffset iFrame + walFrameHeaderSize) s.config.szPage) f.1 .load env =
      (.ok, ((builtinDescriptors P s.codec.readCipherType).decryptPage cipher f.1
        (slice s.shim.real (s.config.walFrameOffset iFrame + walFrameHeaderSize) s.config.szPage)
        s.codec.readReservedBytes s.codec.hmacCheck).2, env) := by
    intro env
    simp [sqlite3mcCodec, h.isEncrypted, h.hasReadCipher, sqlite3mcDecrypt,
      h.readCipher, hrc]
  have hread : s.readPage P iFrame =
      (.ok, ((builtinDescriptors P s.codec.readCipherType).decryptPage
      cipher f.1 (slice s.shim.real (s.config.walFrameOffset iFrame + walFrameHeaderSize)
        s.config.szPage) s.codec.readReservedBytes s.codec.hmacCheck).2,
      (s.readPage P iFrame).2.2) := by
    simp only [WalState.readPage, WalState.read, mcIoRead, hread₁, hkind, mcReadWal, hcodec, hsize,
      hoff, hread₂, hf.number, Shim.runCodec, hload, if_true, if_false, reduceCtorEq, ne_eq,
      hf.pgno_ne, not_false_eq_true]
  rw [hread]
  exact ⟨rfl, hsame⟩

end Reading

/-! ### Checksums -/

section Checksums

variable (c : WalConfig)

/-- The checksum in the header of a frame, or, for number zero, in that of the log. -/
def storedCksum (file : Bytes) (iFrame : ℕ) : ℕ × ℕ :=
  let iCksumOff := if iFrame = 0 then 24 else c.walFrameOffset iFrame + 16
  (get4byte (slice file iCksumOff 4), get4byte (slice file (iCksumOff + 4) 4))

/-- The checksum of a frame, computed from the one before. -/
def frameCksum (bigEndCksum : Bool) (frame : Bytes) (aCksum : ℕ × ℕ) : ℕ × ℕ :=
  walChecksumBytes bigEndCksum (slice frame walFrameHeaderSize c.szPage)
    (walChecksumBytes bigEndCksum (slice frame 0 8) aCksum)

/-- The checksum in the header of a frame is that of its bytes. -/
def CksumValid (bigEndCksum : Bool) (file : Bytes) (iFrame : ℕ) : Prop :=
  storedCksum c file iFrame =
    frameCksum c bigEndCksum (slice file (c.walFrameOffset iFrame) c.szFrame)
      (storedCksum c file (iFrame - 1))

variable {c} {bigEndCksum : Bool} {file : Bytes}

/-- Checksums are numbers of 32 bits. -/
theorem walChecksumBytes_lt (bigEndCksum : Bool) (a : Bytes) {aCksum : ℕ × ℕ}
    (h : aCksum.1 < 2 ^ 32 ∧ aCksum.2 < 2 ^ 32) :
    (walChecksumBytes bigEndCksum a aCksum).1 < 2 ^ 32 ∧
      (walChecksumBytes bigEndCksum a aCksum).2 < 2 ^ 32 := by
  induction a, aCksum using walChecksumBytes.induct bigEndCksum with
  | case1 a₀ a₁ a₂ a₃ b₀ b₁ b₂ b₃ rest s1 s2 word s1' s2' ih =>
    rw [walChecksumBytes]
    exact ih ⟨Nat.mod_lt _ (by decide), Nat.mod_lt _ (by decide)⟩
  | case2 a aCksum hshort =>
    rw [walChecksumBytes]
    · exact h
    · exact hshort

theorem storedCksum_lt (iFrame : ℕ) :
    (storedCksum c file iFrame).1 < 2 ^ 32 ∧ (storedCksum c file iFrame).2 < 2 ^ 32 :=
  ⟨get4byte_lt _, get4byte_lt _⟩

/-- Where the checksum of a frame is. -/
theorem storedCksum_congr {file' : Bytes} {iFrame : ℕ}
    (h : ∀ o len, 24 ≤ o → o + len ≤ 32 ∨
      0 < iFrame ∧ c.walFrameOffset iFrame + 16 ≤ o ∧ o + len ≤ c.walFrameOffset iFrame + 24 →
        slice file' o len = slice file o len) :
    storedCksum c file' iFrame = storedCksum c file iFrame := by
  have h32 := c.le_walFrameOffset iFrame
  rw [storedCksum, storedCksum]
  by_cases hzero : iFrame = 0
  · simp only [if_pos hzero]
    rw [h 24 4 (by omega) (by omega), h (24 + 4) 4 (by omega) (by omega)]
  · simp only [if_neg hzero]
    rw [h _ 4 (by omega) (by omega), h (c.walFrameOffset iFrame + 16 + 4) 4 (by omega) (by omega)]

/-- The checksums before a write are kept. -/
theorem storedCksum_before {off iFrame : ℕ} {d : Bytes} (hoff : off ≤ file.length)
    (h : c.walFrameOffset (iFrame + 1) ≤ off) :
    storedCksum c (writeAt file off d) iFrame = storedCksum c file iFrame := by
  have h32 := c.le_walFrameOffset (iFrame + 1)
  have hsz := c.szFrame_eq
  refine storedCksum_congr fun o len _ hrange => slice_writeAt_apart hoff (.inl ?_)
  rcases hrange with hle | ⟨hpos, -, hle⟩
  · omega
  · rw [c.walFrameOffset_succ hpos] at h
    omega

/-- The checksums are kept when the page of a frame is overwritten. -/
theorem storedCksum_overwrite {k iFrame : ℕ} {image : Bytes} (hk : 0 < k)
    (hoff : c.walFrameOffset k + walFrameHeaderSize ≤ file.length)
    (himage : image.length = c.szPage) :
    storedCksum c (writeAt file (c.walFrameOffset k + walFrameHeaderSize) image) iFrame =
      storedCksum c file iFrame := by
  have h32 := c.le_walFrameOffset k
  have hsz := c.szFrame_eq
  have hhdr : walFrameHeaderSize = 24 := rfl
  refine storedCksum_congr fun o len _ hrange => slice_writeAt_apart hoff ?_
  rcases hrange with hle | ⟨hpos, hge, hle⟩
  · exact .inl (by omega)
  · rcases Nat.lt_trichotomy iFrame k with hlt | rfl | hgt
    · have hbefore := c.walFrameOffset_lt hpos hlt
      exact .inl (by omega)
    · exact .inl (by omega)
    · have hbehind := c.walFrameOffset_lt hk hgt
      exact .inr (by omega)

/-- Checksums before a write stay valid. -/
theorem CksumValid.before {off iFrame : ℕ} {d : Bytes} (h : CksumValid c bigEndCksum file iFrame)
    (hpos : 0 < iFrame) (hoff : off ≤ file.length) (hle : c.walFrameOffset (iFrame + 1) ≤ off) :
    CksumValid c bigEndCksum (writeAt file off d) iFrame := by
  have hprev : c.walFrameOffset (iFrame - 1 + 1) ≤ off := by
    rw [show iFrame - 1 + 1 = iFrame by omega]
    exact (c.walFrameOffset_mono (by omega)).trans hle
  rw [CksumValid, storedCksum_before hoff hle, storedCksum_before hoff hprev,
    slice_writeAt_apart hoff (.inl (by rw [← c.walFrameOffset_succ hpos]; exact hle))]
  exact h

/-- The checksums are kept when the end of the file is cut off behind them. -/
theorem storedCksum_take_file {n iFrame : ℕ} (hle : c.walFrameOffset (iFrame + 1) ≤ n) :
    storedCksum c (file.take n) iFrame = storedCksum c file iFrame := by
  have h32 := c.le_walFrameOffset (iFrame + 1)
  have hsz := c.szFrame_eq
  refine storedCksum_congr fun o len _ hrange => slice_take ?_
  rcases hrange with hle' | ⟨hpos, -, hle'⟩
  · omega
  · rw [c.walFrameOffset_succ hpos] at hle
    omega

/-- Checksums stay valid when the end of the file is cut off behind them. -/
theorem CksumValid.take_file {n iFrame : ℕ} (h : CksumValid c bigEndCksum file iFrame)
    (hpos : 0 < iFrame) (hle : c.walFrameOffset (iFrame + 1) ≤ n) :
    CksumValid c bigEndCksum (file.take n) iFrame := by
  have hprev : c.walFrameOffset (iFrame - 1 + 1) ≤ n := by
    rw [show iFrame - 1 + 1 = iFrame by omega]
    exact (c.walFrameOffset_mono (by omega)).trans hle
  rw [CksumValid, storedCksum_take_file hle, storedCksum_take_file hprev,
    slice_take (by rw [← c.walFrameOffset_succ hpos]; exact hle)]
  exact h

/-- The header of a frame, as `walEncodeFrame` makes it when checksums are computed. -/
def encodedFrame (iPage nTruncate : ℕ) (aSalt : Bytes) (aCksum : ℕ × ℕ) : Bytes :=
  put4byte iPage ++ put4byte nTruncate ++ aSalt ++ put4byte aCksum.1 ++ put4byte aCksum.2

theorem length_encodedFrame {iPage nTruncate : ℕ} {aSalt : Bytes} {aCksum : ℕ × ℕ}
    (hsalt : aSalt.length = 8) : (encodedFrame iPage nTruncate aSalt aCksum).length = 24 := by
  simp [encodedFrame, hsalt]

/-- The fields of the header of a frame. -/
theorem slice_encodedFrame (iPage nTruncate : ℕ) {aSalt : Bytes} (aCksum : ℕ × ℕ)
    (hsalt : aSalt.length = 8) :
    slice (encodedFrame iPage nTruncate aSalt aCksum) 0 8 = put4byte iPage ++ put4byte nTruncate ∧
      slice (encodedFrame iPage nTruncate aSalt aCksum) 16 4 = put4byte aCksum.1 ∧
        slice (encodedFrame iPage nTruncate aSalt aCksum) 20 4 = put4byte aCksum.2 := by
  have h8 : (put4byte iPage ++ put4byte nTruncate).length = 8 := rfl
  have h16 : (put4byte iPage ++ put4byte nTruncate ++ aSalt).length = 16 := by
    rw [List.length_append, h8, hsalt]
  have h20 : (put4byte iPage ++ put4byte nTruncate ++ aSalt ++ put4byte aCksum.1).length = 20 := by
    rw [List.length_append, h16, length_put4byte]
  refine ⟨?_, ?_, ?_⟩
  · rw [encodedFrame, slice_append_left _ (by omega), slice_append_left _ (by omega),
      slice_append_left _ (by omega), slice_full h8]
  · rw [encodedFrame]
    exact slice_append h16 (length_put4byte _)
  · rw [encodedFrame]
    exact slice_append_behind h20 (length_put4byte _)

/-- **The header of a frame that is computed from the checksum before it is valid.** -/
theorem cksumValid_encoded {iFrame iPage nTruncate : ℕ} {aSalt image : Bytes} {aCksum : ℕ × ℕ}
    (hsalt : aSalt.length = 8) (himage : image.length = c.szPage) (hpos : 0 < iFrame)
    (hprev : storedCksum c file (iFrame - 1) = aCksum) :
    let new := walChecksumBytes bigEndCksum image
      (walChecksumBytes bigEndCksum (put4byte iPage ++ put4byte nTruncate) aCksum)
    slice file (c.walFrameOffset iFrame) c.szFrame =
      encodedFrame iPage nTruncate aSalt new ++ image →
      storedCksum c file iFrame = new ∧ CksumValid c bigEndCksum file iFrame := by
  intro new hframe
  have hlen : (encodedFrame iPage nTruncate aSalt new).length = 24 := length_encodedFrame hsalt
  obtain ⟨h0, h16, h20⟩ := slice_encodedFrame iPage nTruncate new hsalt
  have hsz := c.szFrame_eq
  have hlt : new.1 < 2 ^ 32 ∧ new.2 < 2 ^ 32 :=
    walChecksumBytes_lt _ _ (walChecksumBytes_lt _ _ (hprev ▸ storedCksum_lt _))
  have hstored : storedCksum c file iFrame = new := by
    have hzero : ¬ iFrame = 0 := by omega
    rw [storedCksum]
    simp only [if_neg hzero]
    rw [Nat.add_assoc, ← slice_slice (show 16 + 4 ≤ c.szFrame by omega),
      ← slice_slice (show (16 + 4) + 4 ≤ c.szFrame by omega), hframe,
      slice_append_left _ (by omega), slice_append_left _ (by omega), h16, h20,
      get4byte_put4byte hlt.1, get4byte_put4byte hlt.2]
  refine ⟨hstored, ?_⟩
  have hbody : slice (encodedFrame iPage nTruncate aSalt new ++ image) walFrameHeaderSize c.szPage =
      image := slice_append_behind hlen himage
  rw [CksumValid, hstored, hprev, hframe, frameCksum, hbody, slice_append_left _ (by omega), h0]

end Checksums

end MultipleCiphers
