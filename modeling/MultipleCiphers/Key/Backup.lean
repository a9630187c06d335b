import MultipleCiphers.Ciphers.RoundTrip

/-!
# Admitting a backup

A backup copies pages as the pager of the source delivers them to the pager of the destination.
If the two databases are encrypted, the pages that arrive leave as many bytes free at their end as
the source reserves, and the write cipher of the destination replaces as many as the destination
reserves. So a backup between encrypted databases is admitted only if these numbers agree.

What is compared are two fields of the codecs, `m_readReserved` and `m_writeReserved`. They are
overrides: they hold a number while a VACUUM changes the reserved bytes, and `-1`, for "not set",
at any other time. Two codecs between key operations agree on that `-1`. The page sizes compared
are settings of the ciphers, `legacy_page_size`, which fix a page size in a legacy mode only.

## Main definitions

* `sqlite3mcIsBackupSupported`.
* `BackupSound` — what an admission should mean.
* `Cipher.fixedPageSize` and `Cipher.ownReserved` — what the settings of a cipher say about the
  page size and the reserved bytes.

## Main results

* `backupSound_iff` — exactly when an admission means that, for any two codecs and for two codecs
  between key operations.
* `backup_loses_content` — an admitted backup from a database without reserved bytes into one
  with 32, after which two different pages are the same.
-/

namespace MultipleCiphers

section Operations

variable {σ : Type} (D : ℕ → CipherDescriptor σ)

/-- `sqlite3mcGetPageSizeReadCipher`. -/
def sqlite3mcGetPageSizeReadCipher (codec : Codec σ) : ℤ :=
  match codec.hasReadCipher, codec.readCipher with
  | true, some r => (D codec.readCipherType).getPageSize r
  | _, _ => -1

/-- `sqlite3mcIsBackupSupported`. The codecs are those found for the two databases. -/
def sqlite3mcIsBackupSupported (sameConnection : Bool) (codecSrc codecDest : Option (Codec σ)) :
    Bool :=
  if sameConnection then true
  else
    match codecSrc, codecDest with
    | some src, some dest =>
      src.isEncrypted && dest.isEncrypted &&
        sqlite3mcGetPageSizeReadCipher D src = sqlite3mcGetPageSizeWriteCipher D dest &&
        src.readReserved = dest.writeReserved
    | none, none => true
    | _, _ => false

/-- What it should mean that a backup between two databases with codecs is admitted: both are
encrypted, their page sizes agree, and the source reads with as many reserved bytes as the
destination writes with. -/
def BackupSound (pageSizeSrc pageSizeDest : ℕ) (codecSrc codecDest : Option (Codec σ)) : Prop :=
  sqlite3mcIsBackupSupported D false codecSrc codecDest = true →
    ∀ src dest, codecSrc = some src → codecDest = some dest →
      src.isEncrypted = true ∧ dest.isEncrypted = true ∧ pageSizeSrc = pageSizeDest ∧
        src.readReservedBytes = dest.writeReservedBytes

end Operations

/-! ### What the settings of a cipher say -/

/-- The page size that the settings of a cipher fix: a valid `legacy_page_size` in a legacy mode.
`0` if they fix none. -/
def Cipher.fixedPageSize : Cipher → ℤ
  | .aes128 c => legacyPageSizeOf c.legacy c.legacyPageSize
  | .aes256 c => legacyPageSizeOf c.legacy c.legacyPageSize
  | .chacha20 c => legacyPageSizeOf c.legacy c.legacyPageSize
  | .sqlcipher c => legacyPageSizeOf c.legacy c.legacyPageSize
  | .rc4 c => legacyPageSizeOf c.legacy c.legacyPageSize
  | .ascon128 _ | .aegis _ => 0

/-- The number of bytes per page that a database has reserved since it was encrypted with a
cipher. -/
def Cipher.ownReserved : Cipher → ℤ
  | .aes128 _ | .aes256 _ | .rc4 _ => 0
  | .chacha20 _ => pageReservedChaCha20
  | .sqlcipher c => getReservedSQLCipherCipher c
  | .ascon128 _ => pageReservedAscon128
  | .aegis c => getReservedAegisCipher c

/-- The page size fixed by the cipher a codec reads with, if it reads with one. -/
def Codec.fixedReadPageSize (codec : Codec Cipher) : Option ℤ :=
  (if codec.hasReadCipher then codec.readCipher else none).map Cipher.fixedPageSize

/-- The page size fixed by the cipher a codec writes with, if it writes with one. -/
def Codec.fixedWritePageSize (codec : Codec Cipher) : Option ℤ :=
  (if codec.hasWriteCipher then codec.writeCipher else none).map Cipher.fixedPageSize

/-- The backups that are admitted as they should be, if at all: where the settings of the ciphers
fix the same page size, or none, and the same override is in force, or none, the databases have
pages of one size and, without an override, as many reserved bytes. -/
def BackupCondition (pageSizeSrc pageSizeDest : ℕ) (src dest : Codec Cipher) : Prop :=
  src.isEncrypted = true → dest.isEncrypted = true →
    src.fixedReadPageSize = dest.fixedWritePageSize → src.readReserved = dest.writeReserved →
    pageSizeSrc = pageSizeDest ∧ (src.readReserved < 0 → src.reserved = dest.reserved)

section Facts

theorem legacyPageSizeOf_nonneg (legacy legacyPageSize : ℤ) :
    0 ≤ legacyPageSizeOf legacy legacyPageSize := by
  rw [legacyPageSizeOf]
  split_ifs with _ hvalid
  · simp only [validPageSize, decide_eq_true_eq] at hvalid
    omega
  · exact le_refl 0
  · exact le_refl 0

theorem Cipher.fixedPageSize_nonneg (cipher : Cipher) : 0 ≤ cipher.fixedPageSize := by
  cases cipher
  case ascon128 | aegis => exact le_refl 0
  all_goals exact legacyPageSizeOf_nonneg _ _

variable {P : Primitives}

theorem builtinGetPageSize_eq (cipher : Cipher) :
    builtinGetPageSize P cipher = cipher.fixedPageSize := by
  cases cipher <;> rfl

theorem getPageSizeReadCipher_eq (codec : Codec Cipher) :
    sqlite3mcGetPageSizeReadCipher (builtinDescriptors P) codec =
      codec.fixedReadPageSize.getD (-1) := by
  rw [sqlite3mcGetPageSizeReadCipher, Codec.fixedReadPageSize]
  cases codec.hasReadCipher with
  | false => rfl
  | true =>
    cases codec.readCipher with
    | none => rfl
    | some r => exact builtinGetPageSize_eq r

theorem getPageSizeWriteCipher_eq (codec : Codec Cipher) :
    sqlite3mcGetPageSizeWriteCipher (builtinDescriptors P) codec =
      codec.fixedWritePageSize.getD (-1) := by
  rw [sqlite3mcGetPageSizeWriteCipher, Codec.fixedWritePageSize]
  cases codec.hasWriteCipher with
  | false => rfl
  | true =>
    cases codec.writeCipher with
    | none => rfl
    | some w => exact builtinGetPageSize_eq w

/-- A page size fixed by a cipher is never the `-1` that stands for "no cipher". -/
theorem getD_fixedPageSize_inj {s d : Option Cipher}
    (h : (s.map Cipher.fixedPageSize).getD (-1) = (d.map Cipher.fixedPageSize).getD (-1)) :
    s.map Cipher.fixedPageSize = d.map Cipher.fixedPageSize := by
  rcases s with _ | s <;> rcases d with _ | d
  · rfl
  · have hd : (-1 : ℤ) = d.fixedPageSize := h
    have hpos := d.fixedPageSize_nonneg
    omega
  · have hs : s.fixedPageSize = (-1 : ℤ) := h
    have hpos := s.fixedPageSize_nonneg
    omega
  · exact congrArg some h

/-- The page-size test compares what the settings fix. -/
theorem pageSizeCipher_eq_iff (src dest : Codec Cipher) :
    sqlite3mcGetPageSizeReadCipher (builtinDescriptors P) src =
        sqlite3mcGetPageSizeWriteCipher (builtinDescriptors P) dest ↔
      src.fixedReadPageSize = dest.fixedWritePageSize := by
  rw [getPageSizeReadCipher_eq, getPageSizeWriteCipher_eq]
  exact ⟨getD_fixedPageSize_inj, congrArg (Option.getD · (-1))⟩

/-- What an admitted backup between two databases with codecs has passed. -/
theorem isBackupSupported_some {src dest : Codec Cipher} :
    sqlite3mcIsBackupSupported (builtinDescriptors P) false (some src) (some dest) = true ↔
      src.isEncrypted = true ∧ dest.isEncrypted = true ∧
        src.fixedReadPageSize = dest.fixedWritePageSize ∧
        src.readReserved = dest.writeReserved := by
  simp [sqlite3mcIsBackupSupported, and_assoc, pageSizeCipher_eq_iff]

/-- Where the overrides agree, the reserved bytes in force agree if the override is set, or if
the fields behind it agree. -/
theorem reservedBytes_eq_iff {src dest : Codec Cipher}
    (h : src.readReserved = dest.writeReserved) :
    src.readReservedBytes = dest.writeReservedBytes ↔
      (src.readReserved < 0 → src.reserved = dest.reserved) := by
  rw [Codec.readReservedBytes, Codec.writeReservedBytes, ← h]
  by_cases hset : src.readReserved ≥ 0
  · rw [if_pos hset, if_pos hset]
    exact iff_of_true rfl fun hneg => absurd hneg (not_lt.mpr hset)
  · rw [if_neg hset, if_neg hset]
    exact ⟨fun heq _ => heq, fun heq => heq (not_le.mp hset)⟩

/-- The admission of a backup between two databases with codecs. -/
theorem backupSound_some {pageSizeSrc pageSizeDest : ℕ} {src dest : Codec Cipher} :
    BackupSound (builtinDescriptors P) pageSizeSrc pageSizeDest (some src) (some dest) ↔
      BackupCondition pageSizeSrc pageSizeDest src dest := by
  constructor
  · intro h hsrc hdest hsize hoverride
    have hadmitted := isBackupSupported_some (P := P).mpr ⟨hsrc, hdest, hsize, hoverride⟩
    obtain ⟨-, -, hpage, hreserved⟩ := h hadmitted src dest rfl rfl
    exact ⟨hpage, (reservedBytes_eq_iff hoverride).mp hreserved⟩
  · intro h hadmitted src' dest' hsrc' hdest'
    obtain rfl := Option.some.inj hsrc'
    obtain rfl := Option.some.inj hdest'
    obtain ⟨hsrc, hdest, hsize, hoverride⟩ := isBackupSupported_some.mp hadmitted
    obtain ⟨hpage, hreserved⟩ := h hsrc hdest hsize hoverride
    exact ⟨hsrc, hdest, hpage, (reservedBytes_eq_iff hoverride).mpr hreserved⟩

/-- Between key operations only the settings of the two ciphers and the sizes count. -/
theorem backupCondition_settled {pageSizeSrc pageSizeDest : ℕ} {src dest : Codec Cipher}
    {r w : Cipher} (hsrc : src.Settled r) (hdest : dest.Settled w)
    (hwrite : dest.hasWriteCipher = true) :
    BackupCondition pageSizeSrc pageSizeDest src dest ↔
      (r.fixedPageSize = w.fixedPageSize →
        pageSizeSrc = pageSizeDest ∧ src.reserved = dest.reserved) := by
  have hr : src.fixedReadPageSize = some r.fixedPageSize := by
    simp [Codec.fixedReadPageSize, hsrc.hasReadCipher, hsrc.readCipher]
  have hw : dest.fixedWritePageSize = some w.fixedPageSize := by
    simp [Codec.fixedWritePageSize, hwrite, hdest.writeCipher]
  simp [BackupCondition, hsrc.isEncrypted, hdest.isEncrypted, hr, hw, hsrc.readReserved,
    hdest.writeReserved]

end Facts

/-- **When a backup is admitted as it should be.** For any two codecs the admission is sound if and
only if their settings and the databases meet `BackupCondition`. For two codecs between key
operations, on databases with the reserved bytes of their ciphers, it is sound if and only if the
settings of the ciphers fix different page sizes, or the databases have pages of one size and the
two ciphers reserve as many bytes. -/
theorem backupSound_iff (P : Primitives) (pageSizeSrc pageSizeDest : ℕ)
    (codecSrc codecDest : Option (Codec Cipher)) :
    (BackupSound (builtinDescriptors P) pageSizeSrc pageSizeDest codecSrc codecDest ↔
      ∀ src dest, codecSrc = some src → codecDest = some dest →
        BackupCondition pageSizeSrc pageSizeDest src dest) ∧
    ∀ src dest r w, codecSrc = some src → codecDest = some dest →
      src.Settled r → dest.Settled w → dest.hasWriteCipher = true →
      src.reserved = r.ownReserved → dest.reserved = w.ownReserved →
      (BackupSound (builtinDescriptors P) pageSizeSrc pageSizeDest codecSrc codecDest ↔
        (r.fixedPageSize = w.fixedPageSize →
          pageSizeSrc = pageSizeDest ∧ r.ownReserved = w.ownReserved)) := by
  constructor
  · constructor
    · rintro h src dest rfl rfl
      exact backupSound_some.mp h
    · rintro h hadmitted src dest rfl rfl
      exact backupSound_some.mpr (h src dest rfl rfl) hadmitted src dest rfl rfl
  · rintro src dest r w rfl rfl hsrc hdest hwrite hreservedSrc hreservedDest
    rw [backupSound_some, backupCondition_settled hsrc hdest hwrite, hreservedSrc, hreservedDest]

/-- A sound admission keeps the content of the pages: the destination replaces no more bytes of a
page than the source has reserved. -/
theorem BackupSound.nReserved_le {P : Primitives} {pageSizeSrc pageSizeDest : ℕ}
    {src dest : Codec Cipher} {w : Cipher}
    (h : BackupSound (builtinDescriptors P) pageSizeSrc pageSizeDest (some src) (some dest))
    (hadmitted :
      sqlite3mcIsBackupSupported (builtinDescriptors P) false (some src) (some dest) = true)
    (hfits : w.fits dest.writeReservedBytes = true) :
    w.nReserved dest.writeReservedBytes ≤ src.readReservedBytes.toNat := by
  obtain ⟨-, -, -, hreserved⟩ := h hadmitted src dest rfl rfl
  rw [hreserved]
  exact Cipher.nReserved_le hfits

/-- **A backup that should not be admitted**, from an RC4 database without reserved bytes into a
ChaCha20 database with 32, and what it does: two pages that differ in their last byte are stored
as one and the same. -/
theorem backup_loses_content :
    sqlite3mcIsBackupSupported (builtinDescriptors nullPrimitives) false (some rc4Codec)
        (some chacha20Codec) = true ∧
      ¬ BackupSound (builtinDescriptors nullPrimitives) 512 512 (some rc4Codec)
        (some chacha20Codec) ∧
      (sqlite3mcCodec (builtinDescriptors nullPrimitives) chacha20Codec
          (Bytes.zeros 511 ++ [1]) 2 .database rc4Env).2.1 =
        (sqlite3mcCodec (builtinDescriptors nullPrimitives) chacha20Codec
          (Bytes.zeros 511 ++ [2]) 2 .database rc4Env).2.1 := by
  have hadmitted : sqlite3mcIsBackupSupported (builtinDescriptors nullPrimitives) false
      (some rc4Codec) (some chacha20Codec) = true := by decide
  refine ⟨hadmitted, fun h => ?_, ?_⟩
  · obtain ⟨-, -, -, hreserved⟩ := h hadmitted rc4Codec chacha20Codec rfl rfl
    revert hreserved
    decide
  · decide +kernel

end MultipleCiphers
