import MultipleCiphers.Ciphers.Unsalted
import MultipleCiphers.Ciphers.Aegis

/-!
# The table of the built-in ciphers

`sqlite3mc_initialize` registers seven ciphers, in a fixed order, so that a cipher type is a
number from `1` to `7`. `builtinDescriptors P` is the descriptor table this leaves behind.

A cipher is a value of the sum type `Cipher`. Its variant is the type it was allocated with, so
the table can dispatch on the value; the type number matters for the allocation only.

## Main results

* `encryptPage_code` — a built-in cipher encrypts a page exactly if its reserved bytes fit, and
  otherwise hands the page back unchanged. Nothing else about the page decides.
-/

namespace MultipleCiphers

/-- A cipher of one of the built-in types. -/
inductive Cipher where
  /-- `CODEC_TYPE_AES128`. -/
  | aes128 (c : AES128Cipher)
  /-- `CODEC_TYPE_AES256`. -/
  | aes256 (c : AES256Cipher)
  /-- `CODEC_TYPE_CHACHA20`. -/
  | chacha20 (c : ChaCha20Cipher)
  /-- `CODEC_TYPE_SQLCIPHER`. -/
  | sqlcipher (c : SQLCipherCipher)
  /-- `CODEC_TYPE_RC4`. -/
  | rc4 (c : RC4Cipher)
  /-- `CODEC_TYPE_ASCON128`. -/
  | ascon128 (c : Ascon128Cipher)
  /-- `CODEC_TYPE_AEGIS`. -/
  | aegis (c : AegisCipher)
  deriving DecidableEq

/-- The names of the built-in ciphers in the order of their registration. -/
def builtinCipherNames : List String :=
  ["aes128cbc", "aes256cbc", "chacha20", "sqlcipher", "rc4", "ascon128", "aegis"]

/-- An allocation function with its result as a `Cipher`. -/
def wrapAllocate {α : Type} (wrap : α → Cipher) (allocate : Env → Option α × Env) (env : Env) :
    Option Cipher × Env :=
  let (cipher, env) := allocate env
  (cipher.map wrap, env)

theorem wrapAllocate_some {α : Type} (wrap : α → Cipher) (allocate : Env → Option α × Env)
    {env env' : Env} {cipher : Cipher}
    (h : wrapAllocate wrap allocate env = (some cipher, env')) :
    ∃ c, allocate env = (some c, env') ∧ wrap c = cipher := by
  rcases hal : allocate env with ⟨_ | c, e⟩
  · simp [wrapAllocate, hal] at h
  · simp only [wrapAllocate, hal, Option.map_some, Prod.mk.injEq, Option.some.injEq] at h
    exact ⟨c, by rw [h.2], h.1⟩

/-- `m_allocateCipher` of the cipher type `cipherType`. -/
def builtinAllocate (cipherType : ℕ) : Env → Option Cipher × Env :=
  match cipherType with
  | 1 => wrapAllocate .aes128 allocateAES128Cipher
  | 2 => wrapAllocate .aes256 allocateAES256Cipher
  | 3 => wrapAllocate .chacha20 allocateChaCha20Cipher
  | 4 => wrapAllocate .sqlcipher allocateSQLCipherCipher
  | 5 => wrapAllocate .rc4 allocateRC4Cipher
  | 6 => wrapAllocate .ascon128 allocateAscon128Cipher
  | 7 => wrapAllocate .aegis allocateAegisCipher
  | _ => fun env => (none, env)

/-- `m_cloneCipher`. The two ciphers are of the same type. -/
def builtinClone (target source : Cipher) : Cipher :=
  match target, source with
  | .aes128 t, .aes128 s => .aes128 (cloneAES128Cipher t s)
  | .aes256 t, .aes256 s => .aes256 (cloneAES256Cipher t s)
  | .chacha20 t, .chacha20 s => .chacha20 (cloneChaCha20Cipher t s)
  | .sqlcipher t, .sqlcipher s => .sqlcipher (cloneSQLCipherCipher t s)
  | .rc4 t, .rc4 s => .rc4 (cloneRC4Cipher t s)
  | .ascon128 t, .ascon128 s => .ascon128 (cloneAscon128Cipher t s)
  | .aegis t, .aegis s => .aegis (cloneAegisCipher t s)
  | _, s => s

section Table

variable (P : Primitives)

/-- `m_generateKey`. -/
def builtinGenerateKey (cipher : Cipher) (password : Bytes) (rekey : ℕ)
    (cipherSalt : Option Bytes) (env : Env) : Cipher × Env :=
  match cipher with
  | .aes128 c => (.aes128 (generateKeyAES128Cipher P c password), env)
  | .aes256 c => (.aes256 (generateKeyAES256Cipher P c password), env)
  | .chacha20 c =>
    (generateKeyChaCha20Cipher P c password rekey cipherSalt env).map .chacha20 id
  | .sqlcipher c =>
    (generateKeySQLCipherCipher P c password rekey cipherSalt env).map .sqlcipher id
  | .rc4 c => (.rc4 (generateKeyRC4Cipher P c password), env)
  | .ascon128 c =>
    (generateKeyAscon128Cipher P c password rekey cipherSalt env).map .ascon128 id
  | .aegis c => (generateKeyAegisCipher P c password rekey cipherSalt env).map .aegis id

/-- `m_encryptPage`. -/
def builtinEncryptPage (cipher : Cipher) :
    ℕ → Bytes → ℤ → Env → ResultCode × Bytes × Env :=
  match cipher with
  | .aes128 c => (mcAES128Descriptor P).encryptPage c
  | .aes256 c => (mcAES256Descriptor P).encryptPage c
  | .chacha20 c => (mcChaCha20Descriptor P).encryptPage c
  | .sqlcipher c => (mcSQLCipherDescriptor P).encryptPage c
  | .rc4 c => (mcRC4Descriptor P).encryptPage c
  | .ascon128 c => (mcAscon128Descriptor P).encryptPage c
  | .aegis c => (mcAegisDescriptor P).encryptPage c

/-- `m_decryptPage`. -/
def builtinDecryptPage (cipher : Cipher) : ℕ → Bytes → ℤ → ℤ → ResultCode × Bytes :=
  match cipher with
  | .aes128 c => (mcAES128Descriptor P).decryptPage c
  | .aes256 c => (mcAES256Descriptor P).decryptPage c
  | .chacha20 c => (mcChaCha20Descriptor P).decryptPage c
  | .sqlcipher c => (mcSQLCipherDescriptor P).decryptPage c
  | .rc4 c => (mcRC4Descriptor P).decryptPage c
  | .ascon128 c => (mcAscon128Descriptor P).decryptPage c
  | .aegis c => (mcAegisDescriptor P).decryptPage c

/-- `m_getLegacy`. -/
def builtinGetLegacy (cipher : Cipher) : ℤ :=
  match cipher with
  | .aes128 c => (mcAES128Descriptor P).getLegacy c
  | .aes256 c => (mcAES256Descriptor P).getLegacy c
  | .chacha20 c => (mcChaCha20Descriptor P).getLegacy c
  | .sqlcipher c => (mcSQLCipherDescriptor P).getLegacy c
  | .rc4 c => (mcRC4Descriptor P).getLegacy c
  | .ascon128 c => (mcAscon128Descriptor P).getLegacy c
  | .aegis c => (mcAegisDescriptor P).getLegacy c

/-- `m_getPageSize`. -/
def builtinGetPageSize (cipher : Cipher) : ℤ :=
  match cipher with
  | .aes128 c => (mcAES128Descriptor P).getPageSize c
  | .aes256 c => (mcAES256Descriptor P).getPageSize c
  | .chacha20 c => (mcChaCha20Descriptor P).getPageSize c
  | .sqlcipher c => (mcSQLCipherDescriptor P).getPageSize c
  | .rc4 c => (mcRC4Descriptor P).getPageSize c
  | .ascon128 c => (mcAscon128Descriptor P).getPageSize c
  | .aegis c => (mcAegisDescriptor P).getPageSize c

/-- `m_getReserved`. -/
def builtinGetReserved (cipher : Cipher) : ℤ :=
  match cipher with
  | .aes128 c => (mcAES128Descriptor P).getReserved c
  | .aes256 c => (mcAES256Descriptor P).getReserved c
  | .chacha20 c => (mcChaCha20Descriptor P).getReserved c
  | .sqlcipher c => (mcSQLCipherDescriptor P).getReserved c
  | .rc4 c => (mcRC4Descriptor P).getReserved c
  | .ascon128 c => (mcAscon128Descriptor P).getReserved c
  | .aegis c => (mcAegisDescriptor P).getReserved c

/-- `m_getSalt`. -/
def builtinGetSalt (cipher : Cipher) : Option Bytes :=
  match cipher with
  | .aes128 c => (mcAES128Descriptor P).getSalt c
  | .aes256 c => (mcAES256Descriptor P).getSalt c
  | .chacha20 c => (mcChaCha20Descriptor P).getSalt c
  | .sqlcipher c => (mcSQLCipherDescriptor P).getSalt c
  | .rc4 c => (mcRC4Descriptor P).getSalt c
  | .ascon128 c => (mcAscon128Descriptor P).getSalt c
  | .aegis c => (mcAegisDescriptor P).getSalt c

/-- `globalCodecDescriptorTable` after `sqlite3mc_initialize`. -/
def builtinDescriptors (cipherType : ℕ) : CipherDescriptor Cipher where
  name := builtinCipherNames.getD (cipherType - 1) "@dummy@"
  allocateCipher := builtinAllocate cipherType
  cloneCipher := builtinClone
  cloneCipher_eq := by
    intro target source
    cases target <;> cases source <;> rfl
  getLegacy := builtinGetLegacy P
  getPageSize := builtinGetPageSize P
  getReserved := builtinGetReserved P
  getSalt := builtinGetSalt P
  generateKey := builtinGenerateKey P
  encryptPage := builtinEncryptPage P
  decryptPage := builtinDecryptPage P

end Table

/-! ### The reserved-bytes check -/

/-- Whether a cipher accepts pages with `reserved` reserved bytes. -/
def Cipher.fits (cipher : Cipher) (reserved : ℤ) : Bool :=
  match cipher with
  | .aes128 _ | .aes256 _ | .rc4 _ => true
  | .chacha20 c => chacha20Fits c reserved
  | .sqlcipher c => sqlCipherFits c reserved
  | .ascon128 _ => aeadFits pageReservedAscon128 reserved
  | .aegis c => aeadFits (getReservedAegisCipher c) reserved

section Code

variable {P : Primitives}

theorem encryptPageChaCha20Cipher_code (c : ChaCha20Cipher) (page : ℕ) (data : Bytes)
    (reserved : ℤ) (env : Env) :
    (encryptPageChaCha20Cipher P c page data reserved env).1 =
      if chacha20Fits c reserved then .ok else .corrupt := by
  unfold encryptPageChaCha20Cipher
  by_cases h : chacha20Fits c reserved <;> by_cases hr : 0 < chacha20NReserved c.legacy reserved <;>
    simp [h, hr]

theorem encryptPageSQLCipherCipher_code (c : SQLCipherCipher) (page : ℕ) (data : Bytes)
    (reserved : ℤ) (env : Env) :
    (encryptPageSQLCipherCipher P c page data reserved env).1 =
      if sqlCipherFits c reserved then .ok else .corrupt := by
  unfold encryptPageSQLCipherCipher
  by_cases h : sqlCipherFits c reserved <;> simp [h]

theorem encryptPageAscon128Cipher_code (c : Ascon128Cipher) (page : ℕ) (data : Bytes)
    (reserved : ℤ) (env : Env) :
    (encryptPageAscon128Cipher P c page data reserved env).1 =
      if aeadFits pageReservedAscon128 reserved then .ok else .corrupt := by
  unfold encryptPageAscon128Cipher
  by_cases h : aeadFits pageReservedAscon128 reserved <;>
    by_cases hr : 0 < aeadNReserved pageReservedAscon128 reserved <;> simp [h, hr]

theorem encryptPageAegisCipher_code (c : AegisCipher) (page : ℕ) (data : Bytes)
    (reserved : ℤ) (env : Env) :
    (encryptPageAegisCipher P c page data reserved env).1 =
      if aeadFits (getReservedAegisCipher c) reserved then .ok else .corrupt := by
  unfold encryptPageAegisCipher
  by_cases h : aeadFits (getReservedAegisCipher c) reserved <;>
    by_cases hr : 0 < aeadNReserved (getReservedAegisCipher c) reserved <;> simp [h, hr]

/-- The reserved bytes that a cipher asks for fit. The key operations set the codec to these. -/
theorem Cipher.fits_getReserved (cipher : Cipher) :
    cipher.fits (builtinGetReserved P cipher) = true := by
  have haead : ∀ own : ℕ, aeadFits own own = true := by
    intro own
    have hle : aeadNReserved own own ≤ own := by
      rw [aeadNReserved]
      split
      · exact Nat.zero_le _
      · exact le_rfl
    simp [aeadFits, hle]
  cases cipher with
  | aes128 c => rfl
  | aes256 c => rfl
  | rc4 c => rfl
  | chacha20 c =>
    show chacha20Fits c pageReservedChaCha20 = true
    have hpos : ¬((pageReservedChaCha20 : ℤ) = 0 ∧ c.legacy = 0) := fun h => by cases h.1
    simp only [chacha20Fits, chacha20NReserved, if_neg hpos]
    simp
  | sqlcipher c =>
    show sqlCipherFits c (getReservedSQLCipherCipher c) = true
    have hpos : ¬((getReservedSQLCipherCipher c : ℤ) = 0 ∧ c.legacy = 0) := by
      rintro ⟨h, -⟩
      rw [getReservedSQLCipherCipher] at h
      omega
    simp only [sqlCipherFits, sqlCipherNReserved, if_neg hpos]
    simp
  | ascon128 c => exact haead pageReservedAscon128
  | aegis c => exact haead (getReservedAegisCipher c)

/-- **A cipher encrypts a page exactly if its reserved bytes fit.** -/
theorem encryptPage_code (t : ℕ) (cipher : Cipher) (page : ℕ) (data : Bytes) (reserved : ℤ)
    (env : Env) :
    ((builtinDescriptors P t).encryptPage cipher page data reserved env).1 =
      if cipher.fits reserved then .ok else .corrupt := by
  cases cipher with
  | aes128 c => rfl
  | aes256 c => rfl
  | chacha20 c => exact encryptPageChaCha20Cipher_code c page data reserved env
  | sqlcipher c => exact encryptPageSQLCipherCipher_code c page data reserved env
  | rc4 c => rfl
  | ascon128 c => exact encryptPageAscon128Cipher_code c page data reserved env
  | aegis c => exact encryptPageAegisCipher_code c page data reserved env

/-- A page that is refused is handed back as it was. -/
theorem encryptPage_refused (t : ℕ) {cipher : Cipher} {reserved : ℤ}
    (h : cipher.fits reserved = false) (page : ℕ) (data : Bytes) (env : Env) :
    (builtinDescriptors P t).encryptPage cipher page data reserved env =
      (.corrupt, data, env) := by
  cases cipher with
  | aes128 c => cases h
  | aes256 c => cases h
  | chacha20 c =>
    have h : chacha20Fits c reserved = false := h
    simp [builtinDescriptors, builtinEncryptPage, mcChaCha20Descriptor,
      encryptPageChaCha20Cipher, h]
  | sqlcipher c =>
    have h : sqlCipherFits c reserved = false := h
    simp [builtinDescriptors, builtinEncryptPage, mcSQLCipherDescriptor,
      encryptPageSQLCipherCipher, h]
  | rc4 c => cases h
  | ascon128 c =>
    have h : aeadFits pageReservedAscon128 reserved = false := h
    simp [builtinDescriptors, builtinEncryptPage, mcAscon128Descriptor,
      encryptPageAscon128Cipher, h]
  | aegis c =>
    have h : aeadFits (getReservedAegisCipher c) reserved = false := h
    simp [builtinDescriptors, builtinEncryptPage, mcAegisDescriptor, encryptPageAegisCipher, h]

end Code

/-! ### Two codecs -/

/-- An RC4 codec between two key operations. -/
def rc4Codec : Codec Cipher :=
  { (sqlite3mcCodecInit : Codec Cipher) with
    isEncrypted := true
    hasReadCipher := true
    readCipherType := 5
    readCipher := some (.rc4 ⟨1, 0, Bytes.zeros 16⟩)
    hasWriteCipher := true
    writeCipherType := 5
    writeCipher := some (.rc4 ⟨1, 0, Bytes.zeros 16⟩) }

/-- A ChaCha20 codec between two key operations, with 32 reserved bytes. -/
def chacha20Codec : Codec Cipher :=
  { (sqlite3mcCodecInit : Codec Cipher) with
    isEncrypted := true
    hasReadCipher := true
    readCipherType := 3
    readCipher := some (.chacha20 ⟨0, 0, 64007, 0, Bytes.zeros 32, Bytes.zeros 16⟩)
    hasWriteCipher := true
    writeCipherType := 3
    writeCipher := some (.chacha20 ⟨0, 0, 64007, 0, Bytes.zeros 32, Bytes.zeros 16⟩)
    reserved := 32 }

/-- The environment of a connection on which RC4 is pending, and everything else by default. -/
def rc4Env : Env where
  codecParams := [⟨"global", 0, [⟨"cipher", 5, 5, 1, 7⟩, ⟨"hmac_check", 1, 1, 0, 1⟩,
      ⟨"mc_legacy_wal", 0, 0, 0, 1⟩]⟩,
    ⟨"rc4", 5, [⟨"legacy", 1, 1, 1, 1⟩, ⟨"legacy_page_size", 0, 0, 0, 65536⟩]⟩]
  cipherNames := builtinCipherNames
  malloc := fun _ => true
  random := fun _ => 0
  argon2 := fun _ => .enough

/-- RC4 does not leave a page of zeros as it is. -/
theorem rc4_zeros : (sqlite3mcRC4 (Bytes.zeros 16) (Bytes.zeros 512))[0]? ≠ some 0 := by
  rw [sqlite3mcRC4_zeros_first (x := 0) rfl]
  decide

end MultipleCiphers
