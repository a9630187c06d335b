import MultipleCiphers.Ciphers.Common

/-!
# The ciphers with reserved bytes: ChaCha20, SQLCipher, Ascon-128 and AEGIS

These four ciphers derive their key from the password and a salt, store the salt in the first
sixteen bytes of page 1, and use reserved bytes at the end of every page for a nonce and an
authentication tag. Each can also work without reserved bytes; it then derives the nonce from the
page number and authenticates nothing.

## The reserved-bytes check

How many bytes at the end of a page a cipher overwrites is its own affair, the number SQLite has
set aside is the `reserved` argument. Before it touches the page every one of the four ciphers
compares the two, and refuses the page if its bytes do not fit. `chacha20Fits`, `sqlCipherFits`
and `aeadFits` are the conditions; a refused page is handed back unchanged.

## Main definitions

* `ChaCha20Cipher`, `SQLCipherCipher`, `Ascon128Cipher` and their descriptors. AEGIS is a module of
  its own.
* `page1Offset` — where the encrypted part of page 1 starts.
-/

namespace MultipleCiphers

open Bytes

/-! ### Page 1 -/

/-- Whether a plaintext header is used on this page. -/
def usesPlaintextHeader (page : ℕ) (plaintextHeaderSize : ℤ) : Bool :=
  page = 1 ∧ plaintextHeaderSize > 0

/-- Where the encrypted part of a page starts for a cipher that keeps the first `offset` bytes of
page 1, or the plaintext header if that is longer. -/
def page1Offset (page offset : ℕ) (plaintextHeaderSize : ℤ) : ℕ :=
  if page = 1 then max offset plaintextHeaderSize.toNat else 0

/-- The salt in its place at the start of page 1. -/
def storeSalt (page : ℕ) (plaintextHeaderSize : ℤ) (salt data : Bytes) : Bytes :=
  if page = 1 ∧ usesPlaintextHeader page plaintextHeaderSize = false then splice data 0 salt
  else data

/-- The file header back in its place at the start of page 1. -/
def restoreHeader (page : ℕ) (plaintextHeaderSize : ℤ) (data : Bytes) : Bytes :=
  if page = 1 ∧ usesPlaintextHeader page plaintextHeaderSize = false then
    splice data 0 sqliteFileHeader
  else data

/-- The code for a page that is not what the cipher wrote. -/
def badPage (page : ℕ) : ResultCode := if page = 1 then .notadb else .corrupt

/-! ### ChaCha20 -/

/-- `struct ChaCha20Cipher`. -/
structure ChaCha20Cipher where
  legacy : ℤ
  legacyPageSize : ℤ
  kdfIter : ℤ
  plaintextHeaderSize : ℤ
  key : Bytes
  salt : Bytes
  deriving DecidableEq

/-- `SQLEET_KDF_ITER`. -/
def sqleetKdfIter : ℤ := 12345

/-- `AllocateChaCha20Cipher`. -/
def allocateChaCha20Cipher (env : Env) : Option ChaCha20Cipher × Env :=
  let (ok, env) := env.sqlite3Malloc
  if ok then
    let j := env.sqlite3mcGetCipherParams "chacha20"
    let (legacy, env) := env.getCipherParameter j "legacy"
    let (legacyPageSize, env) := env.getCipherParameter j "legacy_page_size"
    let (kdfIter, env) := env.getCipherParameter j "kdf_iter"
    let (plaintextHeaderSize, env) := env.getCipherParameter j "plaintext_header_size"
    (some ⟨legacy, legacyPageSize, if legacy ≠ 0 then sqleetKdfIter else kdfIter,
      plaintextHeaderSize, zeros 32, zeros 16⟩, env)
  else (none, env)

/-- `CloneChaCha20Cipher`. -/
def cloneChaCha20Cipher (_to source : ChaCha20Cipher) : ChaCha20Cipher where
  legacy := source.legacy
  legacyPageSize := source.legacyPageSize
  kdfIter := source.kdfIter
  plaintextHeaderSize := source.plaintextHeaderSize
  key := source.key
  salt := source.salt

/-- `PAGE_RESERVED_CHACHA20`. -/
def pageReservedChaCha20 : ℕ := 32

/-- `GenerateKeyChaCha20Cipher`. -/
def generateKeyChaCha20Cipher (P : Primitives) (cipher : ChaCha20Cipher) (password : Bytes)
    (rekey : ℕ) (cipherSalt : Option Bytes) (env : Env) : ChaCha20Cipher × Env :=
  let (key, salt, env) := saltedKey cipher.plaintextHeaderSize 32 16
    (fun salt => P.pbkdf2 .sha256 password salt cipher.kdfIter 32) password rekey cipherSalt env
  ({ cipher with key, salt }, env)

/-- The reserved bytes ChaCha20 uses, `nReserved` of its page functions. -/
def chacha20NReserved (legacy reserved : ℤ) : ℕ :=
  if reserved = 0 ∧ legacy = 0 then 0 else pageReservedChaCha20

/-- The reserved-bytes check of ChaCha20. -/
def chacha20Fits (cipher : ChaCha20Cipher) (reserved : ℤ) : Bool :=
  let nReserved := chacha20NReserved cipher.legacy reserved
  !((cipher.legacy = 0 ∧ (nReserved : ℤ) > reserved) ∨
    (cipher.legacy ≠ 0 ∧ (nReserved : ℤ) ≠ reserved))

/-- Where ChaCha20 starts to encrypt. In legacy mode page 1 has no fixed plain part. -/
def chacha20Offset (cipher : ChaCha20Cipher) (page : ℕ) : ℕ :=
  page1Offset page (if cipher.legacy ≠ 0 then 0 else cipherPage1Offset) cipher.plaintextHeaderSize

/-- The counter of a page: the last word of the nonce combined with the page number. -/
def chacha20Counter (nonce : Bytes) (page : ℕ) : UInt32 :=
  UInt32.ofNat (load32LE (nonce.drop 12)) ^^^ UInt32.ofNat page

/-- The one-time key of a page, `OTK_LEN_CHACHA20` bytes. -/
def chacha20Otk (P : Primitives) (key nonce : Bytes) (page : ℕ) : Bytes :=
  P.chacha20Stream key (nonce.take 12) (chacha20Counter nonce page) 64

/-- The key stream of a page. -/
def chacha20PageStream (P : Primitives) (key nonce : Bytes) (page len : ℕ) : Bytes :=
  P.chacha20Stream ((chacha20Otk P key nonce page).drop 32) (nonce.take 12)
    (chacha20Counter nonce page + 1) len

/-- The bytes of `data` from `offset` to `n` combined with the page's key stream. -/
def chacha20XorPage (P : Primitives) (key nonce : Bytes) (page offset n : ℕ) (data : Bytes) :
    Bytes :=
  splice data offset
    (xorBytes (slice data offset (n - offset)) (chacha20PageStream P key nonce page (n - offset)))

/-- `EncryptPageChaCha20Cipher`. -/
def encryptPageChaCha20Cipher (P : Primitives) (cipher : ChaCha20Cipher) (page : ℕ)
    (data : Bytes) (reserved : ℤ) (env : Env) : ResultCode × Bytes × Env :=
  let nReserved := chacha20NReserved cipher.legacy reserved
  let n := data.length - nReserved
  let offset := chacha20Offset cipher page
  if chacha20Fits cipher reserved then
    if nReserved > 0 then
      let (nonce, env) := env.chacha20Rng 16
      let data := chacha20XorPage P cipher.key nonce page offset n (splice data n nonce)
      let data := storeSalt page cipher.plaintextHeaderSize cipher.salt data
      let tag := P.poly1305 (data.take (n + 16)) ((chacha20Otk P cipher.key nonce page).take 32)
      (.ok, splice data (n + 16) tag, env)
    else
      let nonce := sqlite3mcGenerateInitialVector P page
      let data := chacha20XorPage P cipher.key nonce page offset n data
      (.ok, storeSalt page cipher.plaintextHeaderSize cipher.salt data, env)
  else (.corrupt, data, env)

/-- `DecryptPageChaCha20Cipher`. -/
def decryptPageChaCha20Cipher (P : Primitives) (cipher : ChaCha20Cipher) (page : ℕ)
    (data : Bytes) (reserved hmacCheck : ℤ) : ResultCode × Bytes :=
  let nReserved := chacha20NReserved cipher.legacy reserved
  let n := data.length - nReserved
  let offset := chacha20Offset cipher page
  if chacha20Fits cipher reserved then
    if nReserved > 0 then
      let nonce := slice data n 16
      let tag := P.poly1305 (data.take (n + 16)) ((chacha20Otk P cipher.key nonce page).take 32)
      let plain := chacha20XorPage P cipher.key nonce page offset n data
      if hmacCheck ≠ 0 ∧ slice data (n + 16) 16 ≠ tag then (badPage page, plain)
      else (.ok, restoreHeader page cipher.plaintextHeaderSize plain)
    else
      let nonce := sqlite3mcGenerateInitialVector P page
      let plain := chacha20XorPage P cipher.key nonce page offset n data
      (.ok, restoreHeader page cipher.plaintextHeaderSize plain)
  else (badPage page, data)

/-- `mcChaCha20Descriptor`. -/
def mcChaCha20Descriptor (P : Primitives) : CipherDescriptor ChaCha20Cipher where
  name := "chacha20"
  allocateCipher := allocateChaCha20Cipher
  cloneCipher := cloneChaCha20Cipher
  cloneCipher_eq := fun _ _ => rfl
  getLegacy := ChaCha20Cipher.legacy
  getPageSize := fun c => legacyPageSizeOf c.legacy c.legacyPageSize
  getReserved := fun _ => pageReservedChaCha20
  getSalt := fun c => some c.salt
  generateKey := generateKeyChaCha20Cipher P
  encryptPage := encryptPageChaCha20Cipher P
  decryptPage := decryptPageChaCha20Cipher P

/-! ### SQLCipher -/

/-- `struct SQLCipherCipher`. -/
structure SQLCipherCipher where
  legacy : ℤ
  legacyPageSize : ℤ
  kdfIter : ℤ
  fastKdfIter : ℤ
  hmacUse : ℤ
  hmacPgno : ℤ
  hmacSaltMask : ℤ
  kdfAlgorithm : ℤ
  hmacAlgorithm : ℤ
  hmacAlgorithmCompat : ℤ
  plaintextHeaderSize : ℤ
  key : Bytes
  salt : Bytes
  hmacKey : Bytes
  deriving DecidableEq

/-- `SQLCIPHER_VERSION_4`. -/
def sqlcipherVersion4 : ℤ := 4

/-- `AllocateSQLCipherCipher`. -/
def allocateSQLCipherCipher (env : Env) : Option SQLCipherCipher × Env :=
  let (ok, env) := env.sqlite3Malloc
  if ok then
    let (ok, env) := env.sqlite3Malloc
    if ok then
      let j := env.sqlite3mcGetCipherParams "sqlcipher"
      let (legacy, env) := env.getCipherParameter j "legacy"
      let (legacyPageSize, env) := env.getCipherParameter j "legacy_page_size"
      let (kdfIter, env) := env.getCipherParameter j "kdf_iter"
      let (fastKdfIter, env) := env.getCipherParameter j "fast_kdf_iter"
      let (hmacUse, env) := env.getCipherParameter j "hmac_use"
      let (hmacPgno, env) := env.getCipherParameter j "hmac_pgno"
      let (hmacSaltMask, env) := env.getCipherParameter j "hmac_salt_mask"
      let (kdfAlgorithm, env) := env.getCipherParameter j "kdf_algorithm"
      let (hmacAlgorithm, env) := env.getCipherParameter j "hmac_algorithm"
      let (hmacAlgorithmCompat, env) := env.getCipherParameter j "hmac_algorithm_compat"
      let (plaintextHeaderSize, env) :=
        if legacy = 0 ∨ legacy ≥ sqlcipherVersion4 then
          env.getCipherParameter j "plaintext_header_size"
        else (0, env)
      (some ⟨legacy, legacyPageSize, kdfIter, fastKdfIter, hmacUse, hmacPgno, hmacSaltMask,
        kdfAlgorithm, hmacAlgorithm, hmacAlgorithmCompat, plaintextHeaderSize,
        zeros 32, zeros 16, zeros 32⟩, env)
    else (none, env)
  else (none, env)

/-- `CloneSQLCipherCipher`. -/
def cloneSQLCipherCipher (_to source : SQLCipherCipher) : SQLCipherCipher where
  legacy := source.legacy
  legacyPageSize := source.legacyPageSize
  kdfIter := source.kdfIter
  fastKdfIter := source.fastKdfIter
  hmacUse := source.hmacUse
  hmacPgno := source.hmacPgno
  hmacSaltMask := source.hmacSaltMask
  kdfAlgorithm := source.kdfAlgorithm
  hmacAlgorithm := source.hmacAlgorithm
  hmacAlgorithmCompat := source.hmacAlgorithmCompat
  plaintextHeaderSize := source.plaintextHeaderSize
  key := source.key
  salt := source.salt
  hmacKey := source.hmacKey

/-- `GetReservedSQLCipherCipher`: the nonce, and room for the tag if there is one. -/
def getReservedSQLCipherCipher (cipher : SQLCipherCipher) : ℕ :=
  16 + if cipher.hmacUse ≠ 0 then
    match HashAlgorithm.ofInt cipher.hmacAlgorithm with
    | .sha1 | .sha256 => 32
    | .sha512 => 64
  else 0

/-- `GenerateKeySQLCipherCipher`: the page key, and the tag key derived from it. -/
def generateKeySQLCipherCipher (P : Primitives) (cipher : SQLCipherCipher) (password : Bytes)
    (rekey : ℕ) (cipherSalt : Option Bytes) (env : Env) : SQLCipherCipher × Env :=
  let (key, salt, env) := saltedKey cipher.plaintextHeaderSize 32 16
    (fun salt => P.pbkdf2 (.ofInt cipher.kdfAlgorithm) password salt cipher.kdfIter 32)
    password rekey cipherSalt env
  let hmacKey :=
    if cipher.hmacUse ≠ 0 then
      let algorithm :=
        if cipher.hmacAlgorithmCompat ≠ 0 then cipher.kdfAlgorithm else cipher.hmacAlgorithm
      let hmacSalt := salt.map (· ^^^ UInt8.ofNat (cipher.hmacSaltMask % 256).toNat)
      P.pbkdf2 (.ofInt algorithm) key hmacSalt cipher.fastKdfIter 32
    else cipher.hmacKey
  ({ cipher with key, salt, hmacKey }, env)

/-- The reserved bytes SQLCipher uses. -/
def sqlCipherNReserved (cipher : SQLCipherCipher) (reserved : ℤ) : ℕ :=
  if reserved = 0 ∧ cipher.legacy = 0 then 0 else getReservedSQLCipherCipher cipher

/-- The reserved-bytes check of SQLCipher. -/
def sqlCipherFits (cipher : SQLCipherCipher) (reserved : ℤ) : Bool :=
  let nReserved := sqlCipherNReserved cipher reserved
  !((cipher.legacy = 0 ∧ (nReserved : ℤ) > reserved) ∨
    (cipher.legacy ≠ 0 ∧ (nReserved : ℤ) ≠ reserved))

/-- Where SQLCipher starts to encrypt. A plaintext header counts outside the legacy mode and in
version 4. -/
def sqlCipherOffset (cipher : SQLCipherCipher) (page : ℕ) : ℕ :=
  page1Offset page (if cipher.legacy ≠ 0 then 16 else 24)
    (if cipher.legacy = 0 ∨ cipher.legacy ≥ sqlcipherVersion4 then cipher.plaintextHeaderSize
      else 0)

/-- The page number as it enters the tag. `SQLCIPHER_HMAC_PGNO_NATIVE` is little-endian here. -/
def hmacPgnoBytes (hmacPgno : ℤ) (page : ℕ) : Bytes :=
  if hmacPgno = 2 then put4byte page else store32LE page

/-- The tag of a page, over its bytes from `offset` to the end of the nonce. -/
def sqlCipherTag (P : Primitives) (cipher : SQLCipherCipher) (page offset n : ℕ) (data : Bytes) :
    Bytes :=
  P.hmac (.ofInt cipher.hmacAlgorithm) cipher.hmacKey
    (slice data offset (n + 16 - offset) ++ hmacPgnoBytes cipher.hmacPgno page)

/-- `EncryptPageSQLCipherCipher`. The first sixteen random bytes are the nonce; the rest of the
reserved area is random unless a tag goes there. -/
def encryptPageSQLCipherCipher (P : Primitives) (cipher : SQLCipherCipher) (page : ℕ)
    (data : Bytes) (reserved : ℤ) (env : Env) : ResultCode × Bytes × Env :=
  let nReserved := sqlCipherNReserved cipher reserved
  let n := data.length - nReserved
  let offset := sqlCipherOffset cipher page
  if sqlCipherFits cipher reserved then
    let (iv, env) :=
      if nReserved > 0 then env.chacha20Rng 128 else (sqlite3mcGenerateInitialVector P page, env)
    let body := rijndaelEncrypt P cipher.key (iv.take 16) (slice data offset (n - offset))
    let data := splice data offset body
    let data := if nReserved > 0 then splice data n (iv.take nReserved) else data
    let data := storeSalt page cipher.plaintextHeaderSize cipher.salt data
    let data :=
      if cipher.hmacUse = 1 ∧ nReserved > 0 then
        splice data (n + 16) (sqlCipherTag P cipher page offset n data)
      else data
    (.ok, data, env)
  else (.corrupt, data, env)

/-- `DecryptPageSQLCipherCipher`. The tag is checked before anything is decrypted. -/
def decryptPageSQLCipherCipher (P : Primitives) (cipher : SQLCipherCipher) (page : ℕ)
    (data : Bytes) (reserved hmacCheck : ℤ) : ResultCode × Bytes :=
  let nReserved := sqlCipherNReserved cipher reserved
  let n := data.length - nReserved
  let offset := sqlCipherOffset cipher page
  if sqlCipherFits cipher reserved then
    let iv := if nReserved > 0 then slice data n 16 else sqlite3mcGenerateInitialVector P page
    let tag := sqlCipherTag P cipher page offset n data
    if cipher.hmacUse = 1 ∧ nReserved > 0 ∧ hmacCheck ≠ 0 ∧
        slice data (n + 16) tag.length ≠ tag then
      (badPage page, data)
    else
      let body := rijndaelDecrypt P cipher.key iv (slice data offset (n - offset))
      (.ok, restoreHeader page cipher.plaintextHeaderSize (splice data offset body))
  else (badPage page, data)

/-- `mcSQLCipherDescriptor`. -/
def mcSQLCipherDescriptor (P : Primitives) : CipherDescriptor SQLCipherCipher where
  name := "sqlcipher"
  allocateCipher := allocateSQLCipherCipher
  cloneCipher := cloneSQLCipherCipher
  cloneCipher_eq := fun _ _ => rfl
  getLegacy := SQLCipherCipher.legacy
  getPageSize := fun c => legacyPageSizeOf c.legacy c.legacyPageSize
  getReserved := fun c => getReservedSQLCipherCipher c
  getSalt := fun c => some c.salt
  generateKey := generateKeySQLCipherCipher P
  encryptPage := encryptPageSQLCipherCipher P
  decryptPage := decryptPageSQLCipherCipher P

/-! ### Ascon-128 and AEGIS: what they have in common

Both lay the reserved area out as tag, then nonce, and neither has a legacy mode. -/

/-- The reserved bytes such a cipher uses, of the `own` it would like. -/
def aeadNReserved (own : ℕ) (reserved : ℤ) : ℕ := if reserved = 0 then 0 else own

/-- The reserved-bytes check of Ascon-128 and AEGIS. -/
def aeadFits (own : ℕ) (reserved : ℤ) : Bool := !((aeadNReserved own reserved : ℤ) > reserved)

/-- Where these ciphers start to encrypt. -/
def aeadOffset (plaintextHeaderSize : ℤ) (page : ℕ) : ℕ :=
  page1Offset page cipherPage1Offset plaintextHeaderSize

/-! ### Ascon-128 -/

/-- `struct Ascon128Cipher`. -/
structure Ascon128Cipher where
  kdfIter : ℤ
  plaintextHeaderSize : ℤ
  key : Bytes
  salt : Bytes
  deriving DecidableEq

/-- `AllocateAscon128Cipher`. -/
def allocateAscon128Cipher (env : Env) : Option Ascon128Cipher × Env :=
  let (ok, env) := env.sqlite3Malloc
  if ok then
    let j := env.sqlite3mcGetCipherParams "ascon128"
    let (kdfIter, env) := env.getCipherParameter j "kdf_iter"
    let (plaintextHeaderSize, env) := env.getCipherParameter j "plaintext_header_size"
    (some ⟨kdfIter, plaintextHeaderSize, zeros 32, zeros 16⟩, env)
  else (none, env)

/-- `CloneAscon128Cipher`. -/
def cloneAscon128Cipher (_to source : Ascon128Cipher) : Ascon128Cipher where
  kdfIter := source.kdfIter
  plaintextHeaderSize := source.plaintextHeaderSize
  key := source.key
  salt := source.salt

/-- `PAGE_RESERVED_ASCON128`. -/
def pageReservedAscon128 : ℕ := 32

/-- `GenerateKeyAscon128Cipher`. -/
def generateKeyAscon128Cipher (P : Primitives) (cipher : Ascon128Cipher) (password : Bytes)
    (rekey : ℕ) (cipherSalt : Option Bytes) (env : Env) : Ascon128Cipher × Env :=
  let (key, salt, env) := saltedKey cipher.plaintextHeaderSize 32 16
    (fun salt => P.asconPbkdf2 password salt cipher.kdfIter 32) password rekey cipherSalt env
  ({ cipher with key, salt }, env)

/-- `AsconGenOtk`, of which the encryption uses the first sixteen bytes as its key. -/
def asconGenOtk (P : Primitives) (key nonce : Bytes) (page : ℕ) : Bytes :=
  (P.asconHash (key ++ nonce ++ put4byte page)).take 16

/-- `EncryptPageAscon128Cipher`. -/
def encryptPageAscon128Cipher (P : Primitives) (cipher : Ascon128Cipher) (page : ℕ)
    (data : Bytes) (reserved : ℤ) (env : Env) : ResultCode × Bytes × Env :=
  let nReserved := aeadNReserved pageReservedAscon128 reserved
  let n := data.length - nReserved
  let offset := aeadOffset cipher.plaintextHeaderSize page
  if aeadFits pageReservedAscon128 reserved then
    if nReserved > 0 then
      let (nonce, env) := env.chacha20Rng 16
      let otk := asconGenOtk P cipher.key nonce page
      let body := P.asconEncrypt (slice data offset (n - offset)) nonce otk
      let data := splice (splice data (n + 16) nonce) offset body
      let data := splice data n (P.asconTag body nonce otk)
      (.ok, storeSalt page cipher.plaintextHeaderSize cipher.salt data, env)
    else
      let nonce := sqlite3mcGenerateInitialVector P page
      let otk := asconGenOtk P cipher.key nonce page
      let data := splice data offset (P.asconEncrypt (slice data offset (n - offset)) nonce otk)
      (.ok, storeSalt page cipher.plaintextHeaderSize cipher.salt data, env)
  else (.corrupt, data, env)

/-- `DecryptPageAscon128Cipher`. The page is decrypted whether or not its tag is right. -/
def decryptPageAscon128Cipher (P : Primitives) (cipher : Ascon128Cipher) (page : ℕ)
    (data : Bytes) (reserved hmacCheck : ℤ) : ResultCode × Bytes :=
  let nReserved := aeadNReserved pageReservedAscon128 reserved
  let n := data.length - nReserved
  let offset := aeadOffset cipher.plaintextHeaderSize page
  let body := slice data offset (n - offset)
  if aeadFits pageReservedAscon128 reserved then
    if nReserved > 0 then
      let nonce := slice data (n + 16) 16
      let otk := asconGenOtk P cipher.key nonce page
      let plain := splice data offset (P.asconDecrypt body nonce otk)
      if hmacCheck ≠ 0 ∧ slice data n 16 ≠ P.asconTag body nonce otk then (badPage page, plain)
      else (.ok, restoreHeader page cipher.plaintextHeaderSize plain)
    else
      let nonce := sqlite3mcGenerateInitialVector P page
      let otk := asconGenOtk P cipher.key nonce page
      let plain := splice data offset (P.asconDecrypt body nonce otk)
      (.ok, restoreHeader page cipher.plaintextHeaderSize plain)
  else (badPage page, data)

/-- `mcAscon128Descriptor`. -/
def mcAscon128Descriptor (P : Primitives) : CipherDescriptor Ascon128Cipher where
  name := "ascon128"
  allocateCipher := allocateAscon128Cipher
  cloneCipher := cloneAscon128Cipher
  cloneCipher_eq := fun _ _ => rfl
  getLegacy := fun _ => 0
  getPageSize := fun _ => 0
  getReserved := fun _ => pageReservedAscon128
  getSalt := fun c => some c.salt
  generateKey := generateKeyAscon128Cipher P
  encryptPage := encryptPageAscon128Cipher P
  decryptPage := decryptPageAscon128Cipher P

end MultipleCiphers
