import MultipleCiphers.Ciphers.Common

/-!
# The ciphers without reserved bytes: AES-128, AES-256 and RC4

These three ciphers keep the length of a page and store nothing in it, neither a salt nor a tag.
They never refuse a page and never reject one, so reading with a wrong key delivers garbage rather
than an error.

The two AES ciphers differ in the hash that makes the page key and in the key length; both move
part of page 1 aside so that the bytes `16` to `23` of the database header stay readable. Their
page functions are one definition with the page key as a parameter.

## Main definitions

* `AES128Cipher`, `AES256Cipher`, `RC4Cipher` and their descriptors.
* `wxPageEncrypt`, `wxPageDecrypt` — the page functions the AES ciphers share.
-/

namespace MultipleCiphers

open Bytes

section Aes

variable (P : Primitives)

/-- The bytes that go into the page key: the key, the page number and `"sAlT"`. -/
def pageKeyInput (key : Bytes) (page : ℕ) : Bytes :=
  key ++ store32LE page ++ [0x73, 0x41, 0x6c, 0x54]

/-- `sqlite3mcAES128`, encrypting. -/
def sqlite3mcAES128Encrypt (key : Bytes) (page : ℕ) (data : Bytes) : Bytes :=
  rijndaelEncrypt P (P.md5 (pageKeyInput key page)) (sqlite3mcGenerateInitialVector P page) data

/-- `sqlite3mcAES128`, decrypting. -/
def sqlite3mcAES128Decrypt (key : Bytes) (page : ℕ) (data : Bytes) : Bytes :=
  rijndaelDecrypt P (P.md5 (pageKeyInput key page)) (sqlite3mcGenerateInitialVector P page) data

/-- `sqlite3mcAES256`, encrypting. -/
def sqlite3mcAES256Encrypt (key : Bytes) (page : ℕ) (data : Bytes) : Bytes :=
  rijndaelEncrypt P (P.sha256 (pageKeyInput key page)) (sqlite3mcGenerateInitialVector P page) data

/-- `sqlite3mcAES256`, decrypting. -/
def sqlite3mcAES256Decrypt (key : Bytes) (page : ℕ) (data : Bytes) : Bytes :=
  rijndaelDecrypt P (P.sha256 (pageKeyInput key page)) (sqlite3mcGenerateInitialVector P page) data

end Aes

/-- The page encryption of the AES ciphers over the cipher call `aes`. On page 1, outside the
legacy mode, the first block is encrypted on its own, the encrypted bytes `16` to `23` replace its
second half, and the plain ones stay where they are. -/
def wxPageEncrypt (legacy : ℤ) (aes : Bytes → Bytes) (page : ℕ) (data : Bytes) : Bytes :=
  if legacy ≠ 0 then aes data
  else if page = 1 then
    let dbHeader := slice data 16 8
    let data := splice data 0 (aes (slice data 0 16))
    let data := splice data 16 (aes (data.drop 16))
    let data := splice data 8 (slice data 16 8)
    splice data 16 dbHeader
  else aes data

/-- Whether the bytes `16` to `23` of a page 1 are those of a database header, so that the page
follows the present encryption scheme. -/
def wxHeaderValid (dbHeader : Bytes) : Bool :=
  validPageSize ((dbHeader.getD 0 0).toNat * 2 ^ 8 + (dbHeader.getD 1 0).toNat * 2 ^ 16 : ℕ) ∧
    dbHeader.getD 5 0 = 0x40 ∧ dbHeader.getD 6 0 = 0x20 ∧ dbHeader.getD 7 0 = 0x20

/-- The page decryption of the AES ciphers over the cipher call `aes`. -/
def wxPageDecrypt (legacy : ℤ) (aes : Bytes → Bytes) (page : ℕ) (data : Bytes) : Bytes :=
  if legacy ≠ 0 then aes data
  else if page = 1 ∧ wxHeaderValid (slice data 16 8) then
    let dbHeader := slice data 16 8
    let data := splice data 16 (slice data 8 8)
    let data := splice data 16 (aes (data.drop 16))
    if dbHeader = slice data 16 8 then splice data 0 sqliteFileHeader else data
  else aes data

/-! ### AES-128 -/

/-- `struct AES128Cipher`. The key schedule is recomputed for every page and left out. -/
structure AES128Cipher where
  legacy : ℤ
  legacyPageSize : ℤ
  key : Bytes
  deriving DecidableEq

/-- `AllocateAES128Cipher`: the structure, then the key schedule. -/
def allocateAES128Cipher (env : Env) : Option AES128Cipher × Env :=
  let (ok, env) := env.sqlite3Malloc
  if ok then
    let (ok, env) := env.sqlite3Malloc
    if ok then
      let j := env.sqlite3mcGetCipherParams "aes128cbc"
      let (legacy, env) := env.getCipherParameter j "legacy"
      let (legacyPageSize, env) := env.getCipherParameter j "legacy_page_size"
      (some ⟨legacy, legacyPageSize, zeros 16⟩, env)
    else (none, env)
  else (none, env)

/-- `CloneAES128Cipher`. -/
def cloneAES128Cipher (_to source : AES128Cipher) : AES128Cipher where
  legacy := source.legacy
  legacyPageSize := source.legacyPageSize
  key := source.key

/-- A digest hashed `n` more times. -/
def rehash (hash : Bytes → Bytes) : ℕ → Bytes → Bytes
  | 0, digest => digest
  | n + 1, digest => rehash hash n (hash digest)

/-- The owner key: RC4 under the digest with its bytes combined with `i`, for `i` from `from`. -/
def ownerKeyRounds (digest : Bytes) : ℕ → ℕ → Bytes → Bytes
  | 0, _, ownerKey => ownerKey
  | n + 1, i, ownerKey =>
    ownerKeyRounds digest n (i + 1) (sqlite3mcRC4 (digest.map (· ^^^ UInt8.ofNat i)) ownerKey)

/-- `GenerateKeyAES128Cipher`. -/
def generateKeyAES128Cipher (P : Primitives) (cipher : AES128Cipher) (password : Bytes) :
    AES128Cipher :=
  let userPad := sqlite3mcPadPassword password
  let ownerPad := sqlite3mcPadPassword []
  let digest := rehash P.md5 50 (P.md5 ownerPad)
  let ownerKey := ownerKeyRounds digest 20 0 userPad
  let digest := rehash P.md5 50 (P.md5 (userPad ++ ownerKey))
  { cipher with key := digest }

/-- `mcAES128Descriptor`. -/
def mcAES128Descriptor (P : Primitives) : CipherDescriptor AES128Cipher where
  name := "aes128cbc"
  allocateCipher := allocateAES128Cipher
  cloneCipher := cloneAES128Cipher
  cloneCipher_eq := fun _ _ => rfl
  getLegacy := AES128Cipher.legacy
  getPageSize := fun c => legacyPageSizeOf c.legacy c.legacyPageSize
  getReserved := fun _ => 0
  getSalt := fun _ => none
  generateKey := fun c password _ _ env => (generateKeyAES128Cipher P c password, env)
  encryptPage := fun c page data _ env =>
    (.ok, wxPageEncrypt c.legacy (sqlite3mcAES128Encrypt P c.key page) page data, env)
  decryptPage := fun c page data _ _ =>
    (.ok, wxPageDecrypt c.legacy (sqlite3mcAES128Decrypt P c.key page) page data)

/-! ### AES-256 -/

/-- `struct AES256Cipher`. -/
structure AES256Cipher where
  legacy : ℤ
  legacyPageSize : ℤ
  kdfIter : ℤ
  key : Bytes
  deriving DecidableEq

/-- `AllocateAES256Cipher`. -/
def allocateAES256Cipher (env : Env) : Option AES256Cipher × Env :=
  let (ok, env) := env.sqlite3Malloc
  if ok then
    let (ok, env) := env.sqlite3Malloc
    if ok then
      let j := env.sqlite3mcGetCipherParams "aes256cbc"
      let (legacy, env) := env.getCipherParameter j "legacy"
      let (legacyPageSize, env) := env.getCipherParameter j "legacy_page_size"
      let (kdfIter, env) := env.getCipherParameter j "kdf_iter"
      (some ⟨legacy, legacyPageSize, kdfIter, zeros 32⟩, env)
    else (none, env)
  else (none, env)

/-- `CloneAES256Cipher`. -/
def cloneAES256Cipher (_to source : AES256Cipher) : AES256Cipher where
  legacy := source.legacy
  legacyPageSize := source.legacyPageSize
  kdfIter := source.kdfIter
  key := source.key

/-- `CODEC_SHA_ITER`. -/
def codecShaIter : ℕ := 4001

/-- `GenerateKeyAES256Cipher`. The iteration count is the constant, not `m_kdfIter`. -/
def generateKeyAES256Cipher (P : Primitives) (cipher : AES256Cipher) (password : Bytes) :
    AES256Cipher :=
  let userPad := sqlite3mcPadPassword password
  { cipher with key := rehash P.sha256 codecShaIter (P.sha256 userPad) }

/-- `mcAES256Descriptor`. -/
def mcAES256Descriptor (P : Primitives) : CipherDescriptor AES256Cipher where
  name := "aes256cbc"
  allocateCipher := allocateAES256Cipher
  cloneCipher := cloneAES256Cipher
  cloneCipher_eq := fun _ _ => rfl
  getLegacy := AES256Cipher.legacy
  getPageSize := fun c => legacyPageSizeOf c.legacy c.legacyPageSize
  getReserved := fun _ => 0
  getSalt := fun _ => none
  generateKey := fun c password _ _ env => (generateKeyAES256Cipher P c password, env)
  encryptPage := fun c page data _ env =>
    (.ok, wxPageEncrypt c.legacy (sqlite3mcAES256Encrypt P c.key page) page data, env)
  decryptPage := fun c page data _ _ =>
    (.ok, wxPageDecrypt c.legacy (sqlite3mcAES256Decrypt P c.key page) page data)

/-! ### RC4 -/

/-- `struct RC4Cipher`. -/
structure RC4Cipher where
  legacy : ℤ
  legacyPageSize : ℤ
  key : Bytes
  deriving DecidableEq

/-- `AllocateRC4Cipher`. -/
def allocateRC4Cipher (env : Env) : Option RC4Cipher × Env :=
  let (ok, env) := env.sqlite3Malloc
  if ok then
    let j := env.sqlite3mcGetCipherParams "rc4"
    let (legacy, env) := env.getCipherParameter j "legacy"
    let (legacyPageSize, env) := env.getCipherParameter j "legacy_page_size"
    (some ⟨legacy, legacyPageSize, zeros 16⟩, env)
  else (none, env)

/-- `CloneRC4Cipher`. -/
def cloneRC4Cipher (_to source : RC4Cipher) : RC4Cipher where
  legacy := source.legacy
  legacyPageSize := source.legacyPageSize
  key := source.key

/-- `GenerateKeyRC4Cipher`: the first sixteen bytes of the SHA1 digest of the password. -/
def generateKeyRC4Cipher (P : Primitives) (cipher : RC4Cipher) (password : Bytes) : RC4Cipher :=
  { cipher with key := (P.sha1 password).take 16 }

/-- `mcRC4Descriptor`. -/
def mcRC4Descriptor (P : Primitives) : CipherDescriptor RC4Cipher where
  name := "rc4"
  allocateCipher := allocateRC4Cipher
  cloneCipher := cloneRC4Cipher
  cloneCipher_eq := fun _ _ => rfl
  getLegacy := RC4Cipher.legacy
  getPageSize := fun c => legacyPageSizeOf c.legacy c.legacyPageSize
  getReserved := fun _ => 0
  getSalt := fun _ => none
  generateKey := fun c password _ _ env => (generateKeyRC4Cipher P c password, env)
  encryptPage := fun c _ data _ env => (.ok, sqlite3mcRC4 c.key data, env)
  decryptPage := fun c _ data _ _ => (.ok, sqlite3mcRC4 c.key data)

end MultipleCiphers
