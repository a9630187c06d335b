import MultipleCiphers.Ciphers.Salted

/-!
# AEGIS and its key derivation

AEGIS is the one cipher whose key derivation can fail. Argon2id checks its cost parameters against
each other, allocates the memory they ask for and starts threads; `argon2id_hash_raw` returns a
code, and on every code but `ARGON2_OK` leaves its output buffer as it was. `argon2idHashRaw`
models that with all its checks.

`GenerateKeyAegisCipher` stores the code in a local variable and does not look at it. The key of
the cipher is then what it was before: the zero bytes `AllocateAegisCipher` put there.

## The key length

The array `m_key` has room for 32 bytes, of which the AEGIS-128 variants use 16. Here the key is
the list of the `keyLength` bytes in use.

## Main definitions

* `Argon2Code`, `argon2ValidateInputs`, `argon2idHashRaw`.
* `AegisCipher` and `mcAegisDescriptor`.
-/

namespace MultipleCiphers

open Bytes

/-! ### Argon2id -/

/-- The `argon2_error_codes` that `argon2id_hash_raw` can return. -/
inductive Argon2Code where
  | ok
  | outputTooShort
  | outputTooLong
  | pwdTooLong
  | saltTooShort
  | saltTooLong
  | memoryTooLittle
  | memoryTooMuch
  | timeTooSmall
  | timeTooLarge
  | lanesTooFew
  | lanesTooMany
  | memoryAllocationError
  | threadFail
  deriving DecidableEq, Repr

/-- `ARGON2_MAX_OUTLEN`, and every other limit that is the largest 32-bit number. -/
def argon2MaxUInt32 : ℕ := 0xFFFFFFFF

/-- `ARGON2_MAX_LANES`. -/
def argon2MaxLanes : ℕ := 0xFFFFFF

/-- `ARGON2_MIN_MEMORY`: two blocks a slice. -/
def argon2MinMemory : ℕ := 8

/-- `_argon2_validate_inputs` for a call without secret and associated data. The product of the
lanes is taken in 32-bit arithmetic, as in the source; threads are as many as lanes. -/
def argon2ValidateInputs (tCost mCost lanes pwdLen saltLen outLen : ℕ) : Argon2Code :=
  if 4 > outLen then .outputTooShort
  else if argon2MaxUInt32 < outLen then .outputTooLong
  else if argon2MaxUInt32 < pwdLen then .pwdTooLong
  else if 8 > saltLen then .saltTooShort
  else if argon2MaxUInt32 < saltLen then .saltTooLong
  else if argon2MinMemory > mCost then .memoryTooLittle
  else if argon2MaxUInt32 < mCost then .memoryTooMuch
  else if mCost < 8 * lanes % 2 ^ 32 then .memoryTooLittle
  else if 1 > tCost then .timeTooSmall
  else if argon2MaxUInt32 < tCost then .timeTooLarge
  else if 1 > lanes then .lanesTooFew
  else if argon2MaxLanes < lanes then .lanesTooMany
  else .ok

/-- An `int` as `uint32_t`. -/
def uint32OfInt (n : ℤ) : ℕ := (n % 2 ^ 32).toNat

/-- `argon2id_hash_raw`: the code, and the hash if the code is `ok`. The checks of `argon2_hash`
come before the output buffer is allocated, those of `argon2_ctx` after. -/
def argon2idHashRaw (P : Primitives) (tCost mCost lanes : ℕ) (pwd salt : Bytes) (hashLen : ℕ)
    (env : Env) : Argon2Code × Option Bytes × Env :=
  let (granted, env) := env.argon2Grant
  if argon2MaxUInt32 < pwd.length then (.pwdTooLong, none, env)
  else if argon2MaxUInt32 < salt.length then (.saltTooLong, none, env)
  else if argon2MaxUInt32 < hashLen then (.outputTooLong, none, env)
  else if hashLen < 4 then (.outputTooShort, none, env)
  else if granted = .noBuffer then (.memoryAllocationError, none, env)
  else
    match argon2ValidateInputs tCost mCost lanes pwd.length salt.length hashLen with
    | .ok =>
      match granted with
      | .enough => (.ok, some (P.argon2id tCost mCost lanes pwd salt hashLen), env)
      | .noThread => (.threadFail, none, env)
      | _ => (.memoryAllocationError, none, env)
    | code => (code, none, env)

/-! ### The cipher -/

/-- `struct AegisCipher`. -/
structure AegisCipher where
  argon2Tcost : ℤ
  argon2Mcost : ℤ
  argon2Pcost : ℤ
  aegisAlgorithm : ℤ
  plaintextHeaderSize : ℤ
  keyLength : ℕ
  nonceLength : ℕ
  key : Bytes
  salt : Bytes
  deriving DecidableEq

/-- `AEGIS_ALGORITHM_256`, the first of the variants with long keys. -/
def aegisAlgorithm256 : ℤ := 4

/-- Key and nonce length of an algorithm: `KEYLENGTH_AEGIS_128` or `KEYLENGTH_AEGIS_256`. -/
def aegisKeyLength (algorithm : ℤ) : ℕ := if algorithm < aegisAlgorithm256 then 16 else 32

/-- `AllocateAegisCipher`. -/
def allocateAegisCipher (env : Env) : Option AegisCipher × Env :=
  let (ok, env) := env.sqlite3Malloc
  if ok then
    let j := env.sqlite3mcGetCipherParams "aegis"
    let (tcost, env) := env.getCipherParameter j "tcost"
    let (mcost, env) := env.getCipherParameter j "mcost"
    let (pcost, env) := env.getCipherParameter j "pcost"
    let (algorithm, env) := env.getCipherParameter j "algorithm"
    let (plaintextHeaderSize, env) := env.getCipherParameter j "plaintext_header_size"
    let length := aegisKeyLength algorithm
    (some ⟨tcost, mcost, pcost, algorithm, plaintextHeaderSize, length, length, zeros length,
      zeros 16⟩, env)
  else (none, env)

/-- `CloneAegisCipher`. -/
def cloneAegisCipher (_to source : AegisCipher) : AegisCipher where
  argon2Tcost := source.argon2Tcost
  argon2Mcost := source.argon2Mcost
  argon2Pcost := source.argon2Pcost
  aegisAlgorithm := source.aegisAlgorithm
  plaintextHeaderSize := source.plaintextHeaderSize
  keyLength := source.keyLength
  nonceLength := source.nonceLength
  key := source.key
  salt := source.salt

/-- `PAGE_TAG_LEN_AEGIS`. -/
def pageTagLenAegis : ℕ := 32

/-- `GetReservedAegisCipher`. -/
def getReservedAegisCipher (cipher : AegisCipher) : ℕ := cipher.nonceLength + pageTagLenAegis

/-- `GenerateKeyAegisCipher`. The code of Argon2id is dropped: where there is no hash, the key
stays as it is. -/
def generateKeyAegisCipher (P : Primitives) (cipher : AegisCipher) (password : Bytes)
    (rekey : ℕ) (cipherSalt : Option Bytes) (env : Env) : AegisCipher × Env :=
  let (keyOnly, salt, env) := saltForKey cipher.plaintextHeaderSize 16 rekey cipherSalt env
  match sqlite3mcExtractRawKey password keyOnly cipher.keyLength 16 with
  | some (key, rawSalt) => ({ cipher with key := key, salt := rawSalt.getD salt }, env)
  | none =>
    let (_rc, hash, env) := argon2idHashRaw P (uint32OfInt cipher.argon2Tcost)
      (uint32OfInt cipher.argon2Mcost) (uint32OfInt cipher.argon2Pcost) password salt
      cipher.keyLength env
    ({ cipher with key := hash.getD cipher.key, salt := salt }, env)

/-- `AegisGenNonce`. The page number is stored into the output, which the stream then overwrites;
the nonce of the stream stays zero. -/
def aegisGenNonce (P : Primitives) (cipher : AegisCipher) : Bytes :=
  P.aegisStream cipher.aegisAlgorithm cipher.nonceLength (zeros 32) cipher.key

/-- `AegisGenOtk`: key and nonce for one page, the page number in the last four bytes. -/
def aegisGenOtk (P : Primitives) (cipher : AegisCipher) (nonce : Bytes) (page : ℕ) : Bytes :=
  let outLength := cipher.keyLength + cipher.nonceLength
  splice (P.aegisStream cipher.aegisAlgorithm outLength nonce cipher.key) (outLength - 4)
    (put4byte page)

/-- `EncryptPageAegisCipher`. -/
def encryptPageAegisCipher (P : Primitives) (cipher : AegisCipher) (page : ℕ)
    (data : Bytes) (reserved : ℤ) (env : Env) : ResultCode × Bytes × Env :=
  let nReserved := aeadNReserved (getReservedAegisCipher cipher) reserved
  let n := data.length - nReserved
  let offset := aeadOffset cipher.plaintextHeaderSize page
  let body := slice data offset (n - offset)
  if aeadFits (getReservedAegisCipher cipher) reserved then
    if nReserved > 0 then
      let (nonce, env) := env.chacha20Rng cipher.nonceLength
      let otk := aegisGenOtk P cipher nonce page
      let npub := otk.drop cipher.keyLength
      let k := otk.take cipher.keyLength
      let body := P.aegisEncryptNoTag cipher.aegisAlgorithm body npub k
      let data := splice (splice data (n + pageTagLenAegis) nonce) offset body
      let data := splice data n (P.aegisTag cipher.aegisAlgorithm body npub k)
      (.ok, storeSalt page cipher.plaintextHeaderSize cipher.salt data, env)
    else
      let otk := aegisGenOtk P cipher (aegisGenNonce P cipher) page
      let body := P.aegisEncryptNoTag cipher.aegisAlgorithm body (otk.drop cipher.keyLength)
        (otk.take cipher.keyLength)
      (.ok, storeSalt page cipher.plaintextHeaderSize cipher.salt (splice data offset body), env)
  else (.corrupt, data, env)

/-- `DecryptPageAegisCipher`. If the tag is checked and wrong, the decrypted part is zeroed. -/
def decryptPageAegisCipher (P : Primitives) (cipher : AegisCipher) (page : ℕ)
    (data : Bytes) (reserved hmacCheck : ℤ) : ResultCode × Bytes :=
  let nReserved := aeadNReserved (getReservedAegisCipher cipher) reserved
  let n := data.length - nReserved
  let offset := aeadOffset cipher.plaintextHeaderSize page
  let body := slice data offset (n - offset)
  if aeadFits (getReservedAegisCipher cipher) reserved then
    if nReserved > 0 then
      let nonce := slice data (n + pageTagLenAegis) cipher.nonceLength
      let otk := aegisGenOtk P cipher nonce page
      let npub := otk.drop cipher.keyLength
      let k := otk.take cipher.keyLength
      if hmacCheck ≠ 0 ∧
          slice data n pageTagLenAegis ≠ P.aegisTag cipher.aegisAlgorithm body npub k then
        (badPage page, splice data offset (zeros body.length))
      else
        let body := P.aegisDecryptNoTag cipher.aegisAlgorithm body npub k
        (.ok, restoreHeader page cipher.plaintextHeaderSize (splice data offset body))
    else
      let otk := aegisGenOtk P cipher (aegisGenNonce P cipher) page
      let body := P.aegisDecryptNoTag cipher.aegisAlgorithm body (otk.drop cipher.keyLength)
        (otk.take cipher.keyLength)
      (.ok, restoreHeader page cipher.plaintextHeaderSize (splice data offset body))
  else (badPage page, data)

/-- `mcAegisDescriptor`. -/
def mcAegisDescriptor (P : Primitives) : CipherDescriptor AegisCipher where
  name := "aegis"
  allocateCipher := allocateAegisCipher
  cloneCipher := cloneAegisCipher
  cloneCipher_eq := fun _ _ => rfl
  getLegacy := fun _ => 0
  getPageSize := fun _ => 0
  getReserved := fun c => getReservedAegisCipher c
  getSalt := fun c => some c.salt
  generateKey := generateKeyAegisCipher P
  encryptPage := encryptPageAegisCipher P
  decryptPage := decryptPageAegisCipher P

end MultipleCiphers
