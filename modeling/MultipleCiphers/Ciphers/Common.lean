import MultipleCiphers.Lib.BlockCipher
import MultipleCiphers.Primitives
import MultipleCiphers.Codec

/-!
# What the ciphers share

The seven ciphers are variations of a few themes. A password is either a raw key in one of several
notations or goes through a key derivation. A salted cipher takes its salt from the file or draws a
new one, and stores it in the first sixteen bytes of page 1. Page 1 begins with a header some of
which stays readable. This file has these themes; each is used by several of the ciphers.

## The salt rule

`saltForKey` is the start of the key generation of every salted cipher. A key operation draws a
new salt if it is a rekey, or if no salt can be read. In WAL mode a rekey keeps the salt of the
file (the source says so in a comment); in rollback-journal mode it does not.

## Main definitions

* `sqlite3mcExtractRawKey`, `sqlite3mcPadPassword` — passwords.
* `saltForKey`, `saltedKey` — salts and keys.
* `rijndaelEncrypt`, `rijndaelDecrypt` — `RijndaelBlockEncrypt` and `RijndaelBlockDecrypt`.
* `legacyPageSizeOf`, `sqliteFileHeader`, `cipherPage1Offset`.
-/

namespace MultipleCiphers

open Bytes

/-- `SQLITE_FILE_HEADER` with its terminating zero: `"SQLite format 3"`. -/
def sqliteFileHeader : Bytes :=
  [0x53, 0x51, 0x4c, 0x69, 0x74, 0x65, 0x20, 0x66, 0x6f, 0x72, 0x6d, 0x61, 0x74, 0x20, 0x33, 0x00]

@[simp] theorem length_sqliteFileHeader : sqliteFileHeader.length = 16 := rfl

/-- `CIPHER_PAGE1_OFFSET`. -/
def cipherPage1Offset : ℕ := 24

/-- `SQLITE_MAX_PAGE_SIZE`. -/
def sqliteMaxPageSize : ℤ := 65536

/-- A page size SQLite accepts: a power of two from `512` to `65536`. -/
def validPageSize (pageSize : ℤ) : Bool :=
  512 ≤ pageSize ∧ pageSize ≤ sqliteMaxPageSize ∧
    (pageSize.toNat - 1) &&& pageSize.toNat = 0

/-- The `m_getPageSize` function of the ciphers that have a legacy mode. -/
def legacyPageSizeOf (legacy legacyPageSize : ℤ) : ℤ :=
  if legacy ≠ 0 then
    if validPageSize legacyPageSize then legacyPageSize else 0
  else 0

/-! ### Passwords -/

/-- The padding constant of `cipher_common.c`. -/
def padding : Bytes :=
  [0x28, 0xBF, 0x4E, 0x5E, 0x4E, 0x75, 0x8A, 0x41, 0x64, 0x00, 0x4E, 0x56, 0xFF, 0xFA, 0x01, 0x08,
    0x2E, 0x2E, 0x00, 0xB6, 0xD0, 0x68, 0x3E, 0x80, 0x2F, 0x0C, 0xA9, 0xFE, 0x64, 0x53, 0x69, 0x7A]

/-- `sqlite3mcPadPassword`: exactly 32 bytes. -/
def sqlite3mcPadPassword (password : Bytes) : Bytes := (password ++ padding).take 32

/-- One hexadecimal digit, `sqlite3mcConvertHex2Int`; `none` for any other character. -/
def hexDigit (c : UInt8) : Option ℕ :=
  let n := c.toNat
  if 0x30 ≤ n ∧ n ≤ 0x39 then some (n - 0x30)
  else if 0x41 ≤ n ∧ n ≤ 0x46 then some (n - 0x41 + 10)
  else if 0x61 ≤ n ∧ n ≤ 0x66 then some (n - 0x61 + 10)
  else none

/-- `sqlite3mcIsHexKey`. -/
def sqlite3mcIsHexKey (hex : Bytes) : Bool := hex.all fun c => (hexDigit c).isSome

/-- `sqlite3mcConvertHex2Int`: a character that is no digit counts as `0`. -/
def sqlite3mcConvertHex2Int (c : UInt8) : ℕ := (hexDigit c).getD 0

/-- `sqlite3mcConvertHex2Bin`, two digits a byte. -/
def sqlite3mcConvertHex2Bin : Bytes → Bytes
  | hi :: lo :: rest =>
    UInt8.ofNat (sqlite3mcConvertHex2Int hi * 16 + sqlite3mcConvertHex2Int lo) ::
      sqlite3mcConvertHex2Bin rest
  | _ => []

theorem length_sqlite3mcConvertHex2Bin {n : ℕ} {hex : Bytes} (h : hex.length = 2 * n) :
    (sqlite3mcConvertHex2Bin hex).length = n := by
  induction n generalizing hex with
  | zero =>
    rw [List.eq_nil_of_length_eq_zero h]
    rfl
  | succ n ih =>
    obtain ⟨hi, lo, rest, rfl⟩ : ∃ hi lo rest, hex = hi :: lo :: rest := by
      match hex, h with
      | hi :: lo :: rest, _ => exact ⟨hi, lo, rest, rfl⟩
    rw [sqlite3mcConvertHex2Bin, List.length_cons, ih (by simp at h; omega)]

/-- `"raw:"`. -/
def rawPrefix : Bytes := [0x72, 0x61, 0x77, 0x3a]

/-- Whether a password starts with `x'` or `X'`. -/
def hasHexQuotePrefix (password : Bytes) : Bool :=
  match password with
  | x :: q :: _ => (x = 0x78 ∨ x = 0x58) ∧ q = 0x27
  | _ => false

/-- `sqlite3mcExtractRawKey`: the key, and the salt if the password carries one that is to be used;
`none` if the password is no raw key and has to go through the key derivation. -/
def sqlite3mcExtractRawKey (password : Bytes) (keyOnly : Bool) (keyLength saltLength : ℕ) :
    Option (Bytes × Option Bytes) :=
  let saltOf (s : Bytes) : Option Bytes := if keyOnly then none else some s
  if 4 < password.length ∧ password.take 4 = rawPrefix then
    let raw := password.drop 4
    let nRaw := raw.length
    if nRaw = keyLength + saltLength then
      some (raw.take keyLength, saltOf (raw.drop keyLength))
    else if nRaw = keyLength then some (raw, none)
    else if nRaw = 2 * keyLength then
      if sqlite3mcIsHexKey raw then some (sqlite3mcConvertHex2Bin raw, none) else none
    else if nRaw = 2 * (keyLength + saltLength) then
      if sqlite3mcIsHexKey raw then
        some (sqlite3mcConvertHex2Bin (raw.take (2 * keyLength)),
          saltOf (sqlite3mcConvertHex2Bin (raw.drop (2 * keyLength))))
      else none
    else none
  else
    let quoted := password.drop 2
    if password.length = keyLength * 2 + 3 ∧ hasHexQuotePrefix password ∧
        sqlite3mcIsHexKey (quoted.take (keyLength * 2)) then
      some (sqlite3mcConvertHex2Bin (quoted.take (keyLength * 2)), none)
    else if password.length = (keyLength + saltLength) * 2 + 3 ∧ hasHexQuotePrefix password ∧
        sqlite3mcIsHexKey (quoted.take ((keyLength + saltLength) * 2)) then
      some (sqlite3mcConvertHex2Bin (quoted.take (keyLength * 2)),
        saltOf (sqlite3mcConvertHex2Bin (slice quoted (keyLength * 2) (saltLength * 2))))
    else none

/-! ### Salts and keys -/

/-- The start of every salted key generation: whether only the key may be taken from a raw
password, and the salt. A rekey in WAL mode, `rekey = 2`, keeps the salt it is given. -/
def saltForKey (plaintextHeaderSize : ℤ) (saltLength rekey : ℕ) (cipherSalt : Option Bytes)
    (env : Env) : Bool × Bytes × Env :=
  let rekey := if rekey = 2 then (if cipherSalt.isSome then 0 else 1) else rekey
  match rekey, cipherSalt with
  | 0, some salt => (!decide (plaintextHeaderSize > 0), salt.take saltLength, env)
  | _, _ =>
    let (salt, env) := env.chacha20Rng saltLength
    (false, salt, env)

/-- Key and salt of a salted cipher: a raw key is used as it stands, any other password goes
through the key derivation `kdf` with the salt. -/
def saltedKey (plaintextHeaderSize : ℤ) (keyLength saltLength : ℕ) (kdf : Bytes → Bytes)
    (password : Bytes) (rekey : ℕ) (cipherSalt : Option Bytes) (env : Env) :
    Bytes × Bytes × Env :=
  let (keyOnly, salt, env) := saltForKey plaintextHeaderSize saltLength rekey cipherSalt env
  match sqlite3mcExtractRawKey password keyOnly keyLength saltLength with
  | some (key, rawSalt) => (key, rawSalt.getD salt, env)
  | none => (kdf salt, salt, env)

/-- Without a rekey, a salt that is given is the salt that is used. -/
theorem saltForKey_given {plaintextHeaderSize : ℤ} {saltLength : ℕ} {salt : Bytes} (env : Env)
    (hlen : salt.length = saltLength) :
    saltForKey plaintextHeaderSize saltLength 0 (some salt) env =
      (!decide (plaintextHeaderSize > 0), salt, env) := by
  simp [saltForKey, List.take_of_length_le hlen.le]

/-- In rollback-journal mode a rekey draws a new salt, whatever the file holds. -/
theorem saltForKey_rekey {plaintextHeaderSize : ℤ} {saltLength : ℕ} (cipherSalt : Option Bytes)
    (env : Env) :
    saltForKey plaintextHeaderSize saltLength 1 cipherSalt env =
      (false, (env.chacha20Rng saltLength).1, (env.chacha20Rng saltLength).2) := by
  cases cipherSalt <;> rfl

/-- In WAL mode a rekey keeps the salt of the file. -/
theorem saltForKey_rekeyWal {plaintextHeaderSize : ℤ} {saltLength : ℕ} (salt : Bytes) (env : Env) :
    saltForKey plaintextHeaderSize saltLength 2 (some salt) env =
      saltForKey plaintextHeaderSize saltLength 0 (some salt) env := rfl

/-! ### The AES block cipher in CBC mode -/

section Rijndael

variable (P : Primitives)

/-- `RijndaelBlockEncrypt` in CBC mode. No input, no output. -/
def rijndaelEncrypt (key iv data : Bytes) : Bytes :=
  BlockCipher.ctsEncrypt 16 (P.aesEncrypt key) iv data

/-- `RijndaelBlockDecrypt` in CBC mode. -/
def rijndaelDecrypt (key iv data : Bytes) : Bytes :=
  BlockCipher.ctsDecrypt 16 (P.aesDecrypt key) iv data

theorem length_rijndaelEncrypt {key iv data : Bytes} (hiv : iv.length = 16)
    (hdata : 16 ≤ data.length) : (rijndaelEncrypt P key iv data).length = data.length :=
  (BlockCipher.ctsDecrypt_ctsEncrypt (by decide) (P.length_aesEncrypt key)
    (P.aesDecrypt_aesEncrypt key) hiv hdata).1

theorem length_rijndaelDecrypt {key iv data : Bytes} (hiv : iv.length = 16)
    (hdata : 16 ≤ data.length) : (rijndaelDecrypt P key iv data).length = data.length :=
  BlockCipher.length_ctsDecrypt (P.length_aesDecrypt key) (by decide) hiv hdata

theorem rijndaelDecrypt_rijndaelEncrypt {key iv data : Bytes} (hiv : iv.length = 16)
    (hdata : 16 ≤ data.length) : rijndaelDecrypt P key iv (rijndaelEncrypt P key iv data) = data :=
  (BlockCipher.ctsDecrypt_ctsEncrypt (by decide) (P.length_aesEncrypt key)
    (P.aesDecrypt_aesEncrypt key) hiv hdata).2

end Rijndael

end MultipleCiphers
