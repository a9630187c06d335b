import MultipleCiphers.Ciphers.Salted

/-!
# Value-level encryption

Two SQL functions encrypt and decrypt single values. `sqlite3mc_vle_encrypt` packs a value of any
type into bytes, with the type in front, and makes a blob of a header, a nonce, the encrypted bytes
and a tag of them. `sqlite3mc_vle_decrypt` takes such a blob apart. A *scope* is a second argument
of both: it enters the one-time key, so that a value is meant to be decrypted only under the scope
it was encrypted with.

## The frame

| bytes        | content                                   |
|--------------|-------------------------------------------|
| `0` to `3`   | magic byte, version, algorithm, flags     |
| `4` to `19`  | nonce                                     |
| `20`         | type of the value, encrypted              |
| `21` and on  | the value, encrypted                      |
| the last 16  | tag                                       |

## Accesses

The decoder computes all its lengths from the length of the blob by subtraction, as `int`, and
passes some of them on as `size_t`. Every one of its accesses to its copy of the blob is a
`readWithin` or `writeWithin` here, and an access outside the copy makes the result `none`.
The encoder allocates what it needs; the one byte behind the packed value that its `memcpy` of
`payloadLen + 1` bytes reads is overwritten by the tag and has no part in the result.

## The result of an SQL function

`SqlContext` is the result cell and the error code of `sqlite3_context`. An error is a code, with
the text of the cell as its message; setting a result later replaces the text and leaves the code.
Text is its bytes in UTF-8, which both functions are registered for. A length is below `2 ^ 31`.

## Main definitions

* `SqlValue`, `SqlContext`, `SqlContext.outcome` — SQL values and what an SQL function returns.
* `VleContext`, `VlePrimitives` — the key of a connection, and the algorithms.
* `vleEncrypt`, `vleDecrypt`.
-/

namespace MultipleCiphers

open Bytes

/-! ### SQL values and results -/

/-- An SQL value. A double is its bit pattern, text its bytes. -/
inductive SqlValue where
  | null
  | integer (v : Int64)
  | float (bits : UInt64)
  | text (b : Bytes)
  | blob (b : Bytes)
  deriving DecidableEq

/-- `sqlite3_value_type`: `SQLITE_INTEGER`, `SQLITE_FLOAT`, `SQLITE_TEXT`, `SQLITE_BLOB` and
`SQLITE_NULL`. -/
def sqlite3ValueType : SqlValue → ℕ
  | .integer _ => 1
  | .float _ => 2
  | .text _ => 3
  | .blob _ => 4
  | .null => 5

/-- `sqlite3IsNaN` on a bit pattern: the exponent is all ones and the fraction is not zero. -/
def sqlite3IsNaN (bits : UInt64) : Bool :=
  bits.toNat / 2 ^ 52 % 2 ^ 11 = 2 ^ 11 - 1 ∧ bits.toNat % 2 ^ 52 ≠ 0

/-- `sqlite3_context`: the result cell and the error code, which is `SQLITE_OK` for none. -/
structure SqlContext where
  out : SqlValue
  isError : ResultCode
  deriving DecidableEq

/-- The context an SQL function is called with. -/
def SqlContext.initial : SqlContext := ⟨.null, .ok⟩

/-- The bytes of a text in ASCII. -/
def asciiBytes (s : String) : Bytes := s.toList.map fun c => UInt8.ofNat c.toNat

/-- `sqlite3_result_error`. -/
def sqlite3ResultError (_c : SqlContext) (msg : String) : SqlContext :=
  ⟨.text (asciiBytes msg), .error⟩

/-- `sqlite3_result_error_nomem`. -/
def sqlite3ResultErrorNomem (_c : SqlContext) : SqlContext := ⟨.null, .nomem⟩

/-- `sqlite3_result_error_toobig`, the code `SQLITE_TOOBIG` being `18`. -/
def sqlite3ResultErrorToobig (_c : SqlContext) : SqlContext :=
  ⟨.text (asciiBytes "string or blob too big"), .other 18⟩

/-- `sqlite3_result_null`. -/
def sqlite3ResultNull (c : SqlContext) : SqlContext := { c with out := .null }

/-- `sqlite3_result_int64`. -/
def sqlite3ResultInt64 (c : SqlContext) (v : Int64) : SqlContext := { c with out := .integer v }

/-- `sqlite3_result_double`: no value is NaN. -/
def sqlite3ResultDouble (c : SqlContext) (bits : UInt64) : SqlContext :=
  { c with out := if sqlite3IsNaN bits then .null else .float bits }

/-- `sqlite3_result_text`, `limit` being the `SQLITE_LIMIT_LENGTH` of the connection. -/
def sqlite3ResultText (limit : ℕ) (c : SqlContext) (b : Bytes) : SqlContext :=
  if b.length > limit then sqlite3ResultErrorToobig c else { c with out := .text b }

/-- `sqlite3_result_blob`. -/
def sqlite3ResultBlob (limit : ℕ) (c : SqlContext) (b : Bytes) : SqlContext :=
  if b.length > limit then sqlite3ResultErrorToobig c else { c with out := .blob b }

/-- `sqlite3_value_text` as a C string, `none` for the null pointer. How a double is written is the
parameter `realText`. -/
def sqlite3ValueText (realText : UInt64 → Bytes) : SqlValue → Option Bytes
  | .null => none
  | .integer v => some (asciiBytes (toString v.toInt))
  | .float bits => some (realText bits)
  | .text b => some (b.takeWhile (· ≠ 0))
  | .blob b => some (b.takeWhile (· ≠ 0))

/-- What a statement sees of a function call. -/
inductive SqlOutcome where
  | value (v : SqlValue)
  | error (code : ResultCode) (message : Option Bytes)
  deriving DecidableEq

/-- What `OP_Function` makes of the context: an error with the text of the cell as its message, or
the value in the cell. -/
def SqlContext.outcome (realText : UInt64 → Bytes) (c : SqlContext) : SqlOutcome :=
  if c.isError = .ok then .value c.out else .error c.isError (sqlite3ValueText realText c.out)

/-! ### Keys and algorithms -/

/-- `CODEC_TYPE_CHACHA20`. -/
def codecTypeChaCha20 : ℕ := 3

/-- `CODEC_TYPE_ASCON128`. -/
def codecTypeAscon128 : ℕ := 6

/-- `VLE_MAGIC_NUM`. -/
def vleMagicNum : ℕ := 0x1CAFEBA9

/-- `VLE_MAGIC`. -/
def vleMagic : UInt8 := 0xEC

/-- `VLE_VERSION`. -/
def vleVersion : UInt8 := 1

/-- `sizeof(VleHeader)`. -/
def vleHeaderLen : ℕ := 4

/-- `struct VleContext`. -/
structure VleContext where
  key : Bytes
  keyLen : ℕ
  algorithm : ℕ
  flags : UInt8
  nonceLen : ℕ
  tagLen : ℕ
  deriving DecidableEq

/-- A context as `vle_getContext` and `vle_setKey` leave it: one of the two algorithms, and
a key. -/
structure VleContext.Keyed (ctx : VleContext) : Prop where
  keyLen : ctx.keyLen ≠ 0
  algorithm : ctx.algorithm = codecTypeChaCha20 ∨ ctx.algorithm = codecTypeAscon128
  nonceLen : ctx.nonceLen = 16
  tagLen : ctx.tagLen = 16

/-- The algorithms, with the Ascon scheme for associated data. -/
structure VlePrimitives extends Primitives where
  sha512 : Bytes → Bytes
  /-- The Ascon ciphertext: associated data, message, nonce, key. -/
  asconEncryptAd : Bytes → Bytes → Bytes → Bytes → Bytes
  asconDecryptAd : Bytes → Bytes → Bytes → Bytes → Bytes
  /-- The tag of an Ascon ciphertext: associated data, ciphertext, nonce, key. -/
  asconTagAd : Bytes → Bytes → Bytes → Bytes → Bytes
  length_sha512 : ∀ b, (sha512 b).length = 64
  length_asconEncryptAd : ∀ a m v k, (asconEncryptAd a m v k).length = m.length
  length_asconDecryptAd : ∀ a c v k, (asconDecryptAd a c v k).length = c.length
  asconDecryptAd_asconEncryptAd : ∀ a m v k, asconDecryptAd a (asconEncryptAd a m v k) v k = m
  length_asconTagAd : ∀ a c v k, (asconTagAd a c v k).length = 16

section Vle

variable (P : VlePrimitives) (ctx : VleContext)

/-- `vle_getScope`. The comparison `scopeLen == 0` is one of the pointer, so that the default scope
`"@vle:default-scope"` is never put in the place of an empty one. -/
def vleGetScope (arg : Option SqlValue) : Bytes :=
  match arg with
  | some (.text b) | some (.blob b) => b
  | _ => []

/-- The one-time key of Ascon-128. `AsconGenOtk` writes its hash over the digest of the scope. -/
def vleAsconOtk (nonce scope : Bytes) : Bytes :=
  splice (P.sha512 scope) 0 (P.asconHash (ctx.key ++ nonce ++ put4byte vleMagicNum))

/-- The counter of ChaCha20, from the last four bytes of the nonce. -/
def vleCounter (nonce : Bytes) : UInt32 :=
  UInt32.ofNat (get4byte (nonce.drop (ctx.nonceLen - 4))) ^^^ UInt32.ofNat vleMagicNum

/-- The one-time key of ChaCha20, the key stream combined with the digest of the scope. -/
def vleChaCha20Otk (nonce scope : Bytes) : Bytes :=
  xorBytes (P.sha512 scope) (P.chacha20Stream ctx.key (nonce.take 12) (vleCounter ctx nonce) 64)

/-- `data` combined with the key stream that follows the one-time key. -/
def vleChaCha20Xor (nonce otk data : Bytes) : Bytes :=
  xorBytes data (P.chacha20Stream (otk.drop 32) (nonce.take 12) (vleCounter ctx nonce + 1)
    data.length)

/-! ### Encryption -/

/-- `vle_aeadEncrypt`: the whole frame, from the header and the bytes to encrypt. -/
def vleAeadEncrypt (header plain scope : Bytes) (env : Env) : Bytes × Env :=
  let (nonce, env) := env.chacha20Rng ctx.nonceLen
  let data := header ++ nonce
  if ctx.algorithm = codecTypeAscon128 then
    let otk := vleAsconOtk P ctx nonce scope
    let ctext := P.asconEncryptAd data plain nonce (otk.take 16)
    (data ++ ctext ++ P.asconTagAd data ctext nonce (otk.take 16), env)
  else
    let otk := vleChaCha20Otk P ctx nonce scope
    let ctext := vleChaCha20Xor P ctx nonce otk plain
    (data ++ ctext ++ P.poly1305 (data ++ ctext) (otk.take 32), env)

/-- The packed bytes of a value. -/
def SqlValue.payload : SqlValue → Bytes
  | .null => []
  | .integer v => put8byte v.toUInt64.toNat
  | .float bits => put8byte bits.toNat
  | .text b => b
  | .blob b => b

/-- `sqlite3_malloc(n)`: nothing is granted for no bytes. -/
def sqlite3MallocBytes (n : ℕ) (env : Env) : Bool × Env :=
  if n = 0 then (false, env) else env.sqlite3Malloc

/-- `vle_packValue`: a copy of the packed bytes, `none` if there is no memory for it. -/
def vlePackValue (v : SqlValue) (env : Env) : Option Bytes × Env :=
  let (granted, env) := sqlite3MallocBytes v.payload.length env
  (if granted then some v.payload else none, env)

/-- `vle_encrypt`, with its arguments `argv[0]` and `argv[1]`. -/
def vleEncrypt (limit : ℕ) (value scopeArg : Option SqlValue) (env : Env) : SqlContext × Env :=
  match value with
  | none =>
    (sqlite3ResultError .initial "sqlite3mc_vle_encrypt requires a value", env)
  | some v =>
    if ctx.keyLen = 0 then (sqlite3ResultError .initial "VLE key not set", env)
    else
      let scope := vleGetScope scopeArg
      let (payload, env) := vlePackValue v env
      match payload with
      | none =>
        (sqlite3ResultError .initial "sqlite3mc_vle_encrypt: Failed to pack value", env)
      | some payload =>
        let totalLen := vleHeaderLen + ctx.nonceLen + 1 + payload.length + ctx.tagLen
        let (granted, env) := sqlite3MallocBytes totalLen env
        if granted then
          let header := [vleMagic, vleVersion, UInt8.ofNat ctx.algorithm, ctx.flags]
          let plain := UInt8.ofNat (sqlite3ValueType v) :: payload
          let (frame, env) := vleAeadEncrypt P ctx header plain scope env
          (sqlite3ResultBlob limit .initial frame, env)
        else (sqlite3ResultErrorNomem .initial, env)

/-! ### Decryption -/

/-- An `int` as `size_t`: a negative number becomes a huge one. -/
def sizeOfInt (n : ℤ) : ℕ := if 0 ≤ n then n.toNat else (n + 2 ^ 64).toNat

/-- `vle_aeadDecrypt` on the copy of a blob, decrypted in place. The encrypted part starts at
`ctext` and has `ctextLen` bytes, the tag follows it. -/
def vleAeadDecrypt (buffer : Bytes) (ctextLen : ℤ) (scope : Bytes) : Option (ResultCode × Bytes) :=
  let nonceAt : ℤ := vleHeaderLen
  let dataLen : ℤ := vleHeaderLen + ctx.nonceLen
  let ctext : ℤ := dataLen
  let tagAt : ℤ := ctext + ctextLen
  if ctx.algorithm = codecTypeAscon128 then do
    let nonce ← readWithin buffer nonceAt 16
    let otk := vleAsconOtk P ctx nonce scope
    let data ← readWithin buffer 0 (sizeOfInt dataLen)
    let c ← readWithin buffer ctext (sizeOfInt ctextLen)
    let buffer ← writeWithin buffer ctext (P.asconDecryptAd data c nonce (otk.take 16))
    let tag ← readWithin buffer tagAt 16
    pure (if tag = P.asconTagAd data c nonce (otk.take 16) then .ok else .corrupt, buffer)
  else if ctx.algorithm = codecTypeChaCha20 then do
    let nonce ← readWithin buffer nonceAt ctx.nonceLen
    let otk := vleChaCha20Otk P ctx nonce scope
    let message ← readWithin buffer 0 (sizeOfInt (dataLen + ctextLen))
    let tagCalc := P.poly1305 message (otk.take 32)
    let c ← readWithin buffer ctext (sizeOfInt ctextLen)
    let buffer ← writeWithin buffer ctext (vleChaCha20Xor P ctx nonce otk c)
    let tag ← readWithin buffer tagAt 16
    pure (if tag = tagCalc then .ok else .corrupt, buffer)
  else some (.error, buffer)

/-- The end of a C string that starts at offset `off`. -/
def cStringWithin (buffer : Bytes) (off : ℤ) : Option Bytes :=
  let rest := buffer.drop off.toNat
  if 0 ≤ off ∧ (0 : UInt8) ∈ rest then some (rest.takeWhile (· ≠ 0)) else none

/-- `vle_unpackValue` on the buffer from offset `pos` on. The length goes through `uint32_t` back to
`int`; a negative one stands for a C string, and is not allowed for a blob. -/
def vleUnpackValue (limit : ℕ) (c : SqlContext) (buffer : Bytes) (pos len : ℤ) :
    Option SqlContext := do
  let type ← readWithin buffer pos 1
  match (type.getD 0 0).toNat with
  | 5 => pure (sqlite3ResultNull c)
  | 1 =>
    let b ← readWithin buffer (pos + 1) 8
    pure (sqlite3ResultInt64 c (UInt64.ofNat (get8byte b)).toInt64)
  | 2 =>
    let b ← readWithin buffer (pos + 1) 8
    pure (sqlite3ResultDouble c (UInt64.ofNat (get8byte b)))
  | 3 =>
    let b ← if len < 0 then cStringWithin buffer (pos + 1)
      else readWithin buffer (pos + 1) len.toNat
    pure (sqlite3ResultText limit c b)
  | 4 =>
    let b ← if len < 0 then none else readWithin buffer (pos + 1) len.toNat
    pure (sqlite3ResultBlob limit c b)
  | _ => pure c

/-- The end of `vle_decrypt`, after the authentication: the value is unpacked whether or not that
succeeded. -/
def vleFinish (limit : ℕ) (rc : ResultCode) (buffer : Bytes) (payloadLen : ℤ) : Option SqlContext :=
  let c := if rc ≠ .ok then sqlite3ResultError .initial "AEAD authentication failed" else .initial
  vleUnpackValue limit c buffer (vleHeaderLen + ctx.nonceLen) payloadLen

/-- The length of the packed value in a blob of `blobLen` bytes. -/
def vlePayloadLen (blobLen : ℕ) : ℤ := (blobLen : ℤ) - vleHeaderLen - ctx.nonceLen - ctx.tagLen - 1

/-- `vle_decrypt`, with its arguments `argv[0]` and `argv[1]`. -/
def vleDecrypt (limit : ℕ) (value scopeArg : Option SqlValue) (env : Env) : Option SqlContext :=
  match value with
  | some (.blob blob) =>
    if ctx.keyLen = 0 then some (sqlite3ResultError .initial "VLE key not set")
    else if blob.length < vleHeaderLen then
      some (sqlite3ResultError .initial "Encrypted content too short")
    else if (sqlite3MallocBytes blob.length env).1 then
      if blob.getD 0 0 ≠ vleMagic then
        some (sqlite3ResultError .initial "Invalid VLE header in encrypted value")
      else
        let payloadLen := vlePayloadLen ctx blob.length
        (vleAeadDecrypt P ctx blob (payloadLen + 1) (vleGetScope scopeArg)).bind fun r =>
          vleFinish ctx limit r.1 r.2 payloadLen
    else some (sqlite3ResultErrorNomem .initial)
  | _ => some (sqlite3ResultError .initial "sqlite3mc_vle_decrypt requires a BLOB")

end Vle

/-! ### A key and algorithms to try out -/

/-- Algorithms that encrypt nothing, with a hash and tags that copy what they are made from: what is
hashed or used as a one-time key can be told from the result. -/
def copyVlePrimitives : VlePrimitives where
  toPrimitives := { nullPrimitives with
    poly1305 := fun _ k => (k ++ zeros 16).take 16
    length_poly1305 := fun _ _ => by simp }
  sha512 := fun b => (b ++ zeros 64).take 64
  asconEncryptAd := fun _ m _ _ => m
  asconDecryptAd := fun _ c _ _ => c
  asconTagAd := fun _ _ _ k => (k ++ zeros 16).take 16
  length_sha512 := fun _ => by simp
  length_asconEncryptAd := fun _ _ _ _ => rfl
  length_asconDecryptAd := fun _ _ _ _ => rfl
  asconDecryptAd_asconEncryptAd := fun _ _ _ _ => rfl
  length_asconTagAd := fun _ _ _ _ => by simp

/-- A context with a key of zeros for one of the two algorithms. -/
def zeroVleContext (algorithm : ℕ) : VleContext := ⟨zeros 32, 32, algorithm, 0, 16, 16⟩

theorem zeroVleContext_keyed {algorithm : ℕ}
    (h : algorithm = codecTypeChaCha20 ∨ algorithm = codecTypeAscon128) :
    (zeroVleContext algorithm).Keyed :=
  ⟨by simp [zeroVleContext], h, rfl, rfl⟩

/-- An environment in which every allocation is granted and the random bytes are zeros. -/
def grantingEnv : Env := ⟨[], [], fun _ => true, fun _ => 0, fun _ => .enough⟩

end MultipleCiphers
