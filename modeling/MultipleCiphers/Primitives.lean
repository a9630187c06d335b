import MultipleCiphers.Connection
import Mathlib.Data.Nat.Digits.Lemmas

/-!
# The cryptographic primitives under the ciphers

The ciphers of this repository are page formats: they decide which bytes of a page are encrypted,
which key and nonce are used, and where the salt, the nonce and the authentication tag go. The
algorithms they call (hash functions, key derivations, the AES block cipher, the ChaCha20 stream,
the AEGIS and Ascon schemes) are the parameter `P : Primitives` here.

`Primitives` carries the laws of the algorithms together with the functions: output lengths, and
that decryption undoes encryption. Nothing in it says that an algorithm is secure. A statement
that needs, say, keys for different salts to differ has to name that as an assumption.

## What is concrete

RC4, the generator of initial vectors, the CBC mode of the block cipher and the argument checks
of Argon2 are small enough, and close enough to the questions asked, to be defined outright. RC4
and the generator are in this file.
-/

namespace MultipleCiphers

/-- `SQLCIPHER_ALGORITHM_SHA1`, `SQLCIPHER_ALGORITHM_SHA256` and `SQLCIPHER_ALGORITHM_SHA512`. -/
inductive HashAlgorithm where
  | sha1
  | sha256
  | sha512
  deriving DecidableEq, Repr

/-- The `switch` over an algorithm number: every number but `0` and `1` is SHA512. -/
def HashAlgorithm.ofInt (n : ℤ) : HashAlgorithm :=
  if n = 0 then .sha1 else if n = 1 then .sha256 else .sha512

/-- The digest length in bytes. -/
def HashAlgorithm.size : HashAlgorithm → ℕ
  | .sha1 => 20
  | .sha256 => 32
  | .sha512 => 64

/-- The algorithms the ciphers call, with their laws. -/
structure Primitives where
  md5 : Bytes → Bytes
  sha1 : Bytes → Bytes
  sha256 : Bytes → Bytes
  /-- `fastpbkdf2_hmac_*`: password, salt, iteration count, output length. -/
  pbkdf2 : HashAlgorithm → Bytes → Bytes → ℤ → ℕ → Bytes
  /-- `sqlcipher_hmac`: key, message. -/
  hmac : HashAlgorithm → Bytes → Bytes → Bytes
  /-- One AES block: key, block. -/
  aesEncrypt : Bytes → Bytes → Bytes
  aesDecrypt : Bytes → Bytes → Bytes
  /-- The ChaCha20 key stream: key, nonce, counter, length. -/
  chacha20Stream : Bytes → Bytes → UInt32 → ℕ → Bytes
  /-- `poly1305`: message, one-time key. -/
  poly1305 : Bytes → Bytes → Bytes
  /-- `aegis*_stream`: algorithm, length, nonce, key. -/
  aegisStream : ℤ → ℕ → Bytes → Bytes → Bytes
  /-- `aegis*_encrypt_unauthenticated`: algorithm, message, nonce, key. -/
  aegisEncryptNoTag : ℤ → Bytes → Bytes → Bytes → Bytes
  aegisDecryptNoTag : ℤ → Bytes → Bytes → Bytes → Bytes
  /-- The tag of a ciphertext: algorithm, ciphertext, nonce, key. -/
  aegisTag : ℤ → Bytes → Bytes → Bytes → Bytes
  /-- The Ascon hash of one string. -/
  asconHash : Bytes → Bytes
  /-- `ascon_pbkdf2`: password, salt, iteration count, output length. -/
  asconPbkdf2 : Bytes → Bytes → ℤ → ℕ → Bytes
  /-- The Ascon ciphertext: message, nonce, key. -/
  asconEncrypt : Bytes → Bytes → Bytes → Bytes
  asconDecrypt : Bytes → Bytes → Bytes → Bytes
  /-- The tag of an Ascon ciphertext: ciphertext, nonce, key. -/
  asconTag : Bytes → Bytes → Bytes → Bytes
  /-- The Argon2id hash: time cost, memory cost, lanes, password, salt, output length. -/
  argon2id : ℕ → ℕ → ℕ → Bytes → Bytes → ℕ → Bytes
  length_md5 : ∀ b, (md5 b).length = 16
  length_sha1 : ∀ b, (sha1 b).length = 20
  length_sha256 : ∀ b, (sha256 b).length = 32
  length_pbkdf2 : ∀ a p s c n, (pbkdf2 a p s c n).length = n
  length_hmac : ∀ a k m, (hmac a k m).length = a.size
  length_aesEncrypt : ∀ k b, b.length = 16 → (aesEncrypt k b).length = 16
  length_aesDecrypt : ∀ k b, b.length = 16 → (aesDecrypt k b).length = 16
  aesDecrypt_aesEncrypt : ∀ k b, b.length = 16 → aesDecrypt k (aesEncrypt k b) = b
  length_chacha20Stream : ∀ k v c n, (chacha20Stream k v c n).length = n
  length_poly1305 : ∀ m k, (poly1305 m k).length = 16
  length_aegisStream : ∀ a n v k, (aegisStream a n v k).length = n
  length_aegisEncryptNoTag : ∀ a m v k, (aegisEncryptNoTag a m v k).length = m.length
  length_aegisDecryptNoTag : ∀ a c v k, (aegisDecryptNoTag a c v k).length = c.length
  aegisDecryptNoTag_aegisEncryptNoTag :
    ∀ a m v k, aegisDecryptNoTag a (aegisEncryptNoTag a m v k) v k = m
  length_aegisTag : ∀ a c v k, (aegisTag a c v k).length = 32
  length_asconHash : ∀ b, (asconHash b).length = 32
  length_asconPbkdf2 : ∀ p s c n, (asconPbkdf2 p s c n).length = n
  length_asconEncrypt : ∀ m v k, (asconEncrypt m v k).length = m.length
  length_asconDecrypt : ∀ c v k, (asconDecrypt c v k).length = c.length
  asconDecrypt_asconEncrypt : ∀ m v k, asconDecrypt (asconEncrypt m v k) v k = m
  length_asconTag : ∀ c v k, (asconTag c v k).length = 16
  length_argon2id : ∀ t m l p s n, (argon2id t m l p s n).length = n

attribute [simp] Primitives.length_md5 Primitives.length_sha1 Primitives.length_sha256
  Primitives.length_pbkdf2 Primitives.length_hmac Primitives.length_chacha20Stream
  Primitives.length_poly1305 Primitives.length_aegisStream Primitives.length_aegisEncryptNoTag
  Primitives.length_aegisDecryptNoTag Primitives.length_aegisTag Primitives.length_asconHash
  Primitives.length_asconPbkdf2 Primitives.length_asconEncrypt Primitives.length_asconDecrypt
  Primitives.length_asconTag Primitives.length_argon2id

/-- Primitives that encrypt nothing and hash everything to zero. They are useless and lawful: the
laws of `Primitives` are consistent, and none of them is about security. -/
def nullPrimitives : Primitives where
  md5 := fun _ => Bytes.zeros 16
  sha1 := fun _ => Bytes.zeros 20
  sha256 := fun _ => Bytes.zeros 32
  pbkdf2 := fun _ _ _ _ n => Bytes.zeros n
  hmac := fun a _ _ => Bytes.zeros a.size
  aesEncrypt := fun _ b => b
  aesDecrypt := fun _ b => b
  chacha20Stream := fun _ _ _ n => Bytes.zeros n
  poly1305 := fun _ _ => Bytes.zeros 16
  aegisStream := fun _ n _ _ => Bytes.zeros n
  aegisEncryptNoTag := fun _ m _ _ => m
  aegisDecryptNoTag := fun _ c _ _ => c
  aegisTag := fun _ _ _ _ => Bytes.zeros 32
  asconHash := fun _ => Bytes.zeros 32
  asconPbkdf2 := fun _ _ _ n => Bytes.zeros n
  asconEncrypt := fun m _ _ => m
  asconDecrypt := fun c _ _ => c
  asconTag := fun _ _ _ => Bytes.zeros 16
  argon2id := fun _ _ _ _ _ n => Bytes.zeros n
  length_md5 := fun _ => Bytes.length_zeros _
  length_sha1 := fun _ => Bytes.length_zeros _
  length_sha256 := fun _ => Bytes.length_zeros _
  length_pbkdf2 := fun _ _ _ _ _ => Bytes.length_zeros _
  length_hmac := fun _ _ _ => Bytes.length_zeros _
  length_aesEncrypt := fun _ _ h => h
  length_aesDecrypt := fun _ _ h => h
  aesDecrypt_aesEncrypt := fun _ _ _ => rfl
  length_chacha20Stream := fun _ _ _ _ => Bytes.length_zeros _
  length_poly1305 := fun _ _ => Bytes.length_zeros _
  length_aegisStream := fun _ _ _ _ => Bytes.length_zeros _
  length_aegisEncryptNoTag := fun _ _ _ _ => rfl
  length_aegisDecryptNoTag := fun _ _ _ _ => rfl
  aegisDecryptNoTag_aegisEncryptNoTag := fun _ _ _ _ => rfl
  length_aegisTag := fun _ _ _ _ => Bytes.length_zeros _
  length_asconHash := fun _ => Bytes.length_zeros _
  length_asconPbkdf2 := fun _ _ _ _ => Bytes.length_zeros _
  length_asconEncrypt := fun _ _ _ => rfl
  length_asconDecrypt := fun _ _ _ => rfl
  asconDecrypt_asconEncrypt := fun _ _ _ => rfl
  length_asconTag := fun _ _ _ => Bytes.length_zeros _
  length_argon2id := fun _ _ _ _ _ _ => Bytes.length_zeros _

/-! ### RC4 -/

/-- The state of the RC4 generator: the table and its two indices. -/
structure RC4State where
  table : List UInt8
  a : ℕ
  b : ℕ

/-- `rc4[i]` and `rc4[j]` exchanged. -/
def swapAt (table : List UInt8) (i j : ℕ) : List UInt8 :=
  (table.set i (table.getD j 0)).set j (table.getD i 0)

/-- The key schedule, from index `i` on for `fuel` steps. -/
def rc4Schedule (key : Bytes) : ℕ → ℕ → ℕ → List UInt8 → List UInt8
  | 0, _, _, table => table
  | fuel + 1, i, j, table =>
    let j := (j + (table.getD i 0).toNat + (key.getD (i % key.length) 0).toNat) % 256
    rc4Schedule key fuel (i + 1) j (swapAt table i j)

/-- One step of the generator: the next byte of the key stream. -/
def RC4State.next (s : RC4State) : UInt8 × RC4State :=
  let a := (s.a + 1) % 256
  let b := (s.b + (s.table.getD a 0).toNat) % 256
  let table := swapAt s.table a b
  let k := table.getD (((table.getD a 0).toNat + (table.getD b 0).toNat) % 256) 0
  (k, ⟨table, a, b⟩)

/-- The bytes of the key stream, from a state on. -/
def RC4State.stream : ℕ → RC4State → Bytes
  | 0, _ => []
  | n + 1, s => s.next.1 :: RC4State.stream n s.next.2

/-- The key stream of a key. -/
def rc4Stream (key : Bytes) (n : ℕ) : Bytes :=
  RC4State.stream n ⟨rc4Schedule key 256 0 0 ((List.range 256).map UInt8.ofNat), 0, 0⟩

/-- `sqlite3mcRC4`. -/
def sqlite3mcRC4 (key text : Bytes) : Bytes := Bytes.xorBytes text (rc4Stream key text.length)

theorem RC4State.length_stream (n : ℕ) (s : RC4State) : (RC4State.stream n s).length = n := by
  induction n generalizing s with
  | zero => rfl
  | succ n ih => simp [RC4State.stream, ih]

@[simp] theorem length_rc4Stream (key : Bytes) (n : ℕ) : (rc4Stream key n).length = n :=
  RC4State.length_stream n _

@[simp] theorem length_sqlite3mcRC4 (key text : Bytes) :
    (sqlite3mcRC4 key text).length = text.length := by
  simp [sqlite3mcRC4]

/-- RC4 is its own inverse. -/
theorem sqlite3mcRC4_sqlite3mcRC4 (key text : Bytes) :
    sqlite3mcRC4 key (sqlite3mcRC4 key text) = text := by
  rw [sqlite3mcRC4, length_sqlite3mcRC4, sqlite3mcRC4]
  exact Bytes.xorBytes_xorBytes_cancel (by simp)

/-! ### The key schedule on one number -/

theorem length_swapAt (table : List UInt8) (i j : ℕ) :
    (swapAt table i j).length = table.length := by
  simp [swapAt]

theorem length_rc4Schedule (key : Bytes) (fuel i j : ℕ) (table : List UInt8) :
    (rc4Schedule key fuel i j table).length = table.length := by
  induction fuel generalizing i j table with
  | zero => rfl
  | succ fuel ih => rw [rc4Schedule, ih, length_swapAt]

/-- A table as one number: its bytes are the digits to base 256, the first byte the lowest. -/
def packed (table : List UInt8) : ℕ := Nat.ofDigits 256 (table.map (·.toNat))

theorem packed_cons (x : UInt8) (table : List UInt8) :
    packed (x :: table) = x.toNat + 256 * packed table := by
  simp [packed, Nat.ofDigits_cons]

theorem packed_digit (table : List UInt8) (i : ℕ) :
    packed table / 256 ^ i % 256 = (table.getD i 0).toNat := by
  induction table generalizing i with
  | nil => simp [packed]
  | cons x table ih =>
    rw [packed_cons]
    have hx := x.toNat_lt
    cases i with
    | zero => simp
    | succ i =>
      rw [pow_succ', ← Nat.div_div_eq_div_mul, show (x.toNat + 256 * packed table) / 256 =
        packed table by omega, ih]
      rfl

theorem packed_set (table : List UInt8) {i : ℕ} (hi : i < table.length) (v : UInt8) :
    packed (table.set i v) + (table.getD i 0).toNat * 256 ^ i =
      packed table + v.toNat * 256 ^ i := by
  induction table generalizing i with
  | nil => cases hi
  | cons x table ih =>
    cases i with
    | zero => simp [packed_cons]; omega
    | succ i =>
      have h := ih (Nat.lt_of_succ_lt_succ hi)
      simp only [List.set_cons_succ, packed_cons, List.getD_cons_succ, pow_succ]
      linarith

/-- `swapAt` on the number. -/
def swapDigits (n i j : ℕ) : ℕ :=
  n + n / 256 ^ j % 256 * 256 ^ i + n / 256 ^ i % 256 * 256 ^ j -
    (n / 256 ^ i % 256 * 256 ^ i + n / 256 ^ j % 256 * 256 ^ j)

theorem packed_swapAt (table : List UInt8) {i j : ℕ} (hi : i < table.length)
    (hj : j < table.length) : packed (swapAt table i j) = swapDigits (packed table) i j := by
  have hset := packed_set table hi (table.getD j 0)
  have hset' := packed_set (table.set i (table.getD j 0)) (i := j) (by simpa using hj)
    (table.getD i 0)
  have hsame : (table.set i (table.getD j 0)).getD j 0 = table.getD j 0 := by
    rcases eq_or_ne i j with rfl | hne
    · simp [hi]
    · simp [List.getElem?_set_ne hne]
  rw [hsame] at hset'
  simp only [swapDigits, packed_digit]
  exact Nat.eq_sub_of_add_eq (by rw [swapAt]; omega)

/-- `rc4Schedule` on the number. -/
def packedSchedule (key : Bytes) : ℕ → ℕ → ℕ → ℕ → ℕ
  | 0, _, _, n => n
  | fuel + 1, i, j, n =>
    let j := (j + n / 256 ^ i % 256 + (key.getD (i % key.length) 0).toNat) % 256
    packedSchedule key fuel (i + 1) j (swapDigits n i j)

theorem packed_rc4Schedule (key : Bytes) {fuel i : ℕ} (j : ℕ) {table : List UInt8}
    (hlen : table.length = 256) (hi : i + fuel ≤ 256) :
    packed (rc4Schedule key fuel i j table) = packedSchedule key fuel i j (packed table) := by
  induction fuel generalizing i j table with
  | zero => rfl
  | succ fuel ih =>
    rw [rc4Schedule, packedSchedule, ih _ (by rw [length_swapAt, hlen]) (by omega),
      packed_swapAt _ (by omega) (by omega), packed_digit]

/-- The state of the generator at the start of a key stream. -/
def rc4Table (key : Bytes) : List UInt8 :=
  rc4Schedule key 256 0 0 ((List.range 256).map UInt8.ofNat)

/-- The first byte of the key stream. -/
def packedFirst (n : ℕ) : ℕ :=
  let b := n / 256 ^ 1 % 256
  let n := swapDigits n 1 b
  n / 256 ^ ((n / 256 ^ 1 % 256 + n / 256 ^ b % 256) % 256) % 256

theorem rc4Stream_first (key : Bytes) (n : ℕ) :
    ((rc4Stream key (n + 1)).map (·.toNat))[0]? =
      some (packedFirst (packedSchedule key 256 0 0
        (packed ((List.range 256).map UInt8.ofNat)))) := by
  have hlen : (rc4Table key).length = 256 := by rw [rc4Table, length_rc4Schedule]; simp
  have hb : ((rc4Table key).getD 1 0).toNat < 256 := UInt8.toNat_lt _
  rw [← packed_rc4Schedule key 0 (by simp) (by omega), ← rc4Table]
  simp only [packedFirst]
  rw [packed_digit, ← packed_swapAt _ (by omega) (by omega)]
  simp only [packed_digit]
  rw [rc4Stream, RC4State.stream, ← rc4Table]
  simp [RC4State.next]

/-- The first byte of the key stream of a key of zeros. -/
theorem rc4Stream_zeros (n : ℕ) : (rc4Stream (Bytes.zeros 16) (n + 1))[0]? = some 0xde := by
  have hfirst := rc4Stream_first (Bytes.zeros 16) n
  rw [show packedFirst (packedSchedule (Bytes.zeros 16) 256 0 0
    (packed ((List.range 256).map UInt8.ofNat))) = 0xde by decide +kernel] at hfirst
  obtain ⟨x, hx, htoNat⟩ : ∃ x, (rc4Stream (Bytes.zeros 16) (n + 1))[0]? = some x ∧
      x.toNat = 0xde := by
    simpa using hfirst
  rw [hx, ← UInt8.ofNat_toNat (x := x), htoNat]
  rfl

theorem sqlite3mcRC4_zeros_first {text : Bytes} {x : UInt8} (h : text[0]? = some x) :
    (sqlite3mcRC4 (Bytes.zeros 16) text)[0]? = some (x ^^^ 0xde) := by
  cases text with
  | nil => cases h
  | cons y text =>
    obtain rfl : y = x := by simpa using h
    have hfirst := rc4Stream_zeros text.length
    have hlen : (y :: text).length = text.length + 1 := rfl
    rw [sqlite3mcRC4, hlen]
    cases hs : rc4Stream (Bytes.zeros 16) (text.length + 1) with
    | nil => simp [hs] at hfirst
    | cons k stream =>
      obtain rfl : k = 0xde := by simpa [hs] using hfirst
      rfl

/-! ### Initial vectors -/

/-- `MODMULT(52774, 40692, 3791, 2147483399, s)`. -/
def modmult (s : ℤ) : ℤ :=
  let q := s.tdiv 52774
  let s := 40692 * (s - 52774 * q) - 3791 * q
  if s < 0 then s + 2147483399 else s

/-- The low four bytes of an `int`, least significant first. -/
def intBytesLE (z : ℤ) : Bytes :=
  (List.range 4).map fun k => UInt8.ofNat ((z / 2 ^ (8 * k)) % 256).toNat

/-- The `n` values of the generator that follow `z`, four bytes each. -/
def initKey : ℕ → ℤ → Bytes
  | 0, _ => []
  | n + 1, z => intBytesLE (modmult z) ++ initKey n (modmult z)

/-- A page number passed as `int`. -/
def intOfPgno (page : ℕ) : ℤ := if page < 2 ^ 31 then page else (page : ℤ) - 2 ^ 32

/-- `sqlite3mcGenerateInitialVector`. -/
def sqlite3mcGenerateInitialVector (P : Primitives) (page : ℕ) : Bytes :=
  P.md5 (initKey 4 (intOfPgno page + 1))

@[simp] theorem length_sqlite3mcGenerateInitialVector (P : Primitives) (page : ℕ) :
    (sqlite3mcGenerateInitialVector P page).length = 16 := by
  simp [sqlite3mcGenerateInitialVector]

end MultipleCiphers
