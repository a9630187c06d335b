import MultipleCiphers.Ciphers.RoundTrip

/-!
# The writer's key and the opener's key

A salted cipher derives its keys from the passphrase and a salt of sixteen bytes, which it stores
at the start of page 1 where the file header would be. Whoever opens the database later finds the
salt there and derives the keys again. For that to work, the salt that was used must be the one
that is stored, wherever it came from: drawn at random, taken from a raw key that carries its own,
or kept from the file.

For three of the four salted ciphers the two derivations are the same computation. AEGIS derives
its key with Argon2id, which may run out of memory, and that is not noticed: the key of such a
derivation is zero. Then writer and opener agree only if both or neither of them got what Argon2id
needs.

## Main definitions

* `Cipher.storesSalt`, `Cipher.saltBytes`, `Cipher.pageKeys`.
* `KeyWay` — the ways a key is set: for a new database, by a rekey, by a rekey in WAL mode.
* `SameKeys` — writer and opener have the same keys.

## Main results

* `sameKeys_iff` — exactly when they do.
* `sameKeys_lost` — an AEGIS database keyed with too little memory.
-/

namespace MultipleCiphers

open Bytes

/-! ### Salts and keys of a cipher -/

/-- The ciphers that store their salt in the file: those with a salt and without a plaintext
header. -/
def Cipher.storesSalt : Cipher → Prop
  | .aes128 _ | .aes256 _ | .rc4 _ => False
  | .chacha20 c => c.plaintextHeaderSize ≤ 0
  | .sqlcipher c => c.plaintextHeaderSize ≤ 0
  | .ascon128 c => c.plaintextHeaderSize ≤ 0
  | .aegis c => c.plaintextHeaderSize ≤ 0

/-- The salt of a cipher, empty if it has none. -/
def Cipher.saltBytes : Cipher → Bytes
  | .aes128 _ | .aes256 _ | .rc4 _ => []
  | .chacha20 c => c.salt
  | .sqlcipher c => c.salt
  | .ascon128 c => c.salt
  | .aegis c => c.salt

/-- The page key of a cipher and its HMAC key, empty if it has none. -/
def Cipher.pageKeys : Cipher → Bytes × Bytes
  | .aes128 c => (c.key, [])
  | .aes256 c => (c.key, [])
  | .rc4 c => (c.key, [])
  | .chacha20 c => (c.key, [])
  | .sqlcipher c => (c.key, c.hmacKey)
  | .ascon128 c => (c.key, [])
  | .aegis c => (c.key, [])

/-! ### The ways to set a key -/

/-- The first sixteen bytes of a database file. -/
abbrev FileHeader := { header : Bytes // header.length = 16 }

/-- How a key is set. A rekey reads the header of the file if there is one. -/
inductive KeyWay where
  /-- For a new database, whose file has no header yet. -/
  | newDatabase
  /-- By a rekey of a database with a rollback journal. -/
  | rekey (dbHeader : Option FileHeader)
  /-- By a rekey of a database in WAL mode. -/
  | rekeyWal (dbHeader : FileHeader)

namespace KeyWay

/-- The argument `rekey` of the key generation. -/
def rekeyArgument : KeyWay → ℕ
  | newDatabase => 0
  | rekey _ => 1
  | rekeyWal _ => 2

/-- The salt that is handed to the key generation. -/
def cipherSalt : KeyWay → Option Bytes
  | newDatabase => none
  | rekey dbHeader => dbHeader.map Subtype.val
  | rekeyWal dbHeader => some dbHeader.val

/-- The salt for a passphrase: kept in WAL mode, drawn otherwise. -/
def salt (env : Env) : KeyWay → Bytes
  | newDatabase | rekey _ => (env.chacha20Rng 16).1
  | rekeyWal dbHeader => dbHeader.val

end KeyWay

section Operations

variable (P : Primitives) (cipherType : ℕ) (c₀ : Cipher) (password : Bytes)

/-- The cipher `c₀`, as it was allocated, with the keys of the writer. -/
def writtenCipher (way : KeyWay) (env : Env) : Cipher :=
  match way with
  | .newDatabase =>
    (sqlite3mcGenerateReadKey (builtinDescriptors P) cipherType c₀ password none none env).1
  | .rekey dbHeader =>
    (sqlite3mcGenerateWriteKey (builtinDescriptors P) cipherType c₀ password none
      (dbHeader.map Subtype.val) false env).1
  | .rekeyWal dbHeader =>
    (sqlite3mcGenerateWriteKey (builtinDescriptors P) cipherType c₀ password none
      (some dbHeader.val) true env).1

/-- The cipher `c₀` with the keys of an opener who finds `header` in the file. -/
def openedCipher (header : Bytes) (env : Env) : Cipher :=
  (sqlite3mcGenerateReadKey (builtinDescriptors P) cipherType c₀ password none (some header) env).1

/-- Writer and opener have the same keys. -/
structure SameKeys (way : KeyWay) (envWrite envOpen : Env) : Prop where
  /-- Page 1 starts with the salt of the writer. -/
  stored : ∀ (data : Bytes) (reserved : ℤ) (env : Env), 512 ≤ data.length →
    (writtenCipher P cipherType c₀ password way envWrite).fits reserved = true →
      ((builtinDescriptors P cipherType).encryptPage
        (writtenCipher P cipherType c₀ password way envWrite) 1 data reserved env).2.1.take 16 =
          (writtenCipher P cipherType c₀ password way envWrite).saltBytes
  /-- From it, the opener derives the keys of the writer. -/
  reopened : (openedCipher P cipherType c₀ password
    (writtenCipher P cipherType c₀ password way envWrite).saltBytes envOpen).pageKeys =
      (writtenCipher P cipherType c₀ password way envWrite).pageKeys
  /-- In WAL mode the salt is that of the file. -/
  kept : ∀ header, way = .rekeyWal header →
    (writtenCipher P cipherType c₀ password way envWrite).saltBytes = header.val

end Operations

/-! ### What page 1 starts with -/

section Stored

variable {P : Primitives}

/-- Without a plaintext header, page 1 starts with the salt once it is stored. -/
theorem take_storeSalt {plaintextHeaderSize : ℤ} (hplain : plaintextHeaderSize ≤ 0)
    {salt data : Bytes} (hsalt : salt.length = 16) (hlen : 16 ≤ data.length) :
    (storeSalt 1 plaintextHeaderSize salt data).take 16 = salt := by
  have hheader : usesPlaintextHeader 1 plaintextHeaderSize = false := by
    simp only [usesPlaintextHeader, decide_eq_false_iff_not]
    omega
  rw [storeSalt, if_pos ⟨rfl, hheader⟩]
  have hself : slice (splice data 0 salt) 0 salt.length = salt := slice_splice_self (by omega)
  rwa [hsalt, slice, List.drop_zero] at hself

/-- What is written behind the first sixteen bytes leaves them alone. -/
theorem take_splice {data : Bytes} (piece : Bytes) {off : ℕ} (hoff : 16 ≤ off)
    (hlen : 16 ≤ data.length) : (splice data off piece).take 16 = data.take 16 := by
  rw [splice, List.append_assoc, List.take_append_of_le_length (by rw [List.length_take]; omega),
    List.take_take, min_eq_left hoff]

/-- It leaves the page with at least sixteen bytes. -/
theorem le_length_splice {data : Bytes} (piece : Bytes) {off : ℕ} (hoff : 16 ≤ off)
    (hlen : 16 ≤ data.length) : 16 ≤ (splice data off piece).length := by
  rw [splice, List.append_assoc, List.length_append, List.length_take]
  omega

theorem encryptPageChaCha20Cipher_salt {c : ChaCha20Cipher}
    (hwf : saltedWellFormed c.salt c.plaintextHeaderSize) (hplain : c.plaintextHeaderSize ≤ 0)
    {data : Bytes} {reserved : ℤ} (hlen : 512 ≤ data.length)
    (hfits : chacha20Fits c reserved = true) (env : Env) :
    (encryptPageChaCha20Cipher P c 1 data reserved env).2.1.take 16 = c.salt := by
  have hoff : chacha20Offset c 1 ≤ 100 := chacha20Offset_le hwf.2
  by_cases hr : 0 < chacha20NReserved c.legacy reserved
  · have hpos : (0 : ℕ) < 32 := by omega
    have hr32 : chacha20NReserved c.legacy reserved = 32 := by
      by_cases h0 : reserved = 0 ∧ c.legacy = 0
      · simp [chacha20NReserved, h0] at hr
      · simp [chacha20NReserved, h0, pageReservedChaCha20]
    obtain ⟨nonce, env', hrng, hnonce⟩ := chacha20Rng_eq env 16
    have hl : (splice data (data.length - 32) nonce).length = data.length :=
      length_splice (by omega)
    have hx : (chacha20XorPage P c.key nonce 1 (chacha20Offset c 1) (data.length - 32)
        (splice data (data.length - 32) nonce)).length = data.length := by
      rw [length_chacha20XorPage (by omega) (by omega), hl]
    simp only [encryptPageChaCha20Cipher, hfits, if_true, hr32, hrng, gt_iff_lt, hpos]
    rw [take_splice _ (by omega) (by rw [length_storeSalt hwf.1 (by omega)]; omega)]
    exact take_storeSalt hplain hwf.1 (by omega)
  · have hr0 : chacha20NReserved c.legacy reserved = 0 := by omega
    have hx : (chacha20XorPage P c.key (sqlite3mcGenerateInitialVector P 1) 1 (chacha20Offset c 1)
        data.length data).length = data.length := length_chacha20XorPage (by omega) le_rfl
    simp only [encryptPageChaCha20Cipher, hfits, if_true, hr0, gt_iff_lt, lt_self_iff_false,
      if_false, Nat.sub_zero]
    exact take_storeSalt hplain hwf.1 (by omega)

theorem encryptPageSQLCipherCipher_salt {c : SQLCipherCipher}
    (hwf : saltedWellFormed c.salt c.plaintextHeaderSize) (hplain : c.plaintextHeaderSize ≤ 0)
    {data : Bytes} {reserved : ℤ} (hlen : 512 ≤ data.length)
    (hfits : sqlCipherFits c reserved = true) (env : Env) :
    (encryptPageSQLCipherCipher P c 1 data reserved env).2.1.take 16 = c.salt := by
  have hoff : 16 ≤ sqlCipherOffset c 1 := le_sqlCipherOffset rfl
  have hr : sqlCipherNReserved c reserved ≤ 80 := by
    refine le_trans ?_ (getReservedSQLCipherCipher_le c)
    by_cases h0 : reserved = 0 ∧ c.legacy = 0 <;> simp [sqlCipherNReserved, h0]
  simp only [encryptPageSQLCipherCipher, hfits, if_true]
  generalize (if sqlCipherNReserved c reserved > 0 then env.chacha20Rng 128
    else (sqlite3mcGenerateInitialVector P 1, env)) = drawn
  -- the page with the ciphertext and the nonce, up to the salt
  obtain ⟨d₁, hd₁⟩ : ∃ d, d = splice data (sqlCipherOffset c 1) (rijndaelEncrypt P c.key
    (drawn.1.take 16) (slice data (sqlCipherOffset c 1)
      (data.length - sqlCipherNReserved c reserved - sqlCipherOffset c 1))) := ⟨_, rfl⟩
  have hl₁ : 16 ≤ d₁.length := hd₁ ▸ le_length_splice _ hoff (by omega)
  obtain ⟨d₂, hd₂⟩ : ∃ d, d = (if sqlCipherNReserved c reserved > 0 then
      splice d₁ (data.length - sqlCipherNReserved c reserved)
        (drawn.1.take (sqlCipherNReserved c reserved)) else d₁) := ⟨_, rfl⟩
  have hl₂ : 16 ≤ d₂.length := by
    by_cases h : sqlCipherNReserved c reserved > 0
    · rw [hd₂, if_pos h]
      exact le_length_splice _ (by omega) hl₁
    · rwa [hd₂, if_neg h]
  have hsalt := take_storeSalt hplain hwf.1 hl₂
  rw [← hd₁, ← hd₂]
  by_cases htag : c.hmacUse = 1 ∧ sqlCipherNReserved c reserved > 0
  · rw [if_pos htag, take_splice _ (by omega) (by rwa [length_storeSalt hwf.1 hl₂]), hsalt]
  · rw [if_neg htag, hsalt]

theorem encryptPageAscon128Cipher_salt {c : Ascon128Cipher}
    (hwf : saltedWellFormed c.salt c.plaintextHeaderSize) (hplain : c.plaintextHeaderSize ≤ 0)
    {data : Bytes} {reserved : ℤ} (hlen : 512 ≤ data.length)
    (hfits : aeadFits pageReservedAscon128 reserved = true) (env : Env) :
    (encryptPageAscon128Cipher P c 1 data reserved env).2.1.take 16 = c.salt := by
  have hoff : 16 ≤ aeadOffset c.plaintextHeaderSize 1 := le_aeadOffset rfl
  by_cases hr : 0 < aeadNReserved pageReservedAscon128 reserved
  · have hr32 : aeadNReserved pageReservedAscon128 reserved = 32 := aeadNReserved_of_pos hr
    simp only [encryptPageAscon128Cipher, hfits, if_true, gt_iff_lt, hr]
    refine take_storeSalt hplain hwf.1 ?_
    refine le_length_splice _ (by omega) (le_length_splice _ hoff (le_length_splice _ ?_ ?_)) <;>
      omega
  · simp only [encryptPageAscon128Cipher, hfits, if_true, gt_iff_lt, hr, if_false]
    exact take_storeSalt hplain hwf.1 (le_length_splice _ hoff (by omega))

theorem encryptPageAegisCipher_salt {c : AegisCipher}
    (hwf : saltedWellFormed c.salt c.plaintextHeaderSize) (hnonce : c.nonceLength ≤ 32)
    (hplain : c.plaintextHeaderSize ≤ 0) {data : Bytes} {reserved : ℤ} (hlen : 512 ≤ data.length)
    (hfits : aeadFits (getReservedAegisCipher c) reserved = true) (env : Env) :
    (encryptPageAegisCipher P c 1 data reserved env).2.1.take 16 = c.salt := by
  have hoff : 16 ≤ aeadOffset c.plaintextHeaderSize 1 := le_aeadOffset rfl
  by_cases hr : 0 < aeadNReserved (getReservedAegisCipher c) reserved
  · have hrr : aeadNReserved (getReservedAegisCipher c) reserved = c.nonceLength + 32 :=
      aeadNReserved_of_pos hr
    simp only [encryptPageAegisCipher, hfits, if_true, gt_iff_lt, hr]
    refine take_storeSalt hplain hwf.1 ?_
    refine le_length_splice _ (by omega) (le_length_splice _ hoff (le_length_splice _ ?_ ?_)) <;>
      omega
  · simp only [encryptPageAegisCipher, hfits, if_true, gt_iff_lt, hr, if_false]
    exact take_storeSalt hplain hwf.1 (le_length_splice _ hoff (by omega))

/-- **Page 1 starts with the salt.** -/
theorem encryptPage_salt {cipher : Cipher} (hwf : cipher.WellFormed) (hstores : cipher.storesSalt)
    {data : Bytes} {reserved : ℤ} (hlen : 512 ≤ data.length)
    (hfits : cipher.fits reserved = true) (t : ℕ) (env : Env) :
    ((builtinDescriptors P t).encryptPage cipher 1 data reserved env).2.1.take 16 =
      cipher.saltBytes := by
  cases cipher with
  | aes128 c => exact hstores.elim
  | aes256 c => exact hstores.elim
  | rc4 c => exact hstores.elim
  | chacha20 c => exact encryptPageChaCha20Cipher_salt hwf hstores hlen hfits env
  | sqlcipher c => exact encryptPageSQLCipherCipher_salt hwf hstores hlen hfits env
  | ascon128 c => exact encryptPageAscon128Cipher_salt hwf hstores hlen hfits env
  | aegis c => exact encryptPageAegisCipher_salt hwf.1 hwf.2 hstores hlen hfits env

end Stored

/-! ### The two key generations -/

section Derivation

variable {P : Primitives}

/-- A password is a passphrase or a raw key, whether or not its salt is wanted. A salt that is not
wanted is not delivered. -/
theorem sqlite3mcExtractRawKey_cases (password : Bytes) (keyLength saltLength : ℕ) :
    (∀ keyOnly, sqlite3mcExtractRawKey password keyOnly keyLength saltLength = none) ∨
      ∃ (key : Bytes) (rawSalt : Bool → Option Bytes),
        (∀ keyOnly, sqlite3mcExtractRawKey password keyOnly keyLength saltLength =
          some (key, rawSalt keyOnly)) ∧ rawSalt true = none := by
  have hkeyOnly : ∀ keyOnly, sqlite3mcExtractRawKey password true keyLength saltLength =
      (sqlite3mcExtractRawKey password keyOnly keyLength saltLength).map fun r => (r.1, none) := by
    intro keyOnly
    simp only [sqlite3mcExtractRawKey]
    split_ifs <;> rfl
  rcases htrue : sqlite3mcExtractRawKey password true keyLength saltLength with _ | ⟨key, rawSalt⟩
  · exact Or.inl fun keyOnly => Option.map_eq_none_iff.mp ((hkeyOnly keyOnly).symm.trans htrue)
  · right
    have hnone : rawSalt = none := by simpa [htrue] using hkeyOnly true
    have hfalse := hkeyOnly false
    rw [htrue, hnone, eq_comm, Option.map_eq_some_iff] at hfalse
    obtain ⟨⟨key', salt'⟩, heq, hkey⟩ := hfalse
    obtain rfl : key' = key := congrArg Prod.fst hkey
    refine ⟨key', fun keyOnly => if keyOnly then none else salt', fun keyOnly => ?_, rfl⟩
    cases keyOnly with
    | true =>
      rw [htrue, hnone]
      rfl
    | false => exact heq

/-- Key and salt of a salted cipher: the key is derived with the salt that is kept. -/
theorem saltedKey_key (plaintextHeaderSize : ℤ) (kdf : Bytes → Bytes) (password : Bytes)
    (rekey : ℕ) (cipherSalt : Option Bytes) (env : Env) :
    let r := saltedKey plaintextHeaderSize 32 16 kdf password rekey cipherSalt env
    r.1 = ((sqlite3mcExtractRawKey password false 32 16).map Prod.fst).getD (kdf r.2.1) := by
  dsimp only
  rcases sqlite3mcExtractRawKey_cases password 32 16 with hnone | ⟨key, rawSalt, hraw, -⟩
  · simp only [saltedKey, hnone, Option.map_none, Option.getD_none]
  · simp only [saltedKey, hraw, Option.map_some, Option.getD_some]

theorem KeyWay.length_salt (way : KeyWay) (env : Env) : (way.salt env).length = 16 := by
  cases way with
  | newDatabase => exact Env.length_chacha20Rng env 16
  | rekey dbHeader => exact Env.length_chacha20Rng env 16
  | rekeyWal dbHeader => exact dbHeader.property

theorem KeyWay.length_cipherSalt (way : KeyWay) {salt : Bytes} (h : way.cipherSalt = some salt) :
    salt.length = 16 := by
  cases way with
  | newDatabase => cases h
  | rekey dbHeader =>
    obtain ⟨header, -, rfl⟩ := Option.map_eq_some_iff.mp h
    exact header.property
  | rekeyWal dbHeader =>
    obtain rfl := Option.some.inj h
    exact dbHeader.property

/-- The salt of a key generation for a writer. In WAL mode it is that of the file, and that of a
raw key is not wanted. -/
theorem KeyWay.saltForKey_eq (way : KeyWay) {plaintextHeaderSize : ℤ}
    (hplain : plaintextHeaderSize ≤ 0) (env : Env) :
    ∃ keyOnly env', saltForKey plaintextHeaderSize 16 way.rekeyArgument way.cipherSalt env =
        (keyOnly, way.salt env, env') ∧
      env'.argon2 = env.argon2 ∧ ∀ header, way = .rekeyWal header → keyOnly = true := by
  cases way with
  | newDatabase => exact ⟨_, _, rfl, rfl, fun _ h => by cases h⟩
  | rekey dbHeader => exact ⟨_, _, saltForKey_rekey _ env, rfl, fun _ h => by cases h⟩
  | rekeyWal dbHeader =>
    refine ⟨true, env, ?_, rfl, fun _ _ => rfl⟩
    simp only [rekeyArgument, cipherSalt, saltForKey_rekeyWal, salt]
    rw [saltForKey_given env dbHeader.property, decide_eq_false (by omega), Bool.not_false]

/-- The salt of a key generation for an opener: what is in the file, the key of a raw key alone. -/
theorem saltForKey_stored {plaintextHeaderSize : ℤ} (hplain : plaintextHeaderSize ≤ 0)
    {stored : Bytes} (hlen : stored.length = 16) (env : Env) :
    saltForKey plaintextHeaderSize 16 0 (some stored) env = (true, stored, env) := by
  rw [saltForKey_given env hlen, decide_eq_false (by omega), Bool.not_false]

/-- **Key and salt of a writer and of an opener are the same** where the key derivation cannot
fail. In WAL mode the salt stays what it was. -/
theorem saltedKey_reopened {plaintextHeaderSize : ℤ} (hplain : plaintextHeaderSize ≤ 0)
    (keyLength : ℕ) (kdf : Bytes → Bytes) (password : Bytes) (way : KeyWay)
    (envWrite envOpen : Env) :
    let written := saltedKey plaintextHeaderSize keyLength 16 kdf password way.rekeyArgument
      way.cipherSalt envWrite
    let opened := saltedKey plaintextHeaderSize keyLength 16 kdf password 0 (some written.2.1)
      envOpen
    opened.1 = written.1 ∧ opened.2.1 = written.2.1 ∧
      ∀ header, way = .rekeyWal header → written.2.1 = header.val := by
  intro written opened
  have hlen : written.2.1.length = 16 :=
    length_saltedKey plaintextHeaderSize keyLength way.rekeyArgument kdf
      fun s hs => (way.length_cipherSalt hs).ge
  obtain ⟨keyOnly, env', hsalt, -, hkeep⟩ := way.saltForKey_eq hplain envWrite
  have hstored := saltForKey_stored hplain hlen envOpen
  rcases sqlite3mcExtractRawKey_cases password keyLength 16 with hraw | ⟨key, rawSalt, hraw, hnone⟩
  · have hwritten : written = (kdf (way.salt envWrite), way.salt envWrite, env') := by
      simp only [written, saltedKey, hsalt, hraw]
    have hopened : opened = (kdf written.2.1, written.2.1, envOpen) := by
      simp only [opened, saltedKey, hstored, hraw]
    rw [hopened, hwritten]
    exact ⟨rfl, rfl, fun header h => by rw [h]; rfl⟩
  · have hwritten : written = (key, (rawSalt keyOnly).getD (way.salt envWrite), env') := by
      simp only [written, saltedKey, hsalt, hraw]
    have hopened : opened = (key, written.2.1, envOpen) := by
      simp only [opened, saltedKey, hstored, hraw, hnone, Option.getD_none]
    rw [hopened, hwritten]
    exact ⟨rfl, rfl, fun header h => by rw [hkeep header h, hnone, h]; rfl⟩

/-! ### AEGIS -/

/-- Argon2id delivers the hash if its checks pass and it has its resources, and nothing
otherwise. -/
theorem argon2idHashRaw_result {t m p hashLen : ℕ} {pwd salt : Bytes} (hpwd : pwd.length < 2 ^ 31)
    (hsalt : salt.length = 16) (hhash : hashLen = 16 ∨ hashLen = 32) (env : Env) :
    (argon2idHashRaw P t m p pwd salt hashLen env).2.1 =
      if argon2ValidateInputs t m p pwd.length 16 hashLen = .ok ∧ env.argon2 0 = .enough then
        some (P.argon2id t m p pwd salt hashLen)
      else none := by
  have hok :=
    argon2idHashRaw_code_eq_ok_iff (P := P) (t := t) (m := m) (p := p) hpwd hsalt hhash env
  by_cases hcode : (argon2idHashRaw P t m p pwd salt hashLen env).1 = .ok
  · rw [argon2idHashRaw_hash hcode, if_pos (hok.mp hcode)]
  · rw [if_neg fun h => hcode (hok.mpr h)]
    simp only [argon2idHashRaw] at hcode ⊢
    split_ifs at hcode ⊢
    any_goals rfl
    split at hcode
    · split at hcode
      · exact absurd rfl hcode
      · rfl
      · rfl
    · rfl

/-- Writer and opener derive the same key with AEGIS: the password is a raw key, or Argon2id
refuses the parameters in any case, or it has its resources for both or for neither, or the hash
happens to be the key the cipher was allocated with. -/
def AegisCipher.sameDerivation (P : Primitives) (c : AegisCipher) (password : Bytes) (way : KeyWay)
    (envWrite envOpen : Env) : Prop :=
  sqlite3mcExtractRawKey password true c.keyLength 16 ≠ none ∨
    argon2ValidateInputs (uint32OfInt c.argon2Tcost) (uint32OfInt c.argon2Mcost)
      (uint32OfInt c.argon2Pcost) password.length 16 c.keyLength ≠ .ok ∨
    (envWrite.argon2 0 = .enough ↔ envOpen.argon2 0 = .enough) ∨
    P.argon2id (uint32OfInt c.argon2Tcost) (uint32OfInt c.argon2Mcost) (uint32OfInt c.argon2Pcost)
      password (way.salt envWrite) c.keyLength = c.key

/-- **When writer and opener have the same AEGIS key.** -/
theorem generateKeyAegisCipher_reopened {c : AegisCipher} (hplain : c.plaintextHeaderSize ≤ 0)
    (hkey : c.keyLength = 16 ∨ c.keyLength = 32) {password : Bytes}
    (hpwd : password.length < 2 ^ 31)
    (way : KeyWay) (envWrite envOpen : Env) :
    let written := (generateKeyAegisCipher P c password way.rekeyArgument way.cipherSalt envWrite).1
    let opened := (generateKeyAegisCipher P c password 0 (some written.salt) envOpen).1
    (opened.key = written.key ↔ c.sameDerivation P password way envWrite envOpen) ∧
      ∀ header, way = .rekeyWal header → written.salt = header.val := by
  intro written opened
  obtain ⟨keyOnly, env', hsalt, hargon, hkeep⟩ := way.saltForKey_eq hplain envWrite
  rcases sqlite3mcExtractRawKey_cases password c.keyLength 16
    with hraw | ⟨key, rawSalt, hraw, hnone⟩
  · have hwsalt : written.salt = way.salt envWrite := by
      simp only [written, generateKeyAegisCipher, hsalt, hraw]
    have hlen : written.salt.length = 16 := hwsalt ▸ way.length_salt envWrite
    have hwritten : written.key = (argon2idHashRaw P (uint32OfInt c.argon2Tcost)
        (uint32OfInt c.argon2Mcost) (uint32OfInt c.argon2Pcost) password (way.salt envWrite)
        c.keyLength env').2.1.getD c.key := by
      simp only [written, generateKeyAegisCipher, hsalt, hraw]
    have hopened : opened.key = (argon2idHashRaw P (uint32OfInt c.argon2Tcost)
        (uint32OfInt c.argon2Mcost) (uint32OfInt c.argon2Pcost) password written.salt
        c.keyLength envOpen).2.1.getD c.key := by
      simp only [opened, generateKeyAegisCipher, saltForKey_stored hplain hlen, hraw]
    refine ⟨?_, fun header h => by rw [hwsalt, h]; rfl⟩
    rw [hopened, hwritten, hwsalt, argon2idHashRaw_result hpwd (way.length_salt envWrite) hkey,
      argon2idHashRaw_result hpwd (way.length_salt envWrite) hkey, hargon,
      AegisCipher.sameDerivation, hraw]
    generalize P.argon2id _ _ _ _ _ _ = hash
    by_cases hvalid : argon2ValidateInputs (uint32OfInt c.argon2Tcost) (uint32OfInt c.argon2Mcost)
      (uint32OfInt c.argon2Pcost) password.length 16 c.keyLength = .ok
    · by_cases hw : envWrite.argon2 0 = .enough <;> by_cases ho : envOpen.argon2 0 = .enough <;>
        simp [hvalid, hw, ho, eq_comm]
    · simp [hvalid]
  · have hwritten : written = { c with
        key := key, salt := (rawSalt keyOnly).getD (way.salt envWrite) } := by
      simp only [written, generateKeyAegisCipher, hsalt, hraw]
    have hopened : opened.key = key := by
      simp only [opened, generateKeyAegisCipher, hraw]
    refine ⟨?_, fun header h => by rw [hwritten, hkeep header h, hnone, h]; rfl⟩
    rw [hopened, hwritten]
    exact iff_of_true rfl (Or.inl (by rw [hraw]; exact Option.some_ne_none _))

/-! ### Writer and opener -/

theorem writtenCipher_eq (t : ℕ) (c₀ : Cipher) (password : Bytes) (way : KeyWay) (env : Env) :
    writtenCipher P t c₀ password way env =
      (builtinGenerateKey P c₀ password way.rekeyArgument way.cipherSalt env).1 := by
  cases way <;> rfl

/-- Generating a key changes neither the type of a cipher nor its parameters. -/
theorem builtinGenerateKey_storesSalt (c₀ : Cipher) (password : Bytes) (rekey : ℕ)
    (cipherSalt : Option Bytes) (env : Env) :
    (builtinGenerateKey P c₀ password rekey cipherSalt env).1.storesSalt ↔ c₀.storesSalt := by
  cases c₀ with
  | aes128 c => exact Iff.refl False
  | aes256 c => exact Iff.refl False
  | chacha20 c =>
    have hheader :
        (generateKeyChaCha20Cipher P c password rekey cipherSalt env).1.plaintextHeaderSize =
        c.plaintextHeaderSize := rfl
    exact iff_of_eq (congrArg (· ≤ 0) hheader)
  | sqlcipher c =>
    have hheader :
        (generateKeySQLCipherCipher P c password rekey cipherSalt env).1.plaintextHeaderSize =
        c.plaintextHeaderSize := rfl
    exact iff_of_eq (congrArg (· ≤ 0) hheader)
  | rc4 c => exact Iff.refl False
  | ascon128 c =>
    have hheader :
        (generateKeyAscon128Cipher P c password rekey cipherSalt env).1.plaintextHeaderSize =
        c.plaintextHeaderSize := rfl
    exact iff_of_eq (congrArg (· ≤ 0) hheader)
  | aegis c =>
    have hheader :
        (generateKeyAegisCipher P c password rekey cipherSalt env).1.plaintextHeaderSize =
        c.plaintextHeaderSize := by
      simp only [generateKeyAegisCipher]
      split <;> rfl
    exact iff_of_eq (congrArg (· ≤ 0) hheader)

/-- What AEGIS takes to have the same keys; the other ciphers always have them. -/
def Cipher.sameDerivation (P : Primitives) (c₀ : Cipher) (password : Bytes) (way : KeyWay)
    (envWrite envOpen : Env) : Prop :=
  match c₀ with
  | .aegis c => c.sameDerivation P password way envWrite envOpen
  | _ => True

/-- The keys of the opener. -/
theorem pageKeys_reopened {c₀ : Cipher} (hstores : c₀.storesSalt)
    (hkey : ∀ c, c₀ = .aegis c → c.keyLength = 16 ∨ c.keyLength = 32) {password : Bytes}
    (hpwd : password.length < 2 ^ 31) (way : KeyWay) (envWrite envOpen : Env) :
    let written := (builtinGenerateKey P c₀ password way.rekeyArgument way.cipherSalt envWrite).1
    let opened := (builtinGenerateKey P c₀ password 0 (some written.saltBytes) envOpen).1
    (opened.pageKeys = written.pageKeys ↔ c₀.sameDerivation P password way envWrite envOpen) ∧
      ∀ header, way = .rekeyWal header → written.saltBytes = header.val := by
  cases c₀ with
  | aes128 c => exact hstores.elim
  | aes256 c => exact hstores.elim
  | rc4 c => exact hstores.elim
  | chacha20 c =>
    obtain ⟨hk, -, hkept⟩ := saltedKey_reopened hstores 32
      (fun salt => P.pbkdf2 .sha256 password salt c.kdfIter 32) password way envWrite envOpen
    exact ⟨iff_of_true (congrArg (·, ([] : Bytes)) hk) trivial, hkept⟩
  | sqlcipher c =>
    obtain ⟨hk, hs, hkept⟩ := saltedKey_reopened hstores 32
      (fun salt => P.pbkdf2 (.ofInt c.kdfAlgorithm) password salt c.kdfIter 32) password way
      envWrite envOpen
    refine ⟨iff_of_true ?_ trivial, hkept⟩
    simp only [builtinGenerateKey, generateKeySQLCipherCipher, Cipher.pageKeys, Cipher.saltBytes,
      Prod.map]
    rw [hk, hs]
  | ascon128 c =>
    obtain ⟨hk, -, hkept⟩ := saltedKey_reopened hstores 32
      (fun salt => P.asconPbkdf2 password salt c.kdfIter 32) password way envWrite envOpen
    exact ⟨iff_of_true (congrArg (·, ([] : Bytes)) hk) trivial, hkept⟩
  | aegis c =>
    obtain ⟨hk, hkept⟩ := generateKeyAegisCipher_reopened (P := P) hstores (hkey c rfl) hpwd way
      envWrite envOpen
    refine ⟨?_, hkept⟩
    rw [Cipher.sameDerivation, ← hk]
    simp only [builtinGenerateKey, Cipher.pageKeys, Cipher.saltBytes, Prod.map, Prod.mk.injEq,
      and_true]

/-- An AEGIS cipher is allocated with one of the two key lengths. -/
theorem keyLength_of_allocated {t : ℕ} {env : Env} {c : AegisCipher}
    (hal : (builtinAllocate t env).1 = some (.aegis c)) : c.keyLength = 16 ∨ c.keyLength = 32 := by
  have hwrap : ∀ {α : Type} (wrap : α → Cipher) (allocate : Env → Option α × Env),
      (wrapAllocate wrap allocate env).1 = some (.aegis c) →
        ∃ c', (allocate env).1 = some c' ∧ wrap c' = .aegis c :=
    fun wrap allocate hw => Option.map_eq_some_iff.mp hw
  match t, hal with
  | 1, hal | 2, hal | 3, hal | 4, hal | 5, hal | 6, hal =>
    obtain ⟨_, -, h⟩ := hwrap _ _ hal
    cases h
  | 7, hal =>
    obtain ⟨c', hc, h⟩ := hwrap _ _ hal
    obtain rfl := Cipher.aegis.inj h
    rw [allocateAegisCipher_cipher] at hc
    by_cases hm : env.malloc 0
    · rw [if_pos hm] at hc
      obtain rfl := Option.some.inj hc
      exact aegisKeyLength_cases env.aegisSettings.algorithm
    · rw [if_neg hm] at hc
      cases hc

/-- **When writer and opener have the same keys.** For every salted cipher as it is allocated, every
password, every way to set the key and all random bytes: page 1 starts with the salt of the writer,
the opener derives the writer's keys from it, and a rekey in WAL mode keeps the salt, if and only if
the cipher is not AEGIS or the two Argon2id calls agree. -/
theorem sameKeys_iff (P : Primitives) {cipherType : ℕ} {env₀ : Env} {c₀ : Cipher}
    (hparams : ∀ name, env₀.pendingParameter name "plaintext_header_size" ≤ 100)
    (hal : (builtinAllocate cipherType env₀).1 = some c₀) (hstores : c₀.storesSalt)
    {password : Bytes} (hpwd : password.length < 2 ^ 31) (way : KeyWay) (envWrite envOpen : Env) :
    SameKeys P cipherType c₀ password way envWrite envOpen ↔
      c₀.sameDerivation P password way envWrite envOpen := by
  have hkey : ∀ c, c₀ = .aegis c → c.keyLength = 16 ∨ c.keyLength = 32 := by
    intro c hc
    exact keyLength_of_allocated (hc ▸ hal)
  obtain ⟨hsame, hkept⟩ := pageKeys_reopened (P := P) hstores hkey hpwd way envWrite envOpen
  have hwf : (writtenCipher P cipherType c₀ password way envWrite).WellFormed := by
    rw [writtenCipher_eq]
    exact builtinGenerateKey_wellFormed (builtinAllocate_wellFormed hparams hal)
      fun s hs => (way.length_cipherSalt hs).ge
  have hst : (writtenCipher P cipherType c₀ password way envWrite).storesSalt := by
    rw [writtenCipher_eq, builtinGenerateKey_storesSalt]
    exact hstores
  constructor
  · intro h
    have hreopened := h.reopened
    rw [writtenCipher_eq] at hreopened
    exact hsame.mp hreopened
  · intro h
    refine ⟨fun data reserved env hlen hfits => encryptPage_salt hwf hst hlen hfits _ env, ?_, ?_⟩
    · rw [writtenCipher_eq]
      exact hsame.mpr h
    · rw [writtenCipher_eq]
      exact hkept

end Derivation

/-! ### A lost key -/

/-- The AEGIS cipher that the default parameters give. -/
def aegisCipher : Cipher := .aegis ((aegisEnv 1).aegisSettings.cipher (zeros 32) (zeros 16))

/-- With enough memory for both, writer and opener have the same keys. -/
theorem sameKeys_enough :
    SameKeys nullPrimitives 7 aegisCipher [0x61] .newDatabase (aegisEnv 1) (aegisEnv 1) := by
  have hparams : ∀ name, (aegisEnv 1).pendingParameter name "plaintext_header_size" ≤ 100 := by
    have hat : ∀ j, (sqlite3mcGetCipherParameter ((aegisEnv 1).paramsAt j)
        "plaintext_header_size").1 ≤ 100 := by
      intro j
      match j with
      | 0 => decide
      | 1 => decide
      | j + 2 =>
        exact (by decide : (sqlite3mcGetCipherParameter [] "plaintext_header_size").1 ≤ 100)
    exact fun name => hat _
  refine (sameKeys_iff nullPrimitives hparams (by rfl : (builtinAllocate 7 (aegisEnv 1)).1 =
    some aegisCipher) (le_refl (0 : ℤ)) (by decide) .newDatabase (aegisEnv 1)
    (aegisEnv 1)).mpr ?_
  exact Or.inr (Or.inr (Or.inl Iff.rfl))

/-- Primitives with an Argon2id hash that is not zero. -/
def hashPrimitives : Primitives :=
  { nullPrimitives with
    argon2id := fun _ _ _ _ _ n => List.replicate n 1
    length_argon2id := fun _ _ _ _ _ _ => List.length_replicate }

/-- An environment whose Argon2id calls do not get their memory. -/
def lowMemoryEnv : Env := { aegisEnv 1 with argon2 := fun _ => .noMemory }

/-- **A database nobody can open again.** Setting the key of a new AEGIS database with too little
memory gives a key of zeros; whoever opens it with the same passphrase and enough memory has the
hash. -/
theorem sameKeys_lost :
    (builtinAllocate 7 (aegisEnv 1)).1 = some aegisCipher ∧
      ¬ SameKeys hashPrimitives 7 aegisCipher [0x61] .newDatabase lowMemoryEnv (aegisEnv 1) := by
  refine ⟨rfl, fun h => ?_⟩
  have hkey : ∀ c, aegisCipher = .aegis c → c.keyLength = 16 ∨ c.keyLength = 32 := by
    intro c hc
    obtain rfl := Cipher.aegis.inj hc
    exact Or.inr rfl
  have hstores : aegisCipher.storesSalt := le_refl (0 : ℤ)
  have hpwd : ([0x61] : Bytes).length < 2 ^ 31 := by decide
  have hsame : aegisCipher.sameDerivation hashPrimitives [0x61] .newDatabase lowMemoryEnv
      (aegisEnv 1) :=
    (pageKeys_reopened hstores hkey hpwd .newDatabase lowMemoryEnv (aegisEnv 1)).1.mp h.reopened
  rcases hsame with hraw | hvalid | hagree | hhash
  · exact hraw (by decide)
  · exact hvalid (by decide)
  · exact absurd (hagree.mpr rfl) (by decide)
  · exact absurd hhash (by decide)

end MultipleCiphers
