import MultipleCiphers.Ciphers.AegisKey
import MultipleCiphers.Key.OneShot
import MultipleCiphers.Key.SaltedKeys

/-!
# A codec keyed with a password

A password is a raw key, which a salted cipher takes as it stands, or it is turned into a key, by
every cipher in its own way: from the password alone, or with the settings and the salt of the
cipher. `Cipher.HasKeysOf` says of a cipher that its keys are those of a password.

The set-up of a codec allocates a cipher twice, for reading and for writing, and generates the keys
in between. It fails only if an allocation does. The keys are those of the password except with
AEGIS, the one cipher whose derivation can fail: Argon2id does not accept all settings, and it
needs memory and threads. The set-up does not look at its result. The key is then what the cipher
was allocated with, zeros.

## Main definitions

* `Cipher.HasKeysOf`, `KeyedWith` — a cipher and a codec with the keys of a password.
* `CiphersAllocated`, `KeyDerived` — what a set-up needs.

## Main results

* `builtinAllocate_granted` — when the allocation of a cipher succeeds.
* `sqlite3mcCodecSetup_keyed` — when a set-up succeeds, and when it leaves a codec keyed with its
  password.
-/

namespace MultipleCiphers

open Bytes

/-! ### The keys of a password -/

/-- The key that a password of a salted cipher stands for: the raw key it is, or else the key
derived from it. -/
def passwordKey (password : Bytes) (keyLength : ℕ) (derived : Bytes) : Bytes :=
  ((sqlite3mcExtractRawKey password false keyLength 16).map Prod.fst).getD derived

/-- Argon2id accepts the settings for a password and a salt. -/
def AegisSettings.AcceptedFor (s : AegisSettings) (password salt : Bytes) : Prop :=
  argon2ValidateInputs (uint32OfInt s.tcost) (uint32OfInt s.mcost) (uint32OfInt s.pcost)
    password.length salt.length (aegisKeyLength s.algorithm) = .ok

instance (s : AegisSettings) (password salt : Bytes) : Decidable (s.AcceptedFor password salt) :=
  inferInstanceAs (Decidable (_ = _))

/-- The hash of a password and a salt under the settings. -/
def AegisSettings.hash (P : Primitives) (s : AegisSettings) (password salt : Bytes) : Bytes :=
  P.argon2id (uint32OfInt s.tcost) (uint32OfInt s.mcost) (uint32OfInt s.pcost) password salt
    (aegisKeyLength s.algorithm)

/-- The settings of a cipher. -/
def AegisCipher.settings (c : AegisCipher) : AegisSettings :=
  ⟨c.argon2Tcost, c.argon2Mcost, c.argon2Pcost, c.aegisAlgorithm, c.plaintextHeaderSize⟩

/-- The password is no raw key of AEGIS. -/
def AegisSettings.isPassphrase (s : AegisSettings) (password : Bytes) : Bool :=
  (sqlite3mcExtractRawKey password false (aegisKeyLength s.algorithm) 16).isNone

/-- **The keys of a cipher are those of a password**, under the settings and with the salt that the
cipher has. There is a hash of AEGIS only for settings that Argon2id accepts. -/
def Cipher.HasKeysOf (P : Primitives) (password : Bytes) : Cipher → Prop
  | .aes128 c => c.key = (generateKeyAES128Cipher P c password).key
  | .aes256 c => c.key = (generateKeyAES256Cipher P c password).key
  | .rc4 c => c.key = (generateKeyRC4Cipher P c password).key
  | .chacha20 c => c.key = passwordKey password 32 (P.pbkdf2 .sha256 password c.salt c.kdfIter 32)
  | .sqlcipher c =>
    c.key = passwordKey password 32
        (P.pbkdf2 (.ofInt c.kdfAlgorithm) password c.salt c.kdfIter 32) ∧
      (c.hmacUse ≠ 0 → c.hmacKey =
        P.pbkdf2 (.ofInt (if c.hmacAlgorithmCompat ≠ 0 then c.kdfAlgorithm else c.hmacAlgorithm))
          c.key (c.salt.map (· ^^^ UInt8.ofNat (c.hmacSaltMask % 256).toNat)) c.fastKdfIter 32)
  | .ascon128 c => c.key = passwordKey password 32 (P.asconPbkdf2 password c.salt c.kdfIter 32)
  | .aegis c =>
    (c.settings.isPassphrase password = true → c.settings.AcceptedFor password c.salt) ∧
      c.key = passwordKey password (aegisKeyLength c.aegisAlgorithm)
        (c.settings.hash P password c.salt)

/-- **A codec keyed with a password**: it is encrypted, and reads and writes with one cipher, which
has the keys of the password. -/
def KeyedWith (P : Primitives) (password : Bytes) (codec : Codec Cipher) : Prop :=
  ∃ cipher, codec.Settled cipher ∧ codec.hasWriteCipher = true ∧ cipher.HasKeysOf P password

/-! ### What a set-up needs -/

/-- How often the allocation of a cipher asks for memory: some ciphers have a context besides. -/
def allocationCount (cipherType : ℕ) : ℕ :=
  if cipherType = 1 ∨ cipherType = 2 ∨ cipherType = 4 then 2 else 1

/-- There is such a cipher, and the memory for two of it. -/
def CiphersAllocated (cipherType : ℤ) (env : Env) : Prop :=
  (1 ≤ cipherType ∧ cipherType ≤ 7) ∧
    ∀ i < 2 * allocationCount cipherType.toNat, env.malloc i = true

/-- The salt that the keys of a new codec are derived with: the one that was given or is found in
the file, or a new one. -/
def setUpSalt (keySalt dbHeader : Option Bytes) (env : Env) : Bytes :=
  match keySalt.or dbHeader with
  | some salt => salt.take 16
  | none => (env.chacha20Rng 16).1

/-- What AEGIS needs to derive a key: settings that Argon2id accepts, and memory and threads. There
is no telling a key of zeros from the hash where the hash is zero. -/
def AegisSettings.Derives (P : Primitives) (s : AegisSettings) (password salt : Bytes)
    (granted : Argon2Resources) : Prop :=
  s.isPassphrase password = true → s.AcceptedFor password salt ∧
    (granted = .enough ∨ s.hash P password salt = zeros (aegisKeyLength s.algorithm))

/-- What the derivation of the keys needs: with AEGIS that Argon2id delivers, with the others
nothing. -/
def KeyDerived (P : Primitives) (cipherType : ℤ) (password : Bytes)
    (keySalt dbHeader : Option Bytes) (env : Env) : Prop :=
  cipherType = 7 →
    env.aegisSettings.Derives P password (setUpSalt keySalt dbHeader env) (env.argon2 0)

/-! ### Allocations -/

section Allocations

variable {env : Env}

/-- **When the allocation of a cipher succeeds**: if the memory it asks for is granted, and it has
then used up that much. -/
theorem builtinAllocate_granted (t : ℕ) (env : Env) :
    ((builtinAllocate t env).1.isSome = true ↔
      (1 ≤ t ∧ t ≤ 7) ∧ ∀ i < allocationCount t, env.malloc i = true) ∧
    ((builtinAllocate t env).1.isSome = true →
      (builtinAllocate t env).2.malloc = fun n => env.malloc (n + allocationCount t)) := by
  have hone : (∀ i < 1, env.malloc i = true) ↔ env.malloc 0 = true := by simp
  have htwo : (∀ i < 2, env.malloc i = true) ↔ env.malloc 0 = true ∧ env.malloc 1 = true := by
    refine ⟨fun h => ⟨h 0 (by decide), h 1 (by decide)⟩, fun h i hi => ?_⟩
    interval_cases i
    · exact h.1
    · exact h.2
  match t with
  | 1 | 2 =>
    rw [show allocationCount _ = 2 from rfl, htwo]
    rcases h₀ : env.malloc 0 with _ | _ <;> rcases h₁ : env.malloc 1 with _ | _ <;>
      simp [builtinAllocate, wrapAllocate, allocateAES128Cipher, allocateAES256Cipher,
        Env.sqlite3Malloc, h₀, h₁]
  | 4 =>
    rw [show allocationCount _ = 2 from rfl, htwo]
    rcases h₀ : env.malloc 0 with _ | _ <;> rcases h₁ : env.malloc 1 with _ | _ <;>
      simp [builtinAllocate, wrapAllocate, allocateSQLCipherCipher, Env.sqlite3Malloc, h₀, h₁]
    -- whether the size of the plaintext header is read or not
    split <;> rfl
  | 3 | 5 | 6 | 7 =>
    rw [show allocationCount _ = 1 from rfl, hone]
    rcases h₀ : env.malloc 0 with _ | _ <;>
      simp [builtinAllocate, wrapAllocate, allocateChaCha20Cipher, allocateRC4Cipher,
        allocateAscon128Cipher, allocateAegisCipher, Env.sqlite3Malloc, h₀]
  | 0 => simp [builtinAllocate]
  | n + 8 => simp [builtinAllocate]

/-- An allocation leaves the random bytes and Argon2id alone. -/
theorem builtinAllocate_rest {t : ℕ} {env env' : Env} {c : Cipher}
    (h : builtinAllocate t env = (some c, env')) :
    env'.random = env.random ∧ env'.argon2 = env.argon2 := by
  obtain ⟨-, -, malloc, rfl⟩ := builtinAllocate_some h
  have hreads : ∀ (names : List String) (e : Env) (j : ℕ),
      (e.useParameters j names).random = e.random ∧
        (e.useParameters j names).argon2 = e.argon2 := by
    intro names
    induction names with
    | nil => exact fun e j => ⟨rfl, rfl⟩
    | cons name names ih => exact fun e j => ih (e.getCipherParameter j name).2 j
  exact hreads _ _ _

/-- Generating a key takes no memory from SQLite. -/
theorem builtinGenerateKey_malloc {P : Primitives} (c : Cipher) (password : Bytes) (rekey : ℕ)
    (cipherSalt : Option Bytes) (env : Env) :
    (builtinGenerateKey P c password rekey cipherSalt env).2.malloc = env.malloc := by
  have hsalted : ∀ (plaintextHeaderSize : ℤ) (keyLength : ℕ) (kdf : Bytes → Bytes),
      (saltedKey plaintextHeaderSize keyLength 16 kdf password rekey cipherSalt env).2.2.malloc =
        env.malloc := by
    intro plaintextHeaderSize keyLength kdf
    have hsalt : (saltForKey plaintextHeaderSize 16 rekey cipherSalt env).2.2.malloc =
        env.malloc := by
      unfold saltForKey
      dsimp only
      split <;> rfl
    unfold saltedKey
    dsimp only
    split <;> exact hsalt
  cases c with
  | aes128 c => rfl
  | aes256 c => rfl
  | rc4 c => rfl
  | chacha20 c =>
    simp only [builtinGenerateKey, generateKeyChaCha20Cipher, Prod.map, id_eq]
    exact hsalted _ _ _
  | sqlcipher c =>
    simp only [builtinGenerateKey, generateKeySQLCipherCipher, Prod.map, id_eq]
    exact hsalted _ _ _
  | ascon128 c =>
    simp only [builtinGenerateKey, generateKeyAscon128Cipher, Prod.map, id_eq]
    exact hsalted _ _ _
  | aegis c => exact generateKeyAegisCipher_malloc c password rekey cipherSalt env

end Allocations

/-! ### Generating the keys -/

section Generate

variable {P : Primitives}

/-- The ciphers that derive their keys by themselves have the keys of the password. -/
theorem builtinGenerateKey_hasKeysOf {c : Cipher} (hc : ∀ a, c ≠ .aegis a) (password : Bytes)
    (rekey : ℕ) (cipherSalt : Option Bytes) (env : Env) :
    (builtinGenerateKey P c password rekey cipherSalt env).1.HasKeysOf P password := by
  cases c with
  | aes128 c => simp only [builtinGenerateKey, Cipher.HasKeysOf, generateKeyAES128Cipher]
  | aes256 c => simp only [builtinGenerateKey, Cipher.HasKeysOf, generateKeyAES256Cipher]
  | rc4 c => simp only [builtinGenerateKey, Cipher.HasKeysOf, generateKeyRC4Cipher]
  | chacha20 c =>
    exact saltedKey_key c.plaintextHeaderSize
      (fun salt => P.pbkdf2 .sha256 password salt c.kdfIter 32) password rekey cipherSalt env
  | sqlcipher c =>
    refine ⟨saltedKey_key c.plaintextHeaderSize
      (fun salt => P.pbkdf2 (.ofInt c.kdfAlgorithm) password salt c.kdfIter 32) password rekey
      cipherSalt env, fun huse => ?_⟩
    have huse : c.hmacUse ≠ 0 := huse
    simp only [if_pos huse]
  | ascon128 c =>
    exact saltedKey_key c.plaintextHeaderSize
      (fun salt => P.asconPbkdf2 password salt c.kdfIter 32) password rekey cipherSalt env
  | aegis c => exact absurd rfl (hc c)

/-- Settings that are accepted pass the tests before the output buffer is allocated. -/
theorem argon2_limits {t m p pwdLen saltLen outLen : ℕ}
    (h : argon2ValidateInputs t m p pwdLen saltLen outLen = .ok) :
    ¬ argon2MaxUInt32 < pwdLen ∧ ¬ argon2MaxUInt32 < saltLen ∧ ¬ argon2MaxUInt32 < outLen ∧
      ¬ outLen < 4 := by
  rw [argon2ValidateInputs] at h
  have h₁ : ¬ 4 > outLen := fun hno => by rw [if_pos hno] at h; cases h
  rw [if_neg h₁] at h
  have h₂ : ¬ argon2MaxUInt32 < outLen := fun hno => by rw [if_pos hno] at h; cases h
  rw [if_neg h₂] at h
  have h₃ : ¬ argon2MaxUInt32 < pwdLen := fun hno => by rw [if_pos hno] at h; cases h
  rw [if_neg h₃] at h
  have h₄ : ¬ 8 > saltLen := fun hno => by rw [if_pos hno] at h; cases h
  rw [if_neg h₄] at h
  have h₅ : ¬ argon2MaxUInt32 < saltLen := fun hno => by rw [if_pos hno] at h; cases h
  exact ⟨h₃, h₅, h₂, h₁⟩

/-- What Argon2id delivers: the hash, if it accepts the settings and gets what it needs. -/
theorem argon2idHashRaw_value (t m p : ℕ) (password salt : Bytes) (hashLen : ℕ) (env : Env) :
    (argon2idHashRaw P t m p password salt hashLen env).2.1 =
      if argon2ValidateInputs t m p password.length salt.length hashLen = .ok ∧
          env.argon2 0 = .enough then
        some (P.argon2id t m p password salt hashLen)
      else none := by
  by_cases hvalid : argon2ValidateInputs t m p password.length salt.length hashLen = .ok
  · obtain ⟨h₁, h₂, h₃, h₄⟩ := argon2_limits hvalid
    simp only [argon2idHashRaw, Env.argon2Grant, if_neg h₁, if_neg h₂, if_neg h₃, if_neg h₄,
      hvalid, true_and]
    generalize env.argon2 0 = granted
    cases granted <;> rfl
  · rw [if_neg fun h => hvalid h.1, argon2idHashRaw]
    generalize argon2ValidateInputs t m p password.length salt.length hashLen = code at hvalid ⊢
    dsimp only
    repeat' split
    all_goals first | rfl | exact absurd rfl hvalid

/-- A password is a raw key with or without a salt. -/
theorem extractRawKey_of_isPassphrase {s : AegisSettings} {password : Bytes}
    (h : s.isPassphrase password = true) (keyOnly : Bool) :
    sqlite3mcExtractRawKey password keyOnly (aegisKeyLength s.algorithm) 16 = none := by
  rcases sqlite3mcExtractRawKey_cases password (aegisKeyLength s.algorithm) 16
    with hnone | ⟨key, rawSalt, hraw, -⟩
  · exact hnone keyOnly
  · rw [AegisSettings.isPassphrase, hraw] at h
    cases h

/-- **A new AEGIS cipher** has the keys of the password if and only if Argon2id delivers. -/
theorem builtinGenerateKey_aegis_iff (s : AegisSettings) (password : Bytes)
    (keySalt dbHeader : Option Bytes) (env : Env) :
    (builtinGenerateKey P (.aegis (s.cipher (zeros (aegisKeyLength s.algorithm)) (zeros 16)))
        password 0 (keySalt.or dbHeader) env).1.HasKeysOf P password ↔
      s.Derives P password (setUpSalt keySalt dbHeader env) (env.argon2 0) := by
  obtain ⟨keyOnly, env', hsalt, hargon⟩ : ∃ keyOnly env',
      saltForKey s.plaintextHeaderSize 16 0 (keySalt.or dbHeader) env =
        (keyOnly, setUpSalt keySalt dbHeader env, env') ∧ env'.argon2 = env.argon2 := by
    rw [setUpSalt]
    rcases keySalt.or dbHeader with _ | salt
    · exact ⟨_, _, rfl, rfl⟩
    · exact ⟨_, _, rfl, rfl⟩
  generalize setUpSalt keySalt dbHeader env = salt at hsalt ⊢
  rcases hpass : s.isPassphrase password with _ | _
  · -- a raw key
    refine iff_of_true ?_ fun h => ?_
    · rcases sqlite3mcExtractRawKey_cases password (aegisKeyLength s.algorithm) 16
        with hnone | ⟨key, rawSalt, hraw, -⟩
      · rw [AegisSettings.isPassphrase, hnone] at hpass
        cases hpass
      · refine ⟨fun h => ?_, ?_⟩
        · have hfalse : s.isPassphrase password = true := by
            simpa [builtinGenerateKey, generateKeyAegisCipher, AegisSettings.cipher, hsalt, hraw,
              AegisCipher.settings] using h
          rw [hpass] at hfalse
          cases hfalse
        · simp [AegisSettings.cipher, hraw, passwordKey]
    · rw [hpass] at h
      cases h
  · -- a passphrase
    have hraw := extractRawKey_of_isPassphrase hpass
    have hkey : (builtinGenerateKey P
        (.aegis (s.cipher (zeros (aegisKeyLength s.algorithm)) (zeros 16))) password 0
        (keySalt.or dbHeader) env).1 = .aegis (s.cipher
          ((if s.AcceptedFor password salt ∧ env.argon2 0 = Argon2Resources.enough then
            some (s.hash P password salt) else none).getD (zeros (aegisKeyLength s.algorithm)))
          salt) := by
      simp only [builtinGenerateKey, generateKeyAegisCipher, AegisSettings.cipher, hsalt, hraw,
        argon2idHashRaw_value, hargon, Prod.map, id_eq]
      rfl
    have hsettings : ∀ key : Bytes, (s.cipher key salt).settings = s := fun _ => rfl
    rw [hkey, Cipher.HasKeysOf, hsettings, AegisSettings.Derives, hpass]
    simp only [forall_const, AegisSettings.cipher, passwordKey, hraw, Option.map_none,
      Option.getD_none]
    refine and_congr_right fun haccepted => ?_
    by_cases hgranted : env.argon2 0 = .enough
    · rw [if_pos ⟨haccepted, hgranted⟩]
      exact iff_of_true rfl (Or.inl hgranted)
    · rw [if_neg fun h => hgranted h.2, or_iff_right hgranted]
      exact eq_comm

end Generate

/-! ### Setting up a codec -/

section SetUp

/-- A set-up succeeds if there is such a cipher and both allocations succeed. -/
theorem sqlite3mcCodecSetup_ok_iff {σ : Type} {D : ℕ → CipherDescriptor σ} {cipherType : ℤ}
    {keySalt : Option Bytes} {password : Bytes} {dbHeader : Option Bytes} {env : Env} :
    (sqlite3mcCodecSetup D { sqlite3mcCodecInit with keySalt } cipherType password dbHeader
        env).1 = .ok ↔
      0 < cipherType ∧ ∃ c env₁,
        (D cipherType.toNat).allocateCipher (useCommonParameters env).2.2 = (some c, env₁) ∧
        ((D cipherType.toNat).allocateCipher
          ((D cipherType.toNat).generateKey c password 0 (keySalt.or dbHeader) env₁).2).1.isSome =
            true := by
  constructor
  · intro h
    have hpos : 0 < cipherType := by
      by_contra hno
      rw [sqlite3mcCodecSetup, if_pos (not_lt.mp hno)] at h
      cases h
    rcases hsetup : sqlite3mcCodecSetup D { sqlite3mcCodecInit with keySalt } cipherType password
      dbHeader env with ⟨rc, codec', env'⟩
    rw [hsetup] at h
    obtain rfl : rc = .ok := h
    obtain ⟨c, env₁, w, hal, hal₂, -⟩ := sqlite3mcCodecSetup_ok hsetup
    exact ⟨hpos, c, env₁, hal, by rw [hal₂]; rfl⟩
  · rintro ⟨hpos, c, env₁, hal, hal₂⟩
    rw [sqlite3mcCodecSetup, if_neg (not_le.mpr hpos)]
    simp only [hal, sqlite3mcGenerateReadKey]
    rw [sqlite3mcCopyReadToWrite_eq (r := ((D cipherType.toNat).generateKey c password 0
      (keySalt.or dbHeader) env₁).1) rfl]
    have hcopy : ∀ e, cipherForCopy D 0 none cipherType.toNat e =
        (D cipherType.toNat).allocateCipher e := fun e => if_neg fun hno => by cases hno.2
    simp only [sqlite3mcCodecInit, hcopy, hal₂, if_true]

variable {P : Primitives} {env : Env} {cipherType : ℤ} {keySalt dbHeader : Option Bytes}
  {password : Bytes}

theorem CiphersAllocated.iff_twice :
    CiphersAllocated cipherType env ↔ 0 < cipherType ∧
      ((1 ≤ cipherType.toNat ∧ cipherType.toNat ≤ 7) ∧
        ∀ i < allocationCount cipherType.toNat, env.malloc i = true) ∧
      ∀ i < allocationCount cipherType.toNat,
        env.malloc (i + allocationCount cipherType.toNat) = true := by
  rw [CiphersAllocated]
  generalize allocationCount cipherType.toNat = n
  constructor
  · rintro ⟨⟨hlow, hhigh⟩, h⟩
    exact ⟨by omega, ⟨by omega, fun i hi => h i (by omega)⟩, fun i hi => h (i + n) (by omega)⟩
  · rintro ⟨hpos, ⟨hrange, h⟩, h'⟩
    refine ⟨by omega, fun i hi => ?_⟩
    by_cases hin : i < n
    · exact h i hin
    · have hrest := h' (i - n) (by omega)
      rwa [Nat.sub_add_cancel (not_lt.mp hin)] at hrest

/-- **When a set-up succeeds**: if the memory for two ciphers is granted. -/
theorem sqlite3mcCodecSetup_allocated :
    (sqlite3mcCodecSetup (builtinDescriptors P) { sqlite3mcCodecInit with keySalt } cipherType
        password dbHeader env).1 = .ok ↔ CiphersAllocated cipherType env := by
  rw [sqlite3mcCodecSetup_ok_iff, CiphersAllocated.iff_twice]
  refine and_congr_right fun hpos => ?_
  obtain ⟨hsome, hmalloc⟩ :=
    builtinAllocate_granted cipherType.toNat (useCommonParameters env).2.2
  have hcommon : (useCommonParameters env).2.2.malloc = env.malloc := rfl
  rw [hcommon] at hsome hmalloc
  constructor
  · rintro ⟨c, env₁, hal, hal₂⟩
    have hal : builtinAllocate cipherType.toNat (useCommonParameters env).2.2 =
        (some c, env₁) := hal
    rw [hal] at hsome hmalloc
    have hfirst := hsome.mp rfl
    have hsecond := ((builtinAllocate_granted _ _).1.mp hal₂).2
    rw [show ((builtinDescriptors P cipherType.toNat).generateKey c password 0
      (keySalt.or dbHeader) env₁).2.malloc = env₁.malloc from
        builtinGenerateKey_malloc c password 0 (keySalt.or dbHeader) env₁, hmalloc rfl] at hsecond
    exact ⟨hfirst, hsecond⟩
  · rintro ⟨hfirst, hsecond⟩
    rcases hal : builtinAllocate cipherType.toNat (useCommonParameters env).2.2 with ⟨_ | c, env₁⟩
    · rw [hal] at hsome
      cases hsome.mpr hfirst
    · rw [hal] at hmalloc
      refine ⟨c, env₁, hal, (builtinAllocate_granted _ _).1.mpr ⟨hfirst.1, ?_⟩⟩
      rw [show ((builtinDescriptors P cipherType.toNat).generateKey c password 0
        (keySalt.or dbHeader) env₁).2.malloc = env₁.malloc from
          builtinGenerateKey_malloc c password 0 (keySalt.or dbHeader) env₁, hmalloc rfl]
      exact hsecond

/-- **When a codec that was set up is keyed with its password**: if the keys are derived. -/
theorem sqlite3mcCodecSetup_keyed {codec : Codec Cipher} {env' : Env}
    (h : sqlite3mcCodecSetup (builtinDescriptors P) { sqlite3mcCodecInit with keySalt } cipherType
      password dbHeader env = (.ok, codec, env')) :
    KeyedWith P password codec ↔ KeyDerived P cipherType password keySalt dbHeader env := by
  obtain ⟨c, env₁, w, hal, -, hcodec⟩ := sqlite3mcCodecSetup_ok h
  obtain ⟨r, hsettled, hwrite⟩ := sqlite3mcCodecSetup_settled ⟨rfl, rfl⟩ h
  have hal : builtinAllocate cipherType.toNat (useCommonParameters env).2.2 = (some c, env₁) := hal
  obtain ⟨⟨hlow, hhigh⟩, hnew, -⟩ := builtinAllocate_some hal
  obtain ⟨hrandom, hargon⟩ := builtinAllocate_rest hal
  have hr : r = (builtinGenerateKey P c password 0 (keySalt.or dbHeader) env₁).1 := by
    have hread := hsettled.readCipher
    rw [hcodec] at hread
    exact (Option.some.inj hread).symm
  have hkeyed : KeyedWith P password codec ↔ r.HasKeysOf P password := by
    constructor
    · rintro ⟨cipher, hcipher, -, hkeys⟩
      have hsame := hsettled.readCipher.symm.trans hcipher.readCipher
      obtain rfl := Option.some.inj hsame
      exact hkeys
    · exact fun hkeys => ⟨r, hsettled, hwrite, hkeys⟩
  rw [hkeyed, hr, KeyDerived]
  by_cases h7 : cipherType = 7
  · subst h7
    have hcipher := allocateAegisCipher_cipher (useCommonParameters env).2.2
    rw [aegisSettings_useCommonParameters] at hcipher
    obtain ⟨a, ha, rfl⟩ := wrapAllocate_some .aegis allocateAegisCipher hal
    rw [ha] at hcipher
    split_ifs at hcipher
    obtain rfl := Option.some.inj hcipher
    have hsalt : setUpSalt keySalt dbHeader env₁ = setUpSalt keySalt dbHeader env := by
      rw [setUpSalt, setUpSalt]
      rcases keySalt.or dbHeader with _ | salt
      · simp only [Env.chacha20Rng, hrandom]
        rfl
      · rfl
    rw [builtinGenerateKey_aegis_iff, hsalt, hargon]
    exact ⟨fun hderives _ => hderives, fun hderives => hderives rfl⟩
  · refine iff_of_true (builtinGenerateKey_hasKeysOf ?_ _ _ _ _) fun h => absurd h h7
    rintro a rfl
    have htype : cipherType.toNat ≠ 7 := by omega
    generalize cipherType.toNat = t at hnew hlow hhigh htype
    interval_cases t <;> first | exact htype rfl | cases hnew

end SetUp

end MultipleCiphers
