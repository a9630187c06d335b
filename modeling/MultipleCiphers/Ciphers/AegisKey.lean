import MultipleCiphers.Ciphers.Builtin

/-!
# When the key of an AEGIS database is the hash of its passphrase

The configuration accepts any cost parameter from `1` to `2 ^ 31 - 1`, each for itself. Argon2id
looks at them together: it wants eight blocks of memory a lane and has a limit on the lanes. A
setting can therefore pass the configuration and fail in the key derivation, as can a call that
does not get its memory. `generateKeyAegisCipher` drops the code of the derivation, and the setup
of the codec goes on with the key the cipher was allocated with, all of whose bytes are zero.

## The two setups

A key operation and an attach set up the whole codec (`sqlite3mcCodecSetup`), a rekey only its
write cipher (`sqlite3mcSetupWriteCipher`). Either fails for a reason of its own if a cipher cannot
be allocated; apart from that the outcome depends on Argon2id alone.

## Main results

* `argon2idHashRaw_code_eq_ok_iff` — which admitted settings Argon2id accepts.
* `aegisSetup_sound_iff` — a setup that reports success has the hash as its key, and one whose
  Argon2id call fails reports an error, exactly if the settings are ones Argon2id accepts and the
  call gets its resources.
* `aegisSetup_zero_key` — a setup that reports success with a key of zeros.
-/

namespace MultipleCiphers

open Bytes

/-! ### The pending settings -/

/-- The parameters of AEGIS. -/
structure AegisSettings where
  tcost : ℤ
  mcost : ℤ
  pcost : ℤ
  algorithm : ℤ
  plaintextHeaderSize : ℤ
  deriving DecidableEq, Repr

/-- The settings the configuration admits, the bounds of `mcAegisParams`. -/
structure AegisSettings.Admitted (s : AegisSettings) : Prop where
  tcost : 1 ≤ s.tcost ∧ s.tcost ≤ 0x7fffffff
  mcost : 1 ≤ s.mcost ∧ s.mcost ≤ 0x7fffffff
  pcost : 1 ≤ s.pcost ∧ s.pcost ≤ 0x7fffffff
  algorithm : 1 ≤ s.algorithm ∧ s.algorithm ≤ 6
  plaintextHeaderSize : 0 ≤ s.plaintextHeaderSize ∧ s.plaintextHeaderSize ≤ 100

/-- The settings pending in an environment. -/
def Env.aegisSettings (env : Env) : AegisSettings where
  tcost := env.pendingParameter "aegis" "tcost"
  mcost := env.pendingParameter "aegis" "mcost"
  pcost := env.pendingParameter "aegis" "pcost"
  algorithm := env.pendingParameter "aegis" "algorithm"
  plaintextHeaderSize := env.pendingParameter "aegis" "plaintext_header_size"

/-- A cipher with the given settings, key and salt. -/
def AegisSettings.cipher (s : AegisSettings) (key salt : Bytes) : AegisCipher where
  argon2Tcost := s.tcost
  argon2Mcost := s.mcost
  argon2Pcost := s.pcost
  aegisAlgorithm := s.algorithm
  plaintextHeaderSize := s.plaintextHeaderSize
  keyLength := aegisKeyLength s.algorithm
  nonceLength := aegisKeyLength s.algorithm
  key := key
  salt := salt

/-- A new cipher has the pending settings, a key of zeros and a salt of zeros. -/
theorem allocateAegisCipher_cipher (env : Env) :
    (allocateAegisCipher env).1 =
      if env.malloc 0 then
        some (env.aegisSettings.cipher (zeros (aegisKeyLength env.aegisSettings.algorithm))
          (zeros 16))
      else none := by
  rcases h : env.malloc 0 with _ | _
  · simp [allocateAegisCipher, Env.sqlite3Malloc, h]
  · have h₁ : env.sqlite3Malloc.1 = true := h
    simp only [allocateAegisCipher, h₁, if_true]
    -- no parameter is read twice, so each read finds its value still pending
    simp (disch := decide) only [Env.getCipherParameter_other]
    rfl

/-- Allocating a cipher takes one allocation and leaves Argon2id alone. -/
theorem allocateAegisCipher_env (env : Env) :
    (allocateAegisCipher env).2.malloc = (fun n => env.malloc (n + 1)) ∧
      (allocateAegisCipher env).2.argon2 = env.argon2 := by
  rcases h : env.malloc 0 with _ | _
  · simp [allocateAegisCipher, Env.sqlite3Malloc, h]
  · simp [allocateAegisCipher, Env.sqlite3Malloc, h]

/-- Reading the common parameters leaves the settings of AEGIS pending. -/
theorem aegisSettings_useCommonParameters (env : Env) :
    (useCommonParameters env).2.2.aegisSettings = env.aegisSettings := by
  simp (disch := decide) only [useCommonParameters, Env.aegisSettings,
    Env.pendingParameter_getCipherParameter]

/-! ### Which settings Argon2id accepts -/

/-- The code of the Argon2id call with the given settings, password and salt. -/
def AegisSettings.argon2Code (P : Primitives) (s : AegisSettings) (password salt : Bytes)
    (env : Env) : Argon2Code :=
  (argon2idHashRaw P (uint32OfInt s.tcost) (uint32OfInt s.mcost) (uint32OfInt s.pcost) password salt
    (aegisKeyLength s.algorithm) env).1

/-- At least eight blocks a lane, and no more lanes than Argon2 allows. -/
def AegisSettings.Accepted (s : AegisSettings) : Prop :=
  8 * s.pcost ≤ s.mcost ∧ s.pcost ≤ 0xFFFFFF

instance (s : AegisSettings) : Decidable s.Accepted :=
  inferInstanceAs (Decidable (_ ∧ _))

theorem aegisKeyLength_cases (algorithm : ℤ) :
    aegisKeyLength algorithm = 16 ∨ aegisKeyLength algorithm = 32 := by
  by_cases h : algorithm < aegisAlgorithm256 <;> simp [aegisKeyLength, h]

theorem uint32OfInt_of_admitted {n : ℤ} (h : 1 ≤ n ∧ n ≤ 0x7fffffff) : (uint32OfInt n : ℤ) = n := by
  rw [uint32OfInt, Int.emod_eq_of_lt (by omega) (by omega)]
  omega

/-- **Which admitted settings Argon2id accepts.** Where it accepts them and has its resources it
returns the hash. -/
theorem argon2ValidateInputs_eq_ok_iff {t m p pwdLen outLen : ℕ} (ht : 1 ≤ t ∧ t ≤ 0x7fffffff)
    (hm : 1 ≤ m ∧ m ≤ 0x7fffffff) (hp : 1 ≤ p ∧ p ≤ 0x7fffffff) (hpwd : pwdLen < 2 ^ 31)
    (hout : outLen = 16 ∨ outLen = 32) :
    argon2ValidateInputs t m p pwdLen 16 outLen = .ok ↔ 8 * p ≤ m ∧ p ≤ 0xFFFFFF := by
  have h₁ : ¬ 4 > outLen := by omega
  have h₂ : ¬ argon2MaxUInt32 < outLen := by simp only [argon2MaxUInt32]; omega
  have h₃ : ¬ argon2MaxUInt32 < pwdLen := by simp only [argon2MaxUInt32]; omega
  have h₄ : ¬ 8 > 16 := by omega
  have h₅ : ¬ argon2MaxUInt32 < 16 := by simp only [argon2MaxUInt32]; omega
  have h₆ : ¬ argon2MaxUInt32 < m := by simp only [argon2MaxUInt32]; omega
  have h₇ : ¬ 1 > t := by omega
  have h₈ : ¬ argon2MaxUInt32 < t := by simp only [argon2MaxUInt32]; omega
  have h₉ : ¬ 1 > p := by omega
  rw [argon2ValidateInputs, if_neg h₁, if_neg h₂, if_neg h₃, if_neg h₄, if_neg h₅]
  by_cases hmin : argon2MinMemory > m
  · rw [if_pos hmin]
    simp only [argon2MinMemory] at hmin
    simp only [reduceCtorEq, false_iff]
    omega
  · rw [if_neg hmin, if_neg h₆]
    simp only [argon2MinMemory] at hmin
    by_cases hlanes : m < 8 * p % 2 ^ 32
    · rw [if_pos hlanes]
      simp only [reduceCtorEq, false_iff]
      omega
    · rw [if_neg hlanes, if_neg h₇, if_neg h₈, if_neg h₉]
      by_cases hmax : argon2MaxLanes < p
      · rw [if_pos hmax]
        simp only [argon2MaxLanes] at hmax
        simp only [reduceCtorEq, false_iff]
        omega
      · rw [if_neg hmax]
        simp only [argon2MaxLanes] at hmax
        simp only [true_iff]
        omega

section Derivation

variable {P : Primitives}

/-- Argon2id delivers the hash if it reports success. -/
theorem argon2idHashRaw_hash {t m p hashLen : ℕ} {pwd salt : Bytes} {env : Env}
    (h : (argon2idHashRaw P t m p pwd salt hashLen env).1 = .ok) :
    (argon2idHashRaw P t m p pwd salt hashLen env).2.1 =
      some (P.argon2id t m p pwd salt hashLen) := by
  simp only [argon2idHashRaw] at h ⊢
  split_ifs at h ⊢
  split at h
  · split at h
    · rfl
    · cases h
    · cases h
  · rename_i hcode
    exact absurd h hcode

/-- Argon2id succeeds if its checks pass and it has its resources. -/
theorem argon2idHashRaw_code_eq_ok_iff {t m p hashLen : ℕ} {pwd salt : Bytes}
    (hpwd : pwd.length < 2 ^ 31) (hsalt : salt.length = 16) (hhash : hashLen = 16 ∨ hashLen = 32)
    (env : Env) :
    (argon2idHashRaw P t m p pwd salt hashLen env).1 = .ok ↔
      argon2ValidateInputs t m p pwd.length 16 hashLen = .ok ∧ env.argon2 0 = .enough := by
  have h₁ : ¬ argon2MaxUInt32 < pwd.length := by simp only [argon2MaxUInt32]; omega
  have h₂ : ¬ argon2MaxUInt32 < 16 := by simp only [argon2MaxUInt32]; omega
  have h₃ : ¬ argon2MaxUInt32 < hashLen := by simp only [argon2MaxUInt32]; omega
  have h₄ : ¬ hashLen < 4 := by omega
  simp only [argon2idHashRaw, Env.argon2Grant, hsalt, if_neg h₁, if_neg h₂, if_neg h₃, if_neg h₄]
  generalize env.argon2 0 = granted
  generalize argon2ValidateInputs t m p pwd.length 16 hashLen = code
  cases granted <;> cases code <;> simp

/-- **When Argon2id succeeds** on settings the configuration admits. -/
theorem argon2Code_eq_ok_iff {s : AegisSettings} (hs : s.Admitted) {password salt : Bytes}
    (hpwd : password.length < 2 ^ 31) (hsalt : salt.length = 16) (env : Env) :
    s.argon2Code P password salt env = .ok ↔ s.Accepted ∧ env.argon2 0 = .enough := by
  have ht := uint32OfInt_of_admitted hs.tcost
  have hm := uint32OfInt_of_admitted hs.mcost
  have hp := uint32OfInt_of_admitted hs.pcost
  have htcost := hs.tcost
  have hmcost := hs.mcost
  have hpcost := hs.pcost
  have hlen := aegisKeyLength_cases s.algorithm
  have haccept : (8 * uint32OfInt s.pcost ≤ uint32OfInt s.mcost ∧ uint32OfInt s.pcost ≤ 0xFFFFFF) ↔
      s.Accepted := by
    rw [AegisSettings.Accepted]
    omega
  rw [AegisSettings.argon2Code, argon2idHashRaw_code_eq_ok_iff hpwd hsalt hlen,
    argon2ValidateInputs_eq_ok_iff (by omega) (by omega) (by omega) hpwd hlen, haccept]

/-- Whether a password is a raw key does not depend on the salt being wanted. -/
theorem sqlite3mcExtractRawKey_eq_none {password : Bytes} {keyLength saltLength : ℕ}
    (h : sqlite3mcExtractRawKey password true keyLength saltLength = none) (keyOnly : Bool) :
    sqlite3mcExtractRawKey password keyOnly keyLength saltLength = none := by
  simp only [sqlite3mcExtractRawKey] at h ⊢
  split_ifs at h ⊢ <;> rfl

/-! ### The setups -/

/-- The salt of a key generation has sixteen bytes, and finding it leaves Argon2id alone. -/
theorem saltForKey_spec (plaintextHeaderSize : ℤ) (rekey : ℕ) {cipherSalt : Option Bytes}
    (hsalt : ∀ s, cipherSalt = some s → s.length = 16) (env : Env) :
    (saltForKey plaintextHeaderSize 16 rekey cipherSalt env).2.1.length = 16 ∧
      (saltForKey plaintextHeaderSize 16 rekey cipherSalt env).2.2.argon2 = env.argon2 := by
  have hdrawn : (env.chacha20Rng 16).1.length = 16 ∧ (env.chacha20Rng 16).2.argon2 = env.argon2 :=
    ⟨Env.length_chacha20Rng env 16, rfl⟩
  simp only [saltForKey]
  generalize (if rekey = 2 then (if cipherSalt.isSome = true then 0 else 1) else rekey) = draw
  cases cipherSalt with
  | none => cases draw <;> exact hdrawn
  | some salt =>
    cases draw with
    | zero => exact ⟨by simp [hsalt salt rfl], rfl⟩
    | succ n => exact hdrawn

/-- The key of a setup is the hash of the password and the cipher's own salt under the settings. -/
def IsPageKey (P : Primitives) (s : AegisSettings) (password : Bytes) (cipher : Cipher) : Prop :=
  ∃ salt : Bytes, salt.length = 16 ∧ cipher = .aegis (s.cipher
    (P.argon2id s.tcost.toNat s.mcost.toNat s.pcost.toNat password salt
      (aegisKeyLength s.algorithm)) salt)

/-- The key generation of a passphrase with settings Argon2id accepts. -/
theorem generateKeyAegisCipher_isPageKey {s : AegisSettings} (hs : s.Admitted)
    (haccept : s.Accepted) {password : Bytes} (hpwd : password.length < 2 ^ 31)
    (hraw : sqlite3mcExtractRawKey password true (aegisKeyLength s.algorithm) 16 = none)
    {cipherSalt : Option Bytes} (hsalt : ∀ salt, cipherSalt = some salt → salt.length = 16)
    {env : Env} (henv : env.argon2 0 = .enough) (key₀ salt₀ : Bytes) (rekey : ℕ) :
    IsPageKey P s password
      (.aegis (generateKeyAegisCipher P (s.cipher key₀ salt₀) password rekey
        cipherSalt env).1) := by
  obtain ⟨hlen, hargon⟩ := saltForKey_spec s.plaintextHeaderSize rekey hsalt env
  have hcode := (argon2Code_eq_ok_iff (P := P) hs hpwd hlen _).mpr ⟨haccept, hargon ▸ henv⟩
  have hhash := argon2idHashRaw_hash hcode
  refine ⟨_, hlen, ?_⟩
  have hnat : ∀ n : ℤ, 1 ≤ n ∧ n ≤ 0x7fffffff → uint32OfInt n = n.toNat := by
    intro n hn
    have := uint32OfInt_of_admitted hn
    omega
  rw [hnat _ hs.tcost, hnat _ hs.mcost, hnat _ hs.pcost] at hhash
  simp only [generateKeyAegisCipher, AegisSettings.cipher, sqlite3mcExtractRawKey_eq_none hraw,
    hnat _ hs.tcost, hnat _ hs.mcost, hnat _ hs.pcost]
  rw [hhash, Option.getD_some]

/-- **A setup is sound** if success means that the page key is the hash, and a failing Argon2id
call, whatever the salt, means that an error is reported. The callers install the codec of a setup
only if it succeeds. -/
def SetupSound (P : Primitives) (s : AegisSettings) (password : Bytes) (env : Env)
    (rc : ResultCode) (cipher : Option Cipher) : Prop :=
  (rc = .ok → ∃ c, cipher = some c ∧ IsPageKey P s password c) ∧
  ∀ salt : Bytes, salt.length = 16 → s.argon2Code P password salt env ≠ .ok → rc ≠ .ok

/-- A key generation allocates nothing through SQLite. -/
theorem generateKeyAegisCipher_malloc (cipher : AegisCipher) (password : Bytes) (rekey : ℕ)
    (cipherSalt : Option Bytes) (env : Env) :
    (generateKeyAegisCipher P cipher password rekey cipherSalt env).2.malloc = env.malloc := by
  have hsalt : (saltForKey cipher.plaintextHeaderSize 16 rekey cipherSalt env).2.2.malloc =
      env.malloc := by
    simp only [saltForKey]
    generalize (if rekey = 2 then (if cipherSalt.isSome = true then 0 else 1) else rekey) = draw
    cases cipherSalt <;> cases draw <;> rfl
  have hargon : ∀ (t m p n : ℕ) (pwd salt : Bytes) (e : Env),
      (argon2idHashRaw P t m p pwd salt n e).2.2.malloc = e.malloc := by
    intro t m p n pwd salt e
    simp only [argon2idHashRaw]
    generalize argon2ValidateInputs t m p pwd.length salt.length n = code
    split_ifs
    any_goals rfl
    cases code
    any_goals rfl
    generalize e.argon2Grant.1 = granted
    cases granted <;> rfl
  simp only [generateKeyAegisCipher]
  split
  · exact hsalt
  · rw [← hsalt]
    exact hargon _ _ _ _ _ _ _

/-- The setup of a new codec, with both its allocations granted. -/
theorem sqlite3mcCodecSetup_aegis {codec : Codec Cipher} (hnew : codec.writeCipher = none)
    (password : Bytes) (dbHeader : Option Bytes) (env : Env) :
    let s := env.aegisSettings
    let e := (allocateAegisCipher (useCommonParameters env).2.2).2
    let c := Cipher.aegis (generateKeyAegisCipher P
      (s.cipher (zeros (aegisKeyLength s.algorithm)) (zeros 16)) password 0
      (codec.keySalt.or dbHeader) e).1
    let result := sqlite3mcCodecSetup (builtinDescriptors P) codec 7 password dbHeader env
    (result.1 = .ok ↔ env.malloc 0 = true ∧ env.malloc 1 = true) ∧
      (result.1 = .ok → result.2.1.readCipher = some c ∧ result.2.1.writeCipher = some c) := by
  have hmalloc : (useCommonParameters env).2.2.malloc = env.malloc := rfl
  have halloc := allocateAegisCipher_cipher (useCommonParameters env).2.2
  have hrest := (allocateAegisCipher_env (useCommonParameters env).2.2).1
  rw [hmalloc] at halloc hrest
  rw [aegisSettings_useCommonParameters] at halloc
  intro s e c result
  rcases h₀ : env.malloc 0 with _ | _
  · rw [h₀] at halloc
    simp [result, sqlite3mcCodecSetup, builtinDescriptors, builtinAllocate, wrapAllocate, halloc]
  · rw [h₀, if_pos rfl] at halloc
    -- the write cipher is allocated next, in the environment the key generation leaves
    set e' := (generateKeyAegisCipher P (s.cipher (zeros (aegisKeyLength s.algorithm)) (zeros 16))
      password 0 (codec.keySalt.or dbHeader) e).2 with he'
    have hnext : e'.malloc 0 = env.malloc 1 := by
      rw [he', generateKeyAegisCipher_malloc]
      exact congrFun hrest 0
    have hcopy : ∃ codec' : Codec Cipher, codec'.readCipher = some c ∧ codec'.writeCipher = none ∧
        codec'.readCipherType = 7 ∧
        result = sqlite3mcCopyReadToWrite (builtinDescriptors P) codec' e' := by
      refine ⟨{ codec with
        isEncrypted := true
        hmacCheck := (useCommonParameters env).1
        walLegacy := (useCommonParameters env).2.1
        hasReadCipher := true
        hasWriteCipher := true
        readCipherType := 7
        readCipher := some c }, rfl, hnew, rfl, ?_⟩
      simp only [result, sqlite3mcCodecSetup, sqlite3mcGenerateReadKey]
      rw [if_neg (by decide)]
      simp only [builtinDescriptors, builtinAllocate, wrapAllocate, show (7 : ℤ).toNat = 7 from rfl,
        halloc, Option.map_some, builtinGenerateKey]
      rfl
    obtain ⟨codec', hread, hwrite, htype, hresult⟩ := hcopy
    rw [hresult, sqlite3mcCopyReadToWrite_eq hread, hwrite, htype]
    have hsecond := allocateAegisCipher_cipher e'
    rw [hnext] at hsecond
    rcases h₁ : env.malloc 1 with _ | _
    · rw [h₁] at hsecond
      simp [cipherForCopy, builtinDescriptors, builtinAllocate, wrapAllocate, hsecond]
    · rw [h₁] at hsecond
      simp [cipherForCopy, builtinDescriptors, builtinAllocate, wrapAllocate, hsecond, hread]

/-- The setup of a write cipher, with its allocation granted. -/
theorem sqlite3mcSetupWriteCipher_aegis (codec : Codec Cipher)
    (password : Bytes) (dbHeader : Option Bytes) (usesWal : Bool) (env : Env) :
    let s := env.aegisSettings
    let e := (allocateAegisCipher (useCommonParameters env).2.2).2
    let c := Cipher.aegis (generateKeyAegisCipher P
      (s.cipher (zeros (aegisKeyLength s.algorithm)) (zeros 16)) password (if usesWal then 2 else 1)
      (codec.keySalt.or dbHeader) e).1
    let result :=
      sqlite3mcSetupWriteCipher (builtinDescriptors P) codec 7 password dbHeader usesWal env
    (result.1 = .ok ↔ env.malloc 0 = true) ∧
      (result.1 = .ok → result.2.1.writeCipher = some c) := by
  have hmalloc : (useCommonParameters env).2.2.malloc = env.malloc := rfl
  have halloc := allocateAegisCipher_cipher (useCommonParameters env).2.2
  rw [hmalloc, aegisSettings_useCommonParameters] at halloc
  rcases h₀ : env.malloc 0 with _ | _
  · rw [h₀] at halloc
    simp [sqlite3mcSetupWriteCipher, builtinDescriptors, builtinAllocate, wrapAllocate, halloc]
  · rw [h₀] at halloc
    simp [sqlite3mcSetupWriteCipher, sqlite3mcGenerateWriteKey, builtinDescriptors,
      builtinAllocate, wrapAllocate, halloc, builtinGenerateKey]

/-- Whatever succeeds exactly if its allocations do, and has the generated key then, is sound
exactly if the allocations or Argon2id decide it. -/
theorem setupSound_iff {s : AegisSettings} (hs : s.Admitted) {password : Bytes}
    (hpwd : password.length < 2 ^ 31)
    (hraw : sqlite3mcExtractRawKey password true (aegisKeyLength s.algorithm) 16 = none)
    {cipherSalt : Option Bytes} (hsalt : ∀ salt, cipherSalt = some salt → salt.length = 16)
    {env e : Env} (he : e.argon2 = env.argon2) {rc : ResultCode} {cipher : Option Cipher}
    {granted : Prop} {key₀ salt₀ : Bytes} {rekey : ℕ} (hrc : rc = .ok ↔ granted)
    (hcipher : rc = .ok → cipher = some (.aegis
      (generateKeyAegisCipher P (s.cipher key₀ salt₀) password rekey cipherSalt e).1)) :
    SetupSound P s password env rc cipher ↔
      (granted → s.Accepted ∧ env.argon2 0 = .enough) := by
  constructor
  · rintro ⟨-, hfail⟩ hgranted
    by_contra hrefused
    refine hfail (zeros 16) (length_zeros 16) ?_ (hrc.mpr hgranted)
    rwa [ne_eq, argon2Code_eq_ok_iff hs hpwd (length_zeros 16)]
  · intro haccept
    constructor
    · intro hok
      obtain ⟨ha, henough⟩ := haccept (hrc.mp hok)
      exact ⟨_, hcipher hok, generateKeyAegisCipher_isPageKey hs ha hpwd hraw hsalt
        (by rw [he]; exact henough) key₀ salt₀ rekey⟩
    · intro salt hlen hcode hok
      exact hcode ((argon2Code_eq_ok_iff hs hpwd hlen env).mpr (haccept (hrc.mp hok)))

/-- **When a setup with a passphrase is sound.** For every setting the configuration admits, every
passphrase and every outcome of Argon2id: the setup of a codec, for a key or an attach, and the
setup of a write cipher, for a rekey, are sound if and only if Argon2id accepts the settings and
has its resources, unless an allocation fails first. -/
theorem aegisSetup_sound_iff (P : Primitives) (codec : Codec Cipher) (password : Bytes)
    (dbHeader : Option Bytes) (usesWal : Bool) (env : Env) (hs : env.aegisSettings.Admitted)
    (hpwd : password.length < 2 ^ 31)
    (hraw :
      sqlite3mcExtractRawKey password true (aegisKeyLength env.aegisSettings.algorithm) 16 = none)
    (hsalt : ∀ salt, codec.keySalt.or dbHeader = some salt → salt.length = 16) :
    (codec.writeCipher = none →
      let result := sqlite3mcCodecSetup (builtinDescriptors P) codec 7 password dbHeader env
      ((SetupSound P env.aegisSettings password env result.1 result.2.1.readCipher ∧
          SetupSound P env.aegisSettings password env result.1 result.2.1.writeCipher) ↔
        (env.malloc 0 = true ∧ env.malloc 1 = true →
          env.aegisSettings.Accepted ∧ env.argon2 0 = .enough))) ∧
    let result :=
      sqlite3mcSetupWriteCipher (builtinDescriptors P) codec 7 password dbHeader usesWal env
    (SetupSound P env.aegisSettings password env result.1 result.2.1.writeCipher ↔
      (env.malloc 0 = true → env.aegisSettings.Accepted ∧ env.argon2 0 = .enough)) := by
  have he : (allocateAegisCipher (useCommonParameters env).2.2).2.argon2 = env.argon2 :=
    (allocateAegisCipher_env _).2
  constructor
  · intro hnew result
    obtain ⟨hrc, hcipher⟩ := sqlite3mcCodecSetup_aegis (P := P) hnew password dbHeader env
    rw [setupSound_iff hs hpwd hraw hsalt he hrc fun h => (hcipher h).1,
      setupSound_iff hs hpwd hraw hsalt he hrc fun h => (hcipher h).2, and_self]
  · obtain ⟨hrc, hcipher⟩ :=
      sqlite3mcSetupWriteCipher_aegis (P := P) codec password dbHeader usesWal env
    exact setupSound_iff hs hpwd hraw hsalt he hrc hcipher

end Derivation

/-! ### A key of zeros -/

/-- The parameter table of a connection with the cipher AEGIS, the given number of lanes being
pending. The other parameters have their defaults. -/
def aegisParams (pcost : ℤ) : List CodecParameter :=
  [⟨"global", 0, [⟨"cipher", 7, 3, 1, 7⟩, ⟨"hmac_check", 1, 1, 0, 1⟩,
      ⟨"mc_legacy_wal", 0, 0, 0, 1⟩]⟩,
    ⟨"aegis", 7, [⟨"tcost", 2, 2, 1, 0x7fffffff⟩, ⟨"mcost", 19456, 19456, 1, 0x7fffffff⟩,
      ⟨"pcost", pcost, 1, 1, 0x7fffffff⟩, ⟨"algorithm", 4, 4, 1, 6⟩,
      ⟨"plaintext_header_size", 0, 0, 0, 100⟩]⟩]

/-- An environment with these parameters in which everything that is asked for is granted. -/
def aegisEnv (pcost : ℤ) : Env where
  codecParams := aegisParams pcost
  cipherNames := builtinCipherNames
  malloc := fun _ => true
  random := fun _ => 0
  argon2 := fun _ => .enough

/-- With the default settings both setups are sound. -/
theorem aegisSetup_sound_defaults :
    let codec : Codec Cipher := sqlite3mcCodecInit
    let s := (aegisEnv 1).aegisSettings
    let key := sqlite3mcCodecSetup (builtinDescriptors nullPrimitives) codec 7 [0x61] none
      (aegisEnv 1)
    let rekey := sqlite3mcSetupWriteCipher (builtinDescriptors nullPrimitives) codec 7 [0x61] none
      false (aegisEnv 1)
    SetupSound nullPrimitives s [0x61] (aegisEnv 1) key.1 key.2.1.readCipher ∧
      SetupSound nullPrimitives s [0x61] (aegisEnv 1) rekey.1 rekey.2.1.writeCipher := by
  intro codec s key rekey
  have hs : s.Admitted := ⟨by decide, by decide, by decide, by decide, by decide⟩
  have haccept : s.Accepted := by decide
  obtain ⟨hkey, hrekey⟩ := aegisSetup_sound_iff nullPrimitives codec [0x61] none false
      (aegisEnv 1) hs
    (by decide) rfl (by rintro _ ⟨⟩)
  exact ⟨((hkey rfl).mpr fun _ => ⟨haccept, rfl⟩).1, hrekey.mpr fun _ => ⟨haccept, rfl⟩⟩

/-- **A key that does not depend on the passphrase.** With 4096 lanes and the default memory the
setup of a key is not sound, whatever the primitives are. -/
theorem aegisSetup_zero_key :
    ¬ ∃ P : Primitives,
      let result := sqlite3mcCodecSetup (builtinDescriptors P) (sqlite3mcCodecInit : Codec Cipher) 7
        [0x61] none (aegisEnv 4096)
      SetupSound P (aegisEnv 4096).aegisSettings [0x61] (aegisEnv 4096) result.1
        result.2.1.readCipher := by
  rintro ⟨P, -, hfail⟩
  have hs : (aegisEnv 4096).aegisSettings.Admitted :=
    ⟨by decide, by decide, by decide, by decide, by decide⟩
  refine hfail (zeros 16) (length_zeros 16) ?_ ?_
  · rw [ne_eq, argon2Code_eq_ok_iff hs (by decide) (length_zeros 16)]
    decide
  · exact (sqlite3mcCodecSetup_aegis rfl [0x61] none (aegisEnv 4096)).1.mpr ⟨rfl, rfl⟩

end MultipleCiphers
