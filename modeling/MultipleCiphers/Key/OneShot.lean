import MultipleCiphers.Config.OneShot
import MultipleCiphers.Key.Model

/-!
# Key operations use up their parameters

A cipher is set up with what is pending on the connection: the cipher itself, the common parameters
and those of the cipher. Reading a parameter resets it, so after the set-up all of them should have
their defaults again. A value that is left pending would be used for the next database.

The parameters of a cipher are read by its allocation. There is one allocation in a rekey and two
when a key is set, the second for the write cipher, which finds what the first has left. So what
matters is whether an allocation reads all parameters of its cipher. All do but that of SQLCipher,
which reads the size of the plaintext header only in version 4 and without a version; ChaCha20,
which has a parameter it does not use in its legacy mode either, reads that all the same.

## Main definitions

* `allocationReads`, `newCipher` — what an allocation reads, and the cipher it makes of it.
* `KeyOperation` — the two set-ups of a cipher.
* `UsedOnce` — what a set-up should do.

## Main results

* `builtinAllocate_some`, `builtinAllocate_tables` — an allocation as one step on the tables.
* `usedOnce_iff` — exactly when a set-up uses the parameters once.
* `usedOnce_version3` — a plaintext header that survives a rekey.
-/

namespace MultipleCiphers

open Bytes

/-! ### What an allocation reads -/

/-- The parameters a cipher type is allocated with, by the value of its parameter `legacy`. The
legacy versions of SQLCipher have no plaintext header. -/
def allocationReads (cipherType : ℕ) (legacy : ℤ) : List String :=
  match cipherType with
  | 1 => ["legacy", "legacy_page_size"]
  | 2 => ["legacy", "legacy_page_size", "kdf_iter"]
  | 3 => ["legacy", "legacy_page_size", "kdf_iter", "plaintext_header_size"]
  | 4 => ["legacy", "legacy_page_size", "kdf_iter", "fast_kdf_iter", "hmac_use", "hmac_pgno",
      "hmac_salt_mask", "kdf_algorithm", "hmac_algorithm", "hmac_algorithm_compat"] ++
        if legacy = 0 ∨ legacy ≥ sqlcipherVersion4 then ["plaintext_header_size"] else []
  | 5 => ["legacy", "legacy_page_size"]
  | 6 => ["kdf_iter", "plaintext_header_size"]
  | 7 => ["tcost", "mcost", "pcost", "algorithm", "plaintext_header_size"]
  | _ => []

/-- A new cipher with the given parameters, its keys and its salt zero. -/
def newCipher (cipherType : ℕ) (value : String → ℤ) : Option Cipher :=
  match cipherType with
  | 1 => some (.aes128 ⟨value "legacy", value "legacy_page_size", zeros 16⟩)
  | 2 => some (.aes256 ⟨value "legacy", value "legacy_page_size", value "kdf_iter", zeros 32⟩)
  | 3 => some (.chacha20 ⟨value "legacy", value "legacy_page_size",
      if value "legacy" ≠ 0 then sqleetKdfIter else value "kdf_iter",
      value "plaintext_header_size", zeros 32, zeros 16⟩)
  | 4 => some (.sqlcipher ⟨value "legacy", value "legacy_page_size", value "kdf_iter",
      value "fast_kdf_iter", value "hmac_use", value "hmac_pgno", value "hmac_salt_mask",
      value "kdf_algorithm", value "hmac_algorithm", value "hmac_algorithm_compat",
      if value "legacy" = 0 ∨ value "legacy" ≥ sqlcipherVersion4 then
        value "plaintext_header_size" else 0,
      zeros 32, zeros 16, zeros 32⟩)
  | 5 => some (.rc4 ⟨value "legacy", value "legacy_page_size", zeros 16⟩)
  | 6 => some (.ascon128 ⟨value "kdf_iter", value "plaintext_header_size", zeros 32, zeros 16⟩)
  | 7 => some (.aegis ⟨value "tcost", value "mcost", value "pcost", value "algorithm",
      value "plaintext_header_size", aegisKeyLength (value "algorithm"),
      aegisKeyLength (value "algorithm"), zeros (aegisKeyLength (value "algorithm")), zeros 16⟩)
  | _ => none

/-- What `AllocateXCipher` does to its environment when it succeeds: some allocations are granted,
and the parameters are read. -/
def Env.Allocates (env : Env) (cipherType : ℕ) (cipherName : String) (env' : Env) : Prop :=
  ∃ malloc, env' = ({ env with malloc } : Env).useParameters
    (env.sqlite3mcGetCipherParams cipherName)
    (allocationReads cipherType (env.pendingParameter cipherName "legacy"))

section Allocate

variable {env env' : Env}

theorem allocateAES128Cipher_some {c : AES128Cipher}
    (h : allocateAES128Cipher env = (some c, env')) :
    newCipher 1 (env.pendingParameter "aes128cbc") = some (.aes128 c) ∧
      env.Allocates 1 "aes128cbc" env' := by
  rcases h₁ : env.sqlite3Malloc.1 with _ | _
  · simp [allocateAES128Cipher, h₁] at h
  rcases h₂ : env.sqlite3Malloc.2.sqlite3Malloc.1 with _ | _
  · simp [allocateAES128Cipher, h₁, h₂] at h
  simp (disch := decide) only [allocateAES128Cipher, h₁, h₂, if_true,
    Env.getCipherParameter_other, Prod.mk.injEq, Option.some.injEq] at h
  obtain ⟨rfl, rfl⟩ := h
  exact ⟨rfl, _, rfl⟩

theorem allocateAES256Cipher_some {c : AES256Cipher}
    (h : allocateAES256Cipher env = (some c, env')) :
    newCipher 2 (env.pendingParameter "aes256cbc") = some (.aes256 c) ∧
      env.Allocates 2 "aes256cbc" env' := by
  rcases h₁ : env.sqlite3Malloc.1 with _ | _
  · simp [allocateAES256Cipher, h₁] at h
  rcases h₂ : env.sqlite3Malloc.2.sqlite3Malloc.1 with _ | _
  · simp [allocateAES256Cipher, h₁, h₂] at h
  simp (disch := decide) only [allocateAES256Cipher, h₁, h₂, if_true,
    Env.getCipherParameter_other, Prod.mk.injEq, Option.some.injEq] at h
  obtain ⟨rfl, rfl⟩ := h
  exact ⟨rfl, _, rfl⟩

theorem allocateChaCha20Cipher_some {c : ChaCha20Cipher}
    (h : allocateChaCha20Cipher env = (some c, env')) :
    newCipher 3 (env.pendingParameter "chacha20") = some (.chacha20 c) ∧
      env.Allocates 3 "chacha20" env' := by
  rcases h₁ : env.sqlite3Malloc.1 with _ | _
  · simp [allocateChaCha20Cipher, h₁] at h
  simp (disch := decide) only [allocateChaCha20Cipher, h₁, if_true, Env.getCipherParameter_other,
    Prod.mk.injEq, Option.some.injEq] at h
  obtain ⟨rfl, rfl⟩ := h
  exact ⟨rfl, _, rfl⟩

theorem allocateSQLCipherCipher_some {c : SQLCipherCipher}
    (h : allocateSQLCipherCipher env = (some c, env')) :
    newCipher 4 (env.pendingParameter "sqlcipher") = some (.sqlcipher c) ∧
      env.Allocates 4 "sqlcipher" env' := by
  rcases h₁ : env.sqlite3Malloc.1 with _ | _
  · simp [allocateSQLCipherCipher, h₁] at h
  rcases h₂ : env.sqlite3Malloc.2.sqlite3Malloc.1 with _ | _
  · simp [allocateSQLCipherCipher, h₁, h₂] at h
  -- the environment in which the parameters are read
  obtain ⟨env₁, henv₁⟩ : ∃ e, e = env.sqlite3Malloc.2.sqlite3Malloc.2 := ⟨_, rfl⟩
  simp (disch := decide) only [allocateSQLCipherCipher, h₁, h₂, if_true, ← henv₁,
    Env.getCipherParameter_other] at h
  by_cases hlegacy : (env₁.getCipherParameter (env₁.sqlite3mcGetCipherParams "sqlcipher")
      "legacy").1 = 0 ∨ (env₁.getCipherParameter (env₁.sqlite3mcGetCipherParams "sqlcipher")
      "legacy").1 ≥ sqlcipherVersion4
  · simp (disch := decide) only [if_pos hlegacy, Env.getCipherParameter_other, Prod.mk.injEq,
      Option.some.injEq] at h
    obtain ⟨rfl, rfl⟩ := h
    subst henv₁
    have hpending : env.pendingParameter "sqlcipher" "legacy" = 0 ∨
        env.pendingParameter "sqlcipher" "legacy" ≥ sqlcipherVersion4 := hlegacy
    refine ⟨?_, env.sqlite3Malloc.2.sqlite3Malloc.2.malloc, ?_⟩
    · rw [newCipher, if_pos hpending]
      rfl
    · rw [allocationReads, if_pos hpending]
      rfl
  · simp only [if_neg hlegacy, Prod.mk.injEq, Option.some.injEq] at h
    obtain ⟨rfl, rfl⟩ := h
    subst henv₁
    have hpending : ¬(env.pendingParameter "sqlcipher" "legacy" = 0 ∨
        env.pendingParameter "sqlcipher" "legacy" ≥ sqlcipherVersion4) := hlegacy
    refine ⟨?_, env.sqlite3Malloc.2.sqlite3Malloc.2.malloc, ?_⟩
    · rw [newCipher, if_neg hpending]
      rfl
    · rw [allocationReads, if_neg hpending]
      rfl

theorem allocateRC4Cipher_some {c : RC4Cipher}
    (h : allocateRC4Cipher env = (some c, env')) :
    newCipher 5 (env.pendingParameter "rc4") = some (.rc4 c) ∧
      env.Allocates 5 "rc4" env' := by
  rcases h₁ : env.sqlite3Malloc.1 with _ | _
  · simp [allocateRC4Cipher, h₁] at h
  simp (disch := decide) only [allocateRC4Cipher, h₁, if_true, Env.getCipherParameter_other,
    Prod.mk.injEq, Option.some.injEq] at h
  obtain ⟨rfl, rfl⟩ := h
  exact ⟨rfl, _, rfl⟩

theorem allocateAscon128Cipher_some {c : Ascon128Cipher}
    (h : allocateAscon128Cipher env = (some c, env')) :
    newCipher 6 (env.pendingParameter "ascon128") = some (.ascon128 c) ∧
      env.Allocates 6 "ascon128" env' := by
  rcases h₁ : env.sqlite3Malloc.1 with _ | _
  · simp [allocateAscon128Cipher, h₁] at h
  simp (disch := decide) only [allocateAscon128Cipher, h₁, if_true, Env.getCipherParameter_other,
    Prod.mk.injEq, Option.some.injEq] at h
  obtain ⟨rfl, rfl⟩ := h
  exact ⟨rfl, _, rfl⟩

theorem allocateAegisCipher_some {c : AegisCipher}
    (h : allocateAegisCipher env = (some c, env')) :
    newCipher 7 (env.pendingParameter "aegis") = some (.aegis c) ∧
      env.Allocates 7 "aegis" env' := by
  rcases h₁ : env.sqlite3Malloc.1 with _ | _
  · simp [allocateAegisCipher, h₁] at h
  simp (disch := decide) only [allocateAegisCipher, h₁, if_true, Env.getCipherParameter_other,
    Prod.mk.injEq, Option.some.injEq] at h
  obtain ⟨rfl, rfl⟩ := h
  exact ⟨rfl, _, rfl⟩

/-- **A successful allocation** makes the cipher of the pending parameters and reads these. -/
theorem builtinAllocate_some {t : ℕ} {c : Cipher} (h : builtinAllocate t env = (some c, env')) :
    (1 ≤ t ∧ t ≤ 7) ∧ newCipher t (env.pendingParameter (builtinName t)) = some c ∧
      env.Allocates t (builtinName t) env' := by
  match t, h with
  | 1, h =>
    obtain ⟨a, ha, rfl⟩ := wrapAllocate_some .aes128 allocateAES128Cipher h
    exact ⟨by decide, allocateAES128Cipher_some ha⟩
  | 2, h =>
    obtain ⟨a, ha, rfl⟩ := wrapAllocate_some .aes256 allocateAES256Cipher h
    exact ⟨by decide, allocateAES256Cipher_some ha⟩
  | 3, h =>
    obtain ⟨a, ha, rfl⟩ := wrapAllocate_some .chacha20 allocateChaCha20Cipher h
    exact ⟨by decide, allocateChaCha20Cipher_some ha⟩
  | 4, h =>
    obtain ⟨a, ha, rfl⟩ := wrapAllocate_some .sqlcipher allocateSQLCipherCipher h
    exact ⟨by decide, allocateSQLCipherCipher_some ha⟩
  | 5, h =>
    obtain ⟨a, ha, rfl⟩ := wrapAllocate_some .rc4 allocateRC4Cipher h
    exact ⟨by decide, allocateRC4Cipher_some ha⟩
  | 6, h =>
    obtain ⟨a, ha, rfl⟩ := wrapAllocate_some .ascon128 allocateAscon128Cipher h
    exact ⟨by decide, allocateAscon128Cipher_some ha⟩
  | 7, h =>
    obtain ⟨a, ha, rfl⟩ := wrapAllocate_some .aegis allocateAegisCipher h
    exact ⟨by decide, allocateAegisCipher_some ha⟩
  | 0, h => simp [builtinAllocate] at h
  | n + 8, h => simp [builtinAllocate] at h

end Allocate

/-! ### What an allocation leaves behind -/

/-- Whether the allocation of a cipher leaves the plaintext header alone, by the value of `legacy`:
the versions 1 to 3 of SQLCipher have none. -/
def skipsHeader (cipherType : ℕ) (legacy : ℤ) : Bool :=
  cipherType = 4 ∧ ¬(legacy = 0 ∨ legacy ≥ sqlcipherVersion4)

/-- A parameter after an allocation. -/
def CipherParams.usedUp (skips : Bool) (p : CipherParams) : CipherParams :=
  if skips ∧ p.name = "plaintext_header_size" then p else p.reset

theorem CipherParams.usedUp_usedUp (skips skips' : Bool) (p : CipherParams) :
    (p.usedUp skips).usedUp skips' = p.usedUp (skips && skips') := by
  by_cases hname : p.name = "plaintext_header_size" <;> cases skips <;> cases skips' <;>
    simp [usedUp, hname]

theorem map_usedUp_map_usedUp (skips skips' : Bool) (params : List CipherParams) :
    (params.map (CipherParams.usedUp skips)).map (CipherParams.usedUp skips') =
      params.map (CipherParams.usedUp (skips && skips')) := by
  rw [List.map_map]
  exact List.map_congr_left fun p _ => p.usedUp_usedUp skips skips'

theorem resetIfNamed_allocationReads {t : ℕ} (ht : 1 ≤ t ∧ t ≤ 7) {p : CipherParams}
    (hp : p.name ∈ builtinParamNames t) (legacy : ℤ) :
    p.resetIfNamed (allocationReads t legacy) = p.usedUp (skipsHeader t legacy) := by
  have hread : ∀ t ≤ 7, 1 ≤ t → ∀ name ∈ builtinParamNames t,
      (allocationReads t 0).any (sqlite3Stricmp · name) = true := by
    decide
  have hskip : ∀ name ∈ builtinParamNames 4, (allocationReads 4 1).any (sqlite3Stricmp · name) =
      !decide (name = "plaintext_header_size") := by
    decide
  by_cases hs : skipsHeader t legacy = true
  · obtain ⟨rfl, hlegacy⟩ : t = 4 ∧ ¬(legacy = 0 ∨ legacy ≥ sqlcipherVersion4) := by
      simpa [skipsHeader] using hs
    have hreads : allocationReads 4 legacy = allocationReads 4 1 := by
      rw [allocationReads, allocationReads, if_neg hlegacy, if_neg (by decide)]
    rw [CipherParams.resetIfNamed, hreads, hskip p.name hp, CipherParams.usedUp, hs]
    by_cases hname : p.name = "plaintext_header_size" <;> simp [hname]
  · have hreads : allocationReads t legacy = allocationReads t 0 := by
      by_cases h4 : t = 4
      · subst h4
        have hlegacy : legacy = 0 ∨ legacy ≥ sqlcipherVersion4 := by
          by_contra hno
          exact hs (by simpa [skipsHeader] using hno)
        rw [allocationReads, allocationReads, if_pos hlegacy, if_pos (Or.inl rfl)]
      · -- the other reads do not depend on the value
        obtain ⟨hlow, hhigh⟩ := ht
        interval_cases t <;> first | rfl | exact absurd rfl h4
    rw [CipherParams.resetIfNamed, hreads, hread t ht.2 ht.1 p.name hp, if_pos rfl,
      CipherParams.usedUp, Bool.eq_false_of_not_eq_true hs]
    simp

/-- What is left of a list of parameters is the defaults, unless the header is skipped. -/
theorem map_usedUp_eq_reset_iff {skips : Bool} {params : List CipherParams} :
    params.map (CipherParams.usedUp skips) = params.map CipherParams.reset ↔
      skips = false ∨ ∀ p ∈ params, p.name = "plaintext_header_size" → p.value = p.default := by
  rw [List.map_inj_left]
  constructor
  · intro h
    rcases hs : skips with _ | _
    · exact Or.inl rfl
    · refine Or.inr fun p hp hname => ?_
      have hp := h p hp
      rw [CipherParams.usedUp, hs, if_pos ⟨rfl, hname⟩] at hp
      exact CipherParams.reset_eq_self_iff.mp hp.symm
  · rintro h p hp
    rw [CipherParams.usedUp]
    split
    · rename_i hname
      rcases h with h | h
      · rw [h] at hname
        exact absurd hname.1 (by decide)
      · exact (CipherParams.reset_eq_self_iff.mpr (h p hp hname.2)).symm
    · rfl

/-- Nothing is lost exactly if all that is read has its default. -/
theorem map_usedUp_eq_self_iff {skips : Bool} {params : List CipherParams} :
    params.map (CipherParams.usedUp skips) = params ↔
      ∀ p ∈ params, skips = true ∧ p.name = "plaintext_header_size" ∨ p.value = p.default := by
  have hself : params.map (CipherParams.usedUp skips) = params ↔
      params.map (CipherParams.usedUp skips) = params.map id := by
    rw [List.map_id]
  rw [hself, List.map_inj_left]
  refine forall₂_congr fun p _ => ?_
  rw [CipherParams.usedUp, id_eq]
  split
  · rename_i hname
    exact iff_of_true rfl (Or.inl hname)
  · rename_i hname
    rw [CipherParams.reset_eq_self_iff]
    exact (or_iff_right hname).symm

/-- The value of a parameter after an allocation that has read it. -/
theorem sqlite3mcGetCipherParameter_usedUp (skips : Bool) (params : List CipherParams)
    {name : String} (hname : sqlite3Stricmp name "plaintext_header_size" = false) :
    (sqlite3mcGetCipherParameter (params.map (CipherParams.usedUp skips)) name).1 =
      ((findParameter params name).map CipherParams.default).getD (-1) := by
  induction params with
  | nil => rfl
  | cons p ps ih =>
    have hused : (p.usedUp skips).name = p.name := by
      rw [CipherParams.usedUp]
      split <;> rfl
    by_cases hp : sqlite3Stricmp name p.name = true
    · have hreset : p.usedUp skips = p.reset := by
        rw [CipherParams.usedUp, if_neg]
        rintro ⟨-, hheader⟩
        rw [hheader, hname] at hp
        cases hp
      have hfind : findParameter (p :: ps) name = some p := by
        rw [findParameter, List.find?_cons, hp]
      rw [List.map_cons, sqlite3mcGetCipherParameter, useParameter, hused, if_pos hp, hreset, hfind]
      rfl
    · have hfind : findParameter (p :: ps) name = findParameter ps name := by
        rw [findParameter, List.find?_cons, Bool.eq_false_of_not_eq_true hp]
        rfl
      rw [hfind, ← ih, List.map_cons, sqlite3mcGetCipherParameter, sqlite3mcGetCipherParameter,
        useParameter, hused, if_neg hp]
      rcases useParameter (ps.map (CipherParams.usedUp skips)) name with _ | r <;> rfl

/-! ### The tables after the steps of a key operation -/

/-- The default of a parameter of a cipher. -/
def Env.defaultParameter (env : Env) (cipherName paramName : String) : ℤ :=
  ((findParameter (env.paramsAt (env.sqlite3mcGetCipherParams cipherName)) paramName).map
    CipherParams.default).getD (-1)

section Steps

variable {P : Primitives} {env env' : Env} {t : ℕ}

/-- The flag of an allocation in the present state of the connection. -/
def Env.skipsHeader (env : Env) (cipherType : ℕ) : Bool :=
  MultipleCiphers.skipsHeader cipherType (env.pendingParameter (builtinName cipherType) "legacy")

/-- The tables after the parameters of a cipher have been read. -/
def Env.afterAllocation (env : Env) (cipherType : ℕ) : Env :=
  env.setParamsAt cipherType
    ((env.paramsAt cipherType).map (CipherParams.usedUp (env.skipsHeader cipherType)))

/-- **What an allocation does to the tables.** -/
theorem builtinAllocate_tables (h : env.HasBuiltinParams) {c : Cipher}
    (hal : builtinAllocate t env = (some c, env')) :
    (env.afterAllocation t).SameTables env' ∧ env'.random = env.random ∧
      env'.argon2 = env.argon2 := by
  obtain ⟨ht, -, malloc, rfl⟩ := builtinAllocate_some hal
  have hdistinct : DistinctNames (({ env with malloc } : Env).paramsAt t) := h.distinctNames ht.2
  rw [h.position ht, Env.useParameters_eq hdistinct]
  have hparams : resetNamed (allocationReads t (env.pendingParameter (builtinName t) "legacy"))
      (env.paramsAt t) = (env.paramsAt t).map (CipherParams.usedUp (env.skipsHeader t)) := by
    refine List.map_congr_left fun p hp => ?_
    have hname : p.name ∈ builtinParamNames t := by
      rw [← h.names_paramsAt ht.2]
      exact List.mem_map_of_mem hp
    exact resetIfNamed_allocationReads ht hname _
  refine ⟨⟨?_, rfl⟩, rfl, rfl⟩
  rw [Env.afterAllocation, ← hparams]
  rfl

theorem saltForKey_tables (plaintextHeaderSize : ℤ) (saltLength rekey : ℕ)
    (cipherSalt : Option Bytes) (env : Env) :
    env.SameTables (saltForKey plaintextHeaderSize saltLength rekey cipherSalt env).2.2 := by
  unfold saltForKey
  dsimp only
  split <;> exact ⟨rfl, rfl⟩

theorem saltedKey_tables (plaintextHeaderSize : ℤ) (keyLength saltLength : ℕ) (kdf : Bytes → Bytes)
    (password : Bytes) (rekey : ℕ) (cipherSalt : Option Bytes) (env : Env) :
    env.SameTables (saltedKey plaintextHeaderSize keyLength saltLength kdf password rekey cipherSalt
      env).2.2 := by
  have hsalt := saltForKey_tables plaintextHeaderSize saltLength rekey cipherSalt env
  unfold saltedKey
  dsimp only
  split <;> exact hsalt

theorem argon2idHashRaw_tables (tCost mCost lanes : ℕ) (pwd salt : Bytes) (hashLen : ℕ)
    (env : Env) :
    env.SameTables (argon2idHashRaw P tCost mCost lanes pwd salt hashLen env).2.2 := by
  have hgrant : env.SameTables env.argon2Grant.2 := ⟨rfl, rfl⟩
  simp only [argon2idHashRaw]
  split_ifs
  · exact hgrant
  · exact hgrant
  · exact hgrant
  · exact hgrant
  · exact hgrant
  · -- whatever the checks and the resources say
    split
    · split <;> exact hgrant
    · exact hgrant

/-- Generating a key does not touch the tables. -/
theorem builtinGenerateKey_tables (c : Cipher) (password : Bytes) (rekey : ℕ)
    (cipherSalt : Option Bytes) (env : Env) :
    env.SameTables (builtinGenerateKey P c password rekey cipherSalt env).2 := by
  cases c with
  | aes128 c => exact Env.SameTables.refl env
  | aes256 c => exact Env.SameTables.refl env
  | chacha20 c =>
    simp only [builtinGenerateKey, generateKeyChaCha20Cipher, Prod.map, id_eq]
    exact saltedKey_tables _ _ _ _ _ _ _ env
  | sqlcipher c =>
    simp only [builtinGenerateKey, generateKeySQLCipherCipher, Prod.map, id_eq]
    exact saltedKey_tables _ _ _ _ _ _ _ env
  | rc4 c => exact Env.SameTables.refl env
  | ascon128 c =>
    simp only [builtinGenerateKey, generateKeyAscon128Cipher, Prod.map, id_eq]
    exact saltedKey_tables _ _ _ _ _ _ _ env
  | aegis c =>
    have hsalt := saltForKey_tables c.plaintextHeaderSize 16 rekey cipherSalt env
    simp only [builtinGenerateKey, generateKeyAegisCipher, Prod.map, id_eq]
    split
    · exact hsalt
    · exact hsalt.trans (argon2idHashRaw_tables _ _ _ _ _ _ _)

theorem pendingParameter_setParamsAt_ne {cipherName : String} {j : ℕ}
    (hj : env.sqlite3mcGetCipherParams cipherName ≠ j) (params : List CipherParams) :
    (env.setParamsAt j params).pendingParameter cipherName = env.pendingParameter cipherName := by
  funext paramName
  rw [Env.pendingParameter, Env.pendingParameter, Env.sqlite3mcGetCipherParams_setParamsAt,
    Env.paramsAt_setParamsAt, if_neg fun h => hj h.1.symm]

/-- The tables after the common parameters have been read. -/
def Env.afterCommon (env : Env) : Env :=
  env.setParamsAt 0 ((env.paramsAt 0).map CipherParams.reset)

/-- Looking up the pending cipher and reading the other common parameters resets them all. -/
theorem useCommonParameters_tables (h : env.HasBuiltinParams) :
    (useCommonParameters env.sqlite3mcGetCipherType.2).2.2 = env.afterCommon := by
  have hposition : env.sqlite3mcGetCipherType.2.sqlite3mcGetCipherParams "global" = 0 := by
    rw [Env.sqlite3mcGetCipherType, Env.sqlite3mcGetCipherParams_setParamsAt, h.position_global]
  have hreads : (useCommonParameters env.sqlite3mcGetCipherType.2).2.2 =
      env.useParameters 0 ["cipher", "hmac_check", "mc_legacy_wal"] := by
    rw [useCommonParameters, hposition, Env.sqlite3mcGetCipherType_env]
    rfl
  have hall : ∀ name ∈ builtinParamNames 0,
      ["cipher", "hmac_check", "mc_legacy_wal"].any (sqlite3Stricmp · name) = true := by
    decide
  rw [hreads, Env.useParameters_eq (h.distinctNames (Nat.zero_le 7)), Env.afterCommon]
  congr 1
  refine List.map_congr_left fun p hp => ?_
  have hname : p.name ∈ builtinParamNames 0 := by
    rw [← h.names_paramsAt (Nat.zero_le 7)]
    exact List.mem_map_of_mem hp
  rw [CipherParams.resetIfNamed, if_pos (hall p.name hname)]

/-- What is read of the common parameters is what was pending. -/
theorem useCommonParameters_values (h : env.HasBuiltinParams) :
    (useCommonParameters env.sqlite3mcGetCipherType.2).1 =
        env.pendingParameter "global" "hmac_check" ∧
      (useCommonParameters env.sqlite3mcGetCipherType.2).2.1 =
        env.pendingParameter "global" "mc_legacy_wal" := by
  have hposition : env.sqlite3mcGetCipherType.2.sqlite3mcGetCipherParams "global" = 0 := by
    rw [Env.sqlite3mcGetCipherType, Env.sqlite3mcGetCipherParams_setParamsAt, h.position_global]
  rw [useCommonParameters, hposition, Env.sqlite3mcGetCipherType_env]
  simp (disch := decide) only [Env.getCipherParameter_other, Env.pendingParameter,
    h.position_global]
  exact ⟨rfl, rfl⟩

theorem Env.HasBuiltinParams.afterCommon (h : env.HasBuiltinParams) :
    env.afterCommon.HasBuiltinParams := by
  refine h.setParamsAt ?_
  rw [List.map_map]
  rfl

theorem Env.HasBuiltinParams.afterAllocation (h : env.HasBuiltinParams) (t : ℕ) :
    (env.afterAllocation t).HasBuiltinParams := by
  refine h.setParamsAt ?_
  rw [List.map_map]
  refine List.map_congr_left fun p _ => ?_
  rw [Function.comp_apply, CipherParams.usedUp]
  split <;> rfl

theorem Env.SameTables.skipsHeader (h : env.SameTables env') (t : ℕ) :
    env'.skipsHeader t = env.skipsHeader t := by
  rw [Env.skipsHeader, Env.skipsHeader, h.pendingParameter]

theorem Env.SameTables.afterAllocation (h : env.SameTables env') (t : ℕ) :
    (env.afterAllocation t).SameTables (env'.afterAllocation t) := by
  rw [Env.afterAllocation, Env.afterAllocation, h.skipsHeader, h.paramsAt]
  exact h.setParamsAt t _

theorem Env.afterCommon_paramsAt_of_pos (env : Env) (ht : 1 ≤ t) :
    env.afterCommon.paramsAt t = env.paramsAt t := by
  rw [Env.afterCommon, Env.paramsAt_setParamsAt, if_neg fun h => by omega]

theorem Env.afterAllocation_paramsAt_of_ne (env : Env) {j : ℕ} (hj : t ≠ j) :
    (env.afterAllocation t).paramsAt j = env.paramsAt j := by
  rw [Env.afterAllocation, Env.paramsAt_setParamsAt, if_neg fun h => hj h.1]

namespace Env.HasBuiltinParams

theorem afterAllocation_paramsAt (h : env.HasBuiltinParams) (ht : t ≤ 7) :
    (env.afterAllocation t).paramsAt t =
      (env.paramsAt t).map (CipherParams.usedUp (env.skipsHeader t)) := by
  have hlength := h.length_codecParams
  rw [Env.afterAllocation, Env.paramsAt_setParamsAt, if_pos ⟨rfl, by omega⟩]

theorem afterCommon_paramsAt (h : env.HasBuiltinParams) :
    env.afterCommon.paramsAt 0 = (env.paramsAt 0).map .reset := by
  have hlength := h.length_codecParams
  rw [Env.afterCommon, Env.paramsAt_setParamsAt, if_pos ⟨rfl, by omega⟩]

/-- The common reads leave the parameters of the ciphers pending. -/
theorem afterCommon_pendingParameter (h : env.HasBuiltinParams) (ht : 1 ≤ t ∧ t ≤ 7) :
    env.afterCommon.pendingParameter (builtinName t) = env.pendingParameter (builtinName t) := by
  refine pendingParameter_setParamsAt_ne ?_ _
  rw [h.position ht]
  omega

theorem afterCommon_skipsHeader (h : env.HasBuiltinParams) (ht : 1 ≤ t ∧ t ≤ 7) :
    env.afterCommon.skipsHeader t = env.skipsHeader t := by
  rw [Env.skipsHeader, Env.skipsHeader, h.afterCommon_pendingParameter ht]

theorem afterCommon_defaultParameter (h : env.HasBuiltinParams) (ht : 1 ≤ t ∧ t ≤ 7)
    (paramName : String) :
    env.afterCommon.defaultParameter (builtinName t) paramName =
      env.defaultParameter (builtinName t) paramName := by
  rw [Env.defaultParameter, Env.defaultParameter, h.afterCommon.position ht, h.position ht,
    env.afterCommon_paramsAt_of_pos ht.1]

/-- The flag of a second allocation is that of the defaults. -/
theorem afterAllocation_skipsHeader (h : env.HasBuiltinParams) (ht : 1 ≤ t ∧ t ≤ 7) :
    (env.afterAllocation t).skipsHeader t =
      MultipleCiphers.skipsHeader t (env.defaultParameter (builtinName t) "legacy") := by
  rw [Env.skipsHeader, Env.pendingParameter, (h.afterAllocation t).position ht,
    h.afterAllocation_paramsAt ht.2, sqlite3mcGetCipherParameter_usedUp _ _ (by decide),
    Env.defaultParameter, h.position ht]

end Env.HasBuiltinParams

end Steps

/-! ### Setting up a cipher -/

/-- The operations that set up a cipher with what is pending. -/
inductive KeyOperation (σ : Type) where
  /-- A key is given, with the salt of the parameter `cipher_salt`. The codec is new. -/
  | key (keySalt : Option Bytes)
  /-- The key is changed. The codec is that of the file, or a new one. -/
  | rekey (codec : Codec σ) (usesWal : Bool)

namespace KeyOperation

variable {σ : Type}

/-- The set-up of the cipher: the pending cipher is looked up, then the codec is set up with it. -/
def setUp (D : ℕ → CipherDescriptor σ) (op : KeyOperation σ) (password : Bytes)
    (dbHeader : Option Bytes) (env : Env) : ResultCode × Codec σ × Env :=
  let (cipherType, env) := env.sqlite3mcGetCipherType
  match op with
  | key keySalt =>
    sqlite3mcCodecSetup D { sqlite3mcCodecInit with keySalt } cipherType password dbHeader env
  | rekey codec usesWal =>
    sqlite3mcSetupWriteCipher D codec cipherType password dbHeader usesWal env

/-- The argument `rekey` of the key generation. -/
def rekeyArgument : KeyOperation σ → ℕ
  | key _ => 0
  | rekey _ usesWal => if usesWal then 2 else 1

/-- The salt given to the key generation: the one of `cipher_salt`, or that of the file. -/
def salt (op : KeyOperation σ) (dbHeader : Option Bytes) : Option Bytes :=
  match op with
  | key keySalt => keySalt.or dbHeader
  | rekey codec _ => codec.keySalt.or dbHeader

/-- `attachSetup` is the set-up for a key. -/
theorem attachSetup_eq {π : Type} (D : ℕ → CipherDescriptor σ) (ops : StorageOps σ π)
    (target : KeyTarget σ) (password : Bytes) (store : π) (env : Env) :
    attachSetup D ops target password store env =
      let configured := if target.isMain then (.ok, env) else target.configureFromUri false env
      if configured.1 = .ok then
        let r := (key (keySaltOfText target.cipherSalt)).setUp D password
          (ops.readDatabaseHeader store) configured.2
        (r.1, sqlite3mcClearKeySalt r.2.1, r.2.2)
      else (configured.1, { sqlite3mcCodecInit with keySalt := keySaltOfText target.cipherSalt },
        configured.2) :=
  rfl

/-- The re-encryption of a database begins with the set-up for a rekey. -/
theorem reencryptWork_eq {π : Type} (D : ℕ → CipherDescriptor σ) (ops : StorageOps σ π)
    (codec : Codec σ) (password : Bytes) (store : π) (env : Env) :
    reencryptWork D ops codec password store env =
      let r := (rekey codec (ops.pagerUseWal store)).setUp D password
        (ops.readDatabaseHeader store) env
      if r.1 = .ok then
        if writePageSizeAgrees D ops r.2.1 store then
          let nReserved := sqlite3mcGetReservedWriteCipher D r.2.1
          rewriteWith ops (ops.btreeGetReserve store) nReserved
            (ops.btreeGetReserve store ≠ nReserved) r.2.1 store r.2.2
        else ⟨.error, r.2.1, store, r.2.2⟩
      else ⟨r.1, r.2.1, store, r.2.2⟩ :=
  rfl

/-- The encryption of a plaintext database begins with it too, on a new codec. -/
theorem rekeyPlaintext_eq {π : Type} (D : ℕ → CipherDescriptor σ) (ops : StorageOps σ π)
    (password : Bytes) (store : π) (env : Env) :
    rekeyPlaintext D ops password ⟨none, store, env⟩ =
      if env.sqlite3Malloc.1 then
        let r := (rekey sqlite3mcCodecInit (ops.pagerUseWal store)).setUp D password
          (ops.readDatabaseHeader store) env.sqlite3Malloc.2
        if r.1 = .ok then leaveRekey D ops (encryptWork D ops r.2.1 store r.2.2)
        else some (r.1, ⟨none, store, r.2.2⟩)
      else some (.nomem, ⟨none, store, env.sqlite3Malloc.2⟩) :=
  rfl

end KeyOperation

section Inversion

variable {σ : Type} {D : ℕ → CipherDescriptor σ} {cipherType : ℤ} {password : Bytes}
  {dbHeader : Option Bytes} {env env' : Env} {codec' : Codec σ}

/-- What a set-up for a key has done when it succeeds. -/
theorem sqlite3mcCodecSetup_ok {keySalt : Option Bytes}
    (h : sqlite3mcCodecSetup D { sqlite3mcCodecInit with keySalt } cipherType password dbHeader
      env = (.ok, codec', env')) :
    ∃ c env₁ w, (D cipherType.toNat).allocateCipher (useCommonParameters env).2.2 =
        (some c, env₁) ∧
      let keyed := (D cipherType.toNat).generateKey c password 0 (keySalt.or dbHeader) env₁
      (D cipherType.toNat).allocateCipher keyed.2 = (some w, env') ∧
        codec' = { (sqlite3mcCodecInit : Codec σ) with
          isEncrypted := true
          hmacCheck := (useCommonParameters env).1
          walLegacy := (useCommonParameters env).2.1
          hasReadCipher := true
          hasWriteCipher := true
          readCipherType := cipherType.toNat
          readCipher := some keyed.1
          writeCipherType := cipherType.toNat
          writeCipher := some keyed.1
          keySalt } := by
  unfold sqlite3mcCodecSetup at h
  split at h
  · simp at h
  · rcases hal : (D cipherType.toNat).allocateCipher (useCommonParameters env).2.2
      with ⟨_ | c, env₁⟩
    · simp [hal] at h
    · simp only [hal] at h
      rcases hg : sqlite3mcGenerateReadKey D cipherType.toNat c password keySalt dbHeader env₁
        with ⟨r, env₂⟩
      rw [hg] at h
      dsimp only at h
      rw [sqlite3mcCopyReadToWrite_eq (r := r) rfl] at h
      have hcopy : cipherForCopy D 0 none cipherType.toNat env₂ =
          (D cipherType.toNat).allocateCipher env₂ := if_neg fun hno => by cases hno.2
      dsimp only [sqlite3mcCodecInit] at h
      rw [hcopy] at h
      rw [sqlite3mcGenerateReadKey] at hg
      rcases hal₂ : (D cipherType.toNat).allocateCipher env₂ with ⟨_ | w, env₃⟩
      · simp [hal₂] at h
      · simp only [hal₂, Option.isSome_some, if_true, Option.map_some, Prod.mk.injEq, true_and] at h
        obtain ⟨rfl, rfl⟩ := h
        refine ⟨c, env₁, w, rfl, ?_⟩
        rw [hg]
        exact ⟨hal₂, rfl⟩

/-- What a set-up for a rekey has done when it succeeds. -/
theorem sqlite3mcSetupWriteCipher_ok {codec : Codec σ} {usesWal : Bool}
    (h : sqlite3mcSetupWriteCipher D codec cipherType password dbHeader usesWal env =
      (.ok, codec', env')) :
    ∃ c env₁, (D cipherType.toNat).allocateCipher (useCommonParameters env).2.2 =
        (some c, env₁) ∧
      let keyed := (D cipherType.toNat).generateKey c password (if usesWal then 2 else 1)
        (codec.keySalt.or dbHeader) env₁
      keyed.2 = env' ∧
        codec' = { codec with
          isEncrypted := true
          hmacCheck := (useCommonParameters env).1
          walLegacy := (useCommonParameters env).2.1
          hasWriteCipher := true
          writeCipherType := cipherType.toNat
          writeCipher := some keyed.1 } := by
  unfold sqlite3mcSetupWriteCipher at h
  split at h
  · simp at h
  · rcases hal : (D cipherType.toNat).allocateCipher (useCommonParameters env).2.2
      with ⟨_ | c, env₁⟩
    · simp [hal] at h
    · simp only [hal, Prod.mk.injEq, true_and] at h
      obtain ⟨rfl, rfl⟩ := h
      exact ⟨c, env₁, rfl, rfl, rfl⟩

end Inversion

/-! ### Used once -/

/-- The number of the pending cipher. -/
def Env.pendingCipher (env : Env) : ℕ := env.sqlite3mcGetCipherType.1.toNat

/-- Whether the set-up leaves the plaintext header alone. For a key there is a second allocation,
with the defaults. -/
def KeyOperation.leavesHeader {σ : Type} (op : KeyOperation σ) (env : Env) : Bool :=
  match op with
  | key _ => env.skipsHeader env.pendingCipher && skipsHeader env.pendingCipher
      (env.defaultParameter (builtinName env.pendingCipher) "legacy")
  | rekey _ _ => env.skipsHeader env.pendingCipher

/-- **The parameters have been used exactly once**: the common ones and those of the cipher have
their defaults again, and the codec has the settings and the cipher that were pending. -/
structure UsedOnce (P : Primitives) (op : KeyOperation Cipher) (password : Bytes)
    (dbHeader : Option Bytes) (env : Env) (codec' : Codec Cipher) (env' : Env) : Prop where
  common : env'.paramsAt 0 = (env.paramsAt 0).map .reset
  cipher : env'.paramsAt env.pendingCipher = (env.paramsAt env.pendingCipher).map .reset
  settings : codec'.hmacCheck = env.pendingParameter "global" "hmac_check" ∧
    codec'.walLegacy = env.pendingParameter "global" "mc_legacy_wal" ∧
      codec'.writeCipherType = env.pendingCipher
  built : ∃ new env₁, newCipher env.pendingCipher
      (env.pendingParameter (builtinName env.pendingCipher)) = some new ∧
    env₁.random = env.random ∧ env₁.argon2 = env.argon2 ∧ codec'.writeCipher =
      some (builtinGenerateKey P new password op.rekeyArgument (op.salt dbHeader) env₁).1
  copied : ∀ keySalt, op = .key keySalt → codec'.readCipherType = codec'.writeCipherType ∧
    codec'.readCipher = codec'.writeCipher

section UsedOnce

variable {P : Primitives} {op : KeyOperation Cipher} {password : Bytes} {dbHeader : Option Bytes}
  {env env' : Env} {codec' : Codec Cipher}

/-- The first allocation of a set-up. -/
theorem firstAllocation (h : env.HasBuiltinParams) {c : Cipher} {env₁ : Env}
    (hal : builtinAllocate env.pendingCipher
      (useCommonParameters env.sqlite3mcGetCipherType.2).2.2 = (some c, env₁)) :
    (1 ≤ env.pendingCipher ∧ env.pendingCipher ≤ 7) ∧
      newCipher env.pendingCipher (env.pendingParameter (builtinName env.pendingCipher)) = some c ∧
      (env.afterCommon.afterAllocation env.pendingCipher).SameTables env₁ ∧
      env₁.random = env.random ∧ env₁.argon2 = env.argon2 := by
  rw [useCommonParameters_tables h] at hal
  obtain ⟨ht, hnew, -⟩ := builtinAllocate_some hal
  obtain ⟨htables, hrandom, hargon2⟩ := builtinAllocate_tables h.afterCommon hal
  rw [h.afterCommon_pendingParameter ht] at hnew
  exact ⟨ht, hnew, htables, hrandom, hargon2⟩

/-- **What a set-up does**, to the tables and to the codec. -/
theorem KeyOperation.setUp_ok (h : env.HasBuiltinParams)
    (hrun : op.setUp (builtinDescriptors P) password dbHeader env = (.ok, codec', env')) :
    env'.paramsAt env.pendingCipher =
        (env.paramsAt env.pendingCipher).map (.usedUp (op.leavesHeader env)) ∧
      (env'.paramsAt env.pendingCipher = (env.paramsAt env.pendingCipher).map .reset →
        UsedOnce P op password dbHeader env codec' env') := by
  obtain ⟨hhmac, hwal⟩ := useCommonParameters_values h
  cases op with
  | key keySalt =>
    have hsetup : sqlite3mcCodecSetup (builtinDescriptors P) { sqlite3mcCodecInit with keySalt }
        env.sqlite3mcGetCipherType.1 password dbHeader env.sqlite3mcGetCipherType.2 =
          (.ok, codec', env') := hrun
    obtain ⟨c, env₁, w, hal, hal₂, rfl⟩ := sqlite3mcCodecSetup_ok hsetup
    obtain ⟨ht, hnew, htables, hrandom, hargon2⟩ := firstAllocation h hal
    -- the key generation comes between the two allocations
    have hbetween := htables.trans
      (builtinGenerateKey_tables (P := P) c password 0 (keySalt.or dbHeader) env₁)
    have hfirst := h.afterCommon.afterAllocation env.pendingCipher
    have hsecond := (builtinAllocate_tables (hfirst.sameTables hbetween) hal₂).1
    have hfinal := (hbetween.afterAllocation env.pendingCipher).trans hsecond
    refine ⟨?_, fun hown => ⟨?_, hown, ⟨hhmac, hwal, rfl⟩, ⟨c, env₁, hnew, hrandom, hargon2, rfl⟩,
      fun _ _ => ⟨rfl, rfl⟩⟩⟩
    · rw [hfinal.paramsAt, hfirst.afterAllocation_paramsAt ht.2,
        h.afterCommon.afterAllocation_paramsAt ht.2, env.afterCommon_paramsAt_of_pos ht.1,
        h.afterCommon.afterAllocation_skipsHeader ht, h.afterCommon_skipsHeader ht,
        h.afterCommon_defaultParameter ht, map_usedUp_map_usedUp]
      rfl
    · rw [hfinal.paramsAt, Env.afterAllocation_paramsAt_of_ne _ (by omega),
        Env.afterAllocation_paramsAt_of_ne _ (by omega), h.afterCommon_paramsAt]
  | rekey codec usesWal =>
    have hsetup : sqlite3mcSetupWriteCipher (builtinDescriptors P) codec
        env.sqlite3mcGetCipherType.1 password dbHeader usesWal env.sqlite3mcGetCipherType.2 =
          (.ok, codec', env') := hrun
    obtain ⟨c, env₁, hal, hkeyed, rfl⟩ := sqlite3mcSetupWriteCipher_ok hsetup
    obtain ⟨ht, hnew, htables, hrandom, hargon2⟩ := firstAllocation h hal
    have hfinal : (env.afterCommon.afterAllocation env.pendingCipher).SameTables env' := by
      rw [← hkeyed]
      exact htables.trans (builtinGenerateKey_tables c password _ _ env₁)
    refine ⟨?_, fun hown => ⟨?_, hown, ⟨hhmac, hwal, rfl⟩, ⟨c, env₁, hnew, hrandom, hargon2, rfl⟩,
      fun _ hno => by cases hno⟩⟩
    · rw [hfinal.paramsAt, h.afterCommon.afterAllocation_paramsAt ht.2,
        env.afterCommon_paramsAt_of_pos ht.1, h.afterCommon_skipsHeader ht]
      rfl
    · rw [hfinal.paramsAt, Env.afterAllocation_paramsAt_of_ne _ (by omega), h.afterCommon_paramsAt]

/-- **Exactly when the parameters are used once.** SQLCipher in its versions 1 to 3 leaves a
plaintext header pending. -/
theorem usedOnce_iff (h : env.HasBuiltinParams)
    (hrun : op.setUp (builtinDescriptors P) password dbHeader env = (.ok, codec', env')) :
    UsedOnce P op password dbHeader env codec' env' ↔
      op.leavesHeader env = false ∨ ∀ p ∈ env.paramsAt env.pendingCipher,
        p.name = "plaintext_header_size" → p.value = p.default := by
  obtain ⟨hused, hdone⟩ := op.setUp_ok h hrun
  rw [← map_usedUp_eq_reset_iff, ← hused]
  exact ⟨UsedOnce.cipher, hdone⟩

end UsedOnce

/-! ### A value left pending -/

/-- A connection with the built-in ciphers and their defaults, but for the values given, each by its
position in the table and its name. -/
def pendingEnv (values : List (ℕ × String × ℤ)) : Env where
  codecParams := values.foldl
    (fun table v => modifyAt table v.1 v.2.1 (CipherParams.write v.2.2 false))
    (builtinTables 3).sqlite3mcCloneCodecParameterTable
  cipherNames := builtinCipherNames
  malloc := fun _ => true
  random := fun _ => 0
  argon2 := fun _ => .enough

theorem pendingEnv_shape (values : List (ℕ × String × ℤ)) (table : List CodecParameter) :
    (values.foldl (fun table v => modifyAt table v.1 v.2.1 (CipherParams.write v.2.2 false))
      table).map CodecParameter.shape = table.map CodecParameter.shape := by
  induction values generalizing table with
  | nil => rfl
  | cons v values ih =>
    have hwrite : ∀ p, (CipherParams.write v.2.2 false p).bounds = p.bounds := fun _ => rfl
    rw [List.foldl_cons, ih, shape_modifyAt hwrite]

theorem pendingEnv_hasBuiltinParams (values : List (ℕ × String × ℤ)) :
    (pendingEnv values).HasBuiltinParams where
  shape := (pendingEnv_shape values _).symm ▸ List.prefix_rfl
  cipherNames := List.prefix_rfl
  noGlobal := by
    show builtinCipherNames.findIdx? (sqlite3Stricmp "global") = none
    decide

/-- SQLCipher in version 3 is pending, and a plaintext header of sixteen bytes. -/
def version3Env : Env :=
  pendingEnv [(0, "cipher", 4), (4, "legacy", 3), (4, "plaintext_header_size", 16)]

/-- The rekey of an RC4 database to SQLCipher version 3. -/
def version3Rekey : KeyOperation Cipher := .rekey rc4Codec false

set_option maxRecDepth 10000 in
/-- **A plaintext header survives a rekey to a legacy version of SQLCipher**, and would be that of
the next database. -/
theorem usedOnce_version3 :
    let r := version3Rekey.setUp (builtinDescriptors nullPrimitives) [] none version3Env
    r.1 = .ok ∧ r.2.2.pendingParameter "sqlcipher" "plaintext_header_size" = 16 ∧
      r.2.2.defaultParameter "sqlcipher" "plaintext_header_size" = 0 ∧
      ¬ UsedOnce nullPrimitives version3Rekey [] none version3Env r.2.1 r.2.2 := by
  refine ⟨by decide, by decide, by decide, fun h => ?_⟩
  have hcipher := h.cipher
  revert hcipher
  decide

/-- Setting a key for version 4 uses the header up. -/
theorem usedOnce_iff_version4 :
    let env := pendingEnv [(0, "cipher", 4), (4, "plaintext_header_size", 16)]
    let op : KeyOperation Cipher := .key none
    let r := op.setUp (builtinDescriptors nullPrimitives) [] none env
    UsedOnce nullPrimitives op [] none env r.2.1 r.2.2 :=
  (usedOnce_iff (pendingEnv_hasBuiltinParams _) (Prod.ext (by decide) rfl)).mpr
    (Or.inl (by decide))

end MultipleCiphers
