import MultipleCiphers.Lib.Bytes

/-!
# Result codes, the parameter table of a connection, and its environment

Everything a cipher or a codec learns from outside itself comes from the database connection:
the configuration values pending for the next key operation, the outcome of an allocation, and
fresh random bytes. `Env` holds them, and every function of the model that uses one of them takes
the environment and returns what is left of it.

## Configuration is one-shot

`sqlite3mcGetCipherParameter` returns the current value of a parameter *and resets it to the
parameter's default*. So reading the configuration is a state change: two key operations in a row
do not see the same values, and an operation that reads a parameter for a second time sees the
default. The readers below therefore return the environment they leave behind.

## Allocation and randomness

`Env.malloc` is the stream of outcomes of the allocations still to come and `Env.random` the
stream of random bytes; `Env.argon2` says what the Argon2id calls to come are granted, since these
do not allocate through SQLite. Nothing is assumed about the streams, so a statement about every
environment covers every pattern of failing allocations and every nonce and salt the generator can
draw.

## Main definitions

* `ResultCode` — the result codes the modelled functions produce or pass on.
* `CipherParams`, `CodecParameter`, `Env` — the tables and the environment.
* `sqlite3mcGetCipherParameter`, `Env.sqlite3mcGetCipherParams`, `Env.sqlite3mcGetCipherType`.
-/

namespace MultipleCiphers

/-- The result codes of SQLite that the modelled functions test for, produce or pass on. -/
inductive ResultCode where
  /-- `SQLITE_OK`. -/
  | ok
  /-- `SQLITE_ERROR`. -/
  | error
  /-- `SQLITE_NOMEM`. -/
  | nomem
  /-- `SQLITE_READONLY`. -/
  | readonly
  /-- `SQLITE_IOERR`. -/
  | ioerr
  /-- `SQLITE_IOERR_SHORT_READ`. -/
  | ioerrShortRead
  /-- `SQLITE_CORRUPT`. -/
  | corrupt
  /-- `SQLITE_FULL`. -/
  | full
  /-- `SQLITE_CANTOPEN`. -/
  | cantopen
  /-- `SQLITE_NOTADB`. -/
  | notadb
  /-- `SQLITE_DONE`. -/
  | done
  /-- Any of the remaining codes, all of them errors. -/
  | other (code : ℕ)
  deriving DecidableEq, Repr

namespace ResultCode

instance : Inhabited ResultCode := ⟨ok⟩

end ResultCode

/-- `sqlite3_stricmp(a, b) == 0`: equality up to the case of ASCII letters. -/
def sqlite3Stricmp (a b : String) : Bool :=
  a.toList.map Char.toLower == b.toList.map Char.toLower

/-- `sqlite3Isxdigit`. -/
def sqlite3Isxdigit (c : UInt8) : Bool :=
  (0x30 ≤ c ∧ c ≤ 0x39) ∨ (0x41 ≤ c ∧ c ≤ 0x46) ∨ (0x61 ≤ c ∧ c ≤ 0x66)

/-- `sqlite3HexToInt`. -/
def sqlite3HexToInt (c : UInt8) : UInt8 :=
  let h := c.toNat + 9 * (1 &&& (c.toNat >>> 6))
  UInt8.ofNat (h &&& 0xf)

/-- One parameter of a cipher, `struct CipherParams`. The arrays of the source end with a
sentinel whose name is empty; here they are lists. -/
structure CipherParams where
  name : String
  value : ℤ
  default : ℤ
  minValue : ℤ
  maxValue : ℤ
  deriving DecidableEq, Repr

/-- The parameters of one cipher, `struct CodecParameter`. -/
structure CodecParameter where
  name : String
  id : ℕ
  params : List CipherParams
  deriving DecidableEq, Repr

/-- What the operating system grants one Argon2id call: enough memory and threads, or too little of
one of them. -/
inductive Argon2Resources where
  | enough
  /-- No memory for the output buffer. -/
  | noBuffer
  /-- No memory for the blocks. -/
  | noMemory
  /-- A thread cannot be started or joined. -/
  | noThread
  deriving DecidableEq, Repr

/-- What a key operation takes from its connection. -/
structure Env where
  /-- The connection's own copy of the parameter table. Entry `0` holds the common parameters. -/
  codecParams : List CodecParameter
  /-- The names of the registered ciphers, in the order of their registration. -/
  cipherNames : List String
  /-- Whether each of the allocations still to come succeeds. -/
  malloc : ℕ → Bool
  /-- The bytes `chacha20_rng` still has to deliver. -/
  random : ℕ → UInt8
  /-- What each of the Argon2id calls still to come is granted. -/
  argon2 : ℕ → Argon2Resources

/-- The current value of the parameter called `paramName` and the list with that parameter reset
to its default; `none` if there is no parameter of that name. -/
def useParameter (params : List CipherParams) (paramName : String) :
    Option (ℤ × List CipherParams) :=
  match params with
  | [] => none
  | p :: ps =>
    if sqlite3Stricmp paramName p.name then some (p.value, { p with value := p.default } :: ps)
    else (useParameter ps paramName).map fun r => (r.1, p :: r.2)

/-- `sqlite3mcGetCipherParameter`: the value is `-1` if there is no such parameter. -/
def sqlite3mcGetCipherParameter (params : List CipherParams) (paramName : String) :
    ℤ × List CipherParams :=
  (useParameter params paramName).getD (-1, params)

namespace Env

/-- `sqlite3_malloc`: whether the next allocation succeeds. -/
def sqlite3Malloc (env : Env) : Bool × Env :=
  (env.malloc 0, { env with malloc := fun n => env.malloc (n + 1) })

/-- What the next Argon2id call is granted. -/
def argon2Grant (env : Env) : Argon2Resources × Env :=
  (env.argon2 0, { env with argon2 := fun n => env.argon2 (n + 1) })

/-- `chacha20_rng(out, n)`: the next `n` random bytes. -/
def chacha20Rng (env : Env) (n : ℕ) : Bytes × Env :=
  ((List.range n).map env.random, { env with random := fun i => env.random (i + n) })

@[simp] theorem length_chacha20Rng (env : Env) (n : ℕ) : (env.chacha20Rng n).1.length = n := by
  simp [chacha20Rng]

/-- `sqlite3mc_cipher_index`: the number of the cipher called `cipherName`, or `-1`. -/
def sqlite3mcCipherIndex (env : Env) (cipherName : String) : ℤ :=
  match env.cipherNames.findIdx? (sqlite3Stricmp cipherName) with
  | some j => (j : ℤ) + 1
  | none => -1

/-- `sqlite3mcGetCipherParams`: the position in the parameter table of the parameters of
`cipherName`. A name that is no cipher (`"global"` is one) leads to entry `0`. -/
def sqlite3mcGetCipherParams (env : Env) (cipherName : String) : ℕ :=
  let cipherType := env.sqlite3mcCipherIndex cipherName
  if cipherType > 0 then
    1 + (env.codecParams.drop 1).findIdx fun c => c.id = 0 ∨ cipherType = c.id
  else 0

/-- The parameter list at position `j` of the table. -/
def paramsAt (env : Env) (j : ℕ) : List CipherParams :=
  match env.codecParams[j]? with
  | some c => c.params
  | none => []

/-- The table with the parameter list at position `j` replaced. -/
def setParamsAt (env : Env) (j : ℕ) (params : List CipherParams) : Env :=
  { env with codecParams := env.codecParams.modify j fun c => { c with params } }

/-- `sqlite3mcGetCipherParameter` on the parameter list at position `j` of the table. -/
def getCipherParameter (env : Env) (j : ℕ) (paramName : String) : ℤ × Env :=
  let r := sqlite3mcGetCipherParameter (env.paramsAt j) paramName
  (r.1, env.setParamsAt j r.2)

/-- The value a parameter of a cipher has pending, read without using it up. -/
def pendingParameter (env : Env) (cipherName paramName : String) : ℤ :=
  (sqlite3mcGetCipherParameter (env.paramsAt (env.sqlite3mcGetCipherParams cipherName)) paramName).1

/-- `sqlite3mcGetCipherType`: the cipher pending for the next key operation, then reset to the
default cipher; `CODEC_TYPE_UNKNOWN`, which is `0`, if there is no such parameter. -/
def sqlite3mcGetCipherType (env : Env) : ℤ × Env :=
  let r := (useParameter (env.paramsAt 0) "cipher").getD (0, env.paramsAt 0)
  (r.1, env.setParamsAt 0 r.2)

@[simp] theorem getCipherParameter_malloc (env : Env) (j : ℕ) (paramName : String) :
    (env.getCipherParameter j paramName).2.malloc = env.malloc := rfl

@[simp] theorem getCipherParameter_argon2 (env : Env) (j : ℕ) (paramName : String) :
    (env.getCipherParameter j paramName).2.argon2 = env.argon2 := rfl

end Env

/-! ### Reading one parameter leaves the others alone -/

theorem sqlite3Stricmp_eq_true {a b : String} :
    sqlite3Stricmp a b = true ↔ a.toList.map Char.toLower = b.toList.map Char.toLower := by
  simp [sqlite3Stricmp]

/-- Using up the parameter `a` does not change what the list holds for another name `b`. -/
theorem useParameter_other {a b : String} (hab : sqlite3Stricmp a b = false)
    {params : List CipherParams} {r : ℤ × List CipherParams} (h : useParameter params a = some r) :
    (useParameter r.2 b).map Prod.fst = (useParameter params b).map Prod.fst := by
  induction params generalizing r with
  | nil => cases h
  | cons p ps ih =>
    rw [useParameter] at h
    by_cases hp : sqlite3Stricmp a p.name = true
    · -- the parameter that is reset has another name than `b`
      have hb : ¬ sqlite3Stricmp b p.name = true := by
        intro hb
        rw [sqlite3Stricmp_eq_true] at hp hb
        have : sqlite3Stricmp a b = true := sqlite3Stricmp_eq_true.mpr (hp.trans hb.symm)
        rw [hab] at this
        cases this
      rw [if_pos hp] at h
      obtain rfl := Option.some.inj h
      simp [useParameter, hb, Function.comp_def]
    · rw [if_neg hp] at h
      obtain ⟨q, hq, rfl⟩ := Option.map_eq_some_iff.mp h
      by_cases hb : sqlite3Stricmp b p.name = true
      · simp [useParameter, hb]
      · simpa [useParameter, hb, Function.comp_def] using ih hq

theorem sqlite3mcGetCipherParameter_other {a b : String} (hab : sqlite3Stricmp a b = false)
    (params : List CipherParams) :
    (sqlite3mcGetCipherParameter (sqlite3mcGetCipherParameter params a).2 b).1 =
      (sqlite3mcGetCipherParameter params b).1 := by
  rcases h : useParameter params a with _ | r
  · simp [sqlite3mcGetCipherParameter, h]
  · have hother := useParameter_other hab h
    simp only [sqlite3mcGetCipherParameter, h, Option.getD_some]
    rcases h₁ : useParameter r.2 b with _ | q₁ <;> rcases h₂ : useParameter params b with _ | q₂ <;>
      simp_all

namespace Env

theorem paramsAt_setParamsAt (env : Env) (j k : ℕ) (params : List CipherParams) :
    (env.setParamsAt j params).paramsAt k =
      if j = k ∧ k < env.codecParams.length then params else env.paramsAt k := by
  simp only [paramsAt, setParamsAt, List.getElem?_modify]
  by_cases hk : k < env.codecParams.length
  · by_cases hjk : j = k <;> simp [hk, hjk]
  · simp [hk]

/-- Which entry belongs to a cipher does not depend on the parameters in the entries. -/
theorem sqlite3mcGetCipherParams_setParamsAt (env : Env) (j : ℕ) (params : List CipherParams)
    (cipherName : String) :
    (env.setParamsAt j params).sqlite3mcGetCipherParams cipherName =
      env.sqlite3mcGetCipherParams cipherName := by
  have hids : ∀ (l : List CodecParameter) (k : ℕ),
      (l.modify k fun c => { c with params }).map CodecParameter.id = l.map CodecParameter.id := by
    intro l
    induction l with
    | nil => intro k; cases k <;> rfl
    | cons c l ih => intro k; cases k <;> simp [ih]
  have hfind : ∀ (l : List CodecParameter) (t : ℤ),
      (l.findIdx fun c => c.id = 0 ∨ t = c.id) =
        (l.map CodecParameter.id).findIdx fun i : ℕ => i = 0 ∨ t = i := by
    intro l t
    rw [List.findIdx_map]
    rfl
  have hindex : (env.setParamsAt j params).sqlite3mcCipherIndex cipherName =
      env.sqlite3mcCipherIndex cipherName := rfl
  simp only [sqlite3mcGetCipherParams, hindex, hfind, List.map_drop]
  rw [setParamsAt, hids]

theorem getCipherParameter_other {a b : String} (hab : sqlite3Stricmp a b = false)
    (env : Env) (j : ℕ) :
    ((env.getCipherParameter j a).2.getCipherParameter j b).1 =
      (env.getCipherParameter j b).1 := by
  simp only [getCipherParameter, paramsAt_setParamsAt, true_and]
  by_cases h : j < env.codecParams.length
  · rw [if_pos h, sqlite3mcGetCipherParameter_other hab]
  · rw [if_neg h]

/-- **Reading one parameter leaves the others pending.** -/
theorem pendingParameter_getCipherParameter {a b : String} (hab : sqlite3Stricmp a b = false)
    (env : Env) (j : ℕ) (cipherName : String) :
    (env.getCipherParameter j a).2.pendingParameter cipherName b =
      env.pendingParameter cipherName b := by
  simp only [pendingParameter, getCipherParameter, sqlite3mcGetCipherParams_setParamsAt,
    paramsAt_setParamsAt]
  by_cases h : j = env.sqlite3mcGetCipherParams cipherName ∧
      env.sqlite3mcGetCipherParams cipherName < env.codecParams.length
  · rw [if_pos h, h.1, sqlite3mcGetCipherParameter_other hab]
  · rw [if_neg h]

/-- Reading the pending cipher uses up the parameter `cipher` like any other. -/
theorem sqlite3mcGetCipherType_env (env : Env) :
    env.sqlite3mcGetCipherType.2 = (env.getCipherParameter 0 "cipher").2 := by
  rcases h : useParameter (env.paramsAt 0) "cipher" with _ | r <;>
    simp [sqlite3mcGetCipherType, getCipherParameter, sqlite3mcGetCipherParameter, h]

end Env

end MultipleCiphers
