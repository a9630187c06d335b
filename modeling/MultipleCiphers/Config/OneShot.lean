import MultipleCiphers.Config.Validity

/-!
# Using up parameters

A key operation reads its parameters one after the other, and each read puts the default in the
place of the value. In a list in which no name occurs twice the order of the reads does not matter:
`useParameters_eq` says that a series of reads resets the parameters that are read and leaves the
others alone.

## Which tables this is about

`Env.HasBuiltinParams` is a connection on which the built-in ciphers are registered in front of any
others. Their values and defaults are arbitrary. `TableValid.hasBuiltinParams` says that the tables
the configuration functions can make are among them.

## Main definitions

* `CipherParams.reset`, `resetNamed` — parameters with their defaults as values.
* `Env.useParameters` — a series of reads.
* `Env.HasBuiltinParams` — the table of the built-in ciphers.
-/

namespace MultipleCiphers

/-! ### One list of parameters -/

/-- A parameter with its default as its value. -/
def CipherParams.reset (p : CipherParams) : CipherParams := { p with value := p.default }

@[simp] theorem CipherParams.reset_name (p : CipherParams) : p.reset.name = p.name := rfl

@[simp] theorem CipherParams.reset_reset (p : CipherParams) : p.reset.reset = p.reset := rfl

theorem CipherParams.reset_eq_self_iff {p : CipherParams} : p.reset = p ↔ p.value = p.default := by
  constructor
  · intro h
    exact (congrArg CipherParams.value h).symm
  · intro h
    cases p
    simp only at h
    subst h
    rfl

/-- A parameter, reset if it has one of the names. -/
def CipherParams.resetIfNamed (names : List String) (p : CipherParams) : CipherParams :=
  if names.any (sqlite3Stricmp · p.name) then p.reset else p

/-- The parameters with one of the names, reset, and the others. -/
def resetNamed (names : List String) (params : List CipherParams) : List CipherParams :=
  params.map (CipherParams.resetIfNamed names)

/-- No name occurs twice in the list. -/
def DistinctNames (params : List CipherParams) : Prop :=
  params.Pairwise fun p q => sqlite3Stricmp p.name q.name = false

section List

variable {params : List CipherParams} {name : String}

@[simp] theorem CipherParams.resetIfNamed_name (names : List String) (p : CipherParams) :
    (p.resetIfNamed names).name = p.name := by
  rw [resetIfNamed]
  split <;> rfl

theorem CipherParams.resetIfNamed_cons (names : List String) (p : CipherParams) :
    p.resetIfNamed (name :: names) = (p.resetIfNamed [name]).resetIfNamed names := by
  by_cases hp : sqlite3Stricmp name p.name = true
  · have hone : p.resetIfNamed [name] = p.reset := by simp [resetIfNamed, hp]
    have hboth : p.resetIfNamed (name :: names) = p.reset := by simp [resetIfNamed, hp]
    rw [hone, hboth, resetIfNamed, reset_reset, ite_self]
  · have hone : p.resetIfNamed [name] = p := by simp [resetIfNamed, hp]
    rw [hone, resetIfNamed, resetIfNamed, List.any_cons, Bool.eq_false_of_not_eq_true hp,
      Bool.false_or]

theorem resetNamed_nil (params : List CipherParams) : resetNamed [] params = params :=
  List.map_id params

theorem resetNamed_cons (names : List String) (params : List CipherParams) :
    resetNamed (name :: names) params = resetNamed names (resetNamed [name] params) := by
  rw [resetNamed, resetNamed, resetNamed, List.map_map]
  exact List.map_congr_left fun p _ => p.resetIfNamed_cons names

theorem map_name_resetNamed (names : List String) (params : List CipherParams) :
    (resetNamed names params).map CipherParams.name = params.map CipherParams.name := by
  rw [resetNamed, List.map_map]
  exact List.map_congr_left fun p _ => p.resetIfNamed_name names

theorem distinctNames_iff (params : List CipherParams) :
    DistinctNames params ↔
      (params.map CipherParams.name).Pairwise fun a b => sqlite3Stricmp a b = false := by
  rw [DistinctNames, List.pairwise_map]

theorem DistinctNames.resetNamed (h : DistinctNames params) (names : List String) :
    DistinctNames (resetNamed names params) := by
  rw [distinctNames_iff, map_name_resetNamed, ← distinctNames_iff]
  exact h

/-- **A read resets the parameter of that name.** -/
theorem sqlite3mcGetCipherParameter_eq_resetNamed (h : DistinctNames params) (name : String) :
    (sqlite3mcGetCipherParameter params name).2 = resetNamed [name] params := by
  induction params with
  | nil => rfl
  | cons p ps ih =>
    obtain ⟨hp, hps⟩ := List.pairwise_cons.mp h
    by_cases hname : sqlite3Stricmp name p.name = true
    · -- behind the parameter of that name there is no other one
      have hrest : MultipleCiphers.resetNamed [name] ps = ps := by
        refine (List.map_congr_left fun q hq => ?_).trans (List.map_id ps)
        have hq : sqlite3Stricmp name q.name = false :=
          (sqlite3Stricmp_congr hname q.name).trans (hp q hq)
        simp [CipherParams.resetIfNamed, hq]
      have hcons : MultipleCiphers.resetNamed [name] (p :: ps) =
          p.reset :: MultipleCiphers.resetNamed [name] ps := by
        simp [MultipleCiphers.resetNamed, CipherParams.resetIfNamed, hname]
      rw [hcons, hrest, sqlite3mcGetCipherParameter, useParameter, if_pos hname]
      rfl
    · have hcons : MultipleCiphers.resetNamed [name] (p :: ps) =
          p :: MultipleCiphers.resetNamed [name] ps := by
        simp [MultipleCiphers.resetNamed, CipherParams.resetIfNamed, hname]
      rw [hcons, ← ih hps, sqlite3mcGetCipherParameter, sqlite3mcGetCipherParameter, useParameter,
        if_neg hname]
      rcases useParameter ps name with _ | r <;> rfl

end List

/-! ### A series of reads -/

namespace Env

/-- The connection after the parameters `names` at position `j` have been read. -/
def useParameters (env : Env) (j : ℕ) (names : List String) : Env :=
  names.foldl (fun env name => (env.getCipherParameter j name).2) env

theorem setParamsAt_paramsAt (env : Env) (j : ℕ) : env.setParamsAt j (env.paramsAt j) = env := by
  have hsame : (env.codecParams.modify j fun c => { c with params := env.paramsAt j }) =
      env.codecParams := by
    refine List.ext_getElem? fun k => ?_
    rw [List.getElem?_modify]
    by_cases hjk : j = k
    · rcases hk : env.codecParams[k]? with _ | c <;> simp [hjk, hk, paramsAt]
    · simp [hjk]
  rw [setParamsAt, hsame]

theorem setParamsAt_setParamsAt (env : Env) (j : ℕ) (params params' : List CipherParams) :
    (env.setParamsAt j params).setParamsAt j params' = env.setParamsAt j params' := by
  simp only [setParamsAt, List.modify_modify_eq]
  rfl

/-- **A series of reads resets what is read.** -/
theorem useParameters_eq {env : Env} {j : ℕ} (h : DistinctNames (env.paramsAt j))
    (names : List String) :
    env.useParameters j names = env.setParamsAt j (resetNamed names (env.paramsAt j)) := by
  induction names generalizing env with
  | nil => rw [resetNamed_nil, setParamsAt_paramsAt]; rfl
  | cons name names ih =>
    have hread : (env.getCipherParameter j name).2 =
        env.setParamsAt j (resetNamed [name] (env.paramsAt j)) := by
      rw [getCipherParameter, sqlite3mcGetCipherParameter_eq_resetNamed h]
    have hstep : env.useParameters j (name :: names) =
        (env.setParamsAt j (resetNamed [name] (env.paramsAt j))).useParameters j names := by
      rw [← hread]
      rfl
    rw [hstep, resetNamed_cons names]
    by_cases hj : j < env.codecParams.length
    · have hparams : (env.setParamsAt j (resetNamed [name] (env.paramsAt j))).paramsAt j =
          resetNamed [name] (env.paramsAt j) := by
        rw [paramsAt_setParamsAt, if_pos ⟨rfl, hj⟩]
      have hdistinct : DistinctNames
          ((env.setParamsAt j (resetNamed [name] (env.paramsAt j))).paramsAt j) := by
        rw [hparams]
        exact h.resetNamed [name]
      rw [ih hdistinct, hparams, setParamsAt_setParamsAt]
    · -- there is no entry at this position, and nothing to read
      have hnone : env.paramsAt j = [] := by
        rw [paramsAt, List.getElem?_eq_none (not_lt.mp hj)]
      have hset : env.setParamsAt j [] = env := by
        have hself := env.setParamsAt_paramsAt j
        rwa [hnone] at hself
      have hreset : ∀ names, resetNamed names [] = [] := fun _ => rfl
      rw [hnone, hreset, hreset, hset, ih h, hnone, hreset, hset]

/-- Two connections with the same tables and the same ciphers. -/
structure SameTables (env env' : Env) : Prop where
  codecParams : env'.codecParams = env.codecParams
  cipherNames : env'.cipherNames = env.cipherNames

namespace SameTables

variable {env env' env'' : Env}

theorem refl (env : Env) : SameTables env env := ⟨rfl, rfl⟩

theorem trans (h : SameTables env env') (h' : SameTables env' env'') : SameTables env env'' :=
  ⟨h'.codecParams.trans h.codecParams, h'.cipherNames.trans h.cipherNames⟩

theorem paramsAt (h : SameTables env env') (j : ℕ) : env'.paramsAt j = env.paramsAt j := by
  rw [Env.paramsAt, Env.paramsAt, h.codecParams]

theorem sqlite3mcGetCipherParams (h : SameTables env env') (cipherName : String) :
    env'.sqlite3mcGetCipherParams cipherName = env.sqlite3mcGetCipherParams cipherName := by
  have hindex : env'.sqlite3mcCipherIndex cipherName = env.sqlite3mcCipherIndex cipherName := by
    rw [Env.sqlite3mcCipherIndex, Env.sqlite3mcCipherIndex, h.cipherNames]
  simp only [Env.sqlite3mcGetCipherParams, hindex, h.codecParams]

theorem pendingParameter (h : SameTables env env') (cipherName : String) :
    env'.pendingParameter cipherName = env.pendingParameter cipherName := by
  funext paramName
  rw [Env.pendingParameter, Env.pendingParameter, h.sqlite3mcGetCipherParams, h.paramsAt]

theorem setParamsAt (h : SameTables env env') (j : ℕ) (params : List CipherParams) :
    SameTables (env.setParamsAt j params) (env'.setParamsAt j params) where
  codecParams := by rw [Env.setParamsAt, Env.setParamsAt, h.codecParams]
  cipherNames := h.cipherNames

end SameTables

end Env

/-! ### The table of the built-in ciphers -/

/-- The names of the parameters at position `j` of the table, the common ones at position `0`. -/
def builtinParamNames (j : ℕ) : List String :=
  ((builtinShape[j]?.map fun s => s.2.2).getD []).map Prod.fst

/-- The name of a built-in cipher. -/
def builtinName (cipherType : ℕ) : String := builtinCipherNames.getD (cipherType - 1) ""

/-- A connection on which the built-in ciphers are registered, in front of any others. No cipher is
called `global`. -/
structure Env.HasBuiltinParams (env : Env) : Prop where
  shape : builtinShape <+: env.codecParams.map CodecParameter.shape
  cipherNames : builtinCipherNames <+: env.cipherNames
  noGlobal : env.cipherNames.findIdx? (sqlite3Stricmp "global") = none

/-- The tables that the configuration functions make. -/
theorem TableValid.hasBuiltinParams {env : Env} (h : TableValid env.codecParams)
    (hnames : env.cipherNames = builtinCipherNames) : env.HasBuiltinParams where
  shape := h.shape ▸ List.prefix_rfl
  cipherNames := hnames ▸ List.prefix_rfl
  noGlobal := by
    rw [hnames]
    decide

namespace Env.HasBuiltinParams

variable {env : Env}

theorem sameTables (h : env.HasBuiltinParams) {env' : Env} (hsame : env.SameTables env') :
    env'.HasBuiltinParams where
  shape := hsame.codecParams ▸ h.shape
  cipherNames := hsame.cipherNames ▸ h.cipherNames
  noGlobal := hsame.cipherNames ▸ h.noGlobal

/-- What is registered does not depend on the values. -/
theorem setParamsAt (h : env.HasBuiltinParams) {j : ℕ} {params : List CipherParams}
    (hbounds : params.map CipherParams.bounds = (env.paramsAt j).map CipherParams.bounds) :
    (env.setParamsAt j params).HasBuiltinParams where
  shape := by
    have hshape : (env.setParamsAt j params).codecParams.map CodecParameter.shape =
        env.codecParams.map CodecParameter.shape := by
      refine List.ext_getElem? fun k => ?_
      rw [List.getElem?_map, List.getElem?_map, Env.setParamsAt, List.getElem?_modify]
      rcases hk : env.codecParams[k]? with _ | c
      · rfl
      · by_cases hjk : j = k
        · have hparams : env.paramsAt j = c.params := by rw [Env.paramsAt, hjk, hk]
          rw [hparams] at hbounds
          simp [hjk, CodecParameter.shape, hbounds]
        · simp [hjk]
    rw [hshape]
    exact h.shape
  cipherNames := h.cipherNames
  noGlobal := h.noGlobal

theorem getElem_shape (h : env.HasBuiltinParams) {j : ℕ} (hj : j ≤ 7) :
    (env.codecParams.map CodecParameter.shape)[j]? = builtinShape[j]? := by
  have hlength : builtinShape.length = 8 := by decide
  obtain ⟨rest, hrest⟩ := h.shape
  rw [← hrest, List.getElem?_append_left (by rw [hlength]; omega)]

theorem length_codecParams (h : env.HasBuiltinParams) : 8 ≤ env.codecParams.length := by
  have hlength : builtinShape.length = 8 := by decide
  have hle := h.shape.length_le
  rwa [hlength, List.length_map] at hle

/-- The names of the parameters at a position. -/
theorem names_paramsAt (h : env.HasBuiltinParams) {j : ℕ} (hj : j ≤ 7) :
    (env.paramsAt j).map CipherParams.name = builtinParamNames j := by
  have hbounds : (env.paramsAt j).map CipherParams.bounds =
      ((builtinShape[j]?.map fun s => s.2.2).getD []) := by
    rw [← h.getElem_shape hj, List.getElem?_map, Env.paramsAt]
    cases env.codecParams[j]? <;> rfl
  rw [builtinParamNames, ← hbounds, List.map_map]
  rfl

theorem distinctNames (h : env.HasBuiltinParams) {j : ℕ} (hj : j ≤ 7) :
    DistinctNames (env.paramsAt j) := by
  have hall : ∀ j ≤ 7, (builtinParamNames j).Pairwise fun a b => sqlite3Stricmp a b = false := by
    decide
  rw [distinctNames_iff, h.names_paramsAt hj]
  exact hall j hj

/-- The common parameters are at position `0`. -/
theorem position_global (h : env.HasBuiltinParams) :
    env.sqlite3mcGetCipherParams "global" = 0 := by
  have hindex : env.sqlite3mcCipherIndex "global" = -1 := by
    rw [Env.sqlite3mcCipherIndex, h.noGlobal]
  rw [Env.sqlite3mcGetCipherParams, hindex]
  rfl

/-- **The parameters of a built-in cipher are at the position of its number.** -/
theorem position (h : env.HasBuiltinParams) {t : ℕ} (ht : 1 ≤ t ∧ t ≤ 7) :
    env.sqlite3mcGetCipherParams (builtinName t) = t := by
  obtain ⟨others, hothers⟩ := h.cipherNames
  obtain ⟨rest, hrest⟩ := h.shape
  have hids : env.codecParams.map CodecParameter.id =
      builtinShape.map (fun s => s.2.1) ++ rest.map fun s => s.2.1 := by
    rw [← List.map_append, hrest, List.map_map]
    rfl
  have hindex : env.sqlite3mcCipherIndex (builtinName t) = t := by
    have hall : ∀ t, 1 ≤ t ∧ t ≤ 7 → builtinCipherNames.findIdx?
        (sqlite3Stricmp (builtinName t)) = some (t - 1) := by
      have hfin : ∀ t ≤ 7, 1 ≤ t → builtinCipherNames.findIdx?
          (sqlite3Stricmp (builtinName t)) = some (t - 1) := by
        decide
      exact fun t ht => hfin t ht.2 ht.1
    rw [Env.sqlite3mcCipherIndex, ← hothers, List.findIdx?_append, hall t ht]
    simp only [Option.some_or]
    omega
  have hfind : ((env.codecParams.drop 1).findIdx fun c => c.id = 0 ∨ (t : ℤ) = c.id) = t - 1 := by
    have hmap : ((env.codecParams.drop 1).findIdx fun c => c.id = 0 ∨ (t : ℤ) = c.id) =
        ((env.codecParams.map CodecParameter.id).drop 1).findIdx fun i : ℕ =>
          i = 0 ∨ (t : ℤ) = i := by
      rw [← List.map_drop, List.findIdx_map]
      rfl
    have hfin : ∀ t : ℕ, t ≤ 7 → 1 ≤ t →
        ((builtinShape.map (fun s => s.2.1)).drop 1).findIdx
          (fun i : ℕ => decide (i = 0 ∨ (t : ℤ) = i)) = t - 1 := by
      decide
    have hlen : (builtinShape.map fun s => s.2.1).length = 8 := by decide
    rw [hmap, hids, List.drop_append_of_le_length (by rw [hlen]; omega), List.findIdx_append,
      hfin t ht.2 ht.1, if_pos]
    rw [List.length_drop, hlen]
    omega
  rw [Env.sqlite3mcGetCipherParams]
  simp only [hindex, hfind]
  rw [if_pos (by omega)]
  omega

end Env.HasBuiltinParams

end MultipleCiphers
