import MultipleCiphers.Config.World

/-!
# Which changes the functions make

Every way to change a setting makes a sequence of changes to the table of a connection. `Made` says
what all of them have in common: the parameter is there, the value is within its bounds or, for the
current cipher, the number of a cipher by its name, and `checkParameterValue` has been asked about
it. The SQL function with three arguments does not ask.

There is one lemma for each function of the source, from the C functions on one parameter up to the
URI. Two parameters of `Made` leave open what the claims differ in: which ciphers may be selected,
and whether a change without the check may be there.

## Main results

* `sqlite3mcConfigCommon_cases`, `configCipherParam_cases` — what the C functions do to a table.
* `sqlite3mcConfigCipherTable_changes`, `sqlite3mcConfigParams_changes`,
  `sqlite3mcFileControlPragma_changes`, `sqlite3mcConfigureFromUri_changes`.
-/

namespace MultipleCiphers

open Relation

theorem fst_of_some {α β : Type*} {x : α × β} {a : α} {b : β} (h : some x = some (a, b)) :
    a = x.1 := by
  rw [Option.some_inj.mp h]

theorem snd_of_some {α β : Type*} {x : α × β} {a : α} {b : β} (h : some x = some (a, b)) :
    b = x.2 := by
  rw [Option.some_inj.mp h]

section Made

/-- The number of names that the SQL function compares the name of a cipher with. -/
def CipherTables.descriptorNames (t : CipherTables) : List String :=
  (t.globalCodecDescriptorTable.map (·.name.getD "")).takeWhile (· ≠ "")

/-- The change `c` of the table `t` is one that the source makes. `ok` are the ciphers that may be
selected, and `unchecked` says whether a change without `checkParameterValue` may be among them. -/
structure Made (tables : CipherTables) (ok : ℤ → Prop) (unchecked : Prop)
    (t : List CodecParameter) (c : Change) : Prop where
  found : ∃ p, findParameter (paramsAt t c.j) c.paramName = some p ∧
    (p.minValue ≤ c.value ∧ c.value ≤ p.maxValue ∨
      c.j = 0 ∧ sqlite3Stricmp c.paramName "cipher" = true ∧ 1 ≤ c.value ∧
        c.value ≤ tables.descriptorNames.length)
  selects : c.j = 0 → sqlite3Stricmp c.paramName "cipher" = true → ok c.value
  checked : c.j = 0 ∨ unchecked ∨ ∃ cipherName, findTable t cipherName = some c.j ∧
    checkParameterValue c.paramName c.value cipherName = true

variable {tables : CipherTables} {ok : ℤ → Prop} {unchecked : Prop}
  {table table' : List CodecParameter} {cipherName paramName : String} {newValue : ℤ}

/-- Changes keep the names, the numbers and the bounds. -/
theorem Changes.shape {V : List CodecParameter → Change → Prop} (h : Changes V table table') :
    table'.map CodecParameter.shape = table.map CodecParameter.shape :=
  h.invariant (fun t => t.map CodecParameter.shape = table.map CodecParameter.shape)
    (fun t c ht _ => (shape_modifyAt (f := CipherParams.write c.value c.setDefault) (fun _ => rfl) t
      c.j c.paramName).trans ht) rfl

theorem Changes.findTable {V : List CodecParameter → Change → Prop} (h : Changes V table table')
    (a : String) : findTable table' a = findTable table a := by
  rw [findTable_shape, findTable_shape, h.shape]

/-! ### The C functions -/

/-- **What `sqlite3mc_config` does to a table**: nothing, or the one change it was asked for. -/
theorem sqlite3mcConfigCommon_cases (cipherCount : ℕ) (table : List CodecParameter)
    (paramName : String) (newValue : ℤ) :
    (sqlite3mcConfigCommon cipherCount table paramName newValue).2 = table ∨
      (sqlite3mcConfigCommon cipherCount table paramName newValue).1 = newValue ∧ 0 ≤ newValue ∧
        ∃ p, findParameter (paramsAt table 0) (parseParamName paramName).paramName = some p ∧
          p.minValue ≤ newValue ∧ newValue ≤ p.maxValue ∧
          (sqlite3Stricmp (parseParamName paramName).paramName "cipher" = true →
            0 < newValue ∧ newValue ≤ cipherCount) ∧
          (sqlite3mcConfigCommon cipherCount table paramName newValue).2 =
            Change.apply ⟨0, (parseParamName paramName).paramName, newValue,
              (parseParamName paramName).hasDefaultPrefix &&
                !sqlite3Stricmp (parseParamName paramName).paramName "hmac_check"⟩ table := by
  rw [sqlite3mcConfigCommon]
  dsimp only
  generalize parseParamName paramName = n
  split
  · exact Or.inl rfl
  · rename_i p hp
    split
    swap
    · exact Or.inl rfl
    rename_i hrange
    by_cases hallow : (if sqlite3Stricmp n.paramName "cipher" = true then
        decide (newValue > 0 ∧ newValue ≤ cipherCount) else true) = true
    · rw [if_pos hallow]
      refine Or.inr ⟨rfl, hrange.2.2.1, p, hp, hrange.2.2.2.1, hrange.2.2.2.2, fun hcipher => ?_,
        rfl⟩
      rw [if_pos hcipher] at hallow
      exact of_decide_eq_true hallow
    · rw [if_neg hallow]
      exact Or.inl rfl

theorem sqlite3mcConfigCommon_changes (cipherCount : ℕ) (table : List CodecParameter)
    (hok : sqlite3Stricmp (parseParamName paramName).paramName "cipher" = true → 0 < newValue →
      newValue ≤ cipherCount → ok newValue) :
    Changes (Made tables ok unchecked) table
      (sqlite3mcConfigCommon cipherCount table paramName newValue).2 := by
  have hcases := sqlite3mcConfigCommon_cases cipherCount table paramName newValue
  generalize parseParamName paramName = n at hok hcases
  rcases hcases with h | ⟨_, _, p, hp, hmin, hmax, hcipher, h⟩
  · rw [h]
    exact Changes.refl table
  · rw [h]
    exact Changes.single ⟨⟨p, hp, Or.inl ⟨hmin, hmax⟩⟩,
      fun _ hc => hok hc (hcipher hc).1 (hcipher hc).2, Or.inl rfl⟩

/-- `sqlite3mc_config` returns the new value, or changes nothing. -/
theorem sqlite3mcConfigCommon_rejects (cipherCount : ℕ) (table : List CodecParameter)
    (h : newValue < 0 ∨ (sqlite3mcConfigCommon cipherCount table paramName newValue).1 ≠ newValue) :
    (sqlite3mcConfigCommon cipherCount table paramName newValue).2 = table := by
  rcases sqlite3mcConfigCommon_cases cipherCount table paramName newValue with
    heq | ⟨hvalue, hpos, _⟩
  · exact heq
  · rcases h with h | h
    · exact absurd hpos (not_le.mpr h)
    · exact absurd hvalue h

/-- No bound is set. -/
theorem sqlite3mcConfigCommon_isBound (cipherCount : ℕ) (table : List CodecParameter)
    (h : (parseParamName paramName).IsBound) :
    (sqlite3mcConfigCommon cipherCount table paramName newValue).2 = table := by
  rw [sqlite3mcConfigCommon]
  dsimp only
  generalize parseParamName paramName = n at h ⊢
  split
  · rfl
  · rw [if_neg]
    rintro ⟨hmin, hmax, _⟩
    rcases h with h | h
    · simp [h] at hmin
    · simp [h] at hmax

/-- **What the end of `sqlite3mc_config_cipher` does to a table**: nothing, or the one change it was
asked for. -/
theorem configCipherParam_cases (table : List CodecParameter) (j : ℕ) (n : ParamName)
    (cipherName : String) (newValue : ℤ) :
    (configCipherParam table j n cipherName newValue).2 = table ∨
      (configCipherParam table j n cipherName newValue).1 = newValue ∧ 0 ≤ newValue ∧
        ∃ p, findParameter (paramsAt table j) n.paramName = some p ∧
          p.minValue ≤ newValue ∧ newValue ≤ p.maxValue ∧
          checkParameterValue n.paramName newValue cipherName = true ∧
          (configCipherParam table j n cipherName newValue).2 =
            Change.apply ⟨j, n.paramName, newValue, n.hasDefaultPrefix⟩ table := by
  rw [configCipherParam]
  split
  · exact Or.inl rfl
  · rename_i p hp
    split
    · rename_i h
      exact Or.inr ⟨rfl, h.2.2.1, p, hp, h.2.2.2.1, h.2.2.2.2.1, h.2.2.2.2.2, rfl⟩
    · exact Or.inl rfl

theorem configCipherParam_changes {j : ℕ} (hj : findTable table cipherName = some j)
    (n : ParamName)
    (hok : j = 0 → sqlite3Stricmp n.paramName "cipher" = true → ok newValue) :
    Changes (Made tables ok unchecked) table
      (configCipherParam table j n cipherName newValue).2 := by
  rcases configCipherParam_cases table j n cipherName newValue with
    h | ⟨_, _, p, hp, hmin, hmax, hcheck, h⟩
  · rw [h]
    exact Changes.refl table
  · rw [h]
    exact Changes.single ⟨⟨p, hp, Or.inl ⟨hmin, hmax⟩⟩, hok,
      Or.inr (Or.inr ⟨cipherName, hj, hcheck⟩)⟩

/-- The settings of a version are none of the current cipher. -/
theorem sqlcipherVersionNames_ne (configDefault : Bool) :
    ∀ name ∈ sqlcipherVersionNames,
      sqlite3Stricmp (parseParamName (if configDefault then "default:" ++ name else name)).paramName
        "cipher" = false := by
  cases configDefault <;> decide

/-- The switch to a version of SQLCipher makes the changes that `sqlite3mc_config_cipher` makes. -/
theorem sqlite3mcConfigureSQLCipherVersion_changes (table : List CodecParameter)
    (configDefault : Bool) (legacyVersion : ℤ) :
    Changes (Made tables ok unchecked) table
      (sqlite3mcConfigureSQLCipherVersion table configDefault legacyVersion) := by
  rw [sqlite3mcConfigureSQLCipherVersion]
  split
  swap
  · exact Changes.refl table
  have hnames : ∀ p ∈ sqlcipherVersionNames.zip (sqlcipherVersionParams legacyVersion),
      p.1 ∈ sqlcipherVersionNames := fun p hp => (List.of_mem_zip hp).1
  generalize sqlcipherVersionNames.zip (sqlcipherVersionParams legacyVersion) = pairs at hnames
  induction pairs generalizing table with
  | nil => exact Changes.refl table
  | cons p pairs ih =>
    rw [List.foldl_cons]
    refine Changes.trans ?_ (ih _ fun q hq => hnames q (List.mem_cons_of_mem _ hq))
    split
    · exact Changes.refl table
    · rename_i j hj
      refine configCipherParam_changes hj _ fun _ hcipher => ?_
      rw [sqlcipherVersionNames_ne configDefault p.1 (hnames p List.mem_cons_self)] at hcipher
      cases hcipher

/-- **The changes of `sqlite3mc_config_cipher`.** -/
theorem sqlite3mcConfigCipherTable_changes (table : List CodecParameter)
    (hok : findTable table cipherName = some 0 →
      sqlite3Stricmp (parseParamName paramName).paramName "cipher" = true → ok newValue) :
    Changes (Made tables ok unchecked) table
      (sqlite3mcConfigCipherTable table cipherName paramName newValue).2 := by
  rw [sqlite3mcConfigCipherTable]
  split
  · exact Changes.refl table
  · rename_i j hj
    dsimp only
    split
    · have hversion : Changes (Made tables ok unchecked) table
          (sqlite3mcConfigureSQLCipherVersion table (parseParamName paramName).hasDefaultPrefix
            newValue) := sqlite3mcConfigureSQLCipherVersion_changes table _ newValue
      exact hversion.trans (configCipherParam_changes ((hversion.findTable cipherName).trans hj) _
        fun h0 => hok (h0 ▸ hj))
    · exact configCipherParam_changes hj _ fun h0 => hok (h0 ▸ hj)

/-- No bound is set. -/
theorem sqlite3mcConfigCipherTable_isBound (table : List CodecParameter)
    (h : (parseParamName paramName).IsBound) :
    (sqlite3mcConfigCipherTable table cipherName paramName newValue).2 = table := by
  rw [sqlite3mcConfigCipherTable]
  generalize parseParamName paramName = n at h ⊢
  split
  · rfl
  rename_i j hj
  dsimp only
  have hnot : ¬ ((!n.hasMinPrefix) = true ∧ (!n.hasMaxPrefix) = true) := by
    rintro ⟨hmin, hmax⟩
    rcases h with h | h
    · simp [h] at hmin
    · simp [h] at hmax
  rw [if_neg fun hswitch => hnot ⟨hswitch.2.2.1, hswitch.2.2.2.1⟩, configCipherParam]
  split
  · rfl
  · rw [if_neg fun hset => hnot ⟨hset.1, hset.2.1⟩]

/-! ### The SQL function -/

theorem configParamsCommon_changes {n : ParamName} {param1 : CipherParams}
    (hfound : findParameter (paramsAt table 0) n.paramName = some param1) (arg1 : SqlArg)
    (hok : sqlite3Stricmp n.paramName "cipher" = true → ∀ j : ℕ,
      tables.descriptorNames.findIdx? (sqlite3Stricmp arg1.text) = some j → ok (j + 1)) :
    Changes (Made tables ok unchecked) table
      (configParamsCommon tables table n param1 arg1).2 := by
  rw [configParamsCommon]
  split
  · rename_i hcipher
    split
    swap
    · exact Changes.refl table
    dsimp only
    split
    · -- a cipher by its name
      rename_i j hj
      have hlt : j < tables.descriptorNames.length := (List.findIdx?_eq_some_iff_getElem.mp hj).1
      refine Changes.single (c := ⟨0, n.paramName, j + 1, n.hasDefaultPrefix⟩)
        ⟨⟨param1, hfound, Or.inr ⟨rfl, hcipher, ?_, ?_⟩⟩, fun _ _ => hok hcipher j hj, Or.inl rfl⟩
      · simp only
        omega
      · simp only
        omega
    · exact Changes.refl table
  · rename_i hcipher
    split
    swap
    · exact Changes.refl table
    split
    swap
    · exact Changes.refl table
    rename_i hrange
    exact Changes.single (c := ⟨0, n.paramName, arg1.int, _⟩)
      ⟨⟨param1, hfound, Or.inl hrange⟩, fun _ h => absurd h hcipher, Or.inl rfl⟩

/-- The name of a parameter and a value that the SQL function sets at position `j`. -/
structure SetsAt (table : List CodecParameter) (j : ℕ) (arg1 arg2 : SqlArg) (p : CipherParams) :
    Prop where
  text : arg1.type = .text
  found : findParameter (paramsAt table j) (parseParamName arg1.text).paramName = some p
  current : (parseParamName arg1.text).hasMinPrefix = false ∧
    (parseParamName arg1.text).hasMaxPrefix = false
  integer : arg2.type = .integer
  range : p.minValue ≤ arg2.int ∧ arg2.int ≤ p.maxValue

/-- The SQL function with the name of a cipher, that of a parameter and a value sets the parameter
`p` at position `j`. -/
structure SqlSets (table : List CodecParameter) (arg0 arg1 arg2 : SqlArg) (j : ℕ)
    (p : CipherParams) : Prop extends SetsAt table j arg1 arg2 p where
  given : arg0.type ≠ .null
  plainName : (parseParamName arg0.text).hasDefaultPrefix = false ∧
    (parseParamName arg0.text).hasMinPrefix = false ∧
      (parseParamName arg0.text).hasMaxPrefix = false
  notCommon : findParameter (paramsAt table 0) (parseParamName arg0.text).paramName = none
  cipher : findTable table (parseParamName arg0.text).paramName = some j

/-- A parameter of a table was there before the changes, with the same bounds. -/
theorem Changes.findParameter {V : List CodecParameter → Change → Prop}
    (h : Changes V table table') {j : ℕ} {name : String} {p : CipherParams}
    (hp : findParameter (paramsAt table' j) name = some p) :
    ∃ p₀, findParameter (paramsAt table j) name = some p₀ ∧ p₀.bounds = p.bounds := by
  have hbounds := findParameter_bounds (paramsAt table' j) name
  rw [paramsAt_bounds, h.shape, ← paramsAt_bounds, ← findParameter_bounds, hp] at hbounds
  exact Option.map_eq_some_iff.mp hbounds.symm

/-- The SQL function changes a parameter of a cipher without asking `checkParameterValue`. -/
theorem configParamsCipher_changes {j : ℕ} (hj : findTable table cipherName = some j)
    (arg1 : SqlArg) (arg2 : Option SqlArg)
    (hok : j = 0 → sqlite3Stricmp (parseParamName arg1.text).paramName "cipher" = true →
      ∀ a ∈ arg2, ∀ p, SetsAt table j arg1 a p → ok a.int)
    (hcheck : unchecked ∨ ∀ a ∈ arg2, ∀ p, SetsAt table j arg1 a p →
      checkParameterValue (parseParamName arg1.text).paramName a.int cipherName = true) :
    Changes (Made tables ok unchecked) table
      (configParamsCipher table j cipherName arg1 arg2).2 := by
  rw [configParamsCipher]
  split
  swap
  · exact Changes.refl table
  rename_i htext
  dsimp only
  have hsets : ∀ a p, findParameter (paramsAt table j) (parseParamName arg1.text).paramName =
      some p → (parseParamName arg1.text).hasMinPrefix = false ∧
        (parseParamName arg1.text).hasMaxPrefix = false → a.type = .integer →
      p.minValue ≤ a.int ∧ a.int ≤ p.maxValue → SetsAt table j arg1 a p :=
    fun a p hp hplain hint hrange => ⟨htext, hp, hplain, hint, hrange⟩
  generalize parseParamName arg1.text = n at hok hcheck hsets
  obtain ⟨table', htable'⟩ : ∃ t, t = if sqlite3Stricmp cipherName "sqlcipher" = true ∧
      sqlite3Stricmp n.paramName "legacy" = true ∧
        (!n.hasMinPrefix && !n.hasMaxPrefix &&
          Option.any (fun a => a.type = .integer) arg2) = true ∧
          (arg2.map (·.int)).getD 0 > 0 ∧ (arg2.map (·.int)).getD 0 ≤ sqlcipherVersionMax then
        sqlite3mcConfigureSQLCipherVersion table n.hasDefaultPrefix ((arg2.map (·.int)).getD 0)
      else table := ⟨_, rfl⟩
  rw [← htable']
  have hversion : Changes (Made tables ok unchecked) table table' := by
    rw [htable']
    split
    · exact sqlite3mcConfigureSQLCipherVersion_changes table _ _
    · exact Changes.refl table
  split
  · exact hversion
  rename_i p hp
  rcases arg2 with _ | a
  · exact hversion
  rw [if_neg (by simp)]
  split
  swap
  · exact hversion
  rename_i hset
  split
  swap
  · exact hversion
  rename_i hrange
  obtain ⟨hplain, hint⟩ : (n.hasMinPrefix = false ∧ n.hasMaxPrefix = false) ∧
      a.type = .integer := by
    simpa using hset
  obtain ⟨p₀, hp₀, hbounds⟩ := hversion.findParameter hp
  have hmin : p₀.minValue = p.minValue := congrArg (fun b => b.2.1) hbounds
  have hmax : p₀.maxValue = p.maxValue := congrArg (fun b => b.2.2) hbounds
  have hset : SetsAt table j arg1 a p₀ :=
    hsets a p₀ hp₀ hplain hint (by rw [hmin, hmax]; exact hrange)
  refine hversion.trans (Changes.single (c := ⟨j, n.paramName, a.int, n.hasDefaultPrefix⟩)
    ⟨⟨p, hp, Or.inl hrange⟩, fun h0 hcipher => hok h0 hcipher a rfl p₀ hset, ?_⟩)
  rcases hcheck with h | h
  · exact Or.inr (Or.inl h)
  · exact Or.inr (Or.inr ⟨cipherName, (hversion.findTable cipherName).trans hj,
      h a rfl p₀ hset⟩)

/-- **The changes of the SQL function.** -/
theorem sqlite3mcConfigParams_changes {args : List SqlArg} {granted : Bool} {r : SqlReply}
    (h : sqlite3mcConfigParams tables table args granted = some (r, table'))
    (hcommon : ∀ a₀ a₁ : SqlArg, args = [a₀, a₁] →
      sqlite3Stricmp (parseParamName a₀.text).paramName "cipher" = true → ∀ j : ℕ,
        tables.descriptorNames.findIdx? (sqlite3Stricmp a₁.text) = some j → ok (j + 1))
    (hcipher : ∀ (a₀ a₁ a₂ : SqlArg) (p : CipherParams), args = [a₀, a₁, a₂] →
      SqlSets table a₀ a₁ a₂ 0 p →
      sqlite3Stricmp (parseParamName a₁.text).paramName "cipher" = true → ok a₂.int)
    (hcheck : unchecked ∨ ∀ (a₀ a₁ a₂ : SqlArg) (j : ℕ) (p : CipherParams), args = [a₀, a₁, a₂] →
      SqlSets table a₀ a₁ a₂ j p → checkParameterValue (parseParamName a₁.text).paramName a₂.int
        (parseParamName a₀.text).paramName = true) :
    Changes (Made tables ok unchecked) table table' := by
  have hsame : ∀ r' : SqlReply, some (r', table) = some (r, table') →
      Changes (Made tables ok unchecked) table table' := by
    intro r' heq
    rw [snd_of_some heq]
    exact Changes.refl table
  match args with
  | [] => cases h
  | [a₀] =>
    rw [sqlite3mcConfigParams] at h
    split at h
    · exact hsame _ h
    · obtain ⟨r', _, heq⟩ := Option.map_eq_some_iff.mp h
      exact hsame r' (congrArg some heq)
  | a₀ :: a₁ :: rest =>
    rw [sqlite3mcConfigParams] at h
    split at h
    · cases h
    rename_i hrest
    split at h
    · exact hsame _ h
    rename_i hgiven
    dsimp only at h
    split at h
    · -- a common parameter
      rename_i param1 hparam
      split at h
      · rename_i hnil
        rw [snd_of_some h]
        exact configParamsCommon_changes hparam a₁ (hcommon a₀ a₁ (by rw [hnil]))
      · exact hsame _ h
    · rename_i hnone
      split at h
      · exact hsame _ h
      rename_i hpre
      split at h
      · exact hsame _ h
      -- a parameter of a cipher
      rename_i j hj
      rw [snd_of_some h]
      have hlist : ∀ a ∈ rest.head?, a₀ :: a₁ :: rest = [a₀, a₁, a] := by
        intro a ha
        rcases rest with _ | ⟨b, _ | ⟨c, rest⟩⟩
        · cases ha
        · cases ha
          rfl
        · simp only [List.length_cons] at hrest
          omega
      simp only [Bool.or_eq_true, not_or, Bool.not_eq_true, and_assoc] at hpre
      have hsets : ∀ a p, SetsAt table j a₁ a p → SqlSets table a₀ a₁ a j p := fun a p h =>
        { h with
          given := fun hnull => hgiven (Or.inl hnull)
          plainName := hpre
          notCommon := hnone
          cipher := hj }
      refine configParamsCipher_changes hj a₁ rest.head? (fun h0 hc a ha p hset => ?_) ?_
      · subst h0
        exact hcipher a₀ a₁ a p (hlist a ha) (hsets a p hset) hc
      · rcases hcheck with hcheck | hcheck
        · exact Or.inl hcheck
        · exact Or.inr fun a ha p hset => hcheck a₀ a₁ a j p (hlist a ha) (hsets a p hset)

/-! ### The pragmas -/

theorem configPragmaFlag_changes (R : SqliteReaders) (table : List CodecParameter)
    {paramName : String}
    (hname : sqlite3Stricmp (parseParamName paramName).paramName "cipher" = false) (dflt : Bool)
    (pragmaValue : Option String) :
    Changes (Made tables ok unchecked) table
      (configPragmaFlag R tables table paramName dflt pragmaValue).2 := by
  refine sqlite3mcConfigCommon_changes _ _ fun h => ?_
  rw [hname] at h
  cases h

theorem configPragmaCipher_changes {pragmaValue : Option String} {configDefault : Bool}
    {r : PragmaReply}
    (h : configPragmaCipher tables table pragmaValue configDefault = some (r, table'))
    (hok : ∀ z, pragmaValue = some z → ok (tables.pragmaCipherId z)) :
    Changes (Made tables ok unchecked) table table' := by
  have hchanges : Changes (Made tables ok unchecked) table
      (sqlite3mcConfigCommon tables.globalCipherCount table
        (if configDefault then "default:cipher" else "cipher")
        ((pragmaValue.map tables.pragmaCipherId).getD (-1))).2 := by
    refine sqlite3mcConfigCommon_changes _ _ fun _ hpos _ => ?_
    rcases pragmaValue with _ | z
    · rw [Option.map_none, Option.getD_none] at hpos
      omega
    · exact hok z rfl
  rw [configPragmaCipher] at h
  dsimp only at h
  generalize (if configDefault = true then "default:cipher" else "cipher") = name at h hchanges
  split at h
  · split at h
    · obtain ⟨_, _, heq⟩ := Option.map_eq_some_iff.mp h
      rw [snd_of_some (congrArg some heq)]
      exact hchanges
    · rw [snd_of_some h]
      exact hchanges
  · rw [snd_of_some h]
    exact Changes.refl table

/-- A registered cipher is not at position `0` of the table, where everything may be selected. -/
theorem configPragmaCipherParam_changes (R : SqliteReaders) (table : List CodecParameter)
    (pragmaName : String) (pragmaValue : Option String) (configDefault granted : Bool)
    (hentry : ∀ c ∈ tables.cipherEntries, findTable table c.name = some 0 → ∀ v, ok v) :
    Changes (Made tables ok unchecked) table
      (configPragmaCipherParam R tables table pragmaName pragmaValue configDefault granted).2 := by
  rw [configPragmaCipherParam]
  dsimp only
  split
  · exact Changes.refl table
  rename_i entry hfind
  have hmem : entry ∈ tables.cipherEntries := List.mem_of_find?_eq_some hfind
  split
  · exact Changes.refl table
  split
  · exact Changes.refl table
  rename_i intValue _
  dsimp only
  split
  · exact Changes.refl table
  · exact sqlite3mcConfigCipherTable_changes table fun h0 _ => hentry entry hmem h0 _

/-- **The changes of a pragma.** -/
theorem sqlite3mcFileControlPragma_changes {R : SqliteReaders} {pragmaName : String}
    {pragmaValue : Option String} {configDefault granted : Bool} {r : PragmaReply}
    (h : sqlite3mcFileControlPragma R tables table pragmaName pragmaValue configDefault granted =
      some (r, table'))
    (hok : sqlite3Stricmp pragmaName "cipher" = true → ∀ z, pragmaValue = some z →
      ok (tables.pragmaCipherId z))
    (hentry : ∀ c ∈ tables.cipherEntries, findTable table c.name = some 0 → ∀ v, ok v) :
    Changes (Made tables ok unchecked) table table' := by
  rw [sqlite3mcFileControlPragma] at h
  split at h
  · rename_i hcipher
    exact configPragmaCipher_changes h (hok hcipher)
  split at h
  · rw [snd_of_some h]
    exact configPragmaFlag_changes R table (by decide) true pragmaValue
  split at h
  · rw [snd_of_some h]
    exact configPragmaFlag_changes R table (by decide) false pragmaValue
  split at h
  · cases h
  · rw [snd_of_some h]
    exact configPragmaCipherParam_changes R table pragmaName pragmaValue configDefault
      granted hentry

/-! ### The URI -/

/-- The value of the parameter `cipher`, `-1` if there is none. -/
def currentCipher (tables : CipherTables) (table : List CodecParameter) : ℤ :=
  (sqlite3mcConfigCommon tables.globalCipherCount table "cipher" (-1)).1

theorem currentCipher_eq (tables : CipherTables) (table : List CodecParameter) :
    currentCipher tables table =
      ((findParameter (paramsAt table 0) "cipher").map CipherParams.value).getD (-1) := by
  have hname : parseParamName "cipher" = ⟨false, false, false, "cipher"⟩ := by decide
  rw [currentCipher, sqlite3mcConfigCommon, hname]
  dsimp only
  rcases findParameter (paramsAt table 0) "cipher" with _ | p
  · rfl
  · dsimp only
    rw [if_neg (by omega)]
    rfl

theorem uriCipher_changes (table : List CodecParameter) (uri : UriParams)
    (hcurrent : 0 < currentCipher tables table → ok (currentCipher tables table)) :
    Changes (Made tables ok unchecked) table (uriCipher tables table uri).2 := by
  rw [uriCipher]
  dsimp only
  split
  · exact Changes.refl table
  split
  · exact sqlite3mcConfigCommon_changes _ _ fun _ hpos _ => hcurrent hpos
  · exact Changes.refl table

theorem configUriParams_changes (R : SqliteReaders) (uri : UriParams) (skipLegacy : Bool)
    (configDefault : Bool) (granted : String → Bool) (params : List CipherParams)
    (table : List CodecParameter) (hentry : findTable table cipherName = some 0 → ∀ v, ok v) :
    Changes (Made tables ok unchecked) table
      (configUriParams R uri cipherName skipLegacy configDefault granted params table) := by
  rw [configUriParams]
  induction params generalizing table with
  | nil => exact Changes.refl table
  | cons p params ih =>
    rw [List.foldl_cons]
    have hstep : Changes (Made tables ok unchecked) table
        (if (skipLegacy && sqlite3Stricmp p.name "legacy") = true then table
        else
          if uriValue R uri cipherName p.name ≥ 0 then
            if (configDefault && !granted p.name) = true then table
            else (sqlite3mcConfigCipherTable table cipherName
              (if configDefault then "default:" ++ p.name else p.name)
              (uriValue R uri cipherName p.name)).2
          else table) := by
      split
      · exact Changes.refl table
      split
      swap
      · exact Changes.refl table
      split
      · exact Changes.refl table
      · exact sqlite3mcConfigCipherTable_changes table fun h0 _ => hentry h0 _
    exact hstep.trans (ih _ fun h0 => hentry ((hstep.findTable cipherName).symm.trans h0))

/-- **The changes of a URI.** -/
theorem sqlite3mcConfigureFromUri_changes (R : SqliteReaders) (table : List CodecParameter)
    (uri : Option UriParams) (configDefault : Bool) (granted : String → Bool)
    (hcurrent : 0 < currentCipher tables table → ok (currentCipher tables table))
    (hcipher : ∀ u, uri = some u → ∀ name, (uriCipher tables table u).1 = some name →
      ok (tables.pragmaCipherId name))
    (hentry : ∀ c ∈ tables.cipherEntries, findTable table c.name = some 0 → ∀ v, ok v) :
    Changes (Made tables ok unchecked) table
      (sqlite3mcConfigureFromUri R tables table uri configDefault granted).2 := by
  rcases uri with _ | u
  · exact Changes.refl table
  rw [sqlite3mcConfigureFromUri]
  have hfirst : Changes (Made tables ok unchecked) table (uriCipher tables table u).2 :=
    uriCipher_changes table u hcurrent
  have hid := hcipher u rfl
  split
  · rename_i heq
    rw [heq] at hfirst
    exact hfirst
  rename_i cipherName t₁ heq
  rw [heq] at hfirst hid
  split
  · exact hfirst
  rename_i entry hfind
  have hmem : entry ∈ tables.cipherEntries := List.mem_of_find?_eq_some hfind
  have hname : sqlite3Stricmp cipherName entry.name = true := by simpa using List.find?_some hfind
  have hok : ok entry.id := by
    have h := hid cipherName rfl
    rwa [CipherTables.pragmaCipherId, hfind] at h
  -- the three common parameters
  have hsecond : Changes (Made tables ok unchecked) t₁
      (sqlite3mcConfigCommon tables.globalCipherCount t₁
        (if configDefault = true then "default:cipher" else "cipher") entry.id).2 :=
    sqlite3mcConfigCommon_changes _ _ fun _ _ _ => hok
  dsimp only
  generalize (sqlite3mcConfigCommon tables.globalCipherCount t₁
    (if configDefault = true then "default:cipher" else "cipher") entry.id).2 = t₂ at hsecond ⊢
  have hthird : Changes (Made tables ok unchecked) t₂
      (if (!u.boolean "hmac_check" true) = true then
        (sqlite3mcConfigCommon tables.globalCipherCount t₂ "hmac_check" 0).2 else t₂) := by
    split
    · refine sqlite3mcConfigCommon_changes _ _ fun h => ?_
      exact absurd h (by decide)
    · exact Changes.refl t₂
  generalize (if (!u.boolean "hmac_check" true) = true then
    (sqlite3mcConfigCommon tables.globalCipherCount t₂ "hmac_check" 0).2 else t₂) = t₃ at hthird ⊢
  have hfourth : Changes (Made tables ok unchecked) t₃
      (sqlite3mcConfigCommon tables.globalCipherCount t₃ "mc_legacy_wal"
        (if u.boolean "mc_legacy_wal" false = true then 1 else 0)).2 := by
    refine sqlite3mcConfigCommon_changes _ _ fun h => ?_
    exact absurd h (by decide)
  generalize (sqlite3mcConfigCommon tables.globalCipherCount t₃ "mc_legacy_wal"
    (if u.boolean "mc_legacy_wal" false = true then 1 else 0)).2 = t₄ at hfourth ⊢
  have hcommon := ((hfirst.trans hsecond).trans hthird).trans hfourth
  -- the parameters of the cipher
  have hplace : findTable t₄ cipherName = some 0 → ∀ v, ok v := by
    intro h0
    rw [findTable_congr hname, hcommon.findTable] at h0
    exact hentry entry hmem h0
  refine hcommon.trans ?_
  split
  · have hlegacy : Changes (Made tables ok unchecked) t₄
        (sqlite3mcConfigCipherTable t₄ cipherName
          (if configDefault = true then "default:legacy" else "legacy") (u.int64 "legacy" 0)).2 :=
      sqlite3mcConfigCipherTable_changes t₄ fun h0 _ => hplace h0 _
    exact hlegacy.trans (configUriParams_changes R u _ configDefault granted entry.params _
      fun h0 => hplace ((hlegacy.findTable cipherName).symm.trans h0))
  · exact configUriParams_changes R u _ configDefault granted entry.params t₄ hplace

end Made

end MultipleCiphers
