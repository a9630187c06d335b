import MultipleCiphers.Config.Lookup

/-!
# The SQL function and the C functions

The SQL function `sqlite3mc_config` sets a common parameter or the parameter of a cipher, and so do
`sqlite3mc_config` and `sqlite3mc_config_cipher`. The two were written apart. This file compares
them on the table of a connection, in whatever state registrations and settings have brought it to.

They agree where the C functions set a value: the tables are the same afterwards, and the SQL
function returns NULL when the value is not accepted. What is different is the parameter `cipher`.
The C function takes the number of a cipher. The SQL function takes its name, and refuses numbers.
It also looks for a common parameter first, so that a cipher called like one is out of its reach.

## What is left out

Two tests of the C functions are not made by the SQL function: a common parameter with the prefix
`min:` or `max:` is not to be changed, and `checkParameterValue`. What the SQL function does there
is not part of the comparison.

## Main results

* `AgreeInv.registryStep` — what the tables of the connections keep along a run.
* `configParamsCommon_agrees`, `configParamsCipher_agrees` — the two ways, on one table.
* `sqlConfig_agrees` — the SQL function agrees with the C functions in every reachable state.
-/

namespace MultipleCiphers

open Transition

/-! ### What registration and settings keep -/

/-- The tables of the connections are those of some of the registered ciphers, which have passed the
checks; the values may be any. -/
structure AgreeInv (w : World) (cs : List RegisteredCipher) (common : List CipherParams) :
    Prop where
  registered : Registered cs
  checked : ∀ c ∈ cs, c.Checked
  tables : w.tables = layout cs common
  common : common.map CipherParams.bounds = commonParams.map CipherParams.bounds
  conns : ∀ table ∈ w.conns, ∃ ds, ds <+: cs ∧ table.map CodecParameter.shape = tableShape ds

/-- **What an event does to the tables of the connections**: one is opened, or the values and the
defaults of one table are changed. -/
theorem World.configStep_conns {R : SqliteReaders} {w w' : World} {e : ConfigEvent}
    {reply : ConfigReply} (hstep : w.configStep R e = some (reply, w')) :
    w' = w ∨ w' = { w with conns := w.conns ++ [w.tables.sqlite3mcCloneCodecParameterTable] } ∨
      ∃ db table table', w.conns[db]? = some table ∧ w' = w.setTable db table' ∧
        table'.map CodecParameter.shape = table.map CodecParameter.shape := by
  have hset : ∀ {db : ℕ} {table table' : List CodecParameter}, w.conns[db]? = some table →
      Changes (Made w.tables (fun _ => True) True) table table' →
      ∃ db' t t', w.conns[db']? = some t ∧ w.setTable db table' = w.setTable db' t' ∧
        t'.map CodecParameter.shape = t.map CodecParameter.shape :=
    fun htable hc => ⟨_, _, _, htable, rfl, hc.shape⟩
  cases e with
  | openDb =>
    cases hstep
    exact .inr (.inl rfl)
  | config db paramName newValue =>
    cases hstep
    rcases w.sqlite3mcConfig_cases db paramName newValue with
      heq | ⟨name, d, table, -, -, htable, -, heq⟩
    · exact .inl heq
    · rw [heq]
      exact .inr (.inr (hset htable (sqlite3mcConfigCommon_changes _ table fun _ _ _ => trivial)))
  | configCipher db cipherName paramName newValue =>
    cases hstep
    rcases w.sqlite3mcConfigCipher_cases db cipherName paramName newValue with
      heq | ⟨cipher, name, d, table, -, -, -, htable, -, heq⟩
    · exact .inl heq
    · rw [heq]
      exact .inr (.inr (hset htable (sqlite3mcConfigCipherTable_changes table fun _ _ => trivial)))
  | configParams db args granted =>
    obtain ⟨table, htable, hstep⟩ := Option.bind_eq_some_iff.mp hstep
    obtain ⟨⟨r, table'⟩, hr, hstep⟩ := Option.map_eq_some_iff.mp hstep
    cases hstep
    exact .inr (.inr (hset htable (sqlite3mcConfigParams_changes hr (fun _ _ _ _ _ _ => trivial)
      (fun _ _ _ _ _ _ _ => trivial) (Or.inl trivial))))
  | pragma db pragmaName pragmaValue configDefault granted =>
    obtain ⟨table, htable, hstep⟩ := Option.bind_eq_some_iff.mp hstep
    obtain ⟨⟨r, table'⟩, hr, hstep⟩ := Option.map_eq_some_iff.mp hstep
    cases hstep
    exact .inr (.inr (hset htable (sqlite3mcFileControlPragma_changes hr (fun _ _ _ => trivial)
      (fun _ _ _ _ => trivial))))
  | uri db uri configDefault granted =>
    obtain ⟨table, htable, hstep⟩ := Option.map_eq_some_iff.mp hstep
    cases hstep
    exact .inr (.inr (hset htable
      (sqlite3mcConfigureFromUri_changes R table uri configDefault granted
      (fun _ => trivial) (fun _ _ _ _ => trivial) (fun _ _ _ _ => trivial))))
  | useParameter db j paramName =>
    obtain ⟨table, htable, hstep⟩ := Option.map_eq_some_iff.mp hstep
    cases hstep
    exact .inr (.inr ⟨db, table, _, htable, rfl, shape_modifyAt
      (f := fun p => { p with value := p.default }) (fun _ => rfl) table j paramName⟩)

section Run

variable {cs : List RegisteredCipher} {common : List CipherParams} {R : SqliteReaders}
  {w w' : World} {table : List CodecParameter}

theorem AgreeInv.configStep (h : AgreeInv w cs common) {e : ConfigEvent} {reply : ConfigReply}
    (hstep : w.configStep R e = some (reply, w')) : AgreeInv w' cs common := by
  rcases World.configStep_conns hstep with rfl | rfl | ⟨db, table, table', htable, rfl, hshape⟩
  · exact h
  · refine ⟨h.registered, h.checked, h.tables, h.common, fun table ht => ?_⟩
    rcases List.mem_append.mp ht with ht | ht
    · exact h.conns table ht
    · rw [List.mem_singleton.mp ht, h.tables,
        sqlite3mcCloneCodecParameterTable_layout h.registered common]
      refine ⟨cs, List.prefix_refl cs, ?_⟩
      rw [tableShape, List.map_cons, List.map_cons, CodecParameter.shape, h.common]
      rfl
  · refine ⟨h.registered, h.checked, h.tables, h.common, fun t ht => ?_⟩
    rcases List.mem_or_eq_of_mem_set ht with ht | rfl
    · exact h.conns t ht
    · rw [hshape]
      exact h.conns table (List.mem_of_getElem? htable)

/-- **A step keeps the invariant.** -/
theorem AgreeInv.registryStep (h : AgreeInv w cs common) {e : RegistryEvent}
    (hstep : RegistryStep R w e w') : ∃ cs' common', AgreeInv w' cs' common' := by
  rw [RegistryStep] at hstep
  cases e with
  | config e =>
    obtain ⟨⟨reply, w₁⟩, hr, rfl⟩ := Option.map_eq_some_iff.mp hstep
    exact ⟨cs, common, h.configStep hr⟩
  | register call =>
    obtain ⟨⟨rc, t⟩, hr, rfl⟩ := Option.map_eq_some_iff.mp hstep
    rw [h.tables] at hr
    rcases sqlite3mcRegisterCipher_checked h.registered hr with ⟨_, rfl⟩ | ⟨_, c, hc, hcs, rfl⟩
    · exact ⟨cs, common, h.registered, h.checked, rfl, h.common, h.conns⟩
    · refine ⟨cs ++ [c], _, hcs, fun d hd => ?_, rfl, ?_, fun table ht => ?_⟩
      · rcases List.mem_append.mp hd with hd | hd
        · exact h.checked d hd
        · rwa [List.mem_singleton.mp hd]
      · split
        · exact (map_modifyParameter (f := fun p =>
            { p with value := (cs.length + 1 : ℕ), default := (cs.length + 1 : ℕ) })
            CipherParams.bounds (fun _ => rfl) _ common).trans h.common
        · exact h.common
      · obtain ⟨ds, hpre, hds⟩ := h.conns table ht
        exact ⟨ds, hpre.trans (List.prefix_append cs [c]), hds⟩

/-- The invariant holds in every reachable state. -/
theorem exists_agreeInv_of_run {events : List RegistryEvent}
    (hrun : Run (RegistryStep R) emptyWorld events w) : ∃ cs common, AgreeInv w cs common := by
  have hempty : AgreeInv emptyWorld [] commonParams :=
    ⟨registered_nil, fun c hc => absurd hc List.not_mem_nil, sqlite3mcInitCipherTables_eq, rfl,
      fun table ht => absurd ht List.not_mem_nil⟩
  exact hrun.invariant (fun w => ∃ cs common, AgreeInv w cs common)
    (fun ⟨_, _, h⟩ hstep => h.registryStep hstep) ⟨[], commonParams, hempty⟩

end Run

/-! ### Names without a prefix -/

theorem toLower_ne_colon {c : Char} (h : c ≠ ':') : c.toLower ≠ ':' := by
  intro heq
  delta Char.toLower at heq
  split at heq
  · rename_i hupper
    have hval := congrArg (fun d : Char => d.val.toNat) heq
    have hlow : 65 ≤ c.val.toNat := hupper.1
    have hhigh : c.val.toNat ≤ 90 := hupper.2
    simp only [UInt32.toNat_add] at hval
    have hcolon : (':' : Char).val.toNat = 58 := by decide
    have hshift : ('a'.val - 'A'.val).toNat = 32 := by decide
    rw [hcolon, hshift] at hval
    omega
  · exact h heq

/-- Strings that are equal up to case both have a colon or both have none. -/
theorem colon_notMem_congr {a b : List Char} (h : a.map Char.toLower = b.map Char.toLower)
    (hb : ':' ∉ b) : ':' ∉ a := by
  intro ha
  have hmem : ':' ∈ b.map Char.toLower := by
    rw [← h]
    exact List.mem_map_of_mem (f := Char.toLower) ha
  obtain ⟨c, hc, hcolon⟩ := List.mem_map.mp hmem
  exact toLower_ne_colon (fun heq => hb (heq ▸ hc)) hcolon

theorem splitStart_of_colon {start s : String} (hstart : ':' ∈ start.toList)
    (hs : ':' ∉ s.toList) : splitStart start s = (false, s) := by
  rw [splitStart, if_neg]
  intro heq
  exact colon_notMem_congr heq.symm (fun hmem => hs (List.mem_of_mem_take hmem)) hstart

/-- A name without a colon is taken as it is. -/
theorem parseParamName_of_colon {s : String} (hs : ':' ∉ s.toList) :
    parseParamName s = ⟨false, false, false, s⟩ := by
  have hdefault : splitStart "default:" s = (false, s) := splitStart_of_colon (by decide) hs
  have hmin : splitStart "min:" s = (false, s) := splitStart_of_colon (by decide) hs
  have hmax : splitStart "max:" s = (false, s) := splitStart_of_colon (by decide) hs
  rw [parseParamName, hdefault]
  simp only [hmin, hmax]

/-! ### The tables of the connections -/

section Table

variable {cs : List RegisteredCipher} {common : List CipherParams} {w : World}
  {table : List CodecParameter} {p : CipherParams}

/-- The common parameters of a connection have the bounds they came with. -/
theorem AgreeInv.common_bounds (h : AgreeInv w cs common) (ht : table ∈ w.conns) :
    (paramsAt table 0).map CipherParams.bounds = commonParams.map CipherParams.bounds := by
  obtain ⟨ds, _, hshape⟩ := h.conns table ht
  rw [paramsAt_bounds, hshape]
  rfl

/-- An entry of a table is the one for the common parameters or that of a cipher. -/
theorem AgreeInv.entry (h : AgreeInv w cs common) (ht : table ∈ w.conns) {j : ℕ}
    {e : CodecParameter} (he : table[j]? = some e) :
    (e.name = "global" ∧ e.params.map CipherParams.bounds = commonParams.map CipherParams.bounds) ∨
      ∃ c ∈ cs, e.name = c.name ∧
        e.params.map CipherParams.bounds = c.params.map CipherParams.bounds := by
  obtain ⟨ds, hpre, hshape⟩ := h.conns table ht
  have hget : (tableShape ds)[j]? = some e.shape := by
    rw [← hshape, List.getElem?_map, he]
    rfl
  rw [tableShape, List.map_cons] at hget
  cases j with
  | zero =>
    rw [List.getElem?_cons_zero, Option.some_inj] at hget
    exact .inl ⟨(congrArg (fun s => s.1) hget).symm, (congrArg (fun s => s.2.2) hget).symm⟩
  | succ j =>
    rw [List.getElem?_cons_succ, List.getElem?_map, getElem?_parameterEntries,
      Option.map_map] at hget
    obtain ⟨c, hc, hcshape⟩ := Option.map_eq_some_iff.mp hget
    exact .inr ⟨c, hpre.subset (List.mem_of_getElem? hc),
      (congrArg (fun s => s.1) hcshape).symm, (congrArg (fun s => s.2.2) hcshape).symm⟩

/-- No bound is negative. -/
theorem AgreeInv.minValue_nonneg (h : AgreeInv w cs common) (ht : table ∈ w.conns) {j : ℕ}
    (hp : p ∈ paramsAt table j) : 0 ≤ p.minValue := by
  rcases he : table[j]? with _ | e
  · rw [paramsAt, he] at hp
    cases hp
  have hmem : p.bounds ∈ e.params.map CipherParams.bounds := by
    rw [paramsAt, he] at hp
    exact List.mem_map_of_mem hp
  have hcommon : ∀ q ∈ commonParams, 0 ≤ q.minValue := by decide
  have hall : ∀ params : List CipherParams, (∀ q ∈ params, 0 ≤ q.minValue) →
      p.bounds ∈ params.map CipherParams.bounds → 0 ≤ p.minValue := by
    intro params hparams hbounds
    obtain ⟨q, hq, heq⟩ := List.mem_map.mp hbounds
    have hqp : q.minValue = p.minValue := congrArg (fun b => b.2.1) heq
    rw [← hqp]
    exact hparams q hq
  rcases h.entry ht he with ⟨_, hbounds⟩ | ⟨c, hc, _, hbounds⟩
  · exact hall _ hcommon (hbounds ▸ hmem)
  · exact hall _ (h.checked c hc).minValue_nonneg (hbounds ▸ hmem)

/-- A name that leads to an entry has no prefix. -/
theorem AgreeInv.parseParamName (h : AgreeInv w cs common) (ht : table ∈ w.conns) {j : ℕ}
    {cipherName : String} (hj : findTable table cipherName = some j) :
    parseParamName cipherName = ⟨false, false, false, cipherName⟩ := by
  obtain ⟨hlt, -⟩ := List.findIdx?_eq_some_iff_getElem.mp hj
  have he : table[j]? = some table[j] := List.getElem?_eq_getElem hlt
  have hname := sqlite3Stricmp_eq_true.mp (name_of_findTable hj he)
  refine parseParamName_of_colon (colon_notMem_congr hname ?_)
  rcases h.entry ht he with ⟨hglobal, _⟩ | ⟨c, hc, hcipher, _⟩
  · rw [hglobal]
    decide
  · rw [hcipher]
    exact (h.checked c hc).name

end Table

/-! ### The values that are accepted -/

/-- `sqlite3mc_config` gets as far as the assignment of the value. -/
def CommonAccepts (cipherCount : ℕ) (table : List CodecParameter) (n : ParamName) (newValue : ℤ) :
    Prop :=
  ∃ p, findParameter (paramsAt table 0) n.paramName = some p ∧ ¬ n.IsBound ∧ 0 ≤ newValue ∧
    p.minValue ≤ newValue ∧ newValue ≤ p.maxValue ∧
      (sqlite3Stricmp n.paramName "cipher" = true → 0 < newValue ∧ newValue ≤ cipherCount)

/-- `sqlite3mc_config_cipher` gets as far as the assignment of the value. -/
def CipherAccepts (table : List CodecParameter) (cipherName : String) (n : ParamName)
    (newValue : ℤ) : Prop :=
  ∃ j p, findTable table cipherName = some j ∧
    findParameter (paramsAt table j) n.paramName = some p ∧ ¬ n.IsBound ∧ 0 ≤ newValue ∧
      p.minValue ≤ newValue ∧ newValue ≤ p.maxValue ∧
        checkParameterValue n.paramName newValue cipherName = true

/-- The SQL function leaves the table that the C function leaves, and returns NULL exactly when the
C function does not accept the value. -/
def Agrees (sql : Option (SqlReply × List CodecParameter)) (c : ℤ × List CodecParameter)
    (accepts : Prop) : Prop :=
  ∃ reply, sql = some (reply, c.2) ∧ (reply = .null ↔ ¬ accepts)

theorem not_isBound_iff {n : ParamName} :
    ¬ n.IsBound ↔ (!n.hasMinPrefix) = true ∧ (!n.hasMaxPrefix) = true := by
  rw [ParamName.IsBound, not_or, Bool.not_eq_true', Bool.not_eq_true', Bool.not_eq_true,
    Bool.not_eq_true]

section Accepts

variable {cipherCount : ℕ} {table : List CodecParameter} {paramName cipherName : String}
  {newValue : ℤ}

/-- What `sqlite3mc_config` does with a value that it accepts. -/
theorem sqlite3mcConfigCommon_of_accepts
    (h : CommonAccepts cipherCount table (parseParamName paramName) newValue) :
    sqlite3mcConfigCommon cipherCount table paramName newValue =
      (newValue, modifyAt table 0 (parseParamName paramName).paramName
        (CipherParams.write newValue ((parseParamName paramName).hasDefaultPrefix &&
          !sqlite3Stricmp (parseParamName paramName).paramName "hmac_check"))) := by
  obtain ⟨p, hp, hbound, hpos, hmin, hmax, hcipher⟩ := h
  obtain ⟨hnmin, hnmax⟩ := not_isBound_iff.mp hbound
  rw [sqlite3mcConfigCommon]
  simp only [hp]
  rw [if_pos ⟨hnmin, hnmax, hpos, hmin, hmax⟩, if_pos]
  split
  · rename_i hname
    exact decide_eq_true (hcipher hname)
  · rfl

/-- `sqlite3mc_config` leaves the table as it is if it does not accept the value. -/
theorem sqlite3mcConfigCommon_of_not_accepts
    (h : ¬ CommonAccepts cipherCount table (parseParamName paramName) newValue) :
    (sqlite3mcConfigCommon cipherCount table paramName newValue).2 = table := by
  by_cases hbound : (parseParamName paramName).IsBound
  · exact sqlite3mcConfigCommon_isBound cipherCount table hbound
  rcases sqlite3mcConfigCommon_cases cipherCount table paramName newValue with
    heq | ⟨-, hpos, p, hp, hmin, hmax, hcipher, -⟩
  · exact heq
  · exact absurd ⟨p, hp, hbound, hpos, hmin, hmax, hcipher⟩ h

end Accepts

/-! ### The two ways, on one table -/

/-- A text and an integer as arguments of the SQL function. -/
def sqlText (s : String) : SqlArg := ⟨.text, s, 0⟩

def sqlInteger (value : ℤ) : SqlArg := ⟨.integer, toString value, value⟩

section Agreement

variable {tables : CipherTables} {table : List CodecParameter} {paramName cipherName : String}
  {newValue : ℤ} {granted : Bool}

/-- A name that is not one of a common parameter cannot be set to an integer. -/
theorem sqlite3mcConfigParams_unknown
    (h : findParameter (paramsAt table 0) (parseParamName paramName).paramName = none) :
    sqlite3mcConfigParams tables table [sqlText paramName, sqlInteger newValue] granted =
      some (.null, table) := by
  have htype : ¬ ((sqlText paramName).type = .null ∨ (sqlInteger newValue).type = .null) := by
    rintro (h | h) <;> cases h
  have hname : (sqlText paramName).text = paramName := rfl
  rw [sqlite3mcConfigParams, if_neg (by simp), if_neg htype, hname]
  simp only [h]
  split
  · rfl
  split
  · rfl
  · rw [configParamsCipher, if_neg (by simp [sqlInteger])]

/-- A common parameter is set by `configParamsCommon`. -/
theorem sqlite3mcConfigParams_common {param1 : CipherParams} {arg1 : SqlArg}
    (h : findParameter (paramsAt table 0) (parseParamName paramName).paramName = some param1)
    (harg1 : arg1.type ≠ .null) :
    sqlite3mcConfigParams tables table [sqlText paramName, arg1] granted =
      some (configParamsCommon tables table (parseParamName paramName) param1 arg1) := by
  have htype : ¬ ((sqlText paramName).type = .null ∨ arg1.type = .null) := by
    rintro (h | h)
    · cases h
    · exact harg1 h
  have hname : (sqlText paramName).text = paramName := rfl
  rw [sqlite3mcConfigParams, if_neg (by simp), if_neg htype, hname]
  simp only [h, if_true]

/-- **A common parameter other than `cipher`.** -/
theorem configParamsCommon_agrees {param1 : CipherParams} (cipherCount : ℕ)
    (hfound : findParameter (paramsAt table 0) (parseParamName paramName).paramName = some param1)
    (hmin : 0 ≤ param1.minValue) (hbound : ¬ (parseParamName paramName).IsBound)
    (hcipher : sqlite3Stricmp (parseParamName paramName).paramName "cipher" = false) :
    Agrees (some (configParamsCommon tables table (parseParamName paramName) param1
        (sqlInteger newValue)))
      (sqlite3mcConfigCommon cipherCount table paramName newValue)
      (CommonAccepts cipherCount table (parseParamName paramName) newValue) := by
  have htype : (sqlInteger newValue).type = .integer := rfl
  have hint : (sqlInteger newValue).int = newValue := rfl
  rw [configParamsCommon, if_neg (by rw [hcipher]; decide), if_pos htype, hint]
  by_cases hrange : newValue ≥ param1.minValue ∧ newValue ≤ param1.maxValue
  · have haccepts : CommonAccepts cipherCount table (parseParamName paramName) newValue :=
      ⟨param1, hfound, hbound, by omega, hrange.1, hrange.2, fun h => by rw [hcipher] at h; cases h⟩
    rw [if_pos hrange, sqlite3mcConfigCommon_of_accepts haccepts]
    exact ⟨_, rfl, by simp [haccepts]⟩
  · have hnot : ¬ CommonAccepts cipherCount table (parseParamName paramName) newValue := by
      rintro ⟨p, hp, _, _, hlow, hhigh, _⟩
      obtain rfl := Option.some_inj.mp (hfound.symm.trans hp)
      exact hrange ⟨hlow, hhigh⟩
    rw [if_neg hrange]
    exact ⟨.null, by rw [sqlite3mcConfigCommon_of_not_accepts hnot], by simp [hnot]⟩

/-- **The parameter of a cipher.** Both ways switch to a version of SQLCipher first. -/
theorem configParamsCipher_agrees {j : ℕ} (hj : findTable table cipherName = some j)
    (hmin : ∀ p ∈ paramsAt table j, 0 ≤ p.minValue)
    (hcheck : checkParameterValue (parseParamName paramName).paramName newValue cipherName = true) :
    Agrees (some (configParamsCipher table j cipherName (sqlText paramName)
        (some (sqlInteger newValue))))
      (sqlite3mcConfigCipherTable table cipherName paramName newValue)
      (CipherAccepts table cipherName (parseParamName paramName) newValue) := by
  obtain ⟨n, hn⟩ : ∃ n, n = parseParamName paramName := ⟨_, rfl⟩
  rw [← hn] at hcheck ⊢
  obtain ⟨V, hV⟩ : ∃ V, V =
      if sqlite3Stricmp cipherName "sqlcipher" ∧ sqlite3Stricmp n.paramName "legacy" ∧
          !n.hasMinPrefix ∧ !n.hasMaxPrefix ∧ newValue > 0 ∧ newValue ≤ sqlcipherVersionMax then
        sqlite3mcConfigureSQLCipherVersion table n.hasDefaultPrefix newValue
      else table := ⟨_, rfl⟩
  have hshape : V.map CodecParameter.shape = table.map CodecParameter.shape := by
    have hchanges : Changes (Made sqlite3mcInitCipherTables (fun _ => True) True) table
        (sqlite3mcConfigureSQLCipherVersion table n.hasDefaultPrefix newValue) :=
      sqlite3mcConfigureSQLCipherVersion_changes table _ newValue
    rw [hV]
    split
    · exact hchanges.shape
    · rfl
  have hbounds : (findParameter (paramsAt V j) n.paramName).map CipherParams.bounds =
      (findParameter (paramsAt table j) n.paramName).map CipherParams.bounds := by
    rw [findParameter_bounds, findParameter_bounds, paramsAt_bounds, paramsAt_bounds, hshape]
  have hc : sqlite3mcConfigCipherTable table cipherName paramName newValue =
      configCipherParam V j n cipherName newValue := by
    rw [sqlite3mcConfigCipherTable, ← hn]
    simp only [hj]
    rw [hV]
  obtain ⟨isSet, hisSet⟩ : ∃ b, b = (!n.hasMinPrefix && !n.hasMaxPrefix &&
      (some (sqlInteger newValue)).any fun a => decide (a.type = .integer)) := ⟨_, rfl⟩
  have hset : isSet = true ↔ ¬ n.IsBound := by
    rw [hisSet, not_isBound_iff, Bool.and_eq_true, Bool.and_eq_true]
    exact and_iff_left rfl
  have hVsql : (if sqlite3Stricmp cipherName "sqlcipher" ∧ sqlite3Stricmp n.paramName "legacy" ∧
      isSet ∧ newValue > 0 ∧ newValue ≤ sqlcipherVersionMax then
        sqlite3mcConfigureSQLCipherVersion table n.hasDefaultPrefix newValue
      else table) = V := by
    rw [hV]
    refine if_congr ?_ rfl rfl
    rw [hset, not_isBound_iff, and_assoc]
  have hsql : configParamsCipher table j cipherName (sqlText paramName)
      (some (sqlInteger newValue)) =
        (findParameter (paramsAt V j) n.paramName).elim (.null, V) fun param2 =>
          if isSet then
            if newValue ≥ param2.minValue ∧ newValue ≤ param2.maxValue then
              (.int newValue, modifyAt V j n.paramName
                (CipherParams.write newValue n.hasDefaultPrefix))
            else (.null, V)
          else (.null, V) := by
    have htype : (sqlText paramName).type = .text := rfl
    have htext : parseParamName (sqlText paramName).text = n := hn.symm
    have hint : ((some (sqlInteger newValue)).map (·.int)).getD 0 = newValue := rfl
    rw [configParamsCipher, if_pos htype]
    simp only [htext, hint, ← hisSet, hVsql, reduceCtorEq, if_false]
    cases findParameter (paramsAt V j) n.paramName <;> rfl
  -- the bounds of the parameter are those it had before the switch
  rw [hsql, hc, configCipherParam]
  rcases hfind : findParameter (paramsAt V j) n.paramName with _ | param2
  · refine ⟨.null, rfl, iff_of_true rfl ?_⟩
    rintro ⟨j', p, hj', hp, -⟩
    obtain rfl := Option.some_inj.mp (hj.symm.trans hj')
    rw [hfind, hp] at hbounds
    cases hbounds
  rw [hfind, Option.map_some] at hbounds
  rw [Option.elim_some]
  obtain ⟨p, hp, hpbounds⟩ := Option.map_eq_some_iff.mp hbounds.symm
  have hlow : p.minValue = param2.minValue := congrArg (fun b => b.2.1) hpbounds
  have hhigh : p.maxValue = param2.maxValue := congrArg (fun b => b.2.2) hpbounds
  have hpos : 0 ≤ param2.minValue := hlow ▸ hmin p (mem_of_findParameter hp).1
  have haccepts : CipherAccepts table cipherName n newValue ↔
      ¬ n.IsBound ∧ newValue ≥ param2.minValue ∧ newValue ≤ param2.maxValue := by
    constructor
    · rintro ⟨j', q, hj', hq, hbound, -, hqlow, hqhigh, -⟩
      obtain rfl := Option.some_inj.mp (hj.symm.trans hj')
      obtain rfl := Option.some_inj.mp (hp.symm.trans hq)
      exact ⟨hbound, by omega, by omega⟩
    · rintro ⟨hbound, hmin', hmax'⟩
      exact ⟨j, p, hj, hp, hbound, by omega, by omega, by omega, hcheck⟩
  simp only [haccepts]
  by_cases hbound : n.IsBound
  · rw [if_neg (by rw [hset]; exact not_not.mpr hbound),
      if_neg fun h => hbound.elim (fun hb => by simp [hb] at h) fun hb => by simp [hb] at h]
    exact ⟨.null, rfl, by simp [hbound]⟩
  · obtain ⟨hnmin, hnmax⟩ := not_isBound_iff.mp hbound
    rw [if_pos (hset.mpr hbound)]
    by_cases hrange : newValue ≥ param2.minValue ∧ newValue ≤ param2.maxValue
    · rw [if_pos hrange, if_pos ⟨hnmin, hnmax, by omega, hrange.1, hrange.2, hcheck⟩]
      exact ⟨_, rfl, by simp [hbound, hrange]⟩
    · rw [if_neg hrange, if_neg fun h => hrange ⟨h.2.2.2.1, h.2.2.2.2.1⟩]
      exact ⟨.null, rfl, iff_of_true rfl fun h => hrange h.2⟩

/-- The SQL function with the name of a cipher, that of a parameter, and a value. -/
theorem sqlite3mcConfigParams_cipher :
    sqlite3mcConfigParams tables table [sqlText cipherName, sqlText paramName, sqlInteger newValue]
        granted =
      match findParameter (paramsAt table 0) (parseParamName cipherName).paramName with
      | some _ => some (.null, table)
      | none =>
        if (parseParamName cipherName).hasDefaultPrefix ||
          (parseParamName cipherName).hasMinPrefix ||
            (parseParamName cipherName).hasMaxPrefix then some (.null, table)
        else
          match findTable table (parseParamName cipherName).paramName with
          | none => some (.null, table)
          | some j => some (configParamsCipher table j (parseParamName cipherName).paramName
              (sqlText paramName) (some (sqlInteger newValue))) := by
  have htype : ¬ ((sqlText cipherName).type = .null ∨ (sqlText paramName).type = .null) := by
    rintro (h | h) <;> cases h
  have hname : (sqlText cipherName).text = cipherName := rfl
  rw [sqlite3mcConfigParams, if_neg (by simp), if_neg htype, hname]
  rfl

end Agreement

/-- What is left of a name that begins with no prefix. -/
theorem paramName_of_noPrefix {s : String}
    (h : ((parseParamName s).hasDefaultPrefix || (parseParamName s).hasMinPrefix ||
      (parseParamName s).hasMaxPrefix) = false) : (parseParamName s).paramName = s := by
  have hsplit : ∀ start t : String, (splitStart start t).1 = false →
      (splitStart start t).2 = t := by
    intro start t ht
    rw [splitStart] at ht ⊢
    split at ht
    · cases ht
    · rename_i hne
      rw [if_neg hne]
  rw [Bool.or_eq_false_iff, Bool.or_eq_false_iff] at h
  obtain ⟨⟨hdefault, hmin⟩, hmax⟩ := h
  simp only [parseParamName] at hdefault hmin hmax ⊢
  rw [hsplit "default:" s hdefault] at hmin hmax ⊢
  rw [hsplit "min:" s hmin] at hmax ⊢
  exact hsplit "max:" s hmax

/-! ### In every reachable state -/

/-- How the SQL function and the C functions compare on the table of a connection. -/
structure SqlConfigAgrees (w : World) (table : List CodecParameter) (paramName : String)
    (newValue : ℤ) (granted : Bool) : Prop where
  /-- A common parameter other than `cipher`, not under `min:` or `max:`; or an unknown one. -/
  common : sqlite3Stricmp (parseParamName paramName).paramName "cipher" = false →
    ((parseParamName paramName).IsBound →
      findParameter (paramsAt table 0) (parseParamName paramName).paramName = none) →
    Agrees (sqlite3mcConfigParams w.tables table [sqlText paramName, sqlInteger newValue] granted)
      (sqlite3mcConfigCommon w.tables.globalCipherCount table paramName newValue)
      (CommonAccepts w.tables.globalCipherCount table (parseParamName paramName) newValue)
  /-- The parameter `cipher` is not set by a number, -/
  cipherNumber : sqlite3Stricmp (parseParamName paramName).paramName "cipher" = true →
    sqlite3mcConfigParams w.tables table [sqlText paramName, sqlInteger newValue] granted =
      some (.null, table)
  /-- but by a name, with the effect of the number. -/
  cipherName : sqlite3Stricmp (parseParamName paramName).paramName "cipher" = true →
    ¬ (parseParamName paramName).IsBound → 0 < newValue →
    newValue ≤ w.tables.globalCipherCount → ∀ name, w.tables.descriptorName newValue = some name →
      sqlite3mcConfigParams w.tables table [sqlText paramName, sqlText name] granted =
        some (.text name,
          (sqlite3mcConfigCommon w.tables.globalCipherCount table paramName newValue).2)
  /-- The parameter of a cipher, with a value that `checkParameterValue` lets pass. -/
  cipherParam : ∀ cipher, findParameter (paramsAt table 0) cipher = none →
    checkParameterValue (parseParamName paramName).paramName newValue cipher = true →
    Agrees (sqlite3mcConfigParams w.tables table
        [sqlText cipher, sqlText paramName, sqlInteger newValue] granted)
      (sqlite3mcConfigCipherTable table cipher paramName newValue)
      (CipherAccepts table cipher (parseParamName paramName) newValue)
  /-- A cipher that is called like a common parameter is not found. -/
  cipherHidden : ∀ cipher p, findParameter (paramsAt table 0) cipher = some p →
    sqlite3mcConfigParams w.tables table
        [sqlText cipher, sqlText paramName, sqlInteger newValue] granted =
      some (.null, table)

section Reachable

variable {cs : List RegisteredCipher} {common : List CipherParams} {w : World}
  {table : List CodecParameter} {paramName : String} {p : CipherParams}

/-- The parameter `cipher` of a connection. -/
theorem AgreeInv.cipher_param (h : AgreeInv w cs common) (ht : table ∈ w.conns) {name : String}
    (hname : sqlite3Stricmp name "cipher" = true) :
    ∃ p, findParameter (paramsAt table 0) name = some p ∧ p.minValue = 1 ∧ p.maxValue = 16 := by
  have hfind := findParameter_bounds (paramsAt table 0) name
  have hsame : ((paramsAt table 0).map CipherParams.bounds).find?
      (fun b => sqlite3Stricmp name b.1) =
      some ("cipher", 1, 16) := by
    have hcongr : (fun b : String × ℤ × ℤ => sqlite3Stricmp name b.1) =
        fun b => sqlite3Stricmp "cipher" b.1 := funext fun b => sqlite3Stricmp_congr hname b.1
    rw [h.common_bounds ht, hcongr]
    decide
  rw [hsame] at hfind
  obtain ⟨p, hp, hbounds⟩ := Option.map_eq_some_iff.mp hfind
  exact ⟨p, hp, congrArg (fun b => b.2.1) hbounds, congrArg (fun b => b.2.2) hbounds⟩

/-- The SQL function finds a cipher by its name, and sets its number. -/
theorem AgreeInv.cipherName (h : AgreeInv w cs common) (ht : table ∈ w.conns) (granted : Bool)
    (hcipher : sqlite3Stricmp (MultipleCiphers.parseParamName paramName).paramName "cipher" = true)
    (hbound : ¬ (MultipleCiphers.parseParamName paramName).IsBound) {id : ℤ} (hpos : 0 < id)
    (hle : id ≤ w.tables.globalCipherCount) {name : String}
    (hname : w.tables.descriptorName id = some name) :
    sqlite3mcConfigParams w.tables table [sqlText paramName, sqlText name] granted =
      some (.text name,
        (sqlite3mcConfigCommon w.tables.globalCipherCount table paramName id).2) := by
  obtain ⟨k, rfl⟩ : ∃ k : ℕ, id = k + 1 := ⟨(id - 1).toNat, by omega⟩
  have hcount : w.tables.globalCipherCount = cs.length := by rw [h.tables]; rfl
  have hk : k < cs.length := by omega
  have hlen := h.registered.length_le
  have hmax : codecCountMax = 16 := rfl
  obtain ⟨p, hp, hlow, hhigh⟩ := h.cipher_param ht hcipher
  have haccepts : CommonAccepts w.tables.globalCipherCount table
      (MultipleCiphers.parseParamName paramName) (k + 1 : ℤ) :=
    ⟨p, hp, hbound, by omega, by omega, by omega, fun _ => ⟨hpos, hle⟩⟩
  have hnot : sqlite3Stricmp (MultipleCiphers.parseParamName paramName).paramName "hmac_check" =
      false := by
    rw [sqlite3Stricmp_congr hcipher]
    decide
  rw [h.tables, descriptorName_layout h.registered common hk, Option.some_inj] at hname
  have hfind : ((w.tables.globalCodecDescriptorTable.map (·.name.getD "")).takeWhile
      (· ≠ "")).findIdx? (sqlite3Stricmp name) = some k := by
    have hnames := descriptorNames_layout h.registered common
    rw [CipherTables.descriptorNames, ← h.tables] at hnames
    rw [hnames, ← hname]
    exact h.registered.findIdx?_name hk
  have hget : ((w.tables.globalCodecDescriptorTable.map (·.name.getD "")).takeWhile
      (· ≠ "")).getD k "" = name := by
    have hnames := descriptorNames_layout h.registered common
    rw [CipherTables.descriptorNames, ← h.tables] at hnames
    rw [hnames, List.getD_eq_getElem?_getD, List.getElem?_map, List.getElem?_eq_getElem hk,
      Option.map_some, hname]
    rfl
  have htype : (sqlText name).type = .text := rfl
  have htext : (sqlText name).text = name := rfl
  rw [sqlite3mcConfigParams_common hp (by simp [htype]), sqlite3mcConfigCommon_of_accepts haccepts,
    configParamsCommon, if_pos hcipher, if_pos htype]
  simp only [htext, hfind, hget, hnot, Bool.not_false, Bool.and_true]

/-- The name of a common parameter has no prefix. -/
theorem AgreeInv.parseParamName_common (h : AgreeInv w cs common) (ht : table ∈ w.conns)
    {name : String} (hp : findParameter (paramsAt table 0) name = some p) :
    MultipleCiphers.parseParamName name = ⟨false, false, false, name⟩ := by
  have hname := sqlite3Stricmp_eq_true.mp (mem_of_findParameter hp).2
  have hmem : p.bounds ∈ commonParams.map CipherParams.bounds := by
    rw [← h.common_bounds ht]
    exact List.mem_map_of_mem (mem_of_findParameter hp).1
  have hcolon : ∀ b ∈ commonParams.map CipherParams.bounds, ':' ∉ b.1.toList := by decide
  exact parseParamName_of_colon (colon_notMem_congr hname (hcolon _ hmem))

end Reachable

/-- **The SQL function and the C functions agree.** In every state that registrations and settings
lead to, on the table of every connection, for every name and every integer: a common parameter
other than `cipher` that is not under `min:` or `max:`, and the parameter of a cipher with a value
that `checkParameterValue` lets pass, end up as the C function leaves them, and NULL is returned
exactly when the C function does not accept the value. The parameter `cipher` is set by a name with
the effect of the number, and refused as a number; and a cipher that is called like a common
parameter is not found. -/
theorem sqlConfig_agrees {R : SqliteReaders} {events : List RegistryEvent} {w : World}
    (hrun : Run (RegistryStep R) emptyWorld events w) {table : List CodecParameter}
    (htable : table ∈ w.conns) (paramName : String) (newValue : ℤ) (granted : Bool) :
    SqlConfigAgrees w table paramName newValue granted := by
  obtain ⟨cs, common, h⟩ := exists_agreeInv_of_run hrun
  refine ⟨fun hcipher hbound => ?_, fun hcipher => ?_, fun hcipher hbound hpos hle name hname => ?_,
    fun cipher hnotCommon hcheck => ?_, fun cipher p hp => ?_⟩
  · rcases hfind : findParameter (paramsAt table 0) (parseParamName paramName).paramName with _ | p
    · have hnot : ¬ CommonAccepts w.tables.globalCipherCount table (parseParamName paramName)
          newValue := by
        rintro ⟨p, hp, -⟩
        rw [hfind] at hp
        cases hp
      rw [sqlite3mcConfigParams_unknown hfind]
      exact ⟨.null, by rw [sqlite3mcConfigCommon_of_not_accepts hnot], iff_of_true rfl hnot⟩
    · rw [sqlite3mcConfigParams_common hfind (by simp [sqlInteger])]
      refine configParamsCommon_agrees _ hfind
        (h.minValue_nonneg htable (mem_of_findParameter hfind).1) (fun hb => ?_) hcipher
      rw [hbound hb] at hfind
      cases hfind
  · obtain ⟨p, hp, -⟩ := h.cipher_param htable hcipher
    have htype : (sqlInteger newValue).type ≠ .text := by simp [sqlInteger]
    rw [sqlite3mcConfigParams_common hp (by simp [sqlInteger]), configParamsCommon, if_pos hcipher,
      if_neg htype]
  · exact h.cipherName htable granted hcipher hbound hpos hle hname
  · rw [sqlite3mcConfigParams_cipher]
    rcases hj : findTable table cipher with _ | j
    · -- neither way finds an entry, whatever prefixes the name of the cipher begins with
      have hnot : ¬ CipherAccepts table cipher (parseParamName paramName) newValue := by
        rintro ⟨j, p, hj', -⟩
        rw [hj] at hj'
        cases hj'
      have hc : (sqlite3mcConfigCipherTable table cipher paramName newValue).2 = table := by
        rw [sqlite3mcConfigCipherTable, hj]
      refine ⟨.null, ?_, iff_of_true rfl hnot⟩
      rw [hc]
      split
      · rfl
      split
      · rfl
      · rename_i hprefix
        rw [paramName_of_noPrefix (Bool.eq_false_of_not_eq_true hprefix), hj]
    · rw [h.parseParamName htable hj]
      simp only [hnotCommon, hj, Bool.or_self, Bool.false_eq_true, if_false]
      exact configParamsCipher_agrees hj (fun p hp => h.minValue_nonneg htable hp) hcheck
  · rw [sqlite3mcConfigParams_cipher, h.parseParamName_common htable hp]
    simp only [hp]

/-- Two ciphers are registered, and a connection is opened. -/
def twoCiphers : List RegistryEvent :=
  [.register registerRC4, .register (registerBuiltin xorCipher), .config .openDb]

/-- A connection with two ciphers, and a parameter with a prefix. -/
theorem sqlConfig_agrees_twoCiphers :
    ∃ w, ∃ table ∈ w.conns, SqlConfigAgrees w table "default:hmac_check" 0 true := by
  have hrun : (twoCiphers.foldlM (World.registryStep decimalReaders) emptyWorld).any (fun w =>
      decide (∃ table ∈ w.conns, table.length = 3)) = true := by
    decide
  obtain ⟨w, hrun, hw⟩ := (Option.any_eq_true _ _).mp hrun
  obtain ⟨table, htable, -⟩ := of_decide_eq_true hw
  exact ⟨w, table, htable, sqlConfig_agrees (Run.of_foldlM hrun) htable _ _ _⟩

/-- **The number of a cipher**: `sqlite3mc_config` selects the second cipher, and the SQL function
refuses the number. -/
theorem sqlConfig_cipherNumber :
    ∃ w, Run (RegistryStep decimalReaders) emptyWorld twoCiphers w ∧ ∃ table ∈ w.conns,
      ¬ Agrees (sqlite3mcConfigParams w.tables table [sqlText "cipher", sqlInteger 2] true)
        (sqlite3mcConfigCommon w.tables.globalCipherCount table "cipher" 2)
        (CommonAccepts w.tables.globalCipherCount table (parseParamName "cipher") 2) := by
  have hrun : (twoCiphers.foldlM (World.registryStep decimalReaders) emptyWorld).any (fun w =>
      decide (∃ table ∈ w.conns,
        sqlite3mcConfigParams w.tables table [sqlText "cipher", sqlInteger 2] true =
            some (.null, table) ∧
          (sqlite3mcConfigCommon w.tables.globalCipherCount table "cipher" 2).2 ≠ table)) =
        true := by
    decide
  obtain ⟨w, hrun, hw⟩ := (Option.any_eq_true _ _).mp hrun
  obtain ⟨table, htable, hsql, hc⟩ := of_decide_eq_true hw
  refine ⟨w, Run.of_foldlM hrun, table, htable, ?_⟩
  rintro ⟨reply, heq, -⟩
  rw [hsql, Option.some_inj] at heq
  exact hc (congrArg Prod.snd heq).symm

end MultipleCiphers
