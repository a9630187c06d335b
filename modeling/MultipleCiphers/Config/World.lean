import MultipleCiphers.Config.Settings
import MultipleCiphers.Config.Registry

/-!
# Connections and their settings

The state is the registry together with the parameter tables of the connections that have been
opened. An event opens a connection, which gets a copy of the global table as it is then, changes a
setting of a connection in one of the five ways, or lets a key operation of a connection use up a
pending value. Registering a cipher is an event too, and concerns the registry alone.

Without a connection, `sqlite3mc_config` and `sqlite3mc_config_cipher` read the global table and
change nothing.

## What an event does to a table

`Change` is the one thing that happens to a table: a parameter gets a value, and perhaps a default.
Each of the functions makes a sequence of changes, `Changes`, and for each there is a lemma that
says which changes these are. An invariant of tables is then a property that these changes keep.

## Main definitions

* `World`, `ConfigEvent`, `World.configStep` — the state, the events and the steps.
* `ConfigEvent.Rejects` — the replies that say no.
* `Change`, `Changes` — what happens to a table.
-/

namespace MultipleCiphers

open Relation

/-! ### Events -/

/-- The registry and the parameter tables of the connections. -/
structure World where
  tables : CipherTables
  conns : List (List CodecParameter)

/-- The events that are about settings. `db` is the number of a connection. -/
inductive ConfigEvent where
  /-- A connection is opened. -/
  | openDb
  /-- `sqlite3mc_config`. -/
  | config (db : Option ℕ) (paramName : Option String) (newValue : ℤ)
  /-- `sqlite3mc_config_cipher`. -/
  | configCipher (db : Option ℕ) (cipherName paramName : Option String) (newValue : ℤ)
  /-- The SQL function `sqlite3mc_config`. -/
  | configParams (db : ℕ) (args : List SqlArg) (granted : Bool)
  /-- A pragma. -/
  | pragma (db : ℕ) (pragmaName : String) (pragmaValue : Option String)
      (configDefault granted : Bool)
  /-- The URI of a database file. -/
  | uri (db : ℕ) (uri : Option UriParams) (configDefault : Bool) (granted : String → Bool)
  /-- A key operation uses up the pending value of a parameter at position `j` of the table. -/
  | useParameter (db j : ℕ) (paramName : String)

/-- What an event returns. -/
inductive ConfigReply where
  | done
  | value (value : ℤ)
  | sql (r : SqlReply)
  | pragma (r : PragmaReply)
  | rc (rc : ResultCode)

/-- The name is that of a bound, which cannot be set. -/
def ParamName.IsBound (n : ParamName) : Prop := n.hasMinPrefix = true ∨ n.hasMaxPrefix = true

/-- The replies that say that nothing was changed: a C function returns another value than the one
to set, or has been asked to set a bound, the SQL function returns NULL, a pragma fails or did not
get the value it asked for, and a URI is an error. -/
def ConfigEvent.Rejects : ConfigEvent → ConfigReply → Prop
  | .config _ paramName newValue, .value v =>
    (newValue < 0 ∨ v ≠ newValue) ∨ ∃ name, paramName = some name ∧ (parseParamName name).IsBound
  | .configCipher _ _ paramName newValue, .value v =>
    (newValue < 0 ∨ v ≠ newValue) ∨ ∃ name, paramName = some name ∧ (parseParamName name).IsBound
  | .configParams _ _ _, .sql r => r = .null ∨ r = .nomem
  | .pragma _ _ _ _ _, .pragma r =>
    r.rc ≠ .ok ∨ ∃ asked got, r.call = some (asked, got) ∧ (asked < 0 ∨ got ≠ asked)
  | .uri _ _ _ _, .rc rc => rc ≠ .ok
  | _, _ => False

namespace World

/-- `sqlite3mc_config`. -/
def sqlite3mcConfig (w : World) (db : Option ℕ) (paramName : Option String) (newValue : ℤ) :
    ℤ × World :=
  match paramName, db with
  | none, _ => (-1, w)
  | some paramName, none =>
    if newValue ≥ 0 then (-1, w)
    else ((sqlite3mcConfigCommon w.tables.globalCipherCount
      (untilSentinel w.tables.globalCodecParameterTable) paramName newValue).1, w)
  | some paramName, some db =>
    match w.conns[db]? with
    | none => (-1, w)
    | some table =>
      let r := sqlite3mcConfigCommon w.tables.globalCipherCount table paramName newValue
      (r.1, { w with conns := w.conns.set db r.2 })

/-- `sqlite3mc_config_cipher`. Without a connection there is no switch to a version of SQLCipher. -/
def sqlite3mcConfigCipher (w : World) (db : Option ℕ) (cipherName paramName : Option String)
    (newValue : ℤ) : ℤ × World :=
  match cipherName, paramName, db with
  | some cipherName, some paramName, none =>
    if newValue ≥ 0 then (-1, w)
    else
      let table := untilSentinel w.tables.globalCodecParameterTable
      match findTable table cipherName with
      | none => (-1, w)
      | some j => ((configCipherParam table j (parseParamName paramName) cipherName newValue).1, w)
  | some cipherName, some paramName, some db =>
    match w.conns[db]? with
    | none => (-1, w)
    | some table =>
      let r := sqlite3mcConfigCipherTable table cipherName paramName newValue
      (r.1, { w with conns := w.conns.set db r.2 })
  | _, _, _ => (-1, w)

/-- What an event leads to; `none` for one that there is no such connection for, that is not about
settings, or that makes an access outside of an array. -/
def configStep (R : SqliteReaders) (w : World) : ConfigEvent → Option (ConfigReply × World)
  | .openDb =>
    some (.done, { w with conns := w.conns ++ [w.tables.sqlite3mcCloneCodecParameterTable] })
  | .config db paramName newValue =>
    let r := w.sqlite3mcConfig db paramName newValue
    some (.value r.1, r.2)
  | .configCipher db cipherName paramName newValue =>
    let r := w.sqlite3mcConfigCipher db cipherName paramName newValue
    some (.value r.1, r.2)
  | .configParams db args granted =>
    w.conns[db]?.bind fun table =>
      (sqlite3mcConfigParams w.tables table args granted).map fun r =>
        (.sql r.1, { w with conns := w.conns.set db r.2 })
  | .pragma db pragmaName pragmaValue configDefault granted =>
    w.conns[db]?.bind fun table =>
      (sqlite3mcFileControlPragma R w.tables table pragmaName pragmaValue configDefault
        granted).map fun r => (.pragma r.1, { w with conns := w.conns.set db r.2 })
  | .uri db uri configDefault granted =>
    w.conns[db]?.map fun table =>
      let r := sqlite3mcConfigureFromUri R w.tables table uri configDefault granted
      (.rc r.1.1, { w with conns := w.conns.set db r.2 })
  | .useParameter db j paramName =>
    w.conns[db]?.map fun table =>
      (.done, { w with conns := w.conns.set db (modifyAt table j paramName
        fun p => { p with value := p.default }) })

end World

namespace World

variable {w : World} {table : List CodecParameter}

/-- The state with another table for one connection. -/
def setTable (w : World) (db : ℕ) (table : List CodecParameter) : World :=
  { w with conns := w.conns.set db table }

theorem setTable_self {db : ℕ} (h : w.conns[db]? = some table) : w.setTable db table = w := by
  obtain ⟨hlt, rfl⟩ := List.getElem?_eq_some_iff.mp h
  rw [setTable, List.set_getElem_self]

/-- `sqlite3mc_config` reads a table, or changes that of its connection. -/
theorem sqlite3mcConfig_cases (w : World) (db : Option ℕ) (paramName : Option String)
    (newValue : ℤ) :
    (w.sqlite3mcConfig db paramName newValue).2 = w ∨
      ∃ name d table, paramName = some name ∧ db = some d ∧ w.conns[d]? = some table ∧
        (w.sqlite3mcConfig db paramName newValue).1 =
          (sqlite3mcConfigCommon w.tables.globalCipherCount table name newValue).1 ∧
        (w.sqlite3mcConfig db paramName newValue).2 = w.setTable d
          (sqlite3mcConfigCommon w.tables.globalCipherCount table name newValue).2 := by
  rcases paramName with _ | name
  · exact Or.inl rfl
  rcases db with _ | d
  · refine Or.inl ?_
    rw [sqlite3mcConfig]
    split <;> rfl
  rw [sqlite3mcConfig]
  split
  · exact Or.inl rfl
  · rename_i table htable
    exact Or.inr ⟨name, d, table, rfl, rfl, htable, rfl, rfl⟩

/-- `sqlite3mc_config_cipher` reads a table, or changes that of its connection. -/
theorem sqlite3mcConfigCipher_cases (w : World) (db : Option ℕ)
    (cipherName paramName : Option String)
    (newValue : ℤ) :
    (w.sqlite3mcConfigCipher db cipherName paramName newValue).2 = w ∨
      ∃ cipher name d table, cipherName = some cipher ∧ paramName = some name ∧ db = some d ∧
        w.conns[d]? = some table ∧
        (w.sqlite3mcConfigCipher db cipherName paramName newValue).1 =
          (sqlite3mcConfigCipherTable table cipher name newValue).1 ∧
        (w.sqlite3mcConfigCipher db cipherName paramName newValue).2 =
          w.setTable d (sqlite3mcConfigCipherTable table cipher name newValue).2 := by
  rcases cipherName with _ | cipher
  · exact Or.inl rfl
  rcases paramName with _ | name
  · exact Or.inl rfl
  rcases db with _ | d
  · refine Or.inl ?_
    rw [sqlite3mcConfigCipher]
    split
    · rfl
    · dsimp only
      split <;> rfl
  rw [sqlite3mcConfigCipher]
  split
  · exact Or.inl rfl
  · rename_i table htable
    exact Or.inr ⟨cipher, name, d, table, rfl, rfl, rfl, htable, rfl, rfl⟩

end World

/-! ### What happens to a table -/

/-- A parameter at position `j` of a table gets a value, and perhaps the same default. -/
structure Change where
  j : ℕ
  paramName : String
  value : ℤ
  setDefault : Bool

/-- The table after a change. -/
def Change.apply (c : Change) (table : List CodecParameter) : List CodecParameter :=
  modifyAt table c.j c.paramName (CipherParams.write c.value c.setDefault)

/-- `table'` is `table` after some changes, each of them a `V` of the table it is made to. -/
def Changes (V : List CodecParameter → Change → Prop) (table table' : List CodecParameter) : Prop :=
  ReflTransGen (fun t t' => ∃ c, V t c ∧ t' = c.apply t) table table'

section Changes

variable {V : List CodecParameter → Change → Prop} {table table' : List CodecParameter}

theorem Changes.refl (table : List CodecParameter) : Changes V table table := ReflTransGen.refl

theorem Changes.trans {t t' t'' : List CodecParameter} (h : Changes V t t')
    (h' : Changes V t' t'') :
    Changes V t t'' := ReflTransGen.trans h h'

theorem Changes.single {c : Change} (h : V table c) : Changes V table (c.apply table) :=
  ReflTransGen.single ⟨c, h, rfl⟩

/-- What every change keeps is kept. -/
theorem Changes.invariant (Inv : List CodecParameter → Prop) (h : Changes V table table')
    (hstep : ∀ t c, Inv t → V t c → Inv (c.apply t)) (htable : Inv table) : Inv table' := by
  induction h with
  | refl => exact htable
  | tail _ hc ih =>
    obtain ⟨c, hV, rfl⟩ := hc
    exact hstep _ c ih hV

end Changes

/-! ### Parameters and their places -/

section Tables

variable {params : List CipherParams} {table : List CodecParameter} {a b name : String}
  {f : CipherParams → CipherParams} {p : CipherParams}

theorem sqlite3Stricmp_congr (h : sqlite3Stricmp a b = true) (c : String) :
    sqlite3Stricmp a c = sqlite3Stricmp b c := by
  rw [sqlite3Stricmp_eq_true] at h
  rw [sqlite3Stricmp, sqlite3Stricmp, h]

/-- A change keeps what it does not touch: `g` of every parameter, if `f` keeps it. -/
theorem map_modifyParameter {α : Type*} (g : CipherParams → α) (hf : ∀ p, g (f p) = g p)
    (name : String) (params : List CipherParams) :
    (modifyParameter name f params).map g = params.map g := by
  induction params with
  | nil => rfl
  | cons p ps ih =>
    rw [modifyParameter]
    split
    · rw [List.map_cons, List.map_cons, hf]
    · rw [List.map_cons, List.map_cons, ih]

/-- A parameter after a change is one from before, or the one that was found, changed. -/
theorem mem_modifyParameter {q : CipherParams} (hq : q ∈ modifyParameter name f params) :
    q ∈ params ∨ ∃ p, findParameter params name = some p ∧ q = f p := by
  induction params with
  | nil => exact Or.inl hq
  | cons p ps ih =>
    rw [modifyParameter] at hq
    rw [findParameter, List.find?_cons]
    split at hq
    · rename_i hp
      rcases List.mem_cons.mp hq with rfl | hq
      · exact Or.inr ⟨p, by rw [hp], rfl⟩
      · exact Or.inl (List.mem_cons_of_mem _ hq)
    · rename_i hp
      rcases List.mem_cons.mp hq with rfl | hq
      · exact Or.inl List.mem_cons_self
      · rcases ih hq with h | ⟨r, hr, rfl⟩
        · exact Or.inl (List.mem_cons_of_mem _ h)
        · rw [Bool.eq_false_of_not_eq_true hp]
          exact Or.inr ⟨r, hr, rfl⟩

/-- A change that gives the parameter back changes nothing. -/
theorem modifyParameter_of_eq (hfind : findParameter params name = some p) (hf : f p = p) :
    modifyParameter name f params = params := by
  induction params with
  | nil => rfl
  | cons q qs ih =>
    rw [findParameter, List.find?_cons] at hfind
    rw [modifyParameter]
    split at hfind
    · rename_i hq
      obtain rfl := Option.some_inj.mp hfind
      rw [if_pos hq, hf]
    · rename_i hq
      rw [if_neg (by rw [hq]; decide), ih hfind]

/-- A change that gives the parameter back leaves the table as it is. -/
theorem modifyAt_of_eq {j : ℕ} (hfind : findParameter (paramsAt table j) name = some p)
    (hf : f p = p) : modifyAt table j name f = table := by
  refine List.ext_getElem? fun k => ?_
  rw [modifyAt, List.getElem?_modify]
  rcases hk : table[k]? with _ | c
  · rfl
  · by_cases hjk : j = k
    · have hparams : findParameter c.params name = some p := by
        rw [paramsAt, hjk, hk] at hfind
        exact hfind
      simp only [Option.map_eq_map, Option.map_some, if_pos hjk,
        modifyParameter_of_eq hparams hf]
    · simp only [Option.map_eq_map, Option.map_some, if_neg hjk]

theorem mem_of_findParameter (h : findParameter params name = some p) :
    p ∈ params ∧ sqlite3Stricmp name p.name = true :=
  ⟨List.mem_of_find?_eq_some h, by simpa using List.find?_some h⟩

theorem findTable_congr (h : sqlite3Stricmp a b = true) (table : List CodecParameter) :
    findTable table a = findTable table b := by
  rw [findTable, findTable]
  congr 1
  funext c
  exact sqlite3Stricmp_congr h c.name

/-- What no change touches: the names, the numbers and the bounds. -/
def CipherParams.bounds (p : CipherParams) : String × ℤ × ℤ := (p.name, p.minValue, p.maxValue)

/-- An entry of a table without the values. -/
def CodecParameter.shape (c : CodecParameter) : String × ℕ × List (String × ℤ × ℤ) :=
  (c.name, c.id, c.params.map CipherParams.bounds)

theorem shape_modifyAt (hf : ∀ p, (f p).bounds = p.bounds) (table : List CodecParameter) (j : ℕ)
    (name : String) :
    (modifyAt table j name f).map CodecParameter.shape = table.map CodecParameter.shape := by
  rw [modifyAt]
  induction table generalizing j with
  | nil => cases j <;> rfl
  | cons c table ih =>
    cases j with
    | zero =>
      rw [List.modify_zero_cons, List.map_cons, List.map_cons, CodecParameter.shape,
        CodecParameter.shape, map_modifyParameter _ hf]
    | succ j => rw [List.modify_succ_cons, List.map_cons, List.map_cons, ih]

theorem findTable_shape (table : List CodecParameter) (a : String) :
    findTable table a =
      (table.map CodecParameter.shape).findIdx? fun s => sqlite3Stricmp a s.1 := by
  rw [List.findIdx?_map]
  rfl

theorem findParameter_bounds (params : List CipherParams) (name : String) :
    (findParameter params name).map CipherParams.bounds =
      (params.map CipherParams.bounds).find? fun b => sqlite3Stricmp name b.1 := by
  rw [List.find?_map]
  rfl

theorem paramsAt_bounds (table : List CodecParameter) (j : ℕ) :
    (paramsAt table j).map CipherParams.bounds =
      ((table.map CodecParameter.shape)[j]?.map fun s => s.2.2).getD [] := by
  rw [paramsAt, List.getElem?_map]
  cases table[j]? <;> rfl

/-- The parameters at a position after a change at a position. -/
theorem paramsAt_modifyAt (table : List CodecParameter) (j k : ℕ) (name : String) :
    paramsAt (modifyAt table j name f) k =
      if j = k then modifyParameter name f (paramsAt table k) else paramsAt table k := by
  rw [paramsAt, modifyAt, List.getElem?_modify]
  by_cases h : j = k
  · rw [if_pos h]
    cases hk : table[k]? <;> simp [paramsAt, hk, h, modifyParameter]
  · rw [if_neg h]
    simp [h, paramsAt]

end Tables

end MultipleCiphers
