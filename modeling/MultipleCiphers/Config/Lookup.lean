import MultipleCiphers.Config.Validity

/-!
# Looking a cipher up in the table of a connection

A connection works with the copy of the parameter table that was made when it was opened. A cipher
that is registered later is not in the copy, but it is in the registry, and the functions that
select a cipher ask the registry: `sqlite3mc_config` compares the number with the count of
registered ciphers, the SQL function, the pragma and the URI search the global arrays. Two ways ask
nobody: for `sqlite3mc_config_cipher` and the SQL function with three arguments `global` is the name
of a cipher with a parameter `cipher`, and every number within the bounds of that parameter goes.

When a key operation allocates the cipher that has been selected, `sqlite3mcGetCipherParams`
searches the copy by the number. If the number is not there it ends at the sentinel, whose list of
parameters is the null pointer.

## The invariant

A copy has the shape of the table of the first `n` ciphers of the registry, for an `n` of its own,
and the value and the default of its parameter `cipher` are at most `n`. Registrations add ciphers
at the end, so they keep it. A selection keeps it if the number is at most `n`.

## Main results

* `ConfigEvent.Selects` — the number that an event selects.
* `Known.apply` — a change keeps the invariant of one table.
* `lookup_invariant` — along every run in which connections select ciphers that they know, all
  lookups end at an entry.
* `lookup_newCipher` — without that condition one ends at the sentinel.
-/

namespace MultipleCiphers

open Transition

/-! ### Registrations and settings -/

/-- The events: a setting, or the registration of a cipher. -/
inductive RegistryEvent where
  | config (e : ConfigEvent)
  | register (call : RegisterCall)

/-- What an event leads to. -/
def World.registryStep (R : SqliteReaders) (w : World) : RegistryEvent → Option World
  | .config e => (w.configStep R e).map Prod.snd
  | .register call =>
    (w.tables.sqlite3mcRegisterCipher call.desc call.params call.makeDefault call.malloc).map
      fun r => { w with tables := r.2 }

/-- A step of the registry or of the settings. -/
def RegistryStep (R : SqliteReaders) (w : World) (e : RegistryEvent) (w' : World) : Prop :=
  w.registryStep R e = some w'

/-- The state before the first cipher is registered. -/
def emptyWorld : World := ⟨sqlite3mcInitCipherTables, []⟩

/-- What a key operation of a connection with this table looks ciphers up in. -/
def World.connEnv (w : World) (table : List CodecParameter) : Env where
  codecParams := table
  cipherNames := w.tables.descriptorNames
  malloc := fun _ => true
  random := fun _ => 0
  argon2 := fun _ => .enough

/-- The number `v` is selected in the table: it is the value of the parameter `cipher`, or the
default, which the value becomes once it has been used. -/
def Selected (table : List CodecParameter) (v : ℤ) : Prop :=
  0 < v ∧ ∃ p, findParameter (paramsAt table 0) "cipher" = some p ∧ (v = p.value ∨ v = p.default)

/-- Every cipher that is selected in the table of a connection has a name, and the lookup of this
name ends at the entry with its number. -/
def World.LooksUp (w : World) : Prop :=
  ∀ table ∈ w.conns, ∀ v, Selected table v → ∃ name entry,
    w.tables.descriptorName v = some name ∧
      table[(w.connEnv table).sqlite3mcGetCipherParams name]? = some entry ∧ (entry.id : ℤ) = v

/-! ### What an event selects -/

/-- The connection that an event is about. -/
def ConfigEvent.db? : ConfigEvent → Option ℕ
  | .openDb => none
  | .config db _ _ => db
  | .configCipher db _ _ _ => db
  | .configParams db _ _ => some db
  | .pragma db _ _ _ _ => some db
  | .uri db _ _ _ => some db
  | .useParameter db _ _ => some db

/-- The event sets the parameter `cipher` of a connection with this table to `v`. A number that is
refused is not selected, nor is the cipher that a URI leaves as it is. -/
def ConfigEvent.Selects (tables : CipherTables) (table : List CodecParameter) :
    ConfigEvent → ℤ → Prop
  | .config _ (some paramName) newValue, v =>
    sqlite3Stricmp (parseParamName paramName).paramName "cipher" = true ∧
      ¬ (parseParamName paramName).IsBound ∧ v = newValue ∧ v ≤ tables.globalCipherCount
  | .configCipher _ (some cipherName) (some paramName) newValue, v =>
    findTable table cipherName = some 0 ∧
      sqlite3Stricmp (parseParamName paramName).paramName "cipher" = true ∧
        ¬ (parseParamName paramName).IsBound ∧ v = newValue ∧ v ≤ codecCountMax
  | .configParams _ [arg0, arg1] _, v =>
    sqlite3Stricmp (parseParamName arg0.text).paramName "cipher" = true ∧ ∃ j : ℕ,
      tables.descriptorNames.findIdx? (sqlite3Stricmp arg1.text) = some j ∧ v = j + 1
  | .configParams _ [arg0, arg1, arg2] _, v =>
    sqlite3Stricmp (parseParamName arg1.text).paramName "cipher" = true ∧ v = arg2.int ∧
      ∃ p, SqlSets table arg0 arg1 arg2 0 p
  | .pragma _ pragmaName (some z) _ _, v =>
    sqlite3Stricmp pragmaName "cipher" = true ∧ v = tables.pragmaCipherId z
  | .uri _ (some u) _ _, v =>
    ∃ name, u.parameter "cipher" = some name ∧ name ≠ "" ∧ v = tables.pragmaCipherId name
  | _, _ => False

/-- A connection selects a cipher only if its table has an entry for it: entry `0` is the one of the
common parameters. -/
def RegistryEvent.Known (w : World) : RegistryEvent → Prop
  | .config e => ∀ db table v, e.db? = some db → w.conns[db]? = some table →
    e.Selects w.tables table v → v < table.length
  | .register _ => True

/-! ### The registry -/

section Registry

variable {cs : List RegisteredCipher} {common : List CipherParams}

/-- The entries that the pragma and the URI search. -/
theorem cipherEntries_layout (h : Registered cs) (common : List CipherParams) :
    (layout cs common).cipherEntries = parameterEntries 1 cs := by
  have hnames : ∀ c ∈ parameterEntries 1 cs, decide (c.name ≠ "") = true := by
    intro c hc
    obtain ⟨i, hi⟩ := List.mem_iff_getElem?.mp hc
    rw [getElem?_parameterEntries] at hi
    obtain ⟨d, hd, rfl⟩ := Option.map_eq_some_iff.mp hi
    exact decide_eq_true (h.named d (List.mem_of_getElem? hd)).1
  exact takeWhile_append_replicate hnames rfl _

/-- The entries of the table that a connection gets. -/
theorem sqlite3mcCloneCodecParameterTable_layout (h : Registered cs)
    (common : List CipherParams) :
    (layout cs common).sqlite3mcCloneCodecParameterTable =
      ⟨"global", 0, common⟩ :: parameterEntries 1 cs := by
  have hcons : ∀ l : List CodecParameter, untilSentinel (⟨"global", 0, common⟩ :: l) =
      ⟨"global", 0, common⟩ :: untilSentinel l := fun l =>
    List.takeWhile_cons_of_pos (decide_eq_true (by simp))
  rw [← cipherEntries_layout h common]
  exact hcons _

/-- The names that a cipher is searched by are those of the registered ones. -/
theorem descriptorNames_layout (h : Registered cs) (common : List CipherParams) :
    (layout cs common).descriptorNames = cs.map (·.name) := by
  have hnames : (cs.map (·.descriptor)).map (fun d => d.name.getD "") = cs.map (·.name) := by
    rw [List.map_map]
    refine List.map_congr_left fun c hc => ?_
    rw [Function.comp_apply, (h.named c hc).2, Option.getD_some]
  have hne : ∀ a ∈ cs.map (·.name), decide (a ≠ "") = true := by
    intro a ha
    obtain ⟨c, hc, rfl⟩ := List.mem_map.mp ha
    exact decide_eq_true (h.named c hc).1
  rw [CipherTables.descriptorNames, layout, List.map_append, hnames, List.map_replicate]
  exact takeWhile_append_replicate hne rfl _

/-- The descriptor of a cipher has its name. -/
theorem descriptorName_layout (h : Registered cs) (common : List CipherParams) {k : ℕ}
    (hk : k < cs.length) : (layout cs common).descriptorName (k + 1) = some cs[k].name := by
  have hlen : k < (cs.map (·.descriptor)).length := by rwa [List.length_map]
  rw [CipherTables.descriptorName, if_pos (by omega), layout, add_sub_cancel_right,
    Int.toNat_natCast,
    List.getElem?_append_left hlen, List.getElem?_map, List.getElem?_eq_getElem hk, Option.map_some,
    Option.map_some, (h.named _ (List.getElem_mem hk)).2, Option.getD_some]

/-- The name of a cipher is at one place in the list. -/
theorem Registered.findIdx?_name (h : Registered cs) {k : ℕ} (hk : k < cs.length) :
    (cs.map (·.name)).findIdx? (sqlite3Stricmp cs[k].name) = some k := by
  rw [List.findIdx?_eq_some_iff_getElem]
  refine ⟨by rwa [List.length_map], ?_, fun j hj => ?_⟩
  · rw [List.getElem_map]
    exact sqlite3Stricmp_refl _
  · rw [List.getElem_map, sqlite3Stricmp_comm, h.name_ne hj hk]
    decide

/-- The pragma and the URI find a cipher by its name. -/
theorem pragmaCipherId_layout (h : Registered cs) (common : List CipherParams) {k : ℕ}
    (hk : k < cs.length) : (layout cs common).pragmaCipherId cs[k].name = k + 1 := by
  have hentry : (parameterEntries 1 cs)[k]? = some ⟨cs[k].name, k + 1, cs[k].params⟩ := by
    rw [getElem?_parameterEntries, List.getElem?_eq_getElem hk, Option.map_some, Nat.add_comm 1]
  have hfind : (parameterEntries 1 cs).find? (fun c => sqlite3Stricmp cs[k].name c.name) =
      some ⟨cs[k].name, k + 1, cs[k].params⟩ := by
    obtain ⟨hlt, hget⟩ := List.getElem?_eq_some_iff.mp hentry
    refine List.find?_eq_some_iff_getElem.mpr ⟨sqlite3Stricmp_refl _, k, hlt, hget, fun j hj => ?_⟩
    have hj' : j < cs.length := by omega
    have hother := getElem?_parameterEntries 1 j cs
    rw [List.getElem?_eq_getElem (by rw [length_parameterEntries]; exact hj'),
      List.getElem?_eq_getElem hj', Option.map_some, Option.some_inj] at hother
    rw [hother, sqlite3Stricmp_comm, h.name_ne hj hk]
    decide
  rw [CipherTables.pragmaCipherId, cipherEntries_layout h, hfind]
  push_cast
  rfl

/-- No registered cipher has the name of the common parameters. -/
theorem Registered.not_global (h : Registered cs) {c : CodecParameter}
    (hc : c ∈ parameterEntries 1 cs) : sqlite3Stricmp c.name "global" = false := by
  obtain ⟨i, hi⟩ := List.mem_iff_getElem?.mp hc
  rw [getElem?_parameterEntries] at hi
  obtain ⟨d, hd, rfl⟩ := Option.map_eq_some_iff.mp hi
  have hname : d.name ∈ cs.map (·.name) := List.mem_map_of_mem (List.mem_of_getElem? hd)
  rw [sqlite3Stricmp_comm]
  exact (List.pairwise_cons.mp h.distinct).1 d.name hname

end Registry

/-! ### The table of one connection -/

section Table

variable {cs : List RegisteredCipher} {common params : List CipherParams}
  {table : List CodecParameter} {a name : String} {f : CipherParams → CipherParams}
  {p q : CipherParams}

/-- A parameter that is found after a change was found before, and may be the one that changed. -/
theorem findParameter_modifyParameter (hf : ∀ p, (f p).name = p.name)
    (h : findParameter (modifyParameter name f params) a = some q) :
    findParameter params a = some q ∨
      ∃ p, findParameter params a = some p ∧ findParameter params name = some p ∧ q = f p := by
  induction params with
  | nil => exact Or.inl h
  | cons p ps ih =>
    rw [modifyParameter] at h
    by_cases hname : sqlite3Stricmp name p.name = true
    · rw [if_pos hname, findParameter, List.find?_cons, hf] at h
      rw [findParameter, findParameter, List.find?_cons, List.find?_cons, hname]
      split at h
      · exact Or.inr ⟨p, rfl, rfl, (Option.some_inj.mp h).symm⟩
      · exact Or.inl h
    · rw [if_neg hname, findParameter, List.find?_cons] at h
      rw [findParameter, findParameter, List.find?_cons, List.find?_cons,
        Bool.eq_false_of_not_eq_true hname]
      split at h
      · exact Or.inl h
      · exact ih h

/-- The shape of the table of a connection that was opened with the ciphers `cs`. -/
def tableShape (cs : List RegisteredCipher) : List (String × ℕ × List (String × ℤ × ℤ)) :=
  ((⟨"global", 0, commonParams⟩ : CodecParameter) :: parameterEntries 1 cs).map
    CodecParameter.shape

/-- The value and the default of the parameter `cipher` are at most `n`. -/
structure CipherAtMost (n : ℕ) (params : List CipherParams) : Prop where
  bounds : params.map CipherParams.bounds = commonParams.map CipherParams.bounds
  le : ∀ p, findParameter params "cipher" = some p → p.value ≤ n ∧ p.default ≤ n

/-- The table of a connection that was opened with the ciphers `cs`, and selects one of these. -/
structure Known (cs : List RegisteredCipher) (table : List CodecParameter) : Prop where
  shape : table.map CodecParameter.shape = tableShape cs
  cipher : CipherAtMost cs.length (paramsAt table 0)

theorem CipherAtMost.maxValue {n : ℕ} (h : CipherAtMost n params)
    (hp : findParameter params "cipher" = some p) : p.maxValue = codecCountMax := by
  have hfind := findParameter_bounds params "cipher"
  have hcommon : ((commonParams.map CipherParams.bounds).find? fun b =>
      sqlite3Stricmp "cipher" b.1) = some ("cipher", 1, (codecCountMax : ℤ)) := by decide
  rw [h.bounds, hcommon, hp, Option.map_some, Option.some_inj] at hfind
  exact congrArg (fun b => b.2.2) hfind

/-- A change of the parameters keeps the numbers low if the new ones are. -/
theorem CipherAtMost.modifyParameter {n : ℕ} (h : CipherAtMost n params)
    (hf : ∀ p, (f p).bounds = p.bounds)
    (hle : ∀ p, findParameter params "cipher" = some p → findParameter params name = some p →
      (f p).value ≤ n ∧ (f p).default ≤ n) : CipherAtMost n (modifyParameter name f params) where
  bounds := (map_modifyParameter _ hf name params).trans h.bounds
  le := by
    intro q hq
    rcases findParameter_modifyParameter (fun p => congrArg Prod.fst (hf p)) hq with
      hq | ⟨p, hp, hname, rfl⟩
    · exact h.le q hq
    · exact hle p hp hname

theorem CipherAtMost.mono {m n : ℕ} (h : CipherAtMost m params) (hmn : m ≤ n) :
    CipherAtMost n params where
  bounds := h.bounds
  le := by
    intro p hp
    obtain ⟨hvalue, hdefault⟩ := h.le p hp
    omega

theorem cipherAtMost_commonParams : CipherAtMost 0 commonParams where
  bounds := rfl
  le := by
    have hall : ∀ p ∈ findParameter commonParams "cipher", p.value ≤ 0 ∧ p.default ≤ 0 := by
      decide
    exact fun p hp => hall p hp

/-- A new default cipher. -/
theorem CipherAtMost.setDefaultCipher {n : ℕ} (h : CipherAtMost n params) :
    CipherAtMost n (setDefaultCipher n params) :=
  h.modifyParameter (fun _ => rfl) fun _ _ _ => ⟨le_rfl, le_rfl⟩

theorem Known.length (h : Known cs table) : table.length = cs.length + 1 := by
  have hlen := congrArg List.length h.shape
  simpa [tableShape] using hlen

/-- The entry of a cipher that was there when the connection was opened. -/
theorem Known.entry (h : Known cs table) {k : ℕ} (hk : k < cs.length) :
    ∃ entry, table[k + 1]? = some entry ∧ entry.id = k + 1 := by
  have hget := congrArg (fun l => l[k + 1]?) h.shape
  simp only [tableShape, List.map_cons, List.getElem?_cons_succ, List.getElem?_map,
    getElem?_parameterEntries, List.getElem?_eq_getElem hk, Option.map_some] at hget
  obtain ⟨entry, hentry, hshape⟩ := Option.map_eq_some_iff.mp hget
  refine ⟨entry, hentry, ?_⟩
  rw [Nat.add_comm k 1]
  exact congrArg (fun s => s.2.1) hshape

theorem Known.global (h : Known cs table) :
    ∃ entry, table[0]? = some entry ∧ entry.name = "global" := by
  have hget := congrArg (fun l => l[0]?) h.shape
  simp only [tableShape, List.map_cons, List.getElem?_cons_zero, List.getElem?_map] at hget
  obtain ⟨entry, hentry, hshape⟩ := Option.map_eq_some_iff.mp hget
  exact ⟨entry, hentry, congrArg Prod.fst hshape⟩

/-- A change at one position keeps the table as it should be if the new numbers are low. -/
theorem Known.modify (h : Known cs table) {j : ℕ} (hf : ∀ p, (f p).bounds = p.bounds)
    (hle : ∀ p, j = 0 → findParameter (paramsAt table 0) "cipher" = some p →
      findParameter (paramsAt table 0) name = some p →
        (f p).value ≤ cs.length ∧ (f p).default ≤ cs.length) :
    Known cs (modifyAt table j name f) where
  shape := (shape_modifyAt hf table j name).trans h.shape
  cipher := by
    rw [paramsAt_modifyAt]
    split
    · rename_i hj
      exact h.cipher.modifyParameter hf fun p hp hname => hle p hj hp hname
    · exact h.cipher

/-- **A change keeps the invariant** if it selects a cipher that the connection knows. -/
theorem Known.apply (h : Known cs table) {tables : CipherTables} {c : Change}
    (hcount : tables.descriptorNames.length ≤ codecCountMax)
    (hc : Made tables (fun v => v ≤ codecCountMax → v ≤ cs.length) True table c) :
    Known cs (c.apply table) := by
  refine h.modify (fun _ => rfl) fun p hj hp hname => ?_
  have hcipher : sqlite3Stricmp c.paramName "cipher" = true := by
    rw [sqlite3Stricmp_congr (mem_of_findParameter hname).2, sqlite3Stricmp_comm]
    exact (mem_of_findParameter hp).2
  have hmax : c.value ≤ codecCountMax := by
    obtain ⟨p', hp', hrange⟩ := hc.found
    rw [hj, hname] at hp'
    obtain rfl := Option.some_inj.mp hp'
    rcases hrange with ⟨_, hle⟩ | ⟨_, _, _, hle⟩
    · rwa [h.cipher.maxValue hp] at hle
    · omega
  have hvalue : c.value ≤ cs.length := hc.selects hj hcipher hmax
  refine ⟨hvalue, ?_⟩
  rw [CipherParams.write]
  dsimp only
  split
  · exact hvalue
  · exact (h.cipher.le p hp).2

theorem Known.changes (h : Known cs table) {tables : CipherTables} {table' : List CodecParameter}
    (hcount : tables.descriptorNames.length ≤ codecCountMax)
    (hc : Changes (Made tables (fun v => v ≤ codecCountMax → v ≤ cs.length) True) table table') :
    Known cs table' :=
  hc.invariant (Known cs) (fun _ _ ht hV => ht.apply hcount hV) h

/-- Using up a pending value. -/
theorem Known.useParameter (h : Known cs table) (j : ℕ) (name : String) :
    Known cs (modifyAt table j name fun p => { p with value := p.default }) :=
  h.modify (fun _ => rfl) fun p _ hp _ => ⟨(h.cipher.le p hp).2, (h.cipher.le p hp).2⟩

/-- The table that a connection gets. -/
theorem known_clone (hcs : Registered cs) (h : CipherAtMost cs.length common) :
    Known cs (layout cs common).sqlite3mcCloneCodecParameterTable := by
  rw [sqlite3mcCloneCodecParameterTable_layout hcs]
  refine ⟨?_, h⟩
  rw [tableShape, List.map_cons, List.map_cons, CodecParameter.shape, CodecParameter.shape,
    h.bounds]

/-- **The lookup ends at an entry**: the ciphers `ds` of the connection are the first of the ciphers
`cs` of the registry. -/
theorem Known.lookup {w : World} {ds : List RegisteredCipher} (hcs : Registered cs)
    (htables : w.tables = layout cs common) (hpre : ds <+: cs) (h : Known ds table) {v : ℤ}
    (hv : Selected table v) :
    ∃ name entry, w.tables.descriptorName v = some name ∧
      table[(w.connEnv table).sqlite3mcGetCipherParams name]? = some entry ∧
        (entry.id : ℤ) = v := by
  obtain ⟨hpos, p, hp, hvalue⟩ := hv
  have hle : v ≤ ds.length := by
    rcases hvalue with rfl | rfl
    · exact (h.cipher.le p hp).1
    · exact (h.cipher.le p hp).2
  obtain ⟨k, rfl⟩ : ∃ k : ℕ, v = k + 1 := ⟨(v - 1).toNat, by omega⟩
  have hk : k < ds.length := by omega
  have hkcs : k < cs.length := hk.trans_le hpre.length_le
  obtain ⟨entry, hentry, hid⟩ := h.entry hk
  refine ⟨cs[k].name, entry, ?_, ?_, by rw [hid]; push_cast; rfl⟩
  · rw [htables, descriptorName_layout hcs common hkcs]
  -- the numbers of the entries count from `1`
  have hindex : (w.connEnv table).sqlite3mcCipherIndex cs[k].name = k + 1 := by
    rw [Env.sqlite3mcCipherIndex, World.connEnv, htables, descriptorNames_layout hcs,
      hcs.findIdx?_name hkcs]
  have hlen : k < (table.drop 1).length := by
    rw [List.length_drop, h.length]
    omega
  have hids : ∀ j, j ≤ k → ∃ c, (table.drop 1)[j]? = some c ∧ c.id = j + 1 := by
    intro j hj
    obtain ⟨c, hc, hcid⟩ := h.entry (k := j) (by omega)
    exact ⟨c, by rw [List.getElem?_drop, Nat.add_comm 1, hc], hcid⟩
  have hfind : (table.drop 1).findIdx (fun c => decide (c.id = 0 ∨ ((k : ℤ) + 1) = c.id)) = k := by
    rw [List.findIdx_eq hlen]
    refine ⟨?_, fun j hj => ?_⟩
    · obtain ⟨c, hc, hcid⟩ := hids k le_rfl
      rw [List.getElem?_eq_getElem hlen, Option.some_inj] at hc
      rw [hc, hcid]
      simp
    · obtain ⟨c, hc, hcid⟩ := hids j hj.le
      rw [List.getElem?_eq_getElem (hj.trans hlen), Option.some_inj] at hc
      rw [hc, hcid]
      simp only [decide_eq_false_iff_not]
      omega
  rw [Env.sqlite3mcGetCipherParams, hindex, if_pos (by omega)]
  refine Eq.trans (congrArg (fun n => table[1 + n]?) hfind) ?_
  rw [Nat.add_comm 1, hentry]

end Table

/-! ### Along a run -/

/-- What a run keeps: the tables of the connections know the first of the registered ciphers. -/
structure LookupInv (w : World) (cs : List RegisteredCipher) (common : List CipherParams) :
    Prop where
  registered : Registered cs
  tables : w.tables = layout cs common
  common : CipherAtMost cs.length common
  conns : ∀ table ∈ w.conns, ∃ ds, ds <+: cs ∧ Known ds table

section Run

variable {cs : List RegisteredCipher} {common : List CipherParams} {R : SqliteReaders}
  {w w' : World} {db : ℕ} {table table' : List CodecParameter}

theorem LookupInv.setTable (h : LookupInv w cs common)
    (htable : ∃ ds, ds <+: cs ∧ Known ds table') (db : ℕ) :
    LookupInv (w.setTable db table') cs common where
  registered := h.registered
  tables := h.tables
  common := h.common
  conns := by
    intro table ht
    rcases List.mem_or_eq_of_mem_set ht with ht | rfl
    · exact h.conns table ht
    · exact htable

/-- The changes of one table, if each selection is of a cipher that the connection knows. -/
theorem LookupInv.changes (h : LookupInv w cs common) (htable : w.conns[db]? = some table)
    (hc : ∀ ds, ds <+: cs → Known ds table →
      Changes (Made w.tables (fun v => v ≤ codecCountMax → v ≤ ds.length) True) table table') :
    LookupInv (w.setTable db table') cs common := by
  obtain ⟨ds, hpre, hds⟩ := h.conns table (List.mem_of_getElem? htable)
  have hcount : w.tables.descriptorNames.length ≤ codecCountMax := by
    rw [h.tables, descriptorNames_layout h.registered, List.length_map]
    exact h.registered.length_le
  exact h.setTable ⟨ds, hpre, hds.changes hcount (hc ds hpre hds)⟩ db

/-- No registered cipher is at position `0` of the table of a connection. -/
theorem LookupInv.not_common (h : LookupInv w cs common) {ds : List RegisteredCipher}
    (hds : Known ds table) {c : CodecParameter} (hc : c ∈ w.tables.cipherEntries) :
    findTable table c.name ≠ some 0 := by
  intro h0
  rw [h.tables, cipherEntries_layout h.registered] at hc
  obtain ⟨entry, hentry, hglobal⟩ := hds.global
  have hname := name_of_findTable h0 hentry
  rw [hglobal, h.registered.not_global hc] at hname
  cases hname

/-- The cipher that a URI leaves as it is has been selected before. -/
theorem LookupInv.uriCipher (h : LookupInv w cs common) {ds : List RegisteredCipher}
    (hpre : ds <+: cs) (hds : Known ds table) {u : UriParams} {name : String}
    (hnone : (u.parameter "cipher").filter (fun z => decide (z ≠ "")) = none)
    (hname : (uriCipher w.tables table u).1 = some name) :
    w.tables.pragmaCipherId name ≤ ds.length := by
  rw [MultipleCiphers.uriCipher] at hname
  dsimp only at hname
  rw [hnone] at hname
  dsimp only at hname
  split at hname
  swap
  · cases hname
  rename_i hpos
  change 0 < currentCipher w.tables table at hpos
  change w.tables.sqlite3mcFindCipherName (currentCipher w.tables table) = some name at hname
  have hcurrent : currentCipher w.tables table ≤ ds.length := by
    rw [currentCipher_eq] at hpos ⊢
    rcases hp : findParameter (paramsAt table 0) "cipher" with _ | p
    · rw [hp] at hpos
      cases hpos
    · exact (hds.cipher.le p hp).1
  obtain ⟨k, hk⟩ : ∃ k : ℕ, currentCipher w.tables table = k + 1 :=
    ⟨(currentCipher w.tables table - 1).toNat, by omega⟩
  have hkcs : k < cs.length := by
    have := hpre.length_le
    omega
  rw [hk, CipherTables.sqlite3mcFindCipherName] at hname
  split at hname
  · obtain ⟨hdesc, -⟩ := Option.filter_eq_some_iff.mp hname
    rw [h.tables, descriptorName_layout h.registered common hkcs, Option.some_inj] at hdesc
    rw [← hdesc, h.tables, pragmaCipherId_layout h.registered common hkcs]
    omega
  · cases hname

/-- **A setting keeps the invariant** if it selects a cipher that the connection knows. -/
theorem LookupInv.configStep (h : LookupInv w cs common) {e : ConfigEvent} {reply : ConfigReply}
    (hknown : (RegistryEvent.config e).Known w) (hstep : w.configStep R e = some (reply, w')) :
    LookupInv w' cs common := by
  -- what is selected is known to the connection
  have hok : ∀ {db table ds v}, e.db? = some db → w.conns[db]? = some table → Known ds table →
      e.Selects w.tables table v → v ≤ ds.length := by
    intro db table ds v hdb htable hds hv
    have hlt := hknown db table v hdb htable hv
    rw [hds.length] at hlt
    omega
  cases e with
  | openDb =>
    cases hstep
    refine ⟨h.registered, h.tables, h.common, fun table ht => ?_⟩
    rcases List.mem_append.mp ht with ht | ht
    · exact h.conns table ht
    · rw [List.mem_singleton.mp ht, h.tables]
      exact ⟨cs, List.prefix_refl cs, known_clone h.registered h.common⟩
  | config db paramName newValue =>
    cases hstep
    rcases w.sqlite3mcConfig_cases db paramName newValue with
      heq | ⟨name, d, table, rfl, rfl, htable, -, heq⟩
    · rwa [heq]
    · rw [heq]
      refine h.changes htable fun ds _ hds => ?_
      by_cases hbound : (parseParamName name).IsBound
      · rw [sqlite3mcConfigCommon_isBound _ _ hbound]
        exact Changes.refl table
      · exact sqlite3mcConfigCommon_changes _ table fun hcipher _ hle _ =>
          hok rfl htable hds ⟨hcipher, hbound, rfl, hle⟩
  | configCipher db cipherName paramName newValue =>
    cases hstep
    rcases w.sqlite3mcConfigCipher_cases db cipherName paramName newValue with
      heq | ⟨cipher, name, d, table, rfl, rfl, rfl, htable, -, heq⟩
    · rwa [heq]
    · rw [heq]
      refine h.changes htable fun ds _ hds => ?_
      by_cases hbound : (parseParamName name).IsBound
      · rw [sqlite3mcConfigCipherTable_isBound _ hbound]
        exact Changes.refl table
      · exact sqlite3mcConfigCipherTable_changes table fun h0 hcipher hle =>
          hok rfl htable hds ⟨h0, hcipher, hbound, rfl, hle⟩
  | configParams db args granted =>
    obtain ⟨table, htable, hstep⟩ := Option.bind_eq_some_iff.mp hstep
    obtain ⟨⟨r, table'⟩, hr, hstep⟩ := Option.map_eq_some_iff.mp hstep
    cases hstep
    refine h.changes htable fun ds _ hds => ?_
    refine sqlite3mcConfigParams_changes hr (fun a₀ a₁ hargs hcipher j hj _ => ?_)
      (fun a₀ a₁ a₂ p hargs hsets hcipher _ => ?_) (Or.inl trivial)
    · subst hargs
      exact hok rfl htable hds ⟨hcipher, j, hj, rfl⟩
    · subst hargs
      exact hok rfl htable hds ⟨hcipher, rfl, p, hsets⟩
  | pragma db pragmaName pragmaValue configDefault granted =>
    obtain ⟨table, htable, hstep⟩ := Option.bind_eq_some_iff.mp hstep
    obtain ⟨⟨r, table'⟩, hr, hstep⟩ := Option.map_eq_some_iff.mp hstep
    cases hstep
    refine h.changes htable fun ds _ hds => ?_
    refine sqlite3mcFileControlPragma_changes hr (fun hcipher z hz _ => ?_)
      (fun c hc h0 => absurd h0 (h.not_common hds hc))
    subst hz
    exact hok rfl htable hds ⟨hcipher, rfl⟩
  | uri db uri configDefault granted =>
    obtain ⟨table, htable, hstep⟩ := Option.map_eq_some_iff.mp hstep
    cases hstep
    refine h.changes htable fun ds hpre hds => ?_
    refine sqlite3mcConfigureFromUri_changes R table uri configDefault granted (fun hpos _ => ?_)
      (fun u hu name hname _ => ?_) (fun c hc h0 => absurd h0 (h.not_common hds hc))
    · rw [currentCipher_eq] at hpos ⊢
      rcases hp : findParameter (paramsAt table 0) "cipher" with _ | p
      · rw [hp] at hpos
        cases hpos
      · exact (hds.cipher.le p hp).1
    · subst hu
      rcases hgiven : (u.parameter "cipher").filter (fun z => decide (z ≠ "")) with _ | given
      · exact h.uriCipher hpre hds hgiven hname
      · have hname' : given = name := by
          rw [MultipleCiphers.uriCipher] at hname
          dsimp only at hname
          rw [hgiven] at hname
          exact Option.some_inj.mp hname
        obtain ⟨hparam, hne⟩ := Option.filter_eq_some_iff.mp hgiven
        subst hname'
        exact hok rfl htable hds ⟨given, hparam, of_decide_eq_true hne, rfl⟩
  | useParameter db j paramName =>
    obtain ⟨table, htable, hstep⟩ := Option.map_eq_some_iff.mp hstep
    cases hstep
    obtain ⟨ds, hpre, hds⟩ := h.conns table (List.mem_of_getElem? htable)
    exact h.setTable ⟨ds, hpre, hds.useParameter j paramName⟩ db

/-- **A step keeps the invariant**: a registration leaves the tables of the connections alone, and
puts the new cipher behind those that they know. -/
theorem LookupInv.registryStep (h : LookupInv w cs common) {e : RegistryEvent} (hknown : e.Known w)
    (hstep : RegistryStep R w e w') : ∃ cs' common', LookupInv w' cs' common' := by
  rw [RegistryStep] at hstep
  cases e with
  | config e =>
    obtain ⟨⟨reply, w₁⟩, hr, rfl⟩ := Option.map_eq_some_iff.mp hstep
    exact ⟨cs, common, h.configStep hknown hr⟩
  | register call =>
    obtain ⟨⟨rc, t⟩, hr, rfl⟩ := Option.map_eq_some_iff.mp hstep
    rw [h.tables] at hr
    rcases sqlite3mcRegisterCipher_layout h.registered hr with ⟨_, rfl⟩ | ⟨_, c, hc, rfl⟩
    · exact ⟨cs, common, h.registered, rfl, h.common, h.conns⟩
    · refine ⟨cs ++ [c], _, hc, rfl, ?_, fun table ht => ?_⟩
      · have hmono : CipherAtMost (cs.length + 1) common := h.common.mono (Nat.le_succ _)
        rw [List.length_append, List.length_singleton]
        split
        · exact hmono.setDefaultCipher
        · exact hmono
      · obtain ⟨ds, hpre, hds⟩ := h.conns table ht
        exact ⟨ds, hpre.trans (List.prefix_append cs [c]), hds⟩

/-- **All lookups end at an entry.** In every run of registrations and settings in which connections
select only ciphers that were registered when they were opened, the table of each connection has an
entry for the cipher that is selected, and the lookup finds it. -/
theorem lookup_invariant {events : List RegistryEvent}
    (hrun : GuardedRun (RegistryStep R) (fun w e => e.Known w) emptyWorld events w) :
      w.LooksUp := by
  have hempty : LookupInv emptyWorld [] commonParams :=
    ⟨registered_nil, sqlite3mcInitCipherTables_eq, cipherAtMost_commonParams,
      fun table ht => by cases ht⟩
  obtain ⟨cs, common, h⟩ := hrun.invariant (fun w => ∃ cs common, LookupInv w cs common)
    (fun ⟨_, _, h⟩ hknown hstep => h.registryStep hknown hstep) ⟨[], commonParams, hempty⟩
  intro table ht v hv
  obtain ⟨ds, hpre, hds⟩ := h.conns table ht
  exact hds.lookup h.registered h.tables hpre hv

end Run

/-- One cipher, a connection, and the cipher selected on it. -/
theorem lookup_invariant_rc4 :
    ∃ w, GuardedRun (RegistryStep decimalReaders) (fun w e => e.Known w) emptyWorld
        [.register registerRC4, .config .openDb, .config (.config (some 0) (some "cipher") 1)] w ∧
      w.LooksUp := by
  have hregister : RegistryStep decimalReaders emptyWorld (.register registerRC4)
      ⟨rc4Tables, []⟩ := by
    have hcall : sqlite3mcInitCipherTables.sqlite3mcRegisterCipher registerRC4.desc
        registerRC4.params registerRC4.makeDefault registerRC4.malloc =
          some (.ok, rc4Tables) := by decide
    exact congrArg (Option.map fun r => (⟨r.2, []⟩ : World)) hcall
  have hknown : (RegistryEvent.config (.config (some 0) (some "cipher") 1)).Known
      ⟨rc4Tables, [rc4Tables.sqlite3mcCloneCodecParameterTable]⟩ := by
    rintro _ table v hdb htable ⟨_, _, rfl, _⟩
    obtain rfl := Option.some_inj.mp hdb
    obtain rfl := Option.some_inj.mp htable
    decide
  have hrun : GuardedRun (RegistryStep decimalReaders) (fun w e => e.Known w) emptyWorld
      [.register registerRC4, .config .openDb, .config (.config (some 0) (some "cipher") 1)] _ :=
    GuardedRun.cons trivial hregister (GuardedRun.cons (fun _ _ _ hdb => by cases hdb) rfl
      (GuardedRun.cons hknown rfl (GuardedRun.nil _)))
  exact ⟨_, hrun, lookup_invariant hrun⟩

/-- A cipher `xor` that is registered when all connections are open. -/
def xorCipher : RegisteredCipher := ⟨"xor", builtinDescriptor "xor", [⟨"legacy", 0, 0, 0, 1⟩]⟩

/-- A connection is opened with the built-in ciphers, then `xor` is registered, and the pragma
selects it. -/
def selectNewCipher : List RegistryEvent :=
  (builtinCiphers.map fun c => .register (registerBuiltin c)) ++
    [.config .openDb, .register (registerBuiltin xorCipher),
      .config (.pragma 0 "cipher" (some "xor") false true)]

/-- **A lookup ends at the sentinel** once a connection has selected a newer cipher. -/
theorem lookup_newCipher :
    ∃ w, Run (RegistryStep decimalReaders) emptyWorld selectNewCipher w ∧ ¬ w.LooksUp := by
  have hrun : (selectNewCipher.foldlM (World.registryStep decimalReaders) emptyWorld).any (fun w =>
            decide (w.tables.descriptorName 8 = some "xor" ∧ ∃ table ∈ w.conns,
              (findParameter (paramsAt table 0) "cipher").map CipherParams.value = some 8 ∧
                table[(w.connEnv table).sqlite3mcGetCipherParams "xor"]? = none)) = true := by
    decide
  obtain ⟨w, hrun, hw⟩ := (Option.any_eq_true _ _).mp hrun
  obtain ⟨hname, table, htable, hvalue, hnone⟩ := of_decide_eq_true hw
  obtain ⟨p, hp, hvalue⟩ := Option.map_eq_some_iff.mp hvalue
  refine ⟨w, Run.of_foldlM hrun, fun h => ?_⟩
  obtain ⟨name, entry, hname', hentry, _⟩ :=
    h table htable 8 ⟨by decide, p, hp, Or.inl hvalue.symm⟩
  rw [hname, Option.some_inj] at hname'
  rw [← hname', hnone] at hentry
  cases hentry

end MultipleCiphers
