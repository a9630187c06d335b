import MultipleCiphers.Config.Clone

/-!
# The clones of the parameter table are isolated

`TableState` is the memory with the global table and the clones that connections use. Its steps are
all that happens to these tables: a connection gets a clone, a value in a table is changed, a cipher
is registered, a clone is freed. The values of the global table are changed by a configuration call
without a connection, and by the registration of a cipher that is to be the default.

Each table uses arrays of its own. A step writes only to arrays that the table it is about uses, or
to new ones, so that every other table reads as before.

## Main definitions

* `TableState.next` — what happens to the tables of a process.
* `TableState.ClonesExactly` — a call gives an exact and isolated clone.

## Main results

* `TableState.WellFormed.step` — a step keeps the invariant, and leaves the other tables as they
  are.
* `TableState.WellFormed.run` — so does a run.
* `TableState.clonesExactly_iff` — only the allocation of the first array, which is not checked,
  can go wrong.
-/

namespace MultipleCiphers

open ArrayMemory

namespace TableMemory

variable (m : TableMemory)

/-! ### Registering a cipher -/

/-- The loop of `sqlite3mcRegisterCipher` that copies the parameters, each with its name. -/
def installParams (a : ℕ) (m : TableMemory) (n : ℕ) : List CipherParams → Option TableMemory
  | [] => some m
  | p :: ps =>
    (m.params.write ⟨a, n⟩ ⟨m.strings.next, p.value, p.default, p.minValue, p.maxValue⟩).bind
      fun params => installParams a ⟨m.strings.alloc p.name, params, m.tables⟩ (n + 1) ps

/-- The default of the parameter `cipher` becomes the cipher `id`, if the parameter is there. -/
def makeDefaultCipher (t id : ℕ) : Option TableMemory :=
  (m.tables.read ⟨t, 0⟩).bind fun first => first.params.bind fun p =>
    (m.paramEntries p).bind fun xs =>
    match xs.findIdx? fun x => sqlite3Stricmp "cipher" (m.stringAt x.name) with
    | some k => m.changeParam t 0 k id id
    | none => some m

/-- What `sqlite3mcRegisterCipher` does to the parameter tables when its checks are passed and its
allocations granted. The cipher gets the entry behind the last one, which is that of its number, and
there is room for it as long as another entry follows to end the table. -/
def installCipher (t globalSentinelName : ℕ) (name : String) (params : List CipherParams)
    (sentinel : CipherParams) (makeDefault : Bool) : Option TableMemory :=
  (m.tableEntries t).bind fun entries =>
    let id := entries.length
    let cipherParams := m.params.next
    let mem := m.params.alloc (List.replicate (params.length + 1) none)
    if id + 1 < (cellsFrom m.tables ⟨t, 0⟩).length then
      (m.tables.write ⟨t, id⟩ ⟨m.strings.next, id, some ⟨cipherParams, 0⟩⟩).bind fun tables =>
        (installParams cipherParams ⟨m.strings.alloc name, mem, tables⟩ 0 params).bind fun m =>
          (m.params.write ⟨cipherParams, params.length⟩ ⟨globalSentinelName, sentinel.value,
              sentinel.default, sentinel.minValue, sentinel.maxValue⟩).bind fun written =>
            if makeDefault then makeDefaultCipher ⟨m.strings, written, m.tables⟩ t id
            else some ⟨m.strings, written, m.tables⟩
    else some ⟨m.strings, mem, m.tables⟩

end TableMemory

/-! ### The tables of a process -/

/-- The memory, the address of the global table, that of the name of a sentinel, and the clones in
use. -/
structure TableState where
  mem : TableMemory
  globalTable : ℕ
  globalSentinelName : ℕ
  clones : List ℕ

/-- What happens to the tables. -/
inductive TableAction where
  /-- A connection asks for a clone. -/
  | clone (paramsGranted tablesGranted : Bool)
  /-- Parameter `k` of list `j` of the table `t` gets a new value and default. -/
  | change (t j k : ℕ) (value default : ℤ)
  /-- A cipher is registered. -/
  | register (name : String) (params : List CipherParams) (sentinel : CipherParams)
      (makeDefault : Bool)
  /-- The connection with the clone `t` is closed. -/
  | free (t : ℕ)

/-- The action is about the table `u`, where the global table is `globalTable`. -/
def TableAction.About (globalTable u : ℕ) : TableAction → Prop
  | .clone _ _ => False
  | .change t _ _ _ _ => t = u
  | .register _ _ _ _ => globalTable = u
  | .free t => t = u

namespace TableState

/-- The tables in use. -/
def Live (s : TableState) (t : ℕ) : Prop := t = s.globalTable ∨ t ∈ s.clones

instance (s : TableState) (t : ℕ) : Decidable (s.Live t) := by
  unfold Live
  infer_instance

/-- One step; `none` where it is not possible or goes wrong. The names that are registered are not
empty: `mcCheckValidName`. -/
def next (s : TableState) : TableAction → Option TableState
  | .clone paramsGranted tablesGranted =>
    (s.mem.sqlite3mcCloneCodecParameterTable s.globalTable paramsGranted tablesGranted).map
      fun r => { s with mem := r.2, clones := r.1.toList ++ s.clones }
  | .change t j k value default =>
    if s.Live t then (s.mem.changeParam t j k value default).map fun mem => { s with mem := mem }
    else none
  | .register name params sentinel makeDefault =>
    if name ≠ "" ∧ ∀ p ∈ params, p.name ≠ "" then
      (s.mem.installCipher s.globalTable s.globalSentinelName name params sentinel
        makeDefault).map fun mem => { s with mem := mem }
    else none
  | .free t =>
    if t ∈ s.clones then
      (s.mem.sqlite3mcFreeCodecParameterTable t).map
        fun mem => { s with mem := mem, clones := s.clones.filter (· ≠ t) }
    else none

/-- A step of the tables. -/
def Step (s : TableState) (a : TableAction) (s' : TableState) : Prop := s.next a = some s'

end TableState

/-! ### What a table uses -/

namespace TableMemory

variable (m : TableMemory)

/-- A list of the table at `t` is in the array `a`. -/
def Uses (t a : ℕ) : Prop :=
  ∃ es, m.tableEntries t = some es ∧ ∃ e ∈ es, ∃ p, e.params = some p ∧ p.array = a

/-- What the table at `t` is made of is in `m'` as it is in `m`. -/
structure Keeps (m' : TableMemory) (t : ℕ) : Prop where
  strings : KeepsStrings m m'
  tables : m'.tables.get t = m.tables.get t
  params : ∀ a, m.Uses t a → m'.params.get a = m.params.get a

/-- From `m` to `m'` only the table at `t` is changed. It may get new arrays. -/
structure ChangesOnly (m' : TableMemory) (t : ℕ) : Prop where
  strings : KeepsStrings m m'
  tables : ∀ u, u ≠ t → m'.tables.get u = m.tables.get u
  params : ∀ a cells, m.params.get a = some cells → ¬m.Uses t a → m'.params.get a = some cells
  uses : ∀ a, m'.Uses t a → m.Uses t a ∨ m.params.get a = none

variable {m} {m' : TableMemory} {t a : ℕ} {e last : CodecParameterEntry}
  {es : List CodecParameterEntry} {rows : List TableRow}

theorem HoldsTable.uses (h : m.HoldsTable t es rows last) (he : e ∈ es) {p : ArrayPtr}
    (hp : e.params = some p) : m.Uses t p.array := ⟨es, h.tableEntries, e, he, p, hp, rfl⟩

theorem HoldsTable.uses_iff (h : m.HoldsTable t es rows last) :
    m.Uses t a ↔ ∃ e ∈ es, ∃ p, e.params = some p ∧ p.array = a := by
  constructor
  · rintro ⟨es', hes, h'⟩
    obtain rfl := Option.some_inj.mp (hes.symm.trans h.tableEntries)
    exact h'
  · exact fun h' => ⟨es, h.tableEntries, h'⟩

/-- A table uses live arrays. -/
theorem HoldsTable.get_of_uses (h : m.HoldsTable t es rows last) (ha : m.Uses t a) :
    ∃ cells, m.params.get a = some cells := by
  obtain ⟨e, he, p, hp, rfl⟩ := h.uses_iff.mp ha
  exact Option.isSome_iff_exists.mp (h.params_isSome he hp)

theorem Keeps.holdsTable (hk : m.Keeps m' t) (h : m.HoldsTable t es rows last) :
    m'.HoldsTable t es rows last :=
  h.congr hk.strings hk.tables fun _ he _ hp => hk.params _ (h.uses he hp)

theorem Keeps.uses_iff (hk : m.Keeps m' t) (h : m.HoldsTable t es rows last) :
    m'.Uses t a ↔ m.Uses t a := by
  rw [(hk.holdsTable h).uses_iff, h.uses_iff]

/-- The name of an entry in front of the end is there. -/
theorem KeepsStrings.stringAt (hk : KeepsStrings m m') {name : ℕ} {b : Bool}
    (h : m.emptyName name = some b) : m'.stringAt name = m.stringAt name := by
  obtain ⟨s, hs, -⟩ := Option.map_eq_some_iff.mp h
  rw [TableMemory.stringAt, TableMemory.stringAt, hs, hk name s hs]

/-- **Tables with the same rows read the same.** -/
theorem readTable_eq {t' : ℕ} {es' : List CodecParameterEntry} {last' : CodecParameterEntry}
    (hk : KeepsStrings m m') (h : m.HoldsTable t es rows last)
    (h' : m'.HoldsTable t' es' rows last') : m'.readTable t' = m.readTable t := by
  have hrows := tableRows_eq_some_iff.mpr ⟨es, last, h⟩
  have hrows' := tableRows_eq_some_iff.mpr ⟨es', last', h'⟩
  rw [readTable, readTable, hrows, hrows', Option.map_some, Option.map_some, Option.some_inj]
  refine List.map_congr_left fun r hr => ?_
  have hflip : List.Forall₂ (fun r e => m.HoldsRow e r) rows es := h.rows.flip
  obtain ⟨e, he, hrow⟩ := hflip.exists_of_mem hr
  have hname : m.emptyName r.name = some false := by
    rw [hrow.name]
    exact h.named e he
  have hparams : r.params.map m'.readParam = r.params.map m.readParam := by
    refine List.map_congr_left fun x hx => ?_
    rw [readParam, readParam, hk.stringAt (hrow.before x hx)]
  rw [hk.stringAt hname, hparams]

/-- **The other tables** are kept. -/
theorem ChangesOnly.keeps (hc : m.ChangesOnly m' t) {u : ℕ} (h : m.HoldsTable u es rows last)
    (hne : u ≠ t) (hsep : ∀ a, m.Uses u a → ¬m.Uses t a) : m.Keeps m' u := by
  refine ⟨hc.strings, hc.tables u hne, fun a ha => ?_⟩
  obtain ⟨cells, hcells⟩ := h.get_of_uses ha
  rw [hcells, hc.params a cells hcells (hsep a ha)]

/-- Where there is no table, nothing is used. -/
theorem not_uses_of_get_eq_none (h : m.tables.get t = none) (a : ℕ) : ¬m.Uses t a := by
  rintro ⟨es, hes, -⟩
  rw [tableEntries, cellsFrom, h] at hes
  cases hes

theorem Keeps.readTable (hk : m.Keeps m' t) (h : m.HoldsTable t es rows last) :
    m'.readTable t = m.readTable t := readTable_eq hk.strings h (hk.holdsTable h)

/-! ### What the operations do -/

/-- A table is still there when no name in a list has changed. -/
theorem HoldsTable.of_names (h : m.HoldsTable t es rows last) (hstrings : m'.strings = m.strings)
    (htables : m'.tables = m.tables)
    (hnames : ∀ q, (cellsFrom m'.params q).map (Option.map CipherParamsEntry.name) =
      (cellsFrom m.params q).map (Option.map CipherParamsEntry.name)) :
    ∃ rows', m'.HoldsTable t es rows' last := by
  have hempty : m'.emptyName = m.emptyName := by
    funext name
    rw [emptyName, emptyName, hstrings]
  have hlist : ∀ p, (m'.paramEntries p).map (List.map CipherParamsEntry.name) =
      (m.paramEntries p).map (List.map CipherParamsEntry.name) := by
    intro p
    calc (m'.paramEntries p).map (List.map CipherParamsEntry.name)
        = untilEnd m'.emptyName
            ((cellsFrom m'.params p).map (Option.map CipherParamsEntry.name)) :=
          (untilEnd_map _ _ _).symm
      _ = untilEnd m.emptyName
            ((cellsFrom m.params p).map (Option.map CipherParamsEntry.name)) := by
          rw [hnames, hempty]
      _ = (m.paramEntries p).map (List.map CipherParamsEntry.name) := untilEnd_map _ _ _
  have hrow : ∀ e ∈ es, ∃ r, m'.HoldsRow e r := by
    intro e he
    obtain ⟨r, -, hr⟩ := h.rows.exists_of_mem he
    obtain ⟨p, -, hp, -⟩ := hr.list
    have hsome := hlist p
    rw [hr.paramEntries hp] at hsome
    obtain ⟨xs, hxs, -⟩ := Option.map_eq_some_iff.mp hsome
    obtain ⟨z, -, hz⟩ := holdsRow_of_paramEntries hp hxs
    exact ⟨_, hz⟩
  obtain ⟨rows', hrows'⟩ := List.exists_forall₂ hrow
  refine ⟨rows', by rw [htables]; exact h.cells, ?_, hrows', ?_⟩
  · rw [hempty]
    exact h.named
  · rw [hempty]
    exact h.ended

/-- **A changed value**: one array of the table is written to, and the names stay. -/
theorem changeParam_spec {j k : ℕ} {value default : ℤ} (h : m.HoldsTable t es rows last)
    (hc : m.changeParam t j k value default = some m') :
    m.ChangesOnly m' t ∧ m'.tables = m.tables ∧ ∃ rows', m'.HoldsTable t es rows' last := by
  obtain ⟨es', hes, hc⟩ := Option.bind_eq_some_iff.mp hc
  obtain rfl := Option.some_inj.mp (hes.symm.trans h.tableEntries)
  obtain ⟨e, he, hc⟩ := Option.bind_eq_some_iff.mp hc
  obtain ⟨p, hp, hc⟩ := Option.bind_eq_some_iff.mp hc
  obtain ⟨xs, hxs, hc⟩ := Option.bind_eq_some_iff.mp hc
  obtain ⟨x, hx, hc⟩ := Option.bind_eq_some_iff.mp hc
  obtain ⟨params, hwrite, rfl⟩ := Option.map_eq_some_iff.mp hc
  have huses : m.Uses t p.array := h.uses (List.mem_of_getElem? he) hp
  have hread : m.params.read (p.add k) = some x := by
    obtain ⟨z, rest, hcells, -⟩ := untilEnd_eq_some_iff.mp hxs
    have hlt : k < (xs.map some).length := by
      rw [List.length_map]
      exact (List.getElem?_eq_some_iff.mp hx).1
    rw [read_eq, cellsFrom_add, hcells, List.getElem?_drop, Nat.add_zero,
      List.getElem?_append_left hlt, List.getElem?_map, hx]
    rfl
  have hnames := map_cellsFrom_write CipherParamsEntry.name hwrite hread rfl
  obtain ⟨rows', h'⟩ : ∃ rows', HoldsTable ⟨m.strings, params, m.tables⟩ t _ rows' last :=
    h.of_names rfl rfl hnames
  refine ⟨⟨fun _ _ hs => hs, fun _ _ => rfl, fun b cells hcells hb => ?_,
    fun b hb => Or.inl ?_⟩, rfl, rows', h'⟩
  · have hne : b ≠ (p.add k).array := by
      rintro rfl
      exact hb huses
    rw [get_write_of_ne hwrite hne, hcells]
  · exact h.uses_iff.mpr (h'.uses_iff.mp hb)

/-- **A freed clone**: its array and its lists are gone. -/
theorem free_spec (h : m.HoldsTable t es rows last) (hlast : last.params = none)
    (hf : m.sqlite3mcFreeCodecParameterTable t = some m') :
    m.ChangesOnly m' t := by
  have hgone : ∀ params a, ¬Uses ⟨m.strings, params, m.tables.free t⟩ t a := fun _ =>
    not_uses_of_get_eq_none (Heap.get_free_self _ _)
  obtain ⟨first, hfirst, hf⟩ := Option.bind_eq_some_iff.mp hf
  obtain ⟨rest, hcells⟩ := h.cells
  rw [read_eq, hcells] at hfirst
  cases hp : first.params with
  | none =>
    rw [hp] at hf
    obtain rfl := Option.some_inj.mp hf
    exact ⟨fun _ _ hs => hs, fun u hu => Heap.get_free_of_ne hu, fun _ _ hcells _ => hcells,
      fun a ha => absurd ha (hgone _ a)⟩
  | some p =>
    rw [hp] at hf
    dsimp only at hf
    split_ifs at hf
    obtain rfl := Option.some_inj.mp hf
    refine ⟨fun _ _ hs => hs, fun u hu => Heap.get_free_of_ne hu, fun b cells hcells hb => ?_,
      fun a ha => absurd ha (hgone _ a)⟩
    suffices hne : b ≠ p.array from (Heap.get_free_of_ne hne).trans hcells
    rintro rfl
    cases es with
    | nil =>
      obtain rfl := Option.some_inj.mp hfirst
      rw [hlast] at hp
      cases hp
    | cons e es =>
      obtain rfl := Option.some_inj.mp hfirst
      exact hb (h.uses List.mem_cons_self hp)

/-! ### What a registration does -/

theorem KeepsStrings.trans {m₁ m₂ : TableMemory} (h : KeepsStrings m m₁)
    (h' : KeepsStrings m₁ m₂) : KeepsStrings m m₂ := fun a s hs => h' a s (h a s hs)

/-- A new string. -/
theorem keepsStrings_alloc (s : String) (params : ArrayMemory CipherParamsEntry)
    (tables : ArrayMemory CodecParameterEntry) :
    KeepsStrings m ⟨m.strings.alloc s, params, tables⟩ := fun _ _ ht => Heap.get_alloc ht _

theorem emptyName_alloc {s : String} (hs : s ≠ "") (params : ArrayMemory CipherParamsEntry)
    (tables : ArrayMemory CodecParameterEntry) :
    emptyName ⟨m.strings.alloc s, params, tables⟩ m.strings.next = some false := by
  rw [emptyName, Heap.get_alloc_self, Option.map_some, beq_eq_false_iff_ne.mpr hs]

/-- **The loop over the parameters** fills the array of the cipher from the left. -/
theorem installParams_spec {n : ℕ} {xs : List CipherParamsEntry} {ps : List CipherParams}
    (hps : ∀ p ∈ ps, p.name ≠ "")
    (ha : m.params.get a = some (xs.map some ++ List.replicate (ps.length + n) none)) :
    ∃ m' ys, installParams a m xs.length ps = some m' ∧ m'.tables = m.tables ∧
      KeepsStrings m m' ∧
      m'.params = m.params.set a ((xs ++ ys).map some ++ List.replicate n none) ∧
      ys.length = ps.length ∧ ∀ y ∈ ys, m'.emptyName y.name = some false := by
  induction ps generalizing m xs with
  | nil =>
    rw [List.length_nil, Nat.zero_add] at ha
    refine ⟨m, [], rfl, rfl, fun _ _ hs => hs, ?_, rfl, fun y hy => (List.not_mem_nil hy).elim⟩
    rw [List.append_nil, Heap.set_get ha]
  | cons p ps ih =>
    obtain ⟨hp, hps⟩ := List.forall_mem_cons.mp hps
    have ha' : m.params.get a = some (xs.map some ++ List.replicate (ps.length + n + 1) none) := by
      rw [ha, List.length_cons, Nat.add_right_comm]
    obtain ⟨y, hy⟩ : ∃ y : CipherParamsEntry,
        y = ⟨m.strings.next, p.value, p.default, p.minValue, p.maxValue⟩ := ⟨_, rfl⟩
    obtain ⟨m₁, hm₁⟩ : ∃ m₁ : TableMemory, m₁ = ⟨m.strings.alloc p.name, m.params.set a
        ((xs ++ [y]).map some ++ List.replicate (ps.length + n) none), m.tables⟩ := ⟨_, rfl⟩
    have hget : m₁.params.get a =
        some ((xs ++ [y]).map some ++ List.replicate (ps.length + n) none) := by
      rw [hm₁]
      exact Heap.get_set_self ha' _
    have hkeep : KeepsStrings m m₁ := by
      rw [hm₁]
      exact keepsStrings_alloc _ _ _
    have hnamed : m₁.emptyName y.name = some false := by
      rw [hm₁, hy]
      exact emptyName_alloc hp _ _
    obtain ⟨m', ys, hinstall, htables, hkeep', hparams, hlen, hnames⟩ := ih hps hget
    refine ⟨m', y :: ys, ?_, ?_, hkeep.trans hkeep', ?_, ?_, ?_⟩
    · rw [installParams, ← hy, write_next ha', Option.bind_some, ← hm₁, ← hinstall,
        List.length_append, List.length_singleton]
    · rw [htables, hm₁]
    · rw [hparams, hm₁, Heap.set_set, List.append_assoc, List.singleton_append]
    · rw [List.length_cons, hlen, List.length_cons]
    · exact List.forall_mem_cons.mpr ⟨hkeep'.emptyName hnamed, hnames⟩

/-- The table at `t` is followed by entries that end it, up to the end of its array. -/
def HoldsGlobal (m : TableMemory) (t : ℕ) : Prop :=
  ∃ es rows last k, m.HoldsTable t es rows last ∧
    m.tables.get t = some (es.map some ++ List.replicate (k + 1) (some last))

/-- **The new cipher** gets the next entry and an array of its own. -/
theorem installCipher_eq {k sentinelName : ℕ} {name : String} {ps : List CipherParams}
    {z : CipherParams} (h : m.HoldsTable t es rows last)
    (hget : m.tables.get t = some (es.map some ++ List.replicate (k + 2) (some last)))
    (hname : name ≠ "") (hps : ∀ p ∈ ps, p.name ≠ "") (hz : m.emptyName sentinelName = some true) :
    ∃ m', (∀ b, m.installCipher t sentinelName name ps z b =
        if b then m'.makeDefaultCipher t es.length else some m') ∧
      m.ChangesOnly m' t ∧ HoldsGlobal m' t := by
  obtain ⟨e, he⟩ : ∃ e : CodecParameterEntry,
      e = ⟨m.strings.next, es.length, some ⟨m.params.next, 0⟩⟩ := ⟨_, rfl⟩
  obtain ⟨tables, htables⟩ : ∃ tables, tables =
      m.tables.set t ((es ++ [e]).map some ++ List.replicate (k + 1) (some last)) := ⟨_, rfl⟩
  have hlt : es.length + 1 < (es.map some ++ List.replicate (k + 2) (some last)).length := by
    rw [List.length_append, List.length_map, List.length_replicate]
    omega
  have hwrite : m.tables.write ⟨t, es.length⟩ e = some tables := by
    refine write_eq_some_iff.mpr ⟨_, hget, Nat.lt_of_succ_lt hlt, ?_⟩
    rw [htables, List.set_append_right _ _ (Nat.le_of_eq (List.length_map some)),
      List.length_map, Nat.sub_self, List.replicate_succ, List.set_cons_zero, List.map_append,
      List.append_assoc]
    rfl
  -- the memory in front of the loop over the parameters
  obtain ⟨m₀, hm₀⟩ : ∃ m₀ : TableMemory, m₀ = ⟨m.strings.alloc name,
      m.params.alloc (List.replicate (ps.length + 1) none), tables⟩ := ⟨_, rfl⟩
  have hfresh : m₀.params.get m.params.next =
      some (([] : List CipherParamsEntry).map some ++ List.replicate (ps.length + 1) none) := by
    rw [hm₀]
    exact Heap.get_alloc_self _ _
  have hkeep₀ : KeepsStrings m m₀ := by
    rw [hm₀]
    exact keepsStrings_alloc _ _ _
  obtain ⟨m₁, ys, hinstall, htables₁, hkeep₁, hparams, hlen, hnames⟩ :=
    installParams_spec hps hfresh
  obtain ⟨y, hy⟩ : ∃ y : CipherParamsEntry,
      y = ⟨sentinelName, z.value, z.default, z.minValue, z.maxValue⟩ := ⟨_, rfl⟩
  have hget₁ : m₁.params.get m.params.next =
      some (ys.map some ++ List.replicate (0 + 1) none) := by
    rw [hparams]
    exact Heap.get_set_self hfresh _
  have hend : m₁.params.write ⟨m.params.next, ps.length⟩ y =
      some (m.params.alloc ((ys ++ [y]).map some)) := by
    rw [← hlen, write_next hget₁ y, hparams, hm₀, Heap.set_alloc, Heap.set_alloc,
      List.replicate_zero, List.append_nil]
  obtain ⟨m', hm'⟩ : ∃ m' : TableMemory, m' = ⟨m₁.strings,
      m.params.alloc ((ys ++ [y]).map some), m₁.tables⟩ := ⟨_, rfl⟩
  have hkeep : KeepsStrings m m' := by
    rw [hm']
    exact hkeep₀.trans hkeep₁
  have hget' : m'.tables.get t =
      some ((es ++ [e]).map some ++ List.replicate (k + 1) (some last)) := by
    rw [hm', htables₁, hm₀, htables]
    exact Heap.get_set_self hget _
  have hparams' : ∀ a, a ≠ m.params.next → m'.params.get a = m.params.get a := by
    intro a ha
    rw [hm']
    exact Heap.get_alloc_of_ne ha _
  have hrow : m'.HoldsRow e ⟨e.name, e.id, ys, y⟩ := by
    refine ⟨rfl, rfl, ⟨⟨m.params.next, 0⟩, [], by rw [he], ?_⟩, fun x hx => ?_, ?_⟩
    · rw [hm', cellsFrom, Heap.get_alloc_self, List.append_nil]
      rfl
    · rw [hm']
      exact hnames x hx
    · rw [hy]
      exact hkeep.emptyName hz
  have hnew : m'.HoldsTable t (es ++ [e]) (rows ++ [⟨e.name, e.id, ys, y⟩]) last := by
    refine ⟨⟨List.replicate k (some last), ?_⟩, fun x hx => ?_, ?_, hkeep.emptyName h.ended⟩
    · rw [cellsFrom, hget']
      rfl
    · rcases List.mem_append.mp hx with hx | hx
      · exact hkeep.emptyName (h.named x hx)
      · obtain rfl := List.mem_singleton.mp hx
        have hnamed : m₀.emptyName m.strings.next = some false := by
          rw [hm₀]
          exact emptyName_alloc hname _ _
        rw [hm', he]
        exact hkeep₁.emptyName hnamed
    · refine List.rel_append (h.rows.imp_of_mem fun x hx r hr => ?_)
        (List.Forall₂.cons hrow List.Forall₂.nil)
      exact hr.congr hkeep fun p hp => hparams' _ (h.params_ne_next hx hp)
  refine ⟨m', fun b => ?_, ⟨hkeep, fun u hu => ?_, fun a cells hcells _ => ?_, fun a ha => ?_⟩,
    ⟨_, _, last, k, hnew, hget'⟩⟩
  · have hcells : (cellsFrom m.tables ⟨t, 0⟩).length =
        (es.map some ++ List.replicate (k + 2) (some last)).length := by
      rw [cellsFrom, hget]
      rfl
    have hloop : installParams m.params.next m₀ 0 ps = some m₁ := hinstall
    rw [installCipher, h.tableEntries, Option.bind_some]
    dsimp only
    rw [hcells, if_pos hlt, ← he, hwrite, Option.bind_some, ← hm₀, hloop, Option.bind_some, ← hy,
      hend, Option.bind_some, ← hm']
  · rw [hm', htables₁, hm₀, htables]
    exact Heap.get_set_of_ne hu _
  · rw [hparams' a (Heap.ne_next hcells), hcells]
  · obtain ⟨x, hx, p, hp, rfl⟩ := hnew.uses_iff.mp ha
    rcases List.mem_append.mp hx with hx | hx
    · exact Or.inl (h.uses hx hp)
    · obtain rfl := List.mem_singleton.mp hx
      rw [he] at hp
      obtain rfl := Option.some_inj.mp hp
      exact Or.inr (Heap.get_next m.params)

/-- A table with nothing behind it but its end stays one when a value is changed. -/
theorem HoldsGlobal.changeParam {j k : ℕ} {value default : ℤ} (h : HoldsGlobal m t)
    (hc : m.changeParam t j k value default = some m') : m.ChangesOnly m' t ∧ HoldsGlobal m' t := by
  obtain ⟨es, rows, last, n, h, hget⟩ := h
  obtain ⟨hchanges, htables, rows', h'⟩ := changeParam_spec h hc
  exact ⟨hchanges, es, rows', last, n, h', by rw [htables, hget]⟩

/-- Nothing happens. -/
theorem ChangesOnly.refl (m : TableMemory) (t : ℕ) : m.ChangesOnly m t :=
  ⟨fun _ _ hs => hs, fun _ _ => rfl, fun _ _ hcells _ => hcells, fun _ ha => Or.inl ha⟩

theorem ChangesOnly.trans {m₁ : TableMemory} (h : m.ChangesOnly m₁ t)
    (h' : m₁.ChangesOnly m' t) : m.ChangesOnly m' t := by
  refine ⟨h.strings.trans h'.strings, fun u hu => (h'.tables u hu).trans (h.tables u hu),
    fun a cells hcells ha => h'.params a cells (h.params a cells hcells ha) fun huses => ?_,
    fun a ha => ?_⟩
  · rcases h.uses a huses with hold | hnone
    · exact ha hold
    · rw [hcells] at hnone
      cases hnone
  · rcases h'.uses a ha with hold | hnone
    · exact h.uses a hold
    · by_cases hold : m.Uses t a
      · exact Or.inl hold
      · refine Or.inr (Option.eq_none_iff_forall_not_mem.mpr fun cells hcells => ?_)
        rw [h.params a cells hcells hold] at hnone
        cases hnone

theorem HoldsGlobal.makeDefaultCipher {id : ℕ} (h : HoldsGlobal m t)
    (hd : m.makeDefaultCipher t id = some m') : m.ChangesOnly m' t ∧ HoldsGlobal m' t := by
  obtain ⟨first, -, hd⟩ := Option.bind_eq_some_iff.mp hd
  obtain ⟨p, -, hd⟩ := Option.bind_eq_some_iff.mp hd
  obtain ⟨xs, -, hd⟩ := Option.bind_eq_some_iff.mp hd
  split at hd
  · exact h.changeParam hd
  · obtain rfl := Option.some_inj.mp hd
    exact ⟨ChangesOnly.refl m t, h⟩

/-- Where the strings and the table are the same, the same arrays are used. -/
theorem uses_congr (hstrings : m'.strings = m.strings) (htables : m'.tables = m.tables) :
    m'.Uses t a ↔ m.Uses t a := by
  have hentries : m'.tableEntries t = m.tableEntries t := by
    rw [tableEntries, tableEntries, htables]
    unfold emptyName
    rw [hstrings]
  rw [Uses, Uses, hentries]

theorem HoldsGlobal.installCipher {sentinelName : ℕ} {name : String} {ps : List CipherParams}
    {z : CipherParams} {b : Bool} (h : HoldsGlobal m t) (hname : name ≠ "")
    (hps : ∀ p ∈ ps, p.name ≠ "") (hz : m.emptyName sentinelName = some true)
    (hi : m.installCipher t sentinelName name ps z b = some m') :
    m.ChangesOnly m' t ∧ HoldsGlobal m' t := by
  obtain ⟨es, rows, last, k, h, hget⟩ := h
  cases k with
  | zero =>
    -- the registry is full
    have hlen : ¬es.length + 1 < (cellsFrom m.tables ⟨t, 0⟩).length := by
      rw [cellsFrom, hget, Option.getD_some, List.drop_zero, List.length_append, List.length_map,
        List.length_replicate]
      omega
    rw [TableMemory.installCipher, h.tableEntries, Option.bind_some] at hi
    dsimp only at hi
    rw [if_neg hlen] at hi
    obtain rfl := Option.some_inj.mp hi
    refine ⟨⟨fun _ _ hs => hs, fun _ _ => rfl, fun a cells hcells _ => Heap.get_alloc hcells _,
      fun a ha => Or.inl ((uses_congr rfl rfl).mp ha)⟩, es, rows, last, 0, ?_, hget⟩
    exact h.congr (fun _ _ hs => hs) rfl fun e he p hp =>
      Heap.get_alloc_of_ne (h.params_ne_next he hp) _
  | succ k =>
    obtain ⟨m₁, hinstall, hchanges, hglobal⟩ := installCipher_eq h hget hname hps hz
    rw [hinstall] at hi
    cases b with
    | false =>
      obtain rfl := Option.some_inj.mp hi
      exact ⟨hchanges, hglobal⟩
    | true =>
      obtain ⟨hchanges', hglobal'⟩ := hglobal.makeDefaultCipher hi
      exact ⟨hchanges.trans hchanges', hglobal'⟩

/-! ### What a clone does -/

/-- A table that `sqlite3mcFreeCodecParameterTable` can be given. -/
def HoldsClone (m : TableMemory) (t : ℕ) : Prop :=
  ∃ a rows last, m.HoldsPacked t a rows last ∧ last.params = none

theorem Keeps.holdsPacked (hk : m.Keeps m' t) (h : m.HoldsPacked t a rows last) :
    m'.HoldsPacked t a rows last := by
  refine ⟨hk.tables.trans h.table, ?_, fun r hr => hk.strings.emptyName (h.named r hr),
    fun r hr x hx => hk.strings.emptyName (h.before r hr x hx),
    fun r hr => hk.strings.emptyName (h.listEnded r hr), hk.strings.emptyName h.ended⟩
  cases rows with
  | nil => exact ⟨_, rfl⟩
  | cons r rows =>
    obtain ⟨rest, hlists⟩ := h.lists
    have huses : m.Uses t a := h.holdsTable.uses List.mem_cons_self rfl
    have hcongr : cellsFrom m'.params ⟨a, 0⟩ = cellsFrom m.params ⟨a, 0⟩ :=
      cellsFrom_congr (hk.params a huses)
    exact ⟨rest, hcongr.trans hlists⟩

/-- A change that is made is one to a parameter that is there. -/
theorem HoldsPacked.of_changeParam {j k : ℕ} {value default : ℤ}
    (h : m.HoldsPacked t a rows last) (hc : m.changeParam t j k value default = some m') :
    ∃ r x, rows[j]? = some r ∧ r.params[k]? = some x := by
  obtain ⟨es, hes, hc⟩ := Option.bind_eq_some_iff.mp hc
  obtain rfl := Option.some_inj.mp (hes.symm.trans h.holdsTable.tableEntries)
  obtain ⟨e, he, hc⟩ := Option.bind_eq_some_iff.mp hc
  obtain ⟨p, hp, hc⟩ := Option.bind_eq_some_iff.mp hc
  obtain ⟨xs, hxs, hc⟩ := Option.bind_eq_some_iff.mp hc
  obtain ⟨x, hx, -⟩ := Option.bind_eq_some_iff.mp hc
  have hlt : j < rows.length := by
    have hlen := (List.getElem?_eq_some_iff.mp he).1
    rwa [length_cloneEntries] at hlen
  obtain ⟨r, hr⟩ : ∃ r, rows[j]? = some r := ⟨_, List.getElem?_eq_getElem hlt⟩
  obtain rfl := Option.some_inj.mp (he.symm.trans (getElem?_cloneEntries hr))
  obtain rfl := Option.some_inj.mp hp
  obtain rfl := Option.some_inj.mp (hxs.symm.trans (h.paramEntries hr))
  exact ⟨r, x, hr, hx⟩

/-- The clone in memory, with its lists in the next new array. -/
theorem clone_memory {params : ArrayMemory CipherParamsEntry} (h : m.HoldsTable t es rows last)
    (hlive : ∀ a cells, m.params.get a = some cells → params.get a = some cells)
    (hlists : cellsFrom params ⟨m.params.next, 0⟩ = (packed rows).map some)
    (hm' : m' = ⟨m.strings, params,
      m.tables.alloc ((cloneEntries m.params.next 0 rows ++ [cloneEnd last]).map some)⟩) :
    m.ChangesOnly m' m.tables.next ∧
      m'.HoldsPacked m.tables.next m.params.next rows (cloneEnd last) := by
  subst hm'
  have hclone : HoldsPacked ⟨m.strings, params, m.tables.alloc
      ((cloneEntries m.params.next 0 rows ++ [cloneEnd last]).map some)⟩ m.tables.next
      m.params.next rows (cloneEnd last) :=
    h.packed (fun _ _ hs => hs) hlists (Heap.get_alloc_self _ _)
  refine ⟨⟨fun _ _ hs => hs, fun u hu => Heap.get_alloc_of_ne hu _,
    fun a cells hcells _ => hlive a cells hcells, fun a ha => Or.inr ?_⟩, hclone⟩
  obtain ⟨e, he, p, hp, rfl⟩ := hclone.holdsTable.uses_iff.mp ha
  obtain ⟨r, -, i, rfl⟩ := mem_cloneEntries he
  obtain rfl := Option.some_inj.mp hp
  exact Heap.get_next m.params

/-- **A call** gives a clone with the same rows, or no table could be allocated and nothing has
happened to the tables. -/
theorem clone_cases {paramsGranted tablesGranted : Bool} {r : Option ℕ}
    (h : m.HoldsTable t es rows last)
    (hc : m.sqlite3mcCloneCodecParameterTable t paramsGranted tablesGranted = some (r, m')) :
    (r = none ∧ tablesGranted = false ∧ ∀ u, m.ChangesOnly m' u) ∨
      (r = some m.tables.next ∧ m.ChangesOnly m' m.tables.next ∧
        m'.HoldsPacked m.tables.next m.params.next rows (cloneEnd last)) := by
  cases tablesGranted with
  | false =>
    obtain ⟨params, heq, hparams⟩ := clone_refused h paramsGranted
    rw [heq] at hc
    obtain ⟨rfl, rfl⟩ := Prod.mk.inj (Option.some_inj.mp hc)
    refine Or.inl ⟨rfl, rfl, fun u => ⟨fun _ _ hs => hs, fun _ _ => rfl, fun a cells hcells _ => ?_,
      fun a ha => Or.inl ((uses_congr rfl rfl).mp ha)⟩⟩
    rw [hparams, hcells]
  | true =>
    by_cases hrows : rows = []
    · subst hrows
      rw [clone_empty h] at hc
      obtain ⟨rfl, rfl⟩ := Prod.mk.inj (Option.some_inj.mp hc)
      have hnone : cellsFrom m.params ⟨m.params.next, 0⟩ = (packed []).map some := by
        rw [cellsFrom, Heap.get_next]
        rfl
      exact Or.inr ⟨rfl, clone_memory h (fun _ _ hcells => hcells) hnone rfl⟩
    · cases paramsGranted with
      | false =>
        rw [clone_unchecked h hrows] at hc
        cases hc
      | true =>
        rw [clone_granted h hrows] at hc
        obtain ⟨rfl, rfl⟩ := Prod.mk.inj (Option.some_inj.mp hc)
        have hlists : cellsFrom (m.params.alloc ((packed rows).map some)) ⟨m.params.next, 0⟩ =
            (packed rows).map some := by
          rw [cellsFrom, Heap.get_alloc_self]
          rfl
        exact Or.inr ⟨rfl, clone_memory h (fun _ _ hcells => Heap.get_alloc hcells _) hlists rfl⟩

end TableMemory

/-! ### The invariant of the steps -/

namespace TableState

open TableMemory Transition

variable {s s' : TableState} {a : TableAction} {mem : TableMemory} {t u w : ℕ}

/-- The tables are there, and each uses arrays of its own. -/
structure WellFormed (s : TableState) : Prop where
  sentinelName : s.mem.emptyName s.globalSentinelName = some true
  globalTable : HoldsGlobal s.mem s.globalTable
  clones : ∀ t ∈ s.clones, HoldsClone s.mem t
  distinct : s.globalTable ∉ s.clones
  separate : ∀ t u, s.Live t → s.Live u → t ≠ u → ∀ a, s.mem.Uses t a → ¬s.mem.Uses u a

theorem WellFormed.holdsTable (h : s.WellFormed) (ht : s.Live t) :
    ∃ es rows last, s.mem.HoldsTable t es rows last := by
  rcases ht with rfl | ht
  · obtain ⟨es, rows, last, -, hholds, -⟩ := h.globalTable
    exact ⟨es, rows, last, hholds⟩
  · obtain ⟨a, rows, last, hholds, -⟩ := h.clones t ht
    exact ⟨_, rows, last, hholds.holdsTable⟩

/-- A change to one table, or to none that is in use, keeps the others. -/
theorem WellFormed.keeps (h : s.WellFormed) (hc : s.mem.ChangesOnly mem w)
    (hw : s.Live w ∨ s.mem.tables.get w = none) (hu : s.Live u) (hne : u ≠ w) :
    s.mem.Keeps mem u := by
  obtain ⟨es, rows, last, hholds⟩ := h.holdsTable hu
  refine hc.keeps hholds hne fun a ha => ?_
  rcases hw with hw | hw
  · exact h.separate u w hu hw hne a ha
  · exact not_uses_of_get_eq_none hw a

/-- **The invariant** after a change to one table. -/
theorem WellFormed.of_changesOnly {clones : List ℕ} (h : s.WellFormed)
    (hc : s.mem.ChangesOnly mem w) (hw : s.Live w ∨ s.mem.tables.get w = none)
    (hclones : ∀ t ∈ clones, t ∈ s.clones ∨ t = w)
    (hglobal : w = s.globalTable → HoldsGlobal mem w) (hclone : w ∈ clones → HoldsClone mem w)
    (hdistinct : s.globalTable ∉ clones) :
    WellFormed ⟨mem, s.globalTable, s.globalSentinelName, clones⟩ := by
  refine ⟨hc.strings.emptyName h.sentinelName, ?_, fun t ht => ?_, hdistinct, ?_⟩
  · by_cases hne : s.globalTable = w
    · exact hne ▸ hglobal hne.symm
    · obtain ⟨es, rows, last, k, hholds, hget⟩ := h.globalTable
      have hkeeps := h.keeps hc hw (Or.inl rfl) hne
      exact ⟨es, rows, last, k, hkeeps.holdsTable hholds, hkeeps.tables.trans hget⟩
  · by_cases hne : t = w
    · exact hne ▸ hclone (hne ▸ ht)
    · have hold : t ∈ s.clones := (hclones t ht).resolve_right hne
      obtain ⟨a, rows, last, hholds, hlast⟩ := h.clones t hold
      have hkeeps := h.keeps hc hw (Or.inr hold) hne
      exact ⟨a, rows, last, hkeeps.holdsPacked hholds, hlast⟩
  · -- a table that is changed uses what it used before, or an array that was not live
    have hlive : ∀ t, Live ⟨mem, s.globalTable, s.globalSentinelName, clones⟩ t → t ≠ w →
        s.Live t := by
      rintro t (rfl | ht) hne
      · exact Or.inl rfl
      · exact Or.inr ((hclones t ht).resolve_right hne)
    have hnot : ∀ u, Live ⟨mem, s.globalTable, s.globalSentinelName, clones⟩ u → u ≠ w →
        ∀ a, mem.Uses w a → ¬mem.Uses u a := by
      intro u hu hne a hwa hua
      have hu' := hlive u hu hne
      obtain ⟨es, rows, last, hholds⟩ := h.holdsTable hu'
      have hua' := ((h.keeps hc hw hu' hne).uses_iff hholds).mp hua
      rcases hc.uses a hwa with hold | hnone
      · rcases hw with hw | hw
        · exact h.separate u w hu' hw hne a hua' hold
        · exact not_uses_of_get_eq_none hw a hold
      · obtain ⟨cells, hcells⟩ := hholds.get_of_uses hua'
        rw [hcells] at hnone
        cases hnone
    intro t u ht hu hne a hta hua
    by_cases htw : t = w
    · subst htw
      exact hnot u hu hne.symm a hta hua
    · by_cases huw : u = w
      · subst huw
        exact hnot t ht hne a hua hta
      · have ht' := hlive t ht htw
        have hu' := hlive u hu huw
        obtain ⟨es, rows, last, hholds⟩ := h.holdsTable ht'
        obtain ⟨es', rows', last', hholds'⟩ := h.holdsTable hu'
        exact h.separate t u ht' hu' hne a (((h.keeps hc hw ht' htw).uses_iff hholds).mp hta)
          (((h.keeps hc hw hu' huw).uses_iff hholds').mp hua)

/-- A table in use has an address that has been given out. -/
theorem WellFormed.ne_next (h : s.WellFormed) (ht : s.Live t) : t ≠ s.mem.tables.next := by
  obtain ⟨es, rows, last, hholds⟩ := h.holdsTable ht
  exact hholds.ne_next

/-- **A step** keeps the invariant, and every table that it is not about. -/
theorem WellFormed.step (h : s.WellFormed) (hstep : Step s a s') :
    s'.WellFormed ∧ s'.globalTable = s.globalTable ∧
      ∀ u, s.Live u → ¬a.About s.globalTable u → s'.Live u ∧ s.mem.Keeps s'.mem u := by
  have hnone : s.mem.tables.get s.mem.tables.next = none := Heap.get_next _
  cases a with
  | clone paramsGranted tablesGranted =>
    obtain ⟨⟨r, mem⟩, hc, rfl⟩ := Option.map_eq_some_iff.mp hstep
    obtain ⟨es, rows, last, k, hholds, -⟩ := h.globalTable
    rcases clone_cases hholds hc with ⟨rfl, -, hchanges⟩ | ⟨rfl, hchanges, hclone⟩
    · refine ⟨h.of_changesOnly (hchanges s.mem.tables.next) (Or.inr hnone) (fun t ht => Or.inl ht)
        (fun heq => absurd heq.symm (h.ne_next (Or.inl rfl)))
        (fun hmem => absurd rfl (h.ne_next (Or.inr hmem))) h.distinct, rfl, fun u hu _ => ?_⟩
      exact ⟨hu, h.keeps (hchanges _) (Or.inr hnone) hu (h.ne_next hu)⟩
    · refine ⟨h.of_changesOnly hchanges (Or.inr hnone) (fun t ht => ?_)
        (fun heq => absurd heq.symm (h.ne_next (Or.inl rfl)))
        (fun _ => ⟨_, rows, _, hclone, rfl⟩) (fun hmem => ?_), rfl, fun u hu _ => ?_⟩
      · exact (List.mem_cons.mp ht).symm
      · rcases List.mem_cons.mp hmem with heq | hmem
        · exact h.ne_next (Or.inl rfl) heq
        · exact h.distinct hmem
      · exact ⟨hu.imp id (List.mem_cons_of_mem _),
          h.keeps hchanges (Or.inr hnone) hu (h.ne_next hu)⟩
  | change t j k value default =>
    rw [Step, next] at hstep
    split_ifs at hstep with ht
    obtain ⟨mem, hc, rfl⟩ := Option.map_eq_some_iff.mp hstep
    obtain ⟨es, rows, last, hholds⟩ := h.holdsTable ht
    obtain ⟨hchanges, -, -⟩ := changeParam_spec hholds hc
    refine ⟨h.of_changesOnly hchanges (Or.inl ht) (fun _ hu => Or.inl hu) ?_ ?_ h.distinct, rfl,
      fun u hu hne => ⟨hu, h.keeps hchanges (Or.inl ht) hu fun heq => hne heq.symm⟩⟩
    · rintro rfl
      exact (h.globalTable.changeParam hc).2
    · intro hmem
      obtain ⟨a, rows, last, hholds, hlast⟩ := h.clones t hmem
      obtain ⟨r, x, hr, hx⟩ := hholds.of_changeParam hc
      obtain ⟨mem', hc', -, hholds'⟩ := hholds.changeParam hr hx
      obtain rfl := Option.some_inj.mp (hc.symm.trans hc')
      exact ⟨a, _, last, hholds', hlast⟩
  | register name params sentinel makeDefault =>
    rw [Step, next] at hstep
    split_ifs at hstep with hnames
    obtain ⟨mem, hi, rfl⟩ := Option.map_eq_some_iff.mp hstep
    obtain ⟨hchanges, hglobal⟩ :=
      h.globalTable.installCipher hnames.1 hnames.2 h.sentinelName hi
    exact ⟨h.of_changesOnly hchanges (Or.inl (Or.inl rfl)) (fun _ hu => Or.inl hu)
      (fun _ => hglobal) (fun hmem => absurd hmem h.distinct) h.distinct, rfl,
      fun u hu hne => ⟨hu, h.keeps hchanges (Or.inl (Or.inl rfl)) hu fun heq => hne heq.symm⟩⟩
  | free t =>
    rw [Step, next] at hstep
    split_ifs at hstep with ht
    obtain ⟨mem, hf, rfl⟩ := Option.map_eq_some_iff.mp hstep
    obtain ⟨b, rows, last, hholds, hlast⟩ := h.clones t ht
    have hchanges := free_spec hholds.holdsTable hlast hf
    have hmem : ∀ u, u ∈ s.clones.filter (· ≠ t) ↔ u ∈ s.clones ∧ u ≠ t := by
      intro u
      rw [List.mem_filter, decide_eq_true_eq]
    refine ⟨h.of_changesOnly hchanges (Or.inl (Or.inr ht)) (fun u hu => Or.inl ((hmem u).mp hu).1)
      (fun heq => absurd (heq ▸ ht) h.distinct) (fun hself => absurd rfl ((hmem t).mp hself).2)
      (fun hself => h.distinct ((hmem _).mp hself).1), rfl, fun u hu hne => ?_⟩
    have hut : u ≠ t := fun heq => hne heq.symm
    refine ⟨?_, h.keeps hchanges (Or.inl (Or.inr ht)) hu hut⟩
    rcases hu with hu | hu
    · exact Or.inl hu
    · exact Or.inr ((hmem u).mpr ⟨hu, hut⟩)

/-- **The frame of a run**: a table that no action is about reads as before. -/
theorem WellFormed.run (h : s.WellFormed) {as : List TableAction} (hrun : Run Step s as s') :
    s'.WellFormed ∧ s'.globalTable = s.globalTable ∧
      ∀ u, s.Live u → (∀ a ∈ as, ¬a.About s.globalTable u) →
        s'.Live u ∧ s'.mem.readTable u = s.mem.readTable u := by
  induction hrun with
  | nil s => exact ⟨h, rfl, fun u hu _ => ⟨hu, rfl⟩⟩
  | @cons s s₁ s' a as hstep _ ih =>
    obtain ⟨h₁, hglobal₁, hkeeps⟩ := h.step hstep
    obtain ⟨h', hglobal', hframe⟩ := ih h₁
    refine ⟨h', hglobal'.trans hglobal₁, fun u hu has => ?_⟩
    obtain ⟨ha, has⟩ := List.forall_mem_cons.mp has
    obtain ⟨hlive, hkeep⟩ := hkeeps u hu ha
    obtain ⟨hlive', hread⟩ := hframe u hlive (by rw [hglobal₁]; exact has)
    obtain ⟨es, rows, last, hholds⟩ := h.holdsTable hu
    exact ⟨hlive', hread.trans (hkeep.readTable hholds)⟩

/-- **A change in a clone**: the connection finds the one parameter changed. -/
theorem WellFormed.readTable_change {j k : ℕ} {value default : ℤ} (h : s.WellFormed)
    (ht : t ∈ s.clones) (hstep : Step s (.change t j k value default) s') :
    s'.mem.readTable t = (s.mem.readTable t).map fun table => table.modify j fun c =>
      { c with params := c.params.modify k fun p =>
        { p with value := value, default := default } } := by
  obtain ⟨a, rows, last, hholds, -⟩ := h.clones t ht
  have hlive : s.Live t := Or.inr ht
  rw [Step, next, if_pos hlive] at hstep
  obtain ⟨mem, hc, rfl⟩ := Option.map_eq_some_iff.mp hstep
  obtain ⟨r, x, hr, hx⟩ := hholds.of_changeParam hc
  obtain ⟨mem', hc', hread⟩ := hholds.readTable_changeParam hr hx
  obtain rfl := Option.some_inj.mp (hc.symm.trans hc')
  exact hread

/-- **The clone in the arrays of the registry**: what is in memory is what the lists say. -/
theorem WellFormed.readTable_clone {tables : CipherTables} {paramsGranted tablesGranted : Bool}
    (h : s.WellFormed) (hread : s.mem.readTable s.globalTable =
      some (untilSentinel tables.globalCodecParameterTable))
    (hc : s.mem.sqlite3mcCloneCodecParameterTable s.globalTable paramsGranted tablesGranted =
      some (some t, mem)) :
    mem.readTable t = some tables.sqlite3mcCloneCodecParameterTable := by
  obtain ⟨es, rows, last, k, hholds, -⟩ := h.globalTable
  rcases clone_cases hholds hc with ⟨hnone, -, -⟩ | ⟨hsome, hchanges, hclone⟩
  · cases hnone
  · obtain rfl := Option.some_inj.mp hsome
    rw [readTable_eq hchanges.strings hholds hclone.holdsTable, hread]
    rfl

/-! ### Registries -/

/-- A registry with no connection yet. -/
structure IsRegistry (s : TableState) : Prop where
  sentinelName : s.mem.emptyName s.globalSentinelName = some true
  globalTable : HoldsGlobal s.mem s.globalTable
  clones : s.clones = []

theorem IsRegistry.wellFormed (h : s.IsRegistry) : s.WellFormed := by
  have hlive : ∀ t, s.Live t → t = s.globalTable := by
    rintro t (ht | ht)
    · exact ht
    · rw [h.clones] at ht
      exact (List.not_mem_nil ht).elim
  refine ⟨h.sentinelName, h.globalTable, fun t ht => ?_, ?_, fun t u ht hu hne => ?_⟩
  · rw [h.clones] at ht
    exact (List.not_mem_nil ht).elim
  · rw [h.clones]
    exact List.not_mem_nil
  · exact absurd ((hlive t ht).trans (hlive u hu).symm) hne

/-- The strings of `commonParams` and of the sentinels. -/
def initialStrings : Heap String :=
  ((((Heap.empty.alloc "").alloc "global").alloc "cipher").alloc "hmac_check").alloc "mc_legacy_wal"

/-- The tables behind `sqlite3mcInitCipherTables`. -/
def initialTables : TableState where
  mem :=
    { strings := initialStrings
      params := Heap.empty.alloc
        ([⟨2, 0, 0, 1, codecCountMax⟩, ⟨3, 1, 1, 0, 1⟩, ⟨4, 0, 0, 0, 1⟩, ⟨0, 0, 0, 0, 0⟩].map some)
      tables := Heap.empty.alloc
        (some ⟨1, 0, some ⟨0, 0⟩⟩ :: List.replicate (codecCountMax + 1) (some ⟨0, 0, none⟩)) }
  globalTable := 0
  globalSentinelName := 0
  clones := []

theorem initialTables_isRegistry : initialTables.IsRegistry := by
  refine ⟨by decide, ?_, rfl⟩
  have hrows : List.Forall₂ initialTables.mem.HoldsRow [⟨1, 0, some ⟨0, 0⟩⟩] [⟨1, 0,
      [⟨2, 0, 0, 1, codecCountMax⟩, ⟨3, 1, 1, 0, 1⟩, ⟨4, 0, 0, 0, 1⟩], ⟨0, 0, 0, 0, 0⟩⟩] := by
    refine List.Forall₂.cons ⟨rfl, rfl, ⟨⟨0, 0⟩, [], rfl, by decide⟩, ?_, by decide⟩
      List.Forall₂.nil
    decide
  exact ⟨_, _, ⟨0, 0, none⟩, codecCountMax, ⟨⟨_, rfl⟩, by decide, hrows, by decide⟩, rfl⟩

/-- In memory is what the arrays of the registry hold. -/
theorem readTable_initialTables : initialTables.mem.readTable initialTables.globalTable =
    some (untilSentinel sqlite3mcInitCipherTables.globalCodecParameterTable) := by
  decide

/-! ### Exact and isolated clones -/

/-- In the memory `mem` behind the call, the table at `t` is an exact and isolated clone of the
global table, whose rows are `rows`. -/
structure ExactClone (s : TableState) (t : ℕ) (mem : TableMemory) (rows : List TableRow) :
    Prop where
  /-- The same names, ids and entries, and the same entry at the end of each list. -/
  sameRows : mem.tableRows t = some rows
  sameTable : mem.readTable t = s.mem.readTable s.globalTable
  /-- The lists are in one array, each behind the one in front of it. -/
  packed : ∃ last, mem.HoldsPacked t s.mem.params.next rows last
  /-- The arrays of the clone are new, and nothing else has been written to. -/
  newTable : s.mem.tables.get t = none
  newParams : ∀ a, mem.Uses t a → s.mem.params.get a = none
  strings : mem.strings = s.mem.strings
  oldTables : ∀ u cells, s.mem.tables.get u = some cells → mem.tables.get u = some cells
  oldParams : ∀ a cells, s.mem.params.get a = some cells → mem.params.get a = some cells
  /-- The new arrays are filled. -/
  tableFilled : ∃ es : List CodecParameterEntry, mem.tables.get t = some (es.map some) ∧
    es.length = rows.length + 1
  paramsFilled : ∀ a cells, s.mem.params.get a = none → mem.params.get a = some cells →
    ∃ xs : List CipherParamsEntry, cells = xs.map some ∧
      xs.length = (rows.map fun r => r.params.length + 1).sum
  /-- Whatever happens later, a table is changed only by what is about it. -/
  isolated : ∀ (s' : TableState) (as : List TableAction),
    Run Step { s with mem := mem, clones := t :: s.clones } as s' →
      ∀ u, u = t ∨ s.Live u → (∀ a ∈ as, ¬a.About s.globalTable u) →
        s'.mem.readTable u = mem.readTable u

/-- The call gives an exact and isolated clone, or, without memory for the second array, nothing,
and then it leaves no array behind. -/
def ClonesExactly (s : TableState) (paramsGranted tablesGranted : Bool) : Prop :=
  match s.mem.sqlite3mcCloneCodecParameterTable s.globalTable paramsGranted tablesGranted with
  | none => False
  | some (none, mem) => tablesGranted = false ∧ mem.strings = s.mem.strings ∧
      (∀ t, mem.tables.get t = s.mem.tables.get t) ∧ ∀ a, mem.params.get a = s.mem.params.get a
  | some (some t, mem) =>
    ∃ rows, s.mem.tableRows s.globalTable = some rows ∧ ExactClone s t mem rows

/-- **The clone of a call** is exact and isolated. -/
theorem WellFormed.exactClone {es : List CodecParameterEntry} {rows : List TableRow}
    {last : CodecParameterEntry} {params : ArrayMemory CipherParamsEntry}
    {paramsGranted tablesGranted : Bool} (h : s.WellFormed)
    (hholds : s.mem.HoldsTable s.globalTable es rows last)
    (hmem : mem = ⟨s.mem.strings, params, s.mem.tables.alloc
      ((cloneEntries s.mem.params.next 0 rows ++ [cloneEnd last]).map some)⟩)
    (hc : s.mem.sqlite3mcCloneCodecParameterTable s.globalTable paramsGranted tablesGranted =
      some (some s.mem.tables.next, mem))
    (hlive : ∀ a cells, s.mem.params.get a = some cells → params.get a = some cells)
    (hlists : ArrayMemory.cellsFrom params ⟨s.mem.params.next, 0⟩ = (packed rows).map some)
    (hnew : ∀ a cells, s.mem.params.get a = none → params.get a = some cells →
      cells = (packed rows).map some) :
    ExactClone s s.mem.tables.next mem rows := by
  obtain ⟨hchanges, hclone⟩ := clone_memory hholds hlive hlists hmem
  have hlen : (packed rows).length = (rows.map fun r => r.params.length + 1).sum := by
    rw [packed, List.length_flatMap]
    exact congrArg List.sum (List.map_congr_left fun r _ => r.length_all)
  have hnone : s.mem.tables.get s.mem.tables.next = none := Heap.get_next _
  refine ⟨tableRows_eq_some_iff.mpr ⟨_, _, hclone.holdsTable⟩,
    readTable_eq hchanges.strings hholds hclone.holdsTable, ⟨_, hclone⟩,
    hnone, fun a ha => ?_, by rw [hmem], fun u cells hcells => ?_, fun a cells hcells => ?_,
    ⟨cloneEntries s.mem.params.next 0 rows ++ [cloneEnd last], ?_, ?_⟩,
    fun a cells ha hcells => ⟨packed rows, ?_, hlen⟩, fun s' as hrun u hu has => ?_⟩
  · exact (hchanges.uses a ha).resolve_left (not_uses_of_get_eq_none hnone a)
  · rw [hmem]
    exact Heap.get_alloc hcells _
  · rw [hmem]
    exact hlive a cells hcells
  · rw [hmem]
    exact Heap.get_alloc_self _ _
  · rw [List.length_append, length_cloneEntries, List.length_singleton]
  · rw [hmem] at hcells
    exact hnew a cells ha hcells
  · have hstep : Step s (.clone paramsGranted tablesGranted)
        { s with mem := mem, clones := s.mem.tables.next :: s.clones } := by
      rw [Step, next, hc]
      rfl
    obtain ⟨h', -, -⟩ := h.step hstep
    obtain ⟨-, -, hframe⟩ := h'.run hrun
    refine (hframe u ?_ has).2
    rcases hu with rfl | hu | hu
    · exact Or.inr List.mem_cons_self
    · exact Or.inl hu
    · exact Or.inr (List.mem_cons_of_mem _ hu)

theorem readTable_eq_nil_iff {es : List CodecParameterEntry} {rows : List TableRow}
    {last : CodecParameterEntry} (h : mem.HoldsTable t es rows last) :
    mem.readTable t = some [] ↔ rows = [] := by
  rw [readTable, tableRows_eq_some_iff.mpr ⟨es, last, h⟩, Option.map_some, Option.some_inj,
    List.map_eq_nil_iff]

/-- **When a clone is exact and isolated**: unless the array of the tables is granted and the array
of the parameters, which is not checked, is not. -/
theorem clonesExactly_iff {s₀ : TableState} {as : List TableAction} (h₀ : s₀.IsRegistry)
    (hrun : Run Step s₀ as s) (paramsGranted tablesGranted : Bool) :
    s.ClonesExactly paramsGranted tablesGranted ↔
      (tablesGranted = true →
        paramsGranted = true ∨ s.mem.readTable s.globalTable = some []) := by
  obtain ⟨h, -, -⟩ := h₀.wellFormed.run hrun
  obtain ⟨es, rows, last, k, hholds, -⟩ := h.globalTable
  have hrows : s.mem.tableRows s.globalTable = some rows :=
    tableRows_eq_some_iff.mpr ⟨es, last, hholds⟩
  rw [readTable_eq_nil_iff hholds]
  cases tablesGranted with
  | false =>
    obtain ⟨params, heq, hparams⟩ := clone_refused hholds paramsGranted
    rw [ClonesExactly, heq]
    exact iff_of_true ⟨rfl, rfl, fun _ => rfl, hparams⟩ (fun hfalse => absurd hfalse (by decide))
  | true =>
    by_cases hnil : rows = []
    · subst hnil
      have heq := clone_empty hholds paramsGranted
      have hnone : ArrayMemory.cellsFrom s.mem.params ⟨s.mem.params.next, 0⟩ =
          (packed []).map some := by
        rw [ArrayMemory.cellsFrom, Heap.get_next]
        rfl
      have hexact := h.exactClone hholds rfl heq (fun _ _ hcells => hcells) hnone
        (fun a cells ha hcells => by rw [ha] at hcells; cases hcells)
      rw [ClonesExactly, heq]
      exact iff_of_true ⟨[], hrows, hexact⟩ (fun _ => Or.inr rfl)
    · cases paramsGranted with
      | false =>
        rw [ClonesExactly, clone_unchecked hholds hnil]
        refine iff_of_false (fun hfalse => hfalse) (fun himp => ?_)
        rcases himp rfl with hfalse | hrows
        · cases hfalse
        · exact hnil hrows
      | true =>
        have heq := clone_granted hholds hnil
        have hlists : ArrayMemory.cellsFrom (s.mem.params.alloc ((packed rows).map some))
            ⟨s.mem.params.next, 0⟩ = (packed rows).map some := by
          rw [ArrayMemory.cellsFrom, Heap.get_alloc_self]
          rfl
        have hexact := h.exactClone hholds rfl heq (fun _ _ hcells => Heap.get_alloc hcells _)
          hlists (fun a cells ha hcells => ?_)
        · rw [ClonesExactly, heq]
          exact iff_of_true ⟨rows, hrows, hexact⟩ (fun _ => Or.inl rfl)
        · by_cases hne : a = s.mem.params.next
          · rw [hne, Heap.get_alloc_self] at hcells
            exact (Option.some_inj.mp hcells).symm
          · rw [Heap.get_alloc_of_ne hne, ha] at hcells
            cases hcells

/-- With a cipher registered and a connection open, another connection gets its clone. -/
theorem clonesExactly_registered :
    ∃ s, Run Step initialTables [.register "mine" [⟨"rounds", 7, 7, 1, 9⟩] ⟨"", 0, 0, 0, 0⟩ true,
      .clone true true] s ∧ s.ClonesExactly true true := by
  have hsome : ([.register "mine" [⟨"rounds", 7, 7, 1, 9⟩] ⟨"", 0, 0, 0, 0⟩ true,
      .clone true true].foldlM next initialTables).isSome = true := by decide
  obtain ⟨s, hs⟩ := Option.isSome_iff_exists.mp hsome
  have hrun := Run.of_foldlM hs
  exact ⟨s, hrun, (clonesExactly_iff initialTables_isRegistry hrun true true).mpr
    fun _ => Or.inl rfl⟩

/-- Without memory for the array of the parameters alone, they are written to the null pointer. -/
theorem not_clonesExactly_initialTables :
    initialTables.IsRegistry ∧ ¬initialTables.ClonesExactly false true := by
  have hnone : initialTables.mem.sqlite3mcCloneCodecParameterTable initialTables.globalTable false
      true = none := rfl
  refine ⟨initialTables_isRegistry, ?_⟩
  rw [ClonesExactly, hnone]
  exact not_false

end TableState

end MultipleCiphers
