import MultipleCiphers.Config.Settings
import MultipleCiphers.Lib.ArrayMemory
import MultipleCiphers.Lib.Transition

/-!
# The clone of the parameter table

A connection gets its own copy of the global parameter table. The table is an array of entries, each
with a pointer to a list of parameters, and array and lists are ended by an entry with an empty
name. A first pass counts tables and parameters, then two arrays are allocated, and a second pass
packs all the lists, each with the entry that ends it, into the first array, while the second array
gets the entries with pointers into the first.

Here the arrays are in memory (`ArrayMemory`), and a pointer is followed where the source follows
it. To read what is not there, or to write behind the end of an array or through the null pointer,
is `none`. Names are pointers to strings; the clone shares them with the global table, and nothing
writes to a string before the tables are torn down, which happens when no connection is left.

The numbers of entries have no bound here. The registry has at most `17` tables of at most `63`
parameters, so that the sizes the source computes fit an `int`.

## Main definitions

* `TableMemory.sqlite3mcCloneCodecParameterTable`, `TableMemory.readTable`.
* `TableMemory.HoldsTable`, `TableMemory.HoldsPacked` — a table in memory, and one that is packed.

## Main results

* `TableMemory.clone_granted` — the memory after the call, as one equation.
* `TableMemory.clone_unchecked`, `TableMemory.clone_refused` — the call without the first array, and
  without the second.
* `TableMemory.HoldsPacked.readTable_changeParam` — what a change in a clone does to it.
-/

namespace MultipleCiphers

open ArrayMemory

/-- A `struct CipherParams` in memory. -/
structure CipherParamsEntry where
  name : ℕ
  value : ℤ
  default : ℤ
  minValue : ℤ
  maxValue : ℤ
  deriving DecidableEq

/-- A `struct CodecParameter` in memory. -/
structure CodecParameterEntry where
  name : ℕ
  id : ℕ
  params : Option ArrayPtr
  deriving DecidableEq

/-- The strings, the arrays of parameters and the arrays of tables. -/
structure TableMemory where
  strings : Heap String
  params : ArrayMemory CipherParamsEntry
  tables : ArrayMemory CodecParameterEntry

/-- What an entry of a table stands for: its list of parameters is followed. -/
structure TableRow where
  name : ℕ
  id : ℕ
  params : List CipherParamsEntry
  sentinel : CipherParamsEntry
  deriving DecidableEq

/-- The list with the entry that ends it. -/
def TableRow.all (r : TableRow) : List CipherParamsEntry := r.params ++ [r.sentinel]

@[simp] theorem TableRow.length_all (r : TableRow) : r.all.length = r.params.length + 1 := by
  rw [TableRow.all, List.length_append, List.length_singleton]

/-- The entry of a table for the row, with its list at `p`. -/
def TableRow.entryAt (r : TableRow) (p : ArrayPtr) : CodecParameterEntry := ⟨r.name, r.id, some p⟩

namespace TableMemory

variable (m : TableMemory)

/-! ### Reading a table -/

/-- `name[0] == 0`. -/
def emptyName (name : ℕ) : Option Bool := (m.strings.get name).map (· == "")

/-- The parameters at `p`. -/
def paramEntries (p : ArrayPtr) : Option (List CipherParamsEntry) :=
  untilEnd (fun x => m.emptyName x.name) (cellsFrom m.params p)

/-- The entries of the table at `t`. -/
def tableEntries (t : ℕ) : Option (List CodecParameterEntry) :=
  untilEnd (fun e => m.emptyName e.name) (cellsFrom m.tables ⟨t, 0⟩)

/-- An entry with its list. -/
def readRow (e : CodecParameterEntry) : Option TableRow :=
  e.params.bind fun p => (m.paramEntries p).bind fun xs =>
    (m.params.read (p.add xs.length)).map fun z => ⟨e.name, e.id, xs, z⟩

/-- The table at `t` with its lists. -/
def tableRows (t : ℕ) : Option (List TableRow) := (m.tableEntries t).bind (·.mapM m.readRow)

/-- The string at `name`, which the loop to the end of a list has looked at. -/
def stringAt (name : ℕ) : String := (m.strings.get name).getD ""

/-- The parameter that an entry holds. -/
def readParam (x : CipherParamsEntry) : CipherParams :=
  ⟨m.stringAt x.name, x.value, x.default, x.minValue, x.maxValue⟩

/-- The table at `t`, with the names in place of the pointers to them. -/
def readTable (t : ℕ) : Option (List CodecParameter) :=
  (m.tableRows t).map fun rows => rows.map fun r =>
    ⟨m.stringAt r.name, r.id, r.params.map m.readParam⟩

/-! ### The C functions -/

/-- `for (k = 0; params[k].m_name[0] != 0; ++k);` -/
def countParams (p : ArrayPtr) : Option ℕ :=
  countUntilEnd (fun x => m.emptyName x.name) (cellsFrom m.params p)

/-- The first pass of `sqlite3mcCloneCodecParameterTable`: the numbers of tables and of
parameters. -/
def countTables : List (Option CodecParameterEntry) → Option (ℕ × ℕ)
  | some e :: rest =>
    (m.emptyName e.name).bind fun empty =>
      if empty then some (0, 0)
      else e.params.bind fun params => (m.countParams params).bind fun k =>
        (countTables rest).map fun n => (n.1 + 1, n.2 + k)
  | _ => none

/-- The second pass, from table `j` on. `cloneCipherParams` may be the null pointer. -/
def cloneTables (globalTable cloneCodecParams : ℕ) (cloneCipherParams : Option ℕ)
    (m : TableMemory) (j offset : ℕ) : ℕ → Option TableMemory
  | 0 => some m
  | left + 1 =>
    (m.tables.read ⟨globalTable, j⟩).bind fun entry => entry.params.bind fun params =>
      (m.tables.write ⟨cloneCodecParams, j⟩
          ⟨entry.name, entry.id, cloneCipherParams.map fun a => ⟨a, offset⟩⟩).bind fun tables =>
        (m.countParams params).bind fun n => cloneCipherParams.bind fun a =>
          (m.params.copy params ⟨a, offset⟩ (n + 1)).bind fun copied =>
            cloneTables globalTable cloneCodecParams cloneCipherParams
              ⟨m.strings, copied, tables⟩ (j + 1) (offset + (n + 1)) left

/-- `sqlite3mcCloneCodecParameterTable`, with what the two allocations are granted. -/
def sqlite3mcCloneCodecParameterTable (globalTable : ℕ) (paramsGranted tablesGranted : Bool) :
    Option (Option ℕ × TableMemory) :=
  (m.countTables (cellsFrom m.tables ⟨globalTable, 0⟩)).bind fun (nTables, nParams) =>
    let (cloneCipherParams, params) := m.params.malloc (nParams + nTables) paramsGranted
    let (cloneCodecParams, tables) := m.tables.malloc (nTables + 1) tablesGranted
    match cloneCodecParams with
    | some clone =>
      (cloneTables globalTable clone cloneCipherParams ⟨m.strings, params, tables⟩ 0 0 nTables).bind
        fun m => (m.tables.read ⟨globalTable, nTables⟩).bind fun last =>
          (m.tables.write ⟨clone, nTables⟩ ⟨last.name, last.id, none⟩).map fun tables =>
            (some clone, ⟨m.strings, m.params, tables⟩)
    | none => some (none, ⟨m.strings, (cloneCipherParams.map params.free).getD params, tables⟩)

/-- `sqlite3mcFreeCodecParameterTable`. An array is freed by the pointer to its first entry. -/
def sqlite3mcFreeCodecParameterTable (t : ℕ) : Option TableMemory :=
  (m.tables.read ⟨t, 0⟩).bind fun first =>
    match first.params with
    | none => some ⟨m.strings, m.params, m.tables.free t⟩
    | some p =>
      if p.index = 0 then some ⟨m.strings, m.params.free p.array, m.tables.free t⟩ else none

/-- `m_value` and `m_default` of parameter `k` in list `j` of a table are written. -/
def changeParam (t j k : ℕ) (value default : ℤ) : Option TableMemory :=
  (m.tableEntries t).bind fun entries => entries[j]?.bind fun entry => entry.params.bind fun p =>
    (m.paramEntries p).bind fun xs => xs[k]?.bind fun x =>
      (m.params.write (p.add k) { x with value := value, default := default }).map fun params =>
        ⟨m.strings, params, m.tables⟩

/-! ### What a table is in memory -/

/-- The entry `e` and its list stand for the row `r`. -/
structure HoldsRow (e : CodecParameterEntry) (r : TableRow) : Prop where
  name : r.name = e.name
  id : r.id = e.id
  list : ∃ p rest, e.params = some p ∧ cellsFrom m.params p = r.all.map some ++ rest
  before : ∀ x ∈ r.params, m.emptyName x.name = some false
  ended : m.emptyName r.sentinel.name = some true

/-- The entries of the table at `t` are `es`, ended by `last`, and stand for `rows`. -/
structure HoldsTable (t : ℕ) (es : List CodecParameterEntry) (rows : List TableRow)
    (last : CodecParameterEntry) : Prop where
  cells : ∃ rest, cellsFrom m.tables ⟨t, 0⟩ = es.map some ++ some last :: rest
  named : ∀ e ∈ es, m.emptyName e.name = some false
  rows : List.Forall₂ m.HoldsRow es rows
  ended : m.emptyName last.name = some true

variable {m} {t : ℕ} {e last : CodecParameterEntry} {es : List CodecParameterEntry} {r : TableRow}
  {rows : List TableRow}

theorem HoldsRow.paramEntries (h : m.HoldsRow e r) {p : ArrayPtr} (hp : e.params = some p) :
    m.paramEntries p = some r.params := by
  obtain ⟨q, rest, hq, hcells⟩ := h.list
  obtain rfl := Option.some_inj.mp (hq.symm.trans hp)
  refine untilEnd_eq_some_iff.mpr ⟨r.sentinel, rest, ?_, h.before, h.ended⟩
  rw [hcells, TableRow.all, List.map_append, List.append_assoc]
  rfl

theorem holdsRow_of_paramEntries {p : ArrayPtr} {xs : List CipherParamsEntry}
    (hp : e.params = some p) (hxs : m.paramEntries p = some xs) :
    ∃ z, m.params.read (p.add xs.length) = some z ∧ m.HoldsRow e ⟨e.name, e.id, xs, z⟩ := by
  obtain ⟨z, rest, hcells, hbefore, hended⟩ := untilEnd_eq_some_iff.mp hxs
  refine ⟨z, ?_, rfl, rfl, ⟨p, rest, hp, ?_⟩, hbefore, hended⟩
  · have hlen : xs.length = (xs.map some).length := (List.length_map some).symm
    rw [read_eq, cellsFrom_add, hcells, hlen, List.drop_left]
    rfl
  · rw [hcells, TableRow.all, List.map_append, List.append_assoc]
    rfl

/-- **A row that can be read** is there. -/
theorem readRow_eq_some_iff : m.readRow e = some r ↔ m.HoldsRow e r := by
  constructor
  · intro h
    obtain ⟨p, hp, h⟩ := Option.bind_eq_some_iff.mp h
    obtain ⟨xs, hxs, h⟩ := Option.bind_eq_some_iff.mp h
    obtain ⟨z, hz, rfl⟩ := Option.map_eq_some_iff.mp h
    obtain ⟨z', hz', hrow⟩ := holdsRow_of_paramEntries hp hxs
    obtain rfl := Option.some_inj.mp (hz.symm.trans hz')
    exact hrow
  · intro h
    obtain ⟨p, rest, hp, hcells⟩ := h.list
    have hread : m.params.read (p.add r.params.length) = some r.sentinel := by
      have hlen : r.params.length = (r.params.map some).length := (List.length_map some).symm
      rw [read_eq, cellsFrom_add, hcells, TableRow.all, List.map_append, List.append_assoc, hlen,
        List.drop_left]
      rfl
    rw [readRow, hp, Option.bind_some, h.paramEntries hp, Option.bind_some, hread,
      Option.map_some, ← h.name, ← h.id]

theorem HoldsTable.tableEntries (h : m.HoldsTable t es rows last) :
    m.tableEntries t = some es := by
  obtain ⟨rest, hcells⟩ := h.cells
  exact untilEnd_eq_some_iff.mpr ⟨last, rest, hcells, h.named, h.ended⟩

/-- **A table that can be read** is there. -/
theorem tableRows_eq_some_iff :
    m.tableRows t = some rows ↔ ∃ es last, m.HoldsTable t es rows last := by
  constructor
  · intro h
    obtain ⟨es, hes, h⟩ := Option.bind_eq_some_iff.mp h
    obtain ⟨last, rest, hcells, hnamed, hended⟩ := untilEnd_eq_some_iff.mp hes
    exact ⟨es, last, ⟨rest, hcells⟩, hnamed,
      (List.mapM_eq_some_iff.mp h).imp fun e r => readRow_eq_some_iff.mp, hended⟩
  · rintro ⟨es, last, h⟩
    rw [tableRows, h.tableEntries, Option.bind_some]
    exact List.mapM_eq_some_iff.mpr (h.rows.imp fun e r => readRow_eq_some_iff.mpr)

/-! ### Memories that agree -/

variable {m' : TableMemory}

variable (m m') in
/-- The strings of `m` are in `m'` too. -/
def KeepsStrings : Prop := ∀ a s, m.strings.get a = some s → m'.strings.get a = some s

theorem KeepsStrings.emptyName (h : KeepsStrings m m') {a : ℕ} {b : Bool}
    (ha : m.emptyName a = some b) : m'.emptyName a = some b := by
  obtain ⟨s, hs, rfl⟩ := Option.map_eq_some_iff.mp ha
  rw [TableMemory.emptyName, h a s hs]
  rfl

theorem HoldsRow.congr (h : m.HoldsRow e r) (hstrings : KeepsStrings m m')
    (hparams : ∀ p, e.params = some p → m'.params.get p.array = m.params.get p.array) :
    m'.HoldsRow e r := by
  obtain ⟨p, rest, hp, hcells⟩ := h.list
  refine ⟨h.name, h.id, ⟨p, rest, hp, ?_⟩, fun x hx => hstrings.emptyName (h.before x hx),
    hstrings.emptyName h.ended⟩
  rw [cellsFrom_congr (hparams p hp), hcells]

/-- **The frame of a table**: what it is made of is not changed. -/
theorem HoldsTable.congr (h : m.HoldsTable t es rows last) (hstrings : KeepsStrings m m')
    (htables : m'.tables.get t = m.tables.get t)
    (hparams : ∀ e ∈ es, ∀ p, e.params = some p → m'.params.get p.array = m.params.get p.array) :
    m'.HoldsTable t es rows last := by
  obtain ⟨rest, hcells⟩ := h.cells
  have hcongr : cellsFrom m'.tables ⟨t, 0⟩ = cellsFrom m.tables ⟨t, 0⟩ := cellsFrom_congr htables
  exact ⟨⟨rest, hcongr.trans hcells⟩, fun e he => hstrings.emptyName (h.named e he),
    h.rows.imp_of_mem fun e he r hr => hr.congr hstrings (hparams e he),
    hstrings.emptyName h.ended⟩

/-! ### The first pass -/

theorem HoldsRow.countParams (h : m.HoldsRow e r) {p : ArrayPtr} (hp : e.params = some p) :
    m.countParams p = some r.params.length := by
  have hread := h.paramEntries hp
  rw [TableMemory.countParams, countUntilEnd_eq]
  rw [TableMemory.paramEntries] at hread
  rw [hread, Option.map_some]

/-- **The first pass** counts the tables and the parameters. -/
theorem countTables_eq {rest : List (Option CodecParameterEntry)}
    (hrows : List.Forall₂ m.HoldsRow es rows) (hnamed : ∀ e ∈ es, m.emptyName e.name = some false)
    (hended : m.emptyName last.name = some true) :
    m.countTables (es.map some ++ some last :: rest) =
      some (rows.length, (rows.map fun r => r.params.length).sum) := by
  induction hrows with
  | nil =>
    rw [List.map_nil, List.nil_append, countTables, hended]
    rfl
  | @cons e r es rows he _ ih =>
    obtain ⟨hname, hnamed⟩ := List.forall_mem_cons.mp hnamed
    obtain ⟨p, -, hp, -⟩ := he.list
    rw [List.map_cons, List.cons_append, countTables, hname, Option.bind_some,
      if_neg Bool.false_ne_true, hp, Option.bind_some, he.countParams hp, Option.bind_some,
      ih hnamed, Option.map_some, List.length_cons, List.map_cons, List.sum_cons, Nat.add_comm
        r.params.length]

/-! ### The second pass -/

/-- All lists, each with the entry that ends it. -/
def packed (rows : List TableRow) : List CipherParamsEntry := rows.flatMap TableRow.all

/-- The entries of a clone. The list of the first is at `offset` in the array `a`, and the others
follow. -/
def cloneEntries (a : ℕ) : ℕ → List TableRow → List CodecParameterEntry
  | _, [] => []
  | offset, r :: rows =>
    r.entryAt ⟨a, offset⟩ :: cloneEntries a (offset + r.all.length) rows

@[simp] theorem packed_cons (r : TableRow) (rows : List TableRow) :
    packed (r :: rows) = r.all ++ packed rows := rfl

@[simp] theorem length_cloneEntries (a offset : ℕ) (rows : List TableRow) :
    (cloneEntries a offset rows).length = rows.length := by
  induction rows generalizing offset with
  | nil => rfl
  | cons r rows ih => rw [cloneEntries, List.length_cons, ih, List.length_cons]

/-- The first pass counts what the second one packs. -/
theorem length_packed (rows : List TableRow) :
    (packed rows).length = (rows.map fun r => r.params.length).sum + rows.length := by
  induction rows with
  | nil => rfl
  | cons r rows ih =>
    rw [packed_cons, List.length_append, TableRow.length_all, ih, List.map_cons, List.sum_cons,
      List.length_cons]
    omega

/-- **The second pass** fills both arrays from the left. -/
theorem cloneTables_eq {g c a k n : ℕ} {ds : List CodecParameterEntry}
    {xs : List CipherParamsEntry} {rest : List (Option CodecParameterEntry)}
    (hrows : List.Forall₂ m.HoldsRow es rows)
    (hsrc : ∀ e ∈ es, ∀ p, e.params = some p → p.array ≠ a) (hgc : g ≠ c)
    (hg : cellsFrom m.tables ⟨g, ds.length⟩ = es.map some ++ rest)
    (hc : m.tables.get c = some (ds.map some ++ List.replicate (rows.length + k) none))
    (ha : m.params.get a = some (xs.map some ++ List.replicate ((packed rows).length + n) none)) :
    cloneTables g c (some a) m ds.length xs.length rows.length =
      some ⟨m.strings, m.params.set a ((xs ++ packed rows).map some ++ List.replicate n none),
        m.tables.set c
          ((ds ++ cloneEntries a xs.length rows).map some ++ List.replicate k none)⟩ := by
  induction rows generalizing es m ds xs with
  | nil =>
    rw [List.length_nil, Nat.zero_add] at hc
    have ha' : m.params.get a = some ((xs ++ packed []).map some ++ List.replicate n none) := by
      rw [ha, packed, List.flatMap_nil, List.append_nil, List.length_nil, Nat.zero_add]
    rw [cloneEntries, List.append_nil, List.length_nil, cloneTables, Heap.set_get hc,
      Heap.set_get ha']
  | cons r rows ih =>
    obtain ⟨e, es, he, hrest, rfl⟩ := List.forall₂_cons_right_iff.mp hrows
    obtain ⟨hsrc', hsrc⟩ := List.forall_mem_cons.mp hsrc
    obtain ⟨p, prest, hp, hcells⟩ := he.list
    have hread : m.tables.read ⟨g, ds.length⟩ = some e := by
      rw [read_eq, hg]
      rfl
    have hc' : m.tables.get c =
        some (ds.map some ++ List.replicate (rows.length + k + 1) none) := by
      rw [hc, List.length_cons, Nat.add_right_comm]
    have ha' : m.params.get a = some (xs.map some ++
        List.replicate (r.all.length + ((packed rows).length + n)) none) := by
      rw [ha, packed_cons, List.length_append, Nat.add_assoc]
    have hwrite := write_next hc' (r.entryAt ⟨a, xs.length⟩)
    have hcopy := copy_next hcells (hsrc' p hp) ha'
    -- the memory behind this row, with one entry and one list more
    obtain ⟨m', hm'⟩ : ∃ m' : TableMemory, m' = ⟨m.strings,
        m.params.set a ((xs ++ r.all).map some ++ List.replicate ((packed rows).length + n) none),
        m.tables.set c ((ds ++ [r.entryAt ⟨a, xs.length⟩]).map some ++
          List.replicate (rows.length + k) none)⟩ := ⟨_, rfl⟩
    have hrows' : List.Forall₂ m'.HoldsRow es rows := by
      subst hm'
      refine hrest.imp_of_mem fun e he r hr => hr.congr (fun _ _ hs => hs) fun p hp => ?_
      exact Heap.get_set_of_ne (hsrc e he p hp) _
    have hg' : cellsFrom m'.tables ⟨g, (ds ++ [r.entryAt ⟨a, xs.length⟩]).length⟩ =
        es.map some ++ rest := by
      have hadd : (⟨g, (ds ++ [r.entryAt ⟨a, xs.length⟩]).length⟩ : ArrayPtr) =
          ArrayPtr.add ⟨g, ds.length⟩ 1 := by
        rw [List.length_append]
        rfl
      have hgc' : ArrayPtr.array ⟨g, ds.length⟩ ≠ c := hgc
      subst hm'
      rw [hadd, cellsFrom_add, cellsFrom_congr (Heap.get_set_of_ne hgc' _), hg]
      rfl
    have hstep := ih hrows' hsrc hg' (by rw [hm']; exact Heap.get_set_self hc' _)
      (by rw [hm']; exact Heap.get_set_self ha' _)
    rw [List.length_append, List.length_append, List.length_singleton] at hstep
    have hentry : (⟨e.name, e.id, (some a).map fun a => ⟨a, xs.length⟩⟩ : CodecParameterEntry) =
        r.entryAt ⟨a, xs.length⟩ := by
      rw [TableRow.entryAt, he.name, he.id]
      rfl
    rw [List.length_cons, cloneTables, hread, Option.bind_some, hp, Option.bind_some, hentry,
      hwrite, Option.bind_some, he.countParams hp, Option.bind_some, Option.bind_some,
      ← TableRow.length_all, hcopy, Option.bind_some, ← hm', hstep, hm']
    simp only [Heap.set_set, List.append_assoc, packed_cons, cloneEntries, List.singleton_append]

/-! ### The whole call -/

/-- The entry that ends a clone. -/
def cloneEnd (last : CodecParameterEntry) : CodecParameterEntry := ⟨last.name, last.id, none⟩

theorem HoldsTable.countTables (h : m.HoldsTable t es rows last) :
    m.countTables (cellsFrom m.tables ⟨t, 0⟩) =
      some (rows.length, (rows.map fun r => r.params.length).sum) := by
  obtain ⟨rest, hcells⟩ := h.cells
  rw [hcells]
  exact countTables_eq h.rows h.named h.ended

/-- The table is not at the address that the next table gets. -/
theorem HoldsTable.ne_next (h : m.HoldsTable t es rows last) : t ≠ m.tables.next := by
  obtain ⟨rest, hcells⟩ := h.cells
  have hsome : (m.tables.get t).isSome := isSome_of_cellsFrom (p := ⟨t, 0⟩) (by
    rw [hcells]
    exact List.append_ne_nil_of_right_ne_nil _ (List.cons_ne_nil _ _))
  obtain ⟨cells, hget⟩ := Option.isSome_iff_exists.mp hsome
  exact Heap.ne_next hget

/-- A list is in a live array. -/
theorem HoldsRow.isSome (h : m.HoldsRow e r) {p : ArrayPtr} (hp : e.params = some p) :
    (m.params.get p.array).isSome := by
  obtain ⟨q, rest, hq, hcells⟩ := h.list
  obtain rfl := Option.some_inj.mp (hq.symm.trans hp)
  refine isSome_of_cellsFrom ?_
  rw [hcells, TableRow.all, List.map_append]
  simp

theorem HoldsTable.params_isSome (h : m.HoldsTable t es rows last) (he : e ∈ es) {p : ArrayPtr}
    (hp : e.params = some p) : (m.params.get p.array).isSome := by
  obtain ⟨r, -, hr⟩ := h.rows.exists_of_mem he
  exact hr.isSome hp

theorem HoldsTable.params_ne_next (h : m.HoldsTable t es rows last) (he : e ∈ es) {p : ArrayPtr}
    (hp : e.params = some p) : p.array ≠ m.params.next := by
  obtain ⟨cells, hget⟩ := Option.isSome_iff_exists.mp (h.params_isSome he hp)
  exact Heap.ne_next hget

/-- The end of the table is read and copied behind the last entry of the clone. -/
theorem HoldsTable.read_end (h : m.HoldsTable t es rows last) {tables : ArrayMemory _}
    (htables : tables.get t = m.tables.get t) :
    ArrayMemory.read tables ⟨t, rows.length⟩ = some last := by
  obtain ⟨rest, hcells⟩ := h.cells
  have hadd : (⟨t, rows.length⟩ : ArrayPtr) = ArrayPtr.add ⟨t, 0⟩ rows.length := by
    rw [ArrayPtr.add, Nat.zero_add]
  have hlen : rows.length = (es.map some).length := by
    rw [List.length_map, h.rows.length_eq]
  have hcongr : cellsFrom tables ⟨t, 0⟩ = cellsFrom m.tables ⟨t, 0⟩ := cellsFrom_congr htables
  rw [read_eq, hadd, cellsFrom_add, hcongr, hcells, hlen, List.drop_left]
  rfl

/-- What the first pass counts is what the first array has to hold. -/
theorem count_eq (rows : List TableRow) :
    (rows.map fun r => r.params.length).sum + rows.length = (packed rows).length :=
  (length_packed rows).symm

theorem malloc_granted {α : Type} {n : ℕ} (mem : ArrayMemory α) (hn : n ≠ 0) :
    mem.malloc n true = (some mem.next, mem.alloc (List.replicate n none)) :=
  if_neg (by simp [hn])

theorem malloc_refused {α : Type} (mem : ArrayMemory α) (n : ℕ) :
    mem.malloc n false = (none, mem) := if_pos (Or.inr rfl)

/-- **The memory after the call**, when both arrays are granted. -/
theorem clone_granted (h : m.HoldsTable t es rows last) (hrows : rows ≠ []) :
    m.sqlite3mcCloneCodecParameterTable t true true = some (some m.tables.next,
      ⟨m.strings, m.params.alloc ((packed rows).map some),
        m.tables.alloc ((cloneEntries m.params.next 0 rows ++ [cloneEnd last]).map some)⟩) := by
  have hpos : (packed rows).length ≠ 0 := by
    have hlen : rows.length ≠ 0 := fun hzero => hrows (List.length_eq_zero_iff.mp hzero)
    rw [length_packed]
    omega
  -- the memory with the two new arrays
  obtain ⟨m₁, hm₁⟩ : ∃ m₁ : TableMemory, m₁ = ⟨m.strings,
      m.params.alloc (List.replicate (packed rows).length none),
      m.tables.alloc (List.replicate (rows.length + 1) none)⟩ := ⟨_, rfl⟩
  have h₁ : m₁.HoldsTable t es rows last := by
    subst hm₁
    exact h.congr (fun _ _ hs => hs) (Heap.get_alloc_of_ne h.ne_next _) fun e he p hp =>
      Heap.get_alloc_of_ne (h.params_ne_next he hp) _
  obtain ⟨rest, hcells⟩ := h₁.cells
  have hg : cellsFrom m₁.tables ⟨t, ([] : List CodecParameterEntry).length⟩ =
      es.map some ++ some last :: rest := hcells
  have hc : m₁.tables.get m.tables.next = some (([] : List CodecParameterEntry).map some ++
      List.replicate (rows.length + 1) none) := by
    rw [hm₁]
    exact Heap.get_alloc_self _ _
  have ha : m₁.params.get m.params.next = some (([] : List CipherParamsEntry).map some ++
      List.replicate ((packed rows).length + 0) none) := by
    rw [hm₁]
    exact Heap.get_alloc_self _ _
  have hfill : cloneTables t m.tables.next (some m.params.next) m₁ 0 0 rows.length =
      some ⟨m.strings, m.params.alloc ((packed rows).map some),
        m.tables.alloc ((cloneEntries m.params.next 0 rows).map some ++
          List.replicate 1 none)⟩ := by
    have hpass := cloneTables_eq h₁.rows (fun e he p hp => h.params_ne_next he hp) h.ne_next hg
      hc ha
    rw [hm₁, Heap.set_alloc, Heap.set_alloc, List.replicate_zero, List.append_nil,
      List.nil_append, List.nil_append] at hpass
    rw [hm₁]
    exact hpass
  have hread : ArrayMemory.read (m.tables.alloc ((cloneEntries m.params.next 0 rows).map some ++
      List.replicate 1 none)) ⟨t, rows.length⟩ = some last :=
    h.read_end (Heap.get_alloc_of_ne h.ne_next _)
  have hwrite := write_next (n := 0) (Heap.get_alloc_self m.tables
    ((cloneEntries m.params.next 0 rows).map some ++ List.replicate 1 none)) (cloneEnd last)
  rw [length_cloneEntries, Heap.set_alloc, List.replicate_zero, List.append_nil] at hwrite
  rw [sqlite3mcCloneCodecParameterTable, h.countTables, Option.bind_some]
  dsimp only
  rw [count_eq, malloc_granted _ hpos, malloc_granted _ (Nat.succ_ne_zero _)]
  dsimp only
  rw [← hm₁, hfill, Option.bind_some]
  dsimp only
  rw [hread, Option.bind_some, ← cloneEnd, hwrite, Option.map_some]

/-- Without tables there is nothing to write to the first array, which is not allocated. -/
theorem clone_empty (h : m.HoldsTable t es [] last) (paramsGranted : Bool) :
    m.sqlite3mcCloneCodecParameterTable t paramsGranted true =
      some (some m.tables.next, ⟨m.strings, m.params, m.tables.alloc [some (cloneEnd last)]⟩) := by
  have hzero : m.params.malloc (packed []).length paramsGranted = (none, m.params) :=
    if_pos (Or.inl rfl)
  have hread : ArrayMemory.read (m.tables.alloc (List.replicate 1 none)) ⟨t, 0⟩ = some last :=
    h.read_end (Heap.get_alloc_of_ne h.ne_next _)
  have hfresh : (m.tables.alloc (List.replicate 1 none)).get m.tables.next =
      some (([] : List CodecParameterEntry).map some ++ List.replicate (0 + 1) none) :=
    Heap.get_alloc_self _ _
  have hwrite := write_next hfresh (cloneEnd last)
  rw [Heap.set_alloc] at hwrite
  rw [sqlite3mcCloneCodecParameterTable, h.countTables, Option.bind_some]
  dsimp only
  rw [count_eq, hzero, malloc_granted _ (Nat.succ_ne_zero _)]
  dsimp only
  rw [List.length_nil, cloneTables, Option.bind_some]
  dsimp only
  rw [hread, Option.bind_some, ← cloneEnd]
  exact congrArg (Option.map _) hwrite

/-- **The null pointer is not checked**: a list is copied to it. -/
theorem clone_unchecked (h : m.HoldsTable t es rows last) (hrows : rows ≠ []) :
    m.sqlite3mcCloneCodecParameterTable t false true = none := by
  obtain ⟨r, rows, rfl⟩ := List.exists_cons_of_ne_nil hrows
  rw [sqlite3mcCloneCodecParameterTable, h.countTables, Option.bind_some]
  dsimp only
  rw [malloc_refused, malloc_granted _ (Nat.succ_ne_zero _)]
  dsimp only
  rw [List.length_cons, cloneTables]
  simp only [Option.bind_none, Option.bind_fun_none]

/-- Without the second array there is no clone, and the first array is freed. -/
theorem clone_refused (h : m.HoldsTable t es rows last) (paramsGranted : Bool) :
    ∃ params, m.sqlite3mcCloneCodecParameterTable t paramsGranted false =
      some (none, ⟨m.strings, params, m.tables⟩) ∧ ∀ a, params.get a = m.params.get a := by
  rw [sqlite3mcCloneCodecParameterTable, h.countTables, Option.bind_some]
  dsimp only
  rw [malloc_refused]
  refine ⟨_, rfl, fun a => ?_⟩
  rw [malloc]
  split_ifs
  · rfl
  · exact Heap.get_free_alloc _ _ _

/-! ### Reading the clone -/

variable (m) in
/-- The table at `t` has its lists packed into the array `a`, as a clone has them. -/
structure HoldsPacked (t a : ℕ) (rows : List TableRow) (last : CodecParameterEntry) : Prop where
  table : m.tables.get t = some ((cloneEntries a 0 rows ++ [last]).map some)
  lists : ∃ rest, cellsFrom m.params ⟨a, 0⟩ = (packed rows).map some ++ rest
  named : ∀ r ∈ rows, m.emptyName r.name = some false
  before : ∀ r ∈ rows, ∀ x ∈ r.params, m.emptyName x.name = some false
  listEnded : ∀ r ∈ rows, m.emptyName r.sentinel.name = some true
  ended : m.emptyName last.name = some true

/-- The lists of a clone, from `offset` in its array on. -/
theorem cloneEntries_holdsRow {a offset : ℕ} {rest : List (Option CipherParamsEntry)}
    (ha : cellsFrom m.params ⟨a, offset⟩ = (packed rows).map some ++ rest)
    (hbefore : ∀ r ∈ rows, ∀ x ∈ r.params, m.emptyName x.name = some false)
    (hended : ∀ r ∈ rows, m.emptyName r.sentinel.name = some true) :
    List.Forall₂ m.HoldsRow (cloneEntries a offset rows) rows := by
  induction rows generalizing offset with
  | nil => exact List.Forall₂.nil
  | cons r rows ih =>
    obtain ⟨hr, hbefore⟩ := List.forall_mem_cons.mp hbefore
    obtain ⟨hz, hended⟩ := List.forall_mem_cons.mp hended
    rw [packed_cons, List.map_append, List.append_assoc] at ha
    refine List.Forall₂.cons ⟨rfl, rfl, ⟨⟨a, offset⟩, _, rfl, ha⟩, hr, hz⟩ (ih ?_ hbefore hended)
    have hlen : r.all.length = (r.all.map some).length := (List.length_map some).symm
    have hadd := cellsFrom_add m.params ⟨a, offset⟩ r.all.length
    rw [ha, hlen, List.drop_left, ← hlen] at hadd
    exact hadd

theorem mem_cloneEntries {a offset : ℕ} (he : e ∈ cloneEntries a offset rows) :
    ∃ r ∈ rows, ∃ i, e = r.entryAt ⟨a, i⟩ := by
  induction rows generalizing offset with
  | nil => exact (List.not_mem_nil he).elim
  | cons r rows ih =>
    rcases List.mem_cons.mp he with rfl | he
    · exact ⟨r, List.mem_cons_self, offset, rfl⟩
    · obtain ⟨r', hr', i, hi⟩ := ih he
      exact ⟨r', List.mem_cons_of_mem _ hr', i, hi⟩

/-- **A packed table** can be read. -/
theorem HoldsPacked.holdsTable {a : ℕ} (h : m.HoldsPacked t a rows last) :
    m.HoldsTable t (cloneEntries a 0 rows) rows last := by
  obtain ⟨rest, hlists⟩ := h.lists
  refine ⟨⟨[], ?_⟩, fun e he => ?_, cloneEntries_holdsRow hlists h.before h.listEnded, h.ended⟩
  · rw [cellsFrom, h.table, Option.getD_some, List.drop_zero, List.map_append]
    rfl
  · obtain ⟨r, hr, i, rfl⟩ := mem_cloneEntries he
    exact h.named r hr

/-- **A clone is a packed table** with the same rows. -/
theorem HoldsTable.packed {a c : ℕ} (h : m.HoldsTable t es rows last)
    (hstrings : KeepsStrings m m')
    (ha : cellsFrom m'.params ⟨a, 0⟩ = (packed rows).map some)
    (hc : m'.tables.get c = some ((cloneEntries a 0 rows ++ [cloneEnd last]).map some)) :
    m'.HoldsPacked c a rows (cloneEnd last) := by
  have hrow : ∀ r ∈ rows, ∃ e ∈ es, m.HoldsRow e r := by
    intro r hr
    have hflip : List.Forall₂ (fun r e => m.HoldsRow e r) rows es := h.rows.flip
    exact hflip.exists_of_mem hr
  refine ⟨hc, ⟨[], by rw [ha, List.append_nil]⟩, fun r hr => ?_, fun r hr x hx => ?_,
    fun r hr => ?_,
    hstrings.emptyName h.ended⟩
  · obtain ⟨e, he, hrow⟩ := hrow r hr
    rw [hrow.name]
    exact hstrings.emptyName (h.named e he)
  · obtain ⟨e, -, hrow⟩ := hrow r hr
    exact hstrings.emptyName (hrow.before x hx)
  · obtain ⟨e, -, hrow⟩ := hrow r hr
    exact hstrings.emptyName hrow.ended

/-! ### A change in a clone -/

/-- The row with a new value and default of parameter `k`. -/
def setRow (k : ℕ) (value default : ℤ) (r : TableRow) : TableRow :=
  { r with params := r.params.modify k fun x => { x with value := value, default := default } }

theorem packed_eq {j : ℕ} (hj : rows[j]? = some r) :
    packed rows = packed (rows.take j) ++ (r.all ++ packed (rows.drop (j + 1))) := by
  obtain ⟨hlt, hget⟩ := List.getElem?_eq_some_iff.mp hj
  conv_lhs => rw [← List.take_append_drop j rows, List.drop_eq_getElem_cons hlt, hget]
  rw [packed, List.flatMap_append, List.flatMap_cons]
  rfl

theorem packed_modify {j : ℕ} {f : TableRow → TableRow} (hj : rows[j]? = some r) :
    packed (rows.modify j f) =
      packed (rows.take j) ++ ((f r).all ++ packed (rows.drop (j + 1))) := by
  obtain ⟨hlt, hget⟩ := List.getElem?_eq_some_iff.mp hj
  rw [List.modify_eq_take_cons_drop hlt, hget, packed, List.flatMap_append, List.flatMap_cons]
  rfl

/-- The list of row `j` begins behind the lists in front of it. -/
theorem getElem?_cloneEntries {a offset j : ℕ} (hj : rows[j]? = some r) :
    (cloneEntries a offset rows)[j]? =
      some (r.entryAt ⟨a, offset + (packed (rows.take j)).length⟩) := by
  induction rows generalizing offset j with
  | nil => cases hj
  | cons r' rows ih =>
    cases j with
    | zero =>
      obtain rfl := Option.some_inj.mp hj
      rfl
    | succ j =>
      rw [cloneEntries, List.getElem?_cons_succ, ih hj, List.take_succ_cons, packed_cons,
        List.length_append, Nat.add_assoc]

/-- What is in the lists does not matter for where they are. -/
theorem cloneEntries_setRow (a offset j k : ℕ) (value default : ℤ) (rows : List TableRow) :
    cloneEntries a offset (rows.modify j (setRow k value default)) =
      cloneEntries a offset rows := by
  induction rows generalizing offset j with
  | nil => cases j <;> rfl
  | cons r rows ih =>
    cases j with
    | zero =>
      have hlen : (setRow k value default r).all.length = r.all.length := by
        rw [TableRow.length_all, TableRow.length_all, setRow, List.length_modify]
      rw [List.modify_zero_cons, cloneEntries, hlen]
      rfl
    | succ j =>
      rw [List.modify_succ_cons, cloneEntries, ih]
      rfl

theorem setRow_all {k : ℕ} {x : CipherParamsEntry} {value default : ℤ}
    (hk : r.params[k]? = some x) :
    (setRow k value default r).all =
      r.all.set k { x with value := value, default := default } := by
  obtain ⟨hlt, hget⟩ := List.getElem?_eq_some_iff.mp hk
  rw [TableRow.all, TableRow.all, List.set_append_left _ _ hlt, setRow,
    List.modify_eq_take_cons_drop hlt, List.set_eq_take_cons_drop _ hlt, hget]

/-- The array around the list of row `j`. -/
theorem map_packed {j : ℕ} (hj : rows[j]? = some r) :
    (packed rows).map some = (packed (rows.take j)).map some ++
      (r.params.map some ++ some r.sentinel :: (packed (rows.drop (j + 1))).map some) := by
  rw [packed_eq hj, TableRow.all, List.append_assoc, List.map_append, List.map_append]
  rfl

/-- The parameter `k` of row `j` is at its place in the array. -/
theorem packed_set {j k : ℕ} {x : CipherParamsEntry} {value default : ℤ} (hj : rows[j]? = some r)
    (hk : r.params[k]? = some x) :
    (packed rows).set ((packed (rows.take j)).length + k)
        { x with value := value, default := default } =
      packed (rows.modify j (setRow k value default)) := by
  have hlt : k < r.all.length := by
    have hklt : k < r.params.length := (List.getElem?_eq_some_iff.mp hk).1
    rw [TableRow.length_all]
    omega
  rw [packed_modify hj, packed_eq hj, setRow_all hk, List.set_append_right _ _ (by omega),
    Nat.add_sub_cancel_left, List.set_append_left _ _ hlt]

theorem HoldsPacked.paramEntries {a j : ℕ} (h : m.HoldsPacked t a rows last)
    (hj : rows[j]? = some r) :
    m.paramEntries (ArrayPtr.add ⟨a, 0⟩ (packed (rows.take j)).length) = some r.params := by
  have hr : r ∈ rows := List.mem_of_getElem? hj
  obtain ⟨rest, hlists⟩ := h.lists
  refine untilEnd_eq_some_iff.mpr ⟨r.sentinel, (packed (rows.drop (j + 1))).map some ++ rest, ?_,
    h.before r hr, h.listEnded r hr⟩
  have hlen : (packed (rows.take j)).length = ((packed (rows.take j)).map some).length :=
    (List.length_map some).symm
  rw [cellsFrom_add, hlists, map_packed hj, hlen, List.append_assoc, List.drop_left,
    List.append_assoc]
  rfl

/-- The names are what they were. -/
theorem setRow_named {k : ℕ} {value default : ℤ} {p : ℕ → Prop} (hr : ∀ x ∈ r.params, p x.name) :
    ∀ x ∈ (setRow k value default r).params, p x.name := by
  intro x hx
  obtain ⟨y, hy, rfl | rfl⟩ := List.exists_of_mem_modify hx
  · exact hr x hy
  · exact hr y hy

/-- **A change in a packed table** is one to the parameter it is meant for. -/
theorem HoldsPacked.changeParam {a j k : ℕ} {x : CipherParamsEntry} {value default : ℤ}
    (h : m.HoldsPacked t a rows last) (hj : rows[j]? = some r) (hk : r.params[k]? = some x) :
    ∃ m', m.changeParam t j k value default = some m' ∧ m'.strings = m.strings ∧
      m'.HoldsPacked t a (rows.modify j (setRow k value default)) last := by
  have hklt : k < r.params.length := (List.getElem?_eq_some_iff.mp hk).1
  obtain ⟨rest, hlists⟩ := h.lists
  -- the array is there, since the row is in it
  obtain ⟨cells, hcells⟩ : ∃ cells, m.params.get a = some cells := by
    refine Option.isSome_iff_exists.mp (isSome_of_cellsFrom (p := ⟨a, 0⟩) ?_)
    rw [hlists, map_packed hj]
    simp
  have hall : cells = (packed rows).map some ++ rest := by
    rw [cellsFrom, hcells, Option.getD_some, List.drop_zero] at hlists
    exact hlists
  have hlt : (packed (rows.take j)).length + k < (packed rows).length := by
    rw [packed_eq hj, List.length_append, List.length_append, TableRow.length_all]
    omega
  obtain ⟨p, hp⟩ : ∃ p : ArrayPtr, p = ArrayPtr.add ⟨a, 0⟩ (packed (rows.take j)).length :=
    ⟨_, rfl⟩
  have hwrite : m.params.write (p.add k) { x with value := value, default := default } =
      some (m.params.set a
        ((packed (rows.modify j (setRow k value default))).map some ++ rest)) := by
    have hindex : (p.add k).index = (packed (rows.take j)).length + k := by
      rw [hp, ArrayPtr.add, ArrayPtr.add, Nat.zero_add]
    have harray : (p.add k).array = a := by rw [hp]; rfl
    refine write_eq_some_iff.mpr ⟨cells, by rw [harray, hcells], ?_, ?_⟩
    · rw [hindex, hall, List.length_append, List.length_map]
      omega
    · rw [hindex, harray, hall, List.set_append_left _ _ (by rw [List.length_map]; exact hlt),
        ← List.map_set, packed_set hj hk]
  have hchange : m.changeParam t j k value default = some ⟨m.strings,
      m.params.set a ((packed (rows.modify j (setRow k value default))).map some ++ rest),
      m.tables⟩ := by
    have hentry : (cloneEntries a 0 rows)[j]? = some (r.entryAt p) := by
      rw [hp]
      exact getElem?_cloneEntries hj
    have hlist := h.paramEntries hj
    rw [← hp] at hlist
    rw [TableMemory.changeParam, h.holdsTable.tableEntries, Option.bind_some, hentry,
      Option.bind_some, TableRow.entryAt, Option.bind_some, hlist, Option.bind_some, hk,
      Option.bind_some, hwrite, Option.map_some]
  refine ⟨_, hchange, rfl, ?_, ?_, fun r' hr' => ?_, fun r' hr' => ?_, fun r' hr' => ?_, h.ended⟩
  · rw [cloneEntries_setRow]
    exact h.table
  · exact ⟨rest, by rw [cellsFrom, Heap.get_set_self hcells]; rfl⟩
  · obtain ⟨r, hr, rfl | rfl⟩ := List.exists_of_mem_modify hr'
    · exact h.named _ hr
    · exact h.named r hr
  · obtain ⟨r, hr, rfl | rfl⟩ := List.exists_of_mem_modify hr'
    · exact h.before _ hr
    · exact setRow_named (p := fun name => m.emptyName name = some false) (h.before r hr)
  · obtain ⟨r, hr, rfl | rfl⟩ := List.exists_of_mem_modify hr'
    · exact h.listEnded _ hr
    · exact h.listEnded r hr

/-- **What a connection sees of a change**: its table with the one parameter changed. -/
theorem HoldsPacked.readTable_changeParam {a j k : ℕ} {x : CipherParamsEntry}
    {value default : ℤ} (h : m.HoldsPacked t a rows last) (hj : rows[j]? = some r)
    (hk : r.params[k]? = some x) :
    ∃ m', m.changeParam t j k value default = some m' ∧
      m'.readTable t = (m.readTable t).map fun table => table.modify j fun c =>
        { c with params := c.params.modify k fun p =>
          { p with value := value, default := default } } := by
  obtain ⟨m', hchange, hstrings, h'⟩ := h.changeParam hj hk
  refine ⟨m', hchange, ?_⟩
  have hread : m'.readParam = m.readParam := by
    funext y
    rw [readParam, readParam, stringAt, stringAt, hstrings]
  rw [readTable, readTable, tableRows_eq_some_iff.mpr ⟨_, _, h.holdsTable⟩,
    tableRows_eq_some_iff.mpr ⟨_, _, h'.holdsTable⟩, Option.map_some, Option.map_some,
    Option.map_some, Option.some_inj]
  unfold stringAt
  rw [hstrings, hread]
  refine List.map_modify (fun r => ?_) j rows
  have hparams : (setRow k value default r).params.map m.readParam =
      (r.params.map m.readParam).modify k
        fun p => { p with value := value, default := default } := by
    refine List.map_modify (fun x => ?_) k r.params
    rfl
  simp only [hparams]
  rfl

end TableMemory

end MultipleCiphers
