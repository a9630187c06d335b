import MultipleCiphers.Config.Changes
import MultipleCiphers.Ciphers.Builtin

/-!
# Settings stay valid

A parameter has a current value and a default, and bounds for both. For two parameters there is a
check besides: a page size of a legacy format is zero or a power of two that SQLite allows, and
SQLCipher can leave only whole blocks of the header in plaintext. The invariant is that all values
and defaults pass.

Every function of the source checks the bounds. `checkParameterValue` is called by
`sqlite3mc_config_cipher`, and so by the pragmas and the URI. The SQL function with three arguments
is the same update written once more, without the call.

Bounds never change, so the shape of the tables is that of the built-in ciphers for good, and what
is needed about it is evaluated.

## Main results

* `CipherParams.Valid`, `World.Valid` — the invariant.
* `TableValid.apply` — a change that has been checked keeps it.
* `ConfigEvent.Rejects.unchanged` — what is refused changes nothing, without any condition.
* `config_invariant` — both, along every run in which no SQL function with three arguments sets a
  value that fails the check.
-/

namespace MultipleCiphers

open Transition

/-! ### The built-in ciphers -/

/-- `mcAES128Params` and the other built-in parameters, in the order of the registration. -/
def builtinParams : List (List CipherParams) :=
  [ [⟨"legacy", 0, 0, 0, 1⟩, ⟨"legacy_page_size", 0, 0, 0, 65536⟩],
    [⟨"legacy", 0, 0, 0, 1⟩, ⟨"legacy_page_size", 0, 0, 0, 65536⟩,
      ⟨"kdf_iter", 4001, 4001, 1, 0x7fffffff⟩],
    [⟨"legacy", 0, 0, 0, 1⟩, ⟨"legacy_page_size", 4096, 4096, 0, 65536⟩,
      ⟨"kdf_iter", 64007, 64007, 1, 0x7fffffff⟩, ⟨"plaintext_header_size", 0, 0, 0, 100⟩],
    [⟨"legacy", 0, 0, 0, 4⟩, ⟨"legacy_page_size", 4096, 4096, 0, 65536⟩,
      ⟨"kdf_iter", 256000, 256000, 1, 0x7fffffff⟩, ⟨"fast_kdf_iter", 2, 2, 1, 0x7fffffff⟩,
      ⟨"hmac_use", 1, 1, 0, 1⟩, ⟨"hmac_pgno", 1, 1, 0, 2⟩, ⟨"hmac_salt_mask", 0x3a, 0x3a, 0, 0xff⟩,
      ⟨"kdf_algorithm", 2, 2, 0, 2⟩, ⟨"hmac_algorithm", 2, 2, 0, 2⟩,
      ⟨"hmac_algorithm_compat", 1, 1, 0, 1⟩, ⟨"plaintext_header_size", 0, 0, 0, 100⟩],
    [⟨"legacy", 1, 1, 1, 1⟩, ⟨"legacy_page_size", 0, 0, 0, 65536⟩],
    [⟨"kdf_iter", 64007, 64007, 1, 0x7fffffff⟩, ⟨"plaintext_header_size", 0, 0, 0, 100⟩],
    [⟨"tcost", 2, 2, 1, 0x7fffffff⟩, ⟨"mcost", 19456, 19456, 1, 0x7fffffff⟩,
      ⟨"pcost", 1, 1, 1, 0x7fffffff⟩, ⟨"algorithm", 4, 4, 1, 6⟩,
      ⟨"plaintext_header_size", 0, 0, 0, 100⟩] ]

/-- The descriptor of a built-in cipher. Which methods it has plays no part here. -/
def builtinDescriptor (name : String) : DescriptorEntry :=
  ⟨some name, some 1, some 1, some 1, some 1, some 1, some 1, some 1, some 1, some 1, some 1⟩

/-- The built-in ciphers. -/
def builtinCiphers : List RegisteredCipher :=
  (builtinCipherNames.zip builtinParams).map fun c => ⟨c.1, builtinDescriptor c.1, c.2⟩

/-- The tables with the built-in ciphers, of which the one with number `codecType` is
the default. -/
def builtinTables (codecType : ℕ) : CipherTables :=
  layout builtinCiphers (setDefaultCipher codecType commonParams)

/-- The call that registers a built-in cipher. -/
def registerBuiltin (c : RegisteredCipher) : RegisterCall where
  desc := some c.descriptor
  params := some fun n => (c.params.map fun p =>
    ⟨some p.name, p.value, p.default, p.minValue, p.maxValue⟩).getD n ⟨some "", 0, 0, 0, 0⟩
  makeDefault := sqlite3Stricmp c.name "chacha20"
  malloc := fun _ => true

/-- The tables are what the registration of the built-in ciphers makes, with ChaCha20
the default. -/
example :
    (builtinCiphers.foldlM (fun t c =>
      let call := registerBuiltin c
      (t.sqlite3mcRegisterCipher call.desc call.params call.makeDefault call.malloc).bind fun r =>
        if r.1 = .ok then some r.2 else none) sqlite3mcInitCipherTables) =
      some (builtinTables 3) := by
  decide

/-- The names, the numbers and the bounds in the table of a connection. -/
def builtinShape : List (String × ℕ × List (String × ℤ × ℤ)) :=
  (builtinTables 3).sqlite3mcCloneCodecParameterTable.map CodecParameter.shape

/-! ### Valid parameters -/

/-- A page size of a legacy format: none, or a power of two from 512 to 65536. -/
def LegacyPageSize (v : ℤ) : Prop := v = 0 ∨ 512 ≤ v ∧ v ≤ 65536 ∧ ∃ k : ℕ, v = 2 ^ k

/-- The value and the default of a parameter are within the bounds and pass the check. -/
structure CipherParams.Valid (cipherName : String) (p : CipherParams) : Prop where
  value : p.minValue ≤ p.value ∧ p.value ≤ p.maxValue
  default : p.minValue ≤ p.default ∧ p.default ≤ p.maxValue
  pageSize : sqlite3Stricmp p.name "legacy_page_size" = true →
    LegacyPageSize p.value ∧ LegacyPageSize p.default
  header : sqlite3Stricmp p.name "plaintext_header_size" = true →
    sqlite3Stricmp cipherName "sqlcipher" = true → 16 ∣ p.value ∧ 16 ∣ p.default

/-- Every parameter of the registry and of every connection is valid. -/
def World.Valid (w : World) : Prop :=
  (∀ c ∈ untilSentinel w.tables.globalCodecParameterTable, ∀ p ∈ c.params, p.Valid c.name) ∧
    ∀ table ∈ w.conns, ∀ c ∈ table, ∀ p ∈ c.params, p.Valid c.name

/-- A table of the built-in ciphers with valid parameters. -/
structure TableValid (table : List CodecParameter) : Prop where
  shape : table.map CodecParameter.shape = builtinShape
  valid : ∀ c ∈ table, ∀ p ∈ c.params, p.Valid c.name

/-! ### What the check says -/

section Check

variable {name cipherName : String} {v : ℤ}

theorem legacyPageSize_of_check (h : checkParameterValue name v cipherName = true)
    (hname : sqlite3Stricmp name "legacy_page_size" = true) (hv : 0 ≤ v) : LegacyPageSize v := by
  rcases hv.eq_or_lt with rfl | hpos
  · exact Or.inl rfl
  have hok : decide (v ≥ 512 ∧ v ≤ 65536 ∧ (v - 1).toNat &&& v.toNat = 0) = true := by
    by_contra hno
    rw [checkParameterValue] at h
    simp only [hname, hpos, and_self, if_true, hno, Bool.false_eq_true, false_and, if_false] at h
  obtain ⟨hmin, hmax, hand⟩ := of_decide_eq_true hok
  refine Or.inr ⟨hmin, hmax, ?_⟩
  have hsub : (v - 1).toNat = v.toNat - 1 := by omega
  have hne : v.toNat ≠ 0 := by omega
  rw [hsub, Nat.and_comm] at hand
  obtain ⟨k, hk⟩ := (Nat.and_sub_one_eq_zero_iff_isPowerOfTwo hne).mp hand
  refine ⟨k, ?_⟩
  have hcast : v = (v.toNat : ℤ) := by omega
  rw [hcast, hk]
  push_cast
  rfl

theorem dvd_of_check (h : checkParameterValue name v cipherName = true)
    (hname : sqlite3Stricmp name "plaintext_header_size" = true)
    (hcipher : sqlite3Stricmp cipherName "sqlcipher" = true) (hv : 0 ≤ v) : 16 ∣ v := by
  rcases hv.eq_or_lt with rfl | hpos
  · exact dvd_zero 16
  have hother : sqlite3Stricmp name "legacy_page_size" = false := by
    rw [sqlite3Stricmp_congr hname]
    decide
  rw [checkParameterValue] at h
  simp only [hother, hname, hcipher, hpos, Bool.false_eq_true, false_and, if_false,
    and_self, if_true,
    decide_eq_true_eq] at h
  exact Int.dvd_of_emod_eq_zero h

/-- The check lets everything pass for a parameter with another name. -/
theorem check_of_ne (hsize : sqlite3Stricmp name "legacy_page_size" = false)
    (hheader : sqlite3Stricmp name "plaintext_header_size" = false) :
    checkParameterValue name v cipherName = true := by
  rw [checkParameterValue]
  simp only [hsize, hheader, Bool.false_eq_true, false_and, and_false, if_false]

end Check

/-! ### A change keeps the parameters valid -/

section Table

variable {codecType : ℕ} {table : List CodecParameter} {c : Change} {name : String}
  {p : CipherParams}

/-- The bounds of a parameter of a table are among those of the built-in table. -/
theorem TableValid.bounds_mem (h : TableValid table) {j : ℕ} (hp : p ∈ paramsAt table j) :
    p.bounds ∈ (builtinShape[j]?.map fun s => s.2.2).getD [] := by
  rw [← h.shape, ← paramsAt_bounds]
  exact List.mem_map_of_mem hp

/-- No bound is negative. -/
theorem TableValid.minValue_nonneg (h : TableValid table) {j : ℕ} (hp : p ∈ paramsAt table j) :
    0 ≤ p.minValue := by
  have hall : ∀ s ∈ builtinShape, ∀ b ∈ s.2.2, (0 : ℤ) ≤ b.2.1 := by decide
  have hmem := h.bounds_mem hp
  rcases hs : builtinShape[j]? with _ | s
  · rw [hs] at hmem
    cases hmem
  · rw [hs] at hmem
    exact hall s (List.mem_of_getElem? hs) p.bounds hmem

/-- The common parameters. -/
theorem TableValid.common (h : TableValid table) (hp : p ∈ paramsAt table 0) :
    p.bounds = ("cipher", 1, 16) ∨ p.bounds = ("hmac_check", 0, 1) ∨
      p.bounds = ("mc_legacy_wal", 0, 1) := by
  have hmem := h.bounds_mem hp
  have hlist : (builtinShape[0]?.map fun s => s.2.2).getD [] =
      [("cipher", 1, 16), ("hmac_check", 0, 1), ("mc_legacy_wal", 0, 1)] := by
    decide
  rw [hlist] at hmem
  simpa using hmem

/-- The common parameters are none that the check is about. -/
theorem TableValid.common_ne (h : TableValid table) (hp : p ∈ paramsAt table 0) :
    sqlite3Stricmp p.name "legacy_page_size" = false ∧
      sqlite3Stricmp p.name "plaintext_header_size" = false := by
  have hname : p.name = "cipher" ∨ p.name = "hmac_check" ∨ p.name = "mc_legacy_wal" := by
    rcases h.common hp with hb | hb | hb
    · exact Or.inl (congrArg Prod.fst hb)
    · exact Or.inr (Or.inl (congrArg Prod.fst hb))
    · exact Or.inr (Or.inr (congrArg Prod.fst hb))
  rcases hname with hn | hn | hn <;> rw [hn] <;> decide

/-- The value of a change is within the bounds of its parameter. -/
theorem Made.range (h : TableValid table) {ok : ℤ → Prop} {unchecked : Prop}
    (hc : Made (builtinTables codecType) ok unchecked table c)
    (hp : findParameter (paramsAt table c.j) c.paramName = some p) :
    p.minValue ≤ c.value ∧ c.value ≤ p.maxValue := by
  obtain ⟨p', hp', hbounds⟩ := hc.found
  rw [hp] at hp'
  obtain rfl := Option.some_inj.mp hp'
  rcases hbounds with hrange | ⟨h0, hcipher, hmin, hmax⟩
  · exact hrange
  -- a cipher by its name
  obtain ⟨hmem, hname⟩ := mem_of_findParameter hp
  rw [h0] at hmem
  rw [sqlite3Stricmp_congr hcipher] at hname
  have hcount : (builtinTables codecType).descriptorNames.length = 7 := by
    have h3 : (builtinTables 3).descriptorNames.length = 7 := by decide
    exact h3
  rcases h.common hmem with hb | hb | hb
  · obtain ⟨-, hlow, hhigh⟩ : p.name = "cipher" ∧ p.minValue = 1 ∧ p.maxValue = 16 := by
      simpa [CipherParams.bounds] using hb
    omega
  · rw [show p.name = "hmac_check" from congrArg Prod.fst hb] at hname
    exact absurd hname (by decide)
  · rw [show p.name = "mc_legacy_wal" from congrArg Prod.fst hb] at hname
    exact absurd hname (by decide)

/-- A change that is not of a common parameter has been checked under the name of its cipher. -/
theorem Made.check (h : TableValid table) {ok : ℤ → Prop}
    (hc : Made (builtinTables codecType) ok False table c)
    (hp : findParameter (paramsAt table c.j) c.paramName = some p)
    (hne : sqlite3Stricmp p.name "legacy_page_size" = true ∨
      sqlite3Stricmp p.name "plaintext_header_size" = true) :
    ∃ cipherName, findTable table cipherName = some c.j ∧
      checkParameterValue c.paramName c.value cipherName = true := by
  rcases hc.checked with h0 | hfalse | hcheck
  · obtain ⟨hsize, hheader⟩ := h.common_ne (h0 ▸ (mem_of_findParameter hp).1)
    rw [hsize, hheader] at hne
    simp at hne
  · exact hfalse.elim
  · exact hcheck

theorem name_of_findTable {j : ℕ} {cipherName : String} {e : CodecParameter}
    (h : findTable table cipherName = some j) (he : table[j]? = some e) :
    sqlite3Stricmp cipherName e.name = true := by
  obtain ⟨hlt, hname, -⟩ := List.findIdx?_eq_some_iff_getElem.mp h
  rw [List.getElem?_eq_getElem hlt, Option.some_inj] at he
  rwa [he] at hname

theorem mem_modifyAt {f : CipherParams → CipherParams} {j : ℕ} {c : CodecParameter}
    (hc : c ∈ modifyAt table j name f) :
    c ∈ table ∨ ∃ c₀, table[j]? = some c₀ ∧
      c = { c₀ with params := modifyParameter name f c₀.params } := by
  obtain ⟨k, hk⟩ := List.mem_iff_getElem?.mp hc
  rw [modifyAt, List.getElem?_modify] at hk
  obtain ⟨c₀, hc₀, heq⟩ := Option.map_eq_some_iff.mp hk
  by_cases hjk : j = k
  · rw [if_pos hjk] at heq
    exact Or.inr ⟨c₀, hjk ▸ hc₀, heq.symm⟩
  · rw [if_neg hjk] at heq
    exact Or.inl (heq ▸ List.mem_of_getElem? hc₀)

/-- **A change that has been checked keeps the parameters valid.** -/
theorem TableValid.apply (h : TableValid table)
    (hc : Made (builtinTables codecType) (fun _ => True) False table c) :
      TableValid (c.apply table) where
  shape := (shape_modifyAt (f := CipherParams.write c.value c.setDefault) (fun _ => rfl) table c.j
    c.paramName).trans h.shape
  valid := by
    intro e he q hq
    rcases mem_modifyAt he with he | ⟨e₀, he₀, rfl⟩
    · exact h.valid e he q hq
    have hparams : paramsAt table c.j = e₀.params := by rw [paramsAt, he₀]; rfl
    rcases mem_modifyParameter hq with hq | ⟨p, hp, rfl⟩
    · exact h.valid e₀ (List.mem_of_getElem? he₀) q hq
    obtain ⟨hmem, hname⟩ := mem_of_findParameter hp
    have hfind : findParameter (paramsAt table c.j) c.paramName = some p := hparams ▸ hp
    have hold := h.valid e₀ (List.mem_of_getElem? he₀) p hmem
    have hrange := hc.range h hfind
    have hpos : 0 ≤ c.value := (h.minValue_nonneg (hparams ▸ hmem)).trans hrange.1
    have hpage : sqlite3Stricmp p.name "legacy_page_size" = true → LegacyPageSize c.value := by
      intro hsize
      obtain ⟨cipherName, -, hcheck⟩ := hc.check h hfind (Or.inl hsize)
      exact legacyPageSize_of_check hcheck ((sqlite3Stricmp_congr hname _).trans hsize) hpos
    have hheader : sqlite3Stricmp p.name "plaintext_header_size" = true →
        sqlite3Stricmp e₀.name "sqlcipher" = true → 16 ∣ c.value := by
      intro hplain hsql
      obtain ⟨cipherName, hj, hcheck⟩ := hc.check h hfind (Or.inr hplain)
      exact dvd_of_check hcheck ((sqlite3Stricmp_congr hname _).trans hplain)
        ((sqlite3Stricmp_congr (name_of_findTable hj he₀) _).trans hsql) hpos
    -- the default is the new value too, or the old default
    have hdefault : (p.write c.value c.setDefault).default = c.value ∨
        (p.write c.value c.setDefault).default = p.default := by
      rw [CipherParams.write]
      cases c.setDefault
      · exact Or.inr rfl
      · exact Or.inl rfl
    refine ⟨hrange, ?_, fun hsize => ⟨hpage hsize, ?_⟩, fun hplain hsql =>
      ⟨hheader hplain hsql, ?_⟩⟩
    · rcases hdefault with hd | hd <;> rw [hd]
      · exact hrange
      · exact hold.default
    · rcases hdefault with hd | hd <;> rw [hd]
      · exact hpage hsize
      · exact (hold.pageSize hsize).2
    · rcases hdefault with hd | hd <;> rw [hd]
      · exact hheader hplain hsql
      · exact (hold.header hplain hsql).2

/-- Using up a pending value keeps the parameters valid: the default is. -/
theorem TableValid.useParameter (h : TableValid table) (j : ℕ) (paramName : String) :
    TableValid (modifyAt table j paramName fun p => { p with value := p.default }) where
  shape := (shape_modifyAt (f := fun p : CipherParams => { p with value := p.default })
    (fun _ => rfl) table j paramName).trans h.shape
  valid := by
    intro e he q hq
    rcases mem_modifyAt he with he | ⟨e₀, he₀, rfl⟩
    · exact h.valid e he q hq
    rcases mem_modifyParameter hq with hq | ⟨p, hp, rfl⟩
    · exact h.valid e₀ (List.mem_of_getElem? he₀) q hq
    have hold := h.valid e₀ (List.mem_of_getElem? he₀) p (mem_of_findParameter hp).1
    exact ⟨hold.default, hold.default, fun hsize =>
      ⟨(hold.pageSize hsize).2, (hold.pageSize hsize).2⟩,
      fun hplain hsql => ⟨(hold.header hplain hsql).2, (hold.header hplain hsql).2⟩⟩

theorem TableValid.changes (h : TableValid table) {table' : List CodecParameter}
    (hc : Changes (Made (builtinTables codecType) (fun _ => True) False) table table') :
      TableValid table' :=
  hc.invariant TableValid (fun _ _ ht hV => ht.apply hV) h

/-- A parameter is valid if its value and its default pass the check of the source. -/
theorem valid_of_check {cipherName : String}
    (hvalue : p.minValue ≤ p.value ∧ p.value ≤ p.maxValue)
    (hdefault : p.minValue ≤ p.default ∧ p.default ≤ p.maxValue) (hmin : 0 ≤ p.minValue)
    (hcheck : checkParameterValue p.name p.value cipherName = true)
    (hcheck' : checkParameterValue p.name p.default cipherName = true) : p.Valid cipherName where
  value := hvalue
  default := hdefault
  pageSize := fun h => ⟨legacyPageSize_of_check hcheck h (hmin.trans hvalue.1),
    legacyPageSize_of_check hcheck' h (hmin.trans hdefault.1)⟩
  header := fun h hsql => ⟨dvd_of_check hcheck h hsql (hmin.trans hvalue.1),
    dvd_of_check hcheck' h hsql (hmin.trans hdefault.1)⟩

/-- The table a connection begins with: every built-in default passes its own check. -/
theorem tableValid_clone (hcodec : 1 ≤ codecType ∧ codecType ≤ 7) :
    TableValid (builtinTables codecType).sqlite3mcCloneCodecParameterTable := by
  have hmem : codecType ∈ [1, 2, 3, 4, 5, 6, 7] := by
    simp only [List.mem_cons, List.not_mem_nil, or_false]
    omega
  have hvalid : ∀ d ∈ [1, 2, 3, 4, 5, 6, 7],
      ∀ c ∈ (builtinTables d).sqlite3mcCloneCodecParameterTable, ∀ p ∈ c.params,
        (p.minValue ≤ p.value ∧ p.value ≤ p.maxValue) ∧
          (p.minValue ≤ p.default ∧ p.default ≤ p.maxValue) ∧ 0 ≤ p.minValue ∧
            checkParameterValue p.name p.value c.name = true ∧
              checkParameterValue p.name p.default c.name = true := by
    decide
  refine ⟨rfl, fun c hc p hp => ?_⟩
  obtain ⟨hvalue, hdefault, hmin, hcheck, hcheck'⟩ := hvalid codecType hmem c hc p hp
  exact valid_of_check hvalue hdefault hmin hcheck hcheck'

end Table

/-! ### What is refused -/

section Refused

variable {table : List CodecParameter} {cipherName paramName : String} {newValue : ℤ}

/-- The parameter `legacy` of SQLCipher takes every version. -/
theorem legacy_of_shape (hshape : table.map CodecParameter.shape = builtinShape)
    (hcipher : sqlite3Stricmp cipherName "sqlcipher" = true)
    (hparam : sqlite3Stricmp paramName "legacy" = true) {j : ℕ}
    (hj : findTable table cipherName = some j) :
    ∃ p, findParameter (paramsAt table j) paramName = some p ∧ p.minValue = 0 ∧ p.maxValue = 4 := by
  have hindex : (builtinShape.findIdx? fun s => sqlite3Stricmp "sqlcipher" s.1) = some 4 := by
    decide
  rw [findTable_congr hcipher, findTable_shape, hshape, hindex, Option.some_inj] at hj
  subst hj
  have hlist : ∃ rest, (builtinShape[4]?.map fun s => s.2.2).getD [] = ("legacy", 0, 4) :: rest :=
    ⟨_, rfl⟩
  obtain ⟨rest, hrest⟩ := hlist
  have hfind := findParameter_bounds (paramsAt table 4) paramName
  rw [paramsAt_bounds, hshape, hrest, List.find?_cons, hparam] at hfind
  obtain ⟨p, hp, hbounds⟩ := Option.map_eq_some_iff.mp hfind
  obtain ⟨-, hmin, hmax⟩ : p.name = "legacy" ∧ p.minValue = 0 ∧ p.maxValue = 4 := by
    simpa [CipherParams.bounds] using hbounds
  exact ⟨p, hp, hmin, hmax⟩

/-- The check does not refuse a version. -/
theorem check_legacy (hparam : sqlite3Stricmp paramName "legacy" = true) :
    checkParameterValue paramName newValue cipherName = true := by
  refine check_of_ne ?_ ?_ <;> rw [sqlite3Stricmp_congr hparam] <;> decide

/-- `sqlite3mc_config_cipher` returns the new value, or changes nothing: a switch to a version of
SQLCipher is not refused at its end. -/
theorem sqlite3mcConfigCipherTable_rejects (h : TableValid table)
    (hrej : newValue < 0 ∨
      (sqlite3mcConfigCipherTable table cipherName paramName newValue).1 ≠ newValue) :
    (sqlite3mcConfigCipherTable table cipherName paramName newValue).2 = table := by
  have hversion : ∀ setDefault, Changes (Made (builtinTables 3) (fun _ => True) False) table
      (sqlite3mcConfigureSQLCipherVersion table setDefault newValue) := fun setDefault =>
    sqlite3mcConfigureSQLCipherVersion_changes table setDefault newValue
  rw [sqlite3mcConfigCipherTable] at hrej ⊢
  generalize parseParamName paramName = n at hrej ⊢
  split
  · rfl
  rename_i j hj
  rw [hj] at hrej
  dsimp only at hrej ⊢
  split
  · -- the last change is the one that was asked for
    rename_i hswitch
    rw [if_pos hswitch] at hrej
    obtain ⟨hcipher, hparam, hnomin, hnomax, hpos, hle⟩ := hswitch
    have hchanges := hversion n.hasDefaultPrefix
    obtain ⟨p, hp, hmin, hmax⟩ := legacy_of_shape (hchanges.shape.trans h.shape) hcipher hparam
      ((hchanges.findTable cipherName).trans hj)
    have hvalue : (configCipherParam (sqlite3mcConfigureSQLCipherVersion table n.hasDefaultPrefix
        newValue) j n cipherName newValue).1 = newValue := by
      rw [configCipherParam, hp]
      dsimp only
      rw [if_pos ⟨hnomin, hnomax, by omega, by omega, by rw [hmax]; exact hle,
        check_legacy hparam⟩]
    rcases hrej with hneg | hne
    · omega
    · exact absurd hvalue hne
  · rename_i hswitch
    rw [if_neg hswitch] at hrej
    rcases configCipherParam_cases table j n cipherName newValue with heq | ⟨hvalue, hpos, _⟩
    · exact heq
    · rcases hrej with hneg | hne
      · exact absurd hpos (not_le.mpr hneg)
      · exact absurd hvalue hne

variable {tables : CipherTables}

/-- The SQL function returns NULL for a common parameter only if it changes nothing. -/
theorem configParamsCommon_rejects (n : ParamName) (param1 : CipherParams) (arg1 : SqlArg)
    (hrej : (configParamsCommon tables table n param1 arg1).1 = .null ∨
      (configParamsCommon tables table n param1 arg1).1 = .nomem) :
    (configParamsCommon tables table n param1 arg1).2 = table := by
  rw [configParamsCommon] at hrej ⊢
  by_cases hcipher : sqlite3Stricmp n.paramName "cipher" = true
  · rw [if_pos hcipher] at hrej ⊢
    split
    swap
    · rfl
    rename_i htext
    rw [if_pos htext] at hrej
    dsimp only at hrej ⊢
    split
    · rename_i j hj
      rw [hj] at hrej
      simp at hrej
    · rfl
  · rw [if_neg hcipher] at hrej ⊢
    split
    swap
    · rfl
    rename_i hint
    rw [if_pos hint] at hrej
    split
    · rename_i hrange
      rw [if_pos hrange] at hrej
      simp at hrej
    · rfl

/-- The same for a parameter of a cipher. -/
theorem configParamsCipher_rejects (h : TableValid table) {j : ℕ}
    (hj : findTable table cipherName = some j) (arg1 : SqlArg) (arg2 : Option SqlArg)
    (hrej : (configParamsCipher table j cipherName arg1 arg2).1 = .null ∨
      (configParamsCipher table j cipherName arg1 arg2).1 = .nomem) :
    (configParamsCipher table j cipherName arg1 arg2).2 = table := by
  have hversion : ∀ setDefault, Changes (Made (builtinTables 3) (fun _ => True) False) table
      (sqlite3mcConfigureSQLCipherVersion table setDefault ((arg2.map (·.int)).getD 0)) :=
    fun setDefault => sqlite3mcConfigureSQLCipherVersion_changes table setDefault _
  rw [configParamsCipher] at hrej ⊢
  generalize parseParamName arg1.text = n at hrej ⊢
  split
  swap
  · rfl
  rename_i htext
  rw [if_pos htext] at hrej
  dsimp only at hrej ⊢
  by_cases hswitch : sqlite3Stricmp cipherName "sqlcipher" = true ∧
      sqlite3Stricmp n.paramName "legacy" = true ∧
        (!n.hasMinPrefix && !n.hasMaxPrefix &&
          Option.any (fun a => a.type = .integer) arg2) = true ∧
          (arg2.map (·.int)).getD 0 > 0 ∧ (arg2.map (·.int)).getD 0 ≤ sqlcipherVersionMax
  · -- a switch is not refused
    rw [if_pos hswitch] at hrej
    obtain ⟨hcipher, hparam, hset, hpos, hle⟩ := hswitch
    have hchanges := hversion n.hasDefaultPrefix
    obtain ⟨p, hp, hmin, hmax⟩ := legacy_of_shape (hchanges.shape.trans h.shape) hcipher hparam
      ((hchanges.findTable cipherName).trans hj)
    rw [hp] at hrej
    dsimp only at hrej
    have hsome : ¬ arg2 = none := by
      rintro rfl
      simp at hset
    rw [if_neg hsome, if_pos hset,
      if_pos ⟨by omega, by rw [hmax]; exact hle⟩] at hrej
    simp at hrej
  · rw [if_neg hswitch] at hrej ⊢
    split
    · rfl
    rename_i p hp
    rw [hp] at hrej
    dsimp only at hrej
    split
    · rfl
    rename_i hsome
    rw [if_neg hsome] at hrej
    split
    swap
    · rfl
    rename_i hset
    rw [if_pos hset] at hrej
    split
    · rename_i hrange
      rw [if_pos hrange] at hrej
      simp at hrej
    · rfl

/-- **The SQL function returns NULL only if it changes nothing.** -/
theorem sqlite3mcConfigParams_rejects (h : TableValid table) {args : List SqlArg} {granted : Bool}
    {r : SqlReply} {table' : List CodecParameter}
    (hr : sqlite3mcConfigParams tables table args granted = some (r, table'))
    (hrej : r = .null ∨ r = .nomem) : table' = table := by
  match args with
  | [] => cases hr
  | [a₀] =>
    rw [sqlite3mcConfigParams] at hr
    split at hr
    · exact snd_of_some hr
    · obtain ⟨r', _, heq⟩ := Option.map_eq_some_iff.mp hr
      exact snd_of_some (congrArg some heq)
  | a₀ :: a₁ :: rest =>
    rw [sqlite3mcConfigParams] at hr
    split at hr
    · cases hr
    split at hr
    · exact snd_of_some hr
    dsimp only at hr
    split at hr
    · split at hr
      · rw [fst_of_some hr] at hrej
        rw [snd_of_some hr]
        exact configParamsCommon_rejects _ _ _ hrej
      · exact snd_of_some hr
    · split at hr
      · exact snd_of_some hr
      split at hr
      · exact snd_of_some hr
      rename_i j hj
      rw [fst_of_some hr] at hrej
      rw [snd_of_some hr]
      exact configParamsCipher_rejects h hj _ _ hrej

/-- A pragma that sets a flag does not get its value only if it changes nothing. -/
theorem configPragmaFlag_rejects (R : SqliteReaders) (dflt : Bool) (pragmaValue : Option String)
    (hrej : (configPragmaFlag R tables table paramName dflt pragmaValue).1.rc ≠ .ok ∨
      ∃ asked got, (configPragmaFlag R tables table paramName dflt pragmaValue).1.call =
        some (asked, got) ∧ (asked < 0 ∨ got ≠ asked)) :
    (configPragmaFlag R tables table paramName dflt pragmaValue).2 = table := by
  rcases hrej with hrc | ⟨asked, got, hcall, hrej⟩
  · exact absurd rfl hrc
  · obtain ⟨rfl, rfl⟩ := Prod.mk.inj (Option.some_inj.mp hcall)
    exact sqlite3mcConfigCommon_rejects _ _ hrej

theorem configPragmaCipher_rejects {pragmaValue : Option String} {configDefault : Bool}
    {r : PragmaReply} {table' : List CodecParameter}
    (h : configPragmaCipher tables table pragmaValue configDefault = some (r, table'))
    (hrej : r.rc ≠ .ok ∨ ∃ asked got, r.call = some (asked, got) ∧ (asked < 0 ∨ got ≠ asked)) :
    table' = table := by
  rw [configPragmaCipher] at h
  dsimp only at h
  generalize (if configDefault = true then "default:cipher" else "cipher") = name at h
  generalize (pragmaValue.map tables.pragmaCipherId).getD (-1) = cipherId at h
  have hcommon : cipherId < 0 ∨
        (sqlite3mcConfigCommon tables.globalCipherCount table name cipherId).1 ≠ cipherId →
      (sqlite3mcConfigCommon tables.globalCipherCount table name cipherId).2 = table :=
    sqlite3mcConfigCommon_rejects tables.globalCipherCount table
  generalize sqlite3mcConfigCommon tables.globalCipherCount table name cipherId = q at h hcommon
  split at h
  · rename_i hid
    split at h
    · obtain ⟨name', _, heq⟩ := Option.map_eq_some_iff.mp h
      obtain ⟨rfl, rfl⟩ := Prod.mk.inj heq
      rcases hrej with hrc | ⟨asked, got, hcall, hrej⟩
      · exact absurd rfl hrc
      · obtain ⟨rfl, rfl⟩ := Prod.mk.inj (Option.some_inj.mp hcall)
        exact hcommon hrej
    · -- the cipher could not be located
      rename_i hvalue
      rw [snd_of_some h]
      refine hcommon ?_
      rcases hid with hid | hid
      · exact Or.inl (by omega)
      · exact Or.inr (by omega)
  · exact snd_of_some h

theorem configPragmaCipherParam_rejects (h : TableValid table) (R : SqliteReaders)
    (pragmaName : String) (pragmaValue : Option String) (configDefault granted : Bool)
    (hrej : (configPragmaCipherParam R tables table pragmaName pragmaValue configDefault
        granted).1.rc ≠ .ok ∨
      ∃ asked got, (configPragmaCipherParam R tables table pragmaName pragmaValue configDefault
        granted).1.call = some (asked, got) ∧ (asked < 0 ∨ got ≠ asked)) :
    (configPragmaCipherParam R tables table pragmaName pragmaValue configDefault granted).2 =
      table := by
  rw [configPragmaCipherParam] at hrej ⊢
  dsimp only at hrej ⊢
  split
  · rfl
  rename_i entry hentry
  rw [hentry] at hrej
  dsimp only at hrej
  split
  · rfl
  rename_i p hp
  rw [hp] at hrej
  dsimp only at hrej
  split
  · rfl
  rename_i intValue hint
  rw [hint] at hrej
  dsimp only at hrej ⊢
  split
  · rfl
  rename_i hgranted
  rcases hrej with hrc | ⟨asked, got, hcall, hrej⟩
  · exact absurd rfl hrc
  · rw [if_neg hgranted] at hcall
    obtain ⟨rfl, rfl⟩ := Prod.mk.inj (Option.some_inj.mp hcall)
    exact sqlite3mcConfigCipherTable_rejects h hrej

/-- **A pragma that fails or does not get its value changes nothing.** -/
theorem sqlite3mcFileControlPragma_rejects (h : TableValid table) {R : SqliteReaders}
    {pragmaName : String} {pragmaValue : Option String} {configDefault granted : Bool}
    {r : PragmaReply} {table' : List CodecParameter}
    (hr : sqlite3mcFileControlPragma R tables table pragmaName pragmaValue configDefault granted =
      some (r, table'))
    (hrej : r.rc ≠ .ok ∨ ∃ asked got, r.call = some (asked, got) ∧ (asked < 0 ∨ got ≠ asked)) :
    table' = table := by
  rw [sqlite3mcFileControlPragma] at hr
  split at hr
  · exact configPragmaCipher_rejects hr hrej
  split at hr
  · rw [fst_of_some hr] at hrej
    rw [snd_of_some hr]
    exact configPragmaFlag_rejects R true pragmaValue hrej
  split at hr
  · rw [fst_of_some hr] at hrej
    rw [snd_of_some hr]
    exact configPragmaFlag_rejects R false pragmaValue hrej
  split at hr
  · cases hr
  · rw [fst_of_some hr] at hrej
    rw [snd_of_some hr]
    exact configPragmaCipherParam_rejects h R pragmaName pragmaValue configDefault granted hrej

/-- Setting the current cipher once more changes nothing. -/
theorem sqlite3mcConfigCommon_current (tables : CipherTables) (table : List CodecParameter) :
    (sqlite3mcConfigCommon tables.globalCipherCount table "cipher"
      (currentCipher tables table)).2 = table := by
  have hname : parseParamName "cipher" = ⟨false, false, false, "cipher"⟩ := by decide
  have hcases := sqlite3mcConfigCommon_cases tables.globalCipherCount table "cipher"
    (currentCipher tables table)
  rw [hname, currentCipher_eq] at hcases
  rw [currentCipher_eq]
  rcases hcases with heq | ⟨_, _, p, hp, _, _, _, heq⟩
  · exact heq
  · rw [heq]
    refine modifyAt_of_eq hp ?_
    dsimp only at hp
    rw [hp]
    rfl

/-- **A URI that is an error changes nothing.** -/
theorem sqlite3mcConfigureFromUri_rejects (R : SqliteReaders) (table : List CodecParameter)
    (uri : Option UriParams) (configDefault : Bool) (granted : String → Bool)
    (hrej : (sqlite3mcConfigureFromUri R tables table uri configDefault granted).1.1 ≠ .ok) :
    (sqlite3mcConfigureFromUri R tables table uri configDefault granted).2 = table := by
  rcases uri with _ | u
  · rfl
  have hsame : (uriCipher tables table u).2 = table := by
    rw [uriCipher]
    dsimp only
    split
    · rfl
    split
    · exact sqlite3mcConfigCommon_current _ _
    · rfl
  rw [sqlite3mcConfigureFromUri] at hrej ⊢
  split
  · rename_i heq
    rw [heq] at hsame
    exact hsame
  rename_i cipherName t₁ heq
  rw [heq] at hsame hrej
  dsimp only at hsame hrej
  split
  · exact hsame
  · rename_i entry hentry
    rw [hentry] at hrej
    exact absurd rfl hrej

end Refused

/-! ### Along a run -/

/-- The SQL function with three arguments sets no value that `checkParameterValue` refuses. -/
def ConfigEvent.Checked (w : World) : ConfigEvent → Prop
  | .configParams db [arg0, arg1, arg2] _ =>
    ∀ table j p, w.conns[db]? = some table → SqlSets table arg0 arg1 arg2 j p →
      checkParameterValue (parseParamName arg1.text).paramName arg2.int
        (parseParamName arg0.text).paramName = true
  | _ => True

/-- A step of the settings. -/
def ConfigStep (R : SqliteReaders) (w : World) (e : ConfigEvent) (w' : World) : Prop :=
  ∃ reply, w.configStep R e = some (reply, w')

/-- The state before the first connection is opened. -/
def builtinWorld (codecType : ℕ) : World := ⟨builtinTables codecType, []⟩

/-- What a run of settings keeps: the registry, and valid tables. -/
structure WorldInv (codecType : ℕ) (w : World) : Prop where
  tables : w.tables = builtinTables codecType
  conns : ∀ table ∈ w.conns, TableValid table

section Run

variable {codecType : ℕ} {R : SqliteReaders} {w w' : World} {e : ConfigEvent}

theorem WorldInv.setTable (h : WorldInv codecType w) {table' : List CodecParameter}
    (htable : TableValid table') (db : ℕ) : WorldInv codecType (w.setTable db table') where
  tables := h.tables
  conns := by
    intro table ht
    rcases List.mem_or_eq_of_mem_set ht with ht | rfl
    · exact h.conns table ht
    · exact htable

theorem WorldInv.changes (h : WorldInv codecType w) {table table' : List CodecParameter} {db : ℕ}
    (htable : w.conns[db]? = some table)
    (hc : Changes (Made (builtinTables codecType) (fun _ => True) False) table table') :
    WorldInv codecType (w.setTable db table') :=
  h.setTable ((h.conns table (List.mem_of_getElem? htable)).changes hc) db

/-- **A step keeps the invariant**, if the check is not left out. -/
theorem WorldInv.configStep (hcodec : 1 ≤ codecType ∧ codecType ≤ 7) (h : WorldInv codecType w)
    (hchecked : e.Checked w) (hstep : ConfigStep R w e w') : WorldInv codecType w' := by
  obtain ⟨reply, hstep⟩ := hstep
  have htables := h.tables
  cases e with
  | openDb =>
    cases hstep
    refine ⟨h.tables, fun table ht => ?_⟩
    rcases List.mem_append.mp ht with ht | ht
    · exact h.conns table ht
    · rw [List.mem_singleton.mp ht, htables]
      exact tableValid_clone hcodec
  | config db paramName newValue =>
    cases hstep
    rcases w.sqlite3mcConfig_cases db paramName newValue with
      heq | ⟨name, d, table, -, -, htable, -, heq⟩
    · rwa [heq]
    · rw [heq]
      exact h.changes htable (sqlite3mcConfigCommon_changes _ table fun _ _ _ => trivial)
  | configCipher db cipherName paramName newValue =>
    cases hstep
    rcases w.sqlite3mcConfigCipher_cases db cipherName paramName newValue with
      heq | ⟨cipher, name, d, table, -, -, -, htable, -, heq⟩
    · rwa [heq]
    · rw [heq]
      exact h.changes htable (sqlite3mcConfigCipherTable_changes table fun _ _ => trivial)
  | configParams db args granted =>
    obtain ⟨table, htable, hstep⟩ := Option.bind_eq_some_iff.mp hstep
    obtain ⟨⟨r, table'⟩, hr, hstep⟩ := Option.map_eq_some_iff.mp hstep
    cases hstep
    refine h.changes htable ?_
    refine sqlite3mcConfigParams_changes (htables ▸ hr) (fun _ _ _ _ _ _ => trivial)
      (fun _ _ _ _ _ _ _ => trivial) (Or.inr fun a₀ a₁ a₂ j p hargs hsets => ?_)
    rw [hargs] at hchecked
    exact hchecked table j p htable hsets
  | pragma db pragmaName pragmaValue configDefault granted =>
    obtain ⟨table, htable, hstep⟩ := Option.bind_eq_some_iff.mp hstep
    obtain ⟨⟨r, table'⟩, hr, hstep⟩ := Option.map_eq_some_iff.mp hstep
    cases hstep
    refine h.changes htable ?_
    exact sqlite3mcFileControlPragma_changes (htables ▸ hr) (fun _ _ _ => trivial)
      (fun _ _ _ _ => trivial)
  | uri db uri configDefault granted =>
    obtain ⟨table, htable, hstep⟩ := Option.map_eq_some_iff.mp hstep
    cases hstep
    refine h.changes htable ?_
    rw [htables]
    exact sqlite3mcConfigureFromUri_changes R table uri configDefault granted (fun _ => trivial)
      (fun _ _ _ _ => trivial) (fun _ _ _ _ => trivial)
  | useParameter db j paramName =>
    obtain ⟨table, htable, hstep⟩ := Option.map_eq_some_iff.mp hstep
    cases hstep
    exact h.setTable ((h.conns table (List.mem_of_getElem? htable)).useParameter j paramName) db

/-- **What is refused changes nothing**, whether or not the check was made. -/
theorem ConfigEvent.Rejects.unchanged {reply : ConfigReply} (hrej : e.Rejects reply)
    (h : ∀ table ∈ w.conns, TableValid table) (hstep : w.configStep R e = some (reply, w')) :
    w' = w := by
  cases e with
  | openDb =>
    cases hstep
    exact hrej.elim
  | config db paramName newValue =>
    cases hstep
    rcases w.sqlite3mcConfig_cases db paramName newValue with
      heq | ⟨name, d, table, rfl, -, htable, hvalue, heq⟩
    · exact heq
    · have hsame : (sqlite3mcConfigCommon w.tables.globalCipherCount table name newValue).2 =
          table := by
        rcases hrej with hrej | ⟨_, hname, hbound⟩
        · exact sqlite3mcConfigCommon_rejects _ _ (hvalue ▸ hrej)
        · obtain rfl := Option.some_inj.mp hname
          exact sqlite3mcConfigCommon_isBound _ _ hbound
      rw [heq, hsame, World.setTable_self htable]
  | configCipher db cipherName paramName newValue =>
    cases hstep
    rcases w.sqlite3mcConfigCipher_cases db cipherName paramName newValue with
      heq | ⟨cipher, name, d, table, -, rfl, -, htable, hvalue, heq⟩
    · exact heq
    · have hsame : (sqlite3mcConfigCipherTable table cipher name newValue).2 = table := by
        rcases hrej with hrej | ⟨_, hname, hbound⟩
        · exact sqlite3mcConfigCipherTable_rejects (h table (List.mem_of_getElem? htable))
            (hvalue ▸ hrej)
        · obtain rfl := Option.some_inj.mp hname
          exact sqlite3mcConfigCipherTable_isBound table hbound
      rw [heq, hsame, World.setTable_self htable]
  | configParams db args granted =>
    obtain ⟨table, htable, hstep⟩ := Option.bind_eq_some_iff.mp hstep
    obtain ⟨⟨r, table'⟩, hr, hstep⟩ := Option.map_eq_some_iff.mp hstep
    cases hstep
    have hsame : table' = table :=
      sqlite3mcConfigParams_rejects (h table (List.mem_of_getElem? htable)) hr hrej
    rw [hsame]
    exact World.setTable_self htable
  | pragma db pragmaName pragmaValue configDefault granted =>
    obtain ⟨table, htable, hstep⟩ := Option.bind_eq_some_iff.mp hstep
    obtain ⟨⟨r, table'⟩, hr, hstep⟩ := Option.map_eq_some_iff.mp hstep
    cases hstep
    have hsame : table' = table :=
      sqlite3mcFileControlPragma_rejects (h table (List.mem_of_getElem? htable)) hr hrej
    rw [hsame]
    exact World.setTable_self htable
  | uri db uri configDefault granted =>
    obtain ⟨table, htable, hstep⟩ := Option.map_eq_some_iff.mp hstep
    cases hstep
    have hsame := sqlite3mcConfigureFromUri_rejects R table uri configDefault granted hrej
    rw [hsame]
    exact World.setTable_self htable
  | useParameter db j paramName =>
    obtain ⟨table, htable, hstep⟩ := Option.map_eq_some_iff.mp hstep
    cases hstep
    exact hrej.elim

/-- The invariant is about all parameters there are. -/
theorem WorldInv.valid (hcodec : 1 ≤ codecType ∧ codecType ≤ 7) (h : WorldInv codecType w) :
    w.Valid := by
  refine ⟨?_, fun table htable => (h.conns table htable).valid⟩
  rw [h.tables]
  exact (tableValid_clone hcodec).valid

/-- **Settings stay valid.** In every run from the built-in tables in which no call of the SQL
function with three arguments sets a value that `checkParameterValue` refuses, all values and
defaults are valid, and what is refused changes nothing. -/
theorem config_invariant (hcodec : 1 ≤ codecType ∧ codecType ≤ 7) {events : List ConfigEvent}
    (hrun : GuardedRun (ConfigStep R) (fun w e => e.Checked w) (builtinWorld codecType) events w) :
    w.Valid ∧ ∀ e reply w', w.configStep R e = some (reply, w') → e.Rejects reply → w' = w := by
  have hinv : WorldInv codecType w :=
    hrun.invariant (WorldInv codecType) (fun h hchecked hstep => h.configStep hcodec hchecked hstep)
      ⟨rfl, fun table htable => by cases htable⟩
  exact ⟨hinv.valid hcodec, fun e reply w' hstep hrej => hrej.unchanged hinv.conns hstep⟩

end Run

/-- Readers of numbers and truth values. -/
def decimalReaders : SqliteReaders := ⟨String.toInt?, fun z dflt => if z = "1" then true else dflt⟩

/-- `SELECT sqlite3mc_config(…)` with two texts and a number, on the first connection. -/
def selectConfig (cipherName paramName : String) (value : ℤ) : ConfigEvent :=
  .configParams 0 [⟨.text, cipherName, 0⟩, ⟨.text, paramName, 0⟩, ⟨.integer, "", value⟩] true

/-- The state with one connection. -/
def oneConnection : World :=
  ⟨builtinTables 3, [(builtinTables 3).sqlite3mcCloneCodecParameterTable]⟩

/-- SQLCipher with 32 bytes of the header in plaintext. -/
theorem config_invariant_sqlcipher :
    ∃ w, GuardedRun (ConfigStep decimalReaders) (fun w e => e.Checked w) (builtinWorld 3)
        [.openDb, selectConfig "sqlcipher" "plaintext_header_size" 32] w ∧
      w.Valid ∧ ∀ e reply w', w.configStep decimalReaders e = some (reply, w') →
        e.Rejects reply → w' = w := by
  have hset : (oneConnection.configStep decimalReaders
      (selectConfig "sqlcipher" "plaintext_header_size" 32)).isSome = true := by
    decide
  obtain ⟨⟨reply, w⟩, hset⟩ := Option.isSome_iff_exists.mp hset
  have hchecked : (selectConfig "sqlcipher" "plaintext_header_size" 32).Checked oneConnection :=
    fun table j p _ _ => by decide
  have hrun : GuardedRun (ConfigStep decimalReaders) (fun w e => e.Checked w) (builtinWorld 3)
      [.openDb, selectConfig "sqlcipher" "plaintext_header_size" 32] w :=
    GuardedRun.cons (t := oneConnection) trivial ⟨.done, rfl⟩
      (GuardedRun.cons hchecked ⟨reply, hset⟩ (GuardedRun.nil w))
  exact ⟨w, hrun, config_invariant (by decide) hrun⟩

/-- **A page size that is no power of two gets in.** The SQL function sets it for ChaCha20. -/
theorem sqlite3mcConfigParams_unchecked :
    ∃ w, Run (ConfigStep decimalReaders) (builtinWorld 3)
        [.openDb, selectConfig "chacha20" "legacy_page_size" 1000] w ∧ ¬ w.Valid := by
  have hset : (oneConnection.configStep decimalReaders
      (selectConfig "chacha20" "legacy_page_size" 1000)).any (fun r =>
        decide (∃ table ∈ r.2.conns, ∃ c ∈ table, ∃ p ∈ c.params,
          sqlite3Stricmp p.name "legacy_page_size" = true ∧ p.value = 1000)) = true := by
    decide
  obtain ⟨⟨reply, w⟩, hset, hvalue⟩ := (Option.any_eq_true _ _).mp hset
  obtain ⟨table, htable, c, hc, p, hp, hname, hvalue⟩ := of_decide_eq_true hvalue
  have hrun : Run (ConfigStep decimalReaders) (builtinWorld 3)
      [.openDb, selectConfig "chacha20" "legacy_page_size" 1000] w :=
    Run.cons (t := oneConnection) ⟨.done, rfl⟩ (Run.cons ⟨reply, hset⟩ (Run.nil w))
  refine ⟨w, hrun, fun hvalid => ?_⟩
  have hsize := ((hvalid.2 table htable c hc p hp).pageSize hname).1
  rw [hvalue] at hsize
  rcases hsize with h | ⟨_, _, k, hk⟩
  · omega
  · -- 1000 lies between two powers of two
    have hk : (1000 : ℕ) = 2 ^ k := by exact_mod_cast hk
    rcases Nat.lt_or_ge k 10 with hlt | hge
    · have : 2 ^ k ≤ 2 ^ 9 := Nat.pow_le_pow_right (by omega) (by omega)
      omega
    · have : 2 ^ 10 ≤ 2 ^ k := Nat.pow_le_pow_right (by omega) hge
      omega

end MultipleCiphers
