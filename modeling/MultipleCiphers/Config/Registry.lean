import MultipleCiphers.Config.Tables
import MultipleCiphers.Lib.Transition
import Mathlib.Data.List.TakeWhile

/-!
# The invariant of the cipher registry

The three global arrays are the layout of one list, the ciphers registered so far. A registration
adds to the list or leaves it as it is, so after any sequence of registrations the arrays are still
the layout of a list, whose names are pairwise different. That is all there is to the invariant, and
what the arrays have to do with each other is read off the layout.

## Main results

* `install_layout` — the entry of a new cipher goes to the end of the list, in all arrays.
* `sqlite3mcRegisterCipher_layout` — a registration adds to the list or changes nothing.
* `CipherTables.Consistent` — the positions, the sentinels and the names of the arrays.
* `registry_invariant` — all of it after every sequence of registrations.
-/

namespace MultipleCiphers

open Transition

/-! ### Comparing names -/

theorem sqlite3Stricmp_refl (a : String) : sqlite3Stricmp a a = true :=
  sqlite3Stricmp_eq_true.mpr rfl

theorem sqlite3Stricmp_comm (a b : String) : sqlite3Stricmp a b = sqlite3Stricmp b a := by
  rw [Bool.eq_iff_iff, sqlite3Stricmp_eq_true, sqlite3Stricmp_eq_true, eq_comm]

/-! ### The layout, position by position -/

section Layout

variable {cs : List RegisteredCipher} {common : List CipherParams} {id : ℕ}

@[simp] theorem length_parameterEntries (id : ℕ) (cs : List RegisteredCipher) :
    (parameterEntries id cs).length = cs.length := by
  induction cs generalizing id with
  | nil => rfl
  | cons c cs ih => rw [parameterEntries, List.length_cons, ih, List.length_cons]

theorem parameterEntries_append (id : ℕ) (cs ds : List RegisteredCipher) :
    parameterEntries id (cs ++ ds) =
      parameterEntries id cs ++ parameterEntries (id + cs.length) ds := by
  induction cs generalizing id with
  | nil => rfl
  | cons c cs ih =>
    rw [List.cons_append, parameterEntries, ih, parameterEntries, List.cons_append,
      List.length_cons, Nat.add_assoc, Nat.add_comm 1]

theorem getElem?_parameterEntries (id i : ℕ) (cs : List RegisteredCipher) :
    (parameterEntries id cs)[i]? = cs[i]?.map fun c => ⟨c.name, id + i, c.params⟩ := by
  induction cs generalizing id i with
  | nil => rfl
  | cons c cs ih =>
    cases i with
    | zero => rfl
    | succ i =>
      rw [parameterEntries, List.getElem?_cons_succ, List.getElem?_cons_succ, ih, Nat.add_assoc,
        Nat.add_comm 1]

/-- Writing over the first of the sentinels behind a list. -/
theorem set_append_replicate {α : Type*} (l : List α) (x y : α) {n : ℕ} (hn : 0 < n) :
    (l ++ List.replicate n x).set l.length y = (l ++ [y]) ++ List.replicate (n - 1) x := by
  obtain ⟨k, rfl⟩ := Nat.exists_eq_add_of_lt hn
  rw [Nat.zero_add, Nat.add_sub_cancel, List.replicate_succ, List.set_append_right _ _ le_rfl,
    Nat.sub_self, List.set_cons_zero, List.append_assoc, List.singleton_append]

/-- **The entry of a new cipher goes to the end of the list**, at the same number in all arrays. -/
theorem install_layout (hlen : cs.length < codecCountMax) (desc : DescriptorEntry)
    (params : List CipherParams) (makeDefault : Bool) :
    (layout cs common).install desc params makeDefault =
      layout (cs ++ [⟨desc.name.getD "", { desc with name := some (desc.name.getD "") }, params⟩])
        (if makeDefault then setDefaultCipher (cs.length + 1) common else common) := by
  have hroom : 0 < codecCountMax + 1 - cs.length := by omega
  have hsub : codecCountMax + 1 - (cs.length + 1) = codecCountMax + 1 - cs.length - 1 := by omega
  have hnames := set_append_replicate (cs.map (·.name)) "" (desc.name.getD "") hroom
  have hdescs := set_append_replicate (cs.map (·.descriptor)) mcSentinelDescriptor
    { desc with name := some (desc.name.getD "") } hroom
  have hparams := set_append_replicate (parameterEntries 1 cs) globalSentinelParams
    ⟨desc.name.getD "", cs.length + 1, params⟩ hroom
  rw [List.length_map] at hnames hdescs
  rw [length_parameterEntries] at hparams
  have hentries : parameterEntries 1 cs ++ [⟨desc.name.getD "", cs.length + 1, params⟩] =
      parameterEntries 1 (cs ++ [⟨desc.name.getD "",
        { desc with name := some (desc.name.getD "") }, params⟩]) := by
    rw [parameterEntries_append, Nat.add_comm 1]
    rfl
  simp only [CipherTables.install, layout, Nat.add_sub_cancel, List.set_cons_succ, hnames, hdescs,
    hparams, hentries, List.length_append, List.length_singleton, List.map_append, List.map_cons,
    List.map_nil, hsub]
  cases makeDefault <;> rfl

/-- A loop that runs to the sentinel sees all that is in front of it. -/
theorem takeWhile_append_replicate {α : Type*} {p : α → Bool} {l : List α} {x : α}
    (hl : ∀ a ∈ l, p a = true) (hx : p x = false) (n : ℕ) :
    (l ++ List.replicate n x).takeWhile p = l := by
  rw [List.takeWhile_append_of_pos hl, List.takeWhile_replicate, if_neg (by rw [hx]; decide),
    List.append_nil]

/-! ### Lists of ciphers that can be registered -/

/-- What holds of the ciphers registered so far. -/
structure Registered (cs : List RegisteredCipher) : Prop where
  length_le : cs.length ≤ codecCountMax
  named : ∀ c ∈ cs, c.name ≠ "" ∧ c.descriptor.name = some c.name
  distinct : ("global" :: cs.map (·.name)).Pairwise fun a b => sqlite3Stricmp a b = false

theorem registered_nil : Registered [] where
  length_le := by decide
  named := by simp
  distinct := List.pairwise_singleton _ _

/-- The loops over the names stop behind the registered ones. -/
theorem takeWhile_globalCipherNameTable (h : Registered cs) :
    (layout cs common).globalCipherNameTable.takeWhile (· ≠ "") = "global" :: cs.map (·.name) := by
  have hnames : ∀ a ∈ "global" :: cs.map (·.name), decide (a ≠ "") = true := by
    intro a ha
    rw [List.mem_cons, List.mem_map] at ha
    rcases ha with rfl | ⟨c, hc, rfl⟩
    · decide
    · exact decide_eq_true (h.named c hc).1
  rw [layout, ← List.cons_append]
  exact takeWhile_append_replicate hnames rfl _

/-- A name that passes the check is not empty and is none of the names there are. -/
theorem mcCheckValidName_ok (h : Registered cs) {name : Option String}
    (hok : (layout cs common).mcCheckValidName name = .ok) :
    ∃ n, name = some n ∧ n ≠ "" ∧
      ∀ a ∈ "global" :: cs.map (·.name), sqlite3Stricmp n a = false := by
  rcases name with _ | n
  · cases hok
  refine ⟨n, rfl, ?_, ?_⟩
  · rintro rfl
    cases hok
  · rw [CipherTables.mcCheckValidName, takeWhile_globalCipherNameTable h] at hok
    split at hok
    · cases hok
    split at hok
    · cases hok
    rename_i hany
    intro a ha
    exact Bool.not_eq_true _ ▸ fun heq => hany (List.any_eq_true.mpr ⟨a, ha, heq⟩)

/-- A name that passes the check is made of letters, digits and underscores. -/
theorem colon_notMem_of_mcCheckValidName {t : CipherTables} {n : String}
    (hok : t.mcCheckValidName (some n) = .ok) : ':' ∉ n.toList := by
  rw [CipherTables.mcCheckValidName] at hok
  split at hok
  · cases hok
  split at hok
  · cases hok
  split at hok
  · cases hok
  rename_i c rest hn
  split at hok
  swap
  · cases hok
  rename_i hall
  rw [Bool.and_eq_true, List.all_eq_true] at hall
  rw [hn]
  intro hmem
  rcases List.mem_cons.mp hmem with rfl | hmem
  · exact absurd hall.1 (by decide)
  · exact absurd (hall.2 ':' hmem) (by decide)

/-- No parameter in front of the position where the check ends has a negative bound. -/
theorem minValue_of_mcCheckParams {t : CipherTables} {params : ℕ → ParamSpec} :
    ∀ {fuel n np : ℕ}, t.mcCheckParams params n fuel = some np →
      ∀ i, n ≤ i → i < np → 0 ≤ (params i).minValue := by
  intro fuel
  induction fuel with
  | zero =>
    intro n np h i hn hi
    obtain rfl := Option.some_inj.mp h
    omega
  | succ fuel ih =>
    intro n np h i hn hi
    rw [CipherTables.mcCheckParams] at h
    split at h
    · obtain rfl := Option.some_inj.mp h
      omega
    split at h
    · cases h
    split at h
    swap
    · cases h
    rename_i hrange
    rcases Nat.eq_or_lt_of_le hn with rfl | hlt
    · exact hrange.1
    · exact ih h i hlt hi

/-- **What a registration does**: nothing, or one entry is installed that has passed the checks. -/
theorem sqlite3mcRegisterCipher_cases {t t' : CipherTables} {desc : Option DescriptorEntry}
    {params : Option (ℕ → ParamSpec)} {makeDefault : Bool} {malloc : ℕ → Bool} {rc : ResultCode}
    (hr : t.sqlite3mcRegisterCipher desc params makeDefault malloc = some (rc, t')) :
    (rc ≠ .ok ∧ t' = t) ∨
      (rc = .ok ∧ ∃ d ps np, t.mcCheckValidName d.name = .ok ∧
        t.mcCheckParams ps 0 cipherParamsCountMax = some np ∧
          t.globalCipherCount < codecCountMax ∧
            t' = t.install d ((List.range np).map fun n => (ps n).toCipherParams)
              makeDefault) := by
  have hunchanged : ∀ rc' : ResultCode, rc' ≠ .ok →
      some (rc', t) = some (rc, t') → rc ≠ .ok ∧ t' = t := by
    intro rc' hne heq
    obtain ⟨rfl, rfl⟩ := Prod.mk.inj (Option.some_inj.mp heq)
    exact ⟨hne, rfl⟩
  rcases desc with _ | desc
  · exact Or.inl (hunchanged .error (by simp) hr)
  rcases params with _ | params
  · exact Or.inl (hunchanged .error (by simp) hr)
  rw [CipherTables.sqlite3mcRegisterCipher] at hr
  split at hr
  · exact Or.inl (hunchanged .error (by simp) hr)
  split at hr
  · exact Or.inl (hunchanged .error (by simp) hr)
  rename_i hname
  split at hr
  · exact Or.inl (hunchanged .error (by simp) hr)
  rename_i np hparams
  split at hr
  · exact Or.inl (hunchanged .error (by simp) hr)
  split at hr
  · exact Or.inl (hunchanged .nomem (by simp) hr)
  split at hr
  swap
  · exact Or.inl (hunchanged .nomem (by simp) hr)
  rename_i hcount
  split at hr
  swap
  · cases hr
  obtain ⟨rfl, rfl⟩ := Prod.mk.inj (Option.some_inj.mp hr)
  exact Or.inr ⟨rfl, desc, params, np, not_not.mp hname, hparams, hcount, rfl⟩

/-- What the checks say of a cipher that is registered. -/
structure RegisteredCipher.Checked (c : RegisteredCipher) : Prop where
  name : ':' ∉ c.name.toList
  minValue_nonneg : ∀ p ∈ c.params, 0 ≤ p.minValue

/-- **A registration adds a checked cipher to the list or changes nothing.** -/
theorem sqlite3mcRegisterCipher_checked (h : Registered cs) {desc : Option DescriptorEntry}
    {params : Option (ℕ → ParamSpec)} {makeDefault : Bool} {malloc : ℕ → Bool} {rc : ResultCode}
    {t : CipherTables}
    (hr : (layout cs common).sqlite3mcRegisterCipher desc params makeDefault malloc =
      some (rc, t)) :
    (rc ≠ .ok ∧ t = layout cs common) ∨
      (rc = .ok ∧ ∃ c, RegisteredCipher.Checked c ∧ Registered (cs ++ [c]) ∧
        t = layout (cs ++ [c])
          (if makeDefault then setDefaultCipher (cs.length + 1) common else common)) := by
  rcases sqlite3mcRegisterCipher_cases hr with hsame | ⟨hrc, d, ps, np, hname, hparams, hcount, rfl⟩
  · exact Or.inl hsame
  have hlen : cs.length < codecCountMax := hcount
  obtain ⟨n, hn, hne, hnew⟩ := mcCheckValidName_ok h hname
  refine Or.inr ⟨hrc, _, ⟨?_, ?_⟩, ?_, install_layout hlen d _ makeDefault⟩
  · rw [hn] at hname ⊢
    exact colon_notMem_of_mcCheckValidName hname
  · intro p hp
    obtain ⟨i, hi, rfl⟩ := List.mem_map.mp hp
    exact minValue_of_mcCheckParams hparams i (Nat.zero_le i) (List.mem_range.mp hi)
  rw [hn, Option.getD_some]
  refine ⟨by rw [List.length_append, List.length_singleton]; omega, ?_, ?_⟩
  · intro c hc
    rw [List.mem_append, List.mem_singleton] at hc
    rcases hc with hc | rfl
    · exact h.named c hc
    · exact ⟨hne, rfl⟩
  · rw [List.map_append, List.map_singleton, ← List.cons_append, List.pairwise_append]
    refine ⟨h.distinct, List.pairwise_singleton _ _, fun a ha b hb => ?_⟩
    rw [List.mem_singleton.mp hb, sqlite3Stricmp_comm]
    exact hnew a ha

/-- **A registration adds a cipher to the list or changes nothing.** -/
theorem sqlite3mcRegisterCipher_layout (h : Registered cs) {desc : Option DescriptorEntry}
    {params : Option (ℕ → ParamSpec)} {makeDefault : Bool} {malloc : ℕ → Bool} {rc : ResultCode}
    {t : CipherTables}
    (hr : (layout cs common).sqlite3mcRegisterCipher desc params makeDefault malloc =
      some (rc, t)) :
    (rc ≠ .ok ∧ t = layout cs common) ∨
      (rc = .ok ∧ ∃ c, Registered (cs ++ [c]) ∧ t = layout (cs ++ [c])
        (if makeDefault then setDefaultCipher (cs.length + 1) common else common)) := by
  rcases sqlite3mcRegisterCipher_checked h hr with hsame | ⟨hrc, c, _, hc⟩
  · exact Or.inl hsame
  · exact Or.inr ⟨hrc, c, hc⟩

/-! ### The invariant -/

/-- The registration calls. -/
structure RegisterCall where
  desc : Option DescriptorEntry
  params : Option (ℕ → ParamSpec)
  makeDefault : Bool
  malloc : ℕ → Bool

/-- A call that returns, with whatever result code. -/
def RegisterStep (t : CipherTables) (call : RegisterCall) (t' : CipherTables) : Prop :=
  ∃ rc, t.sqlite3mcRegisterCipher call.desc call.params call.makeDefault call.malloc = some (rc, t')

/-- What the three arrays have to do with each other and with the number of ciphers. -/
structure CipherTables.Consistent (t : CipherTables) : Prop where
  count_le : t.globalCipherCount ≤ codecCountMax
  /-- Each array has one entry more than there can be ciphers. -/
  lengths : t.globalCipherNameTable.length = codecCountMax + 2 ∧
    t.globalCodecDescriptorTable.length = codecCountMax + 1 ∧
      t.globalCodecParameterTable.length = codecCountMax + 2
  /-- The common entries are in front. -/
  global : t.globalCipherNameTable[0]? = some "global" ∧
    ∃ common, t.globalCodecParameterTable[0]? = some ⟨"global", 0, common⟩
  /-- The entries at number `i` are those of one cipher, and its name leads to its number. -/
  agree : ∀ i, 1 ≤ i → i ≤ t.globalCipherCount → ∃ name desc params, name ≠ "" ∧
    t.globalCipherNameTable[i]? = some name ∧
      t.globalCodecDescriptorTable[i - 1]? = some desc ∧ desc.name = some name ∧
        t.globalCodecParameterTable[i]? = some ⟨name, i, params⟩ ∧
          t.sqlite3mcCipherIndex name = i
  /-- No two names are equal up to case, the name of the common entries included. -/
  distinct : ∀ i j a b, i < j → j ≤ t.globalCipherCount → t.globalCipherNameTable[i]? = some a →
    t.globalCipherNameTable[j]? = some b → sqlite3Stricmp a b = false
  /-- Behind the registered ciphers there are sentinels. -/
  sentinels : ∀ i, t.globalCipherCount < i → i ≤ codecCountMax + 1 →
    t.globalCipherNameTable[i]? = some "" ∧
      t.globalCodecDescriptorTable[i - 1]? = some mcSentinelDescriptor ∧
        t.globalCodecParameterTable[i]? = some globalSentinelParams

/-- `sqlite3mc_cipher_index` finds the first cipher of that name. -/
theorem sqlite3mcCipherIndex_layout (h : Registered cs) (common : List CipherParams)
    (cipherName : String) :
    (layout cs common).sqlite3mcCipherIndex cipherName =
      match cs.findIdx? fun c => sqlite3Stricmp cipherName c.name with
      | some j => (j : ℤ) + 1
      | none => -1 := by
  have htake : (cs.map (·.descriptor) ++ List.replicate (codecCountMax + 1 - cs.length)
      mcSentinelDescriptor).take cs.length = cs.map (·.descriptor) := by
    rw [List.take_append_of_le_length (by rw [List.length_map]),
      List.take_of_length_le (by rw [List.length_map])]
  have hall : (cs.map (·.descriptor)).takeWhile (fun d => decide (d.name.getD "" ≠ "")) =
      cs.map (·.descriptor) := by
    have hpos : ∀ d ∈ cs.map (·.descriptor), decide (d.name.getD "" ≠ "") = true := by
      intro d hd
      obtain ⟨c, hc, rfl⟩ := List.mem_map.mp hd
      rw [(h.named c hc).2]
      exact decide_eq_true (h.named c hc).1
    exact List.takeWhile_eq_self_iff.mpr hpos
  have hfind : (cs.map (·.descriptor)).findIdx?
      (fun d => sqlite3Stricmp cipherName (d.name.getD "")) =
        cs.findIdx? fun c => sqlite3Stricmp cipherName c.name := by
    have hnames : cs.map (fun c => c.descriptor.name.getD "") = cs.map (·.name) :=
      List.map_congr_left fun c hc => by rw [(h.named c hc).2, Option.getD_some]
    have hmap := congrArg (List.findIdx? (sqlite3Stricmp cipherName)) hnames
    rw [List.findIdx?_map, List.findIdx?_map] at hmap
    rw [List.findIdx?_map]
    exact hmap
  have hsearch : (((layout cs common).globalCodecDescriptorTable.take
      (layout cs common).globalCipherCount).takeWhile fun d =>
        decide (d.name.getD "" ≠ "")).findIdx?
        (fun d => sqlite3Stricmp cipherName (d.name.getD "")) =
      cs.findIdx? fun c => sqlite3Stricmp cipherName c.name := by
    rw [layout, htake, hall, hfind]
  exact congrArg (fun o : Option ℕ => match o with | some j => (j : ℤ) + 1 | none => -1) hsearch

/-- The names of two different ciphers are different. -/
theorem Registered.name_ne (h : Registered cs) {j k : ℕ} (hjk : j < k) (hk : k < cs.length) :
    sqlite3Stricmp cs[j].name cs[k].name = false := by
  have hpair := List.pairwise_iff_getElem.mp (List.pairwise_cons.mp h.distinct).2 j k
    (by rw [List.length_map]; omega) (by rw [List.length_map]; omega) hjk
  rwa [List.getElem_map, List.getElem_map] at hpair

/-- The name of the cipher with number `i` leads to `i`. -/
theorem sqlite3mcCipherIndex_name (h : Registered cs) (common : List CipherParams) {k : ℕ}
    (hk : k < cs.length) : (layout cs common).sqlite3mcCipherIndex cs[k].name = (k : ℤ) + 1 := by
  have hfind : (cs.findIdx? fun c => sqlite3Stricmp cs[k].name c.name) = some k := by
    rw [List.findIdx?_eq_some_iff_getElem]
    refine ⟨hk, sqlite3Stricmp_refl _, fun j hj => ?_⟩
    rw [sqlite3Stricmp_comm, h.name_ne hj hk]
    decide
  rw [sqlite3mcCipherIndex_layout h, hfind]

/-- **The arrays of a list of ciphers are consistent.** -/
theorem Registered.consistent (h : Registered cs) (common : List CipherParams) :
    (layout cs common).Consistent := by
  have hle := h.length_le
  refine ⟨h.length_le, ⟨?_, ?_, ?_⟩, ⟨rfl, common, rfl⟩, ?_, ?_, ?_⟩
  · simp only [layout, List.length_cons, List.length_append, List.length_map, List.length_replicate]
    omega
  · simp only [layout, List.length_append, List.length_map, List.length_replicate]
    omega
  · simp only [layout, List.length_cons, List.length_append, length_parameterEntries,
      List.length_replicate]
    omega
  · -- the cipher with number `i` is at position `i - 1` of the list
    intro i h1 hi
    have hi' : i ≤ cs.length := hi
    obtain ⟨k, rfl⟩ := Nat.exists_eq_add_of_le' h1
    have hk : k < cs.length := by omega
    refine ⟨cs[k].name, cs[k].descriptor, cs[k].params, (h.named _ (List.getElem_mem hk)).1,
      ?_, ?_, (h.named _ (List.getElem_mem hk)).2, ?_, ?_⟩
    · rw [layout, List.getElem?_cons_succ, List.getElem?_append_left (by rwa [List.length_map]),
        List.getElem?_map, List.getElem?_eq_getElem hk]
      rfl
    · rw [layout, Nat.add_sub_cancel, List.getElem?_append_left (by rwa [List.length_map]),
        List.getElem?_map, List.getElem?_eq_getElem hk]
      rfl
    · rw [layout, List.getElem?_cons_succ,
        List.getElem?_append_left (by rwa [length_parameterEntries]), getElem?_parameterEntries,
        List.getElem?_eq_getElem hk, Nat.add_comm 1]
      rfl
    · rw [sqlite3mcCipherIndex_name h common hk]
      push_cast
      rfl
  · intro i j a b hij hj ha hb
    have hj' : j ≤ cs.length := hj
    have hnames : ∀ m, m ≤ cs.length → (layout cs common).globalCipherNameTable[m]? =
        ("global" :: cs.map (·.name))[m]? := by
      intro m hm
      rw [layout, ← List.cons_append, List.getElem?_append_left]
      rw [List.length_cons, List.length_map]
      omega
    rw [hnames i (by omega)] at ha
    rw [hnames j hj'] at hb
    obtain ⟨hi'', rfl⟩ := List.getElem?_eq_some_iff.mp ha
    obtain ⟨hj'', rfl⟩ := List.getElem?_eq_some_iff.mp hb
    exact List.pairwise_iff_getElem.mp h.distinct i j hi'' hj'' hij
  · intro i hi hmax
    have hi' : cs.length < i := hi
    obtain ⟨k, rfl⟩ := Nat.exists_eq_add_of_le' (Nat.one_le_of_lt hi')
    have hrep : k - cs.length < codecCountMax + 1 - cs.length := by omega
    refine ⟨?_, ?_, ?_⟩
    · rw [layout, List.getElem?_cons_succ,
        List.getElem?_append_right (by rw [List.length_map]; omega), List.length_map,
        List.getElem?_replicate_of_lt hrep]
    · rw [layout, Nat.add_sub_cancel, List.getElem?_append_right (by rw [List.length_map]; omega),
        List.length_map, List.getElem?_replicate_of_lt hrep]
    · rw [layout, List.getElem?_cons_succ,
        List.getElem?_append_right (by rw [length_parameterEntries]; omega),
        length_parameterEntries, List.getElem?_replicate_of_lt hrep]

/-- After the initialization the arrays are those of no cipher. -/
theorem sqlite3mcInitCipherTables_eq : sqlite3mcInitCipherTables = layout [] commonParams := rfl

/-- The arrays stay the arrays of a list of ciphers. -/
theorem exists_layout_of_run {calls : List RegisterCall} {t : CipherTables}
    (h : Run RegisterStep sqlite3mcInitCipherTables calls t) :
    ∃ cs common, Registered cs ∧ t = layout cs common := by
  refine h.invariant (fun t => ∃ cs common, Registered cs ∧ t = layout cs common) ?_
    ⟨[], commonParams, registered_nil, sqlite3mcInitCipherTables_eq⟩
  rintro _ t call ⟨cs, common, hcs, rfl⟩ ⟨rc, hr⟩
  rcases sqlite3mcRegisterCipher_layout hcs hr with ⟨_, rfl⟩ | ⟨_, c, hc, rfl⟩
  · exact ⟨cs, common, hcs, rfl⟩
  · exact ⟨cs ++ [c], _, hc, rfl⟩

/-- **The registry invariant.** After every sequence of registrations, of whatever descriptors and
with whatever allocations failing, the arrays are consistent, and the next call that returns an
error changes nothing. -/
theorem registry_invariant {calls : List RegisterCall} {t : CipherTables}
    (h : Run RegisterStep sqlite3mcInitCipherTables calls t) :
    t.Consistent ∧ ∀ (call : RegisterCall) (rc : ResultCode) (t' : CipherTables),
      t.sqlite3mcRegisterCipher call.desc call.params call.makeDefault call.malloc =
          some (rc, t') →
        rc ≠ .ok → t' = t := by
  obtain ⟨cs, common, hcs, rfl⟩ := exists_layout_of_run h
  refine ⟨hcs.consistent common, fun call rc t' hr hrc => ?_⟩
  rcases sqlite3mcRegisterCipher_layout hcs hr with ⟨_, rfl⟩ | ⟨hok, _⟩
  · rfl
  · exact absurd hok hrc

/-- A registration of a cipher `rc4` with one parameter, as the default. -/
def registerRC4 : RegisterCall where
  desc := some ⟨some "rc4", some 1, some 1, some 1, some 1, some 1, some 1, some 1, some 1, some 1,
    some 1⟩
  params := some fun n => if n = 0 then ⟨some "legacy", 1, 1, 1, 1⟩ else ⟨some "", 0, 0, 0, 0⟩
  makeDefault := true
  malloc := fun _ => true

/-- The arrays with that cipher. -/
def rc4Tables : CipherTables :=
  layout [⟨"rc4", ⟨some "rc4", some 1, some 1, some 1, some 1, some 1, some 1, some 1, some 1,
    some 1, some 1⟩, [⟨"legacy", 1, 1, 1, 1⟩]⟩] (setDefaultCipher 1 commonParams)

/-- One registration, and the same once more, which is an error. -/
theorem registry_invariant_rc4 : rc4Tables.Consistent := by
  have hfirst :
      sqlite3mcInitCipherTables.sqlite3mcRegisterCipher registerRC4.desc registerRC4.params
      registerRC4.makeDefault registerRC4.malloc = some (.ok, rc4Tables) := by decide
  have hagain : rc4Tables.sqlite3mcRegisterCipher registerRC4.desc registerRC4.params
      registerRC4.makeDefault registerRC4.malloc = some (.error, rc4Tables) := by decide
  exact (registry_invariant
    (Run.cons (a := registerRC4) ⟨.ok, hfirst⟩ (Run.cons ⟨.error, hagain⟩ (Run.nil _)))).1

end Layout

end MultipleCiphers
