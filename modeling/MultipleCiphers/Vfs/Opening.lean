import MultipleCiphers.Vfs.MainList
import MultipleCiphers.Journal.SubJournal
import MultipleCiphers.Ownership.Model

/-!
# One file, three models

`mcVfsOpen` and `mcIoClose` are modelled three times, since three questions are asked about a file.
Vfs/MainList has the file in memory, with its name, its VFS and its links. Vfs/Stack and
Journal/SubJournal have what the reads and writes need: the kind of the file and the codec that
applies to it. Ownership/Model has the codec of each main database file, as a pointer.

The first is the source function for function. The other two are views of it, given the codecs of
the files, which it leaves out: the lookups see the lists of main database files without the links,
and the ownership of the codecs sees which main database files are open.

## Main definitions

* `VfsState.LooksLike` — the VFSs as the lookups see them.
* `VfsState.codecFiles` — the codecs of the main database files that are open.

## Main results

* `VfsState.LooksLike.mcFindDbMainFileName` — the two lookups of a name agree.
* `VfsState.LooksLike.mcVfsOpen` — a journal that is opened gets the codec of the same file.
* `VfsState.codecFiles_mcVfsOpen`, `VfsState.codecFiles_mcIoClose` — so do the files of the codecs.
-/

namespace MultipleCiphers

/-- What `mcVfsOpen` takes a file for. The flags are looked at in this order. -/
def openedKind (flags : ℕ) : FileKind :=
  if flags &&& openMainDb ≠ 0 then .mainDb
  else if flags &&& openTempDb ≠ 0 then .other
  else if flags &&& openMainJournal ≠ 0 then .mainJournal
  else if flags &&& openSubjournal ≠ 0 then .subJournal
  else if flags &&& openWal ≠ 0 then .wal
  else .other

namespace VfsState

variable {σ : Type} {s t : VfsState} {v file : ℕ} {vfs : VfsRecord}

/-! ### The lookups -/

/-- A main database file as the lookups see it. One that has no name is found by none. -/
def mainFile (s : VfsState) (codec : ℕ → Option (Codec σ)) (file : ℕ) : Option (MainFile σ) :=
  (s.files file).zFileName.map fun name => ⟨name, codec file⟩

/-- With these codecs of the files, the VFSs and their lists look like `w`. -/
structure LooksLike (s : VfsState) (codec : ℕ → Option (Codec σ)) (w : Vfses σ) : Prop where
  isMultipleCiphers : ∀ v vfs, s.vfs.get v = some vfs →
    w.isMultipleCiphers v = vfs.isMultipleCiphers
  vfsList : w.vfsList = s.vfsList
  pMain : ∀ v vfs, s.vfs.get v = some vfs →
    ∃ files, s.MainList v vfs files ∧ w.pMain v = files.filterMap (s.mainFile codec)

/-- Every state that a run leads to looks like something. -/
theorem Inv.looksLike (h : Inv s) (codec : ℕ → Option (Codec σ)) : ∃ w, s.LooksLike codec w := by
  have hlist : ∀ v, ∃ files, ∀ vfs, s.vfs.get v = some vfs → s.MainList v vfs files := by
    intro v
    rcases hv : s.vfs.get v with _ | vfs
    · exact ⟨[], fun _ h => by cases h⟩
    · obtain ⟨files, hfiles⟩ := h.mainList v vfs hv
      refine ⟨files, fun vfs' hv' => ?_⟩
      obtain rfl := Option.some.inj hv'
      exact hfiles
  choose lists hlists using hlist
  exact ⟨⟨fun v => (s.vfs.get v).any VfsRecord.isMultipleCiphers, s.vfsList,
    fun v => (lists v).filterMap (s.mainFile codec)⟩,
    fun v vfs hv => by simp [hv], rfl, fun v vfs hv => ⟨lists v, hlists v vfs hv, rfl⟩⟩

variable {codec : ℕ → Option (Codec σ)} {w : Vfses σ}

/-- **A name is looked up with the same result** in memory and in the lists without links. -/
theorem LooksLike.mcFindDbMainFileName (h : s.LooksLike codec w) (hv : s.vfs.get v = some vfs)
    (name : ℕ) :
    ∃ found, s.mcFindDbMainFileName v (some name) = some found ∧
      MultipleCiphers.mcFindDbMainFileName w v name = found.map fun file => ⟨name, codec file⟩ := by
  obtain ⟨files, hfiles, hmain⟩ := h.pMain v vfs hv
  refine ⟨_, hfiles.find hv (some name), ?_⟩
  have hfound : ∀ file, ((s.mainFile codec file).any fun f => f.zFileName = name) =
      decide ((s.files file).zFileName = some name) := by
    intro file
    rw [mainFile]
    cases (s.files file).zFileName <;> simp
  rw [MultipleCiphers.mcFindDbMainFileName, hmain, List.find?_filterMap]
  simp only [hfound]
  rcases hfind : files.find? fun file => decide ((s.files file).zFileName = some name) with _ | file
  · rfl
  · have hname : (s.files file).zFileName = some name := by simpa using List.find?_some hfind
    simp [mainFile, hname]

/-- What is written to a file that is not open is not seen. -/
theorem LooksLike.frame (h : s.LooksLike codec w) (hopened : t.opened = s.opened)
    (hfiles : ∀ file ∈ s.opened, t.files file = s.files file)
    (hnext : ∀ file ∈ s.opened, t.pMainNext file = s.pMainNext file) (hvfs : t.vfs = s.vfs)
    (hlist : t.vfsList = s.vfsList) : t.LooksLike codec w := by
  refine ⟨fun v vfs hv => ?_, h.vfsList.trans hlist.symm, fun v vfs hv => ?_⟩
  · exact h.isMultipleCiphers v vfs (hvfs ▸ hv)
  · obtain ⟨files, hmain, hw⟩ := h.pMain v vfs (hvfs ▸ hv)
    refine ⟨files, hmain.frame hopened hfiles hnext, hw.trans ?_⟩
    refine List.filterMap_congr fun file hfile => ?_
    rw [mainFile, mainFile, hfiles file ((hmain.mem file).mp hfile).1]

/-! ### Opening a file -/

/-- What `mcVfsOpen` leaves in memory. -/
theorem mcVfsOpen_eq_some {F : ℕ → ℕ} {zName : Option ℕ} {flags : ℕ} {realOpen : Bool}
    (h : s.mcVfsOpen F v zName file flags realOpen = some t) :
    ∃ pMainDb, openMainFile F (s.initFile v zName file flags) v zName flags = some pMainDb ∧
      t.files = Function.update s.files file ⟨v, flags, zName, pMainDb⟩ ∧
      t.opened = if realOpen then file :: s.opened else s.opened := by
  obtain ⟨pMainDb, hlookup, h⟩ := Option.bind_eq_some_iff.mp h
  obtain ⟨-, -, h⟩ := Option.bind_eq_some_iff.mp h
  have hset : ((s.initFile v zName file flags).setMainDb file pMainDb).files =
      Function.update s.files file ⟨v, flags, zName, pMainDb⟩ := by
    simp [setMainDb, initFile]
  refine ⟨pMainDb, hlookup, ?_⟩
  cases realOpen with
  | false =>
    obtain rfl := Option.some.inj h
    exact ⟨hset, rfl⟩
  | true =>
    rw [if_pos rfl, registerFile] at h
    by_cases hmain : flags &&& openMainDb ≠ 0
    · rw [if_pos hmain] at h
      obtain ⟨-, -, rfl⟩ := Option.map_eq_some_iff.mp h
      exact ⟨hset, rfl⟩
    · rw [if_neg hmain] at h
      obtain rfl := Option.some.inj h
      exact ⟨hset, rfl⟩

/-- **A file that is opened** gets the codec that the reads and writes are modelled with: a journal
that of its database, and a main database file none yet. -/
theorem LooksLike.mcVfsOpen (h : s.LooksLike codec w) (hv : s.vfs.get v = some vfs)
    (hfile : file ∉ s.opened) {F : ℕ → ℕ} {zName : Option ℕ} {flags : ℕ} {realOpen : Bool}
    (hopen : s.mcVfsOpen F v zName file flags realOpen = some t) (pageSize : ℕ) :
    (t.files file).pMainDb.bind codec =
      (MultipleCiphers.mcVfsOpen w F v zName (openedKind flags) pageSize).codec := by
  obtain ⟨pMainDb, hlookup, hfiles, -⟩ := mcVfsOpen_eq_some hopen
  have hne : ∀ g ∈ s.opened, g ≠ file := by
    rintro g hg rfl
    exact hfile hg
  have hinit : (s.initFile v zName file flags).LooksLike codec w :=
    h.frame rfl (fun g hg => Function.update_of_ne (hne g hg) _ _)
      (fun g hg => Function.update_of_ne (hne g hg) _ _) rfl rfl
  have hmainDb : (t.files file).pMainDb = pMainDb := by rw [hfiles, Function.update_self]
  rw [hmainDb]
  unfold MultipleCiphers.mcVfsOpen
  cases zName with
  | none =>
    obtain rfl := Option.some.inj hlookup
    rfl
  | some name =>
    obtain ⟨found, hfound, hw⟩ := hinit.mcFindDbMainFileName hv (F name)
    have hjournal : found.bind codec =
        (MultipleCiphers.mcFindDbMainFileName w v (F name)).bind MainFile.codec := by
      rw [hw]
      cases found <;> rfl
    simp only [openMainFile] at hlookup
    rw [openedKind]
    by_cases hmain : flags &&& openMainDb ≠ 0
    · rw [if_pos hmain] at hlookup ⊢
      obtain rfl := Option.some.inj hlookup
      rfl
    rw [if_neg hmain] at hlookup ⊢
    by_cases htemp : flags &&& openTempDb ≠ 0
    · rw [if_pos htemp] at hlookup ⊢
      obtain rfl := Option.some.inj hlookup
      rfl
    rw [if_neg htemp] at hlookup ⊢
    by_cases hany : flags &&& openMainJournal ≠ 0 ∨ flags &&& openSubjournal ≠ 0 ∨
      flags &&& openWal ≠ 0
    · rw [if_pos hany, hfound] at hlookup
      obtain rfl := Option.some.inj hlookup
      rw [hjournal]
      split_ifs with hmj hsj hwal
      · rfl
      · rfl
      · rfl
      · exact absurd hany (by tauto)
    · rw [if_neg hany] at hlookup
      obtain rfl := Option.some.inj hlookup
      rw [if_neg (by tauto), if_neg (by tauto), if_neg (by tauto)]
      rfl

/-! ### The codecs of the files -/

/-- The codecs of the open main database files, as pointers. -/
def codecFiles (s : VfsState) (codec : ℕ → Option ℕ) (file : ℕ) : Option (Option ℕ) :=
  if file ∈ s.opened ∧ (s.files file).isMain then some (codec file) else none

variable {c c' : CodecState} {codec : ℕ → Option ℕ}

/-- **A file that is opened** is one of the files of the codecs if it is a main database file. -/
theorem codecFiles_mcVfsOpen (hc : c.files = s.codecFiles codec) (hfile : file ∉ s.opened)
    {F : ℕ → ℕ} {zName : Option ℕ} {flags : ℕ} {realOpen : Bool}
    (hopen : s.mcVfsOpen F v zName file flags realOpen = some t) :
    t.codecFiles (Function.update codec file none) =
      if realOpen = true ∧ flags &&& openMainDb ≠ 0 then (c.mcVfsOpen file).files else c.files := by
  obtain ⟨pMainDb, -, hfiles, hopened⟩ := mcVfsOpen_eq_some hopen
  have hclosed : c.files file = none := by
    rw [hc, codecFiles, if_neg fun h => hfile h.1]
  have hnew : (t.files file).isMain ↔ flags &&& openMainDb ≠ 0 := by
    rw [hfiles, Function.update_self, FileHandle.isMain]
  have hmem : file ∈ t.opened ↔ realOpen = true := by
    rw [hopened]
    cases realOpen with
    | false => exact iff_of_false hfile (by decide)
    | true => exact iff_of_true List.mem_cons_self rfl
  have hother : ∀ g, g ≠ file →
      t.codecFiles (Function.update codec file none) g = c.files g := by
    intro g hg
    have hmem : g ∈ t.opened ↔ g ∈ s.opened := by
      rw [hopened]
      split
      · exact List.mem_cons.trans (or_iff_right hg)
      · rfl
    rw [hc, codecFiles, codecFiles, hfiles, Function.update_of_ne hg, Function.update_of_ne hg]
    simp only [hmem]
  funext g
  by_cases hg : g = file
  · subst hg
    by_cases hboth : realOpen = true ∧ flags &&& openMainDb ≠ 0
    · rw [if_pos hboth, codecFiles, if_pos ⟨hmem.mpr hboth.1, hnew.mpr hboth.2⟩,
        Function.update_self, CodecState.mcVfsOpen, hclosed]
      simp
    · rw [if_neg hboth, hclosed, codecFiles, if_neg fun h => hboth ⟨hmem.mp h.1, hnew.mp h.2⟩]
  · rw [hother g hg]
    split
    · rw [CodecState.mcVfsOpen, hclosed]
      exact (Function.update_of_ne hg _ _).symm
    · rfl

/-- Freeing a codec takes it from no file. -/
theorem sqlite3mcCodecFree_files {cipherCount : ℕ} {pointer : Option ℕ}
    (h : c.sqlite3mcCodecFree cipherCount pointer = some c') : c'.files = c.files := by
  cases pointer with
  | none =>
    obtain rfl := Option.some.inj h
    rfl
  | some a =>
    obtain ⟨codec, -, h⟩ := Option.bind_eq_some_iff.mp h
    obtain ⟨heap, -, h⟩ := Option.bind_eq_some_iff.mp h
    obtain rfl := Option.some.inj h
    rfl

/-- **A file that is closed** is none of the files of the codecs any more. -/
theorem codecFiles_mcIoClose (h : Inv s) (hc : c.files = s.codecFiles codec)
    (hclose : s.mcIoClose file = some t) {cipherCount : ℕ}
    (hcodec : c.mcIoClose cipherCount file = some c') :
    t.codecFiles codec = c'.files := by
  have hfiles : t.files = s.files ∧ t.opened = s.opened.erase file := by
    obtain ⟨s', hs', rfl⟩ := Option.map_eq_some_iff.mp hclose
    by_cases hmain : (s.files file).isMain
    · rw [if_pos hmain] at hs'
      obtain ⟨vfs, -, hs'⟩ := Option.bind_eq_some_iff.mp hs'
      obtain ⟨⟨head, next⟩, -, rfl⟩ := Option.map_eq_some_iff.mp hs'
      exact ⟨rfl, rfl⟩
    · rw [if_neg hmain] at hs'
      obtain rfl := Option.some.inj hs'
      exact ⟨rfl, rfl⟩
  have hcodecs : c'.files = Function.update c.files file none := by
    rw [CodecState.mcIoClose] at hcodec
    rcases hpointer : c.files file with _ | pointer
    · rw [hpointer] at hcodec
      obtain rfl := Option.some.inj hcodec
      exact (Function.update_eq_self_iff.mpr hpointer.symm).symm
    · rw [hpointer] at hcodec
      exact sqlite3mcCodecFree_files hcodec
  funext g
  rw [hcodecs, codecFiles, hfiles.1, hfiles.2]
  by_cases hg : g = file
  · subst hg
    rw [Function.update_self, if_neg fun hmem => h.opened.not_mem_erase hmem.1]
  · rw [Function.update_of_ne hg, hc, codecFiles]
    simp only [List.mem_erase_of_ne hg]

end VfsState

end MultipleCiphers
