import MultipleCiphers.Lib.LinkedList
import MultipleCiphers.Lib.Transition
import MultipleCiphers.Lib.Heap
import MultipleCiphers.Vfs.Stack

/-!
# The main database files of a VFS and how long the VFS lives

A Multiple Ciphers VFS keeps a list of the main database files that are open, linked through the
files themselves. A journal finds the file of its database in it by the pointer to the name. A VFS
is destroyed if its list is empty.

Files of every kind refer to the VFS they were opened through, but only main database files are in
the list. So a VFS is destroyed under a temporary database, or under a journal that is closed after
its database, although a comment in `mcVfsDestroy` says that no file is referring to it then. What
the list is for holds in every run all the same, and no file loses its VFS in the runs in which a
VFS is only destroyed if it has an open main database file or no open file at all.

## The model

Memory is that of Lib/Heap for the VFSs and a buffer at every address for the files, as SQLite
provides it. The pointers `pMainNext` of the files are kept together, as the links of
Lib/LinkedList. `opened` says which files SQLite holds open, that is, has still to close. A pointer
to a VFS that is no longer there has no result, and neither has a walk that does not end.

A Multiple Ciphers VFS may have another one below it. It opens a file of its own in the second half
of the buffer then, before the file of the upper one is registered, and closes it after that has
been taken out, so that this is a file of the lower VFS like others, opened before and closed
after.

## Main results

* `registered_iff_guarded` — the runs in which no file loses its VFS.
* `destroyed_under_open_file` — a VFS that is destroyed under a temporary database.
-/

namespace MultipleCiphers

open Transition LinkedList

/-! ### Files and VFSs -/

/-- `SQLITE_OPEN_MAIN_DB`. -/
def openMainDb : ℕ := 0x100

/-- `SQLITE_OPEN_TEMP_DB`. -/
def openTempDb : ℕ := 0x200

/-- `SQLITE_OPEN_MAIN_JOURNAL`. -/
def openMainJournal : ℕ := 0x800

/-- `SQLITE_OPEN_SUBJOURNAL`. -/
def openSubjournal : ℕ := 0x2000

/-- `SQLITE_OPEN_WAL`. -/
def openWal : ℕ := 0x80000

/-- What a `struct sqlite3mc_file` says of the file. A name is a pointer. -/
structure FileHandle where
  pVfsMC : ℕ
  openFlags : ℕ
  zFileName : Option ℕ
  pMainDb : Option ℕ

/-- The file was opened as a main database file. -/
def FileHandle.isMain (file : FileHandle) : Prop := file.openFlags &&& openMainDb ≠ 0

instance (file : FileHandle) : Decidable file.isMain :=
  inferInstanceAs (Decidable (file.openFlags &&& openMainDb ≠ 0))

/-- A `sqlite3_vfs`, and the list of main files if it is the head of a `struct sqlite3mc_vfs`. -/
structure VfsRecord where
  zName : String
  /-- `xOpen == mcVfsOpen`. -/
  isMultipleCiphers : Bool
  pMain : Option ℕ

/-- A Multiple Ciphers VFS whose list is empty. -/
def VfsRecord.unused (vfs : VfsRecord) : Bool := vfs.isMultipleCiphers && vfs.pMain.isNone

theorem VfsRecord.not_unused_iff (vfs : VfsRecord) :
    (!vfs.unused) = true ↔ ¬ (vfs.isMultipleCiphers = true ∧ vfs.pMain = none) := by
  rw [Bool.not_eq_true', ← Bool.not_eq_true, unused, Bool.and_eq_true, Option.isNone_iff_eq_none]

/-- The VFSs and the files of a process. -/
structure VfsState where
  files : ℕ → FileHandle
  pMainNext : ℕ → Option ℕ
  /-- The files that are open. -/
  opened : List ℕ
  vfs : Heap VfsRecord
  /-- The registered VFSs, the default one first. -/
  vfsList : List ℕ

namespace VfsState

/-- More links than a list of open files has. -/
def links (s : VfsState) : ℕ := s.opened.length + 1

/-- `mcMainListAdd`. -/
def mcMainListAdd (s : VfsState) (file : ℕ) : Option VfsState :=
  (s.vfs.get (s.files file).pVfsMC).map fun vfs =>
    { s with
      pMainNext := Function.update s.pMainNext file vfs.pMain
      vfs := s.vfs.set (s.files file).pVfsMC { vfs with pMain := some file } }

/-- `mcMainListRemove`. -/
def mcMainListRemove (s : VfsState) (file : ℕ) : Option VfsState :=
  (s.vfs.get (s.files file).pVfsMC).bind fun vfs =>
    (removeNode s.pMainNext file s.links vfs.pMain).map fun (head, next) =>
      { s with
        pMainNext := next
        vfs := s.vfs.set (s.files file).pVfsMC { vfs with pMain := head } }

/-- `mcFindDbMainFileName`. -/
def mcFindDbMainFileName (s : VfsState) (mcVfs : ℕ) (zFileName : Option ℕ) :
    Option (Option ℕ) :=
  (s.vfs.get mcVfs).bind fun vfs =>
    findNode s.pMainNext (fun file => (s.files file).zFileName = zFileName) s.links vfs.pMain

/-- The file of the database that `mcVfsOpen` gives a journal. The flags are looked at in this
order. -/
def openMainFile (sqlite3FilenameDatabase : ℕ → ℕ) (s : VfsState) (mcVfs : ℕ) (zName : Option ℕ)
    (flags : ℕ) : Option (Option ℕ) :=
  match zName with
  | none => some none
  | some name =>
    if flags &&& openMainDb ≠ 0 then some none
    else if flags &&& openTempDb ≠ 0 then some none
    else if flags &&& openMainJournal ≠ 0 ∨ flags &&& openSubjournal ≠ 0 ∨
        flags &&& openWal ≠ 0 then
      s.mcFindDbMainFileName mcVfs (some (sqlite3FilenameDatabase name))
    else some none

/-- What `mcVfsOpen` writes to the file first. -/
def initFile (s : VfsState) (mcVfs : ℕ) (zName : Option ℕ) (file flags : ℕ) : VfsState :=
  { s with
    files := Function.update s.files file ⟨mcVfs, flags, zName, none⟩
    pMainNext := Function.update s.pMainNext file none }

/-- The database of a journal is found. -/
def setMainDb (s : VfsState) (file : ℕ) (pMainDb : Option ℕ) : VfsState :=
  { s with files := Function.update s.files file { s.files file with pMainDb := pMainDb } }

/-- The real open succeeded: main database files are registered. -/
def registerFile (s : VfsState) (file flags : ℕ) : Option VfsState :=
  let s' := { s with opened := file :: s.opened }
  if flags &&& openMainDb ≠ 0 then s'.mcMainListAdd file else some s'

/-- `mcVfsOpen`. The VFS below is asked to open the file when it has been initialised, and may
fail. -/
def mcVfsOpen (sqlite3FilenameDatabase : ℕ → ℕ) (s : VfsState) (mcVfs : ℕ) (zName : Option ℕ)
    (file flags : ℕ) (realOpen : Bool) : Option VfsState :=
  let s' := s.initFile mcVfs zName file flags
  (openMainFile sqlite3FilenameDatabase s' mcVfs zName flags).bind fun pMainDb =>
    (s.vfs.get mcVfs).bind fun _ =>
      let s'' := s'.setMainDb file pMainDb
      if realOpen then s''.registerFile file flags else some s''

/-- `mcIoClose`. The codec of the file is freed here too. -/
def mcIoClose (s : VfsState) (file : ℕ) : Option VfsState :=
  (if (s.files file).isMain then s.mcMainListRemove file else some s).map fun s' =>
    { s' with opened := s'.opened.erase file }

/-- `sqlite3_vfs_find`. -/
def sqlite3VfsFind (s : VfsState) (zVfs : Option String) : List ℕ → Option (Option ℕ)
  | [] => some none
  | v :: vs =>
    match zVfs with
    | none => some (some v)
    | some z =>
      (s.vfs.get v).bind fun vfs =>
        if vfs.zName = z then some (some v) else s.sqlite3VfsFind zVfs vs

/-- `mcVfsDestroy`. -/
def mcVfsDestroy (s : VfsState) : Option ℕ → Option VfsState
  | none => some s
  | some v =>
    (s.vfs.get v).map fun vfs =>
      -- destroy the VFS instance only if no file is referring to it any longer
      if vfs.isMultipleCiphers ∧ vfs.pMain = none then
        { s with vfs := s.vfs.free v, vfsList := s.vfsList.erase v }
      else s

/-- `sqlite3mc_vfs_destroy`. -/
def sqlite3mcVfsDestroy (s : VfsState) (zName : Option String) : Option VfsState :=
  (s.sqlite3VfsFind zName s.vfsList).bind s.mcVfsDestroy

/-- `sqlite3mc_vfs_create`. Memory, the mutex and the registration are `granted` or not. -/
def sqlite3mcVfsCreate (s : VfsState) (zVfsReal : Option String) (makeDefault granted : Bool) :
    Option VfsState :=
  (s.sqlite3VfsFind zVfsReal s.vfsList).bind fun
    | none => some s
    | some v =>
      (s.vfs.get v).map fun vfsReal =>
        if granted then
          { s with
            vfs := s.vfs.alloc ⟨"multipleciphers-" ++ vfsReal.zName, true, none⟩
            vfsList := sqlite3VfsRegister s.vfsList s.vfs.next makeDefault }
        else s

/-- `sqlite3mc_vfs_shutdown`. The successor of a VFS is read before the VFS is destroyed, and its
removal from the list changes no later successor. -/
def sqlite3mcVfsShutdown (s : VfsState) : Option VfsState :=
  s.vfsList.foldlM (fun s v => s.mcVfsDestroy (some v)) s

/-! ### Runs -/

/-- What may happen to the files and the VFSs. -/
inductive Event where
  | xOpen (mcVfs : ℕ) (zName : Option ℕ) (file flags : ℕ) (realOpen : Bool)
  | xClose (file : ℕ)
  | vfsCreate (zVfsReal : Option String) (makeDefault granted : Bool)
  | vfsDestroy (zName : Option String)
  | vfsShutdown

/-- What an event makes of the state. -/
def exec (sqlite3FilenameDatabase : ℕ → ℕ) (s : VfsState) : Event → Option VfsState
  | .xOpen mcVfs zName file flags realOpen =>
    s.mcVfsOpen sqlite3FilenameDatabase mcVfs zName file flags realOpen
  | .xClose file => s.mcIoClose file
  | .vfsCreate zVfsReal makeDefault granted => s.sqlite3mcVfsCreate zVfsReal makeDefault granted
  | .vfsDestroy zName => s.sqlite3mcVfsDestroy zName
  | .vfsShutdown => s.sqlite3mcVfsShutdown

/-- A file is opened through a Multiple Ciphers VFS, into a buffer that is free; an open one is
closed. -/
def Legal (s : VfsState) : Event → Prop
  | .xOpen mcVfs _ file _ _ =>
    file ∉ s.opened ∧ ∃ vfs, s.vfs.get mcVfs = some vfs ∧ vfs.isMultipleCiphers = true
  | .xClose file => file ∈ s.opened
  | _ => True

/-- A step that SQLite or the application may take. -/
def Step (sqlite3FilenameDatabase : ℕ → ℕ) (s : VfsState) (e : Event) (t : VfsState) : Prop :=
  Legal s e ∧ exec sqlite3FilenameDatabase s e = some t

/-- No file is open, and the registered VFSs are there. -/
structure Initial (s : VfsState) : Prop where
  opened : s.opened = []
  pMain : ∀ v vfs, s.vfs.get v = some vfs → vfs.pMain = none
  vfsList : s.vfsList.Nodup
  alive : ∀ v ∈ s.vfsList, ∃ vfs, s.vfs.get v = some vfs

/-! ### What is expected -/

/-- The file is an open main database file of the VFS. -/
def IsMainFile (s : VfsState) (v file : ℕ) : Prop :=
  file ∈ s.opened ∧ (s.files file).pVfsMC = v ∧ (s.files file).isMain

/-- The list of the VFS is these files, the open main database files, each once. -/
structure MainList (s : VfsState) (v : ℕ) (vfs : VfsRecord) (files : List ℕ) : Prop where
  linked : Linked s.pMainNext vfs.pMain files
  nodup : files.Nodup
  mem : ∀ file, file ∈ files ↔ s.IsMainFile v file

/-- The lists of main files are right, and so are the answers to a name. -/
structure Listed (s : VfsState) : Prop where
  mainList : ∀ v vfs, s.vfs.get v = some vfs → ∃ files, s.MainList v vfs files
  lookup : ∀ v vfs zFileName, s.vfs.get v = some vfs →
    ∃ r, s.mcFindDbMainFileName v zFileName = some r ∧
      (∀ file, r = some file → s.IsMainFile v file ∧ (s.files file).zFileName = zFileName) ∧
      (r = none → ∀ file, s.IsMainFile v file → (s.files file).zFileName ≠ zFileName)

/-- No file has lost its VFS. -/
def Alive (s : VfsState) : Prop :=
  ∀ file ∈ s.opened, ∃ vfs, s.vfs.get (s.files file).pVfsMC = some vfs

/-- A VFS that files are open through has an open main database file. -/
def HasMainFile (s : VfsState) (v : ℕ) : Prop :=
  (∃ file ∈ s.opened, (s.files file).pVfsMC = v) → ∃ file, s.IsMainFile v file

/-- A VFS is only destroyed if it has an open main database file, or no open file. -/
def Guard (s : VfsState) : Event → Prop
  | .vfsDestroy zName => ∀ v, s.sqlite3VfsFind zName s.vfsList = some (some v) → s.HasMainFile v
  | .vfsShutdown => ∀ v ∈ s.vfsList, s.HasMainFile v
  | _ => True

/-! ### The invariant -/

/-- What holds in every state. -/
structure Inv (s : VfsState) : Prop where
  opened : s.opened.Nodup
  mainList : ∀ v vfs, s.vfs.get v = some vfs → ∃ files, s.MainList v vfs files
  mainAlive : ∀ v file, s.IsMainFile v file → ∃ vfs, s.vfs.get v = some vfs
  isMultipleCiphers : ∀ file ∈ s.opened, ∀ vfs, s.vfs.get (s.files file).pVfsMC = some vfs →
    vfs.isMultipleCiphers = true
  known : ∀ file ∈ s.opened, (s.files file).pVfsMC < s.vfs.next
  vfsList : s.vfsList.Nodup
  vfsAlive : ∀ v ∈ s.vfsList, ∃ vfs, s.vfs.get v = some vfs

variable {s t : VfsState} {v file : ℕ} {vfs : VfsRecord} {files : List ℕ}

theorem Initial.inv (h : Initial s) : Inv s := by
  refine ⟨?_, ?_, ?_, ?_, ?_, h.vfsList, h.alive⟩
  · rw [h.opened]
    exact List.nodup_nil
  · intro v vfs hv
    refine ⟨[], h.pMain v vfs hv, List.nodup_nil, fun file => ?_⟩
    simp [IsMainFile, h.opened]
  · rintro v file ⟨hopen, -⟩
    simp [h.opened] at hopen
  · simp [h.opened]
  · simp [h.opened]

theorem Initial.alive_files (h : Initial s) : Alive s := by
  intro file hopen
  simp [h.opened] at hopen

/-- A list of main files has an end in reach. -/
theorem MainList.length_lt (h : s.MainList v vfs files) : files.length < s.links := by
  have hsub : files ⊆ s.opened := fun file hfile => ((h.mem file).mp hfile).1
  exact Nat.lt_succ_of_le (List.subperm_of_subset h.nodup hsub).length_le

theorem MainList.find (h : s.MainList v vfs files) (hv : s.vfs.get v = some vfs)
    (zFileName : Option ℕ) :
    s.mcFindDbMainFileName v zFileName =
      some (files.find? fun file => (s.files file).zFileName = zFileName) := by
  rw [mcFindDbMainFileName, hv, Option.bind_some]
  exact h.linked.findNode _ h.length_lt

/-- A name is looked up among the open main database files. -/
theorem Inv.listed (h : Inv s) : Listed s := by
  refine ⟨h.mainList, fun v vfs zFileName hv => ?_⟩
  obtain ⟨files, hfiles⟩ := h.mainList v vfs hv
  refine ⟨_, hfiles.find hv zFileName, ?_, ?_⟩
  · intro file hfind
    have hname := List.find?_some hfind
    exact ⟨(hfiles.mem file).mp (List.mem_of_find?_eq_some hfind), by simpa using hname⟩
  · intro hfind file hmain
    have hname := List.find?_eq_none.mp hfind file ((hfiles.mem file).mpr hmain)
    simpa using hname

/-- A list is empty if and only if the VFS has no open main database file. -/
theorem MainList.pMain_eq_none (h : s.MainList v vfs files) :
    vfs.pMain = none ↔ ∀ file, ¬ s.IsMainFile v file := by
  constructor
  · intro hnone file hmain
    have hlinked := h.linked
    rw [hnone] at hlinked
    cases files with
    | nil => exact absurd ((h.mem file).mpr hmain) List.not_mem_nil
    | cons a files => exact absurd hlinked.1 (by simp)
  · intro hno
    have hlinked := h.linked
    cases files with
    | nil => exact hlinked
    | cons a files => exact absurd ((h.mem a).mp List.mem_cons_self) (hno a)

/-! ### Files that are not open -/

/-- What is written to a file that is not open does not matter. -/
theorem MainList.frame (h : s.MainList v vfs files) (hopened : t.opened = s.opened)
    (hfiles : ∀ file ∈ s.opened, t.files file = s.files file)
    (hnext : ∀ file ∈ s.opened, t.pMainNext file = s.pMainNext file) :
    t.MainList v vfs files := by
  have hmem : ∀ file, t.IsMainFile v file ↔ s.IsMainFile v file := by
    intro file
    unfold IsMainFile
    rw [hopened]
    refine and_congr_right fun hopen => ?_
    rw [hfiles file hopen]
  refine ⟨h.linked.congr fun file hfile => ?_, h.nodup, fun file => ?_⟩
  · exact hnext file ((h.mem file).mp hfile).1
  · rw [hmem, h.mem]

/-- The same for the invariant. -/
theorem Inv.frame (h : Inv s) (hopened : t.opened = s.opened)
    (hfiles : ∀ file ∈ s.opened, t.files file = s.files file)
    (hnext : ∀ file ∈ s.opened, t.pMainNext file = s.pMainNext file) (hvfs : t.vfs = s.vfs)
    (hlist : t.vfsList = s.vfsList) : Inv t := by
  constructor
  · rw [hopened]
    exact h.opened
  · intro v vfs hv
    rw [hvfs] at hv
    obtain ⟨files, hmain⟩ := h.mainList v vfs hv
    exact ⟨files, hmain.frame hopened hfiles hnext⟩
  · rintro v file ⟨hopen, hpVfs, hmain⟩
    rw [hopened] at hopen
    rw [hfiles file hopen] at hpVfs hmain
    rw [hvfs]
    exact h.mainAlive v file ⟨hopen, hpVfs, hmain⟩
  · intro file hopen
    rw [hopened] at hopen
    rw [hfiles file hopen, hvfs]
    exact h.isMultipleCiphers file hopen
  · intro file hopen
    rw [hopened] at hopen
    rw [hfiles file hopen, hvfs]
    exact h.known file hopen
  · rw [hlist]
    exact h.vfsList
  · rw [hlist, hvfs]
    exact h.vfsAlive

theorem Alive.frame (h : Alive s) (hopened : t.opened = s.opened)
    (hfiles : ∀ file ∈ s.opened, t.files file = s.files file) (hvfs : t.vfs = s.vfs) :
    Alive t := by
  intro file hopen
  rw [hopened] at hopen
  rw [hfiles file hopen, hvfs]
  exact h file hopen

/-! ### Opening and closing -/

/-- The VFSs are the same except for their lists. -/
structure SameVfs (s t : VfsState) : Prop where
  next : t.vfs.next = s.vfs.next
  kind : ∀ v, (t.vfs.get v).map VfsRecord.isMultipleCiphers =
    (s.vfs.get v).map VfsRecord.isMultipleCiphers
  vfsList : t.vfsList = s.vfsList

theorem SameVfs.alive (h : SameVfs s t) (v : ℕ) :
    (∃ vfs, t.vfs.get v = some vfs) ↔ ∃ vfs, s.vfs.get v = some vfs := by
  have hsome := congrArg Option.isSome (h.kind v)
  simp only [Option.isSome_map] at hsome
  rw [← Option.isSome_iff_exists, ← Option.isSome_iff_exists, hsome]

theorem SameVfs.set {t' : VfsState} (hv : s.vfs.get v = some vfs) (p : Option ℕ)
    (ht : t'.vfs = s.vfs.set v { vfs with pMain := p }) (hlist : t'.vfsList = s.vfsList) :
    SameVfs s t' := by
  refine ⟨by rw [ht]; rfl, fun w => ?_, hlist⟩
  rw [ht]
  by_cases hw : w = v
  · rw [hw, Heap.get_set_self hv, hv, Option.map_some, Option.map_some]
  · rw [Heap.get_set_of_ne hw]

/-- The files that are open in `t` are open in `s`, or refer to a Multiple Ciphers VFS. -/
def OpenedFrom (s t : VfsState) : Prop :=
  ∀ file ∈ t.opened, file ∈ s.opened ∨
    ∃ vfs, s.vfs.get (s.files file).pVfsMC = some vfs ∧ vfs.isMultipleCiphers = true

theorem lt_next (hv : s.vfs.get v = some vfs) : v < s.vfs.next := by
  by_contra hlt
  rw [s.vfs.beyond v (Nat.le_of_not_lt hlt)] at hv
  cases hv

/-- What is left to show where files are opened and closed: the lists. -/
theorem Inv.of_lists (h : Inv s) (hsame : SameVfs s t) (hfiles : t.files = s.files)
    (hfrom : OpenedFrom s t) (hopened : t.opened.Nodup)
    (hlists : ∀ v vfs, t.vfs.get v = some vfs → ∃ files, t.MainList v vfs files) : Inv t := by
  refine ⟨hopened, hlists, ?_, ?_, ?_, ?_, ?_⟩
  · rintro v file ⟨hopen, hpVfs, hmain⟩
    rw [hsame.alive]
    rw [hfiles] at hpVfs hmain
    rcases hfrom file hopen with hold | ⟨vfs, hv, -⟩
    · exact h.mainAlive v file ⟨hold, hpVfs, hmain⟩
    · exact ⟨vfs, hpVfs ▸ hv⟩
  · intro file hopen vfs hv
    rw [hfiles] at hv
    have hkind := hsame.kind (s.files file).pVfsMC
    rw [hv, Option.map_some] at hkind
    rcases hfrom file hopen with hold | ⟨vfs', hv', hmc⟩
    · obtain ⟨vfs', hv', hkind'⟩ := Option.map_eq_some_iff.mp hkind.symm
      rw [← hkind']
      exact h.isMultipleCiphers file hold vfs' hv'
    · rw [hv', Option.map_some, hmc] at hkind
      exact Option.some_inj.mp hkind
  · intro file hopen
    rw [hfiles, hsame.next]
    rcases hfrom file hopen with hold | ⟨vfs, hv, -⟩
    · exact h.known file hold
    · exact lt_next hv
  · rw [hsame.vfsList]
    exact h.vfsList
  · intro v hv
    rw [hsame.vfsList] at hv
    exact (hsame.alive v).mpr (h.vfsAlive v hv)

theorem Alive.of_lists (h : Alive s) (hsame : SameVfs s t) (hfiles : t.files = s.files)
    (hfrom : OpenedFrom s t) : Alive t := by
  intro file hopen
  rw [hfiles, hsame.alive]
  rcases hfrom file hopen with hold | ⟨vfs, hv, -⟩
  · exact h file hold
  · exact ⟨vfs, hv⟩

/-- A file that is not a main database file is in no list. -/
theorem MainList.other (h : s.MainList v vfs files) (hmain : ¬ (s.files file).isMain)
    (hfiles : t.files = s.files) (hnext : t.pMainNext = s.pMainNext)
    (hopened : ∀ g, g ≠ file → (g ∈ t.opened ↔ g ∈ s.opened)) : t.MainList v vfs files := by
  refine ⟨by rw [hnext]; exact h.linked, h.nodup, fun g => ?_⟩
  rw [h.mem, IsMainFile, IsMainFile, hfiles]
  by_cases hg : g = file
  · rw [hg]
    exact ⟨fun hold => absurd hold.2.2 hmain, fun hnew => absurd hnew.2.2 hmain⟩
  · rw [hopened g hg]

/-- A file is in the list of one VFS. -/
theorem IsMainFile.unique {w : ℕ} (h : s.IsMainFile v file) (h' : s.IsMainFile w file) : v = w :=
  h.2.1.symm.trans h'.2.1

/-- **Opening** a main database file. -/
theorem Inv.mcMainListAdd (h : Inv s) (hfile : file ∉ s.opened)
    (hv : s.vfs.get (s.files file).pVfsMC = some vfs) (hmc : vfs.isMultipleCiphers = true)
    (hmain : (s.files file).isMain) :
    ∃ t, VfsState.mcMainListAdd { s with opened := file :: s.opened } file = some t ∧ Inv t ∧
      SameVfs s t ∧ t.files = s.files ∧ OpenedFrom s t := by
  obtain ⟨files, hlist⟩ := h.mainList _ vfs hv
  have hnew : file ∉ files := fun hmem => hfile ((hlist.mem file).mp hmem).1
  rw [VfsState.mcMainListAdd]
  simp only [hv, Option.map_some]
  have hsame : SameVfs s { s with
      opened := file :: s.opened
      pMainNext := Function.update s.pMainNext file vfs.pMain
      vfs := s.vfs.set (s.files file).pVfsMC { vfs with pMain := some file } } :=
    SameVfs.set hv (some file) rfl rfl
  have hfrom : OpenedFrom s { s with
      opened := file :: s.opened
      pMainNext := Function.update s.pMainNext file vfs.pMain
      vfs := s.vfs.set (s.files file).pVfsMC { vfs with pMain := some file } } := by
    intro g hg
    rcases List.mem_cons.mp hg with rfl | hg
    · exact Or.inr ⟨vfs, hv, hmc⟩
    · exact Or.inl hg
  refine ⟨_, rfl, ?_, hsame, rfl, hfrom⟩
  refine h.of_lists hsame rfl hfrom (List.nodup_cons.mpr ⟨hfile, h.opened⟩) ?_
  intro w vfs' hw
  by_cases hvw : w = (s.files file).pVfsMC
  · subst hvw
    rw [Heap.get_set_self hv] at hw
    obtain rfl := Option.some_inj.mp hw
    refine ⟨file :: files, hlist.linked.push hnew, List.nodup_cons.mpr ⟨hnew, hlist.nodup⟩, ?_⟩
    intro g
    rw [List.mem_cons, hlist.mem, IsMainFile, IsMainFile, List.mem_cons, or_and_right]
    refine or_congr_left ⟨?_, And.left⟩
    rintro rfl
    exact ⟨rfl, rfl, hmain⟩
  · -- the other lists do not have the file
    rw [Heap.get_set_of_ne hvw] at hw
    obtain ⟨files', hlist'⟩ := h.mainList w vfs' hw
    refine ⟨files', hlist'.linked.congr fun g hg => Function.update_of_ne ?_ _ _, hlist'.nodup, ?_⟩
    · rintro rfl
      exact hfile ((hlist'.mem g).mp hg).1
    · intro g
      rw [hlist'.mem, IsMainFile, IsMainFile, List.mem_cons, or_and_right]
      refine ⟨Or.inr, ?_⟩
      rintro (⟨rfl, hpVfs, -⟩ | hold)
      · exact absurd hpVfs.symm hvw
      · exact hold

/-- **Closing** a main database file. -/
theorem Inv.mcMainListRemove (h : Inv s) {v : ℕ} (hopen : s.IsMainFile v file) :
    ∃ t, s.mcMainListRemove file = some t ∧ Inv { t with opened := t.opened.erase file } ∧
      SameVfs s t ∧ t.files = s.files ∧ t.opened = s.opened := by
  obtain ⟨vfs, hv⟩ := h.mainAlive v file hopen
  obtain ⟨files, hlist⟩ := h.mainList v vfs hv
  obtain ⟨head, next, hremove, hlinked, -, hframe⟩ :=
    hlist.linked.removeNode hlist.nodup ((hlist.mem file).mpr hopen) hlist.length_lt
  have hpVfs : (s.files file).pVfsMC = v := hopen.2.1
  rw [VfsState.mcMainListRemove, hpVfs, hv, Option.bind_some, hremove, Option.map_some]
  have hsame : SameVfs s { s with
      pMainNext := next, vfs := s.vfs.set v { vfs with pMain := head } } :=
    SameVfs.set hv head rfl rfl
  refine ⟨_, rfl, ?_, hsame, rfl, rfl⟩
  have hstay : ∀ w g, VfsState.IsMainFile { s with
        opened := s.opened.erase file, pMainNext := next,
        vfs := s.vfs.set v { vfs with pMain := head } } w g ↔ g ≠ file ∧ s.IsMainFile w g := by
    intro w g
    rw [IsMainFile, IsMainFile, h.opened.mem_erase_iff, and_assoc]
  refine h.of_lists ⟨hsame.next, hsame.kind, hsame.vfsList⟩ rfl ?_ (h.opened.erase file) ?_
  · exact fun g hg => Or.inl (List.mem_of_mem_erase hg)
  · intro w vfs' hw
    by_cases hvw : w = v
    · subst hvw
      rw [Heap.get_set_self hv] at hw
      obtain rfl := Option.some_inj.mp hw
      refine ⟨files.erase file, hlinked, hlist.nodup.erase file, fun g => ?_⟩
      rw [hstay, hlist.nodup.mem_erase_iff, hlist.mem]
    · -- no pointer of another list has changed
      rw [Heap.get_set_of_ne hvw] at hw
      obtain ⟨files', hlist'⟩ := h.mainList w vfs' hw
      refine ⟨files', hlist'.linked.congr fun g hg => hframe g ?_, hlist'.nodup, fun g => ?_⟩
      · intro hmem
        exact hvw (((hlist'.mem g).mp hg).unique ((hlist.mem g).mp hmem))
      · rw [hstay, hlist'.mem]
        refine ⟨fun hold => ⟨?_, hold⟩, And.right⟩
        rintro rfl
        exact hvw (hold.unique hopen)

/-- A file is open from now on, in its list if it is a main database file. -/
theorem Inv.registerFile (h : Inv s) (hfile : file ∉ s.opened)
    (hv : s.vfs.get (s.files file).pVfsMC = some vfs) (hmc : vfs.isMultipleCiphers = true) :
    ∃ t, s.registerFile file (s.files file).openFlags = some t ∧ Inv t ∧
      (Alive s → Alive t) := by
  rw [VfsState.registerFile]
  change ∃ t, (if (s.files file).isMain then
    VfsState.mcMainListAdd { s with opened := file :: s.opened } file
    else some { s with opened := file :: s.opened }) = some t ∧ _
  by_cases hmain : (s.files file).isMain
  · obtain ⟨t, ht, hinv, hsame, hfiles, hfrom⟩ := h.mcMainListAdd hfile hv hmc hmain
    rw [if_pos hmain]
    exact ⟨t, ht, hinv, fun ha => ha.of_lists hsame hfiles hfrom⟩
  · rw [if_neg hmain]
    have hsame : SameVfs s { s with opened := file :: s.opened } := ⟨rfl, fun _ => rfl, rfl⟩
    have hfrom : OpenedFrom s { s with opened := file :: s.opened } := by
      intro g hg
      rcases List.mem_cons.mp hg with rfl | hg
      · exact Or.inr ⟨vfs, hv, hmc⟩
      · exact Or.inl hg
    refine ⟨_, rfl, ?_, fun ha => ha.of_lists hsame rfl hfrom⟩
    refine h.of_lists hsame rfl hfrom (List.nodup_cons.mpr ⟨hfile, h.opened⟩) ?_
    intro w vfs' hw
    obtain ⟨files, hlist⟩ := h.mainList w vfs' hw
    exact ⟨files, hlist.other hmain rfl rfl fun g hg => by simp [hg]⟩

/-- The lookup for a journal has an answer. -/
theorem Listed.openMainFile (h : Listed s) (F : ℕ → ℕ) (hv : s.vfs.get v = some vfs)
    (zName : Option ℕ) (flags : ℕ) : ∃ r, VfsState.openMainFile F s v zName flags = some r := by
  unfold VfsState.openMainFile
  cases zName with
  | none => exact ⟨none, rfl⟩
  | some name =>
    obtain ⟨r, hr, -⟩ := h.lookup v vfs (some (F name)) hv
    dsimp only
    split_ifs
    · exact ⟨none, rfl⟩
    · exact ⟨none, rfl⟩
    · exact ⟨r, hr⟩
    · exact ⟨none, rfl⟩

/-- **`mcVfsOpen`** on a file that is not open. -/
theorem Inv.mcVfsOpen (h : Inv s) (F : ℕ → ℕ) (zName : Option ℕ) (flags : ℕ) (realOpen : Bool)
    (hfile : file ∉ s.opened) (hv : s.vfs.get v = some vfs)
    (hmc : vfs.isMultipleCiphers = true) :
    ∃ t, s.mcVfsOpen F v zName file flags realOpen = some t ∧ Inv t ∧ (Alive s → Alive t) := by
  have hne : ∀ g ∈ s.opened, g ≠ file := by
    rintro g hg rfl
    exact hfile hg
  have hinit : Inv (s.initFile v zName file flags) :=
    h.frame rfl (fun g hg => Function.update_of_ne (hne g hg) _ _)
      (fun g hg => Function.update_of_ne (hne g hg) _ _) rfl rfl
  obtain ⟨pMainDb, hlookup⟩ := hinit.listed.openMainFile F hv zName flags
  have hset : Inv ((s.initFile v zName file flags).setMainDb file pMainDb) :=
    hinit.frame rfl (fun g hg => Function.update_of_ne (hne g hg) _ _) (fun _ _ => rfl) rfl rfl
  have halive : Alive s → Alive ((s.initFile v zName file flags).setMainDb file pMainDb) := by
    refine fun ha => ha.frame rfl (fun g hg => ?_) rfl
    exact (Function.update_of_ne (hne g hg) _ _).trans (Function.update_of_ne (hne g hg) _ _)
  have hhandle : ((s.initFile v zName file flags).setMainDb file pMainDb).files file =
      ⟨v, flags, zName, pMainDb⟩ := by
    simp [setMainDb, initFile]
  rw [VfsState.mcVfsOpen]
  dsimp only
  rw [hlookup, Option.bind_some, hv, Option.bind_some]
  cases realOpen with
  | false => exact ⟨_, rfl, hset, halive⟩
  | true =>
    obtain ⟨t, ht, hinv, ha⟩ := hset.registerFile hfile (by rw [hhandle]; exact hv) hmc
    rw [hhandle] at ht
    exact ⟨t, ht, hinv, fun hs => ha (halive hs)⟩

/-- **`mcIoClose`** on an open file. -/
theorem Inv.mcIoClose (h : Inv s) (hfile : file ∈ s.opened) :
    ∃ t, s.mcIoClose file = some t ∧ Inv t ∧ (Alive s → Alive t) := by
  rw [VfsState.mcIoClose]
  by_cases hmain : (s.files file).isMain
  · obtain ⟨t, ht, hinv, hsame, hfiles, hopened⟩ := h.mcMainListRemove ⟨hfile, rfl, hmain⟩
    rw [if_pos hmain, ht, Option.map_some]
    refine ⟨_, rfl, hinv, fun ha => ha.of_lists ⟨hsame.next, hsame.kind, hsame.vfsList⟩ hfiles ?_⟩
    intro g hg
    rw [← hopened]
    exact Or.inl (List.mem_of_mem_erase hg)
  · rw [if_neg hmain, Option.map_some]
    have hsame : SameVfs s { s with opened := s.opened.erase file } := ⟨rfl, fun _ => rfl, rfl⟩
    have hfrom : OpenedFrom s { s with opened := s.opened.erase file } :=
      fun g hg => Or.inl (List.mem_of_mem_erase hg)
    refine ⟨_, rfl, ?_, fun ha => ha.of_lists hsame rfl hfrom⟩
    refine h.of_lists hsame rfl hfrom (h.opened.erase file) ?_
    intro w vfs' hw
    obtain ⟨files, hlist⟩ := h.mainList w vfs' hw
    exact ⟨files, hlist.other hmain rfl rfl fun g hg => List.mem_erase_of_ne hg⟩

/-! ### Destroying and creating -/

/-- What `mcVfsDestroy` on these VFSs comes to. -/
structure Destroyed (s : VfsState) (vs : List ℕ) (t : VfsState) : Prop where
  files : t.files = s.files
  pMainNext : t.pMainNext = s.pMainNext
  opened : t.opened = s.opened
  next : t.vfs.next = s.vfs.next
  get : ∀ v, t.vfs.get v =
    if v ∈ vs then (s.vfs.get v).filter fun vfs => !vfs.unused else s.vfs.get v
  vfsList : t.vfsList.Sublist s.vfsList
  vfsAlive : ∀ v ∈ t.vfsList, ∃ vfs, t.vfs.get v = some vfs

theorem Inv.destroyed_nil (h : Inv s) : Destroyed s [] s :=
  ⟨rfl, rfl, rfl, rfl, fun v => by rw [if_neg List.not_mem_nil], List.Sublist.refl _, h.vfsAlive⟩

/-- **`mcVfsDestroy`** on a VFS that is there. -/
theorem Inv.mcVfsDestroy (h : Inv s) (hv : s.vfs.get v = some vfs) :
    ∃ t, s.mcVfsDestroy (some v) = some t ∧ Destroyed s [v] t := by
  rw [VfsState.mcVfsDestroy, hv, Option.map_some]
  by_cases hunused : vfs.isMultipleCiphers ∧ vfs.pMain = none
  · rw [if_pos hunused]
    refine ⟨_, rfl, rfl, rfl, rfl, rfl, fun w => ?_, List.erase_sublist, fun w hw => ?_⟩
    · simp only [List.mem_singleton]
      by_cases hw : w = v
      · rw [if_pos hw, hw, Heap.get_free_self, hv, Option.filter_some, if_neg]
        exact fun hused => vfs.not_unused_iff.mp hused hunused
      · rw [if_neg hw, Heap.get_free_of_ne hw]
    · obtain ⟨hne, hmem⟩ := (h.vfsList.mem_erase_iff).mp hw
      rw [Heap.get_free_of_ne hne]
      exact h.vfsAlive w hmem
  · rw [if_neg hunused]
    refine ⟨_, rfl, rfl, rfl, rfl, rfl, fun w => ?_, List.Sublist.refl _, h.vfsAlive⟩
    simp only [List.mem_singleton]
    by_cases hw : w = v
    · rw [if_pos hw, hw, hv, Option.filter_some, if_pos (vfs.not_unused_iff.mpr hunused)]
    · rw [if_neg hw]

/-- A VFS that is still there is one that was there. -/
theorem Destroyed.get_of_some {vs : List ℕ} (h : Destroyed s vs t) (hv : t.vfs.get v = some vfs) :
    s.vfs.get v = some vfs := by
  rw [h.get] at hv
  split_ifs at hv
  · exact (Option.filter_eq_some_iff.mp hv).1
  · exact hv

theorem Destroyed.isMainFile {vs : List ℕ} (h : Destroyed s vs t) (v file : ℕ) :
    t.IsMainFile v file ↔ s.IsMainFile v file := by
  rw [IsMainFile, IsMainFile, h.files, h.opened]

/-- A VFS with an open main database file is not destroyed. -/
theorem Inv.destroyed_keeps {vs : List ℕ} (h : Inv s) (hd : Destroyed s vs t)
    (hmain : s.IsMainFile v file) : ∃ vfs, t.vfs.get v = some vfs := by
  obtain ⟨vfs, hv⟩ := h.mainAlive v file hmain
  obtain ⟨files, hlist⟩ := h.mainList v vfs hv
  have hpMain : vfs.pMain ≠ none := fun hnone => hlist.pMain_eq_none.mp hnone file hmain
  have hused : (!vfs.unused) = true :=
    vfs.not_unused_iff.mpr fun hunused => hpMain hunused.2
  refine ⟨vfs, ?_⟩
  rw [hd.get, hv, Option.filter_some, if_pos hused, ite_self]

/-- **Destroying** keeps the invariant. -/
theorem Inv.destroyed {vs : List ℕ} (h : Inv s) (hd : Destroyed s vs t) : Inv t := by
  refine ⟨?_, ?_, ?_, ?_, ?_, h.vfsList.sublist hd.vfsList, hd.vfsAlive⟩
  · rw [hd.opened]
    exact h.opened
  · intro v vfs hv
    obtain ⟨files, hlist⟩ := h.mainList v vfs (hd.get_of_some hv)
    refine ⟨files, hlist.frame hd.opened (fun g _ => ?_) fun g _ => ?_⟩
    · rw [hd.files]
    · rw [hd.pMainNext]
  · intro v file hmain
    exact h.destroyed_keeps hd ((hd.isMainFile v file).mp hmain)
  · intro file hopen vfs hv
    rw [hd.opened] at hopen
    rw [hd.files] at hv
    exact h.isMultipleCiphers file hopen vfs (hd.get_of_some hv)
  · intro file hopen
    rw [hd.opened] at hopen
    rw [hd.files, hd.next]
    exact h.known file hopen

/-- **No file loses its VFS** if and only if each VFS that is asked for has an open main database
file, or no open file. -/
theorem Inv.alive_destroyed_iff {vs : List ℕ} (h : Inv s) (hs : Alive s) (hd : Destroyed s vs t) :
    Alive t ↔ ∀ v ∈ vs, s.HasMainFile v := by
  constructor
  · rintro ht v hv ⟨file, hopen, rfl⟩
    obtain ⟨vfs, hvfs⟩ := ht file (by rw [hd.opened]; exact hopen)
    rw [hd.files] at hvfs
    have hold := hd.get_of_some hvfs
    rw [hd.get, if_pos hv] at hvfs
    have hused := (Option.filter_eq_some_iff.mp hvfs).2
    have hmc := h.isMultipleCiphers file hopen vfs hold
    obtain ⟨files, hlist⟩ := h.mainList _ vfs hold
    by_contra hnone
    have hpMain := hlist.pMain_eq_none.mpr (not_exists.mp hnone)
    exact vfs.not_unused_iff.mp hused ⟨hmc, hpMain⟩
  · intro hguard file hopen
    rw [hd.opened] at hopen
    rw [hd.files]
    by_cases hv : (s.files file).pVfsMC ∈ vs
    · obtain ⟨main, hmain⟩ := hguard _ hv ⟨file, hopen, rfl⟩
      exact h.destroyed_keeps hd hmain
    · rw [hd.get, if_neg hv]
      exact hs file hopen

/-- `sqlite3_vfs_find` finds a VFS that is there, or none. -/
theorem Inv.sqlite3VfsFind (h : Inv s) (zVfs : Option String) {vs : List ℕ} (hvs : vs ⊆ s.vfsList) :
    ∃ r, s.sqlite3VfsFind zVfs vs = some r ∧ ∀ v, r = some v → ∃ vfs, s.vfs.get v = some vfs := by
  induction vs with
  | nil => exact ⟨none, rfl, fun v hv => by cases hv⟩
  | cons w vs ih =>
    obtain ⟨vfs, hw⟩ := h.vfsAlive w (hvs List.mem_cons_self)
    cases zVfs with
    | none =>
      refine ⟨some w, rfl, fun v hv => ?_⟩
      obtain rfl := Option.some_inj.mp hv
      exact ⟨vfs, hw⟩
    | some z =>
      rw [VfsState.sqlite3VfsFind, hw, Option.bind_some]
      by_cases hz : vfs.zName = z
      · rw [if_pos hz]
        refine ⟨some w, rfl, fun v hv => ?_⟩
        obtain rfl := Option.some_inj.mp hv
        exact ⟨vfs, hw⟩
      · rw [if_neg hz]
        exact ih fun v hv => hvs (List.mem_cons_of_mem w hv)

/-- **`sqlite3mc_vfs_destroy`**. -/
theorem Inv.sqlite3mcVfsDestroy (h : Inv s) (zName : Option String) :
    ∃ r t, s.sqlite3VfsFind zName s.vfsList = some r ∧ s.sqlite3mcVfsDestroy zName = some t ∧
      Destroyed s r.toList t := by
  obtain ⟨r, hr, halive⟩ := h.sqlite3VfsFind zName (List.Subset.refl s.vfsList)
  rw [VfsState.sqlite3mcVfsDestroy, hr, Option.bind_some]
  cases r with
  | none => exact ⟨none, s, rfl, rfl, h.destroyed_nil⟩
  | some v =>
    obtain ⟨vfs, hv⟩ := halive v rfl
    obtain ⟨t, ht, hd⟩ := h.mcVfsDestroy hv
    exact ⟨some v, t, rfl, ht, hd⟩

theorem Destroyed.trans {u : VfsState} {vs : List ℕ} (h : Destroyed s [v] t)
    (h' : Destroyed t vs u) : Destroyed s (v :: vs) u := by
  refine ⟨h'.files.trans h.files, h'.pMainNext.trans h.pMainNext, h'.opened.trans h.opened,
    h'.next.trans h.next, fun w => ?_, h'.vfsList.trans h.vfsList, h'.vfsAlive⟩
  rw [h'.get, h.get]
  by_cases hw : w = v
  · rw [if_pos (List.mem_singleton.mpr hw), if_pos (List.mem_cons.mpr (Or.inl hw)),
      Option.filter_filter]
    simp only [Bool.and_self, ite_self]
  · have hne : w ∉ [v] := fun hmem => hw (List.mem_singleton.mp hmem)
    rw [if_neg hne]
    simp only [List.mem_cons, hw, false_or]

/-- **`sqlite3mc_vfs_shutdown`**: every registered VFS is asked for. -/
theorem Inv.destroyAll (h : Inv s) {vs : List ℕ} (hnodup : vs.Nodup)
    (halive : ∀ v ∈ vs, ∃ vfs, s.vfs.get v = some vfs) :
    ∃ t, vs.foldlM (fun s v => s.mcVfsDestroy (some v)) s = some t ∧ Destroyed s vs t := by
  induction vs generalizing s with
  | nil => exact ⟨s, rfl, h.destroyed_nil⟩
  | cons v vs ih =>
    obtain ⟨hv, hnodup'⟩ := List.nodup_cons.mp hnodup
    obtain ⟨vfs, hvfs⟩ := halive v List.mem_cons_self
    obtain ⟨t, ht, hd⟩ := h.mcVfsDestroy hvfs
    -- the others have not been touched
    have hrest : ∀ w ∈ vs, ∃ vfs, t.vfs.get w = some vfs := by
      intro w hw
      have hne : w ∉ [v] := by
        rw [List.mem_singleton]
        rintro rfl
        exact hv hw
      rw [hd.get, if_neg hne]
      exact halive w (List.mem_cons_of_mem v hw)
    obtain ⟨u, hu, hd'⟩ := ih (h.destroyed hd) hnodup' hrest
    refine ⟨u, ?_, hd.trans hd'⟩
    rw [List.foldlM_cons, ht]
    exact hu

/-- Registering a VFS that is not in the list puts it there. -/
theorem sqlite3VfsRegister_perm (vfsList : List ℕ) (hv : v ∉ vfsList) (makeDflt : Bool) :
    (sqlite3VfsRegister vfsList v makeDflt).Perm (v :: vfsList) := by
  rw [sqlite3VfsRegister, List.erase_of_not_mem hv]
  cases vfsList with
  | nil => exact List.Perm.refl _
  | cons first rest =>
    cases makeDflt with
    | true => exact List.Perm.refl _
    | false => exact List.Perm.swap v first rest

/-- **`sqlite3mc_vfs_create`**. No file refers to a new VFS, and it has no files. -/
theorem Inv.sqlite3mcVfsCreate (h : Inv s) (zVfsReal : Option String) (makeDefault granted : Bool) :
    ∃ t, s.sqlite3mcVfsCreate zVfsReal makeDefault granted = some t ∧ Inv t ∧
      (Alive s → Alive t) := by
  obtain ⟨r, hr, halive⟩ := h.sqlite3VfsFind zVfsReal (List.Subset.refl s.vfsList)
  rw [VfsState.sqlite3mcVfsCreate, hr, Option.bind_some]
  cases r with
  | none => exact ⟨s, rfl, h, id⟩
  | some v =>
    obtain ⟨vfs, hv⟩ := halive v rfl
    dsimp only
    rw [hv, Option.map_some]
    cases granted with
    | false => exact ⟨s, rfl, h, id⟩
    | true =>
      rw [if_pos rfl]
      have hnew : s.vfs.next ∉ s.vfsList := by
        intro hmem
        obtain ⟨vfs', hv'⟩ := h.vfsAlive _ hmem
        exact Heap.ne_next hv' rfl
      have hperm := sqlite3VfsRegister_perm s.vfsList hnew makeDefault
      have hold : ∀ w vfs', s.vfs.get w = some vfs' →
          (s.vfs.alloc ⟨"multipleciphers-" ++ vfs.zName, true, none⟩).get w = some vfs' :=
        fun w vfs' hw => Heap.get_alloc hw _
      have hknown : ∀ file ∈ s.opened, (s.files file).pVfsMC ≠ s.vfs.next :=
        fun file hopen => Nat.ne_of_lt (h.known file hopen)
      refine ⟨_, rfl, ⟨h.opened, ?_, ?_, ?_, ?_, ?_, ?_⟩, ?_⟩
      · intro w vfs' hw
        by_cases hwv : w = s.vfs.next
        · rw [hwv, Heap.get_alloc_self] at hw
          obtain rfl := Option.some_inj.mp hw
          refine ⟨[], rfl, List.nodup_nil, fun file => iff_of_false List.not_mem_nil ?_⟩
          rintro ⟨hopen, hpVfs, -⟩
          exact absurd (hpVfs.trans hwv) (hknown file hopen)
        · rw [Heap.get_alloc_of_ne hwv] at hw
          obtain ⟨files, hlist⟩ := h.mainList w vfs' hw
          exact ⟨files, hlist.frame rfl (fun _ _ => rfl) fun _ _ => rfl⟩
      · intro w file hmain
        obtain ⟨vfs', hw⟩ := h.mainAlive w file hmain
        exact ⟨vfs', hold w vfs' hw⟩
      · intro file hopen vfs' hw
        rw [Heap.get_alloc_of_ne (hknown file hopen)] at hw
        exact h.isMultipleCiphers file hopen vfs' hw
      · exact fun file hopen => Nat.lt_succ_of_lt (h.known file hopen)
      · exact hperm.nodup_iff.mpr (List.nodup_cons.mpr ⟨hnew, h.vfsList⟩)
      · intro w hw
        rcases List.mem_cons.mp (hperm.mem_iff.mp hw) with rfl | hw
        · exact ⟨_, Heap.get_alloc_self _ _⟩
        · obtain ⟨vfs', hw'⟩ := h.vfsAlive w hw
          exact ⟨vfs', hold w vfs' hw'⟩
      · intro ha file hopen
        obtain ⟨vfs', hw⟩ := ha file hopen
        exact ⟨vfs', hold _ vfs' hw⟩

/-! ### Runs -/

/-- **One step** is carried out, keeps the invariant, and leaves every file its VFS if and only if
it meets the guard. -/
theorem Inv.exec (h : Inv s) (F : ℕ → ℕ) {e : Event} (hlegal : Legal s e) :
    ∃ t, VfsState.exec F s e = some t ∧ Inv t ∧ (Alive s → (Alive t ↔ Guard s e)) := by
  cases e with
  | xOpen v zName file flags realOpen =>
    obtain ⟨hfile, vfs, hv, hmc⟩ := hlegal
    obtain ⟨t, ht, hinv, halive⟩ := h.mcVfsOpen F zName flags realOpen hfile hv hmc
    exact ⟨t, ht, hinv, fun hs => iff_of_true (halive hs) trivial⟩
  | xClose file =>
    obtain ⟨t, ht, hinv, halive⟩ := h.mcIoClose hlegal
    exact ⟨t, ht, hinv, fun hs => iff_of_true (halive hs) trivial⟩
  | vfsCreate zVfsReal makeDefault granted =>
    obtain ⟨t, ht, hinv, halive⟩ := h.sqlite3mcVfsCreate zVfsReal makeDefault granted
    exact ⟨t, ht, hinv, fun hs => iff_of_true (halive hs) trivial⟩
  | vfsDestroy zName =>
    obtain ⟨r, t, hr, ht, hd⟩ := h.sqlite3mcVfsDestroy zName
    refine ⟨t, ht, h.destroyed hd, fun hs => ?_⟩
    rw [h.alive_destroyed_iff hs hd, Guard]
    simp only [hr, Option.mem_toList, Option.some_inj]
  | vfsShutdown =>
    obtain ⟨t, ht, hd⟩ := h.destroyAll h.vfsList h.vfsAlive
    exact ⟨t, ht, h.destroyed hd, fun hs => h.alive_destroyed_iff hs hd⟩

theorem Inv.step {F : ℕ → ℕ} {e : Event} (h : Inv s) (hstep : Step F s e t) :
    Inv t ∧ (Alive s → (Alive t ↔ Guard s e)) := by
  obtain ⟨hlegal, hexec⟩ := hstep
  obtain ⟨u, hu, hinv, halive⟩ := h.exec F hlegal
  obtain rfl := Option.some_inj.mp (hu.symm.trans hexec)
  exact ⟨hinv, halive⟩

/-- **Files and the lives of their VFSs.** In every run of opens of files of any kind, successful
or not, of closes, and of VFSs created, destroyed and shut down, the list of every VFS is its open
main database files, each once; a name is answered with an open main database file that was opened
with that pointer, or with nothing if there is none; and no step fails. No open file loses its VFS
in any state of the run if and only if each step of it that destroys VFSs does so only where a VFS
has an open main database file or no open file at all. -/
theorem registered_iff_guarded (sqlite3FilenameDatabase : ℕ → ℕ) {s₀ s : VfsState}
    {es : List Event} (hinit : Initial s₀) (hrun : Run (Step sqlite3FilenameDatabase) s₀ es s) :
    Listed s ∧
      (∀ e, Legal s e → ∃ t, VfsState.exec sqlite3FilenameDatabase s e = some t) ∧
      (GuardedRun (Step sqlite3FilenameDatabase) Guard s₀ es s ↔
        Always (Step sqlite3FilenameDatabase) (fun t => Listed t ∧ Alive t) s₀ es s) := by
  have hinv : Inv s := hrun.invariant Inv (fun h hstep => (h.step hstep).1) hinit.inv
  refine ⟨hinv.listed, fun e hlegal => ?_, ?_⟩
  · obtain ⟨t, ht, -⟩ := hinv.exec sqlite3FilenameDatabase hlegal
    exact ⟨t, ht⟩
  · refine guardedRun_iff_always Inv (fun h hstep => (h.step hstep).1) ?_ hinit.inv
      ⟨hinit.inv.listed, hinit.alive_files⟩
    intro s t e h hs hstep
    obtain ⟨hinv', halive⟩ := h.step hstep
    rw [← halive hs.2]
    exact and_iff_right hinv'.listed

/-! ### A temporary database -/

/-- A process with the VFS of the operating system and no files. -/
def unixState : VfsState where
  files := fun _ => ⟨0, 0, none, none⟩
  pMainNext := fun _ => none
  opened := []
  vfs := Heap.empty.alloc ⟨"unix", false, none⟩
  vfsList := [0]

theorem unixState_initial : Initial unixState := by
  refine ⟨rfl, fun v vfs hv => ?_, List.nodup_singleton 0, fun v hv => ?_⟩
  · by_cases h : v = 0
    · rw [h] at hv
      obtain rfl := Option.some_inj.mp hv
      rfl
    · have hnone : unixState.vfs.get v = none := Function.update_of_ne h _ _
      rw [hnone] at hv
      cases hv
  · obtain rfl := List.mem_singleton.mp hv
    exact ⟨_, rfl⟩

/-- A main database file is open when its VFS is asked for, and keeps it. -/
theorem registered_iff_guarded_unix :
    ∃ s, Always (Step id) (fun t => Listed t ∧ Alive t) unixState [.vfsCreate none true true,
      .xOpen 1 (some 7) 0 openMainDb true, .vfsDestroy none] s ∧ 0 ∈ s.opened := by
  have hrun : ∃ s, GuardedRun (Step id) Guard unixState [.vfsCreate none true true,
      .xOpen 1 (some 7) 0 openMainDb true, .vfsDestroy none] s ∧ 0 ∈ s.opened := by
    refine ⟨_, GuardedRun.cons trivial ⟨trivial, rfl⟩ (GuardedRun.cons trivial
      ⟨⟨List.not_mem_nil, _, rfl, rfl⟩, rfl⟩ (GuardedRun.cons ?_ ⟨trivial, rfl⟩
      (GuardedRun.nil _))), List.mem_cons_self⟩
    intro v hv _
    obtain rfl := Option.some_inj.mp (Option.some_inj.mp hv)
    exact ⟨0, List.mem_cons_self, rfl, by decide⟩
  obtain ⟨s, hguarded, hopen⟩ := hrun
  exact ⟨s, (registered_iff_guarded id unixState_initial hguarded.run).2.2.mp hguarded, hopen⟩

/-- A temporary database is open when its VFS is destroyed. -/
theorem destroyed_under_open_file :
    ∃ s, Run (Step id) unixState [.vfsCreate none true true, .xOpen 1 none 0 openTempDb true,
      .vfsDestroy (some "multipleciphers-unix")] s ∧
      0 ∈ s.opened ∧ s.vfs.get (s.files 0).pVfsMC = none :=
  ⟨_, Run.cons ⟨trivial, rfl⟩ (Run.cons ⟨⟨List.not_mem_nil, _, rfl, rfl⟩, rfl⟩
    (Run.cons ⟨trivial, rfl⟩ (Run.nil _))), List.mem_cons_self, rfl⟩

end VfsState

end MultipleCiphers
