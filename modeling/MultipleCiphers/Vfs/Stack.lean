import MultipleCiphers.Ciphers.Builtin

/-!
# Finding the codec of a database through a stack of VFSs

The codec of a database hangs on the file handle that the Multiple Ciphers VFS gave out. Four
functions look for it, each in its own way. `sqlite3mcGetCodec` finds the VFS, from the top VFS of
the connection or by a file control that travels down the stack, and looks up the file by its
name. `sqlite3mcPagerHasCodec` walks from the pager's VFS along the *list of registered VFSs*,
which has nothing to do with the stack. `sqlite3mcPagerCodec` looks at the pager's own file handle
only. Where the Multiple Ciphers VFS is on top these come to the same; with a shim on top of it
they do not.

## The model

A VFS is a number; `xOpen == mcVfsOpen` is the predicate `isMultipleCiphers`. File names are
compared by their address in the source, so a name is a number as well. The file handle of a pager
is a stack of layers, the topmost first. A shim passes names and file controls through. There is
one layer for each VFS the file was opened through, down to the operating system's.

## Main results

* `lookupsAgree_iff` — when the lookups agree.
* `LookupsAgree.reads`, `LookupsAgree.walPage` — what follows for reads and for WAL pages.
* `lookups_disagree` — a shim over the Multiple Ciphers VFS.
-/

namespace MultipleCiphers

/-- An open main database file of a Multiple Ciphers VFS, with the name it was opened by. -/
structure MainFile (σ : Type) where
  zFileName : ℕ
  codec : Option (Codec σ)

/-- The VFSs of the process. -/
structure Vfses (σ : Type) where
  /-- `xOpen == mcVfsOpen`. -/
  isMultipleCiphers : ℕ → Bool
  /-- The registered VFSs, `vfsList` and the chain of `pNext` from there. -/
  vfsList : List ℕ
  /-- The list `pMain` of a Multiple Ciphers VFS. -/
  pMain : ℕ → List (MainFile σ)

/-- One layer of a file handle. -/
inductive FileLayer (σ : Type) where
  /-- The file of a VFS that passes everything through. -/
  | shim
  /-- The file of the Multiple Ciphers VFS number `vfs`. -/
  | multipleCiphers (vfs : ℕ) (file : MainFile σ)
  /-- The file of the operating system. -/
  | real

/-- An open database: the VFS of its connection, and the VFS, the file name and the file handle of
its pager. -/
structure OpenDb (σ : Type) where
  pVfs : ℕ
  pagerVfs : ℕ
  zFilename : ℕ
  fd : List (FileLayer σ)

/-- `sqlite3_vfs_register` on the list of VFSs. -/
def sqlite3VfsRegister (vfsList : List ℕ) (vfs : ℕ) (makeDflt : Bool) : List ℕ :=
  match vfsList.erase vfs with
  | [] => [vfs]
  | first :: rest => if makeDflt then vfs :: first :: rest else first :: vfs :: rest

section Lookups

variable {σ : Type} (w : Vfses σ)

/-- `mcFindDbMainFileName`. -/
def mcFindDbMainFileName (vfs zFileName : ℕ) : Option (MainFile σ) :=
  (w.pMain vfs).find? fun f => f.zFileName = zFileName

/-- The file control `SQLITE3MC_FCNTL_PVFS` on a file handle: the topmost Multiple Ciphers layer
answers it. -/
def fcntlPvfs : List (FileLayer σ) → Option ℕ
  | .shim :: below => fcntlPvfs below
  | .multipleCiphers vfs _ :: _ => some vfs
  | .real :: _ | [] => none

/-- `mcFindVfs`. -/
def mcFindVfs (db : OpenDb σ) : Option ℕ :=
  if w.isMultipleCiphers db.pVfs then some db.pVfs
  else (fcntlPvfs db.fd).filter w.isMultipleCiphers

/-- `sqlite3mcIsEncryptionSupported`. -/
def sqlite3mcIsEncryptionSupported (db : OpenDb σ) : Bool := (mcFindVfs w db).isSome

/-- `sqlite3mcGetCodec`. -/
def sqlite3mcGetCodec (db : OpenDb σ) : Option (Codec σ) :=
  (mcFindVfs w db).bind fun vfs =>
    (mcFindDbMainFileName w vfs db.zFilename).bind MainFile.codec

/-- A VFS and the ones that follow it along `pNext`. -/
def vfsChain (vfsList : List ℕ) (vfs : ℕ) : List ℕ :=
  vfs :: (vfsList.dropWhile (· ≠ vfs)).tail

/-- `sqlite3mcPagerHasCodec`. -/
def sqlite3mcPagerHasCodec (db : OpenDb σ) : Bool :=
  match (vfsChain w.vfsList db.pagerVfs).find? w.isMultipleCiphers with
  | some vfs =>
    match mcFindDbMainFileName w vfs db.zFilename with
    | some file => file.codec.any Codec.isEncrypted
    | none => false
  | none => false

/-- The codec `sqlite3mcPagerCodec` encrypts a page for the WAL with, if it encrypts it: the
method table of the pager's file handle has to be the one of a Multiple Ciphers file. -/
def pagerWalCodec (fd : List (FileLayer σ)) : Option (Codec σ) :=
  match fd with
  | .multipleCiphers _ file :: _ =>
    file.codec.filter fun codec => codec.walLegacy = 0 ∧ codec.isEncrypted
  | _ => none

/-- `sqlite3mcPagerCodec`: the bytes that go to the WAL for a page. -/
def sqlite3mcPagerCodec (D : ℕ → CipherDescriptor σ) (fd : List (FileLayer σ)) (data : Bytes)
    (pgno : ℕ) (env : Env) : ResultCode × Bytes × Env :=
  match pagerWalCodec fd with
  | some codec => sqlite3mcCodec D codec data pgno .database env
  | none => (.ok, data, env)

/-- The functions `setGetterMethod` chooses from. -/
inductive GetPage where
  | error
  | mmap
  | normal
  deriving DecidableEq, Repr

/-- `setGetterMethod`. -/
def setGetterMethod (db : OpenDb σ) (errCode bUseFetch : Bool) : GetPage :=
  if errCode then .error
  else if bUseFetch ∧ ¬ sqlite3mcPagerHasCodec w db then .mmap
  else .normal

/-- `sqlite3PagerDirectReadOk`: whether overflow pages are read past the cache, `frameInWal`
saying whether the page is in the WAL. -/
def sqlite3PagerDirectReadOk (db : OpenDb σ) (cacheIsDirty frameInWal subpageRead : Bool) : Bool :=
  if db.fd = [] then false
  else if cacheIsDirty then false
  else if sqlite3mcPagerHasCodec w db then false
  else if frameInWal then false
  else subpageRead

end Lookups

/-! ### Databases that were opened -/

section Agree

variable {σ : Type} {w : Vfses σ} {db : OpenDb σ}

/-- A database that was opened through its pager's VFS. The top layer of the file handle is of that
VFS; every Multiple Ciphers layer is on the list of its VFS, under the name of the pager; and a VFS
has no two files with the name at one address. -/
structure Opened (w : Vfses σ) (db : OpenDb σ) : Prop where
  top : ∀ vfs file below, db.fd = .multipleCiphers vfs file :: below → vfs = db.pagerVfs
  topPlain : w.isMultipleCiphers db.pagerVfs = true →
    ∃ file below, db.fd = .multipleCiphers db.pagerVfs file :: below
  registered : ∀ vfs file, FileLayer.multipleCiphers vfs file ∈ db.fd →
    w.isMultipleCiphers vfs = true ∧ file ∈ w.pMain vfs ∧ file.zFileName = db.zFilename
  unique : ∀ vfs, (w.pMain vfs).Pairwise fun f g => f.zFileName ≠ g.zFileName

/-- The lookups agree on the codec: the pager is said to have one, and in the non-legacy mode WAL
pages are encrypted with it. -/
structure LookupsAgree (w : Vfses σ) (db : OpenDb σ) (codec : Codec σ) : Prop where
  pagerHasCodec : sqlite3mcPagerHasCodec w db = true
  walCodec : codec.walLegacy = 0 → pagerWalCodec db.fd = some codec

/-- The pager's file is one of the Multiple Ciphers VFS, with this codec. -/
def TopHasCodec (db : OpenDb σ) (codec : Codec σ) : Prop :=
  ∃ vfs file below, db.fd = .multipleCiphers vfs file :: below ∧ file.codec = some codec

/-- The first Multiple Ciphers VFS at or after the pager's VFS on the list of registered VFSs has
the file, with an encrypted codec. -/
def ChainHasFile (w : Vfses σ) (db : OpenDb σ) : Prop :=
  ∃ vfs file codec, (vfsChain w.vfsList db.pagerVfs).find? w.isMultipleCiphers = some vfs ∧
    mcFindDbMainFileName w vfs db.zFilename = some file ∧ file.codec = some codec ∧
    codec.isEncrypted = true

/-- A file on the list of its VFS is the one found under its name. -/
theorem mcFindDbMainFileName_of_mem {vfs : ℕ}
    (hunique : (w.pMain vfs).Pairwise fun f g => f.zFileName ≠ g.zFileName) {file : MainFile σ}
    (hmem : file ∈ w.pMain vfs) : mcFindDbMainFileName w vfs file.zFileName = some file := by
  rw [mcFindDbMainFileName]
  generalize w.pMain vfs = files at hunique hmem
  induction files with
  | nil => cases hmem
  | cons f files ih =>
    obtain ⟨hhead, htail⟩ := List.pairwise_cons.mp hunique
    rcases List.mem_cons.mp hmem with rfl | hmem
    · rw [List.find?_cons_of_pos (by simp)]
    · rw [List.find?_cons_of_neg (by simpa using hhead file hmem)]
      exact ih htail hmem

theorem sqlite3mcPagerHasCodec_iff : sqlite3mcPagerHasCodec w db = true ↔ ChainHasFile w db := by
  rw [sqlite3mcPagerHasCodec, ChainHasFile]
  constructor
  · intro h
    split at h
    · rename_i vfs hvfs
      split at h
      · rename_i file hfile
        obtain ⟨codec, hcodec, henc⟩ := (Option.any_eq_true _ _).mp h
        exact ⟨vfs, file, codec, hvfs, hfile, hcodec, henc⟩
      · cases h
    · cases h
  · rintro ⟨vfs, file, codec, hvfs, hfile, hcodec, henc⟩
    simp only [hvfs, hfile, hcodec, Option.any_some, henc]

/-- A walk that starts at a Multiple Ciphers VFS ends there. -/
theorem vfsChain_find {vfs : ℕ} (h : w.isMultipleCiphers vfs = true) :
    (vfsChain w.vfsList vfs).find? w.isMultipleCiphers = some vfs := by
  rw [vfsChain, List.find?_cons_of_pos h]

/-- **The plain setup**: with the file on top, its codec is the one every lookup finds. -/
theorem TopHasCodec.agree {codec : Codec σ} (hopen : Opened w db) (htop : TopHasCodec db codec)
    (henc : codec.isEncrypted = true) : LookupsAgree w db codec := by
  obtain ⟨vfs, file, below, hfd, hcodec⟩ := htop
  have hmem : FileLayer.multipleCiphers vfs file ∈ db.fd := by
    rw [hfd]
    exact List.mem_cons_self
  obtain ⟨hmc, hfile, hname⟩ := hopen.registered vfs file hmem
  obtain rfl := hopen.top vfs file below hfd
  constructor
  · rw [sqlite3mcPagerHasCodec_iff]
    refine ⟨db.pagerVfs, file, codec, vfsChain_find hmc, ?_, hcodec, henc⟩
    rw [← hname]
    exact mcFindDbMainFileName_of_mem (hopen.unique db.pagerVfs) hfile
  · intro hlegacy
    simp [pagerWalCodec, hfd, hcodec, hlegacy, henc]

/-- **When the lookups agree.** For every stack of VFSs, every list of registered VFSs and every
open database for whose file `sqlite3mcGetCodec` finds an encrypted codec: the other lookups agree
with it if and only if the pager's own file has that codec, or the codec is in the legacy WAL mode
and the walk along the registered VFSs comes upon the file. -/
theorem lookupsAgree_iff (w : Vfses σ) (db : OpenDb σ) (codec : Codec σ) (hopen : Opened w db)
    (_hcodec : sqlite3mcGetCodec w db = some codec) (henc : codec.isEncrypted = true) :
    LookupsAgree w db codec ↔
      TopHasCodec db codec ∨ (codec.walLegacy ≠ 0 ∧ ChainHasFile w db) := by
  constructor
  · rintro ⟨hhas, hwal⟩
    by_cases hlegacy : codec.walLegacy = 0
    · left
      have hwal := hwal hlegacy
      rcases hfd : db.fd with _ | ⟨_ | ⟨vfs, file⟩ | _, below⟩ <;> rw [hfd] at hwal
      · cases hwal
      · cases hwal
      · obtain ⟨hfile, -⟩ := Option.filter_eq_some_iff.mp hwal
        exact ⟨vfs, file, below, hfd, hfile⟩
      · cases hwal
    · exact Or.inr ⟨hlegacy, sqlite3mcPagerHasCodec_iff.mp hhas⟩
  · rintro (htop | ⟨hlegacy, hchain⟩)
    · exact htop.agree hopen henc
    · exact ⟨sqlite3mcPagerHasCodec_iff.mpr hchain, fun h => absurd h hlegacy⟩

/-- Where the lookups agree no page is read past the codec. -/
theorem LookupsAgree.reads {codec : Codec σ} (h : LookupsAgree w db codec)
    (errCode bUseFetch cacheIsDirty frameInWal subpageRead : Bool) :
    setGetterMethod w db errCode bUseFetch ≠ .mmap ∧
      sqlite3PagerDirectReadOk w db cacheIsDirty frameInWal subpageRead = false := by
  constructor
  · cases errCode <;> simp [setGetterMethod, h.pagerHasCodec]
  · simp [sqlite3PagerDirectReadOk, h.pagerHasCodec]

/-- Where the lookups agree, in the non-legacy mode, a page goes to the WAL as the codec encrypts
it for the database file. -/
theorem LookupsAgree.walPage {codec : Codec σ} (h : LookupsAgree w db codec)
    (hlegacy : codec.walLegacy = 0) (D : ℕ → CipherDescriptor σ) (data : Bytes) (pgno : ℕ)
    (env : Env) :
    sqlite3mcPagerCodec D db.fd data pgno env =
      sqlite3mcCodec D codec data pgno .database env := by
  rw [sqlite3mcPagerCodec, h.walCodec hlegacy]

end Agree

/-! ### A shim on top -/

/-- The file of the example, with its codec. -/
def exampleFile : MainFile Cipher := ⟨7, some rc4Codec⟩

/-- Three VFSs: `0` of the operating system, `1` the Multiple Ciphers VFS over it, which is the
default, and `2` a shim over `1`, registered last and not as the default. -/
def shimVfses : Vfses Cipher where
  isMultipleCiphers := fun vfs => vfs = 1
  vfsList := sqlite3VfsRegister (sqlite3VfsRegister (sqlite3VfsRegister [] 0 true) 1 true) 2 false
  pMain := fun vfs => if vfs = 1 then [exampleFile] else []

/-- A database opened through the default VFS. -/
def plainDb : OpenDb Cipher := ⟨1, 1, 7, [.multipleCiphers 1 exampleFile, .real]⟩

/-- A database opened through the shim. -/
def shimDb : OpenDb Cipher := ⟨2, 2, 7, [.shim, .multipleCiphers 1 exampleFile, .real]⟩

theorem exampleFile_unique (vfs : ℕ) :
    (shimVfses.pMain vfs).Pairwise fun f g => f.zFileName ≠ g.zFileName := by
  show (if vfs = 1 then [exampleFile] else []).Pairwise _
  by_cases h : vfs = 1
  · rw [if_pos h]
    exact List.pairwise_singleton _ _
  · rw [if_neg h]
    exact List.Pairwise.nil

/-- The lookups agree on a database opened through the Multiple Ciphers VFS itself. -/
theorem lookupsAgree_plain : LookupsAgree shimVfses plainDb rc4Codec := by
  refine (lookupsAgree_iff shimVfses plainDb rc4Codec ?_ rfl rfl).mpr
    (Or.inl ⟨1, exampleFile, [.real], rfl, rfl⟩)
  constructor
  · intro vfs file below h
    cases h
    rfl
  · intro _
    exact ⟨exampleFile, [.real], rfl⟩
  · intro vfs file h
    rcases List.mem_cons.mp h with h | h
    · cases h
      exact ⟨rfl, List.mem_singleton.mpr rfl, rfl⟩
    · cases List.mem_singleton.mp h
  · exact exampleFile_unique

/-- **Under a shim the lookups disagree.** The database is opened through the shim, encryption is
supported, `sqlite3mcGetCodec` finds the encrypted codec, and the pager is said to have none; its
pages go to the WAL in plaintext. -/
theorem lookups_disagree :
    ¬ (Opened shimVfses shimDb ∧ sqlite3mcIsEncryptionSupported shimVfses shimDb = true ∧
        sqlite3mcGetCodec shimVfses shimDb = some rc4Codec ∧ rc4Codec.isEncrypted = true →
      LookupsAgree shimVfses shimDb rc4Codec) := by
  intro hagree
  have hopen : Opened shimVfses shimDb := by
    constructor
    · intro vfs file below h
      cases h
    · intro h
      cases h
    · intro vfs file h
      rcases List.mem_cons.mp h with h | h
      · cases h
      · rcases List.mem_cons.mp h with h | h
        · cases h
          exact ⟨rfl, List.mem_singleton.mpr rfl, rfl⟩
        · cases List.mem_singleton.mp h
    · exact exampleFile_unique
  have hlookups := hagree ⟨hopen, rfl, rfl, rfl⟩
  cases hlookups.pagerHasCodec

end MultipleCiphers
