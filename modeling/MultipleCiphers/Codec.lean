import MultipleCiphers.Connection

/-!
# The codec of a database file

A codec holds two ciphers. The *read cipher* decrypts what is loaded from the database file, the
*write cipher* encrypts what is stored there. Outside a rekey operation the two are copies of one
another; during one they differ, and everything that makes rekeying delicate comes from that.

Which algorithm a cipher is does not matter here. A cipher is a value of a type `σ`, and a table
of descriptors `D : ℕ → CipherDescriptor σ` says how to allocate, clone, key and use the ciphers
of each type. Cipher types are numbered from `1`, as in the source.

## What is left out

The source passes the outcome of an encryption or decryption back through a field of the codec,
`m_lastError`, which is read right after it is written and nowhere else. Here
`sqlite3mcCodec` returns it. `m_db`, `m_btShared` and `m_pageSize` are not modelled: the page
size the codec works with is the B-tree's, and a page is as long as its byte string.

## Main definitions

* `CipherDescriptor`, `Codec` — the function table of a cipher and the codec.
* `sqlite3mcCodecSetup`, `sqlite3mcSetupWriteCipher`, `sqlite3mcCodecCopy`.
* `sqlite3mcCopyReadToWrite`, `sqlite3mcCopyWriteToRead` — the two directions of
  `sqlite3mcCopyCipher`.
* `sqlite3mcEncrypt`, `sqlite3mcDecrypt`, `sqlite3mcCodec` — the page transformations.

## Main results

* `Codec.Settled` — the state of a codec between two key operations, and that a successful
  `sqlite3mcCodecSetup` establishes it.
-/

namespace MultipleCiphers

/-- `struct CipherDescriptor`: the functions of one cipher. Freeing a cipher has no effect on the
model and is left out. -/
structure CipherDescriptor (σ : Type) where
  name : String
  /-- A new cipher with the pending parameters of the connection, `none` if memory is exhausted. -/
  allocateCipher : Env → Option σ × Env
  /-- `cloneCipher to from`: what `to` becomes. -/
  cloneCipher : σ → σ → σ
  /-- Cloning copies every field the cipher is used through. -/
  cloneCipher_eq : ∀ target source, cloneCipher target source = source
  getLegacy : σ → ℤ
  getPageSize : σ → ℤ
  getReserved : σ → ℤ
  getSalt : σ → Option Bytes
  /-- `generateKey cipher password rekey salt`. -/
  generateKey : σ → Bytes → ℕ → Option Bytes → Env → σ × Env
  /-- `encryptPage cipher page data reserved`. -/
  encryptPage : σ → ℕ → Bytes → ℤ → Env → ResultCode × Bytes × Env
  /-- `decryptPage cipher page data reserved hmacCheck`. -/
  decryptPage : σ → ℕ → Bytes → ℤ → ℤ → ResultCode × Bytes

/-- `struct Codec`. The reserved-bytes fields override `reserved` unless they are negative. -/
structure Codec (σ : Type) where
  isEncrypted : Bool
  hmacCheck : ℤ
  walLegacy : ℤ
  hasReadCipher : Bool
  readCipherType : ℕ
  readCipher : Option σ
  readReserved : ℤ
  hasWriteCipher : Bool
  writeCipherType : ℕ
  writeCipher : Option σ
  writeReserved : ℤ
  reserved : ℤ
  /-- `m_hasKeySalt` and `m_keySalt`. -/
  keySalt : Option Bytes
  deriving DecidableEq

section Operations

variable {σ : Type} (D : ℕ → CipherDescriptor σ)

/-- `sqlite3mcCodecInit`. -/
def sqlite3mcCodecInit : Codec σ where
  isEncrypted := false
  hmacCheck := 1
  walLegacy := 0
  hasReadCipher := false
  readCipherType := 0
  readCipher := none
  readReserved := -1
  hasWriteCipher := false
  writeCipherType := 0
  writeCipher := none
  writeReserved := -1
  reserved := 0
  keySalt := none

/-- `sqlite3mcClearKeySalt`. -/
def sqlite3mcClearKeySalt (codec : Codec σ) : Codec σ := { codec with keySalt := none }

/-- `sqlite3mcCodecSizeChange`. -/
def sqlite3mcCodecSizeChange (codec : Codec σ) (reservedSize : ℤ) : Codec σ :=
  { codec with reserved := reservedSize }

/-! ### Properties of the two ciphers -/

/-- `sqlite3mcGetLegacyWriteCipher`. -/
def sqlite3mcGetLegacyWriteCipher (codec : Codec σ) : ℤ :=
  match codec.hasWriteCipher, codec.writeCipher with
  | true, some w => (D codec.writeCipherType).getLegacy w
  | _, _ => -1

/-- `sqlite3mcGetPageSizeWriteCipher`. -/
def sqlite3mcGetPageSizeWriteCipher (codec : Codec σ) : ℤ :=
  match codec.hasWriteCipher, codec.writeCipher with
  | true, some w => (D codec.writeCipherType).getPageSize w
  | _, _ => -1

/-- `sqlite3mcGetReservedWriteCipher`. -/
def sqlite3mcGetReservedWriteCipher (codec : Codec σ) : ℤ :=
  match codec.hasWriteCipher, codec.writeCipher with
  | true, some w => (D codec.writeCipherType).getReserved w
  | _, _ => -1

/-! ### Copying ciphers -/

/-- The cipher of type `cipherType` that a copy goes into: the one at hand if it is of that type,
else a newly allocated one. A cipher of another type is freed. -/
def cipherForCopy (oldType : ℕ) (old : Option σ) (cipherType : ℕ) (env : Env) : Option σ × Env :=
  if oldType = cipherType ∧ old.isSome then (old, env) else (D cipherType).allocateCipher env

/-- A copy of `source` in the place of `target`. The callers make sure that there is a source. -/
def cloneInto (cipherType : ℕ) (target : σ) (source : Option σ) : σ :=
  match source with
  | some s => (D cipherType).cloneCipher target s
  | none => target

/-- `sqlite3mcCopyCipher` with a true `read2write`: the write cipher becomes a copy of the read
cipher. -/
def sqlite3mcCopyReadToWrite (codec : Codec σ) (env : Env) : ResultCode × Codec σ × Env :=
  let cipherType := codec.readCipherType
  let (target, env) := cipherForCopy D codec.writeCipherType codec.writeCipher cipherType env
  match target with
  | some w =>
    (.ok, { codec with
      writeCipherType := cipherType
      writeCipher := some (cloneInto D cipherType w codec.readCipher) }, env)
  | none => (.nomem, { codec with writeCipherType := cipherType, writeCipher := none }, env)

/-- `sqlite3mcCopyCipher` with a false `read2write`: the read cipher becomes a copy of the write
cipher. -/
def sqlite3mcCopyWriteToRead (codec : Codec σ) (env : Env) : ResultCode × Codec σ × Env :=
  let cipherType := codec.writeCipherType
  let (target, env) := cipherForCopy D codec.readCipherType codec.readCipher cipherType env
  match target with
  | some r =>
    (.ok, { codec with
      readCipherType := cipherType
      readCipher := some (cloneInto D cipherType r codec.writeCipher) }, env)
  | none => (.nomem, { codec with readCipherType := cipherType, readCipher := none }, env)

/-- One half of `sqlite3mcCodecCopy`: a copy of the cipher `other` of type `cipherType`, if there
is one to copy. -/
def copyOneCipher (hasCipher : Bool) (cipherType : ℕ) (other : Option σ) (env : Env) :
    ResultCode × Option σ × Env :=
  if hasCipher then
    match (D cipherType).allocateCipher env with
    | (some c, env) => (.ok, some (cloneInto D cipherType c other), env)
    | (none, env) => (.nomem, none, env)
  else (.ok, none, env)

/-- `sqlite3mcCodecCopy`: the codec of an attached database that uses the main database's key. -/
def sqlite3mcCodecCopy (codec other : Codec σ) (env : Env) : ResultCode × Codec σ × Env :=
  let (rcRead, readCipher, env) :=
    copyOneCipher D other.hasReadCipher other.readCipherType other.readCipher env
  let (rcWrite, writeCipher, env) :=
    copyOneCipher D other.hasWriteCipher other.writeCipherType other.writeCipher env
  (if rcRead = .ok then rcWrite else rcRead,
    { codec with
      isEncrypted := other.isEncrypted
      hmacCheck := other.hmacCheck
      walLegacy := other.walLegacy
      hasReadCipher := other.hasReadCipher
      hasWriteCipher := other.hasWriteCipher
      readCipherType := other.readCipherType
      writeCipherType := other.writeCipherType
      readCipher := readCipher
      writeCipher := writeCipher
      readReserved := other.readReserved
      writeReserved := other.writeReserved }, env)

/-! ### Setting up keys -/

/-- The common parameters a key operation reads, `hmac_check` and `mc_legacy_wal`. -/
def useCommonParameters (env : Env) : ℤ × ℤ × Env :=
  let globalParams := env.sqlite3mcGetCipherParams "global"
  let (hmacCheck, env) := env.getCipherParameter globalParams "hmac_check"
  let (walLegacy, env) := env.getCipherParameter globalParams "mc_legacy_wal"
  (hmacCheck, walLegacy, env)

/-- `sqlite3mcGenerateReadKey`, the salt being the one given or the first bytes of the file. -/
def sqlite3mcGenerateReadKey (cipherType : ℕ) (cipher : σ) (password : Bytes)
    (keySalt dbHeader : Option Bytes) (env : Env) : σ × Env :=
  (D cipherType).generateKey cipher password 0 (keySalt.or dbHeader) env

/-- `sqlite3mcGenerateWriteKey`. In WAL mode the salt of the file is kept. -/
def sqlite3mcGenerateWriteKey (cipherType : ℕ) (cipher : σ) (password : Bytes)
    (keySalt dbHeader : Option Bytes) (usesWal : Bool) (env : Env) : σ × Env :=
  (D cipherType).generateKey cipher password (if usesWal then 2 else 1) (keySalt.or dbHeader) env

/-- `sqlite3mcCodecSetup`. `dbHeader` is what `mcReadDatabaseHeader` delivers: the first sixteen
bytes of the database file, `none` if they cannot be read. -/
def sqlite3mcCodecSetup (codec : Codec σ) (cipherType : ℤ) (password : Bytes)
    (dbHeader : Option Bytes) (env : Env) : ResultCode × Codec σ × Env :=
  if cipherType ≤ 0 then (.error, codec, env)
  else
    let (hmacCheck, walLegacy, env) := useCommonParameters env
    let readType := cipherType.toNat
    let (cipher, env) := (D readType).allocateCipher env
    let codec := { codec with
      isEncrypted := true
      hmacCheck := hmacCheck
      walLegacy := walLegacy
      hasReadCipher := true
      hasWriteCipher := true
      readCipherType := readType
      readCipher := cipher }
    match cipher with
    | some r =>
      let (r, env) := sqlite3mcGenerateReadKey D readType r password codec.keySalt dbHeader env
      sqlite3mcCopyReadToWrite D { codec with readCipher := some r } env
    | none => (.nomem, codec, env)

/-- `sqlite3mcSetupWriteCipher`. -/
def sqlite3mcSetupWriteCipher (codec : Codec σ) (cipherType : ℤ) (password : Bytes)
    (dbHeader : Option Bytes) (usesWal : Bool) (env : Env) : ResultCode × Codec σ × Env :=
  if cipherType ≤ 0 then (.error, codec, env)
  else
    let (hmacCheck, walLegacy, env) := useCommonParameters env
    let writeType := cipherType.toNat
    let (cipher, env) := (D writeType).allocateCipher env
    let codec := { codec with
      isEncrypted := true
      hmacCheck := hmacCheck
      walLegacy := walLegacy
      hasWriteCipher := true
      writeCipherType := writeType
      writeCipher := cipher }
    match cipher with
    | some w =>
      let (w, env) :=
        sqlite3mcGenerateWriteKey D writeType w password codec.keySalt dbHeader usesWal env
      (.ok, { codec with writeCipher := some w }, env)
    | none => (.nomem, codec, env)

/-! ### Encrypting and decrypting pages -/

/-- The reserved bytes per page the write cipher is used with. -/
def Codec.writeReservedBytes (codec : Codec σ) : ℤ :=
  if codec.writeReserved ≥ 0 then codec.writeReserved else codec.reserved

/-- The reserved bytes per page the read cipher is used with. -/
def Codec.readReservedBytes (codec : Codec σ) : ℤ :=
  if codec.readReserved ≥ 0 then codec.readReserved else codec.reserved

/-- `sqlite3mcEncrypt`. A missing cipher is a null pointer in the source; a codec that says it
has a cipher has one. -/
def sqlite3mcEncrypt (codec : Codec σ) (page : ℕ) (data : Bytes) (useWriteKey : Bool) (env : Env) :
    ResultCode × Bytes × Env :=
  if useWriteKey then
    match codec.writeCipher with
    | some w => (D codec.writeCipherType).encryptPage w page data codec.writeReservedBytes env
    | none => (.error, data, env)
  else
    match codec.readCipher with
    | some r => (D codec.readCipherType).encryptPage r page data codec.readReservedBytes env
    | none => (.error, data, env)

/-- `sqlite3mcDecrypt`. -/
def sqlite3mcDecrypt (codec : Codec σ) (page : ℕ) (data : Bytes) : ResultCode × Bytes :=
  match codec.readCipher with
  | some r =>
    (D codec.readCipherType).decryptPage r page data codec.readReservedBytes codec.hmacCheck
  | none => (.error, data)

/-- The modes `sqlite3mcCodec` is called with. -/
inductive CodecMode where
  /-- Modes `0`, `2` and `3`: decrypt a page that was loaded. -/
  | load
  /-- Mode `6`: encrypt a page for the database file. -/
  | database
  /-- Mode `7`: encrypt a page for a journal file. -/
  | journal
  deriving DecidableEq, Repr

/-- `sqlite3mcCodec` on an existing codec. The result is the codec's last error and the page the
caller goes on with: the buffer decrypted in place, or the codec's own buffer holding the
encrypted copy. A page that fails to decrypt is zeroed; one that fails to encrypt is handed back
as the cipher left it. -/
def sqlite3mcCodec (codec : Codec σ) (data : Bytes) (page : ℕ) (mode : CodecMode) (env : Env) :
    ResultCode × Bytes × Env :=
  if codec.isEncrypted then
    match mode with
    | .load =>
      if codec.hasReadCipher then
        let (rc, out) := sqlite3mcDecrypt D codec page data
        (rc, if rc = .ok then out else Bytes.zeros data.length, env)
      else (.ok, data, env)
    | .database =>
      if codec.hasWriteCipher then sqlite3mcEncrypt D codec page data true env
      else (.ok, data, env)
    | .journal =>
      if codec.hasReadCipher then sqlite3mcEncrypt D codec page data false env
      else (.ok, data, env)
  else (.ok, data, env)

end Operations

/-! ### Between two key operations -/

/-- The state of an encrypted codec between two key operations: it reads with a cipher `r` and
has a copy of it to write with, and no reserved-bytes override is in force. Whether pages are
written with the write cipher is left open: `hasWriteCipher` is not part of it. -/
structure Codec.Settled {σ : Type} (codec : Codec σ) (r : σ) : Prop where
  isEncrypted : codec.isEncrypted = true
  hasReadCipher : codec.hasReadCipher = true
  readCipher : codec.readCipher = some r
  writeCipher : codec.writeCipher = some r
  cipherType : codec.writeCipherType = codec.readCipherType
  readReserved : codec.readReserved = -1
  writeReserved : codec.writeReserved = -1

section Facts

variable {σ : Type} {D : ℕ → CipherDescriptor σ}

/-- Encrypting a page for the database file with a codec that has a write cipher. -/
theorem sqlite3mcCodec_database {codec : Codec σ} {w : σ} (henc : codec.isEncrypted = true)
    (hhas : codec.hasWriteCipher = true) (hw : codec.writeCipher = some w) (data : Bytes)
    (page : ℕ) (env : Env) :
    sqlite3mcCodec D codec data page .database env =
      (D codec.writeCipherType).encryptPage w page data codec.writeReservedBytes env := by
  simp [sqlite3mcCodec, henc, hhas, sqlite3mcEncrypt, hw]

/-- What copying the read cipher over the write cipher comes to: the write cipher is then equal
to it, unless a cipher had to be allocated and could not be. -/
theorem sqlite3mcCopyReadToWrite_eq {codec : Codec σ} {r : σ} (hr : codec.readCipher = some r)
    (env : Env) :
    sqlite3mcCopyReadToWrite D codec env =
      let t := cipherForCopy D codec.writeCipherType codec.writeCipher codec.readCipherType env
      (if t.1.isSome then .ok else .nomem, { codec with
        writeCipherType := codec.readCipherType, writeCipher := t.1.map fun _ => r }, t.2) := by
  rcases ht : cipherForCopy D codec.writeCipherType codec.writeCipher codec.readCipherType env
    with ⟨_ | w, env'⟩
  · simp [sqlite3mcCopyReadToWrite, ht]
  · simp [sqlite3mcCopyReadToWrite, ht, cloneInto, hr, CipherDescriptor.cloneCipher_eq]

/-- **A successful setup settles the codec.** -/
theorem sqlite3mcCodecSetup_settled {codec codec' : Codec σ} {cipherType : ℤ} {password : Bytes}
    {dbHeader : Option Bytes} {env env' : Env}
    (hres : codec.readReserved = -1 ∧ codec.writeReserved = -1)
    (h : sqlite3mcCodecSetup D codec cipherType password dbHeader env = (.ok, codec', env')) :
    ∃ r, codec'.Settled r ∧ codec'.hasWriteCipher = true := by
  unfold sqlite3mcCodecSetup at h
  split at h
  · simp at h
  · rcases hal : (D cipherType.toNat).allocateCipher (useCommonParameters env).2.2 with ⟨_ | c, e₁⟩
    · simp [hal] at h
    · simp only [hal] at h
      rcases hg : sqlite3mcGenerateReadKey D cipherType.toNat c password codec.keySalt dbHeader e₁
        with ⟨r, e₂⟩
      rw [hg] at h
      dsimp only at h
      rw [sqlite3mcCopyReadToWrite_eq (r := r) rfl] at h
      dsimp only at h
      split at h
      · rename_i hsome
        obtain ⟨w, hw⟩ := Option.isSome_iff_exists.mp hsome
        simp only [hw, Option.map_some, Prod.mk.injEq] at h
        obtain ⟨-, rfl, -⟩ := h
        exact ⟨r, ⟨rfl, rfl, rfl, rfl, rfl, hres.1, hres.2⟩, rfl⟩
      · simp at h

end Facts

end MultipleCiphers
