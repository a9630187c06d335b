import MultipleCiphers.Storage

/-!
# Changing the key of a database

`sqlite3_rekey_v2` encrypts a plaintext database, decrypts an encrypted one, or changes the key of
an encrypted one. In each case it puts the codec into a mixed state, in which pages are read with
one cipher and written with another, has every page rewritten, and then makes the codec uniform
again. If the number of reserved bytes changes, a VACUUM does the rewriting; otherwise a
transaction over all pages does.

The function has one way out, the code after the label `leave_rekey`, for success and failure.
`leaveRekey` is that code. The three kinds of rekey bring it the result code and the codec as they
have left it.

## The codec of the file

The codec is a local variable of the source, which is at the same time the codec of the database
file from the call of `sqlite3mcSetCodec` on, or from the start if there was one. The pages are
read and written through the codec of the file. At the end the file has the local codec if that is
encrypted, and none otherwise: a codec that was never attached arrives at the end unencrypted.

## Null pointers

The copies at the common end are made without a look at the cipher that is copied. A codec can lack
its read cipher, since no one looks at the result of the copy either. The model returns `none` where
the source clones from a null pointer.

## Main definitions

* `Db`, `RekeyCall` — the state of the database and the arguments of the call.
* `encryptWork`, `decryptWork`, `reencryptWork` — the three kinds of rekey up to the common end.
* `leaveRekey`, `endRekey`, `sqlite3RekeyV2`.
-/

namespace MultipleCiphers

/-- A database as the key operations see it: the codec of its file and the storage under it, with
the environment of its connection. -/
structure Db (σ π : Type) where
  codec : Option (Codec σ)
  store : π
  env : Env

/-- The arguments of `sqlite3_rekey_v2`, with what is found out about the database name. -/
structure RekeyCall where
  /-- `sqlite3mcIsEncryptionSupported`. -/
  isEncryptionSupported : Bool
  /-- Whether there is a database of that name. -/
  dbFound : Bool
  /-- Whether the database has a file name, which one in memory has not. -/
  hasFileName : Bool
  /-- The new key. A null pointer and a length of zero both mean no key. -/
  key : Bytes
  deriving DecidableEq

/-- What the three kinds of rekey bring to the common end. -/
structure RekeyWork (σ π : Type) where
  rc : ResultCode
  codec : Codec σ
  store : π
  env : Env

section Operations

variable {σ π : Type} (D : ℕ → CipherDescriptor σ) (ops : StorageOps σ π)

/-- Whether the page size of the database is one the write cipher can live with. -/
def writePageSizeAgrees (codec : Codec σ) (store : π) : Bool :=
  sqlite3mcGetPageSizeWriteCipher D codec ≤ 0 ∨
    ops.btreeGetPageSize store = sqlite3mcGetPageSizeWriteCipher D codec

/-- The rewriting: by a VACUUM, with the reserved bytes before and after as overrides, if their
number changes from `nReserved` to `nReservedNew`; otherwise page by page. -/
def rewriteWith (nReserved nReservedNew : ℤ) (byVacuum : Bool) (codec : Codec σ) (store : π)
    (env : Env) : RekeyWork σ π :=
  if byVacuum then
    let codec := { codec with readReserved := nReserved, writeReserved := nReservedNew }
    let (rc, store, env) := ops.runVacuumForRekey nReservedNew (some codec) store env
    ⟨rc, codec, store, env⟩
  else
    let (rc, store, env) := rewriteDatabase ops (some codec) store env
    ⟨rc, codec, store, env⟩

/-- The encryption of a plaintext database, after the write cipher has been set up. -/
def encryptWork (codec : Codec σ) (store : π) (env : Env) : RekeyWork σ π :=
  let nReserved := ops.btreeGetReserve store
  if writePageSizeAgrees D ops codec store then
    let codec := { codec with hasReadCipher := false }
    let nReservedWriteCipher := sqlite3mcGetReservedWriteCipher D codec
    let (_, store, env) := mcAdjustBtree ops (sqlite3mcGetPageSizeWriteCipher D codec)
      nReservedWriteCipher (sqlite3mcGetLegacyWriteCipher D codec) store env
    -- the codec is attached to the file here
    let codec := sqlite3mcCodecSizeChange codec nReservedWriteCipher
    rewriteWith ops nReserved nReservedWriteCipher (nReserved ≠ nReservedWriteCipher)
      codec store env
  else ⟨.error, codec, store, env⟩

/-- The decryption of an encrypted database: the write key is dropped. -/
def decryptWork (codec : Codec σ) (store : π) (env : Env) : RekeyWork σ π :=
  let nReserved := ops.btreeGetReserve store
  rewriteWith ops nReserved 0 (nReserved > 0) { codec with hasWriteCipher := false } store env

/-- The change of the key of an encrypted database. -/
def reencryptWork (codec : Codec σ) (key : Bytes) (store : π) (env : Env) : RekeyWork σ π :=
  let nReserved := ops.btreeGetReserve store
  let (cipherType, env) := env.sqlite3mcGetCipherType
  let (rc, codec, env) := sqlite3mcSetupWriteCipher D codec cipherType key
    (ops.readDatabaseHeader store) (ops.pagerUseWal store) env
  if rc = .ok then
    if writePageSizeAgrees D ops codec store then
      let nReservedWriteCipher := sqlite3mcGetReservedWriteCipher D codec
      rewriteWith ops nReserved nReservedWriteCipher (nReserved ≠ nReservedWriteCipher) codec store
        env
    else ⟨.error, codec, store, env⟩
  else ⟨rc, codec, store, env⟩

/-- Whether the copy of `source` in the place of `old` clones from a null pointer: there is a cipher
to clone into and none to clone. -/
def clonesNull (oldType : ℕ) (old : Option σ) (cipherType : ℕ) (source : Option σ) (env : Env) :
    Bool :=
  source.isNone && (cipherForCopy D oldType old cipherType env).1.isSome

/-- The last lines of `sqlite3_rekey_v2`: the overrides of the reserved bytes are taken back, and a
codec that is not encrypted any more is removed. -/
def endRekey (rc : ResultCode) (codec : Codec σ) (store : π) (env : Env) : ResultCode × Db σ π :=
  let codec := { codec with readReserved := -1, writeReserved := -1 }
  (rc, ⟨if codec.isEncrypted then some codec else none, store, env⟩)

/-- The common end after the label `leave_rekey`. The result codes of the copies and of
`mcAdjustBtree` are not looked at. -/
def leaveRekey (w : RekeyWork σ π) : Option (ResultCode × Db σ π) :=
  let codec := w.codec
  if w.rc = .ok then
    if codec.hasWriteCipher then
      if clonesNull D codec.readCipherType codec.readCipher codec.writeCipherType
          codec.writeCipher w.env then none
      else
        let (_, codec, env) := sqlite3mcCopyWriteToRead D codec w.env
        let codec := { codec with hasReadCipher := true }
        let reserved := sqlite3mcGetReservedWriteCipher D codec
        let (_, store, env) := mcAdjustBtree ops (sqlite3mcGetPageSizeWriteCipher D codec) reserved
          (sqlite3mcGetLegacyWriteCipher D codec) w.store env
        some (endRekey w.rc (sqlite3mcCodecSizeChange codec reserved) store env)
    else some (endRekey w.rc { codec with isEncrypted := false } w.store w.env)
  else if codec.hasReadCipher then
    if clonesNull D codec.writeCipherType codec.writeCipher codec.readCipherType
        codec.readCipher w.env then none
    else
      let (_, codec, env) := sqlite3mcCopyReadToWrite D codec w.env
      some (endRekey w.rc codec w.store env)
  else some (endRekey w.rc { codec with isEncrypted := false } w.store w.env)

/-- `sqlite3_rekey_v2` for a database without an encrypted codec and a key that is not empty. With a
codec that is not encrypted the result code keeps its first value, and nothing is done. -/
def rekeyPlaintext (key : Bytes) (db : Db σ π) : Option (ResultCode × Db σ π) :=
  match db.codec with
  | some _ => some (.error, db)
  | none =>
    let (granted, env) := db.env.sqlite3Malloc
    if granted then
      let (cipherType, env) := env.sqlite3mcGetCipherType
      let (rc, codec, env) := sqlite3mcSetupWriteCipher D sqlite3mcCodecInit cipherType key
        (ops.readDatabaseHeader db.store) (ops.pagerUseWal db.store) env
      if rc = .ok then leaveRekey D ops (encryptWork D ops codec db.store env)
      else some (rc, { db with env := env })
    else some (.nomem, { db with env := env })

/-- `sqlite3_rekey_v2`. -/
def sqlite3RekeyV2 (call : RekeyCall) (db : Db σ π) : Option (ResultCode × Db σ π) :=
  if ¬ call.isEncryptionSupported ∨ ¬ call.dbFound ∨ ¬ call.hasFileName then some (.error, db)
  else
    match db.codec.filter Codec.isEncrypted with
    | none =>
      if call.key = [] then some (.ok, db)
      else if ops.pagerUseWal db.store then some (.error, db)
      else rekeyPlaintext D ops call.key db
    | some codec =>
      if call.key = [] then leaveRekey D ops (decryptWork ops codec db.store db.env)
      else leaveRekey D ops (reencryptWork D ops codec call.key db.store db.env)

end Operations

end MultipleCiphers
