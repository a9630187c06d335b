import MultipleCiphers.Rekey.Model
import MultipleCiphers.Ciphers.Common

/-!
# Giving a key to a database that is opened

A key reaches a database in one of three ways: through `sqlite3_key_v2`, through the parameters
`hexkey`, `key` and `textkey` of a URI, and through the KEY clause of ATTACH. All of them end in
`sqlite3mcCodecAttach`, which sets up a codec and hands it to the file, and all of them have to
pass on the result.

## What is a parameter

`KeyTarget` holds what the functions find out about the database: whether its VFS stack has
encryption, whether it has a file name and the file handle is found under it, and the codec of the
main database. `sqlite3mcConfigureFromUri` changes the pending configuration and can fail for an
unknown cipher name; it is a field of the record as well.

## Null pointers

`sqlite3mcCodecQueryParameters` decodes a hexadecimal key into a buffer without a look at whether
it was granted one. The model returns `none` where the source writes through a null pointer. A text
or blob of a positive length is taken to have a value: where memory is too short for it the
statement fails by itself.

## Main definitions

* `sqlite3mcCodecAttach`, `sqlite3KeyV2` — a key given directly.
* `sqlite3mcCodecQueryParameters` — the keys of a URI.
* `sqlite3mcHandleMainKey`, `sqlite3mcHandleAttachKey` — the keys of an open and of an ATTACH.
-/

namespace MultipleCiphers

/-- A database as a key operation finds it. -/
structure KeyTarget (σ : Type) where
  /-- Whether it is the main database, number `0` of its connection. -/
  isMain : Bool
  /-- `sqlite3mcIsEncryptionSupported`: its VFS stack has a Multiple Ciphers VFS. -/
  isEncryptionSupported : Bool
  /-- Whether its file name is not empty, which that of a database in memory is. -/
  hasFileName : Bool
  /-- Whether there is a database of its name. -/
  dbFound : Bool
  /-- Whether `mcFindDbMainFileName` finds its file handle. -/
  fileRegistered : Bool
  /-- `sqlite3mcGetMainCodec`. -/
  mainCodec : Option (Codec σ)
  /-- The text of the parameter `cipher_salt`. -/
  cipherSalt : Option Bytes
  /-- Whether the connection has its parameter table. -/
  isConfigured : Bool
  /-- `sqlite3mcConfigureFromUri`, by the flag `configDefault`. -/
  configureFromUri : Bool → Env → ResultCode × Env

/-- The key parameters of a URI, as `sqlite3_uri_parameter` finds them. -/
structure UriKeys where
  hexkey : Option Bytes
  key : Option Bytes
  textkey : Option Bytes
  deriving DecidableEq

/-- The value of the KEY clause of ATTACH. -/
inductive AttachKey where
  /-- `SQLITE_NULL`, also where there is no KEY clause. -/
  | null
  /-- `SQLITE_INTEGER` and `SQLITE_FLOAT`. -/
  | number
  /-- `SQLITE_TEXT` and `SQLITE_BLOB`. -/
  | bytes (value : Bytes)
  deriving DecidableEq

/-- The key salt of the parameter `cipher_salt`: `32` hexadecimal digits, if it has as many. -/
def keySaltOfText (cipherSalt : Option Bytes) : Option Bytes :=
  match cipherSalt with
  | some text =>
    if 32 ≤ text.length ∧ sqlite3mcIsHexKey (text.take 32) then
      some (sqlite3mcConvertHex2Bin (text.take 32))
    else none
  | none => none

section Operations

variable {σ π : Type} (D : ℕ → CipherDescriptor σ) (ops : StorageOps σ π)

/-- `sqlite3mcSetCodec`: where no file handle is found the codec is freed. -/
def sqlite3mcSetCodec (t : KeyTarget σ) (codec : Option (Codec σ)) (db : Db σ π) : Db σ π :=
  if t.isEncryptionSupported ∧ t.fileRegistered then { db with codec := codec } else db

/-- The end of attaching a codec: the B-tree is adjusted to its write cipher, then the file gets
it. The result code of `mcAdjustBtree` is not looked at. -/
def installCodec (t : KeyTarget σ) (codec : Codec σ) (store : π) (env : Env) (db : Db σ π) :
    Db σ π :=
  let reserved := sqlite3mcGetReservedWriteCipher D codec
  let (_, store, env) := mcAdjustBtree ops (sqlite3mcGetPageSizeWriteCipher D codec) reserved
    (sqlite3mcGetLegacyWriteCipher D codec) store env
  sqlite3mcSetCodec t (some (sqlite3mcCodecSizeChange codec reserved))
    { db with store := store, env := env }

/-- The setup of a codec for a key that is not empty: salt, configuration, ciphers. -/
def attachSetup (t : KeyTarget σ) (key : Bytes) (store : π) (env : Env) :
    ResultCode × Codec σ × Env :=
  let codec : Codec σ := { sqlite3mcCodecInit with keySalt := keySaltOfText t.cipherSalt }
  let (rc, env) := if t.isMain then (.ok, env) else t.configureFromUri false env
  if rc = .ok then
    let (cipherType, env) := env.sqlite3mcGetCipherType
    let (rc, codec, env) :=
      sqlite3mcCodecSetup D codec cipherType key (ops.readDatabaseHeader store) env
    (rc, sqlite3mcClearKeySalt codec, env)
  else (rc, codec, env)

/-- `sqlite3mcCodecAttach`. Without a key an attached database gets the codec of the main database
if it is called with the length that `sqlite3mcCodecGetKey` returns for an encrypted one, and the
main database loses its codec. -/
def sqlite3mcCodecAttach (t : KeyTarget σ) (zKey : Option Bytes) (nKey : ℤ) (db : Db σ π) :
    ResultCode × Db σ π :=
  let (granted, env) := db.env.sqlite3Malloc
  if granted then
    match zKey.filter fun _ => nKey > 0 with
    | some key =>
      let (rc, codec, env) := attachSetup D ops t key db.store env
      if rc = .ok then (.ok, installCodec D ops t codec db.store env db)
      else (rc, { db with env := env })
    | none =>
      if t.isMain = false ∧ nKey > 0 then
        match t.mainCodec.filter Codec.isEncrypted with
        | some mainCodec =>
          let (rc, codec, env) := sqlite3mcCodecCopy D sqlite3mcCodecInit mainCodec env
          if rc = .ok then (.ok, installCodec D ops t codec db.store env db)
          else (rc, { db with env := env })
        | none => (.ok, { db with env := env })
      else if t.isMain ∧ nKey = 0 then (.ok, sqlite3mcSetCodec t none { db with env := env })
      else (.ok, { db with env := env })
  else (.nomem, { db with env := env })

/-- `sqlite3mcCodecGetKey`: the key length `1` stands for an encrypted main database. -/
def sqlite3mcCodecGetKey (mainCodec : Option (Codec σ)) : Option Bytes × ℤ :=
  (none, if mainCodec.any Codec.isEncrypted then 1 else 0)

/-- `sqlite3_key_v2`. A negative length stands for the length of the text. -/
def sqlite3KeyV2 (t : KeyTarget σ) (zKey : Option Bytes) (nKey : ℤ) (db : Db σ π) :
    ResultCode × Db σ π :=
  if t.isEncryptionSupported then
    match zKey with
    | some key =>
      let nKey := if nKey < 0 then (key.length : ℤ) else nKey
      if t.hasFileName then
        let env := if t.isConfigured then db.env else (t.configureFromUri false db.env).2
        if t.dbFound then
          sqlite3mcCodecAttach D ops t (some (key.take nKey.toNat)) nKey { db with env := env }
        else (.error, { db with env := env })
      else (.error, db)
    | none => (.error, db)
  else (.error, db)

/-- The digits the parameter `hexkey` is decoded from: it is read up to the first character that
is none. -/
def hexkeyDigits (hexkey : Bytes) : Bytes := hexkey.takeWhile fun c => (hexDigit c).isSome

/-- `sqlite3mcCodecQueryParameters`: whether the URI has one of the parameters. The result of
`sqlite3_key_v2` is dropped. -/
def sqlite3mcCodecQueryParameters (t : KeyTarget σ) (uri : UriKeys) (db : Db σ π) :
    Option (Bool × Db σ π) :=
  match uri.hexkey.filter (· ≠ []) with
  | some hexkey =>
    let (granted, env) := db.env.sqlite3Malloc
    let decoded := sqlite3mcConvertHex2Bin (hexkeyDigits hexkey)
    if granted then
      some (true, (sqlite3KeyV2 D ops t (some decoded) decoded.length { db with env := env }).2)
    else if decoded = [] then
      some (true, (sqlite3KeyV2 D ops t none 0 { db with env := env }).2)
    else none
  | none =>
    match uri.key, uri.textkey with
    | some key, _ => some (true, (sqlite3KeyV2 D ops t (some key) key.length db).2)
    | none, some key => some (true, (sqlite3KeyV2 D ops t (some key) (-1) db).2)
    | none, none => some (false, db)

/-- `sqlite3mcHandleMainKey`: the last step of opening a connection. -/
def sqlite3mcHandleMainKey (t : KeyTarget σ) (uri : UriKeys) (db : Db σ π) :
    Option (ResultCode × Db σ π) :=
  let (rc, env) := t.configureFromUri true db.env
  let db := { db with env := env }
  if rc = .ok then (sqlite3mcCodecQueryParameters D ops t uri db).map fun r => (.ok, r.2)
  else some (rc, db)

/-- `sqlite3mcHandleAttachKey`. -/
def sqlite3mcHandleAttachKey (t : KeyTarget σ) (uri : UriKeys) (key : AttachKey) (db : Db σ π) :
    Option (ResultCode × Db σ π) :=
  match key with
  | .number => some (.error, db)
  | .bytes value =>
    some (sqlite3mcCodecAttach D ops t (if value = [] then none else some value) value.length db)
  | .null =>
    (sqlite3mcCodecQueryParameters D ops t uri db).map fun r =>
      if r.1 then (.ok, r.2)
      else
        let (zKey, nKey) := sqlite3mcCodecGetKey t.mainCodec
        if nKey ≠ 0 then sqlite3mcCodecAttach D ops t zKey nKey r.2 else (.ok, r.2)

/-- The part of `openDatabase` after the main database file has been opened. A file handle that
has just been opened has no codec. -/
def openDatabase (t : KeyTarget σ) (uri : UriKeys) (store : π) (env : Env) :
    Option (ResultCode × Db σ π) :=
  sqlite3mcHandleMainKey D ops t uri ⟨none, store, env⟩

/-- The part of ATTACH after the file has been opened: the key, and then the schema is read with
the result `schemaRc`. -/
def attachDatabase (t : KeyTarget σ) (uri : UriKeys) (key : AttachKey) (schemaRc : ResultCode)
    (store : π) (env : Env) : Option (ResultCode × Db σ π) :=
  (sqlite3mcHandleAttachKey D ops t uri key ⟨none, store, env⟩).map fun r =>
    (if r.1 = .ok then schemaRc else r.1, r.2)

end Operations

end MultipleCiphers
