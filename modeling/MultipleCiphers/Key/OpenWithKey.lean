import MultipleCiphers.Key.KeyedWith
import Mathlib.Data.List.TakeWhile

/-!
# Whether a database opened with a key is encrypted with it

Whoever opens a database with a key in its URI, or attaches one with a KEY clause, and is told that
this went well, takes the file for encrypted with that key. There are six ways in which it is not:

* the result of `sqlite3_key_v2` is dropped where the key comes from a URI, so that no failure of
  the installation is reported;
* a malformed hexadecimal key is cut off at the first character that is no digit, and an odd last
  digit is dropped;
* a parameter `key` that is there and empty hides a `textkey`;
* the buffer of the decoded key is written to even if it was not allocated;
* ATTACH with a KEY clause asks nobody whether the VFS has encryption, and `sqlite3mcSetCodec`
  quietly frees a codec for which there is no file;
* an AEGIS key that Argon2id does not deliver is a key of zeros, whatever the password was.

## What is asked for

`KeyRequest` is what the user asks for. Of the three parameters the first that is not empty counts,
in the order in which the source looks at them.

## Main results

* `openedWithKey_iff` — exactly when an open and an ATTACH honour the request.
* `open_silently_unencrypted` — an open that does not.
-/

namespace MultipleCiphers

/-- What a user asks for by the parameters of a URI or a KEY clause. -/
inductive KeyRequest where
  /-- No key, or an empty one. -/
  | none
  /-- Something that is no key. -/
  | malformed
  | key (key : Bytes)
  deriving DecidableEq

/-- A hexadecimal key as it should be: digits only, two for each byte. -/
def wellFormedHexkey (hexkey : Bytes) : Bool :=
  sqlite3mcIsHexKey hexkey ∧ hexkey.length % 2 = 0

/-- What the parameters of a URI ask for. -/
def uriRequest (uri : UriKeys) : KeyRequest :=
  match uri.hexkey.filter (· ≠ []) with
  | some hexkey =>
    if wellFormedHexkey hexkey then .key (sqlite3mcConvertHex2Bin hexkey) else .malformed
  | none =>
    match (uri.key.filter (· ≠ [])).or (uri.textkey.filter (· ≠ [])) with
    | some key => .key key
    | none => .none

/-- What an ATTACH asks for. -/
def attachRequest (uri : UriKeys) (key : AttachKey) : KeyRequest :=
  match key with
  | .null => uriRequest uri
  | .number => .malformed
  | .bytes value => if value = [] then .none else .key value

section Honoured

variable {π : Type} (P : Primitives) (ops : StorageOps Cipher π)

/-- What was asked for is what the file has. Something that is no key cannot be had. -/
def Delivered (request : KeyRequest) (codec : Option (Codec Cipher)) : Prop :=
  match request with
  | .none => True
  | .malformed => False
  | .key key => ∃ c, codec = some c ∧ KeyedWith P key c

/-- **The request is honoured**: the operation comes to an end, and if it reports success, the file
has an encrypted codec keyed with the key that was asked for. -/
def Honoured (request : KeyRequest) (result : Option (ResultCode × Db Cipher π)) : Prop :=
  ∃ rc db, result = some (rc, db) ∧ (rc = .ok → Delivered P request db.codec)

/-! ### The conditions -/

/-- The outcome of the configuration from the URI, which only an attached database goes through when
it gets its key. -/
def keyConfiguration (t : KeyTarget Cipher) (env : Env) : ResultCode × Env :=
  if t.isMain then (.ok, env) else t.configureFromUri false env

/-- The codec can be set up: the memory for it is granted, the configuration succeeds, and then the
memory for two ciphers of the pending type. -/
def SetUpGranted (t : KeyTarget Cipher) (env : Env) : Prop :=
  let configured := keyConfiguration t env.sqlite3Malloc.2
  env.malloc 0 = true ∧ configured.1 = .ok ∧
    CiphersAllocated configured.2.sqlite3mcGetCipherType.1 configured.2

/-- The keys that are asked for are had, and there is a file that the codec can be handed to. -/
def KeyInstalled (t : KeyTarget Cipher) (key : Bytes) (store : π) (env : Env) : Prop :=
  let configured := (keyConfiguration t env.sqlite3Malloc.2).2
  KeyDerived P configured.sqlite3mcGetCipherType.1 key (keySaltOfText t.cipherSalt)
      (ops.readDatabaseHeader store) configured ∧
    t.isEncryptionSupported = true ∧ t.fileRegistered = true

/-- The key is installed: the codec is set up and the file gets it. -/
def Installs (t : KeyTarget Cipher) (key : Bytes) (store : π) (env : Env) : Prop :=
  SetUpGranted t env ∧ KeyInstalled P ops t key store env

/-- The buffer of the decoded key is allocated, if anything is written to it. -/
def BufferGranted (uri : UriKeys) (env : Env) : Prop :=
  ∀ hexkey, uri.hexkey = some hexkey →
    sqlite3mcConvertHex2Bin (hexkeyDigits hexkey) ≠ [] → env.malloc 0 = true

/-- The environment in which the key of a URI is installed. -/
def uriKeyEnv (t : KeyTarget Cipher) (uri : UriKeys) (env : Env) : Env :=
  let env := if (uri.hexkey.filter (· ≠ [])).isSome then env.sqlite3Malloc.2 else env
  if t.isConfigured then env else (t.configureFromUri false env).2

/-- What the URI asks for is what gets installed: nothing, or a key that is well-formed, not hidden
by an empty parameter `key`, for a database file that takes it. -/
def UriInstalls (t : KeyTarget Cipher) (uri : UriKeys) (store : π) (env : Env) : Prop :=
  match uriRequest uri with
  | .none => True
  | .malformed => False
  | .key key =>
    (uri.hexkey.filter (· ≠ []) = none → uri.key ≠ some []) ∧ t.hasFileName = true ∧
      t.dbFound = true ∧ Installs P ops t key store (uriKeyEnv t uri env)

/-- The condition for an open. -/
def OpenCondition (t : KeyTarget Cipher) (uri : UriKeys) (store : π) (env : Env) : Prop :=
  (t.configureFromUri true env).1 = .ok →
    BufferGranted uri (t.configureFromUri true env).2 ∧
      UriInstalls P ops t uri store (t.configureFromUri true env).2

/-- The condition for an ATTACH whose schema is read with the result `schemaRc`. -/
def AttachCondition (t : KeyTarget Cipher) (uri : UriKeys) (key : AttachKey) (schemaRc : ResultCode)
    (store : π) (env : Env) : Prop :=
  match key with
  | .number => True
  | .bytes value =>
    schemaRc = .ok → value ≠ [] → SetUpGranted t env → KeyInstalled P ops t value store env
  | .null => BufferGranted uri env ∧ (schemaRc = .ok → UriInstalls P ops t uri store env)

end Honoured

section Facts

variable {π : Type} {P : Primitives} {ops : StorageOps Cipher π} {t : KeyTarget Cipher}

/-! ### Installing a codec -/

theorem Env.aegisSettings_getCipherType (env : Env) :
    env.sqlite3mcGetCipherType.2.aegisSettings = env.aegisSettings := by
  simp (disch := decide) only [Env.sqlite3mcGetCipherType_env, Env.aegisSettings,
    Env.pendingParameter_getCipherParameter]

/-- Looking up the pending cipher leaves all alone that the keys are derived with. -/
theorem keyDerived_getCipherType {cipherType : ℤ} {key : Bytes} {keySalt dbHeader : Option Bytes}
    (env : Env) :
    KeyDerived P cipherType key keySalt dbHeader env.sqlite3mcGetCipherType.2 ↔
      KeyDerived P cipherType key keySalt dbHeader env := by
  rw [KeyDerived, KeyDerived, Env.aegisSettings_getCipherType]
  rfl

/-- Neither the size of a page nor the salt that was given makes a difference to the keys. -/
theorem keyedWith_sizeChange {key : Bytes} {codec : Codec Cipher} {reserved : ℤ} :
    KeyedWith P key (sqlite3mcCodecSizeChange (sqlite3mcClearKeySalt codec) reserved) ↔
      KeyedWith P key codec := by
  refine exists_congr fun cipher => and_congr_left' ⟨fun h => ?_, fun h => ?_⟩
  · exact ⟨h.isEncrypted, h.hasReadCipher, h.readCipher, h.writeCipher, h.cipherType,
      h.readReserved, h.writeReserved⟩
  · exact ⟨h.isEncrypted, h.hasReadCipher, h.readCipher, h.writeCipher, h.cipherType,
      h.readReserved, h.writeReserved⟩

variable (P ops t) in
/-- When the set-up of a codec succeeds, and when it is then keyed with its password. -/
theorem attachSetup_spec (key : Bytes) (store : π) (env : Env) :
    let r := attachSetup (builtinDescriptors P) ops t key store env
    let configured := keyConfiguration t env
    (r.1 = .ok ↔ configured.1 = .ok ∧
      CiphersAllocated configured.2.sqlite3mcGetCipherType.1 configured.2) ∧
    (r.1 = .ok → ∀ reserved, KeyedWith P key (sqlite3mcCodecSizeChange r.2.1 reserved) ↔
      KeyDerived P configured.2.sqlite3mcGetCipherType.1 key (keySaltOfText t.cipherSalt)
        (ops.readDatabaseHeader store) configured.2) := by
  intro r configured
  have hr : r = if configured.1 = .ok then
      let s := sqlite3mcCodecSetup (builtinDescriptors P)
        { sqlite3mcCodecInit with keySalt := keySaltOfText t.cipherSalt }
        configured.2.sqlite3mcGetCipherType.1 key (ops.readDatabaseHeader store)
        configured.2.sqlite3mcGetCipherType.2
      (s.1, sqlite3mcClearKeySalt s.2.1, s.2.2)
    else (configured.1, { sqlite3mcCodecInit with keySalt := keySaltOfText t.cipherSalt },
      configured.2) := rfl
  by_cases hconf : configured.1 = .ok
  · rw [if_pos hconf] at hr
    have hallocated : r.1 = .ok ↔
        CiphersAllocated configured.2.sqlite3mcGetCipherType.1 configured.2 := by
      rw [hr]
      exact sqlite3mcCodecSetup_allocated
    refine ⟨hallocated.trans (and_iff_right hconf).symm, fun hok reserved => ?_⟩
    rcases hset : sqlite3mcCodecSetup (builtinDescriptors P)
      { sqlite3mcCodecInit with keySalt := keySaltOfText t.cipherSalt }
      configured.2.sqlite3mcGetCipherType.1 key (ops.readDatabaseHeader store)
      configured.2.sqlite3mcGetCipherType.2 with ⟨rc, codec, env'⟩
    rw [hset] at hr
    rw [hr] at hok ⊢
    obtain rfl : rc = .ok := hok
    rw [keyedWith_sizeChange, sqlite3mcCodecSetup_keyed hset, keyDerived_getCipherType]
  · rw [if_neg hconf] at hr
    rw [hr]
    exact ⟨iff_of_false hconf fun h => hconf h.1, fun h => absurd h hconf⟩

/-- Attaching a key that is not empty. -/
theorem sqlite3mcCodecAttach_key {key : Bytes} (hkey : key ≠ []) (db : Db Cipher π) :
    sqlite3mcCodecAttach (builtinDescriptors P) ops t (some key) key.length db =
      if db.env.malloc 0 then
        let s := attachSetup (builtinDescriptors P) ops t key db.store db.env.sqlite3Malloc.2
        if s.1 = .ok then (.ok, installCodec (builtinDescriptors P) ops t s.2.1 db.store s.2.2 db)
        else (s.1, { db with env := s.2.2 })
      else (.nomem, { db with env := db.env.sqlite3Malloc.2 }) := by
  have hpos : (decide ((key.length : ℤ) > 0)) = true := by
    have := List.length_pos_iff.mpr hkey
    simpa using this
  simp only [sqlite3mcCodecAttach, hpos, Option.filter_some, if_true, Env.sqlite3Malloc]

/-- Installing a codec hands it to the file, if there is one. -/
theorem installCodec_codec (codec : Codec Cipher) (store : π) (env : Env) {db : Db Cipher π}
    (hnone : db.codec = none) :
    (installCodec (builtinDescriptors P) ops t codec store env db).codec =
      if t.isEncryptionSupported ∧ t.fileRegistered then
        some (sqlite3mcCodecSizeChange codec
          (sqlite3mcGetReservedWriteCipher (builtinDescriptors P) codec))
      else none := by
  simp only [installCodec, sqlite3mcSetCodec]
  by_cases h : t.isEncryptionSupported = true ∧ t.fileRegistered = true
  · rw [if_pos h, if_pos h]
  · rw [if_neg h, if_neg h]
    exact hnone

/-- A file without a codec is keyed with nothing. -/
theorem keyed_iff_of_none {key : Bytes} {fileCodec : Option (Codec Cipher)}
    (hnone : fileCodec = none) {Q : Prop} (hQ : ¬ Q) :
    (∃ codec, fileCodec = some codec ∧ KeyedWith P key codec) ↔ Q := by
  refine iff_of_false ?_ hQ
  rintro ⟨codec, h, -⟩
  rw [hnone] at h
  cases h

variable (P ops t) in
/-- **Attaching a key** gives a file without a codec one that is keyed with it, exactly if the key
can be installed, and succeeds exactly if the codec can be set up. -/
theorem sqlite3mcCodecAttach_installs {key : Bytes} (hkey : key ≠ []) {db : Db Cipher π}
    (hnone : db.codec = none) :
    let r := sqlite3mcCodecAttach (builtinDescriptors P) ops t (some key) key.length db
    ((∃ codec, r.2.codec = some codec ∧ KeyedWith P key codec) ↔
      Installs P ops t key db.store db.env) ∧
    (r.1 = .ok ↔ SetUpGranted t db.env) := by
  rw [sqlite3mcCodecAttach_key hkey, Installs, SetUpGranted]
  by_cases hmalloc : db.env.malloc 0 = true
  · obtain ⟨hok, hkeyed⟩ := attachSetup_spec P ops t key db.store db.env.sqlite3Malloc.2
    rw [if_pos hmalloc]
    dsimp only
    by_cases hset : (attachSetup (builtinDescriptors P) ops t key db.store
        db.env.sqlite3Malloc.2).1 = .ok
    · have hgranted := hok.mp hset
      rw [if_pos hset, installCodec_codec _ _ _ hnone]
      refine ⟨?_, iff_of_true rfl ⟨hmalloc, hgranted⟩⟩
      by_cases hfile : t.isEncryptionSupported = true ∧ t.fileRegistered = true
      · rw [if_pos hfile]
        constructor
        · rintro ⟨codec, h, hcodec⟩
          obtain rfl := Option.some.inj h
          exact ⟨⟨hmalloc, hgranted⟩, (hkeyed hset _).mp hcodec, hfile⟩
        · rintro ⟨-, hderived, -⟩
          exact ⟨_, rfl, (hkeyed hset _).mpr hderived⟩
      · rw [if_neg hfile]
        exact keyed_iff_of_none rfl fun h => hfile h.2.2
    · rw [if_neg hset]
      have hrefused : ¬ _ := fun h => hset (hok.mpr h)
      exact ⟨keyed_iff_of_none hnone fun h => hrefused h.1.2,
        iff_of_false hset fun h => hrefused h.2⟩
  · rw [if_neg hmalloc]
    exact ⟨keyed_iff_of_none hnone fun h => hmalloc h.1.1,
      iff_of_false nofun fun h => hmalloc h.1⟩

/-! ### Keys of a URI -/

/-- **`sqlite3_key_v2` with a key** gives a file without a codec one that is keyed with it, exactly
if the database has a name and the key can be installed. -/
theorem sqlite3KeyV2_installs {key : Bytes} (hkey : key ≠ []) {nKey : ℤ}
    (hlen : nKey = key.length ∨ nKey = -1) {db : Db Cipher π} (hnone : db.codec = none) :
    (∃ codec, (sqlite3KeyV2 (builtinDescriptors P) ops t (some key) nKey db).2.codec = some codec ∧
        KeyedWith P key codec) ↔
      t.hasFileName = true ∧ t.dbFound = true ∧ Installs P ops t key db.store
        (if t.isConfigured then db.env else (t.configureFromUri false db.env).2) := by
  have hnKey : (if nKey < 0 then (key.length : ℤ) else nKey) = key.length := by
    rcases hlen with rfl | rfl
    · rw [if_neg (by omega)]
    · rw [if_pos (by omega)]
  simp only [sqlite3KeyV2, hnKey]
  by_cases hsup : t.isEncryptionSupported = true
  · rw [if_pos hsup]
    by_cases hname : t.hasFileName = true
    · rw [if_pos hname]
      by_cases hfound : t.dbFound = true
      · rw [if_pos hfound, Int.toNat_natCast, List.take_length]
        rw [(sqlite3mcCodecAttach_installs P ops t hkey (by exact hnone)).1]
        simp only [hname, hfound, true_and]
      · rw [if_neg hfound]
        exact keyed_iff_of_none hnone fun h => hfound h.2.1
    · rw [if_neg hname]
      exact keyed_iff_of_none hnone fun h => hname h.1
  · rw [if_neg hsup]
    exact keyed_iff_of_none hnone fun h => hsup h.2.2.2.2.1

variable (P ops t) in
/-- An empty key gives a file no codec. -/
theorem sqlite3KeyV2_empty {db : Db Cipher π} (hnone : db.codec = none) :
    (sqlite3KeyV2 (builtinDescriptors P) ops t (some []) 0 db).2.codec = none := by
  have hset : ∀ env : Env, (sqlite3mcSetCodec t none { db with env := env }).codec = none := by
    intro env
    simp only [sqlite3mcSetCodec]
    split
    · rfl
    · exact hnone
  have hattach : ∀ env : Env,
      (sqlite3mcCodecAttach (builtinDescriptors P) ops t (some []) 0
        { db with env := env }).2.codec = none := by
    intro env
    have hfilter : (some ([] : Bytes)).filter (fun _ => decide ((0 : ℤ) > 0)) = none := rfl
    simp only [sqlite3mcCodecAttach, hfilter]
    rw [if_neg (c := t.isMain = false ∧ (0 : ℤ) > 0) (by simp)]
    split
    · split
      · exact hset _
      · exact hnone
    · exact hnone
  simp only [sqlite3KeyV2]
  split
  · split
    · split
      · exact hattach _
      · exact hnone
    · exact hnone
  · exact hnone

/-- A well-formed hexadecimal key is decoded as a whole, and to at least one byte. -/
theorem wellFormedHexkey_decoded {hexkey : Bytes} (hne : hexkey ≠ [])
    (h : wellFormedHexkey hexkey = true) :
    hexkeyDigits hexkey = hexkey ∧ sqlite3mcConvertHex2Bin hexkey ≠ [] := by
  simp only [wellFormedHexkey, decide_eq_true_eq, sqlite3mcIsHexKey, List.all_eq_true] at h
  obtain ⟨hdigits, heven⟩ := h
  constructor
  · exact List.takeWhile_eq_self_iff.mpr hdigits
  · match hexkey, hne, heven with
    | [_], _, heven => simp at heven
    | _ :: _ :: _, _, _ => simp [sqlite3mcConvertHex2Bin]

/-- Where a buffer is not granted, nothing can be said about the end of the operation. -/
theorem queryParameters_crash {uri : UriKeys} {db : Db Cipher π} (h : ¬ BufferGranted uri db.env) :
    sqlite3mcCodecQueryParameters (builtinDescriptors P) ops t uri db = none := by
  simp only [BufferGranted, not_forall] at h
  obtain ⟨hexkey, hhex, hdecoded, hmalloc⟩ := h
  have hne : hexkey ≠ [] := by
    rintro rfl
    exact hdecoded rfl
  have hfilter : uri.hexkey.filter (· ≠ []) = some hexkey := by
    rw [hhex, Option.filter_some, if_pos (by simpa using hne)]
  simp only [sqlite3mcCodecQueryParameters, hfilter, Env.sqlite3Malloc, if_neg hmalloc,
    if_neg hdecoded]

theorem filter_nil_key : (some ([] : Bytes)).filter (· ≠ []) = none := rfl

theorem filter_key {key : Bytes} (h : key ≠ []) : (some key).filter (· ≠ []) = some key := by
  rw [Option.filter_some, if_pos (by simpa using h)]

variable (P ops t) in
/-- **The keys of a URI.** Where the buffer is granted the parameters are worked through, and
deliver what was asked for exactly if that is what gets installed. -/
theorem queryParameters_delivers {uri : UriKeys} (store : π) {env : Env}
    (hbuffer : BufferGranted uri env) :
    ∃ r, sqlite3mcCodecQueryParameters (builtinDescriptors P) ops t uri
      ⟨none, store, env⟩ = some r ∧
      (Delivered P (uriRequest uri) r.2.codec ↔ UriInstalls P ops t uri store env) ∧
      (r.1 = false → uriRequest uri = .none) := by
  rcases hhex : uri.hexkey.filter (· ≠ []) with _ | hexkey
  · -- no hexadecimal key: `key` if it is there, else `textkey`
    simp only [sqlite3mcCodecQueryParameters, uriRequest, UriInstalls, hhex, uriKeyEnv,
      Option.isSome_none, Bool.false_eq_true, if_false]
    rcases hkey : uri.key with _ | key
    · rcases htext : uri.textkey with _ | key
      · exact ⟨_, rfl, iff_of_true trivial trivial, fun _ => rfl⟩
      · refine ⟨_, rfl, ?_, fun h => by cases h⟩
        by_cases hne : key = []
        · subst hne
          exact iff_of_true trivial trivial
        · rw [filter_key hne]
          simp only [Option.filter_none, Option.none_or, Delivered]
          rw [sqlite3KeyV2_installs hne (Or.inr rfl) rfl]
          simp
    · refine ⟨_, rfl, ?_, fun h => by cases h⟩
      by_cases hne : key = []
      · -- an empty `key` is what gets installed, whatever the other parameter
        subst hne
        have hnone := sqlite3KeyV2_empty P ops t
            (show (⟨none, store, env⟩ : Db Cipher π).codec = none from rfl)
        rw [filter_nil_key, Option.none_or]
        rcases uri.textkey.filter (· ≠ []) with _ | text
        · exact iff_of_true trivial trivial
        · refine iff_of_false ?_ fun h => h.1 trivial rfl
          rintro ⟨codec, hcodec, -⟩
          exact absurd (hcodec.symm.trans hnone) (by simp)
      · rw [filter_key hne]
        simp only [Option.some_or, Delivered]
        rw [sqlite3KeyV2_installs hne (Or.inl rfl) rfl]
        simp [hne]
  · -- a hexadecimal key
    obtain ⟨hsome, hne⟩ := Option.filter_eq_some_iff.mp hhex
    have hne : hexkey ≠ [] := by simpa using hne
    by_cases hwell : wellFormedHexkey hexkey = true
    · obtain ⟨hdigits, hdecoded⟩ := wellFormedHexkey_decoded hne hwell
      have hmalloc : env.malloc 0 = true := hbuffer hexkey hsome (by rw [hdigits]; exact hdecoded)
      have hquery : sqlite3mcCodecQueryParameters (builtinDescriptors P) ops t uri
          ⟨none, store, env⟩ =
          some (true, (sqlite3KeyV2 (builtinDescriptors P) ops t
            (some (sqlite3mcConvertHex2Bin hexkey))
            (sqlite3mcConvertHex2Bin hexkey).length ⟨none, store, env.sqlite3Malloc.2⟩).2) := by
        simp only [sqlite3mcCodecQueryParameters, hhex, Env.sqlite3Malloc, hmalloc,
          hdigits, if_true]
      refine ⟨_, hquery, ?_, fun h => by cases h⟩
      simp only [uriRequest, UriInstalls, hhex, hwell, if_true, uriKeyEnv, Option.isSome_some,
        Delivered]
      rw [sqlite3KeyV2_installs hdecoded (Or.inl rfl) rfl]
      simp
    · have hmalformed : uriRequest uri = .malformed := by
        simp only [uriRequest, hhex, if_neg hwell]
      simp only [UriInstalls, hmalformed]
      have hends : ∃ db, sqlite3mcCodecQueryParameters (builtinDescriptors P) ops t uri
          ⟨none, store, env⟩ =
          some (true, db) := by
        simp only [sqlite3mcCodecQueryParameters, hhex, Env.sqlite3Malloc]
        by_cases hmalloc : env.malloc 0 = true
        · simp [hmalloc]
        · have hdecoded : sqlite3mcConvertHex2Bin (hexkeyDigits hexkey) = [] := by
            by_contra hdecoded
            exact hmalloc (hbuffer hexkey hsome hdecoded)
          simp [hmalloc, hdecoded]
      obtain ⟨db, hdb⟩ := hends
      exact ⟨_, hdb, Iff.rfl, fun h => by cases h⟩

/-! ### Opening and attaching -/

/-- Success with nothing installed of what was asked for, or a crash, is all that can go wrong. -/
theorem honoured_map {request : KeyRequest} {result : Option (Bool × Db Cipher π)}
    {f : Bool × Db Cipher π → ResultCode × Db Cipher π} {r : Bool × Db Cipher π}
    (hr : result = some r) :
    Honoured P request (result.map f) ↔
      ((f r).1 = .ok → Delivered P request (f r).2.codec) := by
  rw [hr, Option.map_some]
  constructor
  · rintro ⟨rc, db, heq, h⟩
    obtain ⟨rfl, rfl⟩ := Prod.mk.inj (Option.some.inj heq)
    exact h
  · intro h
    exact ⟨_, _, rfl, h⟩

theorem openDatabase_honoured_iff (uri : UriKeys) (store : π) (env : Env) :
    Honoured P (uriRequest uri) (openDatabase (builtinDescriptors P) ops t uri store env) ↔
      OpenCondition P ops t uri store env := by
  simp only [openDatabase, sqlite3mcHandleMainKey, OpenCondition]
  by_cases hrc : (t.configureFromUri true env).1 = .ok
  · rw [if_pos hrc]
    by_cases hbuffer : BufferGranted uri (t.configureFromUri true env).2
    · obtain ⟨r, hr, hdeliver, -⟩ := queryParameters_delivers P ops t store hbuffer
      rw [honoured_map hr]
      exact ⟨fun h _ => ⟨hbuffer, hdeliver.mp (h rfl)⟩, fun h _ => hdeliver.mpr (h hrc).2⟩
    · rw [queryParameters_crash (by exact hbuffer)]
      refine iff_of_false ?_ fun h => hbuffer (h hrc).1
      rintro ⟨_, _, h, -⟩
      cases h
  · rw [if_neg hrc]
    exact iff_of_true ⟨_, _, rfl, fun h => absurd h hrc⟩ fun h => absurd h hrc

theorem attachDatabase_bytes_iff {value : Bytes} (uri : UriKeys) (schemaRc : ResultCode) (store : π)
    (env : Env) :
    Honoured P (attachRequest uri (.bytes value))
        (attachDatabase (builtinDescriptors P) ops t uri (.bytes value) schemaRc store env) ↔
      AttachCondition P ops t uri (.bytes value) schemaRc store env := by
  simp only [attachDatabase, sqlite3mcHandleAttachKey, AttachCondition, attachRequest,
    Option.map_some]
  by_cases hne : value = []
  · simp only [if_pos hne]
    exact iff_of_true ⟨_, _, rfl, fun _ => trivial⟩ fun _ h => absurd hne h
  · simp only [if_neg hne]
    obtain ⟨hinstalls, hrc⟩ := sqlite3mcCodecAttach_installs P ops t hne
      (show (⟨none, store, env⟩ : Db Cipher π).codec = none from rfl)
    constructor
    · rintro ⟨rc, db, heq, h⟩ hschema _ hgranted
      obtain ⟨rfl, rfl⟩ := Prod.mk.inj (Option.some.inj heq)
      rw [if_pos (hrc.mpr hgranted)] at h
      exact (hinstalls.mp (h hschema)).2
    · intro h
      refine ⟨_, _, rfl, fun hok => ?_⟩
      by_cases hattach : (sqlite3mcCodecAttach (builtinDescriptors P) ops t (some value)
          value.length ⟨none, store, env⟩).1 = .ok
      · rw [if_pos hattach] at hok
        have hgranted := hrc.mp hattach
        exact hinstalls.mpr ⟨hgranted, h hok hne hgranted⟩
      · rw [if_neg hattach] at hok
        exact absurd hok hattach

theorem attachDatabase_null_iff (uri : UriKeys) (schemaRc : ResultCode) (store : π) (env : Env) :
    Honoured P (uriRequest uri)
        (attachDatabase (builtinDescriptors P) ops t uri .null schemaRc store env) ↔
      BufferGranted uri env ∧ (schemaRc = .ok → UriInstalls P ops t uri store env) := by
  simp only [attachDatabase, sqlite3mcHandleAttachKey, Option.map_map]
  by_cases hbuffer : BufferGranted uri env
  · obtain ⟨⟨found, db⟩, hr, hdeliver, hnone⟩ := queryParameters_delivers P ops t store hbuffer
    rw [honoured_map hr]
    cases found with
    | true => exact ⟨fun h => ⟨hbuffer, fun hok => hdeliver.mp (h hok)⟩,
        fun h hok => hdeliver.mpr (h.2 hok)⟩
    | false =>
      -- the URI has no key, and nothing was asked for
      have hrequest := hnone rfl
      refine iff_of_true (fun _ => ?_) ⟨hbuffer, fun _ => ?_⟩
      · rw [hrequest]
        trivial
      · simp only [UriInstalls, hrequest]
  · rw [queryParameters_crash (by exact hbuffer)]
    refine iff_of_false ?_ fun h => hbuffer h.1
    rintro ⟨_, _, h, -⟩
    cases h

/-- **When a database opened with a key is encrypted with it.** For every URI and KEY clause, every
VFS, every outcome of the configuration and of the allocations: an open honours the key it is given
if and only if it meets `OpenCondition`, and an ATTACH if and only if it meets
`AttachCondition`. -/
theorem openedWithKey_iff (P : Primitives) (ops : StorageOps Cipher π) (t : KeyTarget Cipher)
    (uri : UriKeys) (key : AttachKey) (schemaRc : ResultCode) (store : π) (env : Env) :
    (Honoured P (uriRequest uri) (openDatabase (builtinDescriptors P) ops t uri store env) ↔
        OpenCondition P ops t uri store env) ∧
      (Honoured P (attachRequest uri key)
          (attachDatabase (builtinDescriptors P) ops t uri key schemaRc store env) ↔
        AttachCondition P ops t uri key schemaRc store env) := by
  refine ⟨openDatabase_honoured_iff uri store env, ?_⟩
  cases key with
  | null => exact attachDatabase_null_iff uri schemaRc store env
  | number => exact iff_of_true ⟨.error, _, rfl, fun h => by cases h⟩ trivial
  | bytes value => exact attachDatabase_bytes_iff uri schemaRc store env

end Facts

/-! ### A file without encryption -/

/-- A new main database whose VFS has no encryption. -/
def unsupportedTarget : KeyTarget Cipher where
  isMain := true
  isEncryptionSupported := false
  hasFileName := true
  dbFound := true
  fileRegistered := false
  mainCodec := none
  cipherSalt := none
  isConfigured := true
  configureFromUri := fun _ env => (.ok, env)

/-- **A key that is silently ignored.** A database is opened through a VFS without encryption and
with a key in its URI; the open reports success, and the file has no codec. -/
theorem open_silently_unencrypted :
    ¬ ∃ (P : Primitives) (ops : StorageOps Cipher Unit),
      Honoured P (uriRequest ⟨none, some [0x61], none⟩)
        (openDatabase (builtinDescriptors P) ops unsupportedTarget ⟨none, some [0x61], none⟩ ()
          rc4Env) := by
  rintro ⟨P, ops, h⟩
  obtain ⟨-, -, -, -, -, -, hsupported, -⟩ := (openDatabase_honoured_iff _ _ _).mp h rfl
  cases hsupported

end MultipleCiphers
