import MultipleCiphers.Rekey.Model
import MultipleCiphers.Ciphers.Builtin

/-!
# What a failed rekey leaves behind

A rekey that fails has to leave the codec as it was. `leaveRekey` undoes part of what was done:
where there is a read cipher it copies that back over the write cipher, and it takes back the
overrides of the reserved bytes. What it does not undo is

* `hasWriteCipher`, cleared by a decryption and set by a change of the key;
* `hmacCheck` and `walLegacy`, which the setup of the write cipher takes from the configuration;
* a write cipher that could not be allocated again, or that was no copy of the read cipher.

The first of these is the one with consequences: after a decryption that failed the database is
still encrypted, and every page written to it from then on is written in plaintext.

## Failures

A rekey meets its failures in what it asks for: memory for the write cipher, a page size that fits,
and the answers of the storage layer. `TransactionAnswer` lists the answers to the page by page
rewriting, the first that is an error ends it. From them `DecryptFails` and `ReencryptFails` say
where a call can fail, and what it finds there: the write cipher of the moment, and the environment
out of which a new one would be allocated.

## Main definitions

* `SameKeying`, `RekeyAtomic` — what a call that fails should keep.
* `PagesAnswer`, `TransactionAnswer`, `RewriteAnswer` — the answers of the storage layer.
* `DecryptFails`, `ReencryptFails` — the failures of the two rekeys of an encrypted database.
* `Undone` — what a failure has to find to leave the codec as it was.

## Main results

* `rewriteWith_iff` — the rewriting comes to what the storage layer answers.
* `leaveRekey_atomic_iff` — the common end after a failure.
* `sqlite3RekeyV2_atomic_iff` — exactly when a call restores the codec if it fails.
* `sqlite3RekeyV2_drops_write_cipher` — a call that does not.
-/

namespace MultipleCiphers

section Atomic

variable {σ π : Type} (D : ℕ → CipherDescriptor σ) (ops : StorageOps σ π)

/-- Two codecs with the same keys, parameters and flags, which encrypt every page for the database
file alike. -/
structure SameKeying (before after : Codec σ) : Prop where
  readCipher : after.readCipher = before.readCipher
  readCipherType : after.readCipherType = before.readCipherType
  writeCipher : after.writeCipher = before.writeCipher
  writeCipherType : after.writeCipherType = before.writeCipherType
  hasReadCipher : after.hasReadCipher = before.hasReadCipher
  hasWriteCipher : after.hasWriteCipher = before.hasWriteCipher
  isEncrypted : after.isEncrypted = before.isEncrypted
  hmacCheck : after.hmacCheck = before.hmacCheck
  walLegacy : after.walLegacy = before.walLegacy
  pages : ∀ data page env,
    sqlite3mcCodec D after data page .database env = sqlite3mcCodec D before data page .database env

theorem SameKeying.rfl {codec : Codec σ} : SameKeying D codec codec := by
  constructor <;> intros <;> exact Eq.refl _

/-- **Atomicity of a rekey** for the codec `before` of the file: if the call returns an error, a
plaintext database has no codec after it, and one with a codec has a codec with the same keying. -/
def RekeyAtomic (before : Option (Codec σ)) (result : Option (ResultCode × Db σ π)) : Prop :=
  ∀ rc db, result = some (rc, db) → rc ≠ .ok →
    match before with
    | none => db.codec = none
    | some codec => ∃ codec', db.codec = some codec' ∧ SameKeying D codec codec'

/-! ### What the storage layer answers -/

/-- The answers to the loop over `fuel` pages from `n` on, and what they come to. -/
inductive PagesAnswer (codec : Option (Codec σ)) (nSkip : ℕ) :
    ℕ → ℕ → π → Env → ResultCode → π → Env → Prop
  | done {n store env} : PagesAnswer codec nSkip 0 n store env .ok store env
  | skipped {fuel n store env rc store' env'} (hskip : n = nSkip)
      (rest : PagesAnswer codec nSkip fuel (n + 1) store env rc store' env') :
      PagesAnswer codec nSkip (fuel + 1) n store env rc store' env'
  | notLoaded {fuel n store env rc store' env'} (hskip : n ≠ nSkip)
      (hget : ops.pagerGet n codec store env = (rc, store', env')) (hrc : rc ≠ .ok) :
      PagesAnswer codec nSkip (fuel + 1) n store env rc store' env'
  | notWritten {fuel n store env store₁ env₁ rc store' env'} (hskip : n ≠ nSkip)
      (hget : ops.pagerGet n codec store env = (.ok, store₁, env₁))
      (hwrite : ops.pagerWrite n codec store₁ env₁ = (rc, store', env')) (hrc : rc ≠ .ok) :
      PagesAnswer codec nSkip (fuel + 1) n store env rc store' env'
  | written {fuel n store env store₁ env₁ store₂ env₂ rc store' env'} (hskip : n ≠ nSkip)
      (hget : ops.pagerGet n codec store env = (.ok, store₁, env₁))
      (hwrite : ops.pagerWrite n codec store₁ env₁ = (.ok, store₂, env₂))
      (rest : PagesAnswer codec nSkip fuel (n + 1) store₂ env₂ rc store' env') :
      PagesAnswer codec nSkip (fuel + 1) n store env rc store' env'

/-- The answers to the transaction that rewrites all pages: it is not begun, a page is not loaded or
not marked, it is not committed, or there is no error. After an error it is rolled back. -/
inductive TransactionAnswer (codec : Option (Codec σ)) (store : π) (env : Env) :
    ResultCode → π → Env → Prop
  | notBegun {rc store₁ env₁ rcBack store' env'}
      (hbegin : ops.btreeBeginTrans codec store env = (rc, store₁, env₁)) (hrc : rc ≠ .ok)
      (hback : ops.btreeRollback codec store₁ env₁ = (rcBack, store', env')) :
      TransactionAnswer codec store env rc store' env'
  | notRewritten {store₁ env₁ rc store₂ env₂ rcBack store' env'}
      (hbegin : ops.btreeBeginTrans codec store env = (.ok, store₁, env₁))
      (hpages : PagesAnswer ops codec (pagerMjPgno (ops.btreeGetPageSize store₁))
        (ops.pagerPagecount store₁) 1 store₁ env₁ rc store₂ env₂) (hrc : rc ≠ .ok)
      (hback : ops.btreeRollback codec store₂ env₂ = (rcBack, store', env')) :
      TransactionAnswer codec store env rc store' env'
  | notCommitted {store₁ env₁ store₂ env₂ rc store₃ env₃ rcBack store' env'}
      (hbegin : ops.btreeBeginTrans codec store env = (.ok, store₁, env₁))
      (hpages : PagesAnswer ops codec (pagerMjPgno (ops.btreeGetPageSize store₁))
        (ops.pagerPagecount store₁) 1 store₁ env₁ .ok store₂ env₂)
      (hcommit : ops.btreeCommit codec store₂ env₂ = (rc, store₃, env₃)) (hrc : rc ≠ .ok)
      (hback : ops.btreeRollback codec store₃ env₃ = (rcBack, store', env')) :
      TransactionAnswer codec store env rc store' env'
  | committed {store₁ env₁ store₂ env₂ store' env'}
      (hbegin : ops.btreeBeginTrans codec store env = (.ok, store₁, env₁))
      (hpages : PagesAnswer ops codec (pagerMjPgno (ops.btreeGetPageSize store₁))
        (ops.pagerPagecount store₁) 1 store₁ env₁ .ok store₂ env₂)
      (hcommit : ops.btreeCommit codec store₂ env₂ = (.ok, store', env')) :
      TransactionAnswer codec store env .ok store' env'

/-- The answers to the rewriting of a database whose reserved bytes change from `nReserved` to
`nReservedNew`: to a VACUUM with these as overrides, or to the transaction over all pages. -/
def RewriteAnswer (nReserved nReservedNew : ℤ) (byVacuum : Bool) (codec : Codec σ) (store : π)
    (env : Env) (rc : ResultCode) (env' : Env) : Prop :=
  ∃ store', if byVacuum then
      ops.runVacuumForRekey nReservedNew
        (some { codec with readReserved := nReserved, writeReserved := nReservedNew }) store env =
          (rc, store', env')
    else TransactionAnswer ops (some codec) store env rc store' env'

/-! ### Where a rekey fails -/

/-- The decryption fails, and leaves the environment `env'`. -/
def DecryptFails (codec : Codec σ) (store : π) (env env' : Env) : Prop :=
  ∃ rc, RewriteAnswer ops (ops.btreeGetReserve store) 0 (ops.btreeGetReserve store > 0)
    { codec with hasWriteCipher := false } store env rc env' ∧ rc ≠ .ok

/-- The environment in which the write cipher is allocated: the pending cipher and the common
parameters have been read. -/
def writeCipherEnv (env : Env) : Env := (useCommonParameters env.sqlite3mcGetCipherType.2).2.2

/-- The codec with a write cipher of type `t` for the new key, and with the pending common
parameters. -/
def withWriteCipher (codec : Codec σ) (t : ℕ) (w : Option σ) (env : Env) : Codec σ :=
  { codec with
    isEncrypted := true
    hmacCheck := env.pendingParameter "global" "hmac_check"
    walLegacy := env.pendingParameter "global" "mc_legacy_wal"
    hasWriteCipher := true
    writeCipherType := t
    writeCipher := w }

/-- The cipher of type `t` for the new key is `w`: a new cipher with the keys of the password. -/
def WriteCipherKeyed (t : ℕ) (codec : Codec σ) (key : Bytes) (store : π) (env : Env) (w : σ)
    (env' : Env) : Prop :=
  ∃ new env₁, (D t).allocateCipher (writeCipherEnv env) = (some new, env₁) ∧
    (D t).generateKey new key (if ops.pagerUseWal store then 2 else 1)
      (codec.keySalt.or (ops.readDatabaseHeader store)) env₁ = (w, env')

/-- **The failures of a change of the key** to a cipher of type `t`, with the write cipher that the
codec has at that point and the environment that is left: there is no memory for the cipher, it
fixes another page size, or the storage layer answers with an error. -/
inductive ReencryptFails (t : ℕ) (codec : Codec σ) (key : Bytes) (store : π) (env : Env) :
    Option σ → Env → Prop
  | notAllocated {env'} (hnew : (D t).allocateCipher (writeCipherEnv env) = (none, env')) :
      ReencryptFails t codec key store env none env'
  | otherPageSize {w env'} (hkeyed : WriteCipherKeyed D ops t codec key store env w env')
      (hsize : 0 < (D t).getPageSize w) (hne : ops.btreeGetPageSize store ≠ (D t).getPageSize w) :
      ReencryptFails t codec key store env (some w) env'
  | notRewritten {w env₁ rc env'} (hkeyed : WriteCipherKeyed D ops t codec key store env w env₁)
      (hsize : (D t).getPageSize w ≤ 0 ∨ ops.btreeGetPageSize store = (D t).getPageSize w)
      (hrewrite : RewriteAnswer ops (ops.btreeGetReserve store) ((D t).getReserved w)
        (ops.btreeGetReserve store ≠ (D t).getReserved w) (withWriteCipher codec t (some w) env)
        store env₁ rc env') (hrc : rc ≠ .ok) :
      ReencryptFails t codec key store env (some w) env'

/-! ### The condition -/

/-- There is a cipher to copy the read cipher into: the write cipher `w` of type `t`, if that is the
type, or a new one. -/
def CopyGranted (codec : Codec σ) (t : ℕ) (w : Option σ) (env : Env) : Prop :=
  t = codec.readCipherType ∧ w.isSome = true ∨
    ((D codec.readCipherType).allocateCipher env).1.isSome = true

/-- The codec before the call is one that a failure gives back, if it leaves these flags and
parameters: it reads, its own flags and parameters are these, and its write cipher is a copy of the
read cipher, if that can be copied, and else missing. -/
structure KeepsKeying (codec : Codec σ) (hasWriteCipher : Bool) (hmacCheck walLegacy : ℤ)
    (granted : Prop) : Prop where
  hasReadCipher : codec.hasReadCipher = true
  hasWriteCipher : codec.hasWriteCipher = hasWriteCipher
  hmacCheck : codec.hmacCheck = hmacCheck
  walLegacy : codec.walLegacy = walLegacy
  cipherType : codec.writeCipherType = codec.readCipherType
  copied : granted → codec.writeCipher = codec.readCipher
  missing : ¬ granted → codec.writeCipher = none
  /-- The override of the reserved bytes, which is taken back, makes no difference to a page. -/
  override : ∀ data page env,
    sqlite3mcCodec D { codec with writeReserved := -1 } data page .database env =
      sqlite3mcCodec D codec data page .database env

/-- **What a failure has to find**: a codec that it gives back. Where the read cipher is missing the
copy ends the process. -/
def Undone (codec : Codec σ) (hasWriteCipher : Bool) (hmacCheck walLegacy : ℤ) (granted : Prop) :
    Prop :=
  codec.hasReadCipher = true ∧ codec.readCipher = none ∧ granted ∨
    KeepsKeying D codec hasWriteCipher hmacCheck walLegacy granted

/-- The condition for the codec of an encrypted database: wherever the call can fail, the failure
finds what it gives back. With a cipher type that is none it fails at once. -/
def CodecRestored (codec : Codec σ) (key : Bytes) (store : π) (env : Env) : Prop :=
  let cipherType := env.sqlite3mcGetCipherType.1
  if key = [] then
    ∀ env', DecryptFails ops codec store env env' →
      Undone D codec false codec.hmacCheck codec.walLegacy
        (CopyGranted D codec codec.writeCipherType codec.writeCipher env')
  else if cipherType ≤ 0 then
    Undone D codec codec.hasWriteCipher codec.hmacCheck codec.walLegacy
      (CopyGranted D codec codec.writeCipherType codec.writeCipher env.sqlite3mcGetCipherType.2)
  else
    ∀ w env', ReencryptFails D ops cipherType.toNat codec key store env w env' →
      Undone D codec true (env.pendingParameter "global" "hmac_check")
        (env.pendingParameter "global" "mc_legacy_wal")
        (CopyGranted D codec cipherType.toNat w env')

/-- The condition under which a call keeps the keying if it fails. -/
def RekeyRestores (call : RekeyCall) (db : Db σ π) : Prop :=
  call.isEncryptionSupported = true → call.dbFound = true → call.hasFileName = true →
    ∀ codec, db.codec = some codec → codec.isEncrypted = true →
      CodecRestored D ops codec call.key db.store db.env

end Atomic

section Answers

variable {σ π : Type} {ops : StorageOps σ π}

/-! ### The answers and the rewriting -/

theorem rewritePages_iff {codec : Option (Codec σ)} {nSkip fuel n : ℕ} {store store' : π}
    {env env' : Env} {rc : ResultCode} :
    rewritePages ops codec nSkip fuel n store env = (rc, store', env') ↔
      PagesAnswer ops codec nSkip fuel n store env rc store' env' := by
  constructor
  · intro h
    induction fuel generalizing n store env with
    | zero =>
      cases h
      exact .done
    | succ fuel ih =>
      by_cases hskip : n = nSkip
      · rw [rewritePages, if_pos hskip] at h
        exact .skipped hskip (ih h)
      rcases hget : ops.pagerGet n codec store env with ⟨rc₁, store₁, env₁⟩
      by_cases hrc₁ : rc₁ = .ok
      · subst hrc₁
        rcases hwrite : ops.pagerWrite n codec store₁ env₁ with ⟨rc₂, store₂, env₂⟩
        simp only [rewritePages, if_neg hskip, hget, if_true, hwrite] at h
        by_cases hrc₂ : rc₂ = .ok
        · subst hrc₂
          rw [if_pos rfl] at h
          exact .written hskip hget hwrite (ih h)
        · rw [if_neg hrc₂] at h
          cases h
          exact .notWritten hskip hget hwrite hrc₂
      · simp only [rewritePages, if_neg hskip, hget, if_neg hrc₁] at h
        cases h
        exact .notLoaded hskip hget hrc₁
  · intro h
    induction h with
    | done => rfl
    | skipped hskip _ ih => rw [rewritePages, if_pos hskip, ih]
    | notLoaded hskip hget hrc => simp only [rewritePages, if_neg hskip, hget, if_neg hrc]
    | notWritten hskip hget hwrite hrc =>
      simp only [rewritePages, if_neg hskip, hget, if_true, hwrite, if_neg hrc]
    | written hskip hget hwrite _ ih =>
      simp only [rewritePages, if_neg hskip, hget, if_true, hwrite, ih]

theorem rewriteDatabase_iff {codec : Option (Codec σ)} {store store' : π} {env env' : Env}
    {rc : ResultCode} :
    rewriteDatabase ops codec store env = (rc, store', env') ↔
      TransactionAnswer ops codec store env rc store' env' := by
  constructor
  · intro h
    rcases hbegin : ops.btreeBeginTrans codec store env with ⟨rc₁, store₁, env₁⟩
    by_cases hrc₁ : rc₁ = .ok
    swap
    · rcases hback : ops.btreeRollback codec store₁ env₁ with ⟨rcBack, store₂, env₂⟩
      simp only [rewriteDatabase, hbegin, if_neg hrc₁, hback] at h
      cases h
      exact .notBegun hbegin hrc₁ hback
    subst hrc₁
    rcases hpages : rewritePages ops codec (pagerMjPgno (ops.btreeGetPageSize store₁))
      (ops.pagerPagecount store₁) 1 store₁ env₁ with ⟨rc₂, store₂, env₂⟩
    by_cases hrc₂ : rc₂ = .ok
    swap
    · rcases hback : ops.btreeRollback codec store₂ env₂ with ⟨rcBack, store₃, env₃⟩
      simp only [rewriteDatabase, hbegin, if_true, hpages, if_neg hrc₂, hback] at h
      cases h
      exact .notRewritten hbegin (rewritePages_iff.mp hpages) hrc₂ hback
    subst hrc₂
    rcases hcommit : ops.btreeCommit codec store₂ env₂ with ⟨rc₃, store₃, env₃⟩
    by_cases hrc₃ : rc₃ = .ok
    swap
    · rcases hback : ops.btreeRollback codec store₃ env₃ with ⟨rcBack, store₄, env₄⟩
      simp only [rewriteDatabase, hbegin, if_true, hpages, hcommit, if_neg hrc₃, hback] at h
      cases h
      exact .notCommitted hbegin (rewritePages_iff.mp hpages) hcommit hrc₃ hback
    subst hrc₃
    simp only [rewriteDatabase, hbegin, if_true, hpages, hcommit] at h
    cases h
    exact .committed hbegin (rewritePages_iff.mp hpages) hcommit
  · intro h
    cases h with
    | notBegun hbegin hrc hback => simp only [rewriteDatabase, hbegin, if_neg hrc, hback]
    | notRewritten hbegin hpages hrc hback =>
      simp only [rewriteDatabase, hbegin, if_true, rewritePages_iff.mpr hpages, if_neg hrc, hback]
    | notCommitted hbegin hpages hcommit hrc hback =>
      simp only [rewriteDatabase, hbegin, if_true, rewritePages_iff.mpr hpages, hcommit,
        if_neg hrc, hback]
    | committed hbegin hpages hcommit =>
      simp only [rewriteDatabase, hbegin, if_true, rewritePages_iff.mpr hpages, hcommit]

/-- **The rewriting comes to what the storage layer answers.** -/
theorem rewriteWith_iff {nReserved nReservedNew : ℤ} {byVacuum : Bool} {codec : Codec σ}
    {store : π} {env env' : Env} {rc : ResultCode} :
    RewriteAnswer ops nReserved nReservedNew byVacuum codec store env rc env' ↔
      (rewriteWith ops nReserved nReservedNew byVacuum codec store env).rc = rc ∧
        (rewriteWith ops nReserved nReservedNew byVacuum codec store env).env = env' := by
  cases byVacuum with
  | true =>
    rcases hvacuum : ops.runVacuumForRekey nReservedNew
      (some { codec with readReserved := nReserved, writeReserved := nReservedNew }) store env
      with ⟨rc₁, store₁, env₁⟩
    simp only [RewriteAnswer, rewriteWith, if_true, hvacuum]
    constructor
    · rintro ⟨store', h⟩
      cases h
      exact ⟨rfl, rfl⟩
    · rintro ⟨rfl, rfl⟩
      exact ⟨store₁, rfl⟩
  | false =>
    rcases hpages : rewriteDatabase ops (some codec) store env with ⟨rc₁, store₁, env₁⟩
    simp only [RewriteAnswer, rewriteWith, Bool.false_eq_true, if_false, ← rewriteDatabase_iff,
      hpages]
    constructor
    · rintro ⟨store', h⟩
      cases h
      exact ⟨rfl, rfl⟩
    · rintro ⟨rfl, rfl⟩
      exact ⟨store₁, rfl⟩

end Answers

section Facts

variable {σ π : Type} {D : ℕ → CipherDescriptor σ} {ops : StorageOps σ π}

/-! ### The common end -/

theorem isSome_cipherForCopy {codec : Codec σ} {t : ℕ} {w : Option σ} {env : Env} :
    (cipherForCopy D t w codec.readCipherType env).1.isSome = true ↔
      CopyGranted D codec t w env := by
  rw [cipherForCopy, CopyGranted]
  by_cases h : t = codec.readCipherType ∧ w.isSome = true
  · rw [if_pos h]
    exact iff_of_true h.2 (Or.inl h)
  · rw [if_neg h]
    exact (or_iff_right h).symm

/-- Copying the read cipher where nothing is cloned from a null pointer: the write cipher is then
equal to the read cipher, if there is one to copy into, and else missing. -/
theorem copyReadToWrite_codec {codec : Codec σ} {env : Env}
    (h : codec.readCipher = none →
      ¬ CopyGranted D codec codec.writeCipherType codec.writeCipher env) :
    (sqlite3mcCopyReadToWrite D codec env).2.1 = { codec with
      writeCipherType := codec.readCipherType
      writeCipher :=
        if (cipherForCopy D codec.writeCipherType codec.writeCipher codec.readCipherType
          env).1.isSome then codec.readCipher else none } := by
  rcases hr : codec.readCipher with _ | r
  · have hno := mt isSome_cipherForCopy.mp (h hr)
    rcases hcopy : cipherForCopy D codec.writeCipherType codec.writeCipher codec.readCipherType env
      with ⟨_ | w, env'⟩
    · simp [sqlite3mcCopyReadToWrite, hcopy, hr]
    · rw [hcopy] at hno
      exact absurd rfl hno
  · rw [sqlite3mcCopyReadToWrite_eq hr]
    rcases cipherForCopy D codec.writeCipherType codec.writeCipher codec.readCipherType env
      with ⟨_ | w, env'⟩
    · simp [hr]
    · simp [hr]

/-- Pages for the database file are encrypted alike by codecs that agree in what is written with. -/
theorem sqlite3mcCodec_database_congr {c₁ c₂ : Codec σ} (henc : c₁.isEncrypted = c₂.isEncrypted)
    (hhas : c₁.hasWriteCipher = c₂.hasWriteCipher)
    (htype : c₁.writeCipherType = c₂.writeCipherType) (hw : c₁.writeCipher = c₂.writeCipher)
    (hreserved : c₁.writeReservedBytes = c₂.writeReservedBytes) (data : Bytes) (page : ℕ)
    (env : Env) :
    sqlite3mcCodec D c₁ data page .database env = sqlite3mcCodec D c₂ data page .database env := by
  simp only [sqlite3mcCodec, sqlite3mcEncrypt, if_true, henc, hhas, htype, hw, hreserved]

/-- What the common end makes of a codec after a failure with the flags and parameters given. -/
def failedCodec (codec : Codec σ) (hasWriteCipher : Bool) (hmacCheck walLegacy : ℤ)
    (writeCipher : Option σ) : Codec σ :=
  { codec with
    hmacCheck, walLegacy, hasWriteCipher, writeCipher
    writeCipherType := codec.readCipherType
    readReserved := -1
    writeReserved := -1 }

/-- It keeps the keying if and only if the codec was one that it gives back. -/
theorem failedCodec_sameKeying_iff {codec : Codec σ} (hread : codec.hasReadCipher = true)
    {hasWriteCipher : Bool} {hmacCheck walLegacy : ℤ} {granted : Prop} {writeCipher : Option σ}
    (hcopied : granted → writeCipher = codec.readCipher)
    (hmissing : ¬ granted → writeCipher = none) :
    SameKeying D codec (failedCodec codec hasWriteCipher hmacCheck walLegacy writeCipher) ↔
      KeepsKeying D codec hasWriteCipher hmacCheck walLegacy granted := by
  have hpages (hhas : codec.hasWriteCipher = hasWriteCipher)
      (htype : codec.writeCipherType = codec.readCipherType)
      (hw : codec.writeCipher = writeCipher) :
      ∀ data page env, sqlite3mcCodec D { codec with writeReserved := -1 } data page .database env =
        sqlite3mcCodec D (failedCodec codec hasWriteCipher hmacCheck walLegacy writeCipher)
          data page .database env :=
    sqlite3mcCodec_database_congr rfl hhas htype hw rfl
  constructor
  · intro h
    have hw : writeCipher = codec.writeCipher := h.writeCipher
    exact {
      hasReadCipher := hread
      hasWriteCipher := h.hasWriteCipher.symm
      hmacCheck := h.hmacCheck.symm
      walLegacy := h.walLegacy.symm
      cipherType := h.writeCipherType.symm
      copied := fun hgranted => hw.symm.trans (hcopied hgranted)
      missing := fun hno => hw.symm.trans (hmissing hno)
      override := fun data page env =>
        (hpages h.hasWriteCipher.symm h.writeCipherType.symm hw.symm data page env).trans
          (h.pages data page env) }
  · intro h
    have hw : codec.writeCipher = writeCipher := by
      by_cases hgranted : granted
      · rw [h.copied hgranted, hcopied hgranted]
      · rw [h.missing hgranted, hmissing hgranted]
    exact {
      readCipher := rfl
      readCipherType := rfl
      writeCipher := hw.symm
      writeCipherType := h.cipherType.symm
      hasReadCipher := rfl
      hasWriteCipher := h.hasWriteCipher.symm
      isEncrypted := rfl
      hmacCheck := h.hmacCheck.symm
      walLegacy := h.walLegacy.symm
      pages := fun data page env =>
        (hpages h.hasWriteCipher h.cipherType hw data page env).symm.trans
          (h.override data page env) }

/-- **The common end after a failure.** What the rekey has changed of the codec is its flags and
parameters, the write cipher and the overrides. The keying is kept if and only if the failure finds
what it gives back. -/
theorem leaveRekey_atomic_iff {codec : Codec σ} (henc : codec.isEncrypted = true)
    {work : RekeyWork σ π} {hasWriteCipher : Bool}
    {hmacCheck walLegacy readReserved writeReserved : ℤ} {t : ℕ} {w : Option σ}
    (hrc : work.rc ≠ .ok) (hwork : work.codec = { codec with
      hmacCheck, walLegacy, hasWriteCipher, readReserved, writeReserved
      writeCipherType := t
      writeCipher := w }) :
    RekeyAtomic D (some codec) (leaveRekey D ops work) ↔
      Undone D codec hasWriteCipher hmacCheck walLegacy (CopyGranted D codec t w work.env) := by
  have hgranted : (cipherForCopy D t w codec.readCipherType work.env).1.isSome = true ↔
      CopyGranted D codec t w work.env := isSome_cipherForCopy
  by_cases hread : codec.hasReadCipher = true
  swap
  · -- without a read cipher the codec is removed
    have hleave : leaveRekey D ops work =
        some (endRekey work.rc { work.codec with isEncrypted := false } work.store work.env) := by
      rw [leaveRekey, if_neg hrc, if_neg]
      rw [hwork]
      exact hread
    rw [hleave]
    refine iff_of_false (fun h => ?_) ?_
    · obtain ⟨codec', hcodec', -⟩ := h _ _ rfl hrc
      cases hcodec'
    · rintro (⟨h, -⟩ | h)
      · exact hread h
      · exact hread h.hasReadCipher
  by_cases hnull : codec.readCipher = none ∧ CopyGranted D codec t w work.env
  · -- the copy ends the process
    have hleave : leaveRekey D ops work = none := by
      rw [leaveRekey, if_neg hrc, if_pos (by rw [hwork]; exact hread), if_pos]
      rw [hwork, clonesNull, hnull.1, hgranted.mpr hnull.2]
      rfl
    rw [hleave]
    exact iff_of_true (fun rc db h => by cases h) (Or.inl ⟨hread, hnull⟩)
  · have hnot : work.codec.readCipher = none → ¬ CopyGranted D work.codec
        work.codec.writeCipherType work.codec.writeCipher work.env := by
      rw [hwork]
      exact fun hr hg => hnull ⟨hr, hg⟩
    have hcopy := copyReadToWrite_codec hnot
    have hleave : ∃ db, leaveRekey D ops work = some (work.rc, db) ∧
        db.codec = some (failedCodec codec hasWriteCipher hmacCheck walLegacy
          (if (cipherForCopy D t w codec.readCipherType work.env).1.isSome then codec.readCipher
            else none)) := by
      rw [leaveRekey, if_neg hrc, if_pos (by rw [hwork]; exact hread), if_neg]
      · rcases hcopied : sqlite3mcCopyReadToWrite D work.codec work.env with ⟨rc, codec', env'⟩
        rw [hcopied] at hcopy
        obtain rfl : codec' = _ := hcopy
        rw [hwork]
        exact ⟨_, rfl, if_pos henc⟩
      · rw [hwork, clonesNull, Bool.and_eq_true, Option.isNone_iff_eq_none]
        exact fun h => hnull ⟨h.1, hgranted.mp h.2⟩
    obtain ⟨db, hdb, hcodec⟩ := hleave
    rw [hdb, Undone, or_iff_right fun h => hnull h.2, ← failedCodec_sameKeying_iff hread
      (fun h => if_pos (hgranted.mpr h)) fun h => if_neg fun hg => h (hgranted.mp hg)]
    constructor
    · intro h
      obtain ⟨codec', hcodec', hsame⟩ := h _ _ rfl hrc
      obtain rfl := Option.some.inj (hcodec.symm.trans hcodec')
      exact hsame
    · intro hsame rc db' hresult _
      cases hresult
      exact ⟨_, hcodec, hsame⟩

/-- A rekey without an error has nothing to undo. -/
theorem leaveRekey_atomic_of_ok {work : RekeyWork σ π} (hok : work.rc = .ok)
    (before : Option (Codec σ)) : RekeyAtomic D before (leaveRekey D ops work) := by
  intro rc db hresult hrc
  refine absurd ?_ hrc
  simp only [leaveRekey, if_pos hok] at hresult
  split at hresult
  · split at hresult
    · cases hresult
    · cases hresult
      exact hok
  · cases hresult
    exact hok

/-- Rewriting changes nothing of a codec but the overrides of the reserved bytes. -/
theorem rewriteWith_codec (ops : StorageOps σ π) (nReserved nReservedNew : ℤ) (byVacuum : Bool)
    (codec : Codec σ) (store : π) (env : Env) :
    ∃ readReserved writeReserved,
      (rewriteWith ops nReserved nReservedNew byVacuum codec store env).codec =
        { codec with readReserved := readReserved, writeReserved := writeReserved } := by
  cases byVacuum
  · exact ⟨codec.readReserved, codec.writeReserved, rfl⟩
  · exact ⟨nReserved, nReservedNew, rfl⟩

/-! ### The plaintext database -/

/-- A write cipher of a type that is none is refused. -/
theorem sqlite3mcSetupWriteCipher_unknown {cipherType : ℤ} (htype : cipherType ≤ 0)
    (codec : Codec σ) (password : Bytes) (dbHeader : Option Bytes) (usesWal : Bool) (env : Env) :
    sqlite3mcSetupWriteCipher D codec cipherType password dbHeader usesWal env =
      (.error, codec, env) := by
  rw [sqlite3mcSetupWriteCipher, if_pos htype]

/-- The setup of a write cipher does not touch the read cipher. -/
theorem sqlite3mcSetupWriteCipher_hasReadCipher (codec : Codec σ) (cipherType : ℤ)
    (password : Bytes) (dbHeader : Option Bytes) (usesWal : Bool) (env : Env) :
    (sqlite3mcSetupWriteCipher D codec cipherType password dbHeader usesWal
      env).2.1.hasReadCipher = codec.hasReadCipher := by
  rcases le_or_gt cipherType 0 with htype | htype
  · rw [sqlite3mcSetupWriteCipher_unknown htype]
  · rw [sqlite3mcSetupWriteCipher, if_neg (not_le.mpr htype)]
    rcases h : (D cipherType.toNat).allocateCipher (useCommonParameters env).2.2 with ⟨_ | w, e⟩
    · simp [h]
    · simp [h]

/-- Encrypting a plaintext database leaves it without a read cipher. -/
theorem encryptWork_hasReadCipher {codec : Codec σ} (h : codec.hasReadCipher = false) (store : π)
    (env : Env) : (encryptWork D ops codec store env).codec.hasReadCipher = false := by
  rw [encryptWork]
  by_cases hsize : writePageSizeAgrees D ops codec store = true
  · rw [if_pos hsize]
    obtain ⟨_, _, hcodec⟩ := rewriteWith_codec ops _ _ _ _ _ _
    rw [hcodec]
    rfl
  · rw [if_neg hsize]
    exact h

/-- **A plaintext database stays without a codec** if its encryption fails. -/
theorem rekeyPlaintext_atomic {key : Bytes} {db : Db σ π} (hdb : db.codec = none) :
    RekeyAtomic D none (rekeyPlaintext D ops key db) := by
  rw [rekeyPlaintext, hdb]
  dsimp only
  rcases db.env.sqlite3Malloc with ⟨_ | _, env⟩
  · -- there is no memory for the codec
    intro rc db' hresult _
    cases hresult
    rfl
  rcases hsetup : sqlite3mcSetupWriteCipher D sqlite3mcCodecInit env.sqlite3mcGetCipherType.1 key
    (ops.readDatabaseHeader db.store) (ops.pagerUseWal db.store) env.sqlite3mcGetCipherType.2
    with ⟨rc₁, codec, env'⟩
  have hread : codec.hasReadCipher = false := by
    have := sqlite3mcSetupWriteCipher_hasReadCipher (D := D) sqlite3mcCodecInit
      env.sqlite3mcGetCipherType.1 key (ops.readDatabaseHeader db.store)
      (ops.pagerUseWal db.store) env.sqlite3mcGetCipherType.2
    rw [hsetup] at this
    exact this
  rw [if_pos rfl]
  by_cases hrc₁ : rc₁ = .ok
  · rw [if_pos hrc₁]
    by_cases hok : (encryptWork D ops codec db.store env').rc = .ok
    · exact leaveRekey_atomic_of_ok hok none
    · intro rc db' hresult _
      rw [leaveRekey, if_neg hok, if_neg (by simp [encryptWork_hasReadCipher hread])] at hresult
      cases hresult
      rfl
  · rw [if_neg hrc₁]
    intro rc db' hresult _
    cases hresult
    rfl

/-! ### The encrypted database -/

/-- **A failed decryption** clears the has-write flag. -/
theorem decrypt_atomic_iff {codec : Codec σ} (henc : codec.isEncrypted = true) {store : π}
    {env : Env} :
    RekeyAtomic D (some codec) (leaveRekey D ops (decryptWork ops codec store env)) ↔
      ∀ env', DecryptFails ops codec store env env' →
        Undone D codec false codec.hmacCheck codec.walLegacy
          (CopyGranted D codec codec.writeCipherType codec.writeCipher env') := by
  have hfails : ∀ env', DecryptFails ops codec store env env' ↔
      (decryptWork ops codec store env).rc ≠ .ok ∧
        (decryptWork ops codec store env).env = env' := by
    intro env'
    constructor
    · rintro ⟨rc, hanswer, hrc⟩
      obtain ⟨hrc', henv'⟩ := rewriteWith_iff.mp hanswer
      exact ⟨fun h => hrc (hrc'.symm.trans h), henv'⟩
    · rintro ⟨hrc, henv'⟩
      exact ⟨_, rewriteWith_iff.mpr ⟨rfl, henv'⟩, hrc⟩
  by_cases hok : (decryptWork ops codec store env).rc = .ok
  · exact iff_of_true (leaveRekey_atomic_of_ok hok _) fun env' h =>
      absurd hok ((hfails env').mp h).1
  · obtain ⟨readReserved, writeReserved, hcodec⟩ := rewriteWith_codec ops
      (ops.btreeGetReserve store) 0 (ops.btreeGetReserve store > 0)
      { codec with hasWriteCipher := false } store env
    rw [leaveRekey_atomic_iff henc hok hcodec]
    constructor
    · intro h env' hfail
      obtain ⟨-, rfl⟩ := (hfails env').mp hfail
      exact h
    · intro h
      exact h _ ((hfails _).mpr ⟨hok, rfl⟩)

/-- The common parameters are read as they are pending. -/
theorem useCommonParameters_pending (env : Env) :
    (useCommonParameters env.sqlite3mcGetCipherType.2).1 =
        env.pendingParameter "global" "hmac_check" ∧
      (useCommonParameters env.sqlite3mcGetCipherType.2).2.1 =
        env.pendingParameter "global" "mc_legacy_wal" := by
  rw [Env.sqlite3mcGetCipherType_env]
  constructor
  · exact Env.pendingParameter_getCipherParameter (by decide) env 0 "global"
  · have hread := Env.getCipherParameter_other
      (show sqlite3Stricmp "hmac_check" "mc_legacy_wal" = false by decide)
      (env.getCipherParameter 0 "cipher").2
      ((env.getCipherParameter 0 "cipher").2.sqlite3mcGetCipherParams "global")
    exact hread.trans (Env.pendingParameter_getCipherParameter (by decide) env 0 "global")

variable (D ops) in
/-- **What a change of the key comes to**: there is no memory for the write cipher, the cipher fixes
another page size, or all pages are rewritten with it. -/
theorem reencryptWork_cases (codec : Codec σ) (key : Bytes) (store : π) {env : Env}
    (htype : 0 < env.sqlite3mcGetCipherType.1) :
    let t := env.sqlite3mcGetCipherType.1.toNat
    let work := reencryptWork D ops codec key store env
    (∃ env', (D t).allocateCipher (writeCipherEnv env) = (none, env') ∧
        work = ⟨.nomem, withWriteCipher codec t none env, store, env'⟩) ∨
      ∃ w env', WriteCipherKeyed D ops t codec key store env w env' ∧
        work =
          if (D t).getPageSize w ≤ 0 ∨ ops.btreeGetPageSize store = (D t).getPageSize w then
            rewriteWith ops (ops.btreeGetReserve store) ((D t).getReserved w)
              (ops.btreeGetReserve store ≠ (D t).getReserved w)
                (withWriteCipher codec t (some w) env)
              store env'
          else ⟨.error, withWriteCipher codec t (some w) env, store, env'⟩ := by
  intro t work
  obtain ⟨hhmac, hwal⟩ := useCommonParameters_pending env
  rcases hnew : (D t).allocateCipher (writeCipherEnv env) with ⟨_ | new, env₁⟩
  · left
    refine ⟨env₁, rfl, ?_⟩
    have hsetup : sqlite3mcSetupWriteCipher D codec env.sqlite3mcGetCipherType.1 key
        (ops.readDatabaseHeader store) (ops.pagerUseWal store) env.sqlite3mcGetCipherType.2 =
          (.nomem, withWriteCipher codec t none env, env₁) := by
      rw [writeCipherEnv] at hnew
      simp only [sqlite3mcSetupWriteCipher, if_neg (not_le.mpr htype), hnew, t, withWriteCipher,
        hhmac, hwal]
    simp only [work, reencryptWork, hsetup]
    rfl
  · right
    rcases hkey : (D t).generateKey new key (if ops.pagerUseWal store then 2 else 1)
      (codec.keySalt.or (ops.readDatabaseHeader store)) env₁ with ⟨w, env'⟩
    refine ⟨w, env', ⟨new, env₁, hnew, hkey⟩, ?_⟩
    have hsetup : sqlite3mcSetupWriteCipher D codec env.sqlite3mcGetCipherType.1 key
        (ops.readDatabaseHeader store) (ops.pagerUseWal store) env.sqlite3mcGetCipherType.2 =
          (.ok, withWriteCipher codec t (some w) env, env') := by
      rw [writeCipherEnv] at hnew
      simp only [sqlite3mcSetupWriteCipher, if_neg (not_le.mpr htype), hnew, t, withWriteCipher,
        hhmac, hwal, sqlite3mcGenerateWriteKey, hkey]
    simp only [work, reencryptWork, hsetup, if_true, writePageSizeAgrees, decide_eq_true_eq]
    rfl

variable (D ops) in
/-- A change of the key leaves the has-write flag set and the common parameters of the
configuration. -/
theorem reencryptWork_codec {codec : Codec σ} (henc : codec.isEncrypted = true) (key : Bytes)
    (store : π) {env : Env} (htype : 0 < env.sqlite3mcGetCipherType.1) :
    ∃ readReserved writeReserved, (reencryptWork D ops codec key store env).codec = { codec with
      hmacCheck := env.pendingParameter "global" "hmac_check"
      walLegacy := env.pendingParameter "global" "mc_legacy_wal"
      hasWriteCipher := true
      readReserved, writeReserved
      writeCipherType := env.sqlite3mcGetCipherType.1.toNat
      writeCipher := (reencryptWork D ops codec key store env).codec.writeCipher } := by
  rcases reencryptWork_cases D ops codec key store htype with
    ⟨env', -, hwork⟩ | ⟨w, env', -, hwork⟩
  · rw [hwork]
    exact ⟨codec.readReserved, codec.writeReserved, by simp [withWriteCipher, henc]⟩
  · by_cases hsize : (D env.sqlite3mcGetCipherType.1.toNat).getPageSize w ≤ 0 ∨
      ops.btreeGetPageSize store = (D env.sqlite3mcGetCipherType.1.toNat).getPageSize w
    · rw [if_pos hsize] at hwork
      obtain ⟨rr, wr, hcodec⟩ := rewriteWith_codec ops (ops.btreeGetReserve store)
        ((D env.sqlite3mcGetCipherType.1.toNat).getReserved w)
        (ops.btreeGetReserve store ≠ (D env.sqlite3mcGetCipherType.1.toNat).getReserved w)
        (withWriteCipher codec env.sqlite3mcGetCipherType.1.toNat (some w) env) store env'
      rw [hwork, hcodec]
      exact ⟨rr, wr, by simp [withWriteCipher, henc]⟩
    · rw [if_neg hsize] at hwork
      rw [hwork]
      exact ⟨codec.readReserved, codec.writeReserved, by simp [withWriteCipher, henc]⟩

/-- The new write cipher has been allocated. -/
theorem WriteCipherKeyed.allocated {t : ℕ} {codec : Codec σ} {key : Bytes} {store : π}
    {env env' : Env} {w : σ} (h : WriteCipherKeyed D ops t codec key store env w env') :
    ((D t).allocateCipher (writeCipherEnv env)).1 ≠ none := by
  obtain ⟨new, env₁, hnew, -⟩ := h
  rw [hnew]
  exact Option.some_ne_none new

/-- There is one new write cipher and one environment that is left. -/
theorem WriteCipherKeyed.unique {t : ℕ} {codec : Codec σ} {key : Bytes} {store : π}
    {env env₁ env₂ : Env} {w₁ w₂ : σ} (h₁ : WriteCipherKeyed D ops t codec key store env w₁ env₁)
    (h₂ : WriteCipherKeyed D ops t codec key store env w₂ env₂) : w₁ = w₂ ∧ env₁ = env₂ := by
  obtain ⟨new₁, e₁, hnew₁, hkey₁⟩ := h₁
  obtain ⟨new₂, e₂, hnew₂, hkey₂⟩ := h₂
  obtain ⟨hnew, rfl⟩ := Prod.mk.inj (hnew₁.symm.trans hnew₂)
  obtain rfl := Option.some.inj hnew
  exact Prod.mk.inj (hkey₁.symm.trans hkey₂)

/-- The failures of a change of the key. -/
theorem reencryptFails_iff {codec : Codec σ} {key : Bytes} {store : π} {env env' : Env}
    {w : Option σ} (htype : 0 < env.sqlite3mcGetCipherType.1) :
    ReencryptFails D ops env.sqlite3mcGetCipherType.1.toNat codec key store env w env' ↔
      (reencryptWork D ops codec key store env).rc ≠ .ok ∧
        (reencryptWork D ops codec key store env).codec.writeCipher = w ∧
        (reencryptWork D ops codec key store env).env = env' := by
  rcases reencryptWork_cases D ops codec key store htype with
    ⟨env₁, hnew, hwork⟩ | ⟨w₁, env₁, hkeyed, hwork⟩
  · -- there is no memory for the write cipher
    rw [hwork]
    constructor
    · intro h
      cases h with
      | notAllocated hnew' =>
        obtain ⟨-, rfl⟩ := Prod.mk.inj (hnew.symm.trans hnew')
        exact ⟨(fun h => by cases h), rfl, rfl⟩
      | otherPageSize h => exact absurd (congrArg Prod.fst hnew) h.allocated
      | notRewritten h => exact absurd (congrArg Prod.fst hnew) h.allocated
    · rintro ⟨-, rfl, rfl⟩
      exact .notAllocated hnew
  · by_cases hsize : (D env.sqlite3mcGetCipherType.1.toNat).getPageSize w₁ ≤ 0 ∨
      ops.btreeGetPageSize store = (D env.sqlite3mcGetCipherType.1.toNat).getPageSize w₁
    · rw [if_pos hsize] at hwork
      obtain ⟨rr, wr, hcodec⟩ := rewriteWith_codec ops (ops.btreeGetReserve store)
        ((D env.sqlite3mcGetCipherType.1.toNat).getReserved w₁)
        (ops.btreeGetReserve store ≠ (D env.sqlite3mcGetCipherType.1.toNat).getReserved w₁)
        (withWriteCipher codec env.sqlite3mcGetCipherType.1.toNat (some w₁) env) store env₁
      have hcipher : (reencryptWork D ops codec key store env).codec.writeCipher = some w₁ := by
        rw [hwork, hcodec]
        rfl
      rw [hcipher, hwork]
      constructor
      · intro h
        cases h with
        | notAllocated hnew => exact absurd (congrArg Prod.fst hnew) hkeyed.allocated
        | otherPageSize h hpos hne =>
          obtain ⟨rfl, -⟩ := hkeyed.unique h
          exact absurd hsize (not_or.mpr ⟨not_le.mpr hpos, hne⟩)
        | notRewritten h _ hanswer hrc =>
          obtain ⟨rfl, rfl⟩ := hkeyed.unique h
          obtain ⟨hrc', henv'⟩ := rewriteWith_iff.mp hanswer
          exact ⟨fun h => hrc (hrc'.symm.trans h), rfl, henv'⟩
      · rintro ⟨hrc, rfl, henv'⟩
        exact .notRewritten hkeyed hsize (rewriteWith_iff.mpr ⟨rfl, henv'⟩) hrc
    · rw [if_neg hsize] at hwork
      rw [hwork]
      constructor
      · intro h
        cases h with
        | notAllocated hnew => exact absurd (congrArg Prod.fst hnew) hkeyed.allocated
        | otherPageSize h hpos hne =>
          obtain ⟨rfl, rfl⟩ := hkeyed.unique h
          exact ⟨(fun h => by cases h), rfl, rfl⟩
        | notRewritten h hsize' =>
          obtain ⟨rfl, -⟩ := hkeyed.unique h
          exact absurd hsize' hsize
      · rintro ⟨-, rfl, rfl⟩
        obtain ⟨hpos, hne⟩ := not_or.mp hsize
        exact .otherPageSize hkeyed (not_le.mp hpos) hne

/-- **A failed change of the key** sets the has-write flag and takes over the pending common
parameters. -/
theorem reencrypt_atomic_iff {codec : Codec σ} (henc : codec.isEncrypted = true) {key : Bytes}
    {store : π} {env : Env} (htype : 0 < env.sqlite3mcGetCipherType.1) :
    RekeyAtomic D (some codec) (leaveRekey D ops (reencryptWork D ops codec key store env)) ↔
      ∀ w env', ReencryptFails D ops env.sqlite3mcGetCipherType.1.toNat codec key store env w env' →
        Undone D codec true (env.pendingParameter "global" "hmac_check")
          (env.pendingParameter "global" "mc_legacy_wal")
          (CopyGranted D codec env.sqlite3mcGetCipherType.1.toNat w env') := by
  by_cases hok : (reencryptWork D ops codec key store env).rc = .ok
  · exact iff_of_true (leaveRekey_atomic_of_ok hok _) fun w env' h =>
      absurd hok ((reencryptFails_iff htype).mp h).1
  · obtain ⟨readReserved, writeReserved, hcodec⟩ := reencryptWork_codec D ops henc key store htype
    rw [leaveRekey_atomic_iff henc hok hcodec]
    constructor
    · intro h w env' hfail
      obtain ⟨-, rfl, rfl⟩ := (reencryptFails_iff htype).mp hfail
      exact h
    · intro h
      exact h _ _ ((reencryptFails_iff htype).mpr ⟨hok, rfl, rfl⟩)

/-- A change of the key to a cipher that is none fails at once. -/
theorem reencrypt_unknown_iff {codec : Codec σ} (henc : codec.isEncrypted = true) {key : Bytes}
    {store : π} {env : Env} (htype : env.sqlite3mcGetCipherType.1 ≤ 0) :
    RekeyAtomic D (some codec) (leaveRekey D ops (reencryptWork D ops codec key store env)) ↔
      Undone D codec codec.hasWriteCipher codec.hmacCheck codec.walLegacy
        (CopyGranted D codec codec.writeCipherType codec.writeCipher
          env.sqlite3mcGetCipherType.2) := by
  have hwork : reencryptWork D ops codec key store env =
      ⟨.error, codec, store, env.sqlite3mcGetCipherType.2⟩ := by
    simp [reencryptWork, sqlite3mcSetupWriteCipher_unknown htype]
  have hrc : (reencryptWork D ops codec key store env).rc ≠ .ok := by
    rw [hwork]
    intro h
    cases h
  have hcodec : (reencryptWork D ops codec key store env).codec = codec := by rw [hwork]
  rw [leaveRekey_atomic_iff henc hrc hcodec, hwork]

/-! ### Atomicity -/

/-- **When a failed rekey restores the codec.** For every database, whatever the codec of its file,
every call and every behaviour of the storage layer: the call restores the codec if it fails, if and
only if it meets the condition `RekeyRestores`. -/
theorem sqlite3RekeyV2_atomic_iff (D : ℕ → CipherDescriptor σ) (ops : StorageOps σ π)
    (call : RekeyCall) (db : Db σ π) :
    RekeyAtomic D db.codec (sqlite3RekeyV2 D ops call db) ↔ RekeyRestores D ops call db := by
  -- a call that leaves the database alone keeps the codec
  have hsame (rc : ResultCode) : RekeyAtomic D db.codec (some (rc, db)) := by
    intro rc' db' hresult _
    obtain ⟨-, rfl⟩ := Prod.mk.inj (Option.some.inj hresult)
    rcases db.codec with _ | codec
    · rfl
    · exact ⟨codec, rfl, SameKeying.rfl D⟩
  by_cases hargs : call.isEncryptionSupported = true ∧ call.dbFound = true ∧ call.hasFileName = true
  swap
  · -- the call is refused at once
    have hcall : sqlite3RekeyV2 D ops call db = some (.error, db) := by
      rw [sqlite3RekeyV2, if_pos]
      by_contra hneg
      simp only [not_or, not_not] at hneg
      exact hargs hneg
    rw [hcall]
    exact iff_of_true (hsame _) fun h₁ h₂ h₃ => absurd ⟨h₁, h₂, h₃⟩ hargs
  obtain ⟨h₁, h₂, h₃⟩ := hargs
  have hguard : ¬ (¬ call.isEncryptionSupported = true ∨ ¬ call.dbFound = true ∨
      ¬ call.hasFileName = true) := by simp [h₁, h₂, h₃]
  by_cases henc : ∃ codec, db.codec = some codec ∧ codec.isEncrypted = true
  swap
  · -- no encrypted database: the encryption of a plaintext one is undone
    have hfilter : db.codec.filter Codec.isEncrypted = none :=
      Option.filter_eq_none_iff.mpr fun codec hcodec h => henc ⟨codec, hcodec, h⟩
    refine iff_of_true ?_ fun _ _ _ codec hcodec h => absurd ⟨codec, hcodec, h⟩ henc
    rw [sqlite3RekeyV2, if_neg hguard, hfilter]
    dsimp only
    by_cases hkey : call.key = []
    · rw [if_pos hkey]
      exact hsame _
    · rw [if_neg hkey]
      by_cases hwal : ops.pagerUseWal db.store = true
      · rw [if_pos hwal]
        exact hsame _
      · rw [if_neg hwal]
        rcases hcodec : db.codec with _ | codec
        · exact rekeyPlaintext_atomic hcodec
        · rw [show rekeyPlaintext D ops call.key db = some (.error, db) by
            rw [rekeyPlaintext, hcodec], ← hcodec]
          exact hsame _
  · obtain ⟨codec, hcodec, henc⟩ := henc
    have hcond : RekeyRestores D ops call db ↔
        CodecRestored D ops codec call.key db.store db.env := by
      constructor
      · intro h
        exact h h₁ h₂ h₃ codec hcodec henc
      · intro h _ _ _ codec' hcodec' _
        obtain rfl := Option.some.inj (hcodec.symm.trans hcodec')
        exact h
    rw [hcond, sqlite3RekeyV2, if_neg hguard, hcodec, Option.filter_some, if_pos henc]
    simp only [CodecRestored]
    by_cases hkey : call.key = []
    · rw [if_pos hkey, if_pos hkey]
      exact decrypt_atomic_iff henc
    · rw [if_neg hkey, if_neg hkey]
      rcases le_or_gt db.env.sqlite3mcGetCipherType.1 0 with htype | htype
      · rw [if_pos htype]
        exact reencrypt_unknown_iff henc htype
      · rw [if_neg (not_le.mpr htype)]
        exact reencrypt_atomic_iff henc htype

end Facts

/-! ### A decryption that fails -/

/-- A database of one page that another connection has locked: no write transaction can be begun.
The page size is `4096`, and no bytes are reserved. -/
def lockedStorage : StorageOps Cipher Unit where
  btreeGetPageSize := fun _ => 4096
  btreeGetReserve := fun _ => 0
  pagerPageSize := fun _ => 4096
  pagerReserve := fun _ => 0
  pagerUseWal := fun _ => false
  readDatabaseHeader := fun _ => none
  clearPageSizeFixed := id
  btreeSetPageSize := fun _ _ _ env => (.ok, (), env)
  runVacuumForRekey := fun _ _ _ env => (.other 5, (), env)
  btreeBeginTrans := fun _ _ env => (.other 5, (), env)
  pagerPagecount := fun _ => 1
  pagerGet := fun _ _ _ env => (.ok, (), env)
  pagerWrite := fun _ _ _ env => (.ok, (), env)
  btreeCommit := fun _ _ env => (.ok, (), env)
  btreeRollback := fun _ _ env => (.ok, (), env)

/-- **A failed decryption drops the write cipher.** The database is locked, the call returns an
error, and the codec, still encrypted, has no write cipher any more. -/
theorem sqlite3RekeyV2_drops_write_cipher :
    ¬ ∃ P : Primitives, RekeyAtomic (builtinDescriptors P) (some rc4Codec)
      (sqlite3RekeyV2 (builtinDescriptors P) lockedStorage ⟨true, true, true, []⟩
        ⟨some rc4Codec, (), rc4Env⟩) := by
  rintro ⟨P, hatomic⟩
  obtain ⟨codec', hcodec', hsame⟩ := hatomic _ _ rfl (by intro h; cases h)
  obtain rfl := Option.some.inj hcodec'
  cases hsame.hasWriteCipher

end MultipleCiphers
