import MultipleCiphers.Vle.Options

/-!
# Setting the key for value-level encryption

`sqlite3mc_vle_key(passphrase, salt, algorithm, options)` derives the key that the values of a
connection are encrypted with. Its context hangs on the connection and is made on first use.

The function looks at its arguments in order and stores what it has before it looks at the next
one. The digest of the salt and an algorithm are in the context when the algorithm argument is
looked at, and the algorithm that was asked for is when the options are. A call that fails there
leaves the old key with another algorithm. Likewise it reports no error for options that are not
what the format says, since it does not look at the result of the parser.

## Main definitions

* `vleGetContext`, `vleSetKey`.
* `SetKeyAtomic`, `ContextKept` — that an error changes nothing, and when it does not.
* `vleReads`, `documentedReads` — what the arguments are read as, and what they say.

## Main results

* `setKeyAtomic_iff` — the calls that are atomic.
* `vleReads_iff` — the calls whose arguments are read as they say.
-/

namespace MultipleCiphers

open Bytes

/-! ### The function -/

/-- `struct VleContext` with its salt, which only the key derivation looks at. -/
structure VleKeyContext extends VleContext where
  salt : Bytes
  deriving DecidableEq

/-- The context `vle_getContext` makes. -/
def vleInitialContext : VleKeyContext := ⟨⟨zeros 32, 0, codecTypeChaCha20, 0, 16, 16⟩, zeros 16⟩

/-- `vle_getContext`. A new context needs memory, and more for its entry in the client data of the
connection; without the first it is written to through a null pointer, without the second it has
been freed when it is used. -/
def vleGetContext (vle : Option VleKeyContext) (env : Env) : Option (VleKeyContext × Env) :=
  match vle with
  | some vle => some (vle, env)
  | none =>
    let (context, env) := env.sqlite3Malloc
    let (entry, env) := env.sqlite3Malloc
    if context ∧ entry then some (vleInitialContext, env) else none

/-- The bytes of a text or a blob. -/
def textOrBlob : SqlValue → Option Bytes
  | .text b | .blob b => some b
  | _ => none

/-- The argument `argv[0]`. -/
def vlePassphraseArg (arg : Option SqlValue) : Except String Bytes :=
  match arg with
  | none => .error "The key parameter is required"
  | some v =>
    match textOrBlob v with
    | some b => .ok b
    | none => .error "The passphrase parameter must have type TEXT or BLOB"

/-- `saltDefault`. -/
def vleSaltDefault : Bytes := asciiBytes "vle:default-salt"

/-- The argument `argv[1]`. -/
def vleSaltArg (arg : Option SqlValue) : Except String Bytes :=
  match arg with
  | none | some .null => .ok vleSaltDefault
  | some v =>
    match textOrBlob v with
    | some b => .ok (if b = [] then vleSaltDefault else b)
    | none => .error "The salt parameter must have type TEXT or BLOB, but can be NULL"

/-- The argument `argv[2]`. The comparison goes up to the length of the argument. -/
def vleAlgorithmArg (arg : Option SqlValue) : Except String ℕ :=
  match arg with
  | none => .ok codecTypeChaCha20
  | some (.text algorithm) =>
    if sqlite3Strnicmp algorithm.length algorithm (asciiBytes "chacha20") = 0 then
      .ok codecTypeChaCha20
    else if sqlite3Strnicmp algorithm.length algorithm (asciiBytes "ascon128") = 0 then
      .ok codecTypeAscon128
    else .error "Unsupported cipher type"
  | some _ => .error "The algorithm parameter must have type TEXT"

/-- The argument `argv[3]`. -/
def vleOptionsArg (arg : Option SqlValue) : Except String Bytes :=
  match arg with
  | none => .ok []
  | some (.text options) => .ok options
  | some _ => .error "The options parameter must have type TEXT"

/-- `CHACHA20_KDF_ITER_DEFAULT` and `ASCON128_KDF_ITER_DEFAULT`. -/
def vleKdfIterDefault : ℤ := 64007

/-- The iterations from what the options have stored: there is at least one. -/
def vleKdfIter (stored : ℤ) : ℤ := if stored < 1 then vleKdfIterDefault else stored

/-- The key for a passphrase. The algorithm is one of the two, so that the branch for another one is
not taken. -/
def vleDerive (P : VlePrimitives) (algorithm : ℕ) (pswd salt : Bytes) (kdfIter : ℤ) : Bytes :=
  if algorithm = codecTypeAscon128 then P.asconPbkdf2 pswd salt kdfIter 32
  else P.pbkdf2 .sha256 pswd salt kdfIter 32

/-- The text of the result. -/
def vleKeyResult (kdfIter : ℤ) : Bytes :=
  asciiBytes ("Ok. Options(kdf_iter=" ++ toString kdfIter ++ ")")

section SetKey

variable (P : VlePrimitives) (limit : ℕ)

/-- The context with the new key. -/
def vleWithKey (vle : VleKeyContext) (pswd options : Bytes) : VleKeyContext :=
  { vle with
    key := vleDerive P vle.algorithm pswd vle.salt
      (vleKdfIter (vleParseKdfIter options vleKdfIterDefault))
    keyLen := 32 }

/-- The end of `vle_setKey`. Without memory for the text, the result is NULL. -/
def vleKeyReply (options : Bytes) (env : Env) : SqlContext × Env :=
  let (granted, env) := env.sqlite3Malloc
  let kdfIter := vleKdfIter (vleParseKdfIter options vleKdfIterDefault)
  (if granted then sqlite3ResultText limit .initial (vleKeyResult kdfIter)
    else sqlite3ResultNull .initial, env)

/-- The memory for the copy of the options. -/
def vleCopyOptions (options : Bytes) (env : Env) : Bool × Env :=
  if options = [] then (true, env) else env.sqlite3Malloc

/-- The part of `vle_setKey` from the algorithm on, with the context that has its salt. -/
def vleSetAlgorithm (argv : List SqlValue) (pswd : Bytes) (vle : VleKeyContext) (env : Env) :
    VleKeyContext × SqlContext × Env :=
  let vle := { vle with algorithm := codecTypeChaCha20 }
  match vleAlgorithmArg argv[2]? with
  | .error msg => (vle, sqlite3ResultError .initial msg, env)
  | .ok algorithm =>
    let vle := { vle with algorithm }
    match vleOptionsArg argv[3]? with
    | .error msg => (vle, sqlite3ResultError .initial msg, env)
    | .ok options =>
      let (granted, env) := vleCopyOptions options env
      if granted then (vleWithKey P vle pswd options, vleKeyReply limit options env)
      else (vle, sqlite3ResultErrorNomem .initial, env)

/-- `vle_setKey`. -/
def vleSetKey (argv : List SqlValue) (vle : Option VleKeyContext) (env : Env) :
    Option (VleKeyContext × SqlContext × Env) :=
  (vleGetContext vle env).map fun (vle, env) =>
    match vlePassphraseArg argv[0]? with
    | .error msg => (vle, sqlite3ResultError .initial msg, env)
    | .ok pswd =>
      match vleSaltArg argv[1]? with
      | .error msg => (vle, sqlite3ResultError .initial msg, env)
      | .ok salt =>
        vleSetAlgorithm P limit argv pswd { vle with salt := (P.sha256 salt).take 16 } env

end SetKey

/-! ### Atomicity -/

section Atomic

variable {P : VlePrimitives} {limit : ℕ} {argv : List SqlValue} {vle : Option VleKeyContext}
  {ctx ctx' : VleKeyContext} {env env' : Env} {c : SqlContext}

/-- Key, salt and algorithm are those of the arguments. -/
def FromThisCall (P : VlePrimitives) (argv : List SqlValue) (ctx : VleKeyContext) : Prop :=
  ∃ pswd salt algorithm options, vlePassphraseArg argv[0]? = .ok pswd ∧
    vleSaltArg argv[1]? = .ok salt ∧ vleAlgorithmArg argv[2]? = .ok algorithm ∧
    vleOptionsArg argv[3]? = .ok options ∧
    ctx.salt = (P.sha256 salt).take 16 ∧ ctx.algorithm = algorithm ∧ ctx.keyLen = 32 ∧
    ctx.key = vleDerive P algorithm pswd ctx.salt
      (vleKdfIter (vleParseKdfIter options vleKdfIterDefault))

/-- After a call that reports an error the context is what it was, otherwise it is that of the
call. -/
structure AtomicReply (P : VlePrimitives) (argv : List SqlValue) (ctx : VleKeyContext)
    (r : VleKeyContext × SqlContext × Env) : Prop where
  error : r.2.1.isError ≠ .ok → r.1 = ctx
  ok : r.2.1.isError = .ok → FromThisCall P argv r.1

/-- The call returns, and is atomic. A connection without a context has the one it would be
given. -/
def SetKeyAtomic (P : VlePrimitives) (limit : ℕ) (argv : List SqlValue)
    (vle : Option VleKeyContext) (env : Env) : Prop :=
  ∃ r, vleSetKey P limit argv vle env = some r ∧
    AtomicReply P argv (vle.getD vleInitialContext) r

/-- The digest of this salt and this algorithm are in the context already. -/
def HasSaltAndAlgorithm (P : VlePrimitives) (ctx : VleKeyContext) (salt : Bytes)
    (algorithm : ℕ) : Prop :=
  ctx.salt = (P.sha256 salt).take 16 ∧ ctx.algorithm = algorithm

/-- The text of the result fits, or there is no memory for it. -/
def ReplyFits (limit : ℕ) (options : Bytes) (env : Env) : Prop :=
  env.sqlite3Malloc.1 = true →
    (vleKeyResult (vleKdfIter (vleParseKdfIter options vleKdfIterDefault))).length ≤ limit

/-- An error of the call leaves the context as it is. Up to the salt nothing has been stored. An
error of the algorithm comes when the salt and ChaCha20 have, one of the options when the salt and
the algorithm have, and a result that is too long when the key has. -/
def ContextKept (P : VlePrimitives) (limit : ℕ) (argv : List SqlValue) (ctx : VleKeyContext)
    (env : Env) : Prop :=
  ∀ pswd salt, vlePassphraseArg argv[0]? = .ok pswd → vleSaltArg argv[1]? = .ok salt →
    match vleAlgorithmArg argv[2]?, vleOptionsArg argv[3]? with
    | .error _, _ => HasSaltAndAlgorithm P ctx salt codecTypeChaCha20
    | .ok algorithm, .error _ => HasSaltAndAlgorithm P ctx salt algorithm
    | .ok algorithm, .ok options =>
      if (vleCopyOptions options env).1 then
        ReplyFits limit options (vleCopyOptions options env).2 ∨ FromThisCall P argv ctx
      else HasSaltAndAlgorithm P ctx salt algorithm

theorem vleGetContext_eq (h : vleGetContext vle env = some (ctx, env')) :
    ctx = vle.getD vleInitialContext := by
  cases vle with
  | some vle =>
    obtain ⟨rfl, -⟩ := Prod.mk.inj (Option.some_inj.mp h)
    rfl
  | none =>
    rw [vleGetContext] at h
    dsimp only at h
    split_ifs at h
    obtain ⟨rfl, -⟩ := Prod.mk.inj (Option.some_inj.mp h)
    rfl

/-- Storing what is there changes nothing. -/
theorem stored_eq_iff (salt : Bytes) (algorithm : ℕ) :
    ({ ctx with salt := (P.sha256 salt).take 16, algorithm := algorithm } : VleKeyContext) = ctx ↔
      HasSaltAndAlgorithm P ctx salt algorithm := by
  obtain ⟨⟨key, keyLen, algorithm', flags, nonceLen, tagLen⟩, salt'⟩ := ctx
  simp only [VleKeyContext.mk.injEq, VleContext.mk.injEq, HasSaltAndAlgorithm, true_and, and_true]
  exact ⟨fun h => ⟨h.2.symm, h.1.symm⟩, fun h => ⟨h.2.symm, h.1.symm⟩⟩

/-- The reply is an error if the text does not fit. -/
theorem vleKeyReply_isError (limit : ℕ) (options : Bytes) (env : Env) :
    (vleKeyReply limit options env).1.isError = .ok ↔ ReplyFits limit options env := by
  rw [vleKeyReply, ReplyFits]
  rcases env.sqlite3Malloc with ⟨granted, env'⟩
  cases granted with
  | false => simp [sqlite3ResultNull, SqlContext.initial]
  | true =>
    dsimp only
    rw [if_pos rfl, sqlite3ResultText]
    by_cases hlen : (vleKeyResult (vleKdfIter (vleParseKdfIter options vleKdfIterDefault))).length ≤
        limit
    · rw [if_neg (Nat.not_lt.mpr hlen)]
      exact iff_of_true rfl fun _ => hlen
    · rw [if_pos (Nat.lt_of_not_le hlen)]
      exact iff_of_false (by simp [sqlite3ResultErrorToobig]) fun h => hlen (h rfl)

/-- A call that reports an error is atomic if it has stored nothing new. -/
theorem atomicReply_error_iff (hc : c.isError ≠ .ok) :
    AtomicReply P argv ctx (ctx', c, env') ↔ ctx' = ctx :=
  ⟨fun h => h.error hc, fun h => ⟨fun _ => h, fun hok => absurd hok hc⟩⟩

/-- A context is that of the call if storing the key of the call changes nothing. -/
theorem fromThisCall_iff {pswd salt options : Bytes} {algorithm : ℕ}
    (hpswd : vlePassphraseArg argv[0]? = .ok pswd) (hsalt : vleSaltArg argv[1]? = .ok salt)
    (halgorithm : vleAlgorithmArg argv[2]? = .ok algorithm)
    (hoptions : vleOptionsArg argv[3]? = .ok options) :
    FromThisCall P argv ctx ↔
      vleWithKey P { ctx with salt := (P.sha256 salt).take 16, algorithm := algorithm } pswd
        options = ctx := by
  constructor
  · rintro ⟨pswd', salt', algorithm', options', hpswd', hsalt', halgorithm', hoptions', hs, ha, hl,
      hk⟩
    obtain rfl := Except.ok.inj (hpswd.symm.trans hpswd')
    obtain rfl := Except.ok.inj (hsalt.symm.trans hsalt')
    obtain rfl := Except.ok.inj (halgorithm.symm.trans halgorithm')
    obtain rfl := Except.ok.inj (hoptions.symm.trans hoptions')
    obtain ⟨⟨key, keyLen, algorithm', flags, nonceLen, tagLen⟩, salt'⟩ := ctx
    dsimp only at hs ha hl hk
    subst hs ha hl hk
    rfl
  · intro h
    rw [← h]
    exact ⟨pswd, salt, algorithm, options, hpswd, hsalt, halgorithm, hoptions, rfl, rfl, rfl, rfl⟩

/-- The part of the call from the algorithm on. -/
theorem vleSetAlgorithm_atomic_iff {pswd salt : Bytes}
    (hpswd : vlePassphraseArg argv[0]? = .ok pswd) (hsalt : vleSaltArg argv[1]? = .ok salt) :
    AtomicReply P argv ctx (vleSetAlgorithm P limit argv pswd
        { ctx with salt := (P.sha256 salt).take 16 } env) ↔
      ContextKept P limit argv ctx env := by
  have hargs : ContextKept P limit argv ctx env ↔
      match vleAlgorithmArg argv[2]?, vleOptionsArg argv[3]? with
      | .error _, _ => HasSaltAndAlgorithm P ctx salt codecTypeChaCha20
      | .ok algorithm, .error _ => HasSaltAndAlgorithm P ctx salt algorithm
      | .ok algorithm, .ok options =>
        if (vleCopyOptions options env).1 then
          ReplyFits limit options (vleCopyOptions options env).2 ∨ FromThisCall P argv ctx
        else HasSaltAndAlgorithm P ctx salt algorithm := by
    constructor
    · exact fun h => h pswd salt hpswd hsalt
    · intro h pswd' salt' hpswd' hsalt'
      obtain rfl := Except.ok.inj (hpswd.symm.trans hpswd')
      obtain rfl := Except.ok.inj (hsalt.symm.trans hsalt')
      exact h
  rw [hargs, vleSetAlgorithm]
  dsimp only
  cases halgorithm : vleAlgorithmArg argv[2]? with
  | error msg =>
    dsimp only
    rw [atomicReply_error_iff (by simp [sqlite3ResultError]), stored_eq_iff]
  | ok algorithm =>
    cases hoptions : vleOptionsArg argv[3]? with
    | error msg =>
      dsimp only
      rw [atomicReply_error_iff (by simp [sqlite3ResultError]), stored_eq_iff]
    | ok options =>
      dsimp only
      by_cases hcopy : (vleCopyOptions options env).1 = true
      · rw [if_pos hcopy, if_pos hcopy]
        have hnew : FromThisCall P argv ctx ↔ _ :=
          fromThisCall_iff hpswd hsalt halgorithm hoptions
        by_cases hfits : ReplyFits limit options (vleCopyOptions options env).2
        · have hok := (vleKeyReply_isError limit options _).mpr hfits
          refine iff_of_true ⟨fun herror => absurd hok herror, fun _ => ?_⟩ (Or.inl hfits)
          exact ⟨pswd, salt, algorithm, options, hpswd, hsalt, halgorithm, hoptions, rfl, rfl, rfl,
            rfl⟩
        · have herror := fun hok => hfits ((vleKeyReply_isError limit options _).mp hok)
          rw [or_iff_right hfits, hnew]
          exact atomicReply_error_iff herror
      · rw [if_neg hcopy, if_neg hcopy,
          atomicReply_error_iff (by simp [sqlite3ResultErrorNomem]), stored_eq_iff]

/-- **`sqlite3mc_vle_key` is atomic** in the calls that find or make a context and, where they
report an error after the salt, find in it what they have stored by then; and in no others. -/
theorem setKeyAtomic_iff (P : VlePrimitives) (limit : ℕ) (argv : List SqlValue)
    (vle : Option VleKeyContext) (env : Env) :
    SetKeyAtomic P limit argv vle env ↔
      ∃ env', vleGetContext vle env = some (vle.getD vleInitialContext, env') ∧
        ContextKept P limit argv (vle.getD vleInitialContext) env' := by
  rw [SetKeyAtomic, vleSetKey]
  cases hctx : vleGetContext vle env with
  | none => simp
  | some r =>
    obtain ⟨ctx, env'⟩ := r
    obtain rfl := vleGetContext_eq hctx
    generalize vle.getD vleInitialContext = ctx
    simp only [Option.map_some, Option.some_inj, exists_eq_left', Prod.mk.injEq, true_and]
    have herror : ∀ (msg : String) (Q : Prop), Q → (AtomicReply P argv ctx
        (ctx, sqlite3ResultError .initial msg, env') ↔ Q) := fun msg Q hQ =>
      iff_of_true ((atomicReply_error_iff (by simp [sqlite3ResultError])).mpr rfl) hQ
    cases hpswd : vlePassphraseArg argv[0]? with
    | error msg =>
      refine herror msg _ fun pswd salt h => ?_
      rw [hpswd] at h
      cases h
    | ok pswd =>
      cases hsalt : vleSaltArg argv[1]? with
      | error msg =>
        refine herror msg _ fun pswd salt _ h => ?_
        rw [hsalt] at h
        cases h
      | ok salt => exact vleSetAlgorithm_atomic_iff hpswd hsalt

/-- A connection with a key for Ascon-128. -/
def asconVleContext : VleKeyContext := ⟨zeroVleContext codecTypeAscon128, zeros 16⟩

/-- An algorithm that does not exist is asked for. The call reports it, and the key is one for
ChaCha20. -/
theorem vleSetKey_unsupported :
    ∃ r, vleSetKey copyVlePrimitives 1000000000
        [.text (asciiBytes "b"), .null, .text (asciiBytes "aes")] (some asconVleContext)
        grantingEnv = some r ∧
      r.2.1 = ⟨.text (asciiBytes "Unsupported cipher type"), .error⟩ ∧
      asconVleContext.algorithm = codecTypeAscon128 ∧ r.1.algorithm = codecTypeChaCha20 :=
  ⟨_, rfl, rfl, rfl, rfl⟩

end Atomic

/-! ### Reading the arguments -/

section Reads

variable {P : VlePrimitives} {limit : ℕ} {argv : List SqlValue} {vle : Option VleKeyContext}
  {env : Env} {r : VleKeyContext × SqlContext × Env}

/-- What `vle_setKey` reads: the algorithm it selects and all it stores as `kdf_iter`, with the
places. It reports an error if there is nothing. -/
def vleReads (argv : List SqlValue) : Option (ℕ × List (ℕ × ℤ)) :=
  match vlePassphraseArg argv[0]?, vleSaltArg argv[1]?, vleAlgorithmArg argv[2]?,
    vleOptionsArg argv[3]? with
  | .ok _, .ok _, .ok algorithm, .ok options => some (algorithm, vleApplied options)
  | _, _, _, _ => none

/-- The algorithm an argument names in full. -/
def documentedAlgorithm (arg : Option SqlValue) : Option ℕ :=
  match arg with
  | none => some codecTypeChaCha20
  | some (.text algorithm) =>
    if FullName (asciiBytes "chacha20") algorithm then some codecTypeChaCha20
    else if FullName (asciiBytes "ascon128") algorithm then some codecTypeAscon128
    else none
  | some _ => none

/-- What the arguments say, nothing if they are to be rejected. -/
def documentedReads (argv : List SqlValue) : Option (ℕ × List (ℕ × ℤ)) :=
  match vlePassphraseArg argv[0]?, vleSaltArg argv[1]?, documentedAlgorithm argv[2]?,
    vleOptionsArg argv[3]? with
  | .ok _, .ok _, some algorithm, .ok options =>
    (documentedOptions options).map fun applied => (algorithm, applied)
  | _, _, _, _ => none

/-- What is read decides on the outcome: an error, or a key of this algorithm from the last
`kdf_iter` stored. -/
def KeyFollows (P : VlePrimitives) (argv : List SqlValue) (r : VleKeyContext × SqlContext × Env) :
    Prop :=
  match vleReads argv with
  | none => r.2.1.isError = .error
  | some (algorithm, applied) =>
    ∃ pswd, vlePassphraseArg argv[0]? = .ok pswd ∧ r.1.algorithm = algorithm ∧
      r.1.key = vleDerive P algorithm pswd r.1.salt
        (vleKdfIter ((applied.getLast?.map Prod.snd).getD vleKdfIterDefault))

/-- The function does what follows from what it reads, unless it runs out of memory. -/
theorem vleSetKey_follows (h : vleSetKey P limit argv vle env = some r)
    (hmemory : r.2.1.isError ≠ .nomem) : KeyFollows P argv r := by
  obtain ⟨⟨ctx, env'⟩, -, rfl⟩ := Option.map_eq_some_iff.mp h
  rw [KeyFollows, vleReads]
  dsimp only at hmemory ⊢
  cases hpswd : vlePassphraseArg argv[0]? with
  | error msg => rfl
  | ok pswd =>
    cases hsalt : vleSaltArg argv[1]? with
    | error msg => rfl
    | ok salt =>
      rw [hpswd, hsalt] at hmemory
      dsimp only at hmemory ⊢
      rw [vleSetAlgorithm] at hmemory ⊢
      dsimp only at hmemory ⊢
      cases halgorithm : vleAlgorithmArg argv[2]? with
      | error msg => rfl
      | ok algorithm =>
        cases hoptions : vleOptionsArg argv[3]? with
        | error msg => rfl
        | ok options =>
          rw [halgorithm, hoptions] at hmemory
          dsimp only at hmemory ⊢
          by_cases hcopy : (vleCopyOptions options env').1 = true
          · rw [if_pos hcopy]
            refine ⟨pswd, rfl, rfl, ?_⟩
            rw [← vleParseKdfIter_eq]
            rfl
          · rw [if_neg hcopy] at hmemory
            exact absurd rfl hmemory

/-- A name in full is taken, and the other one is not. -/
theorem vleAlgorithmArg_of_documented {arg : Option SqlValue} {algorithm : ℕ}
    (h : documentedAlgorithm arg = some algorithm) : vleAlgorithmArg arg = .ok algorithm := by
  have htaken : ∀ {name a : Bytes}, FullName name a → sqlite3Strnicmp a.length a name = 0 := by
    intro name a hname
    have hlen : a.length = name.length := by
      simpa only [List.length_map] using congrArg List.length hname
    rw [hlen]
    exact sqlite3Strnicmp_of_fullName hname.symm
  unfold documentedAlgorithm at h
  split at h
  · exact congrArg Except.ok (Option.some_inj.mp h)
  · rename_i a
    rw [vleAlgorithmArg]
    split_ifs at h with hchacha hascon
    · rw [if_pos (htaken hchacha)]
      exact congrArg Except.ok (Option.some_inj.mp h)
    · -- the first letters differ
      have hother : sqlite3Strnicmp a.length a (asciiBytes "chacha20") ≠ 0 := by
        cases a with
        | nil => cases hascon
        | cons c a =>
          have hc : upperToLower c = 97 := (List.cons.inj hascon).1
          rw [List.length_cons, sqlite3Strnicmp, List.headD_cons, hc,
            if_neg fun h => absurd h.2 (by decide)]
          decide
      rw [if_neg hother, if_pos (htaken hascon)]
      exact congrArg Except.ok (Option.some_inj.mp h)
  · cases h

/-- An argument has a wrong type or names no algorithm that the comparison takes. -/
def Refused (argv : List SqlValue) : Prop :=
  (vlePassphraseArg argv[0]?).isOk = false ∨ (vleSaltArg argv[1]?).isOk = false ∨
    (vleAlgorithmArg argv[2]?).isOk = false ∨ (vleOptionsArg argv[3]?).isOk = false

/-- The arguments are well written: the algorithm is absent or named in full, and the options are
absent, empty or clean. -/
def WellWritten (argv : List SqlValue) : Prop :=
  documentedAlgorithm argv[2]? ≠ none ∧
    ∀ options, vleOptionsArg argv[3]? = .ok options →
      options = [] ∨ CleanItems (optionItems options)

/-- **The arguments of `sqlite3mc_vle_key` are read as they say** if the function refuses them or
they are well written, and in no other case: what is read decides on the outcome, and an algorithm
is selected by its full name only, a `kdf_iter` is stored for each item with this name and no other
one, and nothing is read from arguments that are to be rejected. -/
theorem vleReads_iff (argv : List SqlValue) :
    (∀ (P : VlePrimitives) (limit : ℕ) (vle : Option VleKeyContext) (env : Env)
        (r : VleKeyContext × SqlContext × Env), vleSetKey P limit argv vle env = some r →
        r.2.1.isError ≠ .nomem → KeyFollows P argv r) ∧
      (vleReads argv = documentedReads argv ↔ Refused argv ∨ WellWritten argv) := by
  refine ⟨fun P limit vle env r => vleSetKey_follows, ?_⟩
  rw [vleReads, documentedReads, Refused]
  cases vlePassphraseArg argv[0]? with
  | error msg => exact iff_of_true rfl (Or.inl (Or.inl rfl))
  | ok pswd =>
    cases vleSaltArg argv[1]? with
    | error msg => exact iff_of_true rfl (Or.inl (Or.inr (Or.inl rfl)))
    | ok salt =>
      cases hoptions : vleOptionsArg argv[3]? with
      | error msg =>
        refine iff_of_true ?_ (Or.inl (Or.inr (Or.inr (Or.inr rfl))))
        cases vleAlgorithmArg argv[2]? <;> cases documentedAlgorithm argv[2]? <;> rfl
      | ok options =>
        cases hdocumented : documentedAlgorithm argv[2]? with
        | none =>
          cases vleAlgorithmArg argv[2]? with
          | error msg => exact iff_of_true rfl (Or.inl (Or.inr (Or.inr (Or.inl rfl))))
          | ok algorithm =>
            have hnot : ¬ WellWritten argv := fun h => h.1 hdocumented
            simp [Except.isOk, Except.toBool, hnot]
        | some algorithm =>
          have hwell : WellWritten argv ↔ options = [] ∨ CleanItems (optionItems options) := by
            rw [WellWritten, hdocumented, hoptions]
            constructor
            · exact fun h => h.2 options rfl
            · rintro h
              refine ⟨by simp, fun options' heq => ?_⟩
              rwa [← Except.ok.inj heq]
          rw [vleAlgorithmArg_of_documented hdocumented, hwell, ← documentedOptions_eq_iff]
          dsimp only
          cases documentedOptions options with
          | none => simp [Except.isOk, Except.toBool]
          | some applied =>
            simp only [Except.isOk, Except.toBool, Bool.true_eq_false, false_or, Option.map_some,
              Option.some_inj, Prod.mk.injEq, true_and]
            exact eq_comm

/-- A prefix of the name of the option is taken for it. -/
theorem vleReads_prefix :
    vleReads [.text (asciiBytes "a"), .null, .text (asciiBytes "chacha20"),
        .text (asciiBytes "kdf=5")] = some (codecTypeChaCha20, [(4, 5)]) ∧
      documentedReads [.text (asciiBytes "a"), .null, .text (asciiBytes "chacha20"),
        .text (asciiBytes "kdf=5")] = some (codecTypeChaCha20, []) := by
  decide

end Reads

end MultipleCiphers
