import MultipleCiphers.Ciphers.AsconPbkdf2
import MultipleCiphers.Key.OneShot
import MultipleCiphers.Key.SaltedKeys

/-!
# The iteration count of a key derivation

Four of the ciphers derive the key of a password in a number of rounds that is configured: the
parameter `kdf_iter` of AES-256, ChaCha20, SQLCipher and Ascon128. The value travels from the table
of the connection into the cipher structure when that is allocated, from there into every clone,
and should arrive in the loop of the derivation.

For AES-256 it does not. `GenerateKeyAES256Cipher` repeats SHA-256 a constant number of times, which
is the default of the parameter, so nobody who leaves the parameter alone sees a difference.

Whether a key was derived with the right number of rounds is asked here of all hash functions at
once: for one hash function two different numbers of rounds might lead to the same digest.

## Main definitions

* `Primitives.withAscon` — primitives whose Ascon derivation is that of this repository.
* `referenceKey` — the key a cipher should derive.
* `HonoursIterations` — a key generation that delivers it.

## Main results

* `config_kdfIter` — a configured count is pending.
* `generateKey_reference` — the three ciphers that follow the count.
* `iterations_honoured_iff` — from the configuration to the key.
-/

namespace MultipleCiphers

open Bytes

/-! ### The derivation of Ascon as a primitive -/

section Ascon

variable {asconP : ℕ → AsconState → AsconState}

/-- A count of zero does what a count of one does: `ascon_pbkdf2_f` always makes one round. -/
theorem asconPbkdf2Blocks_zero (state : AsconState) (salt out : Bytes) (off outlen : ℕ)
    (blocknum : UInt32) :
    asconPbkdf2Blocks asconP state salt 0 out off outlen blocknum =
      asconPbkdf2Blocks asconP state salt 1 out off outlen blocknum := by
  have hblock (out : Bytes) (off : ℕ) (blocknum : UInt32) :
      asconPbkdf2F asconP state out off salt 0 blocknum =
        asconPbkdf2F asconP state out off salt 1 blocknum := rfl
  induction outlen using Nat.strong_induction_on generalizing out off blocknum with
  | _ outlen ih =>
    unfold asconPbkdf2Blocks
    simp only [hblock]
    split
    next hpos =>
      split
      next hfull => exact ih (outlen - 32) (by omega) _ _ _
      next hpart => rfl
    next hzero => rfl

theorem length_asconPbkdf2 (password salt : Bytes) {out : Bytes} {outlen : UInt32}
    (h : outlen.toNat ≤ out.length) (count : UInt32) :
    (asconPbkdf2 asconP out 0 outlen password salt count).length = out.length := by
  have hpos : ∀ count : ℕ, 1 ≤ count → (asconPbkdf2Blocks asconP
      (asconPbkdf2Init asconP asconPbkdf2Name password) salt count out 0 outlen.toNat 1).length =
        out.length := by
    intro count hcount
    have hout : 0 + outlen.toNat ≤ out.length := by rwa [Nat.zero_add]
    obtain ⟨k, rfl⟩ := Nat.exists_eq_add_of_le' hcount
    rw [asconPbkdf2Blocks_eq (i := 0) password salt hout hcount rfl
      (by have := outlen.toNat_lt; omega), length_splice]
    rwa [length_firstOf (fun _ => length_pbkdf2Block (length_asconPrf password) _ k) (by decide)]
  rw [asconPbkdf2]
  rcases Nat.eq_zero_or_pos count.toNat with h0 | h0
  · rw [h0, asconPbkdf2Blocks_zero, hpos 1 le_rfl]
  · exact hpos _ h0

/-- The primitives with `ascon_pbkdf2` for the Ascon derivation. The count is an `int` that the
caller passes on as an unsigned number. -/
def Primitives.withAscon (P : Primitives) (asconP : ℕ → AsconState → AsconState) : Primitives :=
  { P with
    asconPbkdf2 := fun password salt count n =>
      MultipleCiphers.asconPbkdf2 asconP (zeros n) 0 (UInt32.ofNat n) password salt
        (UInt32.ofInt count)
    length_asconPbkdf2 := fun password salt count n => by
      rw [MultipleCiphers.length_asconPbkdf2 _ _ (by rw [length_zeros]; exact Nat.mod_le _ _),
        length_zeros] }

/-- For a key of 32 bytes and an admitted count, the primitive is PBKDF2. -/
theorem withAscon_asconPbkdf2 (P : Primitives) (password salt : Bytes) {n : ℕ} (hn : 1 ≤ n)
    (hmax : n < 2 ^ 32) :
    (P.withAscon asconP).asconPbkdf2 password salt n 32 =
      pbkdf2 (asconPrf asconP password) 32 (asconSalt salt) n 32 := by
  have hcount : (UInt32.ofInt n).toNat = n := by
    rw [UInt32.ofInt, Int.emod_eq_of_lt (by omega) (by omega), Int.toNat_natCast]
    exact UInt32.toNat_ofNat_of_lt' hmax
  have hlen : (pbkdf2 (asconPrf asconP password) 32 (asconSalt salt) n 32).length = 32 :=
    length_pbkdf2 (length_asconPrf password) (by decide) _ hn _
  have heq : (P.withAscon asconP).asconPbkdf2 password salt n 32 =
      splice (zeros 32) 0 (pbkdf2 (asconPrf asconP password) 32 (asconSalt salt) n 32) := by
    have h := @asconPbkdf2_eq asconP password salt (zeros 32) 0 (UInt32.ofNat 32)
      (UInt32.ofInt n) (by decide) (by rwa [hcount])
    rw [hcount] at h
    exact h
  rw [heq, splice, hlen]
  simp [zeros]

end Ascon

/-! ### Keys -/

/-- `m_key`. -/
def Cipher.derivedKey : Cipher → Bytes
  | .aes128 c => c.key
  | .aes256 c => c.key
  | .chacha20 c => c.key
  | .sqlcipher c => c.key
  | .rc4 c => c.key
  | .ascon128 c => c.key
  | .aegis c => c.key

/-- The derivation of a cipher with a number of rounds, for the ciphers that have one. -/
def referenceDerivation (P : Primitives) (asconP : ℕ → AsconState → AsconState) (cipher : Cipher)
    (password salt : Bytes) (n : ℕ) : Bytes :=
  match cipher with
  | .aes256 _ => P.sha256^[n] (P.sha256 (sqlite3mcPadPassword password))
  | .chacha20 _ => P.pbkdf2 .sha256 password salt n 32
  | .sqlcipher c => P.pbkdf2 (.ofInt c.kdfAlgorithm) password salt n 32
  | .ascon128 _ => pbkdf2 (asconPrf asconP password) 32 (asconSalt salt) n 32
  | _ => []

/-- The key of a password: a raw key as it stands where the cipher knows raw keys, and else what
the derivation delivers. -/
def referenceKey (P : Primitives) (asconP : ℕ → AsconState → AsconState) (cipher : Cipher)
    (password salt : Bytes) (n : ℕ) : Bytes :=
  match cipher with
  | .aes256 _ => referenceDerivation P asconP cipher password salt n
  | _ => ((sqlite3mcExtractRawKey password false 32 16).map Prod.fst).getD
      (referenceDerivation P asconP cipher password salt n)

/-- A key generation delivers the key of the password, for the salt the cipher then has and `n`
rounds. -/
def HonoursIterations (P : Primitives) (asconP : ℕ → AsconState → AsconState) (t : ℕ) (c : Cipher)
    (n : ℕ) (password : Bytes) (rekey : ℕ) (cipherSalt : Option Bytes) (env : Env) : Prop :=
  let D := builtinDescriptors (P.withAscon asconP) t
  let keyed := (D.generateKey c password rekey cipherSalt env).1
  keyed.derivedKey = referenceKey P asconP keyed password ((D.getSalt keyed).getD []) n

theorem rehash_eq_iterate (hash : Bytes → Bytes) (n : ℕ) (digest : Bytes) :
    rehash hash n digest = hash^[n] digest := by
  induction n generalizing digest with
  | zero => rfl
  | succ n ih => exact ih (hash digest)

section Generate

variable {asconP : ℕ → AsconState → AsconState} {n : ℕ}

/-- **The ciphers that follow the count.** What they derive has as many rounds as the structure
says. -/
theorem generateKey_reference (P : Primitives) {c : Cipher} (t : ℕ)
    (hc : (∃ a : ChaCha20Cipher, c = .chacha20 a ∧ a.kdfIter = n) ∨
      (∃ a : SQLCipherCipher, c = .sqlcipher a ∧ a.kdfIter = n) ∨
      ∃ a : Ascon128Cipher, c = .ascon128 a ∧ a.kdfIter = n)
    (hn : 1 ≤ n ∧ n < 2 ^ 32) (password : Bytes) (rekey : ℕ) (cipherSalt : Option Bytes)
    (env : Env) : HonoursIterations P asconP t c n password rekey cipherSalt env := by
  rcases hc with ⟨a, rfl, ha⟩ | ⟨a, rfl, ha⟩ | ⟨a, rfl, ha⟩
  · have hcount (salt : Bytes) : P.pbkdf2 .sha256 password salt a.kdfIter 32 =
        P.pbkdf2 .sha256 password salt n 32 := by rw [ha]
    exact (saltedKey_key a.plaintextHeaderSize
      (fun salt => P.pbkdf2 .sha256 password salt a.kdfIter 32) password rekey cipherSalt env).trans
      (congrArg _ (hcount _))
  · have hcount (salt : Bytes) : P.pbkdf2 (.ofInt a.kdfAlgorithm) password salt a.kdfIter 32 =
        P.pbkdf2 (.ofInt a.kdfAlgorithm) password salt n 32 := by rw [ha]
    exact (saltedKey_key a.plaintextHeaderSize
      (fun salt => P.pbkdf2 (.ofInt a.kdfAlgorithm) password salt a.kdfIter 32) password rekey
      cipherSalt env).trans (congrArg _ (hcount _))
  · have hcount (salt : Bytes) : (P.withAscon asconP).asconPbkdf2 password salt a.kdfIter 32 =
        pbkdf2 (asconPrf asconP password) 32 (asconSalt salt) n 32 := by
      rw [ha, withAscon_asconPbkdf2 P _ _ hn.1 hn.2]
    exact (saltedKey_key a.plaintextHeaderSize
      (fun salt => (P.withAscon asconP).asconPbkdf2 password salt a.kdfIter 32) password rekey
      cipherSalt env).trans (congrArg _ (hcount _))

end Generate

/-! ### AES-256 -/

/-- A hash function that counts: its first eight bytes are those of the input plus one. -/
def roundsHash (b : Bytes) : Bytes := put8byte ((get8byte b + 1) % 2 ^ 64) ++ zeros 24

/-- Primitives that are useless but for the digests of `sha256`, which show how often it was
applied. -/
def roundsPrimitives : Primitives :=
  { nullPrimitives with
    sha256 := roundsHash
    length_sha256 := fun b => by
      rw [roundsHash, List.length_append, length_put8byte, length_zeros] }

theorem get8byte_roundsHash (b : Bytes) :
    get8byte (roundsHash b) = (get8byte b + 1) % 2 ^ 64 := by
  rw [← get8byte_take, roundsHash, List.take_append_of_le_length (by rw [length_put8byte]),
    List.take_of_length_le (by rw [length_put8byte]), get8byte_put8byte (Nat.mod_lt _ (by decide))]

theorem get8byte_iterate_roundsHash {b : Bytes} {g : ℕ} (hg : get8byte b = g % 2 ^ 64) (k : ℕ) :
    get8byte (roundsHash^[k] b) = (g + k) % 2 ^ 64 := by
  induction k with
  | zero => exact hg
  | succ k ih =>
    rw [Function.iterate_succ_apply', get8byte_roundsHash, ih, Nat.mod_add_mod, Nat.add_assoc]

/-- AES-256 makes its constant number of rounds, whatever the structure says. -/
theorem generateKeyAES256_reference_iff (asconP : ℕ → AsconState → AsconState) (a : AES256Cipher)
    (t : ℕ) {n : ℕ} (hn : n < 2 ^ 32) (password : Bytes) (rekey : ℕ) (cipherSalt : Option Bytes)
    (env : Env) :
    (∀ P, HonoursIterations P asconP t (.aes256 a) n password rekey cipherSalt env) ↔
      n = codecShaIter := by
  have hkey (P : Primitives) :
      HonoursIterations P asconP t (.aes256 a) n password rekey cipherSalt env ↔
        rehash P.sha256 codecShaIter (P.sha256 (sqlite3mcPadPassword password)) =
          P.sha256^[n] (P.sha256 (sqlite3mcPadPassword password)) := by
    simp only [HonoursIterations, builtinDescriptors, builtinGenerateKey, Cipher.derivedKey,
      generateKeyAES256Cipher, referenceKey, referenceDerivation, Primitives.withAscon]
  constructor
  · intro hall
    have heq := congrArg get8byte ((hkey roundsPrimitives).mp (hall roundsPrimitives))
    have hfirst : get8byte (roundsPrimitives.sha256 (sqlite3mcPadPassword password)) =
        (get8byte (sqlite3mcPadPassword password) + 1) % 2 ^ 64 := get8byte_roundsHash _
    rw [rehash_eq_iterate] at heq
    change get8byte (roundsHash^[codecShaIter] _) = get8byte (roundsHash^[n] _) at heq
    rw [get8byte_iterate_roundsHash hfirst, get8byte_iterate_roundsHash hfirst,
      codecShaIter] at heq
    rw [codecShaIter]
    omega
  · rintro rfl P
    exact (hkey P).mpr (rehash_eq_iterate _ _ _)

/-! ### From the configuration to the key -/

section Configured

variable {env env' : Env} {t n : ℕ}

/-- The types of the ciphers with a derivation in rounds: AES-256, ChaCha20, SQLCipher and
Ascon128. -/
def derivesInRounds (t : ℕ) : Bool := t = 2 ∨ t = 3 ∨ t = 4 ∨ t = 6

/-- The connection after `sqlite3mc_config_cipher(db, cipherName, "kdf_iter", n)`. -/
def Env.configKdfIter (env : Env) (cipherName : String) (n : ℕ) : Env :=
  { env with codecParams := (sqlite3mcConfigCipherTable env.codecParams cipherName "kdf_iter" n).2 }

/-- The parameter and its place in the table, and its bounds. -/
theorem kdfIter_found (h : env.HasBuiltinParams) (ht : derivesInRounds t = true) :
    findTable env.codecParams (builtinName t) = some t ∧
      ∃ p, findParameter (paramsAt env.codecParams t) "kdf_iter" = some p ∧ p.minValue = 1 ∧
        p.maxValue = 0x7fffffff := by
  obtain ⟨rest, hrest⟩ := h.shape
  have htype : t = 2 ∨ t = 3 ∨ t = 4 ∨ t = 6 := by simpa [derivesInRounds] using ht
  have htable : builtinShape.findIdx? (fun s => sqlite3Stricmp (builtinName t) s.1) = some t ∧
      (((builtinShape[t]?.map fun s => s.2.2).getD []).find? fun b =>
        sqlite3Stricmp "kdf_iter" b.1) = some ("kdf_iter", 1, 0x7fffffff) := by
    rcases htype with rfl | rfl | rfl | rfl <;> decide
  have hlt : t < builtinShape.length := by
    rcases htype with rfl | rfl | rfl | rfl <;> decide
  constructor
  · rw [findTable_shape, ← hrest, List.findIdx?_append, htable.1]
    rfl
  · have hfind := findParameter_bounds (paramsAt env.codecParams t) "kdf_iter"
    rw [paramsAt_bounds, ← hrest, List.getElem?_append_left hlt, htable.2] at hfind
    obtain ⟨p, hp, hbounds⟩ := Option.map_eq_some_iff.mp hfind
    obtain ⟨-, hmin, hmax⟩ : p.name = "kdf_iter" ∧ p.minValue = 1 ∧ p.maxValue = 0x7fffffff := by
      simpa [CipherParams.bounds] using hbounds
    exact ⟨p, hp, hmin, hmax⟩

/-- The value that is read is that of the first parameter of the name. -/
theorem sqlite3mcGetCipherParameter_found {params : List CipherParams} {name : String}
    {p : CipherParams} (h : findParameter params name = some p) :
    (sqlite3mcGetCipherParameter params name).1 = p.value := by
  have huse : (useParameter params name).map Prod.fst = some p.value := by
    induction params with
    | nil => cases h
    | cons q qs ih =>
      rw [findParameter, List.find?_cons] at h
      rw [useParameter]
      split at h
      · rename_i hq
        obtain rfl := Option.some_inj.mp h
        rw [if_pos hq]
        rfl
      · rename_i hq
        rw [if_neg (by rw [hq]; decide), Option.map_map]
        exact ih h
  obtain ⟨r, hr, hvalue⟩ := Option.map_eq_some_iff.mp huse
  rw [sqlite3mcGetCipherParameter, hr, Option.getD_some, hvalue]

/-- What is found after a change of the parameter that is looked for. -/
theorem findParameter_modifyParameter_self {params : List CipherParams} {name : String}
    {p : CipherParams} {f : CipherParams → CipherParams} (hf : ∀ p, (f p).name = p.name)
    (h : findParameter params name = some p) :
    findParameter (modifyParameter name f params) name = some (f p) := by
  induction params with
  | nil => cases h
  | cons q qs ih =>
    rw [findParameter, List.find?_cons] at h
    rw [modifyParameter]
    split at h
    · rename_i hq
      obtain rfl := Option.some_inj.mp h
      rw [if_pos hq, findParameter, List.find?_cons, hf, hq]
    · rename_i hq
      rw [if_neg (by rw [hq]; decide), findParameter, List.find?_cons, hq]
      exact ih h

/-- **An admitted count is accepted, and is then pending.** -/
theorem config_kdfIter (h : env.HasBuiltinParams) (ht : derivesInRounds t = true)
    (hn : 1 ≤ n ∧ n ≤ 0x7fffffff) :
    (sqlite3mcConfigCipherTable env.codecParams (builtinName t) "kdf_iter" n).1 = n ∧
      (env.configKdfIter (builtinName t) n).HasBuiltinParams ∧
      (env.configKdfIter (builtinName t) n).pendingParameter (builtinName t) "kdf_iter" = n := by
  obtain ⟨htable, p, hp, hmin, hmax⟩ := kdfIter_found h ht
  have hparse : parseParamName "kdf_iter" = ⟨false, false, false, "kdf_iter"⟩ := by decide
  have hlegacy : sqlite3Stricmp "kdf_iter" "legacy" = false := by decide
  have hcheck : checkParameterValue "kdf_iter" n (builtinName t) = true :=
    check_of_ne (by decide) (by decide)
  have hconfig : sqlite3mcConfigCipherTable env.codecParams (builtinName t) "kdf_iter" n =
      ((n : ℤ), modifyAt env.codecParams t "kdf_iter" (CipherParams.write n false)) := by
    rw [sqlite3mcConfigCipherTable, htable, hparse]
    simp only [hlegacy, Bool.false_eq_true, false_and, and_false, if_false]
    rw [configCipherParam]
    simp only [hp]
    rw [if_pos ⟨rfl, rfl, by omega, by omega, by omega, hcheck⟩]
  have hbounds : ∀ p, (CipherParams.write n false p).bounds = p.bounds := fun _ => rfl
  have hparams : (env.configKdfIter (builtinName t) n).HasBuiltinParams := by
    refine ⟨?_, h.cipherNames, h.noGlobal⟩
    rw [Env.configKdfIter, hconfig, shape_modifyAt hbounds]
    exact h.shape
  have hpos : 1 ≤ t ∧ t ≤ 7 := by
    have htype : t = 2 ∨ t = 3 ∨ t = 4 ∨ t = 6 := by simpa [derivesInRounds] using ht
    omega
  refine ⟨by rw [hconfig], hparams, ?_⟩
  rw [Env.pendingParameter, hparams.position hpos]
  have hat : (env.configKdfIter (builtinName t) n).paramsAt t =
      modifyParameter "kdf_iter" (CipherParams.write n false) (paramsAt env.codecParams t) := by
    have hmodified := paramsAt_modifyAt (f := CipherParams.write n false) env.codecParams t t
      "kdf_iter"
    rw [if_pos rfl] at hmodified
    rw [← hmodified, Env.paramsAt, Env.configKdfIter, hconfig, paramsAt]
    cases (modifyAt env.codecParams t "kdf_iter" (CipherParams.write n false))[t]? <;> rfl
  have hfound := findParameter_modifyParameter_self (f := CipherParams.write n false)
    (fun _ => rfl) hp
  rw [hat, sqlite3mcGetCipherParameter_found hfound]
  rfl

/-- Whatever is pending is what the key is derived with, but for AES-256. -/
theorem honoursIterations_pending_iff (asconP : ℕ → AsconState → AsconState)
    (ht : derivesInRounds t = true) (hn : 1 ≤ n ∧ n ≤ 0x7fffffff)
    (hpending : env.pendingParameter (builtinName t) "kdf_iter" = n)
    (hlegacy : t = 3 → env.pendingParameter "chacha20" "legacy" = 0) {c : Cipher}
    (hal : builtinAllocate t env = (some c, env')) (password : Bytes) (rekey : ℕ)
    (cipherSalt : Option Bytes) (envKey : Env) :
    (∀ P, HonoursIterations P asconP t c n password rekey cipherSalt envKey) ↔
      (t = 2 → n = codecShaIter) := by
  obtain ⟨-, hnew, -⟩ := builtinAllocate_some hal
  have htype : t = 2 ∨ t = 3 ∨ t = 4 ∨ t = 6 := by simpa [derivesInRounds] using ht
  rcases htype with rfl | rfl | rfl | rfl
  · obtain rfl := Option.some_inj.mp hnew
    rw [generateKeyAES256_reference_iff asconP _ 2 (by omega)]
    exact ⟨fun h _ => h, fun h => h rfl⟩
  · obtain rfl := Option.some_inj.mp hnew
    have hvalue : (if env.pendingParameter (builtinName 3) "legacy" ≠ 0 then sqleetKdfIter else
        env.pendingParameter (builtinName 3) "kdf_iter") = n := by
      have hzero : env.pendingParameter (builtinName 3) "legacy" = 0 := hlegacy rfl
      rw [if_neg (not_not_intro hzero), hpending]
    exact iff_of_true (fun P => generateKey_reference P 3 (Or.inl ⟨_, rfl, hvalue⟩)
      ⟨hn.1, by omega⟩ password rekey cipherSalt envKey) (fun h => absurd h (by decide))
  · obtain rfl := Option.some_inj.mp hnew
    exact iff_of_true (fun P => generateKey_reference P 4 (Or.inr (Or.inl ⟨_, rfl, hpending⟩))
      ⟨hn.1, by omega⟩ password rekey cipherSalt envKey) (fun h => absurd h (by decide))
  · obtain rfl := Option.some_inj.mp hnew
    exact iff_of_true (fun P => generateKey_reference P 6 (Or.inr (Or.inr ⟨_, rfl, hpending⟩))
      ⟨hn.1, by omega⟩ password rekey cipherSalt envKey) (fun h => absurd h (by decide))

/-- **From the configuration to the key.** A count is configured, a cipher is allocated and cloned,
and a key is generated: the key is derived with the configured count, whatever the hash functions,
unless the cipher is AES-256 and the count not its constant. -/
theorem iterations_honoured_iff (asconP : ℕ → AsconState → AsconState) (h : env.HasBuiltinParams)
    (ht : derivesInRounds t = true) (hn : 1 ≤ n ∧ n ≤ 0x7fffffff)
    (hlegacy : t = 3 →
      (env.configKdfIter (builtinName t) n).pendingParameter "chacha20" "legacy" = 0)
    {c : Cipher} (hal : builtinAllocate t (env.configKdfIter (builtinName t) n) = (some c, env'))
    (targets : List Cipher) (password : Bytes) (rekey : ℕ) (cipherSalt : Option Bytes)
    (envKey : Env) :
    (∀ P, HonoursIterations P asconP t
        (targets.foldl (fun source target => builtinClone target source) c) n password rekey
        cipherSalt envKey) ↔
      (t = 2 → n = codecShaIter) := by
  have hclone : targets.foldl (fun source target => builtinClone target source) c = c := by
    induction targets with
    | nil => rfl
    | cons target targets ih =>
      have hone : builtinClone target c = c := (builtinDescriptors nullPrimitives t).cloneCipher_eq
        target c
      rw [List.foldl_cons, hone, ih]
  rw [hclone]
  exact honoursIterations_pending_iff asconP ht hn (config_kdfIter h ht hn).2.2 hlegacy hal
    password rekey cipherSalt envKey

/-- Ascon128 with three iterations, cloned once, and a key generated with a new salt. -/
theorem iterations_honoured_ascon :
    HonoursIterations nullPrimitives (fun _ s => s) 6
      (builtinClone (.ascon128 ⟨64007, 0, zeros 32, zeros 16⟩)
        (.ascon128 ⟨3, 0, zeros 32, zeros 16⟩)) 3 [0x61] 0 none (pendingEnv []) :=
  (iterations_honoured_iff (fun _ s => s) (t := 6) (n := 3) (pendingEnv_hasBuiltinParams [])
    (by decide) (by decide) (fun h => absurd h (by decide))
    (c := .ascon128 ⟨3, 0, zeros 32, zeros 16⟩) (Prod.ext (by decide) rfl)
    [.ascon128 ⟨64007, 0, zeros 32, zeros 16⟩] [0x61] 0 none (pendingEnv [])).mpr
    (fun h => absurd h (by decide)) nullPrimitives

/-- **AES-256 with one iteration.** The count is accepted and reaches the structure, but the key is
not derived with it. -/
theorem aes256_ignores_iterations :
    (sqlite3mcConfigCipherTable (pendingEnv []).codecParams "aes256cbc" "kdf_iter" 1).1 = 1 ∧
      (builtinAllocate 2 ((pendingEnv []).configKdfIter "aes256cbc" 1)).1 =
        some (.aes256 ⟨0, 0, 1, zeros 32⟩) ∧
      ¬ ∀ P, HonoursIterations P (fun _ s => s) 2 (.aes256 ⟨0, 0, 1, zeros 32⟩) 1 [0x61] 0 none
        (pendingEnv []) := by
  refine ⟨by decide, by decide, fun hall => ?_⟩
  have hcount := (generateKeyAES256_reference_iff (fun _ s => s) ⟨0, 0, 1, zeros 32⟩ 2
    (n := 1) (by decide) [0x61] 0 none (pendingEnv [])).mp hall
  exact absurd hcount (by decide)

end Configured

end MultipleCiphers
