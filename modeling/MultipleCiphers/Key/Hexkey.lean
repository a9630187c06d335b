import MultipleCiphers.Key.Model
import MultipleCiphers.Rekey.CodecState
import Mathlib.Data.List.TakeWhile

/-!
# A key in hexadecimal digits

A key can be given as hexadecimal digits in two places, as the parameter `hexkey` of a URI and as
the value of `PRAGMA hexkey`. Each has a decoder of its own. That of the pragma looks at the whole
value first: a value of odd length or with any other character is refused with a message. That of
the URI decodes as it goes and stops at the first character that is no digit; what it has by then
is the key, and a digit without a partner is dropped.

So the two agree on the values the pragma accepts, and on no others: `hexkeyAgrees_iff`. On every
other value the URI gives the database a key nobody wrote, and for a value that begins with a
character that is no digit this is the empty key, which stands for no encryption.

## The empty value

For the empty value both refuse: the URI treats it like a parameter that is not there, and the
pragma calls `sqlite3_key_v2` with a null pointer, which is an error.

## Main definitions

* `uriHexkeyLoop`, `uriHexkey` — the decoder of the URI.
* `fileControlPragmaHexkey` — the branch of `sqlite3mcFileControlPragma` for `hexkey`.
* `HexkeyAgrees` — both set the same key or both refuse.

## Main results

* `sqlite3mcCodecQueryParameters_hexkey` — what `sqlite3mcCodecQueryParameters` sets is what this
  decoder delivers.
* `hexkeyAgrees_iff`.
-/

namespace MultipleCiphers

open Bytes

/-! ### The decoder of the URI -/

/-- The loop over the rest of the value from digit number `i` on: the number of digits, and the
buffer with what has been decoded. -/
def uriHexkeyLoop : Bytes → ℕ → UInt8 → Bytes → ℕ × Bytes
  | [], i, _, zDecoded => (i, zDecoded)
  | c :: zKey, i, iByte, zDecoded =>
    if sqlite3Isxdigit c then
      let iByte := (iByte <<< 4) + sqlite3HexToInt c
      uriHexkeyLoop zKey (i + 1) iByte
        (if i &&& 1 ≠ 0 then zDecoded.set (i / 2) iByte else zDecoded)
    else (i, zDecoded)

/-- The key that `sqlite3mcCodecQueryParameters` takes from the parameter `hexkey`, in a buffer as
long as the parameter; none from an empty one. -/
def uriHexkey (zKey : Bytes) : Option Bytes :=
  if zKey = [] then none
  else
    let r := uriHexkeyLoop zKey 0 0 (zeros zKey.length)
    some (r.2.take (r.1 / 2))

theorem sqlite3Isxdigit_eq (c : UInt8) : sqlite3Isxdigit c = (hexDigit c).isSome := by
  have hle : ∀ a b : UInt8, (a ≤ b) = (a.toNat ≤ b.toNat) := fun _ _ => rfl
  simp only [sqlite3Isxdigit, hle, hexDigit]
  grind

/-- On a digit the two conversions agree. -/
theorem sqlite3HexToInt_eq {c : UInt8} (h : sqlite3Isxdigit c = true) :
    sqlite3HexToInt c = UInt8.ofNat (sqlite3mcConvertHex2Int c) := by
  have hmask : ∀ n : ℕ, n &&& 0xf = n % 16 := fun n => Nat.and_two_pow_sub_one_eq_mod n 4
  have hbit : 1 &&& (c.toNat >>> 6) = c.toNat / 64 % 2 := by
    rw [Nat.and_comm, Nat.and_one_is_mod, Nat.shiftRight_eq_div_pow]
  have hlt := c.toNat_lt
  rw [sqlite3Isxdigit_eq] at h
  simp only [sqlite3HexToInt, hmask, hbit, sqlite3mcConvertHex2Int, hexDigit] at h ⊢
  congr 1
  split_ifs at h ⊢ <;> simp at h ⊢ <;> omega

/-- Two digits make a byte, whatever the byte before was. -/
theorem shifted_byte (b x y : UInt8) :
    (((b <<< 4) + x) <<< 4) + y = UInt8.ofNat (x.toNat * 16 + y.toNat) := by
  apply UInt8.toNat_inj.mp
  have hx := x.toNat_lt
  have hy := y.toNat_lt
  simp [Nat.shiftLeft_eq]
  omega

theorem toNat_sqlite3HexToInt {c : UInt8} (h : sqlite3Isxdigit c = true) :
    (sqlite3HexToInt c).toNat = sqlite3mcConvertHex2Int c := by
  rw [sqlite3HexToInt_eq h]
  have hlt : sqlite3mcConvertHex2Int c < 16 := by
    simp only [sqlite3mcConvertHex2Int, hexDigit]
    split_ifs <;> simp <;> omega
  simp
  omega

/-- What the loop has decoded: the pairs of digits before the first other character. -/
theorem uriHexkeyLoop_eq : ∀ (zKey : Bytes) {m : ℕ} {iByte : UInt8} {zDecoded : Bytes},
    m + zKey.length ≤ zDecoded.length →
      ((uriHexkeyLoop zKey (2 * m) iByte zDecoded).2.take
          ((uriHexkeyLoop zKey (2 * m) iByte zDecoded).1 / 2)) =
        zDecoded.take m ++ sqlite3mcConvertHex2Bin (hexkeyDigits zKey)
  | [], m, _, _, _ => by
    simp [uriHexkeyLoop, hexkeyDigits, sqlite3mcConvertHex2Bin]
  | [c], m, iByte, zDecoded, _ => by
    have heven : 2 * m &&& 1 = 0 := by rw [Nat.and_one_is_mod]; omega
    have hodd : (2 * m + 1) / 2 = m := by omega
    by_cases hc : sqlite3Isxdigit c = true
    · simp [uriHexkeyLoop, hc, heven, hodd, hexkeyDigits, ← sqlite3Isxdigit_eq,
        sqlite3mcConvertHex2Bin]
    · simp [uriHexkeyLoop, hc, hexkeyDigits, ← sqlite3Isxdigit_eq, sqlite3mcConvertHex2Bin]
  | c :: d :: rest, m, iByte, zDecoded, hroom => by
    have heven : 2 * m &&& 1 = 0 := by rw [Nat.and_one_is_mod]; omega
    have hone : (2 * m + 1) &&& 1 = 1 := by rw [Nat.and_one_is_mod]; omega
    have hodd : (2 * m + 1) / 2 = m := by omega
    by_cases hc : sqlite3Isxdigit c = true
    swap
    · simp [uriHexkeyLoop, hc, hexkeyDigits, ← sqlite3Isxdigit_eq, sqlite3mcConvertHex2Bin]
    by_cases hd : sqlite3Isxdigit d = true
    swap
    · simp [uriHexkeyLoop, hc, hd, heven, hodd, hexkeyDigits, ← sqlite3Isxdigit_eq,
        sqlite3mcConvertHex2Bin]
    -- a pair of digits fills the next byte of the buffer
    have hbyte : (((iByte <<< 4) + sqlite3HexToInt c) <<< 4) + sqlite3HexToInt d =
        UInt8.ofNat (sqlite3mcConvertHex2Int c * 16 + sqlite3mcConvertHex2Int d) := by
      rw [shifted_byte, toNat_sqlite3HexToInt hc, toNat_sqlite3HexToInt hd]
    have hm : m < zDecoded.length := by simp at hroom; omega
    have hloop : uriHexkeyLoop (c :: d :: rest) (2 * m) iByte zDecoded =
        uriHexkeyLoop rest (2 * (m + 1)) (UInt8.ofNat (sqlite3mcConvertHex2Int c * 16 +
          sqlite3mcConvertHex2Int d)) (zDecoded.set m (UInt8.ofNat
            (sqlite3mcConvertHex2Int c * 16 + sqlite3mcConvertHex2Int d))) := by
      simp only [uriHexkeyLoop, hc, hd, heven, hone, hodd, hbyte, if_true, ne_eq, not_true_eq_false,
        if_false, one_ne_zero, not_false_eq_true]
      rfl
    have hdigits : hexkeyDigits (c :: d :: rest) = c :: d :: hexkeyDigits rest := by
      rw [sqlite3Isxdigit_eq] at hc hd
      simp [hexkeyDigits, hc, hd]
    rw [hloop, uriHexkeyLoop_eq rest (by simp at hroom ⊢; omega), hdigits,
      sqlite3mcConvertHex2Bin, List.take_add_one, List.take_set_of_le le_rfl]
    simp [hm]

/-- The key of the URI: the bytes of the pairs of digits before the first other character. -/
theorem uriHexkey_eq (zKey : Bytes) :
    uriHexkey zKey =
      if zKey = [] then none else some (sqlite3mcConvertHex2Bin (hexkeyDigits zKey)) := by
  have h := @uriHexkeyLoop_eq zKey 0 0 (zeros zKey.length) (by simp)
  rw [uriHexkey]
  simp only [Nat.mul_zero] at h
  simp only [h, List.take_zero, List.nil_append]

/-! ### The pragma -/

/-- What a pragma that sets a key answers. -/
inductive KeyPragmaReply where
  | text (s : String)
  /-- The message of the connection for the error of `sqlite3_key_v2`. -/
  | connectionError
  deriving DecidableEq

/-- The answer to a call of `sqlite3_key_v2`. -/
def keyPragmaReply (rc : ResultCode) : KeyPragmaReply :=
  if rc = .ok then .text "ok" else .connectionError

section Operations

variable {σ π : Type} (D : ℕ → CipherDescriptor σ) (ops : StorageOps σ π) (t : KeyTarget σ)

/-- `sqlite3mcFileControlPragma` for `PRAGMA hexkey`. For no bytes `sqlite3_malloc` delivers a null
pointer, and without memory for the others the decoder writes through one: `none`. -/
def fileControlPragmaHexkey (pragmaValue : Bytes) (db : Db σ π) :
    Option (ResultCode × KeyPragmaReply × Db σ π) :=
  let nValue := pragmaValue.length
  if nValue &&& 1 = 0 ∧ sqlite3mcIsHexKey pragmaValue = true then
    if nValue / 2 = 0 then
      let r := sqlite3KeyV2 D ops t none 0 db
      some (r.1, keyPragmaReply r.1, r.2)
    else
      let (granted, env) := db.env.sqlite3Malloc
      if granted then
        let r := sqlite3KeyV2 D ops t (some (sqlite3mcConvertHex2Bin pragmaValue))
          (nValue / 2 : ℕ) { db with env := env }
        some (r.1, keyPragmaReply r.1, r.2)
      else none
  else some (.error, .text "Malformed hex string", db)

/-! ### Setting a key and refusing one -/

variable (db : Db σ π) (hexkey : Bytes)

/-- The database after `sqlite3_key_v2` with the key `key`, in a buffer that was allocated. -/
def keyed (key : Bytes) : ResultCode × Db σ π :=
  sqlite3KeyV2 D ops t (some key) key.length { db with env := db.env.sqlite3Malloc.2 }

/-- The parameter sets the key `key`, whatever else the URI has. -/
def UriSets (key : Bytes) : Prop :=
  ∀ other textkey, sqlite3mcCodecQueryParameters D ops t ⟨some hexkey, other, textkey⟩ db =
    some (true, (keyed D ops t db key).2)

/-- The URI is read as if it did not have the parameter. -/
def UriRefuses : Prop :=
  ∀ other textkey, sqlite3mcCodecQueryParameters D ops t ⟨some hexkey, other, textkey⟩ db =
    sqlite3mcCodecQueryParameters D ops t ⟨none, other, textkey⟩ db

/-- The pragma sets the key `key`. -/
def PragmaSets (key : Bytes) : Prop :=
  fileControlPragmaHexkey D ops t hexkey db =
    some ((keyed D ops t db key).1, keyPragmaReply (keyed D ops t db key).1,
      (keyed D ops t db key).2)

/-- The pragma reports an error and leaves the database as it is. -/
def PragmaRefuses : Prop :=
  ∃ reply, fileControlPragmaHexkey D ops t hexkey db = some (.error, reply, db)

/-- The URI and the pragma treat a value alike. One of odd length, or with a character that is no
digit, is refused by both. -/
structure HexkeyAgrees : Prop where
  same : (∃ key, UriSets D ops t db hexkey key ∧ PragmaSets D ops t db hexkey key) ∨
    UriRefuses D ops t db hexkey ∧ PragmaRefuses D ops t db hexkey
  malformed : (hexkey.length % 2 = 1 ∨ ∃ c ∈ hexkey, hexDigit c = none) →
    UriRefuses D ops t db hexkey ∧ PragmaRefuses D ops t db hexkey

variable {D ops t db hexkey}

/-- What the URI sets is what its decoder delivers. -/
theorem sqlite3mcCodecQueryParameters_hexkey (hmalloc : db.env.sqlite3Malloc.1 = true)
    {key : Bytes} (hkey : uriHexkey hexkey = some key) : UriSets D ops t db hexkey key := by
  intro other textkey
  have hne : hexkey ≠ [] := by
    rintro rfl
    cases hkey
  rw [uriHexkey_eq, if_neg hne] at hkey
  obtain rfl := Option.some.inj hkey
  have hfilter : (some hexkey).filter (· ≠ []) = some hexkey := by simp [hne]
  simp only [sqlite3mcCodecQueryParameters, hfilter, hmalloc, if_true, keyed]

/-- An empty parameter is none. -/
theorem uriRefuses_nil : UriRefuses D ops t db [] := by
  intro other textkey
  rfl

/-- A parameter that is not empty is never refused. -/
theorem not_uriRefuses (hmalloc : db.env.sqlite3Malloc.1 = true) (hne : hexkey ≠ []) :
    ¬ UriRefuses D ops t db hexkey := by
  intro h
  have hsets : UriSets D ops t db hexkey _ :=
    sqlite3mcCodecQueryParameters_hexkey hmalloc ((uriHexkey_eq hexkey).trans (if_neg hne))
  have hnone := (hsets none none).symm.trans (h none none)
  cases hnone

/-- The values the pragma accepts. -/
def WellFormedHexkey (hexkey : Bytes) : Prop :=
  hexkey.length % 2 = 0 ∧ sqlite3mcIsHexKey hexkey = true

theorem wellFormedHexkey_iff :
    WellFormedHexkey hexkey ↔ ¬ (hexkey.length % 2 = 1 ∨ ∃ c ∈ hexkey, hexDigit c = none) := by
  have hdigit : sqlite3mcIsHexKey hexkey = true ↔ ¬ ∃ c ∈ hexkey, hexDigit c = none := by
    simp [sqlite3mcIsHexKey, Option.isSome_iff_ne_none]
  rw [WellFormedHexkey, hdigit, not_or]
  exact and_congr_left fun _ => by omega

/-- The pragma decodes what is well formed. -/
theorem pragmaSets (hmalloc : db.env.sqlite3Malloc.1 = true) (hne : hexkey ≠ [])
    (h : WellFormedHexkey hexkey) :
    PragmaSets D ops t db hexkey (sqlite3mcConvertHex2Bin hexkey) := by
  obtain ⟨n, hn⟩ : ∃ n, hexkey.length = 2 * n := ⟨hexkey.length / 2, by have := h.1; omega⟩
  have hpos : 0 < hexkey.length := List.length_pos_iff.mpr hne
  have hlen := length_sqlite3mcConvertHex2Bin hn
  have hhalf : hexkey.length / 2 = n := by omega
  have hn0 : n ≠ 0 := by omega
  simp only [PragmaSets, fileControlPragmaHexkey, Nat.and_one_is_mod, h.1, h.2, and_self, if_true,
    hhalf, hn0, if_false, hmalloc, keyed, hlen]

/-- The pragma refuses everything else with a message of its own. -/
theorem fileControlPragmaHexkey_malformed (h : ¬ WellFormedHexkey hexkey) :
    fileControlPragmaHexkey D ops t hexkey db =
      some (.error, .text "Malformed hex string", db) := by
  rw [WellFormedHexkey] at h
  rw [fileControlPragmaHexkey, Nat.and_one_is_mod, if_neg h]

/-- The empty value is refused by `sqlite3_key_v2`. -/
theorem pragmaRefuses_nil : PragmaRefuses D ops t db [] := by
  refine ⟨.connectionError, ?_⟩
  have hkey : sqlite3KeyV2 D ops t none 0 db = (.error, db) := by
    rw [sqlite3KeyV2]
    split <;> rfl
  simp [fileControlPragmaHexkey, sqlite3mcIsHexKey, hkey, keyPragmaReply]

/-- They do not agree on anything that is malformed. -/
theorem not_hexkeyAgrees (hmalloc : db.env.sqlite3Malloc.1 = true)
    (h : ¬ WellFormedHexkey hexkey) : ¬ HexkeyAgrees D ops t db hexkey := by
  rintro ⟨hsame, -⟩
  have hmalformed : fileControlPragmaHexkey D ops t hexkey db = _ :=
    fileControlPragmaHexkey_malformed h
  have hne : hexkey ≠ [] := by
    rintro rfl
    exact h ⟨rfl, rfl⟩
  rcases hsame with ⟨key, -, hsets⟩ | ⟨hrefuses, -⟩
  · -- the message of the pragma is none of `sqlite3_key_v2`
    rw [PragmaSets, hmalformed] at hsets
    have hreply := congrArg (fun r => r.map fun r => r.2.1) hsets
    simp only [Option.map_some, Option.some.injEq, keyPragmaReply] at hreply
    split at hreply <;> simp at hreply
  · exact not_uriRefuses hmalloc hne hrefuses

/-- **The two ways to give a key in hexadecimal digits agree on exactly the values that the pragma
accepts**: those of even length that consist of digits. -/
theorem hexkeyAgrees_iff (D : ℕ → CipherDescriptor σ) (ops : StorageOps σ π) (t : KeyTarget σ)
    (db : Db σ π) (hmalloc : db.env.sqlite3Malloc.1 = true) (hexkey : Bytes) :
    HexkeyAgrees D ops t db hexkey ↔
      hexkey.length % 2 = 0 ∧ sqlite3mcIsHexKey hexkey = true := by
  constructor
  · exact fun hagrees => by_contra fun h => not_hexkeyAgrees hmalloc h hagrees
  · intro h
    refine ⟨?_, fun hmalformed => absurd hmalformed (wellFormedHexkey_iff.mp h)⟩
    by_cases hne : hexkey = []
    · subst hne
      exact .inr ⟨uriRefuses_nil, pragmaRefuses_nil⟩
    · have hall : hexkeyDigits hexkey = hexkey :=
        List.takeWhile_eq_self_iff.mpr fun c hc => List.all_eq_true.mp h.2 c hc
      have hkey : uriHexkey hexkey = some (sqlite3mcConvertHex2Bin hexkey) := by
        rw [uriHexkey_eq, if_neg hne, hall]
      exact .inl ⟨_, sqlite3mcCodecQueryParameters_hexkey hmalloc hkey, pragmaSets hmalloc hne h⟩

end Operations

/-! ### A key that is cut short -/

/-- An unencrypted main database whose file is open. -/
def mainTarget : KeyTarget Cipher where
  isMain := true
  isEncryptionSupported := true
  hasFileName := true
  dbFound := true
  fileRegistered := true
  mainCodec := none
  cipherSalt := none
  isConfigured := true
  configureFromUri := fun _ env => (.ok, env)

/-- A database without a codec. -/
def unkeyedDb : Db Cipher Unit := ⟨none, (), rc4Env⟩

/-- On the value `abcd` they agree. -/
theorem hexkeyAgrees_abcd :
    HexkeyAgrees (builtinDescriptors nullPrimitives) lockedStorage mainTarget unkeyedDb
      [0x61, 0x62, 0x63, 0x64] :=
  (hexkeyAgrees_iff _ _ _ _ rfl _).mpr (by decide)

/-- **A key that is cut short.** The value `abcg` is malformed for the pragma; the URI makes the
key of one byte of its first two digits. -/
theorem hexkey_cut_short :
    ¬ HexkeyAgrees (builtinDescriptors nullPrimitives) lockedStorage mainTarget unkeyedDb
        [0x61, 0x62, 0x63, 0x67] ∧
      uriHexkey [0x61, 0x62, 0x63, 0x67] = some [0xab] := by
  refine ⟨not_hexkeyAgrees rfl ?_, by decide⟩
  rw [WellFormedHexkey]
  decide

end MultipleCiphers
