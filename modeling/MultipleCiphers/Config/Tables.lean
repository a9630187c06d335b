import MultipleCiphers.Connection

/-!
# The registry of ciphers

Three global arrays hold the registered ciphers: their names, their descriptors and their
parameters. A cipher is known by its number, which counts from `1`. The arrays of names and of
parameters begin with an entry for the parameters common to all ciphers, so that the cipher with
number `i` is at position `i` there, and at position `i - 1` in the array of descriptors. Each array
has room for one entry more than there can be ciphers, and all entries behind the registered ones
are sentinels with an empty name: most loops of the source run to the sentinel and do not look at
the number of ciphers.

A C string is a `String` here, one character for each byte. An array of parameters that a caller
passes is the function that gives the entry at each position: the caller may have forgotten the
sentinel, and what is behind the array is then read as well.

## What a registered cipher is

`layout` puts a list of ciphers into the arrays. `sqlite3mcRegisterCipher_layout` is the purpose of
`sqlite3mcRegisterCipher`: on the arrays of a list of ciphers it adds the new one to the list, or
changes nothing.

## Main definitions

* `CipherTables`, `sqlite3mcInitCipherTables`, `sqlite3mcRegisterCipher`.
* `CipherTables.sqlite3mcCipherIndex` — the number of a cipher.
* `RegisteredCipher`, `layout` — what the arrays stand for.
-/

namespace MultipleCiphers

/-- `CODEC_COUNT_MAX`, which is `CODEC_COUNT_LIMIT`. -/
def codecCountMax : ℕ := 16

/-- `CIPHER_NAME_MAXLEN`. -/
def cipherNameMaxlen : ℕ := 32

/-- `CIPHER_PARAMS_COUNT_MAX`. -/
def cipherParamsCountMax : ℕ := 64

/-- An entry of `globalCodecDescriptorTable`, a `struct CipherDescriptor`. A method is
its address. -/
structure DescriptorEntry where
  name : Option String
  allocateCipher : Option ℕ
  freeCipher : Option ℕ
  cloneCipher : Option ℕ
  getLegacy : Option ℕ
  getPageSize : Option ℕ
  getReserved : Option ℕ
  getSalt : Option ℕ
  generateKey : Option ℕ
  encryptPage : Option ℕ
  decryptPage : Option ℕ
  deriving DecidableEq

/-- `mcSentinelDescriptor`. -/
def mcSentinelDescriptor : DescriptorEntry :=
  ⟨some "", none, none, none, none, none, none, none, none, none, none⟩

/-- The name and all methods are there. -/
def DescriptorEntry.complete (desc : DescriptorEntry) : Bool :=
  desc.name.isSome && desc.allocateCipher.isSome && desc.freeCipher.isSome &&
    desc.cloneCipher.isSome && desc.getLegacy.isSome && desc.getPageSize.isSome &&
    desc.getReserved.isSome && desc.getSalt.isSome && desc.generateKey.isSome &&
    desc.encryptPage.isSome && desc.decryptPage.isSome

/-- An entry of an array of parameters as a caller passes it. -/
structure ParamSpec where
  name : Option String
  value : ℤ
  default : ℤ
  minValue : ℤ
  maxValue : ℤ
  deriving DecidableEq

/-- The entry as it is stored. -/
def ParamSpec.toCipherParams (entry : ParamSpec) : CipherParams :=
  ⟨entry.name.getD "", entry.value, entry.default, entry.minValue, entry.maxValue⟩

/-- `globalSentinelParams`. Its parameter list is the null pointer. -/
def globalSentinelParams : CodecParameter := ⟨"", 0, []⟩

/-- `commonParams`. -/
def commonParams : List CipherParams :=
  [⟨"cipher", 0, 0, 1, codecCountMax⟩, ⟨"hmac_check", 1, 1, 0, 1⟩, ⟨"mc_legacy_wal", 0, 0, 0, 1⟩]

/-- The global arrays and the number of registered ciphers. -/
structure CipherTables where
  globalCipherCount : ℕ
  globalCipherNameTable : List String
  globalCodecDescriptorTable : List DescriptorEntry
  globalCodecParameterTable : List CodecParameter
  deriving DecidableEq

/-- `sqlite3mcInitCipherTables`. -/
def sqlite3mcInitCipherTables : CipherTables where
  globalCipherCount := 0
  globalCipherNameTable := "global" :: List.replicate (codecCountMax + 1) ""
  globalCodecDescriptorTable := List.replicate (codecCountMax + 1) mcSentinelDescriptor
  globalCodecParameterTable :=
    ⟨"global", 0, commonParams⟩ :: List.replicate (codecCountMax + 1) globalSentinelParams

/-- The first parameter called `paramName`, if there is one, replaced by what `f` makes of it. -/
def modifyParameter (paramName : String) (f : CipherParams → CipherParams) :
    List CipherParams → List CipherParams
  | [] => []
  | p :: ps =>
    if sqlite3Stricmp paramName p.name then f p :: ps else p :: modifyParameter paramName f ps

/-- The parameters with the cipher `id` as the value and the default of the parameter `cipher`. -/
def setDefaultCipher (id : ℕ) : List CipherParams → List CipherParams :=
  modifyParameter "cipher" fun p => { p with value := id, default := id }

namespace CipherTables

variable (t : CipherTables)

/-- `mcCheckValidName`. -/
def mcCheckValidName (name : Option String) : ResultCode :=
  match name with
  | none => .error
  | some name =>
    let nl := name.length
    if nl < 1 ∨ nl ≥ cipherNameMaxlen then .error
    else if (t.globalCipherNameTable.takeWhile (· ≠ "")).any (sqlite3Stricmp name) then .error
    else
      match name.toList with
      | [] => .error
      | c :: cs => if c.isAlpha && cs.all fun c => c = '_' || c.isAlphanum then .ok else .error

/-- The check of the parameters from position `np` on, of which at most `fuel` are looked at: the
position of the sentinel or of the first entry that is not looked at, `none` for an error. -/
def mcCheckParams (params : ℕ → ParamSpec) (np : ℕ) : ℕ → Option ℕ
  | 0 => some np
  | fuel + 1 =>
    let entry := params np
    if entry.name = none ∨ entry.name = some "" then some np
    else if t.mcCheckValidName entry.name ≠ .ok then none
    else if entry.minValue ≥ 0 ∧ entry.maxValue ≥ 0 ∧ entry.minValue ≤ entry.maxValue ∧
        entry.value ≥ entry.minValue ∧ entry.value ≤ entry.maxValue ∧
        entry.default ≥ entry.minValue ∧ entry.default ≤ entry.maxValue then
      mcCheckParams params (np + 1) fuel
    else none

/-- The entry of a new cipher in the three arrays, and the new default if it is to be one. -/
def install (desc : DescriptorEntry) (params : List CipherParams) (makeDefault : Bool) :
    CipherTables :=
  let globalCipherCount := t.globalCipherCount + 1
  let cipherName := desc.name.getD ""
  let parameterTable :=
    t.globalCodecParameterTable.set globalCipherCount ⟨cipherName, globalCipherCount, params⟩
  { globalCipherCount
    globalCipherNameTable := t.globalCipherNameTable.set globalCipherCount cipherName
    globalCodecDescriptorTable :=
      t.globalCodecDescriptorTable.set (globalCipherCount - 1) { desc with name := some cipherName }
    globalCodecParameterTable :=
      if makeDefault then
        parameterTable.modify 0 fun c =>
          { c with params := setDefaultCipher globalCipherCount c.params }
      else parameterTable }

/-- `sqlite3mcRegisterCipher`. The first allocation is that of the parameters, the others are those
of their names, and a name without memory is written to the null pointer: `none`. -/
def sqlite3mcRegisterCipher (desc : Option DescriptorEntry) (params : Option (ℕ → ParamSpec))
    (makeDefault : Bool) (malloc : ℕ → Bool) : Option (ResultCode × CipherTables) :=
  match desc, params with
  | some desc, some params =>
    if !desc.complete then some (.error, t)
    else if t.mcCheckValidName desc.name ≠ .ok then some (.error, t)
    else
      match t.mcCheckParams params 0 cipherParamsCountMax with
      | none => some (.error, t)
      | some np =>
        if np ≥ cipherParamsCountMax ∨ (params np).name = none then some (.error, t)
        else if !malloc 0 then some (.nomem, t)
        else if t.globalCipherCount < codecCountMax then
          if (List.range np).all fun n => malloc (n + 1) then
            some (.ok, t.install desc
              ((List.range np).map fun n => (params n).toCipherParams) makeDefault)
          else none
        else some (.nomem, t)
  | _, _ => some (.error, t)

/-- `sqlite3mc_cipher_index`. -/
def sqlite3mcCipherIndex (cipherName : String) : ℤ :=
  match ((t.globalCodecDescriptorTable.take t.globalCipherCount).takeWhile
      fun d => d.name.getD "" ≠ "").findIdx? fun d =>
        sqlite3Stricmp cipherName (d.name.getD "") with
  | some j => (j : ℤ) + 1
  | none => -1

end CipherTables

/-! ### What the arrays stand for -/

/-- A cipher that is registered. -/
structure RegisteredCipher where
  name : String
  descriptor : DescriptorEntry
  params : List CipherParams
  deriving DecidableEq

/-- The entries of the ciphers in an array of parameters, the first of them at position `id`. -/
def parameterEntries (id : ℕ) : List RegisteredCipher → List CodecParameter
  | [] => []
  | c :: cs => ⟨c.name, id, c.params⟩ :: parameterEntries (id + 1) cs

/-- The arrays that hold the ciphers `cs` and the common parameters `common`. -/
def layout (cs : List RegisteredCipher) (common : List CipherParams) : CipherTables where
  globalCipherCount := cs.length
  globalCipherNameTable :=
    "global" :: (cs.map (·.name) ++ List.replicate (codecCountMax + 1 - cs.length) "")
  globalCodecDescriptorTable :=
    cs.map (·.descriptor) ++ List.replicate (codecCountMax + 1 - cs.length) mcSentinelDescriptor
  globalCodecParameterTable :=
    ⟨"global", 0, common⟩ ::
      (parameterEntries 1 cs ++ List.replicate (codecCountMax + 1 - cs.length) globalSentinelParams)

end MultipleCiphers
