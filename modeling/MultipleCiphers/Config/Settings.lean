import MultipleCiphers.Config.Tables

/-!
# Changing settings

Every connection has a copy of the global parameter table, made when it is opened. There are five
ways to read and change the copy: the C functions `sqlite3mc_config` and `sqlite3mc_config_cipher`,
the SQL function `sqlite3mc_config` with one to three arguments, the pragmas, and the parameters of
a URI. The pragmas and the URI go through the C functions. The SQL function has code of its own for
everything.

## Names

A parameter name may begin with `default:`, `min:` and `max:`, in this order. A change under
`default:` is one of the current value too.

## What comes from SQLite

How SQLite takes an integer or a truth value from a text is the parameter `SqliteReaders`, and what
it finds in a URI is a `UriParams`; nothing is assumed about either. An argument of an SQL function
is its type together with what `sqlite3_value_text` and `sqlite3_value_int` make of it.

## Main definitions

* `sqlite3mcConfigCommon`, `sqlite3mcConfigCipherTable` — the C functions on the table of a
  connection.
* `sqlite3mcConfigParams`, `sqlite3mcFileControlPragma`, `sqlite3mcConfigureFromUri`.
-/

namespace MultipleCiphers

/-! ### Names with prefixes -/

/-- A parameter name taken apart. -/
structure ParamName where
  hasDefaultPrefix : Bool
  hasMinPrefix : Bool
  hasMaxPrefix : Bool
  paramName : String
  deriving DecidableEq

/-- Whether `s` begins with `start` up to case, and what follows then. -/
def splitStart (start s : String) : Bool × String :=
  if (s.toList.take start.length).map Char.toLower = start.toList.map Char.toLower then
    (true, String.ofList (s.toList.drop start.length))
  else (false, s)

/-- The three tests for a prefix that every way to change a setting begins with. -/
def parseParamName (s : String) : ParamName :=
  let (hasDefaultPrefix, s) := splitStart "default:" s
  let (hasMinPrefix, s) := splitStart "min:" s
  let (hasMaxPrefix, s) := splitStart "max:" s
  ⟨hasDefaultPrefix, hasMinPrefix, hasMaxPrefix, s⟩

/-- The number of a parameter that its name asks for. -/
def CipherParams.read (param : CipherParams) (n : ParamName) : ℤ :=
  if n.hasDefaultPrefix then param.default
  else if n.hasMinPrefix then param.minValue
  else if n.hasMaxPrefix then param.maxValue
  else param.value

/-- A new value, which may be a new default too. -/
def CipherParams.write (newValue : ℤ) (setDefault : Bool) (param : CipherParams) : CipherParams :=
  { param with value := newValue, default := if setDefault then newValue else param.default }

/-! ### The table of a connection -/

/-- The first parameter of that name. -/
def findParameter (params : List CipherParams) (paramName : String) : Option CipherParams :=
  params.find? fun p => sqlite3Stricmp paramName p.name

/-- The parameters at position `j` of a table. -/
def paramsAt (table : List CodecParameter) (j : ℕ) : List CipherParams :=
  (table[j]?.map CodecParameter.params).getD []

/-- The table with the parameter of that name at position `j` replaced by what `f` makes of it. -/
def modifyAt (table : List CodecParameter) (j : ℕ) (paramName : String)
    (f : CipherParams → CipherParams) : List CodecParameter :=
  table.modify j fun c => { c with params := modifyParameter paramName f c.params }

/-- The position of a cipher in a table, by name. -/
def findTable (table : List CodecParameter) (cipherName : String) : Option ℕ :=
  table.findIdx? fun c => sqlite3Stricmp cipherName c.name

/-- The entries in front of the sentinel. -/
def untilSentinel (table : List CodecParameter) : List CodecParameter :=
  table.takeWhile (·.name ≠ "")

/-- `sqlite3mcCloneCodecParameterTable`, the sentinel left out. -/
def CipherTables.sqlite3mcCloneCodecParameterTable (t : CipherTables) : List CodecParameter :=
  untilSentinel t.globalCodecParameterTable

/-! ### The C functions -/

/-- `sqlite3mc_config` on the table of a connection. -/
def sqlite3mcConfigCommon (cipherCount : ℕ) (table : List CodecParameter) (paramName : String)
    (newValue : ℤ) : ℤ × List CodecParameter :=
  let n := parseParamName paramName
  match findParameter (paramsAt table 0) n.paramName with
  | none => (-1, table)
  | some param =>
    if !n.hasMinPrefix ∧ !n.hasMaxPrefix ∧ newValue ≥ 0 ∧ newValue ≥ param.minValue ∧
        newValue ≤ param.maxValue then
      let allowChange :=
        if sqlite3Stricmp n.paramName "cipher" then decide (newValue > 0 ∧ newValue ≤ cipherCount)
        else true
      if allowChange then
        let setDefault := n.hasDefaultPrefix && !sqlite3Stricmp n.paramName "hmac_check"
        (newValue, modifyAt table 0 n.paramName (CipherParams.write newValue setDefault))
      else (param.read n, table)
    else (param.read n, table)

/-- `checkParameterValue`. -/
def checkParameterValue (paramName : String) (value : ℤ) (cipherName : String) : Bool :=
  let ok :=
    if sqlite3Stricmp paramName "legacy_page_size" ∧ value > 0 then
      decide (value ≥ 512 ∧ value ≤ 65536 ∧ (value - 1).toNat &&& value.toNat = 0)
    else true
  if ok ∧ sqlite3Stricmp paramName "plaintext_header_size" ∧ value > 0 then
    if sqlite3Stricmp cipherName "sqlcipher" then decide (value % 16 = 0) else ok
  else ok

/-- The end of `sqlite3mc_config_cipher`: the parameter at position `j` is read, and changed if the
new value is allowed. -/
def configCipherParam (table : List CodecParameter) (j : ℕ) (n : ParamName) (cipherName : String)
    (newValue : ℤ) : ℤ × List CodecParameter :=
  match findParameter (paramsAt table j) n.paramName with
  | none => (-1, table)
  | some param =>
    if !n.hasMinPrefix ∧ !n.hasMaxPrefix ∧ newValue ≥ 0 ∧ newValue ≥ param.minValue ∧
        newValue ≤ param.maxValue ∧ checkParameterValue n.paramName newValue cipherName then
      (newValue, modifyAt table j n.paramName (CipherParams.write newValue n.hasDefaultPrefix))
    else (param.read n, table)

/-- `SQLCIPHER_VERSION_MAX`. -/
def sqlcipherVersionMax : ℤ := 4

/-- The names that `sqlite3mcConfigureSQLCipherVersion` sets. -/
def sqlcipherVersionNames : List String :=
  ["legacy_page_size", "kdf_iter", "hmac_use", "kdf_algorithm", "hmac_algorithm"]

/-- The values of one version of SQLCipher. -/
def sqlcipherVersionParams (legacyVersion : ℤ) : List ℤ :=
  if legacyVersion = 1 then [1024, 4000, 0, 0, 0]
  else if legacyVersion = 2 then [1024, 4000, 1, 0, 0]
  else if legacyVersion = 3 then [1024, 64000, 1, 0, 0]
  else [4096, 256000, 1, 2, 2]

/-- `sqlite3mcConfigureSQLCipherVersion`. None of the names is `legacy`, so that the calls of
`sqlite3mc_config_cipher` do not lead back here. -/
def sqlite3mcConfigureSQLCipherVersion (table : List CodecParameter) (configDefault : Bool)
    (legacyVersion : ℤ) : List CodecParameter :=
  if legacyVersion > 0 ∧ legacyVersion ≤ sqlcipherVersionMax then
    (sqlcipherVersionNames.zip (sqlcipherVersionParams legacyVersion)).foldl
      (fun table p =>
        match findTable table "sqlcipher" with
        | none => table
        | some j => (configCipherParam table j
            (parseParamName (if configDefault then "default:" ++ p.1 else p.1)) "sqlcipher" p.2).2)
      table
  else table

/-- `sqlite3mc_config_cipher` on the table of a connection. -/
def sqlite3mcConfigCipherTable (table : List CodecParameter) (cipherName paramName : String)
    (newValue : ℤ) : ℤ × List CodecParameter :=
  match findTable table cipherName with
  | none => (-1, table)
  | some j =>
    let n := parseParamName paramName
    let table :=
      if sqlite3Stricmp cipherName "sqlcipher" ∧ sqlite3Stricmp n.paramName "legacy" ∧
          !n.hasMinPrefix ∧ !n.hasMaxPrefix ∧ newValue > 0 ∧ newValue ≤ sqlcipherVersionMax then
        sqlite3mcConfigureSQLCipherVersion table n.hasDefaultPrefix newValue
      else table
    configCipherParam table j n cipherName newValue

/-! ### The SQL function -/

/-- The types of SQL values. -/
inductive SqlType where
  | integer
  | float
  | text
  | blob
  | null
  deriving DecidableEq, Repr

/-- An argument of an SQL function: its type, `sqlite3_value_text` and `sqlite3_value_int` of it. -/
structure SqlArg where
  type : SqlType
  text : String
  int : ℤ
  deriving DecidableEq

/-- What the SQL function returns. -/
inductive SqlReply where
  | null
  | int (value : ℤ)
  | text (s : String)
  | nomem
  deriving DecidableEq

/-- The name in the descriptor of the cipher with number `id`; `none` if that is outside of the
array. -/
def CipherTables.descriptorName (t : CipherTables) (id : ℤ) : Option String :=
  if id > 0 then t.globalCodecDescriptorTable[(id - 1).toNat]?.map (·.name.getD "") else none

/-- `sqlite3mcConfigParams` with one argument. `granted` is the allocation for the list of names. -/
def configParamsRead (tables : CipherTables) (table : List CodecParameter) (n : ParamName)
    (granted : Bool) : Option SqlReply :=
  match findParameter (paramsAt table 0) n.paramName with
  | some param1 =>
    if sqlite3Stricmp n.paramName "cipher" then
      (tables.descriptorName (param1.read n)).map SqlReply.text
    else some (.int (param1.read n))
  | none =>
    if n.hasDefaultPrefix || n.hasMinPrefix || n.hasMaxPrefix then some .null
    else
      match findTable table n.paramName with
      | none => some .null
      | some j =>
        match (paramsAt table j).map (·.name) with
        | [] => some .null
        | names => some (if granted then .text (",".intercalate names) else .nomem)

/-- `sqlite3mcConfigParams` with a common parameter and a new value. -/
def configParamsCommon (tables : CipherTables) (table : List CodecParameter) (n : ParamName)
    (param1 : CipherParams) (arg1 : SqlArg) : SqlReply × List CodecParameter :=
  if sqlite3Stricmp n.paramName "cipher" then
    if arg1.type = .text then
      let names := (tables.globalCodecDescriptorTable.map (·.name.getD "")).takeWhile (· ≠ "")
      match names.findIdx? (sqlite3Stricmp arg1.text) with
      | some j => (.text (names.getD j ""),
          modifyAt table 0 n.paramName (CipherParams.write (j + 1) n.hasDefaultPrefix))
      | none => (.null, table)
    else (.null, table)
  else if arg1.type = .integer then
    if arg1.int ≥ param1.minValue ∧ arg1.int ≤ param1.maxValue then
      let setDefault := n.hasDefaultPrefix && !sqlite3Stricmp n.paramName "hmac_check"
      (.int arg1.int, modifyAt table 0 n.paramName (CipherParams.write arg1.int setDefault))
    else (.null, table)
  else (.null, table)

/-- `sqlite3mcConfigParams` with the cipher at position `j` and the name of a parameter, and perhaps
a new value for it. -/
def configParamsCipher (table : List CodecParameter) (j : ℕ) (cipherName : String) (arg1 : SqlArg)
    (arg2 : Option SqlArg) : SqlReply × List CodecParameter :=
  if arg1.type = .text then
    let n := parseParamName arg1.text
    let isSet := !n.hasMinPrefix && !n.hasMaxPrefix && arg2.any (·.type = .integer)
    let value := (arg2.map (·.int)).getD 0
    let table :=
      if sqlite3Stricmp cipherName "sqlcipher" ∧ sqlite3Stricmp n.paramName "legacy" ∧ isSet ∧
          value > 0 ∧ value ≤ sqlcipherVersionMax then
        sqlite3mcConfigureSQLCipherVersion table n.hasDefaultPrefix value
      else table
    match findParameter (paramsAt table j) n.paramName with
    | none => (.null, table)
    | some param2 =>
      if arg2 = none then (.int (param2.read n), table)
      else if isSet then
        if value ≥ param2.minValue ∧ value ≤ param2.maxValue then
          (.int value, modifyAt table j n.paramName (CipherParams.write value n.hasDefaultPrefix))
        else (.null, table)
      else (.null, table)
  else (.null, table)

/-- `sqlite3mcConfigParams`, the SQL function `sqlite3mc_config`. It is registered for one, two and
three arguments; `none` is another number of them or an access outside of an array. -/
def sqlite3mcConfigParams (tables : CipherTables) (table : List CodecParameter)
    (args : List SqlArg) (granted : Bool) : Option (SqlReply × List CodecParameter) :=
  match args with
  | [] => none
  | [arg0] =>
    if arg0.type = .null then some (.null, table)
    else (configParamsRead tables table (parseParamName arg0.text) granted).map fun r => (r, table)
  | arg0 :: arg1 :: rest =>
    if rest.length > 1 then none
    else if arg0.type = .null ∨ arg1.type = .null then some (.null, table)
    else
      let n := parseParamName arg0.text
      match findParameter (paramsAt table 0) n.paramName with
      | some param1 =>
        if rest = [] then some (configParamsCommon tables table n param1 arg1)
        else some (.null, table)
      | none =>
        if n.hasDefaultPrefix || n.hasMinPrefix || n.hasMaxPrefix then some (.null, table)
        else
          match findTable table n.paramName with
          | none => some (.null, table)
          | some j => some (configParamsCipher table j n.paramName arg1 rest.head?)

/-! ### The algorithms of AEGIS -/

/-- `mcAegisAlgorithmNames`, from `AEGIS_ALGORITHM_MIN` on. -/
def mcAegisAlgorithmNames : List String :=
  ["aegis-128l", "aegis-128x2", "aegis-128x4", "aegis-256", "aegis-256x2", "aegis-256x4"]

/-- `sqlite3mcAegisAlgorithmToIndex`. -/
def sqlite3mcAegisAlgorithmToIndex (algorithmName : String) : ℤ :=
  match mcAegisAlgorithmNames.findIdx? (sqlite3Stricmp algorithmName) with
  | some j => (j : ℤ) + 1
  | none => -1

/-- `sqlite3mcAegisAlgorithmToString`. -/
def sqlite3mcAegisAlgorithmToString (algorithmIndex : ℤ) : String :=
  if algorithmIndex ≥ 1 ∧ algorithmIndex ≤ 6 then
    mcAegisAlgorithmNames.getD (algorithmIndex - 1).toNat ""
  else "unknown"

/-! ### The pragmas -/

/-- `sqlite3GetInt32` and `sqlite3GetBoolean`. -/
structure SqliteReaders where
  getInt32 : String → Option ℤ
  getBoolean : String → Bool → Bool

/-- What a pragma leaves behind: the result code, its text, and the value it asked for in the call
of `sqlite3mc_config` or `sqlite3mc_config_cipher` with what that call returned. -/
structure PragmaReply where
  rc : ResultCode
  text : Option String
  call : Option (ℤ × ℤ)
  deriving DecidableEq

/-- The entries of the global parameter table that the source searches from position `1` on. -/
def CipherTables.cipherEntries (t : CipherTables) : List CodecParameter :=
  untilSentinel (t.globalCodecParameterTable.drop 1)

/-- The pragmas that are no settings. -/
def otherPragmas : List String :=
  ["cipher_salt", "key", "hexkey", "rekey", "hexrekey", "memory_security"]

/-- The branch of `sqlite3mcFileControlPragma` for the parameters of the current cipher. `granted`
is the allocation of the name with its prefix. -/
def configPragmaCipherParam (R : SqliteReaders) (tables : CipherTables)
    (table : List CodecParameter) (pragmaName : String) (pragmaValue : Option String)
    (configDefault granted : Bool) : PragmaReply × List CodecParameter :=
  let cipher := (sqlite3mcConfigCommon tables.globalCipherCount table "cipher" (-1)).1
  match tables.cipherEntries.find? fun c => cipher = c.id with
  | none => (⟨.other 12, none, none⟩, table)
  | some entry =>
    let isAegisAlgorithm :=
      sqlite3Stricmp entry.name "aegis" && sqlite3Stricmp pragmaName "algorithm"
    let intValue : Option ℤ :=
      match pragmaValue with
      | none => some (-1)
      | some z =>
        match R.getInt32 z with
        | some i => some i
        | none => if isAegisAlgorithm then some (sqlite3mcAegisAlgorithmToIndex z) else none
    match findParameter entry.params pragmaName with
    | none => (⟨.other 12, none, none⟩, table)
    | some _ =>
      match intValue with
      | none =>
        (⟨.error, some ("Malformed integer value '" ++ pragmaValue.getD "" ++ "'."), none⟩, table)
      | some intValue =>
        let r :=
          if configDefault && !granted then (-1, table)
          else sqlite3mcConfigCipherTable table entry.name
            (if configDefault then "default:" ++ pragmaName else pragmaName) intValue
        (⟨.ok, some (if isAegisAlgorithm then sqlite3mcAegisAlgorithmToString r.1
          else toString r.1),
          some (intValue, r.1)⟩, r.2)

/-- The number the pragma `cipher` takes for the name of a cipher. -/
def CipherTables.pragmaCipherId (t : CipherTables) (z : String) : ℤ :=
  match t.cipherEntries.find? fun c => sqlite3Stricmp z c.name with
  | some c => c.id
  | none => 0

/-- The branch of `sqlite3mcFileControlPragma` for the pragma `cipher`. -/
def configPragmaCipher (tables : CipherTables) (table : List CodecParameter)
    (pragmaValue : Option String) (configDefault : Bool) :
    Option (PragmaReply × List CodecParameter) :=
  let cipherId := (pragmaValue.map tables.pragmaCipherId).getD (-1)
  if cipherId = -1 ∨ (cipherId > 0 ∧ cipherId ≤ codecCountMax) then
    let r := sqlite3mcConfigCommon tables.globalCipherCount table
      (if configDefault then "default:cipher" else "cipher") cipherId
    if r.1 > 0 then
      (tables.descriptorName r.1).map fun name => (⟨.ok, some name, some (cipherId, r.1)⟩, r.2)
    else some (⟨.error, some ("Cipher '" ++ pragmaValue.getD "" ++ "' could not be located."),
      some (cipherId, r.1)⟩, r.2)
  else some (⟨.error, some ("Cipher '" ++ pragmaValue.getD "" ++ "' unknown."), none⟩, table)

/-- The branches for `hmac_check` and `mc_legacy_wal`. -/
def configPragmaFlag (R : SqliteReaders) (tables : CipherTables) (table : List CodecParameter)
    (paramName : String) (dflt : Bool) (pragmaValue : Option String) :
    PragmaReply × List CodecParameter :=
  let flag : ℤ :=
    match pragmaValue with
    | none => -1
    | some z => if R.getBoolean z dflt then 1 else 0
  let r := sqlite3mcConfigCommon tables.globalCipherCount table paramName flag
  (⟨.ok, some (toString r.1), some (flag, r.1)⟩, r.2)

/-- `sqlite3mcFileControlPragma` where the VFS does not know the pragma; `none` for the pragmas that
are no settings. `configDefault` says that the schema is the main one. -/
def sqlite3mcFileControlPragma (R : SqliteReaders) (tables : CipherTables)
    (table : List CodecParameter) (pragmaName : String) (pragmaValue : Option String)
    (configDefault granted : Bool) : Option (PragmaReply × List CodecParameter) :=
  if sqlite3Stricmp pragmaName "cipher" then
    configPragmaCipher tables table pragmaValue configDefault
  else if sqlite3Stricmp pragmaName "hmac_check" then
    some (configPragmaFlag R tables table "hmac_check" true pragmaValue)
  else if sqlite3Stricmp pragmaName "mc_legacy_wal" then
    some (configPragmaFlag R tables table "mc_legacy_wal" false pragmaValue)
  else if otherPragmas.any (sqlite3Stricmp pragmaName) then none
  else some (configPragmaCipherParam R tables table pragmaName pragmaValue configDefault granted)

/-! ### The URI -/

/-- `sqlite3_uri_parameter`, `sqlite3_uri_boolean` and `sqlite3_uri_int64`, the last as `int`. -/
structure UriParams where
  parameter : String → Option String
  boolean : String → Bool → Bool
  int64 : String → ℤ → ℤ

/-- `sqlite3mcFindCipherName`. -/
def CipherTables.sqlite3mcFindCipherName (t : CipherTables) (cipherIndex : ℤ) : Option String :=
  if cipherIndex > 0 ∧ cipherIndex ≤ t.globalCipherCount then
    (t.descriptorName cipherIndex).filter (· ≠ "")
  else none

/-- The cipher a URI asks for, or the current one, which is thereby set once more. -/
def uriCipher (tables : CipherTables) (table : List CodecParameter) (uri : UriParams) :
    Option String × List CodecParameter :=
  let given := (uri.parameter "cipher").filter (· ≠ "")
  match given with
  | some name => (some name, table)
  | none =>
    let current := (sqlite3mcConfigCommon tables.globalCipherCount table "cipher" (-1)).1
    if current > 0 then
      (tables.sqlite3mcFindCipherName current,
        (sqlite3mcConfigCommon tables.globalCipherCount table "cipher" current).2)
    else (none, table)

/-- The value of a URI for one parameter of a cipher. -/
def uriValue (R : SqliteReaders) (uri : UriParams) (cipherName paramName : String) : ℤ :=
  let algorithm := (uri.parameter "algorithm").filter (· ≠ "")
  let index := algorithm.map fun z => (R.getInt32 z).getD (sqlite3mcAegisAlgorithmToIndex z)
  if sqlite3Stricmp cipherName "aegis" ∧ sqlite3Stricmp paramName "algorithm" ∧
      index.getD (-1) > 0 then index.getD (-1)
  else uri.int64 paramName (-1)

/-- The settings of a URI for the cipher with the parameters `params`. -/
def configUriParams (R : SqliteReaders) (uri : UriParams) (cipherName : String)
    (skipLegacy configDefault : Bool) (granted : String → Bool) (params : List CipherParams)
    (table : List CodecParameter) : List CodecParameter :=
  params.foldl
    (fun table p =>
      if skipLegacy && sqlite3Stricmp p.name "legacy" then table
      else
        let value := uriValue R uri cipherName p.name
        if value ≥ 0 then
          if configDefault && !granted p.name then table
          else (sqlite3mcConfigCipherTable table cipherName
            (if configDefault then "default:" ++ p.name else p.name) value).2
        else table)
    table

/-- `sqlite3mcConfigureFromUri`. `uri` is `none` without a file name, and `granted` says which of
the names with their prefix get memory. -/
def sqlite3mcConfigureFromUri (R : SqliteReaders) (tables : CipherTables)
    (table : List CodecParameter) (uri : Option UriParams) (configDefault : Bool)
    (granted : String → Bool) : (ResultCode × Option String) × List CodecParameter :=
  match uri with
  | none => ((.ok, none), table)
  | some uri =>
    match uriCipher tables table uri with
    | (none, table) => ((.ok, none), table)
    | (some cipherName, table) =>
      match tables.cipherEntries.find? fun c => sqlite3Stricmp cipherName c.name with
      | none => ((.error, some ("unknown cipher '" ++ cipherName ++ "'")), table)
      | some entry =>
        let count := tables.globalCipherCount
        let hmacCheck := uri.boolean "hmac_check" true
        let walLegacy : ℤ := if uri.boolean "mc_legacy_wal" false then 1 else 0
        let table := (sqlite3mcConfigCommon count table
          (if configDefault then "default:cipher" else "cipher") entry.id).2
        let table :=
          if !hmacCheck then (sqlite3mcConfigCommon count table "hmac_check" 0).2 else table
        let table := (sqlite3mcConfigCommon count table "mc_legacy_wal" walLegacy).2
        let legacy := uri.int64 "legacy" 0
        let skipLegacy := decide (sqlite3Stricmp cipherName "sqlcipher" = true ∧ legacy > 0 ∧
          legacy ≤ sqlcipherVersionMax)
        let table :=
          if skipLegacy then
            (sqlite3mcConfigCipherTable table cipherName
              (if configDefault then "default:legacy" else "legacy") legacy).2
          else table
        ((.ok, none),
          configUriParams R uri cipherName skipLegacy configDefault granted entry.params table)

end MultipleCiphers
