import MultipleCiphers.Codec
import MultipleCiphers.Lib.Heap

/-!
# Codecs and ciphers as objects

A codec is an object on the heap, and it points to two cipher objects. Here a codec is a `Codec ℕ`:
its ciphers are addresses. Another heap has the cipher objects, and of each the number of the
descriptor that allocated it, which is the one that has to free, clone and use it. What is in a
cipher plays no part.

Every function is partial. `none` is an access to an object that has been freed, a null pointer that
is followed, a cipher that is given to another descriptor than its own, or a descriptor that is not
there. Whether an allocation is granted is an argument.

## Main definitions

* `allocateCipher`, `freeCipher`, `cloneCipher`, `useCipher` — the functions of a descriptor.
* `CodecPtr.sqlite3mcCodecSetup` and the other functions on one codec.
* `CodecState` — the heap of the codecs, and the codec of each main database file.
* `CodecState.sqlite3mcCodecAttach`, `CodecState.sqlite3RekeyV2`, `CodecState.mcIoClose`.
* `CodecState.exec` — the operations in any order.
-/

namespace MultipleCiphers

/-! ### The functions of a descriptor -/

/-- The methods of the descriptor with number `cipherType` are there if it is that of one of the
`cipherCount` registered ciphers. -/
def registeredType (cipherCount cipherType : ℕ) : Bool :=
  1 ≤ cipherType ∧ cipherType ≤ cipherCount

/-- `m_allocateCipher`. -/
def allocateCipher (cipherCount : ℕ) (h : Heap ℕ) (cipherType : ℕ) (granted : Bool) :
    Option (Option ℕ × Heap ℕ) :=
  if registeredType cipherCount cipherType then
    if granted then some (some h.next, h.alloc cipherType) else some (none, h)
  else none

/-- `m_freeCipher`. -/
def freeCipher (cipherCount : ℕ) (h : Heap ℕ) (cipherType a : ℕ) : Option (Heap ℕ) :=
  if registeredType cipherCount cipherType ∧ h.get a = some cipherType then some (h.free a)
    else none

/-- A cipher object is followed by a method of the descriptor with number `cipherType`. -/
def useCipher (cipherCount : ℕ) (h : Heap ℕ) (cipherType : ℕ) (cipher : Option ℕ) : Option Unit :=
  match cipher with
  | some a =>
    if registeredType cipherCount cipherType ∧ h.get a = some cipherType then some () else none
  | none => none

/-- `m_cloneCipher`. -/
def cloneCipher (cipherCount : ℕ) (h : Heap ℕ) (cipherType : ℕ) (target source : Option ℕ) :
    Option Unit := do
  useCipher cipherCount h cipherType target
  useCipher cipherCount h cipherType source

/-! ### The functions on one codec -/

namespace CodecPtr

variable (cipherCount : ℕ)

/-- A cipher is freed, if there is one. -/
def freeSlot (h : Heap ℕ) (cipherType : ℕ) (cipher : Option ℕ) : Option (Heap ℕ) :=
  match cipher with
  | some a => freeCipher cipherCount h cipherType a
  | none => some h

/-- `sqlite3mcCodecTerm`. -/
def sqlite3mcCodecTerm (codec : Codec ℕ) (h : Heap ℕ) : Option (Heap ℕ) := do
  let h ← freeSlot cipherCount h codec.readCipherType codec.readCipher
  freeSlot cipherCount h codec.writeCipherType codec.writeCipher

/-- An empty slot gets a new cipher of type `sourceType`, and the source is cloned into the cipher
of the slot. -/
def cloneIntoSlot (h : Heap ℕ) (target : Option ℕ) (sourceType : ℕ) (source : Option ℕ)
    (granted : Bool) : Option (Option ℕ × Heap ℕ) := do
  let (target, h) ←
    if target = none then allocateCipher cipherCount h sourceType granted else some (target, h)
  match target with
  | some a => (cloneCipher cipherCount h sourceType (some a) source).map fun _ => (some a, h)
  | none => some (none, h)

/-- One branch of `sqlite3mcCopyCipher`: the cipher of type `sourceType` goes into the place of the
one of type `targetType`, which is freed if the types differ. -/
def copySlot (h : Heap ℕ) (targetType : ℕ) (target : Option ℕ) (sourceType : ℕ)
    (source : Option ℕ) (granted : Bool) : Option (Option ℕ × Heap ℕ) :=
  if target.isSome ∧ targetType ≠ sourceType then do
    let h ← freeSlot cipherCount h targetType target
    cloneIntoSlot cipherCount h none sourceType source granted
  else cloneIntoSlot cipherCount h target sourceType source granted

/-- `sqlite3mcCopyCipher`. The type of the target is the one of the source in the end. -/
def sqlite3mcCopyCipher (read2write : Bool) (codec : Codec ℕ) (h : Heap ℕ) (granted : Bool) :
    Option (ResultCode × Codec ℕ × Heap ℕ) :=
  if read2write then do
    let (cipher, h) ← copySlot cipherCount h codec.writeCipherType codec.writeCipher
      codec.readCipherType codec.readCipher granted
    return (if cipher.isSome then .ok else .nomem,
      { codec with writeCipherType := codec.readCipherType, writeCipher := cipher }, h)
  else do
    let (cipher, h) ← copySlot cipherCount h codec.readCipherType codec.readCipher
      codec.writeCipherType codec.writeCipher granted
    return (if cipher.isSome then .ok else .nomem,
      { codec with readCipherType := codec.writeCipherType, readCipher := cipher }, h)

/-- `sqlite3mcCodecSetup`. -/
def sqlite3mcCodecSetup (codec : Codec ℕ) (h : Heap ℕ) (cipherType : ℤ)
    (readGranted writeGranted : Bool) : Option (ResultCode × Codec ℕ × Heap ℕ) :=
  if cipherType ≤ 0 then some (.error, codec, h)
  else do
    let (cipher, h) ← allocateCipher cipherCount h cipherType.toNat readGranted
    let codec := { codec with
      isEncrypted := true
      hasReadCipher := true
      hasWriteCipher := true
      readCipherType := cipherType.toNat
      readCipher := cipher }
    if cipher.isSome then
      useCipher cipherCount h codec.readCipherType codec.readCipher
      sqlite3mcCopyCipher cipherCount true codec h writeGranted
    else some (.nomem, codec, h)

/-- `sqlite3mcSetupWriteCipher`. -/
def sqlite3mcSetupWriteCipher (codec : Codec ℕ) (h : Heap ℕ) (cipherType : ℤ) (granted : Bool) :
    Option (ResultCode × Codec ℕ × Heap ℕ) :=
  if cipherType ≤ 0 then some (.error, codec, h)
  else do
    let h ← freeSlot cipherCount h codec.writeCipherType codec.writeCipher
    let (cipher, h) ← allocateCipher cipherCount h cipherType.toNat granted
    let codec := { codec with
      isEncrypted := true
      hasWriteCipher := true
      writeCipherType := cipherType.toNat
      writeCipher := cipher }
    if cipher.isSome then
      useCipher cipherCount h codec.writeCipherType codec.writeCipher
      return (.ok, codec, h)
    else some (.nomem, codec, h)

/-- One half of `sqlite3mcCodecCopy`. -/
def copyOneSlot (h : Heap ℕ) (hasCipher : Bool) (cipherType : ℕ) (other : Option ℕ)
    (granted : Bool) : Option (ResultCode × Option ℕ × Heap ℕ) :=
  if hasCipher then do
    let (cipher, h) ← allocateCipher cipherCount h cipherType granted
    if cipher.isSome then
      cloneCipher cipherCount h cipherType cipher other
      return (.ok, cipher, h)
    else return (.nomem, none, h)
  else some (.ok, none, h)

/-- `sqlite3mcCodecCopy`. -/
def sqlite3mcCodecCopy (codec other : Codec ℕ) (h : Heap ℕ) (readGranted writeGranted : Bool) :
    Option (ResultCode × Codec ℕ × Heap ℕ) := do
  let (rcRead, readCipher, h) ←
    copyOneSlot cipherCount h other.hasReadCipher other.readCipherType other.readCipher readGranted
  let (rcWrite, writeCipher, h) ←
    copyOneSlot cipherCount h other.hasWriteCipher other.writeCipherType other.writeCipher
      writeGranted
  return (if rcRead = .ok then rcWrite else rcRead,
    { codec with
      isEncrypted := other.isEncrypted
      hasReadCipher := other.hasReadCipher
      hasWriteCipher := other.hasWriteCipher
      readCipherType := other.readCipherType
      writeCipherType := other.writeCipherType
      readCipher := readCipher
      writeCipher := writeCipher }, h)

/-- `sqlite3mcGetPageSizeWriteCipher`, `sqlite3mcGetReservedWriteCipher` and
`sqlite3mcGetLegacyWriteCipher`: the write cipher is asked, if there is one. -/
def askWriteCipher (codec : Codec ℕ) (h : Heap ℕ) : Option Unit :=
  if codec.hasWriteCipher ∧ codec.writeCipher.isSome then
    useCipher cipherCount h codec.writeCipherType codec.writeCipher
  else some ()

/-- `sqlite3mcCodec`: the cipher of the mode is used if the codec says that it has it. -/
def sqlite3mcCodec (codec : Codec ℕ) (h : Heap ℕ) (mode : CodecMode) : Option Unit :=
  if codec.isEncrypted then
    match mode with
    | .load | .journal =>
      if codec.hasReadCipher then useCipher cipherCount h codec.readCipherType codec.readCipher
      else some ()
    | .database =>
      if codec.hasWriteCipher then useCipher cipherCount h codec.writeCipherType codec.writeCipher
      else some ()
  else some ()

end CodecPtr

/-! ### Codecs of files -/

/-- The cipher objects, the codec objects, and the codec of each main database file. A file that is
not in the list of main database files has no entry, one without a codec has the null pointer. -/
structure CodecState where
  ciphers : Heap ℕ
  codecs : Heap (Codec ℕ)
  files : ℕ → Option (Option ℕ)

/-- The arguments of `sqlite3mcCodecAttach` that say where the key comes from. -/
inductive AttachSource where
  /-- A key, the number of the pending cipher, and whether the settings of the URI were accepted. -/
  | key (cipherType : ℤ) (uriAccepted : Bool)
  /-- The codec of the main database, whose file is `main`, for an attached one. -/
  | main (main : ℕ)
  /-- No key. For the main database this removes the codec. -/
  | noKey (isMain : Bool)

/-- The arguments of `sqlite3mcCodecAttach`, with the outcomes of its allocations. -/
structure AttachCall where
  source : AttachSource
  codecGranted : Bool
  readGranted : Bool
  writeGranted : Bool

/-- The arguments of `sqlite3_rekey_v2`, with the outcomes of its allocations, of the comparison of
the page sizes and of the rewriting, and with what the rewriting loads and stores. -/
structure RekeyRun where
  hasKey : Bool
  usesWal : Bool
  cipherType : ℤ
  codecGranted : Bool
  writeGranted : Bool
  copyGranted : Bool
  pageSizeAgrees : Bool
  pages : List CodecMode
  rewritten : ResultCode

namespace CodecState

variable (cipherCount : ℕ)

/-- A function of one codec is called. -/
def onCodec {α : Type} (s : CodecState) (c : ℕ)
    (op : Codec ℕ → Heap ℕ → Option (α × Codec ℕ × Heap ℕ)) : Option (α × CodecState) := do
  let codec ← s.codecs.get c
  let (r, codec, h) ← op codec s.ciphers
  return (r, { s with ciphers := h, codecs := s.codecs.set c codec })

/-- A field of a codec is set. -/
def modifyCodec (s : CodecState) (c : ℕ) (f : Codec ℕ → Codec ℕ) : Option CodecState := do
  let (_, s) ← s.onCodec c fun codec h => some ((), f codec, h)
  return s

/-- A codec is asked for properties of its write cipher. -/
def askWriteCipher (s : CodecState) (c : ℕ) : Option Unit := do
  let codec ← s.codecs.get c
  CodecPtr.askWriteCipher cipherCount codec s.ciphers

/-- `sqlite3mcCodecFree`. -/
def sqlite3mcCodecFree (s : CodecState) (codec : Option ℕ) : Option CodecState :=
  match codec with
  | none => some s
  | some c => do
    let codec ← s.codecs.get c
    let h ← CodecPtr.sqlite3mcCodecTerm cipherCount codec s.ciphers
    return { s with ciphers := h, codecs := s.codecs.free c }

/-- `sqlite3mcGetCodec`. -/
def sqlite3mcGetCodec (s : CodecState) (f : ℕ) : Option ℕ := (s.files f).join

/-- `sqlite3mcSetCodec`. Either the new codec or the one before is looked at for its B-tree. -/
def sqlite3mcSetCodec (s : CodecState) (f : ℕ) (codec : Option ℕ) : Option CodecState :=
  match s.files f with
  | some prevCodec => do
    let s := { s with files := Function.update s.files f (some codec) }
    match codec.or prevCodec with
    | some msgCodec => (s.codecs.get msgCodec).bind fun _ =>
      s.sqlite3mcCodecFree cipherCount prevCodec
    | none => s.sqlite3mcCodecFree cipherCount prevCodec
  | none => s.sqlite3mcCodecFree cipherCount codec

/-- `mcVfsOpen` for a main database file, which has no codec yet. -/
def mcVfsOpen (s : CodecState) (f : ℕ) : CodecState :=
  match s.files f with
  | some _ => s
  | none => { s with files := Function.update s.files f (some none) }

/-- `mcIoClose` for a main database file. -/
def mcIoClose (s : CodecState) (f : ℕ) : Option CodecState :=
  match s.files f with
  | some codec =>
    { s with files := Function.update s.files f none }.sqlite3mcCodecFree cipherCount codec
  | none => some s

/-- A page of a file goes through its codec. -/
def sqlite3mcCodec (s : CodecState) (f : ℕ) (mode : CodecMode) : Option Unit :=
  match s.sqlite3mcGetCodec f with
  | some c => do
    let codec ← s.codecs.get c
    CodecPtr.sqlite3mcCodec cipherCount codec s.ciphers mode
  | none => some ()

/-- The codec is complete: its properties are read and the file gets it. -/
def attachCodec (s : CodecState) (f c : ℕ) : Option CodecState := do
  s.askWriteCipher cipherCount c
  s.sqlite3mcSetCodec cipherCount f (some c)

/-- `sqlite3mcCodecAttach`. -/
def sqlite3mcCodecAttach (s : CodecState) (f : ℕ) (call : AttachCall) :
    Option (ResultCode × CodecState) :=
  if !call.codecGranted then some (.nomem, s)
  else
    let c := s.codecs.next
    let s := { s with codecs := s.codecs.alloc sqlite3mcCodecInit }
    match call.source with
    | .noKey isMain => do
      let s ← s.sqlite3mcCodecFree cipherCount (some c)
      if isMain then
        let s ← s.sqlite3mcSetCodec cipherCount f none
        return (.ok, s)
      else return (.ok, s)
    | .main main =>
      match s.sqlite3mcGetCodec main with
      | none => do
        let s ← s.sqlite3mcCodecFree cipherCount (some c)
        return (.ok, s)
      | some mainCodec => do
        let other ← s.codecs.get mainCodec
        if other.isEncrypted then
          let (rc, s) ← s.onCodec c fun codec h => CodecPtr.sqlite3mcCodecCopy cipherCount codec
            other h call.readGranted call.writeGranted
          if rc = .ok then
            let s ← s.attachCodec cipherCount f c
            return (rc, s)
          else
            let s ← s.sqlite3mcCodecFree cipherCount (some c)
            return (rc, s)
        else
          let s ← s.sqlite3mcCodecFree cipherCount (some c)
          return (.ok, s)
    | .key cipherType uriAccepted =>
      if !uriAccepted then do
        let s ← s.sqlite3mcCodecFree cipherCount (some c)
        return (.error, s)
      else do
        let (rc, s) ← s.onCodec c fun codec h => CodecPtr.sqlite3mcCodecSetup cipherCount codec h
          cipherType call.readGranted call.writeGranted
        if rc = .ok then
          let s ← s.attachCodec cipherCount f c
          return (rc, s)
        else
          let s ← s.sqlite3mcCodecFree cipherCount (some c)
          return (rc, s)

/-- The pages that the rewriting loads and stores. -/
def rewritePages (s : CodecState) (f : ℕ) : List CodecMode → Option Unit
  | [] => some ()
  | mode :: modes => do
    s.sqlite3mcCodec cipherCount f mode
    rewritePages s f modes

/-- The end of a rekey that succeeded: the read cipher becomes a copy of the write cipher. The
result code of the copy is not looked at. -/
def readWithWriteCipher (s : CodecState) (c : ℕ) (copyGranted : Bool) : Option CodecState := do
  let codec ← s.codecs.get c
  if codec.hasWriteCipher then
    let (_, s) ← s.onCodec c fun codec h =>
      CodecPtr.sqlite3mcCopyCipher cipherCount false codec h copyGranted
    let s ← s.modifyCodec c fun codec => { codec with hasReadCipher := true }
    s.askWriteCipher cipherCount c
    return s
  else s.modifyCodec c fun codec => { codec with isEncrypted := false }

/-- The end of a rekey that failed: the write cipher becomes a copy of the read cipher again. The
result code of the copy is not looked at. -/
def writeWithReadCipher (s : CodecState) (c : ℕ) (copyGranted : Bool) : Option CodecState := do
  let codec ← s.codecs.get c
  if codec.hasReadCipher then
    let (_, s) ← s.onCodec c fun codec h =>
      CodecPtr.sqlite3mcCopyCipher cipherCount true codec h copyGranted
    return s
  else s.modifyCodec c fun codec => { codec with isEncrypted := false }

/-- The common end of `sqlite3_rekey_v2`, after the label `leave_rekey`. -/
def leaveRekey (s : CodecState) (f c : ℕ) (rc : ResultCode) (copyGranted : Bool) :
    Option (ResultCode × CodecState) := do
  let s ← (if rc = .ok then s.readWithWriteCipher cipherCount c copyGranted
    else s.writeWithReadCipher cipherCount c copyGranted)
  let codec ← s.codecs.get c
  if codec.isEncrypted then return (rc, s)
  else
    let s ← s.sqlite3mcSetCodec cipherCount f none
    return (rc, s)

/-- The encryption of a plaintext database, when the new codec `c` has its write cipher. -/
def encryptWith (s : CodecState) (f c : ℕ) (run : RekeyRun) : Option (ResultCode × CodecState) := do
  s.askWriteCipher cipherCount c
  if run.pageSizeAgrees then
    let s ← s.modifyCodec c fun codec => { codec with hasReadCipher := false }
    s.askWriteCipher cipherCount c
    let s ← s.sqlite3mcSetCodec cipherCount f (some c)
    -- from here on the codec is the one of the file
    s.askWriteCipher cipherCount c
    s.rewritePages cipherCount f run.pages
    s.leaveRekey cipherCount f c run.rewritten run.copyGranted
  else s.leaveRekey cipherCount f c .error run.copyGranted

/-- The encryption of a plaintext database without a codec. -/
def rekeyEncrypt (s : CodecState) (f : ℕ) (run : RekeyRun) : Option (ResultCode × CodecState) :=
  if !run.codecGranted then some (.nomem, s)
  else do
    let c := s.codecs.next
    let s := { s with codecs := s.codecs.alloc sqlite3mcCodecInit }
    let (rc, s) ← s.onCodec c fun codec h =>
      CodecPtr.sqlite3mcSetupWriteCipher cipherCount codec h run.cipherType run.writeGranted
    if rc = .ok then s.encryptWith cipherCount f c run
    else
      let s ← s.sqlite3mcCodecFree cipherCount (some c)
      return (rc, s)

/-- The decryption of an encrypted database with the codec `c`. -/
def rekeyDecrypt (s : CodecState) (f c : ℕ) (run : RekeyRun) :
    Option (ResultCode × CodecState) := do
  let s ← s.modifyCodec c fun codec => { codec with hasWriteCipher := false }
  s.rewritePages cipherCount f run.pages
  s.leaveRekey cipherCount f c run.rewritten run.copyGranted

/-- The change of the key of an encrypted database with the codec `c`. -/
def rekeyReencrypt (s : CodecState) (f c : ℕ) (run : RekeyRun) :
    Option (ResultCode × CodecState) := do
  let (rc, s) ← s.onCodec c fun codec h =>
    CodecPtr.sqlite3mcSetupWriteCipher cipherCount codec h run.cipherType run.writeGranted
  if rc = .ok then
    s.askWriteCipher cipherCount c
    if run.pageSizeAgrees then
      s.rewritePages cipherCount f run.pages
      s.leaveRekey cipherCount f c run.rewritten run.copyGranted
    else s.leaveRekey cipherCount f c .error run.copyGranted
  else s.leaveRekey cipherCount f c rc run.copyGranted

/-- `sqlite3_rekey_v2`. With a codec that is not encrypted the result code keeps its first value. -/
def sqlite3RekeyV2 (s : CodecState) (f : ℕ) (run : RekeyRun) : Option (ResultCode × CodecState) :=
  match s.sqlite3mcGetCodec f with
  | none =>
    if !run.hasKey then some (.ok, s)
    else if run.usesWal then some (.error, s)
    else s.rekeyEncrypt cipherCount f run
  | some c => do
    let codec ← s.codecs.get c
    if codec.isEncrypted then
      if run.hasKey then s.rekeyReencrypt cipherCount f c run
      else s.rekeyDecrypt cipherCount f c run
    else if !run.hasKey then return (.ok, s)
    else return (.error, s)

end CodecState

/-! ### The operations in any order -/

/-- What is done with the main database files. -/
inductive CodecEvent where
  | openFile (f : ℕ)
  | closeFile (f : ℕ)
  | attach (f : ℕ) (call : AttachCall)
  | rekey (f : ℕ) (run : RekeyRun)
  | page (f : ℕ) (mode : CodecMode)

namespace CodecState

/-- The state after an operation. -/
def exec (cipherCount : ℕ) (s : CodecState) : CodecEvent → Option CodecState
  | .openFile f => some (s.mcVfsOpen f)
  | .closeFile f => s.mcIoClose cipherCount f
  | .attach f call => (s.sqlite3mcCodecAttach cipherCount f call).map (·.2)
  | .rekey f run => (s.sqlite3RekeyV2 cipherCount f run).map (·.2)
  | .page f mode => (s.sqlite3mcCodec cipherCount f mode).map fun _ => s

/-- No file is open. -/
def start : CodecState := ⟨Heap.empty, Heap.empty, fun _ => none⟩

end CodecState

end MultipleCiphers
