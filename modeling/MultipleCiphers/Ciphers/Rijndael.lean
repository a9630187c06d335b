import MultipleCiphers.Lib.Memory
import MultipleCiphers.Ciphers.Common

/-!
# The block modes of Rijndael, on memory

`RijndaelBlockEncrypt` and `RijndaelBlockDecrypt` get two pointers, and every caller passes the
same pointer twice: a page is encrypted where it lies. `rijndaelEncrypt` and `rijndaelDecrypt` of
the page formats are functions of the bytes; here the two routines are modelled as they are
written, with their loops over the memory, so that the order of reads and writes is visible.

In CBC mode the work is handed to `aesEncryptCBC` and `aesDecryptCBC` where the processor has AES
instructions. These keep the chaining block in a register, and pad the last, short block with
zeros; the software loops read the chaining block back from the output buffer, and change the
first bytes of a block in place.

## The single block

One block is encrypted by a parameter: `RijndaelEncrypt` of the software, or the instructions of
an `AesHardware`. How these instructions make up one encrypted block, and how they use the key
schedule, is modelled for both kinds of processor.

The C routines take it for granted that there is at least one complete block. With less they work
outside their buffers; nothing is said here about that.

## Main definitions

* `rijndaelInit` — `RijndaelInit`.
* `rijndaelBlockEncrypt`, `rijndaelBlockDecrypt` — with all three modes.
* `aesEncryptCBC`, `aesDecryptCBC` — the same text for both kinds of processor, up to the block.
-/

namespace MultipleCiphers

open Bytes

/-! ### The context -/

/-- `RIJNDAEL_Direction_Mode_*`. -/
inductive RijndaelMode where
  | ecb
  | cbc
  | cfb1
  deriving DecidableEq, Repr

/-- `RIJNDAEL_Direction_Encrypt` and `RIJNDAEL_Direction_Decrypt`. -/
inductive RijndaelDirection where
  | encrypt
  | decrypt
  deriving DecidableEq, Repr

/-- `RIJNDAEL_State_Valid` and `RIJNDAEL_State_Invalid`. -/
inductive RijndaelState where
  | valid
  | invalid
  deriving DecidableEq, Repr

/-- `struct _Rijndael`. -/
structure Rijndael where
  state : RijndaelState
  mode : RijndaelMode
  direction : RijndaelDirection
  initVector : Bytes
  rounds : ℕ
  expandedKey : Bytes

/-- The vector instructions of a processor. An instruction gets a block and a round key. -/
inductive AesHardware where
  /-- `_mm_aesenc_si128`, `_mm_aesenclast_si128`, `_mm_aesdec_si128`, `_mm_aesdeclast_si128`. -/
  | ni (aesenc aesenclast aesdec aesdeclast : Bytes → Bytes → Bytes)
  /-- `vaeseq_u8`, `vaesmcq_u8`, `vaesdq_u8`, `vaesimcq_u8`. -/
  | neon (aese : Bytes → Bytes → Bytes) (aesmc : Bytes → Bytes) (aesd : Bytes → Bytes → Bytes)
    (aesimc : Bytes → Bytes)

namespace AesHardware

/-- `key[j]`: the round keys, 16 bytes each. -/
def roundKey (keyData : Bytes) (j : ℕ) : Bytes := slice keyData (16 * j) 16

/-- What `aesEncryptCBC` does with one block between the exclusive or and the store. -/
def encryptBlock (keyData : Bytes) (numberOfRounds : ℕ) : AesHardware → Bytes → Bytes
  | .ni aesenc aesenclast _ _, feedback =>
    let feedback := xorBytes feedback (roundKey keyData 0)
    let feedback := (List.range (numberOfRounds - 1)).foldl
      (fun x j => aesenc x (roundKey keyData (j + 1))) feedback
    aesenclast feedback (roundKey keyData numberOfRounds)
  | .neon aese aesmc _ _, feedback =>
    let feedback := (List.range (numberOfRounds - 1)).foldl
      (fun x j => aesmc (aese x (roundKey keyData j))) feedback
    let feedback := aese feedback (roundKey keyData (numberOfRounds - 1))
    xorBytes feedback (roundKey keyData numberOfRounds)

/-- What `aesDecryptCBC` does with one block between the load and the exclusive or. -/
def decryptBlock (keyData : Bytes) (numberOfRounds : ℕ) : AesHardware → Bytes → Bytes
  | .ni _ _ aesdec aesdeclast, data =>
    let data := xorBytes data (roundKey keyData numberOfRounds)
    let data := (List.range (numberOfRounds - 1)).foldl
      (fun x j => aesdec x (roundKey keyData (numberOfRounds - (j + 1)))) data
    aesdeclast data (roundKey keyData 0)
  | .neon _ _ aesd aesimc, data =>
    let data := (List.range (numberOfRounds - 1)).foldl
      (fun x j => aesimc (aesd x (roundKey keyData (numberOfRounds - j)))) data
    let data := aesd data (roundKey keyData 1)
    xorBytes data (roundKey keyData 0)

end AesHardware

/-- What the block modes are built on. -/
structure AesPlatform where
  /-- `RijndaelEncrypt` and `RijndaelDecrypt`, on one block. -/
  rijndaelEncryptBlock : Rijndael → Bytes → Bytes
  rijndaelDecryptBlock : Rijndael → Bytes → Bytes
  /-- The key schedule: `RijndaelKeySched` with `RijndaelKeyEncToDec`, or `aesGenKeyEncrypt` and
  `aesGenKeyDecrypt`. -/
  expandKey : RijndaelDirection → Bytes → Bytes
  /-- `aesHardwareAvailable`. -/
  hardware : Option AesHardware

/-- `RIJNDAEL_BAD_KEY`, `RIJNDAEL_NOT_INITIALIZED` and `RIJNDAEL_BAD_DIRECTION`. -/
def RIJNDAEL_BAD_KEY : ℤ := -4
def RIJNDAEL_NOT_INITIALIZED : ℤ := -5
def RIJNDAEL_BAD_DIRECTION : ℤ := -6

/-- `RIJNDAEL_Direction_KeyLength_*`. -/
inductive RijndaelKeyLength where
  | key16Bytes
  | key24Bytes
  | key32Bytes
  deriving DecidableEq, Repr

/-- `uKeyLenInBytes`. -/
def RijndaelKeyLength.bytes : RijndaelKeyLength → ℕ
  | .key16Bytes => 16
  | .key24Bytes => 24
  | .key32Bytes => 32

/-- `m_uRounds`. -/
def RijndaelKeyLength.rounds : RijndaelKeyLength → ℕ
  | .key16Bytes => 10
  | .key24Bytes => 12
  | .key32Bytes => 14

/-- `RijndaelInit`. A missing key or vector is `none`; the codes for an unsupported mode, direction
and key length are ruled out by the types. -/
def rijndaelInit (A : AesPlatform) (rijndael : Rijndael) (mode : RijndaelMode)
    (dir : RijndaelDirection) (key : Option Bytes) (keyLen : RijndaelKeyLength)
    (initVector : Option Bytes) : ℤ × Rijndael :=
  let rijndael := { rijndael with
    state := .invalid
    mode := mode
    direction := dir
    initVector := (initVector.map (·.take 16)).getD (zeros 16)
    rounds := keyLen.rounds }
  match key with
  | none => (RIJNDAEL_BAD_KEY, rijndael)
  | some key =>
    (0, { rijndael with expandedKey := A.expandKey dir (key.take keyLen.bytes), state := .valid })

/-! ### The hardware routines -/

/-- One round of the loop of `aesEncryptCBC`: the memory and `feedback` before block `i`, and after
it. -/
def aesEncryptStep (encryptBlock : Bytes → Bytes) (inp out : ℕ) (s : Memory × Bytes) (i : ℕ) :
    Memory × Bytes :=
  let data := s.1.load (inp + 16 * i) 16
  let feedback := encryptBlock (xorBytes data s.2)
  (s.1.store (out + 16 * i) feedback, feedback)

/-- `aesEncryptCBC`. -/
def aesEncryptCBC (encryptBlock : Bytes → Bytes) (m : Memory) (inp out : ℕ) (ivec : Bytes)
    (length : ℕ) : Memory :=
  let numBlocks := length / 16
  let lenFrag := length % 16
  let s := (List.range numBlocks).foldl (aesEncryptStep encryptBlock inp out) (m, ivec)
  if 0 < lenFrag then
    let lastblock := s.1.load (out + 16 * numBlocks - 16) lenFrag
    let partialblock := splice (zeros 16) 0 (s.1.load (inp + 16 * numBlocks) lenFrag)
    let feedback := encryptBlock (xorBytes partialblock s.2)
    let m := s.1.store (out + 16 * numBlocks - 16) feedback
    m.store (out + 16 * numBlocks) lastblock
  else s.1

/-- One round of the loop of `aesDecryptCBC`. -/
def aesDecryptStep (decryptBlock : Bytes → Bytes) (inp out : ℕ) (s : Memory × Bytes) (i : ℕ) :
    Memory × Bytes :=
  let lastIn := s.1.load (inp + 16 * i) 16
  let data := xorBytes (decryptBlock lastIn) s.2
  (s.1.store (out + 16 * i) data, lastIn)

/-- The part of `aesDecryptCBC` for the incomplete last block, `numBlocks` being decremented. -/
def aesDecryptFragment (decryptBlock : Bytes → Bytes) (m : Memory) (inp out : ℕ) (ivec : Bytes)
    (numBlocks lenFrag : ℕ) : Memory :=
  let offset := numBlocks * 16
  let data := decryptBlock (m.load (inp + 16 * numBlocks) 16)
  let partialblock := splice data 0 (m.load (inp + 16 * numBlocks + 16) lenFrag)
  let lastblock := xorBytes data partialblock
  let data := decryptBlock partialblock
  let feedback := if 0 < numBlocks then m.load (inp + 16 * (numBlocks - 1)) 16 else ivec
  let m := m.store (out + 16 * numBlocks) (xorBytes data feedback)
  m.store (out + offset + 16) (lastblock.take lenFrag)

/-- `aesDecryptCBC`. -/
def aesDecryptCBC (decryptBlock : Bytes → Bytes) (m : Memory) (inp out : ℕ) (ivec : Bytes)
    (length : ℕ) : Memory :=
  let numBlocks := length / 16
  let lenFrag := length % 16
  if 0 < lenFrag then
    let numBlocks := numBlocks - 1
    let m := aesDecryptFragment decryptBlock m inp out ivec numBlocks lenFrag
    ((List.range numBlocks).foldl (aesDecryptStep decryptBlock inp out) (m, ivec)).1
  else ((List.range numBlocks).foldl (aesDecryptStep decryptBlock inp out) (m, ivec)).1

/-! ### The software loops -/

/-- The variables of a loop: the memory, the two pointers, and the chaining block `iv`. -/
structure BlockLoop where
  memory : Memory
  input : ℕ
  outBuffer : ℕ
  iv : Bytes

/-- One block of `RIJNDAEL_Direction_Mode_ECB`. -/
def ecbStep (block : Bytes → Bytes) (s : BlockLoop) : BlockLoop :=
  { s with
    memory := s.memory.store s.outBuffer (block (s.memory.load s.input 16))
    input := s.input + 16
    outBuffer := s.outBuffer + 16 }

/-- One round of the loop over the blocks after the first of `RijndaelBlockEncrypt`: the block in
front is read back from the output. -/
def cbcEncryptStep (encrypt : Bytes → Bytes) (s : BlockLoop) : BlockLoop :=
  let block := xorBytes (s.memory.load s.outBuffer 16) (s.memory.load s.input 16)
  let outBuffer := s.outBuffer + 16
  { s with
    memory := s.memory.store outBuffer (encrypt block)
    input := s.input + 16
    outBuffer := outBuffer }

/-- The software branch of `RIJNDAEL_Direction_Mode_CBC` in `RijndaelBlockEncrypt`. -/
def cbcEncryptSoftware (encrypt : Bytes → Bytes) (initVector : Bytes) (m : Memory)
    (input outBuffer numBlocks lenFrag : ℕ) : Memory :=
  let block := xorBytes initVector (m.load input 16)
  let s := (cbcEncryptStep encrypt)^[numBlocks - 1]
    ⟨m.store outBuffer (encrypt block), input + 16, outBuffer, initVector⟩
  if 0 < lenFrag then
    let lastblock := s.memory.load s.outBuffer lenFrag
    let block := s.memory.load s.outBuffer 16
    -- `block[i] ^= input[i]` for the bytes of the fragment
    let block := splice block 0 (xorBytes (block.take lenFrag) (s.memory.load s.input lenFrag))
    let m := s.memory.store s.outBuffer (encrypt block)
    m.store (s.outBuffer + 16) lastblock
  else s.memory

/-- `p[i] ^= q[i]` for `i < n`, one byte after the other. -/
def xorInPlace (m : Memory) (p q : ℕ) : ℕ → Memory
  | 0 => m
  | n + 1 =>
    let m := xorInPlace m p q n
    m.store (p + n) [m.byte (p + n) ^^^ m.byte (q + n)]

/-- The part of the software branch of `RijndaelBlockDecrypt` for the incomplete last block,
`numBlocks` being decremented. -/
def cbcDecryptFragment (decrypt : Bytes → Bytes) (initVector : Bytes) (m : Memory)
    (input outBuffer numBlocks lenFrag : ℕ) : Memory :=
  let offset := numBlocks * 16
  let block := decrypt (m.load (input + offset) 16)
  let lastblock := xorBytes (block.take lenFrag) (m.load (input + offset + 16) lenFrag)
  let block := splice block 0 (m.load (input + offset + 16) lenFrag)
  let m := m.store (outBuffer + offset) (decrypt block)
  let m := m.store (outBuffer + offset + 16) lastblock
  if offset = 0 then
    m.store (outBuffer + offset) (xorBytes (m.load (outBuffer + offset) 16) initVector)
  else xorInPlace m (outBuffer + offset) (input + offset - 16) 16

/-- `iv` and the output block are exchanged word by word: word `k` of the input is read into `iv`,
then word `k` of `block` is written. -/
def exchangeWords (m : Memory) (input outBuffer : ℕ) (block : Bytes) : ℕ → Memory × Bytes
  | 0 => (m, [])
  | k + 1 =>
    let (m, iv) := exchangeWords m input outBuffer block k
    (m.store (outBuffer + 4 * k) (slice block (4 * k) 4), iv ++ m.load (input + 4 * k) 4)

/-- One round of the loop over the complete blocks of `RijndaelBlockDecrypt`. -/
def cbcDecryptStep (decrypt : Bytes → Bytes) (s : BlockLoop) : BlockLoop :=
  let block := xorBytes (decrypt (s.memory.load s.input 16)) s.iv
  let (m, iv) := exchangeWords s.memory s.input s.outBuffer block 4
  ⟨m, s.input + 16, s.outBuffer + 16, iv⟩

/-- The software branch of `RIJNDAEL_Direction_Mode_CBC` in `RijndaelBlockDecrypt`: the memory, and
`numBlocks` at the end. -/
def cbcDecryptSoftware (decrypt : Bytes → Bytes) (initVector : Bytes) (m : Memory)
    (input outBuffer numBlocks lenFrag : ℕ) : Memory × ℕ :=
  let (m, numBlocks) :=
    if 0 < lenFrag then
      let numBlocks := numBlocks - 1
      (cbcDecryptFragment decrypt initVector m input outBuffer numBlocks lenFrag, numBlocks)
    else (m, numBlocks)
  (((cbcDecryptStep decrypt)^[numBlocks] ⟨m, input, outBuffer, initVector⟩).memory, numBlocks)

/-- `iv` shifted left by one bit, `bit` coming in. -/
def shiftBit : Bytes → UInt8 → Bytes
  | [], _ => []
  | [b], bit => [(b <<< 1) ||| bit]
  | b :: c :: rest, bit => ((b <<< 1) ||| (c >>> 7)) :: shiftBit (c :: rest) bit

/-- One bit of `RIJNDAEL_Direction_Mode_CFB1`. The bit that goes into `iv` is the ciphertext's: it
is read from the output after the exclusive or, or from the input before it. -/
def cfb1Bit (encrypt : Bytes → Bytes) (dir : RijndaelDirection) (s : BlockLoop) (k : ℕ) :
    BlockLoop :=
  let block := encrypt s.iv
  let flipped := s.memory.store (s.outBuffer + k / 8)
    [s.memory.byte (s.outBuffer + k / 8) ^^^ ((block.getD 0 0 &&& 0x80) >>> UInt8.ofNat (k % 8))]
  let cipherByte := match dir with
    | .encrypt => flipped.byte (s.outBuffer + k / 8)
    | .decrypt => s.memory.byte (s.input + k / 8)
  { s with
    memory := flipped
    iv := shiftBit s.iv ((cipherByte >>> UInt8.ofNat (7 - k % 8)) &&& 1) }

/-- One block of `RIJNDAEL_Direction_Mode_CFB1`. -/
def cfb1Step (encrypt : Bytes → Bytes) (dir : RijndaelDirection) (s : BlockLoop) : BlockLoop :=
  let s := { s with memory := s.memory.store s.outBuffer (s.memory.load s.input 16) }
  let s := (List.range 128).foldl (cfb1Bit encrypt dir) s
  { s with input := s.input + 16, outBuffer := s.outBuffer + 16 }

/-! ### The routines -/

variable (A : AesPlatform)

/-- `RijndaelBlockEncrypt`: the returned number and the memory. `inputLen` counts bits; `0` is the
null pointer. -/
def rijndaelBlockEncrypt (rijndael : Rijndael) (m : Memory) (input : ℕ) (inputLen : ℤ)
    (outBuffer : ℕ) : ℤ × Memory :=
  let encrypt := A.rijndaelEncryptBlock rijndael
  if rijndael.state ≠ .valid then (RIJNDAEL_NOT_INITIALIZED, m)
  else if rijndael.direction ≠ .encrypt then (RIJNDAEL_BAD_DIRECTION, m)
  else if input = 0 ∨ inputLen ≤ 0 then (0, m)
  else
    let numBlocks := inputLen.toNat / 128
    let lenFrag := inputLen.toNat % 128 / 8
    let s : BlockLoop := ⟨m, input, outBuffer, rijndael.initVector⟩
    match rijndael.mode with
    | .ecb => (128 * numBlocks, ((ecbStep encrypt)^[numBlocks] s).memory)
    | .cbc =>
      match A.hardware with
      | some hardware =>
        (128 * numBlocks,
          aesEncryptCBC (hardware.encryptBlock rijndael.expandedKey rijndael.rounds) m input
            outBuffer rijndael.initVector (inputLen.toNat / 8))
      | none =>
        (128 * numBlocks,
          cbcEncryptSoftware encrypt rijndael.initVector m input outBuffer numBlocks lenFrag)
    | .cfb1 => (128 * numBlocks, ((cfb1Step encrypt .encrypt)^[numBlocks] s).memory)

/-- `RijndaelBlockDecrypt`. The software branch decrements the number of blocks it returns when
there is an incomplete last block. -/
def rijndaelBlockDecrypt (rijndael : Rijndael) (m : Memory) (input : ℕ) (inputLen : ℤ)
    (outBuffer : ℕ) : ℤ × Memory :=
  let decrypt := A.rijndaelDecryptBlock rijndael
  if rijndael.state ≠ .valid then (RIJNDAEL_NOT_INITIALIZED, m)
  else if rijndael.mode ≠ .cfb1 ∧ rijndael.direction = .encrypt then (RIJNDAEL_BAD_DIRECTION, m)
  else if input = 0 ∨ inputLen ≤ 0 then (0, m)
  else
    let numBlocks := inputLen.toNat / 128
    let lenFrag := inputLen.toNat % 128 / 8
    let s : BlockLoop := ⟨m, input, outBuffer, rijndael.initVector⟩
    match rijndael.mode with
    | .ecb => (128 * numBlocks, ((ecbStep decrypt)^[numBlocks] s).memory)
    | .cbc =>
      match A.hardware with
      | some hardware =>
        (128 * numBlocks,
          aesDecryptCBC (hardware.decryptBlock rijndael.expandedKey rijndael.rounds) m input
            outBuffer rijndael.initVector (inputLen.toNat / 8))
      | none =>
        let (m, numBlocks) :=
          cbcDecryptSoftware decrypt rijndael.initVector m input outBuffer numBlocks lenFrag
        (128 * numBlocks, m)
    | .cfb1 =>
      (128 * numBlocks,
        ((cfb1Step (A.rijndaelEncryptBlock rijndael) .decrypt)^[numBlocks] s).memory)

end MultipleCiphers
