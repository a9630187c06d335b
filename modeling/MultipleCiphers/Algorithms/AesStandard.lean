import MultipleCiphers.Algorithms.AesTables
import MultipleCiphers.Lib.BlockHash
import MultipleCiphers.Lib.KeyAlternating
import MultipleCiphers.Lib.Words
import Mathlib.Tactic.FinCases

/-!
# AES, as the standard has it

This repository has AES three times: with tables, with the instructions of x86 processors and with
those of ARM processors. This file has what all of them are compared with: the field of 256
elements, the substitution box made from it, the layers of a round on a state of four columns, and
the key expansion, word by word.

The state is four columns of four bytes, in the order in which the bytes of a block lie in memory.

## Main results

* `aesSBox_spec` — the table of the box is the inverse and an affine transformation.
* `unmixColumn_mixColumn`, `unmixColumn_xor` — the linear layer and its inverse.
* `aesCipher` — the layers, as a `KeyAlternating` cipher.
* `aesDecryptBlock_aesEncryptBlock` — every key and every block.
-/

namespace MultipleCiphers

open Bytes

/-- A column of the state, or a word of the key schedule: four bytes. -/
abbrev AesColumn := Vector UInt8 4

/-- The state: four columns. -/
abbrev AesState := Vector AesColumn 4

theorem mod4_lt (i : ℕ) : i % 4 < 4 := Nat.mod_lt i (by decide)

/-- A row or a column, counted round. -/
def row (i : ℕ) : Fin 4 := ⟨i % 4, mod4_lt i⟩

theorem row_add (j : ℕ) (r : Fin 4) : row (4 * j + r) = r := Fin.ext (by
  simp only [row]
  omega)

/-! ### Reading vectors and lists -/

section Vectors

variable {α β γ : Type*} {n : ℕ}

theorem get_map (f : α → β) (v : Vector α n) (i : Fin n) : (v.map f).get i = f (v.get i) := by
  simp only [Vector.get, Vector.getElem_toArray, Vector.getElem_map]
  rfl

theorem get_zipWith (f : α → β → γ) (v : Vector α n) (w : Vector β n) (i : Fin n) :
    (Vector.zipWith f v w).get i = f (v.get i) (w.get i) := by
  simp only [Vector.get, Vector.getElem_toArray, Vector.getElem_zipWith]
  rfl

theorem get_ofFn (f : Fin n → α) (i : Fin n) : (Vector.ofFn f).get i = f i := by
  simp only [Vector.get, Vector.getElem_toArray, Vector.getElem_ofFn]
  rfl

theorem get_replicate (a : α) (i : Fin n) : (Vector.replicate n a).get i = a := by
  simp only [Vector.get, Vector.getElem_toArray, Vector.getElem_replicate]

theorem get_eq_getElem (v : Vector α n) {i : Fin n} {k : ℕ} (h : k < n) (hk : (i : ℕ) = k) :
    v.get i = v[k] := by
  subst hk
  rfl

theorem getD_map_range (f : ℕ → α) (d : α) {j : ℕ} (hj : j < n) :
    ((List.range n).map f).getD j d = f j := by
  rw [List.getD_eq_getElem?_getD, List.getElem?_map, List.getElem?_range hj]
  rfl

end Vectors

/-! ### The field -/

/-- Multiplication by `x` in the field with the polynomial `x⁸ + x⁴ + x³ + x + 1`. -/
def xtime (b : UInt8) : UInt8 :=
  let t := b >>> 7
  b <<< 1 ^^^ t <<< 4 ^^^ t <<< 3 ^^^ t <<< 1 ^^^ t

/-- Multiplication in the field. -/
def gfMul (a b : UInt8) : UInt8 :=
  ((List.range 8).foldl
    (fun s i => (if b.toNat.testBit i then s.1 ^^^ s.2 else s.1, xtime s.2)) (0, a)).1

/-- A byte turned left. -/
def rotateByte (b : UInt8) (k : UInt8) : UInt8 := b <<< k ||| b >>> (8 - k)

/-- The affine transformation of the substitution box. -/
def aesAffine (b : UInt8) : UInt8 :=
  b ^^^ rotateByte b 1 ^^^ rotateByte b 2 ^^^ rotateByte b 3 ^^^ rotateByte b 4 ^^^ 0x63

/-- The substitution box, as a table. -/
def aesSBox (b : UInt8) : UInt8 := Rijndael.S.getD b.toNat 0

/-- The box backwards. -/
def aesInvSBox (b : UInt8) : UInt8 := Rijndael.S5.getD b.toNat 0

/-- Multiplication by the constants of `MixColumns` and its inverse. -/
def mul2 (b : UInt8) : UInt8 := xtime b
def mul3 (b : UInt8) : UInt8 := xtime b ^^^ b
def mul9 (b : UInt8) : UInt8 := xtime (xtime (xtime b)) ^^^ b
def mul11 (b : UInt8) : UInt8 := xtime (xtime (xtime b)) ^^^ xtime b ^^^ b
def mul13 (b : UInt8) : UInt8 := xtime (xtime (xtime b)) ^^^ xtime (xtime b) ^^^ b
def mul14 (b : UInt8) : UInt8 := xtime (xtime (xtime b)) ^^^ xtime (xtime b) ^^^ xtime b

theorem xtime_xor (a b : UInt8) : xtime (a ^^^ b) = xtime a ^^^ xtime b := by
  simp only [xtime, UInt8.shiftLeft_xor, UInt8.shiftRight_xor]
  ac_rfl

/-! ### The layers of a round -/

/-- A column of `MixColumns`. -/
def mixColumn (w : AesColumn) : AesColumn :=
  let s (i : Fin 4) := w.get i
  #v[mul2 (s (row 0)) ^^^ mul3 (s (row 1)) ^^^ s (row 2) ^^^ s (row 3),
    s (row 0) ^^^ mul2 (s (row 1)) ^^^ mul3 (s (row 2)) ^^^ s (row 3),
    s (row 0) ^^^ s (row 1) ^^^ mul2 (s (row 2)) ^^^ mul3 (s (row 3)),
    mul3 (s (row 0)) ^^^ s (row 1) ^^^ s (row 2) ^^^ mul2 (s (row 3))]

/-- A column of `InvMixColumns`. -/
def unmixColumn (w : AesColumn) : AesColumn :=
  let s (i : Fin 4) := w.get i
  #v[mul14 (s (row 0)) ^^^ mul11 (s (row 1)) ^^^ mul13 (s (row 2)) ^^^ mul9 (s (row 3)),
    mul9 (s (row 0)) ^^^ mul14 (s (row 1)) ^^^ mul11 (s (row 2)) ^^^ mul13 (s (row 3)),
    mul13 (s (row 0)) ^^^ mul9 (s (row 1)) ^^^ mul14 (s (row 2)) ^^^ mul11 (s (row 3)),
    mul11 (s (row 0)) ^^^ mul13 (s (row 1)) ^^^ mul9 (s (row 2)) ^^^ mul14 (s (row 3))]

/-- Multiplication by a sum of powers of `x` distributes. -/
theorem mul_xor (a b : UInt8) : mul2 (a ^^^ b) = mul2 a ^^^ mul2 b ∧
    mul3 (a ^^^ b) = mul3 a ^^^ mul3 b ∧ mul9 (a ^^^ b) = mul9 a ^^^ mul9 b ∧
    mul11 (a ^^^ b) = mul11 a ^^^ mul11 b ∧ mul13 (a ^^^ b) = mul13 a ^^^ mul13 b ∧
    mul14 (a ^^^ b) = mul14 a ^^^ mul14 b := by
  simp only [mul2, mul3, mul9, mul11, mul13, mul14, xtime_xor]
  refine ⟨trivial, ?_, ?_, ?_, ?_, ?_⟩ <;> ac_rfl

/-- A property of bytes, looked at byte by byte. -/
theorem forall_byte {p : UInt8 → Prop} (h : ∀ i < 256, p (UInt8.ofNat i)) (b : UInt8) : p b := by
  have hb := h b.toNat b.toNat_lt
  rwa [UInt8.ofNat_toNat] at hb

/-- A row of the inverse matrix, with the four columns of the matrix. -/
theorem row_columns (a : UInt8) :
    mul14 (mul2 a) ^^^ mul11 a ^^^ mul13 a ^^^ mul9 (mul3 a) = a ∧
      mul14 (mul3 a) ^^^ mul11 (mul2 a) ^^^ mul13 a ^^^ mul9 a = 0 ∧
      mul14 a ^^^ mul11 (mul3 a) ^^^ mul13 (mul2 a) ^^^ mul9 a = 0 ∧
      mul14 a ^^^ mul11 a ^^^ mul13 (mul3 a) ^^^ mul9 (mul2 a) = 0 := by
  revert a
  exact forall_byte (by decide +kernel)

theorem length_S : Rijndael.S.length = 256 := by decide +kernel

/-- A property of the bytes and what the box makes of them, looked at entry by entry. -/
theorem forall_aesSBox {p : UInt8 → UInt8 → Prop}
    (h : ∀ e ∈ Rijndael.S.zipIdx, p (UInt8.ofNat e.2) e.1) (b : UInt8) : p b (aesSBox b) := by
  have hlt : b.toNat < Rijndael.S.length := by
    rw [length_S]
    exact b.toNat_lt
  have hentry := h _ (List.mem_of_getElem?
    ((List.getElem?_zipIdx).trans (by rw [List.getElem?_eq_getElem hlt, Nat.zero_add]; rfl)))
  rw [aesSBox, List.getD_eq_getElem _ _ hlt]
  rwa [UInt8.ofNat_toNat] at hentry

/-- The affine transformation backwards. -/
def aesUnaffine (b : UInt8) : UInt8 :=
  rotateByte b 1 ^^^ rotateByte b 3 ^^^ rotateByte b 6 ^^^ 0x05

/-- **The box** is the inverse in the field and then the affine transformation. -/
theorem aesSBox_spec (b : UInt8) :
    ∃ c, aesSBox b = aesAffine c ∧ gfMul b c = if b = 0 then 0 else 1 :=
  ⟨aesUnaffine (aesSBox b), forall_aesSBox (p := fun b s =>
    s = aesAffine (aesUnaffine s) ∧ gfMul b (aesUnaffine s) = if b = 0 then 0 else 1)
    (by decide +kernel) b⟩

theorem aesInvSBox_aesSBox (b : UInt8) : aesInvSBox (aesSBox b) = b :=
  forall_aesSBox (p := fun b s => aesInvSBox s = b) (by decide +kernel) b

theorem row_mix (a b c d : UInt8) :
    mul14 (mul2 a ^^^ mul3 b ^^^ c ^^^ d) ^^^ mul11 (a ^^^ mul2 b ^^^ mul3 c ^^^ d) ^^^
        mul13 (a ^^^ b ^^^ mul2 c ^^^ mul3 d) ^^^ mul9 (mul3 a ^^^ b ^^^ c ^^^ mul2 d) = a := by
  obtain ⟨ha, -, -, -⟩ := row_columns a
  obtain ⟨-, hb, -, -⟩ := row_columns b
  obtain ⟨-, -, hc, -⟩ := row_columns c
  obtain ⟨-, -, -, hd⟩ := row_columns d
  calc
    _ = (mul14 (mul2 a) ^^^ mul11 a ^^^ mul13 a ^^^ mul9 (mul3 a)) ^^^
        (mul14 (mul3 b) ^^^ mul11 (mul2 b) ^^^ mul13 b ^^^ mul9 b) ^^^
        (mul14 c ^^^ mul11 (mul3 c) ^^^ mul13 (mul2 c) ^^^ mul9 c) ^^^
        (mul14 d ^^^ mul11 d ^^^ mul13 (mul3 d) ^^^ mul9 (mul2 d)) := by
      simp only [mul_xor]
      ac_rfl
    _ = a := by rw [ha, hb, hc, hd, UInt8.xor_zero, UInt8.xor_zero, UInt8.xor_zero]

/-! ### Columns and states -/

/-- Two columns combined. -/
def xorColumn (v w : AesColumn) : AesColumn := Vector.zipWith (· ^^^ ·) v w

/-- `AddRoundKey`. -/
def xorState (s k : AesState) : AesState := Vector.zipWith xorColumn s k

/-- `SubBytes` and `InvSubBytes`. -/
def subBytes (s : AesState) : AesState := s.map (·.map aesSBox)
def unsubBytes (s : AesState) : AesState := s.map (·.map aesInvSBox)

/-- `ShiftRows` and `InvShiftRows`: row `r` moves by `r` columns. -/
def shiftRows (s : AesState) : AesState :=
  let t (c r : Fin 4) := (s.get c).get r
  Vector.ofFn fun c => Vector.ofFn fun r => t (c + r) r
def unshiftRows (s : AesState) : AesState :=
  let t (c r : Fin 4) := (s.get c).get r
  Vector.ofFn fun c => Vector.ofFn fun r => t (c - r) r

/-- `MixColumns` and `InvMixColumns`. -/
def mixColumns (s : AesState) : AesState := s.map mixColumn
def unmixColumns (s : AesState) : AesState := s.map unmixColumn

theorem column_ext {v w : AesColumn} (h : ∀ r : Fin 4, v.get r = w.get r) : v = w :=
  Vector.ext fun r hr => h ⟨r, hr⟩

theorem state_ext {s t : AesState} (h : ∀ c : Fin 4, s.get c = t.get c) : s = t :=
  Vector.ext fun c hc => h ⟨c, hc⟩

@[simp] theorem get_xorColumn (v w : AesColumn) (r : Fin 4) :
    (xorColumn v w).get r = v.get r ^^^ w.get r := by
  simp only [xorColumn, get_zipWith]

@[simp] theorem get_xorState (s k : AesState) (c : Fin 4) :
    (xorState s k).get c = xorColumn (s.get c) (k.get c) := by
  simp only [xorState, get_zipWith]

@[simp] theorem get_shiftRows (s : AesState) (c r : Fin 4) :
    ((shiftRows s).get c).get r = (s.get (c + r)).get r := by
  simp only [shiftRows, get_ofFn]

@[simp] theorem get_unshiftRows (s : AesState) (c r : Fin 4) :
    ((unshiftRows s).get c).get r = (s.get (c - r)).get r := by
  simp only [unshiftRows, get_ofFn]

@[simp] theorem get_subBytes (s : AesState) (c r : Fin 4) :
    ((subBytes s).get c).get r = aesSBox ((s.get c).get r) := by
  simp only [subBytes, get_map]

@[simp] theorem get_unsubBytes (s : AesState) (c r : Fin 4) :
    ((unsubBytes s).get c).get r = aesInvSBox ((s.get c).get r) := by
  simp only [unsubBytes, get_map]

@[simp] theorem get_mixColumns (s : AesState) (c : Fin 4) :
    (mixColumns s).get c = mixColumn (s.get c) := by
  simp only [mixColumns, get_map]

@[simp] theorem get_unmixColumns (s : AesState) (c : Fin 4) :
    (unmixColumns s).get c = unmixColumn (s.get c) := by
  simp only [unmixColumns, get_map]

theorem xorColumn_xorColumn (c d : AesColumn) : xorColumn (xorColumn c d) d = c := by
  refine column_ext fun r => ?_
  rw [get_xorColumn, get_xorColumn, UInt8.xor_assoc, UInt8.xor_self, UInt8.xor_zero]

/-- The rows of the inverse matrix are those of `row_mix`, moved on. -/
theorem rows_mix (a b c d : UInt8) :
    mul9 (mul2 a ^^^ mul3 b ^^^ c ^^^ d) ^^^ mul14 (a ^^^ mul2 b ^^^ mul3 c ^^^ d) ^^^
          mul11 (a ^^^ b ^^^ mul2 c ^^^ mul3 d) ^^^ mul13 (mul3 a ^^^ b ^^^ c ^^^ mul2 d) = b ∧
      mul13 (mul2 a ^^^ mul3 b ^^^ c ^^^ d) ^^^ mul9 (a ^^^ mul2 b ^^^ mul3 c ^^^ d) ^^^
          mul14 (a ^^^ b ^^^ mul2 c ^^^ mul3 d) ^^^ mul11 (mul3 a ^^^ b ^^^ c ^^^ mul2 d) = c ∧
      mul11 (mul2 a ^^^ mul3 b ^^^ c ^^^ d) ^^^ mul13 (a ^^^ mul2 b ^^^ mul3 c ^^^ d) ^^^
          mul9 (a ^^^ b ^^^ mul2 c ^^^ mul3 d) ^^^ mul14 (mul3 a ^^^ b ^^^ c ^^^ mul2 d) = d := by
  refine ⟨?_, ?_, ?_⟩
  · refine Eq.trans ?_ (row_mix b c d a)
    ac_rfl
  · refine Eq.trans ?_ (row_mix c d a b)
    ac_rfl
  · refine Eq.trans ?_ (row_mix d a b c)
    ac_rfl

theorem unmixColumn_mixColumn (w : AesColumn) : unmixColumn (mixColumn w) = w := by
  obtain ⟨h₁, h₂, h₃⟩ := rows_mix (w.get (row 0)) (w.get (row 1)) (w.get (row 2)) (w.get (row 3))
  refine column_ext fun r => ?_
  fin_cases r
  · exact row_mix (w.get (row 0)) (w.get (row 1)) (w.get (row 2)) (w.get (row 3))
  · exact h₁
  · exact h₂
  · exact h₃

theorem xor_four (a b c d a' b' c' d' : UInt8) :
    (a ^^^ a') ^^^ (b ^^^ b') ^^^ (c ^^^ c') ^^^ (d ^^^ d') =
      (a ^^^ b ^^^ c ^^^ d) ^^^ (a' ^^^ b' ^^^ c' ^^^ d') := by
  ac_rfl

/-- The inverse of the linear layer is linear. -/
theorem unmixColumn_xor (c d : AesColumn) :
    unmixColumn (xorColumn c d) = xorColumn (unmixColumn c) (unmixColumn d) := by
  refine column_ext fun r => ?_
  rw [get_xorColumn]
  fin_cases r <;>
  · simp only [unmixColumn, get_xorColumn, mul_xor]
    exact xor_four _ _ _ _ _ _ _ _

/-! ### The cipher -/

theorem xorState_xorState (s k : AesState) : xorState (xorState s k) k = s := by
  refine state_ext fun c => ?_
  rw [get_xorState, get_xorState, xorColumn_xorColumn]

theorem sub_add_four : ∀ c r : Fin 4, c - r + r = c := by decide

theorem unsubstitute_substitute (s : AesState) :
    unsubBytes (unshiftRows (shiftRows (subBytes s))) = s := by
  refine state_ext fun c => column_ext fun r => ?_
  rw [get_unsubBytes, get_unshiftRows, get_shiftRows, get_subBytes,
    aesInvSBox_aesSBox, sub_add_four]

theorem unmixColumns_mixColumns (s : AesState) : unmixColumns (mixColumns s) = s := by
  refine state_ext fun c => ?_
  rw [get_unmixColumns, get_mixColumns, unmixColumn_mixColumn]

theorem unmixColumns_xor (s k : AesState) :
    unmixColumns (xorState s k) = xorState (unmixColumns s) (unmixColumns k) := by
  refine state_ext fun c => ?_
  rw [get_unmixColumns, get_xorState, unmixColumn_xor, get_xorState,
    get_unmixColumns, get_unmixColumns]

/-- The layers of AES. -/
def aesCipher : KeyAlternating AesState where
  xor := xorState
  substitute s := shiftRows (subBytes s)
  unsubstitute s := unsubBytes (unshiftRows s)
  mix := mixColumns
  unmix := unmixColumns
  xor_xor := xorState_xorState
  unsubstitute_substitute := unsubstitute_substitute
  unmix_mix := unmixColumns_mixColumns
  unmix_xor := unmixColumns_xor

/-! ### The key expansion -/

/-- Four bytes of a string. -/
def columnAt (b : Bytes) (off : ℕ) : AesColumn := Vector.ofFn fun r => b.getD (off + r) 0

/-- The column of zeros. -/
def zeroColumn : AesColumn := Vector.replicate 4 0

/-- `SubWord` and `RotWord`. -/
def subWord (w : AesColumn) : AesColumn := w.map aesSBox
def rotWord (w : AesColumn) : AesColumn :=
  let b (r : Fin 4) := w.get r
  Vector.ofFn fun r => b (r + row 1)

/-- `Rcon[j]`: a power of `x`, and zeros. -/
def aesRcon (j : ℕ) : AesColumn := #v[xtime^[j - 1] 1, 0, 0, 0]

/-- The next word of the key schedule, for a key of `nk` words. -/
def aesNextWord (nk : ℕ) (w : List AesColumn) : AesColumn :=
  let i := w.length
  let temp := w.getD (i - 1) zeroColumn
  xorColumn (w.getD (i - nk) zeroColumn)
    (if i % nk = 0 then xorColumn (subWord (rotWord temp)) (aesRcon (i / nk))
    else if 6 < nk ∧ i % nk = 4 then subWord temp
    else temp)

/-- The first `nk + n` words of the key schedule. -/
def aesWords (key : Bytes) (nk n : ℕ) : List AesColumn :=
  grow (aesNextWord nk) n ((List.range nk).map fun i => columnAt key (4 * i))

/-- The number of rounds for a key. -/
def aesRounds (key : Bytes) : ℕ := key.length / 4 + 6

/-- `KeyExpansion`. -/
def aesKeyExpansion (key : Bytes) : List AesColumn :=
  aesWords key (key.length / 4) (4 * (aesRounds key + 1) - key.length / 4)

/-- The round keys. -/
def aesRoundKey (key : Bytes) (r : ℕ) : AesState :=
  Vector.ofFn fun t => (aesKeyExpansion key).getD (4 * r + t) zeroColumn

/-! ### Blocks of bytes -/

/-- The state of a block, and back. -/
def stateOf (b : Bytes) : AesState := Vector.ofFn fun c => columnAt b (4 * c)
def bytesOf (s : AesState) : Bytes :=
  let place (c r : Fin 4) := (s.get c).get r
  (List.range 16).map fun i => place (row (i / 4)) (row i)

@[simp] theorem length_bytesOf (s : AesState) : (bytesOf s).length = 16 := by simp [bytesOf]

theorem get_columnAt (b : Bytes) (off : ℕ) (r : Fin 4) :
    (columnAt b off).get r = b.getD (off + r) 0 := by
  simp only [columnAt, get_ofFn]

theorem get_stateOf (b : Bytes) (c : Fin 4) : (stateOf b).get c = columnAt b (4 * c) := by
  simp only [stateOf, get_ofFn]

theorem stateOf_bytesOf (s : AesState) : stateOf (bytesOf s) = s := by
  refine state_ext fun c => column_ext fun r => ?_
  have hcol : row ((4 * (c : ℕ) + r) / 4) = c := Fin.ext (by
    simp only [row]
    omega)
  rw [get_stateOf, get_columnAt, bytesOf, getD_map_range _ _ (by omega), hcol, row_add]

theorem bytesOf_stateOf {b : Bytes} (h : b.length = 16) : bytesOf (stateOf b) = b := by
  refine List.ext_getElem (by rw [length_bytesOf, h]) fun i hi hi' => ?_
  rw [length_bytesOf] at hi
  simp only [bytesOf, List.getElem_map, List.getElem_range, get_stateOf, get_columnAt]
  rw [List.getD_eq_getElem _ _ (by simp only [row]; omega)]
  congr 1
  simp only [row]
  omega

/-- AES on one block, for every key length. -/
def aesEncryptBlock (key b : Bytes) : Bytes :=
  bytesOf (aesCipher.encrypt (aesRoundKey key) (aesRounds key) (stateOf b))

/-- The equivalent inverse cipher. -/
def aesDecryptBlock (key b : Bytes) : Bytes :=
  bytesOf (aesCipher.decrypt (aesCipher.decryptKeys (aesRoundKey key) (aesRounds key))
    (aesRounds key) (stateOf b))

@[simp] theorem length_aesEncryptBlock (key b : Bytes) : (aesEncryptBlock key b).length = 16 :=
  length_bytesOf _

@[simp] theorem length_aesDecryptBlock (key b : Bytes) : (aesDecryptBlock key b).length = 16 :=
  length_bytesOf _

/-- **Decryption** undoes encryption, for every key and every block. -/
theorem aesDecryptBlock_aesEncryptBlock (key : Bytes) {b : Bytes} (h : b.length = 16) :
    aesDecryptBlock key (aesEncryptBlock key b) = b := by
  rw [aesDecryptBlock, aesEncryptBlock, stateOf_bytesOf,
    KeyAlternating.decrypt_encrypt (show 1 ≤ aesRounds key by rw [aesRounds]; omega),
    bytesOf_stateOf h]

end MultipleCiphers
