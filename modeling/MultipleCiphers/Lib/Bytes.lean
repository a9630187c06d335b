import Mathlib.Data.List.Basic
import Mathlib.Data.Nat.Bitwise
import Mathlib.Tactic.Ring

/-!
# Byte strings

Buffers, pages and files are lists of bytes. A buffer operation of a C program is then one of
three: read `len` bytes at an offset (`slice`), overwrite the bytes at an offset (`splice`), or
combine two buffers byte by byte (`xorBytes`). This file has those three, the big- and
little-endian encodings of a 32-bit number, and the lemmas that say how they interact. A page
transformation is a short sequence of splices, so what a proof about it needs is when a slice
sees a splice (`slice_splice_self`) and when it does not (`slice_splice_of_le`,
`slice_splice_of_ge`).

A file differs from a buffer in one respect: a write may lie beyond its end, and the gap is then
filled with zeros. `writeAt` is that operation; inside the file it is a splice.

## Main results

* `xorBytes_xorBytes_cancel` — combining twice with the same string is the identity.
* `get4byte_put4byte`, `load32LE_store32LE` — the encodings round-trip below `2 ^ 32`.
* `slice_writeAt_self`, `slice_writeAt_of_disjoint` — what a file holds after a write.
-/

/-- A byte string: the contents of a buffer, a page or a file. -/
abbrev Bytes := List UInt8

namespace Bytes

/-! ### Reading and overwriting a range -/

/-- The `len` bytes at offset `off`, fewer where the string ends earlier. -/
def slice (b : Bytes) (off len : ℕ) : Bytes := (b.drop off).take len

/-- `b` with the bytes from offset `off` on overwritten by `d`. -/
def splice (b : Bytes) (off : ℕ) (d : Bytes) : Bytes :=
  b.take off ++ d ++ b.drop (off + d.length)

/-- `n` zero bytes. -/
def zeros (n : ℕ) : Bytes := List.replicate n 0

@[simp] theorem length_zeros (n : ℕ) : (zeros n).length = n := by simp [zeros]

theorem length_slice (b : Bytes) (off len : ℕ) :
    (slice b off len).length = min len (b.length - off) := by
  simp [slice]

theorem length_slice_of_le {b : Bytes} {off len : ℕ} (h : off + len ≤ b.length) :
    (slice b off len).length = len := by
  rw [length_slice]
  omega

@[simp] theorem length_splice {b d : Bytes} {off : ℕ} (h : off + d.length ≤ b.length) :
    (splice b off d).length = b.length := by
  simp only [splice, List.length_append, List.length_take, List.length_drop]
  omega

@[simp] theorem slice_zero_length (b : Bytes) : slice b 0 b.length = b := by simp [slice]

theorem slice_full {b : Bytes} {n : ℕ} (h : b.length = n) : slice b 0 n = b := by
  subst h
  exact slice_zero_length b

theorem getElem?_slice (b : Bytes) (off len i : ℕ) :
    (slice b off len)[i]? = if i < len then b[off + i]? else none := by
  simp only [slice, List.getElem?_take, List.getElem?_drop]

theorem getElem?_splice {b d : Bytes} {off : ℕ} (h : off + d.length ≤ b.length) (i : ℕ) :
    (splice b off d)[i]? =
      if i < off then b[i]? else if i < off + d.length then d[i - off]? else b[i]? := by
  have htake : (b.take off).length = off := by
    rw [List.length_take]
    omega
  simp only [splice, List.append_assoc]
  by_cases h₁ : i < off
  · rw [List.getElem?_append_left (by omega), List.getElem?_take, if_pos h₁, if_pos h₁]
  · rw [List.getElem?_append_right (by omega), htake, if_neg h₁]
    by_cases h₂ : i < off + d.length
    · rw [List.getElem?_append_left (by omega), if_pos h₂]
    · rw [List.getElem?_append_right (by omega), if_neg h₂, List.getElem?_drop]
      congr 1
      omega

/-- A slice inside a spliced-in string reads that string. -/
theorem slice_splice_inside {b d : Bytes} {off o len : ℕ} (h : off + d.length ≤ b.length)
    (ho : off ≤ o) (hlen : o + len ≤ off + d.length) :
    slice (splice b off d) o len = slice d (o - off) len := by
  refine List.ext_getElem? fun i => ?_
  rw [getElem?_slice, getElem?_slice]
  by_cases hi : i < len
  · rw [if_pos hi, if_pos hi, getElem?_splice h, if_neg (by omega), if_pos (by omega)]
    congr 1
    omega
  · rw [if_neg hi, if_neg hi]

/-- A slice of exactly the spliced range is what was spliced in. -/
theorem slice_splice_self {b d : Bytes} {off : ℕ} (h : off + d.length ≤ b.length) :
    slice (splice b off d) off d.length = d := by
  rw [slice_splice_inside h le_rfl le_rfl, Nat.sub_self, slice_zero_length]

/-- A slice that ends before the spliced range does not see it. -/
theorem slice_splice_of_le {b d : Bytes} {off o len : ℕ} (h : off + d.length ≤ b.length)
    (hle : o + len ≤ off) : slice (splice b off d) o len = slice b o len := by
  refine List.ext_getElem? fun i => ?_
  rw [getElem?_slice, getElem?_slice]
  by_cases hi : i < len
  · rw [if_pos hi, if_pos hi, getElem?_splice h, if_pos (by omega)]
  · rw [if_neg hi, if_neg hi]

/-- A slice that starts after the spliced range does not see it. -/
theorem slice_splice_of_ge {b d : Bytes} {off o len : ℕ} (h : off + d.length ≤ b.length)
    (hge : off + d.length ≤ o) : slice (splice b off d) o len = slice b o len := by
  refine List.ext_getElem? fun i => ?_
  rw [getElem?_slice, getElem?_slice]
  by_cases hi : i < len
  · rw [if_pos hi, if_pos hi, getElem?_splice h, if_neg (by omega), if_neg (by omega)]
  · rw [if_neg hi, if_neg hi]

/-- A slice of a slice. -/
theorem slice_slice {b : Bytes} {off len o n : ℕ} (h : o + n ≤ len) :
    slice (slice b off len) o n = slice b (off + o) n := by
  refine List.ext_getElem? fun i => ?_
  rw [getElem?_slice, getElem?_slice, getElem?_slice]
  by_cases hi : i < n
  · rw [if_pos hi, if_pos hi, if_pos (by omega), Nat.add_assoc]
  · rw [if_neg hi, if_neg hi]

/-- A range in two parts. -/
theorem slice_add (b : Bytes) (off m n : ℕ) :
    slice b off (m + n) = slice b off m ++ slice b (off + m) n := by
  simp only [slice, List.take_add, List.drop_drop]

/-- The later of two splices at the same place wins. -/
theorem splice_splice_same {b d e : Bytes} {off : ℕ} (h : off + d.length ≤ b.length)
    (hde : e.length = d.length) : splice (splice b off d) off e = splice b off e := by
  refine List.ext_getElem? fun i => ?_
  rw [getElem?_splice (by rw [length_splice h]; omega), getElem?_splice h,
    getElem?_splice (by omega), hde]
  by_cases h₁ : i < off
  · simp [h₁]
  · by_cases h₂ : i < off + d.length <;> simp [h₁, h₂]

/-- The middle of three parts. -/
theorem slice_append {a b c : Bytes} {off len : ℕ} (ha : a.length = off) (hb : b.length = len) :
    slice (a ++ b ++ c) off len = b := by
  subst ha hb
  simp [slice]

/-- A slice of the first of two parts. -/
theorem slice_append_left {a : Bytes} (b : Bytes) {off len : ℕ} (h : off + len ≤ a.length) :
    slice (a ++ b) off len = slice a off len := by
  rw [slice, slice, List.drop_append_of_le_length (by omega),
    List.take_append_of_le_length (by rw [List.length_drop]; omega)]

/-- A slice of the second of two parts. -/
theorem slice_append_right (a b : Bytes) (off len : ℕ) :
    slice (a ++ b) (a.length + off) len = slice b off len := by
  rw [slice, slice, ← List.drop_drop, List.drop_left]

/-- A slice without its first bytes. -/
theorem slice_drop (b : Bytes) (off len n : ℕ) :
    (slice b off len).drop n = slice b (off + n) (len - n) := by
  rw [slice, slice, List.drop_take, List.drop_drop]

/-- The second of two parts. -/
theorem slice_append_behind {a b : Bytes} {off len : ℕ} (ha : a.length = off)
    (hb : b.length = len) : slice (a ++ b) off len = b := by
  subst ha hb
  simp [slice]

/-- Overwriting the middle of three parts. -/
theorem splice_append {a b c d : Bytes} {off : ℕ} (ha : a.length = off)
    (hd : d.length = b.length) : splice (a ++ b ++ c) off d = a ++ d ++ c := by
  subst ha
  simp [splice, hd, ← List.drop_drop]

/-- A splice right behind another one. -/
theorem splice_splice_next {b d e : Bytes} {off : ℕ} (h : off + d.length + e.length ≤ b.length) :
    splice (splice b off d) (off + d.length) e = splice b off (d ++ e) := by
  have hoff : (b.take off).length = off := by
    rw [List.length_take]
    omega
  have htake : (b.take off ++ d).length = off + d.length := by rw [List.length_append, hoff]
  rw [splice, splice, splice, ← htake, List.take_left, ← List.drop_drop, List.drop_left,
    List.drop_drop, htake, List.length_append, Nat.add_assoc]
  simp only [List.append_assoc]

/-- What was there before the overwritten part, and that part. -/
theorem take_splice {b d : Bytes} {off : ℕ} (h : off ≤ b.length) :
    (splice b off d).take (off + d.length) = b.take off ++ d := by
  rw [splice, List.take_left' (by rw [List.length_append, List.length_take, Nat.min_eq_left h])]

/-- A string in three parts, the middle one a slice. -/
theorem take_slice_drop (b : Bytes) (off len : ℕ) :
    b.take off ++ slice b off len ++ b.drop (off + len) = b := by
  rw [List.append_assoc, ← List.drop_drop, slice, List.take_append_drop, List.take_append_drop]

/-! ### Bytewise combination -/

/-- The bytewise exclusive or, as long as the shorter of the two. -/
def xorBytes (a b : Bytes) : Bytes := List.zipWith (· ^^^ ·) a b

@[simp] theorem length_xorBytes (a b : Bytes) :
    (xorBytes a b).length = min a.length b.length := by simp [xorBytes]

/-- Combining twice with the same string is the identity. -/
theorem xorBytes_xorBytes_cancel {a k : Bytes} (h : a.length ≤ k.length) :
    xorBytes (xorBytes a k) k = a := by
  induction a generalizing k with
  | nil => rfl
  | cons x a ih =>
    cases k with
    | nil => simp at h
    | cons y k =>
      have hak : a.length ≤ k.length := by simpa using h
      have hxy : x ^^^ y ^^^ y = x := by rw [UInt8.xor_assoc, UInt8.xor_self, UInt8.xor_zero]
      simp only [xorBytes, List.zipWith_cons_cons, hxy]
      exact congrArg (x :: ·) (ih hak)

theorem getElem?_xorBytes {a k : Bytes} {i : ℕ} (h : i < k.length) :
    (xorBytes a k)[i]? = a[i]?.map (· ^^^ k.getD i 0) := by
  rw [xorBytes, List.getElem?_zipWith, List.getElem?_eq_getElem h, List.getD_eq_getElem?_getD,
    List.getElem?_eq_getElem h]
  cases a[i]? <;> rfl

theorem xorBytes_comm (a b : Bytes) : xorBytes a b = xorBytes b a :=
  List.zipWith_comm_of_comm fun x y => UInt8.xor_comm x y

theorem take_xorBytes (a b : Bytes) (n : ℕ) :
    (xorBytes a b).take n = xorBytes (a.take n) (b.take n) := List.take_zipWith

theorem drop_xorBytes (a b : Bytes) (n : ℕ) :
    (xorBytes a b).drop n = xorBytes (a.drop n) (b.drop n) := List.drop_zipWith

/-- Zeros change nothing. -/
theorem xorBytes_zeros {a : Bytes} {n : ℕ} (h : a.length ≤ n) : xorBytes a (zeros n) = a := by
  induction a generalizing n with
  | nil => rfl
  | cons x a ih =>
    cases n with
    | zero => simp at h
    | succ n =>
      have hrest : a.length ≤ n := by simpa using h
      simp only [xorBytes, zeros, List.replicate_succ, List.zipWith_cons_cons, UInt8.xor_zero]
      exact congrArg (x :: ·) (ih hrest)

/-! ### 32-bit numbers -/

/-- The big-endian number in the first four bytes, `0` on a shorter string. -/
def get4byte : Bytes → ℕ
  | a :: b :: c :: d :: _ => a.toNat * 2 ^ 24 + b.toNat * 2 ^ 16 + c.toNat * 2 ^ 8 + d.toNat
  | _ => 0

/-- The four bytes of `n`, most significant first. -/
def put4byte (n : ℕ) : Bytes :=
  [UInt8.ofNat (n / 2 ^ 24), UInt8.ofNat (n / 2 ^ 16), UInt8.ofNat (n / 2 ^ 8), UInt8.ofNat n]

/-- The little-endian number in the first four bytes, `0` on a shorter string. -/
def load32LE : Bytes → ℕ
  | a :: b :: c :: d :: _ => a.toNat + b.toNat * 2 ^ 8 + c.toNat * 2 ^ 16 + d.toNat * 2 ^ 24
  | _ => 0

/-- The four bytes of `n`, least significant first. -/
def store32LE (n : ℕ) : Bytes :=
  [UInt8.ofNat n, UInt8.ofNat (n / 2 ^ 8), UInt8.ofNat (n / 2 ^ 16), UInt8.ofNat (n / 2 ^ 24)]

@[simp] theorem length_put4byte (n : ℕ) : (put4byte n).length = 4 := rfl

@[simp] theorem length_store32LE (n : ℕ) : (store32LE n).length = 4 := rfl

theorem get4byte_put4byte {n : ℕ} (h : n < 2 ^ 32) : get4byte (put4byte n) = n := by
  simp only [put4byte, get4byte, UInt8.toNat_ofNat']
  omega

theorem load32LE_store32LE {n : ℕ} (h : n < 2 ^ 32) : load32LE (store32LE n) = n := by
  simp only [store32LE, load32LE, UInt8.toNat_ofNat']
  omega

/-- Four bytes are enough. -/
theorem get4byte_take (b : Bytes) : get4byte (b.take 4) = get4byte b := by
  match b with
  | [] | [_] | [_, _] | [_, _, _] => rfl
  | _ :: _ :: _ :: _ :: _ => rfl

theorem get4byte_lt (b : Bytes) : get4byte b < 2 ^ 32 := by
  unfold get4byte
  split
  · rename_i a b c d _
    have ha := a.toNat_lt
    have hb := b.toNat_lt
    have hc := c.toNat_lt
    have hd := d.toNat_lt
    omega
  · omega

/-- The big-endian number in the first eight bytes, `0` on a shorter string. -/
def get8byte : Bytes → ℕ
  | a :: b :: c :: d :: rest => get4byte [a, b, c, d] * 2 ^ 32 + get4byte rest
  | _ => 0

/-- The eight bytes of `n`, most significant first. -/
def put8byte (n : ℕ) : Bytes := put4byte (n / 2 ^ 32) ++ put4byte (n % 2 ^ 32)

@[simp] theorem length_put8byte (n : ℕ) : (put8byte n).length = 8 := rfl

theorem get8byte_put8byte {n : ℕ} (h : n < 2 ^ 64) : get8byte (put8byte n) = n := by
  have hhigh : get4byte (put4byte (n / 2 ^ 32)) = n / 2 ^ 32 := get4byte_put4byte (by omega)
  have hlow : get4byte (put4byte (n % 2 ^ 32)) = n % 2 ^ 32 := get4byte_put4byte (by omega)
  have hsplit : get8byte (put8byte n) =
      get4byte (put4byte (n / 2 ^ 32)) * 2 ^ 32 + get4byte (put4byte (n % 2 ^ 32)) := rfl
  rw [hsplit, hhigh, hlow]
  omega

/-- Eight bytes are enough. -/
theorem get8byte_take (b : Bytes) : get8byte (b.take 8) = get8byte b := by
  match b with
  | [] | [_] | [_, _] | [_, _, _] => rfl
  | a :: b :: c :: d :: rest =>
    have hrest : (a :: b :: c :: d :: rest).take 8 = a :: b :: c :: d :: rest.take 4 := rfl
    rw [hrest, get8byte, get8byte, get4byte_take]

/-! ### Bounded access

A C program reads and writes through pointers it has computed, and the offset may be negative or
the range may end behind the buffer. `none` is such an access. -/

/-- The `len` bytes at offset `off`, if all of them lie inside. -/
def readWithin (b : Bytes) (off : ℤ) (len : ℕ) : Option Bytes :=
  if 0 ≤ off ∧ off + len ≤ b.length then some (slice b off.toNat len) else none

/-- `b` with `d` written at offset `off`, if all of it goes inside. -/
def writeWithin (b : Bytes) (off : ℤ) (d : Bytes) : Option Bytes :=
  if 0 ≤ off ∧ off + d.length ≤ b.length then some (splice b off.toNat d) else none

theorem readWithin_of_le {b : Bytes} {off len : ℕ} (h : off + len ≤ b.length) :
    readWithin b off len = some (slice b off len) := by
  rw [readWithin, if_pos ⟨by omega, by omega⟩, Int.toNat_natCast]

theorem readWithin_eq_none {b : Bytes} {off : ℤ} {len : ℕ} :
    readWithin b off len = none ↔ off < 0 ∨ (b.length : ℤ) < off + len := by
  rw [readWithin]
  by_cases h : 0 ≤ off ∧ off + len ≤ b.length
  · rw [if_pos h]
    constructor
    · intro hnone
      cases hnone
    · intro hout
      omega
  · rw [if_neg h]
    constructor
    · intro _
      omega
    · intro _
      rfl

theorem writeWithin_of_le {b d : Bytes} {off : ℕ} (h : off + d.length ≤ b.length) :
    writeWithin b off d = some (splice b off d) := by
  rw [writeWithin, if_pos ⟨by omega, by omega⟩, Int.toNat_natCast]

/-! ### Files -/

/-- The file `f` after writing `d` at offset `off`. A gap between the end of the file and the
offset is filled with zeros. -/
def writeAt (f : Bytes) (off : ℕ) (d : Bytes) : Bytes :=
  splice (f ++ zeros (off + d.length - f.length)) off d

theorem length_writeAt (f : Bytes) (off : ℕ) (d : Bytes) :
    (writeAt f off d).length = max f.length (off + d.length) := by
  unfold writeAt
  rw [length_splice] <;> simp only [List.length_append, length_zeros] <;> omega

theorem writeAt_eq_splice {f d : Bytes} {off : ℕ} (h : off + d.length ≤ f.length) :
    writeAt f off d = splice f off d := by
  have : off + d.length - f.length = 0 := by omega
  simp [writeAt, this, zeros]

/-- Reading back exactly what was written. -/
theorem slice_writeAt_self (f : Bytes) (off : ℕ) (d : Bytes) :
    slice (writeAt f off d) off d.length = d := by
  refine slice_splice_self ?_
  simp only [List.length_append, length_zeros]
  omega

/-- A range of the file disjoint from the written one keeps its bytes. -/
theorem slice_writeAt_of_disjoint {f d : Bytes} {off o len : ℕ}
    (hin : o + len ≤ f.length) (hdis : o + len ≤ off ∨ off + d.length ≤ o) :
    slice (writeAt f off d) o len = slice f o len := by
  have hpad : off + d.length ≤ (f ++ zeros (off + d.length - f.length)).length := by
    simp only [List.length_append, length_zeros]
    omega
  have happ : slice (f ++ zeros (off + d.length - f.length)) o len = slice f o len := by
    refine List.ext_getElem? fun i => ?_
    rw [getElem?_slice, getElem?_slice]
    by_cases hi : i < len
    · rw [if_pos hi, if_pos hi, List.getElem?_append_left (by omega)]
    · rw [if_neg hi, if_neg hi]
  rcases hdis with h | h
  · rw [writeAt, slice_splice_of_le hpad h, happ]
  · rw [writeAt, slice_splice_of_ge hpad h, happ]

/-- A range of the file in which something was written at the start. -/
theorem slice_writeAt_inside {f d : Bytes} {off len : ℕ} (hin : off + len ≤ f.length)
    (hd : d.length ≤ len) :
    slice (writeAt f off d) off len = splice (slice f off len) 0 d := by
  have hl := length_slice_of_le hin
  refine List.ext_getElem? fun i => ?_
  rw [writeAt_eq_splice (by omega), getElem?_slice, getElem?_splice (by omega),
    getElem?_splice (by omega), getElem?_slice]
  by_cases hi : i < len
  · by_cases hid : i < d.length
    · simp [hi, hid]
    · simp [hi, hid]
  · have hid : ¬i < d.length := by omega
    simp [hi, hid]

/-- What a file holds after a write that leaves no gap. -/
theorem getElem?_writeAt {f d : Bytes} {off : ℕ} (h : off ≤ f.length) (i : ℕ) :
    (writeAt f off d)[i]? = if off ≤ i ∧ i < off + d.length then d[i - off]? else f[i]? := by
  have hpad : off + d.length ≤ (f ++ zeros (off + d.length - f.length)).length := by
    simp only [List.length_append, length_zeros]
    omega
  rw [writeAt, getElem?_splice hpad]
  by_cases h₁ : i < off
  · rw [if_pos h₁, if_neg (by omega), List.getElem?_append_left (by omega)]
  · by_cases h₂ : i < off + d.length
    · rw [if_neg h₁, if_pos h₂, if_pos (by omega)]
    · rw [if_neg h₁, if_neg h₂, if_neg (by omega)]
      by_cases h₃ : i < f.length
      · rw [List.getElem?_append_left h₃]
      · have hlen : (f ++ zeros (off + d.length - f.length)).length ≤ i := by
          simp only [List.length_append, length_zeros]
          omega
        rw [List.getElem?_eq_none hlen, List.getElem?_eq_none (by omega)]

/-- Two writes one behind the other. -/
theorem writeAt_append {f a b : Bytes} {off : ℕ} (h : off ≤ f.length) :
    writeAt (writeAt f off a) (off + a.length) b = writeAt f off (a ++ b) := by
  have hnext : off + a.length ≤ (writeAt f off a).length := by
    rw [length_writeAt]
    omega
  refine List.ext_getElem? fun i => ?_
  rw [getElem?_writeAt hnext, getElem?_writeAt h, getElem?_writeAt h, List.length_append]
  by_cases h₁ : off ≤ i ∧ i < off + a.length
  · rw [if_neg (by omega), if_pos h₁, if_pos (by omega), List.getElem?_append_left (by omega)]
  · rw [if_neg h₁]
    by_cases h₂ : off + a.length ≤ i ∧ i < off + a.length + b.length
    · rw [if_pos h₂, if_pos (by omega), List.getElem?_append_right (by omega)]
      congr 1
      omega
    · rw [if_neg h₂, if_neg (by omega)]

/-- A range that a write without a gap does not reach, whether or not the file has all of it. -/
theorem slice_writeAt_apart {f d : Bytes} {off o len : ℕ} (h : off ≤ f.length)
    (hdis : o + len ≤ off ∨ off + d.length ≤ o) :
    slice (writeAt f off d) o len = slice f o len := by
  refine List.ext_getElem? fun i => ?_
  rw [getElem?_slice, getElem?_slice, getElem?_writeAt h]
  by_cases hi : i < len
  · rw [if_pos hi, if_pos hi, if_neg (by omega)]
  · rw [if_neg hi, if_neg hi]

/-- A part of what was written. -/
theorem slice_writeAt_part {d : Bytes} (f : Bytes) (off : ℕ) {o len : ℕ} (h : o + len ≤ d.length) :
    slice (writeAt f off d) (off + o) len = slice d o len := by
  rw [← slice_slice h, slice_writeAt_self]

/-- The start of what was written. -/
theorem slice_writeAt_start {d : Bytes} (f : Bytes) (off : ℕ) {len : ℕ} (h : len ≤ d.length) :
    slice (writeAt f off d) off len = slice d 0 len :=
  slice_writeAt_part f off (o := 0) (by omega)

/-- A range within the part of a file that is kept. -/
theorem slice_take {f : Bytes} {n o len : ℕ} (h : o + len ≤ n) :
    slice (f.take n) o len = slice f o len := by
  rw [slice, slice, List.drop_take, List.take_take, min_eq_left (by omega)]

end Bytes
