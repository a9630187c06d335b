import MultipleCiphers.Lib.Bytes
import Mathlib.Data.Nat.Digits.Lemmas

/-!
# Words in byte strings

A C program puts a word together from bytes with shifts and ors, and masks parts of it out again.
Here each such operation has its meaning in numbers: a byte string is the number whose digits to
base 256 are its bytes, the lowest first; a word at an offset is a quotient and a remainder of that
number; a mask of low bits is a remainder. What is left of a proof about limbs and carries is then
linear arithmetic.

A read behind the end of a string delivers zeros, as the number itself does.

## Main results

* `toNat_getD`, `leNat_slice` — digits and parts of the number.
* `leNat_leBytes`, `leBytes_leNat` — numbers and byte strings of a length.
* `toNat_load32`, `store32_eq` — words of 32 bits, the lowest byte first.
-/

namespace Bytes

/-! ### The number of a byte string -/

/-- The number whose digits are the bytes, the lowest first. -/
def leNat (b : Bytes) : ℕ := Nat.ofDigits 256 (b.map (·.toNat))

@[simp] theorem leNat_nil : leNat [] = 0 := rfl

@[simp] theorem leNat_cons (x : UInt8) (b : Bytes) : leNat (x :: b) = x.toNat + 256 * leNat b := by
  simp [leNat, Nat.ofDigits_cons]

theorem leNat_append (a b : Bytes) : leNat (a ++ b) = leNat a + 256 ^ a.length * leNat b := by
  simp [leNat, Nat.ofDigits_append]

theorem leNat_lt (b : Bytes) : leNat b < 256 ^ b.length := by
  have h := Nat.ofDigits_lt_base_pow_length (b := 256) (l := b.map (·.toNat)) (by decide) (by
    intro x hx
    obtain ⟨y, -, rfl⟩ := List.mem_map.mp hx
    exact y.toNat_lt)
  rwa [List.length_map] at h

@[simp] theorem leNat_zeros (n : ℕ) : leNat (zeros n) = 0 := by
  induction n with
  | zero => rfl
  | succ n ih => rw [zeros, List.replicate_succ, leNat_cons, ← zeros, ih]; rfl

/-- A byte is a digit. -/
theorem toNat_getD (b : Bytes) (i : ℕ) : (b.getD i 0).toNat = leNat b / 256 ^ i % 256 := by
  induction b generalizing i with
  | nil => simp
  | cons x b ih =>
    have hx := x.toNat_lt
    rw [leNat_cons]
    cases i with
    | zero =>
      rw [List.getD_cons_zero, pow_zero, Nat.div_one]
      omega
    | succ i =>
      rw [List.getD_cons_succ, ih, pow_succ', ← Nat.div_div_eq_div_mul]
      congr 2
      omega

theorem leNat_drop (b : Bytes) (k : ℕ) : leNat (b.drop k) = leNat b / 256 ^ k := by
  induction b generalizing k with
  | nil => simp
  | cons x b ih =>
    have hx := x.toNat_lt
    cases k with
    | zero => simp
    | succ k =>
      rw [List.drop_succ_cons, ih, leNat_cons, pow_succ', ← Nat.div_div_eq_div_mul]
      congr 1
      omega

theorem leNat_take (b : Bytes) (k : ℕ) : leNat (b.take k) = leNat b % 256 ^ k := by
  rcases Nat.lt_or_ge k b.length with h | h
  · have hlen : (b.take k).length = k := by rw [List.length_take, Nat.min_eq_left h.le]
    have hlt := leNat_lt (b.take k)
    rw [hlen] at hlt
    conv_rhs => rw [← List.take_append_drop k b, leNat_append, hlen, Nat.add_mul_mod_self_left]
    exact (Nat.mod_eq_of_lt hlt).symm
  · rw [List.take_of_length_le h, Nat.mod_eq_of_lt]
    exact (leNat_lt b).trans_le (Nat.pow_le_pow_right (by decide) h)

theorem leNat_slice (b : Bytes) (off len : ℕ) :
    leNat (slice b off len) = leNat b / 256 ^ off % 256 ^ len := by
  rw [slice, leNat_take, leNat_drop]

/-- The `k` lowest bytes of `n`, the lowest first. -/
def leBytes (k n : ℕ) : Bytes := (List.range k).map fun i => UInt8.ofNat (n / 256 ^ i)

@[simp] theorem length_leBytes (k n : ℕ) : (leBytes k n).length = k := by simp [leBytes]

theorem leBytes_succ (k n : ℕ) : leBytes (k + 1) n = UInt8.ofNat n :: leBytes k (n / 256) := by
  rw [leBytes, List.range_succ_eq_map, List.map_cons, List.map_map, pow_zero, Nat.div_one, leBytes]
  congr 1
  refine List.map_congr_left fun i _ => ?_
  rw [Function.comp_apply, Nat.succ_eq_add_one, pow_succ', ← Nat.div_div_eq_div_mul]

theorem leBytes_add (j k n : ℕ) : leBytes (j + k) n = leBytes j n ++ leBytes k (n / 256 ^ j) := by
  induction j generalizing n with
  | zero => simp [leBytes]
  | succ j ih =>
    rw [Nat.add_right_comm, leBytes_succ, ih, leBytes_succ, pow_succ', Nat.div_div_eq_div_mul]
    rfl

@[simp] theorem leNat_leBytes (k n : ℕ) : leNat (leBytes k n) = n % 256 ^ k := by
  induction k generalizing n with
  | zero => simp [leBytes, Nat.mod_one]
  | succ k ih =>
    rw [leBytes_succ, leNat_cons, ih, UInt8.toNat_ofNat', show 256 ^ (k + 1) = 256 * 256 ^ k from
      pow_succ' _ _, Nat.mod_mul]

theorem leBytes_mod (k n : ℕ) : leBytes k (n % 256 ^ k) = leBytes k n := by
  induction k generalizing n with
  | zero => rfl
  | succ k ih =>
    rw [leBytes_succ, leBytes_succ, pow_succ', Nat.mod_mul_right_div_self, ih]
    congr 1
    exact UInt8.toNat_inj.mp (by simp [UInt8.toNat_ofNat'])

/-- Byte strings of one length with the same number are equal. -/
theorem eq_of_leNat {a b : Bytes} (hlen : a.length = b.length) (h : leNat a = leNat b) : a = b := by
  induction a generalizing b with
  | nil => exact (List.eq_nil_of_length_eq_zero hlen.symm).symm
  | cons x a ih =>
    cases b with
    | nil => cases hlen
    | cons y b =>
      rw [leNat_cons, leNat_cons] at h
      have hx := x.toNat_lt
      have hy := y.toNat_lt
      rw [UInt8.toNat_inj.mp (show x.toNat = y.toNat by omega),
        ih (Nat.succ_injective hlen) (by omega)]

theorem leBytes_leNat {b : Bytes} {k : ℕ} (h : b.length = k) : leBytes k (leNat b) = b := by
  refine eq_of_leNat (by rw [length_leBytes, h]) ?_
  have hlt := leNat_lt b
  rw [h] at hlt
  rw [leNat_leBytes, Nat.mod_eq_of_lt hlt]

theorem leBytes_four (n : ℕ) : leBytes 4 n = store32LE n := by
  simp [leBytes, store32LE, List.range_succ]

/-- The `k` lowest bytes of `n`, the highest of them first. -/
def beBytes (k n : ℕ) : Bytes := (leBytes k n).reverse

@[simp] theorem length_beBytes (k n : ℕ) : (beBytes k n).length = k := by simp [beBytes]

theorem beBytes_add (j k n : ℕ) : beBytes (j + k) n = beBytes k (n / 256 ^ j) ++ beBytes j n := by
  rw [beBytes, leBytes_add, List.reverse_append, beBytes, beBytes]

theorem leBytes_zero (k : ℕ) : leBytes k 0 = zeros k := by
  induction k with
  | zero => rfl
  | succ k ih =>
    rw [leBytes_succ, Nat.zero_div, ih]
    rfl

/-- A number that fits into the last bytes. -/
theorem beBytes_of_lt {j n : ℕ} (h : n < 256 ^ j) (k : ℕ) :
    beBytes (j + k) n = zeros k ++ beBytes j n := by
  rw [beBytes_add, Nat.div_eq_of_lt h, beBytes, leBytes_zero, zeros, List.reverse_replicate]

theorem beBytes_mod (k n : ℕ) : beBytes k (n % 256 ^ k) = beBytes k n := by
  rw [beBytes, leBytes_mod, beBytes]

theorem beBytes_four (n : ℕ) : beBytes 4 n = put4byte n := by
  simp [beBytes, leBytes, put4byte, List.range_succ]

/-! ### Words of 32 bits, the lowest byte first -/

/-- `LOAD32_LE(p + off)`. -/
def load32 (b : Bytes) (off : ℕ) : UInt32 :=
  (b.getD off 0).toUInt32 ||| (b.getD (off + 1) 0).toUInt32 <<< 8 |||
    (b.getD (off + 2) 0).toUInt32 <<< 16 ||| (b.getD (off + 3) 0).toUInt32 <<< 24

/-- `STORE32_LE(p, v)`. -/
def store32 (v : UInt32) : Bytes :=
  [v.toUInt8, (v >>> 8).toUInt8, (v >>> 16).toUInt8, (v >>> 24).toUInt8]

@[simp] theorem length_store32 (v : UInt32) : (store32 v).length = 4 := rfl

/-- Disjoint bits: what is below `2 ^ i` and multiples of it. -/
theorem or_eq_add_of_lt {a i : ℕ} (h : a < 2 ^ i) (n : ℕ) : a ||| 2 ^ i * n = a + 2 ^ i * n := by
  rw [Nat.or_comm, ← Nat.two_pow_add_eq_or_of_lt h, Nat.add_comm]

/-- A byte moved up inside a word. -/
theorem toNat_shifted (x : UInt8) {s : UInt32} {k : ℕ} (hs : s.toNat = k) (hk : k ≤ 24) :
    (x.toUInt32 <<< s).toNat = 2 ^ k * x.toNat := by
  have hx := x.toNat_lt
  have hle : x.toNat * 2 ^ k ≤ 255 * 2 ^ 24 :=
    Nat.mul_le_mul (by omega) (Nat.pow_le_pow_right (by decide) hk)
  rw [UInt32.toNat_shiftLeft, UInt8.toNat_toUInt32, hs, Nat.mod_eq_of_lt (show k < 32 by omega),
    Nat.shiftLeft_eq, Nat.mod_eq_of_lt (by omega), Nat.mul_comm]

/-- A byte taken out of a word. -/
theorem toUInt8_shifted (v : UInt32) {s : UInt32} {k : ℕ} (hs : s.toNat = k) (hk : k < 32) :
    (v >>> s).toUInt8 = UInt8.ofNat (v.toNat / 2 ^ k) := by
  refine UInt8.toNat_inj.mp ?_
  rw [UInt32.toNat_toUInt8, UInt32.toNat_shiftRight, hs, Nat.mod_eq_of_lt hk,
    Nat.shiftRight_eq_div_pow, UInt8.toNat_ofNat']

theorem toNat_load32 (b : Bytes) (off : ℕ) :
    (load32 b off).toNat = leNat b / 256 ^ off % 2 ^ 32 := by
  have h₀ := toNat_getD b off
  have h₁ := toNat_getD b (off + 1)
  have h₂ := toNat_getD b (off + 2)
  have h₃ := toNat_getD b (off + 3)
  simp only [pow_add, ← Nat.div_div_eq_div_mul] at h₁ h₂ h₃
  have hb := (b.getD off 0).toNat_lt
  have hb₁ := (b.getD (off + 1) 0).toNat_lt
  have hb₂ := (b.getD (off + 2) 0).toNat_lt
  rw [load32, UInt32.toNat_or, UInt32.toNat_or, UInt32.toNat_or, UInt8.toNat_toUInt32,
    toNat_shifted _ (k := 8) rfl (by decide), toNat_shifted _ (k := 16) rfl (by decide),
    toNat_shifted _ (k := 24) rfl (by decide), or_eq_add_of_lt (i := 8) (by omega),
    or_eq_add_of_lt (i := 16) (by omega), or_eq_add_of_lt (i := 24) (by omega), h₀, h₁, h₂, h₃]
  omega

theorem store32_eq (v : UInt32) : store32 v = leBytes 4 v.toNat := by
  have h₀ : v.toUInt8 = UInt8.ofNat v.toNat := UInt8.toNat_inj.mp (by simp)
  rw [store32, h₀, toUInt8_shifted v (k := 8) rfl (by decide),
    toUInt8_shifted v (k := 16) rfl (by decide), toUInt8_shifted v (k := 24) rfl (by decide)]
  simp only [leBytes_succ, Nat.div_div_eq_div_mul]
  rfl

theorem store32_load32 {b : Bytes} {off : ℕ} (h : off + 4 ≤ b.length) :
    store32 (load32 b off) = slice b off 4 := by
  rw [store32_eq, toNat_load32, ← leBytes_leNat (length_slice_of_le h), leNat_slice]
  rfl

theorem store32_xor (v w : UInt32) : store32 (v ^^^ w) = xorBytes (store32 v) (store32 w) := by
  simp only [store32, UInt32.toUInt8_xor, UInt32.shiftRight_xor]
  rfl

/-! ### Words of 32 bits, the highest byte first -/

/-- The word at an offset. -/
def load32be (b : Bytes) (off : ℕ) : UInt32 :=
  (b.getD (off + 3) 0).toUInt32 ||| (b.getD (off + 2) 0).toUInt32 <<< 8 |||
    (b.getD (off + 1) 0).toUInt32 <<< 16 ||| (b.getD off 0).toUInt32 <<< 24

/-- `write32_be`. -/
def store32be (v : UInt32) : Bytes :=
  [(v >>> 24).toUInt8, (v >>> 16).toUInt8, (v >>> 8).toUInt8, v.toUInt8]

@[simp] theorem length_store32be (v : UInt32) : (store32be v).length = 4 := rfl

theorem store32be_xor (v w : UInt32) :
    store32be (v ^^^ w) = xorBytes (store32be v) (store32be w) := by
  simp only [store32be, UInt32.toUInt8_xor, UInt32.shiftRight_xor]
  rfl

/-! ### Strings of words -/

/-- Of the second string only as much matters as the first is long. -/
theorem xorBytes_take_right {a : Bytes} {n : ℕ} (h : a.length ≤ n) (b : Bytes) :
    xorBytes a (b.take n) = xorBytes a b := by
  rw [← List.take_of_length_le h, ← take_xorBytes, List.take_of_length_le]
  · rw [List.take_of_length_le h]
  · rw [length_xorBytes]
    exact (Nat.min_le_left _ _).trans h

theorem xorBytes_append {a b c d : Bytes} (h : a.length = c.length) :
    xorBytes (a ++ b) (c ++ d) = xorBytes a c ++ xorBytes b d :=
  List.zipWith_append h

/-- Words that take `k` bytes each. -/
theorem length_flatMap_words {α : Type*} {f : α → Bytes} {k : ℕ} (hf : ∀ w, (f w).length = k)
    (ws : List α) : (ws.flatMap f).length = k * ws.length := by
  induction ws with
  | nil => rfl
  | cons w ws ih =>
    rw [List.flatMap_cons, List.length_append, ih, hf, List.length_cons, Nat.mul_succ, Nat.add_comm]

/-- Words combined, and then written, or the other way round. -/
theorem flatMap_zipWith_xor {α : Type*} {f : α → Bytes} {g : α → α → α} {k : ℕ}
    (hf : ∀ w, (f w).length = k) (hg : ∀ v w, f (g v w) = xorBytes (f v) (f w)) (vs ws : List α) :
    (List.zipWith g vs ws).flatMap f = xorBytes (vs.flatMap f) (ws.flatMap f) := by
  induction vs generalizing ws with
  | nil => rfl
  | cons v vs ih =>
    cases ws with
    | nil => exact (List.zipWith_nil_right).symm
    | cons w ws =>
      rw [List.zipWith_cons_cons, List.flatMap_cons, List.flatMap_cons, List.flatMap_cons, hg, ih,
        xorBytes_append (by rw [hf, hf])]

@[simp] theorem length_flatMap_store32 (ws : List UInt32) :
    (ws.flatMap store32).length = 4 * ws.length :=
  length_flatMap_words length_store32 ws

end Bytes
