import MultipleCiphers.Lib.Bytes
import Mathlib.Logic.Function.Iterate

/-!
# Sponges and iterated key derivation

A sponge keeps a state, takes a message in by blocks of a fixed rate, with its permutation between
the blocks, and gives bytes out by blocks of the same rate, again with the permutation between
them. Code that does this works on pointers and treats the last, partial block apart. This file
has the description without pointers: what is absorbed is the padded message, what is squeezed is
the beginning of an unending string.

PBKDF2 is of the same shape one level up: block `i` of its output is a combination of the values
of an iterated function, and a key is the beginning of the concatenated blocks. It is stated here
for any pseudo-random function.

## Main results

* `Bytes.firstOf_add` — the beginning of a concatenation, one block at a time.
* `Sponge.absorb_block`, `Sponge.absorb_short` — absorbing, one block at a time.
* `pbkdf2_take` — a shorter key is the beginning of a longer one.
-/

namespace Bytes

/-! ### The beginning of a concatenation -/

/-- The first `n` bytes of `f 0 ++ f 1 ++ f 2 ++ …`, for blocks of `r` bytes each. -/
def firstOf (r : ℕ) (f : ℕ → Bytes) (n : ℕ) : Bytes :=
  ((List.range (n / r + 1)).flatMap f).take n

section FirstOf

variable {r : ℕ} {f : ℕ → Bytes}

theorem length_flatMap_range (hf : ∀ i, (f i).length = r) (k : ℕ) :
    ((List.range k).flatMap f).length = k * r := by
  induction k with
  | zero => simp
  | succ k ih =>
    rw [List.range_succ, List.flatMap_append, List.length_append, ih]
    simp [hf, Nat.succ_mul]

theorem flatMap_range_succ (f : ℕ → Bytes) (k : ℕ) :
    (List.range (k + 1)).flatMap f = f 0 ++ (List.range k).flatMap fun i => f (i + 1) := by
  rw [List.range_succ_eq_map, List.flatMap_cons, List.flatMap_map]

theorem take_flatMap_range_add (hf : ∀ i, (f i).length = r) {n k : ℕ} (h : n ≤ k * r) (d : ℕ) :
    ((List.range (k + d)).flatMap f).take n = ((List.range k).flatMap f).take n := by
  rw [List.range_add, List.flatMap_append,
    List.take_append_of_le_length (by rwa [length_flatMap_range hf])]

/-- However many blocks are concatenated, as long as they are enough. -/
theorem take_flatMap_range (hf : ∀ i, (f i).length = r) (hr : 0 < r) {n k : ℕ} (h : n ≤ k * r) :
    ((List.range k).flatMap f).take n = firstOf r f n := by
  have hn : n ≤ (n / r + 1) * r := by
    rw [Nat.add_mul, Nat.one_mul, Nat.mul_comm]
    have := Nat.div_add_mod n r
    have := Nat.mod_lt n hr
    omega
  rw [firstOf]
  rcases Nat.le_total k (n / r + 1) with hle | hle
  · obtain ⟨d, hd⟩ := Nat.exists_eq_add_of_le hle
    rw [hd, take_flatMap_range_add hf h]
  · obtain ⟨d, rfl⟩ := Nat.exists_eq_add_of_le hle
    rw [take_flatMap_range_add hf hn]

theorem firstOf_of_le (hf : ∀ i, (f i).length = r) (hr : 0 < r) {n : ℕ} (h : n ≤ r) :
    firstOf r f n = (f 0).take n := by
  rw [← take_flatMap_range hf hr (k := 1) (by omega)]
  simp

/-- A whole first block, and then the rest. -/
theorem firstOf_add (hf : ∀ i, (f i).length = r) (hr : 0 < r) (n : ℕ) :
    firstOf r f (r + n) = f 0 ++ firstOf r (fun i => f (i + 1)) n := by
  rw [firstOf, Nat.add_div_left n hr, flatMap_range_succ, firstOf, ← hf 0,
    List.take_length_add_append, hf 0]

theorem length_firstOf (hf : ∀ i, (f i).length = r) (hr : 0 < r) (n : ℕ) :
    (firstOf r f n).length = n := by
  have hlt := Nat.mod_lt n hr
  have hdiv := Nat.div_add_mod n r
  rw [firstOf, List.length_take, length_flatMap_range hf, Nat.add_mul, Nat.mul_comm]
  omega

/-- A beginning of a beginning. -/
theorem take_firstOf (hf : ∀ i, (f i).length = r) (hr : 0 < r) {m n : ℕ} (h : m ≤ n) :
    (firstOf r f n).take m = firstOf r f m := by
  have hlt := Nat.mod_lt n hr
  have hdiv := Nat.div_add_mod n r
  rw [firstOf, List.take_take, Nat.min_eq_left h]
  refine take_flatMap_range hf hr ?_
  rw [Nat.add_mul, Nat.mul_comm]
  omega

/-- Blocks that are written one behind the other, of each what there is still room for. -/
theorem foldl_splice_blocks (hf : ∀ i, (f i).length = r) {out : Bytes} {n : ℕ}
    (h : n ≤ out.length) (k : ℕ) :
    (List.range k).foldl (fun out i => splice out (i * r) ((f i).take (min (n - i * r) r))) out =
      splice out 0 (((List.range k).flatMap f).take n) := by
  induction k with
  | zero => simp [splice]
  | succ k ih =>
    have hlen := length_flatMap_range hf k
    rw [List.range_succ, List.foldl_concat, ih, List.flatMap_append, List.flatMap_singleton]
    rcases Nat.le_total (k * r) n with hle | hle
    · have htake : (f k).take (min (n - k * r) r) = (f k).take (n - k * r) := by
        rw [← hf k, ← List.take_take, List.take_length]
      rw [htake, List.take_append,
        List.take_of_length_le (l := (List.range k).flatMap f) (by omega),
        hlen, ← splice_splice_next, hlen, Nat.zero_add]
      rw [hlen, List.length_take]
      omega
    · rw [Nat.sub_eq_zero_of_le hle, Nat.zero_min, List.take_zero, List.take_append_of_le_length
        (by omega), splice, List.append_nil, List.length_nil, Nat.add_zero, List.take_append_drop]

end FirstOf

end Bytes

/-! ### Sponges -/

/-- A sponge over states `σ`: a permutation, and a part of the state (`rate` bytes) that blocks are
combined into and read from. -/
structure Sponge (σ : Type*) where
  rate : ℕ
  permute : σ → σ
  inject : σ → Bytes → σ
  extract : σ → Bytes
  rate_pos : 0 < rate
  length_extract : ∀ s, (extract s).length = rate

namespace Sponge

variable {σ : Type*} (S : Sponge σ)

/-- A message with a byte `0x80` behind it, filled up with zeros to whole blocks. -/
def pad (m : Bytes) : Bytes := m ++ 0x80 :: Bytes.zeros (S.rate - 1 - m.length % S.rate)

/-- The state after the first `k` blocks of a string, each followed by the permutation. -/
def absorbed (s : σ) (b : Bytes) : ℕ → σ
  | 0 => s
  | k + 1 => S.permute (S.inject (absorbed s b k) (Bytes.slice b (k * S.rate) S.rate))

/-- A message taken in. The permutation after the last block belongs to what comes next. -/
def absorb (s : σ) (m : Bytes) : σ :=
  let k := m.length / S.rate
  S.inject (S.absorbed s (S.pad m) k) (Bytes.slice (S.pad m) (k * S.rate) S.rate)

/-- The first `n` bytes given out. -/
def squeeze (s : σ) (n : ℕ) : Bytes :=
  Bytes.firstOf S.rate (fun i => S.extract (S.permute^[i] s)) n

theorem length_squeeze (s : σ) (n : ℕ) : (S.squeeze s n).length = n :=
  Bytes.length_firstOf (fun _ => S.length_extract _) S.rate_pos n

theorem squeeze_of_le (s : σ) {n : ℕ} (h : n ≤ S.rate) :
    S.squeeze s n = (S.extract s).take n :=
  Bytes.firstOf_of_le (fun _ => S.length_extract _) S.rate_pos h

theorem squeeze_add (s : σ) (n : ℕ) :
    S.squeeze s (S.rate + n) = S.extract s ++ S.squeeze (S.permute s) n :=
  Bytes.firstOf_add (f := fun i => S.extract (S.permute^[i] s)) (fun _ => S.length_extract _)
    S.rate_pos n

theorem pad_append {b : Bytes} (hb : b.length = S.rate) (m : Bytes) :
    S.pad (b ++ m) = b ++ S.pad m := by
  rw [pad, pad, List.length_append, hb, Nat.add_mod_left, List.append_assoc]

/-- What is absorbed behind a first block is absorbed from the state after that block. -/
theorem absorbed_append {b : Bytes} (hb : b.length = S.rate) (s : σ) (m : Bytes) (k : ℕ) :
    S.absorbed s (b ++ m) (k + 1) = S.absorbed (S.permute (S.inject s b)) m k := by
  induction k with
  | zero =>
    rw [absorbed, absorbed, absorbed, Nat.zero_mul, Bytes.slice_append_left m (by omega),
      Bytes.slice_full hb]
  | succ k ih =>
    rw [absorbed, ih, absorbed, Nat.succ_mul, Nat.add_comm (k * S.rate), ← hb,
      Bytes.slice_append_right, hb]

/-- Absorbing takes a message block by block. -/
theorem absorb_block {b : Bytes} (hb : b.length = S.rate) (s : σ) (m : Bytes) :
    S.absorb s (b ++ m) = S.absorb (S.permute (S.inject s b)) m := by
  simp only [absorb]
  rw [List.length_append, hb, Nat.add_div_left _ S.rate_pos, S.pad_append hb,
    S.absorbed_append hb, Nat.succ_mul, Nat.add_comm _ S.rate, ← hb, Bytes.slice_append_right, hb]

/-- What is left at the end, less than a block, is absorbed padded. -/
theorem absorb_short {m : Bytes} (h : m.length < S.rate) (s : σ) :
    S.absorb s m = S.inject s (S.pad m) := by
  simp only [absorb]
  rw [Nat.div_eq_of_lt h, absorbed, Nat.zero_mul, Bytes.slice_full]
  rw [pad, List.length_append, List.length_cons, Bytes.length_zeros, Nat.mod_eq_of_lt h]
  omega

end Sponge

/-! ### PBKDF2 -/

section Pbkdf2

variable (prf : Bytes → Bytes)

/-- `U₁ xor … xor Uₖ` for `k = 1, 2, …`, where `Uⱼ` is the function applied `j` times to `x`. -/
def pbkdf2Block (x : Bytes) : ℕ → Bytes
  | 0 => []
  | 1 => prf x
  | k + 2 => Bytes.xorBytes (pbkdf2Block x (k + 1)) (prf^[k + 2] x)

/-- The first `n` bytes of the blocks for `salt` and `1`, `salt` and `2`, and so on, the block
number being four bytes, the highest first. -/
def pbkdf2 (r : ℕ) (salt : Bytes) (count n : ℕ) : Bytes :=
  Bytes.firstOf r (fun i => pbkdf2Block prf (salt ++ Bytes.put4byte (i + 1)) count) n

variable {prf} {r : ℕ}

theorem length_pbkdf2Block (hprf : ∀ x, (prf x).length = r) (x : Bytes) (k : ℕ) :
    (pbkdf2Block prf x (k + 1)).length = r := by
  induction k with
  | zero => exact hprf x
  | succ k ih =>
    rw [pbkdf2Block, Bytes.length_xorBytes, ih, Function.iterate_succ_apply', hprf, Nat.min_self]

theorem length_pbkdf2 (hprf : ∀ x, (prf x).length = r) (hr : 0 < r) (salt : Bytes) {count : ℕ}
    (hcount : 1 ≤ count) (n : ℕ) : (pbkdf2 prf r salt count n).length = n := by
  obtain ⟨k, rfl⟩ := Nat.exists_eq_add_of_le' hcount
  exact Bytes.length_firstOf (fun _ => length_pbkdf2Block hprf _ k) hr n

/-- A shorter key is the beginning of a longer one. -/
theorem pbkdf2_take (hprf : ∀ x, (prf x).length = r) (hr : 0 < r) (salt : Bytes) {count : ℕ}
    (hcount : 1 ≤ count) {m n : ℕ} (h : m ≤ n) :
    (pbkdf2 prf r salt count n).take m = pbkdf2 prf r salt count m := by
  obtain ⟨k, rfl⟩ := Nat.exists_eq_add_of_le' hcount
  exact Bytes.take_firstOf (fun _ => length_pbkdf2Block hprf _ k) hr h

end Pbkdf2
