import MultipleCiphers.Lib.Words
import Mathlib.Data.Nat.ModEq
import Mathlib.Algebra.BigOperators.Ring.Finset

/-!
# Poly1305

`poly1305` computes the authentication tag of the ChaCha20 and the VLE ciphers: the blocks of the
message are the coefficients of a polynomial, which is evaluated modulo `2 ^ 130 - 5` at a number
taken from the key. The code keeps all numbers in five limbs of 26 bits. Products are 64 bits wide,
carries go upwards once, the last one wraps around with a factor 5, and nothing is reduced
completely before the end. So the lowest limb is regularly larger than 26 bits, and whether 32 and
64 bits are enough is a matter of numbers.

The description to compare it with, `poly1305Value`, has no limbs.

## Main results

* `Poly1305Limbs.Bounded.block` — the limbs stay within their bounds, so that nothing overflows, and
  a block is a step of the evaluation modulo `2 ^ 130 - 5`.
* `poly1305_eq` — the tag of every message under every key.
-/

namespace MultipleCiphers

open Bytes

/-! ### The code -/

/-- `h0` to `h4` and `r0` to `r4`. -/
structure Poly1305Limbs where
  l0 : UInt32
  l1 : UInt32
  l2 : UInt32
  l3 : UInt32
  l4 : UInt32
  deriving DecidableEq, Repr

/-- `d0` to `d4`. -/
structure Poly1305Products where
  d0 : UInt64
  d1 : UInt64
  d2 : UInt64
  d3 : UInt64
  d4 : UInt64

/-- The limbs of the key, with the bits cleared that the algorithm wants cleared. -/
def poly1305Key (key : Bytes) : Poly1305Limbs where
  l0 := load32 key 0 >>> 0 &&& 0x03FFFFFF
  l1 := load32 key 3 >>> 2 &&& 0x03FFFF03
  l2 := load32 key 6 >>> 4 &&& 0x03FFC0FF
  l3 := load32 key 9 >>> 6 &&& 0x03F03FFF
  l4 := load32 key 12 >>> 8 &&& 0x000FFFFF

/-- `MUL(a,b)`. -/
def poly1305MUL (a b : UInt32) : UInt64 := a.toUInt64 * b.toUInt64

namespace Poly1305Limbs

/-- The sixteen bytes at `msg` added. -/
def addBlock (h : Poly1305Limbs) (msg : Bytes) : Poly1305Limbs where
  l0 := h.l0 + (load32 msg 0 >>> 0 &&& 0x03FFFFFF)
  l1 := h.l1 + (load32 msg 3 >>> 2 &&& 0x03FFFFFF)
  l2 := h.l2 + (load32 msg 6 >>> 4 &&& 0x03FFFFFF)
  l3 := h.l3 + (load32 msg 9 >>> 6 &&& 0x03FFFFFF)
  l4 := h.l4 + load32 msg 12 >>> 8

/-- The product with the key, the limbs above the fifth folded back with a factor 5. -/
def products (h r : Poly1305Limbs) : Poly1305Products :=
  let s1 := r.l1 * 5
  let s2 := r.l2 * 5
  let s3 := r.l3 * 5
  let s4 := r.l4 * 5
  { d0 := poly1305MUL h.l0 r.l0 + poly1305MUL h.l1 s4 + poly1305MUL h.l2 s3 +
      poly1305MUL h.l3 s2 + poly1305MUL h.l4 s1
    d1 := poly1305MUL h.l0 r.l1 + poly1305MUL h.l1 r.l0 + poly1305MUL h.l2 s4 +
      poly1305MUL h.l3 s3 + poly1305MUL h.l4 s2
    d2 := poly1305MUL h.l0 r.l2 + poly1305MUL h.l1 r.l1 + poly1305MUL h.l2 r.l0 +
      poly1305MUL h.l3 s4 + poly1305MUL h.l4 s3
    d3 := poly1305MUL h.l0 r.l3 + poly1305MUL h.l1 r.l2 + poly1305MUL h.l2 r.l1 +
      poly1305MUL h.l3 r.l0 + poly1305MUL h.l4 s4
    d4 := poly1305MUL h.l0 r.l4 + poly1305MUL h.l1 r.l3 + poly1305MUL h.l2 r.l2 +
      poly1305MUL h.l3 r.l1 + poly1305MUL h.l4 r.l0 }

end Poly1305Limbs

/-- The carries. -/
def Poly1305Products.carry (d : Poly1305Products) : Poly1305Limbs :=
  let h0 := (d.d0 &&& 0x03FFFFFF).toUInt32
  let d1 := d.d1 + d.d0 >>> 26
  let h1 := (d1 &&& 0x03FFFFFF).toUInt32
  let d2 := d.d2 + d1 >>> 26
  let h2 := (d2 &&& 0x03FFFFFF).toUInt32
  let d3 := d.d3 + d2 >>> 26
  let h3 := (d3 &&& 0x03FFFFFF).toUInt32
  let d4 := d.d4 + d3 >>> 26
  let h4 := (d4 &&& 0x03FFFFFF).toUInt32
  { l0 := h0 + (d4 >>> 26).toUInt32 * 5, l1 := h1, l2 := h2, l3 := h3, l4 := h4 }

/-- What follows the label `process_block`. -/
def Poly1305Limbs.processBlock (h r : Poly1305Limbs) (msg : Bytes) : Poly1305Limbs :=
  ((h.addBlock msg).products r).carry

/-- The loop over the whole blocks, and the rest of the message. -/
def poly1305Blocks (r h : Poly1305Limbs) (msg : Bytes) : Poly1305Limbs × Bytes :=
  if 16 ≤ msg.length then
    poly1305Blocks r ({ h with l4 := h.l4 + 0x01000000 }.processBlock r msg) (msg.drop 16)
  else (h, msg)
  termination_by msg.length

/-- The accumulator after a message. A rest of less than a block is put into `tag`, filled up with
`1` and zeros, and processed from the label on. -/
def poly1305Accumulate (r : Poly1305Limbs) (msg : Bytes) : Poly1305Limbs :=
  let (h, rest) := poly1305Blocks r ⟨0, 0, 0, 0, 0⟩ msg
  if rest.length ≠ 0 then h.processBlock r (rest ++ 1 :: zeros (15 - rest.length)) else h

/-- The final reduction, and the second half of the key added. -/
def Poly1305Limbs.finish (h : Poly1305Limbs) (key : Bytes) : Bytes :=
  let r0 := (h.l0 + 5) >>> 26
  let r1 := (h.l1 + r0) >>> 26
  let r2 := (h.l2 + r1) >>> 26
  let r3 := (h.l3 + r2) >>> 26
  let r4 := (h.l4 + r3) >>> 26
  let h0 := h.l0 + r4 * 5
  let d1 := (load32 key 16).toUInt64 + (h0 >>> 0).toUInt64 + (h.l1 <<< 26).toUInt64
  let d2 := (load32 key 20).toUInt64 + (h.l1 >>> 6).toUInt64 + (h.l2 <<< 20).toUInt64 + d1 >>> 32
  let d3 := (load32 key 24).toUInt64 + (h.l2 >>> 12).toUInt64 + (h.l3 <<< 14).toUInt64 + d2 >>> 32
  let d4 := (load32 key 28).toUInt64 + (h.l3 >>> 18).toUInt64 + (h.l4 <<< 8).toUInt64 + d3 >>> 32
  store32 d1.toUInt32 ++ store32 d2.toUInt32 ++ store32 d3.toUInt32 ++ store32 d4.toUInt32

/-- `poly1305`. -/
def poly1305 (msg key : Bytes) : Bytes := (poly1305Accumulate (poly1305Key key) msg).finish key

/-! ### The polynomial -/

/-- `2 ^ 130 - 5`. -/
def poly1305Prime : ℕ := 2 ^ 130 - 5

theorem poly1305Prime_eq : poly1305Prime = 1361129467683753853853498429727072845819 := rfl

/-- The key as a number: the first half, with 22 of its bits cleared. -/
def poly1305R (key : Bytes) : ℕ := leNat key &&& 0x0ffffffc0ffffffc0ffffffc0fffffff

/-- Block `i` of the message as a number, a byte `1` behind it. -/
def poly1305Coefficient (msg : Bytes) (i : ℕ) : ℕ := leNat (slice msg (16 * i) 16 ++ [1])

/-- The polynomial of a message, at `r`. -/
def poly1305Value (r : ℕ) (msg : Bytes) : ℕ :=
  let q := (msg.length + 15) / 16
  ∑ i ∈ Finset.range q, poly1305Coefficient msg i * r ^ (q - i)

/-- The tag as a number. -/
def poly1305Tag (msg key : Bytes) : ℕ :=
  (poly1305Value (poly1305R key) msg % poly1305Prime + leNat key / 2 ^ 128) % 2 ^ 128

/-! ### Limbs as numbers -/

namespace Poly1305Limbs

/-- The number in the limbs. -/
def value (h : Poly1305Limbs) : ℕ :=
  h.l0.toNat + 2 ^ 26 * h.l1.toNat + 2 ^ 52 * h.l2.toNat + 2 ^ 78 * h.l3.toNat +
    2 ^ 104 * h.l4.toNat

/-- The limbs of the accumulator between two blocks. The lowest one takes the carry out of the
highest, five times. -/
structure Bounded (h : Poly1305Limbs) : Prop where
  l0 : h.l0.toNat < 43 * 2 ^ 26
  l1 : h.l1.toNat < 2 ^ 26
  l2 : h.l2.toNat < 2 ^ 26
  l3 : h.l3.toNat < 2 ^ 26
  l4 : h.l4.toNat < 2 ^ 26

/-- The limbs with a block added. -/
structure Added (h : Poly1305Limbs) : Prop where
  l0 : h.l0.toNat < 44 * 2 ^ 26
  l1 : h.l1.toNat < 2 ^ 27
  l2 : h.l2.toNat < 2 ^ 27
  l3 : h.l3.toNat < 2 ^ 27
  l4 : h.l4.toNat < 2 ^ 26 + 2 ^ 25

/-- The limbs of a key. -/
structure Clamped (r : Poly1305Limbs) : Prop where
  l0 : r.l0.toNat < 2 ^ 26
  l1 : r.l1.toNat < 2 ^ 26
  l2 : r.l2.toNat < 2 ^ 26
  l3 : r.l3.toNat < 2 ^ 26
  l4 : r.l4.toNat < 2 ^ 20

end Poly1305Limbs

/-- A mask sees only the bits below its length. -/
theorem mod_and_of_lt {m j : ℕ} (hm : m < 2 ^ j) (x : ℕ) : x % 2 ^ j &&& m = x &&& m := by
  have hand : x &&& m < 2 ^ j := Nat.and_le_right.trans_lt hm
  rw [← Nat.mod_eq_of_lt hand, Nat.and_mod_two_pow, Nat.mod_eq_of_lt hm]

/-- A shifted and masked word is a masked quotient of the whole number. -/
theorem toNat_limb (b : Bytes) (off : ℕ) {k i : ℕ} {s m : UInt32} (hs : s.toNat = k) (hk : k < 32)
    (hi : 8 * off + k = i) (hm : m.toNat < 2 ^ (32 - k)) :
    (load32 b off >>> s &&& m).toNat = leNat b / 2 ^ i &&& m.toNat := by
  have hword : leNat b / 256 ^ off % 2 ^ 32 / 2 ^ k = leNat b / 2 ^ i % 2 ^ (32 - k) := by
    rw [show 2 ^ 32 = 2 ^ k * 2 ^ (32 - k) by rw [← pow_add]; congr 1; omega,
      Nat.mod_mul_right_div_self, Nat.div_div_eq_div_mul, show 256 = 2 ^ 8 by rfl, ← pow_mul,
      ← pow_add, hi]
  rw [UInt32.toNat_and, UInt32.toNat_shiftRight, toNat_load32, hs, Nat.mod_eq_of_lt hk,
    Nat.shiftRight_eq_div_pow, hword, mod_and_of_lt hm]

/-- The part of 26 bits of a number, masked on both sides. -/
theorem and_part (n m i : ℕ) :
    (n &&& m) / 2 ^ i % 2 ^ 26 = n / 2 ^ i &&& (m / 2 ^ i % 2 ^ 26) := by
  rw [Nat.and_div_two_pow, Nat.and_mod_two_pow, mod_and_of_lt (Nat.mod_lt _ (by decide))]

/-- A number below `2 ^ 130` in its five parts. -/
theorem eq_parts {n : ℕ} (h : n < 2 ^ 130) :
    n / 2 ^ 0 % 2 ^ 26 + 2 ^ 26 * (n / 2 ^ 26 % 2 ^ 26) + 2 ^ 52 * (n / 2 ^ 52 % 2 ^ 26) +
      2 ^ 78 * (n / 2 ^ 78 % 2 ^ 26) + 2 ^ 104 * (n / 2 ^ 104 % 2 ^ 26) = n := by
  omega

theorem value_poly1305Key (key : Bytes) : (poly1305Key key).value = poly1305R key := by
  have h₀ := toNat_limb key 0 (s := 0) (m := 0x03FFFFFF) rfl (by decide) rfl (by decide)
  have h₁ := toNat_limb key 3 (s := 2) (m := 0x03FFFF03) rfl (by decide) rfl (by decide)
  have h₂ := toNat_limb key 6 (s := 4) (m := 0x03FFC0FF) rfl (by decide) rfl (by decide)
  have h₃ := toNat_limb key 9 (s := 6) (m := 0x03F03FFF) rfl (by decide) rfl (by decide)
  have h₄ := toNat_limb key 12 (s := 8) (m := 0x000FFFFF) rfl (by decide) rfl (by decide)
  have hlt : poly1305R key < 2 ^ 130 := Nat.and_le_right.trans_lt (by decide)
  have hpart : ∀ i, poly1305R key / 2 ^ i % 2 ^ 26 =
      leNat key / 2 ^ i &&& (0x0ffffffc0ffffffc0ffffffc0fffffff / 2 ^ i % 2 ^ 26) := and_part _ _
  rw [← eq_parts hlt, Poly1305Limbs.value, poly1305Key, h₀, h₁, h₂, h₃, h₄, hpart, hpart, hpart,
    hpart, hpart]
  rfl

theorem clamped_poly1305Key (key : Bytes) : (poly1305Key key).Clamped where
  l0 := by
    rw [poly1305Key, UInt32.toNat_and]
    exact Nat.and_le_right.trans_lt (by decide)
  l1 := by
    rw [poly1305Key, UInt32.toNat_and]
    exact Nat.and_le_right.trans_lt (by decide)
  l2 := by
    rw [poly1305Key, UInt32.toNat_and]
    exact Nat.and_le_right.trans_lt (by decide)
  l3 := by
    rw [poly1305Key, UInt32.toNat_and]
    exact Nat.and_le_right.trans_lt (by decide)
  l4 := by
    rw [poly1305Key, UInt32.toNat_and]
    exact Nat.and_le_right.trans_lt (by decide)

/-- `(x >> i) & 0x03FFFFFF` in a block of sixteen bytes. -/
theorem toNat_limb26 (b : Bytes) {off k i : ℕ} {s : UInt32} (hs : s.toNat = k) (hk : k ≤ 6)
    (hi : 8 * off + k = i) :
    (load32 b off >>> s &&& 0x03FFFFFF).toNat = leNat b / 2 ^ i % 2 ^ 26 := by
  have hm : (0x03FFFFFF : UInt32).toNat < 2 ^ (32 - k) :=
    (show 0x03FFFFFF < 2 ^ 26 by decide).trans_le (Nat.pow_le_pow_right (by decide) (by omega))
  rw [toNat_limb b off hs (by omega) hi hm, ← Nat.and_two_pow_sub_one_eq_mod]
  rfl

/-- A sum that does not overflow. -/
theorem toNat_add32 {a b : UInt32} {n : ℕ} (hb : b.toNat = n) (h : a.toNat + n < 2 ^ 32) :
    (a + b).toNat = a.toNat + n := by
  rw [UInt32.toNat_add, hb, Nat.mod_eq_of_lt h]

namespace Poly1305Limbs

variable {h r : Poly1305Limbs}

/-! ### One block -/

/-- Adding a block of sixteen bytes. The highest limb has room for the bit behind a whole block. -/
theorem Bounded.addBlock (hh : h.Bounded) {top : UInt32} (htop : top.toNat ≤ 2 ^ 24) (msg : Bytes) :
    let a := { h with l4 := h.l4 + top }.addBlock msg
    a.Added ∧ a.value = h.value + (leNat msg % 2 ^ 128 + 2 ^ 104 * top.toNat) := by
  intro a
  have hl4 : (load32 msg 12 >>> 8).toNat = leNat msg / 2 ^ 104 % 2 ^ 24 := by
    rw [UInt32.toNat_shiftRight, toNat_load32, Nat.shiftRight_eq_div_pow]
    change leNat msg / 256 ^ 12 % 2 ^ 32 / 2 ^ 8 = _
    omega
  have h0 := hh.l0
  have h1 := hh.l1
  have h2 := hh.l2
  have h3 := hh.l3
  have h4 := hh.l4
  have ha0 : a.l0.toNat = h.l0.toNat + leNat msg / 2 ^ 0 % 2 ^ 26 :=
    toNat_add32 (a := h.l0) (toNat_limb26 msg rfl (by decide) rfl) (by omega)
  have ha1 : a.l1.toNat = h.l1.toNat + leNat msg / 2 ^ 26 % 2 ^ 26 :=
    toNat_add32 (a := h.l1) (toNat_limb26 msg rfl (by decide) rfl) (by omega)
  have ha2 : a.l2.toNat = h.l2.toNat + leNat msg / 2 ^ 52 % 2 ^ 26 :=
    toNat_add32 (a := h.l2) (toNat_limb26 msg rfl (by decide) rfl) (by omega)
  have ha3 : a.l3.toNat = h.l3.toNat + leNat msg / 2 ^ 78 % 2 ^ 26 :=
    toNat_add32 (a := h.l3) (toNat_limb26 msg rfl (by decide) rfl) (by omega)
  have hsum : (h.l4 + top).toNat = h.l4.toNat + top.toNat := toNat_add32 rfl (by omega)
  have ha4 : a.l4.toNat = h.l4.toNat + top.toNat + leNat msg / 2 ^ 104 % 2 ^ 24 := by
    rw [← hsum]
    exact toNat_add32 (a := h.l4 + top) hl4 (by omega)
  refine ⟨⟨by omega, by omega, by omega, by omega, by omega⟩, ?_⟩
  rw [value, value, ha0, ha1, ha2, ha3, ha4]
  omega

/-- The sum of five products, each limb below its bound, for factors that may have been multiplied
by 5. -/
def row (h : Poly1305Limbs) (b₀ b₁ b₂ b₃ b₄ : ℕ) : ℕ :=
  h.l0.toNat * b₀ + h.l1.toNat * b₁ + h.l2.toNat * b₂ + h.l3.toNat * b₃ + h.l4.toNat * b₄

theorem Added.row_lt (ha : h.Added) {b₀ b₁ b₂ b₃ b₄ : ℕ} (h₀ : b₀ < 5 * 2 ^ 26)
    (h₁ : b₁ < 5 * 2 ^ 26) (h₂ : b₂ < 5 * 2 ^ 26) (h₃ : b₃ < 5 * 2 ^ 26) (h₄ : b₄ < 5 * 2 ^ 26) :
    h.row b₀ b₁ b₂ b₃ b₄ < 2 ^ 61 := by
  have m₀ := Nat.mul_le_mul ha.l0.le h₀.le
  have m₁ := Nat.mul_le_mul ha.l1.le h₁.le
  have m₂ := Nat.mul_le_mul ha.l2.le h₂.le
  have m₃ := Nat.mul_le_mul ha.l3.le h₃.le
  have m₄ := Nat.mul_le_mul ha.l4.le h₄.le
  rw [row]
  omega

/-- The highest product, which decides how large the lowest limb becomes: no factor of it has been
multiplied by 5. -/
theorem Added.row_top_lt (ha : h.Added) (hr : r.Clamped) :
    h.row r.l4.toNat r.l3.toNat r.l2.toNat r.l1.toNat r.l0.toNat < 33 * 2 ^ 50 := by
  have m₀ := Nat.mul_le_mul ha.l0.le hr.l4.le
  have m₁ := Nat.mul_le_mul ha.l1.le hr.l3.le
  have m₂ := Nat.mul_le_mul ha.l2.le hr.l2.le
  have m₃ := Nat.mul_le_mul ha.l3.le hr.l1.le
  have m₄ := Nat.mul_le_mul ha.l4.le hr.l0.le
  rw [row]
  omega

end Poly1305Limbs

theorem toNat_poly1305MUL (a b : UInt32) : (poly1305MUL a b).toNat = a.toNat * b.toNat := by
  have h := Nat.mul_le_mul (Nat.le_of_lt_succ a.toNat_lt) (Nat.le_of_lt_succ b.toNat_lt)
  rw [poly1305MUL, UInt64.toNat_mul, UInt32.toNat_toUInt64, UInt32.toNat_toUInt64,
    Nat.mod_eq_of_lt (by omega)]

theorem toNat_sum5 {a b c d e : UInt64}
    (h : a.toNat + b.toNat + c.toNat + d.toNat + e.toNat < 2 ^ 64) :
    (a + b + c + d + e).toNat = a.toNat + b.toNat + c.toNat + d.toNat + e.toNat := by
  simp only [UInt64.toNat_add]
  omega

theorem toNat_times5 {x : UInt32} (h : x.toNat < 2 ^ 26) : (x * 5).toNat = x.toNat * 5 := by
  rw [UInt32.toNat_mul]
  change x.toNat * 5 % 2 ^ 32 = _
  omega

/-- The numbers in the products. -/
def Poly1305Products.value (d : Poly1305Products) : ℕ :=
  d.d0.toNat + 2 ^ 26 * d.d1.toNat + 2 ^ 52 * d.d2.toNat + 2 ^ 78 * d.d3.toNat +
    2 ^ 104 * d.d4.toNat

/-- The products before the carries. -/
structure Poly1305Products.Bounded (d : Poly1305Products) : Prop where
  d0 : d.d0.toNat < 2 ^ 61
  d1 : d.d1.toNat < 2 ^ 61
  d2 : d.d2.toNat < 2 ^ 61
  d3 : d.d3.toNat < 2 ^ 61
  d4 : d.d4.toNat < 33 * 2 ^ 50

namespace Poly1305Limbs

variable {h r : Poly1305Limbs}

/-- A sum of five products does not overflow. -/
theorem Added.toNat_row (ha : h.Added) {b₀ b₁ b₂ b₃ b₄ : UInt32} (h₀ : b₀.toNat < 5 * 2 ^ 26)
    (h₁ : b₁.toNat < 5 * 2 ^ 26) (h₂ : b₂.toNat < 5 * 2 ^ 26) (h₃ : b₃.toNat < 5 * 2 ^ 26)
    (h₄ : b₄.toNat < 5 * 2 ^ 26) :
    let d := poly1305MUL h.l0 b₀ + poly1305MUL h.l1 b₁ + poly1305MUL h.l2 b₂ + poly1305MUL h.l3 b₃ +
      poly1305MUL h.l4 b₄
    d.toNat < 2 ^ 61 ∧ d.toNat = h.row b₀.toNat b₁.toNat b₂.toNat b₃.toNat b₄.toNat := by
  intro d
  have hlt := ha.row_lt h₀ h₁ h₂ h₃ h₄
  have hd : d.toNat = h.row b₀.toNat b₁.toNat b₂.toNat b₃.toNat b₄.toNat := by
    rw [row] at hlt ⊢
    rw [toNat_sum5] <;> simp only [toNat_poly1305MUL]
    exact hlt.trans (by decide)
  exact ⟨hd ▸ hlt, hd⟩

/-- The products are those of the numbers, up to multiples of the prime. -/
theorem Added.products (ha : h.Added) (hr : r.Clamped) :
    (h.products r).Bounded ∧
      ∃ q, (h.products r).value + poly1305Prime * q = h.value * r.value := by
  have r₀ := hr.l0
  have r₁ := hr.l1
  have r₂ := hr.l2
  have r₃ := hr.l3
  have r₄ := hr.l4
  have s₁ := toNat_times5 r₁
  have s₂ := toNat_times5 r₂
  have s₃ := toNat_times5 r₃
  have s₄ := toNat_times5 (r₄.trans (by decide))
  obtain ⟨b₀, hd₀⟩ : (h.products r).d0.toNat < 2 ^ 61 ∧ (h.products r).d0.toNat = h.row r.l0.toNat
      (r.l4 * 5).toNat (r.l3 * 5).toNat (r.l2 * 5).toNat (r.l1 * 5).toNat :=
    ha.toNat_row (by omega) (by omega) (by omega) (by omega) (by omega)
  obtain ⟨b₁, hd₁⟩ : (h.products r).d1.toNat < 2 ^ 61 ∧ (h.products r).d1.toNat = h.row r.l1.toNat
      r.l0.toNat (r.l4 * 5).toNat (r.l3 * 5).toNat (r.l2 * 5).toNat :=
    ha.toNat_row (by omega) (by omega) (by omega) (by omega) (by omega)
  obtain ⟨b₂, hd₂⟩ : (h.products r).d2.toNat < 2 ^ 61 ∧ (h.products r).d2.toNat = h.row r.l2.toNat
      r.l1.toNat r.l0.toNat (r.l4 * 5).toNat (r.l3 * 5).toNat :=
    ha.toNat_row (by omega) (by omega) (by omega) (by omega) (by omega)
  obtain ⟨b₃, hd₃⟩ : (h.products r).d3.toNat < 2 ^ 61 ∧ (h.products r).d3.toNat = h.row r.l3.toNat
      r.l2.toNat r.l1.toNat r.l0.toNat (r.l4 * 5).toNat :=
    ha.toNat_row (by omega) (by omega) (by omega) (by omega) (by omega)
  obtain ⟨-, hd₄⟩ : (h.products r).d4.toNat < 2 ^ 61 ∧ (h.products r).d4.toNat = h.row r.l4.toNat
      r.l3.toNat r.l2.toNat r.l1.toNat r.l0.toNat :=
    ha.toNat_row (by omega) (by omega) (by omega) (by omega) (by omega)
  refine ⟨⟨b₀, b₁, b₂, b₃, hd₄ ▸ ha.row_top_lt hr⟩, ?_⟩
  -- the ten products above the fifth limb, each `2 ^ 130` too high
  refine ⟨h.l1.toNat * r.l4.toNat + h.l2.toNat * r.l3.toNat + h.l3.toNat * r.l2.toNat +
      h.l4.toNat * r.l1.toNat + 2 ^ 26 * (h.l2.toNat * r.l4.toNat + h.l3.toNat * r.l3.toNat +
      h.l4.toNat * r.l2.toNat) + 2 ^ 52 * (h.l3.toNat * r.l4.toNat + h.l4.toNat * r.l3.toNat) +
      2 ^ 78 * (h.l4.toNat * r.l4.toNat), ?_⟩
  rw [Poly1305Products.value, hd₀, hd₁, hd₂, hd₃, hd₄, s₁, s₂, s₃, s₄, value, value,
    poly1305Prime_eq]
  simp only [row]
  ring

/-! ### Carries -/

end Poly1305Limbs

theorem toNat_low26 (d : UInt64) : (d &&& 0x03FFFFFF).toUInt32.toNat = d.toNat % 2 ^ 26 := by
  rw [UInt64.toNat_toUInt32, UInt64.toNat_and]
  change (d.toNat &&& 2 ^ 26 - 1) % 2 ^ 32 = _
  rw [Nat.and_two_pow_sub_one_eq_mod]
  omega

theorem toNat_carry {d c : UInt64} (h : d.toNat + c.toNat / 2 ^ 26 < 2 ^ 64) :
    (d + c >>> 26).toNat = d.toNat + c.toNat / 2 ^ 26 := by
  rw [UInt64.toNat_add, UInt64.toNat_shiftRight, Nat.shiftRight_eq_div_pow]
  exact Nat.mod_eq_of_lt h

/-- The carry out of the highest limb. -/
theorem toNat_wrapped {l : UInt32} {d : UInt64} (h : l.toNat + d.toNat / 2 ^ 26 * 5 < 2 ^ 32) :
    (l + (d >>> 26).toUInt32 * 5).toNat = l.toNat + d.toNat / 2 ^ 26 * 5 := by
  rw [UInt32.toNat_add, UInt32.toNat_mul, UInt64.toNat_toUInt32, UInt64.toNat_shiftRight,
    Nat.shiftRight_eq_div_pow]
  change (l.toNat + d.toNat / 2 ^ 26 % 2 ^ 32 * 5 % 2 ^ 32) % 2 ^ 32 = _
  omega

/-- The carries bring the limbs back to their bounds and lose multiples of the prime. -/
theorem Poly1305Products.Bounded.carry {d : Poly1305Products} (hd : d.Bounded) :
    d.carry.Bounded ∧ ∃ q, d.carry.value + poly1305Prime * q = d.value := by
  obtain ⟨d1, hd1⟩ : ∃ d1, d1 = d.d1 + d.d0 >>> 26 := ⟨_, rfl⟩
  obtain ⟨d2, hd2⟩ : ∃ d2, d2 = d.d2 + d1 >>> 26 := ⟨_, rfl⟩
  obtain ⟨d3, hd3⟩ : ∃ d3, d3 = d.d3 + d2 >>> 26 := ⟨_, rfl⟩
  obtain ⟨d4, hd4⟩ : ∃ d4, d4 = d.d4 + d3 >>> 26 := ⟨_, rfl⟩
  have b₀ := hd.d0
  have b₁ := hd.d1
  have b₂ := hd.d2
  have b₃ := hd.d3
  have b₄ := hd.d4
  have e₁ : d1.toNat = _ := hd1 ▸ toNat_carry (by omega)
  have e₂ : d2.toNat = _ := hd2 ▸ toNat_carry (by omega)
  have e₃ : d3.toNat = _ := hd3 ▸ toNat_carry (by omega)
  have e₄ : d4.toNat = _ := hd4 ▸ toNat_carry (by omega)
  have l₀ : ((d.d0 &&& 0x03FFFFFF).toUInt32 + (d4 >>> 26).toUInt32 * 5).toNat =
      d.d0.toNat % 2 ^ 26 + d4.toNat / 2 ^ 26 * 5 := by
    rw [toNat_wrapped, toNat_low26]
    rw [toNat_low26]
    omega
  have hcarry : d.carry = ⟨(d.d0 &&& 0x03FFFFFF).toUInt32 + (d4 >>> 26).toUInt32 * 5,
      (d1 &&& 0x03FFFFFF).toUInt32, (d2 &&& 0x03FFFFFF).toUInt32, (d3 &&& 0x03FFFFFF).toUInt32,
      (d4 &&& 0x03FFFFFF).toUInt32⟩ := by
    rw [hd4, hd3, hd2, hd1]
    rfl
  rw [hcarry]
  refine ⟨⟨?_, ?_, ?_, ?_, ?_⟩, d4.toNat / 2 ^ 26, ?_⟩
  · rw [l₀]
    omega
  · rw [toNat_low26]
    omega
  · rw [toNat_low26]
    omega
  · rw [toNat_low26]
    omega
  · rw [toNat_low26]
    omega
  · simp only [Poly1305Limbs.value, l₀, toNat_low26, value, poly1305Prime_eq]
    omega

/-! ### The whole message -/

namespace Poly1305Limbs

variable {h r : Poly1305Limbs}

/-- One block: `top` is the bit behind a whole block. -/
theorem Bounded.block (hh : h.Bounded) (hr : r.Clamped) (top : UInt32) (htop : top.toNat ≤ 2 ^ 24)
    (msg : Bytes) :
    let h' := { h with l4 := h.l4 + top }.processBlock r msg
    h'.Bounded ∧ h'.value ≡
      (h.value + (leNat msg % 2 ^ 128 + 2 ^ 104 * top.toNat)) * r.value [MOD poly1305Prime] := by
  intro h'
  obtain ⟨hadded, hsum⟩ := hh.addBlock htop msg
  obtain ⟨hproducts, q, hq⟩ := hadded.products hr
  obtain ⟨hcarry, q', hq'⟩ := hproducts.carry
  refine ⟨hcarry, ?_⟩
  rw [← hsum, ← hq, ← hq']
  have hmod : ∀ a b : ℕ, a ≡ a + poly1305Prime * b [MOD poly1305Prime] := fun a b => by
    rw [Nat.ModEq, Nat.add_mul_mod_self_left]
  exact (hmod _ q').trans (hmod _ q)

end Poly1305Limbs

theorem poly1305Coefficient_eq (msg : Bytes) (i : ℕ) {block : Bytes}
    (h : slice msg (16 * i) 16 = block) :
    poly1305Coefficient msg i = leNat block + 256 ^ block.length := by
  rw [poly1305Coefficient, h, leNat_append, leNat_cons, leNat_nil, Nat.mul_zero, Nat.add_zero]
  exact congrArg _ (Nat.mul_one _)

theorem poly1305Coefficient_drop (msg : Bytes) (i : ℕ) :
    poly1305Coefficient (msg.drop 16) i = poly1305Coefficient msg (i + 1) := by
  rw [poly1305Coefficient, poly1305Coefficient, slice, slice, List.drop_drop, Nat.mul_succ,
    Nat.add_comm]

/-- The first block takes the highest power. -/
theorem sum_coefficients_succ (r : ℕ) (msg : Bytes) (q : ℕ) :
    ∑ i ∈ Finset.range (q + 1), poly1305Coefficient msg i * r ^ (q + 1 - i) =
      poly1305Coefficient msg 0 * r * r ^ q +
        ∑ i ∈ Finset.range q, poly1305Coefficient (msg.drop 16) i * r ^ (q - i) := by
  rw [Finset.sum_range_succ', Nat.sub_zero, pow_succ', ← Nat.mul_assoc, Nat.add_comm]
  refine congrArg _ (Finset.sum_congr rfl fun i _ => ?_)
  rw [poly1305Coefficient_drop, Nat.add_sub_add_right]

/-- One more block takes every power up by one. -/
theorem sum_coefficients_last (r : ℕ) (msg : Bytes) (q : ℕ) :
    ∑ i ∈ Finset.range (q + 1), poly1305Coefficient msg i * r ^ (q + 1 - i) =
      (∑ i ∈ Finset.range q, poly1305Coefficient msg i * r ^ (q - i) +
        poly1305Coefficient msg q) * r := by
  rw [Finset.sum_range_succ, Nat.add_sub_cancel_left, pow_one, Nat.add_mul, Finset.sum_mul]
  refine congrArg (· + _) (Finset.sum_congr rfl fun i hi => ?_)
  have hlt := Finset.mem_range.mp hi
  rw [Nat.mul_assoc, ← pow_succ, Nat.succ_sub hlt.le]

/-- The loop over the whole blocks. -/
theorem poly1305Blocks_spec {r : Poly1305Limbs} (hr : r.Clamped) {h : Poly1305Limbs}
    (hh : h.Bounded) (msg : Bytes) :
    let q := msg.length / 16
    (poly1305Blocks r h msg).2 = msg.drop (16 * q) ∧ (poly1305Blocks r h msg).1.Bounded ∧
      (poly1305Blocks r h msg).1.value ≡ h.value * r.value ^ q +
        ∑ i ∈ Finset.range q, poly1305Coefficient msg i * r.value ^ (q - i)
        [MOD poly1305Prime] := by
  fun_induction poly1305Blocks r h msg with
  | case1 h msg hlen ih =>
    obtain ⟨hbounded, hvalue⟩ := hh.block hr 0x01000000 (by decide) msg
    obtain ⟨hrest, hbounds, hmod⟩ := ih hbounded
    have hq : msg.length / 16 = (msg.drop 16).length / 16 + 1 := by
      rw [List.length_drop]
      omega
    have hblock : slice msg (16 * 0) 16 = msg.take 16 := rfl
    have hcoefficient : poly1305Coefficient msg 0 = leNat msg % 2 ^ 128 + 2 ^ 104 * 2 ^ 24 := by
      rw [poly1305Coefficient_eq msg 0 hblock, List.length_take, Nat.min_eq_left hlen, leNat_take]
      rfl
    intro q
    rw [show q = (msg.drop 16).length / 16 + 1 from hq]
    refine ⟨?_, hbounds, hmod.trans ?_⟩
    · rw [hrest, List.drop_drop, Nat.mul_succ, Nat.add_comm]
    · rw [sum_coefficients_succ, ← Nat.add_assoc, pow_succ', ← Nat.mul_assoc, ← Nat.add_mul,
        ← Nat.add_mul, hcoefficient]
      exact (hvalue.mul_right _).add_right _
  | case2 h msg hlen =>
    intro q
    have hq : q = 0 := Nat.div_eq_of_lt (by omega)
    rw [hq]
    refine ⟨rfl, hh, ?_⟩
    rw [pow_zero, Nat.mul_one, Finset.sum_range_zero, Nat.add_zero]

/-- The rest of a message, less than a block. -/
theorem Poly1305Limbs.Bounded.lastBlock {h r : Poly1305Limbs} (hh : h.Bounded) (hr : r.Clamped)
    {rest : Bytes} (hlen : rest.length < 16) :
    let h' := h.processBlock r (rest ++ 1 :: zeros (15 - rest.length))
    h'.Bounded ∧
      h'.value ≡ (h.value + (leNat rest + 256 ^ rest.length)) * r.value [MOD poly1305Prime] := by
  obtain ⟨block, hblock⟩ : ∃ block, block = rest ++ 1 :: zeros (15 - rest.length) := ⟨_, rfl⟩
  have hnumber : leNat block = leNat rest + 256 ^ rest.length := by
    rw [hblock, leNat_append, leNat_cons, leNat_zeros, Nat.mul_zero, Nat.add_zero]
    exact congrArg _ (Nat.mul_one _)
  have hlength : block.length = 16 := by
    rw [hblock, List.length_append, List.length_cons, length_zeros]
    omega
  have hlt : leNat block < 2 ^ 128 := (leNat_lt block).trans_eq (by rw [hlength]; rfl)
  have hstep := hh.block hr 0 (by decide) block
  rw [UInt32.add_zero, Nat.mod_eq_of_lt hlt, hnumber] at hstep
  rwa [← hblock]

/-- The accumulator after a whole message. -/
theorem poly1305Accumulate_spec {r : Poly1305Limbs} (hr : r.Clamped) (msg : Bytes) :
    (poly1305Accumulate r msg).Bounded ∧
      (poly1305Accumulate r msg).value ≡ poly1305Value r.value msg [MOD poly1305Prime] := by
  have hzero : (⟨0, 0, 0, 0, 0⟩ : Poly1305Limbs).Bounded :=
    ⟨by decide, by decide, by decide, by decide, by decide⟩
  obtain ⟨hrest, hbounded, hvalue⟩ := poly1305Blocks_spec hr hzero msg
  have hstart : (⟨0, 0, 0, 0, 0⟩ : Poly1305Limbs).value = 0 := rfl
  rw [hstart, Nat.zero_mul, Nat.zero_add] at hvalue
  have hlen : (poly1305Blocks r ⟨0, 0, 0, 0, 0⟩ msg).2.length = msg.length % 16 := by
    rw [hrest, List.length_drop]
    omega
  simp only [poly1305Accumulate, poly1305Value]
  by_cases hempty : msg.length % 16 = 0
  · rw [if_neg (by omega), show (msg.length + 15) / 16 = msg.length / 16 by omega]
    exact ⟨hbounded, hvalue⟩
  · obtain ⟨hlast, hmod⟩ := hbounded.lastBlock hr (by rw [hlen]; omega)
    have hslice : slice msg (16 * (msg.length / 16)) 16 =
        (poly1305Blocks r ⟨0, 0, 0, 0, 0⟩ msg).2 := by
      rw [slice, ← hrest, List.take_of_length_le (by omega)]
    rw [if_pos (by omega), show (msg.length + 15) / 16 = msg.length / 16 + 1 by omega,
      sum_coefficients_last, poly1305Coefficient_eq _ _ hslice]
    exact ⟨hlast, hmod.trans ((hvalue.add_right _).mul_right _)⟩

/-! ### The tag -/

/-- A word of the sum. -/
theorem toNat_sumWord (a b c : UInt32) :
    (a.toUInt64 + b.toUInt64 + c.toUInt64).toNat = a.toNat + b.toNat + c.toNat := by
  have ha := a.toNat_lt
  have hb := b.toNat_lt
  have hc := c.toNat_lt
  simp only [UInt64.toNat_add, UInt32.toNat_toUInt64]
  omega

/-- The same with the carry of the word below. -/
theorem toNat_sumWord_carry (a b c : UInt32) (d : UInt64) :
    (a.toUInt64 + b.toUInt64 + c.toUInt64 + d >>> 32).toNat =
      a.toNat + b.toNat + c.toNat + d.toNat / 2 ^ 32 := by
  have ha := a.toNat_lt
  have hb := b.toNat_lt
  have hc := c.toNat_lt
  have hd := d.toNat_lt
  have hshift : (d >>> 32).toNat = d.toNat / 2 ^ 32 := by
    rw [UInt64.toNat_shiftRight, Nat.shiftRight_eq_div_pow]
    rfl
  rw [UInt64.toNat_add, toNat_sumWord, hshift]
  omega

theorem toNat_shiftUp {x s : UInt32} {k : ℕ} (hs : s.toNat = k) (hk : k < 32) :
    (x <<< s).toNat = x.toNat * 2 ^ k % 2 ^ 32 := by
  rw [UInt32.toNat_shiftLeft, hs, Nat.mod_eq_of_lt hk, Nat.shiftLeft_eq]

theorem toNat_shiftDown {x s : UInt32} {k : ℕ} (hs : s.toNat = k) (hk : k < 32) :
    (x >>> s).toNat = x.toNat / 2 ^ k := by
  rw [UInt32.toNat_shiftRight, hs, Nat.mod_eq_of_lt hk, Nat.shiftRight_eq_div_pow]

/-- The carry of `h + 5` out of the highest limb, which says whether the prime has to be taken
off. -/
theorem Poly1305Limbs.Bounded.toNat_carryOut {h : Poly1305Limbs} (hh : h.Bounded) :
    ((h.l4 + (h.l3 + (h.l2 + (h.l1 + (h.l0 + 5) >>> 26) >>> 26) >>> 26) >>> 26) >>> 26).toNat =
      (h.value + 5) / 2 ^ 130 := by
  have h₀ := hh.l0
  have h₁ := hh.l1
  have h₂ := hh.l2
  have h₃ := hh.l3
  have h₄ := hh.l4
  have hadd : ∀ a b : UInt32, a.toNat < 2 ^ 26 →
      (a + b >>> 26).toNat = a.toNat + b.toNat / 2 ^ 26 := fun a b ha => by
    have hb := b.toNat_lt
    exact toNat_add32 (toNat_shiftDown rfl (by decide)) (by omega)
  have hfive : (h.l0 + 5).toNat = h.l0.toNat + 5 := toNat_add32 rfl (by omega)
  rw [toNat_shiftDown (k := 26) rfl (by decide), hadd _ _ h₄, hadd _ _ h₃, hadd _ _ h₂,
    hadd _ _ h₁, hfive, value]
  omega

/-- Word `i` of the second half of the key. -/
theorem toNat_load32_key (key : Bytes) {off k : ℕ} (hk : 8 * off = 128 + k) :
    (load32 key off).toNat = leNat key / 2 ^ 128 / 2 ^ k % 2 ^ 32 := by
  rw [toNat_load32, Nat.div_div_eq_div_mul, ← pow_add, ← hk, pow_mul]
  rfl

theorem leNat_store32 (v : UInt64) : leNat (store32 v.toUInt32) = v.toNat % 2 ^ 32 := by
  rw [store32_eq, leNat_leBytes, UInt64.toNat_toUInt32]
  exact Nat.mod_mod _ _

theorem leNat_words (a b c d : UInt64) :
    leNat (store32 a.toUInt32 ++ store32 b.toUInt32 ++ store32 c.toUInt32 ++ store32 d.toUInt32) =
      a.toNat % 2 ^ 32 + 2 ^ 32 * (b.toNat % 2 ^ 32) + 2 ^ 64 * (c.toNat % 2 ^ 32) +
        2 ^ 96 * (d.toNat % 2 ^ 32) := by
  simp only [leNat_append, leNat_store32, List.length_append, length_store32]
  rfl

/-- The accumulator is below twice the prime, so that taking it off once is enough; in the lowest
128 bits, adding 5 is as good. -/
theorem Poly1305Limbs.Bounded.mod_prime {h : Poly1305Limbs} (hh : h.Bounded) (s : ℕ) :
    (h.value % poly1305Prime + s) % 2 ^ 128 =
      (h.value + (h.value + 5) / 2 ^ 130 * 5 + s) % 2 ^ 128 := by
  have h₀ := hh.l0
  have h₁ := hh.l1
  have h₂ := hh.l2
  have h₃ := hh.l3
  have h₄ := hh.l4
  have hvalue : h.value < 2 ^ 130 + 43 * 2 ^ 26 := by
    rw [value]
    omega
  rw [poly1305Prime_eq]
  by_cases hlt : h.value < 1361129467683753853853498429727072845819
  · rw [Nat.mod_eq_of_lt hlt]
    omega
  · have hmod : h.value % 1361129467683753853853498429727072845819 =
        h.value - 1361129467683753853853498429727072845819 := by omega
    rw [hmod]
    omega

/-- Adding word by word. -/
theorem sum_words {s a₁ a₂ a₃ a₄ d₁ d₂ d₃ d₄ : ℕ} (h₁ : d₁ = s / 2 ^ 0 % 2 ^ 32 + a₁)
    (h₂ : d₂ = s / 2 ^ 32 % 2 ^ 32 + a₂ + d₁ / 2 ^ 32)
    (h₃ : d₃ = s / 2 ^ 64 % 2 ^ 32 + a₃ + d₂ / 2 ^ 32)
    (h₄ : d₄ = s / 2 ^ 96 % 2 ^ 32 + a₄ + d₃ / 2 ^ 32) :
    d₁ % 2 ^ 32 + 2 ^ 32 * (d₂ % 2 ^ 32) + 2 ^ 64 * (d₃ % 2 ^ 32) + 2 ^ 96 * (d₄ % 2 ^ 32) =
      (a₁ + 2 ^ 32 * a₂ + 2 ^ 64 * a₃ + 2 ^ 96 * a₄ + s) % 2 ^ 128 := by
  omega

theorem mul_two_pow_mod (x j k : ℕ) : x * 2 ^ k % 2 ^ (j + k) = x % 2 ^ j * 2 ^ k := by
  rw [pow_add, Nat.mul_mod_mul_right]

/-- The limbs in words of 32 bits. -/
theorem limbs_words (l₀ l₁ l₂ l₃ l₄ s : ℕ) :
    (l₀ + 2 ^ 26 * l₁ + 2 ^ 52 * l₂ + 2 ^ 78 * l₃ + 2 ^ 104 * l₄ + s) % 2 ^ 128 =
      (l₀ + l₁ * 2 ^ 26 % 2 ^ 32 + 2 ^ 32 * (l₁ / 2 ^ 6 + l₂ * 2 ^ 20 % 2 ^ 32) +
        2 ^ 64 * (l₂ / 2 ^ 12 + l₃ * 2 ^ 14 % 2 ^ 32) +
        2 ^ 96 * (l₃ / 2 ^ 18 + l₄ * 2 ^ 8 % 2 ^ 32) + s) % 2 ^ 128 := by
  have h₁ := mul_two_pow_mod l₁ 6 26
  have h₂ := mul_two_pow_mod l₂ 12 20
  have h₃ := mul_two_pow_mod l₃ 18 14
  have h₄ := mul_two_pow_mod l₄ 24 8
  simp only [Nat.reduceAdd] at h₁ h₂ h₃ h₄
  rw [h₁, h₂, h₃, h₄]
  omega

/-- The number in the four words of the tag. -/
theorem Poly1305Limbs.Bounded.finish {h : Poly1305Limbs} (hh : h.Bounded) (key : Bytes) :
    leNat (h.finish key) = (h.value % poly1305Prime + leNat key / 2 ^ 128) % 2 ^ 128 := by
  obtain ⟨r4, hr4⟩ : ∃ r4, r4 =
      (h.l4 + (h.l3 + (h.l2 + (h.l1 + (h.l0 + 5) >>> 26) >>> 26) >>> 26) >>> 26) >>> 26 := ⟨_, rfl⟩
  obtain ⟨d1, hd1⟩ : ∃ d1, d1 = (load32 key 16).toUInt64 + ((h.l0 + r4 * 5) >>> 0).toUInt64 +
      (h.l1 <<< 26).toUInt64 := ⟨_, rfl⟩
  obtain ⟨d2, hd2⟩ : ∃ d2, d2 = (load32 key 20).toUInt64 + (h.l1 >>> 6).toUInt64 +
      (h.l2 <<< 20).toUInt64 + d1 >>> 32 := ⟨_, rfl⟩
  obtain ⟨d3, hd3⟩ : ∃ d3, d3 = (load32 key 24).toUInt64 + (h.l2 >>> 12).toUInt64 +
      (h.l3 <<< 14).toUInt64 + d2 >>> 32 := ⟨_, rfl⟩
  obtain ⟨d4, hd4⟩ : ∃ d4, d4 = (load32 key 28).toUInt64 + (h.l3 >>> 18).toUInt64 +
      (h.l4 <<< 8).toUInt64 + d3 >>> 32 := ⟨_, rfl⟩
  have hfinish : h.finish key = store32 d1.toUInt32 ++ store32 d2.toUInt32 ++ store32 d3.toUInt32 ++
      store32 d4.toUInt32 := by
    rw [Poly1305Limbs.finish, hd4, hd3, hd2, hd1, hr4]
  have h₀ := hh.l0
  have h₁ := hh.l1
  have h₂ := hh.l2
  have h₃ := hh.l3
  have h₄ := hh.l4
  have hcarry : r4.toNat = (h.value + 5) / 2 ^ 130 := hr4 ▸ hh.toNat_carryOut
  have hvalue : h.value < 2 ^ 131 := by
    rw [value]
    omega
  have hlow : ((h.l0 + r4 * 5) >>> 0).toNat = h.l0.toNat + r4.toNat * 5 := by
    rw [toNat_shiftDown (k := 0) rfl (by decide), pow_zero, Nat.div_one]
    exact toNat_add32 (toNat_times5 (by omega)) (by omega)
  have e₁ : d1.toNat = leNat key / 2 ^ 128 / 2 ^ 0 % 2 ^ 32 +
      (h.l0.toNat + r4.toNat * 5 + h.l1.toNat * 2 ^ 26 % 2 ^ 32) := by
    rw [hd1, toNat_sumWord, toNat_load32_key (k := 0) key rfl, hlow,
      toNat_shiftUp (k := 26) rfl (by decide), Nat.add_assoc]
  have e₂ : d2.toNat = leNat key / 2 ^ 128 / 2 ^ 32 % 2 ^ 32 +
      (h.l1.toNat / 2 ^ 6 + h.l2.toNat * 2 ^ 20 % 2 ^ 32) + d1.toNat / 2 ^ 32 := by
    rw [hd2, toNat_sumWord_carry, toNat_load32_key (k := 32) key rfl,
      toNat_shiftDown (k := 6) rfl (by decide), toNat_shiftUp (k := 20) rfl (by decide),
      Nat.add_assoc (_ % _)]
  have e₃ : d3.toNat = leNat key / 2 ^ 128 / 2 ^ 64 % 2 ^ 32 +
      (h.l2.toNat / 2 ^ 12 + h.l3.toNat * 2 ^ 14 % 2 ^ 32) + d2.toNat / 2 ^ 32 := by
    rw [hd3, toNat_sumWord_carry, toNat_load32_key (k := 64) key rfl,
      toNat_shiftDown (k := 12) rfl (by decide), toNat_shiftUp (k := 14) rfl (by decide),
      Nat.add_assoc (_ % _)]
  have e₄ : d4.toNat = leNat key / 2 ^ 128 / 2 ^ 96 % 2 ^ 32 +
      (h.l3.toNat / 2 ^ 18 + h.l4.toNat * 2 ^ 8 % 2 ^ 32) + d3.toNat / 2 ^ 32 := by
    rw [hd4, toNat_sumWord_carry, toNat_load32_key (k := 96) key rfl,
      toNat_shiftDown (k := 18) rfl (by decide), toNat_shiftUp (k := 8) rfl (by decide),
      Nat.add_assoc (_ % _)]
  rw [hfinish, leNat_words, sum_words e₁ e₂ e₃ e₄, ← limbs_words, hh.mod_prime, ← hcarry, value]
  congr 1
  omega

/-- **The tag.** For every message, of any length, and every key, the limbs compute the polynomial
at the cleared first half of the key modulo `2 ^ 130 - 5`, and add the second half of the key. -/
theorem poly1305_eq (msg key : Bytes) : poly1305 msg key = leBytes 16 (poly1305Tag msg key) := by
  obtain ⟨hbounded, hvalue⟩ := poly1305Accumulate_spec (clamped_poly1305Key key) msg
  refine eq_of_leNat ?_ ?_
  · rw [length_leBytes]
    rfl
  · rw [poly1305, hbounded.finish, leNat_leBytes, poly1305Tag, ← value_poly1305Key, hvalue]
    exact (Nat.mod_mod _ _).symm

end MultipleCiphers
