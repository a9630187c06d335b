import MultipleCiphers.Primitives

/-!
# The generator of initial vectors in 32-bit arithmetic

`sqlite3mcGenerateInitialVector` starts a multiplicative generator with a page number and hashes
the first four values. The product modulo `2147483399` is computed the way Schrage does it, by a
quotient and a remainder, so that nothing leaves the range of an `int`.

Here the same computation is written with the overflow of every operation in view: an operation
that leaves the range has no result. Two questions can then be asked. Does every step have a
result, and is that the product? And do two pages have different values?

The step is right for every `int`, also for those outside the range the generator was made for. The
sum in front of it is not: `seed + 1` overflows for the largest positive page number. And a page
number has 32 bits while the modulus has 31, so there are pages with the same values: those whose
numbers, as the `int` they are passed as, are congruent.

## Main definitions

* `modmultInt`, `initVectorValues`, `initKeyInt` — the generator with overflow.
* `IVWellDefined` — no overflow, and every value the product.

## Main results

* `modmultInt_eq` — one step, for every `int`.
* `initVectorValues_eq`, `initVectorValues_overflow` — where there are values.
* `initKey_eq_iff` — when two starts give the same bytes.
* `initialVectors_iff` — exactly which pairs of pages have proper and different values.
-/

namespace MultipleCiphers

/-! ### Arithmetic of `int` -/

/-- The result of an operation on `int`: none if it is out of range. -/
def intResult (x : ℤ) : Option ℤ := if -2 ^ 31 ≤ x ∧ x < 2 ^ 31 then some x else none

theorem intResult_of {x : ℤ} (h : -2 ^ 31 ≤ x ∧ x < 2 ^ 31) : intResult x = some x := if_pos h

/-- `MODMULT(52774, 40692, 3791, 2147483399, s)`, operation by operation. -/
def modmultInt (s : ℤ) : Option ℤ := do
  let q ← intResult (s.tdiv 52774)
  let aq ← intResult (52774 * q)
  let r ← intResult (s - aq)
  let br ← intResult (40692 * r)
  let cq ← intResult (3791 * q)
  let s ← intResult (br - cq)
  if s < 0 then intResult (s + 2147483399) else some s

/-- The `n` values that follow `z`. -/
def generatorInt : ℕ → ℤ → Option (List ℤ)
  | 0, _ => some []
  | n + 1, z => do
    let z ← modmultInt z
    let zs ← generatorInt n z
    some (z :: zs)

/-- The values of `z` in `sqlite3mcGenerateInitialVector`: the start and the four after it. -/
def initVectorValues (page : ℕ) : Option (List ℤ) := do
  let z ← intResult (intOfPgno page + 1)
  let zs ← generatorInt 4 z
  some (z :: zs)

/-- `initkey`: the bytes of the four values. -/
def initKeyInt (page : ℕ) : Option Bytes :=
  (initVectorValues page).map fun zs => zs.tail.flatMap intBytesLE

/-- Nothing overflows, and every value is `40692` times the one before, modulo `2147483399`. -/
def IVWellDefined (page : ℕ) : Prop :=
  ∃ zs, initVectorValues page = some zs ∧ zs.length = 5 ∧
    zs.IsChain fun z z' => z' = 40692 * z % 2147483399

/-! ### One step -/

/-- A quotient of C and its remainder: the remainder has the sign of the dividend. -/
theorem tdiv_remainder (s : ℤ) :
    ∃ q r, s.tdiv 52774 = q ∧ s = 52774 * q + r ∧
      (0 ≤ s ∧ 0 ≤ q ∧ 0 ≤ r ∧ r < 52774 ∨ s < 0 ∧ q ≤ 0 ∧ -52774 < r ∧ r ≤ 0) := by
  rcases Int.lt_or_le s 0 with h | h
  · obtain ⟨t, rfl⟩ : ∃ t, s = -t := ⟨-s, by omega⟩
    refine ⟨-(t / 52774), -(t % 52774), ?_, by omega, Or.inr ⟨h, by omega, by omega, by omega⟩⟩
    rw [Int.neg_tdiv, Int.tdiv_eq_ediv_of_nonneg (by omega)]
  · refine ⟨s / 52774, s % 52774, ?_, by omega, Or.inl ⟨h, by omega, by omega, by omega⟩⟩
    rw [Int.tdiv_eq_ediv_of_nonneg h]

/-- The value of a step is the product, for every `int` and for the sum that overflows. -/
theorem modmult_eq {s : ℤ} (h : -2 ^ 31 ≤ s ∧ s ≤ 2 ^ 31) :
    modmult s = 40692 * s % 2147483399 := by
  obtain ⟨q, r, hq, hs, hsign⟩ := tdiv_remainder s
  have hrem : s - 52774 * q = r := by omega
  -- the quotient is at most the multiplier
  have hqle : -40692 ≤ q ∧ q ≤ 40692 := by omega
  simp only [modmult, hq, hrem]
  split <;> omega

/-- **One step**, for every `int`: no operation overflows. -/
theorem modmultInt_eq {s : ℤ} (h : -2 ^ 31 ≤ s ∧ s < 2 ^ 31) :
    modmultInt s = some (modmult s) := by
  obtain ⟨q, r, hq, hs, hsign⟩ := tdiv_remainder s
  have hrem : s - 52774 * q = r := by omega
  have hqle : -40692 ≤ q ∧ q ≤ 40692 := by omega
  simp only [modmultInt, modmult, hq, hrem, Option.bind_eq_bind,
    intResult_of (x := q) (by omega), intResult_of (x := 52774 * q) (by omega),
    intResult_of (x := r) (by omega), intResult_of (x := 40692 * r) (by omega),
    intResult_of (x := 3791 * q) (by omega),
    intResult_of (x := 40692 * r - 3791 * q) (by omega), Option.bind_some]
  split
  · rw [intResult_of (by omega)]
  · rfl

theorem modmult_range {s : ℤ} (h : -2 ^ 31 ≤ s ∧ s ≤ 2 ^ 31) :
    0 ≤ modmult s ∧ modmult s < 2147483399 := by
  rw [modmult_eq h]
  omega

/-! ### The values of a page -/

/-- The `n` values that follow `z`, without overflow. -/
def generatorValues : ℕ → ℤ → List ℤ
  | 0, _ => []
  | n + 1, z => modmult z :: generatorValues n (modmult z)

theorem length_generatorValues (n : ℕ) (z : ℤ) : (generatorValues n z).length = n := by
  induction n generalizing z with
  | zero => rfl
  | succ n ih => rw [generatorValues, List.length_cons, ih]

theorem initKey_eq_flatMap (n : ℕ) (z : ℤ) :
    initKey n z = (generatorValues n z).flatMap intBytesLE := by
  induction n generalizing z with
  | zero => rfl
  | succ n ih => rw [initKey, generatorValues, List.flatMap_cons, ih]

theorem generatorInt_eq (n : ℕ) {z : ℤ} (h : -2 ^ 31 ≤ z ∧ z < 2 ^ 31) :
    generatorInt n z = some (generatorValues n z) ∧
      (z :: generatorValues n z).IsChain fun z z' => z' = 40692 * z % 2147483399 := by
  induction n generalizing z with
  | zero => exact ⟨rfl, List.isChain_singleton z⟩
  | succ n ih =>
    have hstep := modmultInt_eq h
    have hvalue := modmult_eq (s := z) (by omega)
    have hrange := modmult_range (s := z) (by omega)
    obtain ⟨hrest, hchain⟩ := ih (z := modmult z) (by omega)
    constructor
    · simp only [generatorInt, hstep, hrest, Option.bind_eq_bind, Option.bind_some,
        generatorValues]
    · rw [generatorValues]
      exact List.IsChain.cons_cons hvalue hchain

/-- The page numbers SQLite admits. -/
def admittedPage (page : ℕ) : Prop := 1 ≤ page ∧ page ≤ 4294967294

instance (page : ℕ) : Decidable (admittedPage page) := inferInstanceAs (Decidable (_ ∧ _))

theorem intOfPgno_range {page : ℕ} (h : admittedPage page) :
    -2 ^ 31 ≤ intOfPgno page ∧ intOfPgno page < 2 ^ 31 ∧
      (intOfPgno page = 2 ^ 31 - 1 ↔ page = 2147483647) := by
  obtain ⟨h₁, h₂⟩ := h
  rw [intOfPgno]
  split <;> omega

/-- Every page but one has its values, each the product. -/
theorem initVectorValues_eq {page : ℕ} (h : admittedPage page) (hne : page ≠ 2147483647) :
    initVectorValues page =
        some ((intOfPgno page + 1) :: generatorValues 4 (intOfPgno page + 1)) ∧
      IVWellDefined page := by
  obtain ⟨hlow, hhigh, hlast⟩ := intOfPgno_range h
  have hstart : -2 ^ 31 ≤ intOfPgno page + 1 ∧ intOfPgno page + 1 < 2 ^ 31 := by
    have hnot := mt hlast.mp hne
    omega
  obtain ⟨hrun, hchain⟩ := generatorInt_eq 4 hstart
  have hvalues : initVectorValues page =
      some ((intOfPgno page + 1) :: generatorValues 4 (intOfPgno page + 1)) := by
    rw [initVectorValues, intResult_of hstart]
    simp only [hrun, Option.bind_eq_bind, Option.bind_some]
  exact ⟨hvalues, _, hvalues, by rw [List.length_cons, length_generatorValues], hchain⟩

/-- The largest positive page number overflows before the first step. -/
theorem initVectorValues_overflow : initVectorValues 2147483647 = none := by
  decide

/-- What is hashed are the bytes of the generator. -/
theorem initKeyInt_eq {page : ℕ} (h : admittedPage page) (hne : page ≠ 2147483647) :
    initKeyInt page = some (initKey 4 (intOfPgno page + 1)) := by
  rw [initKeyInt, (initVectorValues_eq h hne).1, Option.map_some, List.tail_cons,
    initKey_eq_flatMap]

/-! ### Different pages -/

theorem intBytesLE_inj {y z : ℤ} (hy : 0 ≤ y ∧ y < 2 ^ 32) (hz : 0 ≤ z ∧ z < 2 ^ 32)
    (h : intBytesLE y = intBytesLE z) : y = z := by
  have hbyte (k : ℕ) (hk : k < 4) : (y / 2 ^ (8 * k)) % 256 = (z / 2 ^ (8 * k)) % 256 := by
    have hget := congrArg (fun b : Bytes => b[k]?) h
    have hlow (x : ℤ) : ((x / 2 ^ (8 * k)) % 256).toNat < 256 := by omega
    simp only [intBytesLE, List.getElem?_map, List.getElem?_range hk, Option.map_some,
      Option.some_inj] at hget
    have hnat := congrArg UInt8.toNat hget
    rw [UInt8.toNat_ofNat_of_lt' (hlow y), UInt8.toNat_ofNat_of_lt' (hlow z)] at hnat
    omega
  have h0 := hbyte 0 (by decide)
  have h1 := hbyte 1 (by decide)
  have h2 := hbyte 2 (by decide)
  have h3 := hbyte 3 (by decide)
  norm_num at h0 h1 h2 h3
  omega

/-- Two products are the same exactly for congruent factors: `40692` is prime to the modulus. -/
theorem modmult_eq_iff {y z : ℤ} (hy : -2 ^ 31 ≤ y ∧ y ≤ 2 ^ 31) (hz : -2 ^ 31 ≤ z ∧ z ≤ 2 ^ 31) :
    modmult y = modmult z ↔ (2147483399 : ℤ) ∣ y - z := by
  have hcoprime : Int.gcd 2147483399 40692 = 1 := by decide
  rw [modmult_eq hy, modmult_eq hz, Int.emod_eq_emod_iff_emod_sub_eq_zero,
    ← Int.mul_sub, ← Int.dvd_iff_emod_eq_zero]
  exact ⟨fun h => Int.dvd_of_dvd_mul_right_of_gcd_one h hcoprime, fun h => h.mul_left _⟩

/-- The first value of the generator is in its first four bytes, and determines the others. -/
theorem modmult_of_initKey {n : ℕ} {y z : ℤ} (hy : -2 ^ 31 ≤ y ∧ y ≤ 2 ^ 31)
    (hz : -2 ^ 31 ≤ z ∧ z ≤ 2 ^ 31)
    (h : (initKey (n + 1) y).take 4 = (initKey (n + 1) z).take 4) : modmult y = modmult z := by
  have hy' := modmult_range hy
  have hz' := modmult_range hz
  refine intBytesLE_inj (by omega) (by omega) ?_
  simpa [initKey, intBytesLE] using h

/-- **The same bytes come from congruent starts only**, and from all of them. -/
theorem initKey_eq_iff (n : ℕ) {y z : ℤ} (hy : -2 ^ 31 ≤ y ∧ y ≤ 2 ^ 31)
    (hz : -2 ^ 31 ≤ z ∧ z ≤ 2 ^ 31) :
    initKey (n + 1) y = initKey (n + 1) z ↔ (2147483399 : ℤ) ∣ y - z := by
  rw [← modmult_eq_iff hy hz]
  exact ⟨fun h => modmult_of_initKey hy hz (congrArg (List.take 4) h), fun h => by
    rw [initKey, initKey, h]⟩

/-- **Exactly which pairs of pages have initial vectors as they should be**: none of the two is the
page whose number overflows, and as `int` their numbers are not congruent. -/
theorem initialVectors_iff {p q : ℕ} (hp : admittedPage p) (hq : admittedPage q) :
    (IVWellDefined p ∧ IVWellDefined q ∧ initKeyInt p ≠ initKeyInt q) ↔
      p ≠ 2147483647 ∧ q ≠ 2147483647 ∧ ¬ (2147483399 : ℤ) ∣ intOfPgno p - intOfPgno q := by
  have hno : ¬ IVWellDefined 2147483647 := by
    rintro ⟨zs, hzs, -⟩
    rw [initVectorValues_overflow] at hzs
    cases hzs
  by_cases hp' : p = 2147483647
  · exact iff_of_false (fun h => hno (hp' ▸ h.1)) fun h => h.1 hp'
  by_cases hq' : q = 2147483647
  · exact iff_of_false (fun h => hno (hq' ▸ h.2.1)) fun h => h.2.1 hq'
  have hrp := intOfPgno_range hp
  have hrq := intOfPgno_range hq
  have hdiff : intOfPgno p + 1 - (intOfPgno q + 1) = intOfPgno p - intOfPgno q := by ring
  have hbytes := initKey_eq_iff 3 (y := intOfPgno p + 1) (z := intOfPgno q + 1)
    (by omega) (by omega)
  rw [hdiff] at hbytes
  rw [initKeyInt_eq hp hp', initKeyInt_eq hq hq', ← hbytes]
  constructor
  · rintro ⟨-, -, hne⟩
    exact ⟨hp', hq', fun h => hne (congrArg some h)⟩
  · rintro ⟨-, -, hne⟩
    exact ⟨(initVectorValues_eq hp hp').2, (initVectorValues_eq hq hq').2,
      fun h => hne (Option.some_inj.mp h)⟩

/-- Two pages with proper and different values. -/
theorem initialVectors_iff_two :
    IVWellDefined 1 ∧ IVWellDefined 4294967294 ∧ initKeyInt 1 ≠ initKeyInt 4294967294 :=
  (initialVectors_iff (p := 1) (q := 4294967294) (by decide) (by decide)).mpr (by decide)

/-- **The generator is not what it should be**: one page number overflows, and the pages `1` and
`2147483400` have the same bytes. -/
theorem initialVectors_collide :
    (admittedPage 2147483647 ∧ initVectorValues 2147483647 = none) ∧
      (admittedPage 1 ∧ admittedPage 2147483400 ∧ (initKeyInt 1).isSome = true ∧
        initKeyInt 1 = initKeyInt 2147483400) ∧
      ¬ ∀ p q, admittedPage p → admittedPage q → p ≠ q →
        IVWellDefined p ∧ IVWellDefined q ∧ initKeyInt p ≠ initKeyInt q := by
  have hcollide : initKeyInt 1 = initKeyInt 2147483400 := by decide
  have hone : admittedPage 1 := by decide
  have hother : admittedPage 2147483400 := by decide
  exact ⟨by decide, ⟨hone, hother, by decide, hcollide⟩,
    fun h => (h 1 2147483400 hone hother (by decide)).2.2 hcollide⟩

end MultipleCiphers
