import MultipleCiphers.Lib.Bytes

/-!
# Memory under pointers

A routine that works on buffers through pointers may be given two pointers into the same buffer,
and then it matters in which order it reads and writes. Here the memory is a function of the
address, `load` reads a range of it and `store` overwrites one. A memory also remembers which of
its bytes have been written, so that "exactly these bytes are changed" is a statement about the
memory a routine leaves behind, also where a byte happens to be overwritten with the value it had.

Both components are changed by `store` only, and the laws below are equations between memories.
What a routine does is then one equation: it is a single `store` of a string computed from what it
was given.

## Main results

* `load_store_self`, `load_store_of_separate` — what is read after a write.
* `store_append` — writing a string in two pieces.
* `store_store` — the later of two writes to the same place wins.
* `store_comm` — writes to disjoint places commute.
-/

open Bytes

/-- The byte at every address, and whether it has been written. -/
@[ext]
structure Memory where
  byte : ℕ → UInt8
  written : ℕ → Bool

namespace Memory

/-- The addresses of the `n` bytes at `p`. -/
def InRange (p n a : ℕ) : Prop := p ≤ a ∧ a < p + n

instance (p n a : ℕ) : Decidable (InRange p n a) := by
  unfold InRange
  infer_instance

/-- The `n` bytes at `p` and the `k` bytes at `q` have no address in common. -/
def Separate (p n q k : ℕ) : Prop := p + n ≤ q ∨ q + k ≤ p

/-- The `n` bytes at `p`. -/
def load (m : Memory) (p n : ℕ) : Bytes := (List.range n).map fun i => m.byte (p + i)

/-- The memory after the string `d` has been written at `p`. -/
def store (m : Memory) (p : ℕ) (d : Bytes) : Memory where
  byte a := if InRange p d.length a then d.getD (a - p) 0 else m.byte a
  written a := decide (InRange p d.length a) || m.written a

variable (m : Memory)

/-! ### Reading -/

@[simp] theorem length_load (p n : ℕ) : (m.load p n).length = n := by simp [load]

theorem getElem?_load (p n i : ℕ) :
    (m.load p n)[i]? = if i < n then some (m.byte (p + i)) else none := by
  rw [load, List.getElem?_map]
  by_cases hi : i < n
  · rw [if_pos hi, List.getElem?_range hi]
    rfl
  · rw [if_neg hi, List.getElem?_eq_none (by rw [List.length_range]; omega)]
    rfl

/-- A range in two parts. -/
theorem load_add (p n k : ℕ) : m.load p (n + k) = m.load p n ++ m.load (p + n) k := by
  simp only [load, List.range_add, List.map_append, List.map_map, Function.comp_def, Nat.add_assoc]

/-- A part of a range. -/
theorem slice_load {p n o k : ℕ} (h : o + k ≤ n) : slice (m.load p n) o k = m.load (p + o) k := by
  refine List.ext_getElem? fun i => ?_
  rw [getElem?_slice, getElem?_load, getElem?_load]
  by_cases hi : i < k
  · rw [if_pos hi, if_pos hi, if_pos (by omega), Nat.add_assoc]
  · rw [if_neg hi, if_neg hi]

theorem take_load {p n k : ℕ} (h : k ≤ n) : (m.load p n).take k = m.load p k := by
  have hs := m.slice_load (p := p) (by omega : 0 + k ≤ n)
  rwa [slice, List.drop_zero, Nat.add_zero] at hs

theorem drop_load (p n k : ℕ) : (m.load p (n + k)).drop n = m.load (p + n) k := by
  rw [load_add, List.drop_left' (length_load m p n)]

/-! ### Reading after a write -/

theorem byte_store_of_not_inRange {p a : ℕ} {d : Bytes} (h : ¬ InRange p d.length a) :
    (m.store p d).byte a = m.byte a := if_neg h

theorem byte_store_of_inRange {p a : ℕ} {d : Bytes} (h : InRange p d.length a) :
    (m.store p d).byte a = d.getD (a - p) 0 := if_pos h

theorem written_store {p a : ℕ} {d : Bytes} :
    (m.store p d).written a = true ↔ InRange p d.length a ∨ m.written a = true := by
  simp only [store, Bool.or_eq_true, decide_eq_true_eq]

theorem load_store_self (p : ℕ) (d : Bytes) : (m.store p d).load p d.length = d := by
  refine List.ext_getElem? fun i => ?_
  rw [getElem?_load]
  by_cases hi : i < d.length
  · rw [if_pos hi, m.byte_store_of_inRange ⟨by omega, by omega⟩, Nat.add_sub_cancel_left,
      List.getD_eq_getElem?_getD, List.getElem?_eq_getElem hi]
    rfl
  · rw [if_neg hi, List.getElem?_eq_none (by omega)]

theorem load_store_of_separate {p n q : ℕ} {d : Bytes} (h : Separate p n q d.length) :
    (m.store q d).load p n = m.load p n := by
  refine List.ext_getElem? fun i => ?_
  rw [getElem?_load, getElem?_load]
  by_cases hi : i < n
  · have hout : ¬ InRange q d.length (p + i) := by
      rintro ⟨hlow, hhigh⟩
      rcases h with h | h <;> omega
    rw [if_pos hi, if_pos hi, m.byte_store_of_not_inRange hout]
  · rw [if_neg hi, if_neg hi]

/-- A part of what was written. -/
theorem load_store_inside {p o k : ℕ} {d : Bytes} (h : o + k ≤ d.length) :
    (m.store p d).load (p + o) k = slice d o k := by
  have hs := (m.store p d).slice_load (p := p) h
  rw [← hs, load_store_self]

/-- Putting back what was read. -/
theorem byte_store_load (p n : ℕ) : (m.store p (m.load p n)).byte = m.byte := by
  funext a
  by_cases ha : InRange p n a
  · have hin : InRange p (m.load p n).length a := by rwa [length_load]
    have hoff : p + (a - p) = a := by
      rcases ha with ⟨hlow, _⟩
      omega
    have hlt : a - p < n := by
      rcases ha with ⟨hlow, hhigh⟩
      omega
    rw [m.byte_store_of_inRange hin, List.getD_eq_getElem?_getD, getElem?_load, if_pos hlt, hoff]
    rfl
  · exact m.byte_store_of_not_inRange (by rwa [length_load])

/-! ### One write after another -/

/-- Writing nothing. -/
theorem store_nil (p : ℕ) : m.store p [] = m := by
  have hout : ∀ a, ¬ InRange p ([] : Bytes).length a := by
    rintro a ⟨hlow, hhigh⟩
    rw [List.length_nil, Nat.add_zero] at hhigh
    omega
  ext a
  · rw [m.byte_store_of_not_inRange (hout a)]
  · rw [Bool.eq_iff_iff, written_store, or_iff_right (hout a)]

/-- Writing a string in two pieces. -/
theorem store_append (p : ℕ) (d e : Bytes) :
    (m.store p d).store (p + d.length) e = m.store p (d ++ e) := by
  have hsplit : ∀ a, InRange p (d ++ e).length a ↔
      InRange p d.length a ∨ InRange (p + d.length) e.length a := by
    intro a
    simp only [InRange, List.length_append]
    omega
  ext a
  · by_cases hd : InRange p d.length a
    · have he : ¬ InRange (p + d.length) e.length a := by
        simp only [InRange] at hd ⊢
        omega
      have hlt : a - p < d.length := by
        simp only [InRange] at hd
        omega
      rw [byte_store_of_not_inRange _ he, byte_store_of_inRange _ hd,
        byte_store_of_inRange _ ((hsplit a).mpr (.inl hd)), List.getD_append _ _ _ _ hlt]
    · by_cases he : InRange (p + d.length) e.length a
      · have hle : d.length ≤ a - p := by
          simp only [InRange] at he
          omega
        rw [byte_store_of_inRange _ he, byte_store_of_inRange _ ((hsplit a).mpr (.inr he)),
          List.getD_append_right _ _ _ _ hle, Nat.sub_sub]
      · have hout : ¬ InRange p (d ++ e).length a := fun h => ((hsplit a).mp h).elim hd he
        rw [byte_store_of_not_inRange _ he, byte_store_of_not_inRange _ hd,
          byte_store_of_not_inRange _ hout]
  · rw [Bool.eq_iff_iff, written_store, written_store, written_store, hsplit, ← or_assoc,
      or_comm (a := InRange p d.length a)]

/-- The later of two writes to the same place wins. -/
theorem store_store {p : ℕ} {d e : Bytes} (h : e.length = d.length) :
    (m.store p d).store p e = m.store p e := by
  ext a
  · by_cases ha : InRange p e.length a
    · rw [byte_store_of_inRange _ ha, byte_store_of_inRange _ ha]
    · rw [byte_store_of_not_inRange _ ha, byte_store_of_not_inRange _ ha,
        byte_store_of_not_inRange _ (by rwa [← h])]
  · rw [Bool.eq_iff_iff, written_store, written_store, written_store, h, ← or_assoc, or_self]

/-- Writes to disjoint places commute. -/
theorem store_comm {p q : ℕ} {d e : Bytes} (h : Separate p d.length q e.length) :
    (m.store p d).store q e = (m.store q e).store p d := by
  have hnot : ∀ a, InRange p d.length a → ¬ InRange q e.length a := by
    intro a hd he
    simp only [InRange] at hd he
    rcases h with h | h <;> omega
  ext a
  · by_cases hd : InRange p d.length a
    · rw [byte_store_of_not_inRange _ (hnot a hd), byte_store_of_inRange _ hd,
        byte_store_of_inRange _ hd]
    · by_cases he : InRange q e.length a
      · rw [byte_store_of_inRange _ he, byte_store_of_not_inRange _ hd, byte_store_of_inRange _ he]
      · rw [byte_store_of_not_inRange _ he, byte_store_of_not_inRange _ hd,
          byte_store_of_not_inRange _ hd, byte_store_of_not_inRange _ he]
  · rw [Bool.eq_iff_iff, written_store, written_store, written_store, written_store]
    exact or_left_comm

end Memory
