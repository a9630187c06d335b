import Mathlib.Data.Nat.Basic
import Mathlib.Logic.Function.Basic

/-!
# A heap of objects

A heap gives the live objects at their addresses. Addresses are not used again, so that an object
that has been freed is never found, and to look at it is an error that shows. `Heap` carries with it
that nothing lives behind the last address given out.

## Main definitions

* `Heap`, `Heap.get`, `Heap.alloc`, `Heap.free`, `Heap.set`.
-/

/-- The live objects by their addresses. The next object gets the address `next`. -/
structure Heap (α : Type*) where
  get : ℕ → Option α
  next : ℕ
  beyond : ∀ a, next ≤ a → get a = none

namespace Heap

variable {α : Type*} {h : Heap α} {a b : ℕ} {x y : α}

/-- No objects. -/
def empty : Heap α := ⟨fun _ => none, 0, fun _ _ => rfl⟩

/-- A new object. -/
def alloc (h : Heap α) (x : α) : Heap α where
  get := Function.update h.get h.next (some x)
  next := h.next + 1
  beyond := by
    intro a ha
    rw [Function.update_of_ne (by omega)]
    exact h.beyond a (by omega)

/-- An object is freed. -/
def free (h : Heap α) (a : ℕ) : Heap α where
  get := Function.update h.get a none
  next := h.next
  beyond := by
    intro b hb
    by_cases hab : b = a
    · rw [hab, Function.update_self]
    · rw [Function.update_of_ne hab]
      exact h.beyond b hb

/-- A live object gets another value. -/
def set (h : Heap α) (a : ℕ) (x : α) : Heap α where
  get := Function.update h.get a ((h.get a).map fun _ => x)
  next := h.next
  beyond := by
    intro b hb
    by_cases hab : b = a
    · rw [hab, Function.update_self, h.beyond a (hab ▸ hb), Option.map_none]
    · rw [Function.update_of_ne hab]
      exact h.beyond b hb

@[simp] theorem get_next (h : Heap α) : h.get h.next = none := h.beyond h.next le_rfl

@[simp] theorem get_alloc_self (h : Heap α) (x : α) : (h.alloc x).get h.next = some x :=
  Function.update_self _ _ _

theorem get_alloc_of_ne (hne : a ≠ h.next) (x : α) : (h.alloc x).get a = h.get a :=
  Function.update_of_ne hne _ _

/-- A live object does not have the next address. -/
theorem ne_next (ha : h.get a = some x) : a ≠ h.next := by
  rintro rfl
  rw [get_next] at ha
  cases ha

/-- A new object leaves the others as they are. -/
theorem get_alloc (ha : h.get a = some x) (y : α) : (h.alloc y).get a = some x := by
  rw [get_alloc_of_ne (ne_next ha), ha]

@[simp] theorem get_free_self (h : Heap α) (a : ℕ) : (h.free a).get a = none :=
  Function.update_self _ _ _

theorem get_free_of_ne (hne : b ≠ a) : (h.free a).get b = h.get b :=
  Function.update_of_ne hne _ _

theorem get_set_self (ha : h.get a = some y) (x : α) : (h.set a x).get a = some x := by
  have hself : (h.set a x).get a = (h.get a).map fun _ => x := Function.update_self _ _ _
  rw [hself, ha, Option.map_some]

theorem get_set_of_ne (hne : b ≠ a) (x : α) : (h.set a x).get b = h.get b :=
  Function.update_of_ne hne _ _

end Heap
