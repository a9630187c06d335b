import MultipleCiphers.Lib.Heap
import Mathlib.Data.List.Forall2

/-!
# Arrays in memory

A routine that packs several lists into one array works with pointers into arrays: it reads a list
up to the entry that ends it, and it writes entries one after another. Here the live arrays are a
heap, and each entry of an array may or may not have been written yet. To read an entry that has
not been written, or to read or write behind the end of an array, is an error that shows.

A routine that fills an array from the left finds it, at any time, as the entries `xs` written so
far and `n` entries that are not written yet. The laws of `write` and `copy` are equations between
memories in this state, so that what a whole loop does is one equation too.

## Main definitions

* `ArrayPtr`, `ArrayMemory.read`, `ArrayMemory.write`, `ArrayMemory.malloc`, `ArrayMemory.copy`.
* `ArrayMemory.untilEnd`, `ArrayMemory.countUntilEnd` — a list that is ended by one of its entries.

## Main results

* `ArrayMemory.untilEnd_eq_some_iff` — what is in the memory where a list can be read.
* `ArrayMemory.write_next`, `ArrayMemory.copy_next` — filling an array from the left.
-/

/-- A pointer to an entry of an array. -/
structure ArrayPtr where
  array : ℕ
  index : ℕ
  deriving DecidableEq

/-- The pointer to the entry `k` places further on. -/
def ArrayPtr.add (p : ArrayPtr) (k : ℕ) : ArrayPtr := ⟨p.array, p.index + k⟩

@[simp] theorem ArrayPtr.add_array (p : ArrayPtr) (k : ℕ) : (p.add k).array = p.array := rfl

@[simp] theorem ArrayPtr.add_zero (p : ArrayPtr) : p.add 0 = p := rfl

/-! ### Two laws of heaps -/

namespace Heap

variable {α : Type*}

/-- The later of two values stays. -/
theorem set_set (h : Heap α) (a : ℕ) (x y : α) : (h.set a x).set a y = h.set a y := by
  have hmap : ((h.get a).map fun _ => x).map (fun _ => y) = (h.get a).map fun _ => y := by
    cases h.get a <;> rfl
  simp only [set, Function.update_self, Function.update_idem, hmap]

/-- A value that is there already. -/
theorem set_get {h : Heap α} {a : ℕ} {x : α} (ha : h.get a = some x) : h.set a x = h := by
  have hupdate : Function.update h.get a ((h.get a).map fun _ => x) = h.get := by
    rw [ha]
    exact Function.update_eq_self_iff.mpr ha.symm
  cases h
  simp only [set, mk.injEq, and_true]
  exact hupdate

/-- A new object gets another value. -/
theorem set_alloc (h : Heap α) (x y : α) : (h.alloc x).set h.next y = h.alloc y := by
  simp only [alloc, set, Function.update_self, Function.update_idem, Option.map_some]

/-- A new object that is freed leaves all others as they are. -/
theorem get_free_alloc (h : Heap α) (x : α) (a : ℕ) :
    ((h.alloc x).free h.next).get a = h.get a := by
  by_cases ha : a = h.next
  · rw [ha, get_free_self, get_next]
  · rw [get_free_of_ne ha, get_alloc_of_ne ha]

end Heap

/-! ### Lists -/

namespace List

variable {α β : Type*}

theorem exists_of_mem_modify {f : α → α} {i : ℕ} {l : List α} {x : α} (h : x ∈ l.modify i f) :
    ∃ y ∈ l, x = y ∨ x = f y := by
  obtain ⟨j, hj⟩ := mem_iff_getElem?.mp h
  rw [getElem?_modify] at hj
  obtain ⟨y, hy, rfl⟩ := Option.map_eq_some_iff.mp hj
  refine ⟨y, mem_of_getElem? hy, ?_⟩
  split_ifs
  · exact Or.inr rfl
  · exact Or.inl rfl

theorem map_modify {f : α → α} {g : β → β} {φ : α → β} (h : ∀ x, φ (f x) = g (φ x)) (i : ℕ)
    (l : List α) : (l.modify i f).map φ = (l.map φ).modify i g := by
  refine ext_getElem? fun j => ?_
  rw [getElem?_map, getElem?_modify, getElem?_modify, getElem?_map]
  cases l[j]? with
  | none => rfl
  | some x =>
    simp only [Option.map_eq_map, Option.map_some, Option.some_inj]
    split_ifs
    · exact h x
    · rfl

/-- All the values are there. -/
theorem mapM_eq_some_iff {f : α → Option β} {xs : List α} {ys : List β} :
    xs.mapM f = some ys ↔ Forall₂ (fun x y => f x = some y) xs ys := by
  induction xs generalizing ys with
  | nil =>
    rw [mapM_nil, forall₂_nil_left_iff]
    exact ⟨fun h => (Option.some_inj.mp h).symm, fun h => congrArg some h.symm⟩
  | cons x xs ih =>
    rw [mapM_cons]
    constructor
    · intro h
      obtain ⟨y, hy, h⟩ := Option.bind_eq_some_iff.mp h
      obtain ⟨ys', hys, h⟩ := Option.bind_eq_some_iff.mp h
      obtain rfl := Option.some_inj.mp h
      exact Forall₂.cons hy (ih.mp hys)
    · intro h
      cases h with
      | cons hy hys => exact Option.bind_eq_some_iff.mpr ⟨_, hy, by rw [ih.mpr hys]; rfl⟩

variable {R S : α → β → Prop} {xs : List α} {ys : List β}

theorem Forall₂.exists_of_mem (h : Forall₂ R xs ys) {x : α} (hx : x ∈ xs) : ∃ y ∈ ys, R x y := by
  induction h with
  | nil => exact (not_mem_nil hx).elim
  | @cons x' y xs ys hxy _ ih =>
    rcases mem_cons.mp hx with rfl | hx
    · exact ⟨y, mem_cons_self, hxy⟩
    · obtain ⟨y', hy', hxy'⟩ := ih hx
      exact ⟨y', mem_cons_of_mem _ hy', hxy'⟩

theorem exists_forall₂ (h : ∀ x ∈ xs, ∃ y, R x y) : ∃ ys, Forall₂ R xs ys := by
  induction xs with
  | nil => exact ⟨[], Forall₂.nil⟩
  | cons x xs ih =>
    obtain ⟨⟨y, hy⟩, h⟩ := forall_mem_cons.mp h
    obtain ⟨ys, hys⟩ := ih h
    exact ⟨y :: ys, Forall₂.cons hy hys⟩

theorem Forall₂.imp_of_mem (h : Forall₂ R xs ys) (himp : ∀ x ∈ xs, ∀ y, R x y → S x y) :
    Forall₂ S xs ys := by
  induction h with
  | nil => exact Forall₂.nil
  | @cons x y xs ys hxy _ ih =>
    obtain ⟨hx, himp⟩ := forall_mem_cons.mp himp
    exact Forall₂.cons (hx y hxy) (ih himp)

end List

/-! ### Arrays -/

/-- The live arrays. An entry that has not been written yet is `none`. -/
abbrev ArrayMemory (α : Type*) := Heap (List (Option α))

namespace ArrayMemory

variable {α : Type*}

/-- The entry at `p`. -/
def read (m : ArrayMemory α) (p : ArrayPtr) : Option α :=
  (m.get p.array).bind fun cells => cells[p.index]?.join

/-- The entry at `p` is written. -/
def write (m : ArrayMemory α) (p : ArrayPtr) (x : α) : Option (ArrayMemory α) :=
  (m.get p.array).bind fun cells =>
    if p.index < cells.length then some (m.set p.array (cells.set p.index (some x))) else none

/-- A new array of `n` entries, or the null pointer, which is also what no entries get. -/
def malloc (m : ArrayMemory α) (n : ℕ) (granted : Bool) : Option ℕ × ArrayMemory α :=
  if n = 0 ∨ granted = false then (none, m)
  else (some m.next, m.alloc (List.replicate n none))

/-- The `n` entries at `src` are copied to `dst` one after another. -/
def copy (m : ArrayMemory α) (src dst : ArrayPtr) : ℕ → Option (ArrayMemory α)
  | 0 => some m
  | n + 1 =>
    (read m src).bind fun x => (write m dst x).bind fun m' => copy m' (src.add 1) (dst.add 1) n

/-- The entries in front of the first one that ends the list. -/
def untilEnd (ends : α → Option Bool) : List (Option α) → Option (List α)
  | some x :: rest =>
    (ends x).bind fun e => if e then some [] else (untilEnd ends rest).map (x :: ·)
  | _ => none

/-- The number of these entries, as a loop counts them. -/
def countUntilEnd (ends : α → Option Bool) : List (Option α) → Option ℕ
  | some x :: rest =>
    (ends x).bind fun e => if e then some 0 else (countUntilEnd ends rest).map (· + 1)
  | _ => none

/-- The entries from `p` on. -/
def cellsFrom (m : ArrayMemory α) (p : ArrayPtr) : List (Option α) :=
  ((m.get p.array).getD []).drop p.index

variable {m : ArrayMemory α} {ends : α → Option Bool} {cells : List (Option α)} {xs ys : List α}

theorem countUntilEnd_eq : countUntilEnd ends cells = (untilEnd ends cells).map List.length := by
  induction cells with
  | nil => rfl
  | cons cell cells ih =>
    cases cell with
    | none => rfl
    | some x =>
      rw [countUntilEnd, untilEnd]
      cases ends x with
      | none => rfl
      | some e =>
        cases e
        · simp only [Option.bind_some, Bool.false_eq_true, if_false, ih, Option.map_map]
          rfl
        · rfl

/-- **A list that can be read** is there with the entry that ends it. -/
theorem untilEnd_eq_some_iff :
    untilEnd ends cells = some xs ↔ ∃ z rest, cells = xs.map some ++ some z :: rest ∧
      (∀ x ∈ xs, ends x = some false) ∧ ends z = some true := by
  induction cells generalizing xs with
  | nil =>
    constructor
    · intro h
      cases h
    · rintro ⟨z, rest, h, -⟩
      exact absurd h.symm (List.append_ne_nil_of_right_ne_nil _ (List.cons_ne_nil _ _))
  | cons cell cells ih =>
    constructor
    · intro h
      cases cell with
      | none => cases h
      | some x =>
        obtain ⟨e, he, h⟩ := Option.bind_eq_some_iff.mp h
        cases e with
        | true =>
          obtain rfl := Option.some_inj.mp h
          exact ⟨x, cells, rfl, fun _ hx => (List.not_mem_nil hx).elim, he⟩
        | false =>
          obtain ⟨ys, hys, rfl⟩ := Option.map_eq_some_iff.mp h
          obtain ⟨z, rest, rfl, hxs, hz⟩ := ih.mp hys
          exact ⟨z, rest, rfl, List.forall_mem_cons.mpr ⟨he, hxs⟩, hz⟩
    · rintro ⟨z, rest, h, hxs, hz⟩
      cases xs with
      | nil =>
        obtain ⟨rfl, rfl⟩ := List.cons_eq_cons.mp h
        rw [untilEnd, hz]
        rfl
      | cons x xs =>
        obtain ⟨rfl, rfl⟩ := List.cons_eq_cons.mp h
        obtain ⟨hx, hxs⟩ := List.forall_mem_cons.mp hxs
        rw [untilEnd, hx, ih.mpr ⟨z, rest, rfl, hxs, hz⟩]
        rfl

/-- What ends a list is seen in a part of each entry. -/
theorem untilEnd_map {β : Type*} (f : α → β) (ends : β → Option Bool) (cells : List (Option α)) :
    untilEnd ends (cells.map (Option.map f)) =
      (untilEnd (fun x => ends (f x)) cells).map (List.map f) := by
  induction cells with
  | nil => rfl
  | cons cell cells ih =>
    cases cell with
    | none => rfl
    | some x =>
      rw [List.map_cons, Option.map_some, untilEnd, untilEnd, ih]
      cases ends (f x) with
      | none => rfl
      | some e =>
        cases e
        · simp only [Option.bind_some, Bool.false_eq_true, if_false, Option.map_map]
          rfl
        · rfl

theorem cellsFrom_congr {m' : ArrayMemory α} {p : ArrayPtr}
    (h : m'.get p.array = m.get p.array) : cellsFrom m' p = cellsFrom m p := by
  rw [cellsFrom, cellsFrom, h]

/-- Where something can be read, there is an array. -/
theorem isSome_of_cellsFrom {p : ArrayPtr} (h : cellsFrom m p ≠ []) : (m.get p.array).isSome := by
  cases hget : m.get p.array with
  | some cells => rfl
  | none => exact absurd (by rw [cellsFrom, hget]; exact List.drop_nil) h

theorem read_eq (m : ArrayMemory α) (p : ArrayPtr) : read m p = (cellsFrom m p)[0]?.join := by
  rw [read, cellsFrom, List.getElem?_drop, Nat.add_zero]
  cases m.get p.array <;> rfl

theorem cellsFrom_add (m : ArrayMemory α) (p : ArrayPtr) (k : ℕ) :
    cellsFrom m (p.add k) = (cellsFrom m p).drop k := by
  rw [cellsFrom, cellsFrom, List.drop_drop]
  rfl

/-! ### One write -/

theorem write_eq_some_iff {m' : ArrayMemory α} {p : ArrayPtr} {x : α} :
    write m p x = some m' ↔ ∃ cells, m.get p.array = some cells ∧ p.index < cells.length ∧
      m.set p.array (cells.set p.index (some x)) = m' := by
  constructor
  · intro h
    obtain ⟨cells, hcells, h⟩ := Option.bind_eq_some_iff.mp h
    split_ifs at h with hlt
    exact ⟨cells, hcells, hlt, Option.some_inj.mp h⟩
  · rintro ⟨cells, hcells, hlt, rfl⟩
    rw [write, hcells, Option.bind_some, if_pos hlt]

/-- A write to another array. -/
theorem get_write_of_ne {m' : ArrayMemory α} {p : ArrayPtr} {x : α} {a : ℕ}
    (h : write m p x = some m') (ha : a ≠ p.array) : m'.get a = m.get a := by
  obtain ⟨cells, -, -, rfl⟩ := write_eq_some_iff.mp h
  exact Heap.get_set_of_ne ha _

/-- A write that leaves a part of the entry as it was. -/
theorem map_cellsFrom_write {β : Type*} (f : α → β) {m' : ArrayMemory α} {p : ArrayPtr} {x y : α}
    (h : write m p x = some m') (hread : read m p = some y) (hf : f x = f y) (q : ArrayPtr) :
    (cellsFrom m' q).map (Option.map f) = (cellsFrom m q).map (Option.map f) := by
  obtain ⟨cells, hcells, hlt, rfl⟩ := write_eq_some_iff.mp h
  by_cases hq : q.array = p.array
  · have hcell : cells[p.index] = some y := by
      rw [read, hcells, Option.bind_some, List.getElem?_eq_getElem hlt] at hread
      exact hread
    have hset : (cells.set p.index (some x)).map (Option.map f) = cells.map (Option.map f) := by
      rw [List.map_set, Option.map_some, hf, ← Option.map_some, ← hcell,
        ← List.getElem_map (Option.map f) (h := by rwa [List.length_map]), List.set_getElem_self]
    rw [cellsFrom, cellsFrom, hq, Heap.get_set_self hcells, hcells, Option.getD_some,
      Option.getD_some, List.map_drop, List.map_drop, hset]
  · rw [cellsFrom_congr (Heap.get_set_of_ne hq _)]

/-! ### Filling an array from the left -/

/-- **The next entry is written.** -/
theorem write_next {a n : ℕ} (ha : m.get a = some (xs.map some ++ List.replicate (n + 1) none))
    (x : α) : write m ⟨a, xs.length⟩ x =
      some (m.set a ((xs ++ [x]).map some ++ List.replicate n none)) := by
  have hlen : xs.length < (xs.map some ++ List.replicate (n + 1) (none : Option α)).length := by
    rw [List.length_append, List.length_map, List.length_replicate]
    omega
  have hset : (xs.map some ++ List.replicate (n + 1) none).set xs.length (some x) =
      (xs ++ [x]).map some ++ List.replicate n none := by
    rw [List.set_append_right _ _ (Nat.le_of_eq (List.length_map some)), List.length_map,
      Nat.sub_self,
      List.replicate_succ, List.set_cons_zero, List.map_append, List.append_assoc]
    rfl
  rw [write, ha, Option.bind_some, if_pos hlen, hset]

/-- **The next entries are copied** from another array. -/
theorem copy_next {a n : ℕ} {src : ArrayPtr} {rest : List (Option α)}
    (hsrc : cellsFrom m src = ys.map some ++ rest) (hne : src.array ≠ a)
    (ha : m.get a = some (xs.map some ++ List.replicate (ys.length + n) none)) :
    copy m src ⟨a, xs.length⟩ ys.length =
      some (m.set a ((xs ++ ys).map some ++ List.replicate n none)) := by
  induction ys generalizing m src xs with
  | nil =>
    rw [List.length_nil, Nat.zero_add] at ha
    rw [List.length_nil, List.append_nil, copy, Heap.set_get ha]
  | cons y ys ih =>
    have hread : read m src = some y := by
      rw [read_eq, hsrc]
      rfl
    have ha' : m.get a = some (xs.map some ++ List.replicate (ys.length + n + 1) none) := by
      rw [ha, List.length_cons, Nat.add_right_comm]
    have hsrc' : cellsFrom (m.set a ((xs ++ [y]).map some ++ List.replicate (ys.length + n) none))
        (src.add 1) = ys.map some ++ rest := by
      have hget := Heap.get_set_of_ne (h := m) hne
        ((xs ++ [y]).map some ++ List.replicate (ys.length + n) none)
      rw [cellsFrom_add, cellsFrom_congr hget, hsrc]
      rfl
    have hrest := ih hsrc' hne (Heap.get_set_self ha' _)
    rw [List.length_append, Heap.set_set, List.append_assoc] at hrest
    rw [List.length_cons, copy, hread, Option.bind_some, write_next ha', Option.bind_some]
    exact hrest

end ArrayMemory
