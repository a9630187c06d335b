import Mathlib.Data.List.Nodup
import Mathlib.Logic.Function.Basic

/-!
# Singly linked lists

A singly linked list in memory is a pointer to its first node and a pointer in every node to the
next one. What it stands for is a list of nodes: `Linked next head nodes`. The three operations a
program makes on it are a search along the pointers, a new node in front, and the removal of a node
by a pointer that runs along the links and is then written through.

A search that meets a cycle does not end. The searches here are given a number of links they may
follow, and deliver nothing if that is not enough; a list of as many nodes is always enough.

## Main results

* `Linked.congr` — the pointers of other nodes do not matter.
* `Linked.push` — a new node in front.
* `Linked.findNode` — the search finds what is first in the list.
* `Linked.removeNode` — the removal takes the node out, and writes to no other list.
-/

namespace LinkedList

variable {α : Type*}

/-- The nodes from the pointer `head` on, along `next`. -/
def Linked (next : α → Option α) : Option α → List α → Prop
  | head, [] => head = none
  | head, a :: nodes => head = some a ∧ Linked next (next a) nodes

/-- The first node from `head` on with the property. The outer `none` is a search that does not
end within `fuel` links. -/
def findNode (next : α → Option α) (found : α → Bool) : ℕ → Option α → Option (Option α)
  | 0, _ => none
  | _ + 1, none => some none
  | fuel + 1, some a => if found a then some (some a) else findNode next found fuel (next a)

variable {next next' : α → Option α} {head : Option α} {nodes : List α}

/-- The pointers of other nodes do not matter. -/
theorem Linked.congr (h : Linked next head nodes) (hnext : ∀ a ∈ nodes, next' a = next a) :
    Linked next' head nodes := by
  induction nodes generalizing head with
  | nil => exact h
  | cons a nodes ih =>
    obtain ⟨hhead, hrest⟩ := h
    refine ⟨hhead, ?_⟩
    rw [hnext a List.mem_cons_self]
    exact ih hrest fun b hb => hnext b (List.mem_cons_of_mem a hb)

/-- **The search** delivers the first node with the property, or none. -/
theorem Linked.findNode (h : Linked next head nodes) (found : α → Bool) {fuel : ℕ}
    (hfuel : nodes.length < fuel) :
    LinkedList.findNode next found fuel head = some (nodes.find? found) := by
  induction nodes generalizing head fuel with
  | nil =>
    obtain rfl : head = none := h
    obtain ⟨fuel, rfl⟩ := Nat.exists_eq_add_of_lt hfuel
    rfl
  | cons a nodes ih =>
    obtain ⟨rfl, hrest⟩ := h
    cases fuel with
    | zero => exact absurd hfuel (Nat.not_lt_zero _)
    | succ fuel =>
      rw [LinkedList.findNode, List.find?_cons]
      cases hfound : found a with
      | true => rfl
      | false =>
        rw [if_neg (by decide)]
        exact ih hrest (by simpa using hfuel)

section Write

variable [DecidableEq α]

/-- A node is written in front of the list. -/
theorem Linked.push (h : Linked next head nodes) {a : α} (ha : a ∉ nodes) :
    Linked (Function.update next a head) (some a) (a :: nodes) := by
  refine ⟨rfl, ?_⟩
  rw [Function.update_self]
  refine h.congr fun b hb => Function.update_of_ne ?_ _ _
  rintro rfl
  exact ha hb

/-- The pointer that runs along the links: the node whose pointer leads to `a`, or the last one,
and whether it leads to `a`. No node stands for the pointer to the list itself. -/
def findSlot (next : α → Option α) (a : α) : ℕ → Option α → Option α → Option (Option α × Bool)
  | 0, _, _ => none
  | _ + 1, slot, none => some (slot, false)
  | fuel + 1, slot, some b =>
    if b = a then some (slot, true) else findSlot next a fuel (some b) (next b)

/-- A node is taken out: the pointer that leads to it gets the value of its own pointer, which is
cleared then. -/
def removeNode (next : α → Option α) (a : α) (fuel : ℕ) (head : Option α) :
    Option (Option α × (α → Option α)) :=
  (findSlot next a fuel none head).map fun
    | (none, true) => (next a, Function.update next a none)
    | (some b, true) => (head, Function.update (Function.update next b (next a)) a none)
    | (_, false) => (head, Function.update next a none)

/-- The pointer that leads to a node of the list is that of the node in front of it. -/
theorem Linked.findSlot {front back : List α} {a : α} (h : Linked next head (front ++ a :: back))
    (ha : a ∉ front) (slot : Option α) {fuel : ℕ} (hfuel : front.length < fuel) :
    LinkedList.findSlot next a fuel slot head = some ((front.getLast?).or slot, true) := by
  induction front generalizing head slot fuel with
  | nil =>
    obtain ⟨rfl, -⟩ := h
    obtain ⟨fuel, rfl⟩ := Nat.exists_eq_add_of_lt hfuel
    rw [LinkedList.findSlot, if_pos rfl]
    rfl
  | cons b front ih =>
    obtain ⟨rfl, hrest⟩ := h
    have hba : b ≠ a := fun h => ha (h ▸ List.mem_cons_self)
    cases fuel with
    | zero => exact absurd hfuel (Nat.not_lt_zero _)
    | succ fuel =>
      rw [LinkedList.findSlot, if_neg hba,
        ih hrest (fun h => ha (List.mem_cons_of_mem b h)) (some b) (by simpa using hfuel)]
      cases front with
      | nil => rfl
      | cons c front =>
        rw [List.getLast?_cons_cons, List.getLast?_eq_some_getLast (List.cons_ne_nil c front)]
        rfl

/-- What a list becomes when the pointer in front of a node is led past it. -/
theorem Linked.skip {front back : List α} {a : α} (h : Linked next head (front ++ a :: back))
    (hnodup : (front ++ a :: back).Nodup) :
    Linked (match front.getLast? with
      | none => next
      | some b => Function.update next b (next a))
      (match front.getLast? with
        | none => next a
        | some _ => head) (front ++ back) := by
  induction front generalizing head with
  | nil => exact h.2
  | cons b front ih =>
    obtain ⟨rfl, hrest⟩ := h
    obtain ⟨hb, hnodup'⟩ := List.nodup_cons.mp hnodup
    have hskip := ih hrest hnodup'
    cases front with
    | nil =>
      refine ⟨rfl, ?_⟩
      have hback : Linked next (next a) back := hrest.2
      rw [List.getLast?_singleton]
      simp only [Function.update_self]
      refine hback.congr fun c hc => Function.update_of_ne ?_ _ _
      rintro rfl
      exact hb (List.mem_append_right _ (List.mem_cons_of_mem a hc))
    | cons c front =>
      rw [List.getLast?_cons_cons]
      obtain ⟨d, hd⟩ : ∃ d, (c :: front).getLast? = some d := by
        rw [List.getLast?_eq_some_getLast (List.cons_ne_nil c front)]
        exact ⟨_, rfl⟩
      rw [hd] at hskip ⊢
      refine ⟨rfl, ?_⟩
      have hbd : b ≠ d := by
        rintro rfl
        exact hb (List.mem_append_left _ (List.mem_of_getLast? hd))
      dsimp only at hskip ⊢
      rwa [Function.update_of_ne hbd]

/-- **The removal** takes the node out of the list, and touches only pointers of nodes of the list.
The pointer of the node is cleared. -/
theorem Linked.removeNode (h : Linked next head nodes) (hnodup : nodes.Nodup) {a : α}
    (ha : a ∈ nodes) {fuel : ℕ} (hfuel : nodes.length < fuel) :
    ∃ head' next', LinkedList.removeNode next a fuel head = some (head', next') ∧
      Linked next' head' (nodes.erase a) ∧ next' a = none ∧
      ∀ b, b ∉ nodes → next' b = next b := by
  obtain ⟨front, back, rfl, hfront⟩ := List.eq_append_cons_of_mem ha
  have hlt : front.length < fuel := by
    rw [List.length_append] at hfuel
    omega
  have hskip := h.skip hnodup
  have hrest : a ∉ front ++ back := by
    have herase := hnodup.not_mem_erase (a := a)
    rwa [List.erase_append_right _ hfront, List.erase_cons_head] at herase
  have hmiddle : ∀ b, b ∉ front ++ a :: back → b ≠ a := by
    rintro b hb rfl
    exact hb ha
  rw [List.erase_append_right _ hfront, List.erase_cons_head, LinkedList.removeNode,
    h.findSlot hfront none hlt, Option.or_none, Option.map_some]
  -- the pointer in front of the node is that of the list, or that of the last node before it
  cases hlast : front.getLast? with
  | none =>
    simp only [hlast] at hskip
    refine ⟨_, _, rfl, ?_, Function.update_self .., ?_⟩
    · refine hskip.congr fun b hb => Function.update_of_ne ?_ _ _
      rintro rfl
      exact hrest hb
    · exact fun b hb => Function.update_of_ne (hmiddle b hb) _ _
  | some d =>
    simp only [hlast] at hskip
    refine ⟨_, _, rfl, ?_, Function.update_self .., ?_⟩
    · refine hskip.congr fun b hb => Function.update_of_ne ?_ _ _
      rintro rfl
      exact hrest hb
    · intro b hb
      rw [Function.update_of_ne (hmiddle b hb), Function.update_of_ne]
      rintro rfl
      exact hb (List.mem_append_left _ (List.mem_of_getLast? hlast))

end Write

end LinkedList
