import MultipleCiphers.Algorithms.ChaCha20

/-!
# The random number generator

Salts and nonces come from `chacha20_rng`. It keeps a buffer of 64 bytes, gives out what is left in
it, and fills it again when nothing is left; key and nonce are drawn from the system whenever the
counter is `0`, that is at the start and after `2 ^ 32` blocks. The buffer is not cleared before it
is filled: `chacha20_xor` combines a block of the key stream with what is in the buffer, so the
buffer is the exclusive or of all the blocks so far.

## What is proved

The bytes given out do not depend on how they are asked for. Request after request, the generator
delivers one fixed sequence, `rngByte`, from where the last request ended: no byte twice, none left
out. It aborts exactly if the system denies one of the draws that the bytes asked for need.

## Main results

* `ChaCha20Rng.At.refill` — where the generator stands when its buffer has been filled.
* `ChaCha20Rng.At.slice`, `ChaCha20Rng.At.take` — what one turn of the loop gives out, and where it
  leaves the generator.
* `chacha20Rng_spec` — one request.
* `chacha20RngRun_eq` — any sequence of requests.
-/

namespace MultipleCiphers

open Bytes

/-- The static variables of `chacha20_rng`, and the number of calls of `entropy` so far. -/
structure ChaCha20Rng where
  key : Bytes
  nonce : Bytes
  buffer : Bytes
  counter : UInt32
  available : ℕ
  calls : ℕ

/-- The static variables at the start of the program. -/
def ChaCha20Rng.start : ChaCha20Rng := ⟨zeros 32, zeros 12, zeros 64, 0, 0, 0⟩

section Generator

/- What the system answers to a call of `entropy`, by its number and the number of bytes wanted.
`none` is a failure, which aborts the program. -/
variable (entropy : ℕ → ℕ → Option Bytes)

/-- The new key and nonce when the counter is `0`. -/
def ChaCha20Rng.reseed (s : ChaCha20Rng) : Option ChaCha20Rng :=
  if s.counter = 0 then
    match entropy s.calls 32, entropy (s.calls + 1) 12 with
    | some key, some nonce => some { s with key, nonce, calls := s.calls + 2 }
    | _, _ => none
  else some s

/-- The buffer combined with the next block of the key stream. -/
def ChaCha20Rng.fill (s : ChaCha20Rng) : ChaCha20Rng :=
  { s with
    buffer := chacha20Xor s.buffer s.key s.nonce s.counter
    counter := s.counter + 1
    available := 64 }

/-- The buffer filled again, if nothing is left in it. -/
def ChaCha20Rng.refill (s : ChaCha20Rng) : Option ChaCha20Rng :=
  if s.available = 0 then (s.reseed entropy).map fill else some s

theorem ChaCha20Rng.refill_available {s t : ChaCha20Rng} (h : s.refill entropy = some t) :
    0 < t.available := by
  rw [refill] at h
  split at h
  · obtain ⟨u, -, rfl⟩ := Option.map_eq_some_iff.mp h
    exact Nat.zero_lt_succ 63
  · rename_i hne
    cases h
    omega

/-- `chacha20_rng`. -/
def chacha20Rng (s : ChaCha20Rng) (n : ℕ) : Option (Bytes × ChaCha20Rng) :=
  if n = 0 then some ([], s)
  else
    match _h : s.refill entropy with
    | none => none
    | some s =>
      let m := if s.available < n then s.available else n
      (chacha20Rng { s with available := s.available - m } (n - m)).map fun r =>
        (slice s.buffer (64 - s.available) m ++ r.1, r.2)
  termination_by n
  decreasing_by
    have := ChaCha20Rng.refill_available entropy _h
    split <;> omega

/-- One request after the other. -/
def chacha20RngRun (s : ChaCha20Rng) : List ℕ → Option (List Bytes × ChaCha20Rng)
  | [] => some ([], s)
  | n :: ns =>
    (chacha20Rng entropy s n).bind fun r =>
      (chacha20RngRun r.2 ns).map fun rs => (r.1 :: rs.1, rs.2)

/-! ### The sequence that is given out -/

/-- The state that block `j` of the key stream is made from: the `j / 2 ^ 32`-th key and nonce. -/
def rngState (j : ℕ) : ChaCha20State :=
  chacha20State ((entropy (2 * (j / 2 ^ 32)) 32).getD [])
    ((entropy (2 * (j / 2 ^ 32) + 1) 12).getD []) (UInt32.ofNat j)

/-- The buffer after it has been filled `j` times. -/
def rngBuffer : ℕ → Bytes
  | 0 => zeros 64
  | j + 1 => xorBytes (rngBuffer j) (chacha20KeyBlock (rngState entropy j))

/-- Byte `i` of the sequence. -/
def rngByte (i : ℕ) : UInt8 := (rngBuffer entropy (i / 64 + 1)).getD (i % 64) 0

/-- The number of blocks that the first `p` bytes are taken from. -/
def rngBlocks (p : ℕ) : ℕ := (p + 63) / 64

/-- The number of keys and nonces drawn for `j` blocks. -/
def rngEpochs (j : ℕ) : ℕ := (j + (2 ^ 32 - 1)) / 2 ^ 32

/-- The system answers for the first `e` keys and nonces. -/
def Seeded (e : ℕ) : Prop :=
  ∀ i < e, (entropy (2 * i) 32).isSome = true ∧ (entropy (2 * i + 1) 12).isSome = true

instance (e : ℕ) : Decidable (Seeded entropy e) := inferInstanceAs (Decidable (∀ i < e, _))

/-- The generator after `p` bytes, its buffer filled `j` times. -/
structure ChaCha20Rng.At (s : ChaCha20Rng) (p j : ℕ) : Prop where
  buffer : s.buffer = rngBuffer entropy j
  counter : s.counter = UInt32.ofNat j
  available : s.available + p = 64 * j
  available_le : s.available ≤ 64
  calls : s.calls = 2 * rngEpochs j
  seeded : Seeded entropy (rngEpochs j)
  /-- In the middle of an epoch the key and the nonce are those of the epoch. -/
  key : j % 2 ^ 32 ≠ 0 → entropy (2 * (j / 2 ^ 32)) 32 = some s.key ∧
    entropy (2 * (j / 2 ^ 32) + 1) 12 = some s.nonce

variable {entropy}

theorem Seeded.mono {d e : ℕ} (h : Seeded entropy e) (hle : d ≤ e) : Seeded entropy d :=
  fun i hi => h i (hi.trans_le hle)

@[simp] theorem length_rngBuffer (j : ℕ) : (rngBuffer entropy j).length = 64 := by
  induction j with
  | zero => rfl
  | succ j ih => rw [rngBuffer, length_xorBytes, ih, length_chacha20KeyBlock, Nat.min_self]

theorem ChaCha20Rng.start_at : ChaCha20Rng.start.At entropy 0 0 where
  buffer := rfl
  counter := rfl
  available := rfl
  available_le := Nat.zero_le 64
  calls := rfl
  seeded := fun i hi => absurd hi (Nat.not_lt_zero i)
  key := fun h => absurd rfl h

theorem ofNat_eq_zero_iff (j : ℕ) : UInt32.ofNat j = 0 ↔ j % 2 ^ 32 = 0 := by
  rw [← UInt32.toNat_inj, UInt32.toNat_ofNat']
  rfl

/-- A part of the buffer, as a part of the sequence. -/
theorem slice_rngBuffer {j off m p : ℕ} (hoff : off + m ≤ 64) (hp : p = 64 * j + off) :
    slice (rngBuffer entropy (j + 1)) off m =
      (List.range m).map fun i => rngByte entropy (p + i) := by
  have hlen : off + m ≤ (rngBuffer entropy (j + 1)).length := by rwa [length_rngBuffer]
  refine List.ext_getElem (by rw [length_slice_of_le hlen, List.length_map, List.length_range]) ?_
  intro i hi hi'
  have him : i < m := by rwa [length_slice_of_le hlen] at hi
  have hdiv : (p + i) / 64 = j := by omega
  have hmod : (p + i) % 64 = off + i := by omega
  rw [List.getElem_map, List.getElem_range, rngByte, hdiv, hmod,
    List.getD_eq_getElem _ _ (by omega)]
  exact Option.some_inj.mp (by
    rw [← List.getElem?_eq_getElem hi, getElem?_slice, if_pos him,
      List.getElem?_eq_getElem (by omega)])

theorem rngEpochs_mono {i j : ℕ} (h : i ≤ j) : rngEpochs i ≤ rngEpochs j :=
  Nat.div_le_div_right (Nat.add_le_add_right h _)

/-- The key and the nonce are new in front of a block whose counter is `0`, and kept otherwise. -/
theorem ChaCha20Rng.At.reseed {s : ChaCha20Rng} {p j : ℕ} (h : s.At entropy p j) :
    (Seeded entropy (rngEpochs (j + 1)) ∧ ∃ t, s.reseed entropy = some t ∧
      t.buffer = s.buffer ∧ t.counter = s.counter ∧ t.calls = 2 * rngEpochs (j + 1) ∧
      entropy (2 * (j / 2 ^ 32)) 32 = some t.key ∧
      entropy (2 * (j / 2 ^ 32) + 1) 12 = some t.nonce) ∨
    (¬Seeded entropy (rngEpochs (j + 1)) ∧ s.reseed entropy = none) := by
  rw [ChaCha20Rng.reseed, h.counter]
  by_cases hj : j % 2 ^ 32 = 0
  · have hcall : s.calls = 2 * (j / 2 ^ 32) := by
      rw [h.calls, rngEpochs]
      omega
    have hnext : rngEpochs (j + 1) = j / 2 ^ 32 + 1 := by
      rw [rngEpochs]
      omega
    rw [if_pos ((ofNat_eq_zero_iff j).mpr hj), hcall, hnext]
    cases hkey : entropy (2 * (j / 2 ^ 32)) 32 with
    | none =>
      refine .inr ⟨fun hseeded => ?_, rfl⟩
      have := (hseeded _ (Nat.lt_succ_self _)).1
      rw [hkey] at this
      cases this
    | some key =>
      cases hnonce : entropy (2 * (j / 2 ^ 32) + 1) 12 with
      | none =>
        refine .inr ⟨fun hseeded => ?_, rfl⟩
        have := (hseeded _ (Nat.lt_succ_self _)).2
        rw [hnonce] at this
        cases this
      | some nonce =>
        refine .inl ⟨fun i hi => ?_, _, rfl, rfl, h.counter.symm ▸ rfl, Nat.mul_succ 2 _ ▸ rfl, rfl,
          rfl⟩
        rcases Nat.lt_succ_iff_lt_or_eq.mp hi with hlt | rfl
        · have hold : rngEpochs j = j / 2 ^ 32 := by
            rw [rngEpochs]
            omega
          exact h.seeded i (hold ▸ hlt)
        · rw [hkey, hnonce]
          exact ⟨rfl, rfl⟩
  · have hnext : rngEpochs (j + 1) = rngEpochs j := by
      rw [rngEpochs, rngEpochs]
      omega
    rw [if_neg (fun h0 => hj ((ofNat_eq_zero_iff j).mp h0)), hnext]
    exact .inl ⟨h.seeded, s, rfl, rfl, h.counter, h.calls, h.key hj⟩

/-- The generator when something is left in its buffer, or when it had to be filled. -/
theorem ChaCha20Rng.At.refill {s : ChaCha20Rng} {p j : ℕ} (h : s.At entropy p j) :
    let j' := if s.available = 0 then j + 1 else j
    (Seeded entropy (rngEpochs j') ∧ ∃ t, s.refill entropy = some t ∧ t.At entropy p j' ∧
      0 < t.available) ∨
    (¬Seeded entropy (rngEpochs j') ∧ s.refill entropy = none) := by
  intro j'
  by_cases h0 : s.available = 0
  · have hj' : j' = j + 1 := if_pos h0
    have hp := h.available
    rw [hj', ChaCha20Rng.refill, if_pos h0]
    rcases h.reseed with ⟨hseeded, t, ht, hbuffer, hcounter, hcalls, hkey, hnonce⟩ | ⟨hno, hnone⟩
    · have hblock : chacha20KeyStream (chacha20State t.key t.nonce t.counter) 64 =
          chacha20KeyBlock (rngState entropy j) := by
        rw [chacha20KeyStream_short _ le_rfl, ← length_chacha20KeyBlock, List.take_length, rngState,
          hkey, hnonce, hcounter, h.counter]
        rfl
      refine .inl ⟨hseeded, t.fill, by rw [ht]; rfl, ?_, Nat.zero_lt_succ 63⟩
      exact {
        buffer := by
          change chacha20Xor t.buffer _ _ _ = _
          rw [chacha20Xor_eq, chacha20Stream, hbuffer, h.buffer, length_rngBuffer, hblock]
          rfl
        counter := by
          change t.counter + 1 = _
          rw [hcounter, h.counter, UInt32.ofNat_add]
          rfl
        available := by
          change 64 + p = _
          omega
        available_le := le_rfl
        calls := hcalls
        seeded := hseeded
        key := fun hmod => by
          have hdiv : (j + 1) / 2 ^ 32 = j / 2 ^ 32 := by omega
          rw [hdiv]
          exact ⟨hkey, hnonce⟩ }
    · exact .inr ⟨hno, by rw [hnone]; rfl⟩
  · have hj' : j' = j := if_neg h0
    rw [hj', ChaCha20Rng.refill, if_neg h0]
    exact .inl ⟨h.seeded, s, rfl, h, Nat.pos_of_ne_zero h0⟩

/-- Taking `m` bytes out of the buffer. -/
theorem ChaCha20Rng.At.take {s : ChaCha20Rng} {p j : ℕ} (h : s.At entropy p j) {m : ℕ}
    (hm : m ≤ s.available) :
    ({ s with available := s.available - m } : ChaCha20Rng).At entropy (p + m) j where
  buffer := h.buffer
  counter := h.counter
  available := by
    have := h.available
    change s.available - m + (p + m) = _
    omega
  available_le := (Nat.sub_le _ _).trans h.available_le
  calls := h.calls
  seeded := h.seeded
  key := h.key

theorem ChaCha20Rng.At.slice {s : ChaCha20Rng} {p j : ℕ} (h : s.At entropy p j)
    (hpos : 0 < s.available) {m : ℕ} (hm : m ≤ s.available) :
    slice s.buffer (64 - s.available) m = (List.range m).map fun i => rngByte entropy (p + i) := by
  have hp := h.available
  have hle := h.available_le
  obtain ⟨k, rfl⟩ := Nat.exists_eq_add_of_le' (show 1 ≤ j by omega)
  rw [h.buffer]
  exact slice_rngBuffer (by omega) (by omega)

/-- The sequence in two parts. -/
theorem map_rngByte_add (p m n : ℕ) :
    ((List.range m).map fun i => rngByte entropy (p + i)) ++
      ((List.range n).map fun i => rngByte entropy (p + m + i)) =
      (List.range (m + n)).map fun i => rngByte entropy (p + i) := by
  rw [List.range_add, List.map_append, List.map_map]
  simp only [Function.comp_def, Nat.add_assoc]

/-- The times the buffer has been filled when `n` more bytes are given out. -/
def rngFilled (j p n : ℕ) : ℕ := max j (rngBlocks (p + n))

/-- **One request.** The next `n` bytes of the sequence, unless the system denies a key or a nonce
that they need. -/
theorem chacha20Rng_spec {s : ChaCha20Rng} {p j : ℕ} (h : s.At entropy p j) (n : ℕ) :
    (Seeded entropy (rngEpochs (rngFilled j p n)) ∧ ∃ t, t.At entropy (p + n) (rngFilled j p n) ∧
      chacha20Rng entropy s n = some ((List.range n).map fun i => rngByte entropy (p + i), t)) ∨
    (¬Seeded entropy (rngEpochs (rngFilled j p n)) ∧ chacha20Rng entropy s n = none) := by
  fun_induction chacha20Rng entropy s n generalizing p j with
  | case1 s =>
    have hp := h.available
    have hfilled : rngFilled j p 0 = j := by
      rw [rngFilled, rngBlocks]
      omega
    rw [hfilled]
    exact .inl ⟨h.seeded, s, h, rfl⟩
  | case2 s n hn hnone =>
    have hp := h.available
    rcases h.refill with ⟨-, t, ht, -⟩ | ⟨hno, -⟩
    · rw [hnone] at ht
      cases ht
    · refine .inr ⟨fun hseeded => hno (hseeded.mono (rngEpochs_mono ?_)), rfl⟩
      rw [rngFilled, rngBlocks]
      split <;> omega
  | case3 s n hn t ht m =>
    rename_i ih
    have hp := h.available
    rcases h.refill with ⟨hseeded, t', ht', hat, hpos⟩ | ⟨-, hnone⟩
    · obtain rfl : t = t' := Option.some_inj.mp (ht.symm.trans ht')
      have hm : m ≤ t.available := by
        change (if t.available < n then t.available else n) ≤ _
        split <;> omega
      have hmn : m ≤ n := by
        change (if t.available < n then t.available else n) ≤ _
        split <;> omega
      have hfilled : rngFilled (if s.available = 0 then j + 1 else j) (p + m) (n - m) =
          rngFilled j p n := by
        rw [rngFilled, rngFilled, rngBlocks, rngBlocks]
        split <;> omega
      have hsum : p + m + (n - m) = p + n := by omega
      have hrest := ih (hat.take hm)
      rw [hfilled, hsum] at hrest
      rcases hrest with ⟨hall, u, hu, heq⟩ | ⟨hno, hnone⟩
      · refine .inl ⟨hall, u, hu, ?_⟩
        rw [heq, Option.map_some, hat.slice hpos hm, map_rngByte_add, Nat.add_sub_cancel' hmn]
      · exact .inr ⟨hno, by rw [hnone]; rfl⟩
    · rw [ht] at hnone
      cases hnone

theorem chacha20RngRun_spec {s : ChaCha20Rng} {p j : ℕ} (h : s.At entropy p j) (ns : List ℕ) :
    (Seeded entropy (rngEpochs (rngFilled j p ns.sum)) ∧ ∃ outs t,
      chacha20RngRun entropy s ns = some (outs, t) ∧ outs.map List.length = ns ∧
      outs.flatten = (List.range ns.sum).map fun i => rngByte entropy (p + i)) ∨
    (¬Seeded entropy (rngEpochs (rngFilled j p ns.sum)) ∧ chacha20RngRun entropy s ns = none) := by
  induction ns generalizing s p j with
  | nil =>
    have hp := h.available
    have hfilled : rngFilled j p 0 = j := by
      rw [rngFilled, rngBlocks]
      omega
    rw [List.sum_nil, hfilled]
    exact .inl ⟨h.seeded, [], s, rfl, rfl, rfl⟩
  | cons n ns ih =>
    rw [List.sum_cons, chacha20RngRun]
    rcases chacha20Rng_spec h n with ⟨-, t, ht, heq⟩ | ⟨hno, hnone⟩
    · have hfilled : rngFilled (rngFilled j p n) (p + n) ns.sum = rngFilled j p (n + ns.sum) := by
        rw [rngFilled, rngFilled, rngFilled, rngBlocks, rngBlocks, rngBlocks]
        omega
      have hrest := ih ht
      rw [hfilled] at hrest
      rw [heq, Option.bind_some]
      rcases hrest with ⟨hall, outs, u, hrun, hlen, hflat⟩ | ⟨hno, hnone⟩
      · refine .inl ⟨hall, _, u, by rw [hrun]; rfl, ?_, ?_⟩
        · rw [List.map_cons, hlen, List.length_map, List.length_range]
        · rw [List.flatten_cons, hflat, map_rngByte_add]
      · exact .inr ⟨hno, by rw [hnone]; rfl⟩
    · rw [hnone]
      refine .inr ⟨fun hseeded => hno (hseeded.mono (rngEpochs_mono ?_)), rfl⟩
      rw [rngFilled, rngFilled, rngBlocks, rngBlocks]
      omega

end Generator

/-- **Any sequence of requests.** From the start of the program on, whatever is asked for: the
answers are as long as wanted, and together they are the beginning of one sequence, which does not
depend on the requests. The program aborts exactly if the system denies a key or a nonce for one of
the blocks that the bytes are taken from. -/
theorem chacha20RngRun_eq (entropy : ℕ → ℕ → Option Bytes) (ns : List ℕ) :
    (chacha20RngRun entropy .start ns).map (fun r => (r.1.map List.length, r.1.flatten)) =
      if Seeded entropy (rngEpochs (rngBlocks ns.sum)) then
        some (ns, (List.range ns.sum).map (rngByte entropy))
      else none := by
  have hfilled : rngFilled 0 0 ns.sum = rngBlocks ns.sum := by
    rw [rngFilled, Nat.zero_add, Nat.zero_max]
  have hstart : ChaCha20Rng.start.At entropy 0 0 := ChaCha20Rng.start_at
  have h := chacha20RngRun_spec hstart ns
  rw [hfilled] at h
  rcases h with ⟨hseeded, outs, t, hrun, hlen, hflat⟩ | ⟨hno, hnone⟩
  · rw [hrun, if_pos hseeded, Option.map_some, hlen, hflat]
    simp only [Nat.zero_add]
  · rw [hnone, if_neg hno, Option.map_none]

end MultipleCiphers
