import MultipleCiphers.Lib.Bytes

/-!
# Hash functions that work on blocks

SHA1, SHA2 and MD5 take a message in by blocks of a fixed size, after padding it with a bit, zeros
and its length. Code takes it in as it comes, piece by piece: it keeps the bytes that do not yet
make a block in a buffer, and pads what is left there at the end. This file has the function
without a buffer, `BlockHash.hash`, and the relation `BlockHash.Buffered` between a state, a buffer
and the message they stand for.

HMAC is two such hashes, one around the other. For a message as long as a digest each of them is
one more block behind the block of the key, which is what a fast PBKDF2 makes use of.

## Main results

* `BlockHash.Buffered.update_of_lt`, `BlockHash.Buffered.update_of_le` — more of the message: the
  whole blocks are taken in, the rest is buffered.
* `BlockHash.Buffered.hash` — the end of the message.
* `getElem?_grow_of_le` — the words of a message schedule.
* `BlockHash.hmac_digest` — HMAC from the states behind the two blocks of the key.
-/

open Bytes

/-! ### Working variables that are renamed -/

/-- Read after write, for places that are computed. -/
theorem getElem_set_fin {α : Type*} {n : ℕ} (v : Vector α n) (i j : Fin n) (x : α) :
    (v.set i x)[j] = if i = j then x else v[j] := by
  simp only [Fin.getElem_fin, Vector.getElem_set, Fin.val_inj]

theorem ofNat_succ (n : ℕ) [NeZero n] (j : ℕ) : Fin.ofNat n (j + 1) = Fin.ofNat n j + 1 :=
  Fin.ext (Nat.add_mod j 1 n)

theorem ofNat_of_dvd {n : ℕ} [NeZero n] {r : ℕ} (h : n ∣ r) : Fin.ofNat n r = 0 :=
  Fin.ext ((Nat.mod_eq_zero_of_dvd h).trans (Nat.zero_mod n).symm)

/-! ### Message schedules -/

section Grow

variable {α : Type*}

/-- A list that grows at its end, each new element made from those before it. -/
def grow (f : List α → α) : ℕ → List α → List α
  | 0, w => w
  | n + 1, w => grow f n (w ++ [f w])

variable {f : List α → α} {n t : ℕ} {w : List α}

theorem length_grow : (grow f n w).length = w.length + n := by
  induction n generalizing w with
  | zero => rfl
  | succ n ih =>
    rw [grow, ih, List.length_append, List.length_singleton]
    omega

theorem take_grow : (grow f n w).take w.length = w := by
  induction n generalizing w with
  | zero => exact List.take_length
  | succ n ih =>
    have hpre := congrArg (List.take w.length) (ih (w := w ++ [f w]))
    rwa [List.take_take, List.length_append, Nat.min_eq_left (Nat.le_add_right _ _),
      List.take_left] at hpre

theorem getElem?_grow_of_lt (ht : t < w.length) : (grow f n w)[t]? = w[t]? := by
  conv_rhs => rw [← take_grow (f := f) (n := n) (w := w)]
  rw [List.getElem?_take_of_lt ht]

theorem grow_add {m : ℕ} : grow f (n + m) w = grow f m (grow f n w) := by
  induction n generalizing w with
  | zero => rw [Nat.zero_add, grow]
  | succ n ih => rw [Nat.succ_add, grow, ih, grow]

/-- Growing further leaves what is there. -/
theorem getElem?_grow_add {m : ℕ} (ht : t < w.length + n) :
    (grow f (n + m) w)[t]? = (grow f n w)[t]? := by
  rw [grow_add, getElem?_grow_of_lt (by rwa [length_grow])]

/-- An element that was not there from the start. -/
theorem getElem?_grow_of_le (hle : w.length ≤ t) (ht : t < w.length + n) :
    (grow f n w)[t]? = some (f ((grow f n w).take t)) := by
  induction n generalizing w with
  | zero => omega
  | succ n ih =>
    rcases Nat.eq_or_lt_of_le hle with rfl | hlt
    · rw [take_grow, grow, getElem?_grow_of_lt (by simp),
        List.getElem?_append_right (Nat.le_refl _),
        Nat.sub_self]
      rfl
    · exact ih (by rw [List.length_append]; exact hlt)
        (by rw [List.length_append, List.length_singleton]; omega)

end Grow

/-- A hash function over states `σ`. The length of the message, in bytes, is put behind it in a
field of a fixed size. -/
structure BlockHash (σ : Type*) where
  blockSize : ℕ
  digestSize : ℕ
  lengthSize : ℕ
  start : σ
  compress : σ → Bytes → σ
  digest : σ → Bytes
  encodeLength : ℕ → Bytes
  length_digest : ∀ s, (digest s).length = digestSize
  length_encodeLength : ∀ n, (encodeLength n).length = lengthSize
  /-- A digest and its padding fit into a block. -/
  digestSize_lt : digestSize + lengthSize < blockSize

namespace BlockHash

variable {σ : Type*} (H : BlockHash σ)

theorem blockSize_pos : 0 < H.blockSize := by
  have := H.digestSize_lt
  omega

/-- The state after the whole blocks of a string. -/
def absorb (s : σ) (b : Bytes) : σ :=
  if H.blockSize ≤ b.length then absorb (H.compress s (b.take H.blockSize)) (b.drop H.blockSize)
  else s
  termination_by b.length
  decreasing_by
    have := H.blockSize_pos
    rw [List.length_drop]
    omega

/-- What is put behind a message of `n` bytes: a bit, zeros up to the end of a block, and the
length in the last bytes. -/
def padding (n : ℕ) : Bytes :=
  0x80 :: zeros ((2 * H.blockSize - 1 - H.lengthSize - n % H.blockSize) % H.blockSize) ++
    H.encodeLength n

/-- The hash of a message. -/
def hash (m : Bytes) : Bytes := H.digest (H.absorb H.start (m ++ H.padding m.length))

variable {H}

@[simp] theorem length_hash (m : Bytes) : (H.hash m).length = H.digestSize := H.length_digest _

/-- The zeros are those that fill up the last block. -/
theorem zeros_eq {n z : ℕ} (hz : z < H.blockSize)
    (h : H.blockSize ∣ n + (1 + z + H.lengthSize)) :
    (2 * H.blockSize - 1 - H.lengthSize - n % H.blockSize) % H.blockSize = z := by
  have hlt := H.digestSize_lt
  have hmod := Nat.mod_lt n H.blockSize_pos
  obtain ⟨q, hq⟩ : H.blockSize ∣ n % H.blockSize + (1 + z + H.lengthSize) := by
    rw [← Nat.div_add_mod n H.blockSize, Nat.add_assoc] at h
    exact (Nat.dvd_add_right (Nat.dvd_mul_right _ _)).mp h
  have hq3 : q < 3 := Nat.lt_of_mul_lt_mul_left (show H.blockSize * q < H.blockSize * 3 by omega)
  have hq0 : q ≠ 0 := by
    rintro rfl
    omega
  obtain rfl | rfl : q = 1 ∨ q = 2 := by omega
  · rw [show 2 * H.blockSize - 1 - H.lengthSize - n % H.blockSize = z + H.blockSize by omega,
      Nat.add_mod_right, Nat.mod_eq_of_lt hz]
  · rw [show 2 * H.blockSize - 1 - H.lengthSize - n % H.blockSize = z by omega,
      Nat.mod_eq_of_lt hz]

/-- The padding, with as many zeros as fill up a block. -/
theorem padding_eq {n z : ℕ} (hz : z < H.blockSize)
    (h : H.blockSize ∣ n + (1 + z + H.lengthSize)) :
    H.padding n = 0x80 :: zeros z ++ H.encodeLength n := by
  rw [padding, zeros_eq hz h]

/-- A padded message is made of whole blocks. -/
theorem dvd_length_padding (n : ℕ) : H.blockSize ∣ n + (H.padding n).length := by
  have hlt := H.digestSize_lt
  obtain ⟨q, hq⟩ : ∃ q, H.blockSize * q + n % H.blockSize = n := ⟨_, Nat.div_add_mod _ _⟩
  have hmod := Nat.mod_lt n H.blockSize_pos
  have hlen : (H.padding n).length = 1 + (2 * H.blockSize - 1 - H.lengthSize - n % H.blockSize) %
      H.blockSize + H.lengthSize := by
    rw [padding, List.cons_append, List.length_cons, List.length_append, length_zeros,
      H.length_encodeLength]
    omega
  rw [hlen]
  generalize n % H.blockSize = r at *
  by_cases hfits : r + 1 + H.lengthSize ≤ H.blockSize
  · have hzeros : (2 * H.blockSize - 1 - H.lengthSize - r) % H.blockSize =
        H.blockSize - 1 - H.lengthSize - r := by
      rw [show 2 * H.blockSize - 1 - H.lengthSize - r =
        H.blockSize - 1 - H.lengthSize - r + H.blockSize by omega, Nat.add_mod_right,
        Nat.mod_eq_of_lt (by omega)]
    refine ⟨q + 1, ?_⟩
    rw [hzeros, Nat.mul_succ]
    omega
  · refine ⟨q + 2, ?_⟩
    rw [Nat.mod_eq_of_lt (by omega), Nat.mul_add]
    omega

/-! ### Whole blocks -/

theorem absorb_short {b : Bytes} (h : b.length < H.blockSize) (s : σ) : H.absorb s b = s := by
  rw [absorb, if_neg (by omega)]

@[simp] theorem absorb_nil (s : σ) : H.absorb s [] = s := absorb_short (b := []) H.blockSize_pos s

/-- A first block, and then the rest. -/
theorem absorb_block {b : Bytes} (h : b.length = H.blockSize) (s : σ) (m : Bytes) :
    H.absorb s (b ++ m) = H.absorb (H.compress s b) m := by
  rw [absorb, if_pos (by rw [List.length_append]; omega), ← h, List.take_left, List.drop_left]

theorem absorb_one {b : Bytes} (h : b.length = H.blockSize) (s : σ) :
    H.absorb s b = H.compress s b := by
  have hblock := absorb_block h s []
  rwa [List.append_nil, absorb_nil] at hblock

/-- Whole blocks, and then the rest. -/
theorem absorb_append {a : Bytes} (h : H.blockSize ∣ a.length) (s : σ) (b : Bytes) :
    H.absorb s (a ++ b) = H.absorb (H.absorb s a) b := by
  obtain ⟨q, hq⟩ := h
  induction q generalizing a s with
  | zero => rw [List.eq_nil_of_length_eq_zero hq, List.nil_append, absorb_nil]
  | succ q ih =>
    have hle : H.blockSize ≤ a.length := by
      rw [hq]
      exact Nat.le_mul_of_pos_right _ q.succ_pos
    have htake : (a.take H.blockSize).length = H.blockSize := by
      rw [List.length_take, Nat.min_eq_left hle]
    have hdrop : (a.drop H.blockSize).length = H.blockSize * q := by
      rw [List.length_drop, hq, Nat.mul_succ, Nat.add_sub_cancel]
    rw [← List.take_append_drop H.blockSize a, List.append_assoc, absorb_block htake,
      absorb_block htake, ih _ hdrop]

/-- The blocks of a string, one more of them. -/
theorem absorb_take_succ (s : σ) {b : Bytes} {q : ℕ} (h : H.blockSize * (q + 1) ≤ b.length) :
    H.absorb s (b.take (H.blockSize * (q + 1))) =
      H.compress (H.absorb s (b.take (H.blockSize * q)))
        (slice b (H.blockSize * q) H.blockSize) := by
  rw [Nat.mul_succ] at h ⊢
  have htake : (b.take (H.blockSize * q)).length = H.blockSize * q := by
    rw [List.length_take]
    omega
  have hslice : (slice b (H.blockSize * q) H.blockSize).length = H.blockSize :=
    length_slice_of_le h
  rw [List.take_add, ← slice, absorb_append ⟨q, htake⟩, absorb_one hslice]

/-- What is left behind the whole blocks does not matter. -/
theorem absorb_take (s : σ) (b : Bytes) {q : ℕ} (h : b.length / H.blockSize = q) :
    H.absorb s (b.take (H.blockSize * q)) = H.absorb s b := by
  have hdiv := Nat.div_add_mod b.length H.blockSize
  have hmod := Nat.mod_lt b.length H.blockSize_pos
  rw [h] at hdiv
  have hlen : (b.take (H.blockSize * q)).length = H.blockSize * q := by
    rw [List.length_take]
    omega
  conv_rhs => rw [← List.take_append_drop (H.blockSize * q) b]
  rw [absorb_append (by rw [hlen]; exact Nat.dvd_mul_right _ _)]
  refine (absorb_short ?_ _).symm
  rw [List.length_drop]
  omega

/-! ### A message that comes in pieces -/

/-- The state is that of the whole blocks of the message, and the buffer holds the rest. -/
def Buffered (H : BlockHash σ) (s : σ) (buffer m : Bytes) : Prop :=
  ∃ w, m = w ++ buffer ∧ H.blockSize ∣ w.length ∧ s = H.absorb H.start w ∧
    buffer.length < H.blockSize

namespace Buffered

variable {s : σ} {buffer m : Bytes}

theorem start : H.Buffered H.start [] [] :=
  ⟨[], rfl, Nat.dvd_zero _, (absorb_nil _).symm, H.blockSize_pos⟩

theorem length_eq (h : H.Buffered s buffer m) : buffer.length = m.length % H.blockSize := by
  obtain ⟨w, rfl, ⟨q, hq⟩, -, hlt⟩ := h
  rw [List.length_append, hq, Nat.mul_add_mod, Nat.mod_eq_of_lt hlt]

/-- **More of the message.** Of the buffer and the new piece together, the whole blocks are taken
in, and the rest is what is buffered then. -/
theorem update (h : H.Buffered s buffer m) (d : Bytes) {rest : Bytes}
    (hrest : rest = (buffer ++ d).drop (H.blockSize * ((buffer ++ d).length / H.blockSize))) :
    H.Buffered (H.absorb s (buffer ++ d)) rest (m ++ d) := by
  obtain ⟨w, rfl, hw, rfl, hlt⟩ := h
  obtain ⟨q, hq⟩ : ∃ q, (buffer ++ d).length / H.blockSize = q := ⟨_, rfl⟩
  have hdiv := Nat.div_add_mod (buffer ++ d).length H.blockSize
  have hmod := Nat.mod_lt (buffer ++ d).length H.blockSize_pos
  rw [hq] at hrest hdiv
  have hlen : ((buffer ++ d).take (H.blockSize * q)).length = H.blockSize * q := by
    rw [List.length_take]
    omega
  refine ⟨w ++ (buffer ++ d).take (H.blockSize * q), ?_, ?_, ?_, ?_⟩
  · rw [hrest, List.append_assoc, List.append_assoc, List.take_append_drop]
  · rw [List.length_append, hlen]
    exact Nat.dvd_add hw (Nat.dvd_mul_right _ _)
  · rw [absorb_append hw, absorb_take _ _ hq]
  · rw [hrest, List.length_drop]
    omega

/-- A piece that does not fill the block. -/
theorem update_of_lt (h : H.Buffered s buffer m) {d : Bytes}
    (hlt : buffer.length + d.length < H.blockSize) : H.Buffered s (buffer ++ d) (m ++ d) := by
  rw [← List.length_append] at hlt
  have hupdate := h.update d rfl
  rwa [absorb_short hlt, Nat.div_eq_of_lt hlt, Nat.mul_zero, List.drop_zero] at hupdate

/-- A piece that fills the block with its first `r` bytes, and what is behind them. -/
theorem update_of_le (h : H.Buffered s buffer m) {d : Bytes} {r : ℕ}
    (hr : buffer.length + r = H.blockSize) (hle : r ≤ d.length) :
    H.Buffered (H.absorb (H.compress s (buffer ++ d.take r)) (d.drop r))
      ((d.drop r).drop (H.blockSize * ((d.length - r) / H.blockSize))) (m ++ d) := by
  have hfull : (buffer ++ d.take r).length = H.blockSize := by
    rw [List.length_append, List.length_take, Nat.min_eq_left hle, hr]
  have hsplit : buffer ++ d = buffer ++ d.take r ++ d.drop r := by
    rw [List.append_assoc, List.take_append_drop]
  have hlen : (buffer ++ d).length = d.length - r + H.blockSize := by
    rw [List.length_append]
    omega
  have hupdate := h.update d rfl
  rw [hlen, Nat.add_div_right _ H.blockSize_pos, hsplit, absorb_block hfull, Nat.mul_succ,
    Nat.add_comm _ H.blockSize, ← List.drop_drop, ← hfull, List.drop_left, hfull] at hupdate
  exact hupdate

/-- The end of the message. -/
theorem absorb_padding (h : H.Buffered s buffer m) :
    H.absorb H.start (m ++ H.padding m.length) =
      H.absorb s (buffer ++ H.padding m.length) := by
  obtain ⟨w, rfl, hw, rfl, -⟩ := h
  rw [List.append_assoc, absorb_append hw]

/-- **The hash** of the message, from the state and the buffer. -/
theorem hash (h : H.Buffered s buffer m) :
    H.hash m = H.digest (H.absorb s (buffer ++ H.padding m.length)) := by
  rw [BlockHash.hash, h.absorb_padding]

theorem state_of_dvd (h : H.Buffered s buffer m) (hm : H.blockSize ∣ m.length) :
    s = H.absorb H.start m := by
  have hlen := h.length_eq
  rw [Nat.mod_eq_zero_of_dvd hm] at hlen
  obtain ⟨w, rfl, -, rfl, -⟩ := h
  rw [List.eq_nil_of_length_eq_zero hlen, List.append_nil]

end Buffered

/-! ### HMAC -/

section Hmac

variable (H)

/-- The key as a block: hashed if it is too long, and filled up with zeros. -/
def keyBlock (key : Bytes) : Bytes :=
  let k := if H.blockSize < key.length then H.hash key else key
  k ++ zeros (H.blockSize - k.length)

/-- A block combined with one byte throughout. -/
def masked (b : UInt8) (k : Bytes) : Bytes := k.map (b ^^^ ·)

/-- HMAC of a message under a key. -/
def hmac (key m : Bytes) : Bytes :=
  H.hash (masked 0x5c (H.keyBlock key) ++ H.hash (masked 0x36 (H.keyBlock key) ++ m))

/-- A digest behind a block, with the padding of both. -/
def digestBlock (u : Bytes) : Bytes := u ++ H.padding (H.blockSize + H.digestSize)

variable {H}

@[simp] theorem length_masked (b : UInt8) (k : Bytes) : (masked b k).length = k.length :=
  List.length_map _

@[simp] theorem length_keyBlock (key : Bytes) : (H.keyBlock key).length = H.blockSize := by
  have hlt := H.digestSize_lt
  simp only [keyBlock]
  split
  · rw [List.length_append, length_hash, length_zeros]
    omega
  · rw [List.length_append, length_zeros]
    omega

@[simp] theorem length_hmac (key m : Bytes) : (H.hmac key m).length = H.digestSize := length_hash _

theorem length_digestBlock {u : Bytes} (hu : u.length = H.digestSize) :
    (H.digestBlock u).length = H.blockSize := by
  have hlt := H.digestSize_lt
  have hdvd : H.blockSize ∣ H.blockSize + H.digestSize +
      (1 + (H.blockSize - 1 - H.lengthSize - H.digestSize) + H.lengthSize) :=
    ⟨2, by omega⟩
  rw [digestBlock, padding_eq (by omega) hdvd, List.length_append, List.length_append,
    List.length_cons, length_zeros, H.length_encodeLength, hu]
  omega

/-- The hash of a block and a digest is one block more. -/
theorem hash_block_digest {b u : Bytes} (hb : b.length = H.blockSize)
    (hu : u.length = H.digestSize) :
    H.hash (b ++ u) = H.digest (H.compress (H.compress H.start b) (H.digestBlock u)) := by
  rw [hash, List.length_append, hb, hu, List.append_assoc, absorb_block hb, ← digestBlock,
    absorb_one (length_digestBlock hu)]

/-- **HMAC of a digest** from the states behind the two blocks of the key. -/
theorem hmac_digest (key : Bytes) {u : Bytes} (hu : u.length = H.digestSize) :
    H.hmac key u =
      H.digest (H.compress (H.compress H.start (masked 0x5c (H.keyBlock key)))
        (H.digestBlock (H.digest (H.compress (H.compress H.start (masked 0x36 (H.keyBlock key)))
          (H.digestBlock u))))) := by
  have hmask : ∀ b, (masked b (H.keyBlock key)).length = H.blockSize := fun b => by
    rw [length_masked, length_keyBlock]
  rw [hmac, hash_block_digest (hmask _) (length_hash _), hash_block_digest (hmask _) hu]

end Hmac

end BlockHash
