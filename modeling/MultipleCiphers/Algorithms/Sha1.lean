import MultipleCiphers.Lib.BlockHash
import MultipleCiphers.Lib.Words
import Mathlib.Tactic.FinCases
import Mathlib.Tactic.IntervalCases

/-!
# SHA-1

`sha1_transform` keeps sixteen words of the message schedule in a ring, turns a word round the
first time it uses it when the processor puts the lowest byte first, and renames the five working
variables from round to round instead of moving them. `sha1_update` counts bits in two words, and
`sha1_final` pads by updates: one byte `0x80`, single zeros until eight bytes are left in the block,
and the count.

The description to compare it with is that of the standard: a schedule of eighty words, five
variables that move on, and `BlockHash.hash` for the message as a whole.

## The carry

The count of bits is right as long as no single update has 2²⁹ bytes or more. `sha1_update` looks
for the carry with `(count[0] += (uint32_t) (len << 3)) < (len << 3)`, and there the right side has
64 bits: from 2²⁹ bytes on it is larger than every 32-bit word, and the carry is taken to be there
whether it is or not. Short updates add up to any length.

## Main results

* `sha1Rounds_eq` — the rounds of the code are those of the standard.
* `Sha1Ctx.Reads.update`, `Sha1Ctx.Reads.final` — what a context stands for, update by update.
* `sha1Final_updates` — the digest of a message that came in pieces.
-/

namespace MultipleCiphers

open Bytes

/-- `sha1_ctx`. The counters are words of 32 bits. -/
structure Sha1Ctx where
  h : Vector UInt32 5
  count0 : ℕ
  count1 : ℕ
  buffer : Bytes

/-! ### One block -/

/-- `rol` and `ror`. -/
def rol (value bits : UInt32) : UInt32 := value <<< bits ||| value >>> (32 - bits)
def ror (value bits : UInt32) : UInt32 := value <<< (32 - bits) ||| value >>> bits

/-- `blk0le` and `blk0be`: what the word becomes. `little` is what `*(unsigned char*)&one` says. -/
def blk0 (little : Bool) (word : UInt32) : UInt32 :=
  if little then ror word 8 &&& 0xFF00FF00 ||| rol word 8 &&& 0x00FF00FF else word

theorem mod16_lt (i : ℕ) : i % 16 < 16 := Nat.mod_lt i (by decide)

/-- `i & 15`, the place of word `i`. -/
def ringPlace (i : ℕ) : Fin 16 := ⟨i % 16, mod16_lt i⟩

/-- `blk`: what word `i & 15` becomes. -/
def blk (block : Vector UInt32 16) (i : ℕ) : UInt32 :=
  rol (block[ringPlace (i + 13)] ^^^ block[ringPlace (i + 8)] ^^^
    block[ringPlace (i + 2)] ^^^ block[ringPlace i]) 1

/-- The function of `Rl0`, `Rb0` and `R1` to `R4`, and the constant. -/
def sha1F (i : ℕ) (w x y : UInt32) : UInt32 :=
  if i < 20 then (w &&& (x ^^^ y)) ^^^ y
  else if i < 40 then w ^^^ x ^^^ y
  else if i < 60 then (w ||| x) &&& y ||| w &&& x
  else w ^^^ x ^^^ y

def sha1K (i : ℕ) : UInt32 :=
  if i < 20 then 0x5A827999 else if i < 40 then 0x6ED9EBA1 else if i < 60 then 0x8F1BBCDC
  else 0xCA62C1D6

/-- Round `i`: `Rl0(a, b, c, d, e, 0); Rl0(e, a, b, c, d, 1); …`. -/
def sha1Step (little : Bool) (s : Vector UInt32 5 × Vector UInt32 16) (i : ℕ) :
    Vector UInt32 5 × Vector UInt32 16 :=
  let word := if i < 16 then blk0 little s.2[ringPlace i] else blk s.2 i
  let block := s.2.set (ringPlace i) word
  let p (j : Fin 5) := j - Fin.ofNat 5 i
  let r := s.1
  let r := r.set (p 4) (r[p 4] + (sha1F i r[p 1] r[p 2] r[p 3] + word + sha1K i + rol r[p 0] 5))
  let r := r.set (p 1) (ror r[p 1] 2)
  (r, block)

/-- The words of a block, as `memcpy` puts them there. -/
def sha1Words (little : Bool) (buffer : Bytes) : Vector UInt32 16 :=
  Vector.ofFn fun i => if little then load32 buffer (4 * i) else load32be buffer (4 * i)

/-- `sha1_transform`. -/
def sha1Transform (little : Bool) (h : Vector UInt32 5) (buffer : Bytes) : Vector UInt32 5 :=
  let s := (List.range 80).foldl (sha1Step little) (h, sha1Words little buffer)
  Vector.zipWith (· + ·) h s.1

/-! ### The functions -/

/-- `sha1_init`. -/
def sha1Init (context : Sha1Ctx) : Sha1Ctx :=
  { context with
    h := #v[0x67452301, 0xefcdab89, 0x98badcfe, 0x10325476, 0xc3d2e1f0]
    count0 := 0
    count1 := 0 }

/-- The loop of `sha1_update` over the whole blocks of the data. -/
def sha1Blocks (little : Bool) (h : Vector UInt32 5) (data : Bytes) : ℕ → Vector UInt32 5
  | 0 => h
  | q + 1 => sha1Transform little (sha1Blocks little h data q) (slice data (64 * q) 64)

/-- `sha1_update`. The lengths are `size_t`. -/
def sha1Update (little : Bool) (context : Sha1Ctx) (data : Bytes) : Sha1Ctx :=
  let len := data.length
  let j := context.count0 / 2 ^ 3 % 64
  let count0 := (context.count0 + len * 2 ^ 3 % 2 ^ 64 % 2 ^ 32) % 2 ^ 32
  let count1 := if count0 < len * 2 ^ 3 % 2 ^ 64 then context.count1 + 1 else context.count1
  let count1 := (count1 + len / 2 ^ 29) % 2 ^ 32
  if 63 < j + len then
    let i := 64 - j
    let buffer := splice context.buffer j (data.take i)
    let h := sha1Transform little context.h buffer
    -- the blocks from `data + i` on
    let q := (len - i) / 64
    let h := sha1Blocks little h (data.drop i) q
    ⟨h, count0, count1, splice buffer 0 (data.drop (i + 64 * q))⟩
  else
    ⟨context.h, count0, count1, splice context.buffer j data⟩

theorem count_and (n : ℕ) : n &&& 504 = 8 * (n / 8 % 64) := by
  rw [show 504 = 2 ^ 3 * 63 from rfl, show (64 : ℕ) = 2 ^ 6 from rfl,
    ← Nat.and_two_pow_sub_one_eq_mod]
  refine Nat.eq_of_testBit_eq fun i => ?_
  rw [Nat.testBit_and, Nat.testBit_two_pow_mul, show (8 : ℕ) = 2 ^ 3 from rfl,
    Nat.testBit_two_pow_mul, Nat.testBit_and, Nat.testBit_div_two_pow]
  by_cases hi : 3 ≤ i
  · rw [Nat.sub_add_cancel hi]
    simp [hi]
  · simp [hi]

theorem count0_update (little : Bool) (context : Sha1Ctx) (data : Bytes) :
    (sha1Update little context data).count0 =
      (context.count0 + data.length * 2 ^ 3 % 2 ^ 64 % 2 ^ 32) % 2 ^ 32 := by
  simp only [sha1Update]
  split <;> rfl

/-- The loop of `sha1_final` that puts zeros behind the message. -/
def sha1PadLoop (little : Bool) (context : Sha1Ctx) : Sha1Ctx :=
  if context.count0 &&& 504 ≠ 448 then sha1PadLoop little (sha1Update little context [0])
  else context
  termination_by (120 - context.count0 / 8 % 64) % 64
  decreasing_by
    rename_i hne
    rw [count_and] at hne
    rw [count0_update, List.length_singleton]
    omega

/-- The digest of a state. -/
def sha1Digest (h : Vector UInt32 5) : Bytes := h.toList.flatMap store32be

/-- `sha1_final`: the digest, and the context. -/
def sha1Final (little : Bool) (context : Sha1Ctx) : Bytes × Sha1Ctx :=
  let finalcount := put4byte context.count1 ++ put4byte context.count0
  let context := sha1Update little context [0x80]
  let context := sha1PadLoop little context
  let context := sha1Update little context finalcount
  (sha1Digest context.h, { context with buffer := zeros 64, count0 := 0, count1 := 0 })

/-! ### The standard -/

/-- The functions of the standard: a choice, a parity, a majority, and the parity again. -/
def sha1StandardF (t : ℕ) (x y z : UInt32) : UInt32 :=
  if t < 20 then (x &&& y) ^^^ (~~~x &&& z)
  else if t < 40 then x ^^^ y ^^^ z
  else if t < 60 then (x &&& y) ^^^ (x &&& z) ^^^ (y &&& z)
  else x ^^^ y ^^^ z

/-- The message schedule of the standard. -/
def sha1Schedule (block : Bytes) : List UInt32 :=
  grow (fun w => rol (w.getD (w.length - 3) 0 ^^^ w.getD (w.length - 8) 0 ^^^
    w.getD (w.length - 14) 0 ^^^ w.getD (w.length - 16) 0) 1) 64
    ((List.range 16).map fun i => load32be block (4 * i))

/-- A round of the standard: the working variables move on by one place. -/
def sha1Round (w : List UInt32) (r : Vector UInt32 5) (t : ℕ) : Vector UInt32 5 :=
  let v (i : Fin 5) := r[i]
  #v[v 4 + (sha1StandardF t (v 1) (v 2) (v 3) + w.getD t 0 + sha1K t + rol (v 0) 5),
    v 0, rol (v 1) 30, v 2, v 3]

/-- The compression function of the standard. -/
def sha1Compress (h : Vector UInt32 5) (block : Bytes) : Vector UInt32 5 :=
  Vector.zipWith (· + ·) h ((List.range 80).foldl (sha1Round (sha1Schedule block)) h)

theorem length_sha1Digest (h : Vector UInt32 5) : (sha1Digest h).length = 20 := by
  rw [sha1Digest, length_flatMap_words length_store32be, Vector.length_toList]

/-- The hash function of the standard. The length of a message is put behind it in bits, in a field
of eight bytes. -/
def sha1Hash : BlockHash (Vector UInt32 5) where
  blockSize := 64
  digestSize := 20
  lengthSize := 8
  start := #v[0x67452301, 0xefcdab89, 0x98badcfe, 0x10325476, 0xc3d2e1f0]
  compress := sha1Compress
  digest := sha1Digest
  encodeLength m := beBytes 8 (8 * m)
  length_digest := length_sha1Digest
  length_encodeLength _ := length_beBytes _ _
  digestSize_lt := by decide

/-! ### The rounds -/

theorem sha1F_eq (t : ℕ) (w x y : UInt32) : sha1F t w x y = sha1StandardF t w x y := by
  have hch : (w &&& (x ^^^ y)) ^^^ y = (w &&& x) ^^^ (~~~w &&& y) := by
    refine UInt32.toBitVec_inj.mp (BitVec.eq_of_getLsbD_eq fun i hi => ?_)
    simp only [UInt32.toBitVec_xor, UInt32.toBitVec_and, hi, BitVec.getLsbD_eq_getElem,
      BitVec.getElem_xor, BitVec.getElem_and, UInt32.toBitVec_not, BitVec.getElem_not]
    cases w.toBitVec[i] <;> simp
  have hmaj : (w ||| x) &&& y ||| w &&& x = (w &&& x) ^^^ (w &&& y) ^^^ (x &&& y) := by
    refine UInt32.toBitVec_inj.mp (BitVec.eq_of_getLsbD_eq fun i hi => ?_)
    simp only [UInt32.toBitVec_or, UInt32.toBitVec_and, hi, BitVec.getLsbD_eq_getElem,
      BitVec.getElem_or, BitVec.getElem_and, UInt32.toBitVec_xor, BitVec.getElem_xor]
    cases w.toBitVec[i] <;> cases x.toBitVec[i] <;> simp
  rw [sha1F, sha1StandardF, hch, hmaj]

/-- A word turned round. -/
theorem blk0_load (little : Bool) (b : Bytes) (off : ℕ) :
    blk0 little (if little then load32 b off else load32be b off) = load32be b off := by
  cases little with
  | false => rfl
  | true =>
    simp only [blk0, if_true, load32, load32be, ror, rol]
    generalize b.getD off 0 = b0
    generalize b.getD (off + 1) 0 = b1
    generalize b.getD (off + 2) 0 = b2
    generalize b.getD (off + 3) 0 = b3
    refine UInt32.toBitVec_inj.mp (BitVec.eq_of_getLsbD_eq fun i hi => ?_)
    simp only [UInt32.reduceSub, UInt32.toBitVec_or, UInt32.toBitVec_and, UInt32.toBitVec_shiftLeft,
      UInt8.toBitVec_toUInt32, UInt32.toBitVec_shiftRight, BitVec.getLsbD_or, BitVec.getLsbD_and]
    interval_cases i <;> simp

section Schedule

variable (block : Bytes)

theorem sha1Schedule_of_lt {t : ℕ} (ht : t < 16) :
    (sha1Schedule block).getD t 0 = load32be block (4 * t) := by
  rw [List.getD_eq_getElem?_getD, sha1Schedule, getElem?_grow_of_lt (by simpa using ht)]
  simp [ht]

theorem sha1Schedule_of_le {t : ℕ} (hle : 16 ≤ t) (ht : t < 80) :
    (sha1Schedule block).getD t 0 =
      rol ((sha1Schedule block).getD (t - 3) 0 ^^^ (sha1Schedule block).getD (t - 8) 0 ^^^
        (sha1Schedule block).getD (t - 14) 0 ^^^ (sha1Schedule block).getD (t - 16) 0) 1 := by
  have hlen : (sha1Schedule block).length = 80 := by
    rw [sha1Schedule, length_grow]
    simp
  have htake : ((sha1Schedule block).take t).length = t := by
    rw [List.length_take, hlen]
    omega
  have hgrow := getElem?_grow_of_le (f := fun w : List UInt32 =>
      rol (w.getD (w.length - 3) 0 ^^^ w.getD (w.length - 8) 0 ^^^ w.getD (w.length - 14) 0 ^^^
        w.getD (w.length - 16) 0) 1) (n := 64)
    (w := (List.range 16).map fun i => load32be block (4 * i))
    (by simpa using hle) (by simpa using ht)
  rw [← sha1Schedule] at hgrow
  rw [List.getD_eq_getElem?_getD, hgrow, Option.getD_some, htake]
  simp only [List.getD_eq_getElem?_getD]
  rw [List.getElem?_take_of_lt (by omega), List.getElem?_take_of_lt (by omega),
    List.getElem?_take_of_lt (by omega), List.getElem?_take_of_lt (by omega)]

/-- Before round `i` the ring holds the last sixteen words of the schedule, or, as far as they have
not been used, the words of the block. -/
structure Sha1Ring (little : Bool) (ring : Vector UInt32 16) (i : ℕ) : Prop where
  used : ∀ t, t < i → i ≤ t + 16 → ring[ringPlace t] = (sha1Schedule block).getD t 0
  unused : ∀ t, i ≤ t → t < 16 → ring[ringPlace t] = (sha1Words little block)[ringPlace t]

variable {block} {little : Bool} {ring : Vector UInt32 16} {i : ℕ}

theorem Sha1Ring.start : Sha1Ring block little (sha1Words little block) 0 where
  used _ ht := by cases ht
  unused _ _ _ := rfl

/-- The word that is used in round `i`. -/
theorem Sha1Ring.word (h : Sha1Ring block little ring i) (hi : i < 80) :
    (if i < 16 then blk0 little ring[ringPlace i] else blk ring i) =
      (sha1Schedule block).getD i 0 := by
  split
  · next hlt =>
    have hword : (sha1Words little block)[ringPlace i] =
        if little then load32 block (4 * i) else load32be block (4 * i) := by
      simp only [sha1Words, Fin.getElem_fin, Vector.getElem_ofFn, ringPlace, Nat.mod_eq_of_lt hlt]
    rw [h.unused i (Nat.le_refl i) hlt, sha1Schedule_of_lt block hlt, hword, blk0_load]
  · next hge =>
    have hplace : ∀ {j t}, j % 16 = t % 16 → ringPlace j = ringPlace t := fun h => Fin.ext h
    simp only [blk, hplace (show (i + 13) % 16 = (i - 3) % 16 by omega),
      hplace (show (i + 8) % 16 = (i - 8) % 16 by omega),
      hplace (show (i + 2) % 16 = (i - 14) % 16 by omega),
      hplace (show i % 16 = (i - 16) % 16 by omega)]
    rw [h.used _ (by omega) (by omega), h.used _ (by omega) (by omega),
      h.used _ (by omega) (by omega), h.used _ (by omega) (by omega),
      sha1Schedule_of_le block (by omega) hi]

theorem Sha1Ring.set (h : Sha1Ring block little ring i) {word : UInt32}
    (hword : word = (sha1Schedule block).getD i 0) :
    Sha1Ring block little (ring.set (ringPlace i) word) (i + 1) where
  used t ht hi := by
    rw [getElem_set_fin]
    split
    · next heq =>
      have heq : i % 16 = t % 16 := Fin.val_eq_of_eq heq
      rw [hword, show t = i by omega]
    · next hne =>
      refine h.used t (Nat.lt_of_le_of_ne (Nat.le_of_lt_succ ht) ?_) (by omega)
      rintro rfl
      exact hne rfl
  unused t hi ht := by
    have hne : ringPlace i ≠ ringPlace t := fun heq => by
      have heq : i % 16 = t % 16 := Fin.val_eq_of_eq heq
      omega
    rw [getElem_set_fin, if_neg hne]
    exact h.unused t (by omega) ht

end Schedule

/-- Which variable the places `4 - r` and `1 - r` of round `r` are one round later. -/
theorem four_sub_eq_iff : ∀ r p : Fin 5, 4 - r = p - (r + 1) ↔ p = 0 := by decide

theorem one_sub_eq_iff : ∀ r p : Fin 5, 1 - r = p - (r + 1) ↔ p = 2 := by decide

theorem four_sub_ne : ∀ r : Fin 5, 4 - r ≠ 1 - r := by decide

theorem sub_succ5 : ∀ r p : Fin 5, p - (r + 1) = p - 1 - r := by decide

theorem sub_none5 : ∀ p : Fin 5, p - 0 = p := by decide

theorem ror_two (x : UInt32) : ror x 2 = rol x 30 := rfl

/-- After `i` rounds, the variable at place `p` of the standard is at place `p - i` of the code. -/
theorem getElem_sha1Step {block : Bytes} {little : Bool}
    {s : Vector UInt32 5 × Vector UInt32 16} {v : Vector UInt32 5} {i : ℕ} (hi : i < 80)
    (hring : Sha1Ring block little s.2 i) (h : ∀ p : Fin 5, s.1[p - Fin.ofNat 5 i] = v[p])
    (p : Fin 5) :
    (sha1Step little s i).1[p - Fin.ofNat 5 (i + 1)] = (sha1Round (sha1Schedule block) v i)[p] := by
  have hword := hring.word hi
  simp only [ofNat_succ, sha1Step, getElem_set_fin, four_sub_eq_iff, one_sub_eq_iff, hword, h,
    four_sub_ne, if_false, sha1F_eq, ror_two]
  rw [sub_succ5, h]
  fin_cases p <;> rfl

/-- **The rounds** of the code are those of the standard, for either order of bytes. -/
theorem sha1Rounds_eq (little : Bool) (h : Vector UInt32 5) (block : Bytes) :
    ((List.range 80).foldl (sha1Step little) (h, sha1Words little block)).1 =
      (List.range 80).foldl (sha1Round (sha1Schedule block)) h := by
  have hrounds : ∀ i ≤ 80,
      Sha1Ring block little
          ((List.range i).foldl (sha1Step little) (h, sha1Words little block)).2 i ∧
        ∀ p : Fin 5,
          ((List.range i).foldl (sha1Step little)
            (h, sha1Words little block)).1[p - Fin.ofNat 5 i] =
            ((List.range i).foldl (sha1Round (sha1Schedule block)) h)[p] := by
    intro i
    induction i with
    | zero =>
      intro _
      refine ⟨Sha1Ring.start, fun p => ?_⟩
      simp only [Fin.ofNat, Nat.zero_mod, Fin.zero_eta, sub_none5, List.range_zero, List.foldl_nil]
    | succ i ih =>
      intro hi
      obtain ⟨hring, hvars⟩ := ih (by omega)
      rw [List.range_succ, List.foldl_concat, List.foldl_concat]
      exact ⟨hring.set (hring.word hi), getElem_sha1Step hi hring hvars⟩
  refine Vector.ext fun p hp => ?_
  have hround := (hrounds 80 (Nat.le_refl 80)).2 ⟨p, hp⟩
  simp only [ofNat_of_dvd (show 5 ∣ 80 from ⟨16, rfl⟩), sub_none5] at hround
  exact hround

theorem sha1Transform_eq (little : Bool) (h : Vector UInt32 5) (b : Bytes) :
    sha1Transform little h b = sha1Compress h b := by
  rw [sha1Transform, sha1Compress, sha1Rounds_eq]

/-! ### A context and its message -/

theorem sha1Blocks_eq (little : Bool) (h : Vector UInt32 5) {d : Bytes} {q : ℕ}
    (hd : 64 * q ≤ d.length) :
    sha1Blocks little h d q = sha1Hash.absorb h (d.take (64 * q)) := by
  induction q with
  | zero => exact (BlockHash.absorb_nil h).symm
  | succ q ih =>
    rw [sha1Blocks, ih (by omega), sha1Transform_eq]
    exact (BlockHash.absorb_take_succ (H := sha1Hash) h hd).symm

/-- The context stands for the message: the whole blocks of it are in `h`, the rest is at the start
of the buffer, and the count is its length in bits. -/
structure Sha1Ctx.Reads (context : Sha1Ctx) (m : Bytes) : Prop where
  buffer : context.buffer.length = 64
  buffered : sha1Hash.Buffered context.h (context.buffer.take (m.length % 64)) m
  count0 : context.count0 = 8 * m.length % 2 ^ 32
  count1 : context.count1 = 8 * m.length / 2 ^ 32 % 2 ^ 32

namespace Sha1Ctx.Reads

variable {context : Sha1Ctx} {m : Bytes}

theorem init (hbuffer : context.buffer.length = 64) : (sha1Init context).Reads [] where
  buffer := hbuffer
  buffered := BlockHash.Buffered.start
  count0 := rfl
  count1 := rfl

/-- The count, with its carry. -/
theorem update_count (h : context.Reads m) (little : Bool) {d : Bytes} (hd : d.length < 2 ^ 29) :
    (sha1Update little context d).count0 = 8 * (m ++ d).length % 2 ^ 32 ∧
      (sha1Update little context d).count1 = 8 * (m ++ d).length / 2 ^ 32 % 2 ^ 32 := by
  have hcount0 := h.count0
  have hcount1 := h.count1
  have hupdate : (sha1Update little context d).count1 =
      ((if (sha1Update little context d).count0 < d.length * 2 ^ 3 % 2 ^ 64 then context.count1 + 1
        else context.count1) + d.length / 2 ^ 29) % 2 ^ 32 := by
    rw [count0_update]
    simp only [sha1Update]
    split <;> rfl
  rw [hupdate, count0_update, List.length_append]
  refine ⟨by omega, ?_⟩
  split <;> omega

/-- **One update** of less than 2²⁹ bytes. -/
theorem update (h : context.Reads m) (little : Bool) {d : Bytes} (hd : d.length < 2 ^ 29) :
    (sha1Update little context d).Reads (m ++ d) := by
  obtain ⟨hcount0, hcount1⟩ := h.update_count little hd
  have hbuffer := h.buffer
  have hcount := h.count0
  obtain ⟨j, hj⟩ : ∃ j, m.length % 64 = j := ⟨_, rfl⟩
  have hjlt : j < 64 := by omega
  have hplace : context.count0 / 2 ^ 3 % 64 = j := by omega
  have hbuffered := h.buffered
  rw [hj] at hbuffered
  have htake : (context.buffer.take j).length = j := by
    rw [List.length_take]
    omega
  have hmod : (m ++ d).length % 64 = (j + d.length) % 64 := by
    rw [List.length_append]
    omega
  by_cases hfull : 63 < j + d.length
  · obtain ⟨i, hi⟩ : ∃ i, 64 - j = i := ⟨_, rfl⟩
    have hdtake : (d.take i).length = i := by
      rw [List.length_take]
      omega
    have hdrop : (d.drop i).length = d.length - i := List.length_drop
    -- the block that is full now, and what of the data is behind it
    have hblock : splice context.buffer j (d.take i) = context.buffer.take j ++ d.take i := by
      rw [splice, List.drop_of_length_le (by omega), List.append_nil]
    have hstate : sha1Blocks little (sha1Compress context.h (context.buffer.take j ++ d.take i))
          (d.drop i) ((d.length - i) / 64) =
        sha1Hash.absorb (sha1Compress context.h (context.buffer.take j ++ d.take i))
          (d.drop i) := by
      rw [sha1Blocks_eq _ _ (by omega)]
      exact BlockHash.absorb_take (H := sha1Hash) _ _ (by rw [hdrop]; rfl)
    have hrest : (d.drop (i + 64 * ((d.length - i) / 64))).length = (m ++ d).length % 64 := by
      rw [List.length_drop]
      omega
    have hh : (sha1Update little context d).h =
        sha1Hash.absorb (sha1Compress context.h (context.buffer.take j ++ d.take i))
          (d.drop i) := by
      rw [sha1Update]
      simp only [hplace, if_pos hfull, hi, hblock, sha1Transform_eq, hstate]
    have hb : (sha1Update little context d).buffer = splice (context.buffer.take j ++ d.take i) 0
        (d.drop (i + 64 * ((d.length - i) / 64))) := by
      rw [sha1Update]
      simp only [hplace, if_pos hfull, hi, hblock]
    refine ⟨?_, ?_, hcount0, hcount1⟩
    · rw [hb, length_splice (by rw [List.length_append]; omega), List.length_append]
      omega
    · have htakeRest := take_splice (b := context.buffer.take j ++ d.take i)
        (d := d.drop (i + 64 * ((d.length - i) / 64))) (Nat.zero_le _)
      rw [hrest, Nat.zero_add, List.take_zero, List.nil_append] at htakeRest
      rw [hb, hh, htakeRest, ← List.drop_drop]
      exact hbuffered.update_of_le (by rw [htake]; exact (by omega : j + i = 64)) (by omega)
  · have hh : (sha1Update little context d).h = context.h := by
      rw [sha1Update]
      simp only [hplace, if_neg hfull]
    have hb : (sha1Update little context d).buffer = splice context.buffer j d := by
      rw [sha1Update]
      simp only [hplace, if_neg hfull]
    refine ⟨?_, ?_, hcount0, hcount1⟩
    · rw [hb, length_splice (by omega), hbuffer]
    · rw [hb, hh, hmod, Nat.mod_eq_of_lt (by omega), take_splice (by omega)]
      exact hbuffered.update_of_lt (by rw [htake]; exact (by omega : j + d.length < 64))

/-- The zeros that `sha1_final` puts there. -/
theorem padLoop {context : Sha1Ctx} {m : Bytes} (h : context.Reads m) (little : Bool) :
    (sha1PadLoop little context).Reads (m ++ zeros ((120 - m.length % 64) % 64)) := by
  have hcount := h.count0
  rw [sha1PadLoop]
  split
  · next hne =>
    rw [count_and] at hne
    have hzeros : (120 - m.length % 64) % 64 = (120 - (m ++ [0]).length % 64) % 64 + 1 := by
      rw [List.length_append, List.length_singleton]
      omega
    have hstep := (h.update little (d := [0]) (by decide)).padLoop little
    rw [hzeros, zeros, List.replicate_succ]
    rwa [List.append_assoc] at hstep
  · next heq =>
    rw [count_and] at heq
    have hzeros : (120 - m.length % 64) % 64 = 0 := by omega
    rw [hzeros]
    simpa [zeros] using h
  termination_by (120 - context.count0 / 8 % 64) % 64
  decreasing_by
    rw [count0_update, List.length_singleton]
    omega

/-- **The end.** The digest is that of the message, and it can be read off the context again. -/
theorem final (h : context.Reads m) (little : Bool) :
    (sha1Final little context).1 = sha1Hash.hash m ∧
      sha1Digest (sha1Final little context).2.h = sha1Hash.hash m := by
  obtain ⟨z, hz⟩ : ∃ z, (120 - (m ++ [0x80]).length % 64) % 64 = z := ⟨_, rfl⟩
  have hloop := (h.update little (d := [0x80]) (by decide)).padLoop little
  rw [hz] at hloop
  have hlast := hloop.update little (d := put4byte context.count1 ++ put4byte context.count0)
    (show 8 < 2 ^ 29 by decide)
  have hfield : beBytes 8 (8 * m.length) = put4byte context.count1 ++ put4byte context.count0 := by
    rw [h.count0, h.count1, ← beBytes_four, ← beBytes_four, show (2 : ℕ) ^ 32 = 256 ^ 4 from rfl,
      beBytes_mod, beBytes_mod, ← beBytes_add]
  rw [List.length_append, List.length_singleton] at hz
  have hdvd : 64 ∣ m.length + (1 + z + 8) := by omega
  have hmessage : m ++ [0x80] ++ zeros z ++ (put4byte context.count1 ++ put4byte context.count0) =
      m ++ sha1Hash.padding m.length := by
    rw [BlockHash.padding_eq (H := sha1Hash) (show z < 64 by omega) hdvd, ← hfield]
    simp only [List.append_assoc, List.cons_append, List.nil_append]
    rfl
  rw [hmessage] at hlast
  have hstate := hlast.buffered.state_of_dvd (by
    rw [List.length_append]
    exact BlockHash.dvd_length_padding _)
  rw [BlockHash.hash, ← hstate]
  exact ⟨rfl, rfl⟩

/-- A context that takes in a message piece by piece. -/
theorem foldl (h : context.Reads m) (little : Bool) {ds : List Bytes}
    (hds : ∀ d ∈ ds, d.length < 2 ^ 29) :
    (ds.foldl (sha1Update little) context).Reads (m ++ ds.flatten) := by
  induction ds generalizing context m with
  | nil => rwa [List.flatten_nil, List.append_nil]
  | cons d ds ih =>
    rw [List.flatten_cons, ← List.append_assoc]
    exact ih (h.update little (hds d List.mem_cons_self))
      fun d' hd' => hds d' (List.mem_cons_of_mem d hd')

end Sha1Ctx.Reads

/-- **A message that came in pieces** of less than 2²⁹ bytes each has the digest of the standard,
whatever its length, for either order of bytes, and whatever the context held before. -/
theorem sha1Final_updates (little : Bool) {context : Sha1Ctx}
    (hbuffer : context.buffer.length = 64) {ds : List Bytes} (hds : ∀ d ∈ ds, d.length < 2 ^ 29) :
    (sha1Final little (ds.foldl (sha1Update little) (sha1Init context))).1 =
      sha1Hash.hash ds.flatten :=
  (((Sha1Ctx.Reads.init hbuffer).foldl little hds).final little).1

/-- Three bytes that come in two pieces. -/
theorem sha1_two_pieces :
    (sha1Final true ([[0x61], [0x62, 0x63]].foldl (sha1Update true)
        (sha1Init ⟨Vector.replicate 5 0, 0, 0, zeros 64⟩))).1 =
      sha1Hash.hash [[0x61], [0x62, 0x63]].flatten :=
  sha1Final_updates true (length_zeros 64) (by decide)

end MultipleCiphers
