import MultipleCiphers.Lib.BlockHash
import MultipleCiphers.Lib.Words
import Mathlib.Tactic.FinCases

/-!
# MD5

`md5.c` differs from the standard in how it computes two of the four functions of the rounds, in
that the third is written in two ways in turn, and in how it counts: `lo` has 29 bits of the length
in bytes, `hi` the 32 bits above them, and the shift that makes bits of it comes at the end. The
buffer is used only for what does not fill a block; `MD5_Final` pads in it.

Here the count is right for every sequence of updates, and so is the digest.

## Main results

* `md5Rounds_eq` — the rounds of the code are those of the standard.
* `Md5Ctx.Reads.update`, `Md5Ctx.Reads.final` — what a context stands for, update by update.
* `md5Final_updates` — the digest of a message that came in pieces.
-/

namespace MultipleCiphers

open Bytes

/-- `MD5_CTX`, with the four variables in one vector. `block` is a copy of the block that is worked
on, for processors that cannot read a word at any address. -/
structure Md5Ctx where
  lo : ℕ
  hi : ℕ
  abcd : Vector UInt32 4
  buffer : Bytes

/-! ### One block -/

/-- `F`, `G`, `H`, `H2` and `I`, by the number of the step. -/
def md5F (i : ℕ) (x y z : UInt32) : UInt32 :=
  if i < 16 then z ^^^ (x &&& (y ^^^ z))
  else if i < 32 then y ^^^ (z &&& (x ^^^ y))
  else if i < 48 then if i % 2 = 0 then (x ^^^ y) ^^^ z else x ^^^ (y ^^^ z)
  else y ^^^ (x ||| ~~~z)

/-- The word that a step reads, its constant and its shift. -/
def md5Index : List ℕ := [
  0, 1, 2, 3, 4, 5, 6, 7, 8, 9, 10, 11, 12, 13, 14, 15,
  1, 6, 11, 0, 5, 10, 15, 4, 9, 14, 3, 8, 13, 2, 7, 12,
  5, 8, 11, 14, 1, 4, 7, 10, 13, 0, 3, 6, 9, 12, 15, 2,
  0, 7, 14, 5, 12, 3, 10, 1, 8, 15, 6, 13, 4, 11, 2, 9]

def md5T : List UInt32 := [
  0xd76aa478, 0xe8c7b756, 0x242070db, 0xc1bdceee, 0xf57c0faf, 0x4787c62a,
  0xa8304613, 0xfd469501, 0x698098d8, 0x8b44f7af, 0xffff5bb1, 0x895cd7be,
  0x6b901122, 0xfd987193, 0xa679438e, 0x49b40821, 0xf61e2562, 0xc040b340,
  0x265e5a51, 0xe9b6c7aa, 0xd62f105d, 0x02441453, 0xd8a1e681, 0xe7d3fbc8,
  0x21e1cde6, 0xc33707d6, 0xf4d50d87, 0x455a14ed, 0xa9e3e905, 0xfcefa3f8,
  0x676f02d9, 0x8d2a4c8a, 0xfffa3942, 0x8771f681, 0x6d9d6122, 0xfde5380c,
  0xa4beea44, 0x4bdecfa9, 0xf6bb4b60, 0xbebfbc70, 0x289b7ec6, 0xeaa127fa,
  0xd4ef3085, 0x04881d05, 0xd9d4d039, 0xe6db99e5, 0x1fa27cf8, 0xc4ac5665,
  0xf4292244, 0x432aff97, 0xab9423a7, 0xfc93a039, 0x655b59c3, 0x8f0ccc92,
  0xffeff47d, 0x85845dd1, 0x6fa87e4f, 0xfe2ce6e0, 0xa3014314, 0x4e0811a1,
  0xf7537e82, 0xbd3af235, 0x2ad7d2bb, 0xeb86d391]

def md5S : List UInt32 := [
  7, 12, 17, 22, 7, 12, 17, 22, 7, 12, 17, 22, 7, 12, 17, 22,
  5, 9, 14, 20, 5, 9, 14, 20, 5, 9, 14, 20, 5, 9, 14, 20,
  4, 11, 16, 23, 4, 11, 16, 23, 4, 11, 16, 23, 4, 11, 16, 23,
  6, 10, 15, 21, 6, 10, 15, 21, 6, 10, 15, 21, 6, 10, 15, 21]

/-- `STEP`: `STEP(F, a, b, c, d, …) STEP(F, d, a, b, c, …) …`. -/
def md5Step (ptr : Bytes) (r : Vector UInt32 4) (i : ℕ) : Vector UInt32 4 :=
  let p (j : Fin 4) := j - Fin.ofNat 4 i
  let x := load32 ptr (md5Index.getD i 0 * 4)
  let s := md5S.getD i 0
  let a := r[p 0] + (md5F i r[p 1] r[p 2] r[p 3] + x + md5T.getD i 0)
  let a := a <<< s ||| a >>> (32 - s)
  r.set (p 0) (a + r[p 1])

/-- One turn of the loop of `body`. -/
def md5Block (abcd : Vector UInt32 4) (ptr : Bytes) : Vector UInt32 4 :=
  Vector.zipWith (· + ·) ((List.range 64).foldl (md5Step ptr) abcd) abcd

/-- `body`, for `size / 64` blocks. -/
def md5Body (abcd : Vector UInt32 4) (data : Bytes) : ℕ → Vector UInt32 4
  | 0 => abcd
  | q + 1 => md5Block (md5Body abcd data q) (slice data (64 * q) 64)

/-! ### The functions -/

/-- `MD5_Init`. -/
def md5Init (ctx : Md5Ctx) : Md5Ctx :=
  { ctx with abcd := #v[0x67452301, 0xefcdab89, 0x98badcfe, 0x10325476], lo := 0, hi := 0 }

/-- `MD5_Update`, behind the part about a buffer that is not empty. -/
def md5UpdateBlocks (ctx : Md5Ctx) (data : Bytes) : Md5Ctx :=
  let size := data.length
  if 64 ≤ size then
    -- `size & ~0x3f` bytes are worked on
    let q := size / 64
    { ctx with
      abcd := md5Body ctx.abcd data q
      buffer := splice ctx.buffer 0 (data.drop (64 * q)) }
  else { ctx with buffer := splice ctx.buffer 0 data }

/-- `MD5_Update`. -/
def md5Update (ctx : Md5Ctx) (data : Bytes) : Md5Ctx :=
  let size := data.length
  let savedLo := ctx.lo
  let lo := (savedLo + size) % 2 ^ 29
  let hi := if lo < savedLo then ctx.hi + 1 else ctx.hi
  let hi := (hi + size / 2 ^ 29) % 2 ^ 32
  let ctx := { ctx with lo := lo, hi := hi }
  let used := savedLo % 64
  if used ≠ 0 then
    let available := 64 - used
    if size < available then { ctx with buffer := splice ctx.buffer used data }
    else
      let buffer := splice ctx.buffer used (data.take available)
      md5UpdateBlocks { ctx with buffer := buffer, abcd := md5Body ctx.abcd buffer 1 }
        (data.drop available)
  else md5UpdateBlocks ctx data

/-- The digest of a state. -/
def md5Digest (abcd : Vector UInt32 4) : Bytes := abcd.toList.flatMap store32

/-- `MD5_Final`: the digest. The context is cleared. -/
def md5Final (ctx : Md5Ctx) : Bytes :=
  let used := ctx.lo % 64
  let buffer := ctx.buffer.set used 0x80
  let used := used + 1
  let available := 64 - used
  let (abcd, buffer, used, available) :=
    if available < 8 then
      let buffer := splice buffer used (zeros available)
      (md5Body ctx.abcd buffer 1, buffer, 0, 64)
    else (ctx.abcd, buffer, used, available)
  let buffer := splice buffer used (zeros (available - 8))
  let lo := ctx.lo * 2 ^ 3 % 2 ^ 32
  let buffer := splice buffer 56 (store32LE lo)
  let buffer := splice buffer 60 (store32LE ctx.hi)
  md5Digest (md5Body abcd buffer 1)

/-! ### The standard -/

/-- The functions `F`, `G`, `H` and `I` of the standard. -/
def md5StandardF (i : ℕ) (x y z : UInt32) : UInt32 :=
  if i < 16 then x &&& y ||| ~~~x &&& z
  else if i < 32 then x &&& z ||| y &&& ~~~z
  else if i < 48 then x ^^^ y ^^^ z
  else y ^^^ (x ||| ~~~z)

/-- A step of the standard, with the variables moving on by one place. -/
def md5Round (block : Bytes) (r : Vector UInt32 4) (i : ℕ) : Vector UInt32 4 :=
  let v (i : Fin 4) := r[i]
  let s := md5S.getD i 0
  let a := v 0 + (md5StandardF i (v 1) (v 2) (v 3) + load32 block (md5Index.getD i 0 * 4) +
    md5T.getD i 0)
  #v[v 3, (a <<< s ||| a >>> (32 - s)) + v 1, v 1, v 2]

/-- The compression function of the standard. -/
def md5Compress (abcd : Vector UInt32 4) (block : Bytes) : Vector UInt32 4 :=
  Vector.zipWith (· + ·) ((List.range 64).foldl (md5Round block) abcd) abcd

theorem length_md5Digest (abcd : Vector UInt32 4) : (md5Digest abcd).length = 16 := by
  rw [md5Digest, length_flatMap_store32, Vector.length_toList]

/-- The hash function of the standard. The length of a message is put behind it in bits, in a field
of eight bytes, the lowest first. -/
def md5Hash : BlockHash (Vector UInt32 4) where
  blockSize := 64
  digestSize := 16
  lengthSize := 8
  start := #v[0x67452301, 0xefcdab89, 0x98badcfe, 0x10325476]
  compress := md5Compress
  digest := md5Digest
  encodeLength m := leBytes 8 (8 * m)
  length_digest := length_md5Digest
  length_encodeLength _ := length_leBytes _ _
  digestSize_lt := by decide

/-! ### The rounds -/

theorem md5F_eq (i : ℕ) (x y z : UInt32) : md5F i x y z = md5StandardF i x y z := by
  have hf : z ^^^ (x &&& (y ^^^ z)) = x &&& y ||| ~~~x &&& z := by
    refine UInt32.toBitVec_inj.mp (BitVec.eq_of_getLsbD_eq fun i hi => ?_)
    simp only [UInt32.toBitVec_xor, UInt32.toBitVec_and, UInt32.toBitVec_or, hi,
      BitVec.getLsbD_eq_getElem, BitVec.getElem_xor, BitVec.getElem_and, BitVec.getElem_or,
      UInt32.toBitVec_not, BitVec.getElem_not]
    cases x.toBitVec[i] <;> cases z.toBitVec[i] <;> simp
  have hg : y ^^^ (z &&& (x ^^^ y)) = x &&& z ||| y &&& ~~~z := by
    refine UInt32.toBitVec_inj.mp (BitVec.eq_of_getLsbD_eq fun i hi => ?_)
    simp only [UInt32.toBitVec_xor, UInt32.toBitVec_and, UInt32.toBitVec_or, hi,
      BitVec.getLsbD_eq_getElem, BitVec.getElem_xor, BitVec.getElem_and, BitVec.getElem_or,
      UInt32.toBitVec_not, BitVec.getElem_not]
    cases y.toBitVec[i] <;> cases z.toBitVec[i] <;> simp
  rw [md5F, md5StandardF, hf, hg, ← UInt32.xor_assoc, ite_self]

/-- Which variable place `-r` of step `r` is one step later. -/
theorem zero_sub_eq_iff : ∀ r p : Fin 4, 0 - r = p - (r + 1) ↔ p = 1 := by decide

theorem sub_succ4 : ∀ r p : Fin 4, p - (r + 1) = p - 1 - r := by decide

theorem sub_none4 : ∀ p : Fin 4, p - 0 = p := by decide

/-- After `i` steps, the variable at place `p` of the standard is at place `p - i` of the code. -/
theorem getElem_md5Step {block : Bytes} {r v : Vector UInt32 4} {i : ℕ}
    (h : ∀ p : Fin 4, r[p - Fin.ofNat 4 i] = v[p]) (p : Fin 4) :
    (md5Step block r i)[p - Fin.ofNat 4 (i + 1)] = (md5Round block v i)[p] := by
  simp only [ofNat_succ, md5Step, getElem_set_fin, zero_sub_eq_iff, h, md5F_eq]
  rw [sub_succ4, h]
  fin_cases p <;> rfl

/-- **The rounds** of the code are those of the standard. -/
theorem md5Rounds_eq (block : Bytes) (abcd : Vector UInt32 4) :
    (List.range 64).foldl (md5Step block) abcd = (List.range 64).foldl (md5Round block) abcd := by
  have hrounds : ∀ i (p : Fin 4), ((List.range i).foldl (md5Step block) abcd)[p - Fin.ofNat 4 i] =
      ((List.range i).foldl (md5Round block) abcd)[p] := by
    intro i
    induction i with
    | zero =>
      intro p
      simp only [Fin.ofNat, Nat.zero_mod, Fin.zero_eta, sub_none4, List.range_zero, List.foldl_nil]
    | succ i ih =>
      intro p
      rw [List.range_succ, List.foldl_concat, List.foldl_concat]
      exact getElem_md5Step ih p
  refine Vector.ext fun p hp => ?_
  have hround := hrounds 64 ⟨p, hp⟩
  simp only [ofNat_of_dvd (show 4 ∣ 64 from ⟨16, rfl⟩), sub_none4] at hround
  exact hround

theorem md5Block_eq (abcd : Vector UInt32 4) (b : Bytes) :
    md5Block abcd b = md5Compress abcd b := by
  rw [md5Block, md5Compress, md5Rounds_eq]

/-! ### A context and its message -/

theorem md5Body_eq (abcd : Vector UInt32 4) {d : Bytes} {q : ℕ} (hd : 64 * q ≤ d.length) :
    md5Body abcd d q = md5Hash.absorb abcd (d.take (64 * q)) := by
  induction q with
  | zero => exact (BlockHash.absorb_nil abcd).symm
  | succ q ih =>
    rw [md5Body, ih (by omega), md5Block_eq]
    exact (BlockHash.absorb_take_succ (H := md5Hash) abcd hd).symm

theorem md5Body_one (abcd : Vector UInt32 4) {b : Bytes} (hb : b.length = 64) :
    md5Body abcd b 1 = md5Compress abcd b := by
  rw [md5Body_eq _ (by omega), List.take_of_length_le (by omega)]
  exact BlockHash.absorb_one (H := md5Hash) hb _

/-- What is behind a buffer that is empty: the whole blocks of it are taken in, the rest is put at
the start of the buffer. -/
theorem md5UpdateBlocks_eq (ctx : Md5Ctx) (d : Bytes) :
    md5UpdateBlocks ctx d =
      { ctx with
        abcd := md5Hash.absorb ctx.abcd d
        buffer := splice ctx.buffer 0 (d.drop (64 * (d.length / 64))) } := by
  rw [md5UpdateBlocks]
  split
  · have hbody : md5Body ctx.abcd d (d.length / 64) = md5Hash.absorb ctx.abcd d :=
      (md5Body_eq _ (Nat.mul_div_le _ _)).trans (BlockHash.absorb_take (H := md5Hash) _ _ rfl)
    simp only [hbody]
  · next hlt =>
    rw [BlockHash.absorb_short (H := md5Hash) (show d.length < 64 by omega),
      Nat.div_eq_of_lt (by omega), Nat.mul_zero, List.drop_zero]

/-- The context stands for the message: the whole blocks of it are in the variables, the rest is at
the start of the buffer, and the count is its length. -/
structure Md5Ctx.Reads (ctx : Md5Ctx) (m : Bytes) : Prop where
  buffer : ctx.buffer.length = 64
  buffered : md5Hash.Buffered ctx.abcd (ctx.buffer.take (m.length % 64)) m
  lo : ctx.lo = m.length % 2 ^ 29
  hi : ctx.hi = m.length / 2 ^ 29 % 2 ^ 32

/-- The zeros and the length, in one block. -/
theorem splice_field {b lo hi : Bytes} {used : ℕ} (hb : b.length = 64) (hused : used ≤ 56)
    (hlo : lo.length = 4) (hhi : hi.length = 4) :
    splice (splice (splice b used (zeros (64 - used - 8))) 56 lo) 60 hi =
      b.take used ++ (zeros (56 - used) ++ (lo ++ hi)) := by
  have hzeros : used + (zeros (64 - used - 8)).length = 56 := by
    rw [length_zeros]
    omega
  have hfirst := splice_splice_next (b := b) (d := zeros (64 - used - 8)) (e := lo)
    (show used + (zeros (64 - used - 8)).length + lo.length ≤ b.length by omega)
  have hlen : used + (zeros (64 - used - 8) ++ lo).length = 60 := by
    rw [List.length_append]
    omega
  have hsecond := splice_splice_next (b := b) (d := zeros (64 - used - 8) ++ lo) (e := hi)
    (show used + (zeros (64 - used - 8) ++ lo).length + hi.length ≤ b.length by omega)
  rw [hzeros] at hfirst
  rw [hlen] at hsecond
  rw [hfirst, hsecond, splice, List.drop_of_length_le (by rw [List.length_append]; omega),
    List.append_nil, List.append_assoc, show 64 - used - 8 = 56 - used by omega]

namespace Md5Ctx.Reads

variable {ctx : Md5Ctx} {m : Bytes}

theorem init (hbuffer : ctx.buffer.length = 64) : (md5Init ctx).Reads [] where
  buffer := hbuffer
  buffered := BlockHash.Buffered.start
  lo := rfl
  hi := rfl

/-- The count. -/
theorem update_count (h : ctx.Reads m) (d : Bytes) :
    (md5Update ctx d).lo = (m ++ d).length % 2 ^ 29 ∧
      (md5Update ctx d).hi = (m ++ d).length / 2 ^ 29 % 2 ^ 32 := by
  have hlo := h.lo
  have hhi := h.hi
  have hcount : (md5Update ctx d).lo = (ctx.lo + d.length) % 2 ^ 29 ∧
      (md5Update ctx d).hi =
        ((if (ctx.lo + d.length) % 2 ^ 29 < ctx.lo then ctx.hi + 1 else ctx.hi) +
        d.length / 2 ^ 29) % 2 ^ 32 := by
    simp only [md5Update, md5UpdateBlocks_eq]
    split
    · split <;> exact ⟨rfl, rfl⟩
    · exact ⟨rfl, rfl⟩
  rw [hcount.1, hcount.2, List.length_append]
  refine ⟨by omega, ?_⟩
  split <;> omega

/-- **One update**, of any length. -/
theorem update (h : ctx.Reads m) (d : Bytes) : (md5Update ctx d).Reads (m ++ d) := by
  obtain ⟨hlo, hhi⟩ := h.update_count d
  have hbuffer := h.buffer
  have hcount := h.lo
  obtain ⟨j, hj⟩ : ∃ j, m.length % 64 = j := ⟨_, rfl⟩
  have hplace : ctx.lo % 64 = j := by omega
  have hbuffered := h.buffered
  rw [hj] at hbuffered
  have htake : (ctx.buffer.take j).length = j := by
    rw [List.length_take]
    omega
  have hmod : (m ++ d).length % 64 = (j + d.length) % 64 := by
    rw [List.length_append]
    omega
  -- what is left of the message is at the start of the buffer
  have hstart : ∀ {b rest : Bytes}, b.length = 64 → rest.length = (m ++ d).length % 64 →
      (splice b 0 rest).length = 64 ∧ (splice b 0 rest).take ((m ++ d).length % 64) = rest := by
    intro b rest hb hrest
    have hsplice := take_splice (b := b) (d := rest) (Nat.zero_le _)
    rw [Nat.zero_add, List.take_zero, List.nil_append, hrest] at hsplice
    exact ⟨by rw [length_splice (by omega), hb], hsplice⟩
  by_cases hempty : j = 0
  · subst hempty
    have hrest : (d.drop (64 * (d.length / 64))).length = (m ++ d).length % 64 := by
      rw [List.length_drop, hmod]
      omega
    have habcd : (md5Update ctx d).abcd = md5Hash.absorb ctx.abcd d := by
      simp only [md5Update, hplace, md5UpdateBlocks_eq, ne_eq, not_true, if_false]
    have hb : (md5Update ctx d).buffer = splice ctx.buffer 0 (d.drop (64 * (d.length / 64))) := by
      simp only [md5Update, hplace, md5UpdateBlocks_eq, ne_eq, not_true, if_false]
    refine ⟨?_, ?_, hlo, hhi⟩
    · rw [hb]
      exact (hstart hbuffer hrest).1
    · rw [hb, habcd, (hstart hbuffer hrest).2]
      exact hbuffered.update d rfl
  · obtain ⟨r, hr⟩ : ∃ r, 64 - j = r := ⟨_, rfl⟩
    by_cases hshort : d.length < r
    · have habcd : (md5Update ctx d).abcd = ctx.abcd := by
        simp only [md5Update, hplace, ne_eq, hempty, not_false_eq_true, if_true, hr, if_pos hshort]
      have hb : (md5Update ctx d).buffer = splice ctx.buffer j d := by
        simp only [md5Update, hplace, ne_eq, hempty, not_false_eq_true, if_true, hr, if_pos hshort]
      refine ⟨?_, ?_, hlo, hhi⟩
      · rw [hb, length_splice (by omega), hbuffer]
      · rw [hb, habcd, hmod, Nat.mod_eq_of_lt (by omega), take_splice (by omega)]
        exact hbuffered.update_of_lt (by rw [htake]; exact (by omega : j + d.length < 64))
    · have hdtake : (d.take r).length = r := by
        rw [List.length_take]
        omega
      have hblock : splice ctx.buffer j (d.take r) = ctx.buffer.take j ++ d.take r := by
        rw [splice, List.drop_of_length_le (by omega), List.append_nil]
      have hlen : (ctx.buffer.take j ++ d.take r).length = 64 := by
        rw [List.length_append]
        omega
      have hrest : ((d.drop r).drop (64 * ((d.length - r) / 64))).length =
          (m ++ d).length % 64 := by
        rw [List.length_drop, List.length_drop, hmod]
        omega
      have habcd : (md5Update ctx d).abcd =
          md5Hash.absorb (md5Compress ctx.abcd (ctx.buffer.take j ++ d.take r)) (d.drop r) := by
        simp only [md5Update, hplace, ne_eq, hempty, not_false_eq_true, if_true, hr, if_neg hshort,
          hblock, md5Body_one _ hlen, md5UpdateBlocks_eq]
      have hb : (md5Update ctx d).buffer = splice (ctx.buffer.take j ++ d.take r) 0
          ((d.drop r).drop (64 * ((d.length - r) / 64))) := by
        simp only [md5Update, hplace, ne_eq, hempty, not_false_eq_true, if_true, hr, if_neg hshort,
          hblock, md5UpdateBlocks_eq, List.length_drop]
      refine ⟨?_, ?_, hlo, hhi⟩
      · rw [hb]
        exact (hstart hlen hrest).1
      · rw [hb, habcd, (hstart hlen hrest).2]
        exact hbuffered.update_of_le (by rw [htake]; exact (by omega : j + r = 64)) (by omega)

/-- **The end.** -/
theorem final (h : ctx.Reads m) : md5Final ctx = md5Hash.hash m := by
  have hbuffer := h.buffer
  have hcount := h.lo
  obtain ⟨j, hj⟩ : ∃ j, m.length % 64 = j := ⟨_, rfl⟩
  have hjlt : j < 64 := by omega
  have hplace : ctx.lo % 64 = j := by omega
  have hbuffered := h.buffered
  rw [hj] at hbuffered
  have htake : (ctx.buffer.take j).length = j := by
    rw [List.length_take]
    omega
  -- the length of the message
  obtain ⟨field, hfield⟩ :
      ∃ field, store32LE (ctx.lo * 2 ^ 3 % 2 ^ 32) ++ store32LE ctx.hi = field :=
    ⟨_, rfl⟩
  have hencode : leBytes 8 (8 * m.length) = field := by
    have hlo : ctx.lo * 2 ^ 3 % 2 ^ 32 = 8 * m.length % 256 ^ 4 := by omega
    have hhi : ctx.hi = 8 * m.length / 256 ^ 4 % 256 ^ 4 := by
      have hhi := h.hi
      omega
    rw [← hfield, hlo, hhi, ← leBytes_four, ← leBytes_four, leBytes_mod, leBytes_mod, ← leBytes_add]
  have hlenField : field.length = 8 := by rw [← hencode, length_leBytes]
  have htakeSet : (ctx.buffer.set j 0x80).take (j + 1) = ctx.buffer.take j ++ [0x80] := by
    rw [List.set_eq_take_append_cons_drop, if_pos (by omega), List.take_append, htake,
      List.take_of_length_le (by omega), Nat.add_sub_cancel_left]
    rfl
  have hpadding : ∀ {z}, z < 64 → 64 ∣ m.length + (1 + z + 8) →
      md5Hash.padding m.length = 0x80 :: (zeros z ++ field) := by
    intro z hz hdvd
    rw [BlockHash.padding_eq (H := md5Hash) hz hdvd, ← hencode]
    rfl
  rw [hbuffered.hash, md5Final]
  simp only [hplace]
  by_cases htwo : 64 - (j + 1) < 8
  · -- the block is filled up, and the length is in one of its own
    have hblock : splice (ctx.buffer.set j 0x80) (j + 1) (zeros (64 - (j + 1))) =
        ctx.buffer.take j ++ 0x80 :: zeros (64 - (j + 1)) := by
      rw [splice, htakeSet, List.drop_of_length_le (by rw [List.length_set, length_zeros]; omega),
        List.append_nil, List.append_assoc]
      rfl
    have hlenBlock : (ctx.buffer.take j ++ 0x80 :: zeros (64 - (j + 1))).length = 64 := by
      rw [List.length_append, List.length_cons, length_zeros]
      omega
    have hmessage : ctx.buffer.take j ++ md5Hash.padding m.length =
        (ctx.buffer.take j ++ 0x80 :: zeros (64 - (j + 1))) ++ (zeros 56 ++ field) := by
      rw [hpadding (z := 64 - (j + 1) + 56) (by omega) (by omega), zeros, zeros, zeros,
        ← List.replicate_append_replicate]
      simp only [List.append_assoc, List.cons_append]
    have hlast : (zeros 56 ++ field).length = 64 := by
      rw [List.length_append, length_zeros, hlenField]
    simp only [if_pos htwo, hblock]
    rw [splice_field hlenBlock (Nat.zero_le _) rfl rfl, hfield, List.take_zero, List.nil_append,
      md5Body_one _ hlenBlock, md5Body_one _ hlast, hmessage,
      BlockHash.absorb_block (H := md5Hash) hlenBlock, BlockHash.absorb_one (H := md5Hash) hlast]
    rfl
  · have hlenSet : (ctx.buffer.set j 0x80).length = 64 := by rw [List.length_set, hbuffer]
    have hmessage : ctx.buffer.take j ++ md5Hash.padding m.length =
        (ctx.buffer.take j ++ [0x80]) ++ (zeros (56 - (j + 1)) ++ field) := by
      rw [hpadding (z := 56 - (j + 1)) (by omega) (by omega)]
      simp only [List.append_assoc, List.cons_append, List.nil_append]
    have hlast :
        ((ctx.buffer.take j ++ [0x80]) ++ (zeros (56 - (j + 1)) ++ field)).length = 64 := by
      simp only [List.length_append, length_zeros, List.length_singleton]
      omega
    simp only [if_neg htwo]
    rw [splice_field hlenSet (by omega) rfl rfl, hfield, htakeSet, md5Body_one _ hlast, hmessage,
      BlockHash.absorb_one (H := md5Hash) hlast]
    rfl

/-- A context that takes in a message piece by piece. -/
theorem foldl (h : ctx.Reads m) (ds : List Bytes) :
    (ds.foldl md5Update ctx).Reads (m ++ ds.flatten) := by
  induction ds generalizing ctx m with
  | nil => rwa [List.flatten_nil, List.append_nil]
  | cons d ds ih =>
    rw [List.flatten_cons, ← List.append_assoc]
    exact ih (h.update d)

end Md5Ctx.Reads

/-- **A message that came in pieces** has the digest of the standard, whatever its length and that
of the pieces, and whatever the context held before. -/
theorem md5Final_updates {ctx : Md5Ctx} (hbuffer : ctx.buffer.length = 64) (ds : List Bytes) :
    md5Final (ds.foldl md5Update (md5Init ctx)) = md5Hash.hash ds.flatten :=
  ((Md5Ctx.Reads.init hbuffer).foldl ds).final

/-- Three bytes that come in two pieces. -/
theorem md5_two_pieces :
    md5Final ([[0x61], [0x62, 0x63]].foldl md5Update
        (md5Init ⟨0, 0, Vector.replicate 4 0, zeros 64⟩)) =
      md5Hash.hash [[0x61], [0x62, 0x63]].flatten :=
  md5Final_updates (length_zeros 64) _

end MultipleCiphers
