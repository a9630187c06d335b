import MultipleCiphers.Lib.BlockHash
import MultipleCiphers.Lib.Words
import Mathlib.Tactic.FinCases

/-!
# SHA-2

The four functions of `sha2.c` differ in the size of their words, in four small functions, in two
tables and in the length of the digest. They are one definition with these as its parameters,
`Sha2 n` for words of `n` bytes.

Two things are not as in the standard. The rounds are unrolled: instead of moving the eight working
variables on by one place, the code renames them from round to round, and moves nothing. And a
message comes in pieces, through a buffer of two blocks, with its length counted in 32 bits; only
the last four bytes of the length field are written, in bits. So a message of 2²⁹ bytes is too long,
and up to there the digest has to be that of the standard, however the message was cut.

## Main results

* `Sha2.unrolled_eq` — the rounds with renamed variables are the rounds of the standard.
* `Sha2.Reads.update`, `Sha2.Reads.final` — what a context stands for, update by update.
* `Sha2.final_updates` — the digest of a message that came in pieces.
-/

namespace MultipleCiphers

open Bytes

/-- What the functions of SHA-2 differ in, for words of `n` bytes: the four functions of the
rounds and of the message schedule, `sha*_k`, `sha*_h0`, and the number of words in a digest. -/
structure Sha2 (n : ℕ) where
  f1 : BitVec (8 * n) → BitVec (8 * n)
  f2 : BitVec (8 * n) → BitVec (8 * n)
  f3 : BitVec (8 * n) → BitVec (8 * n)
  f4 : BitVec (8 * n) → BitVec (8 * n)
  k : List (BitVec (8 * n))
  h0 : Vector (BitVec (8 * n)) 8
  digestWords : ℕ
  two_le : 2 ≤ n
  rounds_dvd : 8 ∣ k.length
  digestWords_le : digestWords ≤ 8

/-- `sha256_ctx` and `sha512_ctx`. -/
structure Sha2Ctx (n : ℕ) where
  totLen : ℕ
  len : ℕ
  block : Bytes
  h : Vector (BitVec (8 * n)) 8

namespace Sha2

variable {n : ℕ}

/-! ### The macros -/

/-- `ROTR`. -/
def rotr (x : BitVec (8 * n)) (k : ℕ) : BitVec (8 * n) := x >>> k ||| x <<< (8 * n - k)

/-- `CH`. -/
def ch (x y z : BitVec (8 * n)) : BitVec (8 * n) := (x &&& y) ^^^ (~~~x &&& z)

/-- `MAJ`. -/
def maj (x y z : BitVec (8 * n)) : BitVec (8 * n) := (x &&& y) ^^^ (x &&& z) ^^^ (y &&& z)

/-- `PACK32` and `PACK64`: the word at an offset, its highest byte first. -/
def pack (b : Bytes) (off : ℕ) : BitVec (8 * n) :=
  (List.range n).foldl
    (fun x i => x ||| BitVec.ofNat _ (b.getD (off + i) 0).toNat <<< (8 * (n - 1 - i))) 0

/-- `UNPACK32` and `UNPACK64`. -/
def unpack (x : BitVec (8 * n)) : Bytes :=
  (List.range n).map fun i => UInt8.ofBitVec ((x >>> (8 * (n - 1 - i))).setWidth 8)

/-- The size of a block in bytes. -/
abbrev blockSize (_ : Sha2 n) : ℕ := 16 * n

variable (P : Sha2 n)

/-- `SHA256_SCR` and `SHA512_SCR`, for the words of the schedule that are there. -/
def scr (w : List (BitVec (8 * n))) : BitVec (8 * n) :=
  P.f4 (w.getD (w.length - 2) 0) + w.getD (w.length - 7) 0 + P.f3 (w.getD (w.length - 15) 0) +
    w.getD (w.length - 16) 0

/-- The words of a block, and those made from them. -/
def schedule (block : Bytes) : List (BitVec (8 * n)) :=
  (fun w => w ++ [P.scr w])^[P.k.length - 16] ((List.range 16).map fun j => pack block (n * j))

/-- `SHA256_EXP` and `SHA512_EXP`. -/
def exp (wv : Vector (BitVec (8 * n)) 8) (a b c d e f g h : Fin 8) (kj wj : BitVec (8 * n)) :
    Vector (BitVec (8 * n)) 8 :=
  let t1 := wv[h] + P.f2 wv[e] + ch wv[e] wv[f] wv[g] + kj + wj
  let t2 := P.f1 wv[a] + maj wv[a] wv[b] wv[c]
  let wv := wv.set d (wv[d] + t1)
  wv.set h (t1 + t2)

/-- Round `j` of the unrolled loop: `EXP(0,1,2,3,4,5,6,7, 0); EXP(7,0,1,2,3,4,5,6, 1); …`. -/
def unrolledRound (w : List (BitVec (8 * n))) (wv : Vector (BitVec (8 * n)) 8) (j : ℕ) :
    Vector (BitVec (8 * n)) 8 :=
  let r := Fin.ofNat 8 j
  P.exp wv (0 - r) (1 - r) (2 - r) (3 - r) (4 - r) (5 - r) (6 - r) (7 - r) (P.k.getD j 0)
    (w.getD j 0)

/-- One block of `sha256_transf` and `sha512_transf`. -/
def transfBlock (h : Vector (BitVec (8 * n)) 8) (subBlock : Bytes) : Vector (BitVec (8 * n)) 8 :=
  let w := P.schedule subBlock
  Vector.zipWith (· + ·) h ((List.range P.k.length).foldl (P.unrolledRound w) h)

/-- `sha256_transf` and `sha512_transf`. -/
def transf (h : Vector (BitVec (8 * n)) 8) (message : Bytes) (blockNb : ℕ) :
    Vector (BitVec (8 * n)) 8 :=
  (List.range blockNb).foldl
    (fun h i => P.transfBlock h (slice message (i * P.blockSize) P.blockSize)) h

/-! ### The functions -/

/-- `sha*_init`. The buffer of a context is not cleared. -/
def init (ctx : Sha2Ctx n) : Sha2Ctx n := { ctx with h := P.h0, len := 0, totLen := 0 }

/-- `sha*_update`. The lengths are `unsigned int`. -/
def update (ctx : Sha2Ctx n) (message : Bytes) : Sha2Ctx n :=
  let len := message.length
  let tmpLen := P.blockSize - ctx.len
  let remLen := if len < tmpLen then len else tmpLen
  let block := splice ctx.block ctx.len (message.take remLen)
  if (ctx.len + len) % 2 ^ 32 < P.blockSize then
    { ctx with block := block, len := (ctx.len + len) % 2 ^ 32 }
  else
    let newLen := len - remLen
    let blockNb := newLen / P.blockSize
    let shiftedMessage := message.drop remLen
    let h := P.transf ctx.h block 1
    let h := P.transf h shiftedMessage blockNb
    let remLen := newLen % P.blockSize
    { block := splice block 0 (slice shiftedMessage (blockNb * P.blockSize) remLen)
      len := remLen
      totLen := (ctx.totLen + (blockNb + 1) * P.blockSize) % 2 ^ 32
      h := h }

/-- The words of the digest. -/
def digest (h : Vector (BitVec (8 * n)) 8) : Bytes := (h.toList.take P.digestWords).flatMap unpack

/-- `sha*_final`: the digest, and the context. `len_b` has 32 bits. -/
def final (ctx : Sha2Ctx n) : Bytes × Sha2Ctx n :=
  let blockNb := 1 + if P.blockSize - (2 * n + 1) < ctx.len % P.blockSize then 1 else 0
  let lenB := (ctx.totLen + ctx.len) * 2 ^ 3 % 2 ^ 32
  let pmLen := blockNb * P.blockSize
  let block := splice ctx.block ctx.len (zeros (pmLen - ctx.len))
  let block := block.set ctx.len 0x80
  let block := splice block (pmLen - 4) (put4byte lenB)
  let h := P.transf ctx.h block blockNb
  (P.digest h, { ctx with block := block, h := h })

/-! ### The standard -/

/-- A round of the standard: the working variables move on by one place. -/
def round (w : List (BitVec (8 * n))) (wv : Vector (BitVec (8 * n)) 8) (j : ℕ) :
    Vector (BitVec (8 * n)) 8 :=
  let v (i : Fin 8) := wv[i]
  let t1 := v 7 + P.f2 (v 4) + ch (v 4) (v 5) (v 6) + P.k.getD j 0 + w.getD j 0
  let t2 := P.f1 (v 0) + maj (v 0) (v 1) (v 2)
  #v[t1 + t2, v 0, v 1, v 2, v 3 + t1, v 4, v 5, v 6]

/-- The compression function of the standard. -/
def compress (h : Vector (BitVec (8 * n)) 8) (block : Bytes) : Vector (BitVec (8 * n)) 8 :=
  Vector.zipWith (· + ·) h ((List.range P.k.length).foldl (P.round (P.schedule block)) h)

@[simp] theorem length_unpack (x : BitVec (8 * n)) : (unpack x).length = n := by simp [unpack]

theorem length_digest (h : Vector (BitVec (8 * n)) 8) :
    (P.digest h).length = n * P.digestWords := by
  have hle := P.digestWords_le
  rw [digest, length_flatMap_words length_unpack, List.length_take, Vector.length_toList,
    Nat.min_eq_left hle]

theorem digestSize_lt : n * P.digestWords + 2 * n < 16 * n := by
  have hmul := Nat.mul_le_mul_left n P.digestWords_le
  have hpos := P.two_le
  omega

/-- The hash function of the standard. The length of a message is put behind it in bits, in a field
of two words. -/
def blockHash : BlockHash (Vector (BitVec (8 * n)) 8) where
  blockSize := 16 * n
  digestSize := n * P.digestWords
  lengthSize := 2 * n
  start := P.h0
  compress := P.compress
  digest := P.digest
  encodeLength m := beBytes (2 * n) (8 * m)
  length_digest := P.length_digest
  length_encodeLength _ := length_beBytes _ _
  digestSize_lt := P.digestSize_lt

variable {P}

/-! ### Unrolled rounds -/

/-- Which variable the places `7 - r` and `3 - r` of round `r` are one round later. -/
theorem seven_sub_eq_iff : ∀ r p : Fin 8, 7 - r = p - (r + 1) ↔ p = 0 := by decide

theorem three_sub_eq_iff : ∀ r p : Fin 8, 3 - r = p - (r + 1) ↔ p = 4 := by decide

theorem sub_none : ∀ p : Fin 8, p - 0 = p := by decide

theorem sub_succ : ∀ r p : Fin 8, p - (r + 1) = p - 1 - r := by decide

/-- After `j` rounds, the variable at place `p` of the standard is at place `p - j` of the unrolled
code. -/
theorem getElem_unrolledRound {w : List (BitVec (8 * n))} {wv v : Vector (BitVec (8 * n)) 8} {j : ℕ}
    (h : ∀ p : Fin 8, wv[p - Fin.ofNat 8 j] = v[p]) (p : Fin 8) :
    (P.unrolledRound w wv j)[p - Fin.ofNat 8 (j + 1)] = (P.round w v j)[p] := by
  simp only [ofNat_succ, unrolledRound, exp, getElem_set_fin, h, seven_sub_eq_iff, three_sub_eq_iff]
  rw [sub_succ, h]
  fin_cases p <;> rfl

/-- **The unrolled rounds**, a multiple of eight of them, are those of the standard. -/
theorem unrolled_eq (w : List (BitVec (8 * n))) (v : Vector (BitVec (8 * n)) 8) {r : ℕ}
    (hr : 8 ∣ r) :
    (List.range r).foldl (P.unrolledRound w) v = (List.range r).foldl (P.round w) v := by
  have hrounds : ∀ j (p : Fin 8), ((List.range j).foldl (P.unrolledRound w) v)[p - Fin.ofNat 8 j] =
      ((List.range j).foldl (P.round w) v)[p] := by
    intro j
    induction j with
    | zero =>
      intro p
      simp only [Fin.ofNat, Nat.zero_mod, Fin.zero_eta, sub_none, List.range_zero,
        List.foldl_nil]
    | succ j ih =>
      intro p
      rw [List.range_succ, List.foldl_concat, List.foldl_concat]
      exact getElem_unrolledRound ih p
  refine Vector.ext fun p hp => ?_
  have hround := hrounds r ⟨p, hp⟩
  simp only [ofNat_of_dvd hr, sub_none] at hround
  exact hround

theorem transfBlock_eq (h : Vector (BitVec (8 * n)) 8) (b : Bytes) :
    P.transfBlock h b = P.compress h b := by
  rw [transfBlock, compress, unrolled_eq _ _ P.rounds_dvd]

/-! ### A context and its message -/

/-- `transf` takes in as many blocks of the message as it is told. -/
theorem transf_eq (h : Vector (BitVec (8 * n)) 8) {m : Bytes} {q : ℕ}
    (hm : P.blockSize * q ≤ m.length) :
    P.transf h m q = P.blockHash.absorb h (m.take (P.blockSize * q)) := by
  induction q with
  | zero => exact (BlockHash.absorb_nil h).symm
  | succ q ih =>
    have hle := (Nat.mul_le_mul_left P.blockSize (Nat.le_succ q)).trans hm
    rw [transf, List.range_succ, List.foldl_concat, ← transf, ih hle, transfBlock_eq,
      Nat.mul_comm q]
    exact (BlockHash.absorb_take_succ (H := P.blockHash) h hm).symm

/-- The end of the buffer: a bit, zeros, and a field. -/
theorem take_padded {b f : Bytes} {len pm : ℕ} (hlen : len + 1 + f.length ≤ pm)
    (hpm : pm ≤ b.length) :
    (splice ((splice b len (zeros (pm - len))).set len 0x80) (pm - f.length) f).take pm =
      b.take len ++ (0x80 :: zeros (pm - len - 1 - f.length) ++ f) := by
  have htake : (b.take len).length = len := by
    rw [List.length_take]
    omega
  have hzeros : zeros (pm - len) = 0 :: zeros (pm - len - 1 - f.length) ++ zeros f.length := by
    rw [show pm - len = (pm - len - 1 - f.length) + f.length + 1 by omega]
    simp only [zeros, List.replicate_succ, List.cons_append, List.replicate_append_replicate]
    congr 2
    omega
  have hset : (splice b len (zeros (pm - len))).set len 0x80 =
      (b.take len ++ 0x80 :: zeros (pm - len - 1 - f.length)) ++ zeros f.length ++ b.drop pm := by
    rw [splice, length_zeros, show len + (pm - len) = pm by omega, hzeros, List.append_assoc,
      List.set_append_right _ _ (by omega), htake, Nat.sub_self]
    simp only [List.cons_append, List.set_cons_zero, List.append_assoc]
  have hfront : (b.take len ++ 0x80 :: zeros (pm - len - 1 - f.length)).length = pm - f.length := by
    rw [List.length_append, htake, List.length_cons, length_zeros]
    omega
  rw [hset, splice_append (c := b.drop pm) hfront (length_zeros _).symm, List.take_left' (by
    rw [List.length_append, hfront]
    omega)]
  simp only [List.cons_append, List.append_assoc]

/-- The padding as `sha*_final` writes it: of the length only the last four bytes, and as many
blocks as it takes. -/
theorem padding_blocks {t len c : ℕ} (hlen : len < P.blockSize) (ht : P.blockSize ∣ t)
    (hshort : t + len < 2 ^ 29)
    (hc : 1 + (if P.blockSize - (2 * n + 1) < len then 1 else 0) = c) :
    P.blockHash.padding (t + len) =
        0x80 :: zeros (c * P.blockSize - len - 1 - 4) ++ put4byte (8 * (t + len)) ∧
      len + 1 + 4 ≤ c * P.blockSize ∧ c * P.blockSize ≤ 2 * P.blockSize := by
  have htwo := P.two_le
  have hsize : P.blockSize = 16 * n := rfl
  obtain ⟨z, hz, hzc⟩ : ∃ z < P.blockSize, len + (1 + z + 2 * n) = c * P.blockSize := by
    refine ⟨c * P.blockSize - len - 1 - 2 * n, ?_⟩
    split at hc <;> subst hc <;> omega
  have hle : c ≤ 2 := by split at hc <;> omega
  obtain ⟨q, rfl⟩ := ht
  have hdvd : P.blockSize ∣ P.blockSize * q + len + (1 + z + 2 * n) :=
    ⟨q + c, by rw [Nat.mul_add, Nat.mul_comm _ c]; omega⟩
  refine ⟨?_, by omega, Nat.mul_le_mul_right _ hle⟩
  generalize P.blockSize * q + len = t at *
  have hfield : beBytes (2 * n) (8 * t) = zeros (2 * n - 4) ++ put4byte (8 * t) := by
    rw [← beBytes_four, ← beBytes_of_lt (by omega)]
    congr 1
    omega
  rw [BlockHash.padding_eq (H := P.blockHash) hz hdvd,
    show c * P.blockSize - len - 1 - 4 = z + (2 * n - 4) by omega]
  change 0x80 :: zeros z ++ beBytes (2 * n) (8 * t) = _
  rw [hfield, ← List.append_assoc, List.cons_append, zeros, zeros, List.replicate_append_replicate]
  rfl

/-- The context stands for the message: the whole blocks of it are in `h`, the rest is at the start
of the buffer, and the two counters together count it. -/
structure Reads (P : Sha2 n) (ctx : Sha2Ctx n) (m : Bytes) : Prop where
  block : ctx.block.length = 2 * P.blockSize
  buffered : P.blockHash.Buffered ctx.h (ctx.block.take ctx.len) m
  total : ctx.totLen + ctx.len = m.length
  short : m.length < 2 ^ 29

namespace Reads

variable {ctx : Sha2Ctx n} {m : Bytes}

theorem init (hblock : ctx.block.length = 2 * P.blockSize) : P.Reads (P.init ctx) [] where
  block := hblock
  buffered := by
    rw [Sha2.init, List.take_zero]
    exact BlockHash.Buffered.start
  total := rfl
  short := by decide

theorem len_lt (h : P.Reads ctx m) : ctx.len < P.blockSize := by
  obtain ⟨w, -, -, -, hlt⟩ := h.buffered
  have hblock := h.block
  have hlt : (ctx.block.take ctx.len).length < P.blockSize := hlt
  rw [List.length_take] at hlt
  omega

theorem length_take_len (h : P.Reads ctx m) : (ctx.block.take ctx.len).length = ctx.len := by
  have hblock := h.block
  have hlt := h.len_lt
  rw [List.length_take]
  omega

/-- A piece that does not fill the block. -/
theorem update_of_lt (h : P.Reads ctx m) {d : Bytes} (hd : (m ++ d).length < 2 ^ 29)
    (hlt : ctx.len + d.length < P.blockSize) : P.Reads (P.update ctx d) (m ++ d) := by
  have hblock := h.block
  have htotal := h.total
  have hmod : (ctx.len + d.length) % 2 ^ 32 = ctx.len + d.length := by
    rw [List.length_append] at hd
    exact Nat.mod_eq_of_lt (by omega)
  have hupdate : P.update ctx d =
      { ctx with block := splice ctx.block ctx.len d, len := ctx.len + d.length } := by
    rw [Sha2.update]
    simp only [hmod, if_pos hlt, if_pos (show d.length < P.blockSize - ctx.len by omega),
      List.take_length]
  rw [hupdate]
  refine ⟨?_, ?_, ?_, hd⟩
  · rw [length_splice (by omega)]
    exact hblock
  · rw [take_splice (by omega)]
    exact h.buffered.update_of_lt (by rwa [h.length_take_len])
  · rw [List.length_append, ← htotal]
    exact (Nat.add_assoc _ _ _).symm

/-- A piece that fills the block. -/
theorem update_of_le (h : P.Reads ctx m) {d : Bytes} (hd : (m ++ d).length < 2 ^ 29)
    (hle : P.blockSize ≤ ctx.len + d.length) : P.Reads (P.update ctx d) (m ++ d) := by
  have hblock := h.block
  have htotal := h.total
  have hlen := h.len_lt
  have hpos : 0 < P.blockSize := P.blockHash.blockSize_pos
  rw [List.length_append] at hd
  obtain ⟨r, hr⟩ : ∃ r, P.blockSize - ctx.len = r := ⟨_, rfl⟩
  obtain ⟨q, hq⟩ : ∃ q, (d.length - r) / P.blockSize = q := ⟨_, rfl⟩
  have hdiv := Nat.div_add_mod (d.length - r) P.blockSize
  have hmod := Nat.mod_lt (d.length - r) hpos
  rw [hq] at hdiv
  have htake : (d.take r).length = r := by
    rw [List.length_take]
    omega
  have hdrop : (d.drop r).length = d.length - r := List.length_drop
  have hblocks : P.blockSize * q ≤ (d.drop r).length := by
    rw [hdrop]
    omega
  -- the block that is full now, and the blocks behind it
  have hsplice : (splice ctx.block ctx.len (d.take r)).length = 2 * P.blockSize := by
    rw [length_splice (by omega), hblock]
  have hfull : (splice ctx.block ctx.len (d.take r)).take (P.blockSize * 1) =
      ctx.block.take ctx.len ++ d.take r := by
    rw [← take_splice (b := ctx.block) (d := d.take r) (by omega), htake]
    congr 1
    omega
  have hfullLen : (ctx.block.take ctx.len ++ d.take r).length = P.blockSize := by
    rw [List.length_append, h.length_take_len, htake]
    omega
  have hstate : P.transf (P.transf ctx.h (splice ctx.block ctx.len (d.take r)) 1) (d.drop r) q =
      P.blockHash.absorb (P.compress ctx.h (ctx.block.take ctx.len ++ d.take r)) (d.drop r) := by
    rw [transf_eq _ hblocks, transf_eq _ (by rw [hsplice]; omega), hfull]
    exact (BlockHash.absorb_take _ _ (by rw [hdrop]; exact hq)).trans
      (congrArg (P.blockHash.absorb · _) (BlockHash.absorb_one hfullLen _))
  have hrest : slice (d.drop r) (q * P.blockSize) ((d.length - r) % P.blockSize) =
      (d.drop r).drop (P.blockSize * q) := by
    rw [slice, Nat.mul_comm, List.take_of_length_le]
    rw [List.length_drop, hdrop]
    omega
  have hupdate : P.update ctx d =
      { block := splice (splice ctx.block ctx.len (d.take r)) 0
          ((d.drop r).drop (P.blockSize * q))
        len := (d.length - r) % P.blockSize
        totLen := ctx.totLen + (q + 1) * P.blockSize
        h := P.blockHash.absorb (P.compress ctx.h (ctx.block.take ctx.len ++ d.take r))
          (d.drop r) } := by
    have hmod' : (ctx.len + d.length) % 2 ^ 32 = ctx.len + d.length := Nat.mod_eq_of_lt (by omega)
    have hrem : (if d.length < P.blockSize - ctx.len then d.length else P.blockSize - ctx.len) =
        r := by
      rw [if_neg (by omega), hr]
    have htotal' : (ctx.totLen + (q + 1) * P.blockSize) % 2 ^ 32 =
        ctx.totLen + (q + 1) * P.blockSize := by
      refine Nat.mod_eq_of_lt ?_
      rw [Nat.succ_mul, Nat.mul_comm q]
      omega
    rw [Sha2.update]
    simp only [hmod', if_neg (show ¬ ctx.len + d.length < P.blockSize by omega), hrem, hq, hstate,
      hrest, htotal']
  have hrestLen : ((d.drop r).drop (P.blockSize * q)).length = (d.length - r) % P.blockSize := by
    rw [List.length_drop, hdrop]
    omega
  have hbuffered := h.buffered.update_of_le (d := d) (r := r)
    (by rw [h.length_take_len]; exact (by omega : ctx.len + r = P.blockSize)) (by omega)
  rw [hupdate]
  refine ⟨?_, ?_, ?_, by rwa [List.length_append]⟩
  · rw [length_splice (by omega), hsplice]
  · have htakeRest := take_splice (b := splice ctx.block ctx.len (d.take r))
      (d := (d.drop r).drop (P.blockSize * q)) (Nat.zero_le _)
    rw [hrestLen, Nat.zero_add, List.take_zero, List.nil_append] at htakeRest
    rw [htakeRest, ← hq]
    exact hbuffered
  · dsimp only
    rw [List.length_append, Nat.succ_mul, Nat.mul_comm q]
    omega

/-- **One update.** -/
theorem update (h : P.Reads ctx m) {d : Bytes} (hd : (m ++ d).length < 2 ^ 29) :
    P.Reads (P.update ctx d) (m ++ d) := by
  rcases Nat.lt_or_ge (ctx.len + d.length) P.blockSize with hlt | hle
  · exact h.update_of_lt hd hlt
  · exact h.update_of_le hd hle

/-- **The end.** The digest is that of the message, and it can be read off the context again. -/
theorem final (h : P.Reads ctx m) :
    (P.final ctx).1 = P.blockHash.hash m ∧ P.digest (P.final ctx).2.h = P.blockHash.hash m := by
  have hblock := h.block
  have hlen := h.len_lt
  have hdvd : P.blockSize ∣ ctx.totLen := by
    obtain ⟨w, hm, hw, -, -⟩ := h.buffered
    have htotal := h.total
    rw [hm, List.length_append, h.length_take_len, Nat.add_right_cancel_iff] at htotal
    rwa [htotal]
  obtain ⟨c, hc⟩ : ∃ c, 1 + (if P.blockSize - (2 * n + 1) < ctx.len then 1 else 0) = c := ⟨_, rfl⟩
  obtain ⟨hpadding, hfits, hle⟩ := padding_blocks hlen hdvd (by rw [h.total]; exact h.short) hc
  rw [h.total] at hpadding
  have hlenB : (ctx.totLen + ctx.len) * 2 ^ 3 % 2 ^ 32 = 8 * m.length := by
    have hshort := h.short
    rw [h.total]
    omega
  have hzeros : (splice ctx.block ctx.len (zeros (c * P.blockSize - ctx.len))).length =
      2 * P.blockSize := by
    rw [length_splice (by rw [length_zeros]; omega), hblock]
  have hfield : (splice ((splice ctx.block ctx.len (zeros (c * P.blockSize - ctx.len))).set ctx.len
      0x80) (c * P.blockSize - 4) (put4byte (8 * m.length))).length = 2 * P.blockSize := by
    rw [length_splice (by rw [List.length_set, hzeros, length_put4byte]; omega), List.length_set,
      hzeros]
  have hbuffer := take_padded (b := ctx.block) (f := put4byte (8 * m.length))
    (show ctx.len + 1 + 4 ≤ c * P.blockSize from hfits) (by omega)
  rw [length_put4byte, ← hpadding] at hbuffer
  have hstate : (P.final ctx).2.h =
      P.blockHash.absorb ctx.h (ctx.block.take ctx.len ++ P.blockHash.padding m.length) := by
    rw [Sha2.final, ← hbuffer, Nat.mod_eq_of_lt hlen]
    simp only [hc, hlenB]
    rw [transf_eq _ (by rw [hfield, Nat.mul_comm]; exact hle), Nat.mul_comm P.blockSize c]
  rw [h.buffered.hash, ← hstate]
  exact ⟨rfl, rfl⟩

theorem length_block_final (h : P.Reads ctx m) :
    (P.final ctx).2.block.length = 2 * P.blockSize := by
  have hblock := h.block
  have hlen := h.len_lt
  have hpos := P.two_le
  have hsize : P.blockSize = 16 * n := rfl
  obtain ⟨c, hc⟩ : ∃ c, 1 + (if P.blockSize - (2 * n + 1) < ctx.len then 1 else 0) = c := ⟨_, rfl⟩
  have hle : P.blockSize ≤ c * P.blockSize ∧ c * P.blockSize ≤ 2 * P.blockSize := by
    split at hc <;> subst hc <;> omega
  have hzeros : (splice ctx.block ctx.len (zeros (c * P.blockSize - ctx.len))).length =
      2 * P.blockSize := by
    rw [length_splice (by rw [length_zeros]; omega), hblock]
  rw [Sha2.final, Nat.mod_eq_of_lt hlen]
  simp only [hc]
  rw [length_splice (by rw [List.length_set, hzeros, length_put4byte]; omega), List.length_set,
    hzeros]

/-- A context that takes in a message piece by piece. -/
theorem foldl (h : P.Reads ctx m) {ds : List Bytes} (hds : (m ++ ds.flatten).length < 2 ^ 29) :
    P.Reads (ds.foldl P.update ctx) (m ++ ds.flatten) := by
  induction ds generalizing ctx m with
  | nil => rwa [List.flatten_nil, List.append_nil]
  | cons d ds ih =>
    rw [List.flatten_cons, ← List.append_assoc] at hds ⊢
    refine ih (h.update ?_) hds
    rw [List.length_append] at hds
    omega

end Reads

/-- **A message that came in pieces** has the digest of the standard: whatever the pieces are and
whatever the context held before, as long as the message is shorter than 2²⁹ bytes. -/
theorem final_updates {ctx : Sha2Ctx n} (hblock : ctx.block.length = 2 * P.blockSize)
    {ds : List Bytes} (hds : ds.flatten.length < 2 ^ 29) :
    (P.final (ds.foldl P.update (P.init ctx))).1 = P.blockHash.hash ds.flatten :=
  ((Reads.init hblock).foldl hds).final.1

end Sha2

/-! ### The four functions -/

theorem sha256_two_le : 2 ≤ 4 := by decide

theorem sha512_two_le : 2 ≤ 8 := by decide

theorem sha256_rounds_dvd : 8 ∣ 64 := ⟨8, rfl⟩

theorem sha512_rounds_dvd : 8 ∣ 80 := ⟨10, rfl⟩

theorem sha256_digestWords_le : 8 ≤ 8 := Nat.le_refl 8

theorem sha224_digestWords_le : 7 ≤ 8 := by decide

theorem sha384_digestWords_le : 6 ≤ 8 := by decide

/-- SHA-256, and what SHA-224 shares with it. -/
def sha256Params : Sha2 4 where
  f1 x := Sha2.rotr x 2 ^^^ Sha2.rotr x 13 ^^^ Sha2.rotr x 22
  f2 x := Sha2.rotr x 6 ^^^ Sha2.rotr x 11 ^^^ Sha2.rotr x 25
  f3 x := Sha2.rotr x 7 ^^^ Sha2.rotr x 18 ^^^ x >>> 3
  f4 x := Sha2.rotr x 17 ^^^ Sha2.rotr x 19 ^^^ x >>> 10
  k := [
    0x428a2f98, 0x71374491, 0xb5c0fbcf, 0xe9b5dba5, 0x3956c25b, 0x59f111f1,
    0x923f82a4, 0xab1c5ed5, 0xd807aa98, 0x12835b01, 0x243185be, 0x550c7dc3,
    0x72be5d74, 0x80deb1fe, 0x9bdc06a7, 0xc19bf174, 0xe49b69c1, 0xefbe4786,
    0x0fc19dc6, 0x240ca1cc, 0x2de92c6f, 0x4a7484aa, 0x5cb0a9dc, 0x76f988da,
    0x983e5152, 0xa831c66d, 0xb00327c8, 0xbf597fc7, 0xc6e00bf3, 0xd5a79147,
    0x06ca6351, 0x14292967, 0x27b70a85, 0x2e1b2138, 0x4d2c6dfc, 0x53380d13,
    0x650a7354, 0x766a0abb, 0x81c2c92e, 0x92722c85, 0xa2bfe8a1, 0xa81a664b,
    0xc24b8b70, 0xc76c51a3, 0xd192e819, 0xd6990624, 0xf40e3585, 0x106aa070,
    0x19a4c116, 0x1e376c08, 0x2748774c, 0x34b0bcb5, 0x391c0cb3, 0x4ed8aa4a,
    0x5b9cca4f, 0x682e6ff3, 0x748f82ee, 0x78a5636f, 0x84c87814, 0x8cc70208,
    0x90befffa, 0xa4506ceb, 0xbef9a3f7, 0xc67178f2]
  h0 := #v[
    0x6a09e667, 0xbb67ae85, 0x3c6ef372, 0xa54ff53a,
    0x510e527f, 0x9b05688c, 0x1f83d9ab, 0x5be0cd19]
  digestWords := 8
  two_le := sha256_two_le
  rounds_dvd := sha256_rounds_dvd
  digestWords_le := sha256_digestWords_le

/-- SHA-224. -/
def sha224Params : Sha2 4 where
  __ := sha256Params
  h0 := #v[
    0xc1059ed8, 0x367cd507, 0x3070dd17, 0xf70e5939,
    0xffc00b31, 0x68581511, 0x64f98fa7, 0xbefa4fa4]
  digestWords := 7
  digestWords_le := sha224_digestWords_le

/-- SHA-512, and what SHA-384 shares with it. -/
def sha512Params : Sha2 8 where
  f1 x := Sha2.rotr x 28 ^^^ Sha2.rotr x 34 ^^^ Sha2.rotr x 39
  f2 x := Sha2.rotr x 14 ^^^ Sha2.rotr x 18 ^^^ Sha2.rotr x 41
  f3 x := Sha2.rotr x 1 ^^^ Sha2.rotr x 8 ^^^ x >>> 7
  f4 x := Sha2.rotr x 19 ^^^ Sha2.rotr x 61 ^^^ x >>> 6
  k := [
    0x428a2f98d728ae22, 0x7137449123ef65cd, 0xb5c0fbcfec4d3b2f, 0xe9b5dba58189dbbc,
    0x3956c25bf348b538, 0x59f111f1b605d019, 0x923f82a4af194f9b, 0xab1c5ed5da6d8118,
    0xd807aa98a3030242, 0x12835b0145706fbe, 0x243185be4ee4b28c, 0x550c7dc3d5ffb4e2,
    0x72be5d74f27b896f, 0x80deb1fe3b1696b1, 0x9bdc06a725c71235, 0xc19bf174cf692694,
    0xe49b69c19ef14ad2, 0xefbe4786384f25e3, 0x0fc19dc68b8cd5b5, 0x240ca1cc77ac9c65,
    0x2de92c6f592b0275, 0x4a7484aa6ea6e483, 0x5cb0a9dcbd41fbd4, 0x76f988da831153b5,
    0x983e5152ee66dfab, 0xa831c66d2db43210, 0xb00327c898fb213f, 0xbf597fc7beef0ee4,
    0xc6e00bf33da88fc2, 0xd5a79147930aa725, 0x06ca6351e003826f, 0x142929670a0e6e70,
    0x27b70a8546d22ffc, 0x2e1b21385c26c926, 0x4d2c6dfc5ac42aed, 0x53380d139d95b3df,
    0x650a73548baf63de, 0x766a0abb3c77b2a8, 0x81c2c92e47edaee6, 0x92722c851482353b,
    0xa2bfe8a14cf10364, 0xa81a664bbc423001, 0xc24b8b70d0f89791, 0xc76c51a30654be30,
    0xd192e819d6ef5218, 0xd69906245565a910, 0xf40e35855771202a, 0x106aa07032bbd1b8,
    0x19a4c116b8d2d0c8, 0x1e376c085141ab53, 0x2748774cdf8eeb99, 0x34b0bcb5e19b48a8,
    0x391c0cb3c5c95a63, 0x4ed8aa4ae3418acb, 0x5b9cca4f7763e373, 0x682e6ff3d6b2b8a3,
    0x748f82ee5defb2fc, 0x78a5636f43172f60, 0x84c87814a1f0ab72, 0x8cc702081a6439ec,
    0x90befffa23631e28, 0xa4506cebde82bde9, 0xbef9a3f7b2c67915, 0xc67178f2e372532b,
    0xca273eceea26619c, 0xd186b8c721c0c207, 0xeada7dd6cde0eb1e, 0xf57d4f7fee6ed178,
    0x06f067aa72176fba, 0x0a637dc5a2c898a6, 0x113f9804bef90dae, 0x1b710b35131c471b,
    0x28db77f523047d84, 0x32caab7b40c72493, 0x3c9ebe0a15c9bebc, 0x431d67c49c100d4c,
    0x4cc5d4becb3e42b6, 0x597f299cfc657e2a, 0x5fcb6fab3ad6faec, 0x6c44198c4a475817]
  h0 := #v[
    0x6a09e667f3bcc908, 0xbb67ae8584caa73b, 0x3c6ef372fe94f82b, 0xa54ff53a5f1d36f1,
    0x510e527fade682d1, 0x9b05688c2b3e6c1f, 0x1f83d9abfb41bd6b, 0x5be0cd19137e2179]
  digestWords := 8
  two_le := sha512_two_le
  rounds_dvd := sha512_rounds_dvd
  digestWords_le := sha256_digestWords_le

/-- SHA-384. -/
def sha384Params : Sha2 8 where
  __ := sha512Params
  h0 := #v[
    0xcbbb9d5dc1059ed8, 0x629a292a367cd507, 0x9159015a3070dd17, 0x152fecd8f70e5939,
    0x67332667ffc00b31, 0x8eb44a8768581511, 0xdb0c2e0d64f98fa7, 0x47b5481dbefa4fa4]
  digestWords := 6
  digestWords_le := sha384_digestWords_le

/-- `sha256_init`, `sha256_update`, `sha256_final` and `sha256_transform`. -/
def sha256Init : Sha2Ctx 4 → Sha2Ctx 4 := sha256Params.init
def sha256Update : Sha2Ctx 4 → Bytes → Sha2Ctx 4 := sha256Params.update
def sha256Final : Sha2Ctx 4 → Bytes × Sha2Ctx 4 := sha256Params.final
def sha256Transform (ctx : Sha2Ctx 4) (message : Bytes) : Sha2Ctx 4 :=
  { ctx with h := sha256Params.transf ctx.h message 1 }

/-- `sha224_init`, `sha224_update` and `sha224_final`. -/
def sha224Init : Sha2Ctx 4 → Sha2Ctx 4 := sha224Params.init
def sha224Update : Sha2Ctx 4 → Bytes → Sha2Ctx 4 := sha224Params.update
def sha224Final : Sha2Ctx 4 → Bytes × Sha2Ctx 4 := sha224Params.final

/-- `sha512_init`, `sha512_update`, `sha512_final` and `sha512_transform`. -/
def sha512Init : Sha2Ctx 8 → Sha2Ctx 8 := sha512Params.init
def sha512Update : Sha2Ctx 8 → Bytes → Sha2Ctx 8 := sha512Params.update
def sha512Final : Sha2Ctx 8 → Bytes × Sha2Ctx 8 := sha512Params.final
def sha512Transform (ctx : Sha2Ctx 8) (message : Bytes) : Sha2Ctx 8 :=
  { ctx with h := sha512Params.transf ctx.h message 1 }

/-- `sha384_init`, `sha384_update` and `sha384_final`. -/
def sha384Init : Sha2Ctx 8 → Sha2Ctx 8 := sha384Params.init
def sha384Update : Sha2Ctx 8 → Bytes → Sha2Ctx 8 := sha384Params.update
def sha384Final : Sha2Ctx 8 → Bytes × Sha2Ctx 8 := sha384Params.final

/-- A context on the stack. -/
def freshSha2Ctx (n : ℕ) : Sha2Ctx n := ⟨0, 0, zeros (32 * n), Vector.replicate 8 0⟩

/-- SHA-256 of three bytes that come in two pieces. -/
theorem sha256_two_pieces :
    (sha256Params.final ([[0x61], [0x62, 0x63]].foldl sha256Params.update
        (sha256Params.init (freshSha2Ctx 4)))).1 =
      sha256Params.blockHash.hash [[0x61], [0x62, 0x63]].flatten :=
  Sha2.final_updates (length_zeros 128) (by decide)

/-- `sha256` and `sha512`. -/
def sha256 (message : Bytes) : Bytes :=
  (sha256Final (sha256Update (sha256Init (freshSha2Ctx 4)) message)).1
def sha512 (message : Bytes) : Bytes :=
  (sha512Final (sha512Update (sha512Init (freshSha2Ctx 8)) message)).1

end MultipleCiphers
