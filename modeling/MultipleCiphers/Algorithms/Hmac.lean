import MultipleCiphers.Algorithms.Sha1
import MultipleCiphers.Algorithms.Sha2
import MultipleCiphers.Lib.Sponge
import MultipleCiphers.Primitives

/-!
# HMAC and the fast PBKDF2

`fastpbkdf2.c` writes HMAC and PBKDF2 once, as a macro over the type of a hash context and seven
functions on it, and expands it for SHA-1, SHA-256 and SHA-512. Here the macro is a definition over
`HashContext`, which has the same arguments, and with them what makes them the functions of a hash.

It is fast because of what it leaves out. From the second iteration on, the message under HMAC is a
digest, so that each of the two hashes is one block behind the block of the key. The states behind
the blocks of the key are computed once and copied; the block with the digest is padded once, and
only the digest in it is replaced; and the values are combined as states, not as bytes.

## Main results

* `HashContext.HmacReads.final` — the pieces of a message under HMAC.
* `HashContext.pbkdf2F_eq` — one block of the output.
* `sqlcipherHmac_eq` — HMAC with the hash that is asked for, of two strings or of one.
* `fastpbkdf2Hmac_eq` — the output is PBKDF2, for every count and length.
-/

namespace MultipleCiphers

open Bytes

/-- The arguments of `DECL_PBKDF2`: a context type `κ` and the functions on it. They belong to a
hash function over the states `σ`: a context has a state, and it stands for the message it has
taken in. `Usable` is what a context on the stack is: its buffer has the size it is declared
with. -/
structure HashContext (κ σ : Type*) where
  hash : BlockHash σ
  init : κ → κ
  update : κ → Bytes → κ
  xform : κ → Bytes → κ
  final : κ → Bytes × κ
  /-- `_xcpy(out, in)`. -/
  xcpy : κ → κ → κ
  xtract : κ → Bytes
  /-- `_xxor(out, in)`. -/
  xxor : κ → κ → κ
  state : κ → σ
  Usable : κ → Prop
  Reads : κ → Bytes → Prop
  reads_init : ∀ {c}, Usable c → Reads (init c) []
  reads_update : ∀ {c m}, Reads c m → ∀ {d}, (m ++ d).length < 2 ^ 29 →
    Reads (update c d) (m ++ d)
  usable_final : ∀ {c m}, Reads c m → Usable (final c).2
  final_eq : ∀ {c m}, Reads c m → (final c).1 = hash.hash m ∧ xtract (final c).2 = hash.hash m
  state_of_dvd : ∀ {c m}, Reads c m → hash.blockSize ∣ m.length →
    state c = hash.absorb hash.start m
  state_xform : ∀ {c b}, b.length = hash.blockSize → state (xform c b) = hash.compress (state c) b
  state_xcpy : ∀ out c, state (xcpy out c) = state c
  xtract_eq : ∀ c, xtract c = hash.digest (state c)
  xtract_xxor : ∀ out c, xtract (xxor out c) = xorBytes (xtract out) (xtract c)
  four_le : 4 ≤ hash.lengthSize
  encodeLength_eq : ∀ {n}, n < 2 ^ 29 →
    hash.encodeLength n = zeros (hash.lengthSize - 4) ++ put4byte (8 * n)
  blockSize_le : hash.blockSize ≤ 128

/-- `HMAC_CTX(_name)`. -/
structure HmacCtx (κ : Type*) where
  inner : κ
  outer : κ

/-- `md_pad`: the padding of a message of `msg` bytes, behind the `used` bytes of a block. -/
def mdPad (block : Bytes) (used msg : ℕ) : Bytes :=
  let blocksz := block.length
  let block := splice block used (zeros (blocksz - used - 4))
  let block := block.set used 0x80
  splice block (blocksz - 4) (put4byte (msg * 8 % 2 ^ 32))

namespace HashContext

variable {κ σ : Type*} (F : HashContext κ σ)

/-! ### The macro -/

/-- `HMAC_INIT(_name)`. -/
def hmacInit (ctx : HmacCtx κ) (key : Bytes) : HmacCtx κ :=
  let blocksz := F.hash.blockSize
  let shortened : Bytes × κ :=
    if blocksz < key.length then
      F.final (F.update (F.init ctx.inner) (key.take (key.length % 2 ^ 32)))
    else (key, ctx.inner)
  let k := shortened.1 ++ zeros (blocksz - shortened.1.length)
  { inner := F.update (F.init shortened.2) (BlockHash.masked 0x36 k)
    outer := F.update (F.init ctx.outer) (BlockHash.masked 0x5c k) }

/-- `HMAC_UPDATE(_name)`. -/
def hmacUpdate (ctx : HmacCtx κ) (data : Bytes) : HmacCtx κ :=
  { ctx with inner := F.update ctx.inner (data.take (data.length % 2 ^ 32)) }

/-- `HMAC_FINAL(_name)`. -/
def hmacFinal (ctx : HmacCtx κ) : Bytes × HmacCtx κ :=
  let inner := F.final ctx.inner
  let outer := F.final (F.update ctx.outer inner.1)
  (outer.1, ⟨inner.2, outer.2⟩)

/-- The loop of `PBKDF2_F(_name)`: the context, `Ublock` and `result`. -/
def pbkdf2Step (startctx : HmacCtx κ) (s : HmacCtx κ × Bytes × κ) : HmacCtx κ × Bytes × κ :=
  let inner := F.xform (F.xcpy s.1.inner startctx.inner) s.2.1
  let ublock := splice s.2.1 0 (F.xtract inner)
  let outer := F.xform (F.xcpy s.1.outer startctx.outer) ublock
  let ublock := splice ublock 0 (F.xtract outer)
  (⟨inner, outer⟩, ublock, F.xxor s.2.2 outer)

/-- `PBKDF2_F(_name)`. All of `Ublock` is written before it is read. -/
def pbkdf2F (startctx : HmacCtx κ) (counter : ℕ) (salt : Bytes) (iterations : ℕ) : Bytes :=
  let blocksz := F.hash.blockSize
  let hashsz := F.hash.digestSize
  let ublock := mdPad (zeros blocksz) hashsz (blocksz + hashsz)
  let ctx := F.hmacUpdate startctx salt
  let ctx := F.hmacUpdate ctx (put4byte counter)
  let first := F.hmacFinal ctx
  let ublock := splice ublock 0 first.1
  let s := (F.pbkdf2Step startctx)^[iterations - 1] (first.2, ublock, first.2.outer)
  F.xtract s.2.2

/-- `PBKDF2(_name)`. `ctx` is the context on the stack, and the counters are words of 32 bits. -/
def fastPbkdf2 (ctx : HmacCtx κ) (pw salt : Bytes) (iterations : ℕ) (out : Bytes) (nout : ℕ) :
    Bytes :=
  let hashsz := F.hash.digestSize
  let ctx := F.hmacInit ctx pw
  let blocksNeeded := (nout + hashsz - 1) % 2 ^ 32 / hashsz
  (List.range blocksNeeded).foldl
    (fun out i =>
      let block := F.pbkdf2F ctx (i + 1) salt iterations
      let offset := i * hashsz
      splice out offset (block.take (min (nout - offset) hashsz)))
    out

variable {F}

/-! ### HMAC -/

/-- A context that has been started with a key and has taken in a message. -/
structure HmacReads (F : HashContext κ σ) (key : Bytes) (ctx : HmacCtx κ) (m : Bytes) : Prop where
  inner : F.Reads ctx.inner (BlockHash.masked 0x36 (F.hash.keyBlock key) ++ m)
  outer : F.Reads ctx.outer (BlockHash.masked 0x5c (F.hash.keyBlock key))

theorem take_mod {b : Bytes} (h : b.length < 2 ^ 29) : b.take (b.length % 2 ^ 32) = b := by
  rw [Nat.mod_eq_of_lt (h.trans (by decide)), List.take_length]

theorem reads_first {c : κ} (hc : F.Usable c) {d : Bytes} (hd : d.length < 2 ^ 29) :
    F.Reads (F.update (F.init c) d) d := by
  have hreads := F.reads_update (F.reads_init hc) (d := d) hd
  rwa [List.nil_append] at hreads

theorem length_masked_keyBlock (F : HashContext κ σ) (b : UInt8) (key : Bytes) :
    (BlockHash.masked b (F.hash.keyBlock key)).length = F.hash.blockSize := by
  rw [BlockHash.length_masked, BlockHash.length_keyBlock]

theorem masked_lt (F : HashContext κ σ) (b : UInt8) (key : Bytes) :
    (BlockHash.masked b (F.hash.keyBlock key)).length < 2 ^ 29 := by
  have hle := F.blockSize_le
  rw [F.length_masked_keyBlock]
  omega

namespace HmacReads

variable {ctx : HmacCtx κ} {key m : Bytes}

theorem init (hinner : F.Usable ctx.inner) (houter : F.Usable ctx.outer)
    (hkey : key.length < 2 ^ 29) : F.HmacReads key (F.hmacInit ctx key) [] := by
  by_cases hlong : F.hash.blockSize < key.length
  · have hreads := reads_first hinner hkey
    have hblock : F.hash.hash key ++ zeros (F.hash.blockSize - (F.hash.hash key).length) =
        F.hash.keyBlock key := by
      rw [BlockHash.keyBlock, if_pos hlong]
    rw [hmacInit]
    simp only [if_pos hlong, take_mod hkey, (F.final_eq hreads).1, hblock]
    refine ⟨?_, reads_first houter (F.masked_lt 0x5c key)⟩
    rw [List.append_nil]
    exact reads_first (F.usable_final hreads) (F.masked_lt 0x36 key)
  · have hblock : key ++ zeros (F.hash.blockSize - key.length) = F.hash.keyBlock key := by
      rw [BlockHash.keyBlock, if_neg hlong]
    rw [hmacInit]
    simp only [if_neg hlong, hblock]
    refine ⟨?_, reads_first houter (F.masked_lt 0x5c key)⟩
    rw [List.append_nil]
    exact reads_first hinner (F.masked_lt 0x36 key)

theorem update (h : F.HmacReads key ctx m) {d : Bytes}
    (hd : F.hash.blockSize + (m ++ d).length < 2 ^ 29) :
    F.HmacReads key (F.hmacUpdate ctx d) (m ++ d) := by
  refine ⟨?_, h.outer⟩
  rw [hmacUpdate, take_mod (by rw [List.length_append] at hd; omega), ← List.append_assoc]
  refine F.reads_update h.inner ?_
  rwa [List.append_assoc, List.length_append, F.length_masked_keyBlock]

/-- **HMAC**, and it can be read off the outer context again. -/
theorem final (h : F.HmacReads key ctx m) :
    (F.hmacFinal ctx).1 = F.hash.hmac key m ∧
      F.xtract (F.hmacFinal ctx).2.outer = F.hash.hmac key m := by
  have hlt := F.hash.digestSize_lt
  have hle := F.blockSize_le
  have hinner := (F.final_eq h.inner).1
  have houter : F.Reads (F.update ctx.outer (F.final ctx.inner).1)
      (BlockHash.masked 0x5c (F.hash.keyBlock key) ++
        F.hash.hash (BlockHash.masked 0x36 (F.hash.keyBlock key) ++ m)) := by
    rw [hinner]
    refine F.reads_update h.outer ?_
    rw [List.length_append, F.length_masked_keyBlock, BlockHash.length_hash]
    omega
  exact F.final_eq houter

/-- What a context is that has only been started: the states behind the blocks of the key. -/
theorem state_inner (h : F.HmacReads key ctx []) :
    F.state ctx.inner =
      F.hash.compress F.hash.start (BlockHash.masked 0x36 (F.hash.keyBlock key)) := by
  have hreads := h.inner
  rw [List.append_nil] at hreads
  rw [F.state_of_dvd hreads (by rw [F.length_masked_keyBlock]),
    BlockHash.absorb_one (F.length_masked_keyBlock _ _)]

theorem state_outer (h : F.HmacReads key ctx m) :
    F.state ctx.outer =
      F.hash.compress F.hash.start (BlockHash.masked 0x5c (F.hash.keyBlock key)) := by
  rw [F.state_of_dvd h.outer (by rw [F.length_masked_keyBlock]),
    BlockHash.absorb_one (F.length_masked_keyBlock _ _)]

end HmacReads

/-- The padding of a digest behind a block, with the length in four bytes. -/
theorem padding_digest (F : HashContext κ σ) :
    F.hash.padding (F.hash.blockSize + F.hash.digestSize) =
      0x80 :: zeros (F.hash.blockSize - F.hash.digestSize - 5) ++
        put4byte (8 * (F.hash.blockSize + F.hash.digestSize)) := by
  have hlt := F.hash.digestSize_lt
  have hle := F.blockSize_le
  have hfour := F.four_le
  obtain ⟨z, hz⟩ : ∃ z, F.hash.digestSize + 1 + z + F.hash.lengthSize = F.hash.blockSize :=
    ⟨F.hash.blockSize - F.hash.digestSize - 1 - F.hash.lengthSize, by omega⟩
  have hdvd : F.hash.blockSize ∣ F.hash.blockSize + F.hash.digestSize +
      (1 + z + F.hash.lengthSize) := ⟨2, by omega⟩
  rw [BlockHash.padding_eq (by omega) hdvd, F.encodeLength_eq (by omega), ← List.append_assoc,
    List.cons_append, zeros, zeros, List.replicate_append_replicate,
    show F.hash.blockSize - F.hash.digestSize - 5 = z + (F.hash.lengthSize - 4) by omega]
  rfl

/-- `md_pad` writes all of a block that is not the message. -/
theorem drop_mdPad {b : Bytes} {used : ℕ} (h : used + 5 ≤ b.length) (msg : ℕ) :
    (mdPad b used msg).length = b.length ∧
      (mdPad b used msg).drop used =
        0x80 :: zeros (b.length - used - 5) ++ put4byte (msg * 8 % 2 ^ 32) := by
  have htake : (b.take used).length = used := by
    rw [List.length_take]
    omega
  have hzeros : zeros (b.length - used - 4) = 0 :: zeros (b.length - used - 5) := by
    rw [show b.length - used - 4 = b.length - used - 5 + 1 by omega, zeros, List.replicate_succ]
    rfl
  have hset : (splice b used (zeros (b.length - used - 4))).set used 0x80 =
      (b.take used ++ 0x80 :: zeros (b.length - used - 5)) ++ b.drop (b.length - 4) ++ [] := by
    rw [splice, length_zeros, show used + (b.length - used - 4) = b.length - 4 by omega, hzeros,
      List.append_assoc, List.set_append_right _ _ (by omega), htake, Nat.sub_self]
    simp only [List.cons_append, List.set_cons_zero, List.append_assoc, List.append_nil]
  have hfront : (b.take used ++ 0x80 :: zeros (b.length - used - 5)).length = b.length - 4 := by
    rw [List.length_append, htake, List.length_cons, length_zeros]
    omega
  have hpad : mdPad b used msg = b.take used ++
      (0x80 :: zeros (b.length - used - 5) ++ put4byte (msg * 8 % 2 ^ 32)) := by
    rw [mdPad]
    simp only [hset]
    rw [splice_append hfront (by rw [List.length_drop, length_put4byte]; omega), List.append_nil,
      List.append_assoc]
  refine ⟨?_, ?_⟩
  · rw [hpad, ← List.append_assoc, List.length_append, hfront, length_put4byte]
    omega
  · rw [hpad, List.drop_left' htake]

/-! ### PBKDF2 -/

/-- A digest put where another one was. -/
theorem splice_digestBlock {u v : Bytes} (hu : u.length = F.hash.digestSize)
    (hv : v.length = F.hash.digestSize) :
    splice (F.hash.digestBlock u) 0 v = F.hash.digestBlock v := by
  rw [splice, BlockHash.digestBlock, List.take_zero, List.nil_append, Nat.zero_add, hv,
    List.drop_left' hu]
  rfl

/-- The first digest, in front of what `md_pad` wrote. -/
theorem splice_mdPad {u : Bytes} (hu : u.length = F.hash.digestSize) :
    splice (mdPad (zeros F.hash.blockSize) F.hash.digestSize
      (F.hash.blockSize + F.hash.digestSize)) 0 u = F.hash.digestBlock u := by
  have hlt := F.hash.digestSize_lt
  have hle := F.blockSize_le
  have hfour := F.four_le
  have hroom : F.hash.digestSize + 5 ≤ (zeros F.hash.blockSize).length := by
    rw [length_zeros]
    omega
  have hdrop := (drop_mdPad hroom (F.hash.blockSize + F.hash.digestSize)).2
  rw [splice, List.take_zero, List.nil_append, Nat.zero_add, hu, hdrop, length_zeros,
    Nat.mod_eq_of_lt (by omega), Nat.mul_comm _ 8, ← F.padding_digest]
  rfl

/-- **One iteration** of the loop: the next value, and what is combined with it. -/
theorem pbkdf2Step_eq {startctx : HmacCtx κ} {key : Bytes} (h : F.HmacReads key startctx [])
    {s : HmacCtx κ × Bytes × κ} {u : Bytes} (hu : u.length = F.hash.digestSize)
    (hs : s.2.1 = F.hash.digestBlock u) :
    (F.pbkdf2Step startctx s).2.1 = F.hash.digestBlock (F.hash.hmac key u) ∧
      F.xtract (F.pbkdf2Step startctx s).2.2 = xorBytes (F.xtract s.2.2) (F.hash.hmac key u) := by
  have hinner : F.xtract (F.xform (F.xcpy s.1.inner startctx.inner) (F.hash.digestBlock u)) =
      F.hash.digest (F.hash.compress
        (F.hash.compress F.hash.start (BlockHash.masked 0x36 (F.hash.keyBlock key)))
        (F.hash.digestBlock u)) := by
    rw [F.xtract_eq, F.state_xform (BlockHash.length_digestBlock hu), F.state_xcpy, h.state_inner]
  obtain ⟨v, hv⟩ : ∃ v, F.xtract (F.xform (F.xcpy s.1.inner startctx.inner)
      (F.hash.digestBlock u)) = v := ⟨_, rfl⟩
  have hvlen : v.length = F.hash.digestSize := by
    rw [← hv, F.xtract_eq, F.hash.length_digest]
  have houter : F.xtract (F.xform (F.xcpy s.1.outer startctx.outer) (F.hash.digestBlock v)) =
      F.hash.hmac key u := by
    rw [F.xtract_eq, F.state_xform (BlockHash.length_digestBlock hvlen), F.state_xcpy,
      h.state_outer, ← hv, hinner, BlockHash.hmac_digest key hu]
  rw [pbkdf2Step]
  simp only [hs, hv, splice_digestBlock hu hvlen, houter, F.xtract_xxor, and_true]
  exact splice_digestBlock hvlen (BlockHash.length_hmac _ _)

/-- **The loop.** The values are those of the iterated function. -/
theorem pbkdf2Loop_eq {startctx : HmacCtx κ} {key : Bytes} (h : F.HmacReads key startctx [])
    {s : HmacCtx κ × Bytes × κ} {x : Bytes} (hs : s.2.1 = F.hash.digestBlock (F.hash.hmac key x))
    (hresult : F.xtract s.2.2 = F.hash.hmac key x) (j : ℕ) :
    ((F.pbkdf2Step startctx)^[j] s).2.1 = F.hash.digestBlock ((F.hash.hmac key)^[j + 1] x) ∧
      F.xtract ((F.pbkdf2Step startctx)^[j] s).2.2 = pbkdf2Block (F.hash.hmac key) x (j + 1) := by
  induction j with
  | zero => exact ⟨hs, hresult⟩
  | succ j ih =>
    have hnext : (F.hash.hmac key)^[j + 2] x = F.hash.hmac key ((F.hash.hmac key)^[j + 1] x) :=
      Function.iterate_succ_apply' _ _ _
    have hlen : ((F.hash.hmac key)^[j + 1] x).length = F.hash.digestSize := by
      rw [Function.iterate_succ_apply', BlockHash.length_hmac]
    obtain ⟨hublock, hxor⟩ := pbkdf2Step_eq h hlen ih.1
    rw [Function.iterate_succ_apply', hublock, hxor, ih.2, pbkdf2Block, hnext]
    exact ⟨rfl, rfl⟩

/-- **One block** of the output. -/
theorem pbkdf2F_eq {startctx : HmacCtx κ} {key : Bytes} (h : F.HmacReads key startctx [])
    {salt : Bytes} (hsalt : F.hash.blockSize + salt.length + 4 < 2 ^ 29) (counter : ℕ)
    {iterations : ℕ} (hiterations : 1 ≤ iterations) :
    F.pbkdf2F startctx counter salt iterations =
      pbkdf2Block (F.hash.hmac key) (salt ++ put4byte counter) iterations := by
  obtain ⟨k, rfl⟩ := Nat.exists_eq_add_of_le' hiterations
  obtain ⟨hfirst, hresult⟩ := ((h.update (d := salt) (by
    rw [List.nil_append]
    omega)).update (d := put4byte counter) (by
    rw [List.nil_append, List.length_append, length_put4byte]
    omega)).final
  rw [List.nil_append] at hfirst hresult
  rw [pbkdf2F]
  simp only [hfirst, Nat.add_sub_cancel]
  rw [splice_mdPad (BlockHash.length_hmac _ _)]
  exact (pbkdf2Loop_eq h rfl hresult k).2

/-- What `PBKDF2(_name)` writes into the output buffer, whatever was in it. -/
theorem fastPbkdf2_splice {ctx : HmacCtx κ} (hinner : F.Usable ctx.inner)
    (houter : F.Usable ctx.outer) {pw salt : Bytes} (hpw : pw.length < 2 ^ 29)
    (hsalt : F.hash.blockSize + salt.length + 4 < 2 ^ 29) {iterations : ℕ}
    (hiterations : 1 ≤ iterations) {out : Bytes} {nout : ℕ} (hout : nout ≤ out.length)
    (hnout : nout + F.hash.digestSize ≤ 2 ^ 32) (hpos : 0 < F.hash.digestSize) :
    F.fastPbkdf2 ctx pw salt iterations out nout =
      splice out 0 (pbkdf2 (F.hash.hmac pw) F.hash.digestSize salt iterations nout) := by
  have hstart := HmacReads.init hinner houter hpw
  obtain ⟨k, hk⟩ := Nat.exists_eq_add_of_le' hiterations
  have hlen : ∀ i, (pbkdf2Block (F.hash.hmac pw) (salt ++ put4byte (i + 1)) iterations).length =
      F.hash.digestSize := fun i => by
    rw [hk]
    exact length_pbkdf2Block (BlockHash.length_hmac pw) _ k
  have hblocks : nout ≤ (nout + F.hash.digestSize - 1) / F.hash.digestSize * F.hash.digestSize := by
    have hdiv := Nat.div_add_mod (nout + F.hash.digestSize - 1) F.hash.digestSize
    have hmod := Nat.mod_lt (nout + F.hash.digestSize - 1) hpos
    rw [Nat.mul_comm]
    omega
  rw [fastPbkdf2, pbkdf2, Nat.mod_eq_of_lt (show nout + F.hash.digestSize - 1 < 2 ^ 32 by omega),
    ← take_flatMap_range hlen hpos hblocks, ← foldl_splice_blocks hlen hout]
  simp only [pbkdf2F_eq hstart hsalt _ hiterations]

end HashContext

/-! ### The three hash functions -/

/-- `sha1_extract` and `sha1_xor`. -/
def sha1Extract (ctx : Sha1Ctx) : Bytes := ctx.h.toList.flatMap store32be
def sha1Xor (out ctx : Sha1Ctx) : Sha1Ctx :=
  { out with h := Vector.zipWith (· ^^^ ·) out.h ctx.h }

/-- `sha256_extract` and `sha512_extract`. -/
def Sha2.extract {n : ℕ} (ctx : Sha2Ctx n) : Bytes := ctx.h.toList.flatMap unpack

/-- `sha256_xor` and `sha512_xor`. -/
def Sha2.xor {n : ℕ} (out ctx : Sha2Ctx n) : Sha2Ctx n :=
  { out with h := Vector.zipWith (· ^^^ ·) out.h ctx.h }

theorem sha1Extract_xor (out ctx : Sha1Ctx) :
    sha1Extract (sha1Xor out ctx) = xorBytes (sha1Extract out) (sha1Extract ctx) := by
  rw [sha1Extract, sha1Xor, Vector.toList_zipWith]
  exact flatMap_zipWith_xor length_store32be store32be_xor _ _

theorem Sha2.unpack_xor {n : ℕ} (x y : BitVec (8 * n)) :
    unpack (x ^^^ y) = xorBytes (unpack x) (unpack y) := by
  rw [xorBytes, unpack, unpack, unpack, List.zipWith_map, List.zipWith_self]
  refine List.map_congr_left fun i _ => ?_
  rw [BitVec.ushiftRight_xor_distrib, BitVec.setWidth_xor]
  rfl

theorem Sha2.extract_xor {n : ℕ} (out ctx : Sha2Ctx n) :
    extract (xor out ctx) = xorBytes (extract out) (extract ctx) := by
  rw [extract, xor, Vector.toList_zipWith]
  exact flatMap_zipWith_xor length_unpack unpack_xor _ _

section Instances

theorem sha1_encodeLength {m : ℕ} (h : m < 2 ^ 29) :
    sha1Hash.encodeLength m = zeros (sha1Hash.lengthSize - 4) ++ put4byte (8 * m) := by
  rw [← beBytes_four]
  exact beBytes_of_lt (by omega) 4

theorem sha1_reads_update (little : Bool) {c : Sha1Ctx} {m : Bytes} (h : c.Reads m)
    {d : Bytes} (hd : (m ++ d).length < 2 ^ 29) : (sha1Update little c d).Reads (m ++ d) :=
  h.update little (by rw [List.length_append] at hd; omega)

theorem sha1_usable_final (little : Bool) {c : Sha1Ctx} :
    (sha1Final little c).2.buffer.length = 64 := length_zeros 64

theorem sha1_state_of_dvd {c : Sha1Ctx} {m : Bytes} (h : c.Reads m)
    (hm : sha1Hash.blockSize ∣ m.length) : c.h = sha1Hash.absorb sha1Hash.start m :=
  h.buffered.state_of_dvd hm

theorem sha1_four_le : 4 ≤ sha1Hash.lengthSize := by decide

theorem sha1_blockSize_le : sha1Hash.blockSize ≤ 128 := by decide

/-- The arguments for SHA-1. -/
def sha1Context (little : Bool) : HashContext Sha1Ctx (Vector UInt32 5) where
  hash := sha1Hash
  init := sha1Init
  update := sha1Update little
  xform c b := { c with h := sha1Transform little c.h b }
  final := sha1Final little
  xcpy out c := { out with h := c.h }
  xtract := sha1Extract
  xxor := sha1Xor
  state := Sha1Ctx.h
  Usable c := c.buffer.length = 64
  Reads := Sha1Ctx.Reads
  reads_init := Sha1Ctx.Reads.init
  reads_update := sha1_reads_update little
  usable_final _ := sha1_usable_final little
  final_eq h := h.final little
  state_of_dvd := sha1_state_of_dvd
  state_xform _ := sha1Transform_eq little _ _
  state_xcpy _ _ := rfl
  xtract_eq _ := rfl
  xtract_xxor := sha1Extract_xor
  four_le := sha1_four_le
  encodeLength_eq := sha1_encodeLength
  blockSize_le := sha1_blockSize_le

variable {n : ℕ} {P : Sha2 n}

theorem Sha2.xtract_eq (hwords : P.digestWords = 8) (c : Sha2Ctx n) :
    extract c = P.digest c.h := by
  rw [extract, digest, hwords, List.take_of_length_le (by rw [Vector.length_toList])]

theorem Sha2.final_extract (hwords : P.digestWords = 8) {c : Sha2Ctx n} {m : Bytes}
    (h : P.Reads c m) :
    (P.final c).1 = P.blockHash.hash m ∧ extract (P.final c).2 = P.blockHash.hash m := by
  rw [xtract_eq hwords]
  exact h.final

theorem Sha2.state_of_dvd {c : Sha2Ctx n} {m : Bytes} (h : P.Reads c m)
    (hm : P.blockHash.blockSize ∣ m.length) : c.h = P.blockHash.absorb P.blockHash.start m :=
  h.buffered.state_of_dvd hm

theorem Sha2.transf_one (h : Vector (BitVec (8 * n)) 8) {b : Bytes} (hb : b.length = 16 * n) :
    P.transf h b 1 = P.compress h b := by
  have htransf := transf_eq (P := P) h (m := b) (q := 1) (by rw [hb, Nat.mul_one])
  rw [htransf, Nat.mul_one, List.take_of_length_le (Nat.le_of_eq hb)]
  exact BlockHash.absorb_one (H := P.blockHash) hb h

theorem Sha2.four_le (P : Sha2 n) : 4 ≤ P.blockHash.lengthSize :=
  Nat.mul_le_mul_left 2 P.two_le

theorem Sha2.encodeLength_eq (P : Sha2 n) {m : ℕ} (h : m < 2 ^ 29) :
    P.blockHash.encodeLength m =
      zeros (P.blockHash.lengthSize - 4) ++ put4byte (8 * m) := by
  have hfour := P.four_le
  rw [← beBytes_four, ← beBytes_of_lt (by omega)]
  exact congrArg (beBytes · (8 * m)) (show 2 * n = 4 + (2 * n - 4) from
    (Nat.add_sub_cancel' hfour).symm)

theorem Sha2.blockSize_le (hn : n ≤ 8) : P.blockHash.blockSize ≤ 128 := Nat.mul_le_mul_left 16 hn

/-- The arguments for SHA-256 and SHA-512. -/
def sha2Context (P : Sha2 n) (hn : n ≤ 8) (hwords : P.digestWords = 8) :
    HashContext (Sha2Ctx n) (Vector (BitVec (8 * n)) 8) where
  hash := P.blockHash
  init := P.init
  update := P.update
  xform c b := { c with h := P.transf c.h b 1 }
  final := P.final
  xcpy out c := { out with h := c.h }
  xtract := Sha2.extract
  xxor := Sha2.xor
  state := Sha2Ctx.h
  Usable c := c.block.length = 2 * P.blockSize
  Reads := P.Reads
  reads_init := Sha2.Reads.init
  reads_update := Sha2.Reads.update
  usable_final := Sha2.Reads.length_block_final
  final_eq := Sha2.final_extract hwords
  state_of_dvd := Sha2.state_of_dvd
  state_xform := Sha2.transf_one _
  state_xcpy _ _ := rfl
  xtract_eq := Sha2.xtract_eq hwords
  xtract_xxor := Sha2.extract_xor
  four_le := P.four_le
  encodeLength_eq := P.encodeLength_eq
  blockSize_le := Sha2.blockSize_le hn

end Instances

theorem sha256_words_le : 4 ≤ 8 := by decide

theorem sha512_words_le : 8 ≤ 8 := Nat.le_refl 8

theorem sha256_digestWords : sha256Params.digestWords = 8 := rfl

theorem sha512_digestWords : sha512Params.digestWords = 8 := rfl

def sha256Context : HashContext (Sha2Ctx 4) (Vector (BitVec 32) 8) :=
  sha2Context sha256Params sha256_words_le sha256_digestWords

def sha512Context : HashContext (Sha2Ctx 8) (Vector (BitVec 64) 8) :=
  sha2Context sha512Params sha512_words_le sha512_digestWords

/-- A context on the stack. -/
def freshSha1Ctx : Sha1Ctx := ⟨Vector.replicate 5 0, 0, 0, zeros 64⟩

theorem usable_freshSha1Ctx (little : Bool) : (sha1Context little).Usable freshSha1Ctx :=
  length_zeros 64

theorem usable_sha256 : sha256Context.Usable (freshSha2Ctx 4) := length_zeros 128

theorem usable_sha512 : sha512Context.Usable (freshSha2Ctx 8) := length_zeros 256

/-! ### The functions of `fastpbkdf2.c` -/

/-- `fastpbkdf2_hmac_sha1`, `fastpbkdf2_hmac_sha256` and `fastpbkdf2_hmac_sha512`. -/
def fastpbkdf2HmacSha1 (little : Bool) : Bytes → Bytes → ℕ → Bytes → ℕ → Bytes :=
  (sha1Context little).fastPbkdf2 ⟨freshSha1Ctx, freshSha1Ctx⟩
def fastpbkdf2HmacSha256 : Bytes → Bytes → ℕ → Bytes → ℕ → Bytes :=
  sha256Context.fastPbkdf2 ⟨freshSha2Ctx 4, freshSha2Ctx 4⟩
def fastpbkdf2HmacSha512 : Bytes → Bytes → ℕ → Bytes → ℕ → Bytes :=
  sha512Context.fastPbkdf2 ⟨freshSha2Ctx 8, freshSha2Ctx 8⟩

/-- The function for an algorithm. -/
def fastpbkdf2Hmac (little : Bool) : HashAlgorithm → Bytes → Bytes → ℕ → Bytes → ℕ → Bytes
  | .sha1 => fastpbkdf2HmacSha1 little
  | .sha256 => fastpbkdf2HmacSha256
  | .sha512 => fastpbkdf2HmacSha512

/-- A case of `sqlcipher_hmac`. -/
def HashContext.hmacTwo {κ σ : Type*} (F : HashContext κ σ) (hctx : HmacCtx κ) (key input : Bytes)
    (in2 : Option Bytes) : Bytes :=
  let hctx := F.hmacInit hctx key
  let hctx := F.hmacUpdate hctx input
  let hctx := (in2.map (F.hmacUpdate hctx)).getD hctx
  (F.hmacFinal hctx).1

/-- `sqlcipher_hmac`. -/
def sqlcipherHmac (little : Bool) (algorithm : ℤ) (key input : Bytes) (in2 : Option Bytes) :
    Bytes :=
  if algorithm = 0 then
    (sha1Context little).hmacTwo ⟨freshSha1Ctx, freshSha1Ctx⟩ key input in2
  else if algorithm = 1 then sha256Context.hmacTwo ⟨freshSha2Ctx 4, freshSha2Ctx 4⟩ key input in2
  else sha512Context.hmacTwo ⟨freshSha2Ctx 8, freshSha2Ctx 8⟩ key input in2

/-- HMAC with the hash functions of the standard. -/
def HashAlgorithm.hmac : HashAlgorithm → Bytes → Bytes → Bytes
  | .sha1 => sha1Hash.hmac
  | .sha256 => sha256Params.blockHash.hmac
  | .sha512 => sha512Params.blockHash.hmac

theorem HashAlgorithm.length_hmac (a : HashAlgorithm) (key m : Bytes) :
    (a.hmac key m).length = a.size := by
  cases a with
  | sha1 | sha256 | sha512 => exact BlockHash.length_hmac _ _

theorem HashContext.hmacTwo_eq {κ σ : Type*} {F : HashContext κ σ} {hctx : HmacCtx κ}
    (hinner : F.Usable hctx.inner) (houter : F.Usable hctx.outer) {key input : Bytes}
    {in2 : Option Bytes} (hkey : key.length < 2 ^ 29)
    (hinput : 128 + (input ++ in2.getD []).length < 2 ^ 29) :
    F.hmacTwo hctx key input in2 = F.hash.hmac key (input ++ in2.getD []) := by
  have hle := F.blockSize_le
  have hinput' := hinput
  rw [List.length_append] at hinput'
  have hfirst := (HmacReads.init hinner houter hkey).update (d := input)
    (by rw [List.nil_append]; omega)
  rw [List.nil_append] at hfirst
  rw [hmacTwo]
  cases in2 with
  | none =>
    rw [Option.getD_none, List.append_nil]
    exact hfirst.final.1
  | some d =>
    rw [Option.getD_some] at hinput ⊢
    exact (hfirst.update (by omega)).final.1

/-- **HMAC.** The code computes HMAC with the hash function for the algorithm number, of its two
inputs one behind the other, or of the first when there is no second. -/
theorem sqlcipherHmac_eq (little : Bool) (algorithm : ℤ) {key input : Bytes} {in2 : Option Bytes}
    (hkey : key.length < 2 ^ 29) (hinput : 128 + (input ++ in2.getD []).length < 2 ^ 29) :
    sqlcipherHmac little algorithm key input in2 =
      (HashAlgorithm.ofInt algorithm).hmac key (input ++ in2.getD []) := by
  rw [sqlcipherHmac, HashAlgorithm.ofInt]
  split
  · exact HashContext.hmacTwo_eq (usable_freshSha1Ctx little) (usable_freshSha1Ctx little) hkey
      hinput
  · split
    · exact HashContext.hmacTwo_eq usable_sha256 usable_sha256 hkey hinput
    · exact HashContext.hmacTwo_eq usable_sha512 usable_sha512 hkey hinput

/-- HMAC with SHA-256 of two strings of one byte each. -/
theorem sqlcipherHmac_two_bytes :
    sqlcipherHmac true 1 [1] [2] (some [3]) =
      (HashAlgorithm.ofInt 1).hmac [1] ([2] ++ (some [3]).getD []) :=
  sqlcipherHmac_eq true 1 (by decide) (by decide)

/-- **PBKDF2.** For every algorithm, every number of iterations from one on and every length, the
output is the beginning of the blocks of PBKDF2 with HMAC, and the rest of the buffer is as it
was. -/
theorem fastpbkdf2Hmac_eq (little : Bool) (a : HashAlgorithm) {pw salt : Bytes}
    (hpw : pw.length < 2 ^ 29) (hsalt : 128 + salt.length + 4 < 2 ^ 29) {iterations : ℕ}
    (hiterations : 1 ≤ iterations) {out : Bytes} {nout : ℕ} (hout : nout ≤ out.length)
    (hnout : nout + 64 ≤ 2 ^ 32) :
    fastpbkdf2Hmac little a pw salt iterations out nout =
      splice out 0 (pbkdf2 (a.hmac pw) a.size salt iterations nout) := by
  have hkey : ∀ {κ σ : Type} {F : HashContext κ σ}, F.hash.blockSize + salt.length + 4 < 2 ^ 29 :=
    fun {_ _ F} => by
      have hle := F.blockSize_le
      omega
  cases a with
  | sha1 =>
    exact HashContext.fastPbkdf2_splice (usable_freshSha1Ctx little) (usable_freshSha1Ctx little)
      hpw hkey hiterations hout (show nout + 20 ≤ 2 ^ 32 by omega) (show 0 < 20 by decide)
  | sha256 =>
    exact HashContext.fastPbkdf2_splice usable_sha256 usable_sha256 hpw hkey hiterations hout
      (show nout + 32 ≤ 2 ^ 32 by omega) (show 0 < 32 by decide)
  | sha512 =>
    exact HashContext.fastPbkdf2_splice usable_sha512 usable_sha512 hpw hkey hiterations hout
      (show nout + 64 ≤ 2 ^ 32 by omega) (show 0 < 64 by decide)

/-- Forty bytes, which take two blocks of SHA-256, from two iterations. -/
theorem fastpbkdf2Hmac_forty :
    fastpbkdf2Hmac true .sha256 [1] [2] 2 (zeros 48) 40 =
      splice (zeros 48) 0 (pbkdf2 (HashAlgorithm.sha256.hmac [1])
        HashAlgorithm.sha256.size [2] 2 40) :=
  fastpbkdf2Hmac_eq true .sha256 (by decide) (by decide) (by decide) (by decide) (by decide)

end MultipleCiphers
