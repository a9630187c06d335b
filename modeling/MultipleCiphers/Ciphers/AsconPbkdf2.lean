import MultipleCiphers.Lib.Sponge
import MultipleCiphers.Primitives

/-!
# The key derivation of Ascon128

`ascon_pbkdf2` is the only key derivation this repository writes itself. It follows PBKDF2 with
an Ascon hash, personalised with the password, in the place of the HMAC: the password is taken in
once, and the state it leaves is copied for every call of the pseudo-random function.

The code below works as the C functions do, on a buffer and an offset into it: the first value of
a block is squeezed straight into the output, the later ones are absorbed from and squeezed into
one buffer `U` and combined into the output, and a last partial block goes through a buffer of its
own. The permutation `ASCON_P` is a parameter: any function of a number of rounds and a state.

The description to compare it with is `pbkdf2` of `Lib/Sponge.lean`, for the function `asconPrf`.

## Main results

* `asconAbsorb_eq`, `asconSqueeze_eq` — the two loops of the hash are those of a sponge.
* `asconPbkdf2Init_eq` — the state of the password is that of an XOF customised with it.
* `asconPbkdf2F_eq` — one block of the output, written in place.
* `asconPbkdf2_eq` — every password, salt, count and output length.
-/

namespace MultipleCiphers

/-- `ascon_state_t`. -/
structure AsconState where
  x0 : UInt64
  x1 : UInt64
  x2 : UInt64
  x3 : UInt64
  x4 : UInt64
  deriving DecidableEq, Repr

/-! ### Words and bytes -/

/-- Bytes placed into a word, the first of them `i` places from the top. -/
def asconLoadFrom : ℕ → Bytes → UInt64
  | _, [] => 0
  | i, b :: bs => b.toUInt64 <<< UInt64.ofNat (56 - 8 * i) ^^^ asconLoadFrom (i + 1) bs

/-- `ASCON_LOADBYTES`: the first `n` bytes, from the top of the word down. -/
def asconLoadBytes (bytes : Bytes) (n : ℕ) : UInt64 := asconLoadFrom 0 (bytes.take n)

/-- `ASCON_STOREBYTES`: the top `n` bytes of the word. -/
def asconStoreBytes (w : UInt64) (n : ℕ) : Bytes :=
  ((List.range 8).map fun i => (w >>> UInt64.ofNat (56 - 8 * i)).toUInt8).take n

/-- `ASCON_PAD`. -/
def asconPad (i : ℕ) : UInt64 := (0x80 : UInt64) <<< UInt64.ofNat (56 - 8 * i)

@[simp] theorem length_asconStoreBytes (w : UInt64) (n : ℕ) :
    (asconStoreBytes w n).length = min n 8 := by
  simp [asconStoreBytes]

theorem asconLoadFrom_append (i : ℕ) (a b : Bytes) :
    asconLoadFrom i (a ++ b) = asconLoadFrom i a ^^^ asconLoadFrom (i + a.length) b := by
  induction a generalizing i with
  | nil => simp [asconLoadFrom]
  | cons x a ih =>
    rw [List.cons_append, asconLoadFrom, asconLoadFrom, ih, UInt64.xor_assoc, List.length_cons,
      Nat.add_right_comm, Nat.add_assoc]

theorem asconLoadFrom_zeros (i n : ℕ) : asconLoadFrom i (Bytes.zeros n) = 0 := by
  induction n generalizing i with
  | zero => rfl
  | succ n ih =>
    rw [Bytes.zeros, List.replicate_succ, asconLoadFrom, ← Bytes.zeros, ih]
    simp

/-- A message shorter than a word, padded, is its bytes and the padding bit. -/
theorem asconLoadFrom_pad (m : Bytes) (n : ℕ) :
    asconLoadFrom 0 (m ++ 0x80 :: Bytes.zeros n) = asconLoadFrom 0 m ^^^ asconPad m.length := by
  rw [asconLoadFrom_append, asconLoadFrom, asconLoadFrom_zeros, asconPad, Nat.zero_add]
  simp

/-! ### The hash -/

section Hash

variable (asconP : ℕ → AsconState → AsconState)

/-- `ascon_absorb`. -/
def asconAbsorb (s : AsconState) (input : Bytes) : AsconState :=
  if 8 ≤ input.length then
    asconAbsorb (asconP 12 { s with x0 := s.x0 ^^^ asconLoadBytes input 8 }) (input.drop 8)
  else
    { s with x0 := s.x0 ^^^ asconLoadBytes input input.length ^^^ asconPad input.length }
  termination_by input.length

/-- The loop of `ascon_squeeze`, from offset `off` of the output on. -/
def asconSqueezeLoop (s : AsconState) (out : Bytes) (off outlen : ℕ) : AsconState × Bytes :=
  if 8 < outlen then
    asconSqueezeLoop (asconP 12 s) (Bytes.splice out off (asconStoreBytes s.x0 8)) (off + 8)
      (outlen - 8)
  else
    (s, Bytes.splice out off (asconStoreBytes s.x0 outlen))
  termination_by outlen

/-- `ascon_squeeze`. -/
def asconSqueeze (s : AsconState) (out : Bytes) (off outlen : ℕ) : AsconState × Bytes :=
  asconSqueezeLoop asconP (asconP 12 s) out off outlen

/-- `ascon_inithash`. -/
def asconInithash : AsconState where
  x0 := 0xee9398aadb67f03d
  x1 := 0x8bb21831c60f1002
  x2 := 0xb48a92db98d5da62
  x3 := 0x43189921b8f8e3e8
  x4 := 0x348fa5c9d525e140

/-- `ascon_hash`. -/
def asconHash (input : Bytes) : Bytes :=
  (asconSqueeze asconP (asconAbsorb asconP asconInithash input) (Bytes.zeros 32) 0 32).2

/-- The sponge the hash functions work on: blocks of eight bytes, in the first word. -/
def asconSponge : Sponge AsconState where
  rate := 8
  permute := asconP 12
  inject := fun s b => { s with x0 := s.x0 ^^^ asconLoadBytes b 8 }
  extract := fun s => asconStoreBytes s.x0 8
  rate_pos := by decide
  length_extract := fun _ => by simp

variable {asconP}

@[simp] theorem asconSponge_rate : (asconSponge asconP).rate = 8 := rfl

@[simp] theorem asconSponge_permute : (asconSponge asconP).permute = asconP 12 := rfl

@[simp] theorem asconSponge_inject (s : AsconState) (b : Bytes) :
    (asconSponge asconP).inject s b = { s with x0 := s.x0 ^^^ asconLoadBytes b 8 } := rfl

@[simp] theorem asconSponge_extract (s : AsconState) :
    (asconSponge asconP).extract s = asconStoreBytes s.x0 8 := rfl

/-- The loop over a message and its last, partial block are the absorption of a sponge. -/
theorem asconAbsorb_eq (s : AsconState) (input : Bytes) :
    asconAbsorb asconP s input = (asconSponge asconP).absorb s input := by
  fun_induction asconAbsorb asconP s input with
  | case1 s input h ih =>
    have hb : (input.take 8).length = (asconSponge asconP).rate := by
      rw [List.length_take, Nat.min_eq_left h, asconSponge_rate]
    have htake : asconLoadBytes (input.take 8) 8 = asconLoadBytes input 8 := by
      rw [asconLoadBytes, asconLoadBytes, List.take_take, Nat.min_self]
    rw [ih]
    conv_rhs => rw [← List.take_append_drop 8 input, Sponge.absorb_block _ hb]
    rw [asconSponge_inject, asconSponge_permute, htake]
  | case2 s input h =>
    have hpad : (asconSponge asconP).pad input =
        input ++ 0x80 :: Bytes.zeros (7 - input.length % 8) := rfl
    have hlen : ((asconSponge asconP).pad input).length = 8 := by
      rw [hpad, List.length_append, List.length_cons, Bytes.length_zeros]
      omega
    rw [Sponge.absorb_short _ (by rw [asconSponge_rate]; omega), asconSponge_inject,
      asconLoadBytes, asconLoadBytes, List.take_length, List.take_of_length_le (by omega), hpad,
      asconLoadFrom_pad, UInt64.xor_assoc]

/-- The loop over the output writes what the sponge gives out, and nothing else. -/
theorem asconSqueezeLoop_eq (s : AsconState) {out : Bytes} {off outlen : ℕ}
    (h : off + outlen ≤ out.length) :
    (asconSqueezeLoop asconP s out off outlen).2 =
      Bytes.splice out off ((asconSponge asconP).squeeze s outlen) := by
  fun_induction asconSqueezeLoop asconP s out off outlen with
  | case1 s out off outlen hlt ih =>
    have hstore : (asconStoreBytes s.x0 8).length = 8 := by simp
    have hadd : (asconSponge asconP).squeeze s outlen = asconStoreBytes s.x0 8 ++
        (asconSponge asconP).squeeze (asconP 12 s) (outlen - 8) := by
      have hsplit : outlen = (asconSponge asconP).rate + (outlen - 8) := by
        rw [asconSponge_rate]
        omega
      rw [hsplit, Sponge.squeeze_add, asconSponge_extract, asconSponge_permute, ← hsplit]
    rw [ih (by rw [Bytes.length_splice (by omega)]; omega), hadd,
      ← Bytes.splice_splice_next (by rw [hstore, Sponge.length_squeeze]; omega), hstore]
  | case2 s out off outlen hle =>
    rw [Sponge.squeeze_of_le _ _ (by rw [asconSponge_rate]; omega), asconSponge_extract,
      asconStoreBytes, asconStoreBytes, List.take_take, Nat.min_eq_left (by omega)]

theorem asconSqueeze_eq (s : AsconState) {out : Bytes} {off outlen : ℕ}
    (h : off + outlen ≤ out.length) :
    (asconSqueeze asconP s out off outlen).2 =
      Bytes.splice out off ((asconSponge asconP).squeeze (asconP 12 s) outlen) :=
  asconSqueezeLoop_eq (asconP 12 s) h

end Hash

/-! ### The derivation -/

section Derivation

variable (asconP : ℕ → AsconState → AsconState)

/-- The bytes of the function name the derivation is personalised with, `"PBKDF2"`. -/
def asconPbkdf2Name : Bytes := [0x50, 0x42, 0x4b, 0x44, 0x46, 0x32]

/-- The first block of the initial state: a function name up to the digest size is filled up with
zeros, a longer one is hashed. -/
def asconPbkdf2Initial (functionName : Bytes) : Bytes :=
  if functionName.length = 0 then Bytes.zeros 32
  else if functionName.length ≤ 32 then
    functionName ++ Bytes.zeros (32 - functionName.length)
  else asconHash asconP functionName

/-- `ascon_pbkdf2_init`. -/
def asconPbkdf2Init (functionName custom : Bytes) : AsconState :=
  let initial := asconPbkdf2Initial asconP functionName
  let state := asconP 12
    { x0 := 0x00400c0000000100
      x1 := asconLoadBytes initial 8
      x2 := asconLoadBytes (initial.drop 8) 8
      x3 := asconLoadBytes (initial.drop 16) 8
      x4 := asconLoadBytes (initial.drop 24) 8 }
  if 0 < custom.length then
    let state := asconP 12 (asconAbsorb asconP state custom)
    -- domain separation
    { state with x4 := state.x4 ^^^ 1 }
  else state

/-- `temp`: the salt, filled up with zeros or cut to 16 bytes, and the block number. -/
def asconSaltBlock (salt : Bytes) (blocknum : ℕ) : Bytes :=
  Bytes.splice (Bytes.zeros 16) 0 (salt.take (min salt.length 16)) ++ Bytes.put4byte blocknum

/-- The `while` loop of `ascon_pbkdf2_f`, `n` more rounds: `U` is absorbed into a copy of the
state, squeezed again into its own place, and combined into the output at `off`. -/
def asconPbkdf2Loop (state : AsconState) (off : ℕ) : ℕ → Bytes → Bytes → Bytes
  | 0, out, _ => out
  | n + 1, out, u =>
    let u := (asconSqueeze asconP (asconAbsorb asconP state u) u 0 32).2
    asconPbkdf2Loop state off n (Bytes.splice out off (Bytes.xorBytes (Bytes.slice out off 32) u)) u

/-- `ascon_pbkdf2_f`: one block of 32 bytes, written to `out` at `off`. -/
def asconPbkdf2F (state : AsconState) (out : Bytes) (off : ℕ) (salt : Bytes) (count : ℕ)
    (blocknum : UInt32) : Bytes :=
  let temp := asconSaltBlock salt blocknum.toNat
  let out := (asconSqueeze asconP (asconAbsorb asconP state temp) out off 32).2
  if 1 < count then
    asconPbkdf2Loop asconP state off (count - 1) out (Bytes.slice out off 32)
  else out

/-- The `while` loop of `ascon_pbkdf2`, with `outlen` bytes to go. -/
def asconPbkdf2Blocks (state : AsconState) (salt : Bytes) (count : ℕ) (out : Bytes)
    (off outlen : ℕ) (blocknum : UInt32) : Bytes :=
  if 0 < outlen then
    if 32 ≤ outlen then
      asconPbkdf2Blocks state salt count (asconPbkdf2F asconP state out off salt count blocknum)
        (off + 32) (outlen - 32) (blocknum + 1)
    else
      let t := asconPbkdf2F asconP state (Bytes.zeros 32) 0 salt count blocknum
      Bytes.splice out off (t.take outlen)
  else out
  termination_by outlen

/-- `ascon_pbkdf2`: `outlen` bytes are written to `out` at `off`. -/
def asconPbkdf2 (out : Bytes) (off : ℕ) (outlen : UInt32) (password salt : Bytes)
    (count : UInt32) : Bytes :=
  asconPbkdf2Blocks asconP (asconPbkdf2Init asconP asconPbkdf2Name password) salt count.toNat out
    off outlen.toNat 1

/-- The Ascon XOF with 256 bits of output and the function name `PBKDF2`, customised with a string:
the state after the name, and after the string if there is one. -/
def asconCustomised (custom : Bytes) : AsconState :=
  let named := asconP 12 ⟨0x00400c0000000100, 0x50424b4446320000, 0, 0, 0⟩
  if custom = [] then named
  else
    let customised := asconP 12 ((asconSponge asconP).absorb named custom)
    { customised with x4 := customised.x4 ^^^ 1 }

/-- The pseudo-random function of the derivation for a password: the message goes through the XOF
that is customised with the password, and 32 bytes are squeezed. -/
def asconPrf (password message : Bytes) : Bytes :=
  (asconSponge asconP).squeeze
    (asconP 12 ((asconSponge asconP).absorb (asconCustomised asconP password) message)) 32

/-- A salt at its fixed length of 16 bytes: a longer one is cut, a shorter one filled up. -/
def asconSalt (salt : Bytes) : Bytes := salt.take 16 ++ Bytes.zeros (16 - salt.length)

variable {asconP}

theorem length_asconPrf (password message : Bytes) :
    (asconPrf asconP password message).length = 32 :=
  Sponge.length_squeeze _ _ _

theorem asconSaltBlock_eq (salt : Bytes) (blocknum : ℕ) :
    asconSaltBlock salt blocknum = asconSalt salt ++ Bytes.put4byte blocknum := by
  have hdrop (n : ℕ) : (Bytes.zeros 16).drop n = Bytes.zeros (16 - n) := List.drop_replicate
  rw [asconSaltBlock, asconSalt, Bytes.splice, List.length_take, hdrop]
  simp only [List.take_zero, List.nil_append, Nat.zero_add]
  rcases Nat.le_total salt.length 16 with h | h
  · rw [Nat.min_eq_left h, Nat.min_self, List.take_length, List.take_of_length_le h]
  · rw [Nat.min_eq_right h, Nat.min_eq_left h, Nat.sub_self, Nat.sub_eq_zero_of_le h]

/-- The state the derivation starts with is that of the XOF customised with the password. -/
theorem asconPbkdf2Init_eq (custom : Bytes) :
    asconPbkdf2Init asconP asconPbkdf2Name custom = asconCustomised asconP custom := by
  have hinitial : asconPbkdf2Initial asconP asconPbkdf2Name =
      asconPbkdf2Name ++ Bytes.zeros 26 := rfl
  have hname : asconLoadBytes (asconPbkdf2Name ++ Bytes.zeros 26) 8 = 0x50424b4446320000 := by
    decide
  have hrest (n : ℕ) (hn : 6 ≤ n) :
      asconLoadBytes ((asconPbkdf2Name ++ Bytes.zeros 26).drop n) 8 = 0 := by
    rw [List.drop_append, List.drop_of_length_le hn, List.nil_append, asconLoadBytes, Bytes.zeros,
      List.drop_replicate, List.take_replicate]
    exact asconLoadFrom_zeros 0 _
  rw [asconPbkdf2Init, asconCustomised, hinitial, hname, hrest 8 (by decide),
    hrest 16 (by decide), hrest 24 (by decide)]
  cases custom with
  | nil => rfl
  | cons b custom => simp only [List.length_cons, Nat.zero_lt_succ, if_true, asconAbsorb_eq,
      reduceCtorEq, if_false]

/-- Absorbing a message of a block and squeezing to any place is the pseudo-random function. -/
theorem asconSqueeze_prf (password message : Bytes) {out : Bytes} {off : ℕ}
    (h : off + 32 ≤ out.length) :
    (asconSqueeze asconP (asconAbsorb asconP
      (asconPbkdf2Init asconP asconPbkdf2Name password) message) out off 32).2 =
      Bytes.splice out off (asconPrf asconP password message) := by
  rw [asconSqueeze_eq _ h, asconAbsorb_eq, asconPrf, asconPbkdf2Init_eq]

/-- After `k` values of the function have been combined into the output, `n` more rounds combine
the next `n`. -/
theorem asconPbkdf2Loop_eq (password x : Bytes) {out : Bytes} {off : ℕ}
    (h : off + 32 ≤ out.length) (n k : ℕ) :
    asconPbkdf2Loop asconP (asconPbkdf2Init asconP asconPbkdf2Name password) off n
        (Bytes.splice out off (pbkdf2Block (asconPrf asconP password) x (k + 1)))
        ((asconPrf asconP password)^[k + 1] x) =
      Bytes.splice out off (pbkdf2Block (asconPrf asconP password) x (k + 1 + n)) := by
  induction n generalizing k with
  | zero => rfl
  | succ n ih =>
    have hblock := length_pbkdf2Block (@length_asconPrf asconP password) x k
    have hu : ((asconPrf asconP password)^[k + 1] x).length = 32 := by
      rw [Function.iterate_succ_apply', length_asconPrf]
    have hnext : (asconSqueeze asconP (asconAbsorb asconP
        (asconPbkdf2Init asconP asconPbkdf2Name password) ((asconPrf asconP password)^[k + 1] x))
        ((asconPrf asconP password)^[k + 1] x) 0 32).2 = (asconPrf asconP password)^[k + 2] x := by
      rw [asconSqueeze_prf password _ (by omega), Function.iterate_succ_apply' _ (k + 1),
        Bytes.splice, length_asconPrf, Nat.zero_add, List.drop_of_length_le hu.le]
      simp
    have hslice : Bytes.slice (Bytes.splice out off
        (pbkdf2Block (asconPrf asconP password) x (k + 1))) off 32 =
        pbkdf2Block (asconPrf asconP password) x (k + 1) := by
      rw [← hblock]
      exact Bytes.slice_splice_self (by omega)
    rw [asconPbkdf2Loop, hnext, hslice, Bytes.splice_splice_same (by omega)]
    · rw [show k + 1 + (n + 1) = k + 1 + 1 + n by omega]
      exact ih (k + 1)
    · rw [Bytes.length_xorBytes, hblock, Function.iterate_succ_apply', length_asconPrf,
        Nat.min_self]

/-- One block is written in place: the combined values of the function, from the salt and the
block number on. -/
theorem asconPbkdf2F_eq (password salt : Bytes) {out : Bytes} {off count : ℕ}
    (h : off + 32 ≤ out.length) (hcount : 1 ≤ count) (blocknum : UInt32) :
    asconPbkdf2F asconP (asconPbkdf2Init asconP asconPbkdf2Name password) out off salt count
        blocknum =
      Bytes.splice out off (pbkdf2Block (asconPrf asconP password)
        (asconSalt salt ++ Bytes.put4byte blocknum.toNat) count) := by
  obtain ⟨k, rfl⟩ := Nat.exists_eq_add_of_le' hcount
  have hprf := @length_asconPrf asconP password
    (asconSalt salt ++ Bytes.put4byte blocknum.toNat)
  rw [asconPbkdf2F, asconSaltBlock_eq, asconSqueeze_prf password _ h]
  cases k with
  | zero => rfl
  | succ k =>
    have hslice : Bytes.slice (Bytes.splice out off (asconPrf asconP password
        (asconSalt salt ++ Bytes.put4byte blocknum.toNat))) off 32 =
        asconPrf asconP password (asconSalt salt ++ Bytes.put4byte blocknum.toNat) := by
      rw [← hprf]
      exact Bytes.slice_splice_self (by omega)
    have hloop := @asconPbkdf2Loop_eq asconP password
      (asconSalt salt ++ Bytes.put4byte blocknum.toNat) out off h (k + 1) 0
    simp only [hslice]
    rw [if_pos (by omega), Nat.add_sub_cancel, show k + 1 + 1 = 0 + 1 + (k + 1) by omega]
    exact hloop

/-- The loop over the output, when the next block is the one after `i` blocks. -/
theorem asconPbkdf2Blocks_eq (password salt : Bytes) {out : Bytes} {off outlen count i : ℕ}
    {blocknum : UInt32} (h : off + outlen ≤ out.length) (hcount : 1 ≤ count)
    (hnum : blocknum.toNat = i + 1) (hbound : i + outlen < 2 ^ 32) :
    asconPbkdf2Blocks asconP (asconPbkdf2Init asconP asconPbkdf2Name password) salt count out off
        outlen blocknum =
      Bytes.splice out off (Bytes.firstOf 32 (fun j => pbkdf2Block (asconPrf asconP password)
        (asconSalt salt ++ Bytes.put4byte (i + j + 1)) count) outlen) := by
  obtain ⟨k, rfl⟩ := Nat.exists_eq_add_of_le' hcount
  have hblock (x : Bytes) : (pbkdf2Block (asconPrf asconP password) x (k + 1)).length = 32 :=
    length_pbkdf2Block (length_asconPrf password) x k
  induction outlen using Nat.strong_induction_on generalizing out off blocknum i with
  | _ outlen ih =>
    rw [asconPbkdf2Blocks]
    split
    next hpos =>
      split
      next hfull =>
        -- a whole block, in place, and the loop goes on behind it
        obtain ⟨n, rfl⟩ := Nat.exists_eq_add_of_le hfull
        have hnext : (blocknum + 1).toNat = i + 1 + 1 := by
          rw [UInt32.toNat_add, hnum, UInt32.toNat_one]
          exact Nat.mod_eq_of_lt (by omega)
        have hrest (j : ℕ) : i + 1 + j + 1 = i + (j + 1) + 1 := by omega
        have hout : off + 32 + n ≤ (Bytes.splice out off (pbkdf2Block (asconPrf asconP password)
            (asconSalt salt ++ Bytes.put4byte (i + 1)) (k + 1))).length := by
          rw [Bytes.length_splice (by rw [hblock]; omega)]
          omega
        rw [asconPbkdf2F_eq password salt (by omega) hcount, hnum, Nat.add_sub_cancel_left,
          ih n (by omega) hout hnext (by omega), Bytes.firstOf_add (fun _ => hblock _) (by decide)]
        simp only [hrest, Nat.add_zero]
        have hsplice := @Bytes.splice_splice_next out
          (pbkdf2Block (asconPrf asconP password)
            (asconSalt salt ++ Bytes.put4byte (i + 1)) (k + 1))
          (Bytes.firstOf 32 (fun j => pbkdf2Block (asconPrf asconP password)
            (asconSalt salt ++ Bytes.put4byte (i + (j + 1) + 1)) (k + 1)) n) off
          (by rw [hblock, Bytes.length_firstOf (fun _ => hblock _) (by decide)]; omega)
        rwa [hblock] at hsplice
      next hpart =>
        -- a part of a last block
        rw [asconPbkdf2F_eq password salt (by simp) hcount, hnum,
          Bytes.firstOf_of_le (fun _ => hblock _) (by decide) (by omega), Nat.add_zero]
        simp [Bytes.splice, hblock, Bytes.zeros]
    next hzero =>
      have h0 : outlen = 0 := by omega
      subst h0
      simp [Bytes.firstOf, Bytes.splice]

/-- What `ascon_pbkdf2` writes: PBKDF2, for the salt at its fixed length. -/
theorem asconPbkdf2_eq (password salt : Bytes) {out : Bytes} {off : ℕ} {outlen count : UInt32}
    (h : off + outlen.toNat ≤ out.length) (hcount : 1 ≤ count.toNat) :
    asconPbkdf2 asconP out off outlen password salt count =
      Bytes.splice out off
        (pbkdf2 (asconPrf asconP password) 32 (asconSalt salt) count.toNat outlen.toNat) := by
  rw [asconPbkdf2, asconPbkdf2Blocks_eq (i := 0) password salt h hcount rfl
    (by have := outlen.toNat_lt; omega)]
  simp only [pbkdf2, Nat.zero_add]

/-- For every password, salt, count and output length, the bytes written are the first `outlen` of
the blocks `F(1)`, `F(2)`, …, nothing else of the output buffer changes, and a key of any smaller
length is a beginning of this one. -/
theorem ascon_pbkdf2_construction (asconP : ℕ → AsconState → AsconState)
    (password salt out : Bytes) (off : ℕ) (outlen count : UInt32)
    (hout : off + outlen.toNat ≤ out.length) (hcount : 1 ≤ count.toNat) :
    asconPbkdf2 asconP out off outlen password salt count =
        Bytes.splice out off
          (((List.range (outlen.toNat / 32 + 1)).flatMap fun i =>
            pbkdf2Block (asconPrf asconP password) (asconSalt salt ++ Bytes.put4byte (i + 1))
              count.toNat).take outlen.toNat) ∧
      ∀ (out' : Bytes) (off' : ℕ) (shorter : UInt32), off' + shorter.toNat ≤ out'.length →
        shorter ≤ outlen →
        Bytes.slice (asconPbkdf2 asconP out' off' shorter password salt count) off'
            shorter.toNat <+:
          Bytes.slice (asconPbkdf2 asconP out off outlen password salt count) off
            outlen.toNat := by
  refine ⟨asconPbkdf2_eq password salt hout hcount, fun out' off' shorter hout' hle => ?_⟩
  have hkey (n : ℕ) : (pbkdf2 (asconPrf asconP password) 32 (asconSalt salt) count.toNat
      n).length = n :=
    length_pbkdf2 (length_asconPrf password) (by decide) _ hcount n
  have hwritten {b : Bytes} {o : ℕ} {n : UInt32} (h : o + n.toNat ≤ b.length) :
      Bytes.slice (asconPbkdf2 asconP b o n password salt count) o n.toNat =
        pbkdf2 (asconPrf asconP password) 32 (asconSalt salt) count.toNat n.toNat := by
    have hself := @Bytes.slice_splice_self b
      (pbkdf2 (asconPrf asconP password) 32 (asconSalt salt) count.toNat n.toNat) o
      (by rwa [hkey])
    rwa [hkey, ← asconPbkdf2_eq password salt h hcount] at hself
  rw [hwritten hout, hwritten hout', ← pbkdf2_take (length_asconPrf password) (by decide) _ hcount
    (UInt32.le_iff_toNat_le.mp hle)]
  exact List.take_prefix _ _

/-- A permutation that changes nothing, the password and salt of one byte, seven iterations and a
key of forty bytes, which is a block and a part of a second one. -/
theorem ascon_pbkdf2_construction_forty :
    asconPbkdf2 (fun _ s => s) (Bytes.zeros 40) 0 40 [1] [2] 7 =
        Bytes.splice (Bytes.zeros 40) 0
          (((List.range 2).flatMap fun i =>
            pbkdf2Block (asconPrf (fun _ s => s) [1]) (asconSalt [2] ++ Bytes.put4byte (i + 1))
              7).take 40) :=
  (ascon_pbkdf2_construction (fun _ s => s) [1] [2] (Bytes.zeros 40) 0 40 7 (by decide)
    (by decide)).1

end Derivation

end MultipleCiphers
