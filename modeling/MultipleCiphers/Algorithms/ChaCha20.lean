import MultipleCiphers.Lib.Words
import MultipleCiphers.Lib.Sponge

/-!
# ChaCha20

`chacha20_xor` combines a buffer with a key stream, in place. It takes the buffer in blocks of 64
bytes and treats the last one, which may be shorter, apart: there the rounds work on the state
itself and the copy of the state is what is added, where in the loop it is the other way round.

The description to compare it with has no buffer: block `i` of the key stream is the key block of
the state with `i` added to its counter, and the stream is their concatenation.

## Main results

* `chacha20Xor_eq` — every buffer is combined with the key stream, whatever its length.
* `chacha20Xor_append` — a buffer cut at a multiple of 64 bytes, each part with its own counter.
-/

namespace MultipleCiphers

open Bytes

/-- `state` and `block.words`. -/
abbrev ChaCha20State := Vector UInt32 16

/-- `ROL32`. -/
def rol32 (x c : UInt32) : UInt32 := x <<< c ||| x >>> (32 - c)

/-- `CC20QR`. -/
def cc20qr (x : ChaCha20State) (a b c d : Fin 16) : ChaCha20State :=
  let x := x.set a (x[a] + x[b])
  let x := x.set d (rol32 (x[d] ^^^ x[a]) 16)
  let x := x.set c (x[c] + x[d])
  let x := x.set b (rol32 (x[b] ^^^ x[c]) 12)
  let x := x.set a (x[a] + x[b])
  let x := x.set d (rol32 (x[d] ^^^ x[a]) 8)
  let x := x.set c (x[c] + x[d])
  x.set b (rol32 (x[b] ^^^ x[c]) 7)

/-- A column round and a diagonal round. -/
def chacha20Round (x : ChaCha20State) : ChaCha20State :=
  let x := cc20qr x 0 4 8 12
  let x := cc20qr x 1 5 9 13
  let x := cc20qr x 2 6 10 14
  let x := cc20qr x 3 7 11 15
  let x := cc20qr x 0 5 10 15
  let x := cc20qr x 1 6 11 12
  let x := cc20qr x 2 7 8 13
  cc20qr x 3 4 9 14

/-- `chacha20_block`. -/
def chacha20Block (x : ChaCha20State) : ChaCha20State := chacha20Round^[10] x

/-- The state a key, a nonce and a counter start with. -/
def chacha20State (key nonce : Bytes) (counter : UInt32) : ChaCha20State :=
  #v[0x61707865, 0x3320646e, 0x79622d32, 0x6b206574,
    load32 key 0, load32 key 4, load32 key 8, load32 key 12,
    load32 key 16, load32 key 20, load32 key 24, load32 key 28,
    counter, load32 nonce 0, load32 nonce 4, load32 nonce 8]

/-- The words of a block combined with the buffer, four bytes each. -/
def xorWords : List UInt32 → Bytes → Bytes
  | [], _ => []
  | w :: ws, buf => store32 (w ^^^ load32 buf 0) ++ xorWords ws (buf.drop 4)

/-- The buffer behind the initialisation of the state. -/
def chacha20Blocks (state : ChaCha20State) (buf : Bytes) : Bytes :=
  if 64 < buf.length then
    let words := Vector.zipWith (· + ·) (chacha20Block state) state
    xorWords words.toList buf ++ chacha20Blocks (state.set 12 (state[12] + 1)) (buf.drop 64)
  else
    let words := state
    let state := Vector.zipWith (· + ·) (chacha20Block state) words
    xorBytes buf (state.toList.flatMap store32)
  termination_by buf.length

/-- `chacha20_xor`. -/
def chacha20Xor (buffer key nonce : Bytes) (counter : UInt32) : Bytes :=
  chacha20Blocks (chacha20State key nonce counter) buffer

/-! ### The key stream -/

/-- One block of the key stream. -/
def chacha20KeyBlock (state : ChaCha20State) : Bytes :=
  (Vector.zipWith (· + ·) (chacha20Block state) state).toList.flatMap store32

/-- The state `i` blocks further on. -/
def chacha20Advance (state : ChaCha20State) (i : ℕ) : ChaCha20State :=
  state.set 12 (state[12] + UInt32.ofNat i)

/-- The first `n` bytes of the key stream from a state on. -/
def chacha20KeyStream (state : ChaCha20State) (n : ℕ) : Bytes :=
  firstOf 64 (fun i => chacha20KeyBlock (chacha20Advance state i)) n

/-- The key stream of a key, a nonce and a counter. -/
def chacha20Stream (key nonce : Bytes) (counter : UInt32) (n : ℕ) : Bytes :=
  chacha20KeyStream (chacha20State key nonce counter) n

@[simp] theorem length_chacha20KeyBlock (state : ChaCha20State) :
    (chacha20KeyBlock state).length = 64 := by
  rw [chacha20KeyBlock, length_flatMap_store32, Vector.length_toList]

@[simp] theorem length_chacha20KeyStream (state : ChaCha20State) (n : ℕ) :
    (chacha20KeyStream state n).length = n :=
  length_firstOf (fun _ => length_chacha20KeyBlock _) (by decide) n

theorem length_chacha20Stream (key nonce : Bytes) (counter : UInt32) (n : ℕ) :
    (chacha20Stream key nonce counter n).length = n :=
  length_chacha20KeyStream _ n

theorem chacha20Advance_zero (state : ChaCha20State) : chacha20Advance state 0 = state := by
  rw [chacha20Advance, show UInt32.ofNat 0 = 0 from rfl, UInt32.add_zero]
  exact Vector.set_getElem_self (by decide)

theorem chacha20Advance_advance (state : ChaCha20State) (i j : ℕ) :
    chacha20Advance (chacha20Advance state i) j = chacha20Advance state (i + j) := by
  rw [chacha20Advance, chacha20Advance, chacha20Advance, Vector.getElem_set_self, Vector.set_set,
    UInt32.add_assoc, UInt32.ofNat_add]

theorem chacha20Advance_state (key nonce : Bytes) (counter : UInt32) (i : ℕ) :
    chacha20Advance (chacha20State key nonce counter) i =
      chacha20State key nonce (counter + UInt32.ofNat i) := rfl

/-- A block, and the stream behind it. -/
theorem chacha20KeyStream_block (state : ChaCha20State) (n : ℕ) :
    chacha20KeyStream state (64 + n) =
      chacha20KeyBlock state ++ chacha20KeyStream (chacha20Advance state 1) n := by
  rw [chacha20KeyStream, firstOf_add (fun _ => length_chacha20KeyBlock _) (by decide),
    chacha20Advance_zero, chacha20KeyStream]
  simp only [chacha20Advance_advance, Nat.add_comm]

theorem chacha20KeyStream_short (state : ChaCha20State) {n : ℕ} (h : n ≤ 64) :
    chacha20KeyStream state n = (chacha20KeyBlock state).take n := by
  rw [chacha20KeyStream, firstOf_of_le (fun _ => length_chacha20KeyBlock _) (by decide) h,
    chacha20Advance_zero]

/-! ### The loop -/

/-- Word by word or byte by byte. -/
theorem xorWords_eq (ws : List UInt32) {buf : Bytes} (h : 4 * ws.length ≤ buf.length) :
    xorWords ws buf = xorBytes (buf.take (4 * ws.length)) (ws.flatMap store32) := by
  induction ws generalizing buf with
  | nil => rfl
  | cons w ws ih =>
    rw [List.length_cons, Nat.mul_succ] at h
    have hword : (buf.take 4).length = (store32 w).length := by
      rw [List.length_take, length_store32]
      omega
    have hrest : 4 * ws.length ≤ (buf.drop 4).length := by
      rw [List.length_drop]
      omega
    rw [xorWords, ih hrest, List.length_cons, Nat.mul_succ, Nat.add_comm _ 4, List.take_add,
      List.flatMap_cons, xorBytes_append hword, store32_xor, store32_load32 (by omega),
      xorBytes_comm]
    rfl

theorem chacha20Blocks_eq (state : ChaCha20State) (buf : Bytes) :
    chacha20Blocks state buf = xorBytes buf (chacha20KeyStream state buf.length) := by
  fun_induction chacha20Blocks state buf with
  | case1 state buf h words ih =>
    have hlen : buf.length = 64 + (buf.drop 64).length := by
      rw [List.length_drop]
      omega
    have hblock : (buf.take 64).length = (chacha20KeyBlock state).length := by
      rw [List.length_take, length_chacha20KeyBlock]
      omega
    have hwords : xorWords words.toList buf = xorBytes (buf.take 64) (chacha20KeyBlock state) := by
      rw [xorWords_eq _ (by rw [Vector.length_toList]; omega), Vector.length_toList]
      rfl
    rw [ih, hwords, hlen, chacha20KeyStream_block, ← xorBytes_append hblock,
      List.take_append_drop]
    rfl
  | case2 state buf h words state' =>
    rw [chacha20KeyStream_short _ (by omega), xorBytes_take_right le_rfl]
    rfl

/-- **The key stream.** The buffer, of any length, is combined with the key stream of the same
length; the counter goes on modulo `2 ^ 32`. -/
theorem chacha20Xor_eq (buffer key nonce : Bytes) (counter : UInt32) :
    chacha20Xor buffer key nonce counter =
      xorBytes buffer (chacha20Stream key nonce counter buffer.length) :=
  chacha20Blocks_eq _ buffer

@[simp] theorem length_chacha20Xor (buffer key nonce : Bytes) (counter : UInt32) :
    (chacha20Xor buffer key nonce counter).length = buffer.length := by
  rw [chacha20Xor_eq, length_xorBytes, length_chacha20Stream, Nat.min_self]

theorem chacha20KeyStream_add (state : ChaCha20State) (q n : ℕ) :
    chacha20KeyStream state (64 * q + n) =
      chacha20KeyStream state (64 * q) ++ chacha20KeyStream (chacha20Advance state q) n := by
  induction q generalizing state with
  | zero =>
    rw [chacha20Advance_zero, Nat.mul_zero, Nat.zero_add, chacha20KeyStream_short _ (Nat.zero_le _),
      List.take_zero, List.nil_append]
  | succ q ih =>
    rw [Nat.mul_succ, Nat.add_comm _ 64, Nat.add_assoc, chacha20KeyStream_block, ih,
      chacha20KeyStream_block, List.append_assoc, chacha20Advance_advance, Nat.add_comm 1]

/-- A buffer in two parts, the first of them whole blocks: the second part is combined with the
key stream of a counter that much higher. -/
theorem chacha20Xor_append (a b key nonce : Bytes) (counter : UInt32) {q : ℕ}
    (ha : a.length = 64 * q) :
    chacha20Xor (a ++ b) key nonce counter =
      chacha20Xor a key nonce counter ++ chacha20Xor b key nonce (counter + UInt32.ofNat q) := by
  rw [chacha20Xor_eq, chacha20Xor_eq, chacha20Xor_eq, chacha20Stream, List.length_append, ha,
    chacha20KeyStream_add, chacha20Advance_state, xorBytes_append]
  · rfl
  · rw [length_chacha20KeyStream, ha]

/-- A block and one byte more, where the counter wraps around. -/
theorem chacha20Xor_append_wrap :
    chacha20Xor (zeros 64 ++ [1]) (zeros 32) (zeros 12) 0xffffffff =
      chacha20Xor (zeros 64) (zeros 32) (zeros 12) 0xffffffff ++
        chacha20Xor [1] (zeros 32) (zeros 12) (0xffffffff + UInt32.ofNat 1) :=
  chacha20Xor_append (zeros 64) [1] (zeros 32) (zeros 12) 0xffffffff (length_zeros 64)

/-- The cipher is its own inverse. -/
theorem chacha20Xor_chacha20Xor (buffer key nonce : Bytes) (counter : UInt32) :
    chacha20Xor (chacha20Xor buffer key nonce counter) key nonce counter = buffer := by
  rw [chacha20Xor_eq, length_chacha20Xor, chacha20Xor_eq, xorBytes_xorBytes_cancel]
  rw [length_chacha20Stream]

end MultipleCiphers
