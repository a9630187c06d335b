import MultipleCiphers.Lib.Bytes

/-!
# Cipher block chaining with ciphertext stealing

A block cipher on blocks of `w` bytes is a pair of functions `enc` and `dec` with `dec` undoing
`enc` on blocks. Chaining encrypts a string of whole blocks; when some bytes are left over, the
last two pieces are encrypted by *stealing*: the final, short piece of the ciphertext is the start
of the last whole block encrypted so far, and the block in front of it is the encryption of that
whole block with the short piece of the plaintext added in.

Decryption undoes this from the end. It has to recover the stolen bytes before the block in front
can be decrypted, so its two last steps do not mirror those of encryption, and that is what the
round trip below is about.

## Main results

* `cbcDecrypt_cbcEncrypt` — chaining over whole blocks is invertible.
* `stealDecrypt_stealEncrypt` — the last two pieces are recovered.
* `ctsDecrypt_ctsEncrypt` — the whole string is recovered, for every length of at least one block.
* `length_ctsDecrypt` — decrypting keeps the length, whatever is decrypted.
-/

namespace BlockCipher

open Bytes

variable (w : ℕ) (enc dec : Bytes → Bytes)

/-- Chaining over `n` whole blocks, `prev` being the block before them. -/
def cbcEncrypt : ℕ → Bytes → Bytes → Bytes
  | 0, _, _ => []
  | n + 1, prev, input =>
    let c := enc (xorBytes prev (input.take w))
    c ++ cbcEncrypt n c (input.drop w)

/-- Undoing the chaining over `n` whole blocks. -/
def cbcDecrypt : ℕ → Bytes → Bytes → Bytes
  | 0, _, _ => []
  | n + 1, prev, input =>
    xorBytes (dec (input.take w)) prev ++ cbcDecrypt n (input.take w) (input.drop w)

/-- The last block and the fragment `frag` after it: the block that takes the place of `last`, and
the bytes of `last` that come after it. -/
def stealEncrypt (last frag : Bytes) : Bytes :=
  enc (xorBytes last (frag ++ zeros (w - frag.length))) ++ last.take frag.length

/-- From the block `block` and the stolen bytes `stolen`: the last whole block of the ciphertext,
decrypted but not yet unchained, and the fragment. -/
def stealDecrypt (block stolen : Bytes) : Bytes × Bytes :=
  let x := dec block
  (dec (stolen ++ x.drop stolen.length), xorBytes (x.take stolen.length) stolen)

/-- The block before block `n` of a ciphertext `c`: its predecessor, or `prev` for the first. -/
def blockBefore (prev c : Bytes) (n : ℕ) : Bytes :=
  if n = 0 then prev else slice c ((n - 1) * w) w

/-- Encrypting a string of at least one block: chaining, then stealing for a fragment. -/
def ctsEncrypt (prev input : Bytes) : Bytes :=
  let n := input.length / w
  let body := cbcEncrypt w enc n prev (input.take (n * w))
  if input.length % w = 0 then body
  else body.take ((n - 1) * w) ++ stealEncrypt w enc (body.drop ((n - 1) * w)) (input.drop (n * w))

/-- Decrypting a string of at least one block. With a fragment the last two pieces come first. -/
def ctsDecrypt (prev input : Bytes) : Bytes :=
  let n := input.length / w
  if input.length % w = 0 then cbcDecrypt w dec n prev input
  else
    let m := n - 1
    let (block, frag) := stealDecrypt dec (slice input (m * w) w) (input.drop (n * w))
    cbcDecrypt w dec m prev (input.take (m * w)) ++
      (xorBytes block (blockBefore w prev input m) ++ frag)

variable {w enc dec}

/-- The block before block `n` of a ciphertext with at least `n` blocks is a block. -/
theorem length_blockBefore {prev c : Bytes} {n : ℕ} (hprev : prev.length = w)
    (hc : n * w ≤ c.length) : (blockBefore w prev c n).length = w := by
  rw [blockBefore]
  split
  · exact hprev
  · obtain ⟨l, rfl⟩ : ∃ l, n = l + 1 := ⟨n - 1, by omega⟩
    rw [Nat.succ_mul] at hc
    exact length_slice_of_le (by rw [Nat.add_sub_cancel]; exact hc)

section Chaining

variable (henc : ∀ b : Bytes, b.length = w → (enc b).length = w)
include henc

theorem length_cbcEncrypt :
    ∀ (n : ℕ) (prev input : Bytes), prev.length = w → input.length = n * w →
      (cbcEncrypt w enc n prev input).length = n * w := by
  intro n
  induction n with
  | zero => intro prev input _ _; simp [cbcEncrypt]
  | succ n ih =>
    intro prev input hprev hin
    rw [Nat.succ_mul] at hin ⊢
    have htake : (input.take w).length = w := by
      rw [List.length_take]
      omega
    have hc : (enc (xorBytes prev (input.take w))).length = w :=
      henc _ (by rw [length_xorBytes, hprev, htake, Nat.min_self])
    have hdrop : (input.drop w).length = n * w := by
      rw [List.length_drop]
      omega
    rw [cbcEncrypt, List.length_append, hc, ih _ _ hc hdrop, Nat.add_comm]

/-- **Chaining over whole blocks is invertible.** -/
theorem cbcDecrypt_cbcEncrypt (hdec : ∀ b : Bytes, b.length = w → dec (enc b) = b) :
    ∀ (n : ℕ) (prev input : Bytes), prev.length = w → input.length = n * w →
      cbcDecrypt w dec n prev (cbcEncrypt w enc n prev input) = input := by
  intro n
  induction n with
  | zero =>
    intro prev input _ hin
    rw [Nat.zero_mul] at hin
    rw [List.eq_nil_of_length_eq_zero hin]
    rfl
  | succ n ih =>
    intro prev input hprev hin
    rw [Nat.succ_mul] at hin
    have htake : (input.take w).length = w := by
      rw [List.length_take]
      omega
    have hx : (xorBytes prev (input.take w)).length = w := by
      rw [length_xorBytes, hprev, htake, Nat.min_self]
    have hc := henc _ hx
    have hdrop : (input.drop w).length = n * w := by
      rw [List.length_drop]
      omega
    have hcancel : xorBytes (xorBytes prev (input.take w)) prev = input.take w := by
      rw [xorBytes_comm prev]
      exact xorBytes_xorBytes_cancel (by rw [htake, hprev])
    rw [cbcEncrypt, cbcDecrypt, List.take_left' hc, List.drop_left' hc, ih _ _ hc hdrop,
      hdec _ hx, hcancel, List.take_append_drop]

/-- The last block of a chained ciphertext, and what is before it. -/
theorem cbcEncrypt_succ_last :
    ∀ (n : ℕ) (prev input : Bytes), prev.length = w → input.length = (n + 1) * w →
      cbcEncrypt w enc (n + 1) prev input =
        cbcEncrypt w enc n prev (input.take (n * w)) ++
          enc (xorBytes (blockBefore w prev (cbcEncrypt w enc n prev (input.take (n * w))) n)
            (input.drop (n * w))) := by
  intro n
  induction n with
  | zero =>
    intro prev input _ hin
    have hfull : input.take w = input := List.take_of_length_le (by rw [hin]; omega)
    simp [cbcEncrypt, blockBefore, hfull]
  | succ n ih =>
    intro prev input hprev hin
    have hin' : input.length = n * w + w + w := by rw [hin]; ring
    have htake : (input.take w).length = w := by
      rw [List.length_take]
      omega
    have hc : (enc (xorBytes prev (input.take w))).length = w :=
      henc _ (by rw [length_xorBytes, hprev, htake, Nat.min_self])
    have hdrop : (input.drop w).length = (n + 1) * w := by
      rw [List.length_drop, hin', Nat.succ_mul]
      omega
    have hw : (n + 1) * w = w + n * w := by ring
    have htt : (input.take ((n + 1) * w)).take w = input.take w := by
      rw [List.take_take, hw, Nat.min_eq_left (by omega)]
    have hdt : (input.take ((n + 1) * w)).drop w = (input.drop w).take (n * w) := by
      rw [hw, List.drop_take, Nat.add_sub_cancel_left]
    have hdd : (input.drop w).drop (n * w) = input.drop ((n + 1) * w) := by
      rw [List.drop_drop, hw]
    have hlen : (cbcEncrypt w enc n (enc (xorBytes prev (input.take w)))
        ((input.drop w).take (n * w))).length = n * w := by
      refine length_cbcEncrypt henc n _ _ hc ?_
      rw [List.length_take, hdrop, Nat.succ_mul]
      omega
    rw [cbcEncrypt, ih _ _ hc hdrop, cbcEncrypt, htt, hdt, hdd, List.append_assoc]
    congr 3
    unfold blockBefore
    cases n with
    | zero =>
      simp only [if_true, Nat.succ_ne_zero, if_false, cbcEncrypt, List.append_nil, Nat.zero_add,
        Nat.sub_self, Nat.zero_mul, slice_full hc]
    | succ n =>
      have hoff : (n + 1 + 1 - 1) * w = w + n * w := by rw [Nat.add_sub_cancel]; ring
      rw [if_neg (Nat.succ_ne_zero _), if_neg (Nat.succ_ne_zero _), Nat.add_sub_cancel, hoff]
      unfold slice
      rw [← List.drop_drop, List.drop_left' hc]

end Chaining

/-- Only the first `n` blocks are unchained. -/
theorem cbcDecrypt_take :
    ∀ (n : ℕ) (prev input : Bytes),
      cbcDecrypt w dec n prev (input.take (n * w)) = cbcDecrypt w dec n prev input := by
  intro n
  induction n with
  | zero => intro prev input; rfl
  | succ n ih =>
    intro prev input
    have htake : (input.take ((n + 1) * w)).take w = input.take w := by
      rw [List.take_take, Nat.succ_mul, Nat.min_eq_left (by omega)]
    have hdrop : (input.take ((n + 1) * w)).drop w = (input.drop w).take (n * w) := by
      rw [List.drop_take, Nat.succ_mul, Nat.add_sub_cancel]
    rw [cbcDecrypt, htake, hdrop, ih, cbcDecrypt]

/-- The last block of a string that is unchained, and what is before it. -/
theorem cbcDecrypt_succ_last :
    ∀ (n : ℕ) (prev input : Bytes),
      cbcDecrypt w dec (n + 1) prev input =
        cbcDecrypt w dec n prev input ++
          xorBytes (dec (slice input (n * w) w)) (blockBefore w prev input n) := by
  intro n
  induction n with
  | zero =>
    intro prev input
    simp [cbcDecrypt, blockBefore, slice]
  | succ n ih =>
    intro prev input
    have hblock : slice (input.drop w) (n * w) w = slice input ((n + 1) * w) w := by
      rw [slice, List.drop_drop, slice, Nat.succ_mul, Nat.add_comm w]
    have hbefore : blockBefore w (input.take w) (input.drop w) n
        = blockBefore w prev input (n + 1) := by
      unfold blockBefore
      rw [if_neg (Nat.succ_ne_zero n), Nat.add_sub_cancel]
      cases n with
      | zero => simp [slice]
      | succ n =>
        rw [if_neg (Nat.succ_ne_zero n), Nat.add_sub_cancel, slice, List.drop_drop, slice,
          Nat.succ_mul, Nat.add_comm w]
    rw [cbcDecrypt, ih, hblock, hbefore, cbcDecrypt, List.append_assoc]

/-- A function on blocks of `w` bytes and its inverse. -/
structure BlockPermutation (w : ℕ) (enc dec : Bytes → Bytes) : Prop where
  length_enc : ∀ b : Bytes, b.length = w → (enc b).length = w
  length_dec : ∀ b : Bytes, b.length = w → (dec b).length = w
  dec_enc : ∀ b : Bytes, b.length = w → dec (enc b) = b
  enc_dec : ∀ b : Bytes, b.length = w → enc (dec b) = b

/-- **Stealing is undone.** `last` is the last block of the chained ciphertext. -/
theorem stealDecrypt_stealEncrypt (henc : ∀ b : Bytes, b.length = w → (enc b).length = w)
    (hdec : ∀ b : Bytes, b.length = w → dec (enc b) = b)
    {last frag : Bytes} (hlast : last.length = w) (hfrag : frag.length ≤ w) :
    (stealEncrypt w enc last frag).length = w + frag.length ∧
      stealDecrypt dec ((stealEncrypt w enc last frag).take w)
        ((stealEncrypt w enc last frag).drop w) = (dec last, frag) := by
  have hpad : (frag ++ zeros (w - frag.length)).length = w := by
    rw [List.length_append, length_zeros]
    omega
  have hx : (xorBytes last (frag ++ zeros (w - frag.length))).length = w := by
    rw [length_xorBytes, hlast, hpad, Nat.min_self]
  have hstolen : (last.take frag.length).length = frag.length := by
    rw [List.length_take]
    omega
  have htake : (xorBytes last (frag ++ zeros (w - frag.length))).take frag.length
      = xorBytes frag (last.take frag.length) := by
    rw [take_xorBytes, List.take_left' rfl, xorBytes_comm]
  have hdrop : (xorBytes last (frag ++ zeros (w - frag.length))).drop frag.length
      = last.drop frag.length := by
    rw [drop_xorBytes, List.drop_left' rfl, xorBytes_zeros]
    rw [List.length_drop]
    omega
  refine ⟨by rw [stealEncrypt, List.length_append, henc _ hx, hstolen], ?_⟩
  rw [stealEncrypt, List.take_left' (henc _ hx), List.drop_left' (henc _ hx)]
  simp only [stealDecrypt, hdec _ hx, hstolen, htake, hdrop, List.take_append_drop]
  rw [xorBytes_xorBytes_cancel (by rw [hstolen])]

/-- **Encryption with stealing is invertible** on strings of at least one block. -/
theorem ctsDecrypt_ctsEncrypt (hw : 0 < w)
    (henc : ∀ b : Bytes, b.length = w → (enc b).length = w)
    (hdec : ∀ b : Bytes, b.length = w → dec (enc b) = b)
    {prev input : Bytes} (hprev : prev.length = w) (hin : w ≤ input.length) :
    (ctsEncrypt w enc prev input).length = input.length ∧
      ctsDecrypt w dec prev (ctsEncrypt w enc prev input) = input := by
  have hdm := Nat.div_add_mod' input.length w
  have hmod := Nat.mod_lt input.length hw
  have hn : 1 ≤ input.length / w := (Nat.one_le_div_iff hw).mpr hin
  obtain ⟨m, hm⟩ : ∃ m, input.length / w = m + 1 := ⟨input.length / w - 1, by omega⟩
  have hbody : (input.take (input.length / w * w)).length = input.length / w * w := by
    rw [List.length_take]
    omega
  by_cases hf : input.length % w = 0
  · have hall : input.take (input.length / w * w) = input := List.take_of_length_le (by omega)
    have hlen := length_cbcEncrypt henc _ _ _ hprev (by omega : input.length = input.length / w * w)
    have henc_eq :
        ctsEncrypt w enc prev input = cbcEncrypt w enc (input.length / w) prev input := by
      simp only [ctsEncrypt, if_pos hf, hall]
    have hlen' : (ctsEncrypt w enc prev input).length = input.length := by
      rw [henc_eq, hlen]
      omega
    refine ⟨hlen', ?_⟩
    simp only [ctsDecrypt, hlen', if_pos hf]
    rw [henc_eq, cbcDecrypt_cbcEncrypt henc hdec _ _ _ hprev (by omega)]
  · -- The chained part is `A ++ last`; stealing changes `last` and the fragment only.
    set X := input.take (input.length / w * w) with hX
    set frag := input.drop (input.length / w * w) with hfragdef
    have hXlen : X.length = (m + 1) * w := by rw [hbody, hm]
    have hfraglen : frag.length = input.length % w := by
      rw [hfragdef, List.length_drop]
      omega
    have hXm : (X.take (m * w)).length = m * w := by
      rw [List.length_take, hXlen, Nat.succ_mul]
      omega
    have hXlast : (X.drop (m * w)).length = w := by
      rw [List.length_drop, hXlen, Nat.succ_mul]
      omega
    set A := cbcEncrypt w enc m prev (X.take (m * w)) with hA
    have hAlen : A.length = m * w := length_cbcEncrypt henc _ _ _ hprev hXm
    have hbb : (blockBefore w prev A m).length = w := length_blockBefore hprev (by omega)
    have hlastx : (xorBytes (blockBefore w prev A m) (X.drop (m * w))).length = w := by
      rw [length_xorBytes, hbb, hXlast, Nat.min_self]
    set last := enc (xorBytes (blockBefore w prev A m) (X.drop (m * w))) with hlast
    have hsplit : cbcEncrypt w enc (m + 1) prev X = A ++ last :=
      cbcEncrypt_succ_last henc m prev X hprev hXlen
    obtain ⟨hslen, hsteal⟩ := stealDecrypt_stealEncrypt henc hdec (henc _ hlastx : last.length = w)
      (by rw [hfraglen]; omega : frag.length ≤ w)
    have henc_eq : ctsEncrypt w enc prev input = A ++ stealEncrypt w enc last frag := by
      simp only [ctsEncrypt, if_neg hf, ← hX, ← hfragdef]
      rw [hm, hsplit, Nat.add_sub_cancel, List.take_left' hAlen, List.drop_left' hAlen]
    have hlen' : (ctsEncrypt w enc prev input).length = input.length := by
      rw [henc_eq, List.length_append, hAlen, hslen, hfraglen]
      rw [hm, Nat.succ_mul] at hdm
      omega
    have hblock : slice (A ++ stealEncrypt w enc last frag) (m * w) w
        = (stealEncrypt w enc last frag).take w := by
      rw [slice, List.drop_left' hAlen]
    have hstolen : (A ++ stealEncrypt w enc last frag).drop ((m + 1) * w)
        = (stealEncrypt w enc last frag).drop w := by
      rw [Nat.succ_mul, ← List.drop_drop, List.drop_left' hAlen]
    have hbefore : blockBefore w prev (A ++ stealEncrypt w enc last frag) m
        = blockBefore w prev A m := by
      unfold blockBefore
      split
      · rfl
      · obtain ⟨l, rfl⟩ : ∃ l, m = l + 1 := ⟨m - 1, by omega⟩
        rw [Nat.succ_mul] at hAlen
        rw [Nat.add_sub_cancel, slice, slice, List.drop_append_of_le_length (by omega),
          List.take_append_of_le_length (by rw [List.length_drop]; omega)]
    have hcancel : xorBytes (dec last) (blockBefore w prev A m) = X.drop (m * w) := by
      rw [hlast, hdec _ hlastx, xorBytes_comm (blockBefore w prev A m)]
      exact xorBytes_xorBytes_cancel (by rw [hXlast, hbb])
    refine ⟨hlen', ?_⟩
    simp only [ctsDecrypt, hlen', if_neg hf]
    rw [henc_eq, hm, Nat.add_sub_cancel, hblock, hstolen, hsteal, hbefore, hcancel,
      List.take_left' hAlen, hA, cbcDecrypt_cbcEncrypt henc hdec _ _ _ hprev hXm,
      ← List.append_assoc, List.take_append_drop, List.take_append_drop]

/-! ### The length of what is decrypted -/

section Length

variable (hdec : ∀ b : Bytes, b.length = w → (dec b).length = w)
include hdec

theorem length_cbcDecrypt :
    ∀ (n : ℕ) (prev input : Bytes), prev.length = w → input.length = n * w →
      (cbcDecrypt w dec n prev input).length = n * w := by
  intro n
  induction n with
  | zero => intro prev input _ _; simp [cbcDecrypt]
  | succ n ih =>
    intro prev input hprev hin
    rw [Nat.succ_mul] at hin ⊢
    have htake : (input.take w).length = w := by
      rw [List.length_take]
      omega
    have hdrop : (input.drop w).length = n * w := by
      rw [List.length_drop]
      omega
    rw [cbcDecrypt, List.length_append, length_xorBytes, hdec _ htake, hprev, Nat.min_self,
      ih _ _ htake hdrop, Nat.add_comm]

/-- **A decrypted string has the length of the ciphertext.** -/
theorem length_ctsDecrypt (hw : 0 < w) {prev input : Bytes} (hprev : prev.length = w)
    (hin : w ≤ input.length) : (ctsDecrypt w dec prev input).length = input.length := by
  have hdm := Nat.div_add_mod' input.length w
  have hmod := Nat.mod_lt input.length hw
  have hn : 1 ≤ input.length / w := (Nat.one_le_div_iff hw).mpr hin
  obtain ⟨m, hm⟩ : ∃ m, input.length / w = m + 1 := ⟨input.length / w - 1, by omega⟩
  have hsucc : (m + 1) * w = m * w + w := Nat.succ_mul m w
  rw [hm, hsucc] at hdm
  by_cases hf : input.length % w = 0
  · simp only [ctsDecrypt, if_pos hf]
    rw [length_cbcDecrypt hdec _ _ _ hprev (by rw [hm, hsucc]; omega), hm, hsucc]
    omega
  · simp only [ctsDecrypt, if_neg hf, stealDecrypt, hm, Nat.add_sub_cancel, hsucc]
    have hstolen : (input.drop (m * w + w)).length = input.length % w := by
      rw [List.length_drop]
      omega
    have hblock : (slice input (m * w) w).length = w := length_slice_of_le (by omega)
    have hx : (dec (slice input (m * w) w)).length = w := hdec _ hblock
    have hfull : (input.drop (m * w + w) ++
        (dec (slice input (m * w) w)).drop (input.drop (m * w + w)).length).length = w := by
      rw [hstolen, List.length_append, hstolen, List.length_drop, hx]
      omega
    have hbefore : (blockBefore w prev input m).length = w :=
      length_blockBefore hprev (by omega)
    have hbody : (input.take (m * w)).length = m * w := by
      rw [List.length_take]
      omega
    rw [List.length_append, List.length_append, length_cbcDecrypt hdec _ _ _ hprev hbody,
      length_xorBytes, hdec _ hfull, hbefore, length_xorBytes, List.length_take, hx, hstolen]
    omega

end Length

end BlockCipher
