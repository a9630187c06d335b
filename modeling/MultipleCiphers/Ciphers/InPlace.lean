import MultipleCiphers.Ciphers.Rijndael

/-!
# Encrypting and decrypting in place

What `RijndaelBlockEncrypt` and `RijndaelBlockDecrypt` do in CBC mode is one write: the bytes at
the output pointer become the encryption, or the decryption, with ciphertext stealing of the bytes
at the input pointer, as many as there were, and no other byte of the memory is written. This
holds when the two pointers are the same and when the two buffers are apart. Everything else
follows: the round trip in place, the agreement of the hardware routines with the software loops,
and that the routines on memory are the functions of the page formats.

The loop of the encryption is described by what it has written, a chained string that grows by a
block at its end. In place, the blocks still to be read lie behind what is written. The decryption
deals with the incomplete last block first; the loop over the blocks in front then neither reads
nor writes what that has written.

## Main results

* `aesEncryptCBC_eq_store`, `aesDecryptCBC_eq_store` — the hardware routines are one write.
* `cbcEncryptSoftware_eq`, `cbcDecryptSoftware_eq` — the software does the same to the memory.
* `rijndaelBlockEncrypt_eq_store`, `rijndaelBlockDecrypt_eq_store` — the routines, on any platform.
-/

namespace MultipleCiphers

open Bytes BlockCipher

/-! ### The two buffers -/

/-- The two buffers of `len` bytes are the same, or they are apart. -/
def SameOrApart (inp out len : ℕ) : Prop := inp = out ∨ Memory.Separate inp len out len

/-- What lies at the end of the input is not in the first part of the output. -/
theorem SameOrApart.load_store {inp out len : ℕ} (h : SameOrApart inp out len) (m : Memory)
    {o n : ℕ} {d : Bytes} (ho : d.length ≤ o) (hn : o + n ≤ len) :
    (m.store out d).load (inp + o) n = m.load (inp + o) n := by
  refine m.load_store_of_separate ?_
  rcases h with rfl | h
  · exact .inr (by omega)
  · rcases h with h | h
    · exact .inl (by omega)
    · exact .inr (by omega)

/-- What lies in the first part of the input is not at the end of the output. -/
theorem SameOrApart.load_store_behind {inp out len : ℕ} (h : SameOrApart inp out len) (m : Memory)
    {o n k : ℕ} {d : Bytes} (ho : o + n ≤ k) (hk : k + d.length ≤ len) :
    (m.store (out + k) d).load (inp + o) n = m.load (inp + o) n := by
  refine m.load_store_of_separate ?_
  rcases h with rfl | h
  · exact .inl (by omega)
  · rcases h with h | h
    · exact .inl (by omega)
    · exact .inr (by omega)

/-- Overwriting the end of what has been written. -/
theorem store_append_store (m : Memory) (p : ℕ) {d e f : Bytes} (h : f.length = e.length) :
    (m.store p (d ++ e)).store (p + d.length) f = m.store p (d ++ f) := by
  rw [← m.store_append, Memory.store_store _ h, m.store_append]

/-! ### The hardware routine that encrypts -/

section Encrypt

variable {encrypt : Bytes → Bytes} (henc : ∀ b : Bytes, b.length = 16 → (encrypt b).length = 16)
  {inp out len : ℕ} {iv : Bytes} (hiv : iv.length = 16)
include henc hiv

/-- **The loop over the complete blocks.** After `n` blocks the chained string of these blocks is
written, and `feedback` is its last block. -/
theorem aesEncryptLoop (hbuf : SameOrApart inp out len) (m : Memory) :
    ∀ n : ℕ, 16 * n ≤ len →
      (List.range n).foldl (aesEncryptStep encrypt inp out) (m, iv) =
        (m.store out (cbcEncrypt 16 encrypt n iv (m.load inp (16 * n))),
          blockBefore 16 iv (cbcEncrypt 16 encrypt n iv (m.load inp (16 * n))) n) := by
  intro n
  induction n with
  | zero =>
    intro _
    rw [List.range_zero, List.foldl_nil, cbcEncrypt, Memory.store_nil]
    rfl
  | succ n ih =>
    intro hn
    obtain ⟨C, hC⟩ : ∃ C, C = cbcEncrypt 16 encrypt n iv (m.load inp (16 * n)) := ⟨_, rfl⟩
    have hClen : C.length = 16 * n := by
      rw [hC, length_cbcEncrypt henc n iv _ hiv (by rw [Memory.length_load]; omega), Nat.mul_comm]
    have hsplit : m.load inp (16 * (n + 1)) = m.load inp (16 * n) ++ m.load (inp + 16 * n) 16 := by
      rw [← m.load_add, Nat.mul_succ]
    have hread : (m.store out C).load (inp + 16 * n) 16 = m.load (inp + 16 * n) 16 :=
      hbuf.load_store m (by omega) (by omega)
    have hnext : cbcEncrypt 16 encrypt (n + 1) iv (m.load inp (16 * (n + 1))) =
        C ++ encrypt (xorBytes (m.load (inp + 16 * n) 16) (blockBefore 16 iv C n)) := by
      have hlen : (m.load inp (16 * (n + 1))).length = (n + 1) * 16 := by
        rw [Memory.length_load, Nat.mul_comm]
      rw [cbcEncrypt_succ_last henc n iv _ hiv hlen, Nat.mul_comm n 16,
        m.take_load (by omega), hsplit, List.drop_left' (Memory.length_load m inp (16 * n)), ← hC,
        xorBytes_comm]
    have hbefore : (blockBefore 16 iv C n).length = 16 := length_blockBefore hiv (by omega)
    have hblock : (encrypt (xorBytes (m.load (inp + 16 * n) 16) (blockBefore 16 iv C n))).length
        = 16 := henc _ (by rw [length_xorBytes, Memory.length_load, hbefore, Nat.min_self])
    rw [List.range_succ, List.foldl_append, List.foldl_cons, List.foldl_nil, ih (by omega), ← hC,
      hnext, aesEncryptStep]
    simp only [hread]
    refine Prod.ext ?_ ?_
    · rw [← hClen, m.store_append]
    · unfold blockBefore
      rw [if_neg (Nat.succ_ne_zero n), Nat.add_sub_cancel]
      exact (slice_append_behind (by omega) hblock).symm

/-- **The hardware encrypts by one write.** -/
theorem aesEncryptCBC_eq_store (hbuf : SameOrApart inp out len) (m : Memory) (hlen : 16 ≤ len) :
    aesEncryptCBC encrypt m inp out iv len =
      m.store out (ctsEncrypt 16 encrypt iv (m.load inp len)) := by
  have hdm := Nat.div_add_mod' len 16
  have hmod := Nat.mod_lt len (by decide : 0 < 16)
  obtain ⟨n, hn⟩ : ∃ n, len / 16 = n + 1 := ⟨len / 16 - 1, by omega⟩
  have hbody : (m.load inp len).take ((n + 1) * 16) = m.load inp (16 * (n + 1)) := by
    rw [Nat.mul_comm, m.take_load (by omega)]
  obtain ⟨C, hC⟩ : ∃ C, C = cbcEncrypt 16 encrypt (n + 1) iv (m.load inp (16 * (n + 1))) := ⟨_, rfl⟩
  have hClen : C.length = 16 * (n + 1) := by
    rw [hC, length_cbcEncrypt henc (n + 1) iv _ hiv (by rw [Memory.length_load]; omega),
      Nat.mul_comm]
  have hloop := aesEncryptLoop henc hiv hbuf m (n + 1) (by omega)
  rw [← hC] at hloop
  simp only [aesEncryptCBC, ctsEncrypt, Memory.length_load, hn, hloop, hbody, ← hC]
  by_cases hf : len % 16 = 0
  · rw [if_neg (by omega), if_pos hf]
  · -- The last complete block is replaced, and its first bytes follow it.
    obtain ⟨A, hA⟩ : ∃ A, A = C.take (16 * n) := ⟨_, rfl⟩
    obtain ⟨last, hlast⟩ : ∃ last, last = C.drop (16 * n) := ⟨_, rfl⟩
    have hsplit : C = A ++ last := by rw [hA, hlast, List.take_append_drop]
    have hAlen : A.length = 16 * n := by
      rw [hA, List.length_take]
      omega
    have hlastlen : last.length = 16 := by
      rw [hlast, List.length_drop]
      omega
    obtain ⟨frag, hfrag⟩ : ∃ frag, frag = m.load (inp + 16 * (n + 1)) (len % 16) := ⟨_, rfl⟩
    have hfraglen : frag.length = len % 16 := by rw [hfrag, Memory.length_load]
    have hdrop : (m.load inp len).drop ((n + 1) * 16) = frag := by
      have hlen' : len = 16 * (n + 1) + len % 16 := by omega
      rw [Nat.mul_comm (n + 1) 16, hfrag]
      conv_lhs => rw [hlen']
      exact m.drop_load inp _ _
    have hpad : splice (zeros 16) 0 frag = frag ++ zeros (16 - frag.length) := by
      rw [splice, List.take_zero, List.nil_append, Nat.zero_add, zeros, List.drop_replicate]
      rfl
    have hpadlen : (frag ++ zeros (16 - frag.length)).length = 16 := by
      rw [List.length_append, length_zeros]
      omega
    have hread : (m.store out C).load (inp + 16 * (n + 1)) (len % 16) = frag := by
      rw [hbuf.load_store m (by omega) (by omega), hfrag]
    have hptr : out + 16 * (n + 1) - 16 = out + 16 * n := by omega
    have hstolen : (m.store out C).load (out + 16 * n) (len % 16) = last.take (len % 16) := by
      rw [m.load_store_inside (by omega), slice, ← hlast]
    have hfeedback : blockBefore 16 iv C (n + 1) = last := by
      rw [blockBefore, if_neg (Nat.succ_ne_zero n), Nat.add_sub_cancel, Nat.mul_comm, slice,
        ← hlast, List.take_of_length_le (by omega)]
    obtain ⟨block, hblock⟩ :
        ∃ block, block = encrypt (xorBytes last (frag ++ zeros (16 - frag.length))) := ⟨_, rfl⟩
    have hblocklen : block.length = 16 := by
      rw [hblock]
      exact henc _ (by rw [length_xorBytes, hlastlen, hpadlen, Nat.min_self])
    have hsteal : stealEncrypt 16 encrypt last frag = block ++ last.take (len % 16) := by
      rw [stealEncrypt, ← hblock, hfraglen]
    have hwrite : (m.store out C).store (out + 16 * n) block = m.store out (A ++ block) := by
      rw [hsplit, ← hAlen, store_append_store m out (by omega)]
    have hAblock : out + 16 * (n + 1) = out + (A ++ block).length := by
      rw [List.length_append]
      omega
    rw [if_pos (by omega), if_neg hf, Nat.add_sub_cancel, Nat.mul_comm n 16, ← hA, ← hlast, hdrop,
      hptr, hread, hstolen, hfeedback, hpad, xorBytes_comm, ← hblock, hwrite, hsteal, hAblock,
      m.store_append, List.append_assoc]

end Encrypt

/-! ### The hardware routine that decrypts -/

section Decrypt

variable {decrypt : Bytes → Bytes} (hdec : ∀ b : Bytes, b.length = 16 → (decrypt b).length = 16)
  {inp out len : ℕ} {iv : Bytes} (hiv : iv.length = 16)
include hdec hiv

/-- **The loop over the complete blocks.** It starts with a memory in which the end of the output,
behind these blocks, may have been written already. -/
theorem aesDecryptLoop (hbuf : SameOrApart inp out len) (m : Memory) :
    ∀ n : ℕ, 16 * n ≤ len →
      (List.range n).foldl (aesDecryptStep decrypt inp out) (m, iv) =
        (m.store out (cbcDecrypt 16 decrypt n iv (m.load inp (16 * n))),
          blockBefore 16 iv (m.load inp (16 * n)) n) := by
  intro n
  induction n with
  | zero =>
    intro _
    rw [List.range_zero, List.foldl_nil, cbcDecrypt, Memory.store_nil]
    rfl
  | succ n ih =>
    intro hn
    obtain ⟨X, hX⟩ : ∃ X, X = cbcDecrypt 16 decrypt n iv (m.load inp (16 * n)) := ⟨_, rfl⟩
    have hXlen : X.length = 16 * n := by
      rw [hX, length_cbcDecrypt hdec n iv _ hiv (by rw [Memory.length_load]; omega), Nat.mul_comm]
    have hread : (m.store out X).load (inp + 16 * n) 16 = m.load (inp + 16 * n) 16 :=
      hbuf.load_store m (by omega) (by omega)
    have hlast : slice (m.load inp (16 * (n + 1))) (n * 16) 16 = m.load (inp + 16 * n) 16 := by
      rw [Nat.mul_comm n 16, m.slice_load (by omega)]
    have hbefore : blockBefore 16 iv (m.load inp (16 * (n + 1))) n
        = blockBefore 16 iv (m.load inp (16 * n)) n := by
      unfold blockBefore
      split
      · rfl
      · rw [m.slice_load (by omega), m.slice_load (by omega)]
    have hstart : cbcDecrypt 16 decrypt n iv (m.load inp (16 * (n + 1))) = X := by
      rw [hX, ← m.take_load (by omega : 16 * n ≤ 16 * (n + 1)), Nat.mul_comm 16 n]
      exact (cbcDecrypt_take n iv _).symm
    rw [List.range_succ, List.foldl_append, List.foldl_cons, List.foldl_nil, ih (by omega), ← hX,
      cbcDecrypt_succ_last, hstart, hlast, hbefore, aesDecryptStep]
    simp only [hread]
    refine Prod.ext ?_ ?_
    · rw [← hXlen, m.store_append]
    · unfold blockBefore
      rw [if_neg (Nat.succ_ne_zero n), Nat.add_sub_cancel, hlast]

/-- **The incomplete last block.** It and the block in front of it are written, and nothing else. -/
theorem aesDecryptFragment_eq_store (m : Memory) {n k : ℕ}
    (hk : k ≤ 16) (hn : 16 * n + 16 + k = len) :
    aesDecryptFragment decrypt m inp out iv n k =
      m.store (out + 16 * n)
        (xorBytes (stealDecrypt decrypt (m.load (inp + 16 * n) 16)
            (m.load (inp + 16 * n + 16) k)).1 (blockBefore 16 iv (m.load inp len) n) ++
          (stealDecrypt decrypt (m.load (inp + 16 * n) 16) (m.load (inp + 16 * n + 16) k)).2) := by
  obtain ⟨x, hx⟩ : ∃ x, x = decrypt (m.load (inp + 16 * n) 16) := ⟨_, rfl⟩
  have hxlen : x.length = 16 := by
    rw [hx]
    exact hdec _ (Memory.length_load m _ _)
  obtain ⟨stolen, hstolen⟩ : ∃ stolen, stolen = m.load (inp + 16 * n + 16) k := ⟨_, rfl⟩
  have hstolenlen : stolen.length = k := by rw [hstolen, Memory.length_load]
  have hpartial : splice x 0 stolen = stolen ++ x.drop k := by
    rw [splice, List.take_zero, List.nil_append, Nat.zero_add, hstolenlen]
  have hpartiallen : (stolen ++ x.drop k).length = 16 := by
    rw [List.length_append, List.length_drop]
    omega
  have hfeedback : (if 0 < n then m.load (inp + 16 * (n - 1)) 16 else iv)
      = blockBefore 16 iv (m.load inp len) n := by
    unfold blockBefore
    by_cases h0 : n = 0
    · rw [if_neg (by omega), if_pos h0]
    · rw [if_pos (by omega), if_neg h0, Nat.mul_comm (n - 1), m.slice_load (by omega)]
  have hbefore : (blockBefore 16 iv (m.load inp len) n).length = 16 :=
    length_blockBefore hiv (by rw [Memory.length_load]; omega)
  have hfrag : (xorBytes x (stolen ++ x.drop k)).take k = xorBytes (x.take k) stolen := by
    rw [take_xorBytes, List.take_left' hstolenlen]
  have hblock : (xorBytes (decrypt (stolen ++ x.drop k))
      (blockBefore 16 iv (m.load inp len) n)).length = 16 := by
    rw [length_xorBytes, hdec _ hpartiallen, hbefore, Nat.min_self]
  have hptr : out + n * 16 + 16 = out + 16 * n + (xorBytes (decrypt (stolen ++ x.drop k))
      (blockBefore 16 iv (m.load inp len) n)).length := by omega
  simp only [aesDecryptFragment, stealDecrypt, ← hx, ← hstolen, hpartial, hfeedback, hfrag,
    hstolenlen]
  rw [hptr, m.store_append]

/-- **The hardware decrypts by one write.** -/
theorem aesDecryptCBC_eq_store (hbuf : SameOrApart inp out len) (m : Memory) (hlen : 16 ≤ len) :
    aesDecryptCBC decrypt m inp out iv len =
      m.store out (ctsDecrypt 16 decrypt iv (m.load inp len)) := by
  have hdm := Nat.div_add_mod' len 16
  have hmod := Nat.mod_lt len (by decide : 0 < 16)
  obtain ⟨n, hn⟩ : ∃ n, len / 16 = n + 1 := ⟨len / 16 - 1, by omega⟩
  simp only [aesDecryptCBC, ctsDecrypt, Memory.length_load, hn]
  by_cases hf : len % 16 = 0
  · rw [if_neg (by omega), if_pos hf, aesDecryptLoop hdec hiv hbuf m (n + 1) (by omega)]
    have hall : 16 * (n + 1) = len := by omega
    rw [hall]
  · obtain ⟨tail, htail⟩ : ∃ tail, tail = xorBytes (stealDecrypt decrypt (m.load (inp + 16 * n) 16)
            (m.load (inp + 16 * n + 16) (len % 16))).1 (blockBefore 16 iv (m.load inp len) n) ++
          (stealDecrypt decrypt (m.load (inp + 16 * n) 16)
            (m.load (inp + 16 * n + 16) (len % 16))).2 := ⟨_, rfl⟩
    have hblock : slice (m.load inp len) (n * 16) 16 = m.load (inp + 16 * n) 16 := by
      rw [Nat.mul_comm n 16, m.slice_load (by omega)]
    have hstolen : (m.load inp len).drop ((n + 1) * 16)
        = m.load (inp + 16 * n + 16) (len % 16) := by
      have hlen' : len = (n + 1) * 16 + len % 16 := by omega
      conv_lhs => rw [hlen']
      rw [m.drop_load]
      congr 1
      omega
    have htaillen : 16 * n + tail.length ≤ len := by
      rw [htail, List.length_append, length_xorBytes]
      simp only [stealDecrypt, length_xorBytes, List.length_take, Memory.length_load]
      have hbefore : (blockBefore 16 iv (m.load inp len) n).length = 16 :=
        length_blockBefore hiv (by rw [Memory.length_load]; omega)
      omega
    obtain ⟨body, hbody⟩ : ∃ body, body = cbcDecrypt 16 decrypt n iv (m.load inp (16 * n)) :=
      ⟨_, rfl⟩
    have hbodylen : body.length = 16 * n := by
      rw [hbody, length_cbcDecrypt hdec n iv _ hiv (by rw [Memory.length_load]; omega),
        Nat.mul_comm]
    have hunread : (m.store (out + 16 * n) tail).load inp (16 * n) = m.load inp (16 * n) :=
      hbuf.load_store_behind (o := 0) m (by omega) htaillen
    have htake : (m.load inp len).take (n * 16) = m.load inp (16 * n) := by
      rw [Nat.mul_comm n 16, m.take_load (by omega)]
    have hend : 16 * n + 16 + len % 16 = len := by omega
    rw [if_pos (by omega), if_neg hf, Nat.add_sub_cancel,
      aesDecryptFragment_eq_store hdec hiv m (by omega) hend, ← htail,
      aesDecryptLoop hdec hiv hbuf _ n (by omega), hunread, ← hbody, hblock, hstolen,
        htake, ← hbody,
      ← htail]
    have happ : out + 16 * n = out + body.length := by rw [hbodylen]
    have hapart : Memory.Separate (out + 16 * n) tail.length out body.length :=
      .inr (by omega)
    rw [Memory.store_comm _ hapart, happ, m.store_append]

end Decrypt

/-! ### The software branch of the encryption

It is compared with the hardware routine statement by statement, and the two agree for any two
pointers: the chaining block is read back right after it has been written. -/

/-- A block whose first bytes are changed, and the padded fragment added to a block. -/
theorem splice_xorBytes_take {block frag : Bytes} (h : frag.length ≤ block.length) :
    splice block 0 (xorBytes (block.take frag.length) frag) =
      xorBytes (splice (zeros block.length) 0 frag) block := by
  have htake : (block.take frag.length).length = frag.length := by
    rw [List.length_take]
    omega
  have hpad : splice (zeros block.length) 0 frag
      = frag ++ zeros (block.length - frag.length) := by
    rw [splice, List.take_zero, List.nil_append, Nat.zero_add, zeros, List.drop_replicate]
    rfl
  have hzip : xorBytes (frag ++ zeros (block.length - frag.length))
      (block.take frag.length ++ block.drop frag.length) =
        xorBytes frag (block.take frag.length) ++
          xorBytes (zeros (block.length - frag.length)) (block.drop frag.length) :=
    List.zipWith_append htake.symm
  rw [List.take_append_drop] at hzip
  rw [hpad, hzip, xorBytes_comm (zeros _), xorBytes_zeros (by rw [List.length_drop]), splice,
    List.take_zero, List.nil_append, Nat.zero_add, length_xorBytes, htake, Nat.min_self,
    xorBytes_comm frag]

section EncryptSoftware

variable {encrypt hardware : Bytes → Bytes}
  (hagree : ∀ b : Bytes, b.length = 16 → hardware b = encrypt b)
  (henc : ∀ b : Bytes, b.length = 16 → (encrypt b).length = 16)
  {iv : Bytes} (hiv : iv.length = 16)
include hagree henc hiv

/-- **The loops run together.** After the first block and `n` further ones the memories are the
same, and the register of the one is what the other finds at its output pointer. -/
theorem cbcEncryptLoop (m : Memory) (inp out : ℕ) :
    ∀ n : ℕ, ∃ feedback : Bytes, feedback.length = 16 ∧ ∃ m' : Memory,
      (List.range (n + 1)).foldl (aesEncryptStep hardware inp out) (m, iv) = (m', feedback) ∧
      (cbcEncryptStep encrypt)^[n]
          ⟨m.store out (encrypt (xorBytes iv (m.load inp 16))), inp + 16, out, iv⟩ =
        ⟨m', inp + 16 * (n + 1), out + 16 * n, iv⟩ ∧
      m'.load (out + 16 * n) 16 = feedback := by
  intro n
  induction n with
  | zero =>
    have hx : (xorBytes (m.load inp 16) iv).length = 16 := by
      rw [length_xorBytes, Memory.length_load, hiv, Nat.min_self]
    have hlen := henc _ hx
    refine ⟨_, hlen, m.store out (encrypt (xorBytes (m.load inp 16) iv)), ?_, ?_, ?_⟩
    · rw [List.range_succ, List.range_zero, List.nil_append, List.foldl_cons, List.foldl_nil,
        aesEncryptStep]
      simp only [Nat.mul_zero, Nat.add_zero, hagree _ hx]
    · rw [Function.iterate_zero, id_eq, xorBytes_comm iv]
      rfl
    · have hself := m.load_store_self out (encrypt (xorBytes (m.load inp 16) iv))
      rwa [hlen] at hself
  | succ n ih =>
    obtain ⟨feedback, hfeedback, m', hhard, hsoft, hread⟩ := ih
    have hx : (xorBytes (m'.load (inp + 16 * (n + 1)) 16) feedback).length = 16 := by
      rw [length_xorBytes, Memory.length_load, hfeedback, Nat.min_self]
    have hlen := henc _ hx
    refine ⟨_, hlen, m'.store (out + 16 * (n + 1))
      (encrypt (xorBytes (m'.load (inp + 16 * (n + 1)) 16) feedback)), ?_, ?_, ?_⟩
    · rw [List.range_succ, List.foldl_append, hhard, List.foldl_cons, List.foldl_nil,
        aesEncryptStep]
      simp only [hagree _ hx]
    · rw [Function.iterate_succ_apply', hsoft]
      simp only [cbcEncryptStep, hread, xorBytes_comm feedback]
      rfl
    · have hself := m'.load_store_self (out + 16 * (n + 1))
        (encrypt (xorBytes (m'.load (inp + 16 * (n + 1)) 16) feedback))
      rwa [hlen] at hself

/-- **Software and hardware encrypt alike**, whatever the two pointers are. -/
theorem cbcEncryptSoftware_eq (m : Memory) (inp out : ℕ) {len : ℕ} (hlen : 16 ≤ len) :
    cbcEncryptSoftware encrypt iv m inp out (len / 16) (len % 16) =
      aesEncryptCBC hardware m inp out iv len := by
  have hmod := Nat.mod_lt len (by decide : 0 < 16)
  obtain ⟨n, hn⟩ : ∃ n, len / 16 = n + 1 := ⟨len / 16 - 1, by omega⟩
  obtain ⟨feedback, hfeedback, m', hhard, hsoft, hread⟩ :=
    cbcEncryptLoop hagree henc hiv m inp out n
  have hptr : out + 16 * (n + 1) - 16 = out + 16 * n := by omega
  have hnext : out + 16 * n + 16 = out + 16 * (n + 1) := by omega
  have hblock : splice feedback 0 (xorBytes (feedback.take (len % 16))
      (m'.load (inp + 16 * (n + 1)) (len % 16))) =
        xorBytes (splice (zeros 16) 0 (m'.load (inp + 16 * (n + 1)) (len % 16))) feedback := by
    have hsplice : splice feedback 0 (xorBytes
        (feedback.take (m'.load (inp + 16 * (n + 1)) (len % 16)).length)
        (m'.load (inp + 16 * (n + 1)) (len % 16))) = _ :=
      splice_xorBytes_take (by rw [Memory.length_load]; omega)
    rwa [Memory.length_load, hfeedback] at hsplice
  have hpadded : (xorBytes (splice (zeros 16) 0 (m'.load (inp + 16 * (n + 1)) (len % 16)))
      feedback).length = 16 := by
    have hpad : (splice (zeros 16) 0 (m'.load (inp + 16 * (n + 1)) (len % 16))).length = 16 := by
      rw [length_splice (by rw [Memory.length_load, length_zeros]; omega), length_zeros]
    rw [length_xorBytes, hpad, hfeedback, Nat.min_self]
  simp only [cbcEncryptSoftware, aesEncryptCBC, hn, Nat.add_sub_cancel, hsoft, hhard, hread, hptr,
    hnext, hblock, hagree _ hpadded]

end EncryptSoftware

/-! ### The software branch of the decryption -/

/-- Adding a block that is not overwritten meanwhile, one byte after the other. -/
theorem xorInPlace_eq_store (m : Memory) {p q : ℕ} :
    ∀ n : ℕ, Memory.Separate p n q n →
      xorInPlace m p q n = m.store p (xorBytes (m.load p n) (m.load q n)) := by
  intro n
  induction n with
  | zero =>
    intro _
    exact (m.store_nil p).symm
  | succ n ih =>
    intro h
    have hlen : (xorBytes (m.load p n) (m.load q n)).length = n := by
      rw [length_xorBytes, Memory.length_load, Memory.length_load, Nat.min_self]
    have hsep : Memory.Separate p n q n := by
      rcases h with h | h
      · exact .inl (by omega)
      · exact .inr (by omega)
    have hbyte : ∀ a, ¬ Memory.InRange p n a →
        (m.store p (xorBytes (m.load p n) (m.load q n))).byte a = m.byte a := by
      intro a ha
      exact m.byte_store_of_not_inRange (by rwa [hlen])
    have hp : ¬ Memory.InRange p n (p + n) := by
      rintro ⟨_, hhigh⟩
      omega
    have hq : ¬ Memory.InRange p n (q + n) := by
      rintro ⟨hlow, hhigh⟩
      rcases h with h | h <;> omega
    have hone : ∀ r, m.load r (n + 1) = m.load r n ++ [m.byte (r + n)] := by
      intro r
      rw [m.load_add]
      rfl
    have happ : xorBytes (m.load p (n + 1)) (m.load q (n + 1)) =
        xorBytes (m.load p n) (m.load q n) ++ [m.byte (p + n) ^^^ m.byte (q + n)] := by
      rw [hone, hone]
      exact List.zipWith_append (by rw [Memory.length_load, Memory.length_load])
    have hstore := m.store_append p (xorBytes (m.load p n) (m.load q n))
      [m.byte (p + n) ^^^ m.byte (q + n)]
    rw [hlen] at hstore
    rw [xorInPlace, ih hsep]
    simp only [hbyte _ hp, hbyte _ hq]
    rw [hstore, happ]

/-- The exchange of the words of a block, for one block or two that are apart. -/
theorem exchangeWords_eq (m : Memory) {inp out : ℕ} {block : Bytes} (hblock : block.length = 16)
    (hbuf : SameOrApart inp out 16) :
    ∀ k : ℕ, k ≤ 4 → exchangeWords m inp out block k =
      (m.store out (block.take (4 * k)), m.load inp (4 * k)) := by
  intro k
  induction k with
  | zero =>
    intro _
    rw [Nat.mul_zero, List.take_zero, Memory.store_nil]
    rfl
  | succ k ih =>
    intro hk
    have hlen : (block.take (4 * k)).length = 4 * k := by
      rw [List.length_take]
      omega
    have hread : (m.store out (block.take (4 * k))).load (inp + 4 * k) 4
        = m.load (inp + 4 * k) 4 := hbuf.load_store m (by omega) (by omega)
    have hstore := m.store_append out (block.take (4 * k)) (slice block (4 * k) 4)
    rw [hlen, slice, ← List.take_add] at hstore
    rw [exchangeWords, ih (by omega)]
    simp only [hread]
    rw [slice, hstore, ← m.load_add, Nat.mul_succ]

section DecryptSoftware

variable {decrypt hardware : Bytes → Bytes}
  (hagree : ∀ b : Bytes, b.length = 16 → hardware b = decrypt b)
  (hdec : ∀ b : Bytes, b.length = 16 → (decrypt b).length = 16)
  {inp out len : ℕ} {iv : Bytes} (hiv : iv.length = 16)
include hagree hdec hiv

/-- **The loops run together**, over blocks of one buffer or of two that are apart. -/
theorem cbcDecryptLoop (hbuf : SameOrApart inp out len) (m : Memory) :
    ∀ n : ℕ, 16 * n ≤ len → ∃ feedback : Bytes, feedback.length = 16 ∧ ∃ m' : Memory,
      (List.range n).foldl (aesDecryptStep hardware inp out) (m, iv) = (m', feedback) ∧
      (cbcDecryptStep decrypt)^[n] ⟨m, inp, out, iv⟩ =
        ⟨m', inp + 16 * n, out + 16 * n, feedback⟩ := by
  intro n
  induction n with
  | zero =>
    intro _
    exact ⟨iv, hiv, m, rfl, rfl⟩
  | succ n ih =>
    intro hn
    obtain ⟨feedback, hfeedback, m', hhard, hsoft⟩ := ih (by omega)
    have hblock : (xorBytes (decrypt (m'.load (inp + 16 * n) 16)) feedback).length = 16 := by
      rw [length_xorBytes, hdec _ (Memory.length_load m' _ _), hfeedback, Nat.min_self]
    have hone : SameOrApart (inp + 16 * n) (out + 16 * n) 16 := by
      rcases hbuf with rfl | h | h
      · exact .inl rfl
      · exact .inr (.inl (by omega))
      · exact .inr (.inr (by omega))
    refine ⟨m'.load (inp + 16 * n) 16, Memory.length_load m' _ _, m'.store (out + 16 * n)
      (xorBytes (decrypt (m'.load (inp + 16 * n) 16)) feedback), ?_, ?_⟩
    · rw [List.range_succ, List.foldl_append, hhard, List.foldl_cons, List.foldl_nil,
        aesDecryptStep]
      simp only [hagree _ (Memory.length_load m' _ _)]
    · have hwords := exchangeWords_eq m' hblock hone 4 le_rfl
      rw [List.take_of_length_le (by omega)] at hwords
      rw [Function.iterate_succ_apply', hsoft]
      simp only [cbcDecryptStep, hwords]
      rfl

/-- **The incomplete last block**: the software stores the decrypted block, and adds the block in
front to it afterwards. -/
theorem cbcDecryptFragment_eq (hbuf : SameOrApart inp out len) (m : Memory) {n k : ℕ}
    (hk : k ≤ 16) (hn : 16 * n + 16 + k = len) :
    cbcDecryptFragment decrypt iv m inp out n k = aesDecryptFragment hardware m inp out iv n k := by
  obtain ⟨x, hx⟩ : ∃ x, x = decrypt (m.load (inp + 16 * n) 16) := ⟨_, rfl⟩
  have hxlen : x.length = 16 := by
    rw [hx]
    exact hdec _ (Memory.length_load m _ _)
  obtain ⟨stolen, hstolen⟩ : ∃ stolen, stolen = m.load (inp + 16 * n + 16) k := ⟨_, rfl⟩
  have hstolenlen : stolen.length = k := by rw [hstolen, Memory.length_load]
  have hpartial : (splice x 0 stolen).length = 16 := by
    rw [length_splice (by omega), hxlen]
  have hlastblock : (xorBytes x (splice x 0 stolen)).take k = xorBytes (x.take k) stolen := by
    rw [take_xorBytes, splice, List.take_zero, List.nil_append, List.take_left' hstolenlen]
  obtain ⟨y, hy⟩ : ∃ y, y = decrypt (splice x 0 stolen) := ⟨_, rfl⟩
  have hylen : y.length = 16 := by
    rw [hy]
    exact hdec _ hpartial
  obtain ⟨last, hlast⟩ : ∃ last, last = xorBytes (x.take k) stolen := ⟨_, rfl⟩
  have hlastlen : last.length = k := by
    rw [hlast, length_xorBytes, List.length_take, hstolenlen]
    omega
  -- The block has been stored and the bytes behind it; then the block is read and stored again.
  have hagain : ∀ feedback : Bytes, feedback.length = 16 →
      ((m.store (out + 16 * n) y).store (out + 16 * n + 16) last).store (out + 16 * n)
          (xorBytes (((m.store (out + 16 * n) y).store (out + 16 * n + 16) last).load
            (out + 16 * n) 16) feedback) =
        (m.store (out + 16 * n) (xorBytes y feedback)).store (out + 16 * n + 16) last := by
    intro feedback hfeedback
    have hread : ((m.store (out + 16 * n) y).store (out + 16 * n + 16) last).load
        (out + 16 * n) 16 = y := by
      have hself := m.load_store_self (out + 16 * n) y
      rw [hylen] at hself
      rw [Memory.load_store_of_separate _ (.inl (by omega)), hself]
    have hsame : (xorBytes y feedback).length = y.length := by
      rw [length_xorBytes, hylen, hfeedback, Nat.min_self]
    have hapart : Memory.Separate (out + 16 * n + 16) last.length (out + 16 * n)
        (xorBytes y feedback).length := .inr (by omega)
    rw [hread, Memory.store_comm _ hapart, Memory.store_store _ hsame]
  have hoffset : n * 16 = 16 * n := Nat.mul_comm n 16
  simp only [cbcDecryptFragment, aesDecryptFragment, hoffset,
    hagree _ (Memory.length_load m _ _), ← hx, ← hstolen, hagree _ hpartial, hlastblock, ← hy,
    ← hlast]
  by_cases h0 : n = 0
  · rw [if_pos (by omega), if_neg (by omega), hagain iv hiv]
  · have hptr : inp + 16 * n - 16 = inp + 16 * (n - 1) := by omega
    have hsep : Memory.Separate (out + 16 * n) 16 (inp + 16 * (n - 1)) 16 := by
      rcases hbuf with rfl | h | h
      · exact .inr (by omega)
      · exact .inr (by omega)
      · exact .inl (by omega)
    have hfront : ((m.store (out + 16 * n) y).store (out + 16 * n + 16) last).load
        (inp + 16 * (n - 1)) 16 = m.load (inp + 16 * (n - 1)) 16 := by
      rw [Nat.add_assoc out, hbuf.load_store_behind _ (by omega) (by omega),
        hbuf.load_store_behind _ (by omega) (by omega)]
    rw [if_neg (by omega), if_pos (by omega), hptr, xorInPlace_eq_store _ 16 hsep, hfront,
      hagain _ (Memory.length_load m _ _)]

/-- **Software and hardware decrypt alike**, in one buffer or between two that are apart. -/
theorem cbcDecryptSoftware_eq (hbuf : SameOrApart inp out len) (m : Memory) (hlen : 16 ≤ len) :
    (cbcDecryptSoftware decrypt iv m inp out (len / 16) (len % 16)).1 =
      aesDecryptCBC hardware m inp out iv len := by
  have hmod := Nat.mod_lt len (by decide : 0 < 16)
  obtain ⟨n, hn⟩ : ∃ n, len / 16 = n + 1 := ⟨len / 16 - 1, by omega⟩
  simp only [cbcDecryptSoftware, aesDecryptCBC, hn, Nat.add_sub_cancel]
  by_cases hf : 0 < len % 16
  · obtain ⟨_, _, m', hhard, hsoft⟩ := cbcDecryptLoop hagree hdec hiv hbuf
      (aesDecryptFragment hardware m inp out iv n (len % 16)) n (by omega)
    have hend : 16 * n + 16 + len % 16 = len := by omega
    rw [if_pos hf, if_pos hf, cbcDecryptFragment_eq hagree hdec hiv hbuf m (by omega) hend, hhard,
      hsoft]
  · obtain ⟨_, _, m', hhard, hsoft⟩ := cbcDecryptLoop hagree hdec hiv hbuf m (n + 1) (by omega)
    rw [if_neg hf, if_neg hf, hhard, hsoft]

end DecryptSoftware

/-! ### The routines -/

/-- A context for CBC mode that `RijndaelInit` has accepted. -/
structure Rijndael.Ready (rijndael : Rijndael) (dir : RijndaelDirection) : Prop where
  state : rijndael.state = .valid
  mode : rijndael.mode = .cbc
  direction : rijndael.direction = dir
  length_initVector : rijndael.initVector.length = 16

/-- `RijndaelInit` gets a context ready, with the vector it is given. -/
theorem ready_rijndaelInit (A : AesPlatform) (rijndael : Rijndael) (dir : RijndaelDirection)
    (key : Bytes) (keyLen : RijndaelKeyLength) {iv : Bytes} (hiv : iv.length = 16) :
    (rijndaelInit A rijndael .cbc dir (some key) keyLen (some iv)).2.Ready dir ∧
      (rijndaelInit A rijndael .cbc dir (some key) keyLen (some iv)).2.initVector = iv := by
  have htake : iv.take 16 = iv := List.take_of_length_le (by omega)
  refine ⟨⟨rfl, rfl, rfl, ?_⟩, htake⟩
  simp only [rijndaelInit, Option.map_some, Option.getD_some, htake, hiv]

/-- The block operation of the CBC mode on a platform: the hardware's where there is one. -/
def AesPlatform.encryptBlock (A : AesPlatform) (rijndael : Rijndael) : Bytes → Bytes :=
  match A.hardware with
  | some hardware => hardware.encryptBlock rijndael.expandedKey rijndael.rounds
  | none => A.rijndaelEncryptBlock rijndael

/-- The block operation that undoes it. -/
def AesPlatform.decryptBlock (A : AesPlatform) (rijndael : Rijndael) : Bytes → Bytes :=
  match A.hardware with
  | some hardware => hardware.decryptBlock rijndael.expandedKey rijndael.rounds
  | none => A.rijndaelDecryptBlock rijndael

section Routines

variable {A : AesPlatform} {rijndael : Rijndael} {inp out len : ℕ}

/-- A length in bits, in blocks and bytes. -/
theorem bits_eq (len : ℕ) : ((8 * len : ℕ) : ℤ).toNat / 128 = len / 16 ∧
    ((8 * len : ℕ) : ℤ).toNat % 128 / 8 = len % 16 ∧ ((8 * len : ℕ) : ℤ).toNat / 8 = len := by
  rw [Int.toNat_natCast]
  omega

/-- **`RijndaelBlockEncrypt` is one write**, on any platform. -/
theorem rijndaelBlockEncrypt_eq_store {encrypt : Bytes → Bytes} (hready : rijndael.Ready .encrypt)
    (hagree : ∀ b : Bytes, b.length = 16 → A.encryptBlock rijndael b = encrypt b)
    (henc : ∀ b : Bytes, b.length = 16 → (encrypt b).length = 16)
    (hbuf : SameOrApart inp out len) (hinp : inp ≠ 0) (hlen : 16 ≤ len) (m : Memory) :
    rijndaelBlockEncrypt A rijndael m inp (8 * len : ℕ) out =
      (128 * ((len / 16 : ℕ) : ℤ),
        m.store out (ctsEncrypt 16 encrypt rijndael.initVector (m.load inp len))) := by
  have hguard : ¬ (inp = 0 ∨ ((8 * len : ℕ) : ℤ) ≤ 0) := by omega
  have hiv := hready.length_initVector
  obtain ⟨hblocks, hfrag, hbytes⟩ := bits_eq len
  rw [rijndaelBlockEncrypt, if_neg (not_not.mpr hready.state),
    if_neg (not_not.mpr hready.direction), if_neg hguard,
    ← aesEncryptCBC_eq_store henc hiv hbuf m hlen]
  simp only [hready.mode, hblocks, hfrag, hbytes]
  cases hhw : A.hardware with
  | some hardware =>
    simp only [AesPlatform.encryptBlock, hhw] at hagree
    have hhard := cbcEncryptSoftware_eq hagree henc hiv m inp out hlen
    rw [cbcEncryptSoftware_eq (fun _ _ => rfl) henc hiv m inp out hlen] at hhard
    rw [hhard]
  | none =>
    simp only [AesPlatform.encryptBlock, hhw] at hagree
    have hlength : ∀ b : Bytes, b.length = 16 → (A.rijndaelEncryptBlock rijndael b).length = 16 :=
      fun b hb => by rw [hagree b hb, henc b hb]
    exact Prod.ext rfl
      (cbcEncryptSoftware_eq (fun b hb => (hagree b hb).symm) hlength hiv m inp out hlen)

/-- **`RijndaelBlockDecrypt` is one write**, on any platform. Only the returned number tells the
platforms apart: with an incomplete last block the software returns one block less. -/
theorem rijndaelBlockDecrypt_eq_store {decrypt : Bytes → Bytes} (hready : rijndael.Ready .decrypt)
    (hagree : ∀ b : Bytes, b.length = 16 → A.decryptBlock rijndael b = decrypt b)
    (hdec : ∀ b : Bytes, b.length = 16 → (decrypt b).length = 16)
    (hbuf : SameOrApart inp out len) (hinp : inp ≠ 0) (hlen : 16 ≤ len) (m : Memory) :
    rijndaelBlockDecrypt A rijndael m inp (8 * len : ℕ) out =
      (128 * ((if A.hardware.isNone ∧ len % 16 ≠ 0 then len / 16 - 1 else len / 16 : ℕ) : ℤ),
        m.store out (ctsDecrypt 16 decrypt rijndael.initVector (m.load inp len))) := by
  have hguard : ¬ (inp = 0 ∨ ((8 * len : ℕ) : ℤ) ≤ 0) := by omega
  have hdir : ¬ (rijndael.mode ≠ .cfb1 ∧ rijndael.direction = .encrypt) := by
    rw [hready.direction]
    rintro ⟨_, h⟩
    cases h
  have hiv := hready.length_initVector
  obtain ⟨hblocks, hfrag, hbytes⟩ := bits_eq len
  rw [rijndaelBlockDecrypt, if_neg (not_not.mpr hready.state), if_neg hdir, if_neg hguard,
    ← aesDecryptCBC_eq_store hdec hiv hbuf m hlen]
  simp only [hready.mode, hblocks, hfrag, hbytes]
  cases hhw : A.hardware with
  | some hardware =>
    simp only [AesPlatform.decryptBlock, hhw] at hagree
    have hhard := cbcDecryptSoftware_eq hagree hdec hiv hbuf m hlen
    rw [cbcDecryptSoftware_eq (fun _ _ => rfl) hdec hiv hbuf m hlen] at hhard
    rw [hhard]
    rfl
  | none =>
    simp only [AesPlatform.decryptBlock, hhw] at hagree
    have hlength : ∀ b : Bytes, b.length = 16 → (A.rijndaelDecryptBlock rijndael b).length = 16 :=
      fun b hb => by rw [hagree b hb, hdec b hb]
    refine Prod.ext ?_
      (cbcDecryptSoftware_eq (fun b hb => (hagree b hb).symm) hlength hiv hbuf m hlen)
    by_cases hf : len % 16 = 0
    · simp [cbcDecryptSoftware, hf]
    · simp [cbcDecryptSoftware, hf, Nat.pos_of_ne_zero hf]

end Routines

end MultipleCiphers
