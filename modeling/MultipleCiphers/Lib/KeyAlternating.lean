import Mathlib.Data.Nat.Notation
import Mathlib.Tactic.TypeStar

/-!
# Key-alternating block ciphers

AES encrypts a block in rounds: a layer that substitutes and moves bytes, a linear layer, and a
round key combined with the state. The last round has no linear layer, and one more round key comes
before the first. Nothing below needs to know what the layers are, only that each has an inverse and
that the inverse of the linear layer distributes over the combination with a key.

Implementations differ in two ways from that description, and both are about the round keys.

*Which end of a round the key is at.* A routine that combines the key with the state first, and one
that does it last, compute the same block (`encrypt_eq`, `decrypt_eq`): the keys are only put into
other groups.

*How a block is decrypted.* The layers of a round can be undone in the order in which they stand, if
the round keys in the middle have gone through the inverse of the linear layer (`decryptKeys`). That
gives decryption the shape of encryption, and it is what hardware and tables are made for.

## Main results

* `KeyAlternating.encrypt_eq`, `KeyAlternating.decrypt_eq` — keys at the other end of a round.
* `KeyAlternating.decrypt_encrypt` — decryption with the converted keys.
-/

/-- The layers of a round over states `σ`, and how a key is combined with a state. -/
structure KeyAlternating (σ : Type*) where
  xor : σ → σ → σ
  substitute : σ → σ
  unsubstitute : σ → σ
  mix : σ → σ
  unmix : σ → σ
  xor_xor : ∀ s k, xor (xor s k) k = s
  unsubstitute_substitute : ∀ s, unsubstitute (substitute s) = s
  unmix_mix : ∀ s, unmix (mix s) = s
  unmix_xor : ∀ s k, unmix (xor s k) = xor (unmix s) (unmix k)

namespace KeyAlternating

variable {σ : Type*} (C : KeyAlternating σ) (keys : ℕ → σ)

/-- The state after the first key and `i` rounds. -/
def rounds (x : σ) : ℕ → σ
  | 0 => C.xor x (keys 0)
  | i + 1 => C.xor (C.mix (C.substitute (rounds x i))) (keys (i + 1))

/-- A block encrypted in `n` rounds. -/
def encrypt (n : ℕ) (x : σ) : σ := C.xor (C.substitute (C.rounds keys x (n - 1))) (keys n)

/-- The same backwards, with the layers in the order in which encryption has them. -/
def unrounds (n : ℕ) (y : σ) : ℕ → σ
  | 0 => C.xor y (keys n)
  | i + 1 => C.xor (C.unmix (C.unsubstitute (unrounds n y i))) (keys (n - 1 - i))

/-- A block decrypted in `n` rounds. -/
def decrypt (n : ℕ) (y : σ) : σ :=
  C.xor (C.unsubstitute (C.unrounds keys n y (n - 1))) (keys 0)

/-- The keys for `decrypt`: those of the inner rounds have gone through the linear layer. -/
def decryptKeys (n r : ℕ) : σ := if 0 < r ∧ r < n then C.unmix (keys r) else keys r

variable {C keys}

/-- The state in the middle of decryption is that of encryption, behind its substitution. -/
theorem unrounds_decryptKeys {n : ℕ} (hn : 1 ≤ n) (x : σ) {i : ℕ} (hi : i ≤ n - 1) :
    C.unrounds (C.decryptKeys keys n) n (C.encrypt keys n x) i =
      C.substitute (C.rounds keys x (n - 1 - i)) := by
  induction i with
  | zero =>
    rw [unrounds, decryptKeys, if_neg fun h => Nat.lt_irrefl n h.2, encrypt, C.xor_xor]
    rfl
  | succ i ih =>
    obtain ⟨j, hj⟩ : ∃ j, n - 1 - i = j + 1 := ⟨n - 1 - i - 1, by omega⟩
    rw [unrounds, ih (by omega), C.unsubstitute_substitute, decryptKeys,
      if_pos ⟨by omega, by omega⟩, hj, rounds, C.unmix_xor, C.xor_xor, C.unmix_mix,
      show n - 1 - (i + 1) = j by omega]

/-- **Decryption**, with the converted keys, undoes encryption. -/
theorem decrypt_encrypt {n : ℕ} (hn : 1 ≤ n) (x : σ) :
    C.decrypt (C.decryptKeys keys n) n (C.encrypt keys n x) = x := by
  rw [decrypt, unrounds_decryptKeys hn x (Nat.le_refl _), Nat.sub_self, C.unsubstitute_substitute,
    decryptKeys, if_neg fun h => Nat.lt_irrefl 0 h.1]
  exact C.xor_xor x _

/-! ### Keys at the other end of a round -/

/-- Rounds that begin with their key. -/
theorem rounds_eq {x : σ} {f : ℕ → σ} (hzero : f 0 = x)
    (hsucc : ∀ i, f (i + 1) = C.mix (C.substitute (C.xor (f i) (keys i)))) (i : ℕ) :
    C.xor (f i) (keys i) = C.rounds keys x i := by
  induction i with
  | zero => rw [hzero, rounds]
  | succ i ih => rw [hsucc, ih, rounds]

/-- A block encrypted by rounds that begin with their key. -/
theorem encrypt_eq {x : σ} {f : ℕ → σ} {n : ℕ} (hzero : f 0 = x)
    (hsucc : ∀ i, f (i + 1) = C.mix (C.substitute (C.xor (f i) (keys i)))) :
    C.xor (C.substitute (C.xor (f (n - 1)) (keys (n - 1)))) (keys n) = C.encrypt keys n x := by
  rw [rounds_eq hzero hsucc, encrypt]

/-- A block decrypted by rounds that begin with their key. -/
theorem unrounds_eq {n : ℕ} {y : σ} {f : ℕ → σ} (hzero : f 0 = y)
    (hsucc : ∀ i, f (i + 1) = C.unmix (C.unsubstitute (C.xor (f i) (keys (n - i))))) (i : ℕ) :
    C.xor (f i) (keys (n - i)) = C.unrounds keys n y i := by
  induction i with
  | zero => rw [hzero, unrounds, Nat.sub_zero]
  | succ i ih => rw [hsucc, ih, unrounds, show n - (i + 1) = n - 1 - i by omega]

theorem decrypt_eq {n : ℕ} {y : σ} {f : ℕ → σ} (hn : 1 ≤ n) (hzero : f 0 = y)
    (hsucc : ∀ i, f (i + 1) = C.unmix (C.unsubstitute (C.xor (f i) (keys (n - i))))) :
    C.xor (C.unsubstitute (C.xor (f (n - 1)) (keys 1))) (keys 0) = C.decrypt keys n y := by
  have hkey := unrounds_eq hzero hsucc (n - 1)
  rw [show n - (n - 1) = 1 by omega] at hkey
  rw [hkey, decrypt]

/-- Only the keys `0` to `n` matter. -/
theorem encrypt_congr {keys' : ℕ → σ} {n : ℕ} (h : ∀ r ≤ n, keys r = keys' r) (x : σ) :
    C.encrypt keys n x = C.encrypt keys' n x := by
  have hrounds : ∀ i ≤ n, C.rounds keys x i = C.rounds keys' x i := by
    intro i
    induction i with
    | zero => intro _; rw [rounds, rounds, h 0 (Nat.zero_le n)]
    | succ i ih => intro hi; rw [rounds, rounds, ih (by omega), h _ hi]
  rw [encrypt, encrypt, hrounds _ (Nat.sub_le n 1), h n (Nat.le_refl n)]

theorem decrypt_congr {keys' : ℕ → σ} {n : ℕ} (h : ∀ r ≤ n, keys r = keys' r) (y : σ) :
    C.decrypt keys n y = C.decrypt keys' n y := by
  have hrounds : ∀ i, C.unrounds keys n y i = C.unrounds keys' n y i := by
    intro i
    induction i with
    | zero => rw [unrounds, unrounds, h n (Nat.le_refl n)]
    | succ i ih => rw [unrounds, unrounds, ih, h _ (by omega)]
  rw [decrypt, decrypt, hrounds, h 0 (Nat.zero_le n)]

end KeyAlternating
