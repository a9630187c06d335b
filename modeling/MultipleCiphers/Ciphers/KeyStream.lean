import MultipleCiphers.Ciphers.Authenticity
import MultipleCiphers.Ciphers.InitialVector

/-!
# Pages without reserved bytes

A page without reserved bytes has no place for a nonce, so what a page is encrypted with follows
from the key and the page number alone. If two pages were encrypted with the same stream, the
combination of the two would be the combination of their plain texts. The stream is determined by
three inputs, the one-time key, the nonce and the counter, so the question is whether these differ.

The ciphers take the page number in at different places:

* ChaCha20 hashes it to a nonce and combines it with the counter. Two pages with the same nonce
  (there are some, the generator of the initial vectors is not injective) have different counters,
  because these are one word of that nonce combined with either number.
* AEGIS does not use it for the nonce of the stream that makes the one-time key and nonce, but
  writes it over the last bytes of that nonce.
* Ascon128 hashes it to a nonce, and once more together with the key to the one-time key.

So ChaCha20 needs of the hash that its first twelve bytes separate the values of the generator,
AEGIS needs nothing, and Ascon128 needs that the hash the one-time key is taken from separates the
inputs of two pages with one nonce.

## Main definitions

* `StreamInput`, `Cipher.streamInput`, `Cipher.applyStream` — what a page is encrypted with.
* `NonceHashSeparates` — the hash for nonces is free of collisions.

## Main results

* `encryptPage_stream` — a page is encrypted with its stream input and with nothing else.
* `pages_share_no_keystream` — the inputs of two pages differ.
-/

namespace MultipleCiphers

open Bytes

/-- The inputs of the page stream cipher. The counter of AEGIS and Ascon is always the same. -/
structure StreamInput where
  key : Bytes
  nonce : Bytes
  counter : UInt32
  deriving DecidableEq

section Definitions

variable (P : Primitives)

/-- The inputs for a page without reserved bytes. -/
def Cipher.streamInput (cipher : Cipher) (page : ℕ) : StreamInput :=
  match cipher with
  | .chacha20 c =>
    let nonce := sqlite3mcGenerateInitialVector P page
    ⟨(chacha20Otk P c.key nonce page).drop 32, nonce.take 12, chacha20Counter nonce page + 1⟩
  | .aegis c =>
    let otk := aegisGenOtk P c (aegisGenNonce P c) page
    ⟨otk.take c.keyLength, otk.drop c.keyLength, 0⟩
  | .ascon128 c =>
    let nonce := sqlite3mcGenerateInitialVector P page
    ⟨asconGenOtk P c.key nonce page, nonce, 0⟩
  | _ => ⟨[], [], 0⟩

/-- A text encrypted with given inputs. -/
def Cipher.applyStream (cipher : Cipher) (input : StreamInput) (text : Bytes) : Bytes :=
  match cipher with
  | .chacha20 _ =>
    xorBytes text (P.chacha20Stream input.key input.nonce input.counter text.length)
  | .aegis c => P.aegisEncryptNoTag c.aegisAlgorithm text input.nonce input.key
  | .ascon128 _ => P.asconEncrypt text input.nonce input.key
  | _ => text

/-- The ciphers that encrypt a page without reserved bytes with a stream: AEGIS, Ascon128, and
ChaCha20 outside its legacy mode, which always has reserved bytes. -/
def Cipher.streamsPages : Cipher → Prop
  | .chacha20 c => c.legacy = 0
  | .aegis _ | .ascon128 _ => True
  | _ => False

/-- Where such a cipher starts to encrypt, and the salt it stores. -/
def Cipher.streamOffset (cipher : Cipher) (page : ℕ) : ℕ :=
  match cipher with
  | .chacha20 c => chacha20Offset c page
  | _ => aeadOffset cipher.plaintextHeaderSize page

/-- Two starts of the generator whose hashes agree in the first twelve bytes have the same bytes
hashed. The starts are the `int` values, and the sum that overflows. -/
def NonceHashSeparates : Prop :=
  ∀ y z : ℤ, -2 ^ 31 ≤ y ∧ y ≤ 2 ^ 31 → -2 ^ 31 ≤ z ∧ z ≤ 2 ^ 31 →
    (P.md5 (initKey 4 y)).take 12 = (P.md5 (initKey 4 z)).take 12 → initKey 4 y = initKey 4 z

end Definitions

section Pages

variable {P : Primitives} {p q : ℕ}

/-- **A page without reserved bytes is encrypted with its stream input.** Nothing else of the page
number or the key goes into it. -/
theorem encryptPage_stream {cipher : Cipher} (hmode : cipher.streamsPages) (page : ℕ)
    (data : Bytes) (env : Env) :
    builtinEncryptPage P cipher page data 0 env =
      (.ok, storeSalt page cipher.plaintextHeaderSize ((builtinGetSalt P cipher).getD [])
        (splice data (cipher.streamOffset page)
          (cipher.applyStream P (cipher.streamInput P page)
            (slice data (cipher.streamOffset page)
              (data.length - cipher.streamOffset page)))), env) := by
  cases cipher with
  | aes128 c => cases hmode
  | aes256 c => cases hmode
  | sqlcipher c => cases hmode
  | rc4 c => cases hmode
  | chacha20 c =>
    have hlegacy : c.legacy = 0 := hmode
    have hreserved : chacha20NReserved c.legacy 0 = 0 := if_pos ⟨rfl, hlegacy⟩
    have hfits : chacha20Fits c 0 = true := by
      simp only [chacha20Fits, hlegacy]
      decide
    have hpage : builtinEncryptPage P (.chacha20 c) page data 0 env =
        encryptPageChaCha20Cipher P c page data 0 env := rfl
    rw [hpage, encryptPageChaCha20Cipher]
    simp only [hreserved, hfits, if_true, Nat.lt_irrefl, gt_iff_lt, if_false, Nat.sub_zero]
    have hstream : chacha20XorPage P c.key (sqlite3mcGenerateInitialVector P page) page
        (chacha20Offset c page) data.length data =
        splice data (chacha20Offset c page) ((Cipher.chacha20 c).applyStream P
          ((Cipher.chacha20 c).streamInput P page)
          (slice data (chacha20Offset c page) (data.length - chacha20Offset c page))) := by
      rw [Cipher.applyStream, length_slice, Nat.min_self]
      rfl
    rw [hstream]
    rfl
  | aegis c => rfl
  | ascon128 c => rfl

theorem admittedPage.lt (h : admittedPage p) : p < 2 ^ 32 := by
  have h₂ := h.2
  omega

/-- The start of the generator for a page is one of those the hash separates. -/
theorem start_range (h : admittedPage p) :
    -2 ^ 31 ≤ intOfPgno p + 1 ∧ intOfPgno p + 1 ≤ 2 ^ 31 := by
  have hrange := intOfPgno_range h
  omega

/-- Pages whose nonces begin with the same twelve bytes have the same nonce. -/
theorem initialVector_eq (hhash : NonceHashSeparates P) (hp : admittedPage p)
    (hq : admittedPage q)
    (h : (sqlite3mcGenerateInitialVector P p).take 12 =
      (sqlite3mcGenerateInitialVector P q).take 12) :
    sqlite3mcGenerateInitialVector P p = sqlite3mcGenerateInitialVector P q :=
  congrArg P.md5 (hhash _ _ (start_range hp) (start_range hq) h)

/-- **No two pages share a keystream.** A page is encrypted with its stream input, and the stream
inputs of two pages differ, for every key. For Ascon128 the hash is assumed to tell the key, the
nonce and the first page from the key, the nonce and the second. -/
theorem pages_share_no_keystream (P : Primitives) {cipher : Cipher} (hmode : cipher.streamsPages)
    (hlengths : cipher.AllocatedLengths) (hhash : NonceHashSeparates P)
    {p q : ℕ} (hotk : ∀ c, cipher = .ascon128 c →
      (Cipher.ascon128 c).OneTimeKeysSeparateAt P (sqlite3mcGenerateInitialVector P q) p q)
    (hp : admittedPage p) (hq : admittedPage q) (hne : p ≠ q) :
    (∀ page data env, builtinEncryptPage P cipher page data 0 env =
      (.ok, storeSalt page cipher.plaintextHeaderSize ((builtinGetSalt P cipher).getD [])
        (splice data (cipher.streamOffset page)
          (cipher.applyStream P (cipher.streamInput P page)
            (slice data (cipher.streamOffset page)
              (data.length - cipher.streamOffset page)))), env)) ∧
      cipher.streamInput P p ≠ cipher.streamInput P q := by
  refine ⟨encryptPage_stream hmode, fun heq => hne ?_⟩
  cases cipher with
  | aes128 c => cases hmode
  | aes256 c => cases hmode
  | sqlcipher c => cases hmode
  | rc4 c => cases hmode
  | chacha20 c =>
    obtain ⟨-, hnonce, hcounter⟩ := (StreamInput.mk.injEq ..).mp heq
    -- the same nonce for both pages, and then another counter
    rw [initialVector_eq hhash hp hq hnonce] at hcounter
    exact chacha20Counter_inj hp.lt hq.lt ((UInt32.add_left_inj 1).mp hcounter)
  | aegis c =>
    obtain ⟨-, hnonce, -⟩ := (StreamInput.mk.injEq ..).mp heq
    have hlen : 4 ≤ c.nonceLength := by
      have halloc : c.nonceLength = aegisKeyLength c.aegisAlgorithm := hlengths
      rw [halloc, aegisKeyLength]
      split <;> decide
    refine put4byte_inj hp.lt hq.lt ?_
    rw [← slice_aegisGenOtk (P := P) hlen (aegisGenNonce P c) p,
      ← slice_aegisGenOtk (P := P) hlen (aegisGenNonce P c) q, hnonce]
  | ascon128 c =>
    obtain ⟨hkey, hnonce, -⟩ := (StreamInput.mk.injEq ..).mp heq
    -- the same nonce for both pages, and then another one-time key
    have hiv : sqlite3mcGenerateInitialVector P p = sqlite3mcGenerateInitialVector P q := hnonce
    rw [hiv] at hkey
    exact asconGenOtk_inj (hotk c rfl) hp.lt hq.lt hkey

end Pages

/-! ### Primitives that separate -/

/-- A hash that keeps the first sixteen bytes. -/
def firstBytes (b : Bytes) : Bytes := (b ++ zeros 16).take 16

theorem length_firstBytes (b : Bytes) : (firstBytes b).length = 16 := by
  rw [firstBytes, List.length_take, List.length_append, length_zeros]
  omega

/-- A hash that keeps the last four bytes. -/
def lastBytes (b : Bytes) : Bytes := (zeros 4 ++ b).drop b.length ++ zeros 28

theorem length_lastBytes (b : Bytes) : (lastBytes b).length = 32 := by
  rw [lastBytes, List.length_append, List.length_drop, List.length_append, length_zeros,
    length_zeros]
  omega

/-- Primitives with these hashes. -/
def separatingPrimitives : Primitives :=
  { nullPrimitives with
    md5 := firstBytes
    asconHash := lastBytes
    length_md5 := length_firstBytes
    length_asconHash := length_lastBytes }

theorem separatingPrimitives_nonce : NonceHashSeparates separatingPrimitives := by
  intro y z hy hz h
  have htake (x : ℤ) : ((separatingPrimitives.md5 (initKey 4 x)).take 12).take 4 =
      (initKey 4 x).take 4 := rfl
  have hvalue : modmult y = modmult z :=
    modmult_of_initKey hy hz (by rw [← htake y, ← htake z, h])
  exact (initKey_eq_iff 3 hy hz).mpr ((modmult_eq_iff hy hz).mp hvalue)

/-- The hash shows the page. -/
theorem separatingPrimitives_otk (c : Ascon128Cipher) (nonce : Bytes) (p q : ℕ) :
    (Cipher.ascon128 c).OneTimeKeysSeparateAt separatingPrimitives nonce p q := by
  intro h
  have hpage (page : ℕ) : ((separatingPrimitives.asconHash
      (c.key ++ nonce ++ put4byte page)).take 16).take 4 = put4byte page := by
    have hlen : (zeros 4 ++ (c.key ++ nonce)).length =
        (c.key ++ nonce ++ put4byte page).length := by
      simp only [List.length_append, length_zeros, length_put4byte]
      omega
    have hdrop : (zeros 4 ++ (c.key ++ nonce ++ put4byte page)).drop
        (c.key ++ nonce ++ put4byte page).length = put4byte page := by
      rw [← List.append_assoc (zeros 4), ← hlen, List.drop_left]
    rw [List.take_take]
    change (((zeros 4 ++ (c.key ++ nonce ++ put4byte page)).drop
      (c.key ++ nonce ++ put4byte page).length ++ zeros 28).take 4) = _
    rw [hdrop]
    rfl
  rw [← hpage p, ← hpage q, h]

/-- The pages `1` and `2147483400` have the same initial vector, and still different streams. -/
theorem pages_share_no_keystream_ascon :
    (Cipher.ascon128 ⟨64007, 0, zeros 32, zeros 16⟩).streamInput separatingPrimitives 1 ≠
      (Cipher.ascon128 ⟨64007, 0, zeros 32, zeros 16⟩).streamInput separatingPrimitives
        2147483400 :=
  (pages_share_no_keystream separatingPrimitives
    (show (Cipher.ascon128 ⟨64007, 0, zeros 32, zeros 16⟩).streamsPages from trivial) trivial
    separatingPrimitives_nonce (fun c _ => separatingPrimitives_otk c _ 1 2147483400) (by decide)
    (by decide) (by decide)).2

end MultipleCiphers
