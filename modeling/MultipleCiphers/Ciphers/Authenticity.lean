import MultipleCiphers.Ciphers.AegisKey
import MultipleCiphers.Vfs.Authentication

/-!
# What the tag of a page protects

Four ciphers store a tag with a page. A tag protects a page if nothing in it can be exchanged for
something else without a new tag: not a byte of the content, and not the page number, so that a page
cannot be moved to another place in the file.

What a tag is computed from is a key, a nonce and a message, and each cipher takes them from the
stored page in its own way. The page number enters the counter of ChaCha20, the message of
SQLCipher, the one-time key of Ascon-128 and the nonce of AEGIS. `Cipher.tagInput` collects this in
one place, and everything here follows from which bytes of a page it covers.

## Assumptions on the algorithms

A tag of sixteen bytes cannot be an injective function of its message. `Cipher.TagsSeparate` says of
two particular inputs that equal tags mean equal inputs: nobody has found a collision between these
two. For ChaCha20 and Ascon-128 the page number only reaches the tag through a one-time key, which
is a block of a key stream or a part of a hash. `Cipher.OneTimeKeysSeparateAt` says of the stream
and of the hash that they tell the inputs of two pages apart. That the two inputs do differ is
proved.

## Bytes 16 to 23 of page 1

ChaCha20 computes the tag from the first byte on. The other three start where they start to encrypt,
and that is byte 24 of page 1 (16 in the legacy modes of SQLCipher). The bytes 16 to 23, which hold
the page size, the file format versions and the number of reserved bytes, are delivered as they are
found.

## Main definitions

* `TagInput`, `Cipher.tagInput`, `Cipher.tagOf` — what a tag is computed from, and the tag.
* `Cipher.storedTag`, `Cipher.storedNonce` — the reserved bytes of a stored page.

## Main results

* `page_eq_of_tagInput` — what a tag is computed from determines the page.
* `chacha20_bound` — a ChaCha20 image is accepted unchanged or not at all.
* `salted_authentic_iff` — exactly when two accepted images decrypt to the same content.
-/

namespace MultipleCiphers

open Bytes

/-! ### Tags and what they are computed from -/

/-- What a tag is computed from. A cipher whose tag takes no nonce leaves it empty. -/
structure TagInput where
  key : Bytes
  nonce : Bytes
  message : Bytes
  deriving DecidableEq

section Definitions

variable (P : Primitives)

/-- The input of the tag of a stored page. -/
def Cipher.tagInput (cipher : Cipher) (page : ℕ) (data : Bytes) (reserved : ℤ) : TagInput :=
  let n := data.length - cipher.nReserved reserved
  match cipher with
  | .aes128 _ | .aes256 _ | .rc4 _ => ⟨[], [], []⟩
  | .chacha20 c =>
    ⟨(chacha20Otk P c.key (slice data n 16) page).take 32, [], data.take (n + 16)⟩
  | .sqlcipher c =>
    let offset := sqlCipherOffset c page
    ⟨c.hmacKey, [], slice data offset (n + 16 - offset) ++ hmacPgnoBytes c.hmacPgno page⟩
  | .ascon128 c =>
    let offset := aeadOffset c.plaintextHeaderSize page
    let nonce := slice data (n + 16) 16
    ⟨asconGenOtk P c.key nonce page, nonce, slice data offset (n - offset)⟩
  | .aegis c =>
    let offset := aeadOffset c.plaintextHeaderSize page
    let otk := aegisGenOtk P c (slice data (n + pageTagLenAegis) c.nonceLength) page
    ⟨otk.take c.keyLength, otk.drop c.keyLength, slice data offset (n - offset)⟩

/-- The tag of an input. -/
def Cipher.tagOf (cipher : Cipher) (x : TagInput) : Bytes :=
  match cipher with
  | .aes128 _ | .aes256 _ | .rc4 _ => []
  | .chacha20 _ => P.poly1305 x.message x.key
  | .sqlcipher c => P.hmac (.ofInt c.hmacAlgorithm) x.key x.message
  | .ascon128 _ => P.asconTag x.message x.nonce x.key
  | .aegis c => P.aegisTag c.aegisAlgorithm x.message x.nonce x.key

/-- The tag in a stored page. -/
def Cipher.storedTag (cipher : Cipher) (data : Bytes) (reserved : ℤ) : Bytes :=
  let n := data.length - cipher.nReserved reserved
  match cipher with
  | .aes128 _ | .aes256 _ | .rc4 _ => []
  | .chacha20 _ => slice data (n + 16) 16
  | .sqlcipher c => slice data (n + 16) (HashAlgorithm.ofInt c.hmacAlgorithm).size
  | .ascon128 _ => slice data n 16
  | .aegis _ => slice data n pageTagLenAegis

/-- The nonce in a stored page. -/
def Cipher.storedNonce (cipher : Cipher) (data : Bytes) (reserved : ℤ) : Bytes :=
  let n := data.length - cipher.nReserved reserved
  match cipher with
  | .aes128 _ | .aes256 _ | .rc4 _ => []
  | .chacha20 _ | .sqlcipher _ => slice data n 16
  | .ascon128 _ => slice data (n + 16) 16
  | .aegis c => slice data (n + pageTagLenAegis) c.nonceLength

/-- The tags of two inputs are equal only if the inputs are. -/
def Cipher.TagsSeparate (cipher : Cipher) (x y : TagInput) : Prop :=
  cipher.tagOf P x = cipher.tagOf P y → x = y

/-- The half of a key-stream block that keys the tag of ChaCha20 determines nonce and counter. -/
def Cipher.OneTimeKeysSeparate : Cipher → Prop
  | .chacha20 c => ∀ (v w : Bytes) (i j : UInt32), v.length = 12 → w.length = 12 →
      (P.chacha20Stream c.key v i 64).take 32 = (P.chacha20Stream c.key w j 64).take 32 →
        v = w ∧ i = j
  | _ => True

/-- For one nonce and two pages: the blocks of the key stream of ChaCha20 agree in the half that
keys the tag only if their counters do, and the hashes of Ascon-128 agree in the half that is the
one-time key only if the same was hashed. -/
def Cipher.OneTimeKeysSeparateAt (cipher : Cipher) (nonce : Bytes) (p q : ℕ) : Prop :=
  match cipher with
  | .chacha20 c =>
    (P.chacha20Stream c.key (nonce.take 12) (chacha20Counter nonce p) 64).take 32 =
        (P.chacha20Stream c.key (nonce.take 12) (chacha20Counter nonce q) 64).take 32 →
      chacha20Counter nonce p = chacha20Counter nonce q
  | .ascon128 c =>
    (P.asconHash (c.key ++ nonce ++ put4byte p)).take 16 =
        (P.asconHash (c.key ++ nonce ++ put4byte q)).take 16 →
      c.key ++ nonce ++ put4byte p = c.key ++ nonce ++ put4byte q
  | _ => True

end Definitions

/-- The lengths `AllocateAegisCipher` chooses. -/
def Cipher.AllocatedLengths : Cipher → Prop
  | .aegis c => c.nonceLength = aegisKeyLength c.aegisAlgorithm
  | _ => True

section Tags

variable {P : Primitives} {cipher : Cipher} {reserved hmacCheck : ℤ} {p q : ℕ} {a b : Bytes}

/-- A tag is valid if it is the one of the page's input. -/
theorem Cipher.tagValid_iff (hauth : cipher.authenticates reserved = true) (page : ℕ)
    (data : Bytes) : cipher.tagValid P page data reserved ↔
      cipher.storedTag data reserved = cipher.tagOf P (cipher.tagInput P page data reserved) := by
  cases cipher with
  | aes128 c => cases hauth
  | aes256 c => cases hauth
  | rc4 c => cases hauth
  | chacha20 c => exact Iff.rfl
  | sqlcipher c =>
    have hlen : (sqlCipherTag P c page (sqlCipherOffset c page)
        (data.length - sqlCipherNReserved c reserved) data).length =
        (HashAlgorithm.ofInt c.hmacAlgorithm).size := P.length_hmac _ _ _
    rw [Cipher.tagValid, hlen]
    exact Iff.rfl
  | ascon128 c => exact Iff.rfl
  | aegis c => exact Iff.rfl

/-- Two accepted images with the same tag have the same input, if their tags separate. -/
theorem tagInput_eq_of_accepted (hauth : cipher.authenticates reserved = true)
    (hcheck : hmacCheck ≠ 0) (ha : (builtinDecryptPage P cipher p a reserved hmacCheck).1 = .ok)
    (hb : (builtinDecryptPage P cipher q b reserved hmacCheck).1 = .ok)
    (htag : cipher.storedTag a reserved = cipher.storedTag b reserved)
    (hsep : cipher.TagsSeparate P (cipher.tagInput P p a reserved)
      (cipher.tagInput P q b reserved)) :
    cipher.tagInput P p a reserved = cipher.tagInput P q b reserved := by
  have hva := ((decryptPage_ok_iff 0 cipher p a reserved hmacCheck).mp ha).2 hcheck hauth
  have hvb := ((decryptPage_ok_iff 0 cipher q b reserved hmacCheck).mp hb).2 hcheck hauth
  rw [Cipher.tagValid_iff hauth] at hva hvb
  exact hsep (by rw [← hva, ← hvb, htag])

/-! ### The page number -/

theorem put4byte_inj (hp : p < 2 ^ 32) (hq : q < 2 ^ 32) (h : put4byte p = put4byte q) : p = q := by
  rw [← get4byte_put4byte hp, ← get4byte_put4byte hq, h]

theorem length_hmacPgnoBytes (hmacPgno : ℤ) (page : ℕ) :
    (hmacPgnoBytes hmacPgno page).length = 4 := by
  unfold hmacPgnoBytes
  split <;> rfl

theorem hmacPgnoBytes_inj {hmacPgno : ℤ} (hp : p < 2 ^ 32) (hq : q < 2 ^ 32)
    (h : hmacPgnoBytes hmacPgno p = hmacPgnoBytes hmacPgno q) : p = q := by
  unfold hmacPgnoBytes at h
  split at h
  · exact put4byte_inj hp hq h
  · rw [← load32LE_store32LE hp, ← load32LE_store32LE hq, h]

/-- The counter of ChaCha20 determines the page. -/
theorem chacha20Counter_inj {nonce : Bytes} (hp : p < 2 ^ 32) (hq : q < 2 ^ 32)
    (h : chacha20Counter nonce p = chacha20Counter nonce q) : p = q := by
  have hx : UInt32.ofNat p = UInt32.ofNat q := by
    rw [chacha20Counter, chacha20Counter] at h
    calc UInt32.ofNat p
        = UInt32.ofNat (load32LE (nonce.drop 12)) ^^^
            (UInt32.ofNat (load32LE (nonce.drop 12)) ^^^ UInt32.ofNat p) := by
          rw [← UInt32.xor_assoc, UInt32.xor_self, UInt32.zero_xor]
      _ = UInt32.ofNat q := by
          rw [h, ← UInt32.xor_assoc, UInt32.xor_self, UInt32.zero_xor]
  have hnat := congrArg UInt32.toNat hx
  rwa [UInt32.toNat_ofNat', UInt32.toNat_ofNat', Nat.mod_eq_of_lt hp, Nat.mod_eq_of_lt hq] at hnat

theorem Cipher.OneTimeKeysSeparate.at_nonce {c : ChaCha20Cipher}
    (h : (Cipher.chacha20 c).OneTimeKeysSeparate P) {nonce : Bytes} (hnonce : 12 ≤ nonce.length)
    (p q : ℕ) : (Cipher.chacha20 c).OneTimeKeysSeparateAt P nonce p q := by
  have htwelve : (nonce.take 12).length = 12 := by
    rw [List.length_take]
    omega
  exact fun heq => (h _ _ _ _ htwelve htwelve heq).2

/-- The one-time key of Ascon-128 determines the page, since the page is hashed. -/
theorem asconGenOtk_inj {c : Ascon128Cipher} {nonce : Bytes}
    (h : (Cipher.ascon128 c).OneTimeKeysSeparateAt P nonce p q) (hp : p < 2 ^ 32) (hq : q < 2 ^ 32)
    (hkey : asconGenOtk P c.key nonce p = asconGenOtk P c.key nonce q) : p = q :=
  put4byte_inj hp hq (List.append_cancel_left (h hkey))

/-- The last four bytes of the nonce of AEGIS are the page. -/
theorem slice_aegisGenOtk {c : AegisCipher} (hfour : 4 ≤ c.nonceLength) (nonce : Bytes) (page : ℕ) :
    slice ((aegisGenOtk P c nonce page).drop c.keyLength) (c.nonceLength - 4) 4 =
      put4byte page := by
  have hstream := P.length_aegisStream c.aegisAlgorithm (c.keyLength + c.nonceLength) nonce c.key
  rw [slice, List.drop_drop, ← slice,
    show c.keyLength + (c.nonceLength - 4) = c.keyLength + c.nonceLength - 4 by omega, aegisGenOtk]
  have hself := slice_splice_self (show c.keyLength + c.nonceLength - 4 + (put4byte page).length ≤
    (P.aegisStream c.aegisAlgorithm (c.keyLength + c.nonceLength) nonce c.key).length by
      rw [length_put4byte, hstream]; omega)
  rwa [length_put4byte] at hself

theorem chacha20NReserved_of_pos {legacy : ℤ} (h : 0 < chacha20NReserved legacy reserved) :
    chacha20NReserved legacy reserved = 32 := by
  rw [chacha20NReserved] at h ⊢
  split at h
  · omega
  · rw [if_neg ‹_›, pageReservedChaCha20]

/-- **Equal inputs with equal nonces are of one page.** -/
theorem page_eq_of_tagInput (hauth : cipher.authenticates reserved = true)
    (hlengths : cipher.AllocatedLengths)
    (hotk : cipher.OneTimeKeysSeparateAt P (cipher.storedNonce a reserved) p q) (hp : p < 2 ^ 32)
    (hq : q < 2 ^ 32) (hnonce : cipher.storedNonce a reserved = cipher.storedNonce b reserved)
    (h : cipher.tagInput P p a reserved = cipher.tagInput P q b reserved) : p = q := by
  cases cipher with
  | aes128 c => cases hauth
  | aes256 c => cases hauth
  | rc4 c => cases hauth
  | chacha20 c =>
    have hkey := congrArg TagInput.key h
    simp only [Cipher.tagInput, Cipher.storedNonce] at hkey hnonce
    rw [← hnonce] at hkey
    exact chacha20Counter_inj hp hq (hotk hkey)
  | sqlcipher c =>
    have hmessage := congrArg TagInput.message h
    refine hmacPgnoBytes_inj hp hq (List.append_inj_right' hmessage ?_)
    rw [length_hmacPgnoBytes, length_hmacPgnoBytes]
  | ascon128 c =>
    have hkey := congrArg TagInput.key h
    simp only [Cipher.tagInput, Cipher.storedNonce] at hkey hnonce
    rw [← hnonce] at hkey
    exact asconGenOtk_inj hotk hp hq hkey
  | aegis c =>
    have hfour : 4 ≤ c.nonceLength := by
      have hallocated : c.nonceLength = aegisKeyLength c.aegisAlgorithm := hlengths
      rcases aegisKeyLength_cases c.aegisAlgorithm with h16 | h32 <;> omega
    have hnpub := congrArg (fun x => slice x.nonce (c.nonceLength - 4) 4) h
    simp only [Cipher.tagInput, slice_aegisGenOtk hfour] at hnpub
    exact put4byte_inj hp hq hnpub

end Tags

/-! ### ChaCha20 -/

section ChaCha20

variable {P : Primitives} {c : ChaCha20Cipher} {reserved : ℤ} {p q : ℕ} {a b : Bytes}

/-- The tag of ChaCha20 covers everything in front of it. -/
theorem chacha20_image_eq (hpos : 0 < chacha20NReserved c.legacy reserved) (hlen : 32 ≤ a.length)
    (hlenb : b.length = a.length)
    (htag : (Cipher.chacha20 c).storedTag a reserved = (Cipher.chacha20 c).storedTag b reserved)
    (h : (Cipher.chacha20 c).tagInput P p a reserved =
      (Cipher.chacha20 c).tagInput P q b reserved) :
    b = a ∧ (Cipher.chacha20 c).storedNonce a reserved =
      (Cipher.chacha20 c).storedNonce b reserved := by
  have h32 := chacha20NReserved_of_pos hpos
  have hmessage := congrArg TagInput.message h
  simp only [Cipher.tagInput, Cipher.storedTag, Cipher.nReserved, h32, hlenb] at hmessage htag
  have hall : ∀ d : Bytes, d.length = a.length →
      d.take (a.length - 32 + 16) ++ slice d (a.length - 32 + 16) 16 = d := by
    intro d hd
    have hend : slice d (a.length - 32 + 16) 16 = d.drop (a.length - 32 + 16) :=
      List.take_of_length_le (by rw [List.length_drop]; omega)
    rw [hend, List.take_append_drop]
  have heq : b = a := by
    calc b = b.take (a.length - 32 + 16) ++ slice b (a.length - 32 + 16) 16 := (hall b hlenb).symm
      _ = a.take (a.length - 32 + 16) ++ slice a (a.length - 32 + 16) 16 := by rw [hmessage, htag]
      _ = a := hall a rfl
  rw [heq]
  exact ⟨rfl, rfl⟩

/-- **A ChaCha20 image is accepted unchanged or not at all.** A string that carries the tag of an
image stored for page `p`, and is accepted at page `q`, is that image, and the page is the same. -/
theorem chacha20_bound (P : Primitives) (c : ChaCha20Cipher)
    (hwf : saltedWellFormed c.salt c.plaintextHeaderSize) {p q : ℕ} (hp : p < 2 ^ 32)
    (hq : q < 2 ^ 32) {data image presented : Bytes} {reserved hmacCheck : ℤ} {env env' : Env}
    (hdata : 512 ≤ data.length) (hpos : 0 < chacha20NReserved c.legacy reserved)
    (himage : encryptPageChaCha20Cipher P c p data reserved env = (.ok, image, env'))
    (hlen : presented.length = image.length)
    (htag : (Cipher.chacha20 c).storedTag presented reserved =
      (Cipher.chacha20 c).storedTag image reserved)
    (hcheck : hmacCheck ≠ 0)
    (haccepted : (decryptPageChaCha20Cipher P c q presented reserved hmacCheck).1 = .ok)
    (hmac : (Cipher.chacha20 c).TagsSeparate P ((Cipher.chacha20 c).tagInput P p image reserved)
      ((Cipher.chacha20 c).tagInput P q presented reserved))
    (hstream : (Cipher.chacha20 c).OneTimeKeysSeparate P) : q = p ∧ presented = image := by
  have hauth : (Cipher.chacha20 c).authenticates reserved = true := decide_eq_true hpos
  have hfits : chacha20Fits c reserved = true := by
    have hok := ((decryptPage_ok_iff (P := P) 0 (.chacha20 c) q presented reserved hmacCheck).mp
      haccepted).1
    exact hok
  have hstored : ReadsPage (encryptPageChaCha20Cipher P c p data reserved env)
      (decryptPageChaCha20Cipher P c p · reserved hmacCheck) (chacha20NReserved c.legacy reserved) p
      data := chacha20_readsPage hwf hfits hdata
  rw [himage] at hstored
  have h512 : 512 ≤ image.length := by
    rw [show image.length = data.length from hstored.length_eq]
    exact hdata
  have hinput := tagInput_eq_of_accepted hauth hcheck hstored.dec_ok haccepted htag.symm hmac
  obtain ⟨heq, hnonce⟩ := chacha20_image_eq hpos (by omega) hlen htag.symm hinput
  refine ⟨?_, heq⟩
  have h32 : (Cipher.chacha20 c).nReserved reserved = 32 := chacha20NReserved_of_pos hpos
  have hnonceLength : ((Cipher.chacha20 c).storedNonce image reserved).length = 16 := by
    rw [Cipher.storedNonce, h32]
    exact length_slice_of_le (by omega)
  exact (page_eq_of_tagInput hauth trivial (hstream.at_nonce (by omega) p q) hp hq hnonce
    hinput).symm

end ChaCha20

/-- Primitives whose ChaCha20 key stream shows nonce and counter, whose Ascon hash shows the end of
what is hashed, whose `poly1305` and Ascon tags show a part of their keys and whose AEGIS tags show
their nonces. So different pages have different tags. -/
def countingPrimitives : Primitives where
  __ := nullPrimitives
  chacha20Stream := fun _ v c n => (v ++ store32LE c.toNat ++ zeros n).take n
  poly1305 := fun _ k => (k.drop 12 ++ zeros 16).take 16
  aegisTag := fun _ _ v _ => (v ++ zeros 32).take 32
  asconHash := fun m => (zeros 4 ++ m).drop m.length ++ zeros 28
  asconTag := fun _ _ k => (k ++ zeros 16).take 16
  length_chacha20Stream := by
    intro k v c n
    rw [List.length_take, List.length_append, length_zeros]
    omega
  length_poly1305 := by
    intro m k
    rw [List.length_take, List.length_append, length_zeros]
    omega
  length_aegisTag := by
    intro a c v k
    rw [List.length_take, List.length_append, length_zeros]
    omega
  length_asconHash := by
    intro m
    rw [List.length_append, List.length_drop, List.length_append, length_zeros, length_zeros]
    omega
  length_asconTag := by
    intro c v k
    rw [List.length_take, List.length_append, length_zeros]
    omega

theorem countingPrimitives_oneTimeKeysSeparate (c : ChaCha20Cipher) :
    (Cipher.chacha20 c).OneTimeKeysSeparate countingPrimitives := by
  intro v w i j hv hw h
  have hstart : ∀ (u : Bytes) (k : UInt32), u.length = 12 →
      ((countingPrimitives.chacha20Stream c.key u k 64).take 32).take 16 =
        u ++ store32LE k.toNat := by
    intro u k hu
    change (((u ++ store32LE k.toNat ++ zeros 64).take 64).take 32).take 16 = _
    have hlen : (u ++ store32LE k.toNat).length = 16 := by
      rw [List.length_append, hu, length_store32LE]
    rw [List.take_take, List.take_take]
    exact List.take_left' hlen
  have heq : v ++ store32LE i.toNat = w ++ store32LE j.toNat := by
    rw [← hstart v i hv, ← hstart w j hw, h]
  obtain ⟨hvw, hij⟩ := List.append_inj heq (hv.trans hw.symm)
  refine ⟨hvw, UInt32.toNat_inj.mp ?_⟩
  rw [← load32LE_store32LE i.toNat_lt, ← load32LE_store32LE j.toNat_lt, hij]

/-- A page of zeros, stored and presented again. -/
theorem chacha20_bound_zeros :
    let c : ChaCha20Cipher := ⟨0, 0, 64007, 0, zeros 32, zeros 16⟩
    let image := (encryptPageChaCha20Cipher countingPrimitives c 2 (zeros 512) 32 rc4Env).2.1
    let presented := image
    2 = 2 ∧ presented = image := by
  intro c image presented
  have hstored : ReadsPage (encryptPageChaCha20Cipher countingPrimitives c 2 (zeros 512) 32 rc4Env)
      (decryptPageChaCha20Cipher countingPrimitives c 2 · 32 1) (chacha20NReserved c.legacy 32) 2
      (zeros 512) := chacha20_readsPage ⟨length_zeros 16, by decide⟩ rfl (length_zeros 512).ge
  have hdata : 512 ≤ (zeros 512).length := (length_zeros 512).ge
  have himage : encryptPageChaCha20Cipher countingPrimitives c 2 (zeros 512) 32 rc4Env =
      (.ok, image, (encryptPageChaCha20Cipher countingPrimitives c 2 (zeros 512) 32 rc4Env).2.2) :=
    Prod.ext hstored.ok rfl
  have hpos : 0 < chacha20NReserved c.legacy 32 := by decide
  exact chacha20_bound countingPrimitives c ⟨length_zeros 16, by decide⟩ (by decide) (by decide)
    hdata hpos himage rfl rfl (show (1 : ℤ) ≠ 0 by decide) hstored.dec_ok (fun _ => rfl)
    (countingPrimitives_oneTimeKeysSeparate c)

set_option maxRecDepth 100000 in
/-- **The nonce alone does not bind a page.** The images of two pages that were stored with the same
nonce are accepted, each at its own place. -/
theorem chacha20_sameNonce :
    let P := countingPrimitives
    let c : ChaCha20Cipher := ⟨0, 0, 64007, 0, zeros 32, zeros 16⟩
    let image := (encryptPageChaCha20Cipher P c 2 (zeros 512) 32 rc4Env).2.1
    let presented := (encryptPageChaCha20Cipher P c 3 (zeros 512) 32 rc4Env).2.1
    (encryptPageChaCha20Cipher P c 2 (zeros 512) 32 rc4Env).1 = .ok ∧
      presented.length = image.length ∧
      (Cipher.chacha20 c).storedNonce presented 32 = (Cipher.chacha20 c).storedNonce image 32 ∧
      (decryptPageChaCha20Cipher P c 3 presented 32 1).1 = .ok ∧
      (Cipher.chacha20 c).TagsSeparate P ((Cipher.chacha20 c).tagInput P 2 image 32)
        ((Cipher.chacha20 c).tagInput P 3 presented 32) ∧
      (Cipher.chacha20 c).OneTimeKeysSeparate P ∧ ¬(3 = 2 ∧ presented = image) := by
  intro P c image presented
  refine ⟨by decide, by decide, by decide, by decide, ?_,
    countingPrimitives_oneTimeKeysSeparate c, by decide⟩
  exact fun h => absurd h (by decide)

/-! ### The content of two accepted images -/

/-- The size of the plaintext header. -/
def Cipher.plaintextHeaderSize : Cipher → ℤ
  | .aes128 _ | .aes256 _ | .rc4 _ => 0
  | .chacha20 c => c.plaintextHeaderSize
  | .sqlcipher c => c.plaintextHeaderSize
  | .ascon128 c => c.plaintextHeaderSize
  | .aegis c => c.plaintextHeaderSize

/-- Whether the tag covers the bytes `16` to `23` of page 1 when there is no plaintext header. -/
def Cipher.tagCoversHeader : Cipher → Bool
  | .chacha20 _ => true
  | .sqlcipher c => c.legacy ≠ 0
  | _ => false

section Content

variable {P : Primitives} {page : ℕ} {a b : Bytes} {reserved hmacCheck : ℤ}

/-- A byte of a page that was decrypted from `offset` on. -/
theorem getElem?_restoreHeader_splice {offset : ℕ} {body data : Bytes}
    (hin : offset + body.length ≤ data.length) (h16 : 16 ≤ data.length) (i : ℕ) :
    (restoreHeader page 0 (splice data offset body))[i]? =
      if page = 1 ∧ i < 16 then sqliteFileHeader[i]?
      else if i < offset then data[i]?
      else if i < offset + body.length then body[i - offset]? else data[i]? := by
  have hplain : usesPlaintextHeader page 0 = false := by simp [usesPlaintextHeader]
  rw [restoreHeader]
  by_cases hp : page = 1
  · rw [if_pos ⟨hp, hplain⟩, getElem?_splice, getElem?_splice hin, length_sqliteFileHeader]
    · by_cases hi : i < 16
      · simp [hp, hi]
      · simp [hp, hi]
    · rw [length_sqliteFileHeader, length_splice hin]
      omega
  · rw [if_neg fun h => hp h.1, getElem?_splice hin,
      if_neg (show ¬(page = 1 ∧ i < 16) from fun h => hp h.1)]

/-- Two pages that decrypt to the same bytes from `offset` on agree if they did in front of it. -/
theorem restored_agree_iff {offset usable : ℕ} {body : Bytes} (hlen : b.length = a.length)
    (hoff : if page = 1 then 16 ≤ offset else offset = 0) (husable : usable ≤ offset + body.length)
    (hin : offset + body.length ≤ a.length) (hle : offset ≤ usable) (h16 : 16 ≤ a.length) :
    (∀ i, i < usable → (restoreHeader page 0 (splice a offset body))[i]? =
        (restoreHeader page 0 (splice b offset body))[i]?) ↔
      page ≠ 1 ∨ slice a 16 (offset - 16) = slice b 16 (offset - 16) := by
  have hbyte : ∀ i, i < usable → ((restoreHeader page 0 (splice a offset body))[i]? =
      (restoreHeader page 0 (splice b offset body))[i]? ↔
        (page = 1 → 16 ≤ i → i < offset → a[i]? = b[i]?)) := by
    intro i hi
    rw [getElem?_restoreHeader_splice hin h16, getElem?_restoreHeader_splice (by omega) (by omega)]
    by_cases hp : page = 1
    · by_cases hi16 : i < 16
      · simp [hp, hi16, Nat.not_le.mpr hi16]
      · by_cases ho : i < offset
        · simp [hp, hi16, ho, Nat.le_of_not_lt hi16]
        · simp [hp, hi16, ho, show i < offset + body.length by omega]
    · rw [if_neg hp] at hoff
      have ho : ¬i < offset := by omega
      simp [hp, ho, show i < offset + body.length by omega]
  constructor
  · intro h
    by_cases hp : page = 1
    · refine Or.inr (List.ext_getElem? fun k => ?_)
      rw [getElem?_slice, getElem?_slice]
      by_cases hk : k < offset - 16
      · rw [if_pos hk, if_pos hk]
        exact (hbyte (16 + k) (by omega)).mp (h _ (by omega)) hp (by omega) (by omega)
      · rw [if_neg hk, if_neg hk]
    · exact Or.inl hp
  · intro h i hi
    refine (hbyte i hi).mpr fun hp h16i hio => ?_
    have hslice := h.resolve_left (fun hne => hne hp)
    have hk := congrArg (fun s : Bytes => s[i - 16]?) hslice
    simp only [getElem?_slice, if_pos (show i - 16 < offset - 16 by omega)] at hk
    rwa [show 16 + (i - 16) = i by omega] at hk

/-- What SQLCipher makes of an accepted image. -/
theorem decryptPageSQLCipherCipher_snd {c : SQLCipherCipher} {data : Bytes}
    (hpos : 0 < sqlCipherNReserved c reserved)
    (hok : (decryptPageSQLCipherCipher P c page data reserved hmacCheck).1 = .ok) :
    let n := data.length - sqlCipherNReserved c reserved
    let offset := sqlCipherOffset c page
    (decryptPageSQLCipherCipher P c page data reserved hmacCheck).2 =
      restoreHeader page c.plaintextHeaderSize (splice data offset
        (rijndaelDecrypt P c.key (slice data n 16) (slice data offset (n - offset)))) := by
  intro n offset
  simp only [decryptPageSQLCipherCipher, gt_iff_lt, hpos, if_true] at hok ⊢
  split at hok
  · rw [if_pos ‹_›]
    split at hok
    · exact absurd hok (badPage_ne_ok page)
    · rw [if_neg ‹_›]
  · exact absurd hok (badPage_ne_ok page)

/-- What Ascon-128 makes of an accepted image. -/
theorem decryptPageAscon128Cipher_snd {c : Ascon128Cipher} {data : Bytes}
    (hpos : 0 < aeadNReserved pageReservedAscon128 reserved)
    (hok : (decryptPageAscon128Cipher P c page data reserved hmacCheck).1 = .ok) :
    let n := data.length - aeadNReserved pageReservedAscon128 reserved
    let offset := aeadOffset c.plaintextHeaderSize page
    let nonce := slice data (n + 16) 16
    (decryptPageAscon128Cipher P c page data reserved hmacCheck).2 =
      restoreHeader page c.plaintextHeaderSize (splice data offset
        (P.asconDecrypt (slice data offset (n - offset)) nonce
          (asconGenOtk P c.key nonce page))) := by
  intro n offset nonce
  simp only [decryptPageAscon128Cipher, gt_iff_lt, hpos, if_true] at hok ⊢
  split at hok
  · rw [if_pos ‹_›]
    split at hok
    · exact absurd hok (badPage_ne_ok page)
    · rw [if_neg ‹_›]
  · exact absurd hok (badPage_ne_ok page)

/-- What AEGIS makes of an accepted image. -/
theorem decryptPageAegisCipher_snd {c : AegisCipher} {data : Bytes}
    (hpos : 0 < aeadNReserved (getReservedAegisCipher c) reserved)
    (hok : (decryptPageAegisCipher P c page data reserved hmacCheck).1 = .ok) :
    let n := data.length - aeadNReserved (getReservedAegisCipher c) reserved
    let offset := aeadOffset c.plaintextHeaderSize page
    let otk := aegisGenOtk P c (slice data (n + pageTagLenAegis) c.nonceLength) page
    (decryptPageAegisCipher P c page data reserved hmacCheck).2 =
      restoreHeader page c.plaintextHeaderSize (splice data offset
        (P.aegisDecryptNoTag c.aegisAlgorithm (slice data offset (n - offset))
          (otk.drop c.keyLength)
          (otk.take c.keyLength))) := by
  intro n offset otk
  simp only [decryptPageAegisCipher, gt_iff_lt, hpos, if_true] at hok ⊢
  split at hok
  · rw [if_pos ‹_›]
    split at hok
    · exact absurd hok (badPage_ne_ok page)
    · rw [if_neg ‹_›]
  · exact absurd hok (badPage_ne_ok page)

/-- Where the part of a page starts that the tag covers, when there is no plaintext header. -/
def Cipher.coveredFrom (cipher : Cipher) (page : ℕ) : ℕ :=
  if page = 1 then (if cipher.tagCoversHeader then 16 else 24) else 0

theorem Cipher.coveredFrom_le (cipher : Cipher) (page : ℕ) : cipher.coveredFrom page ≤ 24 := by
  rw [Cipher.coveredFrom]
  split
  · split <;> omega
  · omega

theorem sqlCipherOffset_eq {c : SQLCipherCipher} (h : c.plaintextHeaderSize = 0) :
    sqlCipherOffset c page = (Cipher.sqlcipher c).coveredFrom page := by
  have h0 :
      (if c.legacy = 0 ∨ c.legacy ≥ sqlcipherVersion4 then c.plaintextHeaderSize else 0) = 0 := by
    split
    · exact h
    · rfl
  rw [sqlCipherOffset, page1Offset, Cipher.coveredFrom, h0, Int.toNat_zero, Nat.max_zero,
    Cipher.tagCoversHeader]
  simp only [decide_eq_true_eq]

theorem aeadOffset_zero : aeadOffset 0 page = if page = 1 then 24 else 0 := by
  rw [aeadOffset, page1Offset, Int.toNat_zero, Nat.max_zero, cipherPage1Offset]

/-- **The content of two accepted images with the same input and nonce.** From where the tag starts
they decrypt to the same bytes. -/
theorem accepted_content {cipher : Cipher} (hwf : cipher.WellFormed)
    (hheader : cipher.plaintextHeaderSize = 0) (hauth : cipher.authenticates reserved = true)
    (hchacha : ∀ c, cipher ≠ .chacha20 c) (h512 : 512 ≤ a.length) (hlen : b.length = a.length)
    (ha : (builtinDecryptPage P cipher page a reserved hmacCheck).1 = .ok)
    (hb : (builtinDecryptPage P cipher page b reserved hmacCheck).1 = .ok)
    (hnonce : cipher.storedNonce a reserved = cipher.storedNonce b reserved)
    (h : cipher.tagInput P page a reserved = cipher.tagInput P page b reserved) :
    ∃ body : Bytes, cipher.coveredFrom page + body.length = a.length - cipher.nReserved reserved ∧
      (builtinDecryptPage P cipher page a reserved hmacCheck).2 =
        restoreHeader page 0 (splice a (cipher.coveredFrom page) body) ∧
      (builtinDecryptPage P cipher page b reserved hmacCheck).2 =
        restoreHeader page 0 (splice b (cipher.coveredFrom page) body) := by
  have h80 := cipher.nReserved_le_eighty hwf reserved
  have hmessage := congrArg TagInput.message h
  cases cipher with
  | aes128 c => cases hauth
  | aes256 c => cases hauth
  | rc4 c => cases hauth
  | chacha20 c => exact absurd rfl (hchacha c)
  | sqlcipher c =>
    have hpos : 0 < sqlCipherNReserved c reserved := (of_decide_eq_true hauth).2
    have h16 := sixteen_le_sqlCipherNReserved hpos
    have hle : (Cipher.sqlcipher c).coveredFrom page ≤ 24 := Cipher.coveredFrom_le _ page
    have hca := decryptPageSQLCipherCipher_snd hpos ha
    have hcb := decryptPageSQLCipherCipher_snd hpos hb
    obtain ⟨n, hn⟩ : ∃ n, a.length - sqlCipherNReserved c reserved = n := ⟨_, rfl⟩
    obtain ⟨offset, ho⟩ : ∃ o, (Cipher.sqlcipher c).coveredFrom page = o := ⟨_, rfl⟩
    have hheader : c.plaintextHeaderSize = 0 := hheader
    simp only [Cipher.tagInput, Cipher.storedNonce, Cipher.nReserved, hlen, hheader,
      sqlCipherOffset_eq hheader, hn, ho] at hmessage hnonce hca hcb h80 hle ⊢
    -- The message is the covered part of the page, the nonce and the page number.
    have hcovered := List.append_cancel_right hmessage
    have hbody : slice b offset (n - offset) = slice a offset (n - offset) := by
      have hpart : ∀ d : Bytes, slice d offset (n - offset) =
          slice (slice d offset (n + 16 - offset)) 0 (n - offset) := fun d => by
        rw [slice_slice (by omega), Nat.add_zero]
      rw [hpart a, hpart b, hcovered]
    rw [hbody, ← hnonce] at hcb
    refine ⟨_, ?_, hca, hcb⟩
    rw [length_rijndaelDecrypt P (length_slice_of_le (by omega)), length_slice_of_le (by omega)]
    · omega
    · rw [length_slice_of_le (by omega)]
      omega
  | ascon128 c =>
    have hpos : 0 < aeadNReserved pageReservedAscon128 reserved := of_decide_eq_true hauth
    have hle : (Cipher.ascon128 c).coveredFrom page ≤ 24 := Cipher.coveredFrom_le _ page
    have hca := decryptPageAscon128Cipher_snd hpos ha
    have hcb := decryptPageAscon128Cipher_snd hpos hb
    have hheader : c.plaintextHeaderSize = 0 := hheader
    have hoffset : aeadOffset 0 page = (Cipher.ascon128 c).coveredFrom page := aeadOffset_zero
    simp only [Cipher.tagInput, Cipher.storedNonce, Cipher.nReserved, hlen, hheader, hoffset]
      at hmessage hnonce hca hcb h80 ⊢
    rw [← hmessage, ← hnonce] at hcb
    refine ⟨_, ?_, hca, hcb⟩
    rw [P.length_asconDecrypt, length_slice_of_le (by omega)]
    omega
  | aegis c =>
    have hpos : 0 < aeadNReserved (getReservedAegisCipher c) reserved := of_decide_eq_true hauth
    have hle : (Cipher.aegis c).coveredFrom page ≤ 24 := Cipher.coveredFrom_le _ page
    have hca := decryptPageAegisCipher_snd hpos ha
    have hcb := decryptPageAegisCipher_snd hpos hb
    have hheader : c.plaintextHeaderSize = 0 := hheader
    have hoffset : aeadOffset 0 page = (Cipher.aegis c).coveredFrom page := aeadOffset_zero
    simp only [Cipher.tagInput, Cipher.storedNonce, Cipher.nReserved, hlen, hheader, hoffset]
      at hmessage hnonce hca hcb h80 ⊢
    rw [← hmessage, ← hnonce] at hcb
    refine ⟨_, ?_, hca, hcb⟩
    rw [P.length_aegisDecryptNoTag, length_slice_of_le (by omega)]
    omega

end Content

/-- A stored page is as long as the page and accepted at its place. -/
theorem encryptPage_accepted {P : Primitives} {cipher : Cipher} (hwf : cipher.WellFormed)
    {page : ℕ} {data : Bytes} {reserved : ℤ} {env : Env} (hmacCheck : ℤ)
    (hauth : cipher.authenticates reserved = true) (h512 : 512 ≤ data.length)
    (hok : (builtinEncryptPage P cipher page data reserved env).1 = .ok) :
    let image := (builtinEncryptPage P cipher page data reserved env).2.1
    image.length = data.length ∧
      (builtinDecryptPage P cipher page image reserved hmacCheck).1 = .ok := by
  have hfits : cipher.fits reserved = true := by
    have hcode := encryptPage_code (P := P) 0 cipher page data reserved env
    by_contra hne
    rw [if_neg hne] at hcode
    exact absurd (hcode.symm.trans hok) (by decide)
  cases cipher with
  | aes128 c => cases hauth
  | aes256 c => cases hauth
  | rc4 c => cases hauth
  | chacha20 c =>
    have h : ReadsPage (encryptPageChaCha20Cipher P c page data reserved env)
        (decryptPageChaCha20Cipher P c page · reserved hmacCheck) _ page data :=
      chacha20_readsPage hwf hfits h512
    exact ⟨h.length_eq, h.dec_ok⟩
  | sqlcipher c =>
    have h : ReadsPage (encryptPageSQLCipherCipher P c page data reserved env)
        (decryptPageSQLCipherCipher P c page · reserved hmacCheck) _ page data :=
      sqlcipher_readsPage hwf hfits h512
    exact ⟨h.length_eq, h.dec_ok⟩
  | ascon128 c =>
    have h : ReadsPage (encryptPageAscon128Cipher P c page data reserved env)
        (decryptPageAscon128Cipher P c page · reserved hmacCheck) _ page data :=
      ascon128_readsPage hwf hfits h512
    exact ⟨h.length_eq, h.dec_ok⟩
  | aegis c =>
    have h : ReadsPage (encryptPageAegisCipher P c page data reserved env)
        (decryptPageAegisCipher P c page · reserved hmacCheck) _ page data :=
      aegis_readsPage hwf.1 hwf.2 hfits h512
    exact ⟨h.length_eq, h.dec_ok⟩

/-- **What the tags of the salted ciphers protect.** Without a plaintext header, two images that are
accepted at one page with the same nonce and tag decrypt to the same content if and only if it is
not page 1, or the tag covers the bytes `16` to `23`, or the images have the same bytes there. An
image that was stored for a page is accepted at no other. -/
theorem salted_authentic_iff (P : Primitives) {cipher : Cipher} (hwf : cipher.WellFormed)
    (hlengths : cipher.AllocatedLengths) (hheader : cipher.plaintextHeaderSize = 0)
    {reserved hmacCheck : ℤ} (hreserved : reserved ≤ 255)
    (hauth : cipher.authenticates reserved = true) (hcheck : hmacCheck ≠ 0) :
    (∀ (page : ℕ) (a b : Bytes), 512 ≤ a.length → b.length = a.length →
      (builtinDecryptPage P cipher page a reserved hmacCheck).1 = .ok →
      (builtinDecryptPage P cipher page b reserved hmacCheck).1 = .ok →
      cipher.storedNonce a reserved = cipher.storedNonce b reserved →
      cipher.storedTag a reserved = cipher.storedTag b reserved →
      cipher.TagsSeparate P (cipher.tagInput P page a reserved)
        (cipher.tagInput P page b reserved) →
      ((∀ i, i < a.length - reserved.toNat →
          (builtinDecryptPage P cipher page a reserved hmacCheck).2[i]? =
            (builtinDecryptPage P cipher page b reserved hmacCheck).2[i]?) ↔
        page ≠ 1 ∨ cipher.tagCoversHeader = true ∨ slice a 16 8 = slice b 16 8)) ∧
    ∀ (p q : ℕ) (data : Bytes) (env : Env), p < 2 ^ 32 → q < 2 ^ 32 → 512 ≤ data.length →
      (builtinEncryptPage P cipher p data reserved env).1 = .ok →
      let image := (builtinEncryptPage P cipher p data reserved env).2.1
      cipher.TagsSeparate P (cipher.tagInput P p image reserved)
        (cipher.tagInput P q image reserved) →
      cipher.OneTimeKeysSeparateAt P (cipher.storedNonce image reserved) p q →
      q ≠ p → (builtinDecryptPage P cipher q image reserved hmacCheck).1 ≠ .ok := by
  constructor
  · intro page a b h512 hlen ha hb hnonce htag hsep
    have hinput := tagInput_eq_of_accepted hauth hcheck ha hb htag hsep
    by_cases hchacha : ∃ c, cipher = .chacha20 c
    · -- ChaCha20 leaves nothing out, so the images are the same.
      obtain ⟨c, rfl⟩ := hchacha
      obtain ⟨rfl, -⟩ := chacha20_image_eq (of_decide_eq_true hauth) (by omega) hlen htag hinput
      exact iff_of_true (fun _ _ => rfl) (Or.inr (Or.inl rfl))
    · obtain ⟨body, hbody, hda, hdb⟩ := accepted_content hwf hheader hauth
        (fun c hc => hchacha ⟨c, hc⟩) h512 hlen ha hb hnonce hinput
      have hfits := ((decryptPage_ok_iff 0 cipher page a reserved hmacCheck).mp ha).1
      have hle := Cipher.nReserved_le hfits
      have h24 := cipher.coveredFrom_le page
      have hoff :
          if page = 1 then 16 ≤ cipher.coveredFrom page else cipher.coveredFrom page = 0 := by
        rw [Cipher.coveredFrom]
        split
        · split <;> omega
        · rfl
      rw [hda, hdb, restored_agree_iff hlen hoff (by omega) (by omega) (by omega) (by omega)]
      refine or_congr_right' fun hp => ?_
      have hp1 : page = 1 := not_not.mp hp
      rw [Cipher.coveredFrom, if_pos hp1]
      cases cipher.tagCoversHeader with
      | true => exact iff_of_true (by simp [slice]) (Or.inl rfl)
      | false => simp
  · intro p q data env hp hq h512 hok image hsep hotk hne haccepted
    obtain ⟨-, hown⟩ := encryptPage_accepted hwf hmacCheck hauth h512 hok
    have hinput := tagInput_eq_of_accepted hauth hcheck hown haccepted rfl hsep
    exact hne (page_eq_of_tagInput hauth hlengths hotk hp hq rfl hinput).symm

/-- An AEGIS-256 cipher. -/
def aegis256Cipher : AegisCipher := ⟨2, 19456, 1, 4, 0, 32, 32, zeros 32, zeros 16⟩

/-- Page 1 as that cipher stores a page of zeros, and the same with another byte `16`. -/
def aegisImage : Bytes :=
  (builtinEncryptPage countingPrimitives (.aegis aegis256Cipher) 1 (zeros 512) 64 rc4Env).2.1

def aegisImageChanged : Bytes := splice aegisImage 16 [7]

/-- An Ascon-128 cipher. -/
def asconCipher : Ascon128Cipher := ⟨64007, 0, zeros 32, zeros 16⟩

/-- Page 1 as that cipher stores a page of zeros, and the same with another byte `16`. -/
def asconImage : Bytes :=
  (builtinEncryptPage countingPrimitives (.ascon128 asconCipher) 1 (zeros 512) 32 rc4Env).2.1

def asconImageChanged : Bytes := splice asconImage 16 [7]

set_option maxRecDepth 100000 in
/-- Two images of page 1, and an image of page 2 at page 3, for AEGIS and for Ascon-128. -/
theorem salted_authentic_iff_samples :
    (((∀ i, i < aegisImage.length - Int.toNat 64 →
            (builtinDecryptPage countingPrimitives (.aegis aegis256Cipher) 1 aegisImage 64
              1).2[i]? =
              (builtinDecryptPage countingPrimitives (.aegis aegis256Cipher) 1 aegisImageChanged 64
                1).2[i]?) ↔
          1 ≠ 1 ∨ (Cipher.aegis aegis256Cipher).tagCoversHeader = true ∨
            slice aegisImage 16 8 = slice aegisImageChanged 16 8) ∧
        (builtinDecryptPage countingPrimitives (.aegis aegis256Cipher) 3
          (builtinEncryptPage countingPrimitives (.aegis aegis256Cipher) 2 (zeros 512) 64
            rc4Env).2.1 64 1).1 ≠ .ok) ∧
      ((∀ i, i < asconImage.length - Int.toNat 32 →
            (builtinDecryptPage countingPrimitives (.ascon128 asconCipher) 1 asconImage 32
              1).2[i]? =
              (builtinDecryptPage countingPrimitives (.ascon128 asconCipher) 1 asconImageChanged 32
                1).2[i]?) ↔
          1 ≠ 1 ∨ (Cipher.ascon128 asconCipher).tagCoversHeader = true ∨
            slice asconImage 16 8 = slice asconImageChanged 16 8) ∧
        (builtinDecryptPage countingPrimitives (.ascon128 asconCipher) 3
          (builtinEncryptPage countingPrimitives (.ascon128 asconCipher) 2 (zeros 512) 32
            rc4Env).2.1 32 1).1 ≠ .ok := by
  have hcheck : (1 : ℤ) ≠ 0 := by decide
  have hne : (3 : ℕ) ≠ 2 := by decide
  constructor
  · have hwf : (Cipher.aegis aegis256Cipher).WellFormed :=
      ⟨⟨length_zeros 16, by decide⟩, by decide⟩
    have h := salted_authentic_iff countingPrimitives hwf
        (show (32 : ℕ) = aegisKeyLength 4 by decide)
      rfl (show (64 : ℤ) ≤ 255 by decide) (by decide) hcheck
    refine ⟨h.1 1 aegisImage aegisImageChanged (by decide) (by decide) (by decide) (by decide)
      (by decide) (by decide) fun _ => by decide, ?_⟩
    exact h.2 2 3 (zeros 512) rc4Env (by decide) (by decide) (length_zeros 512).ge (by decide)
      (fun heq => absurd heq (by decide)) trivial hne
  · have hwf : (Cipher.ascon128 asconCipher).WellFormed := ⟨length_zeros 16, by decide⟩
    have h := salted_authentic_iff countingPrimitives hwf trivial rfl
        (show (32 : ℤ) ≤ 255 by decide)
      (by decide) hcheck
    refine ⟨h.1 1 asconImage asconImageChanged (by decide) (by decide) (by decide) (by decide)
      (by decide) (by decide) fun _ => by decide, ?_⟩
    -- the hashes for the pages 2 and 3 differ, and with them the keys of the tags
    exact h.2 2 3 (zeros 512) rc4Env (by decide) (by decide) (length_zeros 512).ge (by decide)
      (fun heq => absurd heq (by decide)) (fun heq => absurd heq (by decide)) hne

set_option maxRecDepth 100000 in
/-- **A byte of the header that no tag protects.** Both images are accepted with one nonce, one tag
and one tag input, and they decrypt to pages that differ in byte 16. -/
theorem aegis_header_unprotected :
    (builtinDecryptPage countingPrimitives (.aegis aegis256Cipher) 1 aegisImage 64 1).1 = .ok ∧
      (builtinDecryptPage countingPrimitives (.aegis aegis256Cipher) 1 aegisImageChanged 64 1).1 =
        .ok ∧
      (Cipher.aegis aegis256Cipher).storedNonce aegisImage 64 =
        (Cipher.aegis aegis256Cipher).storedNonce aegisImageChanged 64 ∧
      (Cipher.aegis aegis256Cipher).storedTag aegisImage 64 =
        (Cipher.aegis aegis256Cipher).storedTag aegisImageChanged 64 ∧
      (Cipher.aegis aegis256Cipher).TagsSeparate countingPrimitives
        ((Cipher.aegis aegis256Cipher).tagInput countingPrimitives 1 aegisImage 64)
        ((Cipher.aegis aegis256Cipher).tagInput countingPrimitives 1 aegisImageChanged 64) ∧
      (builtinDecryptPage countingPrimitives (.aegis aegis256Cipher) 1 aegisImage 64 1).2[16]? ≠
        (builtinDecryptPage countingPrimitives (.aegis aegis256Cipher) 1 aegisImageChanged 64
          1).2[16]? :=
  ⟨by decide, by decide, by decide, by decide,
    fun _ => by decide, by decide⟩

end MultipleCiphers
