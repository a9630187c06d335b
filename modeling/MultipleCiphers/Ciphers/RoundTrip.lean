import MultipleCiphers.Ciphers.AegisKey

/-!
# Reading a page back

A page that a built-in cipher encrypted and that is decrypted with the same cipher, page number
and reserved bytes is the page it was. Two things qualify this. The bytes a cipher puts its nonce
and its tag in are lost: they belong to the cipher, and SQLite keeps nothing there. And page 1 is
put together again from parts of it that are known, its first sixteen bytes above all, so it has to
be page 1 of a database to begin with.

## What a cipher looks like

The key operations produce ciphers with a salt of sixteen bytes and a plaintext header of at most
a hundred, which is the maximum of that parameter. `Cipher.WellFormed` says so. The lengths matter:
a longer salt would overwrite encrypted bytes, and a longer plaintext header would leave less than
one block to encrypt.

## Main results

* `decryptPage_encryptPage` — the round trip, for every built-in cipher.
* `Cipher.nReserved_le` — a cipher replaces no more bytes than it was allowed to.
* `builtinAllocate_wellFormed`, `builtinGenerateKey_wellFormed` — the key operations produce
  well-formed ciphers.
-/

namespace MultipleCiphers

open Bytes

/-! ### Definitions -/

/-- The number of bytes at the end of a page that a cipher replaces if it is told that `reserved`
bytes are reserved. -/
def Cipher.nReserved (cipher : Cipher) (reserved : ℤ) : ℕ :=
  match cipher with
  | .aes128 _ | .aes256 _ | .rc4 _ => 0
  | .chacha20 c => chacha20NReserved c.legacy reserved
  | .sqlcipher c => sqlCipherNReserved c reserved
  | .ascon128 _ => aeadNReserved pageReservedAscon128 reserved
  | .aegis c => aeadNReserved (getReservedAegisCipher c) reserved

/-- A salt and a plaintext header of the lengths the key operations give them. -/
def saltedWellFormed (salt : Bytes) (plaintextHeaderSize : ℤ) : Prop :=
  salt.length = 16 ∧ plaintextHeaderSize ≤ 100

/-- A cipher as the key operations leave it. -/
def Cipher.WellFormed : Cipher → Prop
  | .aes128 _ | .aes256 _ | .rc4 _ => True
  | .chacha20 c => saltedWellFormed c.salt c.plaintextHeaderSize
  | .sqlcipher c => saltedWellFormed c.salt c.plaintextHeaderSize
  | .ascon128 c => saltedWellFormed c.salt c.plaintextHeaderSize
  | .aegis c => saltedWellFormed c.salt c.plaintextHeaderSize ∧ c.nonceLength ≤ 32

/-- A page as SQLite hands it to the codec: page 1 begins with the file header, and its page size
and payload fractions are valid, which SQLite checks before it writes to a database. -/
structure DatabasePage (page : ℕ) (data : Bytes) : Prop where
  length_le : 512 ≤ data.length
  header : page = 1 → slice data 0 16 = sqliteFileHeader
  headerValid : page = 1 → wxHeaderValid (slice data 16 8) = true

/-- As much of it as the ciphers with reserved bytes need: of page 1 only the file header. -/
structure HeaderPage (page : ℕ) (data : Bytes) : Prop where
  length_le : 512 ≤ data.length
  header : page = 1 → slice data 0 16 = sqliteFileHeader

theorem DatabasePage.headerPage {page : ℕ} {data : Bytes} (h : DatabasePage page data) :
    HeaderPage page data :=
  ⟨h.length_le, h.header⟩

/-- Any page but the first may have any content. -/
theorem databasePage_zeros {n : ℕ} (hn : 512 ≤ n) : DatabasePage 2 (zeros n) where
  length_le := by rwa [length_zeros]
  header := fun h => absurd h (by decide)
  headerValid := fun h => absurd h (by decide)

/-- Two pages that agree but for the last `n` bytes. -/
structure SameContent (n : ℕ) (a b : Bytes) : Prop where
  length_eq : a.length = b.length
  take_eq : a.take (a.length - n) = b.take (b.length - n)

theorem SameContent.refl (n : ℕ) (a : Bytes) : SameContent n a a := ⟨rfl, rfl⟩

theorem SameContent.of_getElem? {n : ℕ} {a b : Bytes} (hlen : a.length = b.length)
    (h : ∀ i, i < b.length - n → a[i]? = b[i]?) : SameContent n a b := by
  refine ⟨hlen, List.ext_getElem? fun i => ?_⟩
  rw [hlen, List.getElem?_take, List.getElem?_take]
  by_cases hi : i < b.length - n
  · rw [if_pos hi, if_pos hi, h i hi]
  · rw [if_neg hi, if_neg hi]

/-- The outcome `enc` of an encryption of `data`, and what decrypting it with `dec` gives: the
page is encrypted in place, and read back but for the last `n` bytes. -/
structure ReadsBack (enc : ResultCode × Bytes × Env) (dec : Bytes → ResultCode × Bytes) (n : ℕ)
    (data : Bytes) : Prop where
  ok : enc.1 = .ok
  length_eq : enc.2.1.length = data.length
  dec_ok : (dec enc.2.1).1 = .ok
  content : SameContent n (dec enc.2.1).2 data

/-- A cipher without reserved bytes that never fails. -/
theorem ReadsBack.of_eq {stored data : Bytes} {dec : Bytes → Bytes} {env : Env}
    (hlen : stored.length = data.length) (hdec : dec stored = data) :
    ReadsBack (.ok, stored, env) (fun b => (.ok, dec b)) 0 data :=
  ⟨rfl, hlen, rfl, by rw [hdec]; exact SameContent.refl 0 data⟩

/-- The same for a page of any content: it is encrypted in place and accepted again. It is read back
if page 1 begins with the file header, which the decryption restores. -/
structure ReadsPage (enc : ResultCode × Bytes × Env) (dec : Bytes → ResultCode × Bytes) (n page : ℕ)
    (data : Bytes) : Prop where
  ok : enc.1 = .ok
  length_eq : enc.2.1.length = data.length
  dec_ok : (dec enc.2.1).1 = .ok
  content : HeaderPage page data → SameContent n (dec enc.2.1).2 data

theorem ReadsPage.readsBack {enc : ResultCode × Bytes × Env} {dec : Bytes → ResultCode × Bytes}
    {n page : ℕ} {data : Bytes} (h : ReadsPage enc dec n page data) (hpage : HeaderPage page data) :
    ReadsBack enc dec n data :=
  ⟨h.ok, h.length_eq, h.dec_ok, h.content hpage⟩

/-- No built-in cipher replaces more than eighty bytes of a page. -/
theorem Cipher.nReserved_le_eighty {cipher : Cipher} (hwf : cipher.WellFormed) (reserved : ℤ) :
    cipher.nReserved reserved ≤ 80 := by
  cases cipher with
  | aes128 c => exact Nat.zero_le _
  | aes256 c => exact Nat.zero_le _
  | rc4 c => exact Nat.zero_le _
  | chacha20 c =>
    simp only [Cipher.nReserved, chacha20NReserved, pageReservedChaCha20]
    split <;> omega
  | sqlcipher c =>
    simp only [Cipher.nReserved, sqlCipherNReserved, getReservedSQLCipherCipher]
    split
    · omega
    · split
      · split <;> omega
      · omega
  | ascon128 c =>
    simp only [Cipher.nReserved, aeadNReserved, pageReservedAscon128]
    split <;> omega
  | aegis c =>
    have hnonce : c.nonceLength ≤ 32 := hwf.2
    simp only [Cipher.nReserved, aeadNReserved, getReservedAegisCipher, pageTagLenAegis]
    split <;> omega

/-- A cipher that accepts `reserved` reserved bytes replaces no more than these. -/
theorem Cipher.nReserved_le {cipher : Cipher} {reserved : ℤ} (hfits : cipher.fits reserved = true) :
    cipher.nReserved reserved ≤ reserved.toNat := by
  cases cipher with
  | aes128 c => exact Nat.zero_le _
  | aes256 c => exact Nat.zero_le _
  | rc4 c => exact Nat.zero_le _
  | chacha20 c =>
    simp only [Cipher.fits, chacha20Fits, Bool.not_eq_true', decide_eq_false_iff_not] at hfits
    simp only [Cipher.nReserved]
    omega
  | sqlcipher c =>
    simp only [Cipher.fits, sqlCipherFits, Bool.not_eq_true', decide_eq_false_iff_not] at hfits
    simp only [Cipher.nReserved]
    omega
  | ascon128 c =>
    simp only [Cipher.fits, aeadFits, Bool.not_eq_true', decide_eq_false_iff_not] at hfits
    simp only [Cipher.nReserved]
    omega
  | aegis c =>
    simp only [Cipher.fits, aeadFits, Bool.not_eq_true', decide_eq_false_iff_not] at hfits
    simp only [Cipher.nReserved]
    omega

/-! ### The AES ciphers and RC4 -/

section Unsalted

variable {P : Primitives}

/-- What the AES ciphers make of page 1: the first half of the encrypted first block, the bytes
`16` to `23` of the ciphertext, those of the plaintext, and the rest of the ciphertext. -/
theorem wxPageEncrypt_page1 {enc : Bytes → Bytes} {header info rest e₁ e₂ f₁ f₂ : Bytes}
    (hheader : header.length = 16) (hinfo : info.length = 8) (he₁ : e₁.length = 8)
    (he₂ : e₂.length = 8) (hf₁ : f₁.length = 8) (hf₂ : f₂.length = rest.length)
    (he : enc header = e₁ ++ e₂) (hf : enc (info ++ rest) = f₁ ++ f₂) :
    wxPageEncrypt 0 enc 1 (header ++ info ++ rest) = e₁ ++ f₁ ++ info ++ f₂ := by
  have h₁ : slice (header ++ info ++ rest) 16 8 = info := slice_append hheader hinfo
  have h₂ : slice (header ++ info ++ rest) 0 16 = header := by
    simpa using slice_append (a := []) (c := info ++ rest) rfl hheader
  have h₃ : splice (header ++ info ++ rest) 0 (e₁ ++ e₂) = e₁ ++ e₂ ++ (info ++ rest) := by
    have hlen : (e₁ ++ e₂).length = header.length := by simp [hheader, he₁, he₂]
    simpa using splice_append (a := []) (c := info ++ rest) rfl hlen
  have h₄ : (e₁ ++ e₂ ++ (info ++ rest)).drop 16 = info ++ rest :=
    List.drop_left' (by simp [he₁, he₂])
  have h₅ : splice (e₁ ++ e₂ ++ (info ++ rest)) 16 (f₁ ++ f₂) = e₁ ++ e₂ ++ (f₁ ++ f₂) := by
    have hlen : (f₁ ++ f₂).length = (info ++ rest).length := by simp [hinfo, hf₁, hf₂]
    simpa using splice_append (c := []) (show (e₁ ++ e₂).length = 16 by simp [he₁, he₂]) hlen
  have h₆ : slice (e₁ ++ e₂ ++ (f₁ ++ f₂)) 16 8 = f₁ := by
    rw [← List.append_assoc]
    exact slice_append (by simp [he₁, he₂]) hf₁
  have h₇ : splice (e₁ ++ e₂ ++ (f₁ ++ f₂)) 8 f₁ = e₁ ++ f₁ ++ (f₁ ++ f₂) :=
    splice_append he₁ (by rw [hf₁, he₂])
  have h₈ : splice (e₁ ++ f₁ ++ (f₁ ++ f₂)) 16 info = e₁ ++ f₁ ++ info ++ f₂ := by
    rw [← List.append_assoc]
    exact splice_append (by simp [he₁, hf₁]) (by rw [hinfo, hf₁])
  simp only [wxPageEncrypt, ne_eq, not_true_eq_false, if_false, if_true, h₁, h₂, he, h₃, h₄, hf,
    h₅, h₆, h₇, h₈]

/-- And what they make of the result: everything back but the first block, which is restored. -/
theorem wxPageDecrypt_page1 {dec : Bytes → Bytes} {info rest e₁ f₁ f₂ : Bytes}
    (hvalid : wxHeaderValid info = true) (hinfo : info.length = 8) (he₁ : e₁.length = 8)
    (hf₁ : f₁.length = 8) (hf₂ : f₂.length = rest.length) (hf : dec (f₁ ++ f₂) = info ++ rest) :
    wxPageDecrypt 0 dec 1 (e₁ ++ f₁ ++ info ++ f₂) = sqliteFileHeader ++ info ++ rest := by
  have h₁ : slice (e₁ ++ f₁ ++ info ++ f₂) 16 8 = info := slice_append (by simp [he₁, hf₁]) hinfo
  have h₂ : slice (e₁ ++ f₁ ++ info ++ f₂) 8 8 = f₁ := by
    rw [List.append_assoc (e₁ ++ f₁)]
    exact slice_append he₁ hf₁
  have h₃ : splice (e₁ ++ f₁ ++ info ++ f₂) 16 f₁ = e₁ ++ f₁ ++ (f₁ ++ f₂) := by
    rw [← List.append_assoc (e₁ ++ f₁)]
    exact splice_append (by simp [he₁, hf₁]) (by rw [hinfo, hf₁])
  have h₄ : (e₁ ++ f₁ ++ (f₁ ++ f₂)).drop 16 = f₁ ++ f₂ := List.drop_left' (by simp [he₁, hf₁])
  have h₅ : splice (e₁ ++ f₁ ++ (f₁ ++ f₂)) 16 (info ++ rest) = e₁ ++ f₁ ++ info ++ rest := by
    have hlen : (info ++ rest).length = (f₁ ++ f₂).length := by simp [hinfo, hf₁, hf₂]
    simpa using splice_append (c := []) (show (e₁ ++ f₁).length = 16 by simp [he₁, hf₁]) hlen
  have h₆ : slice (e₁ ++ f₁ ++ info ++ rest) 16 8 = info :=
    slice_append (by simp [he₁, hf₁]) hinfo
  have h₇ : splice (e₁ ++ f₁ ++ info ++ rest) 0 sqliteFileHeader =
      sqliteFileHeader ++ info ++ rest := by
    have hlen : sqliteFileHeader.length = (e₁ ++ f₁).length := by simp [he₁, hf₁]
    simpa using splice_append (a := []) (c := info ++ rest) rfl hlen
  simp only [wxPageDecrypt, ne_eq, not_true_eq_false, if_false, if_true, h₁, hvalid, and_self,
    h₂, h₃, h₄, hf, h₅, h₆, h₇]

/-- The page functions of the AES ciphers undo one another if the cipher calls do. -/
theorem wxPageDecrypt_wxPageEncrypt {legacy : ℤ} {enc dec : Bytes → Bytes} {page : ℕ}
    {data : Bytes} (hlen : ∀ b : Bytes, 16 ≤ b.length → (enc b).length = b.length)
    (hdec : ∀ b : Bytes, 16 ≤ b.length → dec (enc b) = b) (hpage : DatabasePage page data) :
    (wxPageEncrypt legacy enc page data).length = data.length ∧
      wxPageDecrypt legacy dec page (wxPageEncrypt legacy enc page data) = data := by
  have h512 := hpage.length_le
  by_cases hl : legacy = 0
  swap
  · simp [wxPageEncrypt, wxPageDecrypt, hl, hlen data (by omega), hdec data (by omega)]
  by_cases hp : page = 1
  swap
  · simp [wxPageEncrypt, wxPageDecrypt, hl, hp, hlen data (by omega), hdec data (by omega)]
  subst hl hp
  have hheader := hpage.header rfl
  have hvalid := hpage.headerValid rfl
  have hinfo : (slice data 16 8).length = 8 := length_slice_of_le (by omega)
  have hrest : (data.drop 24).length = data.length - 24 := List.length_drop
  have hdata : sqliteFileHeader ++ slice data 16 8 ++ data.drop 24 = data := by
    rw [← hheader]
    simpa [slice] using take_slice_drop data 16 8
  -- both ciphertexts in the two parts page 1 uses of them
  have hbody : 16 ≤ (slice data 16 8 ++ data.drop 24).length := by
    simp only [List.length_append, hinfo, hrest]
    omega
  have hE := hlen sqliteFileHeader (by simp)
  have hF := hlen _ hbody
  simp only [length_sqliteFileHeader] at hE
  simp only [List.length_append, hinfo, hrest] at hF
  have he := (List.take_append_drop 8 (enc sqliteFileHeader)).symm
  have hf := (List.take_append_drop 8 (enc (slice data 16 8 ++ data.drop 24))).symm
  have hstored := wxPageEncrypt_page1 length_sqliteFileHeader hinfo (by simp [hE]) (by simp [hE])
    (by simp [hF]) (by simp [hF]) he hf
  rw [hdata] at hstored
  rw [hstored]
  have he₁ : ((enc sqliteFileHeader).take 8).length = 8 := by simp [hE]
  have hf₂ : ((enc (slice data 16 8 ++ data.drop 24)).drop 8).length = (data.drop 24).length := by
    simp [hF]
  have hf₁ : ((enc (slice data 16 8 ++ data.drop 24)).take 8).length = 8 := by simp [hF]
  have hback : dec ((enc (slice data 16 8 ++ data.drop 24)).take 8 ++
      (enc (slice data 16 8 ++ data.drop 24)).drop 8) = slice data 16 8 ++ data.drop 24 := by
    rw [List.take_append_drop, hdec _ hbody]
  have hdecrypt := wxPageDecrypt_page1 hvalid hinfo he₁ hf₁ hf₂ hback
  refine ⟨?_, ?_⟩
  · simp only [List.length_append, List.length_take, List.length_drop, hE, hF, hinfo]
    omega
  · rw [hdecrypt, hdata]

end Unsalted

/-! ### Page 1 of a salted cipher -/

section Page1

variable {page offset n : ℕ} {plaintextHeaderSize : ℤ} {salt data : Bytes}

theorem page1Offset_le (h : plaintextHeaderSize ≤ 100) (ho : offset ≤ 100) :
    page1Offset page offset plaintextHeaderSize ≤ 100 := by
  rw [page1Offset]
  by_cases hp : page = 1
  · rw [if_pos hp]
    omega
  · rw [if_neg hp]
    omega

theorem le_page1Offset : page = 1 → offset ≤ page1Offset page offset plaintextHeaderSize := by
  intro hp
  rw [page1Offset, if_pos hp]
  exact le_max_left _ _

theorem length_storeSalt (hsalt : salt.length = 16) (hlen : 16 ≤ data.length) :
    (storeSalt page plaintextHeaderSize salt data).length = data.length := by
  rw [storeSalt]
  by_cases h : page = 1 ∧ usesPlaintextHeader page plaintextHeaderSize = false
  · rw [if_pos h, length_splice (by omega)]
  · rw [if_neg h]

/-- The salt changes nothing behind its place. -/
theorem getElem?_storeSalt (hsalt : salt.length = 16) (hlen : 16 ≤ data.length) {i : ℕ}
    (hi : page = 1 → usesPlaintextHeader page plaintextHeaderSize = false → 16 ≤ i) :
    (storeSalt page plaintextHeaderSize salt data)[i]? = data[i]? := by
  rw [storeSalt]
  by_cases h : page = 1 ∧ usesPlaintextHeader page plaintextHeaderSize = false
  · have h16 := hi h.1 h.2
    rw [if_pos h, getElem?_splice (by omega), if_neg (by omega), if_neg (by omega)]
  · rw [if_neg h]

theorem slice_storeSalt (hsalt : salt.length = 16) (hlen : 16 ≤ data.length) {o len : ℕ}
    (ho : page = 1 → 16 ≤ o) :
    slice (storeSalt page plaintextHeaderSize salt data) o len = slice data o len := by
  refine List.ext_getElem? fun i => ?_
  rw [getElem?_slice, getElem?_slice]
  by_cases hi : i < len
  · rw [if_pos hi, if_pos hi, getElem?_storeSalt hsalt hlen]
    intro hp _
    have := ho hp
    omega
  · rw [if_neg hi, if_neg hi]

/-- A buffer that agrees with page 1 behind the salt is page 1 once the header is restored. -/
theorem sameContent_restoreHeader {buffer : Bytes} {m : ℕ} (hpage : HeaderPage page data)
    (hlen : buffer.length = data.length)
    (h : ∀ i, i < data.length - m →
      (page = 1 → usesPlaintextHeader page plaintextHeaderSize = false → 16 ≤ i) →
      buffer[i]? = data[i]?) :
    SameContent m (restoreHeader page plaintextHeaderSize buffer) data := by
  have h512 := hpage.length_le
  rw [restoreHeader]
  by_cases hs : page = 1 ∧ usesPlaintextHeader page plaintextHeaderSize = false
  · have hb : 0 + sqliteFileHeader.length ≤ buffer.length := by
      rw [length_sqliteFileHeader]
      omega
    rw [if_pos hs]
    refine SameContent.of_getElem? (by rw [length_splice hb, hlen]) fun i hi => ?_
    rw [getElem?_splice hb, if_neg (by omega), length_sqliteFileHeader]
    by_cases hi16 : i < 16
    · rw [if_pos (by omega), ← hpage.header hs.1, getElem?_slice, if_pos (by omega)]
      congr 1
      omega
    · rw [if_neg (by omega)]
      exact h i hi fun _ _ => by omega
  · rw [if_neg hs]
    refine SameContent.of_getElem? hlen fun i hi => h i hi fun hp hu => absurd ⟨hp, hu⟩ hs

/-- The end of every decryption by a block of its own: a stored page whose encrypted part decrypts
to that of the page, and that agrees with the page before it, gives the page back. -/
theorem sameContent_decryptBody {stored plain : Bytes} (hpage : HeaderPage page data)
    (hlen : stored.length = data.length) (hoff : offset ≤ n) (hn : n ≤ data.length)
    (hplain : plain = slice data offset (n - offset))
    (h : ∀ i, i < offset →
      (page = 1 → usesPlaintextHeader page plaintextHeaderSize = false → 16 ≤ i) →
      stored[i]? = data[i]?) :
    SameContent (data.length - n)
      (restoreHeader page plaintextHeaderSize (splice stored offset plain)) data := by
  have hpl : plain.length = n - offset := by
    rw [hplain]
    exact length_slice_of_le (by omega)
  have hin : offset + plain.length ≤ stored.length := by omega
  refine sameContent_restoreHeader hpage (by rw [length_splice hin, hlen]) fun i hi hs => ?_
  rw [getElem?_splice hin, hpl]
  by_cases hio : i < offset
  · rw [if_pos hio, h i hio hs]
  · rw [if_neg hio, if_pos (by omega), hplain, getElem?_slice, if_pos (by omega)]
    congr 1
    omega

end Page1

theorem chacha20Rng_eq (env : Env) (n : ℕ) :
    ∃ nonce env', env.chacha20Rng n = (nonce, env') ∧ nonce.length = n :=
  ⟨_, _, rfl, Env.length_chacha20Rng env n⟩

section Salted

variable {P : Primitives} {page : ℕ} {data : Bytes} {reserved hmacCheck : ℤ} {env : Env}

/-! ### ChaCha20 -/

section Stream

variable {key nonce : Bytes} {offset n : ℕ}

theorem length_chacha20XorPage (hoff : offset ≤ n) (hn : n ≤ data.length) :
    (chacha20XorPage P key nonce page offset n data).length = data.length := by
  have hs : (slice data offset (n - offset)).length = n - offset := length_slice_of_le (by omega)
  rw [chacha20XorPage, length_splice]
  simp only [length_xorBytes, hs, chacha20PageStream, Primitives.length_chacha20Stream]
  omega

/-- The stream combines the bytes from `offset` to `n`, each by itself. -/
theorem getElem?_chacha20XorPage (hoff : offset ≤ n) (hn : n ≤ data.length) (i : ℕ) :
    (chacha20XorPage P key nonce page offset n data)[i]? =
      if offset ≤ i ∧ i < n then
        data[i]?.map (· ^^^ (chacha20PageStream P key nonce page (n - offset)).getD (i - offset) 0)
      else data[i]? := by
  have hs : (slice data offset (n - offset)).length = n - offset := length_slice_of_le (by omega)
  have hk : (chacha20PageStream P key nonce page (n - offset)).length = n - offset := by
    simp [chacha20PageStream]
  have hx : (xorBytes (slice data offset (n - offset))
      (chacha20PageStream P key nonce page (n - offset))).length = n - offset := by
    rw [length_xorBytes, hs, hk, min_self]
  rw [chacha20XorPage, getElem?_splice (by omega), hx]
  by_cases h₁ : i < offset
  · rw [if_pos h₁, if_neg (by omega)]
  · rw [if_neg h₁]
    by_cases h₂ : i < n
    · rw [if_pos (by omega), if_pos (by omega), getElem?_xorBytes (by omega), getElem?_slice,
        if_pos (by omega)]
      congr 2
      omega
    · rw [if_neg (by omega), if_neg (by omega)]

/-- The stream behind its range changes nothing. -/
theorem slice_chacha20XorPage_of_ge (hoff : offset ≤ n) (hn : n ≤ data.length) {o len : ℕ}
    (ho : n ≤ o) :
    slice (chacha20XorPage P key nonce page offset n data) o len = slice data o len := by
  refine List.ext_getElem? fun i => ?_
  rw [getElem?_slice, getElem?_slice, getElem?_chacha20XorPage hoff hn,
    if_neg (show ¬(offset ≤ o + i ∧ o + i < n) by omega)]

/-- Where a stored page agrees with the page combined with the stream, combining it again gives
the page. -/
theorem getElem?_chacha20XorPage_twice {stored data' : Bytes} (hoff : offset ≤ n)
    (hn : n ≤ data.length) (hlen : stored.length = data.length) {i : ℕ}
    (hd : data'.length = data.length) (hdata : data'[i]? = data[i]?)
    (h : stored[i]? = (chacha20XorPage P key nonce page offset n data')[i]?) :
    (chacha20XorPage P key nonce page offset n stored)[i]? = data[i]? := by
  rw [getElem?_chacha20XorPage hoff (by omega), h, getElem?_chacha20XorPage hoff (by omega), hdata]
  by_cases ho : offset ≤ i ∧ i < n
  · rw [if_pos ho, if_pos ho, Option.map_map]
    cases data[i]? with
    | none => rfl
    | some b =>
      simp only [Option.map_some, Function.comp_apply, UInt8.xor_assoc, UInt8.xor_self,
        UInt8.xor_zero]
  · rw [if_neg ho, if_neg ho]

end Stream

theorem chacha20Offset_le {c : ChaCha20Cipher} (h : c.plaintextHeaderSize ≤ 100) :
    chacha20Offset c page ≤ 100 := by
  refine page1Offset_le h ?_
  by_cases hl : c.legacy ≠ 0
  · rw [if_pos hl]
    omega
  · rw [if_neg hl, cipherPage1Offset]
    omega

/-- What a page stored with the stream gives when it is read with it: the page, if the stored one
differs only in the salt and behind `n`. -/
theorem sameContent_chacha20XorPage {key nonce salt stored data' : Bytes} {offset n : ℕ}
    {plaintextHeaderSize : ℤ} (hpage : HeaderPage page data) (hoff : offset ≤ n)
    (hn : n ≤ data.length) (hsalt : salt.length = 16) (hd : data'.length = data.length)
    (hdata : ∀ i, i < n → data'[i]? = data[i]?) (hlen : stored.length = data.length)
    (h : ∀ i, i < n → stored[i]? = (storeSalt page plaintextHeaderSize salt
      (chacha20XorPage P key nonce page offset n data'))[i]?) :
    SameContent (data.length - n)
      (restoreHeader page plaintextHeaderSize (chacha20XorPage P key nonce page offset n stored))
      data := by
  have h512 := hpage.length_le
  have hx : (chacha20XorPage P key nonce page offset n data').length = data.length := by
    rw [length_chacha20XorPage hoff (by omega), hd]
  refine sameContent_restoreHeader hpage ?_ fun i hi hs => ?_
  · rw [length_chacha20XorPage hoff (by omega), hlen]
  · have hin : i < n := by omega
    refine getElem?_chacha20XorPage_twice hoff hn hlen hd (hdata i hin) ?_
    rw [h i hin, getElem?_storeSalt hsalt (by omega) hs]

theorem chacha20_readsPage {c : ChaCha20Cipher}
    (hwf : saltedWellFormed c.salt c.plaintextHeaderSize)
    (hfits : chacha20Fits c reserved = true) (h512 : 512 ≤ data.length) :
    ReadsPage (encryptPageChaCha20Cipher P c page data reserved env)
      (decryptPageChaCha20Cipher P c page · reserved hmacCheck)
      (chacha20NReserved c.legacy reserved) page data := by
  obtain ⟨hsalt, hheader⟩ := hwf
  have hoff : chacha20Offset c page ≤ 100 := chacha20Offset_le hheader
  by_cases hr : 0 < chacha20NReserved c.legacy reserved
  · have hr32 : chacha20NReserved c.legacy reserved = 32 := by
      rw [chacha20NReserved] at hr ⊢
      by_cases h0 : reserved = 0 ∧ c.legacy = 0
      · rw [if_pos h0] at hr
        omega
      · rw [if_neg h0, pageReservedChaCha20]
    obtain ⟨nonce, env', hrng, hnonce⟩ := chacha20Rng_eq env 16
    obtain ⟨n, hn⟩ : ∃ n, data.length = n + 32 := ⟨data.length - 32, by omega⟩
    have hsub : data.length - 32 = n := by omega
    -- the page as it is built up: with the nonce, encrypted, with the salt, with the tag
    obtain ⟨d₁, hd₁⟩ : ∃ d, d = splice data n nonce := ⟨_, rfl⟩
    have hl₁ : d₁.length = data.length := by rw [hd₁, length_splice (by omega)]
    obtain ⟨d₂, hd₂⟩ : ∃ d, d = chacha20XorPage P c.key nonce page (chacha20Offset c page) n d₁ :=
      ⟨_, rfl⟩
    have hl₂ : d₂.length = data.length := by
      rw [hd₂, length_chacha20XorPage (by omega) (by omega), hl₁]
    obtain ⟨d₃, hd₃⟩ : ∃ d, d = storeSalt page c.plaintextHeaderSize c.salt d₂ := ⟨_, rfl⟩
    have hl₃ : d₃.length = data.length := by rw [hd₃, length_storeSalt hsalt (by omega), hl₂]
    obtain ⟨tag, htag⟩ : ∃ tag, tag =
        P.poly1305 (d₃.take (n + 16)) ((chacha20Otk P c.key nonce page).take 32) := ⟨_, rfl⟩
    have hltag : tag.length = 16 := by rw [htag, Primitives.length_poly1305]
    obtain ⟨stored, hst⟩ : ∃ d, d = splice d₃ (n + 16) tag := ⟨_, rfl⟩
    have hlst : stored.length = data.length := by rw [hst, length_splice (by omega), hl₃]
    have henc : encryptPageChaCha20Cipher P c page data reserved env = (.ok, stored, env') := by
      simp [encryptPageChaCha20Cipher, hfits, hr32, hrng, hsub, hst, htag, hd₃, hd₂, hd₁]
    -- what the decryption finds in the reserved area
    have hnonce' : slice stored n 16 = nonce := by
      rw [hst, slice_splice_of_le (by omega) le_rfl, hd₃, slice_storeSalt hsalt (by omega)
        (fun _ => by omega), hd₂, slice_chacha20XorPage_of_ge (by omega) (by omega) le_rfl, hd₁,
        ← hnonce, slice_splice_self (by omega)]
    have htag' : slice stored (n + 16) 16 = tag := by
      rw [hst, ← hltag, slice_splice_self (by omega)]
    have htake : stored.take (n + 16) = d₃.take (n + 16) := by
      have : slice stored 0 (n + 16) = slice d₃ 0 (n + 16) := by
        rw [hst, slice_splice_of_le (by omega) (by omega)]
      simpa [slice] using this
    have hdec : decryptPageChaCha20Cipher P c page stored reserved hmacCheck =
        (.ok, restoreHeader page c.plaintextHeaderSize
          (chacha20XorPage P c.key nonce page (chacha20Offset c page) n stored)) := by
      simp [decryptPageChaCha20Cipher, hfits, hr32, hlst, hsub, hnonce', htake, htag', htag]
    refine ⟨by rw [henc], by rw [henc, hlst], by rw [henc, hdec], fun hpage => ?_⟩
    simp only [henc, hdec, hr32]
    rw [show (32 : ℕ) = data.length - n by omega]
    refine sameContent_chacha20XorPage hpage (by omega) (by omega) hsalt hl₁ (fun i hi => ?_) hlst
      fun i hi => ?_
    · rw [hd₁, getElem?_splice (by omega), if_pos hi]
    · rw [hst, getElem?_splice (by omega), if_pos (by omega), hd₃, hd₂]
  · have hr0 : chacha20NReserved c.legacy reserved = 0 := by omega
    have hx : (chacha20XorPage P c.key (sqlite3mcGenerateInitialVector P page) page
        (chacha20Offset c page) data.length data).length = data.length :=
      length_chacha20XorPage (by omega) le_rfl
    have hlen : (storeSalt page c.plaintextHeaderSize c.salt (chacha20XorPage P c.key
        (sqlite3mcGenerateInitialVector P page) page (chacha20Offset c page)
        data.length data)).length =
        data.length := by
      rw [length_storeSalt hsalt (by rw [hx]; omega), hx]
    constructor
    · simp [encryptPageChaCha20Cipher, hfits, hr0]
    · simpa [encryptPageChaCha20Cipher, hfits, hr0] using hlen
    · simp [encryptPageChaCha20Cipher, decryptPageChaCha20Cipher, hfits, hr0]
    · intro hpage
      simp only [encryptPageChaCha20Cipher, decryptPageChaCha20Cipher, hfits, hr0, if_true,
        gt_iff_lt, lt_self_iff_false, if_false, Nat.sub_zero, hlen]
      simpa using sameContent_chacha20XorPage hpage (by omega) le_rfl hsalt rfl
        (fun _ _ => rfl) hlen fun _ _ => rfl

/-! ### SQLCipher -/

theorem sqlCipherOffset_le {c : SQLCipherCipher} (h : c.plaintextHeaderSize ≤ 100) :
    sqlCipherOffset c page ≤ 100 := by
  refine page1Offset_le ?_ ?_
  · by_cases hl : c.legacy = 0 ∨ c.legacy ≥ sqlcipherVersion4
    · rwa [if_pos hl]
    · rw [if_neg hl]
      omega
  · by_cases hl : c.legacy ≠ 0
    · rw [if_pos hl]
      omega
    · rw [if_neg hl]
      omega

theorem le_sqlCipherOffset {c : SQLCipherCipher} (hp : page = 1) : 16 ≤ sqlCipherOffset c page := by
  refine le_trans ?_ (le_page1Offset hp)
  by_cases hl : c.legacy ≠ 0
  · rw [if_pos hl]
  · rw [if_neg hl]
    omega

theorem getReservedSQLCipherCipher_le (c : SQLCipherCipher) :
    getReservedSQLCipherCipher c ≤ 80 := by
  rw [getReservedSQLCipherCipher]
  by_cases h : c.hmacUse ≠ 0
  · rw [if_pos h]
    cases HashAlgorithm.ofInt c.hmacAlgorithm <;> decide
  · rw [if_neg h]
    omega

/-- SQLCipher has room for the nonce if it uses reserved bytes at all. -/
theorem sixteen_le_sqlCipherNReserved {c : SQLCipherCipher} {reserved : ℤ}
    (h : 0 < sqlCipherNReserved c reserved) : 16 ≤ sqlCipherNReserved c reserved := by
  rw [sqlCipherNReserved] at h ⊢
  split at h
  · omega
  · rw [if_neg ‹_›, getReservedSQLCipherCipher]
    omega

/-- The tag fits into the reserved area behind the nonce. -/
theorem sqlCipher_tag_le {c : SQLCipherCipher} (h : c.hmacUse = 1) :
    16 + (HashAlgorithm.ofInt c.hmacAlgorithm).size ≤ getReservedSQLCipherCipher c := by
  rw [getReservedSQLCipherCipher, if_pos (by rw [h]; decide)]
  cases HashAlgorithm.ofInt c.hmacAlgorithm <;> decide

/-- The tag of a page that was stored with one: it covers the bytes before it. -/
theorem sqlCipherTag_congr {c : SQLCipherCipher} {n offset : ℕ} {a b : Bytes}
    (h : slice a offset (n + 16 - offset) = slice b offset (n + 16 - offset)) :
    sqlCipherTag P c page offset n a = sqlCipherTag P c page offset n b := by
  rw [sqlCipherTag, sqlCipherTag, h]

/-- Decrypting a page whose tag, if it has one, is right. -/
theorem decryptPageSQLCipherCipher_ok {c : SQLCipherCipher} {stored plain iv : Bytes} {n : ℕ}
    (hfits : sqlCipherFits c reserved = true)
    (hn : stored.length - sqlCipherNReserved c reserved = n)
    (hiv : (if 0 < sqlCipherNReserved c reserved then slice stored n 16
      else sqlite3mcGenerateInitialVector P page) = iv)
    (htag : c.hmacUse = 1 → 0 < sqlCipherNReserved c reserved →
      slice stored (n + 16) (sqlCipherTag P c page (sqlCipherOffset c page) n stored).length =
        sqlCipherTag P c page (sqlCipherOffset c page) n stored)
    (hplain : rijndaelDecrypt P c.key iv
      (slice stored (sqlCipherOffset c page) (n - sqlCipherOffset c page)) = plain) :
    decryptPageSQLCipherCipher P c page stored reserved hmacCheck =
      (.ok, restoreHeader page c.plaintextHeaderSize
        (splice stored (sqlCipherOffset c page) plain)) := by
  have hcheck : ¬(c.hmacUse = 1 ∧ 0 < sqlCipherNReserved c reserved ∧ hmacCheck ≠ 0 ∧
      slice stored (n + 16) (sqlCipherTag P c page (sqlCipherOffset c page) n stored).length ≠
        sqlCipherTag P c page (sqlCipherOffset c page) n stored) := by
    rintro ⟨huse, hr, -, hne⟩
    exact hne (htag huse hr)
  simp only [decryptPageSQLCipherCipher, hfits, if_true, hn, gt_iff_lt, hiv, hcheck, if_false,
    hplain]

theorem sqlcipher_readsPage {c : SQLCipherCipher}
    (hwf : saltedWellFormed c.salt c.plaintextHeaderSize) (hfits : sqlCipherFits c reserved = true)
    (h512 : 512 ≤ data.length) :
    ReadsPage (encryptPageSQLCipherCipher P c page data reserved env)
      (decryptPageSQLCipherCipher P c page · reserved hmacCheck)
      (sqlCipherNReserved c reserved) page data := by
  obtain ⟨hsalt, hheader⟩ := hwf
  have hoff : sqlCipherOffset c page ≤ 100 := sqlCipherOffset_le hheader
  have hoff16 : page = 1 → 16 ≤ sqlCipherOffset c page := le_sqlCipherOffset
  obtain ⟨offset, ho⟩ : ∃ o, o = sqlCipherOffset c page := ⟨_, rfl⟩
  rw [← ho] at hoff hoff16
  by_cases hr : 0 < sqlCipherNReserved c reserved
  · obtain ⟨r, hreq⟩ : ∃ r, r = getReservedSQLCipherCipher c := ⟨_, rfl⟩
    have hrr : sqlCipherNReserved c reserved = r := by
      rw [sqlCipherNReserved] at hr ⊢
      by_cases h0 : reserved = 0 ∧ c.legacy = 0
      · rw [if_pos h0] at hr
        omega
      · rw [if_neg h0, hreq]
    have hr80 : r ≤ 80 := hreq ▸ getReservedSQLCipherCipher_le c
    have hr16 : 16 ≤ r := by
      rw [hreq, getReservedSQLCipherCipher]
      omega
    obtain ⟨rng, env', hrng, hlrng⟩ := chacha20Rng_eq env 128
    obtain ⟨n, hn⟩ : ∃ n, data.length = n + r := ⟨data.length - r, by omega⟩
    have hsub : data.length - r = n := by omega
    have hiv : (rng.take 16).length = 16 := by simp [hlrng]
    have hs : (slice data offset (n - offset)).length = n - offset := length_slice_of_le (by omega)
    -- the page as it is built up: encrypted, with the nonce, with the salt, with the tag
    obtain ⟨body, hbody⟩ : ∃ b, b = rijndaelEncrypt P c.key (rng.take 16)
        (slice data offset (n - offset)) := ⟨_, rfl⟩
    have hlb : body.length = n - offset := by
      rw [hbody, length_rijndaelEncrypt P hiv (by omega), hs]
    obtain ⟨d₁, hd₁⟩ : ∃ d, d = splice data offset body := ⟨_, rfl⟩
    have hl₁ : d₁.length = data.length := by rw [hd₁, length_splice (by omega)]
    have hnonce : (rng.take r).length = r := by
      rw [List.length_take]
      omega
    obtain ⟨d₂, hd₂⟩ : ∃ d, d = splice d₁ n (rng.take r) := ⟨_, rfl⟩
    have hl₂ : d₂.length = data.length := by rw [hd₂, length_splice (by omega), hl₁]
    obtain ⟨d₃, hd₃⟩ : ∃ d, d = storeSalt page c.plaintextHeaderSize c.salt d₂ := ⟨_, rfl⟩
    have hl₃ : d₃.length = data.length := by rw [hd₃, length_storeSalt hsalt (by omega), hl₂]
    obtain ⟨tag, htag⟩ : ∃ tag, tag = sqlCipherTag P c page offset n d₃ := ⟨_, rfl⟩
    have hltag : c.hmacUse = 1 → n + 16 + tag.length ≤ d₃.length := by
      intro huse
      have := sqlCipher_tag_le huse
      rw [htag, sqlCipherTag, Primitives.length_hmac]
      omega
    obtain ⟨stored, hst⟩ : ∃ d, d = if c.hmacUse = 1 then splice d₃ (n + 16) tag else d₃ :=
      ⟨_, rfl⟩
    have hlst : stored.length = data.length := by
      by_cases huse : c.hmacUse = 1
      · rw [hst, if_pos huse, length_splice (hltag huse), hl₃]
      · rw [hst, if_neg huse, hl₃]
    have henc : encryptPageSQLCipherCipher P c page data reserved env = (.ok, stored, env') := by
      simp [encryptPageSQLCipherCipher, hfits, hrr, hrng, hsub, hst, htag, hd₃, hd₂, hd₁, hbody,
        show 0 < r by omega, ← ho]
    -- before the tag nothing changes any more
    have hbefore : ∀ o len, o + len ≤ n + 16 → slice stored o len = slice d₃ o len := by
      intro o len hle
      by_cases huse : c.hmacUse = 1
      · rw [hst, if_pos huse, slice_splice_of_le (hltag huse) hle]
      · rw [hst, if_neg huse]
    have hiv' : slice stored n 16 = rng.take 16 := by
      rw [hbefore n 16 le_rfl, hd₃, slice_storeSalt hsalt (by omega) (fun _ => by omega), hd₂,
        slice_splice_inside (by omega) le_rfl (by omega), Nat.sub_self, slice, List.drop_zero,
        List.take_take, min_eq_left hr16]
    have hbody' : slice stored offset (n - offset) = body := by
      rw [hbefore _ _ (by omega), hd₃, slice_storeSalt hsalt (by omega) hoff16, hd₂,
        slice_splice_of_le (by omega) (by omega), hd₁, ← hlb, slice_splice_self (by omega)]
    have htag' : sqlCipherTag P c page offset n stored = tag := by
      rw [htag]
      exact sqlCipherTag_congr (hbefore _ _ (by omega))
    have hdec : decryptPageSQLCipherCipher P c page stored reserved hmacCheck =
        (.ok, restoreHeader page c.plaintextHeaderSize
          (splice stored (sqlCipherOffset c page) (slice data offset (n - offset)))) := by
      refine decryptPageSQLCipherCipher_ok (n := n) hfits (by rw [hrr, hlst, hsub])
        (by rw [hrr, if_pos (by omega), hiv']) (fun huse _ => ?_) ?_
      · rw [← ho, htag', hst, if_pos huse, slice_splice_self (hltag huse)]
      · rw [← ho, hbody', hbody, rijndaelDecrypt_rijndaelEncrypt P hiv (by omega)]
    refine ⟨by rw [henc], by rw [henc, hlst], by rw [henc, hdec], fun hpage => ?_⟩
    simp only [henc, hdec, hrr, ← ho]
    rw [show r = data.length - n by omega]
    refine sameContent_decryptBody hpage hlst (by omega) (by omega) rfl fun i hi hs16 => ?_
    have hslice : ∀ b : Bytes, b[i]? = (slice b i 1)[0]? := fun b => by
      rw [getElem?_slice, if_pos (by omega), Nat.add_zero]
    rw [hslice stored, hbefore i 1 (by omega), ← hslice, hd₃,
      getElem?_storeSalt hsalt (by omega) hs16,
      hd₂, getElem?_splice (by omega), if_pos (by omega), hd₁, getElem?_splice (by omega),
        if_pos hi]
  · have hr0 : sqlCipherNReserved c reserved = 0 := by omega
    obtain ⟨iv, hiv⟩ : ∃ iv, iv = sqlite3mcGenerateInitialVector P page := ⟨_, rfl⟩
    have hliv : iv.length = 16 := by rw [hiv, length_sqlite3mcGenerateInitialVector]
    have hs : (slice data offset (data.length - offset)).length = data.length - offset :=
      length_slice_of_le (by omega)
    obtain ⟨body, hbody⟩ : ∃ b, b = rijndaelEncrypt P c.key iv
        (slice data offset (data.length - offset)) := ⟨_, rfl⟩
    have hlb : body.length = data.length - offset := by
      rw [hbody, length_rijndaelEncrypt P hliv (by omega), hs]
    have hl₁ : (splice data offset body).length = data.length := length_splice (by omega)
    obtain ⟨stored, hst⟩ : ∃ d, d = storeSalt page c.plaintextHeaderSize c.salt
        (splice data offset body) := ⟨_, rfl⟩
    have hlst : stored.length = data.length := by rw [hst, length_storeSalt hsalt (by omega), hl₁]
    have htake : iv.take 16 = iv := List.take_of_length_le hliv.le
    have henc : encryptPageSQLCipherCipher P c page data reserved env = (.ok, stored, env) := by
      simp [encryptPageSQLCipherCipher, hfits, hr0, ← hiv, htake, hst, hbody, ← ho]
    have hbody' : slice stored offset (data.length - offset) = body := by
      rw [hst, slice_storeSalt hsalt (by omega) hoff16, ← hlb, slice_splice_self (by omega)]
    have hdec : decryptPageSQLCipherCipher P c page stored reserved hmacCheck =
        (.ok, restoreHeader page c.plaintextHeaderSize
          (splice stored (sqlCipherOffset c page) (slice data offset (data.length - offset)))) := by
      refine decryptPageSQLCipherCipher_ok (n := data.length) hfits
        (by rw [hr0, hlst, Nat.sub_zero]) (by rw [if_neg hr, ← hiv]) (fun _ h => absurd h hr) ?_
      rw [← ho, hbody', hbody, rijndaelDecrypt_rijndaelEncrypt P hliv (by omega)]
    refine ⟨by rw [henc], by rw [henc, hlst], by rw [henc, hdec], fun hpage => ?_⟩
    simp only [henc, hdec, hr0, ← ho]
    rw [show 0 = data.length - data.length by omega]
    refine sameContent_decryptBody hpage hlst (by omega) le_rfl rfl fun i hi hs16 => ?_
    rw [hst, getElem?_storeSalt hsalt (by omega) hs16, getElem?_splice (by omega), if_pos hi]

/-! ### Ascon-128 and AEGIS -/

theorem aeadOffset_le {plaintextHeaderSize : ℤ} (h : plaintextHeaderSize ≤ 100) :
    aeadOffset plaintextHeaderSize page ≤ 100 :=
  page1Offset_le h (by rw [cipherPage1Offset]; omega)

theorem le_aeadOffset {plaintextHeaderSize : ℤ} (hp : page = 1) :
    16 ≤ aeadOffset plaintextHeaderSize page :=
  le_trans (by rw [cipherPage1Offset]; omega) (le_page1Offset hp)

theorem aeadNReserved_of_pos {own : ℕ} (h : 0 < aeadNReserved own reserved) :
    aeadNReserved own reserved = own := by
  rw [aeadNReserved] at h ⊢
  by_cases h0 : reserved = 0
  · rw [if_pos h0] at h
    omega
  · rw [if_neg h0]

/-- How both build up a page with reserved bytes: something at the end, the ciphertext in the
middle, something between the two, and the salt at the start. What each wrote is found again. -/
theorem aead_stored {n offset o₁ o₂ : ℕ} {plaintextHeaderSize : ℤ} {salt x body y stored : Bytes}
    (hst : stored = storeSalt page plaintextHeaderSize salt
      (splice (splice (splice data o₁ x) offset body) o₂ y))
    (hsalt : salt.length = 16) (h16 : 16 ≤ offset + 16 ∧ 16 ≤ n) (hoff16 : page = 1 → 16 ≤ offset)
    (hbody : offset + body.length = n) (hn : n ≤ o₁) (hn₂ : n ≤ o₂)
    (hx : o₁ + x.length ≤ data.length) (hy : o₂ + y.length ≤ data.length)
    (hdis : o₂ + y.length ≤ o₁ ∨ o₁ + x.length ≤ o₂) :
    stored.length = data.length ∧ slice stored o₁ x.length = x ∧
      slice stored offset body.length = body ∧
      slice stored o₂ y.length = y ∧
      ∀ i, i < offset → (page = 1 → usesPlaintextHeader page plaintextHeaderSize = false → 16 ≤ i) →
        stored[i]? = data[i]? := by
  have hl₁ : (splice data o₁ x).length = data.length := length_splice hx
  have hl₂ : (splice (splice data o₁ x) offset body).length = data.length := by
    rw [length_splice (by omega), hl₁]
  have hl₃ : (splice (splice (splice data o₁ x) offset body) o₂ y).length = data.length := by
    rw [length_splice (by omega), hl₂]
  have hslice : ∀ o len, (page = 1 → 16 ≤ o) → slice stored o len =
      slice (splice (splice (splice data o₁ x) offset body) o₂ y) o len := fun o len ho => by
    rw [hst, slice_storeSalt hsalt (by omega) ho]
  refine ⟨by rw [hst, length_storeSalt hsalt (by omega), hl₃], ?_, ?_, ?_, fun i hi hs => ?_⟩
  · have hxs : slice (splice (splice data o₁ x) offset body) o₁ x.length = x := by
      rw [slice_splice_of_ge (by omega) (by omega), slice_splice_self hx]
    rw [hslice _ _ fun _ => by omega]
    rcases hdis with h | h
    · rw [slice_splice_of_ge (by omega) h, hxs]
    · rw [slice_splice_of_le (by omega) h, hxs]
  · rw [hslice _ _ hoff16, slice_splice_of_le (by omega) (by omega), slice_splice_self (by omega)]
  · rw [hslice _ _ fun _ => by omega, slice_splice_self (by omega)]
  · rw [hst, getElem?_storeSalt hsalt (by omega) hs, getElem?_splice (by omega), if_pos (by omega),
      getElem?_splice (by omega), if_pos hi, getElem?_splice hx, if_pos (by omega)]

/-- The same without reserved bytes. -/
theorem aead_stored_plain {offset : ℕ} {plaintextHeaderSize : ℤ} {salt body stored : Bytes}
    (hst : stored = storeSalt page plaintextHeaderSize salt (splice data offset body))
    (hsalt : salt.length = 16) (h16 : 16 ≤ data.length) (hoff16 : page = 1 → 16 ≤ offset)
    (hbody : offset + body.length = data.length) :
    stored.length = data.length ∧ slice stored offset body.length = body ∧
      ∀ i, i < offset → (page = 1 → usesPlaintextHeader page plaintextHeaderSize = false → 16 ≤ i) →
        stored[i]? = data[i]? := by
  have hl : (splice data offset body).length = data.length := length_splice (by omega)
  refine ⟨by rw [hst, length_storeSalt hsalt (by omega), hl], ?_, fun i hi hs => ?_⟩
  · rw [hst, slice_storeSalt hsalt (by omega) hoff16, slice_splice_self (by omega)]
  · rw [hst, getElem?_storeSalt hsalt (by omega) hs, getElem?_splice (by omega), if_pos hi]

theorem ascon128_readsPage {c : Ascon128Cipher}
    (hwf : saltedWellFormed c.salt c.plaintextHeaderSize)
    (hfits : aeadFits pageReservedAscon128 reserved = true) (h512 : 512 ≤ data.length) :
    ReadsPage (encryptPageAscon128Cipher P c page data reserved env)
      (decryptPageAscon128Cipher P c page · reserved hmacCheck)
      (aeadNReserved pageReservedAscon128 reserved) page data := by
  obtain ⟨hsalt, hheader⟩ := hwf
  obtain ⟨offset, ho⟩ : ∃ o, o = aeadOffset c.plaintextHeaderSize page := ⟨_, rfl⟩
  have hoff : offset ≤ 100 := ho ▸ aeadOffset_le hheader
  have hoff16 : page = 1 → 16 ≤ offset := ho ▸ le_aeadOffset
  by_cases hr : 0 < aeadNReserved pageReservedAscon128 reserved
  · have hrr : aeadNReserved pageReservedAscon128 reserved = 32 := aeadNReserved_of_pos hr
    obtain ⟨nonce, env', hrng, hnonce⟩ := chacha20Rng_eq env 16
    obtain ⟨n, hn⟩ : ∃ n, data.length = n + 32 := ⟨data.length - 32, by omega⟩
    have hsub : data.length - 32 = n := by omega
    have hs : (slice data offset (n - offset)).length = n - offset := length_slice_of_le (by omega)
    obtain ⟨body, hbody⟩ : ∃ b, b = P.asconEncrypt (slice data offset (n - offset)) nonce
        (asconGenOtk P c.key nonce page) := ⟨_, rfl⟩
    have hlb : body.length = n - offset := by rw [hbody, Primitives.length_asconEncrypt, hs]
    obtain ⟨tag, htag⟩ : ∃ t, t = P.asconTag body nonce (asconGenOtk P c.key nonce page) :=
      ⟨_, rfl⟩
    have hltag : tag.length = 16 := by rw [htag, Primitives.length_asconTag]
    obtain ⟨stored, hst⟩ : ∃ d, d = storeSalt page c.plaintextHeaderSize c.salt
        (splice (splice (splice data (n + 16) nonce) offset body) n tag) := ⟨_, rfl⟩
    obtain ⟨hlst, hnonce', hbody', htag', hbefore⟩ := aead_stored (n := n) hst hsalt (by omega)
      hoff16 (by omega) (by omega) le_rfl (by omega) (by omega) (by omega)
    rw [hnonce] at hnonce'
    rw [hlb] at hbody'
    rw [hltag] at htag'
    have henc : encryptPageAscon128Cipher P c page data reserved env = (.ok, stored, env') := by
      simp [encryptPageAscon128Cipher, hfits, hrr, hrng, hsub, ← ho, hst, hbody, htag]
    have hdec : decryptPageAscon128Cipher P c page stored reserved hmacCheck =
        (.ok, restoreHeader page c.plaintextHeaderSize
          (splice stored offset (slice data offset (n - offset)))) := by
      have hplain := P.asconDecrypt_asconEncrypt (slice data offset (n - offset)) nonce
        (asconGenOtk P c.key nonce page)
      rw [← hbody] at hplain
      simp [decryptPageAscon128Cipher, hfits, hrr, hlst, hsub, ← ho, hnonce', hbody', htag', htag,
        hplain]
    refine ⟨by rw [henc], by rw [henc, hlst], by rw [henc, hdec], fun hpage => ?_⟩
    simp only [henc, hdec, hrr]
    rw [show (32 : ℕ) = data.length - n by omega]
    exact sameContent_decryptBody hpage hlst (by omega) (by omega) rfl hbefore
  · have hr0 : aeadNReserved pageReservedAscon128 reserved = 0 := by omega
    obtain ⟨nonce, hnonce⟩ : ∃ v, v = sqlite3mcGenerateInitialVector P page := ⟨_, rfl⟩
    have hs : (slice data offset (data.length - offset)).length = data.length - offset :=
      length_slice_of_le (by omega)
    obtain ⟨body, hbody⟩ : ∃ b, b = P.asconEncrypt (slice data offset (data.length - offset)) nonce
        (asconGenOtk P c.key nonce page) := ⟨_, rfl⟩
    have hlb : body.length = data.length - offset := by
      rw [hbody, Primitives.length_asconEncrypt, hs]
    obtain ⟨stored, hst⟩ : ∃ d, d = storeSalt page c.plaintextHeaderSize c.salt
        (splice data offset body) := ⟨_, rfl⟩
    obtain ⟨hlst, hbody', hbefore⟩ := aead_stored_plain hst hsalt (by omega) hoff16 (by omega)
    rw [hlb] at hbody'
    have henc : encryptPageAscon128Cipher P c page data reserved env = (.ok, stored, env) := by
      simp [encryptPageAscon128Cipher, hfits, hr0, ← ho, ← hnonce, hst, hbody]
    have hdec : decryptPageAscon128Cipher P c page stored reserved hmacCheck =
        (.ok, restoreHeader page c.plaintextHeaderSize
          (splice stored offset (slice data offset (data.length - offset)))) := by
      have hplain := P.asconDecrypt_asconEncrypt (slice data offset (data.length - offset)) nonce
        (asconGenOtk P c.key nonce page)
      rw [← hbody] at hplain
      simp [decryptPageAscon128Cipher, hfits, hr0, hlst, ← ho, ← hnonce, hbody', hplain]
    refine ⟨by rw [henc], by rw [henc, hlst], by rw [henc, hdec], fun hpage => ?_⟩
    simp only [henc, hdec, hr0]
    rw [show 0 = data.length - data.length by omega]
    exact sameContent_decryptBody hpage hlst (by omega) le_rfl rfl hbefore

theorem aegis_readsPage {c : AegisCipher}
    (hwf : saltedWellFormed c.salt c.plaintextHeaderSize) (hnonce32 : c.nonceLength ≤ 32)
    (hfits : aeadFits (getReservedAegisCipher c) reserved = true) (h512 : 512 ≤ data.length) :
    ReadsPage (encryptPageAegisCipher P c page data reserved env)
      (decryptPageAegisCipher P c page · reserved hmacCheck)
      (aeadNReserved (getReservedAegisCipher c) reserved) page data := by
  obtain ⟨hsalt, hheader⟩ := hwf
  obtain ⟨offset, ho⟩ : ∃ o, o = aeadOffset c.plaintextHeaderSize page := ⟨_, rfl⟩
  have hoff : offset ≤ 100 := ho ▸ aeadOffset_le hheader
  have hoff16 : page = 1 → 16 ≤ offset := ho ▸ le_aeadOffset
  by_cases hr : 0 < aeadNReserved (getReservedAegisCipher c) reserved
  · have hrr : aeadNReserved (getReservedAegisCipher c) reserved = c.nonceLength + 32 :=
      aeadNReserved_of_pos hr
    obtain ⟨nonce, env', hrng, hnonce⟩ := chacha20Rng_eq env c.nonceLength
    obtain ⟨n, hn⟩ : ∃ n, data.length = n + (c.nonceLength + 32) :=
      ⟨data.length - (c.nonceLength + 32), by omega⟩
    have hsub : data.length - (c.nonceLength + 32) = n := by omega
    have hs : (slice data offset (n - offset)).length = n - offset := length_slice_of_le (by omega)
    obtain ⟨otk, hotk⟩ : ∃ k, k = aegisGenOtk P c nonce page := ⟨_, rfl⟩
    obtain ⟨body, hbody⟩ : ∃ b, b = P.aegisEncryptNoTag c.aegisAlgorithm
        (slice data offset (n - offset)) (otk.drop c.keyLength) (otk.take c.keyLength) := ⟨_, rfl⟩
    have hlb : body.length = n - offset := by rw [hbody, Primitives.length_aegisEncryptNoTag, hs]
    obtain ⟨tag, htag⟩ : ∃ t, t = P.aegisTag c.aegisAlgorithm body (otk.drop c.keyLength)
        (otk.take c.keyLength) := ⟨_, rfl⟩
    have hltag : tag.length = 32 := by rw [htag, Primitives.length_aegisTag]
    obtain ⟨stored, hst⟩ : ∃ d, d = storeSalt page c.plaintextHeaderSize c.salt
        (splice (splice (splice data (n + 32) nonce) offset body) n tag) := ⟨_, rfl⟩
    obtain ⟨hlst, hnonce', hbody', htag', hbefore⟩ := aead_stored (n := n) hst hsalt (by omega)
      hoff16 (by omega) (by omega) le_rfl (by omega) (by omega) (by omega)
    rw [hnonce] at hnonce'
    rw [hlb] at hbody'
    rw [hltag] at htag'
    have henc : encryptPageAegisCipher P c page data reserved env = (.ok, stored, env') := by
      simp [encryptPageAegisCipher, hfits, hrr, hrng, hsub, ← ho, hst, hbody, htag, hotk,
        pageTagLenAegis]
    have hdec : decryptPageAegisCipher P c page stored reserved hmacCheck =
        (.ok, restoreHeader page c.plaintextHeaderSize
          (splice stored offset (slice data offset (n - offset)))) := by
      have hplain := P.aegisDecryptNoTag_aegisEncryptNoTag c.aegisAlgorithm
        (slice data offset (n - offset)) (otk.drop c.keyLength) (otk.take c.keyLength)
      rw [← hbody] at hplain
      simp [decryptPageAegisCipher, hfits, hrr, hlst, hsub, ← ho, hnonce', hbody', htag', htag,
        hplain, ← hotk, pageTagLenAegis]
    refine ⟨by rw [henc], by rw [henc, hlst], by rw [henc, hdec], fun hpage => ?_⟩
    simp only [henc, hdec, hrr]
    rw [show c.nonceLength + 32 = data.length - n by omega]
    exact sameContent_decryptBody hpage hlst (by omega) (by omega) rfl hbefore
  · have hr0 : aeadNReserved (getReservedAegisCipher c) reserved = 0 := by omega
    have hs : (slice data offset (data.length - offset)).length = data.length - offset :=
      length_slice_of_le (by omega)
    obtain ⟨otk, hotk⟩ : ∃ k, k = aegisGenOtk P c (aegisGenNonce P c) page := ⟨_, rfl⟩
    obtain ⟨body, hbody⟩ : ∃ b, b = P.aegisEncryptNoTag c.aegisAlgorithm
        (slice data offset (data.length - offset)) (otk.drop c.keyLength)
        (otk.take c.keyLength) := ⟨_, rfl⟩
    have hlb : body.length = data.length - offset := by
      rw [hbody, Primitives.length_aegisEncryptNoTag, hs]
    obtain ⟨stored, hst⟩ : ∃ d, d = storeSalt page c.plaintextHeaderSize c.salt
        (splice data offset body) := ⟨_, rfl⟩
    obtain ⟨hlst, hbody', hbefore⟩ := aead_stored_plain hst hsalt (by omega) hoff16 (by omega)
    rw [hlb] at hbody'
    have henc : encryptPageAegisCipher P c page data reserved env = (.ok, stored, env) := by
      simp [encryptPageAegisCipher, hfits, hr0, ← ho, ← hotk, hst, hbody]
    have hdec : decryptPageAegisCipher P c page stored reserved hmacCheck =
        (.ok, restoreHeader page c.plaintextHeaderSize
          (splice stored offset (slice data offset (data.length - offset)))) := by
      have hplain := P.aegisDecryptNoTag_aegisEncryptNoTag c.aegisAlgorithm
        (slice data offset (data.length - offset)) (otk.drop c.keyLength) (otk.take c.keyLength)
      rw [← hbody] at hplain
      simp [decryptPageAegisCipher, hfits, hr0, hlst, ← ho, ← hotk, hbody', hplain]
    refine ⟨by rw [henc], by rw [henc, hlst], by rw [henc, hdec], fun hpage => ?_⟩
    simp only [henc, hdec, hr0]
    rw [show 0 = data.length - data.length by omega]
    exact sameContent_decryptBody hpage hlst (by omega) le_rfl rfl hbefore

end Salted

/-! ### The round trip -/

section RoundTrip

variable {P : Primitives}

/-- **What a built-in cipher encrypts it decrypts.** Encryption succeeds and keeps the length of
the page, decryption succeeds and gives the page back but for the bytes the cipher replaces. -/
theorem decryptPage_encryptPage {cipher : Cipher} {page : ℕ} {data : Bytes} {reserved : ℤ}
    (hwf : cipher.WellFormed) (hfits : cipher.fits reserved = true) (hpage : DatabasePage page data)
    (t t' : ℕ) (hmacCheck : ℤ) (env : Env) :
    ReadsBack ((builtinDescriptors P t).encryptPage cipher page data reserved env)
      ((builtinDescriptors P t').decryptPage cipher page · reserved hmacCheck)
      (cipher.nReserved reserved) data := by
  have h512 := hpage.length_le
  cases cipher with
  | aes128 c =>
    have hiv := length_sqlite3mcGenerateInitialVector P page
    have hlen : ∀ b : Bytes, 16 ≤ b.length →
        (sqlite3mcAES128Encrypt P c.key page b).length = b.length :=
      fun b hb => length_rijndaelEncrypt P hiv hb
    have hdec : ∀ b : Bytes, 16 ≤ b.length →
        sqlite3mcAES128Decrypt P c.key page (sqlite3mcAES128Encrypt P c.key page b) = b :=
      fun b hb => rijndaelDecrypt_rijndaelEncrypt P hiv hb
    obtain ⟨hstored, hback⟩ := wxPageDecrypt_wxPageEncrypt hlen hdec hpage
    exact ReadsBack.of_eq hstored hback
  | aes256 c =>
    have hiv := length_sqlite3mcGenerateInitialVector P page
    have hlen : ∀ b : Bytes, 16 ≤ b.length →
        (sqlite3mcAES256Encrypt P c.key page b).length = b.length :=
      fun b hb => length_rijndaelEncrypt P hiv hb
    have hdec : ∀ b : Bytes, 16 ≤ b.length →
        sqlite3mcAES256Decrypt P c.key page (sqlite3mcAES256Encrypt P c.key page b) = b :=
      fun b hb => rijndaelDecrypt_rijndaelEncrypt P hiv hb
    obtain ⟨hstored, hback⟩ := wxPageDecrypt_wxPageEncrypt hlen hdec hpage
    exact ReadsBack.of_eq hstored hback
  | chacha20 c => exact (chacha20_readsPage hwf hfits h512).readsBack hpage.headerPage
  | sqlcipher c => exact (sqlcipher_readsPage hwf hfits h512).readsBack hpage.headerPage
  | rc4 c =>
    exact ReadsBack.of_eq (length_sqlite3mcRC4 c.key data) (sqlite3mcRC4_sqlite3mcRC4 c.key data)
  | ascon128 c => exact (ascon128_readsPage hwf hfits h512).readsBack hpage.headerPage
  | aegis c => exact (aegis_readsPage hwf.1 hwf.2 hfits h512).readsBack hpage.headerPage

end RoundTrip

/-! ### The key operations produce well-formed ciphers -/

/-- A salt that comes with a raw key has the length asked for. -/
theorem length_rawSalt {password key rawSalt : Bytes} {keyOnly : Bool} {keyLength saltLength : ℕ}
    (h : sqlite3mcExtractRawKey password keyOnly keyLength saltLength = some (key, some rawSalt)) :
    rawSalt.length = saltLength := by
  cases keyOnly with
  | true =>
    simp only [sqlite3mcExtractRawKey, if_true] at h
    split_ifs at h <;> simp at h
  | false =>
    simp only [sqlite3mcExtractRawKey, Bool.false_eq_true, if_false] at h
    split_ifs at h <;> simp at h
    · obtain ⟨-, rfl⟩ := h
      simp only [List.length_drop] at *
      omega
    · obtain ⟨-, rfl⟩ := h
      refine length_sqlite3mcConvertHex2Bin ?_
      simp only [List.length_drop] at *
      omega
    · obtain ⟨-, rfl⟩ := h
      refine length_sqlite3mcConvertHex2Bin ?_
      rw [length_slice_of_le, Nat.mul_comm]
      rw [List.length_drop]
      omega

/-- The salt a key generation ends up with has sixteen bytes. -/
theorem length_saltForKey {plaintextHeaderSize : ℤ} {rekey : ℕ} {cipherSalt : Option Bytes}
    {env : Env} (h : ∀ s, cipherSalt = some s → 16 ≤ s.length) :
    (saltForKey plaintextHeaderSize 16 rekey cipherSalt env).2.1.length = 16 := by
  have hrng := Env.length_chacha20Rng env 16
  rcases hr : (if rekey = 2 then (if cipherSalt.isSome then 0 else 1) else rekey) with _ | k
  · rcases cipherSalt with _ | salt
    · simp only [saltForKey, hr]
      exact hrng
    · have hs := h salt rfl
      simp only [saltForKey, hr, List.length_take]
      omega
  · simp only [saltForKey, hr]
    exact hrng

theorem length_saltedKey (plaintextHeaderSize : ℤ) (keyLength rekey : ℕ) (kdf : Bytes → Bytes)
    {password : Bytes} {cipherSalt : Option Bytes} {env : Env}
    (h : ∀ s, cipherSalt = some s → 16 ≤ s.length) :
    (saltedKey plaintextHeaderSize keyLength 16 kdf password rekey cipherSalt env).2.1.length =
      16 := by
  have hsalt : (saltForKey plaintextHeaderSize 16 rekey cipherSalt env).2.1.length = 16 :=
    length_saltForKey h
  obtain ⟨keyOnly, salt, env', hs⟩ :
      ∃ k s e, saltForKey plaintextHeaderSize 16 rekey cipherSalt env =
      (k, s, e) := ⟨_, _, _, rfl⟩
  rw [hs] at hsalt
  simp only [saltedKey, hs]
  rcases hx : sqlite3mcExtractRawKey password keyOnly keyLength 16 with _ | ⟨key, _ | rawSalt⟩
  · exact hsalt
  · exact hsalt
  · exact length_rawSalt hx

/-- **Generating a key keeps a cipher well-formed**, where the salt comes from a header. -/
theorem builtinGenerateKey_wellFormed {P : Primitives} {cipher : Cipher} {password : Bytes}
    {rekey : ℕ} {cipherSalt : Option Bytes} {env : Env} (hwf : cipher.WellFormed)
    (h : ∀ s, cipherSalt = some s → 16 ≤ s.length) :
    (builtinGenerateKey P cipher password rekey cipherSalt env).1.WellFormed := by
  cases cipher with
  | aes128 c => trivial
  | aes256 c => trivial
  | rc4 c => trivial
  | chacha20 c =>
    refine ⟨?_, hwf.2⟩
    exact length_saltedKey c.plaintextHeaderSize 32 rekey
      (fun salt => P.pbkdf2 .sha256 password salt c.kdfIter 32) h
  | sqlcipher c =>
    refine ⟨?_, hwf.2⟩
    exact length_saltedKey c.plaintextHeaderSize 32 rekey
      (fun salt => P.pbkdf2 (.ofInt c.kdfAlgorithm) password salt c.kdfIter 32) h
  | ascon128 c =>
    refine ⟨?_, hwf.2⟩
    exact length_saltedKey c.plaintextHeaderSize 32 rekey
      (fun salt => P.asconPbkdf2 password salt c.kdfIter 32) h
  | aegis c =>
    have hsalt : (saltForKey c.plaintextHeaderSize 16 rekey cipherSalt env).2.1.length = 16 :=
      length_saltForKey h
    obtain ⟨keyOnly, salt, env', hs⟩ : ∃ k s e, saltForKey c.plaintextHeaderSize 16 rekey cipherSalt
        env = (k, s, e) := ⟨_, _, _, rfl⟩
    rw [hs] at hsalt
    simp only [builtinGenerateKey, generateKeyAegisCipher, hs]
    rcases hx : sqlite3mcExtractRawKey password keyOnly c.keyLength 16 with _ | ⟨key, _ | rawSalt⟩
    · exact ⟨⟨hsalt, hwf.1.2⟩, hwf.2⟩
    · exact ⟨⟨hsalt, hwf.1.2⟩, hwf.2⟩
    · exact ⟨⟨length_rawSalt hx, hwf.1.2⟩, hwf.2⟩

theorem allocateChaCha20Cipher_wellFormed {env : Env} {c : ChaCha20Cipher}
    (h : env.pendingParameter "chacha20" "plaintext_header_size" ≤ 100)
    (hal : (allocateChaCha20Cipher env).1 = some c) :
    saltedWellFormed c.salt c.plaintextHeaderSize := by
  rcases hm : env.malloc 0 with _ | _
  · simp [allocateChaCha20Cipher, Env.sqlite3Malloc, hm] at hal
  · have hm' : env.sqlite3Malloc.1 = true := hm
    simp only [allocateChaCha20Cipher, hm', if_true, Option.some.injEq] at hal
    rw [← hal]
    refine ⟨length_zeros 16, ?_⟩
    simp (disch := decide) only [Env.getCipherParameter_other]
    exact h

theorem allocateSQLCipherCipher_wellFormed {env : Env} {c : SQLCipherCipher}
    (h : env.pendingParameter "sqlcipher" "plaintext_header_size" ≤ 100)
    (hal : (allocateSQLCipherCipher env).1 = some c) :
    saltedWellFormed c.salt c.plaintextHeaderSize := by
  rcases hm : env.malloc 0 with _ | _
  · simp [allocateSQLCipherCipher, Env.sqlite3Malloc, hm] at hal
  · have hm' : env.sqlite3Malloc.1 = true := hm
    simp only [allocateSQLCipherCipher, hm', if_true] at hal
    rcases hm₂ : env.malloc 1 with _ | _
    · have hm₂' : env.sqlite3Malloc.2.sqlite3Malloc.1 = false := hm₂
      simp [hm₂'] at hal
    · have hm₂' : env.sqlite3Malloc.2.sqlite3Malloc.1 = true := hm₂
      simp only [hm₂', if_true, Option.some.injEq] at hal
      rw [← hal]
      refine ⟨length_zeros 16, ?_⟩
      split
      · simp (disch := decide) only [Env.getCipherParameter_other]
        exact h
      · show (0 : ℤ) ≤ 100
        decide

theorem allocateAscon128Cipher_wellFormed {env : Env} {c : Ascon128Cipher}
    (h : env.pendingParameter "ascon128" "plaintext_header_size" ≤ 100)
    (hal : (allocateAscon128Cipher env).1 = some c) :
    saltedWellFormed c.salt c.plaintextHeaderSize := by
  rcases hm : env.malloc 0 with _ | _
  · simp [allocateAscon128Cipher, Env.sqlite3Malloc, hm] at hal
  · have hm' : env.sqlite3Malloc.1 = true := hm
    simp only [allocateAscon128Cipher, hm', if_true, Option.some.injEq] at hal
    rw [← hal]
    refine ⟨length_zeros 16, ?_⟩
    simp (disch := decide) only [Env.getCipherParameter_other]
    exact h

/-- **A cipher that is allocated is well-formed**, if no plaintext header of more than a hundred
bytes is pending. -/
theorem builtinAllocate_wellFormed {t : ℕ} {env : Env} {cipher : Cipher}
    (h : ∀ name, env.pendingParameter name "plaintext_header_size" ≤ 100)
    (hal : (builtinAllocate t env).1 = some cipher) : cipher.WellFormed := by
  have hwrap : ∀ {α : Type} (wrap : α → Cipher) (allocate : Env → Option α × Env),
      (wrapAllocate wrap allocate env).1 = some cipher →
        ∃ c, (allocate env).1 = some c ∧ wrap c = cipher :=
    fun wrap allocate hw => Option.map_eq_some_iff.mp hw
  match t, hal with
  | 1, hal =>
    obtain ⟨c, -, rfl⟩ := hwrap _ _ hal
    trivial
  | 2, hal =>
    obtain ⟨c, -, rfl⟩ := hwrap _ _ hal
    trivial
  | 3, hal =>
    obtain ⟨c, hc, rfl⟩ := hwrap _ _ hal
    exact allocateChaCha20Cipher_wellFormed (h _) hc
  | 4, hal =>
    obtain ⟨c, hc, rfl⟩ := hwrap _ _ hal
    exact allocateSQLCipherCipher_wellFormed (h _) hc
  | 5, hal =>
    obtain ⟨c, -, rfl⟩ := hwrap _ _ hal
    trivial
  | 6, hal =>
    obtain ⟨c, hc, rfl⟩ := hwrap _ _ hal
    exact allocateAscon128Cipher_wellFormed (h _) hc
  | 7, hal =>
    obtain ⟨c, hc, rfl⟩ := hwrap _ _ hal
    rw [allocateAegisCipher_cipher] at hc
    by_cases hm : env.malloc 0
    · rw [if_pos hm] at hc
      obtain rfl := Option.some.inj hc
      refine ⟨⟨length_zeros 16, h "aegis"⟩, ?_⟩
      rcases aegisKeyLength_cases env.aegisSettings.algorithm with hk | hk <;>
        simp [AegisSettings.cipher, hk]
    · rw [if_neg hm] at hc
      cases hc

end MultipleCiphers
