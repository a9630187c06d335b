import MultipleCiphers.Ciphers.RoundTrip

/-!
# The page round trips of the ciphers with reserved bytes

For each of the ciphers with reserved bytes a page either goes round or is refused both ways. Which
of the two happens is decided by the cipher and by the number of reserved bytes alone: the content
of the page, its number, the nonce and the tag check have no part in it.

`decryptPage_encryptPage` is about pages of a database. The theorems here ask for less of page 1:
the AES ciphers keep the page size and the payload fractions of its header apart, but a cipher with
reserved bytes relies on nothing but the sixteen bytes that the salt replaces.

## Main results

* `chacha20_roundTrip`, `sqlcipher_roundTrip`, `aead_roundTrip`.
-/

namespace MultipleCiphers

open Bytes

/-- The outcome `enc` of an encryption of `data`, and what decrypting does. Either the reserved
bytes fit the cipher, encryption succeeds, and decrypting the result gives the page back up to its
reserved area. Or they do not fit, and neither this page is encrypted nor any page decrypted. -/
def RoundTrips (fits : Bool) (page : ℕ) (reserved : ℤ) (enc : ResultCode × Bytes × Env)
    (dec : Bytes → ResultCode × Bytes) (data : Bytes) : Prop :=
  (fits = true ∧ ReadsBack enc dec reserved.toNat data) ∨
    (fits = false ∧ enc.1 = .corrupt ∧ ∀ stored, (dec stored).1 = badPage page)

theorem SameContent.mono {m n : ℕ} {a b : Bytes} (h : SameContent m a b) (hmn : m ≤ n) :
    SameContent n a b := by
  refine ⟨h.length_eq, ?_⟩
  have htake := congrArg (List.take (b.length - n)) h.take_eq
  rw [List.take_take, List.take_take] at htake
  have hmin : min (b.length - n) (b.length - m) = b.length - n := by omega
  rw [h.length_eq, hmin] at htake
  rwa [h.length_eq]

theorem ReadsBack.mono {enc : ResultCode × Bytes × Env} {dec : Bytes → ResultCode × Bytes}
    {m n : ℕ} {data : Bytes} (h : ReadsBack enc dec m data) (hmn : m ≤ n) :
    ReadsBack enc dec n data :=
  ⟨h.ok, h.length_eq, h.dec_ok, h.content.mono hmn⟩

section RoundTrips

variable {P : Primitives} {page : ℕ} {data : Bytes} {reserved hmacCheck : ℤ} {env : Env}

/-- A page whose reserved bytes do not fit is not decrypted. -/
theorem decryptPage_refused (t : ℕ) {cipher : Cipher} (h : cipher.fits reserved = false)
    (stored : Bytes) :
    (builtinDescriptors P t).decryptPage cipher page stored reserved hmacCheck =
      (badPage page, stored) := by
  cases cipher with
  | aes128 c => cases h
  | aes256 c => cases h
  | rc4 c => cases h
  | chacha20 c =>
    have h : chacha20Fits c reserved = false := h
    simp [builtinDescriptors, builtinDecryptPage, mcChaCha20Descriptor,
      decryptPageChaCha20Cipher, h]
  | sqlcipher c =>
    have h : sqlCipherFits c reserved = false := h
    simp [builtinDescriptors, builtinDecryptPage, mcSQLCipherDescriptor,
      decryptPageSQLCipherCipher, h]
  | ascon128 c =>
    have h : aeadFits pageReservedAscon128 reserved = false := h
    simp [builtinDescriptors, builtinDecryptPage, mcAscon128Descriptor,
      decryptPageAscon128Cipher, h]
  | aegis c =>
    have h : aeadFits (getReservedAegisCipher c) reserved = false := h
    simp [builtinDescriptors, builtinDecryptPage, mcAegisDescriptor, decryptPageAegisCipher, h]

/-- A page goes round if it is read back wherever its reserved bytes fit. The type a cipher is
looked up under plays no part in its page functions. -/
theorem RoundTrips.of_readsBack (cipher : Cipher)
    (h : cipher.fits reserved = true →
      ReadsBack ((builtinDescriptors P 0).encryptPage cipher page data reserved env)
        ((builtinDescriptors P 0).decryptPage cipher page · reserved hmacCheck)
        (cipher.nReserved reserved) data) :
    RoundTrips (cipher.fits reserved) page reserved
      ((builtinDescriptors P 0).encryptPage cipher page data reserved env)
      ((builtinDescriptors P 0).decryptPage cipher page · reserved hmacCheck) data := by
  rcases hfits : cipher.fits reserved with _ | _
  · refine Or.inr ⟨rfl, ?_, fun stored => ?_⟩
    · rw [encryptPage_refused 0 hfits page data env]
    · simp only [decryptPage_refused 0 hfits stored]
  · exact Or.inl ⟨rfl, (h hfits).mono (Cipher.nReserved_le hfits)⟩

/-- Page 1 of a database that is empty but for its file header. -/
def headerOnlyPage : Bytes := sqliteFileHeader ++ zeros 496

theorem headerOnlyPage_headerPage : HeaderPage 1 headerOnlyPage where
  length_le := by
    rw [headerOnlyPage, List.length_append, length_sqliteFileHeader, length_zeros]
  header := fun _ => by rw [headerOnlyPage, slice, List.drop_zero, ← length_sqliteFileHeader,
    List.take_left]

/-! ### ChaCha20 -/

/-- **The page round trip of ChaCha20**, with and without reserved bytes, in and outside its legacy
mode, for every plaintext header a database has room for. -/
theorem chacha20_roundTrip (P : Primitives) (c : ChaCha20Cipher) (hsalt : c.salt.length = 16)
    (hheader : c.plaintextHeaderSize ≤ 100) (hpage : HeaderPage page data)
    (reserved hmacCheck : ℤ) (env : Env) :
    RoundTrips (chacha20Fits c reserved) page reserved
      (encryptPageChaCha20Cipher P c page data reserved env)
      (decryptPageChaCha20Cipher P c page · reserved hmacCheck) data :=
  RoundTrips.of_readsBack (.chacha20 c) fun hfits =>
    (chacha20_readsPage ⟨hsalt, hheader⟩ hfits hpage.length_le).readsBack hpage

/-- Page 1 in the legacy mode, which encrypts it from the first byte on. -/
theorem chacha20_roundTrip_legacy :
    RoundTrips true 1 32
      (encryptPageChaCha20Cipher nullPrimitives ⟨1, 4096, 12345, 0, zeros 32, zeros 16⟩ 1
        headerOnlyPage 32 rc4Env)
      (decryptPageChaCha20Cipher nullPrimitives ⟨1, 4096, 12345, 0, zeros 32, zeros 16⟩ 1 · 32 1)
      headerOnlyPage :=
  chacha20_roundTrip nullPrimitives ⟨1, 4096, 12345, 0, zeros 32, zeros 16⟩ (length_zeros 16)
    (by decide) headerOnlyPage_headerPage 32 1 rc4Env

/-! ### SQLCipher -/

/-- **The page round trip of SQLCipher**, in every legacy version, with every tag algorithm or
none, and whether or not the tag is checked. -/
theorem sqlcipher_roundTrip (P : Primitives) (c : SQLCipherCipher) (hsalt : c.salt.length = 16)
    (hheader : c.plaintextHeaderSize ≤ 100) (hpage : HeaderPage page data)
    (reserved hmacCheck : ℤ) (env : Env) :
    RoundTrips (sqlCipherFits c reserved) page reserved
      (encryptPageSQLCipherCipher P c page data reserved env)
      (decryptPageSQLCipherCipher P c page · reserved hmacCheck) data :=
  RoundTrips.of_readsBack (.sqlcipher c) fun hfits =>
    (sqlcipher_readsPage ⟨hsalt, hheader⟩ hfits hpage.length_le).readsBack hpage

/-- Page 1 with the settings of version 4: SHA512 for both algorithms, and 80 reserved bytes. -/
theorem sqlcipher_roundTrip_version4 :
    RoundTrips true 1 80
      (encryptPageSQLCipherCipher nullPrimitives
        ⟨4, 4096, 256000, 2, 1, 1, 0x3a, 2, 2, 0, 32, zeros 32, zeros 16, zeros 32⟩ 1
        headerOnlyPage 80 rc4Env)
      (decryptPageSQLCipherCipher nullPrimitives
        ⟨4, 4096, 256000, 2, 1, 1, 0x3a, 2, 2, 0, 32, zeros 32, zeros 16, zeros 32⟩ 1 · 80 1)
      headerOnlyPage :=
  sqlcipher_roundTrip nullPrimitives
    ⟨4, 4096, 256000, 2, 1, 1, 0x3a, 2, 2, 0, 32, zeros 32, zeros 16, zeros 32⟩ (length_zeros 16)
    (by decide) headerOnlyPage_headerPage 80 1 rc4Env

/-! ### AEGIS and Ascon-128 -/

/-- The nonce of an AEGIS cipher has the length that goes with its variant. -/
theorem aegisKeyLength_le (algorithm : ℤ) : aegisKeyLength algorithm ≤ 32 := by
  rcases aegisKeyLength_cases algorithm with h | h <;> omega

/-- **The page round trips of AEGIS and Ascon-128**, for every variant of AEGIS, with and without
reserved bytes, and whether or not the tag is checked. -/
theorem aead_roundTrip (P : Primitives) (hpage : HeaderPage page data) (reserved hmacCheck : ℤ)
    (env : Env) :
    (∀ c : AegisCipher, c.nonceLength = aegisKeyLength c.aegisAlgorithm → c.salt.length = 16 →
      c.plaintextHeaderSize ≤ 100 →
        RoundTrips (aeadFits (getReservedAegisCipher c) reserved) page reserved
          (encryptPageAegisCipher P c page data reserved env)
          (decryptPageAegisCipher P c page · reserved hmacCheck) data) ∧
      ∀ c : Ascon128Cipher, c.salt.length = 16 → c.plaintextHeaderSize ≤ 100 →
        RoundTrips (aeadFits pageReservedAscon128 reserved) page reserved
          (encryptPageAscon128Cipher P c page data reserved env)
          (decryptPageAscon128Cipher P c page · reserved hmacCheck) data := by
  constructor
  · intro c hnonce hsalt hheader
    have hle : c.nonceLength ≤ 32 := hnonce ▸ aegisKeyLength_le c.aegisAlgorithm
    exact RoundTrips.of_readsBack (.aegis c) fun hfits =>
      (aegis_readsPage ⟨hsalt, hheader⟩ hle hfits hpage.length_le).readsBack hpage
  · intro c hsalt hheader
    exact RoundTrips.of_readsBack (.ascon128 c) fun hfits =>
      (ascon128_readsPage ⟨hsalt, hheader⟩ hfits hpage.length_le).readsBack hpage

/-- Page 1 with AEGIS-256 and with Ascon-128, the tag check switched off. -/
theorem aead_roundTrip_unchecked :
    RoundTrips true 1 64
        (encryptPageAegisCipher nullPrimitives ⟨2, 19456, 1, 4, 0, 32, 32, zeros 32, zeros 16⟩ 1
          headerOnlyPage 64 rc4Env)
        (decryptPageAegisCipher nullPrimitives ⟨2, 19456, 1, 4, 0, 32, 32, zeros 32, zeros 16⟩ 1 ·
          64 0) headerOnlyPage ∧
      RoundTrips true 1 64
        (encryptPageAscon128Cipher nullPrimitives ⟨64007, 0, zeros 32, zeros 16⟩ 1
          headerOnlyPage 64 rc4Env)
        (decryptPageAscon128Cipher nullPrimitives ⟨64007, 0, zeros 32, zeros 16⟩ 1 · 64 0)
        headerOnlyPage :=
  ⟨(aead_roundTrip nullPrimitives headerOnlyPage_headerPage 64 0 rc4Env).1
      ⟨2, 19456, 1, 4, 0, 32, 32, zeros 32, zeros 16⟩ rfl (length_zeros 16) (by decide),
    (aead_roundTrip nullPrimitives headerOnlyPage_headerPage 64 0 rc4Env).2
      ⟨64007, 0, zeros 32, zeros 16⟩ (length_zeros 16) (by decide)⟩

end RoundTrips

end MultipleCiphers
