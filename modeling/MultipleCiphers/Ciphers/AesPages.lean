import MultipleCiphers.Ciphers.PageRoundTrip

/-!
# Page 1 of the AES ciphers

The AES ciphers have no reserved bytes, and yet the bytes `16` to `23` of page 1 are readable in the
file. Outside the legacy mode the first block is encrypted on its own, the encrypted bytes `16` to
`23` are moved over its second half, and the plain ones are put back. The decoder finds out by these
bytes whether a page was written so or by the legacy scheme, and then checks that it was right.

What is asked of page 1 here is that it has the header that SQLite writes for a database of its page
size. The largest page size, `65536`, does not fit into the two bytes it has in the header and is
written as `1`; the decoder shifts the two bytes apart so that this gives `65536` again.

## Main definitions

* `headerPageSize`, `SqliteHeader` — what SQLite writes at the start of page 1.

## Main results

* `SqliteHeader.wxHeaderValid` — such a header is recognised, for each of the eight page sizes.
* `aes_roundTrip` — the round trips of both ciphers, and what the legacy mode wrote read without it.
-/

namespace MultipleCiphers

open Bytes

/-! ### The database header -/

/-- The page size that a database header gives: two bytes at offset `16`, in which `1` stands for
`65536`. -/
def headerPageSize (data : Bytes) : ℕ :=
  let n := (data.getD 16 0).toNat * 2 ^ 8 + (data.getD 17 0).toNat
  if n = 1 then 65536 else n

/-- A page 1 as SQLite writes it to a database with pages of its length. -/
structure SqliteHeader (data : Bytes) : Prop where
  header : slice data 0 16 = sqliteFileHeader
  pageSize : headerPageSize data = data.length
  validSize : validPageSize data.length = true
  /-- The payload fractions. -/
  fractions : data.getD 21 0 = 0x40 ∧ data.getD 22 0 = 0x20 ∧ data.getD 23 0 = 0x20

theorem getD_slice {b : Bytes} {off len i : ℕ} (hi : i < len) :
    (slice b off len).getD i 0 = b.getD (off + i) 0 := by
  rw [List.getD_eq_getElem?_getD, List.getD_eq_getElem?_getD, getElem?_slice, if_pos hi]

theorem validPageSize_iff {n : ℕ} : validPageSize n = true ↔
    512 ≤ n ∧ n ≤ 65536 ∧ (n - 1) &&& n = 0 := by
  rw [validPageSize, sqliteMaxPageSize, decide_eq_true_iff, Int.toNat_natCast]
  refine and_congr (by omega) (and_congr (by omega) Iff.rfl)

/-- A page size has no bits below `512`. -/
theorem validPageSize_mod {n : ℕ} (h : validPageSize n = true) : n % 512 = 0 := by
  obtain ⟨hmin, -, hand⟩ := validPageSize_iff.mp h
  rw [Nat.and_comm] at hand
  obtain ⟨k, rfl⟩ := (Nat.and_sub_one_eq_zero_iff_isPowerOfTwo (by omega)).mp hand
  have hk : 9 ≤ k := by
    by_contra hlt
    have hle : 2 ^ k ≤ 2 ^ 8 := Nat.pow_le_pow_right (by omega) (by omega)
    omega
  exact Nat.mod_eq_zero_of_dvd (pow_dvd_pow 2 hk)

namespace SqliteHeader

variable {data : Bytes}

/-- The decoder reads the page size of the header. -/
theorem shifted (h : SqliteHeader data) :
    (data.getD 16 0).toNat * 2 ^ 8 + (data.getD 17 0).toNat * 2 ^ 16 = data.length := by
  have hsize := h.pageSize
  have hmod := validPageSize_mod h.validSize
  obtain ⟨hmin, -, -⟩ := validPageSize_iff.mp h.validSize
  have hlow := (data.getD 17 0).toNat_lt
  simp only [headerPageSize] at hsize
  split at hsize <;> omega

/-- **A database header is recognised.** -/
theorem wxHeaderValid (h : SqliteHeader data) : wxHeaderValid (slice data 16 8) = true := by
  obtain ⟨h₅, h₆, h₇⟩ := h.fractions
  have hvalid : validPageSize ((data.getD 16 0).toNat * 2 ^ 8 +
      (data.getD 17 0).toNat * 2 ^ 16 : ℕ) = true := by
    rw [h.shifted]
    exact h.validSize
  rw [MultipleCiphers.wxHeaderValid, getD_slice (by omega), getD_slice (by omega),
    getD_slice (by omega), getD_slice (by omega), getD_slice (by omega)]
  exact decide_eq_true ⟨hvalid, h₅, h₆, h₇⟩

end SqliteHeader

/-- A page to encrypt with an AES cipher: page 1 has the header of a database. -/
theorem databasePage_of_header {page : ℕ} {data : Bytes} (hlen : 512 ≤ data.length)
    (hheader : page = 1 → SqliteHeader data) : DatabasePage page data where
  length_le := hlen
  header := fun hp => (hheader hp).header
  headerValid := fun hp => (hheader hp).wxHeaderValid

/-! ### The round trips -/

/-- The outcome `enc` of an encryption of `data` is no error, and decrypting it gives `data`. -/
def ReadsBackExactly (enc : ResultCode × Bytes × Env) (dec : Bytes → ResultCode × Bytes)
    (data : Bytes) : Prop :=
  enc.1 = .ok ∧ dec enc.2.1 = (.ok, data)

/-- What the legacy mode wrote, if its bytes `16` to `23` are no header. -/
theorem wxPageDecrypt_legacy {legacy : ℤ} {enc dec : Bytes → Bytes} {data : Bytes}
    (hdec : dec (enc data) = data) (hlegacy : legacy ≠ 0)
    (hinvalid : wxHeaderValid (slice (wxPageEncrypt legacy enc 1 data) 16 8) = false) :
    wxPageDecrypt 0 dec 1 (wxPageEncrypt legacy enc 1 data) = data := by
  have hstored : wxPageEncrypt legacy enc 1 data = enc data := by
    rw [wxPageEncrypt, if_pos hlegacy]
  rw [hstored] at hinvalid ⊢
  rw [wxPageDecrypt, if_neg (by decide), if_neg (by rw [hinvalid]; decide), hdec]

/-- **The page round trips of the AES ciphers.** Decrypting gives back every page, in both modes and
for every page size, if page 1 has the header of a database. A page 1 in the legacy mode needs no
header to be read without it: it is enough that what is stored does not look like one. -/
theorem aes_roundTrip (P : Primitives) {page : ℕ} {data : Bytes} (hlen : 512 ≤ data.length)
    (reserved hmacCheck : ℤ) (env : Env) :
    ((page = 1 → SqliteHeader data) →
      (∀ c : AES128Cipher, ReadsBackExactly
        ((mcAES128Descriptor P).encryptPage c page data reserved env)
        ((mcAES128Descriptor P).decryptPage c page · reserved hmacCheck) data) ∧
      ∀ c : AES256Cipher, ReadsBackExactly
        ((mcAES256Descriptor P).encryptPage c page data reserved env)
        ((mcAES256Descriptor P).decryptPage c page · reserved hmacCheck) data) ∧
    (∀ c c' : AES128Cipher, c.legacy ≠ 0 → c'.legacy = 0 → c'.key = c.key →
      wxHeaderValid (slice ((mcAES128Descriptor P).encryptPage c 1 data reserved env).2.1 16 8) =
        false →
      ReadsBackExactly ((mcAES128Descriptor P).encryptPage c 1 data reserved env)
        ((mcAES128Descriptor P).decryptPage c' 1 · reserved hmacCheck) data) ∧
    ∀ c c' : AES256Cipher, c.legacy ≠ 0 → c'.legacy = 0 → c'.key = c.key →
      wxHeaderValid (slice ((mcAES256Descriptor P).encryptPage c 1 data reserved env).2.1 16 8) =
        false →
      ReadsBackExactly ((mcAES256Descriptor P).encryptPage c 1 data reserved env)
        ((mcAES256Descriptor P).decryptPage c' 1 · reserved hmacCheck) data := by
  have hiv : ∀ page, (sqlite3mcGenerateInitialVector P page).length = 16 := fun page =>
    length_sqlite3mcGenerateInitialVector P page
  refine ⟨fun hheader => ?_, ?_, ?_⟩
  · have hpage := databasePage_of_header hlen hheader
    constructor
    · intro c
      have hback : wxPageDecrypt c.legacy (sqlite3mcAES128Decrypt P c.key page) page
          (wxPageEncrypt c.legacy (sqlite3mcAES128Encrypt P c.key page) page data) = data :=
        (wxPageDecrypt_wxPageEncrypt
        (fun b hb => length_rijndaelEncrypt P (hiv page) hb)
        (fun b hb => rijndaelDecrypt_rijndaelEncrypt P (hiv page) hb) hpage).2
      exact ⟨rfl, congrArg (Prod.mk ResultCode.ok) hback⟩
    · intro c
      have hback : wxPageDecrypt c.legacy (sqlite3mcAES256Decrypt P c.key page) page
          (wxPageEncrypt c.legacy (sqlite3mcAES256Encrypt P c.key page) page data) = data :=
        (wxPageDecrypt_wxPageEncrypt
        (fun b hb => length_rijndaelEncrypt P (hiv page) hb)
        (fun b hb => rijndaelDecrypt_rijndaelEncrypt P (hiv page) hb) hpage).2
      exact ⟨rfl, congrArg (Prod.mk ResultCode.ok) hback⟩
  · intro c c' hc hc' hkey hinvalid
    have hback : wxPageDecrypt c'.legacy (sqlite3mcAES128Decrypt P c'.key 1) 1
        (wxPageEncrypt c.legacy (sqlite3mcAES128Encrypt P c.key 1) 1 data) = data := by
      rw [hc', hkey]
      exact wxPageDecrypt_legacy (rijndaelDecrypt_rijndaelEncrypt P (hiv 1) (by omega)) hc hinvalid
    exact ⟨rfl, congrArg (Prod.mk ResultCode.ok) hback⟩
  · intro c c' hc hc' hkey hinvalid
    have hback : wxPageDecrypt c'.legacy (sqlite3mcAES256Decrypt P c'.key 1) 1
        (wxPageEncrypt c.legacy (sqlite3mcAES256Encrypt P c.key 1) 1 data) = data := by
      rw [hc', hkey]
      exact wxPageDecrypt_legacy (rijndaelDecrypt_rijndaelEncrypt P (hiv 1) (by omega)) hc hinvalid
    exact ⟨rfl, congrArg (Prod.mk ResultCode.ok) hback⟩

/-- Page 1 of a database with pages of `512` bytes, up to the payload fractions. -/
def emptyDatabasePage : Bytes :=
  sqliteFileHeader ++ ([2, 0, 1, 1, 0, 0x40, 0x20, 0x20] ++ zeros 488)

theorem emptyDatabasePage_header : SqliteHeader emptyDatabasePage :=
  ⟨by decide +kernel, by decide +kernel, by decide +kernel, by decide +kernel⟩

set_option maxRecDepth 4000 in
/-- Page 1 in the present scheme, and in the legacy one. -/
theorem aes_roundTrip_page1 :
    ReadsBackExactly
        ((mcAES128Descriptor nullPrimitives).encryptPage ⟨0, 0, zeros 16⟩ 1 emptyDatabasePage 0
          rc4Env)
        ((mcAES128Descriptor nullPrimitives).decryptPage ⟨0, 0, zeros 16⟩ 1 · 0 1)
        emptyDatabasePage ∧
      ReadsBackExactly
        ((mcAES256Descriptor nullPrimitives).encryptPage ⟨1, 0, 4001, zeros 32⟩ 1
          emptyDatabasePage 0 rc4Env)
        ((mcAES256Descriptor nullPrimitives).decryptPage ⟨0, 0, 4001, zeros 32⟩ 1 · 0 1)
        emptyDatabasePage := by
  have hlen : 512 ≤ emptyDatabasePage.length := by decide
  obtain ⟨hpresent, -, hlegacy⟩ := aes_roundTrip nullPrimitives hlen 0 1 rc4Env
  exact ⟨(hpresent fun _ => emptyDatabasePage_header).1 _,
    hlegacy _ _ (by decide) rfl rfl (by decide)⟩

end MultipleCiphers
