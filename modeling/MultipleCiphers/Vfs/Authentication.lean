import MultipleCiphers.Journal.Model

/-!
# What a page read lets into the cache

Four of the ciphers store a tag with each page. While `hmac_check` is on, a page whose tag does not
fit is not decrypted: the codec zeroes the buffer and the read fails. So what a successful read
delivers should be either the decryption of an authenticated page or zeros.

There is one way past the tag. A read that reaches beyond the end of the file comes back as
`SQLITE_IOERR_SHORT_READ`, and the shim passes it on at once, with the bytes as they are in the
file. The pager counts a page that is cut off as a page, and takes a short read for success.

## Main definitions

* `Cipher.authenticates`, `Cipher.tagValid` — whether a cipher stores a tag, and whether the tag of
  a stored page fits.
* `AuthenticRead` — what a page read that counts as successful should deliver.

## Main results

* `pageRead_authentic_iff` — exactly when it does: the file does not end inside the page, or has
  nothing but zeros there.
* `pageRead_unauthenticated` — a file cut off inside a page.
-/

namespace MultipleCiphers

open Bytes

/-! ### Tags -/

/-- Whether a cipher stores a tag with a page of `reserved` reserved bytes. -/
def Cipher.authenticates (cipher : Cipher) (reserved : ℤ) : Bool :=
  match cipher with
  | .aes128 _ | .aes256 _ | .rc4 _ => false
  | .chacha20 c => 0 < chacha20NReserved c.legacy reserved
  | .sqlcipher c => c.hmacUse = 1 ∧ 0 < sqlCipherNReserved c reserved
  | .ascon128 _ => 0 < aeadNReserved pageReservedAscon128 reserved
  | .aegis c => 0 < aeadNReserved (getReservedAegisCipher c) reserved

/-- A stored page carries the tag that belongs to its bytes and its number. -/
def Cipher.tagValid (P : Primitives) (cipher : Cipher) (page : ℕ) (data : Bytes) (reserved : ℤ) :
    Prop :=
  match cipher with
  | .aes128 _ | .aes256 _ | .rc4 _ => False
  | .chacha20 c =>
    let n := data.length - chacha20NReserved c.legacy reserved
    slice data (n + 16) 16 =
      P.poly1305 (data.take (n + 16)) ((chacha20Otk P c.key (slice data n 16) page).take 32)
  | .sqlcipher c =>
    let n := data.length - sqlCipherNReserved c reserved
    let tag := sqlCipherTag P c page (sqlCipherOffset c page) n data
    slice data (n + 16) tag.length = tag
  | .ascon128 c =>
    let n := data.length - aeadNReserved pageReservedAscon128 reserved
    let offset := aeadOffset c.plaintextHeaderSize page
    let nonce := slice data (n + 16) 16
    slice data n 16 =
      P.asconTag (slice data offset (n - offset)) nonce (asconGenOtk P c.key nonce page)
  | .aegis c =>
    let n := data.length - aeadNReserved (getReservedAegisCipher c) reserved
    let offset := aeadOffset c.plaintextHeaderSize page
    let otk := aegisGenOtk P c (slice data (n + pageTagLenAegis) c.nonceLength) page
    slice data n pageTagLenAegis =
      P.aegisTag c.aegisAlgorithm (slice data offset (n - offset)) (otk.drop c.keyLength)
        (otk.take c.keyLength)

/-- The code for a bad page is never that for success. -/
theorem badPage_ne_ok (page : ℕ) : badPage page ≠ .ok := by
  rw [badPage]
  split <;> intro h <;> cases h

/-- The outcome of a decryption that compares tags. -/
theorem checkTag_ok_iff {hmacCheck : ℤ} {page : ℕ} {found tag bad plain : Bytes} :
    (if hmacCheck ≠ 0 ∧ found ≠ tag then (badPage page, bad) else (.ok, plain)).1 = .ok ↔
      (hmacCheck ≠ 0 → found = tag) := by
  by_cases h : hmacCheck ≠ 0 ∧ found ≠ tag
  · rw [if_pos h]
    exact iff_of_false (badPage_ne_ok page) fun hall => h.2 (hall h.1)
  · rw [if_neg h]
    exact iff_of_true rfl fun hcheck => by_contra fun hne => h ⟨hcheck, hne⟩

/-- **Which images decrypt**: those whose reserved bytes fit and whose tag, where there is one and
it is checked, belongs to them. -/
theorem decryptPage_ok_iff {P : Primitives} (t : ℕ) (cipher : Cipher) (page : ℕ) (data : Bytes)
    (reserved hmacCheck : ℤ) :
    ((builtinDescriptors P t).decryptPage cipher page data reserved hmacCheck).1 = .ok ↔
      cipher.fits reserved = true ∧ (hmacCheck ≠ 0 → cipher.authenticates reserved = true →
        cipher.tagValid P page data reserved) := by
  cases cipher with
  | aes128 c => exact iff_of_true rfl ⟨rfl, fun _ h => by cases h⟩
  | aes256 c => exact iff_of_true rfl ⟨rfl, fun _ h => by cases h⟩
  | rc4 c => exact iff_of_true rfl ⟨rfl, fun _ h => by cases h⟩
  | chacha20 c =>
    change (decryptPageChaCha20Cipher P c page data reserved hmacCheck).1 = .ok ↔
      chacha20Fits c reserved = true ∧ (hmacCheck ≠ 0 →
        decide (0 < chacha20NReserved c.legacy reserved) = true → _ = _)
    by_cases hfits : chacha20Fits c reserved = true
    · simp only [decryptPageChaCha20Cipher, hfits, if_true, true_and, gt_iff_lt, decide_eq_true_eq]
      by_cases hr : 0 < chacha20NReserved c.legacy reserved
      · simp only [hr, forall_true_left]
        exact checkTag_ok_iff
      · rw [if_neg hr]
        exact iff_of_true rfl fun _ h => absurd h hr
    · simp only [decryptPageChaCha20Cipher, hfits, Bool.false_eq_true, if_false, false_and,
        iff_false]
      exact badPage_ne_ok page
  | sqlcipher c =>
    change (decryptPageSQLCipherCipher P c page data reserved hmacCheck).1 = .ok ↔
      sqlCipherFits c reserved = true ∧ (hmacCheck ≠ 0 →
        decide (c.hmacUse = 1 ∧ 0 < sqlCipherNReserved c reserved) = true → _ = _)
    by_cases hfits : sqlCipherFits c reserved = true
    · simp only [decryptPageSQLCipherCipher, hfits, if_true, true_and, gt_iff_lt, decide_eq_true_eq]
      by_cases hr : c.hmacUse = 1 ∧ 0 < sqlCipherNReserved c reserved
      · simp only [hr, true_and, and_self, forall_true_left]
        exact checkTag_ok_iff
      · rw [if_neg fun h => hr ⟨h.1, h.2.1⟩]
        exact iff_of_true rfl fun _ h => absurd h hr
    · simp only [decryptPageSQLCipherCipher, hfits, Bool.false_eq_true, if_false, false_and,
        iff_false]
      exact badPage_ne_ok page
  | ascon128 c =>
    change (decryptPageAscon128Cipher P c page data reserved hmacCheck).1 = .ok ↔
      aeadFits pageReservedAscon128 reserved = true ∧ (hmacCheck ≠ 0 →
        decide (0 < aeadNReserved pageReservedAscon128 reserved) = true → _ = _)
    by_cases hfits : aeadFits pageReservedAscon128 reserved = true
    · simp only [decryptPageAscon128Cipher, hfits, if_true, true_and, gt_iff_lt, decide_eq_true_eq]
      by_cases hr : 0 < aeadNReserved pageReservedAscon128 reserved
      · simp only [hr, forall_true_left]
        exact checkTag_ok_iff
      · rw [if_neg hr]
        exact iff_of_true rfl fun _ h => absurd h hr
    · simp only [decryptPageAscon128Cipher, hfits, Bool.false_eq_true, if_false, false_and,
        iff_false]
      exact badPage_ne_ok page
  | aegis c =>
    change (decryptPageAegisCipher P c page data reserved hmacCheck).1 = .ok ↔
      aeadFits (getReservedAegisCipher c) reserved = true ∧ (hmacCheck ≠ 0 →
        decide (0 < aeadNReserved (getReservedAegisCipher c) reserved) = true → _ = _)
    by_cases hfits : aeadFits (getReservedAegisCipher c) reserved = true
    · simp only [decryptPageAegisCipher, hfits, if_true, true_and, gt_iff_lt, decide_eq_true_eq]
      by_cases hr : 0 < aeadNReserved (getReservedAegisCipher c) reserved
      · simp only [hr, forall_true_left]
        exact checkTag_ok_iff
      · rw [if_neg hr]
        exact iff_of_true rfl fun _ h => absurd h hr
    · simp only [decryptPageAegisCipher, hfits, Bool.false_eq_true, if_false, false_and, iff_false]
      exact badPage_ne_ok page

/-! ### Reading a page -/

section PageRead

variable (P : Primitives) (codec : Codec Cipher) (pageSize pageNo : ℕ) (s : Shim Bytes)

/-- The read of page `pageNo` from the main database file. -/
def pageRead : ResultCode × Bytes × Shim Bytes :=
  mcIoRead (builtinDescriptors P) memoryFile ⟨.mainDb, some codec, pageSize⟩ pageSize
    ((pageNo - 1) * pageSize) s

/-- A read that counts as successful, and a short read does, delivers the decryption of a page of
the file whose tag fits, or zeros. -/
def AuthenticRead (cipher : Cipher) (pageSize pageNo : ℕ) (file : Bytes)
    (result : ResultCode × Bytes × Shim Bytes) : Prop :=
  result.1 = .ok ∨ result.1 = .ioerrShortRead →
    (∃ image, image = slice file ((pageNo - 1) * pageSize) pageSize ∧ image.length = pageSize ∧
      cipher.tagValid P pageNo image codec.readReservedBytes ∧
      sqlite3mcDecrypt (builtinDescriptors P) codec pageNo image = (.ok, result.2.1)) ∨
    result.2.1 = zeros pageSize

end PageRead

section Facts

variable {P : Primitives} {codec : Codec Cipher} {pageSize pageNo : ℕ} {s : Shim Bytes}

/-- A page that lies in the file is read and decrypted. -/
theorem pageRead_inside (henc : codec.isEncrypted = true) (hhas : codec.hasReadCipher = true)
    (hsize : 512 ≤ pageSize) (hin : (pageNo - 1) * pageSize + pageSize ≤ s.real.length)
    (hpage : 1 ≤ pageNo) :
    let image := slice s.real ((pageNo - 1) * pageSize) pageSize
    let loaded := sqlite3mcDecrypt (builtinDescriptors P) codec pageNo image
    (pageRead P codec pageSize pageNo s).1 = loaded.1 ∧
      (pageRead P codec pageSize pageNo s).2.1 =
        if loaded.1 = .ok then loaded.2 else zeros pageSize := by
  intro image loaded
  have himage : image.length = pageSize := length_slice_of_le (by omega)
  have hsalt : ¬((pageNo - 1) * pageSize = 0 ∧ pageSize = 16) := fun h => by omega
  have hcodec : (⟨.mainDb, some codec, pageSize⟩ : McFile Cipher).encryptedCodec = some codec := by
    simp [McFile.encryptedCodec, henc]
  have hdiv : pageSize / pageSize = 1 := Nat.div_self (by omega)
  have hno : (pageNo - 1) * pageSize / pageSize + 1 = pageNo := by
    rw [Nat.mul_div_cancel _ (by omega)]
    omega
  have hlen : (slice s.real ((pageNo - 1) * pageSize) pageSize).length = pageSize := himage
  have htake := List.take_of_length_le hlen.le
  have hdrop := List.drop_of_length_le hlen.le
  simp only [pageRead, mcIoRead, xRead_memoryFile hin, reduceCtorEq, if_false, mcReadMainDb,
    hsalt, hcodec,
    Nat.mul_mod_left, Nat.mod_self, ne_eq, not_true_eq_false, or_self, hdiv, hno, mcReadPages,
    htake, hdrop, Shim.runCodec, sqlite3mcCodec, henc, hhas, if_true, List.append_nil, hlen]
  exact ⟨rfl, rfl⟩

variable (P codec) in
/-- A page that does not lie in the file is read as far as it goes, and not decrypted. -/
theorem pageRead_outside (hsize : 512 ≤ pageSize)
    (hout : s.real.length < (pageNo - 1) * pageSize + pageSize) :
    let rest := slice s.real ((pageNo - 1) * pageSize) pageSize
    (pageRead P codec pageSize pageNo s).1 = .ioerrShortRead ∧
      (pageRead P codec pageSize pageNo s).2.1 = rest ++ zeros (pageSize - rest.length) := by
  intro rest
  simp only [pageRead, mcIoRead, xRead_memoryFile_short hout (by omega), if_true]
  exact ⟨trivial, rfl⟩

/-- **What a page read lets in.** With an authenticating cipher and `hmac_check` on, a page read
that counts as successful delivers authenticated content or zeros if and only if the file does not
end inside the page, or what it has of the page is zeros. -/
theorem pageRead_authentic_iff (P : Primitives) {codec : Codec Cipher} {cipher : Cipher}
    (henc : codec.isEncrypted = true) (hhas : codec.hasReadCipher = true)
    (hcipher : codec.readCipher = some cipher) (hcheck : codec.hmacCheck ≠ 0)
    (hauth : cipher.authenticates codec.readReservedBytes = true) {pageSize pageNo : ℕ}
    (hsize : 512 ≤ pageSize) (hpage : 1 ≤ pageNo) (s : Shim Bytes) :
    AuthenticRead P codec cipher pageSize pageNo s.real (pageRead P codec pageSize pageNo s) ↔
      s.real.length ≤ (pageNo - 1) * pageSize ∨
        (pageNo - 1) * pageSize + pageSize ≤ s.real.length ∨
        ∀ b ∈ s.real.drop ((pageNo - 1) * pageSize), b = 0 := by
  by_cases hin : (pageNo - 1) * pageSize + pageSize ≤ s.real.length
  · refine iff_of_true (fun hok => ?_) (Or.inr (Or.inl hin))
    obtain ⟨hrc, hbuffer⟩ := pageRead_inside (P := P) henc hhas hsize hin hpage
    have himage : (slice s.real ((pageNo - 1) * pageSize) pageSize).length = pageSize :=
      length_slice_of_le hin
    obtain ⟨loaded, hloaded⟩ : ∃ l, sqlite3mcDecrypt (builtinDescriptors P) codec pageNo
        (slice s.real ((pageNo - 1) * pageSize) pageSize) = l := ⟨_, rfl⟩
    rw [hloaded] at hrc hbuffer
    by_cases hl : loaded.1 = .ok
    · rw [if_pos hl] at hbuffer
      refine Or.inl ⟨_, rfl, himage, ?_, by rw [hloaded, hbuffer, ← hl]⟩
      rw [sqlite3mcDecrypt, hcipher] at hloaded
      rw [← hloaded, decryptPage_ok_iff] at hl
      exact hl.2 hcheck hauth
    · rw [if_neg hl] at hbuffer
      exact Or.inr hbuffer
  · have hout : s.real.length < (pageNo - 1) * pageSize + pageSize := by omega
    obtain ⟨hrc, hbuffer⟩ := pageRead_outside P codec hsize hout
    have hdrop : slice s.real ((pageNo - 1) * pageSize) pageSize =
        s.real.drop ((pageNo - 1) * pageSize) :=
      List.take_of_length_le (by rw [List.length_drop]; omega)
    rw [hdrop] at hbuffer
    constructor
    · intro h
      rcases h (Or.inr hrc) with ⟨image, rfl, hlen, -⟩ | hzeros
      · rw [length_slice] at hlen
        omega
      · refine Or.inr (Or.inr fun b hb => ?_)
        rw [hbuffer] at hzeros
        have hmem : b ∈ zeros pageSize := hzeros ▸ List.mem_append_left _ hb
        exact List.eq_of_mem_replicate hmem
    · intro h _
      refine Or.inr ?_
      have hzero : ∀ b ∈ s.real.drop ((pageNo - 1) * pageSize), b = 0 := by
        rcases h with h | h | h
        · rw [List.drop_of_length_le h]
          exact fun b hb => absurd hb List.not_mem_nil
        · exact absurd h hin
        · exact h
      rw [hbuffer, List.eq_replicate_of_mem hzero]
      rw [zeros, zeros, ← List.replicate_add, List.length_replicate, List.length_drop]
      congr 1
      omega

end Facts

/-! ### An example -/

/-- Behind the end of the file there are zeros. -/
theorem pageRead_authentic_behindEnd :
    AuthenticRead nullPrimitives chacha20Codec
      (.chacha20 ⟨0, 0, 64007, 0, zeros 32, zeros 16⟩) 512 2
      (zeros 512) (pageRead nullPrimitives chacha20Codec 512 2 ⟨zeros 512, rc4Env, 0, []⟩) :=
  (pageRead_authentic_iff nullPrimitives (show chacha20Codec.isEncrypted = true from rfl) rfl rfl
    (by decide) rfl (by decide) (by decide) ⟨zeros 512, rc4Env, 0, []⟩).mpr
      (Or.inl (by simp [length_zeros]))

/-- **A page that is cut off.** The file ends with one byte of page 2, and the read delivers it. -/
theorem pageRead_unauthenticated :
    ¬ AuthenticRead nullPrimitives chacha20Codec
      (.chacha20 ⟨0, 0, 64007, 0, zeros 32, zeros 16⟩) 512
      2 (zeros 512 ++ [7])
      (pageRead nullPrimitives chacha20Codec 512 2 ⟨zeros 512 ++ [7], rc4Env, 0, []⟩) := by
  obtain ⟨file, hfile⟩ : ∃ file : Bytes, file = zeros 512 ++ [7] := ⟨_, rfl⟩
  have hlen : file.length = 513 := by
    rw [hfile, List.length_append, length_zeros]
    rfl
  have hrest : slice file ((2 - 1) * 512) 512 = [7] := by
    rw [hfile, slice, List.drop_left' (length_zeros 512)]
    rfl
  rw [← hfile]
  intro h
  obtain ⟨hrc, hread⟩ := pageRead_outside (s := ⟨file, rc4Env, 0, []⟩) nullPrimitives chacha20Codec
    le_rfl (show file.length < (2 - 1) * 512 + 512 from hlen.trans_lt (by decide))
  rcases h (Or.inr hrc) with ⟨image, rfl, himage, -⟩ | hzeros
  · rw [hrest] at himage
    cases himage
  · rw [hread, hrest] at hzeros
    cases hzeros

end MultipleCiphers
