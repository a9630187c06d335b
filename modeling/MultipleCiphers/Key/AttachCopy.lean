import MultipleCiphers.Key.OneShot
import MultipleCiphers.Ciphers.Authenticity
import MultipleCiphers.Rekey.CodecState

/-!
# ATTACH without a key

A database that is attached without a key gets a copy of the main database's codec. The copy should
encrypt and decrypt as the main codec does, and making it should have no other effect.

The page functions of the copy are those of the main codec, for cloning copies every field of a
cipher. One number is not copied: the count of reserved bytes, which is set to what the write cipher
asks for. It is the main codec's own number except after a decryption of the main database that
failed, when the main codec has no write cipher.

The effect is another matter. Each of the two ciphers is allocated before it is overwritten, and an
allocation reads the pending parameters of its cipher and so resets them.

## Main definitions

* `Cipher.SameReserved` — two counts of reserved bytes are the same to a cipher.
* `FaithfulAttach` — what the attached database should get, and what should stay.

## Main results

* `encryptPage_eq_iff` — a cipher encrypts the same with two counts exactly if they are the same to
  it.
* `attach_faithful_iff` — exactly when an ATTACH without a key is faithful.
* `attach_uses_pending` — an ATTACH that loses a pending iteration count.
-/

namespace MultipleCiphers

open Bytes

/-! ### Reserved bytes -/

/-- Two counts of reserved bytes that a cipher cannot tell apart: both are accepted and it uses as
many bytes of a page, or none is accepted. -/
def Cipher.SameReserved (cipher : Cipher) (a b : ℤ) : Prop :=
  cipher.fits a = cipher.fits b ∧ (cipher.fits a = true → cipher.nReserved a = cipher.nReserved b)

theorem Cipher.SameReserved.refl (cipher : Cipher) (a : ℤ) : cipher.SameReserved a a :=
  ⟨rfl, fun _ => rfl⟩

theorem Cipher.SameReserved.symm {cipher : Cipher} {a b : ℤ} (h : cipher.SameReserved a b) :
    cipher.SameReserved b a :=
  ⟨h.1.symm, fun hb => (h.2 (h.1.trans hb)).symm⟩

/-- The random bytes a page takes. -/
def Cipher.nonceBytes : Cipher → ℕ
  | .aes128 _ | .aes256 _ | .rc4 _ => 0
  | .chacha20 _ | .ascon128 _ => 16
  | .sqlcipher _ => 128
  | .aegis c => c.nonceLength

section Reserved

variable {P : Primitives} {cipher : Cipher} {a b : ℤ}

/-- A cipher with a page that fits uses either no reserved bytes or all its own. -/
theorem Cipher.nReserved_eq (h : 0 < cipher.nReserved a ↔ 0 < cipher.nReserved b) :
    cipher.nReserved a = cipher.nReserved b := by
  have hown : ∀ {p q : Prop} [Decidable p] [Decidable q] {n : ℕ},
      (0 < (if p then 0 else n) ↔ 0 < (if q then 0 else n)) →
        (if p then 0 else n) = if q then 0 else n := by
    intro p q _ _ n h
    split_ifs at h ⊢ <;> omega
  cases cipher with
  | aes128 c => rfl
  | aes256 c => rfl
  | rc4 c => rfl
  | chacha20 c => exact hown h
  | sqlcipher c => exact hown h
  | ascon128 c => exact hown h
  | aegis c => exact hown h

/-- The random bytes that encrypting a page uses up. -/
theorem encryptPage_env (hfits : cipher.fits a = true) (page : ℕ) (data : Bytes) (env : Env) :
    (builtinEncryptPage P cipher page data a env).2.2 =
      if 0 < cipher.nReserved a then (env.chacha20Rng cipher.nonceBytes).2 else env := by
  cases cipher with
  | aes128 c => rfl
  | aes256 c => rfl
  | rc4 c => rfl
  | chacha20 c =>
    have hfits : chacha20Fits c a = true := hfits
    by_cases hn : 0 < (Cipher.chacha20 c).nReserved a
    · have hn' : 0 < chacha20NReserved c.legacy a := hn
      rw [if_pos hn]
      simp only [builtinEncryptPage, mcChaCha20Descriptor, encryptPageChaCha20Cipher, hfits,
        if_true, gt_iff_lt, if_pos hn']
      rfl
    · have hn' : ¬ 0 < chacha20NReserved c.legacy a := hn
      rw [if_neg hn]
      simp only [builtinEncryptPage, mcChaCha20Descriptor, encryptPageChaCha20Cipher, hfits,
        if_true, gt_iff_lt, if_neg hn']
  | sqlcipher c =>
    have hfits : sqlCipherFits c a = true := hfits
    by_cases hn : 0 < (Cipher.sqlcipher c).nReserved a
    · have hn' : 0 < sqlCipherNReserved c a := hn
      rw [if_pos hn]
      simp only [builtinEncryptPage, mcSQLCipherDescriptor, encryptPageSQLCipherCipher, hfits,
        if_true, gt_iff_lt, if_pos hn']
      rfl
    · have hn' : ¬ 0 < sqlCipherNReserved c a := hn
      rw [if_neg hn]
      simp only [builtinEncryptPage, mcSQLCipherDescriptor, encryptPageSQLCipherCipher, hfits,
        if_true, gt_iff_lt, if_neg hn']
  | ascon128 c =>
    have hfits : aeadFits pageReservedAscon128 a = true := hfits
    by_cases hn : 0 < (Cipher.ascon128 c).nReserved a
    · have hn' : 0 < aeadNReserved pageReservedAscon128 a := hn
      rw [if_pos hn]
      simp only [builtinEncryptPage, mcAscon128Descriptor, encryptPageAscon128Cipher, hfits,
        if_true, gt_iff_lt, if_pos hn']
      rfl
    · have hn' : ¬ 0 < aeadNReserved pageReservedAscon128 a := hn
      rw [if_neg hn]
      simp only [builtinEncryptPage, mcAscon128Descriptor, encryptPageAscon128Cipher, hfits,
        if_true, gt_iff_lt, if_neg hn']
  | aegis c =>
    have hfits : aeadFits (getReservedAegisCipher c) a = true := hfits
    by_cases hn : 0 < (Cipher.aegis c).nReserved a
    · have hn' : 0 < aeadNReserved (getReservedAegisCipher c) a := hn
      rw [if_pos hn]
      simp only [builtinEncryptPage, mcAegisDescriptor, encryptPageAegisCipher, hfits, if_true,
        gt_iff_lt, if_pos hn']
      rfl
    · have hn' : ¬ 0 < aeadNReserved (getReservedAegisCipher c) a := hn
      rw [if_neg hn]
      simp only [builtinEncryptPage, mcAegisDescriptor, encryptPageAegisCipher, hfits, if_true,
        gt_iff_lt, if_neg hn']

/-- Of a count of reserved bytes a cipher sees no more. -/
theorem encryptPage_congr (h : cipher.SameReserved a b) (page : ℕ) (data : Bytes) (env : Env) :
    builtinEncryptPage P cipher page data a env = builtinEncryptPage P cipher page data b env := by
  obtain ⟨hfits, hn⟩ := h
  by_cases ha : cipher.fits a = true
  · have hb : cipher.fits b = true := hfits ▸ ha
    have hn := hn ha
    cases cipher with
    | aes128 c => rfl
    | aes256 c => rfl
    | rc4 c => rfl
    | chacha20 c =>
      have ha : chacha20Fits c a = true := ha
      have hb : chacha20Fits c b = true := hb
      have hn : chacha20NReserved c.legacy a = chacha20NReserved c.legacy b := hn
      simp only [builtinEncryptPage, mcChaCha20Descriptor, encryptPageChaCha20Cipher, ha, hb, hn]
    | sqlcipher c =>
      have ha : sqlCipherFits c a = true := ha
      have hb : sqlCipherFits c b = true := hb
      have hn : sqlCipherNReserved c a = sqlCipherNReserved c b := hn
      simp only [builtinEncryptPage, mcSQLCipherDescriptor, encryptPageSQLCipherCipher, ha, hb, hn]
    | ascon128 c =>
      have ha : aeadFits pageReservedAscon128 a = true := ha
      have hb : aeadFits pageReservedAscon128 b = true := hb
      have hn : aeadNReserved pageReservedAscon128 a = aeadNReserved pageReservedAscon128 b := hn
      simp only [builtinEncryptPage, mcAscon128Descriptor, encryptPageAscon128Cipher, ha, hb, hn]
    | aegis c =>
      have ha : aeadFits (getReservedAegisCipher c) a = true := ha
      have hb : aeadFits (getReservedAegisCipher c) b = true := hb
      have hn : aeadNReserved (getReservedAegisCipher c) a =
        aeadNReserved (getReservedAegisCipher c) b := hn
      simp only [builtinEncryptPage, mcAegisDescriptor, encryptPageAegisCipher, ha, hb, hn]
  · have ha := Bool.eq_false_of_not_eq_true ha
    have hb : cipher.fits b = false := hfits ▸ ha
    exact (encryptPage_refused (P := P) 0 ha page data env).trans
      (encryptPage_refused 0 hb page data env).symm

theorem decryptPage_congr (h : cipher.SameReserved a b) (page : ℕ) (data : Bytes)
    (hmacCheck : ℤ) :
    builtinDecryptPage P cipher page data a hmacCheck =
      builtinDecryptPage P cipher page data b hmacCheck := by
  obtain ⟨hfits, hn⟩ := h
  cases cipher with
  | aes128 c => rfl
  | aes256 c => rfl
  | rc4 c => rfl
  | chacha20 c =>
    have hfits : chacha20Fits c a = chacha20Fits c b := hfits
    simp only [builtinDecryptPage, mcChaCha20Descriptor, decryptPageChaCha20Cipher, ← hfits]
    split
    · rename_i ha
      have hn : chacha20NReserved c.legacy a = chacha20NReserved c.legacy b := hn ha
      rw [hn]
    · rfl
  | sqlcipher c =>
    have hfits : sqlCipherFits c a = sqlCipherFits c b := hfits
    simp only [builtinDecryptPage, mcSQLCipherDescriptor, decryptPageSQLCipherCipher, ← hfits]
    split
    · rename_i ha
      have hn : sqlCipherNReserved c a = sqlCipherNReserved c b := hn ha
      rw [hn]
    · rfl
  | ascon128 c =>
    have hfits : aeadFits pageReservedAscon128 a = aeadFits pageReservedAscon128 b := hfits
    simp only [builtinDecryptPage, mcAscon128Descriptor, decryptPageAscon128Cipher, ← hfits]
    split
    · rename_i ha
      have hn : aeadNReserved pageReservedAscon128 a = aeadNReserved pageReservedAscon128 b := hn ha
      rw [hn]
    · rfl
  | aegis c =>
    have hfits : aeadFits (getReservedAegisCipher c) a = aeadFits (getReservedAegisCipher c) b :=
      hfits
    simp only [builtinDecryptPage, mcAegisDescriptor, decryptPageAegisCipher, ← hfits]
    split
    · rename_i ha
      have hn : aeadNReserved (getReservedAegisCipher c) a =
        aeadNReserved (getReservedAegisCipher c) b := hn ha
      rw [hn]
    · rfl

/-- A cipher that uses reserved bytes takes a nonce. -/
theorem Cipher.nonceBytes_ne_zero (cipher : Cipher) (hlengths : cipher.AllocatedLengths)
    (hn : 0 < cipher.nReserved a) : cipher.nonceBytes ≠ 0 := by
  cases cipher with
  | aes128 c => exact absurd hn (Nat.lt_irrefl 0)
  | aes256 c => exact absurd hn (Nat.lt_irrefl 0)
  | rc4 c => exact absurd hn (Nat.lt_irrefl 0)
  | chacha20 c => simp [Cipher.nonceBytes]
  | sqlcipher c => simp [Cipher.nonceBytes]
  | ascon128 c => simp [Cipher.nonceBytes]
  | aegis c =>
    have hlength : c.nonceLength = aegisKeyLength c.aegisAlgorithm := hlengths
    show c.nonceLength ≠ 0
    rcases aegisKeyLength_cases c.aegisAlgorithm with hkey | hkey <;> omega

/-- An environment whose next random byte is not a later one. -/
def markedEnv : Env where
  codecParams := []
  cipherNames := []
  malloc := fun _ => true
  random := fun i => if i = 0 then 1 else 0
  argon2 := fun _ => .enough

/-- **Encryption tells two counts of reserved bytes apart** unless they are the same to
the cipher. -/
theorem encryptPage_eq_iff (hlengths : cipher.AllocatedLengths) :
    (∀ page data env, builtinEncryptPage P cipher page data a env =
      builtinEncryptPage P cipher page data b env) ↔ cipher.SameReserved a b := by
  constructor
  · intro h
    have hcode : (if cipher.fits a then ResultCode.ok else .corrupt) =
        if cipher.fits b then ResultCode.ok else .corrupt := by
      rw [← encryptPage_code (P := P) 0 cipher 0 [] a markedEnv,
        ← encryptPage_code (P := P) 0 cipher 0 [] b markedEnv]
      exact congrArg Prod.fst (h 0 [] markedEnv)
    have hfits : cipher.fits a = cipher.fits b := by
      rcases ha : cipher.fits a with _ | _ <;> rcases hb : cipher.fits b with _ | _ <;>
        simp [ha, hb] at hcode ⊢
    refine ⟨hfits, fun ha => Cipher.nReserved_eq ?_⟩
    -- a page that takes a nonce moves the marked byte
    have hmoved : ∀ {reserved : ℤ}, cipher.fits reserved = true →
        ((builtinEncryptPage P cipher 0 [] reserved markedEnv).2.2.random 0 = 0 ↔
          0 < cipher.nReserved reserved) := by
      intro reserved hreserved
      rw [encryptPage_env hreserved]
      by_cases hn : 0 < cipher.nReserved reserved
      · have hnonce : cipher.nonceBytes ≠ 0 := cipher.nonceBytes_ne_zero hlengths hn
        rw [if_pos hn]
        exact iff_of_true (if_neg (by omega)) hn
      · rw [if_neg hn]
        exact iff_of_false (by decide) hn
    rw [← hmoved ha, ← hmoved (hfits ▸ ha), h 0 [] markedEnv]
  · intro h page data env
    exact encryptPage_congr h page data env

end Reserved

/-! ### The page functions of the copy -/

/-- A codec that says it has a cipher has one, and an AEGIS cipher the lengths of its allocation. -/
structure Codec.HasCiphers (codec : Codec Cipher) : Prop where
  read : codec.hasReadCipher = true → ∃ r, codec.readCipher = some r ∧ r.AllocatedLengths
  write : codec.hasWriteCipher = true → ∃ w, codec.writeCipher = some w ∧ w.AllocatedLengths

/-- The codec of the attached database: that of the main database but for the reserved bytes, and
without a cipher where it is not used. -/
def attachedCodec (P : Primitives) (main : Codec Cipher) : Codec Cipher :=
  { main with
    readCipher := if main.hasReadCipher then main.readCipher else none
    writeCipher := if main.hasWriteCipher then main.writeCipher else none
    reserved := sqlite3mcGetReservedWriteCipher (builtinDescriptors P) main
    keySalt := none }

/-- The number of reserved bytes is one the ciphers in use cannot tell from that of the write
cipher, unless it is overridden. -/
def Codec.ReservedAgrees (P : Primitives) (main : Codec Cipher) : Prop :=
  (∀ r, main.hasReadCipher = true → main.readCipher = some r → main.readReserved < 0 →
      r.SameReserved main.reserved (sqlite3mcGetReservedWriteCipher (builtinDescriptors P) main)) ∧
    ∀ w, main.hasWriteCipher = true → main.writeCipher = some w → main.writeReserved < 0 →
      w.SameReserved main.reserved (sqlite3mcGetReservedWriteCipher (builtinDescriptors P) main)

/-- Two codecs with the same page functions, for every page number, content and nonce. -/
def SamePages (P : Primitives) (codec codec' : Codec Cipher) : Prop :=
  ∀ data page mode env, sqlite3mcCodec (builtinDescriptors P) codec' data page mode env =
    sqlite3mcCodec (builtinDescriptors P) codec data page mode env

section Pages

variable {P : Primitives} {main : Codec Cipher}

/-- After a key operation the numbers are equal. -/
theorem Codec.reservedAgrees_of_eq
    (h : main.reserved = sqlite3mcGetReservedWriteCipher (builtinDescriptors P) main) :
    main.ReservedAgrees P :=
  ⟨fun r _ _ _ => h ▸ Cipher.SameReserved.refl r _, fun w _ _ _ => h ▸ Cipher.SameReserved.refl w _⟩

/-- Same page functions tell the reserved bytes apart: journal pages are encrypted with the read
cipher, database pages with the write cipher. -/
theorem reservedAgrees_of_samePages (henc : main.isEncrypted = true) (hciphers : main.HasCiphers)
    (h : SamePages P main (attachedCodec P main)) : main.ReservedAgrees P := by
  constructor
  · intro r hread hr hoverride
    obtain ⟨r', hr', hlengths⟩ := hciphers.read hread
    obtain rfl := Option.some.inj (hr.symm.trans hr')
    refine (encryptPage_eq_iff (P := P) hlengths).mp fun page data env => ?_
    have hpage := h data page .journal env
    simp only [sqlite3mcCodec, attachedCodec, henc, hread, hr, if_true, sqlite3mcEncrypt,
      Bool.false_eq_true, if_false, Codec.readReservedBytes, ge_iff_le, not_le.mpr hoverride]
      at hpage
    exact hpage.symm
  · intro w hwrite hw hoverride
    obtain ⟨w', hw', hlengths⟩ := hciphers.write hwrite
    obtain rfl := Option.some.inj (hw.symm.trans hw')
    refine (encryptPage_eq_iff (P := P) hlengths).mp fun page data env => ?_
    have hpage := h data page .database env
    simp only [sqlite3mcCodec, attachedCodec, henc, hwrite, hw, if_true, sqlite3mcEncrypt,
      Codec.writeReservedBytes, ge_iff_le, not_le.mpr hoverride, if_false] at hpage
    exact hpage.symm

/-- To the read cipher the copy has the reserved bytes of the original. -/
theorem Codec.ReservedAgrees.readBytes (h : main.ReservedAgrees P) {r : Cipher}
    (hhas : main.hasReadCipher = true) (hr : main.readCipher = some r) :
    r.SameReserved (attachedCodec P main).readReservedBytes main.readReservedBytes := by
  rw [Codec.readReservedBytes, Codec.readReservedBytes]
  by_cases hoverride : main.readReserved ≥ 0
  · rw [if_pos hoverride, if_pos (show (attachedCodec P main).readReserved ≥ 0 from hoverride)]
    exact Cipher.SameReserved.refl r _
  · rw [if_neg hoverride, if_neg (show ¬ (attachedCodec P main).readReserved ≥ 0 from hoverride)]
    exact (h.1 r hhas hr (not_le.mp hoverride)).symm

/-- To the write cipher too. -/
theorem Codec.ReservedAgrees.writeBytes (h : main.ReservedAgrees P) {w : Cipher}
    (hhas : main.hasWriteCipher = true) (hw : main.writeCipher = some w) :
    w.SameReserved (attachedCodec P main).writeReservedBytes main.writeReservedBytes := by
  rw [Codec.writeReservedBytes, Codec.writeReservedBytes]
  by_cases hoverride : main.writeReserved ≥ 0
  · rw [if_pos hoverride, if_pos (show (attachedCodec P main).writeReserved ≥ 0 from hoverride)]
    exact Cipher.SameReserved.refl w _
  · rw [if_neg hoverride, if_neg (show ¬ (attachedCodec P main).writeReserved ≥ 0 from hoverride)]
    exact (h.2 w hhas hw (not_le.mp hoverride)).symm

/-- With a read cipher in use, the copy decrypts a page and encrypts one for a journal like the
original. -/
theorem Codec.ReservedAgrees.read_eq (h : main.ReservedAgrees P) {r : Cipher}
    (hhas : main.hasReadCipher = true) (hr : main.readCipher = some r) (page : ℕ) (data : Bytes)
    (env : Env) :
    sqlite3mcDecrypt (builtinDescriptors P) (attachedCodec P main) page data =
        sqlite3mcDecrypt (builtinDescriptors P) main page data ∧
      sqlite3mcEncrypt (builtinDescriptors P) (attachedCodec P main) page data false env =
        sqlite3mcEncrypt (builtinDescriptors P) main page data false env := by
  have hcopy : (attachedCodec P main).readCipher = some r := by
    rw [attachedCodec, hhas, if_pos rfl, hr]
  have hbytes := h.readBytes hhas hr
  constructor
  · rw [sqlite3mcDecrypt, sqlite3mcDecrypt, hr, hcopy]
    exact decryptPage_congr hbytes page data main.hmacCheck
  · rw [sqlite3mcEncrypt, sqlite3mcEncrypt, hr, hcopy]
    exact encryptPage_congr hbytes page data env

theorem Codec.ReservedAgrees.samePages (henc : main.isEncrypted = true)
    (hciphers : main.HasCiphers) (h : main.ReservedAgrees P) :
    SamePages P main (attachedCodec P main) := by
  intro data page mode env
  have henc' : (attachedCodec P main).isEncrypted = true := henc
  cases mode with
  | load =>
    rcases hhas : main.hasReadCipher with _ | _
    · have hhas' : (attachedCodec P main).hasReadCipher = false := hhas
      simp [sqlite3mcCodec, henc, henc', hhas, hhas']
    · have hhas' : (attachedCodec P main).hasReadCipher = true := hhas
      obtain ⟨r, hr, -⟩ := hciphers.read hhas
      simp only [sqlite3mcCodec, henc, henc', hhas, hhas', (h.read_eq hhas hr page data env).1]
  | database =>
    rcases hhas : main.hasWriteCipher with _ | _
    · have hhas' : (attachedCodec P main).hasWriteCipher = false := hhas
      simp [sqlite3mcCodec, henc, henc', hhas, hhas']
    · have hhas' : (attachedCodec P main).hasWriteCipher = true := hhas
      obtain ⟨w, hw, -⟩ := hciphers.write hhas
      have hcopy : (attachedCodec P main).writeCipher = some w := by
        rw [attachedCodec, hhas, if_pos rfl, hw]
      rw [sqlite3mcCodec_database henc' hhas' hcopy, sqlite3mcCodec_database henc hhas hw]
      exact encryptPage_congr (h.writeBytes hhas hw) page data env
  | journal =>
    rcases hhas : main.hasReadCipher with _ | _
    · have hhas' : (attachedCodec P main).hasReadCipher = false := hhas
      simp [sqlite3mcCodec, henc, henc', hhas, hhas']
    · have hhas' : (attachedCodec P main).hasReadCipher = true := hhas
      obtain ⟨r, hr, -⟩ := hciphers.read hhas
      simp only [sqlite3mcCodec, henc, henc', hhas, hhas', (h.read_eq hhas hr page data env).2]

/-- **The copy encrypts and decrypts like the original** exactly if the reserved bytes agree. -/
theorem samePages_attachedCodec_iff (henc : main.isEncrypted = true) (hciphers : main.HasCiphers) :
    SamePages P main (attachedCodec P main) ↔ main.ReservedAgrees P :=
  ⟨reservedAgrees_of_samePages henc hciphers, Codec.ReservedAgrees.samePages henc hciphers⟩

end Pages

/-! ### The pending parameters -/

/-- Nothing is pending of what the allocation of a cipher reads. -/
def Env.NothingPending (env : Env) (cipherType : ℕ) : Prop :=
  ∀ p ∈ env.paramsAt cipherType,
    env.skipsHeader cipherType = true ∧ p.name = "plaintext_header_size" ∨ p.value = p.default

/-- The tables after one cipher has been copied, if there is one. -/
def Env.afterCopy (env : Env) (hasCipher : Bool) (cipherType : ℕ) : Env :=
  if hasCipher then env.afterAllocation cipherType else env

section Tables

variable {P : Primitives} {env env' : Env} {t : ℕ}

theorem Env.SameTables.symm (h : env.SameTables env') : env'.SameTables env :=
  ⟨h.codecParams.symm, h.cipherNames.symm⟩

theorem Env.SameTables.nothingPending_iff (h : env.SameTables env') (t : ℕ) :
    env'.NothingPending t ↔ env.NothingPending t := by
  rw [Env.NothingPending, Env.NothingPending, h.paramsAt, h.skipsHeader]

/-- **An allocation leaves the tables as they are** exactly if nothing it reads is pending. -/
theorem sameTables_afterAllocation_iff (h : env.HasBuiltinParams) (ht : t ≤ 7) :
    env.SameTables (env.afterAllocation t) ↔ env.NothingPending t := by
  rw [Env.NothingPending, ← map_usedUp_eq_self_iff, ← h.afterAllocation_paramsAt ht]
  constructor
  · intro hsame
    exact hsame.paramsAt t
  · intro hparams
    rw [h.afterAllocation_paramsAt ht] at hparams
    rw [Env.afterAllocation, hparams, Env.setParamsAt_paramsAt]
    exact Env.SameTables.refl env

/-- Two allocations, one after the other. -/
theorem sameTables_afterAllocation_twice_iff (h : env.HasBuiltinParams) {t t' : ℕ} (ht : t ≤ 7)
    (ht' : t' ≤ 7) :
    env.SameTables ((env.afterAllocation t).afterAllocation t') ↔
      env.NothingPending t ∧ env.NothingPending t' := by
  have hfirst := h.afterAllocation t
  constructor
  · intro hsame
    have hread : env.NothingPending t := by
      have hparams := hsame.paramsAt t
      by_cases htt : t' = t
      · subst htt
        rw [hfirst.afterAllocation_paramsAt ht, h.afterAllocation_paramsAt ht,
          map_usedUp_map_usedUp] at hparams
        intro p hp
        rcases map_usedUp_eq_self_iff.mp hparams p hp with ⟨hskip, hname⟩ | hp
        · exact Or.inl ⟨(Bool.and_eq_true_iff.mp hskip).1, hname⟩
        · exact Or.inr hp
      · rw [Env.afterAllocation_paramsAt_of_ne _ htt, h.afterAllocation_paramsAt ht] at hparams
        exact map_usedUp_eq_self_iff.mp hparams
    refine ⟨hread, ?_⟩
    have hsame₁ := (sameTables_afterAllocation_iff h ht).mpr hread
    have hsame₂ := hsame₁.symm.trans hsame
    exact (hsame₁.nothingPending_iff t').mp
      ((sameTables_afterAllocation_iff hfirst ht').mp hsame₂)
  · rintro ⟨hread, hwrite⟩
    have hsame₁ := (sameTables_afterAllocation_iff h ht).mpr hread
    exact hsame₁.trans ((sameTables_afterAllocation_iff hfirst ht').mpr
      ((hsame₁.nothingPending_iff t').mpr hwrite))

/-- What a successful copy of a cipher has done. -/
theorem copyOneCipher_ok (h : env.HasBuiltinParams) {hasCipher : Bool} {other copy : Option Cipher}
    (hother : hasCipher = true → other.isSome = true)
    (hcopy : copyOneCipher (builtinDescriptors P) hasCipher t other env = (.ok, copy, env')) :
    copy = (if hasCipher then other else none) ∧ (hasCipher = true → t ≤ 7) ∧
      (env.afterCopy hasCipher t).SameTables env' := by
  rcases hasCipher with _ | _
  · simp only [copyOneCipher, Bool.false_eq_true, if_false, Prod.mk.injEq, true_and] at hcopy
    obtain ⟨rfl, rfl⟩ := hcopy
    exact ⟨rfl, nofun, Env.SameTables.refl env⟩
  · obtain ⟨source, rfl⟩ := Option.isSome_iff_exists.mp (hother rfl)
    rcases hal : builtinAllocate t env with ⟨_ | c, env₁⟩
    · have hal : (builtinDescriptors P t).allocateCipher env = (none, env₁) := hal
      simp [copyOneCipher, hal] at hcopy
    · have hal' : (builtinDescriptors P t).allocateCipher env = (some c, env₁) := hal
      simp only [copyOneCipher, if_true, hal', cloneInto, CipherDescriptor.cloneCipher_eq,
        Prod.mk.injEq, true_and] at hcopy
      obtain ⟨rfl, rfl⟩ := hcopy
      exact ⟨rfl, fun _ => (builtinAllocate_some hal).1.2, (builtinAllocate_tables h hal).1⟩

theorem Env.HasBuiltinParams.afterCopy (h : env.HasBuiltinParams) (hasCipher : Bool) (t : ℕ) :
    (env.afterCopy hasCipher t).HasBuiltinParams := by
  rw [Env.afterCopy]
  split
  · exact h.afterAllocation t
  · exact h

theorem Env.SameTables.sqlite3mcGetCipherType (h : env.SameTables env') :
    env'.sqlite3mcGetCipherType.1 = env.sqlite3mcGetCipherType.1 := by
  rw [Env.sqlite3mcGetCipherType, Env.sqlite3mcGetCipherType, h.paramsAt]

theorem afterCopy_cipherNames (env : Env) (hasCipher : Bool) (t : ℕ) :
    (env.afterCopy hasCipher t).cipherNames = env.cipherNames := by
  cases hasCipher <;> rfl

theorem Env.SameTables.afterCopy (h : env.SameTables env') (hasCipher : Bool) (t : ℕ) :
    (env.afterCopy hasCipher t).SameTables (env'.afterCopy hasCipher t) := by
  rw [Env.afterCopy, Env.afterCopy]
  split
  · exact h.afterAllocation t
  · exact h

/-- **What copying a codec does**: the copy, and the tables. -/
theorem sqlite3mcCodecCopy_ok (h : env.HasBuiltinParams) {codec main copy : Codec Cipher}
    (hciphers : main.HasCiphers)
    (hcopy : sqlite3mcCodecCopy (builtinDescriptors P) codec main env = (.ok, copy, env')) :
    (copy = { main with
        readCipher := if main.hasReadCipher then main.readCipher else none
        writeCipher := if main.hasWriteCipher then main.writeCipher else none
        reserved := codec.reserved
        keySalt := codec.keySalt }) ∧
      (main.hasReadCipher = true → main.readCipherType ≤ 7) ∧
      (main.hasWriteCipher = true → main.writeCipherType ≤ 7) ∧
      ((env.afterCopy main.hasReadCipher main.readCipherType).afterCopy main.hasWriteCipher
        main.writeCipherType).SameTables env' := by
  have hreadSome : main.hasReadCipher = true → main.readCipher.isSome = true := fun hhas => by
    obtain ⟨r, hr, -⟩ := hciphers.read hhas
    rw [hr]
    rfl
  have hwriteSome : main.hasWriteCipher = true → main.writeCipher.isSome = true := fun hhas => by
    obtain ⟨w, hw, -⟩ := hciphers.write hhas
    rw [hw]
    rfl
  rcases hread : copyOneCipher (builtinDescriptors P) main.hasReadCipher main.readCipherType
    main.readCipher env with ⟨rcRead, readCipher, env₁⟩
  rcases hwrite : copyOneCipher (builtinDescriptors P) main.hasWriteCipher main.writeCipherType
    main.writeCipher env₁ with ⟨rcWrite, writeCipher, env₂⟩
  simp only [sqlite3mcCodecCopy, hread, hwrite, Prod.mk.injEq] at hcopy
  obtain ⟨hrc, rfl, rfl⟩ := hcopy
  obtain rfl : rcRead = .ok := by
    by_contra hno
    rw [if_neg hno] at hrc
    exact hno hrc
  obtain rfl : rcWrite = .ok := by rwa [if_pos rfl] at hrc
  obtain ⟨rfl, hreadType, htables₁⟩ := copyOneCipher_ok h hreadSome hread
  have h₁ := (h.afterCopy main.hasReadCipher main.readCipherType).sameTables htables₁
  obtain ⟨rfl, hwriteType, htables₂⟩ := copyOneCipher_ok h₁ hwriteSome hwrite
  refine ⟨rfl, hreadType, hwriteType, ?_⟩
  exact (htables₁.afterCopy main.hasWriteCipher main.writeCipherType).trans htables₂

/-- **Copying the ciphers of a codec leaves the tables as they are** exactly if nothing is pending
for either of them. -/
theorem sameTables_afterCopy_iff (h : env.HasBuiltinParams) {hasRead hasWrite : Bool}
    {readType writeType : ℕ} (hread : hasRead = true → readType ≤ 7)
    (hwrite : hasWrite = true → writeType ≤ 7) :
    env.SameTables ((env.afterCopy hasRead readType).afterCopy hasWrite writeType) ↔
      (hasRead = true → env.NothingPending readType) ∧
        (hasWrite = true → env.NothingPending writeType) := by
  cases hasRead with
  | false =>
    cases hasWrite with
    | false => exact iff_of_true (Env.SameTables.refl env) ⟨nofun, nofun⟩
    | true =>
      have hone := sameTables_afterAllocation_iff h (hwrite rfl)
      exact ⟨fun hsame => ⟨nofun, fun _ => hone.mp hsame⟩,
        fun hnothing => hone.mpr (hnothing.2 rfl)⟩
  | true =>
    cases hasWrite with
    | false =>
      have hone := sameTables_afterAllocation_iff h (hread rfl)
      exact ⟨fun hsame => ⟨fun _ => hone.mp hsame, nofun⟩,
        fun hnothing => hone.mpr (hnothing.1 rfl)⟩
    | true =>
      have htwo := sameTables_afterAllocation_twice_iff h (hread rfl) (hwrite rfl)
      exact ⟨fun hsame => ⟨fun _ => (htwo.mp hsame).1, fun _ => (htwo.mp hsame).2⟩,
        fun hnothing => htwo.mpr ⟨hnothing.1 rfl, hnothing.2 rfl⟩⟩

end Tables

/-! ### The attached database

The main codec is one of the arguments and is only read. -/

/-- The storage layer does not touch the parameters of the connection. -/
def StorageOps.KeepsTables {σ π : Type} (ops : StorageOps σ π) : Prop :=
  ∀ (pageSize nReserved : ℤ) (store : π) (env : Env),
    env.SameTables (ops.btreeSetPageSize pageSize nReserved store env).2.2

/-- **An ATTACH without a key that is faithful and has no side effect**: the attached database has
the page functions of the main codec, and what was pending on the connection still is. -/
structure FaithfulAttach {π : Type} (P : Primitives) (main : Codec Cipher) (db db' : Db Cipher π) :
    Prop where
  pages : ∃ codec, db'.codec = some codec ∧ SamePages P main codec
  params : db'.env.codecParams = db.env.codecParams
  selection : db'.env.sqlite3mcGetCipherType.1 = db.env.sqlite3mcGetCipherType.1

section Attach

variable {π : Type} {P : Primitives} {ops : StorageOps Cipher π} {t : KeyTarget Cipher}
  {main : Codec Cipher} {db db' : Db Cipher π}

theorem mcAdjustBtree_tables (hops : ops.KeepsTables) (nPageSize nReserved isLegacy : ℤ)
    (store : π) (env : Env) :
    env.SameTables (mcAdjustBtree ops nPageSize nReserved isLegacy store env).2.2 := by
  simp only [mcAdjustBtree]
  generalize (if nPageSize > 0 then nPageSize else ops.btreeGetPageSize store) = pageSize
  split
  · exact hops _ _ _ _
  · exact Env.SameTables.refl env

/-- What the installation of a codec does to the file and to the tables. -/
theorem installCodec_spec (hops : ops.KeepsTables) (hsupported : t.isEncryptionSupported = true)
    (hregistered : t.fileRegistered = true) {codec : Codec Cipher} {store : π} {env : Env}
    (h : installCodec (builtinDescriptors P) ops t codec store env db = db') :
    db'.codec = some (sqlite3mcCodecSizeChange codec
        (sqlite3mcGetReservedWriteCipher (builtinDescriptors P) codec)) ∧
      env.SameTables db'.env := by
  subst h
  have htables := mcAdjustBtree_tables hops
    (sqlite3mcGetPageSizeWriteCipher (builtinDescriptors P) codec)
    (sqlite3mcGetReservedWriteCipher (builtinDescriptors P) codec)
    (sqlite3mcGetLegacyWriteCipher (builtinDescriptors P) codec) store env
  simp only [installCodec, sqlite3mcSetCodec, hsupported, hregistered, and_self, if_true]
  exact ⟨trivial, htables⟩

/-- A codec that a key operation has installed has the reserved bytes its write cipher asks for. -/
theorem installCodec_reservedAgrees (hops : ops.KeepsTables)
    (hsupported : t.isEncryptionSupported = true) (hregistered : t.fileRegistered = true)
    {codec installed : Codec Cipher} {store : π} {env : Env}
    (h : installCodec (builtinDescriptors P) ops t codec store env db = db')
    (hcodec : db'.codec = some installed) : installed.ReservedAgrees P := by
  have hspec := (installCodec_spec hops hsupported hregistered h).1
  obtain rfl := Option.some.inj (hspec.symm.trans hcodec)
  exact Codec.reservedAgrees_of_eq rfl

/-- The number of reserved bytes depends on the write cipher in use alone. -/
theorem reservedWriteCipher_copy (codec main : Codec Cipher) (readCipher : Option Cipher) :
    sqlite3mcGetReservedWriteCipher (builtinDescriptors P) { main with
      readCipher := readCipher
      writeCipher := if main.hasWriteCipher then main.writeCipher else none
      reserved := codec.reserved
      keySalt := codec.keySalt } = sqlite3mcGetReservedWriteCipher (builtinDescriptors P) main := by
  rcases hhas : main.hasWriteCipher with _ | _ <;>
    simp [sqlite3mcGetReservedWriteCipher, hhas]

/-- What a successful ATTACH without a key has done. -/
theorem handleAttachKey_ok (hops : ops.KeepsTables) (h : db.env.HasBuiltinParams)
    (hmain : t.mainCodec = some main) (henc : main.isEncrypted = true)
    (hciphers : main.HasCiphers) (hattached : t.isMain = false)
    (hsupported : t.isEncryptionSupported = true) (hregistered : t.fileRegistered = true)
    (hrun : sqlite3mcHandleAttachKey (builtinDescriptors P) ops t ⟨none, none, none⟩ .null db =
      some (.ok, db')) :
    db'.codec = some (attachedCodec P main) ∧
      (main.hasReadCipher = true → main.readCipherType ≤ 7) ∧
      (main.hasWriteCipher = true → main.writeCipherType ≤ 7) ∧
      ((db.env.afterCopy main.hasReadCipher main.readCipherType).afterCopy main.hasWriteCipher
        main.writeCipherType).SameTables db'.env := by
  have hattach : sqlite3mcCodecAttach (builtinDescriptors P) ops t none 1 db = (.ok, db') := by
    simpa [sqlite3mcHandleAttachKey, sqlite3mcCodecQueryParameters, sqlite3mcCodecGetKey, hmain,
      henc] using hrun
  rw [sqlite3mcCodecAttach] at hattach
  by_cases hgranted : db.env.sqlite3Malloc.1 = true
  · rcases hcopy : sqlite3mcCodecCopy (builtinDescriptors P) sqlite3mcCodecInit main
      db.env.sqlite3Malloc.2 with ⟨rc, copy, env₂⟩
    simp only [hgranted, if_true, Option.filter_none, hattached, zero_lt_one, gt_iff_lt, and_self,
      hmain, Option.filter_some, henc, hcopy] at hattach
    by_cases hrc : rc = .ok
    · subst hrc
      simp only [if_true, Prod.mk.injEq, true_and] at hattach
      have hmalloc : db.env.SameTables db.env.sqlite3Malloc.2 := ⟨rfl, rfl⟩
      obtain ⟨rfl, hreadType, hwriteType, htables⟩ :=
        sqlite3mcCodecCopy_ok (h.sameTables hmalloc) hciphers hcopy
      obtain ⟨hcodec, henv⟩ := installCodec_spec hops hsupported hregistered hattach
      refine ⟨?_, hreadType, hwriteType, ?_⟩
      · rw [hcodec, sqlite3mcCodecSizeChange, attachedCodec, reservedWriteCipher_copy]
        rfl
      · exact (((hmalloc.afterCopy _ _).afterCopy _ _).trans htables).trans henv
    · simp [hrc] at hattach
  · simp [hgranted] at hattach

/-- **Exactly when an ATTACH without a key is faithful.** The page functions are those of the main
codec if the reserved bytes agree, and nothing is lost if nothing is pending for a cipher that is
copied. -/
theorem attach_faithful_iff (hops : ops.KeepsTables) (h : db.env.HasBuiltinParams)
    (hmain : t.mainCodec = some main) (henc : main.isEncrypted = true)
    (hciphers : main.HasCiphers) (hattached : t.isMain = false)
    (hsupported : t.isEncryptionSupported = true) (hregistered : t.fileRegistered = true)
    (hrun : sqlite3mcHandleAttachKey (builtinDescriptors P) ops t ⟨none, none, none⟩ .null db =
      some (.ok, db')) :
    FaithfulAttach P main db db' ↔
      main.ReservedAgrees P ∧
        (main.hasReadCipher = true → db.env.NothingPending main.readCipherType) ∧
        (main.hasWriteCipher = true → db.env.NothingPending main.writeCipherType) := by
  obtain ⟨hcodec, hreadType, hwriteType, htables⟩ := handleAttachKey_ok hops h hmain henc hciphers
    hattached hsupported hregistered hrun
  rw [← samePages_attachedCodec_iff henc hciphers,
    ← sameTables_afterCopy_iff h hreadType hwriteType]
  constructor
  · rintro ⟨⟨codec, hcodec', hpages⟩, hparams, -⟩
    obtain rfl := Option.some.inj (hcodec'.symm.trans hcodec)
    exact ⟨hpages, htables.codecParams.symm.trans hparams,
      (afterCopy_cipherNames _ _ _).trans (afterCopy_cipherNames _ _ _)⟩
  · rintro ⟨hpages, hsame⟩
    have hend := hsame.trans htables
    exact ⟨⟨_, hcodec, hpages⟩, hend.codecParams, hend.sqlite3mcGetCipherType⟩

end Attach

/-! ### A value that is lost -/

/-- A database that is attached to a connection whose main database is encrypted with ChaCha20. -/
def attachTarget : KeyTarget Cipher where
  isMain := false
  isEncryptionSupported := true
  hasFileName := true
  dbFound := true
  fileRegistered := true
  mainCodec := some chacha20Codec
  cipherSalt := none
  isConfigured := true
  configureFromUri := fun _ env => (.ok, env)

theorem chacha20Codec_hasCiphers : chacha20Codec.HasCiphers where
  read := fun _ => ⟨_, rfl, trivial⟩
  write := fun _ => ⟨_, rfl, trivial⟩

theorem lockedStorage_keepsTables : lockedStorage.KeepsTables :=
  fun _ _ _ env => Env.SameTables.refl env

set_option maxRecDepth 10000 in
/-- **An ATTACH without a key loses what was pending.** A thousand iterations are pending
for the next database that is given a key; the ATTACH does not use them, and after it the
default is back. -/
theorem attach_uses_pending :
    let db : Db Cipher Unit := ⟨none, (), pendingEnv [(3, "kdf_iter", 1000)]⟩
    db.env.pendingParameter "chacha20" "kdf_iter" = 1000 ∧
      ∃ db', sqlite3mcHandleAttachKey (builtinDescriptors nullPrimitives) lockedStorage attachTarget
          ⟨none, none, none⟩ .null db = some (.ok, db') ∧
        db'.env.pendingParameter "chacha20" "kdf_iter" = 64007 ∧
        ¬ FaithfulAttach nullPrimitives chacha20Codec db db' := by
  refine ⟨by decide, _, rfl, by decide, fun h => ?_⟩
  have hparams := h.params
  revert hparams
  decide

/-- With nothing pending it is faithful. -/
theorem attach_faithful_iff_defaults :
    let db : Db Cipher Unit := ⟨none, (), pendingEnv []⟩
    ∃ db', sqlite3mcHandleAttachKey (builtinDescriptors nullPrimitives) lockedStorage attachTarget
        ⟨none, none, none⟩ .null db = some (.ok, db') ∧
      FaithfulAttach nullPrimitives chacha20Codec db db' := by
  have hnothing : (pendingEnv []).NothingPending 3 := by
    unfold Env.NothingPending
    decide
  have hmain : attachTarget.mainCodec = some chacha20Codec := rfl
  exact ⟨_, rfl, (attach_faithful_iff lockedStorage_keepsTables (pendingEnv_hasBuiltinParams [])
    hmain rfl chacha20Codec_hasCiphers rfl rfl rfl rfl).mpr
      ⟨Codec.reservedAgrees_of_eq (by decide), fun _ => hnothing, fun _ => hnothing⟩⟩

end MultipleCiphers
