import MultipleCiphers.Ciphers.InPlace

/-!
# A page is encrypted where it lies

The consequences of the two equations for the routines in CBC mode. Encrypting a page in its
buffer and decrypting it there again restores the memory; a file written on a machine with AES
instructions can be read on one without; and the routines on memory are the functions
`rijndaelEncrypt` and `rijndaelDecrypt` from which the page formats are built.

## Buffers that overlap

Two buffers that overlap without being the same are not part of this. Encryption would not mind:
software and hardware agree for any two pointers. Decryption would: with an incomplete last block
the software adds the block in front to the one it has just stored, and the hardware has read that
block before. The example at the end has such a pair of buffers. No caller has one.

## Main results

* `rijndael_inPlace` — encrypting and decrypting in place.
* `aesCBC_eq_software` — hardware and software agree.
* `rijndaelBlockEncrypt_page`, `rijndaelBlockDecrypt_page` — the functions of the page formats.
-/

namespace MultipleCiphers

open Bytes BlockCipher

/-- **Encrypting in place, then decrypting in place, is the identity**, for every block permutation
and every length of at least one block. Encryption writes the bytes of the string, all of them and
no others; so does decryption, and then every byte of the memory is what it was. -/
theorem rijndael_inPlace {A : AesPlatform} {e d : Rijndael} (he : e.Ready .encrypt)
    (hd : d.Ready .decrypt) (hiv : d.initVector = e.initVector)
    (hperm : BlockPermutation 16 (A.encryptBlock e) (A.decryptBlock d)) (m : Memory) {buf len : ℕ}
    (hbuf : buf ≠ 0) (hlen : 16 ≤ len) :
    let encrypted := (rijndaelBlockEncrypt A e m buf (8 * len : ℕ) buf).2
    let decrypted := (rijndaelBlockDecrypt A d encrypted buf (8 * len : ℕ) buf).2
    decrypted.load buf len = m.load buf len ∧ decrypted.byte = m.byte ∧
      (∀ a, encrypted.written a = true ↔ Memory.InRange buf len a ∨ m.written a = true) ∧
      (∀ a, ¬ Memory.InRange buf len a → encrypted.byte a = m.byte a) ∧
      decrypted.written = encrypted.written := by
  have hone : SameOrApart buf buf len := .inl rfl
  obtain ⟨hclen, hround⟩ := ctsDecrypt_ctsEncrypt (by decide) hperm.length_enc hperm.dec_enc
    he.length_initVector (by rwa [Memory.length_load] : 16 ≤ (m.load buf len).length)
  obtain ⟨c, hc⟩ : ∃ c, c = ctsEncrypt 16 (A.encryptBlock e) e.initVector (m.load buf len) :=
    ⟨_, rfl⟩
  rw [← hc, Memory.length_load] at hclen
  have hreadc : (m.store buf c).load buf len = c := by
    have hself := m.load_store_self buf c
    rwa [hclen] at hself
  have hlenp : (m.load buf len).length = c.length := by rw [Memory.length_load, hclen]
  have henc : (rijndaelBlockEncrypt A e m buf (8 * len : ℕ) buf).2 = m.store buf c := by
    rw [rijndaelBlockEncrypt_eq_store he (fun _ _ => rfl) hperm.length_enc hone hbuf hlen, hc]
  have hdec : (rijndaelBlockDecrypt A d (m.store buf c) buf (8 * len : ℕ) buf).2 =
      m.store buf (m.load buf len) := by
    rw [rijndaelBlockDecrypt_eq_store hd (fun _ _ => rfl) hperm.length_dec hone hbuf hlen, hreadc,
      hiv, hc, hround, ← hc]
    exact m.store_store hlenp
  simp only [henc, hdec]
  refine ⟨?_, ?_, fun a => ?_, fun a ha => ?_, ?_⟩
  · have hself := m.load_store_self buf (m.load buf len)
    rwa [Memory.length_load] at hself
  · exact m.byte_store_load buf len
  · rw [Memory.written_store, hclen]
  · exact m.byte_store_of_not_inRange (by rwa [hclen])
  · funext a
    rw [Bool.eq_iff_iff, Memory.written_store, Memory.written_store, hlenp]

/-- A platform whose block cipher turns a block around, whatever the key is, and a context for each
direction. -/
def reversingPlatform : AesPlatform where
  rijndaelEncryptBlock _ b := b.reverse
  rijndaelDecryptBlock _ b := b.reverse
  expandKey _ _ := zeros 176
  hardware := none

def reversingContext (dir : RijndaelDirection) : Rijndael :=
  (rijndaelInit reversingPlatform ⟨.invalid, .cbc, dir, [], 0, []⟩ .cbc dir (some (zeros 16))
    .key16Bytes (some (zeros 16))).2

theorem ready_reversingContext (dir : RijndaelDirection) : (reversingContext dir).Ready dir :=
  (ready_rijndaelInit _ _ dir _ _ (length_zeros 16)).1

theorem blockPermutation_reverse : BlockPermutation 16 List.reverse List.reverse where
  length_enc b hb := by rw [List.length_reverse, hb]
  length_dec b hb := by rw [List.length_reverse, hb]
  dec_enc b _ := List.reverse_reverse b
  enc_dec b _ := List.reverse_reverse b

/-- 21 bytes at address 16, one block and a fragment. -/
theorem rijndael_inPlace_fragment :
    let encrypted := (rijndaelBlockEncrypt reversingPlatform (reversingContext .encrypt)
      ⟨fun a => UInt8.ofNat a, fun _ => false⟩ 16 (8 * 21 : ℕ) 16).2
    let decrypted := (rijndaelBlockDecrypt reversingPlatform (reversingContext .decrypt) encrypted
      16 (8 * 21 : ℕ) 16).2
    decrypted.load 16 21 = (⟨fun a => UInt8.ofNat a, fun _ => false⟩ : Memory).load 16 21 :=
  (rijndael_inPlace (A := reversingPlatform) (ready_reversingContext .encrypt)
    (ready_reversingContext .decrypt) rfl blockPermutation_reverse _ (by decide) (by decide)).1

/-! ### Hardware and software -/

/-- **Hardware and software agree.** With a key schedule for which the instructions and the
software have the same block operations, `aesEncryptCBC` leaves the memory that the software branch
of `RijndaelBlockEncrypt` leaves, and `aesDecryptCBC` that of `RijndaelBlockDecrypt`, in place or
from one buffer to another. -/
theorem aesCBC_eq_software {A : AesPlatform} {hardware : AesHardware} {e d : Rijndael}
    (he : e.Ready .encrypt) (hd : d.Ready .decrypt)
    (hperm : BlockPermutation 16 (A.rijndaelEncryptBlock e) (A.rijndaelDecryptBlock d))
    (henc : ∀ b : Bytes, b.length = 16 →
      hardware.encryptBlock e.expandedKey e.rounds b = A.rijndaelEncryptBlock e b)
    (hdec : ∀ b : Bytes, b.length = 16 →
      hardware.decryptBlock d.expandedKey d.rounds b = A.rijndaelDecryptBlock d b)
    (m : Memory) {inp out len : ℕ} (hinp : inp ≠ 0) (hlen : 16 ≤ len)
    (hbuf : SameOrApart inp out len) :
    aesEncryptCBC (hardware.encryptBlock e.expandedKey e.rounds) m inp out e.initVector len =
        (rijndaelBlockEncrypt { A with hardware := none } e m inp (8 * len : ℕ) out).2 ∧
      aesDecryptCBC (hardware.decryptBlock d.expandedKey d.rounds) m inp out d.initVector len =
        (rijndaelBlockDecrypt { A with hardware := none } d m inp (8 * len : ℕ) out).2 := by
  have hguard : ¬ (inp = 0 ∨ ((8 * len : ℕ) : ℤ) ≤ 0) := by omega
  have hdir : ¬ (d.mode ≠ .cfb1 ∧ d.direction = .encrypt) := by
    rw [hd.direction]
    rintro ⟨_, h⟩
    cases h
  obtain ⟨hblocks, hfrag, _⟩ := bits_eq len
  constructor
  · rw [rijndaelBlockEncrypt, if_neg (not_not.mpr he.state), if_neg (not_not.mpr he.direction),
      if_neg hguard]
    simp only [he.mode, hblocks, hfrag]
    exact (cbcEncryptSoftware_eq henc hperm.length_enc he.length_initVector m inp out hlen).symm
  · rw [rijndaelBlockDecrypt, if_neg (not_not.mpr hd.state), if_neg hdir, if_neg hguard]
    simp only [hd.mode, hblocks, hfrag]
    exact (cbcDecryptSoftware_eq hdec hperm.length_dec hd.length_initVector hbuf m hlen).symm

/-- Instructions that turn a block around in the last round. -/
def reversingHardware : AesHardware :=
  .ni (fun x _ => x) (fun x _ => x.reverse) (fun x _ => x) fun x _ => x.reverse

/-- The round keys of the context are zero, and adding them changes nothing. -/
theorem reversingHardware_block (dir : RijndaelDirection) {b : Bytes} (hb : b.length = 16) :
    reversingHardware.encryptBlock (reversingContext dir).expandedKey (reversingContext dir).rounds
        b = b.reverse ∧
      reversingHardware.decryptBlock (reversingContext dir).expandedKey
        (reversingContext dir).rounds b = b.reverse := by
  have hfirst : AesHardware.roundKey (zeros 176) 0 = zeros 16 := by decide
  have hlast : AesHardware.roundKey (zeros 176) 10 = zeros 16 := by decide
  have hzero : xorBytes b (zeros 16) = b := xorBytes_zeros (by omega)
  have hkey : (reversingContext dir).expandedKey = zeros 176 := rfl
  have hrounds : (reversingContext dir).rounds = 10 := rfl
  constructor
  · simp only [reversingHardware, AesHardware.encryptBlock, hkey, hfirst, hzero,
      List.foldl_fixed]
  · simp only [reversingHardware, AesHardware.decryptBlock, hkey, hrounds, hlast, hzero,
      List.foldl_fixed]

/-- The 21 bytes at address 16, to address 64. -/
theorem aesCBC_eq_software_fragment :
    aesEncryptCBC (reversingHardware.encryptBlock (reversingContext .encrypt).expandedKey
        (reversingContext .encrypt).rounds) ⟨fun a => UInt8.ofNat a, fun _ => false⟩ 16 64
        (reversingContext .encrypt).initVector 21 =
      (rijndaelBlockEncrypt reversingPlatform (reversingContext .encrypt)
        ⟨fun a => UInt8.ofNat a, fun _ => false⟩ 16 (8 * 21 : ℕ) 64).2 ∧
    aesDecryptCBC (reversingHardware.decryptBlock (reversingContext .decrypt).expandedKey
        (reversingContext .decrypt).rounds) ⟨fun a => UInt8.ofNat a, fun _ => false⟩ 16 64
        (reversingContext .decrypt).initVector 21 =
      (rijndaelBlockDecrypt reversingPlatform (reversingContext .decrypt)
        ⟨fun a => UInt8.ofNat a, fun _ => false⟩ 16 (8 * 21 : ℕ) 64).2 :=
  aesCBC_eq_software (A := reversingPlatform) (ready_reversingContext .encrypt)
    (ready_reversingContext .decrypt) blockPermutation_reverse
    (fun _ hb => (reversingHardware_block .encrypt hb).1)
    (fun _ hb => (reversingHardware_block .decrypt hb).2)
    _ (by decide) (by decide) (.inr (.inl (by decide)))

/-- Two buffers that overlap, the output 16 bytes before the input: 33 bytes decrypted by the
software and by the hardware differ at the second block. -/
example :
    (aesDecryptCBC List.reverse ⟨fun a => UInt8.ofNat a, fun _ => false⟩ 32 16 (zeros 16) 33).byte
        32 ≠
      (cbcDecryptSoftware List.reverse (zeros 16) ⟨fun a => UInt8.ofNat a, fun _ => false⟩ 32 16 2
        1).1.byte 32 := by
  decide

/-! ### The functions of the page formats -/

/-- The platform has the block cipher of `P`, on contexts that `RijndaelInit` gets ready: in any
mode, with a vector or without. -/
structure AesPlatform.Realises (A : AesPlatform) (P : Primitives) : Prop where
  encryptBlock : ∀ rijndael mode key keyLen initVector b, key.length = keyLen.bytes →
    b.length = 16 →
      A.encryptBlock (rijndaelInit A rijndael mode .encrypt (some key) keyLen initVector).2 b =
        P.aesEncrypt key b
  decryptBlock : ∀ rijndael mode key keyLen initVector b, key.length = keyLen.bytes →
    b.length = 16 →
      A.decryptBlock (rijndaelInit A rijndael mode .decrypt (some key) keyLen initVector).2 b =
        P.aesDecrypt key b

section Pages

variable {A : AesPlatform} {P : Primitives} (hreal : A.Realises P) (rijndael : Rijndael)
  {key iv : Bytes} {keyLen : RijndaelKeyLength} (hkey : key.length = keyLen.bytes)
  (hiv : iv.length = 16) (m : Memory) {buf len : ℕ} (hbuf : buf ≠ 0) (hlen : 16 ≤ len)
include hreal hkey hiv hbuf hlen

/-- `RijndaelInit` and `RijndaelBlockEncrypt` replace a buffer by `rijndaelEncrypt` of its bytes. -/
theorem rijndaelBlockEncrypt_page :
    (rijndaelBlockEncrypt A
        (rijndaelInit A rijndael .cbc .encrypt (some key) keyLen (some iv)).2 m buf (8 * len : ℕ)
        buf).2 =
      m.store buf (rijndaelEncrypt P key iv (m.load buf len)) := by
  obtain ⟨hready, hvector⟩ := ready_rijndaelInit A rijndael .encrypt key keyLen hiv
  rw [rijndaelBlockEncrypt_eq_store hready
    (fun b hb => hreal.encryptBlock rijndael .cbc key keyLen (some iv) b hkey hb)
    (P.length_aesEncrypt key) (.inl rfl) hbuf hlen, hvector, rijndaelEncrypt]

/-- `RijndaelInit` and `RijndaelBlockDecrypt` replace a buffer by `rijndaelDecrypt` of its bytes. -/
theorem rijndaelBlockDecrypt_page :
    (rijndaelBlockDecrypt A
        (rijndaelInit A rijndael .cbc .decrypt (some key) keyLen (some iv)).2 m buf (8 * len : ℕ)
        buf).2 =
      m.store buf (rijndaelDecrypt P key iv (m.load buf len)) := by
  obtain ⟨hready, hvector⟩ := ready_rijndaelInit A rijndael .decrypt key keyLen hiv
  rw [rijndaelBlockDecrypt_eq_store hready
    (fun b hb => hreal.decryptBlock rijndael .cbc key keyLen (some iv) b hkey hb)
    (P.length_aesDecrypt key) (.inl rfl) hbuf hlen, hvector, rijndaelDecrypt]

end Pages

end MultipleCiphers
