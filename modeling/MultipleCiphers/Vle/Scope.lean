import MultipleCiphers.Vle.RoundTrip

/-!
# What the scope of an encrypted value is good for

A value encrypted under one scope should not be decrypted under another. The scope has one way
into a frame: `sha512` of it is what the buffer of the one-time key holds when the key is made.
ChaCha20 combines its key stream with that. `AsconGenOtk` writes its hash over it, and the scope is
gone.

The two scopes to compare are those the arguments stand for, and an argument without bytes stands
for the default scope. `vle_getScope` means to put it there, but asks whether the pointer to the
length is null. So an absent scope is the empty one, and a value encrypted without a scope is not
decrypted under the default scope by its name.

## Assumptions

That the hash separates the two scopes, and that the tags of the two one-time keys differ if the
keys do, are hypotheses about the scopes, the keys and the frame at hand.

## Main results

* `vleOneTimeKey_ascon` — with Ascon-128, the one-time key is the same under every scope.
* `vleAccepts_iff` — a value is decrypted exactly under the scopes with its one-time key.
* `vle_scope_iff` — exactly when the scope decides whether a value can be decrypted.
-/

namespace MultipleCiphers

open Bytes

section Scope

variable {P : VlePrimitives} {ctx : VleContext} {nonce data c s t : Bytes}

/-! ### Scopes -/

/-- `VLE_DEFAULT_SCOPE`. -/
def vleDefaultScope : Bytes := asciiBytes "@vle:default-scope"

/-- The scope an argument stands for: the bytes of a text or a blob, and the default scope for
everything else and for no bytes. -/
def vleDenotedScope (arg : Option SqlValue) : Bytes :=
  if vleGetScope arg = [] then vleDefaultScope else vleGetScope arg

/-- Two arguments stand for one scope if they have the same bytes, or if one has none and the other
names the default scope. -/
theorem vleDenotedScope_eq_iff {arg arg' : Option SqlValue} :
    vleDenotedScope arg = vleDenotedScope arg' ↔
      vleGetScope arg = vleGetScope arg' ∨
        (vleGetScope arg = [] ∧ vleGetScope arg' = vleDefaultScope) ∨
          (vleGetScope arg = vleDefaultScope ∧ vleGetScope arg' = []) := by
  have hne : vleDefaultScope ≠ [] := by decide
  rw [vleDenotedScope, vleDenotedScope]
  by_cases h : vleGetScope arg = [] <;> by_cases h' : vleGetScope arg' = []
  · simp [h, h']
  · simp [h, h', hne, eq_comm]
  · simp [h, h']
  · simp [h, h']

/-! ### One-time keys -/

variable (P ctx) in
/-- The bytes of the one-time key that an algorithm uses: 32 bytes for Ascon-128, 64
for ChaCha20. -/
def vleOneTimeKey (nonce scope : Bytes) : Bytes :=
  if ctx.algorithm = codecTypeAscon128 then (vleAsconOtk P ctx nonce scope).take 32
  else vleChaCha20Otk P ctx nonce scope

/-- **Ascon-128 has one key for all scopes**: the hash covers all 32 bytes that are used. -/
theorem vleOneTimeKey_ascon (halg : ctx.algorithm = codecTypeAscon128) (nonce s t : Bytes) :
    vleOneTimeKey P ctx nonce s = vleOneTimeKey P ctx nonce t := by
  have hhash := P.length_asconHash (ctx.key ++ nonce ++ put4byte vleMagicNum)
  simp only [vleOneTimeKey, if_pos halg, vleAsconOtk, splice, List.take_zero, List.nil_append]
  rw [List.take_append_of_le_length hhash.ge, List.take_append_of_le_length hhash.ge]

/-- The key stream does not hide a difference of the digests. -/
theorem sha512_eq_of_vleOneTimeKey (halg : ctx.algorithm = codecTypeChaCha20)
    (h : vleOneTimeKey P ctx nonce s = vleOneTimeKey P ctx nonce t) : P.sha512 s = P.sha512 t := by
  have hne : ctx.algorithm ≠ codecTypeAscon128 := by rw [halg]; decide
  have hfits : ∀ b, (P.sha512 b).length ≤
      (P.chacha20Stream ctx.key (nonce.take 12) (vleCounter ctx nonce) 64).length := fun b => by
    rw [P.length_sha512, P.length_chacha20Stream]
  rw [vleOneTimeKey, vleOneTimeKey, if_neg hne, if_neg hne, vleChaCha20Otk, vleChaCha20Otk] at h
  rw [← xorBytes_xorBytes_cancel (hfits s), h, xorBytes_xorBytes_cancel (hfits t)]

/-- The scope enters the decryption through the one-time key only. -/
theorem vlePlain_congr
    (h : vleOneTimeKey P ctx (data.drop vleHeaderLen) s =
      vleOneTimeKey P ctx (data.drop vleHeaderLen) t) :
    vlePlain P ctx data c s = vlePlain P ctx data c t ∧
      vleTag P ctx data c s = vleTag P ctx data c t := by
  simp only [vlePlain, vleTag]
  by_cases halg : ctx.algorithm = codecTypeAscon128
  · rw [vleOneTimeKey, vleOneTimeKey, if_pos halg, if_pos halg] at h
    have h16 := congrArg (List.take 16) h
    rw [List.take_take, List.take_take] at h16
    simp only [if_pos halg]
    exact ⟨congrArg (P.asconDecryptAd data c (data.drop vleHeaderLen)) h16,
      congrArg (P.asconTagAd data c (data.drop vleHeaderLen)) h16⟩
  · rw [vleOneTimeKey, vleOneTimeKey, if_neg halg, if_neg halg] at h
    simp only [if_neg halg, h, and_self]

/-! ### Decrypting under another scope -/

variable (P ctx) in
/-- The blob is decrypted without an error. -/
def VleAccepts (limit : ℕ) (blob : Bytes) (scopeArg : Option SqlValue) (env : Env) : Prop :=
  ∃ c, vleDecrypt P ctx limit (some (.blob blob)) scopeArg env = some c ∧ c.isError = .ok

theorem isError_of_sqlite3ResultText {limit : ℕ} {r : SqlContext} {b : Bytes}
    (h : (sqlite3ResultText limit r b).isError = .ok) : r.isError = .ok := by
  rw [sqlite3ResultText] at h
  split at h
  · cases h
  · exact h

theorem isError_of_sqlite3ResultBlob {limit : ℕ} {r : SqlContext} {b : Bytes}
    (h : (sqlite3ResultBlob limit r b).isError = .ok) : r.isError = .ok := by
  rw [sqlite3ResultBlob] at h
  split at h
  · cases h
  · exact h

/-- What is unpacked does not undo an error. -/
theorem isError_of_vleUnpackValue {limit : ℕ} {r r' : SqlContext} {buffer : Bytes} {pos len : ℤ}
    (h : vleUnpackValue limit r buffer pos len = some r') (hr' : r'.isError = .ok) :
    r.isError = .ok := by
  rw [vleUnpackValue] at h
  simp only [Option.bind_eq_bind, Option.bind_eq_some_iff, Option.pure_def] at h
  obtain ⟨type, _, h⟩ := h
  split at h
  · cases h
    exact hr'
  · obtain ⟨b, _, h⟩ := Option.bind_eq_some_iff.mp h
    cases h
    exact hr'
  · obtain ⟨b, _, h⟩ := Option.bind_eq_some_iff.mp h
    cases h
    exact hr'
  · split at h <;>
      · obtain ⟨b, _, h⟩ := Option.bind_eq_some_iff.mp h
        cases h
        exact isError_of_sqlite3ResultText hr'
  · split at h
    · cases h
    · obtain ⟨b, _, h⟩ := Option.bind_eq_some_iff.mp h
      cases h
      exact isError_of_sqlite3ResultBlob hr'
  · cases h
    exact hr'

/-- **A value is decrypted exactly under the scopes with its one-time key**, provided that another
key gives another tag. -/
theorem vleAccepts_iff (hctx : ctx.Keyed) {limit : ℕ} {v : SqlValue}
    (hnan : ∀ bits, v = .float bits → sqlite3IsNaN bits = false) (hnonce : nonce.length = 16)
    (hc : c.length = v.packed.length) (hlimit : v.payload.length ≤ limit)
    (hplain : vlePlain P ctx (vleHeader ctx ++ nonce) c s = v.packed)
    {scopeArg : Option SqlValue} {env : Env} (henv : env.Grants)
    (htag : vleOneTimeKey P ctx nonce s ≠ vleOneTimeKey P ctx nonce (vleGetScope scopeArg) →
      vleTag P ctx (vleHeader ctx ++ nonce) c s ≠
        vleTag P ctx (vleHeader ctx ++ nonce) c (vleGetScope scopeArg)) :
    VleAccepts P ctx limit ((vleHeader ctx ++ nonce) ++ c ++
        vleTag P ctx (vleHeader ctx ++ nonce) c s) scopeArg env ↔
      vleOneTimeKey P ctx nonce s = vleOneTimeKey P ctx nonce (vleGetScope scopeArg) := by
  have hdrop : (vleHeader ctx ++ nonce).drop vleHeaderLen = nonce := rfl
  have hdata : (vleHeader ctx ++ nonce).length = 20 := by
    rw [List.length_append, hnonce]
    rfl
  have hclen : c.length = v.payload.length + 1 := by rw [hc, SqlValue.length_packed]
  have hpos : (vleHeaderLen : ℤ) + (ctx.nonceLen : ℤ) = (20 : ℕ) := by
    rw [hctx.nonceLen]
    rfl
  rw [VleAccepts, vleDecrypt_frame hctx limit hnonce (by omega) (length_vleTag _ _ _) scopeArg henv]
  constructor
  · rintro ⟨r, hr, hok⟩
    by_contra hkey
    rw [if_neg (htag hkey), vleFinish, if_pos (by simp)] at hr
    have herror := isError_of_vleUnpackValue hr hok
    rw [sqlite3ResultError] at herror
    cases herror
  · intro hkey
    obtain ⟨hplain', htag'⟩ := vlePlain_congr (P := P) (c := c) (hdrop ▸ hkey :
      vleOneTimeKey P ctx ((vleHeader ctx ++ nonce).drop vleHeaderLen) s = _)
    refine ⟨⟨v, .ok⟩, ?_, rfl⟩
    rw [if_pos htag', ← hplain', hplain, hclen, Nat.add_sub_cancel, vleFinish,
      if_neg (by simp), hpos]
    exact vleUnpackValue_packed hnan hlimit hdata _ _

/-- **When the scope decides.** A value encrypted under one scope argument is decrypted under
another exactly if the two stand for the same scope, if and only if

* with Ascon-128: they do stand for the same scope;
* with ChaCha20: it is not so that one of them has no bytes and the other names the default scope.

`nonce`, header and encrypted part are those of the blob. -/
theorem vle_scope_iff (P : VlePrimitives) {ctx : VleContext} (hctx : ctx.Keyed) {limit : ℕ}
    {v : SqlValue} (hnan : ∀ bits, v = .float bits → sqlite3IsNaN bits = false)
    {scope scope' : Option SqlValue} {env env' : Env} {blob : Bytes}
    (henc : (vleEncrypt P ctx limit (some v) scope env).1 = ⟨.blob blob, .ok⟩)
    (henv' : env'.Grants)
    (hhash : P.sha512 (vleGetScope scope) = P.sha512 (vleGetScope scope') →
      vleGetScope scope = vleGetScope scope')
    (htag : vleOneTimeKey P ctx (slice blob 4 16) (vleGetScope scope) ≠
        vleOneTimeKey P ctx (slice blob 4 16) (vleGetScope scope') →
      vleTag P ctx (slice blob 0 20) (slice blob 20 (blob.length - 36)) (vleGetScope scope) ≠
        vleTag P ctx (slice blob 0 20) (slice blob 20 (blob.length - 36)) (vleGetScope scope')) :
    (VleAccepts P ctx limit blob scope' env' ↔ vleDenotedScope scope = vleDenotedScope scope') ↔
      (ctx.algorithm = codecTypeAscon128 ∧ vleDenotedScope scope = vleDenotedScope scope') ∨
        (ctx.algorithm = codecTypeChaCha20 ∧
          ¬ (vleGetScope scope = [] ∧ vleGetScope scope' = vleDefaultScope) ∧
            ¬ (vleGetScope scope = vleDefaultScope ∧ vleGetScope scope' = [])) := by
  obtain ⟨hlimit, nonce, c, hnonce, hc, hblob, hplain⟩ := vleEncrypt_eq_blob hctx henc
  have hdata : (vleHeader ctx ++ nonce).length = 20 := by
    rw [List.length_append, hnonce]
    rfl
  have hlen : blob.length = 36 + c.length := by
    rw [hblob, List.length_append, List.length_append, hdata, length_vleTag]
    omega
  have hpayload : v.payload.length ≤ limit := by
    rw [SqlValue.length_packed] at hc
    omega
  have hnonceAt : slice blob 4 16 = nonce := by
    rw [hblob, List.append_assoc, List.append_assoc, ← List.append_assoc (vleHeader ctx)]
    exact slice_append rfl hnonce
  have hdataAt : slice blob 0 20 = vleHeader ctx ++ nonce := by
    rw [hblob, List.append_assoc]
    exact slice_append (a := []) rfl hdata
  have hcAt : slice blob 20 (blob.length - 36) = c := by
    rw [hlen, Nat.add_sub_cancel_left, hblob]
    exact slice_append hdata rfl
  rw [hnonceAt, hdataAt, hcAt] at htag
  have haccepts := vleAccepts_iff hctx hnan hnonce hc hpayload hplain henv' htag
  rw [hblob, haccepts]
  rcases hctx.algorithm with halg | halg
  · -- ChaCha20: the key tells the bytes of the scopes
    have hkey : vleOneTimeKey P ctx nonce (vleGetScope scope) =
        vleOneTimeKey P ctx nonce (vleGetScope scope') ↔
          vleGetScope scope = vleGetScope scope' :=
      ⟨fun h => hhash (sha512_eq_of_vleOneTimeKey halg h), fun h => by rw [h]⟩
    have hne : vleDefaultScope ≠ [] := by decide
    have hcodes : codecTypeChaCha20 ≠ codecTypeAscon128 := by decide
    rw [hkey, vleDenotedScope_eq_iff, halg]
    simp only [hcodes, false_and, false_or, true_and]
    constructor
    · rintro h
      constructor <;> rintro ⟨h1, h2⟩
      · exact hne (h2.symm.trans ((h.mpr (Or.inr (Or.inl ⟨h1, h2⟩))).symm.trans h1))
      · exact hne (h1.symm.trans ((h.mpr (Or.inr (Or.inr ⟨h1, h2⟩))).trans h2))
    · rintro ⟨h1, h2⟩
      refine ⟨Or.inl, ?_⟩
      rintro (h | h | h)
      · exact h
      · exact absurd h h1
      · exact absurd h h2
  · -- Ascon-128: every scope has the key
    have hkey := vleOneTimeKey_ascon (P := P) halg nonce (vleGetScope scope) (vleGetScope scope')
    have hcodes : codecTypeAscon128 ≠ codecTypeChaCha20 := by decide
    rw [halg]
    simp only [hkey, hcodes, true_and, false_and, or_false, true_iff]

/-- The integer `7`, encrypted by `copyVlePrimitives` with ChaCha20 under the scope `a`: the tag
shows the digest of the scope. -/
def sevenUnderA : Bytes :=
  [vleMagic, vleVersion, 3, 0] ++ zeros 16 ++ [1, 0, 0, 0, 0, 0, 0, 0, 7] ++ (0x61 :: zeros 15)

set_option maxRecDepth 10000 in
/-- With ChaCha20, the scope `a` decides. -/
theorem vle_scope_sample :
    (VleAccepts copyVlePrimitives (zeroVleContext codecTypeChaCha20) 1000000000 sevenUnderA
        (some (.text (asciiBytes "b"))) grantingEnv ↔
      vleDenotedScope (some (.text (asciiBytes "a"))) =
        vleDenotedScope (some (.text (asciiBytes "b")))) := by
  have henc : (vleEncrypt copyVlePrimitives (zeroVleContext codecTypeChaCha20) 1000000000
      (some (.integer 7)) (some (.text (asciiBytes "a"))) grantingEnv).1 =
        ⟨.blob sevenUnderA, .ok⟩ := by
    decide
  refine (vle_scope_iff copyVlePrimitives (zeroVleContext_keyed (Or.inl rfl)) (by simp) henc
    (fun _ => rfl) (fun h => ?_) (fun _ => ?_)).mpr (Or.inr ⟨rfl, ?_, ?_⟩)
  · exact absurd h (by decide)
  · decide
  · exact fun h => absurd h.1 (by decide)
  · exact fun h => absurd h.2 (by decide)

set_option maxRecDepth 10000 in
/-- With Ascon-128 the scope does not decide: the integer `7`, encrypted under the scope `a`, is
decrypted under the scope `b`, though the hash tells the two scopes apart. -/
theorem vle_scope_ignored :
    ∃ blob, (vleEncrypt copyVlePrimitives (zeroVleContext codecTypeAscon128) 1000000000
          (some (.integer 7)) (some (.text (asciiBytes "a"))) grantingEnv).1 = ⟨.blob blob, .ok⟩ ∧
      VleAccepts copyVlePrimitives (zeroVleContext codecTypeAscon128) 1000000000 blob
        (some (.text (asciiBytes "b"))) grantingEnv ∧
      copyVlePrimitives.sha512 (asciiBytes "a") ≠ copyVlePrimitives.sha512 (asciiBytes "b") ∧
      vleDenotedScope (some (.text (asciiBytes "a"))) ≠
        vleDenotedScope (some (.text (asciiBytes "b"))) :=
  ⟨[vleMagic, vleVersion, 6, 0] ++ zeros 16 ++ [1, 0, 0, 0, 0, 0, 0, 0, 7] ++ zeros 16,
    by decide, ⟨⟨.integer 7, .ok⟩, by decide, rfl⟩, by decide,
    by decide⟩

end Scope

end MultipleCiphers
