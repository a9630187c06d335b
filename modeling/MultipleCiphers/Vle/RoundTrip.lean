import MultipleCiphers.Vle.Model

/-!
# Encrypting a value and decrypting it

The encoder and the decoder each compute where the parts of a frame lie. `vleAeadDecrypt_frame` is
what the two have to agree on: in a blob made of twenty bytes of header and nonce, an encrypted
part and sixteen bytes of tag, the decoder finds these parts.

What goes wrong is not in the frame. `vle_packValue` allocates the packed value, which for NULL,
an empty text and an empty blob has no bytes, and `sqlite3_malloc` returns the null pointer for a
request of none. And a frame is 37 bytes longer than the value in it, so that a text or blob near
the length limit of the connection has no encrypted form.

## Main results

* `vleAeadDecrypt_frame`, `vleEncrypt_frame` — what the two functions make of a frame.
* `vle_roundTrip_iff` — exactly which values are encrypted and decrypted again.
-/

namespace MultipleCiphers

open Bytes

/-! ### Reading the parts of a buffer -/

section Parts

variable {a b c : Bytes} {off len : ℕ}

theorem readWithin_append (ha : a.length = off) (hb : b.length = len) :
    readWithin (a ++ b ++ c) off len = some b := by
  rw [readWithin_of_le (by simp only [List.length_append]; omega), slice_append ha hb]

theorem readWithin_append_start (hlen : (a ++ b).length = len) :
    readWithin (a ++ b ++ c) 0 len = some (a ++ b) := by
  have h := readWithin_append (a := []) (b := a ++ b) (c := c) rfl hlen
  simpa using h

theorem readWithin_append_end (ha : (a ++ b).length = off) (hc : c.length = len) :
    readWithin (a ++ b ++ c) off len = some c := by
  have h := readWithin_append (a := a ++ b) (b := c) (c := []) ha hc
  simpa using h

theorem writeWithin_append {d : Bytes} (ha : a.length = off) (hd : d.length = b.length) :
    writeWithin (a ++ b ++ c) off d = some (a ++ d ++ c) := by
  rw [writeWithin_of_le (by simp only [List.length_append]; omega), splice_append ha hd]

theorem sizeOfInt_natCast (n : ℕ) : sizeOfInt n = n := by
  rw [sizeOfInt, if_pos (by omega), Int.toNat_natCast]

end Parts

section Frame

variable {P : VlePrimitives} {ctx : VleContext}

/-! ### What the decoder makes of a frame -/

variable (P ctx) in
/-- The bytes an encrypted part decrypts to, `data` being the header and the nonce. -/
def vlePlain (data c scope : Bytes) : Bytes :=
  let nonce := data.drop vleHeaderLen
  if ctx.algorithm = codecTypeAscon128 then
    P.asconDecryptAd data c nonce ((vleAsconOtk P ctx nonce scope).take 16)
  else vleChaCha20Xor P ctx nonce (vleChaCha20Otk P ctx nonce scope) c

variable (P ctx) in
/-- The tag the decoder expects. -/
def vleTag (data c scope : Bytes) : Bytes :=
  let nonce := data.drop vleHeaderLen
  if ctx.algorithm = codecTypeAscon128 then
    P.asconTagAd data c nonce ((vleAsconOtk P ctx nonce scope).take 16)
  else P.poly1305 (data ++ c) ((vleChaCha20Otk P ctx nonce scope).take 32)

theorem length_vleChaCha20Xor (nonce otk data : Bytes) :
    (vleChaCha20Xor P ctx nonce otk data).length = data.length := by
  simp [vleChaCha20Xor]

@[simp] theorem length_vlePlain (data c scope : Bytes) :
    (vlePlain P ctx data c scope).length = c.length := by
  simp only [vlePlain]
  by_cases halg : ctx.algorithm = codecTypeAscon128
  · rw [if_pos halg, P.length_asconDecryptAd]
  · rw [if_neg halg, length_vleChaCha20Xor]

@[simp] theorem length_vleTag (data c scope : Bytes) : (vleTag P ctx data c scope).length = 16 := by
  simp only [vleTag]
  by_cases halg : ctx.algorithm = codecTypeAscon128
  · rw [if_pos halg, P.length_asconTagAd]
  · rw [if_neg halg, P.length_poly1305]

/-- **The decoder finds the parts of a frame.** -/
theorem vleAeadDecrypt_frame (hctx : ctx.Keyed) {data c tag : Bytes} (hdata : data.length = 20)
    (htag : tag.length = 16) (scope : Bytes) :
    vleAeadDecrypt P ctx (data ++ c ++ tag) c.length scope =
      some (if tag = vleTag P ctx data c scope then .ok else .corrupt,
        data ++ vlePlain P ctx data c scope ++ tag) := by
  have hdl : ((vleHeaderLen : ℤ) + (ctx.nonceLen : ℤ)) = (20 : ℕ) := by
    rw [hctx.nonceLen]
    rfl
  have hsum : ((20 : ℕ) : ℤ) + (c.length : ℤ) = (20 + c.length : ℕ) := by push_cast; rfl
  have hnonce : readWithin (data ++ c ++ tag) (vleHeaderLen : ℤ) 16 =
      some (data.drop vleHeaderLen) := by
    have hsplit : data ++ c ++ tag =
        data.take vleHeaderLen ++ data.drop vleHeaderLen ++ (c ++ tag) := by
      rw [List.take_append_drop, List.append_assoc]
    rw [hsplit]
    refine readWithin_append ?_ ?_
    · rw [List.length_take, hdata]
      rfl
    · rw [List.length_drop, hdata]
      rfl
  have hc : readWithin (data ++ c ++ tag) ((20 : ℕ) : ℤ) c.length = some c :=
    readWithin_append hdata rfl
  have htagAt : ∀ d : Bytes, d.length = c.length →
      readWithin (data ++ d ++ tag) ((20 + c.length : ℕ) : ℤ) 16 = some tag := by
    intro d hd
    exact readWithin_append_end (by rw [List.length_append, hdata, hd]) htag
  rcases hctx.algorithm with halg | halg
  · -- ChaCha20
    have hne : ctx.algorithm ≠ codecTypeAscon128 := by rw [halg]; decide
    have hmsg : readWithin (data ++ c ++ tag) 0 (20 + c.length) = some (data ++ c) :=
      readWithin_append_start (by rw [List.length_append, hdata])
    have hnonce' : readWithin (data ++ c ++ tag) (vleHeaderLen : ℤ) ctx.nonceLen =
        some (data.drop vleHeaderLen) := by
      rw [hctx.nonceLen]
      exact hnonce
    have hlen : (vleChaCha20Xor P ctx (data.drop vleHeaderLen)
        (vleChaCha20Otk P ctx (data.drop vleHeaderLen) scope) c).length = c.length :=
      length_vleChaCha20Xor _ _ _
    simp only [vleAeadDecrypt, if_neg hne, if_pos halg, hdl, hsum, sizeOfInt_natCast, hnonce', hmsg,
      hc, writeWithin_append hdata hlen, htagAt _ hlen, Option.bind_eq_bind, Option.bind_some,
      Option.pure_def, vlePlain, vleTag]
  · -- Ascon-128
    have hdat : readWithin (data ++ c ++ tag) 0 20 = some data := by
      have h := readWithin_append (a := []) (b := data) (c := c ++ tag) rfl hdata
      simpa using h
    have hlen := P.length_asconDecryptAd data c (data.drop vleHeaderLen)
      ((vleAsconOtk P ctx (data.drop vleHeaderLen) scope).take 16)
    simp only [vleAeadDecrypt, if_pos halg, hdl, hsum, sizeOfInt_natCast, hnonce, hdat, hc,
      writeWithin_append hdata hlen, htagAt _ hlen, Option.bind_eq_bind, Option.bind_some,
      Option.pure_def, vlePlain, vleTag]

/-! ### What the encoder makes -/

variable (ctx) in
/-- The four bytes in front of every frame. -/
def vleHeader : Bytes := [vleMagic, vleVersion, UInt8.ofNat ctx.algorithm, ctx.flags]

/-- The bytes that are encrypted for a value: its type and its packed form. -/
def SqlValue.packed (v : SqlValue) : Bytes := UInt8.ofNat (sqlite3ValueType v) :: v.payload

@[simp] theorem SqlValue.length_packed (v : SqlValue) : v.packed.length = v.payload.length + 1 :=
  List.length_cons

/-- Every allocation an environment is asked for is granted. -/
def Env.Grants (env : Env) : Prop := ∀ i, env.malloc i = true

theorem Env.Grants.sqlite3Malloc {env : Env} (h : env.Grants) :
    env.sqlite3Malloc.1 = true ∧ env.sqlite3Malloc.2.Grants :=
  ⟨h 0, fun i => h (i + 1)⟩

theorem sqlite3MallocBytes_zero (env : Env) : sqlite3MallocBytes 0 env = (false, env) := if_pos rfl

theorem sqlite3MallocBytes_pos {n : ℕ} (hn : n ≠ 0) (env : Env) :
    sqlite3MallocBytes n env = env.sqlite3Malloc := if_neg hn

/-- **What the encoder encrypts is what the decoder finds**: the frame is a header with a nonce, a
part that decrypts to `plain` under the same scope, and the tag that goes with it. -/
theorem vleAeadEncrypt_frame (hctx : ctx.Keyed) (header plain scope : Bytes)
    (hheader : header.length = 4) (env : Env) :
    ∃ nonce c : Bytes, nonce.length = 16 ∧ c.length = plain.length ∧
      (vleAeadEncrypt P ctx header plain scope env).1 =
        (header ++ nonce) ++ c ++ vleTag P ctx (header ++ nonce) c scope ∧
      vlePlain P ctx (header ++ nonce) c scope = plain := by
  obtain ⟨nonce, hnonce⟩ : ∃ b, b = (env.chacha20Rng ctx.nonceLen).1 := ⟨_, rfl⟩
  have hlen : nonce.length = 16 := by rw [hnonce, Env.length_chacha20Rng, hctx.nonceLen]
  have hdrop : (header ++ nonce).drop vleHeaderLen = nonce := by
    rw [List.drop_append_of_le_length (by rw [hheader]; rfl),
      List.drop_eq_nil_of_le (by rw [hheader]; rfl), List.nil_append]
  rcases hctx.algorithm with halg | halg
  · have hne : ctx.algorithm ≠ codecTypeAscon128 := by rw [halg]; decide
    refine ⟨nonce, vleChaCha20Xor P ctx nonce (vleChaCha20Otk P ctx nonce scope) plain, hlen,
      length_vleChaCha20Xor _ _ _, ?_, ?_⟩
    · simp only [vleAeadEncrypt, if_neg hne, vleTag, hdrop, ← hnonce]
    · -- the key stream cancels itself
      simp only [vlePlain, if_neg hne, hdrop, vleChaCha20Xor, length_xorBytes,
        P.length_chacha20Stream, min_self]
      exact xorBytes_xorBytes_cancel (P.length_chacha20Stream _ _ _ _).ge
  · refine ⟨nonce, P.asconEncryptAd (header ++ nonce) plain nonce
      ((vleAsconOtk P ctx nonce scope).take 16), hlen, P.length_asconEncryptAd _ _ _ _, ?_, ?_⟩
    · simp only [vleAeadEncrypt, if_pos halg, vleTag, hdrop, ← hnonce]
    · simp only [vlePlain, if_pos halg, hdrop, P.asconDecryptAd_asconEncryptAd]

/-- A value without a packed form is not encrypted. -/
theorem vleEncrypt_empty (hctx : ctx.Keyed) {v : SqlValue} (hv : v.payload = []) (limit : ℕ)
    (scopeArg : Option SqlValue) (env : Env) :
    (vleEncrypt P ctx limit (some v) scopeArg env).1 =
      sqlite3ResultError .initial "sqlite3mc_vle_encrypt: Failed to pack value" := by
  simp [vleEncrypt, if_neg hctx.keyLen, vlePackValue, hv, sqlite3MallocBytes_zero]

/-- **What `sqlite3mc_vle_encrypt` returns**, if it has the memory it asks for: a frame, which may
be too long for the connection. -/
theorem vleEncrypt_frame (hctx : ctx.Keyed) {v : SqlValue} {env env' : Env} (limit : ℕ)
    (scopeArg : Option SqlValue) (hpack : vlePackValue v env = (some v.payload, env'))
    (hmalloc : (env'.sqlite3Malloc).1 = true) :
    ∃ nonce c : Bytes, nonce.length = 16 ∧ c.length = v.packed.length ∧
      (vleEncrypt P ctx limit (some v) scopeArg env).1 =
        sqlite3ResultBlob limit .initial ((vleHeader ctx ++ nonce) ++ c ++
          vleTag P ctx (vleHeader ctx ++ nonce) c (vleGetScope scopeArg)) ∧
      vlePlain P ctx (vleHeader ctx ++ nonce) c (vleGetScope scopeArg) = v.packed := by
  obtain ⟨nonce, c, hnonce, hc, hframe, hplain⟩ := vleAeadEncrypt_frame (P := P) hctx
      (vleHeader ctx)
    v.packed (vleGetScope scopeArg) rfl env'.sqlite3Malloc.2
  refine ⟨nonce, c, hnonce, hc, ?_, hplain⟩
  have hbuf : sqlite3MallocBytes (vleHeaderLen + ctx.nonceLen + 1 + v.payload.length + ctx.tagLen)
      env' = (true, env'.sqlite3Malloc.2) := by
    rw [sqlite3MallocBytes_pos (by omega), ← hmalloc]
  rw [← hframe]
  simp only [vleEncrypt, if_neg hctx.keyLen, hpack, hbuf, if_true, vleHeader, SqlValue.packed]

theorem vlePackValue_granted {v : SqlValue} (hv : v.payload ≠ []) {env : Env} (henv : env.Grants) :
    vlePackValue v env = (some v.payload, env.sqlite3Malloc.2) := by
  have hlen : v.payload.length ≠ 0 := fun h => hv (List.length_eq_zero_iff.mp h)
  simp only [vlePackValue, sqlite3MallocBytes_pos hlen, henv.sqlite3Malloc.1, if_true]

/-- **A blob that `sqlite3mc_vle_encrypt` returns is a frame**, within the length limit. -/
theorem vleEncrypt_eq_blob (hctx : ctx.Keyed) {limit : ℕ} {v : SqlValue}
    {scopeArg : Option SqlValue} {env : Env} {blob : Bytes}
    (h : (vleEncrypt P ctx limit (some v) scopeArg env).1 = ⟨.blob blob, .ok⟩) :
    blob.length ≤ limit ∧ ∃ nonce c : Bytes, nonce.length = 16 ∧ c.length = v.packed.length ∧
      blob = (vleHeader ctx ++ nonce) ++ c ++
        vleTag P ctx (vleHeader ctx ++ nonce) c (vleGetScope scopeArg) ∧
      vlePlain P ctx (vleHeader ctx ++ nonce) c (vleGetScope scopeArg) = v.packed := by
  rcases hpack : vlePackValue v env with ⟨_ | payload, env'⟩
  · -- no memory for the packed value
    simp only [vleEncrypt, if_neg hctx.keyLen, hpack, sqlite3ResultError] at h
    cases h
  have hpayload : payload = v.payload := by
    have hfst := congrArg Prod.fst hpack
    simp only [vlePackValue] at hfst
    split at hfst
    · exact (Option.some_inj.mp hfst).symm
    · cases hfst
  rw [hpayload] at hpack
  rcases hmalloc : (env'.sqlite3Malloc).1 with _ | _
  · -- no memory for the frame
    have hbuf : (sqlite3MallocBytes
        (vleHeaderLen + ctx.nonceLen + 1 + v.payload.length + ctx.tagLen)
        env').1 = false := by
      rw [sqlite3MallocBytes_pos (by omega), hmalloc]
    simp only [vleEncrypt, if_neg hctx.keyLen, hpack, hbuf, sqlite3ResultErrorNomem] at h
    cases h
  obtain ⟨nonce, c, hnonce, hc, hframe, hplain⟩ :=
    vleEncrypt_frame (P := P) hctx limit scopeArg hpack hmalloc
  rw [hframe, sqlite3ResultBlob] at h
  split at h
  · rw [sqlite3ResultErrorToobig] at h
    cases h
  · rename_i hlimit
    obtain rfl := SqlValue.blob.inj (congrArg SqlContext.out h)
    exact ⟨not_lt.mp hlimit, nonce, c, hnonce, hc, rfl, hplain⟩

/-! ### Unpacking, type by type -/

section Unpack

variable {limit : ℕ} {c : SqlContext} {buffer : Bytes} {pos len : ℤ} {t : UInt8}

theorem vleUnpackValue_null (ht : readWithin buffer pos 1 = some [5]) :
    vleUnpackValue limit c buffer pos len = some (sqlite3ResultNull c) := by
  rw [vleUnpackValue, ht]
  rfl

theorem vleUnpackValue_integer (ht : readWithin buffer pos 1 = some [1]) :
    vleUnpackValue limit c buffer pos len = (readWithin buffer (pos + 1) 8).map fun b =>
      sqlite3ResultInt64 c (UInt64.ofNat (get8byte b)).toInt64 := by
  rw [vleUnpackValue, ht]
  exact Option.map_eq_bind.symm

theorem vleUnpackValue_float (ht : readWithin buffer pos 1 = some [2]) :
    vleUnpackValue limit c buffer pos len = (readWithin buffer (pos + 1) 8).map fun b =>
      sqlite3ResultDouble c (UInt64.ofNat (get8byte b)) := by
  rw [vleUnpackValue, ht]
  exact Option.map_eq_bind.symm

theorem vleUnpackValue_text (ht : readWithin buffer pos 1 = some [3]) (hlen : 0 ≤ len) :
    vleUnpackValue limit c buffer pos len =
      (readWithin buffer (pos + 1) len.toNat).map (sqlite3ResultText limit c) := by
  rw [vleUnpackValue, ht]
  exact (if_neg hlen.not_gt).trans Option.map_eq_bind.symm

theorem vleUnpackValue_blob (ht : readWithin buffer pos 1 = some [4]) (hlen : 0 ≤ len) :
    vleUnpackValue limit c buffer pos len =
      (readWithin buffer (pos + 1) len.toNat).map (sqlite3ResultBlob limit c) := by
  rw [vleUnpackValue, ht]
  exact (if_neg hlen.not_gt).trans Option.map_eq_bind.symm

/-- Any other type leaves the context as it is; the return code for it is ignored. -/
theorem vleUnpackValue_other (ht : readWithin buffer pos 1 = some [t])
    (hother : t.toNat ∉ [1, 2, 3, 4, 5]) : vleUnpackValue limit c buffer pos len = some c := by
  have hne : ∀ n ∈ [1, 2, 3, 4, 5], t.toNat ≠ n := fun n hn h => hother (h ▸ hn)
  rw [vleUnpackValue, ht]
  simp only [Option.bind_eq_bind, Option.bind_some, List.getD_cons_zero]
  split
  · exact absurd ‹_› (hne 5 (by decide))
  · exact absurd ‹_› (hne 1 (by decide))
  · exact absurd ‹_› (hne 2 (by decide))
  · exact absurd ‹_› (hne 3 (by decide))
  · exact absurd ‹_› (hne 4 (by decide))
  · rfl

end Unpack

/-! ### The round trip -/

/-- **A packed value is unpacked to itself**, wherever it is in the buffer. -/
theorem vleUnpackValue_packed {v : SqlValue}
    (hnan : ∀ bits, v = .float bits → sqlite3IsNaN bits = false) {limit : ℕ}
    (hlimit : v.payload.length ≤ limit) {a : Bytes} {pos : ℕ} (ha : a.length = pos) (tag : Bytes)
    (c : SqlContext) :
    vleUnpackValue limit c (a ++ v.packed ++ tag) pos v.payload.length =
      some { c with out := v } := by
  have htype : readWithin (a ++ v.packed ++ tag) (pos : ℤ) 1 =
      some [UInt8.ofNat (sqlite3ValueType v)] := by
    have hsplit : a ++ v.packed ++ tag =
        a ++ [UInt8.ofNat (sqlite3ValueType v)] ++ (v.payload ++ tag) := by
      simp [SqlValue.packed]
    rw [hsplit]
    exact readWithin_append ha rfl
  have hpos : (pos : ℤ) + 1 = (pos + 1 : ℕ) := by push_cast; rfl
  have hpay : readWithin (a ++ v.packed ++ tag) ((pos + 1 : ℕ) : ℤ) v.payload.length =
      some v.payload := by
    have hsplit : a ++ v.packed ++ tag =
        (a ++ [UInt8.ofNat (sqlite3ValueType v)]) ++ v.payload ++ tag := by
      simp [SqlValue.packed]
    rw [hsplit]
    exact readWithin_append (by rw [List.length_append, ha]; rfl) rfl
  have htext : ¬ v.payload.length > limit := by omega
  cases v with
  | null => exact vleUnpackValue_null htype
  | integer i =>
    have hback : (UInt64.ofNat (get8byte (put8byte i.toUInt64.toNat))).toInt64 = i := by
      rw [get8byte_put8byte i.toUInt64.toNat_lt, UInt64.ofNat_toNat, Int64.toInt64_toUInt64]
    have h8 : readWithin (a ++ (SqlValue.integer i).packed ++ tag) ((pos + 1 : ℕ) : ℤ) 8 =
        some (put8byte i.toUInt64.toNat) := hpay
    rw [vleUnpackValue_integer htype, hpos, h8, Option.map_some, hback, sqlite3ResultInt64]
  | float bits =>
    have hback : UInt64.ofNat (get8byte (put8byte bits.toNat)) = bits := by
      rw [get8byte_put8byte bits.toNat_lt, UInt64.ofNat_toNat]
    have h8 : readWithin (a ++ (SqlValue.float bits).packed ++ tag) ((pos + 1 : ℕ) : ℤ) 8 =
        some (put8byte bits.toNat) := hpay
    rw [vleUnpackValue_float htype, hpos, h8, Option.map_some, hback, sqlite3ResultDouble,
      hnan bits rfl, if_neg (by decide)]
  | text b =>
    rw [vleUnpackValue_text htype (by omega), hpos, Int.toNat_natCast, hpay, Option.map_some,
      sqlite3ResultText, if_neg htext]
    rfl
  | blob b =>
    rw [vleUnpackValue_blob htype (by omega), hpos, Int.toNat_natCast, hpay, Option.map_some,
      sqlite3ResultBlob, if_neg htext]
    rfl

/-- **What `sqlite3mc_vle_decrypt` makes of a frame**: the authentication and what is unpacked
after it, wherever the encrypted part came from. -/
theorem vleDecrypt_frame (hctx : ctx.Keyed) (limit : ℕ) {nonce c tag : Bytes}
    (hnonce : nonce.length = 16) (hc : c.length ≠ 0) (htag : tag.length = 16)
    (scopeArg : Option SqlValue) {env : Env} (henv : env.Grants) :
    vleDecrypt P ctx limit (some (.blob ((vleHeader ctx ++ nonce) ++ c ++ tag))) scopeArg env =
      vleFinish ctx limit
        (if tag = vleTag P ctx (vleHeader ctx ++ nonce) c (vleGetScope scopeArg) then .ok
          else .corrupt)
        ((vleHeader ctx ++ nonce) ++ vlePlain P ctx (vleHeader ctx ++ nonce) c
          (vleGetScope scopeArg) ++ tag) ((c.length - 1 : ℕ) : ℤ) := by
  have hdata : (vleHeader ctx ++ nonce).length = 20 := by
    rw [List.length_append, hnonce]
    rfl
  have hlen : ((vleHeader ctx ++ nonce) ++ c ++ tag).length = 36 + c.length := by
    rw [List.length_append, List.length_append, hdata, htag]
    omega
  have hshort : ¬ ((vleHeader ctx ++ nonce) ++ c ++ tag).length < vleHeaderLen := by
    rw [hlen, vleHeaderLen]
    omega
  have hmalloc :
      (sqlite3MallocBytes ((vleHeader ctx ++ nonce) ++ c ++ tag).length env).1 = true := by
    rw [sqlite3MallocBytes_pos (by omega)]
    exact henv.sqlite3Malloc.1
  have hmagic : ¬ ((vleHeader ctx ++ nonce) ++ c ++ tag).getD 0 0 ≠ vleMagic := not_not.mpr rfl
  have hpayload : vlePayloadLen ctx ((vleHeader ctx ++ nonce) ++ c ++ tag).length =
      ((c.length - 1 : ℕ) : ℤ) := by
    rw [vlePayloadLen, hlen, hctx.nonceLen, hctx.tagLen, vleHeaderLen]
    omega
  have hctext : ((c.length - 1 : ℕ) : ℤ) + 1 = c.length := by omega
  simp only [vleDecrypt, if_neg hctx.keyLen, if_neg hshort, if_pos hmalloc, if_neg hmagic, hpayload,
    hctext, vleAeadDecrypt_frame hctx hdata htag, Option.bind_some]

section RoundTrip

variable (P ctx) in
/-- `v` is encrypted, and what it is encrypted to is decrypted to `v` under the same scope. The two
calls have an environment each. -/
def VleRoundTrips (limit : ℕ) (v : SqlValue) (scopeArg : Option SqlValue) (env env' : Env) : Prop :=
  ∃ blob : Bytes,
    (vleEncrypt P ctx limit (some v) scopeArg env).1 = ⟨.blob blob, .ok⟩ ∧
      vleDecrypt P ctx limit (some (.blob blob)) scopeArg env' = some ⟨v, .ok⟩

theorem not_vleRoundTrips_of_empty (hctx : ctx.Keyed) {v : SqlValue} (hv : v.payload = [])
    (limit : ℕ) (scopeArg : Option SqlValue) (env env' : Env) :
    ¬ VleRoundTrips P ctx limit v scopeArg env env' := by
  rintro ⟨blob, henc, _⟩
  rw [vleEncrypt_empty hctx hv, sqlite3ResultError] at henc
  cases henc

/-- **Which values go round.** With all allocations of at least one byte granted, a value is
encrypted and decrypted again exactly if its packed form has a byte and its frame is no longer than
the connection allows: not NULL, no empty text and no empty blob. -/
theorem vle_roundTrip_iff (P : VlePrimitives) {ctx : VleContext} (hctx : ctx.Keyed) (limit : ℕ)
    {v : SqlValue} (hnan : ∀ bits, v = .float bits → sqlite3IsNaN bits = false)
    (scopeArg : Option SqlValue) {env env' : Env} (henv : env.Grants) (henv' : env'.Grants) :
    VleRoundTrips P ctx limit v scopeArg env env' ↔
      v.payload ≠ [] ∧ v.payload.length + 37 ≤ limit := by
  by_cases hv : v.payload = []
  · exact iff_of_false (not_vleRoundTrips_of_empty hctx hv _ _ _ _) (fun h => h.1 hv)
  obtain ⟨nonce, c, hnonce, hc, hframe, hplain⟩ :=
    vleEncrypt_frame (P := P) hctx limit scopeArg (vlePackValue_granted hv henv)
      henv.sqlite3Malloc.2.sqlite3Malloc.1
  have hc' : c.length = v.payload.length + 1 := by rw [hc, SqlValue.length_packed]
  have hdata : (vleHeader ctx ++ nonce).length = 20 := by
    rw [List.length_append, hnonce]
    rfl
  have hlen : ((vleHeader ctx ++ nonce) ++ c ++ vleTag P ctx (vleHeader ctx ++ nonce) c
      (vleGetScope scopeArg)).length = v.payload.length + 37 := by
    rw [List.length_append, List.length_append, hdata, hc', length_vleTag]
    omega
  rw [VleRoundTrips, hframe, sqlite3ResultBlob, hlen]
  by_cases hlimit : v.payload.length + 37 > limit
  · -- the frame is too long for a blob
    rw [if_pos hlimit]
    refine ⟨fun ⟨blob, henc, _⟩ => ?_, fun h => absurd h.2 (by omega)⟩
    rw [sqlite3ResultErrorToobig] at henc
    cases henc
  · rw [if_neg hlimit]
    refine ⟨fun _ => ⟨hv, by omega⟩, fun _ => ⟨_, rfl, ?_⟩⟩
    rw [vleDecrypt_frame hctx limit hnonce (by omega) (length_vleTag _ _ _) scopeArg henv',
      if_pos rfl, hplain, hc', Nat.add_sub_cancel, vleFinish, if_neg (by simp)]
    have hpos : (vleHeaderLen : ℤ) + (ctx.nonceLen : ℤ) = (20 : ℕ) := by
      rw [hctx.nonceLen]
      rfl
    rw [hpos]
    exact vleUnpackValue_packed hnan (by omega) hdata _ _

/-- The integer `-1` goes round. -/
theorem vle_roundTrip_integer :
    VleRoundTrips copyVlePrimitives (zeroVleContext codecTypeAscon128) 1000000000
      (.integer (-1)) none
      grantingEnv grantingEnv :=
  (vle_roundTrip_iff copyVlePrimitives (zeroVleContext_keyed (Or.inr rfl)) 1000000000
    (by simp) none (fun _ => rfl) (fun _ => rfl)).mpr ⟨by decide, by decide⟩

/-- NULL is not encrypted at all, and neither are an empty text and an empty blob. -/
theorem vleEncrypt_nothing :
    (vleEncrypt copyVlePrimitives (zeroVleContext codecTypeChaCha20) 1000000000 (some .null) none
        grantingEnv).1 =
        sqlite3ResultError .initial "sqlite3mc_vle_encrypt: Failed to pack value" ∧
      ¬ VleRoundTrips copyVlePrimitives (zeroVleContext codecTypeChaCha20) 1000000000 .null none
        grantingEnv grantingEnv ∧
      ¬ VleRoundTrips copyVlePrimitives (zeroVleContext codecTypeChaCha20) 1000000000
        (.text []) none
        grantingEnv grantingEnv ∧
      ¬ VleRoundTrips copyVlePrimitives (zeroVleContext codecTypeChaCha20) 1000000000
        (.blob []) none
        grantingEnv grantingEnv :=
  have hctx := zeroVleContext_keyed (Or.inl rfl)
  ⟨vleEncrypt_empty hctx rfl _ _ _, not_vleRoundTrips_of_empty hctx rfl _ _ _ _,
    not_vleRoundTrips_of_empty hctx rfl _ _ _ _, not_vleRoundTrips_of_empty hctx rfl _ _ _ _⟩

end RoundTrip

end Frame

end MultipleCiphers
