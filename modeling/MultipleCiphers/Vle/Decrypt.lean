import MultipleCiphers.Vle.Scope

/-!
# Decrypting a blob from anywhere

`sqlite3mc_vle_decrypt` takes any blob. It checks that there is a header, and that it begins with
the magic byte. Then it subtracts the lengths of nonce, tag and type from the length of the blob,
decrypts what is in between, and unpacks it. Two checks are missing.

* The length is not compared with the 37 bytes of the smallest frame. For a shorter blob the
  payload has a negative length, and for one of less than 36 bytes so has the encrypted part: the
  cast to `size_t` makes it huge.
* The value is unpacked after a failed authentication as well. `sqlite3_result_error` has put its
  message into the result cell, and the unpacked value takes its place.

The eight bytes of a packed number are read without a look at the length of the payload. In a frame
of at least 37 bytes they are inside the buffer, but may reach into the tag.

## Main results

* `vleAeadDecrypt_of_le`, `le_of_vleAeadDecrypt` — from 36 bytes on, the decoder stays inside the
  blob until it has the tag, and only then.
* `vleUnpackValue_eq` — from 37 bytes on, so does the rest.
* `vle_rejection_iff` — exactly when a rejected blob tells nothing about its decryption.
* `vle_rejection_leak` — a blob that tells its content by being rejected.
* `vle_safe_iff` — exactly which blobs are safe to decrypt.
-/

namespace MultipleCiphers

open Bytes

section Decrypt

variable {P : VlePrimitives} {ctx : VleContext} {blob scope : Bytes}

/-! ### The parts of a blob -/

variable (P ctx) in
/-- The tag the decoder computes for a blob. -/
def vleBlobTag (blob scope : Bytes) : Bytes :=
  vleTag P ctx (slice blob 0 20) (slice blob 20 (blob.length - 36)) scope

variable (P ctx) in
/-- The bytes the decoder decrypts in a blob. -/
def vleBlobPlain (blob scope : Bytes) : Bytes :=
  vlePlain P ctx (slice blob 0 20) (slice blob 20 (blob.length - 36)) scope

/-- The tag of a blob. -/
def vleStoredTag (blob : Bytes) : Bytes := slice blob (blob.length - 16) 16

variable (P ctx) in
theorem length_vleBlobPlain (h : 36 ≤ blob.length) (scope : Bytes) :
    (vleBlobPlain P ctx blob scope).length = blob.length - 36 := by
  rw [vleBlobPlain, length_vlePlain, length_slice_of_le (by omega)]

theorem length_vleStoredTag (h : 36 ≤ blob.length) : (vleStoredTag blob).length = 16 :=
  length_slice_of_le (by omega)

/-- The parts make up the blob. -/
theorem slice_parts (h : 36 ≤ blob.length) :
    slice blob 0 20 ++ slice blob 20 (blob.length - 36) ++ vleStoredTag blob = blob := by
  have hsum : blob.length = 20 + (blob.length - 36) + 16 := by omega
  have htag : vleStoredTag blob = slice blob (0 + (20 + (blob.length - 36))) 16 := by
    rw [vleStoredTag]
    congr 1
    omega
  have hmid : slice blob 20 (blob.length - 36) = slice blob (0 + 20) (blob.length - 36) := by
    rw [Nat.zero_add]
  rw [htag, hmid, ← slice_add, ← slice_add, ← hsum, slice_zero_length]

/-- The buffer after the decryption in place of `plain`. -/
def vleBuffer (blob plain : Bytes) : Bytes := slice blob 0 20 ++ plain ++ vleStoredTag blob

theorem splice_vleBuffer (h : 36 ≤ blob.length) {plain plain' : Bytes}
    (hlen : plain'.length = plain.length) :
    splice (vleBuffer blob plain) 20 plain' = vleBuffer blob plain' :=
  splice_append (length_slice_of_le (by omega)) hlen

/-- **From 36 bytes on the decoder stays inside the blob** up to the comparison of the tags. -/
theorem vleAeadDecrypt_of_le (hctx : ctx.Keyed) (h : 36 ≤ blob.length) (scope : Bytes) :
    vleAeadDecrypt P ctx blob (vlePayloadLen ctx blob.length + 1) scope =
      some (if vleStoredTag blob = vleBlobTag P ctx blob scope then .ok else .corrupt,
        vleBuffer blob (vleBlobPlain P ctx blob scope)) := by
  have hlen : vlePayloadLen ctx blob.length + 1 =
      ((slice blob 20 (blob.length - 36)).length : ℕ) := by
    rw [vlePayloadLen, hctx.nonceLen, hctx.tagLen, length_slice_of_le (by omega), vleHeaderLen]
    omega
  have hdata : (slice blob 0 20).length = 20 := length_slice_of_le (by omega)
  have hframe := vleAeadDecrypt_frame (P := P) hctx hdata
    (c := slice blob 20 (blob.length - 36)) (length_vleStoredTag h) scope
  rw [slice_parts h] at hframe
  rw [hlen, hframe, vleBuffer, vleBlobTag, vleBlobPlain]

/-- **With less it does not**: the length of the encrypted part is negative. -/
theorem le_of_vleAeadDecrypt (hctx : ctx.Keyed) {r : ResultCode × Bytes}
    (h : vleAeadDecrypt P ctx blob (vlePayloadLen ctx blob.length + 1) scope = some r) :
    36 ≤ blob.length := by
  by_contra hshort
  have hneg : vlePayloadLen ctx blob.length + 1 < 0 := by
    rw [vlePayloadLen, hctx.nonceLen, hctx.tagLen, vleHeaderLen]
    omega
  have hhuge : blob.length < sizeOfInt (vlePayloadLen ctx blob.length + 1) := by
    rw [sizeOfInt, if_neg (by omega), vlePayloadLen, hctx.nonceLen, hctx.tagLen, vleHeaderLen]
    omega
  -- no reading of so many bytes is inside, at whatever offset
  have hnone : ∀ off : ℤ,
      readWithin blob off (sizeOfInt (vlePayloadLen ctx blob.length + 1)) = none := by
    intro off
    rw [readWithin_eq_none]
    omega
  rcases hctx.algorithm with halg | halg
  · have hne : ctx.algorithm ≠ codecTypeAscon128 := by rw [halg]; decide
    simp only [vleAeadDecrypt, if_neg hne, if_pos halg, hnone, Option.bind_eq_bind,
      Option.bind_none, Option.bind_eq_some_iff, reduceCtorEq, and_false, exists_false] at h
  · simp only [vleAeadDecrypt, if_pos halg, hnone, Option.bind_eq_bind, Option.bind_none,
      Option.bind_eq_some_iff, reduceCtorEq, and_false, exists_false] at h

/-! ### Unpacking -/

/-- What is unpacked from a type byte, a payload and the tag behind it. -/
def vleUnpacked (limit : ℕ) (r : SqlContext) (type : UInt8) (payload tag : Bytes) : SqlContext :=
  match type.toNat with
  | 5 => sqlite3ResultNull r
  | 1 => sqlite3ResultInt64 r (UInt64.ofNat (get8byte (payload ++ tag))).toInt64
  | 2 => sqlite3ResultDouble r (UInt64.ofNat (get8byte (payload ++ tag)))
  | 3 => sqlite3ResultText limit r payload
  | 4 => sqlite3ResultBlob limit r payload
  | _ => r

/-- **With a type byte and a tag the unpacking stays inside**, whatever the type is: a text or blob
has the length of the payload, and a number is eight bytes of payload and tag. -/
theorem vleUnpackValue_eq {data payload tag : Bytes} {pos : ℕ} (hdata : data.length = pos)
    (htag : tag.length = 16) (limit : ℕ) (r : SqlContext) (type : UInt8) :
    vleUnpackValue limit r (data ++ type :: payload ++ tag) pos payload.length =
      some (vleUnpacked limit r type payload tag) := by
  have hsplit : data ++ type :: payload ++ tag = data ++ [type] ++ (payload ++ tag) := by simp
  have hpos : (pos : ℤ) + 1 = (pos + 1 : ℕ) := by push_cast; rfl
  have hfront : (data ++ [type]).length = pos + 1 := by rw [List.length_append, hdata]; rfl
  have htype : readWithin (data ++ type :: payload ++ tag) (pos : ℤ) 1 = some [type] := by
    rw [hsplit]
    exact readWithin_append hdata rfl
  have hnumber : readWithin (data ++ type :: payload ++ tag) ((pos : ℤ) + 1) 8 =
      some ((payload ++ tag).take 8) := by
    rw [hsplit, hpos, readWithin_of_le (by simp only [List.length_append] at hfront ⊢; omega),
      slice,
      List.drop_append_of_le_length hfront.ge, List.drop_eq_nil_of_le hfront.le, List.nil_append]
  have hbytes : readWithin (data ++ type :: payload ++ tag) ((pos : ℤ) + 1)
      ((payload.length : ℕ) : ℤ).toNat = some payload := by
    rw [hsplit, hpos, Int.toNat_natCast, ← List.append_assoc]
    exact readWithin_append hfront rfl
  have htypeIs : ∀ n : ℕ, type.toNat = n → type = UInt8.ofNat n := fun n h => by
    rw [← h, UInt8.ofNat_toNat]
  rw [vleUnpacked]
  split
  · rename_i h
    exact vleUnpackValue_null (htypeIs 5 h ▸ htype)
  · rename_i h
    rw [vleUnpackValue_integer (htypeIs 1 h ▸ htype), hnumber, Option.map_some, get8byte_take]
  · rename_i h
    rw [vleUnpackValue_float (htypeIs 2 h ▸ htype), hnumber, Option.map_some, get8byte_take]
  · rename_i h
    rw [vleUnpackValue_text (htypeIs 3 h ▸ htype) (by omega), hbytes, Option.map_some]
  · rename_i h
    rw [vleUnpackValue_blob (htypeIs 4 h ▸ htype) (by omega), hbytes, Option.map_some]
  · rename_i h5 h1 h2 h3 h4
    refine vleUnpackValue_other htype ?_
    simp only [List.mem_cons, List.not_mem_nil, or_false, not_or]
    exact ⟨h1, h2, h3, h4, h5⟩

/-- The context a value is unpacked into. -/
def vleVerdict (rc : ResultCode) : SqlContext :=
  if rc ≠ .ok then sqlite3ResultError .initial "AEAD authentication failed" else .initial

/-- The end of `vle_decrypt` on a buffer of at least 37 bytes. -/
theorem vleFinish_eq (hctx : ctx.Keyed) (limit : ℕ) (rc : ResultCode) {type : UInt8}
    {payload : Bytes} (h : blob.length = payload.length + 37) :
    vleFinish ctx limit rc (vleBuffer blob (type :: payload)) (vlePayloadLen ctx blob.length) =
      some (vleUnpacked limit (vleVerdict rc) type payload (vleStoredTag blob)) := by
  have hpos : (vleHeaderLen : ℤ) + (ctx.nonceLen : ℤ) = (20 : ℕ) := by
    rw [hctx.nonceLen]
    rfl
  have hlen : vlePayloadLen ctx blob.length = (payload.length : ℕ) := by
    rw [vlePayloadLen, hctx.nonceLen, hctx.tagLen, vleHeaderLen]
    omega
  rw [vleFinish, hpos, hlen]
  exact vleUnpackValue_eq (length_slice_of_le (by omega)) (length_vleStoredTag (by omega)) _ _ _

/-! ### The function on a blob -/

variable (ctx) in
/-- `vle_decrypt` gets past its checks: there is a key, a header, memory, and the magic byte. -/
def VleReaches (blob : Bytes) (env : Env) : Prop :=
  ctx.keyLen ≠ 0 ∧ vleHeaderLen ≤ blob.length ∧ (sqlite3MallocBytes blob.length env).1 = true ∧
    blob.getD 0 0 = vleMagic

variable (P ctx) in
/-- `vle_decrypt` with `f` applied to its buffer after the decryption. -/
def vleDecryptVia (f : Bytes → Bytes) (limit : ℕ) (blob : Bytes) (scopeArg : Option SqlValue)
    (env : Env) : Option SqlContext :=
  if ctx.keyLen = 0 then some (sqlite3ResultError .initial "VLE key not set")
  else if blob.length < vleHeaderLen then
    some (sqlite3ResultError .initial "Encrypted content too short")
  else if (sqlite3MallocBytes blob.length env).1 then
    if blob.getD 0 0 ≠ vleMagic then
      some (sqlite3ResultError .initial "Invalid VLE header in encrypted value")
    else
      let payloadLen := vlePayloadLen ctx blob.length
      (vleAeadDecrypt P ctx blob (payloadLen + 1) (vleGetScope scopeArg)).bind fun r =>
        vleFinish ctx limit r.1 (f r.2) payloadLen
  else some (sqlite3ResultErrorNomem .initial)

theorem vleDecryptVia_id (limit : ℕ) (blob : Bytes) (scopeArg : Option SqlValue) (env : Env) :
    vleDecryptVia P ctx id limit blob scopeArg env =
      vleDecrypt P ctx limit (some (.blob blob)) scopeArg env := rfl

/-- A blob that does not get past the checks is refused. -/
theorem vleDecryptVia_refused {env : Env} (h : ¬ VleReaches ctx blob env) (f : Bytes → Bytes)
    (limit : ℕ) (scopeArg : Option SqlValue) :
    ∃ r, vleDecryptVia P ctx f limit blob scopeArg env = some r ∧ r.isError ≠ .ok := by
  rw [vleDecryptVia]
  by_cases hkey : ctx.keyLen = 0
  · exact ⟨_, if_pos hkey, by simp [sqlite3ResultError]⟩
  rw [if_neg hkey]
  by_cases hlen : blob.length < vleHeaderLen
  · exact ⟨_, if_pos hlen, by simp [sqlite3ResultError]⟩
  rw [if_neg hlen]
  by_cases hmalloc : (sqlite3MallocBytes blob.length env).1 = true
  · rw [if_pos hmalloc]
    have hmagic : blob.getD 0 0 ≠ vleMagic := fun heq => h ⟨hkey, not_lt.mp hlen, hmalloc, heq⟩
    exact ⟨_, if_pos hmagic, by simp [sqlite3ResultError]⟩
  · exact ⟨_, if_neg hmalloc, by simp [sqlite3ResultErrorNomem]⟩

theorem vleDecryptVia_reached {env : Env} (h : VleReaches ctx blob env) (f : Bytes → Bytes)
    (limit : ℕ) (scopeArg : Option SqlValue) :
    vleDecryptVia P ctx f limit blob scopeArg env =
      (vleAeadDecrypt P ctx blob (vlePayloadLen ctx blob.length + 1)
        (vleGetScope scopeArg)).bind fun r =>
          vleFinish ctx limit r.1 (f r.2) (vlePayloadLen ctx blob.length) := by
  obtain ⟨hkey, hlen, hmalloc, hmagic⟩ := h
  rw [vleDecryptVia, if_neg hkey, if_neg (not_lt.mpr hlen), if_pos hmalloc,
    if_neg (not_not.mpr hmagic)]

/-- **What `sqlite3mc_vle_decrypt` makes of a blob of at least 37 bytes**, `f` putting `type` and
`payload` in the place of what is decrypted. -/
theorem vleDecryptVia_eq (hctx : ctx.Keyed) {env : Env} (h : VleReaches ctx blob env)
    {f : Bytes → Bytes} {scopeArg : Option SqlValue} {type : UInt8} {payload : Bytes}
    (hlen : blob.length = payload.length + 37)
    (hf : f (vleBuffer blob (vleBlobPlain P ctx blob (vleGetScope scopeArg))) =
      vleBuffer blob (type :: payload)) (limit : ℕ) :
    vleDecryptVia P ctx f limit blob scopeArg env =
      some (vleUnpacked limit
        (vleVerdict (if vleStoredTag blob = vleBlobTag P ctx blob (vleGetScope scopeArg) then .ok
          else .corrupt)) type payload (vleStoredTag blob)) := by
  rw [vleDecryptVia_reached h, vleAeadDecrypt_of_le hctx (by omega), Option.bind_some, hf,
    vleFinish_eq hctx limit _ hlen]

/-! ### What a rejected blob tells -/

variable (P ctx) in
/-- The authentication of the blob takes place and fails. -/
def VleAuthFails (blob : Bytes) (scopeArg : Option SqlValue) (env : Env) : Prop :=
  VleReaches ctx blob env ∧ ∃ rc buffer,
    vleAeadDecrypt P ctx blob (vlePayloadLen ctx blob.length + 1) (vleGetScope scopeArg) =
      some (rc, buffer) ∧ rc ≠ .ok

variable (P ctx) in
/-- If the authentication fails, then what SQL gets is the same whatever is decrypted. -/
def VleBlind (realText : UInt64 → Bytes) (limit : ℕ) (blob : Bytes) (scopeArg : Option SqlValue)
    (env : Env) : Prop :=
  VleAuthFails P ctx blob scopeArg env → ∀ plain : Bytes, plain.length = blob.length - 36 →
    (vleDecryptVia P ctx (splice · 20 plain) limit blob scopeArg env).map
        (SqlContext.outcome realText) =
      (vleDecrypt P ctx limit (some (.blob blob)) scopeArg env).map (SqlContext.outcome realText)

theorem vleAuthFails_iff (hctx : ctx.Keyed) {scopeArg : Option SqlValue} {env : Env} :
    VleAuthFails P ctx blob scopeArg env ↔ VleReaches ctx blob env ∧ 36 ≤ blob.length ∧
      vleStoredTag blob ≠ vleBlobTag P ctx blob (vleGetScope scopeArg) := by
  constructor
  · rintro ⟨hreach, rc, buffer, hdec, hrc⟩
    have h36 := le_of_vleAeadDecrypt hctx hdec
    refine ⟨hreach, h36, fun heq => hrc ?_⟩
    rw [vleAeadDecrypt_of_le hctx h36, if_pos heq] at hdec
    exact (congrArg Prod.fst (Option.some_inj.mp hdec)).symm
  · rintro ⟨hreach, h36, hne⟩
    exact ⟨hreach, .corrupt, _, by rw [vleAeadDecrypt_of_le hctx h36, if_neg hne], by simp⟩

/-- **When a rejected blob tells nothing.** If its authentication fails, the result, error code and
message are the same for all decrypted bytes if and only if there are no decrypted bytes. -/
theorem vle_rejection_iff (P : VlePrimitives) {ctx : VleContext} (hctx : ctx.Keyed)
    (realText : UInt64 → Bytes) (limit : ℕ) (blob : Bytes) (scopeArg : Option SqlValue)
    (env : Env) :
    VleBlind P ctx realText limit blob scopeArg env ↔
      ¬ (VleAuthFails P ctx blob scopeArg env ∧ 37 ≤ blob.length) := by
  constructor
  · rintro hblind ⟨hfails, h37⟩
    obtain ⟨hreach, h36, hne⟩ := (vleAuthFails_iff hctx).mp hfails
    have hplain := length_vleBlobPlain P ctx h36 (vleGetScope scopeArg)
    -- with type 0 the message stays, with type `SQLITE_NULL` it does not
    have hvia : ∀ type : UInt8,
        vleDecryptVia P ctx (splice · 20 (type :: zeros (blob.length - 37))) limit blob scopeArg
            env =
          some (vleUnpacked limit (sqlite3ResultError .initial "AEAD authentication failed") type
            (zeros (blob.length - 37)) (vleStoredTag blob)) := by
      intro type
      rw [vleDecryptVia_eq hctx hreach (by rw [length_zeros]; omega)
        (splice_vleBuffer h36 (by rw [List.length_cons, length_zeros, hplain]; omega)) limit,
        if_neg hne]
      rfl
    have hsame := (hblind hfails (0 :: zeros (blob.length - 37))
      (by rw [List.length_cons, length_zeros]; omega)).trans
        (hblind hfails (5 :: zeros (blob.length - 37))
          (by rw [List.length_cons, length_zeros]; omega)).symm
    rw [hvia, hvia, Option.map_some, Option.map_some, Option.some_inj] at hsame
    cases hsame
  · intro h hfails plain hplain
    obtain ⟨hreach, h36, hne⟩ := (vleAuthFails_iff hctx).mp hfails
    have h37 : ¬ 37 ≤ blob.length := fun h37 => h ⟨hfails, h37⟩
    have hnil : plain = [] := List.length_eq_zero_iff.mp (by omega)
    have hnil' : vleBlobPlain P ctx blob (vleGetScope scopeArg) = [] :=
      List.length_eq_zero_iff.mp (by rw [length_vleBlobPlain P ctx h36]; omega)
    rw [← vleDecryptVia_id, vleDecryptVia_reached hreach, vleDecryptVia_reached hreach,
      vleAeadDecrypt_of_le hctx h36, Option.bind_some, Option.bind_some, hnil', hnil,
      splice_vleBuffer h36 rfl, id]

set_option maxRecDepth 10000 in
/-- An authentic blob tells nothing by being rejected. -/
theorem vle_rejection_authentic :
    VleBlind copyVlePrimitives (zeroVleContext codecTypeChaCha20) (fun _ => []) 1000000000
      sevenUnderA (some (.text (asciiBytes "a"))) grantingEnv :=
  have hctx : (zeroVleContext codecTypeChaCha20).Keyed := zeroVleContext_keyed (Or.inl rfl)
  (vle_rejection_iff copyVlePrimitives hctx (fun _ => []) 1000000000 sevenUnderA
    (some (.text (asciiBytes "a"))) grantingEnv).mpr fun h =>
      absurd ((vleAuthFails_iff hctx).mp h.1).2.2 (by decide)

/-- The blob of the integer `7` with another last byte in its tag. -/
def sevenChanged : Bytes := sevenUnderA.set 44 1

set_option maxRecDepth 10000 in
/-- **A rejected blob tells its content.** One byte of the tag was changed on the way. Decrypted
under its own key and scope the blob is rejected, and the error message is `7`. -/
theorem vle_rejection_leak :
    VleAuthFails copyVlePrimitives (zeroVleContext codecTypeChaCha20) sevenChanged
        (some (.text (asciiBytes "a"))) grantingEnv ∧
      (vleDecrypt copyVlePrimitives (zeroVleContext codecTypeChaCha20) 1000000000
          (some (.blob sevenChanged)) (some (.text (asciiBytes "a"))) grantingEnv).map
          (SqlContext.outcome fun _ => []) = some (.error .error (some (asciiBytes "7"))) ∧
      ¬ VleBlind copyVlePrimitives (zeroVleContext codecTypeChaCha20) (fun _ => []) 1000000000
        sevenChanged (some (.text (asciiBytes "a"))) grantingEnv := by
  have hctx : (zeroVleContext codecTypeChaCha20).Keyed := zeroVleContext_keyed (Or.inl rfl)
  have hreach : VleReaches (zeroVleContext codecTypeChaCha20) sevenChanged grantingEnv :=
    ⟨by decide, by decide, by decide, by decide⟩
  have hfails : VleAuthFails copyVlePrimitives (zeroVleContext codecTypeChaCha20) sevenChanged
      (some (.text (asciiBytes "a"))) grantingEnv :=
    (vleAuthFails_iff hctx).mpr ⟨hreach, by decide, by decide⟩
  refine ⟨hfails, by decide, fun hblind => ?_⟩
  have hsame := hblind hfails [1, 0, 0, 0, 0, 0, 0, 0, 8] (by decide)
  exact absurd hsame (by decide)

/-! ### Which blobs are safe -/

/-- The number of bytes a packed value of a type needs. -/
def vleDeclaredLen (type : UInt8) : ℕ := if type = 1 ∨ type = 2 then 8 else 0

variable (P ctx) in
/-- The decryption of a blob is safe. -/
structure VleSafe (limit : ℕ) (blob : Bytes) (scopeArg : Option SqlValue) (env : Env) : Prop where
  /-- No access is outside the copy of the blob. -/
  inside : (vleDecrypt P ctx limit (some (.blob blob)) scopeArg env).isSome
  /-- The lengths that are computed are not negative. -/
  lengths : VleReaches ctx blob env → 0 ≤ vlePayloadLen ctx blob.length
  /-- A blob that is too short for the value in it is refused. -/
  tooShort : VleReaches ctx blob env → ∀ rc buffer,
    vleAeadDecrypt P ctx blob (vlePayloadLen ctx blob.length + 1) (vleGetScope scopeArg) =
      some (rc, buffer) →
    vlePayloadLen ctx blob.length < vleDeclaredLen (buffer.getD 20 0) →
    ∀ r, vleDecrypt P ctx limit (some (.blob blob)) scopeArg env = some r → r.isError ≠ .ok

/-- A number is unpacked without an error. -/
theorem isError_vleUnpacked {limit : ℕ} {type : UInt8} {payload tag : Bytes}
    (h : type = 1 ∨ type = 2) :
    (vleUnpacked limit .initial type payload tag).isError = .ok := by
  rcases h with rfl | rfl <;> rfl

theorem isError_of_vleUnpacked {limit : ℕ} {r : SqlContext} {type : UInt8} {payload tag : Bytes}
    (h : (vleUnpacked limit r type payload tag).isError = .ok) : r.isError = .ok := by
  rw [vleUnpacked] at h
  split at h
  · exact h
  · exact h
  · exact h
  · exact isError_of_sqlite3ResultText h
  · exact isError_of_sqlite3ResultBlob h
  · exact h

/-- **Which blobs are safe to decrypt**: those that do not get past the checks, and those of at
least 37 bytes that are not an authentic frame of a number with less than eight bytes of payload. -/
theorem vle_safe_iff (P : VlePrimitives) {ctx : VleContext} (hctx : ctx.keyLen ≠ 0 → ctx.Keyed)
    (limit : ℕ) (blob : Bytes) (scopeArg : Option SqlValue) (env : Env) :
    VleSafe P ctx limit blob scopeArg env ↔
      ¬ VleReaches ctx blob env ∨
        37 ≤ blob.length ∧
          (vleStoredTag blob = vleBlobTag P ctx blob (vleGetScope scopeArg) →
            (vleBlobPlain P ctx blob (vleGetScope scopeArg)).getD 0 0 = 1 ∨
              (vleBlobPlain P ctx blob (vleGetScope scopeArg)).getD 0 0 = 2 →
            45 ≤ blob.length) := by
  by_cases hreach : VleReaches ctx blob env
  swap
  · -- refused
    obtain ⟨r, hr, _⟩ := vleDecryptVia_refused (P := P) hreach id limit scopeArg
    rw [vleDecryptVia_id] at hr
    exact iff_of_true ⟨by rw [hr]; rfl, fun h => absurd h hreach, fun h => absurd h hreach⟩
      (Or.inl hreach)
  have hkeyed := hctx hreach.1
  have hlen : vlePayloadLen ctx blob.length = (blob.length : ℤ) - 37 := by
    rw [vlePayloadLen, hkeyed.nonceLen, hkeyed.tagLen, vleHeaderLen]
    omega
  by_cases h37 : 37 ≤ blob.length
  swap
  · refine iff_of_false (fun h => ?_) (fun h => ?_)
    · have hlengths := h.lengths hreach
      omega
    · rcases h with h | h
      · exact h hreach
      · exact h37 h.1
  -- the frame has a type byte and a payload
  have h36 : 36 ≤ blob.length := by omega
  obtain ⟨type, payload, hplain⟩ : ∃ type payload,
      vleBlobPlain P ctx blob (vleGetScope scopeArg) = type :: payload := by
    rcases hp : vleBlobPlain P ctx blob (vleGetScope scopeArg) with _ | ⟨type, payload⟩
    · have hl := length_vleBlobPlain P ctx h36 (vleGetScope scopeArg)
      rw [hp, List.length_nil] at hl
      omega
    · exact ⟨type, payload, rfl⟩
  have hpayload : blob.length = payload.length + 37 := by
    have hl := length_vleBlobPlain P ctx h36 (vleGetScope scopeArg)
    rw [hplain, List.length_cons] at hl
    omega
  have hdec := vleDecryptVia_eq (P := P) hkeyed hreach (f := id) hpayload
      (by rw [hplain]; rfl) limit
  rw [vleDecryptVia_id] at hdec
  have hbuffer : (vleBuffer blob (type :: payload)).getD 20 0 = type := by
    have hdata : (slice blob 0 20).length = 20 := length_slice_of_le (by omega)
    rw [vleBuffer, List.append_assoc, List.getD_append_right _ _ _ _ hdata.le, hdata]
    rfl
  rw [hplain, List.getD_cons_zero]
  constructor
  · intro hsafe
    refine Or.inr ⟨h37, fun hauth htype => ?_⟩
    by_contra hshort
    rw [if_pos hauth] at hdec
    refine hsafe.tooShort hreach _ _ (vleAeadDecrypt_of_le hkeyed (by omega) _) ?_ _ hdec
      (isError_vleUnpacked htype)
    rw [hplain, hbuffer, vleDeclaredLen, if_pos htype, hlen]
    omega
  · rintro (h | ⟨-, hauth⟩)
    · exact absurd hreach h
    · refine ⟨by rw [hdec]; rfl, fun _ => by omega, fun _ rc buffer hrc hshort r hr => ?_⟩
      rw [hdec, Option.some_inj] at hr
      rw [vleAeadDecrypt_of_le hkeyed (by omega), hplain] at hrc
      obtain rfl := congrArg Prod.snd (Option.some_inj.mp hrc)
      rw [hbuffer, vleDeclaredLen] at hshort
      intro hok
      rw [← hr] at hok
      have hverdict := isError_of_vleUnpacked hok
      by_cases htag : vleStoredTag blob = vleBlobTag P ctx blob (vleGetScope scopeArg)
      · split at hshort
        · have h45 := hauth htag ‹_›
          omega
        · omega
      · rw [if_neg htag, vleVerdict, if_pos (by simp), sqlite3ResultError] at hverdict
        cases hverdict

/-- A blob of 36 bytes that starts with the magic byte has no room for a type byte, and a payload of
length `-1`. A blob of four such bytes has an encrypted part of length `-32`, and the decoder reads
outside of it. -/
theorem vle_decrypt_unsafe :
    (VleReaches (zeroVleContext codecTypeAscon128) (vleMagic :: zeros 3) grantingEnv ∧
        vleDecrypt copyVlePrimitives (zeroVleContext codecTypeAscon128) 1000000000
          (some (.blob (vleMagic :: zeros 3))) none grantingEnv = none) ∧
      VleReaches (zeroVleContext codecTypeAscon128) (vleMagic :: zeros 35) grantingEnv ∧
        ¬ VleSafe copyVlePrimitives (zeroVleContext codecTypeAscon128) 1000000000
          (vleMagic :: zeros 35) none grantingEnv := by
  have hreach : VleReaches (zeroVleContext codecTypeAscon128) (vleMagic :: zeros 35) grantingEnv :=
    ⟨by decide, by decide, by decide, by decide⟩
  refine ⟨⟨⟨by decide, by decide, by decide, by decide⟩, by decide⟩, hreach, fun h => ?_⟩
  exact absurd (h.lengths hreach) (by decide)

/-- The blob of the integer `7` is safe under its scope. -/
theorem vle_safe_sevenUnderA :
    VleSafe copyVlePrimitives (zeroVleContext codecTypeChaCha20) 1000000000 sevenUnderA
      (some (.text (asciiBytes "a"))) grantingEnv :=
  (vle_safe_iff copyVlePrimitives (fun _ => zeroVleContext_keyed (Or.inl rfl)) 1000000000
    sevenUnderA
    (some (.text (asciiBytes "a"))) grantingEnv).mpr (Or.inr ⟨by decide, fun _ _ => by decide⟩)

end Decrypt

end MultipleCiphers
