import MultipleCiphers.Ciphers.Common

/-!
# The notations of a raw key

A password can be a key, with or without a salt, that is used as it stands. It is written after
`raw:`, in bytes or in hexadecimal digits, or in the notation of SQLCipher, `x'…'` around the
digits. Anything else is a passphrase and goes through the key derivation.

`sqlite3mcExtractRawKey` tells the notations apart by the length of the password, one after the
other, and so two things can go wrong. Two notations can have the same length: with a 16-byte key
and a 16-byte salt, the bytes of key and salt are as many as the hexadecimal digits of a key, and
the digits are then taken for bytes. And a byte that only counts for the length is not looked at:
any byte can stand where the closing quote should.

## Main definitions

* `RawNotation` — the notations, with the key and the salt they stand for.
* `rawKeyOutput` — the outcome of `sqlite3mcExtractRawKey` on its output parameters.
* `ParsedExactly` — a password is recognised and read as the notations say.

## Main results

* `parsedExactly_iff` — exactly which passwords are.
-/

namespace MultipleCiphers

open Bytes

/-! ### The notations -/

/-- The hexadecimal digits of a key, or of a key and a salt. -/
inductive HexNotation (keyLength saltLength : ℕ) : Bytes → Bytes → Option Bytes → Prop where
  | key (hex : Bytes) (hlen : hex.length = 2 * keyLength) (hhex : sqlite3mcIsHexKey hex = true) :
      HexNotation keyLength saltLength hex (sqlite3mcConvertHex2Bin hex) none
  | keySalt (hex hexSalt : Bytes) (hlen : hex.length = 2 * keyLength)
      (hsalt : hexSalt.length = 2 * saltLength) (hhex : sqlite3mcIsHexKey (hex ++ hexSalt) = true) :
      HexNotation keyLength saltLength (hex ++ hexSalt) (sqlite3mcConvertHex2Bin hex)
        (some (sqlite3mcConvertHex2Bin hexSalt))

/-- A password that is a raw key, with the key and the salt it stands for. -/
inductive RawNotation (keyLength saltLength : ℕ) : Bytes → Bytes → Option Bytes → Prop where
  | binaryKey (key : Bytes) (hlen : key.length = keyLength) :
      RawNotation keyLength saltLength (rawPrefix ++ key) key none
  | binaryKeySalt (key salt : Bytes) (hlen : key.length = keyLength)
      (hsalt : salt.length = saltLength) :
      RawNotation keyLength saltLength (rawPrefix ++ (key ++ salt)) key (some salt)
  | hex {digits key : Bytes} {salt : Option Bytes}
      (h : HexNotation keyLength saltLength digits key salt) :
      RawNotation keyLength saltLength (rawPrefix ++ digits) key salt
  | quoted {x : UInt8} {digits key : Bytes} {salt : Option Bytes} (hx : x = 0x78 ∨ x = 0x58)
      (h : HexNotation keyLength saltLength digits key salt) :
      RawNotation keyLength saltLength (x :: 0x27 :: (digits ++ [0x27])) key salt

/-- The outcome of `sqlite3mcExtractRawKey` on its output parameters: whether the key derivation is
bypassed, and what `key` and `salt` are afterwards. -/
def rawKeyOutput (password : Bytes) (keyOnly : Bool) (keyLength saltLength : ℕ) (key salt : Bytes) :
    Bool × Bytes × Bytes :=
  match sqlite3mcExtractRawKey password keyOnly keyLength saltLength with
  | some (rawKey, rawSalt) => (true, rawKey, rawSalt.getD salt)
  | none => (false, key, salt)

/-- A password is parsed exactly: the key derivation is bypassed for the notations of a raw key, key
and salt become what the notation says, and otherwise they stay as they are. -/
structure ParsedExactly (keyLength saltLength : ℕ) (keyOnly : Bool) (password : Bytes) : Prop where
  bypass_iff : ∀ key salt, (rawKeyOutput password keyOnly keyLength saltLength key salt).1 = true ↔
    ∃ rawKey rawSalt, RawNotation keyLength saltLength password rawKey rawSalt
  output : ∀ {rawKey rawSalt}, RawNotation keyLength saltLength password rawKey rawSalt →
    ∀ key salt, rawKeyOutput password keyOnly keyLength saltLength key salt =
      (true, rawKey, if keyOnly then salt else rawSalt.getD salt)
  unchanged : ∀ key salt, (rawKeyOutput password keyOnly keyLength saltLength key salt).1 = false →
    (rawKeyOutput password keyOnly keyLength saltLength key salt).2 = (key, salt)

section Hex

variable {keyLength saltLength : ℕ} {keyOnly : Bool}

/-- The part of `sqlite3mcExtractRawKey` that reads hexadecimal digits. -/
def hexRead (keyLength saltLength : ℕ) (keyOnly : Bool) (digits : Bytes) :
    Option (Bytes × Option Bytes) :=
  if sqlite3mcIsHexKey digits then
    if digits.length = 2 * keyLength then some (sqlite3mcConvertHex2Bin digits, none)
    else if digits.length = 2 * (keyLength + saltLength) then
      some (sqlite3mcConvertHex2Bin (digits.take (2 * keyLength)),
        if keyOnly then none else some (sqlite3mcConvertHex2Bin (digits.drop (2 * keyLength))))
    else none
  else none

/-- Hexadecimal digits are read as what they stand for. -/
theorem hexRead_of_notation (hsalt : 0 < saltLength) {digits key : Bytes} {salt : Option Bytes}
    (h : HexNotation keyLength saltLength digits key salt) :
    hexRead keyLength saltLength keyOnly digits = some (key, if keyOnly then none else salt) := by
  cases h with
  | key _ hlen hhex =>
    rw [hexRead, if_pos hhex, if_pos hlen, ite_self]
  | keySalt hex hexSalt hlen hlenSalt hhex =>
    have htotal : (hex ++ hexSalt).length = 2 * (keyLength + saltLength) := by
      rw [List.length_append, hlen, hlenSalt]
      omega
    have hne : ¬(hex ++ hexSalt).length = 2 * keyLength := by omega
    rw [hexRead, if_pos hhex, if_neg hne, if_pos htotal, List.take_left' hlen,
      List.drop_left' hlen]

/-- Nothing else is. -/
theorem notation_of_hexRead {digits key : Bytes} {salt : Option Bytes}
    (h : hexRead keyLength saltLength keyOnly digits = some (key, salt)) :
    ∃ rawSalt, HexNotation keyLength saltLength digits key rawSalt := by
  have hhex : sqlite3mcIsHexKey digits = true := by
    by_contra hne
    rw [hexRead, if_neg hne] at h
    cases h
  rw [hexRead, if_pos hhex] at h
  by_cases hkey : digits.length = 2 * keyLength
  · rw [if_pos hkey] at h
    cases h
    exact ⟨none, .key digits hkey hhex⟩
  · rw [if_neg hkey] at h
    by_cases hboth : digits.length = 2 * (keyLength + saltLength)
    · rw [if_pos hboth] at h
      cases h
      obtain ⟨hex, hexSalt, rfl, hlen⟩ : ∃ hex hexSalt : Bytes, digits = hex ++ hexSalt ∧
          hex.length = 2 * keyLength :=
        ⟨_, _, (List.take_append_drop (2 * keyLength) digits).symm, by rw [List.length_take]; omega⟩
      rw [List.length_append] at hboth
      rw [List.take_left' hlen]
      exact ⟨_, .keySalt hex hexSalt hlen (by omega) hhex⟩
    · rw [if_neg hboth] at h
      cases h

/-- Digits have a reading if they are of one of the two lengths. -/
theorem hexRead_isSome {digits : Bytes} :
    (hexRead keyLength saltLength keyOnly digits).isSome = true ↔
      sqlite3mcIsHexKey digits = true ∧
        (digits.length = 2 * keyLength ∨ digits.length = 2 * (keyLength + saltLength)) := by
  rw [hexRead]
  split_ifs with hhex hkey hboth <;> simp_all

end Hex

/-! ### The two kinds of passwords -/

section Passwords

variable {keyLength saltLength : ℕ} {keyOnly : Bool}

/-- A password after `raw:`. -/
theorem extractRawKey_raw {raw : Bytes} (hraw : raw ≠ []) :
    sqlite3mcExtractRawKey (rawPrefix ++ raw) keyOnly keyLength saltLength =
      if raw.length = keyLength + saltLength then
        some (raw.take keyLength, if keyOnly then none else some (raw.drop keyLength))
      else if raw.length = keyLength then some (raw, none)
      else hexRead keyLength saltLength keyOnly raw := by
  have hpos : 0 < raw.length := List.length_pos_iff.mpr hraw
  have hstart : 4 < (rawPrefix ++ raw).length ∧ (rawPrefix ++ raw).take 4 = rawPrefix := by
    refine ⟨?_, List.take_left' rfl⟩
    rw [List.length_append]
    exact Nat.lt_add_of_pos_right hpos
  have hdrop : (rawPrefix ++ raw).drop 4 = raw := List.drop_left' rfl
  simp only [sqlite3mcExtractRawKey, if_pos hstart, hdrop, hexRead]
  split_ifs <;> rfl

/-- A password between quotes, the byte at the place of the closing quote being `q`. -/
theorem extractRawKey_quoted {x q : UInt8} {digits : Bytes} (hx : x = 0x78 ∨ x = 0x58)
    (hsalt : 0 < saltLength) :
    sqlite3mcExtractRawKey (x :: 0x27 :: (digits ++ [q])) keyOnly keyLength saltLength =
      hexRead keyLength saltLength keyOnly digits := by
  have hstart : ¬(x :: 0x27 :: (digits ++ [q])).take 4 = rawPrefix := by
    intro h
    have hsecond := congrArg (fun b : Bytes => b[1]?) h
    simp [rawPrefix] at hsecond
  have hquote : hasHexQuotePrefix (x :: 0x27 :: (digits ++ [q])) = true := by
    simpa [hasHexQuotePrefix] using hx
  have hlen : (x :: 0x27 :: (digits ++ [q])).length = digits.length + 3 := by simp
  have hdrop : (x :: 0x27 :: (digits ++ [q])).drop 2 = digits ++ [q] := rfl
  simp only [sqlite3mcExtractRawKey, hstart, and_false, if_false, hdrop, hlen, hquote, true_and,
    Nat.add_right_cancel_iff, Nat.mul_comm _ 2, hexRead]
  by_cases hkey : digits.length = 2 * keyLength
  · have hne : ¬2 * keyLength = 2 * (keyLength + saltLength) := by omega
    have htake : (digits ++ [q]).take (2 * keyLength) = digits := List.take_left' hkey
    simp only [htake, hkey, hne, true_and, if_true, false_and, if_false]
  · simp only [hkey, false_and, if_false]
    by_cases hboth : digits.length = 2 * (keyLength + saltLength)
    · have htake : (digits ++ [q]).take (2 * (keyLength + saltLength)) = digits :=
        List.take_left' hboth
      have hkeyPart : (digits ++ [q]).take (2 * keyLength) = digits.take (2 * keyLength) :=
        List.take_append_of_le_length (by omega)
      have hsaltPart : slice (digits ++ [q]) (2 * keyLength) (2 * saltLength) =
          digits.drop (2 * keyLength) := by
        rw [slice, List.drop_append_of_le_length (by omega)]
        exact List.take_left' (by rw [List.length_drop]; omega)
      simp only [htake, hkeyPart, hsaltPart, hboth, true_and, if_true]
    · simp only [hboth, false_and, if_false, ite_self]

/-- What a password after `raw:` stands for. -/
theorem rawNotation_raw {raw key : Bytes} {salt : Option Bytes} :
    RawNotation keyLength saltLength (rawPrefix ++ raw) key salt ↔
      (raw.length = keyLength ∧ key = raw ∧ salt = none) ∨
        (raw.length = keyLength + saltLength ∧ key = raw.take keyLength ∧
          salt = some (raw.drop keyLength)) ∨
        HexNotation keyLength saltLength raw key salt := by
  constructor
  · intro h
    generalize hpassword : rawPrefix ++ raw = password at h
    cases h with
    | binaryKey _ hlen =>
      obtain rfl := List.append_cancel_left hpassword
      exact Or.inl ⟨hlen, rfl, rfl⟩
    | binaryKeySalt _ rawSalt hlen hsalt =>
      obtain rfl := List.append_cancel_left hpassword
      refine Or.inr (Or.inl ⟨?_, (List.take_left' hlen).symm, ?_⟩)
      · rw [List.length_append, hlen, hsalt]
      · rw [List.drop_left' hlen]
    | hex h =>
      obtain rfl := List.append_cancel_left hpassword
      exact Or.inr (Or.inr h)
    | quoted hx h =>
      have hsecond := congrArg (fun b : Bytes => b[1]?) hpassword
      simp [rawPrefix] at hsecond
  · rintro (⟨hlen, rfl, rfl⟩ | ⟨hlen, rfl, rfl⟩ | h)
    · exact .binaryKey _ hlen
    · have hread : RawNotation keyLength saltLength
          (rawPrefix ++ (raw.take keyLength ++ raw.drop keyLength)) (raw.take keyLength)
          (some (raw.drop keyLength)) :=
        .binaryKeySalt _ _ (by rw [List.length_take]; omega) (by rw [List.length_drop]; omega)
      rwa [List.take_append_drop] at hread
    · exact .hex h

/-- What a password between quotes stands for. -/
theorem rawNotation_quoted {x q : UInt8} {digits key : Bytes} {salt : Option Bytes}
    (hx : x = 0x78 ∨ x = 0x58) :
    RawNotation keyLength saltLength (x :: 0x27 :: (digits ++ [q])) key salt ↔
      q = 0x27 ∧ HexNotation keyLength saltLength digits key salt := by
  constructor
  · intro h
    generalize hpassword : x :: 0x27 :: (digits ++ [q]) = password at h
    have hstart : ∀ raw : Bytes, x :: 0x27 :: (digits ++ [q]) ≠ rawPrefix ++ raw := by
      intro raw heq
      have hsecond := congrArg (fun b : Bytes => b[1]?) heq
      simp [rawPrefix] at hsecond
    cases h with
    | binaryKey _ _ => exact absurd hpassword (hstart _)
    | binaryKeySalt _ _ _ _ => exact absurd hpassword (hstart _)
    | hex _ => exact absurd hpassword (hstart _)
    | quoted _ h =>
      simp only [List.cons.injEq, true_and] at hpassword
      obtain ⟨rfl, hq⟩ := List.append_inj' hpassword.2 rfl
      exact ⟨List.singleton_inj.mp hq, h⟩
  · rintro ⟨rfl, h⟩
    exact .quoted hx h

/-- A password with a quote in the second place. -/
theorem quoted_of_start {password : Bytes} (hquote : hasHexQuotePrefix password = true)
    (hlen : 3 ≤ password.length) :
    ∃ x digits q, (x = 0x78 ∨ x = 0x58) ∧ password = x :: 0x27 :: (digits ++ [q]) := by
  match password, hquote with
  | x :: y :: rest, hx =>
    simp only [hasHexQuotePrefix, decide_eq_true_eq] at hx
    have hrest : rest ≠ [] := List.ne_nil_of_length_pos (by simp at hlen; omega)
    refine ⟨x, rest.dropLast, rest.getLast hrest, hx.1, ?_⟩
    rw [List.dropLast_append_getLast, hx.2]

/-- A password that is taken for a raw key, or is one, is of one of the two kinds. -/
theorem rawKey_kinds (hkey : 0 < keyLength) {password : Bytes}
    (h : (sqlite3mcExtractRawKey password keyOnly keyLength saltLength).isSome = true ∨
      ∃ key salt, RawNotation keyLength saltLength password key salt) :
    (∃ raw, raw ≠ [] ∧ password = rawPrefix ++ raw) ∨
      ∃ x digits q, (x = 0x78 ∨ x = 0x58) ∧ password = x :: 0x27 :: (digits ++ [q]) := by
  rcases h with h | ⟨key, salt, h⟩
  · by_cases hstart : 4 < password.length ∧ password.take 4 = rawPrefix
    · refine Or.inl ⟨password.drop 4, ?_, ?_⟩
      · exact List.ne_nil_of_length_pos (by rw [List.length_drop]; omega)
      · rw [← hstart.2, List.take_append_drop]
    · right
      have hquote : hasHexQuotePrefix password = true ∧ 3 ≤ password.length := by
        by_contra hne
        have hshort : ∀ (m : ℕ) (c : Prop),
            ¬(password.length = m + 3 ∧ hasHexQuotePrefix password = true ∧ c) :=
          fun m c hc => hne ⟨hc.2.1, by omega⟩
        simp only [sqlite3mcExtractRawKey, if_neg hstart, hshort, if_false] at h
        cases h
      exact quoted_of_start hquote.1 hquote.2
  · cases h with
    | binaryKey _ hlen =>
      exact Or.inl ⟨_, List.ne_nil_of_length_pos (by omega), rfl⟩
    | binaryKeySalt _ _ hlen _ =>
      refine Or.inl ⟨_, List.ne_nil_of_length_pos ?_, rfl⟩
      rw [List.length_append]
      omega
    | hex h =>
      refine Or.inl ⟨_, List.ne_nil_of_length_pos ?_, rfl⟩
      cases h with
      | key _ hlen _ => omega
      | keySalt _ _ hlen _ _ =>
        rw [List.length_append]
        omega
    | quoted hx h => exact Or.inr ⟨_, _, _, hx, rfl⟩

end Passwords

/-! ### Which passwords are parsed exactly -/

section Exact

variable {keyLength saltLength : ℕ} {keyOnly : Bool} {password : Bytes}

theorem ParsedExactly.of_extract
    (hsound : ∀ {key salt},
      sqlite3mcExtractRawKey password keyOnly keyLength saltLength = some (key, salt) →
        ∃ rawSalt, RawNotation keyLength saltLength password key rawSalt)
    (hcomplete : ∀ {key salt}, RawNotation keyLength saltLength password key salt →
      sqlite3mcExtractRawKey password keyOnly keyLength saltLength =
        some (key, if keyOnly then none else salt)) :
    ParsedExactly keyLength saltLength keyOnly password where
  bypass_iff := by
    intro key salt
    constructor
    · intro h
      rw [rawKeyOutput] at h
      cases hextract : sqlite3mcExtractRawKey password keyOnly keyLength saltLength with
      | none =>
        rw [hextract] at h
        cases h
      | some result =>
        obtain ⟨rawSalt, hread⟩ := hsound hextract
        exact ⟨_, rawSalt, hread⟩
    · rintro ⟨rawKey, rawSalt, h⟩
      rw [rawKeyOutput, hcomplete h]
  output := by
    intro rawKey rawSalt h key salt
    rw [rawKeyOutput, hcomplete h]
    cases keyOnly <;> rfl
  unchanged := by
    intro key salt h
    rw [rawKeyOutput] at h ⊢
    cases hextract : sqlite3mcExtractRawKey password keyOnly keyLength saltLength with
    | none => rfl
    | some result =>
      rw [hextract] at h
      cases h

/-- Two contents of a parameter tell a value from none. -/
theorem getD_inj {a b : Option Bytes} (h : ∀ s, a.getD s = b.getD s) : a = b := by
  have hne : ∀ v : Bytes, ¬∀ s : Bytes, s = v := fun v hv =>
    absurd ((hv []).trans (hv [0]).symm) (by decide)
  cases a with
  | none =>
    cases b with
    | none => rfl
    | some v => exact absurd h (hne v)
  | some v =>
    cases b with
    | none => exact absurd (fun s => (h s).symm) (hne v)
    | some w => exact congrArg some (h [])

/-- What is parsed exactly is extracted as each of its notations says. -/
theorem ParsedExactly.extract (h : ParsedExactly keyLength saltLength keyOnly password)
    {key : Bytes} {salt : Option Bytes}
    (hread : RawNotation keyLength saltLength password key salt) :
    sqlite3mcExtractRawKey password keyOnly keyLength saltLength =
      some (key, if keyOnly then none else salt) := by
  have hout := h.output hread []
  unfold rawKeyOutput at hout
  cases hextract : sqlite3mcExtractRawKey password keyOnly keyLength saltLength with
  | none =>
    rw [hextract] at hout
    exact absurd (congrArg Prod.fst (hout [])) Bool.false_ne_true
  | some result =>
    obtain ⟨rawKey, rawSalt⟩ := result
    rw [hextract] at hout
    have hkey : rawKey = key := congrArg (fun r => r.2.1) (hout [])
    have hsalt : rawSalt = if keyOnly then none else salt := by
      refine getD_inj fun salt₀ => ?_
      rw [show rawSalt.getD salt₀ = _ from congrArg (fun r => r.2.2) (hout salt₀)]
      cases keyOnly <;> rfl
    rw [hkey, hsalt]

/-! ### Digits that are taken for bytes -/

theorem hexDigit_eq_some {c : UInt8} {n : ℕ} (h : hexDigit c = some n) :
    n ≤ 9 ∧ c.toNat = n + 0x30 ∨ 10 ≤ n ∧ n ≤ 15 ∧ (c.toNat = n + 0x37 ∨ c.toNat = n + 0x57) := by
  simp only [hexDigit] at h
  split_ifs at h <;> cases h <;> omega

/-- Two digits of a byte that is itself the first of them, or `3`, are both `3`. -/
theorem hexDigit_fixed {a b c : UInt8} (ha : (hexDigit a).isSome = true)
    (hb : (hexDigit b).isSome = true)
    (hc : c = UInt8.ofNat (sqlite3mcConvertHex2Int a * 16 + sqlite3mcConvertHex2Int b))
    (hac : a = c ∨ c = 0x33) : a = 0x33 ∧ b = 0x33 := by
  obtain ⟨n, hn⟩ := Option.isSome_iff_exists.mp ha
  obtain ⟨m, hm⟩ := Option.isSome_iff_exists.mp hb
  have hcn : c.toNat = n * 16 + m := by
    have hbound := hexDigit_eq_some hn
    have hbound' := hexDigit_eq_some hm
    rw [hc, sqlite3mcConvertHex2Int, sqlite3mcConvertHex2Int, hn, hm, Option.getD_some,
      Option.getD_some, UInt8.toNat_ofNat', Nat.mod_eq_of_lt (by omega)]
  have hac' : a.toNat = c.toNat ∨ c.toNat = 0x33 := by
    rcases hac with rfl | rfl
    · exact Or.inl rfl
    · exact Or.inr rfl
  have han := hexDigit_eq_some hn
  have hbm := hexDigit_eq_some hm
  constructor
  · exact UInt8.toNat_inj.mp (show a.toNat = 0x33 by omega)
  · exact UInt8.toNat_inj.mp (show b.toNat = 0x33 by omega)

/-- A byte of a converted string comes from two digits. -/
theorem getElem?_sqlite3mcConvertHex2Bin {n : ℕ} {hex : Bytes} (h : hex.length = 2 * n) {i : ℕ}
    (hi : i < n) : ∃ a b, hex[2 * i]? = some a ∧ hex[2 * i + 1]? = some b ∧
      (sqlite3mcConvertHex2Bin hex)[i]? =
        some (UInt8.ofNat (sqlite3mcConvertHex2Int a * 16 + sqlite3mcConvertHex2Int b)) := by
  induction n generalizing hex i with
  | zero => omega
  | succ n ih =>
    match hex, h with
    | hi' :: lo :: rest, h =>
      cases i with
      | zero => exact ⟨hi', lo, rfl, rfl, rfl⟩
      | succ i =>
        obtain ⟨a, b, ha, hb, hbyte⟩ := ih (show rest.length = 2 * n by simp at h; omega)
          (show i < n by omega)
        exact ⟨a, b, ha, hb, hbyte⟩

/-- **The digits that stand for the bytes they begin with** are those that are all `3`. -/
theorem convertHex2Bin_eq_take_iff {raw : Bytes} (hlen : raw.length = 2 * keyLength)
    (hhex : sqlite3mcIsHexKey raw = true) :
    sqlite3mcConvertHex2Bin raw = raw.take keyLength ↔ ∀ c ∈ raw, c = 0x33 := by
  have hdigit : ∀ {j : ℕ} {c : UInt8}, raw[j]? = some c → (hexDigit c).isSome = true := by
    intro j c hj
    exact List.all_eq_true.mp hhex c (List.mem_of_getElem? hj)
  constructor
  · intro h
    have hall : ∀ (j : ℕ) (c : UInt8), raw[j]? = some c → c = 0x33 := by
      intro j
      induction j using Nat.strong_induction_on with
      | _ j ih =>
        intro c hj
        have hjlt : j < raw.length := (List.getElem?_eq_some_iff.mp hj).1
        -- Byte `j / 2` of the key is made from the digits `2 * (j / 2)` and the one after it.
        obtain ⟨a, b, ha, hb, hbyte⟩ := getElem?_sqlite3mcConvertHex2Bin hlen
          (show j / 2 < keyLength by omega)
        rw [h, List.getElem?_take, if_pos (by omega)] at hbyte
        have hfixed : a = 0x33 ∧ b = 0x33 := by
          refine hexDigit_fixed (hdigit ha) (hdigit hb) rfl ?_
          by_cases hj0 : j / 2 = j
          · have hzero : j = 0 := by omega
            subst hzero
            exact Or.inl (Option.some.inj (ha.symm.trans hbyte))
          · exact Or.inr (ih _ (by omega) _ hbyte)
        rcases Nat.even_or_odd' j with ⟨i, hi | hi⟩
        · rw [show 2 * (j / 2) = j by omega, hj] at ha
          exact (Option.some.inj ha).trans hfixed.1
        · rw [show 2 * (j / 2) + 1 = j by omega, hj] at hb
          exact (Option.some.inj hb).trans hfixed.2
    intro c hc
    obtain ⟨j, hj⟩ := List.mem_iff_getElem?.mp hc
    exact hall j c hj
  · intro h
    refine List.ext_getElem? fun i => ?_
    by_cases hi : i < keyLength
    · obtain ⟨a, b, ha, hb, hbyte⟩ := getElem?_sqlite3mcConvertHex2Bin hlen hi
      have hi2 : i < raw.length := by omega
      rw [hbyte, List.getElem?_take, if_pos hi, List.getElem?_eq_getElem hi2,
        h _ (List.getElem_mem hi2), h a (List.mem_of_getElem? ha), h b (List.mem_of_getElem? hb)]
      rfl
    · rw [List.getElem?_eq_none (by rw [length_sqlite3mcConvertHex2Bin hlen]; omega),
        List.getElem?_eq_none (by rw [List.length_take]; omega)]

/-! ### The two defects -/

/-- The hexadecimal digits of a key after `raw:` are as many as the bytes of key and salt. The
digits of key `33…33` are its bytes, and then nothing is lost if no salt is wanted. -/
def DigitsTakenForBytes (keyLength saltLength : ℕ) (keyOnly : Bool) (password : Bytes) : Prop :=
  password.take 4 = rawPrefix ∧ (password.drop 4).length = 2 * keyLength ∧
    sqlite3mcIsHexKey (password.drop 4) = true ∧ 2 * keyLength = keyLength + saltLength ∧
      ¬(keyOnly = true ∧ ∀ c ∈ password.drop 4, c = 0x33)

/-- The last byte of a password in the notation of SQLCipher is no quote. -/
def UnclosedQuote (keyLength saltLength : ℕ) (password : Bytes) : Prop :=
  hasHexQuotePrefix password = true ∧
    (password.length = 2 * keyLength + 3 ∨ password.length = 2 * (keyLength + saltLength) + 3) ∧
      sqlite3mcIsHexKey (slice password 2 (password.length - 3)) = true ∧
        password.getLast? ≠ some 0x27

theorem parsedExactly_raw_iff (hkey : 0 < keyLength) (hsalt : 0 < saltLength) {raw : Bytes}
    (hraw : raw ≠ []) :
    ParsedExactly keyLength saltLength keyOnly (rawPrefix ++ raw) ↔
      ¬DigitsTakenForBytes keyLength saltLength keyOnly (rawPrefix ++ raw) := by
  have hdrop : (rawPrefix ++ raw).drop 4 = raw := List.drop_left' rfl
  have hbytes : raw.length = keyLength + saltLength →
      sqlite3mcExtractRawKey (rawPrefix ++ raw) keyOnly keyLength saltLength =
        some (raw.take keyLength, if keyOnly then none else some (raw.drop keyLength)) := by
    intro hlen
    rw [extractRawKey_raw hraw, if_pos hlen]
  have hother : raw.length ≠ keyLength + saltLength → raw.length ≠ keyLength →
      sqlite3mcExtractRawKey (rawPrefix ++ raw) keyOnly keyLength saltLength =
        hexRead keyLength saltLength keyOnly raw := by
    intro hne hne'
    rw [extractRawKey_raw hraw, if_neg hne, if_neg hne']
  constructor
  · -- The two readings of the digits would have to agree.
    rintro h ⟨-, hlen, hhex, htwice, hnot⟩
    rw [hdrop] at hlen hhex hnot
    have hsplit : raw.length = keyLength + saltLength := hlen.trans htwice
    have hread := h.extract (rawNotation_raw.mpr (Or.inr (Or.inr (.key raw hlen hhex))))
    rw [hbytes hsplit] at hread
    obtain ⟨htake, hnone⟩ := Prod.mk.inj (Option.some.inj hread)
    cases keyOnly with
    | true => exact hnot ⟨rfl, (convertHex2Bin_eq_take_iff hlen hhex).mp htake.symm⟩
    | false => cases hnone
  · intro hgood
    refine ParsedExactly.of_extract ?_ ?_
    · intro key salt hextract
      by_cases hsplit : raw.length = keyLength + saltLength
      · rw [hbytes hsplit] at hextract
        cases hextract
        exact ⟨_, rawNotation_raw.mpr (Or.inr (Or.inl ⟨hsplit, rfl, rfl⟩))⟩
      · by_cases hwhole : raw.length = keyLength
        · rw [extractRawKey_raw hraw, if_neg hsplit, if_pos hwhole] at hextract
          cases hextract
          exact ⟨_, rawNotation_raw.mpr (Or.inl ⟨hwhole, rfl, rfl⟩)⟩
        · rw [hother hsplit hwhole] at hextract
          obtain ⟨rawSalt, hread⟩ := notation_of_hexRead hextract
          exact ⟨rawSalt, .hex hread⟩
    · intro key salt hread
      rcases rawNotation_raw.mp hread with ⟨hwhole, rfl, rfl⟩ | ⟨hsplit, rfl, rfl⟩ | hhex
      · rw [extractRawKey_raw hraw, if_neg (by omega), if_pos hwhole, ite_self]
      · exact hbytes hsplit
      · by_cases hsplit : raw.length = keyLength + saltLength
        · -- Digits that are as many as the bytes of key and salt are the digits of a key.
          rw [hbytes hsplit]
          cases hhex with
          | key _ hlen hdigits =>
            obtain ⟨hkeyOnly, hthree⟩ : keyOnly = true ∧ ∀ c ∈ raw, c = 0x33 := by
              by_contra hnot
              refine hgood ⟨List.take_left' rfl, ?_, ?_, hlen.symm.trans hsplit, ?_⟩ <;>
                rwa [hdrop]
            rw [(convertHex2Bin_eq_take_iff hlen hdigits).mpr hthree, hkeyOnly]
            rfl
          | keySalt _ _ hlen hlenSalt _ =>
            rw [List.length_append] at hsplit
            omega
        · have hwhole : raw.length ≠ keyLength := by
            cases hhex with
            | key _ hlen _ => omega
            | keySalt _ _ hlen _ _ =>
              rw [List.length_append]
              omega
          rw [hother hsplit hwhole]
          exact hexRead_of_notation hsalt hhex

theorem parsedExactly_quoted_iff (hsalt : 0 < saltLength) {x q : UInt8} {digits : Bytes}
    (hx : x = 0x78 ∨ x = 0x58) :
    ParsedExactly keyLength saltLength keyOnly (x :: 0x27 :: (digits ++ [q])) ↔
      ¬UnclosedQuote keyLength saltLength (x :: 0x27 :: (digits ++ [q])) := by
  have hextract :
      sqlite3mcExtractRawKey (x :: 0x27 :: (digits ++ [q])) keyOnly keyLength saltLength =
      hexRead keyLength saltLength keyOnly digits := extractRawKey_quoted hx hsalt
  have hunclosed : UnclosedQuote keyLength saltLength (x :: 0x27 :: (digits ++ [q])) ↔
      (hexRead keyLength saltLength keyOnly digits).isSome = true ∧ q ≠ 0x27 := by
    have hquote : hasHexQuotePrefix (x :: 0x27 :: (digits ++ [q])) = true := by
      simpa [hasHexQuotePrefix] using hx
    have hlen : (x :: 0x27 :: (digits ++ [q])).length = digits.length + 3 := by simp
    have hslice : slice (x :: 0x27 :: (digits ++ [q])) 2 (digits.length + 3 - 3) = digits :=
      List.take_left' rfl
    have hlast : (x :: 0x27 :: (digits ++ [q])).getLast? = some q := by
      rw [← List.cons_append, ← List.cons_append, List.getLast?_concat]
    rw [UnclosedQuote, hquote, hlen, hslice, hlast, hexRead_isSome]
    simp only [Nat.add_right_cancel_iff, true_and, ne_eq, Option.some.injEq]
    tauto
  rw [hunclosed]
  constructor
  · rintro h ⟨hsome, hq⟩
    obtain ⟨result, hresult⟩ := Option.isSome_iff_exists.mp hsome
    have hbypass :
        (rawKeyOutput (x :: 0x27 :: (digits ++ [q])) keyOnly keyLength saltLength [] []).1
        = true := by
      rw [rawKeyOutput, hextract, hresult]
    obtain ⟨key, salt, hread⟩ := (h.bypass_iff [] []).mp hbypass
    exact hq ((rawNotation_quoted hx).mp hread).1
  · intro hgood
    refine ParsedExactly.of_extract ?_ ?_
    · intro key salt hresult
      rw [hextract] at hresult
      obtain ⟨rawSalt, hread⟩ := notation_of_hexRead hresult
      have hq : q = 0x27 := by
        by_contra hne
        exact hgood ⟨Option.isSome_iff_exists.mpr ⟨_, hresult⟩, hne⟩
      exact ⟨rawSalt, (rawNotation_quoted hx).mpr ⟨hq, hread⟩⟩
    · intro key salt hread
      rw [hextract]
      exact hexRead_of_notation hsalt ((rawNotation_quoted hx).mp hread).2

end Exact

/-- **Which passwords are parsed exactly**: all but the hexadecimal digits that are taken for bytes,
and the notation of SQLCipher with another byte in the place of the closing quote. -/
theorem parsedExactly_iff {keyLength saltLength : ℕ} (hkey : 0 < keyLength) (hsalt : 0 < saltLength)
    (keyOnly : Bool) (password : Bytes) :
    ParsedExactly keyLength saltLength keyOnly password ↔
      ¬DigitsTakenForBytes keyLength saltLength keyOnly password ∧
        ¬UnclosedQuote keyLength saltLength password := by
  by_cases hraw : ∃ raw, raw ≠ [] ∧ password = rawPrefix ++ raw
  · obtain ⟨raw, hne, rfl⟩ := hraw
    rw [parsedExactly_raw_iff hkey hsalt hne]
    exact (and_iff_left fun h => absurd h.1 (by simp [hasHexQuotePrefix, rawPrefix])).symm
  · by_cases hquoted : ∃ x digits q, (x = 0x78 ∨ x = 0x58) ∧
        password = x :: 0x27 :: (digits ++ [q])
    · obtain ⟨x, digits, q, hx, rfl⟩ := hquoted
      rw [parsedExactly_quoted_iff hsalt hx]
      refine (and_iff_right fun h => ?_).symm
      have hsecond := congrArg (fun b : Bytes => b[1]?) h.1
      simp [rawPrefix] at hsecond
    · -- Neither a raw key nor taken for one.
      have hneither :
          ¬((sqlite3mcExtractRawKey password keyOnly keyLength saltLength).isSome = true ∨
          ∃ key salt, RawNotation keyLength saltLength password key salt) :=
        fun h => not_or.mpr ⟨hraw, hquoted⟩ (rawKey_kinds hkey h)
      refine iff_of_true (ParsedExactly.of_extract ?_ ?_) ⟨?_, ?_⟩
      · intro key salt hextract
        exact absurd (Or.inl (by rw [hextract]; rfl)) hneither
      · intro key salt hread
        exact absurd (Or.inr ⟨key, salt, hread⟩) hneither
      · rintro ⟨hstart, hlen, -⟩
        refine hraw ⟨password.drop 4, List.ne_nil_of_length_pos (by omega), ?_⟩
        rw [← hstart, List.take_append_drop]
      · rintro ⟨hquote, hlen, -⟩
        exact hquoted (quoted_of_start hquote (by omega))

/-- A key of sixteen bytes after `raw:`. -/
theorem parsedExactly_iff_binaryKey :
    ParsedExactly 16 16 false (rawPrefix ++ zeros 16) ↔
      ¬DigitsTakenForBytes 16 16 false (rawPrefix ++ zeros 16) ∧
        ¬UnclosedQuote 16 16 (rawPrefix ++ zeros 16) :=
  parsedExactly_iff (by decide) (by decide) false (rawPrefix ++ zeros 16)

/-- **Two passwords that are not parsed exactly.** The digits of a 16-byte key are taken for the
bytes of key and salt, and a 32-byte key is read out of `x'00…00x`. -/
theorem rawKey_misread :
    ¬ParsedExactly 16 16 false (rawPrefix ++ List.replicate 32 0x30) ∧
      ¬ParsedExactly 32 16 false (0x78 :: 0x27 :: (List.replicate 64 0x30 ++ [0x78])) := by
  constructor
  · rw [parsedExactly_raw_iff (by decide) (by decide) (by decide), not_not]
    exact ⟨by decide, by decide, by decide, by decide, by decide⟩
  · rw [parsedExactly_quoted_iff (by decide) (Or.inl rfl), not_not]
    exact ⟨by decide, by decide, by decide, by decide⟩

end MultipleCiphers
