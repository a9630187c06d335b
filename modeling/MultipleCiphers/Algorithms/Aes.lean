import MultipleCiphers.Algorithms.AesStandard
import MultipleCiphers.Ciphers.Rijndael

/-!
# AES in software

`RijndaelEncrypt` and `RijndaelDecrypt` do a round by looking up sixteen columns: a table entry is
the contribution of one byte of the state to one column, the substitution and the linear layer
already done. Twelve tables hold such entries, for a round forwards, a round backwards, and the
conversion of a round key. The last round has no linear layer; forwards it takes the second byte of
an entry of `T1`, which is the substituted byte itself, and backwards it has a table of its own.

A word of four bytes that is combined with another as one `UINT32` is a column here.

## Main results

* `lookup_T`, `lookup_U`, `lookup_T_inv` — what the entries of the tables are.
* `encryptTables_eq`, `decryptTables_eq` — a round of lookups is a round of the standard.
* `rijndaelEncryptBlock_rounds`, `rijndaelDecryptBlock_rounds` — a block, with any round keys.
-/

namespace MultipleCiphers

open Bytes

/-! ### The routines -/

/-- An entry of a table of columns. -/
def lookup (table : List ℕ) (x : UInt8) : AesColumn := columnOf (table.getD x.toNat 0)

/-- `b[4 c .. 4 c + 3]` of an inner round of `RijndaelEncrypt`. -/
def encryptTables (temp : AesState) : AesState :=
  let t (c r : Fin 4) := (temp.get c).get r
  Vector.ofFn fun c =>
    xorColumn (xorColumn (xorColumn (lookup Rijndael.T1 (t c (row 0)))
        (lookup Rijndael.T2 (t (c + row 1) (row 1))))
      (lookup Rijndael.T3 (t (c + row 2) (row 2)))) (lookup Rijndael.T4 (t (c + row 3) (row 3)))

/-- The last round of `RijndaelEncrypt`, `b[4 c + r] = T1[temp[c + r][r]][1]`. -/
def encryptLast (temp : AesState) : AesState :=
  let t (c r : Fin 4) := (temp.get c).get r
  let byte (w : AesColumn) (r : Fin 4) := w.get r
  Vector.ofFn fun c => Vector.ofFn fun r => byte (lookup Rijndael.T1 (t (c + r) r)) (row 1)

/-- `b[4 c .. 4 c + 3]` of an inner round of `RijndaelDecrypt`. -/
def decryptTables (temp : AesState) : AesState :=
  let t (c r : Fin 4) := (temp.get c).get r
  Vector.ofFn fun c =>
    xorColumn (xorColumn (xorColumn (lookup Rijndael.T5 (t c (row 0)))
        (lookup Rijndael.T6 (t (c + row 3) (row 1))))
      (lookup Rijndael.T7 (t (c + row 2) (row 2)))) (lookup Rijndael.T8 (t (c + row 1) (row 3)))

/-- The last round of `RijndaelDecrypt`, `b[4 c + r] = S5[temp[c - r][r]]`. -/
def decryptLast (temp : AesState) : AesState :=
  let t (c r : Fin 4) := (temp.get c).get r
  Vector.ofFn fun c => Vector.ofFn fun r => Rijndael.S5.getD (t (c - r) r).toNat 0

/-- `m_expandedKey[r]`. -/
def roundKeyAt (expandedKey : Bytes) (r : ℕ) : AesState :=
  Vector.ofFn fun t => columnAt expandedKey (16 * r + 4 * t)

/-- `RijndaelEncrypt`. -/
def rijndaelEncryptBlock (rijndael : Rijndael) (a : Bytes) : Bytes :=
  let key := roundKeyAt rijndael.expandedKey
  let b := encryptTables (xorState (stateOf a) (key 0))
  let b := (List.range (rijndael.rounds - 2)).foldl
    (fun b i => encryptTables (xorState b (key (i + 1)))) b
  let temp := xorState b (key (rijndael.rounds - 1))
  bytesOf (xorState (encryptLast temp) (key rijndael.rounds))

/-- `RijndaelDecrypt`. -/
def rijndaelDecryptBlock (rijndael : Rijndael) (a : Bytes) : Bytes :=
  let key := roundKeyAt rijndael.expandedKey
  let b := decryptTables (xorState (stateOf a) (key rijndael.rounds))
  let b := (List.range (rijndael.rounds - 2)).foldl
    (fun b i => decryptTables (xorState b (key (rijndael.rounds - (i + 1))))) b
  let temp := xorState b (key 1)
  bytesOf (xorState (decryptLast temp) (key 0))

/-! ### The tables -/

/-- Four bytes as an entry, and an entry with its bytes turned. -/
def entry (a b c d : UInt8) : ℕ :=
  a.toNat * 2 ^ 24 + b.toNat * 2 ^ 16 + c.toNat * 2 ^ 8 + d.toNat
def turnEntry (e : ℕ) : ℕ := e % 2 ^ 8 * 2 ^ 24 + e / 2 ^ 8

theorem ofNat_eq_of_mod {n : ℕ} {x : UInt8} (h : n % 256 = x.toNat) : UInt8.ofNat n = x := by
  rw [← UInt8.toNat_inj, UInt8.toNat_ofNat', h]

/-- The bytes of an entry. -/
theorem byte_of_entry {a b c d : ℕ} (ha : a < 256) (hb : b < 256) (hc : c < 256) (hd : d < 256) :
    (a * 2 ^ 24 + b * 2 ^ 16 + c * 2 ^ 8 + d) / 2 ^ 24 % 256 = a ∧
      (a * 2 ^ 24 + b * 2 ^ 16 + c * 2 ^ 8 + d) / 2 ^ 16 % 256 = b ∧
      (a * 2 ^ 24 + b * 2 ^ 16 + c * 2 ^ 8 + d) / 2 ^ 8 % 256 = c ∧
      (a * 2 ^ 24 + b * 2 ^ 16 + c * 2 ^ 8 + d) % 256 = d ∧
      (a * 2 ^ 24 + b * 2 ^ 16 + c * 2 ^ 8 + d) % 2 ^ 8 * 2 ^ 24 +
          (a * 2 ^ 24 + b * 2 ^ 16 + c * 2 ^ 8 + d) / 2 ^ 8 =
        d * 2 ^ 24 + a * 2 ^ 16 + b * 2 ^ 8 + c := by
  omega

theorem columnOf_eq {e : ℕ} {a b c d : UInt8} (h₃ : UInt8.ofNat (e / 2 ^ 24) = a)
    (h₂ : UInt8.ofNat (e / 2 ^ 16) = b) (h₁ : UInt8.ofNat (e / 2 ^ 8) = c)
    (h₀ : UInt8.ofNat e = d) : columnOf e = #v[a, b, c, d] := by
  subst h₃ h₂ h₁ h₀
  rfl

theorem columnOf_entry (a b c d : UInt8) : columnOf (entry a b c d) = #v[a, b, c, d] := by
  obtain ⟨h₃, h₂, h₁, h₀, -⟩ := byte_of_entry a.toNat_lt b.toNat_lt c.toNat_lt d.toNat_lt
  exact columnOf_eq (ofNat_eq_of_mod h₃) (ofNat_eq_of_mod h₂) (ofNat_eq_of_mod h₁)
    (ofNat_eq_of_mod h₀)

theorem turnEntry_entry (a b c d : UInt8) : turnEntry (entry a b c d) = entry d a b c :=
  (byte_of_entry a.toNat_lt b.toNat_lt c.toNat_lt d.toNat_lt).2.2.2.2

theorem T1_eq :
    Rijndael.T1 = Rijndael.S.map fun s => entry (mul2 s) s s (mul3 s) := by decide +kernel

theorem T2_eq : Rijndael.T2 = Rijndael.T1.map turnEntry ∧
    Rijndael.T3 = Rijndael.T2.map turnEntry ∧ Rijndael.T4 = Rijndael.T3.map turnEntry := by
  decide +kernel

theorem U1_eq : Rijndael.U1 = (List.range 256).map fun i => entry (mul14 (UInt8.ofNat i))
    (mul9 (UInt8.ofNat i)) (mul13 (UInt8.ofNat i)) (mul11 (UInt8.ofNat i)) := by
  decide +kernel

theorem U2_eq : Rijndael.U2 = Rijndael.U1.map turnEntry ∧
    Rijndael.U3 = Rijndael.U2.map turnEntry ∧ Rijndael.U4 = Rijndael.U3.map turnEntry := by
  decide +kernel

theorem T5_eq :
    Rijndael.T5 = Rijndael.S5.map fun s => Rijndael.U1.getD s.toNat 0 := by decide +kernel

theorem T6_eq : Rijndael.T6 = Rijndael.T5.map turnEntry ∧
    Rijndael.T7 = Rijndael.T6.map turnEntry ∧ Rijndael.T8 = Rijndael.T7.map turnEntry := by
  decide +kernel

theorem length_S5 : Rijndael.S5.length = 256 := by decide +kernel

theorem getD_turned (l : List ℕ) (i : ℕ) :
    (l.map turnEntry).getD i 0 = turnEntry (l.getD i 0) := by
  rw [List.getD_eq_getElem?_getD, List.getElem?_map, List.getD_eq_getElem?_getD]
  cases l[i]? <;> rfl

/-- An entry of a table that is made from a table of bytes. -/
theorem getD_made {l : List UInt8} (hl : l.length = 256) (f : UInt8 → ℕ) (x : UInt8) :
    (l.map f).getD x.toNat 0 = f (l.getD x.toNat 0) := by
  have hlt : x.toNat < l.length := by
    rw [hl]
    exact x.toNat_lt
  rw [List.getD_eq_getElem _ _ (by rwa [List.length_map]), List.getElem_map,
    List.getD_eq_getElem _ _ hlt]

/-- **The tables of a round forwards**: the columns of `MixColumns`, behind the box. -/
theorem lookup_T (x : UInt8) :
    lookup Rijndael.T1 x = #v[mul2 (aesSBox x), aesSBox x, aesSBox x, mul3 (aesSBox x)] ∧
      lookup Rijndael.T2 x = #v[mul3 (aesSBox x), mul2 (aesSBox x), aesSBox x, aesSBox x] ∧
      lookup Rijndael.T3 x = #v[aesSBox x, mul3 (aesSBox x), mul2 (aesSBox x), aesSBox x] ∧
      lookup Rijndael.T4 x = #v[aesSBox x, aesSBox x, mul3 (aesSBox x), mul2 (aesSBox x)] := by
  have hfirst : Rijndael.T1.getD x.toNat 0 =
      entry (mul2 (aesSBox x)) (aesSBox x) (aesSBox x) (mul3 (aesSBox x)) := by
    rw [T1_eq, getD_made length_S, aesSBox]
  simp only [lookup, T2_eq, getD_turned, hfirst, turnEntry_entry, columnOf_entry, and_self]

/-- **The tables of a key conversion**: the columns of `InvMixColumns`. -/
theorem lookup_U (x : UInt8) :
    lookup Rijndael.U1 x = #v[mul14 x, mul9 x, mul13 x, mul11 x] ∧
      lookup Rijndael.U2 x = #v[mul11 x, mul14 x, mul9 x, mul13 x] ∧
      lookup Rijndael.U3 x = #v[mul13 x, mul11 x, mul14 x, mul9 x] ∧
      lookup Rijndael.U4 x = #v[mul9 x, mul13 x, mul11 x, mul14 x] := by
  have hfirst : Rijndael.U1.getD x.toNat 0 = entry (mul14 x) (mul9 x) (mul13 x) (mul11 x) := by
    have hlt : x.toNat < ((List.range 256).map fun i => entry (mul14 (UInt8.ofNat i))
        (mul9 (UInt8.ofNat i)) (mul13 (UInt8.ofNat i)) (mul11 (UInt8.ofNat i))).length := by
      rw [List.length_map, List.length_range]
      exact x.toNat_lt
    rw [U1_eq, List.getD_eq_getElem _ _ hlt, List.getElem_map, List.getElem_range,
      UInt8.ofNat_toNat]
  simp only [lookup, U2_eq, getD_turned, hfirst, turnEntry_entry, columnOf_entry, and_self]

/-- **The tables of a round backwards**: those of the key conversion, behind the inverse of the
box. -/
theorem lookup_T_inv (x : UInt8) :
    lookup Rijndael.T5 x = lookup Rijndael.U1 (aesInvSBox x) ∧
      lookup Rijndael.T6 x = lookup Rijndael.U2 (aesInvSBox x) ∧
      lookup Rijndael.T7 x = lookup Rijndael.U3 (aesInvSBox x) ∧
      lookup Rijndael.T8 x = lookup Rijndael.U4 (aesInvSBox x) := by
  have hfirst : Rijndael.T5.getD x.toNat 0 = Rijndael.U1.getD (aesInvSBox x).toNat 0 := by
    rw [T5_eq, getD_made length_S5, aesInvSBox]
  simp only [lookup, T6_eq, U2_eq, getD_turned, hfirst, and_self]

/-! ### Rounds -/

/-- A column of `MixColumns` is the sum of what its bytes contribute, and so is one of
`InvMixColumns`. -/
theorem mixColumn_eq {w : AesColumn} {a b c d : UInt8} (ha : w.get (row 0) = a)
    (hb : w.get (row 1) = b) (hc : w.get (row 2) = c) (hd : w.get (row 3) = d) : mixColumn w =
      xorColumn (xorColumn (xorColumn #v[mul2 a, a, a, mul3 a] #v[mul3 b, mul2 b, b, b])
        #v[c, mul3 c, mul2 c, c]) #v[d, d, mul3 d, mul2 d] := by
  subst ha hb hc hd
  refine column_ext fun r => ?_
  simp only [get_xorColumn]
  fin_cases r <;> rfl

theorem unmixColumn_eq {w : AesColumn} {a b c d : UInt8} (ha : w.get (row 0) = a)
    (hb : w.get (row 1) = b) (hc : w.get (row 2) = c) (hd : w.get (row 3) = d) : unmixColumn w =
      xorColumn (xorColumn (xorColumn #v[mul14 a, mul9 a, mul13 a, mul11 a]
          #v[mul11 b, mul14 b, mul9 b, mul13 b]) #v[mul13 c, mul11 c, mul14 c, mul9 c])
        #v[mul9 d, mul13 d, mul11 d, mul14 d] := by
  subst ha hb hc hd
  refine column_ext fun r => ?_
  simp only [get_xorColumn]
  fin_cases r <;> rfl

theorem add_row_zero : ∀ c : Fin 4, c + row 0 = c := by decide

/-- A row moves to the left by as much as it moves to the right from the other end. -/
theorem sub_row : ∀ c : Fin 4,
    c - row 0 = c ∧ c - row 1 = c + row 3 ∧ c - row 2 = c + row 2 ∧ c - row 3 = c + row 1 := by
  decide

/-- **A round forwards.** -/
theorem encryptTables_eq (temp : AesState) :
    encryptTables temp = mixColumns (shiftRows (subBytes temp)) := by
  refine state_ext fun c => ?_
  have hbyte {r k : Fin 4} (h : c + r = k) :
      ((shiftRows (subBytes temp)).get c).get r = aesSBox ((temp.get k).get r) := by
    rw [get_shiftRows, get_subBytes]
    subst h
    rfl
  rw [get_mixColumns,
    mixColumn_eq (hbyte (add_row_zero c)) (hbyte rfl) (hbyte rfl) (hbyte rfl)]
  simp only [encryptTables, get_ofFn, lookup_T]

theorem encryptLast_eq (temp : AesState) : encryptLast temp = shiftRows (subBytes temp) := by
  refine state_ext fun c => column_ext fun r => ?_
  rw [get_shiftRows, get_subBytes]
  simp only [encryptLast, get_ofFn, lookup_T]
  rfl

/-- **A round backwards.** -/
theorem decryptTables_eq (temp : AesState) :
    decryptTables temp = unmixColumns (unsubBytes (unshiftRows temp)) := by
  refine state_ext fun c => ?_
  have hbyte {r k : Fin 4} (h : c - r = k) :
      ((unsubBytes (unshiftRows temp)).get c).get r = aesInvSBox ((temp.get k).get r) := by
    rw [get_unsubBytes, get_unshiftRows]
    subst h
    rfl
  obtain ⟨h₀, h₁, h₂, h₃⟩ := sub_row c
  rw [get_unmixColumns, unmixColumn_eq (hbyte h₀) (hbyte h₁) (hbyte h₂) (hbyte h₃)]
  simp only [decryptTables, get_ofFn, lookup_T_inv, lookup_U]

theorem decryptLast_eq (temp : AesState) : decryptLast temp = unsubBytes (unshiftRows temp) := by
  refine state_ext fun c => column_ext fun r => ?_
  rw [get_unsubBytes, get_unshiftRows]
  simp only [decryptLast, get_ofFn, aesInvSBox]

/-! ### One block -/

/-- The first step of a loop, taken before it. -/
theorem foldl_range_peeled {σ : Type*} (g : σ → ℕ → σ) (x : σ) {n : ℕ} (hn : 2 ≤ n) :
    (List.range (n - 2)).foldl (fun b i => g b (i + 1)) (g x 0) =
      (List.range (n - 1)).foldl g x := by
  rw [show n - 1 = n - 2 + 1 by omega, List.range_succ_eq_map, List.foldl_cons, List.foldl_map]

theorem foldl_range_succ {σ : Type*} (g : σ → ℕ → σ) (x : σ) (i : ℕ) :
    (List.range (i + 1)).foldl g x = g ((List.range i).foldl g x) i := by
  rw [List.range_succ, List.foldl_append, List.foldl_cons, List.foldl_nil]

variable {rijndael : Rijndael}

/-- **`RijndaelEncrypt`** is the cipher with the round keys that are there. -/
theorem rijndaelEncryptBlock_rounds (hrounds : 2 ≤ rijndael.rounds) (a : Bytes) :
    rijndaelEncryptBlock rijndael a =
      bytesOf
        (aesCipher.encrypt (roundKeyAt rijndael.expandedKey) rijndael.rounds (stateOf a)) := by
  let key := roundKeyAt rijndael.expandedKey
  let g (b : AesState) (i : ℕ) : AesState := encryptTables (xorState b (key i))
  have hloop := foldl_range_peeled g (stateOf a) hrounds
  have hencrypt : aesCipher.xor (aesCipher.substitute (aesCipher.xor
      ((List.range (rijndael.rounds - 1)).foldl g (stateOf a)) (key (rijndael.rounds - 1))))
      (key rijndael.rounds) = aesCipher.encrypt key rijndael.rounds (stateOf a) :=
    KeyAlternating.encrypt_eq (f := fun i => (List.range i).foldl g (stateOf a)) rfl fun i =>
      (foldl_range_succ g _ i).trans (encryptTables_eq _)
  rw [rijndaelEncryptBlock, encryptLast_eq]
  exact congrArg bytesOf ((congrArg (fun b => xorState (shiftRows (subBytes
    (xorState b (key (rijndael.rounds - 1))))) (key rijndael.rounds)) hloop).trans hencrypt)

/-- **`RijndaelDecrypt`** is the cipher backwards with the round keys that are there. -/
theorem rijndaelDecryptBlock_rounds (hrounds : 2 ≤ rijndael.rounds) (a : Bytes) :
    rijndaelDecryptBlock rijndael a =
      bytesOf
        (aesCipher.decrypt (roundKeyAt rijndael.expandedKey) rijndael.rounds (stateOf a)) := by
  let key := roundKeyAt rijndael.expandedKey
  let g (b : AesState) (i : ℕ) : AesState := decryptTables (xorState b (key (rijndael.rounds - i)))
  have hloop := foldl_range_peeled g (stateOf a) hrounds
  have hdecrypt : aesCipher.xor (aesCipher.unsubstitute (aesCipher.xor
      ((List.range (rijndael.rounds - 1)).foldl g (stateOf a)) (key 1))) (key 0) =
        aesCipher.decrypt key rijndael.rounds (stateOf a) :=
    KeyAlternating.decrypt_eq (f := fun i => (List.range i).foldl g (stateOf a)) (by omega) rfl
      fun i => (foldl_range_succ g _ i).trans (decryptTables_eq _)
  rw [rijndaelDecryptBlock, decryptLast_eq]
  exact congrArg bytesOf ((congrArg (fun b => xorState (unsubBytes (unshiftRows
    (xorState b (key 1)))) (key 0)) hloop).trans hdecrypt)

end MultipleCiphers
