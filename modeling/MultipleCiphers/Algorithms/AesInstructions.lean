import MultipleCiphers.Algorithms.AesKeySchedule

/-!
# AES with the instructions of a processor

Where the processor has instructions for AES, they do the rounds and help with the round keys. The
source has two texts for that, one for x86 and one for ARM.

*The words of the key expansion* are made one by one. Neither processor has an instruction that
substitutes the bytes of a word, so both texts use one that is meant for more: `aeskeygenassist`
with a round constant of zero, and half a round on a state of four equal columns, which is not
changed when its rows are shifted.

*The rounds* have their key at the end on x86 and at the beginning on ARM.

What an instruction computes is an assumption, `AesProcessor.Documented`.

## Main results

* `genKeyLoop_spec` — the loop makes the words of the key expansion.
* `AesProcessor.Documented.encryptBlock`, `AesProcessor.Documented.decryptBlock` — the rounds.
* `platform_realises` — a processor with either kind of instructions has AES.
-/

namespace MultipleCiphers

open Bytes

/-! ### The routines -/

/-- `gKeySetupRoundConstants`. -/
def gKeySetupRoundConstants : List UInt8 :=
  [0x01, 0x02, 0x04, 0x08, 0x10, 0x20, 0x40, 0x80, 0x1b, 0x36]

/-- The body of the loop of `aesGenKeyEncryptInternal`: `sched` up to word `i`, and
`roundConstantPos`. `subRot` and `sub` are what the two texts do to a word. -/
def genKeyStep (subRot sub : AesColumn → AesColumn) (userKey : Bytes) (keyWords : ℕ)
    (s : List AesColumn × ℕ) (i : ℕ) : List AesColumn × ℕ :=
  let sched := s.1
  let roundConstantPos := s.2
  if i < keyWords then (sched ++ [columnAt userKey (4 * i)], roundConstantPos)
  else
    let temp := sched.getD (i - 1) zeroColumn
    let first := sched.getD (i - keyWords) zeroColumn
    if i % keyWords = 0 then
      let temp := xorColumn (subRot temp)
        #v[gKeySetupRoundConstants.getD roundConstantPos 0, 0, 0, 0]
      (sched ++ [xorColumn first temp], roundConstantPos + 1)
    else if keyWords = 8 ∧ i % 8 = 4 then
      (sched ++ [xorColumn first (sub temp)], roundConstantPos)
    else (sched ++ [xorColumn first temp], roundConstantPos)

/-- `numberOfRounds`. -/
def numberOfRounds (bits : ℕ) : ℕ :=
  if bits = 128 then 10 else if bits = 192 then 12 else if bits = 256 then 14 else 0

/-- `aesGenKeyEncryptInternal`: the vectors `keyData[j]`. -/
def aesGenKeyEncryptInternal (subRot sub : AesColumn → AesColumn) (userKey : Bytes) (bits : ℕ) :
    ℕ → AesState :=
  let schedWords := (numberOfRounds bits + 1) * 4
  let sched := ((List.range schedWords).foldl (genKeyStep subRot sub userKey (bits / 32)) ([], 0)).1
  fun j => Vector.ofFn fun t => sched.getD (4 * j + t) zeroColumn

/-- The vectors of a key schedule, stored in the memory of the round keys. -/
def storeKeyData (keySchedule : ℕ → AesState) : Bytes :=
  let lane (x : AesState) (t : Fin 4) := x.get t
  keyBytes fun i => lane (keySchedule (i / 4)) (row i)

/-- `aesGenKeyEncrypt`. -/
def aesGenKeyEncrypt (subRot sub : AesColumn → AesColumn) (userKey : Bytes) (bits : ℕ) : Bytes :=
  storeKeyData (aesGenKeyEncryptInternal subRot sub userKey bits)

/-- `aesGenKeyDecrypt`, `aesimc` being the instruction that converts a round key. -/
def aesGenKeyDecrypt (subRot sub : AesColumn → AesColumn) (aesimc : Bytes → Bytes)
    (userKey : Bytes) (bits : ℕ) : Bytes :=
  let tempKeySchedule := aesGenKeyEncryptInternal subRot sub userKey bits
  storeKeyData fun j =>
    if 0 < j ∧ j < numberOfRounds bits then stateOf (aesimc (bytesOf (tempKeySchedule j)))
    else tempKeySchedule j

/-- The instructions of a processor: those of `AesHardware`, and the ones that make keys. A vector
of four words is a state. -/
inductive AesProcessor where
  /-- `_mm_aesenc_si128`, `_mm_aesenclast_si128`, `_mm_aesdec_si128`, `_mm_aesdeclast_si128`,
  `_mm_aesimc_si128`, `_mm_aeskeygenassist_si128`. -/
  | x86 (aesenc aesenclast aesdec aesdeclast : Bytes → Bytes → Bytes) (aesimc : Bytes → Bytes)
    (aeskeygenassist : AesState → UInt8 → AesState)
  /-- `vaeseq_u8`, `vaesmcq_u8`, `vaesdq_u8`, `vaesimcq_u8`. -/
  | arm (aese : Bytes → Bytes → Bytes) (aesmc : Bytes → Bytes) (aesd : Bytes → Bytes → Bytes)
    (aesimc : Bytes → Bytes)

namespace AesProcessor

/-- The instructions for rounds. -/
def hardware : AesProcessor → AesHardware
  | x86 aesenc aesenclast aesdec aesdeclast _ _ => .ni aesenc aesenclast aesdec aesdeclast
  | arm aese aesmc aesd aesimc => .neon aese aesmc aesd aesimc

/-- The instruction that converts a round key. -/
def imc : AesProcessor → Bytes → Bytes
  | x86 _ _ _ _ aesimc _ => aesimc
  | arm _ _ _ aesimc => aesimc

/-- What is done to a word that is substituted: lane 0 of the vector that comes back. -/
def sub : AesProcessor → AesColumn → AesColumn
  | x86 _ _ _ _ _ aeskeygenassist, temp =>
    let lane (x : AesState) (t : Fin 4) := x.get t
    lane (aeskeygenassist #v[zeroColumn, temp, zeroColumn, zeroColumn] 0) (row 0)
  | arm aese _ _ _, temp =>
    let lane (x : AesState) (t : Fin 4) := x.get t
    lane (stateOf (aese (bytesOf #v[temp, temp, temp, temp]) (zeros 16))) (row 0)

/-- What is done to a word that is turned and substituted. On x86 lane 1 of the vector has both; on
ARM `(temp << 24) | (temp >> 8)` turns the word first. -/
def subRot : AesProcessor → AesColumn → AesColumn
  | x86 _ _ _ _ _ aeskeygenassist, temp =>
    let lane (x : AesState) (t : Fin 4) := x.get t
    lane (aeskeygenassist #v[zeroColumn, temp, zeroColumn, zeroColumn] 0) (row 1)
  | arm aese aesmc aesd aesimc, temp => sub (arm aese aesmc aesd aesimc) (rotWord temp)

/-- The key schedule of `RijndaelInit` with hardware. -/
def expandKey (p : AesProcessor) (dir : RijndaelDirection) (key : Bytes) : Bytes :=
  match dir with
  | .encrypt => aesGenKeyEncrypt p.subRot p.sub key (8 * key.length)
  | .decrypt => aesGenKeyDecrypt p.subRot p.sub p.imc key (8 * key.length)

/-- A platform with the instructions. -/
def platform (p : AesProcessor) : AesPlatform :=
  { softwareAes with
    expandKey := p.expandKey
    hardware := some p.hardware }

/-- The instructions compute what the manuals of the processors say. -/
def Documented : AesProcessor → Prop
  | x86 aesenc aesenclast aesdec aesdeclast aesimc aeskeygenassist =>
    (∀ s k, aesenc (bytesOf s) (bytesOf k) =
      bytesOf (xorState (mixColumns (shiftRows (subBytes s))) k)) ∧
    (∀ s k, aesenclast (bytesOf s) (bytesOf k) = bytesOf (xorState (shiftRows (subBytes s)) k)) ∧
    (∀ s k, aesdec (bytesOf s) (bytesOf k) =
      bytesOf (xorState (unmixColumns (unsubBytes (unshiftRows s))) k)) ∧
    (∀ s k, aesdeclast (bytesOf s) (bytesOf k) =
      bytesOf (xorState (unsubBytes (unshiftRows s)) k)) ∧
    (∀ s, aesimc (bytesOf s) = bytesOf (unmixColumns s)) ∧
    ∀ x rcon, aeskeygenassist x rcon =
      #v[subWord (x.get (row 1)), xorColumn (rotWord (subWord (x.get (row 1)))) #v[rcon, 0, 0, 0],
        subWord (x.get (row 3)), xorColumn (rotWord (subWord (x.get (row 3)))) #v[rcon, 0, 0, 0]]
  | arm aese aesmc aesd aesimc =>
    (∀ s k, aese (bytesOf s) (bytesOf k) = bytesOf (shiftRows (subBytes (xorState s k)))) ∧
    (∀ s, aesmc (bytesOf s) = bytesOf (mixColumns s)) ∧
    (∀ s k, aesd (bytesOf s) (bytesOf k) = bytesOf (unsubBytes (unshiftRows (xorState s k)))) ∧
    ∀ s, aesimc (bytesOf s) = bytesOf (unmixColumns s)

end AesProcessor

/-! ### The words of the key expansion -/

section Keys

variable {subRot sub : AesColumn → AesColumn} {key : Bytes} {nk : ℕ}

theorem gKeySetupRoundConstants_eq :
    ∀ p < 10, gKeySetupRoundConstants.getD p 0 = xtime^[p] 1 := by decide

/-- The words before word `i`, and the round constants they have used up. -/
theorem genKeyLoop_spec (hsubRot : ∀ w, subRot w = subWord (rotWord w))
    (hsub : ∀ w, sub w = subWord w) (hnk : nk = 4 ∨ nk = 6 ∨ nk = 8) {i : ℕ}
    (hi : i ≤ 4 * (nk + 7)) :
    (List.range i).foldl (genKeyStep subRot sub key nk) ([], 0) =
      ((List.range i).map (aesWord key nk), (i - 1) / nk) := by
  induction i with
  | zero => exact Prod.ext rfl (Nat.zero_div nk).symm
  | succ i ih =>
    have hpos : 0 < nk := by omega
    have hread {j : ℕ} (hj : j < i) :
        ((List.range i).map (aesWord key nk)).getD j zeroColumn = aesWord key nk j :=
      getD_map_range _ _ hj
    rw [foldl_range_succ, ih (by omega), genKeyStep, List.range_succ, List.map_append,
      List.map_singleton, Nat.add_sub_cancel]
    by_cases hlt : i < nk
    · rw [if_pos hlt, aesWord_of_lt hlt, Nat.div_eq_of_lt hlt, Nat.div_eq_of_lt (by omega)]
    · rw [if_neg hlt, hread (by omega), hread (by omega),
        isExpansion_aesWord hpos i (Nat.not_lt.mp hlt), aesTemp]
      by_cases hmod : i % nk = 0
      · obtain ⟨q, rfl⟩ := Nat.dvd_of_mod_eq_zero hmod
        obtain ⟨p, rfl⟩ : ∃ p, q = p + 1 := ⟨q - 1, by
          rcases Nat.eq_zero_or_pos q with rfl | hq
          · omega
          · omega⟩
        have hp : p < 10 := by
          rcases hnk with rfl | rfl | rfl <;> omega
        have hquot : (nk * (p + 1) - 1) / nk = p := by
          rw [show nk * (p + 1) - 1 = nk * p + (nk - 1) by rw [Nat.mul_succ]; omega,
            Nat.mul_add_div hpos, Nat.div_eq_of_lt (by omega), Nat.add_zero]
        rw [if_pos hmod, if_pos hmod, hsubRot, hquot, Nat.mul_div_cancel_left _ hpos, aesRcon,
          Nat.add_sub_cancel, gKeySetupRoundConstants_eq p hp]
      · have hquot : (i - 1) / nk = i / nk := by
          rcases hnk with rfl | rfl | rfl <;> omega
        rw [if_neg hmod, if_neg hmod, hsub, hquot]
        have hiff : nk = 8 ∧ i % 8 = 4 ↔ 6 < nk ∧ i % nk = 4 := by
          rcases hnk with rfl | rfl | rfl <;> omega
        simp only [hiff]
        split_ifs <;> rfl

theorem numberOfRounds_eq (hkey : key.length = 16 ∨ key.length = 24 ∨ key.length = 32) :
    numberOfRounds (8 * key.length) = aesRounds key ∧ 8 * key.length / 32 = key.length / 4 := by
  rw [aesRounds]
  rcases hkey with h | h | h <;> rw [h] <;> exact ⟨rfl, rfl⟩

/-- **The vectors** are the round keys. -/
theorem aesGenKeyEncryptInternal_eq (hsubRot : ∀ w, subRot w = subWord (rotWord w))
    (hsub : ∀ w, sub w = subWord w) (hkey : key.length = 16 ∨ key.length = 24 ∨ key.length = 32)
    {j : ℕ} (hj : j ≤ aesRounds key) :
    aesGenKeyEncryptInternal subRot sub key (8 * key.length) j = aesRoundKey key j := by
  obtain ⟨hrounds, hwords⟩ := numberOfRounds_eq hkey
  have hlast : (aesRounds key + 1) * 4 = 4 * (key.length / 4 + 7) := by
    rw [aesRounds]
    omega
  refine state_ext fun t => ?_
  rw [get_aesRoundKey hj]
  simp only [aesGenKeyEncryptInternal, get_ofFn]
  rw [hrounds, hwords, hlast, genKeyLoop_spec hsubRot hsub (by omega) (Nat.le_refl _),
    getD_map_range _ _ (by omega)]

end Keys

/-! ### Blocks in memory -/

theorem exists_bytesOf {b : Bytes} (h : b.length = 16) : ∃ s, b = bytesOf s :=
  ⟨stateOf b, (bytesOf_stateOf h).symm⟩

theorem xorBytes_bytesOf (s k : AesState) :
    xorBytes (bytesOf s) (bytesOf k) = bytesOf (xorState s k) := by
  simp only [xorBytes, bytesOf, List.zipWith_map, List.zipWith_self]
  refine List.map_congr_left fun i _ => ?_
  have hcolumn := congrArg (fun w : AesColumn => w.get (row i)) (get_xorState s k (row (i / 4)))
  exact ((hcolumn.trans (get_xorColumn _ _ _))).symm

/-- Round key `j`, as the loops load it. -/
theorem roundKey_storeKeyData (keySchedule : ℕ → AesState) {j : ℕ} (hj : j < 15) :
    AesHardware.roundKey (storeKeyData keySchedule) j = bytesOf (keySchedule j) := by
  refine List.ext_getElem? fun i => ?_
  rw [AesHardware.roundKey, getElem?_slice]
  by_cases hi : i < 16
  · have hvector : (16 * j + i) / 4 / 4 = j := by omega
    have hcolumn : row ((16 * j + i) / 4) = row (i / 4) := Fin.ext (by
      simp only [row]
      omega)
    have hrow : row (16 * j + i) = row i := Fin.ext (by
      simp only [row]
      omega)
    rw [if_pos hi, storeKeyData, getElem?_keyBytes _ (by omega), bytesOf, List.getElem?_map,
      List.getElem?_range hi]
    simp only [hvector, hcolumn, hrow, Option.map_some]
  · rw [if_neg hi, List.getElem?_eq_none (by rw [length_bytesOf]; omega)]

/-! ### The rounds -/

namespace AesProcessor

variable {p : AesProcessor} {keyData : Bytes} {keys : ℕ → AesState} {n : ℕ}

theorem Documented.encryptBlock (h : p.Documented)
    (hkeys : ∀ j ≤ n, AesHardware.roundKey keyData j = bytesOf (keys j)) (s : AesState) :
    p.hardware.encryptBlock keyData n (bytesOf s) = bytesOf (aesCipher.encrypt keys n s) := by
  cases p with
  | x86 aesenc aesenclast aesdec aesdeclast aesimc aeskeygenassist =>
    obtain ⟨henc, hlast, -⟩ := h
    have hloop : ∀ i ≤ n - 1, (List.range i).foldl
        (fun x j => aesenc x (AesHardware.roundKey keyData (j + 1)))
        (xorBytes (bytesOf s) (AesHardware.roundKey keyData 0)) =
          bytesOf (aesCipher.rounds keys s i) := by
      intro i hi
      induction i with
      | zero => rw [hkeys 0 (Nat.zero_le n), xorBytes_bytesOf]; rfl
      | succ i ih => rw [foldl_range_succ, ih (by omega), hkeys _ (by omega), henc]; rfl
    rw [hardware, AesHardware.encryptBlock, hloop _ (Nat.le_refl _), hkeys n (Nat.le_refl n), hlast]
    rfl
  | arm aese aesmc aesd aesimc =>
    obtain ⟨haese, haesmc, -⟩ := h
    let g (x : AesState) (j : ℕ) : AesState :=
      mixColumns (shiftRows (subBytes (xorState x (keys j))))
    let f (i : ℕ) : AesState := (List.range i).foldl g s
    have hloop : ∀ i ≤ n - 1, (List.range i).foldl
        (fun x j => aesmc (aese x (AesHardware.roundKey keyData j))) (bytesOf s) =
          bytesOf (f i) := by
      intro i hi
      induction i with
      | zero => rfl
      | succ i ih =>
        rw [foldl_range_succ, ih (by omega), hkeys _ (by omega), haese, haesmc]
        exact congrArg bytesOf (foldl_range_succ g s i).symm
    rw [hardware, AesHardware.encryptBlock, hloop _ (Nat.le_refl _), hkeys _ (Nat.sub_le n 1),
      haese, hkeys n (Nat.le_refl n), xorBytes_bytesOf]
    exact congrArg bytesOf (KeyAlternating.encrypt_eq (C := aesCipher) (f := f) rfl
      fun i => foldl_range_succ g s i)

theorem Documented.decryptBlock (h : p.Documented) (hn : 2 ≤ n)
    (hkeys : ∀ j ≤ n, AesHardware.roundKey keyData j = bytesOf (keys j)) (s : AesState) :
    p.hardware.decryptBlock keyData n (bytesOf s) = bytesOf (aesCipher.decrypt keys n s) := by
  cases p with
  | x86 aesenc aesenclast aesdec aesdeclast aesimc aeskeygenassist =>
    obtain ⟨-, -, hdec, hlast, -⟩ := h
    have hloop : ∀ i ≤ n - 1, (List.range i).foldl
        (fun x j => aesdec x (AesHardware.roundKey keyData (n - (j + 1))))
        (xorBytes (bytesOf s) (AesHardware.roundKey keyData n)) =
          bytesOf (aesCipher.unrounds keys n s i) := by
      intro i hi
      induction i with
      | zero => rw [hkeys n (Nat.le_refl n), xorBytes_bytesOf]; rfl
      | succ i ih =>
        rw [foldl_range_succ, ih (by omega), hkeys _ (Nat.sub_le _ _), hdec,
          KeyAlternating.unrounds, show n - 1 - i = n - (i + 1) by omega]
        rfl
    rw [hardware, AesHardware.decryptBlock, hloop _ (Nat.le_refl _), hkeys 0 (Nat.zero_le n), hlast]
    rfl
  | arm aese aesmc aesd aesimc =>
    obtain ⟨-, -, haesd, haesimc⟩ := h
    let g (x : AesState) (j : ℕ) : AesState :=
      unmixColumns (unsubBytes (unshiftRows (xorState x (keys (n - j)))))
    let f (i : ℕ) : AesState := (List.range i).foldl g s
    have hloop : ∀ i ≤ n - 1, (List.range i).foldl
        (fun x j => aesimc (aesd x (AesHardware.roundKey keyData (n - j)))) (bytesOf s) =
          bytesOf (f i) := by
      intro i hi
      induction i with
      | zero => rfl
      | succ i ih =>
        rw [foldl_range_succ, ih (by omega), hkeys _ (Nat.sub_le n i), haesd, haesimc]
        exact congrArg bytesOf (foldl_range_succ g s i).symm
    rw [hardware, AesHardware.decryptBlock, hloop _ (Nat.le_refl _), hkeys 1 (by omega), haesd,
      hkeys 0 (Nat.zero_le n), xorBytes_bytesOf]
    exact congrArg bytesOf (KeyAlternating.decrypt_eq (C := aesCipher) (f := f) (by omega) rfl
      fun i => foldl_range_succ g s i)

/-! ### The platform -/

theorem zeros_eq_bytesOf : zeros 16 = bytesOf (Vector.replicate 4 zeroColumn) := by decide

theorem get_equalColumns (w : AesColumn) : ∀ t : Fin 4, (#v[w, w, w, w] : AesState).get t = w := by
  intro t
  fin_cases t <;> rfl

/-- Half a round on four equal columns substitutes the bytes of a column: each row is shifted into
itself. -/
theorem shiftRows_equalColumns (w : AesColumn) (t : Fin 4) :
    (shiftRows (subBytes (xorState #v[w, w, w, w] (Vector.replicate 4 zeroColumn)))).get t =
      subWord w := by
  have hzero (c r : Fin 4) : ((Vector.replicate 4 zeroColumn).get c).get r = 0 := by
    simp only [zeroColumn, get_replicate]
  refine column_ext fun r => ?_
  rw [get_shiftRows, get_subBytes, get_subWord, get_xorState, get_xorColumn,
    get_equalColumns, hzero, UInt8.xor_zero]

theorem rotWord_subWord (w : AesColumn) : rotWord (subWord w) = subWord (rotWord w) := by
  refine column_ext fun r => ?_
  rw [get_rotWord, get_subWord, get_subWord, get_rotWord]

theorem xorColumn_zero (w : AesColumn) : xorColumn w #v[0, 0, 0, 0] = w := by
  have hzero : ∀ r : Fin 4, (#v[0, 0, 0, 0] : AesColumn).get r = 0 := by decide
  refine column_ext fun r => ?_
  rw [get_xorColumn, hzero, UInt8.xor_zero]

theorem Documented.sub_eq (h : p.Documented) (w : AesColumn) : p.sub w = subWord w := by
  cases p with
  | x86 aesenc aesenclast aesdec aesdeclast aesimc aeskeygenassist =>
    obtain ⟨-, -, -, -, -, hassist⟩ := h
    simp only [sub, hassist]
    rfl
  | arm aese aesmc aesd aesimc =>
    obtain ⟨haese, -⟩ := h
    simp only [sub, zeros_eq_bytesOf, haese, stateOf_bytesOf]
    exact shiftRows_equalColumns w (row 0)

theorem Documented.subRot_eq (h : p.Documented) (w : AesColumn) :
    p.subRot w = subWord (rotWord w) := by
  cases p with
  | x86 aesenc aesenclast aesdec aesdeclast aesimc aeskeygenassist =>
    obtain ⟨-, -, -, -, -, hassist⟩ := h
    simp only [subRot, hassist]
    exact (xorColumn_zero _).trans (rotWord_subWord w)
  | arm aese aesmc aesd aesimc => exact h.sub_eq (rotWord w)

theorem Documented.imc_eq (h : p.Documented) (s : AesState) :
    p.imc (bytesOf s) = bytesOf (unmixColumns s) := by
  cases p with
  | x86 aesenc aesenclast aesdec aesdeclast aesimc aeskeygenassist => exact h.2.2.2.2.1 s
  | arm aese aesmc aesd aesimc => exact h.2.2.2 s

section KeyData

variable {key : Bytes} (hkey : key.length = 16 ∨ key.length = 24 ∨ key.length = 32)
include hkey

theorem Documented.roundKey_encrypt (h : p.Documented) {j : ℕ} (hj : j ≤ aesRounds key) :
    AesHardware.roundKey (p.expandKey .encrypt key) j = bytesOf (aesRoundKey key j) := by
  have hrounds := aesRounds_le hkey
  rw [expandKey, aesGenKeyEncrypt, roundKey_storeKeyData _ (by omega),
    aesGenKeyEncryptInternal_eq h.subRot_eq h.sub_eq hkey hj]

theorem Documented.roundKey_decrypt (h : p.Documented) {j : ℕ} (hj : j ≤ aesRounds key) :
    AesHardware.roundKey (p.expandKey .decrypt key) j =
      bytesOf (aesCipher.decryptKeys (aesRoundKey key) (aesRounds key) j) := by
  have hrounds := aesRounds_le hkey
  rw [expandKey, aesGenKeyDecrypt, roundKey_storeKeyData _ (by omega),
    aesGenKeyEncryptInternal_eq h.subRot_eq h.sub_eq hkey hj, (numberOfRounds_eq hkey).1,
    h.imc_eq, stateOf_bytesOf]
  rfl

end KeyData

/-- **A processor with AES instructions has AES**: of either kind, on the contexts that
`RijndaelInit` gets ready, for the three key lengths, every key and every block. -/
theorem platform_realises (h : p.Documented) (P : Primitives) :
    p.platform.Realises P.withAes where
  encryptBlock rijndael mode key keyLen initVector b hkey hb := by
    obtain ⟨s, rfl⟩ := exists_bytesOf hb
    have hlen := length_of_keyLength hkey
    have htake : key.take keyLen.bytes = key := List.take_of_length_le (Nat.le_of_eq hkey)
    have hblock := h.encryptBlock (fun j hj => h.roundKey_encrypt hlen hj) s
    refine Eq.trans ?_ (hblock.trans (congrArg (fun s => bytesOf (aesCipher.encrypt _ _ s))
      (stateOf_bytesOf s).symm))
    simp only [AesPlatform.encryptBlock, platform, rijndaelInit, htake, aesRounds_of_length hkey]
  decryptBlock rijndael mode key keyLen initVector b hkey hb := by
    obtain ⟨s, rfl⟩ := exists_bytesOf hb
    have hlen := length_of_keyLength hkey
    have htake : key.take keyLen.bytes = key := List.take_of_length_le (Nat.le_of_eq hkey)
    have hblock := h.decryptBlock two_le_aesRounds (fun j hj => h.roundKey_decrypt hlen hj) s
    refine Eq.trans ?_ (hblock.trans (congrArg (fun s => bytesOf (aesCipher.decrypt _ _ s))
      (stateOf_bytesOf s).symm))
    simp only [AesPlatform.decryptBlock, platform, rijndaelInit, htake, aesRounds_of_length hkey]

/-- The instructions of x86, from their description. -/
def describedX86 : AesProcessor :=
  x86 (fun s k => bytesOf (xorState (mixColumns (shiftRows (subBytes (stateOf s)))) (stateOf k)))
    (fun s k => bytesOf (xorState (shiftRows (subBytes (stateOf s))) (stateOf k)))
    (fun s k =>
      bytesOf (xorState (unmixColumns (unsubBytes (unshiftRows (stateOf s)))) (stateOf k)))
    (fun s k => bytesOf (xorState (unsubBytes (unshiftRows (stateOf s))) (stateOf k)))
    (fun s => bytesOf (unmixColumns (stateOf s)))
    (fun x rcon =>
      let lane (t : Fin 4) := x.get t
      #v[subWord (lane (row 1)), xorColumn (rotWord (subWord (lane (row 1)))) #v[rcon, 0, 0, 0],
        subWord (lane (row 3)), xorColumn (rotWord (subWord (lane (row 3)))) #v[rcon, 0, 0, 0]])

/-- The instructions of ARM, from their description. -/
def describedArm : AesProcessor :=
  arm (fun s k => bytesOf (shiftRows (subBytes (xorState (stateOf s) (stateOf k)))))
    (fun s => bytesOf (mixColumns (stateOf s)))
    (fun s k => bytesOf (unsubBytes (unshiftRows (xorState (stateOf s) (stateOf k)))))
    (fun s => bytesOf (unmixColumns (stateOf s)))

theorem documented_describedX86 : describedX86.Documented := by
  refine ⟨fun s k => ?_, fun s k => ?_, fun s k => ?_, fun s k => ?_, fun s => ?_, fun _ _ => rfl⟩
  all_goals simp only [stateOf_bytesOf]

theorem documented_describedArm : describedArm.Documented := by
  refine ⟨fun s k => ?_, fun s => ?_, fun s k => ?_, fun s => ?_⟩
  all_goals simp only [stateOf_bytesOf]

/-- Both kinds of processor. -/
theorem described_realise :
    describedX86.platform.Realises nullPrimitives.withAes ∧
      describedArm.platform.Realises nullPrimitives.withAes :=
  ⟨platform_realises documented_describedX86 _, platform_realises documented_describedArm _⟩

end AesProcessor

end MultipleCiphers
