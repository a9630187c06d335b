import MultipleCiphers.Algorithms.Aes
import MultipleCiphers.Ciphers.PageInPlace
import Mathlib.Logic.Function.Basic

/-!
# The key schedule of AES in software

`RijndaelKeySched` makes the round keys by passes over a copy of the key, as many words at a time as
the key has. A pass changes the words in place, from the first to the last, and two nested loops
copy them behind the round keys that are there already. The last pass makes more words than are
needed.
`RijndaelKeyEncToDec` replaces the words of the inner round keys, again in place.

The bytes of all round keys are `keyBytes` of a sequence of words, and every step of both functions
stores one word in it.

## Main results

* `keyPass_spec` — a pass makes the next words of the key expansion, for the three key lengths.
* `rijndaelKeySched_eq` — all the words.
* `softwareAes_realises` — the software is AES, on contexts that `RijndaelInit` gets ready.
-/

namespace MultipleCiphers

open Bytes

/-! ### The routines -/

/-- `tempKey[j] ^= tempKey[j - 1]`. -/
def xorPrevious (tempKey : List AesColumn) (j : ℕ) : List AesColumn :=
  tempKey.set j (xorColumn (tempKey.getD j zeroColumn) (tempKey.getD (j - 1) zeroColumn))

/-- The body of the second loop of `RijndaelKeySched` up to the copy: the next words of the key
schedule, `rconpointer` being `p`. -/
def keyPass (nk : ℕ) (tempKey : List AesColumn) (p : ℕ) : List AesColumn :=
  let sub (w : AesColumn) (i : Fin 4) : UInt8 := Rijndael.S.getD (w.get i).toNat 0
  let last := tempKey.getD (nk - 1) zeroColumn
  let first := xorColumn (tempKey.getD 0 zeroColumn)
    #v[sub last (row 1), sub last (row 2), sub last (row 3), sub last (row 0)]
  let first := xorColumn first #v[Rijndael.rcon.getD p 0, 0, 0, 0]
  let tempKey := tempKey.set 0 first
  if nk ≠ 8 then (List.range' 1 (nk - 1)).foldl xorPrevious tempKey
  else
    let tempKey := (List.range' 1 3).foldl xorPrevious tempKey
    let middle := tempKey.getD 3 zeroColumn
    let tempKey := tempKey.set 4 (xorColumn (tempKey.getD 4 zeroColumn)
      #v[sub middle (row 0), sub middle (row 1), sub middle (row 2), sub middle (row 3)])
    (List.range' 5 3).foldl xorPrevious tempKey

/-- The two nested loops that copy `tempKey` into the round keys, word by word: the round keys, and
`r` and `t`. -/
def keyCopy (rounds : ℕ) : List AesColumn → Bytes × ℕ × ℕ → Bytes × ℕ × ℕ
  | [], s => s
  | w :: ws, (expandedKey, r, t) =>
    if r ≤ rounds then
      let expandedKey := splice expandedKey (16 * r + 4 * t) w.toList
      keyCopy rounds ws (if t + 1 = 4 then (expandedKey, r + 1, 0) else (expandedKey, r, t + 1))
    else (expandedKey, r, t)

/-- The second loop of `RijndaelKeySched`, from pass `p` on. -/
def keyLoop (rounds nk : ℕ) : ℕ → ℕ → List AesColumn → Bytes × ℕ × ℕ → Bytes × ℕ × ℕ
  | 0, _, _, s => s
  | fuel + 1, p, tempKey, s =>
    if s.2.1 ≤ rounds then
      let tempKey := keyPass nk tempKey p
      keyLoop rounds nk fuel (p + 1) tempKey (keyCopy rounds tempKey s)
    else s

/-- `RijndaelKeySched`, on the bytes of a key. A pass copies at least one word, so there are not
more passes than words. What the memory behind the last round key holds is left open by the source;
it is zero here. -/
def rijndaelKeySched (rounds : ℕ) (key : Bytes) : Bytes :=
  let nk := rounds - 6
  let tempKey := (List.range nk).map fun j => columnAt key (4 * j)
  let s := keyCopy rounds tempKey (zeros 240, 0, 0)
  (keyLoop rounds nk (4 * (rounds + 1)) 0 tempKey s).1

/-- A word of `RijndaelKeyEncToDec`. -/
def convertWord (w : AesColumn) : AesColumn :=
  let b (i : Fin 4) := w.get i
  xorColumn (xorColumn (xorColumn (lookup Rijndael.U1 (b (row 0))) (lookup Rijndael.U2 (b (row 1))))
    (lookup Rijndael.U3 (b (row 2)))) (lookup Rijndael.U4 (b (row 3)))

/-- `RijndaelKeyEncToDec`. -/
def rijndaelKeyEncToDec (rounds : ℕ) (expandedKey : Bytes) : Bytes :=
  (List.range (rounds - 1)).foldl
    (fun expandedKey i => (List.range 4).foldl
      (fun expandedKey t =>
        let w := 16 * (i + 1) + 4 * t
        splice expandedKey w (convertWord (columnAt expandedKey w)).toList) expandedKey)
    expandedKey

/-- The key schedule of `RijndaelInit` without hardware. -/
def softwareExpandKey (dir : RijndaelDirection) (key : Bytes) : Bytes :=
  let rounds := key.length / 4 + 6
  let expandedKey := rijndaelKeySched rounds key
  match dir with
  | .encrypt => expandedKey
  | .decrypt => rijndaelKeyEncToDec rounds expandedKey

/-- A processor without AES instructions. -/
def softwareAes : AesPlatform where
  rijndaelEncryptBlock := rijndaelEncryptBlock
  rijndaelDecryptBlock := rijndaelDecryptBlock
  expandKey := softwareExpandKey
  hardware := none

/-! ### The words of the key expansion -/

/-- What a word is combined with: the word in front of it, possibly changed. -/
def aesTemp (nk i : ℕ) (temp : AesColumn) : AesColumn :=
  if i % nk = 0 then xorColumn (subWord (rotWord temp)) (aesRcon (i / nk))
  else if 6 < nk ∧ i % nk = 4 then subWord temp
  else temp

/-- A sequence of words that goes on as the key expansion does. -/
def IsExpansion (nk : ℕ) (W : ℕ → AesColumn) : Prop :=
  ∀ t, nk ≤ t → W t = xorColumn (W (t - nk)) (aesTemp nk t (W (t - 1)))

/-- Word `t` of the key expansion, for a key of `nk` words. -/
def aesWord (key : Bytes) (nk t : ℕ) : AesColumn := (aesWords key nk (t + 1)).getD t zeroColumn

section Words

variable {key : Bytes} {nk : ℕ}

theorem length_aesWords (n : ℕ) : (aesWords key nk n).length = nk + n := by
  rw [aesWords, length_grow, List.length_map, List.length_range]

theorem getD_aesWords {t n : ℕ} (ht : t < nk + n) :
    (aesWords key nk n).getD t zeroColumn = aesWord key nk t := by
  have hlen : ((List.range nk).map fun i => columnAt key (4 * i)).length = nk := by
    rw [List.length_map, List.length_range]
  have hleft := getElem?_grow_add (f := aesNextWord nk) (n := n) (m := t + 1) (hlen.symm ▸ ht)
  have hright := getElem?_grow_add (f := aesNextWord nk) (n := t + 1) (m := n) (t := t)
    (w := (List.range nk).map fun i => columnAt key (4 * i)) (by omega)
  rw [Nat.add_comm] at hright
  rw [aesWord, List.getD_eq_getElem?_getD, List.getD_eq_getElem?_getD]
  exact congrArg (Option.getD · zeroColumn) (hleft.symm.trans hright)

/-- The first words are those of the key. -/
theorem aesWord_of_lt {j : ℕ} (hj : j < nk) : aesWord key nk j = columnAt key (4 * j) := by
  have hlen : j < ((List.range nk).map fun i => columnAt key (4 * i)).length := by
    rwa [List.length_map, List.length_range]
  rw [aesWord, aesWords, List.getD_eq_getElem?_getD, getElem?_grow_of_lt hlen, List.getElem?_map,
    List.getElem?_range hj]
  rfl

theorem isExpansion_aesWord (hnk : 0 < nk) : IsExpansion nk (aesWord key nk) := by
  intro t hle
  have hword : (aesWords key nk (t + 1))[t]? =
      some (aesNextWord nk ((aesWords key nk (t + 1)).take t)) :=
    getElem?_grow_of_le (by rwa [List.length_map, List.length_range])
      (by rw [List.length_map, List.length_range]; omega)
  have hlen : ((aesWords key nk (t + 1)).take t).length = t := by
    rw [List.length_take, length_aesWords]
    omega
  have hread {i : ℕ} (hi : i < t) :
      ((aesWords key nk (t + 1)).take t).getD i zeroColumn = aesWord key nk i := by
    rw [List.getD_eq_getElem?_getD, List.getElem?_take_of_lt hi, ← List.getD_eq_getElem?_getD,
      getD_aesWords (by omega)]
  rw [aesWord, List.getD_eq_getElem?_getD, hword, Option.getD_some, aesNextWord, hlen,
    hread (by omega), hread (by omega)]
  rfl

end Words

/-! ### A pass -/

section Passes

variable {W : ℕ → AesColumn} {nk p k : ℕ} {tempKey : List AesColumn}

/-- `tempKey` in pass `p`: its first `k` words are new. -/
structure Passed (W : ℕ → AesColumn) (nk p k : ℕ) (tempKey : List AesColumn) : Prop where
  length : tempKey.length = nk
  word : ∀ j < nk, tempKey.getD j zeroColumn = W (nk * (if j < k then p + 1 else p) + j)

namespace Passed

theorem set (h : Passed W nk p k tempKey) (hk : k < nk) {w : AesColumn}
    (hw : w = W (nk * (p + 1) + k)) : Passed W nk p (k + 1) (tempKey.set k w) where
  length := by rw [List.length_set, h.length]
  word j hj := by
    rcases eq_or_ne k j with rfl | hne
    · rw [List.getD_eq_getElem?_getD, List.getElem?_set_self (by rw [h.length]; exact hk),
        if_pos (Nat.lt_succ_self k), hw]
      rfl
    · have hiff : j < k ↔ j < k + 1 := by omega
      rw [List.getD_eq_getElem?_getD, List.getElem?_set_ne hne, ← List.getD_eq_getElem?_getD,
        h.word j hj]
      simp only [hiff]

/-- A new word, and one that is still from the pass before. -/
theorem new (h : Passed W nk p k tempKey) {j : ℕ} (hj : j < k) (hnk : j < nk) :
    tempKey.getD j zeroColumn = W (nk * (p + 1) + j) := by
  rw [h.word j hnk, if_pos hj]

theorem old (h : Passed W nk p k tempKey) {j : ℕ} (hj : k ≤ j) (hnk : j < nk) :
    tempKey.getD j zeroColumn = W (nk * p + j) := by
  rw [h.word j hnk, if_neg (Nat.not_lt.mpr hj)]

/-- The end of a pass is the beginning of the next one. -/
theorem next (h : Passed W nk p nk tempKey) : Passed W nk (p + 1) 0 tempKey where
  length := h.length
  word j hj := by rw [h.new hj hj, if_neg (Nat.not_lt_zero j)]

end Passed

/-- The word in front of a pass's word `k`, and the word of the pass before. -/
theorem IsExpansion.word (hW : IsExpansion nk W) (p k : ℕ) :
    W (nk * (p + 1) + k) =
      xorColumn (W (nk * p + k)) (aesTemp nk (nk * (p + 1) + k) (W (nk * (p + 1) + k - 1))) := by
  rw [hW _ (by rw [Nat.mul_succ]; omega), show nk * (p + 1) + k - nk = nk * p + k by
    rw [Nat.mul_succ]; omega]

theorem IsExpansion.first (hW : IsExpansion nk W) (hnk : 0 < nk) :
    W (nk * (p + 1)) = xorColumn (W (nk * p))
      (xorColumn (subWord (rotWord (W (nk * p + (nk - 1))))) (aesRcon (p + 1))) := by
  have hword := hW.word p 0
  rwa [Nat.add_zero, Nat.add_zero, aesTemp, if_pos (Nat.mul_mod_right nk (p + 1)),
    Nat.mul_div_cancel_left _ hnk, show nk * (p + 1) - 1 = nk * p + (nk - 1) by
      rw [Nat.mul_succ]; omega] at hword

theorem IsExpansion.inner (hW : IsExpansion nk W) (hk : k < nk) (hpos : 0 < k) :
    W (nk * (p + 1) + k) = xorColumn (W (nk * p + k))
      (if 6 < nk ∧ k = 4 then subWord (W (nk * (p + 1) + (k - 1)))
        else W (nk * (p + 1) + (k - 1))) := by
  have hmod : (nk * (p + 1) + k) % nk = k := by
    rw [Nat.mul_add_mod, Nat.mod_eq_of_lt hk]
  rw [hW.word, aesTemp, hmod, if_neg (by omega), Nat.add_sub_assoc hpos]

theorem Passed.xorPrevious (h : Passed W nk p k tempKey) (hW : IsExpansion nk W) (hk : k < nk)
    (hpos : 0 < k) (hplain : ¬(6 < nk ∧ k = 4)) :
    Passed W nk p (k + 1) (xorPrevious tempKey k) := by
  refine h.set hk ?_
  rw [h.old (Nat.le_refl k) hk, h.new (show k - 1 < k by omega) (by omega), hW.inner hk hpos,
    if_neg hplain]

/-- The loops of a pass. -/
theorem Passed.loop (hW : IsExpansion nk W) {m : ℕ} (h : Passed W nk p k tempKey) (hpos : 0 < k)
    (hle : k + m ≤ nk) (hplain : ∀ i, k ≤ i → i < k + m → ¬(6 < nk ∧ i = 4)) :
    Passed W nk p (k + m) ((List.range' k m).foldl MultipleCiphers.xorPrevious tempKey) := by
  induction m generalizing k tempKey with
  | zero => exact h
  | succ m ih =>
    rw [List.range'_succ, List.foldl_cons, show k + (m + 1) = k + 1 + m by omega]
    exact ih (h.xorPrevious hW (by omega) hpos (hplain k (Nat.le_refl k) (by omega)))
      (Nat.succ_pos k) (by omega) fun i hi hlt => hplain i (by omega) (by omega)

theorem rcon_eq : ∀ p < 10, Rijndael.rcon.getD p 0 = xtime^[p] 1 := by decide

@[simp] theorem get_subWord (w : AesColumn) (r : Fin 4) :
    (subWord w).get r = aesSBox (w.get r) := by
  simp only [subWord, get_map]

@[simp] theorem get_rotWord (w : AesColumn) (r : Fin 4) :
    (rotWord w).get r = w.get (r + row 1) := by
  simp only [rotWord, get_ofFn]

theorem subRot_eq (w : AesColumn) :
    #v[aesSBox (w.get (row 1)), aesSBox (w.get (row 2)), aesSBox (w.get (row 3)),
        aesSBox (w.get (row 0))] =
      subWord (rotWord w) := by
  refine column_ext fun r => ?_
  rw [get_subWord, get_rotWord]
  fin_cases r <;> rfl

theorem sub_eq (w : AesColumn) :
    #v[aesSBox (w.get (row 0)), aesSBox (w.get (row 1)), aesSBox (w.get (row 2)),
        aesSBox (w.get (row 3))] = subWord w := by
  refine column_ext fun r => ?_
  rw [get_subWord]
  fin_cases r <;> rfl

theorem xorColumn_assoc (u v w : AesColumn) :
    xorColumn (xorColumn u v) w = xorColumn u (xorColumn v w) := by
  refine column_ext fun r => ?_
  simp only [get_xorColumn, UInt8.xor_assoc]

/-- **A pass** makes the next `nk` words. -/
theorem keyPass_spec (hW : IsExpansion nk W) (hnk : nk = 4 ∨ nk = 6 ∨ nk = 8) (hp : p < 10)
    (h : Passed W nk p 0 tempKey) : Passed W nk (p + 1) 0 (keyPass nk tempKey p) := by
  have hfirst : Passed W nk p 1 (tempKey.set 0 (xorColumn (xorColumn (tempKey.getD 0 zeroColumn)
      (subWord (rotWord (tempKey.getD (nk - 1) zeroColumn)))) (aesRcon (p + 1)))) := by
    refine h.set (by omega) ?_
    rw [h.old (Nat.zero_le 0) (by omega), h.old (Nat.zero_le _) (by omega), xorColumn_assoc]
    exact (hW.first (by omega)).symm
  have hrcon : aesRcon (p + 1) = #v[Rijndael.rcon.getD p 0, 0, 0, 0] := by
    rw [rcon_eq p hp, aesRcon, Nat.add_sub_cancel]
  rw [hrcon, ← subRot_eq] at hfirst
  refine Passed.next ?_
  by_cases hlong : nk = 8
  · subst hlong
    have hthree := hfirst.loop hW (m := 3) Nat.one_pos (by omega) (by omega)
    have hmiddle := hthree.set (w := xorColumn _ _) (by omega) (by
      rw [hW.inner (by omega) (by omega), if_pos ⟨by omega, rfl⟩,
        ← hthree.old (Nat.le_refl 4) (by omega), ← hthree.new (show 3 < 4 by omega) (by omega),
        ← sub_eq])
    exact hmiddle.loop hW (m := 3) (by omega) (by omega) (by omega)
  · have hall := hfirst.loop hW (m := nk - 1) Nat.one_pos (by omega) (by omega)
    rw [show 1 + (nk - 1) = nk by omega] at hall
    rw [keyPass, if_pos hlong]
    exact hall

end Passes

/-! ### The bytes of the round keys -/

/-- The bytes of the round keys, word by word. -/
def keyBytes (V : ℕ → AesColumn) : Bytes :=
  let b (j : ℕ) (r : Fin 4) := (V j).get r
  (List.range 240).map fun i => b (i / 4) (row i)

@[simp] theorem length_keyBytes (V : ℕ → AesColumn) : (keyBytes V).length = 240 := by
  simp only [keyBytes, List.length_map, List.length_range]

theorem getElem?_keyBytes (V : ℕ → AesColumn) {i : ℕ} (hi : i < 240) :
    (keyBytes V)[i]? = some ((V (i / 4)).get (row i)) := by
  rw [keyBytes, List.getElem?_map, List.getElem?_range hi]
  rfl

/-- Reading a word. -/
theorem columnAt_keyBytes (V : ℕ → AesColumn) {j : ℕ} (hj : j < 60) :
    columnAt (keyBytes V) (4 * j) = V j := by
  refine column_ext fun r => ?_
  have hword : (4 * j + (r : ℕ)) / 4 = j := by omega
  rw [get_columnAt, keyBytes, getD_map_range _ _ (by omega), hword, row_add]

/-- Storing a word. -/
theorem splice_keyBytes (V : ℕ → AesColumn) {j : ℕ} (hj : j < 60) (w : AesColumn) :
    splice (keyBytes V) (4 * j) w.toList = keyBytes (Function.update V j w) := by
  have hle : 4 * j + w.toList.length ≤ (keyBytes V).length := by
    rw [Vector.length_toList, length_keyBytes]
    omega
  refine List.ext_getElem? fun i => ?_
  rw [getElem?_splice hle, Vector.length_toList]
  by_cases hi : i < 240
  · rw [getElem?_keyBytes _ hi, getElem?_keyBytes _ hi]
    by_cases hword : i / 4 = j
    · have hrow : (row i : ℕ) = i - 4 * j := by
        simp only [row]
        omega
      rw [if_neg (by omega), if_pos (by omega), hword, Function.update_self]
      rw [List.getElem?_eq_getElem (by rw [Vector.length_toList]; omega), Vector.getElem_toList,
        get_eq_getElem w (by omega) hrow]
    · rw [Function.update_of_ne hword]
      split_ifs with hlow hhigh
      · rfl
      · omega
      · rfl
  · rw [if_neg (by omega), if_neg (by omega),
      List.getElem?_eq_none (by rw [length_keyBytes]; omega),
      List.getElem?_eq_none (by rw [length_keyBytes]; omega)]

theorem keyBytes_zero : keyBytes (fun _ => zeroColumn) = zeros 240 := by decide +kernel

/-- The first `m` words are there. -/
def firstWords (W : ℕ → AesColumn) (m : ℕ) : ℕ → AesColumn :=
  fun j => if j < m then W j else zeroColumn

theorem update_firstWords (W : ℕ → AesColumn) (m : ℕ) :
    Function.update (firstWords W m) m (W m) = firstWords W (m + 1) := by
  funext j
  by_cases hj : j = m
  · subst hj
    rw [Function.update_self, firstWords, if_pos (Nat.lt_succ_self j)]
  · have hiff : j < m ↔ j < m + 1 := by omega
    rw [Function.update_of_ne hj, firstWords, firstWords]
    simp only [hiff]

/-! ### The copies -/

section Copies

variable {W : ℕ → AesColumn} {nk p m rounds : ℕ} {tempKey : List AesColumn} {s : Bytes × ℕ × ℕ}

/-- What has been copied after `m` words, and where the next one goes. -/
structure Copied (W : ℕ → AesColumn) (m : ℕ) (s : Bytes × ℕ × ℕ) : Prop where
  bytes : s.1 = keyBytes (firstWords W m)
  round : s.2.1 = m / 4
  column : s.2.2 = m % 4

/-- The copy of words that continue the round keys stops at the last one. -/
theorem Copied.keyCopy (hrounds : rounds ≤ 14) {ws : List AesColumn} (h : Copied W m s)
    (hm : m ≤ 4 * (rounds + 1)) (hws : ∀ j < ws.length, ws.getD j zeroColumn = W (m + j)) :
    Copied W (min (m + ws.length) (4 * (rounds + 1))) (keyCopy rounds ws s) := by
  induction ws generalizing m s with
  | nil => rwa [List.length_nil, Nat.add_zero, Nat.min_eq_left hm]
  | cons w ws ih =>
    obtain ⟨expandedKey, r, t⟩ := s
    obtain ⟨rfl, rfl, rfl⟩ : expandedKey = _ ∧ r = _ ∧ t = _ := ⟨h.bytes, h.round, h.column⟩
    have hw : w = W m := hws 0 (by rw [List.length_cons]; omega)
    rw [MultipleCiphers.keyCopy]
    by_cases hr : m / 4 ≤ rounds
    · have hcopied : splice (keyBytes (firstWords W m)) (16 * (m / 4) + 4 * (m % 4)) w.toList =
          keyBytes (firstWords W (m + 1)) := by
        rw [show 16 * (m / 4) + 4 * (m % 4) = 4 * m by omega, splice_keyBytes _ (by omega), hw,
          update_firstWords]
      rw [if_pos hr, hcopied, List.length_cons,
        show m + (ws.length + 1) = m + 1 + ws.length by omega]
      refine ih ?_ (by omega) fun j hj => ?_
      · split_ifs with ht
        · exact ⟨rfl, show m / 4 + 1 = (m + 1) / 4 by omega, show 0 = (m + 1) % 4 by omega⟩
        · exact ⟨rfl, show m / 4 = (m + 1) / 4 by omega, show m % 4 + 1 = (m + 1) % 4 by omega⟩
      · rw [show m + 1 + j = m + (j + 1) by omega, ← hws (j + 1) (by rw [List.length_cons]; omega)]
        rfl
    · rw [if_neg hr, Nat.min_eq_right (by rw [List.length_cons]; omega),
        show 4 * (rounds + 1) = m by omega]
      exact ⟨rfl, rfl, rfl⟩

theorem Copied.round_le (h : Copied W (min m (4 * (rounds + 1))) s) :
    s.2.1 ≤ rounds ↔ m < 4 * (rounds + 1) := by
  rw [h.round]
  omega

/-- **All passes.** The loop ends with all words of the round keys, and no others. -/
theorem keyLoop_spec (hW : IsExpansion nk W) (hnk : nk = 4 ∨ nk = 6 ∨ nk = 8)
    (hrounds : rounds = nk + 6) {fuel : ℕ} (h : Passed W nk p 0 tempKey)
    (hs : Copied W (min (nk * (p + 1)) (4 * (rounds + 1))) s)
    (hfuel : 4 * (rounds + 1) ≤ nk * (p + 1) + fuel) :
    (keyLoop rounds nk fuel p tempKey s).1 = keyBytes (firstWords W (4 * (rounds + 1))) := by
  induction fuel generalizing p tempKey s with
  | zero =>
    rw [Nat.min_eq_right (by omega)] at hs
    exact hs.bytes
  | succ fuel ih =>
    rw [keyLoop]
    by_cases hr : s.2.1 ≤ rounds
    · have hlt := hs.round_le.mp hr
      have hp : p < 10 := by
        rcases hnk with rfl | rfl | rfl <;> omega
      have hpass := keyPass_spec hW hnk hp h
      have hwords : ∀ j < (keyPass nk tempKey p).length,
          (keyPass nk tempKey p).getD j zeroColumn = W (nk * (p + 1) + j) := fun j hj =>
        hpass.old (Nat.zero_le j) (by rwa [hpass.length] at hj)
      rw [Nat.min_eq_left (Nat.le_of_lt hlt)] at hs
      have hcopy := hs.keyCopy (by omega) (Nat.le_of_lt hlt) hwords
      rw [hpass.length, ← Nat.mul_succ] at hcopy
      rw [if_pos hr]
      refine ih hpass hcopy ?_
      rw [Nat.mul_succ nk (p + 1)]
      omega
    · have hge : 4 * (rounds + 1) ≤ nk * (p + 1) := Nat.not_lt.mp (mt hs.round_le.mpr hr)
      rw [Nat.min_eq_right hge] at hs
      rw [if_neg hr]
      exact hs.bytes

end Copies

/-- **`RijndaelKeySched`** makes the words of the key expansion. -/
theorem rijndaelKeySched_eq {nk rounds : ℕ} (hnk : nk = 4 ∨ nk = 6 ∨ nk = 8)
    (hrounds : rounds = nk + 6) (key : Bytes) :
    rijndaelKeySched rounds key = keyBytes (firstWords (aesWord key nk) (4 * (rounds + 1))) := by
  have hW : IsExpansion nk (aesWord key nk) := isExpansion_aesWord (by omega)
  have hlen : ((List.range nk).map fun j => columnAt key (4 * j)).length = nk := by
    rw [List.length_map, List.length_range]
  have hread {j : ℕ} (hj : j < nk) :
      ((List.range nk).map fun j => columnAt key (4 * j)).getD j zeroColumn = aesWord key nk j := by
    rw [getD_map_range _ _ hj, aesWord_of_lt hj]
  have hstart :
      Passed (aesWord key nk) nk 0 0 ((List.range nk).map fun j => columnAt key (4 * j)) :=
    ⟨hlen, fun j hj => by rw [hread hj, if_neg (Nat.not_lt_zero j), Nat.mul_zero, Nat.zero_add]⟩
  have hzero : Copied (aesWord key nk) 0 (zeros 240, 0, 0) := ⟨keyBytes_zero.symm, rfl, rfl⟩
  have hcopy := hzero.keyCopy (show rounds ≤ 14 by omega) (Nat.zero_le _) (fun j hj => by
    rw [hlen] at hj
    rw [hread hj, Nat.zero_add])
  rw [hlen, Nat.zero_add] at hcopy
  rw [rijndaelKeySched, show rounds - 6 = nk by omega]
  refine keyLoop_spec hW hnk hrounds hstart ?_ (by omega)
  rwa [Nat.zero_add, Nat.mul_one]

/-! ### The conversion -/

/-- A word of the conversion is a column of `InvMixColumns`. -/
theorem convertWord_eq (w : AesColumn) : convertWord w = unmixColumn w := by
  rw [unmixColumn_eq rfl rfl rfl rfl]
  simp only [convertWord, lookup_U]

/-- The words of the round keys from the second one on, up to word `k`, are converted. -/
def convertedWords (V : ℕ → AesColumn) (k : ℕ) : ℕ → AesColumn :=
  fun j => if 4 ≤ j ∧ j < k then unmixColumn (V j) else V j

theorem convertedWords_four (V : ℕ → AesColumn) : convertedWords V 4 = V := by
  funext j
  rw [convertedWords, if_neg (by omega)]

/-- The step of the conversion. -/
theorem convert_keyBytes (V : ℕ → AesColumn) {k : ℕ} (hle : 4 ≤ k) (hk : k < 60) :
    splice (keyBytes (convertedWords V k)) (4 * k)
        (convertWord (columnAt (keyBytes (convertedWords V k)) (4 * k))).toList =
      keyBytes (convertedWords V (k + 1)) := by
  rw [columnAt_keyBytes _ hk, splice_keyBytes _ hk, convertWord_eq]
  congr 1
  funext j
  by_cases hj : j = k
  · subst hj
    rw [Function.update_self, convertedWords, convertedWords, if_neg (by omega), if_pos (by omega)]
  · have hiff : j < k ↔ j < k + 1 := by omega
    rw [Function.update_of_ne hj, convertedWords, convertedWords]
    simp only [hiff]

/-- The four words of a round key. -/
theorem convert_round (V : ℕ → AesColumn) {r : ℕ} (hr : r < 14) {n : ℕ} (hn : n ≤ 4) :
    (List.range n).foldl (fun expandedKey t =>
        splice expandedKey (16 * (r + 1) + 4 * t)
          (convertWord (columnAt expandedKey (16 * (r + 1) + 4 * t))).toList)
        (keyBytes (convertedWords V (4 * (r + 1)))) =
      keyBytes (convertedWords V (4 * (r + 1) + n)) := by
  induction n with
  | zero => rfl
  | succ n ih =>
    rw [foldl_range_succ, ih (by omega), show 16 * (r + 1) + 4 * n = 4 * (4 * (r + 1) + n) by omega,
      convert_keyBytes V (by omega) (by omega), Nat.add_assoc]

/-- **`RijndaelKeyEncToDec`** converts the words of the inner round keys. -/
theorem rijndaelKeyEncToDec_eq (V : ℕ → AesColumn) {rounds : ℕ} (hpos : 1 ≤ rounds)
    (hrounds : rounds ≤ 14) :
    rijndaelKeyEncToDec rounds (keyBytes V) = keyBytes (convertedWords V (4 * rounds)) := by
  have hloop : ∀ n ≤ 13, (List.range n).foldl (fun expandedKey i => (List.range 4).foldl
      (fun expandedKey t =>
        let w := 16 * (i + 1) + 4 * t
        splice expandedKey w (convertWord (columnAt expandedKey w)).toList) expandedKey)
      (keyBytes V) = keyBytes (convertedWords V (4 * (n + 1))) := by
    intro n hn
    induction n with
    | zero => rw [Nat.zero_add, Nat.mul_one, convertedWords_four]; rfl
    | succ n ih =>
      rw [foldl_range_succ, ih (by omega)]
      exact convert_round V (by omega) (Nat.le_refl 4)
  rw [rijndaelKeyEncToDec, hloop _ (by omega), show rounds - 1 + 1 = rounds by omega]

/-! ### The block cipher -/

theorem get_roundKeyAt (V : ℕ → AesColumn) {r : ℕ} (hr : r < 15) (t : Fin 4) :
    (roundKeyAt (keyBytes V) r).get t = V (4 * r + t) := by
  simp only [roundKeyAt, get_ofFn]
  rw [show 16 * r + 4 * (t : ℕ) = 4 * (4 * r + t) by omega, columnAt_keyBytes V (by omega)]

section Block

variable {key : Bytes} (hkey : key.length = 16 ∨ key.length = 24 ∨ key.length = 32)
include hkey

omit hkey in
theorem get_aesRoundKey {r : ℕ} (hr : r ≤ aesRounds key) (t : Fin 4) :
    (aesRoundKey key r).get t = aesWord key (key.length / 4) (4 * r + t) := by
  rw [aesRounds] at hr
  simp only [aesRoundKey, get_ofFn, aesKeyExpansion]
  exact getD_aesWords (by rw [aesRounds]; omega)

theorem aesRounds_le : aesRounds key ≤ 14 := by
  rw [aesRounds]
  omega

omit hkey in
theorem two_le_aesRounds : 2 ≤ aesRounds key := by
  rw [aesRounds]
  omega

theorem rijndaelKeySched_words : rijndaelKeySched (aesRounds key) key =
    keyBytes (firstWords (aesWord key (key.length / 4)) (4 * (aesRounds key + 1))) :=
  rijndaelKeySched_eq (by omega) rfl key

/-- The round keys of `RijndaelKeySched`. -/
theorem roundKeyAt_keySched {r : ℕ} (hr : r ≤ aesRounds key) :
    roundKeyAt (rijndaelKeySched (aesRounds key) key) r = aesRoundKey key r := by
  have hrounds := aesRounds_le hkey
  rw [rijndaelKeySched_words hkey]
  refine state_ext fun t => ?_
  rw [get_roundKeyAt _ (by omega), get_aesRoundKey hr, firstWords, if_pos (by omega)]

/-- The round keys of `RijndaelKeyEncToDec`. -/
theorem roundKeyAt_encToDec {r : ℕ} (hr : r ≤ aesRounds key) :
    roundKeyAt (rijndaelKeyEncToDec (aesRounds key) (rijndaelKeySched (aesRounds key) key)) r =
      aesCipher.decryptKeys (aesRoundKey key) (aesRounds key) r := by
  have hrounds := aesRounds_le hkey
  rw [rijndaelKeySched_words hkey,
    rijndaelKeyEncToDec_eq _ (Nat.le_of_succ_le two_le_aesRounds) hrounds]
  refine state_ext fun t => ?_
  rw [get_roundKeyAt _ (by omega), convertedWords, KeyAlternating.decryptKeys]
  by_cases hinner : 0 < r ∧ r < aesRounds key
  · rw [if_pos (by omega), if_pos hinner, firstWords, if_pos (by omega)]
    exact (congrArg unmixColumn (get_aesRoundKey hr t)).symm.trans
      (get_unmixColumns _ t).symm
  · rw [if_neg (by omega), if_neg hinner, firstWords, if_pos (by omega), get_aesRoundKey hr]

/-- A block, with the round keys of `RijndaelInit` for encryption. -/
theorem rijndaelEncryptBlock_eq {rijndael : Rijndael} (hrounds : rijndael.rounds = aesRounds key)
    (hexpanded : rijndael.expandedKey = softwareExpandKey .encrypt key) (b : Bytes) :
    rijndaelEncryptBlock rijndael b = aesEncryptBlock key b := by
  rw [rijndaelEncryptBlock_rounds (by rw [hrounds]; exact two_le_aesRounds), hrounds, hexpanded,
    aesEncryptBlock]
  exact congrArg bytesOf (KeyAlternating.encrypt_congr (fun r hr => roundKeyAt_keySched hkey hr) _)

/-- A block, with the round keys of `RijndaelInit` for decryption. -/
theorem rijndaelDecryptBlock_eq {rijndael : Rijndael} (hrounds : rijndael.rounds = aesRounds key)
    (hexpanded : rijndael.expandedKey = softwareExpandKey .decrypt key) (b : Bytes) :
    rijndaelDecryptBlock rijndael b = aesDecryptBlock key b := by
  rw [rijndaelDecryptBlock_rounds (by rw [hrounds]; exact two_le_aesRounds), hrounds, hexpanded,
    aesDecryptBlock]
  exact congrArg bytesOf (KeyAlternating.decrypt_congr (fun r hr => roundKeyAt_encToDec hkey hr) _)

end Block

/-! ### The platform -/

/-- Primitives whose block cipher is AES. -/
def Primitives.withAes (P : Primitives) : Primitives :=
  { P with
    aesEncrypt := aesEncryptBlock
    aesDecrypt := aesDecryptBlock
    length_aesEncrypt := fun key b _ => length_aesEncryptBlock key b
    length_aesDecrypt := fun key b _ => length_aesDecryptBlock key b
    aesDecrypt_aesEncrypt := fun key _ h => aesDecryptBlock_aesEncryptBlock key h }

theorem aesRounds_of_length {key : Bytes} {keyLen : RijndaelKeyLength}
    (hkey : key.length = keyLen.bytes) : keyLen.rounds = aesRounds key := by
  rw [aesRounds, hkey]
  cases keyLen <;> rfl

theorem length_of_keyLength {key : Bytes} {keyLen : RijndaelKeyLength}
    (hkey : key.length = keyLen.bytes) :
    key.length = 16 ∨ key.length = 24 ∨ key.length = 32 := by
  rw [hkey]
  cases keyLen with
  | key16Bytes => exact .inl rfl
  | key24Bytes => exact .inr (.inl rfl)
  | key32Bytes => exact .inr (.inr rfl)

/-- **The software is AES**: on the contexts that `RijndaelInit` gets ready, for the three key
lengths, every key and every block. -/
theorem softwareAes_realises (P : Primitives) : softwareAes.Realises P.withAes where
  encryptBlock rijndael mode key keyLen initVector b hkey _ := by
    refine rijndaelEncryptBlock_eq (length_of_keyLength hkey) (aesRounds_of_length hkey) ?_ b
    exact congrArg (softwareExpandKey .encrypt) (List.take_of_length_le (Nat.le_of_eq hkey))
  decryptBlock rijndael mode key keyLen initVector b hkey _ := by
    refine rijndaelDecryptBlock_eq (length_of_keyLength hkey) (aesRounds_of_length hkey) ?_ b
    exact congrArg (softwareExpandKey .decrypt) (List.take_of_length_le (Nat.le_of_eq hkey))

end MultipleCiphers
