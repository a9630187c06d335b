import MultipleCiphers.Vle.Model
import Mathlib.Data.List.TakeWhile

/-!
# The options of a key for value-level encryption

`sqlite3mc_vle_key` takes a text of options, `name=value,name=value,...`, as its fourth argument.
There is one option, `kdf_iter`. A small parser goes through the text, compares each name with a
comparison of limited length, and has a setter read the value as a 64-bit number and store it as an
`int`.

A name is compared up to *its own* length, so that every prefix of `kdf_iter` is taken for the
option, also the empty one. A value is cut off at a NUL byte and at 32 bits. Where the parser
fails, what it has stored by then remains, and the caller does not look at its result.

## The model

The option text is given by its bytes, and a place in it is a number. A setter gets the place and
the bytes of a value, and a target of any type. That the target is what an option is stored in is
one case; another is a list of all that has been stored and where it came from, which is what
"applied" means here.

## Main definitions

* `sqlite3Strnicmp`, `sqlite3DecOrHexToI64` — the comparison and the reader of numbers.
* `vleParseOptions` — the parser.
* `documentedOptions` — what the format says of an option text.

## Main results

* `vleParseOptions_eq` — the parser applies the options item by item.
* `documentedOptions_eq_iff` — for which texts that is what the format says.
-/

namespace MultipleCiphers

/-! ### Comparing and reading -/

/-- `sqlite3UpperToLower`. -/
def upperToLower (c : UInt8) : UInt8 := if 65 ≤ c ∧ c ≤ 90 then c + 32 else c

/-- `sqlite3_strnicmp(a, b, n)`. A C string is followed by a NUL byte. -/
def sqlite3Strnicmp : ℕ → Bytes → Bytes → ℤ
  | 0, _, _ => 0
  | n + 1, a, b =>
    if a.headD 0 ≠ 0 ∧ upperToLower (a.headD 0) = upperToLower (b.headD 0) then
      sqlite3Strnicmp n a.tail b.tail
    else (upperToLower (a.headD 0)).toNat - (upperToLower (b.headD 0)).toNat

/-- `sqlite3Isspace`. -/
def sqlite3Isspace (c : UInt8) : Bool := c = 32 ∨ (9 ≤ c ∧ c ≤ 13)

/-- A decimal digit. -/
def isDecDigit (c : UInt8) : Bool := 48 ≤ c ∧ c ≤ 57

/-- The loop of `compare2pow63`, up to the first difference. -/
def compareDigits : Bytes → Bytes → ℤ
  | a :: as, b :: bs => if a = b then compareDigits as bs else ((a.toNat : ℤ) - b.toNat) * 10
  | _, _ => 0

/-- `compare2pow63`: the digits of a number with 19 digits are compared with those of `2 ^ 63`. -/
def compare2pow63 (z : Bytes) : ℤ :=
  let c := compareDigits (z.take 18) (asciiBytes "922337203685477580")
  if c = 0 then ((z.getD 18 0).toNat : ℤ) - 56 else c

/-- `sqlite3Atoi64` on a text in UTF-8: the result code and the number. -/
def sqlite3Atoi64 (z : Bytes) : ℤ × ℤ :=
  let z := z.dropWhile sqlite3Isspace
  let neg : Bool := z.head? = some 45
  let start := if z.head? = some 45 ∨ z.head? = some 43 then z.tail else z
  let num := start.dropWhile (· = 48)
  let digits := num.takeWhile isDecDigit
  let u : ℕ := digits.foldl (fun u c => (u * 10 + (c.toNat - 48)) % 2 ^ 64) 0
  let limit : ℤ := if neg then -2 ^ 63 else 2 ^ 63 - 1
  let v : ℤ := if u > 2 ^ 63 - 1 then limit else if neg then -(u : ℤ) else u
  let rc : ℤ :=
    if digits = [] ∧ num.length = start.length then -1
    else if (num.drop digits.length).all sqlite3Isspace then 0
    else 1
  if digits.length < 19 then (rc, v)
  else
    let j := if digits.length > 19 then 1 else compare2pow63 digits
    if j < 0 then (rc, v)
    else if j > 0 then (2, limit)
    else (if neg then rc else 3, limit)

/-- `sqlite3DecOrHexToI64` on a C string: the result code and the number. -/
def sqlite3DecOrHexToI64 (z : Bytes) : ℤ × ℤ :=
  if z.head? = some 48 ∧ (z[1]? = some 120 ∨ z[1]? = some 88) then
    let num := (z.drop 2).dropWhile (· = 48)
    let digits := num.takeWhile sqlite3Isxdigit
    let u : ℕ := digits.foldl (fun u c => (u * 16 + (sqlite3HexToInt c).toNat) % 2 ^ 64) 0
    let rc : ℤ := if digits.length > 16 then 2 else if digits.length < num.length then 1 else 0
    (rc, if u < 2 ^ 63 then (u : ℤ) else (u : ℤ) - 2 ^ 64)
  else
    let n := (z.takeWhile fun c => (asciiBytes "+- \n\t0123456789").contains c).length
    sqlite3Atoi64 (z.take (n + 1))

/-- `(int) v`. -/
def asInt (v : ℤ) : ℤ := Int.bmod v (2 ^ 32)

/-! ### The parser -/

variable {τ : Type}

/-- `VleOptionSetter`: the place and the bytes of the value, and the target. -/
abbrev VleOptionSetter (τ : Type) := ℕ → Bytes → τ → ResultCode × τ

/-- `VleOptionDef`. -/
structure VleOptionDef (τ : Type) where
  name : Bytes
  setter : Option (VleOptionSetter τ)

/-- `vle_findOption`. -/
def vleFindOption (table : List (VleOptionDef τ)) (name : Bytes) : Option (VleOptionDef τ) :=
  table.find? fun opt => sqlite3Strnicmp name.length opt.name name = 0

/-- `vle_optionSetInt`: the value is copied to a buffer of 64 bytes and ended with a NUL byte. -/
def vleOptionSetInt (store : ℕ → ℤ → τ → τ) : VleOptionSetter τ := fun start value target =>
  if value.length ≥ 64 then (.error, target)
  else
    let (rc, v) := sqlite3DecOrHexToI64 (value.takeWhile (· ≠ 0))
    if rc ≠ 0 then (.error, target) else (.ok, store start (asInt v) target)

/-- The end of the text, or the first place from `p` on where the scan stops. -/
def scanTo (stop : UInt8 → Bool) (options : Bytes) (p : ℕ) : ℕ :=
  p + ((options.drop p).takeWhile fun c => !stop c).length

/-- The loop of `vle_parseOptions` from place `p` on, for at most `fuel` items. An equals sign is
`61`, a comma `44`. -/
def vleParseLoop (table : List (VleOptionDef τ)) (options : Bytes) : ℕ → ℕ → τ → ResultCode × τ
  | 0, _, target => (.ok, target)
  | fuel + 1, p, target =>
    if p < options.length then
      let nameEnd := scanTo (fun c => c = 61 ∨ c = 44) options p
      if options[nameEnd]? ≠ some 61 then (.error, target)
      else
        let valueStart := nameEnd + 1
        let valueEnd := scanTo (fun c => c = 44) options valueStart
        let name := (options.drop p).take (nameEnd - p)
        let value := (options.drop valueStart).take (valueEnd - valueStart)
        let (rc, target) :=
          match (vleFindOption table name).bind VleOptionDef.setter with
          | some setter => setter valueStart value target
          | none => (.ok, target)
        if rc ≠ .ok then (rc, target)
        else
          -- skip comma
          let p := if valueEnd < options.length then valueEnd + 1 else valueEnd
          vleParseLoop table options fuel p target
    else (.ok, target)

/-- `vle_parseOptions`. Every item but an empty rest has an equals sign. -/
def vleParseOptions (table : List (VleOptionDef τ)) (options : Bytes) (target : τ) :
    ResultCode × τ :=
  vleParseLoop table options (options.length + 1) 0 target

/-- The options of a key: `chacha20KeyOptions`, for both algorithms. -/
def vleKeyOptions (store : ℕ → ℤ → τ → τ) : List (VleOptionDef τ) :=
  [⟨asciiBytes "kdf_iter", some (vleOptionSetInt store)⟩]

/-- The options stored in the variable `kdfIter`. -/
def vleParseKdfIter (options : Bytes) (kdfIter : ℤ) : ℤ :=
  (vleParseOptions (vleKeyOptions fun _ v _ => v) options kdfIter).2

/-- All that is stored as `kdf_iter`, each with the place of its value in the text. -/
def vleApplied (options : Bytes) : List (ℕ × ℤ) :=
  (vleParseOptions (vleKeyOptions fun start v l => l ++ [(start, v)]) options []).2

/-! ### What the format says -/

/-- An argument is a name in full, in any letter case. -/
def FullName (name arg : Bytes) : Prop := arg.map upperToLower = name.map upperToLower

instance (name arg : Bytes) : Decidable (FullName name arg) :=
  inferInstanceAs (Decidable (_ = _))

/-- The pieces of a text, each with its place. -/
def withPlaces : ℕ → List Bytes → List (ℕ × Bytes)
  | _, [] => []
  | p, piece :: pieces => (p, piece) :: withPlaces (p + piece.length + 1) pieces

/-- What is between the commas. -/
def optionItems (options : Bytes) : List (ℕ × Bytes) := withPlaces 0 (options.splitOn 44)

/-- What is before the first equals sign of an item. -/
def itemName (piece : Bytes) : Bytes := piece.takeWhile (· ≠ 61)

/-- What is behind the first equals sign of an item. -/
def itemValue (piece : Bytes) : Bytes := (piece.dropWhile (· ≠ 61)).tail

/-- The place of the value of an item. -/
def valuePlace (item : ℕ × Bytes) : ℕ := item.1 + (itemName item.2).length + 1

/-- An integer in the range of `int`, as SQLite reads integers. -/
def documentedInt (value : Bytes) : Option ℤ :=
  if 0 ∉ value ∧ (sqlite3DecOrHexToI64 value).1 = 0 ∧ -2 ^ 31 ≤ (sqlite3DecOrHexToI64 value).2 ∧
      (sqlite3DecOrHexToI64 value).2 < 2 ^ 31 then
    some (sqlite3DecOrHexToI64 value).2
  else none

/-- The name of the option in full. -/
def IsKdfIter (name : Bytes) : Prop := FullName (asciiBytes "kdf_iter") name

instance (name : Bytes) : Decidable (IsKdfIter name) := inferInstanceAs (Decidable (FullName _ _))

/-- What is to be stored as `kdf_iter` for these items, none if one of them is to be rejected. -/
def documentedItems : List (ℕ × Bytes) → Option (List (ℕ × ℤ))
  | [] => some []
  | item :: items =>
    if 61 ∉ item.2 then none
    else if IsKdfIter (itemName item.2) then
      (documentedInt (itemValue item.2)).bind fun v =>
        (documentedItems items).map fun l => (valuePlace item, v) :: l
    else documentedItems items

/-- What is to be stored as `kdf_iter` for an option text, none if it is to be rejected: a list of
items `name=value` separated by commas, of which the unknown ones are ignored. An empty text is a
list of no items. -/
def documentedOptions (options : Bytes) : Option (List (ℕ × ℤ)) :=
  if options = [] then some [] else documentedItems (optionItems options)

/-! ### The parser item by item -/

/-- What `vle_optionSetInt` reads. -/
def readInt (value : Bytes) : Option ℤ :=
  if value.length < 64 ∧ (sqlite3DecOrHexToI64 (value.takeWhile (· ≠ 0))).1 = 0 then
    some (asInt (sqlite3DecOrHexToI64 (value.takeWhile (· ≠ 0))).2)
  else none

/-- `vle_findOption` takes the name for `kdf_iter`. -/
def TakenForKdfIter (name : Bytes) : Prop :=
  sqlite3Strnicmp name.length (asciiBytes "kdf_iter") name = 0

instance (name : Bytes) : Decidable (TakenForKdfIter name) := inferInstanceAs (Decidable (_ = _))

/-- What the parser stores for these items. It stops at one that is malformed, and at one whose
value cannot be read. -/
def appliedItems : List (ℕ × Bytes) → List (ℕ × ℤ)
  | [] => []
  | item :: items =>
    if 61 ∉ item.2 then []
    else if TakenForKdfIter (itemName item.2) then
      match readInt (itemValue item.2) with
      | some v => (valuePlace item, v) :: appliedItems items
      | none => []
    else appliedItems items

variable {store : ℕ → ℤ → τ → τ}

theorem vleOptionSetInt_eq (start : ℕ) (value : Bytes) (target : τ) :
    vleOptionSetInt store start value target =
      match readInt value with
      | some v => (.ok, store start v target)
      | none => (.error, target) := by
  rw [vleOptionSetInt, readInt]
  by_cases hlen : value.length < 64
  · rw [if_neg (by omega)]
    by_cases hrc : (sqlite3DecOrHexToI64 (value.takeWhile (· ≠ 0))).1 = 0
    · rw [if_pos ⟨hlen, hrc⟩]
      exact if_neg (not_not.mpr hrc)
    · rw [if_neg fun h => hrc h.2]
      exact if_pos hrc
  · rw [if_pos (by omega), if_neg fun h => hlen h.1]

theorem vleFindOption_vleKeyOptions (name : Bytes) :
    (vleFindOption (vleKeyOptions store) name).bind VleOptionDef.setter =
      if TakenForKdfIter name then some (vleOptionSetInt store) else none := by
  rw [vleFindOption, vleKeyOptions, List.find?_singleton]
  change Option.bind (if decide (TakenForKdfIter name) = true then _ else _) _ = _
  by_cases h : TakenForKdfIter name
  · rw [if_pos (decide_eq_true h), if_pos h, Option.bind_some]
  · rw [if_neg (by simpa using h), if_neg h, Option.bind_none]

/-- A scan goes over what does not stop it. -/
theorem scanTo_eq {stop : UInt8 → Bool} {pre mid post : Bytes} (hmid : ∀ c ∈ mid, stop c = false)
    (hpost : ∀ c, post.head? = some c → stop c = true) :
    scanTo stop (pre ++ (mid ++ post)) pre.length = pre.length + mid.length := by
  have htake : (mid ++ post).takeWhile (fun c => !stop c) = mid := by
    rw [List.takeWhile_append_of_pos (by simpa using hmid)]
    cases post with
    | nil => simp
    | cons c post => simp [hpost c rfl]
  rw [scanTo, List.drop_left, htake]

theorem itemName_append {name : Bytes} (h : 61 ∉ name) (value : Bytes) :
    itemName (name ++ 61 :: value) = name := by
  rw [itemName, List.takeWhile_append_of_pos]
  · simp
  · intro c hc
    simp only [ne_eq, decide_eq_true_eq]
    rintro rfl
    exact h hc

theorem itemValue_append {name : Bytes} (h : 61 ∉ name) (value : Bytes) :
    itemValue (name ++ 61 :: value) = value := by
  rw [itemValue, List.dropWhile_append_of_pos]
  · simp
  · intro c hc
    simp only [ne_eq, decide_eq_true_eq]
    rintro rfl
    exact h hc

/-- An item is cut at its first equals sign. -/
theorem item_split {piece : Bytes} (h : 61 ∈ piece) :
    piece = itemName piece ++ 61 :: itemValue piece ∧ 61 ∉ itemName piece := by
  obtain ⟨name, value, rfl, hname⟩ := List.eq_append_cons_of_mem h
  rw [itemName_append hname, itemValue_append hname]
  exact ⟨rfl, hname⟩

/-- The first piece of a text. -/
theorem splitOn_eq (rest : Bytes) :
    ∃ piece tail, rest = piece ++ tail ∧ 44 ∉ piece ∧
      ((tail = [] ∧ rest.splitOn 44 = [piece]) ∨
        ∃ rest', tail = 44 :: rest' ∧ rest.splitOn 44 = piece :: rest'.splitOn 44) := by
  have hpiece : ∀ piece : Bytes, 44 ∉ piece → piece.splitOn 44 = [piece] := by
    intro piece hmem
    refine List.splitOnP_eq_singleton fun c hc => ?_
    simp only [beq_eq_false_iff_ne]
    rintro rfl
    exact hmem hc
  by_cases h : 44 ∈ rest
  · obtain ⟨piece, rest', rfl, hmem⟩ := List.eq_append_cons_of_mem h
    refine ⟨piece, 44 :: rest', rfl, hmem, Or.inr ⟨rest', rfl, ?_⟩⟩
    have happend : (piece ++ 44 :: rest').splitOnP (· == (44 : UInt8)) =
        piece.splitOnP (· == 44) ++ rest'.splitOnP (· == 44) :=
      List.splitOnP_append_cons piece rest' rfl
    rw [List.splitOn, happend]
    exact congrArg (· ++ _) (hpiece piece hmem)
  · exact ⟨rest, [], (List.append_nil rest).symm, h, Or.inl ⟨rfl, hpiece rest h⟩⟩

/-- The loop on an item with an equals sign: its value is given to the setter. -/
theorem vleParseLoop_item (table : List (VleOptionDef τ)) {pre name value tail : Bytes}
    (hname : ∀ c ∈ name, c ≠ 61 ∧ c ≠ 44) (hvalue : 44 ∉ value)
    (htail : ∀ c, tail.head? = some c → c = 44) (fuel : ℕ) (target : τ) :
    vleParseLoop table (pre ++ (name ++ 61 :: (value ++ tail))) (fuel + 1) pre.length target =
      let r := match (vleFindOption table name).bind VleOptionDef.setter with
        | some setter => setter (pre.length + name.length + 1) value target
        | none => (.ok, target)
      if r.1 ≠ .ok then r
      else vleParseLoop table (pre ++ (name ++ 61 :: (value ++ tail))) fuel
        (pre.length + name.length + 1 + value.length + (tail.take 1).length) r.2 := by
  have hnameEnd : scanTo (fun c => c = 61 ∨ c = 44) (pre ++ (name ++ 61 :: (value ++ tail)))
      pre.length = pre.length + name.length := by
    refine scanTo_eq (fun c hc => ?_) (fun c hc => ?_)
    · simpa using hname c hc
    · obtain rfl := Option.some_inj.mp hc
      rfl
  have hshift : pre ++ (name ++ 61 :: (value ++ tail)) =
      (pre ++ name ++ [61]) ++ (value ++ tail) := by simp
  have hlen : (pre ++ name ++ [61]).length = pre.length + name.length + 1 := by
    simp only [List.length_append, List.length_singleton]
  have hvalueEnd : scanTo (fun c => c = 44) (pre ++ (name ++ 61 :: (value ++ tail)))
      (pre.length + name.length + 1) = pre.length + name.length + 1 + value.length := by
    rw [hshift, ← hlen]
    refine scanTo_eq (fun c hc => ?_) (fun c hc => by simpa using htail c hc)
    simp only [decide_eq_false_iff_not]
    rintro rfl
    exact hvalue hc
  have hequals : (pre ++ (name ++ 61 :: (value ++ tail)))[pre.length + name.length]? = some 61 := by
    rw [List.getElem?_append_right (by omega), List.getElem?_append_right (by omega)]
    simp
  have hnameSlice : ((pre ++ (name ++ 61 :: (value ++ tail))).drop pre.length).take
      (pre.length + name.length - pre.length) = name := by
    rw [List.drop_left, Nat.add_sub_cancel_left, List.take_left]
  have hvalueSlice : ((pre ++ (name ++ 61 :: (value ++ tail))).drop
      (pre.length + name.length + 1)).take
      (pre.length + name.length + 1 + value.length - (pre.length + name.length + 1)) = value := by
    rw [Nat.add_sub_cancel_left, hshift, ← hlen, List.drop_left, List.take_left]
  have htailLen : (if pre.length + name.length + 1 + value.length <
      (pre ++ (name ++ 61 :: (value ++ tail))).length then
        pre.length + name.length + 1 + value.length + 1
      else pre.length + name.length + 1 + value.length) =
      pre.length + name.length + 1 + value.length + (tail.take 1).length := by
    rw [hshift, List.length_append, hlen, List.length_append]
    cases tail with
    | nil => simp
    | cons c tail => simp
  rw [vleParseLoop,
    if_pos (by rw [List.length_append, List.length_append, List.length_cons]; omega)]
  simp only [hnameEnd, hequals, hvalueEnd, hnameSlice, hvalueSlice, htailLen, ne_eq, not_true,
    if_false]

/-- The loop on a piece without an equals sign: it ends. -/
theorem vleParseLoop_malformed (table : List (VleOptionDef τ)) {pre piece tail : Bytes}
    (hequals : 61 ∉ piece) (hcomma : 44 ∉ piece) (htail : ∀ c, tail.head? = some c → c = 44)
    (fuel : ℕ) (target : τ) :
    (vleParseLoop table (pre ++ (piece ++ tail)) fuel pre.length target).2 = target := by
  cases fuel with
  | zero => rfl
  | succ fuel =>
    have hnameEnd : scanTo (fun c => c = 61 ∨ c = 44) (pre ++ (piece ++ tail)) pre.length =
        pre.length + piece.length := by
      refine scanTo_eq (fun c hc => ?_) (fun c hc => by simpa using Or.inr (htail c hc))
      simp only [decide_eq_false_iff_not]
      rintro (rfl | rfl)
      · exact hequals hc
      · exact hcomma hc
    have hstop : (pre ++ (piece ++ tail))[pre.length + piece.length]? ≠ some 61 := by
      rw [List.getElem?_append_right (by omega), List.getElem?_append_right (by omega)]
      cases tail with
      | nil => simp
      | cons c tail => simp [htail c rfl]
    rw [vleParseLoop]
    simp only [hnameEnd, hstop, ne_eq, not_false_eq_true, if_true]
    split_ifs <;> rfl

/-- **The parser item by item**: it stores what `appliedItems` says, in this order. -/
theorem vleParseLoop_eq (store : ℕ → ℤ → τ → τ) {fuel : ℕ} {pre rest : Bytes} (target : τ)
    (hfuel : rest.length < fuel) :
    (vleParseLoop (vleKeyOptions store) (pre ++ rest) fuel pre.length target).2 =
      (appliedItems (withPlaces pre.length (rest.splitOn 44))).foldl
        (fun t x => store x.1 x.2 t) target := by
  induction fuel generalizing pre rest target with
  | zero => exact absurd hfuel (Nat.not_lt_zero _)
  | succ fuel ih =>
    obtain ⟨piece, tail, rfl, hcomma, hsplit⟩ := splitOn_eq rest
    have htail : ∀ c, tail.head? = some c → c = 44 := by
      intro c hc
      rcases hsplit with ⟨rfl, -⟩ | ⟨rest', rfl, -⟩
      · cases hc
      · exact (Option.some_inj.mp hc).symm
    -- behind the piece and its comma
    obtain ⟨pieces, hpieces, hrest⟩ : ∃ pieces, (piece ++ tail).splitOn 44 = piece :: pieces ∧
        ∀ t, (vleParseLoop (vleKeyOptions store) (pre ++ (piece ++ tail)) fuel
            (pre.length + piece.length + (tail.take 1).length) t).2 =
          (appliedItems (withPlaces (pre.length + piece.length + 1) pieces)).foldl
            (fun t x => store x.1 x.2 t) t := by
      rcases hsplit with ⟨rfl, h⟩ | ⟨rest', rfl, h⟩
      · refine ⟨[], h, fun t => ?_⟩
        cases fuel with
        | zero => rfl
        | succ fuel =>
          rw [vleParseLoop, if_neg (by simp)]
          rfl
      · refine ⟨_, h, fun t => ?_⟩
        have hshift : pre ++ (piece ++ 44 :: rest') = (pre ++ (piece ++ [44])) ++ rest' := by simp
        have hplace : pre.length + piece.length + ((44 :: rest').take 1).length =
            (pre ++ (piece ++ [44])).length := by simp [Nat.add_assoc]
        have hlt : rest'.length < fuel := by
          rw [List.length_append, List.length_cons] at hfuel
          omega
        rw [hshift, hplace, ih t hlt, ← hplace]
        rfl
    rw [hpieces, withPlaces, appliedItems]
    by_cases hequals : 61 ∈ piece
    · obtain ⟨hpiece, hname⟩ := item_split hequals
      have hlen : piece.length = (itemName piece).length + 1 + (itemValue piece).length := by
        rw [congrArg List.length hpiece, List.length_append, List.length_cons]
        omega
      have hnameChars : ∀ c ∈ itemName piece, c ≠ 61 ∧ c ≠ 44 := by
        refine fun c hc => ⟨fun heq => hname (heq ▸ hc), fun heq => hcomma ?_⟩
        rw [hpiece]
        exact List.mem_append_left _ (heq ▸ hc)
      have hvalue : 44 ∉ itemValue piece := by
        refine fun hmem => hcomma ?_
        rw [hpiece]
        exact List.mem_append_right _ (List.mem_cons_of_mem _ hmem)
      have hoptions : pre ++ (piece ++ tail) =
          pre ++ (itemName piece ++ 61 :: (itemValue piece ++ tail)) := by
        rw [congrArg (· ++ tail) hpiece, List.append_assoc, List.cons_append]
      have hstep := @vleParseLoop_item _ (vleKeyOptions store) pre _ _ _ hnameChars hvalue htail
        fuel target
      rw [← hoptions, vleFindOption_vleKeyOptions] at hstep
      have hplace : pre.length + (itemName piece).length + 1 + (itemValue piece).length =
          pre.length + piece.length := by omega
      rw [hplace] at hstep
      rw [hstep, if_neg (not_not.mpr hequals)]
      by_cases htaken : TakenForKdfIter (itemName piece)
      · rw [if_pos htaken, if_pos htaken]
        dsimp only
        rw [vleOptionSetInt_eq]
        cases hread : readInt (itemValue piece) with
        | none => rfl
        | some v => exact hrest (store (pre.length + (itemName piece).length + 1) v target)
      · rw [if_neg htaken, if_neg htaken]
        exact hrest target
    · rw [vleParseLoop_malformed _ hequals hcomma htail, if_pos hequals, List.foldl_nil]

/-- **The parser** stores the values of the items it takes for `kdf_iter`, in their order. -/
theorem vleParseOptions_eq (store : ℕ → ℤ → τ → τ) (options : Bytes) (target : τ) :
    (vleParseOptions (vleKeyOptions store) options target).2 =
      (appliedItems (optionItems options)).foldl (fun t x => store x.1 x.2 t) target :=
  @vleParseLoop_eq _ store _ [] _ target (Nat.lt_succ_self options.length)

theorem vleApplied_eq (options : Bytes) :
    vleApplied options = appliedItems (optionItems options) := by
  have hfold : ∀ l acc : List (ℕ × ℤ), l.foldl (fun l x => l ++ [(x.1, x.2)]) acc = acc ++ l := by
    intro l
    induction l with
    | nil => simp
    | cons x l ih => simp [ih]
  rw [vleApplied, vleParseOptions_eq, hfold, List.nil_append]

/-- The last value stored is the one that counts. -/
theorem vleParseKdfIter_eq (options : Bytes) (kdfIter : ℤ) :
    vleParseKdfIter options kdfIter =
      ((vleApplied options).getLast?.map Prod.snd).getD kdfIter := by
  rw [vleParseKdfIter, vleParseOptions_eq, vleApplied_eq]
  generalize appliedItems (optionItems options) = l
  induction l generalizing kdfIter with
  | nil => rfl
  | cons x l ih =>
    rw [List.foldl_cons, ih, List.getLast?_cons]
    cases l.getLast? <;> rfl

/-! ### For which texts this is what the format says -/

/-- A name in full is taken for the option. -/
theorem sqlite3Strnicmp_of_fullName {name arg : Bytes} (h : FullName name arg) :
    sqlite3Strnicmp arg.length name arg = 0 := by
  induction arg generalizing name with
  | nil => rfl
  | cons c arg ih =>
    cases name with
    | nil => cases h
    | cons d name =>
      obtain ⟨hhead, hrest⟩ := List.cons.inj h
      rw [List.length_cons, sqlite3Strnicmp]
      split_ifs
      · exact ih hrest
      · rw [List.headD_cons, List.headD_cons, hhead]
        exact sub_self _

theorem readInt_of_documentedInt {value : Bytes} {v : ℤ} (h : documentedInt value = some v)
    (hlen : value.length < 64) : readInt value = some v := by
  rw [documentedInt] at h
  split_ifs at h with hint
  obtain ⟨hnul, hrc, hlow, hhigh⟩ := hint
  have hcut : value.takeWhile (· ≠ 0) = value := by
    refine List.takeWhile_eq_self_iff.mpr fun c hc => ?_
    simp only [ne_eq, decide_eq_true_eq]
    rintro rfl
    exact hnul hc
  have hwrap : asInt (sqlite3DecOrHexToI64 value).2 = (sqlite3DecOrHexToI64 value).2 :=
    Int.bmod_eq_of_le (by omega) (by omega)
  rw [readInt, hcut, if_pos ⟨hlen, hrc⟩, hwrap]
  exact h

theorem readInt_eq_none {value : Bytes} (h : 64 ≤ value.length) : readInt value = none := by
  rw [readInt, if_neg]
  omega

/-- The places of the values stored are in the rest of the text. -/
theorem place_lt {p : ℕ} {pieces : List Bytes} {l : List (ℕ × ℤ)}
    (h : documentedItems (withPlaces p pieces) = some l) : ∀ x ∈ l, p < x.1 := by
  induction pieces generalizing p l with
  | nil =>
    obtain rfl := Option.some_inj.mp h
    simp
  | cons piece pieces ih =>
    rw [withPlaces, documentedItems] at h
    have hrest : ∀ l, documentedItems (withPlaces (p + piece.length + 1) pieces) = some l →
        ∀ x ∈ l, p < x.1 := fun l hl x hx => by
      have hx := ih hl x hx
      omega
    split_ifs at h
    · obtain ⟨v, -, h⟩ := Option.bind_eq_some_iff.mp h
      obtain ⟨l', hl', rfl⟩ := Option.map_eq_some_iff.mp h
      intro x hx
      rcases List.mem_cons.mp hx with rfl | hx
      · show p < p + _ + 1
        omega
      · exact hrest l' hl' x hx
    · exact hrest l h

/-- No item is for the option. -/
theorem documentedItems_eq_nil_iff (items : List (ℕ × Bytes)) :
    documentedItems items = some [] ↔
      ∀ item ∈ items, 61 ∈ item.2 ∧ ¬ IsKdfIter (itemName item.2) := by
  induction items with
  | nil => simp [documentedItems]
  | cons item items ih =>
    rw [documentedItems, List.forall_mem_cons, ← ih]
    by_cases hequals : 61 ∈ item.2
    · rw [if_neg (not_not.mpr hequals)]
      by_cases hname : IsKdfIter (itemName item.2)
      · rw [if_pos hname]
        refine iff_of_false (fun h => ?_) fun h => h.1.2 hname
        obtain ⟨v, -, h⟩ := Option.bind_eq_some_iff.mp h
        obtain ⟨l, -, hl⟩ := Option.map_eq_some_iff.mp h
        cases hl
      · rw [if_neg hname]
        simp [hequals, hname]
    · rw [if_pos hequals]
      simp [hequals]

/-- The parser reads these items as the format says. Each has an equals sign; the values for
`kdf_iter` are integers in the range of `int`, shorter than 64 bytes; and no other name is taken
for `kdf_iter`, except that of an item whose value stops the parser when no `kdf_iter` follows. -/
def CleanItems : List (ℕ × Bytes) → Prop
  | [] => True
  | item :: items =>
    61 ∈ item.2 ∧
      if IsKdfIter (itemName item.2) then
        documentedInt (itemValue item.2) ≠ none ∧ (itemValue item.2).length < 64 ∧ CleanItems items
      else if TakenForKdfIter (itemName item.2) then
        readInt (itemValue item.2) = none ∧
          ∀ i ∈ items, 61 ∈ i.2 ∧ ¬ IsKdfIter (itemName i.2)
      else CleanItems items

theorem documentedItems_eq_iff (p : ℕ) (pieces : List Bytes) :
    documentedItems (withPlaces p pieces) = some (appliedItems (withPlaces p pieces)) ↔
      CleanItems (withPlaces p pieces) := by
  induction pieces generalizing p with
  | nil => simp [withPlaces, documentedItems, appliedItems, CleanItems]
  | cons piece pieces ih =>
    have ih := ih (p + piece.length + 1)
    rw [withPlaces, documentedItems, appliedItems, CleanItems]
    by_cases hequals : 61 ∈ piece
    · rw [if_neg (not_not.mpr hequals), if_neg (not_not.mpr hequals), and_iff_right hequals]
      dsimp only
      by_cases hname : IsKdfIter (itemName piece)
      · -- the option itself
        have htaken : TakenForKdfIter (itemName piece) := sqlite3Strnicmp_of_fullName hname
        rw [if_pos hname, if_pos htaken, if_pos hname]
        cases hint : documentedInt (itemValue piece) with
        | none => simp
        | some v =>
          by_cases hlen : (itemValue piece).length < 64
          · rw [readInt_of_documentedInt hint hlen, ← ih]
            simp [hlen]
          · rw [readInt_eq_none (Nat.le_of_not_lt hlen)]
            simp [hlen]
      · rw [if_neg hname, if_neg hname]
        by_cases htaken : TakenForKdfIter (itemName piece)
        · -- a name that is taken for it
          rw [if_pos htaken, if_pos htaken]
          cases hread : readInt (itemValue piece) with
          | none => simpa using documentedItems_eq_nil_iff _
          | some v =>
            refine iff_of_false (fun h => ?_) (by simp)
            have hlt := place_lt h _ List.mem_cons_self
            have hpiece := congrArg List.length (item_split hequals).1
            rw [List.length_append, List.length_cons] at hpiece
            simp only [valuePlace] at hlt
            omega
        · rw [if_neg htaken, if_neg htaken]
          exact ih
    · rw [if_pos hequals]
      simp [hequals]

/-- **When the parser keeps to the format.** -/
theorem documentedOptions_eq_iff (options : Bytes) :
    documentedOptions options = some (vleApplied options) ↔
      options = [] ∨ CleanItems (optionItems options) := by
  rw [documentedOptions, vleApplied_eq]
  by_cases h : options = []
  · rw [if_pos h, h]
    exact iff_of_true rfl (Or.inl rfl)
  · rw [if_neg h, or_iff_right h]
    exact documentedItems_eq_iff 0 _

end MultipleCiphers
