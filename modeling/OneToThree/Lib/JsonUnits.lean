import Mathlib.Data.Nat.Digits.Defs
import Mathlib.Data.Nat.Digits.Lemmas
import Mathlib.Tactic.SplitIfs

/-!
# JSON in code units

The texts of the language are sequences of 16-bit units, in which a half of a surrogate pair may
stand alone. `JSON.stringify` escapes such a half, and the reader of a text is a recursive descent
over its units.

* `JsonUnits.parse_stringify`: a value that is written is read again as it was, whatever the units
  of its texts are. The numbers are a parameter (`JsonUnits.Number`).
* `JsText.trim` leaves out the spaces at both ends.
-/

/-- A text, by its UTF-16 code units. -/
abbrev JsText := List ℕ

namespace JsText

instance instLawfulBEq : LawfulBEq JsText := inferInstance

/-- A text of the source, in ASCII. -/
def ascii (s : String) : JsText := s.toList.map Char.toNat

theorem ascii_inj {s t : String} : ascii s = ascii t ↔ s = t := by
  refine ⟨fun h => ?_, congrArg ascii⟩
  rw [ascii, ascii, List.map_inj_right fun a b => Char.toNat_inj.1] at h
  exact String.toList_inj.1 h

/-- The white space and line terminators of the language. -/
def isSpace (u : ℕ) : Bool :=
  (9 ≤ u && u ≤ 13) || u = 0x20 || u = 0xA0 || u = 0x1680 || (0x2000 ≤ u && u ≤ 0x200A) ||
    u = 0x2028 || u = 0x2029 || u = 0x202F || u = 0x205F || u = 0x3000 || u = 0xFEFF

def trimStart (t : JsText) : JsText := t.dropWhile isSpace

def trim (t : JsText) : JsText := (trimStart (trimStart t).reverse).reverse

theorem trimStart_eq_self {t : JsText} (h : ∀ u ∈ t.head?, isSpace u = false) :
    trimStart t = t := by
  cases t with
  | nil => rfl
  | cons u t => exact List.dropWhile_cons_of_neg (by rw [h u rfl]; exact Bool.false_ne_true)

/-- A text with no space at its ends. -/
theorem trim_eq_self {t : JsText} (hhead : ∀ u ∈ t.head?, isSpace u = false)
    (hlast : ∀ u ∈ t.getLast?, isSpace u = false) : trim t = t := by
  rw [trim, trimStart_eq_self hhead, trimStart_eq_self, List.reverse_reverse]
  rwa [List.head?_reverse]

theorem trim_eq_self_of_forall {t : JsText} (h : ∀ u ∈ t, isSpace u = false) : trim t = t :=
  trim_eq_self (fun u hu => h u (List.mem_of_mem_head? hu)) fun u hu =>
    h u (List.mem_of_getLast? hu)

theorem not_isSpace_head_trimStart (t : JsText) :
    ∀ u ∈ (trimStart t).head?, isSpace u = false := by
  intro u hu
  have hnot := List.head?_dropWhile_not isSpace t
  rw [show (t.dropWhile isSpace).head? = some u from hu] at hnot
  simpa using hnot

theorem trim_trim (t : JsText) : trim (trim t) = trim t := by
  have hsuffix : (trimStart (trimStart t).reverse).reverse <+: trimStart t := by
    have h := List.dropWhile_suffix isSpace (l := (trimStart t).reverse)
    rw [← List.reverse_prefix, List.reverse_reverse] at h
    exact h
  refine trim_eq_self (fun u hu => ?_) fun u hu => ?_
  · obtain ⟨r, hr⟩ := hsuffix
    refine not_isSpace_head_trimStart t u ?_
    rw [← hr, List.head?_append_of_ne_nil]
    · exact hu
    · rintro hnil
      rw [trim, hnil] at hu
      cases hu
  · rw [trim, List.getLast?_reverse] at hu
    exact not_isSpace_head_trimStart _ u hu

end JsText

namespace JsonUnits

open JsText

/-- The numbers of the language that JSON has, with their texts. -/
class Number (N : Type) where
  write : N → JsText
  read : JsText → Option N
  read_write : ∀ n, read (write n) = some n
  write_ne_nil : ∀ n, write n ≠ []
  /-- Digits, signs, points and exponents. -/
  write_units : ∀ n, ∀ u ∈ write n, 0x30 ≤ u ∧ u ≤ 0x39 ∨ u = 0x2B ∨ u = 0x2D ∨ u = 0x2E ∨
    u = 0x45 ∨ u = 0x65

inductive Value (N : Type)
  | null
  | bool (b : Bool)
  | num (n : N)
  | str (s : JsText)
  | arr (elems : List (Value N))
  | obj (fields : List (JsText × Value N))

/-! ## Fields -/

section
variable {N : Type}

/-- The last field of a name. -/
def field (key : JsText) : List (JsText × Value N) → Option (Value N)
  | [] => none
  | (k, x) :: fields => (field key fields).or (if k = key then some x else none)

/-- A property of a value, where it has one of its own. -/
def Value.get? (key : String) : Value N → Option (Value N)
  | .obj fields => field (ascii key) fields
  | _ => none

/-- A field that is written only where there is something to write. -/
def optional {A : Type} (key : String) (f : A → Value N) (x : Option A) :
    List (JsText × Value N) :=
  (x.map fun a => (ascii key, f a)).toList

def Value.text? : Value N → Option JsText
  | .str s => some s
  | _ => none

def Value.num? : Value N → Option N
  | .num n => some n
  | _ => none

theorem field_append (key : JsText) (l l' : List (JsText × Value N)) :
    field key (l ++ l') = (field key l').or (field key l) := by
  induction l with
  | nil => exact (Option.or_none).symm
  | cons x l ih => rw [List.cons_append, field, field, ih, Option.or_assoc]

theorem field_optional {A : Type} (key key' : String) (f : A → Value N) (x : Option A) :
    field (ascii key) (optional key' f x) = if key' = key then x.map f else none := by
  cases x with
  | none => exact (ite_self _).symm
  | some a =>
    change (none : Option (Value N)).or _ = _
    rw [Option.none_or]
    exact if_congr ascii_inj rfl rfl

end

/-! ## Numbers -/

def writeNat (n : ℕ) : JsText :=
  if n = 0 then [0x30] else (Nat.digits 10 n).reverse.map (0x30 + ·)

/-- The number of a word of digits, with no zero before them. -/
def readNat (t : JsText) : Option ℕ :=
  let n := Nat.ofDigits 10 (t.map (· - 0x30)).reverse
  if writeNat n = t then some n else none

theorem readNat_writeNat (n : ℕ) : readNat (writeNat n) = some n := by
  have hvalue : Nat.ofDigits 10 ((writeNat n).map (· - 0x30)).reverse = n := by
    rw [writeNat]
    split_ifs with hzero
    · rw [hzero]
      rfl
    · rw [List.map_map, List.map_reverse, List.reverse_reverse]
      have hid : ((fun u => u - 0x30) ∘ fun d => 0x30 + d) = id := by
        funext d
        exact Nat.add_sub_cancel_left _ _
      rw [hid, List.map_id, Nat.ofDigits_digits]
  rw [readNat, hvalue, if_pos rfl]

/-- The natural numbers among them. -/
instance : Number ℕ where
  write := writeNat
  read := readNat
  read_write := readNat_writeNat
  write_ne_nil n := by
    rw [writeNat]
    split_ifs with hzero
    · exact List.cons_ne_nil _ _
    · simp [Nat.digits_ne_nil_iff_ne_zero, hzero]
  write_units n u hu := by
    rw [writeNat] at hu
    split_ifs at hu with hzero
    · rw [List.mem_singleton.1 hu]
      decide
    · obtain ⟨d, hd, rfl⟩ := List.mem_map.1 hu
      have hlt := Nat.digits_lt_base (by decide) (List.mem_reverse.1 hd)
      omega

/-! ## Strings -/

def isHigh (u : ℕ) : Bool := 0xD800 ≤ u && u ≤ 0xDBFF

def isLow (u : ℕ) : Bool := 0xDC00 ≤ u && u ≤ 0xDFFF

def hexUnit (n : ℕ) : ℕ := if n < 10 then 0x30 + n else 0x57 + n

/-- The escape of a unit by its number. -/
def hex (u : ℕ) : JsText :=
  [0x5C, 0x75, hexUnit (u / 4096 % 16), hexUnit (u / 256 % 16), hexUnit (u / 16 % 16),
    hexUnit (u % 16)]

/-- The units that have an escape of their own, with its letter. -/
def shortEscapes : List (ℕ × ℕ) :=
  [(0x22, 0x22), (0x5C, 0x5C), (8, 0x62), (9, 0x74), (10, 0x6E), (12, 0x66), (13, 0x72)]

def escapeUnit (u : ℕ) : JsText :=
  match shortEscapes.lookup u with
  | some letter => [0x5C, letter]
  | none => if u < 0x20 then hex u else [u]

/-- The units of a text between its quotes. `paired`: the first of them is the second half of a
    surrogate pair. -/
def escape : (paired : Bool) → JsText → JsText
  | _, [] => []
  | true, u :: t => u :: escape false t
  | false, u :: t =>
    if isHigh u && t.head?.any isLow then u :: escape true t
    else if isHigh u || isLow u then hex u ++ escape false t
    else escapeUnit u ++ escape false t

def quote (t : JsText) : JsText := 0x22 :: (escape false t ++ [0x22])

def hexValue (u : ℕ) : Option ℕ :=
  if 0x30 ≤ u ∧ u ≤ 0x39 then some (u - 0x30)
  else if 0x61 ≤ u ∧ u ≤ 0x66 then some (u - 0x57)
  else if 0x41 ≤ u ∧ u ≤ 0x46 then some (u - 0x37)
  else none

def readHex : JsText → Option (ℕ × JsText)
  | a :: b :: c :: d :: t => do
    return (4096 * (← hexValue a) + 256 * (← hexValue b) + 16 * (← hexValue c) + (← hexValue d), t)
  | _ => none

/-- The letters of the escapes, with the units they stand for. -/
def unescapes : List (ℕ × ℕ) :=
  [(0x22, 0x22), (0x5C, 0x5C), (0x2F, 0x2F), (0x62, 8), (0x74, 9), (0x6E, 10), (0x66, 12),
    (0x72, 13)]

/-- A unit of a text between its quotes. -/
def readUnit : JsText → Option (ℕ × JsText)
  | [] => none
  | u :: t =>
    if u = 0x5C then
      match t with
      | [] => none
      | letter :: t =>
        if letter = 0x75 then readHex t else (unescapes.lookup letter).map fun u => (u, t)
    else if u < 0x20 then none
    else some (u, t)

/-- A text behind its first quote. -/
def readString : ℕ → JsText → Option (JsText × JsText)
  | 0, _ => none
  | fuel + 1, t =>
    if t.head? = some 0x22 then some ([], t.tail)
    else (readUnit t).bind fun (u, t) => (readString fuel t).map fun (s, t) => (u :: s, t)

theorem hexValue_hexUnit : ∀ n < 16, hexValue (hexUnit n) = some n := by decide

theorem readUnit_hex {u : ℕ} (hu : u < 0x10000) (r : JsText) :
    readUnit (hex u ++ r) = some (u, r) := by
  have h := fun n => hexValue_hexUnit (n % 16) (Nat.mod_lt n (by decide))
  have hsum : 4096 * (u / 4096 % 16) + 256 * (u / 256 % 16) + 16 * (u / 16 % 16) + u % 16 = u := by
    omega
  simp [hex, readUnit, readHex, h, hsum]

theorem shortEscapes_spec : ∀ e ∈ shortEscapes,
    e.2 ≠ 0x75 ∧ unescapes.lookup e.2 = some e.1 := by decide

theorem mem_of_lookup {l : List (ℕ × ℕ)} {u letter : ℕ} (h : l.lookup u = some letter) :
    (u, letter) ∈ l := by
  induction l with
  | nil => cases h
  | cons e l ih =>
    rw [List.lookup_cons] at h
    split at h
    · rename_i heq
      obtain rfl := Option.some.inj h
      rw [eq_of_beq heq]
      exact List.mem_cons_self
    · exact List.mem_cons_of_mem _ (ih h)

theorem readUnit_escapeUnit (u : ℕ) (r : JsText) : readUnit (escapeUnit u ++ r) = some (u, r) := by
  rw [escapeUnit]
  split
  · rename_i letter hlookup
    obtain ⟨hne, hspec⟩ := shortEscapes_spec _ (mem_of_lookup hlookup)
    simp [readUnit, hne, hspec]
  · rename_i hlookup
    split_ifs with hlt
    · exact readUnit_hex (Nat.lt_trans hlt (by decide)) r
    · have hslash : u ≠ 0x5C := by
        rintro rfl
        cases hlookup
      simp [readUnit, hslash, hlt]

/-- What a text begins with when it is written is no quote. -/
theorem head_escapeUnit (u : ℕ) (r : JsText) : (escapeUnit u ++ r).head? ≠ some 0x22 := by
  rw [escapeUnit]
  split
  · simp
  · rename_i hlookup
    split_ifs with hlt
    · simp [hex]
    · rintro h
      obtain rfl : u = 0x22 := Option.some.inj h
      cases hlookup

theorem readString_step {fuel u : ℕ} {t r : JsText} (hquote : t.head? ≠ some 0x22)
    (hread : readUnit t = some (u, r)) :
    readString (fuel + 1) t = (readString fuel r).map fun (s, r) => (u :: s, r) := by
  rw [readString, if_neg hquote, hread, Option.bind_some]

/-- A unit from the halves of surrogate pairs on stands for itself. -/
theorem readUnit_raw {u : ℕ} (hu : 0xD800 ≤ u) (r : JsText) :
    readUnit (u :: r) = some (u, r) ∧ (u :: r).head? ≠ some 0x22 := by
  have hslash : u ≠ 0x5C := by omega
  have hlt : ¬u < 0x20 := by omega
  have hquote : u ≠ 0x22 := by omega
  simp [readUnit, hslash, hlt, hquote]

/-- A text that is written is read again, up to its quote. -/
theorem readString_escape (t r : JsText) {fuel : ℕ} (hfuel : t.length < fuel) {paired : Bool}
    (hpaired : paired = true → t.head?.any isLow = true) :
    readString fuel (escape paired t ++ 0x22 :: r) = some (t, r) := by
  induction t generalizing fuel paired with
  | nil =>
    obtain ⟨fuel, rfl⟩ := Nat.exists_eq_add_one_of_ne_zero (Nat.ne_of_gt hfuel)
    cases paired <;> rfl
  | cons u t ih =>
    obtain ⟨fuel, rfl⟩ := Nat.exists_eq_add_one_of_ne_zero (Nat.ne_of_gt (Nat.zero_lt_of_lt hfuel))
    have hlt : t.length < fuel := Nat.lt_of_succ_lt_succ hfuel
    -- what is left, once the first unit was read
    suffices h : ∀ paired' (l : JsText), (paired' = true → t.head?.any isLow = true) →
        escape paired (u :: t) = l ++ escape paired' t →
        (∀ r, readUnit (l ++ r) = some (u, r) ∧ (l ++ r).head? ≠ some 0x22) →
        readString (fuel + 1) (escape paired (u :: t) ++ 0x22 :: r) = some (u :: t, r) by
      cases paired with
      | true =>
        have hlow : isLow u = true := hpaired rfl
        rw [isLow, Bool.and_eq_true, decide_eq_true_eq] at hlow
        exact h false [u] (fun h => absurd h Bool.false_ne_true) rfl fun r =>
          readUnit_raw (by omega) r
      | false =>
        by_cases hpair : (isHigh u && t.head?.any isLow) = true
        · rw [Bool.and_eq_true] at hpair
          have hhigh := hpair.1
          rw [isHigh, Bool.and_eq_true, decide_eq_true_eq] at hhigh
          exact h true [u] (fun _ => hpair.2) (if_pos (by rw [hpair.1, hpair.2]; rfl))
            fun r => readUnit_raw (by omega) r
        · by_cases hhalf : (isHigh u || isLow u) = true
          · have hu : u < 0x10000 := by
              simp only [isHigh, isLow, Bool.or_eq_true, Bool.and_eq_true, decide_eq_true_eq]
                at hhalf
              omega
            exact h false (hex u) (fun h => absurd h Bool.false_ne_true)
              ((if_neg hpair).trans (if_pos hhalf)) fun r => ⟨readUnit_hex hu r, by simp [hex]⟩
          · exact h false (escapeUnit u) (fun h => absurd h Bool.false_ne_true)
              ((if_neg hpair).trans (if_neg hhalf))
              fun r => ⟨readUnit_escapeUnit u r, head_escapeUnit u r⟩
    intro paired' l hpaired' hescape hread
    obtain ⟨hunit, hquote⟩ := hread (escape paired' t ++ 0x22 :: r)
    rw [hescape, List.append_assoc, readString_step hquote hunit, ih hlt hpaired']
    rfl

/-! ## Values -/

section
variable {N : Type} [Number N]

mutual

/-- `JSON.stringify`. -/
def stringify : Value N → JsText
  | .null => ascii "null"
  | .bool true => ascii "true"
  | .bool false => ascii "false"
  | .num n => Number.write n
  | .str s => quote s
  | .arr [] => ascii "[]"
  | .arr (x :: xs) => 0x5B :: (stringify x ++ stringifyElems xs)
  | .obj [] => ascii "\x7b\x7d"
  | .obj ((key, x) :: fields) =>
    0x7B :: (quote key ++ 0x3A :: (stringify x ++ stringifyFields fields))

/-- The other elements of an array, up to its end. -/
def stringifyElems : List (Value N) → JsText
  | [] => [0x5D]
  | x :: xs => 0x2C :: (stringify x ++ stringifyElems xs)

/-- The other fields of an object, up to its end. -/
def stringifyFields : List (JsText × Value N) → JsText
  | [] => [0x7D]
  | (key, x) :: fields => 0x2C :: (quote key ++ 0x3A :: (stringify x ++ stringifyFields fields))

end

/-- The white space between the tokens. -/
def skip (t : JsText) : JsText :=
  t.dropWhile fun u => u = 0x20 || u = 9 || u = 10 || u = 13

/-- The units of the literals and numbers. -/
def isWord (u : ℕ) : Bool :=
  (0x30 ≤ u && u ≤ 0x39) || (0x41 ≤ u && u ≤ 0x5A) || (0x61 ≤ u && u ≤ 0x7A) || u = 0x2B ||
    u = 0x2D || u = 0x2E

def readWord (t : JsText) : Option (Value N × JsText) :=
  let word := t.takeWhile isWord
  (if word = ascii "null" then some .null
    else if word = ascii "true" then some (.bool true)
    else if word = ascii "false" then some (.bool false)
    else (Number.read word).map .num).map fun x => (x, t.dropWhile isWord)

/-- A key, with the colon behind it. -/
def readKey (fuel : ℕ) (t : JsText) : Option (JsText × JsText) :=
  match skip t with
  | [] => none
  | u :: t =>
    if u = 0x22 then
      (readString fuel t).bind fun (key, t) =>
        if (skip t).head? = some 0x3A then some (key, (skip t).tail) else none
    else none

mutual

def readValue : ℕ → JsText → Option (Value N × JsText)
  | 0, _ => none
  | fuel + 1, t =>
    match skip t with
    | [] => none
    | u :: t =>
      if u = 0x22 then (readString fuel t).map fun (s, t) => (.str s, t)
      else if u = 0x5B then
        if (skip t).head? = some 0x5D then some (.arr [], (skip t).tail)
        else (readElems fuel t).map fun (xs, t) => (.arr xs, t)
      else if u = 0x7B then
        if (skip t).head? = some 0x7D then some (.obj [], (skip t).tail)
        else (readFields fuel t).map fun (fields, t) => (.obj fields, t)
      else readWord (u :: t)

/-- The elements of an array that is not empty. -/
def readElems : ℕ → JsText → Option (List (Value N) × JsText)
  | 0, _ => none
  | fuel + 1, t =>
    (readValue fuel t).bind fun (x, t) =>
      match skip t with
      | [] => none
      | u :: t =>
        if u = 0x2C then (readElems fuel t).map fun (xs, t) => (x :: xs, t)
        else if u = 0x5D then some ([x], t)
        else none

/-- The fields of an object that is not empty. -/
def readFields : ℕ → JsText → Option (List (JsText × Value N) × JsText)
  | 0, _ => none
  | fuel + 1, t =>
    (readKey fuel t).bind fun (key, t) => (readValue fuel t).bind fun (x, t) =>
      match skip t with
      | [] => none
      | u :: t =>
        if u = 0x2C then (readFields fuel t).map fun (fields, t) => ((key, x) :: fields, t)
        else if u = 0x7D then some ([(key, x)], t)
        else none

end

/-- `JSON.parse`. -/
def parse (t : JsText) : Option (Value N) :=
  (readValue (t.length + 1) t).bind fun (x, t) => if skip t = [] then some x else none

/-! ## What is written is read again -/

/-- A text that does not go on with a literal or a number. -/
def Delimited (t : JsText) : Prop := ∀ u ∈ t.head?, isWord u = false

theorem skip_cons {u : ℕ} (hu : 0x20 < u) (t : JsText) : skip (u :: t) = u :: t := by
  have hne : u ≠ 0x20 ∧ u ≠ 9 ∧ u ≠ 10 ∧ u ≠ 13 := by omega
  exact List.dropWhile_cons_of_neg (by simp [hne])

theorem length_escape (t : JsText) (paired : Bool) : t.length ≤ (escape paired t).length := by
  induction t generalizing paired with
  | nil => exact Nat.zero_le _
  | cons u t ih =>
    have hstep : ∀ {l : JsText} {paired}, l ≠ [] →
        (u :: t).length ≤ (l ++ escape paired t).length := by
      intro l paired hl
      have hpos := List.length_pos_of_ne_nil hl
      have hle := ih paired
      rw [List.length_append, List.length_cons]
      omega
    have hunit : escapeUnit u ≠ [] := by
      rw [escapeUnit]
      split
      · simp
      · split_ifs <;> simp [hex]
    cases paired with
    | true => exact hstep (l := [u]) (by simp)
    | false =>
      rw [escape]
      split_ifs
      · exact hstep (l := [u]) (by simp)
      · exact hstep (by simp [hex])
      · exact hstep hunit

/-- The text of a value begins with no white space, and does not end an array. -/
theorem stringify_head (x : Value N) :
    ∃ u t, stringify x = u :: t ∧ 0x20 < u ∧ u ≠ 0x5D := by
  cases x with
  | null => exact ⟨0x6E, _, rfl, by decide, by decide⟩
  | bool b =>
    cases b
    · exact ⟨0x66, _, rfl, by decide, by decide⟩
    · exact ⟨0x74, _, rfl, by decide, by decide⟩
  | num n =>
    obtain ⟨u, t, ht⟩ := List.exists_cons_of_ne_nil (Number.write_ne_nil n)
    have hu := Number.write_units n u (ht ▸ List.mem_cons_self)
    exact ⟨u, t, by rw [stringify, ht], by omega, by omega⟩
  | str s => exact ⟨0x22, _, by rw [stringify, quote], by decide, by decide⟩
  | arr xs =>
    cases xs with
    | nil => exact ⟨0x5B, [0x5D], by rw [stringify]; rfl, by decide, by decide⟩
    | cons x xs => exact ⟨0x5B, _, by rw [stringify], by decide, by decide⟩
  | obj fields =>
    cases fields with
    | nil => exact ⟨0x7B, [0x7D], by rw [stringify]; rfl, by decide, by decide⟩
    | cons field fields => exact ⟨0x7B, _, by rw [stringify], by decide, by decide⟩

/-- A word that is read up to its end. -/
theorem readValue_word {word r : JsText} (hword : ∀ u ∈ word, isWord u = true) (hne : word ≠ [])
    (hr : Delimited r) (fuel : ℕ) :
    readValue (N := N) (fuel + 1) (word ++ r) = (readWord word).map fun (x, _) => (x, r) := by
  obtain ⟨u, w, rfl⟩ := List.exists_cons_of_ne_nil hne
  have hu := hword u List.mem_cons_self
  have hr' : r.takeWhile isWord = [] ∧ r.dropWhile isWord = r := by
    cases r with
    | nil => exact ⟨rfl, rfl⟩
    | cons v r =>
      have hv : ¬isWord v = true := by rw [hr v rfl]; exact Bool.false_ne_true
      exact ⟨List.takeWhile_cons_of_neg hv, List.dropWhile_cons_of_neg hv⟩
  have htake : (u :: (w ++ r)).takeWhile isWord = u :: w := by
    rw [← List.cons_append, List.takeWhile_append_of_pos hword, hr'.1, List.append_nil]
  have hdrop : (u :: (w ++ r)).dropWhile isWord = r := by
    rw [← List.cons_append, List.dropWhile_append_of_pos hword, hr'.2]
  have htake' : (u :: w).takeWhile isWord = u :: w := by
    have h := @List.takeWhile_append_of_pos _ isWord (u :: w) [] hword
    rwa [List.append_nil, List.takeWhile_nil, List.append_nil] at h
  simp only [isWord, Bool.or_eq_true, Bool.and_eq_true, decide_eq_true_eq] at hu
  rw [List.cons_append, readValue, skip_cons (by omega)]
  dsimp only
  rw [if_neg (by omega), if_neg (by omega), if_neg (by omega), readWord, readWord, htake, hdrop,
    htake', Option.map_map]
  rfl

theorem readWord_write (n : N) : readWord (Number.write n) = some (.num n, []) := by
  have hunits := Number.write_units n
  have hword : ∀ u ∈ Number.write n, isWord u = true := by
    intro u hu
    have h := hunits u hu
    simp only [isWord, Bool.or_eq_true, Bool.and_eq_true, decide_eq_true_eq]
    omega
  have hall : (Number.write n).takeWhile isWord = Number.write n ∧
      (Number.write n).dropWhile isWord = [] := by
    have htake := @List.takeWhile_append_of_pos _ isWord (Number.write n) [] hword
    have hdrop := @List.dropWhile_append_of_pos _ isWord (Number.write n) [] hword
    rw [List.append_nil] at htake hdrop
    exact ⟨htake.trans (List.append_nil _), hdrop⟩
  -- no number has the letters of a literal
  have hne : ∀ u ∈ [0x6E, 0x74, 0x66], u ∉ Number.write n := by
    intro u hu hmem
    have h := hunits u hmem
    simp only [List.mem_cons, List.not_mem_nil, or_false] at hu
    omega
  have hliteral : ∀ {w : JsText} {u}, u ∈ [0x6E, 0x74, 0x66] → u ∈ w → Number.write n ≠ w := by
    rintro w u hu hw rfl
    exact hne u hu hw
  rw [readWord, hall.1, hall.2, if_neg (hliteral (u := 0x6E) (by simp) (by decide)),
    if_neg (hliteral (u := 0x74) (by simp) (by decide)),
    if_neg (hliteral (u := 0x66) (by simp) (by decide)), Number.read_write]
  rfl

theorem readKey_quote {key : JsText} {fuel : ℕ} (hfuel : (quote key).length < fuel) (r : JsText) :
    readKey fuel (quote key ++ 0x3A :: r) = some (key, r) := by
  have hlen : key.length < fuel := by
    have hle := length_escape key false
    rw [quote, List.length_cons, List.length_append] at hfuel
    omega
  have htext : quote key ++ 0x3A :: r = 0x22 :: (escape false key ++ 0x22 :: (0x3A :: r)) := by
    simp [quote]
  rw [htext, readKey, skip_cons (by decide)]
  dsimp only
  rw [if_pos rfl, readString_escape key _ hlen (fun h => absurd h Bool.false_ne_true),
    Option.bind_some]
  dsimp only
  rw [skip_cons (by decide)]
  rfl

mutual

/-- A value that is written is read again, up to its end. -/
theorem readValue_stringify : ∀ (x : Value N) {fuel : ℕ} {r : JsText},
    (stringify x).length < fuel → Delimited r → readValue fuel (stringify x ++ r) = some (x, r)
  | .null, fuel + 1, r, _, hr => by
    rw [stringify, readValue_word (by decide) (by decide) hr]
    rfl
  | .bool true, fuel + 1, r, _, hr => by
    rw [stringify, readValue_word (by decide) (by decide) hr]
    rfl
  | .bool false, fuel + 1, r, _, hr => by
    rw [stringify, readValue_word (by decide) (by decide) hr]
    rfl
  | .num n, fuel + 1, r, _, hr => by
    have hword : ∀ u ∈ Number.write n, isWord u = true := by
      intro u hu
      have h := Number.write_units n u hu
      simp only [isWord, Bool.or_eq_true, Bool.and_eq_true, decide_eq_true_eq]
      omega
    rw [stringify, readValue_word hword (Number.write_ne_nil n) hr, readWord_write]
    rfl
  | .str s, fuel + 1, r, hfuel, _ => by
    have hlen : s.length < fuel := by
      have hle := length_escape s false
      rw [stringify, quote, List.length_cons, List.length_append, List.length_singleton] at hfuel
      omega
    have htext : stringify (N := N) (.str s) ++ r = 0x22 :: (escape false s ++ 0x22 :: r) := by
      simp [stringify, quote]
    rw [htext, readValue, skip_cons (by decide)]
    dsimp only
    rw [if_pos rfl, readString_escape s r hlen (fun h => absurd h Bool.false_ne_true)]
    rfl
  | .arr [], fuel + 1, r, _, _ => by
    have htext : stringify (N := N) (.arr []) ++ r = 0x5B :: 0x5D :: r := by
      rw [stringify]
      rfl
    rw [htext, readValue, skip_cons (by decide)]
    dsimp only
    rw [if_neg (by decide), if_pos rfl, skip_cons (by decide)]
    rfl
  | .arr (x :: xs), fuel + 1, r, hfuel, _ => by
    obtain ⟨u, t, hhead, hspace, hend⟩ := stringify_head x
    have hskip : (skip (stringify x ++ stringifyElems xs ++ r)).head? ≠ some 0x5D := by
      rw [hhead, List.cons_append, List.cons_append, skip_cons hspace]
      exact fun h => hend (Option.some.inj h)
    rw [stringify, List.length_cons] at hfuel
    rw [stringify, List.cons_append, readValue, skip_cons (by decide)]
    dsimp only
    rw [if_neg (by decide), if_pos rfl, if_neg hskip,
      readElems_stringify xs (fun hlt hr => readValue_stringify x hlt hr)
        (Nat.lt_of_succ_lt_succ hfuel)]
    rfl
  | .obj [], fuel + 1, r, _, _ => by
    have htext : stringify (N := N) (.obj []) ++ r = 0x7B :: 0x7D :: r := by
      rw [stringify]
      rfl
    rw [htext, readValue, skip_cons (by decide)]
    dsimp only
    rw [if_neg (by decide), if_neg (by decide), if_pos rfl, skip_cons (by decide)]
    rfl
  | .obj ((key, x) :: fields), fuel + 1, r, hfuel, _ => by
    have hskip : (skip (quote key ++ 0x3A :: (stringify x ++ stringifyFields fields) ++ r)).head? ≠
        some 0x7D := by
      rw [quote, List.cons_append, List.cons_append, skip_cons (by decide)]
      exact fun h => absurd (Option.some.inj h) (by decide)
    rw [stringify, List.length_cons] at hfuel
    rw [stringify, List.cons_append, readValue, skip_cons (by decide)]
    dsimp only
    rw [if_neg (by decide), if_neg (by decide), if_pos rfl, if_neg hskip,
      readFields_stringify fields (fun hlt hr => readValue_stringify x hlt hr)
        (Nat.lt_of_succ_lt_succ hfuel)]
    rfl

theorem readElems_stringify : ∀ (xs : List (Value N)) {x : Value N},
    (∀ {fuel : ℕ} {r : JsText}, (stringify x).length < fuel → Delimited r →
      readValue fuel (stringify x ++ r) = some (x, r)) →
    ∀ {fuel : ℕ} {r : JsText}, (stringify x ++ stringifyElems xs).length < fuel →
      readElems fuel (stringify x ++ stringifyElems xs ++ r) = some (x :: xs, r)
  | [], x, hx, fuel + 1, r, hfuel => by
    rw [List.length_append, stringifyElems, List.length_singleton] at hfuel
    rw [stringifyElems, List.append_assoc, readElems, hx (by omega) (by simp [Delimited, isWord]),
      Option.bind_some]
    dsimp only
    rw [List.singleton_append, skip_cons (by decide)]
    dsimp only
    rw [if_neg (by decide), if_pos rfl]
  | y :: ys, x, hx, fuel + 1, r, hfuel => by
    rw [List.length_append, stringifyElems, List.length_cons] at hfuel
    rw [stringifyElems, List.append_assoc, readElems, hx (by omega) (by simp [Delimited, isWord]),
      Option.bind_some]
    dsimp only
    rw [List.cons_append, skip_cons (by decide)]
    dsimp only
    rw [if_pos rfl, readElems_stringify ys (fun hlt hr => readValue_stringify y hlt hr) (by omega)]
    rfl

theorem readFields_stringify : ∀ (fields : List (JsText × Value N)) {key : JsText} {x : Value N},
    (∀ {fuel : ℕ} {r : JsText}, (stringify x).length < fuel → Delimited r →
      readValue fuel (stringify x ++ r) = some (x, r)) →
    ∀ {fuel : ℕ} {r : JsText},
      (quote key ++ 0x3A :: (stringify x ++ stringifyFields fields)).length < fuel →
      readFields fuel (quote key ++ 0x3A :: (stringify x ++ stringifyFields fields) ++ r) =
        some ((key, x) :: fields, r)
  | [], key, x, hx, fuel + 1, r, hfuel => by
    rw [List.length_append, List.length_cons, List.length_append, stringifyFields,
      List.length_singleton] at hfuel
    rw [stringifyFields, List.append_assoc, List.cons_append, List.append_assoc, readFields,
      readKey_quote (by omega), Option.bind_some]
    dsimp only
    rw [hx (by omega) (by simp [Delimited, isWord]), Option.bind_some]
    dsimp only
    rw [List.singleton_append, skip_cons (by decide)]
    dsimp only
    rw [if_neg (by decide), if_pos rfl]
  | (key', y) :: fields, key, x, hx, fuel + 1, r, hfuel => by
    rw [List.length_append, List.length_cons, List.length_append, stringifyFields,
      List.length_cons] at hfuel
    rw [stringifyFields, List.append_assoc, List.cons_append, List.append_assoc, readFields,
      readKey_quote (by omega), Option.bind_some]
    dsimp only
    rw [hx (by omega) (by simp [Delimited, isWord]), Option.bind_some]
    dsimp only
    rw [List.cons_append, skip_cons (by decide)]
    dsimp only
    rw [if_pos rfl,
      readFields_stringify fields (fun hlt hr => readValue_stringify y hlt hr) (by omega)]
    rfl

end

theorem getLast?_stringifyFields (fields : List (JsText × Value N)) (l : JsText) :
    (l ++ stringifyFields fields).getLast? = some 0x7D := by
  induction fields generalizing l with
  | nil => rw [stringifyFields, List.getLast?_append_of_ne_nil _ (by simp)]; rfl
  | cons field fields ih =>
    have htext : l ++ stringifyFields (field :: fields) =
        (l ++ 0x2C :: (quote field.1 ++ 0x3A :: stringify field.2)) ++ stringifyFields fields := by
      simp [stringifyFields]
    rw [htext]
    exact ih _

/-- The text of an object stands between braces. -/
theorem stringify_obj (fields : List (JsText × Value N)) :
    (stringify (.obj fields)).head? = some 0x7B ∧
      (stringify (.obj fields)).getLast? = some 0x7D := by
  cases fields with
  | nil =>
    rw [stringify]
    exact ⟨rfl, rfl⟩
  | cons field fields =>
    have htext : stringify (.obj (field :: fields)) =
        (0x7B :: (quote field.1 ++ 0x3A :: stringify field.2)) ++ stringifyFields fields := by
      simp [stringify]
    rw [htext]
    exact ⟨rfl, getLast?_stringifyFields fields _⟩

/-- **What is written is read again**, whatever its texts are. -/
theorem parse_stringify (x : Value N) : parse (stringify x) = some x := by
  have h := readValue_stringify x (Nat.lt_succ_self _) (r := []) fun u hu => by cases hu
  rw [List.append_nil] at h
  rw [parse, h, Option.bind_some]
  rfl

theorem stringify_inj {x y : Value N} (h : stringify x = stringify y) : x = y := by
  have hparse := congrArg (parse (N := N)) h
  rw [parse_stringify, parse_stringify] at hparse
  exact Option.some.inj hparse

end

end JsonUnits
