import Mathlib.Data.Nat.Notation
import Mathlib.Logic.Basic
import Mathlib.Tactic.SplitIfs

/-!
# JSON values

The values that `JSON.parse` returns, with the conversions of the language that code
applies to them: `ToString`, `ToNumber`, `JSON.stringify`, property access, `??`.
The numbers are a parameter (`JsNumber`): the code has doubles, and what is proved here
holds for any of them.

Texts are read by their characters. `quote_append_inj` is the fact about
`JSON.stringify` that canonical texts rest on: a quoted text ends where its quotation
ends, so that a list of quoted texts determines each of them.
-/

/-- The numbers of the language. -/
class JsNumber (N : Type*) where
  ofNat : ℕ → N
  /-- The comparison `>=`, which no `NaN` satisfies. -/
  ge : N → N → Bool
  isFinite : N → Bool
  /-- Neither a zero nor `NaN`. -/
  isTruthy : N → Bool
  toText : N → String
  /-- `Number(text)`. -/
  ofText : String → N
  /-- Digits, letters, signs and points. -/
  toText_plain : ∀ n, ∀ c ∈ (toText n).toList, c ≠ '"' ∧ 0x20 ≤ c.toNat

/-- The natural numbers among them. -/
instance : JsNumber ℕ where
  ofNat n := n
  ge m n := n ≤ m
  isFinite _ := true
  isTruthy n := n ≠ 0
  toText n := n.repr
  ofText t := t.toNat!
  toText_plain n c hc := by
    rw [Nat.toList_repr] at hc
    have hdigit := Nat.isDigit_of_mem_toDigits (by decide) (by decide) hc
    rw [Char.isDigit_iff_toNat] at hdigit
    exact ⟨fun h => absurd hdigit.1 (by rw [h]; decide), Nat.le_trans (by decide) hdigit.1⟩

inductive Json (N : Type*)
  | null
  | bool (b : Bool)
  | num (n : N)
  | str (s : String)
  | arr (elems : List (Json N))
  | obj (fields : List (String × Json N))

namespace Json

variable {N : Type*}

/-- The property `key` of a value, where it has one of its own. -/
def get? (key : String) : Json N → Option (Json N)
  | .obj fields => fields.lookup key
  | _ => none

/-- `x ?? y`, where an absent `x` is `undefined`. -/
def orElse (x : Option (Json N)) (y : Json N) : Json N :=
  match x with
  | none | some .null => y
  | some x => x

theorem orElse_null_eq_str {x : Option (Json N)} {s : String} (h : orElse x .null = .str s) :
    x = some (.str s) := by
  match x, h with
  | some (.str t), h => exact congrArg some h

variable [JsNumber N]

mutual

/-- `String(x)`. -/
def toText : Json N → String
  | .null => "null"
  | .bool b => if b then "true" else "false"
  | .num n => JsNumber.toText n
  | .str s => s
  | .arr elems => ",".intercalate (elemTexts elems)
  | .obj _ => "[object Object]"

/-- The texts of the elements of an array, where `null` has the empty one. -/
def elemTexts : List (Json N) → List String
  | [] => []
  | x :: xs => (match x with | .null => "" | _ => toText x) :: elemTexts xs

end

/-- `String(x)`, where an absent `x` is `undefined`. -/
def textOf (x : Option (Json N)) : String := (x.map toText).getD "undefined"

/-- `x >= n`: the comparison of the primitive that `x` converts to. -/
def atLeast (x : Json N) (n : ℕ) : Bool :=
  JsNumber.ge (match x with
    | .null => JsNumber.ofNat 0
    | .bool b => JsNumber.ofNat (if b then 1 else 0)
    | .num m => m
    | .str _ | .arr _ | .obj _ => JsNumber.ofText x.toText) (JsNumber.ofNat n)

/-- `x === n`. -/
def isNumber [DecidableEq N] (x : Option (Json N)) (n : ℕ) : Bool :=
  match x with
  | some (.num m) => m = JsNumber.ofNat n
  | _ => false

/-- `x === s`. -/
def isText (x : Option (Json N)) (s : String) : Bool :=
  match x with
  | some (.str t) => t = s
  | _ => false

/-- Whether `x` counts as true, where an absent `x` is `undefined`. -/
def truthy : Option (Json N) → Bool
  | none | some .null => false
  | some (.bool b) => b
  | some (.num n) => JsNumber.isTruthy n
  | some (.str s) => s ≠ ""
  | some (.arr _) | some (.obj _) => true

/-! ## Stringification -/

def hexDigit (n : ℕ) : Char := "0123456789abcdef".toList.getD n '0'

/-- The characters with an escape of their own, and its letter. -/
def shortEscapes : List (Char × Char) :=
  [('\x08', 'b'), ('\t', 't'), ('\n', 'n'), ('\x0c', 'f'), ('\r', 'r'), ('"', '"'), ('\\', '\\')]

/-- One character of a quoted text. -/
def escape (c : Char) : List Char :=
  match shortEscapes.lookup c with
  | some letter => ['\\', letter]
  | none =>
    if c.toNat < 0x20 then
      ['\\', 'u', '0', '0', hexDigit (c.toNat / 16), hexDigit (c.toNat % 16)]
    else [c]

def quote (s : String) : String :=
  String.ofList ('"' :: s.toList.flatMap escape ++ ['"'])

mutual

/-- `JSON.stringify(x)`. -/
def stringify : Json N → String
  | .null => "null"
  | .bool b => if b then "true" else "false"
  | .num n => if JsNumber.isFinite n then JsNumber.toText n else "null"
  | .str s => quote s
  | .arr elems => "[" ++ ",".intercalate (stringifyElems elems) ++ "]"
  | .obj fields => "\x7b" ++ ",".intercalate (stringifyFields fields) ++ "\x7d"

def stringifyElems : List (Json N) → List String
  | [] => []
  | x :: xs => stringify x :: stringifyElems xs

def stringifyFields : List (String × Json N) → List String
  | [] => []
  | (key, x) :: xs => (quote key ++ ":" ++ stringify x) :: stringifyFields xs

end

/-! ## Quoted texts -/

/-- Reads back one character of a quoted text, up to the closing quotation mark. -/
def unescape : List Char → Option (Char × List Char)
  | '"' :: _ => none
  | '\\' :: 'u' :: '0' :: '0' :: a :: b :: r =>
    some (Char.ofNat (16 * hexValue a + hexValue b), r)
  | '\\' :: letter :: r => (shortEscapes.find? (·.2 = letter)).map fun p => (p.1, r)
  | c :: r => some (c, r)
  | [] => none
where
  hexValue (c : Char) : ℕ := "0123456789abcdef".toList.idxOf c

theorem hexValue_hexDigit : ∀ n < 16, unescape.hexValue (hexDigit n) = n := by decide

theorem shortEscapes_spec : ∀ p ∈ shortEscapes,
    shortEscapes.find? (·.2 = p.2) = some p ∧ p.2 ≠ 'u' ∧ 0x20 ≤ p.2.toNat := by decide

theorem mem_shortEscapes {c letter : Char} (h : shortEscapes.lookup c = some letter) :
    (c, letter) ∈ shortEscapes := by
  obtain ⟨l, r, hlr, -⟩ := List.lookup_eq_some_iff.1 h
  exact hlr ▸ List.mem_append_right l List.mem_cons_self

theorem unescape_escape (c : Char) (r : List Char) : unescape (escape c ++ r) = some (c, r) := by
  rw [escape]
  split
  next letter h =>
    obtain ⟨hfind, hu, -⟩ := shortEscapes_spec _ (mem_shortEscapes h)
    rw [List.cons_append, List.singleton_append, unescape.eq_def]
    split <;> grind
  next h =>
    split_ifs with hcontrol
    · have hhigh := hexValue_hexDigit (c.toNat / 16) (by omega)
      have hlow := hexValue_hexDigit (c.toNat % 16) (by omega)
      have hc : 16 * (c.toNat / 16) + c.toNat % 16 = c.toNat := by omega
      simp only [List.cons_append, List.nil_append, unescape, hhigh, hlow, hc, Char.ofNat_toNat]
    · rw [List.singleton_append, unescape.eq_def]
      split <;> simp_all [shortEscapes]

theorem flatMap_escape_append_inj {s t r r' : List Char}
    (h : s.flatMap escape ++ '"' :: r = t.flatMap escape ++ '"' :: r') : s = t ∧ r = r' := by
  induction s generalizing t with
  | nil =>
    cases t with
    | nil => simpa using h
    | cons d t =>
      -- The text of the left ends here, where that of the right goes on.
      have hread := congrArg unescape h
      rw [List.flatMap_cons, List.append_assoc, unescape_escape] at hread
      simp [unescape] at hread
  | cons c s ih =>
    have hread := congrArg unescape h
    rw [List.flatMap_cons, List.append_assoc, unescape_escape] at hread
    cases t with
    | nil => simp [unescape] at hread
    | cons d t =>
      rw [List.flatMap_cons, List.append_assoc, unescape_escape] at hread
      obtain ⟨rfl, hrest⟩ := Prod.mk.inj (Option.some.inj hread)
      obtain ⟨rfl, hr⟩ := ih hrest
      exact ⟨rfl, hr⟩

theorem toList_quote (s : String) : (quote s).toList = '"' :: (s.toList.flatMap escape ++ ['"']) := by
  rw [quote, String.toList_ofList, List.cons_append]

/-- A quoted text ends where its quotation ends. -/
theorem quote_append_inj {s t : String} {r r' : List Char}
    (h : (quote s).toList ++ r = (quote t).toList ++ r') : s = t ∧ r = r' := by
  rw [toList_quote, toList_quote, List.cons_append, List.cons_append, List.append_assoc,
    List.append_assoc, List.singleton_append, List.singleton_append] at h
  obtain ⟨hs, hr⟩ := flatMap_escape_append_inj (List.cons.inj h).2
  exact ⟨String.toList_inj.1 hs, hr⟩

theorem escape_printable {c d : Char} (h : d ∈ escape c) : 0x20 ≤ d.toNat := by
  have hhex : ∀ n < 16, 0x20 ≤ (hexDigit n).toNat := by decide
  rw [escape] at h
  split at h
  next letter hc =>
    simp only [List.mem_cons, List.not_mem_nil, or_false] at h
    rcases h with rfl | rfl
    · decide
    · exact (shortEscapes_spec _ (mem_shortEscapes hc)).2.2
  next =>
    split_ifs at h with hcontrol
    · simp only [List.mem_cons, List.not_mem_nil, or_false] at h
      rcases h with rfl | rfl | rfl | rfl | rfl | rfl
      iterate 4 decide
      · exact hhex _ (by omega)
      · exact hhex _ (by omega)
    · rw [List.mem_singleton.1 h]
      exact Nat.le_of_not_lt hcontrol

/-- No control character stands in a quoted text. -/
theorem quote_printable {s : String} {d : Char} (h : d ∈ (quote s).toList) : 0x20 ≤ d.toNat := by
  rw [toList_quote, List.mem_cons, List.mem_append, List.mem_flatMap, List.mem_singleton] at h
  rcases h with rfl | ⟨c, -, hd⟩ | rfl
  · decide
  · exact escape_printable hd
  · decide

theorem printable_of_all {s : String} (h : (s.toList.all fun c => decide (0x20 ≤ c.toNat)) = true)
    {c : Char} (hc : c ∈ s.toList) : 0x20 ≤ c.toNat :=
  of_decide_eq_true (List.all_eq_true.1 h c hc)

theorem mem_intercalate {sep : String} {ts : List String} {c : Char}
    (h : c ∈ (sep.intercalate ts).toList) : c ∈ sep.toList ∨ ∃ t ∈ ts, c ∈ t.toList := by
  rw [String.toList_intercalate] at h
  induction ts with
  | nil => exact nomatch h
  | cons t ts ih =>
    rcases ts.eq_nil_or_concat with rfl | ⟨_, _, hts⟩
    · exact .inr ⟨t, List.mem_cons_self, by simpa using h⟩
    · have hne : ts.map String.toList ≠ [] := by simp [hts]
      rw [List.map_cons, List.intercalate_cons_of_ne_nil hne, List.mem_append,
        List.mem_append] at h
      rcases h with (h | h) | h
      · exact .inr ⟨t, List.mem_cons_self, h⟩
      · exact .inl h
      · exact (ih h).imp id fun ⟨t', ht', hc⟩ => ⟨t', List.mem_cons_of_mem _ ht', hc⟩

mutual

/-- No control character stands in what a value is stringified as. -/
theorem stringify_printable : ∀ x : Json N, ∀ c ∈ x.stringify.toList, 0x20 ≤ c.toNat
  | .null => by
    rw [stringify]
    exact fun c hc => printable_of_all (by decide) hc
  | .bool true => by
    rw [stringify]
    exact fun c hc => printable_of_all (by decide) hc
  | .bool false => by
    rw [stringify]
    exact fun c hc => printable_of_all (by decide) hc
  | .num n => by
    rw [stringify]
    split_ifs
    · exact fun c hc => (JsNumber.toText_plain n c hc).2
    · exact fun c hc => printable_of_all (by decide) hc
  | .str s => fun c hc => quote_printable hc
  | .arr elems => by
    intro c hc
    rw [stringify, String.toList_append, String.toList_append, List.mem_append,
      List.mem_append] at hc
    rcases hc with (hc | hc) | hc
    · exact printable_of_all (by decide) hc
    · rcases mem_intercalate hc with hcomma | ⟨t, ht, hc⟩
      · exact printable_of_all (by decide) hcomma
      · exact stringifyElems_printable elems t ht c hc
    · exact printable_of_all (by decide) hc
  | .obj fields => by
    intro c hc
    rw [stringify, String.toList_append, String.toList_append, List.mem_append,
      List.mem_append] at hc
    rcases hc with (hc | hc) | hc
    · exact printable_of_all (by decide) hc
    · rcases mem_intercalate hc with hcomma | ⟨t, ht, hc⟩
      · exact printable_of_all (by decide) hcomma
      · exact stringifyFields_printable fields t ht c hc
    · exact printable_of_all (by decide) hc

theorem stringifyElems_printable : ∀ elems : List (Json N), ∀ t ∈ stringifyElems elems,
    ∀ c ∈ t.toList, 0x20 ≤ c.toNat
  | [] => fun t ht => nomatch ht
  | x :: xs => by
    rw [stringifyElems]
    exact List.forall_mem_cons.2 ⟨stringify_printable x, stringifyElems_printable xs⟩

theorem stringifyFields_printable : ∀ fields : List (String × Json N),
    ∀ t ∈ stringifyFields fields, ∀ c ∈ t.toList, 0x20 ≤ c.toNat
  | [] => fun t ht => nomatch ht
  | (key, x) :: xs => by
    rw [stringifyFields]
    refine List.forall_mem_cons.2 ⟨fun c hc => ?_, stringifyFields_printable xs⟩
    rw [String.toList_append, String.toList_append, List.mem_append, List.mem_append] at hc
    rcases hc with (hc | hc) | hc
    · exact quote_printable hc
    · exact printable_of_all (by decide) hc
    · exact stringify_printable x c hc

end

/-- The quoted texts are stringified from the texts alone. -/
theorem stringify_append_eq_quote {x : Json N} {s : String} {r r' : List Char}
    (hr : r.head? ≠ some '"') (h : x.stringify.toList ++ r = (quote s).toList ++ r') :
    x = .str s ∧ r = r' := by
  have hhead := congrArg List.head? h
  rw [toList_quote, List.cons_append, List.head?_cons] at hhead
  cases x with
  | null => simp [stringify] at hhead
  | bool b => cases b <;> simp [stringify] at hhead
  | num n =>
    rw [stringify] at hhead
    split_ifs at hhead
    · have hplain := JsNumber.toText_plain n
      cases htext : (JsNumber.toText n).toList with
      | nil => exact absurd (by simpa [htext] using hhead) hr
      | cons c l =>
        rw [htext] at hhead hplain
        exact absurd (by simpa using hhead) (hplain c List.mem_cons_self).1
    · simp at hhead
  | str t =>
    rw [stringify] at h
    obtain ⟨rfl, hrest⟩ := quote_append_inj h
    exact ⟨rfl, hrest⟩
  | arr elems => simp [stringify] at hhead
  | obj fields => simp [stringify] at hhead

/-- Among the objects with given keys, one whose values are texts is determined by what it
    is stringified as. -/
theorem fields_eq_of_stringify {keys : List String} {field : String → Json N}
    {text : String → String}
    (h : (obj (keys.map fun key => (key, field key))).stringify =
      (obj (keys.map fun key => (key, (str (text key) : Json N)))).stringify) :
    ∀ key ∈ keys, field key = .str (text key) := by
  have htext := congrArg String.toList h
  rw [stringify, stringify, String.toList_append, String.toList_append, String.toList_append,
    String.toList_append, List.append_assoc, List.append_assoc] at htext
  replace htext := List.append_cancel_left htext
  clear h
  induction keys with
  | nil => exact fun key hkey => nomatch hkey
  | cons key keys ih =>
    cases keys with
    | nil =>
      simp only [List.map_cons, List.map_nil, stringifyFields, String.toList_intercalate,
        List.intercalate_singleton, String.toList_append, List.append_assoc] at htext
      have hrest := List.append_cancel_left (List.append_cancel_left htext)
      rw [stringify] at hrest
      have hfield := (stringify_append_eq_quote (by decide) hrest).1
      simpa using hfield
    | cons key' keys =>
      simp only [List.map_cons, stringifyFields, String.toList_intercalate,
        List.intercalate_cons_cons, String.toList_append, List.append_assoc] at htext ih
      have hrest := List.append_cancel_left (List.append_cancel_left htext)
      rw [stringify] at hrest
      -- The comma after the value ends it, and the rest is the text of the other keys.
      obtain ⟨hfield, hrest⟩ := stringify_append_eq_quote (by simp) hrest
      exact List.forall_mem_cons.2 ⟨hfield, ih (List.append_cancel_left hrest)⟩

/-! ## Texts that parse

Of the grammar only this is used: a text that parses closes the quotations it opens, and
outside of them it has neither a backslash nor a bar. -/

/-- Reads a text, `inside` a quotation or not; `none` where it cannot be JSON. -/
def scan : (inside : Bool) → List Char → Option Bool
  | inside, [] => some inside
  | inside, c :: r =>
    if c = '"' then scan (!inside) r
    else if c = '\\' then
      match inside, r with
      | true, letter :: r => if letter = '|' then none else scan true r
      | _, _ => none
    else if c = '|' ∧ inside = false then none
    else scan inside r

/-- What every text that parses satisfies. -/
def Closed (t : String) : Prop := scan false t.toList = some false

instance (t : String) : Decidable (Closed t) := decEq (scan false t.toList) (some false)

theorem scan_quote (inside : Bool) (r : List Char) :
    scan inside ('"' :: r) = scan (!inside) r := by
  rw [scan.eq_def]
  rfl

theorem scan_false_escape (r : List Char) : scan false ('\\' :: r) = none := by
  simp [scan]

theorem scan_plain {inside : Bool} {c : Char} {r : List Char} (hquote : c ≠ '"')
    (hescape : c ≠ '\\') :
    scan inside (c :: r) = if c = '|' ∧ inside = false then none else scan inside r := by
  rw [scan.eq_def]
  simp [hquote, hescape]

/-- Of the two readings of a text only one has a quotation open at the end. -/
theorem scan_not {l : List Char} {inside b b' : Bool} (h : scan inside l = some b)
    (h' : scan (!inside) l = some b') : b' = !b := by
  induction l generalizing inside with
  | nil =>
    rw [scan, Option.some.injEq] at h h'
    rw [← h, h']
  | cons c l ih =>
    by_cases hquote : c = '"'
    · subst hquote
      rw [scan_quote] at h h'
      exact ih h h'
    · by_cases hescape : c = '\\'
      · -- One of the two readings is outside, where no backslash stands.
        subst hescape
        cases inside
        · exact nomatch (scan_false_escape l).symm.trans h
        · exact nomatch (scan_false_escape l).symm.trans h'
      · rw [scan_plain hquote hescape] at h h'
        split_ifs at h h'
        exact ih h h'

theorem scan_append_bar {inside : Bool} {l r : List Char}
    (h : scan inside (l ++ '|' :: r) = some false) : scan true r = some false := by
  fun_induction scan inside l with
  | case1 inside =>
    rw [List.nil_append, scan_plain (by decide) (by decide)] at h
    cases inside with
    | false => exact nomatch h
    | true => exact h
  | case2 inside l ih =>
    rw [List.cons_append, scan_quote] at h
    exact ih h
  | case3 l => simp [scan] at h
  | case4 letter l hletter _ ih => exact ih (by simpa [scan, hletter] using h)
  | case5 inside l hl =>
    cases inside with
    | false => simp [scan] at h
    | true =>
      cases l with
      | nil => simp [scan] at h
      | cons letter l => simp at hl
  | case6 inside c l hquote hescape hbar =>
    rw [List.cons_append, scan_plain hquote hescape, if_pos hbar] at h
    exact nomatch h
  | case7 inside c l hquote hescape hbar ih =>
    rw [List.cons_append, scan_plain hquote hescape, if_neg hbar] at h
    exact ih h

/-- What follows a bar in a text that parses does not parse. -/
theorem Closed.not_closed {t : String} {l r : List Char} (h : Closed t)
    (ht : t.toList = l ++ '|' :: r) : scan false r ≠ some false := by
  rw [Closed, ht] at h
  exact fun hr => nomatch scan_not hr (scan_append_bar h)

end Json
