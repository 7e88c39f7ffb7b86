import Mathlib.Data.List.Infix
import OneToThree.Lib.Json

/-!
# Searching a stringified value

Code looks into the text of a value, without parsing it, for a field with a given text. That finds
the field, and nothing else but fields whose key ends like the one that was looked for.

* `Json.tokens` are the tokens of what a value is stringified as, each quoted text as one.
* `infix_write`: in tokens of which no text is followed by a text, the search finds a key, the colon
  and a text.
* `infix_stringify`: the search finds just what `Json.hasField` says of the value.
-/

namespace List

/-- A list that avoids the element between two others stands in the one or in the other. -/
theorem infix_append_cons_iff {α : Type*} {p l r : List α} {a : α} (h : a ∉ p) :
    p <:+: l ++ a :: r ↔ p <:+: l ∨ p <:+: r := by
  constructor
  · rintro ⟨s, t, hst⟩
    rw [List.append_assoc] at hst
    rcases List.append_eq_append_iff.1 hst.symm with ⟨u, rfl, hu⟩ | ⟨u, rfl, hu⟩
    · cases u with
      | nil =>
        cases p with
        | nil => exact .inl (List.nil_infix)
        | cons b p => exact absurd (List.cons.inj hu).1 fun hab => h (hab ▸ List.mem_cons_self)
      | cons b u => exact .inr ⟨u, t, by rw [List.append_assoc]; exact ((List.cons.inj hu).2).symm⟩
    · rcases List.append_eq_append_iff.1 hu with ⟨v, rfl, -⟩ | ⟨v, rfl, hv⟩
      · exact .inl ⟨s, v, by rw [List.append_assoc]⟩
      · cases v with
        | nil => exact .inl ⟨s, [], by simp⟩
        | cons b v =>
          rw [← (List.cons.inj hv).1] at h
          exact absurd (List.mem_append_right u List.mem_cons_self) h
  · rintro (h | h)
    · exact h.trans (List.prefix_append l _).isInfix
    · exact h.trans ((List.suffix_cons a r).trans (List.suffix_append l _)).isInfix

end List

namespace Json

variable {N : Type*}

/-! ## Tokens -/

/-- A token of a text: a quoted text, or another character. -/
inductive Token
  | text (s : String)
  | char (c : Char)
  deriving DecidableEq

namespace Token

def write : Token → List Char
  | text s => (quote s).toList
  | char c => [c]

/-- The characters that may follow a quoted text. -/
def delimiters : List Char := [',', ':', ']', '\x7d']

/-- No quotation mark stands alone, and what follows a quoted text is a delimiter. -/
def Tidy : List Token → Prop
  | [] => True
  | char c :: l => c ≠ '"' ∧ Tidy l
  | text _ :: l => (∀ t, l.head? = some t → ∃ c ∈ delimiters, t = char c) ∧ Tidy l

theorem tidy_append {l l' : List Token} (h : Tidy l) (h' : Tidy l')
    (hhead : ∀ t, l'.head? = some t → ∃ c ∈ delimiters, t = char c) : Tidy (l ++ l') := by
  induction l with
  | nil => exact h'
  | cons t l ih =>
    cases t with
    | char c => exact ⟨h.1, ih h.2⟩
    | text s =>
      refine ⟨fun t ht => ?_, ih h.2⟩
      cases l with
      | nil => exact hhead t ht
      | cons u l => exact h.1 t ht

/-- A delimiter goes on. -/
theorem tidy_append_char {l l' : List Token} (h : Tidy l) {c : Char} (hc : c ∈ delimiters)
    (h' : Tidy l') : Tidy (l ++ char c :: l') := by
  have hquote : ∀ c ∈ delimiters, c ≠ '"' := by simp [delimiters]
  refine tidy_append h ⟨hquote c hc, h'⟩ fun t ht => ⟨c, hc, ?_⟩
  exact (Option.some.inj ht).symm

theorem tidy_chars {l : List Char} (h : ∀ c ∈ l, c ≠ '"') : Tidy (l.map char) := by
  induction l with
  | nil => trivial
  | cons c l ih =>
    exact ⟨h c List.mem_cons_self, ih fun d hd => h d (List.mem_cons_of_mem c hd)⟩

theorem flatMap_write_chars (l : List Char) : (l.map char).flatMap write = l := by
  induction l with
  | nil => rfl
  | cons c l ih => simpa [write] using ih

end Token

/-! ## The search in a text -/

/-- A text that is stringified as it is. -/
def Plain (s : String) : Prop := s.toList.flatMap escape = s.toList ∧ '"' ∉ s.toList ∧
  '\\' ∉ s.toList

instance (s : String) : Decidable (Plain s) := inferInstanceAs (Decidable (_ ∧ _))

/-- The text `"key":"value"`. -/
def pattern (key value : String) : List Char :=
  '"' :: (key.toList ++ '"' :: ':' :: '"' :: (value.toList ++ ['"']))

/-- In a quotation, a quotation mark comes after a backslash. -/
theorem escaped_quote {l p r : List Char} (h : l.flatMap escape = p ++ '"' :: r) :
    ∃ p', p = p' ++ ['\\'] := by
  induction l generalizing p with
  | nil => exact absurd h.symm (by simp)
  | cons c l ih =>
    rw [List.flatMap_cons] at h
    rcases List.append_eq_append_iff.1 h with ⟨u, rfl, hu⟩ | ⟨u, hc, hu⟩
    · obtain ⟨p', rfl⟩ := ih hu
      exact ⟨escape c ++ p', by rw [List.append_assoc]⟩
    · cases u with
      | nil =>
        obtain ⟨p', hp'⟩ := ih (p := []) hu.symm
        exact absurd hp' (by simp)
      | cons d u =>
        obtain rfl := (List.cons.inj hu).1
        -- the mark is one of the characters that `c` is written with
        rw [escape] at hc
        split at hc
        next letter hletter =>
          rcases p with _ | ⟨d, _ | ⟨d', p⟩⟩
          · exact absurd (List.cons.inj hc).1 (by decide)
          · exact ⟨[], by rw [← (List.cons.inj hc).1, List.nil_append]⟩
          · simp at hc
        next hlookup =>
          have hhex : ∀ n < 16, hexDigit n ≠ '"' := by decide
          split_ifs at hc with hcontrol
          · have hmem : '"' ∈ ['\\', 'u', '0', '0', hexDigit (c.toNat / 16),
                hexDigit (c.toNat % 16)] := hc ▸ List.mem_append_right p List.mem_cons_self
            simp only [List.mem_cons, List.not_mem_nil, or_false] at hmem
            rcases hmem with h | h | h | h | h | h
            iterate 4 exact absurd h (by decide)
            · exact absurd h.symm (hhex _ (by omega))
            · exact absurd h.symm (hhex _ (by omega))
          · have hmem : '"' ∈ [c] := hc ▸ List.mem_append_right p List.mem_cons_self
            obtain rfl := List.mem_singleton.1 hmem
            exact absurd hlookup (by decide)

/-- Whether the key ends like this in its quotation, up to the opening mark of a quotation. -/
def endsIn (key s : String) : Bool :=
  ('"' :: key.toList).isSuffixOf ('"' :: s.toList.flatMap escape)

open Token

/-- A match that begins in a quotation ends it: the key is the end of the quotation, and what
    follows is the colon and the text. -/
theorem isPrefix_of_inside {key value s : String} {a d : List Char} {l : List Token}
    (hkey : Plain key) (hne : key ≠ "") (hvalue : Plain value) (hl : Tidy (text s :: l))
    (hd : '"' :: s.toList.flatMap escape = a ++ d) (hd' : d ≠ [])
    (h : pattern key value <+: d ++ '"' :: l.flatMap write) :
    endsIn key s ∧ [char ':', text value] <+: l := by
  obtain ⟨b, hb⟩ := h
  rw [pattern, List.cons_append, List.append_assoc, List.cons_append] at hb
  cases d with
  | nil => exact absurd rfl hd'
  | cons c d =>
  rw [List.cons_append] at hb
  obtain ⟨rfl, hbody⟩ := List.cons.inj hb
  -- the second mark of the pattern is the one that ends the quotation
  have hend : d = key.toList ∧ l.flatMap write = ':' :: '"' :: (value.toList ++ ['"']) ++ b := by
    rcases List.append_eq_append_iff.1 hbody with ⟨u, rfl, hu⟩ | ⟨u, hkey', hu⟩
    · cases u with
      | nil => exact ⟨by simp, (List.cons.inj hu).2.symm⟩
      | cons c u =>
        obtain ⟨rfl, -⟩ := List.cons.inj hu
        obtain ⟨k, c, hk⟩ := (List.eq_nil_or_concat key.toList).resolve_left
          fun h => hne (String.toList_inj.1 h)
        rw [List.concat_eq_append] at hk
        have hescape : ∃ p, s.toList.flatMap escape = p ++ c :: '"' :: u := by
          rw [hk] at hd
          cases a with
          | nil => exact ⟨k, by simpa using (List.cons.inj hd).2⟩
          | cons e a => exact ⟨a ++ '"' :: k, by simpa using (List.cons.inj hd).2⟩
        obtain ⟨p, hp⟩ := hescape
        rw [List.append_cons] at hp
        obtain ⟨p', hp'⟩ := escaped_quote hp
        have hc : c = '\\' := by simpa using (List.append_inj' hp' rfl).2
        exact absurd (hk ▸ List.mem_append_right k (hc ▸ List.mem_singleton_self c)) hkey.2.2
    · cases u with
      | nil => exact ⟨by simpa using hkey'.symm, (List.cons.inj hu).2⟩
      | cons c u =>
        obtain ⟨rfl, -⟩ := List.cons.inj hu
        exact absurd (hkey' ▸ List.mem_append_right d List.mem_cons_self) hkey.2.1
  obtain ⟨rfl, hrest⟩ := hend
  refine ⟨List.isSuffixOf_iff_suffix.2 ⟨a, hd.symm⟩, ?_⟩
  cases l with
  | nil => simp at hrest
  | cons t l =>
    cases t with
    | text t => simp [write, toList_quote] at hrest
    | char c =>
      rw [List.flatMap_cons, write, List.singleton_append, List.cons_append] at hrest
      obtain ⟨rfl, htext⟩ := List.cons.inj hrest
      cases l with
      | nil => simp at htext
      | cons t l =>
        cases t with
        | char c =>
          rw [List.flatMap_cons, write, List.singleton_append, List.cons_append] at htext
          exact absurd (List.cons.inj htext).1 hl.2.2.1
        | text t =>
          rw [List.flatMap_cons, write, toList_quote, List.cons_append, List.cons_append,
            List.append_assoc, List.append_assoc, List.singleton_append,
            List.singleton_append] at htext
          have hquote := (List.cons.inj htext).2
          rw [← hvalue.1] at hquote
          obtain ⟨ht, -⟩ := flatMap_escape_append_inj hquote
          rw [String.toList_inj.1 ht]
          exact ⟨l, rfl⟩

/-- The tokens that the pattern is looked for in begin with no delimiter. -/
def Name (key : String) : Prop := ∃ c l, key.toList = c :: l ∧ c ∉ delimiters

/-- No match begins at the mark that ends a quotation. -/
theorem not_closing {key value s : String} {l : List Token} (hname : Name key)
    (hl : Tidy (text s :: l)) (b : List Char) :
    pattern key value ++ b ≠ '"' :: l.flatMap write := by
  intro h
  obtain ⟨first, rest, hfirst, hdelimiter⟩ := hname
  rw [pattern, hfirst, List.cons_append, List.cons_append, List.cons_append] at h
  have hrest := (List.cons.inj h).2
  cases l with
  | nil => exact absurd hrest (List.cons_ne_nil _ _)
  | cons t l =>
    obtain ⟨c, hc, rfl⟩ := hl.1 t rfl
    exact hdelimiter ((List.cons.inj hrest).1 ▸ hc)

/-- The search finds a key that ends like the one looked for, a colon, and the text. -/
theorem infix_write {key value : String} (hkey : Plain key) (hname : Name key)
    (hvalue : Plain value) {l : List Token} (hl : Tidy l) :
    pattern key value <:+: l.flatMap write ↔
      ∃ s, endsIn key s ∧ [text s, char ':', text value] <:+: l := by
  have hne : key ≠ "" := by
    rintro rfl
    obtain ⟨_, _, hfirst, -⟩ := hname
    exact absurd hfirst (by simp)
  constructor
  · intro h
    induction l with
    | nil => exact absurd (List.infix_nil.1 h) (by simp [pattern])
    | cons t l ih =>
      cases t with
      | char c =>
        rw [List.flatMap_cons, write, List.singleton_append, List.infix_cons_iff] at h
        rcases h with h | h
        · exact absurd (List.cons_prefix_cons.1 h).1.symm hl.1
        · obtain ⟨s, hs, hin⟩ := ih hl.2 h
          exact ⟨s, hs, List.infix_cons hin⟩
      | text s =>
        obtain ⟨a, b, hab⟩ := h
        have hwrite : (text s :: l).flatMap write =
            '"' :: s.toList.flatMap escape ++ '"' :: l.flatMap write := by
          simp [write, toList_quote]
        rw [hwrite, List.append_assoc] at hab
        rcases List.append_eq_append_iff.1 hab with ⟨d, hd, hp⟩ | ⟨u, rfl, hu⟩
        · cases d with
          | nil => exact absurd hp (not_closing hname hl b)
          | cons c d =>
            obtain ⟨hs, r, hr⟩ := isPrefix_of_inside hkey hne hvalue hl hd (List.cons_ne_nil c d)
              ⟨b, hp⟩
            exact ⟨s, hs, [], r, by rw [List.nil_append, ← hr]; rfl⟩
        · cases u with
          | nil => exact absurd hu.symm (not_closing hname hl b)
          | cons c u =>
            obtain ⟨t, ht, hin⟩ := ih hl.2 ⟨u, b, by
              rw [List.append_assoc]; exact (List.cons.inj hu).2.symm⟩
            exact ⟨t, ht, List.infix_cons hin⟩
  · rintro ⟨s, hs, a, b, rfl⟩
    obtain ⟨a', ha'⟩ := List.isSuffixOf_iff_suffix.1 hs
    have hquote : (quote s).toList = a' ++ '"' :: (key.toList ++ ['"']) := by
      rw [toList_quote, ← List.cons_append, ← ha', List.append_assoc, List.cons_append]
    have hquote' : (quote value).toList = '"' :: (value.toList ++ ['"']) := by
      rw [toList_quote, hvalue.1]
    refine ⟨a.flatMap write ++ a', b.flatMap write, ?_⟩
    simp [pattern, hquote, hquote', write]

/-! ## The tokens of a value -/

variable [JsNumber N]

open Token

mutual

/-- What a value is stringified as. -/
def tokens : Json N → List Token
  | .null => "null".toList.map char
  | .bool b => (if b then "true" else "false").toList.map char
  | .num n => (if JsNumber.isFinite n then JsNumber.toText n else "null").toList.map char
  | .str s => [text s]
  | .arr [] => [char '[', char ']']
  | .arr (x :: xs) => char '[' :: (tokens x ++ restTokens xs)
  | .obj [] => [char '\x7b', char '\x7d']
  | .obj ((key, x) :: fields) =>
    char '\x7b' :: text key :: char ':' :: (tokens x ++ restFieldTokens fields)

/-- The elements of an array behind the first. -/
def restTokens : List (Json N) → List Token
  | [] => [char ']']
  | x :: xs => char ',' :: (tokens x ++ restTokens xs)

/-- The fields of an object behind the first. -/
def restFieldTokens : List (String × Json N) → List Token
  | [] => [char '\x7d']
  | (key, x) :: fields => char ',' :: text key :: char ':' :: (tokens x ++ restFieldTokens fields)

end

theorem toList_intercalate_cons (t : String) (ts : List String) :
    (",".intercalate (t :: ts)).toList = t.toList ++ ts.flatMap fun t => ',' :: t.toList := by
  induction ts generalizing t with
  | nil => simp
  | cons u ts ih =>
    specialize ih u
    rw [String.toList_intercalate] at ih ⊢
    rw [List.map_cons, List.map_cons, List.intercalate_cons_cons, ← List.map_cons, ih]
    simp

mutual

theorem toList_stringify : ∀ x : Json N, x.stringify.toList = x.tokens.flatMap write
  | .null => by rw [stringify, tokens, flatMap_write_chars]
  | .bool b => by rw [stringify, tokens, flatMap_write_chars]
  | .num n => by rw [stringify, tokens, flatMap_write_chars]
  | .str s => by rw [stringify, tokens, List.flatMap_singleton, write]
  | .arr [] => by simp [stringify, tokens, stringifyElems, write]
  | .arr (x :: xs) => by
    rw [stringify, stringifyElems, String.toList_append, String.toList_append,
      toList_intercalate_cons, tokens, List.flatMap_cons, List.flatMap_append,
      ← toList_stringify x, ← toList_restTokens xs]
    simp [write]
  | .obj [] => by simp [stringify, tokens, stringifyFields, write]
  | .obj ((key, x) :: fields) => by
    rw [stringify, stringifyFields, String.toList_append, String.toList_append,
      toList_intercalate_cons, tokens, List.flatMap_cons, List.flatMap_cons, List.flatMap_cons,
      List.flatMap_append, ← toList_stringify x, ← toList_restFieldTokens fields]
    simp [write]

theorem toList_restTokens : ∀ xs : List (Json N),
    (stringifyElems xs).flatMap (fun t => ',' :: t.toList) ++ [']'] = (restTokens xs).flatMap write
  | [] => by simp [stringifyElems, restTokens, write]
  | x :: xs => by
    rw [stringifyElems, List.flatMap_cons, restTokens, List.flatMap_cons, List.flatMap_append,
      ← toList_stringify x, ← toList_restTokens xs]
    simp [write]

theorem toList_restFieldTokens : ∀ fields : List (String × Json N),
    (stringifyFields fields).flatMap (fun t => ',' :: t.toList) ++ ['\x7d'] =
      (restFieldTokens fields).flatMap write
  | [] => by simp [stringifyFields, restFieldTokens, write]
  | (key, x) :: fields => by
    rw [stringifyFields, List.flatMap_cons, restFieldTokens, List.flatMap_cons, List.flatMap_cons,
      List.flatMap_cons, List.flatMap_append, ← toList_stringify x,
      ← toList_restFieldTokens fields]
    simp [write]

end

/-- The rest begins with a delimiter, which is no colon. -/
def Delimited (l : List Token) : Prop := ∃ c ∈ delimiters, c ≠ ':' ∧ ∃ r, l = char c :: r

theorem delimited_restTokens (xs : List (Json N)) : Delimited (restTokens xs) := by
  cases xs with
  | nil => exact ⟨']', by decide, by decide, [], rfl⟩
  | cons x xs => exact ⟨',', by decide, by decide, _, rfl⟩

theorem delimited_restFieldTokens (fields : List (String × Json N)) :
    Delimited (restFieldTokens fields) := by
  rcases fields with _ | ⟨⟨key, x⟩, fields⟩
  · exact ⟨'\x7d', by decide, by decide, [], rfl⟩
  · exact ⟨',', by decide, by decide, _, rfl⟩

theorem Delimited.tidy_append {l l' : List Token} (hl' : Delimited l') (h : Tidy l)
    (h' : Tidy l') : Tidy (l ++ l') := by
  obtain ⟨c, hc, -, r, rfl⟩ := hl'
  exact tidy_append_char h hc h'.2

theorem tidy_key (key : String) {l : List Token} (h : Tidy l) :
    Tidy (text key :: char ':' :: l) :=
  ⟨fun _ ht => ⟨':', by decide, (Option.some.inj ht).symm⟩, by decide, h⟩

mutual

theorem tidy_tokens : ∀ x : Json N, Tidy x.tokens
  | .null => by rw [tokens]; exact tidy_chars (by simp)
  | .bool true => by rw [tokens]; exact tidy_chars (by simp)
  | .bool false => by rw [tokens]; exact tidy_chars (by simp)
  | .num n => by
    rw [tokens]
    refine tidy_chars fun c hc => ?_
    split_ifs at hc with hfinite
    · exact (JsNumber.toText_plain n c hc).1
    · revert c
      simp
  | .str s => by
    rw [tokens]
    exact ⟨fun t ht => absurd ht.symm (Option.some_ne_none t), trivial⟩
  | .arr [] => by
    rw [tokens]
    exact ⟨by decide, by decide, trivial⟩
  | .arr (x :: xs) => by
    rw [tokens]
    exact ⟨by decide, (delimited_restTokens xs).tidy_append (tidy_tokens x) (tidy_restTokens xs)⟩
  | .obj [] => by
    rw [tokens]
    exact ⟨by decide, by decide, trivial⟩
  | .obj ((key, x) :: fields) => by
    rw [tokens]
    exact ⟨by decide, tidy_key key ((delimited_restFieldTokens fields).tidy_append (tidy_tokens x)
      (tidy_restFieldTokens fields))⟩

theorem tidy_restTokens : ∀ xs : List (Json N), Tidy (restTokens xs)
  | [] => ⟨by decide, trivial⟩
  | x :: xs => by
    rw [restTokens]
    exact ⟨by decide, (delimited_restTokens xs).tidy_append (tidy_tokens x) (tidy_restTokens xs)⟩

theorem tidy_restFieldTokens : ∀ fields : List (String × Json N), Tidy (restFieldTokens fields)
  | [] => ⟨by decide, trivial⟩
  | (key, x) :: fields => by
    rw [restFieldTokens]
    exact ⟨by decide, tidy_key key ((delimited_restFieldTokens fields).tidy_append (tidy_tokens x)
      (tidy_restFieldTokens fields))⟩

end

/-! ## Fields -/

mutual

/-- Whether a value has, at any depth, a field of such a key with this text. -/
def hasField (key : String → Bool) (value : String) : Json N → Bool
  | .arr xs => elemsHaveField key value xs
  | .obj fields => fieldsHave key value fields
  | .null | .bool _ | .num _ | .str _ => false

def elemsHaveField (key : String → Bool) (value : String) : List (Json N) → Bool
  | [] => false
  | x :: xs => hasField key value x || elemsHaveField key value xs

def fieldsHave (key : String → Bool) (value : String) : List (String × Json N) → Bool
  | [] => false
  | (k, x) :: fields =>
    (key k && isText (some x) value) || hasField key value x || fieldsHave key value fields

end

variable {key : String → Bool} {value : String}

/-- Such a key, a colon and this text stand in the tokens. -/
def Found (key : String → Bool) (value : String) (l : List Token) : Prop :=
  ∃ s, key s ∧ [text s, char ':', text value] <:+: l

theorem found_char {c : Char} {l : List Token} :
    Found key value (char c :: l) ↔ Found key value l := by
  simp [Found, List.infix_cons_iff]

theorem found_key {k : String} {l : List Token} :
    Found key value (text k :: char ':' :: l) ↔
      (key k ∧ [text value] <+: l) ∨ Found key value l := by
  simp only [Found, List.infix_cons_iff, List.cons_prefix_cons, Token.text.injEq, true_and,
    reduceCtorEq, false_and, false_or]
  constructor
  · rintro ⟨s, hs, ⟨rfl, h⟩ | h⟩
    · exact .inl ⟨hs, h⟩
    · exact .inr ⟨s, hs, h⟩
  · rintro (⟨hk, h⟩ | ⟨s, hs, h⟩)
    · exact ⟨k, hk, .inl ⟨rfl, h⟩⟩
    · exact ⟨s, hs, .inr h⟩

theorem Delimited.found_append {l l' : List Token} (h : Delimited l') :
    Found key value (l ++ l') ↔ Found key value l ∨ Found key value l' := by
  obtain ⟨c, -, hcolon, r, rfl⟩ := h
  have hnot : ∀ s, char c ∉ [text s, char ':', text value] := fun s => by simp [hcolon]
  simp only [Found, List.infix_append_cons_iff (hnot _), List.infix_cons_iff,
    List.cons_prefix_cons, reduceCtorEq, false_and, false_or, and_or_left, exists_or]

theorem not_found_chars (l : List Char) : ¬Found key value (l.map char) := by
  rintro ⟨s, -, h⟩
  have := h.subset (List.mem_cons_self (a := text s))
  simp at this

theorem Delimited.not_prefix {l : List Token} (h : Delimited l) (cs : List Char) :
    ¬[text value] <+: cs.map char ++ l := by
  obtain ⟨c, -, -, r, rfl⟩ := h
  cases cs <;> simp

/-- The value of a field is this text. -/
theorem Delimited.prefix_tokens {l : List Token} (h : Delimited l) (x : Json N) :
    [text value] <+: x.tokens ++ l ↔ isText (some x) value = true := by
  cases x with
  | null => exact iff_of_false (by rw [tokens]; exact h.not_prefix _) Bool.false_ne_true
  | bool b => exact iff_of_false (by rw [tokens]; exact h.not_prefix _) Bool.false_ne_true
  | num n => exact iff_of_false (by rw [tokens]; exact h.not_prefix _) Bool.false_ne_true
  | str s => simp [tokens, isText, eq_comm]
  | arr xs => cases xs <;> simp [tokens, isText]
  | obj fields => rcases fields with _ | ⟨⟨key, x⟩, fields⟩ <;> simp [tokens, isText]

theorem not_found_nil : ¬Found key value [] := not_found_chars []

mutual

theorem found_tokens : ∀ x : Json N, Found key value x.tokens ↔ hasField key value x = true
  | .null => by rw [tokens]; exact iff_of_false (not_found_chars _) (by simp [hasField])
  | .bool b => by rw [tokens]; exact iff_of_false (not_found_chars _) (by simp [hasField])
  | .num n => by rw [tokens]; exact iff_of_false (not_found_chars _) (by simp [hasField])
  | .str s => by
    rw [tokens]
    refine iff_of_false ?_ (by simp [hasField])
    rintro ⟨t, -, h⟩
    exact absurd h.length_le (by simp)
  | .arr [] => by
    rw [tokens, found_char, found_char]
    exact iff_of_false not_found_nil (by simp [hasField, elemsHaveField])
  | .arr (x :: xs) => by
    rw [tokens, found_char, (delimited_restTokens xs).found_append, found_tokens x,
      found_restTokens xs, hasField, elemsHaveField, Bool.or_eq_true]
  | .obj [] => by
    rw [tokens, found_char, found_char]
    exact iff_of_false not_found_nil (by simp [hasField, fieldsHave])
  | .obj ((k, x) :: fields) => by
    have h := delimited_restFieldTokens fields
    rw [tokens, found_char, found_key, h.prefix_tokens, h.found_append, found_tokens x,
      found_restFieldTokens fields, hasField, fieldsHave, Bool.or_eq_true, Bool.or_eq_true,
      Bool.and_eq_true, or_assoc]

theorem found_restTokens : ∀ xs : List (Json N),
    Found key value (restTokens xs) ↔ elemsHaveField key value xs = true
  | [] => by
    rw [restTokens, found_char]
    exact iff_of_false not_found_nil (by simp [elemsHaveField])
  | x :: xs => by
    rw [restTokens, found_char, (delimited_restTokens xs).found_append, found_tokens x,
      found_restTokens xs, elemsHaveField, Bool.or_eq_true]

theorem found_restFieldTokens : ∀ fields : List (String × Json N),
    Found key value (restFieldTokens fields) ↔ fieldsHave key value fields = true
  | [] => by
    rw [restFieldTokens, found_char]
    exact iff_of_false not_found_nil (by simp [fieldsHave])
  | (k, x) :: fields => by
    have h := delimited_restFieldTokens fields
    rw [restFieldTokens, found_char, found_key, h.prefix_tokens, h.found_append, found_tokens x,
      found_restFieldTokens fields, fieldsHave, Bool.or_eq_true, Bool.or_eq_true,
      Bool.and_eq_true, or_assoc]

end

/-- The search for a field in the text of a value finds it where the value has one, of a key
    that ends like this. -/
theorem infix_stringify {key value : String} (hkey : Plain key) (hname : Name key)
    (hvalue : Plain value) (x : Json N) :
    pattern key value <:+: x.stringify.toList ↔ hasField (endsIn key) value x = true := by
  rw [toList_stringify, infix_write hkey hname hvalue (tidy_tokens x)]
  exact found_tokens x

end Json
