import OneToThree.Lib.TextBytes

/-!
# Percent encoding

The bytes of a text, each as the character that it is, if that may stand for itself, or by two
hexadecimal digits after a percent sign. What is written is read again, whatever may stand for
itself, and one piece after the other.

* `decode_encode_append`: bytes that are written before something are read before it.
* `decodeText_encodeText`: a text that is written is read again.
* `decodeText_encodePath`: so is a path, whose segments are written on their own.
-/

namespace PercentText

open TextBytes

def hexDigit (n : ℕ) : Char := Char.ofNat (if n < 10 then 0x30 + n else 0x37 + n)

/-- A digit, in upper or lower case. -/
def hexValue (c : Char) : Option ℕ :=
  if 0x30 ≤ c.toNat ∧ c.toNat ≤ 0x39 then some (c.toNat - 0x30)
  else if 0x41 ≤ c.toNat ∧ c.toNat ≤ 0x46 then some (c.toNat - 0x37)
  else if 0x61 ≤ c.toNat ∧ c.toNat ≤ 0x66 then some (c.toNat - 0x57)
  else none

/-- `plain`: the bytes whose characters stand for themselves. -/
def encodeByte (plain : UInt8 → Bool) (b : UInt8) : List Char :=
  if plain b then [Char.ofNat b.toNat]
  else ['%', hexDigit (b.toNat / 16), hexDigit (b.toNat % 16)]

def encode (plain : UInt8 → Bool) (bytes : Bytes) : List Char := bytes.flatMap (encodeByte plain)

def decode : List Char → Option Bytes
  | [] => some []
  | '%' :: c :: d :: t => (hexValue c).bind fun m => (hexValue d).bind fun n =>
      (decode t).map (UInt8.ofNat (16 * m + n) :: ·)
  | c :: t => if c = '%' then none else (decode t).map (String.utf8EncodeChar c ++ ·)

/-- Characters of their own, other than the percent sign. -/
def IsPlain (plain : UInt8 → Bool) : Prop := ∀ b, plain b = true → b.toNat < 128 ∧ b.toNat ≠ 0x25

theorem hexValue_hexDigit : ∀ n < 16, hexValue (hexDigit n) = some n := by decide

theorem decode_percent (c d : Char) (t : List Char) :
    decode ('%' :: c :: d :: t) = (hexValue c).bind fun m => (hexValue d).bind fun n =>
      (decode t).map (UInt8.ofNat (16 * m + n) :: ·) := by
  rw [decode]

theorem decode_cons {c : Char} (hc : c ≠ '%') (t : List Char) :
    decode (c :: t) = (decode t).map (String.utf8EncodeChar c ++ ·) := by
  rw [decode, if_neg hc]
  intro a b l h
  exact absurd h hc

theorem utf8EncodeChar_ofNat :
    ∀ n < 128, String.utf8EncodeChar (Char.ofNat n) = [UInt8.ofNat n] := by decide

theorem toNat_ofNat : ∀ n < 128, (Char.ofNat n).toNat = n := by decide

theorem ofNat_ne_percent : ∀ n < 128, n ≠ 0x25 → Char.ofNat n ≠ '%' := by decide

variable {plain : UInt8 → Bool} (hplain : IsPlain plain)
include hplain

theorem decode_encodeByte_append (b : UInt8) (t : List Char) :
    decode (encodeByte plain b ++ t) = (decode t).map (b :: ·) := by
  unfold encodeByte
  split_ifs with hb
  · obtain ⟨hlt, hne⟩ := hplain b hb
    rw [List.singleton_append, decode_cons (ofNat_ne_percent _ hlt hne), utf8EncodeChar_ofNat _ hlt,
      UInt8.ofNat_toNat]
    rfl
  · have hlt : b.toNat < 256 := b.toNat_lt
    have hhigh : b.toNat / 16 < 16 := by omega
    have hlow : b.toNat % 16 < 16 := by omega
    rw [List.cons_append, List.cons_append, List.cons_append, List.nil_append, decode_percent,
      hexValue_hexDigit _ hhigh, hexValue_hexDigit _ hlow, Option.bind_some, Option.bind_some,
      Nat.div_add_mod, UInt8.ofNat_toNat]

/-- A character that does not stand for itself, and is neither the percent sign nor a digit, is not
    written. -/
theorem not_mem_encodeByte {c : Char} (hc : plain (UInt8.ofNat c.toNat) = false)
    (hpercent : c ≠ '%') (hdigit : ∀ n < 16, c ≠ hexDigit n) (b : UInt8) : c ∉ encodeByte plain b := by
  have hlt : b.toNat < 256 := b.toNat_lt
  unfold encodeByte
  split_ifs with hb
  · rw [List.mem_singleton]
    rintro rfl
    rw [toNat_ofNat _ (hplain b hb).1, UInt8.ofNat_toNat, hb] at hc
    exact Bool.false_ne_true hc.symm
  · rw [List.mem_cons, List.mem_cons, List.mem_singleton]
    rintro (h | h | h)
    · exact hpercent h
    · exact hdigit _ (by omega) h
    · exact hdigit _ (by omega) h

theorem decode_encode_append (bytes : Bytes) (t : List Char) :
    decode (encode plain bytes ++ t) = (decode t).map (bytes ++ ·) := by
  induction bytes with
  | nil => simp [encode]
  | cons b bytes ih =>
    rw [encode, List.flatMap_cons, List.append_assoc, decode_encodeByte_append hplain, ← encode, ih,
      Option.map_map]
    rfl

theorem decode_encode (bytes : Bytes) : decode (encode plain bytes) = some bytes := by
  have h := decode_encode_append hplain bytes []
  rw [List.append_nil] at h
  rw [h, decode, Option.map_some, List.append_nil]

omit hplain in
theorem not_mem_encode {c : Char} (h : ∀ b, c ∉ encodeByte plain b) (bytes : Bytes) :
    c ∉ encode plain bytes := by
  intro hc
  obtain ⟨b, -, hb⟩ := List.mem_flatMap.1 hc
  exact h b hb

/-! ## Texts -/

omit hplain in
theorem encodeText_ofList (l : List Char) :
    encodeText (String.ofList l) = l.flatMap String.utf8EncodeChar := by
  rw [encodeText, String.toByteArray_ofList, List.utf8Encode]
  exact congrArg Array.toList List.data_toByteArray

/-- `decodeURIComponent` -/
def decodeText (t : List Char) : Option String :=
  (decode t).bind fun bytes => String.fromUTF8? ⟨bytes.toArray⟩

omit hplain in
theorem decodeText_of_decode {t : List Char} {s : String} (h : decode t = some (encodeText s)) :
    decodeText t = some s := by
  have hbytes : (⟨(encodeText s).toArray⟩ : ByteArray) = s.toByteArray := by
    rw [encodeText, Array.toArray_toList]
  rw [decodeText, h, Option.bind_some, hbytes, String.fromUTF8?, dif_pos s.isValidUTF8]
  rfl

theorem decodeText_encodeText (s : String) :
    decodeText (encode plain (encodeText s)) = some s :=
  decodeText_of_decode (decode_encode hplain _)

/-! ## Paths -/

omit hplain in
/-- The segments of a path, each written on its own. -/
def encodePath (plain : UInt8 → Bool) (path : String) : List Char :=
  ['/'].intercalate ((path.toList.splitOn '/').map fun segment =>
    encode plain (encodeText (String.ofList segment)))

theorem decode_intercalate {segments : List (List Char)} (hne : segments ≠ []) :
    decode (['/'].intercalate (segments.map fun segment =>
      encode plain (encodeText (String.ofList segment)))) =
        some (encodeText (String.ofList (['/'].intercalate segments))) := by
  induction segments with
  | nil => exact absurd rfl hne
  | cons segment segments ih =>
    cases segments with
    | nil =>
      rw [List.map_singleton, List.intercalate_singleton, List.intercalate_singleton,
        decode_encode hplain]
    | cons next segments =>
      have ih := ih (List.cons_ne_nil next segments)
      rw [List.map_cons] at ih
      rw [List.map_cons, List.map_cons, List.intercalate_cons_cons, List.append_assoc,
        decode_encode_append hplain, List.singleton_append, decode_cons (by decide), ih,
        Option.map_some, Option.map_some, List.intercalate_cons_cons]
      simp only [encodeText_ofList, List.flatMap_append, List.flatMap_singleton, List.append_assoc]

theorem decodeText_encodePath (path : String) : decodeText (encodePath plain path) = some path := by
  refine decodeText_of_decode ?_
  rw [encodePath, decode_intercalate hplain (List.splitOn_ne_nil _ _), List.intercalate_splitOn,
    String.ofList_toList]

omit hplain in
/-- The separator is the only character of a path that its segments do not write. -/
theorem not_mem_encodePath {c : Char} (hc : c ≠ '/') (h : ∀ b, c ∉ encodeByte plain b)
    (path : String) : c ∉ encodePath plain path := by
  rw [encodePath]
  generalize path.toList.splitOn '/' = segments
  induction segments with
  | nil => exact List.not_mem_nil
  | cons segment segments ih =>
    cases segments with
    | nil =>
      rw [List.map_singleton, List.intercalate_singleton]
      exact not_mem_encode h _
    | cons next segments =>
      rw [List.map_cons] at ih
      rw [List.map_cons, List.map_cons, List.intercalate_cons_cons]
      intro hmem
      obtain hmem | hmem := List.mem_append.1 hmem
      · obtain hmem | hmem := List.mem_append.1 hmem
        · exact not_mem_encode h _ hmem
        · exact hc (List.mem_singleton.1 hmem)
      · exact ih hmem

end PercentText
