import Mathlib.Data.List.Basic

/-!
# Base64

The standard encoding of a byte string in base 64, with padding: three bytes are
four digits of six bits, and the last group is padded with `=`. It is injective
(`encode_injective`), so that an encoded byte string may serve as a key. The forgiving decoder takes
white space, and a text without its padding (`decode_encode`).
-/

namespace Base64

/-- The character code of the digit of value `n`: `A`-`Z`, `a`-`z`, `0`-`9`, `+`, `/`. -/
def code (n : ℕ) : ℕ :=
  if n < 26 then 65 + n else if n < 52 then 71 + n else if n < 62 then n - 4
  else if n = 62 then 43 else 47

/-- The digit of value `n`, for `n < 64`. -/
def digit (n : ℕ) : Char := Char.ofNat (code n)

/-- The encoding of a byte string. -/
def encode : List UInt8 → List Char
  | [] => []
  | [a] => [digit (a.toNat / 4), digit (a.toNat % 4 * 16), '=', '=']
  | [a, b] =>
    [digit (a.toNat / 4), digit (a.toNat % 4 * 16 + b.toNat / 16), digit (b.toNat % 16 * 4), '=']
  | a :: b :: c :: l =>
    digit (a.toNat / 4) :: digit (a.toNat % 4 * 16 + b.toNat / 16) ::
      digit (b.toNat % 16 * 4 + c.toNat / 64) :: digit (c.toNat % 64) :: encode l

theorem code_lt {n : ℕ} (hn : n < 64) : code n < 123 := by
  unfold code
  split_ifs <;> omega

theorem toNat_ofNat : ∀ c < 123, (Char.ofNat c).toNat = c := by decide

theorem toNat_digit {n : ℕ} (hn : n < 64) : (digit n).toNat = code n :=
  toNat_ofNat _ (code_lt hn)

theorem digit_inj {m n : ℕ} (hm : m < 64) (hn : n < 64) (h : digit m = digit n) : m = n := by
  have hc : code m = code n := by rw [← toNat_digit hm, ← toNat_digit hn, h]
  unfold code at hc
  split_ifs at hc <;> omega

theorem digit_ne_pad {n : ℕ} (hn : n < 64) : digit n ≠ '=' := by
  intro h
  have hc : code n = 61 := by rw [← toNat_digit hn, h]; rfl
  unfold code at hc
  split_ifs at hc <;> omega

theorem toNat_lt (a : UInt8) : a.toNat < 256 := a.toNat_lt

theorem byte_ext {a b : UInt8} (h : a.toNat = b.toNat) : a = b := UInt8.toNat_inj.1 h

/-- The first byte of a group is read off its first two digits. -/
theorem fst_eq {a a' : UInt8} {x y : ℕ} (hx : x < 16) (hy : y < 16)
    (h₁ : digit (a.toNat / 4) = digit (a'.toNat / 4))
    (h₂ : digit (a.toNat % 4 * 16 + x) = digit (a'.toNat % 4 * 16 + y)) : a = a' ∧ x = y := by
  have ha := toNat_lt a
  have ha' := toNat_lt a'
  have e₁ := digit_inj (by omega) (by omega) h₁
  have e₂ := digit_inj (by omega) (by omega) h₂
  exact ⟨byte_ext (by omega), by omega⟩

/-- The second byte of a group is read off its second and third digits. -/
theorem snd_eq {b b' : UInt8} {x y : ℕ} (hx : x < 4) (hy : y < 4)
    (h₁ : b.toNat / 16 = b'.toNat / 16)
    (h₂ : digit (b.toNat % 16 * 4 + x) = digit (b'.toNat % 16 * 4 + y)) : b = b' ∧ x = y := by
  have hb := toNat_lt b
  have hb' := toNat_lt b'
  have e₂ := digit_inj (by omega) (by omega) h₂
  exact ⟨byte_ext (by omega), by omega⟩

/-- Distinct byte strings have distinct encodings. -/
theorem encode_injective : Function.Injective encode := by
  intro l l' h
  induction l using encode.induct generalizing l' with
  | case1 =>
    match l' with
    | [] => rfl
    | [_] | [_, _] | _ :: _ :: _ :: _ => simp [encode] at h
  | case2 a =>
    have ha := toNat_lt a
    match l' with
    | [] => simp [encode] at h
    | [a'] =>
      simp only [encode, List.cons.injEq, and_true] at h
      rw [(fst_eq (x := 0) (y := 0) (by omega) (by omega) h.1 h.2).1]
    | [a', b'] =>
      simp only [encode, List.cons.injEq, and_true] at h
      exact absurd h.2.2.symm (digit_ne_pad (by omega))
    | a' :: b' :: c' :: l' =>
      have hc' := toNat_lt c'
      simp only [encode, List.cons.injEq] at h
      exact absurd h.2.2.1.symm (digit_ne_pad (by omega))
  | case3 a b =>
    have hb := toNat_lt b
    match l' with
    | [] => simp [encode] at h
    | [a'] =>
      simp only [encode, List.cons.injEq, and_true] at h
      exact absurd h.2.2 (digit_ne_pad (by omega))
    | [a', b'] =>
      have hb' := toNat_lt b'
      simp only [encode, List.cons.injEq, and_true] at h
      obtain ⟨rfl, e⟩ := fst_eq (by omega) (by omega) h.1 h.2.1
      rw [(snd_eq (x := 0) (y := 0) (by omega) (by omega) e h.2.2).1]
    | a' :: b' :: c' :: l' =>
      simp only [encode, List.cons.injEq] at h
      exact absurd h.2.2.2.1.symm (digit_ne_pad (by omega))
  | case4 a b c l ih =>
    have hb := toNat_lt b
    have hc := toNat_lt c
    match l' with
    | [] => simp [encode] at h
    | [a'] =>
      simp only [encode, List.cons.injEq] at h
      exact absurd h.2.2.1 (digit_ne_pad (by omega))
    | [a', b'] =>
      simp only [encode, List.cons.injEq] at h
      exact absurd h.2.2.2.1 (digit_ne_pad (by omega))
    | a' :: b' :: c' :: l' =>
      have hb' := toNat_lt b'
      have hc' := toNat_lt c'
      simp only [encode, List.cons.injEq] at h
      obtain ⟨h₁, h₂, h₃, h₄, hl⟩ := h
      obtain ⟨rfl, e⟩ := fst_eq (by omega) (by omega) h₁ h₂
      obtain ⟨rfl, e'⟩ := snd_eq (by omega) (by omega) e h₃
      have e₄ := digit_inj (by omega) (by omega) h₄
      have hcc : c = c' := byte_ext (by omega)
      rw [ih hl, hcc]

/-- The encoding as a string. -/
def encodeString (l : List UInt8) : String := String.ofList (encode l)

theorem encodeString_injective : Function.Injective encodeString :=
  fun _ _ h => encode_injective (String.ofList_injective h)

/-! ## Decoding -/

/-- The value of a digit. -/
def value (c : Char) : Option ℕ :=
  let n := c.toNat
  if 65 ≤ n ∧ n ≤ 90 then some (n - 65)
  else if 97 ≤ n ∧ n ≤ 122 then some (n - 71)
  else if 48 ≤ n ∧ n ≤ 57 then some (n + 4)
  else if n = 43 then some 62
  else if n = 47 then some 63
  else none

def isSpace (c : Char) : Bool :=
  c.toNat = 9 || c.toNat = 10 || c.toNat = 12 || c.toNat = 13 || c.toNat = 32

/-- Of a text of whole groups, the padding is taken off. -/
def stripPadding (cs : List Char) : List Char :=
  if cs.length % 4 = 0 then
    if cs.drop (cs.length - 2) = ['=', '='] then cs.take (cs.length - 2)
    else if cs.drop (cs.length - 1) = ['='] then cs.take (cs.length - 1)
    else cs
  else cs

/-- The bytes of whole groups, and of a last one of two or three digits. -/
def decodeDigits : List ℕ → Option (List UInt8)
  | [] => some []
  | [_] => none
  | [x, y] => some [UInt8.ofNat (x * 4 + y / 16)]
  | [x, y, z] => some [UInt8.ofNat (x * 4 + y / 16), UInt8.ofNat (y % 16 * 16 + z / 4)]
  | x :: y :: z :: w :: l => (decodeDigits l).map fun bytes =>
    UInt8.ofNat (x * 4 + y / 16) :: UInt8.ofNat (y % 16 * 16 + z / 4) ::
      UInt8.ofNat (z % 4 * 64 + w) :: bytes

def decode (cs : List Char) : Option (List UInt8) :=
  ((stripPadding (cs.filter (!isSpace ·))).mapM value).bind decodeDigits

theorem value_digit : ∀ n < 64, value (digit n) = some n := by decide

theorem not_isSpace_digit : ∀ n < 64, isSpace (digit n) = false := by decide

theorem mapM_value_digit {ds : List ℕ} (h : ∀ d ∈ ds, d < 64) :
    (ds.map digit).mapM value = some ds := by
  induction ds with
  | nil => rfl
  | cons d ds ih =>
    rw [List.map_cons, List.mapM_cons, value_digit d (h d List.mem_cons_self),
      ih fun e he => h e (List.mem_cons_of_mem _ he)]
    rfl

theorem ofNat_eq {a : UInt8} {n : ℕ} (h : n = a.toNat) : UInt8.ofNat n = a := by
  rw [h, UInt8.ofNat_toNat]

/-- An encoded text: the digits of its groups, and the padding that fills the last one. -/
theorem encode_digits (l : List UInt8) : ∃ ds k, encode l = ds.map digit ++ List.replicate k '=' ∧
    (∀ d ∈ ds, d < 64) ∧ decodeDigits ds = some l ∧ (ds.length + k) % 4 = 0 ∧ k ≤ 2 := by
  induction l using encode.induct with
  | case1 => exact ⟨[], 0, rfl, by simp, rfl, rfl, by omega⟩
  | case2 a =>
    have ha := toNat_lt a
    refine ⟨[a.toNat / 4, a.toNat % 4 * 16], 2, rfl, ?_, ?_, by simp, by omega⟩
    · simp only [List.mem_cons, List.not_mem_nil, or_false]
      omega
    · rw [decodeDigits, ofNat_eq (a := a) (by omega)]
  | case3 a b =>
    have ha := toNat_lt a
    have hb := toNat_lt b
    refine ⟨[a.toNat / 4, a.toNat % 4 * 16 + b.toNat / 16, b.toNat % 16 * 4], 1, rfl, ?_, ?_,
      by simp, by omega⟩
    · simp only [List.mem_cons, List.not_mem_nil, or_false]
      omega
    · rw [decodeDigits, ofNat_eq (a := a) (by omega), ofNat_eq (a := b) (by omega)]
  | case4 a b c l ih =>
    have ha := toNat_lt a
    have hb := toNat_lt b
    have hc := toNat_lt c
    obtain ⟨ds, k, hencode, hlt, hdecode, hlen, hk⟩ := ih
    refine ⟨a.toNat / 4 :: (a.toNat % 4 * 16 + b.toNat / 16) ::
      (b.toNat % 16 * 4 + c.toNat / 64) :: c.toNat % 64 :: ds, k, ?_, ?_, ?_, ?_, hk⟩
    · rw [encode, hencode]
      rfl
    · intro d hd
      simp only [List.mem_cons] at hd
      rcases hd with rfl | rfl | rfl | rfl | hd
      · omega
      · omega
      · omega
      · omega
      · exact hlt d hd
    · rw [decodeDigits, hdecode, Option.map_some, ofNat_eq (a := a) (by omega),
        ofNat_eq (a := b) (by omega), ofNat_eq (a := c) (by omega)]
    · simp only [List.length_cons]
      omega

/-- The padding is taken off whole. -/
theorem stripPadding_append {cs : List Char} {k : ℕ} (hcs : '=' ∉ cs) (hk : k ≤ 2)
    (hlen : (cs.length + k) % 4 = 0) : stripPadding (cs ++ List.replicate k '=') = cs := by
  have hlast : ∀ n, 0 < n → cs.drop (cs.length - n) ≠ List.replicate n '=' := by
    intro n hn heq
    have hmem : '=' ∈ cs.drop (cs.length - n) := heq ▸ List.mem_replicate.2 ⟨by omega, rfl⟩
    exact hcs (List.mem_of_mem_drop hmem)
  have hwhole : (cs ++ List.replicate k '=').length % 4 = 0 := by
    rw [List.length_append, List.length_replicate]
    exact hlen
  rw [stripPadding, if_pos hwhole]
  rcases (by omega : k = 0 ∨ k = 1 ∨ k = 2) with rfl | rfl | rfl
  · have htwo : cs.drop (cs.length - 2) ≠ ['=', '='] := hlast 2 (by omega)
    have hone : cs.drop (cs.length - 1) ≠ ['='] := hlast 1 (by omega)
    rw [List.replicate_zero, List.append_nil, if_neg htwo, if_neg hone]
  · have htwo : (cs ++ ['=']).drop ((cs ++ ['=']).length - 2) ≠ ['=', '='] := by
      intro heq
      rw [List.length_append, List.length_singleton, List.drop_append] at heq
      have hne : cs ≠ [] := by
        rintro rfl
        exact absurd hlen (by decide)
      have hpos := List.length_pos_of_ne_nil hne
      have hsub : cs.length + 1 - 2 - cs.length = 0 := by omega
      rw [hsub, List.drop_zero, show cs.length + 1 - 2 = cs.length - 1 by omega] at heq
      have hdrop : cs.drop (cs.length - 1) ++ ['='] = ['='] ++ ['='] := heq
      exact hlast 1 (by omega) (List.append_cancel_right hdrop)
    rw [List.replicate_one, if_neg htwo]
    simp
  · simp [List.replicate_succ]

theorem decode_encode (l : List UInt8) : decode (encode l) = some l := by
  obtain ⟨ds, k, hencode, hlt, hdecode, hlen, hk⟩ := encode_digits l
  have hspace : (encode l).filter (!isSpace ·) = encode l := by
    rw [List.filter_eq_self, hencode]
    intro c hc
    rcases List.mem_append.1 hc with hc | hc
    · obtain ⟨d, hd, rfl⟩ := List.mem_map.1 hc
      rw [not_isSpace_digit d (hlt d hd)]
      rfl
    · rw [(List.mem_replicate.1 hc).2]
      rfl
  have hpad : '=' ∉ ds.map digit := by
    intro hmem
    obtain ⟨d, hd, heq⟩ := List.mem_map.1 hmem
    exact digit_ne_pad (hlt d hd) heq
  have hstrip : stripPadding (encode l) = ds.map digit := by
    rw [hencode]
    exact stripPadding_append hpad hk (by rw [List.length_map]; exact hlen)
  rw [decode, hspace, hstrip, mapM_value_digit hlt]
  exact hdecode

end Base64
