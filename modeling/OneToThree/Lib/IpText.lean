import Mathlib.Data.List.Basic
import Mathlib.Data.Nat.Notation

/-!
# Texts of IP addresses

An IPv4 address is written as four decimal numbers without leading zeros (`ipv4`), an IPv6
address as eight groups of one to four hexadecimal digits of either case, with `::` for a run
of groups that are zero, the last two groups possibly as an IPv4 address, and possibly a zone
after a percent sign (`ipv6`). A text that is read has one value, and an IPv6 address has many
texts.

* The first word of a text of an IPv6 address is the first group, or the text starts with `::`
  and the first group is zero (`ipv6_cases`).
* The text of eight words is an address (`ipv6_intercalate`), as is the text of an IPv4-mapped
  address (`ipv6_mapped`).
-/

namespace IpText

/-! ## Digits -/

/-- The value of a hexadecimal digit. -/
def hexDigit (c : Char) : Option ℕ :=
  if '0' ≤ c ∧ c ≤ '9' then some (c.toNat - 48)
  else if 'a' ≤ c ∧ c ≤ 'f' then some (c.toNat - 87)
  else if 'A' ≤ c ∧ c ≤ 'F' then some (c.toNat - 55)
  else none

/-- The digit of a value, in lower case. -/
def hexChar (d : ℕ) : Char := Char.ofNat (if d < 10 then 48 + d else 87 + d)

/-- The digits of a word, if all of its characters are. -/
def hexDigits : List Char → Option (List ℕ)
  | [] => some []
  | c :: cs => (hexDigit c).bind fun d => (hexDigits cs).map fun ds => d :: ds

/-- The number with these digits. -/
def hexValue (ds : List ℕ) : ℕ := ds.foldl (fun n d => 16 * n + d) 0

/-- The group that a word is: one to four digits. -/
def hexGroup (w : List Char) : Option ℕ :=
  if 1 ≤ w.length ∧ w.length ≤ 4 then (hexDigits w).map hexValue else none

/-- The number with these decimal digits. -/
def decimal (w : List Char) : ℕ := w.foldl (fun n c => 10 * n + (c.toNat - 48)) 0

/-- The octet that a word is: a decimal number without leading zeros. -/
def octet (w : List Char) : Option ℕ :=
  if w ≠ [] ∧ w.all Char.isDigit ∧ (w.head? = some '0' → w.length = 1) ∧ decimal w ≤ 255 then
    some (decimal w)
  else none

/-! ## Addresses -/

/-- The octets of the text of an IPv4 address. -/
def ipv4 (t : List Char) : Option (List ℕ) :=
  match t.splitOn '.' with
  | [a, b, c, d] =>
    match octet a, octet b, octet c, octet d with
    | some a, some b, some c, some d => some [a, b, c, d]
    | _, _, _, _ => none
  | _ => none

def isIPv4 (t : List Char) : Bool := (ipv4 t).isSome

/-- The groups of octets, two for each. -/
def joinOctets : List ℕ → List ℕ
  | a :: b :: os => (256 * a + b) :: joinOctets os
  | _ => []

/-- The groups of the last word: one, or the two of an IPv4 address. -/
def lastGroups (w : List Char) : Option (List ℕ) :=
  match hexGroup w with
  | some g => some [g]
  | none => (ipv4 w).map joinOctets

/-- The groups of the words at the end of a text. -/
def tailGroups : List (List Char) → Option (List ℕ)
  | [] => none
  | [w] => lastGroups w
  | w :: ws => (hexGroup w).bind fun g => (tailGroups ws).map fun gs => g :: gs

/-- The groups after `::`, which may be none. -/
def afterGap (ws : List (List Char)) : Option (List ℕ) :=
  if ws = [[]] then some [] else tailGroups ws

/-- The groups before `::`, and those after it if it is there: it leaves an empty word. -/
def spread : List (List Char) → Option (List ℕ × Option (List ℕ))
  | [] => none
  | [w] => (lastGroups w).map fun gs => (gs, none)
  | w :: ws =>
    if w = [] then (afterGap ws).map fun gs => ([], some gs)
    else (hexGroup w).bind fun g => (spread ws).map fun p => (g :: p.1, p.2)

/-- The eight groups, with zeros for `::`, which stands for at least one. -/
def fill (gs : List ℕ) : Option (List ℕ) → Option (List ℕ)
  | none => if gs.length = 8 then some gs else none
  | some gs' =>
    if gs.length + gs'.length ≤ 7 then
      some (gs ++ (List.replicate (8 - (gs.length + gs'.length)) 0 ++ gs'))
    else none

/-- The groups of the words between the colons of a text. A text that starts with `::` has two
    empty words at its start. -/
def groups : List (List Char) → Option (List ℕ)
  | [] :: w :: ws => if w = [] then (spread ([] :: ws)).bind fun p => fill p.1 p.2 else none
  | ws => (spread ws).bind fun p => fill p.1 p.2

def isZoneChar (c : Char) : Bool := c.isAlphanum || c = '-' || c = '.' || c = ':'

/-- A text without its zone, if what stands there may be one. -/
def withoutZone (t : List Char) : Option (List Char) :=
  match t.dropWhile fun c => c ≠ '%' with
  | [] => some t
  | _ :: zone =>
    if zone ≠ [] ∧ zone.all isZoneChar then some (t.takeWhile fun c => c ≠ '%') else none

/-- The words between the colons of a text, without its zone. -/
def words (t : List Char) : Option (List (List Char)) :=
  (withoutZone t).map fun t => t.splitOn ':'

/-- The groups of the text of an IPv6 address. -/
def ipv6 (t : List Char) : Option (List ℕ) := (words t).bind groups

def isIPv6 (t : List Char) : Bool := (ipv6 t).isSome

/-! ## Digits and letters -/

/-- A character of ASCII is one of the first 128. -/
theorem of_ascii {P : Char → Prop} (h : ∀ i : Fin 128, P (Char.ofNat i)) {c : Char}
    (hc : c.toNat < 128) : P c := by
  have hi := h ⟨c.toNat, hc⟩
  rwa [show Char.ofNat (⟨c.toNat, hc⟩ : Fin 128).val = c from Char.ofNat_toNat c] at hi

theorem ascii_of_hexDigit {c : Char} (h : (hexDigit c).isSome) : c.toNat < 128 := by
  have h9 : ('9').toNat = 57 := rfl
  have hf : ('f').toNat = 102 := rfl
  have hF : ('F').toNat = 70 := rfl
  have hle : ∀ {d : Char}, c ≤ d → c.toNat ≤ d.toNat := fun h => h
  unfold hexDigit at h
  split at h
  next hc => have := hle hc.2; omega
  split at h
  next hc => have := hle hc.2; omega
  split at h
  next hc => have := hle hc.2; omega
  next => exact absurd h (by simp)

theorem hexDigit_ascii : ∀ i : Fin 128,
    ((hexDigit (Char.ofNat i)).all fun d => d < 16 && (Char.ofNat i).toLower == hexChar d) = true ∧
      hexDigit (Char.ofNat i).toLower = hexDigit (Char.ofNat i) := by
  decide +kernel

/-- A digit is, in lower case, the digit of its value. -/
theorem toLower_of_hexDigit {c : Char} {d : ℕ} (h : hexDigit c = some d) :
    d < 16 ∧ c.toLower = hexChar d := by
  have hall := of_ascii (P := fun c => ((hexDigit c).all
    fun d => d < 16 && c.toLower == hexChar d) = true) (fun i => (hexDigit_ascii i).1)
    (ascii_of_hexDigit (c := c) (by rw [h]; rfl))
  rw [h, Option.all_some, Bool.and_eq_true] at hall
  exact ⟨of_decide_eq_true hall.1, beq_iff_eq.1 hall.2⟩

theorem hexDigit_hexChar {d : ℕ} (h : d < 16) : hexDigit (hexChar d) = some d := by
  have hall : ∀ d : Fin 16, hexDigit (hexChar d) = some d.val := by decide
  exact hall ⟨d, h⟩

theorem hexChar_inj {d d' : ℕ} (h : d < 16) (h' : d' < 16) (heq : hexChar d = hexChar d') :
    d = d' :=
  Option.some.inj ((hexDigit_hexChar h).symm.trans (heq ▸ hexDigit_hexChar h'))

theorem hexChar_beq {d d' : ℕ} (h : d < 16) (h' : d' < 16) :
    (hexChar d == hexChar d') = (d == d') := by
  rw [Bool.eq_iff_iff, beq_iff_eq, beq_iff_eq]
  exact ⟨hexChar_inj h h', congrArg hexChar⟩

theorem hexChar_ne_colon (d : ℕ) (h : d < 16) : hexChar d ≠ ':' := by
  intro hcolon
  have hnone : hexDigit ':' = none := by decide
  rw [← hcolon, hexDigit_hexChar h] at hnone
  exact absurd hnone (by simp)

/-- Only the upper-case letters change in lower case. -/
theorem eq_of_toLower {c d : Char} (hd : d.toNat < 97) (h : c.toLower = d) : c = d := by
  delta Char.toLower at h
  split at h
  next hc =>
    have hval := congrArg Char.toNat h
    have hA : ('A').val.toNat = 65 := rfl
    have hZ : ('Z').val.toNat = 90 := rfl
    have hlo : 65 ≤ c.val.toNat := hc.1
    have hhi : c.val.toNat ≤ 90 := hc.2
    have hsum : (c.val + ('a'.val - 'A'.val)).toNat = c.val.toNat + 32 := by
      rw [UInt32.toNat_add, show ('a'.val - 'A'.val).toNat = 32 from rfl]
      omega
    have : c.val.toNat + 32 = d.toNat := hsum.symm.trans hval
    omega
  next => exact h

theorem hexDigit_toLower (c : Char) : hexDigit c.toLower = hexDigit c := by
  by_cases hc : c.toNat < 128
  · exact of_ascii (P := fun c => hexDigit c.toLower = hexDigit c)
      (fun i => (hexDigit_ascii i).2) hc
  · have hupper : ¬ (c.val ≥ 'A'.val ∧ c.val ≤ 'Z'.val) := fun h => by
      have hhi : c.val.toNat ≤ 90 := h.2
      exact hc (show c.val.toNat < 128 by omega)
    delta Char.toLower
    rw [dif_neg hupper]

theorem eq_of_map_toLower {t l : List Char} (hl : l.all (fun c => c.toNat < 97) = true)
    (h : t.map Char.toLower = l) : t = l := by
  induction t generalizing l with
  | nil => exact h
  | cons c t ih =>
    subst h
    rw [List.map_cons, List.all_cons, Bool.and_eq_true, decide_eq_true_eq] at hl
    exact List.cons_eq_cons.2 ⟨eq_of_toLower hl.1 rfl, ih hl.2 rfl⟩

/-! ## Words of digits -/

/-- The word is free of the separators of a text. -/
def Plain (w : List Char) : Prop := ∀ c ∈ w, c ≠ ':' ∧ c ≠ '%'

theorem hexDigits_cons {c : Char} {w : List Char} {ds : List ℕ} :
    hexDigits (c :: w) = some ds ↔
      ∃ d ds', hexDigit c = some d ∧ hexDigits w = some ds' ∧ ds = d :: ds' := by
  rw [hexDigits, Option.bind_eq_some_iff]
  constructor
  · rintro ⟨d, hd, h⟩
    obtain ⟨ds', hds', rfl⟩ := Option.map_eq_some_iff.1 h
    exact ⟨d, ds', hd, hds', rfl⟩
  · rintro ⟨d, ds', hd, hds', rfl⟩
    exact ⟨d, hd, Option.map_eq_some_iff.2 ⟨ds', hds', rfl⟩⟩

theorem hexDigits_isSome {w : List Char} {ds : List ℕ} (h : hexDigits w = some ds) :
    ∀ c ∈ w, (hexDigit c).isSome := by
  induction w generalizing ds with
  | nil => exact fun c hc => absurd hc List.not_mem_nil
  | cons c w ih =>
    obtain ⟨d, ds', hd, hds', -⟩ := hexDigits_cons.1 h
    intro c' hc'
    rcases List.mem_cons.1 hc' with rfl | hc'
    · rw [hd]
      rfl
    · exact ih hds' c' hc'

/-- A word of digits is, in lower case, that of their values. -/
theorem toLower_of_hexDigits {w : List Char} {ds : List ℕ} (h : hexDigits w = some ds) :
    w.map Char.toLower = ds.map hexChar ∧ ∀ d ∈ ds, d < 16 := by
  induction w generalizing ds with
  | nil =>
    obtain rfl := Option.some.inj h
    exact ⟨rfl, fun d hd => absurd hd List.not_mem_nil⟩
  | cons c w ih =>
    obtain ⟨d, ds', hd, hds', rfl⟩ := hexDigits_cons.1 h
    have hc := toLower_of_hexDigit hd
    have hw := ih hds'
    exact ⟨by rw [List.map_cons, List.map_cons, hc.2, hw.1],
      List.forall_mem_cons.2 ⟨hc.1, hw.2⟩⟩

theorem hexDigits_map_hexChar {ds : List ℕ} (h : ∀ d ∈ ds, d < 16) :
    hexDigits (ds.map hexChar) = some ds := by
  induction ds with
  | nil => rfl
  | cons d ds ih =>
    have hd := List.forall_mem_cons.1 h
    exact hexDigits_cons.2 ⟨d, ds, hexDigit_hexChar hd.1, ih hd.2, rfl⟩

theorem hexDigits_map_toLower (w : List Char) : hexDigits (w.map Char.toLower) = hexDigits w := by
  induction w with
  | nil => rfl
  | cons c w ih => rw [List.map_cons, hexDigits, hexDigits, hexDigit_toLower, ih]

/-- The case of the digits does not matter. -/
theorem hexGroup_map_toLower (w : List Char) : hexGroup (w.map Char.toLower) = hexGroup w := by
  rw [hexGroup, hexGroup, hexDigits_map_toLower, List.length_map]

theorem hexGroup_eq_some {w : List Char} {g : ℕ} :
    hexGroup w = some g ↔
      ∃ ds, hexDigits w = some ds ∧ 1 ≤ ds.length ∧ ds.length ≤ 4 ∧ hexValue ds = g := by
  have hlen : ∀ {ds}, hexDigits w = some ds → ds.length = w.length := fun h => by
    rw [← List.length_map (f := hexChar), ← (toLower_of_hexDigits h).1, List.length_map]
  unfold hexGroup
  split
  next hw =>
    rw [Option.map_eq_some_iff]
    constructor
    · rintro ⟨ds, hds, rfl⟩
      exact ⟨ds, hds, by rw [hlen hds]; exact hw.1, by rw [hlen hds]; exact hw.2, rfl⟩
    · rintro ⟨ds, hds, -, -, rfl⟩
      exact ⟨ds, hds, rfl⟩
  next hw =>
    constructor
    · exact fun h => absurd h (by simp)
    · rintro ⟨ds, hds, h1, h4, -⟩
      rw [hlen hds] at h1 h4
      exact absurd ⟨h1, h4⟩ hw

theorem plain_of_hexGroup {w : List Char} {g : ℕ} (h : hexGroup w = some g) : Plain w := by
  obtain ⟨ds, hds, -⟩ := hexGroup_eq_some.1 h
  intro c hc
  have hsome := hexDigits_isSome hds c hc
  constructor
  · rintro rfl
    exact absurd hsome (by decide)
  · rintro rfl
    exact absurd hsome (by decide)

theorem ne_nil_of_hexGroup {w : List Char} {g : ℕ} (h : hexGroup w = some g) : w ≠ [] := by
  rintro rfl
  exact absurd h (by simp [hexGroup])

/-! ## Words between colons -/

theorem withoutZone_append {w : List Char} (hw : Plain w) (rest : List Char) :
    withoutZone (w ++ rest) = (withoutZone rest).map fun t => w ++ t := by
  have hpos : ∀ c ∈ w, decide (c ≠ '%') = true := fun c hc => decide_eq_true (hw c hc).2
  unfold withoutZone
  rw [List.dropWhile_append_of_pos hpos, List.takeWhile_append_of_pos hpos]
  split
  · rfl
  · split <;> rfl

/-- The word before the first colon of a text is its first word. -/
theorem words_append {w : List Char} (hw : Plain w) (rest : List Char) :
    words (w ++ ':' :: rest) = (words rest).map fun ws => w :: ws := by
  have hcolon : ':' ∉ w := fun h => (hw _ h).1 rfl
  have hrest : withoutZone (':' :: rest) = (withoutZone rest).map fun t => ':' :: t := by
    unfold withoutZone
    rw [List.dropWhile_cons_of_pos (by decide), List.takeWhile_cons_of_pos (by decide)]
    split
    · rfl
    · split <;> rfl
  unfold words
  rw [withoutZone_append hw, hrest]
  cases withoutZone rest with
  | none => rfl
  | some t =>
    simp only [Option.map_some]
    rw [List.splitOn_append_cons_self_of_not_mem hcolon]

/-- A text without separators is a word. -/
theorem words_of_plain {w : List Char} (hw : Plain w) : words w = some [w] := by
  have hzone := withoutZone_append hw []
  rw [List.append_nil] at hzone
  unfold words
  rw [hzone]
  simp only [withoutZone, List.dropWhile_nil, Option.map_some, List.append_nil]
  rw [List.splitOn_eq_singleton fun h => (hw _ h).1 rfl]

/-- A text with more than one word has the first of them before its first colon. -/
theorem words_eq_cons_cons {t w w' : List Char} {ws : List (List Char)}
    (h : words t = some (w :: w' :: ws)) :
    ∃ rest, t = w ++ ':' :: rest ∧ Plain w ∧ words rest = some (w' :: ws) := by
  -- The text up to its first separator.
  have hplain : Plain (t.takeWhile fun c => c ≠ ':' ∧ c ≠ '%') := fun c hc =>
    of_decide_eq_true (List.all_eq_true.1 List.all_takeWhile c hc)
  have ht := List.takeWhile_append_dropWhile (p := fun c => c ≠ ':' ∧ c ≠ '%') (l := t)
  generalize t.takeWhile (fun c => c ≠ ':' ∧ c ≠ '%') = w₀ at hplain ht
  cases hdrop : t.dropWhile fun c => c ≠ ':' ∧ c ≠ '%' with
  | nil =>
    rw [hdrop, List.append_nil] at ht
    rw [← ht, words_of_plain hplain] at h
    exact absurd h (by simp)
  | cons c rest =>
    have hc := List.head_dropWhile_not (fun c : Char => decide (c ≠ ':' ∧ c ≠ '%'))
      (by rw [hdrop]; exact List.cons_ne_nil _ _ : t.dropWhile _ ≠ [])
    simp only [hdrop, List.head_cons] at hc
    rw [hdrop] at ht
    by_cases hcolon : c = ':'
    · subst hcolon
      rw [← ht, words_append hplain, Option.map_eq_some_iff] at h
      obtain ⟨ws', hws', hcons⟩ := h
      obtain ⟨rfl, rfl⟩ := List.cons.inj hcons
      exact ⟨rest, ht.symm, hplain, hws'⟩
    · have hpercent : c = '%' := by
        by_contra hne
        exact of_decide_eq_false hc ⟨hcolon, hne⟩
      subst hpercent
      have hzone : withoutZone ('%' :: rest) =
          if rest ≠ [] ∧ rest.all isZoneChar then some [] else none := rfl
      rw [← ht, words, withoutZone_append hplain, hzone] at h
      split at h
      · simp only [Option.map_some, List.append_nil] at h
        rw [List.splitOn_eq_singleton fun h => (hplain _ h).1 rfl] at h
        exact absurd h (by simp)
      · exact absurd h (by simp)

theorem words_intercalate {ws : List (List Char)} (hne : ws ≠ []) (hws : ∀ w ∈ ws, Plain w) :
    words ([':'].intercalate ws) = some ws := by
  induction ws with
  | nil => exact absurd rfl hne
  | cons w ws ih =>
    have hw := List.forall_mem_cons.1 hws
    cases ws with
    | nil => rw [List.intercalate_singleton, words_of_plain hw.1]
    | cons w' ws =>
      rw [List.intercalate_cons_cons, List.append_assoc, List.singleton_append,
        words_append hw.1, ih (List.cons_ne_nil _ _) hw.2, Option.map_some]

/-! ## IPv4 -/

theorem octet_eq_some {w : List Char} {n : ℕ} (h : octet w = some n) :
    (∀ c ∈ w, c.isDigit) ∧ decimal w = n ∧ n < 256 := by
  unfold octet at h
  split at h
  next hw =>
    obtain rfl := Option.some.inj h
    exact ⟨List.all_eq_true.1 hw.2.1, rfl, Nat.lt_succ_of_le hw.2.2.2⟩
  next => exact absurd h (by simp)

/-- The text of an IPv4 address is four octets between dots. -/
theorem ipv4_eq_some {t : List Char} {os : List ℕ} (h : ipv4 t = some os) :
    ∃ a b c d na nb nc nd, t = ['.'].intercalate [a, b, c, d] ∧ t.splitOn '.' = [a, b, c, d] ∧
      octet a = some na ∧ octet b = some nb ∧ octet c = some nc ∧ octet d = some nd ∧
      os = [na, nb, nc, nd] := by
  unfold ipv4 at h
  split at h
  next a b c d hsplit =>
    split at h
    next na nb nc nd ha hb hc hd =>
      refine ⟨a, b, c, d, na, nb, nc, nd, ?_, hsplit, ha, hb, hc, hd, (Option.some.inj h).symm⟩
      rw [← hsplit, List.intercalate_splitOn]
    next => exact absurd h (by simp)
  next => exact absurd h (by simp)

/-- The text of four octets between dots is an IPv4 address. -/
theorem ipv4_intercalate {a b c d : List Char} {na nb nc nd : ℕ} (ha : octet a = some na)
    (hb : octet b = some nb) (hc : octet c = some nc) (hd : octet d = some nd) :
    ipv4 (['.'].intercalate [a, b, c, d]) = some [na, nb, nc, nd] := by
  have hdot : ∀ {w n}, octet w = some n → '.' ∉ w := fun h hmem =>
    absurd ((octet_eq_some h).1 _ hmem) (by decide)
  have hsplit : (['.'].intercalate [a, b, c, d]).splitOn '.' = [a, b, c, d] :=
    List.splitOn_intercalate '.' (List.forall_mem_cons.2 ⟨hdot ha, List.forall_mem_cons.2
      ⟨hdot hb, List.forall_mem_cons.2 ⟨hdot hc, List.forall_mem_cons.2
        ⟨hdot hd, fun _ h => absurd h List.not_mem_nil⟩⟩⟩⟩) (List.cons_ne_nil _ _)
  simp only [ipv4, hsplit, ha, hb, hc, hd]

theorem mem_ipv4 {t : List Char} {os : List ℕ} (h : ipv4 t = some os) :
    ∀ ch ∈ t, ch.isDigit ∨ ch = '.' := by
  obtain ⟨a, b, c, d, na, nb, nc, nd, rfl, -, ha, hb, hc, hd, -⟩ := ipv4_eq_some h
  intro ch hch
  simp only [List.intercalate_cons_cons, List.intercalate_singleton, List.append_assoc,
    List.mem_append, List.mem_singleton] at hch
  rcases hch with h | h | h | h | h | h | h
  · exact .inl ((octet_eq_some ha).1 _ h)
  · exact .inr h
  · exact .inl ((octet_eq_some hb).1 _ h)
  · exact .inr h
  · exact .inl ((octet_eq_some hc).1 _ h)
  · exact .inr h
  · exact .inl ((octet_eq_some hd).1 _ h)

theorem plain_of_ipv4 {t : List Char} {os : List ℕ} (h : ipv4 t = some os) : Plain t := by
  intro c hc
  constructor
  · rintro rfl
    exact absurd (mem_ipv4 h _ hc) (by decide)
  · rintro rfl
    exact absurd (mem_ipv4 h _ hc) (by decide)

/-- The text of an IPv4 address is no word of digits: it has dots. -/
theorem hexGroup_of_ipv4 {t : List Char} {os : List ℕ} (h : ipv4 t = some os) :
    hexGroup t = none := by
  obtain ⟨a, b, c, d, -, -, -, -, rfl, -⟩ := ipv4_eq_some h
  by_contra hne
  obtain ⟨g, hg⟩ := Option.ne_none_iff_exists'.1 hne
  obtain ⟨ds, hds, -⟩ := hexGroup_eq_some.1 hg
  have hdot := hexDigits_isSome hds '.' (by simp [List.intercalate_cons_cons])
  exact absurd hdot (by decide)

/-! ## Groups -/

theorem fill_none (gs : List ℕ) : fill gs none = if gs.length = 8 then some gs else none := rfl

theorem fill_some (gs gs' : List ℕ) : fill gs (some gs') =
    if gs.length + gs'.length ≤ 7 then
      some (gs ++ (List.replicate (8 - (gs.length + gs'.length)) 0 ++ gs'))
    else none := rfl

theorem spread_singleton (w : List Char) :
    spread [w] = (lastGroups w).map fun gs => (gs, none) := rfl

theorem spread_cons_cons (w w' : List Char) (ws : List (List Char)) : spread (w :: w' :: ws) =
    if w = [] then (afterGap (w' :: ws)).map fun gs => ([], some gs)
    else (hexGroup w).bind fun g => (spread (w' :: ws)).map fun p => (g :: p.1, p.2) := rfl

theorem length_lastGroups {w : List Char} {gs : List ℕ} (h : lastGroups w = some gs) :
    gs.length ≤ 2 := by
  unfold lastGroups at h
  split at h
  next =>
    obtain rfl := Option.some.inj h
    exact Nat.le_succ 1
  next =>
    obtain ⟨os, hos, rfl⟩ := Option.map_eq_some_iff.1 h
    obtain ⟨-, -, -, -, -, -, -, -, -, -, -, -, -, -, rfl⟩ := ipv4_eq_some hos
    exact Nat.le_refl _

theorem fill_cons {g : ℕ} {gs gs' : List ℕ} {r : Option (List ℕ)}
    (h : fill (g :: gs) r = some gs') : ∃ gs'', gs' = g :: gs'' ∧ gs <+: gs'' := by
  cases r with
  | none =>
    rw [fill_none] at h
    split at h
    next => exact ⟨gs, (Option.some.inj h).symm, List.prefix_rfl⟩
    next => exact absurd h (by simp)
  | some r =>
    rw [fill_some] at h
    split at h
    next => exact ⟨_, (Option.some.inj h).symm, List.prefix_append _ _⟩
    next => exact absurd h (by simp)

theorem spread_cons {w w' : List Char} {ws : List (List Char)} {p : List ℕ × Option (List ℕ)}
    (hw : w ≠ []) (h : spread (w :: w' :: ws) = some p) :
    ∃ g gs, hexGroup w = some g ∧ spread (w' :: ws) = some (gs, p.2) ∧ p.1 = g :: gs := by
  rw [spread_cons_cons, if_neg hw, Option.bind_eq_some_iff] at h
  obtain ⟨g, hg, h⟩ := h
  obtain ⟨q, hq, rfl⟩ := Option.map_eq_some_iff.1 h
  exact ⟨g, q.1, hg, hq, rfl⟩

theorem length_spread_singleton {w : List Char} {p : List ℕ × Option (List ℕ)}
    (h : spread [w] = some p) : p.1.length ≤ 2 ∧ p.2 = none := by
  obtain ⟨gs, hgs, rfl⟩ := Option.map_eq_some_iff.1 h
  exact ⟨length_lastGroups hgs, rfl⟩

/-- Words of digits are the groups they are. -/
theorem spread_hexGroups {ws : List (List Char)} {gs : List ℕ} (hne : ws ≠ [])
    (h : ws.map hexGroup = gs.map some) : spread ws = some (gs, none) := by
  induction ws generalizing gs with
  | nil => exact absurd rfl hne
  | cons w ws ih =>
    cases gs with
    | nil => exact absurd h (by simp)
    | cons g gs =>
      obtain ⟨hw, hws⟩ := List.cons.inj h
      cases ws with
      | nil =>
        obtain rfl : gs = [] := List.map_eq_nil_iff.1 hws.symm
        simp only [spread_singleton, lastGroups, hw, Option.map_some]
      | cons w' ws =>
        rw [spread_cons_cons, if_neg (ne_nil_of_hexGroup hw), hw, ih (List.cons_ne_nil _ _) hws]
        rfl

theorem groups_of_ne_nil {w : List Char} {ws : List (List Char)} (hw : w ≠ []) :
    groups (w :: ws) = (spread (w :: ws)).bind fun p => fill p.1 p.2 := by
  cases w with
  | nil => exact absurd rfl hw
  | cons c w => rfl

/-! ## IPv6 -/

variable {t : List Char} {ws : List (List Char)} {gs : List ℕ}

/-- A text whose first word is empty starts with `::`, and its first group is zero. -/
theorem cases_gap (hws : words t = some ([] :: ws)) (hgs : groups ([] :: ws) = some gs) :
    ∃ rest gs', t = ':' :: ':' :: rest ∧ gs = 0 :: gs' := by
  cases ws with
  | nil => exact absurd hgs (by simp [groups, spread, lastGroups, hexGroup, ipv4])
  | cons w ws =>
    obtain ⟨rest, rfl, -, hrest⟩ := words_eq_cons_cons hws
    rw [groups] at hgs
    split at hgs
    next hw =>
      subst hw
      obtain ⟨p, hp, hfill⟩ := Option.bind_eq_some_iff.1 hgs
      cases ws with
      | nil => exact absurd hp (by simp [spread, lastGroups, hexGroup, ipv4])
      | cons w' ws =>
        obtain ⟨rest', rfl, -, -⟩ := words_eq_cons_cons hrest
        rw [spread_cons_cons, if_pos rfl] at hp
        obtain ⟨gs', -, rfl⟩ := Option.map_eq_some_iff.1 hp
        rw [fill_some] at hfill
        split at hfill
        next hlen =>
          obtain rfl := Option.some.inj hfill
          obtain ⟨n, hn⟩ : ∃ n, 8 - (([] : List ℕ).length + gs'.length) = n + 1 :=
            ⟨7 - gs'.length, by rw [List.length_nil] at hlen ⊢; omega⟩
          exact ⟨rest', _, rfl, by rw [hn, List.replicate_succ]; rfl⟩
        next => exact absurd hfill (by simp)
    next => exact absurd hgs (by simp)

/-- The first word of a text, if it is not empty, is its first group, and so is the second its
    second, if it is one of digits and not the last. -/
theorem cases_word {w : List Char} (hne : w ≠ []) (hws : words t = some (w :: ws))
    (hgs : groups (w :: ws) = some gs) :
    ∃ w rest g gs', t = w ++ ':' :: rest ∧ hexGroup w = some g ∧ gs = g :: gs' ∧
      ∀ w₂ rest₂ g₂, rest = w₂ ++ ':' :: rest₂ → hexGroup w₂ = some g₂ →
        ∃ gs₂, gs' = g₂ :: gs₂ := by
  rw [groups_of_ne_nil hne] at hgs
  obtain ⟨p, hp, hfill⟩ := Option.bind_eq_some_iff.1 hgs
  cases ws with
  | nil =>
    -- A single word is two groups at most.
    obtain ⟨hlen, hnone⟩ := length_spread_singleton hp
    rw [hnone] at hfill
    rw [fill_none] at hfill
    split at hfill
    next h8 => omega
    next => exact absurd hfill (by simp)
  | cons w' ws =>
    obtain ⟨rest, rfl, -, hrest⟩ := words_eq_cons_cons hws
    obtain ⟨g, l, hg, hspread, hl⟩ := spread_cons hne hp
    rw [hl] at hfill
    obtain ⟨gs', rfl, hprefix⟩ := fill_cons hfill
    refine ⟨w, rest, g, gs', rfl, hg, rfl, ?_⟩
    intro w₂ rest₂ g₂ hrest₂ hg₂
    rw [hrest₂, words_append (plain_of_hexGroup hg₂), Option.map_eq_some_iff] at hrest
    obtain ⟨ws₂, hws₂, hcons⟩ := hrest
    obtain ⟨rfl, rfl⟩ := List.cons.inj hcons
    cases ws₂ with
    | nil =>
      obtain ⟨t₂, -, hempty⟩ := Option.map_eq_some_iff.1 hws₂
      exact absurd hempty (List.splitOn_ne_nil _ _)
    | cons w₃ ws₂ =>
      obtain ⟨g₂', l₂, hg₂', -, hl₂⟩ := spread_cons (ne_nil_of_hexGroup hg₂) hspread
      obtain rfl := Option.some.inj (hg₂.symm.trans hg₂')
      simp only at hl₂
      rw [hl₂] at hprefix
      obtain ⟨gs₂, rfl⟩ := hprefix
      exact ⟨_, rfl⟩

/-- The first group of the text of an IPv6 address. Either the text starts with `::`, and the
    group is zero, or it starts with the word of the group; then the second group is the next
    word, if a word of digits follows. -/
theorem ipv6_cases (h : ipv6 t = some gs) :
    (∃ rest gs', t = ':' :: ':' :: rest ∧ gs = 0 :: gs') ∨
    ∃ w rest g gs', t = w ++ ':' :: rest ∧ hexGroup w = some g ∧ gs = g :: gs' ∧
      ∀ w₂ rest₂ g₂, rest = w₂ ++ ':' :: rest₂ → hexGroup w₂ = some g₂ →
        ∃ gs₂, gs' = g₂ :: gs₂ := by
  obtain ⟨ws, hws, hgs⟩ := Option.bind_eq_some_iff.1 h
  cases ws with
  | nil => exact absurd hgs (by simp [groups, spread])
  | cons w ws =>
    by_cases hne : w = []
    · subst hne
      exact .inl (cases_gap hws hgs)
    · exact .inr (cases_word hne hws hgs)

/-- Eight words of digits between colons are the text of the address with these groups. -/
theorem ipv6_intercalate (hlen : ws.length = 8)
    (h : ws.map hexGroup = gs.map some) : ipv6 ([':'].intercalate ws) = some gs := by
  have hplain : ∀ w ∈ ws, Plain w := by
    intro w hw
    have hmem := List.mem_map_of_mem (f := hexGroup) hw
    rw [h] at hmem
    obtain ⟨g, -, hg⟩ := List.mem_map.1 hmem
    exact plain_of_hexGroup hg.symm
  have hgs : gs.length = 8 := by
    rw [← hlen, ← List.length_map (f := hexGroup), h, List.length_map]
  cases ws with
  | nil => exact absurd hlen (by simp)
  | cons w ws =>
    cases gs with
    | nil => exact absurd hgs (by simp)
    | cons g gs =>
      rw [ipv6, words_intercalate (List.cons_ne_nil _ _) hplain, Option.bind_some,
        groups_of_ne_nil (ne_nil_of_hexGroup (List.cons.inj h).1),
        spread_hexGroups (List.cons_ne_nil _ _) h, Option.bind_some]
      rw [fill_none, if_pos hgs]

/-- The text of an IPv4-mapped address: five groups that are zero, one of ones, and the text
    of an IPv4 address. -/
theorem ipv6_mapped {w : List Char} {os : List ℕ} (hw : hexGroup w = some 0xffff)
    (ht : ipv4 t = some os) :
    ipv6 (':' :: ':' :: (w ++ ':' :: t)) = some ([0, 0, 0, 0, 0, 0xffff] ++ joinOctets os) := by
  have hnil : Plain [] := fun _ h => absurd h List.not_mem_nil
  have hwords : words (':' :: ':' :: (w ++ ':' :: t)) = some [[], [], w, t] := by
    rw [show ':' :: ':' :: (w ++ ':' :: t) = [] ++ ':' :: ([] ++ ':' :: (w ++ ':' :: t)) from rfl,
      words_append hnil, words_append hnil, words_append (plain_of_hexGroup hw),
      words_of_plain (plain_of_ipv4 ht)]
    rfl
  have htail : tailGroups [w, t] = some (0xffff :: joinOctets os) := by
    simp only [tailGroups, lastGroups, hw, hexGroup_of_ipv4 ht, ht, Option.map_some,
      Option.bind_some]
  obtain ⟨-, -, -, -, na, nb, nc, nd, -, -, -, -, -, -, rfl⟩ := ipv4_eq_some ht
  rw [ipv6, hwords, Option.bind_some, groups, if_pos rfl, spread_cons_cons, if_pos rfl, afterGap,
    if_neg (by simp), htail]
  rfl

end IpText
