import Mathlib.Data.List.DropRight
import OneToThree.Lib.InsMap
import OneToThree.Lib.JsonUnits

/-!
# The file `.env.lite`

The installer writes the variables of an instance as lines `KEY=VALUE` without quotes, and reads
them again the next time that it is run. A value with a line break is refused.

* `entries_readExistingEnv`: what is read from a file that was written is what was written, but for
  the spaces at the ends of the values.
-/

namespace OneToThree.EnvFile

abbrev Text := List Char

def isSpace (c : Char) : Bool := JsText.isSpace c.toNat

def trimEnd (t : Text) : Text := t.rdropWhile isSpace

def trim (t : Text) : Text := trimEnd (t.dropWhile isSpace)

/-- Why an answer of the operator is refused. -/
inductive Problem
  | lineBreak (label : Text)
  | controlCharacter (label : Text)
  | emptyHost (label : Text)
  | invalidHost (label value : Text)
  | portNotNumber (label raw : Text)
  | portOutOfRange (label : Text) (n : ℕ)
  /-- No browser would reach the object store. -/
  | objectStore
  deriving DecidableEq

def isLineBreak (c : Char) : Bool := c = '\r' || c = '\n'

def isControl (c : Char) : Bool :=
  c.toNat ≤ 8 || (11 ≤ c.toNat && c.toNat ≤ 31) || c.toNat = 127

def assertSingleLine (label value : Text) : Except Problem Text :=
  if value.any isLineBreak then .error (.lineBreak label)
  else if value.any isControl then .error (.controlCharacter label)
  else .ok value

def header : Text :=
  "# Generated by the OneToThree Lite installer — contains secrets, do not commit.".toList

section
variable {K : Type} (name : K → Text)

def line (p : K × Text) : Text := name p.1 ++ '=' :: p.2

def renderEnvFile (env : InsMap K Text) : Except Problem Text :=
  (env.entries.mapM fun p => (assertSingleLine (name p.1) p.2).map fun v => line name (p.1, v)).map
    fun lines => header ++ '\n' :: (['\n'].intercalate lines ++ ['\n'])

end

/-- The split at `/\r?\n/`. -/
def splitLines (t : Text) : List Text :=
  (t.splitOn '\n').dropLast.map (fun l => if l.getLast? = some '\r' then l.dropLast else l) ++
    (t.splitOn '\n').getLast?.toList

def readLine (out : InsMap Text Text) (raw : Text) : InsMap Text Text :=
  let line := trim raw
  if line = [] || line.head? = some '#' then out
  else if line.takeWhile (· ≠ '=') ≠ [] && line.dropWhile (· ≠ '=') ≠ [] then
    out.set (line.takeWhile (· ≠ '=')) (line.dropWhile (· ≠ '=')).tail
  else out

/-- The variables of the file, if there is one. -/
def readExistingEnv : Option Text → InsMap Text Text
  | none => ∅
  | some t => (splitLines t).foldl readLine ∅

/-! ## Spaces at the ends -/

theorem trimEnd_trimEnd (t : Text) : trimEnd (trimEnd t) = trimEnd t :=
  List.rdropWhile_idempotent _ _

theorem trimEnd_trim (t : Text) : trimEnd (trim t) = trim t := trimEnd_trimEnd _

theorem trimEnd_eq_self {t : Text} (h : ∀ c ∈ t.getLast?, isSpace c = false) : trimEnd t = t := by
  refine List.rdropWhile_eq_self_iff.2 fun hne hspace => ?_
  have hlast := h _ (List.getLast?_eq_getLast_of_ne_nil hne)
  exact absurd (hlast.symm.trans hspace) Bool.false_ne_true

theorem trimEnd_append_of_ne_nil (t : Text) {u : Text} (h : trimEnd u ≠ []) :
    trimEnd (t ++ u) = t ++ trimEnd u := by
  rw [trimEnd, List.rdropWhile, List.reverse_append, List.dropWhile_append, if_neg]
  · rw [List.reverse_append, List.reverse_reverse]
    rfl
  · intro hempty
    exact h (by rw [trimEnd, List.rdropWhile, List.isEmpty_iff.1 hempty, List.reverse_nil])

/-- The spaces after something else go. -/
theorem trimEnd_append_cons (t : Text) {c : Char} (hc : isSpace c = false) (u : Text) :
    trimEnd (t ++ c :: u) = t ++ c :: trimEnd u := by
  by_cases h : trimEnd u = []
  · rw [trimEnd, List.rdropWhile, List.reverse_append, List.reverse_cons, List.append_assoc,
      List.dropWhile_append, if_pos (List.isEmpty_iff.2 (List.reverse_eq_nil_iff.1 h)), h,
      List.singleton_append, List.dropWhile_cons_of_neg (by rw [hc]; exact Bool.false_ne_true),
      List.reverse_cons, List.reverse_reverse]
  · rw [List.append_cons, trimEnd_append_of_ne_nil _ h, ← List.append_cons]

theorem trim_of_head {c : Char} (hc : isSpace c = false) (t : Text) :
    trim (c :: t) = trimEnd (c :: t) := by
  rw [trim, List.dropWhile_cons_of_neg (by simp [hc])]

/-! ## Reading what was written -/

/-- A text that stays within its line. -/
def SingleLine (t : Text) : Prop := t.any isLineBreak = false ∧ t.any isControl = false

theorem assertSingleLine_eq_ok {label value v : Text} :
    assertSingleLine label value = .ok v ↔ v = value ∧ SingleLine value := by
  rw [assertSingleLine, SingleLine]
  split_ifs with hbreak hcontrol
  · simp [hbreak]
  · simp [hcontrol]
  · rw [Except.ok.injEq, eq_comm]
    exact (and_iff_left ⟨eq_false_of_ne_true hbreak, eq_false_of_ne_true hcontrol⟩).symm

/-- What a variable is called. -/
def IsName (t : Text) : Bool :=
  t ≠ [] && t.all fun c => !isSpace c && c ≠ '=' && c ≠ '#' && !isLineBreak c

theorem readLine_line {K : Type} {name : K → Text} {p : K × Text} (hname : IsName (name p.1))
    (out : InsMap Text Text) :
    readLine out (line name p) = out.set (name p.1) (trimEnd p.2) := by
  obtain ⟨hne, hall⟩ : name p.1 ≠ [] ∧ ∀ c ∈ name p.1,
      isSpace c = false ∧ c ≠ '=' ∧ c ≠ '#' ∧ isLineBreak c = false := by
    simpa [IsName, and_assoc] using hname
  obtain ⟨c, cs, hcons⟩ := List.exists_cons_of_ne_nil hne
  obtain ⟨hspace, -, hhash, -⟩ := hall c (hcons ▸ List.mem_cons_self)
  have htrim : trim (line name p) = name p.1 ++ '=' :: trimEnd p.2 := by
    rw [← trimEnd_append_cons _ (by decide) p.2, line, hcons, List.cons_append, trim_of_head hspace]
  have htake : (name p.1 ++ '=' :: trimEnd p.2).takeWhile (· ≠ '=') = name p.1 := by
    rw [List.takeWhile_append_of_pos fun d hd => decide_eq_true (hall d hd).2.1]
    simp
  have hdrop : (name p.1 ++ '=' :: trimEnd p.2).dropWhile (· ≠ '=') = '=' :: trimEnd p.2 := by
    rw [List.dropWhile_append_of_pos fun d hd => decide_eq_true (hall d hd).2.1]
    simp
  rw [readLine]
  simp only [htrim, htake, hdrop]
  rw [if_neg (by simp [hcons, hhash]), if_pos (by simp [hne])]
  rfl

/-- Lines of different variables are read one after the other. -/
theorem entries_foldl_readLine {K : Type} {name : K → Text} (hname : ∀ k, IsName (name k) = true)
    {l : List (K × Text)} (hl : (l.map fun p => name p.1).Nodup) (out : InsMap Text Text)
    (hout : ∀ p ∈ l, name p.1 ∉ out.keys) :
    ((l.map (line name)).foldl readLine out).entries =
      out.entries ++ l.map fun p => (name p.1, trimEnd p.2) := by
  induction l generalizing out with
  | nil => simp
  | cons p l ih =>
    obtain ⟨hp, hl⟩ := List.nodup_cons.1 hl
    have hset := InsMap.entries_set_of_not_mem out (trimEnd p.2) (hout p List.mem_cons_self)
    rw [List.map_cons, List.foldl_cons, readLine_line (hname p.1), ih hl, hset]
    · simp
    · intro q hq hmem
      rw [InsMap.keys, hset, List.map_append, List.mem_append] at hmem
      rcases hmem with hmem | hmem
      · exact hout q (List.mem_cons_of_mem _ hq) hmem
      · have hsame : name q.1 = name p.1 := List.mem_singleton.1 hmem
        exact hp (List.mem_map.2 ⟨q, hq, hsame⟩)

theorem bind_eq_ok {A B : Type} {x : Except Problem A} {f : A → Except Problem B} {b : B} :
    x.bind f = .ok b ↔ ∃ a, x = .ok a ∧ f a = .ok b := by
  cases x <;> simp [Except.bind]

theorem map_eq_ok {A B : Type} {x : Except Problem A} {f : A → B} {b : B} :
    x.map f = .ok b ↔ ∃ a, x = .ok a ∧ f a = b := by
  cases x <;> simp [Except.map]

theorem mapM_eq_ok {A B : Type} {f : A → Except Problem B} {g : A → B} {P : A → Prop}
    (hf : ∀ a b, f a = .ok b ↔ P a ∧ b = g a) {l : List A} {bs : List B} :
    l.mapM f = .ok bs ↔ (∀ a ∈ l, P a) ∧ bs = l.map g := by
  induction l generalizing bs with
  | nil => simp [pure, Except.pure, eq_comm]
  | cons a l ih =>
    have hcons : (a :: l).mapM f = (f a).bind fun b => (l.mapM f).bind fun bs => .ok (b :: bs) :=
      List.mapM_cons
    simp only [hcons, bind_eq_ok, hf, ih, Except.ok.injEq, List.forall_mem_cons, List.map_cons]
    constructor
    · rintro ⟨b, ⟨ha, rfl⟩, cs, ⟨hl, rfl⟩, rfl⟩
      exact ⟨⟨ha, hl⟩, rfl⟩
    · rintro ⟨⟨ha, hl⟩, rfl⟩
      exact ⟨g a, ⟨ha, rfl⟩, l.map g, ⟨hl, rfl⟩, rfl⟩

theorem renderEnvFile_eq_ok {K : Type} {name : K → Text} {env : InsMap K Text} {text : Text} :
    renderEnvFile name env = .ok text ↔ (∀ p ∈ env.entries, SingleLine p.2) ∧
      text = header ++ '\n' :: (['\n'].intercalate (env.entries.map (line name)) ++ ['\n']) := by
  have hline : ∀ (p : K × Text) (l : Text),
      ((assertSingleLine (name p.1) p.2).map fun v => line name (p.1, v)) = .ok l ↔
        SingleLine p.2 ∧ l = line name p := by
    intro p l
    simp only [map_eq_ok, assertSingleLine_eq_ok]
    constructor
    · rintro ⟨v, ⟨rfl, h⟩, rfl⟩
      exact ⟨h, rfl⟩
    · rintro ⟨h, rfl⟩
      exact ⟨p.2, ⟨rfl, h⟩, rfl⟩
  rw [renderEnvFile, map_eq_ok]
  simp only [mapM_eq_ok hline]
  constructor
  · rintro ⟨lines, ⟨hl, rfl⟩, rfl⟩
    exact ⟨hl, rfl⟩
  · rintro ⟨hl, rfl⟩
    exact ⟨_, ⟨hl, rfl⟩, rfl⟩

/-- A line in which nothing breaks is found again as it is. -/
theorem splitLines_lines {lines : List Text} (h : ∀ l ∈ lines, l.any isLineBreak = false) :
    splitLines (['\n'].intercalate (lines ++ [[]])) = lines ++ [[]] := by
  have hnot : ∀ l ∈ lines ++ [[]], ∀ c ∈ l, isLineBreak c = false := by
    intro l hl c hc
    rcases List.mem_append.1 hl with hl | hl
    · exact eq_false_of_ne_true fun hbreak => List.any_eq_false.1 (h l hl) c hc hbreak
    · exact absurd (List.mem_singleton.1 hl ▸ hc) List.not_mem_nil
  have hsplit : (['\n'].intercalate (lines ++ [[]])).splitOn '\n' = lines ++ [[]] := by
    refine List.splitOn_intercalate '\n' (fun l hl hmem => ?_) (by simp)
    exact absurd (hnot l hl _ hmem) (by decide)
  rw [splitLines, hsplit, List.dropLast_concat, List.getLast?_concat]
  refine congrArg (· ++ [[]]) ((List.map_congr_left fun l hl => ?_).trans (List.map_id lines))
  rw [if_neg]
  · rfl
  · intro hlast
    exact absurd (hnot l (List.mem_append_left _ hl) _ (List.mem_of_getLast? hlast)) (by decide)

theorem intercalate_concat_nil {sep l : Text} {ls : List Text} :
    sep.intercalate (l :: ls ++ [[]]) = sep.intercalate (l :: ls) ++ sep := by
  induction ls generalizing l with
  | nil => simp [List.intercalate_cons_cons]
  | cons l' ls ih =>
    rw [List.cons_append, List.cons_append, List.intercalate_cons_cons, ← List.cons_append, ih,
      List.intercalate_cons_cons]
    simp

theorem readLine_header (out : InsMap Text Text) : readLine out header = out := by
  have hhash : (trim header).head? = some '#' := by decide +kernel
  simp [readLine, hhash]

theorem readLine_nil (out : InsMap Text Text) : readLine out [] = out := rfl

theorem not_isLineBreak_line {K : Type} {name : K → Text} {p : K × Text}
    (hname : IsName (name p.1)) (h : SingleLine p.2) : (line name p).any isLineBreak = false := by
  have hall : ∀ c ∈ name p.1, isLineBreak c = false := by
    intro c hc
    have := List.all_eq_true.1 (Bool.and_eq_true_iff.1 hname).2 c hc
    simpa using (Bool.and_eq_true_iff.1 this).2
  rw [line, List.any_append, List.any_cons, h.1]
  simpa [isLineBreak] using hall

/-- What is read from a file that was written is what was written, but for the spaces at the ends
    of the values. -/
theorem entries_readExistingEnv {K : Type} [DecidableEq K] {name : K → Text}
    (hname : ∀ k, IsName (name k) = true) (hinj : Function.Injective name) {env : InsMap K Text}
    {text : Text} (h : renderEnvFile name env = .ok text) :
    (readExistingEnv (some text)).entries =
      env.entries.map fun p => (name p.1, trimEnd p.2) := by
  obtain ⟨hsingle, rfl⟩ := renderEnvFile_eq_ok.1 h
  -- Without variables, an empty line stands for them.
  let lines := if env.entries = [] then [[]] else env.entries.map (line name)
  have hne : lines ≠ [] := by
    dsimp only [lines]
    split_ifs <;> simp_all
  have htext : header ++ '\n' :: (['\n'].intercalate (env.entries.map (line name)) ++ ['\n']) =
      ['\n'].intercalate ((header :: lines) ++ [[]]) := by
    obtain ⟨l, ls, hls⟩ := List.exists_cons_of_ne_nil hne
    have hbody : ['\n'].intercalate (env.entries.map (line name)) = ['\n'].intercalate lines := by
      dsimp only [lines]
      split_ifs with hnil
      · simp [hnil]
      · rfl
    rw [intercalate_concat_nil, hbody, hls, List.intercalate_cons_cons]
    simp
  have hbreaks : ∀ l ∈ header :: lines, l.any isLineBreak = false := by
    refine List.forall_mem_cons.2 ⟨by decide +kernel, fun l hl => ?_⟩
    dsimp only [lines] at hl
    split_ifs at hl
    · rw [List.mem_singleton.1 hl]
      rfl
    · obtain ⟨p, hp, rfl⟩ := List.mem_map.1 hl
      exact not_isLineBreak_line (hname p.1) (hsingle p hp)
  have hfold : lines.foldl readLine ∅ = (env.entries.map (line name)).foldl readLine ∅ := by
    dsimp only [lines]
    split_ifs with hnil
    · simp [hnil, readLine_nil]
    · rfl
  have hnodup : (env.entries.map fun p => name p.1).Nodup := by
    have := env.nodup.map hinj
    rwa [List.map_map] at this
  rw [htext, readExistingEnv, splitLines_lines hbreaks, List.cons_append, List.foldl_cons,
    readLine_header, List.foldl_append, List.foldl_cons, readLine_nil, List.foldl_nil, hfold,
    entries_foldl_readLine hname hnodup ∅ fun _ _ => List.not_mem_nil]
  rfl

end OneToThree.EnvFile
