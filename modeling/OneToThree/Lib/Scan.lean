import Mathlib.Data.List.Basic

/-!
# Scanning a text

What a global search finds in a text, from left to right, and cutting the text at what was
found.

* A `Pattern` says what it matches at the start of a text: the text that is matched, which is
  not empty, and what was captured. `Pattern.spans` are the matches that the repeated search
  finds, each behind the one before (`ordered_spans`).
* `cut` goes through spans in their order and makes something of each, and of the text between
  them; written out, the pieces make up the text (`flatMap_cut`).
* `keep` leaves out the spans that begin before the end of the last one that was kept.
-/

namespace Scan

variable {C α β γ : Type}

/-- A pattern: what it matches at the start of a text, and captures there. -/
structure Pattern (C α : Type) where
  run : List C → Option (List C × α)
  ne_nil : ∀ {l m a}, run l = some (m, a) → m ≠ []
  isPrefix : ∀ {l m a}, run l = some (m, a) → m <+: l

/-- What was captured between two positions of a text. -/
structure Span (α : Type) where
  start : ℕ
  stop : ℕ
  value : α
  deriving DecidableEq

/-- The text between two positions. -/
def slice (text : List C) (i j : ℕ) : List C := (text.take j).drop i

theorem slice_append_drop (text : List C) {i j : ℕ} (h : i ≤ j) :
    slice text i j ++ text.drop j = text.drop i := by
  conv_rhs => rw [← List.take_append_drop j text]
  rw [slice, List.drop_append]
  rcases Nat.le_total j text.length with hj | hj
  · rw [List.length_take, Nat.min_eq_left hj, Nat.sub_eq_zero_of_le h, List.drop_zero]
  · rw [List.drop_eq_nil_of_le hj, List.drop_nil]

/-- A match at a position is the text there. -/
theorem slice_of_isPrefix {text m : List C} {i : ℕ} (h : m <+: text.drop i) :
    slice text i (i + m.length) = m := by
  obtain ⟨rest, hrest⟩ := h
  rw [slice, List.drop_take, ← hrest, Nat.add_sub_cancel_left, List.take_left]

/-! ## Searching -/

/-- The matches in the rest of a text, at the position `i`, when so many characters of it are
    matched already. -/
def Pattern.spansFrom (p : Pattern C α) : ℕ → ℕ → List C → List (Span α)
  | _, _, [] => []
  | skip + 1, i, _ :: l => p.spansFrom skip (i + 1) l
  | 0, i, c :: l =>
    match p.run (c :: l) with
    | none => p.spansFrom 0 (i + 1) l
    | some (m, a) => ⟨i, i + m.length, a⟩ :: p.spansFrom (m.length - 1) (i + 1) l

/-- The matches that a search finds, each from where the one before has ended. -/
def Pattern.spans (p : Pattern C α) (text : List C) : List (Span α) := p.spansFrom 0 0 text

/-- The spans come one behind the other, from a position on. -/
def Ordered : ℕ → List (Span α) → Prop
  | _, [] => True
  | pos, s :: l => pos ≤ s.start ∧ s.start ≤ s.stop ∧ Ordered s.stop l

/-- What a match is: the pattern matches the text between its positions. -/
def Pattern.IsMatch (p : Pattern C α) (text : List C) (s : Span α) : Prop :=
  p.run (text.drop s.start) = some (slice text s.start s.stop, s.value) ∧ s.start ≤ s.stop

variable {p : Pattern C α} {text : List C}

theorem isMatch_of_mem_spansFrom {l : List C} {skip i : ℕ} {s : Span α}
    (hs : s ∈ p.spansFrom skip i l) (hl : text.drop i = l) : p.IsMatch text s := by
  induction l generalizing skip i with
  | nil => cases skip <;> cases hs
  | cons c l ih =>
    have htail : text.drop (i + 1) = l := by
      rw [← List.drop_drop, hl]
      rfl
    cases skip with
    | succ skip => exact ih hs htail
    | zero =>
      rw [Pattern.spansFrom] at hs
      split at hs
      next => exact ih hs htail
      next m a hrun =>
        rcases List.mem_cons.1 hs with rfl | hs
        · rw [← hl] at hrun
          refine ⟨?_, Nat.le_add_right _ _⟩
          rw [slice_of_isPrefix (p.isPrefix hrun), hrun]
        · exact ih hs htail

theorem isMatch_of_mem_spans {s : Span α} (hs : s ∈ p.spans text) : p.IsMatch text s :=
  isMatch_of_mem_spansFrom hs rfl

theorem Ordered.mono {pos pos' : ℕ} {l : List (Span α)} (h : Ordered pos l) (hle : pos' ≤ pos) :
    Ordered pos' l := by
  cases l with
  | nil => trivial
  | cons s l => exact ⟨Nat.le_trans hle h.1, h.2⟩

theorem ordered_spansFrom (p : Pattern C α) (skip i : ℕ) (l : List C) :
    Ordered (i + skip) (p.spansFrom skip i l) := by
  induction l generalizing skip i with
  | nil => cases skip <;> trivial
  | cons c l ih =>
    cases skip with
    | succ skip =>
      have h := ih skip (i + 1)
      rwa [Nat.add_right_comm, Nat.add_assoc] at h
    | zero =>
      rw [Pattern.spansFrom]
      split
      next => exact (ih 0 (i + 1)).mono (Nat.le_succ i)
      next m a hrun =>
        have hpos : 0 < m.length := List.length_pos_of_ne_nil (p.ne_nil hrun)
        refine ⟨Nat.le_refl _, Nat.le_add_right _ _, (ih (m.length - 1) (i + 1)).mono ?_⟩
        dsimp only
        omega

/-- The matches come one behind the other. -/
theorem ordered_spans (p : Pattern C α) (text : List C) : Ordered 0 (p.spans text) :=
  ordered_spansFrom p 0 0 text

/-! ## Overlapping spans -/

/-- The spans that begin at or behind the end of the last one that was kept. -/
def keep : ℕ → List (Span α) → List (Span α)
  | _, [] => []
  | pos, s :: l => if s.start < pos then keep pos l else s :: keep s.stop l

theorem mem_of_mem_keep {pos : ℕ} {l : List (Span α)} {s : Span α} (h : s ∈ keep pos l) :
    s ∈ l := by
  induction l generalizing pos with
  | nil => exact h
  | cons t l ih =>
    rw [keep] at h
    split at h
    next => exact List.mem_cons_of_mem _ (ih h)
    next =>
      rcases List.mem_cons.1 h with rfl | h
      · exact List.mem_cons_self
      · exact List.mem_cons_of_mem _ (ih h)

theorem ordered_keep {l : List (Span α)} (hl : ∀ s ∈ l, s.start ≤ s.stop) (pos : ℕ) :
    Ordered pos (keep pos l) := by
  induction l generalizing pos with
  | nil => trivial
  | cons s l ih =>
    have htail := ih fun t ht => hl t (List.mem_cons_of_mem _ ht)
    rw [keep]
    split
    next => exact htail pos
    next h => exact ⟨Nat.le_of_not_lt h, hl s List.mem_cons_self, htail s.stop⟩

/-! ## Cutting -/

section
variable (text) (plain : List C → List β) (special : Span α → List β)

/-- What is made of a text, from a position on: of each span, and of what lies between them. -/
def cut : ℕ → List (Span α) → List β
  | pos, [] => if pos < text.length then plain (text.drop pos) else []
  | pos, s :: l =>
    (if pos < s.start then plain (slice text pos s.start) else []) ++ special s ++ cut s.stop l

end

variable {plain : List C → List β} {special : Span α → List β}

/-- If each piece is written out as what it was made of, all of them make up the text. -/
theorem flatMap_cut {write : β → List C} {l : List (Span α)}
    (hplain : ∀ t, (plain t).flatMap write = t)
    (hspecial : ∀ s ∈ l, (special s).flatMap write = slice text s.start s.stop) {pos : ℕ}
    (hl : Ordered pos l) : (cut text plain special pos l).flatMap write = text.drop pos := by
  induction l generalizing pos with
  | nil =>
    rw [cut]
    split
    next => exact hplain _
    next h => exact (List.drop_eq_nil_of_le (Nat.le_of_not_lt h)).symm
  | cons s l ih =>
    obtain ⟨hpos, hs, hl⟩ := hl
    have hbefore : (if pos < s.start then plain (slice text pos s.start) else []).flatMap write =
        slice text pos s.start := by
      split
      next => exact hplain _
      next h =>
        rw [slice, List.drop_eq_nil_of_le]
        · rfl
        · exact Nat.le_trans (List.length_take_le _ _) (Nat.le_of_not_lt h)
    rw [cut, List.flatMap_append, List.flatMap_append, hbefore, hspecial s List.mem_cons_self,
      ih (fun t ht => hspecial t (List.mem_cons_of_mem _ ht)) hl, List.append_assoc,
      slice_append_drop text hs, slice_append_drop text hpos]

/-- What is made of the pieces may be made of the text at once. -/
theorem filterMap_cut (f : β → Option γ) (pos : ℕ) (l : List (Span α)) :
    (cut text plain special pos l).filterMap f =
      cut text (fun t => (plain t).filterMap f) (fun s => (special s).filterMap f) pos l := by
  induction l generalizing pos with
  | nil =>
    rw [cut, cut]
    split <;> rfl
  | cons s l ih =>
    rw [cut, cut, List.filterMap_append, List.filterMap_append, ih]
    split <;> rfl

/-- If nothing is made of the text between the spans, only they count. -/
theorem cut_nil (pos : ℕ) (l : List (Span α)) :
    cut text (fun _ => []) special pos l = l.flatMap special := by
  induction l generalizing pos with
  | nil => rw [cut, ite_self]; rfl
  | cons s l ih => rw [cut, ite_self, ih, List.nil_append]; rfl

end Scan
