import Mathlib.Data.Nat.Notation
import Mathlib.Tactic.SplitIfs

/-!
# Splitting a text

`SplitText.split` cuts a text at each occurrence of a separator, which may be of several
characters, from left to right. Texts in which the first character of the separator does not occur
are the pieces that come out of joining them (`split_join`).

A text is cut at a single character by `List.splitOn`; `splitOn_cases` takes off its first piece.
`cut` cuts it once, which tells texts without the character apart (`append_cons_inj_left`,
`append_cons_inj_right`).
-/

namespace SplitText

variable {C : Type} [DecidableEq C]

/-- Whether `sub` occurs in a text. -/
def includes (sub : List C) : List C → Bool
  | [] => sub.isPrefixOf []
  | c :: t => sub.isPrefixOf (c :: t) || includes sub t

/-- `skip`: how much of a separator is still to be passed. -/
def splitFrom (sep : List C) : (skip : ℕ) → List C → List (List C)
  | _, [] => [[]]
  | skip + 1, _ :: t => splitFrom sep skip t
  | 0, c :: t =>
    if sep.isPrefixOf (c :: t) then [] :: splitFrom sep (sep.length - 1) t
    else (splitFrom sep 0 t).modifyHead (c :: ·)

/-- The pieces between the occurrences of a separator that is not empty. -/
def split (sep t : List C) : List (List C) := splitFrom sep 0 t

variable {c : C} {sep : List C} {p t : List C} {ps : List (List C)}

theorem isPrefixOf_cons_eq_false {d : C} (h : c ≠ d) : (c :: sep).isPrefixOf (d :: t) = false := by
  rw [List.isPrefixOf_cons_cons, beq_false_of_ne h, Bool.false_and]

theorem not_includes (h : c ∉ t) : includes (c :: sep) t = false := by
  induction t with
  | nil => rfl
  | cons d t ih =>
    obtain ⟨hne, ht⟩ := not_or.1 fun hmem => h (List.mem_cons.2 hmem)
    rw [includes, isPrefixOf_cons_eq_false hne, ih ht, Bool.false_or]

theorem includes_append (p t : List C) : includes sep (p ++ sep ++ t) = true := by
  induction p with
  | nil =>
    have hprefix : sep.isPrefixOf (sep ++ t) = true :=
      List.isPrefixOf_iff_prefix.2 (List.prefix_append sep t)
    rw [List.nil_append]
    generalize sep ++ t = u at hprefix
    cases u with
    | nil => exact hprefix
    | cons d u => rw [includes, hprefix, Bool.true_or]
  | cons d p ih =>
    rw [List.cons_append, List.cons_append, includes, ih, Bool.or_true]

theorem splitFrom_skip (l t : List C) : splitFrom sep l.length (l ++ t) = splitFrom sep 0 t := by
  induction l with
  | nil => rfl
  | cons d l ih => exact ih

theorem split_of_not_mem (h : c ∉ p) : split (c :: sep) p = [p] := by
  induction p with
  | nil => rfl
  | cons d p ih =>
    obtain ⟨hne, hp⟩ := not_or.1 fun hmem => h (List.mem_cons.2 hmem)
    rw [split] at ih ⊢
    rw [splitFrom, isPrefixOf_cons_eq_false hne, if_neg Bool.false_ne_true, ih hp,
      List.modifyHead_cons]

theorem split_append (h : c ∉ p) (t : List C) :
    split (c :: sep) (p ++ c :: sep ++ t) = p :: split (c :: sep) t := by
  induction p with
  | nil =>
    have hprefix : (c :: sep).isPrefixOf (c :: (sep ++ t)) = true :=
      List.isPrefixOf_iff_prefix.2 (List.prefix_append (c :: sep) t)
    rw [List.nil_append, List.cons_append, split, splitFrom, if_pos hprefix]
    exact congrArg ([] :: ·) (splitFrom_skip sep t)
  | cons d p ih =>
    obtain ⟨hne, hp⟩ := not_or.1 fun hmem => h (List.mem_cons.2 hmem)
    have ih := ih hp
    rw [split] at ih ⊢
    rw [List.cons_append, List.cons_append, splitFrom, isPrefixOf_cons_eq_false hne,
      if_neg Bool.false_ne_true, ih, List.modifyHead_cons]

/-- What is joined is split again. -/
theorem split_join (hne : ps ≠ []) (h : ∀ p ∈ ps, c ∉ p) :
    split (c :: sep) ((c :: sep).intercalate ps) = ps := by
  induction ps with
  | nil => exact absurd rfl hne
  | cons p ps ih =>
    have hp := h p List.mem_cons_self
    cases ps with
    | nil => rw [List.intercalate_singleton, split_of_not_mem hp]
    | cons q ps =>
      rw [List.intercalate_cons_cons, split_append hp,
        ih (List.cons_ne_nil q ps) fun r hr => h r (List.mem_cons_of_mem _ hr)]

/-! ## At one character -/

/-- The first piece is all of a text, or it ends at the first separator. -/
theorem splitOn_cases (c : C) (t : List C) : (c ∉ t ∧ t.splitOn c = [t]) ∨
    ∃ p r, c ∉ p ∧ t = p ++ c :: r ∧ t.splitOn c = p :: r.splitOn c := by
  by_cases hc : c ∈ t
  · obtain ⟨p, r, rfl, hp⟩ := List.eq_append_cons_of_mem hc
    exact .inr ⟨p, r, hp, rfl, List.splitOn_append_cons_self_of_not_mem hp r⟩
  · exact .inl ⟨hc, List.splitOn_eq_singleton hc⟩

/-- What is before the first separator, and what is after it. -/
def cut (c : C) (t : List C) : Option (List C × List C) :=
  if c ∈ t then some (t.takeWhile (· ≠ c), (t.dropWhile (· ≠ c)).tail) else none

theorem cut_append (h : c ∉ p) (t : List C) : cut c (p ++ c :: t) = some (p, t) := by
  have hp : ∀ d ∈ p, decide (d ≠ c) = true := by
    intro d hd
    rw [decide_eq_true_iff]
    rintro rfl
    exact h hd
  rw [cut, if_pos (List.mem_append_right p List.mem_cons_self),
    List.takeWhile_append_of_pos hp, List.dropWhile_append_of_pos hp,
    List.takeWhile_cons_of_neg (by simp), List.dropWhile_cons_of_neg (by simp), List.append_nil,
    List.tail_cons]

theorem eq_of_cut {r : List C} (h : cut c t = some (p, r)) : t = p ++ c :: r := by
  obtain ⟨hc, h⟩ := Option.ite_none_right_eq_some.1 h
  obtain ⟨q, u, rfl, hq⟩ := List.eq_append_cons_of_mem hc
  have hcut := cut_append hq u
  rw [cut, if_pos hc, h] at hcut
  obtain ⟨rfl, rfl⟩ := Prod.mk.inj (Option.some.inj hcut)
  rfl

/-- Texts without the separator are told apart before it. -/
theorem append_cons_inj_left {p' t' : List C} (h : c ∉ p) (h' : c ∉ p')
    (heq : p ++ c :: t = p' ++ c :: t') : p = p' ∧ t = t' := by
  have hcut := cut_append h t
  rw [heq, cut_append h' t'] at hcut
  obtain ⟨hp, ht⟩ := Prod.mk.inj (Option.some.inj hcut)
  exact ⟨hp.symm, ht.symm⟩

/-- And after it. -/
theorem append_cons_inj_right {p' t' : List C} (h : c ∉ t) (h' : c ∉ t')
    (heq : p ++ c :: t = p' ++ c :: t') : p = p' ∧ t = t' := by
  have hreverse := congrArg List.reverse heq
  rw [List.reverse_append, List.reverse_append, List.reverse_cons, List.reverse_cons,
    List.append_assoc, List.append_assoc, List.singleton_append, List.singleton_append] at hreverse
  obtain ⟨ht, hp⟩ := append_cons_inj_left (mt List.mem_reverse.1 h) (mt List.mem_reverse.1 h')
    hreverse
  exact ⟨List.reverse_inj.1 hp, List.reverse_inj.1 ht⟩

end SplitText
