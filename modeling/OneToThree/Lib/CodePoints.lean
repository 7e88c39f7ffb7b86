import Mathlib.Data.List.Chain
import OneToThree.Lib.JsonUnits

/-!
# Texts by their code points

The code points of a text (`JsText.points`), each a text of its own: a surrogate pair, or a single
unit, which may be a half of a pair that stands alone.

* `points_flatten`: a text is put together from other code points than it has only where halves
  meet.
* `trim` and `collapse`, which leaves one blank of each run of white space, work on the units of a
  text. Of a text without single halves they leave some of the code points (`trim_flatten`,
  `collapse_flatten`).
-/

namespace JsText

open JsonUnits (isHigh isLow)

/-- `Array.from(t)`. -/
def points : JsText → List JsText
  | [] => []
  | [u] => [[u]]
  | h :: l :: t => if isHigh h && isLow l then [h, l] :: points t else [h] :: points (l :: t)

/-- The number of a code point. -/
def codePoint : JsText → ℕ
  | [h, l] => 0x10000 + (h - 0xD800) * 0x400 + (l - 0xDC00)
  | [u] => u
  | _ => 0

/-- A code point that is not a half of a surrogate pair. -/
def isScalar : JsText → Bool
  | [h, l] => isHigh h && isLow l
  | [u] => !isHigh u && !isLow u
  | _ => false

/-- `t.isWellFormed()`. -/
def isWellFormed (t : JsText) : Bool := (points t).all isScalar

/-- `t.replace(/\s+/g, ' ')`. `after`: the unit before was white space. -/
def collapse : (after : Bool) → JsText → JsText
  | _, [] => []
  | after, u :: t =>
    if isSpace u then if after then collapse true t else 0x20 :: collapse true t
    else u :: collapse false t

/-- `t.replace(/\s+/g, '')`. -/
def removeSpaces (t : JsText) : JsText := t.filter fun u => !isSpace u

theorem isScalar_cases {p : JsText} (h : isScalar p = true) :
    (∃ u, p = [u] ∧ isHigh u = false ∧ isLow u = false) ∨
      ∃ h l, p = [h, l] ∧ isHigh h = true ∧ isLow l = true := by
  unfold isScalar at h
  split at h
  · exact .inr ⟨_, _, rfl, Bool.and_eq_true_iff.1 h⟩
  · obtain ⟨hh, hl⟩ := Bool.and_eq_true_iff.1 h
    rw [Bool.not_eq_true'] at hh hl
    exact .inl ⟨_, rfl, hh, hl⟩
  · cases h

theorem points_cons {u : ℕ} (h : isHigh u = false) (t : JsText) :
    points (u :: t) = [u] :: points t := by
  cases t with
  | nil => rfl
  | cons l t => rw [points, h, Bool.false_and, if_neg Bool.false_ne_true]

/-- Where no halves meet, the code points are those that a text is put together from. -/
theorem points_flatten {ps : List JsText} (h : ∀ p ∈ ps, isScalar p = true) :
    points ps.flatten = ps := by
  induction ps with
  | nil => rfl
  | cons p ps ih =>
    have ih := ih fun q hq => h q (List.mem_cons_of_mem _ hq)
    rcases isScalar_cases (h p List.mem_cons_self) with ⟨u, rfl, hu, -⟩ | ⟨hi, lo, rfl, hhi, hlo⟩
    · rw [List.flatten_cons, List.singleton_append, points_cons hu, ih]
    · change points (hi :: lo :: ps.flatten) = _
      rw [points, hhi, hlo, Bool.true_and, if_pos rfl, ih]

/-! ## White space -/

theorem isSpace_of_isHigh {u : ℕ} (h : isHigh u = true) : isSpace u = false := by
  simp only [isHigh, Bool.and_eq_true, decide_eq_true_eq] at h
  simp only [isSpace, Bool.or_eq_false_iff, Bool.and_eq_false_iff, decide_eq_false_iff_not]
  omega

theorem isSpace_of_isLow {u : ℕ} (h : isLow u = true) : isSpace u = false := by
  simp only [isLow, Bool.and_eq_true, decide_eq_true_eq] at h
  simp only [isSpace, Bool.or_eq_false_iff, Bool.and_eq_false_iff, decide_eq_false_iff_not]
  omega

section
variable {ps : List JsText}

/-- Spaces are taken off a text by its code points. -/
theorem trimStart_flatten (h : ∀ p ∈ ps, isScalar p = true) :
    ∃ qs : List JsText, qs.Sublist ps ∧ trimStart ps.flatten = qs.flatten := by
  induction ps with
  | nil => exact ⟨[], List.Sublist.refl _, rfl⟩
  | cons p ps ih =>
    rcases isScalar_cases (h p List.mem_cons_self) with ⟨u, rfl, -, -⟩ | ⟨hi, lo, rfl, hhi, -⟩
    · by_cases hu : isSpace u = true
      · obtain ⟨qs, hsub, hqs⟩ := ih fun q hq => h q (List.mem_cons_of_mem _ hq)
        refine ⟨qs, hsub.cons _, ?_⟩
        rw [← hqs]
        exact List.dropWhile_cons_of_pos hu
      · exact ⟨_, List.Sublist.refl _, List.dropWhile_cons_of_neg hu⟩
    · refine ⟨_, List.Sublist.refl _, List.dropWhile_cons_of_neg ?_⟩
      rw [isSpace_of_isHigh hhi]
      exact Bool.false_ne_true

theorem trimEnd_flatten (h : ∀ p ∈ ps, isScalar p = true) :
    ∃ qs : List JsText, qs.Sublist ps ∧ (trimStart ps.flatten.reverse).reverse = qs.flatten := by
  induction ps using List.reverseRecOn with
  | nil => exact ⟨[], List.Sublist.refl _, rfl⟩
  | append_singleton ps p ih =>
    have hrest := ih fun q hq => h q (List.mem_append_left _ hq)
    -- The last unit of the text is that of the last code point.
    have hkeep : ∀ u t, p.reverse = u :: t → isSpace u = false →
        (trimStart (ps ++ [p]).flatten.reverse).reverse = (ps ++ [p]).flatten := by
      intro u t hp hu
      rw [List.flatten_append, List.flatten_singleton, List.reverse_append, hp,
        trimStart_eq_self (t := u :: t ++ _) fun v hv => Option.some.inj hv ▸ hu, ← hp,
        List.reverse_append, List.reverse_reverse, List.reverse_reverse]
    rcases isScalar_cases (h p (List.mem_append_right _ List.mem_cons_self)) with
      ⟨u, rfl, -, -⟩ | ⟨hi, lo, rfl, -, hlo⟩
    · by_cases hu : isSpace u = true
      · obtain ⟨qs, hsub, hqs⟩ := hrest
        refine ⟨qs, hsub.trans (List.sublist_append_left _ _), ?_⟩
        rw [← hqs, List.flatten_append, List.flatten_singleton, List.reverse_append,
          List.reverse_singleton, List.singleton_append]
        exact congrArg List.reverse (List.dropWhile_cons_of_pos hu)
      · exact ⟨_, List.Sublist.refl _, hkeep u [] rfl (Bool.not_eq_true _ ▸ hu)⟩
    · exact ⟨_, List.Sublist.refl _, hkeep lo [hi] rfl (isSpace_of_isLow hlo)⟩

theorem trim_flatten (h : ∀ p ∈ ps, isScalar p = true) :
    ∃ qs : List JsText, qs.Sublist ps ∧ trim ps.flatten = qs.flatten := by
  obtain ⟨qs, hqs, heq⟩ := trimStart_flatten h
  obtain ⟨rs, hrs, heq'⟩ := trimEnd_flatten fun p hp => h p (hqs.subset hp)
  exact ⟨rs, hrs.trans hqs, by rw [trim, heq, heq']⟩

/-- A run of white space becomes a blank, and the other code points stay. -/
theorem collapse_flatten (h : ∀ p ∈ ps, isScalar p = true) (after : Bool) :
    ∃ qs : List JsText, (∀ q ∈ qs, q = [0x20] ∨ q ∈ ps) ∧
      collapse after ps.flatten = qs.flatten := by
  induction ps generalizing after with
  | nil => exact ⟨[], fun _ hq => absurd hq List.not_mem_nil, rfl⟩
  | cons p ps ih =>
    have ih := ih fun q hq => h q (List.mem_cons_of_mem _ hq)
    have hrest : ∀ {qs : List JsText}, (∀ q ∈ qs, q = [0x20] ∨ q ∈ ps) →
        ∀ q ∈ qs, q = [0x20] ∨ q ∈ p :: ps :=
      fun hqs q hq => (hqs q hq).imp_right (List.mem_cons_of_mem _)
    rcases isScalar_cases (h p List.mem_cons_self) with ⟨u, rfl, -, -⟩ | ⟨hi, lo, rfl, hhi, hlo⟩
    · by_cases hu : isSpace u = true
      · obtain ⟨qs, hqs, heq⟩ := ih true
        cases after with
        | true => exact ⟨qs, hrest hqs, by simp [collapse, hu, heq]⟩
        | false =>
          refine ⟨[0x20] :: qs, ?_, by simp [collapse, hu, heq]⟩
          exact List.forall_mem_cons.2 ⟨.inl rfl, hrest hqs⟩
      · obtain ⟨qs, hqs, heq⟩ := ih false
        refine ⟨[u] :: qs, ?_, by simp [collapse, hu, heq]⟩
        exact List.forall_mem_cons.2 ⟨.inr List.mem_cons_self, hrest hqs⟩
    · obtain ⟨qs, hqs, heq⟩ := ih false
      refine ⟨[hi, lo] :: qs, ?_, by
        simp [collapse, isSpace_of_isHigh hhi, isSpace_of_isLow hlo, heq]⟩
      exact List.forall_mem_cons.2 ⟨.inr List.mem_cons_self, hrest hqs⟩

end

/-- White space that is single blanks. -/
structure Collapsed (t : JsText) : Prop where
  blank : ∀ u ∈ t, isSpace u = true → u = 0x20
  single : t.IsChain fun u v => ¬(isSpace u = true ∧ isSpace v = true)

theorem collapsed_collapse (after : Bool) (t : JsText) : Collapsed (collapse after t) ∧
    (after = true → ∀ u ∈ (collapse after t).head?, isSpace u = false) := by
  induction t generalizing after with
  | nil => exact ⟨⟨fun _ h => absurd h List.not_mem_nil, .nil⟩, fun _ _ h => by cases h⟩
  | cons u t ih =>
    by_cases hu : isSpace u = true
    · obtain ⟨hc, hhead⟩ := ih true
      cases after with
      | true =>
        rw [collapse, if_pos hu, if_pos rfl]
        exact ⟨hc, hhead⟩
      | false =>
        rw [collapse, if_pos hu, if_neg Bool.false_ne_true]
        refine ⟨⟨List.forall_mem_cons.2 ⟨fun _ => rfl, hc.blank⟩, ?_⟩, fun h => by cases h⟩
        refine List.isChain_cons.2 ⟨fun v hv hboth => ?_, hc.single⟩
        exact Bool.false_ne_true ((hhead rfl v hv).symm.trans hboth.2)
    · rw [collapse, if_neg hu]
      obtain ⟨hc, -⟩ := ih false
      refine ⟨⟨List.forall_mem_cons.2 ⟨fun h => absurd h hu, hc.blank⟩, ?_⟩, fun _ v hv => ?_⟩
      · exact List.isChain_cons.2 ⟨fun v _ hboth => hu hboth.1, hc.single⟩
      · exact Option.some.inj hv ▸ Bool.not_eq_true _ ▸ hu

theorem Collapsed.collapse_eq {t : JsText} (h : Collapsed t) {after : Bool}
    (hafter : after = true → ∀ u ∈ t.head?, isSpace u = false) : collapse after t = t := by
  induction t generalizing after with
  | nil => rfl
  | cons u t ih =>
    obtain ⟨hblank, hsingle⟩ := h
    obtain ⟨hhead, htail⟩ := List.isChain_cons.1 hsingle
    have ht : Collapsed t := ⟨fun v hv => hblank v (List.mem_cons_of_mem _ hv), htail⟩
    by_cases hu : isSpace u = true
    · have hafter' : after = false := by
        by_contra hne
        exact Bool.false_ne_true ((hafter (Bool.not_eq_false _ ▸ hne) u rfl).symm.trans hu)
      have hnext : ∀ v ∈ t.head?, isSpace v = false := fun v hv =>
        Bool.not_eq_true _ ▸ fun h => hhead v hv ⟨hu, h⟩
      rw [collapse, if_pos hu, hafter', if_neg Bool.false_ne_true, ih ht fun _ => hnext,
        hblank u List.mem_cons_self hu]
    · rw [collapse, if_neg hu, ih ht fun h => by cases h]

/-- A part of a text is as collapsed as the text. -/
theorem Collapsed.of_append {a t b : JsText} (h : Collapsed (a ++ t ++ b)) : Collapsed t := by
  have hchain := List.isChain_append.1 (List.isChain_append.1 h.single).1
  exact ⟨fun u hu => h.blank u (List.mem_append_left _ (List.mem_append_right _ hu)),
    hchain.2.1⟩

theorem trimStart_eq_append (t : JsText) : ∃ b, trimStart t = trim t ++ b := by
  obtain ⟨b, hb⟩ := List.dropWhile_suffix isSpace (l := (trimStart t).reverse)
  refine ⟨b.reverse, ?_⟩
  rw [trim, ← List.reverse_append]
  exact List.reverse_eq_iff.1 hb.symm

theorem trim_append (t : JsText) : ∃ a b, t = a ++ trim t ++ b := by
  obtain ⟨a, ha⟩ := List.dropWhile_suffix isSpace (l := t)
  obtain ⟨b, hb⟩ := trimStart_eq_append t
  exact ⟨a, b, by rw [List.append_assoc, ← hb]; exact ha.symm⟩

theorem not_isSpace_head_trim (t : JsText) : ∀ u ∈ (trim t).head?, isSpace u = false := by
  intro u hu
  obtain ⟨b, hb⟩ := trimStart_eq_append t
  refine not_isSpace_head_trimStart t u ?_
  rw [hb, List.head?_append, show (trim t).head? = some u from hu]
  rfl

/-- What is no white space is not taken off. -/
theorem mem_trim {t : JsText} {u : ℕ} (hu : u ∈ t) (hspace : isSpace u = false) : u ∈ trim t := by
  have hmem : ∀ {t : JsText}, u ∈ t → u ∈ trimStart t := by
    intro t ht
    rw [← List.takeWhile_append_dropWhile (p := isSpace) (l := t)] at ht
    rcases List.mem_append.1 ht with ht | ht
    · have hspace' := List.all_eq_true.1 List.all_takeWhile u ht
      exact absurd (hspace'.symm.trans hspace) (Ne.symm Bool.false_ne_true)
    · exact ht
  exact List.mem_reverse.2 (hmem (List.mem_reverse.2 (hmem hu)))

end JsText
