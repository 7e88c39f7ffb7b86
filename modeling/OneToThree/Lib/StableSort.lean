import Mathlib.Data.List.Basic

/-!
# Sorting by a total preorder

What a stable sort leaves in place, and what moving an element of a sorted list does.

* `filter_mergeSort`: a part of a list that is in order keeps its order in the sorted list.
* `pairwise_forward_iff`, `pairwise_backward_iff`: an element of a sorted list can be moved
  past others, the list staying sorted, exactly if it ties with the last one it passes.
* `split_getElem?_getElem?`: a list as what stands before, between and behind two elements.
-/

namespace StableSort

variable {α : Type*} {le : α → α → Bool}

/-- A part of a list that is in order keeps its order in the sorted list. -/
theorem filter_mergeSort (htrans : ∀ a b c, le a b → le b c → le a c)
    (htotal : ∀ a b, le a b || le b a) {p : α → Bool} {l : List α}
    (h : (l.filter p).Pairwise fun a b => le a b) :
    (l.mergeSort le).filter p = l.filter p := by
  have hsub : (l.filter p).Sublist ((l.mergeSort le).filter p) := by
    have := (List.sublist_mergeSort htrans htotal h (List.filter_sublist (l := l))).filter p
    simpa [List.filter_filter] using this
  exact (hsub.eq_of_length ((List.mergeSort_perm l le).filter p).length_eq.symm).symm

/-- Moving `x` forward, to behind `y`. -/
theorem pairwise_forward_iff (htrans : ∀ a b c, le a b → le b c → le a c) {pre mid post : List α}
    {x y : α} (h : (pre ++ x :: (mid ++ y :: post)).Pairwise fun a b => le a b) :
    ((pre ++ (mid ++ y :: x :: post)).Pairwise fun a b => le a b) ↔ le y x = true := by
  simp only [List.pairwise_append, List.pairwise_cons, List.mem_append, List.mem_cons] at h ⊢
  constructor
  · rintro ⟨-, ⟨-, ⟨hy, -⟩, -⟩, -⟩
    exact hy x (.inl rfl)
  · intro hyx
    obtain ⟨hpre, ⟨hx, hmid, ⟨hy, hpost⟩, hmidy⟩, hprex⟩ := h
    -- What stands before `y` is before `x` as well.
    have hmidx : ∀ a ∈ mid, le a x = true := fun a ha => htrans a y x (hmidy a ha y (.inl rfl)) hyx
    refine ⟨hpre, ⟨hmid, ⟨?_, ?_, hpost⟩, ?_⟩, ?_⟩
    · rintro b (rfl | hb)
      exacts [hyx, hy b hb]
    · exact fun b hb => hx b (.inr (.inr hb))
    · rintro a ha b (rfl | rfl | hb)
      exacts [hmidy a ha b (.inl rfl), hmidx a ha, hmidy a ha b (.inr hb)]
    · rintro a ha b (hb | rfl | rfl | hb)
      exacts [hprex a ha b (.inr (.inl hb)), hprex a ha b (.inr (.inr (.inl rfl))),
        hprex a ha b (.inl rfl), hprex a ha b (.inr (.inr (.inr hb)))]

/-- Moving `x` backward, to before `y`. -/
theorem pairwise_backward_iff (htrans : ∀ a b c, le a b → le b c → le a c)
    {pre mid post : List α} {x y : α}
    (h : (pre ++ y :: (mid ++ x :: post)).Pairwise fun a b => le a b) :
    ((pre ++ x :: y :: (mid ++ post)).Pairwise fun a b => le a b) ↔ le x y = true := by
  simp only [List.pairwise_append, List.pairwise_cons, List.mem_append, List.mem_cons] at h ⊢
  constructor
  · rintro ⟨-, ⟨hx, -⟩, -⟩
    exact hx y (.inl rfl)
  · intro hxy
    obtain ⟨hpre, ⟨hy, hmid, ⟨hx, hpost⟩, hmidx⟩, hprey⟩ := h
    refine ⟨hpre, ⟨?_, ?_, hmid, hpost, ?_⟩, ?_⟩
    · rintro b (rfl | hb | hb)
      exacts [hxy, htrans x y b hxy (hy b (.inl hb)), hx b hb]
    · rintro b (hb | hb)
      exacts [hy b (.inl hb), hy b (.inr (.inr hb))]
    · exact fun a ha b hb => hmidx a ha b (.inr hb)
    · rintro a ha b (rfl | rfl | hb | hb)
      exacts [hprey a ha b (.inr (.inr (.inl rfl))), hprey a ha b (.inl rfl),
        hprey a ha b (.inr (.inl hb)), hprey a ha b (.inr (.inr (.inr hb)))]

/-- A list at one position. -/
theorem split_getElem? {l : List α} {i : ℕ} {x : α} (h : l[i]? = some x) :
    ∃ pre post, l = pre ++ x :: post ∧ pre.length = i := by
  obtain ⟨hlt, rfl⟩ := List.getElem?_eq_some_iff.1 h
  refine ⟨l.take i, l.drop (i + 1), ?_, List.length_take_of_le (Nat.le_of_lt hlt)⟩
  rw [← List.drop_eq_getElem_cons, List.take_append_drop]

/-- A list at two positions. -/
theorem split_getElem?_getElem? {l : List α} {i j : ℕ} {x y : α} (hij : i < j)
    (hx : l[i]? = some x) (hy : l[j]? = some y) :
    ∃ pre mid post, l = pre ++ x :: (mid ++ y :: post) ∧ pre.length = i ∧
      i + 1 + mid.length = j := by
  obtain ⟨pre, rest, rfl, rfl⟩ := split_getElem? hx
  rw [List.getElem?_append_right (Nat.le_of_lt hij), List.getElem?_cons, if_neg (by omega)] at hy
  obtain ⟨mid, post, rfl, hmid⟩ := split_getElem? hy
  exact ⟨pre, mid, post, rfl, rfl, by omega⟩

end StableSort
