import Mathlib.Data.List.Sort

/-!
# Reading a list page by page

A page is the first elements behind a cursor, so many at most, and whether there are more. A
reader asks for the page behind the last element of the page before, until there are no more.

Where every element of the list lies behind the one before it, the reader has what is behind
the first cursor in the end (`pages_page`).
-/

namespace Paging

variable {α C : Type} (behind : C → α → Bool) (cursor : α → C)

/-- The first elements behind a cursor, so many at most, and whether there are more. -/
def page (max : ℕ) (l : List α) (c : C) : List α × Bool :=
  let rest := l.filter (behind c)
  let first := rest.take max
  (first, first.length < rest.length)

/-- All the pages behind a cursor, in so many requests at most. -/
def pages (list : C → Option (List α × Bool)) : ℕ → C → Option (List α)
  | 0, _ => none
  | n + 1, c =>
    match list c with
    | none => none
    | some (first, truncated) =>
      match truncated, first.getLast? with
      | true, some a => (pages list n (cursor a)).map (first ++ ·)
      | _, _ => some first

/-- Each element of a list lies behind the elements before it, and behind nothing else. -/
def InOrder (l : List α) : Prop :=
  l.Pairwise (fun a b => behind (cursor a) b = true ∧ behind (cursor b) a = false) ∧
    ∀ a ∈ l, behind (cursor a) a = false

variable {behind cursor} {l : List α}

theorem InOrder.filter (h : InOrder behind cursor l) (p : α → Bool) :
    InOrder behind cursor (l.filter p) :=
  ⟨h.1.filter p, fun a ha => h.2 a (List.mem_of_mem_filter ha)⟩

/-- Behind an element there is the rest of the list. -/
theorem InOrder.filter_cursor {a : α} {before after : List α}
    (h : InOrder behind cursor (before ++ a :: after)) :
    (before ++ a :: after).filter (behind (cursor a)) = after := by
  obtain ⟨-, ha, hbefore⟩ := List.pairwise_append.1 h.1
  have hself := h.2 a (List.mem_append_right _ List.mem_cons_self)
  have hno : before.filter (behind (cursor a)) = [] := by
    rw [List.filter_eq_nil_iff]
    intro b hb
    rw [(hbefore b hb a List.mem_cons_self).2]
    exact Bool.false_ne_true
  have hall : after.filter (behind (cursor a)) = after :=
    List.filter_eq_self.2 fun b hb => (List.rel_of_pairwise_cons ha hb).1
  rw [List.filter_append, hno, List.nil_append, List.filter_cons_of_neg (by rw [hself]; simp), hall]

/-- What is behind an element is behind every cursor that the element is behind. -/
theorem filter_behind_of_mem (htrans : ∀ c a b, behind c a → behind (cursor a) b → behind c b)
    {c : C} {a : α} (ha : behind c a) :
    (l.filter (behind c)).filter (behind (cursor a)) = l.filter (behind (cursor a)) := by
  rw [List.filter_filter]
  refine List.filter_congr fun b _ => ?_
  by_cases hb : behind (cursor a) b = true
  · rw [hb, htrans c a b ha hb, Bool.and_self]
  · rw [eq_false_of_ne_true hb, Bool.false_and]

/-- The pages of a list are what is behind the first cursor. -/
theorem pages_page (htrans : ∀ c a b, behind c a → behind (cursor a) b → behind c b)
    (h : InOrder behind cursor l) {max : ℕ} (hmax : 0 < max) {n : ℕ} {c : C}
    (hn : (l.filter (behind c)).length < n) :
    pages cursor (fun c => some (page behind max l c)) n c = some (l.filter (behind c)) := by
  induction n generalizing c with
  | zero => exact absurd hn (Nat.not_lt_zero _)
  | succ n ih =>
    rw [pages, page]
    by_cases hmore : ((l.filter (behind c)).take max).length < (l.filter (behind c)).length
    · obtain ⟨before, a, hfirst⟩ : ∃ before a,
          (l.filter (behind c)).take max = before ++ [a] := by
        rcases List.eq_nil_or_concat ((l.filter (behind c)).take max) with hnil | ⟨b, a, hb⟩
        · rw [hnil] at hmore
          rw [List.take_eq_nil_iff] at hnil
          rcases hnil with hzero | hnil
          · omega
          · rw [hnil] at hmore
            cases hmore
        · exact ⟨b, a, by rw [hb, List.concat_eq_append]⟩
      -- The next page begins behind the last element of this one.
      have hsplit := List.take_append_drop max (l.filter (behind c))
      rw [hfirst, List.append_assoc, List.singleton_append] at hsplit
      have ha : behind c a = true :=
        List.of_mem_filter (hsplit ▸ List.mem_append_right _ List.mem_cons_self)
      have hrest : l.filter (behind (cursor a)) = (l.filter (behind c)).drop max := by
        have hcursor := InOrder.filter_cursor (hsplit ▸ h.filter (behind c))
        rwa [hsplit, filter_behind_of_mem htrans ha] at hcursor
      have hfew : (l.filter (behind (cursor a))).length < n := by
        rw [hrest, List.length_drop]
        omega
      rw [hfirst] at hmore
      simp only [hfirst, List.getLast?_concat, decide_eq_true hmore, ih hfew]
      rw [Option.map_some, hrest, ← hfirst, List.take_append_drop]
    · have hall : (l.filter (behind c)).take max = l.filter (behind c) := by
        rw [List.length_take] at hmore
        exact List.take_of_length_le (by omega)
      simp only [hall, Nat.lt_irrefl, decide_false]

end Paging
