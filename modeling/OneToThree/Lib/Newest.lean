import Mathlib.Data.Finset.Card
import Mathlib.Data.List.Sort

/-!
# The newest of what was seen

Entries that each have a rank, and a bounded list that keeps the newest of them, one a
rank: those of the largest ranks that were ever seen.

* `Newest.sort` puts the newest entries first, and `Newest.keep` is what is left of a
  list after another entry comes, up to a bound.
* `Newest.Holds` is what such a list holds of the ranks that were seen; it is kept when a
  new rank comes (`Holds.keep`), and when a rank comes again (`Holds.again`).
* `Holds.mem_of_newest`: a rank with fewer newer ones than the bound has its entry.
-/

namespace Newest

variable {α κ : Type*} [LinearOrder κ] (rank : α → κ)

/-- `a` stands before `b`: it is not older. -/
def Before (a b : α) : Prop := rank b ≤ rank a

instance : DecidableRel (Before rank) := fun a b => inferInstanceAs (Decidable (rank b ≤ rank a))

instance : Std.Total (Before rank) := ⟨fun a b => le_total (rank b) (rank a)⟩

instance : IsTrans α (Before rank) := ⟨fun _ _ _ hab hbc => le_trans hbc hab⟩

/-- The entries, newest first. -/
def sort (l : List α) : List α := l.insertionSort (Before rank)

/-- What is kept of a list and another entry. -/
def keep (cap : ℕ) (l : List α) (a : α) : List α := (sort rank (l ++ [a])).take cap

/-- The entries are newest first, and no two of them have the same rank. -/
def Descending (l : List α) : Prop := l.Pairwise fun a b => rank b < rank a

variable {rank} {l : List α} {a : α} {cap : ℕ}

theorem Descending.sort_eq (h : Descending rank l) : sort rank l = l :=
  List.Pairwise.insertionSort_eq (h.imp fun hlt => le_of_lt hlt)

theorem sort_descending (h : (l.map rank).Nodup) : Descending rank (sort rank l) := by
  have hnodup : ((sort rank l).map rank).Nodup :=
    (((List.perm_insertionSort (Before rank) l).map rank).nodup_iff).2 h
  have hsorted : (sort rank l).Pairwise (Before rank) := List.pairwise_insertionSort _ l
  exact (hsorted.and (List.pairwise_map.1 hnodup)).imp
    fun ⟨hle, hne⟩ => lt_of_le_of_ne hle hne.symm

@[simp] theorem mem_sort {b : α} : b ∈ sort rank l ↔ b ∈ l := List.mem_insertionSort _

theorem Descending.nodup (h : Descending rank l) : (l.map rank).Nodup :=
  List.pairwise_map.2 (h.imp fun hlt => ne_of_gt hlt)

theorem keep_length_le : (keep rank cap l a).length ≤ cap := List.length_take_le _ _

theorem mem_of_mem_keep {b : α} (h : b ∈ keep rank cap l a) : b ∈ l ∨ b = a := by
  simpa using List.mem_of_mem_take h

theorem Descending.keep (h : Descending rank l) (ha : rank a ∉ l.map rank) :
    Descending rank (keep rank cap l a) := by
  have hnodup : ((l ++ [a]).map rank).Nodup := by
    rw [List.map_append, List.map_singleton, ← List.concat_eq_append]
    exact h.nodup.concat ha
  exact (sort_descending hnodup).sublist (List.take_sublist _ _)

/-- What is not kept is older than all that is, of which there is no more room. -/
theorem mem_keep_or (h : Descending rank l) (ha : rank a ∉ l.map rank) {b : α}
    (hb : b ∈ l ∨ b = a) : b ∈ keep rank cap l a ∨
      (cap ≤ (keep rank cap l a).length ∧ ∀ c ∈ keep rank cap l a, rank b < rank c) := by
  have hmem : b ∈ sort rank (l ++ [a]) := by simpa using hb
  have hnodup : ((l ++ [a]).map rank).Nodup := by
    rw [List.map_append, List.map_singleton, ← List.concat_eq_append]
    exact h.nodup.concat ha
  have hsorted := sort_descending hnodup
  rw [← List.take_append_drop cap (sort rank (l ++ [a]))] at hmem hsorted
  refine (List.mem_append.1 hmem).imp_right fun hdrop => ⟨?_, fun c hc => ?_⟩
  · have hlt : cap < (sort rank (l ++ [a])).length := by
      by_contra hle
      rw [List.drop_eq_nil_of_le (Nat.le_of_not_lt hle)] at hdrop
      exact absurd hdrop List.not_mem_nil
    rw [Newest.keep, List.length_take]
    exact Nat.le_of_eq (Nat.min_eq_left (Nat.le_of_lt hlt)).symm
  · exact (List.pairwise_append.1 hsorted).2.2 c hc b hdrop

/-- An entry that is older than a full list is not kept. -/
theorem keep_of_full (h : Descending rank l) (hlen : l.length = cap)
    (hold : ∀ b ∈ l, rank a < rank b) : keep rank cap l a = l := by
  have hsorted : Descending rank (l ++ [a]) := by
    refine List.pairwise_append.2 ⟨h, List.pairwise_singleton _ _, fun b hb c hc => ?_⟩
    exact List.mem_singleton.1 hc ▸ hold b hb
  rw [Newest.keep, hsorted.sort_eq, List.take_left' hlen]

/-! ## What a bounded list holds -/

variable (rank cap)

/-- The list holds the newest entries, up to `cap`, of the ranks that were seen. -/
structure Holds (seen : Finset κ) (l : List α) : Prop where
  descending : Descending rank l
  length : l.length ≤ cap
  known : ∀ a ∈ l, rank a ∈ seen
  newest : ∀ k ∈ seen, k ∈ l.map rank ∨ (cap ≤ l.length ∧ ∀ a ∈ l, k < rank a)

variable {rank cap} {seen : Finset κ}

theorem Holds.empty : Holds rank cap ∅ ([] : List α) :=
  ⟨List.Pairwise.nil, Nat.zero_le _, fun _ h => absurd h List.not_mem_nil,
    fun k h => absurd h (Finset.notMem_empty k)⟩

/-- A new rank comes, and one of the oldest entries may go. -/
theorem Holds.keep (h : Holds rank cap seen l) (ha : rank a ∉ l.map rank) :
    Holds rank cap (insert (rank a) seen) (keep rank cap l a) where
  descending := h.descending.keep ha
  length := keep_length_le
  known b hb := by
    rcases mem_of_mem_keep hb with hb | rfl
    · exact Finset.mem_insert_of_mem (h.known b hb)
    · exact Finset.mem_insert_self _ _
  newest k hk := by
    have hkept : ∀ b, b ∈ l ∨ b = a → rank b ∈ (Newest.keep rank cap l a).map rank ∨
        (cap ≤ (Newest.keep rank cap l a).length ∧
          ∀ c ∈ Newest.keep rank cap l a, rank b < rank c) :=
      fun b hb => (mem_keep_or h.descending ha hb).imp_left List.mem_map_of_mem
    rcases Finset.mem_insert.1 hk with rfl | hk
    · exact hkept a (.inr rfl)
    · rcases h.newest k hk with hmem | ⟨hfull, hold⟩
      · obtain ⟨b, hb, rfl⟩ := List.mem_map.1 hmem
        exact hkept b (.inl hb)
      · right
        rcases lt_or_ge k (rank a) with hnewer | hle
        · refine ⟨?_, fun c hc => ?_⟩
          · rw [Newest.keep, List.length_take, sort, List.length_insertionSort, List.length_append]
            omega
          · rcases mem_of_mem_keep hc with hc | rfl
            exacts [hold c hc, hnewer]
        · rw [keep_of_full h.descending (le_antisymm h.length hfull)
            fun b hb => lt_of_le_of_lt hle (hold b hb)]
          exact ⟨hfull, hold⟩

/-- A rank that is held already comes again. -/
theorem Holds.again (h : Holds rank cap seen l) {k : κ} (hk : k ∈ l.map rank) :
    Holds rank cap (insert k seen) l where
  descending := h.descending
  length := h.length
  known b hb := Finset.mem_insert_of_mem (h.known b hb)
  newest k' hk' := by
    rcases Finset.mem_insert.1 hk' with rfl | hk'
    · exact .inl hk
    · exact h.newest k' hk'

/-- A rank with fewer newer ones than there is room for has its entry. -/
theorem Holds.mem_of_newest (h : Holds rank cap seen l) {k : κ} (hk : k ∈ seen)
    (hnewer : (seen.filter (k < ·)).card < cap) : k ∈ l.map rank := by
  refine (h.newest k hk).resolve_right fun ⟨hfull, hold⟩ => ?_
  have hsub : (l.map rank).toFinset ⊆ seen.filter (k < ·) := by
    intro k' hk'
    obtain ⟨b, hb, rfl⟩ := List.mem_map.1 (List.mem_toFinset.1 hk')
    exact Finset.mem_filter.2 ⟨h.known b hb, hold b hb⟩
  have hcard := Finset.card_le_card hsub
  rw [List.toFinset_card_of_nodup h.descending.nodup, List.length_map] at hcard
  omega

/-- Ranks with no room for them may have been seen as well. -/
theorem Holds.extend (h : Holds rank cap seen l) {seen' : Finset κ} (hsub : seen ⊆ seen')
    (hold : ∀ k ∈ seen', k ∈ seen ∨ cap ≤ (seen.filter (k < ·)).card) :
    Holds rank cap seen' l where
  descending := h.descending
  length := h.length
  known a ha := hsub (h.known a ha)
  newest k hk := by
    rcases hold k hk with hk | hnewer
    · exact h.newest k hk
    · right
      by_cases hheld : ∀ k' ∈ seen.filter (k < ·), k' ∈ l.map rank
      · -- The newer ranks are all held, and there is no room for others.
        have hcard : (l.map rank).toFinset.card = l.length := by
          rw [List.toFinset_card_of_nodup h.descending.nodup, List.length_map]
        have heq : seen.filter (k < ·) = (l.map rank).toFinset :=
          Finset.eq_of_subset_of_card_le (fun k' hk' => List.mem_toFinset.2 (hheld k' hk'))
            (hcard.trans_le (h.length.trans hnewer))
        refine ⟨by rwa [heq, hcard] at hnewer, fun a ha => ?_⟩
        have ha' := List.mem_toFinset.2 (List.mem_map_of_mem (f := rank) ha)
        rw [← heq] at ha'
        exact (Finset.mem_filter.1 ha').2
      · obtain ⟨k', hk', hlost⟩ := not_forall₂.1 hheld
        obtain ⟨hmem, hlt⟩ := Finset.mem_filter.1 hk'
        obtain ⟨hfull, hlast⟩ := (h.newest k' hmem).resolve_left hlost
        exact ⟨hfull, fun a ha => hlt.trans (hlast a ha)⟩

end Newest
