import Mathlib.Data.List.Nodup
import Mathlib.Data.List.Perm.Subperm

/-!
# Maps in the order of insertion

A finite map as the list of its entries, without duplicate keys, in the order in
which the keys were first inserted: writing to a key that is there keeps its
place, deleting it and writing again moves it to the end.

Reading after a write or a deletion is `get?_set_self`, `get?_set_ne`,
`get?_delete_self`, `get?_delete_ne`; the keys are those that `get?` answers for
(`mem_keys`). A set is a map to `Unit` (`InsSet`).
-/

/-- A map from `K` to `V`, in the order of insertion. -/
structure InsMap (K V : Type*) where
  /-- The entries, the oldest first. -/
  entries : List (K × V)
  nodup : (entries.map Prod.fst).Nodup

namespace InsMap

variable {K V : Type*}

/-- The map without entries. -/
def empty : InsMap K V := ⟨[], List.nodup_nil⟩

instance : EmptyCollection (InsMap K V) := ⟨empty⟩
instance : Inhabited (InsMap K V) := ⟨empty⟩

/-- The keys, the oldest first. -/
def keys (m : InsMap K V) : List K := m.entries.map Prod.fst

/-- The number of entries. -/
def size (m : InsMap K V) : ℕ := m.entries.length

@[simp] theorem keys_empty : (∅ : InsMap K V).keys = [] := rfl
@[simp] theorem size_empty : (∅ : InsMap K V).size = 0 := rfl

variable [DecidableEq K]

/-- The value of the first entry of `l` at the key `k`. -/
def find (k : K) : List (K × V) → Option V
  | [] => none
  | (k', v) :: l => if k' = k then some v else find k l

/-- The value at the key `k`, if there is one. -/
def get? (m : InsMap K V) (k : K) : Option V := find k m.entries

/-- There is an entry at the key `k`. -/
def has (m : InsMap K V) (k : K) : Bool := (m.get? k).isSome

/-- Overwriting the entries of `l` at `k` with the value `v`. -/
def overwrite (k : K) (v : V) (l : List (K × V)) : List (K × V) :=
  l.map fun p => if p.1 = k then (k, v) else p

theorem overwrite_keys (k : K) (v : V) (l : List (K × V)) :
    (overwrite k v l).map Prod.fst = l.map Prod.fst := by
  rw [overwrite, List.map_map]
  refine List.map_congr_left fun p _ => ?_
  by_cases h : p.1 = k <;> simp [h]

/-- Writing `v` at the key `k`: in its place if it is there, else at the end. -/
def set (m : InsMap K V) (k : K) (v : V) : InsMap K V :=
  if h : k ∈ m.keys then
    ⟨overwrite k v m.entries, overwrite_keys k v m.entries ▸ m.nodup⟩
  else
    ⟨m.entries ++ [(k, v)], by
      rw [List.map_append, List.nodup_append]
      refine ⟨m.nodup, List.nodup_singleton _, fun a ha b hb hab => h ?_⟩
      have hak : a = k := hab.trans (List.mem_singleton.1 hb)
      exact hak ▸ ha⟩

/-- Deleting the key `k`. -/
def delete (m : InsMap K V) (k : K) : InsMap K V :=
  ⟨m.entries.filter fun p => p.1 ≠ k, (m.nodup.sublist ((List.filter_sublist).map _))⟩

/-! ## Reading -/

@[simp] theorem get?_empty (k : K) : (∅ : InsMap K V).get? k = none := rfl
@[simp] theorem has_empty (k : K) : (∅ : InsMap K V).has k = false := rfl

theorem find_eq_none {k : K} {l : List (K × V)} : find k l = none ↔ k ∉ l.map Prod.fst := by
  induction l with
  | nil => simp [find]
  | cons p l ih =>
    by_cases h : p.1 = k
    · simp [find, h]
    · simp [find, h, ih, Ne.symm h]

theorem mem_keys {m : InsMap K V} {k : K} : k ∈ m.keys ↔ (m.get? k).isSome := by
  rw [← not_iff_not, Bool.not_eq_true, Option.isSome_eq_false_iff, Option.isNone_iff_eq_none]
  exact find_eq_none.symm

theorem mem_keys_iff_has {m : InsMap K V} {k : K} : k ∈ m.keys ↔ m.has k = true := mem_keys

instance (m : InsMap K V) (k : K) : Decidable (k ∈ m.keys) := inferInstance

theorem has_iff {m : InsMap K V} {k : K} : m.has k = true ↔ ∃ v, m.get? k = some v :=
  Option.isSome_iff_exists

theorem has_eq_false {m : InsMap K V} {k : K} : m.has k = false ↔ m.get? k = none := by
  rw [has, Option.isSome_eq_false_iff, Option.isNone_iff_eq_none]

theorem find_overwrite_self {k : K} (v : V) {l : List (K × V)} (h : k ∈ l.map Prod.fst) :
    find k (overwrite k v l) = some v := by
  induction l with
  | nil => exact absurd h List.not_mem_nil
  | cons p l ih =>
    rw [overwrite, List.map_cons]
    by_cases hp : p.1 = k
    · simp [find, hp]
    · have hk : k ∈ l.map Prod.fst := (List.mem_cons.1 h).resolve_left (Ne.symm hp)
      simpa [find, hp, overwrite] using ih hk

theorem find_overwrite_ne {k k' : K} (v : V) (l : List (K × V)) (h : k' ≠ k) :
    find k' (overwrite k v l) = find k' l := by
  induction l with
  | nil => rfl
  | cons p l ih =>
    rw [overwrite] at ih
    rw [overwrite, List.map_cons]
    by_cases hp : p.1 = k
    · simp [find, hp, ih, Ne.symm h]
    · simp [find, hp, ih]

theorem find_append (k : K) (l l' : List (K × V)) :
    find k (l ++ l') = (find k l).or (find k l') := by
  induction l with
  | nil => rfl
  | cons p l ih =>
    by_cases h : p.1 = k
    · simp [find, h]
    · simp [find, h, ih]

theorem get?_set (m : InsMap K V) (k k' : K) (v : V) :
    (m.set k v).get? k' = if k' = k then some v else m.get? k' := by
  by_cases hm : k ∈ m.keys
  · rw [set, dif_pos hm, get?, get?]
    by_cases hk : k' = k
    · rw [hk, if_pos rfl, find_overwrite_self v hm]
    · rw [if_neg hk, find_overwrite_ne v _ hk]
  · rw [set, dif_neg hm, get?, get?, find_append]
    by_cases hk : k' = k
    · rw [hk, if_pos rfl, find_eq_none.2 hm]
      simp [find]
    · simp [find, hk, Ne.symm hk]

theorem entries_set_of_not_mem (m : InsMap K V) {k : K} (v : V) (h : k ∉ m.keys) :
    (m.set k v).entries = m.entries ++ [(k, v)] := by
  rw [set, dif_neg h]

@[simp] theorem get?_set_self (m : InsMap K V) (k : K) (v : V) : (m.set k v).get? k = some v := by
  simp [get?_set]

theorem get?_set_ne (m : InsMap K V) {k k' : K} (v : V) (h : k' ≠ k) :
    (m.set k v).get? k' = m.get? k' := by
  simp [get?_set, h]

theorem find_filter (k k' : K) (l : List (K × V)) :
    find k' (l.filter fun p => p.1 ≠ k) = if k' = k then none else find k' l := by
  induction l with
  | nil => simp [find]
  | cons p l ih =>
    by_cases hp : p.1 = k
    · by_cases hk : k' = k
      · simpa [hp, hk] using ih
      · have : ¬k = k' := Ne.symm hk
        simpa [hp, hk, find, this] using ih
    · by_cases hk : k' = k
      · have : ¬p.1 = k' := hk ▸ hp
        simpa [hp, hk, find] using ih
      · simp only [ne_eq, hp, not_false_eq_true, decide_true, List.filter_cons_of_pos, find]
        rw [ih]
        simp [hk]

theorem get?_delete (m : InsMap K V) (k k' : K) :
    (m.delete k).get? k' = if k' = k then none else m.get? k' := find_filter k k' _

@[simp] theorem get?_delete_self (m : InsMap K V) (k : K) : (m.delete k).get? k = none := by
  simp [get?_delete]

theorem get?_delete_ne (m : InsMap K V) {k k' : K} (h : k' ≠ k) :
    (m.delete k).get? k' = m.get? k' := by
  simp [get?_delete, h]

theorem has_set (m : InsMap K V) (k k' : K) (v : V) :
    (m.set k v).has k' = (decide (k' = k) || m.has k') := by
  by_cases h : k' = k <;> simp [has, get?_set, h]

theorem has_delete (m : InsMap K V) (k k' : K) :
    (m.delete k).has k' = (!decide (k' = k) && m.has k') := by
  by_cases h : k' = k <;> simp [has, get?_delete, h]

theorem keys_delete (m : InsMap K V) (k : K) : (m.delete k).keys = m.keys.filter (· ≠ k) := by
  rw [keys, keys, delete, List.filter_map]
  rfl

theorem has_eq_false_of_keys {m : InsMap K V} (h : m.keys = []) (k : K) : m.has k = false := by
  rw [← Bool.not_eq_true, ← mem_keys_iff_has, h]
  exact List.not_mem_nil

/-! ## Loops

A loop over a list, each of whose steps changes the map at a key of its own. -/

section
variable {A : Type*} (key : A → K) {step : InsMap K V → A → InsMap K V}

theorem get?_foldl_ne (hne : ∀ m a k, key a ≠ k → (step m a).get? k = m.get? k) {l : List A} {k : K}
    (hk : k ∉ l.map key) (m : InsMap K V) : (l.foldl step m).get? k = m.get? k := by
  induction l generalizing m with
  | nil => rfl
  | cons a l ih =>
    rw [List.map_cons, List.mem_cons, not_or] at hk
    rw [List.foldl_cons, ih hk.2, hne m a k (Ne.symm hk.1)]

/-- What a loop leaves at a key is what the step of that key makes of what was there. -/
theorem get?_foldl (next : A → Option V → Option V)
    (hne : ∀ m a k, key a ≠ k → (step m a).get? k = m.get? k)
    (hself : ∀ m a, (step m a).get? (key a) = next a (m.get? (key a))) {l : List A}
    (hl : (l.map key).Nodup) {a : A} (ha : a ∈ l) (m : InsMap K V) :
    (l.foldl step m).get? (key a) = next a (m.get? (key a)) := by
  induction l generalizing m with
  | nil => exact absurd ha List.not_mem_nil
  | cons b l ih =>
    rw [List.map_cons, List.nodup_cons] at hl
    rw [List.foldl_cons]
    rcases List.mem_cons.1 ha with rfl | ha
    · rw [get?_foldl_ne key hne hl.1, hself]
    · have hb : key b ≠ key a := fun h => hl.1 (h ▸ List.mem_map_of_mem ha)
      rw [ih hl.2 ha, hne m b _ hb]

theorem get?_foldl_set (val : A → V) {l : List A} (hl : (l.map key).Nodup) {a : A} (ha : a ∈ l)
    (m : InsMap K V) :
    (l.foldl (fun m a => m.set (key a) (val a)) m).get? (key a) = some (val a) :=
  get?_foldl key (fun a _ => some (val a)) (fun m _ _ h => get?_set_ne m _ (Ne.symm h))
    (fun m _ => get?_set_self m _ _) hl ha m

end

/-! ## Sizes -/

theorem size_set_of_not_has {m : InsMap K V} {k : K} (v : V) (h : m.has k = false) :
    (m.set k v).size = m.size + 1 := by
  have h' : k ∉ m.keys := fun hk => by simp [mem_keys_iff_has.1 hk] at h
  rw [set, dif_neg h', size, size, List.length_append, List.length_singleton]

theorem size_set_of_has {m : InsMap K V} {k : K} (v : V) (h : m.has k = true) :
    (m.set k v).size = m.size := by
  rw [set, dif_pos (mem_keys_iff_has.2 h), size, size]
  exact List.length_map ..

/-- A map with a value at every key of `ks` has at least as many entries. -/
theorem length_le_size {m : InsMap K V} {ks : List K} (hks : ks.Nodup)
    (h : ∀ k ∈ ks, m.has k = true) : ks.length ≤ m.size := by
  have hsub : ks.Subperm m.keys := List.subperm_of_subset hks fun k hk =>
    mem_keys_iff_has.2 (h k hk)
  simpa [keys, size] using hsub.length_le

theorem size_set_ne_zero (m : InsMap K V) (k : K) (v : V) : (m.set k v).size ≠ 0 := by
  have hle : [k].length ≤ (m.set k v).size := length_le_size (List.nodup_singleton k)
    fun k' hk' => by rw [List.mem_singleton.1 hk', has, get?_set_self, Option.isSome_some]
  exact Nat.ne_of_gt hle

theorem size_delete_le (m : InsMap K V) (k : K) : (m.delete k).size ≤ m.size :=
  List.length_filter_le ..

theorem overwrite_of_not_mem {k : K} (v : V) {l : List (K × V)} (h : k ∉ l.map Prod.fst) :
    overwrite k v l = l := by
  induction l with
  | nil => rfl
  | cons p l ih =>
    rw [List.map_cons, List.mem_cons, not_or] at h
    have ih := ih h.2
    rw [overwrite] at ih
    rw [overwrite, List.map_cons, if_neg (Ne.symm h.1), ih]

/-- The sum of `f` over the values of `l`. -/
def sumOver (f : V → ℕ) : List (K × V) → ℕ
  | [] => 0
  | p :: l => f p.2 + sumOver f l

/-- The sum of `f` over the values. -/
def total (f : V → ℕ) (m : InsMap K V) : ℕ := sumOver f m.entries

theorem sumOver_overwrite (f : V → ℕ) {k : K} (v : V) {l : List (K × V)}
    (hl : (l.map Prod.fst).Nodup) (h : k ∈ l.map Prod.fst) :
    sumOver f (overwrite k v l) + (find k l).elim 0 f = sumOver f l + f v := by
  induction l with
  | nil => exact absurd h List.not_mem_nil
  | cons p l ih =>
    rw [List.map_cons, List.nodup_cons] at hl
    by_cases hp : p.1 = k
    · have hnot := overwrite_of_not_mem v (hp ▸ hl.1)
      rw [overwrite] at hnot
      simp only [overwrite, List.map_cons, hp, ↓reduceIte, hnot, find, sumOver, Option.elim_some]
      omega
    · have ih := ih hl.2 ((List.mem_cons.1 h).resolve_left (Ne.symm hp))
      rw [overwrite] at ih
      simp only [overwrite, List.map_cons, hp, ↓reduceIte, find, sumOver]
      omega

omit [DecidableEq K] in
theorem sumOver_append (f : V → ℕ) (l l' : List (K × V)) :
    sumOver f (l ++ l') = sumOver f l + sumOver f l' := by
  induction l with
  | nil => simp [sumOver]
  | cons p l ih => simp [sumOver, ih, Nat.add_assoc]

/-- The sum over the values, after a write. -/
theorem total_set (f : V → ℕ) (m : InsMap K V) (k : K) (v : V) :
    (m.set k v).total f + (m.get? k).elim 0 f = m.total f + f v := by
  by_cases h : k ∈ m.keys
  · rw [set, dif_pos h]
    exact sumOver_overwrite f v m.nodup h
  · have hnone : m.get? k = none := find_eq_none.2 h
    rw [set, dif_neg h, hnone, total, sumOver_append]
    rfl

theorem sumOver_filter (f : V → ℕ) {k : K} {l : List (K × V)} (hl : (l.map Prod.fst).Nodup) :
    sumOver f (l.filter fun p => p.1 ≠ k) + (find k l).elim 0 f = sumOver f l := by
  induction l with
  | nil => rfl
  | cons p l ih =>
    rw [List.map_cons, List.nodup_cons] at hl
    by_cases hp : p.1 = k
    · have hall : l.filter (fun p => p.1 ≠ k) = l := by
        refine List.filter_eq_self.2 fun q hq => ?_
        have hne : q.1 ≠ k := fun h => hl.1 (List.mem_map.2 ⟨q, hq, h.trans hp.symm⟩)
        simp [hne]
      simp only [List.filter_cons, hp, ne_eq, not_true_eq_false, decide_false, find, if_true,
        Option.elim_some, sumOver, Bool.false_eq_true, if_false]
      simp only [ne_eq] at hall
      rw [hall, Nat.add_comm]
    · have ih := ih hl.2
      simp only [List.filter_cons, hp, ne_eq, not_false_eq_true, decide_true, find, if_false,
        if_true, sumOver] at ih ⊢
      rw [Nat.add_assoc, ih]

/-- The sum over the values, after a deletion. -/
theorem total_delete (f : V → ℕ) (m : InsMap K V) (k : K) :
    (m.delete k).total f + (m.get? k).elim 0 f = m.total f := sumOver_filter f m.nodup

/-! ## The order of the entries -/

theorem find_eq_some_iff {k : K} {v : V} {l : List (K × V)} (hl : (l.map Prod.fst).Nodup) :
    find k l = some v ↔ (k, v) ∈ l := by
  induction l with
  | nil => simp [find]
  | cons p l ih =>
    rw [List.map_cons, List.nodup_cons] at hl
    rw [find, List.mem_cons]
    by_cases hp : p.1 = k
    · have hnot : (k, v) ∉ l := fun h => hl.1 (hp ▸ List.mem_map_of_mem h)
      rw [if_pos hp, Option.some.injEq]
      constructor
      · rintro rfl
        exact .inl (by rw [← hp])
      · rintro (h | h)
        · exact (congrArg Prod.snd h).symm
        · exact absurd h hnot
    · rw [if_neg hp, ih hl.2]
      constructor
      · exact .inr
      · rintro (h | h)
        · exact absurd (congrArg Prod.fst h).symm hp
        · exact h

theorem get?_eq_some_iff {m : InsMap K V} {k : K} {v : V} :
    m.get? k = some v ↔ (k, v) ∈ m.entries := find_eq_some_iff m.nodup

/-- The order of the entries does not matter for reading. -/
theorem get?_eq_of_perm {m m' : InsMap K V} (h : m.entries.Perm m'.entries) (k : K) :
    m.get? k = m'.get? k := by
  ext v
  rw [get?_eq_some_iff, get?_eq_some_iff, h.mem_iff]

/-- The map with its entries in the order `le` of their keys. -/
def sorted (le : K → K → Bool) (m : InsMap K V) : InsMap K V :=
  ⟨m.entries.mergeSort fun a b => le a.1 b.1,
    (((List.mergeSort_perm m.entries _).map _).nodup_iff).2 m.nodup⟩

@[simp] theorem get?_sorted (le : K → K → Bool) (m : InsMap K V) (k : K) :
    (m.sorted le).get? k = m.get? k :=
  get?_eq_of_perm (List.mergeSort_perm m.entries _) k

omit [DecidableEq K] in
theorem sorted_sorted {le : K → K → Bool} (htrans : ∀ a b c, le a b → le b c → le a c)
    (htotal : ∀ a b, le a b || le b a) (m : InsMap K V) :
    (m.sorted le).sorted le = m.sorted le := by
  have h : ((m.entries.mergeSort fun a b => le a.1 b.1).mergeSort fun a b => le a.1 b.1) =
      m.entries.mergeSort fun a b => le a.1 b.1 :=
    List.mergeSort_of_pairwise
      (List.pairwise_mergeSort (fun a b c => htrans a.1 b.1 c.1) (fun a b => htotal a.1 b.1) _)
  simp only [sorted, h]

/-! ## Mapping the values -/

omit [DecidableEq K] in
@[ext] theorem ext {m m' : InsMap K V} (h : m.entries = m'.entries) : m = m' := by
  cases m
  cases m'
  cases h
  rfl

/-- Writing the value that is there changes nothing. -/
theorem set_of_get? {m : InsMap K V} {k : K} {v : V} (h : m.get? k = some v) : m.set k v = m := by
  have hk : k ∈ m.keys := mem_keys.2 (h ▸ rfl)
  refine ext ?_
  rw [set, dif_pos hk]
  refine (List.map_congr_left (g := id) fun p hp => ?_).trans (List.map_id _)
  split_ifs with hpk
  · have hv : m.get? k = some p.2 := get?_eq_some_iff.2 (hpk ▸ hp)
    rw [h] at hv
    exact Prod.ext hpk.symm (Option.some.inj hv)
  · rfl

/-- The map with the values under `f`. -/
def map {W : Type*} (f : V → W) (m : InsMap K V) : InsMap K W :=
  ⟨m.entries.map fun p => (p.1, f p.2), by simpa [Function.comp_def] using m.nodup⟩

theorem get?_map {W : Type*} (f : V → W) (m : InsMap K V) (k : K) :
    (m.map f).get? k = (m.get? k).map f := by
  have h : ∀ l : List (K × V), find k (l.map fun p => (p.1, f p.2)) = (find k l).map f := by
    intro l
    induction l with
    | nil => rfl
    | cons p l ih =>
      simp only [List.map_cons, find, ih]
      split <;> rfl
  exact h m.entries

/-- A write that leaves the values under `f` as they are. -/
theorem map_set {W : Type*} (f : V → W) {m : InsMap K V} {k : K} {v v' : V}
    (hv : m.get? k = some v) (hf : f v' = f v) : (m.set k v').map f = m.map f := by
  have hk : k ∈ m.keys := mem_keys_iff_has.2 (has_iff.2 ⟨v, hv⟩)
  ext1
  rw [set, dif_pos hk]
  simp only [map, overwrite, List.map_map]
  refine List.map_congr_left fun p hp => ?_
  by_cases hpk : p.1 = k
  · have hpv : p.2 = v := by
      have := (find_eq_some_iff m.nodup).2 (show (k, p.2) ∈ m.entries from hpk ▸ hp)
      exact Option.some.inj (this.symm.trans hv)
    simp [hpk, hpv, hf]
  · simp [hpk]

theorem find?_entries (m : InsMap K V) (k : K) :
    m.entries.find? (fun p => p.1 = k) = (m.get? k).map fun v => (k, v) := by
  have h : ∀ l : List (K × V), l.find? (fun p => p.1 = k) = (find k l).map fun v => (k, v) := by
    intro l
    induction l with
    | nil => rfl
    | cons p l ih =>
      obtain ⟨k', v⟩ := p
      by_cases hp : k' = k
      · simp [find, hp]
      · simp [find, hp, ih]
  exact h m.entries

end InsMap

/-- A set, in the order of insertion. -/
abbrev InsSet (K : Type*) := InsMap K Unit

/-- Adding `k`. -/
def InsSet.add {K : Type*} [DecidableEq K] (s : InsSet K) (k : K) : InsSet K := s.set k ()
