import Mathlib.Algebra.GroupWithZero.Nat
import Mathlib.Data.Int.Notation
import Mathlib.Data.List.Nodup
import Mathlib.Data.List.Sort
import Mathlib.Data.Prod.Lex

/-!
# Evicting media

The eviction of the attachments that were accessed least recently, down to a target: batches
of rows are queried, orphans first, and each row's object is deleted and the row stamped.

* `evictLoop` is the loop, with the number of its rounds as fuel; it ends
  (`evictLoop_eq`).
* It evicts the candidates in their order, the first ones that bring the usage down to the
  target or that the cap allows (`toEvict`), and no others.
* A deletion that fails is ignored: the row is stamped and its bytes are counted as freed,
  though the object is still there (`failed_deletion_counted`). What is reported is what was
  deleted exactly where no failing deletion was of a candidate of any size
  (`evicts_exactly_iff`).
-/

namespace OneToThree.Media

/-- A row of `attachments`. -/
structure Attachment where
  id : ℕ
  bucket : String
  objectKey : String
  sizeBytes : ℕ
  messageId : Option String
  lastAccessedAt : ℕ
  evictedAt : Option ℕ
  deriving DecidableEq

namespace Attachment

def isLive (a : Attachment) : Bool := a.evictedAt = none

def isOrphan (a : Attachment) : Bool := a.messageId = none

/-- The order of the queries: by the last access. Rows that tie are in an order that the
    database chooses; the ids, which are drawn at random, stand for it. -/
def lruKey (a : Attachment) : ℕ ×ₗ ℕ := toLex (a.lastAccessedAt, a.id)

end Attachment

def DEFAULT_BATCH : ℕ := 32

def DEFAULT_MAX_TO_EVICT : ℕ := 10000

/-- The bytes of the live rows. -/
def getCurrentUsageBytes (rows : List Attachment) : ℤ :=
  ((rows.filter Attachment.isLive).map Attachment.sizeBytes).sum

def lruSort (rows : List Attachment) : List Attachment :=
  rows.insertionSort fun a b => a.lruKey ≤ b.lruKey

def selectLruBatch (rows : List Attachment) (orphansOnly : Bool) : List Attachment :=
  (lruSort (rows.filter fun a => a.isLive ∧ a.isOrphan = orphansOnly)).take DEFAULT_BATCH

/-- Where an eviction is. The last two fields record which rows it processed, and of which
    the object was deleted. -/
structure Eviction where
  rows : List Attachment
  usage : ℤ
  freedBytes : ℕ
  evicted : ℕ
  processed : List Attachment
  deleted : List Attachment
  deriving DecidableEq

/-- Whether the deletion of an object, in a bucket, goes through; one that does not is
    ignored (`deleteObjectIfExists`). -/
abbrev Deletes := String → String → Bool

section
variable (deletes : Deletes) (bucket : String) (now : ℕ)

def Attachment.goes (a : Attachment) : Bool :=
  deletes (if a.bucket = "" then bucket else a.bucket) a.objectKey

/-- The object of a row is deleted, and the row is stamped. -/
def Eviction.evict (s : Eviction) (row : Attachment) : Eviction where
  rows := s.rows.map fun a => if a.id = row.id then { a with evictedAt := some now } else a
  usage := s.usage - row.sizeBytes
  freedBytes := s.freedBytes + row.sizeBytes
  evicted := s.evicted + 1
  processed := s.processed ++ [row]
  deleted := if row.goes deletes bucket then s.deleted ++ [row] else s.deleted

variable (target : ℤ) (cap : ℕ)

/-- The rows of a batch, in turn. -/
def evictBatch : List Attachment → Eviction → Eviction
  | [], s => s
  | row :: batch, s =>
    if s.usage ≤ target then s
    else
      let s := s.evict deletes bucket now row
      if cap ≤ s.evicted then s else evictBatch batch s

/-- The rounds of the loop; `none` where the fuel does not last. -/
def evictLoop : ℕ → Eviction → Option Eviction
  | 0, _ => none
  | fuel + 1, s =>
    if target < s.usage ∧ s.evicted < cap then
      let orphans := selectLruBatch s.rows true
      let batch := if orphans.isEmpty then selectLruBatch s.rows false else orphans
      if batch.isEmpty then some s
      else evictLoop fuel (evictBatch deletes bucket now target cap batch s)
    else some s

end

def Eviction.start (rows : List Attachment) : Eviction :=
  ⟨rows, getCurrentUsageBytes rows, 0, 0, [], []⟩

/-- The eviction, down to a target that is given or that the quota sets; the usage that it
    ends with is `usage`. -/
def evictLruUntilUnderTarget (deletes : Deletes) (bucket : String) (now : ℕ)
    (defaultTarget : ℤ) (targetBytes : Option ℤ) (maxToEvict : Option ℕ) (fuel : ℕ)
    (rows : List Attachment) : Option Eviction :=
  evictLoop deletes bucket now (targetBytes.getD defaultTarget)
    (maxToEvict.getD DEFAULT_MAX_TO_EVICT) fuel (Eviction.start rows)

/-! ## The candidates -/

/-- The live rows in the order of eviction: the orphans, then the others. -/
def candidates (rows : List Attachment) : List Attachment :=
  lruSort (rows.filter fun a => a.isLive ∧ a.isOrphan = true) ++
    lruSort (rows.filter fun a => a.isLive ∧ a.isOrphan = false)

/-- The candidates that have to go: the first ones until the usage is at the target, and no
    more than the cap allows. -/
def toEvict (target : ℤ) : ℤ → ℕ → List Attachment → List Attachment
  | _, 0, _ => []
  | _, _, [] => []
  | usage, cap + 1, a :: l =>
    if usage ≤ target then [] else a :: toEvict target (usage - a.sizeBytes) cap l

section
variable {rows : List Attachment} {a b : Attachment}

theorem lruKey_injOn (h : (rows.map Attachment.id).Nodup) (ha : a ∈ rows) (hb : b ∈ rows)
    (hkey : a.lruKey = b.lruKey) : a = b :=
  List.inj_on_of_nodup_map h ha hb (Prod.mk.inj (toLex_inj.1 hkey)).2

theorem perm_lruSort (rows : List Attachment) : (lruSort rows).Perm rows :=
  List.perm_insertionSort ..

theorem pairwise_lruSort (rows : List Attachment) :
    (lruSort rows).Pairwise fun a b => a.lruKey ≤ b.lruKey :=
  List.pairwise_insertionSort ..

/-- Rows that are left out change nothing in the order of the others. -/
theorem lruSort_filter (h : (rows.map Attachment.id).Nodup) (p : Attachment → Bool) :
    lruSort (rows.filter p) = (lruSort rows).filter p := by
  refine List.Perm.eq_of_pairwise (fun a b ha hb hab hba => ?_) (pairwise_lruSort _)
    ((pairwise_lruSort rows).filter p)
    ((perm_lruSort _).trans ((perm_lruSort rows).symm.filter p))
  have ha' := List.mem_of_mem_filter ((perm_lruSort _).mem_iff.1 ha)
  have hb' := (perm_lruSort rows).mem_iff.1 (List.mem_of_mem_filter hb)
  exact lruKey_injOn h ha' hb' (le_antisymm hab hba)

theorem candidates_perm (rows : List Attachment) :
    (candidates rows).Perm (rows.filter Attachment.isLive) := by
  refine ((perm_lruSort _).append (perm_lruSort _)).trans ?_
  have hsplit := List.filter_append_perm Attachment.isOrphan (rows.filter Attachment.isLive)
  rw [List.filter_filter, List.filter_filter] at hsplit
  refine List.Perm.trans (List.Perm.of_eq ?_) hsplit
  congr 1
  · exact List.filter_congr fun a _ => by cases a.isLive <;> simp
  · exact List.filter_congr fun a _ => by cases a.isLive <;> simp

theorem getCurrentUsageBytes_eq (rows : List Attachment) :
    getCurrentUsageBytes rows = ((candidates rows).map Attachment.sizeBytes).sum := by
  rw [getCurrentUsageBytes, ((candidates_perm rows).map Attachment.sizeBytes).sum_nat]

theorem length_candidates_le (rows : List Attachment) : (candidates rows).length ≤ rows.length :=
  (candidates_perm rows).length_eq.trans_le (List.length_filter_le _ _)

theorem nodup_candidates (h : (rows.map Attachment.id).Nodup) :
    ((candidates rows).map Attachment.id).Nodup :=
  (((candidates_perm rows).map Attachment.id).nodup_iff).2 (h.sublist (List.filter_sublist.map _))

/-- A row that is stamped is not live. -/
def stamp (now : ℕ) (row : Attachment) (rows : List Attachment) : List Attachment :=
  rows.map fun a => if a.id = row.id then { a with evictedAt := some now } else a

theorem filter_stamp (now : ℕ) (row : Attachment) {p : Attachment → Bool}
    (hp : ∀ a : Attachment, p { a with evictedAt := some now } = false) (rows : List Attachment) :
    (stamp now row rows).filter p = (rows.filter p).filter fun a => a.id ≠ row.id := by
  induction rows with
  | nil => rfl
  | cons a rows ih =>
    rw [stamp] at ih
    rw [stamp, List.map_cons]
    by_cases hid : a.id = row.id
    · rw [if_pos hid, List.filter_cons_of_neg (by simp [hp]), ih]
      by_cases ha : p a
      · rw [List.filter_cons_of_pos ha, List.filter_cons_of_neg (by simpa using hid)]
      · rw [List.filter_cons_of_neg ha]
    · rw [if_neg hid]
      by_cases ha : p a
      · rw [List.filter_cons_of_pos ha, List.filter_cons_of_pos ha,
          List.filter_cons_of_pos (by simpa using hid), ih]
      · rw [List.filter_cons_of_neg ha, List.filter_cons_of_neg ha, ih]

theorem candidates_stamp (h : (rows.map Attachment.id).Nodup) (now : ℕ) (row : Attachment) :
    candidates (stamp now row rows) = (candidates rows).filter fun a => a.id ≠ row.id := by
  have hnodup : ∀ p : Attachment → Bool, ((rows.filter p).map Attachment.id).Nodup := fun p =>
    h.sublist (List.filter_sublist.map _)
  rw [candidates, filter_stamp now row (fun a => rfl), filter_stamp now row (fun a => rfl),
    lruSort_filter (hnodup _), lruSort_filter (hnodup _), candidates, List.filter_append]

theorem stamp_ids (now : ℕ) (row : Attachment) (rows : List Attachment) :
    (stamp now row rows).map Attachment.id = rows.map Attachment.id := by
  rw [stamp, List.map_map]
  refine List.map_congr_left fun a _ => ?_
  dsimp only [Function.comp_apply]
  split <;> rfl

end

/-! ## The loop -/

section
variable {deletes : Deletes} {bucket : String} {now : ℕ} {target : ℤ} {cap : ℕ}
  {s : Eviction} {l : List Attachment}

/-- The eviction goes on. -/
def Eviction.Runs (s : Eviction) (target : ℤ) (cap : ℕ) : Prop :=
  target < s.usage ∧ s.evicted < cap

instance : Decidable (s.Runs target cap) := inferInstanceAs (Decidable (_ ∧ _))

variable (deletes bucket now target cap) in
/-- Rows in turn, as long as the eviction goes on. -/
def evictSeq : List Attachment → Eviction → Eviction
  | [], s => s
  | row :: l, s =>
    if s.Runs target cap then evictSeq l (s.evict deletes bucket now row) else s

theorem evictSeq_of_not_runs (h : ¬ s.Runs target cap) :
    evictSeq deletes bucket now target cap l s = s := by
  cases l with
  | nil => rfl
  | cons row l => exact if_neg h

theorem evictSeq_append (l l' : List Attachment) (s : Eviction) :
    evictSeq deletes bucket now target cap (l ++ l') s =
      evictSeq deletes bucket now target cap l' (evictSeq deletes bucket now target cap l s) := by
  induction l generalizing s with
  | nil => rfl
  | cons row l ih =>
    rw [List.cons_append, evictSeq, evictSeq]
    split
    · exact ih _
    next hstop => exact (evictSeq_of_not_runs hstop).symm

/-- The cap is checked after a row, and by the loop before the first one. -/
theorem evictBatch_eq (h : s.evicted < cap) : evictBatch deletes bucket now target cap l s =
    evictSeq deletes bucket now target cap l s := by
  induction l generalizing s with
  | nil => rfl
  | cons row l ih =>
    rw [evictBatch, evictSeq]
    by_cases husage : s.usage ≤ target
    · rw [if_pos husage, if_neg fun hruns => absurd hruns.1 (Int.not_lt.2 husage)]
    · have hruns : s.Runs target cap := ⟨Int.not_le.1 husage, h⟩
      rw [if_neg husage, if_pos hruns]
      by_cases hcap : cap ≤ (s.evict deletes bucket now row).evicted
      · rw [if_pos hcap, evictSeq_of_not_runs fun hruns => absurd hruns.2 (Nat.not_lt.2 hcap)]
      · rw [if_neg hcap]
        exact ih (Nat.lt_of_not_le hcap)

theorem evict_rows (row : Attachment) :
    (s.evict deletes bucket now row).rows = stamp now row s.rows := rfl

theorem evictSeq_ids : (evictSeq deletes bucket now target cap l s).rows.map Attachment.id =
    s.rows.map Attachment.id := by
  induction l generalizing s with
  | nil => rfl
  | cons row l ih =>
    rw [evictSeq]
    split
    · rw [ih, evict_rows, stamp_ids]
    · rfl

/-- The first candidate goes, and the others remain. -/
theorem candidates_evict (h : (s.rows.map Attachment.id).Nodup) {row : Attachment}
    (hrows : candidates s.rows = row :: l) :
    candidates (s.evict deletes bucket now row).rows = l := by
  have hnodup := nodup_candidates h
  rw [hrows, List.map_cons, List.nodup_cons] at hnodup
  rw [evict_rows, candidates_stamp h, hrows, List.filter_cons_of_neg (by simp),
    List.filter_eq_self]
  exact fun a ha => decide_eq_true fun hid => hnodup.1 (List.mem_map.2 ⟨a, ha, hid⟩)

variable (deletes bucket now target cap) in
/-- A batch of the first candidates goes, unless the eviction stops before. -/
theorem candidates_evictSeq (h : (s.rows.map Attachment.id).Nodup) {rest : List Attachment}
    (hrows : candidates s.rows = l ++ rest) :
    candidates (evictSeq deletes bucket now target cap l s).rows = rest ∨
      ¬ (evictSeq deletes bucket now target cap l s).Runs target cap := by
  induction l generalizing s with
  | nil => exact .inl hrows
  | cons row l ih =>
    rw [evictSeq]
    split
    · exact ih (by rw [evict_rows, stamp_ids]; exact h) (candidates_evict h hrows)
    next hstop => exact .inr hstop

/-- The batch of a round is of the first candidates, and empty where there is none. -/
theorem batch_candidates (rows : List Attachment) : ∃ rest, candidates rows =
    (if (selectLruBatch rows true).isEmpty then selectLruBatch rows false
      else selectLruBatch rows true) ++ rest ∧
    ((if (selectLruBatch rows true).isEmpty then selectLruBatch rows false
      else selectLruBatch rows true) = [] → rest = []) := by
  have hempty : ∀ orphan, selectLruBatch rows orphan = [] →
      lruSort (rows.filter fun a => a.isLive ∧ a.isOrphan = orphan) = [] := fun orphan h =>
    (List.take_eq_nil_iff.1 h).resolve_left (by decide)
  have hsplit : ∀ orphan, ∃ rest, lruSort (rows.filter fun a => a.isLive ∧ a.isOrphan = orphan) =
      selectLruBatch rows orphan ++ rest := fun orphan => ⟨_, (List.take_append_drop _ _).symm⟩
  obtain ⟨restOrphans, horphans⟩ := hsplit true
  obtain ⟨restLinked, hlinked⟩ := hsplit false
  split
  next hnone =>
    have hno := hempty true (List.isEmpty_iff.1 hnone)
    refine ⟨restLinked, by rw [candidates, hno, hlinked, List.nil_append], fun h => ?_⟩
    have hnil := hempty false h
    rw [hlinked] at hnil
    exact (List.append_eq_nil_iff.1 hnil).2
  next hsome =>
    refine ⟨restOrphans ++ lruSort (rows.filter fun a => a.isLive ∧ a.isOrphan = false), ?_, ?_⟩
    · rw [candidates, horphans, List.append_assoc]
    · exact fun h => absurd (List.isEmpty_iff.2 h) hsome

/-- The loop ends, and evicts the candidates in turn. -/
theorem evictLoop_eq {fuel : ℕ} (h : (s.rows.map Attachment.id).Nodup)
    (hfuel : (candidates s.rows).length < fuel) :
    evictLoop deletes bucket now target cap fuel s =
      some (evictSeq deletes bucket now target cap (candidates s.rows) s) := by
  induction fuel generalizing s with
  | zero => exact absurd hfuel (Nat.not_lt_zero _)
  | succ fuel ih =>
    rw [evictLoop]
    split
    next hruns =>
      obtain ⟨rest, hrows, hrest⟩ := batch_candidates s.rows
      dsimp only
      generalize (if (selectLruBatch s.rows true).isEmpty then selectLruBatch s.rows false
        else selectLruBatch s.rows true) = batch at hrows hrest ⊢
      cases batch with
      | nil =>
        rw [hrows, hrest rfl]
        rfl
      | cons row batch =>
        rw [hrows, List.length_append, List.length_cons] at hfuel
        rw [if_neg (by simp), evictBatch_eq hruns.2, hrows, evictSeq_append]
        rcases candidates_evictSeq deletes bucket now target cap h hrows with hleft | hstop
        · rw [ih (by rw [evictSeq_ids]; exact h) (by rw [hleft]; omega), hleft]
        · obtain ⟨fuel, rfl⟩ : ∃ n, fuel = n + 1 := ⟨fuel - 1, by omega⟩
          rw [evictSeq_of_not_runs hstop, evictLoop]
          exact if_neg hstop
    next hstop => rw [evictSeq_of_not_runs hstop]

/-! ## What is evicted -/

/-- The bytes of some rows. -/
def bytes (l : List Attachment) : ℕ := (l.map Attachment.sizeBytes).sum

theorem bytes_append (l l' : List Attachment) : bytes (l ++ l') = bytes l + bytes l' := by
  rw [bytes, List.map_append, List.sum_append_nat]
  rfl

theorem bytes_cons (a : Attachment) (l : List Attachment) :
    bytes (a :: l) = a.sizeBytes + bytes l := List.sum_cons

/-- What the eviction of some candidates does. -/
theorem evictSeq_eq_foldl : evictSeq deletes bucket now target cap l s =
    (toEvict target s.usage (cap - s.evicted) l).foldl (Eviction.evict deletes bucket now) s := by
  induction l generalizing s with
  | nil =>
    cases cap - s.evicted <;> rfl
  | cons row l ih =>
    rw [evictSeq]
    cases hcap : cap - s.evicted with
    | zero => exact if_neg fun hruns => absurd hruns.2 (by omega)
    | succ k =>
      rw [toEvict]
      by_cases husage : s.usage ≤ target
      · rw [if_pos husage]
        exact if_neg fun hruns => absurd hruns.1 (Int.not_lt.2 husage)
      · have hruns : s.Runs target cap := ⟨Int.not_le.1 husage, by omega⟩
        rw [if_pos hruns, if_neg husage, ih, List.foldl_cons]
        have hk : cap - (s.evict deletes bucket now row).evicted = k := by
          change cap - (s.evicted + 1) = k
          omega
        rw [hk]
        rfl

/-- The figures after rows were evicted. -/
theorem foldl_evict (l : List Attachment) (s : Eviction) :
    (l.foldl (Eviction.evict deletes bucket now) s).usage = s.usage - bytes l ∧
      (l.foldl (Eviction.evict deletes bucket now) s).freedBytes = s.freedBytes + bytes l ∧
      (l.foldl (Eviction.evict deletes bucket now) s).evicted = s.evicted + l.length ∧
      (l.foldl (Eviction.evict deletes bucket now) s).processed = s.processed ++ l ∧
      (l.foldl (Eviction.evict deletes bucket now) s).deleted =
        s.deleted ++ l.filter fun a => a.goes deletes bucket := by
  induction l generalizing s with
  | nil => simp [bytes]
  | cons row l ih =>
    obtain ⟨husage, hfreed, hevicted, hprocessed, hdeleted⟩ := ih (s.evict deletes bucket now row)
    rw [List.foldl_cons, husage, hfreed, hevicted, hprocessed, hdeleted, bytes_cons]
    refine ⟨?_, ?_, ?_, ?_, ?_⟩
    · simp only [Eviction.evict]
      omega
    · simp only [Eviction.evict]
      omega
    · simp only [Eviction.evict, List.length_cons]
      omega
    · exact List.append_assoc ..
    · by_cases hgoes : row.goes deletes bucket
      · simp [Eviction.evict, hgoes]
      · simp [Eviction.evict, hgoes]

theorem foldl_evict_rows (l : List Attachment) (s : Eviction) :
    (l.foldl (Eviction.evict deletes bucket now) s).rows = s.rows.map fun a =>
      if a.id ∈ l.map Attachment.id then { a with evictedAt := some now } else a := by
  induction l generalizing s with
  | nil => simp
  | cons row l ih =>
    rw [List.foldl_cons, ih, evict_rows, stamp, List.map_map]
    refine List.map_congr_left fun a _ => ?_
    by_cases hid : a.id = row.id
    · simp [hid]
    · simp [hid]

variable (deletes bucket now) in
theorem foldl_evict_start (l rows : List Attachment) :
    (l.foldl (Eviction.evict deletes bucket now) (.start rows)).usage =
        getCurrentUsageBytes rows - bytes l ∧
      (l.foldl (Eviction.evict deletes bucket now) (.start rows)).freedBytes = bytes l ∧
      (l.foldl (Eviction.evict deletes bucket now) (.start rows)).evicted = l.length ∧
      (l.foldl (Eviction.evict deletes bucket now) (.start rows)).processed = l ∧
      (l.foldl (Eviction.evict deletes bucket now) (.start rows)).deleted =
        l.filter fun a => a.goes deletes bucket := by
  obtain ⟨husage, hfreed, hevicted, hprocessed, hdeleted⟩ := foldl_evict l (.start rows)
  exact ⟨husage, hfreed.trans (Nat.zero_add _), hevicted.trans (Nat.zero_add _), hprocessed,
    hdeleted⟩

variable (deletes bucket now) in
/-- The candidates after the first ones were evicted. -/
theorem candidates_foldl_evict (h : (s.rows.map Attachment.id).Nodup) {rest : List Attachment}
    (hrows : candidates s.rows = l ++ rest) :
    candidates (l.foldl (Eviction.evict deletes bucket now) s).rows = rest := by
  induction l generalizing s with
  | nil => exact hrows
  | cons row l ih =>
    exact ih (by rw [evict_rows, stamp_ids]; exact h) (candidates_evict h hrows)

end

section
variable {target usage : ℤ} {cap : ℕ} {l : List Attachment}

theorem toEvict_prefix : toEvict target usage cap l <+: l := by
  induction l generalizing usage cap with
  | nil => cases cap <;> exact List.prefix_rfl
  | cons a l ih =>
    cases cap with
    | zero => exact List.nil_prefix
    | succ cap =>
      rw [toEvict]
      split
      · exact List.nil_prefix
      · exact (List.prefix_cons_inj a).2 ih

/-- Each of them had to go, and might. -/
theorem toEvict_needed {pre post : List Attachment} {a : Attachment}
    (h : toEvict target usage cap l = pre ++ a :: post) :
    target < usage - bytes pre ∧ pre.length < cap := by
  induction l generalizing usage cap pre with
  | nil => cases cap <;> exact absurd h.symm (by simp [toEvict])
  | cons b l ih =>
    cases cap with
    | zero => exact absurd h.symm (by simp [toEvict])
    | succ cap =>
      rw [toEvict] at h
      split at h
      · exact absurd h.symm (by simp)
      next husage =>
        cases pre with
        | nil => exact ⟨by simpa [bytes] using husage, Nat.succ_pos _⟩
        | cons c pre =>
          obtain ⟨rfl, htail⟩ := List.cons.inj h
          obtain ⟨hneed, hlen⟩ := ih htail
          rw [bytes_cons, List.length_cons]
          constructor <;> omega

/-- After them, nothing has to go, or nothing may. -/
theorem toEvict_stop (usage : ℤ) (cap : ℕ) :
    usage - bytes (toEvict target usage cap l) ≤ target ∨
    (toEvict target usage cap l).length = cap ∨ toEvict target usage cap l = l := by
  induction l generalizing usage cap with
  | nil => cases cap <;> exact .inr (.inr rfl)
  | cons a l ih =>
    cases cap with
    | zero => exact .inr (.inl rfl)
    | succ cap =>
      rw [toEvict]
      split
      next husage => exact .inl (by simpa [bytes] using husage)
      · rw [bytes_cons, List.length_cons]
        rcases ih (usage - a.sizeBytes) cap with h | h | h
        · exact .inl (by omega)
        · exact .inr (.inl (by rw [h]))
        · exact .inr (.inr (by rw [h]))

end

/-! ## Exactness -/

/-- An eviction of the rows that ended as `r`: the first candidates went, in order, each while
    it had to; it stopped where none had to or might; its figures are those of the rows; and
    what it reports as freed are the bytes whose objects were deleted. -/
structure EvictsExactly (now : ℕ) (target : ℤ) (cap : ℕ) (rows : List Attachment)
    (r : Eviction) : Prop where
  order : r.processed <+: candidates rows
  needed : ∀ pre a post, r.processed = pre ++ a :: post →
    target < getCurrentUsageBytes rows - bytes pre ∧ pre.length < cap
  stop : r.usage ≤ target ∨ r.evicted = cap ∨ r.processed = candidates rows
  usage : r.usage = getCurrentUsageBytes rows - r.freedBytes
  current : getCurrentUsageBytes r.rows = r.usage
  evicted : r.evicted = r.processed.length
  rows : r.rows = rows.map fun a =>
    if a.id ∈ r.processed.map Attachment.id then { a with evictedAt := some now } else a
  frees : r.freedBytes = bytes r.deleted

theorem bytes_filter_le (p : Attachment → Bool) (l : List Attachment) :
    bytes (l.filter p) ≤ bytes l := by
  induction l with
  | nil => exact Nat.le_refl _
  | cons a l ih =>
    rw [List.filter_cons, bytes_cons]
    split
    · rw [bytes_cons]
      omega
    · omega

theorem bytes_filter_eq_iff {p : Attachment → Bool} {l : List Attachment} :
    bytes l = bytes (l.filter p) ↔ ∀ a ∈ l, a.sizeBytes ≠ 0 → p a := by
  induction l with
  | nil => simp
  | cons a l ih =>
    have hrest := bytes_filter_le p l
    rw [List.forall_mem_cons, bytes_cons]
    by_cases ha : p a
    · rw [List.filter_cons_of_pos ha, bytes_cons, Nat.add_left_cancel_iff, ih]
      exact (and_iff_right fun _ => ha).symm
    · rw [List.filter_cons_of_neg ha]
      constructor
      · intro h
        exact ⟨fun hsize => absurd h (by omega), ih.1 (by omega)⟩
      · rintro ⟨hsize, h⟩
        have hzero : a.sizeBytes = 0 := Decidable.not_not.1 fun hne => ha (hsize hne)
        rw [hzero, Nat.zero_add]
        exact ih.2 h

/-- **Eviction.** It ends, whatever rows there are; and it evicts exactly, where the objects of
    the candidates that have to go, if they have any bytes, are deleted. -/
theorem evicts_exactly_iff {deletes : Deletes} {bucket : String} {now : ℕ} {defaultTarget : ℤ}
    {targetBytes : Option ℤ} {maxToEvict : Option ℕ} {fuel : ℕ} {rows : List Attachment}
    (hrows : (rows.map Attachment.id).Nodup) (hfuel : rows.length < fuel) :
    ∃ r, evictLruUntilUnderTarget deletes bucket now defaultTarget targetBytes maxToEvict fuel
        rows = some r ∧
      (EvictsExactly now (targetBytes.getD defaultTarget) (maxToEvict.getD DEFAULT_MAX_TO_EVICT)
          rows r ↔
        ∀ a ∈ toEvict (targetBytes.getD defaultTarget) (getCurrentUsageBytes rows)
          (maxToEvict.getD DEFAULT_MAX_TO_EVICT) (candidates rows),
          a.sizeBytes ≠ 0 → a.goes deletes bucket) := by
  generalize htarget : targetBytes.getD defaultTarget = target
  generalize hcap : maxToEvict.getD DEFAULT_MAX_TO_EVICT = cap
  have hloop : evictLoop deletes bucket now target cap fuel (Eviction.start rows) = some _ :=
    evictLoop_eq hrows ((length_candidates_le rows).trans_lt hfuel)
  rw [evictSeq_eq_foldl] at hloop
  rw [evictLruUntilUnderTarget, htarget, hcap, hloop]
  refine ⟨_, rfl, ?_⟩
  change EvictsExactly now target cap rows ((toEvict target (getCurrentUsageBytes rows) cap
    (candidates rows)).foldl (Eviction.evict deletes bucket now) (Eviction.start rows)) ↔ _
  generalize hgone : toEvict target (getCurrentUsageBytes rows) cap (candidates rows) = gone
  obtain ⟨rest, hsplit⟩ : gone <+: candidates rows := hgone ▸ toEvict_prefix
  obtain ⟨husage, hfreed, hevicted, hprocessed, hdeleted⟩ :=
    foldl_evict_start deletes bucket now gone rows
  constructor
  · intro h
    have hfrees := h.frees
    rw [hfreed, hdeleted] at hfrees
    exact bytes_filter_eq_iff.1 hfrees
  · intro hgoes
    refine ⟨?_, ?_, ?_, ?_, ?_, ?_, ?_, ?_⟩
    · rw [hprocessed]
      exact ⟨rest, hsplit⟩
    · intro pre a post hpre
      rw [hprocessed, ← hgone] at hpre
      exact toEvict_needed hpre
    · rw [husage, hevicted, hprocessed, ← hgone]
      exact toEvict_stop ..
    · rw [husage, hfreed]
    · have hleft := candidates_foldl_evict deletes bucket now (s := Eviction.start rows) hrows
        hsplit.symm
      rw [getCurrentUsageBytes_eq, hleft, husage, getCurrentUsageBytes_eq, ← hsplit]
      change (bytes rest : ℤ) = bytes (gone ++ rest) - bytes gone
      rw [bytes_append]
      omega
    · rw [hevicted, hprocessed]
    · rw [foldl_evict_rows, hprocessed]
      rfl
    · rw [hfreed, hdeleted]
      exact bytes_filter_eq_iff.2 hgoes

/-- Two orphans and a linked row that is older, of which the first orphan has to go. -/
def Sample.attachments : List Attachment :=
  [⟨1, "", "a", 30, none, 8, none⟩, ⟨2, "", "b", 50, none, 5, none⟩,
    ⟨3, "", "c", 70, some "m", 1, none⟩]

theorem evicts_exactly_iff_attachments :
    ∃ r, evictLruUntilUnderTarget (fun _ key => key = "b") "media" 9 100 none none 4
        Sample.attachments = some r ∧
      EvictsExactly 9 100 DEFAULT_MAX_TO_EVICT Sample.attachments r := by
  obtain ⟨r, hr, hexact⟩ := @evicts_exactly_iff (fun _ key => key = "b") "media" 9 100 none none 4
    Sample.attachments (by decide) (by decide)
  exact ⟨r, hr, hexact.2 (by decide)⟩

/-- The object could not be deleted: its row is stamped, and its bytes are counted. -/
theorem failed_deletion_counted :
    ∃ r, evictLruUntilUnderTarget (fun _ _ => false) "media" 9 100 none none 4
        Sample.attachments = some r ∧ r.freedBytes = 50 ∧ r.deleted = [] ∧
      ¬ EvictsExactly 9 100 DEFAULT_MAX_TO_EVICT Sample.attachments r := by
  refine ⟨_, rfl, by decide, by decide, fun h => absurd h.frees (by decide)⟩

end OneToThree.Media
