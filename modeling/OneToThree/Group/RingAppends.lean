import Mathlib.Logic.Function.Basic
import OneToThree.Group.SectorFrame

/-!
# Appends to the stored rings

`SectorFrame.addRingEntry` is what an append makes of a ring. The append itself is two
transactions: one reads the stored ring, and the other stores the new one, whatever was
stored in between.

* `appends` is the machine of the appends of all chats, each taking its transactions when
  it may.
* Appends that both read before either writes leave the entry of the last one only
  (`append_lost`).
* `upToDate` is the condition that at a write, the stored ring has no epoch that the append
  has not read, unless there is no room for it. In the runs that meet it a ring holds the
  newest of the epochs that were offered or stored before (`newest_kept`).

Failures of the storage, after which an append stores nothing, are left out.
-/

namespace OneToThree.RingAppends

open SectorWrap

variable {N : Type}

def ringId (ownerId chatId : String) : String := ownerId ++ "::" ++ chatId

/-- Where an append is: before its reading, before its writing, or done. -/
inductive Stage (N : Type)
  | reading
  | writing (existing : List (RingEntry N))
  | done

def Stage.isDone : Stage N → Bool
  | .done => true
  | _ => false

structure Append (N : Type) where
  ring : String
  entry : RingEntry N
  stage : Stage N

/-- The stored rings, and the appends so far. What was stored before the appends is recorded
    for the statements. -/
structure Appends (N : Type) where
  before : String → List (RingEntry N)
  rings : String → List (RingEntry N)
  tasks : List (Append N)

inductive AppendEvent (N : Type)
  | addRingEntry (ownerId chatId : String) (epoch : N) (wrapped : String)
  /-- The next transaction of an append. -/
  | resume (i : ℕ)

variable [LinearOrder N]

namespace Appends

/-- The append reads its ring: an epoch that is there already is ignored. -/
def read (s : Appends N) (i : ℕ) (task : Append N) : Appends N :=
  let existing := s.rings task.ring
  if existing.any fun e => e.epoch = task.entry.epoch then
    { s with tasks := s.tasks.set i { task with stage := .done } }
  else { s with tasks := s.tasks.set i { task with stage := .writing existing } }

/-- The append stores what it made of the ring that it has read. -/
def write (s : Appends N) (i : ℕ) (task : Append N) (existing : List (RingEntry N)) : Appends N :=
  let merged := Newest.keep RingEntry.epoch RING_CAP existing task.entry
  { s with
    rings := Function.update s.rings task.ring merged
    tasks := s.tasks.set i { task with stage := .done } }

theorem write_rings (s : Appends N) (i : ℕ) (task : Append N) (existing : List (RingEntry N)) :
    (s.write i task existing).rings = Function.update s.rings task.ring
      (Newest.keep RingEntry.epoch RING_CAP existing task.entry) := rfl

def resume (s : Appends N) (i : ℕ) : Option (Appends N) :=
  match s.tasks[i]? with
  | none => none
  | some task =>
    match task.stage with
    | .reading => some (s.read i task)
    | .writing existing => some (s.write i task existing)
    | .done => none

end Appends

/-- A ring as the appends store it: newest first, and of bounded length. -/
structure WellFormed (ring : List (RingEntry N)) : Prop where
  descending : Newest.Descending RingEntry.epoch ring
  length : ring.length ≤ RING_CAP

def appends : Machine (Appends N) (AppendEvent N) where
  init s := s.rings = s.before ∧ s.tasks = [] ∧ ∀ id, WellFormed (s.before id)
  step s
    | .addRingEntry ownerId chatId epoch wrapped =>
      some { s with tasks := s.tasks ++ [⟨ringId ownerId chatId, ⟨epoch, wrapped⟩, .reading⟩] }
    | .resume i => s.resume i

/-- An append that nothing comes between makes of the ring what `addRingEntry` says. -/
theorem resume_resume {s : Appends N} {i : ℕ} {task : Append N} (hi : s.tasks[i]? = some task)
    (hstage : task.stage = .reading) :
    ∃ s' s'', s.resume i = some s' ∧ (s' = s'' ∨ s'.resume i = some s'') ∧
      s''.tasks = s.tasks.set i { task with stage := .done } ∧
      s''.rings task.ring =
        SectorWrap.addRingEntry (s.rings task.ring) task.entry.epoch task.entry.wrapped := by
  have hlt : i < s.tasks.length := (List.getElem?_eq_some_iff.1 hi).1
  have hread : s.resume i = some (s.read i task) := by
    rw [Appends.resume, hi]
    simp only [hstage]
  rw [SectorWrap.addRingEntry]
  by_cases hmem : (s.rings task.ring).any fun e => e.epoch = task.entry.epoch
  · refine ⟨_, _, hread, .inl rfl, ?_, ?_⟩
    · rw [Appends.read, if_pos hmem]
    · rw [Appends.read, if_pos hmem, if_pos hmem]
  · refine ⟨_, (s.read i task).write i { task with stage := .writing (s.rings task.ring) }
      (s.rings task.ring), hread, .inr ?_, ?_, ?_⟩
    · rw [Appends.read, if_neg hmem, Appends.resume, List.getElem?_set_self hlt]
    · rw [Appends.read, if_neg hmem]
      exact List.set_set ..
    · rw [if_neg hmem]
      exact Function.update_self ..

/-! ## What is kept -/

/-- The epochs of a ring that were stored before, or offered. -/
def seen (s : Appends N) (id : String) : Finset N :=
  ((s.before id).map RingEntry.epoch).toFinset ∪
    ((s.tasks.filter fun task => task.ring = id).map fun task => task.entry.epoch).toFinset

/-- The epochs that an append has to do with: those it read, and its own. -/
def Append.epochs (task : Append N) (existing : List (RingEntry N)) : Finset N :=
  insert task.entry.epoch (existing.map RingEntry.epoch).toFinset

/-- An append that writes has read every epoch in the stored ring, but for its own, and those
    that are older than what there is room for. -/
def upToDate (s : Appends N) : AppendEvent N → Bool
  | .addRingEntry .. => true
  | .resume i =>
    match s.tasks[i]? with
    | some ⟨ring, entry, .writing existing⟩ =>
      (s.rings ring).all fun e =>
        let epochs := Append.epochs ⟨ring, entry, .writing existing⟩ existing
        e.epoch ∈ epochs ∨ RING_CAP ≤ (epochs.filter (e.epoch < ·)).card
    | _ => true

/-- The epochs of a ring that were stored before, or by an append that is done. -/
def settled (s : Appends N) (id : String) : Finset N :=
  ((s.before id).map RingEntry.epoch).toFinset ∪
    ((s.tasks.filter fun task => task.ring = id ∧ task.stage.isDone).map
      fun task => task.entry.epoch).toFinset

/-- A ring holds the newest of what is settled; and an append that is to write has read a
    ring that was stored, without its own epoch. -/
structure Kept (s : Appends N) : Prop where
  holds : ∀ id, Newest.Holds RingEntry.epoch RING_CAP (settled s id) (s.rings id)
  reads : ∀ task ∈ s.tasks, ∀ existing, task.stage = .writing existing → WellFormed existing ∧
    task.entry.epoch ∉ existing.map RingEntry.epoch ∧
    ∀ k ∈ existing.map RingEntry.epoch, k ∈ settled s task.ring

section
variable {s : Appends N} {i : ℕ} {task : Append N} {id : String} {k : N}

omit [LinearOrder N] in
theorem getElem?_set_eq_some {l : List (Append N)} {x y : Append N} {j : ℕ} (hi : i < l.length) :
    (l.set i x)[j]? = some y ↔ j = i ∧ y = x ∨ j ≠ i ∧ l[j]? = some y := by
  by_cases hj : j = i
  · subst hj
    rw [List.getElem?_set_self hi]
    simp [eq_comm]
  · rw [List.getElem?_set_ne (Ne.symm hj)]
    simp [hj]

theorem mem_settled : k ∈ settled s id ↔ k ∈ (s.before id).map RingEntry.epoch ∨
    ∃ j : ℕ, ∃ task : Append N, s.tasks[j]? = some task ∧ task.ring = id ∧ task.stage.isDone ∧
      task.entry.epoch = k := by
  rw [settled, Finset.mem_union, List.mem_toFinset, List.mem_toFinset]
  refine or_congr_right ?_
  constructor
  · intro hk
    obtain ⟨task, htask, rfl⟩ := List.mem_map.1 hk
    obtain ⟨hmem, hdone⟩ := List.mem_filter.1 htask
    obtain ⟨j, hj⟩ := List.mem_iff_getElem?.1 hmem
    obtain ⟨hring, hdone⟩ := of_decide_eq_true hdone
    exact ⟨j, task, hj, hring, hdone, rfl⟩
  · rintro ⟨j, task, hj, hring, hdone, rfl⟩
    exact List.mem_map.2 ⟨task,
      List.mem_filter.2 ⟨List.mem_of_getElem? hj, decide_eq_true ⟨hring, hdone⟩⟩, rfl⟩

/-- An append that is done settles its epoch. -/
theorem mem_settled_done (hi : s.tasks[i]? = some task) (rings : String → List (RingEntry N)) :
    k ∈ settled { s with rings, tasks := s.tasks.set i { task with stage := .done } } id ↔
      k ∈ settled s id ∨ task.ring = id ∧ task.entry.epoch = k := by
  have hlt : i < s.tasks.length := (List.getElem?_eq_some_iff.1 hi).1
  rw [mem_settled, mem_settled, or_assoc]
  refine or_congr_right ?_
  constructor
  · rintro ⟨j, t, hj, hring, hdone, hk⟩
    rcases (getElem?_set_eq_some hlt).1 hj with ⟨-, rfl⟩ | ⟨-, hj⟩
    · exact .inr ⟨hring, hk⟩
    · exact .inl ⟨j, t, hj, hring, hdone, hk⟩
  · rintro (⟨j, t, hj, hring, hdone, hk⟩ | ⟨hring, hk⟩)
    · by_cases hji : j = i
      · subst hji
        obtain rfl := Option.some.inj (hi.symm.trans hj)
        exact ⟨j, _, (getElem?_set_eq_some hlt).2 (.inl ⟨rfl, rfl⟩), hring, rfl, hk⟩
      · exact ⟨j, t, (getElem?_set_eq_some hlt).2 (.inr ⟨hji, hj⟩), hring, hdone, hk⟩
    · exact ⟨i, _, (getElem?_set_eq_some hlt).2 (.inl ⟨rfl, rfl⟩), hring, rfl, hk⟩

/-- An append that has read is not done. -/
theorem mem_settled_writing (hi : s.tasks[i]? = some task) (hstage : task.stage = .reading)
    (existing : List (RingEntry N)) :
    k ∈ settled { s with tasks := s.tasks.set i { task with stage := .writing existing } } id ↔
      k ∈ settled s id := by
  have hlt : i < s.tasks.length := (List.getElem?_eq_some_iff.1 hi).1
  rw [mem_settled, mem_settled]
  refine or_congr_right ?_
  constructor
  · rintro ⟨j, t, hj, hring, hdone, hk⟩
    rcases (getElem?_set_eq_some hlt).1 hj with ⟨-, rfl⟩ | ⟨-, hj⟩
    · cases hdone
    · exact ⟨j, t, hj, hring, hdone, hk⟩
  · rintro ⟨j, t, hj, hring, hdone, hk⟩
    by_cases hji : j = i
    · subst hji
      obtain rfl := Option.some.inj (hi.symm.trans hj)
      rw [hstage] at hdone
      cases hdone
    · exact ⟨j, t, (getElem?_set_eq_some hlt).2 (.inr ⟨hji, hj⟩), hring, hdone, hk⟩

/-- A ring holds its own epochs. -/
theorem WellFormed.holds {ring : List (RingEntry N)} (h : WellFormed ring) :
    Newest.Holds RingEntry.epoch RING_CAP (ring.map RingEntry.epoch).toFinset ring where
  descending := h.descending
  length := h.length
  known _ he := List.mem_toFinset.2 (List.mem_map_of_mem he)
  newest _ hk := .inl (List.mem_toFinset.1 hk)

theorem Kept.wellFormed (h : Kept s) (id : String) : WellFormed (s.rings id) :=
  ⟨(h.holds id).descending, (h.holds id).length⟩

/-- What an append writes that is up to date holds the newest of what is settled then. -/
theorem Kept.holds_write (h : Kept s) {existing : List (RingEntry N)}
    (hi : s.tasks[i]? = some task) (hstage : task.stage = .writing existing)
    (hup : upToDate s (.resume i)) :
    Newest.Holds RingEntry.epoch RING_CAP (insert task.entry.epoch (settled s task.ring))
      (Newest.keep RingEntry.epoch RING_CAP existing task.entry) := by
  obtain ⟨hwf, hnew, hsettled⟩ := h.reads task (List.mem_of_getElem? hi) existing hstage
  obtain ⟨ring, entry, stage⟩ := task
  obtain rfl : stage = .writing existing := hstage
  replace hup : ∀ e ∈ s.rings ring,
      e.epoch ∈ insert entry.epoch (existing.map RingEntry.epoch).toFinset ∨ RING_CAP ≤
        ((insert entry.epoch (existing.map RingEntry.epoch).toFinset).filter (e.epoch < ·)).card := by
    simp only [upToDate, hi] at hup
    exact fun e he => of_decide_eq_true (List.all_eq_true.1 hup e he)
  refine (hwf.holds.keep (a := entry) hnew).extend ?_ fun k hk => ?_
  · exact Finset.insert_subset_insert _ fun k hk => hsettled k (List.mem_toFinset.1 hk)
  · rcases Finset.mem_insert.1 hk with rfl | hk
    · exact .inl (Finset.mem_insert_self _ _)
    rcases (h.holds ring).newest k hk with hmem | ⟨hfull, hold⟩
    · obtain ⟨e, he, rfl⟩ := List.mem_map.1 hmem
      exact hup e he
    -- An epoch that the stored ring has no room for is older than the append's epochs too.
    · right
      by_cases hread : ∀ e ∈ s.rings ring,
          e.epoch ∈ insert entry.epoch (existing.map RingEntry.epoch).toFinset
      · have hsub : ((s.rings ring).map RingEntry.epoch).toFinset ⊆
            (insert entry.epoch (existing.map RingEntry.epoch).toFinset).filter (k < ·) := by
          intro k' hk'
          obtain ⟨e, he, rfl⟩ := List.mem_map.1 (List.mem_toFinset.1 hk')
          exact Finset.mem_filter.2 ⟨hread e he, hold e he⟩
        have hcard := Finset.card_le_card hsub
        rw [List.toFinset_card_of_nodup (h.holds ring).descending.nodup, List.length_map] at hcard
        exact hfull.trans hcard
      · obtain ⟨e, he, hnot⟩ := not_forall₂.1 hread
        refine ((hup e he).resolve_left hnot).trans (Finset.card_le_card fun k' hk' => ?_)
        obtain ⟨hk', hlt⟩ := Finset.mem_filter.1 hk'
        exact Finset.mem_filter.2 ⟨hk', (hold e he).trans hlt⟩

theorem Kept.read (h : Kept s) (hi : s.tasks[i]? = some task) (hstage : task.stage = .reading) :
    Kept (s.read i task) := by
  by_cases hmem : (s.rings task.ring).any fun e => e.epoch = task.entry.epoch
  · obtain ⟨e, he, heq⟩ := List.any_eq_true.1 hmem
    have hheld : task.entry.epoch ∈ (s.rings task.ring).map RingEntry.epoch :=
      List.mem_map.2 ⟨e, he, of_decide_eq_true heq⟩
    rw [Appends.read, if_pos hmem]
    refine ⟨fun id => ?_, fun t htask existing ht => ?_⟩
    · have hsettled : settled { s with tasks := s.tasks.set i { task with stage := .done } } id =
          settled s id := by
        ext k
        rw [mem_settled_done hi s.rings]
        refine or_iff_left_of_imp ?_
        rintro ⟨rfl, rfl⟩
        obtain ⟨e, he, hk⟩ := List.mem_map.1 hheld
        exact hk ▸ (h.holds task.ring).known e he
      rw [hsettled]
      exact h.holds id
    · rcases List.mem_or_eq_of_mem_set htask with htask | rfl
      · obtain ⟨hwf, hnew, hread⟩ := h.reads t htask existing ht
        exact ⟨hwf, hnew, fun k hk => (mem_settled_done hi s.rings).2 (.inl (hread k hk))⟩
      · cases ht
  · rw [Appends.read, if_neg hmem]
    have hnew : task.entry.epoch ∉ (s.rings task.ring).map RingEntry.epoch := by
      intro hheld
      obtain ⟨e, he, heq⟩ := List.mem_map.1 hheld
      exact hmem (List.any_eq_true.2 ⟨e, he, decide_eq_true heq⟩)
    refine ⟨fun id => ?_, fun t htask existing ht => ?_⟩
    · have hsettled : settled { s with
          tasks := s.tasks.set i { task with stage := .writing (s.rings task.ring) } } id =
          settled s id := Finset.ext fun k => mem_settled_writing hi hstage _
      rw [hsettled]
      exact h.holds id
    · rcases List.mem_or_eq_of_mem_set htask with htask | rfl
      · obtain ⟨hwf, hnew, hread⟩ := h.reads t htask existing ht
        exact ⟨hwf, hnew, fun k hk => (mem_settled_writing hi hstage _).2 (hread k hk)⟩
      · obtain rfl := Stage.writing.inj ht
        refine ⟨h.wellFormed task.ring, hnew, fun k hk => (mem_settled_writing hi hstage _).2 ?_⟩
        obtain ⟨e, he, rfl⟩ := List.mem_map.1 hk
        exact (h.holds task.ring).known e he

theorem Kept.write (h : Kept s) {existing : List (RingEntry N)} (hi : s.tasks[i]? = some task)
    (hstage : task.stage = .writing existing) (hup : upToDate s (.resume i)) :
    Kept (s.write i task existing) := by
  refine ⟨fun id => ?_, fun t htask existing' ht => ?_⟩
  · by_cases hid : id = task.ring
    · subst hid
      have hsettled : settled (s.write i task existing) task.ring =
          insert task.entry.epoch (settled s task.ring) := by
        ext k
        rw [Appends.write, mem_settled_done hi, Finset.mem_insert, or_comm]
        simp [eq_comm]
      rw [hsettled, Appends.write_rings, Function.update_self]
      exact h.holds_write hi hstage hup
    · have hsettled : settled (s.write i task existing) id = settled s id := by
        ext k
        rw [Appends.write, mem_settled_done hi]
        exact or_iff_left fun ⟨hring, _⟩ => hid hring.symm
      rw [hsettled, Appends.write_rings, Function.update_of_ne hid]
      exact h.holds id
  · rcases List.mem_or_eq_of_mem_set htask with htask | rfl
    · obtain ⟨hwf, hnew, hread⟩ := h.reads t htask existing' ht
      exact ⟨hwf, hnew, fun k hk => (mem_settled_done hi _).2 (.inl (hread k hk))⟩
    · cases ht

theorem Kept.step {s' : Appends N} {e : AppendEvent N} (h : Kept s) (hup : upToDate s e)
    (hstep : appends.step s e = some s') : Kept s' := by
  cases e with
  | addRingEntry ownerId chatId epoch wrapped =>
    obtain rfl := Option.some.inj hstep
    have hsettled : ∀ id, settled { s with tasks := s.tasks ++
        [⟨ringId ownerId chatId, ⟨epoch, wrapped⟩, .reading⟩] } id = settled s id := by
      intro id
      rw [settled, settled, List.filter_append, List.filter_cons_of_neg, List.filter_nil,
        List.append_nil]
      exact fun h => absurd (of_decide_eq_true h).2 Bool.false_ne_true
    refine ⟨fun id => ?_, fun t htask existing ht => ?_⟩
    · rw [hsettled]
      exact h.holds id
    · rw [hsettled]
      rcases List.mem_append.1 htask with htask | htask
      · exact h.reads t htask existing ht
      · rw [List.mem_singleton.1 htask] at ht
        cases ht
  | resume i =>
    simp only [appends, Appends.resume] at hstep
    split at hstep
    · cases hstep
    next task hi =>
      split at hstep
      next hstage =>
        obtain rfl := Option.some.inj hstep
        exact h.read hi hstage
      next existing hstage =>
        obtain rfl := Option.some.inj hstep
        exact h.write hi hstage hup
      · cases hstep

theorem kept_of_restrict
    (hs : (appends.restrict fun (s : Appends N) e => upToDate s e).Reachable s) : Kept s := by
  refine Machine.Invariant.reachable (I := Kept) ⟨?_, ?_⟩ hs
  · rintro s ⟨hrings, htasks, hwf⟩
    refine ⟨fun id => ?_, fun t htask => ?_⟩
    · have hsettled : settled s id = ((s.rings id).map RingEntry.epoch).toFinset := by
        rw [settled, htasks, hrings]
        exact Finset.union_empty _
      rw [hsettled, hrings]
      exact (hwf id).holds
    · rw [htasks] at htask
      exact absurd htask List.not_mem_nil
  · intro s e s' h hstep
    obtain ⟨hup, hstep⟩ := Machine.restrict_step.1 hstep
    exact h.step hup hstep

/-- **Appends.** In a run whose writes are all up to date, a ring holds, once the appends are
    done, each of the newest epochs that were offered or stored before. -/
theorem newest_kept (hs : (appends.restrict fun (s : Appends N) e => upToDate s e).Reachable s)
    (hdone : ∀ task ∈ s.tasks, task.stage.isDone) (hk : k ∈ seen s id)
    (hnewer : ((seen s id).filter (k < ·)).card < RING_CAP) :
    ∃ e ∈ s.rings id, e.epoch = k := by
  have hseen : settled s id = seen s id := by
    have htasks : (s.tasks.filter fun task => decide (task.ring = id ∧ task.stage.isDone)) =
        s.tasks.filter fun task => decide (task.ring = id) :=
      List.filter_congr fun task htask => by simp [hdone task htask]
    rw [settled, seen, htasks]
  exact List.mem_map.1 (((kept_of_restrict hs).holds id).mem_of_newest (hseen ▸ hk)
    (hseen ▸ hnewer))

end

/-! ## Two appends -/

/-- Two epochs are offered for a chat, and the appends of them take their turns. -/
def offers (turns : List ℕ) : List (AppendEvent ℕ) :=
  [.addRingEntry "owner" "chat" 1 "first", .addRingEntry "owner" "chat" 2 "second"] ++
    turns.map .resume

def nothingStored : Appends ℕ := ⟨fun _ => [], fun _ => [], []⟩

theorem nothingStored_init : (appends (N := ℕ)).init nothingStored :=
  ⟨rfl, rfl, fun _ => ⟨List.Pairwise.nil, Nat.zero_le _⟩⟩

/-- Both appends read before either writes, and the entry that is written first is lost. -/
theorem append_lost : ∃ s, appends.run nothingStored (offers [0, 1, 1, 0]) = some s ∧
    (appends (N := ℕ)).Reachable s ∧ (∀ task ∈ s.tasks, task.stage.isDone) ∧
    2 ∈ seen s (ringId "owner" "chat") ∧
    ((seen s (ringId "owner" "chat")).filter (2 < ·)).card < RING_CAP ∧
    ¬ ∃ e ∈ s.rings (ringId "owner" "chat"), e.epoch = 2 := by
  have hrun : (appends.run nothingStored (offers [0, 1, 1, 0])).isSome := by decide +kernel
  obtain ⟨s, hs, hreachable⟩ := Machine.exists_reachable hrun nothingStored_init
  refine ⟨s, hs, hreachable, ?_⟩
  obtain rfl := Option.some.inj hs
  decide +kernel

/-- One append after the other. -/
theorem newest_kept_in_turn : ∃ s, appends.run nothingStored (offers [1, 1, 0, 0]) = some s ∧
    ∃ e ∈ s.rings (ringId "owner" "chat"), e.epoch = 2 := by
  have hrun : ((appends.restrict fun (s : Appends ℕ) e => upToDate s e).run nothingStored
      (offers [1, 1, 0, 0])).isSome := by decide +kernel
  obtain ⟨s, hs, hreachable⟩ := Machine.exists_reachable hrun nothingStored_init
  have hstate := Machine.run_of_restrict hs
  refine ⟨s, hstate, newest_kept hreachable ?_ ?_ ?_⟩ <;>
    obtain rfl := Option.some.inj hstate <;> decide +kernel

end OneToThree.RingAppends
