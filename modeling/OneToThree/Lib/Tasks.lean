import OneToThree.Lib.InsMap

/-!
# Tasks in flight

What a program has begun and not ended, each at a place of its own. A task goes on, ends, or begins
another one, under the next name.

* `Tasks.Every` and `Tasks.Some`: what holds of every task in flight, and of one of them. They are
  followed by what each change leaves of them.
* `Tasks.Each`: what holds of every task under its name.
* `Tasks.Over`: the task of a name has ended.
-/

/-- Tasks in flight, by name. The names from `received` on are yet to be given. -/
structure Tasks (T : Type) where
  running : InsMap ℕ T
  received : ℕ
  named : ∀ i, received ≤ i → running.get? i = none

namespace Tasks

variable {T : Type}

def empty : Tasks T := ⟨∅, 0, fun _ _ => rfl⟩

def get? (ts : Tasks T) (i : ℕ) : Option T := ts.running.get? i

/-- A task begins. -/
def spawn (ts : Tasks T) (t : T) : Tasks T where
  running := ts.running.set ts.received t
  received := ts.received + 1
  named i hi := by
    rw [InsMap.get?_set_ne _ _ (Nat.ne_of_gt hi)]
    exact ts.named i (Nat.le_of_succ_le hi)

/-- A task in flight goes on. -/
def goOn (ts : Tasks T) (i : ℕ) (t : T) : Tasks T where
  running := if ts.running.has i then ts.running.set i t else ts.running
  received := ts.received
  named j hj := by
    split_ifs with hi
    · have hne : j ≠ i := by
        rintro rfl
        rw [InsMap.has, ts.named j hj] at hi
        exact absurd hi (by simp)
      rw [InsMap.get?_set_ne _ _ hne]
      exact ts.named j hj
    · exact ts.named j hj

/-- A task ends. -/
def finish (ts : Tasks T) (i : ℕ) : Tasks T where
  running := ts.running.delete i
  received := ts.received
  named j hj := by rw [InsMap.get?_delete, ts.named j hj, ite_self]

variable {ts : Tasks T} {i j : ℕ} {t u : T}

theorem get?_spawn : (ts.spawn t).get? j = if j = ts.received then some t else ts.get? j :=
  InsMap.get?_set _ _ _ _

theorem get?_goOn (hi : ts.get? i = some u) :
    (ts.goOn i t).get? j = if j = i then some t else ts.get? j := by
  have hhas : ts.running.has i = true := InsMap.has_iff.2 ⟨u, hi⟩
  change (if ts.running.has i then ts.running.set i t else ts.running).get? j = _
  rw [if_pos hhas]
  exact InsMap.get?_set _ _ _ _

theorem get?_finish : (ts.finish i).get? j = if j = i then none else ts.get? j :=
  InsMap.get?_delete _ _ _

theorem ne_received (hi : ts.get? i = some u) : i ≠ ts.received := by
  rintro rfl
  exact absurd ((ts.named _ (Nat.le_refl _)).symm.trans hi).symm (Option.some_ne_none u)

/-- What holds of every task. -/
def Every (P : T → Prop) (ts : Tasks T) : Prop := ∀ i t, ts.get? i = some t → P t

variable {P Q : T → Prop}

theorem Every.empty : Every P empty := fun _ _ h => absurd h.symm (Option.some_ne_none _)

theorem Every.imp (h : Every P ts) (hPQ : ∀ t, P t → Q t) : Every Q ts :=
  fun i t hi => hPQ t (h i t hi)

theorem Every.spawn (h : Every P ts) (ht : P t) : Every P (ts.spawn t) := by
  intro j u hj
  rw [get?_spawn] at hj
  split_ifs at hj
  · exact Option.some.inj hj ▸ ht
  · exact h j u hj

theorem Every.goOn (h : Every P ts) (ht : P t) : Every P (ts.goOn i t) := by
  intro j u hj
  change (if ts.running.has i then ts.running.set i t else ts.running).get? j = some u at hj
  split_ifs at hj
  · rw [InsMap.get?_set] at hj
    split_ifs at hj
    · exact Option.some.inj hj ▸ ht
    · exact h j u hj
  · exact h j u hj

theorem Every.finish (h : Every P ts) : Every P (ts.finish i) := by
  intro j u hj
  rw [get?_finish] at hj
  split_ifs at hj
  exact h j u hj

/-- What holds of a task. -/
def Some (P : T → Prop) (ts : Tasks T) : Prop := ∃ i t, ts.get? i = some t ∧ P t

theorem Some.imp (h : Some P ts) (hPQ : ∀ t, P t → Q t) : Some Q ts := by
  obtain ⟨i, t, hi, ht⟩ := h
  exact ⟨i, t, hi, hPQ t ht⟩

theorem Some.spawn (h : Some P ts) : Some P (ts.spawn t) := by
  obtain ⟨j, u, hj, hu⟩ := h
  exact ⟨j, u, by rw [get?_spawn, if_neg (ne_received hj), hj], hu⟩

/-- A task goes on that was not the one, or still is. -/
theorem Some.goOn (h : Some P ts) (hi : ts.get? i = some u) (hkeep : P u → P t) :
    Some P (ts.goOn i t) := by
  obtain ⟨j, v, hj, hv⟩ := h
  by_cases hji : j = i
  · obtain rfl := Option.some.inj (hi.symm.trans (hji ▸ hj))
    exact ⟨i, t, by rw [get?_goOn hi, if_pos rfl], hkeep hv⟩
  · exact ⟨j, v, by rw [get?_goOn hi, if_neg hji, hj], hv⟩

theorem some_goOn (hi : ts.get? i = some u) (ht : P t) : Some P (ts.goOn i t) :=
  ⟨i, t, by rw [get?_goOn hi, if_pos rfl], ht⟩

theorem Some.finish (h : Some P ts) (hi : ts.get? i = some u) (hnot : ¬P u) :
    Some P (ts.finish i) := by
  obtain ⟨j, v, hj, hv⟩ := h
  have hji : j ≠ i := by
    rintro rfl
    exact hnot (Option.some.inj (hi.symm.trans hj) ▸ hv)
  exact ⟨j, v, by rw [get?_finish, if_neg hji, hj], hv⟩

/-- Whether one of them is such. -/
def any (ts : Tasks T) (p : T → Bool) : Bool :=
  (List.range ts.received).any fun i => (ts.get? i).any p

theorem any_iff {p : T → Bool} : ts.any p = true ↔ Some (fun t => p t = true) ts := by
  simp only [any, List.any_eq_true, List.mem_range, Option.any_eq_true]
  constructor
  · rintro ⟨i, -, t, hi, ht⟩
    exact ⟨i, t, hi, ht⟩
  · rintro ⟨i, t, hi, ht⟩
    refine ⟨i, ?_, t, hi, ht⟩
    -- A name that is yet to be given is no task's.
    by_contra hlt
    exact Option.some_ne_none t (hi.symm.trans (ts.named i (Nat.le_of_not_lt hlt)))

/-- No task is such. -/
theorem get?_ne_of_any {p : T → Bool} (h : ts.any p = false) (ht : p t = true) :
    ts.get? i ≠ some t := by
  intro hi
  exact Bool.false_ne_true (h.symm.trans (any_iff.2 ⟨i, t, hi, ht⟩))

/-- There is no task. -/
theorem get?_eq_none_of_any (h : (ts.any fun _ => true) = false) : ts.get? i = none :=
  Option.eq_none_iff_forall_ne_some.2 fun _ => get?_ne_of_any h rfl

/-! ## Names -/

/-- What holds of every task under its name. -/
def Each (R : ℕ → T → Prop) (ts : Tasks T) : Prop := ∀ i t, ts.get? i = some t → R i t

variable {R R' : ℕ → T → Prop}

theorem Each.imp (h : Each R ts) (hR : ∀ i t, ts.get? i = some t → R i t → R' i t) :
    Each R' ts :=
  fun i t hi => hR i t hi (h i t hi)

theorem Each.spawn (h : Each R ts) (ht : R ts.received t) : Each R (ts.spawn t) := by
  intro j u hj
  rw [get?_spawn] at hj
  split_ifs at hj with hji
  · exact Option.some.inj hj ▸ hji ▸ ht
  · exact h j u hj

theorem Each.goOn (h : Each R ts) (hi : ts.get? i = some u) (ht : R i t) :
    Each R (ts.goOn i t) := by
  intro j v hj
  rw [get?_goOn hi] at hj
  split_ifs at hj with hji
  · exact Option.some.inj hj ▸ hji ▸ ht
  · exact h j v hj

theorem Each.finish (h : Each R ts) : Each R (ts.finish i) := by
  intro j u hj
  rw [get?_finish] at hj
  split_ifs at hj
  exact h j u hj

/-- The task of the name has ended. -/
def Over (ts : Tasks T) (i : ℕ) : Prop := i < ts.received ∧ ts.get? i = none

theorem Over.spawn (h : Over ts j) : Over (ts.spawn t) j :=
  ⟨Nat.lt_succ_of_lt h.1, by rw [get?_spawn, if_neg (Nat.ne_of_lt h.1), h.2]⟩

theorem Over.goOn (h : Over ts j) (hi : ts.get? i = some u) : Over (ts.goOn i t) j := by
  refine ⟨h.1, ?_⟩
  rw [get?_goOn hi, if_neg, h.2]
  rintro rfl
  exact Option.some_ne_none u (hi.symm.trans h.2)

theorem Over.finish (h : Over ts j) : Over (ts.finish i) j :=
  ⟨h.1, by rw [get?_finish, h.2, ite_self]⟩

theorem over_finish (hi : ts.get? i = some u) : Over (ts.finish i) i := by
  refine ⟨?_, by rw [get?_finish, if_pos rfl]⟩
  by_contra hlt
  exact Option.some_ne_none u (hi.symm.trans (ts.named i (Nat.le_of_not_lt hlt)))

end Tasks
