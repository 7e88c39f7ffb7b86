import OneToThree.Lib.Service

/-!
# Proof outlines of services

A history of a service records, for the proofs and for properties of the past, which
requests were received and which statements were served; it changes no run.

* `Service.recorded` is the machine of a service with a history, and `Service.Guarded` are
  conditions on its steps, which may look at the history.
* `Service.outline` is the rule of Owicki and Gries for it. Each statement of a request is
  annotated with an assertion on the store and the history, given the name of the request;
  the assertions lead to each other along each program, and no step of another request
  breaks them.
-/

namespace Service

variable {S Q A B H : Type} {R : Q → Type}

/-- What a history records: a request that is received, and a statement of one that is
    served, given the program that is left. -/
structure History (S Q : Type) (R : Q → Type) (A B H : Type) where
  start : H
  receive : State S Q R A B → A → H → H
  serve : State S Q R A B → ℕ → A → Q → Program Q R B → H → H

/-- Nothing is recorded. -/
def History.none : History S Q R A B Unit where
  start := ()
  receive _ _ _ := ()
  serve _ _ _ _ _ _ := ()

variable (svc : Service S Q R A B) (hist : History S Q R A B H)

def History.record (h : H) (s : State S Q R A B) : Event A → H
  | .receive a => hist.receive s a h
  | .serve i =>
    match s.tasks.get? i with
    | some (a, .ask q next) => hist.serve s i a q (next (svc.answer s.store q).1) h
    | _ => h

/-- The service with its history. -/
def recorded (init : S → Prop) : Machine (State S Q R A B × H) (Event A) :=
  (svc.machine init).withHistory hist.start fun h s e _ => hist.record svc h s e

/-- The state after a request is received. -/
def received (p : State S Q R A B × H) (a : A) : State S Q R A B × H :=
  ({ p.1 with received := p.1.received + 1 }.goOn p.1.received a (svc.handle a),
    hist.receive p.1 a p.2)

/-- The state after a statement of the task `i` is served. -/
def served (p : State S Q R A B × H) (i : ℕ) (a : A) (q : Q) (next : R q → Program Q R B) :
    State S Q R A B × H :=
  ({ p.1 with store := (svc.answer p.1.store q).2 }.goOn i a (next (svc.answer p.1.store q).1),
    hist.serve p.1 i a q (next (svc.answer p.1.store q).1) p.2)

variable {svc hist} {init : S → Prop} {p p' : State S Q R A B × H}

/-- What a step of the service is. -/
theorem recorded_cases {e : Event A} (h : (svc.recorded hist init).step p e = some p') :
    (∃ a, e = .receive a ∧ p' = svc.received hist p a) ∨
    (∃ i a q next, e = .serve i ∧ p.1.tasks.get? i = some (a, .ask q next) ∧
      p' = svc.served hist p i a q next) := by
  obtain ⟨hstep, hrecord⟩ := Machine.withHistory_step.1 h
  rcases step_cases hstep with ⟨a, rfl, hs⟩ | ⟨i, a, q, next, rfl, hget, hs⟩
  · exact .inl ⟨a, rfl, Prod.ext hs hrecord.symm⟩
  · refine .inr ⟨i, a, q, next, rfl, hget, Prod.ext hs ?_⟩
    rw [← hrecord, History.record, hget]
    rfl

@[simp] theorem received_store (a : A) : (svc.received hist p a).1.store = p.1.store :=
  goOn_store _ _ _ _

@[simp] theorem served_store (i : ℕ) (a : A) (q : Q) (next : R q → Program Q R B) :
    (svc.served hist p i a q next).1.store = (svc.answer p.1.store q).2 := goOn_store _ _ _ _

@[simp] theorem served_snd (i : ℕ) (a : A) (q : Q) (next : R q → Program Q R B) :
    (svc.served hist p i a q next).2 =
      hist.serve p.1 i a q (next (svc.answer p.1.store q).1) p.2 := rfl

/-- The tasks in flight have been given their names. -/
theorem recorded_named (hp : (svc.recorded hist init).Reachable p) {i : ℕ} {t : A × Program Q R B}
    (hi : p.1.tasks.get? i = some t) : i < p.1.received := by
  have hnamed : p.1.Named := by
    refine hp.invariant (I := fun p => p.1.Named) ?_ fun p e p' _ hnamed hstep => ?_
    · rintro p ⟨⟨store, -, hstart⟩, -⟩ j -
      rw [hstart]
      rfl
    · rcases recorded_cases hstep with ⟨a, -, rfl⟩ | ⟨j, a, q, next, -, hget, rfl⟩
      · have hnamed' : { p.1 with received := p.1.received + 1 }.Named :=
          fun i hi => hnamed i (Nat.le_of_succ_le hi)
        exact hnamed'.goOn (Nat.lt_succ_self _) _ _
      · have hj : j < p.1.received := by
          by_contra hj
          rw [hnamed j (Nat.le_of_not_lt hj)] at hget
          cases hget
        exact State.Named.goOn (s := { p.1 with store := (svc.answer p.1.store q).2 }) hnamed hj
          a (next (svc.answer p.1.store q).1)
  by_contra hlt
  rw [hnamed i (Nat.le_of_not_lt hlt)] at hi
  cases hi

/-! ## Conditions on the steps -/

/-- The request of a task, with the statement that it waits for. -/
def State.asking (s : State S Q R A B) (i : ℕ) : Option (A × Q) :=
  match s.tasks.get? i with
  | some (a, .ask q _) => some (a, q)
  | _ => none

/-- The steps that receive a request where `recv` holds of it, and serve a statement where
    `stmt` does, given the task and its request. -/
def Guarded (recv : State S Q R A B × H → A → Prop)
    (stmt : State S Q R A B × H → ℕ → A → Q → Prop) (p : State S Q R A B × H) : Event A → Prop
  | .receive a => recv p a
  | .serve i => ∀ x ∈ p.1.asking i, stmt p i x.1 x.2

variable {recv : State S Q R A B × H → A → Prop} {stmt : State S Q R A B × H → ℕ → A → Q → Prop}
  [∀ p a, Decidable (recv p a)] [∀ p i a q, Decidable (stmt p i a q)]

instance (p : State S Q R A B × H) : ∀ e : Event A, Decidable (Guarded recv stmt p e)
  | .receive a => inferInstanceAs (Decidable (recv p a))
  | .serve i => decidable_of_iff ((p.1.asking i).all fun x => decide (stmt p i x.1 x.2)) (by
      rw [Guarded]
      cases p.1.asking i <;> simp)

/-! ## Annotations -/

/-- An assertion for each statement of a request, given how the program goes on from it: on
    the name of the request, the store and the history. -/
abbrev Annotation (S Q : Type) (R : Q → Type) (A B H : Type) :=
  ℕ → A → (q : Q) → (R q → Program Q R B) → S → H → Prop

/-- The assertion at the point that a program has reached: that of its next statement, or
    that of its reply. -/
def Asserted (pre : Annotation S Q R A B H) (post : ℕ → A → B → S → H → Prop) (i : ℕ) (a : A)
    (store : S) (h : H) : Program Q R B → Prop
  | .done b => post i a b store h
  | .ask q next => pre i a q next store h

/-- A task waits for a statement. -/
def Waits (s : State S Q R A B) (i : ℕ) (a : A) (q : Q) (next : R q → Program Q R B) : Prop :=
  s.tasks.get? i = some (a, .ask q next)

/-- A task is in flight with `ψ` of its request and of what is left of its program. -/
def State.Runs (s : State S Q R A B) (ψ : A → Program Q R B → Prop) : Prop :=
  ∃ i a prog, s.tasks.get? i = some (a, prog) ∧ ψ a prog

section
variable {ψ : A → Program Q R B → Prop} {i : ℕ} {a : A} {q : Q} {next : R q → Program Q R B}

theorem served_runs_self (hdone : ∀ b, ¬ψ a (.done b)) (h : ψ a (next (svc.answer p.1.store q).1)) :
    (svc.served hist p i a q next).1.Runs ψ := by
  refine ⟨i, a, next (svc.answer p.1.store q).1, ?_, h⟩
  rw [Service.served]
  cases hnext : next (svc.answer p.1.store q).1 with
  | done b => exact absurd (hnext ▸ h) (hdone b)
  | ask q' next' => exact InsMap.get?_set_self _ _ _

/-- The tasks go on, the one that is served with what is left of its program. -/
theorem served_runs (hdone : ∀ b, ¬ψ a (.done b)) (h : p.1.Runs ψ) (hi : Waits p.1 i a q next)
    (hkeep : ψ a (.ask q next) → ψ a (next (svc.answer p.1.store q).1)) :
    (svc.served hist p i a q next).1.Runs ψ := by
  obtain ⟨j, b, prog, hj, hψ⟩ := h
  by_cases hji : j = i
  · subst hji
    cases hj.symm.trans hi
    exact served_runs_self hdone (hkeep hψ)
  · refine ⟨j, b, prog, ?_, hψ⟩
    rw [Service.served]
    cases next (svc.answer p.1.store q).1 with
    | done b' => exact (InsMap.get?_delete_ne _ hji).trans hj
    | ask q' next' => exact (InsMap.get?_set_ne _ _ hji).trans hj

theorem received_runs (hnamed : ∀ t, p.1.tasks.get? p.1.received ≠ some t) (h : p.1.Runs ψ) :
    (svc.received hist p a).1.Runs ψ := by
  obtain ⟨j, b, prog, hj, hψ⟩ := h
  have hji : j ≠ p.1.received := fun hji => hnamed _ (hji ▸ hj)
  refine ⟨j, b, prog, ?_, hψ⟩
  rw [Service.received]
  cases svc.handle a with
  | done b' => exact (InsMap.get?_delete_ne _ hji).trans hj
  | ask q' next' => exact (InsMap.get?_set_ne _ _ hji).trans hj

end

variable (svc hist) in
/-- The assertion of a statement leads to that of the next one, or of the reply. -/
def Local (stmt : State S Q R A B × H → ℕ → A → Q → Prop) (I : S → H → Prop)
    (pre : Annotation S Q R A B H) (post : ℕ → A → B → S → H → Prop) (a : A) (q : Q)
    (next : R q → Program Q R B) : Prop :=
  ∀ p i r store, svc.answer p.1.store q = (r, store) → stmt p i a q → I p.1.store p.2 →
    pre i a q next p.1.store p.2 →
    Asserted pre post i a store (hist.serve p.1 i a q (next r) p.2) (next r)

/-- What is known in a state: `I` of the store and the history, and of every task that its
    name was given before, and what its next statement is annotated with. -/
structure Outlined (I : S → H → Prop) (P : A → (q : Q) → (R q → Program Q R B) → Prop)
    (pre : Annotation S Q R A B H) (p : State S Q R A B × H) : Prop where
  holds : I p.1.store p.2
  named : ∀ i t, p.1.tasks.get? i = some t → i < p.1.received
  along : ∀ i a prog, p.1.tasks.get? i = some (a, prog) → prog.Along (P a)
  asserted : ∀ i a q next, Waits p.1 i a q next → pre i a q next p.1.store p.2

variable {I : S → H → Prop} {P : A → (q : Q) → (R q → Program Q R B) → Prop}
  {pre : Annotation S Q R A B H} {post : ℕ → A → B → S → H → Prop}

omit [∀ p a, Decidable (recv p a)] [∀ p i a q, Decidable (stmt p i a q)] in
/-- A task goes on with a program, and the others are kept. -/
theorem Outlined.goOn (h : Outlined I P pre p) {store : S} {hi : H} {received i : ℕ} {a : A}
    {prog : Program Q R B} (hle : p.1.received ≤ received) (hlt : i < received)
    (halong : prog.Along (P a)) (hI : I store hi) (hasserted : Asserted pre post i a store hi prog)
    (hkeep : ∀ j b q next, j ≠ i → Waits p.1 j b q next → pre j b q next p.1.store p.2 →
      pre j b q next store hi) :
    Outlined I P pre
      (State.goOn { p.1 with store := store, received := received } i a prog, hi) := by
  have hreceived : (State.goOn { p.1 with store := store, received := received } i a
      prog).received = received := by cases prog <;> rfl
  refine ⟨?_, fun j t hj => ?_, fun j b prog' hj => ?_, fun j b q next hj => ?_⟩
  · rw [goOn_store]
    exact hI
  · rw [hreceived]
    obtain ⟨b, prog'⟩ := t
    rcases goOn_get? hj with ⟨rfl, -, -⟩ | hj
    · exact hlt
    · exact Nat.lt_of_lt_of_le (h.named j _ hj) hle
  · rcases goOn_get? hj with ⟨-, rfl, rfl⟩ | hj
    · exact halong
    · exact h.along j b prog' hj
  · rw [goOn_store]
    by_cases hji : j = i
    · rw [hji] at hj ⊢
      cases prog with
      | done b' =>
        rw [Waits, State.goOn, InsMap.get?_delete_self] at hj
        cases hj
      | ask q' next' =>
        rw [Waits, State.goOn, InsMap.get?_set_self] at hj
        cases hj
        exact hasserted
    · rcases goOn_get? hj with ⟨hji', -⟩ | hj
      · exact absurd hji' hji
      · exact hkeep j b q next hji hj (h.asserted j b q next hj)

omit [∀ p a, Decidable (recv p a)] [∀ p i a q, Decidable (stmt p i a q)] in
/-- What is asserted when a statement of a task is served. -/
theorem Outlined.served
    (h : Outlined I (fun a q next => P a q next ∧ svc.Local hist stmt I pre post a q next) pre p)
    {i : ℕ} {a : A} {q : Q} {next : R q → Program Q R B} (hwaits : Waits p.1 i a q next)
    (hstmt : stmt p i a q) :
    Asserted pre post i a (svc.answer p.1.store q).2 (svc.served hist p i a q next).2
      (next (svc.answer p.1.store q).1) :=
  (h.along i a _ hwaits).1.2 p i _ _ rfl hstmt h.holds (h.asserted i a q next hwaits)

variable (I pre post) in
/-- The rule for an annotation of the statements: in every run, `I` holds of the store and
    the history, and the annotation of every request in flight; `P` is what else is known
    along the programs. -/
theorem outline (hinit : ∀ store, init store → I store hist.start)
    (hhandle : ∀ a, (svc.handle a).Along fun q next =>
      P a q next ∧ svc.Local hist stmt I pre post a q next)
    (hreceive : ∀ p a, recv p a → Outlined I P pre p →
      I p.1.store (hist.receive p.1 a p.2) ∧
        Asserted pre post p.1.received a p.1.store (hist.receive p.1 a p.2) (svc.handle a))
    (hreceive_stable : ∀ p a, recv p a → Outlined I P pre p → ∀ j b q next, j < p.1.received →
      pre j b q next p.1.store p.2 → pre j b q next p.1.store (hist.receive p.1 a p.2))
    (hserve : ∀ p i a q next, stmt p i a q → Outlined I P pre p → Waits p.1 i a q next →
      Asserted pre post i a (svc.answer p.1.store q).2 (svc.served hist p i a q next).2
        (next (svc.answer p.1.store q).1) →
      I (svc.answer p.1.store q).2 (svc.served hist p i a q next).2)
    (hserve_stable : ∀ p i a q next, stmt p i a q → Outlined I P pre p → Waits p.1 i a q next →
      ∀ j b q' next', j ≠ i → Waits p.1 j b q' next' →
      pre j b q' next' (svc.answer p.1.store q).2 (svc.served hist p i a q next).2)
    (hp : ((svc.recorded hist init).restrict (Guarded recv stmt)).Reachable p) :
    Outlined I (fun a q next => P a q next ∧ svc.Local hist stmt I pre post a q next) pre p := by
  refine hp.invariant ?_ ?_
  · rintro ⟨s, h⟩ ⟨⟨store, hstore, rfl⟩, rfl⟩
    refine ⟨hinit store hstore, fun i t hi => ?_, fun i a prog hi => ?_, fun i a q next hi => ?_⟩
    all_goals simp [Waits, State.start] at hi
  · rintro p e p' - hout hstep
    obtain ⟨hok, hstep⟩ := Machine.restrict_step.1 hstep
    have hout' : Outlined I P pre p := ⟨hout.holds, hout.named,
      fun i a prog hi => (hout.along i a prog hi).imp fun _ _ h => h.1, hout.asserted⟩
    rcases recorded_cases hstep with ⟨a, rfl, rfl⟩ | ⟨i, a, q, next, rfl, hget, rfl⟩
    · obtain ⟨hI, hasserted⟩ := hreceive p a hok hout'
      exact hout.goOn (Nat.le_succ _) (Nat.lt_succ_self _) (hhandle a) hI hasserted
        fun j b q next _ hj hpre =>
          hreceive_stable p a hok hout' j b q next (hout.named j _ hj) hpre
    · have hq : stmt p i a q := hok (a, q) (by rw [State.asking, hget]; rfl)
      refine hout.goOn (Nat.le_refl _) (hout.named i _ hget) ((hout.along i a _ hget).2 _)
        (hserve p i a q next hq hout' hget (hout.served hget hq)) (hout.served hget hq) ?_
      exact fun j b q' next' hji hj _ =>
        hserve_stable p i a q next hq hout' hget j b q' next' hji hj

end Service
