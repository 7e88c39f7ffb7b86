import OneToThree.Lib.Service

/-!
# Transactions

Requests on a shared store, each of which has a session: what it has written in a transaction
and not committed. A request runs a program (`Program`) whose questions are the single
statements; a statement may have to wait, as for a lock, a request may fail at any of them,
its transaction being rolled back, and the rest of the world may change the store as well.

* `Transactional.machine` is that machine: every interleaving of the statements of any number
  of requests, of failures and of changes from outside, is a run.
* `Transactional.outline` is the rule of Owicki and Gries for it. Each statement is annotated
  with an assertion on the store and on the session; the assertions follow from each other
  along each program (`Transactional.Local`), and no step of another request breaks them.
-/

/-- Requests `A`, with replies `B`, on the stores `S`, in sessions `L`. -/
structure Transactional (S L Q W : Type) (R : Q → Type) (A B : Type) where
  /-- The session of a request that has not begun. -/
  session : L
  /-- What a statement of the `i`-th request is answered; none if it has to wait. -/
  answer : ℕ → S → L → (q : Q) → Option (R q × S × L)
  /-- The store when the `i`-th request has failed. -/
  rollback : ℕ → S → S
  /-- What the rest of the world does to the store. -/
  world : W → S → S
  handle : A → Program Q R B

namespace Transactional

open Service (replyOf)

variable {S L Q W A B : Type} {R : Q → Type}

/-- A request in flight, with its session and what is left of its program. -/
structure Task (L Q : Type) (R : Q → Type) (A B : Type) where
  request : A
  session : L
  program : Program Q R B

structure State (S L Q : Type) (R : Q → Type) (A B : Type) where
  store : S
  tasks : InsMap ℕ (Task L Q R A B)
  /-- How many requests were received: the number of the next one. -/
  received : ℕ
  replies : List (A × B)

inductive Event (A W : Type)
  | receive (a : A)
  | serve (task : ℕ)
  | fail (task : ℕ)
  | world (w : W)

namespace State

/-- No request was received yet. -/
def start (store : S) : State S L Q R A B :=
  { store := store, tasks := ∅, received := 0, replies := [] }

/-- A task goes on with a program: it replies, or it is in flight. -/
def goOn (s : State S L Q R A B) (i : ℕ) (a : A) (l : L) : Program Q R B → State S L Q R A B
  | .done b => { s with tasks := s.tasks.delete i, replies := s.replies ++ [(a, b)] }
  | .ask q next => { s with tasks := s.tasks.set i ⟨a, l, .ask q next⟩ }

end State

variable (svc : Transactional S L Q W R A B)

def step (s : State S L Q R A B) : Event A W → Option (State S L Q R A B)
  | .receive a =>
    some ({ s with received := s.received + 1 }.goOn s.received a svc.session (svc.handle a))
  | .serve i =>
    match s.tasks.get? i with
    | some ⟨a, l, .ask q next⟩ =>
      (svc.answer i s.store l q).map fun x => { s with store := x.2.1 }.goOn i a x.2.2 (next x.1)
    | _ => none
  | .fail i =>
    match s.tasks.get? i with
    | some _ => some { s with store := svc.rollback i s.store, tasks := s.tasks.delete i }
    | none => none
  | .world w => some { s with store := svc.world w s.store }

/-- The machine, from the stores that `init` holds of. -/
def machine (init : S → Prop) : Machine (State S L Q R A B) (Event A W) where
  init s := ∃ store, init store ∧ s = .start store
  step := svc.step

variable {svc}

@[simp] theorem goOn_store (s : State S L Q R A B) (i : ℕ) (a : A) (l : L) (p : Program Q R B) :
    (s.goOn i a l p).store = s.store := by cases p <;> rfl

@[simp] theorem goOn_replies (s : State S L Q R A B) (i : ℕ) (a : A) (l : L)
    (p : Program Q R B) : (s.goOn i a l p).replies = s.replies ++ replyOf a p := by
  cases p with
  | done b => rfl
  | ask q next => exact (List.append_nil _).symm

theorem goOn_get? {s : State S L Q R A B} {i j : ℕ} {a : A} {l : L} {p : Program Q R B}
    {t : Task L Q R A B} (h : (s.goOn i a l p).tasks.get? j = some t) :
    (j = i ∧ t = ⟨a, l, p⟩) ∨ (j ≠ i ∧ s.tasks.get? j = some t) := by
  cases p with
  | done b =>
    rw [State.goOn, InsMap.get?_delete] at h
    split_ifs at h with hj
    exact .inr ⟨hj, h⟩
  | ask q next =>
    rw [State.goOn, InsMap.get?_set] at h
    split_ifs at h with hj
    · exact .inl ⟨hj, (Option.some.inj h).symm⟩
    · exact .inr ⟨hj, h⟩

/-- What a step is: a request is received, a statement of one is served, one fails, or the
    store changes. -/
theorem step_cases {s s' : State S L Q R A B} {e : Event A W} (h : svc.step s e = some s') :
    (∃ a, e = .receive a ∧ s' =
      { s with received := s.received + 1 }.goOn s.received a svc.session (svc.handle a)) ∨
    (∃ i a l q next r store l', e = .serve i ∧ s.tasks.get? i = some ⟨a, l, .ask q next⟩ ∧
      svc.answer i s.store l q = some (r, store, l') ∧
      s' = { s with store := store }.goOn i a l' (next r)) ∨
    (∃ i, e = .fail i ∧
      s' = { s with store := svc.rollback i s.store, tasks := s.tasks.delete i }) ∨
    (∃ w, e = .world w ∧ s' = { s with store := svc.world w s.store }) := by
  cases e with
  | receive a => exact .inl ⟨a, rfl, (Option.some.inj h).symm⟩
  | serve i =>
    rw [step] at h
    split at h
    · rename_i a l q next hget
      obtain ⟨⟨r, store, l'⟩, hanswer, rfl⟩ := Option.map_eq_some_iff.1 h
      exact .inr (.inl ⟨i, a, l, q, next, r, store, l', rfl, hget, hanswer, rfl⟩)
    · cases h
  | fail i =>
    rw [step] at h
    split at h
    · exact .inr (.inr (.inl ⟨i, rfl, (Option.some.inj h).symm⟩))
    · cases h
  | world w => exact .inr (.inr (.inr ⟨w, rfl, (Option.some.inj h).symm⟩))

/-! ## Proof outlines -/

/-- An assertion for each statement of a request, given how the program goes on from it: on
    the number of the request, the store and its session. -/
abbrev Annotation (S L Q : Type) (R : Q → Type) (A B : Type) :=
  A → (q : Q) → (R q → Program Q R B) → ℕ → S → L → Prop

/-- The assertion at the point that a program has reached: that of its next statement. -/
def Asserted (pre : Annotation S L Q R A B) (i : ℕ) (a : A) (store : S) (l : L) :
    Program Q R B → Prop
  | .done _ => True
  | .ask q next => pre a q next i store l

variable (svc) in
/-- The assertion of a statement leads to that of the next one. -/
def Local (pre : Annotation S L Q R A B) (a : A) (q : Q) (next : R q → Program Q R B) : Prop :=
  ∀ i store l r store' l', pre a q next i store l →
    svc.answer i store l q = some (r, store', l') → Asserted pre i a store' l' (next r)

/-- A statement of the task `i` that is served in a state. -/
structure Served (svc : Transactional S L Q W R A B) (s : State S L Q R A B) (i : ℕ) (a : A)
    (l : L) (q : Q) (next : R q → Program Q R B) (r : R q) (store : S) (l' : L) : Prop where
  task : s.tasks.get? i = some ⟨a, l, .ask q next⟩
  answer : svc.answer i s.store l q = some (r, store, l')

variable {init : S → Prop} {ok : State S L Q R A B → Event A W → Prop} [∀ s e, Decidable (ok s e)]

/-- The rule for an annotation of the statements: `I` holds of the store and the replies in
    every run, and the annotation of every request in flight; `P` is what else is known along
    the programs. -/
theorem outline {I : S → List (A × B) → Prop} {pre : Annotation S L Q R A B}
    {P : A → (q : Q) → (R q → Program Q R B) → Prop} (hinit : ∀ store, init store → I store [])
    (hhandle : ∀ a, (svc.handle a).Along fun q next => P a q next ∧ svc.Local pre a q next)
    (hstart : ∀ i a store, Asserted pre i a store svc.session (svc.handle a))
    (hreceive : ∀ a store replies, I store replies →
      I store (replies ++ replyOf a (svc.handle a)))
    (hserve : ∀ s i a l q next r store l', ok s (.serve i) →
      Served svc s i a l q next r store l' → P a q next → I s.store s.replies →
      pre a q next i s.store l → I store (s.replies ++ replyOf a (next r)))
    (hstable : ∀ s i a l q next r store l', ok s (.serve i) →
      Served svc s i a l q next r store l' → I s.store s.replies → pre a q next i s.store l →
      ∀ j b k q' next', j ≠ i → s.tasks.get? j = some ⟨b, k, .ask q' next'⟩ →
        pre b q' next' j s.store k → pre b q' next' j store k)
    (hfail : ∀ i store replies, I store replies → I (svc.rollback i store) replies)
    (hfail_stable : ∀ i store a q next j l, j ≠ i → pre a q next j store l →
      pre a q next j (svc.rollback i store) l)
    (hworld : ∀ w store replies, I store replies → I (svc.world w store) replies)
    (hworld_stable : ∀ w store a q next i l, pre a q next i store l →
      pre a q next i (svc.world w store) l)
    {s : State S L Q R A B} (hs : ((svc.machine init).restrict ok).Reachable s) :
    I s.store s.replies ∧ ∀ i t, s.tasks.get? i = some t →
      Asserted pre i t.request s.store t.session t.program := by
  suffices h : I s.store s.replies ∧ ∀ i t, s.tasks.get? i = some t →
      (t.program.Along fun q next => P t.request q next ∧ svc.Local pre t.request q next) ∧
        Asserted pre i t.request s.store t.session t.program from
    ⟨h.1, fun i t hget => (h.2 i t hget).2⟩
  refine hs.invariant (I := fun s => I s.store s.replies ∧ ∀ i t, s.tasks.get? i = some t →
    (t.program.Along fun q next => P t.request q next ∧ svc.Local pre t.request q next) ∧
      Asserted pre i t.request s.store t.session t.program) ?_ ?_
  · rintro _ ⟨store, hstore, rfl⟩
    exact ⟨hinit store hstore, fun i t h => by simp [State.start] at h⟩
  · rintro s e s' - ⟨hI, htasks⟩ hstep
    obtain ⟨hok, hstep⟩ := Machine.restrict_step.1 hstep
    -- The assertion of a request in flight, where its statement stays the same.
    have hkeep : ∀ {store : S} {j : ℕ} {t : Task L Q R A B}, s.tasks.get? j = some t →
        (∀ q next, t.program = .ask q next → pre t.request q next j s.store t.session →
          pre t.request q next j store t.session) →
        (t.program.Along fun q next => P t.request q next ∧ svc.Local pre t.request q next) ∧
          Asserted pre j t.request store t.session t.program := by
      intro store j t hj hpre
      obtain ⟨halong, hasserted⟩ := htasks j t hj
      obtain ⟨b, k, p⟩ := t
      cases p with
      | done _ => exact ⟨halong, trivial⟩
      | ask q next => exact ⟨halong, hpre q next rfl hasserted⟩
    rcases step_cases hstep with ⟨a, rfl, rfl⟩ |
      ⟨i, a, l, q, next, r, store, l', rfl, hget, hanswer, rfl⟩ | ⟨i, rfl, rfl⟩ | ⟨w, rfl, rfl⟩
    · rw [goOn_store, goOn_replies]
      refine ⟨hreceive a _ _ hI, fun j t hj => ?_⟩
      rcases goOn_get? hj with ⟨rfl, rfl⟩ | ⟨-, hj⟩
      · exact ⟨hhandle a, hstart _ a _⟩
      · exact htasks j t hj
    · have hserved : Served svc s i a l q next r store l' := ⟨hget, hanswer⟩
      obtain ⟨⟨⟨hP, hlocal⟩, hnext⟩, hpre⟩ := htasks i _ hget
      rw [goOn_store, goOn_replies]
      refine ⟨hserve s i a l q next r store l' hok hserved hP hI hpre, fun j t hj => ?_⟩
      rcases goOn_get? hj with ⟨rfl, rfl⟩ | ⟨hne, hj⟩
      · exact ⟨hnext r, hlocal j s.store l r store l' hpre hanswer⟩
      · refine hkeep hj fun q' next' hp => ?_
        obtain ⟨b, k, p⟩ := t
        cases hp
        exact hstable s i a l q next r store l' hok hserved hI hpre j b k q' next' hne hj
    · refine ⟨hfail i s.store _ hI, fun j t hj => ?_⟩
      rw [InsMap.get?_delete] at hj
      split_ifs at hj with hne
      exact hkeep hj fun q next _ => hfail_stable i s.store _ q next j _ hne
    · exact ⟨hworld w s.store _ hI, fun j t hj =>
        hkeep hj fun q next _ => hworld_stable w s.store _ q next j _⟩

end Transactional
