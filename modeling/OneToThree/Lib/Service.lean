import OneToThree.Lib.InsMap
import OneToThree.Lib.Machine
import OneToThree.Lib.Program

/-!
# Services

A service handles requests on a shared store. Each request runs a program of its own
(`Program`), whose questions are the atomic statements on the store: a query, a
transaction, a command. Any number of programs are in flight, and each step either
receives a request or serves one statement of one of them: every interleaving of the
requests, at the statements, is a run.

* `Service.machine` is that machine; the replies are kept, in the order they are given.
* `Service.Orderly` are conditions on its steps: on the requests received, and on the
  statements served, in the state in which they are.
* `Service.invariant` is the rule for what holds of the store and the replies in every
  run: it asks for what one statement does, knowing only what holds along the program
  that asked for it (`Program.Along`).
* `Service.invariant_store` is the rule for what each statement keeps of the store.
* `Service.invariant_inFlight` counts the requests in flight as well, by the statement
  that each of them waits for: those that have done their work and have yet to reply.
* `Service.invariant_promised` counts the replies of a kind with those that are promised:
  a request that waits for one of its last statements is bound to such a reply when it
  has no other left, and a statement binds one request at most.
-/

/-- A service on the stores `S`: how a statement is answered, and the program that
    handles a request `A`, for a reply `B`. -/
structure Service (S Q : Type) (R : Q → Type) (A B : Type) where
  answer : S → (q : Q) → R q × S
  handle : A → Program Q R B

namespace Service

variable {S Q A B : Type} {R : Q → Type}

/-- The state of a service. -/
structure State (S Q : Type) (R : Q → Type) (A B : Type) where
  store : S
  /-- The requests in flight, each with what is left of its program. -/
  tasks : InsMap ℕ (A × Program Q R B)
  /-- How many requests were received: the name of the next one in flight. -/
  received : ℕ
  replies : List (A × B)

inductive Event (A : Type)
  | receive (a : A)
  | serve (task : ℕ)

/-- A request is received, and that many of its statements are served at once. -/
def whole (i : ℕ) (a : A) (statements : ℕ) : List (Event A) :=
  .receive a :: List.replicate statements (.serve i)

namespace State

/-- No request was received yet. -/
def start (store : S) : State S Q R A B :=
  { store := store, tasks := ∅, received := 0, replies := [] }

/-- A task goes on with a program: it replies, or it is in flight. -/
def goOn (s : State S Q R A B) (i : ℕ) (a : A) : Program Q R B → State S Q R A B
  | .done b => { s with tasks := s.tasks.delete i, replies := s.replies ++ [(a, b)] }
  | .ask q next => { s with tasks := s.tasks.set i (a, .ask q next) }

/-- The statement that a task waits for. -/
def waiting (s : State S Q R A B) (i : ℕ) : Option Q :=
  match s.tasks.get? i with
  | some (_, .ask q _) => some q
  | _ => none

end State

/-- The reply that a program gives without any further statement. -/
def replyOf (a : A) : Program Q R B → List (A × B)
  | .done b => [(a, b)]
  | .ask _ _ => []

@[simp] theorem replyOf_done (a : A) (b : B) :
    replyOf a (.done b : Program Q R B) = [(a, b)] := rfl

@[simp] theorem replyOf_ask (a : A) (q : Q) (next : R q → Program Q R B) :
    replyOf a (.ask q next) = [] := rfl

theorem mem_replyOf {a : A} {p : Program Q R B} {x : A × B} :
    x ∈ replyOf a p ↔ x.1 = a ∧ p = .done x.2 := by
  cases p with
  | done b =>
    rw [replyOf_done, List.mem_singleton, Program.done.injEq, Prod.ext_iff]
    exact and_congr_right fun _ => eq_comm
  | ask q next => simp

variable (svc : Service S Q R A B)

/-- A step of the service. -/
def step (s : State S Q R A B) : Event A → Option (State S Q R A B)
  | .receive a => some ({ s with received := s.received + 1 }.goOn s.received a (svc.handle a))
  | .serve i =>
    match s.tasks.get? i with
    | some (a, .ask q next) =>
      some ({ s with store := (svc.answer s.store q).2 }.goOn i a (next (svc.answer s.store q).1))
    | _ => none

/-- The service as a machine, from the stores that `init` holds of. -/
def machine (init : S → Prop) : Machine (State S Q R A B) (Event A) where
  init s := ∃ store, init store ∧ s = .start store
  step := svc.step

variable {svc}

@[simp] theorem goOn_store (s : State S Q R A B) (i : ℕ) (a : A) (p : Program Q R B) :
    (s.goOn i a p).store = s.store := by cases p <;> rfl

@[simp] theorem goOn_replies (s : State S Q R A B) (i : ℕ) (a : A) (p : Program Q R B) :
    (s.goOn i a p).replies = s.replies ++ replyOf a p := by
  cases p with
  | done b => rfl
  | ask q next => exact (List.append_nil _).symm

theorem goOn_get? {s : State S Q R A B} {i j : ℕ} {a a' : A} {p p' : Program Q R B}
    (h : (s.goOn i a p).tasks.get? j = some (a', p')) :
    (j = i ∧ a' = a ∧ p' = p) ∨ s.tasks.get? j = some (a', p') := by
  cases p with
  | done b =>
    rw [State.goOn, InsMap.get?_delete] at h
    split_ifs at h
    exact .inr h
  | ask q next =>
    rw [State.goOn, InsMap.get?_set] at h
    split_ifs at h with hj
    · obtain ⟨rfl, rfl⟩ := Prod.ext_iff.1 (Option.some.inj h)
      exact .inl ⟨hj, rfl, rfl⟩
    · exact .inr h

/-- What a step of the service is: a request is received, or a statement is served. -/
theorem step_cases {s s' : State S Q R A B} {e : Event A} (h : svc.step s e = some s') :
    (∃ a, e = .receive a ∧
      s' = { s with received := s.received + 1 }.goOn s.received a (svc.handle a)) ∨
    (∃ i a q next, e = .serve i ∧ s.tasks.get? i = some (a, .ask q next) ∧
      s' = { s with store := (svc.answer s.store q).2 }.goOn i a
        (next (svc.answer s.store q).1)) := by
  cases e with
  | receive a => exact .inl ⟨a, rfl, (Option.some.inj h).symm⟩
  | serve i =>
    rw [step] at h
    split at h
    · rename_i a q next hget
      exact .inr ⟨i, a, q, next, rfl, hget, (Option.some.inj h).symm⟩
    · cases h

/-! ## Conditions on the steps -/

/-- The steps that receive a request where `recv` holds of it, and serve a statement
    where `stmt` does. -/
def Orderly (recv : State S Q R A B → A → Prop) (stmt : S → Q → Prop) (s : State S Q R A B) :
    Event A → Prop
  | .receive a => recv s a
  | .serve i => ∀ q ∈ s.waiting i, stmt s.store q

instance (recv : State S Q R A B → A → Prop) (stmt : S → Q → Prop)
    [∀ s a, Decidable (recv s a)] [∀ s q, Decidable (stmt s q)] (s : State S Q R A B) :
    ∀ e : Event A, Decidable (Orderly recv stmt s e)
  | .receive a => inferInstanceAs (Decidable (recv s a))
  | .serve i => decidable_of_iff ((s.waiting i).all fun q => decide (stmt s.store q)) (by
      rw [Orderly]
      cases s.waiting i <;> simp)

variable {init : S → Prop} {recv : State S Q R A B → A → Prop} {stmt : S → Q → Prop}
  [∀ s a, Decidable (recv s a)] [∀ s q, Decidable (stmt s q)]

/-! ## Every run -/

/-- The weight of the tasks in flight. -/
def State.weight (w : A → Program Q R B → ℕ) (s : State S Q R A B) : ℕ :=
  s.tasks.total fun t => w t.1 t.2

/-- The weight of a task: that of the statement it waits for. -/
def weigh (v : A → Q → ℕ) (a : A) : Program Q R B → ℕ
  | .ask q _ => v a q
  | .done _ => 0

/-- The weight of the tasks in flight, by the statements they wait for. -/
def State.inFlight (v : A → Q → ℕ) (s : State S Q R A B) : ℕ :=
  s.tasks.total fun t => weigh v t.1 t.2

/-- No task has a name that is still to be given. -/
def State.Named (s : State S Q R A B) : Prop :=
  ∀ i, s.received ≤ i → s.tasks.get? i = none

omit [∀ s a, Decidable (recv s a)] [∀ s q, Decidable (stmt s q)] in
theorem weight_goOn {w : A → Program Q R B → ℕ} (hw : ∀ a b, w a (.done b) = 0)
    (s : State S Q R A B) (i : ℕ) (a : A) (p : Program Q R B) :
    (s.goOn i a p).weight w + (s.tasks.get? i).elim 0 (fun t => w t.1 t.2) =
      w a p + s.weight w := by
  cases p with
  | done b =>
    refine (InsMap.total_delete _ s.tasks i).trans ?_
    rw [hw, Nat.zero_add, State.weight]
  | ask q next => exact (InsMap.total_set _ s.tasks i _).trans (Nat.add_comm _ _)

theorem State.Named.goOn {s : State S Q R A B} (h : s.Named) {i : ℕ} (hi : i < s.received)
    (a : A) (p : Program Q R B) : (s.goOn i a p).Named := by
  intro j hj
  have hj' : s.received ≤ j := by cases p <;> exact hj
  by_contra hne
  obtain ⟨⟨a', p'⟩, hget⟩ := Option.ne_none_iff_exists'.1 hne
  rcases goOn_get? hget with ⟨rfl, -⟩ | hget
  · exact absurd hj' (Nat.not_le.2 hi)
  · rw [h j hj'] at hget
    cases hget

/-- What holds of the store, the weight of the tasks in flight and the replies, in every
    run: `P` is what is known along the programs, and `G` what is known of a request from
    its reception on. -/
theorem invariant_weight {w : A → Program Q R B → ℕ} (hw : ∀ a b, w a (.done b) = 0)
    {I : S → ℕ → List (A × B) → Prop}
    {G : List (A × B) → A → Prop} {P : A → (q : Q) → (R q → Program Q R B) → Prop}
    (hinit : ∀ store, init store → I store 0 [])
    (hG : ∀ l l' a, G l a → G (l ++ l') a)
    (hhandle : ∀ a, (svc.handle a).Along (P a))
    (hrecv : ∀ s n a, recv s a → I s.store n s.replies → G s.replies a ∧
      I s.store (w a (svc.handle a) + n) (s.replies ++ replyOf a (svc.handle a)))
    (hserve : ∀ store n replies a q next, G replies a → P a q next → stmt store q →
      I store (w a (.ask q next) + n) replies → I (svc.answer store q).2
        (w a (next (svc.answer store q).1) + n)
        (replies ++ replyOf a (next (svc.answer store q).1)))
    {s : State S Q R A B}
    (hs : ((svc.machine init).restrict (Orderly recv stmt)).Reachable s) :
    I s.store (s.weight w) s.replies := by
  suffices h : I s.store (s.weight w) s.replies ∧ s.Named ∧
      ∀ i a p, s.tasks.get? i = some (a, p) → G s.replies a ∧ p.Along (P a) from h.1
  -- The invariant: `I`, and the programs in flight are what is left of the handlers.
  refine hs.invariant (I := fun s => I s.store (s.weight w) s.replies ∧ s.Named ∧
    ∀ i a p, s.tasks.get? i = some (a, p) → G s.replies a ∧ p.Along (P a)) ?_ ?_
  · rintro _ ⟨store, hstore, rfl⟩
    exact ⟨hinit store hstore, fun i _ => rfl, fun i a p h => by simp [State.start] at h⟩
  · rintro s e s' - ⟨hI, hnamed, htasks⟩ hstep
    obtain ⟨hok, hstep⟩ := Machine.restrict_step.1 hstep
    rcases step_cases hstep with ⟨a, rfl, rfl⟩ | ⟨i, a, q, next, rfl, hget, rfl⟩
    · obtain ⟨hGa, hI'⟩ := hrecv s _ a hok hI
      have hnamed' : { s with received := s.received + 1 }.Named :=
        fun i hi => hnamed i (Nat.le_of_succ_le hi)
      refine ⟨?_, hnamed'.goOn (Nat.lt_succ_self _) _ _, fun j b p hj => ?_⟩
      · have hsum := weight_goOn hw { s with received := s.received + 1 } s.received a
          (svc.handle a)
        rw [hnamed s.received (Nat.le_refl _), Option.elim_none, Nat.add_zero] at hsum
        rw [goOn_store, goOn_replies, hsum]
        exact hI'
      · rw [goOn_replies]
        rcases goOn_get? hj with ⟨-, rfl, rfl⟩ | hj
        · exact ⟨hG _ _ _ hGa, hhandle b⟩
        · exact ⟨hG _ _ _ (htasks j b p hj).1, (htasks j b p hj).2⟩
    · obtain ⟨hGa, hP, hnext⟩ := htasks i a _ hget
      have hq : stmt s.store q := hok q (by rw [State.waiting, hget]; rfl)
      have hi : i < s.received := Nat.lt_of_not_le fun hi => by
        rw [hnamed i hi] at hget
        cases hget
      have hsum := weight_goOn hw { s with store := (svc.answer s.store q).2 } i a
        (next (svc.answer s.store q).1)
      -- The weight of the other tasks, which a step does not change.
      obtain ⟨n, hn⟩ : ∃ n, s.weight w = w a (.ask q next) + n := by
        have hle := InsMap.total_delete (fun t : A × Program Q R B => w t.1 t.2) s.tasks i
        rw [hget] at hle
        exact ⟨_, hle.symm.trans (Nat.add_comm _ _)⟩
      have hflight : ({ s with store := (svc.answer s.store q).2 }.goOn i a
          (next (svc.answer s.store q).1)).weight w =
          w a (next (svc.answer s.store q).1) + n := by
        have hold : State.weight w { s with store := (svc.answer s.store q).2 } =
            w a (.ask q next) + n := hn
        rw [hold, hget] at hsum
        change _ + w a (.ask q next) = _ at hsum
        omega
      have hnamed' := State.Named.goOn (s := { s with store := (svc.answer s.store q).2 }) hnamed hi
        a (next (svc.answer s.store q).1)
      refine ⟨?_, hnamed', fun j b p hj => ?_⟩
      · rw [goOn_store, goOn_replies, hflight]
        exact hserve _ _ _ _ _ _ hGa hP hq (hn ▸ hI)
      · rw [goOn_replies]
        rcases goOn_get? hj with ⟨-, rfl, rfl⟩ | hj
        · exact ⟨hG _ _ _ hGa, hnext _⟩
        · exact ⟨hG _ _ _ (htasks j b p hj).1, (htasks j b p hj).2⟩

/-- What holds of the store, the requests in flight by the statements they wait for, and
    the replies, in every run. -/
theorem invariant_inFlight (v : A → Q → ℕ) {I : S → ℕ → List (A × B) → Prop}
    {G : List (A × B) → A → Prop} {P : A → (q : Q) → (R q → Program Q R B) → Prop}
    (hinit : ∀ store, init store → I store 0 [])
    (hG : ∀ l l' a, G l a → G (l ++ l') a)
    (hhandle : ∀ a, (svc.handle a).Along (P a))
    (hrecv : ∀ s n a, recv s a → I s.store n s.replies → G s.replies a ∧
      I s.store (weigh v a (svc.handle a) + n) (s.replies ++ replyOf a (svc.handle a)))
    (hserve : ∀ store n replies a q next, G replies a → P a q next → stmt store q →
      I store (v a q + n) replies → I (svc.answer store q).2
        (weigh v a (next (svc.answer store q).1) + n)
        (replies ++ replyOf a (next (svc.answer store q).1)))
    {s : State S Q R A B}
    (hs : ((svc.machine init).restrict (Orderly recv stmt)).Reachable s) :
    I s.store (s.inFlight v) s.replies :=
  invariant_weight (w := weigh v) (fun _ _ => rfl) hinit hG hhandle hrecv hserve hs

/-- What holds of the store and the replies in every run. -/
theorem invariant {I : S → List (A × B) → Prop} {G : List (A × B) → A → Prop}
    {P : A → (q : Q) → (R q → Program Q R B) → Prop}
    (hinit : ∀ store, init store → I store [])
    (hG : ∀ l l' a, G l a → G (l ++ l') a)
    (hhandle : ∀ a, (svc.handle a).Along (P a))
    (hrecv : ∀ s a, recv s a → I s.store s.replies →
      G s.replies a ∧ I s.store (s.replies ++ replyOf a (svc.handle a)))
    (hserve : ∀ store replies a q next, G replies a → P a q next → stmt store q →
      I store replies → I (svc.answer store q).2
        (replies ++ replyOf a (next (svc.answer store q).1)))
    {s : State S Q R A B}
    (hs : ((svc.machine init).restrict (Orderly recv stmt)).Reachable s) :
    I s.store s.replies :=
  invariant_inFlight (fun _ _ => 0) (I := fun store _ replies => I store replies) hinit hG hhandle
    (fun s _ a => hrecv s a) (fun store _ => hserve store) hs

/-- What every statement keeps of the store holds of it in every run. -/
theorem invariant_store {I : S → Prop} (hinit : ∀ store, init store → I store)
    (hanswer : ∀ store q, stmt store q → I store → I (svc.answer store q).2)
    {s : State S Q R A B}
    (hs : ((svc.machine init).restrict (Orderly recv stmt)).Reachable s) : I s.store :=
  invariant (I := fun store _ => I store) (G := fun _ _ => True) (P := fun _ _ _ => True) hinit
    (fun _ _ _ _ => trivial) (fun a => Program.along_of_forall (fun _ _ => trivial) (svc.handle a))
    (fun _ _ _ h => ⟨trivial, h⟩) (fun store _ _ q _ _ _ hok h => hanswer store q hok h) hs

/-! ## Promises -/

section
variable (good : A × B → Bool) (late : Q → Bool)

/-- A request that is bound to a good reply: it waits for a late statement, or is done,
    and whatever the answers, its reply is good. -/
def Bound (a : A) : Program Q R B → Prop
  | .done b => good (a, b)
  | .ask q next => late q ∧ (Program.ask q next).Ends fun b => good (a, b)

variable {good late} in
theorem Bound.ends {a : A} {p : Program Q R B} (h : Bound good late a p) :
    p.Ends fun b => good (a, b) := by
  cases p with
  | done b => exact h
  | ask q next => exact h.2

open Classical in
/-- A request in flight that is bound to a good reply. -/
noncomputable def pledge (a : A) : Program Q R B → ℕ
  | .done _ => 0
  | .ask q next => if Bound good late a (.ask q next) then 1 else 0

open Classical in
/-- A good reply is given, or it is promised. -/
theorem pledge_add_reply (a : A) (p : Program Q R B) :
    (replyOf a p).countP good + pledge good late a p = if Bound good late a p then 1 else 0 := by
  cases p with
  | done b =>
    rw [replyOf_done, List.countP_singleton]
    exact if_congr Iff.rfl rfl rfl
  | ask q next => rw [replyOf_ask, List.countP_nil, Nat.zero_add, pledge]

/-- What holds, in every run, of the store and of the number of good replies that were
    given or promised. -/
theorem invariant_promised {I : S → ℕ → Prop}
    {P : A → (q : Q) → (R q → Program Q R B) → Prop}
    (hinit : ∀ store, init store → I store 0)
    (hhandle : ∀ a, (svc.handle a).Along (P a))
    (hrecv : ∀ a, ¬Bound good late a (svc.handle a))
    (hbound : ∀ a q next, P a q next → Bound good late a (.ask q next) →
      ∀ r, Bound good late a (next r))
    (hkeep : ∀ store n a q next, P a q next → stmt store q → I store n →
      I (svc.answer store q).2 n)
    (hpromise : ∀ store n a q next, P a q next → stmt store q → I store n →
      ¬Bound good late a (.ask q next) → Bound good late a (next (svc.answer store q).1) →
      I (svc.answer store q).2 (n + 1))
    {s : State S Q R A B}
    (hs : ((svc.machine init).restrict (Orderly recv stmt)).Reachable s) :
    ∃ n, s.replies.countP good ≤ n ∧ I s.store n := by
  refine ⟨s.replies.countP good + s.weight (pledge good late), Nat.le_add_right _ _, ?_⟩
  refine invariant_weight (w := pledge good late) (fun _ _ => rfl)
    (I := fun store n replies => I store (replies.countP good + n)) (G := fun _ _ => True)
    (P := P) hinit (fun _ _ _ _ => trivial) hhandle ?_ ?_ hs
  · intro s n a _ h
    have hreply := pledge_add_reply good late a (svc.handle a)
    rw [if_neg (hrecv a)] at hreply
    refine ⟨trivial, ?_⟩
    rw [List.countP_append, Nat.add_assoc, ← Nat.add_assoc _ _ n, hreply, Nat.zero_add]
    exact h
  · intro store n replies a q next _ hP hok h
    have hreply := pledge_add_reply good late a (next (svc.answer store q).1)
    rw [List.countP_append, Nat.add_assoc, ← Nat.add_assoc _ _ n, hreply]
    by_cases hask : Bound good late a (.ask q next)
    · -- The request was bound already.
      rw [pledge, if_pos hask] at h
      rw [if_pos (hbound a q next hP hask _)]
      exact hkeep store _ a q next hP hok h
    · rw [pledge, if_neg hask] at h
      split_ifs with hnext
      · rw [Nat.add_left_comm, Nat.add_comm 1]
        rw [Nat.zero_add] at h
        exact hpromise store _ a q next hP hok h hask hnext
      · exact hkeep store _ a q next hP hok h

end

end Service
