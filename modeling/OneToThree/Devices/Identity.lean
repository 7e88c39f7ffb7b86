import OneToThree.Lib.Service

/-!
# Publishing an identity

The row of a device in the directory of identity keys, and `POST /keys/identity`, which
publishes an identity of a generation: it reads the row, refuses a generation behind it, and
stores the identity over the row, in a statement of its own that does not look at the row again.

* `NeverBack`: the generations that are stored never go back, and no identity takes the place of
  another one of its generation.
* That holds in every run in which the check of each request still passes where it stores its
  identity, and the first request of a run whose check does not breaks it (`never_back`).

The device stays, and so does its row. Sessions and the form of the keys are checked before.
-/

namespace OneToThree.DeviceIdentity

structure Identity where
  signingPublicKey : String
  exchangePublicKey : String
  exchangePublicKeySignature : String
  generation : ℕ
  deriving DecidableEq

/-- The row of the device. -/
structure Store where
  row : Option Identity
  /-- What the row has been, in order: history, which no statement reads. -/
  stored : List Identity

inductive Statement
  | select
  /-- `INSERT`, and an update where the row is there -/
  | upsert (identity : Identity)
  deriving DecidableEq

abbrev Statement.Result : Statement → Type
  | .select => Option Identity
  | .upsert _ => Unit

inductive Reply
  | ok
  | unchanged
  /-- `IDENTITY_STALE_GENERATION`, with the current generation -/
  | stale (current : ℕ)
  deriving DecidableEq

def Store.answer (s : Store) : (q : Statement) → q.Result × Store
  | .select => (s.row, s)
  | .upsert identity => ((), ⟨some identity, s.stored ++ [identity]⟩)

/-- The check of a request against a row: it answers, or the request goes on. -/
def check (existing : Option Identity) (body : Identity) : Option Reply :=
  match existing with
  | none => none
  | some existing =>
    if body.generation < existing.generation then some (.stale existing.generation)
    else if body.generation = existing.generation then
      let unchanged := existing.signingPublicKey = body.signingPublicKey ∧
        existing.exchangePublicKey = body.exchangePublicKey ∧
        existing.exchangePublicKeySignature = body.exchangePublicKeySignature
      some (if unchanged then .unchanged else .stale existing.generation)
    else none

abbrev Route := Program Statement Statement.Result Reply

/-- `POST /keys/identity` -/
def postIdentity (body : Identity) : Route := do
  let existing ← Program.request .select
  match check existing body with
  | some reply => return reply
  | none =>
    let _ ← Program.request (.upsert body)
    return .ok

def service : Service Store Statement Statement.Result Identity Reply where
  answer := Store.answer
  handle := postIdentity

/-- The row is what was stored last. -/
def Store.Recorded (s : Store) : Prop := s.row = s.stored.getLast?

/-- Before the first request the row is there, or it is not. -/
def Store.IsInitial (s : Store) : Prop := s.stored = s.row.toList

/-- The stored generation does not decrease, and an identity is not replaced by a different one
    with a generation that is not above its own. -/
structure NeverBack (s : Store) : Prop where
  monotone : s.stored.Pairwise fun old new => old.generation ≤ new.generation
  replaced : s.stored.Pairwise fun old new => new.generation ≤ old.generation → new = old

/-- The check of an identity does not refuse it. -/
def fresh (s : Store) : Statement → Bool
  | .select => true
  | .upsert identity =>
    match check s.row identity with
    | some (.stale _) => false
    | _ => true

/-- Where an identity is stored, its check against the row still passes. -/
abbrev Fresh : Service.State Store Statement Statement.Result Identity Reply →
    Service.Event Identity → Prop :=
  Service.Orderly (fun _ _ => True) fun s q => fresh s q

/-! ## The proof -/

/-- What may be stored over an identity. -/
def Follows (old new : Identity) : Prop := old.generation < new.generation ∨ new = old

theorem follows_iff {old new : Identity} : Follows old new ↔
    old.generation ≤ new.generation ∧ (new.generation ≤ old.generation → new = old) := by
  rw [Follows]
  constructor
  · rintro (h | rfl)
    · exact ⟨Nat.le_of_lt h, fun hle => absurd h (Nat.not_lt.2 hle)⟩
    · exact ⟨Nat.le_refl _, fun _ => rfl⟩
  · rintro ⟨hle, hsame⟩
    rcases Nat.lt_or_ge old.generation new.generation with h | h
    · exact .inl h
    · exact .inr (hsame h)

theorem neverBack_iff_pairwise {s : Store} : NeverBack s ↔ s.stored.Pairwise Follows := by
  constructor
  · intro h
    exact (h.monotone.and h.replaced).imp fun hab => follows_iff.2 hab
  · intro h
    exact ⟨h.imp fun hab => (follows_iff.1 hab).1, h.imp fun hab => (follows_iff.1 hab).2⟩

/-- The check refuses what may not be stored over the row. -/
theorem fresh_upsert_iff {s : Store} {identity : Identity} :
    fresh s (.upsert identity) = true ↔ ∀ row ∈ s.row, Follows row identity := by
  cases hrow : s.row with
  | none => simp [fresh, check, hrow]
  | some row =>
    obtain ⟨signing, exchange, signature, generation⟩ := identity
    obtain ⟨signing', exchange', signature', generation'⟩ := row
    simp only [fresh, check, hrow, Follows, Option.mem_some_iff, forall_eq', Identity.mk.injEq]
    split_ifs with hlt heq hsame
    · simp
      omega
    · simp [heq, hsame]
    · simp [heq]
      tauto
    · simp
      omega

theorem recorded_answer {s : Store} (h : s.Recorded) (q : Statement) : (s.answer q).2.Recorded := by
  cases q with
  | select => exact h
  | upsert identity => exact (List.getLast?_concat ..).symm

/-- An identity is stored behind all that were stored if it may be stored over the last. -/
theorem neverBack_upsert_iff {s : Store} (hrec : s.Recorded) (h : NeverBack s)
    {identity : Identity} : NeverBack (s.answer (.upsert identity)).2 ↔
      fresh s (.upsert identity) = true := by
  rw [fresh_upsert_iff, neverBack_iff_pairwise]
  rw [neverBack_iff_pairwise] at h
  change (s.stored ++ [identity]).Pairwise Follows ↔ _
  rw [List.pairwise_append]
  constructor
  · rintro ⟨-, -, hall⟩ row hrow
    rw [hrec] at hrow
    exact hall row (List.mem_of_getLast? hrow) identity (List.mem_singleton.2 rfl)
  · intro hlast
    refine ⟨h, List.pairwise_singleton _ _, fun old hold new hnew => ?_⟩
    obtain rfl := List.mem_singleton.1 hnew
    rcases List.eq_nil_or_concat s.stored with hnil | ⟨l, row, hl⟩
    · rw [hnil] at hold
      cases hold
    · rw [List.concat_eq_append] at hl
      have hrow : Follows row new := hlast row (by rw [hrec, hl, List.getLast?_concat]; rfl)
      rw [hl, List.pairwise_append] at h
      rw [hl] at hold
      rcases List.mem_append.1 hold with hold | hold
      · -- What is behind the last identity is behind the new one.
        have hold : Follows old row := h.2.2 old hold row (List.mem_singleton.2 rfl)
        rcases hrow with hlt | hsame
        · rcases hold with hlt' | hsame'
          · exact .inl (Nat.lt_trans hlt' hlt)
          · exact .inl (hsame' ▸ hlt)
        · rwa [hsame]
      · rwa [List.mem_singleton.1 hold]

theorem recorded_of_initial {s : Store} (h : s.IsInitial) : s.Recorded := by
  rw [Store.Recorded, h]
  cases s.row <;> rfl

theorem neverBack_of_initial {s : Store} (h : s.IsInitial) : NeverBack s := by
  rw [neverBack_iff_pairwise, h]
  cases s.row with
  | none => exact List.Pairwise.nil
  | some row => exact List.pairwise_singleton _ _

/-- In the runs whose steps meet the condition. -/
theorem neverBack_of_fresh {s : Service.State Store Statement Statement.Result Identity Reply}
    (hs : ((service.machine Store.IsInitial).restrict Fresh).Reachable s) :
    s.store.Recorded ∧ NeverBack s.store := by
  refine Service.invariant_store (I := fun store => store.Recorded ∧ NeverBack store)
    (fun store h => ⟨recorded_of_initial h, neverBack_of_initial h⟩) (fun store q hq h => ?_) hs
  refine ⟨recorded_answer h.1 q, ?_⟩
  cases q with
  | select => exact h.2
  | upsert identity => exact (neverBack_upsert_iff h.1 h.2).2 hq

/-- **The identity never goes back**, in the runs in which the check of each request still
    passes where it stores its identity; the first step of a run where it does not breaks it. -/
theorem never_back {s : Service.State Store Statement Statement.Result Identity Reply}
    (hs : ((service.machine Store.IsInitial).restrict Fresh).Reachable s) :
    NeverBack s.store ∧
      ∀ e s', service.step s e = some s' → ¬Fresh s e → ¬NeverBack s'.store := by
  obtain ⟨hrec, hprev⟩ := neverBack_of_fresh hs
  refine ⟨hprev, fun e s' hstep hnot hback => hnot ?_⟩
  rcases Service.step_cases hstep with ⟨a, rfl, rfl⟩ | ⟨i, a, q, next, rfl, hget, rfl⟩
  · trivial
  · intro q' hq'
    rw [Service.State.waiting, hget, Option.mem_some_iff] at hq'
    obtain rfl := hq'
    rw [Service.goOn_store] at hback
    cases q with
    | select => rfl
    | upsert identity => exact (neverBack_upsert_iff hrec hprev).1 hback

namespace Sample

def first : Identity := ⟨"a", "a", "a", 1⟩

def second : Identity := ⟨"b", "b", "b", 2⟩

def third : Identity := ⟨"c", "c", "c", 3⟩

/-- Two tabs have read the first identity, and the later one stores its own first. -/
def race : List (Service.Event Identity) :=
  [.receive second, .serve 0, .receive third, .serve 1, .serve 1, .serve 0]

/-- The tabs publish one after the other. -/
def inTurn : List (Service.Event Identity) :=
  Service.whole 0 second 2 ++ Service.whole 1 third 2 ++ Service.whole 2 second 1

end Sample

theorem never_back_inTurn :
    ∃ s, ((service.machine Store.IsInitial).restrict Fresh).run
        (.start ⟨some Sample.first, [Sample.first]⟩) Sample.inTurn = some s ∧
      s.replies.map Prod.snd = [.ok, .ok, .stale 3] ∧ NeverBack s.store := by
  have hrun : (((service.machine Store.IsInitial).restrict Fresh).run
      (.start ⟨some Sample.first, [Sample.first]⟩) Sample.inTurn).map
        (fun s => s.replies.map Prod.snd) = some [.ok, .ok, .stale 3] := by decide
  obtain ⟨s, hs, hreplies⟩ := Option.map_eq_some_iff.1 hrun
  have hinit : Store.IsInitial ⟨some Sample.first, [Sample.first]⟩ := rfl
  exact ⟨s, hs, hreplies, (never_back (Machine.reachable_of_run hs ⟨_, hinit, rfl⟩)).1⟩

/-- The third identity is stored, and then the second one over it. -/
theorem generation_goes_back :
    ∃ s, (service.machine Store.IsInitial).Reachable s ∧ s.tasks.keys = [] ∧
      s.store.stored = [Sample.first, Sample.third, Sample.second] ∧ ¬NeverBack s.store := by
  have hrun : ((service.machine Store.IsInitial).run (.start ⟨some Sample.first, [Sample.first]⟩)
      Sample.race).map (fun s => (s.tasks.keys, s.store.stored)) =
      some ([], [Sample.first, Sample.third, Sample.second]) := by decide
  obtain ⟨s, hs, hend⟩ := Option.map_eq_some_iff.1 hrun
  obtain ⟨htasks, hstored⟩ := Prod.mk.inj hend
  have hinit : Store.IsInitial ⟨some Sample.first, [Sample.first]⟩ := rfl
  refine ⟨s, Machine.reachable_of_run hs ⟨_, hinit, rfl⟩, htasks, hstored, fun h => ?_⟩
  have hmono := h.monotone
  rw [hstored] at hmono
  exact absurd hmono (by decide)

end OneToThree.DeviceIdentity
