import Mathlib.Logic.Basic

/-!
# Machines

A machine is a guarded, executable step function: `step s e` is the state after
the event `e`, or `none` where `e` is not enabled. The events carry every choice
of the environment, so that a step is determined by its event.

* `Machine.run` replays a list of events; a run of a machine is what it accepts.
* `Machine.Reachable` is what the runs from the initial states reach, and
  `Machine.Invariant.reachable` the induction over them, done once.
* `Machine.restrict` keeps the steps that meet a condition: its runs are the
  runs of the machine whose steps all meet it.
* `Machine.run_invariant` is the induction over one run, for properties that
  hold from some point on as long as the events stay in a given class.
* `Machine.between_iff`: two moments of a run are related if each state is to the next.
* `Machine.withHistory` records what the steps were, for properties and conditions
  that speak of the past.
-/

/-- A machine on the states `S`, whose steps are labelled by the events `E`. -/
structure Machine (S E : Type*) where
  /-- The initial states. -/
  init : S → Prop
  /-- The state after an event, if the event is enabled. -/
  step : S → E → Option S

namespace Machine

variable {S E : Type*} (m : Machine S E)

/-- The states reached by the runs from the initial states. -/
inductive Reachable : S → Prop
  | init {s : S} : m.init s → Reachable s
  | step {s s' : S} {e : E} : Reachable s → m.step s e = some s' → Reachable s'

/-- The state after a list of events, if each of them is enabled in its turn. -/
def run : S → List E → Option S
  | s, [] => some s
  | s, e :: es => (m.step s e).bind fun s' => run s' es

variable {m}

@[simp] theorem run_nil (s : S) : m.run s [] = some s := rfl

theorem run_cons_eq_some {s s' : S} {e : E} {es : List E} :
    m.run s (e :: es) = some s' ↔ ∃ t, m.step s e = some t ∧ m.run t es = some s' := by
  rw [run, Option.bind_eq_some_iff]

theorem run_append {s s' : S} {es es' : List E} :
    m.run s (es ++ es') = some s' ↔ ∃ t, m.run s es = some t ∧ m.run t es' = some s' := by
  induction es generalizing s with
  | nil => simp
  | cons e es ih =>
    simp only [List.cons_append, run_cons_eq_some, ih]
    constructor
    · rintro ⟨t, ht, u, hu, hs'⟩
      exact ⟨u, ⟨t, ht, hu⟩, hs'⟩
    · rintro ⟨u, ⟨t, ht, hu⟩, hs'⟩
      exact ⟨t, ht, u, hu, hs'⟩

/-- The last step of a run. -/
theorem run_concat {s s' : S} {es : List E} {e : E} :
    m.run s (es ++ [e]) = some s' ↔ ∃ t, m.run s es = some t ∧ m.step t e = some s' := by
  simp only [run_append, run_cons_eq_some, run_nil, Option.some.injEq, exists_eq_right]

/-- What a run reaches from a reachable state is reachable. -/
theorem Reachable.run {s s' : S} (hs : m.Reachable s) {es : List E}
    (h : m.run s es = some s') : m.Reachable s' := by
  induction es generalizing s with
  | nil => exact Option.some.inj h ▸ hs
  | cons e es ih =>
    obtain ⟨t, ht, h⟩ := run_cons_eq_some.1 h
    exact ih (hs.step ht) h

/-- What a run reaches from an initial state is reachable. -/
theorem reachable_of_run {s s' : S} {es : List E} (h : m.run s es = some s') (hs : m.init s) :
    m.Reachable s' :=
  (Reachable.init hs).run h

/-- A list of events that the machine accepts from an initial state is a run of it. -/
theorem exists_reachable {s : S} {es : List E} (h : (m.run s es).isSome) (hs : m.init s) :
    ∃ s', m.run s es = some s' ∧ m.Reachable s' := by
  obtain ⟨s', h⟩ := Option.isSome_iff_exists.1 h
  exact ⟨s', h, reachable_of_run h hs⟩

/-- Along a run, a property preserved by the events of a class `P` is kept while
    the events stay in it. -/
theorem run_invariant {I : S → Prop} {P : E → Prop}
    (hstep : ∀ s e s', I s → P e → m.step s e = some s' → I s') {s s' : S} {es : List E}
    (hP : ∀ e ∈ es, P e) (hs : I s) (h : m.run s es = some s') : I s' := by
  induction es generalizing s with
  | nil => exact Option.some.inj h ▸ hs
  | cons e es ih =>
    obtain ⟨t, ht, h⟩ := run_cons_eq_some.1 h
    exact ih (fun e' he' => hP e' (List.mem_cons_of_mem _ he'))
      (hstep s e t hs (hP e List.mem_cons_self) ht) h

/-! ## Invariants -/

variable (m) in
/-- An inductive invariant: it holds initially, and every step keeps it. -/
structure Invariant (I : S → Prop) : Prop where
  init : ∀ s, m.init s → I s
  step : ∀ s e s', I s → m.step s e = some s' → I s'

/-- An inductive invariant holds in every reachable state. -/
theorem Invariant.reachable {I : S → Prop} (hI : m.Invariant I) {s : S} (hs : m.Reachable s) :
    I s := by
  induction hs with
  | init h => exact hI.init _ h
  | step _ he ih => exact hI.step _ _ _ ih he

/-- A property whose steps may use what is known of the reachable states holds of
    them: the invariants proved before are at hand. -/
theorem Reachable.invariant {I : S → Prop} {s : S} (hs : m.Reachable s)
    (hinit : ∀ s, m.init s → I s)
    (hstep : ∀ s e s', m.Reachable s → I s → m.step s e = some s' → I s') : I s := by
  induction hs with
  | init h => exact hinit _ h
  | step hs he ih => exact hstep _ _ _ hs ih he

/-- What every step keeps of the reachable states is kept by a run from one of them. -/
theorem Reachable.run_keeps {I : S → Prop} {s s' : S} {es : List E} (hs : m.Reachable s)
    (hstep : ∀ s e s', m.Reachable s → I s → m.step s e = some s' → I s') (h : I s)
    (hrun : m.run s es = some s') : I s' := by
  induction es generalizing s with
  | nil => exact Option.some.inj hrun ▸ h
  | cons e es ih =>
    obtain ⟨t, ht, hrun⟩ := run_cons_eq_some.1 hrun
    exact ih (hs.step ht) (hstep s e t hs h ht) hrun

/-! ## Conditions on the steps -/

variable (m) in
/-- The machine that takes only the steps meeting the condition `ok`. -/
def restrict (ok : S → E → Prop) [∀ s e, Decidable (ok s e)] : Machine S E where
  init := m.init
  step s e := if ok s e then m.step s e else none

variable {ok : S → E → Prop} [∀ s e, Decidable (ok s e)]

theorem restrict_step {s s' : S} {e : E} :
    (m.restrict ok).step s e = some s' ↔ ok s e ∧ m.step s e = some s' := by
  simp [restrict]

/-- The runs that meet a condition are runs. -/
theorem Reachable.of_restrict {s : S} (hs : (m.restrict ok).Reachable s) : m.Reachable s := by
  induction hs with
  | init h => exact .init h
  | step _ he ih => exact .step ih (restrict_step.1 he).2

/-- A condition that follows, in the reachable states, from the one that is met is met too. -/
theorem Reachable.restrict_imp {ok' : S → E → Prop} [∀ s e, Decidable (ok' s e)] {s : S}
    (hs : (m.restrict ok).Reachable s)
    (hok : ∀ s e, (m.restrict ok).Reachable s → ok s e → ok' s e) :
    (m.restrict ok').Reachable s := by
  induction hs with
  | init h => exact .init h
  | step hs he ih =>
    obtain ⟨he, hstep⟩ := restrict_step.1 he
    exact .step ih (restrict_step.2 ⟨hok _ _ hs he, hstep⟩)

/-- A condition that always holds leaves all the runs. -/
theorem Reachable.restrict (hok : ∀ s e, ok s e) {s : S} (hs : m.Reachable s) :
    (m.restrict ok).Reachable s := by
  induction hs with
  | init h => exact .init h
  | step _ he ih => exact .step ih (restrict_step.2 ⟨hok _ _, he⟩)

theorem run_of_restrict {s s' : S} {es : List E} (h : (m.restrict ok).run s es = some s') :
    m.run s es = some s' := by
  induction es generalizing s with
  | nil => exact h
  | cons e es ih =>
    obtain ⟨t, ht, h⟩ := run_cons_eq_some.1 h
    exact run_cons_eq_some.2 ⟨t, (restrict_step.1 ht).2, ih h⟩

/-- A property that a step leaves exactly if it meets the condition, and that nothing gives back,
    holds after exactly the runs whose steps all meet it. -/
theorem run_restrict_iff {J I : S → Prop} (hJ : ∀ s e t, J s → m.step s e = some t → J t)
    (hI : ∀ s e t, J s → m.step s e = some t → (I t ↔ I s ∧ ok s e)) {s t : S} {es : List E}
    (hs : J s) (h : m.run s es = some t) : (I s → (I t ↔ (m.restrict ok).run s es = some t)) ∧
      (I t → I s) := by
  induction es generalizing s with
  | nil =>
    obtain rfl := Option.some.inj h
    exact ⟨fun hi => iff_of_true hi rfl, id⟩
  | cons e es ih =>
    obtain ⟨u, hu, h⟩ := run_cons_eq_some.1 h
    obtain ⟨hiff, hback⟩ := ih (hJ s e u hs hu) h
    have hstep := hI s e u hs hu
    refine ⟨fun hi => ?_, fun ht => (hstep.1 (hback ht)).1⟩
    rw [run_cons_eq_some]
    constructor
    · intro ht
      obtain ⟨-, hok⟩ := hstep.1 (hback ht)
      exact ⟨u, restrict_step.2 ⟨hok, hu⟩, (hiff (hback ht)).1 ht⟩
    · rintro ⟨u', hu', h'⟩
      obtain ⟨hok, hu'⟩ := restrict_step.1 hu'
      obtain rfl := Option.some.inj (hu.symm.trans hu')
      exact (hiff (hstep.2 ⟨hi, hok⟩)).2 h'

/-- A property that each step from a state that has it leaves exactly if it meets the condition
    holds all along exactly the runs whose steps all meet it. -/
theorem run_always_iff {J I : S → Prop} (hJ : ∀ s e t, J s → m.step s e = some t → J t)
    (hI : ∀ s e t, J s → I s → m.step s e = some t → (I t ↔ ok s e)) {s t : S} {es : List E}
    (hs : J s) (hi : I s) (h : m.run s es = some t) :
    (∀ es₁ es₂, es = es₁ ++ es₂ → ∀ u, m.run s es₁ = some u → I u) ↔
      (m.restrict ok).run s es = some t := by
  induction es generalizing s with
  | nil =>
    refine iff_of_true (fun es₁ es₂ hes u hu => ?_) h
    obtain ⟨rfl, -⟩ := List.append_eq_nil_iff.1 hes.symm
    exact Option.some.inj hu ▸ hi
  | cons e es ih =>
    obtain ⟨v, hv, h⟩ := run_cons_eq_some.1 h
    have hstep := hI s e v hs hi hv
    rw [run_cons_eq_some]
    constructor
    · intro hall
      have hiv : I v := hall [e] es rfl v (run_cons_eq_some.2 ⟨v, hv, rfl⟩)
      refine ⟨v, restrict_step.2 ⟨hstep.1 hiv, hv⟩, (ih (hJ s e v hs hv) hiv h).1 ?_⟩
      rintro es₁ es₂ rfl u hu
      exact hall (e :: es₁) es₂ rfl u (run_cons_eq_some.2 ⟨v, hv, hu⟩)
    · rintro ⟨v', hv', h'⟩ es₁ es₂ hes u hu
      obtain ⟨hok, hv'⟩ := restrict_step.1 hv'
      obtain rfl := Option.some.inj (hv.symm.trans hv')
      cases es₁ with
      | nil => exact Option.some.inj hu ▸ hi
      | cons e' es₁ =>
        obtain ⟨rfl, htail⟩ := List.cons.inj hes
        obtain ⟨w, hw, htu⟩ := run_cons_eq_some.1 hu
        obtain rfl := Option.some.inj (hv.symm.trans hw)
        exact (ih (hJ s e v hs hv) (hstep.2 hok) h).2 h' es₁ es₂ htail u htu

/-- A property of single steps that holds exactly of those that meet a condition holds of all the
    steps of exactly the runs whose steps all meet it. -/
theorem run_events_iff {J : S → Prop} {R : S → E → S → Prop}
    (hJ : ∀ s e t, J s → m.step s e = some t → J t)
    (hR : ∀ s e t, J s → m.step s e = some t → (R s e t ↔ ok s e)) {s t : S} {es : List E}
    (hs : J s) (h : m.run s es = some t) :
    (∀ es₁ e es₂, es = es₁ ++ e :: es₂ → ∀ u v, m.run s es₁ = some u → m.step u e = some v →
      R u e v) ↔ (m.restrict ok).run s es = some t := by
  induction es generalizing s with
  | nil =>
    refine iff_of_true (fun es₁ e es₂ hes => ?_) h
    exact absurd hes.symm (List.append_ne_nil_of_right_ne_nil es₁ (List.cons_ne_nil e es₂))
  | cons e es ih =>
    obtain ⟨u, hu, h⟩ := run_cons_eq_some.1 h
    have hstep := hR s e u hs hu
    rw [run_cons_eq_some]
    constructor
    · intro hall
      refine ⟨u, restrict_step.2 ⟨hstep.1 (hall [] e es rfl s u rfl hu), hu⟩,
        (ih (hJ s e u hs hu) h).1 ?_⟩
      rintro es₁ e' es₂ rfl v w hv hw
      exact hall (e :: es₁) e' es₂ rfl v w (run_cons_eq_some.2 ⟨u, hu, hv⟩) hw
    · rintro ⟨u', hu', h'⟩ es₁ e' es₂ hes v w hv hw
      obtain ⟨hok, hu'⟩ := restrict_step.1 hu'
      obtain rfl := Option.some.inj (hu.symm.trans hu')
      cases es₁ with
      | nil =>
        obtain ⟨rfl, -⟩ := List.cons.inj hes
        obtain rfl := Option.some.inj hv
        obtain rfl := Option.some.inj (hu.symm.trans hw)
        exact hstep.2 hok
      | cons e'' es₁ =>
        obtain ⟨rfl, htail⟩ := List.cons.inj hes
        obtain ⟨x, hx, hv⟩ := run_cons_eq_some.1 hv
        obtain rfl := Option.some.inj (hu.symm.trans hx)
        exact (ih (hJ s e u hs hu) h).2 h' es₁ e' es₂ htail v w hv hw

/-- The same of a property that does not look at the events. -/
theorem run_steps_iff {J : S → Prop} {R : S → S → Prop}
    (hJ : ∀ s e t, J s → m.step s e = some t → J t)
    (hR : ∀ s e t, J s → m.step s e = some t → (R s t ↔ ok s e)) {s t : S} {es : List E}
    (hs : J s) (h : m.run s es = some t) :
    (∀ es₁ e es₂, es = es₁ ++ e :: es₂ → ∀ u v, m.run s es₁ = some u → m.step u e = some v →
      R u v) ↔ (m.restrict ok).run s es = some t :=
  run_events_iff (R := fun u _ v => R u v) hJ hR hs h

/-! ## Between two moments -/

variable (m) in
/-- What holds in every state of a run. -/
def Along (alive : S → Prop) (s : S) (es : List E) : Prop :=
  ∀ es₁ es₂, es = es₁ ++ es₂ → ∀ u, m.run s es₁ = some u → alive u

theorem Along.head {alive : S → Prop} {s : S} {es : List E} (h : m.Along alive s es) : alive s :=
  h [] es rfl s rfl

theorem Along.tail {alive : S → Prop} {s u : S} {e : E} {es : List E}
    (h : m.Along alive s (e :: es)) (hu : m.step s e = some u) : m.Along alive u es := by
  rintro es₁ es₂ rfl v hv
  exact h (e :: es₁) es₂ rfl v (run_cons_eq_some.2 ⟨u, hu, hv⟩)

theorem along_single {alive : S → Prop} {s t : S} {e : E} (h : m.step s e = some t) (hs : alive s)
    (ht : alive t) : m.Along alive s [e] := by
  intro es₁ es₂ hes u hu
  cases es₁ with
  | nil => exact Option.some.inj hu ▸ hs
  | cons e' es₁ =>
    obtain ⟨rfl, htail⟩ := List.cons.inj hes
    obtain ⟨rfl, -⟩ := List.append_eq_nil_iff.1 htail.symm
    obtain ⟨v, hv, hu⟩ := run_cons_eq_some.1 hu
    obtain rfl := Option.some.inj (h.symm.trans hv)
    exact Option.some.inj hu ▸ ht

variable (m) in
/-- Any two moments of a run are related, if something holds in all states from one to the other. -/
def Between (alive : S → Prop) (R : S → S → Prop) (s : S) (es : List E) : Prop :=
  ∀ es₁ es₂ es₃, es = es₁ ++ (es₂ ++ es₃) → ∀ u v, m.run s es₁ = some u → m.run u es₂ = some v →
    m.Along alive u es₂ → R u v

section
variable {alive : S → Prop} {R : S → S → Prop}

/-- What relates each state to the next relates the first to the last. -/
theorem related_of_steps (hrefl : ∀ s, R s s) (htrans : ∀ s t u, alive t → R s t → R t u → R s u)
    {s t : S} {es : List E} (hsteps : ∀ es₁ e es₂, es = es₁ ++ e :: es₂ → ∀ u v,
      m.run s es₁ = some u → m.step u e = some v → alive u → alive v → R u v)
    (halive : m.Along alive s es) (h : m.run s es = some t) : R s t := by
  induction es generalizing s with
  | nil => exact Option.some.inj h ▸ hrefl s
  | cons e es ih =>
    obtain ⟨u, hu, h⟩ := run_cons_eq_some.1 h
    have hrest := halive.tail hu
    refine htrans s u t hrest.head (hsteps [] e es rfl s u rfl hu halive.head hrest.head)
      (ih ?_ hrest h)
    rintro es₁ e' es₂ rfl v w hv hw
    exact hsteps (e :: es₁) e' es₂ rfl v w (run_cons_eq_some.2 ⟨u, hu, hv⟩) hw

/-- All the moments of a run are related exactly if each state is related to the next. -/
theorem between_iff (hrefl : ∀ s, R s s) (htrans : ∀ s t u, alive t → R s t → R t u → R s u)
    (s : S) (es : List E) : m.Between alive R s es ↔ ∀ es₁ e es₂, es = es₁ ++ e :: es₂ → ∀ u v,
      m.run s es₁ = some u → m.step u e = some v → alive u → alive v → R u v := by
  constructor
  · intro h es₁ e es₂ hes u v hu hv hau hav
    exact h es₁ [e] es₂ hes u v hu (run_cons_eq_some.2 ⟨v, hv, rfl⟩) (along_single hv hau hav)
  · rintro hsteps es₁ es₂ es₃ rfl u v hu hv halive
    refine related_of_steps hrefl htrans ?_ halive hv
    rintro es₄ e es₅ rfl w x hw hx
    exact hsteps (es₁ ++ es₄) e (es₅ ++ es₃) (by simp) w x (run_append.2 ⟨u, hu, hw⟩) hx

end

/-! ## Histories -/

section
variable {H : Type*}

variable (m) in
/-- The machine with a history, which starts as `start` and records every step. -/
def withHistory (start : H) (record : H → S → E → S → H) : Machine (S × H) E where
  init p := m.init p.1 ∧ p.2 = start
  step p e := (m.step p.1 e).map fun s => (s, record p.2 p.1 e s)

variable {start : H} {record : H → S → E → S → H} {p p' : S × H}

theorem withHistory_step {e : E} : (m.withHistory start record).step p e = some p' ↔
    m.step p.1 e = some p'.1 ∧ record p.2 p.1 e p'.1 = p'.2 := by
  rw [withHistory, Option.map_eq_some_iff]
  constructor
  · rintro ⟨s, hs, rfl⟩
    exact ⟨hs, rfl⟩
  · rintro ⟨hs, hrecord⟩
    exact ⟨p'.1, hs, Prod.ext rfl hrecord⟩

/-- A history does not change the runs. -/
theorem Reachable.of_withHistory (hp : (m.withHistory start record).Reachable p) :
    m.Reachable p.1 := by
  induction hp with
  | init h => exact .init h.1
  | step _ he ih => exact ih.step (withHistory_step.1 he).1

theorem run_of_withHistory {es : List E} (h : (m.withHistory start record).run p es = some p') :
    m.run p.1 es = some p'.1 := by
  induction es generalizing p with
  | nil => exact Option.some.inj h ▸ rfl
  | cons e es ih =>
    obtain ⟨t, ht, h⟩ := run_cons_eq_some.1 h
    exact run_cons_eq_some.2 ⟨t.1, (withHistory_step.1 ht).1, ih h⟩

end

end Machine
