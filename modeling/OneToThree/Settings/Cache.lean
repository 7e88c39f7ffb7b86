import OneToThree.Settings.Registry
import OneToThree.Lib.Machine

/-!
# The cache of the settings

One process of the server reads the table of overrides through a cache with a time to live of five
seconds, and a cold cache is filled by one load for all the calls that find it so. A load goes on
in steps: its query is executed, its `.then` fills the cache, its `.finally` takes the promise back
and the calls that wait for it answer. `setSetting` empties the cache once its statement is done,
so that the next read should go to the table.

It does not take back a load in flight. Where the load had read the table before the statement, its
`.then` fills the cache with what was there before (`registration_stays_open`).

* `Process.Visible` is the property: what a call answers is what the last call of `setSetting` of
  its knob reported, if none has begun since.
* `Process.Kept` is the invariant: the table, the cache and the load in flight have every value
  that was reported.
* `visible_of_meets`: the property holds in the runs where `setSetting` returns only when
  what it wrote is in the table and in the load in flight.
-/

namespace OneToThree.Settings

def CACHE_TTL_MS : ℕ := 5000

/-- The load in flight. -/
inductive Load
  | querying
  /-- The rows were read. -/
  | read (rows : Rows)
  | failed
  /-- Its `.then` or its `.catch` was run. -/
  | settled (m : Overrides)

/-- The overrides that the promise will have, where that is known. -/
def Load.overrides : Load → Option Overrides
  | .read rows => some (loadOverrides rows)
  | .settled m => some m
  | .querying | .failed => none

/-- A call of `getSetting` that waits. What it should answer is kept for the statements. -/
structure Get where
  definition : SettingDef
  expected : Option SettingValue

structure Answer where
  expected : Option SettingValue
  value : SettingValue
  deriving DecidableEq

structure Process where
  /-- The table, in the database. -/
  rows : Rows
  cache : Option Overrides
  cacheExpiresAt : ℕ
  inFlight : Option Load
  now : ℕ
  /-- The calls of `getSetting` that wait for the load in flight. -/
  getting : List Get
  /-- The calls of `setSetting` whose statement is to be executed. -/
  writing : List Write
  /-- Those whose statement was executed, and that have not returned. -/
  written : List Write
  /-- The value that the last call for the knob reported, if none has begun since; for the
      statements only. -/
  reported : String → Option SettingValue
  /-- What the calls of `getSetting` answered, for the statements only. -/
  answers : List Answer

inductive Event
  | tick (ms : ℕ)
  | getSetting (key : String)
  | setSetting (key : String) (value : Option Raw)
  /-- The statement of a call. -/
  | execute (i : ℕ)
  /-- The call goes on after its statement, and returns. -/
  | returns (i : ℕ)
  /-- The query of the load. -/
  | select
  | fail
  /-- The `.then`, or the `.catch`, of the load. -/
  | settle
  /-- Its `.finally`. -/
  | finish

variable (env : Env)

namespace Process

def start (rows : Rows) : Process := ⟨rows, none, 0, none, 0, [], [], [], fun _ => none, []⟩

/-- The cache, where it has not expired. -/
def fresh (s : Process) : Option Overrides := if s.now < s.cacheExpiresAt then s.cache else none

/-- A call for what is no knob throws. -/
def getSetting (s : Process) (key : String) : Process :=
  match getSettingDef key with
  | none => s
  | some d =>
    match s.fresh with
    | some m => { s with answers := s.answers ++ [⟨s.reported key, resolve env m d⟩] }
    | none => { s with
        inFlight := some (s.inFlight.getD .querying)
        getting := s.getting ++ [⟨d, s.reported key⟩] }

def setSetting (s : Process) (key : String) (value : Option Raw) : Process :=
  match Settings.setSetting env key value with
  | none => s
  | some w => { s with
      writing := s.writing ++ [w]
      reported := fun k => if k = key then none else s.reported k }

def execute (s : Process) (i : ℕ) : Option Process :=
  (s.writing[i]?).map fun w => { s with
    rows := w.execute s.rows
    writing := s.writing.eraseIdx i
    written := s.written ++ [w] }

def returns (s : Process) (i : ℕ) : Option Process :=
  (s.written[i]?).map fun w => { s with
    cache := none
    cacheExpiresAt := 0
    written := s.written.eraseIdx i
    reported := fun k => if k = w.key then some w.reported else s.reported k }

def select (s : Process) : Option Process :=
  match s.inFlight with
  | some .querying => some { s with inFlight := some (.read s.rows) }
  | _ => none

def fail (s : Process) : Option Process :=
  match s.inFlight with
  | some .querying => some { s with inFlight := some .failed }
  | _ => none

def settle (s : Process) : Option Process :=
  match s.inFlight with
  | some (.read rows) => some { s with
      cache := some (loadOverrides rows)
      cacheExpiresAt := s.now + CACHE_TTL_MS
      inFlight := some (.settled (loadOverrides rows)) }
  | some .failed => some { s with inFlight := some (.settled (s.cache.getD ∅)) }
  | _ => none

def finish (s : Process) : Option Process :=
  match s.inFlight with
  | some (.settled m) => some { s with
      inFlight := none
      getting := []
      answers := s.answers ++
        s.getting.map fun g => ⟨g.expected, resolve env m g.definition⟩ }
  | _ => none

end Process

def machine : Machine Process Event where
  init s := ∃ rows, s = .start rows
  step s
    | .tick ms => some { s with now := s.now + ms }
    | .getSetting key => some (s.getSetting env key)
    | .setSetting key value => some (s.setSetting env key value)
    | .execute i => s.execute i
    | .returns i => s.returns i
    | .select => s.select
    | .fail => s.fail
    | .settle => s.settle
    | .finish => s.finish env

/-- What is answered is what was reported. -/
def Process.Visible (s : Process) : Prop :=
  ∀ a ∈ s.answers, ∀ v, a.expected = some v → a.value = v

/-- A statement takes no reported value back: neither one that a later call may ask for, nor one
    that a call waits for whose load has not read. -/
def Process.keeps (s : Process) (w : Write) : Bool :=
  (s.reported w.key).all (· = w.reported) &&
    ((s.inFlight.bind Load.overrides).isSome ||
      s.getting.all fun g => g.definition.key ≠ w.key || g.expected.all (· = w.reported))

/-- What was written is in effect, in the table and in what the load in flight has read. -/
def Process.inEffect (s : Process) (w : Write) : Bool :=
  (getSettingDef w.key).all fun d =>
    resolve env (loadOverrides s.rows) d = w.reported &&
      (s.inFlight.bind Load.overrides).all fun m => resolve env m d = w.reported

/-- The condition on the steps. The queries succeed. -/
def Process.meets (s : Process) : Event → Bool
  | .execute i => (s.writing[i]?).all fun w => s.keeps w
  | .returns i => (s.written[i]?).all fun w => s.inEffect env w
  | .fail => false
  | _ => true

/-! ## The invariant -/

variable {env}

variable (env) in
/-- These overrides have every value that was reported. -/
def Shows (reported : String → Option SettingValue) (m : Overrides) : Prop :=
  ∀ d v, getSettingDef d.key = some d → reported d.key = some v → resolve env m d = v

/-- Fewer values were reported. -/
theorem Shows.mono {reported reported' : String → Option SettingValue} {m : Overrides}
    (h : Shows env reported m) (hle : ∀ key v, reported' key = some v → reported key = some v) :
    Shows env reported' m :=
  fun d v hd hv => h d v hd (hle d.key v hv)

/-- One more value was reported. -/
theorem Shows.report {reported : String → Option SettingValue} {m : Overrides}
    (h : Shows env reported m) {w : Write}
    (hw : ∀ d, getSettingDef w.key = some d → resolve env m d = w.reported) :
    Shows env (fun k => if k = w.key then some w.reported else reported k) m := by
  intro d v hd hv
  dsimp only at hv
  split_ifs at hv with hkey
  · rw [← Option.some.inj hv]
    exact hw d (hkey ▸ hd)
  · exact h d v hd hv

variable (env) in
structure Process.Kept (s : Process) : Prop where
  table : Shows env s.reported (loadOverrides s.rows)
  cache : ∀ m, s.cache = some m → Shows env s.reported m
  load : ∀ m, s.inFlight.bind Load.overrides = some m → Shows env s.reported m
  /-- A call that waits will answer from what the load has read, or else from the table. -/
  getting : ∀ g ∈ s.getting, getSettingDef g.definition.key = some g.definition ∧
    ∀ v, g.expected = some v → resolve env
      ((s.inFlight.bind Load.overrides).getD (loadOverrides s.rows)) g.definition = v
  notFailed : ∀ load, s.inFlight = some load → load ≠ .failed
  writing : ∀ w ∈ s.writing, ∃ value, Settings.setSetting env w.key value = some w
  visible : s.Visible

namespace Process.Kept

variable {s t : Process}

theorem start (rows : Rows) : (Process.start rows).Kept env where
  table _ _ _ h := absurd h (by simp [Process.start])
  cache _ h := absurd h (by simp [Process.start])
  load _ h := absurd h (by simp [Process.start])
  getting _ h := absurd h List.not_mem_nil
  notFailed _ h := absurd h (by simp [Process.start])
  writing _ h := absurd h List.not_mem_nil
  visible _ h := absurd h List.not_mem_nil

/-- What the load will have, or the table, shows what was reported. -/
theorem ahead (h : s.Kept env) :
    Shows env s.reported ((s.inFlight.bind Load.overrides).getD (loadOverrides s.rows)) := by
  cases hload : s.inFlight.bind Load.overrides with
  | none => exact h.table
  | some m => exact h.load m hload

theorem getSetting (h : s.Kept env) (key : String) : (s.getSetting env key).Kept env := by
  rw [Process.getSetting]
  cases hd : getSettingDef key with
  | none => exact h
  | some d =>
    have hkey := key_of_getSettingDef hd
    have hself : getSettingDef d.key = some d := hkey ▸ hd
    cases hfresh : s.fresh with
    | some m =>
      have hcache : s.cache = some m := by
        rw [Process.fresh] at hfresh
        split_ifs at hfresh
        exact hfresh
      refine { h with visible := fun a ha v hv => ?_ }
      rcases List.mem_append.1 ha with ha | ha
      · exact h.visible a ha v hv
      · obtain rfl := List.mem_singleton.1 ha
        exact h.cache m hcache d v hself (hkey ▸ hv)
    | none =>
      -- a load that is begun has read no more than no load has
      have hload : (some (s.inFlight.getD .querying)).bind Load.overrides =
          s.inFlight.bind Load.overrides := by
        cases s.inFlight <;> rfl
      refine { h with
        load := fun m hm => h.load m (hload ▸ hm)
        getting := fun g hg => ?_
        notFailed := fun load hl => ?_ }
      · dsimp only
        rw [hload]
        rcases List.mem_append.1 hg with hg | hg
        · exact h.getting g hg
        · obtain rfl := List.mem_singleton.1 hg
          exact ⟨hself, fun v hv => h.ahead d v hself (hkey ▸ hv)⟩
      · obtain rfl := Option.some.inj hl
        cases hin : s.inFlight with
        | none => exact Load.noConfusion
        | some load => exact h.notFailed load hin

theorem setSetting (h : s.Kept env) (key : String) (value : Option Raw) :
    (s.setSetting env key value).Kept env := by
  rw [Process.setSetting]
  cases hw : Settings.setSetting env key value with
  | none => exact h
  | some w =>
    have hle : ∀ k v, (if k = key then none else s.reported k) = some v → s.reported k = some v :=
      fun k v hv => by
        split_ifs at hv
        exact hv
    refine { h with
      table := h.table.mono hle
      cache := fun m hm => (h.cache m hm).mono hle
      load := fun m hm => (h.load m hm).mono hle
      writing := fun w' hw' => ?_ }
    rcases List.mem_append.1 hw' with hw' | hw'
    · exact h.writing w' hw'
    · obtain rfl := List.mem_singleton.1 hw'
      exact ⟨value, key_of_setSetting hw ▸ hw⟩

/-- A statement that takes no reported value back. -/
theorem execute (h : s.Kept env) {i : ℕ} (hok : (s.writing[i]?).all fun w => s.keeps w)
    (ht : s.execute i = some t) : t.Kept env := by
  obtain ⟨w, hw, rfl⟩ := Option.map_eq_some_iff.1 ht
  rw [hw, Option.all_some, Process.keeps, Bool.and_eq_true] at hok
  obtain ⟨hreported, hgetting⟩ := hok
  obtain ⟨value, hset⟩ := h.writing w (List.mem_of_getElem? hw)
  refine { h with
    table := fun d v hd hv => ?_
    getting := fun g hg => ⟨(h.getting g hg).1, fun v hv => ?_⟩
    writing := fun w' hw' => h.writing w' (List.mem_of_mem_eraseIdx hw') }
  · by_cases hkey : w.key = d.key
    · dsimp only at hv
      rw [hkey, hv, Option.all_some, decide_eq_true_eq] at hreported
      rw [hreported]
      exact effective_write hset (hkey ▸ hd) s.rows
    · rw [effective_write_ne hkey hd]
      exact h.table d v hd hv
  · dsimp only
    obtain ⟨hd, hg'⟩ := h.getting g hg
    specialize hg' v hv
    cases hload : s.inFlight.bind Load.overrides with
    | some m => rwa [hload] at hg'
    | none =>
      rw [hload, Option.getD_none] at hg'
      rw [hload, Option.isSome_none, Bool.false_or, List.all_eq_true] at hgetting
      specialize hgetting g hg
      rw [Option.getD_none]
      by_cases hkey : w.key = g.definition.key
      · simp only [hkey, ne_eq, not_true_eq_false, decide_false, Bool.false_or, hv,
          Option.all_some, decide_eq_true_eq] at hgetting
        rw [hgetting]
        exact effective_write hset (hkey ▸ hd) s.rows
      · rwa [effective_write_ne hkey hd]

/-- A call that returns with what it wrote in effect. -/
theorem returns (h : s.Kept env) {i : ℕ} (hok : (s.written[i]?).all fun w => s.inEffect env w)
    (ht : s.returns i = some t) : t.Kept env := by
  obtain ⟨w, hw, rfl⟩ := Option.map_eq_some_iff.1 ht
  rw [hw, Option.all_some, Process.inEffect] at hok
  have hshown : ∀ d, getSettingDef w.key = some d →
      resolve env (loadOverrides s.rows) d = w.reported ∧
        ∀ m, s.inFlight.bind Load.overrides = some m → resolve env m d = w.reported := by
    intro d hd
    simp only [hd, Option.all_some, Bool.and_eq_true, decide_eq_true_eq] at hok
    exact ⟨hok.1, fun m hm => by simpa [hm] using hok.2⟩
  exact { h with
    table := h.table.report fun d hd => (hshown d hd).1
    cache := fun _ hm => absurd hm.symm (Option.some_ne_none _)
    load := fun m hm => (h.load m hm).report fun d hd => (hshown d hd).2 m hm }

theorem select (h : s.Kept env) (ht : s.select = some t) : t.Kept env := by
  rw [Process.select] at ht
  split at ht
  next hload =>
    obtain rfl := Option.some.inj ht
    refine { h with
      load := fun m hm => Option.some.inj hm ▸ h.table
      getting := fun g hg => ?_
      notFailed := fun load hl => Option.some.inj hl ▸ Load.noConfusion }
    -- the table is what the load has read
    have hg' := h.getting g hg
    rwa [hload] at hg'
  next => cases ht

theorem settle (h : s.Kept env) (ht : s.settle = some t) : t.Kept env := by
  rw [Process.settle] at ht
  split at ht
  next rows hload =>
    obtain rfl := Option.some.inj ht
    have hread : Shows env s.reported (loadOverrides rows) := h.load _ (by rw [hload]; rfl)
    refine { h with
      cache := fun m hm => Option.some.inj hm ▸ hread
      load := fun m hm => Option.some.inj hm ▸ hread
      getting := fun g hg => ?_
      notFailed := fun load hl => Option.some.inj hl ▸ Load.noConfusion }
    have hg' := h.getting g hg
    rwa [hload] at hg'
  next hload => exact absurd rfl (h.notFailed _ hload)
  next => cases ht

theorem finish (h : s.Kept env) (ht : s.finish env = some t) : t.Kept env := by
  rw [Process.finish] at ht
  split at ht
  next m hload =>
    obtain rfl := Option.some.inj ht
    refine { h with
      load := fun _ hm => absurd hm.symm (Option.some_ne_none _)
      getting := fun g hg => absurd hg List.not_mem_nil
      notFailed := fun _ hl => absurd hl.symm (Option.some_ne_none _)
      visible := fun a ha v hv => ?_ }
    rcases List.mem_append.1 ha with ha | ha
    · exact h.visible a ha v hv
    · obtain ⟨g, hg, rfl⟩ := List.mem_map.1 ha
      have hg' := (h.getting g hg).2 v hv
      rwa [hload] at hg'
  next => cases ht

end Process.Kept

variable (env) in
/-- The machine of the steps that meet the condition. -/
def orderly : Machine Process Event := (machine env).restrict fun s e => s.meets env e = true

theorem Process.Kept.step {s t : Process} (h : s.Kept env) {e : Event}
    (ht : (orderly env).step s e = some t) : t.Kept env := by
  obtain ⟨hok, ht⟩ := Machine.restrict_step.1 ht
  cases e with
  | tick ms => exact Option.some.inj ht ▸ { h with }
  | getSetting key => exact Option.some.inj ht ▸ h.getSetting key
  | setSetting key value => exact Option.some.inj ht ▸ h.setSetting key value
  | execute i => exact h.execute hok ht
  | returns i => exact h.returns hok ht
  | select => exact h.select ht
  | fail => exact absurd hok Bool.false_ne_true
  | settle => exact h.settle ht
  | finish => exact h.finish ht

variable (env) in
theorem kept : (orderly env).Invariant (Process.Kept env) where
  init := by
    rintro _ ⟨rows, rfl⟩
    exact .start rows
  step _ _ _ h ht := h.step ht

/-- In the runs that meet the condition, a call of `getSetting` answers what the last call of
    `setSetting` reported, if none has begun since. -/
theorem visible_of_meets {s : Process} (hs : (orderly env).Reachable s) : s.Visible :=
  ((kept env).reachable hs).visible

/-! ## Closing the registration -/

namespace Sample

/-- No variable is set. -/
def unset : Env := ⟨fun _ => none, fun _ => none⟩

/-- The registration is closed. -/
def close : List Event :=
  [.setSetting "open_registration" (some (.boolean false)), .execute 0, .returns 0]

/-- A load reads the table before that, and ends after it. -/
def early : List Event := [.getSetting "open_registration", .select] ++ close ++
  [.settle, .finish, .getSetting "open_registration"]

/-- A load reads the table before that, and ends before it. -/
def apart : List Event := [.getSetting "open_registration", .select, .settle, .finish] ++ close ++
  [.getSetting "open_registration", .select, .settle, .finish]

theorem answers_early : ((machine unset).run (.start ∅) early).map Process.answers =
    some [⟨none, .boolean true⟩, ⟨some (.boolean false), .boolean true⟩] := by
  decide

theorem answers_apart : ((orderly unset).run (.start ∅) apart).map Process.answers =
    some [⟨none, .boolean true⟩, ⟨some (.boolean false), .boolean false⟩] := by
  decide

end Sample

open Sample in
/-- The load fills the cache with the table as it was, and the registration stays open. -/
theorem registration_stays_open :
    ∃ s, (machine unset).run (.start ∅) early = some s ∧ ¬s.Visible := by
  obtain ⟨s, hs, hanswers⟩ := Option.map_eq_some_iff.1 answers_early
  refine ⟨s, hs, fun h => ?_⟩
  have := h ⟨some (.boolean false), .boolean true⟩ (by simp [hanswers]) _ rfl
  exact absurd this (by decide)

open Sample in
theorem visible_of_meets_close : ∃ s, (orderly unset).run (.start ∅) apart = some s ∧
    s.answers.length = 2 ∧ s.Visible := by
  obtain ⟨s, hs, hanswers⟩ := Option.map_eq_some_iff.1 answers_apart
  exact ⟨s, hs, by simp [hanswers], visible_of_meets (Machine.reachable_of_run hs ⟨∅, rfl⟩)⟩

end OneToThree.Settings
