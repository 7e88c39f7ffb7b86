import OneToThree.Devices.Rendezvous

/-!
# Attaching keys on the shared connection

The calls that attach the key of a new device to a rendezvous, of any number of rendezvous, on
the one connection of the process. A call watches the entry, reads it, and writes it back in a
transaction; the transaction fails where something that the connection watches has changed, and
it ends what the connection watches, for all the calls.

* `connection` is the service of these calls, with the expiry of entries and the transactions
  of other code on the connection.
* The first key that is attached stays, in every run in which no transaction comes after
  another call has attached to the same rendezvous, unless it fails; and the first that does
  breaks it (`first_write_wins`).
-/

namespace OneToThree.Devices.Connection

/-- What Redis has at a key: an entry, or a text that does not parse. -/
abbrev Raw := Option DeviceRendezvous

/-- Redis, and what the connection watches. -/
structure Redis where
  entries : String → Option Raw
  watched : List String
  /-- Something that the connection watches has changed: its next `EXEC` fails. -/
  dirty : Bool
  now : ℕ
  /-- The keys attached so far, with the rendezvous: history, which no command reads. -/
  attached : List (String × String)

inductive Command
  | watch (id : String)
  | get (id : String)
  | unwatch
  /-- `MULTI`, `SET` of the entry that was read with the key, `EXEC` -/
  | exec (id : String) (seen : DeviceRendezvous) (ephemeralPubkey : String)
  /-- The map of the process, without a Redis -/
  | attach (id ephemeralPubkey : String)
  /-- The key of an entry expires. -/
  | expire (id : String)
  | elapse (ms : ℕ)
  /-- An `EXEC` or `UNWATCH` of other code on the connection -/
  | otherExec
  deriving DecidableEq

abbrev Command.Result : Command → Type
  | .get _ => Option Raw × ℕ
  | .exec _ _ _ => Bool
  | .attach _ _ => Option DeviceRendezvous
  | .watch _ | .unwatch | .expire _ | .elapse _ | .otherExec => Unit

/-- The entry with a key. -/
def withKey (entry : DeviceRendezvous) (ephemeralPubkey : String) : DeviceRendezvous :=
  { entry with ephemeralPubkey := some ephemeralPubkey }

namespace Redis

variable (s : Redis)

def set (id : String) (raw : Option Raw) : Redis :=
  { s with entries := fun k => if k = id then raw else s.entries k }

def release : Redis := { s with watched := [], dirty := false }

/-- A key is attached to an entry. -/
def put (id : String) (entry : DeviceRendezvous) (ephemeralPubkey : String) : Redis :=
  { s.set id (some (some (withKey entry ephemeralPubkey))) with
    attached := s.attached ++ [(id, ephemeralPubkey)] }

def answer : (q : Command) → q.Result × Redis
  | .watch id => ((), { s with watched := id :: s.watched })
  | .get id => ((s.entries id, s.now), s)
  | .unwatch => ((), s.release)
  | .exec id seen ephemeralPubkey =>
    if s.dirty then (false, s.release) else (true, (s.put id seen ephemeralPubkey).release)
  | .attach id ephemeralPubkey =>
    match s.entries id with
    | some (some entry) =>
      if entry.exp < s.now ∨ entry.ephemeralPubkey ≠ none then (none, s)
      else (some (withKey entry ephemeralPubkey), s.put id entry ephemeralPubkey)
    | _ => (none, s)
  | .expire id => ((), { s.set id none with dirty := s.dirty || decide (id ∈ s.watched) })
  | .elapse ms => ((), { s with now := s.now + ms })
  | .otherExec => ((), s.release)

end Redis

/-! ## Calls -/

/-- A call, or what else happens. -/
inductive Call
  | attach (id ephemeralPubkey : String)
  | other (command : Command)
  deriving DecidableEq

/-- What a call goes on to do, and returns: the entry that it wrote, or nothing. -/
abbrev Run := Program Command Command.Result (Option DeviceRendezvous)

def attempt (id ephemeralPubkey : String) : ℕ → Run
  | 0 => .done none
  | attempts + 1 =>
    .ask (.watch id) fun _ => .ask (.get id) fun (raw, now) =>
      match raw with
      | some (some p) =>
        if p.exp < now ∨ p.ephemeralPubkey ≠ none then .ask .unwatch fun _ => .done none
        else .ask (.exec id p ephemeralPubkey) fun result =>
          if result then .done (some (withKey p ephemeralPubkey))
          else attempt id ephemeralPubkey attempts
      | _ => .ask .unwatch fun _ => .done none

variable (redis : Bool)

def attachEphemeralPubkey (id ephemeralPubkey : String) : Run :=
  if redis then attempt id ephemeralPubkey 5 else .ask (.attach id ephemeralPubkey) .done

/-- What else happens: an expiry, the clock, a transaction of other code. -/
def other : Command → Run
  | .expire id => .ask (.expire id) fun _ => .done none
  | .elapse ms => .ask (.elapse ms) fun _ => .done none
  | .otherExec => .ask .otherExec fun _ => .done none
  | _ => .done none

def connection : Service Redis Command Command.Result Call (Option DeviceRendezvous) where
  answer := Redis.answer
  handle
    | .attach id ephemeralPubkey => attachEphemeralPubkey redis id ephemeralPubkey
    | .other q => other q

/-- The process has started: nothing is watched, and whatever entries there are. -/
def IsInitial (s : Redis) : Prop := s.watched = [] ∧ s.dirty = false ∧ s.attached = []

/-- The transaction fails, or no key was attached to the rendezvous yet. -/
def undisturbed (s : Redis) : Command → Bool
  | .exec id _ _ => s.dirty || id ∉ s.attached.map Prod.fst
  | _ => true

/-! ## The calls that succeed -/

/-- The key that a call has attached, if it returned an entry. -/
def win : Call × Option DeviceRendezvous → Option (String × String)
  | (.attach id ephemeralPubkey, some _) => some (id, ephemeralPubkey)
  | _ => none

/-- The entry has the key, unless it has expired. -/
def Redis.Stores (s : Redis) (id ephemeralPubkey : String) : Prop :=
  ∀ raw, s.entries id = some raw → raw.bind DeviceRendezvous.ephemeralPubkey = some ephemeralPubkey

/-- First write wins: of the calls on a rendezvous, one at most returned an entry, and the key
    that is stored is the one that it supplied. -/
def FirstWriteWins (s : Service.State Redis Command Command.Result Call
    (Option DeviceRendezvous)) : Prop :=
  ((s.replies.filterMap win).map Prod.fst).Nodup ∧
    ∀ w ∈ s.replies.filterMap win, s.store.Stores w.1 w.2

/-! ## The proof -/

/-- What a call asks, and how it goes on: only its transaction makes it return an entry. -/
def Call.Asks (a : Call) : (q : Command) → (q.Result → Run) → Prop
  | .exec id seen ephemeralPubkey, next => a = .attach id ephemeralPubkey ∧
      next true = .done (some (withKey seen ephemeralPubkey)) ∧ ∀ b, next false = .done b → b = none
  | .attach id ephemeralPubkey, next => a = .attach id ephemeralPubkey ∧ next = .done
  | _, next => ∀ r b, next r = .done b → b = none

theorem attempt_asks (id ephemeralPubkey : String) (attempts : ℕ) :
    (attempt id ephemeralPubkey attempts).Along (Call.attach id ephemeralPubkey).Asks := by
  have hdone : ∀ b : Option DeviceRendezvous, (Program.done none : Run) = .done b → b = none :=
    fun b h => (Program.done.inj h).symm
  have hunwatch : (Program.ask .unwatch fun _ => .done none : Run).Along
      (Call.attach id ephemeralPubkey).Asks := ⟨fun _ => hdone, fun _ => trivial⟩
  induction attempts with
  | zero => trivial
  | succ attempts ih =>
    refine ⟨fun _ b h => ?_, fun _ => ⟨fun r b h => ?_, fun r => ?_⟩⟩
    · cases h
    · -- The answer of a read leads to another statement.
      obtain ⟨_ | _ | p, now⟩ := r
      · cases h
      · cases h
      · dsimp only at h
        split at h <;> cases h
    · obtain ⟨_ | _ | p, now⟩ := r
      · exact hunwatch
      · exact hunwatch
      · dsimp only
        split
        · exact hunwatch
        · refine ⟨⟨rfl, rfl, fun b h => ?_⟩, fun result => ?_⟩
          · cases attempts with
            | zero => exact hdone b h
            | succ attempts => cases h
          · cases result with
            | true => trivial
            | false => exact ih

theorem handle_asks (a : Call) : ((connection redis).handle a).Along a.Asks := by
  have hdone : ∀ b : Option DeviceRendezvous, (Program.done none : Run) = .done b → b = none :=
    fun b h => (Program.done.inj h).symm
  cases a with
  | attach id ephemeralPubkey =>
    change (attachEphemeralPubkey redis id ephemeralPubkey).Along _
    rw [attachEphemeralPubkey]
    split
    · exact attempt_asks id ephemeralPubkey 5
    · exact ⟨⟨rfl, rfl⟩, fun _ => trivial⟩
  | other q =>
    cases q with
    | expire id => exact ⟨fun _ => hdone, fun _ => trivial⟩
    | elapse ms => exact ⟨fun _ => hdone, fun _ => trivial⟩
    | otherExec => exact ⟨fun _ => hdone, fun _ => trivial⟩
    | _ => trivial

theorem handle_none (a : Call) : ∀ b, (connection redis).handle a = .done b → b = none := by
  intro b h
  cases a with
  | attach id ephemeralPubkey =>
    change attachEphemeralPubkey redis id ephemeralPubkey = _ at h
    rw [attachEphemeralPubkey] at h
    split at h <;> cases h
  | other q =>
    change other q = _ at h
    cases q <;> cases h <;> rfl

theorem win_replyOf_none {a : Call} {p : Run} (h : ∀ b, p = .done b → b = none) :
    (Service.replyOf a p).filterMap win = [] := by
  cases p with
  | ask q next => rfl
  | done b =>
    rw [h b rfl]
    cases a <;> rfl

/-- What a statement attaches is what its call then returns. -/
theorem attached_answer (s : Redis) {a : Call} {q : Command} {next : q.Result → Run}
    (hasks : a.Asks q next) : (s.answer q).2.attached =
      s.attached ++ (Service.replyOf a (next (s.answer q).1)).filterMap win := by
  have hsame : ∀ (t : Redis) (r : q.Result), t.attached = s.attached →
      (∀ b, next r = .done b → b = none) →
        t.attached = s.attached ++ (Service.replyOf a (next r)).filterMap win := by
    intro t r ht hnone
    rw [win_replyOf_none hnone, List.append_nil, ht]
  cases q with
  | exec id seen ephemeralPubkey =>
    obtain ⟨rfl, htrue, hfalse⟩ := hasks
    rw [Redis.answer]
    split
    · exact hsame _ _ rfl hfalse
    · dsimp only
      rw [htrue]
      rfl
  | attach id ephemeralPubkey =>
    obtain ⟨rfl, rfl⟩ := hasks
    rw [Redis.answer]
    split
    · split
      · exact (List.append_nil _).symm
      · rfl
    · exact (List.append_nil _).symm
  | _ => exact hsame _ _ rfl (hasks _)

/-- The keys attached so far are those that calls returned with. -/
theorem attached_eq {init : Redis → Prop} (hinit : ∀ s, init s → s.attached = [])
    {s : Service.State Redis Command Command.Result Call (Option DeviceRendezvous)}
    (hs : ((connection redis).machine init).Reachable s) :
    s.store.attached = s.replies.filterMap win := by
  have horderly : ∀ (s : Service.State Redis Command Command.Result Call (Option DeviceRendezvous))
      (e : Service.Event Call), Service.Orderly (fun _ _ => True) (fun _ _ => True) s e := by
    intro s e
    cases e with
    | receive a => trivial
    | serve i => exact fun _ _ => trivial
  have hs' := Machine.Reachable.restrict horderly hs
  refine Service.invariant (I := fun store replies => store.attached = replies.filterMap win)
    (G := fun _ _ => True) (P := Call.Asks) hinit (fun _ _ _ _ => trivial) (handle_asks redis)
    ?_ ?_ hs'
  · intro s a _ h
    refine ⟨trivial, ?_⟩
    rw [List.filterMap_append, ← h, win_replyOf_none (handle_none redis a), List.append_nil]
  · intro store replies a q next _ hasks _ h
    rw [List.filterMap_append, ← h]
    exact attached_answer store hasks

/-- Each key was attached to a rendezvous of its own, whose entry has it. -/
def Redis.Kept (s : Redis) : Prop :=
  (s.attached.map Prod.fst).Nodup ∧ ∀ w ∈ s.attached, s.Stores w.1 w.2

theorem stores_set {s : Redis} {id : String} {raw : Option Raw} {w : String × String}
    (h : s.Stores w.1 w.2)
    (hraw : w.1 = id → ∀ r, raw = some r → r.bind DeviceRendezvous.ephemeralPubkey = some w.2) :
    (s.set id raw).Stores w.1 w.2 := by
  intro r hr
  by_cases hid : w.1 = id
  · exact hraw hid r ((if_pos hid).symm.trans hr)
  · exact h r ((if_neg hid).symm.trans hr)

/-- A key is attached to a rendezvous that had none. -/
theorem Redis.Kept.put {s : Redis} (h : s.Kept) {id : String} (entry : DeviceRendezvous)
    (ephemeralPubkey : String) (hid : id ∉ s.attached.map Prod.fst) :
    (s.put id entry ephemeralPubkey).Kept := by
  refine ⟨?_, fun w hw => ?_⟩
  · change ((s.attached ++ [(id, ephemeralPubkey)]).map Prod.fst).Nodup
    rw [List.map_append, List.nodup_append]
    refine ⟨h.1, List.nodup_singleton _, fun k hk k' hk' hkk => hid ?_⟩
    rw [hkk, List.mem_singleton.1 hk'] at hk
    exact hk
  · rcases List.mem_append.1 hw with hold | hnew
    · refine stores_set (h.2 w hold) fun hw => absurd (List.mem_map.2 ⟨w, hold, hw⟩) hid
    · obtain rfl := List.mem_singleton.1 hnew
      intro r hr
      obtain rfl := Option.some.inj ((if_pos rfl).symm.trans hr)
      rfl

theorem kept_answer {s : Redis} {q : Command} (hq : undisturbed s q) (h : s.Kept) :
    (s.answer q).2.Kept := by
  cases q with
  | exec id seen ephemeralPubkey =>
    rw [Redis.answer]
    split
    next => exact h
    next hdirty =>
      have hid : id ∉ s.attached.map Prod.fst := by
        simpa [undisturbed, hdirty] using hq
      exact h.put seen ephemeralPubkey hid
  | attach id ephemeralPubkey =>
    rw [Redis.answer]
    split
    next entry hentry =>
      split
      next => exact h
      next hnot =>
        refine h.put entry ephemeralPubkey fun hmem => ?_
        -- An entry that a key was attached to has it.
        obtain ⟨w, hw, rfl⟩ := List.mem_map.1 hmem
        have hkey : entry.ephemeralPubkey = some w.2 := h.2 w hw _ hentry
        exact hnot (.inr (by rw [hkey]; exact Option.some_ne_none _))
    next => exact h
  | expire id =>
    refine ⟨h.1, fun w hw => stores_set (h.2 w hw) fun _ r hr => ?_⟩
    exact absurd hr.symm (Option.some_ne_none r)
  | watch id => exact h
  | get id => exact h
  | unwatch => exact h
  | elapse ms => exact h
  | otherExec => exact h

/-- In the runs whose steps meet the condition, the keys that are attached are kept. -/
theorem kept_of_reachable
    {s : Service.State Redis Command Command.Result Call (Option DeviceRendezvous)}
    (hs : (((connection redis).machine IsInitial).restrict
      (Service.Orderly (fun _ _ => True) fun s q => undisturbed s q)).Reachable s) :
    s.store.Kept := by
  refine Service.invariant_store (fun s h => ?_) (fun s q => kept_answer) hs
  rw [Redis.Kept, h.2.2]
  exact ⟨List.nodup_nil, fun w hw => absurd hw List.not_mem_nil⟩

/-- The condition on the steps: a transaction fails, or no key was attached to its rendezvous
    yet. -/
abbrev Undisturbed : Service.State Redis Command Command.Result Call (Option DeviceRendezvous) →
    Service.Event Call → Prop :=
  Service.Orderly (fun _ _ => True) fun s q => undisturbed s q

/-- A transaction on a rendezvous that a key was attached to attaches another. -/
theorem not_firstWriteWins {s s' : Service.State Redis Command Command.Result Call
      (Option DeviceRendezvous)} {e : Service.Event Call}
    (hs : ((connection redis).machine IsInitial).Reachable s)
    (hstep : (connection redis).step s e = some s') (hnot : ¬ Undisturbed s e) :
    ¬ FirstWriteWins s' := by
  have hs' := hs.step hstep
  have hwins := attached_eq redis (fun s h => h.2.2) hs'
  rintro ⟨hnodup, -⟩
  rw [← hwins] at hnodup
  rcases Service.step_cases hstep with ⟨a, rfl, rfl⟩ | ⟨i, a, q, next, rfl, hget, rfl⟩
  · exact hnot trivial
  · refine hnot fun q' hq' => ?_
    rw [Service.State.waiting, hget, Option.mem_some_iff] at hq'
    obtain rfl := hq'
    rw [Service.goOn_store] at hnodup
    cases q with
    | exec id seen ephemeralPubkey =>
      rw [undisturbed, Bool.or_eq_true, decide_eq_true_eq]
      by_contra hbad
      rw [not_or, not_not, Bool.not_eq_true] at hbad
      change (((s.store.answer (.exec id seen ephemeralPubkey)).2.attached).map Prod.fst).Nodup
        at hnodup
      rw [Redis.answer, hbad.1] at hnodup
      change ((s.store.attached ++ [(id, ephemeralPubkey)]).map Prod.fst).Nodup at hnodup
      rw [List.map_append, List.nodup_append] at hnodup
      exact hnodup.2.2 id hbad.2 id (List.mem_singleton.2 rfl) rfl
    | _ => rfl

/-- **First write wins**, in the runs whose steps meet the condition; a step that does not
    breaks it. -/
theorem first_write_wins :
    (∀ s, (((connection redis).machine IsInitial).restrict Undisturbed).Reachable s →
      FirstWriteWins s) ∧
    ∀ s e s', ((connection redis).machine IsInitial).Reachable s →
      (connection redis).step s e = some s' → ¬ Undisturbed s e → ¬ FirstWriteWins s' := by
  refine ⟨fun s hs => ?_, fun s e s' => not_firstWriteWins redis⟩
  have hkept := kept_of_reachable redis hs
  rw [Redis.Kept, attached_eq redis (fun s h => h.2.2) hs.of_restrict] at hkept
  exact hkept

/-! ## A run -/

namespace Sample

def entry : DeviceRendezvous := ⟨none, "c", "d", none, none, 1000⟩

/-- Two rendezvous. -/
def start : Redis :=
  ⟨fun id => if id = "r" ∨ id = "t" then some (some entry) else none, [], false, 0, []⟩

/-- One call after the other has read the entry. -/
def race : List (Service.Event Call) :=
  [.receive (.attach "r" "a"), .receive (.attach "r" "b"), .serve 0, .serve 0, .serve 1, .serve 1,
    .serve 0, .serve 1]

/-- Calls on the two rendezvous, and one that comes late. -/
def inTurn : List (Service.Event Call) :=
  [.receive (.attach "r" "a"), .receive (.attach "t" "b"), .serve 0, .serve 0, .serve 1, .serve 1,
    .serve 0, .serve 1, .receive (.attach "r" "c"), .serve 2, .serve 2, .serve 2]

end Sample

/-- Both calls return an entry, and the key of the second is stored. -/
theorem second_write_wins : ∃ s, ((connection true).machine IsInitial).Reachable s ∧
    s.replies.filterMap win = [("r", "a"), ("r", "b")] ∧
    (s.store.entries "r").map (fun raw => raw.bind DeviceRendezvous.ephemeralPubkey) =
      some (some "b") ∧ ¬ FirstWriteWins s := by
  have hrun : (((connection true).machine IsInitial).run (.start Sample.start) Sample.race).any
    (fun s =>
      s.replies.filterMap win = [("r", "a"), ("r", "b")] ∧
      (s.store.entries "r").map (fun raw => raw.bind DeviceRendezvous.ephemeralPubkey) =
        some (some "b")) := by decide +kernel
  obtain ⟨s, hs, hwins⟩ := (Option.any_eq_true _ _).1 hrun
  obtain ⟨hwins, hentry⟩ := of_decide_eq_true hwins
  refine ⟨s, Machine.reachable_of_run hs ⟨Sample.start, ⟨rfl, rfl, rfl⟩, rfl⟩, hwins, hentry, ?_⟩
  rintro ⟨hnodup, -⟩
  rw [hwins] at hnodup
  exact absurd hnodup (by decide)

theorem first_write_wins_inTurn : ∃ s, FirstWriteWins s ∧
    s.replies.filterMap win = [("r", "a"), ("t", "b")] := by
  have hrun : ((((connection true).machine IsInitial).restrict Undisturbed).run
      (.start Sample.start) Sample.inTurn).any (fun s =>
        s.replies.filterMap win = [("r", "a"), ("t", "b")]) := by
    decide +kernel
  obtain ⟨s, hs, hwins⟩ := (Option.any_eq_true _ _).1 hrun
  exact ⟨s, (first_write_wins true).1 s
    (Machine.reachable_of_run hs ⟨Sample.start, ⟨rfl, rfl, rfl⟩, rfl⟩), of_decide_eq_true hwins⟩

end OneToThree.Devices.Connection
