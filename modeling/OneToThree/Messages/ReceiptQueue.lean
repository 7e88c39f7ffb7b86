import OneToThree.Lib.Machine
import OneToThree.Lib.Tasks

/-!
# Read receipts on their way

The hook that marks a message as read once its row is visible. The id goes into a queue, and a
timer that each row starts anew sends the queue in one request:

* a request of the timer puts its ids back into the queue if it fails, and starts no timer;
* a chat switch sends the queue at once, and forgets it whatever becomes of the request.

A receipt is not lost as long as it is `Covered`. That is so all along a run exactly if each
answer comes in time (`sent_again_iff`).
-/

namespace OneToThree.Messages.ReceiptQueue

/-- A row of the list, by what is rendered of its message. -/
structure Row where
  messageId : String
  senderId : String
  /-- Empty, if the message counts as unread. -/
  readAt : String

/-- A call of `markMessagesReadBatch`. -/
structure Request where
  ids : List String
  /-- Whether a failure puts the ids back into the queue. -/
  reinjects : Bool

/-- What the refs of the hook hold, and what became of the receipts. -/
structure Receipts where
  processed : List String
  syncQueue : List String
  /-- Whether the timer is running. -/
  dispatchTimer : Bool
  requests : Tasks Request
  /-- What was given to `updateReadAtOverride`. -/
  marked : List String
  /-- The ids of the requests that succeeded. -/
  accepted : List String

/-- A set keeps the order in which its elements were added. -/
def add (set : List String) (id : String) : List String := if id ∈ set then set else set ++ [id]

namespace Receipts

def start : Receipts := ⟨[], [], false, .empty, [], []⟩

variable (s : Receipts)

/-- The effect that a chat switch runs. -/
def resetPhase : Receipts :=
  { s with
    requests := if s.syncQueue = [] then s.requests else s.requests.spawn ⟨s.syncQueue, false⟩
    processed := []
    syncQueue := []
    dispatchTimer := false }

def triggerBatchSync : Receipts := { s with dispatchTimer := true }

/-- What the timer does. -/
def dispatch : Receipts :=
  if s.syncQueue = [] then { s with dispatchTimer := false }
  else
    { s with
      dispatchTimer := false
      syncQueue := []
      requests := s.requests.spawn ⟨s.syncQueue, true⟩ }

/-- A row comes into view. -/
def intersect (userId : String) (row : Row) : Receipts :=
  if row.messageId = "" ∨ row.messageId ∈ s.processed then s
  else if row.senderId = "" ∨ row.senderId = userId ∨ row.readAt ≠ "" then s
  else
    { s with
      processed := add s.processed row.messageId
      syncQueue := add s.syncQueue row.messageId
      marked := add s.marked row.messageId }.triggerBatchSync

def succeed (i : ℕ) (r : Request) : Receipts :=
  { s with requests := s.requests.finish i, accepted := r.ids.foldl add s.accepted }

def fail (i : ℕ) (r : Request) : Receipts :=
  { s with
    requests := s.requests.finish i
    syncQueue := if r.reinjects then r.ids.foldl add s.syncQueue else s.syncQueue }

end Receipts

inductive Event
  | visible (row : Row)
  | timer
  | chatSwitch
  | succeed (i : ℕ)
  | fail (i : ℕ)

def step (userId : String) (s : Receipts) : Event → Option Receipts
  | .visible row => some (s.intersect userId row)
  | .timer => if s.dispatchTimer then some s.dispatch else none
  | .chatSwitch => some s.resetPhase
  | .succeed i => (s.requests.get? i).map (s.succeed i)
  | .fail i => (s.requests.get? i).map (s.fail i)

/-- The hook, while it is mounted for the user `userId`. -/
def machine (userId : String) : Machine Receipts Event where
  init s := s = .start
  step := step userId

/-- A receipt that the server has not accepted is in the queue or on its way, and the queue is
    going to be sent. -/
structure Covered (s : Receipts) : Prop where
  held : ∀ id ∈ s.marked, id ∉ s.accepted →
    id ∈ s.syncQueue ∨ s.requests.Some fun r => id ∈ r.ids
  sending : s.syncQueue ≠ [] → s.dispatchTimer = true ∨ s.requests.Some fun _ => True

/-- Besides the request `i`, the timer is running or another request is on its way. -/
def sendsAgain (s : Receipts) (i : ℕ) : Bool :=
  s.dispatchTimer || (s.requests.finish i).any fun _ => true

/-- The id `id` is kept by something else than the request `i`. -/
def keptBeside (s : Receipts) (i : ℕ) (id : String) : Bool :=
  id ∈ s.accepted || id ∈ s.syncQueue || (s.requests.finish i).any fun r => id ∈ r.ids

/-- An answer comes in time: what is in the queue then is going to be sent, and what is dropped is
    kept elsewhere. -/
def inTime (s : Receipts) : Event → Bool
  | .succeed i => s.syncQueue = [] || sendsAgain s i
  | .fail i =>
    (s.requests.get? i).all fun r =>
      if r.reinjects then sendsAgain s i
      else (s.syncQueue = [] || sendsAgain s i) && r.ids.all (keptBeside s i)
  | .visible _ | .timer | .chatSwitch => true

/-! ## Steps -/

theorem mem_add {set : List String} {id id' : String} :
    id' ∈ add set id ↔ id' ∈ set ∨ id' = id := by
  rw [add]
  split_ifs with h
  · exact ⟨Or.inl, fun h' => h'.elim (fun h => h) fun heq => heq ▸ h⟩
  · rw [List.mem_append, List.mem_singleton]

theorem mem_foldl_add {set ids : List String} {id : String} :
    id ∈ ids.foldl add set ↔ id ∈ set ∨ id ∈ ids := by
  induction ids generalizing set with
  | nil => simp
  | cons a ids ih => rw [List.foldl_cons, ih, mem_add, List.mem_cons, or_assoc]

/-- Only what was marked is queued and sent, and no request is empty. -/
structure Sound (s : Receipts) : Prop where
  queue : ∀ id ∈ s.syncQueue, id ∈ s.marked
  requests : s.requests.Every fun r => r.ids ≠ [] ∧ ∀ id ∈ r.ids, id ∈ s.marked

theorem sound_start : Sound .start := ⟨fun _ h => absurd h List.not_mem_nil, .empty⟩

section
variable {userId : String} {s t : Receipts}

theorem Sound.spawn (hs : Sound s) (hne : s.syncQueue ≠ []) (reinjects : Bool) :
    (s.requests.spawn ⟨s.syncQueue, reinjects⟩).Every
      fun r => r.ids ≠ [] ∧ ∀ id ∈ r.ids, id ∈ s.marked :=
  hs.requests.spawn ⟨hne, hs.queue⟩

theorem Sound.step {e : Event} (hs : Sound s) (h : step userId s e = some t) : Sound t := by
  cases e with
  | visible row =>
    obtain rfl := Option.some.inj h
    rw [Receipts.intersect]
    split_ifs
    · exact hs
    · exact hs
    · refine ⟨fun id hid => ?_, hs.requests.imp fun r hr => ⟨hr.1, fun id hid => ?_⟩⟩
      · exact mem_add.2 ((mem_add.1 hid).imp_left (hs.queue id))
      · exact mem_add.2 (.inl (hr.2 id hid))
  | timer =>
    obtain ⟨-, h⟩ := Option.ite_none_right_eq_some.1 h
    obtain rfl := Option.some.inj h
    rw [Receipts.dispatch]
    split_ifs with hnil
    · exact ⟨hs.queue, hs.requests⟩
    · exact ⟨fun _ h => absurd h List.not_mem_nil, hs.spawn hnil true⟩
  | chatSwitch =>
    obtain rfl := Option.some.inj h
    refine ⟨fun _ h => absurd h List.not_mem_nil, ?_⟩
    change Tasks.Every _ (if s.syncQueue = [] then _ else _)
    split_ifs with hnil
    · exact hs.requests
    · exact hs.spawn hnil false
  | succeed i =>
    obtain ⟨r, -, rfl⟩ := Option.map_eq_some_iff.1 h
    exact ⟨hs.queue, hs.requests.finish⟩
  | fail i =>
    obtain ⟨r, hr, rfl⟩ := Option.map_eq_some_iff.1 h
    refine ⟨fun id hid => ?_, hs.requests.finish⟩
    change id ∈ (if r.reinjects then _ else _) at hid
    split_ifs at hid
    · exact (mem_foldl_add.1 hid).elim (hs.queue id) ((hs.requests i r hr).2 id)
    · exact hs.queue id hid

theorem sendsAgain_iff {i : ℕ} : sendsAgain s i = true ↔
    s.dispatchTimer = true ∨ (s.requests.finish i).Some fun _ => True := by
  simp [sendsAgain, Tasks.any_iff]

theorem keptBeside_iff {i : ℕ} {id : String} : keptBeside s i id = true ↔
    id ∈ s.accepted ∨ id ∈ s.syncQueue ∨ (s.requests.finish i).Some fun r => id ∈ r.ids := by
  simp [keptBeside, Tasks.any_iff, or_assoc]

theorem Covered.intersect (hc : Covered s) (row : Row) : Covered (s.intersect userId row) := by
  rw [Receipts.intersect]
  split_ifs
  · exact hc
  · exact hc
  · refine ⟨fun id hid hnot => ?_, fun _ => .inl rfl⟩
    rcases mem_add.1 hid with hid | rfl
    · exact (hc.held id hid hnot).imp_left fun h => mem_add.2 (.inl h)
    · exact .inl (mem_add.2 (.inr rfl))

/-- A queue that is sent leaves its ids in the request. -/
theorem Covered.spawn (hc : Covered s) (reinjects : Bool) :
    ∀ id ∈ s.marked, id ∉ s.accepted →
      id ∈ [] ∨ (s.requests.spawn ⟨s.syncQueue, reinjects⟩).Some fun r => id ∈ r.ids := by
  intro id hid hnot
  rcases hc.held id hid hnot with h | h
  · exact .inr ⟨s.requests.received, ⟨s.syncQueue, reinjects⟩,
      by rw [Tasks.get?_spawn, if_pos rfl], h⟩
  · exact .inr h.spawn

theorem Covered.dispatch (hc : Covered s) : Covered s.dispatch := by
  rw [Receipts.dispatch]
  split_ifs with hnil
  · exact ⟨hc.held, fun hne => absurd hnil hne⟩
  · exact ⟨hc.spawn true, fun hne => absurd rfl hne⟩

theorem Covered.resetPhase (hc : Covered s) : Covered s.resetPhase := by
  refine ⟨?_, fun hne => absurd rfl hne⟩
  simp only [Receipts.resetPhase]
  split_ifs with hnil
  · intro id hid hnot
    exact hnil ▸ hc.held id hid hnot
  · exact hc.spawn false

/-- What the other requests hold. -/
theorem some_finish {i : ℕ} {r : Request} {id : String} (hr : s.requests.get? i = some r)
    (h : s.requests.Some fun r => id ∈ r.ids) :
    id ∈ r.ids ∨ (s.requests.finish i).Some fun r => id ∈ r.ids := by
  by_cases hid : id ∈ r.ids
  · exact .inl hid
  · exact .inr (h.finish hr hid)

theorem covered_succeed_iff {i : ℕ} {r : Request} (hc : Covered s)
    (hr : s.requests.get? i = some r) :
    Covered (s.succeed i r) ↔ inTime s (.succeed i) = true := by
  have hiff : inTime s (.succeed i) = true ↔
      (s.syncQueue ≠ [] → s.dispatchTimer = true ∨ (s.requests.finish i).Some fun _ => True) := by
    rw [inTime, Bool.or_eq_true, decide_eq_true_eq, sendsAgain_iff, or_iff_not_imp_left]
  rw [hiff]
  refine ⟨Covered.sending, fun hsending => ⟨fun id hid hnot => ?_, hsending⟩⟩
  have hnot' : id ∉ s.accepted ∧ id ∉ r.ids := not_or.1 fun h => hnot (mem_foldl_add.2 h)
  exact (hc.held id hid hnot'.1).imp_right fun h => (some_finish hr h).resolve_left hnot'.2

theorem covered_fail_iff {i : ℕ} {r : Request} (hs : Sound s) (hc : Covered s)
    (hr : s.requests.get? i = some r) :
    Covered (s.fail i r) ↔ inTime s (.fail i) = true := by
  have hids := hs.requests i r hr
  rw [inTime, hr, Option.all_some]
  by_cases hback : r.reinjects
  · -- The ids are in the queue again, which has to be sent.
    have hqueue : (s.fail i r).syncQueue = r.ids.foldl add s.syncQueue := if_pos hback
    have hne : (s.fail i r).syncQueue ≠ [] := by
      obtain ⟨id, hid⟩ := List.exists_mem_of_ne_nil r.ids hids.1
      exact hqueue ▸ List.ne_nil_of_mem (mem_foldl_add.2 (.inr hid))
    rw [if_pos hback, sendsAgain_iff]
    refine ⟨fun h => h.sending hne, fun h => ⟨fun id hid hnot => ?_, fun _ => h⟩⟩
    rw [hqueue, mem_foldl_add]
    rcases hc.held id hid hnot with h | h
    · exact .inl (.inl h)
    · exact (some_finish hr h).imp_left .inr
  · have hqueue : (s.fail i r).syncQueue = s.syncQueue := if_neg hback
    rw [if_neg hback, Bool.and_eq_true, Bool.or_eq_true, decide_eq_true_eq, sendsAgain_iff,
      List.all_eq_true, or_iff_not_imp_left]
    constructor
    · intro h
      refine ⟨fun hne => h.sending (hqueue ▸ hne), fun id hid => keptBeside_iff.2 ?_⟩
      by_cases hacc : id ∈ s.accepted
      · exact .inl hacc
      · exact .inr (hqueue ▸ h.held id (hids.2 id hid) hacc)
    · rintro ⟨hsending, hkept⟩
      refine ⟨fun id hid hnot => ?_, fun hne => hsending (hqueue ▸ hne)⟩
      rw [hqueue]
      rcases hc.held id hid hnot with h | h
      · exact .inl h
      · rcases some_finish hr h with h | h
        · exact (keptBeside_iff.1 (hkept id h)).resolve_left hnot
        · exact .inr h

/-- A step leaves the receipts covered exactly if an answer comes in time. -/
theorem covered_step_iff {e : Event} (hs : Sound s) (hc : Covered s)
    (h : step userId s e = some t) : Covered t ↔ inTime s e = true := by
  cases e with
  | visible row => exact Option.some.inj h ▸ iff_of_true (hc.intersect row) rfl
  | timer =>
    obtain ⟨-, h⟩ := Option.ite_none_right_eq_some.1 h
    exact Option.some.inj h ▸ iff_of_true hc.dispatch rfl
  | chatSwitch => exact Option.some.inj h ▸ iff_of_true hc.resetPhase rfl
  | succeed i =>
    obtain ⟨r, hr, rfl⟩ := Option.map_eq_some_iff.1 h
    exact covered_succeed_iff hc hr
  | fail i =>
    obtain ⟨r, hr, rfl⟩ := Option.map_eq_some_iff.1 h
    exact covered_fail_iff hs hc hr

theorem covered_start : Covered .start :=
  ⟨fun _ h => absurd h List.not_mem_nil, fun h => absurd rfl h⟩

/-- No receipt is lost all along a run exactly if each answer comes in time. -/
theorem sent_again_iff {es : List Event} (h : (machine userId).run .start es = some t) :
    (∀ es₁ es₂, es = es₁ ++ es₂ → ∀ u, (machine userId).run .start es₁ = some u → Covered u) ↔
      ((machine userId).restrict fun s e => inTime s e = true).run .start es = some t :=
  Machine.run_always_iff (J := Sound) (I := Covered) (fun _ _ _ hs hstep => hs.step hstep)
    (fun _ _ _ hs hc hstep => covered_step_iff hs hc hstep) sound_start covered_start h

end

namespace Sample

/-- An unread message of the peer. -/
def row (messageId : String) : Row := ⟨messageId, "peer", ""⟩

/-- The request fails while another row is waiting for the timer. -/
def retried : List Event :=
  [.visible (row "m1"), .timer, .visible (row "m2"), .fail 0, .timer, .succeed 1]

/-- What is queued, whether the timer is running, how many requests there were, and what was
    accepted. -/
def view (s : Receipts) : List String × Bool × ℕ × List String :=
  (s.syncQueue, s.dispatchTimer, s.requests.received, s.accepted)

end Sample

theorem sent_again_iff_retried : ∃ t, (machine "me").run .start Sample.retried = some t ∧
    t.accepted = ["m2", "m1"] ∧ Covered t := by
  have hview : (((machine "me").restrict fun s e => inTime s e = true).run .start
      Sample.retried).map Sample.view = some ([], false, 2, ["m2", "m1"]) := by decide
  obtain ⟨t, hok, hview⟩ := Option.map_eq_some_iff.1 hview
  have ht := Machine.run_of_restrict hok
  exact ⟨t, ht, (Prod.mk.inj (Prod.mk.inj (Prod.mk.inj hview).2).2).2,
    (sent_again_iff ht).2 hok _ [] (List.append_nil _).symm t ht⟩

/-- A batch fails, and nothing sends it again; a batch of a chat switch fails and is forgotten. -/
theorem receipt_stranded :
    (∃ t, (machine "me").run .start [.visible (Sample.row "m1"), .timer, .fail 0] = some t ∧
      t.syncQueue = ["m1"] ∧ ¬Covered t) ∧
    ∃ t, (machine "me").run .start [.visible (Sample.row "m1"), .chatSwitch, .fail 0] = some t ∧
      t.syncQueue = [] ∧ ¬Covered t := by
  have hidle : ∀ {t : Receipts}, (t.requests.any fun _ => true) = false → ∀ P, ¬t.requests.Some P :=
    fun hany P h => Bool.false_ne_true (hany.symm.trans (Tasks.any_iff.2 (h.imp fun _ _ => rfl)))
  constructor
  · have hend : ((machine "me").run .start [.visible (Sample.row "m1"), .timer, .fail 0]).map
        (fun t => (t.syncQueue, t.dispatchTimer, t.requests.any fun _ => true)) =
          some (["m1"], false, false) := by decide
    obtain ⟨t, ht, hend⟩ := Option.map_eq_some_iff.1 hend
    obtain ⟨hqueue, hend⟩ := Prod.mk.inj hend
    obtain ⟨htimer, hany⟩ := Prod.mk.inj hend
    refine ⟨t, ht, hqueue, fun hc => ?_⟩
    rcases hc.sending (by rw [hqueue]; exact List.cons_ne_nil _ _) with h | h
    · exact Bool.false_ne_true (htimer.symm.trans h)
    · exact hidle hany _ h
  · have hend : ((machine "me").run .start [.visible (Sample.row "m1"), .chatSwitch, .fail 0]).map
        (fun t => (t.syncQueue, t.marked, t.accepted, t.requests.any fun _ => true)) =
          some ([], ["m1"], [], false) := by decide
    obtain ⟨t, ht, hend⟩ := Option.map_eq_some_iff.1 hend
    obtain ⟨hqueue, hend⟩ := Prod.mk.inj hend
    obtain ⟨hmarked, hend⟩ := Prod.mk.inj hend
    obtain ⟨haccepted, hany⟩ := Prod.mk.inj hend
    refine ⟨t, ht, hqueue, fun hc => ?_⟩
    rcases hc.held "m1" (by simp [hmarked]) (by simp [haccepted]) with h | h
    · rw [hqueue] at h
      exact List.not_mem_nil h
    · exact hidle hany _ h

end OneToThree.Messages.ReceiptQueue
