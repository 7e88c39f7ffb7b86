import OneToThree.Call.Rooms
import OneToThree.Lib.Outline

/-!
# Who is in a room

A participant has a record in the hash of the room, and the room in his own index. A join writes
both after it has looked for the record, a leave deletes both and then the hash of a room that it
has read empty, and an update writes back a record that it has read.

* An update may write back the record of a user who has left meanwhile (`left_and_back`), or one
  without the change of another update.
* The deletion of a room that was read empty may take a user with it who has joined meanwhile.
* A join and a leave of a user that overlap may leave the hash and the index different.

`membership_of_run`: along a run without these (`InTurn`), the records are what the joins, updates
and leaves make of them one after the other, and when no call is in flight, the hash, the index
and the completed calls agree on who is in a room.
-/

namespace OneToThree.CallRooms

open Service

abbrev RoomState := Service.State Redis Command Command.Result RoomCall RoomResult

/-- What the calls have done, one after the other. -/
structure Membership where
  /-- The record that each participant is meant to have: that of his join, with the changes of
      each update since, until he is removed. -/
  meant : InsMap (RoomId × UserId) GroupCallParticipant
  /-- The record that each call has read. -/
  reads : InsMap ℕ GroupCallParticipant
  /-- Who has completed a join of a room, and no leave of it since. -/
  joined : List (RoomId × UserId)

/-- The record that a command is meant to leave to a participant. -/
def meantAfter (a : RoomCall) (q : Command)
    (meant : InsMap (RoomId × UserId) GroupCallParticipant) :
    InsMap (RoomId × UserId) GroupCallParticipant :=
  match q with
  | .hset roomId userId participant =>
    match a with
    | .updateParticipantState _ _ patch =>
      match meant.get? (roomId, userId) with
      | some x => meant.set (roomId, userId) (patch.apply x)
      | none => meant
    | _ => meant.set (roomId, userId) participant
  | .hdel roomId userId => meant.delete (roomId, userId)
  | _ => meant

/-- A call is completed. -/
def completed (joined : List (RoomId × UserId)) : RoomCall → List (RoomId × UserId)
  | .joinRoom roomId userId _ => (roomId, userId) :: joined
  | .leaveRoom roomId userId => joined.filter (· ≠ (roomId, userId))
  | .leaveAllRooms userId => joined.filter (·.2 ≠ userId)
  | .updateParticipantState _ _ _ | .elapse _ => joined

def membership : History Redis Command Command.Result RoomCall RoomResult Membership where
  start := ⟨∅, ∅, []⟩
  receive _ _ h := h
  serve s i a q prog h :=
    { meant := meantAfter a q h.meant
      reads :=
        match q with
        | .hget roomId userId => ((s.store.room roomId).get? userId).elim h.reads (h.reads.set i)
        | _ => h.reads
      joined :=
        match prog with
        | .done _ => completed h.joined a
        | .ask _ _ => h.joined }

/-- The call has begun, as it waits for the command: its first one was served. -/
def RoomCall.begun : RoomCall → Command → Bool
  | .joinRoom _ _ _, .hget _ _ | .leaveRoom _ _, .hdel _ _ | .leaveAllRooms _, .smembers _ => false
  | _, _ => true

/-- The call joins the user to the room. -/
def RoomCall.joins (roomId : RoomId) (userId : UserId) : RoomCall → Bool
  | .joinRoom roomId' userId' _ => roomId' = roomId ∧ userId' = userId
  | _ => false

/-- The call takes the user out of the room. -/
def RoomCall.leaves (roomId : RoomId) (userId : UserId) : RoomCall → Bool
  | .leaveRoom roomId' userId' => roomId' = roomId ∧ userId' = userId
  | .leaveAllRooms userId' => userId' = userId
  | _ => false

/-- One of the calls joins a user to a room that the other one takes him out of. -/
def RoomCall.against : RoomCall → RoomCall → Bool
  | .joinRoom roomId userId _, b => b.leaves roomId userId
  | a, .joinRoom roomId userId _ => a.leaves roomId userId
  | _, _ => false

def RoomCall.updates : RoomCall → Bool
  | .updateParticipantState _ _ _ => true
  | _ => false

/-- The steps of calls that are in turn: while a join goes on, no leave of the same user and room
    does; an update writes back a record that is still as it was read; and only a room that has
    nobody is deleted. -/
def InTurn (p : RoomState × Membership) (i : ℕ) (a : RoomCall) (q : Command) : Prop :=
  (∀ j ∈ p.1.tasks.keys, j ≠ i → ∀ x ∈ p.1.asking j, a.against x.1 = true → x.1.begun x.2 = false) ∧
  match q with
  | .hset roomId userId _ => a.updates = true →
    (p.1.store.room roomId).get? userId = p.2.reads.get? i
  | .delRoom roomId => (p.1.store.room roomId).size = 0
  | _ => True

instance (p : RoomState × Membership) (i : ℕ) (a : RoomCall) : ∀ q, Decidable (InTurn p i a q)
  | .hset _ _ _ => inferInstanceAs (Decidable (_ ∧ (_ → _)))
  | .delRoom _ => inferInstanceAs (Decidable (_ ∧ _ = _))
  | .hget _ _ | .hdel _ _ | .hgetall _ | .hexists _ _ | .expireRoom _ | .sadd _ _ | .srem _ _
  | .smembers _ | .delUserRooms _ | .expireUserRooms _ | .getSession _ | .setSession _ _ _
  | .delSession _ | .randomUUID | .dateNow | .saveKnock | .elapse _ =>
    inferInstanceAs (Decidable (_ ∧ True))

/-! ## What a call does -/

/-- What is known along the calls: the commands of each are on its own user and room, and what
    they lead to. -/
def Leads (a : RoomCall) : (q : Command) → (q.Result → Procedure RoomResult) → Prop
  | .hget r u, next => (∃ n, a = .joinRoom r u n ∧
      ∀ x, ¬(next (some x)).Asks (· = .sadd u r)) ∨ ∃ patch, a = .updateParticipantState r u patch
  | .hset r u _, next => (∃ n, a = .joinRoom r u n ∧ (next ()).Asks (· = .sadd u r)) ∨
      ∃ patch, a = .updateParticipantState r u patch
  | .sadd u r, _ => ∃ n, a = .joinRoom r u n
  | .hdel r u, next => (a = .leaveRoom r u ∨ a = .leaveAllRooms u) ∧ (next ()).Asks (· = .srem u r)
  | .srem u r, _ => a = .leaveRoom r u ∨ a = .leaveAllRooms u
  | .smembers u, next => a = .leaveAllRooms u ∧ ∀ rooms, (next rooms).Asks (fun _ => True) ∧
      ∀ r ∈ rooms, (next rooms).Asks (· = .hdel r u)
  | .delUserRooms u, _ => a = .leaveAllRooms u
  | _, _ => True

/-- A join is about to end only when the record is there, and a leave that has begun when it is
    not; an update writes the record that it has read, with its change. -/
def preRecord : Annotation Redis Command Command.Result RoomCall RoomResult Membership :=
  fun i a q _ s h =>
    match a with
    | .joinRoom r u _ =>
      match q with
      | .hget _ _ | .dateNow | .hset _ _ _ => True
      | _ => (s.room r).has u = true
    | .leaveRoom r u => q ≠ .hdel r u → (s.room r).has u = false
    | .updateParticipantState _ _ patch =>
      match q with
      | .hset _ _ x => ∃ old, h.reads.get? i = some old ∧ x = patch.apply old
      | _ => True
    | _ => True

def postRecord (_ : ℕ) (a : RoomCall) (_ : RoomResult) (s : Redis) (_ : Membership) : Prop :=
  match a with
  | .joinRoom r u _ => (s.room r).has u = true
  | .leaveRoom r u => (s.room r).has u = false
  | _ => True

/-- The records are as they are meant. -/
def AsMeant (s : Redis) (h : Membership) : Prop :=
  ∀ r u, (s.room r).get? u = h.meant.get? (r, u)

abbrev KeepsRecords (a : RoomCall) (q : Command) (next : q.Result → Procedure RoomResult) : Prop :=
  Leads a q next ∧ rooms.Local membership InTurn AsMeant preRecord postRecord a q next

/-! ## Along the calls -/

theorem has_of_get? {s : Redis} {r : RoomId} {u : UserId} {x : GroupCallParticipant}
    (h : (s.room r).get? u = some x) : (s.room r).has u = true := by
  rw [InsMap.has, h]
  rfl

theorem not_asks_refresh (r : RoomId) (u : UserId) :
    ¬(refresh r u >>= fun l => .done (.participants l) : Procedure RoomResult).Asks
      (· = .sadd u r) := by
  simp [refresh, getRoomParticipants]

theorem keeps_refresh {r : RoomId} {u : UserId} {n : String} :
    (refresh r u >>= fun l => .done (.participants l)).Along (KeepsRecords (.joinRoom r u n)) := by
  refine ⟨⟨trivial, fun p i _ s h _ _ hpre => ?_⟩, fun _ => ⟨⟨trivial, fun p i _ s h _ _ hpre => ?_⟩,
    fun _ => ⟨⟨trivial, fun p i l s h _ _ hpre => ?_⟩, fun _ => trivial⟩⟩⟩
  all_goals
    obtain rfl : p.1.store = s := congrArg Prod.snd h
    exact hpre

theorem keeps_joinRoom (r : RoomId) (u : UserId) (n : String) :
    (callRoom (.joinRoom r u n)).Along (KeepsRecords (.joinRoom r u n)) := by
  refine ⟨⟨.inl ⟨n, rfl, fun _ => not_asks_refresh r u⟩, fun p i known s h _ _ _ => ?_⟩,
    fun known => ?_⟩
  · cases known with
    | none => trivial
    | some x =>
      obtain rfl : p.1.store = s := congrArg Prod.snd h
      exact has_of_get? (congrArg Prod.fst h)
  cases known with
  | some x => exact keeps_refresh
  | none =>
    refine ⟨⟨trivial, fun _ _ _ _ _ _ _ _ => trivial⟩, fun joinedAt => ⟨⟨.inl ⟨n, rfl, .inl rfl⟩,
      fun p i _ s h _ _ _ => ?_⟩, fun _ => ⟨⟨⟨n, rfl⟩, fun p i _ s h _ _ hpre => ?_⟩,
      fun _ => keeps_refresh⟩⟩⟩
    · obtain rfl := congrArg Prod.snd h
      refine has_of_get? (x := ⟨u, n, joinedAt, false, false⟩) ?_
      change ((p.1.store.setRoom r _).room r).get? u = _
      rw [Redis.room_setRoom, if_pos rfl, InsMap.get?_set_self]
    · obtain rfl := congrArg Prod.snd h
      exact hpre

theorem keeps_leaveRoom (r : RoomId) (u : UserId) :
    (callRoom (.leaveRoom r u)).Along (KeepsRecords (.leaveRoom r u)) := by
  refine ⟨⟨⟨.inl rfl, .inl rfl⟩, fun p i _ s h _ _ _ _ => ?_⟩, fun _ => ⟨⟨.inl rfl,
    fun p i _ s h _ _ hpre _ => ?_⟩, fun _ => ⟨⟨trivial, fun p i remaining s h _ _ hpre => ?_⟩,
    fun remaining => ?_⟩⟩⟩
  · obtain rfl := congrArg Prod.snd h
    change ((p.1.store.setRoom r _).room r).has u = false
    rw [Redis.room_setRoom, if_pos rfl, InsMap.has_eq_false, InsMap.get?_delete_self]
  · obtain rfl := congrArg Prod.snd h
    exact hpre (by simp)
  · obtain rfl : p.1.store = s := congrArg Prod.snd h
    have hleft : (p.1.store.room r).has u = false := hpre (by simp)
    change Asserted _ _ _ _ _ _ ((if remaining = [] then _ else _) >>= _)
    split_ifs
    · exact fun _ => hleft
    · exact hleft
  · change Program.Along _ ((if remaining = [] then _ else _) >>= _)
    split_ifs
    · refine ⟨⟨trivial, fun p i _ s h _ _ _ => ?_⟩, fun _ => trivial⟩
      obtain rfl := congrArg Prod.snd h
      change ((p.1.store.setRoom r ∅).room r).has u = false
      rw [Redis.room_setRoom, if_pos rfl, InsMap.has_empty]
    · trivial

theorem keeps_updateParticipantState (r : RoomId) (u : UserId) (patch : Patch) :
    (callRoom (.updateParticipantState r u patch)).Along
      (KeepsRecords (.updateParticipantState r u patch)) := by
  refine ⟨⟨.inr ⟨patch, rfl⟩, fun p i known s h _ _ _ => ?_⟩, fun known => ?_⟩
  · cases known with
    | none => trivial
    | some x =>
      refine ⟨x, ?_, rfl⟩
      have hget : (p.1.store.room r).get? u = some x := congrArg Prod.fst h
      change (((p.1.store.room r).get? u).elim p.2.reads (p.2.reads.set i)).get? i = some x
      rw [hget]
      exact InsMap.get?_set_self _ _ _
  cases known with
  | none => trivial
  | some x =>
    exact ⟨⟨.inr ⟨patch, rfl⟩, fun _ _ _ _ _ _ _ _ => trivial⟩, fun _ =>
      ⟨⟨trivial, fun _ _ _ _ _ _ _ _ => trivial⟩, fun _ => trivial⟩⟩

/-- The loop of a `leaveAllRooms`, of which nothing is known but where it leads. -/
theorem keeps_leaveEach (u : UserId) (roomIds : List RoomId)
    (results : List (RoomId × List GroupCallParticipant)) :
    (leaveEach u results roomIds >>= fun l => .done (.left l)).Along
      (KeepsRecords (.leaveAllRooms u)) := by
  have hlocal : ∀ q next, rooms.Local membership InTurn AsMeant preRecord postRecord
      (.leaveAllRooms u) q next := fun q next p i r s _ _ _ _ => by
    cases next r <;> trivial
  induction roomIds generalizing results with
  | nil => trivial
  | cons r roomIds ih =>
    rw [leaveEach, Program.bind_assoc]
    refine ⟨⟨⟨.inr rfl, .inl rfl⟩, hlocal _ _⟩, fun _ => ⟨⟨.inr rfl, hlocal _ _⟩, fun _ =>
      ⟨⟨trivial, hlocal _ _⟩, fun remaining => ?_⟩⟩⟩
    change Program.Along _ ((if remaining = [] then _ else _) >>= _)
    split_ifs
    · exact ⟨⟨trivial, hlocal _ _⟩, fun _ => ih _⟩
    · exact ih _

theorem leaveEach_asks {r : RoomId} {u : UserId} {roomIds : List RoomId} (hr : r ∈ roomIds)
    (results : List (RoomId × List GroupCallParticipant)) :
    (leaveEach u results roomIds).Asks (· = .hdel r u) := by
  induction roomIds generalizing results with
  | nil => exact absurd hr List.not_mem_nil
  | cons r' roomIds ih =>
    rcases List.mem_cons.1 hr with rfl | hr
    · exact .inl rfl
    · exact Program.Asks.bind_right fun remaining => ih hr _

theorem keeps_callRoom (a : RoomCall) : (callRoom a).Along (KeepsRecords a) := by
  cases a with
  | joinRoom r u n => exact keeps_joinRoom r u n
  | leaveRoom r u => exact keeps_leaveRoom r u
  | leaveAllRooms u =>
    refine ⟨⟨⟨rfl, fun roomIds => ⟨.inl trivial, fun r hr => .inr fun _ => ?_⟩⟩,
      fun _ _ _ _ _ _ _ _ => trivial⟩, fun roomIds => ⟨⟨rfl, fun p i _ s _ _ _ _ => ?_⟩,
      fun _ => keeps_leaveEach u roomIds []⟩⟩
    · exact (leaveEach_asks hr []).bind_left
    · change Asserted _ _ _ _ _ _ (leaveEach u [] roomIds >>= _)
      cases roomIds <;> trivial
  | updateParticipantState r u patch => exact keeps_updateParticipantState r u patch
  | elapse ms => exact ⟨⟨trivial, fun _ _ _ _ _ _ _ _ => trivial⟩, fun _ => trivial⟩

/-! ## The records -/

section
variable {s : Redis} {q : Command} {r : RoomId} {u : UserId}

/-- A user stays in a room until he is removed, or the room is. -/
theorem has_answer (h : (s.room r).has u = true) (hdel : q ≠ .hdel r u) (hroom : q ≠ .delRoom r) :
    ((s.answer q).2.room r).has u = true := by
  cases q with
  | hset r' u' x =>
    rw [Redis.answer, Redis.room_setRoom]
    split_ifs with hr
    · subst hr
      rw [InsMap.has_set, h, Bool.or_true]
    · exact h
  | hdel r' u' =>
    rw [Redis.answer, Redis.room_setRoom]
    split_ifs with hr
    · subst hr
      rw [InsMap.has, InsMap.get?_delete_ne _ fun hu : u = u' => hdel (by rw [hu])]
      exact h
    · exact h
  | delRoom r' =>
    rw [Redis.answer, Redis.room_setRoom, if_neg fun hr : r = r' => hroom (by rw [hr])]
    exact h
  | _ => exact h

/-- Nobody comes into a room unless his record is written. -/
theorem has_of_answer (h : ((s.answer q).2.room r).has u = true) (hset : ∀ x, q ≠ .hset r u x) :
    (s.room r).has u = true := by
  cases q with
  | hset r' u' x =>
    rw [Redis.answer, Redis.room_setRoom] at h
    split_ifs at h with hr
    · subst hr
      rw [InsMap.has, InsMap.get?_set_ne _ _ fun hu : u = u' => hset x (by rw [hu])] at h
      exact h
    · exact h
  | hdel r' u' =>
    rw [Redis.answer, Redis.room_setRoom] at h
    split_ifs at h with hr
    · subst hr
      rw [InsMap.has, InsMap.get?_delete] at h
      split_ifs at h
      · cases h
      · exact h
    · exact h
  | delRoom r' =>
    rw [Redis.answer, Redis.room_setRoom] at h
    split_ifs at h
    · cases h
    · exact h
  | _ => exact h

theorem has_eq_false_of_size (h : (s.room r).size = 0) : (s.room r).has u = false := by
  rw [InsMap.has_eq_false, ← Option.not_isSome_iff_eq_none, ← InsMap.mem_keys, InsMap.keys,
    List.length_eq_zero_iff.1 h]
  exact List.not_mem_nil

end

section
variable {p : RoomState × Membership} {i : ℕ} {a : RoomCall} {q : Command}
  {next : q.Result → Procedure RoomResult}

/-- A record is written as it is meant. -/
theorem meantAfter_hset {r : RoomId} {u : UserId} {x : GroupCallParticipant}
    {next : Unit → Procedure RoomResult} (h : AsMeant p.1.store p.2)
    (hleads : Leads a (.hset r u x) next) (hok : InTurn p i a (.hset r u x))
    (hpre : preRecord i a (.hset r u x) next p.1.store p.2) :
    meantAfter a (.hset r u x) p.2.meant = p.2.meant.set (r, u) x := by
  rcases hleads with ⟨n, rfl, -⟩ | ⟨patch, rfl⟩
  · rfl
  · obtain ⟨old, hold, rfl⟩ := hpre
    have hmeant : p.2.meant.get? (r, u) = some old := by
      rw [← h r u, hok.2 rfl, hold]
    simp only [meantAfter, hmeant]

theorem AsMeant.served (h : AsMeant p.1.store p.2) (hleads : Leads a q next)
    (hok : InTurn p i a q) (hpre : preRecord i a q next p.1.store p.2) (prog : Procedure RoomResult) :
    AsMeant (p.1.store.answer q).2 (membership.serve p.1 i a q prog p.2) := by
  intro r u
  change _ = (meantAfter a q p.2.meant).get? (r, u)
  cases q with
  | hset r' u' x =>
    rw [meantAfter_hset h hleads hok hpre, InsMap.get?_set, Redis.answer, Redis.room_setRoom]
    by_cases hr : r = r'
    · subst hr
      rw [if_pos rfl, InsMap.get?_set, h r u]
      exact if_congr (by simp) rfl rfl
    · rw [if_neg hr, if_neg fun heq => hr (congrArg Prod.fst heq)]
      exact h r u
  | hdel r' u' =>
    rw [meantAfter, InsMap.get?_delete, Redis.answer, Redis.room_setRoom]
    by_cases hr : r = r'
    · subst hr
      rw [if_pos rfl, InsMap.get?_delete, h r u]
      exact if_congr (by simp) rfl rfl
    · rw [if_neg hr, if_neg fun heq => hr (congrArg Prod.fst heq)]
      exact h r u
  | delRoom r' =>
    rw [Redis.answer, Redis.room_setRoom]
    split_ifs with hr
    · subst hr
      exact (InsMap.has_eq_false.1 (has_eq_false_of_size hok.2)).symm.trans (h r u)
    · exact h r u
  | _ => exact h r u

/-- Who joins a user is not at work while a call that takes him out is, and the other way round. -/
theorem InTurn.not_begun (hok : InTurn p i a q) {j : ℕ} {b : RoomCall} {q' : Command}
    {next' : q'.Result → Procedure RoomResult} (hj : Waits p.1 j b q' next') (hji : j ≠ i)
    (hagainst : a.against b = true) : b.begun q' = false := by
  have hget : p.1.tasks.get? j = some (b, .ask q' next') := hj
  refine hok.1 j ?_ hji (b, q') ?_ hagainst
  · rw [InsMap.mem_keys, hget]
    rfl
  · rw [State.asking, hget]
    rfl

theorem preRecord_other {j : ℕ} {b : RoomCall} {q' : Command}
    {next' : q'.Result → Procedure RoomResult} {prog : Procedure RoomResult}
    (hleads : Leads a q next) (hleadsj : Leads b q' next') (hok : InTurn p i a q)
    (hpre : preRecord i a q next p.1.store p.2) (hj : Waits p.1 j b q' next') (hji : j ≠ i)
    (hprej : preRecord j b q' next' p.1.store p.2) :
    preRecord j b q' next' (p.1.store.answer q).2 (membership.serve p.1 i a q prog p.2) := by
  cases b with
  | joinRoom r u n =>
    have hkeep : (RoomCall.joinRoom r u n).begun q' = true → (p.1.store.room r).has u = true →
        ((p.1.store.answer q).2.room r).has u = true := by
      intro hbegun hhas
      refine has_answer hhas ?_ ?_
      · rintro rfl
        have hagainst : a.against (.joinRoom r u n) = true := by
          rcases hleads.1 with rfl | rfl <;> simp [RoomCall.against, RoomCall.leaves]
        rw [hok.not_begun hj hji hagainst] at hbegun
        cases hbegun
      · rintro rfl
        rw [has_eq_false_of_size hok.2] at hhas
        cases hhas
    cases q' with
    | hget _ _ | dateNow | hset _ _ _ => trivial
    | _ => exact hkeep rfl hprej
  | leaveRoom r u =>
    intro hq'
    have hgone := hprej hq'
    by_contra hhas
    have hhas' := eq_true_of_ne_false hhas
    by_cases hset : ∃ x, q = .hset r u x
    · obtain ⟨x, rfl⟩ := hset
      rcases hleads with ⟨n, rfl, -⟩ | ⟨patch, rfl⟩
      · have hbegun := hok.not_begun hj hji (by simp [RoomCall.against, RoomCall.leaves])
        cases q' with
        | hdel r' u' =>
          obtain ⟨rfl, rfl⟩ : r = r' ∧ u = u' := by simpa using hleadsj.1
          exact hq' rfl
        | _ => cases hbegun
      · obtain ⟨old, hold, -⟩ := hpre
        rw [has_of_get? ((hok.2 rfl).trans hold)] at hgone
        cases hgone
    · rw [has_of_answer hhas' fun x hx => hset ⟨x, hx⟩] at hgone
      cases hgone
  | updateParticipantState r u patch =>
    cases q' with
    | hset _ _ x =>
      obtain ⟨old, hold, hx⟩ := hprej
      refine ⟨old, ?_, hx⟩
      cases q with
      | hget r' u' =>
        change (((p.1.store.room r').get? u').elim p.2.reads (p.2.reads.set i)).get? j = some old
        cases (p.1.store.room r').get? u' with
        | none => exact hold
        | some x => exact (InsMap.get?_set_ne _ _ hji).trans hold
      | _ => exact hold
    | _ => trivial
  | _ => trivial

end

/-- Nobody is in a room yet. -/
def Redis.NoRooms (s : Redis) : Prop := s.rooms = ∅ ∧ s.userRooms = ∅

/-- The runs of the calls that are in turn. -/
abbrev inTurn : Machine (RoomState × Membership) (Event RoomCall) :=
  (rooms.recorded membership Redis.NoRooms).restrict (Guarded (fun _ _ => True) InTurn)

theorem outlined_of_run {p : RoomState × Membership} (hp : inTurn.Reachable p) :
    Outlined AsMeant KeepsRecords preRecord p := by
  refine Service.outline (P := Leads) _ _ _ ?_ keeps_callRoom ?_ ?_ ?_ ?_ hp
  · rintro s ⟨hs, -⟩ r u
    rw [Redis.room, hs]
    rfl
  · intro p a _ h
    refine ⟨h.holds, ?_⟩
    cases a with
    | leaveRoom r u => exact fun hq => absurd rfl hq
    | _ => trivial
  · exact fun p a _ _ j b q next _ hpre => hpre
  · exact fun p i a q next hok h hi _ =>
      h.holds.served (h.along i a _ hi).1 hok (h.asserted i a q next hi) _
  · exact fun p i a q next hok h hi j b q' next' hji hj =>
      preRecord_other (h.along i a _ hi).1 (h.along j b _ hj).1 hok (h.asserted i a q next hi) hj hji
        (h.asserted j b q' next' hj)

/-! ## The hash, the index and the completed calls -/

/-- A call in flight is yet to give the command. -/
def Will (s : RoomState) (q : Command) : Prop := s.Runs fun _ prog => prog.Asks (· = q)

/-- A call of the kind is in flight. -/
def Doing (s : RoomState) (kind : RoomCall → Bool) : Prop :=
  s.Runs fun a prog => kind a = true ∧ prog.Asks fun _ => True

/-- What the hash, the index and the completed calls differ in is yet to come. -/
structure Settles (p : RoomState × Membership) (r : RoomId) (u : UserId) : Prop where
  indexed : (p.1.store.room r).has u = true →
    (p.1.store.roomsOf u).has r = true ∨ Will p.1 (.sadd u r) ∨ Will p.1 (.hdel r u)
  listed : (p.1.store.roomsOf u).has r = true →
    (p.1.store.room r).has u = true ∨ Will p.1 (.srem u r)
  kept : (r, u) ∈ p.2.joined → (p.1.store.room r).has u = true ∨ Doing p.1 (RoomCall.leaves r u)
  completed : (p.1.store.room r).has u = true →
    (r, u) ∈ p.2.joined ∨ Doing p.1 (RoomCall.joins r u) ∨ Will p.1 (.hdel r u)
  swept : ∀ j q next, Waits p.1 j (.leaveAllRooms u) q next →
    (RoomCall.leaveAllRooms u).begun q = true → (p.1.store.room r).has u = true →
    Will p.1 (.hdel r u)

instance : ∀ q : Command, Nonempty q.Result
  | .hget _ _ => ⟨none⟩
  | .hgetall _ | .smembers _ => ⟨[]⟩
  | .hexists _ _ => ⟨false⟩
  | .getSession _ => ⟨none⟩
  | .randomUUID | .dateNow => ⟨(0 : ℕ)⟩
  | .hset _ _ _ | .hdel _ _ | .delRoom _ | .expireRoom _ | .sadd _ _ | .srem _ _ | .delUserRooms _
  | .expireUserRooms _ | .setSession _ _ _ | .delSession _ | .saveKnock | .elapse _ => ⟨()⟩

theorem mem_completed {r : RoomId} {u : UserId} {l : List (RoomId × UserId)} {a : RoomCall} :
    (r, u) ∈ completed l a ↔
      a.joins r u = true ∨ ((r, u) ∈ l ∧ a.leaves r u = false) := by
  cases a with
  | joinRoom r' u' n =>
    simp [completed, RoomCall.joins, RoomCall.leaves, @eq_comm _ r, @eq_comm _ u]
  | leaveRoom r' u' =>
    simp [completed, RoomCall.joins, RoomCall.leaves, @eq_comm _ r, @eq_comm _ u,
      Decidable.imp_iff_not_or]
  | leaveAllRooms u' =>
    simp [completed, RoomCall.joins, RoomCall.leaves, @eq_comm _ u]
  | _ => simp [completed, RoomCall.joins, RoomCall.leaves]

section
variable {s : Redis} {q : Command} {r : RoomId} {u : UserId}

/-- A room stays in the index until it is removed, or the index is. -/
theorem listed_answer (h : (s.roomsOf u).has r = true) (hsrem : q ≠ .srem u r)
    (hdel : q ≠ .delUserRooms u) : ((s.answer q).2.roomsOf u).has r = true := by
  cases q with
  | sadd u' r' =>
    rw [Redis.answer, Redis.roomsOf_setRoomsOf]
    split_ifs with hu
    · subst hu
      rw [InsMap.has_set, h, Bool.or_true]
    · exact h
  | srem u' r' =>
    rw [Redis.answer, Redis.roomsOf_setRoomsOf]
    split_ifs with hu
    · subst hu
      rw [InsMap.has, InsMap.get?_delete_ne _ fun hr : r = r' => hsrem (by rw [hr])]
      exact h
    · exact h
  | delUserRooms u' =>
    rw [Redis.answer, Redis.roomsOf_setRoomsOf, if_neg fun hu : u = u' => hdel (by rw [hu])]
    exact h
  | _ => exact h

/-- What is in the index after a command. -/
theorem listed_of_answer (h : ((s.answer q).2.roomsOf u).has r = true) :
    q ≠ .srem u r ∧ (q = .sadd u r ∨ (s.roomsOf u).has r = true) := by
  cases q with
  | sadd u' r' =>
    refine ⟨by simp, ?_⟩
    rw [Redis.answer, Redis.roomsOf_setRoomsOf] at h
    split_ifs at h with hu
    · subst hu
      by_cases hr : r = r'
      · exact .inl (by rw [hr])
      · rw [InsMap.has, InsMap.get?_set_ne _ _ hr] at h
        exact .inr h
    · exact .inr h
  | srem u' r' =>
    rw [Redis.answer, Redis.roomsOf_setRoomsOf] at h
    split_ifs at h with hu
    · subst hu
      rw [InsMap.has, InsMap.get?_delete] at h
      split_ifs at h with hr
      · cases h
      · exact ⟨fun heq => hr (by cases heq; rfl), .inr h⟩
    · exact ⟨fun heq => hu (by cases heq; rfl), .inr h⟩
  | delUserRooms u' =>
    rw [Redis.answer, Redis.roomsOf_setRoomsOf] at h
    split_ifs at h
    · cases h
    · exact ⟨by simp, .inr h⟩
  | _ => exact ⟨by simp, .inr h⟩

end

section
variable {p : RoomState × Membership} {i : ℕ} {a : RoomCall} {q : Command}
  {next : q.Result → Procedure RoomResult} {r : RoomId} {u : UserId}

theorem Will.keep {q' : Command} (h : Will p.1 q') (hi : Waits p.1 i a q next) (hq : q ≠ q') :
    Will (rooms.served membership p i a q next).1 q' :=
  served_runs (fun _ => id) h hi fun hasks => hasks.resolve_left hq _

theorem Will.new {q' : Command} (h : (next (p.1.store.answer q).1).Asks (· = q')) :
    Will (rooms.served membership p i a q next).1 q' :=
  served_runs_self (fun _ => id) h

theorem Doing.keep {kind : RoomCall → Bool} (h : Doing p.1 kind) (hi : Waits p.1 i a q next)
    (hnext : kind a = true → (next (p.1.store.answer q).1).Asks fun _ => True) :
    Doing (rooms.served membership p i a q next).1 kind :=
  served_runs (fun _ hb => hb.2) h hi fun hkind => ⟨hkind.1, hnext hkind.1⟩

theorem Doing.new {kind : RoomCall → Bool} (ha : kind a = true)
    (hnext : (next (p.1.store.answer q).1).Asks fun _ => True) :
    Doing (rooms.served membership p i a q next).1 kind :=
  served_runs_self (fun _ hb => hb.2) ⟨ha, hnext⟩

/-- What a step in turn knows. -/
structure Turn (p : RoomState × Membership) (i : ℕ) (a : RoomCall) (q : Command)
    (next : q.Result → Procedure RoomResult) : Prop where
  ok : InTurn p i a q
  waits : Waits p.1 i a q next
  leads : Leads a q next
  pre : preRecord i a q next p.1.store p.2
  post : Asserted preRecord postRecord i a (p.1.store.answer q).2
    (rooms.served membership p i a q next).2 (next (p.1.store.answer q).1)

/-- Who is in the room after a step was there, or joins it. -/
theorem Turn.has_before (h : Turn p i a q next)
    (hhas : ((p.1.store.answer q).2.room r).has u = true) :
    (p.1.store.room r).has u = true ∨ ((∃ n, a = .joinRoom r u n) ∧
      (next (p.1.store.answer q).1).Asks (· = .sadd u r)) := by
  by_cases hset : ∃ x, q = .hset r u x
  · obtain ⟨x, rfl⟩ := hset
    rcases h.leads with ⟨n, ha, hasks⟩ | ⟨patch, rfl⟩
    · exact .inr ⟨⟨n, ha⟩, hasks⟩
    · obtain ⟨old, hold, -⟩ := h.pre
      exact .inl (has_of_get? ((h.ok.2 rfl).trans hold))
  · exact .inl (has_of_answer hhas fun x hx => hset ⟨x, hx⟩)

/-- Who is in the room stays there, unless he is removed. -/
theorem Turn.has_after (h : Turn p i a q next) (hhas : (p.1.store.room r).has u = true) :
    ((p.1.store.answer q).2.room r).has u = true ∨ q = .hdel r u := by
  by_cases hq : q = .hdel r u
  · exact .inr hq
  · refine .inl (has_answer hhas hq ?_)
    rintro rfl
    have hsize : (p.1.store.room r).size = 0 := h.ok.2
    rw [has_eq_false_of_size hsize] at hhas
    cases hhas

/-- Who is still in the room was not removed. -/
theorem ne_hdel (hhas : ((p.1.store.answer q).2.room r).has u = true) : q ≠ .hdel r u := by
  rintro rfl
  rw [Redis.answer, Redis.room_setRoom, if_pos rfl, InsMap.has, InsMap.get?_delete_self] at hhas
  cases hhas

theorem Turn.indexed (h : Turn p i a q next) (hs : Settles p r u)
    (hhas : ((p.1.store.answer q).2.room r).has u = true) :
    ((p.1.store.answer q).2.roomsOf u).has r = true ∨
      Will (rooms.served membership p i a q next).1 (.sadd u r) ∨
      Will (rooms.served membership p i a q next).1 (.hdel r u) := by
  rcases h.has_before hhas with hhas' | ⟨-, hasks⟩
  · rcases hs.indexed hhas' with hlisted | hsadd | hhdel
    · by_cases hremoved : q = .srem u r ∨ q = .delUserRooms u
      · -- Either a `leaveAllRooms` empties the index, or the record is gone already.
        have hswept : Will p.1 (.hdel r u) := by
          rcases hremoved with rfl | rfl
          · rcases h.leads with rfl | rfl
            · have hgone : (p.1.store.room r).has u = false := h.pre (by simp)
              rw [hhas'] at hgone
              cases hgone
            · exact hs.swept i _ _ h.waits rfl hhas'
          · obtain rfl := h.leads
            exact hs.swept i _ _ h.waits rfl hhas'
        exact .inr (.inr (hswept.keep h.waits (ne_hdel hhas)))
      · exact .inl (listed_answer hlisted (fun hq => hremoved (.inl hq))
          fun hq => hremoved (.inr hq))
    · by_cases hq : q = .sadd u r
      · subst hq
        refine .inl ?_
        rw [Redis.answer, Redis.roomsOf_setRoomsOf, if_pos rfl, InsMap.has, InsMap.get?_set_self]
        rfl
      · exact .inr (.inl (hsadd.keep h.waits hq))
    · exact .inr (.inr (hhdel.keep h.waits (ne_hdel hhas)))
  · exact .inr (.inl (.new hasks))

theorem Turn.listed (h : Turn p i a q next) (hs : Settles p r u)
    (hlisted : ((p.1.store.answer q).2.roomsOf u).has r = true) :
    ((p.1.store.answer q).2.room r).has u = true ∨
      Will (rooms.served membership p i a q next).1 (.srem u r) := by
  obtain ⟨hsrem, hq | hlisted⟩ := listed_of_answer hlisted
  · subst hq
    obtain ⟨n, rfl⟩ := h.leads
    exact .inl h.pre
  · rcases hs.listed hlisted with hhas | hwill
    · refine (h.has_after hhas).imp_right fun hq => ?_
      subst hq
      exact .new h.leads.2
    · exact .inr (hwill.keep h.waits hsrem)

/-- Who has joined by the completed calls, after a step: the call goes on, or it is completed. -/
theorem mem_joined_served : (r, u) ∈ (rooms.served membership p i a q next).2.joined ↔
    ((next (p.1.store.answer q).1).Asks (fun _ => True) ∧ (r, u) ∈ p.2.joined) ∨
    ((∃ b, next (p.1.store.answer q).1 = .done b) ∧
      (a.joins r u = true ∨ ((r, u) ∈ p.2.joined ∧ a.leaves r u = false))) := by
  change (r, u) ∈ (match next (p.1.store.answer q).1 with
    | .done _ => completed p.2.joined a
    | .ask _ _ => p.2.joined) ↔ _
  cases next (p.1.store.answer q).1 with
  | done b => simp [mem_completed]
  | ask q' next' => simp

theorem Turn.kept (h : Turn p i a q next) (hs : Settles p r u)
    (hmem : (r, u) ∈ (rooms.served membership p i a q next).2.joined) :
    ((p.1.store.answer q).2.room r).has u = true ∨
      Doing (rooms.served membership p i a q next).1 (RoomCall.leaves r u) := by
  have hkept : (r, u) ∈ p.2.joined →
      (a.leaves r u = true → (next (p.1.store.answer q).1).Asks fun _ => True) →
      ((p.1.store.answer q).2.room r).has u = true ∨
        Doing (rooms.served membership p i a q next).1 (RoomCall.leaves r u) := by
    intro hmem hnext
    rcases hs.kept hmem with hhas | hdoing
    · refine (h.has_after hhas).imp_right fun hq => ?_
      subst hq
      have ha : a.leaves r u = true := by
        rcases h.leads.1 with rfl | rfl <;> simp [RoomCall.leaves]
      exact .new ha (hnext ha)
    · exact .inr (hdoing.keep h.waits hnext)
  rcases mem_joined_served.1 hmem with ⟨hnext, hmem⟩ | ⟨⟨b, hdone⟩, hjoins | ⟨hmem, hleaves⟩⟩
  · exact hkept hmem fun _ => hnext
  · have hpost := h.post
    rw [hdone] at hpost
    cases a with
    | joinRoom r' u' n =>
      obtain ⟨rfl, rfl⟩ : r' = r ∧ u' = u := of_decide_eq_true hjoins
      exact .inl hpost
    | _ => cases hjoins
  · exact hkept hmem fun ha => absurd (hleaves.symm.trans ha) Bool.false_ne_true

/-- A `leaveAllRooms` that begins finds the room in the index, or another one is to leave it. -/
theorem Turn.begins (h : Turn p i a q next)
    (halong : ∀ j b prog, p.1.tasks.get? j = some (b, prog) → prog.Along (Leads b))
    (hs : Settles p r u) (hq : q = .smembers u) (hhas : (p.1.store.room r).has u = true) :
    Will (rooms.served membership p i a q next).1 (.hdel r u) := by
  subst hq
  obtain ⟨rfl, hnext⟩ := h.leads
  rcases hs.indexed hhas with hlisted | ⟨j, b, prog, hj, hasks⟩ | hhdel
  · exact .new ((hnext _).2 r (InsMap.mem_keys_iff_has.2 hlisted))
  · -- Who is yet to add the room to the index is a join at work.
    obtain ⟨q', next', rfl, n, rfl⟩ := hasks.exists_along (halong j b prog hj)
    have hji : j ≠ i := by
      rintro rfl
      cases hj.symm.trans h.waits
    cases prog with
    | done b => exact hasks.elim
    | ask q' next' =>
      have hbegun := h.ok.not_begun hj hji (by simp [RoomCall.against, RoomCall.leaves])
      cases q' with
      | hget r' u' =>
        rcases hasks with hq | hasks
        · cases hq
        · rcases (halong j _ _ hj).1 with ⟨n', hn, hnot⟩ | ⟨patch, hpatch⟩
          · cases hn
            exact absurd (hasks (some ⟨u, n, 0, false, false⟩)) (hnot _)
          · cases hpatch
      | _ => cases hbegun
  · exact hhdel.keep h.waits (by simp)

/-- A call that takes the user out goes on, as long as he is there, or another one does. -/
theorem Turn.leaves (h : Turn p i a q next) (hs : Settles p r u) (ha : a.leaves r u = true)
    (hhas : ((p.1.store.answer q).2.room r).has u = true) :
    (next (p.1.store.answer q).1).Asks (fun _ => True) ∨
      Will (rooms.served membership p i a q next).1 (.hdel r u) := by
  cases a with
  | leaveRoom r' u' =>
    obtain ⟨rfl, rfl⟩ : r' = r ∧ u' = u := of_decide_eq_true ha
    have hpost := h.post
    cases hnext : next (p.1.store.answer q).1 with
    | ask q' next' => exact .inl (.inl trivial)
    | done b =>
      rw [hnext] at hpost
      exact absurd (hhas.symm.trans hpost) Bool.true_eq_false.mp
  | leaveAllRooms u' =>
    obtain rfl : u' = u := of_decide_eq_true ha
    rcases h.has_before hhas with hhas' | ⟨⟨n, hn⟩, -⟩
    · cases q with
      | smembers u =>
        obtain ⟨-, hnext⟩ := h.leads
        exact .inl (hnext _).1
      | _ => exact .inr ((hs.swept i _ _ h.waits rfl hhas').keep h.waits (ne_hdel hhas))
    · cases hn
  | _ => cases ha

theorem Turn.completed (h : Turn p i a q next) (hs : Settles p r u)
    (hhas : ((p.1.store.answer q).2.room r).has u = true) :
    (r, u) ∈ (rooms.served membership p i a q next).2.joined ∨
      Doing (rooms.served membership p i a q next).1 (RoomCall.joins r u) ∨
      Will (rooms.served membership p i a q next).1 (.hdel r u) := by
  rcases h.has_before hhas with hhas' | ⟨⟨n, rfl⟩, hasks⟩
  · rcases hs.completed hhas' with hmem | hdoing | hhdel
    · by_cases hleaves : a.leaves r u = true
      · rcases h.leaves hs hleaves hhas with hnext | hwill
        · exact .inl (mem_joined_served.2 (.inl ⟨hnext, hmem⟩))
        · exact .inr (.inr hwill)
      · refine .inl (mem_joined_served.2 ?_)
        cases hnext : next (p.1.store.answer q).1 with
        | done b => exact .inr ⟨⟨b, rfl⟩, .inr ⟨hmem, eq_false_of_ne_true hleaves⟩⟩
        | ask q' next' => exact .inl ⟨.inl trivial, hmem⟩
    · cases hnext : next (p.1.store.answer q).1 with
      | ask q' next' =>
        exact .inr (.inl (hdoing.keep h.waits fun _ => by rw [hnext]; exact .inl trivial))
      | done b =>
        by_cases hjoins : a.joins r u = true
        · exact .inl (mem_joined_served.2 (.inr ⟨⟨b, hnext⟩, .inl hjoins⟩))
        · exact .inr (.inl (hdoing.keep h.waits fun ha => absurd ha hjoins))
    · exact .inr (.inr (hhdel.keep h.waits (ne_hdel hhas)))
  · exact .inr (.inl (.new (by simp [RoomCall.joins]) (hasks.imp fun _ _ => trivial)))

theorem Turn.swept (h : Turn p i a q next)
    (halong : ∀ j b prog, p.1.tasks.get? j = some (b, prog) → prog.Along (Leads b))
    (hs : Settles p r u) {j : ℕ} {q' : Command} {next' : q'.Result → Procedure RoomResult}
    (hj : Waits (rooms.served membership p i a q next).1 j (.leaveAllRooms u) q' next')
    (hbegun : (RoomCall.leaveAllRooms u).begun q' = true)
    (hhas : ((p.1.store.answer q).2.room r).has u = true) :
    Will (rooms.served membership p i a q next).1 (.hdel r u) := by
  rcases goOn_get? hj with ⟨rfl, rfl, -⟩ | hj'
  · rcases h.has_before hhas with hhas' | ⟨⟨n, hn⟩, -⟩
    · cases q with
      | smembers u' =>
        obtain rfl : u' = u := (RoomCall.leaveAllRooms.inj h.leads.1).symm
        exact h.begins halong hs rfl hhas'
      | _ => exact (hs.swept j _ _ h.waits rfl hhas').keep h.waits (ne_hdel hhas)
    · cases hn
  · rcases h.has_before hhas with hhas' | ⟨⟨n, rfl⟩, -⟩
    · exact (hs.swept j _ _ hj' hbegun hhas').keep h.waits (ne_hdel hhas)
    · have hji : j ≠ i := by
        rintro rfl
        cases hj'.symm.trans h.waits
      have hnot := h.ok.not_begun (show Waits p.1 j _ q' next' from hj') hji
        (by simp [RoomCall.against, RoomCall.leaves])
      rw [hbegun] at hnot
      cases hnot

theorem Settles.served (hs : Settles p r u) (h : Turn p i a q next)
    (halong : ∀ j b prog, p.1.tasks.get? j = some (b, prog) → prog.Along (Leads b)) :
    Settles (rooms.served membership p i a q next) r u := by
  have hstore : (rooms.served membership p i a q next).1.store = (p.1.store.answer q).2 :=
    served_store i a q next
  refine ⟨fun hhas => ?_, fun hlisted => ?_, fun hmem => ?_, fun hhas => ?_,
    fun j q' next' hj hbegun hhas => ?_⟩
  · rw [hstore] at hhas ⊢
    exact h.indexed hs hhas
  · rw [hstore] at hlisted ⊢
    exact h.listed hs hlisted
  · rw [hstore]
    exact h.kept hs hmem
  · rw [hstore] at hhas
    exact h.completed hs hhas
  · rw [hstore] at hhas
    exact h.swept halong hs hj hbegun hhas

end

theorem Settles.received {p : RoomState × Membership} {r : RoomId} {u : UserId}
    (hs : Settles p r u) (hnamed : ∀ t, p.1.tasks.get? p.1.received ≠ some t) (a : RoomCall) :
    Settles (rooms.received membership p a) r u := by
  have hstore : (rooms.received membership p a).1.store = p.1.store := received_store a
  have hwill : ∀ {q}, Will p.1 q → Will (rooms.received membership p a).1 q := received_runs hnamed
  have hdoing : ∀ {kind}, Doing p.1 kind → Doing (rooms.received membership p a).1 kind :=
    received_runs hnamed
  refine ⟨fun hhas => ?_, fun hlisted => ?_, fun hmem => ?_, fun hhas => ?_,
    fun j q next hj hbegun hhas => ?_⟩
  · rw [hstore] at hhas ⊢
    exact (hs.indexed hhas).imp_right fun h => h.imp hwill hwill
  · rw [hstore] at hlisted ⊢
    exact (hs.listed hlisted).imp_right hwill
  · rw [hstore]
    exact (hs.kept hmem).imp_right hdoing
  · rw [hstore] at hhas
    exact (hs.completed hhas).imp_right fun h => h.imp hdoing hwill
  · rw [hstore] at hhas
    rcases goOn_get? hj with ⟨-, rfl, hprog⟩ | hj'
    · -- It has not begun yet.
      cases hprog
      cases hbegun
    · exact hwill (hs.swept j _ _ hj' hbegun hhas)

theorem settles_of_run {p : RoomState × Membership} (hp : inTurn.Reachable p) (r : RoomId)
    (u : UserId) : Settles p r u := by
  refine hp.invariant (I := fun p => Settles p r u) ?_ fun p e p' hp hs hstep => ?_
  · rintro ⟨s, h⟩ ⟨⟨store, ⟨hrooms, huserRooms⟩, rfl⟩, rfl⟩
    have hhas : (store.room r).has u = false := by
      rw [Redis.room, hrooms]
      rfl
    have hlisted : (store.roomsOf u).has r = false := by
      rw [Redis.roomsOf, huserRooms]
      rfl
    refine ⟨fun h => ?_, fun h => ?_, fun h => absurd h List.not_mem_nil, fun h => ?_,
      fun j q next hj => absurd hj (Option.some_ne_none _).symm⟩
    · exact absurd (hhas.symm.trans h) Bool.false_ne_true
    · exact absurd (hlisted.symm.trans h) Bool.false_ne_true
    · exact absurd (hhas.symm.trans h) Bool.false_ne_true
  · obtain ⟨hok, hstep⟩ := Machine.restrict_step.1 hstep
    rcases recorded_cases hstep with ⟨a, rfl, rfl⟩ | ⟨i, a, q, next, rfl, hget, rfl⟩
    · exact hs.received (fun t ht => Nat.lt_irrefl _ (recorded_named hp.of_restrict ht)) a
    · have hout := outlined_of_run hp
      have hq : InTurn p i a q := hok (a, q) (by rw [State.asking, hget]; rfl)
      exact hs.served ⟨hq, hget, (hout.along i a _ hget).1.1, hout.asserted i a q next hget,
        hout.served hget hq⟩ fun j b prog hj => (hout.along j b prog hj).imp fun _ _ h => h.1

/-- The record of a participant is always that of his join with the changes of every update
    since, and there is none once he is removed. When no call is in flight, a user is in the hash
    of a room if and only if the room is in his index, and if and only if he has completed a join
    of it and no leave since. -/
theorem membership_of_run {p : RoomState × Membership} (hp : inTurn.Reachable p) (r : RoomId)
    (u : UserId) : (p.1.store.room r).get? u = p.2.meant.get? (r, u) ∧
      (p.1.tasks.size = 0 → ((p.1.store.room r).has u = (p.1.store.roomsOf u).has r) ∧
        ((p.1.store.room r).has u = true ↔ (r, u) ∈ p.2.joined)) := by
  refine ⟨(outlined_of_run hp).holds r u, fun htasks => ?_⟩
  have hnone : ∀ {ψ}, ¬p.1.Runs ψ := by
    rintro ψ ⟨j, a, prog, hj, -⟩
    have hempty : p.1.tasks = ∅ := InsMap.ext (List.length_eq_zero_iff.1 htasks)
    rw [hempty] at hj
    cases hj
  have hs := settles_of_run hp r u
  constructor
  · refine Bool.eq_iff_iff.2 ⟨fun hhas => ?_, fun hlisted => ?_⟩
    · exact (hs.indexed hhas).resolve_right fun h => h.elim hnone hnone
    · exact (hs.listed hlisted).resolve_right hnone
  · constructor
    · exact fun hhas => (hs.completed hhas).resolve_right fun h => h.elim hnone hnone
    · exact fun hmem => (hs.kept hmem).resolve_right hnone

namespace Sample

def noRooms : Redis := ⟨∅, ∅, ∅, 0, 0⟩

/-- A call, with so many of its commands. -/
def wholeCall (i : ℕ) (a : RoomCall) (n : ℕ) : List (Event RoomCall) :=
  .receive a :: List.replicate n (.serve i)

def annJoins : List (Event RoomCall) := wholeCall 0 (.joinRoom 1 7 "ann") 7

def mute : RoomCall := .updateParticipantState 1 7 ⟨some true, none⟩

def videoOff : RoomCall := .updateParticipantState 1 7 ⟨none, some true⟩

/-- Ann leaves between the two commands of an update. -/
def updateAfterLeave : List (Event RoomCall) :=
  annJoins ++ wholeCall 1 mute 1 ++ wholeCall 2 (.leaveRoom 1 7) 4 ++ [.serve 1, .serve 1]

/-- Ann leaves, and before the room that she has left empty is deleted, joins it again in another
    tab. -/
def joinBeforeDelete : List (Event RoomCall) :=
  annJoins ++ wholeCall 1 (.leaveRoom 1 7) 3 ++ wholeCall 2 (.joinRoom 1 7 "ann") 7 ++ [.serve 1]

/-- Two updates read the record before either writes it. -/
def updatesTogether : List (Event RoomCall) :=
  annJoins ++ wholeCall 1 mute 1 ++ wholeCall 2 videoOff 1 ++ [.serve 1, .serve 2, .serve 1, .serve 2]

/-- Ann joins and is muted, Bob joins, a leave of Ann and an update of Bob go on together. -/
def takesTurns : List (Event RoomCall) :=
  annJoins ++ wholeCall 1 mute 3 ++ wholeCall 2 (.joinRoom 1 8 "bob") 7 ++
    wholeCall 3 (.updateParticipantState 1 8 ⟨some true, none⟩) 1 ++
    wholeCall 4 (.leaveRoom 1 7) 3 ++ [.serve 3, .serve 3] ++ wholeCall 5 (.leaveAllRooms 8) 6

end Sample

section
open Sample

/-- What a state tells of Ann, and how many calls are in flight. -/
def tells (p : RoomState × Membership) : Option GroupCallParticipant × Bool × Bool × ℕ :=
  ((p.1.store.room 1).get? 7, (p.1.store.roomsOf 7).has 1, (1, 7) ∈ p.2.joined, p.1.tasks.size)

/-- An update makes Ann, who has left, a participant again, who is not in the index; a leave
    deletes her record when she has joined again; and an update loses the change of another. -/
theorem left_and_back : (∃ p, (rooms.recorded membership Redis.NoRooms).run
      (.start noRooms, membership.start) updateAfterLeave = some p ∧
        tells p = (some ⟨7, "ann", 0, true, false⟩, false, false, 0)) ∧
    (∃ p, (rooms.recorded membership Redis.NoRooms).run
      (.start noRooms, membership.start) joinBeforeDelete = some p ∧
        tells p = (none, true, false, 0)) ∧
    ∃ p, (rooms.recorded membership Redis.NoRooms).run
      (.start noRooms, membership.start) updatesTogether = some p ∧
        tells p = (some ⟨7, "ann", 0, false, true⟩, true, true, 0) := by
  refine ⟨Option.map_eq_some_iff.1 ?_, Option.map_eq_some_iff.1 ?_, Option.map_eq_some_iff.1 ?_⟩
  all_goals decide

theorem membership_of_run_takesTurns :
    ∃ p, inTurn.run (.start noRooms, membership.start) takesTurns = some p ∧
      (p.1.store.room 1).get? 7 = p.2.meant.get? (1, 7) ∧
        (p.1.tasks.size = 0 → ((p.1.store.room 1).has 7 = (p.1.store.roomsOf 7).has 1) ∧
          ((p.1.store.room 1).has 7 = true ↔ (1, 7) ∈ p.2.joined)) := by
  obtain ⟨p, hp, hreachable⟩ := Machine.exists_reachable (by decide :
    (inTurn.run (.start noRooms, membership.start) takesTurns).isSome)
    ⟨⟨noRooms, ⟨rfl, rfl⟩, rfl⟩, rfl⟩
  exact ⟨p, hp, membership_of_run hreachable 1 7⟩

end

end OneToThree.CallRooms
