import OneToThree.Call.SessionKey

/-!
# A fresh key after the room empties

Who leaves a room last is to drop its session id, so that the next call has a key of its own. A
leave removes the user, reads who remains, and deletes the room and the session id if nobody
does, one command at a time.

* The last user may also leave through a kick, or with the last of his sockets, and those do not
  drop the id: the next call goes on with the key (`same_key_after_kick`).
* Another user may join before the leave reads who remains, and then nothing is dropped.
* The key may be looked up before the leave comes to the drop.

`freshKey_of_run`: along a run without these (`DropsInTime`), no key that is issued for the room
was issued before the room has last emptied.
-/

namespace OneToThree.CallRooms

open Service

variable (roomId : RoomId)

/-- Nobody is in the room. -/
def Redis.Vacant (s : Redis) : Prop := (s.room roomId).size = 0

instance (s : Redis) : Decidable (s.Vacant roomId) := Nat.decEq _ _

/-- The command removes the last participant of the room. -/
def Empties (s : Redis) (q : Command) : Prop := ¬s.Vacant roomId ∧ (s.answer q).2.Vacant roomId

instance (s : Redis) (q : Command) : Decidable (Empties roomId s q) := instDecidableAnd

/-- A key that was issued for the room. -/
structure Issue where
  /-- How many times the room had emptied. -/
  emptied : ℕ
  /-- The drop of the session after the last of them was still to come. -/
  owed : Bool
  key : CallE2eeKey
  deriving DecidableEq

/-- What is recorded of the room. -/
structure Vacancies where
  /-- How many times it has emptied. -/
  emptied : ℕ
  /-- It has emptied since its session was dropped. -/
  owed : Bool
  /-- Who has emptied the room since its session was dropped, and is still leaving it. -/
  leaving : List ℕ
  issued : List Issue
  /-- Who drew each random id. -/
  drawn : InsMap SessionId ℕ
  /-- The ids that were written for the room. -/
  written : List SessionId

/-- The commands of a leave that come before it knows who remains in the room. -/
def Command.readsRemaining : Command → Bool
  | .srem _ roomId' | .hgetall roomId' => roomId' = roomId
  | _ => false

/-- The commands of a leave, after the user is removed from the room. -/
def Command.leaves : Command → Bool
  | .srem _ roomId' | .hgetall roomId' | .delRoom roomId' | .delSession roomId' => roomId' = roomId
  | _ => false

/-- The program goes on with the leave. -/
def goesOnLeaving : Procedure Reply → Bool
  | .done _ => false
  | .ask q _ => q.leaves roomId

/-- The key that is issued for the room with the reply. -/
def issuedKey (a : Request) : Procedure Reply → Option CallE2eeKey
  | .done (.issued key) => if a.asksKey roomId then some key else none
  | _ => none

/-- Whether the drop of the session is still to come after the command. -/
def owes (s : Redis) (q : Command) (owed : Bool) : Bool :=
  if q = .delSession roomId then false else if Empties roomId s q then true else owed

def vacancies : History Redis Command Command.Result Request Reply Vacancies where
  start := ⟨0, false, [], [], ∅, []⟩
  receive _ _ h := h
  serve s i a q prog h :=
    { emptied := if Empties roomId s.store q then h.emptied + 1 else h.emptied
      owed := owes roomId s.store q h.owed
      leaving :=
        if q = .delSession roomId then []
        else if goesOnLeaving roomId prog ∧ (Empties roomId s.store q ∨ i ∈ h.leaving) then
          i :: h.leaving.filter (· ≠ i)
        else h.leaving.filter (· ≠ i)
      issued := h.issued ++ (issuedKey roomId a prog).toList.map
        (Issue.mk h.emptied (owes roomId s.store q h.owed))
      drawn := if q = .randomUUID then h.drawn.set s.store.nextId i else h.drawn
      written :=
        match q with
        | .setSession roomId' id _ => if roomId' = roomId then id :: h.written else h.written
        | _ => h.written }

/-- The requests that drop the session id of a room that they leave empty. -/
def Request.drops : Request → Bool
  | .gcLeave _ _ | .closeSocket _ _ _ | .evictFromGroupCall _ _ => true
  | _ => false

/-- The steps of a call that ends in time: the room is emptied by a request that drops its
    session, and not while a grant of the room is saved; nobody joins it before the leave has
    read who remains; and the session id is neither looked up nor written while who has emptied
    the room is still leaving it. -/
def DropsInTime (p : CallState × Vacancies) (_ : ℕ) (a : Request) (q : Command) : Prop :=
  (Empties roomId p.1.store q → a.drops = true ∧
    ∀ j ∈ p.1.tasks.keys, ∀ x ∈ p.1.asking j, x.1.asksKey roomId = true → x.2 ≠ .saveKnock) ∧
  match q with
  | .hset roomId' _ _ => roomId' = roomId →
    ∀ j ∈ p.2.leaving, ∀ x ∈ p.1.asking j, x.2.readsRemaining roomId = false
  | .getSession roomId' | .setSession roomId' _ _ => roomId' = roomId → p.2.leaving = []
  | _ => True

instance (p : CallState × Vacancies) (i : ℕ) (a : Request) :
    ∀ q, Decidable (DropsInTime roomId p i a q)
  | .hset _ _ _ | .getSession _ | .setSession _ _ _ => inferInstanceAs (Decidable (_ ∧ (_ → _)))
  | .hget _ _ | .hdel _ _ | .hgetall _ | .hexists _ _ | .delRoom _ | .expireRoom _ | .sadd _ _
  | .srem _ _ | .smembers _ | .delUserRooms _ | .expireUserRooms _ | .delSession _ | .randomUUID
  | .dateNow | .saveKnock | .elapse _ =>
    inferInstanceAs (Decidable (_ ∧ True))

/-! ## What a request does -/

/-- The program goes on to drop the session of the room, if the room stays empty. -/
def WillDrop : Procedure Reply → Prop
  | .done _ => False
  | .ask (.srem _ roomId') next => roomId' = roomId ∧ WillDrop (next ())
  | .ask (.hgetall roomId') next => roomId' = roomId ∧ WillDrop (next [])
  | .ask (.delRoom roomId') next => roomId' = roomId ∧ WillDrop (next ())
  | .ask (.delSession roomId') _ => roomId' = roomId
  | .ask _ _ => False

/-- Who removes a participant goes on to drop the session, if it is a request that does, and
    the id is only written by the requests for a key. -/
def Follows (a : Request) : (q : Command) → (q.Result → Procedure Reply) → Prop
  | .hdel roomId' _, next => a.drops = true → roomId' = roomId → WillDrop roomId (next ())
  | .delRoom roomId', next => a.drops = true → roomId' = roomId → WillDrop roomId (next ())
  | .setSession roomId' _ _, _ => roomId' = roomId → a.asksKey roomId = true
  | _, _ => True

/-- The next command of the program comes before the leave knows who remains. -/
def awaitsRemaining : Procedure Reply → Bool
  | .done _ => false
  | .ask q _ => q.readsRemaining roomId

/-- Who has emptied the room is bound to drop its session: it stays empty until the leave has
    read who remains. -/
def Leaves (i : ℕ) (s : Redis) (h : Vacancies) (prog : Procedure Reply) : Prop :=
  i ∈ h.leaving →
    WillDrop roomId prog ∧ (awaitsRemaining roomId prog = true → s.Vacant roomId)

/-- The id was issued before the room has last emptied. -/
def Old (h : Vacancies) (id : SessionId) : Prop :=
  ∃ x ∈ h.issued, x.emptied < h.emptied ∧ x.key.callSessionId = id

/-- The id may be issued. -/
structure Fit (h : Vacancies) (id : SessionId) : Prop where
  paid : h.owed = false
  written : id ∈ h.written
  fresh : ¬Old h id

def preDraw : Annotation Redis Command Command.Result Request Reply Vacancies :=
  fun i a q next _ h => a.asksKey roomId = true →
    match q with
    | .setSession _ id _ => h.drawn.get? id = some i ∧ id ∉ h.written
    | .saveKnock => ∀ key, next () = .done (.issued key) → Fit h key.callSessionId
    | _ => True

def postDraw (_ : ℕ) (a : Request) (b : Reply) (_ : Redis) (h : Vacancies) : Prop :=
  a.asksKey roomId = true → ∀ key, b = .issued key → Fit h key.callSessionId

def preFresh : Annotation Redis Command Command.Result Request Reply Vacancies :=
  fun i a q next s h => Leaves roomId i s h (.ask q next) ∧ preDraw roomId i a q next s h

def postFresh (i : ℕ) (a : Request) (b : Reply) (s : Redis) (h : Vacancies) : Prop :=
  Leaves roomId i s h (.done b) ∧ postDraw roomId i a b s h

/-- What was issued after the room has emptied differs from what was issued before, and so does
    the id that is stored, unless the drop is still to come. -/
structure FreshKeys (s : Redis) (h : Vacancies) : Prop where
  paid : ∀ x ∈ h.issued, x.owed = false
  differ : ∀ x ∈ h.issued, ∀ y ∈ h.issued, x.emptied < y.emptied →
    x.key.callSessionId ≠ y.key.callSessionId
  issued_le : ∀ x ∈ h.issued, x.emptied ≤ h.emptied
  settled : h.leaving = [] → h.owed = false
  current : h.leaving = [] → ∀ session, s.sessions.get? roomId = some session → ¬Old h session.id
  stored : ∀ session, s.sessions.get? roomId = some session → session.id ∈ h.written
  written : ∀ x ∈ h.issued, x.key.callSessionId ∈ h.written
  written_lt : ∀ id ∈ h.written, id < s.nextId
  drawn_lt : ∀ id j, h.drawn.get? id = some j → id < s.nextId

abbrev KeepsFresh (a : Request) (q : Command) (next : q.Result → Procedure Reply) : Prop :=
  Follows roomId a q next ∧ calls.Local (vacancies roomId) (DropsInTime roomId)
    (FreshKeys roomId) (preFresh roomId) (postFresh roomId) a q next

variable {roomId}

theorem asserted_fresh {i : ℕ} {a : Request} {s : Redis} {h : Vacancies} {prog : Procedure Reply} :
    Asserted (preFresh roomId) (postFresh roomId) i a s h prog ↔
      Leaves roomId i s h prog ∧ Asserted (preDraw roomId) (postDraw roomId) i a s h prog := by
  cases prog <;> rfl

/-! ## The commands -/

@[simp] theorem nextId_answer (s : Redis) (q : Command) :
    (s.answer q).2.nextId = if q = .randomUUID then s.nextId + 1 else s.nextId := by
  cases q <;> rfl

theorem nextId_le_answer (s : Redis) (q : Command) : s.nextId ≤ (s.answer q).2.nextId := by
  rw [nextId_answer]
  split_ifs
  · exact Nat.le_succ _
  · exact Nat.le_refl _

/-- Only a join or an update puts somebody into an empty room. -/
theorem Redis.Vacant.answer {s : Redis} {q : Command} (h : s.Vacant roomId)
    (hq : ∀ u x, q ≠ .hset roomId u x) : (s.answer q).2.Vacant roomId := by
  cases q with
  | hset r u x =>
    have hr : roomId ≠ r := fun hr => hq u x (hr ▸ rfl)
    rw [Redis.Vacant, Redis.answer, Redis.room_setRoom, if_neg hr]
    exact h
  | hdel r u =>
    rw [Redis.Vacant, Redis.answer, Redis.room_setRoom]
    split_ifs with hr
    · subst hr
      exact Nat.le_zero.1 (Nat.le_trans (InsMap.size_delete_le _ _) (Nat.le_of_eq h))
    · exact h
  | delRoom r =>
    rw [Redis.Vacant, Redis.answer, Redis.room_setRoom]
    split_ifs
    · rfl
    · exact h
  | _ => exact h

/-- What empties the room. -/
theorem Empties.cases {s : Redis} {q : Command} (h : Empties roomId s q) :
    (∃ u, q = .hdel roomId u) ∨ q = .delRoom roomId := by
  obtain ⟨hs, hs'⟩ := h
  cases q with
  | hset r u x =>
    rw [Redis.Vacant, Redis.answer, Redis.room_setRoom] at hs'
    split_ifs at hs'
    · exact absurd hs' (InsMap.size_set_ne_zero _ _ _)
    · exact absurd hs' hs
  | hdel r u =>
    by_cases hr : roomId = r
    · exact .inl ⟨u, by rw [hr]⟩
    · rw [Redis.Vacant, Redis.answer, Redis.room_setRoom, if_neg hr] at hs'
      exact absurd hs' hs
  | delRoom r =>
    by_cases hr : roomId = r
    · exact .inr (by rw [hr])
    · rw [Redis.Vacant, Redis.answer, Redis.room_setRoom, if_neg hr] at hs'
      exact absurd hs' hs
  | _ => exact absurd hs' hs

theorem not_empties {s : Redis} {q : Command} (hdel : ∀ u, q ≠ .hdel roomId u)
    (hroom : q ≠ .delRoom roomId) : ¬Empties roomId s q := fun h => by
  rcases h.cases with ⟨u, h⟩ | h
  · exact hdel u h
  · exact hroom h

theorem WillDrop.goesOn {prog : Procedure Reply} (h : WillDrop roomId prog) :
    goesOnLeaving roomId prog = true := by
  cases prog with
  | done b => exact h.elim
  | ask q next =>
    cases q with
    | srem _ _ | hgetall _ | delRoom _ => exact decide_eq_true h.1
    | delSession _ => exact decide_eq_true h
    | _ => exact h.elim

/-- The next command of who will drop the session. -/
theorem WillDrop.next {s : Redis} {q : Command} {next : q.Result → Procedure Reply}
    (h : WillDrop roomId (.ask q next)) (hq : q ≠ .delSession roomId)
    (hvacant : q.readsRemaining roomId = true → s.Vacant roomId) :
    WillDrop roomId (next (s.answer q).1) ∧ (s.answer q).2.Vacant roomId := by
  cases q with
  | srem u r => exact ⟨h.2, hvacant (decide_eq_true h.1)⟩
  | hgetall r =>
    obtain ⟨rfl, h⟩ := h
    have hs := hvacant (decide_eq_true rfl)
    have hentries : (s.room r).entries = [] := List.length_eq_zero_iff.1 hs
    refine ⟨?_, hs⟩
    change WillDrop r (next ((s.room r).entries.map (·.2)))
    rw [hentries]
    exact h
  | delRoom r =>
    obtain ⟨rfl, h⟩ := h
    refine ⟨h, ?_⟩
    rw [Redis.Vacant, Redis.answer, Redis.room_setRoom, if_pos rfl]
    rfl
  | delSession r => exact absurd (congrArg Command.delSession h) hq
  | _ => exact h.elim

/-! ## What is recorded -/

section
variable {s : CallState} {i : ℕ} {a : Request} {q : Command} {prog : Procedure Reply}
  {h : Vacancies}

theorem issuedKey_eq_some {key : CallE2eeKey} (hkey : issuedKey roomId a prog = some key) :
    a.asksKey roomId = true ∧ prog = .done (.issued key) := by
  unfold issuedKey at hkey
  split at hkey
  · split_ifs at hkey with ha
    cases hkey
    exact ⟨ha, rfl⟩
  · cases hkey

theorem mem_issued_vacancies {x : Issue}
    (hx : x ∈ ((vacancies roomId).serve s i a q prog h).issued) : x ∈ h.issued ∨
      (x.emptied = h.emptied ∧ x.owed = ((vacancies roomId).serve s i a q prog h).owed ∧
        a.asksKey roomId = true ∧ prog = .done (.issued x.key)) := by
  refine (List.mem_append.1 hx).imp_right fun hx => ?_
  obtain ⟨key, hkey, rfl⟩ := List.mem_map.1 hx
  exact ⟨rfl, rfl, issuedKey_eq_some (Option.mem_toList.1 hkey)⟩

theorem mem_written_serve {id : SessionId} :
    id ∈ ((vacancies roomId).serve s i a q prog h).written ↔
      (∃ ttl, q = .setSession roomId id ttl) ∨ id ∈ h.written := by
  cases q with
  | setSession r id' ttl =>
    change id ∈ (if r = roomId then id' :: h.written else h.written) ↔ _
    split_ifs with hr
    · rw [List.mem_cons]
      refine or_congr_left ⟨?_, ?_⟩
      · rintro rfl
        exact ⟨ttl, by rw [hr]⟩
      · rintro ⟨ttl', heq⟩
        cases heq
        rfl
    · refine ⟨.inr, fun hid => hid.resolve_left ?_⟩
      rintro ⟨ttl', heq⟩
      cases heq
      exact hr rfl
  | _ => exact ⟨.inr, fun hid => hid.resolve_left fun ⟨ttl, heq⟩ => by cases heq⟩

theorem emptied_le : h.emptied ≤ ((vacancies roomId).serve s i a q prog h).emptied := by
  change h.emptied ≤ if Empties roomId s.store q then h.emptied + 1 else h.emptied
  split_ifs
  · exact Nat.le_succ _
  · exact Nat.le_refl _

/-- Who is leaving after a step. -/
theorem mem_leaving_serve {j : ℕ}
    (hj : j ∈ ((vacancies roomId).serve s i a q prog h).leaving) :
    q ≠ .delSession roomId ∧ ((j = i ∧ goesOnLeaving roomId prog = true ∧
      (Empties roomId s.store q ∨ i ∈ h.leaving)) ∨ (j ≠ i ∧ j ∈ h.leaving)) := by
  have hfilter : j ∈ h.leaving.filter (· ≠ i) → j ≠ i ∧ j ∈ h.leaving := fun hj => by
    obtain ⟨hj, hji⟩ := List.mem_filter.1 hj
    exact ⟨of_decide_eq_true hji, hj⟩
  simp only [vacancies] at hj
  split_ifs at hj with hq hstays
  · exact absurd hj List.not_mem_nil
  · refine ⟨hq, ?_⟩
    rcases List.mem_cons.1 hj with hj | hj
    · exact .inl ⟨hj, hstays⟩
    · exact .inr (hfilter hj)
  · exact ⟨hq, .inr (hfilter hj)⟩

/-- When nobody is leaving after a step. -/
theorem leaving_serve_eq_nil (hq : q ≠ .delSession roomId)
    (hnil : ((vacancies roomId).serve s i a q prog h).leaving = []) :
    (goesOnLeaving roomId prog = true → ¬(Empties roomId s.store q ∨ i ∈ h.leaving)) ∧
      ∀ j ∈ h.leaving, j = i := by
  simp only [vacancies, if_neg hq] at hnil
  split_ifs at hnil with hstays
  refine ⟨fun hgoes hempties => hstays ⟨hgoes, hempties⟩, fun j hj => ?_⟩
  by_contra hji
  have hmem : j ∈ h.leaving.filter (· ≠ i) := List.mem_filter.2 ⟨hj, decide_eq_true hji⟩
  rw [hnil] at hmem
  exact absurd hmem List.not_mem_nil

/-- Nothing becomes old as long as the room is not emptied. -/
theorem Old.of_serve {id : SessionId} (hq : ¬Empties roomId s.store q)
    (hold : Old ((vacancies roomId).serve s i a q prog h) id) : Old h id := by
  obtain ⟨x, hx, hlt, hid⟩ := hold
  have hemptied : ((vacancies roomId).serve s i a q prog h).emptied = h.emptied := if_neg hq
  rw [hemptied] at hlt
  rcases mem_issued_vacancies hx with hx | ⟨hx, -⟩
  · exact ⟨x, hx, hlt, hid⟩
  · exact absurd hx (Nat.ne_of_lt hlt)

theorem owed_serve (hq : ¬Empties roomId s.store q) (howed : h.owed = false) :
    ((vacancies roomId).serve s i a q prog h).owed = false := by
  change owes roomId s.store q h.owed = false
  rw [owes, if_neg hq, howed, ite_self]

theorem Fit.serve {id : SessionId} (hq : ¬Empties roomId s.store q) (hfit : Fit h id) :
    Fit ((vacancies roomId).serve s i a q prog h) id :=
  ⟨owed_serve hq hfit.paid, mem_written_serve.2 (.inr hfit.written),
    fun hold => hfit.fresh (hold.of_serve hq)⟩

end

/-! ## The steps of a leave -/

section
variable {p : CallState × Vacancies} {i : ℕ} {a : Request} {q : Command}
  {next : q.Result → Procedure Reply}

/-- Who empties the room goes on to drop the session. -/
theorem Follows.willDrop (h : Follows roomId a q next) (ha : a.drops = true)
    (hempties : Empties roomId p.1.store q) : WillDrop roomId (next (p.1.store.answer q).1) := by
  rcases hempties.cases with ⟨u, rfl⟩ | rfl
  · exact h ha rfl
  · exact h ha rfl

/-- A step of the leave itself. -/
theorem Leaves.served (h : Leaves roomId i p.1.store p.2 (.ask q next))
    (hfollows : Follows roomId a q next) (hok : DropsInTime roomId p i a q) :
    Leaves roomId i (p.1.store.answer q).2
      ((vacancies roomId).serve p.1 i a q (next (p.1.store.answer q).1) p.2)
      (next (p.1.store.answer q).1) := by
  intro hi
  obtain ⟨hq, ⟨-, -, hempties | hi⟩ | ⟨hne, -⟩⟩ := mem_leaving_serve hi
  · exact ⟨hfollows.willDrop (hok.1 hempties).1 hempties, fun _ => hempties.2⟩
  · obtain ⟨hdrop, hvacant⟩ := h hi
    exact (hdrop.next hq hvacant).imp_right fun hvacant _ => hvacant
  · exact absurd rfl hne

/-- A step of another request. -/
theorem Leaves.other {j : ℕ} {b : Request} {q' : Command} {next' : q'.Result → Procedure Reply}
    {prog : Procedure Reply} (h : Leaves roomId j p.1.store p.2 (.ask q' next'))
    (hok : DropsInTime roomId p i a q) (hj : Waits p.1 j b q' next') (hji : j ≠ i) :
    Leaves roomId j (p.1.store.answer q).2 ((vacancies roomId).serve p.1 i a q prog p.2)
      (.ask q' next') := by
  intro hmem'
  obtain ⟨-, ⟨heq, -⟩ | ⟨-, hmem⟩⟩ := mem_leaving_serve hmem'
  · exact absurd heq hji
  · refine (h hmem).imp_right fun hvacant hreads => (hvacant hreads).answer fun u x hq => ?_
    subst hq
    have hasking : (b, q') ∈ p.1.asking j := by
      rw [State.asking, show p.1.tasks.get? j = _ from hj]
      rfl
    have hreads' : q'.readsRemaining roomId = true := hreads
    rw [hok.2 rfl j hmem _ hasking] at hreads'
    cases hreads'

/-- The last one of those who have emptied the room is only gone after the drop. -/
theorem leaving_eq_nil (hleaves : Leaves roomId i p.1.store p.2 (.ask q next))
    (hfollows : Follows roomId a q next) (hok : DropsInTime roomId p i a q)
    (hq : q ≠ .delSession roomId)
    (hnil : ((vacancies roomId).serve p.1 i a q (next (p.1.store.answer q).1) p.2).leaving = []) :
    ¬Empties roomId p.1.store q ∧ p.2.leaving = [] := by
  obtain ⟨hgoes, hothers⟩ := leaving_serve_eq_nil hq hnil
  refine ⟨fun hempties => ?_, List.eq_nil_iff_forall_not_mem.2 fun j hj => ?_⟩
  · exact hgoes (hfollows.willDrop (hok.1 hempties).1 hempties).goesOn (.inl hempties)
  · obtain rfl := hothers j hj
    obtain ⟨hdrop, hvacant⟩ := hleaves hj
    exact hgoes (hdrop.next hq hvacant).1.goesOn (.inr hj)

end

/-! ## Along the requests -/

section
variable {a : Request} {f : List GroupCallParticipant → Procedure Reply}

theorem follows_refresh (r : RoomId) (u : UserId) (hf : ∀ l, (f l).Along (Follows roomId a)) :
    (refresh r u >>= f).Along (Follows roomId a) :=
  ⟨trivial, fun _ => ⟨trivial, fun _ => ⟨trivial, fun l => hf l⟩⟩⟩

theorem follows_joinRoom (r : RoomId) (u : UserId) (name : String)
    (hf : ∀ l, (f l).Along (Follows roomId a)) :
    (joinRoom r u name >>= f).Along (Follows roomId a) := by
  refine ⟨trivial, fun known => ?_⟩
  cases known with
  | some x => exact follows_refresh r u hf
  | none =>
    exact ⟨trivial, fun t => ⟨trivial, fun _ => ⟨trivial, fun _ => follows_refresh r u hf⟩⟩⟩

/-- A leave by a request that does not drop session ids. -/
theorem follows_leaveRoom (ha : a.drops = false) (r : RoomId) (u : UserId)
    (hf : ∀ l, (f l).Along (Follows roomId a)) :
    (leaveRoom r u >>= f).Along (Follows roomId a) := by
  refine ⟨fun h => absurd (ha.symm.trans h) Bool.false_ne_true, fun _ => ⟨trivial, fun _ =>
    ⟨trivial, fun remaining => ?_⟩⟩⟩
  change (Program.Along _ ((if remaining = [] then _ else _) >>= f))
  split_ifs
  · exact ⟨fun h => absurd (ha.symm.trans h) Bool.false_ne_true, fun _ => hf _⟩
  · exact hf _

theorem follows_leaveAndDrop (r : RoomId) (u : UserId) {k : Reply → Procedure Reply}
    (hk : ∀ b, (k b).Along (Follows roomId a)) :
    (leaveAndDrop r u >>= k).Along (Follows roomId a) := by
  refine ⟨fun _ hr => ⟨hr, hr, hr, hr⟩, fun _ => ⟨trivial, fun _ =>
    ⟨trivial, fun remaining => ?_⟩⟩⟩
  by_cases hremaining : remaining = []
  · subst hremaining
    exact ⟨fun _ hr => hr, fun _ => ⟨trivial, fun _ => hk _⟩⟩
  · change Program.Along _ (((if remaining = [] then _ else _) >>= fun remaining =>
      if remaining = [] then _ else _) >>= k)
    rw [if_neg hremaining]
    change Program.Along _ ((if remaining = [] then _ else _) >>= k)
    rw [if_neg hremaining]
    exact hk _

end

theorem follows_leaveEach {a : Request} (ha : a.drops = false) (u : UserId)
    {f : List (RoomId × List GroupCallParticipant) → Procedure Reply}
    (hf : ∀ l, (f l).Along (Follows roomId a)) (rooms : List RoomId)
    (results : List (RoomId × List GroupCallParticipant)) :
    (leaveEach u results rooms >>= f).Along (Follows roomId a) := by
  induction rooms generalizing results with
  | nil => exact hf results
  | cons r rooms ih =>
    rw [leaveEach, Program.bind_assoc]
    exact follows_leaveRoom ha r u fun remaining => ih _

theorem follows_leave {a : Request} (r : RoomId) (u : UserId) :
    (leaveAndDrop r u).Along (Follows roomId a) := by
  rw [← Program.bind_pure (leaveAndDrop r u)]
  exact follows_leaveAndDrop r u fun _ => trivial

theorem follows_releaseEach {a : Request} (u : UserId) (rooms : List RoomId) :
    (releaseEach u rooms).Along (Follows roomId a) := by
  induction rooms with
  | nil => trivial
  | cons r rooms ih => exact follows_leaveAndDrop r u fun _ => ih

theorem follows_getOrCreate {a : Request} {r : RoomId} {ttlSeconds : ℕ}
    {f : SessionId → Procedure Reply} (ha : r = roomId → a.asksKey roomId = true)
    (hf : ∀ id, (f id).Along (Follows roomId a)) :
    (getOrCreateCallSessionId r ttlSeconds >>= f).Along (Follows roomId a) := by
  refine ⟨trivial, fun existing => ?_⟩
  cases existing with
  | some id => exact hf id
  | none => exact ⟨trivial, fun id => ⟨ha, fun _ => hf id⟩⟩

theorem follows_handle (a : Request) : (handle a).Along (Follows roomId a) := by
  cases a with
  | gcJoin r u name => exact follows_joinRoom r u name fun _ => trivial
  | gcLeave r u =>
    refine ⟨trivial, fun present => ?_⟩
    cases present
    · trivial
    · exact follows_leave r u
  | evictFromGroupCall r u =>
    refine ⟨trivial, fun present => ?_⟩
    cases present
    · trivial
    · exact follows_leave r u
  | closeSocket rooms u active =>
    cases active
    · exact follows_releaseEach u rooms
    · trivial
  | lastSocketClosed u =>
    refine ⟨trivial, fun rooms => ⟨trivial, fun _ => ?_⟩⟩
    exact follows_leaveEach (f := fun _ => .done .done) rfl u (fun _ => trivial) rooms []
  | kick r u => exact follows_leaveRoom rfl r u fun _ => trivial
  | roomFinished r => exact ⟨trivial, fun _ => trivial⟩
  | update r u patch =>
    refine ⟨trivial, fun present => ?_⟩
    cases present
    · trivial
    · refine ⟨trivial, fun known => ?_⟩
      cases known
      · trivial
      · exact ⟨trivial, fun _ => ⟨trivial, fun _ => trivial⟩⟩
  | token r ttlSeconds => exact follows_getOrCreate (fun h => decide_eq_true h) fun _ => trivial
  | approve r ttlSeconds =>
    exact follows_getOrCreate (fun h => decide_eq_true h) fun _ => ⟨trivial, fun _ => trivial⟩
  | elapse ms => exact ⟨trivial, fun _ => trivial⟩

/-- What a step for a key leads to, beside its part in a leave. -/
def LocalDraw (roomId : RoomId) (a : Request) (q : Command)
    (next : q.Result → Procedure Reply) : Prop :=
  ∀ p i r store, calls.answer p.1.store q = (r, store) → DropsInTime roomId p i a q →
    FreshKeys roomId p.1.store p.2 → preDraw roomId i a q next p.1.store p.2 →
    Asserted (preDraw roomId) (postDraw roomId) i a store
      ((vacancies roomId).serve p.1 i a q (next r) p.2) (next r)

theorem LocalDraw.keepsFresh {a : Request} {q : Command} {next : q.Result → Procedure Reply}
    (h : LocalDraw roomId a q next) (hfollows : Follows roomId a q next) :
    KeepsFresh roomId a q next := by
  refine ⟨hfollows, fun p i r store hanswer hok hI hpre => asserted_fresh.2 ⟨?_, ?_⟩⟩
  · obtain ⟨rfl, rfl⟩ := Prod.ext_iff.1 hanswer
    exact hpre.1.served hfollows hok
  · exact h p i r store hanswer hok hI hpre.2

theorem asserted_draw_other {a : Request} (ha : a.asksKey roomId = false) {i : ℕ} {s : Redis}
    {h : Vacancies} (prog : Procedure Reply) :
    Asserted (preDraw roomId) (postDraw roomId) i a s h prog := by
  cases prog <;> exact fun h => absurd (ha.symm.trans h) Bool.false_ne_true

/-- The lookup of the session id, before a program that issues the key. -/
theorem draws_getOrCreate {a : Request} {ttlSeconds : ℕ} {f : SessionId → Procedure Reply}
    (ha : a.asksKey roomId = true) (hf : ∀ id, (f id).Along (LocalDraw roomId a))
    (hissue : ∀ id i s h, Fit h id →
      Asserted (preDraw roomId) (postDraw roomId) i a s h (f id)) :
    (getOrCreateCallSessionId roomId ttlSeconds >>= f).Along (LocalDraw roomId a) := by
  refine ⟨fun p i existing store h hok hI _ => ?_, fun existing => ?_⟩
  · cases existing with
    | none => exact fun _ => trivial
    | some id =>
      obtain ⟨session, hsession, rfl⟩ := getSession_eq_some (congrArg Prod.fst h)
      exact hissue _ _ _ _ (Fit.serve (not_empties (by simp) (by simp))
        ⟨hI.settled (hok.2 rfl), hI.stored _ hsession, hI.current (hok.2 rfl) _ hsession⟩)
  cases existing with
  | some id => exact hf id
  | none =>
    refine ⟨fun p i id store h _ hI _ _ => ?_, fun id =>
      ⟨fun p i _ store h hok hI hpre => ?_, fun _ => hf id⟩⟩
    · obtain rfl : p.1.store.nextId = id := congrArg Prod.fst h
      refine ⟨InsMap.get?_set_self _ _ _, fun hid => ?_⟩
      exact Nat.lt_irrefl _ (hI.written_lt _ hid)
    · have hid : id ∉ p.2.written := (hpre ha).2
      refine hissue _ _ _ _ ⟨owed_serve (not_empties (by simp) (by simp)) (hI.settled (hok.2 rfl)),
        mem_written_serve.2 (.inl ⟨_, rfl⟩), fun hold => ?_⟩
      obtain ⟨x, hx, -, hx'⟩ := hold.of_serve (not_empties (by simp) (by simp))
      exact hid (hx' ▸ hI.written x hx)

theorem keepsFresh_handle (a : Request) : (handle a).Along (KeepsFresh roomId a) := by
  suffices h : (handle a).Along (LocalDraw roomId a) from
    (h.and (follows_handle a)).imp fun q next h => h.1.keepsFresh h.2
  cases ha : a.asksKey roomId with
  | false =>
    exact Program.along_of_forall
      (fun q next p i r store _ _ _ _ => asserted_draw_other ha (next r)) _
  | true =>
    cases a with
    | token r ttlSeconds =>
      obtain rfl : r = roomId := of_decide_eq_true ha
      refine draws_getOrCreate ha (fun id => trivial) fun id i s h hfit _ key hkey => ?_
      cases hkey
      exact hfit
    | approve r ttlSeconds =>
      obtain rfl : r = roomId := of_decide_eq_true ha
      refine draws_getOrCreate ha (fun id => ⟨fun p i _ store h hok hI hpre => ?_,
        fun _ => trivial⟩) fun id i s h hfit _ key hkey => ?_
      · intro _ key hkey
        refine (hpre ha key ?_).serve (not_empties (by simp) (by simp))
        cases hkey
        rfl
      · cases hkey
        exact hfit
    | _ => cases ha

theorem asserted_draw_handle (i : ℕ) (a : Request) (s : Redis) (h : Vacancies) :
    Asserted (preDraw roomId) (postDraw roomId) i a s h (handle a) := by
  cases ha : a.asksKey roomId with
  | false => exact asserted_draw_other ha _
  | true =>
    cases a with
    | token r ttlSeconds | approve r ttlSeconds => exact fun _ => trivial
    | _ => cases ha

/-! ## Every step -/

section
variable {p : CallState × Vacancies} {i : ℕ} {a : Request} {q : Command}
  {next : q.Result → Procedure Reply}

/-- The session of the room after a step. -/
theorem session_answer {s : Redis} {session : Session}
    (h : (s.answer q).2.sessions.get? roomId = some session) :
    s.sessions.get? roomId = some session ∨ ∃ ttl, q = .setSession roomId session.id ttl := by
  cases q with
  | setSession r id ttl =>
    rw [Redis.answer, InsMap.get?_set] at h
    split_ifs at h with hr
    · cases h
      exact .inr ⟨ttl, by rw [hr]⟩
    · exact .inl h
  | delSession r =>
    rw [Redis.answer, InsMap.get?_delete] at h
    split_ifs at h
    exact .inl h
  | _ => exact .inl h

theorem FreshKeys.served (h : FreshKeys roomId p.1.store p.2)
    (hfollows : Follows roomId a q next) (hok : DropsInTime roomId p i a q)
    (hpre : preFresh roomId i a q next p.1.store p.2)
    (hpost : Asserted (preFresh roomId) (postFresh roomId) i a (p.1.store.answer q).2
      ((vacancies roomId).serve p.1 i a q (next (p.1.store.answer q).1) p.2)
      (next (p.1.store.answer q).1)) :
    FreshKeys roomId (p.1.store.answer q).2
      ((vacancies roomId).serve p.1 i a q (next (p.1.store.answer q).1) p.2) := by
  have hfit : ∀ x ∈ ((vacancies roomId).serve p.1 i a q (next (p.1.store.answer q).1) p.2).issued,
      x ∈ p.2.issued ∨ (x.emptied = p.2.emptied ∧ x.owed = false ∧ Fit ((vacancies roomId).serve
        p.1 i a q (next (p.1.store.answer q).1) p.2) x.key.callSessionId) := by
    intro x hx
    refine (mem_issued_vacancies hx).imp_right fun ⟨hx1, howed, ha, hdone⟩ => ⟨hx1, ?_⟩
    rw [howed]
    rw [hdone] at hpost ⊢
    have hfit := hpost.2 ha x.key rfl
    exact ⟨hfit.paid, hfit⟩
  refine ⟨fun x hx => ?_, fun x hx y hy hlt heq => ?_, fun x hx => ?_, fun hnil => ?_,
    fun hnil session hsession hold => ?_, fun session hsession => ?_, fun x hx => ?_,
    fun id hid => ?_, fun id j hj => ?_⟩
  · rcases hfit x hx with hx | ⟨-, hx, -⟩
    · exact h.paid x hx
    · exact hx
  · rcases hfit y hy with hy' | ⟨hy1, -, -, -, hnot⟩
    · rcases hfit x hx with hx' | ⟨hx1, -⟩
      · exact h.differ x hx' y hy' hlt heq
      · rw [hx1] at hlt
        exact absurd (h.issued_le y hy') (Nat.not_le_of_lt hlt)
    · rw [hy1] at hlt
      exact hnot ⟨x, hx, Nat.lt_of_lt_of_le hlt emptied_le, heq⟩
  · rcases hfit x hx with hx | ⟨hx, -⟩
    · exact Nat.le_trans (h.issued_le x hx) emptied_le
    · exact Nat.le_trans (Nat.le_of_eq hx) emptied_le
  · by_cases hq : q = .delSession roomId
    · change owes roomId p.1.store q p.2.owed = false
      rw [owes, if_pos hq]
    · obtain ⟨hempties, hnil'⟩ := leaving_eq_nil hpre.1 hfollows hok hq hnil
      exact owed_serve hempties (h.settled hnil')
  · by_cases hq : q = .delSession roomId
    · subst hq
      rw [Redis.answer, InsMap.get?_delete_self] at hsession
      cases hsession
    · obtain ⟨hempties, hnil'⟩ := leaving_eq_nil hpre.1 hfollows hok hq hnil
      have hold' := hold.of_serve hempties
      rcases session_answer hsession with hsession | ⟨ttl, rfl⟩
      · exact h.current hnil' session hsession hold'
      · obtain ⟨x, hx, -, hid⟩ := hold'
        exact (hpre.2 (hfollows rfl)).2 (hid ▸ h.written x hx)
  · refine mem_written_serve.2 ?_
    rcases session_answer hsession with hsession | hq
    · exact .inr (h.stored session hsession)
    · exact .inl hq
  · rcases hfit x hx with hx | ⟨-, -, hx⟩
    · exact mem_written_serve.2 (.inr (h.written x hx))
    · exact hx.written
  · refine Nat.lt_of_lt_of_le ?_ (nextId_le_answer _ _)
    rcases mem_written_serve.1 hid with ⟨ttl, rfl⟩ | hid
    · exact h.drawn_lt id i (hpre.2 (hfollows rfl)).1
    · exact h.written_lt id hid
  · rw [nextId_answer]
    change (if q = .randomUUID then p.2.drawn.set p.1.store.nextId i else p.2.drawn).get? id =
      some j at hj
    split_ifs at hj ⊢
    · rw [InsMap.get?_set] at hj
      split_ifs at hj with hid
      · exact Nat.lt_succ_of_le (Nat.le_of_eq hid)
      · exact Nat.lt_succ_of_lt (h.drawn_lt id j hj)
    · exact h.drawn_lt id j hj

/-- A step of another request than that of a draw. -/
theorem preDraw_other {j : ℕ} {b : Request} {q' : Command} {next' : q'.Result → Procedure Reply}
    {prog : Procedure Reply} (h : FreshKeys roomId p.1.store p.2)
    (hfollows : Follows roomId a q next) (hok : DropsInTime roomId p i a q)
    (hpre : preDraw roomId i a q next p.1.store p.2) (hj : Waits p.1 j b q' next') (hji : j ≠ i)
    (hprej : preDraw roomId j b q' next' p.1.store p.2) :
    preDraw roomId j b q' next' (p.1.store.answer q).2
      ((vacancies roomId).serve p.1 i a q prog p.2) := by
  intro hb
  have hprej' := hprej hb
  cases q' with
  | setSession r id ttl =>
    obtain ⟨hdrawn, hwritten⟩ := hprej'
    refine ⟨?_, fun hid => ?_⟩
    · change (if q = .randomUUID then p.2.drawn.set p.1.store.nextId i else p.2.drawn).get? id = _
      split_ifs
      · rw [InsMap.get?_set_ne _ _ (Nat.ne_of_lt (h.drawn_lt id j hdrawn))]
        exact hdrawn
      · exact hdrawn
    · rcases mem_written_serve.1 hid with ⟨ttl', rfl⟩ | hid
      · rw [(hpre (hfollows rfl)).1] at hdrawn
        exact hji (Option.some.inj hdrawn).symm
      · exact hwritten hid
  | saveKnock =>
    intro key hkey
    refine (hprej' key hkey).serve fun hempties => ?_
    have hget : p.1.tasks.get? j = some (b, .ask .saveKnock next') := hj
    refine (hok.1 hempties).2 j ?_ (b, .saveKnock) ?_ hb rfl
    · rw [InsMap.mem_keys, hget]
      rfl
    · rw [State.asking, hget]
      rfl
  | _ => trivial

end

/-! ## Every run -/

variable (roomId) in
/-- The runs in which the session of the room is dropped in time. -/
abbrev freshMachine : Machine (CallState × Vacancies) (Event Request) :=
  (calls.recorded (vacancies roomId) Redis.IsInitial).restrict
    (Guarded (fun _ _ => True) (DropsInTime roomId))

theorem received_goOn (s : CallState) (i : ℕ) (a : Request) (prog : Procedure Reply) :
    (s.goOn i a prog).received = s.received := by cases prog <;> rfl

/-- Who is leaving was received. -/
theorem leaving_lt {p : CallState × Vacancies} (hp : (freshMachine roomId).Reachable p) :
    p.1.received ∉ p.2.leaving := by
  suffices h : ∀ j ∈ p.2.leaving, j < p.1.received from fun hmem =>
    absurd (h _ hmem) (Nat.lt_irrefl _)
  refine hp.invariant (I := fun p => ∀ j ∈ p.2.leaving, j < p.1.received) ?_
    fun p e p' hp hlt hstep j hj => ?_
  · rintro p ⟨-, hp2⟩ j hj
    rw [hp2] at hj
    exact absurd hj List.not_mem_nil
  · rcases recorded_cases (Machine.restrict_step.1 hstep).2 with
      ⟨a, -, rfl⟩ | ⟨i, a, q, next, -, hget, rfl⟩
    · rw [received, received_goOn]
      exact Nat.lt_succ_of_lt (hlt j hj)
    · rw [served, received_goOn]
      rcases (mem_leaving_serve hj).2 with ⟨rfl, -⟩ | ⟨-, hj⟩
      · exact recorded_named hp.of_restrict hget
      · exact hlt j hj

/-- No key is issued for a room that has emptied before its session is dropped, and none that
    is issued for it then was issued before. -/
theorem freshKey_of_run {p : CallState × Vacancies} (hp : (freshMachine roomId).Reachable p) :
    (∀ x ∈ p.2.issued, x.owed = false) ∧
      ∀ x ∈ p.2.issued, ∀ y ∈ p.2.issued, x.emptied < y.emptied → x.key ≠ y.key := by
  -- The outline is to know that the name of a new request is not that of one that is leaving.
  have hnew : ((calls.recorded (vacancies roomId) Redis.IsInitial).restrict
      (Guarded (fun p _ => p.1.received ∉ p.2.leaving) (DropsInTime roomId))).Reachable p :=
    hp.restrict_imp fun p e hp hok => by
      cases e with
      | receive a => exact leaving_lt hp
      | serve i => exact hok
  have hout := Service.outline (P := Follows roomId) (FreshKeys roomId) (preFresh roomId)
    (postFresh roomId) ?_ keepsFresh_handle ?_ ?_ ?_ ?_ hnew
  · refine ⟨hout.holds.paid, fun x hx y hy hlt heq => ?_⟩
    exact hout.holds.differ x hx y hy hlt (congrArg CallE2eeKey.callSessionId heq)
  · intro s hs
    have hget : s.sessions.get? roomId = none := by
      rw [show s.sessions = ∅ from hs]
      rfl
    refine ⟨?_, ?_, ?_, fun _ => rfl, fun _ session h => ?_, fun session h => ?_, ?_, ?_,
      fun id j h => ?_⟩
    any_goals exact fun x hx => absurd hx List.not_mem_nil
    · rw [hget] at h
      cases h
    · rw [hget] at h
      cases h
    · cases h
  · intro p a hnew h
    exact ⟨h.holds, asserted_fresh.2 ⟨fun hmem => absurd hmem hnew, asserted_draw_handle _ a _ _⟩⟩
  · exact fun p a _ _ j b q next _ hpre => hpre
  · intro p i a q next hok h hi hpost
    exact h.holds.served (h.along i a _ hi).1 hok (h.asserted i a q next hi) hpost
  · intro p i a q next hok h hi j b q' next' hji hj
    have hpre := h.asserted i a q next hi
    have hprej := h.asserted j b q' next' hj
    exact ⟨hprej.1.other hok hj hji,
      preDraw_other h.holds (h.along i a _ hi).1 hok hpre.2 hj hji hprej.2⟩

namespace Sample

/-- A request, with so many of its commands. -/
def whole (i : ℕ) (a : Request) (n : ℕ) : List (Event Request) :=
  .receive a :: List.replicate n (.serve i)

/-- Ann joins the room, and gets a token. -/
def called : List (Event Request) :=
  whole 0 (.gcJoin 1 7 "ann") 7 ++ whole 1 (.token 1 600) 3

/-- She leaves it by the request `a`, in so many commands, and Bob gets a token. -/
def calledAgain (a : Request) (n : ℕ) : List (Event Request) :=
  called ++ whole 2 a n ++ whole 3 (.token 1 600) 1

/-- She leaves it herself, while a guest is approved; then Bob joins the room and gets a token. -/
def leftInTime : List (Event Request) :=
  called ++ whole 2 (.approve 1 600) 2 ++ whole 3 (.gcLeave 1 7) 2 ++ whole 4 (.gcJoin 1 8 "bob") 2 ++
    List.replicate 4 (.serve 3) ++ List.replicate 5 (.serve 4) ++ whole 5 (.token 1 600) 3

end Sample

section
open Sample

/-- A key that was issued before the room has emptied is issued after it. -/
def KeyAgain (p : CallState × Vacancies) : Prop :=
  ∃ x ∈ p.2.issued, ∃ y ∈ p.2.issued, x.emptied < y.emptied ∧ y.owed = true ∧ x.key = y.key

theorem keyAgain_of_issued {r : Option (CallState × Vacancies)}
    (h : r.map (fun p => p.2.issued) = some [⟨0, false, ⟨1, 0⟩⟩, ⟨1, true, ⟨1, 0⟩⟩]) :
    ∃ p, r = some p ∧ KeyAgain p := by
  obtain ⟨p, hp, hissued⟩ := Option.map_eq_some_iff.1 h
  refine ⟨p, hp, ?_⟩
  rw [KeyAgain, hissued]
  exact ⟨_, List.mem_cons_self, _, List.mem_cons_of_mem _ List.mem_cons_self, Nat.one_pos, rfl, rfl⟩

/-- Ann leaves the room as its last participant, by a kick or with her last socket, and the token
    that is issued then carries the key of the one before. -/
theorem same_key_after_kick :
    (∃ p, (calls.recorded (vacancies 1) Redis.IsInitial).run (.start empty, (vacancies 1).start)
      (calledAgain (.kick 1 7) 4) = some p ∧ KeyAgain p) ∧
    ∃ p, (calls.recorded (vacancies 1) Redis.IsInitial).run (.start empty, (vacancies 1).start)
      (calledAgain (.lastSocketClosed 7) 6) = some p ∧ KeyAgain p :=
  ⟨keyAgain_of_issued (by decide), keyAgain_of_issued (by decide)⟩

theorem freshKey_of_run_leftInTime :
    ∃ p, (freshMachine 1).run (.start empty, (vacancies 1).start) leftInTime = some p ∧
      (∀ x ∈ p.2.issued, x.owed = false) ∧
      ∀ x ∈ p.2.issued, ∀ y ∈ p.2.issued, x.emptied < y.emptied → x.key ≠ y.key := by
  obtain ⟨p, hp, hreachable⟩ := Machine.exists_reachable (by decide :
    ((freshMachine 1).run (.start empty, (vacancies 1).start) leftInTime).isSome)
    ⟨⟨empty, rfl, rfl⟩, rfl⟩
  exact ⟨p, hp, freshKey_of_run hreachable⟩

end

end OneToThree.CallRooms
