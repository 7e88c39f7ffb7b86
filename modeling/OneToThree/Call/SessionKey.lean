import OneToThree.Call.Rooms
import OneToThree.Lib.Outline

/-!
# One media key for a call

Members and approved guests of a room are handed the key that the session id of the room
makes: the id that is there, or a new one. Looking for it and writing it are two commands.

* Who finds no id writes a new one, whether or not another request has done so meanwhile: of
  two that begin a call together, each goes on with its own key (`two_keys`).
* An id may expire during a call.

`oneKey_of_run`: along a run in which an id is written only where there is none, and is not
looked up when it has expired (`KeepsKey`), all that is issued for a room with no drop of its
session in between carries the same key.
-/

namespace OneToThree.CallRooms

open Service

/-- What was issued for the room, by the number of drops of its session before, if there was
    none from the request on. -/
structure Issues where
  drops : ℕ
  /-- How many drops there were before each request. -/
  starts : InsMap ℕ ℕ
  issued : List (ℕ × CallE2eeKey)

abbrev CallState := Service.State Redis Command Command.Result Request Reply

/-- The request is one for a key of the room. -/
def Request.asksKey (roomId : RoomId) : Request → Bool
  | .token roomId' _ | .approve roomId' _ => roomId' = roomId
  | _ => false

variable (roomId : RoomId)

def issues : History Redis Command Command.Result Request Reply Issues where
  start := ⟨0, ∅, []⟩
  receive s _ h := { h with starts := h.starts.set s.received h.drops }
  serve _ i a q prog h :=
    if q = .delSession roomId then { h with drops := h.drops + 1 }
    else
      match prog with
      | .done (.issued key) =>
        if a.asksKey roomId ∧ h.starts.get? i = some h.drops then
          { h with issued := h.issued ++ [(h.drops, key)] }
        else h
      | _ => h

/-- The steps that keep the session id of the room: it is written only where there is none,
    and not looked up when it has expired. -/
def KeepsKey (p : CallState × Issues) (_ : ℕ) (_ : Request) : Command → Prop
  | .setSession roomId' _ _ => roomId' = roomId → p.1.store.sessions.get? roomId = none
  | .getSession roomId' => roomId' = roomId →
    ∀ session ∈ p.1.store.sessions.get? roomId, p.1.store.now < session.expiresAt
  | _ => True

instance (p : CallState × Issues) (i : ℕ) (a : Request) : ∀ q, Decidable (KeepsKey roomId p i a q)
  | .setSession _ _ _ | .getSession _ => inferInstanceAs (Decidable (_ → _))
  | .hget _ _ | .hset _ _ _ | .hdel _ _ | .hgetall _ | .hexists _ _ | .delRoom _ | .expireRoom _
  | .sadd _ _ | .srem _ _ | .smembers _ | .delUserRooms _ | .expireUserRooms _ | .delSession _
  | .randomUUID | .dateNow | .saveKnock | .elapse _ => isTrue trivial

/-! ## What a request has of the key -/

/-- The key is that of the session of the room. -/
def Current (s : Redis) (key : CallE2eeKey) : Prop :=
  ∃ session, s.sessions.get? roomId = some session ∧ key = deriveCallE2eeKey roomId session.id

/-- Who is about to issue a key, with no drop since the request came, has that of the session. -/
def preKey : Annotation Redis Command Command.Result Request Reply Issues :=
  fun i a q next s h =>
    match q with
    | .saveKnock => a.asksKey roomId = true → h.starts.get? i = some h.drops →
      ∀ key, next () = .done (.issued key) → Current roomId s key
    | _ => True

def postKey (i : ℕ) (a : Request) (b : Reply) (s : Redis) (h : Issues) : Prop :=
  a.asksKey roomId = true → h.starts.get? i = some h.drops →
    ∀ key, b = .issued key → Current roomId s key

/-- What was issued in the current call has the key of the session, and what was issued in the
    same call the same key. -/
structure OneKey (s : Redis) (h : Issues) : Prop where
  current : ∀ x ∈ h.issued, x.1 = h.drops → Current roomId s x.2
  same : ∀ x ∈ h.issued, ∀ y ∈ h.issued, x.1 = y.1 → x.2 = y.2
  starts_le : ∀ i n, h.starts.get? i = some n → n ≤ h.drops
  issued_le : ∀ x ∈ h.issued, x.1 ≤ h.drops

abbrev KeepsIssues (a : Request) (q : Command) (next : q.Result → Procedure Reply) : Prop :=
  True ∧ calls.Local (issues roomId) (KeepsKey roomId) (OneKey roomId) (preKey roomId)
    (postKey roomId) a q next

variable {roomId}

theorem getSession_eq_some {s : Redis} {r : RoomId} {id : SessionId}
    (h : s.getSession r = some id) : ∃ session, s.sessions.get? r = some session ∧
      session.id = id := by
  rw [Redis.getSession] at h
  cases hget : s.sessions.get? r with
  | none => rw [hget] at h; cases h
  | some session =>
    rw [hget] at h
    dsimp only at h
    split_ifs at h
    exact ⟨session, rfl, Option.some.inj h⟩

section
variable {s : CallState} {i : ℕ} {a : Request} {q : Command} {prog : Procedure Reply} {h : Issues}

theorem starts_serve : ((issues roomId).serve s i a q prog h).starts = h.starts := by
  simp only [issues]
  split
  · rfl
  · split
    · split <;> rfl
    · rfl

theorem drops_serve : ((issues roomId).serve s i a q prog h).drops =
    if q = .delSession roomId then h.drops + 1 else h.drops := by
  simp only [issues]
  split
  · rfl
  · split
    · split <;> rfl
    · rfl

/-- What is issued by a step, if no drop came since the request. -/
theorem mem_issued_serve {x : ℕ × CallE2eeKey}
    (hx : x ∈ ((issues roomId).serve s i a q prog h).issued) : x ∈ h.issued ∨
      (q ≠ .delSession roomId ∧ a.asksKey roomId = true ∧ h.starts.get? i = some h.drops ∧
        prog = .done (.issued x.2) ∧ x.1 = h.drops) := by
  simp only [issues] at hx
  split at hx
  · exact .inl hx
  · rename_i hq
    split at hx
    · split at hx
      · rename_i ha
        rcases List.mem_append.1 hx with hx | hx
        · exact .inl hx
        · obtain rfl := List.mem_singleton.1 hx
          exact .inr ⟨hq, ha.1, ha.2, rfl, rfl⟩
      · exact .inl hx
    · exact .inl hx

end

/-- A request that is not for a key of the room issues none. -/
theorem along_other {a : Request} (ha : a.asksKey roomId = false) (prog : Procedure Reply) :
    prog.Along (KeepsIssues roomId a) := by
  refine Program.along_of_forall (fun q next => ⟨trivial, fun p i r store _ _ _ _ => ?_⟩) prog
  cases next r with
  | done b => exact fun h => absurd (ha.symm.trans h) Bool.false_ne_true
  | ask q' next' =>
    cases q' with
    | saveKnock => exact fun h => absurd (ha.symm.trans h) Bool.false_ne_true
    | _ => trivial

/-- The lookup of the session id of the room, before a program that issues the key. -/
theorem along_getOrCreate {a : Request} {ttlSeconds : ℕ} {f : SessionId → Procedure Reply}
    (hf : ∀ id, (f id).Along (KeepsIssues roomId a))
    (hissue : ∀ id i s h, Current roomId s (deriveCallE2eeKey roomId id) →
      Asserted (preKey roomId) (postKey roomId) i a s h (f id)) :
    (getOrCreateCallSessionId roomId ttlSeconds >>= f).Along (KeepsIssues roomId a) := by
  refine ⟨⟨trivial, fun p i existing store h _ _ _ => ?_⟩, fun existing => ?_⟩
  · cases existing with
    | none => trivial
    | some id =>
      obtain rfl : p.1.store = store := congrArg Prod.snd h
      obtain ⟨session, hsession, rfl⟩ := getSession_eq_some (congrArg Prod.fst h)
      exact hissue _ _ _ _ ⟨session, hsession, rfl⟩
  cases existing with
  | some id => exact hf id
  | none =>
    refine ⟨⟨trivial, fun _ _ _ _ _ _ _ _ => trivial⟩, fun id =>
      ⟨⟨trivial, fun p i r store h _ _ _ => ?_⟩, fun _ => hf id⟩⟩
    obtain rfl := congrArg Prod.snd h
    exact hissue _ _ _ _ ⟨_, InsMap.get?_set_self _ _ _, rfl⟩

theorem along_handle (a : Request) : (handle a).Along (KeepsIssues roomId a) := by
  cases ha : a.asksKey roomId with
  | false => exact along_other ha _
  | true =>
    cases a with
    | token r ttlSeconds =>
      obtain rfl : r = roomId := of_decide_eq_true ha
      refine along_getOrCreate (fun id => trivial) fun id i s h hcurrent _ _ key hkey => ?_
      cases hkey
      exact hcurrent
    | approve r ttlSeconds =>
      obtain rfl : r = roomId := of_decide_eq_true ha
      refine along_getOrCreate (fun id => ⟨⟨trivial, fun p i _ store h _ _ hpre => ?_⟩,
        fun _ => trivial⟩) fun id i s h hcurrent _ _ key hkey => ?_
      · obtain rfl : p.1.store = store := congrArg Prod.snd h
        intro hasks hstart key hkey
        rw [starts_serve, drops_serve, if_neg Command.noConfusion] at hstart
        cases hkey
        exact hpre hasks hstart _ rfl
      · cases hkey
        exact hcurrent
    | _ => cases ha

theorem asserted_handle (i : ℕ) (a : Request) (s : Redis) (h : Issues) :
    Asserted (preKey roomId) (postKey roomId) i a s h (handle a) := by
  cases a with
  | closeSocket joinedRooms userId hasActiveSocket =>
    change Asserted _ _ _ _ _ _ (closeSocket joinedRooms userId hasActiveSocket)
    rw [closeSocket]
    split_ifs
    · exact fun h => absurd h Bool.false_ne_true
    · cases joinedRooms with
      | nil => exact fun h => absurd h Bool.false_ne_true
      | cons r rooms => trivial
  | _ => trivial

/-! ## Every step -/

/-- The session of the room is written by few commands. -/
theorem sessions_answer {s : Redis} {q : Command}
    (hset : ∀ id ttl, q ≠ .setSession roomId id ttl) (hdel : q ≠ .delSession roomId) :
    (s.answer q).2.sessions.get? roomId = s.sessions.get? roomId := by
  cases q with
  | setSession r id ttl =>
    refine InsMap.get?_set_ne _ _ fun hr => ?_
    subst hr
    exact hset id ttl rfl
  | delSession r =>
    refine InsMap.get?_delete_ne _ fun hr => ?_
    subst hr
    exact hdel rfl
  | _ => rfl

/-- A key stays that of the session, as long as it is not dropped. -/
theorem Current.answer {p : CallState × Issues} {i : ℕ} {a : Request} {q : Command}
    (hok : KeepsKey roomId p i a q) (hdel : q ≠ .delSession roomId) {key : CallE2eeKey}
    (h : Current roomId p.1.store key) : Current roomId (p.1.store.answer q).2 key := by
  obtain ⟨session, hsession, hkey⟩ := h
  refine ⟨session, ?_, hkey⟩
  rw [sessions_answer ?_ hdel]
  · exact hsession
  · rintro id ttl rfl
    rw [hok rfl] at hsession
    cases hsession

theorem Current.unique {s : Redis} {key key' : CallE2eeKey} (h : Current roomId s key)
    (h' : Current roomId s key') : key = key' := by
  obtain ⟨session, hsession, rfl⟩ := h
  obtain ⟨session', hsession', rfl⟩ := h'
  cases hsession.symm.trans hsession'
  rfl

/-- The session is dropped. -/
theorem OneKey.drop {s s' : Redis} {h : Issues} (hs : OneKey roomId s h) :
    OneKey roomId s' { h with drops := h.drops + 1 } where
  current x hx hx1 := absurd (hs.issued_le x hx) (by rw [hx1]; exact Nat.not_succ_le_self _)
  same := hs.same
  starts_le i n hn := Nat.le_succ_of_le (hs.starts_le i n hn)
  issued_le x hx := Nat.le_succ_of_le (hs.issued_le x hx)

/-- The session is kept, and what is issued has its key. -/
theorem OneKey.issue {s s' : Redis} {h h' : Issues} (hs : OneKey roomId s h)
    (hstarts : h'.starts = h.starts) (hdrops : h'.drops = h.drops)
    (hkeep : ∀ key, Current roomId s key → Current roomId s' key)
    (hissued : ∀ x ∈ h'.issued, x ∈ h.issued ∨ (x.1 = h.drops ∧ Current roomId s' x.2)) :
    OneKey roomId s' h' := by
  have hcurrent : ∀ x ∈ h'.issued, x.1 = h.drops → Current roomId s' x.2 := by
    intro x hx hx1
    rcases hissued x hx with hx | ⟨-, hx⟩
    · exact hkeep _ (hs.current x hx hx1)
    · exact hx
  refine ⟨fun x hx hx1 => hcurrent x hx (hx1.trans hdrops), fun x hx y hy hxy => ?_,
    fun i n hn => ?_, fun x hx => ?_⟩
  · by_cases hx1 : x.1 = h.drops
    · exact (hcurrent x hx hx1).unique (hcurrent y hy (hxy.symm.trans hx1))
    · have hold : ∀ z ∈ h'.issued, z.1 = x.1 → z ∈ h.issued := fun z hz hzx =>
        (hissued z hz).resolve_right fun hz1 => hx1 (hzx.symm.trans hz1.1)
      exact hs.same x (hold x hx rfl) y (hold y hy hxy.symm) hxy
  · rw [hstarts] at hn
    rw [hdrops]
    exact hs.starts_le i n hn
  · rw [hdrops]
    rcases hissued x hx with hx | ⟨hx, -⟩
    · exact hs.issued_le x hx
    · exact Nat.le_of_eq hx

theorem OneKey.served {p : CallState × Issues} {i : ℕ} {a : Request} {q : Command}
    {next : q.Result → Procedure Reply} (h : OneKey roomId p.1.store p.2)
    (hok : KeepsKey roomId p i a q)
    (hpost : Asserted (preKey roomId) (postKey roomId) i a (p.1.store.answer q).2
      (calls.served (issues roomId) p i a q next).2 (next (p.1.store.answer q).1)) :
    OneKey roomId (p.1.store.answer q).2 (calls.served (issues roomId) p i a q next).2 := by
  rw [served_snd] at hpost ⊢
  by_cases hq : q = .delSession roomId
  · subst hq
    simp only [issues, if_true]
    exact h.drop
  · have hdrops : ((issues roomId).serve p.1 i a q (next (calls.answer p.1.store q).1)
        p.2).drops = p.2.drops := by rw [drops_serve, if_neg hq]
    refine h.issue starts_serve hdrops (fun key hkey => hkey.answer hok hq) fun x hx => ?_
    rcases mem_issued_serve hx with hold | ⟨_, hasks, hstart, hdone, hx1⟩
    · exact .inl hold
    refine .inr ⟨hx1, ?_⟩
    have hdone' : next (p.1.store.answer q).1 = .done (.issued x.2) := hdone
    rw [hdone'] at hpost
    refine hpost hasks ?_ x.2 rfl
    rw [starts_serve, hdrops]
    exact hstart

/-! ## Every run -/

/-- There is no session yet. -/
def Redis.IsInitial (s : Redis) : Prop := s.sessions = ∅

variable (roomId) in
/-- The runs that keep the session id of the room. -/
abbrev keyMachine : Machine (CallState × Issues) (Event Request) :=
  (calls.recorded (issues roomId) Redis.IsInitial).restrict
    (Guarded (fun _ _ => True) (KeepsKey roomId))

/-- What is issued for a room by requests with no drop of its session from the first one on
    carries the same key. -/
theorem oneKey_of_run {p : CallState × Issues} (hp : (keyMachine roomId).Reachable p) :
    ∀ x ∈ p.2.issued, ∀ y ∈ p.2.issued, x.1 = y.1 → x.2 = y.2 := by
  refine (Service.outline (P := fun _ _ _ => True) (OneKey roomId) (preKey roomId) (postKey roomId)
    ?_ along_handle ?_ ?_ ?_ ?_ hp).holds.same
  · intro s _
    refine ⟨fun x hx => ?_, fun x hx => ?_, fun i n hn => ?_, fun x hx => ?_⟩
    · exact absurd hx List.not_mem_nil
    · exact absurd hx List.not_mem_nil
    · exact absurd hn (by simp [issues])
    · exact absurd hx List.not_mem_nil
  · intro p a _ h
    refine ⟨⟨h.holds.current, h.holds.same, fun i n hn => ?_, h.holds.issued_le⟩,
      asserted_handle _ a _ _⟩
    have hstarts : (p.2.starts.set p.1.received p.2.drops).get? i = some n := hn
    rw [InsMap.get?_set] at hstarts
    split_ifs at hstarts
    · exact Nat.le_of_eq (Option.some.inj hstarts).symm
    · exact h.holds.starts_le i n hstarts
  · intro p a _ h j b q next hj hpre
    cases q with
    | saveKnock =>
      intro hasks hstart
      have hstarts : (p.2.starts.set p.1.received p.2.drops).get? j = some p.2.drops := hstart
      rw [InsMap.get?_set_ne _ _ (Nat.ne_of_lt hj)] at hstarts
      exact hpre hasks hstarts
    | _ => trivial
  · exact fun p i a q next hok h _ hpost => h.holds.served hok hpost
  · intro p i a q next hok h hi j b q' next' _ hj
    have hpre := h.asserted j b q' next' hj
    cases q' with
    | saveKnock =>
      intro hasks hstart key hkey
      rw [served_snd, starts_serve, drops_serve] at hstart
      split_ifs at hstart with hq
      · exact absurd (h.holds.starts_le j _ hstart) (Nat.not_succ_le_self _)
      · exact (hpre hasks hstart key hkey).answer hok hq
    | _ => trivial

namespace Sample

def empty : Redis := ⟨∅, ∅, ∅, 0, 0⟩

/-- Two members ask for a token when there is no id, and both write one. -/
def together : List (Event Request) :=
  [.receive (.token 1 600), .receive (.token 1 600), .serve 0, .serve 1, .serve 0, .serve 1,
    .serve 0, .serve 1]

/-- A member gets a token and a guest is approved; LiveKit reports the call finished, and another
    call begins. -/
def twoCalls : List (Event Request) :=
  [.receive (.token 1 600), .serve 0, .serve 0, .serve 0, .receive (.approve 1 600), .serve 1,
    .serve 1, .receive (.roomFinished 1), .serve 2, .receive (.token 1 600), .serve 3, .serve 3,
    .serve 3]

end Sample

section
open Sample

/-- Two tokens are issued for a room with no drop of its session, and their keys differ. -/
theorem two_keys : ∃ p, (calls.recorded (issues 1) Redis.IsInitial).Reachable p ∧
    ∃ x ∈ p.2.issued, ∃ y ∈ p.2.issued, x.1 = y.1 ∧ x.2 ≠ y.2 := by
  have hrun : ((calls.recorded (issues 1) Redis.IsInitial).run
      (.start empty, (issues 1).start) together).map (fun p => p.2.issued) =
      some [(0, ⟨1, 0⟩), (0, ⟨1, 1⟩)] := by decide
  obtain ⟨p, hp, hissued⟩ := Option.map_eq_some_iff.1 hrun
  refine ⟨p, Machine.reachable_of_run hp ⟨⟨empty, rfl, rfl⟩, rfl⟩, ?_⟩
  rw [hissued]
  exact ⟨_, List.mem_cons_self, _, List.mem_cons_of_mem _ List.mem_cons_self, rfl, by decide⟩

theorem oneKey_of_run_twoCalls :
    ∃ p, (keyMachine 1).run (.start empty, (issues 1).start) twoCalls = some p ∧
      ∀ x ∈ p.2.issued, ∀ y ∈ p.2.issued, x.1 = y.1 → x.2 = y.2 := by
  obtain ⟨p, hp, hreachable⟩ := Machine.exists_reachable (by decide :
    ((keyMachine 1).run (.start empty, (issues 1).start) twoCalls).isSome)
    ⟨⟨empty, rfl, rfl⟩, rfl⟩
  exact ⟨p, hp, oneKey_of_run hreachable⟩

end

end OneToThree.CallRooms
