import OneToThree.Lib.Machine
import OneToThree.Group.Client

/-!
# The group over the network

The server of one group chat, any number of clients of its owners at work on it, and
the requests of all users, as one machine. A request is handled statement by
statement, whatever runs in between; its response may be delivered late or never, and
the client may give the request up, before or after the server has handled it.
-/

namespace OneToThree.Group

/-- What an owner's client sets out to do. -/
inductive Job
  | rotate (targetEpoch : ℕ)
  | rotateIfStale
  | deliver (targetUserId : UserId)
  | reconcile
  deriving DecidableEq

/-- The program of a job; what it returns or throws goes to the log only. -/
def Job.program (me : Session) : Job → Client Unit
  | .rotate targetEpoch => do let _ ← runRotation me targetEpoch
  | .rotateIfStale => do let _ ← rotateGroupKeyIfStale me
  | .deliver targetUserId => do let _ ← deliverGroupKeyToMember me targetUserId
  | .reconcile => do let _ ← reconcileGroupKeysForChat me

/-- A client at work: what it has left to do, and how many requests it has sent, the last
    of which is pending or not. -/
structure Task where
  user : UserId
  program : Client Unit
  sent : ℕ
  pending : Bool

/-- A request at the server: what is left of its route, and the task and the number of the
    request that its response is for, if anybody waits for it. -/
structure Handling where
  user : UserId
  request : Request
  program : Query request.Reply
  replyTo : Option (ℕ × ℕ)

structure Network where
  chat : Chat
  nextKey : GroupKey
  tasks : List Task
  handlings : List Handling

inductive NetworkEvent
  /-- A user joins, leaves, kicks or changes a role. -/
  | request (user : UserId) (r : Request)
  /-- A client sets out to do a job. -/
  | start (user : UserId) (job : Job)
  /-- A task sends the request it is at. -/
  | send (i : ℕ)
  /-- The trust gate answers a task. -/
  | trust (i : ℕ) (trusted : Bool)
  /-- A task generates a key. -/
  | generate (i : ℕ)
  /-- The server runs the next statement of a request. -/
  | serve (i : ℕ)
  /-- The response to a request arrives. -/
  | reply (i : ℕ)
  /-- A task gives its pending request up. -/
  | fail (i : ℕ)
  deriving DecidableEq

/-- A request that does not write a wrapped key. -/
def Request.IsMembership : Request → Bool
  | .putWrappedKey _ _ _ => false
  | _ => true

/-- What a client takes a lost request for. -/
def Request.lost : (r : Request) → r.Reply
  | .getChat | .putWrappedKey _ _ _ | .joinChat | .leaveChat | .kick _ | .patchRole _ _ =>
    .error .network

/-- The chat that `creator` has created with the members `ids`, each of whom has an ECDH
    key: the wraps of the creation are of version 2, and of the key number 0. -/
def createdChat (ecdh : UserId → Option Jwk) (id : ChatId) (creator : UserId) (creatorJwk : Jwk)
    (ids : List UserId) (h : ids.Nodup) : Chat :=
  let wrap (userId : UserId) := wrapGroupKeyForMemberWithCreatorEcdh creatorJwk
    ((ecdh userId).getD 0) 0 (some creatorJwk) none none
  { id
    keyEpoch := 0
    members :=
      { entries := ids.map fun userId =>
          (userId, ⟨if userId = creator then .owner else .member, some (wrap userId)⟩)
        nodup := by simpa [Function.comp_def] using h }
    deleted := false
    accepted := ids.map wrap
    lastClaim := 0 }

namespace Network

variable (ecdh : UserId → Option Jwk) (s : Network)

/-- A request reaches the server. -/
def submit (user : UserId) (r : Request) (replyTo : Option (ℕ × ℕ)) : Network :=
  { s with handlings := s.handlings ++ [⟨user, r, r.route ecdh user, replyTo⟩] }

/-- The task number `i` goes on with an answer. -/
def resume (i : ℕ) (task : Task) (program : Client Unit) : Network :=
  { s with tasks := s.tasks.set i { task with program, pending := false } }

/-- The statement that a request at the server runs next. -/
def nextStatement (i : ℕ) : Option Statement :=
  match s.handlings[i]? with
  | none => none
  | some handling =>
    match handling.program with
    | .ask q _ => some q
    | .done _ => none

end Network

/-- The machine of a group. -/
def group (ecdh : UserId → Option Jwk) : Machine Network NetworkEvent where
  init s := ∃ id creator creatorJwk ids, ∃ h : ids.Nodup, creator ∈ ids ∧
    ecdh creator = some creatorJwk ∧ (∀ userId ∈ ids, (ecdh userId).isSome) ∧
      s = ⟨createdChat ecdh id creator creatorJwk ids h, 1, [], []⟩
  step s
    | .request user r => if r.IsMembership then some (s.submit ecdh user r none) else none
    | .start user job =>
      match ecdh user with
      | none => none
      | some jwk => some { s with
          tasks := s.tasks ++ [⟨user, job.program ⟨s.chat.id, user, jwk⟩, 0, false⟩] }
    | .send i =>
      match s.tasks[i]? with
      | some task =>
        match task.program, task.pending with
        | .ask (.server r) _, false => some { s.submit ecdh task.user r (some (i, task.sent + 1)) with
            tasks := s.tasks.set i { task with sent := task.sent + 1, pending := true } }
        | _, _ => none
      | none => none
    | .trust i trusted =>
      match s.tasks[i]? with
      | some task =>
        match task.program with
        | .ask (.assertTrust _ _) next => some (s.resume i task (next trusted))
        | _ => none
      | none => none
    | .generate i =>
      match s.tasks[i]? with
      | some task =>
        match task.program with
        | .ask .generateKey next =>
          some { s.resume i task (next s.nextKey) with nextKey := s.nextKey + 1 }
        | _ => none
      | none => none
    | .serve i =>
      match s.handlings[i]? with
      | some handling =>
        match handling.program with
        | .ask q next =>
          let (result, chat) := q.exec s.chat
          some { s with
            chat
            handlings := s.handlings.set i { handling with program := next result } }
        | .done _ => none
      | none => none
    | .reply i =>
      match s.handlings[i]? with
      | some handling =>
        match handling.program, handling.replyTo with
        | .done response, some (j, n) =>
          match s.tasks[j]? with
          | some task =>
            match task.program with
            | .ask (.server r) next =>
              if h : handling.request = r then
                if task.pending ∧ task.sent = n then some (s.resume j task (next (h ▸ response)))
                else none
              else none
            | _ => none
          | none => none
        | _, _ => none
      | none => none
    | .fail i =>
      match s.tasks[i]? with
      | some task =>
        match task.program, task.pending with
        | .ask (.server r) next, true => some (s.resume i task (next r.lost))
        | _, _ => none
      | none => none

section
variable {ecdh : UserId → Option Jwk}

theorem serve_chat {s s' : Network} {i : ℕ} (hs : (group ecdh).step s (.serve i) = some s') :
    ∃ q, s.nextStatement i = some q ∧ s'.chat = (q.exec s.chat).2 := by
  simp only [group] at hs
  split at hs <;> try cases hs
  rename_i handling hi
  split at hs <;> cases hs
  rename_i q next hprogram
  exact ⟨q, by simp [Network.nextStatement, hi, hprogram], rfl⟩

/-- The rows are touched by the statements only. -/
theorem step_chat {s s' : Network} {ev : NetworkEvent} (hs : (group ecdh).step s ev = some s') :
    s'.chat = s.chat ∨
      ∃ i q, ev = .serve i ∧ s.nextStatement i = some q ∧ s'.chat = (q.exec s.chat).2 := by
  cases ev with
  | serve i =>
    obtain ⟨q, hq, hchat⟩ := serve_chat hs
    exact .inr ⟨i, q, rfl, hq, hchat⟩
  | request user r =>
    simp only [group] at hs
    split_ifs at hs
    exact .inl (Option.some.inj hs ▸ rfl)
  | start user job =>
    simp only [group] at hs
    split at hs <;> cases hs
    exact .inl rfl
  | send i | trust i _ | generate i | fail i =>
    simp only [group] at hs
    split at hs <;> try cases hs
    split at hs <;> cases hs
    exact .inl rfl
  | reply i =>
    simp only [group] at hs
    split at hs <;> try cases hs
    split at hs <;> try cases hs
    split at hs <;> try cases hs
    split at hs <;> try cases hs
    split_ifs at hs
    cases hs
    exact .inl rfl

end

end OneToThree.Group
