import OneToThree.Guest.Server

/-!
# Admitting a guest

The three routes that admit somebody by a link, each alone: `POST /guest/enter`,
`POST /guest/enter-as-me` and `POST /guest/knock/:id/approve`. A route makes its checks, takes a
seat of the link, and goes on with steps each of which may fail; it never gives the seat back.

* A plan says which of the statements and steps fail, in their order, and whether one that fails
  has taken effect all the same (`Fault`).
* A request that fails leaves the links as they were exactly where it does not lose a seat
  (`failed_keeps_invites_iff`): where it took one, all the steps after it are done (`Completes`).
-/

namespace OneToThree.Guest.Admission

inductive Purpose
  | call
  | chat
  deriving DecidableEq

/-- A row of `guest_invites`. -/
structure Invite extends GuestInvite where
  token : String
  purpose : Purpose
  usedAt : Option ℕ
  deriving DecidableEq

/-- Who makes a request. -/
structure Caller extends User where
  isGuest : Bool
  deriving DecidableEq

structure Config extends Guest.Config where
  sanitizeGuestNick : String → Option String
  /-- The text is a JWK on the curve P-256. -/
  isP256Jwk : String → Bool

/-- What the routes read and write: Redis, and the database. -/
structure Db where
  invites : InsMap String Invite
  knocks : InsMap String GuestKnock
  creatorKnocks : List (String × String)
  slots : List (String × String)
  seats : InsMap (String × Identity) String
  sessions : InsMap String ℕ
  members : List (String × String)
  /-- The names that are reserved or taken. -/
  handles : List String
  activeGuests : ℕ
  /-- `guest_max_active` and `guest_chat_ttl_hours` -/
  maxActiveGuests : ℕ
  chatTtlHours : ℕ
  /-- The guests created: who invited them, their nickname, and when they expire. -/
  guests : List (String × String × ℕ)
  /-- The direct chats, with their names. -/
  directs : List (String × String × ℕ)
  online : List String
  now : ℕ
  random : ℕ

/-! ## Statements -/

inductive Command
  | findUnexpiredInviteByToken (token : String)
  | nickCollides (nick : String)
  | countGuests
  | maxActiveGuests
  | consumeInviteSeat (inviteId : String)
  | guestChatTtlHours
  /-- The transaction of a guest and the chat with the host -/
  | createGuest (createdBy nick : String) (ttlHours : ℕ)
  | findExistingDirectE2EBetween (a b : String)
  /-- The transaction of a chat and its two members -/
  | createDirect (a b : String)
  | areOnline (userId : String)
  | getKnock (id : String)
  | selectMember (chatId userId : String)
  | getdelKnock (id : String)
  | dropCreatorKnock (creatorId id : String)
  | releaseKnockSlot (inviteId id : String)
  /-- The clock, the random bytes, and the signature of the token -/
  | signLivekitToken
  | getCallSession (roomId : String)
  | setCallSession (roomId : String)
  | deriveCallE2eeKey
  | setKnock (id : String) (payload : GuestKnock)
  | rememberSeatHolder (holder : SeatHolder)
  /-- The log of the guests, which is not modelled. -/
  | recordGuestJoined (roomId : String) (identity : Identity)
  deriving DecidableEq

abbrev Command.Answer : Command → Type
  | .findUnexpiredInviteByToken _ => Option (String × Invite)
  | .nickCollides _ | .consumeInviteSeat _ | .areOnline _ | .selectMember _ _ => Bool
  | .countGuests | .maxActiveGuests | .guestChatTtlHours | .setCallSession _ => ℕ
  | .createGuest _ _ _ => ℕ × ℕ
  | .findExistingDirectE2EBetween _ _ | .getCallSession _ => Option ℕ
  | .createDirect _ _ => ℕ
  | .getKnock _ | .getdelKnock _ => Option GuestKnock
  | .signLivekitToken => ℕ × Identity
  | .dropCreatorKnock _ _ | .releaseKnockSlot _ _ | .deriveCallE2eeKey | .setKnock _ _
  | .rememberSeatHolder _ | .recordGuestJoined _ _ => Unit

/-- What a statement answers, or the code of the error that it throws. -/
abbrev Command.Result (q : Command) : Type := Except String q.Answer

/-- The row after a seat was taken. -/
def Invite.take (invite : Invite) (now : ℕ) : Invite :=
  { invite with
    usedCount := invite.usedCount + 1
    usedAt := if invite.maxUses ≤ invite.usedCount + 1 then some now else invite.usedAt }

namespace Db

variable (db : Db)

/-- The guarded `UPDATE` that takes a seat. -/
def consumeInviteSeat (inviteId : String) : Bool × Db :=
  match db.invites.get? inviteId with
  | none => (false, db)
  | some invite =>
    if invite.HasSeat db.now then
      (true, { db with invites := db.invites.set inviteId (invite.take db.now) })
    else (false, db)

def createGuest (createdBy nick : String) (ttlHours : ℕ) : (ℕ × ℕ) × Db :=
  ((db.random, db.random + 1), { db with
    random := db.random + 2
    guests := db.guests ++ [(createdBy, nick, db.now + ttlHours * 3600000)] })

def createDirect (a b : String) : ℕ × Db :=
  (db.random, { db with random := db.random + 1, directs := db.directs ++ [(a, b, db.random)] })

def findDirect (a b : String) : Option ℕ :=
  (db.directs.find? fun (x, y, _) => (x = a ∧ y = b) ∨ (x = b ∧ y = a)).map fun (_, _, id) => id

def getKnock (redis : Bool) (id : String) : Option GuestKnock × Db :=
  match db.knocks.get? id with
  | none => (none, db)
  | some knock =>
    if knock.exp < db.now then
      (none, if redis then db else { db with knocks := db.knocks.delete id })
    else (some knock, db)

def answer (redis : Bool) : (q : Command) → q.Answer × Db
  | .findUnexpiredInviteByToken token =>
    (db.invites.entries.find? fun e =>
      e.2.token = token ∧ e.2.revokedAt = none ∧ db.now < e.2.expiresAt, db)
  | .nickCollides nick => (decide (nick ∈ db.handles), db)
  | .countGuests => (db.activeGuests, db)
  | .maxActiveGuests => (db.maxActiveGuests, db)
  | .consumeInviteSeat inviteId => db.consumeInviteSeat inviteId
  | .guestChatTtlHours => (db.chatTtlHours, db)
  | .createGuest createdBy nick ttlHours => db.createGuest createdBy nick ttlHours
  | .findExistingDirectE2EBetween a b => (db.findDirect a b, db)
  | .createDirect a b => db.createDirect a b
  | .areOnline userId => (decide (userId ∈ db.online), db)
  | .getKnock id => db.getKnock redis id
  | .selectMember chatId userId => (db.members.contains (chatId, userId), db)
  | .getdelKnock id => (db.knocks.get? id, { db with knocks := db.knocks.delete id })
  | .dropCreatorKnock creatorId id =>
    ((), { db with creatorKnocks := db.creatorKnocks.filter (· ≠ (creatorId, id)) })
  | .releaseKnockSlot inviteId id =>
    ((), { db with slots := db.slots.filter (· ≠ (inviteId, id)) })
  | .signLivekitToken => ((db.now / 1000, .guest db.random), { db with random := db.random + 1 })
  | .getCallSession roomId => (db.sessions.get? roomId, db)
  | .setCallSession roomId =>
    (db.random, { db with
      sessions := db.sessions.set roomId db.random, random := db.random + 1 })
  | .deriveCallE2eeKey => ((), db)
  | .setKnock id payload => ((), { db with knocks := db.knocks.set id payload })
  | .rememberSeatHolder holder =>
    ((), { db with seats := db.seats.set (holder.roomId, holder.identity) holder.inviteId })
  | .recordGuestJoined _ _ => ((), db)

end Db

/-- What happens to a statement or a step: an error may come after it has taken effect. -/
inductive Fault
  | fine
  | throws (applied : Bool) (code : String)
  deriving DecidableEq

/-- The database, and what happens to the statements to come; after them, all is fine. -/
structure State where
  db : Db
  plan : List Fault

def answer (redis : Bool) (s : State) (q : Command) : q.Result × State :=
  match s.plan with
  | .throws applied code :: plan =>
    (.error code, ⟨if applied then (s.db.answer redis q).2 else s.db, plan⟩)
  | plan => (.ok (s.db.answer redis q).1, ⟨(s.db.answer redis q).2, plan.tail⟩)

/-! ## Routes -/

inductive Reply
  | error (status : ℕ) (code : String)
  /-- The guest, the chat, and how long it lasts. -/
  | entered (guest chat ttlHours : ℕ)
  | chat (chat_id : ℕ) (existing : Bool)
  | okIdentity (identity : Identity)
  deriving DecidableEq

def Reply.isError : Reply → Bool
  | .error _ _ => true
  | _ => false

abbrev Route := Program Command Command.Result

/-- What the server replies where an error is not caught. -/
def thrown : Reply := .error 500 "INTERNAL_SERVER_ERROR"

/-- A statement whose errors are not caught. -/
def await {α : Type} (fail : α) (q : Command) (next : q.Answer → Route α) : Route α :=
  .ask q fun r => match r with
    | .ok a => next a
    | .error _ => .done fail

inductive Request
  | enter (token nickname public_key_jwk ecdh_public_key_jwk : String)
  | enterAsMe (user : Caller) (token : String)
  | approve (user : Caller) (id : String)
  deriving DecidableEq

/-- A request that is to take a seat, with what it goes on with. -/
inductive Ticket
  | enter (inviteId : String) (invite : Invite) (nick : String)
  | enterAsMe (inviteId : String) (invite : Invite) (user : Caller)
  | approve (user : Caller) (id : String) (knock : GuestKnock)

def Ticket.inviteId : Ticket → String
  | .enter inviteId _ _ => inviteId
  | .enterAsMe inviteId _ _ => inviteId
  | .approve _ _ knock => knock.inviteId

/-- The checks of a route: a reply, or a seat is to be taken. -/
abbrev Checks := Route (Except Reply Ticket)

def refuse (status : ℕ) (code : String) : Checks := .done (.error (.error status code))

/-- A statement of the checks. -/
def check (q : Command) (next : q.Answer → Checks) : Checks := await (.error thrown) q next

def findLiveInviteByToken (token : String) (next : Option (String × Invite) → Checks) : Checks :=
  check (.findUnexpiredInviteByToken token) fun row =>
    next (row.filter fun e => e.2.usedCount < e.2.maxUses)

variable (c : Config)

def tokenValid (token : String) : Bool := 16 ≤ token.length && token.length ≤ 128

def enterBodyValid (token nickname public_key_jwk ecdh_public_key_jwk : String) : Bool :=
  tokenValid token && (1 ≤ nickname.length && nickname.length ≤ 64) &&
    (1 ≤ public_key_jwk.length && public_key_jwk.length ≤ 4096) &&
    (1 ≤ ecdh_public_key_jwk.length && ecdh_public_key_jwk.length ≤ 4096)

def enterChecks (token nickname public_key_jwk ecdh_public_key_jwk : String) : Checks :=
  if !enterBodyValid token nickname public_key_jwk ecdh_public_key_jwk then
    refuse 400 "INVALID_BODY"
  else findLiveInviteByToken token fun row =>
    match row.filter fun e => e.2.purpose = .chat with
    | none => refuse 404 "INVITE_NOT_FOUND"
    | some (inviteId, invite) =>
      match c.sanitizeGuestNick nickname with
      | none => refuse 400 "INVALID_NICKNAME"
      | some nick => check (.nickCollides nick) fun taken =>
        if taken then refuse 409 "NICKNAME_TAKEN"
        else if !(c.isP256Jwk public_key_jwk && c.isP256Jwk ecdh_public_key_jwk) then
          refuse 400 "INVALID_KEY"
        else check .countGuests fun active => check .maxActiveGuests fun most =>
          if most ≤ active then refuse 503 "GUEST_CAPACITY"
          else .done (.ok (.enter inviteId invite nick))

def enterAsMeChecks (user : Caller) (token : String) : Checks :=
  if user.isGuest then refuse 403 "GUEST_FORBIDDEN"
  else if !tokenValid token then refuse 400 "INVALID_BODY"
  else findLiveInviteByToken token fun row =>
    match row.filter fun e => e.2.purpose = .chat with
    | none => refuse 404 "INVITE_NOT_FOUND"
    | some (inviteId, invite) =>
      if invite.createdBy = user.id then refuse 400 "OWN_LINK"
      else check (.findExistingDirectE2EBetween invite.createdBy user.id) fun existing =>
        match existing with
        | some chat => .done (.error (.chat chat true))
        | none => .done (.ok (.enterAsMe inviteId invite user))

/-- The checks of an approval from those of the host on. -/
def livekitChecks (ticket : Ticket) : Checks :=
  if !c.livekitReady then refuse 503 "LIVEKIT_NOT_CONFIGURED"
  else if c.apiSecret.length < 32 then refuse 503 "LIVEKIT_SECRET_TOO_SHORT"
  else .done (.ok ticket)

def approveChecks (user : Caller) (id : String) : Checks :=
  check (.getKnock id) fun knock =>
    match knock.filter fun knock => knock.status = .pending with
    | none => refuse 404 "KNOCK_NOT_FOUND"
    | some knock =>
      if knock.creatorId ≠ user.id then refuse 403 "FORBIDDEN"
      else match knock.chatId with
        | none => livekitChecks c (.approve user id knock)
        | some chatId => check (.selectMember chatId user.id) fun member =>
          if member then livekitChecks c (.approve user id knock)
          else refuse 403 "NOT_A_MEMBER"

/-- The attempts at a guest, whose name may be taken. -/
def createLoop (invite : Invite) (nick : String) (ttlHours : ℕ) : ℕ → Route Reply
  | 0 => .done (.error 500 "GUEST_CREATE_FAILED")
  | attempts + 1 => .ask (.createGuest invite.createdBy nick ttlHours) fun r =>
    match r with
    | .ok (guest, chat) => await thrown (.areOnline invite.createdBy) fun _ =>
      .done (.entered guest chat ttlHours)
    | .error code =>
      if code = "23505" then createLoop invite nick ttlHours attempts else .done thrown

/-- An approval from the call session on. -/
def saveGrant (id : String) (user : Caller) (knock : GuestKnock) (now : ℕ) (identity : Identity)
    (callSessionId : ℕ) : Route Reply :=
  await thrown .deriveCallE2eeKey fun _ =>
  await thrown (.setKnock id { knock with
    status := .approved
    grant := some (grantOf c.toConfig user.toUser knock now identity callSessionId) }) fun _ =>
  await thrown (.dropCreatorKnock knock.creatorId id) fun _ =>
  await thrown (.releaseKnockSlot knock.inviteId id) fun _ =>
  await thrown (.rememberSeatHolder ⟨knock.roomId, identity, knock.inviteId⟩) fun _ =>
  await thrown (.recordGuestJoined knock.roomId identity) fun _ => .done (.okIdentity identity)

/-- A route once its seat is taken. -/
def afterSeat : Ticket → Route Reply
  | .enter _ invite nick => await thrown .guestChatTtlHours fun ttlHours =>
    createLoop invite nick ttlHours 5
  | .enterAsMe _ invite user => .ask (.createDirect invite.createdBy user.id) fun r =>
    match r with
    | .ok chat => await thrown (.areOnline invite.createdBy) fun _ => .done (.chat chat false)
    | .error _ => .done (.error 500 "CHAT_CREATE_FAILED")
  | .approve user id knock => await thrown .signLivekitToken fun (now, identity) =>
    await thrown (.getCallSession knock.roomId) fun session =>
      match session with
      | some existing => saveGrant c id user knock now identity existing
      | none => await thrown (.setCallSession knock.roomId) fun drawn =>
        saveGrant c id user knock now identity drawn

/-- A route that could not take a seat. -/
def noSeat : Ticket → Route Reply
  | .enter _ _ _ | .enterAsMe _ _ _ => .done (.error 409 "INVITE_FULL")
  | .approve _ id knock => await thrown (.getdelKnock id) fun consumed =>
    let released := await thrown (.releaseKnockSlot knock.inviteId id) fun _ =>
      .done (.error 409 "INVITE_GONE")
    match consumed with
    | none => released
    | some p => await thrown (.dropCreatorKnock p.creatorId id) fun _ => released

def takeSeat (ticket : Ticket) : Route Reply :=
  await thrown (.consumeInviteSeat ticket.inviteId) fun taken =>
    if taken then afterSeat c ticket else noSeat ticket

def checks : Request → Checks
  | .enter token nickname public_key_jwk ecdh_public_key_jwk =>
    enterChecks c token nickname public_key_jwk ecdh_public_key_jwk
  | .enterAsMe user token => enterAsMeChecks user token
  | .approve user id => approveChecks c user id

def handle (req : Request) : Route Reply :=
  checks c req >>= fun r => match r with
    | .error reply => .done reply
    | .ok ticket => takeSeat c ticket

/-- A request, alone. -/
def serve (req : Request) (s : State) : Reply × State := (handle c req).exec (answer c.redis) s

/-! ## Seats -/

/-- No fault comes in so many statements. -/
def fineFor (n : ℕ) (plan : List Fault) : Bool := (plan.take n).all (· = .fine)

/-- One of the attempts at a guest goes through, after names that were taken, and so does the
    step after it. -/
def attemptsComplete : ℕ → List Fault → Bool
  | 0, _ => false
  | attempts + 1, .throws _ code :: plan => code = "23505" && attemptsComplete attempts plan
  | _ + 1, plan => fineFor 2 plan

/-- All the steps after the seat are done. -/
def Completes (s : State) : Ticket → Bool
  | .enter _ _ _ => fineFor 1 s.plan && attemptsComplete 5 s.plan.tail
  | .enterAsMe _ _ _ => fineFor 2 s.plan
  | .approve _ _ knock => fineFor (if s.db.sessions.has knock.roomId then 8 else 9) s.plan

/-- The statement that takes a seat takes effect. -/
def TakesSeat (s : State) (inviteId : String) : Prop :=
  (∀ code, s.plan.head? ≠ some (.throws false code)) ∧
    ∃ invite, s.db.invites.get? inviteId = some invite ∧ invite.HasSeat s.db.now

/-- A request loses a seat: it passes its checks and takes one, and the statement that took it, or
    a step after it, fails. -/
def LosesSeat (req : Request) (s : State) : Prop :=
  ∃ ticket s', (checks c req).exec (answer c.redis) s = (.ok ticket, s') ∧
    TakesSeat s' ticket.inviteId ∧
      ¬ (fineFor 1 s'.plan && Completes { s' with plan := s'.plan.tail } ticket)

section
variable {redis : Bool} {α : Type} {s : State}

theorem answer_fine (h : fineFor 1 s.plan) (q : Command) : answer redis s q =
    (.ok (s.db.answer redis q).1, ⟨(s.db.answer redis q).2, s.plan.tail⟩) := by
  obtain ⟨db, plan⟩ := s
  cases plan with
  | nil => rfl
  | cons fault plan =>
    cases fault with
    | fine => rfl
    | throws applied code => simp [fineFor] at h

variable (redis) in
theorem answer_throws (h : ¬ fineFor 1 s.plan) (q : Command) : ∃ applied code,
    s.plan.head? = some (.throws applied code) ∧ answer redis s q =
      (.error code, ⟨if applied then (s.db.answer redis q).2 else s.db, s.plan.tail⟩) := by
  obtain ⟨db, plan⟩ := s
  cases plan with
  | nil => exact absurd rfl h
  | cons fault plan =>
    cases fault with
    | fine => exact absurd rfl h
    | throws applied code => exact ⟨applied, code, rfl, rfl⟩

theorem fineFor_succ (n : ℕ) (plan : List Fault) :
    fineFor (n + 1) plan = (fineFor 1 plan && fineFor n plan.tail) := by
  cases plan with
  | nil => cases n <;> rfl
  | cons fault plan => simp [fineFor]

theorem exec_await {fail : α} {q : Command} {next : q.Answer → Route α} :
    (await fail q next).exec (answer redis) s =
      if fineFor 1 s.plan then
        (next (s.db.answer redis q).1).exec (answer redis)
          ⟨(s.db.answer redis q).2, s.plan.tail⟩
      else (fail, (answer redis s q).2) := by
  rw [await, Program.exec_ask]
  by_cases h : fineFor 1 s.plan
  · rw [if_pos h, answer_fine h]
  · obtain ⟨applied, code, -, hanswer⟩ := answer_throws redis h q
    rw [if_neg h, hanswer]
    rfl

/-- The statements that take no seat. -/
def Command.Keeps (q : Command) : Prop := ∀ inviteId, q ≠ .consumeInviteSeat inviteId

theorem invites_answer {q : Command} (hq : q.Keeps) (db : Db) :
    (db.answer redis q).2.invites = db.invites := by
  cases q with
  | consumeInviteSeat inviteId => exact absurd rfl (hq inviteId)
  | getKnock id =>
    simp only [Db.answer, Db.getKnock]
    split
    · rfl
    · split_ifs <;> rfl
  | _ => rfl

variable (redis) in
/-- A program that takes no seat keeps the links. -/
theorem invites_exec {p : Route α} (s : State) (hp : p.Along fun q _ => q.Keeps) :
    (p.exec (answer redis) s).2.db.invites = s.db.invites := by
  induction p generalizing s with
  | done a => rfl
  | ask q next ih =>
    rw [Program.exec_ask, ih _ _ (hp.2 _)]
    obtain ⟨db, plan⟩ := s
    rcases plan with _ | ⟨_ | ⟨_ | _, code⟩, plan⟩
    · exact invites_answer hp.1 db
    · exact invites_answer hp.1 db
    · rfl
    · exact invites_answer hp.1 db

theorem await_keeps {fail : α} {q : Command} {next : q.Answer → Route α} (hq : q.Keeps)
    (hnext : ∀ a, (next a).Along fun q _ => q.Keeps) :
    (await fail q next).Along fun q _ => q.Keeps := by
  refine ⟨hq, fun r => ?_⟩
  cases r with
  | ok a => exact hnext a
  | error code => trivial

theorem livekitChecks_keeps (ticket : Ticket) :
    (livekitChecks c ticket).Along fun q _ => q.Keeps := by
  rw [livekitChecks]
  split_ifs <;> trivial

theorem findLiveInviteByToken_keeps (token : String) {next : Option (String × Invite) → Checks}
    (hnext : ∀ row, (next row).Along fun q _ => q.Keeps) :
    (findLiveInviteByToken token next).Along fun q _ => q.Keeps :=
  await_keeps (fun _ => Command.noConfusion) fun _ => hnext _

/-- The checks take no seat. -/
theorem checks_keeps (req : Request) : (checks c req).Along fun q _ => q.Keeps := by
  cases req with
  | enter token nickname public_key_jwk ecdh_public_key_jwk =>
    rw [checks, enterChecks]
    split
    · trivial
    refine findLiveInviteByToken_keeps token fun row => ?_
    cases row.filter fun e => e.2.purpose = .chat with
    | none => trivial
    | some e =>
      cases hnick : c.sanitizeGuestNick nickname with
      | none => trivial
      | some nick =>
        refine await_keeps (fun _ => Command.noConfusion) fun taken => ?_
        split_ifs
        · trivial
        · trivial
        refine await_keeps (fun _ => Command.noConfusion) fun active =>
          await_keeps (fun _ => Command.noConfusion) fun most => ?_
        split_ifs <;> trivial
  | enterAsMe user token =>
    rw [checks, enterAsMeChecks]
    split_ifs
    · trivial
    · trivial
    refine findLiveInviteByToken_keeps token fun row => ?_
    cases row.filter fun e => e.2.purpose = .chat with
    | none => trivial
    | some e =>
      dsimp only
      split
      · trivial
      refine await_keeps (fun _ => Command.noConfusion) fun existing => ?_
      cases existing <;> trivial
  | approve user id =>
    refine await_keeps (fun _ => Command.noConfusion) fun knock => ?_
    cases knock.filter fun knock => knock.status = .pending with
    | none => trivial
    | some knock =>
      dsimp only
      split
      · trivial
      cases knock.chatId with
      | none => exact livekitChecks_keeps c _
      | some chatId =>
        refine await_keeps (fun _ => Command.noConfusion) fun member => ?_
        split
        · exact livekitChecks_keeps c _
        · trivial

theorem createLoop_keeps (invite : Invite) (nick : String) (ttlHours attempts : ℕ) :
    (createLoop invite nick ttlHours attempts).Along fun q _ => q.Keeps := by
  induction attempts with
  | zero => trivial
  | succ attempts ih =>
    refine ⟨fun _ => Command.noConfusion, fun r => ?_⟩
    cases r with
    | ok created => exact await_keeps (fun _ => Command.noConfusion) fun _ => trivial
    | error code =>
      dsimp only
      split
      · exact ih
      · trivial

theorem saveGrant_keeps (id : String) (user : Caller) (knock : GuestKnock) (now : ℕ)
    (identity : Identity) (callSessionId : ℕ) :
    (saveGrant c id user knock now identity callSessionId).Along fun q _ => q.Keeps :=
  await_keeps (fun _ => Command.noConfusion) fun _ =>
  await_keeps (fun _ => Command.noConfusion) fun _ =>
  await_keeps (fun _ => Command.noConfusion) fun _ =>
  await_keeps (fun _ => Command.noConfusion) fun _ =>
  await_keeps (fun _ => Command.noConfusion) fun _ =>
  await_keeps (fun _ => Command.noConfusion) fun _ => trivial

theorem afterSeat_keeps (ticket : Ticket) : (afterSeat c ticket).Along fun q _ => q.Keeps := by
  cases ticket with
  | enter inviteId invite nick =>
    exact await_keeps (fun _ => Command.noConfusion) fun _ => createLoop_keeps _ _ _ _
  | enterAsMe inviteId invite user =>
    refine ⟨fun _ => Command.noConfusion, fun r => ?_⟩
    cases r with
    | ok chat => exact await_keeps (fun _ => Command.noConfusion) fun _ => trivial
    | error code => trivial
  | approve user id knock =>
    refine await_keeps (fun _ => Command.noConfusion) fun signed =>
      await_keeps (fun _ => Command.noConfusion) fun session => ?_
    cases session with
    | some existing => exact saveGrant_keeps c _ _ _ _ _ _
    | none =>
      exact await_keeps (fun _ => Command.noConfusion) fun _ => saveGrant_keeps c _ _ _ _ _ _

theorem noSeat_keeps (ticket : Ticket) : (noSeat ticket).Along fun q _ => q.Keeps := by
  cases ticket with
  | enter inviteId invite nick => trivial
  | enterAsMe inviteId invite user => trivial
  | approve user id knock =>
    have hreleased : (await thrown (.releaseKnockSlot knock.inviteId id) fun _ =>
        .done (.error 409 "INVITE_GONE") : Route Reply).Along fun q _ => q.Keeps :=
      await_keeps (fun _ => Command.noConfusion) fun _ => trivial
    refine await_keeps (fun _ => Command.noConfusion) fun consumed => ?_
    cases consumed with
    | none => exact hreleased
    | some p => exact await_keeps (fun _ => Command.noConfusion) fun _ => hreleased

/-- Statements in a row fail where a fault comes in as many. -/
theorem isError_await {n : ℕ} {q : Command} {next : q.Answer → Route Reply}
    (hnext : ∀ a s, ((next a).exec (answer redis) s).1.isError = !fineFor n s.plan) (s : State) :
    ((await thrown q next).exec (answer redis) s).1.isError = !fineFor (n + 1) s.plan := by
  rw [exec_await, fineFor_succ n]
  split
  next h => rw [hnext, h, Bool.true_and]
  next h => rw [Bool.eq_false_iff.2 h, Bool.false_and]; rfl

theorem isError_createLoop (invite : Invite) (nick : String) (ttlHours attempts : ℕ) (s : State) :
    ((createLoop invite nick ttlHours attempts).exec (answer redis) s).1.isError =
      !attemptsComplete attempts s.plan := by
  induction attempts generalizing s with
  | zero => rfl
  | succ attempts ih =>
    have hfine : fineFor 1 s.plan → ((createLoop invite nick ttlHours (attempts + 1)).exec
        (answer redis) s).1.isError = !fineFor 2 s.plan := by
      intro h
      rw [createLoop, Program.exec_ask, answer_fine h, fineFor_succ, h, Bool.true_and]
      exact isError_await (n := 0) (fun _ _ => rfl) _
    obtain ⟨db, plan⟩ := s
    cases plan with
    | nil => exact hfine rfl
    | cons fault plan =>
      cases fault with
      | fine => exact hfine rfl
      | throws applied code =>
        have hexec : ∀ s', (Program.exec (answer redis) (if code = "23505" then
            createLoop invite nick ttlHours attempts else .done thrown : Route Reply)
              ⟨s', plan⟩).1.isError = !(code = "23505" && attemptsComplete attempts plan) := by
          intro s'
          by_cases hcode : code = "23505"
          · rw [if_pos hcode, ih, decide_eq_true hcode, Bool.true_and]
          · rw [if_neg hcode, decide_eq_false hcode, Bool.false_and]
            rfl
        exact hexec _

theorem isError_saveGrant (id : String) (user : Caller) (knock : GuestKnock) (now : ℕ)
    (identity : Identity) (callSessionId : ℕ) (s : State) :
    ((saveGrant c id user knock now identity callSessionId).exec (answer redis) s).1.isError =
      !fineFor 6 s.plan :=
  isError_await (fun _ => isError_await (fun _ => isError_await (fun _ => isError_await (fun _ =>
    isError_await (fun _ => isError_await (n := 0) fun _ _ => rfl))))) s

/-- Once it has its seat, a request succeeds where the steps to come are done. -/
theorem isError_afterSeat (ticket : Ticket) (s : State) :
    ((afterSeat c ticket).exec (answer redis) s).1.isError = !Completes s ticket := by
  cases ticket with
  | enter inviteId invite nick =>
    rw [afterSeat, exec_await, Completes]
    split
    next h => rw [isError_createLoop, h, Bool.true_and]
    next h => rw [Bool.eq_false_iff.2 h, Bool.false_and]; rfl
  | enterAsMe inviteId invite user =>
    rw [afterSeat, Program.exec_ask, Completes, fineFor_succ]
    by_cases h : fineFor 1 s.plan
    · rw [answer_fine h, h, Bool.true_and]
      exact isError_await (n := 0) (fun _ _ => rfl) _
    · obtain ⟨applied, code, -, hanswer⟩ := answer_throws redis h
        (.createDirect invite.createdBy user.id)
      rw [hanswer, Bool.eq_false_iff.2 h, Bool.false_and]
      rfl
  | approve user id knock =>
    have hread : ((s.db.answer redis .signLivekitToken).2.answer redis
        (.getCallSession knock.roomId)).1 = s.db.sessions.get? knock.roomId := rfl
    have hcount : (if s.db.sessions.has knock.roomId then 8 else 9) =
        (if s.db.sessions.has knock.roomId then 6 else 7) + 1 + 1 := by split <;> rfl
    rw [afterSeat, exec_await, Completes, hcount, fineFor_succ (_ + 1), fineFor_succ _ s.plan.tail]
    split
    next h =>
      rw [exec_await, h, Bool.true_and]
      split
      next h' =>
        rw [hread, show fineFor 1 s.plan.tail = true from h', Bool.true_and, InsMap.has]
        cases s.db.sessions.get? knock.roomId with
        | some existing => exact isError_saveGrant c _ _ _ _ _ _ _
        | none => exact isError_await (fun _ => isError_saveGrant c _ _ _ _ _ _) _
      next h' =>
        rw [show fineFor 1 s.plan.tail = false from Bool.eq_false_iff.2 h', Bool.false_and]
        rfl
    next h =>
      rw [Bool.eq_false_iff.2 h, Bool.false_and]
      rfl

/-- A seat that is taken changes the links. -/
theorem take_ne {db : Db} {inviteId : String} {invite : Invite}
    (hinvite : db.invites.get? inviteId = some invite) (hseat : invite.HasSeat db.now) :
    db.consumeInviteSeat inviteId =
        (true, { db with invites := db.invites.set inviteId (invite.take db.now) }) ∧
      db.invites.set inviteId (invite.take db.now) ≠ db.invites := by
  refine ⟨?_, fun hsame => ?_⟩
  · rw [Db.consumeInviteSeat, hinvite]
    exact if_pos hseat
  · have hget := congrArg (InsMap.get? · inviteId) hsame
    rw [InsMap.get?_set_self, hinvite] at hget
    have hcount := congrArg (fun i : Invite => i.usedCount) (Option.some.inj hget)
    dsimp only [Invite.take] at hcount
    omega

theorem consumeInviteSeat_of_not {db : Db} {inviteId : String}
    (h : ¬ ∃ invite, db.invites.get? inviteId = some invite ∧ invite.HasSeat db.now) :
    db.consumeInviteSeat inviteId = (false, db) := by
  rw [Db.consumeInviteSeat]
  split
  · rfl
  next invite hinvite => exact if_neg fun hseat => h ⟨invite, hinvite, hseat⟩

/-- Taking a seat, and going on: a failure keeps the links where no seat was taken, or where
    there is no failure. -/
theorem takeSeat_keeps_iff (redis : Bool) (ticket : Ticket) (s : State) :
    (((takeSeat c ticket).exec (answer redis) s).1.isError →
        ((takeSeat c ticket).exec (answer redis) s).2.db.invites = s.db.invites) ↔
      (TakesSeat s ticket.inviteId →
        (fineFor 1 s.plan && Completes { s with plan := s.plan.tail } ticket) = true) := by
  rw [takeSeat, exec_await]
  by_cases hseat : ∃ invite, s.db.invites.get? ticket.inviteId = some invite ∧
      invite.HasSeat s.db.now
  · obtain ⟨invite, hinvite, hhas⟩ := hseat
    obtain ⟨htake, hne⟩ := take_ne hinvite hhas
    by_cases h : fineFor 1 s.plan
    · -- The seat is taken, and the rest decides.
      have htakes : TakesSeat s ticket.inviteId := by
        refine ⟨fun code hcode => ?_, invite, hinvite, hhas⟩
        obtain ⟨db, plan⟩ := s
        obtain ⟨rest, rfl⟩ := List.head?_eq_some_iff.1 hcode
        simp [fineFor] at h
      rw [if_pos h, h, Bool.true_and, Db.answer, htake]
      dsimp only
      rw [if_pos rfl, isError_afterSeat, invites_exec redis _ (afterSeat_keeps c ticket)]
      have hcompletes : Completes ⟨{ s.db with
          invites := s.db.invites.set ticket.inviteId (invite.take s.db.now) }, s.plan.tail⟩
            ticket = Completes { s with plan := s.plan.tail } ticket := by
        cases ticket <;> rfl
      rw [hcompletes]
      constructor
      · intro hkeeps _
        by_contra hfails
        exact hne (hkeeps (by rw [Bool.eq_false_iff.2 hfails]; rfl))
      · intro hdone herror
        rw [hdone htakes] at herror
        cases herror
    · obtain ⟨applied, code, hhead, hanswer⟩ := answer_throws redis h
        (.consumeInviteSeat ticket.inviteId)
      rw [if_neg h, hanswer, Bool.eq_false_iff.2 h, Bool.false_and]
      cases applied with
      | false =>
        refine iff_of_true (fun _ => rfl) fun htakes => absurd hhead (htakes.1 code)
      | true =>
        refine iff_of_false (fun hkeeps => hne ?_) fun hno => Bool.false_ne_true (hno ?_)
        · have hsame := hkeeps rfl
          rw [if_pos rfl, Db.answer, htake] at hsame
          exact hsame
        · refine ⟨fun code' hcode' => ?_, invite, hinvite, hhas⟩
          rw [hhead] at hcode'
          cases hcode'
  · -- Nothing is taken, and the rest keeps the links.
    have htakes : ¬ TakesSeat s ticket.inviteId := fun h => hseat h.2
    refine iff_of_true (fun _ => ?_) fun h => absurd h htakes
    have hnone := consumeInviteSeat_of_not hseat
    split
    next h =>
      rw [Db.answer, hnone]
      dsimp only
      rw [if_neg Bool.false_ne_true, invites_exec redis _ (noSeat_keeps ticket)]
    next h =>
      obtain ⟨applied, code, -, hanswer⟩ := answer_throws redis h
        (.consumeInviteSeat ticket.inviteId)
      rw [hanswer, Db.answer, hnone]
      split <;> rfl

/-- **Failed admissions.** A request that fails leaves the links as they were, exactly where it
    does not lose a seat. -/
theorem failed_keeps_invites_iff (req : Request) (s : State) :
    ((serve c req s).1.isError → (serve c req s).2.db.invites = s.db.invites) ↔
      ¬ LosesSeat c req s := by
  have hchecks := invites_exec c.redis s (checks_keeps c req)
  rw [serve, handle, Program.exec_bind]
  rcases hexec : (checks c req).exec (answer c.redis) s with ⟨reply | ticket, s'⟩
  · rw [hexec] at hchecks
    refine iff_of_true (fun _ => hchecks) ?_
    rintro ⟨ticket, s'', hticket, -⟩
    rw [hexec] at hticket
    cases hticket
  · rw [hexec] at hchecks
    have hkeeps := takeSeat_keeps_iff c c.redis ticket s'
    rw [hchecks] at hkeeps
    refine hkeeps.trans ⟨?_, fun hnot htakes => ?_⟩
    · rintro hdone ⟨ticket', s'', hticket, htakes, hfails⟩
      rw [hexec] at hticket
      cases hticket
      exact hfails (hdone htakes)
    · by_contra hfails
      exact hnot ⟨ticket, s', hexec, htakes, hfails⟩

end

namespace Sample

def config : Config where
  toConfig := Guest.Sample.config
  sanitizeGuestNick nick := some nick
  isP256Jwk _ := true

/-- A link to a chat, for one guest. -/
def link : Invite where
  createdBy := "host"
  maxUses := 1
  usedCount := 0
  expiresAt := 1000
  revokedAt := none
  token := "0123456789abcdef"
  purpose := .chat
  usedAt := none

def db : Db where
  invites := InsMap.set ∅ "i" link
  knocks := ∅
  creatorKnocks := []
  slots := []
  seats := ∅
  sessions := ∅
  members := []
  handles := []
  activeGuests := 0
  maxActiveGuests := 10
  chatTtlHours := 24
  guests := []
  directs := []
  online := []
  now := 1
  random := 0

/-- The name of the guest is taken, five times in a row. -/
def collisions : State :=
  ⟨db, List.replicate 6 .fine ++ List.replicate 5 (.throws false "23505")⟩

end Sample

/-- The guest is not created, and the link admits nobody any more. -/
theorem collisions_burn_seat :
    (serve Sample.config (.enter "0123456789abcdef" "nick" "jwk" "jwk") Sample.collisions).1 =
        .error 500 "GUEST_CREATE_FAILED" ∧
      (serve Sample.config (.enter "0123456789abcdef" "nick" "jwk" "jwk")
          Sample.collisions).2.db.invites.get? "i" =
        some { Sample.link with usedCount := 1, usedAt := some 1 } ∧
      ¬ ((serve Sample.config (.enter "0123456789abcdef" "nick" "jwk" "jwk")
            Sample.collisions).1.isError →
          (serve Sample.config (.enter "0123456789abcdef" "nick" "jwk" "jwk")
            Sample.collisions).2.db.invites = Sample.collisions.db.invites) := by
  have hreply : (serve Sample.config (.enter "0123456789abcdef" "nick" "jwk" "jwk")
      Sample.collisions).1 = .error 500 "GUEST_CREATE_FAILED" := by decide +kernel
  have hinvite : (serve Sample.config (.enter "0123456789abcdef" "nick" "jwk" "jwk")
      Sample.collisions).2.db.invites.get? "i" =
        some { Sample.link with usedCount := 1, usedAt := some 1 } := by decide +kernel
  refine ⟨hreply, hinvite, fun hkeeps => ?_⟩
  rw [hkeeps (by rw [hreply]; rfl)] at hinvite
  exact absurd hinvite (by decide +kernel)

end OneToThree.Guest.Admission
