import Mathlib.Data.Int.Notation
import OneToThree.Lib.Transactions

/-!
# Direct chats

The routes that create the direct chats: `POST /chats` for a direct chat, and
`POST /guest/enter-as-me`, for a user who has an account and follows a link. They are
programs over the statements on the database (`Lib.Transactions`); what a transaction has
inserted is in the session of its request, and is seen by the others once it is committed.

* `POST /chats` takes an advisory lock on the pair, looks for a chat of the two, and inserts
  one where there is none, in one transaction. A chat with oneself is created likewise.
* `POST /guest/enter-as-me` looks for a chat of the two, takes a seat of the link, and inserts
  a chat in a transaction of its own.

A chat row is modelled with its member rows, a pair of a chat and a user being a key of
`chat_members`.
-/

namespace OneToThree.DirectChats

inductive ChatType
  | direct_e2e
  | group_e2e
  | public_open
  | channel
  deriving DecidableEq

structure Chat where
  id : ℕ
  type : ChatType
  name : Option String
  members : List String
  deriving DecidableEq

inductive InvitePurpose
  | call
  | chat
  deriving DecidableEq

/-- A row of `guest_invites`. -/
structure Invite where
  id : ℕ
  token : String
  purpose : InvitePurpose
  createdBy : String
  maxUses : ℤ
  usedCount : ℤ
  usedAt : Option ℕ
  expiresAt : ℕ
  revokedAt : Option ℕ

/-- What the routes read beside the chats, and the clock. -/
structure Tables where
  users : List String
  /-- Blocker and blocked. -/
  userBlocks : List (String × String)
  guestInvites : List Invite
  now : ℕ

structure Db where
  tables : Tables
  /-- The chats there were before. -/
  existing : List Chat
  /-- Those that were created and committed, in that order. -/
  created : List Chat
  /-- The advisory locks, with the requests whose transactions hold them. -/
  locks : List (ℤ × ℕ)
  /-- The id that is drawn next. -/
  nextId : ℕ

def Db.chats (db : Db) : List Chat := db.existing ++ db.created

/-- What a request has inserted in its transaction. -/
structure Session where
  chats : List Chat

/-! ## Statements -/

/-- A chat of exactly these two. -/
def Chat.between (c : Chat) (userA userB : String) : Bool :=
  c.type = .direct_e2e && userA ∈ c.members && userB ∈ c.members && c.members.length = 2

def Chat.isSelfChat (c : Chat) (userId : String) : Bool :=
  userId ∈ c.members && c.type = .direct_e2e && c.name = some "Saved Messages" &&
    c.members.length = 1

inductive Statement
  | selectUsers (ids : List String)
  | selectBlocks (meId : String) (targets : List String)
  | findSelfChat (userId : String)
  | findExistingDirectE2EBetween (userA userB : String)
  | advisoryLock (key : String)
  | insertChat (name : Option String)
  | insertMembers (chatId : ℕ) (ids : List String)
  | commit
  | findUnexpiredInviteByToken (token : String)
  | consumeInviteSeat (inviteId : ℕ)

abbrev Statement.Result : Statement → Type
  | selectUsers _ => List String
  | selectBlocks _ _ | consumeInviteSeat _ => Bool
  | findSelfChat _ | findExistingDirectE2EBetween _ _ => Option Chat
  | insertChat _ => ℕ
  | findUnexpiredInviteByToken _ => Option Invite
  | advisoryLock _ | insertMembers _ _ | commit => Unit

def Invite.unexpired (now : ℕ) (i : Invite) : Bool := i.revokedAt = none && now < i.expiresAt

/-- The guarded `UPDATE` that takes a seat of a link, on one row. -/
def Invite.consumed (now inviteId : ℕ) (i : Invite) : Option Invite :=
  if i.id = inviteId && i.unexpired now && i.usedCount < i.maxUses then
    some { i with
      usedCount := i.usedCount + 1
      usedAt := if i.maxUses ≤ i.usedCount + 1 then some now else i.usedAt }
  else none

/-- No other request holds the lock. -/
def Db.lockFree (db : Db) (request : ℕ) (key : ℤ) : Bool :=
  db.locks.all fun l => l.1 ≠ key || l.2 = request

/-- The locks when a transaction ends. -/
def Db.unlock (request : ℕ) (db : Db) : Db :=
  { db with locks := db.locks.filter fun l => l.2 ≠ request }

/-- The answer to a statement, where `hashtext` is the hash of the keys of the locks. -/
def answer (hashtext : String → ℤ) (request : ℕ) (db : Db) (tx : Session) :
    (q : Statement) → Option (q.Result × Db × Session)
  | .selectUsers ids => some (db.tables.users.filter (· ∈ ids), db, tx)
  | .selectBlocks meId targets =>
    some (db.tables.userBlocks.any fun b =>
      (b.1 = meId && b.2 ∈ targets) || (b.2 = meId && b.1 ∈ targets), db, tx)
  | .findSelfChat userId => some ((db.chats ++ tx.chats).find? (·.isSelfChat userId), db, tx)
  | .findExistingDirectE2EBetween userA userB =>
    some ((db.chats ++ tx.chats).find? (·.between userA userB), db, tx)
  | .advisoryLock key =>
    if db.lockFree request (hashtext key) then
      some ((), { db with locks := (hashtext key, request) :: db.locks }, tx)
    else none
  | .insertChat name =>
    some (db.nextId, { db with nextId := db.nextId + 1 },
      { tx with chats := tx.chats ++ [⟨db.nextId, .direct_e2e, name, []⟩] })
  | .insertMembers chatId ids =>
    some ((), db, { tx with
      chats := tx.chats.map fun c => if c.id = chatId then { c with members := c.members ++ ids }
        else c })
  | .commit => some ((), { db.unlock request with created := db.created ++ tx.chats }, ⟨[]⟩)
  | .findUnexpiredInviteByToken token =>
    some (db.tables.guestInvites.find? fun i => i.token = token && i.unexpired db.tables.now,
      db, tx)
  | .consumeInviteSeat inviteId =>
    some (db.tables.guestInvites.any fun i => (i.consumed db.tables.now inviteId).isSome,
      { db with tables := { db.tables with
        guestInvites := db.tables.guestInvites.map fun i =>
          (i.consumed db.tables.now inviteId).getD i } }, tx)

/-! ## Routes -/

inductive Request
  /-- `POST /chats` with the type `direct_e2e` -/
  | postChats (authId : String) (name : Option String) (member_ids : List String)
  /-- `POST /guest/enter-as-me` -/
  | enterAsMe (userId : String) (isGuest : Bool) (token : String)

inductive Reply
  | error (status : ℕ) (error : String)
  /-- 201, with the chat. -/
  | chat (id : ℕ) (name : Option String) (is_self : Bool) (member_ids : List String)
    (my_role : String)
  | entered (chat_id : ℕ) (existing : Bool)

abbrev Route (α : Type) := Program Statement Statement.Result α

abbrev statement (q : Statement) : Route q.Result := Program.request q

/-- The name of the lock on a pair, which is sorted. -/
def directKey (a b : String) : String :=
  let (lo, hi) := if b < a then (b, a) else (a, b)
  "direct_chat:" ++ lo ++ ":" ++ hi

/-- The id and the name of the chat with oneself. -/
def getOrCreateSelfChat (userId : String) : Route (ℕ × Option String) := do
  match ← statement (.findSelfChat userId) with
  | some existing => return (existing.id, existing.name)
  | none =>
    statement (.advisoryLock ("self_chat:" ++ userId))
    match ← statement (.findSelfChat userId) with
    | some raced =>
      statement .commit
      return (raced.id, raced.name)
    | none =>
      let chat ← statement (.insertChat (some "Saved Messages"))
      statement (.insertMembers chat [userId])
      statement .commit
      return (chat, some "Saved Messages")

def selfChat (authId : String) : Route Reply := do
  let (id, name) ← getOrCreateSelfChat authId
  return .chat id (some (name.getD "Saved Messages")) true [authId] "owner"

def anyBlockBetween (meId : String) (otherIds : List String) : Route Bool := do
  let targets := otherIds.filter (· ≠ meId)
  if targets = [] then return false
  else statement (.selectBlocks meId targets)

/-- The transaction of `POST /chats`, whose value is the id and the name of the chat. -/
def directTransaction (authId peerId : String) (name : Option String) :
    Route (ℕ × Option String) := do
  statement (.advisoryLock (directKey authId peerId))
  match ← statement (.findExistingDirectE2EBetween authId peerId) with
  | some raced =>
    statement .commit
    return (raced.id, raced.name)
  | none =>
    let chat ← statement (.insertChat name)
    statement (.insertMembers chat [authId, peerId])
    statement .commit
    return (chat, name)

def directChat (authId peerId : String) (name : Option String) : Route Reply := do
  let uniqueIds := [authId, peerId]
  let existingUsers ← statement (.selectUsers uniqueIds)
  if existingUsers.length ≠ uniqueIds.length then return .error 400 "UNKNOWN_MEMBER"
  else if ← anyBlockBetween authId uniqueIds then return .error 403 "BLOCKED"
  else
    let (id, name) ← directTransaction authId peerId name
    return .chat id name false uniqueIds "member"

def postChats (authId : String) (name : Option String) (member_ids : List String) : Route Reply :=
  match member_ids with
  | [peer] => if peer = authId then selfChat authId else directChat authId peer name
  | [_, _] =>
    if authId ∉ member_ids then return .error 400 "DIRECT_REQUIRES_AUTH_MEMBER"
    else
      match member_ids.find? (· ≠ authId) with
      | none => selfChat authId
      | some peer => directChat authId peer name
  | _ => return .error 400 "INVALID_BODY"

def findLiveInviteByToken (token : String) : Route (Option Invite) := do
  let row ← statement (.findUnexpiredInviteByToken token)
  return row.filter fun i => i.usedCount < i.maxUses

def enterAsMe (userId : String) (isGuest : Bool) (token : String) : Route Reply := do
  if isGuest then return .error 403 "GUEST_FORBIDDEN"
  else
    match ← findLiveInviteByToken token with
    | none => return .error 404 "INVITE_NOT_FOUND"
    | some invite =>
      if invite.purpose ≠ .chat then return .error 404 "INVITE_NOT_FOUND"
      else if invite.createdBy = userId then return .error 400 "OWN_LINK"
      else
        match ← statement (.findExistingDirectE2EBetween invite.createdBy userId) with
        | some existing => return .entered existing.id true
        | none =>
          if ← statement (.consumeInviteSeat invite.id) then
            let chat ← statement (.insertChat none)
            statement (.insertMembers chat [invite.createdBy, userId])
            statement .commit
            return .entered chat false
          else return .error 409 "INVITE_FULL"

def handle : Request → Route Reply
  | .postChats authId name member_ids => postChats authId name member_ids
  | .enterAsMe userId isGuest token => enterAsMe userId isGuest token

/-- The routes. From outside, the tables that they read change. -/
def routes (hashtext : String → ℤ) :
    Transactional Db Session Statement Tables Statement.Result Request Reply where
  session := ⟨[]⟩
  answer := answer hashtext
  rollback := Db.unlock
  world tables db := { db with tables := tables }
  handle := handle

/-- No chat was created yet, and no lock is held. -/
def Fresh (db : Db) : Prop := db.created = [] ∧ db.locks = []

end OneToThree.DirectChats
