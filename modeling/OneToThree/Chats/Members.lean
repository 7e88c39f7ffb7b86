import Mathlib.Data.List.Sort
import OneToThree.Lib.Service

/-!
# The members of a chat

One chat of a group type: its row, the rows of its members, and the routes that change
them, as programs over the statements and the transactions of the database
(`Lib.Service`). A transaction is one statement.

Each route reads the roles it checks in statements of their own, and acts on them later;
what a transaction does not check again may have changed meanwhile.
-/

namespace OneToThree.Chats

/-- The types of the chats with roles. -/
inductive ChatType
  | group_e2e
  | public_open
  | channel
  deriving DecidableEq

inductive ChatMemberRole
  | owner
  | admin
  | member
  deriving DecidableEq

inductive ChannelRole
  | owner
  | editor
  | subscriber
  deriving DecidableEq

structure Member where
  role : ChatMemberRole
  channelRole : Option ChannelRole
  joinedAt : ℕ
  deriving DecidableEq

structure Chat where
  inviteCode : Option String
  inviteSlug : Option String
  inviteOneTime : Bool
  keyEpoch : ℕ
  deriving DecidableEq

structure Store where
  /-- The row of the chat, unless it was deleted. -/
  chat : Option Chat
  members : InsMap String Member
  /-- The users whose rows were deleted. -/
  deleted : List String
  now : ℕ

/-! ## Statements -/

inductive JoinOutcome
  | consumed
  | already_member
  | joined
  /-- The transaction is rolled back. -/
  | failed
  deriving DecidableEq

inductive Statement
  /-- The chat that an invite code or slug is of. -/
  | selectInvite (code : String)
  | getChatById
  | getMemberRole (userId : String)
  /-- The transaction of a join, which consumes the code or not. -/
  | join (userId code : String) (consume : Bool)
  /-- The transaction by which an owner leaves. -/
  | leaveAsOwner (userId : String)
  /-- The transaction of any other leave. -/
  | leave (userId : String)
  /-- The transaction that hands the ownership over. -/
  | transfer (userId targetUserId : String)
  | updateRole (userId : String) (role : ChatMemberRole)
  | updateChannelRole (userId : String) (channelRole : ChannelRole)
  /-- The transaction of a kick. -/
  | kick (userId : String)
  /-- The transaction that deletes the chat. -/
  | deleteChat
  /-- The transaction that deletes the row of a user who ends their account. -/
  | deleteUser (userId : String)
  /-- The same for a purge, which sweeps the chats the user was read to be in. -/
  | purgeUser (userId : String) (inChat : Bool)
  /-- Other routes set the invite of the chat. -/
  | setInvite (code slug : Option String) (oneTime : Bool)
  | elapse (ms : ℕ)
  deriving DecidableEq

abbrev Statement.Result : Statement → Type
  | .selectInvite _ | .getChatById => Option Chat
  | .getMemberRole _ => Option ChatMemberRole
  | .join _ _ _ => JoinOutcome
  | .leaveAsOwner _ | .leave _ => Bool
  | .transfer _ _ | .updateRole _ _ | .updateChannelRole _ _ | .kick _ | .deleteChat
  | .deleteUser _ | .purgeUser _ _ | .setInvite _ _ _ | .elapse _ => Unit

/-- An admin comes before the others. -/
def rank (m : Member) : ℕ := if m.role = .admin then 0 else 1

/-- The order in which the members are asked to follow an owner: by rank, then by the time
    they joined. -/
def Before (a b : String × Member) : Prop :=
  rank a.2 < rank b.2 ∨ (rank a.2 = rank b.2 ∧ a.2.joinedAt ≤ b.2.joinedAt)

instance : DecidableRel Before := fun _ _ => inferInstanceAs (Decidable (_ ∨ _ ∧ _))

variable (type : ChatType)

namespace Store

def role (s : Store) (userId : String) : Option ChatMemberRole :=
  (s.members.get? userId).map (·.role)

/-- The rows of a user are updated, if there are any. -/
def update (s : Store) (userId : String) (f : Member → Member) : Store :=
  match s.members.get? userId with
  | none => s
  | some m => { s with members := s.members.set userId (f m) }

/-- A change of the members of a `group_e2e` chat bumps its key epoch. -/
def bumpKeyEpoch (s : Store) : Store :=
  if type = .group_e2e then
    { s with chat := s.chat.map fun chat => { chat with keyEpoch := chat.keyEpoch + 1 } }
  else s

/-- The chat is deleted if nobody is left. -/
def sweep (s : Store) : Store := if s.members.keys = [] then { s with chat := none } else s

/-- The members that may follow an owner who leaves, the first one first. -/
def candidates (s : Store) (userId : String) : List (String × Member) :=
  (s.members.entries.filter (·.1 ≠ userId)).insertionSort Before

/-- The first candidate that still exists. -/
def nominee (s : Store) (userId : String) : Option String :=
  ((s.candidates userId).find? fun c => s.members.has c.1).map (·.1)

/-- What makes a member the owner; the channel has a role of its own. -/
def promote (m : Member) : Member :=
  { m with role := .owner, channelRole := if type = .channel then some .owner else m.channelRole }

/-- What makes an owner an admin. -/
def demote (m : Member) : Member :=
  { m with role := .admin, channelRole := if type = .channel then some .editor else m.channelRole }

/-- Who joins by an invite is a subscriber of a channel. -/
def newMember (joinedAt : ℕ) : Member where
  role := .member
  channelRole := if type = .channel then some .subscriber else none
  joinedAt := joinedAt

def addMember (s : Store) (userId : String) (m : Member) : Store :=
  { s with members := s.members.set userId m }

/-- The row of a member is deleted. -/
def removeMember (s : Store) (userId : String) : Store :=
  { s with members := s.members.delete userId }

/-- What the transaction of a join writes, once the code is consumed. -/
def insertMember (s : Store) (userId : String) : JoinOutcome × Store :=
  if s.members.has userId then (.already_member, s)
  else (.joined, (s.addMember userId (newMember type s.now)).bumpKeyEpoch type)

def join (s : Store) (userId code : String) (consume : Bool) : JoinOutcome × Store :=
  match s.chat with
  | none => (if consume then .consumed else .failed, s)
  | some chat =>
    if consume ∧ chat.inviteCode ≠ some code then (.consumed, s)
    else if userId ∈ s.deleted then (.failed, s)
    else insertMember type
      { s with chat := some (if consume then { chat with inviteCode := none } else chat) } userId

def leaveAsOwner (s : Store) (userId : String) : Bool × Store :=
  match s.nominee userId with
  | none => (false, s)
  | some successor =>
    (true, ((s.update successor (promote type)).removeMember userId).bumpKeyEpoch type)

def leave (s : Store) (userId : String) : Bool × Store :=
  if s.members.has userId then
    if (s.removeMember userId).members.keys = [] then (true, (s.removeMember userId).sweep)
    else (true, (s.removeMember userId).bumpKeyEpoch type)
  else (false, s)

/-- The row of a user is deleted, and with it that of the member. -/
def deleteUser (s : Store) (userId : String) : Store :=
  { s.removeMember userId with deleted := userId :: s.deleted }

def answer (s : Store) : (q : Statement) → q.Result × Store
  | .selectInvite code =>
    (s.chat.filter fun chat => chat.inviteCode = some code ∨ chat.inviteSlug = some code, s)
  | .getChatById => (s.chat, s)
  | .getMemberRole userId => (s.role userId, s)
  | .join userId code consume => s.join type userId code consume
  | .leaveAsOwner userId => s.leaveAsOwner type userId
  | .leave userId => s.leave type userId
  | .transfer userId targetUserId =>
    ((), (s.update userId (demote type)).update targetUserId (promote type))
  | .updateRole userId role => ((), s.update userId fun m => { m with role := role })
  | .updateChannelRole userId channelRole =>
    ((), s.update userId fun m => { m with channelRole := some channelRole })
  | .kick userId => ((), (s.removeMember userId).bumpKeyEpoch type)
  | .deleteChat => ((), { s with chat := none, members := ∅ })
  | .deleteUser userId => ((), s.deleteUser userId)
  | .purgeUser userId inChat =>
    ((), if inChat then (s.deleteUser userId).sweep else s.deleteUser userId)
  | .setInvite code slug oneTime =>
    ((), { s with chat := s.chat.map fun chat =>
      { chat with inviteCode := code, inviteSlug := slug, inviteOneTime := oneTime } })
  | .elapse ms => ((), { s with now := s.now + ms })

end Store

/-! ## Routes -/

inductive Request
  /-- `POST /chats/join/:code` -/
  | join (userId code : String)
  /-- `POST /chats/:chatId/leave` -/
  | leave (userId : String)
  /-- `PATCH /chats/:chatId/members/:userId/role` -/
  | patchRole (userId targetUserId : String) (role : ChatMemberRole)
  /-- `PATCH /chats/:chatId/members/:userId/channel-role` -/
  | patchChannelRole (userId targetUserId : String) (channel_role : ChannelRole)
  /-- `DELETE /chats/:chatId/members/:userId` -/
  | kick (userId targetUserId : String)
  /-- `DELETE /chats/:chatId` -/
  | deleteChat (userId : String)
  /-- `DELETE /users/me/account` -/
  | deleteAccount (userId : String)
  /-- `adminPurgeUser` -/
  | adminPurgeUser (targetUserId : String)
  /-- Other routes, and the clock. -/
  | setInvite (code slug : Option String) (oneTime : Bool)
  | elapse (ms : ℕ)
  deriving DecidableEq

inductive Reply
  | error (status : ℕ) (code : String)
  | ok
  | joined (already_member : Bool)
  deriving DecidableEq

abbrev Route := Program Statement Statement.Result Reply

abbrev statement (q : Statement) : Program Statement Statement.Result q.Result := Program.request q

def join (userId code : String) : Route := do
  match ← statement (.selectInvite code) with
  | none => return .error 404 "INVITE_NOT_FOUND"
  | some chat =>
    if (← statement (.getMemberRole userId)).isSome then return .joined true
    else
      let viaCode := chat.inviteCode = some code
      match ← statement (.join userId code (chat.inviteOneTime && viaCode)) with
      | .consumed => return .error 404 "INVITE_NOT_FOUND"
      | .already_member => return .joined true
      | .joined => return .joined false
      | .failed => return .error 500 "INTERNAL"

/-- The leave of one who is not the owner, or is the last member. -/
def plainLeave (userId : String) : Route := do
  return if ← statement (.leave userId) then .ok else .error 404 "NOT_A_MEMBER"

def leave (userId : String) : Route := do
  if (← statement .getChatById).isNone then return .error 404 "CHAT_NOT_FOUND"
  else match ← statement (.getMemberRole userId) with
    | none => return .error 404 "NOT_A_MEMBER"
    | some role =>
      if role = .owner then
        if ← statement (.leaveAsOwner userId) then return .ok else plainLeave userId
      else plainLeave userId

def patchRole (userId targetUserId : String) (newRole : ChatMemberRole) : Route := do
  if (← statement .getChatById).isNone then return .error 400 "NOT_GROUP_CHAT"
  else
    let actorRole ← statement (.getMemberRole userId)
    let targetRole ← statement (.getMemberRole targetUserId)
    match actorRole, targetRole with
    | some actorRole, some targetRole =>
      if actorRole = .member then return .error 403 "FORBIDDEN"
      else if targetUserId = userId then return .error 400 "CANNOT_PATCH_SELF"
      else if newRole = .owner then
        if actorRole ≠ .owner then return .error 403 "FORBIDDEN"
        else
          let _ ← statement (.transfer userId targetUserId)
          return .ok
      else if targetRole = .owner then return .error 400 "TRANSFER_USE_OWNER_ROLE"
      else if actorRole = .admin ∧ targetRole ≠ .member then return .error 403 "FORBIDDEN"
      else
        let _ ← statement (.updateRole targetUserId newRole)
        return .ok
    | _, _ => return .error 404 "NOT_A_MEMBER"

def patchChannelRole (userId targetUserId : String) (channel_role : ChannelRole) : Route := do
  if channel_role = .owner then return .error 400 "INVALID_BODY"
  else if (← statement .getChatById).isNone ∨ type ≠ .channel then
    return .error 400 "NOT_CHANNEL_CHAT"
  else
    let actorRole ← statement (.getMemberRole userId)
    let targetRole ← statement (.getMemberRole targetUserId)
    match actorRole, targetRole with
    | some actorRole, some _ =>
      if actorRole ≠ .owner then return .error 403 "FORBIDDEN"
      else if targetUserId = userId then return .error 400 "CANNOT_PATCH_SELF"
      else
        let _ ← statement (.updateChannelRole targetUserId channel_role)
        return .ok
    | _, _ => return .error 404 "NOT_A_MEMBER"

def canKick (actor target : ChatMemberRole) : Bool :=
  match actor, target with
  | _, .owner => false
  | .owner, _ => true
  | .admin, .member => true
  | _, _ => false

def kick (userId targetUserId : String) : Route := do
  if (← statement .getChatById).isNone then return .error 400 "NOT_GROUP_CHAT"
  else if targetUserId = userId then return .error 400 "USE_LEAVE"
  else
    let actorRole ← statement (.getMemberRole userId)
    let targetRole ← statement (.getMemberRole targetUserId)
    match actorRole, targetRole with
    | some actorRole, some targetRole =>
      if !canKick actorRole targetRole then return .error 403 "FORBIDDEN"
      else
        let _ ← statement (.kick targetUserId)
        return .ok
    | _, _ => return .error 404 "NOT_A_MEMBER"

def deleteChat (userId : String) : Route := do
  if (← statement .getChatById).isNone then return .error 404 "CHAT_NOT_FOUND"
  else if (← statement (.getMemberRole userId)).isNone then return .error 403 "NOT_A_MEMBER"
  else if (← statement (.getMemberRole userId)) ≠ some .owner then return .error 403 "OWNER_ONLY"
  else
    let _ ← statement .deleteChat
    return .ok

def deleteAccount (userId : String) : Route := do
  let _ ← statement (.deleteUser userId)
  return .ok

def adminPurgeUser (targetUserId : String) : Route := do
  let membership ← statement (.getMemberRole targetUserId)
  let _ ← statement (.purgeUser targetUserId membership.isSome)
  return .ok

def handle : Request → Route
  | .join userId code => join userId code
  | .leave userId => leave userId
  | .patchRole userId targetUserId role => patchRole userId targetUserId role
  | .patchChannelRole userId targetUserId channel_role =>
    patchChannelRole type userId targetUserId channel_role
  | .kick userId targetUserId => kick userId targetUserId
  | .deleteChat userId => deleteChat userId
  | .deleteAccount userId => deleteAccount userId
  | .adminPurgeUser targetUserId => adminPurgeUser targetUserId
  | .setInvite code slug oneTime => do let _ ← statement (.setInvite code slug oneTime); return .ok
  | .elapse ms => do let _ ← statement (.elapse ms); return .ok

/-- The service of one chat. -/
def chat : Service Store Statement Statement.Result Request Reply where
  answer := Store.answer type
  handle := handle type

end OneToThree.Chats
