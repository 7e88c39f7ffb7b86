import OneToThree.Lib.Service

/-!
# The authorization of call signals

The relay of call signals between two users: its lookups in the database, one statement each,
and the decisions that an API instance keeps for the frames of relayed audio, together with
the routes by which a user blocks another one (`Lib.Service`).

A decision is computed by several statements and kept afterwards; a block takes the decisions
about its two users out of the cache of the instance that serves it.
-/

namespace OneToThree.CallAuth

abbrev UserId := ℕ
abbrev ChatId := ℕ
/-- An API instance, which has a cache of its own. -/
abbrev InstanceId := ℕ

structure Entry where
  authorized : Bool
  expiresAt : ℕ
  deriving DecidableEq

structure Store where
  users : List UserId
  chatMembers : List (ChatId × UserId)
  /-- Who blocks whom. -/
  userBlocks : List (UserId × UserId)
  /-- The caches of the instances: by sender and target. -/
  cache : InsMap (InstanceId × UserId × UserId) Entry
  now : ℕ

def DEFAULT_TTL_MS : ℕ := 30000
def MAX_RELAY_FRAME_BYTES : ℕ := 20 * 1024

inductive Statement
  | selectUser (userId : UserId)
  | insertBlock (blockerId blockedId : UserId)
  | deleteBlock (blockerId blockedId : UserId)
  | isBlocked (userA userB : UserId)
  | selectChats (userId : UserId)
  /-- A user is a member of one of the chats. -/
  | selectShared (userId : UserId) (chatIds : List ChatId)
  | getCachedCallAuth (inst : InstanceId) (senderId targetUserId : UserId)
  | setCachedCallAuth (inst : InstanceId) (senderId targetUserId : UserId) (authorized : Bool)
  | invalidateCallAuth (inst : InstanceId) (userA userB : UserId)
  /-- The expired entries of an instance are swept. -/
  | sweep (inst : InstanceId)
  /-- Other routes change who is a member of a chat. -/
  | setMembers (chatMembers : List (ChatId × UserId))
  | elapse (ms : ℕ)
  deriving DecidableEq

abbrev Statement.Result : Statement → Type
  | .selectUser _ | .isBlocked _ _ | .selectShared _ _ => Bool
  | .selectChats _ => List ChatId
  | .getCachedCallAuth _ _ _ => Option Bool
  | .insertBlock _ _ | .deleteBlock _ _ | .setCachedCallAuth _ _ _ _ | .invalidateCallAuth _ _ _
  | .sweep _ | .setMembers _ | .elapse _ => Unit

namespace Store

/-- One of the two blocks the other. -/
def isBlocked (s : Store) (userA userB : UserId) : Bool :=
  (userA, userB) ∈ s.userBlocks || (userB, userA) ∈ s.userBlocks

/-- The decision of an entry that has not expired; an expired entry is deleted. -/
def getCachedCallAuth (s : Store) (inst : InstanceId) (senderId targetUserId : UserId) :
    Option Bool × Store :=
  match s.cache.get? (inst, senderId, targetUserId) with
  | none => (none, s)
  | some entry =>
    if entry.expiresAt ≤ s.now then
      (none, { s with cache := s.cache.delete (inst, senderId, targetUserId) })
    else (some entry.authorized, s)

def setCachedCallAuth (s : Store) (inst : InstanceId) (senderId targetUserId : UserId)
    (authorized : Bool) : Store :=
  let entry : Entry := ⟨authorized, s.now + DEFAULT_TTL_MS⟩
  { s with cache := s.cache.set (inst, senderId, targetUserId) entry }

def invalidateCallAuth (s : Store) (inst : InstanceId) (userA userB : UserId) : Store :=
  { s with cache := (s.cache.delete (inst, userA, userB)).delete (inst, userB, userA) }

def sweep (s : Store) (inst : InstanceId) : Store :=
  { s with cache := ⟨s.cache.entries.filter fun e => !(e.1.1 = inst && e.2.expiresAt ≤ s.now),
      s.cache.nodup.sublist (List.filter_sublist.map _)⟩ }

def answer (s : Store) : (q : Statement) → q.Result × Store
  | .selectUser userId => (userId ∈ s.users, s)
  | .insertBlock blockerId blockedId =>
    ((), if (blockerId, blockedId) ∈ s.userBlocks then s
      else { s with userBlocks := s.userBlocks ++ [(blockerId, blockedId)] })
  | .deleteBlock blockerId blockedId =>
    ((), { s with userBlocks := s.userBlocks.filter (· ≠ (blockerId, blockedId)) })
  | .isBlocked userA userB => (s.isBlocked userA userB, s)
  | .selectChats userId => ((s.chatMembers.filter (·.2 = userId)).map (·.1), s)
  | .selectShared userId chatIds =>
    (s.chatMembers.any fun m => m.2 = userId && m.1 ∈ chatIds, s)
  | .getCachedCallAuth inst senderId targetUserId =>
    s.getCachedCallAuth inst senderId targetUserId
  | .setCachedCallAuth inst senderId targetUserId authorized =>
    ((), s.setCachedCallAuth inst senderId targetUserId authorized)
  | .invalidateCallAuth inst userA userB => ((), s.invalidateCallAuth inst userA userB)
  | .sweep inst => ((), s.sweep inst)
  | .setMembers chatMembers => ((), { s with chatMembers := chatMembers })
  | .elapse ms => ((), { s with now := s.now + ms })

end Store

/-! ## Requests and frames -/

/-- The kinds of the signals that the relay tells apart. -/
inductive SignalKind
  | relay_frame
  /-- `relay_offer` or `relay_answer` -/
  | relay_handshake
  | other
  deriving DecidableEq

inductive Request
  /-- `POST /users/me/block/:targetId` -/
  | postBlock (inst : InstanceId) (userId targetId : UserId)
  /-- `DELETE /users/me/block/:targetId` -/
  | deleteBlock (inst : InstanceId) (userId targetId : UserId)
  /-- A `webrtc_signal` frame. -/
  | webrtcSignal (inst : InstanceId) (userId targetUserId : UserId) (signalKind : SignalKind)
    (frameBytes : ℕ)
  | sweep (inst : InstanceId)
  /-- Other routes, and the clock. -/
  | setMembers (chatMembers : List (ChatId × UserId))
  | elapse (ms : ℕ)
  deriving DecidableEq

inductive Reply
  | ok
  | error (status : ℕ) (code : String)
  /-- The sender of a frame is told of an error. -/
  | rejected (code : String)
  /-- The signal is sent to its target. -/
  | forwarded
  deriving DecidableEq

abbrev Route := Program Statement Statement.Result Reply

abbrev statement (q : Statement) : Program Statement Statement.Result q.Result := Program.request q

def postBlock (inst : InstanceId) (userId targetId : UserId) : Route := do
  if targetId = userId then return .error 400 "CANNOT_BLOCK_SELF"
  else if !(← statement (.selectUser targetId)) then return .error 404 "USER_NOT_FOUND"
  else
    let _ ← statement (.insertBlock userId targetId)
    let _ ← statement (.invalidateCallAuth inst userId targetId)
    return .ok

def deleteBlock (inst : InstanceId) (userId targetId : UserId) : Route := do
  let _ ← statement (.deleteBlock userId targetId)
  let _ ← statement (.invalidateCallAuth inst userId targetId)
  return .ok

/-- A decision is kept for the frames of an audio relay, and followed. -/
def conclude (inst : InstanceId) (userId targetUserId : UserId) (signalKind : SignalKind)
    (authorized : Bool) (reply : Reply) : Route := do
  if signalKind = .other then return reply
  else
    let _ ← statement (.setCachedCallAuth inst userId targetUserId authorized)
    return reply

/-- The lookups of the relay. -/
def authorize (inst : InstanceId) (userId targetUserId : UserId) (signalKind : SignalKind) :
    Route := do
  let senderChatIds ← statement (.selectChats userId)
  if senderChatIds = [] then
    conclude inst userId targetUserId signalKind false (.rejected "NO_SHARED_CHAT")
  else if !(← statement (.selectShared targetUserId senderChatIds)) then
    conclude inst userId targetUserId signalKind false (.rejected "NO_SHARED_CHAT")
  else if ← statement (.isBlocked userId targetUserId) then
    conclude inst userId targetUserId signalKind false (.rejected "BLOCKED")
  else conclude inst userId targetUserId signalKind true .forwarded

def webrtcSignal (inst : InstanceId) (userId targetUserId : UserId) (signalKind : SignalKind)
    (frameBytes : ℕ) : Route := do
  if signalKind = .relay_frame then
    if MAX_RELAY_FRAME_BYTES < frameBytes then return .rejected "MESSAGE_TOO_LARGE"
    else match ← statement (.getCachedCallAuth inst userId targetUserId) with
      | some true => return .forwarded
      | some false => return .rejected "BLOCKED"
      | none => authorize inst userId targetUserId signalKind
  else authorize inst userId targetUserId signalKind

def handle : Request → Route
  | .postBlock inst userId targetId => postBlock inst userId targetId
  | .deleteBlock inst userId targetId => deleteBlock inst userId targetId
  | .webrtcSignal inst userId targetUserId signalKind frameBytes =>
    webrtcSignal inst userId targetUserId signalKind frameBytes
  | .sweep inst => do let _ ← statement (.sweep inst); return .ok
  | .setMembers chatMembers => do let _ ← statement (.setMembers chatMembers); return .ok
  | .elapse ms => do let _ ← statement (.elapse ms); return .ok

/-- The service of the API instances. -/
def service : Service Store Statement Statement.Result Request Reply where
  answer := Store.answer
  handle := handle

end OneToThree.CallAuth
