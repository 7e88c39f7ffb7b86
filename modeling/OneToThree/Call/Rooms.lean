import OneToThree.Lib.Service

/-!
# The rooms of group calls

What Redis keeps of the group calls: the participants of a room, the rooms of a user, and the
session id that the media key of a room is derived from. The functions on them are programs
over the single commands (`Lib.Service`); nothing else keeps two commands together.

* `rooms`: the functions that join and leave rooms and change the state of a participant.
* `calls`: the routes and events that use them, and those that hand out the media key: the
  member's token, and the grant of an approved guest.

The keys of the rooms do not expire here; the session id does.
-/

namespace OneToThree.CallRooms

abbrev RoomId := ℕ
abbrev UserId := ℕ
/-- A random id, by the number of its draw. -/
abbrev SessionId := ℕ

structure GroupCallParticipant where
  userId : UserId
  username : String
  joinedAt : ℕ
  isMuted : Bool
  isVideoOff : Bool
  deriving DecidableEq

structure Session where
  id : SessionId
  expiresAt : ℕ
  deriving DecidableEq

structure Redis where
  /-- `group-call:room:{roomId}`, without the rooms that have nobody. -/
  rooms : InsMap RoomId (InsMap UserId GroupCallParticipant)
  /-- `group-call:user:{userId}:rooms` -/
  userRooms : InsMap UserId (InsSet RoomId)
  /-- `call:session:{roomId}`, with the ids that have expired. -/
  sessions : InsMap RoomId Session
  /-- The next random id. -/
  nextId : SessionId
  /-- In milliseconds. -/
  now : ℕ

/-! ## Commands -/

inductive Command
  | hget (roomId : RoomId) (userId : UserId)
  | hset (roomId : RoomId) (userId : UserId) (participant : GroupCallParticipant)
  | hdel (roomId : RoomId) (userId : UserId)
  | hgetall (roomId : RoomId)
  | hexists (roomId : RoomId) (userId : UserId)
  | delRoom (roomId : RoomId)
  | expireRoom (roomId : RoomId)
  | sadd (userId : UserId) (roomId : RoomId)
  | srem (userId : UserId) (roomId : RoomId)
  | smembers (userId : UserId)
  | delUserRooms (userId : UserId)
  | expireUserRooms (userId : UserId)
  | getSession (roomId : RoomId)
  | setSession (roomId : RoomId) (id : SessionId) (ttlSeconds : ℕ)
  | delSession (roomId : RoomId)
  | randomUUID
  | dateNow
  /-- The knock of a guest is saved with the grant. -/
  | saveKnock
  | elapse (ms : ℕ)
  deriving DecidableEq

abbrev Command.Result : Command → Type
  | .hget _ _ => Option GroupCallParticipant
  | .hgetall _ => List GroupCallParticipant
  | .hexists _ _ => Bool
  | .smembers _ => List RoomId
  | .getSession _ => Option SessionId
  | .randomUUID | .dateNow => ℕ
  | .hset _ _ _ | .hdel _ _ | .delRoom _ | .expireRoom _ | .sadd _ _ | .srem _ _ | .delUserRooms _
  | .expireUserRooms _ | .setSession _ _ _ | .delSession _ | .saveKnock | .elapse _ => Unit

namespace Redis

/-- The hash of a room. -/
def room (s : Redis) (roomId : RoomId) : InsMap UserId GroupCallParticipant :=
  (s.rooms.get? roomId).getD ∅

/-- The set of the rooms of a user. -/
def roomsOf (s : Redis) (userId : UserId) : InsSet RoomId := (s.userRooms.get? userId).getD ∅

def setRoom (s : Redis) (roomId : RoomId) (room : InsMap UserId GroupCallParticipant) : Redis :=
  { s with rooms := s.rooms.set roomId room }

def setRoomsOf (s : Redis) (userId : UserId) (rooms : InsSet RoomId) : Redis :=
  { s with userRooms := s.userRooms.set userId rooms }

/-- The session id of a room that has not expired. -/
def getSession (s : Redis) (roomId : RoomId) : Option SessionId :=
  match s.sessions.get? roomId with
  | none => none
  | some session => if session.expiresAt ≤ s.now then none else some session.id

def answer (s : Redis) : (q : Command) → q.Result × Redis
  | .hget roomId userId => ((s.room roomId).get? userId, s)
  | .hset roomId userId participant =>
    ((), s.setRoom roomId ((s.room roomId).set userId participant))
  | .hdel roomId userId => ((), s.setRoom roomId ((s.room roomId).delete userId))
  | .hgetall roomId => ((s.room roomId).entries.map (·.2), s)
  | .hexists roomId userId => ((s.room roomId).has userId, s)
  | .delRoom roomId => ((), s.setRoom roomId ∅)
  | .sadd userId roomId => ((), s.setRoomsOf userId ((s.roomsOf userId).set roomId ()))
  | .srem userId roomId => ((), s.setRoomsOf userId ((s.roomsOf userId).delete roomId))
  | .smembers userId => ((s.roomsOf userId).keys, s)
  | .delUserRooms userId => ((), s.setRoomsOf userId ∅)
  | .expireRoom _ | .expireUserRooms _ | .saveKnock => ((), s)
  | .getSession roomId => (s.getSession roomId, s)
  | .setSession roomId id ttlSeconds =>
    ((), { s with sessions := s.sessions.set roomId ⟨id, s.now + ttlSeconds * 1000⟩ })
  | .delSession roomId => ((), { s with sessions := s.sessions.delete roomId })
  | .randomUUID => (s.nextId, { s with nextId := s.nextId + 1 })
  | .dateNow => (s.now, s)
  | .elapse ms => ((), { s with now := s.now + ms })

theorem room_setRoom (s : Redis) (r r' : RoomId) (m : InsMap UserId GroupCallParticipant) :
    (s.setRoom r m).room r' = if r' = r then m else s.room r' := by
  rw [room, setRoom, InsMap.get?_set]
  split_ifs <;> rfl

theorem roomsOf_setRoomsOf (s : Redis) (u u' : UserId) (m : InsSet RoomId) :
    (s.setRoomsOf u m).roomsOf u' = if u' = u then m else s.roomsOf u' := by
  rw [roomsOf, setRoomsOf, InsMap.get?_set]
  split_ifs <;> rfl

end Redis

/-! ## Rooms -/

abbrev Procedure (α : Type) := Program Command Command.Result α

abbrev command (q : Command) : Procedure q.Result := Program.request q

def getRoomParticipants (roomId : RoomId) : Procedure (List GroupCallParticipant) :=
  command (.hgetall roomId)

def isUserInRoom (roomId : RoomId) (userId : UserId) : Procedure Bool :=
  command (.hexists roomId userId)

/-- The end of a join. -/
def refresh (roomId : RoomId) (userId : UserId) : Procedure (List GroupCallParticipant) := do
  let _ ← command (.expireRoom roomId)
  let _ ← command (.expireUserRooms userId)
  getRoomParticipants roomId

def joinRoom (roomId : RoomId) (userId : UserId) (username : String) :
    Procedure (List GroupCallParticipant) := do
  match ← command (.hget roomId userId) with
  | some _ => refresh roomId userId
  | none =>
    let joinedAt ← command .dateNow
    let _ ← command (.hset roomId userId ⟨userId, username, joinedAt, false, false⟩)
    let _ ← command (.sadd userId roomId)
    refresh roomId userId

def leaveRoom (roomId : RoomId) (userId : UserId) : Procedure (List GroupCallParticipant) := do
  let _ ← command (.hdel roomId userId)
  let _ ← command (.srem userId roomId)
  let remaining ← getRoomParticipants roomId
  if remaining = [] then
    let _ ← command (.delRoom roomId)
    return remaining
  else return remaining

/-- The loop of `leaveAllRooms`, with its results so far. -/
def leaveEach (userId : UserId) (results : List (RoomId × List GroupCallParticipant)) :
    List RoomId → Procedure (List (RoomId × List GroupCallParticipant))
  | [] => return results
  | roomId :: roomIds => do
    let remaining ← leaveRoom roomId userId
    leaveEach userId (results ++ [(roomId, remaining)]) roomIds

def leaveAllRooms (userId : UserId) :
    Procedure (List (RoomId × List GroupCallParticipant)) := do
  let roomIds ← command (.smembers userId)
  let _ ← command (.delUserRooms userId)
  leaveEach userId [] roomIds

/-- What an update changes: the fields that it gives. -/
structure Patch where
  isMuted : Option Bool
  isVideoOff : Option Bool
  deriving DecidableEq

def Patch.apply (patch : Patch) (participant : GroupCallParticipant) : GroupCallParticipant :=
  { participant with
    isMuted := patch.isMuted.getD participant.isMuted
    isVideoOff := patch.isVideoOff.getD participant.isVideoOff }

def updateParticipantState (roomId : RoomId) (userId : UserId) (patch : Patch) :
    Procedure Unit := do
  match ← command (.hget roomId userId) with
  | none => return ()
  | some participant =>
    let _ ← command (.hset roomId userId (patch.apply participant))
    let _ ← command (.expireRoom roomId)
    return ()

/-- The calls of the functions. -/
inductive RoomCall
  | joinRoom (roomId : RoomId) (userId : UserId) (username : String)
  | leaveRoom (roomId : RoomId) (userId : UserId)
  | leaveAllRooms (userId : UserId)
  | updateParticipantState (roomId : RoomId) (userId : UserId) (patch : Patch)
  /-- The clock. -/
  | elapse (ms : ℕ)
  deriving DecidableEq

inductive RoomResult
  | participants (participants : List GroupCallParticipant)
  | left (rooms : List (RoomId × List GroupCallParticipant))
  | done
  deriving DecidableEq

def callRoom : RoomCall → Procedure RoomResult
  | .joinRoom roomId userId username => do
    return .participants (← joinRoom roomId userId username)
  | .leaveRoom roomId userId => do return .participants (← leaveRoom roomId userId)
  | .leaveAllRooms userId => do return .left (← leaveAllRooms userId)
  | .updateParticipantState roomId userId patch => do
    let _ ← updateParticipantState roomId userId patch
    return .done
  | .elapse ms => do let _ ← command (.elapse ms); return .done

/-- The service of the rooms. -/
def rooms : Service Redis Command Command.Result RoomCall RoomResult where
  answer := Redis.answer
  handle := callRoom

/-! ## Calls -/

def getOrCreateCallSessionId (roomId : RoomId) (ttlSeconds : ℕ) : Procedure SessionId := do
  match ← command (.getSession roomId) with
  | some existing => return existing
  | none =>
    let id ← command .randomUUID
    let _ ← command (.setSession roomId id ttlSeconds)
    return id

/-- The key that is made of the secret of the server, the room and the session id. It is
    symbolic: different rooms or ids give different keys. -/
structure CallE2eeKey where
  roomId : RoomId
  callSessionId : SessionId
  deriving DecidableEq

def deriveCallE2eeKey (roomId : RoomId) (callSessionId : SessionId) : CallE2eeKey :=
  ⟨roomId, callSessionId⟩

inductive Request
  /-- `group_call:join` -/
  | gcJoin (roomId : RoomId) (userId : UserId) (username : String)
  /-- `group_call:leave` -/
  | gcLeave (roomId : RoomId) (userId : UserId)
  /-- A socket closes that has joined the rooms. -/
  | closeSocket (joinedRooms : List RoomId) (userId : UserId) (hasActiveSocket : Bool)
  /-- The registry reports the last socket of a user closed. -/
  | lastSocketClosed (userId : UserId)
  /-- `POST /call/kick` -/
  | kick (roomId : RoomId) (targetId : UserId)
  /-- A member leaves the chat of the room. -/
  | evictFromGroupCall (chatId : RoomId) (userId : UserId)
  /-- LiveKit reports `room_finished`. -/
  | roomFinished (roomId : RoomId)
  /-- `group_call:mute` and `group_call:video_toggle` -/
  | update (roomId : RoomId) (userId : UserId) (patch : Patch)
  /-- `POST /call/token` -/
  | token (roomId : RoomId) (ttlSeconds : ℕ)
  /-- `POST /guest/knock/:id/approve` -/
  | approve (roomId : RoomId) (ttlSeconds : ℕ)
  /-- The clock. -/
  | elapse (ms : ℕ)
  deriving DecidableEq

inductive Reply
  | done
  | notInRoom
  | joined (participants : List GroupCallParticipant)
  /-- A token or a grant with its key. -/
  | issued (key : CallE2eeKey)
  deriving DecidableEq

def dropCallSession (roomId : RoomId) : Procedure Reply := do
  let _ ← command (.delSession roomId)
  return .done

/-- A user leaves a room, and the call ends if nobody is left. -/
def leaveAndDrop (roomId : RoomId) (userId : UserId) : Procedure Reply := do
  if (← leaveRoom roomId userId) = [] then dropCallSession roomId else return .done

def gcLeave (roomId : RoomId) (userId : UserId) : Procedure Reply := do
  if !(← isUserInRoom roomId userId) then return .notInRoom else leaveAndDrop roomId userId

def evictFromGroupCall (chatId : RoomId) (userId : UserId) : Procedure Reply := do
  if !(← isUserInRoom chatId userId) then return .notInRoom else leaveAndDrop chatId userId

/-- The loop of the handler of a closed socket. -/
def releaseEach (userId : UserId) : List RoomId → Procedure Reply
  | [] => return .done
  | roomId :: rooms => do
    let _ ← leaveAndDrop roomId userId
    releaseEach userId rooms

def closeSocket (joinedRooms : List RoomId) (userId : UserId) (hasActiveSocket : Bool) :
    Procedure Reply :=
  if hasActiveSocket then return .done else releaseEach userId joinedRooms

/-- Unlike the handlers above, does not drop the session ids of the rooms left empty. -/
def lastSocketClosed (userId : UserId) : Procedure Reply := do
  let _ ← leaveAllRooms userId
  return .done

/-- Nor does this one. -/
def kick (roomId : RoomId) (targetId : UserId) : Procedure Reply := do
  let _ ← leaveRoom roomId targetId
  return .done

def token (roomId : RoomId) (ttlSeconds : ℕ) : Procedure Reply := do
  let callSessionId ← getOrCreateCallSessionId roomId (ttlSeconds + 60 * 5)
  return .issued (deriveCallE2eeKey roomId callSessionId)

def approve (roomId : RoomId) (ttlSeconds : ℕ) : Procedure Reply := do
  let callSessionId ← getOrCreateCallSessionId roomId (ttlSeconds + 60 * 5)
  let _ ← command .saveKnock
  return .issued (deriveCallE2eeKey roomId callSessionId)

def handle : Request → Procedure Reply
  | .gcJoin roomId userId username => do return .joined (← joinRoom roomId userId username)
  | .gcLeave roomId userId => gcLeave roomId userId
  | .closeSocket joinedRooms userId hasActiveSocket =>
    closeSocket joinedRooms userId hasActiveSocket
  | .lastSocketClosed userId => lastSocketClosed userId
  | .kick roomId targetId => kick roomId targetId
  | .evictFromGroupCall chatId userId => evictFromGroupCall chatId userId
  | .roomFinished roomId => dropCallSession roomId
  | .update roomId userId patch => do
    if !(← isUserInRoom roomId userId) then return .notInRoom
    else
      let _ ← updateParticipantState roomId userId patch
      return .done
  | .token roomId ttlSeconds => token roomId ttlSeconds
  | .approve roomId ttlSeconds => approve roomId ttlSeconds
  | .elapse ms => do let _ ← command (.elapse ms); return .done

/-- The service of the calls. -/
def calls : Service Redis Command Command.Result Request Reply where
  answer := Redis.answer
  handle := handle

end OneToThree.CallRooms
