import OneToThree.Lib.Service

/-!
# The sessions of the sockets

How a socket is authenticated, by the session cookie or by a ticket, how the frames that it sends
are handled, and how events are delivered to it; with the requests that deny a session and revoke
a device (`Lib.Service`).

What a handler does up to its first wait is one command. The tokens are signed by the server, and
are given by what they say.
-/

namespace OneToThree.WsSession

abbrev UserId := ℕ
abbrev SocketId := ℕ
abbrev Jti := ℕ
abbrev DeviceId := ℕ

inductive Scope
  | ws
  | pending2fa
  deriving DecidableEq

structure Token where
  sub : UserId
  /-- A session has none. -/
  scope : Option Scope
  deviceId : Option DeviceId
  jti : Option Jti
  /-- In seconds. -/
  exp : ℕ
  deriving DecidableEq

/-- What a socket knows of its session, when it is authenticated. -/
structure WsAuthResult where
  user : UserId
  jti : Option Jti
  deviceId : Option DeviceId
  deriving DecidableEq

/-- The session that a token belongs to: that of the cookie, which the ticket carries. -/
def Token.session (t : Token) : WsAuthResult := ⟨t.sub, t.jti, t.deviceId⟩

structure Device where
  userId : UserId
  revoked : Bool
  deriving DecidableEq

structure Socket where
  authed : Option WsAuthResult
  lastRevalidateAt : ℕ
  /-- It is in the registry, which events are delivered by. -/
  registered : Bool
  /-- `readyState` is `OPEN`. Frames still arrive when the server has begun to close it. -/
  isOpen : Bool
  deriving DecidableEq

/-- What becomes of a frame before the session is looked at: its size, JSON and rate. -/
inductive Verdict
  | accepted
  /-- The answer is an error. -/
  | refused
  /-- The socket is closed with an error. -/
  | closes
  deriving DecidableEq

structure Frame where
  verdict : Verdict
  isPresencePing : Bool
  deriving DecidableEq

structure Store where
  /-- `jti:denylist:{jti}`, until when. -/
  denylist : InsMap Jti ℕ
  /-- `device:revoked:{device}`, until when. -/
  revokedMarks : InsMap DeviceId ℕ
  devices : InsMap DeviceId Device
  sockets : InsMap SocketId Socket
  redisUp : Bool
  /-- In milliseconds. -/
  now : ℕ

def REVALIDATE_INTERVAL_MS : ℕ := 15000

/-- The heartbeat. -/
def PING_INTERVAL : ℕ := 30000

/-- How long the mark of a revoked device stays. -/
def REVOKED_MARK_S : ℕ := 86460

/-! ## Commands -/

inductive Command
  /-- A socket is opened, under a name that was not used before. -/
  | connect (sock : SocketId)
  | jwtVerify (token : Token)
  /-- The token of the cookie is verified once more, for what it says of the session. -/
  | readToken (token : Token)
  | verifyTicket (token : Token)
  | isJtiDenied (jti : Jti)
  | revokedMark (deviceId : DeviceId)
  | assertDeviceActiveForUser (user : UserId) (deviceId : DeviceId)
  | selectUser
  | autoMigrate
  /-- The socket has its user and session. -/
  | authenticate (sock : SocketId) (session : WsAuthResult)
  | registerUserSocket (sock : SocketId)
  /-- The server begins to close a socket. -/
  | close (sock : SocketId)
  /-- A socket is gone. -/
  | disconnect (sock : SocketId)
  /-- A frame is handled up to the first wait. -/
  | handleMessage (sock : SocketId) (frame : Frame)
  /-- A frame is acted upon. -/
  | dispatch (sock : SocketId)
  /-- An event goes to the sockets of a user. -/
  | deliverLocal (user : UserId)
  | denyJti (jti : Jti) (exp : ℕ)
  | revokeDevice (deviceId : DeviceId)
  | markRevoked (deviceId : DeviceId)
  | reauthorizeDevice (deviceId : DeviceId)
  /-- Another read or write. -/
  | await
  | setRedis (up : Bool)
  | elapse (ms : ℕ)
  deriving DecidableEq

/-- How a frame goes on after its first part. -/
inductive Handled
  | ignored
  | refused
  /-- With the session of the socket, and whether it is to be revalidated. -/
  | handled (session : WsAuthResult) (revalidates : Bool)
  deriving DecidableEq

/-- A call of Redis that fails answers `none`, or `false`. -/
abbrev Command.Result : Command → Type
  | .connect _ | .jwtVerify _ | .readToken _ | .verifyTicket _ | .revokedMark _
  | .assertDeviceActiveForUser _ _ | .denyJti _ _ => Bool
  | .isJtiDenied _ => Option Bool
  | .handleMessage _ _ => Handled
  | .selectUser | .autoMigrate | .authenticate _ _ | .registerUserSocket _ | .close _
  | .disconnect _ | .dispatch _ | .deliverLocal _ | .revokeDevice _ | .markRevoked _
  | .reauthorizeDevice _ | .await | .setRedis _ | .elapse _ => Unit

namespace Store

def verifies (s : Store) (t : Token) : Bool := s.now < t.exp * 1000

def denied (s : Store) (jti : Jti) : Bool := (s.denylist.get? jti).any fun e => s.now < e

def active (s : Store) (user : UserId) (deviceId : DeviceId) : Bool :=
  (s.devices.get? deviceId).any fun row => row.userId = user && !row.revoked

def modifySocket (s : Store) (sock : SocketId) (f : Socket → Socket) : Store :=
  match s.sockets.get? sock with
  | some x => { s with sockets := s.sockets.set sock (f x) }
  | none => s

def modifyDevice (s : Store) (deviceId : DeviceId) (revoked : Bool) : Store :=
  match s.devices.get? deviceId with
  | some row => { s with devices := s.devices.set deviceId { row with revoked := revoked } }
  | none => s

/-- The sockets that an event for a user goes to. -/
def socketsOf (s : Store) (user : UserId) : List SocketId :=
  (s.sockets.entries.filter fun e =>
    e.2.registered && e.2.isOpen && e.2.authed.any (·.user = user)).map (·.1)

/-- The frame of an authenticated socket. -/
def handle (s : Store) (sock : SocketId) (x : Socket) (session : WsAuthResult) :
    Verdict → Handled × Store
  | .refused => (.refused, s)
  | .closes => (.refused, { s with sockets := s.sockets.set sock { x with isOpen := false } })
  | .accepted =>
    if REVALIDATE_INTERVAL_MS ≤ s.now - x.lastRevalidateAt then
      -- The clock is stamped before the answers are there.
      (.handled session true,
        { s with sockets := s.sockets.set sock { x with lastRevalidateAt := s.now } })
    else (.handled session false, s)

def answer (s : Store) : (q : Command) → q.Result × Store
  | .connect sock =>
    (!s.sockets.has sock, if s.sockets.has sock then s else
      { s with sockets := s.sockets.set sock ⟨none, s.now, false, true⟩ })
  | .jwtVerify t | .readToken t | .verifyTicket t => (s.verifies t, s)
  | .isJtiDenied jti => (if s.redisUp then some (s.denied jti) else none, s)
  | .revokedMark d => (s.redisUp && (s.revokedMarks.get? d).any fun e => s.now < e, s)
  | .assertDeviceActiveForUser user d => (s.active user d, s)
  | .authenticate sock session => ((), s.modifySocket sock fun x => { x with authed := some session })
  | .registerUserSocket sock => ((), s.modifySocket sock fun x => { x with registered := true })
  | .close sock => ((), s.modifySocket sock fun x => { x with isOpen := false })
  | .disconnect sock => ((), s.modifySocket sock fun x =>
      { x with authed := none, registered := false, isOpen := false })
  | .handleMessage sock frame =>
    match s.sockets.get? sock with
    | some x =>
      match x.authed with
      | some session => s.handle sock x session frame.verdict
      | none => (.ignored, s)
    | none => (.ignored, s)
  | .denyJti jti exp =>
    (s.redisUp, if s.redisUp then
      { s with denylist :=
          s.denylist.set jti (s.now + max 1 (exp - s.now / 1000) * 1000) } else s)
  | .revokeDevice d => ((), s.modifyDevice d true)
  | .markRevoked d =>
    ((), if s.redisUp then
      { s with revokedMarks := s.revokedMarks.set d (s.now + REVOKED_MARK_S * 1000) } else s)
  | .reauthorizeDevice d => ((), s.modifyDevice d false)
  | .setRedis up => ((), { s with redisUp := up })
  | .elapse ms => ((), { s with now := s.now + ms })
  | .selectUser | .autoMigrate | .dispatch _ | .deliverLocal _ | .await => ((), s)

section
variable {s : Store} {sock : SocketId} {d : DeviceId}

@[simp] theorem now_modifySocket (f : Socket → Socket) : (s.modifySocket sock f).now = s.now := by
  rw [modifySocket]
  split <;> rfl

@[simp] theorem devices_modifySocket (f : Socket → Socket) :
    (s.modifySocket sock f).devices = s.devices := by
  rw [modifySocket]
  split <;> rfl

@[simp] theorem now_modifyDevice (revoked : Bool) : (s.modifyDevice d revoked).now = s.now := by
  rw [modifyDevice]
  split <;> rfl

@[simp] theorem sockets_modifyDevice (revoked : Bool) :
    (s.modifyDevice d revoked).sockets = s.sockets := by
  rw [modifyDevice]
  split <;> rfl

theorem get?_modifySocket (f : Socket → Socket) (sock' : SocketId) :
    (s.modifySocket sock f).sockets.get? sock' =
      if sock' = sock then (s.sockets.get? sock').map f else s.sockets.get? sock' := by
  rw [modifySocket]
  split
  · rename_i x hx
    rw [InsMap.get?_set]
    split_ifs with hsock
    · rw [hsock, hx]
      rfl
    · rfl
  · rename_i hx
    split_ifs with hsock
    · rw [hsock, hx]
      rfl
    · rfl

theorem get?_modifyDevice (revoked : Bool) (d' : DeviceId) :
    (s.modifyDevice d revoked).devices.get? d' =
      if d' = d then (s.devices.get? d').map fun row => { row with revoked := revoked }
      else s.devices.get? d' := by
  rw [modifyDevice]
  split
  · rename_i row hrow
    rw [InsMap.get?_set]
    split_ifs with hd
    · rw [hd, hrow]
      rfl
    · rfl
  · rename_i hrow
    split_ifs with hd
    · rw [hd, hrow]
      rfl
    · rfl

end

/-- What becomes of a frame. -/
theorem handleMessage_cases (s : Store) (sock : SocketId) (frame : Frame) :
    s.answer (.handleMessage sock frame) = (.ignored, s) ∨
    ∃ x session, s.sockets.get? sock = some x ∧ x.authed = some session ∧
      (s.answer (.handleMessage sock frame) = (.refused, s) ∨
      s.answer (.handleMessage sock frame) =
        (.refused, { s with sockets := s.sockets.set sock { x with isOpen := false } }) ∨
      (frame.verdict = .accepted ∧ s.answer (.handleMessage sock frame) = (.handled session true,
        { s with sockets := s.sockets.set sock { x with lastRevalidateAt := s.now } })) ∨
      (frame.verdict = .accepted ∧ s.now < x.lastRevalidateAt + REVALIDATE_INTERVAL_MS ∧
        s.answer (.handleMessage sock frame) = (.handled session false, s))) := by
  cases hx : s.sockets.get? sock with
  | none =>
    refine .inl ?_
    simp only [answer, hx]
  | some x =>
    cases hsession : x.authed with
    | none =>
      refine .inl ?_
      simp only [answer, hx, hsession]
    | some session =>
      refine .inr ⟨x, session, rfl, hsession, ?_⟩
      have hanswer : s.answer (.handleMessage sock frame) = s.handle sock x session frame.verdict := by
        simp only [answer, hx, hsession]
      rw [hanswer]
      cases frame.verdict with
      | refused => exact .inl rfl
      | closes => exact .inr (.inl rfl)
      | accepted =>
        by_cases hle : REVALIDATE_INTERVAL_MS ≤ s.now - x.lastRevalidateAt
        · exact .inr (.inr (.inl ⟨rfl, if_pos hle⟩))
        · exact .inr (.inr (.inr ⟨rfl, by omega, if_neg hle⟩))

/-- Only the clock moves the time. -/
theorem now_answer (s : Store) (q : Command) :
    (s.answer q).2.now = s.now ∨ ∃ ms, q = .elapse ms := by
  cases q with
  | connect sock | denyJti jti exp | markRevoked d =>
    refine .inl ?_
    rw [answer]
    dsimp only
    split_ifs <;> rfl
  | authenticate | registerUserSocket | close | disconnect => exact .inl (now_modifySocket _)
  | revokeDevice | reauthorizeDevice => exact .inl (now_modifyDevice _)
  | handleMessage sock frame =>
    refine .inl ?_
    rcases s.handleMessage_cases sock frame with hanswer | ⟨x, session, -, -, hanswer | hanswer |
      ⟨-, hanswer⟩ | ⟨-, -, hanswer⟩⟩ <;> rw [hanswer]
  | elapse ms => exact .inr ⟨ms, rfl⟩
  | _ => exact .inl rfl

theorem now_le_answer (s : Store) (q : Command) : s.now ≤ (s.answer q).2.now := by
  rcases s.now_answer q with hnow | ⟨ms, rfl⟩
  · exact Nat.le_of_eq hnow.symm
  · exact Nat.le_add_right _ _

end Store

/-! ## The upgrade of a socket -/

abbrev Procedure (α : Type) := Program Command Command.Result α

abbrev command (q : Command) : Procedure q.Result := Program.request q

/-- An upgrade, with the answers of the reads that do not depend on the session. -/
structure Upgrade where
  cookie : Option Token
  ticket : Option Token
  /-- Tokens without a device are no longer accepted. -/
  rejectsLegacy : Bool
  /-- Whether the user of the cookie is banned, if there is one. -/
  cookieRow : Option Bool
  ticketRow : Option Bool
  deriving DecidableEq

/-- `sessionJti && await isJtiDenied(sessionJti)` -/
def sessionDenied : Option Jti → Procedure (Option Bool)
  | none => return some false
  | some jti => command (.isJtiDenied jti)

def isUserDeviceSessionValid (user : UserId) : Option DeviceId → Procedure Bool
  | none => return true
  | some d => command (.assertDeviceActiveForUser user d)

def verifySessionJwt (rejectsLegacy : Bool) : Option Token → Procedure (Option Token)
  | none => return none
  | some t => do
    if !(← command (.jwtVerify t)) then return none
    else if t.scope ≠ none then return none
    else if (← sessionDenied t.jti) ≠ some false then return none
    else if t.deviceId = none ∧ rejectsLegacy then return none
    else return some t

/-- The mark of a revoked device, where the session has a device. -/
def deviceMarked : Option DeviceId → Procedure Bool
  | none => return false
  | some d => command (.revokedMark d)

def getAuthUser (u : Upgrade) : Procedure (Option Token) := do
  match ← verifySessionJwt u.rejectsLegacy u.cookie with
  | none => return none
  | some t =>
    if ← deviceMarked t.deviceId then return none
    else if !(← isUserDeviceSessionValid t.sub t.deviceId) then return none
    else
      let _ ← command .selectUser
      if u.cookieRow ≠ some false then return none
      else
        let _ ← command .autoMigrate
        return some t

def authTicket (u : Upgrade) : Procedure (Option WsAuthResult) := do
  match u.ticket with
  | none => return none
  | some t =>
    if !(← command (.verifyTicket t)) then return none
    else if t.scope ≠ some .ws then return none
    else if !(← isUserDeviceSessionValid t.sub t.deviceId) then return none
    else
      let _ ← command .selectUser
      if u.ticketRow ≠ some false then return none else return some t.session

def resolveWsUser (u : Upgrade) : Procedure (Option WsAuthResult) := do
  match ← getAuthUser u with
  | some t =>
    if ← command (.readToken t) then return some t.session
    -- The error is swallowed, and the socket has no session to revalidate.
    else return some ⟨t.sub, none, none⟩
  | none => authTicket u

inductive Reply
  | connected
  | unauthorized
  | ignored
  | refused
  | sessionRevoked
  | deviceRevoked
  | failed
  | done
  deriving DecidableEq

def upgrade (sock : SocketId) (u : Upgrade) : Procedure Reply := do
  if !(← command (.connect sock)) then return .refused
  else match ← resolveWsUser u with
    | none =>
      command (.close sock)
      return .unauthorized
    | some session =>
      command (.authenticate sock session)
      let _ ← command .await
      command (.registerUserSocket sock)
      let _ ← command .await
      return .connected

/-! ## Frames -/

/-- Whether the session of a socket is still valid, or the reply if it is not. -/
def revalidate (sock : SocketId) (session : WsAuthResult) : Procedure (Option Reply) := do
  match ← sessionDenied session.jti with
  | none => return some .failed
  | some true =>
    command (.close sock)
    return some .sessionRevoked
  | some false =>
    if !(← isUserDeviceSessionValid session.user session.deviceId) then
      command (.close sock)
      return some .deviceRevoked
    else return none

/-- A presence ping is revalidated on its own. -/
def act (sock : SocketId) (session : WsAuthResult) (frame : Frame) : Procedure Reply := do
  match ← (if frame.isPresencePing then revalidate sock session else pure none) with
  | some reply => return reply
  | none =>
    command (.dispatch sock)
    return .done

def message (sock : SocketId) (frame : Frame) : Procedure Reply := do
  match ← command (.handleMessage sock frame) with
  | .ignored => return .ignored
  | .refused => return .refused
  | .handled session revalidates =>
    match ← (if revalidates then revalidate sock session else pure none) with
    | some reply => return reply
    | none => act sock session frame

/-! ## The service -/

inductive Request
  | upgrade (sock : SocketId) (u : Upgrade)
  | message (sock : SocketId) (frame : Frame)
  /-- The session of a token is denied: its user logs out, or the session is refreshed. -/
  | logout (token : Token)
  /-- A device is revoked, and its user is told. -/
  | revokeDevice (user : UserId) (deviceId : DeviceId)
  | reauthorizeDevice (deviceId : DeviceId)
  | sendToUser (user : UserId)
  /-- A socket is closed by its client or the heartbeat, or for the number of sockets. -/
  | disconnect (sock : SocketId)
  /-- The calls of Redis begin to fail, or to succeed. -/
  | setRedis (up : Bool)
  /-- The clock. -/
  | elapse (ms : ℕ)
  deriving DecidableEq

def handle : Request → Procedure Reply
  | .upgrade sock u => upgrade sock u
  | .message sock frame => message sock frame
  | .logout t => do
    if !(← command (.jwtVerify t)) then return .done
    else match t.jti with
      | none => return .done
      | some jti =>
        let _ ← command (.denyJti jti t.exp)
        return .done
  | .revokeDevice user d => do
    command (.revokeDevice d)
    command (.markRevoked d)
    command (.deliverLocal user)
    return .done
  | .reauthorizeDevice d => do command (.reauthorizeDevice d); return .done
  | .sendToUser user => do command (.deliverLocal user); return .done
  | .disconnect sock => do command (.disconnect sock); return .done
  | .setRedis up => do command (.setRedis up); return .done
  | .elapse ms => do command (.elapse ms); return .done

/-- The service of the sockets. -/
def realtime : Service Store Command Command.Result Request Reply where
  answer := Store.answer
  handle := handle

end OneToThree.WsSession
