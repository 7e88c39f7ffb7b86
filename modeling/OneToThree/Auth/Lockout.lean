import OneToThree.Auth.Challenges

/-!
# The second factor of a sign-in

The counter of failures that locks an account, the guard against the replay of its codes, and the
routes that use them, for one account with a second factor (`Lib.Service`).

The counter and the guard are in Redis, or where a call of Redis fails, in maps of the process
that serves the request. The code that the secret of the account gives for each epoch of thirty
seconds is a parameter, as are the number of failures that lock the account and how long.
-/

namespace OneToThree.Lockout

open Challenges (Link ServerId)

/-- Six digits. -/
abbrev Code := String

/-- The epochs of the codes are this long, in milliseconds. -/
def PERIOD_MS : ℕ := 30000

/-- How long the guard keeps a code. -/
def TTL_S : ℕ := 120

/-- The settings of the lockout. -/
structure Limits where
  maxFails : ℕ
  windowSeconds : ℕ

structure Counter where
  count : ℕ
  expiresAt : ℕ
  deriving DecidableEq

structure Store where
  /-- `auth:fail:{username}`, also after it has expired. -/
  redisFails : Option Counter
  /-- The counters of the processes, also after they have expired. -/
  memFails : InsMap ServerId Counter
  /-- `totp:used:{userId}:{code}`, until when each is kept. -/
  redisUsed : InsMap Code ℕ
  memUsed : InsMap (ServerId × Code) ℕ
  link : Link
  /-- In milliseconds. -/
  now : ℕ

/-! ## Commands -/

inductive Command
  | getFails
  | ttlFails
  | expireFails (seconds : ℕ)
  /-- The script that counts a failure, and starts the window with the first one. -/
  | incrFails (windowSeconds : ℕ)
  | delFails
  | memCheck (server : ServerId)
  | memRecord (server : ServerId) (windowSeconds : ℕ)
  | memReset (server : ServerId)
  /-- `SET NX EX` -/
  | useCode (code : Code)
  | memUse (server : ServerId) (code : Code)
  | verifyTotp (code : Code)
  /-- Another read or write. -/
  | await
  | setLink (link : Link)
  | elapse (ms : ℕ)
  deriving DecidableEq

/-- A call of Redis answers `none`, or `false`, when it fails. -/
abbrev Command.Result : Command → Type
  | .getFails | .ttlFails => Option (Option ℕ)
  | .expireFails _ | .delFails => Bool
  | .incrFails _ => Option (ℕ × ℕ)
  | .memCheck _ => Option Counter
  | .memRecord _ _ => Counter
  | .useCode _ => Option Bool
  | .memUse _ _ | .verifyTotp _ => Bool
  | .memReset _ | .await | .setLink _ | .elapse _ => Unit

namespace Store

/-- The counter of Redis, if it has not expired. -/
def inRedis (s : Store) : Option Counter := s.redisFails.filter fun c => s.now < c.expiresAt

/-- The counter of a process, if it has not expired. -/
def inMem (s : Store) (server : ServerId) : Option Counter :=
  (s.memFails.get? server).filter fun c => s.now < c.expiresAt

/-- How long a counter is left, in seconds. -/
def ttl (s : Store) (c : Counter) : ℕ := (c.expiresAt - s.now + 500) / 1000

/-- A counter after one more failure. -/
def recorded (s : Store) (windowSeconds : ℕ) : Option Counter → Counter
  | some c => { c with count := c.count + 1 }
  | none => ⟨1, s.now + windowSeconds * 1000⟩

end Store

/-- The code of an epoch verifies at a time: the epoch is that of the time, or the one before or
    after it. -/
def Near (t : ℕ) (epoch : ℕ) : Prop := t / PERIOD_MS ≤ epoch + 1 ∧ epoch ≤ t / PERIOD_MS + 1

instance (t epoch : ℕ) : Decidable (Near t epoch) := instDecidableAnd

variable (totp : ℕ → Code)

def verifyTotp (t : ℕ) (code : Code) : Bool :=
  (List.range (t / PERIOD_MS + 2)).any fun epoch => totp epoch = code ∧ Near t epoch

def Store.answer (s : Store) : (q : Command) → q.Result × Store
  | .getFails => (if s.link = .up then some (s.inRedis.map (·.count)) else none, s)
  | .ttlFails => (if s.link = .up then some (s.inRedis.map s.ttl) else none, s)
  | .expireFails seconds =>
    (s.link = .up, if s.link = .down then s else
      { s with redisFails :=
          s.inRedis.map fun c => { c with expiresAt := s.now + seconds * 1000 } })
  | .incrFails windowSeconds =>
    let c := s.recorded windowSeconds s.inRedis
    (if s.link = .up then some (c.count, s.ttl c) else none,
      if s.link = .down then s else { s with redisFails := some c })
  | .delFails => (s.link = .up, if s.link = .down then s else { s with redisFails := none })
  | .memCheck server => (s.inMem server, s)
  | .memRecord server windowSeconds =>
    let c := s.recorded windowSeconds (s.inMem server)
    (c, { s with memFails := s.memFails.set server c })
  | .memReset server => ((), { s with memFails := s.memFails.delete server })
  | .useCode code =>
    let fresh := decide (∀ e ∈ s.redisUsed.get? code, e ≤ s.now)
    (if s.link = .up then some fresh else none,
      if s.link = .down ∨ fresh = false then s else
        { s with redisUsed := s.redisUsed.set code (s.now + TTL_S * 1000) })
  | .memUse server code =>
    let fresh := decide (∀ e ∈ s.memUsed.get? (server, code), e ≤ s.now)
    (fresh, if fresh = false then s else
      { s with memUsed := s.memUsed.set (server, code) (s.now + TTL_S * 1000) })
  | .verifyTotp code => (verifyTotp totp s.now code, s)
  | .await => ((), s)
  | .setLink link => ((), { s with link := link })
  | .elapse ms => ((), { s with now := s.now + ms })

/-! ## The counter and the guard -/

abbrev Procedure (α : Type) := Program Command Command.Result α

abbrev command (q : Command) : Procedure q.Result := Program.request q

structure LockoutStatus where
  locked : Bool
  retryAfterSeconds : ℕ
  failuresSoFar : ℕ

variable (limits : Limits)

/-- The status of a count, with the time that is left of the window. -/
def status (count retryAfter : ℕ) : LockoutStatus :=
  { locked := limits.maxFails ≤ count
    retryAfterSeconds := if limits.maxFails ≤ count then retryAfter else 0
    failuresSoFar := count }

def memStatus (server : ServerId) : Procedure LockoutStatus := do
  match ← command (.memCheck server) with
  | none => return ⟨false, 0, 0⟩
  | some entry => return status limits entry.count entry.expiresAt

def checkLockout (server : ServerId) : Procedure LockoutStatus := do
  match ← command .getFails with
  | none => memStatus limits server
  | some countStr =>
    match ← command .ttlFails with
    | none => memStatus limits server
    | some ttl =>
      -- The counter may expire between the two commands.
      if 0 < countStr.getD 0 ∧ ttl = none then
        if ← command (.expireFails limits.windowSeconds) then
          return status limits (countStr.getD 0) limits.windowSeconds
        else memStatus limits server
      else return status limits (countStr.getD 0) (ttl.getD 0)

def recordFailure (server : ServerId) : Procedure LockoutStatus := do
  match ← command (.incrFails limits.windowSeconds) with
  | some (count, ttl) => return status limits count ttl
  | none =>
    let next ← command (.memRecord server limits.windowSeconds)
    return status limits next.count next.expiresAt

def resetLockout (server : ServerId) : Procedure Unit := do
  if ← command .delFails then return () else command (.memReset server)

def consumeTotpCode (server : ServerId) (code : Code) : Procedure Bool := do
  match ← command (.useCode code) with
  | some fresh => return fresh
  | none => command (.memUse server code)

/-! ## Routes -/

inductive Reply
  | rejected (error : String)
  /-- A session. -/
  | accepted
  /-- The second factor is asked for. -/
  | pending2fa
  | done
  deriving DecidableEq

inductive Request
  /-- `POST /auth/login/2fa`, with the errors before the lockout is checked and after the code is
      accepted, if there are any -/
  | login2fa (server : ServerId) (code : Code) (refused : Option String)
    (deviceRefused : Option String)
  /-- `POST /auth/verify` for the account, with the error of the first factor if there is one,
      and whether it is counted -/
  | verify (server : ServerId) (refused : Option (String × Bool))
  /-- The calls of Redis begin to fail, or to succeed. -/
  | setLink (link : Link)
  /-- The clock. -/
  | elapse (ms : ℕ)
  deriving DecidableEq

/-- A failure of the second factor. -/
def failTotp (server : ServerId) (error : String) : Procedure Reply := do
  let _ ← recordFailure limits server
  let _ ← command .await
  return .rejected error

def login2fa (server : ServerId) (code : Code) (refused deviceRefused : Option String) :
    Procedure Reply := do
  let _ ← command .await
  match refused with
  | some error => return .rejected error
  | none =>
    if (← checkLockout limits server).locked then
      let _ ← command .await
      return .rejected "AUTH_LOCKED"
    else if !(← command (.verifyTotp code)) then failTotp limits server "TOTP_INVALID"
    else if !(← consumeTotpCode server code) then failTotp limits server "TOTP_ALREADY_USED"
    else
      let _ ← resetLockout server
      let _ ← command .await
      match deviceRefused with
      | some error => return .rejected error
      | none => return .accepted

/-- Does not clear the counter, as the account has a second factor. -/
def verify (server : ServerId) (refused : Option (String × Bool)) : Procedure Reply := do
  if (← checkLockout limits server).locked then
    let _ ← command .await
    return .rejected "AUTH_LOCKED"
  else
    let _ ← command .await
    match refused with
    | none => return .pending2fa
    | some (error, counted) =>
      if counted then
        let _ ← recordFailure limits server
        return .rejected error
      else return .rejected error

def handle : Request → Procedure Reply
  | .login2fa server code refused deviceRefused =>
    login2fa limits server code refused deviceRefused
  | .verify server refused => verify limits server refused
  | .setLink link => do let _ ← command (.setLink link); return .done
  | .elapse ms => do let _ ← command (.elapse ms); return .done

/-- The service of the sign-ins of the account. -/
def lockout : Service Store Command Command.Result Request Reply where
  answer := Store.answer totp
  handle := handle limits

end OneToThree.Lockout
