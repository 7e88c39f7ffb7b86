import OneToThree.Lib.Service

/-!
# Challenges

The store of the challenges that sign-in, recovery, the vault proofs and the passkeys sign, and
the routes that issue and spend them, as programs over the single commands (`Lib.Service`).

A challenge is in Redis, for as long as its time to live. Where a call of Redis fails, the process
that serves the request falls back to a map of its own. What is not configured is as a Redis that
always fails.

The answers of the other reads of a request, of the database, of the lockouts and of the
signatures, are a part of the request; each of these reads is an `await`, at which other requests
go on.
-/

namespace OneToThree.Challenges

abbrev UserId := ℕ
/-- A canonical nickname, which has no colon. -/
abbrev Username := String
/-- A process of the server, which has a map of its own. -/
abbrev ServerId := ℕ
/-- A random nonce, by the number of its draw. -/
abbrev Nonce := ℕ

/-- The keys of the challenges. -/
inductive Key
  /-- `{username}` -/
  | login (username : Username)
  /-- `recovery:{username}` -/
  | recovery (username : Username)
  /-- `recovery-setup:{userId}` -/
  | recoverySetup (userId : UserId)
  /-- `ecdh-publish:{userId}:{nonce}` -/
  | ecdhPublish (userId : UserId) (nonce : Nonce)
  /-- `passkey-reg:{userId}` -/
  | passkeyReg (userId : UserId)
  /-- `passkey-auth:{username}` -/
  | passkeyAuth (username : Username)
  deriving DecidableEq

structure PendingChallenge where
  nonce : Nonce
  expiresAt : ℕ
  deriving DecidableEq

/-- What becomes of the calls of Redis. -/
inductive Link
  | up
  /-- They fail, and have no effect. -/
  | down
  /-- They have their effect, but their answer is lost, so that they fail as well. -/
  | lossy
  deriving DecidableEq

structure Store where
  redis : InsMap Key PendingChallenge
  /-- The maps of the processes, with the challenges that have expired. -/
  mem : InsMap (ServerId × Key) PendingChallenge
  link : Link
  /-- The next random nonce. -/
  nextNonce : Nonce
  /-- In milliseconds. -/
  now : ℕ

/-! ## Commands -/

inductive Command
  | redisGet (key : Key)
  | redisSet (key : Key) (nonce : Nonce) (ttlSeconds : ℕ)
  | redisDel (key : Key)
  | memGet (server : ServerId) (key : Key)
  | memSet (server : ServerId) (key : Key) (nonce : Nonce) (ttlSeconds : ℕ)
  | memDel (server : ServerId) (key : Key)
  | randomNonce
  /-- Another read or write, which is not of a challenge. -/
  | await
  | setLink (link : Link)
  | elapse (ms : ℕ)
  deriving DecidableEq

/-- A call of Redis answers `none`, or `false`, when it fails. -/
abbrev Command.Result : Command → Type
  | .redisGet _ => Option (Option Nonce)
  | .memGet _ _ => Option Nonce
  | .redisSet _ _ _ | .redisDel _ => Bool
  | .randomNonce => Nonce
  | .memSet _ _ _ _ | .memDel _ _ | .await | .setLink _ | .elapse _ => Unit

namespace Store

/-- What a lookup finds in Redis. -/
def inRedis (s : Store) (key : Key) : Option PendingChallenge :=
  (s.redis.get? key).filter fun row => s.now < row.expiresAt

/-- What a lookup finds in the map of a process. -/
def inMem (s : Store) (server : ServerId) (key : Key) : Option PendingChallenge :=
  (s.mem.get? (server, key)).filter fun row => s.now ≤ row.expiresAt

def answer (s : Store) : (q : Command) → q.Result × Store
  | .redisGet key =>
    (if s.link = .up then some ((s.inRedis key).map (·.nonce)) else none, s)
  | .redisSet key nonce ttlSeconds =>
    (s.link = .up, if s.link = .down then s else
      { s with redis := s.redis.set key ⟨nonce, s.now + ttlSeconds * 1000⟩ })
  | .redisDel key =>
    (s.link = .up, if s.link = .down then s else { s with redis := s.redis.delete key })
  | .memGet server key => ((s.inMem server key).map (·.nonce), s)
  | .memSet server key nonce ttlSeconds =>
    ((), { s with mem := s.mem.set (server, key) ⟨nonce, s.now + ttlSeconds * 1000⟩ })
  | .memDel server key => ((), { s with mem := s.mem.delete (server, key) })
  | .randomNonce => (s.nextNonce, { s with nextNonce := s.nextNonce + 1 })
  | .await => ((), s)
  | .setLink link => ((), { s with link := link })
  | .elapse ms => ((), { s with now := s.now + ms })

end Store

/-! ## The store of the challenges -/

abbrev Procedure (α : Type) := Program Command Command.Result α

abbrev command (q : Command) : Procedure q.Result := Program.request q

def setChallenge (server : ServerId) (key : Key) (nonce : Nonce) (ttlSeconds : ℕ) :
    Procedure Unit := do
  if ← command (.redisSet key nonce ttlSeconds) then return ()
  else command (.memSet server key nonce ttlSeconds)

def getPending (server : ServerId) (key : Key) : Procedure (Option Nonce) := do
  match ← command (.redisGet key) with
  | some nonce => return nonce
  | none => command (.memGet server key)

def deletePending (server : ServerId) (key : Key) : Procedure Unit := do
  if ← command (.redisDel key) then return () else command (.memDel server key)

/-! ## Routes -/

inductive Reply
  | issued (nonce : Nonce)
  | rejected (error : String)
  /-- A success: a session or a pending second factor, the vault of a recovery, a setting that is
      changed, or a passkey. -/
  | accepted (nonce : Nonce)
  | done
  deriving DecidableEq

/-- What the other reads of a `POST /auth/verify` answer. -/
structure VerifyChecks where
  locked : Bool
  registrationDisabled : Bool
  deviceRevoked : Bool
  publicKeyConflict : Bool
  signatureOk : Bool
  /-- Why a request with a good signature is rejected: the user is banned, the nickname is taken
      or reserved, or the device or the guest is refused. -/
  refused : Option String
  deriving DecidableEq

/-- What the other reads of a `POST /auth/recovery/complete` answer. -/
structure RecoveryChecks where
  locked : Bool
  configured : Bool
  signatureOk : Bool
  banned : Bool
  /-- The error of the second factor, where one is required. -/
  stepUp : Option String
  deriving DecidableEq

inductive Request
  /-- `POST /auth/challenge` -/
  | challenge (server : ServerId) (username : Username) (locked : Bool)
  /-- `POST /auth/verify` -/
  | verify (server : ServerId) (username : Username) (nonce : Nonce) (checks : VerifyChecks)
  /-- `POST /auth/recovery/challenge` -/
  | recoveryChallenge (server : ServerId) (username : Username)
  /-- `POST /auth/recovery/complete` -/
  | recoveryComplete (server : ServerId) (username : Username) (nonce : Nonce)
    (checks : RecoveryChecks)
  /-- `GET /users/me/recovery/setup-challenge` -/
  | setupChallenge (server : ServerId) (userId : UserId)
  /-- `POST /users/me/recovery/enable` -/
  | recoveryEnable (server : ServerId) (userId : UserId) (proofNonce : Nonce) (signatureOk : Bool)
    (keyOk : Bool)
  /-- `POST /users/me/recovery/disable` -/
  | recoveryDisable (server : ServerId) (userId : UserId) (proofNonce : Nonce) (signatureOk : Bool)
  /-- `GET /users/me/ecdh/publish-challenge` -/
  | publishChallenge (server : ServerId) (userId : UserId)
  /-- `PATCH /users/me` with a new ECDH key -/
  | publishEcdh (server : ServerId) (userId : UserId) (proofNonce : Nonce) (signatureOk : Bool)
  /-- `POST /passkey/register/options` -/
  | registerOptions (server : ServerId) (userId : UserId) (limit : Bool)
  /-- `POST /passkey/register/verify`, with the challenge that the response signs -/
  | registerVerify (server : ServerId) (userId : UserId) (challenge : Nonce) (verified : Bool)
    (refused : Option String)
  /-- `POST /passkey/login/options` -/
  | loginOptions (server : ServerId) (username : Username) (hasPasskey : Bool)
  /-- `POST /passkey/login/verify`, with the challenge that the response signs -/
  | loginVerify (server : ServerId) (username : Username) (challenge : Nonce) (hasPasskey : Bool)
    (verified : Bool)
  /-- The calls of Redis begin to fail, or to succeed. -/
  | setLink (link : Link)
  /-- The clock. -/
  | elapse (ms : ℕ)
  deriving DecidableEq

def TTL_S : ℕ := 60

def CHALLENGE_TTL_S : ℕ := 180

/-- A route that issues a challenge. -/
def issue (server : ServerId) (key : Nonce → Key) (ttlSeconds : ℕ) : Procedure Reply := do
  let nonce ← command .randomNonce
  let _ ← setChallenge server (key nonce) nonce ttlSeconds
  return .issued nonce

/-- The challenge is spent, and the request is rejected. -/
def spendAndReject (server : ServerId) (key : Key) (error : String) : Procedure Reply := do
  let _ ← deletePending server key
  let _ ← command .await
  return .rejected error

def challenge (server : ServerId) (username : Username) (locked : Bool) : Procedure Reply := do
  let _ ← command .await
  if locked then return .rejected "AUTH_LOCKED"
  else issue server (fun _ => .login username) TTL_S

def verify (server : ServerId) (username : Username) (nonce : Nonce) (checks : VerifyChecks) :
    Procedure Reply := do
  let _ ← command .await
  if checks.locked then return .rejected "AUTH_LOCKED"
  else
    match ← getPending server (.login username) with
    | none => return .rejected "NO_CHALLENGE"
    | some pending =>
      if pending ≠ nonce then spendAndReject server (.login username) "NONCE_MISMATCH"
      else
        let _ ← command .await
        if checks.registrationDisabled then
          spendAndReject server (.login username) "REGISTRATION_DISABLED"
        else
          let _ ← command .await
          if checks.deviceRevoked then
            spendAndReject server (.login username) "DEVICE_REVOKED"
          else if checks.publicKeyConflict then
            spendAndReject server (.login username) "PUBLIC_KEY_CONFLICT"
          else if !checks.signatureOk then
            spendAndReject server (.login username) "SIGNATURE_INVALID"
          else
            let _ ← deletePending server (.login username)
            let _ ← command .await
            match checks.refused with
            | some error => return .rejected error
            | none => return .accepted nonce

def recoveryComplete (server : ServerId) (username : Username) (nonce : Nonce)
    (checks : RecoveryChecks) : Procedure Reply := do
  let _ ← command .await
  if checks.locked then return .rejected "AUTH_LOCKED"
  else
    match ← getPending server (.recovery username) with
    | none => return .rejected "NO_CHALLENGE"
    | some pending =>
      if pending ≠ nonce then spendAndReject server (.recovery username) "NONCE_MISMATCH"
      else
        let _ ← command .await
        if !checks.configured || !checks.signatureOk then
          spendAndReject server (.recovery username) "SIGNATURE_INVALID"
        else if checks.banned then
          spendAndReject server (.recovery username) "BANNED_USER"
        else
          let _ ← command .await
          match checks.stepUp with
          | some error => spendAndReject server (.recovery username) error
          | none =>
            let _ ← deletePending server (.recovery username)
            let _ ← command .await
            return .accepted nonce

/-- The proof that the vault is unlocked. -/
def verifyVaultProof (server : ServerId) (key : Key) (proofNonce : Nonce) (signatureOk : Bool) :
    Procedure Bool := do
  match ← getPending server key with
  | none => return false
  | some pending =>
    let _ ← deletePending server key
    if pending ≠ proofNonce then return false
    else
      let _ ← command .await
      return signatureOk

/-- A route that asks for the proof, with what it rejects afterwards. -/
def withVaultProof (server : ServerId) (key : Key) (proofNonce : Nonce) (signatureOk : Bool)
    (error : String) (refused : Option String) : Procedure Reply := do
  if !(← verifyVaultProof server key proofNonce signatureOk) then return .rejected error
  else
    match refused with
    | some error => return .rejected error
    | none =>
      let _ ← command .await
      return .accepted proofNonce

def recoveryEnable (server : ServerId) (userId : UserId) (proofNonce : Nonce)
    (signatureOk keyOk : Bool) : Procedure Reply :=
  withVaultProof server (.recoverySetup userId) proofNonce signatureOk "VAULT_PROOF_REQUIRED"
    (if keyOk then none else some "INVALID_RECOVERY_KEY")

def recoveryDisable (server : ServerId) (userId : UserId) (proofNonce : Nonce)
    (signatureOk : Bool) : Procedure Reply :=
  withVaultProof server (.recoverySetup userId) proofNonce signatureOk "VAULT_PROOF_REQUIRED" none

def publishEcdh (server : ServerId) (userId : UserId) (proofNonce : Nonce)
    (signatureOk : Bool) : Procedure Reply :=
  withVaultProof server (.ecdhPublish userId proofNonce) proofNonce signatureOk
    "ECDH_PROOF_INVALID" none

def registerOptions (server : ServerId) (userId : UserId) (limit : Bool) : Procedure Reply := do
  let _ ← command .await
  if limit then return .rejected "PASSKEY_LIMIT"
  else issue server (fun _ => .passkeyReg userId) CHALLENGE_TTL_S

def loginOptions (server : ServerId) (username : Username) (hasPasskey : Bool) :
    Procedure Reply := do
  let _ ← command .await
  if !hasPasskey then return .rejected "NO_PASSKEY"
  else issue server (fun _ => .passkeyAuth username) CHALLENGE_TTL_S

/-- The response is verified against the challenge that was pending. -/
def registerVerify (server : ServerId) (userId : UserId) (challenge : Nonce) (verified : Bool)
    (refused : Option String) : Procedure Reply := do
  match ← getPending server (.passkeyReg userId) with
  | none => return .rejected "NO_CHALLENGE"
  | some pending =>
    let _ ← deletePending server (.passkeyReg userId)
    if challenge ≠ pending ∨ !verified then return .rejected "PASSKEY_ATTESTATION_INVALID"
    else
      let _ ← command .await
      match refused with
      | some error => return .rejected error
      | none => return .accepted pending

def loginVerify (server : ServerId) (username : Username) (challenge : Nonce)
    (hasPasskey verified : Bool) : Procedure Reply := do
  match ← getPending server (.passkeyAuth username) with
  | none => return .rejected "NO_CHALLENGE"
  | some pending =>
    let _ ← deletePending server (.passkeyAuth username)
    let _ ← command .await
    if !hasPasskey then return .rejected "NO_PASSKEY"
    else if challenge ≠ pending ∨ !verified then return .rejected "PASSKEY_ASSERTION_INVALID"
    else
      let _ ← command .await
      return .accepted pending

def handle : Request → Procedure Reply
  | .challenge server username locked => challenge server username locked
  | .verify server username nonce checks => verify server username nonce checks
  | .recoveryChallenge server username => issue server (fun _ => .recovery username) TTL_S
  | .recoveryComplete server username nonce checks => recoveryComplete server username nonce checks
  | .setupChallenge server userId => issue server (fun _ => .recoverySetup userId) TTL_S
  | .recoveryEnable server userId proofNonce signatureOk keyOk =>
    recoveryEnable server userId proofNonce signatureOk keyOk
  | .recoveryDisable server userId proofNonce signatureOk =>
    recoveryDisable server userId proofNonce signatureOk
  | .publishChallenge server userId => issue server (.ecdhPublish userId) TTL_S
  | .publishEcdh server userId proofNonce signatureOk =>
    publishEcdh server userId proofNonce signatureOk
  | .registerOptions server userId limit => registerOptions server userId limit
  | .registerVerify server userId challenge verified refused =>
    registerVerify server userId challenge verified refused
  | .loginOptions server username hasPasskey => loginOptions server username hasPasskey
  | .loginVerify server username challenge hasPasskey verified =>
    loginVerify server username challenge hasPasskey verified
  | .setLink link => do let _ ← command (.setLink link); return .done
  | .elapse ms => do let _ ← command (.elapse ms); return .done

/-- The service of the challenges. -/
def challenges : Service Store Command Command.Result Request Reply where
  answer := Store.answer
  handle := handle

end OneToThree.Challenges
