import Mathlib.Data.List.MinMax
import OneToThree.Lib.Transactions

/-!
# The key directory

The routes for the one-time prekeys of the devices: `POST /keys/one-time` uploads some,
`GET /keys/inventory` counts them, and `GET /keys/bundle/:userId` hands one out, with the
identity and the signed prekey of the device. They are programs over the statements on the
database (`Lib.Transactions`).

A bundle is fetched in one transaction, in which the row of the prekey is deleted. Until it is
committed, the row is there for the others, but locked: another fetch skips it, and an upload
of a prekey with its key waits. A row has a serial number, which tells it from one that is
uploaded again with the same key. The store has a history as well, which no route reads.
-/

namespace OneToThree.Prekeys

/-- A row of `onetime_prekeys`. -/
structure OneTimePrekey where
  serial : ℕ
  userId : String
  deviceId : String
  preKeyId : ℕ
  publicKey : String
  deriving DecidableEq

structure Device where
  id : String
  userId : String
  clientDeviceKey : String
  revokedAt : Option ℕ

structure IdentityKey where
  userId : String
  deviceId : String
  signingPublicKey : String
  exchangePublicKey : String
  exchangePublicKeySignature : String
  generation : ℕ
  createdAt : ℕ

structure SignedPrekey where
  userId : String
  deviceId : String
  preKeyId : ℕ
  publicKey : String
  signature : String
  createdAt : ℕ

/-- What the routes read beside the one-time prekeys, and the clock. -/
structure Tables where
  /-- Chat and user. -/
  chatMembers : List (String × String)
  devices : List Device
  identityKeys : List IdentityKey
  signedPrekeys : List SignedPrekey
  now : ℕ

/-- A prekey that a fetch took, and those there were to choose from. -/
structure Pop where
  row : OneTimePrekey
  among : List OneTimePrekey
  deriving DecidableEq

/-- What has happened so far, which no route reads. -/
structure History where
  /-- The devices found by what a request named them: user, name, and device. -/
  resolved : List (String × String × String)
  /-- The prekeys taken by the fetches, in the order of their commits. -/
  popped : List Pop

structure PopBudget where
  count : ℕ
  expiresAt : ℕ

structure Db where
  tables : Tables
  onetimePrekeys : List OneTimePrekey
  /-- The rows that transactions in flight have deleted: their serial numbers, and the
      requests. -/
  deleting : List (ℕ × ℕ)
  nextSerial : ℕ
  /-- The map of the process, by the requester and the device. -/
  opkPops : InsMap (String × String) PopBudget
  history : History

/-- What a request has taken in its transaction. -/
structure Session where
  popped : Option Pop

def MAX_OPKS_PER_DEVICE : ℕ := 200

def OPK_POPS_PER_TARGET_PER_HOUR : ℕ := 10

def OPK_POP_WINDOW_MS : ℕ := 60 * 60 * 1000

/-! ## Statements -/

inductive Statement
  | sharesChatWith (viewerId targetId : String)
  | selectDevice (userId provided : String)
  | selectIdentity (userId : String) (deviceId : Option String)
  | selectSignedPrekey (userId deviceId : String)
  | mayPopOpk (requesterId targetDeviceId : String)
  /-- `DELETE … WHERE … IN (SELECT … FOR UPDATE SKIP LOCKED LIMIT 1) RETURNING …` -/
  | popOpk (userId deviceId : String)
  | commit
  | countOpks (userId deviceId : String)
  | insertOpks (userId deviceId : String) (keys : List (ℕ × String))

abbrev Statement.Result : Statement → Type
  | sharesChatWith _ _ | mayPopOpk _ _ => Bool
  | selectDevice _ _ => Option String
  | selectIdentity _ _ => Option IdentityKey
  | selectSignedPrekey _ _ => Option SignedPrekey
  | popOpk _ _ => Option OneTimePrekey
  | countOpks _ _ => ℕ
  | commit | insertOpks _ _ _ => Unit

namespace Tables

variable (t : Tables)

def sharesChatWith (viewerId targetId : String) : Bool :=
  t.chatMembers.any fun m => m.2 = targetId &&
    t.chatMembers.any fun n => n.1 = m.1 && n.2 = viewerId

def selectDevice (userId provided : String) : Option String :=
  (t.devices.find? fun d =>
    d.userId = userId && (d.id = provided || d.clientDeviceKey = provided)).map Device.id

/-- The newest identity of the user, on a device that is not revoked. -/
def selectIdentity (userId : String) (deviceId : Option String) : Option IdentityKey :=
  (t.identityKeys.filter fun k => k.userId = userId && deviceId.all (k.deviceId = ·) &&
    t.devices.any fun d => d.id = k.deviceId && d.revokedAt = none).argmax IdentityKey.createdAt

def selectSignedPrekey (userId deviceId : String) : Option SignedPrekey :=
  (t.signedPrekeys.filter fun k => k.userId = userId && k.deviceId = deviceId).argmax
    SignedPrekey.createdAt

end Tables

namespace Db

variable (db : Db)

def opks (userId deviceId : String) : List OneTimePrekey :=
  db.onetimePrekeys.filter fun r => r.userId = userId && r.deviceId = deviceId

/-- A transaction in flight has deleted the row. -/
def locked (r : OneTimePrekey) : Bool := db.deleting.any (·.1 = r.serial)

/-- The prekeys of a device that are not locked. -/
def available (userId deviceId : String) : List OneTimePrekey :=
  (db.opks userId deviceId).filter fun r => !db.locked r

/-- The budget of a requester for a device: whether there is some left, and the map. -/
def mayPopOpk (requesterId targetDeviceId : String) : Bool × Db :=
  let now := db.tables.now
  let swept := db.opkPops.entries.foldl
    (fun pops e => if e.2.expiresAt ≤ now then pops.delete e.1 else pops) db.opkPops
  match swept.get? (requesterId, targetDeviceId) with
  | none =>
    (true, { db with
      opkPops := swept.set (requesterId, targetDeviceId) ⟨1, now + OPK_POP_WINDOW_MS⟩ })
  | some entry =>
    (entry.count + 1 ≤ OPK_POPS_PER_TARGET_PER_HOUR, { db with
      opkPops := swept.set (requesterId, targetDeviceId) { entry with count := entry.count + 1 } })

/-- The row of the lowest id, if there is one. -/
def popOpk (request : ℕ) (tx : Session) (userId deviceId : String) :
    Option OneTimePrekey × Db × Session :=
  let among := db.available userId deviceId
  match among.argmin OneTimePrekey.preKeyId with
  | none => (none, db, tx)
  | some row => (some row, { db with deleting := (row.serial, request) :: db.deleting },
      { popped := some ⟨row, among⟩ })

/-- A transaction is over: its rows are not locked any more. -/
def unlock (request : ℕ) (db : Db) : Db :=
  { db with deleting := db.deleting.filter fun l => l.2 ≠ request }

/-- The rows that a transaction has deleted are gone. -/
def commit (request : ℕ) (tx : Session) : Db :=
  { db.unlock request with
    onetimePrekeys := db.onetimePrekeys.filter fun r => (r.serial, request) ∉ db.deleting
    history := { db.history with popped := db.history.popped ++ tx.popped.toList } }

/-- The rows with this key: there is one at most. -/
def conflicts (userId deviceId : String) (preKeyId : ℕ) : List OneTimePrekey :=
  (db.opks userId deviceId).filter fun r => r.preKeyId = preKeyId

def insertOpk (userId deviceId : String) (db : Db) (k : ℕ × String) : Db :=
  if db.conflicts userId deviceId k.1 = [] then
    { db with
      onetimePrekeys := db.onetimePrekeys ++ [⟨db.nextSerial, userId, deviceId, k.1, k.2⟩]
      nextSerial := db.nextSerial + 1 }
  else db

/-- What else happens to the store. -/
inductive World
  | tables (tables : Tables)
  /-- The rows of the devices are deleted, as far as they are not locked. -/
  | purgeDeviceKeyMaterial (deviceIds : List String)

def world : World → Db → Db
  | .tables tables, db => { db with tables := tables }
  | .purgeDeviceKeyMaterial deviceIds, db =>
    { db with
      onetimePrekeys := db.onetimePrekeys.filter fun r =>
        r.deviceId ∉ deviceIds || db.locked r }

end Db

/-- The answer to a statement. -/
def answer (request : ℕ) (db : Db) (tx : Session) :
    (q : Statement) → Option (q.Result × Db × Session)
  | .sharesChatWith viewerId targetId => some (db.tables.sharesChatWith viewerId targetId, db, tx)
  | .selectDevice userId provided =>
    let found := db.tables.selectDevice userId provided
    some (found, { db with history := { db.history with
      resolved := db.history.resolved ++ found.toList.map fun id => (userId, provided, id) } }, tx)
  | .selectIdentity userId deviceId => some (db.tables.selectIdentity userId deviceId, db, tx)
  | .selectSignedPrekey userId deviceId =>
    some (db.tables.selectSignedPrekey userId deviceId, db, tx)
  | .mayPopOpk requesterId targetDeviceId =>
    let (may, db) := db.mayPopOpk requesterId targetDeviceId
    some (may, db, tx)
  | .popOpk userId deviceId => some (db.popOpk request tx userId deviceId)
  | .commit => some ((), db.commit request tx, ⟨none⟩)
  | .countOpks userId deviceId => some ((db.opks userId deviceId).length, db, tx)
  | .insertOpks userId deviceId keys =>
    if keys.any fun k => (db.conflicts userId deviceId k.1).any db.locked then none
    else some ((), keys.foldl (Db.insertOpk userId deviceId) db, tx)

/-! ## Routes -/

inductive Request
  /-- `GET /keys/bundle/:userId` -/
  | getBundle (viewerId userId : String) (device_id : Option String)
  /-- `POST /keys/one-time`, from the session of a device. -/
  | postOneTime (userId : String) (deviceId : Option String) (keys : List (ℕ × String))
  /-- `GET /keys/inventory` -/
  | getInventory (userId : String) (deviceId : Option String)

inductive Reply
  | error (status : ℕ) (error : String)
  /-- 409, with the number of prekeys. -/
  | quotaExceeded (max current : ℕ)
  | stored (stored : ℕ)
  | inventory (one_time_prekeys max : ℕ)
  /-- The bundle, its one-time prekey being sent with its id and its key only. -/
  | bundle (user_id device_id : String) (identity : IdentityKey) (signed_prekey : SignedPrekey)
    (one_time_prekey : Option OneTimePrekey)

abbrev Route (α : Type) := Program Statement Statement.Result α

abbrev statement (q : Statement) : Route q.Result := Program.request q

def resolveCanonicalDeviceId (userId provided : String) : Route String := do
  let row ← statement (.selectDevice userId provided)
  return row.getD provided

/-- The viewer is neither the user nor in a chat with them. -/
def isForbidden (viewerId userId : String) : Route Bool := do
  if userId = viewerId then return false
  else
    let shares ← statement (.sharesChatWith viewerId userId)
    return !shares

/-- The transaction of a fetch: the identity, the signed prekey and the one-time prekey. -/
def bundleTransaction (viewerId userId : String) (canonicalDeviceId : Option String) :
    Route (Option (IdentityKey × Option SignedPrekey × Option OneTimePrekey)) := do
  match ← statement (.selectIdentity userId canonicalDeviceId) with
  | none =>
    statement .commit
    return none
  | some identity =>
    match ← statement (.selectSignedPrekey userId identity.deviceId) with
    | none =>
      statement .commit
      return some (identity, none, none)
    | some spk =>
      if ← statement (.mayPopOpk viewerId identity.deviceId) then
        let opk ← statement (.popOpk userId identity.deviceId)
        statement .commit
        return some (identity, some spk, opk)
      else
        statement .commit
        return some (identity, some spk, none)

/-- The reply to a fetch. -/
def bundleReply (userId : String) :
    Option (IdentityKey × Option SignedPrekey × Option OneTimePrekey) → Reply
  | none => .error 404 "NO_IDENTITY"
  | some (_, none, _) => .error 409 "NO_SIGNED_PREKEY"
  | some (identity, some spk, opk) => .bundle userId identity.deviceId identity spk opk

/-- A fetch, once it is allowed. -/
def fetchBundle (viewerId userId : String) (device_id : Option String) : Route Reply := do
  match device_id with
  | none => return bundleReply userId (← bundleTransaction viewerId userId none)
  | some provided =>
    let canonicalDeviceId ← resolveCanonicalDeviceId userId provided
    return bundleReply userId (← bundleTransaction viewerId userId (some canonicalDeviceId))

def getBundle (viewerId userId : String) (device_id : Option String) : Route Reply := do
  if userId = viewerId && device_id = none then return .error 400 "BUNDLE_FOR_SELF_FORBIDDEN"
  else if ← isForbidden viewerId userId then return .error 403 "FORBIDDEN"
  else fetchBundle viewerId userId device_id

def postOneTime (userId : String) (deviceId : Option String) (keys : List (ℕ × String)) :
    Route Reply := do
  match deviceId with
  | none => return .error 409 "DEVICE_SESSION_REQUIRED"
  | some deviceId =>
    if keys = [] || 100 < keys.length || keys.any (0x7fffffff < ·.1) then
      return .error 400 "BAD_BODY"
    else
      let currentCount ← statement (.countOpks userId deviceId)
      if MAX_OPKS_PER_DEVICE < currentCount + keys.length then
        return .quotaExceeded MAX_OPKS_PER_DEVICE currentCount
      else
        statement (.insertOpks userId deviceId keys)
        return .stored keys.length

def getInventory (userId : String) (deviceId : Option String) : Route Reply := do
  match deviceId with
  | none => return .error 409 "DEVICE_SESSION_REQUIRED"
  | some deviceId =>
    let count ← statement (.countOpks userId deviceId)
    return .inventory count MAX_OPKS_PER_DEVICE

def handle : Request → Route Reply
  | .getBundle viewerId userId device_id => getBundle viewerId userId device_id
  | .postOneTime userId deviceId keys => postOneTime userId deviceId keys
  | .getInventory userId deviceId => getInventory userId deviceId

def keys : Transactional Db Session Statement Db.World Statement.Result Request Reply where
  session := ⟨none⟩
  answer := answer
  rollback := Db.unlock
  world := Db.world
  handle := handle

/-- Nothing has happened yet; the rows have serial numbers of their own. -/
structure Fresh (db : Db) : Prop where
  deleting : db.deleting = []
  resolved : db.history.resolved = []
  popped : db.history.popped = []
  nodup : (db.onetimePrekeys.map OneTimePrekey.serial).Nodup
  serial_lt : ∀ r ∈ db.onetimePrekeys, r.serial < db.nextSerial

end OneToThree.Prekeys
