import Mathlib.Data.List.Sort
import OneToThree.Lib.Service

/-!
# The devices of a user

The rows of one user in the table of devices, and the requests that create, promote, revoke
and reauthorize them, as programs over the statements of the database (`Lib.Service`). A
transaction is one statement.

One of the devices is the master, which the others are not to revoke.
-/

namespace OneToThree.DeviceSessions

/-- A row of the table of devices. -/
structure Device where
  id : ℕ
  clientDeviceKey : String
  deviceName : String
  isMaster : Bool
  lastActive : ℕ
  userAgent : Option String
  ipAddress : Option String
  revokedAt : Option ℕ
  deriving DecidableEq

/-- What the headers of a request tell of its browser. -/
structure Browser where
  clientKey : String
  /-- Empty without the header. -/
  deviceName : String
  ua : Option String
  ip : Option String
  deriving DecidableEq

structure Store where
  devices : List Device
  /-- The id of the next row. -/
  nextId : ℕ
  now : ℕ

/-! ## Statements -/

inductive Statement
  | selectByKey (clientKey : String)
  | selectById (deviceId : ℕ)
  | touch (deviceId : ℕ) (browser : Browser)
  /-- How many devices are not revoked. -/
  | countLive
  | count
  /-- Does nothing, and returns nothing, where the key is there. -/
  | insert (browser : Browser) (isMaster : Bool)
  /-- The transaction that makes a device the master, and no other. -/
  | promote (deviceId : ℕ)
  /-- The transaction of a reauthorization. -/
  | reauthorize (deviceId : ℕ)
  /-- The transaction that revokes a device. -/
  | revoke (deviceId : ℕ)
  /-- The transaction that revokes all the devices, except the current one if there is one. -/
  | revokeAll (currentDeviceId : Option ℕ)
  /-- An admin revokes a device that is not revoked. -/
  | forceRevoke (deviceId : ℕ)
  | deleteRevoked
  | deleteOthers (currentDeviceId : ℕ)
  /-- Links a device: an insert, or an update where the key is there. -/
  | link (browser : Browser)
  | list
  | elapse (ms : ℕ)
  deriving DecidableEq

abbrev Statement.Result : Statement → Type
  | .selectByKey _ | .selectById _ => Option Device
  | .countLive | .count => ℕ
  | .insert _ _ => Option ℕ
  | .revoke _ | .forceRevoke _ => Bool
  | .revokeAll _ => List ℕ
  | .list => List Device
  | .touch _ _ | .promote _ | .reauthorize _ | .deleteRevoked | .deleteOthers _ | .link _
  | .elapse _ => Unit

namespace Store

/-- The rows that `p` holds of are updated. -/
def update (s : Store) (p : Device → Bool) (f : Device → Device) : Store :=
  { s with devices := s.devices.map fun d => if p d then f d else d }

def delete (s : Store) (p : Device → Bool) : Store :=
  { s with devices := s.devices.filter fun d => !p d }

/-- There is a row with the key. -/
def hasKey (s : Store) (clientKey : String) : Bool :=
  s.devices.any fun d => d.clientDeviceKey = clientKey

def newDevice (s : Store) (browser : Browser) (isMaster : Bool) : Device where
  id := s.nextId
  clientDeviceKey := browser.clientKey
  deviceName := browser.deviceName
  isMaster := isMaster
  lastActive := s.now
  userAgent := browser.ua
  ipAddress := browser.ip
  revokedAt := none

def add (s : Store) (d : Device) : Store :=
  { s with devices := s.devices ++ [d], nextId := s.nextId + 1 }

def touched (s : Store) (browser : Browser) (d : Device) : Device :=
  { d with
    lastActive := s.now, deviceName := browser.deviceName, userAgent := browser.ua
    ipAddress := browser.ip }

def promote (s : Store) (deviceId : ℕ) : Store :=
  (s.update (fun _ => true) fun d => { d with isMaster := false }).update (·.id = deviceId)
    fun d => { d with isMaster := true }

def revoked (s : Store) (d : Device) : Device := { d with revokedAt := some s.now }

def reauthorized (s : Store) (d : Device) : Device :=
  { d with revokedAt := none, lastActive := s.now }

def link (s : Store) (browser : Browser) : Store :=
  if s.hasKey browser.clientKey then
    s.update (·.clientDeviceKey = browser.clientKey) fun d =>
      { s.touched browser d with isMaster := false, revokedAt := none }
  else s.add (s.newDevice browser false)

def answer (s : Store) : (q : Statement) → q.Result × Store
  | .selectByKey clientKey => (s.devices.find? (·.clientDeviceKey = clientKey), s)
  | .selectById deviceId => (s.devices.find? (·.id = deviceId), s)
  | .touch deviceId browser => ((), s.update (·.id = deviceId) (s.touched browser))
  | .countLive => (s.devices.countP (·.revokedAt.isNone), s)
  | .count => (s.devices.length, s)
  | .insert browser isMaster =>
    if s.hasKey browser.clientKey then (none, s)
    else (some s.nextId, s.add (s.newDevice browser isMaster))
  | .promote deviceId => ((), s.promote deviceId)
  | .reauthorize deviceId => ((), s.update (·.id = deviceId) s.reauthorized)
  | .revoke deviceId => (s.devices.any (·.id = deviceId), s.update (·.id = deviceId) s.revoked)
  | .revokeAll currentDeviceId =>
    ((s.devices.filter (currentDeviceId ≠ some ·.id)).map (·.id),
      s.update (currentDeviceId ≠ some ·.id) s.revoked)
  | .forceRevoke deviceId =>
    (s.devices.any fun d => d.id = deviceId && d.revokedAt.isNone,
      s.update (fun d => d.id = deviceId && d.revokedAt.isNone) s.revoked)
  | .deleteRevoked => ((), s.delete (·.revokedAt.isSome))
  | .deleteOthers currentDeviceId => ((), s.delete (·.id ≠ currentDeviceId))
  | .link browser => ((), s.link browser)
  | .list => (s.devices.insertionSort fun d e => e.lastActive ≤ d.lastActive, s)
  | .elapse ms => ((), { s with now := s.now + ms })

end Store

/-! ## Requests -/

inductive Request
  /-- The session of a login. -/
  | upsertDeviceForSession (browser : Browser)
  /-- The first session of a user without devices. -/
  | maybeAutoMigrateDevice (userId : String)
  /-- `PATCH /users/me/devices/:deviceId/master` -/
  | patchMaster (deviceId : ℕ) (currentDeviceId : Option ℕ)
  /-- `POST /users/me/devices/:deviceId/reauthorize` -/
  | reauthorize (deviceId : ℕ)
  /-- `DELETE /users/me/devices/:deviceId` -/
  | deleteDevice (deviceId : ℕ)
  /-- `DELETE /users/me/sessions/:sessionId` -/
  | deleteSession (sessionId : ℕ)
  /-- `DELETE /users/me/sessions` -/
  | deleteSessions (currentDeviceId : Option ℕ)
  /-- `POST /users/me/devices/clear-revoked` -/
  | clearRevoked
  /-- `POST /users/me/devices/revoke-all-others` and `DELETE /users/me/devices/others` -/
  | deleteOthers (currentDeviceId : Option ℕ)
  /-- `POST /devices/link/confirm` -/
  | linkConfirm (browser : Browser)
  /-- `DELETE /admin/devices/:deviceId` -/
  | adminRevoke (deviceId : ℕ)
  /-- The clock. -/
  | elapse (ms : ℕ)
  deriving DecidableEq

inductive DeviceUpsertError
  | DEVICE_REVOKED
  | CLIENT_DEVICE_ID_REQUIRED
  deriving DecidableEq

inductive Reply
  | error (status : ℕ) (code : String)
  | ok
  | upserted (result : Except DeviceUpsertError ℕ)
  | devices (current_device_id : Option ℕ) (devices : List Device)
  | requires_relink (device_id : ℕ)
  deriving DecidableEq

abbrev Route := Program Statement Statement.Result Reply

abbrev statement (q : Statement) : Program Statement Statement.Result q.Result := Program.request q

/-- A browser without a name has the given one. -/
def Browser.withName (browser : Browser) (name : String) : Browser :=
  if browser.deviceName = "" then { browser with deviceName := name } else browser

/-- A device is there: it is used again, unless it is revoked. -/
def refresh (browser : Browser) (existing : Device) : Route := do
  if existing.revokedAt.isSome then return .upserted (.error .DEVICE_REVOKED)
  else
    let _ ← statement (.touch existing.id browser)
    return .upserted (.ok existing.id)

def upsertDeviceForSession (browser : Browser) : Route := do
  let browser := browser.withName "Unknown device"
  if browser.clientKey.length < 4 then return .upserted (.error .CLIENT_DEVICE_ID_REQUIRED)
  else match ← statement (.selectByKey browser.clientKey) with
    | some existing => refresh browser existing
    | none =>
      -- The first device of the user is the master.
      let existingDevices ← statement .countLive
      match ← statement (.insert browser (existingDevices = 0)) with
      | some deviceId => return .upserted (.ok deviceId)
      | none => match ← statement (.selectByKey browser.clientKey) with
        | none => return .upserted (.error .DEVICE_REVOKED)
        | some afterConflict => refresh browser afterConflict

def getMigratedClientKey (userId : String) : String := "migrated:" ++ userId

def maybeAutoMigrateDevice (userId : String) : Route := do
  if 0 < (← statement .count) then return .ok
  else
    let browser : Browser :=
      ⟨getMigratedClientKey userId, "Primary device (migrated)", none, none⟩
    let _ ← statement (.insert browser true)
    return .ok

def patchMaster (deviceId : ℕ) (currentDeviceId : Option ℕ) : Route := do
  match ← statement (.selectById deviceId) with
  | none => return .error 404 "DEVICE_NOT_FOUND"
  | some existingDevice =>
    if existingDevice.revokedAt.isSome then return .error 409 "CANNOT_PROMOTE_REVOKED_DEVICE"
    else
      let _ ← statement (.promote deviceId)
      return .devices currentDeviceId (← statement .list)

def reauthorize (deviceId : ℕ) : Route := do
  match ← statement (.selectById deviceId) with
  | none => return .error 404 "DEVICE_NOT_FOUND"
  | some target =>
    if target.isMaster then return .error 403 "CANNOT_REAUTHORIZE_MASTER_DEVICE"
    else if target.revokedAt.isNone then return .error 409 "DEVICE_NOT_REVOKED"
    else
      let _ ← statement (.reauthorize deviceId)
      return .requires_relink deviceId

def deleteDevice (deviceId : ℕ) : Route := do
  match ← statement (.selectById deviceId) with
  | none => return .error 404 "DEVICE_NOT_FOUND"
  | some deviceToRevoke =>
    if deviceToRevoke.isMaster then return .error 403 "CANNOT_REVOKE_MASTER_DEVICE"
    else return if ← statement (.revoke deviceId) then .ok else .error 404 "DEVICE_NOT_FOUND"

/-- Unlike `deleteDevice`, revokes the master as well. -/
def deleteSession (sessionId : ℕ) : Route := do
  return if ← statement (.revoke sessionId) then .ok else .error 404 "SESSION_NOT_FOUND"

def deleteSessions (currentDeviceId : Option ℕ) : Route := do
  let _ ← statement (.revokeAll currentDeviceId)
  return .ok

def clearRevoked : Route := do
  let _ ← statement .deleteRevoked
  return .ok

def deleteOthers (currentDeviceId : Option ℕ) : Route := do
  match currentDeviceId with
  | none => return .error 400 "MISSING_CURRENT_DEVICE"
  | some currentDeviceId =>
    let _ ← statement (.deleteOthers currentDeviceId)
    return .ok

def linkConfirm (browser : Browser) : Route := do
  let _ ← statement (.link (browser.withName "Linked device"))
  return .ok

def adminRevoke (deviceId : ℕ) : Route := do
  return if ← statement (.forceRevoke deviceId) then .ok else .error 404 "DEVICE_NOT_FOUND"

def handle : Request → Route
  | .upsertDeviceForSession browser => upsertDeviceForSession browser
  | .maybeAutoMigrateDevice userId => maybeAutoMigrateDevice userId
  | .patchMaster deviceId currentDeviceId => patchMaster deviceId currentDeviceId
  | .reauthorize deviceId => reauthorize deviceId
  | .deleteDevice deviceId => deleteDevice deviceId
  | .deleteSession sessionId => deleteSession sessionId
  | .deleteSessions currentDeviceId => deleteSessions currentDeviceId
  | .clearRevoked => clearRevoked
  | .deleteOthers currentDeviceId => deleteOthers currentDeviceId
  | .linkConfirm browser => linkConfirm browser
  | .adminRevoke deviceId => adminRevoke deviceId
  | .elapse ms => do let _ ← statement (.elapse ms); return .ok

/-- The service of the devices of one user. -/
def service : Service Store Statement Statement.Result Request Reply where
  answer := Store.answer
  handle := handle

end OneToThree.DeviceSessions
