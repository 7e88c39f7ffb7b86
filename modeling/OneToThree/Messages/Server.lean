import OneToThree.Lib.Service
import Mathlib.Data.List.Induction
import Mathlib.Data.List.Sort

/-!
# The messages of the server

The rows of `messages` with their per-device slots (`message_deliveries`), the statements
and transactions that run on them, each atomic, and the routes that send, edit, pull and
acknowledge messages, as programs over these statements (`Lib.Service`).

What else runs on the same database is there as well: the server's own inserts of
`system:v1` and `poll:v1` rows, the tombstones of deleted accounts, deleted rows, the
membership, device and block tables, which other routes change at will, and the clock.

A request comes with the session of its caller. Without one, every route here answers
`401` before it does anything.
-/

namespace OneToThree.Messages.Server

abbrev UserId := String
abbrev DeviceId := String
abbrev ChatId := String

/-- Stands for the random UUID of a row: the ids are drawn fresh, in order. -/
abbrev MessageId := ℕ

/-! ## Rows -/

inductive ChatType
  | direct_e2e
  | group_e2e
  | public_open
  | channel
  deriving DecidableEq

inductive ChannelRole
  | subscriber
  | editor
  | owner
  deriving DecidableEq

/-- A row of `message_deliveries`, of the device it is filed under. -/
structure Slot where
  userId : UserId
  ciphertext : String
  iv : String
  deliveredAt : Option ℕ
  deriving DecidableEq

/-- A row of `messages`, with its slots. The last two fields are history, which no
    statement reads. -/
structure Message where
  chatId : ChatId
  senderId : UserId
  replyToId : Option MessageId
  content : Option String
  iv : Option String
  mediaPath : Option String
  protocolVersion : ℕ
  drHeader : Option String
  drInit : Option String
  createdAt : ℕ
  editedAt : Option ℕ
  slots : InsMap DeviceId Slot
  /-- The device whose session sent it. -/
  sentFrom : Option DeviceId
  /-- What the server wrote, if it has stamped the row. -/
  stamped : Option String

structure Member where
  chatId : ChatId
  userId : UserId
  channelRole : Option ChannelRole

structure Device where
  id : DeviceId
  userId : UserId
  revoked : Bool

/-- The tables that other routes write. -/
structure Tables where
  members : List Member
  chats : InsMap ChatId ChatType
  devices : List Device
  /-- Who has blocked whom. -/
  userBlocks : List (UserId × UserId)

structure Db where
  tables : Tables
  messages : InsMap MessageId Message
  nextId : MessageId
  clock : ℕ

def Db.isMember (db : Db) (chatId : ChatId) (userId : UserId) : Bool :=
  db.tables.members.any fun m => m.chatId = chatId && m.userId = userId

/-! ## Sentinels -/

/-- What `String.prototype.trim` removes. -/
def isJsSpace (c : Char) : Bool :=
  c.toNat ∈ [0x9, 0xa, 0xb, 0xc, 0xd, 0x20, 0xa0, 0x1680, 0x2000, 0x2001, 0x2002, 0x2003, 0x2004,
    0x2005, 0x2006, 0x2007, 0x2008, 0x2009, 0x200a, 0x2028, 0x2029, 0x202f, 0x205f, 0x3000, 0xfeff]

def trim (s : String) : String :=
  String.ofList ((s.toList.dropWhile isJsSpace).reverse.dropWhile isJsSpace).reverse

inductive Sentinel
  | system
  | poll
  deriving DecidableEq

def Sentinel.iv : Sentinel → String
  | .system => "system:v1"
  | .poll => "poll:v1"

def reservedIvSentinels : List String := [Sentinel.system.iv, Sentinel.poll.iv]

def usesReservedIvSentinel (iv : Option String) : Bool :=
  match iv with
  | some iv => trim iv ∈ reservedIvSentinels
  | none => false

/-! ## Bodies -/

/-- The length of a text in UTF-16 code units. -/
def jsLength (s : String) : ℕ :=
  s.toList.foldl (fun n c => if c.toNat < 0x10000 then n + 1 else n + 2) 0

/-- An element of `ciphertexts`. -/
structure BodySlot where
  device_id : DeviceId
  ciphertext : String
  iv : String
  deriving DecidableEq

def BodySlot.valid (slot : BodySlot) : Bool := slot.ciphertext ≠ "" && slot.iv ≠ ""

/-- The body of a send, with `none` for what is null or absent. -/
structure SendMessageBody where
  chat_id : ChatId
  content : Option String := none
  iv : Option String := none
  media_path : Option String := none
  attachment_keys : List String := []
  reply_to_id : Option MessageId := none
  burn_at : Option String := none
  burn_duration_secs : Option ℕ := none
  ciphertexts : Option (List BodySlot) := none
  protocol_version : Option ℕ := none
  dr_header : Option String := none
  dr_init : Option String := none

/-- `sendMessageBodySchema`, less the shape of the ids. -/
def SendMessageBody.valid (p : SendMessageBody) : Bool :=
  (p.attachment_keys.all (· ≠ "") && p.attachment_keys.length ≤ 20) &&
  p.burn_duration_secs.all (fun secs => 1 ≤ secs && secs ≤ 2592000) &&
  p.ciphertexts.all (fun slots => 1 ≤ slots.length && slots.length ≤ 50 &&
    slots.all BodySlot.valid) &&
  p.protocol_version.all (fun v => v = 1 || v = 2) &&
  p.dr_header.all (fun h => 1 ≤ jsLength h && jsLength h ≤ 4096) &&
  p.dr_init.all (fun h => 1 ≤ jsLength h && jsLength h ≤ 8192) &&
  -- A `protocol_version` of 2 needs a header: per slot, or a single one.
  (p.protocol_version ≠ some 2 || p.ciphertexts.isSome || p.dr_header.isSome)

structure EditMessageBody where
  content : Option String := none
  iv : Option String := none
  ciphertexts : Option (List BodySlot) := none

def EditMessageBody.valid (body : EditMessageBody) : Bool :=
  body.ciphertexts.all fun slots => slots.length ≤ 50 && slots.all BodySlot.valid

/-- A row that a device acknowledges. The request only has its id; the ciphertext is the
    one that the device was shown under it. -/
structure Acked where
  id : MessageId
  ciphertext : String
  deriving DecidableEq

/-! ## Statements -/

structure DeliverySlot where
  deviceId : DeviceId
  userId : UserId
  ciphertext : String
  iv : String
  deliveredAt : Option ℕ
  deriving DecidableEq

/-- `PersistChatMessageInput`, with the device that sends. -/
structure PersistInput where
  chatId : ChatId
  senderId : UserId
  replyToId : Option MessageId
  content : Option String
  iv : Option String
  mediaPath : Option String
  protocolVersion : ℕ
  drHeader : Option String
  drInit : Option String
  deliverySlots : List DeliverySlot
  callerDeviceId : Option DeviceId

/-- A row as it is sent to a device. -/
structure ApiRow where
  id : MessageId
  chat_id : ChatId
  sender_id : UserId
  reply_to_id : Option MessageId
  content : Option String
  iv : Option String
  device_ciphertext : Option String
  device_iv : Option String
  deriving DecidableEq

inductive Statement
  /-- The caller's membership, with the channel role. -/
  | member (chatId : ChatId) (userId : UserId)
  | memberIds (chatId : ChatId)
  | chatType (chatId : ChatId)
  | isBlocked (userA userB : UserId)
  /-- Chat and sender of a message. -/
  | message (id : MessageId)
  /-- The devices of some users that are not revoked, each with its owner. -/
  | devices (userIds : List UserId)
  | now
  | persist (input : PersistInput)
  | edit (id : MessageId) (content iv : Option String) (slots : List BodySlot)
  | pending (userId : UserId) (deviceId : DeviceId) (chatId : Option ChatId)
  | delivered (userId : UserId) (deviceId : DeviceId) (acked : List Acked)
  /-- The server's own insert of a row under a sentinel. -/
  | stamp (chatId : ChatId) (senderId : UserId) (sentinel : Sentinel) (content : String)
  /-- The messages of a deleted account. -/
  | tombstone (userId : UserId)
  /-- A row is deleted: by its sender, by its burn timer, or with its chat. -/
  | delete (id : MessageId)
  | become (tables : Tables)
  | elapse (ms : ℕ)

abbrev Statement.Result : Statement → Type
  | .member _ _ => Option (Option ChannelRole)
  | .memberIds _ => List UserId
  | .chatType _ => Option ChatType
  | .isBlocked _ _ => Bool
  | .message _ => Option (ChatId × UserId)
  | .devices _ => List (DeviceId × UserId)
  | .now => ℕ
  | .persist _ => MessageId
  | .edit _ _ _ _ => ℕ
  | .pending _ _ _ => List ApiRow
  | .delivered _ _ _ => List MessageId
  | .stamp _ _ _ _ | .tombstone _ | .delete _ | .become _ | .elapse _ => Unit

/-- `INSERT ... ON CONFLICT DO NOTHING` of the slots of a new row, in their order. -/
def insertSlots (deliverySlots : List DeliverySlot) : InsMap DeviceId Slot :=
  deliverySlots.foldl (fun slots s =>
    if slots.has s.deviceId then slots
    else slots.set s.deviceId ⟨s.userId, s.ciphertext, s.iv, s.deliveredAt⟩) ∅

/-- The new row of a message, at the time `now`. -/
def PersistInput.row (input : PersistInput) (now : ℕ) : Message where
  chatId := input.chatId
  senderId := input.senderId
  replyToId := input.replyToId
  content := input.content
  iv := input.iv
  mediaPath := input.mediaPath
  protocolVersion := input.protocolVersion
  drHeader := if input.protocolVersion = 2 then input.drHeader else none
  drInit := if input.protocolVersion = 2 then input.drInit else none
  createdAt := now
  editedAt := none
  slots := insertSlots input.deliverySlots
  sentFrom := input.callerDeviceId
  stamped := none

/-- The row that the server inserts for itself. -/
def stampedRow (chatId : ChatId) (senderId : UserId) (sentinel : Sentinel) (content : String)
    (now : ℕ) : Message where
  chatId := chatId
  senderId := senderId
  replyToId := none
  content := some content
  iv := some sentinel.iv
  mediaPath := none
  protocolVersion := 1
  drHeader := none
  drInit := none
  createdAt := now
  editedAt := none
  slots := ∅
  sentFrom := none
  stamped := some content

/-- The slots after the updates of an edit, one for each element, in their order. -/
def updateSlots (slots : InsMap DeviceId Slot) (ciphertexts : List BodySlot) :
    InsMap DeviceId Slot :=
  ciphertexts.foldl (fun slots slot =>
    match slots.get? slot.device_id with
    | some stored => slots.set slot.device_id
        { stored with ciphertext := slot.ciphertext, iv := slot.iv, deliveredAt := none }
    | none => slots) slots

/-- The transaction of an edit: what is null or absent in the body is left as it is. -/
def Message.edit (m : Message) (content iv : Option String) (ciphertexts : List BodySlot)
    (now : ℕ) : Message :=
  { m with
    content := content <|> m.content
    iv := iv <|> m.iv
    editedAt := some now
    slots := updateSlots m.slots ciphertexts }

/-- A device has acknowledged a message: its slot is delivered, if it has one. -/
def Message.deliver (m : Message) (userId : UserId) (deviceId : DeviceId) (now : ℕ) : Message :=
  match m.slots.get? deviceId with
  | some slot =>
    if slot.userId = userId then
      { m with slots := m.slots.set deviceId { slot with deliveredAt := some now } }
    else m
  | none => m

def deletedUserId : UserId := "00000000-0000-4000-8000-000000000000"

/-- What becomes of a message of a deleted account. -/
def Message.redact (m : Message) (userId : UserId) : Message :=
  if m.senderId = userId then
    { m with
      senderId := deletedUserId
      content := some "[deleted]"
      iv := some Sentinel.system.iv
      mediaPath := none
      protocolVersion := 1
      drHeader := none
      drInit := none
      slots := ∅
      stamped := some "[deleted]" }
  else m

def pendingLimit : ℕ := 200

/-- The row of a message as a device pulls it, if its slot is not delivered yet. -/
def Message.pending (m : Message) (id : MessageId) (userId : UserId) (deviceId : DeviceId) :
    Option ApiRow := do
  let slot ← m.slots.get? deviceId
  if slot.userId = userId ∧ slot.deliveredAt = none then
    return ⟨id, m.chatId, m.senderId, m.replyToId, m.content, m.iv, some slot.ciphertext,
      some slot.iv⟩
  else none

def Db.pending (db : Db) (userId : UserId) (deviceId : DeviceId) (chatId : Option ChatId) :
    List ApiRow :=
  let messages := db.messages.entries.filter fun (_, m) =>
    db.isMember m.chatId userId && chatId.all (m.chatId = ·)
  let byCreation := messages.insertionSort fun (_, m) (_, m') => m.createdAt ≤ m'.createdAt
  (byCreation.filterMap fun (id, m) => m.pending id userId deviceId).take pendingLimit

/-- The slot of a device is updated by an acknowledgement. -/
def Db.acknowledges (db : Db) (userId : UserId) (deviceId : DeviceId) (id : MessageId) : Bool :=
  ((db.messages.get? id).bind fun m => m.slots.get? deviceId).any fun slot => slot.userId = userId

def Db.modify (db : Db) (id : MessageId) (f : Message → Message) : Db :=
  match db.messages.get? id with
  | some m => { db with messages := db.messages.set id (f m) }
  | none => db

def Db.insert (db : Db) (m : Message) : Db :=
  { db with messages := db.messages.set db.nextId m, nextId := db.nextId + 1 }

def Db.answer (db : Db) : (q : Statement) → q.Result × Db
  | .member chatId userId =>
    ((db.tables.members.find? fun m => m.chatId = chatId && m.userId = userId).map (·.channelRole),
      db)
  | .memberIds chatId =>
    ((db.tables.members.filter (·.chatId = chatId)).map (·.userId), db)
  | .chatType chatId => (db.tables.chats.get? chatId, db)
  | .isBlocked a b =>
    (decide ((a, b) ∈ db.tables.userBlocks ∨ (b, a) ∈ db.tables.userBlocks), db)
  | .message id => ((db.messages.get? id).map fun m => (m.chatId, m.senderId), db)
  | .devices userIds =>
    ((db.tables.devices.filter fun d => decide (d.userId ∈ userIds) && !d.revoked).map
      fun d => (d.id, d.userId), db)
  | .now => (db.clock, db)
  | .persist input => (db.nextId, db.insert (input.row db.clock))
  | .edit id content iv ciphertexts =>
    (db.clock, db.modify id fun m => m.edit content iv ciphertexts db.clock)
  | .pending userId deviceId chatId => (db.pending userId deviceId chatId, db)
  | .delivered userId deviceId acked =>
    ((acked.map Acked.id).filter (db.acknowledges userId deviceId ·),
      (acked.map Acked.id).foldl (fun db id => db.modify id fun m =>
        m.deliver userId deviceId db.clock) db)
  | .stamp chatId senderId sentinel content =>
    ((), db.insert (stampedRow chatId senderId sentinel content db.clock))
  | .tombstone userId => ((), { db with messages := db.messages.map (·.redact userId) })
  | .delete id => ((), { db with messages := db.messages.delete id })
  | .become tables => ((), { db with tables := tables })
  | .elapse ms => ((), { db with clock := db.clock + ms })

/-! ## Routes -/

structure Session where
  userId : UserId
  deviceId : Option DeviceId
  deriving DecidableEq

inductive Request
  /-- `POST /messages/send` -/
  | send (sess : Session) (p : SendMessageBody)
  /-- `PATCH /messages/:messageId` -/
  | edit (sess : Session) (messageId : MessageId) (body : EditMessageBody)
  /-- `GET /messages/sync/pending` -/
  | pending (sess : Session) (chatId : Option ChatId)
  /-- `POST /messages/delivered` -/
  | delivered (sess : Session) (acked : List Acked)
  /-- What the server does for itself, and what other routes do. -/
  | stamp (chatId : ChatId) (senderId : UserId) (sentinel : Sentinel) (content : String)
  | tombstone (userId : UserId)
  | delete (id : MessageId)
  | become (tables : Tables)
  | elapse (ms : ℕ)

inductive Reply
  | error (status : ℕ) (code : String)
  | sent (row : ApiRow)
  | edited (at_ : ℕ)
  | pending (messages : List ApiRow)
  | delivered (updated_count missed_count : ℕ)
  | ok
  deriving DecidableEq

abbrev Query := Program Statement Statement.Result

abbrev query (q : Statement) : Query q.Result := Program.request q

/-- `String.prototype.includes` -/
def includes (s searchString : String) : Bool :=
  s.toList.tails.any (searchString.toList.isPrefixOf ·)

def isOwnedMediaKey (key : String) (chatId : ChatId) (uploaderId : UserId) : Bool :=
  trim key ≠ "" && !includes key ".." && !(key.toList.contains '\\') &&
    ("chats/" ++ chatId ++ "/" ++ uploaderId ++ "/").toList.isPrefixOf key.toList

def channelRoleAllowsPost (channelRole : Option ChannelRole) : Bool :=
  channelRole = some .editor || channelRole = some .owner

def burnMaxMs : ℤ := 30 * 24 * 60 * 60 * 1000
def clockSkewMs : ℤ := 5000

/-- What is refused of an absolute burn time. `parseDate` is `new Date(raw).getTime()`. -/
def parseOptionalBurnAt (parseDate : String → Option ℤ) (now : ℕ) (raw : Option String) :
    Option String :=
  match raw with
  | none => none
  | some "" => none
  | some raw =>
    match parseDate raw with
    | none => some "INVALID_BURN_AT"
    | some t =>
      if t ≤ now + clockSkewMs then some "BURN_AT_PAST"
      else if t - now > burnMaxMs then some "BURN_AT_TOO_FAR"
      else none

variable (parseDate : String → Option ℤ)

/-- The slots of a new row: those of the members' devices, with their owners. -/
def deliverySlots (deviceRows : List (DeviceId × UserId)) (callerDeviceId : Option DeviceId)
    (now : ℕ) (ciphertexts : List BodySlot) : List DeliverySlot :=
  ciphertexts.filterMap fun slot =>
    (deviceRows.reverse.lookup slot.device_id).map fun owner =>
      ⟨slot.device_id, owner, slot.ciphertext, slot.iv,
        if callerDeviceId = some slot.device_id then some now else none⟩

/-- The parent of a reply, if it is in the same chat. -/
def replyParent (chatId : ChatId) : Option MessageId → Query (Option MessageId)
  | none => return none
  | some replyToId => do
    match ← query (.message replyToId) with
    | some (parentChat, _) => return if parentChat = chatId then some replyToId else none
    | none => return none

def resolveSlots (sess : Session) (allMembers : List UserId) :
    Option (List BodySlot) → Query (List DeliverySlot)
  | none => return []
  | some ciphertexts => do
    let deviceRows ← query (.devices allMembers)
    let now ← query .now
    return deliverySlots deviceRows sess.deviceId now ciphertexts

/-- The last part of a send: the slots are resolved, and the row is persisted. -/
def persistMessage (sess : Session) (p : SendMessageBody) (isDirectChat : Bool)
    (allMembers : List UserId) : Query Reply := do
  let replyToId ← replyParent p.chat_id p.reply_to_id
  let slots ← resolveSlots sess allMembers p.ciphertexts
  let content := if isDirectChat then none else p.content
  let iv := if isDirectChat then none else p.iv
  let id ← query (.persist
    { chatId := p.chat_id, senderId := sess.userId, replyToId, content, iv
      mediaPath := p.media_path
      protocolVersion := p.protocol_version.getD 1
      drHeader := p.dr_header, drInit := p.dr_init
      deliverySlots := slots
      callerDeviceId := sess.deviceId })
  let callerSlot := (p.ciphertexts.getD []).find? fun slot => sess.deviceId = some slot.device_id
  return .sent ⟨id, p.chat_id, sess.userId, replyToId, content, iv, callerSlot.map (·.ciphertext),
    callerSlot.map (·.iv)⟩

def send (sess : Session) (p : SendMessageBody) : Query Reply := do
  if !p.valid then return .error 400 "INVALID_BODY"
  if usesReservedIvSentinel p.iv then return .error 400 "RESERVED_IV_SENTINEL"
  match ← query (.member p.chat_id sess.userId) with
  | none => return .error 403 "NOT_A_MEMBER"
  | some channelRole =>
    let owned := fun key => isOwnedMediaKey key p.chat_id sess.userId
    if !(p.media_path.all fun path => trim path = "" || owned path) then
      return .error 400 "INVALID_MEDIA_PATH"
    if !(p.attachment_keys.all owned) then return .error 400 "INVALID_MEDIA_PATH"
    let allMembers ← query (.memberIds p.chat_id)
    match ← query (.chatType p.chat_id) with
    | none => return .error 404 "CHAT_NOT_FOUND"
    | some type =>
      if type = .channel && !channelRoleAllowsPost channelRole then
        return .error 403 "CHANNEL_SUBSCRIBERS_CANNOT_POST"
      if type = .direct_e2e && p.ciphertexts.isNone then
        return .error 400 "DIRECT_FANOUT_REQUIRED"
      let blocked ← match type, allMembers.find? (· ≠ sess.userId) with
        | .direct_e2e, some peerId => query (.isBlocked sess.userId peerId)
        | _, _ => pure false
      if blocked then return .error 403 "BLOCKED"
      let now ← query .now
      let burnAt := if p.burn_duration_secs.isSome then none else p.burn_at
      match parseOptionalBurnAt parseDate now burnAt with
      | some error => return .error 400 error
      | none => persistMessage sess p (type = .direct_e2e) allMembers

def edit (sess : Session) (messageId : MessageId) (body : EditMessageBody) : Query Reply := do
  if !body.valid then return .error 400 "INVALID_BODY"
  if usesReservedIvSentinel body.iv then return .error 400 "RESERVED_IV_SENTINEL"
  match ← query (.message messageId) with
  | none => return .error 404 "MESSAGE_NOT_FOUND"
  | some (chatId, senderId) =>
    if senderId ≠ sess.userId then return .error 403 "NOT_SENDER"
    match ← query (.member chatId sess.userId) with
    | none => return .error 403 "NOT_A_MEMBER"
    | some _ =>
      let now ← query (.edit messageId body.content body.iv (body.ciphertexts.getD []))
      return .edited now

def syncPending (sess : Session) (chatId : Option ChatId) : Query Reply :=
  match sess.deviceId with
  | none => return .error 400 "DEVICE_SESSION_REQUIRED"
  | some deviceId => do
    let rows ← query (.pending sess.userId deviceId chatId)
    return .pending rows

def delivered (sess : Session) (acked : List Acked) : Query Reply := do
  if !(1 ≤ acked.length && acked.length ≤ 200) then return .error 400 "INVALID_BODY"
  match sess.deviceId with
  | none => return .error 400 "DEVICE_SESSION_REQUIRED"
  | some deviceId =>
    let updated ← query (.delivered sess.userId deviceId acked)
    let missed := acked.filter (·.id ∉ updated)
    return .delivered updated.dedup.length missed.length

/-- A statement of its own. -/
def statement (q : Statement) : Query Reply := do
  let _ ← query q
  return .ok

def handle : Request → Query Reply
  | .send sess p => send parseDate sess p
  | .edit sess messageId body => edit sess messageId body
  | .pending sess chatId => syncPending sess chatId
  | .delivered sess acked => delivered sess acked
  | .stamp chatId senderId sentinel content => statement (.stamp chatId senderId sentinel content)
  | .tombstone userId => statement (.tombstone userId)
  | .delete id => statement (.delete id)
  | .become tables => statement (.become tables)
  | .elapse ms => statement (.elapse ms)

/-- The service of the messages. -/
def service : Service Db Statement Statement.Result Request Reply where
  answer := Db.answer
  handle := handle parseDate

/-! ## What the statements do -/

theorem get?_insertSlots (slots : List DeliverySlot) (d : DeviceId) :
    (insertSlots slots).get? d = (slots.find? (·.deviceId = d)).map fun s =>
      ⟨s.userId, s.ciphertext, s.iv, s.deliveredAt⟩ := by
  suffices h : ∀ stored : InsMap DeviceId Slot, (slots.foldl (fun slots s =>
      if slots.has s.deviceId then slots
      else slots.set s.deviceId ⟨s.userId, s.ciphertext, s.iv, s.deliveredAt⟩) stored).get? d =
      (stored.get? d).or ((slots.find? (·.deviceId = d)).map fun s =>
        ⟨s.userId, s.ciphertext, s.iv, s.deliveredAt⟩) by
    rw [insertSlots, h, InsMap.get?_empty, Option.none_or]
  induction slots with
  | nil => simp
  | cons s slots ih =>
    intro stored
    rw [List.foldl_cons, ih, List.find?_cons]
    by_cases hd : s.deviceId = d
    · subst hd
      cases hget : stored.get? s.deviceId <;> simp [InsMap.has, hget]
    · have hne : d ≠ s.deviceId := fun h => hd h.symm
      split_ifs <;> simp [hd, InsMap.get?_set_ne _ _ hne]

/-- An edit replaces the ciphertext of each stored slot that it names, by the last one
    given for it. -/
theorem get?_updateSlots (slots : InsMap DeviceId Slot) (ciphertexts : List BodySlot)
    (d : DeviceId) :
    (updateSlots slots ciphertexts).get? d = (slots.get? d).map fun stored =>
      match ciphertexts.reverse.find? (·.device_id = d) with
      | some slot =>
        { stored with ciphertext := slot.ciphertext, iv := slot.iv, deliveredAt := none }
      | none => stored := by
  -- The updates run from the first element on: the induction is on the last one.
  induction ciphertexts using List.reverseRecOn with
  | nil => simp [updateSlots]
  | append_singleton ciphertexts slot ih =>
    rw [updateSlots, List.foldl_append, List.foldl_cons, List.foldl_nil, ← updateSlots,
      List.reverse_append, List.reverse_singleton, List.singleton_append, List.find?_cons]
    by_cases hd : slot.device_id = d
    · subst hd
      simp only [decide_true]
      rw [ih]
      cases hget : slots.get? slot.device_id with
      | none => simp [ih, hget]
      | some stored =>
        rw [Option.map_some]
        simp only [InsMap.get?_set_self, Option.map_some]
        split <;> rfl
    · have hne : d ≠ slot.device_id := fun h => hd h.symm
      simp only [hd, decide_false]
      split
      · rw [InsMap.get?_set_ne _ _ hne, ih]
      · exact ih

theorem get?_modify (db : Db) (id j : MessageId) (f : Message → Message) :
    (db.modify id f).messages.get? j =
      if j = id then (db.messages.get? j).map f else db.messages.get? j := by
  rw [Db.modify]
  split_ifs with hj
  · subst hj
    cases hget : db.messages.get? j <;> simp [hget]
  · cases db.messages.get? id with
    | none => rfl
    | some m => exact InsMap.get?_set_ne _ _ hj

@[simp] theorem modify_clock (db : Db) (id : MessageId) (f : Message → Message) :
    (db.modify id f).clock = db.clock := by
  rw [Db.modify]
  split <;> rfl

theorem Message.deliver_deliver (m : Message) (userId : UserId) (deviceId : DeviceId) (now : ℕ) :
    (m.deliver userId deviceId now).deliver userId deviceId now = m.deliver userId deviceId now := by
  cases hget : m.slots.get? deviceId with
  | none => simp [Message.deliver, hget]
  | some slot =>
    by_cases huser : slot.userId = userId
    · simp only [Message.deliver, hget, huser, if_true, InsMap.get?_set_self]
      rw [InsMap.set_of_get? (InsMap.get?_set_self _ _ _)]
    · simp [Message.deliver, hget, huser]

theorem get?_delivers (ids : List MessageId) (db : Db) (userId : UserId) (deviceId : DeviceId)
    (j : MessageId) :
    (ids.foldl (fun db id => db.modify id fun m => m.deliver userId deviceId db.clock)
      db).messages.get? j =
      if j ∈ ids then (db.messages.get? j).map (·.deliver userId deviceId db.clock)
      else db.messages.get? j := by
  induction ids generalizing db with
  | nil => rfl
  | cons id ids ih =>
    rw [List.foldl_cons, ih, get?_modify, modify_clock]
    by_cases hj : j = id
    · subst hj
      by_cases hmem : j ∈ ids <;> cases db.messages.get? j <;> simp [hmem, Message.deliver_deliver]
    · simp [hj]

/-- Where a row comes from that is stored after a statement: each statement that writes
    messages is one case. -/
theorem answer_cases {db : Db} {q : Statement} {id : MessageId} {m' : Message}
    (h : (db.answer q).2.messages.get? id = some m') :
    db.messages.get? id = some m' ∨
    (∃ input, q = .persist input ∧ m' = input.row db.clock) ∨
    (∃ chatId senderId sentinel content, q = .stamp chatId senderId sentinel content ∧
      m' = stampedRow chatId senderId sentinel content db.clock) ∨
    ∃ m, db.messages.get? id = some m ∧
      ((∃ content iv ciphertexts, q = .edit id content iv ciphertexts ∧
        m' = m.edit content iv ciphertexts db.clock) ∨
      (∃ userId deviceId acked, q = .delivered userId deviceId acked ∧
        id ∈ acked.map Acked.id ∧ m' = m.deliver userId deviceId db.clock) ∨
      ∃ userId, q = .tombstone userId ∧ m' = m.redact userId) := by
  have hinsert : ∀ {m : Message}, (db.insert m).messages.get? id = some m' →
      db.messages.get? id = some m' ∨ m' = m := by
    intro m h
    rw [Db.insert, InsMap.get?_set] at h
    split_ifs at h
    · exact .inr (Option.some.inj h).symm
    · exact .inl h
  cases q with
  | persist input =>
    exact (hinsert h).imp_right fun h => .inl ⟨input, rfl, h⟩
  | stamp chatId senderId sentinel content =>
    exact (hinsert h).imp_right fun h => .inr (.inl ⟨_, _, _, _, rfl, h⟩)
  | edit j content iv ciphertexts =>
    rw [Db.answer, get?_modify] at h
    split_ifs at h with hj
    · obtain ⟨m, hm, rfl⟩ := Option.map_eq_some_iff.1 h
      exact .inr (.inr (.inr ⟨m, hm, .inl ⟨_, _, _, hj ▸ rfl, rfl⟩⟩))
    · exact .inl h
  | delivered userId deviceId acked =>
    rw [Db.answer, get?_delivers] at h
    split_ifs at h with hmem
    · obtain ⟨m, hm, rfl⟩ := Option.map_eq_some_iff.1 h
      exact .inr (.inr (.inr ⟨m, hm, .inr (.inl ⟨_, _, _, rfl, hmem, rfl⟩)⟩))
    · exact .inl h
  | tombstone userId =>
    rw [Db.answer, InsMap.get?_map] at h
    obtain ⟨m, hm, rfl⟩ := Option.map_eq_some_iff.1 h
    exact .inr (.inr (.inr ⟨m, hm, .inr (.inr ⟨_, rfl, rfl⟩)⟩))
  | delete j =>
    rw [Db.answer, InsMap.get?_delete] at h
    split_ifs at h
    exact .inl h
  | _ => exact .inl h

/-! ## What the routes ask for -/

/-- What is known of the statements that a request leads to: the guard on the `iv` of its
    body, that only the slot of the sending device is delivered from the start, and for
    whom an acknowledgement is. -/
def Request.MayAsk (a : Request) : Statement → Prop
  | .persist input => (∀ iv ∈ input.iv, iv ∉ reservedIvSentinels) ∧
      ∀ s ∈ input.deliverySlots, s.deliveredAt.isSome → input.callerDeviceId = some s.deviceId
  | .edit _ _ iv _ => ∀ x ∈ iv, x ∉ reservedIvSentinels
  | .delivered userId deviceId acked => a = .delivered ⟨userId, some deviceId⟩ acked
  | _ => True

/-- The guard refuses every sentinel, as it is or padded. -/
theorem notMem_of_not_usesReserved {iv : Option String} (h : ¬usesReservedIvSentinel iv) :
    ∀ x ∈ iv, x ∉ reservedIvSentinels := by
  rintro x rfl hmem
  have htrim : ∀ y ∈ reservedIvSentinels, trim y = y := by decide
  exact h (by rw [usesReservedIvSentinel, htrim x hmem]; exact decide_eq_true hmem)

/-- Only the slot of the sending device is delivered from the start. -/
theorem deliveredAt_deliverySlots {deviceRows : List (DeviceId × UserId)}
    {callerDeviceId : Option DeviceId} {now : ℕ} {ciphertexts : List BodySlot} {s : DeliverySlot}
    (hs : s ∈ deliverySlots deviceRows callerDeviceId now ciphertexts) (h : s.deliveredAt.isSome) :
    callerDeviceId = some s.deviceId := by
  obtain ⟨slot, -, hslot⟩ := List.mem_filterMap.1 hs
  obtain ⟨owner, -, rfl⟩ := Option.map_eq_some_iff.1 hslot
  dsimp only at h ⊢
  split_ifs at h with hd
  · exact hd
  · cases h

theorem edit_mayAsk (a : Request) (sess : Session) (messageId : MessageId) (body : EditMessageBody) :
    (edit sess messageId body).Along fun q _ => a.MayAsk q := by
  rw [edit]
  refine .ite (fun _ => trivial) fun _ => .ite (fun _ => trivial) fun hiv => ?_
  refine .request trivial fun msg => ?_
  rcases msg with _ | ⟨chatId, senderId⟩
  · trivial
  refine .ite (fun _ => trivial) fun _ => .request trivial fun memberOk => ?_
  rcases memberOk with _ | _
  · trivial
  exact .request (notMem_of_not_usesReserved hiv) fun _ => trivial

theorem persistMessage_mayAsk (a : Request) (sess : Session) (p : SendMessageBody) (isDirectChat : Bool)
    (allMembers : List UserId) (hiv : ¬usesReservedIvSentinel p.iv) :
    (persistMessage sess p isDirectChat allMembers).Along fun q _ => a.MayAsk q := by
  rw [persistMessage]
  refine .bind ?_ fun replyToId => ?_
  · cases p.reply_to_id with
    | none => trivial
    | some replyToId =>
      refine .request trivial fun parent => ?_
      cases parent <;> trivial
  have hiv' : ∀ iv ∈ (if isDirectChat then none else p.iv), iv ∉ reservedIvSentinels := by
    -- A direct chat stores no `iv` on the row at all.
    intro iv hmem
    split_ifs at hmem
    · cases hmem
    · exact notMem_of_not_usesReserved hiv iv hmem
  cases p.ciphertexts with
  | none => exact .request ⟨hiv', fun s hs => nomatch hs⟩ fun _ => trivial
  | some ciphertexts =>
    refine .request trivial fun deviceRows => .request trivial fun now => ?_
    exact .request ⟨hiv', fun s hs => deliveredAt_deliverySlots hs⟩ fun _ => trivial

theorem send_mayAsk (a : Request) (sess : Session) (p : SendMessageBody) :
    (send parseDate sess p).Along fun q _ => a.MayAsk q := by
  rw [send]
  refine .ite (fun _ => trivial) fun _ => .ite (fun _ => trivial) fun hiv => ?_
  refine .request trivial fun channelRole => ?_
  rcases channelRole with _ | channelRole
  · trivial
  refine .ite (fun _ => trivial) fun _ => .ite (fun _ => trivial) fun _ => ?_
  refine .request trivial fun allMembers => .request trivial fun type => ?_
  rcases type with _ | type
  · trivial
  refine .ite (fun _ => trivial) fun _ => .ite (fun _ => trivial) fun _ => ?_
  have hrest : ∀ blocked : Bool, Program.Along (fun q _ => a.MayAsk q) (if blocked = true then
      pure (Reply.error 403 "BLOCKED") else do
        let now ← query .now
        match parseOptionalBurnAt parseDate now
            (if p.burn_duration_secs.isSome = true then none else p.burn_at) with
        | some error => pure (Reply.error 400 error)
        | none => persistMessage sess p (decide (type = .direct_e2e)) allMembers) := by
    intro blocked
    refine .ite (fun _ => trivial) fun _ => .request trivial fun now => ?_
    split
    · trivial
    · exact persistMessage_mayAsk a sess p _ allMembers hiv
  dsimp only
  split
  · exact .request trivial fun blocked => hrest blocked
  · exact hrest false

theorem handle_mayAsk (a : Request) : (handle parseDate a).Along fun q _ => a.MayAsk q := by
  cases a with
  | send sess p => exact send_mayAsk parseDate _ sess p
  | edit sess messageId body => exact edit_mayAsk _ sess messageId body
  | pending sess chatId =>
    rw [handle, syncPending]
    split
    · trivial
    · exact .request trivial fun _ => trivial
  | delivered sess acked =>
    rw [handle, delivered]
    refine .ite (fun _ => trivial) fun _ => ?_
    rcases sess with ⟨userId, _ | deviceId⟩
    · trivial
    · exact .request rfl fun _ => trivial
  | _ => exact .request trivial fun _ => trivial

/-- No message was sent yet. -/
def Db.IsInitial (db : Db) : Prop := db.messages = ∅

/-! ## A direct chat -/

namespace Sample

def tables : Tables where
  members := [⟨"chat", "alice", none⟩, ⟨"chat", "bob", none⟩]
  chats := InsMap.set ∅ "chat" .direct_e2e
  devices := [⟨"a1", "alice", false⟩, ⟨"b1", "bob", false⟩]
  userBlocks := []

def db : Db where
  tables := tables
  messages := ∅
  nextId := 0
  clock := 0

def alice : Session := ⟨"alice", some "a1"⟩

def bob : Session := ⟨"bob", some "b1"⟩

/-- Alice sends a message to bob, up to where it is stored. -/
def sent : List (Service.Event Request) :=
  [.receive (.send alice { chat_id := "chat", ciphertexts := some [⟨"b1", "x", "nonce"⟩] }),
    .serve 0, .serve 0, .serve 0, .serve 0, .serve 0, .serve 0, .serve 0, .serve 0]

end Sample

end OneToThree.Messages.Server
