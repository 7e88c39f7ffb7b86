import OneToThree.Lib.Machine
import OneToThree.Lib.Tasks

/-!
# The media of messages

A message names objects of the store, by its path and by the rows of attachments that its sending
links to it. Several jobs delete objects, each by keys of its own: the deletion of a message or of a
chat, the retention purge and the clean-up of uploads that were never sent. They wait between their
statements, and any number of them are in flight.

* `Task`: where a job is, named by the statement that it waits for.
-/

namespace OneToThree.MessageMedia

abbrev ChatId := ℕ
abbrev UserId := ℕ
abbrev MessageId := ℕ

/-- A key `chats/{chatId}/{uploaderId}/{name}`. -/
structure Key where
  chatId : ChatId
  uploaderId : UserId
  name : ℕ
  deriving DecidableEq

/-- What a client sends as a key: it may end in white space. -/
structure Path where
  key : Key
  blanks : ℕ
  deriving DecidableEq

/-- A row of `messages`. -/
structure Message where
  chatId : ChatId
  mediaPath : Option Path
  createdAt : ℕ
  deriving DecidableEq

/-- A row of `attachments`, other than its key. -/
structure Attachment where
  chatId : ChatId
  messageId : Option MessageId
  evicted : Bool
  createdAt : ℕ
  deriving DecidableEq

/-- A job, by the statement that it waits for. -/
inductive Task
  /-- `DELETE /messages/:messageId`. -/
  | messageAttachments (id : MessageId)
  | messagePath (id : MessageId) (keys : List Key)
  | deleteMessage (id : MessageId)
  /-- `DELETE /chats/:chatId`. -/
  | chatAttachments (chat : ChatId)
  | chatPaths (chat : ChatId) (keys : List Key)
  | deleteChat (chat : ChatId)
  | deleteAllInBackground (keys : List Key)
  /-- The retention purge. -/
  | purgeBatch (cutoff limit : ℕ)
  | purgePath (cutoff limit : ℕ) (id : MessageId) (key : Key) (rest : List (MessageId × Path))
  | purgeAttachments (cutoff limit : ℕ) (id : MessageId) (key : Key)
    (rest : List (MessageId × Path))
  | purgeAttachment (cutoff limit : ℕ) (id : MessageId) (key current : Key) (keys : List Key)
    (rest : List (MessageId × Path))
  | purgeEvict (cutoff limit : ℕ) (id : MessageId) (key current : Key) (keys : List Key)
    (rest : List (MessageId × Path))
  | purgeClear (cutoff limit : ℕ) (id : MessageId) (rest : List (MessageId × Path))
  /-- The clean-up of orphans. -/
  | orphanBatch (cutoff left : ℕ)
  | orphanObject (cutoff left : ℕ) (key : Key) (rest : List Key)
  | orphanRow (cutoff left : ℕ) (key : Key) (rest : List Key)

structure State where
  messages : MessageId → Option Message
  nextMessage : MessageId
  attachments : Key → Option Attachment
  /-- The keys that were drawn for uploads. -/
  drawn : List Key
  objects : Key → Bool
  now : ℕ
  tasks : Tasks Task

inductive Event
  /-- An upload is authorized, and its key is drawn. -/
  | uploadUrl (chat : ChatId) (user : UserId) (name : ℕ)
  | put (key : Key)
  | send (chat : ChatId) (user : UserId) (mediaPath : Option Path) (attachmentKeys : List Path)
  /-- The burn timer of a message has run out. -/
  | burn (id : MessageId)
  | deleteMessage (id : MessageId)
  | deleteChat (chat : ChatId)
  | runMediaRetentionPurge (retentionMs limit : ℕ)
  | runOrphanAttachmentCleanup (maxAgeMs maxToDelete : ℕ)
  /-- The statement of a job is executed. -/
  | resume (i : ℕ)
  /-- The statement of a job fails, and the job ends with it. -/
  | fail (i : ℕ)
  /-- An object is deleted in the background. -/
  | deleteObject (i : ℕ) (key : Key)
  | elapse (ms : ℕ)

def DEFAULT_BATCH : ℕ := 32

/-- The loop of the purge over a batch. -/
def Task.purge (cutoff limit : ℕ) : List (MessageId × Path) → Task
  | [] => purgeBatch cutoff limit
  | (id, path) :: rest => purgePath cutoff limit id path.key rest

/-- Its loop over the attachments of a message. -/
def Task.purgeEach (cutoff limit : ℕ) (id : MessageId) (key : Key)
    (rest : List (MessageId × Path)) : List Key → Task
  | [] => purgeClear cutoff limit id rest
  | current :: keys => purgeAttachment cutoff limit id key current keys rest

/-- The loop of the clean-up over a batch. -/
def Task.orphans (cutoff left : ℕ) : List Key → Task
  | [] => orphanBatch cutoff left
  | key :: rest => orphanObject cutoff left key rest

namespace State

def path (s : State) (id : MessageId) : Option Path := (s.messages id).bind (·.mediaPath)

/-- A row of attachments names the message, and its object was not deleted. -/
def live (s : State) (id : MessageId) (key : Key) : Bool :=
  (s.attachments key).any fun a => a.messageId = some id && !a.evicted

/-- A row of attachments names the message. -/
def links (s : State) (id : MessageId) (key : Key) : Bool :=
  (s.attachments key).any (·.messageId = some id)

/-- The message uses the object: by its path, or by a row that is linked to it. -/
def uses (s : State) (id : MessageId) (key : Key) : Bool :=
  s.path id = some ⟨key, 0⟩ || s.live id key

/-- The clean-up of the message would delete the object. -/
def names (s : State) (id : MessageId) (key : Key) : Bool :=
  (s.path id).any (·.key = key) || s.links id key

/-! ## Uploads and messages -/

/-- The name is random: it is nowhere in use. -/
def isFresh (s : State) (key : Key) : Bool :=
  (s.attachments key).isNone && (List.range s.nextMessage).all fun id => !s.names id key

def uploadUrl (s : State) (key : Key) : State :=
  { s with
    attachments := fun k =>
      if k = key then some ⟨key.chatId, none, false, s.now⟩ else s.attachments k
    drawn := s.drawn ++ [key] }

def isOwnedMediaKey (path : Path) (chat : ChatId) (user : UserId) : Bool :=
  path.key.chatId = chat && path.key.uploaderId = user

def persistChatMessageAndFanOut (s : State) (chat : ChatId) (mediaPath : Option Path)
    (attachmentKeys : List Path) : State :=
  { s with
    messages := fun id =>
      if id = s.nextMessage then some ⟨chat, mediaPath, s.now⟩ else s.messages id
    nextMessage := s.nextMessage + 1
    attachments := fun key =>
      if ⟨key, 0⟩ ∈ mediaPath.toList ++ attachmentKeys then
        (s.attachments key).map fun a => { a with messageId := some s.nextMessage }
      else s.attachments key }

/-- Whether the keys of a message may be sent. -/
def accepts (chat : ChatId) (user : UserId) (mediaPath : Option Path)
    (attachmentKeys : List Path) : Bool :=
  (mediaPath.toList ++ attachmentKeys).all fun path => isOwnedMediaKey path chat user

def send (s : State) (chat : ChatId) (user : UserId) (mediaPath : Option Path)
    (attachmentKeys : List Path) : State :=
  if accepts chat user mediaPath attachmentKeys then
    s.persistChatMessageAndFanOut chat mediaPath attachmentKeys
  else s

/-- Rows of messages are deleted, and rows of attachments no longer name them. -/
def deleteMessages (s : State) (gone : MessageId → Bool) : State :=
  { s with
    messages := fun id => if gone id then none else s.messages id
    attachments := fun key =>
      (s.attachments key).map fun a => { a with messageId := a.messageId.filter (!gone ·) } }

def isIn (s : State) (chat : ChatId) (id : MessageId) : Bool :=
  (s.messages id).any (·.chatId = chat)

/-- The messages of a chat are deleted, and its rows of attachments go with it. -/
def deleteChat (s : State) (chat : ChatId) : State :=
  let s := s.deleteMessages (s.isIn chat)
  { s with attachments := fun key => (s.attachments key).filter (·.chatId ≠ chat) }

/-! ## Jobs -/

def deleteObject (s : State) (key : Key) : State :=
  { s with objects := fun k => if k = key then false else s.objects k }

def goOn (s : State) (i : ℕ) (t : Task) : State := { s with tasks := s.tasks.goOn i t }

def finish (s : State) (i : ℕ) : State := { s with tasks := s.tasks.finish i }

def spawn (s : State) (t : Task) : State := { s with tasks := s.tasks.spawn t }

def fireAndForgetDeletes (s : State) (keys : List Key) : State :=
  if keys = [] then s else s.spawn (.deleteAllInBackground keys)

/-- The keys with one more, if it is not among them. -/
def addKey (keys : List Key) (key : Key) : List Key := if key ∈ keys then keys else keys ++ [key]

def attachmentsOf (s : State) (id : MessageId) : List Key :=
  s.drawn.filter fun key => (s.attachments key).any (·.messageId = some id)

def attachmentsIn (s : State) (chat : ChatId) : List Key :=
  s.drawn.filter fun key => (s.attachments key).any (·.chatId = chat)

def pathsIn (s : State) (chat : ChatId) : List Key :=
  ((List.range s.nextMessage).filter (s.isIn chat)).filterMap fun id => (s.path id).map (·.key)

def expired (s : State) (cutoff limit : ℕ) : List (MessageId × Path) :=
  ((List.range s.nextMessage).filterMap fun id => (s.messages id).bind fun x =>
    if x.createdAt < cutoff then x.mediaPath.map (id, ·) else none).take limit

def orphans (s : State) (cutoff limit : ℕ) : List Key :=
  (s.drawn.filter fun key => (s.attachments key).any fun a =>
    a.messageId = none && !a.evicted && a.createdAt < cutoff).take limit

def evict (s : State) (key : Key) : State :=
  { s with
    attachments := fun k =>
      if k = key then (s.attachments k).map fun a => { a with evicted := true }
      else s.attachments k }

def clearPath (s : State) (id : MessageId) : State :=
  { s with
    messages := fun i =>
      if i = id then (s.messages i).map fun x => { x with mediaPath := none } else s.messages i }

def deleteRow (s : State) (key : Key) : State :=
  { s with attachments := fun k => if k = key then none else s.attachments k }

/-- The statement that a job waits for. -/
def execute (s : State) (i : ℕ) : Task → Option State
  | .messageAttachments id => some (s.goOn i (.messagePath id (s.attachmentsOf id)))
  | .messagePath id keys =>
    some ((s.goOn i (.deleteMessage id)).fireAndForgetDeletes
      (((s.path id).map (·.key)).toList.foldl addKey keys))
  | .deleteMessage id => some ((s.deleteMessages (· = id)).finish i)
  | .chatAttachments chat => some (s.goOn i (.chatPaths chat (s.attachmentsIn chat)))
  | .chatPaths chat keys =>
    some ((s.goOn i (.deleteChat chat)).fireAndForgetDeletes ((s.pathsIn chat).foldl addKey keys))
  | .deleteChat chat => some ((s.deleteChat chat).finish i)
  | .deleteAllInBackground _ => none
  | .purgeBatch cutoff limit =>
    if s.expired cutoff limit = [] then some (s.finish i)
    else some (s.goOn i (.purge cutoff limit (s.expired cutoff limit)))
  | .purgePath cutoff limit id key rest =>
    some ((s.goOn i (.purgeAttachments cutoff limit id key rest)).deleteObject key)
  | .purgeAttachments cutoff limit id key rest =>
    some (s.goOn i (.purgeEach cutoff limit id key rest (s.drawn.filter (s.live id))))
  | .purgeAttachment cutoff limit id key current keys rest =>
    let s := s.goOn i (.purgeEvict cutoff limit id key current keys rest)
    some (if current ≠ key then s.deleteObject current else s)
  | .purgeEvict cutoff limit id key current keys rest =>
    some ((s.evict current).goOn i (.purgeEach cutoff limit id key rest keys))
  | .purgeClear cutoff limit id rest =>
    some ((s.clearPath id).goOn i (.purge cutoff limit rest))
  | .orphanBatch cutoff left =>
    if s.orphans cutoff (min DEFAULT_BATCH left) = [] then some (s.finish i)
    else some (s.goOn i (.orphans cutoff left (s.orphans cutoff (min DEFAULT_BATCH left))))
  | .orphanObject cutoff left key rest =>
    some ((s.goOn i (.orphanRow cutoff left key rest)).deleteObject key)
  | .orphanRow cutoff left key rest =>
    some ((s.deleteRow key).goOn i (.orphans cutoff (left - 1) rest))

end State

def machine : Machine State Event where
  init s := ∃ now, s = ⟨fun _ => none, 0, fun _ => none, [], fun _ => false, now, .empty⟩
  step s
    | .uploadUrl chat user name =>
      if s.isFresh ⟨chat, user, name⟩ then some (s.uploadUrl ⟨chat, user, name⟩) else none
    | .put key => if key ∈ s.drawn then some { s with objects := fun k => k = key || s.objects k }
      else none
    | .send chat user mediaPath attachmentKeys => some (s.send chat user mediaPath attachmentKeys)
    | .burn id => some (s.deleteMessages (· = id))
    | .deleteMessage id =>
      some (if (s.messages id).isSome then s.spawn (.messageAttachments id) else s)
    | .deleteChat chat => some (s.spawn (.chatAttachments chat))
    | .runMediaRetentionPurge retentionMs limit =>
      some (s.spawn (.purgeBatch (s.now - retentionMs) limit))
    | .runOrphanAttachmentCleanup maxAgeMs maxToDelete =>
      some (s.spawn (.orphanBatch (s.now - maxAgeMs) maxToDelete))
    | .resume i => (s.tasks.get? i).bind (s.execute i)
    | .fail i => (s.tasks.get? i).map fun _ => s.finish i
    | .deleteObject i key =>
      match s.tasks.get? i with
      | some (.deleteAllInBackground keys) =>
        if key ∈ keys then
          some ((if keys.erase key = [] then s.finish i
            else s.goOn i (.deleteAllInBackground (keys.erase key))).deleteObject key)
        else none
      | _ => none
    | .elapse ms => some { s with now := s.now + ms }

/-! ## Messages kept apart -/

/-- The objects that a job goes on to delete. -/
def Task.selects : Task → List Key
  | messagePath _ keys => keys
  | deleteAllInBackground keys => keys
  | purgePath _ _ _ key rest => key :: rest.map (·.2.key)
  | purgeAttachments _ _ _ _ rest => rest.map (·.2.key)
  | purgeAttachment _ _ _ _ current keys rest => current :: keys ++ rest.map (·.2.key)
  | purgeEvict _ _ _ _ _ keys rest => keys ++ rest.map (·.2.key)
  | purgeClear _ _ _ rest => rest.map (·.2.key)
  | orphanObject _ _ key rest => key :: rest
  | orphanRow _ _ _ rest => rest
  | _ => []

namespace State

def isSelected (s : State) (key : Key) : Bool := s.tasks.any fun t => key ∈ t.selects

/-- The job is about to take the message, or its media, away. -/
def takes (s : State) : Task → MessageId → Bool
  | .deleteMessage id, id' => id' = id
  | .deleteChat chat, id' => s.isIn chat id'
  | .purgeAttachments _ _ id _ _, id' => id' = id
  | .purgeAttachment _ _ id _ _ _ _, id' => id' = id
  | .purgeEvict _ _ id _ _ _ _, id' => id' = id
  | .purgeClear _ _ id _, id' => id' = id
  | _, _ => false

def isTaken (s : State) (id : MessageId) : Bool := s.tasks.any fun t => s.takes t id

def hasMedia (s : State) (id : MessageId) : Bool :=
  (s.path id).any (·.blanks = 0) || s.drawn.any (s.live id)

/-- The paths of a message that is sent: its own, and those of the rows that it takes up. -/
def takenUp (s : State) (mediaPath : Option Path) (attachmentKeys : List Path) : List Path :=
  mediaPath.toList ++
    attachmentKeys.filter fun path => path.blanks = 0 && (s.attachments path.key).isSome

/-- No stored message and no job has to do with the object of a message that is sent. -/
def isApart (s : State) (path : Path) : Bool :=
  if path.blanks = 0 then
    !s.isSelected path.key &&
      (List.range s.nextMessage).all fun id => !(s.path id).any (·.key = path.key)
  else (List.range s.nextMessage).all fun id => !s.uses id path.key

end State

/-- No message is sent with an object of another one, and no job fails after it has deleted objects
    of a message and before it has taken them from it. -/
def keepsApart (s : State) : Event → Bool
  | .send chat user mediaPath attachmentKeys =>
    !State.accepts chat user mediaPath attachmentKeys ||
      (s.takenUp mediaPath attachmentKeys).all s.isApart
  | .fail i => (s.tasks.get? i).all fun t =>
    (List.range s.nextMessage).all fun id => !(s.takes t id && s.hasMedia id)
  | _ => true

/-- The runs that keep the messages apart. -/
abbrev orderly : Machine State Event := machine.restrict fun s e => keepsApart s e = true

end OneToThree.MessageMedia
