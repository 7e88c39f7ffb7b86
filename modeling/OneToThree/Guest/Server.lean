import Mathlib.Data.Int.Notation
import OneToThree.Lib.Service

/-!
# The guests of a call

How a guest who holds a link gets into a call: the knocks at the door, the seats of the
links, and the tokens that LiveKit lets in. The store is what the routes share: Redis, or
maps of the process where there is none, and the database. The routes are programs over
the commands and the statements on it (`Lib.Service`).

* A knock is polled by its guest, who may cancel it, and approved or denied by the host
  who made the link. Each of these routes reads the knock, checks what it has read, and
  writes later; `saveKnock` writes whatever the knock is by then.
* A seat of a link is three things: a unit of `usedCount`, the entry of its holder, and
  the token that the guest keeps. The approval takes the seat, then signs the token, then
  remembers the holder; the webhook of LiveKit forgets the holder, then frees the unit.

The store also has a history, which no route reads: what the properties are about.
-/

namespace OneToThree.Guest

inductive GuestKnockStatus
  | pending
  | approved
  | denied
  deriving DecidableEq

/-- The name of a participant: `guest:` and random bytes, or that of a member. -/
inductive Identity
  | guest (random : ℕ)
  | member (userId : String)
  deriving DecidableEq

/-- What an approved guest joins the room with. -/
structure Grant where
  livekitUrl : String
  token : String
  identity : Identity
  e2eeKey : String
  deriving DecidableEq

structure GuestKnock where
  inviteId : String
  roomId : String
  chatId : Option String
  creatorId : String
  nickname : String
  secretHash : String
  canPublish : Bool
  status : GuestKnockStatus
  grant : Option Grant
  /-- When it expires, in ms. -/
  exp : ℕ
  deriving DecidableEq

structure GuestInvite where
  createdBy : String
  maxUses : ℤ
  usedCount : ℤ
  expiresAt : ℕ
  revokedAt : Option ℕ
  deriving DecidableEq

/-- A seat of a link, and who sits in it. -/
structure SeatHolder where
  roomId : String
  identity : Identity
  inviteId : String
  deriving DecidableEq

structure TokenClaims where
  iss : String
  sub : Identity
  nbf : ℤ
  exp : ℕ
  jti : Identity × String × ℕ
  name : String
  invited_by : String
  room : String
  canPublish : Bool

/-- The environment of the server, and the functions it calls. -/
structure Config where
  redis : Bool
  selfHosted : Bool
  apiKey : String
  apiSecret : String
  livekitUrl : String
  callTokenTtlSeconds : ℕ
  sha256hex : String → String
  signLivekitToken : String → String → TokenClaims → String
  deriveCallE2eeKey : String → String → ℕ → String

def Config.livekitReady (c : Config) : Bool :=
  c.selfHosted && c.apiKey ≠ "" && c.apiSecret ≠ "" && c.livekitUrl ≠ ""

/-! ## Store -/

/-- A token that was signed for a guest. -/
structure Issued where
  holder : SeatHolder
  /-- When it expires, in s. -/
  exp : ℕ
  deriving DecidableEq

/-- What has happened so far, which no route reads. -/
structure History where
  /-- The knocks that a seat was taken for. -/
  taken : List String
  /-- Those whose approval has its seat, and has not saved the knock yet. -/
  seated : List String
  /-- The knocks that ceased to be pending. -/
  left : List String
  /-- The knocks that were denied, or consumed by a poll or a cancel. -/
  ended : List String
  /-- The tokens signed. -/
  issued : List Issued
  /-- The seats freed. -/
  released : List SeatHolder

/-- Nothing has happened yet. -/
def History.none : History := ⟨[], [], [], [], [], []⟩

structure Store where
  knocks : InsMap String GuestKnock
  /-- The knocks that a creator is shown: creator and knock. -/
  creatorKnocks : List (String × String)
  /-- The knocks waiting on an invite: invite and knock. -/
  slots : List (String × String)
  invites : InsMap String GuestInvite
  /-- The invite that the seat of a room and an identity is of. -/
  seats : InsMap (String × Identity) String
  sessions : InsMap String ℕ
  /-- The members of the chats: chat and user. -/
  members : List (String × String)
  /-- The clock, in ms. -/
  now : ℕ
  /-- The random value that is drawn next. -/
  random : ℕ
  /-- Who is in the rooms of LiveKit. -/
  inRoom : List (String × Identity)
  history : History

/-! ## Commands -/

/-- The route that consumes a knock. -/
inductive Consumer
  | poll
  | cancel
  | approve
  deriving DecidableEq

/-- What is not a request to the server. -/
inductive World
  | elapse (ms : ℕ)
  /-- The key of a knock expires. -/
  | expireKnock (id : String)
  /-- The key of a seat expires. -/
  | expireSeat (roomId : String) (identity : Identity)
  | setMembers (members : List (String × String))
  | dropCallSession (roomId : String)
  /-- A guest enters a room with a token. -/
  | enter (token : Issued)
  /-- A participant leaves a room, or is removed from it. -/
  | leave (roomId : String) (identity : Identity)
  deriving DecidableEq

/-- The commands and the statements. Those that write a knock or take a seat for it come
    with what the request has `seen` of the knock, which the store does not look at. -/
inductive Command
  | getKnock (id : String)
  /-- The `SET` of `saveKnock` -/
  | setKnock (id : String) (seen payload : GuestKnock)
  /-- The `GETDEL` of `consumeKnock` -/
  | getdelKnock (id : String) (seen : GuestKnock) (consumer : Consumer)
  | dropCreatorKnock (creatorId id : String)
  | releaseKnockSlot (inviteId id : String)
  | selectMember (chatId userId : String)
  | consumeInviteSeat (inviteId id : String) (seen : GuestKnock)
  /-- The clock and the random bytes, for a token. -/
  | mint (inviteId roomId : String) (ttlSeconds : ℕ)
  | getCallSession (roomId : String)
  | setCallSession (roomId : String)
  | rememberSeatHolder (holder : SeatHolder)
  | takeSeatHolder (roomId : String) (identity : Identity)
  /-- The `UPDATE` that gives the seat of a holder back. -/
  | releaseSeat (holder : SeatHolder)
  /-- The log of the guests, which is not modelled. -/
  | recordGuestJoined (roomId : String) (identity : Identity)
  | recordGuestLeft (roomId : String) (identity : Identity)
  | revoke (inviteId userId : String)
  | revokeAll (userId : String)
  | world (w : World)
  deriving DecidableEq

abbrev Command.Result : Command → Type
  | .getKnock _ | .getdelKnock _ _ _ => Option GuestKnock
  | .selectMember _ _ | .consumeInviteSeat _ _ _ | .revoke _ _ => Bool
  | .mint _ _ _ => ℕ × Identity
  | .getCallSession _ => Option ℕ
  | .setCallSession _ => ℕ
  | .takeSeatHolder _ _ => Option String
  | .revokeAll _ => ℕ
  | .setKnock _ _ _ | .dropCreatorKnock _ _ | .releaseKnockSlot _ _ | .rememberSeatHolder _
  | .releaseSeat _ | .recordGuestJoined _ _ | .recordGuestLeft _ _ | .world _ => Unit

/-- A seat is left, on a link that is neither revoked nor expired. -/
def GuestInvite.HasSeat (invite : GuestInvite) (now : ℕ) : Prop :=
  invite.revokedAt = none ∧ now < invite.expiresAt ∧ invite.usedCount < invite.maxUses

instance (invite : GuestInvite) (now : ℕ) : Decidable (invite.HasSeat now) :=
  inferInstanceAs (Decidable (_ ∧ _ ∧ _))

namespace Store

/-- The knock is there, and pending. -/
def pending (s : Store) (id : String) : Bool :=
  (s.knocks.get? id).any fun k => k.status = .pending

/-- LiveKit lets the token in. -/
def Valid (s : Store) (t : Issued) : Prop := t ∈ s.history.issued ∧ s.now < 1000 * t.exp

instance (s : Store) (t : Issued) : Decidable (s.Valid t) := inferInstanceAs (Decidable (_ ∧ _))

/-- The history when the knock is written or deleted. -/
def leaving (s : Store) (id : String) (payload : Option GuestKnock) : List String :=
  if s.pending id && !payload.any (·.status = .pending) then s.history.left ++ [id]
  else s.history.left

def deleteKnock (s : Store) (id : String) : Store :=
  { s with
    knocks := s.knocks.delete id
    history := { s.history with left := s.leaving id none } }

def setKnock (s : Store) (id : String) (payload : GuestKnock) : Store :=
  { s with
    knocks := s.knocks.set id payload
    history := { s.history with
      left := s.leaving id (some payload)
      seated := if payload.status = .approved then s.history.seated.erase id
        else s.history.seated
      ended := if payload.status = .denied then s.history.ended ++ [id] else s.history.ended } }

def getKnock (c : Config) (s : Store) (id : String) : Option GuestKnock × Store :=
  match s.knocks.get? id with
  | none => (none, s)
  | some knock =>
    if knock.exp < s.now then (none, if c.redis then s else s.deleteKnock id)
    else (some knock, s)

def getdelKnock (s : Store) (id : String) (consumer : Consumer) : Store :=
  if (s.knocks.get? id).isSome ∧ consumer ≠ .approve then
    { s.deleteKnock id with
      history := { (s.deleteKnock id).history with ended := s.history.ended ++ [id] } }
  else s.deleteKnock id

/-- The guarded `UPDATE` that takes a seat. -/
def consumeInviteSeat (s : Store) (inviteId id : String) : Bool × Store :=
  match s.invites.get? inviteId with
  | none => (false, s)
  | some invite =>
    if invite.HasSeat s.now then
      (true, { s with
        invites := s.invites.set inviteId { invite with usedCount := invite.usedCount + 1 }
        history := { s.history with
          taken := s.history.taken ++ [id], seated := id :: s.history.seated } })
    else (false, s)

def mint (s : Store) (inviteId roomId : String) (ttlSeconds : ℕ) : (ℕ × Identity) × Store :=
  ((s.now / 1000, .guest s.random), { s with
    random := s.random + 1
    history := { s.history with
      issued := s.history.issued ++
        [⟨⟨roomId, .guest s.random, inviteId⟩, s.now / 1000 + ttlSeconds⟩] } })

def releaseSeat (s : Store) (holder : SeatHolder) : Store :=
  match s.invites.get? holder.inviteId with
  | none => s
  | some invite =>
    { s with
      invites := s.invites.set holder.inviteId
        { invite with usedCount := max (invite.usedCount - 1) 0 }
      history := { s.history with released := s.history.released ++ [holder] } }

def revoke (s : Store) (inviteId userId : String) : Bool × Store :=
  match s.invites.get? inviteId with
  | none => (false, s)
  | some invite =>
    if invite.createdBy = userId ∧ invite.revokedAt = none then
      (true, { s with invites := s.invites.set inviteId { invite with revokedAt := some s.now } })
    else (false, s)

/-- An invite, as the revocation of all the invites of a user leaves it. -/
def revoked (now : ℕ) (userId : String) (invite : GuestInvite) : GuestInvite :=
  if invite.createdBy = userId ∧ invite.revokedAt = none then
    { invite with revokedAt := some now }
  else invite

def world (s : Store) : World → Store
  | .elapse ms => { s with now := s.now + ms }
  | .expireKnock id =>
    if (s.knocks.get? id).any fun k => k.exp ≤ s.now then s.deleteKnock id else s
  | .expireSeat roomId identity => { s with seats := s.seats.delete (roomId, identity) }
  | .setMembers members => { s with members := members }
  | .dropCallSession roomId => { s with sessions := s.sessions.delete roomId }
  | .enter t =>
    if s.Valid t then { s with inRoom := (t.holder.roomId, t.holder.identity) :: s.inRoom } else s
  | .leave roomId identity => { s with inRoom := s.inRoom.filter (· ≠ (roomId, identity)) }

def answer (c : Config) (s : Store) : (q : Command) → q.Result × Store
  | .getKnock id => s.getKnock c id
  | .setKnock id _ payload => ((), s.setKnock id payload)
  | .getdelKnock id _ consumer => (s.knocks.get? id, s.getdelKnock id consumer)
  | .dropCreatorKnock creatorId id =>
    ((), { s with creatorKnocks := s.creatorKnocks.filter (· ≠ (creatorId, id)) })
  | .releaseKnockSlot inviteId id =>
    ((), { s with slots := s.slots.filter (· ≠ (inviteId, id)) })
  | .selectMember chatId userId => (decide ((chatId, userId) ∈ s.members), s)
  | .consumeInviteSeat inviteId id _ => s.consumeInviteSeat inviteId id
  | .mint inviteId roomId ttlSeconds => s.mint inviteId roomId ttlSeconds
  | .getCallSession roomId => (s.sessions.get? roomId, s)
  | .setCallSession roomId =>
    (s.random, { s with sessions := s.sessions.set roomId s.random, random := s.random + 1 })
  | .rememberSeatHolder holder =>
    ((), { s with seats := s.seats.set (holder.roomId, holder.identity) holder.inviteId })
  | .takeSeatHolder roomId identity =>
    (s.seats.get? (roomId, identity), { s with seats := s.seats.delete (roomId, identity) })
  | .releaseSeat holder => ((), s.releaseSeat holder)
  | .recordGuestJoined _ _ | .recordGuestLeft _ _ => ((), s)
  | .revoke inviteId userId => s.revoke inviteId userId
  | .revokeAll userId =>
    (s.invites.entries.countP fun e => e.2.createdBy = userId ∧ e.2.revokedAt = none,
      { s with invites := s.invites.map (revoked s.now userId) })
  | .world w => ((), s.world w)

end Store

/-! ## Routes -/

structure User where
  id : String
  username : String
  deriving DecidableEq

inductive Request
  /-- `GET /guest/knock/:id` -/
  | poll (id secret : String)
  /-- `POST /guest/knock/:id/cancel` -/
  | cancel (id secret : String)
  /-- `POST /guest/knock/:id/approve` -/
  | approve (id : String) (user : User)
  /-- `POST /guest/knock/:id/deny` -/
  | deny (id : String) (user : User)
  /-- The webhook `participant_joined` -/
  | participantJoined (roomId : String) (identity : Identity)
  /-- The webhook `participant_left` -/
  | participantLeft (roomId : String) (identity : Identity)
  /-- `DELETE /guest-invites/:id` -/
  | revoke (id : String) (user : User)
  /-- `DELETE /guest-invites` -/
  | revokeAll (user : User)
  | world (w : World)
  deriving DecidableEq

inductive Reply
  | error (status : ℕ) (code : String)
  | pending
  | denied
  | approved (room : String) (grant : Grant)
  | ok
  | okIdentity (identity : Identity)
  | okRevoked (revoked : ℕ)
  /-- There is nobody to reply to. -/
  | none
  deriving DecidableEq

abbrev Route := Program Command Command.Result Reply

abbrev command (q : Command) : Program Command Command.Result q.Result := Program.request q

/-- No knock is saved as pending here, so the creator is not shown it any more. -/
def saveKnock (id : String) (seen payload : GuestKnock) : Program Command Command.Result Unit := do
  let _ ← command (.setKnock id seen payload)
  command (.dropCreatorKnock payload.creatorId id)

/-- What it returns is left out: no route looks at it. -/
def consumeKnock (id : String) (seen : GuestKnock) (consumer : Consumer) :
    Program Command Command.Result Unit := do
  match ← command (.getdelKnock id seen consumer) with
  | none => return ()
  | some p => command (.dropCreatorKnock p.creatorId id)

def getOrCreateCallSessionId (roomId : String) : Program Command Command.Result ℕ := do
  match ← command (.getCallSession roomId) with
  | some existing => return existing
  | none => command (.setCallSession roomId)

/-- The reply to the poll that consumes a knock, from what the poll has read of it. -/
def pickedUp (knock : GuestKnock) : Reply :=
  match knock.grant with
  | none => .denied
  | some grant => if knock.status = .denied then .denied else .approved knock.roomId grant

variable (c : Config)

def poll (id secret : String) : Route := do
  match ← command (.getKnock id) with
  | none => return .error 404 "KNOCK_NOT_FOUND"
  | some knock =>
    if c.sha256hex secret ≠ knock.secretHash then return .error 404 "KNOCK_NOT_FOUND"
    else if knock.status = .pending then return .pending
    else
      let _ ← consumeKnock id knock .poll
      let _ ← command (.releaseKnockSlot knock.inviteId id)
      return pickedUp knock

def cancel (id secret : String) : Route := do
  match ← command (.getKnock id) with
  | none => return .error 404 "KNOCK_NOT_FOUND"
  | some knock =>
    if c.sha256hex secret ≠ knock.secretHash then return .error 404 "KNOCK_NOT_FOUND"
    else
      let _ ← consumeKnock id knock .cancel
      let _ ← command (.releaseKnockSlot knock.inviteId id)
      return .ok

/-- The grant of a guest, with the token that is signed for the identity. -/
def grantOf (user : User) (knock : GuestKnock) (now : ℕ) (identity : Identity)
    (callSessionId : ℕ) : Grant where
  livekitUrl := c.livekitUrl
  token := c.signLivekitToken c.apiKey c.apiSecret {
    iss := c.apiKey
    sub := identity
    nbf := now - 5
    exp := now + c.callTokenTtlSeconds
    jti := (identity, knock.roomId, now)
    name := knock.nickname
    invited_by := user.username
    room := knock.roomId
    canPublish := knock.canPublish }
  identity := identity
  e2eeKey := c.deriveCallE2eeKey c.apiSecret knock.roomId callSessionId

/-- The approval from the grant on. -/
def saveGrant (id : String) (knock : GuestKnock) (grant : Grant) : Route := do
  let _ ← saveKnock id knock { knock with status := .approved, grant := some grant }
  let _ ← command (.releaseKnockSlot knock.inviteId id)
  let _ ← command (.rememberSeatHolder ⟨knock.roomId, grant.identity, knock.inviteId⟩)
  let _ ← command (.recordGuestJoined knock.roomId grant.identity)
  return .okIdentity grant.identity

/-- The approval from the seat on. -/
def mintGrant (id : String) (user : User) (knock : GuestKnock) : Route := do
  let (now, identity) ← command (.mint knock.inviteId knock.roomId c.callTokenTtlSeconds)
  let callSessionId ← getOrCreateCallSessionId knock.roomId
  saveGrant id knock (grantOf c user knock now identity callSessionId)

/-- The approval from the checks of the host on. -/
def takeSeat (id : String) (user : User) (knock : GuestKnock) : Route := do
  if !c.livekitReady then return .error 503 "LIVEKIT_NOT_CONFIGURED"
  else if c.apiSecret.length < 32 then return .error 503 "LIVEKIT_SECRET_TOO_SHORT"
  else if ← command (.consumeInviteSeat knock.inviteId id knock) then mintGrant c id user knock
  else
    let _ ← consumeKnock id knock .approve
    let _ ← command (.releaseKnockSlot knock.inviteId id)
    return .error 409 "INVITE_GONE"

def approve (id : String) (user : User) : Route := do
  match ← command (.getKnock id) with
  | none => return .error 404 "KNOCK_NOT_FOUND"
  | some knock =>
    if knock.status ≠ .pending then return .error 404 "KNOCK_NOT_FOUND"
    else if knock.creatorId ≠ user.id then return .error 403 "FORBIDDEN"
    else match knock.chatId with
      | none => takeSeat c id user knock
      | some chatId =>
        if ← command (.selectMember chatId user.id) then takeSeat c id user knock
        else return .error 403 "NOT_A_MEMBER"

def deny (id : String) (user : User) : Route := do
  match ← command (.getKnock id) with
  | none => return .error 404 "KNOCK_NOT_FOUND"
  | some knock =>
    if knock.status ≠ .pending then return .error 404 "KNOCK_NOT_FOUND"
    else if knock.creatorId ≠ user.id then return .error 403 "FORBIDDEN"
    else
      let _ ← saveKnock id knock { knock with status := .denied }
      let _ ← command (.releaseKnockSlot knock.inviteId id)
      return .ok

def participantLeft (roomId : String) : Identity → Route
  | .member _ => return .ok
  | .guest random => do
    let _ ← command (.recordGuestLeft roomId (.guest random))
    match ← command (.takeSeatHolder roomId (.guest random)) with
    | none => return .ok
    | some inviteId =>
      let _ ← command (.releaseSeat ⟨roomId, .guest random, inviteId⟩)
      return .ok

def revoke (id : String) (user : User) : Route := do
  return if ← command (.revoke id user.id) then .ok else .error 404 "NOT_FOUND"

def revokeAll (user : User) : Route := do
  return .okRevoked (← command (.revokeAll user.id))

def handle : Request → Route
  | .poll id secret => poll c id secret
  | .cancel id secret => cancel c id secret
  | .approve id user => approve c id user
  | .deny id user => deny id user
  | .participantJoined _ _ => return .ok
  | .participantLeft roomId identity => participantLeft roomId identity
  | .revoke id user => revoke id user
  | .revokeAll user => revokeAll user
  | .world w => do let _ ← command (.world w); return .none

/-- The server, as the guests and their hosts see it. -/
def server : Service Store Command Command.Result Request Reply where
  answer := Store.answer c
  handle := handle c

/-- The knocks have just been made, and no guest was admitted. -/
structure Store.IsInitial (s : Store) : Prop where
  knocks : ∀ id k, s.knocks.get? id = some k → k.status = .pending ∧ k.grant = none
  invites : ∀ i invite, s.invites.get? i = some invite →
    0 ≤ invite.usedCount ∧ invite.usedCount ≤ invite.maxUses
  seats : ∀ key, s.seats.get? key = none
  inRoom : ∀ roomId n, (roomId, .guest n) ∉ s.inRoom
  history : s.history = .none

namespace Sample

def config : Config where
  redis := true
  selfHosted := true
  apiKey := "key"
  apiSecret := "0123456789abcdef0123456789abcdef"
  livekitUrl := "wss://livekit"
  callTokenTtlSeconds := 300
  sha256hex secret := secret
  signLivekitToken _ _ _ := "token"
  deriveCallE2eeKey _ _ _ := "e2ee"

def host : User := ⟨"host", "host"⟩

end Sample

end OneToThree.Guest
