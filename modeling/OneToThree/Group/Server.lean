import OneToThree.Lib.InsMap
import OneToThree.Lib.Program
import OneToThree.Group.Wrap

/-!
# The server side of a group chat

The rows of one `group_e2e` chat, the statements and transactions that the routes run
on them, each atomic, and the routes themselves as programs over these statements:
between two statements of one request, those of others may run.

Membership rows are in the order of `joined_at`. The last two fields of `Chat` are
history, which no statement reads.
-/

namespace OneToThree.Group

inductive ChatMemberRole
  | owner
  | admin
  | member
  deriving DecidableEq

structure Membership where
  role : ChatMemberRole
  encryptedGroupKey : Option SectorKeyAuthWrap
  deriving DecidableEq

def Membership.withRole (m : Membership) (role : ChatMemberRole) : Membership := { m with role }

structure Chat where
  id : ChatId
  keyEpoch : ℕ
  members : InsMap UserId Membership
  /-- The last member has left, and the chat with it. -/
  deleted : Bool
  /-- The wraps written so far. -/
  accepted : List SectorKeyAuthWrap
  /-- The last epoch that a rotation has claimed. -/
  lastClaim : ℕ

inductive ApiError
  | notAMember
  | forbidden
  | keyEpochStale
  | notGroupChat
  | chatNotFound
  | cannotPatchSelf
  | useLeave
  | transferUseOwnerRole
  /-- The request or its response was lost. -/
  | network
  deriving DecidableEq

def ApiError.text : ApiError → String
  | .notAMember => "NOT_A_MEMBER"
  | .forbidden => "FORBIDDEN"
  | .keyEpochStale => "KEY_EPOCH_STALE"
  | .notGroupChat => "NOT_GROUP_CHAT"
  | .chatNotFound => "CHAT_NOT_FOUND"
  | .cannotPatchSelf => "CANNOT_PATCH_SELF"
  | .useLeave => "USE_LEAVE"
  | .transferUseOwnerRole => "TRANSFER_USE_OWNER_ROLE"
  | .network => "WRAPPED_KEY_FAILED"

/-! ## Statements -/

inductive Statement
  /-- The role of a user in the chat. -/
  | memberRole (userId : UserId)
  /-- The row of the chat. -/
  | chatRow
  /-- The membership rows. -/
  | roster
  /-- Joining: the membership row and the epoch bump. -/
  | insertMember (userId : UserId)
  /-- A kick: the deletion and the epoch bump. -/
  | removeMember (userId : UserId)
  /-- The leave of the owner: promotion, deletion and epoch bump. -/
  | leaveAsOwner (userId : UserId)
  /-- A plain leave: deletion, and epoch bump or teardown. -/
  | leave (userId : UserId)
  | setRole (userId : UserId) (role : ChatMemberRole)
  | transferOwnership (fromUserId toUserId : UserId)
  /-- The compare-and-swap on the epoch. -/
  | claimEpoch (claimFromEpoch : ℕ)
  | writeKey (userId : UserId) (encryptedGroupKey : SectorKeyAuthWrap)
  deriving DecidableEq

@[reducible] def Statement.Result : Statement → Type
  | .memberRole _ => Option ChatMemberRole
  | .chatRow => Option ℕ
  | .roster => List (UserId × Membership)
  | .insertMember _ | .leaveAsOwner _ | .leave _ => Bool
  | .removeMember _ | .setRole _ _ | .transferOwnership _ _ | .writeKey _ _ => Unit
  | .claimEpoch _ => Option ℕ

namespace Chat

variable (chat : Chat)

/-- Updating a membership row, if it is there. -/
def updateMember (userId : UserId) (f : Membership → Membership) : Chat :=
  match chat.members.get? userId with
  | none => chat
  | some m => { chat with members := chat.members.set userId (f m) }

def bumpEpoch : Chat := { chat with keyEpoch := chat.keyEpoch + 1 }

/-- A rotation has claimed the next epoch. -/
def claimed : Chat := { chat.bumpEpoch with lastClaim := chat.keyEpoch + 1 }

def writeKey (userId : UserId) (encryptedGroupKey : SectorKeyAuthWrap) : Chat :=
  { chat.updateMember userId fun m => { m with encryptedGroupKey := some encryptedGroupKey }
    with accepted := encryptedGroupKey :: chat.accepted }

/-- The member that the ownership goes to when `userId` leaves: the first admin, or the
    first member. -/
def nominee (userId : UserId) : Option UserId :=
  let others := chat.members.entries.filter fun p => p.1 ≠ userId
  ((others.find? fun p => p.2.role = .admin).or others.head?).map Prod.fst

end Chat

/-- What a statement answers, and the rows that it leaves. -/
def Statement.exec (chat : Chat) : (q : Statement) → q.Result × Chat
  | .memberRole userId => ((chat.members.get? userId).map Membership.role, chat)
  | .chatRow => (if chat.deleted then none else some chat.keyEpoch, chat)
  | .roster => (chat.members.entries, chat)
  | .insertMember userId =>
    if chat.deleted ∨ chat.members.has userId then (false, chat)
    else (true, ({ chat with members := chat.members.set userId ⟨.member, none⟩ }).bumpEpoch)
  | .removeMember userId =>
    ((), ({ chat with members := chat.members.delete userId }).bumpEpoch)
  | .leaveAsOwner userId =>
    match chat.nominee userId with
    | none => (false, chat)
    | some promoted =>
      let chat := chat.updateMember promoted (·.withRole .owner)
      (true, ({ chat with members := chat.members.delete userId }).bumpEpoch)
  | .leave userId =>
    if !chat.members.has userId then (false, chat)
    else
      let chat := { chat with members := chat.members.delete userId }
      if chat.members.size = 0 then (true, { chat with deleted := true })
      else (true, chat.bumpEpoch)
  | .setRole userId role => ((), chat.updateMember userId (·.withRole role))
  | .transferOwnership fromUserId toUserId =>
    ((), (chat.updateMember fromUserId (·.withRole .admin)).updateMember toUserId
      (·.withRole .owner))
  | .claimEpoch claimFromEpoch =>
    if !chat.deleted ∧ chat.keyEpoch = claimFromEpoch then
      (some (chat.keyEpoch + 1), chat.claimed)
    else (none, chat)
  | .writeKey userId encryptedGroupKey => ((), chat.writeKey userId encryptedGroupKey)

/-! ## Rows -/

namespace Chat

/-- The stored wrap of a user. -/
def row (chat : Chat) (userId : UserId) : Option SectorKeyAuthWrap :=
  (chat.members.get? userId).bind Membership.encryptedGroupKey

/-- An update of a membership row is an update of the rows. -/
theorem updateMember_eq (chat : Chat) (userId : UserId) (f : Membership → Membership) :
    chat.updateMember userId f =
      { chat with members := (chat.updateMember userId f).members } := by
  unfold updateMember
  split <;> rfl

theorem row_withRole (chat : Chat) (userId : UserId) (role : ChatMemberRole) (v : UserId) :
    (chat.updateMember userId (·.withRole role)).row v = chat.row v := by
  unfold updateMember
  split
  · rfl
  · rename_i m hm
    by_cases h : v = userId
    · simp [row, h, hm, Membership.withRole]
    · simp [row, InsMap.get?_set_ne _ _ h]

theorem row_write (chat : Chat) (userId : UserId) (wrap : SectorKeyAuthWrap) (v : UserId) :
    (chat.writeKey userId wrap).row v =
      if v = userId ∧ chat.members.has userId then some wrap else chat.row v := by
  unfold writeKey updateMember
  split
  · rename_i hm
    simp [row, InsMap.has, hm]
  · rename_i m hm
    by_cases h : v = userId
    · simp [row, h, InsMap.has, hm]
    · simp [row, h, InsMap.get?_set_ne _ _ h]

/-- A write of a row is a write of the rows and of the history. -/
theorem writeKey_eq (chat : Chat) (userId : UserId) (wrap : SectorKeyAuthWrap) :
    chat.writeKey userId wrap =
      { chat with
        members := (chat.writeKey userId wrap).members
        accepted := wrap :: chat.accepted } := by
  unfold writeKey updateMember
  split <;> rfl

/-- After a write the row holds the wrap, unless the user is not a member. -/
theorem eq_of_mem_row_write {chat : Chat} {userId : UserId} {wrap wrap' : SectorKeyAuthWrap}
    (h : wrap' ∈ (chat.writeKey userId wrap).row userId) : wrap' = wrap := by
  rw [row_write] at h
  split_ifs at h with hmember
  · exact (Option.some.inj h).symm
  · simp_all [row, InsMap.has]

theorem row_delete (chat : Chat) (userId v : UserId) :
    ({ chat with members := chat.members.delete userId } : Chat).row v =
      if v = userId then none else chat.row v := by
  by_cases h : v = userId <;> simp [row, h, InsMap.get?_delete]

/-- What `chat'` keeps of `chat`, when no wrap is written and no epoch claimed. -/
structure Kept (chat chat' : Chat) : Prop where
  id : chat'.id = chat.id
  keyEpoch : chat.keyEpoch ≤ chat'.keyEpoch
  accepted : chat'.accepted = chat.accepted
  lastClaim : chat'.lastClaim = chat.lastClaim
  row : ∀ u, chat'.row u = chat.row u ∨ chat'.row u = none

theorem Kept.refl (chat : Chat) : chat.Kept chat := ⟨rfl, Nat.le_refl _, rfl, rfl, fun _ => .inl rfl⟩

theorem Kept.trans {chat chat' chat'' : Chat} (h : chat.Kept chat') (h' : chat'.Kept chat'') :
    chat.Kept chat'' where
  id := h'.id.trans h.id
  keyEpoch := Nat.le_trans h.keyEpoch h'.keyEpoch
  accepted := h'.accepted.trans h.accepted
  lastClaim := h'.lastClaim.trans h.lastClaim
  row u := by
    rcases h'.row u with h₁ | h₁
    · rw [h₁]
      exact h.row u
    · exact .inr h₁

theorem kept_withRole (chat : Chat) (userId : UserId) (role : ChatMemberRole) :
    chat.Kept (chat.updateMember userId (·.withRole role)) := by
  have h := chat.updateMember_eq userId (·.withRole role)
  exact ⟨by rw [h], Nat.le_of_eq (by rw [h]), by rw [h], by rw [h],
    fun u => .inl (row_withRole chat userId role u)⟩

theorem kept_bumpEpoch (chat : Chat) : chat.Kept chat.bumpEpoch :=
  ⟨rfl, Nat.le_succ _, rfl, rfl, fun _ => .inl rfl⟩

theorem kept_delete (chat : Chat) (userId : UserId) :
    chat.Kept { chat with members := chat.members.delete userId } := by
  refine ⟨rfl, Nat.le_refl _, rfl, rfl, fun u => ?_⟩
  rw [row_delete]
  split_ifs
  exacts [.inr rfl, .inl rfl]

theorem kept_deleted (chat : Chat) (deleted : Bool) : chat.Kept { chat with deleted } :=
  ⟨rfl, Nat.le_refl _, rfl, rfl, fun _ => .inl rfl⟩

theorem kept_insert (chat : Chat) (userId : UserId) :
    chat.Kept { chat with members := chat.members.set userId ⟨.member, none⟩ } := by
  refine ⟨rfl, Nat.le_refl _, rfl, rfl, fun u => ?_⟩
  by_cases h : u = userId <;> simp [row, h, InsMap.get?_set]

end Chat

/-- A statement that neither claims an epoch nor writes a wrap. -/
def Statement.IsPlain : Statement → Prop
  | .claimEpoch _ | .writeKey _ _ => False
  | _ => True

/-- The other statements take wraps away at most, with their rows. -/
theorem exec_kept (chat : Chat) {q : Statement} (hq : q.IsPlain) : chat.Kept (q.exec chat).2 := by
  cases q with
  | memberRole | chatRow | roster => exact .refl chat
  | insertMember userId =>
    rw [Statement.exec]
    split_ifs
    · exact .refl chat
    · exact (chat.kept_insert userId).trans (Chat.kept_bumpEpoch _)
  | removeMember userId => exact (chat.kept_delete userId).trans (Chat.kept_bumpEpoch _)
  | leaveAsOwner userId =>
    rw [Statement.exec]
    split
    · exact .refl chat
    · rename_i promoted _
      exact ((chat.kept_withRole promoted .owner).trans (Chat.kept_delete _ userId)).trans
        (Chat.kept_bumpEpoch _)
  | leave userId =>
    rw [Statement.exec]
    dsimp only
    split_ifs
    · exact .refl chat
    · exact (chat.kept_delete userId).trans (Chat.kept_deleted _ true)
    · exact (chat.kept_delete userId).trans (Chat.kept_bumpEpoch _)
  | setRole userId role => exact chat.kept_withRole userId role
  | transferOwnership fromUserId toUserId =>
    exact (chat.kept_withRole fromUserId .admin).trans (Chat.kept_withRole _ toUserId .owner)
  | claimEpoch | writeKey => exact hq.elim

/-- A chat that has been deleted has no members left. -/
def Chat.EmptyIfDeleted (chat : Chat) : Prop := chat.deleted = true → chat.members.entries = []

namespace Chat.EmptyIfDeleted

variable {chat : Chat} (h : chat.EmptyIfDeleted)
include h

theorem updateMember (userId : UserId) (f : Membership → Membership) :
    (chat.updateMember userId f).EmptyIfDeleted := by
  unfold Chat.updateMember
  split
  · exact h
  · rename_i m hm
    intro hdeleted
    have hmem := InsMap.get?_eq_some_iff.1 hm
    rw [h hdeleted] at hmem
    cases hmem

theorem deleteMember (userId : UserId) :
    Chat.EmptyIfDeleted { chat with members := chat.members.delete userId } :=
  fun hdeleted => by simp [InsMap.delete, h hdeleted]

theorem exec (q : Statement) : (q.exec chat).2.EmptyIfDeleted := by
  cases q with
  | memberRole | chatRow | roster => exact h
  | insertMember userId =>
    rw [Statement.exec]
    split_ifs with hif
    · exact h
    · exact fun hdeleted => (hif (.inl hdeleted)).elim
  | removeMember userId => exact h.deleteMember userId
  | leaveAsOwner userId =>
    rw [Statement.exec]
    split
    · exact h
    · exact EmptyIfDeleted.deleteMember (h.updateMember _ _) userId
  | leave userId =>
    rw [Statement.exec]
    dsimp only
    split_ifs with _ hsize
    · exact h
    · exact fun _ => List.length_eq_zero_iff.1 hsize
    · exact h.deleteMember userId
  | setRole userId role => exact h.updateMember userId _
  | transferOwnership fromUserId toUserId =>
    exact EmptyIfDeleted.updateMember (h.updateMember _ _) toUserId _
  | claimEpoch claim =>
    rw [Statement.exec]
    split_ifs
    exacts [h, h]
  | writeKey userId wrap => exact h.updateMember userId _

end Chat.EmptyIfDeleted

/-! ## Routes -/

structure MemberPayload where
  user_id : UserId
  ecdh_public_key_jwk : Option Jwk
  encrypted_group_key : Option SectorKeyAuthWrap
  role : ChatMemberRole
  deriving DecidableEq

structure ChatDetailPayload where
  my_role : ChatMemberRole
  key_epoch : Option ℕ
  members : List MemberPayload
  deriving DecidableEq

inductive Request
  | getChat
  | putWrappedKey (targetUserId : UserId) (encryptedGroupKey : SectorKeyAuthWrap)
      (claimFromEpoch : Option ℕ)
  | joinChat
  | leaveChat
  | kick (targetUserId : UserId)
  | patchRole (targetUserId : UserId) (newRole : ChatMemberRole)
  deriving DecidableEq

@[reducible] def Request.Reply : Request → Type
  | .getChat => Except ApiError ChatDetailPayload
  | .putWrappedKey _ _ _ => Except ApiError (Option ℕ)
  | .joinChat | .leaveChat | .kick _ | .patchRole _ _ => Except ApiError Unit

/-- The programs of the server, over the statements. -/
abbrev Query := Program Statement Statement.Result

abbrev query (q : Statement) : Query q.Result := Program.request q

def canKick (actor target : ChatMemberRole) : Bool :=
  if target = .owner then false
  else if actor = .owner then true
  else actor = .admin ∧ target = .member

/-- The payload of a membership row; the ECDH public key is that of the table `users`. -/
def memberPayload (ecdh : UserId → Option Jwk) (row : UserId × Membership) : MemberPayload :=
  ⟨row.1, ecdh row.1, row.2.encryptedGroupKey, row.2.role⟩

def getChat (ecdh : UserId → Option Jwk) (user : UserId) : Query (Except ApiError ChatDetailPayload) := do
  let some myRole ← query (.memberRole user) | return .error .notAMember
  let some keyEpoch ← query .chatRow | return .error .chatNotFound
  let members ← query .roster
  return .ok ⟨myRole, some keyEpoch, members.map (memberPayload ecdh)⟩

/-- The end of `putWrappedKey`: the write of the row. -/
def putKeyRow (targetUserId : UserId) (encryptedGroupKey : SectorKeyAuthWrap)
    (claimedEpoch : Option ℕ) : Query (Except ApiError (Option ℕ)) := do
  query (.writeKey targetUserId encryptedGroupKey)
  return .ok claimedEpoch

def putWrappedKey (user targetUserId : UserId) (encryptedGroupKey : SectorKeyAuthWrap)
    (claimFromEpoch : Option ℕ) : Query (Except ApiError (Option ℕ)) := do
  let some _ ← query .chatRow | return .error .notGroupChat
  let actorRole ← query (.memberRole user)
  if actorRole ≠ some .owner then return .error .forbidden
  let some _ ← query (.memberRole targetUserId) | return .error .notAMember
  match claimFromEpoch with
  | none => putKeyRow targetUserId encryptedGroupKey none
  | some claimFromEpoch =>
    let some claimedEpoch ← query (.claimEpoch claimFromEpoch) | return .error .keyEpochStale
    putKeyRow targetUserId encryptedGroupKey (some claimedEpoch)

/-- Joining by an invite; the lookup of the invite is left out. -/
def joinChat (user : UserId) : Query (Except ApiError Unit) := do
  let some _ ← query .chatRow | return .error .chatNotFound
  let alreadyMember ← query (.memberRole user)
  if alreadyMember.isSome then return .ok ()
  let _ ← query (.insertMember user)
  return .ok ()

def leaveChat (user : UserId) : Query (Except ApiError Unit) := do
  let some _ ← query .chatRow | return .error .chatNotFound
  let some myRole ← query (.memberRole user) | return .error .notAMember
  let transferred ← if myRole = .owner then query (.leaveAsOwner user) else pure false
  if transferred then return .ok ()
  let wasMember ← query (.leave user)
  if !wasMember then return .error .notAMember
  return .ok ()

def kick (user targetUserId : UserId) : Query (Except ApiError Unit) := do
  let some _ ← query .chatRow | return .error .notGroupChat
  if targetUserId = user then return .error .useLeave
  let actorRole ← query (.memberRole user)
  let targetRole ← query (.memberRole targetUserId)
  match actorRole, targetRole with
  | some actorRole, some targetRole =>
    if !canKick actorRole targetRole then return .error .forbidden
    query (.removeMember targetUserId)
    return .ok ()
  | _, _ => return .error .notAMember

def patchRole (user targetUserId : UserId) (newRole : ChatMemberRole) : Query (Except ApiError Unit) := do
  let some _ ← query .chatRow | return .error .notGroupChat
  let actorRole ← query (.memberRole user)
  let targetRole ← query (.memberRole targetUserId)
  match actorRole, targetRole with
  | some actorRole, some targetRole =>
    if actorRole = .member then return .error .forbidden
    if targetUserId = user then return .error .cannotPatchSelf
    if newRole = .owner then
      if actorRole ≠ .owner then return .error .forbidden
      query (.transferOwnership user targetUserId)
      return .ok ()
    if targetRole = .owner then return .error .transferUseOwnerRole
    if actorRole = .admin ∧ targetRole ≠ .member then return .error .forbidden
    query (.setRole targetUserId newRole)
    return .ok ()
  | _, _ => return .error .notAMember

/-- The route of a request by a user. -/
def Request.route (ecdh : UserId → Option Jwk) (user : UserId) :
    (r : Request) → Query r.Reply
  | .getChat => Group.getChat ecdh user
  | .putWrappedKey target key claim => Group.putWrappedKey user target key claim
  | .joinChat => Group.joinChat user
  | .leaveChat => Group.leaveChat user
  | .kick target => Group.kick user target
  | .patchRole target role => Group.patchRole user target role

end OneToThree.Group
