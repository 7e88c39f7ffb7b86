import OneToThree.Group.Stamps

/-!
# The members who go

The group of `Group.Network` among the routes that take members away without asking the
group: a user ends their account, or is purged, and the row of the member goes with that of
the user; and the owner deletes the chat. Their statements run in between those of the other
requests.

What is known of the stored wraps (`Group.Stamps`) is not affected: these statements only
take rows away (`accounts_exists_inv`).
-/

namespace OneToThree.Group

/-! ## Statements -/

namespace Chat

/-- A membership row is deleted. -/
def deleteMember (chat : Chat) (userId : UserId) : Chat :=
  { chat with members := chat.members.delete userId }

/-- A chat is deleted if nobody is left in it. -/
def sweep (chat : Chat) : Chat :=
  if chat.members.size = 0 then { chat with deleted := true } else chat

end Chat

inductive AccountStatement
  /-- The role of a user in the chat. -/
  | memberRole (userId : UserId)
  /-- The row of the chat. -/
  | chatRow
  /-- The transaction that deletes the row of a user who ends their account. -/
  | deleteUser (userId : UserId)
  /-- The same for a purge, which sweeps the chats that the user was read to be in. -/
  | purgeUser (userId : UserId) (inChat : Bool)
  /-- The transaction that deletes the chat. -/
  | deleteChat
  deriving DecidableEq

@[reducible] def AccountStatement.Result : AccountStatement → Type
  | .memberRole _ => Option ChatMemberRole
  | .chatRow => Option ℕ
  | .deleteUser _ | .purgeUser _ _ | .deleteChat => Unit

/-- The users whose rows a statement deletes. -/
def AccountStatement.deletes : AccountStatement → List UserId
  | .deleteUser userId | .purgeUser userId _ => [userId]
  | _ => []

/-- What a statement answers, and the rows of the chat that it leaves: those of a user are
    deleted with the user. -/
def AccountStatement.exec (chat : Chat) : (q : AccountStatement) → q.Result × Chat
  | .memberRole userId => ((chat.members.get? userId).map Membership.role, chat)
  | .chatRow => (if chat.deleted then none else some chat.keyEpoch, chat)
  | .deleteUser userId => ((), chat.deleteMember userId)
  | .purgeUser userId inChat =>
    ((), if inChat then (chat.deleteMember userId).sweep else chat.deleteMember userId)
  | .deleteChat => ((), { chat with members := ∅, deleted := true })

/-! ## Routes -/

inductive AccountRequest
  /-- `DELETE /users/me/account` -/
  | deleteAccount (userId : UserId)
  /-- `adminPurgeUser`, also of a guest who has gone. -/
  | adminPurgeUser (targetUserId : UserId)
  /-- `DELETE /chats/:chatId` -/
  | deleteChat (userId : UserId)
  deriving DecidableEq

/-- The status and the text of an error. -/
abbrev AccountError := ℕ × String

abbrev AccountQuery := Program AccountStatement AccountStatement.Result

abbrev accountQuery (q : AccountStatement) : AccountQuery q.Result := Program.request q

abbrev AccountRoute := AccountQuery (Except AccountError Unit)

def deleteAccount (userId : UserId) : AccountRoute := do
  accountQuery (.deleteUser userId)
  return .ok ()

def adminPurgeUser (targetUserId : UserId) : AccountRoute := do
  let membership ← accountQuery (.memberRole targetUserId)
  accountQuery (.purgeUser targetUserId membership.isSome)
  return .ok ()

def deleteChat (userId : UserId) : AccountRoute := do
  let some _ ← accountQuery .chatRow | return .error (404, "CHAT_NOT_FOUND")
  let some _ ← accountQuery (.memberRole userId) | return .error (403, "NOT_A_MEMBER")
  let myRole ← accountQuery (.memberRole userId)
  if myRole ≠ some .owner then return .error (403, "OWNER_ONLY")
  accountQuery .deleteChat
  return .ok ()

def AccountRequest.route : AccountRequest → AccountRoute
  | .deleteAccount userId => Group.deleteAccount userId
  | .adminPurgeUser targetUserId => Group.adminPurgeUser targetUserId
  | .deleteChat userId => Group.deleteChat userId

/-! ## The machine -/

structure Accounts where
  network : Network
  /-- The users whose rows were deleted. -/
  deletedUsers : List UserId
  /-- The routes at work, by what is left of them. -/
  routes : List AccountRoute

inductive AccountEvent
  | network (ev : NetworkEvent)
  /-- A request reaches the server. -/
  | request (r : AccountRequest)
  /-- The server runs the next statement of a request. -/
  | serve (i : ℕ)
  deriving DecidableEq

namespace Accounts

variable (s : Accounts)

/-- The statement that inserts the membership row of a user who has been deleted: it
    violates the foreign key, and the request ends there. -/
def violates : NetworkEvent → Bool
  | .serve i =>
    match s.network.nextStatement i with
    | some (.insertMember userId) => userId ∈ s.deletedUsers
    | _ => false
  | _ => false

/-- The statement that a request at the server runs next. -/
def nextStatement (i : ℕ) : Option AccountStatement :=
  match s.routes[i]? with
  | some (.ask q _) => some q
  | _ => none

end Accounts

/-- The machine of a group whose users may go. -/
def accounts (ecdh : UserId → Option Jwk) : Machine Accounts AccountEvent where
  init s := (group ecdh).init s.network ∧ s.deletedUsers = [] ∧ s.routes = []
  step s
    | .network ev =>
      if s.violates ev then none
      else ((group ecdh).step s.network ev).map fun network => { s with network }
    | .request r => some { s with routes := s.routes ++ [r.route] }
    | .serve i =>
      match s.routes[i]? with
      | some (.ask q next) =>
        let (result, chat) := q.exec s.network.chat
        some {
          network := { s.network with chat }
          deletedUsers := q.deletes ++ s.deletedUsers
          routes := s.routes.set i (next result) }
      | _ => none

section
variable {ecdh : UserId → Option Jwk} {s s' : Accounts}

theorem accounts_network {ev : NetworkEvent} :
    (accounts ecdh).step s (.network ev) = some s' ↔ s.violates ev = false ∧
      ∃ network, (group ecdh).step s.network ev = some network ∧ { s with network } = s' := by
  cases h : s.violates ev <;> simp [accounts, h]

theorem accounts_serve {i : ℕ} (hs : (accounts ecdh).step s (.serve i) = some s') :
    ∃ q, s.nextStatement i = some q ∧
      s'.network = { s.network with chat := (q.exec s.network.chat).2 } := by
  simp only [accounts] at hs
  split at hs <;> cases hs
  rename_i q next hi
  exact ⟨q, by simp [Accounts.nextStatement, hi], rfl⟩

/-- The chat is touched by the statements only. -/
theorem accounts_chat {ev : AccountEvent} (hs : (accounts ecdh).step s ev = some s') :
    s'.network.chat = s.network.chat ∨
      (∃ i q, ev = .network (.serve i) ∧ s.network.nextStatement i = some q ∧
        s'.network.chat = (q.exec s.network.chat).2) ∨
      ∃ i q, ev = .serve i ∧ s.nextStatement i = some q ∧
        s'.network.chat = (q.exec s.network.chat).2 := by
  cases ev with
  | network ev =>
    obtain ⟨-, network, hstep, rfl⟩ := accounts_network.1 hs
    rcases step_chat hstep with hchat | ⟨i, q, rfl, hq, hchat⟩
    · exact .inl hchat
    · exact .inr (.inl ⟨i, q, rfl, hq, hchat⟩)
  | request r => exact .inl (Option.some.inj hs ▸ rfl)
  | serve i =>
    obtain ⟨q, hq, hnetwork⟩ := accounts_serve hs
    exact .inr (.inr ⟨i, q, rfl, hq, by rw [hnetwork]⟩)

end

/-! ## What a statement keeps -/

namespace Chat

theorem kept_sweep (chat : Chat) : chat.Kept chat.sweep := by
  rw [sweep]
  split_ifs
  · exact chat.kept_deleted true
  · exact .refl chat

theorem kept_empty (chat : Chat) : chat.Kept { chat with members := ∅, deleted := true } :=
  ⟨rfl, Nat.le_refl _, rfl, rfl, fun _ => .inr rfl⟩

theorem EmptyIfDeleted.sweep {chat : Chat} (h : chat.EmptyIfDeleted) :
    chat.sweep.EmptyIfDeleted := by
  rw [Chat.sweep]
  split_ifs with hsize
  · exact fun _ => List.length_eq_zero_iff.1 hsize
  · exact h

end Chat

namespace AccountStatement

variable {chat : Chat}

theorem exec_kept (q : AccountStatement) : chat.Kept (q.exec chat).2 := by
  cases q with
  | memberRole | chatRow => exact .refl chat
  | deleteUser userId => exact chat.kept_delete userId
  | purgeUser userId inChat =>
    cases inChat with
    | false => exact chat.kept_delete userId
    | true => exact (chat.kept_delete userId).trans (Chat.kept_sweep _)
  | deleteChat => exact chat.kept_empty

theorem exec_emptyIfDeleted (h : chat.EmptyIfDeleted) (q : AccountStatement) :
    (q.exec chat).2.EmptyIfDeleted := by
  cases q with
  | memberRole | chatRow => exact h
  | deleteUser userId => exact h.deleteMember userId
  | purgeUser userId inChat =>
    cases inChat with
    | false => exact h.deleteMember userId
    | true => exact (h.deleteMember userId).sweep
  | deleteChat => exact fun _ => rfl

end AccountStatement

/-! ## The invariants -/

/-- Rows may go at any time. -/
theorem Inv.kept {ecdh : UserId → Option Jwk} {chatId : ChatId} {floor : ℕ → ℕ} {s : Network}
    {w : World} (h : Inv ecdh chatId floor s w) {chat : Chat} (hkept : s.chat.Kept chat) :
    ∃ w', w ≤ w' ∧ Inv ecdh chatId floor { s with chat } w' := by
  obtain ⟨w', hle, htarget, hchat⟩ := h.chat.kept hkept
  exact ⟨w', hle, hchat, fun k hk => htarget ▸ h.fresh k hk, h.started_mono hle, h.tasks_mono hle,
    h.handlings_mono hle, h.replyTo⟩

section
variable {ecdh : UserId → Option Jwk} {s s' : Accounts} {chatId : ChatId} {floor : ℕ → ℕ}
  {w : World}

theorem accounts_inv_step {ev : AccountEvent} (h : Inv ecdh chatId floor s.network w)
    (hs : (accounts ecdh).step s ev = some s') :
    ∃ w', w ≤ w' ∧ Inv ecdh chatId floor s'.network w' := by
  cases ev with
  | network ev =>
    obtain ⟨-, network, hstep, rfl⟩ := accounts_network.1 hs
    exact inv_step h hstep
  | request r => exact ⟨w, le_refl w, Option.some.inj hs ▸ h⟩
  | serve i =>
    obtain ⟨q, -, hnetwork⟩ := accounts_serve hs
    rw [hnetwork]
    exact h.kept q.exec_kept

theorem accounts_inv_run {es : List AccountEvent} (h : Inv ecdh chatId floor s.network w)
    (hrun : (accounts ecdh).run s es = some s') :
    ∃ w', w ≤ w' ∧ Inv ecdh chatId floor s'.network w' := by
  refine (accounts ecdh).run_invariant (P := fun _ => True)
    (I := fun s => ∃ w', w ≤ w' ∧ Inv ecdh chatId floor s.network w') ?_ (fun _ _ => trivial)
    ⟨w, le_refl w, h⟩ hrun
  rintro s ev s' ⟨w₁, hle, h⟩ - hstep
  obtain ⟨w₂, hle', h'⟩ := accounts_inv_step h hstep
  exact ⟨w₂, le_trans hle hle', h'⟩

/-- In every reachable state the rows are good, in some world. -/
theorem accounts_exists_inv (hs : (accounts ecdh).Reachable s) :
    ∃ chatId w, Inv ecdh chatId (fun _ => 0) s.network w := by
  refine hs.invariant (fun s hinit => inv_init hinit.1) ?_
  rintro s ev s' - ⟨chatId, w, h⟩ hstep
  obtain ⟨w', -, h'⟩ := accounts_inv_step h hstep
  exact ⟨chatId, w', h'⟩

theorem accounts_emptyIfDeleted (hs : (accounts ecdh).Reachable s) :
    s.network.chat.EmptyIfDeleted := by
  refine hs.invariant (I := fun s => s.network.chat.EmptyIfDeleted) (fun s hinit => ?_)
    fun s ev s' _ h hstep => ?_
  · obtain ⟨⟨id, creator, creatorJwk, ids, hnodup, -, -, -, hs⟩, -⟩ := hinit
    rw [hs]
    exact fun hdeleted => by cases hdeleted
  · rcases accounts_chat hstep with hchat | ⟨i, q, -, -, hchat⟩ | ⟨i, q, -, -, hchat⟩ <;> rw [hchat]
    · exact h
    · exact h.exec q
    · exact AccountStatement.exec_emptyIfDeleted h q

end

end OneToThree.Group
