import OneToThree.Group.Stamps

/-!
# Reconvergence

The owner's client runs alone: its requests are handled at once, and no roster key
contradicts a pin (`Alone`). Then a rotation, and a reconciliation after it, leave every
member with the owner's key, except where the owner's own row was wrapped by somebody
else and is not behind the epoch: such a row neither opens for the owner nor makes it
rotate (`reconverge_iff`). It is what a transfer of the ownership leaves (`stranded`).
-/

namespace OneToThree.Group

/-! ## Running alone -/

/-- What a client that runs alone sees: the chat, and the keys it generates. -/
structure Alone where
  chat : Chat
  nextKey : GroupKey

/-- The answer to a call of a user's client that runs alone. -/
def Alone.answer (ecdh : UserId → Option Jwk) (user : UserId) (s : Alone) :
    (q : Call) → q.Answer × Alone
  | .server r =>
    let (response, chat) := (r.route ecdh user).exec Statement.exec s.chat
    (response, { s with chat })
  | .assertTrust _ _ => (true, s)
  | .generateKey => (s.nextKey, { s with nextKey := s.nextKey + 1 })

/-- The chat after the owner's client has run `rotateGroupKeyIfStale` and then
    `reconcileGroupKeysForChat`. -/
def reconverged (ecdh : UserId → Option Jwk) (me : Session) (s : Alone) : Alone :=
  let s := ((rotateGroupKeyIfStale me).exec (Alone.answer ecdh me.myUserId) s).2
  ((reconcileGroupKeysForChat me).exec (Alone.answer ecdh me.myUserId) s).2

namespace Chat

/-- The user that the members take for the owner. -/
def currentOwner (chat : Chat) : Option UserId :=
  (chat.members.entries.find? fun p => p.2.role = .owner).map Prod.fst

/-- The frame that a user with a private key builds from what the server stores. -/
def frame (ecdh : UserId → Option Jwk) (chat : Chat) (userId : UserId) (privateKey : Jwk) :
    Except FrameError GroupKey :=
  buildSectorFrame chat.id userId privateKey (chat.members.entries.map (memberPayload ecdh))

/-- The chat as the owner reads it. -/
def detail (ecdh : UserId → Option Jwk) (chat : Chat) : ChatDetailPayload :=
  ⟨.owner, some chat.keyEpoch, chat.members.entries.map (memberPayload ecdh)⟩

/-! ## The members -/

/-- The roles of the members. -/
def roles (chat : Chat) : InsMap UserId ChatMemberRole := chat.members.map Membership.role

/-- The chats differ in their epochs and wraps only. -/
structure SameMembers (chat chat' : Chat) : Prop where
  id : chat'.id = chat.id
  deleted : chat'.deleted = chat.deleted
  roles : chat'.roles = chat.roles

theorem SameMembers.refl (chat : Chat) : chat.SameMembers chat := ⟨rfl, rfl, rfl⟩

theorem SameMembers.trans {chat chat' chat'' : Chat} (h : chat.SameMembers chat')
    (h' : chat'.SameMembers chat'') : chat.SameMembers chat'' :=
  ⟨h'.id.trans h.id, h'.deleted.trans h.deleted, h'.roles.trans h.roles⟩

/-- The chat is there, and a user is an owner of it. -/
structure OwnedBy (chat : Chat) (userId : UserId) : Prop where
  deleted : chat.deleted = false
  role : chat.roles.get? userId = some .owner

theorem OwnedBy.same {chat chat' : Chat} {userId : UserId} (h : chat.OwnedBy userId)
    (hsame : chat.SameMembers chat') : chat'.OwnedBy userId :=
  ⟨hsame.deleted.trans h.deleted, hsame.roles ▸ h.role⟩

theorem currentOwner_eq_roles (chat : Chat) :
    chat.currentOwner = (chat.roles.entries.find? fun p => p.2 = .owner).map Prod.fst := by
  rw [currentOwner, roles, InsMap.map, List.find?_map, Option.map_map]
  rfl

theorem has_roles (chat : Chat) (userId : UserId) :
    chat.roles.has userId = chat.members.has userId := by
  simp [InsMap.has, roles, InsMap.get?_map]

theorem sameMembers_write (chat : Chat) (userId : UserId) (wrap : SectorKeyAuthWrap) :
    chat.SameMembers (chat.writeKey userId wrap) := by
  unfold writeKey updateMember
  split
  · exact ⟨rfl, rfl, rfl⟩
  · rename_i m hm
    exact ⟨rfl, rfl, InsMap.map_set Membership.role hm rfl⟩

theorem sameMembers_claimed (chat : Chat) : chat.SameMembers chat.claimed :=
  ⟨rfl, rfl, rfl⟩

theorem keyEpoch_write (chat : Chat) (userId : UserId) (wrap : SectorKeyAuthWrap) :
    (chat.writeKey userId wrap).keyEpoch = chat.keyEpoch := by
  rw [chat.writeKey_eq]

end Chat

section
variable {ecdh : UserId → Option Jwk}

/-- The roster of a chat, user by user. -/
theorem find?_payload (chat : Chat) (userId : UserId) :
    ((chat.members.entries.map (memberPayload ecdh)).find? fun m => m.user_id = userId) =
      (chat.members.get? userId).map fun m => memberPayload ecdh (userId, m) := by
  have h := chat.members.find?_entries userId
  rw [List.find?_map, show ((fun m : MemberPayload => decide (m.user_id = userId)) ∘
    memberPayload ecdh) = fun p => decide (p.1 = userId) from rfl, h, Option.map_map]
  rfl

/-! ## The requests of the owner -/

theorem getChat_exec {chat : Chat} {user : UserId} (h : chat.OwnedBy user) :
    (getChat ecdh user).exec Statement.exec chat = (.ok (chat.detail ecdh), chat) := by
  have hrole : (chat.members.get? user).map Membership.role = some .owner := by
    rw [← InsMap.get?_map]
    exact h.role
  simp only [getChat, query, Program.request_bind, Program.exec_ask, Statement.exec, hrole,
    h.deleted, Bool.false_eq_true, ↓reduceIte]
  rfl

theorem putWrappedKey_exec {chat : Chat} {user userId : UserId} (h : chat.OwnedBy user)
    (huser : chat.roles.has userId = true) (wrap : SectorKeyAuthWrap) :
    (putWrappedKey user userId wrap none).exec Statement.exec chat =
        (.ok none, chat.writeKey userId wrap) ∧
      (putWrappedKey user userId wrap (some chat.keyEpoch)).exec Statement.exec chat =
        (.ok (some (chat.keyEpoch + 1)), chat.claimed.writeKey userId wrap) := by
  have hrole : (chat.members.get? user).map Membership.role = some .owner := by
    rw [← InsMap.get?_map]
    exact h.role
  obtain ⟨role, htarget⟩ := InsMap.has_iff.1 huser
  rw [Chat.roles, InsMap.get?_map] at htarget
  constructor <;>
    simp [putWrappedKey, putKeyRow, query, Statement.exec, hrole, htarget, h.deleted]

/-! ## Current rows -/

/-- A wrap for a user, of a mint, under the epoch of the chat. -/
structure CurrentWrap (ecdh : UserId → Option Jwk) (chat : Chat) (m : Mint) (userId : UserId)
    (wrap : SectorKeyAuthWrap) : Prop where
  stamp : wrap.stamp = chat.keyEpoch
  mint : wrap.mint = m
  sealedFor : SealedForUser ecdh chat.id wrap userId

/-- The row of a user holds such a wrap. -/
def Chat.Current (ecdh : UserId → Option Jwk) (chat : Chat) (m : Mint) (userId : UserId) : Prop :=
  ∃ wrap ∈ chat.row userId, CurrentWrap ecdh chat m userId wrap

section
variable {chat : Chat} {mint : Mint} {userId v : UserId} {wrap : SectorKeyAuthWrap}

theorem CurrentWrap.write (h : CurrentWrap ecdh chat mint v wrap) (wrap' : SectorKeyAuthWrap) :
    CurrentWrap ecdh (chat.writeKey userId wrap') mint v wrap :=
  ⟨h.stamp.trans (chat.keyEpoch_write userId wrap').symm, h.mint,
    (chat.sameMembers_write userId wrap').id.symm ▸ h.sealedFor⟩

/-- A current wrap that is written makes a row current, and leaves the others so. -/
theorem Chat.Current.write (hwrap : CurrentWrap ecdh chat mint userId wrap)
    (h : chat.Current ecdh mint v) : (chat.writeKey userId wrap).Current ecdh mint v := by
  obtain ⟨wrap', hrow, hcurrent⟩ := h
  by_cases hv : v = userId ∧ chat.members.has userId = true
  · obtain rfl := hv.1
    exact ⟨wrap, by rw [row_write, if_pos hv]; rfl, hwrap.write wrap⟩
  · exact ⟨wrap', by rwa [row_write, if_neg hv], hcurrent.write wrap⟩

theorem Chat.current_write (hwrap : CurrentWrap ecdh chat mint userId wrap)
    (huser : chat.roles.has userId = true) : (chat.writeKey userId wrap).Current ecdh mint userId := by
  rw [chat.has_roles] at huser
  exact ⟨wrap, by rw [row_write, if_pos ⟨rfl, huser⟩]; rfl, hwrap.write wrap⟩

/-- A bound wrap under the epoch of the chat is current. -/
theorem boundWrap_current {creator jwk : Jwk} {key : GroupKey} (huser : ecdh userId = some jwk) :
    CurrentWrap ecdh chat ⟨key, creator⟩ userId
      (boundWrap creator jwk key chat.keyEpoch ⟨chat.id, userId⟩) :=
  ⟨rfl, rfl, jwk, huser, boundWrap_sealedFor ..⟩

end

/-! ## The rotation -/

/-- The session is of an owner of the chat. -/
structure Session.Owns (ecdh : UserId → Option Jwk) (me : Session) (chat : Chat) : Prop where
  proper : me.Proper ecdh chat.id
  owned : chat.OwnedBy me.myUserId

theorem Session.Owns.same {me : Session} {chat chat' : Chat} (h : me.Owns ecdh chat)
    (hsame : chat.SameMembers chat') : me.Owns ecdh chat' :=
  ⟨hsame.id.symm ▸ h.proper, h.owned.same hsame⟩

/-- The payloads are of members of the chat, who have ECDH keys. -/
def Reachables (ecdh : UserId → Option Jwk) (chat : Chat) (members : List MemberPayload) : Prop :=
  ∀ m ∈ members, chat.roles.has m.user_id = true ∧
    ∃ jwk, m.ecdh_public_key_jwk = some jwk ∧ ecdh m.user_id = some jwk

theorem Reachables.same {chat chat' : Chat} {members : List MemberPayload}
    (h : Reachables ecdh chat members) (hsame : chat.SameMembers chat') :
    Reachables ecdh chat' members :=
  fun m hm => ⟨hsame.roles ▸ (h m hm).1, (h m hm).2⟩

/-- The chat after the rows of `members` have been made current. -/
structure Delivered (ecdh : UserId → Option Jwk) (mint : Mint) (members : List MemberPayload)
    (chat chat' : Chat) : Prop where
  same : chat.SameMembers chat'
  keyEpoch : chat'.keyEpoch = chat.keyEpoch
  keep : ∀ v, chat.Current ecdh mint v → chat'.Current ecdh mint v
  current : ∀ m ∈ members, chat'.Current ecdh mint m.user_id

theorem Delivered.nil {mint : Mint} (chat : Chat) : Delivered ecdh mint [] chat chat :=
  ⟨.refl chat, rfl, fun _ h => h, fun _ h => by cases h⟩

/-- A current wrap is written, and then the rest delivered. -/
theorem Delivered.cons {mint : Mint} {m : MemberPayload} {members : List MemberPayload}
    {wrap : SectorKeyAuthWrap} {chat chat' : Chat} (hrole : chat.roles.has m.user_id = true)
    (hwrap : CurrentWrap ecdh chat mint m.user_id wrap)
    (h : Delivered ecdh mint members (chat.writeKey m.user_id wrap) chat') :
    Delivered ecdh mint (m :: members) chat chat' where
  same := (chat.sameMembers_write m.user_id wrap).trans h.same
  keyEpoch := h.keyEpoch.trans (chat.keyEpoch_write m.user_id wrap)
  keep v hv := h.keep v (hv.write hwrap)
  current m' hm' := by
    rcases List.mem_cons.1 hm' with rfl | hm'
    · exact h.keep _ (chat.current_write hwrap hrole)
    · exact h.current m' hm'

/-- A row that is current already needs no write. -/
theorem Delivered.skip {mint : Mint} {m : MemberPayload} {members : List MemberPayload}
    {chat chat' : Chat} (hcurrent : chat.Current ecdh mint m.user_id)
    (h : Delivered ecdh mint members chat chat') : Delivered ecdh mint (m :: members) chat chat' :=
  ⟨h.same, h.keyEpoch, h.keep, fun m' hm' => by
    rcases List.mem_cons.1 hm' with rfl | hm'
    exacts [h.keep _ hcurrent, h.current m' hm']⟩

section
variable {me : Session} {chat : Chat} {members : List MemberPayload}

/-- The loop of a rotation, once the claim has succeeded, makes the rows current. -/
theorem rotateLoop_settled (hme : me.Owns ecdh chat) (hmembers : Reachables ecdh chat members)
    (newKey nextKey : GroupKey) (epoch delivered : ℕ) :
    ∃ chat', ((rotateLoop me epoch me.myPrivateKey newKey members (some chat.keyEpoch)
        delivered).exec (Alone.answer ecdh me.myUserId) ⟨chat, nextKey⟩).2 = ⟨chat', nextKey⟩ ∧
      Delivered ecdh ⟨newKey, me.myPrivateKey⟩ members chat chat' := by
  induction members generalizing chat delivered with
  | nil =>
    refine ⟨chat, ?_, .nil chat⟩
    unfold rotateLoop
    split_ifs <;> rfl
  | cons m members ih =>
    obtain ⟨hrole, jwk, hjwk, huser⟩ := hmembers m List.mem_cons_self
    have hput := (putWrappedKey_exec hme.owned hrole
      (boundWrap me.myPrivateKey jwk newKey chat.keyEpoch ⟨chat.id, m.user_id⟩)).1
    have hsame := chat.sameMembers_write m.user_id
      (boundWrap me.myPrivateKey jwk newKey chat.keyEpoch ⟨chat.id, m.user_id⟩)
    obtain ⟨chat', hexec, h⟩ := ih (hme.same hsame)
      (fun m' hm' => Reachables.same hmembers hsame m' (List.mem_cons_of_mem _ hm')) (delivered + 1)
    rw [chat.keyEpoch_write] at hexec
    refine ⟨chat', ?_, .cons hrole (boundWrap_current huser) h⟩
    rw [← hexec]
    unfold boundWrap at hput ⊢
    simp [rotateLoop, hjwk, call, Alone.answer, Request.route, hme.proper.1, hput]

/-- The loop of a rotation of the current epoch claims the next one, and makes the rows
    current. -/
theorem rotateLoop_unsettled {m : MemberPayload} (hme : me.Owns ecdh chat)
    (hmembers : Reachables ecdh chat (m :: members)) (newKey nextKey : GroupKey) :
    ∃ chat', ((rotateLoop me chat.keyEpoch me.myPrivateKey newKey (m :: members) none 0).exec
        (Alone.answer ecdh me.myUserId) ⟨chat, nextKey⟩).2 = ⟨chat', nextKey⟩ ∧
      Delivered ecdh ⟨newKey, me.myPrivateKey⟩ (m :: members) chat.claimed chat' := by
  obtain ⟨hrole, jwk, hjwk, huser⟩ := hmembers m List.mem_cons_self
  have hput := (putWrappedKey_exec hme.owned hrole
    (boundWrap me.myPrivateKey jwk newKey (chat.keyEpoch + 1) ⟨chat.id, m.user_id⟩)).2
  have hsame := chat.sameMembers_claimed.trans (chat.claimed.sameMembers_write m.user_id
    (boundWrap me.myPrivateKey jwk newKey (chat.keyEpoch + 1) ⟨chat.id, m.user_id⟩))
  obtain ⟨chat', hexec, h⟩ := rotateLoop_settled (hme.same hsame)
    (fun m' hm' => Reachables.same hmembers hsame m' (List.mem_cons_of_mem _ hm')) newKey nextKey
    chat.keyEpoch 1
  rw [chat.claimed.keyEpoch_write] at hexec
  refine ⟨chat', ?_, .cons hrole (boundWrap_current huser) h⟩
  rw [← hexec]
  unfold boundWrap at hput ⊢
  simp [rotateLoop, hjwk, call, Alone.answer, Request.route, hme.proper.1, hput, Chat.claimed,
    Chat.bumpEpoch]

/-- Every member of the chat has an ECDH key. -/
def Chat.Keyed (ecdh : UserId → Option Jwk) (chat : Chat) : Prop :=
  ∀ u, chat.roles.has u = true → ∃ jwk, ecdh u = some jwk

theorem Chat.Keyed.reachables (h : chat.Keyed ecdh) :
    Reachables ecdh chat (chat.members.entries.map (memberPayload ecdh)) := by
  intro m hm
  obtain ⟨⟨u, membership⟩, hmem, rfl⟩ := List.mem_map.1 hm
  have hrole : chat.roles.has u = true := by
    rw [chat.has_roles]
    exact InsMap.has_iff.2 ⟨membership, InsMap.get?_eq_some_iff.2 hmem⟩
  obtain ⟨jwk, hjwk⟩ := h u hrole
  exact ⟨hrole, jwk, hjwk, hjwk⟩

/-- The owner finds itself in the roster. -/
theorem findMember_self (hme : me.Owns ecdh chat) :
    findMember (chat.detail ecdh) me.myUserId =
      some ⟨me.myUserId, some me.myPrivateKey, chat.row me.myUserId, .owner⟩ := by
  have hrole := hme.owned.role
  rw [Chat.roles, InsMap.get?_map] at hrole
  obtain ⟨m, hm, hmrole⟩ := Option.map_eq_some_iff.1 hrole
  rw [findMember, Chat.detail, find?_payload, hm, Chat.row, hm, Option.map_some, memberPayload,
    hme.proper.2, hmrole]
  rfl

theorem getChat_answer (hme : me.Owns ecdh chat) (nextKey : GroupKey) :
    Alone.answer ecdh me.myUserId ⟨chat, nextKey⟩ (.server .getChat) =
      (.ok (chat.detail ecdh), ⟨chat, nextKey⟩) := by
  simp [Alone.answer, Request.route, getChat_exec hme.owned]

/-- A rotation claims the next epoch and makes all the rows current, under the next key. -/
theorem runRotation_exec (hme : me.Owns ecdh chat) (hkeyed : chat.Keyed ecdh) (targetEpoch : ℕ)
    (nextKey : GroupKey) :
    ∃ chat', ((runRotation me targetEpoch).exec (Alone.answer ecdh me.myUserId)
        ⟨chat, nextKey⟩).2 = ⟨chat', nextKey + 1⟩ ∧
      Delivered ecdh ⟨nextKey, me.myPrivateKey⟩ (chat.members.entries.map (memberPayload ecdh))
        chat.claimed chat' := by
  obtain ⟨m, members, hroster⟩ : ∃ m members,
      chat.members.entries.map (memberPayload ecdh) = m :: members := by
    refine List.exists_cons_of_ne_nil fun hnil => ?_
    have hself := findMember_self hme
    rw [findMember, Chat.detail, hnil] at hself
    cases hself
  obtain ⟨chat', hexec, h⟩ := rotateLoop_unsettled hme (hroster ▸ hkeyed.reachables) nextKey
    (nextKey + 1)
  refine ⟨chat', ?_, hroster ▸ h⟩
  rw [← hexec]
  have hself := findMember_self hme
  simp only [runRotation, call, Program.request_bind, Program.exec_ask, getChat_answer hme, hself]
  simp [Chat.detail, Program.exec_bind, Alone.answer, hroster]

theorem rotateGroupKeyIfStale_exec (hme : me.Owns ecdh chat) (hkeyed : chat.Keyed ecdh)
    (nextKey : GroupKey) :
    if shouldRotateGroupKey (chat.detail ecdh) me.myUserId chat.keyEpoch = true then
      ∃ chat', ((rotateGroupKeyIfStale me).exec (Alone.answer ecdh me.myUserId)
          ⟨chat, nextKey⟩).2 = ⟨chat', nextKey + 1⟩ ∧
        Delivered ecdh ⟨nextKey, me.myPrivateKey⟩ (chat.members.entries.map (memberPayload ecdh))
          chat.claimed chat'
    else ((rotateGroupKeyIfStale me).exec (Alone.answer ecdh me.myUserId) ⟨chat, nextKey⟩).2 =
      ⟨chat, nextKey⟩ := by
  have hanswer := getChat_answer hme nextKey
  have hepoch : (chat.detail ecdh).key_epoch.getD 0 = chat.keyEpoch := rfl
  split_ifs with hstale
  · obtain ⟨chat', hexec, h⟩ := runRotation_exec hme hkeyed chat.keyEpoch nextKey
    refine ⟨chat', ?_, h⟩
    rw [← hexec]
    simp only [rotateGroupKeyIfStale, call, Program.request_bind, Program.exec_ask, hanswer, hepoch,
      hstale, Bool.not_true, Bool.false_eq_true, ↓reduceIte, Program.exec_bind]
    split <;> rfl
  · simp only [rotateGroupKeyIfStale, call, Program.request_bind, Program.exec_ask, hanswer, hepoch,
      hstale, Bool.not_false, ↓reduceIte]
    rfl

/-! ## The reconciliation -/

/-- The loop of a reconciliation, with an own wrap that opens: it makes the rows current, if
    those that it leaves alone are. -/
theorem reconcileLoop_exec (hme : me.Owns ecdh chat) (hmembers : Reachables ecdh chat members)
    {myStored : SectorKeyAuthWrap} {key : GroupKey}
    (hopen : unwrapOwn me myStored me.myPrivateKey = .ok key)
    (hcurrent : ∀ m ∈ members, (m.user_id = me.myUserId ∨
      (m.encrypted_group_key.bind readStoredSectorKeyEpoch).any (chat.keyEpoch ≤ ·) = true) →
        chat.Current ecdh ⟨key, me.myPrivateKey⟩ m.user_id)
    {groupKey : Option GroupKey} (hkey : ∀ k ∈ groupKey, k = key) (delivered : Bool)
    (nextKey : GroupKey) :
    ∃ chat', ((reconcileLoop me myStored me.myPrivateKey chat.keyEpoch members groupKey
        delivered).exec (Alone.answer ecdh me.myUserId) ⟨chat, nextKey⟩).2 = ⟨chat', nextKey⟩ ∧
      Delivered ecdh ⟨key, me.myPrivateKey⟩ members chat chat' := by
  induction members generalizing chat groupKey delivered with
  | nil => exact ⟨chat, rfl, .nil chat⟩
  | cons m members ih =>
    have hrest : Reachables ecdh chat members := fun m' hm' => hmembers m' (List.mem_cons_of_mem _ hm')
    obtain ⟨hrole, jwk, hjwk, huser⟩ := hmembers m List.mem_cons_self
    unfold reconcileLoop
    split_ifs with hself
    · obtain ⟨chat', hexec, h⟩ := ih hme hrest
        (fun m' hm' => hcurrent m' (List.mem_cons_of_mem _ hm')) hkey delivered
      exact ⟨chat', hexec, h.skip (hcurrent m List.mem_cons_self (.inl hself))⟩
    simp only [hjwk]
    split_ifs with hbehind
    · obtain ⟨chat', hexec, h⟩ := ih hme hrest
        (fun m' hm' => hcurrent m' (List.mem_cons_of_mem _ hm')) hkey delivered
      exact ⟨chat', hexec, h.skip (hcurrent m List.mem_cons_self (.inr hbehind))⟩
    have hkey' : groupKey.elim (unwrapOwn me myStored me.myPrivateKey) .ok = .ok key := by
      cases groupKey with
      | none => exact hopen
      | some k => exact congrArg _ (hkey k rfl)
    have hput := (putWrappedKey_exec hme.owned hrole
      (boundWrap me.myPrivateKey jwk key chat.keyEpoch ⟨chat.id, m.user_id⟩)).1
    have hwrap : CurrentWrap ecdh chat ⟨key, me.myPrivateKey⟩ m.user_id
        (boundWrap me.myPrivateKey jwk key chat.keyEpoch ⟨chat.id, m.user_id⟩) :=
      boundWrap_current huser
    have hsame := chat.sameMembers_write m.user_id
      (boundWrap me.myPrivateKey jwk key chat.keyEpoch ⟨chat.id, m.user_id⟩)
    have hepoch := chat.keyEpoch_write m.user_id
      (boundWrap me.myPrivateKey jwk key chat.keyEpoch ⟨chat.id, m.user_id⟩)
    obtain ⟨chat', hexec, h⟩ := ih (hme.same hsame) (hrest.same hsame)
      (fun m' hm' hskip => (hcurrent m' (List.mem_cons_of_mem _ hm') (hepoch ▸ hskip)).write hwrap)
      (show ∀ k ∈ some key, k = key from fun k hk => (Option.some.inj hk).symm) true
    rw [hepoch] at hexec
    refine ⟨chat', ?_, .cons hrole hwrap h⟩
    rw [← hexec]
    unfold boundWrap at hput ⊢
    simp [call, Alone.answer, Request.route, hme.proper.1, hkey', hput]

/-- With an own wrap that does not open, it changes nothing. -/
theorem reconcileLoop_stuck {myStored : SectorKeyAuthWrap} {e : UnwrapError} {myEpoch : ℕ}
    (hopen : unwrapOwn me myStored me.myPrivateKey = .error e) (members : List MemberPayload)
    (delivered : Bool) (s : Alone) :
    ((reconcileLoop me myStored me.myPrivateKey myEpoch members none delivered).exec
      (Alone.answer ecdh me.myUserId) s).2 = s := by
  induction members generalizing delivered with
  | nil => rfl
  | cons m members ih =>
    unfold reconcileLoop
    split_ifs
    · exact ih delivered
    cases m.ecdh_public_key_jwk with
    | none => exact ih delivered
    | some jwk =>
      dsimp only
      split_ifs
      · exact ih delivered
      · simp [call, Alone.answer, hopen]

/-- With a current row of its own the owner makes all the rows current, if those that are not
    behind are. -/
theorem reconcile_exec (hme : me.Owns ecdh chat) (hkeyed : chat.Keyed ecdh) {key : GroupKey}
    (hown : chat.Current ecdh ⟨key, me.myPrivateKey⟩ me.myUserId)
    (hcurrent : ∀ u, ∀ wrap ∈ chat.row u, chat.keyEpoch ≤ wrap.stamp →
      chat.Current ecdh ⟨key, me.myPrivateKey⟩ u) (nextKey : GroupKey) :
    ∃ chat', ((reconcileGroupKeysForChat me).exec (Alone.answer ecdh me.myUserId)
        ⟨chat, nextKey⟩).2 = ⟨chat', nextKey⟩ ∧
      Delivered ecdh ⟨key, me.myPrivateKey⟩ (chat.members.entries.map (memberPayload ecdh))
        chat chat' := by
  obtain ⟨myStored, hrow, hstamp, hmint, jwk, hjwk, hsealed⟩ := hown
  obtain rfl : me.myPrivateKey = jwk := Option.some.inj (hme.proper.2.symm.trans hjwk)
  have hopen : unwrapOwn me myStored me.myPrivateKey = .ok key := by
    have := unwrap_eq_ok hsealed
    rw [show myStored.creatorEcdhPublicKeyJwk = me.myPrivateKey from congrArg Mint.creator hmint,
      show myStored.key = key from congrArg Mint.key hmint, ← hme.proper.1] at this
    exact this
  have hskip : ∀ m ∈ chat.members.entries.map (memberPayload ecdh), (m.user_id = me.myUserId ∨
      (m.encrypted_group_key.bind readStoredSectorKeyEpoch).any (chat.keyEpoch ≤ ·) = true) →
        chat.Current ecdh ⟨key, me.myPrivateKey⟩ m.user_id := by
    rintro m hm (hself | hstored)
    · rw [hself]
      exact hcurrent _ myStored hrow (Nat.le_of_eq hstamp.symm)
    · obtain ⟨⟨u, membership⟩, hmem, rfl⟩ := List.mem_map.1 hm
      obtain ⟨e, he, hle⟩ := (Option.any_eq_true ..).1 hstored
      obtain ⟨wrap, hwrap, hread⟩ := Option.bind_eq_some_iff.1 he
      obtain rfl := Option.some.inj hread
      refine hcurrent u wrap ?_ (of_decide_eq_true hle)
      rw [Chat.row, InsMap.get?_eq_some_iff.2 hmem]
      exact hwrap
  obtain ⟨chat', hexec, h⟩ := reconcileLoop_exec hme hkeyed.reachables hopen hskip
    (show ∀ k ∈ none, k = key from fun _ h => by cases h) false nextKey
  refine ⟨chat', ?_, h⟩
  rw [← hexec]
  have hself := findMember_self hme
  rw [show chat.row me.myUserId = some myStored from hrow] at hself
  have hepoch : (readStoredSectorKeyEpoch myStored).getD 0 = chat.keyEpoch := hstamp
  simp only [reconcileGroupKeysForChat, call, Program.request_bind, Program.exec_ask,
    getChat_answer hme, hself, hepoch]
  simp [Chat.detail]

/-- With no row of its own, or with one that is not behind and does not open, it changes
    nothing. -/
theorem reconcile_stuck (hme : me.Owns ecdh chat)
    (hown : ∀ wrap ∈ chat.row me.myUserId, chat.keyEpoch ≤ wrap.stamp ∧
      wrap.creatorEcdhPublicKeyJwk ≠ me.myPrivateKey) (nextKey : GroupKey) :
    ((reconcileGroupKeysForChat me).exec (Alone.answer ecdh me.myUserId) ⟨chat, nextKey⟩).2 =
      ⟨chat, nextKey⟩ := by
  have hself := findMember_self hme
  cases hrow : chat.row me.myUserId with
  | none =>
    rw [hrow] at hself
    simp [reconcileGroupKeysForChat, call, getChat_answer hme, hself]
  | some myStored =>
    rw [hrow] at hself
    obtain ⟨hstamp, hcreator⟩ := hown myStored hrow
    have hstuck : unwrapOwn me myStored me.myPrivateKey = _ := unwrap_eq_error hcreator
    simp only [reconcileGroupKeysForChat, call, Program.request_bind, Program.exec_ask,
      getChat_answer hme, hself]
    simp [Chat.detail, Nat.not_lt.2 hstamp, reconcileLoop_stuck hstuck]

/-! ## The frames -/

theorem find?_owner {o : UserId} (howner : chat.currentOwner = some o) :
    ((chat.members.entries.map (memberPayload ecdh)).find? fun m => m.role = .owner).bind
      MemberPayload.ecdh_public_key_jwk = ecdh o := by
  rw [List.find?_map]
  obtain ⟨p, hp, rfl⟩ := Option.map_eq_some_iff.1 howner
  rw [show ((fun m : MemberPayload => decide (m.role = .owner)) ∘ memberPayload ecdh) =
    fun p => decide (p.2.role = .owner) from rfl, hp]
  rfl

/-- The current key of a frame is what the own row opens to, bound to the owner. -/
theorem frame_eq {o u : UserId} {ownerJwk jwk : Jwk} (howner : chat.currentOwner = some o)
    (hownerJwk : ecdh o = some ownerJwk) :
    chat.frame ecdh u jwk = match chat.row u with
      | none => .error .missingSectorKey
      | some wrap => (unwrapGroupKeyFromStoredPayload jwk wrap (some ownerJwk)
          (some ⟨chat.id, u⟩)).mapError .unwrap := by
  have hrow : ((chat.members.entries.map (memberPayload ecdh)).find? fun m => m.user_id = u).bind
      MemberPayload.encrypted_group_key = chat.row u := by
    rw [find?_payload, Chat.row]
    cases chat.members.get? u <;> rfl
  rw [Chat.frame, buildSectorFrame, hrow]
  cases chat.row u with
  | none => rfl
  | some wrap =>
    simp only [resolveSectorOwnerEcdhJwk, find?_owner howner, hownerJwk]
    cases unwrapGroupKeyFromStoredPayload jwk wrap (some ownerJwk) (some ⟨chat.id, u⟩) <;> rfl

/-- A current row opens to its key. -/
theorem frame_of_current {o u : UserId} {ownerJwk jwk : Jwk} {key : GroupKey}
    (howner : chat.currentOwner = some o) (hownerJwk : ecdh o = some ownerJwk)
    (hjwk : ecdh u = some jwk) (h : chat.Current ecdh ⟨key, ownerJwk⟩ u) :
    chat.frame ecdh u jwk = .ok key := by
  obtain ⟨wrap, hrow, -, hmint, jwk', hjwk', hsealed⟩ := h
  obtain rfl : jwk = jwk' := Option.some.inj (hjwk.symm.trans hjwk')
  have hunwrap := unwrap_eq_ok hsealed
  rw [show wrap.creatorEcdhPublicKeyJwk = ownerJwk from congrArg Mint.creator hmint,
    show wrap.key = key from congrArg Mint.key hmint] at hunwrap
  rw [frame_eq howner hownerJwk, show chat.row u = some wrap from hrow]
  simp only [hunwrap]
  rfl

/-- The owner's own row opens only if the owner wrapped it. -/
theorem creator_of_frame {o : UserId} {ownerJwk : Jwk} {key : GroupKey}
    (howner : chat.currentOwner = some o) (hownerJwk : ecdh o = some ownerJwk)
    (h : chat.frame ecdh o ownerJwk = .ok key) :
    ∃ wrap ∈ chat.row o, wrap.creatorEcdhPublicKeyJwk = ownerJwk := by
  rw [frame_eq howner hownerJwk] at h
  cases hrow : chat.row o with
  | none => simp [hrow] at h
  | some wrap =>
    refine ⟨wrap, rfl, ?_⟩
    by_contra hne
    simp only [hrow, unwrap_eq_error hne] at h
    cases h

end

/-! ## Reconvergence -/

theorem currentOwner_owned {chat : Chat} {o : UserId} (h : chat.currentOwner = some o)
    (hempty : chat.EmptyIfDeleted) : chat.OwnedBy o := by
  obtain ⟨⟨o, m⟩, hp, rfl⟩ := Option.map_eq_some_iff.1 h
  have hmem := List.mem_of_find?_eq_some hp
  have hrole : m.role = .owner := by simpa using List.find?_some hp
  refine ⟨?_, ?_⟩
  · rw [← Bool.not_eq_true]
    intro hdeleted
    rw [hempty hdeleted] at hmem
    cases hmem
  · rw [Chat.roles, InsMap.get?_map, InsMap.get?_eq_some_iff.2 hmem, ← hrole]
    rfl

theorem emptyIfDeleted {s : Network} (hs : (group ecdh).Reachable s) : s.chat.EmptyIfDeleted := by
  refine Machine.Reachable.invariant (I := fun s => s.chat.EmptyIfDeleted) hs ?_ ?_
  · rintro _ ⟨_, _, _, _, _, _, _, _, rfl⟩ hdeleted
    cases hdeleted
  · intro s ev s' _ h hstep
    rcases step_chat hstep with hchat | ⟨i, q, -, -, hchat⟩ <;> rw [hchat]
    exacts [h, h.exec q]

/-- Whether the owner rotates, in terms of its row. -/
theorem shouldRotate_eq {me : Session} {chat : Chat} (hme : me.Owns ecdh chat) :
    shouldRotateGroupKey (chat.detail ecdh) me.myUserId chat.keyEpoch =
      match chat.row me.myUserId with
      | none => decide (chat.keyEpoch > 0)
      | some wrap => decide (wrap.stamp < chat.keyEpoch) := by
  simp only [shouldRotateGroupKey, findMember_self hme]
  cases chat.row me.myUserId <;> rfl

/-- What is delivered to the whole roster is delivered to every member. -/
theorem Delivered.current_of_has {mint : Mint} {chat chat₀ chat' : Chat}
    (h : Delivered ecdh mint (chat₀.members.entries.map (memberPayload ecdh)) chat chat')
    {u : UserId} (hu : chat₀.members.has u = true) : chat'.Current ecdh mint u := by
  obtain ⟨m, hm⟩ := InsMap.has_iff.1 hu
  exact h.current (memberPayload ecdh (u, m))
    (List.mem_map_of_mem (InsMap.get?_eq_some_iff.1 hm))

section
variable {me : Session} {chat : Chat}

/-- If the owner was to rotate, then all the rows are current afterwards. -/
theorem reconverged_of_stale (hme : me.Owns ecdh chat) (hkeyed : chat.Keyed ecdh)
    (hstale : shouldRotateGroupKey (chat.detail ecdh) me.myUserId chat.keyEpoch = true)
    (nextKey : GroupKey) :
    ∃ key chat', (reconverged ecdh me ⟨chat, nextKey⟩).chat = chat' ∧ chat.SameMembers chat' ∧
      ∀ u, chat.members.has u = true → chat'.Current ecdh ⟨key, me.myPrivateKey⟩ u := by
  have hrotate := rotateGroupKeyIfStale_exec hme hkeyed nextKey
  rw [if_pos hstale] at hrotate
  obtain ⟨chat₁, hexec₁, h₁⟩ := hrotate
  have hsame₁ : chat.SameMembers chat₁ := chat.sameMembers_claimed.trans h₁.same
  have hall : ∀ u, chat₁.members.has u = true → chat₁.Current ecdh ⟨nextKey, me.myPrivateKey⟩ u := by
    intro u hu
    rw [← chat₁.has_roles, hsame₁.roles, chat.has_roles] at hu
    exact h₁.current_of_has hu
  have hmember : ∀ u, ∀ wrap ∈ chat₁.row u, chat₁.members.has u = true := by
    intro u wrap hwrap
    obtain ⟨m, hm, -⟩ := Option.bind_eq_some_iff.1 hwrap
    exact InsMap.has_iff.2 ⟨m, hm⟩
  have hown : chat₁.members.has me.myUserId = true := by
    rw [← chat₁.has_roles, InsMap.has, (hme.same hsame₁).owned.role]
    rfl
  obtain ⟨chat₂, hexec₂, h₂⟩ := reconcile_exec (hme.same hsame₁)
    (fun u hu => hkeyed u (hsame₁.roles ▸ hu)) (hall _ hown)
    (fun u wrap hwrap _ => hall u (hmember u wrap hwrap)) (nextKey + 1)
  refine ⟨nextKey, chat₂, ?_, hsame₁.trans h₂.same, fun u hu => ?_⟩
  · rw [reconverged, hexec₁, hexec₂]
  · rw [← chat.has_roles, ← hsame₁.roles, chat₁.has_roles] at hu
    exact h₂.keep u (hall u hu)

/-- So they are, if the own row of the owner is of its own and not behind. -/
theorem reconverged_of_own {chatId : ChatId} {w : World} (hinv : ChatInv ecdh chatId chat w)
    (hme : me.Owns ecdh chat) (hkeyed : chat.Keyed ecdh)
    (hstale : shouldRotateGroupKey (chat.detail ecdh) me.myUserId chat.keyEpoch = false)
    {wrap : SectorKeyAuthWrap} (hrow : wrap ∈ chat.row me.myUserId)
    (hcreator : wrap.creatorEcdhPublicKeyJwk = me.myPrivateKey) (nextKey : GroupKey) :
    ∃ key chat', (reconverged ecdh me ⟨chat, nextKey⟩).chat = chat' ∧ chat.SameMembers chat' ∧
      ∀ u, chat.members.has u = true → chat'.Current ecdh ⟨key, me.myPrivateKey⟩ u := by
  have hrotate := rotateGroupKeyIfStale_exec hme hkeyed nextKey
  rw [if_neg (by rw [hstale]; exact Bool.false_ne_true)] at hrotate
  rw [shouldRotate_eq hme, show chat.row me.myUserId = some wrap from hrow] at hstale
  have hgood := (hinv.row _ wrap hrow).1
  -- The stamps are not beyond the epoch, and one stamp has one mint.
  have hcurrent : ∀ u, ∀ wrap' ∈ chat.row u, chat.keyEpoch ≤ wrap'.stamp →
      chat.Current ecdh ⟨wrap.key, me.myPrivateKey⟩ u := by
    intro u wrap' hrow' hle
    obtain ⟨hgood', hsealed'⟩ := hinv.row u wrap' hrow'
    have hstamp : ∀ wrap : SectorKeyAuthWrap, wrap.Good w → chat.keyEpoch ≤ wrap.stamp →
        wrap.stamp = chat.keyEpoch := fun wrap h hle =>
      Nat.le_antisymm (Nat.le_trans (hinv.stamp_le h) hinv.lastClaim) hle
    have hmint : wrap'.mint = wrap.mint := by
      rw [SectorKeyAuthWrap.Good, hstamp wrap hgood (Nat.not_lt.1 (of_decide_eq_false hstale))]
        at hgood
      rw [SectorKeyAuthWrap.Good, hstamp wrap' hgood' hle, hgood] at hgood'
      exact (Option.some.inj hgood').symm
    exact ⟨wrap', hrow', hstamp wrap' hgood' hle, by
      rw [hmint, SectorKeyAuthWrap.mint, hcreator], hinv.id.symm ▸ hsealed'⟩
  obtain ⟨chat', hexec, h⟩ := reconcile_exec hme hkeyed
    (hcurrent _ wrap hrow (Nat.not_lt.1 (of_decide_eq_false hstale))) hcurrent nextKey
  refine ⟨wrap.key, chat', ?_, h.same, fun u hu => h.current_of_has hu⟩
  rw [reconverged, hrotate, hexec]

/-- Otherwise nothing is changed. -/
theorem reconverged_of_stuck (hme : me.Owns ecdh chat) (hkeyed : chat.Keyed ecdh)
    (hstale : shouldRotateGroupKey (chat.detail ecdh) me.myUserId chat.keyEpoch = false)
    (hcreator : ∀ wrap ∈ chat.row me.myUserId, wrap.creatorEcdhPublicKeyJwk ≠ me.myPrivateKey)
    (nextKey : GroupKey) :
    (reconverged ecdh me ⟨chat, nextKey⟩).chat = chat := by
  have hrotate := rotateGroupKeyIfStale_exec hme hkeyed nextKey
  rw [if_neg (by rw [hstale]; exact Bool.false_ne_true)] at hrotate
  rw [reconverged, hrotate, reconcile_stuck hme (fun wrap hrow => ⟨?_, hcreator wrap hrow⟩) nextKey]
  rw [shouldRotate_eq hme, show chat.row me.myUserId = some wrap from hrow] at hstale
  exact Nat.not_lt.1 (of_decide_eq_false hstale)

end

/-- When the owner's client has run alone, all the members have one key between them, which is
    wrapped for them by the owner, if and only if the owner was to rotate, or its own row was
    wrapped by itself. -/
theorem reconverge_iff {s : Network} (hs : (group ecdh).Reachable s) {o : UserId} {ownerJwk : Jwk}
    (howner : s.chat.currentOwner = some o) (hownerJwk : ecdh o = some ownerJwk)
    (hkeyed : ∀ u, s.chat.members.has u = true → ∃ jwk, ecdh u = some jwk) :
    (∃ key, ∀ u jwk, s.chat.members.has u = true → ecdh u = some jwk →
      (reconverged ecdh ⟨s.chat.id, o, ownerJwk⟩ ⟨s.chat, s.nextKey⟩).chat.frame ecdh u jwk =
        .ok key) ↔
      shouldRotateGroupKey (s.chat.detail ecdh) o s.chat.keyEpoch = true ∨
        ∃ wrap ∈ s.chat.row o, wrap.creatorEcdhPublicKeyJwk = ownerJwk := by
  obtain ⟨chatId, w, hinv⟩ := exists_inv hs
  let me : Session := ⟨s.chat.id, o, ownerJwk⟩
  have hme : me.Owns ecdh s.chat := ⟨⟨rfl, hownerJwk⟩, currentOwner_owned howner (emptyIfDeleted hs)⟩
  have hkeyed' : s.chat.Keyed ecdh := fun u hu => hkeyed u (s.chat.has_roles u ▸ hu)
  have hframes : (∃ key chat', (reconverged ecdh me ⟨s.chat, s.nextKey⟩).chat = chat' ∧
      s.chat.SameMembers chat' ∧ ∀ u, s.chat.members.has u = true →
        chat'.Current ecdh ⟨key, ownerJwk⟩ u) →
      ∃ key, ∀ u jwk, s.chat.members.has u = true → ecdh u = some jwk →
        (reconverged ecdh me ⟨s.chat, s.nextKey⟩).chat.frame ecdh u jwk = .ok key := by
    rintro ⟨key, chat', hchat, hsame, hcurrent⟩
    rw [Chat.currentOwner_eq_roles, ← hsame.roles, ← Chat.currentOwner_eq_roles] at howner
    exact ⟨key, fun u jwk hu hjwk => hchat ▸ frame_of_current howner hownerJwk hjwk (hcurrent u hu)⟩
  cases hstale : shouldRotateGroupKey (s.chat.detail ecdh) o s.chat.keyEpoch with
  | true => exact iff_of_true (hframes (reconverged_of_stale hme hkeyed' hstale _)) (.inl rfl)
  | false =>
    constructor
    · rintro ⟨key, hkey⟩
      by_contra hnot
      have hstuck := reconverged_of_stuck hme hkeyed' hstale
        (fun wrap hrow hcreator => hnot (.inr ⟨wrap, hrow, hcreator⟩)) s.nextKey
      have hmember : s.chat.members.has o = true := by
        rw [← s.chat.has_roles, InsMap.has, hme.owned.role]
        rfl
      have hframe := hkey o ownerJwk hmember hownerJwk
      rw [hstuck] at hframe
      exact hnot (.inr (creator_of_frame howner hownerJwk hframe))
    · rintro (h | ⟨wrap, hrow, hcreator⟩)
      · cases h
      · exact hframes (reconverged_of_own hinv.chat hme hkeyed' hstale hrow hcreator _)

/-- After the first rotation the user 2 has no wrap yet; the owner delivers its own key. -/
theorem reconverge_iff_heldUp : ∃ s, (group jwks).run created heldUpEvents = some s ∧
    ∃ key, ∀ u jwk, s.chat.members.has u = true → jwks u = some jwk →
      (reconverged jwks ⟨s.chat.id, 1, 11⟩ ⟨s.chat, s.nextKey⟩).chat.frame jwks u jwk = .ok key := by
  have h : ((group jwks).run created heldUpEvents).map (fun s =>
      decide (s.chat.currentOwner = some 1 ∧ s.chat.row 1 = some (boundWrap 11 11 1 2 ⟨7, 1⟩))) =
        some true := by
    decide +kernel
  obtain ⟨s, hs, h⟩ := Option.map_eq_some_iff.1 h
  obtain ⟨howner, hrow⟩ := of_decide_eq_true h
  exact ⟨s, hs, (reconverge_iff (created_reachable.run hs) howner rfl fun u _ => ⟨10 + u, rfl⟩).2
    (.inr ⟨_, hrow, rfl⟩)⟩

/-- The user 1 makes the user 3 the owner. -/
def transferEvents : List NetworkEvent :=
  [.request 1 (.patchRole 3 .owner), .serve 0, .serve 0, .serve 0, .serve 0]

/-- After a transfer of the ownership the rows are of the previous owner, and as the epoch has
    not moved, the new owner does not rotate: no member can open its row. -/
theorem stranded : ∃ s, (group jwks).Reachable s ∧ s.chat.currentOwner = some 3 ∧
    s.chat.members.keys = [1, 3] ∧ ∀ u ∈ s.chat.members.keys,
      (reconverged jwks ⟨s.chat.id, 3, 13⟩ ⟨s.chat, s.nextKey⟩).chat.frame jwks u (10 + u) =
        .error (.unwrap .creatorKeyUntrusted) := by
  have h : ((group jwks).run created transferEvents).map (fun s =>
      decide (s.chat.currentOwner = some 3 ∧ s.chat.members.keys = [1, 3] ∧ ∀ u ∈ s.chat.members.keys,
        (reconverged jwks ⟨s.chat.id, 3, 13⟩ ⟨s.chat, s.nextKey⟩).chat.frame jwks u (10 + u) =
          .error (.unwrap .creatorKeyUntrusted))) = some true := by
    decide +kernel
  obtain ⟨s, hs, h⟩ := Option.map_eq_some_iff.1 h
  exact ⟨s, created_reachable.run hs, of_decide_eq_true h⟩

end

end OneToThree.Group
