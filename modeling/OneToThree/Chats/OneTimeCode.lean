import Mathlib.Order.CompleteBooleanAlgebra
import Mathlib.Order.CompletePartialOrder
import OneToThree.Chats.Members

/-!
# One-time invite codes

A code that is good for one join: the transaction of a join clears it, if it is still there, and
inserts the member behind that. Whether the user is a member already is read before the
transaction; where the insert then finds the user there, the transaction commits all the same.

`oneTime_of_run`: along a run in which nobody who clears the code has become a member since that
was read (`Admits`), the code is cleared if and only if one user was admitted through it, and
whoever cleared it was admitted; and the first transaction of a run that clears the code for
somebody who is a member already breaks that.

The transactions that went for the code are the history of the run (`Attempt`). Nobody sets
another code meanwhile.
-/

namespace OneToThree.Chats.OneTimeCode

open Store

variable (type : ChatType) (code : String)

/-- A transaction of a join with the code. -/
structure Attempt where
  userId : String
  /-- The user is a new member. -/
  admitted : Bool
  /-- The code was there, and is not any more. -/
  cleared : Bool
  deriving DecidableEq

/-- How many users were admitted. -/
def admissions (attempts : List Attempt) : ℕ := attempts.countP (·.admitted)

abbrev ChatState := Service.State Store Statement Statement.Result Request Reply

/-- The chat has the code. -/
def hasCode (s : Store) : Bool := s.chat.any fun chat => chat.inviteCode = some code

/-- The attempts after a statement, given the rows before and after it. -/
def recordStatement (attempts : List Attempt) (s s' : Store) : Statement → List Attempt
  | .join userId c _ =>
    if c = code then
      attempts ++ [⟨userId, !s.members.has userId && s'.members.has userId,
        hasCode code s && !hasCode code s'⟩]
    else attempts
  | _ => attempts

/-- The attempts after a step. -/
def record (attempts : List Attempt) (s : ChatState) (e : Service.Event Request)
    (s' : ChatState) : List Attempt :=
  match e with
  | .receive _ => attempts
  | .serve i => (s.waiting i).elim attempts (recordStatement code attempts s.store s'.store)

/-- The chat has the code, which is for one join, and is no slug. -/
def IsInitial (s : Store) : Prop :=
  ∃ chat, s.chat = some chat ∧ chat.inviteCode = some code ∧ chat.inviteSlug ≠ some code ∧
    chat.inviteOneTime = true

/-- The service of the chat, with the joins with the code. -/
def machine : Machine (ChatState × List Attempt) (Service.Event Request) :=
  ((chat type).machine (IsInitial code)).withHistory [] (record code)

/-- The code is cleared if and only if one user was admitted through it, and nobody cleared it
    who was not. -/
structure OneTime (s : ChatState × List Attempt) : Prop where
  cleared_iff : ∀ chat ∈ s.1.store.chat,
    chat.inviteCode = none ↔ admissions s.2 = 1
  admitted : admissions s.2 ≤ 1
  cleared : ∀ t ∈ s.2, t.cleared → t.admitted

/-- Another code is not set. -/
def keepsInvite : Request → Bool
  | .setInvite _ _ _ => false
  | _ => true

/-- Who clears the code is not a member yet. -/
def admits (s : Store) : Statement → Bool
  | .join userId c consume =>
    !(consume && hasCode c s && !decide (userId ∈ s.deleted) && s.members.has userId)
  | _ => true

/-- The runs in which no other code is set. -/
abbrev Plain (s : ChatState × List Attempt) : Service.Event Request → Prop :=
  Service.Orderly (fun _ a => keepsInvite a) (fun _ _ => True) s.1

/-- The runs in which moreover nobody clears the code who is a member. -/
abbrev Admits (s : ChatState × List Attempt) : Service.Event Request → Prop :=
  Service.Orderly (fun _ a => keepsInvite a) (fun s q => admits s q) s.1

/-! ## The statements -/

/-- What the other statements keep of the chat. -/
def SameInvite (chat chat' : Chat) : Prop :=
  chat'.inviteCode = chat.inviteCode ∧ chat'.inviteSlug = chat.inviteSlug ∧
    chat'.inviteOneTime = chat.inviteOneTime

/-- The chat is as before, but for its key epoch, or it was deleted. -/
def Keeps (s s' : Store) : Prop := ∀ chat' ∈ s'.chat, ∃ chat ∈ s.chat, SameInvite chat chat'

variable {type code} {s s' : Store}

theorem Keeps.of_eq (h : s'.chat = s.chat) : Keeps s s' := by
  intro chat hchat
  exact ⟨chat, h ▸ hchat, rfl, rfl, rfl⟩

theorem Keeps.of_none (h : s'.chat = none) : Keeps s s' := by
  intro chat hchat
  rw [h] at hchat
  cases hchat

theorem Keeps.bumpKeyEpoch (h : s'.chat = s.chat) : Keeps s (s'.bumpKeyEpoch type) := by
  rw [Store.bumpKeyEpoch]
  split_ifs
  · intro chat hchat
    obtain ⟨old, hold, rfl⟩ := Option.map_eq_some_iff.1 hchat
    exact ⟨old, h ▸ hold, rfl, rfl, rfl⟩
  · exact .of_eq h

theorem Keeps.sweep (h : s'.chat = s.chat) : Keeps s s'.sweep := by
  rw [Store.sweep]
  split_ifs
  · exact .of_none rfl
  · exact .of_eq h

theorem chat_update (s : Store) (userId : String) (f : Member → Member) :
    (s.update userId f).chat = s.chat := by
  rw [Store.update]
  split <;> rfl

/-- The statements that leave the invite of the chat alone. -/
def leavesInvite : Statement → Bool
  | .join _ _ _ | .setInvite _ _ _ => false
  | _ => true

theorem keeps_answer (s : Store) {q : Statement} (hq : leavesInvite q = true) :
    Keeps s (s.answer type q).2 := by
  cases q with
  | join u c b => cases hq
  | setInvite c sl o => cases hq
  | leaveAsOwner userId =>
    rw [Store.answer, Store.leaveAsOwner]
    split
    · exact .of_eq rfl
    · exact .bumpKeyEpoch (chat_update _ _ _)
  | leave userId =>
    rw [Store.answer, Store.leave]
    split_ifs
    · exact .sweep rfl
    · exact .bumpKeyEpoch rfl
    · exact .of_eq rfl
  | transfer userId targetUserId =>
    exact .of_eq ((chat_update _ _ _).trans (chat_update _ _ _))
  | updateRole userId role => exact .of_eq (chat_update _ _ _)
  | updateChannelRole userId channelRole => exact .of_eq (chat_update _ _ _)
  | kick userId => exact .bumpKeyEpoch rfl
  | deleteChat => exact .of_none rfl
  | purgeUser userId inChat =>
    cases inChat with
    | true => exact .sweep rfl
    | false => exact .of_eq rfl
  | selectInvite _ | getChatById | getMemberRole _ | deleteUser _ | elapse _ => exact .of_eq rfl

variable (type) in
theorem insertMember_chat (s : Store) (userId : String) :
    (s.insertMember type userId).2.members.has userId = true ∧
      Keeps s (s.insertMember type userId).2 ∧
      (s.chat.isSome → (s.insertMember type userId).2.chat.isSome) := by
  rw [insertMember]
  split_ifs with hhas
  · exact ⟨hhas, .of_eq rfl, id⟩
  · refine ⟨?_, .bumpKeyEpoch rfl, fun h => ?_⟩
    · rw [bumpKeyEpoch]
      split_ifs <;> exact (InsMap.has_set ..).trans (by rw [decide_eq_true rfl, Bool.true_or])
    · rw [bumpKeyEpoch]
      split_ifs
      · exact Option.isSome_map.trans h
      · exact h

/-- A join that does not find the code it would consume, or consumes none. -/
theorem join_keeps {userId c : String} {consume : Bool}
    (h : consume = true → ∀ chat ∈ s.chat, chat.inviteCode ≠ some c) :
    Keeps s (s.join type userId c consume).2 := by
  rw [Store.join]
  split
  next => exact .of_eq rfl
  next chat hchat =>
    split_ifs with hcode hdeleted hconsume
    · exact .of_eq rfl
    · exact .of_eq rfl
    · exact absurd ⟨hconsume, h hconsume chat hchat⟩ hcode
    · intro chat' hchat'
      obtain ⟨old, hold, hsame⟩ := (insertMember_chat _ _ _).2.1 chat' hchat'
      exact ⟨old, hchat.trans hold, hsame⟩

/-- A join that consumes a code which is not there, or is of a deleted user. -/
theorem join_self {userId c : String}
    (h : ∀ chat ∈ s.chat, chat.inviteCode = some c → userId ∈ s.deleted) :
    (s.join type userId c true).2 = s := by
  rw [Store.join]
  split
  next => rfl
  next chat hchat =>
    by_cases hcode : chat.inviteCode = some c
    · rw [if_neg (fun hnot => hnot.2 hcode), if_pos (h chat hchat hcode)]
    · rw [if_pos ⟨rfl, hcode⟩]

variable (type) in
/-- A join that clears its code. -/
theorem join_clears {userId c : String} {chat : Chat} (hchat : s.chat = some chat)
    (hcode : chat.inviteCode = some c) (hdeleted : userId ∉ s.deleted) :
    ∃ chat', (s.join type userId c true).2.chat = some chat' ∧
      SameInvite { chat with inviteCode := none } chat' ∧
      (s.join type userId c true).2.members.has userId = true := by
  have hjoin : (s.join type userId c true).2 = (Store.insertMember type
      { s with chat := some { chat with inviteCode := none } } userId).2 := by
    rw [Store.join, hchat]
    dsimp only
    rw [if_neg (fun hnot => hnot.2 hcode), if_neg hdeleted, if_pos rfl]
  obtain ⟨hhas, hkeeps, hsome⟩ := insertMember_chat type
    { s with chat := some { chat with inviteCode := none } } userId
  obtain ⟨chat', hchat'⟩ := Option.isSome_iff_exists.1 (hsome rfl)
  obtain ⟨old, hold, hsame⟩ := hkeeps chat' hchat'
  cases hold
  rw [hjoin]
  exact ⟨chat', hchat', hsame, hhas⟩

/-! ## The programs -/

/-- What the requests ask, and what they are told of the chat: that its code is for one join,
    and `code` no slug. A join with the code is to consume it. -/
def reads (code : String) : Program.Contract Unit Statement Statement.Result Unit where
  allowed _ q _ :=
    leavesInvite q = true ∨ ∃ u c consume, q = .join u c consume ∧ (c = code → consume = true)
  answered _ q _ r :=
    match q, r with
    | .selectInvite c, r => ∀ chat ∈ r, chat.inviteOneTime = true ∧
        chat.inviteSlug ≠ some code ∧ (chat.inviteCode = some c ∨ chat.inviteSlug = some c)
    | _, _ => True

/-- The route goes on as the contract says. -/
def Heeds (code : String) (p : Route) : Prop := p.Meets (reads code) (fun _ _ => True) ()

theorem heeds_done (b : Reply) : Heeds code (.done b) := trivial

theorem heeds_ask {q : Statement} {next : q.Result → Route} (hq : leavesInvite q = true)
    (hnext : ∀ r, Heeds code (next r)) : Heeds code (.ask q next) :=
  ⟨(), .inl hq, fun _ _ r _ => hnext r⟩

theorem heeds_join (userId c : String) : Heeds code (join userId c) := by
  refine ⟨(), .inl rfl, fun _ _ row hrow => ?_⟩
  cases row with
  | none => exact heeds_done _
  | some chat =>
    obtain ⟨hone, hslug, hmatch⟩ := hrow chat rfl
    refine heeds_ask rfl fun role => ?_
    change Heeds code (if role.isSome then _ else _)
    split
    next => exact heeds_done _
    next =>
      refine ⟨(), .inr ⟨_, _, _, rfl, fun hc => ?_⟩, fun _ _ outcome _ => ?_⟩
      · have hcode : chat.inviteCode = some c := hmatch.resolve_right (hc ▸ hslug)
        rw [hone, decide_eq_true hcode, Bool.and_self]
      · cases outcome <;> exact heeds_done _

theorem heeds_ite {c : Prop} [Decidable c] {p p' : Route} (h : Heeds code p)
    (h' : Heeds code p') : Heeds code (if c then p else p') := by
  split
  · exact h
  · exact h'

theorem heeds_plainLeave (userId : String) : Heeds code (plainLeave userId) := by
  refine heeds_ask rfl fun r => heeds_done _

theorem heeds_leave (userId : String) : Heeds code (leave userId) := by
  refine heeds_ask rfl fun r => ?_
  refine heeds_ite (heeds_done _) (heeds_ask rfl fun role => ?_)
  cases role with
  | none => exact heeds_done _
  | some role =>
    refine heeds_ite (heeds_ask rfl fun r => ?_)
      (heeds_plainLeave userId)
    exact heeds_ite (heeds_done _) (heeds_plainLeave userId)

/-- Two roles are read, and the rest does without joins. -/
theorem heeds_roles {userId targetUserId : String}
    {next : Option ChatMemberRole → Option ChatMemberRole → Route}
    (hnext : ∀ r r', Heeds code (next r r')) :
    Heeds code (do
      let actorRole ← statement (.getMemberRole userId)
      let targetRole ← statement (.getMemberRole targetUserId)
      next actorRole targetRole) :=
  heeds_ask rfl fun _ =>
    heeds_ask rfl fun _ => hnext _ _

/-- One statement, and then a reply. -/
theorem heeds_last {q : Statement} (hq : leavesInvite q = true) (b : Reply) :
    Heeds code (do let _ ← statement q; return b) :=
  heeds_ask hq fun _ => heeds_done _

theorem heeds_patchRole (userId targetUserId : String) (newRole : ChatMemberRole) :
    Heeds code (patchRole userId targetUserId newRole) := by
  refine heeds_ask rfl fun r => heeds_ite (heeds_done _) ?_
  refine heeds_roles fun actorRole targetRole => ?_
  cases actorRole with
  | none => exact heeds_done _
  | some actorRole =>
    cases targetRole with
    | none => exact heeds_done _
    | some targetRole =>
      refine heeds_ite (heeds_done _) (heeds_ite (heeds_done _) (heeds_ite ?_ ?_))
      · exact heeds_ite (heeds_done _) (heeds_last rfl _)
      · exact heeds_ite (heeds_done _) (heeds_ite (heeds_done _)
          (heeds_last rfl _))

theorem heeds_patchChannelRole (userId targetUserId : String) (channel_role : ChannelRole) :
    Heeds code (patchChannelRole type userId targetUserId channel_role) := by
  refine heeds_ite (heeds_done _) (heeds_ask rfl fun r =>
    heeds_ite (heeds_done _) (heeds_roles fun actorRole targetRole => ?_))
  cases actorRole with
  | none => exact heeds_done _
  | some actorRole =>
    cases targetRole with
    | none => exact heeds_done _
    | some targetRole =>
      exact heeds_ite (heeds_done _) (heeds_ite (heeds_done _)
        (heeds_last rfl _))

theorem heeds_kick (userId targetUserId : String) : Heeds code (kick userId targetUserId) := by
  refine heeds_ask rfl fun r => heeds_ite (heeds_done _)
    (heeds_ite (heeds_done _) (heeds_roles fun actorRole targetRole => ?_))
  cases actorRole with
  | none => exact heeds_done _
  | some actorRole =>
    cases targetRole with
    | none => exact heeds_done _
    | some targetRole =>
      exact heeds_ite (heeds_done _) (heeds_last rfl _)

theorem heeds_deleteChat (userId : String) : Heeds code (deleteChat userId) := by
  refine heeds_ask rfl fun r => heeds_ite (heeds_done _)
    (heeds_ask rfl fun r => heeds_ite (heeds_done _)
      (heeds_ask rfl fun r => heeds_ite (heeds_done _) ?_))
  exact heeds_last rfl _

theorem heeds_handle {a : Request} (ha : keepsInvite a = true) : Heeds code (handle type a) := by
  cases a with
  | join userId c => exact heeds_join userId c
  | leave userId => exact heeds_leave userId
  | patchRole userId targetUserId role => exact heeds_patchRole userId targetUserId role
  | patchChannelRole userId targetUserId channel_role =>
    exact heeds_patchChannelRole userId targetUserId channel_role
  | kick userId targetUserId => exact heeds_kick userId targetUserId
  | deleteChat userId => exact heeds_deleteChat userId
  | deleteAccount userId => exact heeds_last rfl _
  | adminPurgeUser targetUserId =>
    exact heeds_ask rfl fun _ =>
      heeds_last rfl _
  | setInvite c slug oneTime => cases ha
  | elapse ms => exact heeds_last rfl _

/-! ## The invariant -/

/-- What is known of the chat, when `n` users were admitted through the code. -/
def Fits (code : String) (n : ℕ) (chat : Chat) : Prop :=
  chat.inviteOneTime = true ∧ chat.inviteSlug ≠ some code ∧
    (chat.inviteCode = some code ∧ n = 0 ∨ chat.inviteCode = none ∧ n = 1)

structure Inv (code : String) (s : ChatState × List Attempt) : Prop where
  chat : ∀ chat ∈ s.1.store.chat, Fits code (admissions s.2) chat
  admitted : admissions s.2 ≤ 1
  cleared : ∀ t ∈ s.2, t.cleared → t.admitted
  tasks : ∀ i a p, s.1.tasks.get? i = some (a, p) → Heeds code p

theorem Fits.keeps {n : ℕ} (h : ∀ chat ∈ s.chat, Fits code n chat) (hkeeps : Keeps s s') :
    ∀ chat ∈ s'.chat, Fits code n chat := by
  intro chat' hchat'
  obtain ⟨chat, hchat, hcode, hslug, hone⟩ := hkeeps chat' hchat'
  obtain ⟨hone', hslug', hcode'⟩ := h chat hchat
  rw [Fits, hone, hslug, hcode]
  exact ⟨hone', hslug', hcode'⟩

theorem Inv.oneTime {s : ChatState × List Attempt} (h : Inv code s) : OneTime s where
  cleared_iff chat hchat := by
    rcases (h.chat chat hchat).2.2 with ⟨hcode, hn⟩ | ⟨hcode, hn⟩
    · rw [hcode, hn]
      exact iff_of_false (Option.some_ne_none _) Nat.zero_ne_one
    · exact iff_of_true hcode hn
  admitted := h.admitted
  cleared := h.cleared

theorem inv_of_initial {store : Store} (h : IsInitial code store) :
    Inv code (.start store, []) where
  chat chat hchat := by
    obtain ⟨chat', hchat', hcode, hslug, hone⟩ := h
    obtain rfl : chat' = chat := Option.some.inj (hchat'.symm.trans hchat)
    exact ⟨hone, hslug, .inl ⟨hcode, rfl⟩⟩
  admitted := Nat.zero_le 1
  cleared t ht := absurd ht List.not_mem_nil
  tasks i a p hget := by
    rw [Service.State.start, InsMap.get?_empty] at hget
    cases hget

/-- What a statement is answered is what the contract says. -/
theorem answered_answer {n : ℕ} (h : ∀ chat ∈ s.chat, Fits code n chat) (q : Statement) :
    (reads code).answered () q () (s.answer type q).1 := by
  cases q with
  | selectInvite c =>
    intro chat hchat
    rw [Store.answer, Option.mem_filter_iff] at hchat
    obtain ⟨hone, hslug, _⟩ := h chat hchat.1
    exact ⟨hone, hslug, of_decide_eq_true hchat.2⟩
  | _ => trivial

variable (type) in
/-- What a join with the code does, when it consumes it: nothing, or it clears the code. -/
theorem join_code_cases {n : ℕ} (h : ∀ chat ∈ s.chat, Fits code n chat) (userId : String) :
    ((s.join type userId code true).2 = s ∧
      (hasCode code s && !decide (userId ∈ s.deleted)) = false) ∨
    (n = 0 ∧ (hasCode code s && !decide (userId ∈ s.deleted)) = true ∧
      hasCode code (s.join type userId code true).2 = false ∧
      (s.join type userId code true).2.members.has userId = true ∧
      ∀ chat ∈ (s.join type userId code true).2.chat, Fits code 1 chat) := by
  by_cases hhit : (hasCode code s && !decide (userId ∈ s.deleted)) = true
  · obtain ⟨hcode, hdeleted⟩ := Bool.and_eq_true_iff.1 hhit
    obtain ⟨chat, hchat, hcode⟩ := (Option.any_eq_true _ _).1 hcode
    obtain ⟨hone, hslug, hfits⟩ := h chat hchat
    have hn : n = 0 := by
      rcases hfits with ⟨_, hn⟩ | ⟨hnone, _⟩
      · exact hn
      · rw [hnone] at hcode
        exact absurd (of_decide_eq_true hcode) (Option.some_ne_none _).symm
    obtain ⟨chat', hchat', ⟨hcode', hslug', hone'⟩, hhas⟩ := join_clears type hchat
      (of_decide_eq_true hcode) (by simpa using hdeleted)
    refine .inr ⟨hn, hhit, ?_, hhas, fun c hc => ?_⟩
    · rw [hasCode, hchat', Option.any_some, hcode']
      rfl
    · obtain rfl : chat' = c := Option.some.inj (hchat'.symm.trans hc)
      exact ⟨hone'.trans hone, hslug' ▸ hslug, .inr ⟨hcode', rfl⟩⟩
  · refine .inl ⟨join_self fun chat hchat hcode => ?_, Bool.eq_false_of_not_eq_true hhit⟩
    by_contra hdeleted
    refine hhit (Bool.and_eq_true_iff.2 ⟨(Option.any_eq_true _ _).2 ⟨chat, hchat, ?_⟩, ?_⟩)
    · exact decide_eq_true hcode
    · rw [decide_eq_false hdeleted]
      rfl

/-- A join with another code, or a slug. -/
theorem join_other_keeps {n : ℕ} (h : ∀ chat ∈ s.chat, Fits code n chat) {userId c : String}
    (hc : c ≠ code) (consume : Bool) : Keeps s (s.join type userId c consume).2 := by
  refine join_keeps fun _ chat hchat hcode => ?_
  rcases (h chat hchat).2.2 with ⟨hcode', _⟩ | ⟨hnone, _⟩
  · exact hc (Option.some.inj (hcode.symm.trans hcode'))
  · rw [hnone] at hcode
    cases hcode

theorem waiting_eq {s : ChatState} {i : ℕ} {a : Request} {q : Statement}
    {next : q.Result → Route} (hget : s.tasks.get? i = some (a, .ask q next)) :
    s.waiting i = some q := by rw [Service.State.waiting, hget]

/-- What is recorded of a statement that is served. -/
theorem record_serve {s : ChatState} {i : ℕ} {a : Request} {q : Statement}
    {next : q.Result → Route} (hget : s.tasks.get? i = some (a, .ask q next))
    (attempts : List Attempt) (s' : ChatState) : record code attempts s (.serve i) s' =
      recordStatement code attempts s.store s'.store q := by
  rw [record, waiting_eq hget, Option.elim_some]

variable (code) in
theorem mem_recordStatement (attempts : List Attempt) (s s' : Store) (userId : String)
    (consume : Bool) : ⟨userId, !s.members.has userId && s'.members.has userId,
      hasCode code s && !hasCode code s'⟩ ∈
        recordStatement code attempts s s' (.join userId code consume) := by
  rw [recordStatement, if_pos rfl]
  exact List.mem_append_right _ (List.mem_singleton.2 rfl)

variable (type) in
/-- The joins with the code keep the invariant, if nobody who clears it is a member. -/
theorem inv_join {s s' : ChatState} {attempts : List Attempt} {userId : String}
    (h : Inv code (s, attempts))
    (hadmits : (hasCode code s.store && !decide (userId ∈ s.store.deleted)) = true →
      s.store.members.has userId = false)
    (hstore : s'.store = (s.store.join type userId code true).2)
    (htasks : ∀ i a p, s'.tasks.get? i = some (a, p) → Heeds code p) :
    Inv code (s', attempts ++ [⟨userId, !s.store.members.has userId && s'.store.members.has userId,
      hasCode code s.store && !hasCode code s'.store⟩]) := by
  rcases join_code_cases type h.chat userId with ⟨hself, _⟩ | ⟨hn, hhit, hno, hhas, hchat⟩
  · -- Nothing happens, and that is recorded.
    rw [hself] at hstore
    have hattempt : (⟨userId, !s.store.members.has userId && s'.store.members.has userId,
        hasCode code s.store && !hasCode code s'.store⟩ : Attempt) = ⟨userId, false, false⟩ := by
      rw [hstore, Bool.not_and_self, Bool.and_not_self]
    have hcount : admissions (attempts ++ [⟨userId, false, false⟩]) = admissions attempts :=
      List.countP_append
    rw [hattempt]
    refine ⟨fun chat hchat => ?_, hcount ▸ h.admitted, fun t ht hcleared => ?_, htasks⟩
    · rw [hcount]
      exact h.chat chat (hstore ▸ hchat)
    · rcases List.mem_append.1 ht with ht | ht
      · exact h.cleared t ht hcleared
      · rw [List.mem_singleton.1 ht] at hcleared
        cases hcleared
  · have hattempt : (⟨userId, !s.store.members.has userId && s'.store.members.has userId,
        hasCode code s.store && !hasCode code s'.store⟩ : Attempt) = ⟨userId, true, true⟩ := by
      rw [hstore, hadmits hhit, hhas, hno, (Bool.and_eq_true_iff.1 hhit).1]
      rfl
    have hcount : admissions (attempts ++ [⟨userId, true, true⟩]) = 1 := by
      rw [admissions, List.countP_append, ← admissions, hn]
      rfl
    rw [hattempt]
    refine ⟨fun chat hchat' => ?_, Nat.le_of_eq hcount, fun t ht hcleared => ?_, htasks⟩
    · rw [hcount]
      exact hchat chat (hstore ▸ hchat')
    · rcases List.mem_append.1 ht with ht | ht
      · exact h.cleared t ht hcleared
      · rw [List.mem_singleton.1 ht]

/-- What keeps the chat and is not recorded keeps the invariant. -/
theorem Inv.keeps {s s' : ChatState} {attempts : List Attempt} (h : Inv code (s, attempts))
    (hkeeps : Keeps s.store s'.store)
    (htasks : ∀ i a p, s'.tasks.get? i = some (a, p) → Heeds code p) : Inv code (s', attempts) :=
  ⟨Fits.keeps h.chat hkeeps, h.admitted, h.cleared, htasks⟩

theorem inv_step {s s' : ChatState × List Attempt} {e : Service.Event Request} (h : Inv code s)
    (hstep : (machine type code).step s e = some s') (hok : Admits s e) : Inv code s' := by
  obtain ⟨s, attempts⟩ := s
  obtain ⟨s', attempts'⟩ := s'
  obtain ⟨hserved, hrecord⟩ := Machine.withHistory_step.1 hstep
  dsimp only at hserved hrecord
  subst hrecord
  rcases Service.step_cases hserved with ⟨a, rfl, rfl⟩ | ⟨i, a, q, next, rfl, hget, rfl⟩
  · refine h.keeps (.of_eq (by rw [Service.goOn_store])) fun j b p hj => ?_
    rcases Service.goOn_get? hj with ⟨-, rfl, rfl⟩ | hj
    · exact heeds_handle hok
    · exact h.tasks j b p hj
  · obtain ⟨_, hallowed, hnext⟩ := h.tasks i a _ hget
    have htasks : ∀ j b p, ({ s with store := ((chat type).answer s.store q).2 }.goOn i a
        (next ((chat type).answer s.store q).1)).tasks.get? j = some (b, p) → Heeds code p := by
      intro j b p hj
      rcases Service.goOn_get? hj with ⟨-, rfl, rfl⟩ | hj
      · exact hnext () (le_refl _) _ (answered_answer h.chat q)
      · exact h.tasks j b p hj
    rw [record_serve hget]
    rcases hallowed with hq | ⟨userId, c, consume, rfl, hconsume⟩
    · have hsame : Inv code (_, attempts) :=
        h.keeps (by rw [Service.goOn_store]; exact keeps_answer s.store hq) htasks
      cases q with
      | join u c b => cases hq
      | _ => exact hsame
    · by_cases hc : c = code
      · obtain rfl := hconsume hc
        subst hc
        rw [recordStatement, if_pos rfl]
        refine inv_join type h (fun hhit => ?_) (by rw [Service.goOn_store]; rfl) htasks
        have hadmits : admits s.store (.join userId c true) = true :=
          hok _ (by rw [waiting_eq hget]; rfl)
        rw [admits, Bool.true_and, hhit, Bool.true_and] at hadmits
        simpa using hadmits
      · rw [recordStatement, if_neg hc]
        exact h.keeps (by rw [Service.goOn_store]; exact join_other_keeps h.chat hc consume) htasks

/-- A transaction that clears the code for a member. -/
theorem not_oneTime {s s' : ChatState × List Attempt} {e : Service.Event Request}
    (h : Inv code s) (hstep : (machine type code).step s e = some s') (hplain : Plain s e)
    (hnot : ¬Admits s e) : ¬OneTime s' := by
  obtain ⟨s, attempts⟩ := s
  obtain ⟨s', attempts'⟩ := s'
  obtain ⟨hserved, hrecord⟩ := Machine.withHistory_step.1 hstep
  dsimp only at hserved hrecord
  subst hrecord
  intro hone
  rcases Service.step_cases hserved with ⟨a, rfl, rfl⟩ | ⟨i, a, q, next, rfl, hget, rfl⟩
  · exact hnot hplain
  · refine hnot fun q' hq' => ?_
    rw [waiting_eq hget, Option.mem_some_iff] at hq'
    obtain rfl := hq'
    cases q with
    | join userId c consume =>
      by_contra hclears
      rw [admits, Bool.not_eq_true, Bool.not_eq_false', Bool.and_eq_true_iff, Bool.and_assoc,
        Bool.and_eq_true_iff] at hclears
      obtain ⟨⟨rfl, hhit⟩, hhas⟩ := hclears
      -- The code that is cleared is the code.
      have hc : c = code := by
        obtain ⟨chat, hchat, hcode⟩ := (Option.any_eq_true _ _).1 (Bool.and_eq_true_iff.1 hhit).1
        rcases (h.chat chat hchat).2.2 with ⟨hcode', _⟩ | ⟨hnone, _⟩
        · exact Option.some.inj ((of_decide_eq_true hcode).symm.trans hcode')
        · rw [hnone] at hcode
          exact absurd (of_decide_eq_true hcode) (Option.some_ne_none _).symm
      subst hc
      rcases join_code_cases type h.chat userId with ⟨_, hmiss⟩ | ⟨_, _, hno, _⟩
      · exact Bool.false_ne_true (hmiss.symm.trans hhit)
      · have hmem := mem_recordStatement c attempts s.store
          ((chat type).answer s.store (.join userId c true)).2 userId true
        have hlast := hone.cleared _ (by
          rw [record_serve hget, Service.goOn_store]
          exact hmem)
        have hcleared : (hasCode c s.store && !hasCode c ((chat type).answer s.store
            (.join userId c true)).2) = true := by
          rw [(Bool.and_eq_true_iff.1 hhit).1, Bool.true_and]
          exact congrArg (!·) hno
        have hadmitted := hlast hcleared
        rw [hhas] at hadmitted
        cases hadmitted
    | _ => rfl

/-- **A one-time code admits one**, in the runs in which nobody who clears it is a member by
    then; the first step that clears it for a member breaks that. -/
theorem oneTime_of_run (type : ChatType) (code : String) :
    (∀ s, ((machine type code).restrict Admits).Reachable s → OneTime s) ∧
    ∀ s e s', ((machine type code).restrict Admits).Reachable s →
      (machine type code).step s e = some s' → Plain s e → ¬Admits s e → ¬OneTime s' := by
  have hinv : ∀ s, ((machine type code).restrict Admits).Reachable s → Inv code s := by
    intro s hs
    refine hs.invariant ?_ fun s e s' _ h hstep => ?_
    · rintro ⟨s, attempts⟩ ⟨⟨store, hstore, rfl⟩, rfl⟩
      exact inv_of_initial hstore
    · obtain ⟨hok, hstep⟩ := Machine.restrict_step.1 hstep
      exact inv_step h hstep hok
  exact ⟨fun s hs => (hinv s hs).oneTime, fun s e s' hs => not_oneTime (hinv s hs)⟩

namespace Sample

/-- A channel with a code for one join and a slug. -/
def store : Store where
  chat := some ⟨some "code", some "slug", true, 0⟩
  members := (∅ : InsMap String Member).set "owner" ⟨.owner, some .owner, 0⟩
  deleted := []
  now := 0

/-- A user follows both links at once. -/
def bothLinks : List (Service.Event Request) :=
  [.receive (.join "ann" "code"), .serve 0, .serve 0] ++ Service.whole 1 (.join "ann" "slug") 3 ++
    [.serve 0]

/-- Two users follow the link with the code. -/
def twoUsers : List (Service.Event Request) :=
  [.receive (.join "ann" "code"), .receive (.join "bob" "code"), .serve 0, .serve 1, .serve 0,
    .serve 1, .serve 1, .serve 0]

theorem isInitial_store : IsInitial "code" store := ⟨_, rfl, rfl, by decide, rfl⟩

end Sample

/-- The code is cleared, and nobody was admitted through it. -/
theorem cleared_for_nobody : ∃ s, (machine .channel "code").Reachable s ∧
    s.1.tasks.keys = [] ∧ s.2 = [⟨"ann", false, true⟩] ∧ ¬OneTime s := by
  have hrun : ((machine .channel "code").run (.start Sample.store, []) Sample.bothLinks).map
      (fun s => (s.1.tasks.keys, s.2)) = some ([], [⟨"ann", false, true⟩]) := by decide
  obtain ⟨s, hs, hend⟩ := Option.map_eq_some_iff.1 hrun
  obtain ⟨htasks, hattempts⟩ := Prod.mk.inj hend
  refine ⟨s, Machine.reachable_of_run hs ⟨⟨_, Sample.isInitial_store, rfl⟩, rfl⟩, htasks,
    hattempts, fun h => ?_⟩
  have hmem : ⟨"ann", false, true⟩ ∈ s.2 := by
    rw [hattempts]
    exact List.mem_singleton.2 rfl
  have hadmitted := h.cleared _ hmem
  exact Bool.false_ne_true (hadmitted rfl)

theorem oneTime_of_run_twoUsers : ∃ s, ((machine .channel "code").restrict Admits).run
      (.start Sample.store, []) Sample.twoUsers = some s ∧
    s.2 = [⟨"bob", true, true⟩, ⟨"ann", false, false⟩] ∧ OneTime s := by
  have hrun : (((machine .channel "code").restrict Admits).run (.start Sample.store, [])
      Sample.twoUsers).map Prod.snd = some [⟨"bob", true, true⟩, ⟨"ann", false, false⟩] := by
    decide
  obtain ⟨s, hs, hattempts⟩ := Option.map_eq_some_iff.1 hrun
  exact ⟨s, hs, hattempts, (oneTime_of_run .channel "code").1 s
    (Machine.reachable_of_run hs ⟨⟨_, Sample.isInitial_store, rfl⟩, rfl⟩)⟩

end OneToThree.Chats.OneTimeCode
