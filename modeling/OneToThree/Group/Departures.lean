import OneToThree.Group.Accounts

/-!
# The epoch of a departure

A member that leaves or is kicked moves the epoch of the chat, in the same transaction, and
so does one that joins. The deletion of a user, who ends their account or is purged, takes
the row of the member along and leaves the epoch where it was (`not_moves`): those who stay
go on with a key that the departed member has.

* `moves_iff`: a step changes the members of a group that goes on without moving its epoch
  just if it deletes a user who is a member (`spares`).
* `departed_of_run`: along a run without such a step, every key that a member was given is
  behind the epoch once the member has gone.
-/

namespace OneToThree.Group

variable {ecdh : UserId → Option Jwk}

/-! ## Statements -/

/-- A change of the members of a chat that goes on moves its epoch. -/
def Chat.Moves (chat chat' : Chat) : Prop :=
  chat'.deleted = false → (∃ u, chat'.members.has u ≠ chat.members.has u) →
    chat.keyEpoch < chat'.keyEpoch

/-- What becomes of a chat in a step: its epoch does not go back, and it is deleted for good. -/
structure Chat.Advances (chat chat' : Chat) : Prop where
  keyEpoch : chat.keyEpoch ≤ chat'.keyEpoch
  deleted : chat.deleted = true → chat'.deleted = true

namespace Chat

variable {chat chat' : Chat}

theorem Moves.of_has (h : ∀ u, chat'.members.has u = chat.members.has u) : chat.Moves chat' :=
  fun _ ⟨u, hne⟩ => absurd (h u) hne

theorem Moves.of_lt (h : chat.keyEpoch < chat'.keyEpoch) : chat.Moves chat' := fun _ _ => h

theorem has_updateMember (chat : Chat) (userId : UserId) (f : Membership → Membership)
    (u : UserId) : (chat.updateMember userId f).members.has u = chat.members.has u := by
  unfold updateMember
  split
  · rfl
  · rename_i m hm
    rw [InsMap.has_set]
    by_cases h : u = userId
    · rw [h, InsMap.has, hm]
      simp
    · simp [h]

theorem has_deleteMember (chat : Chat) (userId u : UserId) :
    (chat.deleteMember userId).members.has u =
      if u = userId then false else chat.members.has u := by
  rw [deleteMember, InsMap.has_delete]
  by_cases h : u = userId <;> simp [h]

theorem Advances.of_eq (hepoch : chat'.keyEpoch = chat.keyEpoch)
    (hdeleted : chat'.deleted = chat.deleted) : chat.Advances chat' :=
  ⟨Nat.le_of_eq hepoch.symm, fun h => hdeleted.trans h⟩

theorem Advances.refl (chat : Chat) : chat.Advances chat := .of_eq rfl rfl

theorem Advances.trans {chat'' : Chat} (h : chat.Advances chat') (h' : chat'.Advances chat'') :
    chat.Advances chat'' :=
  ⟨Nat.le_trans h.keyEpoch h'.keyEpoch, fun hdeleted => h'.deleted (h.deleted hdeleted)⟩

/-- The epoch is bumped, and the chat is not brought back. -/
theorem advances_bump (h : chat'.keyEpoch = chat.keyEpoch + 1)
    (hdeleted : chat'.deleted = chat.deleted) : chat.Advances chat' ∧ chat.Moves chat' :=
  ⟨⟨h ▸ Nat.le_succ _, fun h => hdeleted.trans h⟩, .of_lt (h ▸ Nat.lt_succ_self _)⟩

theorem advances_updateMember (chat : Chat) (userId : UserId) (f : Membership → Membership) :
    chat.Advances (chat.updateMember userId f) := by
  rw [chat.updateMember_eq]
  exact .of_eq rfl rfl

end Chat

/-- What a statement of the group makes of its chat. -/
theorem Statement.exec_advances (chat : Chat) (q : Statement) :
    chat.Advances (q.exec chat).2 ∧ chat.Moves (q.exec chat).2 := by
  have hsame : chat.Advances chat ∧ chat.Moves chat := ⟨.refl chat, .of_has fun _ => rfl⟩
  cases q with
  | memberRole | chatRow | roster => exact hsame
  | insertMember userId =>
    rw [exec]
    split_ifs
    · exact hsame
    · exact Chat.advances_bump rfl rfl
  | removeMember userId => exact Chat.advances_bump rfl rfl
  | leaveAsOwner userId =>
    rw [exec]
    split
    · exact hsame
    · rename_i promoted _
      rw [chat.updateMember_eq promoted]
      exact Chat.advances_bump rfl rfl
  | leave userId =>
    rw [exec]
    dsimp only
    split_ifs
    · exact hsame
    · exact ⟨⟨Nat.le_refl _, fun _ => rfl⟩, fun hdeleted => by cases hdeleted⟩
    · exact Chat.advances_bump rfl rfl
  | setRole userId role =>
    exact ⟨chat.advances_updateMember userId _, .of_has (chat.has_updateMember userId _)⟩
  | transferOwnership fromUserId toUserId =>
    refine ⟨(chat.advances_updateMember fromUserId _).trans (Chat.advances_updateMember ..),
      .of_has fun u => ?_⟩
    rw [exec, Chat.has_updateMember, Chat.has_updateMember]
  | claimEpoch claim =>
    rw [exec]
    split_ifs
    · exact Chat.advances_bump rfl rfl
    · exact hsame
  | writeKey userId wrap =>
    refine ⟨?_, .of_has (chat.has_updateMember userId _)⟩
    rw [exec, chat.writeKey_eq]
    exact .of_eq rfl rfl

namespace AccountStatement

/-- The statement deletes no user who is a member of a chat that goes on: the last member
    may be purged, with the chat. -/
def spares (chat : Chat) : AccountStatement → Bool
  | .deleteUser userId => !chat.members.has userId
  | .purgeUser userId inChat =>
    !chat.members.has userId || (inChat && (chat.members.delete userId).size = 0)
  | _ => true

variable {chat : Chat}

theorem exec_advances (q : AccountStatement) : chat.Advances (q.exec chat).2 := by
  refine ⟨q.exec_kept.keyEpoch, fun hdeleted => ?_⟩
  cases q with
  | memberRole | chatRow | deleteUser => exact hdeleted
  | purgeUser userId inChat =>
    cases inChat with
    | false => exact hdeleted
    | true =>
      rw [exec, if_pos rfl, Chat.sweep]
      split_ifs
      exacts [rfl, hdeleted]
  | deleteChat => rfl

/-- The deletion of a member does not move the epoch. -/
theorem moves_deleteMember (h : chat.EmptyIfDeleted) (userId : UserId) :
    chat.Moves (chat.deleteMember userId) ↔ chat.members.has userId = false := by
  constructor
  · intro hmoves
    by_contra hhas
    have hhas : chat.members.has userId = true := by simpa using hhas
    have hdeleted : chat.deleted = false := by
      cases hd : chat.deleted with
      | false => rfl
      | true =>
        obtain ⟨m, hm⟩ := InsMap.has_iff.1 hhas
        have hmem := InsMap.get?_eq_some_iff.1 hm
        rw [h hd] at hmem
        cases hmem
    refine Nat.lt_irrefl chat.keyEpoch (hmoves hdeleted ⟨userId, ?_⟩)
    rw [chat.has_deleteMember, if_pos rfl, hhas]
    exact Bool.false_ne_true
  · refine fun hhas => .of_has fun u => ?_
    rw [chat.has_deleteMember]
    split_ifs with hu
    · rw [hu, hhas]
    · rfl

/-- A statement moves the epoch where it has to, just if it spares the members. -/
theorem moves_iff (h : chat.EmptyIfDeleted) (q : AccountStatement) :
    chat.Moves (q.exec chat).2 ↔ q.spares chat := by
  cases q with
  | memberRole | chatRow => exact iff_of_true (.of_has fun _ => rfl) rfl
  | deleteUser userId =>
    rw [exec, moves_deleteMember h, spares, Bool.not_eq_true']
  | purgeUser userId inChat =>
    rw [exec, spares]
    by_cases hsweep : inChat = true ∧ (chat.members.delete userId).size = 0
    · -- The chat goes with its last member.
      have hdeleted : (chat.deleteMember userId).sweep.deleted = true := by
        rw [Chat.sweep, if_pos (show (chat.deleteMember userId).members.size = 0 from hsweep.2)]
      rw [if_pos hsweep.1]
      refine iff_of_true (fun hnot => ?_) (by simp [hsweep])
      rw [hdeleted] at hnot
      cases hnot
    · have hstays : (if inChat = true then (chat.deleteMember userId).sweep
          else chat.deleteMember userId) = chat.deleteMember userId := by
        split_ifs with hin
        · exact if_neg fun hsize => hsweep ⟨hin, hsize⟩
        · rfl
      rw [hstays, moves_deleteMember h]
      have : (inChat && decide ((chat.members.delete userId).size = 0)) = false := by
        simpa using hsweep
      rw [this, Bool.or_false, Bool.not_eq_true']
  | deleteChat => exact iff_of_true (fun hdeleted => by cases hdeleted) rfl

end AccountStatement

/-! ## Runs -/

/-- The step deletes no user who is a member of a group that goes on. -/
def Accounts.spares (s : Accounts) : AccountEvent → Bool
  | .serve i => (s.nextStatement i).all fun q => q.spares s.network.chat
  | _ => true

/-- The machine whose steps all spare the members. -/
abbrev sparing (ecdh : UserId → Option Jwk) : Machine Accounts AccountEvent :=
  (accounts ecdh).restrict fun s ev => s.spares ev

variable {s s' : Accounts} {ev : AccountEvent}

theorem Accounts.advances (hstep : (accounts ecdh).step s ev = some s') :
    s.network.chat.Advances s'.network.chat := by
  rcases accounts_chat hstep with hchat | ⟨i, q, -, -, hchat⟩ | ⟨i, q, -, -, hchat⟩ <;> rw [hchat]
  · exact .refl _
  · exact (q.exec_advances _).1
  · exact q.exec_advances

/-- A step moves the epoch where it has to, just if it spares the members. -/
theorem Accounts.moves_iff (hs : (accounts ecdh).Reachable s)
    (hstep : (accounts ecdh).step s ev = some s') :
    s.network.chat.Moves s'.network.chat ↔ s.spares ev := by
  cases ev with
  | network ev =>
    obtain ⟨-, network, hgroup, rfl⟩ := accounts_network.1 hstep
    refine iff_of_true ?_ rfl
    rcases step_chat hgroup with hchat | ⟨i, q, -, -, hchat⟩ <;> rw [hchat]
    · exact .of_has fun _ => rfl
    · exact (q.exec_advances _).2
  | request r => exact iff_of_true (Option.some.inj hstep ▸ .of_has fun _ => rfl) rfl
  | serve i =>
    obtain ⟨q, hq, hnetwork⟩ := accounts_serve hstep
    rw [hnetwork, Accounts.spares, hq]
    exact AccountStatement.moves_iff (accounts_emptyIfDeleted hs) q

/-- A key that a member was given is not ahead of the epoch, and behind it once the member
    has gone. -/
structure Given (e : ℕ) (u : UserId) (chat : Chat) : Prop where
  le : e ≤ chat.keyEpoch
  lt : chat.deleted = false → chat.members.has u = false → e < chat.keyEpoch

theorem Given.step {e : ℕ} {u : UserId} {chat chat' : Chat} (h : Given e u chat)
    (hadvances : chat.Advances chat') (hmoves : chat.Moves chat') : Given e u chat' := by
  refine ⟨Nat.le_trans h.le hadvances.keyEpoch, fun hdeleted hgone => ?_⟩
  cases hhas : chat.members.has u with
  | true =>
    -- The member goes in this step.
    exact Nat.lt_of_le_of_lt h.le (hmoves hdeleted ⟨u, by rw [hgone, hhas]; exact Bool.false_ne_true⟩)
  | false =>
    have hbefore : chat.deleted = false := by
      by_contra hd
      rw [hadvances.deleted (by simpa using hd)] at hdeleted
      cases hdeleted
    exact Nat.lt_of_lt_of_le (h.lt hbefore hhas) hadvances.keyEpoch

/-- In every step of every run, a change of the members of a chat that goes on moves its
    epoch, just if the step spares the members. And along the runs whose steps all do, the
    epoch is beyond the stamp of every key that a departed member was ever given. -/
theorem departed_of_run (hs : (accounts ecdh).Reachable s) :
    (∀ ev s', (accounts ecdh).step s ev = some s' →
      (s.network.chat.Moves s'.network.chat ↔ s.spares ev)) ∧
    ((sparing ecdh).Reachable s → ∀ es s', (sparing ecdh).run s es = some s' →
      s'.network.chat.deleted = false → ∀ u, s'.network.chat.members.has u = false →
        ∀ wrap ∈ s.network.chat.row u, wrap.stamp < s'.network.chat.keyEpoch) := by
  refine ⟨fun ev s' hstep => Accounts.moves_iff hs hstep,
    fun hsparing es s' hrun hdeleted u hgone wrap hwrap => ?_⟩
  obtain ⟨chatId, w, h⟩ := accounts_exists_inv hs
  have hgiven : Given wrap.stamp u s.network.chat := by
    refine ⟨Nat.le_trans (h.chat.stamp_le (h.chat.row u wrap hwrap).1) h.chat.lastClaim,
      fun _ hnone => ?_⟩
    -- Who has a row is a member.
    rw [Chat.row, InsMap.has_eq_false.1 hnone] at hwrap
    cases hwrap
  have hstep : ∀ s ev s', (sparing ecdh).Reachable s → Given wrap.stamp u s.network.chat →
      (sparing ecdh).step s ev = some s' → Given wrap.stamp u s'.network.chat := by
    intro s ev s' hs hgiven hstep
    obtain ⟨hspares, hstep⟩ := Machine.restrict_step.1 hstep
    exact hgiven.step (Accounts.advances hstep)
      ((Accounts.moves_iff hs.of_restrict hstep).2 hspares)
  exact (hsparing.run_keeps hstep hgiven hrun).lt hdeleted hgone

/-! ### A leave and a deletion -/

/-- The group that the user 1 has created with the user 3, and nobody else at work. -/
def createdAccounts : Accounts := ⟨created, [], []⟩

theorem createdAccounts_init : (sparing jwks).init createdAccounts :=
  ⟨⟨7, 1, 11, [1, 3], by decide, by decide, rfl, fun _ _ => rfl, rfl⟩, rfl, rfl⟩

/-- The user 3 leaves, and then ends their account. -/
def leaveEvents : List AccountEvent :=
  [.network (.request 3 .leaveChat), .network (.serve 0), .network (.serve 0), .network (.serve 0),
    .request (.deleteAccount 3), .serve 0]

/-- The key that the user 3 was given at the creation is behind the epoch when they have
    left. -/
theorem departed_leave : ∃ s', (sparing jwks).run createdAccounts leaveEvents = some s' ∧
    s'.network.chat.members.has 3 = false ∧
      ∀ wrap ∈ createdAccounts.network.chat.row 3, wrap.stamp < s'.network.chat.keyEpoch := by
  have h : ((sparing jwks).run createdAccounts leaveEvents).map (fun s' =>
      decide (s'.network.chat.deleted = false ∧ s'.network.chat.members.has 3 = false)) =
        some true := by
    decide +kernel
  obtain ⟨s', hs', hgone⟩ := Option.map_eq_some_iff.1 h
  obtain ⟨hdeleted, hgone⟩ := of_decide_eq_true hgone
  have hs := Machine.Reachable.init createdAccounts_init
  exact ⟨s', hs', hgone, (departed_of_run hs.of_restrict).2 hs leaveEvents s' hs' hdeleted 3 hgone⟩

/-- The user 3 ends their account while they are a member: the group goes on in the epoch of
    the key that they were given. -/
theorem not_moves : ∃ s s' wrap, (accounts jwks).Reachable s ∧
    (accounts jwks).step s (.serve 0) = some s' ∧ wrap ∈ s.network.chat.row 3 ∧
    s.network.chat.members.has 3 = true ∧ s'.network.chat.members.has 3 = false ∧
    s'.network.chat.deleted = false ∧ s'.network.chat.members.has 1 = true ∧
    s'.network.chat.keyEpoch = s.network.chat.keyEpoch ∧
    wrap.stamp = s'.network.chat.keyEpoch := by
  have h : (((accounts jwks).run createdAccounts [.request (.deleteAccount 3)]).bind fun s =>
      (s.network.chat.row 3).bind fun wrap => ((accounts jwks).step s (.serve 0)).map fun s' =>
        decide (s.network.chat.members.has 3 = true ∧ s'.network.chat.members.has 3 = false ∧
          s'.network.chat.deleted = false ∧ s'.network.chat.members.has 1 = true ∧
          s'.network.chat.keyEpoch = s.network.chat.keyEpoch ∧
          wrap.stamp = s'.network.chat.keyEpoch)) = some true := by
    decide +kernel
  obtain ⟨s, hs, h⟩ := Option.bind_eq_some_iff.1 h
  obtain ⟨wrap, hwrap, h⟩ := Option.bind_eq_some_iff.1 h
  obtain ⟨s', hs', h⟩ := Option.map_eq_some_iff.1 h
  exact ⟨s, s', wrap, Machine.reachable_of_run hs createdAccounts_init, hs', hwrap,
    of_decide_eq_true h⟩

end OneToThree.Group
