import OneToThree.Chats.Members

/-!
# The owner of a chat

A chat starts with one owner, who may leave the chat to another member or hand it over.
Neither is decided where it is written: a transfer makes its target the owner, and an
admin of who asked for it, whoever the owner is by then; and a user who deletes their
account, or is purged, is not followed by anybody.

`oneOwner_of_run`: along a run in which each statement finds the owner where its route
takes it to be (`KeepsOwner`), a chat with members has one owner, who is the one whose
role in a channel is that of the owner.
-/

namespace OneToThree.Chats

variable (type : ChatType)

/-- A chat with members has one owner. -/
def OneOwner (s : Store) : Prop := s.members.keys = [] ∨ ∃! u, s.role u = some .owner

/-- In a channel, the owner has the role of the owner in the channel, and nobody else. -/
def ChannelOwner (s : Store) : Prop := type = .channel → ∀ u m, s.members.get? u = some m →
  (m.channelRole = some .owner ↔ m.role = .owner)

/-- The chat has just been created: it has one owner, also in a channel. -/
def Store.IsInitial (s : Store) : Prop := (∃! u, s.role u = some .owner) ∧ ChannelOwner type s

/-- The member is not the owner, or is the last one. -/
def MayGo (s : Store) (userId : String) : Prop :=
  s.role userId ≠ some .owner ∨ (s.removeMember userId).members.keys = []

instance (s : Store) (userId : String) : Decidable (MayGo s userId) :=
  inferInstanceAs (Decidable (_ ∨ _))

/-- The statements that keep the owner, or hand the chat over to another one: a chat that
    has lost its members is not joined; who leaves as the owner is the owner, or is
    followed by the owner; nobody else than the last member goes as the owner; a transfer
    is from the owner or to the owner, and to a member; and the role of the owner is not
    set. -/
def KeepsOwner (s : Store) : Statement → Prop
  | .join _ _ _ => s.chat.isSome → s.members.keys ≠ []
  | .leaveAsOwner userId =>
    s.role userId = some .owner ∨ ∀ v ∈ s.nominee userId, s.role v = some .owner
  | .leave userId | .kick userId | .deleteUser userId | .purgeUser userId _ => MayGo s userId
  | .transfer userId targetUserId =>
    if (s.role targetUserId).isSome then
      s.role userId = some .owner ∨ s.role targetUserId = some .owner
    else s.role userId ≠ some .owner
  | .updateRole userId _ | .updateChannelRole userId _ => s.role userId ≠ some .owner
  | _ => True

instance (s : Store) : ∀ q, Decidable (KeepsOwner s q)
  | .join _ _ _ => inferInstanceAs (Decidable (_ → _))
  | .leaveAsOwner userId => inferInstanceAs (Decidable (_ ∨ ∀ v ∈ s.nominee userId, _))
  | .leave _ | .kick _ | .deleteUser _ | .purgeUser _ _ => inferInstanceAs (Decidable (MayGo _ _))
  | .transfer _ _ => inferInstanceAs (Decidable (ite _ _ _))
  | .updateRole _ _ | .updateChannelRole _ _ => inferInstanceAs (Decidable (_ ≠ _))
  | .selectInvite _ | .getChatById | .getMemberRole _ | .deleteChat | .setInvite _ _ _
  | .elapse _ => isTrue trivial

/-! ## The rows -/

namespace Store

variable {type} {s : Store} {u v : String}

theorem get?_update (s : Store) (u v : String) (f : Member → Member) :
    (s.update u f).members.get? v =
      if v = u then (s.members.get? u).map f else s.members.get? v := by
  rw [update]
  split
  · rename_i hnone
    split_ifs with h
    · rw [h, hnone, Option.map_none]
    · rfl
  · rename_i m hm
    rw [hm, Option.map_some]
    exact InsMap.get?_set ..

theorem get?_removeMember (s : Store) (u v : String) :
    (s.removeMember u).members.get? v = if v = u then none else s.members.get? v :=
  InsMap.get?_delete ..

@[simp] theorem members_bumpKeyEpoch (s : Store) : (s.bumpKeyEpoch type).members = s.members := by
  rw [bumpKeyEpoch]
  split_ifs <;> rfl

@[simp] theorem members_sweep (s : Store) : s.sweep.members = s.members := by
  rw [sweep]
  split_ifs <;> rfl

theorem role_congr {s' : Store} (h : s'.members = s.members) : s'.role = s.role := by
  funext v
  rw [role, role, h]

theorem role_removeMember (s : Store) (u v : String) :
    (s.removeMember u).role v = if v = u then none else s.role v := by
  rw [role, get?_removeMember]
  split_ifs <;> rfl

/-- The role of a member whose row is updated. -/
theorem role_update (s : Store) (u v : String) (f : Member → Member) :
    (s.update u f).role v =
      if v = u then (s.members.get? u).map fun m => (f m).role else s.role v := by
  rw [role, get?_update]
  split_ifs
  · rw [Option.map_map]
    rfl
  · rfl

/-- An update that gives the same role to every member. -/
theorem role_update_const (s : Store) (u v : String) {f : Member → Member} {r : ChatMemberRole}
    (hf : ∀ m, (f m).role = r) :
    (s.update u f).role v = if v = u then (s.role u).map fun _ => r else s.role v := by
  have hmap : (s.role u).map (fun _ => r) = (s.members.get? u).map fun m => (f m).role := by
    rw [role, Option.map_map]
    exact congrArg (Option.map · _) (funext fun m => (hf m).symm)
  rw [role_update, hmap]

theorem keys_eq_nil : s.members.keys = [] ↔ ∀ v, s.role v = none := by
  rw [List.eq_nil_iff_forall_not_mem]
  refine forall_congr' fun v => ?_
  rw [InsMap.mem_keys, role, Option.map_eq_none_iff, Option.not_isSome_iff_eq_none]

/-- The nominee of a member is another one. -/
theorem nominee_spec (h : s.nominee u = some v) : v ≠ u ∧ (s.role v).isSome := by
  obtain ⟨c, hc, rfl⟩ := Option.map_eq_some_iff.1 h
  have hhas : s.members.has c.1 := by simpa using List.find?_some hc
  have hmem := List.mem_of_find?_eq_some hc
  rw [candidates, List.mem_insertionSort, List.mem_filter] at hmem
  refine ⟨of_decide_eq_true hmem.2, ?_⟩
  rw [role, Option.isSome_map]
  exact hhas

end Store

/-! ## One owner -/

namespace OneOwner

variable {type} {s s' : Store} {u : String}

theorem iff : OneOwner s ↔ (∀ v, s.role v = none) ∨ ∃! u, s.role u = some .owner :=
  or_congr_left Store.keys_eq_nil

/-- The owner is the same. -/
theorem same (h : OneOwner s) (hnone : (∀ v, s.role v = none) → ∀ v, s'.role v = none)
    (howner : ∀ v, s'.role v = some .owner ↔ s.role v = some .owner) : OneOwner s' :=
  iff.2 ((iff.1 h).imp hnone fun h => (existsUnique_congr howner).2 h)

/-- There is a new owner. -/
theorem new (howner : ∀ v, s'.role v = some .owner ↔ v = u) : OneOwner s' :=
  .inr ⟨u, (howner u).2 rfl, fun v hv => (howner v).1 hv⟩

theorem congr (h : OneOwner s) (hmembers : s'.members = s.members) : OneOwner s' := by
  rw [OneOwner, hmembers, Store.role_congr hmembers]
  exact h

theorem removeMember (h : OneOwner s) (hgo : MayGo s u) : OneOwner (s.removeMember u) := by
  refine hgo.elim (fun hu => h.same (fun hnone v => ?_) fun v => ?_) .inl
  · rw [Store.role_removeMember, hnone, ite_self]
  · rw [Store.role_removeMember]
    split_ifs with hv
    · rw [hv]
      exact iff_of_false id hu
    · rfl

theorem update (h : OneOwner s) {f : Member → Member} (hu : s.role u ≠ some .owner)
    (hf : ∀ m, s.members.get? u = some m → (f m).role ≠ .owner) : OneOwner (s.update u f) := by
  refine h.same (fun hnone v => ?_) fun v => ?_
  · rw [Store.role_update, hnone]
    split_ifs
    · rw [Option.map_eq_none_iff, ← Option.map_eq_none_iff (f := Member.role)]
      exact hnone u
    · rfl
  · rw [Store.role_update]
    split_ifs with hv
    · rw [hv]
      refine iff_of_false (fun hm => ?_) hu
      obtain ⟨m, hm, hrole⟩ := Option.map_eq_some_iff.1 hm
      exact hf m hm hrole
    · rfl

theorem addMember (h : OneOwner s) {m : Member} (hm : m.role ≠ .owner) (hu : s.role u = none)
    (hsome : s.members.keys ≠ []) : OneOwner (s.addMember u m) := by
  have hrole : ∀ v, (s.addMember u m).role v = if v = u then some m.role else s.role v := by
    intro v
    rw [Store.role, Store.addMember, InsMap.get?_set]
    split_ifs <;> rfl
  refine h.same (fun hnone => absurd (Store.keys_eq_nil.2 hnone) hsome) fun v => ?_
  rw [hrole]
  split_ifs with hv
  · rw [hv, hu]
    exact iff_of_false (fun h => hm (Option.some.inj h)) (Option.some_ne_none _).symm
  · rfl

/-- Who leaves as the owner is followed by another member. -/
theorem succeed (h : OneOwner s) {v : String} (hne : v ≠ u) (hv : (s.role v).isSome)
    (howner : s.role u = some .owner ∨ s.role v = some .owner) :
    OneOwner ((s.update v (Store.promote type)).removeMember u) := by
  obtain ⟨m, hm, -⟩ := Option.map_eq_some_iff.1 (Option.some_get hv).symm
  obtain ⟨o, ho, huniq⟩ := (iff.1 h).resolve_left fun hnone => by
    rw [hnone] at hv
    cases hv
  refine new (u := v) fun w => ?_
  rw [Store.role_removeMember, Store.role_update, hm]
  split_ifs with hwu hwv
  · rw [hwu]
    exact iff_of_false id (Ne.symm hne)
  · exact iff_of_true rfl hwv
  · refine iff_of_false (fun hw => ?_) hwv
    -- The owner is the one who leaves or the one who follows.
    have how := huniq w hw
    rcases howner with hu | hv
    · exact hwu (how.trans (huniq u hu).symm)
    · exact hwv (how.trans (huniq v hv).symm)

/-- The ownership is handed over, from the owner or to the owner. -/
theorem transfer (h : OneOwner s) {v : String} (hne : u ≠ v)
    (hok : KeepsOwner s (.transfer u v)) :
    OneOwner ((s.update u (Store.demote type)).update v (Store.promote type)) := by
  have hrole : ∀ w, ((s.update u (Store.demote type)).update v (Store.promote type)).role w =
      if w = v then (s.role v).map fun _ => .owner
      else if w = u then (s.role u).map fun _ => .admin else s.role w := by
    intro w
    rw [Store.role_update_const _ v w (r := .owner) fun _ => rfl,
      Store.role_update_const _ u w (r := .admin) fun _ => rfl,
      Store.role_update_const _ u v (r := .admin) fun _ => rfl, if_neg (Ne.symm hne)]
  rw [KeepsOwner] at hok
  split_ifs at hok with hv
  · obtain ⟨r, hr⟩ := Option.isSome_iff_exists.1 hv
    obtain ⟨o, ho, huniq⟩ := (iff.1 h).resolve_left fun hnone => by
      rw [hnone] at hr
      cases hr
    refine new (u := v) fun w => ?_
    rw [hrole, hr]
    split_ifs with hwv hwu
    · exact iff_of_true rfl hwv
    · refine iff_of_false (fun hw => ?_) hwv
      obtain ⟨_, -, hadmin⟩ := Option.map_eq_some_iff.1 hw
      cases hadmin
    · refine iff_of_false (fun hw => ?_) hwv
      have how := huniq w hw
      rcases hok with hu | hv
      · exact hwu (how.trans (huniq u hu).symm)
      · exact hwv (how.trans (huniq v hv).symm)
  · -- The target is gone, and nobody is demoted from owner.
    have hnone : s.role v = none := Option.not_isSome_iff_eq_none.1 hv
    refine h.same (fun hall w => ?_) fun w => ?_
    · rw [hrole, hall, hall, hall]
      split_ifs <;> rfl
    · rw [hrole, hnone]
      split_ifs with hwv hwu
      · rw [hwv, hnone]
        exact iff_of_false (Option.some_ne_none _).symm (Option.some_ne_none _).symm
      · rw [hwu]
        refine iff_of_false (fun hw => ?_) hok
        obtain ⟨_, -, hadmin⟩ := Option.map_eq_some_iff.1 hw
        cases hadmin
      · rfl

end OneOwner

/-! ## The role in a channel -/

namespace ChannelOwner

variable {type} {s s' : Store} {u : String}

theorem congr (h : ChannelOwner type s) (hmembers : s'.members = s.members) :
    ChannelOwner type s' := by
  rw [ChannelOwner, hmembers]
  exact h

theorem removeMember (h : ChannelOwner type s) : ChannelOwner type (s.removeMember u) := by
  intro htype v m hm
  rw [Store.get?_removeMember] at hm
  split_ifs at hm
  exact h htype v m hm

/-- An update that keeps to both roles of a member, or sets both. -/
theorem update (h : ChannelOwner type s) {f : Member → Member}
    (hf : type = .channel → ∀ m, s.members.get? u = some m →
      (m.channelRole = some .owner ↔ m.role = .owner) →
      ((f m).channelRole = some .owner ↔ (f m).role = .owner)) :
    ChannelOwner type (s.update u f) := by
  intro htype v m hm
  rw [Store.get?_update] at hm
  split_ifs at hm
  · obtain ⟨m', hm', rfl⟩ := Option.map_eq_some_iff.1 hm
    exact hf htype m' hm' (h htype u m' hm')
  · exact h htype v m hm

theorem promote (h : ChannelOwner type s) : ChannelOwner type (s.update u (Store.promote type)) :=
  h.update fun htype m _ _ => by simp [Store.promote, htype]

theorem demote (h : ChannelOwner type s) : ChannelOwner type (s.update u (Store.demote type)) :=
  h.update fun htype m _ _ => by simp [Store.demote, htype]

theorem newMember (h : ChannelOwner type s) (joinedAt : ℕ) :
    ChannelOwner type (s.addMember u (Store.newMember type joinedAt)) := by
  intro htype v m hm
  rw [Store.addMember, InsMap.get?_set] at hm
  split_ifs at hm
  · obtain rfl := Option.some.inj hm
    simp [Store.newMember, htype]
  · exact h htype v m hm

end ChannelOwner

/-! ## Every run -/

/-- There is one owner, also in a channel. -/
def OwnedByOne (s : Store) : Prop := OneOwner s ∧ ChannelOwner type s

/-- What is known of the statements of the routes: roles of owners are not written but by
    a transfer, which is to another member. -/
def MayAsk : Statement → Prop
  | .transfer userId targetUserId => userId ≠ targetUserId
  | .updateRole _ role => role ≠ .owner
  | .updateChannelRole _ channelRole => channelRole ≠ .owner
  | _ => True

section
variable {type} {s : Store} {u : String}

theorem OwnedByOne.congr {s' : Store} (h : OwnedByOne type s) (hmembers : s'.members = s.members) :
    OwnedByOne type s' := ⟨h.1.congr hmembers, h.2.congr hmembers⟩

theorem OwnedByOne.removeMember (h : OwnedByOne type s) (hgo : MayGo s u) :
    OwnedByOne type (s.removeMember u) := ⟨h.1.removeMember hgo, h.2.removeMember⟩

theorem OwnedByOne.insertMember (h : OwnedByOne type s) (hsome : s.members.keys ≠ []) :
    OwnedByOne type (s.insertMember type u).2 := by
  rw [Store.insertMember]
  split_ifs with hhas
  · exact h
  · have hu : s.role u = none :=
      Option.map_eq_none_iff.2 (InsMap.has_eq_false.1 (Bool.eq_false_of_not_eq_true hhas))
    exact OwnedByOne.congr (s := s.addMember u (Store.newMember type s.now))
      ⟨h.1.addMember ChatMemberRole.noConfusion hu hsome, h.2.newMember s.now⟩
      (Store.members_bumpKeyEpoch _)

theorem OwnedByOne.join (h : OwnedByOne type s) {code : String} {consume : Bool}
    (hok : KeepsOwner s (.join u code consume)) :
    OwnedByOne type (s.join type u code consume).2 := by
  rw [Store.join]
  split
  · exact h
  · rename_i chat hchat
    have hsome := hok (by rw [hchat]; rfl)
    split_ifs
    · exact h
    · exact h
    · exact OwnedByOne.insertMember (h.congr rfl) hsome
    · exact OwnedByOne.insertMember (h.congr rfl) hsome

theorem OwnedByOne.leaveAsOwner (h : OwnedByOne type s) (hok : KeepsOwner s (.leaveAsOwner u)) :
    OwnedByOne type (s.leaveAsOwner type u).2 := by
  rw [Store.leaveAsOwner]
  split
  · exact h
  · rename_i v hv
    obtain ⟨hne, hsome⟩ := Store.nominee_spec hv
    refine OwnedByOne.congr (s := (s.update v (Store.promote type)).removeMember u)
      ⟨h.1.succeed hne hsome (hok.imp_right fun hok => hok v hv), h.2.promote.removeMember⟩ ?_
    exact Store.members_bumpKeyEpoch _

/-- A statement that finds the owner where it takes it to be keeps one. -/
theorem OwnedByOne.answer (h : OwnedByOne type s) {q : Statement} (hmay : MayAsk q)
    (hok : KeepsOwner s q) : OwnedByOne type (s.answer type q).2 := by
  cases q with
  | selectInvite code => exact h
  | getChatById => exact h
  | getMemberRole userId => exact h
  | join userId code consume => exact h.join hok
  | leaveAsOwner userId => exact h.leaveAsOwner hok
  | leave userId =>
    rw [Store.answer, Store.leave]
    split_ifs
    · exact (h.removeMember hok).congr (Store.members_sweep _)
    · exact (h.removeMember hok).congr (Store.members_bumpKeyEpoch _)
    · exact h
  | transfer userId targetUserId => exact ⟨h.1.transfer hmay hok, h.2.demote.promote⟩
  | updateRole userId role =>
    refine ⟨h.1.update hok fun _ _ => hmay, h.2.update fun _ m hm hiff => ?_⟩
    -- The channel role of one who is not the owner is not that of the owner.
    refine iff_of_false (fun hchannel => hok ?_) hmay
    rw [Store.role, hm, Option.map_some, hiff.1 hchannel]
  | updateChannelRole userId channelRole =>
    have howner : ∀ m, s.members.get? userId = some m → m.role ≠ .owner := fun m hm hrole =>
      hok (by rw [Store.role, hm, Option.map_some, hrole])
    refine ⟨h.1.update hok howner, h.2.update fun _ m hm _ => ?_⟩
    exact iff_of_false (fun h => hmay (Option.some.inj h)) (howner m hm)
  | kick userId => exact (h.removeMember hok).congr (Store.members_bumpKeyEpoch _)
  | deleteChat => exact ⟨.inl rfl, fun _ _ m hm => by cases hm⟩
  | deleteUser userId => exact (h.removeMember hok).congr rfl
  | purgeUser userId inChat =>
    rw [Store.answer]
    dsimp only
    split_ifs
    · exact (h.removeMember hok).congr (Store.members_sweep _)
    · exact (h.removeMember hok).congr rfl
  | setInvite code slug oneTime => exact h.congr rfl
  | elapse ms => exact h.congr rfl

end

/-- A route that keeps to what is known of its statements. -/
abbrev Asks (p : Route) : Prop := p.Along fun q _ => MayAsk q

theorem asks_ask {q : Statement} {next : q.Result → Route} (hq : MayAsk q)
    (h : ∀ r, Asks (next r)) : Asks (.ask q next) := ⟨hq, h⟩

theorem plainLeave_asks (userId : String) : Asks (plainLeave userId) :=
  asks_ask trivial fun _ => trivial

theorem leave_asks (userId : String) : Asks (leave userId) := by
  refine asks_ask trivial fun chat => .ite (fun _ => trivial) fun _ => ?_
  refine asks_ask trivial fun role => ?_
  cases role with
  | none => trivial
  | some role =>
    refine .ite (fun _ => asks_ask trivial fun left => .ite (fun _ => trivial) fun _ => ?_)
      fun _ => plainLeave_asks userId
    exact plainLeave_asks userId

theorem join_asks (userId code : String) : Asks (join userId code) := by
  refine asks_ask trivial fun chat => ?_
  cases chat with
  | none => trivial
  | some chat =>
    refine asks_ask trivial fun role => .ite (fun _ => trivial) fun _ =>
      asks_ask trivial fun outcome => ?_
    cases outcome <;> trivial

theorem patchRole_asks (userId targetUserId : String) (newRole : ChatMemberRole) :
    Asks (patchRole userId targetUserId newRole) := by
  refine asks_ask trivial fun chat => .ite (fun _ => trivial) fun _ =>
    asks_ask trivial fun actorRole => asks_ask trivial fun targetRole => ?_
  match actorRole, targetRole with
  | none, _ => trivial
  | some _, none => trivial
  | some actorRole, some targetRole =>
    refine .ite (fun _ => trivial) fun _ => .ite (fun _ => trivial) fun hself =>
      .ite (fun _ => .ite (fun _ => trivial) fun _ => ?_) fun hrole => .ite (fun _ => trivial)
        fun _ => .ite (fun _ => trivial) fun _ => ?_
    · exact asks_ask (q := .transfer userId targetUserId) (Ne.symm hself) fun _ => trivial
    · exact asks_ask (q := .updateRole targetUserId newRole) hrole fun _ => trivial

theorem patchChannelRole_asks (userId targetUserId : String) (channel_role : ChannelRole) :
    Asks (patchChannelRole type userId targetUserId channel_role) := by
  refine .ite (fun _ => trivial) fun hrole => asks_ask trivial fun chat =>
    .ite (fun _ => trivial) fun _ => asks_ask trivial fun actorRole =>
      asks_ask trivial fun targetRole => ?_
  match actorRole, targetRole with
  | none, _ => trivial
  | some _, none => trivial
  | some actorRole, some targetRole =>
    refine .ite (fun _ => trivial) fun _ => .ite (fun _ => trivial) fun _ => ?_
    exact asks_ask (q := .updateChannelRole targetUserId channel_role) hrole fun _ => trivial

theorem kick_asks (userId targetUserId : String) : Asks (kick userId targetUserId) := by
  refine asks_ask trivial fun chat => .ite (fun _ => trivial) fun _ => .ite (fun _ => trivial)
    fun _ => asks_ask trivial fun actorRole => asks_ask trivial fun targetRole => ?_
  match actorRole, targetRole with
  | none, _ => trivial
  | some _, none => trivial
  | some _, some _ => exact .ite (fun _ => trivial) fun _ => asks_ask trivial fun _ => trivial

theorem handle_asks (a : Request) : Asks (handle type a) := by
  cases a with
  | join userId code => exact join_asks userId code
  | leave userId => exact leave_asks userId
  | patchRole userId targetUserId role => exact patchRole_asks userId targetUserId role
  | patchChannelRole userId targetUserId channel_role =>
    exact patchChannelRole_asks type userId targetUserId channel_role
  | kick userId targetUserId => exact kick_asks userId targetUserId
  | deleteChat userId =>
    exact asks_ask trivial fun chat => .ite (fun _ => trivial) fun _ =>
      asks_ask trivial fun role => .ite (fun _ => trivial) fun _ =>
        asks_ask trivial fun role => .ite (fun _ => trivial) fun _ =>
          asks_ask trivial fun _ => trivial
  | deleteAccount userId => exact asks_ask trivial fun _ => trivial
  | adminPurgeUser targetUserId =>
    exact asks_ask trivial fun membership => asks_ask trivial fun _ => trivial
  | setInvite code slug oneTime => exact asks_ask trivial fun _ => trivial
  | elapse ms => exact asks_ask trivial fun _ => trivial

variable {type} in
/-- Along a run in which each statement finds the owner where its route takes it to be, a
    chat with members has one owner, also in a channel. -/
theorem oneOwner_of_run {s : Service.State Store Statement Statement.Result Request Reply}
    (hs : (((chat type).machine (Store.IsInitial type)).restrict
      (Service.Orderly (fun _ _ => True) KeepsOwner)).Reachable s) :
    OwnedByOne type s.store :=
  Service.invariant (I := fun store _ => OwnedByOne type store) (G := fun _ _ => True)
    (P := fun _ q _ => MayAsk q) (fun _ h => ⟨.inr h.1, h.2⟩) (fun _ _ _ _ => trivial)
    (fun a => handle_asks type a) (fun _ _ _ h => ⟨trivial, h⟩)
    (fun _ _ _ _ _ _ hmay hok h => h.answer hmay hok) hs

namespace Sample

/-- A channel with its owner and two more members. -/
def store : Store where
  chat := some ⟨some "code", none, false, 0⟩
  members := ((InsMap.empty.set "a" ⟨.owner, some .owner, 0⟩).set "b"
    ⟨.admin, some .editor, 1⟩).set "c" ⟨.member, some .subscriber, 2⟩
  deleted := []
  now := 3

theorem store_isInitial : store.IsInitial .channel := by
  have hget : ∀ u, store.members.get? u = if u = "c" then some ⟨.member, some .subscriber, 2⟩
      else if u = "b" then some ⟨.admin, some .editor, 1⟩
      else if u = "a" then some ⟨.owner, some .owner, 0⟩ else none := by
    intro u
    rw [store, InsMap.get?_set, InsMap.get?_set, InsMap.get?_set]
    rfl
  refine ⟨⟨"a", rfl, fun u hu => ?_⟩, fun _ u m hm => ?_⟩
  · dsimp only at hu
    rw [Store.role, hget] at hu
    split_ifs at hu with _ _ ha
    · cases hu
    · cases hu
    · exact ha
    · cases hu
  · rw [hget] at hm
    split_ifs at hm <;> (obtain rfl := Option.some.inj hm; decide)

/-- The owner hands the channel over to two members at once. -/
def transferredTwice : List (Service.Event Request) :=
  [.receive (.patchRole "a" "b" .owner), .serve 0, .serve 0, .serve 0,
    .receive (.patchRole "a" "c" .owner), .serve 1, .serve 1, .serve 1, .serve 0, .serve 1]

/-- The owner hands the channel over and leaves; the new owner makes an admin, and another
    user joins. -/
def handedOver : List (Service.Event Request) :=
  [.receive (.patchRole "a" "b" .owner), .serve 0, .serve 0, .serve 0, .serve 0,
    .receive (.leave "a"), .serve 1, .serve 1, .serve 1,
    .receive (.patchRole "b" "c" .admin), .serve 2, .serve 2, .serve 2, .serve 2,
    .receive (.join "d" "code"), .serve 3, .serve 3, .serve 3]

end Sample

section
open Sample

/-- There are two owners when no request is in flight any more. -/
theorem two_owners : ¬∀ type s, ((chat type).machine (Store.IsInitial type)).Reachable s →
    s.tasks.keys = [] → OwnedByOne type s.store := by
  intro h
  have hrun : (((chat .channel).machine (Store.IsInitial .channel)).run (.start store)
      transferredTwice).map (fun s =>
        (s.tasks.keys, s.store.members.keys, s.store.role "b", s.store.role "c")) =
      some ([], ["a", "b", "c"], some .owner, some .owner) := by decide
  obtain ⟨s, hs, hend⟩ := Option.map_eq_some_iff.1 hrun
  obtain ⟨htasks, hend⟩ := Prod.mk.inj hend
  obtain ⟨hkeys, hend⟩ := Prod.mk.inj hend
  obtain ⟨hb, hc⟩ := Prod.mk.inj hend
  have hreachable := Machine.reachable_of_run hs ⟨store, store_isInitial, rfl⟩
  obtain ⟨hone, -⟩ := h .channel s hreachable htasks
  rcases hone with hnil | hone
  · rw [hkeys] at hnil
    cases hnil
  · exact absurd (hone.unique hb hc) (by decide)

theorem oneOwner_of_run_handedOver : ∃ s,
    (((chat .channel).machine (Store.IsInitial .channel)).restrict
      (Service.Orderly (fun _ _ => True) KeepsOwner)).run (.start store) handedOver = some s ∧
    OwnedByOne .channel s.store := by
  obtain ⟨s, hs, hreachable⟩ := Machine.exists_reachable (by decide :
    ((((chat .channel).machine (Store.IsInitial .channel)).restrict
      (Service.Orderly (fun _ _ => True) KeepsOwner)).run (.start store) handedOver).isSome)
    ⟨store, store_isInitial, rfl⟩
  exact ⟨s, hs, oneOwner_of_run hreachable⟩

end

end OneToThree.Chats
