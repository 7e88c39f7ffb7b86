import OneToThree.Guest.Server

/-!
# The life of a knock

A knock is pending until it is approved, denied or cancelled, or expires; an approved one
is picked up once. The routes read the knock and write it later, with the awaits of the
route in between: what they write replaces what others have made of it, and brings back
what others have consumed. A cancel does not look at the status at all.

`lifecycle_of_run`: along a run in which each write of the knock finds it as its request
has read it, a seat is taken for it while no other approval has one, and only a pending
knock is cancelled, it ceases to be pending once, one of approval, denial and cancel is
answered ok, one seat is taken for it, one poll returns its grant, and it does not come
back.
-/

namespace OneToThree.Guest

/-! ## Replies -/

/-- The host's or the guest's decision on the knock is answered ok. -/
def isOk (id : String) : Request × Reply → Bool
  | (.approve id' _, .okIdentity _) | (.deny id' _, .ok) | (.cancel id' _, .ok) => id' = id
  | _ => false

/-- The grant of the knock is returned. -/
def isGrant (id : String) : Request × Reply → Bool
  | (.poll id' _, .approved _ _) => id' = id
  | _ => false

/-- The commands that come after the write of a route. -/
def Command.late : Command → Bool
  | .dropCreatorKnock _ _ | .releaseKnockSlot _ _ | .rememberSeatHolder _
  | .recordGuestJoined _ _ => true
  | _ => false

/-- A route that has nothing but late commands ahead, the first of them being next. -/
def Late : Route → Prop
  | .done _ => True
  | .ask q _ => q.late

abbrev Oks (id : String) : Request → Route → Prop := Service.Bound (isOk id) Command.late

abbrev Grants (id : String) : Request → Route → Prop := Service.Bound (isGrant id) Command.late

/-- Neither reply is to be expected yet. -/
def Silent (a : Request) (p : Route) : Prop := ∀ id, ¬Oks id a p ∧ ¬Grants id a p

/-- What is known of the commands of a request, and of how it goes on. -/
def Request.MayAsk (a : Request) : (q : Command) → (q.Result → Route) → Prop
  | .setKnock id seen payload, next =>
    seen.status = .pending ∧ payload.status ≠ .pending ∧
      ∀ r id', (Oks id' a (next r) → id' = id) ∧ ¬Grants id' a (next r)
  | .getdelKnock id seen consumer, next =>
    ∀ r id', (Oks id' a (next r) → id' = id ∧ consumer = .cancel) ∧
      (Grants id' a (next r) → id' = id ∧ consumer = .poll ∧ seen.status = .approved)
  | .consumeInviteSeat _ _ seen, next => seen.status = .pending ∧ ∀ r, Silent a (next r)
  | .dropCreatorKnock _ _, next => ∀ r, Late (next r)
  | .releaseKnockSlot _ _, next => ∀ r, Late (next r)
  | .rememberSeatHolder _, next => ∀ r, Late (next r)
  | .recordGuestJoined _ _, next => ∀ r, Late (next r)
  | _, next => ∀ r, Silent a (next r)

theorem silent_ask {a : Request} {q : Command} {next : q.Result → Route} (hq : q.late = false) :
    Silent a (.ask q next) := fun _ =>
  ⟨fun h => absurd h.1 (hq ▸ Bool.noConfusion), fun h => absurd h.1 (hq ▸ Bool.noConfusion)⟩

/-- A route that has not written yet, and keeps to what its request may ask. -/
structure Reading (a : Request) (p : Route) : Prop where
  silent : Silent a p
  mayAsk : p.Along a.MayAsk

theorem Reading.done {a : Request} {b : Reply}
    (h : ∀ id, ¬isOk id (a, b) ∧ ¬isGrant id (a, b)) : Reading a (.done b) := ⟨h, trivial⟩

theorem Reading.error (a : Request) (status : ℕ) (code : String) :
    Reading a (.done (.error status code)) :=
  .done fun _ => by cases a <;> exact ⟨Bool.noConfusion, Bool.noConfusion⟩

/-- Before any command that is not a late one. -/
theorem Reading.of_along {a : Request} {q : Command} {next : q.Result → Route}
    (hq : q.late = false) (h : (Program.ask q next).Along a.MayAsk) : Reading a (.ask q next) :=
  ⟨silent_ask hq, h⟩

/-- Before a command that writes no knock. -/
theorem Reading.ask {a : Request} {q : Command} {next : q.Result → Route} (hq : q.late = false)
    (hmay : (∀ r, Silent a (next r)) → a.MayAsk q next) (h : ∀ r, Reading a (next r)) :
    Reading a (.ask q next) :=
  .of_along hq ⟨hmay fun r => (h r).silent, fun r => (h r).mayAsk⟩

theorem Reading.ite {a : Request} {b : Prop} [Decidable b] {p p' : Route} (h : b → Reading a p)
    (h' : ¬b → Reading a p') : Reading a (if b then p else p') := by
  split_ifs with hb
  · exact h hb
  · exact h' hb

/-- A route that reads the knock first. -/
theorem Reading.getKnock {a : Request} {id : String} {f : GuestKnock → Route}
    (h : ∀ knock, Reading a (f knock)) :
    Reading a (do
      match ← command (.getKnock id) with
      | none => return .error 404 "KNOCK_NOT_FOUND"
      | some knock => f knock) :=
  .ask rfl (fun h => h) fun r => match r with
    | none => .error _ _ _
    | some knock => h knock

variable (c : Config)

theorem saveGrant_mayAsk (id : String) (user : User) {knock : GuestKnock}
    (hknock : knock.status = .pending) (grant : Grant) :
    Reading (.approve id user) (saveGrant id knock grant) := by
  refine .of_along rfl ⟨⟨hknock, GuestKnockStatus.noConfusion, fun _ id' => ⟨fun h => ?_,
    fun h => ?_⟩⟩, fun _ => ⟨fun _ => rfl, fun _ => ⟨fun _ => rfl, fun _ => ⟨fun _ => rfl,
      fun _ => ⟨fun _ => trivial, fun _ => trivial⟩⟩⟩⟩⟩
  · exact (of_decide_eq_true (h.2 () () () ())).symm
  · exact Bool.false_ne_true (h.2 () () () ())

theorem mintGrant_mayAsk (id : String) (user : User) {knock : GuestKnock}
    (hknock : knock.status = .pending) :
    Reading (.approve id user) (mintGrant c id user knock) := by
  refine .ask rfl (fun h => h) fun r => .ask rfl (fun h => h) fun session => ?_
  cases session with
  | none => exact .ask rfl (fun h => h) fun _ => saveGrant_mayAsk id user hknock _
  | some existing => exact saveGrant_mayAsk id user hknock _

/-- A route that consumes the knock, frees its slot and replies. -/
theorem consumeKnock_mayAsk {a : Request} {id : String} {seen : GuestKnock} {consumer : Consumer}
    {inviteId : String} {p : Route} {b : Reply} (hp : p = .done b)
    (h : ∀ id', (isOk id' (a, b) → id' = id ∧ consumer = .cancel) ∧
      (isGrant id' (a, b) → id' = id ∧ consumer = .poll ∧ seen.status = .approved)) :
    Reading a (do
      let _ ← consumeKnock id seen consumer
      let _ ← command (.releaseKnockSlot inviteId id)
      p) := by
  subst hp
  refine .of_along rfl ⟨fun r id' => ?_, fun r => ?_⟩
  · cases r with
    | none => exact ⟨fun hb => (h id').1 (hb.2 ()), fun hb => (h id').2 (hb.2 ())⟩
    | some p => exact ⟨fun hb => (h id').1 (hb.2 () ()), fun hb => (h id').2 (hb.2 () ())⟩
  · cases r with
    | none => exact ⟨fun _ => trivial, fun _ => trivial⟩
    | some p => exact ⟨fun _ => rfl, fun _ => ⟨fun _ => trivial, fun _ => trivial⟩⟩

theorem takeSeat_mayAsk (id : String) (user : User) {knock : GuestKnock}
    (hknock : knock.status = .pending) :
    Reading (.approve id user) (takeSeat c id user knock) := by
  refine .ite (fun _ => .error _ _ _) fun _ => .ite (fun _ => .error _ _ _) fun _ => ?_
  refine .ask rfl (fun h => ⟨hknock, h⟩) fun r => ?_
  cases r with
  | false => exact consumeKnock_mayAsk rfl fun _ => ⟨Bool.noConfusion, Bool.noConfusion⟩
  | true => exact mintGrant_mayAsk c id user hknock

theorem approve_mayAsk (id : String) (user : User) :
    Reading (.approve id user) (approve c id user) := by
  refine .getKnock fun knock => .ite (fun _ => .error _ _ _) fun hknock =>
    .ite (fun _ => .error _ _ _) fun _ => ?_
  have htake := takeSeat_mayAsk c id user (not_not.1 hknock)
  cases knock.chatId with
  | none => exact htake
  | some chatId =>
    refine .ask rfl (fun h => h) fun r => ?_
    cases r with
    | false => exact .error _ _ _
    | true => exact htake

theorem deny_mayAsk (id : String) (user : User) :
    Reading (.deny id user) (deny id user) := by
  refine .getKnock fun knock => .ite (fun _ => .error _ _ _) fun hknock =>
    .ite (fun _ => .error _ _ _) fun _ => .of_along rfl ⟨⟨not_not.1 hknock,
      GuestKnockStatus.noConfusion, fun _ id' => ⟨fun h => ?_, fun h => ?_⟩⟩,
      fun _ => ⟨fun _ => rfl, fun _ => ⟨fun _ => trivial, fun _ => trivial⟩⟩⟩
  · exact (of_decide_eq_true (h.2 () ())).symm
  · exact Bool.false_ne_true (h.2 () ())

theorem cancel_mayAsk (id secret : String) :
    Reading (.cancel id secret) (cancel c id secret) :=
  .getKnock fun _ => .ite (fun _ => .error _ _ _) fun _ =>
    consumeKnock_mayAsk rfl fun _ => ⟨fun h => ⟨(of_decide_eq_true h).symm, rfl⟩, Bool.noConfusion⟩

/-- A grant is picked up from a knock that is not denied. -/
theorem grant_of_pickedUp {id id' secret : String} {knock : GuestKnock}
    (h : isGrant id' (.poll id secret, pickedUp knock)) : id' = id ∧ knock.status ≠ .denied := by
  rw [pickedUp] at h
  split at h
  · cases h
  · split_ifs at h with hdenied
    · cases h
    · exact ⟨(of_decide_eq_true h).symm, hdenied⟩

theorem not_ok_of_pickedUp (id id' secret : String) (knock : GuestKnock) :
    ¬isOk id' (.poll id secret, pickedUp knock) := Bool.noConfusion

theorem poll_mayAsk (id secret : String) :
    Reading (.poll id secret) (poll c id secret) := by
  refine .getKnock fun knock => .ite (fun _ => .error _ _ _) fun _ => .ite (fun _ => ?_)
    fun hpending => consumeKnock_mayAsk rfl fun id' =>
      ⟨fun h => absurd h (not_ok_of_pickedUp id id' secret knock), fun h => ?_⟩
  · exact .done fun _ => ⟨Bool.noConfusion, Bool.noConfusion⟩
  · obtain ⟨hid, hdenied⟩ := grant_of_pickedUp h
    refine ⟨hid, rfl, ?_⟩
    match hstatus : knock.status with
    | .pending => exact absurd hstatus hpending
    | .denied => exact absurd hstatus hdenied
    | .approved => rfl

/-- Every request keeps to what it may ask. -/
theorem handle_mayAsk (a : Request) : Reading a (handle c a) := by
  have hdone : ∀ {a b}, (∀ id, isOk id (a, b) = false ∧ isGrant id (a, b) = false) →
      Reading a (.done b) := fun h => .done fun id =>
    ⟨ne_true_of_eq_false (h id).1, ne_true_of_eq_false (h id).2⟩
  cases a with
  | poll id secret => exact poll_mayAsk c id secret
  | cancel id secret => exact cancel_mayAsk c id secret
  | approve id user => exact approve_mayAsk c id user
  | deny id user => exact deny_mayAsk id user
  | participantJoined roomId identity => exact hdone fun _ => ⟨rfl, rfl⟩
  | participantLeft roomId identity =>
    cases identity with
    | member userId => exact hdone fun _ => ⟨rfl, rfl⟩
    | guest random =>
      refine .ask rfl (fun h => h) fun _ => .ask rfl (fun h => h) fun seat => ?_
      cases seat with
      | none => exact hdone fun _ => ⟨rfl, rfl⟩
      | some inviteId => exact .ask rfl (fun h => h) fun _ => hdone fun _ => ⟨rfl, rfl⟩
  | revoke id user =>
    refine .ask rfl (fun h => h) fun revoked => ?_
    cases revoked <;> exact hdone fun _ => ⟨rfl, rfl⟩
  | revokeAll user => exact .ask rfl (fun h => h) fun _ => hdone fun _ => ⟨rfl, rfl⟩
  | world w => exact .ask rfl (fun h => h) fun _ => hdone fun _ => ⟨rfl, rfl⟩

/-! ## One command -/

/-- Where the writes of the knock find it as their requests have read it, a seat is taken
    for it while no other approval has one, and only a pending knock is cancelled. -/
def AsRead (id : String) (s : Store) : Command → Prop
  | .setKnock id' seen _ => id' = id → s.knocks.get? id = some seen
  | .getdelKnock id' seen .cancel =>
    id' = id → s.knocks.get? id = some seen ∧ seen.status = .pending
  | .getdelKnock id' seen .poll =>
    id' = id → seen.status = .approved → s.knocks.get? id = some seen
  | .consumeInviteSeat inviteId id' seen =>
    id' = id → (s.invites.get? inviteId).any (fun invite => invite.HasSeat s.now) →
      s.knocks.get? id = some seen ∧ id ∉ s.history.seated
  | _ => True

instance (id : String) (s : Store) : ∀ q, Decidable (AsRead id s q)
  | .setKnock _ _ _ => inferInstanceAs (Decidable (_ → _))
  | .getdelKnock _ _ .cancel => inferInstanceAs (Decidable (_ → _))
  | .getdelKnock _ _ .poll => inferInstanceAs (Decidable (_ → _ → _))
  | .getdelKnock _ _ .approve => isTrue trivial
  | .consumeInviteSeat _ _ _ => inferInstanceAs (Decidable (_ → _ → _))
  | .getKnock _ | .dropCreatorKnock _ _ | .releaseKnockSlot _ _ | .selectMember _ _
  | .mint _ _ _ | .getCallSession _ | .setCallSession _ | .rememberSeatHolder _
  | .takeSeatHolder _ _ | .releaseSeat _ | .recordGuestJoined _ _ | .recordGuestLeft _ _
  | .revoke _ _ | .revokeAll _ | .world _ => isTrue trivial

/-- What the history says about the knock, by what there is of it. -/
structure Sound (id : String) (s : Store) : Prop where
  left : s.history.left.count id ≤ if s.pending id then 0 else 1
  taken : s.history.taken.count id ≤ 1
  seated : s.pending id → s.history.taken.count id = s.history.seated.count id
  ended : id ∈ s.history.ended → ∀ k, s.knocks.get? id = some k → k.status = .denied

/-- A step of the store: the history of the knock grows, and the knock is not made anew. -/
structure Follows (id : String) (s s' : Store) : Prop where
  sound : Sound id s'
  left : s.history.left.count id ≤ s'.history.left.count id
  there : s'.knocks.has id → s.knocks.has id

namespace Store

variable {s : Store} {id id' : String}

theorem pending_iff : s.pending id ↔ ∃ k, s.knocks.get? id = some k ∧ k.status = .pending := by
  simp [pending, Option.any_eq_true]

theorem pending_of_get? {k : GuestKnock} (h : s.knocks.get? id = some k) :
    s.pending id = decide (k.status = .pending) := by
  rw [pending, h, Option.any_some]

theorem count_leaving_ne (h : id' ≠ id) (payload : Option GuestKnock) :
    (s.leaving id' payload).count id = s.history.left.count id := by
  rw [leaving]
  split_ifs
  · rw [List.count_append, List.count_singleton, beq_eq_false_iff_ne.2 h]
    rfl
  · rfl

theorem count_leaving_self (payload : Option GuestKnock)
    (h : payload.any (·.status = .pending) = false) :
    (s.leaving id payload).count id =
      s.history.left.count id + if s.pending id then 1 else 0 := by
  rw [leaving, h, Bool.not_false, Bool.and_true]
  split_ifs
  · rw [List.count_append, List.count_singleton_self]
  · rfl

theorem pending_congr {s' : Store} (h : s'.knocks.get? id = s.knocks.get? id) :
    s'.pending id = s.pending id := by
  rw [pending, pending, h]

end Store

namespace Sound

variable {id id' : String} {s s' : Store}

/-- Nothing happens to the knock. -/
theorem same (h : Sound id s) (hknock : s'.knocks.get? id = s.knocks.get? id)
    (hleft : s'.history.left.count id = s.history.left.count id)
    (htaken : s'.history.taken.count id = s.history.taken.count id)
    (hseated : s'.history.seated.count id = s.history.seated.count id)
    (hended : id ∈ s'.history.ended → id ∈ s.history.ended) : Follows id s s' where
  sound := {
    left := by rw [hleft, Store.pending_congr hknock]; exact h.left
    taken := htaken ▸ h.taken
    seated := by rw [htaken, hseated, Store.pending_congr hknock]; exact h.seated
    ended := fun hid k hk => h.ended (hended hid) k (hknock ▸ hk) }
  left := Nat.le_of_eq hleft.symm
  there := by rw [InsMap.has, InsMap.has, hknock]; exact fun h => h

/-- The knock is not there any more. -/
theorem gone (h : Sound id s) (hknock : s'.knocks.get? id = none)
    (hleft : s'.history.left.count id =
      s.history.left.count id + if s.pending id then 1 else 0)
    (htaken : s'.history.taken = s.history.taken) : Follows id s s' where
  sound := {
    left := by
      have hold := h.left
      have hpending : s'.pending id = false := by rw [Store.pending, hknock, Option.any_none]
      rw [hleft, hpending, if_neg Bool.false_ne_true]
      split_ifs at hold ⊢ <;> omega
    taken := htaken ▸ h.taken
    seated := fun hp => by
      rw [Store.pending, hknock] at hp
      cases hp
    ended := fun _ k hk => by
      rw [hknock] at hk
      cases hk }
  left := hleft ▸ Nat.le_add_right _ _
  there := by rw [InsMap.has, hknock]; exact fun h => absurd h Bool.false_ne_true

/-- The knock that was pending is approved or denied. -/
theorem settled (h : Sound id s) {seen payload : GuestKnock}
    (hseen : s.knocks.get? id = some seen) (hpending : seen.status = .pending)
    (hknock : s'.knocks.get? id = some payload) (hpayload : payload.status ≠ .pending)
    (hleft : s'.history.left.count id = s.history.left.count id + 1)
    (htaken : s'.history.taken = s.history.taken)
    (hended : id ∈ s'.history.ended → payload.status = .denied ∨ id ∈ s.history.ended) :
    Follows id s s' where
  sound := {
    left := by
      have hold := h.left
      rw [Store.pending_of_get? hseen, if_pos (decide_eq_true hpending)] at hold
      rw [hleft, Store.pending_of_get? hknock, decide_eq_false hpayload,
        if_neg Bool.false_ne_true]
      omega
    taken := htaken ▸ h.taken
    seated := fun hp => by
      rw [Store.pending_of_get? hknock] at hp
      exact absurd (of_decide_eq_true hp) hpayload
    ended := fun hid k hk => by
      obtain rfl := Option.some.inj (hknock.symm.trans hk)
      refine (hended hid).resolve_right fun hold => ?_
      have hdenied := h.ended hold seen hseen
      rw [hpending] at hdenied
      cases hdenied }
  left := hleft ▸ Nat.le_succ _
  there := fun _ => InsMap.has_iff.2 ⟨seen, hseen⟩

/-- A seat is taken for the pending knock. -/
theorem seatTaken (h : Sound id s) {seen : GuestKnock} (hseen : s.knocks.get? id = some seen)
    (hpending : seen.status = .pending) (hseated : id ∉ s.history.seated)
    (hknocks : s'.knocks = s.knocks) (hleft : s'.history.left = s.history.left)
    (htaken : s'.history.taken = s.history.taken ++ [id])
    (hseated' : s'.history.seated = id :: s.history.seated)
    (hended : s'.history.ended = s.history.ended) : Follows id s s' := by
  have hnone : s.history.taken.count id = 0 := by
    rw [h.seated (Store.pending_iff.2 ⟨seen, hseen, hpending⟩),
      List.count_eq_zero_of_not_mem hseated]
  have hone : s'.history.taken.count id = 1 := by
    rw [htaken, List.count_append, hnone, List.count_singleton_self]
  have hpend : s'.pending id = s.pending id := Store.pending_congr (by rw [hknocks])
  refine ⟨⟨by rw [hleft, hpend]; exact h.left, Nat.le_of_eq hone, fun _ => ?_, ?_⟩,
    Nat.le_of_eq (by rw [hleft]), by rw [hknocks]; exact fun h => h⟩
  · rw [hone, hseated', List.count_cons_self, List.count_eq_zero_of_not_mem hseated]
  · rw [hended, hknocks]
    exact h.ended

theorem deleteKnock (h : Sound id s) (id' : String) : Follows id s (s.deleteKnock id') := by
  by_cases hid : id' = id
  · subst hid
    exact h.gone (InsMap.get?_delete_self _ _) (Store.count_leaving_self none rfl) rfl
  · exact h.same (InsMap.get?_delete_ne _ (Ne.symm hid)) (Store.count_leaving_ne hid _) rfl rfl
      fun h => h

theorem setKnock (h : Sound id s) {id' : String} {seen payload : GuestKnock}
    (hseen : id' = id → s.knocks.get? id = some seen) (hpending : seen.status = .pending)
    (hpayload : payload.status ≠ .pending) : Follows id s (s.setKnock id' payload) := by
  by_cases hid : id' = id
  · subst hid
    refine h.settled (hseen rfl) hpending (InsMap.get?_set_self _ _ _) hpayload ?_ rfl
      fun hended => ?_
    · refine (Store.count_leaving_self (some payload) ?_).trans ?_
      · exact decide_eq_false hpayload
      · rw [if_pos (Store.pending_iff.2 ⟨seen, hseen rfl, hpending⟩)]
    · change _ ∈ (if _ then _ else _) at hended
      split_ifs at hended with hdenied
      · exact .inl hdenied
      · exact .inr hended
  · refine h.same (InsMap.get?_set_ne _ _ (Ne.symm hid)) (Store.count_leaving_ne hid _) rfl ?_
      fun hended => ?_
    · change List.count id (if _ then _ else _) = _
      split_ifs
      · exact List.count_erase_of_ne (Ne.symm hid)
      · rfl
    · change _ ∈ (if _ then _ else _) at hended
      split_ifs at hended
      · exact (List.mem_append.1 hended).resolve_right fun h =>
          hid (List.mem_singleton.1 h).symm
      · exact hended

theorem getdelKnock (h : Sound id s) (id' : String) (consumer : Consumer) :
    Follows id s (s.getdelKnock id' consumer) := by
  rw [Store.getdelKnock]
  split_ifs with hended
  · have hdel := h.deleteKnock id'
    refine ⟨⟨hdel.sound.left, hdel.sound.taken, hdel.sound.seated, fun hid k hk => ?_⟩,
      hdel.left, hdel.there⟩
    have hne : id ≠ id' := by
      rintro rfl
      rw [show (s.deleteKnock id).knocks.get? id = none from InsMap.get?_delete_self _ _] at hk
      cases hk
    refine hdel.sound.ended ?_ k hk
    exact (List.mem_append.1 hid).resolve_right fun h => hne (List.mem_singleton.1 h)
  · exact h.deleteKnock id'

theorem getKnock (h : Sound id s) (id' : String) : Follows id s (s.getKnock c id').2 := by
  have hself : Follows id s s := ⟨h, Nat.le_refl _, fun h => h⟩
  rw [Store.getKnock]
  split
  · exact hself
  · split_ifs
    · exact hself
    · exact h.deleteKnock id'
    · exact hself

theorem consumeInviteSeat (h : Sound id s) {inviteId id' : String} {seen : GuestKnock}
    (hpending : seen.status = .pending)
    (hok : AsRead id s (.consumeInviteSeat inviteId id' seen)) :
    Follows id s (s.consumeInviteSeat inviteId id').2 := by
  have hself : Follows id s s := ⟨h, Nat.le_refl _, fun h => h⟩
  rw [Store.consumeInviteSeat]
  split
  · exact hself
  · rename_i invite hinvite
    split_ifs with hseat
    · by_cases hid : id' = id
      · obtain ⟨hseen, hseated⟩ := hok hid (by rw [hinvite]; exact decide_eq_true hseat)
        subst hid
        exact h.seatTaken hseen hpending hseated rfl rfl rfl rfl rfl
      · refine h.same rfl rfl ?_ (List.count_cons_of_ne hid) fun h => h
        rw [List.count_append, List.count_singleton, beq_eq_false_iff_ne.2 hid]
        rfl
    · exact hself

theorem world (h : Sound id s) (w : World) : Follows id s (s.world w) := by
  have hself : Follows id s s := ⟨h, Nat.le_refl _, fun h => h⟩
  cases w with
  | expireKnock id' =>
    rw [Store.world]
    split_ifs
    · exact h.deleteKnock id'
    · exact hself
  | enter t =>
    rw [Store.world]
    split_ifs
    · exact h.same rfl rfl rfl rfl fun h => h
    · exact hself
  | _ => exact h.same rfl rfl rfl rfl fun h => h

/-- A command keeps what the history says, where the writes find the knock as it was read. -/
theorem answer (h : Sound id s) {a : Request} {q : Command} {next : q.Result → Route}
    (hmay : a.MayAsk q next) (hok : AsRead id s q) : Follows id s (s.answer c q).2 := by
  cases q with
  | getKnock id' => exact h.getKnock c id'
  | setKnock id' seen payload => exact h.setKnock hok hmay.1 hmay.2.1
  | getdelKnock id' seen consumer => exact h.getdelKnock id' consumer
  | consumeInviteSeat inviteId id' seen => exact h.consumeInviteSeat hmay.1 hok
  | releaseSeat holder =>
    rw [Store.answer, Store.releaseSeat]
    dsimp only
    split <;> exact h.same rfl rfl rfl rfl fun h => h
  | revoke inviteId userId =>
    rw [Store.answer, Store.revoke]
    split
    · exact h.same rfl rfl rfl rfl fun h => h
    · split_ifs <;> exact h.same rfl rfl rfl rfl fun h => h
  | world w => exact h.world w
  | _ => exact h.same rfl rfl rfl rfl fun h => h

end Sound

/-! ## Every run -/

/-- The life of a knock. -/
structure Lifecycle (id : String) (s : Store) (replies : List (Request × Reply)) : Prop where
  /-- It ceases to be pending at most once. -/
  left : s.history.left.count id ≤ 1
  /-- At most one of approval, denial and cancel is answered ok. -/
  ok : replies.countP (isOk id) ≤ 1
  /-- At most one seat is taken for it. -/
  seat : s.history.taken.count id ≤ 1
  /-- At most one poll returns its grant. -/
  grant : replies.countP (isGrant id) ≤ 1
  /-- Once denied, or consumed by a poll or a cancel, it is not pending or approved again. -/
  ended : id ∈ s.history.ended → ∀ k, s.knocks.get? id = some k → k.status = .denied

theorem Sound.of_isInitial {id : String} {s : Store} (h : s.IsInitial) : Sound id s := by
  refine ⟨?_, ?_, fun _ => ?_, fun hid => ?_⟩
  · rw [h.history]; exact Nat.zero_le _
  · rw [h.history]; exact Nat.zero_le _
  · rw [h.history]
    rfl
  · rw [h.history] at hid
    cases hid

/-- Neither reply is promised by a command that writes no knock. -/
theorem bound_of_late {good : Request × Reply → Bool} {a : Request} {q : Command}
    {next : q.Result → Route} (hmay : a.MayAsk q next)
    (hb : Service.Bound good Command.late a (.ask q next)) (r : q.Result) :
    Service.Bound good Command.late a (next r) := by
  have hlate : ∀ {p : Route}, Late p → (p.Ends fun b => good (a, b)) →
      Service.Bound good Command.late a p := by
    intro p hp hends
    cases p with
    | done b => exact hends
    | ask q next => exact ⟨hp, hends⟩
  cases q with
  | dropCreatorKnock _ _ => exact hlate (hmay r) (hb.2 r)
  | releaseKnockSlot _ _ => exact hlate (hmay r) (hb.2 r)
  | rememberSeatHolder _ => exact hlate (hmay r) (hb.2 r)
  | recordGuestJoined _ _ => exact hlate (hmay r) (hb.2 r)
  | _ => exact absurd hb.1 Bool.noConfusion

/-- The write that promises a reply: a decision on the knock, or its pickup. -/
theorem promise_cases {good : Request × Reply → Bool} {a : Request} {q : Command}
    {next : q.Result → Route} {r : q.Result}
    (hsilent : Silent a (next r) → ¬Service.Bound good Command.late a (next r))
    (hmay : a.MayAsk q next) (hnot : ¬Service.Bound good Command.late a (.ask q next))
    (hb : Service.Bound good Command.late a (next r)) :
    (∃ id seen payload, q = .setKnock id seen payload) ∨
      ∃ id seen consumer, q = .getdelKnock id seen consumer := by
  have hlate : ∀ {p : Unit → Route}, Service.Bound good Command.late a (p ()) →
      ∀ u, (p u).Ends fun b => good (a, b) := fun h _ => h.ends
  cases q with
  | setKnock id seen payload => exact .inl ⟨id, seen, payload, rfl⟩
  | getdelKnock id seen consumer => exact .inr ⟨id, seen, consumer, rfl⟩
  | consumeInviteSeat inviteId id seen => exact absurd hb (hsilent (hmay.2 r))
  | dropCreatorKnock _ _ => exact absurd ⟨rfl, hlate hb⟩ hnot
  | releaseKnockSlot _ _ => exact absurd ⟨rfl, hlate hb⟩ hnot
  | rememberSeatHolder _ => exact absurd ⟨rfl, hlate hb⟩ hnot
  | recordGuestJoined _ _ => exact absurd ⟨rfl, hlate hb⟩ hnot
  | _ => exact absurd hb (hsilent (hmay r))

/-- A decision on the knock that is to be answered ok is the one by which it leaves. -/
theorem left_of_ok {id : String} {s : Store} {a : Request} {q : Command}
    {next : q.Result → Route} (hmay : a.MayAsk q next) (hok : AsRead id s q)
    (hnot : ¬Oks id a (.ask q next)) (hb : Oks id a (next (s.answer c q).1)) :
    (s.answer c q).2.history.left.count id = s.history.left.count id + 1 := by
  rcases promise_cases (fun h => (h id).1) hmay hnot hb with
    ⟨id', seen, payload, rfl⟩ | ⟨id', seen, consumer, rfl⟩
  · obtain ⟨hpending, hpayload, hgoes⟩ := hmay
    obtain rfl := (hgoes _ id).1 hb
    refine (Store.count_leaving_self (some payload) (decide_eq_false hpayload)).trans ?_
    rw [if_pos (Store.pending_iff.2 ⟨seen, hok rfl, hpending⟩)]
  · obtain ⟨rfl, rfl⟩ := (hmay _ id).1 hb
    have hpending : s.pending id := Store.pending_iff.2 ⟨seen, hok rfl⟩
    have hcount : (s.leaving id none).count id = s.history.left.count id + 1 := by
      rw [Store.count_leaving_self none rfl, if_pos hpending]
    refine Eq.trans ?_ hcount
    rw [Store.answer, Store.getdelKnock]
    dsimp only
    split_ifs <;> rfl

/-- A pickup of the grant finds the knock, and leaves none. -/
theorem gone_of_grant {id : String} {s : Store} {a : Request} {q : Command}
    {next : q.Result → Route} (hmay : a.MayAsk q next) (hok : AsRead id s q)
    (hnot : ¬Grants id a (.ask q next)) (hb : Grants id a (next (s.answer c q).1)) :
    s.knocks.has id = true ∧ (s.answer c q).2.knocks.has id = false := by
  rcases promise_cases (fun h => (h id).2) hmay hnot hb with
    ⟨id', seen, payload, rfl⟩ | ⟨id', seen, consumer, rfl⟩
  · exact absurd hb (hmay.2.2 _ id).2
  · obtain ⟨rfl, rfl, happroved⟩ := (hmay _ id).2 hb
    refine ⟨InsMap.has_iff.2 ⟨seen, hok rfl happroved⟩, ?_⟩
    have hgone : (s.deleteKnock id).knocks.has id = false :=
      InsMap.has_eq_false.2 (InsMap.get?_delete_self _ _)
    rw [Store.answer, Store.getdelKnock]
    dsimp only
    split_ifs <;> exact hgone

variable {c}

section
variable {id : String} {s : Service.State Store Command Command.Result Request Reply}
  (hs : (((server c).machine Store.IsInitial).restrict
    (Service.Orderly (fun _ _ => True) (AsRead id))).Reachable s)

include hs in
/-- No decision is answered ok but the one by which the knock leaves. -/
theorem oks_le_left : ∃ n, s.replies.countP (isOk id) ≤ n ∧
    Sound id s.store ∧ n ≤ s.store.history.left.count id := by
  refine Service.invariant_promised (isOk id) Command.late
    (I := fun store n => Sound id store ∧ n ≤ store.history.left.count id)
    (P := Request.MayAsk) (fun _ h => ⟨.of_isInitial h, Nat.zero_le _⟩)
    (fun a => (handle_mayAsk c a).mayAsk) (fun a => ((handle_mayAsk c a).silent id).1)
    (fun a q next hmay hb r => bound_of_late hmay hb r) ?_ ?_ hs
  · intro store n a q next hmay hok ⟨h, hn⟩
    have hstep := h.answer c hmay hok
    exact ⟨hstep.sound, Nat.le_trans hn hstep.left⟩
  · intro store n a q next hmay hok ⟨h, hn⟩ hnot hb
    refine ⟨(h.answer c hmay hok).sound, ?_⟩
    exact Nat.le_trans (Nat.succ_le_succ hn) (Nat.le_of_eq (left_of_ok c hmay hok hnot hb).symm)

include hs in
/-- The grant is returned once, and then there is no knock. -/
theorem grants_le_one : ∃ n, s.replies.countP (isGrant id) ≤ n ∧
    Sound id s.store ∧ n ≤ 1 ∧ (s.store.knocks.has id → n = 0) := by
  refine Service.invariant_promised (isGrant id) Command.late
    (I := fun store n => Sound id store ∧ n ≤ 1 ∧ (store.knocks.has id → n = 0))
    (P := Request.MayAsk) (fun _ h => ⟨.of_isInitial h, Nat.zero_le 1, fun _ => rfl⟩)
    (fun a => (handle_mayAsk c a).mayAsk) (fun a => ((handle_mayAsk c a).silent id).2)
    (fun a q next hmay hb r => bound_of_late hmay hb r) ?_ ?_ hs
  · intro store n a q next hmay hok ⟨h, hn, hthere⟩
    have hstep := h.answer c hmay hok
    exact ⟨hstep.sound, hn, fun hhas => hthere (hstep.there hhas)⟩
  · intro store n a q next hmay hok ⟨h, _, hthere⟩ hnot hb
    obtain ⟨hhas, hgone⟩ := gone_of_grant c hmay hok hnot hb
    obtain rfl := hthere hhas
    refine ⟨(h.answer c hmay hok).sound, Nat.le_refl 1, fun hhas' => ?_⟩
    exact absurd hhas' (ne_true_of_eq_false hgone)

end

/-- Along a run in which the writes of a knock find it as it was read, a seat is taken for
    it while no other approval has one, and only a pending knock is cancelled, it has one
    life. -/
theorem lifecycle_of_run {id : String}
    {s : Service.State Store Command Command.Result Request Reply}
    (hs : (((server c).machine Store.IsInitial).restrict
      (Service.Orderly (fun _ _ => True) (AsRead id))).Reachable s) :
    Lifecycle id s.store s.replies := by
  obtain ⟨n, hoks, hsound, hleft⟩ := oks_le_left hs
  obtain ⟨m, hgrants, -, hone, -⟩ := grants_le_one hs
  have hleft' : s.store.history.left.count id ≤ 1 := by
    have hle := hsound.left
    split_ifs at hle
    · exact Nat.le_succ_of_le hle
    · exact hle
  exact ⟨hleft', Nat.le_trans hoks (Nat.le_trans hleft hleft'), hsound.taken,
    Nat.le_trans hgrants hone, hsound.ended⟩

namespace KnockSample

open Sample

/-- A guest knocks, with a link that has one seat. -/
def store : Store where
  knocks := InsMap.empty.set "knock"
    ⟨"invite", "room", none, "host", "guest", "secret", true, .pending, none, 300000⟩
  creatorKnocks := [("host", "knock")]
  slots := [("invite", "knock")]
  invites := InsMap.empty.set "invite" ⟨"host", 1, 0, 86400000, none⟩
  seats := ∅
  sessions := ∅
  members := []
  now := 0
  random := 0
  inRoom := []
  history := .none

theorem store_isInitial : store.IsInitial where
  knocks id k h := by
    rw [store, InsMap.get?_set] at h
    split_ifs at h
    · obtain rfl := Option.some.inj h
      exact ⟨rfl, rfl⟩
    · cases h
  invites i invite h := by
    rw [store, InsMap.get?_set] at h
    split_ifs at h
    · obtain rfl := Option.some.inj h
      exact ⟨by decide, by decide⟩
    · cases h
  seats _ := rfl
  inRoom _ _ h := nomatch h
  history := rfl

/-- The host approves the knock. -/
def approved : List (Service.Event Request) :=
  .receive (.approve "knock" host) :: List.replicate 10 (.serve 0)

/-- Two polls read the approved knock before either of them consumes it. -/
def polledTwice : List (Service.Event Request) :=
  approved ++ [.receive (.poll "knock" "secret"), .receive (.poll "knock" "secret"),
    .serve 1, .serve 2, .serve 1, .serve 2, .serve 1, .serve 1, .serve 2]

/-- The grant is picked up; then the guest polls and cancels, and the host denies. -/
def pickedUpOnce : List (Service.Event Request) :=
  approved ++ [.receive (.poll "knock" "secret"), .serve 1, .serve 1, .serve 1, .serve 1,
    .receive (.poll "knock" "secret"), .serve 2, .receive (.cancel "knock" "secret"), .serve 3,
    .receive (.deny "knock" host), .serve 4]

end KnockSample

section
open Sample KnockSample

/-- Two polls return the grant. -/
theorem granted_twice : ¬∀ s, ((server config).machine Store.IsInitial).Reachable s →
    ∀ id, Lifecycle id s.store s.replies := by
  intro h
  have hrun : (((server config).machine Store.IsInitial).run (.start store) polledTwice).map
      (fun s => s.replies.countP (isGrant "knock")) = some 2 := by decide
  obtain ⟨s, hs, hcount⟩ := Option.map_eq_some_iff.1 hrun
  have honce :=
    (h s (Machine.reachable_of_run hs ⟨store, store_isInitial, rfl⟩) "knock").grant
  rw [hcount] at honce
  exact absurd honce (by decide)

theorem lifecycle_of_run_pickedUp : ∃ s,
    (((server config).machine Store.IsInitial).restrict
      (Service.Orderly (fun _ _ => True) (AsRead "knock"))).run (.start store) pickedUpOnce =
        some s ∧
    Lifecycle "knock" s.store s.replies := by
  obtain ⟨s, hs, hreachable⟩ := Machine.exists_reachable (by decide :
    ((((server config).machine Store.IsInitial).restrict
      (Service.Orderly (fun _ _ => True) (AsRead "knock"))).run (.start store)
        pickedUpOnce).isSome)
    ⟨store, store_isInitial, rfl⟩
  exact ⟨s, hs, lifecycle_of_run hreachable⟩

end

end OneToThree.Guest
