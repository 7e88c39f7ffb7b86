import Mathlib.Data.List.Perm.Subperm
import OneToThree.Guest.Server

/-!
# The seats of a link

A link has as many seats as guests it admits at once. An approval takes a seat, signs the
token of the guest and remembers who holds the seat; when the guest leaves the room, a
webhook forgets the holder and gives the seat back. But the guest keeps the token, and
comes back with it, to a seat that may be taken again.

* A seat is in one place at a time: with the approval that is yet to remember its holder,
  in the entry of its holder, with the webhook that is yet to give it back, or given back
  (`SeatInv`). So no seat is given back twice, whatever webhooks come.
* The count of a link is that of the seats which were taken and not given back
  (`Accounts`), and between none and all of them.

`seated_of_run`: along a run in which a seat is given back only when its holder is out of
the room and the token has expired, the guests of a link who are in the room or may enter
it have a seat each.
-/

namespace OneToThree.Guest

/-! ## Where a seat is -/

/-- The commands that put a seat down: where it is remembered, and where it is given back. -/
def Command.PutsDown (x : SeatHolder) (q : Command) : Prop :=
  q = .rememberSeatHolder x ∨ q = .releaseSeat x

/-- The command that signs a token, for a seat of the invite. -/
def mints (inviteId : String) : Command → ℕ
  | .mint inviteId' _ _ => if inviteId' = inviteId then 1 else 0
  | _ => 0

/-- The route is going to put down the seat `x`, and no other. -/
structure Holding (x : SeatHolder) (p : Route) : Prop where
  asks : ∀ y, p.Asks (Command.PutsDown y) ↔ y = x
  mints : ∀ (a : Request) i, Service.weigh (fun _ => mints i) a p = 0

/-- The route has no seat in hand. -/
structure Idle (p : Route) : Prop where
  asks : ∀ y, ¬p.Asks (Command.PutsDown y)
  mints : ∀ (a : Request) i, Service.weigh (fun _ => mints i) a p = 0

/-- What is known of the seats along the routes. -/
def HandlesSeats : (q : Command) → (q.Result → Route) → Prop
  | .consumeInviteSeat inviteId _ _, next => Idle (next false) ∧
      (∀ y, ¬(next true).Asks (Command.PutsDown y)) ∧
      ∀ (a : Request) i, Service.weigh (fun _ => mints i) a (next true) =
        if inviteId = i then 1 else 0
  | .mint inviteId roomId _, next => ∀ r, Holding ⟨roomId, r.2, inviteId⟩ (next r)
  | .takeSeatHolder roomId identity, next => Idle (next none) ∧
      ∀ inviteId, Holding ⟨roomId, identity, inviteId⟩ (next (some inviteId))
  | .rememberSeatHolder _, next => ∀ r, Idle (next r)
  | .releaseSeat _, next => ∀ r, Idle (next r)
  | q, next => (∀ r, Idle (next r)) ∨ ∃ x, Holding x (.ask q next) ∧ ∀ r, Holding x (next r)

theorem Idle.done (b : Reply) : Idle (.done b) := ⟨fun _ => id, fun _ _ => rfl⟩

/-- A route with no seat in hand, and what it does with the seats. -/
def Handles (p : Route) : Prop := Idle p ∧ p.Along HandlesSeats

/-- A route with the seat `x` in hand, and what it does with it. -/
def HandlesHolding (x : SeatHolder) (p : Route) : Prop := Holding x p ∧ p.Along HandlesSeats

theorem Handles.done (b : Reply) : Handles (.done b) := ⟨.done b, trivial⟩

section
variable {q : Command} {next : q.Result → Route}

/-- Before a command that has nothing to do with seats. -/
theorem Handles.ask (r : q.Result) (hq : ∀ y, ¬q.PutsDown y) (hmints : ∀ i, mints i q = 0)
    (hmay : (∀ r, Idle (next r)) → HandlesSeats q next) (h : ∀ r, Handles (next r)) :
    Handles (.ask q next) :=
  ⟨⟨fun y hask => hask.elim (hq y) fun hask => (h r).1.asks y (hask r), fun _ => hmints⟩,
    hmay fun r => (h r).1, fun r => (h r).2⟩

theorem HandlesHolding.ask {x : SeatHolder} (r : q.Result) (hq : ∀ y, ¬q.PutsDown y)
    (hmints : ∀ i, mints i q = 0)
    (hmay : (Holding x (.ask q next) ∧ ∀ r, Holding x (next r)) → HandlesSeats q next)
    (h : ∀ r, HandlesHolding x (next r)) : HandlesHolding x (.ask q next) := by
  have hself : Holding x (.ask q next) := by
    refine ⟨fun y => ⟨fun hask => ?_, fun hy => .inr fun r => ((h r).1.asks y).2 hy⟩,
      fun _ => hmints⟩
    exact hask.elim (fun hput => absurd hput (hq y)) fun hask => ((h r).1.asks y).1 (hask r)
  exact ⟨hself, hmay ⟨hself, fun r => (h r).1⟩, fun r => (h r).2⟩

/-- Before the command that puts the seat down. -/
theorem HandlesHolding.putDown {x : SeatHolder} (r : q.Result) (hq : ∀ y, q.PutsDown y ↔ y = x)
    (hmints : ∀ i, mints i q = 0) (hmay : (∀ r, Idle (next r)) → HandlesSeats q next)
    (h : ∀ r, Handles (next r)) : HandlesHolding x (.ask q next) := by
  refine ⟨⟨fun y => ⟨fun hask => ?_, fun hy => .inl ((hq y).2 hy)⟩, fun _ => hmints⟩,
    hmay fun r => (h r).1, fun r => (h r).2⟩
  exact hask.elim (hq y).1 fun hask => absurd (hask r) ((h r).1.asks y)

end

theorem putsDown_remember (x y : SeatHolder) :
    (Command.rememberSeatHolder x).PutsDown y ↔ y = x := by
  rw [Command.PutsDown, Command.rememberSeatHolder.injEq, eq_comm]
  exact or_iff_left nofun

theorem putsDown_release (x y : SeatHolder) : (Command.releaseSeat x).PutsDown y ↔ y = x := by
  rw [Command.PutsDown, Command.releaseSeat.injEq, eq_comm (a := x)]
  exact or_iff_right nofun

theorem saveGrant_handles (id : String) (knock : GuestKnock) (grant : Grant) :
    HandlesHolding ⟨knock.roomId, grant.identity, knock.inviteId⟩ (saveGrant id knock grant) := by
  refine .ask () nofun (fun _ => rfl) (fun h => .inr ⟨_, h⟩) fun _ =>
    .ask () nofun (fun _ => rfl) (fun h => .inr ⟨_, h⟩) fun _ =>
    .ask () nofun (fun _ => rfl) (fun h => .inr ⟨_, h⟩) fun _ => ?_
  refine .putDown () (putsDown_remember _) (fun _ => rfl) (fun h => h) fun _ =>
    .ask () nofun (fun _ => rfl) .inl fun _ => .done _

variable (c : Config)

/-- From the signing of the token on, the approval has the seat in hand. -/
theorem mintGrant_holds (id : String) (user : User) (knock : GuestKnock) (r : ℕ × Identity) :
    HandlesHolding ⟨knock.roomId, r.2, knock.inviteId⟩ (do
      let callSessionId ← getOrCreateCallSessionId knock.roomId
      saveGrant id knock (grantOf c user knock r.1 r.2 callSessionId)) := by
  have hsave := fun session => saveGrant_handles id knock (grantOf c user knock r.1 r.2 session)
  refine .ask none nofun (fun _ => rfl) (fun h => .inr ⟨_, h⟩) fun session => ?_
  cases session with
  | none => exact .ask 0 nofun (fun _ => rfl) (fun h => .inr ⟨_, h⟩) hsave
  | some existing => exact hsave existing

/-- It is not determined which seat that is before the token is signed. -/
theorem mintGrant_handles (id : String) (user : User) (knock : GuestKnock) :
    (∀ y, ¬(mintGrant c id user knock).Asks (Command.PutsDown y)) ∧
      (mintGrant c id user knock).Along HandlesSeats := by
  have hholds := mintGrant_holds c id user knock
  refine ⟨fun y hask => hask.elim nofun fun hask => ?_, fun r => (hholds r).1,
    fun r => (hholds r).2⟩
  have h0 := ((hholds (0, .guest 0)).1.asks y).1 (hask _)
  have h1 := ((hholds (0, .guest 1)).1.asks y).1 (hask _)
  rw [h0] at h1
  cases h1

theorem consumeKnock_handles (id : String) (seen : GuestKnock) (consumer : Consumer)
    (inviteId : String) (b : Reply) : Handles (do
      let _ ← consumeKnock id seen consumer
      let _ ← command (.releaseKnockSlot inviteId id)
      return b) := by
  have hrelease : Handles (command (.releaseKnockSlot inviteId id) >>= fun _ => .done b) :=
    .ask () nofun (fun _ => rfl) .inl fun _ => .done b
  refine .ask none nofun (fun _ => rfl) .inl fun p => ?_
  cases p with
  | none => exact hrelease
  | some p => exact .ask () nofun (fun _ => rfl) .inl fun _ => hrelease

theorem Handles.ite {b : Prop} [Decidable b] {p p' : Route} (h : Handles p) (h' : Handles p') :
    Handles (if b then p else p') := by
  split_ifs <;> assumption

/-- A route that reads the knock first. -/
theorem Handles.getKnock {id : String} {f : GuestKnock → Route} (h : ∀ knock, Handles (f knock)) :
    Handles (do
      match ← command (.getKnock id) with
      | none => return .error 404 "KNOCK_NOT_FOUND"
      | some knock => f knock) :=
  .ask none nofun (fun _ => rfl) .inl fun r => match r with
    | none => .done _
    | some knock => h knock

theorem takeSeat_handles (id : String) (user : User) (knock : GuestKnock) :
    Handles (takeSeat c id user knock) := by
  refine .ite (.done _) (.ite (.done _) ?_)
  have hmint := mintGrant_handles c id user knock
  have hgone := consumeKnock_handles id knock .approve knock.inviteId (.error 409 "INVITE_GONE")
  refine ⟨⟨fun y hask => hask.elim nofun fun hask => hmint.1 y (hask true), fun _ _ => rfl⟩,
    ⟨hgone.1, hmint.1, fun _ _ => rfl⟩, fun taken => ?_⟩
  cases taken with
  | false => exact hgone.2
  | true => exact hmint.2

theorem approve_handles (id : String) (user : User) : Handles (approve c id user) := by
  refine .getKnock fun knock => .ite (.done _) (.ite (.done _) ?_)
  have htake := takeSeat_handles c id user knock
  cases knock.chatId with
  | none => exact htake
  | some chatId =>
    refine .ask true nofun (fun _ => rfl) .inl fun r => ?_
    cases r with
    | false => exact .done _
    | true => exact htake

theorem participantLeft_handles (roomId : String) (identity : Identity) :
    Handles (participantLeft roomId identity) := by
  cases identity with
  | member userId => exact .done _
  | guest random =>
    have hrelease : ∀ inviteId, HandlesHolding ⟨roomId, .guest random, inviteId⟩
        (command (.releaseSeat ⟨roomId, .guest random, inviteId⟩) >>= fun _ => .done .ok) :=
      fun inviteId => .putDown () (putsDown_release _) (fun _ => rfl) (fun h => h) fun _ => .done _
    refine .ask () nofun (fun _ => rfl) .inl fun _ => ?_
    refine ⟨⟨fun y hask => hask.elim nofun fun hask => (Idle.done .ok).asks y (hask none),
      fun _ _ => rfl⟩, ⟨.done .ok, fun inviteId => (hrelease inviteId).1⟩, fun seat => ?_⟩
    cases seat with
    | none => trivial
    | some inviteId => exact (hrelease inviteId).2

/-- Every request is received with no seat in hand. -/
theorem handle_handles (a : Request) : Handles (handle c a) := by
  cases a with
  | poll id secret =>
    exact .getKnock fun knock => .ite (.done _) (.ite (.done _) (consumeKnock_handles ..))
  | cancel id secret => exact .getKnock fun knock => .ite (.done _) (consumeKnock_handles ..)
  | approve id user => exact approve_handles c id user
  | deny id user =>
    exact .getKnock fun knock => .ite (.done _) (.ite (.done _)
      (.ask () nofun (fun _ => rfl) .inl fun _ => .ask () nofun (fun _ => rfl) .inl fun _ =>
        .ask () nofun (fun _ => rfl) .inl fun _ => .done _))
  | participantJoined roomId identity => exact .done _
  | participantLeft roomId identity => exact participantLeft_handles roomId identity
  | revoke id user => exact .ask true nofun (fun _ => rfl) .inl fun _ => .done _
  | revokeAll user => exact .ask 0 nofun (fun _ => rfl) .inl fun _ => .done _
  | world w => exact .ask () nofun (fun _ => rfl) .inl fun _ => .done _

/-! ## The commands on the knocks -/

/-- The store but for its knocks. -/
structure SameSeats (s s' : Store) : Prop where
  invites : s'.invites = s.invites
  seats : s'.seats = s.seats
  inRoom : s'.inRoom = s.inRoom
  now : s'.now = s.now
  random : s'.random = s.random
  issued : s'.history.issued = s.history.issued
  released : s'.history.released = s.history.released

theorem SameSeats.getKnock (s : Store) (id : String) : SameSeats s (s.getKnock c id).2 := by
  rw [Store.getKnock]
  split
  · exact ⟨rfl, rfl, rfl, rfl, rfl, rfl, rfl⟩
  · split_ifs <;> exact ⟨rfl, rfl, rfl, rfl, rfl, rfl, rfl⟩

theorem SameSeats.getdelKnock (s : Store) (id : String) (consumer : Consumer) :
    SameSeats s (s.getdelKnock id consumer) := by
  rw [Store.getdelKnock]
  split_ifs <;> exact ⟨rfl, rfl, rfl, rfl, rfl, rfl, rfl⟩

theorem SameSeats.expireKnock (s : Store) (id : String) :
    SameSeats s (s.world (.expireKnock id)) := by
  rw [Store.world]
  split_ifs <;> exact ⟨rfl, rfl, rfl, rfl, rfl, rfl, rfl⟩

/-! ## The count of a link -/

section
variable (i : String)

/-- The tokens signed for the seats of the link. -/
def Store.issuedFor (s : Store) : ℕ := s.history.issued.countP (·.holder.inviteId = i)

/-- The seats of the link that were given back. -/
def Store.releasedFor (s : Store) : ℕ := s.history.released.countP (·.inviteId = i)

/-- The count of the link, with `n` tokens about to be signed: no seat is counted less
    often than it was taken and not given back. -/
def Accounts (s : Store) (n : ℕ) : Prop :=
  ∀ invite, s.invites.get? i = some invite → 0 ≤ invite.usedCount ∧
    invite.usedCount ≤ invite.maxUses ∧
    (s.issuedFor i + n : ℤ) ≤ invite.usedCount + s.releasedFor i

variable {i} {s s' : Store} {n : ℕ}

/-- Nothing happens to the link. -/
theorem Accounts.same (h : Accounts i s n) (hinvites : s'.invites.get? i = s.invites.get? i)
    (hissued : s'.issuedFor i = s.issuedFor i) (hreleased : s'.releasedFor i = s.releasedFor i) :
    Accounts i s' n := by
  intro invite hinvite
  rw [hissued, hreleased]
  exact h invite (hinvites ▸ hinvite)

theorem Accounts.sameSeats (h : Accounts i s n) (hsame : SameSeats s s') : Accounts i s' n :=
  h.same (by rw [hsame.invites]) (by rw [Store.issuedFor, hsame.issued]; rfl)
    (by rw [Store.releasedFor, hsame.released]; rfl)

/-- The link is revoked, or not. -/
theorem Accounts.revoke (h : Accounts i s n)
    (hinvites : ∀ invite', s'.invites.get? i = some invite' → ∃ invite,
      s.invites.get? i = some invite ∧ invite'.usedCount = invite.usedCount ∧
      invite'.maxUses = invite.maxUses)
    (hhistory : s'.history = s.history) : Accounts i s' n := by
  intro invite' hinvite'
  obtain ⟨invite, hinvite, hused, hmax⟩ := hinvites invite' hinvite'
  rw [hused, hmax, Store.issuedFor, Store.releasedFor, hhistory]
  exact h invite hinvite

theorem Accounts.revoked (h : Accounts i s n) (inviteId userId : String) :
    Accounts i (s.revoke inviteId userId).2 n := by
  rw [Store.revoke]
  split
  · exact h
  · rename_i invite hinvite
    split_ifs
    · refine h.revoke (fun invite' hinvite' => ?_) rfl
      rw [InsMap.get?_set] at hinvite'
      split_ifs at hinvite' with hi
      · obtain rfl := Option.some.inj hinvite'
        exact ⟨invite, hi ▸ hinvite, rfl, rfl⟩
      · exact ⟨invite', hinvite', rfl, rfl⟩
    · exact h

theorem Accounts.revokedAll (h : Accounts i s n) (userId : String) :
    Accounts i { s with invites := s.invites.map (Store.revoked s.now userId) } n := by
  refine h.revoke (fun invite' hinvite' => ?_) rfl
  rw [InsMap.get?_map] at hinvite'
  obtain ⟨invite, hinvite, rfl⟩ := Option.map_eq_some_iff.1 hinvite'
  refine ⟨invite, hinvite, ?_⟩
  rw [Store.revoked]
  split_ifs <;> exact ⟨rfl, rfl⟩

theorem Accounts.consumeInviteSeat (h : Accounts i s n) (inviteId id : String) :
    Accounts i (s.consumeInviteSeat inviteId id).2
      (n + if (s.consumeInviteSeat inviteId id).1 ∧ inviteId = i then 1 else 0) := by
  rw [Store.consumeInviteSeat]
  split
  · exact h
  · rename_i invite hinvite
    split_ifs with hseat htaken htaken
    · obtain ⟨-, rfl⟩ := htaken
      intro invite' hinvite'
      obtain rfl := Option.some.inj ((InsMap.get?_set_self ..).symm.trans hinvite')
      obtain ⟨hpos, -, hle⟩ := h invite hinvite
      have hfree := hseat.2.2
      refine ⟨by dsimp only; omega, by dsimp only; omega, ?_⟩
      change (s.issuedFor inviteId + (n + 1 : ℕ) : ℤ) ≤
        invite.usedCount + 1 + s.releasedFor inviteId
      omega
    · exact h.same (InsMap.get?_set_ne _ _ fun hi => htaken ⟨rfl, hi.symm⟩) rfl rfl
    · exact htaken.1.elim
    · exact h

theorem Store.issuedFor_mint (inviteId roomId : String) (ttlSeconds : ℕ) :
    (s.mint inviteId roomId ttlSeconds).2.issuedFor i =
      s.issuedFor i + if inviteId = i then 1 else 0 := by
  rw [Store.issuedFor, Store.mint, List.countP_append, List.countP_singleton]
  simp only [decide_eq_true_eq]
  rfl

theorem Accounts.mint {inviteId : String}
    (h : Accounts i s ((if inviteId = i then 1 else 0) + n)) (roomId : String) (ttlSeconds : ℕ) :
    Accounts i (s.mint inviteId roomId ttlSeconds).2 n := by
  intro invite hinvite
  obtain ⟨hpos, hmax, hle⟩ := h invite hinvite
  refine ⟨hpos, hmax, ?_⟩
  rw [Store.issuedFor_mint]
  change _ ≤ invite.usedCount + (s.releasedFor i : ℤ)
  omega

theorem Accounts.releaseSeat (h : Accounts i s n) (holder : SeatHolder) :
    Accounts i (s.releaseSeat holder) n := by
  rw [Store.releaseSeat]
  split
  · exact h
  · rename_i invite hinvite
    have hreleased : ∀ s' : Store, s'.history.released = s.history.released ++ [holder] →
        s'.releasedFor i = s.releasedFor i + if holder.inviteId = i then 1 else 0 := by
      intro s' hs'
      rw [Store.releasedFor, hs', List.countP_append, List.countP_singleton]
      simp only [decide_eq_true_eq]
      rfl
    intro invite' hinvite'
    rw [hreleased _ rfl]
    by_cases hi : holder.inviteId = i
    · subst hi
      obtain rfl := Option.some.inj ((InsMap.get?_set_self ..).symm.trans hinvite')
      obtain ⟨hpos, hmax, hle⟩ := h invite hinvite
      rw [if_pos rfl]
      change 0 ≤ max (invite.usedCount - 1) 0 ∧ max (invite.usedCount - 1) 0 ≤ invite.maxUses ∧
        (s.issuedFor holder.inviteId + n : ℤ) ≤ max (invite.usedCount - 1) 0 + _
      omega
    · rw [if_neg hi]
      exact h invite' ((InsMap.get?_set_ne _ _ (Ne.symm hi)).symm.trans hinvite')

/-- A command keeps the accounts of a link, with the tokens that are about to be signed. -/
theorem Accounts.answer {q : Command} {next : q.Result → Route} (a : Request)
    (hmay : HandlesSeats q next) (h : Accounts i s (mints i q + n)) :
    Accounts i (s.answer c q).2
      (Service.weigh (fun _ => mints i) a (next (s.answer c q).1) + n) := by
  -- A command that neither signs a token nor takes a seat.
  have hidle : ∀ {s' : Store} {p : Route}, Idle p ∨ (∃ x, Holding x p) → Accounts i s' n →
      Accounts i s' (Service.weigh (fun _ => mints i) a p + n) := by
    rintro s' p hp h
    have hzero : Service.weigh (fun _ => mints i) a p = 0 :=
      hp.elim (fun hp => hp.mints a i) fun ⟨_, hp⟩ => hp.mints a i
    rw [hzero, Nat.zero_add]
    exact h
  have hother : ∀ {r : q.Result} {s' : Store}, ((∀ r, Idle (next r)) ∨
      ∃ x, Holding x (.ask q next) ∧ ∀ r, Holding x (next r)) → Accounts i s' n →
      Accounts i s' (Service.weigh (fun _ => mints i) a (next r) + n) := by
    rintro r s' hp h
    exact hidle (hp.imp (fun hp => hp r) fun ⟨x, hp⟩ => ⟨x, hp.2 r⟩) h
  have hn : mints i q = 0 → Accounts i s n := fun hq => by rwa [hq, Nat.zero_add] at h
  cases q with
  | consumeInviteSeat inviteId id seen =>
    have hseat := (hn rfl).consumeInviteSeat inviteId id
    change Accounts i (s.consumeInviteSeat inviteId id).2
      (Service.weigh _ a (next (s.consumeInviteSeat inviteId id).1) + n)
    cases htaken : (s.consumeInviteSeat inviteId id).1 with
    | false =>
      rw [htaken, if_neg fun h => Bool.false_ne_true h.1] at hseat
      exact hidle (.inl hmay.1) hseat
    | true =>
      rw [htaken, Nat.add_comm] at hseat
      rw [hmay.2.2 a i]
      simpa only [true_and] using hseat
  | mint inviteId roomId ttlSeconds => exact hidle (.inr ⟨_, hmay _⟩) (h.mint roomId ttlSeconds)
  | takeSeatHolder roomId identity =>
    change Accounts i _ (Service.weigh _ a (next (s.seats.get? (roomId, identity))) + n)
    cases s.seats.get? (roomId, identity) with
    | none => exact hidle (.inl hmay.1) ((hn rfl).same rfl rfl rfl)
    | some inviteId => exact hidle (.inr ⟨_, hmay.2 inviteId⟩) ((hn rfl).same rfl rfl rfl)
  | rememberSeatHolder holder => exact hidle (.inl (hmay ())) ((hn rfl).same rfl rfl rfl)
  | releaseSeat holder => exact hidle (.inl (hmay ())) ((hn rfl).releaseSeat holder)
  | getKnock id => exact hother hmay ((hn rfl).sameSeats (.getKnock c s id))
  | getdelKnock id seen consumer =>
    exact hother hmay ((hn rfl).sameSeats (.getdelKnock s id consumer))
  | revoke inviteId userId => exact hother hmay ((hn rfl).revoked inviteId userId)
  | revokeAll userId => exact hother hmay ((hn rfl).revokedAll userId)
  | world w =>
    refine hother hmay ?_
    cases w with
    | expireKnock id => exact (hn rfl).sameSeats (.expireKnock s id)
    | enter t =>
      change Accounts i (s.world (.enter t)) n
      rw [Store.world]
      split_ifs <;> exact (hn rfl).same rfl rfl rfl
    | _ => exact (hn rfl).same rfl rfl rfl
  | _ => exact hother hmay ((hn rfl).same rfl rfl rfl)

/-- In every run, the count of a link is between none and all of its seats, and no seat
    that was taken and not given back is missing from it. -/
theorem accounting_of_run {stmt : Store → Command → Prop} [∀ s q, Decidable (stmt s q)]
    {s : Service.State Store Command Command.Result Request Reply}
    (hs : (((server c).machine Store.IsInitial).restrict
      (Service.Orderly (fun _ _ => True) stmt)).Reachable s) :
    Accounts i s.store (s.inFlight fun _ => mints i) := by
  refine Service.invariant_inFlight (fun _ => mints i) (I := fun store n _ => Accounts i store n)
    (G := fun _ _ => True) (P := fun _ => HandlesSeats) (fun store h invite hinvite => ?_)
    (fun _ _ _ _ => trivial) (fun a => (handle_handles c a).2) ?_ ?_ hs
  · obtain ⟨hpos, hmax⟩ := h.invites i invite hinvite
    refine ⟨hpos, hmax, ?_⟩
    rw [Store.issuedFor, Store.releasedFor, h.history]
    change ((0 : ℕ) + (0 : ℕ) : ℤ) ≤ invite.usedCount + (0 : ℕ)
    omega
  · intro s n a _ h
    refine ⟨trivial, ?_⟩
    rw [show (server c).handle a = handle c a from rfl, (handle_handles c a).1.mints a i,
      Nat.zero_add]
    exact h
  · exact fun store n replies a q next _ hmay _ h => h.answer c a hmay

end

/-! ## One seat -/

/-- The guest is in the room, or may enter it with a token that has not expired. -/
def Store.Active (s : Store) (t : Issued) : Prop :=
  (t.holder.roomId, t.holder.identity) ∈ s.inRoom ∨ s.now < 1000 * t.exp

instance (s : Store) (t : Issued) : Decidable (s.Active t) :=
  inferInstanceAs (Decidable (_ ∨ _))

/-- Where a seat is given back only when its holder is out of the room, and the token has
    expired. -/
def GivenBack (s : Store) : Command → Prop
  | .releaseSeat holder => ∀ t ∈ s.history.issued, t.holder = holder → ¬s.Active t
  | _ => True

instance (s : Store) : ∀ q, Decidable (GivenBack s q)
  | .releaseSeat _ => inferInstanceAs (Decidable (∀ t ∈ s.history.issued, _))
  | .getKnock _ | .setKnock _ _ _ | .getdelKnock _ _ _ | .dropCreatorKnock _ _
  | .releaseKnockSlot _ _ | .selectMember _ _ | .consumeInviteSeat _ _ _ | .mint _ _ _
  | .getCallSession _ | .setCallSession _ | .rememberSeatHolder _ | .takeSeatHolder _ _
  | .recordGuestJoined _ _ | .recordGuestLeft _ _ | .revoke _ _ | .revokeAll _
  | .world _ => isTrue trivial

open Classical in
/-- A request that is going to put down the seat `x`. -/
noncomputable def inHand (x : SeatHolder) (p : Route) : ℕ :=
  if p.Asks (Command.PutsDown x) then 1 else 0

/-- The store remembers the holder of the seat. -/
def Store.remembers (s : Store) (x : SeatHolder) : ℕ :=
  if s.seats.get? (x.roomId, x.identity) = some x.inviteId then 1 else 0

/-- A seat, `n` requests having it in hand: it is in one place at most, from the signing of
    its token until it is given back. -/
structure SeatInv (x : SeatHolder) (s : Store) (n : ℕ) : Prop where
  fresh : ∀ t ∈ s.history.issued, ∃ k, k < s.random ∧ t.holder.identity = .guest k
  nodup : (s.history.issued.map (·.holder.identity)).Nodup
  place : s.remembers x + n + s.history.released.count x ≤
    s.history.issued.countP (·.holder = x)
  inactive : x ∈ s.history.released → ∀ t ∈ s.history.issued, t.holder = x → ¬s.Active t

section
variable {x y : SeatHolder} {s s' : Store} {n n' : ℕ} {p : Route}

theorem inHand_idle (h : Idle p) : inHand x p = 0 := by rw [inHand, if_neg (h.asks x)]

open Classical in
theorem inHand_holding (h : Holding y p) : inHand x p = if y = x then 1 else 0 := by
  rw [inHand]
  exact if_congr ((h.asks x).trans eq_comm) rfl rfl

/-- A token is signed once for a seat. -/
theorem SeatInv.once (h : SeatInv x s n) : s.history.issued.countP (·.holder = x) ≤ 1 := by
  refine Nat.le_trans ?_ (List.nodup_iff_count_le_one.1 h.nodup x.identity)
  rw [List.count, List.countP_map]
  refine List.countP_mono_left fun t _ ht => ?_
  rw [Function.comp_apply, of_decide_eq_true ht]
  exact beq_self_eq_true _

theorem SeatInv.eq_of_identity (h : SeatInv x s n) {t t' : Issued} (ht : t ∈ s.history.issued)
    (ht' : t' ∈ s.history.issued) (heq : t.holder.identity = t'.holder.identity) : t = t' :=
  List.inj_on_of_nodup_map h.nodup ht ht' heq

/-- No token is signed and no seat given back. -/
theorem SeatInv.mono (h : SeatInv x s n) (hrandom : s.random ≤ s'.random)
    (hissued : s'.history.issued = s.history.issued)
    (hreleased : s'.history.released = s.history.released)
    (hplace : s'.remembers x + n' ≤ s.remembers x + n)
    (hactive : ∀ t ∈ s.history.issued, s'.Active t → s.Active t) : SeatInv x s' n' where
  fresh t ht := by
    obtain ⟨k, hk, heq⟩ := h.fresh t (hissued ▸ ht)
    exact ⟨k, Nat.lt_of_lt_of_le hk hrandom, heq⟩
  nodup := hissued ▸ h.nodup
  place := by
    have hold := h.place
    rw [hissued, hreleased]
    omega
  inactive hx t ht heq ha :=
    h.inactive (hreleased ▸ hx) t (hissued ▸ ht) heq (hactive t (hissued ▸ ht) ha)

theorem SeatInv.sameSeats (h : SeatInv x s n) (hsame : SameSeats s s') (hn : n' ≤ n) :
    SeatInv x s' n' := by
  refine h.mono (Nat.le_of_eq hsame.random.symm) hsame.issued hsame.released ?_ fun t _ ha => ?_
  · rw [Store.remembers, Store.remembers, hsame.seats]
    exact Nat.add_le_add_left hn _
  · rw [Store.Active, hsame.inRoom, hsame.now] at ha
    exact ha

theorem SeatInv.mint {inviteId roomId : String} (h : SeatInv x s n) (ttlSeconds : ℕ)
    (hn : n' ≤ n + if (⟨roomId, .guest s.random, inviteId⟩ : SeatHolder) = x then 1 else 0) :
    SeatInv x (s.mint inviteId roomId ttlSeconds).2 n' := by
  refine ⟨fun t ht => ?_, ?_, ?_, fun hx t ht heq ha => ?_⟩
  · rcases List.mem_append.1 ht with ht | ht
    · obtain ⟨k, hk, hid⟩ := h.fresh t ht
      exact ⟨k, Nat.lt_succ_of_lt hk, hid⟩
    · obtain rfl := List.mem_singleton.1 ht
      exact ⟨s.random, Nat.lt_succ_self _, rfl⟩
  · rw [Store.mint, List.map_append, List.nodup_append]
    refine ⟨h.nodup, List.nodup_singleton _, fun a ha b hb => ?_⟩
    obtain ⟨t, ht, rfl⟩ := List.mem_map.1 ha
    obtain ⟨k, hk, hid⟩ := h.fresh t ht
    obtain rfl := List.mem_singleton.1 hb
    rw [hid]
    exact fun heq => absurd (Identity.guest.inj heq) (Nat.ne_of_lt hk)
  · have hold := h.place
    rw [Store.mint, List.countP_append, List.countP_singleton]
    simp only [decide_eq_true_eq]
    change s.remembers x + n' + s.history.released.count x ≤ _
    omega
  · rcases List.mem_append.1 ht with ht | ht
    · exact h.inactive hx t ht heq ha
    · -- The seat of a new token was not given back yet.
      obtain rfl := List.mem_singleton.1 ht
      have hpos : 0 < s.history.issued.countP (·.holder = x) := by
        have hcount : 0 < s.history.released.count x := List.count_pos_iff.2 hx
        have hold := h.place
        omega
      obtain ⟨t, ht, heq'⟩ := List.countP_pos_iff.1 hpos
      obtain ⟨k, hk, hid⟩ := h.fresh t ht
      rw [of_decide_eq_true heq', ← heq] at hid
      exact absurd (Identity.guest.inj hid) (Nat.ne_of_gt hk)

theorem Store.remembers_le_one (s : Store) (x : SeatHolder) : s.remembers x ≤ 1 := by
  rw [Store.remembers]
  split_ifs
  · exact Nat.le_refl 1
  · exact Nat.zero_le 1

theorem SeatInv.rememberSeatHolder (h : SeatInv x s n)
    (hn : n' + (if y = x then 1 else 0) ≤ n) :
    SeatInv x { s with seats := s.seats.set (y.roomId, y.identity) y.inviteId } n' := by
  refine h.mono (Nat.le_refl _) rfl rfl ?_ fun _ _ ha => ha
  have hle : Store.remembers { s with seats := s.seats.set (y.roomId, y.identity) y.inviteId } x ≤
      s.remembers x + if y = x then 1 else 0 := by
    by_cases hyx : y = x
    · rw [if_pos hyx]
      exact Nat.le_trans (Store.remembers_le_one _ x) (Nat.le_add_left ..)
    · rw [if_neg hyx, Nat.add_zero, Store.remembers, Store.remembers, InsMap.get?_set]
      by_cases hkey : (x.roomId, x.identity) = (y.roomId, y.identity)
      · -- Another seat of the same guest takes its place.
        have hinvite : some y.inviteId ≠ some x.inviteId := by
          obtain ⟨hroom, hid⟩ := Prod.ext_iff.1 hkey
          intro heq
          cases x
          cases y
          exact hyx (SeatHolder.mk.injEq .. ▸ ⟨hroom.symm, hid.symm, Option.some.inj heq⟩)
        rw [if_pos hkey, if_neg hinvite]
        exact Nat.zero_le _
      · exact Nat.le_of_eq (by rw [if_neg hkey])
  omega

theorem SeatInv.takeSeatHolder (h : SeatInv x s n) (roomId : String) (identity : Identity)
    (hn : n' ≤ n + if s.seats.get? (roomId, identity) = some x.inviteId ∧
      (x.roomId, x.identity) = (roomId, identity) then 1 else 0) :
    SeatInv x { s with seats := s.seats.delete (roomId, identity) } n' := by
  refine h.mono (Nat.le_refl _) rfl rfl ?_ fun _ _ ha => ha
  rw [Store.remembers, Store.remembers, InsMap.get?_delete]
  by_cases hkey : (x.roomId, x.identity) = (roomId, identity)
  · simp only [hkey, and_true] at hn
    simp only [hkey]
    simpa [Nat.add_comm] using hn
  · rw [if_neg hkey]
    rw [if_neg fun h => hkey h.2] at hn
    exact Nat.add_le_add_left hn _

theorem SeatInv.releaseSeat (h : SeatInv x s n) (hok : GivenBack s (.releaseSeat y))
    (hn : n' + (if y = x then 1 else 0) ≤ n) : SeatInv x (s.releaseSeat y) n' := by
  rw [Store.releaseSeat]
  split
  · exact h.mono (Nat.le_refl _) rfl rfl (Nat.add_le_add_left (by omega) _) fun _ _ ha => ha
  · refine ⟨h.fresh, h.nodup, ?_, fun hx t ht heq => ?_⟩
    · have hold := h.place
      change s.remembers x + n' + (s.history.released ++ [y]).count x ≤ _
      rw [List.count_append, List.count_singleton]
      simp only [beq_iff_eq]
      omega
    · rcases List.mem_append.1 hx with hx | hx
      · exact h.inactive hx t ht heq
      · obtain rfl := List.mem_singleton.1 hx
        exact hok t ht heq

theorem SeatInv.world (h : SeatInv x s n) (w : World) : SeatInv x (s.world w) n := by
  have hsame : ∀ {s'}, SameSeats s s' → SeatInv x s' n := fun hs => h.sameSeats hs (Nat.le_refl n)
  cases w with
  | elapse ms =>
    refine h.mono (Nat.le_refl _) rfl rfl (Nat.le_refl _) fun t _ ha => ha.imp_right fun hexp => ?_
    exact Nat.lt_of_le_of_lt (Nat.le_add_right _ ms) hexp
  | expireKnock id => exact hsame (.expireKnock s id)
  | expireSeat roomId identity =>
    exact h.takeSeatHolder roomId identity (Nat.le_add_right _ _)
  | setMembers members => exact h.mono (Nat.le_refl _) rfl rfl (Nat.le_refl _) fun _ _ ha => ha
  | dropCallSession roomId => exact h.mono (Nat.le_refl _) rfl rfl (Nat.le_refl _) fun _ _ ha => ha
  | enter t =>
    rw [Store.world]
    split_ifs with hvalid
    · refine h.mono (Nat.le_refl _) rfl rfl (Nat.le_refl _) fun t' ht' ha => ?_
      rcases ha with hin | hexp
      · rcases List.mem_cons.1 hin with heq | hin
        · -- The guest who enters has the token.
          obtain rfl := h.eq_of_identity ht' hvalid.1 (Prod.ext_iff.1 heq).2
          exact .inr hvalid.2
        · exact .inl hin
      · exact .inr hexp
    · exact h
  | leave roomId identity =>
    refine h.mono (Nat.le_refl _) rfl rfl (Nat.le_refl _) fun t _ ha => ha.imp_left fun hin => ?_
    exact (List.mem_filter.1 hin).1

/-- A command keeps a seat where it is, or moves it. -/
theorem SeatInv.answer {q : Command} {next : q.Result → Route} (hmay : HandlesSeats q next)
    (hok : GivenBack s q) (h : SeatInv x s (inHand x (.ask q next) + n)) :
    SeatInv x (s.answer c q).2 (inHand x (next (s.answer c q).1) + n) := by
  have hput : q.PutsDown x → inHand x (.ask q next) = 1 := fun hq => if_pos (.inl hq)
  -- A command that neither signs a token nor moves a seat.
  have hother : ∀ r, ((∀ r, Idle (next r)) ∨
      ∃ y, Holding y (.ask q next) ∧ ∀ r, Holding y (next r)) →
      inHand x (next r) + n ≤ inHand x (.ask q next) + n := by
    rintro r (hidle | ⟨y, hask, hnext⟩)
    · rw [inHand_idle (hidle r), Nat.zero_add]
      exact Nat.le_add_left ..
    · exact Nat.le_of_eq (by rw [inHand_holding hask, inHand_holding (hnext r)])
  have hkeep : ∀ {s' : Store} r, ((∀ r, Idle (next r)) ∨
      ∃ y, Holding y (.ask q next) ∧ ∀ r, Holding y (next r)) →
      SeatInv x s' (inHand x (.ask q next) + n) → SeatInv x s' (inHand x (next r) + n) :=
    fun r hmay h => h.mono (Nat.le_refl _) rfl rfl (Nat.add_le_add_left (hother r hmay) _)
      fun _ _ ha => ha
  have hplain : ∀ {s' : Store} r, ((∀ r, Idle (next r)) ∨
      ∃ y, Holding y (.ask q next) ∧ ∀ r, Holding y (next r)) → SameSeats s s' →
      SeatInv x s' (inHand x (next r) + n) :=
    fun r hmay hs => hkeep r hmay (h.sameSeats hs (Nat.le_refl _))
  cases q with
  | consumeInviteSeat inviteId id seen =>
    have hn : ∀ taken, inHand x (next taken) = 0 := by
      intro taken
      cases taken with
      | false => exact inHand_idle hmay.1
      | true => exact if_neg (hmay.2.1 x)
    rw [hn, Nat.zero_add]
    rw [Store.answer, Store.consumeInviteSeat]
    split
    · exact h.sameSeats ⟨rfl, rfl, rfl, rfl, rfl, rfl, rfl⟩ (Nat.le_add_left ..)
    · split_ifs
      · exact h.mono (Nat.le_refl _) rfl rfl (Nat.add_le_add_left (Nat.le_add_left ..) _)
          fun _ _ ha => ha
      · exact h.sameSeats ⟨rfl, rfl, rfl, rfl, rfl, rfl, rfl⟩ (Nat.le_add_left ..)
  | mint inviteId roomId ttlSeconds =>
    refine h.mint ttlSeconds ?_
    rw [inHand_holding (hmay _)]
    change (if (⟨roomId, .guest s.random, inviteId⟩ : SeatHolder) = x then 1 else 0) + n ≤ _
    omega
  | takeSeatHolder roomId identity =>
    refine h.takeSeatHolder roomId identity ?_
    change inHand x (next (s.seats.get? (roomId, identity))) + n ≤ _
    cases s.seats.get? (roomId, identity) with
    | none =>
      rw [inHand_idle hmay.1]
      omega
    | some inviteId =>
      have hle : inHand x (next (some inviteId)) ≤ if some inviteId = some x.inviteId ∧
          (x.roomId, x.identity) = (roomId, identity) then 1 else 0 := by
        rw [inHand_holding (hmay.2 inviteId)]
        split_ifs with heq hkey
        · exact Nat.le_refl 1
        · subst heq
          exact absurd ⟨rfl, rfl⟩ hkey
        · exact Nat.zero_le 1
        · exact Nat.zero_le 0
      omega
  | rememberSeatHolder holder =>
    refine h.rememberSeatHolder ?_
    rw [inHand_idle (hmay ())]
    split_ifs with heq
    · rw [hput ((putsDown_remember _ _).2 heq.symm)]
      omega
    · omega
  | releaseSeat holder =>
    refine h.releaseSeat hok ?_
    rw [inHand_idle (hmay ())]
    split_ifs with heq
    · rw [hput ((putsDown_release _ _).2 heq.symm)]
      omega
    · omega
  | getKnock id => exact hplain _ hmay (.getKnock c s id)
  | getdelKnock id seen consumer => exact hplain _ hmay (.getdelKnock s id consumer)
  | setCallSession roomId =>
    exact hkeep _ hmay (h.mono (Nat.le_succ _) rfl rfl (Nat.le_refl _) fun _ _ ha => ha)
  | revoke inviteId userId =>
    refine hkeep _ hmay ?_
    rw [Store.answer, Store.revoke]
    split
    · exact h
    · split_ifs
      · exact h.mono (Nat.le_refl _) rfl rfl (Nat.le_refl _) fun _ _ ha => ha
      · exact h
  | revokeAll userId =>
    exact hkeep _ hmay (h.mono (Nat.le_refl _) rfl rfl (Nat.le_refl _) fun _ _ ha => ha)
  | world w => exact hkeep _ hmay (h.world w)
  | _ => exact hplain _ hmay ⟨rfl, rfl, rfl, rfl, rfl, rfl, rfl⟩

end

/-- Along a run in which a seat is given back only when its guest is gone for good, a seat
    is in one place. -/
theorem seatInv_of_run (x : SeatHolder)
    {s : Service.State Store Command Command.Result Request Reply}
    (hs : (((server c).machine Store.IsInitial).restrict
      (Service.Orderly (fun _ _ => True) GivenBack)).Reachable s) :
    SeatInv x s.store (s.weight fun _ => inHand x) := by
  refine Service.invariant_weight (w := fun _ => inHand x) (fun _ b => inHand_idle (.done b))
    (I := fun store n _ => SeatInv x store n) (G := fun _ _ => True) (P := fun _ => HandlesSeats)
    (fun store h => ?_) (fun _ _ _ _ => trivial) (fun a => (handle_handles c a).2) ?_ ?_ hs
  · refine ⟨fun t ht => ?_, ?_, ?_, fun hx => ?_⟩
    · rw [h.history] at ht
      cases ht
    · rw [h.history]
      exact List.nodup_nil
    · rw [Store.remembers, h.seats, if_neg nofun, h.history]
      exact Nat.le_refl 0
    · rw [h.history] at hx
      cases hx
  · intro s n a _ h
    refine ⟨trivial, ?_⟩
    rw [show (server c).handle a = handle c a from rfl, inHand_idle (handle_handles c a).1,
      Nat.zero_add]
    exact h
  · exact fun store n replies a q next _ hmay hok h => h.answer c hmay hok

/-! ## Every run -/

/-- The seats of the links, and the guests who are in the rooms or may enter them. -/
def Seated (s : Store) : Prop :=
  ∀ i invite, s.invites.get? i = some invite → 0 ≤ invite.usedCount ∧
    invite.usedCount ≤ invite.maxUses ∧
    (s.history.issued.countP (fun t => t.holder.inviteId = i ∧ s.Active t) : ℤ) ≤ invite.usedCount

/-- The seats given back are those of guests who are gone for good. -/
theorem active_add_released {s : Store} (h : ∀ x, ∃ n, SeatInv x s n) (i : String) :
    s.history.issued.countP (fun t => t.holder.inviteId = i ∧ s.Active t) + s.releasedFor i ≤
      s.issuedFor i := by
  have hissued : ∀ x ∈ s.history.released, ∃ t ∈ s.history.issued, t.holder = x ∧ ¬s.Active t := by
    intro x hx
    obtain ⟨n, hinv⟩ := h x
    have hpos : 0 < s.history.issued.countP (·.holder = x) := by
      have hcount : 0 < s.history.released.count x := List.count_pos_iff.2 hx
      have hplace := hinv.place
      omega
    obtain ⟨t, ht, heq⟩ := List.countP_pos_iff.1 hpos
    exact ⟨t, ht, of_decide_eq_true heq, hinv.inactive hx t ht (of_decide_eq_true heq)⟩
  have hnodup : s.history.released.Nodup := by
    refine List.nodup_iff_count_le_one.2 fun x => ?_
    obtain ⟨n, hinv⟩ := h x
    have honce := hinv.once
    have hplace := hinv.place
    omega
  -- The seats given back are among those whose guests are gone.
  have hgone : s.releasedFor i ≤
      s.history.issued.countP fun t => t.holder.inviteId = i ∧ ¬s.Active t := by
    rw [Store.releasedFor, List.countP_eq_length_filter, List.countP_eq_length_filter,
      ← List.length_map Issued.holder]
    refine (List.subperm_of_subset (hnodup.filter _) fun x hx => ?_).length_le
    obtain ⟨hx, hi⟩ := List.mem_filter.1 hx
    obtain ⟨t, ht, rfl, hactive⟩ := hissued x hx
    exact List.mem_map.2 ⟨t, List.mem_filter.2
      ⟨ht, decide_eq_true ⟨of_decide_eq_true hi, hactive⟩⟩, rfl⟩
  have hsplit : s.history.issued.countP (fun t => t.holder.inviteId = i ∧ s.Active t) +
      s.history.issued.countP (fun t => t.holder.inviteId = i ∧ ¬s.Active t) = s.issuedFor i := by
    have hfilter := List.countP_eq_countP_filter_add s.history.issued
      (fun t => decide (t.holder.inviteId = i)) fun t => decide (s.Active t)
    rw [List.countP_filter, List.countP_filter] at hfilter
    rw [Store.issuedFor, hfilter]
    simp
  omega

/-- Along a run in which a seat is given back only when its holder is out of the room and
    the token has expired, the guests of a link have a seat each. -/
theorem seated_of_run {s : Service.State Store Command Command.Result Request Reply}
    (hs : (((server c).machine Store.IsInitial).restrict
      (Service.Orderly (fun _ _ => True) GivenBack)).Reachable s) : Seated s.store := by
  intro i invite hinvite
  obtain ⟨hpos, hmax, hle⟩ := accounting_of_run c hs invite hinvite
  have hactive := active_add_released (fun x => ⟨_, seatInv_of_run c x hs⟩) i
  refine ⟨hpos, hmax, ?_⟩
  omega

namespace SeatSample

open Sample

def knock (nickname : String) : GuestKnock :=
  ⟨"invite", "room", none, "host", nickname, "secret", true, .pending, none, 300000⟩

/-- Two guests knock, with a link that has one seat. -/
def store : Store where
  knocks := (InsMap.empty.set "first" (knock "first")).set "second" (knock "second")
  creatorKnocks := []
  slots := []
  invites := InsMap.empty.set "invite" ⟨"host", 1, 0, 86400000, none⟩
  seats := ∅
  sessions := ∅
  members := []
  now := 0
  random := 0
  inRoom := []
  history := .none

theorem store_isInitial : store.IsInitial where
  knocks id k h := by
    rw [store, InsMap.get?_set, InsMap.get?_set] at h
    split_ifs at h
    · obtain rfl := Option.some.inj h
      exact ⟨rfl, rfl⟩
    · obtain rfl := Option.some.inj h
      exact ⟨rfl, rfl⟩
    · cases h
  invites i invite h := by
    rw [store, InsMap.get?_set] at h
    split_ifs at h
    · obtain rfl := Option.some.inj h
      exact ⟨by decide, by decide⟩
    · cases h
  seats _ := rfl
  inRoom _ _ h := nomatch h
  history := rfl

/-- The tokens of the two guests. -/
def token (random : ℕ) : Issued := ⟨⟨"room", .guest random, "invite"⟩, 300⟩

/-- The first guest is approved, enters and leaves; the second one is approved and enters;
    the first one comes back. -/
def reentered : List (Service.Event Request) :=
  .receive (.approve "first" host) :: List.replicate 10 (.serve 0) ++
  [.receive (.world (.enter (token 0))), .serve 1,
    .receive (.world (.leave "room" (.guest 0))), .serve 2,
    .receive (.participantLeft "room" (.guest 0)), .serve 3, .serve 3, .serve 3,
    .receive (.approve "second" host)] ++ List.replicate 9 (.serve 4) ++
  [.receive (.world (.enter (token 2))), .serve 5, .receive (.world (.enter (token 0))), .serve 6]

/-- The first guest leaves, and the webhook comes once the token has expired. -/
def expired : List (Service.Event Request) :=
  .receive (.approve "first" host) :: List.replicate 10 (.serve 0) ++
  [.receive (.world (.enter (token 0))), .serve 1,
    .receive (.world (.leave "room" (.guest 0))), .serve 2,
    .receive (.world (.elapse 300000)), .serve 3,
    .receive (.participantLeft "room" (.guest 0)), .serve 4, .serve 4, .serve 4,
    .receive (.approve "second" host), .serve 5]

end SeatSample

section
open Sample SeatSample

/-- Two guests are in the room, with a link for one. -/
theorem two_on_one_seat : ¬∀ s, ((server config).machine Store.IsInitial).Reachable s →
    Seated s.store := by
  intro h
  have hrun : (((server config).machine Store.IsInitial).run (.start store) reentered).map
      (fun s => (s.store.inRoom, s.store.invites.get? "invite",
        s.store.history.issued.countP fun t =>
          t.holder.inviteId = "invite" ∧ s.store.Active t)) =
      some ([("room", .guest 0), ("room", .guest 2)],
        some ⟨"host", 1, 1, 86400000, none⟩, 2) := by decide
  obtain ⟨s, hs, hend⟩ := Option.map_eq_some_iff.1 hrun
  obtain ⟨-, hend⟩ := Prod.mk.inj hend
  obtain ⟨hinvite, hcount⟩ := Prod.mk.inj hend
  have hseated := (h s (Machine.reachable_of_run hs ⟨store, store_isInitial, rfl⟩)
    "invite" _ hinvite).2.2
  rw [hcount] at hseated
  exact absurd hseated (by decide)

theorem seated_of_run_expired : ∃ s,
    (((server config).machine Store.IsInitial).restrict
      (Service.Orderly (fun _ _ => True) GivenBack)).run (.start store) expired = some s ∧
    Seated s.store := by
  obtain ⟨s, hs, hreachable⟩ := Machine.exists_reachable (by decide :
    ((((server config).machine Store.IsInitial).restrict
      (Service.Orderly (fun _ _ => True) GivenBack)).run (.start store) expired).isSome)
    ⟨store, store_isInitial, rfl⟩
  exact ⟨s, hs, seated_of_run config hreachable⟩

end

end OneToThree.Guest
