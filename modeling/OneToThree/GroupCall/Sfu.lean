import Mathlib.Tactic.CasesM
import OneToThree.GroupCall.Manager

/-!
# A call over the SFU and the next one

The manager knows whether an SFU call is on by a flag of its own, which it sets after the join and
clears when the user leaves. An SFU room that ends by itself resets the store, but not the flag: the
next call, over the mesh or the relay, is taken for an SFU call, in which no participant is linked
and nothing is cleaned up (`ended_by_itself`).

`consistent_of_run`: in a run in which no room of the SFU is disconnected but after it was left, no
call is entered while one is on, and no call is left while an SFU call is being entered or left
(`Orderly`), the flag says whether a room is active, the participants of every other call are
linked, leaving one cleans up, and every announced join has its one leave.
-/

namespace OneToThree.GroupCall

/-- The awaits between the time that a room of the SFU is made and the flag is set, and between the
    flag is cleared and the room is left. -/
def Task.MovesSfu : Task → Bool
  | .sfuConnect _ _ _ | .sfuPublish _ _ _ | .sfuDisconnect _ _ _ | .sfuJoined _ | .sfuLeave => true
  | _ => false

/-- The awaits at which the store says that an SFU call is on, and the flag that it is not. -/
def Task.InSfuCall : Task → Bool
  | .sfuJoined _ | .sfuLeave => true
  | _ => false

namespace State

/-! ## What is proved -/

variable (s : State)

/-- No room of the SFU is being joined or left. -/
def Settled : Prop := ∀ i t, s.tasks.get? i = some t → t.MovesSfu = false

/-- A mesh or relay call is on. -/
structure InCall (room : RoomId) : Prop where
  isInGroupCall : s.isInGroupCall = true
  transport : s.transport ≠ .livekit
  roomId : s.roomId = some room

/-- A peer has a connection or a capture, or a capture is being started. -/
def Linked (peer : UserId) : Prop :=
  s.links.peerConnections.has peer = true ∨ s.links.relayCaptures.has peer = true ∨
    ∃ i stream, s.tasks.get? i = some (.captureKey peer stream)

/-- A peer will be linked, when the ICE servers are there. -/
def Announced (peer : UserId) : Prop :=
  ∃ i peers stream, s.tasks.get? i = some (.participants peers (some stream)) ∧ peer ∈ peers

structure Consistent : Prop where
  /-- The flag says whether a room of the SFU is active. -/
  flag : s.Settled → (s.livekitActive = true ↔ s.activeRoom.isSome = true)
  /-- The participants of a mesh or relay call are linked, at once or when the ICE servers are
      there. -/
  participants : ∀ room peers myUserId, s.InCall room → ∀ peer ∈ peers, peer ≠ myUserId →
    (s.handleParticipantList room peers myUserId).Linked peer ∨
      (s.handleParticipantList room peers myUserId).Announced peer
  linked : ∀ i peers stream s', s.tasks.get? i = some (.participants peers (some stream)) →
    s.step (.resume i .done) = some s' → ∀ peer ∈ peers, s'.Linked peer
  /-- Leaving a mesh or relay call disposes of the chains, and is announced. -/
  cleanup : ∀ room, s.InCall room → s.leaveGroupCall.media.groupVoiceHandle = none ∧
    s.leaveGroupCall.media.groupCamFx = none ∧
    s.leaveGroupCall.signals = s.signals ++ [.leave room]
  /-- The rooms that were joined were left, but for the one of the call that is on. -/
  announced : s.Settled → ∀ room, s.signals.count (.join room) =
    s.signals.count (.leave room) + if s.roomId = some room then 1 else 0

/-- What must not meet. -/
def Free (s : State) : Task → Outcome → Prop
  | .relayVoice _ _ _, .chain _ | .meshVoice _ _ _ none, .chain _ | .meshCamera _ _ _, .chain _
  | .sfuPublish _ _ _, .done => s.isInGroupCall = false
  | .sfuToken _ _ _, .done => s.activeRoom = none
  | .sfuDisconnect _ _ _, .failed => False
  | _, _ => True

instance (s : State) (t : Task) (o : Outcome) : Decidable (s.Free t o) := by
  unfold State.Free
  cases_type Task <;> cases_type Outcome <;>
    first | infer_instance | (cases_type Option <;> infer_instance)

end State

/-- The steps in which calls and rooms do not meet. -/
def Orderly (s : State) : Event → Prop
  | .resume i outcome => ∀ t ∈ s.tasks.get? i, s.Free t outcome
  | .leaveGroupCall => s.transport = .livekit → s.livekitActive = true
  | .disconnected _ => s.activeRoom = none ∧ s.isInGroupCall = false
  | _ => True

instance (s : State) (e : Event) : Decidable (Orderly s e) := by
  unfold Orderly
  cases_type Event <;> infer_instance

/-- The runs of the manager in which they do not. -/
abbrev orderly : Machine State Event := manager.restrict Orderly

/-! ## What holds of every run -/

namespace State

/-- The room whose join was announced last, and not its leave. -/
def present (s : State) : Option RoomId :=
  if s.transport = .livekit ∧ s.livekitActive = false then none else s.roomId

structure Coherent (s : State) : Prop where
  started : ∀ i t, s.tasks.get? i = some t → i < s.started
  /-- One function at a time moves the SFU, and a room is active then; otherwise the flag knows. -/
  one : ∀ i j t t', s.tasks.get? i = some t → s.tasks.get? j = some t' → t.MovesSfu = true →
    t'.MovesSfu = true → i = j
  moving : ∀ i t, s.tasks.get? i = some t → t.MovesSfu = true →
    s.activeRoom.isSome = true ∧ s.livekitActive = false
  active : s.activeRoom.isSome = true → s.livekitActive = true ∨
    ∃ i t, s.tasks.get? i = some t ∧ t.MovesSfu = true
  flag : s.livekitActive = true → s.activeRoom.isSome = true ∧ s.transport = .livekit
  sfuCall : ∀ i t, s.tasks.get? i = some t → t.InSfuCall = true → s.transport = .livekit
  transport : s.transport = .livekit → s.isInGroupCall = true ∧ (s.livekitActive = true ∨
    ∃ i t, s.tasks.get? i = some t ∧ t.InSfuCall = true)
  joined : ∀ i room, s.tasks.get? i = some (.sfuJoined room) → s.roomId = some room
  roomId : s.roomId.isSome = s.isInGroupCall
  stream : s.isInGroupCall = true → s.transport ≠ .livekit → s.localStream.isSome = true
  relay : s.groupRelayMode = true → s.isInGroupCall = true ∧ s.transport ≠ .livekit
  signals : ∀ room, s.signals.count (.join room) =
    s.signals.count (.leave room) + if s.present = some room then 1 else 0

section
variable {s : State} {t t' : Task} {i j : TaskId}

theorem get?_await (h : (s.await t).tasks.get? i = some t') :
    i = s.started ∧ t' = t ∨ s.tasks.get? i = some t' := by
  change (s.tasks.set s.started t).get? i = some t' at h
  rw [InsMap.get?_set] at h
  split_ifs at h with heq
  · exact .inl ⟨heq, (Option.some.inj h).symm⟩
  · exact .inr h

theorem await_get? (hs : ∀ i t, s.tasks.get? i = some t → i < s.started)
    (h : s.tasks.get? i = some t') : (s.await t).tasks.get? i = some t' :=
  (InsMap.get?_set_ne _ _ (Nat.ne_of_lt (hs i t' h))).trans h

theorem await_started : (s.await t).tasks.get? s.started = some t := InsMap.get?_set_self _ _ _

theorem get?_delete (h : (s.tasks.delete i).get? j = some t') :
    j ≠ i ∧ s.tasks.get? j = some t' := by
  rw [InsMap.get?_delete] at h
  split_ifs at h with heq
  exact ⟨heq, h⟩

theorem movesSfu_of_inSfuCall (h : t.InSfuCall = true) : t.MovesSfu = true := by
  cases t with
  | sfuJoined | sfuLeave => rfl
  | _ => cases h

/-- What the links and the media do is nothing to the SFU. -/
theorem Coherent.world (hs : s.Coherent) (links : Links) (media : Media) (fresh : ℕ) :
    { s with links := links, media := media, fresh := fresh }.Coherent :=
  ⟨hs.started, hs.one, hs.moving, hs.active, hs.flag, hs.sfuCall, hs.transport, hs.joined,
    hs.roomId, hs.stream, hs.relay, hs.signals⟩

/-- A function that does not move the SFU waits. -/
theorem Coherent.await (hs : s.Coherent) (ht : t.MovesSfu = false) : (s.await t).Coherent := by
  have hold : ∀ {i t'}, (s.await t).tasks.get? i = some t' → t'.MovesSfu = true →
      s.tasks.get? i = some t' := by
    intro i t' h hmoves
    rcases get?_await h with ⟨-, rfl⟩ | h
    · rw [ht] at hmoves
      cases hmoves
    · exact h
  refine {
    started := fun i t' h => ?_
    one := fun i j t1 t2 h1 h2 hm1 hm2 => hs.one i j t1 t2 (hold h1 hm1) (hold h2 hm2) hm1 hm2
    moving := fun i t' h hm => hs.moving i t' (hold h hm) hm
    active := fun h => (hs.active h).imp_right fun ⟨i, t', h, hm⟩ =>
      ⟨i, t', await_get? hs.started h, hm⟩
    flag := hs.flag
    sfuCall := fun i t' h hc => hs.sfuCall i t' (hold h (movesSfu_of_inSfuCall hc)) hc
    transport := fun h => ⟨(hs.transport h).1, (hs.transport h).2.imp_right fun ⟨i, t', h, hc⟩ =>
      ⟨i, t', await_get? hs.started h, hc⟩⟩
    joined := fun i room h => hs.joined i room (hold h rfl)
    roomId := hs.roomId
    stream := hs.stream
    relay := hs.relay
    signals := hs.signals }
  rcases get?_await h with ⟨rfl, -⟩ | h
  · exact Nat.lt_succ_self _
  · exact Nat.lt_succ_of_lt (hs.started i t' h)

/-- A function that does not move the SFU goes on. -/
theorem Coherent.wake (hs : s.Coherent) (hi : s.tasks.get? i = some t) (ht : t.MovesSfu = false) :
    { s with tasks := s.tasks.delete i }.Coherent := by
  have hkept : ∀ {j t'}, s.tasks.get? j = some t' → t'.MovesSfu = true →
      (s.tasks.delete i).get? j = some t' := by
    intro j t' hj hm
    refine (InsMap.get?_delete_ne _ ?_).trans hj
    rintro rfl
    rw [hi] at hj
    cases hj
    rw [ht] at hm
    cases hm
  exact {
    started := fun j t' h => hs.started j t' (get?_delete h).2
    one := fun j k t1 t2 h1 h2 => hs.one j k t1 t2 (get?_delete h1).2 (get?_delete h2).2
    moving := fun j t' h => hs.moving j t' (get?_delete h).2
    active := fun h => (hs.active h).imp_right fun ⟨j, t', h, hm⟩ => ⟨j, t', hkept h hm, hm⟩
    flag := hs.flag
    sfuCall := fun j t' h => hs.sfuCall j t' (get?_delete h).2
    transport := fun h => ⟨(hs.transport h).1, (hs.transport h).2.imp_right fun ⟨j, t', h, hc⟩ =>
      ⟨j, t', hkept h (movesSfu_of_inSfuCall hc), hc⟩⟩
    joined := fun j room h => hs.joined j room (get?_delete h).2
    roomId := hs.roomId
    stream := hs.stream
    relay := hs.relay
    signals := hs.signals }

/-- When the function that moves the SFU goes on, nobody else does. -/
theorem Coherent.alone (hs : s.Coherent) (hi : s.tasks.get? i = some t) (ht : t.MovesSfu = true)
    (h : (s.tasks.delete i).get? j = some t') : t'.MovesSfu = false := by
  obtain ⟨hne, hj⟩ := get?_delete h
  by_contra hm
  exact hne (hs.one j i t' t hj hi (by simpa using hm) ht)

/-- No function moves the SFU. -/
theorem Coherent.settled_of_flag (hs : s.Coherent) (h : s.livekitActive = true) : s.Settled := by
  intro i t hi
  by_contra hm
  have hflag := (hs.moving i t hi (by simpa using hm)).2
  rw [h] at hflag
  cases hflag

theorem Coherent.settled_of_activeRoom (hs : s.Coherent) (h : s.activeRoom = none) :
    s.Settled ∧ s.livekitActive = false := by
  refine ⟨fun i t hi => ?_, ?_⟩
  · by_contra hm
    have hroom := (hs.moving i t hi (by simpa using hm)).1
    rw [h] at hroom
    cases hroom
  · by_contra hflag
    have hroom := (hs.flag (by simpa using hflag)).1
    rw [h] at hroom
    cases hroom

/-- No call is on. -/
theorem Coherent.present_of_idle (hs : s.Coherent) (h : s.isInGroupCall = false) :
    s.roomId = none ∧ s.present = none := by
  have hroom : s.roomId = none := by
    have := hs.roomId
    rw [h] at this
    simpa using this
  refine ⟨hroom, ?_⟩
  rw [State.present, hroom, ite_self]

theorem Coherent.transport_of_idle (hs : s.Coherent) (h : s.isInGroupCall = false) :
    s.transport ≠ .livekit := by
  intro htransport
  have hcall := (hs.transport htransport).1
  rw [h] at hcall
  cases hcall

/-- A join that is announced when no room is present. -/
theorem signals_join {signals : List Signal} {room : RoomId}
    (h : ∀ room', signals.count (.join room') = signals.count (.leave room'))
    (room' : RoomId) : (signals ++ [Signal.join room]).count (.join room') =
      (signals ++ [Signal.join room]).count (.leave room') +
        if some room = some room' then 1 else 0 := by
  rw [List.count_append, List.count_append, h, List.count_singleton, List.count_singleton]
  by_cases hroom : room = room' <;> simp [hroom]

/-- The leave of the room that is present. -/
theorem signals_leave {signals : List Signal} {room : RoomId}
    (h : ∀ room', signals.count (.join room') =
      signals.count (.leave room') + if some room = some room' then 1 else 0)
    (room' : RoomId) : (signals ++ [Signal.leave room]).count (.join room') =
      (signals ++ [Signal.leave room]).count (.leave room') := by
  rw [List.count_append, List.count_append, h, List.count_singleton, List.count_singleton]
  by_cases hroom : room = room' <;> simp [hroom]

theorem Coherent.signals_none (hs : s.Coherent) (h : s.present = none) (room : RoomId) :
    s.signals.count (.join room) = s.signals.count (.leave room) := by
  have := hs.signals room
  rwa [h] at this

/-! ### Entering and leaving -/

/-- A mesh or relay call begins. -/
theorem Coherent.enter (hs : s.Coherent) (hidle : s.isInGroupCall = false) {transport : Transport}
    (htransport : transport ≠ .livekit) (room : RoomId) (stream : StreamId) (media : Media)
    (relay : Bool) :
    ({ s with media := media, groupRelayMode := relay }.enter room transport stream).Coherent := by
  have hno := hs.transport_of_idle hidle
  have hpresent : ({ s with media := media, groupRelayMode := relay }.enter room transport
      stream).present = some room := if_neg fun h => htransport h.1
  exact {
    started := hs.started
    one := hs.one
    moving := hs.moving
    active := hs.active
    flag := fun h => absurd (hs.flag h).2 hno
    sfuCall := fun i t h hc => absurd (hs.sfuCall i t h hc) hno
    transport := fun h => absurd h htransport
    joined := fun i room' h => absurd (hs.sfuCall i _ h rfl) hno
    roomId := rfl
    stream := fun _ _ => rfl
    relay := fun _ => ⟨rfl, htransport⟩
    signals := fun room' => by
      rw [hpresent]
      exact signals_join (hs.signals_none (hs.present_of_idle hidle).2) room' }

/-- The end of a mesh or relay call, if there is one. -/
theorem Coherent.cleanupAll (hs : s.Coherent) (htransport : s.transport ≠ .livekit) :
    s.cleanupAll.Coherent := by
  have hflag : s.livekitActive ≠ true := fun h => htransport (hs.flag h).2
  have hpresent : s.present = s.roomId := if_neg fun h => htransport h.1
  have hsignals : ∀ room, s.announceLeave.signals.count (.join room) =
      s.announceLeave.signals.count (.leave room) := by
    rw [State.announceLeave]
    split
    · rename_i room hroom
      refine signals_leave fun room' => ?_
      have := hs.signals room'
      rwa [hpresent, hroom] at this
    · rename_i hroom
      exact hs.signals_none (hpresent.trans hroom)
  have hannounce : s.announceLeave = { s with signals := s.announceLeave.signals } := by
    rw [State.announceLeave]
    split <;> rfl
  rw [State.cleanupAll, hannounce]
  exact {
    started := hs.started
    one := hs.one
    moving := hs.moving
    active := hs.active
    flag := fun h => absurd h hflag
    sfuCall := fun i t h hc => absurd (hs.sfuCall i t h hc) htransport
    transport := nofun
    joined := fun i room' h => absurd (hs.sfuCall i _ h rfl) htransport
    roomId := rfl
    stream := nofun
    relay := nofun
    signals := hsignals }

/-- The end of an SFU call begins. -/
theorem Coherent.leaveSfu (hs : s.Coherent) (hflag : s.livekitActive = true) :
    ({ s with livekitActive := false }.announceLeave.await .sfuLeave).Coherent := by
  obtain ⟨hactive, htransport⟩ := hs.flag hflag
  have hsettled := hs.settled_of_flag hflag
  obtain ⟨room, hroom⟩ : ∃ room, s.roomId = some room := by
    rw [← Option.isSome_iff_exists, hs.roomId]
    exact (hs.transport htransport).1
  have hpresent : s.present = some room := by
    rw [State.present, if_neg fun h => by rw [hflag] at h; cases h.2]
    exact hroom
  have hannounce : { s with livekitActive := false }.announceLeave =
      { s with livekitActive := false, signals := s.signals ++ [Signal.leave room] } := by
    rw [State.announceLeave]
    dsimp only
    rw [hroom]
    rfl
  rw [hannounce]
  have hnew : ∀ {i t}, ({ s with
      livekitActive := false
      signals := s.signals ++ [Signal.leave room] }.await .sfuLeave).tasks.get? i = some t →
      t.MovesSfu = true → i = s.started ∧ t = .sfuLeave := by
    intro i t h hm
    rcases get?_await h with h | h
    · exact h
    · rw [hsettled i t h] at hm
      cases hm
  refine {
    started := fun i t h => ?_
    one := fun i j t t' h h' hm hm' => (hnew h hm).1.trans (hnew h' hm').1.symm
    moving := fun i t h hm => ⟨hactive, rfl⟩
    active := fun _ => .inr ⟨s.started, .sfuLeave, await_started, rfl⟩
    flag := nofun
    sfuCall := fun _ _ _ _ => htransport
    transport := fun _ => ⟨(hs.transport htransport).1, .inr ⟨s.started, _, await_started, rfl⟩⟩
    joined := fun i room' h => by cases (hnew h rfl).2
    roomId := hs.roomId
    stream := hs.stream
    relay := hs.relay
    signals := fun room' => ?_ }
  · rcases get?_await h with ⟨rfl, -⟩ | h
    · exact Nat.lt_succ_self _
    · exact Nat.lt_succ_of_lt (hs.started i t h)
  · have hpresent' : ({ s with
        livekitActive := false
        signals := s.signals ++ [Signal.leave room] }.await .sfuLeave).present = none :=
      if_pos ⟨htransport, rfl⟩
    rw [hpresent']
    refine signals_leave (fun room' => ?_) room'
    have := hs.signals room'
    rwa [hpresent] at this

/-! ### Joining a room of the SFU -/

/-- A room of the SFU is made. -/
theorem Coherent.makeRoom (hs : s.Coherent) (hroom : s.activeRoom = none) (rooms : List SfuRoomId)
    (n : ℕ) (sfuRoom : SfuRoomId) (ht : t.MovesSfu = true) (hcall : t.InSfuCall = false) :
    ({ s with activeRoom := some sfuRoom, sfuRooms := rooms, fresh := n }.await t).Coherent := by
  obtain ⟨hsettled, hflag⟩ := hs.settled_of_activeRoom hroom
  have hnew : ∀ {i t'}, ({ s with
      activeRoom := some sfuRoom
      sfuRooms := rooms
      fresh := n }.await t).tasks.get? i = some t' → t'.MovesSfu = true →
      i = s.started ∧ t' = t := by
    intro i t' h hm
    rcases get?_await h with h | h
    · exact h
    · rw [hsettled i t' h] at hm
      cases hm
  have hno : s.transport ≠ .livekit := by
    intro htransport
    rcases (hs.transport htransport).2 with h | ⟨i, t', h, hc⟩
    · rw [hflag] at h
      cases h
    · have hm := movesSfu_of_inSfuCall hc
      rw [hsettled i t' h] at hm
      cases hm
  refine {
    started := fun i t' h => ?_
    one := fun i j t1 t2 h1 h2 hm1 hm2 => (hnew h1 hm1).1.trans (hnew h2 hm2).1.symm
    moving := fun i t' h hm => ⟨rfl, hflag⟩
    active := fun _ => .inr ⟨s.started, t, await_started, ht⟩
    flag := fun h => ⟨rfl, (hs.flag h).2⟩
    sfuCall := fun i t' h hc => ?_
    transport := fun h => absurd h hno
    joined := fun i room' h => by
      rw [← (hnew h rfl).2] at hcall
      cases hcall
    roomId := hs.roomId
    stream := hs.stream
    relay := hs.relay
    signals := hs.signals }
  · rcases get?_await h with ⟨rfl, -⟩ | h
    · exact Nat.lt_succ_self _
    · exact Nat.lt_succ_of_lt (hs.started i t' h)
  · rw [(hnew h (movesSfu_of_inSfuCall hc)).2, hcall] at hc
    cases hc

/-- No SFU call is on while a room of it is joined. -/
theorem Coherent.no_sfuCall (hs : s.Coherent) (hi : s.tasks.get? i = some t)
    (ht : t.MovesSfu = true) (hcall : t.InSfuCall = false) : s.transport ≠ .livekit := by
  intro htransport
  rcases (hs.transport htransport).2 with h | ⟨j, t', h, hc⟩
  · rw [(hs.moving i t hi ht).2] at h
    cases h
  · have hij := hs.one i j t t' hi h ht (movesSfu_of_inSfuCall hc)
    rw [← hij, hi] at h
    cases h
    rw [hcall] at hc
    cases hc

/-- The room is joined a step further, or to be disconnected. -/
theorem Coherent.move (hs : s.Coherent) (hi : s.tasks.get? i = some t) (ht : t.MovesSfu = true)
    (hcall : t.InSfuCall = false) (ht' : t'.MovesSfu = true) (hcall' : t'.InSfuCall = false)
    {localStream : Option StreamId}
    (hstream : localStream = s.localStream ∨ localStream.isSome = true) (n : ℕ) :
    ({ s with
      tasks := s.tasks.delete i
      localStream := localStream
      fresh := n }.await t').Coherent := by
  have hno := hs.no_sfuCall hi ht hcall
  have hnew : ∀ {j t1}, ({ s with
      tasks := s.tasks.delete i
      localStream := localStream
      fresh := n }.await t').tasks.get? j = some t1 → t1.MovesSfu = true →
      j = s.started ∧ t1 = t' := by
    intro j t1 h hm
    rcases get?_await h with h | h
    · exact h
    · rw [hs.alone hi ht h] at hm
      cases hm
  refine {
    started := fun j t1 h => ?_
    one := fun j k t1 t2 h1 h2 hm1 hm2 => (hnew h1 hm1).1.trans (hnew h2 hm2).1.symm
    moving := fun _ _ _ _ => hs.moving i t hi ht
    active := fun _ => .inr ⟨s.started, t', await_started, ht'⟩
    flag := hs.flag
    sfuCall := fun j t1 h hc => ?_
    transport := fun h => absurd h hno
    joined := fun j room' h => by
      rw [← (hnew h rfl).2] at hcall'
      cases hcall'
    roomId := hs.roomId
    stream := fun h h' => ?_
    relay := hs.relay
    signals := hs.signals }
  · rcases get?_await h with ⟨rfl, -⟩ | h
    · exact Nat.lt_succ_self _
    · exact Nat.lt_succ_of_lt (hs.started j t1 (get?_delete h).2)
  · rw [(hnew h (movesSfu_of_inSfuCall hc)).2, hcall'] at hc
    cases hc
  · rcases hstream with rfl | hsome
    · exact hs.stream h h'
    · exact hsome

/-- The room was joined. -/
theorem Coherent.enterSfu (hs : s.Coherent) (hi : s.tasks.get? i = some t) (ht : t.MovesSfu = true)
    (hidle : s.isInGroupCall = false) (room : RoomId) :
    ({ s with
      tasks := s.tasks.delete i
      isInGroupCall := true
      roomId := some room
      transport := .livekit }.await (.sfuJoined room)).Coherent := by
  obtain ⟨hactive, hflag⟩ := hs.moving i t hi ht
  have hnew : ∀ {j t'}, ({ s with
      tasks := s.tasks.delete i
      isInGroupCall := true
      roomId := some room
      transport := .livekit }.await (.sfuJoined room)).tasks.get? j = some t' →
      t'.MovesSfu = true → j = s.started ∧ t' = .sfuJoined room := by
    intro j t' h hm
    rcases get?_await h with h | h
    · exact h
    · rw [hs.alone hi ht h] at hm
      cases hm
  have hpresent : ({ s with
      tasks := s.tasks.delete i
      isInGroupCall := true
      roomId := some room
      transport := .livekit }.await (.sfuJoined room)).present = none := if_pos ⟨rfl, hflag⟩
  refine {
    started := fun j t' h => ?_
    one := fun j k t1 t2 h1 h2 hm1 hm2 => (hnew h1 hm1).1.trans (hnew h2 hm2).1.symm
    moving := fun _ _ _ _ => ⟨hactive, hflag⟩
    active := fun _ => .inr ⟨s.started, _, await_started, rfl⟩
    flag := fun h => ⟨hactive, rfl⟩
    sfuCall := fun _ _ _ _ => rfl
    transport := fun _ => ⟨rfl, .inr ⟨s.started, _, await_started, rfl⟩⟩
    joined := fun j room' h => by
      cases (hnew h rfl).2
      rfl
    roomId := rfl
    stream := fun _ h => absurd rfl h
    relay := fun h => ?_
    signals := fun room' => ?_ }
  · rcases get?_await h with ⟨rfl, -⟩ | h
    · exact Nat.lt_succ_self _
    · exact Nat.lt_succ_of_lt (hs.started j t' (get?_delete h).2)
  · have hcall := (hs.relay h).1
    rw [hidle] at hcall
    cases hcall
  · rw [hpresent]
    exact hs.signals_none (hs.present_of_idle hidle).2 room'

/-- The room is given up. -/
theorem Coherent.giveUp (hs : s.Coherent) (hi : s.tasks.get? i = some t) (ht : t.MovesSfu = true)
    (hcall : t.InSfuCall = false) :
    { s with tasks := s.tasks.delete i, activeRoom := none }.Coherent := by
  have hno := hs.no_sfuCall hi ht hcall
  have hmoves : ∀ {j t'}, (s.tasks.delete i).get? j = some t' → t'.MovesSfu ≠ true := by
    intro j t' h hm
    rw [hs.alone hi ht h] at hm
    cases hm
  exact {
    started := fun j t' h => hs.started j t' (get?_delete h).2
    one := fun _ _ _ _ h _ hm => absurd hm (hmoves h)
    moving := fun _ _ h hm => absurd hm (hmoves h)
    active := nofun
    flag := fun h => absurd (hs.flag h).2 hno
    sfuCall := fun _ _ h hc => absurd (movesSfu_of_inSfuCall hc) (hmoves h)
    transport := fun h => absurd h hno
    joined := fun _ _ h => absurd rfl (hmoves h)
    roomId := hs.roomId
    stream := hs.stream
    relay := hs.relay
    signals := hs.signals }

/-- The flag is set, and the join announced. -/
theorem Coherent.sfuJoined (hs : s.Coherent) {room : RoomId}
    (hi : s.tasks.get? i = some (.sfuJoined room)) :
    ({ s with tasks := s.tasks.delete i, livekitActive := true }.send (.join room)).Coherent := by
  obtain ⟨hactive, hflag⟩ := hs.moving i _ hi rfl
  have htransport := hs.sfuCall i _ hi rfl
  have hmoves : ∀ {j t'}, (s.tasks.delete i).get? j = some t' → t'.MovesSfu ≠ true := by
    intro j t' h hm
    rw [hs.alone hi rfl h] at hm
    cases hm
  have hpresent : ({ s with
      tasks := s.tasks.delete i
      livekitActive := true }.send (.join room)).present = some room :=
    (if_neg fun h => nomatch h.2).trans (hs.joined i room hi)
  exact {
    started := fun j t' h => hs.started j t' (get?_delete h).2
    one := fun _ _ _ _ h _ hm => absurd hm (hmoves h)
    moving := fun _ _ h hm => absurd hm (hmoves h)
    active := fun _ => .inl rfl
    flag := fun _ => ⟨hactive, htransport⟩
    sfuCall := fun _ _ h hc => absurd (movesSfu_of_inSfuCall hc) (hmoves h)
    transport := fun _ => ⟨(hs.transport htransport).1, .inl rfl⟩
    joined := fun _ _ h => absurd rfl (hmoves h)
    roomId := hs.roomId
    stream := hs.stream
    relay := hs.relay
    signals := fun room' => by
      rw [hpresent]
      exact signals_join (hs.signals_none (if_pos ⟨htransport, hflag⟩)) room' }

/-- The SFU call was left. -/
theorem Coherent.sfuLeft (hs : s.Coherent) (hi : s.tasks.get? i = some .sfuLeave) :
    { s with tasks := s.tasks.delete i, activeRoom := none }.reset.Coherent := by
  obtain ⟨-, hflag⟩ := hs.moving i _ hi rfl
  have htransport := hs.sfuCall i _ hi rfl
  have hmoves : ∀ {j t'}, (s.tasks.delete i).get? j = some t' → t'.MovesSfu ≠ true := by
    intro j t' h hm
    rw [hs.alone hi rfl h] at hm
    cases hm
  exact {
    started := fun j t' h => hs.started j t' (get?_delete h).2
    one := fun _ _ _ _ h _ hm => absurd hm (hmoves h)
    moving := fun _ _ h hm => absurd hm (hmoves h)
    active := nofun
    flag := fun h => absurd h (by
      change s.livekitActive ≠ true
      rw [hflag]
      exact nofun)
    sfuCall := fun _ _ h hc => absurd (movesSfu_of_inSfuCall hc) (hmoves h)
    transport := nofun
    joined := fun _ _ h => absurd rfl (hmoves h)
    roomId := rfl
    stream := nofun
    relay := fun h => absurd htransport (hs.relay h).2
    signals := hs.signals_none (if_pos ⟨htransport, hflag⟩) }

/-- A room that was left is disconnected. -/
theorem Coherent.disconnected (hs : s.Coherent) (hroom : s.activeRoom = none)
    (hidle : s.isInGroupCall = false) (rooms : List SfuRoomId) :
    { s.reset with activeRoom := none, sfuRooms := rooms }.Coherent := by
  obtain ⟨hsettled, hflag⟩ := hs.settled_of_activeRoom hroom
  have hmoves : ∀ {j t'}, s.tasks.get? j = some t' → t'.MovesSfu ≠ true := by
    intro j t' h hm
    rw [hsettled j t' h] at hm
    cases hm
  exact {
    started := hs.started
    one := fun _ _ _ _ h _ hm => absurd hm (hmoves h)
    moving := fun _ _ h hm => absurd hm (hmoves h)
    active := nofun
    flag := fun h => absurd h (by
      change s.livekitActive ≠ true
      rw [hflag]
      exact nofun)
    sfuCall := fun _ _ h hc => absurd (movesSfu_of_inSfuCall hc) (hmoves h)
    transport := nofun
    joined := fun _ _ h => absurd rfl (hmoves h)
    roomId := rfl
    stream := nofun
    relay := fun h => by
      have hcall := (hs.relay h).1
      rw [hidle] at hcall
      cases hcall
    signals := hs.signals_none (hs.present_of_idle hidle).2 }

/-! ### Links -/

theorem Coherent.startRelayCaptureForPeer (hs : s.Coherent) (peer : UserId) :
    (s.startRelayCaptureForPeer peer).Coherent := by
  rw [State.startRelayCaptureForPeer]
  split
  · split_ifs
    · exact hs
    · exact hs.await rfl
  · exact hs

theorem Coherent.link (hs : s.Coherent) (localStream : Option StreamId) (peer : UserId) :
    (State.link localStream s peer).Coherent := by
  rw [State.link]
  split_ifs
  · exact hs.startRelayCaptureForPeer peer
  · exact hs.world _ _ _
  · exact hs

theorem Coherent.links (hs : s.Coherent) (localStream : Option StreamId) (peers : List UserId) :
    (peers.foldl (State.link localStream) s).Coherent := by
  induction peers generalizing s with
  | nil => exact hs
  | cons peer peers ih => exact ih (hs.link localStream peer)

theorem Linked.await {peer : UserId} (hs : s.Coherent) (h : s.Linked peer) :
    (s.await t).Linked peer := by
  rcases h with h | h | ⟨i, stream, h⟩
  · exact .inl h
  · exact .inr (.inl h)
  · exact .inr (.inr ⟨i, stream, await_get? hs.started h⟩)

theorem Linked.link {peer : UserId} (hs : s.Coherent) (h : s.Linked peer)
    (localStream : Option StreamId) (peer' : UserId) :
    (State.link localStream s peer').Linked peer := by
  rw [State.link]
  split_ifs
  · rw [State.startRelayCaptureForPeer]
    split
    · split_ifs
      · exact h
      · exact h.await hs
    · exact h
  · refine h.imp_left fun h => ?_
    change (s.links.peerConnections.set peer' s.fresh).has peer = true
    rw [InsMap.has_set]
    simp [h]
  · exact h

/-- A participant that is announced in a call is linked. -/
theorem linked_link {localStream : Option StreamId} (hs : s.Coherent)
    (hstream : localStream.isSome = true) (peer : UserId) :
    (State.link localStream s peer).Linked peer := by
  rw [State.link]
  split_ifs with hrelay
  · obtain ⟨hcall, htransport⟩ := hs.relay hrelay
    obtain ⟨stream, hlocal⟩ := Option.isSome_iff_exists.1 (hs.stream hcall htransport)
    have hroom : s.roomId.isNone = false := by
      rw [Option.isNone_eq_false_iff, hs.roomId]
      exact hcall
    rw [State.startRelayCaptureForPeer, hlocal]
    dsimp only
    rw [hrelay, hroom]
    split_ifs with hhas
    · exact .inr (.inl hhas)
    · exact .inr (.inr ⟨s.started, stream, await_started⟩)
  · refine .inl ?_
    change (s.links.peerConnections.set peer s.fresh).has peer = true
    rw [InsMap.has_iff]
    exact ⟨_, InsMap.get?_set_self _ _ _⟩

theorem linked_links {localStream : Option StreamId} (hs : s.Coherent)
    (hstream : localStream.isSome = true) (peers : List UserId) :
    ∀ peer, s.Linked peer ∨ peer ∈ peers →
      (peers.foldl (State.link localStream) s).Linked peer := by
  induction peers generalizing s with
  | nil => exact fun peer h => h.resolve_right List.not_mem_nil
  | cons peer' peers ih =>
    intro peer h
    refine ih (hs.link localStream peer') peer ?_
    rcases h with h | h
    · exact .inl (h.link hs localStream peer')
    · rcases List.mem_cons.1 h with rfl | h
      · exact .inl (linked_link hs hstream peer)
      · exact .inr h

/-! ### Every step -/

theorem Coherent.meshFallback (hs : s.Coherent) (room : RoomId) (isVideo mesh : Bool) :
    (s.meshFallback room isVideo mesh).Coherent := by
  rw [State.meshFallback]
  split_ifs
  · exact hs.await rfl
  · exact hs

theorem Coherent.goOn {o : Outcome} {s' : State} (hs : s.Coherent) (hi : s.tasks.get? i = some t)
    (hfree : s.Free t o) (h : { s with tasks := s.tasks.delete i }.goOn t o = some s') :
    s'.Coherent := by
  cases t with
  | joinConfig room isVideo =>
    have hw := hs.wake hi rfl
    cases o with
    | config cfg =>
      rw [State.goOn] at h
      split_ifs at h <;> cases h
      · exact hw.await rfl
      · exact hw.await rfl
      · exact hw.meshFallback _ _ _
    | failed =>
      cases h
      exact hw.await rfl
    | _ => cases h
  | joinLoad room isVideo mesh =>
    have hw := hs.wake hi rfl
    cases o with
    | done =>
      rw [State.goOn] at h
      split_ifs at h <;> cases h
      · exact hw.meshFallback _ _ _
      · exact hw.await rfl
    | failed =>
      cases h
      exact hw.await rfl
    | _ => cases h
  | meshMedia room isVideo =>
    have hw := hs.wake hi rfl
    cases o with
    | media => cases isVideo <;> cases h <;> exact (hw.world _ _ _).await rfl
    | failed => cases isVideo <;> cases h <;> exact hw
    | _ => cases isVideo <;> cases h
  | meshVoice room stream mic camera =>
    have hw := hs.wake hi rfl
    cases o with
    | chain handle =>
      cases camera with
      | none =>
        cases h
        exact hw.enter hfree (by decide) room stream _ s.groupRelayMode
      | some camera =>
        cases h
        exact (hw.world _ _ _).await rfl
    | _ => cases camera <;> cases h
  | meshCamera room stream camera =>
    have hw := hs.wake hi rfl
    cases o with
    | chain handle =>
      cases h
      exact hw.enter hfree (by decide) room stream _ s.groupRelayMode
    | _ => cases h
  | relayMedia room =>
    have hw := hs.wake hi rfl
    cases o with
    | media =>
      cases h
      exact (hw.world _ _ _).await rfl
    | failed =>
      cases h
      exact hw
    | _ => cases h
  | relayVoice room stream mic =>
    have hw := hs.wake hi rfl
    cases o with
    | chain handle =>
      cases h
      exact hw.enter hfree (by decide) room stream _ true
    | _ => cases h
  | sfuToken room isVideo mesh =>
    have hw := hs.wake hi rfl
    cases o with
    | done =>
      cases h
      exact hw.makeRoom hfree _ _ _ rfl rfl
    | failed =>
      cases h
      exact hw.meshFallback _ _ _
    | _ => cases h
  | sfuConnect room isVideo mesh =>
    cases o with
    | done =>
      cases h
      exact hs.move hi rfl rfl rfl rfl (.inr rfl) _
    | failed =>
      cases h
      exact hs.move hi rfl rfl rfl rfl (.inl rfl) _
    | _ => cases h
  | sfuPublish room isVideo mesh =>
    cases o with
    | done =>
      cases h
      exact hs.enterSfu hi rfl hfree room
    | failed =>
      cases h
      exact hs.move hi rfl rfl rfl rfl (.inl rfl) _
    | _ => cases h
  | sfuDisconnect room isVideo mesh =>
    cases o with
    | done =>
      cases h
      exact (hs.giveUp hi rfl rfl).meshFallback _ _ _
    | failed => exact hfree.elim
    | _ => cases h
  | sfuJoined room =>
    cases o with
    | done =>
      cases h
      exact hs.sfuJoined hi
    | _ => cases h
  | sfuLeave =>
    cases o with
    | done =>
      cases h
      exact hs.sfuLeft hi
    | _ => cases h
  | participants peers localStream =>
    have hw := hs.wake hi rfl
    cases o with
    | done =>
      cases h
      exact hw.links localStream peers
    | failed =>
      cases h
      exact hw
    | _ => cases h
  | captureKey peer stream =>
    have hw := hs.wake hi rfl
    cases o with
    | done =>
      cases h
      exact hw.await rfl
    | failed =>
      cases h
      exact hw
    | _ => cases h
  | captureStart peer stream =>
    have hw := hs.wake hi rfl
    cases o with
    | done =>
      cases h
      exact hw.world _ _ _
    | failed =>
      cases h
      exact hw
    | _ => cases h
  | offerIce peer stream =>
    have hw := hs.wake hi rfl
    cases o with
    | done =>
      cases h
      exact (hw.world _ _ _).await rfl
    | failed =>
      cases h
      exact hw
    | _ => cases h
  | offerAnswer peer =>
    have hw := hs.wake hi rfl
    cases o with
    | done =>
      cases h
      exact hw
    | failed =>
      cases h
      exact hw.world _ _ _
    | _ => cases h
  | cameraMedia stream =>
    have hw := hs.wake hi rfl
    cases o with
    | media =>
      cases h
      exact (hw.world _ _ _).await rfl
    | failed =>
      cases h
      exact hw
    | _ => cases h
  | cameraEffects stream camera =>
    have hw := hs.wake hi rfl
    cases o with
    | chain handle =>
      cases h
      exact { hw.world s.links (s.media.cameraOn stream camera handle) s.fresh with
        stream := fun _ _ => rfl }
    | _ => cases h
  | screenMedia stream =>
    have hw := hs.wake hi rfl
    cases o with
    | screen video audio =>
      cases video with
      | true =>
        cases h
        exact hw.world _ _ _
      | false =>
        cases h
        exact hw
    | failed =>
      cases h
      exact hw
    | _ => cases h

theorem Coherent.step {e : Event} {s' : State} (hs : s.Coherent) (hok : Orderly s e)
    (h : s.step e = some s') : s'.Coherent := by
  cases e with
  | joinGroupCall room isVideo =>
    cases h
    rw [State.joinGroupCall]
    split_ifs
    · exact hs
    · exact hs.await rfl
  | leaveGroupCall =>
    cases h
    rw [State.leaveGroupCall]
    split_ifs with hflag
    · exact hs.leaveSfu hflag
    · exact hs.cleanupAll fun htransport => hflag (hok htransport)
  | handleParticipantList room participants myUserId =>
    cases h
    rw [State.handleParticipantList]
    split_ifs
    · exact hs
    · exact hs.links _ _
    · exact hs.await rfl
  | handleMemberJoin room user =>
    cases h
    rw [State.handleMemberJoin]
    split_ifs
    · exact hs
    · exact hs.startRelayCaptureForPeer user
  | handleMemberLeave room user =>
    cases h
    rw [State.handleMemberLeave]
    split_ifs
    · exact hs
    · exact hs.world _ _ _
  | handleGroupCallOffer room fromUser =>
    cases h
    rw [State.handleGroupCallOffer]
    split
    · split_ifs
      · exact hs
      · exact hs.await rfl
      · exact hs.await rfl
    · exact hs
  | toggleGroupCallVideo =>
    cases h
    rw [State.toggleGroupCallVideo]
    split
    · split_ifs
      · exact hs
      · split
        · exact hs.world _ _ _
        · exact hs.await rfl
    · exact hs
  | startGroupCallScreenShare =>
    cases h
    rw [State.startGroupCallScreenShare]
    split
    · split_ifs
      · exact hs
      · exact hs.await rfl
    · exact hs
  | stopGroupCallScreenShare =>
    cases h
    rw [State.stopGroupCallScreenShare]
    split_ifs
    · exact hs
    · exact hs.world _ _ _
  | connectionLost pc =>
    obtain ⟨peer, -, rfl⟩ := Option.map_eq_some_iff.1 h
    exact hs.world _ _ _
  | trackEnded id =>
    cases h
    exact hs.world _ _ _
  | disconnected room =>
    rw [State.step] at h
    split_ifs at h
    cases h
    exact hs.disconnected hok.1 hok.2 _
  | resume i outcome =>
    obtain ⟨t, ht, hgoOn⟩ := Option.bind_eq_some_iff.1 h
    exact hs.goOn ht (hok t ht) hgoOn

/-! ### What the claim says -/

theorem Coherent.livekitActive_of_inCall (hs : s.Coherent) {room : RoomId} (h : s.InCall room) :
    s.livekitActive = false := by
  by_contra hflag
  exact h.transport (hs.flag (by simpa using hflag)).2

theorem Coherent.participants (hs : s.Coherent) {room : RoomId} (h : s.InCall room)
    {peers : List UserId} {peer myUserId : UserId} (hpeer : peer ∈ peers) (hne : peer ≠ myUserId) :
    (s.handleParticipantList room peers myUserId).Linked peer ∨
      (s.handleParticipantList room peers myUserId).Announced peer := by
  have hmem : peer ∈ peers.filter (· ≠ myUserId) :=
    List.mem_filter.2 ⟨hpeer, decide_eq_true hne⟩
  have hstream := hs.stream h.isInGroupCall h.transport
  rw [State.handleParticipantList, h.roomId, hs.livekitActive_of_inCall h]
  simp only [ne_eq, not_true_eq_false, decide_false, Bool.or_self, Bool.false_eq_true, if_false]
  split_ifs
  · exact .inl (linked_links hs hstream _ peer (.inr hmem))
  · obtain ⟨stream, hlocal⟩ := Option.isSome_iff_exists.1 hstream
    exact .inr ⟨s.started, _, stream, hlocal ▸ await_started, hmem⟩

theorem Coherent.linked (hs : s.Coherent) {peers : List UserId} {stream : StreamId} {s' : State}
    (hi : s.tasks.get? i = some (.participants peers (some stream)))
    (h : s.step (.resume i .done) = some s') : ∀ peer ∈ peers, s'.Linked peer := by
  obtain ⟨t, ht, hgoOn⟩ := Option.bind_eq_some_iff.1 h
  rw [hi] at ht
  cases ht
  cases hgoOn
  exact fun peer hpeer => linked_links (hs.wake hi rfl) rfl peers peer (.inr hpeer)

theorem Coherent.cleanup (hs : s.Coherent) {room : RoomId} (h : s.InCall room) :
    s.leaveGroupCall.media.groupVoiceHandle = none ∧ s.leaveGroupCall.media.groupCamFx = none ∧
      s.leaveGroupCall.signals = s.signals ++ [.leave room] := by
  rw [State.leaveGroupCall, hs.livekitActive_of_inCall h]
  refine ⟨rfl, rfl, ?_⟩
  change s.announceLeave.signals = _
  rw [State.announceLeave, h.roomId]
  rfl

theorem Coherent.consistent (hs : s.Coherent) : s.Consistent where
  flag hsettled := by
    refine ⟨fun h => (hs.flag h).1, fun h => (hs.active h).resolve_right ?_⟩
    rintro ⟨i, t, hi, hm⟩
    rw [hsettled i t hi] at hm
    cases hm
  participants room peers myUserId h peer := hs.participants h
  linked i peers stream s' := hs.linked
  cleanup room := hs.cleanup
  announced hsettled room := by
    have hpresent : s.present = s.roomId := by
      refine if_neg fun ⟨htransport, hflag⟩ => ?_
      rcases (hs.transport htransport).2 with h | ⟨i, t, hi, hc⟩
      · rw [hflag] at h
        cases h
      · have hm := movesSfu_of_inSfuCall hc
        rw [hsettled i t hi] at hm
        cases hm
    rw [hs.signals room, hpresent]

end

end State

theorem coherent {s : State} (hs : orderly.Reachable s) : s.Coherent := by
  refine Machine.Invariant.reachable (I := State.Coherent) ⟨?_, ?_⟩ hs
  · rintro s rfl
    exact ⟨nofun, nofun, nofun, nofun, nofun, nofun, nofun, nofun, rfl, nofun, nofun, fun _ => rfl⟩
  · intro s e s' hs hstep
    obtain ⟨hok, hstep⟩ := Machine.restrict_step.1 hstep
    exact hs.step hok hstep

/-- An SFU call that is over leaves the next call alone: the flag is right, participants are
    linked, leaving cleans up, and every join has its leave. -/
theorem consistent_of_run {s : State} (hs : orderly.Reachable s) : s.Consistent :=
  (coherent hs).consistent

namespace Sample

def sfu : CallConfig := ⟨false, false, true, true⟩
def noSfu : CallConfig := ⟨false, false, false, true⟩

/-- A call over the SFU in the room 1. -/
def sfuCall : List Event :=
  [.joinGroupCall 1 false, .resume 0 (.config sfu), .resume 1 .done, .resume 2 .done,
    .resume 3 .done, .resume 4 .done, .resume 5 .done]

/-- The SFU ends it, and the user 7 joins a mesh call in the room 2, in which 8 is, and leaves. -/
def endedByItself : List Event :=
  sfuCall ++ [.disconnected 0, .joinGroupCall 2 false, .resume 6 (.config noSfu), .resume 7 .media,
    .resume 8 (.chain true), .handleParticipantList 2 [7, 8] 7, .leaveGroupCall]

/-- Calls over the SFU and the mesh, with a participant. -/
def inTurn : List Event :=
  sfuCall ++ [.leaveGroupCall, .resume 6 .done, .disconnected 0, .joinGroupCall 2 false,
    .resume 7 (.config noSfu), .resume 8 .media, .resume 9 (.chain true),
    .handleParticipantList 2 [7, 8] 7, .resume 10 .done, .leaveGroupCall]

end Sample

/-- After the SFU has ended its call, the mesh call has no link and is left without a cleanup, and
    the room of the SFU call was never left. -/
theorem ended_by_itself :
    (∃ s, manager.run .idle (Sample.sfuCall ++ [.disconnected 0]) = some s ∧ s.tasks.size = 0 ∧
      s.livekitActive = true ∧ s.activeRoom = none) ∧
    ∃ s, manager.run .idle Sample.endedByItself = some s ∧
      s.links.peerConnections.size = 0 ∧ s.tasks.entries.map Prod.snd = [.sfuLeave] ∧
      s.media.groupVoiceHandle = some 3 ∧ s.signals = [.join 1, .join 2, .leave 2] := by
  refine ⟨?_, ?_⟩ <;> decide

theorem consistent_of_run_inTurn :
    ∃ s, orderly.run .idle Sample.inTurn = some s ∧ s.Consistent := by
  obtain ⟨s, hrun, hs⟩ := Machine.exists_reachable
    (by decide : (orderly.run .idle Sample.inTurn).isSome) rfl
  exact ⟨s, hrun, consistent_of_run hs⟩

end OneToThree.GroupCall
