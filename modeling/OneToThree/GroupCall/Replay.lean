import OneToThree.GroupCall.RelayAudio

/-!
# Frames of relayed audio and the calls they were meant for

The key of two members for a room is the same in all of their calls there, and both counters start
again whenever one of them leaves or is said to have left. Then a member seals another frame under
a number that it used before, and a listener plays frames of an earlier call, or twice
(`played_again`); it plays a frame twice as well if its copy comes while the frame is opened.

`fresh_of_run`: in a run in which no member goes on sending to a peer in a room after the counter
of the peer was reset, and a frame is opened only in the room it came for, above the counter as it
is then, where its sender sealed nothing for the listener before this stay and nothing of it was
played before the counter was reset (`Fresh`), the frames that are played were sealed during the
stay, none is played twice, and no number is used twice.
-/

namespace OneToThree.GroupCall.Relay

/-! ## What is proved -/

/-- A frame that a listener has played. -/
structure Play where
  frame : Frame
  /-- It was sealed during the stay in the call that the listener was in. -/
  current : Bool
  deriving DecidableEq

structure Watch where
  /-- The frames that were sealed before the counter for their recipient was reset. -/
  spent : List Frame
  /-- The frames that were sealed before their recipient's stay in a call. -/
  stale : List Frame
  plays : List Play
  /-- What was played before the counter of its sender was reset. -/
  past : List Play

/-- Two frames of a sender for a recipient in a room. -/
def Frame.Alike (f g : Frame) : Prop :=
  f.aad.room = g.aad.room ∧ f.aad.fromId = g.aad.fromId ∧ f.aad.toId = g.aad.toId

instance (f g : Frame) : Decidable (f.Alike g) := by
  unfold Frame.Alike
  infer_instance

/-- A member resets its counters for a peer. -/
def Event.resets (m : Member) : Event → UserId → Bool
  | .leaveGroupCall _, _ => true
  | .memberLeave _ room user, peer => m.roomId = some room && user = peer
  | _, _ => false

/-- A member begins or ends a stay. -/
def Event.moves : Event → Bool
  | .join _ _ _ | .leaveGroupCall _ => true
  | _ => false

/-- The frame that an event opens. -/
def Event.opened (m : Member) : Event → Option Frame
  | .resume me i true =>
    match m.tasks.get? i with
    | some (.frameOpen room fromUserId frame seq key) =>
      if (decryptBytes key frame (Member.inboundAad me room fromUserId seq)).isSome then some frame
      else none
    | _ => none
  | _ => none

namespace Watch

/-- What an event of the member `m` makes of the history. -/
def recordMember (h : Watch) (n : Network) (e : Event) (m : Member) : Watch where
  spent := h.spent ++ n.sealed.filter fun f =>
    f.aad.fromId = e.member && e.resets m f.aad.toId
  stale := h.stale ++ if e.moves then n.sealed.filter (·.aad.toId = e.member) else []
  plays := h.plays ++ (e.opened m).toList.map fun f =>
    ⟨f, f ∈ n.sealed && f ∉ h.stale && m.roomId = some f.aad.room⟩
  past := h.past ++ h.plays.filter fun x =>
    x.frame.aad.toId = e.member && e.resets m x.frame.aad.fromId

def record (h : Watch) (n : Network) (e : Event) (_ : Network) : Watch :=
  (n.members.get? e.member).elim h (h.recordMember n e)

end Watch

/-- What a member may seal and open. -/
structure Member.Free (n : Network) (h : Watch) (m : Member) (e : Event) : Prop where
  /-- It has sealed no frame for this peer in this room before the counter was reset. -/
  unspent : ∀ f ∈ Network.newFrame m e, ∀ g ∈ h.spent, ¬g.Alike f
  /-- It is still in the room that the frame came for, -/
  room : ∀ f ∈ e.opened m, m.roomId = some f.aad.room
  /-- the number is still above the counter, -/
  above : ∀ f ∈ e.opened m, (m.relaySeqIn.get? f.aad.fromId).getD 0 < f.aad.seq
  /-- nothing of the sender was played in the room before the counter was reset, -/
  unplayed : ∀ f ∈ e.opened m, ∀ x ∈ h.past, ¬x.frame.Alike f
  /-- and a member who sent it had sealed nothing for the listener before this stay. -/
  unsealed : ∀ f ∈ e.opened m, n.members.has f.aad.fromId = true → ∀ g ∈ h.stale, ¬g.Alike f

instance (n : Network) (h : Watch) (m : Member) (e : Event) : Decidable (m.Free n h e) :=
  decidable_of_iff
    ((∀ f ∈ Network.newFrame m e, ∀ g ∈ h.spent, ¬g.Alike f) ∧
      (∀ f ∈ e.opened m, m.roomId = some f.aad.room) ∧
      (∀ f ∈ e.opened m, (m.relaySeqIn.get? f.aad.fromId).getD 0 < f.aad.seq) ∧
      (∀ f ∈ e.opened m, ∀ x ∈ h.past, ¬x.frame.Alike f) ∧
      ∀ f ∈ e.opened m, n.members.has f.aad.fromId = true → ∀ g ∈ h.stale, ¬g.Alike f)
    ⟨fun ⟨h1, h2, h3, h4, h5⟩ => ⟨h1, h2, h3, h4, h5⟩,
      fun h => ⟨h.unspent, h.room, h.above, h.unplayed, h.unsealed⟩⟩

def Fresh (p : Network × Watch) (e : Event) : Prop :=
  ∀ m ∈ p.1.members.get? e.member, m.Free p.1 p.2 e

instance (p : Network × Watch) (e : Event) : Decidable (Fresh p e) := by
  unfold Fresh
  infer_instance

/-- The runs of the members and the server in which frames are fresh. -/
abbrev fresh : Machine (Network × Watch) Event :=
  (network.withHistory ⟨[], [], [], []⟩ Watch.record).restrict Fresh

/-! ## What a member keeps -/

theorem deriveSharedSecret_known {n : Network} {f : Frame} {own peer : UserId} {room : RoomId}
    (hkey : f.key = deriveSharedSecret own peer room) (hf : f.Known n)
    (hown : n.members.has own = true) (hpeer : n.members.has peer = true) : f ∈ n.sealed := by
  have hlo : n.members.has f.key.lo = true := by
    rw [hkey]
    change n.members.has (min own peer) = true
    rw [Nat.min_def]
    split_ifs <;> assumption
  have hhi : n.members.has f.key.hi = true := by
    rw [hkey]
    change n.members.has (max own peer) = true
    rw [Nat.max_def]
    split_ifs <;> assumption
  rcases hf with hf | hf | hf
  · exact hf
  · rw [hlo] at hf
    cases hf
  · rw [hhi] at hf
    cases hf

def Task.Ok (n : Network) (me : UserId) : Task → Prop
  | .frameKey _ fromUserId frame _ key | .frameOpen _ fromUserId frame _ key =>
    frame.Known n ∧ ∃ room, key = deriveSharedSecret me fromUserId room
  | _ => True

/-- The keys of a member are its own, and what it waits for came from the server. -/
structure Member.Ok (n : Network) (me : UserId) (m : Member) : Prop where
  keys : ∀ peer key, m.relayKeys.get? peer = some key →
    ∃ room, key = deriveSharedSecret me peer room
  tasks : ∀ i t, m.tasks.get? i = some t → t.Ok n me

namespace Member

section
variable {n : Network} {m m' : Member} {me peer : UserId} {t : Task}

theorem Ok.await (hm : m.Ok n me) (ht : t.Ok n me) : (m.await t).Ok n me := by
  refine ⟨hm.keys, fun i t' h => ?_⟩
  change (m.tasks.set m.fresh t).get? i = some t' at h
  rw [InsMap.get?_set] at h
  split_ifs at h
  · cases h
    exact ht
  · exact hm.tasks i t' h

theorem Ok.promised (hm : m.Ok n me) (room : RoomId) :
    ∃ room', m.promised me peer room = deriveSharedSecret me peer room' := by
  rw [Member.promised]
  cases hkey : m.relayKeys.get? peer with
  | none => exact ⟨room, rfl⟩
  | some key => exact hm.keys peer key hkey

theorem Ok.resolveRelaySharedKey (hm : m.Ok n me) (room : RoomId) :
    (m.resolveRelaySharedKey me peer room).Ok n me := by
  refine ⟨fun peer' key h => ?_, hm.tasks⟩
  change (m.relayKeys.set peer (m.promised me peer room)).get? peer' = some key at h
  rw [InsMap.get?_set] at h
  split_ifs at h with heq
  · cases h
    exact heq ▸ hm.promised room
  · exact hm.keys peer' key h

/-- What neither the keys nor the functions that wait are concerned by. -/
theorem Ok.of_eq (hm : m.Ok n me) (hkeys : m'.relayKeys = m.relayKeys)
    (htasks : m'.tasks = m.tasks) : m'.Ok n me :=
  ⟨hkeys ▸ hm.keys, htasks ▸ hm.tasks⟩

theorem stopCapture_eq (m : Member) (capture : CaptureId) :
    ∃ captures, m.stopCapture capture = { m with captures := captures } := by
  rw [stopCapture]
  split
  · exact ⟨_, rfl⟩
  · exact ⟨m.captures, rfl⟩

theorem stopRelayPeer_eq (m : Member) (peer : UserId) :
    ∃ captures, m.stopRelayPeer peer = { m with
      captures := captures
      relayCaptures := m.relayCaptures.delete peer
      relayKeys := m.relayKeys.delete peer
      relaySeqOut := m.relaySeqOut.delete peer
      relaySeqIn := m.relaySeqIn.delete peer } := by
  rw [stopRelayPeer]
  split
  · rename_i capture hcapture
    obtain ⟨captures, hstop⟩ := stopCapture_eq m capture
    rw [hstop]
    exact ⟨captures, rfl⟩
  · exact ⟨m.captures, rfl⟩

theorem Ok.stopRelayPeer (hm : m.Ok n me) (peer : UserId) : (m.stopRelayPeer peer).Ok n me := by
  obtain ⟨captures, hstop⟩ := stopRelayPeer_eq m peer
  rw [hstop]
  refine ⟨fun peer' key h => ?_, hm.tasks⟩
  change (m.relayKeys.delete peer).get? peer' = some key at h
  rw [InsMap.get?_delete] at h
  split_ifs at h
  exact hm.keys peer' key h

theorem Ok.stopRelayPeers (hm : m.Ok n me) (peers : List UserId) :
    (peers.foldl Member.stopRelayPeer m).Ok n me := by
  induction peers generalizing m with
  | nil => exact hm
  | cons peer peers ih => exact ih (hm.stopRelayPeer peer)

theorem Ok.startRelayCaptureForPeer (hm : m.Ok n me) (peer : UserId) :
    (m.startRelayCaptureForPeer me peer).Ok n me := by
  rw [Member.startRelayCaptureForPeer]
  split
  · split_ifs
    · exact hm
    · exact (hm.resolveRelaySharedKey _).await trivial
  · exact hm

theorem Ok.goOn (hm : m.Ok n me) (ht : t.Ok n me) (ok : Bool) : (m.goOn me t ok).Ok n me := by
  cases ok with
  | false =>
    cases t with
    | sealing id =>
      rw [Member.goOn]
      split
      · exact hm.of_eq rfl rfl
      · exact hm
    | _ => exact hm
  | true =>
    cases t with
    | captureKey => exact hm.await trivial
    | captureStart => exact hm.of_eq rfl rfl
    | sealing id =>
      rw [Member.goOn]
      split
      · exact hm.of_eq rfl rfl
      · exact hm
    | frameKey => exact hm.await ht
    | frameOpen =>
      rw [Member.goOn]
      split_ifs
      · exact hm.of_eq rfl rfl
      · exact hm

/-! The counters. -/

theorem startRelayCaptureForPeer_seq :
    (m.startRelayCaptureForPeer me peer).relaySeqOut = m.relaySeqOut ∧
      (m.startRelayCaptureForPeer me peer).relaySeqIn = m.relaySeqIn := by
  rw [Member.startRelayCaptureForPeer]
  split
  · split_ifs <;> exact ⟨rfl, rfl⟩
  · exact ⟨rfl, rfl⟩

end

end Member

namespace Network

section
variable {n : Network} {m m' : Member} {e : Event}

/-- What a member does at an event keeps its keys and what it waits for. -/
theorem act_ok (hm : m.Ok n e.member) (h : n.act m e = some m') : m'.Ok n e.member := by
  cases e with
  | join me room relay =>
    cases h
    exact hm.of_eq rfl rfl
  | leaveGroupCall me =>
    cases h
    exact ⟨nofun, (hm.stopRelayPeers _).tasks⟩
  | participantList me room participants =>
    cases h
    have hfold : ∀ (peers : List UserId) (m : Member), m.Ok n me →
        (peers.foldl (Member.startRelayCaptureForPeer · me) m).Ok n me := by
      intro peers
      induction peers with
      | nil => exact fun _ hm => hm
      | cons peer peers ih => exact fun m hm => ih _ (hm.startRelayCaptureForPeer peer)
    rw [Member.handleParticipantList]
    split_ifs
    · exact hm
    · exact hfold _ m hm
  | memberJoin me room user =>
    cases h
    rw [Member.handleMemberJoin]
    split_ifs
    · exact hm
    · exact hm.startRelayCaptureForPeer user
  | memberLeave me room user =>
    cases h
    rw [Member.handleMemberLeave]
    split_ifs
    · exact hm
    · exact hm.stopRelayPeer user
  | relayFrame me room fromUserId frame seq =>
    rw [Network.act] at h
    split_ifs at h with hknown
    cases h
    cases seq with
    | none => exact hm
    | some seq =>
      rw [Member.handleGroupCallRelayFrame]
      split_ifs
      · exact hm
      · exact hm
      · exact (hm.resolveRelaySharedKey _).await ⟨hknown, hm.promised room⟩
  | chunk me id pcm =>
    obtain ⟨c, -, rfl⟩ := Option.map_eq_some_iff.1 h
    rw [Member.chunk]
    split_ifs
    · exact Member.Ok.await (hm.of_eq rfl rfl) trivial
    · exact hm
  | resume me i ok =>
    obtain ⟨t, ht, rfl⟩ := Option.map_eq_some_iff.1 h
    have hdelete : ({ m with tasks := m.tasks.delete i } : Member).Ok n me := by
      refine ⟨hm.keys, fun j t' h => ?_⟩
      change (m.tasks.delete i).get? j = some t' at h
      rw [InsMap.get?_delete] at h
      split_ifs at h
      exact hm.tasks j t' h
    exact hdelete.goOn (hm.tasks i t ht) ok

/-- The counters after an event that neither seals nor opens a frame. -/
theorem seq_goOn (m : Member) (me : UserId) (t : Task) (ok : Bool) :
    (m.goOn me t ok).relaySeqOut = m.relaySeqOut ∧ ((m.goOn me t ok).relaySeqIn = m.relaySeqIn ∨
      ∃ room fromUserId frame seq key, t = .frameOpen room fromUserId frame seq key ∧ ok = true ∧
        (decryptBytes key frame (Member.inboundAad me room fromUserId seq)).isSome = true ∧
        (m.goOn me t ok).relaySeqIn = m.relaySeqIn.set fromUserId seq) := by
  cases ok with
  | false =>
    cases t with
    | sealing id =>
      rw [Member.goOn]
      split <;> exact ⟨rfl, .inl rfl⟩
    | _ => exact ⟨rfl, .inl rfl⟩
  | true =>
    cases t with
    | frameOpen room fromUserId frame seq key =>
      rw [Member.goOn]
      split_ifs with hopen
      · exact ⟨rfl, .inr ⟨room, fromUserId, frame, seq, key, rfl, rfl, hopen, rfl⟩⟩
      · exact ⟨rfl, .inl rfl⟩
    | sealing id =>
      rw [Member.goOn]
      split <;> exact ⟨rfl, .inl rfl⟩
    | _ => exact ⟨rfl, .inl rfl⟩

theorem seq_participantList {me : UserId} {room : RoomId} {participants : List UserId} :
    (m.handleParticipantList me room participants).relaySeqOut = m.relaySeqOut ∧
      (m.handleParticipantList me room participants).relaySeqIn = m.relaySeqIn := by
  have hfold : ∀ (peers : List UserId) (m : Member),
      (peers.foldl (Member.startRelayCaptureForPeer · me) m).relaySeqOut = m.relaySeqOut ∧
        (peers.foldl (Member.startRelayCaptureForPeer · me) m).relaySeqIn = m.relaySeqIn := by
    intro peers
    induction peers with
    | nil => exact fun _ => ⟨rfl, rfl⟩
    | cons peer peers ih =>
      intro m
      obtain ⟨hout, hin⟩ := ih (m.startRelayCaptureForPeer me peer)
      exact ⟨hout.trans Member.startRelayCaptureForPeer_seq.1,
        hin.trans Member.startRelayCaptureForPeer_seq.2⟩
  rw [Member.handleParticipantList]
  split_ifs
  · exact ⟨rfl, rfl⟩
  · exact hfold _ m

theorem seq_memberJoin {me : UserId} {room : RoomId} {user : UserId} :
    (m.handleMemberJoin me room user).relaySeqOut = m.relaySeqOut ∧
      (m.handleMemberJoin me room user).relaySeqIn = m.relaySeqIn := by
  rw [Member.handleMemberJoin]
  split_ifs
  · exact ⟨rfl, rfl⟩
  · exact Member.startRelayCaptureForPeer_seq

theorem seq_memberLeave {me room user peer : ℕ}
    (hresets : (Event.memberLeave me room user).resets m peer = false) :
    (m.handleMemberLeave room user).relaySeqOut.get? peer = m.relaySeqOut.get? peer ∧
      (m.handleMemberLeave room user).relaySeqIn.get? peer = m.relaySeqIn.get? peer := by
  rw [Member.handleMemberLeave]
  split_ifs with hroom
  · exact ⟨rfl, rfl⟩
  · obtain ⟨captures, hstop⟩ := Member.stopRelayPeer_eq m user
    have hne : peer ≠ user := by
      rintro rfl
      rw [not_not] at hroom
      rw [Event.resets, hroom] at hresets
      simp at hresets
    rw [hstop]
    exact ⟨InsMap.get?_delete_ne _ hne, InsMap.get?_delete_ne _ hne⟩

theorem seq_relayFrame {me : UserId} {room : RoomId} {fromUserId : UserId} {frame : Frame}
    {seq : Option ℕ} :
    (m.handleGroupCallRelayFrame me room fromUserId frame seq).relaySeqOut = m.relaySeqOut ∧
      (m.handleGroupCallRelayFrame me room fromUserId frame seq).relaySeqIn = m.relaySeqIn := by
  cases seq with
  | none => exact ⟨rfl, rfl⟩
  | some seq =>
    rw [Member.handleGroupCallRelayFrame]
    split_ifs <;> exact ⟨rfl, rfl⟩

/-- A frame that is sealed has the number after the counter, which becomes it. -/
theorem act_newFrame {f : Frame} (h : n.act m e = some m') (hf : f ∈ newFrame m e) :
    f.aad.fromId = e.member ∧
      f.aad.seq = (m.relaySeqOut.get? f.aad.toId).getD 0 + 1 ∧
      m'.relaySeqOut.get? f.aad.toId = some f.aad.seq := by
  cases e with
  | chunk me id pcm =>
    obtain ⟨c, hc, rfl⟩ := Option.map_eq_some_iff.1 h
    obtain ⟨c', hc', hsealed⟩ := Option.bind_eq_some_iff.1 hf
    rw [hc] at hc'
    cases hc'
    split_ifs at hsealed with hseals
    cases hsealed
    rw [Member.chunk, if_pos hseals]
    exact ⟨rfl, rfl, InsMap.get?_set_self _ _ _⟩
  | _ => cases hf

theorem decryptBytes_isSome {key : Key} {frame : Frame} {aad : Aad} :
    (decryptBytes key frame aad).isSome = true ↔ frame.key = key ∧ frame.aad = aad := by
  rw [decryptBytes]
  split_ifs with hopen
  · exact ⟨fun _ => hopen, fun _ => rfl⟩
  · exact ⟨nofun, fun h => absurd h hopen⟩

/-- The function that opens a frame. -/
theorem opened_iff {f : Frame} : f ∈ e.opened m ↔ ∃ me i room fromUserId seq key,
    e = .resume me i true ∧ m.tasks.get? i = some (.frameOpen room fromUserId f seq key) ∧
      f.key = key ∧ f.aad = Member.inboundAad me room fromUserId seq := by
  constructor
  · intro hf
    cases e with
    | resume me i ok =>
      cases ok with
      | false => cases hf
      | true =>
        rw [Event.opened] at hf
        split at hf
        · rename_i room fromUserId frame seq key ht
          split_ifs at hf with hopen
          · cases hf
            exact ⟨me, i, room, fromUserId, seq, key, rfl, ht, decryptBytes_isSome.1 hopen⟩
          · cases hf
        · cases hf
    | _ => cases hf
  · rintro ⟨me, i, room, fromUserId, seq, key, rfl, ht, hopen⟩
    rw [Event.opened, ht]
    exact if_pos (decryptBytes_isSome.2 hopen)

/-- A frame that is opened is for the member, and its number becomes the counter. -/
theorem act_opened {f : Frame} (h : n.act m e = some m') (hf : f ∈ e.opened m) :
    f.aad.toId = e.member ∧ m'.relaySeqIn.get? f.aad.fromId = some f.aad.seq ∧
      (m.Ok n e.member → f.Known n ∧
        ∃ room, f.key = deriveSharedSecret e.member f.aad.fromId room) := by
  obtain ⟨me, i, room, fromUserId, seq, key, rfl, ht, hkey, haad⟩ := opened_iff.1 hf
  obtain ⟨t, ht', rfl⟩ := Option.map_eq_some_iff.1 h
  rw [ht] at ht'
  cases ht'
  refine ⟨by rw [haad]; rfl, ?_, fun hm => ?_⟩
  · rw [Member.goOn, if_pos (decryptBytes_isSome.2 ⟨hkey, haad⟩), haad]
    exact InsMap.get?_set_self _ _ _
  · obtain ⟨hknown, room', hroom'⟩ := hm.tasks i _ ht
    rw [haad]
    exact ⟨hknown, room', hkey.trans hroom'⟩

/-- The counters of a peer that are not reset change by the frames that are sealed and opened. -/
theorem act_seq {peer : UserId} (h : n.act m e = some m') (hresets : e.resets m peer = false) :
    (m'.relaySeqOut.get? peer = m.relaySeqOut.get? peer ∨
      ∃ f ∈ newFrame m e, f.aad.toId = peer) ∧
    (m'.relaySeqIn.get? peer = m.relaySeqIn.get? peer ∨
      ∃ f ∈ e.opened m, f.aad.fromId = peer) := by
  have hsame : m'.relaySeqOut = m.relaySeqOut ∧ m'.relaySeqIn = m.relaySeqIn →
      (m'.relaySeqOut.get? peer = m.relaySeqOut.get? peer ∨
        ∃ f ∈ newFrame m e, f.aad.toId = peer) ∧
      (m'.relaySeqIn.get? peer = m.relaySeqIn.get? peer ∨
        ∃ f ∈ e.opened m, f.aad.fromId = peer) := fun ⟨hout, hin⟩ =>
    ⟨.inl (by rw [hout]), .inl (by rw [hin])⟩
  cases e with
  | join =>
    cases h
    exact hsame ⟨rfl, rfl⟩
  | leaveGroupCall => cases hresets
  | participantList =>
    cases h
    exact hsame seq_participantList
  | memberJoin =>
    cases h
    exact hsame seq_memberJoin
  | memberLeave =>
    cases h
    obtain ⟨hout, hin⟩ := seq_memberLeave hresets
    exact ⟨.inl hout, .inl hin⟩
  | relayFrame =>
    rw [Network.act] at h
    split_ifs at h
    cases h
    exact hsame seq_relayFrame
  | chunk me id pcm =>
    obtain ⟨c, hc, rfl⟩ := Option.map_eq_some_iff.1 h
    rw [Member.chunk]
    split_ifs with hseals
    · refine ⟨?_, .inl rfl⟩
      by_cases hpeer : peer = c.peer
      · refine .inr ⟨m.sealed me c pcm, ?_, hpeer.symm⟩
        rw [newFrame, hc, Option.bind_some, if_pos hseals]
        rfl
      · exact .inl (InsMap.get?_set_ne _ _ hpeer)
    · exact ⟨.inl rfl, .inl rfl⟩
  | resume me i ok =>
    obtain ⟨t, ht, rfl⟩ := Option.map_eq_some_iff.1 h
    obtain ⟨hout, hin⟩ := seq_goOn { m with tasks := m.tasks.delete i } me t ok
    rcases hin with hin | ⟨room, fromUserId, frame, seq, key, rfl, rfl, hopen, hin⟩
    · exact hsame ⟨hout, hin⟩
    · refine ⟨.inl (by rw [hout]), ?_⟩
      by_cases hpeer : peer = fromUserId
      · have hkey := decryptBytes_isSome.1 hopen
        refine .inr ⟨frame, opened_iff.2 ⟨me, i, room, fromUserId, seq, key, rfl, ht, hkey⟩, ?_⟩
        rw [hkey.2, hpeer]
        rfl
      · rw [hin]
        exact .inl (InsMap.get?_set_ne _ _ hpeer)

/-- The outbound counter of a peer does not go back, unless it is reset. -/
theorem act_relaySeqOut {peer k : ℕ} (h : n.act m e = some m')
    (hk : m.relaySeqOut.get? peer = some k) (hresets : e.resets m peer = false) :
    ∃ k', m'.relaySeqOut.get? peer = some k' ∧ k ≤ k' := by
  rcases (act_seq h hresets).1 with hsame | ⟨f, hf, rfl⟩
  · exact ⟨k, hsame.trans hk, Nat.le_refl k⟩
  · obtain ⟨-, hseq, hout⟩ := act_newFrame h hf
    refine ⟨_, hout, ?_⟩
    rw [hseq, hk]
    exact Nat.le_succ k

/-- The inbound counter of a peer does not go back, unless it is reset or a frame is opened below
    it. -/
theorem act_relaySeqIn {peer k : ℕ} (h : n.act m e = some m')
    (hk : m.relaySeqIn.get? peer = some k) (hresets : e.resets m peer = false)
    (habove : ∀ f ∈ e.opened m, (m.relaySeqIn.get? f.aad.fromId).getD 0 < f.aad.seq) :
    ∃ k', m'.relaySeqIn.get? peer = some k' ∧ k ≤ k' := by
  rcases (act_seq h hresets).2 with hsame | ⟨f, hf, rfl⟩
  · exact ⟨k, hsame.trans hk, Nat.le_refl k⟩
  · refine ⟨_, (act_opened h hf).2.1, ?_⟩
    have hlt := habove f hf
    rw [hk] at hlt
    exact Nat.le_of_lt hlt

end

end Network

/-! ## What holds of every run -/

/-- What was sealed, by the counters of the senders. -/
structure Sealed (n : Network) (spent : List Frame) : Prop where
  counted : ∀ f ∈ n.sealed, f ∉ spent → ∃ m k, n.members.get? f.aad.fromId = some m ∧
    m.relaySeqOut.get? f.aad.toId = some k ∧ f.aad.seq ≤ k
  nodup : (n.sealed.map (·.aad)).Nodup

/-- What was played, by the counters of the listeners. -/
structure Played (n : Network) (plays past : List Play) : Prop where
  counted : ∀ x ∈ plays, x ∉ past → ∃ m k, n.members.get? x.frame.aad.toId = some m ∧
    m.relaySeqIn.get? x.frame.aad.fromId = some k ∧ x.frame.aad.seq ≤ k
  nodup : (plays.map (·.frame.aad)).Nodup
  current : ∀ x ∈ plays, n.members.has x.frame.aad.fromId = true → x.current = true

structure Sound (n : Network) (h : Watch) : Prop where
  sealed : Sealed n h.spent
  played : Played n h.plays h.past
  members : ∀ u m, n.members.get? u = some m → m.Ok n u

section
variable {n : Network} {h : Watch} {m m' : Member} {e : Event}

/-- The network after the member `m` has become `m'`. -/
def Network.put (n : Network) (e : Event) (m m' : Member) : Network :=
  { members := n.members.set e.member m', sealed := n.sealed ++ (Network.newFrame m e).toList }

theorem has_put (hm : n.members.get? e.member = some m) (u : UserId) :
    (n.put e m m').members.has u = n.members.has u := by
  change (n.members.set e.member m').has u = n.members.has u
  rw [InsMap.has_set]
  by_cases hu : u = e.member
  · rw [hu, InsMap.has_iff.2 ⟨m, hm⟩]
    simp
  · simp [hu]

theorem known_put {f : Frame} (hm : n.members.get? e.member = some m) (hf : f.Known n) :
    f.Known (n.put e m m') := by
  rcases hf with hf | hf | hf
  · exact .inl (List.mem_append_left _ hf)
  · exact .inr (.inl ((has_put hm _).trans hf))
  · exact .inr (.inr ((has_put hm _).trans hf))

theorem ok_put {u : UserId} {m0 : Member} (hm : n.members.get? e.member = some m)
    (h0 : m0.Ok n u) : m0.Ok (n.put e m m') u := by
  refine ⟨h0.keys, fun i t hi => ?_⟩
  have ht := h0.tasks i t hi
  cases t with
  | frameKey | frameOpen => exact ⟨known_put hm ht.1, ht.2⟩
  | _ => trivial

theorem Sealed.put (hs : Sealed n h.spent) (hm : n.members.get? e.member = some m)
    (hfree : m.Free n h e) (hact : n.act m e = some m') :
    Sealed (n.put e m m') (h.recordMember n e m).spent where
  counted f hf hspent := by
    have hspent' : f ∉ h.spent := fun hmem => hspent (List.mem_append_left _ hmem)
    rcases List.mem_append.1 hf with hf | hf
    · obtain ⟨m0, k, hm0, hk, hle⟩ := hs.counted f hf hspent'
      by_cases hsender : f.aad.fromId = e.member
      · rw [hsender, hm] at hm0
        cases hm0
        have hresets : e.resets m f.aad.toId = false := by
          by_contra hresets
          refine hspent (List.mem_append_right _ (List.mem_filter.2 ⟨hf, ?_⟩))
          simpa [hsender] using hresets
        obtain ⟨k', hk', hle'⟩ := Network.act_relaySeqOut hact hk hresets
        refine ⟨m', k', ?_, hk', Nat.le_trans hle hle'⟩
        rw [hsender]
        exact InsMap.get?_set_self _ _ _
      · exact ⟨m0, k, (InsMap.get?_set_ne _ _ hsender).trans hm0, hk, hle⟩
    · obtain ⟨hsender, -, hout⟩ := Network.act_newFrame hact (Option.mem_toList.1 hf)
      refine ⟨m', _, ?_, hout, Nat.le_refl _⟩
      rw [hsender]
      exact InsMap.get?_set_self _ _ _
  nodup := by
    change ((n.sealed ++ (Network.newFrame m e).toList).map (·.aad)).Nodup
    rw [List.map_append, List.nodup_append]
    refine ⟨hs.nodup, ?_, fun a ha b hb hab => ?_⟩
    · cases Network.newFrame m e <;> simp
    · obtain ⟨g, hg, rfl⟩ := List.mem_map.1 ha
      obtain ⟨f, hf, rfl⟩ := List.mem_map.1 hb
      have hf := Option.mem_toList.1 hf
      obtain ⟨hsender, hseq, -⟩ := Network.act_newFrame hact hf
      by_cases hspent : g ∈ h.spent
      · exact hfree.unspent f hf g hspent (by rw [Frame.Alike, hab]; exact ⟨rfl, rfl, rfl⟩)
      · obtain ⟨m0, k, hm0, hk, hle⟩ := hs.counted g hg hspent
        rw [hab, hsender, hm] at hm0
        cases hm0
        rw [hab] at hk hle
        rw [hk] at hseq
        change f.aad.seq = k + 1 at hseq
        omega

theorem Played.put (hs : Played n h.plays h.past) (hm : n.members.get? e.member = some m)
    (hok : m.Ok n e.member) (hfree : m.Free n h e) (hact : n.act m e = some m') :
    Played (n.put e m m') (h.recordMember n e m).plays (h.recordMember n e m).past where
  counted x hx hpast := by
    have hpast' : x ∉ h.past := fun hmem => hpast (List.mem_append_left _ hmem)
    rcases List.mem_append.1 hx with hx | hx
    · obtain ⟨m0, k, hm0, hk, hle⟩ := hs.counted x hx hpast'
      by_cases hlistener : x.frame.aad.toId = e.member
      · rw [hlistener, hm] at hm0
        cases hm0
        have hresets : e.resets m x.frame.aad.fromId = false := by
          by_contra hresets
          refine hpast (List.mem_append_right _ (List.mem_filter.2 ⟨hx, ?_⟩))
          simpa [hlistener] using hresets
        obtain ⟨k', hk', hle'⟩ := Network.act_relaySeqIn hact hk hresets hfree.above
        refine ⟨m', k', ?_, hk', Nat.le_trans hle hle'⟩
        rw [hlistener]
        exact InsMap.get?_set_self _ _ _
      · exact ⟨m0, k, (InsMap.get?_set_ne _ _ hlistener).trans hm0, hk, hle⟩
    · obtain ⟨f, hf, rfl⟩ := List.mem_map.1 hx
      obtain ⟨hlistener, hin, -⟩ := Network.act_opened hact (Option.mem_toList.1 hf)
      refine ⟨m', _, ?_, hin, Nat.le_refl _⟩
      change (n.members.set e.member m').get? f.aad.toId = some m'
      rw [hlistener]
      exact InsMap.get?_set_self _ _ _
  nodup := by
    rw [Watch.recordMember, List.map_append, List.nodup_append]
    refine ⟨hs.nodup, ?_, fun a ha b hb hab => ?_⟩
    · cases e.opened m <;> simp
    · obtain ⟨x, hx, rfl⟩ := List.mem_map.1 ha
      obtain ⟨y, hy, rfl⟩ := List.mem_map.1 hb
      obtain ⟨f, hf, rfl⟩ := List.mem_map.1 hy
      have hf := Option.mem_toList.1 hf
      obtain ⟨hlistener, -, -⟩ := Network.act_opened hact hf
      change x.frame.aad = f.aad at hab
      by_cases hpast : x ∈ h.past
      · exact hfree.unplayed f hf x hpast (by rw [Frame.Alike, hab]; exact ⟨rfl, rfl, rfl⟩)
      · obtain ⟨m0, k, hm0, hk, hle⟩ := hs.counted x hx hpast
        rw [hab, hlistener, hm] at hm0
        cases hm0
        have hlt := hfree.above f hf
        rw [hab] at hk hle
        rw [hk] at hlt
        change k < f.aad.seq at hlt
        omega
  current x hx hmember := by
    rw [has_put hm] at hmember
    rcases List.mem_append.1 hx with hx | hx
    · exact hs.current x hx hmember
    · obtain ⟨f, hf, rfl⟩ := List.mem_map.1 hx
      have hf := Option.mem_toList.1 hf
      obtain ⟨-, -, hknown⟩ := Network.act_opened hact hf
      obtain ⟨hknown, room, hkey⟩ := hknown hok
      have hsealed := deriveSharedSecret_known hkey hknown (InsMap.has_iff.2 ⟨m, hm⟩) hmember
      have hfresh : f ∉ h.stale := fun hmem =>
        hfree.unsealed f hf hmember f hmem ⟨rfl, rfl, rfl⟩
      have hroom := hfree.room f hf
      simp [hsealed, hfresh, hroom]

end

theorem sound {p : Network × Watch} (hp : fresh.Reachable p) : Sound p.1 p.2 := by
  refine Machine.Invariant.reachable (I := fun p => Sound p.1 p.2) ⟨?_, ?_⟩ hp
  · rintro ⟨n, h⟩ ⟨⟨hidle, hsealed⟩, rfl⟩
    refine ⟨⟨?_, ?_⟩, ⟨nofun, List.nodup_nil, nofun⟩, fun u m hm => ?_⟩
    · rw [hsealed]
      exact nofun
    · rw [hsealed]
      exact List.nodup_nil
    · rw [hidle u m hm]
      exact ⟨nofun, nofun⟩
  · rintro ⟨n, h⟩ e ⟨n', h'⟩ hs hstep
    obtain ⟨hok, hstep⟩ := Machine.restrict_step.1 hstep
    obtain ⟨hstep, hrecord⟩ := Machine.withHistory_step.1 hstep
    obtain ⟨m, hm, hmap⟩ := Option.bind_eq_some_iff.1 hstep
    obtain ⟨m', hact, hput⟩ := Option.map_eq_some_iff.1 hmap
    have hn' : n' = n.put e m m' := hput.symm
    have hh' : h' = h.recordMember n e m := by
      change (n.members.get? e.member).elim h (h.recordMember n e) = h' at hrecord
      change n.members.get? e.member = some m at hm
      rw [← hrecord, hm]
      rfl
    subst hn' hh'
    have hfree := hok m hm
    refine ⟨hs.sealed.put hm hfree hact, hs.played.put hm (hs.members _ m hm) hfree hact,
      fun u m0 h0 => ?_⟩
    change (n.members.set e.member m').get? u = some m0 at h0
    rw [InsMap.get?_set] at h0
    split_ifs at h0 with hu
    · cases h0
      exact ok_put hm (hu ▸ Network.act_ok (hs.members _ m hm) hact)
    · exact ok_put hm (hs.members u m0 h0)

/-- The frames that are played from a member were sealed by it for the listener during the stay in
    the call that the listener is in, no frame is played twice, and no two frames are sealed under
    the same number. -/
theorem fresh_of_run {p : Network × Watch} (hp : fresh.Reachable p) :
    (∀ x ∈ p.2.plays, p.1.members.has x.frame.aad.fromId = true → x.current = true) ∧
      (p.2.plays.map (·.frame.aad)).Nodup ∧ (p.1.sealed.map (·.aad)).Nodup :=
  ⟨(sound hp).played.current, (sound hp).played.nodup, (sound hp).sealed.nodup⟩

namespace Sample

/-- The members 1 and 2. -/
def start : Network × Watch :=
  ({ members := (InsMap.set ∅ 1 .idle).set 2 .idle, sealed := [] }, ⟨[], [], [], []⟩)

/-- The frame with the number 1 of the member 1 for the member 2 in the room 5. -/
def frame (pcm : Pcm) : Frame := ⟨⟨1, 2, 5⟩, ⟨5, 1, 2, 1⟩, pcm⟩

/-- Both are in the room 5, and 1 has sealed a frame for 2. -/
def sent : List Event :=
  [.join 1 5 true, .join 2 5 true, .memberJoin 1 5 2, .resume 1 0 true, .resume 1 1 true,
    .chunk 1 2 10]

/-- It is played. -/
def played : List Event :=
  sent ++ [.relayFrame 2 5 1 (frame 10) (some 1), .resume 2 0 true, .resume 2 1 true]

/-- The member 2 comes back to the room, and the server repeats the frame. -/
def playedAgain : List Event :=
  played ++ [.leaveGroupCall 2, .join 2 5 true, .relayFrame 2 5 1 (frame 10) (some 1),
    .resume 2 2 true, .resume 2 3 true]

/-- The server repeats the frame while it is opened. -/
def playedTwice : List Event :=
  sent ++ [.relayFrame 2 5 1 (frame 10) (some 1), .relayFrame 2 5 1 (frame 10) (some 1),
    .resume 2 0 true, .resume 2 1 true, .resume 2 2 true, .resume 2 3 true]

/-- The member 1 comes back to the room, and seals a frame for 2. -/
def sealedAgain : List Event :=
  sent ++ [.resume 1 3 true, .leaveGroupCall 1, .join 1 5 true, .memberJoin 1 5 2, .resume 1 4 true,
    .resume 1 5 true, .chunk 1 6 11]

end Sample

/-- A frame of an earlier call is played, and twice; a frame is played twice in one call; and two
    frames are sealed under one number. -/
theorem played_again :
    (∃ p, (network.withHistory ⟨[], [], [], []⟩ Watch.record).run Sample.start
      Sample.playedAgain = some p ∧
      p.2.plays = [⟨Sample.frame 10, true⟩, ⟨Sample.frame 10, false⟩]) ∧
    (∃ p, (network.withHistory ⟨[], [], [], []⟩ Watch.record).run Sample.start
      Sample.playedTwice = some p ∧
      p.2.plays = [⟨Sample.frame 10, true⟩, ⟨Sample.frame 10, true⟩]) ∧
    ∃ p, (network.withHistory ⟨[], [], [], []⟩ Watch.record).run Sample.start
      Sample.sealedAgain = some p ∧ p.1.sealed = [Sample.frame 10, Sample.frame 11] := by
  refine ⟨?_, ?_, ?_⟩ <;> decide

theorem fresh_of_run_played : ∃ p, fresh.run Sample.start Sample.played = some p ∧
    (∀ x ∈ p.2.plays, p.1.members.has x.frame.aad.fromId = true → x.current = true) ∧
      (p.2.plays.map (·.frame.aad)).Nodup ∧ (p.1.sealed.map (·.aad)).Nodup := by
  have hstart : fresh.init Sample.start := by
    refine ⟨⟨fun u m hm => ?_, rfl⟩, rfl⟩
    change ((InsMap.set ∅ 1 Member.idle).set 2 Member.idle).get? u = some m at hm
    rw [InsMap.get?_set, InsMap.get?_set] at hm
    split_ifs at hm <;> cases hm <;> rfl
  obtain ⟨p, hrun, hp⟩ := Machine.exists_reachable
    (by decide : (fresh.run Sample.start Sample.played).isSome) hstart
  exact ⟨p, hrun, fresh_of_run hp⟩

end OneToThree.GroupCall.Relay
