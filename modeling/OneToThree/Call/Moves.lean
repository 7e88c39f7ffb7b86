import OneToThree.Call.Signals

/-!
# The moves of the call hook

What an event does to the relayed audio of the hook, in small moves (`Moves`): tasks are taken up
and set aside, keys looked up, derived and used, captures and players started and stopped, frames
sealed, sent, opened and played. Each of them says where it comes from: the task that goes on, and,
for a function that leads to a capture, what it was called for (`Asks`).

`moves_of_step`: the event of a step makes such moves only. An invariant of the relayed audio is
thus shown by one case for each move.
-/

namespace OneToThree.Call

/-- The outputs that neither start a capture nor carry a frame. -/
def Output.isPlain : Output → Bool
  | .captureStarted _ | .seal _ | .play _ _ _ | .send (.webrtcSignal _ (.relayFrame _ _ _)) => false
  | _ => true

/-- The stages with neither a key nor a frame. -/
def Stage.isPlain : Stage → Bool
  | .relayKey _ _ _ _ | .acceptRelayKey _ _ | .captureKey _ _ _ | .captureStart _ _ _
  | .frameKey _ _ _ _ | .frameOpen _ _ _ _ | .sealing _ _ _ | .deriveNonce _
  | .deriveSecret _ _ => false
  | _ => true

/-- The stages of the functions that set up a call or start a capture. -/
def Stage.isSetup : Stage → Bool
  | .frameKey _ _ _ _ | .frameOpen _ _ _ _ | .framePlayed | .sealing _ _ _ | .deriveNonce _
  | .deriveSecret _ _ | .createGroup => false
  | _ => true

/-- The key promise that a function which sets up a call waits for. -/
def Stage.setupKey : Stage → Option PromiseId
  | .relayKey _ _ _ key | .acceptRelayKey _ key | .captureKey _ _ key => some key
  | _ => none

def TimerAction.peer : TimerAction → UserId
  | .p2p peerId _ _ | .relay peerId => peerId

namespace Hook

/-- What a function that leads to a capture for a peer is called for. -/
inductive Asks (s : Hook) (e : HookEvent) (peerId : UserId) : Prop
  | start (dial : Dial) (online : Bool) : e = .start peerId dial online → Asks s e peerId
  | accept (inc : InboundLinkRequest) : e = .accept → s.store.incomingCall = some inc →
    inc.peerId = peerId → Asks s e peerId
  | task (task : Task) : task ∈ s.tasks → task.peerId = peerId → task.stage.isSetup = true →
    Asks s e peerId
  | timer (id : TimerId) (timer : Timer) : s.timeouts.timers.get? id = some timer →
    timer.action.peer = peerId → Asks s e peerId
  | offer (callNonce : Option Nonce) (stream : Feed) :
    e = .recv peerId (.signal (.relayOffer callNonce)) → s.store.isCalling = true →
    s.store.localStream = some stream → Asks s e peerId
  | answer (callNonce : Option Nonce) (stream : Feed) :
    e = .recv peerId (.signal (.relayAnswer callNonce)) → s.store.localStream = some stream →
    Asks s e peerId

/-- The relayed audio, the tasks, the outputs and the timers. -/
def relay (s : Hook) :=
  (s.userId, s.relayPlayers, s.relayCaptures, s.relayPeers, s.keys, s.captures, s.tasks, s.out,
    s.timeouts)

/-- The relayed audio is the same, and no timer is new. -/
structure SameRelay (s s' : Hook) : Prop where
  userId : s'.userId = s.userId
  relayPlayers : s'.relayPlayers = s.relayPlayers
  relayCaptures : s'.relayCaptures = s.relayCaptures
  relayPeers : s'.relayPeers = s.relayPeers
  keys : s'.keys = s.keys
  captures : s'.captures = s.captures
  tasks : s'.tasks = s.tasks
  out : s'.out = s.out
  timers : ∀ id timer, s'.timeouts.timers.get? id = some timer →
    s.timeouts.timers.get? id = some timer

/-- The states that the event `e` passes through, from the state `s₀`. -/
inductive Moves (s₀ : Hook) (e : HookEvent) : Hook → Prop
  | refl : Moves s₀ e s₀
  | same {s s' : Hook} : Moves s₀ e s → s.SameRelay s' → Moves s₀ e s'
  | emit {s : Hook} {o : Output} : Moves s₀ e s → o.isPlain = true → Moves s₀ e (s.emit o)
  -- Tasks and timers
  | drop {s : Hook} (i : ℕ) : Moves s₀ e s → Moves s₀ e { s with tasks := s.tasks.eraseIdx i }
  | await {s : Hook} {peerId : UserId} {stage : Stage} : Moves s₀ e s → stage.isPlain = true →
    (stage.isSetup = true → s₀.Asks e peerId) → Moves s₀ e (s.await peerId stage)
  | timer {s : Hook} {action : TimerAction} : Moves s₀ e s → s₀.Asks e action.peer →
    Moves s₀ e (s.setConnectTimeout action)
  -- Keys
  | nonce {s : Hook} (peerId : UserId) (callNonce : Option Nonce) : Moves s₀ e s →
    Moves s₀ e (s.setRelayCallNonce peerId callNonce)
  | resolve {s : Hook} {peerId : UserId} {stage : Stage} : Moves s₀ e s →
    stage.setupKey = some (s.keys.promise peerId) → s₀.Asks e peerId →
    Moves s₀ e ((s.resolveRelaySharedKey peerId).await peerId stage)
  | derive {s : Hook} {peerId : UserId} {key : PromiseId} (nonce : Option Nonce) : Moves s₀ e s →
    ⟨peerId, .deriveNonce key⟩ ∈ s₀.tasks →
    Moves s₀ e (s.await peerId (.deriveSecret key nonce))
  | derived {s : Hook} {peerId : UserId} {key : PromiseId} {nonce : Option Nonce} : Moves s₀ e s →
    ⟨peerId, .deriveSecret key nonce⟩ ∈ s₀.tasks →
    Moves s₀ e { s with
      keys := s.keys.settle key (some (deriveSharedSecret s.userId peerId nonce)) }
  | underived {s : Hook} (key : PromiseId) : Moves s₀ e s →
    Moves s₀ e { s with keys := s.keys.settle key none }
  | enter {s : Hook} {peerId : UserId} {stage : Stage} {key : PromiseId} {sharedKey : RelayKey} :
    Moves s₀ e s → ⟨peerId, stage⟩ ∈ s₀.tasks → stage.setupKey = some key →
    s.keys.settled? key = some (some sharedKey) →
    Moves s₀ e { s with
      keys := s.keys.put peerId sharedKey
      relayPeers := s.relayPeers.add peerId }
  -- Captures and players
  | ready {s : Hook} {peerId : UserId} {caller : CaptureCaller} {stream : Feed} {key : PromiseId}
    {sharedKey : RelayKey} : Moves s₀ e s → ⟨peerId, .captureKey caller stream key⟩ ∈ s₀.tasks →
    s.keys.settled? key = some (some sharedKey) →
    Moves s₀ e (s.await peerId (.captureStart caller stream sharedKey))
  | capture {s : Hook} {peerId : UserId} {caller : CaptureCaller} {stream : Feed} {key : RelayKey} :
    Moves s₀ e s → ⟨peerId, .captureStart caller stream key⟩ ∈ s₀.tasks →
    Moves s₀ e (s.relayCaptureStarted peerId stream key)
  | player {s : Hook} (peerId : UserId) : Moves s₀ e s → Moves s₀ e (s.ensureRelayPlayer peerId)
  | stop {s : Hook} (peerId : UserId) : Moves s₀ e s → Moves s₀ e (s.stopRelayPeer peerId)
  -- Frames
  | chunk {i sampleRate : ℕ} {pcm : Pcm} {capture : Capture} : e = .chunk i sampleRate pcm →
    s₀.captures[i]? = some capture → capture.running = true → capture.track ∈ s₀.media.live →
    Moves s₀ e (s₀.captureChunk i capture sampleRate pcm)
  | sealed {s : Hook} {peerId : UserId} {i sampleRate : ℕ} {frame : SealedFrame} : Moves s₀ e s →
    ⟨peerId, .sealing i sampleRate frame⟩ ∈ s₀.tasks →
    Moves s₀ e (s.frameSealed peerId i sampleRate frame)
  | receive {s : Hook} {peerId : UserId} {frame : SealedFrame} {sampleRate seq : ℕ} : Moves s₀ e s →
    e = .recv peerId (.signal (.relayFrame (some frame) (some sampleRate) (some seq))) →
    Moves s₀ e ((s.resolveRelaySharedKey peerId).await peerId
      (.frameKey frame sampleRate seq (s.keys.promise peerId)))
  | lookUp {s : Hook} {peerId : UserId} {frame : SealedFrame} {sampleRate seq : ℕ} {key : PromiseId}
    {sharedKey : RelayKey} : Moves s₀ e s →
    ⟨peerId, .frameKey frame sampleRate seq key⟩ ∈ s₀.tasks →
    s.keys.settled? key = some (some sharedKey) →
    Moves s₀ e (s.await peerId (.frameOpen frame sampleRate seq sharedKey))
  | play {s : Hook} {peerId : UserId} {frame : SealedFrame} {sampleRate seq : ℕ} {key : RelayKey} :
    Moves s₀ e s → ⟨peerId, .frameOpen frame sampleRate seq key⟩ ∈ s₀.tasks →
    (decryptBytes key frame ⟨peerId, s.userId, seq⟩).isSome = true →
    Moves s₀ e (s.playFrame peerId frame sampleRate seq)

/-! ## Captures -/

variable {captures : List Capture} {c : Capture}

theorem mem_modify {f : Capture → Capture} {i : ℕ} (hc : c ∈ captures.modify i f) :
    ∃ c' ∈ captures, c = c' ∨ c = f c' := by
  obtain ⟨j, hj⟩ := List.mem_iff_getElem?.1 hc
  rw [List.getElem?_modify] at hj
  obtain ⟨c', hc', rfl⟩ := Option.map_eq_some_iff.1 hj
  refine ⟨c', List.mem_of_getElem? hc', ?_⟩
  split_ifs
  · exact .inr rfl
  · exact .inl rfl

theorem mem_stopCapture {id : Option ℕ} (hc : c ∈ stopCapture captures id) :
    ∃ c' ∈ captures, c = c' ∨ c = { c' with running := false } := by
  cases id with
  | none => exact ⟨c, hc, .inl rfl⟩
  | some i => exact mem_modify hc

/-- A capture that is changed keeps its key and its peer. -/
theorem kept_of_modify {f : Capture → Capture} {i : ℕ} (hc : c ∈ captures.modify i f)
    (hf : ∀ c, (f c).key = c.key ∧ (f c).peerId = c.peerId) :
    ∃ c' ∈ captures, c.key = c'.key ∧ c.peerId = c'.peerId := by
  obtain ⟨c', hc', rfl | rfl⟩ := mem_modify hc
  · exact ⟨c, hc', rfl, rfl⟩
  · exact ⟨c', hc', hf c'⟩

theorem kept_of_stopCapture {id : Option ℕ} (hc : c ∈ stopCapture captures id) :
    ∃ c' ∈ captures, c.key = c'.key ∧ c.peerId = c'.peerId := by
  obtain ⟨c', hc', rfl | rfl⟩ := mem_stopCapture hc
  · exact ⟨c, hc', rfl, rfl⟩
  · exact ⟨c', hc', rfl, rfl⟩

/-! ## Functions -/

section
variable {s₀ s s' : Hook} {e : HookEvent}

/-- What does not concern the relayed audio. -/
theorem Moves.other (h : Moves s₀ e s) (hrelay : s'.relay = s.relay) : Moves s₀ e s' := by
  simp only [relay, Prod.mk.injEq] at hrelay
  obtain ⟨huser, hplayers, hcaptures, hpeers, hkeys, hstarted, htasks, hout, htimers⟩ := hrelay
  exact h.same ⟨huser, hplayers, hcaptures, hpeers, hkeys, hstarted, htasks, hout,
    fun _ _ => htimers ▸ id⟩

theorem Moves.clearConnectTimeout (h : Moves s₀ e s) : Moves s₀ e s.clearConnectTimeout := by
  refine h.same ⟨rfl, rfl, rfl, rfl, rfl, rfl, rfl, rfl, fun id timer ht => ?_⟩
  rw [Hook.clearConnectTimeout, Timeouts.clearConnectTimeout] at ht
  cases hid : s.timeouts.connectTimeout with
  | none =>
    rw [hid] at ht
    exact ht
  | some id' =>
    rw [hid] at ht
    change (s.timeouts.timers.delete id').get? id = some timer at ht
    rw [InsMap.get?_delete] at ht
    split_ifs at ht
    exact ht

theorem Moves.purgePeer (h : Moves s₀ e s) (peerId : UserId) : Moves s₀ e (s.purgePeer peerId) :=
  .stop peerId (h.other rfl)

theorem Moves.purgePeers (h : Moves s₀ e s) (peerIds : List UserId) :
    Moves s₀ e (s.purgePeers peerIds) := by
  induction peerIds generalizing s with
  | nil => exact h
  | cons peerId peerIds ih => exact ih (h.purgePeer peerId)

/-- Several plain outputs. -/
theorem Moves.emits (h : Moves s₀ e s) {os : List Output} (hos : ∀ o ∈ os, o.isPlain = true) :
    Moves s₀ e { s with out := s.out ++ os } := by
  induction os generalizing s with
  | nil =>
    rw [List.append_nil]
    exact h
  | cons o os ih =>
    rw [List.append_cons]
    exact ih (h.emit (hos o List.mem_cons_self)) fun o ho => hos o (List.mem_cons_of_mem _ ho)

theorem Moves.severAllLinks (h : Moves s₀ e s) : Moves s₀ e s.severAllLinks := by
  have hleave : ∀ o ∈ ((s.clearConnectTimeout.store.callChatId <|>
      s.clearConnectTimeout.activeChatId).toList.map fun chatId =>
        Output.send (.callLeave chatId)), o.isPlain = true := List.forall_mem_map.2 fun _ _ => rfl
  have hpurged := ((h.clearConnectTimeout.emits hleave).purgePeers s.pcs.keys).purgePeers
  exact (hpurged _).other rfl

theorem Moves.send (h : Moves s₀ e s) {msg : ClientMessage}
    (hmsg : (Output.send msg).isPlain = true) : Moves s₀ e (s.send msg) :=
  h.emit hmsg

/-- A function that leads to a capture is set aside. -/
theorem Moves.setAside (h : Moves s₀ e s) {peerId : UserId} {stage : Stage}
    (hstage : stage.isPlain = true) (hasks : s₀.Asks e peerId) :
    Moves s₀ e (s.await peerId stage) :=
  h.await hstage fun _ => hasks

theorem Moves.startRelayCapture (h : Moves s₀ e s) {peerId : UserId} (caller : CaptureCaller)
    (stream : Feed) (hasks : s₀.Asks e peerId) :
    Moves s₀ e (s.startRelayCapture peerId caller stream) := by
  rw [Hook.startRelayCapture]
  split_ifs
  · exact h.setAside rfl hasks
  · exact .resolve h rfl hasks

theorem Moves.establishAudioRelay (h : Moves s₀ e s) {peerId : UserId} (chatId : ChatId)
    (sendInvite : Bool) (hasks : s₀.Asks e peerId) :
    Moves s₀ e (s.establishAudioRelay peerId chatId sendInvite) := by
  have hchat : Moves s₀ e { s with store := s.store.setCallChatId (some chatId) } :=
    h.other rfl
  exact (hchat.emit rfl).setAside rfl hasks

/-! ## Messages -/

theorem Moves.receiveInvite (h : Moves s₀ e s) (fromId : UserId) (chatId : ChatId)
    (isVideo : Bool) : Moves s₀ e (s.receiveInvite fromId chatId isVideo) := by
  rw [Hook.receiveInvite]
  split_ifs
  · exact h.send rfl
  · exact h.other rfl

theorem Moves.receiveLeave (h : Moves s₀ e s) (fromId : UserId) :
    Moves s₀ e (s.receiveLeave fromId) := by
  rw [Hook.receiveLeave]
  split_ifs
  · exact (h.purgePeer fromId).severAllLinks
  · exact h.purgePeer fromId

theorem Moves.receiveReject (h : Moves s₀ e s) (fromId : UserId) :
    Moves s₀ e (s.receiveReject fromId) := by
  rw [Hook.receiveReject]
  split_ifs
  · exact (h.purgePeer fromId).severAllLinks
  · exact h.purgePeer fromId

theorem moves_receiveRelayOffer {fromId : UserId} {callNonce : Option Nonce}
    (he : e = .recv fromId (.signal (.relayOffer callNonce))) :
    Moves s₀ e (s₀.receiveRelayOffer fromId callNonce) := by
  have h : Moves s₀ e (s₀.setRelayCallNonce fromId callNonce) := .nonce fromId callNonce .refl
  rw [Hook.receiveRelayOffer]
  dsimp only
  split_ifs with hcalling
  · have hcalling : s₀.store.isCalling = true := hcalling
    have hleft : Moves s₀ e { s₀.setRelayCallNonce fromId callNonce with
        pcs := s₀.pcs.delete fromId
        store := s₀.store.removeRemoteStream fromId } := h.other rfl
    cases hstream : s₀.store.localStream with
    | none =>
      have : ((s₀.setRelayCallNonce fromId callNonce).store.removeRemoteStream fromId).localStream =
        none := hstream
      rw [this]
      exact hleft
    | some stream =>
      have : ((s₀.setRelayCallNonce fromId callNonce).store.removeRemoteStream fromId).localStream =
        some stream := hstream
      rw [this]
      exact hleft.startRelayCapture .offer stream (.offer callNonce stream he hcalling hstream)
  · exact h.other rfl

theorem moves_receiveRelayAnswer {fromId : UserId} {callNonce : Option Nonce}
    (he : e = .recv fromId (.signal (.relayAnswer callNonce))) :
    Moves s₀ e (s₀.receiveRelayAnswer fromId callNonce) := by
  have h : Moves s₀ e (s₀.setRelayCallNonce fromId callNonce) := .nonce fromId callNonce .refl
  have hdeleted : Moves s₀ e { s₀.setRelayCallNonce fromId callNonce with
      relayAwaitingAnswer := s₀.relayAwaitingAnswer.delete fromId } :=
    h.other rfl
  have hanswered := hdeleted.clearConnectTimeout
  rw [Hook.receiveRelayAnswer]
  cases hstream : s₀.store.localStream with
  | none =>
    simp only [Hook.clearConnectTimeout, Hook.setRelayCallNonce, hstream]
    exact hanswered
  | some stream =>
    simp only [Hook.clearConnectTimeout, Hook.setRelayCallNonce, hstream]
    exact hanswered.startRelayCapture .answer stream (.answer callNonce stream he hstream)

theorem moves_receiveSignal {fromId : UserId} {data : Signal}
    (he : e = .recv fromId (.signal data)) : Moves s₀ e (s₀.receiveSignal fromId data) := by
  cases data with
  | promoteToGroup chatId =>
    rw [receiveSignal]
    cases chatId with
    | none => exact .refl
    | some chatId =>
      rw [receivePromote]
      split_ifs
      · exact (Moves.refl.severAllLinks).emit rfl
      · exact .refl
  | relayOffer callNonce => exact moves_receiveRelayOffer he
  | relayAnswer callNonce => exact moves_receiveRelayAnswer he
  | relayFrame frame sampleRate seq =>
    rcases frame with _ | frame
    · exact .refl
    rcases sampleRate with _ | sampleRate
    · exact .refl
    rcases seq with _ | seq
    · exact .refl
    · rw [receiveSignal, receiveRelayFrame]
      split_ifs
      · exact .receive .refl he
      · exact .refl
  | offer sdp isVideo =>
    rw [receiveSignal, receiveOffer]
    split_ifs
    · exact .refl
    · exact .refl
    · exact Moves.refl.other rfl
  | answer sdp => exact .refl
  | ice => exact .refl

theorem moves_receive {fromId : UserId} {msg : Message} (he : e = .recv fromId msg) :
    Moves s₀ e (s₀.receive fromId msg) := by
  cases msg with
  | callInvite chatId isVideo => exact Moves.refl.receiveInvite fromId chatId isVideo
  | callLeave chatId => exact Moves.refl.receiveLeave fromId
  | callReject chatId => exact Moves.refl.receiveReject fromId
  | signal data =>
    rw [receive]
    split_ifs
    · exact .refl
    · exact moves_receiveSignal he

/-! ## Tasks -/

section
variable {peerId : UserId}

theorem Moves.fallbackToAudioRelay (h : Moves s₀ e s) (chatId : ChatId)
    (hasks : s₀.Asks e peerId) : Moves s₀ e (s.fallbackToAudioRelay peerId chatId) := by
  rw [Hook.fallbackToAudioRelay]
  split_ifs
  · exact h
  · refine Moves.establishAudioRelay ?_ chatId false hasks
    exact h.other rfl

theorem Moves.establishPublish (h : Moves s₀ e s) (dial : Dial) (config : IceConfig) (stream : Feed)
    (hasks : s₀.Asks e peerId) : Moves s₀ e (s.establishPublish peerId dial config stream) := by
  have hset : Moves s₀ e { s with
      store := (s.store.setLocalStream (some stream)).setIsCalling true
      pcs := s.pcs.set peerId false } := h.other rfl
  exact (hset.send rfl).setAside rfl hasks

theorem Moves.establishVoiced (h : Moves s₀ e s) (dial : Dial) (config : IceConfig) (stream : Feed)
    (hasks : s₀.Asks e peerId) : Moves s₀ e (s.establishVoiced peerId dial config stream) := by
  rw [Hook.establishVoiced]
  split_ifs
  · refine Moves.setAside ?_ rfl hasks
    exact h.other rfl
  · refine Moves.establishPublish ?_ dial config stream hasks
    exact h.other rfl

theorem Moves.establishOffered (h : Moves s₀ e s) (dial : Dial) (config : IceConfig)
    (hasks : s₀.Asks e peerId) : Moves s₀ e (s.establishOffered peerId dial config) := by
  rw [Hook.establishOffered]
  split_ifs
  · exact h.timer hasks
  · exact h.severAllLinks

theorem Moves.acceptPublish (h : Moves s₀ e s) (inc : InboundLinkRequest) (stream : Feed)
    (hasks : s₀.Asks e peerId) : Moves s₀ e (s.acceptPublish peerId inc stream) := by
  have hset : Moves s₀ e { s with
      store := (s.store.setLocalStream (some stream)).setIsCalling true
      pcs := s.pcs.set peerId false } := h.other rfl
  rw [Hook.acceptPublish]
  split_ifs
  · exact hset.setAside rfl hasks
  · exact hset.other rfl

theorem Moves.acceptVoiced (h : Moves s₀ e s) (inc : InboundLinkRequest) (stream : Feed)
    (hasks : s₀.Asks e peerId) : Moves s₀ e (s.acceptVoiced peerId inc stream) := by
  rw [Hook.acceptVoiced]
  split_ifs
  · refine Moves.setAside ?_ rfl hasks
    exact h.other rfl
  · refine Moves.acceptPublish ?_ inc stream hasks
    exact h.other rfl

theorem Moves.relayOpened (h : Moves s₀ e s) (chatId : ChatId) (sendInvite : Bool) (stream : Feed)
    {key : PromiseId} {sharedKey : RelayKey} (callNonce : Nonce)
    (htask : ⟨peerId, .relayKey chatId sendInvite stream key⟩ ∈ s₀.tasks)
    (hkey : s.keys.settled? key = some (some sharedKey)) :
    Moves s₀ e (s.relayOpened peerId chatId sendInvite stream sharedKey callNonce) := by
  have hinvite : ∀ o ∈ (if sendInvite then [Output.send (.callInvite chatId false)] else []),
      o.isPlain = true := by
    split_ifs <;> simp [Output.isPlain]
  have hentered : Moves s₀ e { s with
      keys := s.keys.put peerId sharedKey
      relayPeers := s.relayPeers.add peerId
      relayAwaitingAnswer := s.relayAwaitingAnswer.add peerId
      store := (s.store.setLocalStream (some stream)).setIsCalling true } :=
    (h.enter htask rfl hkey).other rfl
  exact (((hentered.emits hinvite).nonce peerId (some callNonce)).send rfl).timer
    (.task _ htask rfl rfl)

theorem Moves.acceptRelayOpened (h : Moves s₀ e s) {stream : Feed} {key : PromiseId}
    {sharedKey : RelayKey} (htask : ⟨peerId, .acceptRelayKey stream key⟩ ∈ s₀.tasks)
    (hkey : s.keys.settled? key = some (some sharedKey)) :
    Moves s₀ e (s.acceptRelayOpened peerId stream sharedKey) := by
  have hentered : Moves s₀ e { s with
      keys := s.keys.put peerId sharedKey
      relayPeers := s.relayPeers.add peerId
      store := (s.store.setLocalStream (some stream)).setIsCalling true } :=
    (h.enter htask rfl hkey).other rfl
  exact hentered.startRelayCapture .accept stream (.task _ htask rfl rfl)

theorem Moves.relayCaptured (h : Moves s₀ e s) (stream : Feed) (started : Bool)
    (caller : CaptureCaller) : Moves s₀ e (s.relayCaptured peerId stream started caller) := by
  cases caller with
  | accept =>
    rw [Hook.relayCaptured]
    split_ifs
    · exact (h.send rfl).other rfl
    · exact h.other rfl
  | offer =>
    rw [Hook.relayCaptured]
    split_ifs
    · exact (h.send rfl).player peerId
    · exact h
  | answer => exact h

/-- A task that was taken up goes on. -/
theorem Moves.continue (h : Moves s₀ e s) {stage : Stage} {reply : Reply}
    (htask : ⟨peerId, stage⟩ ∈ s₀.tasks) (hs : s.continue peerId stage reply = some s') :
    Moves s₀ e s' := by
  have hasks : stage.isSetup = true → s₀.Asks e peerId := fun hsetup => .task _ htask rfl hsetup
  have hvoice : ∀ stream ok, Moves s₀ e (s.voiceAttached stream ok) := fun _ _ =>
    h.other rfl
  have hmedia : ∀ video, Moves s₀ e (s.mediaCaptured video) := fun _ =>
    h.other rfl
  have hdismissed : Moves s₀ e s.dismissIncomingCall := h.other rfl
  cases stage with
  | establishIce dial =>
    cases reply with
    | failed =>
      cases hs
      exact h.establishAudioRelay dial.chatId true (hasks rfl)
    | ice config =>
      cases hs
      rw [establishIceFetched]
      split_ifs
      · exact h.establishAudioRelay dial.chatId true (hasks rfl)
      · exact (h.emit rfl).setAside rfl (hasks rfl)
    | _ => cases hs
  | establishMedia dial config =>
    cases reply with
    | failed =>
      cases hs
      exact h
    | ok =>
      cases hs
      exact (hmedia _).setAside rfl (hasks rfl)
    | _ => cases hs
  | establishVoice dial config stream =>
    obtain ⟨-, hs⟩ := Option.ite_none_right_eq_some.1 hs
    cases hs
    exact (hvoice _ _).establishVoiced dial config _ (hasks rfl)
  | establishCamera dial config stream =>
    obtain ⟨-, hs⟩ := Option.ite_none_right_eq_some.1 hs
    cases hs
    refine Moves.establishPublish ?_ dial config _ (hasks rfl)
    exact h.other rfl
  | establishOffer dial config =>
    cases reply with
    | failed =>
      cases hs
      exact h.establishOffered dial config (hasks rfl)
    | described sdp =>
      cases hs
      exact (h.send rfl).establishOffered dial config (hasks rfl)
    | _ => cases hs
  | relayMedia chatId sendInvite =>
    cases reply with
    | failed =>
      cases hs
      exact h
    | ok =>
      cases hs
      exact (hmedia false).setAside rfl (hasks rfl)
    | _ => cases hs
  | relayVoice chatId sendInvite stream =>
    obtain ⟨-, hs⟩ := Option.ite_none_right_eq_some.1 hs
    cases hs
    exact .resolve (hvoice _ _) rfl (hasks rfl)
  | relayKey chatId sendInvite stream key =>
    cases reply with
    | minted callNonce =>
      obtain ⟨sharedKey, hkey, rfl⟩ := Option.map_eq_some_iff.1 hs
      exact h.relayOpened chatId sendInvite stream callNonce htask (Option.join_eq_some_iff.1 hkey)
    | failed =>
      obtain ⟨-, hs⟩ := Option.ite_none_right_eq_some.1 hs
      cases hs
      exact h.other rfl
    | _ => cases hs
  | acceptIce inc =>
    cases reply with
    | failed =>
      cases hs
      exact hdismissed
    | ice config =>
      cases hs
      exact (h.emit rfl).setAside rfl (hasks rfl)
    | _ => cases hs
  | acceptMedia inc =>
    cases reply with
    | failed =>
      cases hs
      exact hdismissed
    | ok =>
      cases hs
      exact (hmedia _).setAside rfl (hasks rfl)
    | _ => cases hs
  | acceptVoice inc stream =>
    obtain ⟨-, hs⟩ := Option.ite_none_right_eq_some.1 hs
    cases hs
    exact (hvoice _ _).acceptVoiced inc _ (hasks rfl)
  | acceptCamera inc stream =>
    obtain ⟨-, hs⟩ := Option.ite_none_right_eq_some.1 hs
    cases hs
    refine Moves.acceptPublish ?_ inc _ (hasks rfl)
    exact h.other rfl
  | acceptAnswer =>
    cases reply with
    | described sdp =>
      cases hs
      exact (h.send rfl).other rfl
    | failed =>
      cases hs
      exact h.severAllLinks.other rfl
    | _ => cases hs
  | acceptRelayMedia =>
    cases reply with
    | failed =>
      cases hs
      exact hdismissed
    | ok =>
      cases hs
      exact (hmedia false).setAside rfl (hasks rfl)
    | _ => cases hs
  | acceptRelayVoice stream =>
    obtain ⟨-, hs⟩ := Option.ite_none_right_eq_some.1 hs
    cases hs
    exact .resolve (hvoice _ _) rfl (hasks rfl)
  | acceptRelayKey stream key =>
    cases reply with
    | ok =>
      obtain ⟨sharedKey, hkey, rfl⟩ := Option.map_eq_some_iff.1 hs
      cases sharedKey with
      | none => exact h.other rfl
      | some sharedKey => exact h.acceptRelayOpened htask hkey
    | _ => cases hs
  | captureKey caller stream key =>
    cases reply with
    | ok =>
      obtain ⟨sharedKey, hkey, rfl⟩ := Option.map_eq_some_iff.1 hs
      cases sharedKey with
      | none => exact h.setAside rfl (hasks rfl)
      | some sharedKey => exact .ready h htask hkey
    | _ => cases hs
  | captureStart caller stream key =>
    cases reply with
    | ok =>
      cases hs
      exact (Moves.capture h htask).setAside rfl (hasks rfl)
    | failed =>
      cases hs
      exact h
    | _ => cases hs
  | captured caller stream started =>
    cases reply with
    | ok =>
      cases hs
      exact h.relayCaptured stream started caller
    | _ => cases hs
  | frameKey frame sampleRate seq key =>
    cases reply with
    | ok =>
      obtain ⟨sharedKey, hkey, rfl⟩ := Option.map_eq_some_iff.1 hs
      cases sharedKey with
      | none => exact h
      | some sharedKey => exact .lookUp h htask hkey
    | _ => cases hs
  | frameOpen frame sampleRate seq key =>
    cases reply with
    | ok =>
      cases hs
      cases hopen : decryptBytes key frame ⟨peerId, s.userId, seq⟩ with
      | none => exact h
      | some pcm => exact .play h htask (by rw [hopen]; rfl)
    | _ => cases hs
  | framePlayed =>
    cases reply with
    | ok =>
      cases hs
      exact h.clearConnectTimeout
    | _ => cases hs
  | sealing i sampleRate frame =>
    cases reply with
    | ok =>
      cases hs
      exact .sealed h htask
    | _ => cases hs
  | deriveNonce key =>
    cases reply with
    | ok =>
      cases hs
      exact .derive _ h htask
    | failed =>
      cases hs
      exact .underived key h
    | _ => cases hs
  | deriveSecret key nonce =>
    cases reply with
    | ok =>
      cases hs
      exact .derived h htask
    | failed =>
      cases hs
      exact .underived key h
    | _ => cases hs
  | createGroup =>
    cases reply with
    | created chatId =>
      cases hs
      exact (h.send rfl).severAllLinks.emit rfl
    | failed =>
      cases hs
      exact h
    | _ => cases hs

end

/-! ## Events -/

theorem Moves.callPeers (h : Moves s₀ e s) (chatId : ChatId) (peerIds : List UserId) :
    Moves s₀ e (peerIds.foldl (fun s peerId =>
      s.transmitSignal peerId (.promoteToGroup (some chatId))) s) := by
  induction peerIds generalizing s with
  | nil => exact h
  | cons peerId peerIds ih => exact ih (h.send rfl)

theorem moves_timedOut {id : TimerId} {timer : Timer}
    (htimer : s₀.timeouts.timers.get? id = some timer) (h : Moves s₀ e s) :
    Moves s₀ e (s.timedOut timer.action) := by
  cases haction : timer.action with
  | p2p peerId chatId fallback =>
    rw [timedOut]
    split_ifs
    · exact h.fallbackToAudioRelay chatId (.timer id timer htimer (by rw [haction]; rfl))
    · exact h.severAllLinks
    · exact h
  | relay peerId =>
    rw [timedOut]
    split_ifs
    · exact h.severAllLinks
    · exact h

theorem moves_of_handle (hs : s₀.handle e = some s') : Moves s₀ e s' := by
  cases e with
  | start peerId dial online =>
    cases hs
    have hchat : Moves s₀ (.start peerId dial online) { s₀ with
        store := s₀.store.setCallChatId (some dial.chatId) } :=
      Moves.refl.other rfl
    rw [establishLink]
    split_ifs
    · exact hchat
    · exact hchat.severAllLinks
    · exact hchat.setAside rfl (.start dial online rfl)
  | accept =>
    cases hs
    rw [acceptLink]
    cases hinc : s₀.store.incomingCall with
    | none => exact .refl
    | some inc =>
      have haccept : ∀ o ∈ inc.chatId.toList.map (fun chatId => Output.send (.callAccept chatId)),
          o.isPlain = true := List.forall_mem_map.2 fun _ _ => rfl
      have hasks : s₀.Asks .accept inc.peerId := .accept inc rfl hinc rfl
      have hsent : Moves s₀ .accept { s₀ with
          store := s₀.store.setCallChatId (inc.chatId <|> s₀.store.callChatId)
          out := s₀.out ++ inc.chatId.toList.map fun chatId => Output.send (.callAccept chatId) } :=
        (Moves.refl.emits haccept).other rfl
      dsimp only
      split_ifs
      · exact (hsent.emit rfl).setAside rfl hasks
      · exact hsent.setAside rfl hasks
  | reject =>
    cases hs
    have hreject : ∀ o ∈ (s₀.store.incomingCall.bind InboundLinkRequest.chatId).toList.map
        (fun chatId => Output.send (.callReject chatId)), o.isPlain = true :=
      List.forall_mem_map.2 fun _ _ => rfl
    exact (Moves.refl.emits hreject).other rfl
  | hangUp =>
    cases hs
    exact Moves.refl.severAllLinks
  | promoteToGroup inviteeUserId =>
    cases hs
    rw [Hook.promoteToGroup]
    cases s₀.callPeers with
    | nil => exact .refl
    | cons peerId peerIds =>
      dsimp only
      split_ifs
      · exact .refl
      · exact Moves.refl.await rfl fun h => absurd h Bool.false_ne_true
  | openCallToGuests chatId inRoom =>
    cases hs
    rw [Hook.openCallToGuests]
    split_ifs
    · exact .refl
    · exact ((Moves.refl.callPeers chatId _).severAllLinks).emit rfl
  | recv fromId msg =>
    cases hs
    exact moves_receive rfl
  | cancelOnOtherDevices chatId =>
    cases hs
    rw [receiveCancel]
    split_ifs
    · exact Moves.refl.other rfl
    · exact .refl
  | resume i reply =>
    obtain ⟨task, htask, hs⟩ := Option.bind_eq_some_iff.1 hs
    exact (Moves.drop i .refl).continue (List.mem_of_getElem? htask) hs
  | chunk i sampleRate pcm =>
    obtain ⟨capture, hcapture, hs⟩ := Option.bind_eq_some_iff.1 hs
    obtain ⟨⟨hrunning, hlive⟩, hs⟩ := Option.ite_none_right_eq_some.1 hs
    cases hs
    split_ifs
    · exact .refl
    · exact .chunk rfl hcapture hrunning hlive
  | timeout id =>
    obtain ⟨timer, htimer, hs⟩ := Option.bind_eq_some_iff.1 hs
    obtain ⟨-, hs⟩ := Option.ite_none_right_eq_some.1 hs
    cases hs
    refine moves_timedOut htimer (Moves.refl.same
      ⟨rfl, rfl, rfl, rfl, rfl, rfl, rfl, rfl, fun id' timer' ht => ?_⟩)
    change (s₀.timeouts.timers.delete id).get? id' = some timer' at ht
    rw [InsMap.get?_delete] at ht
    split_ifs at ht
    exact ht
  | iceState peerId connected =>
    obtain ⟨-, hs⟩ := Option.ite_none_right_eq_some.1 hs
    cases hs
    have hset : Moves s₀ (.iceState peerId connected) { s₀ with
        pcs := s₀.pcs.set peerId connected } := Moves.refl.other rfl
    split_ifs
    · exact hset.clearConnectTimeout
    · exact hset
  | track peerId =>
    obtain ⟨-, hs⟩ := Option.ite_none_right_eq_some.1 hs
    cases hs
    exact Moves.refl.other rfl
  | _ =>
    cases hs
    exact Moves.refl.other rfl

end

end Hook

/-- An event of a step makes moves, from the state without its outputs. -/
theorem moves_of_step {s s' : Hook} {e : HookEvent} (hs : hook.step s e = some s') :
    Hook.Moves { s with out := [] } e s' :=
  Hook.moves_of_handle hs

end OneToThree.Call
