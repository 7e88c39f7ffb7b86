import OneToThree.Call.Links

/-!
# The call hook

The handlers of the socket messages and the local actions, and the hook as a machine:
its events are the actions of the user, the messages of the server, the answers that
the asynchronous functions wait for, the audio of the captures, and the time.

The server relays a signal from every user who shares a chat with the receiver and is
not blocked, and a `call_leave` or `call_reject` to every member of the chat: any sender
and any message can come at any time.
-/

namespace OneToThree.Call

/-- A message from another user. -/
inductive Message
  | callInvite (chatId : ChatId) (isVideo : Bool)
  | callLeave (chatId : ChatId)
  | callReject (chatId : ChatId)
  | signal (data : Signal)
  deriving DecidableEq

inductive HookEvent
  /-- `establishLink`. -/
  | start (peerId : UserId) (dial : Dial) (online : Bool)
  /-- `acceptLink`. -/
  | accept
  /-- `rejectLink`. -/
  | reject
  /-- `severAllLinks`, by the user (or as the page is left). -/
  | hangUp
  | promoteToGroup (inviteeUserId : UserId)
  | openCallToGuests (chatId : ChatId) (inRoom : Bool)
  | setDndEnabled (enabled : Bool)
  | setActiveChatId (chatId : Option ChatId)
  /-- A message of another user arrives. -/
  | recv (fromId : UserId) (msg : Message)
  /-- Another device of the user has accepted the call. -/
  | cancelOnOtherDevices (chatId : ChatId)
  /-- The task number `i` goes on. -/
  | resume (i : ℕ) (reply : Reply)
  /-- The capture number `i` has a chunk of audio. -/
  | chunk (i : ℕ) (sampleRate : ℕ) (pcm : Pcm)
  /-- A timer fires. -/
  | timeout (id : TimerId)
  /-- The ICE state of a peer connection changes. -/
  | iceState (peerId : UserId) (connected : Bool)
  /-- A remote track arrives. -/
  | track (peerId : UserId)
  | tick (ms : ℕ)
  deriving DecidableEq

namespace Hook

variable (s : Hook) (fromId : UserId)

/-! ## Messages -/

def receiveInvite (chatId : ChatId) (isVideo : Bool) : Hook :=
  let ringingForSamePeer := s.store.incomingCall.any fun inc => inc.peerId = fromId
  if s.store.dndEnabled || s.store.isCalling
      || (s.store.incomingCall.isSome && !ringingForSamePeer) then
    s.send (.callReject chatId)
  else
    { s with store := s.store.setIncomingCall (some (upsertIncomingCall s.store.incomingCall
        ⟨fromId, some chatId, some isVideo, none, none⟩)) }

def receiveLeave : Hook :=
  let s := s.purgePeer fromId
  if s.pcs.size = 0 ∧ s.store.isCalling then s.severAllLinks else s

def receiveReject : Hook :=
  let s := s.purgePeer fromId
  if s.store.isCalling then s.severAllLinks else s

/-- The guard of `promote_to_group`. -/
def inCallWith : Bool :=
  s.pcs.has fromId || s.relayPeers.has fromId
    || s.store.incomingCall.any (fun inc => inc.peerId = fromId)
    || s.recentCallPeer.any fun recent => recent.peerId = fromId && s.now < recent.until

def receivePromote : Option ChatId → Hook
  | none => s
  | some chatId =>
    if s.inCallWith fromId then s.severAllLinks.emit (.joinGroupCall chatId false) else s

def receiveRelayOffer (callNonce : Option Nonce) : Hook :=
  let s := s.setRelayCallNonce fromId callNonce
  if s.store.isCalling then
    let s := { s with
      pcs := s.pcs.delete fromId
      store := s.store.removeRemoteStream fromId }
    match s.store.localStream with
    | some localStream => s.startRelayCapture fromId .offer localStream
    | none => s
  else
    { s with store := s.store.setIncomingCall (some (upsertIncomingCall s.store.incomingCall
        ⟨fromId, none, some false, some none, some .audioRelay⟩)) }

def receiveRelayAnswer (callNonce : Option Nonce) : Hook :=
  let s := s.setRelayCallNonce fromId callNonce
  let s := { s with
    relayAwaitingAnswer := s.relayAwaitingAnswer.delete fromId }.clearConnectTimeout
  match s.store.localStream with
  | some localStream => s.startRelayCapture fromId .answer localStream
  | none => s

def receiveRelayFrame (frame : SealedFrame) (sampleRate : ℕ) : Option ℕ → Hook
  | none => s
  | some seq =>
    if s.relayPeers.has fromId ∧ (s.keys.relaySeqIn.get? fromId).getD 0 < seq then
      (s.resolveRelaySharedKey fromId).await fromId
        (.frameKey frame sampleRate seq (s.keys.promise fromId))
    else s

/-- An offer within a peer connection is a renegotiation, which changes nothing here. -/
def receiveOffer (sdp : Sdp) (isVideo : Bool) : Hook :=
  if s.pcs.has fromId then s
  else if s.store.isCalling || s.store.incomingCall.any fun inc => inc.peerId ≠ fromId then s
  else
    { s with store := s.store.setIncomingCall (some (upsertIncomingCall s.store.incomingCall
        ⟨fromId, none, some isVideo, some (some sdp), some .webrtc⟩)) }

def receiveSignal : Signal → Hook
  | .promoteToGroup chatId => s.receivePromote fromId chatId
  | .relayOffer callNonce => s.receiveRelayOffer fromId callNonce
  | .relayAnswer callNonce => s.receiveRelayAnswer fromId callNonce
  | .relayFrame (some frame) (some sampleRate) seq => s.receiveRelayFrame fromId frame sampleRate seq
  | .offer sdp isVideo => s.receiveOffer fromId sdp isVideo
  | .relayFrame _ _ _ | .answer _ | .ice => s

def receive : Message → Hook
  | .callInvite chatId isVideo => s.receiveInvite fromId chatId isVideo
  | .callLeave _ => s.receiveLeave fromId
  | .callReject _ => s.receiveReject fromId
  | .signal data => if fromId = s.userId then s else s.receiveSignal fromId data

def receiveCancel (chatId : ChatId) : Hook :=
  if s.store.incomingCall.any fun inc => inc.chatId = some chatId then s.dismissIncomingCall else s

/-! ## Local actions -/

def rejectLink : Hook :=
  ({ s with
    out := s.out ++ (s.store.incomingCall.bind InboundLinkRequest.chatId).toList.map fun chatId =>
      Output.send (.callReject chatId) } : Hook).dismissIncomingCall

/-- The peers of the running call: those connected, then those on the relay. -/
def callPeers : List UserId := (s.pcs.keys ++ s.relayPeers.keys).dedup.filter (· ≠ s.userId)

/-- `promoteToGroup`; it throws without a peer, or when the invitee is in the call. -/
def promoteToGroup (inviteeUserId : UserId) : Hook :=
  match s.callPeers with
  | [] => s
  | peerId :: _ =>
    if inviteeUserId = peerId ∨ inviteeUserId = s.userId then s else s.await peerId .createGroup

def openCallToGuests (chatId : ChatId) (inRoom : Bool) : Hook :=
  if inRoom || !s.store.isCalling || s.store.callChatId ≠ some chatId then s
  else
    (s.callPeers.foldl (fun s peerId => s.transmitSignal peerId (.promoteToGroup (some chatId)))
      s).severAllLinks.emit
        (.joinGroupCall chatId (s.store.localStream.any fun stream => stream.video.isSome))

/-! ## Timers and captures -/

def timedOut : TimerAction → Hook
  | .p2p peerId chatId fallback =>
    if !s.pcs.entries.any (·.2) && s.store.isCalling then
      if fallback then s.fallbackToAudioRelay peerId chatId else s.severAllLinks
    else s
  | .relay peerId =>
    if !s.store.remoteStreams.has peerId && s.store.isCalling then s.severAllLinks else s

/-- The step of an event. -/
def handle : HookEvent → Option Hook
  | .start peerId dial online => some (s.establishLink peerId dial online)
  | .accept => some s.acceptLink
  | .reject => some s.rejectLink
  | .hangUp => some s.severAllLinks
  | .promoteToGroup inviteeUserId => some (s.promoteToGroup inviteeUserId)
  | .openCallToGuests chatId inRoom => some (s.openCallToGuests chatId inRoom)
  | .setDndEnabled enabled => some { s with store := { s.store with dndEnabled := enabled } }
  | .setActiveChatId chatId => some { s with activeChatId := chatId }
  | .recv fromId msg => some (s.receive fromId msg)
  | .cancelOnOtherDevices chatId => some (s.receiveCancel chatId)
  | .resume i reply =>
    s.tasks[i]?.bind fun task =>
      ({ s with tasks := s.tasks.eraseIdx i } : Hook).continue task.peerId task.stage reply
  | .chunk i sampleRate pcm =>
    s.captures[i]?.bind fun capture =>
      if capture.running ∧ capture.track ∈ s.media.live then
        some (if capture.busy then s else s.captureChunk i capture sampleRate pcm)
      else none
  | .timeout id =>
    (s.timeouts.timers.get? id).bind fun timer =>
      if timer.due ≤ s.now then
        some (({ s with timeouts := { s.timeouts with timers := s.timeouts.timers.delete id } } :
          Hook).timedOut timer.action)
      else none
  | .iceState peerId connected =>
    if s.pcs.has peerId then
      let s := { s with pcs := s.pcs.set peerId connected }
      some (if connected then s.clearConnectTimeout else s)
    else none
  | .track peerId =>
    if s.pcs.has peerId then some { s with store := s.store.setRemoteStream peerId } else none
  | .tick ms => some { s with now := s.now + ms }

end Hook

/-- The call hook as a machine. -/
def hook : Machine Hook HookEvent where
  init s := ∃ userId activeChatId dndEnabled, s = Hook.idle userId activeChatId dndEnabled
  step s ev := ({ s with out := [] } : Hook).handle ev

end OneToThree.Call
