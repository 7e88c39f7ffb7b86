import OneToThree.Call.Hook

/-!
# Setting up a call

The asynchronous functions of the hook, cut at their `await`s: `establishLink`,
`establishAudioRelay`, `fallbackToAudioRelay`, `acceptLink`, `acceptAudioRelay`,
`startRelayCapture`, the handler of `relay_frame`, the chunk handler of a capture,
`resolveRelaySharedKey` and `promoteToGroup`. What a function does up to its first
`await` goes by its name; `Hook.continue` is what it does from one `await` to the next,
given the `Reply` to what it has waited for.

Nothing runs between the return of an awaited function and its caller going on, save
where another `await` stands in between.
-/

namespace OneToThree.Call

/-- What a task has been waiting for. -/
inductive Reply
  /-- It succeeded: the media are captured, the chain or the capture runs, the key is looked
      up or derived, or the promise is settled. -/
  | ok
  /-- It failed. -/
  | failed
  /-- The ICE configuration has been fetched. -/
  | ice (config : IceConfig)
  /-- The offer or the answer is made and set. -/
  | described (sdp : Sdp)
  /-- The key promise is settled, and these are the next random bytes. -/
  | minted (nonce : Nonce)
  /-- The group chat has been created. -/
  | created (chatId : ChatId)
  deriving DecidableEq

namespace Hook

variable (s : Hook) (peerId : UserId)

/-- `captureLocalFeed`, asked for. -/
def captureLocalFeed (video : Bool) : Hook := s.emit (.getUserMedia video)

/-- The media of `captureLocalFeed` have come, and `attachVoiceChain` begins. -/
def mediaCaptured (video : Bool) : Hook :=
  { s with media := (s.media.getUserMedia video).disposeVoice }

/-- `attachVoiceChain` ends. -/
def voiceAttached (stream : Feed) (ok : Bool) : Hook :=
  { s with media := s.media.attachVoiceChain stream ok }

/-! ## establishAudioRelay -/

def establishAudioRelay (chatId : ChatId) (sendInvite : Bool) : Hook :=
  (({ s with store := s.store.setCallChatId (some chatId) } : Hook).captureLocalFeed false).await
    peerId (.relayMedia chatId sendInvite)

/-- No key: the stream is dropped. -/
def relayKeyUnavailable (stream : Feed) : Hook :=
  { s with
    media := s.media.terminateFeed (some stream)
    store := s.store.setIsCalling false }

/-- The relay call is on, under a salt that is minted now. -/
def relayOpened (chatId : ChatId) (sendInvite : Bool) (stream : Feed) (sharedKey : RelayKey)
    (callNonce : Nonce) : Hook :=
  let s := { s with
    keys := s.keys.put peerId sharedKey
    relayPeers := s.relayPeers.add peerId
    relayAwaitingAnswer := s.relayAwaitingAnswer.add peerId
    store := (s.store.setLocalStream (some stream)).setIsCalling true
    out := s.out ++ if sendInvite then [Output.send (.callInvite chatId false)] else [] }
  ((s.setRelayCallNonce peerId (some callNonce)).transmitSignal peerId
    (.relayOffer (some callNonce))).setConnectTimeout (.relay peerId)

def fallbackToAudioRelay (chatId : ChatId) : Hook :=
  if s.relayPeers.has peerId || s.relayAwaitingAnswer.has peerId
    || s.p2pFallbackStarted.has peerId then s
  else
    ({ s with
      p2pFallbackStarted := s.p2pFallbackStarted.add peerId
      pcs := s.pcs.delete peerId
      store := s.store.removeRemoteStream peerId
      media := s.media.terminateFeed s.store.localStream } : Hook).establishAudioRelay
        peerId chatId false

/-! ## establishLink -/

def establishLink (dial : Dial) (online : Bool) : Hook :=
  let s := { s with store := s.store.setCallChatId (some dial.chatId) }
  if !online then s
  else if peerId = s.userId ∨ s.pcs.has peerId then s.severAllLinks
  else s.await peerId (.establishIce dial)

def establishIceFetched (dial : Dial) (config : IceConfig) : Hook :=
  if !config.hasRelay && !config.p2pAllowed then s.establishAudioRelay peerId dial.chatId true
  else (s.captureLocalFeed dial.isVideo).await peerId (.establishMedia dial config)

/-- The local stream is published, and a peer connection is opened. -/
def establishPublish (dial : Dial) (config : IceConfig) (stream : Feed) : Hook :=
  (({ s with
    store := (s.store.setLocalStream (some stream)).setIsCalling true
    pcs := s.pcs.set peerId false } : Hook).send (.callInvite dial.chatId dial.isVideo)).await
      peerId (.establishOffer dial config)

/-- The voice chain is there; a camera is wrapped next. -/
def establishVoiced (dial : Dial) (config : IceConfig) (stream : Feed) : Hook :=
  if stream.video.isSome then
    ({ s with media := s.media.disposeCamera } : Hook).await peerId
      (.establishCamera dial config stream)
  else
    ({ s with media := { s.media with cameraFeed := none } } : Hook).establishPublish
      peerId dial config stream

def establishOffered (dial : Dial) (config : IceConfig) : Hook :=
  if s.pcs.size > 0 then
    s.setConnectTimeout (.p2p peerId dial.chatId (!config.hasRelay && config.relayFallback))
  else s.severAllLinks

/-! ## acceptLink -/

def acceptAudioRelay : Hook := (s.captureLocalFeed false).await peerId .acceptRelayMedia

def acceptLink : Hook :=
  match s.store.incomingCall with
  | none => s
  | some inc =>
    let s := { s with
      store := s.store.setCallChatId (inc.chatId <|> s.store.callChatId)
      out := s.out ++ inc.chatId.toList.map fun chatId => Output.send (.callAccept chatId) }
    if inc.transport = some .audioRelay then s.acceptAudioRelay inc.peerId
    else s.await inc.peerId (.acceptIce inc)

/-- `setIncomingCall(null)`. -/
def dismissIncomingCall : Hook := { s with store := s.store.setIncomingCall none }

/-- The local stream is published, and the offer of the caller is applied. -/
def acceptPublish (inc : InboundLinkRequest) (stream : Feed) : Hook :=
  let s := { s with
    store := (s.store.setLocalStream (some stream)).setIsCalling true
    pcs := s.pcs.set peerId false }
  if (inc.offer.join.getD "") ≠ "" then s.await peerId .acceptAnswer else s.dismissIncomingCall

def acceptVoiced (inc : InboundLinkRequest) (stream : Feed) : Hook :=
  if stream.video.isSome then
    ({ s with media := s.media.disposeCamera } : Hook).await peerId (.acceptCamera inc stream)
  else
    ({ s with media := { s.media with cameraFeed := none } } : Hook).acceptPublish
      peerId inc stream

/-- The relay call is on, and the capture begins. -/
def acceptRelayOpened (stream : Feed) (sharedKey : RelayKey) : Hook :=
  ({ s with
    keys := s.keys.put peerId sharedKey
    relayPeers := s.relayPeers.add peerId
    store := (s.store.setLocalStream (some stream)).setIsCalling true } : Hook).startRelayCapture
      peerId .accept stream

/-! ## The audio relay -/

/-- The capture runs: `relayCapturesRef.current.set(peerId, capture)`. -/
def relayCaptureStarted (stream : Feed) (key : RelayKey) : Hook :=
  ({ s with
    captures := s.captures ++ [⟨peerId, stream.audio, key, true, false⟩]
    relayCaptures := s.relayCaptures.set peerId s.captures.length
    relayPeers := s.relayPeers.add peerId } : Hook).emit (.captureStarted peerId)

/-- What the callers of `startRelayCapture` do with its result. -/
def relayCaptured (stream : Feed) (started : Bool) : CaptureCaller → Hook
  | .accept =>
    if started then
      (s.transmitSignal peerId (.relayAnswer (s.keys.relayCallNonce.get? peerId))).dismissIncomingCall
    else ({ s with media := s.media.terminateFeed (some stream) } : Hook).dismissIncomingCall
  | .offer =>
    if started then
      (s.transmitSignal peerId (.relayAnswer (s.keys.relayCallNonce.get? peerId))).ensureRelayPlayer
        peerId
    else s
  | .answer => s

/-- A frame that opened is played. -/
def playFrame (frame : SealedFrame) (sampleRate seq : ℕ) : Hook :=
  let s := { s with
    keys := { s.keys with relaySeqIn := s.keys.relaySeqIn.set peerId seq } }
  ((s.ensureRelayPlayer peerId).emit (.play peerId frame sampleRate)).await peerId .framePlayed

/-- The chunk handler of a running capture that is not busy: a frame is sealed. -/
def captureChunk (i : ℕ) (capture : Capture) (sampleRate : ℕ) (pcm : Pcm) : Hook :=
  let seq := (s.keys.relaySeqOut.get? capture.peerId).getD 0 + 1
  let frame : SealedFrame := ⟨capture.key, ⟨s.userId, capture.peerId, seq⟩, pcm⟩
  (({ s with
    captures := s.captures.set i { capture with busy := true }
    keys := { s.keys with relaySeqOut := s.keys.relaySeqOut.set capture.peerId seq } } : Hook).emit
      (.seal frame)).await capture.peerId (.sealing i sampleRate frame)

/-- The frame is sealed: it goes to the peer. -/
def frameSealed (i sampleRate : ℕ) (frame : SealedFrame) : Hook :=
  ({ s with captures := s.captures.modify i fun c => { c with busy := false } } : Hook).transmitSignal
    peerId (.relayFrame (some frame) (some sampleRate) (some frame.aad.seq))

/-! ## Going on -/

/-- A task goes on to its next `await`, or to its end. -/
def «continue» (peerId : UserId) : Stage → Reply → Option Hook
  -- `establishLink`
  | .establishIce dial, .failed => some (s.establishAudioRelay peerId dial.chatId true)
  | .establishIce dial, .ice config => some (s.establishIceFetched peerId dial config)
  | .establishMedia _ _, .failed => some s
  | .establishMedia dial config, .ok =>
    some ((s.mediaCaptured dial.isVideo).await peerId
      (.establishVoice dial config (s.media.captured dial.isVideo)))
  | .establishVoice dial config stream, reply =>
    if reply = .ok ∨ reply = .failed then
      let ok := decide (reply = .ok)
      some ((s.voiceAttached stream ok).establishVoiced peerId dial config (s.media.voiced stream ok))
    else none
  | .establishCamera dial config stream, reply =>
    if reply = .ok ∨ reply = .failed then
      let ok := decide (reply = .ok)
      some (({ s with media := s.media.wrapCameraTrack stream ok } : Hook).establishPublish
        peerId dial config (s.media.wrapped stream ok))
    else none
  | .establishOffer dial config, .failed => some (s.establishOffered peerId dial config)
  | .establishOffer dial config, .described sdp =>
    some ((s.transmitSignal peerId
      (.offer sdp (s.store.localStream.any fun stream => stream.video.isSome))).establishOffered
        peerId dial config)
  -- `establishAudioRelay`
  | .relayMedia _ _, .failed => some s
  | .relayMedia chatId sendInvite, .ok =>
    some ((s.mediaCaptured false).await peerId
      (.relayVoice chatId sendInvite (s.media.captured false)))
  | .relayVoice chatId sendInvite stream, reply =>
    if reply = .ok ∨ reply = .failed then
      let ok := decide (reply = .ok)
      some (((s.voiceAttached stream ok).resolveRelaySharedKey peerId).await peerId
        (.relayKey chatId sendInvite (s.media.voiced stream ok) (s.keys.promise peerId)))
    else none
  | .relayKey chatId sendInvite stream key, .minted callNonce =>
    (s.keys.settled? key).join.map fun sharedKey =>
      s.relayOpened peerId chatId sendInvite stream sharedKey callNonce
  | .relayKey _ _ stream key, .failed =>
    if s.keys.settled? key = some none then some (s.relayKeyUnavailable stream) else none
  -- `acceptLink`
  | .acceptIce _, .failed => some s.dismissIncomingCall
  | .acceptIce inc, .ice _ =>
    some ((s.captureLocalFeed (inc.isVideo.getD false)).await peerId (.acceptMedia inc))
  | .acceptMedia _, .failed => some s.dismissIncomingCall
  | .acceptMedia inc, .ok =>
    some ((s.mediaCaptured (inc.isVideo.getD false)).await peerId
      (.acceptVoice inc (s.media.captured (inc.isVideo.getD false))))
  | .acceptVoice inc stream, reply =>
    if reply = .ok ∨ reply = .failed then
      let ok := decide (reply = .ok)
      some ((s.voiceAttached stream ok).acceptVoiced peerId inc (s.media.voiced stream ok))
    else none
  | .acceptCamera inc stream, reply =>
    if reply = .ok ∨ reply = .failed then
      let ok := decide (reply = .ok)
      some (({ s with media := s.media.wrapCameraTrack stream ok } : Hook).acceptPublish
        peerId inc (s.media.wrapped stream ok))
    else none
  | .acceptAnswer, .described sdp =>
    some (s.transmitSignal peerId (.answer sdp)).dismissIncomingCall
  | .acceptAnswer, .failed => some s.severAllLinks.dismissIncomingCall
  -- `acceptAudioRelay`
  | .acceptRelayMedia, .failed => some s.dismissIncomingCall
  | .acceptRelayMedia, .ok =>
    some ((s.mediaCaptured false).await peerId (.acceptRelayVoice (s.media.captured false)))
  | .acceptRelayVoice stream, reply =>
    if reply = .ok ∨ reply = .failed then
      let ok := decide (reply = .ok)
      some (((s.voiceAttached stream ok).resolveRelaySharedKey peerId).await peerId
        (.acceptRelayKey (s.media.voiced stream ok) (s.keys.promise peerId)))
    else none
  | .acceptRelayKey stream key, .ok =>
    (s.keys.settled? key).map fun
      | some sharedKey => s.acceptRelayOpened peerId stream sharedKey
      | none =>
        ({ s with media := s.media.terminateFeed (some stream) } : Hook).dismissIncomingCall
  -- `startRelayCapture`
  | .captureKey caller stream key, .ok =>
    (s.keys.settled? key).map fun
      | some sharedKey => s.await peerId (.captureStart caller stream sharedKey)
      | none => s.await peerId (.captured caller stream false)
  | .captureStart caller stream key, .ok =>
    some ((s.relayCaptureStarted peerId stream key).await peerId (.captured caller stream true))
  -- The capture throws: the caller does not go on.
  | .captureStart _ _ _, .failed => some s
  | .captured caller stream started, .ok => some (s.relayCaptured peerId stream started caller)
  -- The handler of `relay_frame`
  | .frameKey frame sampleRate seq key, .ok =>
    (s.keys.settled? key).map fun
      | some sharedKey => s.await peerId (.frameOpen frame sampleRate seq sharedKey)
      | none => s
  | .frameOpen frame sampleRate seq key, .ok =>
    some (match decryptBytes key frame ⟨peerId, s.userId, seq⟩ with
      | some _ => s.playFrame peerId frame sampleRate seq
      | none => s)
  | .framePlayed, .ok => some s.clearConnectTimeout
  -- The chunk handler of a capture
  | .sealing i sampleRate frame, .ok => some (s.frameSealed peerId i sampleRate frame)
  -- `resolveRelaySharedKey`
  | .deriveNonce key, .ok =>
    some (s.await peerId (.deriveSecret key (s.keys.relayCallNonce.get? peerId)))
  | .deriveNonce key, .failed => some { s with keys := s.keys.settle key none }
  | .deriveSecret key nonce, .ok =>
    some { s with keys := s.keys.settle key (some (deriveSharedSecret s.userId peerId nonce)) }
  | .deriveSecret key _, .failed => some { s with keys := s.keys.settle key none }
  -- `promoteToGroup`
  | .createGroup, .created chatId =>
    some ((s.transmitSignal peerId (.promoteToGroup (some chatId))).severAllLinks.emit
      (.joinGroupCall chatId false))
  | .createGroup, .failed => some s
  | _, _ => none

end Hook

end OneToThree.Call
