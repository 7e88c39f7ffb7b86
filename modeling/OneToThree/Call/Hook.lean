import Mathlib.Data.List.Basic
import OneToThree.Lib.Machine
import OneToThree.Lib.InsMap

/-!
# The state of the call hook

What `use-webrtc.ts` keeps for the one-to-one calls of a user: the call store, the
references of the hook, and the asynchronous functions that are waiting for something.
An asynchronous function is a `Task`, which stands at one of its `await`s (its `Stage`)
with the variables that it still needs.

* `Media`: the tracks of the microphone and of the camera, and the chains that process them.
* `RelayKeys`: the keys of the audio relay, as promises, their salts and the frame counters.
* `Timeouts`: the timers behind `connectTimeoutRef`.
* `Hook.purgePeer`, `Hook.severAllLinks`, `Hook.startRelayCapture`: the operations that the
  functions and the message handlers share.

Calls have one recipient. The media toggles, screen sharing and the names shown for a
peer are left out, as is the exchange of SDP and ICE within an existing peer connection:
of a connection only whether ICE is connected is known.
-/

namespace OneToThree.Call

abbrev UserId := ℕ
abbrev ChatId := ℕ
abbrev Sdp := String

/-- A per-call salt; the empty string, which the code takes for no salt, is no `Nonce`. -/
abbrev Nonce := ℕ

abbrev Pcm := List UInt8

/-! ## Media -/

abbrev TrackId := ℕ

/-- A local media stream: the constraints always ask for the microphone. -/
structure Feed where
  audio : TrackId
  video : Option TrackId
  deriving DecidableEq

def Feed.getTracks (stream : Feed) : List TrackId := stream.audio :: stream.video.toList

/-- A processing chain (of the voice, or of the camera): it owns the raw track. -/
structure Chain where
  rawTrack : TrackId
  processedTrack : TrackId
  deriving DecidableEq

/-- The local tracks, those that have not been stopped, and who holds them. -/
structure Media where
  nextTrack : TrackId
  live : List TrackId
  voiceProc : Option Chain
  camFx : Option Chain
  cameraFeed : Option TrackId
  deriving DecidableEq

namespace Media

variable (m : Media)

def stop (tracks : List TrackId) : Media := { m with live := m.live.filter (· ∉ tracks) }

/-- The stream of `getUserMedia`. -/
def captured (video : Bool) : Feed :=
  ⟨m.nextTrack, if video then some (m.nextTrack + 1) else none⟩

def getUserMedia (video : Bool) : Media :=
  { m with nextTrack := m.nextTrack + 2, live := m.live ++ (m.captured video).getTracks }

/-- A chain around a raw track. -/
def process (raw : TrackId) : Chain := ⟨raw, m.nextTrack⟩

def Chain.tracks (c : Chain) : List TrackId := [c.processedTrack, c.rawTrack]

/-- `terminateFeed`. -/
def terminateFeed (stream : Option Feed) : Media := m.stop (stream.elim [] Feed.getTracks)

def disposeVoice : Media :=
  { m.stop (m.voiceProc.elim [] Chain.tracks) with voiceProc := none }

def disposeCamera : Media :=
  { m.stop (m.camFx.elim [] Chain.tracks) with camFx := none }

/-- The stream after `attachVoiceChain`: with the processed microphone if there is one. -/
def voiced (stream : Feed) (ok : Bool) : Feed :=
  if ok then { stream with audio := m.nextTrack } else stream

/-- The end of `attachVoiceChain`. -/
def attachVoiceChain (stream : Feed) (ok : Bool) : Media :=
  { m with
    nextTrack := m.nextTrack + 1
    live := if ok then m.live ++ [m.nextTrack] else m.live
    voiceProc := if ok then some (m.process stream.audio) else none }

/-- The stream with the published camera track, after `wrapCameraTrack`. -/
def wrapped (stream : Feed) (ok : Bool) : Feed :=
  if ok then { stream with video := some m.nextTrack } else stream

/-- The end of `wrapCameraTrack`, which `attachVoiceChain` has been before; the published
    track becomes the camera of the call. -/
def wrapCameraTrack (stream : Feed) (ok : Bool) : Media :=
  { m with
    nextTrack := m.nextTrack + 1
    live := if ok then m.live ++ [m.nextTrack] else m.live
    camFx := if ok then stream.video.map m.process else m.camFx
    cameraFeed := (m.wrapped stream ok).video }

/-- What `severAllLinks` stops: the camera with its chain, the microphone with its own, and
    the local stream. -/
def release (stream : Option Feed) : Media :=
  let m := { m.disposeCamera.stop m.cameraFeed.toList with cameraFeed := none }
  m.disposeVoice.terminateFeed stream

end Media

/-! ## The keys of the audio relay -/

/-- The key that `deriveSharedSecret` makes of the pair of identities and of the label with
    the salt. It is symbolic: different pairs or labels give different keys. -/
structure RelayKey where
  lo : UserId
  hi : UserId
  nonce : Option Nonce
  deriving DecidableEq

def deriveSharedSecret (own peer : UserId) (nonce : Option Nonce) : RelayKey :=
  ⟨min own peer, max own peer, nonce⟩

theorem deriveSharedSecret_comm (a b : UserId) (nonce : Option Nonce) :
    deriveSharedSecret a b nonce = deriveSharedSecret b a nonce := by
  rw [deriveSharedSecret, deriveSharedSecret, Nat.min_comm, Nat.max_comm]

/-- What a relay frame is bound to: `relayFrameAad`. -/
structure Aad where
  fromId : UserId
  toId : UserId
  seq : ℕ
  deriving DecidableEq

/-- A sealed frame. Only who has the key can make one, or open it. -/
structure SealedFrame where
  key : RelayKey
  aad : Aad
  pcm : Pcm
  deriving DecidableEq

def decryptBytes (key : RelayKey) (frame : SealedFrame) (aad : Aad) : Option Pcm :=
  if frame.key = key ∧ frame.aad = aad then some frame.pcm else none

abbrev PromiseId := ℕ

/-- The relay keys by peer (as promises), the salts and the frame counters. -/
structure RelayKeys where
  relayKeys : InsMap UserId PromiseId
  relayCallNonce : InsMap UserId Nonce
  relaySeqOut : InsMap UserId ℕ
  relaySeqIn : InsMap UserId ℕ
  /-- The promises made so far: settled or not, and with a key or without one. -/
  promises : List (Option (Option RelayKey))

namespace RelayKeys

variable (r : RelayKeys) (peerId : UserId)

def setRelayCallNonce : Option Nonce → RelayKeys
  | none => r
  | some nonce =>
    if r.relayCallNonce.get? peerId = some nonce then r
    else { r with
      relayCallNonce := r.relayCallNonce.set peerId nonce
      relayKeys := r.relayKeys.delete peerId
      relaySeqOut := r.relaySeqOut.delete peerId
      relaySeqIn := r.relaySeqIn.delete peerId }

/-- The promise of `resolveRelaySharedKey`: the cached one, or a new one. -/
def promise : PromiseId := (r.relayKeys.get? peerId).getD r.promises.length

def resolve : RelayKeys :=
  match r.relayKeys.get? peerId with
  | some _ => r
  | none => { r with
      relayKeys := r.relayKeys.set peerId r.promises.length
      promises := r.promises ++ [none] }

/-- Caching a key that is there: `Promise.resolve(sharedKey)`. -/
def put (key : RelayKey) : RelayKeys :=
  { r with
    relayKeys := r.relayKeys.set peerId r.promises.length
    promises := r.promises ++ [some (some key)] }

def settle (p : PromiseId) (key : Option RelayKey) : RelayKeys :=
  { r with promises := r.promises.set p (some key) }

/-- The value of a settled promise. -/
def settled? (p : PromiseId) : Option (Option RelayKey) := r.promises[p]?.join

end RelayKeys

/-! ## Timers -/

abbrev TimerId := ℕ

inductive TimerAction
  /-- No peer connection connected in time; `fallback` says whether the audio relay is to
      be tried. -/
  | p2p (peerId : UserId) (chatId : ChatId) (fallback : Bool)
  /-- No audio came over the relay in time. -/
  | relay (peerId : UserId)
  deriving DecidableEq

structure Timer where
  due : ℕ
  action : TimerAction

structure Timeouts where
  connectTimeout : Option TimerId
  timers : InsMap TimerId Timer
  nextTimer : TimerId

namespace Timeouts

variable (t : Timeouts)

def clearConnectTimeout : Timeouts :=
  match t.connectTimeout with
  | none => t
  | some id => { t with connectTimeout := none, timers := t.timers.delete id }

/-- `connectTimeoutRef.current = window.setTimeout(..)`. -/
def setConnectTimeout (timer : Timer) : Timeouts :=
  { connectTimeout := some t.nextTimer
    timers := t.timers.set t.nextTimer timer
    nextTimer := t.nextTimer + 1 }

end Timeouts

/-! ## The call store -/

inductive Transport
  | webrtc
  | audioRelay
  deriving DecidableEq

structure InboundLinkRequest where
  peerId : UserId
  chatId : Option ChatId
  isVideo : Option Bool
  /-- No offer, or the offer `null`, or an SDP. -/
  offer : Option (Option Sdp)
  transport : Option Transport
  deriving DecidableEq

def upsertIncomingCall (current : Option InboundLinkRequest) (patch : InboundLinkRequest) :
    InboundLinkRequest :=
  match current with
  | none => patch
  | some current =>
    if current.peerId ≠ patch.peerId then patch
    else
      { peerId := patch.peerId
        chatId := patch.chatId <|> current.chatId
        isVideo := patch.isVideo <|> current.isVideo
        offer := patch.offer <|> current.offer
        transport := patch.transport <|> current.transport }

structure CallStore where
  localStream : Option Feed
  remoteStreams : InsSet UserId
  isCalling : Bool
  incomingCall : Option InboundLinkRequest
  callChatId : Option ChatId
  dndEnabled : Bool

namespace CallStore

variable (c : CallStore)

def setLocalStream (feed : Option Feed) : CallStore := { c with localStream := feed }
def setRemoteStream (peerId : UserId) : CallStore :=
  { c with remoteStreams := c.remoteStreams.add peerId }
def removeRemoteStream (peerId : UserId) : CallStore :=
  { c with remoteStreams := c.remoteStreams.delete peerId }
def setIncomingCall (request : Option InboundLinkRequest) : CallStore :=
  { c with incomingCall := request }
def setIsCalling (active : Bool) : CallStore := { c with isCalling := active }
def setCallChatId (chatId : Option ChatId) : CallStore := { c with callChatId := chatId }

/-- Everything but the preferences of the user. -/
def reset : CallStore :=
  { localStream := none, remoteStreams := ∅, isCalling := false, incomingCall := none
    callChatId := none, dndEnabled := c.dndEnabled }

end CallStore

/-! ## Messages -/

/-- What the users send each other through the server: `SignalPayload`. A field that the
    receiver checks the type of may be missing. -/
inductive Signal
  | offer (sdp : Sdp) (isVideo : Bool)
  | answer (sdp : Sdp)
  | ice
  | relayOffer (callNonce : Option Nonce)
  | relayAnswer (callNonce : Option Nonce)
  | relayFrame (frame : Option SealedFrame) (sampleRate : Option ℕ) (seq : Option ℕ)
  | promoteToGroup (chatId : Option ChatId)
  deriving DecidableEq

/-- A message to the server. -/
inductive ClientMessage
  | callInvite (chatId : ChatId) (isVideo : Bool)
  | callAccept (chatId : ChatId)
  | callReject (chatId : ChatId)
  | callLeave (chatId : ChatId)
  | webrtcSignal (targetUserId : UserId) (signal : Signal)
  deriving DecidableEq

/-- What a step does that is seen outside the hook. -/
inductive Output
  | send (msg : ClientMessage)
  | getUserMedia (video : Bool)
  | captureStarted (peerId : UserId)
  | seal (frame : SealedFrame)
  | play (peerId : UserId) (frame : SealedFrame) (sampleRate : ℕ)
  | joinGroupCall (chatId : ChatId) (video : Bool)
  deriving DecidableEq

/-! ## Tasks -/

/-- What a call is dialled with. -/
structure Dial where
  chatId : ChatId
  isVideo : Bool
  deriving DecidableEq

/-- The answer of the ICE endpoint, as far as the hook decides by it. -/
structure IceConfig where
  hasRelay : Bool
  p2pAllowed : Bool
  relayFallback : Bool
  deriving DecidableEq

/-- Who waits for `startRelayCapture`. -/
inductive CaptureCaller
  | accept
  | offer
  | answer
  deriving DecidableEq

/-- The `await`s of the asynchronous functions, with the variables needed after them. -/
inductive Stage
  -- `establishLink`
  | establishIce (dial : Dial)
  | establishMedia (dial : Dial) (config : IceConfig)
  | establishVoice (dial : Dial) (config : IceConfig) (stream : Feed)
  | establishCamera (dial : Dial) (config : IceConfig) (stream : Feed)
  | establishOffer (dial : Dial) (config : IceConfig)
  -- `establishAudioRelay`
  | relayMedia (chatId : ChatId) (sendInvite : Bool)
  | relayVoice (chatId : ChatId) (sendInvite : Bool) (stream : Feed)
  | relayKey (chatId : ChatId) (sendInvite : Bool) (stream : Feed) (key : PromiseId)
  -- `acceptLink`
  | acceptIce (inc : InboundLinkRequest)
  | acceptMedia (inc : InboundLinkRequest)
  | acceptVoice (inc : InboundLinkRequest) (stream : Feed)
  | acceptCamera (inc : InboundLinkRequest) (stream : Feed)
  | acceptAnswer
  -- `acceptAudioRelay`
  | acceptRelayMedia
  | acceptRelayVoice (stream : Feed)
  | acceptRelayKey (stream : Feed) (key : PromiseId)
  -- `startRelayCapture`, and the caller going on after it
  | captureKey (caller : CaptureCaller) (stream : Feed) (key : PromiseId)
  | captureStart (caller : CaptureCaller) (stream : Feed) (key : RelayKey)
  | captured (caller : CaptureCaller) (stream : Feed) (started : Bool)
  -- the handler of `relay_frame`
  | frameKey (frame : SealedFrame) (sampleRate seq : ℕ) (key : PromiseId)
  | frameOpen (frame : SealedFrame) (sampleRate seq : ℕ) (key : RelayKey)
  | framePlayed
  -- the chunk handler of a capture
  | sealing (capture : ℕ) (sampleRate : ℕ) (frame : SealedFrame)
  -- `resolveRelaySharedKey`, before and after the salt is read
  | deriveNonce (key : PromiseId)
  | deriveSecret (key : PromiseId) (nonce : Option Nonce)
  -- `promoteToGroup`
  | createGroup
  deriving DecidableEq

/-- An asynchronous function at one of its `await`s; `peerId` is whom it is about. -/
structure Task where
  peerId : UserId
  stage : Stage
  deriving DecidableEq

/-- A relay capture: the track it reads, and the key that its frames are sealed with. -/
structure Capture where
  peerId : UserId
  track : TrackId
  key : RelayKey
  running : Bool
  busy : Bool
  deriving DecidableEq

structure RecentPeer where
  peerId : UserId
  «until» : ℕ
  deriving DecidableEq

/-! ## The hook -/

structure Hook where
  userId : UserId
  activeChatId : Option ChatId
  store : CallStore
  media : Media
  /-- The peer connections, and whether ICE is connected. -/
  pcs : InsMap UserId Bool
  relayPlayers : InsSet UserId
  /-- The running captures by peer, as numbers in `captures`. -/
  relayCaptures : InsMap UserId ℕ
  relayPeers : InsSet UserId
  relayAwaitingAnswer : InsSet UserId
  p2pFallbackStarted : InsSet UserId
  recentCallPeer : Option RecentPeer
  keys : RelayKeys
  /-- All the captures that have been started. -/
  captures : List Capture
  timeouts : Timeouts
  /-- `Date.now()`. -/
  now : ℕ
  tasks : List Task
  /-- The outputs of the last step. -/
  out : List Output

/-- Stopping the capture number `id`, if there is one. -/
def stopCapture (captures : List Capture) (id : Option ℕ) : List Capture :=
  id.elim captures fun i => captures.modify i fun c => { c with running := false }

namespace Hook

/-- The hook of a user who has made no call yet. -/
def idle (userId : UserId) (activeChatId : Option ChatId) (dndEnabled : Bool) : Hook where
  userId
  activeChatId
  store := { localStream := none, remoteStreams := ∅, isCalling := false, incomingCall := none
             callChatId := none, dndEnabled }
  media := { nextTrack := 0, live := [], voiceProc := none, camFx := none, cameraFeed := none }
  pcs := ∅
  relayPlayers := ∅
  relayCaptures := ∅
  relayPeers := ∅
  relayAwaitingAnswer := ∅
  p2pFallbackStarted := ∅
  recentCallPeer := none
  keys := { relayKeys := ∅, relayCallNonce := ∅, relaySeqOut := ∅, relaySeqIn := ∅, promises := [] }
  captures := []
  timeouts := { connectTimeout := none, timers := ∅, nextTimer := 1 }
  now := 0
  tasks := []
  out := []

variable (s : Hook)

def emit (o : Output) : Hook := { s with out := s.out ++ [o] }

def send (msg : ClientMessage) : Hook := s.emit (.send msg)

def transmitSignal (targetUserId : UserId) (signal : Signal) : Hook :=
  s.send (.webrtcSignal targetUserId signal)

/-- Waiting for something, at the given stage. -/
def await (peerId : UserId) (stage : Stage) : Hook := { s with tasks := s.tasks ++ [⟨peerId, stage⟩] }

def setRelayCallNonce (peerId : UserId) (nonce : Option Nonce) : Hook :=
  { s with keys := s.keys.setRelayCallNonce peerId nonce }

def clearConnectTimeout : Hook := { s with timeouts := s.timeouts.clearConnectTimeout }

/-- A timer of 30 seconds. -/
def setConnectTimeout (action : TimerAction) : Hook :=
  { s with timeouts := s.timeouts.setConnectTimeout ⟨s.now + 30000, action⟩ }

/-- `resolveRelaySharedKey`, up to its promise: a derivation is started if none is cached. -/
def resolveRelaySharedKey (peerId : UserId) : Hook :=
  { s with
    keys := s.keys.resolve peerId
    tasks := s.tasks ++ if s.keys.relayKeys.has peerId then []
      else [⟨peerId, .deriveNonce s.keys.promises.length⟩] }

def stopRelayPeer (peerId : UserId) : Hook :=
  { s with
    captures := stopCapture s.captures (s.relayCaptures.get? peerId)
    relayCaptures := s.relayCaptures.delete peerId
    relayPlayers := s.relayPlayers.delete peerId
    keys := { s.keys with relayKeys := s.keys.relayKeys.delete peerId }
    relayPeers := s.relayPeers.delete peerId
    relayAwaitingAnswer := s.relayAwaitingAnswer.delete peerId }

def ensureRelayPlayer (peerId : UserId) : Hook :=
  if s.relayPlayers.has peerId then s
  else { s with
    relayPlayers := s.relayPlayers.add peerId
    relayPeers := s.relayPeers.add peerId
    store := s.store.setRemoteStream peerId }

def purgePeer (peerId : UserId) : Hook :=
  { s with
    recentCallPeer := some ⟨peerId, s.now + 30000⟩
    pcs := s.pcs.delete peerId
    store := s.store.removeRemoteStream peerId
    p2pFallbackStarted := s.p2pFallbackStarted.delete peerId }.stopRelayPeer peerId

/-- Purging several peers in turn. -/
def purgePeers (peerIds : List UserId) : Hook := peerIds.foldl purgePeer s

def severAllLinks : Hook :=
  let s := s.clearConnectTimeout
  let s := { s with
    out := s.out ++ ((s.store.callChatId <|> s.activeChatId).toList.map fun chatId =>
      Output.send (.callLeave chatId)) }
  let s := s.purgePeers s.pcs.keys
  let s := s.purgePeers s.relayPeers.keys
  { s with
    p2pFallbackStarted := ∅
    media := s.media.release s.store.localStream
    store := s.store.reset }

/-- `startRelayCapture`, up to its first `await`. -/
def startRelayCapture (peerId : UserId) (caller : CaptureCaller) (stream : Feed) : Hook :=
  if s.relayCaptures.has peerId then s.await peerId (.captured caller stream true)
  else (s.resolveRelaySharedKey peerId).await peerId
    (.captureKey caller stream (s.keys.promise peerId))

end Hook

end OneToThree.Call
