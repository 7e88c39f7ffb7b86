import Mathlib.Data.List.Basic
import OneToThree.Lib.Machine
import OneToThree.Lib.InsMap

/-!
# The manager of group calls

What `group-call-manager.ts` keeps of the call of a user, with the SFU room of
`livekit-call-manager.ts`. An asynchronous function is a `Task`, which stands at one of its `await`s
with the variables that it still needs, and what it waited for comes with the event that resumes it.

A track is known by the hardware track that it comes from: a chain processes it and owns it from
then on. Of a peer connection it is only known whose it is and whether it is open, so that the
exchange of SDP and ICE within one is left out, as are the participants with their tiles and what
the SFU room captures. The awaits in a row that nothing happens between are one.
-/

namespace OneToThree.GroupCall

abbrev UserId := ℕ
abbrev RoomId := ℕ

/-- A hardware track, as obtained from `getUserMedia` or `getDisplayMedia`. -/
abbrev TrackId := ℕ

abbrev StreamId := ℕ
abbrev PcId := ℕ
abbrev CaptureId := ℕ

/-- A room of the SFU. -/
abbrev SfuRoomId := ℕ

abbrev TaskId := ℕ

inductive Track
  | raw (id : TrackId)
  /-- What a chain makes of a hardware track. -/
  | processed (of : TrackId)
  deriving DecidableEq

/-- The hardware track that it comes from. -/
def Track.source : Track → TrackId
  | .raw id | .processed id => id

/-- Stopping a track stops the hardware only if it is its own. -/
def Track.hardware : Track → Option TrackId
  | .raw id => some id
  | .processed _ => none

inductive Transport
  | mesh
  | audioRelay
  | livekit
  deriving DecidableEq

structure CallConfig where
  origin_safe : Bool
  group_relay_enabled : Bool
  /-- `livekit_enabled`, with a `livekit_url`. -/
  livekit : Bool
  mesh_fallback_enabled : Bool
  deriving DecidableEq

inductive Signal
  | join (room : RoomId)
  | leave (room : RoomId)
  deriving DecidableEq

/-- The awaits, with the variables that are needed after them. -/
inductive Task
  -- `joinGroupCall`; `mesh` is `mesh_fallback_enabled`
  | joinConfig (room : RoomId) (isVideo : Bool)
  | joinLoad (room : RoomId) (isVideo mesh : Bool)
  | meshMedia (room : RoomId) (isVideo : Bool)
  | meshVoice (room : RoomId) (stream : StreamId) (mic : TrackId) (camera : Option TrackId)
  | meshCamera (room : RoomId) (stream : StreamId) (camera : TrackId)
  -- `joinGroupAudioRelayCall`
  | relayMedia (room : RoomId)
  | relayVoice (room : RoomId) (stream : StreamId) (mic : TrackId)
  -- `joinLiveKitCall`
  | sfuToken (room : RoomId) (isVideo mesh : Bool)
  | sfuConnect (room : RoomId) (isVideo mesh : Bool)
  | sfuPublish (room : RoomId) (isVideo mesh : Bool)
  | sfuDisconnect (room : RoomId) (isVideo mesh : Bool)
  /-- The SFU call was joined, and `joinGroupCall` goes on. -/
  | sfuJoined (room : RoomId)
  -- `leaveGroupCall`
  | sfuLeave
  -- `handleParticipantList`
  | participants (peers : List UserId) (localStream : Option StreamId)
  -- `startRelayCaptureForPeer`
  | captureKey (peer : UserId) (localStream : StreamId)
  | captureStart (peer : UserId) (localStream : StreamId)
  -- `handleGroupCallOffer`
  | offerIce (peer : UserId) (localStream : StreamId)
  | offerAnswer (peer : UserId)
  -- `toggleGroupCallVideo`
  | cameraMedia (localStream : StreamId)
  | cameraEffects (localStream : StreamId) (camera : TrackId)
  -- `startGroupCallScreenShare`
  | screenMedia (localStream : StreamId)
  deriving DecidableEq

/-- What was waited for. -/
inductive Outcome
  | failed
  | done
  | config (cfg : CallConfig)
  /-- `getUserMedia`: the tracks that were asked for. -/
  | media
  /-- `getDisplayMedia`, with or without a video or an audio track. -/
  | screen (video audio : Bool)
  /-- Whether there is a chain. -/
  | chain (handle : Bool)
  deriving DecidableEq

/-! ## Links -/

/-- The peer connections and the relay captures: what is registered under the peers, and what is
    open or runs. -/
structure Links where
  peerConnections : InsMap UserId PcId
  relayCaptures : InsMap UserId CaptureId
  openPcs : InsMap PcId UserId
  running : InsMap CaptureId UserId

namespace Links

variable (l : Links)

def stopRelayPeer (peer : UserId) : Links :=
  match l.relayCaptures.get? peer with
  | some capture =>
    { l with
      running := l.running.delete capture
      relayCaptures := l.relayCaptures.delete peer }
  | none => l

def closePc (peer : UserId) : Links :=
  match l.peerConnections.get? peer with
  | some pc =>
    { l with openPcs := l.openPcs.delete pc, peerConnections := l.peerConnections.delete peer }
  | none => l

def cleanupPeer (peer : UserId) : Links := (l.stopRelayPeer peer).closePc peer

/-- All of the peer connections. -/
def closeAll : Links := l.peerConnections.keys.foldl closePc l

/-- What `cleanupAll` does about the peers. -/
def cleanupAll : Links :=
  let l := l.peerConnections.keys.foldl cleanupPeer l
  l.relayCaptures.keys.foldl stopRelayPeer l

def createPeerConnection (peer : UserId) (pc : PcId) : Links :=
  { l with
    openPcs := l.openPcs.set pc peer
    peerConnections := l.peerConnections.set peer pc }

def startCapture (peer : UserId) (capture : CaptureId) : Links :=
  { l with
    running := l.running.set capture peer
    relayCaptures := l.relayCaptures.set peer capture }

end Links

/-! ## Tracks -/

structure Media where
  /-- The hardware tracks that run. -/
  live : List TrackId
  streams : InsMap StreamId (List Track)
  groupCameraTrack : Option Track
  groupScreenTrack : Option TrackId
  groupScreenAudioTrack : Option TrackId
  /-- The chain of the microphone, by the track that it owns. -/
  groupVoiceHandle : Option TrackId
  /-- The chain of the camera. -/
  groupCamFx : Option TrackId

namespace Media

variable (m : Media)

def stop (ids : List TrackId) : Media := { m with live := m.live.filter (· ∉ ids) }

/-- New tracks. -/
def start (ids : List TrackId) : Media := { m with live := m.live ++ ids }

def getTracks (stream : StreamId) : List Track := (m.streams.get? stream).getD []

def setTracks (stream : StreamId) (tracks : List Track) : Media :=
  { m with streams := m.streams.set stream tracks }

/-- The hardware tracks of a stream. -/
def hardware (stream : Option StreamId) : List TrackId :=
  (stream.elim [] m.getTracks).filterMap Track.hardware

def terminateFeed (stream : Option StreamId) : Media := m.stop (m.hardware stream)

def disposeVoice : Media := { m.stop m.groupVoiceHandle.toList with groupVoiceHandle := none }

def disposeCamFx : Media := { m.stop m.groupCamFx.toList with groupCamFx := none }

/-- A new stream of these tracks. -/
def capture (stream : StreamId) (ids : List TrackId) : Media :=
  (m.start ids).setTracks stream (ids.map Track.raw)

/-- A track in a stream gives way to what a chain makes of it. -/
def replaceTrack (stream : StreamId) (id : TrackId) : Media :=
  m.setTracks stream ((m.getTracks stream).erase (.raw id) ++ [.processed id])

def addTrack (stream : StreamId) (track : Track) : Media :=
  if track ∈ m.getTracks stream then m else m.setTracks stream (m.getTracks stream ++ [track])

def removeTrack (stream : StreamId) (track : Track) : Media :=
  m.setTracks stream ((m.getTracks stream).erase track)

/-- `readyState`: a processed track ends with the hardware. -/
def ended (track : Track) : Bool := track.source ∉ m.live

/-- The end of `attachGroupVoiceChain`, with a chain or without one. -/
def attachVoice (stream : StreamId) (mic : TrackId) : Bool → Media
  | true => { m.replaceTrack stream mic with groupVoiceHandle := some mic }
  | false => { m with groupVoiceHandle := none }

/-- The end of `wrapGroupCameraTrack`. -/
def wrapCamera (camera : TrackId) : Bool → Media
  | true => { m with groupCamFx := some camera }
  | false => m

/-- The track that is published. -/
def published (camera : TrackId) : Bool → Track
  | true => .processed camera
  | false => .raw camera

/-- The camera that a call begins with. -/
def publishCamera (stream : StreamId) (camera : TrackId) : Bool → Media
  | true =>
    { (m.wrapCamera camera true).replaceTrack stream camera with
      groupCameraTrack := some (published camera true) }
  | false =>
    { m.wrapCamera camera false with groupCameraTrack := some (published camera false) }

/-- A camera that is switched on during a call. -/
def cameraOn (stream : StreamId) (camera : TrackId) (handle : Bool) : Media :=
  { (m.wrapCamera camera handle).addTrack stream (published camera handle) with
    groupCameraTrack := some (published camera handle) }

/-- The camera is switched off, hardware and all. -/
def cameraOff (stream : StreamId) (camera : Track) : Media :=
  { (m.removeTrack stream camera).disposeCamFx.stop camera.hardware.toList with
    groupCameraTrack := none }

def screenOn (video : TrackId) (audio : Option TrackId) : Media :=
  { m.start (video :: audio.toList) with
    groupScreenTrack := some video
    groupScreenAudioTrack := audio }

def screenOff : Media :=
  { m.stop (m.groupScreenTrack.toList ++ m.groupScreenAudioTrack.toList) with
    groupScreenTrack := none
    groupScreenAudioTrack := none }

/-- What `cleanupAll` does about the tracks. -/
def release (localStream : Option StreamId) : Media :=
  let m := m.screenOff.disposeVoice.disposeCamFx
  { (m.stop (m.groupCameraTrack.bind Track.hardware).toList).terminateFeed localStream with
    groupCameraTrack := none }

end Media

/-! ## The state -/

structure State where
  -- `groupCallStore`
  isInGroupCall : Bool
  roomId : Option RoomId
  transport : Transport
  localStream : Option StreamId
  -- `group-call-manager`
  links : Links
  media : Media
  livekitActive : Bool
  groupRelayMode : Bool
  -- `livekit-call-manager`
  activeRoom : Option SfuRoomId
  /-- The SFU rooms that have not disconnected yet. -/
  sfuRooms : List SfuRoomId
  /-- What was sent. -/
  signals : List Signal
  /-- The number that is drawn next. -/
  fresh : ℕ
  tasks : InsMap TaskId Task
  started : TaskId

namespace State

/-- No call was made yet. -/
def idle : State where
  isInGroupCall := false
  roomId := none
  transport := .mesh
  localStream := none
  links := ⟨∅, ∅, ∅, ∅⟩
  media := ⟨[], ∅, none, none, none, none, none⟩
  livekitActive := false
  groupRelayMode := false
  activeRoom := none
  sfuRooms := []
  signals := []
  fresh := 0
  tasks := ∅
  started := 0

variable (s : State)

/-- Waiting for something. -/
def await (t : Task) : State :=
  { s with tasks := s.tasks.set s.started t, started := s.started + 1 }

def send (signal : Signal) : State := { s with signals := s.signals ++ [signal] }

/-- The `reset` of the store. -/
def reset : State :=
  { s with
    links := s.links.closeAll
    media := s.media.terminateFeed s.localStream
    isInGroupCall := false
    roomId := none
    transport := .mesh
    localStream := none }

def announceLeave : State :=
  match s.roomId with
  | some room => s.send (.leave room)
  | none => s

def cleanupAll : State :=
  { s.announceLeave with
    links := s.links.cleanupAll
    media := s.media.release s.localStream
    groupRelayMode := false }.reset

def cleanupPeer (peer : UserId) : State := { s with links := s.links.cleanupPeer peer }

/-- `startRelayCaptureForPeer`, up to its first wait. -/
def startRelayCaptureForPeer (peer : UserId) : State :=
  match s.localStream with
  | some stream =>
    if !s.groupRelayMode || s.roomId.isNone || s.links.relayCaptures.has peer then s
    else s.await (.captureKey peer stream)
  | none => s

def createPeerConnection (peer : UserId) : State :=
  { s with links := s.links.createPeerConnection peer s.fresh, fresh := s.fresh + 1 }

/-- A participant that was announced, with the local stream there was then. -/
def link (localStream : Option StreamId) (s : State) (peer : UserId) : State :=
  if s.groupRelayMode then s.startRelayCaptureForPeer peer
  else if localStream.isSome then s.createPeerConnection peer
  else s

/-! ## Joining -/

/-- The call is on. -/
def enter (room : RoomId) (transport : Transport) (stream : StreamId) : State :=
  { s with
    localStream := some stream
    isInGroupCall := true
    roomId := some room
    transport := transport }.send (.join room)

def joinGroupAudioRelayCall (room : RoomId) : State := s.await (.relayMedia room)

/-- The SFU is not there, or was not joined. -/
def meshFallback (room : RoomId) (isVideo mesh : Bool) : State :=
  if mesh then s.await (.meshMedia room isVideo) else s

/-- The start of `attachGroupVoiceChain`, with a new stream. -/
def captured (ids : List TrackId) : State :=
  { s with
    media := (s.media.capture s.fresh ids).disposeVoice
    fresh := s.fresh + 3 }

/-- How a function goes on. -/
def goOn : Task → Outcome → Option State
  | .joinConfig room isVideo, .config cfg =>
    if cfg.origin_safe || cfg.group_relay_enabled then s.joinGroupAudioRelayCall room
    else if cfg.livekit then s.await (.joinLoad room isVideo cfg.mesh_fallback_enabled)
    else s.meshFallback room isVideo cfg.mesh_fallback_enabled
  | .joinConfig room _, .failed => s.joinGroupAudioRelayCall room
  | .joinLoad room isVideo mesh, .done =>
    if s.isInGroupCall then s.meshFallback room isVideo mesh
    else s.await (.sfuToken room isVideo mesh)
  | .joinLoad room _ _, .failed => s.joinGroupAudioRelayCall room
  | .meshMedia room true, .media =>
    (s.captured [s.fresh + 1, s.fresh + 2]).await
      (.meshVoice room s.fresh (s.fresh + 1) (some (s.fresh + 2)))
  | .meshMedia room false, .media =>
    (s.captured [s.fresh + 1]).await (.meshVoice room s.fresh (s.fresh + 1) none)
  | .meshMedia _ _, .failed => s
  | .meshVoice room stream mic (some camera), .chain handle =>
    { s with media := (s.media.attachVoice stream mic handle).disposeCamFx }.await
      (.meshCamera room stream camera)
  | .meshVoice room stream mic none, .chain handle =>
    { s with
      media := { s.media.attachVoice stream mic handle with groupCameraTrack := none } }.enter
        room .mesh stream
  | .meshCamera room stream camera, .chain handle =>
    { s with media := s.media.publishCamera stream camera handle }.enter room .mesh stream
  | .relayMedia room, .media =>
    (s.captured [s.fresh + 1]).await (.relayVoice room s.fresh (s.fresh + 1))
  | .relayMedia _, .failed => s
  | .relayVoice room stream mic, .chain handle =>
    { s with
      media := s.media.attachVoice stream mic handle
      groupRelayMode := true }.enter room .audioRelay stream
  | .sfuToken room isVideo mesh, .done =>
    { s with
      activeRoom := some s.fresh
      sfuRooms := s.sfuRooms ++ [s.fresh]
      fresh := s.fresh + 1 }.await (.sfuConnect room isVideo mesh)
  | .sfuToken room isVideo mesh, .failed => s.meshFallback room isVideo mesh
  | .sfuConnect room isVideo mesh, .done =>
    { s with
      localStream := some s.fresh
      fresh := s.fresh + 1 }.await (.sfuPublish room isVideo mesh)
  | .sfuPublish room _ _, .done =>
    { s with isInGroupCall := true, roomId := some room, transport := .livekit }.await
      (.sfuJoined room)
  | .sfuConnect room isVideo mesh, .failed | .sfuPublish room isVideo mesh, .failed =>
    s.await (.sfuDisconnect room isVideo mesh)
  | .sfuDisconnect room isVideo mesh, .done =>
    { s with activeRoom := none }.meshFallback room isVideo mesh
  | .sfuDisconnect room _ _, .failed => s.joinGroupAudioRelayCall room
  | .sfuJoined room, .done => { s with livekitActive := true }.send (.join room)
  | .sfuLeave, .done => { s with activeRoom := none }.reset
  | .participants peers localStream, .done => some (peers.foldl (link localStream) s)
  | .participants _ _, .failed => s
  | .captureKey peer stream, .done => s.await (.captureStart peer stream)
  | .captureKey _ _, .failed => s
  | .captureStart peer _, .done =>
    some { s with links := s.links.startCapture peer s.fresh, fresh := s.fresh + 1 }
  | .captureStart _ _, .failed => s
  | .offerIce peer _, .done => (s.createPeerConnection peer).await (.offerAnswer peer)
  | .offerIce _ _, .failed => s
  | .offerAnswer _, .done => s
  | .offerAnswer peer, .failed => s.cleanupPeer peer
  | .cameraMedia stream, .media =>
    { s with
      media := (s.media.start [s.fresh]).disposeCamFx
      fresh := s.fresh + 1 }.await (.cameraEffects stream s.fresh)
  | .cameraMedia _, .failed => s
  | .cameraEffects stream camera, .chain handle =>
    some { s with media := s.media.cameraOn stream camera handle, localStream := some stream }
  | .screenMedia _, .screen true audio =>
    some { s with
      media := s.media.screenOn s.fresh (if audio then some (s.fresh + 1) else none)
      fresh := s.fresh + 2 }
  | .screenMedia _, .screen false _ | .screenMedia _, .failed => s
  | _, _ => none

/-! ## Actions and handlers -/

def joinGroupCall (room : RoomId) (isVideo : Bool) : State :=
  if s.isInGroupCall then s else s.await (.joinConfig room isVideo)

def leaveGroupCall : State :=
  if s.livekitActive then { s with livekitActive := false }.announceLeave.await .sfuLeave
  else s.cleanupAll

def handleParticipantList (room : RoomId) (participants : List UserId) (myUserId : UserId) :
    State :=
  let peers := participants.filter (· ≠ myUserId)
  if s.roomId ≠ some room || s.livekitActive then s
  else if s.groupRelayMode then peers.foldl (link s.localStream) s
  else s.await (.participants peers s.localStream)

def handleMemberJoin (room : RoomId) (user : UserId) : State :=
  if s.roomId ≠ some room || s.livekitActive || !s.groupRelayMode then s
  else s.startRelayCaptureForPeer user

def handleMemberLeave (room : RoomId) (user : UserId) : State :=
  if s.roomId ≠ some room || s.livekitActive then s else s.cleanupPeer user

def handleGroupCallOffer (room : RoomId) (fromUser : UserId) : State :=
  match s.localStream with
  | some stream =>
    if s.roomId ≠ some room || s.groupRelayMode then s
    else if s.links.peerConnections.has fromUser then s.await (.offerAnswer fromUser)
    else s.await (.offerIce fromUser stream)
  | none => s

/-- The SFU's own toggles are left out. -/
def toggleGroupCallVideo : State :=
  match s.localStream with
  | some stream =>
    if s.livekitActive || s.groupRelayMode || s.roomId.isNone then s
    else
      match s.media.groupCameraTrack.filter (!s.media.ended ·) with
      | some camera => { s with media := s.media.cameraOff stream camera }
      | none => s.await (.cameraMedia stream)
  | none => s

def startGroupCallScreenShare : State :=
  match s.localStream with
  | some stream =>
    if s.livekitActive || s.groupRelayMode || s.roomId.isNone ||
        s.media.groupScreenTrack.isSome then s
    else s.await (.screenMedia stream)
  | none => s

def stopGroupCallScreenShare : State :=
  if s.groupRelayMode || s.media.groupScreenTrack.isNone then s
  else { s with media := s.media.screenOff }

end State

/-! ## The machine -/

inductive Event
  | joinGroupCall (room : RoomId) (isVideo : Bool)
  | leaveGroupCall
  | handleParticipantList (room : RoomId) (participants : List UserId) (myUserId : UserId)
  | handleMemberJoin (room : RoomId) (user : UserId)
  | handleMemberLeave (room : RoomId) (user : UserId)
  | handleGroupCallOffer (room : RoomId) (fromUser : UserId)
  | toggleGroupCallVideo
  | startGroupCallScreenShare
  | stopGroupCallScreenShare
  /-- A peer connection is lost. -/
  | connectionLost (pc : PcId)
  /-- A device is taken away. -/
  | trackEnded (id : TrackId)
  /-- `RoomEvent.Disconnected`. -/
  | disconnected (room : SfuRoomId)
  /-- A function goes on. -/
  | resume (task : TaskId) (outcome : Outcome)
  deriving DecidableEq

namespace State

def step (s : State) : Event → Option State
  | .joinGroupCall room isVideo => s.joinGroupCall room isVideo
  | .leaveGroupCall => s.leaveGroupCall
  | .handleParticipantList room participants myUserId =>
    s.handleParticipantList room participants myUserId
  | .handleMemberJoin room user => s.handleMemberJoin room user
  | .handleMemberLeave room user => s.handleMemberLeave room user
  | .handleGroupCallOffer room fromUser => s.handleGroupCallOffer room fromUser
  | .toggleGroupCallVideo => s.toggleGroupCallVideo
  | .startGroupCallScreenShare => s.startGroupCallScreenShare
  | .stopGroupCallScreenShare => s.stopGroupCallScreenShare
  | .connectionLost pc => (s.links.openPcs.get? pc).map s.cleanupPeer
  | .trackEnded id => some { s with media := s.media.stop [id] }
  | .disconnected room =>
    if room ∈ s.sfuRooms then
      some { s.reset with activeRoom := none, sfuRooms := s.sfuRooms.erase room }
    else none
  | .resume i outcome =>
    (s.tasks.get? i).bind fun t => { s with tasks := s.tasks.delete i }.goOn t outcome

end State

/-- The manager of group calls. -/
def manager : Machine State Event where
  init s := s = .idle
  step := State.step

end OneToThree.GroupCall
