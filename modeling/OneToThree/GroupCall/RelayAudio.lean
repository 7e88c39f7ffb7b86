import Mathlib.Data.List.Basic
import OneToThree.Lib.Machine
import OneToThree.Lib.InsMap

/-!
# Relayed audio in group calls

Members of group calls who send each other encrypted frames of audio through the server, each
with its own manager (`group-call-manager.ts`). The server invents the messages of a call as it
likes, and passes on the frames that it has seen, to whom, as whose and as often as it likes.

The encryption is symbolic: of two members nobody else can make or open a frame under their key,
which is derived from the pair and from the label of the room. The frames of users who are no
members (`Frame.Known`) are the server's to make.

Of the manager there is what the relay needs; its first awaits, for the configuration and the
microphone, and the mesh links are in `GroupCall.Manager`.
-/

namespace OneToThree.GroupCall.Relay

abbrev UserId := ℕ
abbrev RoomId := ℕ
abbrev CaptureId := ℕ
abbrev TaskId := ℕ
abbrev Pcm := ℕ

/-- The key of a pair of users for a room: `deriveSharedSecret`, with the label of the room. -/
structure Key where
  lo : UserId
  hi : UserId
  room : RoomId
  deriving DecidableEq

def deriveSharedSecret (own peer : UserId) (room : RoomId) : Key :=
  ⟨min own peer, max own peer, room⟩

/-- What a frame is bound to: `groupRelayFrameAad`. -/
structure Aad where
  room : RoomId
  fromId : UserId
  toId : UserId
  seq : ℕ
  deriving DecidableEq

structure Frame where
  key : Key
  aad : Aad
  pcm : Pcm
  deriving DecidableEq

def decryptBytes (key : Key) (frame : Frame) (aad : Aad) : Option Pcm :=
  if frame.key = key ∧ frame.aad = aad then some frame.pcm else none

/-- A capture, with the room and the key it was started for. -/
structure Capture where
  peer : UserId
  callRoomId : RoomId
  key : Key
  running : Bool
  busy : Bool
  deriving DecidableEq

/-- The awaits, with the variables that are needed after them. -/
inductive Task
  -- `startRelayCaptureForPeer`
  | captureKey (peer : UserId) (callRoomId : RoomId) (key : Key)
  | captureStart (peer : UserId) (callRoomId : RoomId) (key : Key)
  -- the handler of a capture's chunks
  | sealing (capture : CaptureId)
  -- `handleGroupCallRelayFrame`
  | frameKey (room : RoomId) (fromUserId : UserId) (frame : Frame) (seq : ℕ) (key : Key)
  | frameOpen (room : RoomId) (fromUserId : UserId) (frame : Frame) (seq : ℕ) (key : Key)
  deriving DecidableEq

/-- What a member keeps. -/
structure Member where
  roomId : Option RoomId
  groupRelayMode : Bool
  /-- The keys by peer, as promises that give this key or none. -/
  relayKeys : InsMap UserId Key
  relayCaptures : InsMap UserId CaptureId
  relaySeqOut : InsMap UserId ℕ
  relaySeqIn : InsMap UserId ℕ
  captures : InsMap CaptureId Capture
  tasks : InsMap TaskId Task
  /-- The number that is drawn next. -/
  fresh : ℕ

namespace Member

def idle : Member := ⟨none, false, ∅, ∅, ∅, ∅, ∅, ∅, 0⟩

variable (m : Member) (me : UserId)

def await (t : Task) : Member :=
  { m with tasks := m.tasks.set m.fresh t, fresh := m.fresh + 1 }

/-- The key that `resolveRelaySharedKey` promises. -/
def promised (peer : UserId) (room : RoomId) : Key :=
  (m.relayKeys.get? peer).getD (deriveSharedSecret me peer room)

/-- `resolveRelaySharedKey`, up to its promise, which is cached. -/
def resolveRelaySharedKey (peer : UserId) (room : RoomId) : Member :=
  { m with relayKeys := m.relayKeys.set peer (m.promised me peer room) }

def stopCapture (capture : CaptureId) : Member :=
  match m.captures.get? capture with
  | some c => { m with captures := m.captures.set capture { c with running := false } }
  | none => m

def stopRelayPeer (peer : UserId) : Member :=
  let m :=
    match m.relayCaptures.get? peer with
    | some capture => m.stopCapture capture
    | none => m
  { m with
    relayCaptures := m.relayCaptures.delete peer
    relayKeys := m.relayKeys.delete peer
    relaySeqOut := m.relaySeqOut.delete peer
    relaySeqIn := m.relaySeqIn.delete peer }

/-- The part of `cleanupAll` that is about the relay. -/
def cleanupAll : Member :=
  { m.relayCaptures.keys.foldl stopRelayPeer m with
    relayKeys := ∅
    relaySeqOut := ∅
    relaySeqIn := ∅
    groupRelayMode := false
    roomId := none }

/-- The end of a join, over the relay or otherwise. -/
def join (room : RoomId) (relay : Bool) : Member :=
  { m with roomId := some room, groupRelayMode := relay || m.groupRelayMode }

/-- `startRelayCaptureForPeer`, up to its first wait. -/
def startRelayCaptureForPeer (peer : UserId) : Member :=
  match m.roomId with
  | some room =>
    if !m.groupRelayMode || m.relayCaptures.has peer then m
    else (m.resolveRelaySharedKey me peer room).await
      (.captureKey peer room (m.promised me peer room))
  | none => m

def handleParticipantList (room : RoomId) (participants : List UserId) : Member :=
  if m.roomId ≠ some room || !m.groupRelayMode then m
  else (participants.filter (· ≠ me)).foldl (startRelayCaptureForPeer · me) m

def handleMemberJoin (room : RoomId) (user : UserId) : Member :=
  if m.roomId ≠ some room then m else m.startRelayCaptureForPeer me user

def handleMemberLeave (room : RoomId) (user : UserId) : Member :=
  if m.roomId ≠ some room then m else m.stopRelayPeer user

/-- `handleGroupCallRelayFrame`, up to its first wait; `seq` is there if it is a number. -/
def handleGroupCallRelayFrame (room : RoomId) (fromUserId : UserId) (frame : Frame)
    (seq : Option ℕ) : Member :=
  match seq with
  | some seq =>
    if !m.groupRelayMode || m.roomId ≠ some room then m
    else if seq ≤ (m.relaySeqIn.get? fromUserId).getD 0 then m
    else (m.resolveRelaySharedKey me fromUserId room).await
      (.frameKey room fromUserId frame seq (m.promised me fromUserId room))
  | none => m

/-- What a frame is opened with. -/
def inboundAad (room : RoomId) (fromUserId : UserId) (seq : ℕ) : Aad := ⟨room, fromUserId, me, seq⟩

/-- The frame that a capture seals next. -/
def sealed (c : Capture) (pcm : Pcm) : Frame :=
  ⟨c.key, ⟨c.callRoomId, me, c.peer, (m.relaySeqOut.get? c.peer).getD 0 + 1⟩, pcm⟩

/-- Whether a capture seals what it hears. -/
def seals (c : Capture) : Bool := c.running && !c.busy && m.roomId = some c.callRoomId

/-- A chunk of a capture is sealed, unless another one is, or the room has moved. -/
def chunk (id : CaptureId) (c : Capture) : Member :=
  if m.seals c then
    { m with
      relaySeqOut := m.relaySeqOut.set c.peer ((m.relaySeqOut.get? c.peer).getD 0 + 1)
      captures := m.captures.set id { c with busy := true } }.await (.sealing id)
  else m

/-- How a function goes on: `ok` is whether what it waited for was there. A frame that is opened is
    played. -/
def goOn : Task → Bool → Member
  | .captureKey peer room key, true => m.await (.captureStart peer room key)
  | .captureStart peer room key, true =>
    { m with
      captures := m.captures.set m.fresh ⟨peer, room, key, true, false⟩
      relayCaptures := m.relayCaptures.set peer m.fresh
      fresh := m.fresh + 1 }
  | .sealing id, _ =>
    match m.captures.get? id with
    | some c => { m with captures := m.captures.set id { c with busy := false } }
    | none => m
  | .frameKey room fromUserId frame seq key, true =>
    m.await (.frameOpen room fromUserId frame seq key)
  | .frameOpen room fromUserId frame seq key, true =>
    if (decryptBytes key frame (inboundAad me room fromUserId seq)).isSome then
      { m with relaySeqIn := m.relaySeqIn.set fromUserId seq }
    else m
  | _, _ => m

end Member

/-! ## The network -/

structure Network where
  members : InsMap UserId Member
  /-- The frames that the members have sealed. -/
  sealed : List Frame

/-- The server has a frame: a member has sealed it, or one of the pair is no member. -/
def Frame.Known (n : Network) (f : Frame) : Prop :=
  f ∈ n.sealed ∨ n.members.has f.key.lo = false ∨ n.members.has f.key.hi = false

instance (n : Network) (f : Frame) : Decidable (f.Known n) := by
  unfold Frame.Known
  infer_instance

inductive Event
  /-- A join comes to its end. -/
  | join (me : UserId) (room : RoomId) (relay : Bool)
  | leaveGroupCall (me : UserId)
  | participantList (me : UserId) (room : RoomId) (participants : List UserId)
  | memberJoin (me : UserId) (room : RoomId) (user : UserId)
  | memberLeave (me : UserId) (room : RoomId) (user : UserId)
  | relayFrame (me : UserId) (room : RoomId) (fromUserId : UserId) (frame : Frame)
    (seq : Option ℕ)
  /-- A capture hears something. -/
  | chunk (me : UserId) (capture : CaptureId) (pcm : Pcm)
  | resume (me : UserId) (task : TaskId) (ok : Bool)
  deriving DecidableEq

/-- Whose event it is. -/
def Event.member : Event → UserId
  | .join me _ _ | .leaveGroupCall me | .participantList me _ _ | .memberJoin me _ _
  | .memberLeave me _ _ | .relayFrame me _ _ _ _ | .chunk me _ _ | .resume me _ _ => me

namespace Network

variable (n : Network)

/-- What a member does at an event of its own. -/
def act (m : Member) : Event → Option Member
  | .join _ room relay => m.join room relay
  | .leaveGroupCall _ => m.cleanupAll
  | .participantList me room participants => m.handleParticipantList me room participants
  | .memberJoin me room user => m.handleMemberJoin me room user
  | .memberLeave _ room user => m.handleMemberLeave room user
  | .relayFrame me room fromUserId frame seq =>
    if frame.Known n then m.handleGroupCallRelayFrame me room fromUserId frame seq else none
  | .chunk _ id _ => (m.captures.get? id).map (m.chunk id)
  | .resume me i ok =>
    (m.tasks.get? i).map fun t => { m with tasks := m.tasks.delete i }.goOn me t ok

/-- The frame that an event seals. -/
def newFrame (m : Member) : Event → Option Frame
  | .chunk me id pcm => (m.captures.get? id).bind fun c =>
    if m.seals c then some (m.sealed me c pcm) else none
  | _ => none

def step (e : Event) : Option Network :=
  (n.members.get? e.member).bind fun m => (n.act m e).map fun m' =>
    { members := n.members.set e.member m', sealed := n.sealed ++ (newFrame m e).toList }

/-- The members have made no call yet. -/
def IsInitial : Prop := (∀ u m, n.members.get? u = some m → m = .idle) ∧ n.sealed = []

end Network

/-- The members and the server. -/
def network : Machine Network Event where
  init := Network.IsInitial
  step := Network.step

end OneToThree.GroupCall.Relay
