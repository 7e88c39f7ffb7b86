import OneToThree.Lib.JsonText

/-!
# The frames that the client sends

The frames of the socket, as the client builds them, and what `JSON.stringify` makes of each.

A session description is an offer or an answer, of a call between two or of a group call. The first
kind is sent inside a signal, with its kind in a field of that name; the second kind has a type of
its own. The text of a frame has `"kind":"offer"` or `"kind":"answer"` exactly if it is of the first
kind (`looksImportant_iff`).
-/

namespace OneToThree.Ws

/-- `RTCIceCandidate.toJSON()`. -/
structure Candidate (N : Type) where
  candidate : String
  sdpMid : Option String
  sdpMLineIndex : Option N
  usernameFragment : Option String

inductive Media
  | audio
  | video

inductive SignalPayload (N : Type)
  | offer (sdp : String) (isVideo : Option Bool)
  | answer (sdp : String)
  | ice (candidate : Option (Candidate N))
  | mediaState (media : Media) (enabled : Bool)
  | screenShare (active : Bool) (streamId : Option String)
  | relayOffer (callNonce : Option String)
  | relayAnswer (callNonce : Option String)
  | relayFrame (ciphertext iv : String) (sampleRate : N) (seq : Option N)
  | promoteToGroup (chatId : String)

/-- What is passed to `send`. -/
inductive Payload (N : Type)
  | presencePing
  | typingStart (chatId userId : String)
  | typingStop (chatId userId : String)
  | toggleReaction (messageId chatId emoji : String)
  | callInvite (chatId : String) (isVideo : Bool)
  | callAccept (chatId : String)
  | callReject (chatId : String)
  | callLeave (chatId : String)
  | webrtcSignal (targetUserId : String) (signalData : SignalPayload N)
  | groupJoin (roomId : String) (isVideo : Bool)
  | groupLeave (roomId : String)
  | groupOffer (roomId targetUserId sdp : String) (isVideo : Bool)
  | groupAnswer (roomId targetUserId sdp : String)
  | groupIce (roomId targetUserId : String) (candidate : Option (Candidate N))
  | groupMute (roomId : String) (isMuted : Bool)
  | groupVideoToggle (roomId : String) (isVideoOff : Bool)
  | groupScreenShare (roomId : String) (active : Bool) (streamId : Option String)
  | groupRelayFrame (roomId targetUserId ciphertext iv : String) (sampleRate seq : N)

variable {N : Type}

/-- An object literal, whose undefined fields `JSON.stringify` leaves out. -/
def object (fields : List (String × Option (Json N))) : Json N :=
  .obj (fields.filterMap fun f => f.2.map fun x => (f.1, x))

/-- A value that may be `null`. -/
def orNull (x : Option (Json N)) : Json N := x.getD .null

def Candidate.json (c : Candidate N) : Json N :=
  object [("candidate", some (.str c.candidate)),
    ("sdpMid", some (orNull (c.sdpMid.map .str))),
    ("sdpMLineIndex", some (orNull (c.sdpMLineIndex.map .num))),
    ("usernameFragment", some (orNull (c.usernameFragment.map .str)))]

def Media.text : Media → String
  | .audio => "audio"
  | .video => "video"

namespace SignalPayload

def kind : SignalPayload N → String
  | offer .. => "offer"
  | answer .. => "answer"
  | ice .. => "ice"
  | mediaState .. => "media_state"
  | screenShare .. => "screen_share"
  | relayOffer .. => "relay_offer"
  | relayAnswer .. => "relay_answer"
  | relayFrame .. => "relay_frame"
  | promoteToGroup .. => "promote_to_group"

def json : SignalPayload N → Json N
  | offer sdp isVideo =>
    object [("kind", some (.str "offer")), ("sdp", some (.str sdp)),
      ("isVideo", isVideo.map .bool)]
  | answer sdp => object [("kind", some (.str "answer")), ("sdp", some (.str sdp))]
  | ice candidate =>
    object [("kind", some (.str "ice")), ("candidate", some (orNull (candidate.map (·.json))))]
  | mediaState media enabled =>
    object [("kind", some (.str "media_state")), ("media", some (.str media.text)),
      ("enabled", some (.bool enabled))]
  | screenShare active streamId =>
    object [("kind", some (.str "screen_share")), ("active", some (.bool active)),
      ("streamId", streamId.map .str)]
  | relayOffer callNonce =>
    object [("kind", some (.str "relay_offer")), ("callNonce", callNonce.map .str)]
  | relayAnswer callNonce =>
    object [("kind", some (.str "relay_answer")), ("callNonce", callNonce.map .str)]
  | relayFrame ciphertext iv sampleRate seq =>
    object [("kind", some (.str "relay_frame")), ("ciphertext", some (.str ciphertext)),
      ("iv", some (.str iv)), ("sampleRate", some (.num sampleRate)), ("seq", seq.map .num)]
  | promoteToGroup chatId =>
    object [("kind", some (.str "promote_to_group")), ("chatId", some (.str chatId))]

end SignalPayload

namespace Payload

def json : Payload N → Json N
  | presencePing => object [("type", some (.str "presence_ping"))]
  | typingStart chatId userId =>
    object [("type", some (.str "typing_start")), ("chat_id", some (.str chatId)),
      ("user_id", some (.str userId))]
  | typingStop chatId userId =>
    object [("type", some (.str "typing_stop")), ("chat_id", some (.str chatId)),
      ("user_id", some (.str userId))]
  | toggleReaction messageId chatId emoji =>
    object [("type", some (.str "toggle_reaction")), ("message_id", some (.str messageId)),
      ("chat_id", some (.str chatId)), ("emoji", some (.str emoji))]
  | callInvite chatId isVideo =>
    object [("type", some (.str "call_invite")), ("chat_id", some (.str chatId)),
      ("is_video", some (.bool isVideo))]
  | callAccept chatId =>
    object [("type", some (.str "call_accept")), ("chat_id", some (.str chatId))]
  | callReject chatId =>
    object [("type", some (.str "call_reject")), ("chat_id", some (.str chatId))]
  | callLeave chatId =>
    object [("type", some (.str "call_leave")), ("chat_id", some (.str chatId))]
  | webrtcSignal targetUserId signalData =>
    object [("type", some (.str "webrtc_signal")), ("targetUserId", some (.str targetUserId)),
      ("signalData", some signalData.json)]
  | groupJoin roomId isVideo =>
    object [("type", some (.str "group_call:join")), ("room_id", some (.str roomId)),
      ("is_video", some (.bool isVideo))]
  | groupLeave roomId =>
    object [("type", some (.str "group_call:leave")), ("room_id", some (.str roomId))]
  | groupOffer roomId targetUserId sdp isVideo =>
    object [("type", some (.str "group_call:offer")), ("room_id", some (.str roomId)),
      ("target_user_id", some (.str targetUserId)), ("sdp", some (.str sdp)),
      ("is_video", some (.bool isVideo))]
  | groupAnswer roomId targetUserId sdp =>
    object [("type", some (.str "group_call:answer")), ("room_id", some (.str roomId)),
      ("target_user_id", some (.str targetUserId)), ("sdp", some (.str sdp))]
  | groupIce roomId targetUserId candidate =>
    object [("type", some (.str "group_call:ice")), ("room_id", some (.str roomId)),
      ("target_user_id", some (.str targetUserId)),
      ("candidate", some (orNull (candidate.map (·.json))))]
  | groupMute roomId isMuted =>
    object [("type", some (.str "group_call:mute")), ("room_id", some (.str roomId)),
      ("is_muted", some (.bool isMuted))]
  | groupVideoToggle roomId isVideoOff =>
    object [("type", some (.str "group_call:video_toggle")), ("room_id", some (.str roomId)),
      ("is_video_off", some (.bool isVideoOff))]
  | groupScreenShare roomId active streamId =>
    object [("type", some (.str "group_call:screen_share")), ("room_id", some (.str roomId)),
      ("active", some (.bool active)), ("stream_id", streamId.map .str)]
  | groupRelayFrame roomId targetUserId ciphertext iv sampleRate seq =>
    object [("type", some (.str "group_call:relay_frame")), ("room_id", some (.str roomId)),
      ("target_user_id", some (.str targetUserId)), ("ciphertext", some (.str ciphertext)),
      ("iv", some (.str iv)), ("sample_rate", some (.num sampleRate)), ("seq", some (.num seq))]

/-- An offer or an answer of a call between two. -/
def isDirectDescription : Payload N → Bool
  | webrtcSignal _ (.offer ..) | webrtcSignal _ (.answer ..) => true
  | _ => false

/-- An offer or an answer of a group call. -/
def isGroupDescription : Payload N → Bool
  | groupOffer .. | groupAnswer .. => true
  | _ => false

/-- The frame carries a session description. -/
def isDescription (p : Payload N) : Bool := p.isDirectDescription || p.isGroupDescription

variable [JsNumber N]

def raw (p : Payload N) : String := p.json.stringify

end Payload

/-- `text.includes(part)`. -/
def includes (text part : String) : Bool := decide (part.toList <:+: text.toList)

/-- What the queue recognises as a session description. -/
def looksImportant (raw : String) : Bool :=
  includes raw "\"kind\":\"offer\"" || includes raw "\"kind\":\"answer\""

theorem includes_iff [JsNumber N] {key value part : String} (hkey : Json.Plain key)
    (hname : Json.Name key) (hvalue : Json.Plain value)
    (hpart : part.toList = Json.pattern key value) (p : Payload N) :
    includes p.raw part = p.json.hasField (Json.endsIn key) value := by
  rw [includes, hpart, Bool.eq_iff_iff, decide_eq_true_eq]
  exact Json.infix_stringify hkey hname hvalue p.json

theorem name_kind : Json.Name "kind" := ⟨'k', ['i', 'n', 'd'], rfl, by decide⟩

/-- Whether a field of this key is found where one called `kind` is looked for. -/
def isKind (key : String) : Bool := Json.endsIn "kind" key

/-- Of the keys of the frames only that one is found. -/
@[simp] theorem isKind_keys :
    isKind "kind" = true ∧ isKind "type" = false ∧ isKind "chat_id" = false ∧
    isKind "user_id" = false ∧ isKind "message_id" = false ∧ isKind "emoji" = false ∧
    isKind "is_video" = false ∧ isKind "targetUserId" = false ∧ isKind "signalData" = false ∧
    isKind "sdp" = false ∧ isKind "isVideo" = false ∧ isKind "candidate" = false ∧
    isKind "sdpMid" = false ∧ isKind "sdpMLineIndex" = false ∧ isKind "usernameFragment" = false ∧
    isKind "media" = false ∧ isKind "enabled" = false ∧ isKind "active" = false ∧
    isKind "streamId" = false ∧ isKind "callNonce" = false ∧ isKind "ciphertext" = false ∧
    isKind "iv" = false ∧ isKind "sampleRate" = false ∧ isKind "seq" = false ∧
    isKind "chatId" = false ∧ isKind "room_id" = false ∧ isKind "target_user_id" = false ∧
    isKind "is_muted" = false ∧ isKind "is_video_off" = false ∧ isKind "stream_id" = false ∧
    isKind "sample_rate" = false := by
  decide +kernel

section
variable (value : String)

theorem hasField_nil : (object ([] : List (String × Option (Json N)))).hasField isKind value =
    false := rfl

theorem hasField_cons_some (key : String) (x : Json N) (fields : List (String × Option (Json N))) :
    (object ((key, some x) :: fields)).hasField isKind value =
      ((isKind key && Json.isText (some x) value) || x.hasField isKind value ||
        (object fields).hasField isKind value) := rfl

/-- In a field of another key only its value may have such a field. -/
theorem hasField_cons {key : String} (hkey : isKind key = false) (x : Option (Json N))
    (fields : List (String × Option (Json N))) :
    (object ((key, x) :: fields)).hasField isKind value =
      ((x.any fun x => x.hasField isKind value) || (object fields).hasField isKind value) := by
  cases x with
  | none => rfl
  | some x =>
    rw [hasField_cons_some, hkey, Bool.false_and, Bool.false_or]
    rfl

theorem hasField_kind (kind : String) {fields : List (String × Option (Json N))}
    (hfields : (object fields).hasField isKind value = false) :
    (object (("kind", some (.str kind)) :: fields)).hasField isKind value =
      decide (kind = value) := by
  have hstr : (Json.str kind : Json N).hasField isKind value = false := by rw [Json.hasField]
  rw [hasField_cons_some, isKind_keys.1, hfields, hstr, Bool.true_and, Bool.or_false,
    Bool.or_false]
  rfl

end

/-- Plain values have no fields. -/
theorem hasField_orNull_map {A : Type} (key : String → Bool) (value : String) (f : A → Json N)
    (hf : ∀ a, (f a).hasField key value = false) (x : Option A) :
    (orNull (x.map f)).hasField key value = false := by
  cases x with
  | none => simp [orNull, Json.hasField]
  | some a => exact hf a

theorem hasField_candidate (value : String) (c : Candidate N) :
    c.json.hasField isKind value = false := by
  have hstr := hasField_orNull_map isKind value (Json.str (N := N))
    fun _ => by simp [Json.hasField]
  have hnum := hasField_orNull_map isKind value (Json.num (N := N))
    fun _ => by simp [Json.hasField]
  simp [Candidate.json, hasField_cons, hasField_nil, hstr, hnum, Json.hasField]

/-- A field that may be left out. -/
theorem any_hasField_map {A : Type} (key : String → Bool) (value : String) (f : A → Json N)
    (hf : ∀ a, (f a).hasField key value = false) (x : Option A) :
    ((x.map f).any fun x => x.hasField key value) = false := by
  cases x with
  | none => rfl
  | some a => exact hf a

/-- A signal has its kind in a field of that name, and no other. -/
theorem hasField_signal (value : String) (d : SignalPayload N) :
    d.json.hasField isKind value = decide (d.kind = value) := by
  have hcandidate := hasField_orNull_map isKind value (Candidate.json (N := N))
    (hasField_candidate value)
  have hbool := any_hasField_map isKind value (Json.bool (N := N))
    fun _ => by simp [Json.hasField]
  have hstr := any_hasField_map isKind value (Json.str (N := N))
    fun _ => by simp [Json.hasField]
  have hnum := any_hasField_map isKind value (Json.num (N := N))
    fun _ => by simp [Json.hasField]
  cases d <;> exact hasField_kind value _ (by
    simp [hasField_cons, hasField_nil, hcandidate, hbool, hstr, hnum, Json.hasField])

/-- The other frames have no such field. -/
theorem hasField_payload (value : String) (p : Payload N) :
    p.json.hasField isKind value =
      match p with
      | .webrtcSignal _ d => decide (d.kind = value)
      | _ => false := by
  have hcandidate := hasField_orNull_map isKind value (Candidate.json (N := N))
    (hasField_candidate value)
  have hstr := any_hasField_map isKind value (Json.str (N := N))
    fun _ => by simp [Json.hasField]
  cases p <;> simp [Payload.json, hasField_cons, hasField_nil, hcandidate, hstr, hasField_signal,
    Json.hasField]

/-- **What the queue recognises.** The text of a frame looks important exactly if the frame is an
    offer or an answer of a call between two. -/
theorem looksImportant_iff [JsNumber N] (p : Payload N) :
    looksImportant p.raw = p.isDirectDescription := by
  have hkind : Json.Plain "kind" := by decide
  have hoffer : Json.Plain "offer" ∧
      "\"kind\":\"offer\"".toList = Json.pattern "kind" "offer" := by decide
  have hanswer : Json.Plain "answer" ∧
      "\"kind\":\"answer\"".toList = Json.pattern "kind" "answer" := by decide
  rw [looksImportant, includes_iff hkind name_kind hoffer.1 hoffer.2,
    includes_iff hkind name_kind hanswer.1 hanswer.2]
  change (p.json.hasField isKind "offer" || p.json.hasField isKind "answer") = _
  rw [hasField_payload, hasField_payload]
  cases p with
  | webrtcSignal _ d => cases d <;> rfl
  | _ => rfl

end OneToThree.Ws
