import OneToThree.Lib.TextBytes
import OneToThree.Messages.Server

/-!
# The editor

An edit encrypts the new text under the context of the chat (`buildEditBody`), and sends it as a
patch (`edit`). In a direct chat, and in the saved messages, the text is in a slot for each device:
the body carries slots for the devices that the fan-out has reached. Without a context, with a
guest, or where there are no devices, it carries nothing, and the patch only says that the message
has been edited. In a group and in a public chat the text is in the row.

* `Calls`: what the calls of the builder give, among them the slots that could be made.
* `edit_replaces`: an edit that fails changes nothing; one that succeeds replaces the text
  everywhere, if it can (`Covers`), and leaves it everywhere, if its body carries nothing.
-/

namespace OneToThree.Messages.Editor

open OneToThree.Messages.Server

abbrev GroupKey := ℕ

/-- The context of a chat, as far as an edit looks at it. -/
inductive ChatCryptoContext
  | DIRECT (peerIsGuest : Bool)
  | SELF
  | SECTOR (groupKey : GroupKey)
  | PUBLIC

structure EditDrContext where
  ownerUserId : UserId
  peerUserId : Option UserId

structure DeviceSlot where
  device_id : DeviceId
  ecdh_public_key : String
  deriving DecidableEq

structure FanoutBuildResult where
  slots : List BodySlot
  failedDeviceIds : List DeviceId
  attemptedDeviceIds : List DeviceId

/-- What `encryptMessage` gives. -/
structure Sealed where
  ciphertext : String
  iv : String

/-- A slot on a ratchet. -/
structure DrDeviceSlot where
  deviceId : DeviceId
  envelope : String
  deriving DecidableEq

/-- What the calls of the builder give. -/
structure Calls where
  /-- Whether `getDrFanoutSafety` finds devices to write to. -/
  safe : (myUserId peerUserId : UserId) → Bool
  /-- The devices whose ratchets fail are left out. -/
  encryptForPeer : (ownerId peerId : UserId) → (plaintext : String) →
    Except String (List DrDeviceSlot)
  /-- The answers to the two requests for the own devices. -/
  myDevices : List DeviceSlot
  peerDevices : List DeviceSlot
  /-- The encryption for a device in the worker, if there is one. -/
  worker : Option (DeviceSlot → (plaintext : String) → Option Sealed)
  main : DeviceSlot → (plaintext : String) → Option Sealed
  encryptMessage : GroupKey → (plaintext : String) → Except String Sealed

/-! ## The body -/

def DR_SLOT_SENTINEL : String := "dr:v2"

/-- The slots of the devices that an encryption succeeds for. -/
def slotsOf (encrypt : DeviceSlot → Option Sealed) (devices : List DeviceSlot) : List BodySlot :=
  devices.filterMap fun dev => (encrypt dev).map fun s =>
    ⟨dev.device_id, s.ciphertext, "v2:" ++ s.iv⟩

def fanoutResult (encrypt : DeviceSlot → Option Sealed) (devices : List DeviceSlot) :
    FanoutBuildResult where
  slots := slotsOf encrypt devices
  failedDeviceIds := (devices.filter fun dev => (encrypt dev).isNone).map (·.device_id)
  attemptedDeviceIds := devices.map (·.device_id)

/-- The first of the devices with an id. -/
def dedupeDevicesById (devices : List DeviceSlot) : List DeviceSlot :=
  (devices.foldl (fun (map : InsMap DeviceId DeviceSlot) d =>
    if map.has d.device_id then map else map.set d.device_id d) ∅).entries.map Prod.snd

def labelOnly : EditMessageBody := { content := none, iv := none }

def withSlots (slots : List BodySlot) : EditMessageBody :=
  if slots ≠ [] then { content := none, iv := none, ciphertexts := some slots } else labelOnly

/-- `btoa(unescape(encodeURIComponent(text)))` -/
def encodePublic (text : String) : String := Base64.encodeString (TextBytes.encodeText text)

namespace Calls

variable (c : Calls)

def encryptFanoutDetailed (targetDevices : List DeviceSlot) (plaintext : String) :
    Except String FanoutBuildResult :=
  let workerResult := c.worker.map fun encrypt => fanoutResult (encrypt · plaintext) targetDevices
  match workerResult.filter fun result => 2 ≤ targetDevices.length ∧ result.slots ≠ [] with
  | some result => .ok result
  | none =>
    let result := fanoutResult (c.main · plaintext) targetDevices
    if result.slots = [] ∧ targetDevices ≠ [] then .error "FANOUT_ALL_SLOTS_FAILED" else .ok result

def buildFanoutSlotsDetailed (plaintext : String) : Except String FanoutBuildResult :=
  let allDevices := dedupeDevicesById (c.myDevices ++ c.peerDevices)
  if allDevices = [] then .ok ⟨[], [], []⟩ else c.encryptFanoutDetailed allDevices plaintext

/-- The slots of a text in a direct chat, if it is one with slots. -/
def encryptOutboundTextV2 (plaintext : String) (peerIsGuest : Bool) (ctx : EditDrContext) :
    Except String (Option (List BodySlot)) :=
  if peerIsGuest then .ok none
  else
    match ctx.peerUserId with
    | none => .error "ERR_NO_DR_KEYS"
    | some peerUserId =>
      if !c.safe ctx.ownerUserId peerUserId then .error "ERR_NO_DR_KEYS"
      else
        match c.encryptForPeer ctx.ownerUserId peerUserId plaintext with
        | .error e => .error e
        | .ok slots =>
          if slots = [] then .error "ERR_NO_DR_KEYS"
          else .ok (some (slots.map fun s => ⟨s.deviceId, s.envelope, DR_SLOT_SENTINEL⟩))

def buildEditBody (newText : String) (drCtx : Option EditDrContext) :
    ChatCryptoContext → Except String EditMessageBody
  | .DIRECT peerIsGuest =>
    match drCtx with
    | some ctx => (c.encryptOutboundTextV2 newText peerIsGuest ctx).map fun drSlots =>
        withSlots (drSlots.getD [])
    | none => .ok labelOnly
  | .SELF =>
    match drCtx with
    | some _ => (c.buildFanoutSlotsDetailed newText).map fun fanout => withSlots fanout.slots
    | none => .ok labelOnly
  | .SECTOR groupKey => (c.encryptMessage groupKey newText).map fun s =>
      { content := some s.ciphertext, iv := some s.iv }
  | .PUBLIC => .ok { content := some (encodePublic newText), iv := some "public" }

end Calls

/-- The route, with no other request meanwhile. -/
def patchMessage (sess : Session) (messageId : MessageId) (body : EditMessageBody) (db : Db) :
    Except String ℕ × Db :=
  let (reply, db) := (edit sess messageId body).exec Db.answer db
  match reply with
  | .edited at_ => (.ok at_, db)
  | .error _ code => (.error code, db)
  | _ => (.error "EDIT_MESSAGE_FAILED", db)

def Calls.submitEdit (c : Calls) (sess : Session) (frame : ChatCryptoContext)
    (drCtx : Option EditDrContext) (messageId : MessageId) (newText : String) (db : Db) :
    Except String ℕ × Db :=
  match c.buildEditBody newText drCtx frame with
  | .error e => (.error e, db)
  | .ok body => patchMessage sess messageId body db

/-! ## What an edit does -/

/-- The row, or a slot of the message, holds the ciphertext. -/
def Holds (m : Message) (ciphertext : String) : Prop :=
  m.content = some ciphertext ∨
    ∃ d slot, m.slots.get? d = some slot ∧ slot.ciphertext = ciphertext

/-- The new ciphertext of a slot opens to the new text on its device, and is none that the message
    held. -/
def Renews (opens : DeviceId → (ciphertext iv : String) → Option String) (m : Message)
    (newText : String) (d : DeviceId) (ciphertext iv : String) : Prop :=
  opens d ciphertext iv = some newText ∧ ¬Holds m ciphertext

/-- The encryptions are sound, and draw ciphertexts of their own. -/
structure Calls.Ideal (c : Calls) (opens : DeviceId → (ciphertext iv : String) → Option String)
    (m : Message) (newText : String) : Prop where
  peer : ∀ ownerId peerId slots, c.encryptForPeer ownerId peerId newText = .ok slots →
    ∀ s ∈ slots, Renews opens m newText s.deviceId s.envelope DR_SLOT_SENTINEL
  worker : ∀ encrypt, c.worker = some encrypt → ∀ dev s, encrypt dev newText = some s →
    Renews opens m newText dev.device_id s.ciphertext ("v2:" ++ s.iv)
  main : ∀ dev s, c.main dev newText = some s →
    Renews opens m newText dev.device_id s.ciphertext ("v2:" ++ s.iv)
  sector : ∀ groupKey s, c.encryptMessage groupKey newText = .ok s → ¬Holds m s.ciphertext

/-- The slots that the fan-out of an edit has made. -/
def Calls.reached (c : Calls) (newText : String) (drCtx : Option EditDrContext) :
    ChatCryptoContext → List BodySlot
  | .DIRECT false => (drCtx.bind fun ctx => ctx.peerUserId.bind fun peerUserId =>
      (c.encryptForPeer ctx.ownerUserId peerUserId newText).toOption.map fun slots =>
        slots.map fun s => ⟨s.deviceId, s.envelope, DR_SLOT_SENTINEL⟩).getD []
  | .SELF => (drCtx.bind fun _ => (c.buildFanoutSlotsDetailed newText).toOption.map
      FanoutBuildResult.slots).getD []
  | .DIRECT true | .SECTOR _ | .PUBLIC => []

/-- The text can be replaced everywhere: where it is in slots, the fan-out has reached all of them,
    and nothing is in the row; where it is in the row, there are no slots, and the new text is not
    the old one as it is. -/
def Calls.Covers (c : Calls) (newText : String) (drCtx : Option EditDrContext)
    (frame : ChatCryptoContext) (m : Message) : Prop :=
  match frame with
  | .DIRECT _ | .SELF => m.content = none ∧ ∀ d, (m.slots.get? d).isSome →
      d ∈ (c.reached newText drCtx frame).map BodySlot.device_id
  | .SECTOR _ => ∀ d, m.slots.get? d = none
  | .PUBLIC => (∀ d, m.slots.get? d = none) ∧ m.content ≠ some (encodePublic newText)

/-- There are no slots to send: no context, a guest, or no devices. -/
def Calls.LabelOnly (c : Calls) (drCtx : Option EditDrContext) : ChatCryptoContext → Prop
  | .DIRECT peerIsGuest => drCtx = none ∨ peerIsGuest = true
  | .SELF => drCtx = none ∨ c.myDevices ++ c.peerDevices = []
  | .SECTOR _ | .PUBLIC => False

/-- The row after the edit: only where the text is in it, it is written. -/
def Calls.Row (c : Calls) (newText : String) (m m' : Message) : ChatCryptoContext → Prop
  | .DIRECT _ | .SELF => m'.content = m.content ∧ m'.iv = m.iv
  | .SECTOR groupKey => ∃ s, c.encryptMessage groupKey newText = .ok s ∧
      m'.content = some s.ciphertext ∧ m'.iv = some s.iv
  | .PUBLIC => m'.content = some (encodePublic newText) ∧ m'.iv = some "public"

/-- What a successful edit makes of the message. -/
structure Edited (opens : DeviceId → (ciphertext iv : String) → Option String) (c : Calls)
    (frame : ChatCryptoContext) (drCtx : Option EditDrContext) (newText : String) (at_ : ℕ)
    (m m' : Message) : Prop where
  editedAt : m'.editedAt = some at_
  row : c.Row newText m m' frame
  /-- The text is replaced everywhere. -/
  everywhere : c.Covers newText drCtx frame m → (∀ x, Holds m x → ¬Holds m' x) ∧
    ∀ d, (m.slots.get? d).isSome → ∃ slot, m'.slots.get? d = some slot ∧
      opens d slot.ciphertext slot.iv = some newText
  /-- It is replaced on the devices that the fan-out has reached. -/
  device : ∀ d ∈ (c.reached newText drCtx frame).map BodySlot.device_id,
    (m.slots.get? d).isSome → ∃ slot, m'.slots.get? d = some slot ∧
      Renews opens m newText d slot.ciphertext slot.iv
  /-- It is left as it was, but for the label. -/
  labelOnly : c.LabelOnly drCtx frame → m' = { m with editedAt := some at_ }

def Outcome (opens : DeviceId → (ciphertext iv : String) → Option String) (c : Calls)
    (frame : ChatCryptoContext) (drCtx : Option EditDrContext) (messageId : MessageId)
    (newText : String) (db : Db) (m : Message) : Except String ℕ × Db → Prop
  | (.ok at_, db') => ∃ m', db'.messages.get? messageId = some m' ∧
      Edited opens c frame drCtx newText at_ m m'
  | (.error _, db') => db' = db

/-! ## The route -/

theorem exec_edit_cases (sess : Session) (messageId : MessageId) (body : EditMessageBody)
    (db : Db) : (∃ status code, (edit sess messageId body).exec Db.answer db =
        (.error status code, db)) ∨
      (edit sess messageId body).exec Db.answer db =
        (.edited db.clock, db.modify messageId fun m =>
          m.edit body.content body.iv (body.ciphertexts.getD []) db.clock) := by
  by_cases hvalid : body.valid
  · by_cases hreserved : usesReservedIvSentinel body.iv
    · exact .inl ⟨400, "RESERVED_IV_SENTINEL", by simp [edit, hvalid, hreserved]⟩
    · cases hmessage : db.messages.get? messageId with
      | none =>
        exact .inl ⟨404, "MESSAGE_NOT_FOUND", by
          simp [edit, hvalid, hreserved, query, Db.answer, hmessage]⟩
      | some m =>
        by_cases hsender : m.senderId = sess.userId
        · cases hmember : db.tables.members.find? fun x =>
              x.chatId = m.chatId && x.userId = sess.userId with
          | none =>
            exact .inl ⟨403, "NOT_A_MEMBER", by
              simp [edit, hvalid, hreserved, query, Db.answer, hmessage, hsender, hmember]⟩
          | some x =>
            exact .inr (by
              simp [edit, hvalid, hreserved, query, Db.answer, hmessage, hsender, hmember])
        · exact .inl ⟨403, "NOT_SENDER", by
            simp [edit, hvalid, hreserved, query, Db.answer, hmessage, hsender]⟩
  · exact .inl ⟨400, "INVALID_BODY", by simp [edit, hvalid]⟩

/-- A patch changes nothing, or runs its transaction. -/
theorem patchMessage_cases (sess : Session) (messageId : MessageId) (body : EditMessageBody)
    (db : Db) : (∃ e, patchMessage sess messageId body db = (.error e, db)) ∨
      patchMessage sess messageId body db = (.ok db.clock, db.modify messageId fun m =>
        m.edit body.content body.iv (body.ciphertexts.getD []) db.clock) := by
  unfold patchMessage
  obtain ⟨status, code, h⟩ | h := exec_edit_cases sess messageId body db
  · exact .inl ⟨code, by rw [h]⟩
  · exact .inr (by rw [h])

/-! ## The slots of a body -/

section
variable {opens : DeviceId → (ciphertext iv : String) → Option String} {c : Calls} {m : Message}
  {newText : String} {drCtx : Option EditDrContext}

theorem mem_getD {A : Type} {x : A} {o : Option (List A)} (h : x ∈ o.getD []) :
    ∃ l, o = some l ∧ x ∈ l := by
  cases o with
  | none => exact absurd h List.not_mem_nil
  | some l => exact ⟨l, rfl, h⟩

theorem toOption_eq_some {A : Type} {r : Except String A} {a : A} (h : r.toOption = some a) :
    r = .ok a := by
  cases r with
  | error e => exact absurd h.symm (Option.some_ne_none a)
  | ok b => rw [Option.some.inj h]

theorem renews_slotsOf {encrypt : DeviceSlot → Option Sealed} (h : ∀ dev s, encrypt dev = some s →
    Renews opens m newText dev.device_id s.ciphertext ("v2:" ++ s.iv)) {devices : List DeviceSlot}
    {slot : BodySlot} (hslot : slot ∈ slotsOf encrypt devices) :
    Renews opens m newText slot.device_id slot.ciphertext slot.iv := by
  obtain ⟨dev, -, hdev⟩ := List.mem_filterMap.1 hslot
  obtain ⟨s, hs, rfl⟩ := Option.map_eq_some_iff.1 hdev
  exact h dev s hs

/-- The slots are those of the worker, or those of the main thread. -/
theorem encryptFanoutDetailed_cases {devices : List DeviceSlot} {result : FanoutBuildResult}
    (h : c.encryptFanoutDetailed devices newText = .ok result) :
    (∃ encrypt, c.worker = some encrypt ∧ result = fanoutResult (encrypt · newText) devices) ∨
      result = fanoutResult (c.main · newText) devices := by
  unfold Calls.encryptFanoutDetailed at h
  dsimp only at h
  split at h
  · rename_i workerResult hworker
    obtain ⟨hworker, -⟩ := Option.filter_eq_some_iff.1 hworker
    obtain ⟨encrypt, hencrypt, rfl⟩ := Option.map_eq_some_iff.1 hworker
    exact .inl ⟨encrypt, hencrypt, (Except.ok.inj h).symm⟩
  · split_ifs at h
    exact .inr (Except.ok.inj h).symm

theorem Calls.Ideal.renews_fanout (hc : c.Ideal opens m newText) {result : FanoutBuildResult}
    (h : c.buildFanoutSlotsDetailed newText = .ok result) {slot : BodySlot}
    (hslot : slot ∈ result.slots) :
    Renews opens m newText slot.device_id slot.ciphertext slot.iv := by
  unfold buildFanoutSlotsDetailed at h
  dsimp only at h
  split_ifs at h with hnil
  · obtain rfl := Except.ok.inj h
    exact absurd hslot List.not_mem_nil
  · obtain ⟨encrypt, hworker, rfl⟩ | rfl := encryptFanoutDetailed_cases h
    · exact renews_slotsOf (hc.worker encrypt hworker) hslot
    · exact renews_slotsOf hc.main hslot

theorem Calls.Ideal.renews_reached (hc : c.Ideal opens m newText) {frame : ChatCryptoContext}
    {slot : BodySlot} (hslot : slot ∈ c.reached newText drCtx frame) :
    Renews opens m newText slot.device_id slot.ciphertext slot.iv := by
  cases frame with
  | DIRECT peerIsGuest =>
    cases peerIsGuest with
    | true => exact absurd hslot List.not_mem_nil
    | false =>
      obtain ⟨l, hl, hslot⟩ := mem_getD hslot
      obtain ⟨ctx, -, hl⟩ := Option.bind_eq_some_iff.1 hl
      obtain ⟨peerUserId, -, hl⟩ := Option.bind_eq_some_iff.1 hl
      obtain ⟨slots, hslots, rfl⟩ := Option.map_eq_some_iff.1 hl
      obtain ⟨s, hs, rfl⟩ := List.mem_map.1 hslot
      exact hc.peer _ _ slots (toOption_eq_some hslots) s hs
  | SELF =>
    obtain ⟨l, hl, hslot⟩ := mem_getD hslot
    obtain ⟨ctx, -, hl⟩ := Option.bind_eq_some_iff.1 hl
    obtain ⟨result, hresult, rfl⟩ := Option.map_eq_some_iff.1 hl
    exact hc.renews_fanout (toOption_eq_some hresult) hslot
  | SECTOR _ | PUBLIC => exact absurd hslot List.not_mem_nil

theorem map_eq_ok {A B : Type} {f : A → B} {r : Except String A} {b : B} (h : r.map f = .ok b) :
    ∃ a, r = .ok a ∧ b = f a := by
  cases r with
  | error e => cases h
  | ok a => exact ⟨a, rfl, (Except.ok.inj h).symm⟩

theorem reached_direct {ctx : EditDrContext} {drSlots : Option (List BodySlot)}
    (h : c.encryptOutboundTextV2 newText false ctx = .ok drSlots) :
    drSlots.getD [] = c.reached newText (some ctx) (.DIRECT false) := by
  unfold Calls.encryptOutboundTextV2 at h
  rw [if_neg Bool.false_ne_true] at h
  unfold Calls.reached
  rw [Option.bind_some]
  cases hpeer : ctx.peerUserId with
  | none =>
    rw [hpeer] at h
    cases h
  | some peerUserId =>
    simp only [hpeer, Option.bind_some] at h ⊢
    split_ifs at h
    cases hslots : c.encryptForPeer ctx.ownerUserId peerUserId newText with
    | error e =>
      rw [hslots] at h
      cases h
    | ok slots =>
      simp only [hslots] at h
      split_ifs at h
      obtain rfl := Except.ok.inj h
      rfl

/-- What the body carries in a direct chat. -/
theorem body_direct {peerIsGuest : Bool} {body : EditMessageBody}
    (h : c.buildEditBody newText drCtx (.DIRECT peerIsGuest) = .ok body) :
    body = withSlots (c.reached newText drCtx (.DIRECT peerIsGuest)) := by
  cases drCtx with
  | none =>
    obtain rfl := Except.ok.inj h
    cases peerIsGuest with
    | true => rfl
    | false => rfl
  | some ctx =>
    cases peerIsGuest with
    | true => exact (Except.ok.inj h).symm
    | false =>
      obtain ⟨drSlots, hslots, rfl⟩ := map_eq_ok h
      exact congrArg withSlots (reached_direct hslots)

/-- What it carries in the saved messages. -/
theorem body_self {body : EditMessageBody} (h : c.buildEditBody newText drCtx .SELF = .ok body) :
    body = withSlots (c.reached newText drCtx .SELF) := by
  cases drCtx with
  | none => exact (Except.ok.inj h).symm
  | some ctx =>
    obtain ⟨fanout, hfanout, rfl⟩ := map_eq_ok h
    unfold Calls.reached
    rw [hfanout]
    rfl

theorem reached_of_labelOnly {frame : ChatCryptoContext} (h : c.LabelOnly drCtx frame) :
    c.reached newText drCtx frame = [] := by
  cases frame with
  | DIRECT peerIsGuest =>
    obtain rfl | rfl := h
    · cases peerIsGuest with
      | true => rfl
      | false => rfl
    · rfl
  | SELF =>
    obtain rfl | hdevices := h
    · rfl
    · cases drCtx with
      | none => rfl
      | some ctx =>
        have hfanout : c.buildFanoutSlotsDetailed newText = .ok ⟨[], [], []⟩ := by
          unfold Calls.buildFanoutSlotsDetailed
          rw [hdevices]
          rfl
        unfold Calls.reached
        rw [hfanout]
        rfl
  | SECTOR _ | PUBLIC => exact h.elim

theorem withSlots_content (slots : List BodySlot) : (withSlots slots).content = none := by
  unfold withSlots
  split_ifs
  · rfl
  · rfl

theorem withSlots_iv (slots : List BodySlot) : (withSlots slots).iv = none := by
  unfold withSlots
  split_ifs
  · rfl
  · rfl

theorem withSlots_ciphertexts (slots : List BodySlot) :
    (withSlots slots).ciphertexts.getD [] = slots := by
  unfold withSlots
  split_ifs with hnil
  · rfl
  · rw [ne_eq, not_not] at hnil
    rw [hnil]
    rfl

/-! ## The message after an edit -/

/-- A slot that the body names is renewed. -/
theorem get?_updateSlots_of_mem {slots : List BodySlot}
    (hslots : ∀ slot ∈ slots, Renews opens m newText slot.device_id slot.ciphertext slot.iv)
    {d : DeviceId} (hd : d ∈ slots.map BodySlot.device_id) (hstored : (m.slots.get? d).isSome) :
    ∃ slot, (updateSlots m.slots slots).get? d = some slot ∧
      Renews opens m newText d slot.ciphertext slot.iv := by
  obtain ⟨stored, hstored⟩ := Option.isSome_iff_exists.1 hstored
  cases hfind : slots.reverse.find? (·.device_id = d) with
  | none =>
    obtain ⟨slot, hslot, rfl⟩ := List.mem_map.1 hd
    exact absurd (decide_eq_true rfl) (List.find?_eq_none.1 hfind slot (List.mem_reverse.2 hslot))
  | some slot =>
    have hmem := List.mem_reverse.1 (List.mem_of_find?_eq_some hfind)
    have hid : slot.device_id = d := by simpa using List.find?_some hfind
    subst hid
    refine ⟨{ stored with ciphertext := slot.ciphertext, iv := slot.iv, deliveredAt := none }, ?_,
      hslots slot hmem⟩
    rw [get?_updateSlots, hstored, Option.map_some, hfind]

/-- Where the text is in slots. -/
theorem edited_slots {frame : ChatCryptoContext} {slots : List BodySlot}
    (hrow : ∀ m', m'.content = m.content → m'.iv = m.iv → c.Row newText m m' frame)
    (hreached : c.reached newText drCtx frame = slots)
    (hslots : ∀ slot ∈ slots, Renews opens m newText slot.device_id slot.ciphertext slot.iv)
    (hcovers : c.Covers newText drCtx frame m → m.content = none ∧
      ∀ d, (m.slots.get? d).isSome → d ∈ slots.map BodySlot.device_id) (now : ℕ) :
    Edited opens c frame drCtx newText now m (m.edit none none slots now) where
  editedAt := rfl
  row := hrow _ rfl rfl
  everywhere h := by
    obtain ⟨hcontent, hall⟩ := hcovers h
    constructor
    · rintro x hx (hrow | ⟨d, slot, hd, rfl⟩)
      · exact Option.some_ne_none x (hrow.symm.trans hcontent)
      · have hstored : (m.slots.get? d).isSome := by
          change (updateSlots m.slots slots).get? d = some slot at hd
          rw [get?_updateSlots] at hd
          obtain ⟨stored, hstored, -⟩ := Option.map_eq_some_iff.1 hd
          exact hstored ▸ rfl
        obtain ⟨slot', hd', -, hnew⟩ := get?_updateSlots_of_mem hslots (hall d hstored) hstored
        obtain rfl := Option.some.inj (hd.symm.trans hd')
        exact hnew hx
    · intro d hstored
      obtain ⟨slot, hd, hopens, -⟩ := get?_updateSlots_of_mem hslots (hall d hstored) hstored
      exact ⟨slot, hd, hopens⟩
  device d hd hstored := get?_updateSlots_of_mem hslots (hreached ▸ hd) hstored
  labelOnly h := by
    obtain rfl := hreached.symm.trans (reached_of_labelOnly h)
    rfl

/-- Where it is in the row, which holds no more what it held. -/
theorem edited_row (frame : ChatCryptoContext) (hreached : c.reached newText drCtx frame = [])
    (hlabel : ¬c.LabelOnly drCtx frame) {content iv : String}
    (hrow : ∀ m', m'.content = some content → m'.iv = some iv → c.Row newText m m' frame)
    (hcovers : c.Covers newText drCtx frame m →
      (∀ d, m.slots.get? d = none) ∧ ¬Holds m content) (now : ℕ) :
    Edited opens c frame drCtx newText now m (m.edit (some content) (some iv) [] now) where
  editedAt := rfl
  row := hrow _ rfl rfl
  everywhere h := by
    obtain ⟨hslots, hnew⟩ := hcovers h
    constructor
    · rintro x hx (hrow | ⟨d, slot, hd, -⟩)
      · obtain rfl := Option.some.inj hrow
        exact hnew hx
      · exact Option.some_ne_none slot (hd.symm.trans (hslots d))
    · intro d hstored
      rw [hslots d] at hstored
      exact absurd hstored Bool.false_ne_true
  device d hd := by
    rw [hreached] at hd
    exact absurd hd List.not_mem_nil
  labelOnly h := absurd h hlabel

/-- The transaction of a body that an edit has built. -/
theorem edited_of_body (hc : c.Ideal opens m newText) {frame : ChatCryptoContext}
    {body : EditMessageBody} (h : c.buildEditBody newText drCtx frame = .ok body) (now : ℕ) :
    Edited opens c frame drCtx newText now m
      (m.edit body.content body.iv (body.ciphertexts.getD []) now) := by
  cases frame with
  | DIRECT peerIsGuest =>
    obtain rfl := body_direct h
    rw [withSlots_content, withSlots_iv, withSlots_ciphertexts]
    exact edited_slots (fun _ => And.intro) rfl (fun _ hslot => hc.renews_reached hslot) id now
  | SELF =>
    obtain rfl := body_self h
    rw [withSlots_content, withSlots_iv, withSlots_ciphertexts]
    exact edited_slots (fun _ => And.intro) rfl (fun _ hslot => hc.renews_reached hslot) id now
  | SECTOR groupKey =>
    obtain ⟨s, hs, rfl⟩ := map_eq_ok h
    exact edited_row (.SECTOR groupKey) rfl id (fun _ hcontent hiv => ⟨s, hs, hcontent, hiv⟩)
      (fun hslots => ⟨hslots, hc.sector groupKey s hs⟩) now
  | PUBLIC =>
    obtain rfl := Except.ok.inj h
    refine edited_row .PUBLIC rfl id (fun _ => And.intro) (fun hcovers => ⟨hcovers.1, ?_⟩) now
    rintro (hrow | ⟨d, slot, hd, -⟩)
    · exact hcovers.2 hrow
    · exact Option.some_ne_none slot (hd.symm.trans (hcovers.1 d))

end

/-- An edit that is reported as failed changes nothing. One that succeeds is marked, replaces the
    text on the devices that its fan-out has reached, and everywhere if that are all; and where it
    has nothing to send, it leaves the text as it was. -/
theorem edit_replaces {opens : DeviceId → (ciphertext iv : String) → Option String} {c : Calls}
    {m : Message} {newText : String} (hc : c.Ideal opens m newText) {db : Db}
    {messageId : MessageId} (hm : db.messages.get? messageId = some m) (sess : Session)
    (frame : ChatCryptoContext) (drCtx : Option EditDrContext) :
    Outcome opens c frame drCtx messageId newText db m
      (c.submitEdit sess frame drCtx messageId newText db) := by
  unfold Calls.submitEdit
  cases hbody : c.buildEditBody newText drCtx frame with
  | error e => rfl
  | ok body =>
    obtain ⟨e, hpatch⟩ | hpatch := patchMessage_cases sess messageId body db
    · simp only [hpatch]
      rfl
    · simp only [hpatch]
      refine ⟨_, ?_, edited_of_body hc hbody db.clock⟩
      rw [get?_modify, if_pos rfl, hm, Option.map_some]

namespace OnePhone

/-- A text that Ann has sent to Bob, with a slot for his phone. -/
def message : Message where
  chatId := "chat"
  senderId := "ann"
  replyToId := none
  content := none
  iv := none
  mediaPath := none
  protocolVersion := 2
  drHeader := none
  drInit := none
  createdAt := 1
  editedAt := none
  slots := InsMap.empty.set "phone" ⟨"bob", "old", DR_SLOT_SENTINEL, some 2⟩
  sentFrom := none
  stamped := none

def db : Db where
  tables := ⟨[⟨"chat", "ann", none⟩, ⟨"chat", "bob", none⟩], ∅, [], []⟩
  messages := InsMap.empty.set 0 message
  nextId := 1
  clock := 7

def calls : Calls where
  safe _ _ := true
  encryptForPeer _ _ plaintext := .ok [⟨"phone", "sealed " ++ plaintext⟩]
  myDevices := []
  peerDevices := []
  worker := none
  main _ _ := none
  encryptMessage _ _ := .error "OperationError"

def opens (_ : DeviceId) (ciphertext _ : String) : Option String :=
  if ciphertext = "sealed new" then some "new" else none

theorem holds_iff {x : String} : Holds message x ↔ x = "old" := by
  constructor
  · rintro (hrow | ⟨d, slot, hd, rfl⟩)
    · exact absurd hrow.symm (Option.some_ne_none x)
    · rw [message, InsMap.get?_set] at hd
      split_ifs at hd
      · exact (congrArg Slot.ciphertext (Option.some.inj hd)).symm
      · exact absurd hd.symm (Option.some_ne_none slot)
  · rintro rfl
    exact .inr ⟨"phone", _, InsMap.get?_set_self _ _ _, rfl⟩

theorem ideal : calls.Ideal opens message "new" where
  peer _ _ slots hslots s hs := by
    obtain rfl := Except.ok.inj hslots
    obtain rfl := List.mem_singleton.1 hs
    exact ⟨rfl, fun h => absurd (holds_iff.1 h) (by decide)⟩
  worker _ h := absurd h.symm (Option.some_ne_none _)
  main _ _ h := absurd h.symm (Option.some_ne_none _)
  sector _ _ h := by cases h

end OnePhone

section
open OnePhone

/-- The text on the phone is replaced. -/
theorem edit_replaces_phone :
    let edited :=
      calls.submitEdit ⟨"ann", none⟩ (.DIRECT false) (some ⟨"ann", some "bob"⟩) 0 "new" db
    (edited.1.toOption, (edited.2.messages.get? 0).bind fun m =>
      (m.slots.get? "phone").map Slot.ciphertext) = (some 7, some "sealed new") ∧
    Outcome opens calls (.DIRECT false) (some ⟨"ann", some "bob"⟩) 0 "new" db message edited :=
  ⟨by decide, edit_replaces ideal (InsMap.get?_set_self _ _ _) _ _ _⟩

/-- An edit without a context succeeds, and the phone has the old text. -/
theorem old_text_kept :
    let edited := calls.submitEdit ⟨"ann", none⟩ (.DIRECT false) none 0 "new" db
    (edited.1.toOption, (edited.2.messages.get? 0).bind fun m =>
      (m.slots.get? "phone").map Slot.ciphertext) = (some 7, some "old") := by decide

end

end OneToThree.Messages.Editor
