import OneToThree.Lib.Json

/-!
# The text of a message row

What the client shows for a row that the server returns. The ciphertext and the iv are
taken per field, the device's own slot before the row (`ApiMessageRow.ciphertext`,
`ApiMessageRow.effectiveIv`), and the iv decides what is done with it: `system:v1` and
`poll:v1` rows are plain text, `dr:v2` rows are Double Ratchet envelopes, and in a DIRECT
chat with a peer that is no guest nothing else opens.

The ratchet is a parameter: `Runtime.decryptFromPeer` is what one call returns. Calls that
are in flight are shared between the readers of one row (`shareInFlightDrDecrypt`); the
key they are shared under determines the envelope (`inFlightKey_inj`), since the text of
an envelope has no bar outside of its quotations.
-/

namespace OneToThree.Messages

/-- A per-device envelope of the Double Ratchet. -/
structure DrDeviceEnvelope (N : Type) where
  sd : String
  h : String
  c : String
  i : Option (Json N)

/-- The key of a group, as it is held in memory. -/
abbrev GroupKey := ℕ

inductive ChatCryptoContext
  | DIRECT (peerPublicKeyJwk : String) (peerIsGuest : Bool)
  | SELF (selfPublicKeyJwk : String)
  | SECTOR (chatId : String) (groupKeyRing : List GroupKey)
  | PUBLIC
  deriving DecidableEq

/-- What the reader of a row relies on. A text that throws is the message of the error. -/
structure Runtime (N : Type) where
  /-- `JSON.parse`; `none` where it throws. -/
  parse : String → Option (Json N)
  closed_of_parse : ∀ t, (parse t).isSome → Json.Closed t
  /-- Decrypting an envelope on the ratchet of an owner with a peer. -/
  decryptFromPeer : (ownerUserId peerUserId : String) → DrDeviceEnvelope N → Except String String
  /-- Decrypting a slot under a sender's key. -/
  decryptFanoutSlot : (senderKey ciphertext iv : String) → Except String String
  decryptInboundText : ChatCryptoContext → (ciphertext iv : String) → Except String String
  /-- The texts of the rows of a group, given their ciphertexts and ivs. -/
  decryptShared : ChatCryptoContext → List (String × String) → List String
  /-- Whether the key of a user differs from the one that was pinned. -/
  revokedByKeyChange : (userId jwk : String) → Bool

structure ApiMessageRow where
  id : String
  chat_id : String
  sender_id : String
  reply_to_id : Option String
  reply_to_sender_id : Option String
  content : Option String
  iv : Option String
  media_path : Option String
  media_type : Option String
  media_iv : Option String
  media_original_bytes : Option ℕ
  device_ciphertext : Option String
  device_iv : Option String
  sender_ecdh_public_key_jwk : Option String
  read_at : Option String
  burn_at : Option String
  burn_duration_secs : Option ℕ
  is_pinned : Option Bool
  reactions : List (String × List String)
  created_at : String
  protocol_version : Option ℕ
  deriving DecidableEq

/-- What the store holds of a message. -/
structure DecryptedMessage (N : Type) where
  id : String
  chat_id : String
  sender_id : String
  reply_to_id : Option String
  reply_to_sender_id : Option String
  plaintext : String
  created_at : String
  edited_at : Option String
  read_at : Option String
  media_path : Option String
  media_type : Option String
  media_iv : Option String
  media_original_bytes : Option ℕ
  burn_at : Option String
  burn_duration_secs : Option ℕ
  is_pinned : Bool
  reactions : List (String × List String)
  kind : Option String
  kindMeta : Option (Json N)
  isSystemStamped : Bool

structure DrContext where
  ownerUserId : String
  peerUserId : String
  deriving DecidableEq

structure DecryptHints where
  myUserId : Option String
  myEcdhPublicKeyJwk : Option String
  priorMyEcdhPublicKeysJwk : List String
  priorPeerEcdhPublicKeysJwk : List String

/-- The iv of a notice, which only the server writes. -/
def systemSentinel : String := "system:v1"

/-- The iv of a poll. -/
def pollSentinel : String := "poll:v1"

def sentinels : List String := [systemSentinel, pollSentinel]

def DR_SLOT_SENTINEL : String := "dr:v2"

def decryptFail : String := "[DECRYPT_FAIL]"

namespace ApiMessageRow

/-- The ciphertext of a row: the one of the device's slot, if it has one. -/
def ciphertext (row : ApiMessageRow) : Option String := row.device_ciphertext.or row.content

/-- The iv of a row: the one of the device's slot, if it has one. -/
def effectiveIv (row : ApiMessageRow) : Option String := row.device_iv.or row.iv

end ApiMessageRow

variable {N : Type} [JsNumber N] [DecidableEq N] (rt : Runtime N)

/-! ## Envelopes -/

/-- A text, and not the empty one. -/
def nonemptyText (x : Option (Json N)) : Option String :=
  match x with
  | some (.str s) => if s = "" then none else some s
  | _ => none

def isNumberValue (x : Option (Json N)) : Bool :=
  match x with
  | some (.num _) => true
  | _ => false

def isValidDrInit (v : Json N) : Bool :=
  Json.isText (v.get? "p13") "dr-init" && Json.isNumber (v.get? "v") 1 &&
    (nonemptyText (v.get? "initiatorIdentityExchange")).isSome &&
    (nonemptyText (v.get? "initiatorIdentitySigning")).isSome &&
    (nonemptyText (v.get? "initiatorEphemeralPublic")).isSome &&
    isNumberValue (v.get? "signedPrekeyId") &&
    (match v.get? "oneTimePrekeyId" with
      | some .null | some (.num _) => true
      | _ => false)

/-- The envelope in a slot's text, if it is one. -/
def parseDrDeviceEnvelope (raw : String) : Option (DrDeviceEnvelope N) := do
  let o ← rt.parse raw
  if !Json.isNumber (o.get? "v") 2 then none
  else
    let sd ← nonemptyText (o.get? "sd")
    let h ← nonemptyText (o.get? "h")
    let c ← nonemptyText (o.get? "c")
    if (o.get? "i").all isValidDrInit then some ⟨sd, h, c, o.get? "i"⟩ else none

/-! ## Calls in flight -/

/-- The key that the readers of a row share a call under. -/
def inFlightKey (id deviceIv c : String) : String := id ++ "|" ++ deviceIv ++ "|" ++ c

/-- A call that is in flight: the row it is for, and what it will return. -/
structure InFlight where
  id : String
  deviceIv : String
  c : String
  envelope : DrDeviceEnvelope N
  parsed : parseDrDeviceEnvelope rt c = some envelope
  result : Except String String

variable {rt} in
def InFlight.key (call : InFlight rt) : String := inFlightKey call.id call.deviceIv call.c

variable {rt} in
/-- Joins the call in flight under a key, or makes one. -/
def shareInFlightDrDecrypt (inFlightDrRows : List (InFlight rt)) (key : String)
    (start : Except String String) : Except String String :=
  match inFlightDrRows.find? (·.key = key) with
  | some shared => shared.result
  | none => start

/-! ## Rows -/

/-- The keys that a slot is tried with, each once. -/
def pushUnique (candidates : List String) (k : Option String) : List String :=
  match k with
  | some k => if k = "" ∨ k ∈ candidates then candidates else candidates ++ [k]
  | none => candidates

/-- Tries the keys in turn, and fails with the last error. -/
def firstDecrypt (decrypt : String → Except String String) (lastErr : Option String) :
    List String → Except String String
  | [] => .error (lastErr.getD "FANOUT_DECRYPT_NO_CANDIDATE")
  | key :: candidates =>
    match decrypt key with
    | .ok text => .ok text
    | .error e => firstDecrypt decrypt (some e) candidates

/-- A field that counts as true. -/
def truthyText (x : Option String) : Option String := x.filter (· ≠ "")

/-- A guest's slot, under the sender's key of the row, the peer's key or one's own. -/
def decryptGuestSlot (peerPublicKeyJwk : String) (row : ApiMessageRow) (hints : DecryptHints)
    (ciphertext iv : String) : Except String String :=
  let isOwnRow := hints.myUserId = some row.sender_id
  let candidates := pushUnique [] row.sender_ecdh_public_key_jwk
  let candidates := pushUnique candidates (some peerPublicKeyJwk)
  let candidates := if isOwnRow then pushUnique candidates hints.myEcdhPublicKeyJwk else candidates
  let candidates := hints.priorPeerEcdhPublicKeysJwk.foldl (fun l k => pushUnique l (some k)) candidates
  firstDecrypt (fun key => rt.decryptFanoutSlot key ciphertext iv) none candidates

/-- A slot of Saved Messages, under the keys that one has had. -/
def decryptSelfSlot (selfPublicKeyJwk : String) (row : ApiMessageRow) (hints : DecryptHints)
    (ciphertext iv : String) : Except String String :=
  let fallbackKey := hints.myEcdhPublicKeyJwk.getD selfPublicKeyJwk
  let senderKey := row.sender_ecdh_public_key_jwk.getD fallbackKey
  if (truthyText row.sender_ecdh_public_key_jwk).any (rt.revokedByKeyChange row.sender_id) then
    .ok "[KEY_CHANGE_DETECTED]"
  else
    let candidates := pushUnique [senderKey] (some selfPublicKeyJwk)
    let candidates := pushUnique candidates hints.myEcdhPublicKeyJwk
    let candidates := hints.priorMyEcdhPublicKeysJwk.foldl (fun l k => pushUnique l (some k)) candidates
    firstDecrypt (fun key => rt.decryptFanoutSlot key ciphertext iv) none candidates

variable {rt} in
/-- A row of the Double Ratchet. A copy from one of the user's own devices rode the ratchet
    with that device, so that its peer is the user. -/
def decryptDrRow (inFlightDrRows : List (InFlight rt)) (row : ApiMessageRow) (drCtx : DrContext)
    (c : String) : Except String String :=
  match parseDrDeviceEnvelope rt c with
  | none => .error "ERR_DR_ENVELOPE_INVALID"
  | some drEnv =>
    let drPeerUserId :=
      if row.sender_id = drCtx.ownerUserId then drCtx.ownerUserId else drCtx.peerUserId
    shareInFlightDrDecrypt inFlightDrRows (inFlightKey row.id (row.device_iv.getD "") c)
      (rt.decryptFromPeer drCtx.ownerUserId drPeerUserId drEnv)

/-- The text of a row that is neither a sentinel row nor one of the Double Ratchet. -/
def decryptLegacyRow (cryptoCtx : ChatCryptoContext) (row : ApiMessageRow) (hints : DecryptHints)
    (c iv : String) : Except String String :=
  match cryptoCtx, truthyText row.device_ciphertext, truthyText row.device_iv with
  | .DIRECT _ false, _, _ => .error "ERR_DIRECT_V1_REJECTED"
  | .DIRECT peerPublicKeyJwk true, some slot, some slotIv =>
    decryptGuestSlot rt peerPublicKeyJwk row hints slot slotIv
  | .SELF selfPublicKeyJwk, some slot, some slotIv =>
    decryptSelfSlot rt selfPublicKeyJwk row hints slot slotIv
  | _, _, _ => rt.decryptInboundText cryptoCtx c iv

variable {rt} in
def decryptRowPlaintext (inFlightDrRows : List (InFlight rt)) (cryptoCtx : ChatCryptoContext)
    (row : ApiMessageRow) (drCtx : Option DrContext) (hints : DecryptHints) :
    Except String String :=
  match row.ciphertext, row.effectiveIv with
  | some c, some iv =>
    if c = "" then .ok ""
    else if iv = pollSentinel then .ok c
    else if iv = systemSentinel then .ok c
    else if row.protocol_version = some 2 ∧ iv = DR_SLOT_SENTINEL then
      match drCtx with
      | some drCtx => decryptDrRow inFlightDrRows row drCtx c
      | none => .error "ERR_DR_PEER_UNRESOLVED"
    else decryptLegacyRow rt cryptoCtx row hints c iv
  | _, _ => .ok ""

/-- What is stored of a row. Whether it is a notice is read off the row's own iv. -/
def apiRowToDecrypted (m : ApiMessageRow) (plaintext : String) : DecryptedMessage N :=
  let isSystemStamped := m.iv = some systemSentinel
  let parsed := if isSystemStamped ∧ plaintext ≠ "" then rt.parse plaintext else none
  let kind := parsed.bind fun parsed =>
    match parsed.get? "kind" with
    | some (.str kind) => some kind
    | _ => none
  { id := m.id
    chat_id := m.chat_id
    sender_id := m.sender_id
    reply_to_id := m.reply_to_id
    reply_to_sender_id := m.reply_to_sender_id
    plaintext
    created_at := m.created_at
    edited_at := none
    read_at := m.read_at
    media_path := m.media_path
    media_type := m.media_type.filter (· ∈ ["audio", "video", "image", "file"])
    media_iv := m.media_iv
    media_original_bytes := m.media_original_bytes
    burn_at := m.burn_at
    burn_duration_secs := m.burn_duration_secs
    is_pinned := m.is_pinned.getD false
    reactions := m.reactions
    kind
    kindMeta := kind.bind fun _ => parsed
    isSystemStamped }

variable {rt} in
/-- What is stored of a row that is read, or that fails to be. -/
def decryptRow (inFlightDrRows : List (InFlight rt)) (cryptoCtx : ChatCryptoContext)
    (row : ApiMessageRow) (drCtx : Option DrContext) (hints : DecryptHints) : DecryptedMessage N :=
  match decryptRowPlaintext inFlightDrRows cryptoCtx row drCtx hints with
  | .ok plaintext => apiRowToDecrypted rt row plaintext
  | .error _ => apiRowToDecrypted rt row decryptFail

variable {rt} in
/-- The calls in flight once a row is being read: the call that it makes is shared. -/
def publish (inFlightDrRows : List (InFlight rt)) (row : ApiMessageRow) (drCtx : Option DrContext) :
    List (InFlight rt) :=
  match row.ciphertext, drCtx with
  | some c, some drCtx =>
    if row.protocol_version = some 2 ∧ row.effectiveIv = some DR_SLOT_SENTINEL then
      match h : parseDrDeviceEnvelope rt c with
      | some drEnv =>
        inFlightDrRows ++ [{
          id := row.id
          deviceIv := row.device_iv.getD ""
          c
          envelope := drEnv
          parsed := h
          result := decryptDrRow inFlightDrRows row drCtx c }]
      | none => inFlightDrRows
    else inFlightDrRows
  | _, _ => inFlightDrRows

variable {rt} in
/-- The rows of a chat of two, each read on its own while those before it are in flight. -/
def decryptEachRow (cryptoCtx : ChatCryptoContext) (drCtx : Option DrContext)
    (hints : DecryptHints) : List (InFlight rt) → List ApiMessageRow → List (DecryptedMessage N)
  | _, [] => []
  | inFlightDrRows, row :: rows =>
    decryptRow inFlightDrRows cryptoCtx row drCtx hints ::
      decryptEachRow cryptoCtx drCtx hints (publish inFlightDrRows row drCtx) rows

/-- What a row of a group has to decrypt. -/
def sharedJob (m : ApiMessageRow) : Option (String × String) :=
  match m.ciphertext, m.effectiveIv with
  | some c, some iv => if c = "" then none else some (c, iv)
  | _, _ => none

/-- The texts of the jobs, each at the row it is of; a row without a job is blank. -/
def assignTexts : List ApiMessageRow → List String → List (DecryptedMessage N)
  | [], _ => []
  | m :: rows, texts =>
    match sharedJob m, texts with
    | none, texts => apiRowToDecrypted rt m "" :: assignTexts rows texts
    | some _, [] => apiRowToDecrypted rt m "" :: assignTexts rows []
    | some _, text :: texts => apiRowToDecrypted rt m text :: assignTexts rows texts

variable {rt} in
def decryptApiMessageRows (inFlightDrRows : List (InFlight rt)) (cryptoCtx : ChatCryptoContext)
    (rows : List ApiMessageRow) (drCtx : Option DrContext) (hints : DecryptHints) :
    List (DecryptedMessage N) :=
  match cryptoCtx with
  | .DIRECT _ _ | .SELF _ => decryptEachRow cryptoCtx drCtx hints inFlightDrRows rows
  | .SECTOR _ _ | .PUBLIC =>
    assignTexts rt rows (rt.decryptShared cryptoCtx (rows.filterMap sharedJob))

/-! ## Shared calls -/

variable {rt} in
theorem closed_of_parsed {raw : String} {env : DrDeviceEnvelope N}
    (h : parseDrDeviceEnvelope rt raw = some env) : Json.Closed raw := by
  obtain ⟨o, ho, -⟩ := Option.bind_eq_some_iff.1 h
  exact rt.closed_of_parse raw (by rw [ho]; rfl)

theorem toList_inFlightKey (id deviceIv c : String) :
    (inFlightKey id deviceIv c).toList = (id.toList ++ '|' :: deviceIv.toList) ++ '|' :: c.toList := by
  simp [inFlightKey]

theorem eq_of_append_bar {l r : List Char} {c c' : String} (hc : Json.Closed c)
    (hc' : Json.Closed c') (h : '|' :: c.toList = l ++ '|' :: r) (hr : r = c'.toList) : c = c' := by
  subst hr
  cases l with
  | nil => exact String.toList_inj.1 (List.cons.inj h).2
  | cons bar l =>
    -- The longer text would have the shorter one after a bar.
    exact absurd hc' (hc.not_closed (List.cons.inj h).2)

/-- The key of a call determines the text of its envelope. -/
theorem inFlightKey_inj {id id' deviceIv deviceIv' c c' : String} (hc : Json.Closed c)
    (hc' : Json.Closed c') (h : inFlightKey id deviceIv c = inFlightKey id' deviceIv' c') :
    c = c' := by
  have hlist := congrArg String.toList h
  rw [toList_inFlightKey, toList_inFlightKey] at hlist
  rcases List.append_eq_append_iff.1 hlist with ⟨l, -, hrest⟩ | ⟨l, -, hrest⟩
  · exact eq_of_append_bar hc hc' hrest rfl
  · exact (eq_of_append_bar hc' hc hrest rfl).symm

/-! ## What is shown in a chat of two -/

variable {rt} in
/-- The text that a call of the ratchet returns for the envelope of a row: its own call, on
    the ratchet with the peer or with the user's other device, or one in flight for it. -/
def FromRatchet (inFlightDrRows : List (InFlight rt)) (row : ApiMessageRow)
    (result : Except String String) : Prop :=
  ∃ c drEnv, row.ciphertext = some c ∧ parseDrDeviceEnvelope rt c = some drEnv ∧
    ((∃ ownerUserId peerUserId, result = rt.decryptFromPeer ownerUserId peerUserId drEnv) ∨
      ∃ call ∈ inFlightDrRows, call.envelope = drEnv ∧ result = call.result)

variable {rt}

theorem decryptDrRow_fromRatchet (inFlightDrRows : List (InFlight rt)) {row : ApiMessageRow}
    (drCtx : DrContext) {c : String} (hc : row.ciphertext = some c) :
    (∃ e, decryptDrRow inFlightDrRows row drCtx c = .error e) ∨
      FromRatchet inFlightDrRows row (decryptDrRow inFlightDrRows row drCtx c) := by
  rw [decryptDrRow]
  split
  next => exact .inl ⟨_, rfl⟩
  next drEnv hparse =>
    refine .inr ⟨c, drEnv, hc, hparse, ?_⟩
    rw [shareInFlightDrDecrypt]
    split
    next call hcall =>
      have hkey : call.key = inFlightKey row.id (row.device_iv.getD "") c :=
        by simpa using List.find?_some hcall
      have htext := inFlightKey_inj (closed_of_parsed call.parsed) (closed_of_parsed hparse) hkey
      have henv : call.envelope = drEnv :=
        Option.some.inj (call.parsed.symm.trans (htext ▸ hparse))
      exact .inr ⟨call, List.mem_of_find?_eq_some hcall, henv, rfl⟩
    next => exact .inl ⟨_, _, rfl⟩

omit [JsNumber N] [DecidableEq N] in
theorem decryptLegacyRow_direct (peerPublicKeyJwk : String) (row : ApiMessageRow)
    (hints : DecryptHints) (c iv : String) :
    decryptLegacyRow rt (.DIRECT peerPublicKeyJwk false) row hints c iv =
      .error "ERR_DIRECT_V1_REJECTED" := by
  rw [decryptLegacyRow]

/-- The iv of a row is its own, unless its slot has one. -/
theorem ApiMessageRow.iv_of_effectiveIv {row : ApiMessageRow} {iv : String}
    (h : row.effectiveIv = some iv) (hslot : ∀ iv ∈ row.device_iv, iv ∉ sentinels)
    (hiv : iv ∈ sentinels) : row.device_iv = none ∧ row.iv = some iv := by
  rcases Option.or_eq_some_iff.1 h with hdevice | ⟨hdevice, hrow⟩
  · exact absurd hiv (hslot iv hdevice)
  · exact ⟨hdevice, hrow⟩

/-- What reading a row comes to in a chat of two: the branches of `decryptRowPlaintext`. -/
theorem decryptRowPlaintext_direct_cases (inFlightDrRows : List (InFlight rt))
    (peerPublicKeyJwk : String) (row : ApiMessageRow) (drCtx : Option DrContext)
    (hints : DecryptHints) :
    let result := decryptRowPlaintext inFlightDrRows (.DIRECT peerPublicKeyJwk false) row drCtx hints
    (∃ e, result = .error e) ∨ result = .ok "" ∨
      (∃ c ctx, row.ciphertext = some c ∧ drCtx = some ctx ∧
        (row.protocol_version = some 2 ∧ row.effectiveIv = some DR_SLOT_SENTINEL) ∧
        result = decryptDrRow inFlightDrRows row ctx c) ∨
      ∃ c iv, row.ciphertext = some c ∧ row.effectiveIv = some iv ∧ iv ∈ sentinels ∧
        result = .ok c := by
  intro result
  simp only [result]
  rw [decryptRowPlaintext]
  split
  next c iv hc hiv =>
    split_ifs with hempty hpoll hsystem hdr
    · exact .inr (.inl rfl)
    · exact .inr (.inr (.inr ⟨c, iv, hc, hiv, by simp [sentinels, hpoll], rfl⟩))
    · exact .inr (.inr (.inr ⟨c, iv, hc, hiv, by simp [sentinels, hsystem], rfl⟩))
    · cases drCtx with
      | some ctx => exact .inr (.inr (.inl ⟨c, ctx, hc, rfl, ⟨hdr.1, hdr.2 ▸ hiv⟩, rfl⟩))
      | none => exact .inl ⟨_, rfl⟩
    · exact .inl ⟨_, decryptLegacyRow_direct _ _ _ _ _⟩
  next => exact .inr (.inl rfl)

/-- **The text of a row in a chat of two.** For a slot whose iv is no sentinel, reading a row
    fails, or gives the empty text, a text that the ratchet returns for the row's envelope, the
    text of a row that is marked as a notice, or the plain text of a poll. -/
theorem decryptRowPlaintext_direct {inFlightDrRows : List (InFlight rt)} {peerPublicKeyJwk : String}
    {row : ApiMessageRow} {drCtx : Option DrContext} {hints : DecryptHints}
    (hslot : ∀ iv ∈ row.device_iv, iv ∉ sentinels) :
    (∃ e, decryptRowPlaintext inFlightDrRows (.DIRECT peerPublicKeyJwk false) row drCtx hints =
      .error e) ∨
    ∃ plaintext, decryptRowPlaintext inFlightDrRows (.DIRECT peerPublicKeyJwk false) row drCtx hints =
        .ok plaintext ∧
      (plaintext = "" ∨ FromRatchet inFlightDrRows row (.ok plaintext) ∨
        (apiRowToDecrypted rt row plaintext).isSystemStamped ∨
        row.effectiveIv = some pollSentinel) := by
  rcases decryptRowPlaintext_direct_cases inFlightDrRows peerPublicKeyJwk row drCtx hints with
    herror | hempty | ⟨c, ctx, hc, -, -, hdr⟩ | ⟨c, iv, -, hiv, hsentinel, hplain⟩
  · exact .inl herror
  · exact .inr ⟨"", hempty, .inl rfl⟩
  · rcases decryptDrRow_fromRatchet inFlightDrRows ctx hc with ⟨e, he⟩ | hratchet
    · exact .inl ⟨e, hdr.trans he⟩
    · cases hresult : decryptDrRow inFlightDrRows row ctx c with
      | error e => exact .inl ⟨e, hdr.trans hresult⟩
      | ok plaintext =>
        exact .inr ⟨plaintext, hdr.trans hresult, .inr (.inl (hresult ▸ hratchet))⟩
  · refine .inr ⟨c, hplain, .inr (.inr ?_)⟩
    -- The iv is that of the row, since it is not that of the slot.
    have hrow := (ApiMessageRow.iv_of_effectiveIv hiv hslot hsentinel).2
    rcases List.mem_cons.1 hsentinel with rfl | hpoll
    · exact .inl (decide_eq_true hrow)
    · exact .inr (hiv.trans (congrArg some (List.mem_singleton.1 hpoll)))

/-! ## Two rows -/

namespace Sample

def envelopeText : String := "\x7b\"v\":2,\"sd\":\"d1\",\"h\":\"aGVhZA==\",\"c\":\"Y2lwaGVy\"\x7d"

def pollText : String := "\x7b\"poll_id\":\"p1\"\x7d"

/-- A runtime that reads these two texts, and whose ratchet opens what it is given. -/
def runtime : Runtime ℕ where
  parse t :=
    if t = envelopeText then
      some (.obj [("v", .num 2), ("sd", .str "d1"), ("h", .str "aGVhZA=="), ("c", .str "Y2lwaGVy")])
    else if t = pollText then some (.obj [("poll_id", .str "p1")])
    else none
  closed_of_parse := by
    intro t h
    split_ifs at h with henvelope hpoll
    · subst henvelope; decide +kernel
    · subst hpoll; decide +kernel
    · exact nomatch h
  decryptFromPeer _ _ _ := .ok "hello"
  decryptFanoutSlot _ _ _ := .error "OperationError"
  decryptInboundText _ _ _ := .error "OperationError"
  decryptShared _ jobs := jobs.map fun _ => decryptFail
  revokedByKeyChange _ _ := false

def row : ApiMessageRow where
  id := "m1"
  chat_id := "c1"
  sender_id := "peer"
  reply_to_id := none
  reply_to_sender_id := none
  content := none
  iv := none
  media_path := none
  media_type := none
  media_iv := none
  media_original_bytes := none
  device_ciphertext := none
  device_iv := none
  sender_ecdh_public_key_jwk := none
  read_at := none
  burn_at := none
  burn_duration_secs := none
  is_pinned := none
  reactions := []
  created_at := "2026-01-01T00:00:00.000Z"
  protocol_version := none

def drRow : ApiMessageRow :=
  { row with device_ciphertext := some envelopeText, device_iv := some DR_SLOT_SENTINEL,
             protocol_version := some 2 }

def pollRow : ApiMessageRow := { row with content := some pollText, iv := some pollSentinel }

def drCtx : DrContext := ⟨"me", "peer"⟩

def hints : DecryptHints := ⟨some "me", none, [], []⟩

/-- No call is in flight. -/
def idle : List (InFlight runtime) := []

end Sample

section
open Sample

theorem decryptRowPlaintext_direct_drRow :
    (∃ e, decryptRowPlaintext idle (.DIRECT "k" false) drRow (some drCtx) hints =
      .error e) ∨
    ∃ plaintext, decryptRowPlaintext idle (.DIRECT "k" false) drRow (some drCtx) hints =
        .ok plaintext ∧
      (plaintext = "" ∨ FromRatchet idle drRow (.ok plaintext) ∨
        (apiRowToDecrypted runtime drRow plaintext).isSystemStamped ∨
        drRow.effectiveIv = some pollSentinel) :=
  decryptRowPlaintext_direct (by decide)

/-- The text of a poll is shown as it was served, without a mark. -/
theorem poll_row_unmarked :
    decryptRowPlaintext idle (.DIRECT "k" false) pollRow (some drCtx) hints =
        .ok pollText ∧
      pollText ≠ "" ∧ (apiRowToDecrypted runtime pollRow pollText).isSystemStamped = false ∧
      ¬ FromRatchet idle pollRow (.ok pollText) := by
  refine ⟨rfl, by decide, rfl, ?_⟩
  rintro ⟨c, drEnv, hc, hparse, -⟩
  obtain rfl := Option.some.inj hc
  have hnone : (parseDrDeviceEnvelope runtime pollText).isNone := by decide +kernel
  rw [hparse] at hnone
  exact nomatch hnone

end

end OneToThree.Messages
