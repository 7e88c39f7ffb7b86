import Mathlib.Data.Sym.Sym2
import OneToThree.Lib.Base64
import OneToThree.Lib.Json

/-!
# The text of a wrapped group key

`Group.Wrap` takes a wrapped key as a record. Here it is the text that is stored and
served, which whoever serves it may assemble: what opens from it, and whose key that is.

Cryptography is ideal. An ECDH key is the unordered pair of two points and the KDF label
(`WrapKey`), and AES-GCM opens what was sealed (`Sealing`) under exactly the key, the iv,
the ciphertext and the additional data of the sealing. The runtime's parsers and
decoders are parameters (`Runtime`), of which nothing is assumed.

* A v3 wrap is bound to its context by the text `sectorWrapAad`, which determines the
  chat, the epoch, the creator's key and the member (`sectorWrapAad_inj`).
* A wrap before v3 is bound to the agreement of two keys, and not to which of the two
  made it: the member's own wrap for the creator opens for the member.
-/

namespace OneToThree.SectorWrap

abbrev Bytes := List UInt8

inductive EcdhCurve
  | p256
  | p384
  deriving DecidableEq

/-- What the runtime provides, for the numbers `N` and the points `P`. -/
structure Runtime (N P : Type) where
  /-- `JSON.parse`; `none` where it throws. -/
  parse : String → Option (Json N)
  /-- `atob`; `none` where it throws. -/
  atob : String → Option Bytes
  toB64 : Bytes → String
  /-- `TextEncoder.encode`. -/
  encodeText : String → Bytes
  /-- `TextDecoder.decode`. -/
  decodeText : Bytes → String
  /-- Whether the members of a JWK other than `crv`, `kty`, `x` and `y` admit its import. -/
  accepts : Json N → Bool
  /-- The point of a JWK on a named curve, given its `crv`, `kty`, `x` and `y`. -/
  decodePoint : EcdhCurve → Option String → Option String → Option String → Option String → Option P
  curve : P → EcdhCurve
  /-- The JWK text that a public key is exported as. -/
  exportJwk : P → String

inductive WrapError
  | invalidCharacter
  | syntaxError
  | typeError
  | invalidJwkFormat
  | dataError
  | invalidAccess
  | creatorKeyUntrusted
  | v3RequiresBinding
  | wrapContextMismatch
  | unauthenticatedWrapRejected
  | unknownSignalFormat
  | operationError
  deriving DecidableEq

def WrapError.message : WrapError → String
  | .invalidCharacter => "InvalidCharacterError"
  | .syntaxError => "SyntaxError"
  | .typeError => "TypeError"
  | .invalidJwkFormat => "INVALID_JWK_FORMAT"
  | .dataError => "DataError"
  | .invalidAccess => "InvalidAccessError"
  | .creatorKeyUntrusted => "SECTOR_CREATOR_KEY_UNTRUSTED :: COMPROMISED_LINK"
  | .v3RequiresBinding => "SECTOR_V3_REQUIRES_BINDING"
  | .wrapContextMismatch => "SECTOR_WRAP_CONTEXT_MISMATCH :: COMPROMISED_LINK"
  | .unauthenticatedWrapRejected => "SECTOR_UNAUTHENTICATED_WRAP_REJECTED :: COMPROMISED_LINK"
  | .unknownSignalFormat => "ERR_UNKNOWN_SIGNAL_FORMAT"
  | .operationError => "OperationError"

/-- The domain of a key derivation. -/
inductive KdfCtx
  | LEGACY
  | CALL
  | GROUP_WRAP
  deriving DecidableEq

def KdfCtx.info : KdfCtx → String
  | .LEGACY => "ForestMsg/fanout/1"
  | .CALL => "ForestMsg/call/1"
  | .GROUP_WRAP => "ForestMsg/group-wrap/1"

/-- A derived key: determined by, and unique to, the two points and the label. -/
structure WrapKey (P : Type) where
  pair : Sym2 P
  ctx : KdfCtx
  deriving DecidableEq

/-- What AES-GCM sealed; no additional data is the empty one. -/
structure Sealing (P : Type) where
  key : WrapKey P
  iv : Bytes
  ciphertext : Bytes
  aad : String
  plain : Bytes
  deriving DecidableEq

/-- The chat and the member that a wrap is for. -/
structure WrapBinding where
  chatId : String
  memberUserId : String
  deriving DecidableEq

variable {N P : Type} [JsNumber N] (rt : Runtime N P)

/-! ## Keys -/

def namedCurveFromJwk (jwk : Json N) : EcdhCurve :=
  if Json.isText (jwk.get? "crv") "P-384" then .p384 else .p256

/-- Importing the text of a JWK. A value that is no object has no members to import. -/
def importEcdhPublicKey (jwkString : String) : Except WrapError P :=
  match rt.parse jwkString with
  | none => .error .invalidJwkFormat
  | some .null => .error .typeError
  | some jwk =>
    let member key := (jwk.get? key).map Json.toText
    if rt.accepts jwk then
      match rt.decodePoint (namedCurveFromJwk jwk) (member "crv") (member "kty") (member "x")
          (member "y") with
      | some point => .ok point
      | none => .error .dataError
    else .error .dataError

def deriveSharedSecret (privateKey publicKey : P) (ctx : KdfCtx) : Except WrapError (WrapKey P) :=
  if rt.curve privateKey = rt.curve publicKey then .ok ⟨s(privateKey, publicKey), ctx⟩
  else .error .invalidAccess

variable {rt} in
omit [JsNumber N] in
theorem deriveSharedSecret_eq_ok {privateKey publicKey : P} {ctx : KdfCtx} {key : WrapKey P}
    (h : deriveSharedSecret rt privateKey publicKey ctx = .ok key) :
    key = ⟨s(privateKey, publicKey), ctx⟩ := by
  rw [deriveSharedSecret] at h
  split at h
  · exact (Except.ok.inj h).symm
  · exact nomatch h

/-- The members of a JWK that name its point. -/
def keyFields : List String := ["crv", "kty", "x", "y"]

/-- The canonical text of a public key, in whatever order its members are written. -/
def canonicalEcdhKeyId (jwk : Option (Json N)) : String :=
  match rt.parse (Json.textOf jwk) with
  | none | some .null => "__INVALID_JWK__:" ++ Json.textOf jwk
  | some parsed =>
    (Json.obj (keyFields.map fun key => (key, Json.orElse (parsed.get? key) .null))).stringify

def ecdhPublicKeysEqual (a b : Option (Json N)) : Bool :=
  canonicalEcdhKeyId rt a = canonicalEcdhKeyId rt b

/-- `jwk` is the text of a public key: it names the point by four texts, and imports as it. -/
structure IsPublicKey (jwk : String) (point : P) : Prop where
  fields : ∃ data, ∃ text : String → String, rt.parse jwk = some data ∧
    ∀ key ∈ keyFields, data.get? key = some (.str (text key))
  imports : importEcdhPublicKey rt jwk = .ok point

section
variable {rt}

theorem stringify_ne_invalid {fields : List (String × Json N)} {text : String} :
    (Json.obj fields).stringify ≠ "__INVALID_JWK__:" ++ text := by
  intro h
  have hhead := congrArg (fun t : String => t.toList.head?) h
  simp [Json.stringify] at hhead

/-- The canonical text of a public key, by its four texts. -/
theorem IsPublicKey.keyId_eq {jwk : String} {point : P} (h : IsPublicKey rt jwk point) :
    ∃ text : String → String, ∃ data, rt.parse jwk = some data ∧
      (∀ key ∈ keyFields, data.get? key = some (.str (text key))) ∧
      canonicalEcdhKeyId rt (some (.str jwk)) =
        (Json.obj (keyFields.map fun key => (key, (Json.str (text key) : Json N)))).stringify := by
  obtain ⟨data, text, hparse, hfields⟩ := h.fields
  refine ⟨text, data, hparse, hfields, ?_⟩
  have hnull : data ≠ .null := by
    rintro rfl
    exact nomatch hfields "crv" (by decide)
  rw [canonicalEcdhKeyId, show Json.textOf (some (Json.str jwk : Json N)) = jwk from rfl,
    hparse]
  split
  next h => exact nomatch h
  next h => exact absurd (Option.some.inj h) hnull
  next parsed h =>
    obtain rfl := Option.some.inj h
    refine congrArg (fun fields => (Json.obj fields).stringify) (List.map_congr_left ?_)
    intro key hkey
    rw [hfields key hkey, Json.orElse]
    exact fun h => nomatch h

/-- What an import reads: the members that name a point, and whether the others admit it. -/
theorem importEcdhPublicKey_eq_ok {jwk : String} {point : P}
    (h : importEcdhPublicKey rt jwk = .ok point) :
    ∃ data, rt.parse jwk = some data ∧
      rt.decodePoint (namedCurveFromJwk data) ((data.get? "crv").map Json.toText)
        ((data.get? "kty").map Json.toText) ((data.get? "x").map Json.toText)
        ((data.get? "y").map Json.toText) = some point := by
  rw [importEcdhPublicKey] at h
  split at h
  · exact nomatch h
  · exact nomatch h
  next data _ hparse =>
    refine ⟨data, hparse, ?_⟩
    dsimp only at h
    split at h
    · split at h
      next hdecode => rw [hdecode, Except.ok.inj h]
      next => exact nomatch h
    · exact nomatch h

/-- What has the canonical text of a public key imports, if it does, as the same point. -/
theorem importEcdhPublicKey_eq {jwk : String} {other : Option (Json N)} {point point' : P}
    (h : IsPublicKey rt jwk point) (heq : ecdhPublicKeysEqual rt other (some (.str jwk)))
    (himport : importEcdhPublicKey rt (Json.textOf other) = .ok point') : point' = point := by
  obtain ⟨text, data, hparse, hfields, hid⟩ := h.keyId_eq
  obtain ⟨data₁, hparse₁, hdecode₁⟩ := importEcdhPublicKey_eq_ok h.imports
  obtain rfl := Option.some.inj (hparse.symm.trans hparse₁)
  obtain ⟨data', hparse', hdecode'⟩ := importEcdhPublicKey_eq_ok himport
  rw [ecdhPublicKeysEqual, decide_eq_true_iff, hid, canonicalEcdhKeyId, hparse'] at heq
  have hfields' : ∀ key ∈ keyFields, data'.get? key = some (.str (text key)) := by
    split at heq
    · exact absurd heq.symm stringify_ne_invalid
    · exact absurd heq.symm stringify_ne_invalid
    next parsed hparsed =>
      obtain rfl := Option.some.inj hparsed
      exact fun key hkey => Json.orElse_null_eq_str (Json.fields_eq_of_stringify heq key hkey)
  have hget : ∀ key ∈ keyFields, data'.get? key = data.get? key := fun key hkey =>
    (hfields' key hkey).trans (hfields key hkey).symm
  rw [namedCurveFromJwk, hget "crv" (by decide), hget "kty" (by decide), hget "x" (by decide),
    hget "y" (by decide)] at hdecode'
  exact Option.some.inj (hdecode'.symm.trans hdecode₁)

end

/-! ## Identifiers -/

/-- Five groups of hexadecimal digits. -/
def IsUuid (id : String) : Prop :=
  (id.toList.splitOn '-').map List.length = [8, 4, 4, 4, 12] ∧
    ∀ c ∈ id.toList, c = '-' ∨ c.isDigit ∨ c ∈ "abcdefABCDEF".toList

/-! ## Joined fields -/

section
variable {α : Type*} [DecidableEq α] {sep : α}

theorem count_intercalate (sep : α) {ls : List (List α)} (h : ls ≠ []) :
    ([sep].intercalate ls).count sep + 1 = ls.length + ls.flatten.count sep := by
  induction ls with
  | nil => exact absurd rfl h
  | cons l ls ih =>
    cases ls with
    | nil => rw [List.intercalate_singleton]; simp [Nat.add_comm]
    | cons l' ls =>
      have ih := ih (List.cons_ne_nil l' ls)
      rw [List.intercalate_cons_cons, List.count_append, List.count_append,
        List.count_singleton_self, List.flatten_cons, List.count_append, List.length_cons]
      omega

theorem count_flatten_eq_zero {ls : List (List α)} :
    ls.flatten.count sep = 0 ↔ ∀ l ∈ ls, sep ∉ l := by
  rw [List.count_eq_zero, List.mem_flatten]
  exact ⟨fun h l hl hsep => h ⟨l, hl, hsep⟩, fun h ⟨l, hl, hsep⟩ => h l hl hsep⟩

/-- Fields without the separator are read back from their joined text, whatever the fields
    are that it is compared with. -/
theorem intercalate_inj {ls ls' : List (List α)} (hlen : ls'.length = ls.length)
    (hsep : ∀ l ∈ ls, sep ∉ l) (h : [sep].intercalate ls' = [sep].intercalate ls) : ls' = ls := by
  by_cases hls : ls = []
  · subst hls
    exact List.length_eq_zero_iff.1 hlen
  · have hls' : ls' ≠ [] := by
      rintro rfl
      exact hls (List.length_eq_zero_iff.1 hlen.symm)
    -- The joined text has no more separators than it takes to join the fields.
    have hcount := count_intercalate sep hls
    have hcount' := count_intercalate sep hls'
    rw [count_flatten_eq_zero.2 hsep] at hcount
    rw [h, hlen] at hcount'
    have hsep' : ∀ l ∈ ls', sep ∉ l := count_flatten_eq_zero.1 (by omega)
    rw [← List.splitOn_intercalate sep hsep' hls', h, List.splitOn_intercalate sep hsep hls]
end

/-! ## Sealing -/

/-- The separator of the fields of the additional data. -/
def separator : Char := '\x1f'

theorem IsUuid.separator_notMem {id : String} (h : IsUuid id) : separator ∉ id.toList :=
  fun hmem => absurd (h.2 _ hmem) (by decide)

variable {rt} in
theorem IsPublicKey.separator_notMem {jwk : String} {point : P} (h : IsPublicKey rt jwk point) :
    separator ∉ (canonicalEcdhKeyId rt (some (.str jwk))).toList := by
  obtain ⟨text, -, -, -, hid⟩ := h.keyId_eq
  rw [hid]
  exact fun hmem => absurd (Json.stringify_printable _ _ hmem) (by decide)

/-- The fields that a v3 wrap is bound to, each as a text. -/
def sectorWrapFields (chatId : String) (epoch : Json N) (creatorEcdhPublicKeyJwk : Option (Json N))
    (memberUserId : String) : List String :=
  ["p13:sector-wrap:v3", chatId, epoch.toText, canonicalEcdhKeyId rt creatorEcdhPublicKeyJwk,
    memberUserId]

def sectorWrapAad (chatId : String) (epoch : Json N) (creatorEcdhPublicKeyJwk : Option (Json N))
    (memberUserId : String) : String :=
  (String.singleton separator).intercalate
    (sectorWrapFields rt chatId epoch creatorEcdhPublicKeyJwk memberUserId)

section
variable {rt}

theorem sectorWrapAad_ne_empty {chatId memberUserId : String} {epoch : Json N}
    {creator : Option (Json N)} : sectorWrapAad rt chatId epoch creator memberUserId ≠ "" := by
  intro h
  have hlist := congrArg String.toList h
  simp [sectorWrapAad, sectorWrapFields] at hlist

/-- The additional data determines its fields, where those on one side have no separator. -/
theorem sectorWrapAad_inj {chatId chatId' memberUserId memberUserId' : String}
    {epoch epoch' : Json N} {creator creator' : Option (Json N)}
    (hsep : ∀ t ∈ sectorWrapFields rt chatId epoch creator memberUserId, separator ∉ t.toList)
    (h : sectorWrapAad rt chatId' epoch' creator' memberUserId' =
      sectorWrapAad rt chatId epoch creator memberUserId) :
    chatId' = chatId ∧ epoch'.toText = epoch.toText ∧
      canonicalEcdhKeyId rt creator' = canonicalEcdhKeyId rt creator ∧
      memberUserId' = memberUserId := by
  have hlist := congrArg String.toList h
  rw [sectorWrapAad, sectorWrapAad, String.toList_intercalate, String.toList_intercalate,
    String.toList_singleton] at hlist
  have hsep' : ∀ l ∈ (sectorWrapFields rt chatId epoch creator memberUserId).map String.toList,
      separator ∉ l := by
    intro l hl
    obtain ⟨t, ht, rfl⟩ := List.mem_map.1 hl
    exact hsep t ht
  have htexts := intercalate_inj (by simp [sectorWrapFields]) hsep' hlist
  have hfields := List.map_injective_iff.2 (fun _ _ => String.toList_inj.1) htexts
  simpa [sectorWrapFields] using hfields

end

variable [DecidableEq P]

/-- Opening bytes: a sealing under exactly this key, iv, ciphertext and additional data. -/
def unsealBytes (sealings : List (Sealing P)) (key : WrapKey P) (cipherB64 ivB64 : Option (Json N))
    (aad : String) : Except WrapError Bytes :=
  match rt.atob (Json.textOf ivB64), rt.atob (Json.textOf cipherB64) with
  | some iv, some ciphertext =>
    match sealings.find? fun s =>
        s.key = key ∧ s.iv = iv ∧ s.ciphertext = ciphertext ∧ s.aad = aad with
    | some s => .ok s.plain
    | none => .error .operationError
  | _, _ => .error .invalidCharacter

variable {rt} in
theorem unsealBytes_eq_ok {sealings : List (Sealing P)} {key : WrapKey P}
    {cipherB64 ivB64 : Option (Json N)} {aad : String} {plain : Bytes}
    (h : unsealBytes rt sealings key cipherB64 ivB64 aad = .ok plain) :
    ∃ s ∈ sealings, rt.atob (Json.textOf ivB64) = some s.iv ∧
      rt.atob (Json.textOf cipherB64) = some s.ciphertext ∧ s.key = key ∧ s.aad = aad ∧
      s.plain = plain := by
  rw [unsealBytes] at h
  split at h
  next iv ciphertext hiv hciphertext =>
    split at h
    next s hfind =>
      have hs := List.find?_some hfind
      obtain ⟨hkey, rfl, rfl, haad⟩ := of_decide_eq_true hs
      exact ⟨s, List.mem_of_find?_eq_some hfind, hiv, hciphertext, hkey, haad, Except.ok.inj h⟩
    next => exact nomatch h
  next => exact nomatch h

/-- Importing a raw AES key, of 128, 192 or 256 bits. -/
def importKey (rawKey : Bytes) : Except WrapError Bytes :=
  if rawKey.length ∈ [16, 24, 32] then .ok rawKey else .error .dataError

/-! ## Minting -/

def packPayload (payload : Json N) : String := rt.toB64 (rt.encodeText payload.stringify)

/-- What wrapping a key is called with, and the iv and ciphertext that its sealing gets. -/
structure WrapCall (N P : Type) where
  creatorPrivateKey : P
  memberPublicKeyJwk : String
  sectorKey : Bytes
  creatorPublicKeyJwk : Option String
  epoch : Option N
  bind : Option WrapBinding
  iv : Bytes
  ciphertext : Bytes

namespace WrapCall

/-- The creator's key that a wrap names. -/
def creatorPubJwk (c : WrapCall N P) : String :=
  c.creatorPublicKeyJwk.getD (rt.exportJwk c.creatorPrivateKey)

def boundEpoch (c : WrapCall N P) : Json N := .num (c.epoch.getD (JsNumber.ofNat 0))

/-- The additional data of a wrap: its context, where one is given. -/
def aad (c : WrapCall N P) : String :=
  match c.bind with
  | some bind =>
    sectorWrapAad rt bind.chatId c.boundEpoch (some (.str (c.creatorPubJwk rt))) bind.memberUserId
  | none => ""

/-- The stored object; an epoch without a context is stamped only where it is given. -/
def payload (c : WrapCall N P) : Json N :=
  let sealedKey := [("ciphertext", Json.str (rt.toB64 c.ciphertext)),
    ("iv", .str (rt.toB64 c.iv)),
    ("creatorEcdhPublicKeyJwk", .str (c.creatorPubJwk rt))]
  match c.bind with
  | some bind =>
    .obj ([("kind", .str "CREATOR_AUTH_WRAP"), ("v", .num (JsNumber.ofNat 3))] ++ sealedKey ++
      [("epoch", c.boundEpoch), ("chatId", .str bind.chatId),
        ("memberUserId", .str bind.memberUserId)])
  | none =>
    .obj ([("kind", .str "CREATOR_AUTH_WRAP"), ("v", .num (JsNumber.ofNat 2))] ++ sealedKey ++
      (c.epoch.map fun epoch => ("epoch", Json.num epoch)).toList)

end WrapCall

/-- Wrapping a group key for a member: the stored text, and what was sealed for it. -/
def wrapGroupKeyForMemberWithCreatorEcdh (c : WrapCall N P) :
    Except WrapError (String × Sealing P) := do
  let memberPub ← importEcdhPublicKey rt c.memberPublicKeyJwk
  let wrapKey ← deriveSharedSecret rt c.creatorPrivateKey memberPub .GROUP_WRAP
  .ok (packPayload rt (c.payload rt), ⟨wrapKey, c.iv, c.ciphertext, c.aad rt, c.sectorKey⟩)

/-! ## Opening -/

variable [DecidableEq N]

/-- The additional data that a wrap has to have been sealed with. A v3 wrap is for the
    reader's own chat and member, at the epoch and under the creator's key that it names. -/
def expectedAad (data : Json N) (bind : Option WrapBinding) : Except WrapError String :=
  if Json.isNumber (data.get? "v") 3 then
    match bind with
    | none => .error .v3RequiresBinding
    | some bind =>
      if Json.isText (data.get? "chatId") bind.chatId ∧
          Json.isText (data.get? "memberUserId") bind.memberUserId then
        .ok (sectorWrapAad rt bind.chatId
          (Json.orElse (data.get? "epoch") (.num (JsNumber.ofNat 0)))
          (data.get? "creatorEcdhPublicKeyJwk") bind.memberUserId)
      else .error .wrapContextMismatch
  else .ok ""

/-- The KDF label that a wrap's version selects. -/
def wrapCtx (data : Json N) : KdfCtx :=
  if (Json.orElse (data.get? "v") (.num (JsNumber.ofNat 1))).atLeast 2 then .GROUP_WRAP
  else .LEGACY

/-- Whether the creator's key that a wrap names is one that the caller accepts. -/
def trustsCreator (data : Json N) (expectedCreatorEcdhPublicKeyJwk : Option String) : Bool :=
  expectedCreatorEcdhPublicKeyJwk.all fun expected =>
    ecdhPublicKeysEqual rt (data.get? "creatorEcdhPublicKeyJwk") (some (.str expected))

def openAuthWrap (sealings : List (Sealing P)) (memberPrivateKey : P) (data : Json N)
    (expectedCreatorEcdhPublicKeyJwk : Option String) (bind : Option WrapBinding) :
    Except WrapError Bytes := do
  if trustsCreator rt data expectedCreatorEcdhPublicKeyJwk then
    let creatorPub ← importEcdhPublicKey rt (Json.textOf (data.get? "creatorEcdhPublicKeyJwk"))
    let wrapKey ← deriveSharedSecret rt memberPrivateKey creatorPub (wrapCtx data)
    let aad ← expectedAad rt data bind
    let rawKey ← unsealBytes rt sealings wrapKey (data.get? "ciphertext") (data.get? "iv") aad
    importKey rawKey
  else .error .creatorKeyUntrusted

/-- A wrap under an ephemeral key: bound to no creator, and so refused where one is expected. -/
def openSectorKeyUnit (sealings : List (Sealing P)) (memberPrivateKey : P) (data : Json N)
    (expectedCreatorEcdhPublicKeyJwk : Option String) : Except WrapError Bytes := do
  if expectedCreatorEcdhPublicKeyJwk.isSome then .error .unauthenticatedWrapRejected
  else if !Json.truthy (data.get? "ephemeralPublicKeyJwk") then .error .unknownSignalFormat
  else
    let ephemeralPub ← importEcdhPublicKey rt (Json.textOf (data.get? "ephemeralPublicKeyJwk"))
    let wrapKey ← deriveSharedSecret rt memberPrivateKey ephemeralPub .LEGACY
    let rawKey ← unsealBytes rt sealings wrapKey (data.get? "ciphertext") (data.get? "iv") ""
    importKey rawKey

/-- The object that a stored text holds. -/
def storedPayload (encryptedBase64 : String) : Except WrapError (Json N) :=
  match rt.atob encryptedBase64 with
  | none => .error .invalidCharacter
  | some bytes =>
    match rt.parse (rt.decodeText bytes) with
    | none => .error .syntaxError
    | some data => .ok data

def unwrapGroupKeyFromStoredPayload (sealings : List (Sealing P)) (memberPrivateKey : P)
    (encryptedBase64 : String) (expectedCreatorEcdhPublicKeyJwk : Option String)
    (bind : Option WrapBinding) : Except WrapError Bytes := do
  let data ← storedPayload rt encryptedBase64
  match data with
  | .null | .bool _ | .num _ | .str _ => .error .typeError
  | .arr _ | .obj _ =>
    if Json.isText (data.get? "kind") "CREATOR_AUTH_WRAP" then
      openAuthWrap rt sealings memberPrivateKey data expectedCreatorEcdhPublicKeyJwk bind
    else openSectorKeyUnit rt sealings memberPrivateKey data expectedCreatorEcdhPublicKeyJwk

/-! ## What opens -/

section
variable {rt}

theorem bind_eq_ok {ε α β : Type} {x : Except ε α} {f : α → Except ε β} {b : β}
    (h : (x >>= f) = .ok b) : ∃ a, x = .ok a ∧ f a = .ok b := by
  cases x with
  | error e => exact nomatch h
  | ok a => exact ⟨a, rfl, h⟩

/-- What opens under an expected creator is a sealing under the agreement of the creator's
    key and the reader's, with the additional data that the reader expects. -/
theorem unwrap_eq_ok {sealings : List (Sealing P)} {me creator : P} {text expected : String}
    {bind : Option WrapBinding} {key : Bytes} (hcreator : IsPublicKey rt expected creator)
    (h : unwrapGroupKeyFromStoredPayload rt sealings me text (some expected) bind = .ok key) :
    ∃ data, storedPayload rt text = .ok data ∧
      ecdhPublicKeysEqual rt (data.get? "creatorEcdhPublicKeyJwk") (some (.str expected)) ∧
      ∃ s ∈ sealings, rt.atob (Json.textOf (data.get? "iv")) = some s.iv ∧
        rt.atob (Json.textOf (data.get? "ciphertext")) = some s.ciphertext ∧
        s.key = ⟨s(me, creator), wrapCtx data⟩ ∧ expectedAad rt data bind = .ok s.aad ∧
        s.plain = key := by
  obtain ⟨data, hdata, h⟩ := bind_eq_ok h
  have hopen : openAuthWrap rt sealings me data (some expected) bind = .ok key := by
    cases data with
    | null | bool _ | num _ | str _ => exact nomatch h
    | arr _ | obj _ =>
      dsimp only at h
      split at h
      · exact h
      · exact nomatch h
  rw [openAuthWrap] at hopen
  split at hopen
  next htrust =>
    obtain ⟨creatorPub, himport, hopen⟩ := bind_eq_ok hopen
    obtain ⟨wrapKey, hderive, hopen⟩ := bind_eq_ok hopen
    obtain ⟨aad, haad, hopen⟩ := bind_eq_ok hopen
    obtain ⟨rawKey, hunseal, hopen⟩ := bind_eq_ok hopen
    obtain ⟨s, hs, hiv, hciphertext, hkey, rfl, rfl⟩ := unsealBytes_eq_ok hunseal
    obtain rfl := importEcdhPublicKey_eq hcreator htrust himport
    have hplain : s.plain = key := by
      rw [importKey] at hopen
      split at hopen
      · exact Except.ok.inj hopen
      · exact nomatch hopen
    exact ⟨data, hdata, htrust, s, hs, hiv, hciphertext, hkey.trans (deriveSharedSecret_eq_ok hderive),
      haad, hplain⟩
  next => exact nomatch hopen

omit [DecidableEq P] in
theorem expectedAad_of_v3 {data : Json N} {bind : WrapBinding} {aad : String}
    (hv : Json.isNumber (data.get? "v") 3) (h : expectedAad rt data (some bind) = .ok aad) :
    aad = sectorWrapAad rt bind.chatId (Json.orElse (data.get? "epoch") (.num (JsNumber.ofNat 0)))
      (data.get? "creatorEcdhPublicKeyJwk") bind.memberUserId := by
  simp only [expectedAad, if_pos hv] at h
  split at h
  · exact (Except.ok.inj h).symm
  · exact nomatch h

omit [DecidableEq P] in
theorem expectedAad_of_not_v3 {data : Json N} {bind : Option WrapBinding} {aad : String}
    (hv : ¬ Json.isNumber (data.get? "v") 3) (h : expectedAad rt data bind = .ok aad) : aad = "" := by
  simp only [expectedAad, if_neg hv] at h
  exact (Except.ok.inj h).symm

omit [DecidableEq P] [DecidableEq N] in
theorem trustsCreator_self {data : Json N} {jwk : String}
    (h : data.get? "creatorEcdhPublicKeyJwk" = some (.str jwk)) :
    trustsCreator rt data (some jwk) := by
  rw [trustsCreator, h]
  exact decide_eq_true rfl

omit [DecidableEq N] in
theorem sameSealing_self (s : Sealing P) (l : List (Sealing P)) :
    (s :: l).find? (fun s' => s'.key = s.key ∧ s'.iv = s.iv ∧ s'.ciphertext = s.ciphertext ∧
      s'.aad = s.aad) = some s :=
  List.find?_cons_of_pos (decide_eq_true ⟨rfl, rfl, rfl, rfl⟩)

/-- What opens a sealing: a stored wrap that names a trusted creator, whose iv, ciphertext,
    key and additional data are those of the sealing. -/
theorem unwrap_of_sealing {sealings : List (Sealing P)} {s : Sealing P} {me pub : P} {text : String} {expected : Option String}
    {bind : Option WrapBinding} {fields : List (String × Json N)}
    (hdata : storedPayload rt text = .ok (.obj fields))
    (hkind : Json.isText ((Json.obj fields).get? "kind") "CREATOR_AUTH_WRAP")
    (htrust : trustsCreator rt (.obj fields) expected)
    (himport : importEcdhPublicKey rt
      (Json.textOf ((Json.obj fields).get? "creatorEcdhPublicKeyJwk")) = .ok pub)
    (hcurve : rt.curve me = rt.curve pub) (hkey : s.key = ⟨s(me, pub), wrapCtx (.obj fields)⟩)
    (haad : expectedAad rt (.obj fields) bind = .ok s.aad)
    (hiv : rt.atob (Json.textOf ((Json.obj fields).get? "iv")) = some s.iv)
    (hciphertext : rt.atob (Json.textOf ((Json.obj fields).get? "ciphertext")) = some s.ciphertext)
    (hplain : s.plain.length ∈ [16, 24, 32])
    (hfind : sealings.find? (fun s' => s'.key = s.key ∧ s'.iv = s.iv ∧
      s'.ciphertext = s.ciphertext ∧ s'.aad = s.aad) = some s) :
    unwrapGroupKeyFromStoredPayload rt sealings me text expected bind = .ok s.plain := by
  have hunseal : unsealBytes rt sealings ⟨s(me, pub), wrapCtx (.obj fields)⟩
      ((Json.obj fields).get? "ciphertext") ((Json.obj fields).get? "iv") s.aad = .ok s.plain := by
    rw [unsealBytes, hiv, hciphertext, ← hkey]
    dsimp only
    rw [hfind]
  rw [unwrapGroupKeyFromStoredPayload, hdata]
  simp only [Bind.bind, Except.bind, if_pos hkind, openAuthWrap, if_pos htrust, himport,
    deriveSharedSecret, if_pos hcurve, haad, hunseal, importKey, if_pos hplain]

/-! ## Minted wraps -/

/-- A wrap that was minted: by this release, or by one before it, whose v1 wraps are sealed
    under the legacy label and without a context. -/
inductive Mint (N P : Type)
  | current (call : WrapCall N P)
  | v1 (call : WrapCall N P)

namespace Mint

def call : Mint N P → WrapCall N P
  | current call | v1 call => call

/-- The context that a wrap is bound to: v3 wraps have one. -/
def bind : Mint N P → Option WrapBinding
  | current call => call.bind
  | v1 _ => none

/-- What was sealed for a wrap, if its minting went through. -/
def sealing (rt : Runtime N P) : Mint N P → Except WrapError (Sealing P)
  | current call => do
    let (_, sealedKey) ← wrapGroupKeyForMemberWithCreatorEcdh rt call
    .ok sealedKey
  | v1 call => do
    let memberPub ← importEcdhPublicKey rt call.memberPublicKeyJwk
    let wrapKey ← deriveSharedSecret rt call.creatorPrivateKey memberPub .LEGACY
    .ok ⟨wrapKey, call.iv, call.ciphertext, "", call.sectorKey⟩

/-- A creator names its own key, and the ids of chats and members are UUIDs. -/
structure WellFormed (rt : Runtime N P) (m : Mint N P) : Prop where
  creator : IsPublicKey rt (m.call.creatorPubJwk rt) m.call.creatorPrivateKey
  ids : ∀ bind ∈ m.bind, IsUuid bind.chatId ∧ IsUuid bind.memberUserId

omit [DecidableEq P] [DecidableEq N] in
theorem sealing_eq_ok {m : Mint N P} {s : Sealing P} (h : m.sealing rt = .ok s) :
    ∃ memberPub, importEcdhPublicKey rt m.call.memberPublicKeyJwk = .ok memberPub ∧
      s.key.pair = s(m.call.creatorPrivateKey, memberPub) ∧ s.plain = m.call.sectorKey ∧
      s.aad = match m.bind with
        | some bind => sectorWrapAad rt bind.chatId m.call.boundEpoch
            (some (.str (m.call.creatorPubJwk rt))) bind.memberUserId
        | none => "" := by
  cases m with
  | current call =>
    obtain ⟨⟨_, sealedKey⟩, hwrap, h⟩ := bind_eq_ok h
    obtain ⟨memberPub, himport, hwrap⟩ := bind_eq_ok hwrap
    obtain ⟨wrapKey, hderive, hwrap⟩ := bind_eq_ok hwrap
    obtain rfl := deriveSharedSecret_eq_ok hderive
    obtain rfl := Except.ok.inj h
    obtain ⟨-, rfl⟩ := Prod.mk.inj (Except.ok.inj hwrap)
    exact ⟨memberPub, himport, rfl, rfl, rfl⟩
  | v1 call =>
    obtain ⟨memberPub, himport, h⟩ := bind_eq_ok h
    obtain ⟨wrapKey, hderive, h⟩ := bind_eq_ok h
    obtain rfl := deriveSharedSecret_eq_ok hderive
    obtain rfl := Except.ok.inj h
    exact ⟨memberPub, himport, rfl, rfl, rfl⟩

omit [DecidableEq P] [DecidableEq N] in
/-- The fields that a v3 wrap is bound to have no separator: each is a UUID, a number or the
    quoted text of a key. -/
theorem WellFormed.separator_notMem {m : Mint N P} (hm : m.WellFormed rt) {bind : WrapBinding}
    (hbind : m.bind = some bind) :
    ∀ t ∈ sectorWrapFields rt bind.chatId m.call.boundEpoch
      (some (.str (m.call.creatorPubJwk rt))) bind.memberUserId, separator ∉ t.toList := by
  obtain ⟨hchat, hmember⟩ := hm.ids bind hbind
  intro t ht
  simp only [sectorWrapFields, List.mem_cons, List.not_mem_nil, or_false] at ht
  rcases ht with rfl | rfl | rfl | rfl | rfl
  · decide
  · exact hchat.separator_notMem
  · exact fun h => absurd (JsNumber.toText_plain _ _ h).2 (by decide)
  · exact hm.creator.separator_notMem
  · exact hmember.separator_notMem

/-- What a payload that opens by a minted wrap is, under the creator that the reader at `me`
    expects: the creator's wrap for the chat, the member and the epoch, as a v3 wrap; or,
    before v3, a wrap that one of the two made for the other. -/
def OpensAs (m : Mint N P) (rt : Runtime N P) (data : Json N) (me creator : P)
    (bind : WrapBinding) : Prop :=
  match m.bind with
  | some minted => m.call.creatorPrivateKey = creator ∧
      importEcdhPublicKey rt m.call.memberPublicKeyJwk = .ok me ∧ minted = bind ∧
      Json.isNumber (data.get? "v") 3 ∧
      (Json.orElse (data.get? "epoch") (.num (JsNumber.ofNat 0))).toText = m.call.boundEpoch.toText
  | none => ¬ Json.isNumber (data.get? "v") 3 ∧
      (m.call.creatorPrivateKey = creator ∧
          importEcdhPublicKey rt m.call.memberPublicKeyJwk = .ok me ∨
        m.call.creatorPrivateKey = me ∧
          importEcdhPublicKey rt m.call.memberPublicKeyJwk = .ok creator)

end Mint

/-- What an attacker has to work with: the wraps that were minted, and what else was sealed. -/
def sealings (rt : Runtime N P) (mints : List (Mint N P)) (others : List (Sealing P)) :
    List (Sealing P) :=
  mints.filterMap (fun m => (m.sealing rt).toOption) ++ others

/-- **Where an opened key comes from.** Whatever text is served, a key that opens for a chat and
    a member, under an expected creator, was sealed in a wrap that was minted; and either that
    is the creator's own v3 wrap for this chat, this member and this epoch, opened as a v3
    wrap, or a wrap before v3 under the agreement of the two keys, opened as such. What else
    was sealed is not under that agreement, whose two keys no attacker has. -/
theorem unwrap_origin {mints : List (Mint N P)} {others : List (Sealing P)} {me creator : P}
    {text expected : String} {bind : WrapBinding} {key : Bytes}
    (hmints : ∀ m ∈ mints, m.WellFormed rt) (hcreator : IsPublicKey rt expected creator)
    (hothers : ∀ s ∈ others, s.key.pair ≠ s(me, creator))
    (h : unwrapGroupKeyFromStoredPayload rt (sealings rt mints others) me text (some expected)
      (some bind) = .ok key) :
    ∃ data, storedPayload rt text = .ok data ∧ ∃ m ∈ mints, ∃ s, m.sealing rt = .ok s ∧
      rt.atob (Json.textOf (data.get? "iv")) = some s.iv ∧
      rt.atob (Json.textOf (data.get? "ciphertext")) = some s.ciphertext ∧
      m.call.sectorKey = key ∧
      m.OpensAs rt data me creator bind := by
  obtain ⟨data, hdata, htrust, s, hs, hiv, hciphertext, hkey, haad, rfl⟩ := unwrap_eq_ok hcreator h
  rcases List.mem_append.1 hs with hminted | hother
  · obtain ⟨m, hm, hsealing⟩ := List.mem_filterMap.1 hminted
    replace hsealing : m.sealing rt = .ok s := by
      cases hresult : m.sealing rt with
      | error e => simp [hresult, Except.toOption] at hsealing
      | ok s' => simpa [hresult, Except.toOption] using hsealing
    obtain ⟨memberPub, himport, hpair, hplain, hsaad⟩ := Mint.sealing_eq_ok hsealing
    refine ⟨data, hdata, m, hm, s, hsealing, hiv, hciphertext, hplain.symm, ?_⟩
    rw [hkey] at hpair
    rw [Mint.OpensAs]
    cases hbind : m.bind with
    | some minted =>
      rw [hbind] at hsaad
      by_cases hv : Json.isNumber (data.get? "v") 3
      · obtain ⟨hchat, hepoch, hid, hmember⟩ := sectorWrapAad_inj
          ((hmints m hm).separator_notMem hbind) ((expectedAad_of_v3 hv haad).symm.trans hsaad)
        -- The creator that the wrap was minted by has the canonical key of the expected one.
        have heq : ecdhPublicKeysEqual rt (some (.str (m.call.creatorPubJwk rt)))
            (some (.str expected)) := by
          rw [ecdhPublicKeysEqual, ← hid]
          exact htrust
        have hown := importEcdhPublicKey_eq hcreator heq (hmints m hm).creator.imports
        rw [hown, Sym2.eq_swap, Sym2.congr_right] at hpair
        exact ⟨hown, hpair ▸ himport, by cases minted; cases bind; simp_all, hv, hepoch⟩
      · exact absurd (hsaad.symm.trans (expectedAad_of_not_v3 hv haad)) sectorWrapAad_ne_empty
    | none =>
      rw [hbind] at hsaad
      refine ⟨fun hv => ?_, ?_⟩
      · exact absurd ((expectedAad_of_v3 hv haad).symm.trans hsaad) sectorWrapAad_ne_empty
      · rcases Sym2.eq_iff.1 hpair with ⟨hme, hpub⟩ | ⟨hme, hpub⟩
        · exact .inr ⟨hme.symm, hpub ▸ himport⟩
        · exact .inl ⟨hpub.symm, hme ▸ himport⟩
  · exact absurd (congrArg WrapKey.pair hkey) (hothers s hother)

end

/-! ## Two members

The owner and a member of a chat, on the key pairs of the private scalars 1 and 2. The
runtime reads back what it encodes, for the texts and the byte strings that occur. -/

namespace Sample

/-- The coordinates of a point. -/
def coordinates : ℕ → String × String
  | 1 => ("axfR8uEsQkf4vOblY6RA8ncDfYEt6zOg9KE5RdiYwpY", "T-NC4v4af5uO5-tKfA-eFivOM1drMV7Oy7ZAaDe_UfU")
  | _ => ("fPJ7GI0DT36KUjgDBLUaw8CJaeJ38hs1pgtI_EdmmXg", "B3dVENuO0EApPZrGn3Qw27p9reY86YIpngS3nSJ4c9E")

def jwkData (point : ℕ) : Json ℕ :=
  .obj [("crv", .str "P-256"), ("ext", .bool true), ("key_ops", .arr []), ("kty", .str "EC"),
    ("x", .str (coordinates point).1), ("y", .str (coordinates point).2)]

def jwk (point : ℕ) : String := (jwkData point).stringify

def iv : Bytes := List.replicate 12 5

def ciphertext : Bytes := List.replicate 48 6

def key : Bytes := List.replicate 32 9

/-- The bytes of a text in ASCII. -/
def ascii (text : String) : Bytes := text.toList.map fun c => UInt8.ofNat c.toNat

def b64 (bytes : Bytes) : String := String.ofList (Base64.encode bytes)

/-- The runtime, where one payload is stored. -/
def runtime (payload : Json ℕ) : Runtime ℕ ℕ where
  parse t := [jwkData 1, jwkData 2, payload].find? fun data => data.stringify = t
  atob t := [iv, ciphertext, ascii payload.stringify].find?
    fun bytes => b64 bytes = t
  toB64 := b64
  encodeText := ascii
  decodeText bytes := if bytes = ascii payload.stringify then payload.stringify else ""
  accepts _ := true
  decodePoint curve crv kty x y :=
    [1, 2].find? fun point => curve = .p256 ∧ crv = some "P-256" ∧ kty = some "EC" ∧
      x = some (coordinates point).1 ∧ y = some (coordinates point).2
  curve _ := .p256
  exportJwk := jwk

def binding : WrapBinding :=
  ⟨"3f2504e0-4f89-41d3-9a0c-0305e82c3301", "7d444840-9dc0-11d1-b245-5ffdce74fad2"⟩

/-- The owner's wrap for the member, of the epoch 7. -/
def ownerCall : WrapCall ℕ ℕ :=
  ⟨1, jwk 2, key, some (jwk 1), some 7, some binding, iv, ciphertext⟩

def ownerPayload : Json ℕ := ownerCall.payload (runtime .null)

/-- A wrap that the member made for the owner, without a context. -/
def memberCall : WrapCall ℕ ℕ :=
  ⟨2, jwk 1, key, some (jwk 2), none, none, iv, ciphertext⟩

/-- The member's wrap, under the owner's name. -/
def reflected : Json ℕ :=
  .obj [("kind", .str "CREATOR_AUTH_WRAP"), ("v", .num 2),
    ("ciphertext", .str (b64 ciphertext)), ("iv", .str (b64 iv)),
    ("creatorEcdhPublicKeyJwk", .str (jwk 1))]

theorem atob_b64 {payload : Json ℕ} {bytes : Bytes}
    (h : bytes ∈ [iv, ciphertext, ascii payload.stringify]) :
    (runtime payload).atob (b64 bytes) = some bytes := by
  have hsome : ((runtime payload).atob (b64 bytes)).isSome := by
    rw [runtime, List.find?_isSome]
    exact ⟨bytes, h, decide_eq_true rfl⟩
  obtain ⟨found, hfound⟩ := Option.isSome_iff_exists.1 hsome
  have hb64 : b64 found = b64 bytes := by
    simp only [runtime] at hfound
    simpa using List.find?_some hfound
  rw [hfound, Base64.encode_injective (String.ofList_injective hb64)]

theorem atob_iv {payload : Json ℕ} : (runtime payload).atob (b64 iv) = some iv :=
  atob_b64 List.mem_cons_self

theorem atob_ciphertext {payload : Json ℕ} :
    (runtime payload).atob (b64 ciphertext) = some ciphertext :=
  atob_b64 (List.mem_cons_of_mem _ List.mem_cons_self)

theorem jwk_one_ne_jwk_two : jwk 1 ≠ jwk 2 := by decide +kernel

theorem parse_jwk {payload : Json ℕ} {point : ℕ} (h : point ∈ [1, 2]) :
    (runtime payload).parse (jwk point) = some (jwkData point) := by
  have hne := jwk_one_ne_jwk_two
  simp only [List.mem_cons, List.not_mem_nil, or_false] at h
  rw [runtime]
  rcases h with rfl | rfl
  · simp [jwk]
  · simp only [jwk] at hne ⊢
    simp [hne]

theorem importEcdhPublicKey_jwk {payload : Json ℕ} {point : ℕ} (h : point ∈ [1, 2]) :
    importEcdhPublicKey (runtime payload) (jwk point) = .ok point := by
  rw [importEcdhPublicKey, parse_jwk h]
  simp only [List.mem_cons, List.not_mem_nil, or_false] at h
  rcases h with rfl | rfl <;> rfl

theorem isPublicKey_jwk {payload : Json ℕ} {point : ℕ} (h : point ∈ [1, 2]) :
    IsPublicKey (runtime payload) (jwk point) point where
  fields := by
    refine ⟨jwkData point, fun key => ((jwkData point).get? key).elim "" Json.toText,
      parse_jwk h, ?_⟩
    intro key hkey
    simp only [keyFields, List.mem_cons, List.not_mem_nil, or_false] at hkey
    rcases hkey with rfl | rfl | rfl | rfl <;> rfl
  imports := importEcdhPublicKey_jwk h

theorem storedPayload_pack {payload : Json ℕ} (h : ∀ point ∈ [1, 2], jwk point ≠ payload.stringify) :
    storedPayload (runtime payload) (packPayload (runtime payload) payload) = .ok payload := by
  have hatob : (runtime payload).atob (packPayload (runtime payload) payload) =
      some (ascii payload.stringify) :=
    atob_b64 (List.mem_cons_of_mem _ (List.mem_cons_of_mem _ List.mem_cons_self))
  have hdecode : (runtime payload).decodeText (ascii payload.stringify) = payload.stringify :=
    if_pos rfl
  have hparse : (runtime payload).parse payload.stringify = some payload := by
    have h1 := h 1 (by simp)
    have h2 := h 2 (by simp)
    rw [jwk] at h1 h2
    simp [runtime, h1, h2]
  rw [storedPayload, hatob]
  dsimp only
  rw [hdecode, hparse]

theorem binding_isUuid : IsUuid binding.chatId ∧ IsUuid binding.memberUserId := by
  have hchars : ∀ id ∈ [binding.chatId, binding.memberUserId], (id.toList.all fun c =>
      decide (c = '-' ∨ c.isDigit ∨ c ∈ "abcdefABCDEF".toList)) = true := by decide +kernel
  constructor
  · exact ⟨by decide +kernel, fun c hc =>
      of_decide_eq_true (List.all_eq_true.1 (hchars _ (by simp)) c hc)⟩
  · exact ⟨by decide +kernel, fun c hc =>
      of_decide_eq_true (List.all_eq_true.1 (hchars _ (by simp)) c hc)⟩

end Sample

section
open Sample

/-- The owner's wrap opens for the member. -/
theorem unwrap_ownerCall :
    unwrapGroupKeyFromStoredPayload (runtime ownerPayload)
      (sealings (runtime ownerPayload) [.current ownerCall] []) 2
      (packPayload (runtime ownerPayload) ownerPayload) (some (jwk 1)) (some binding) =
        .ok key := by
  have hsealing : (Mint.current ownerCall).sealing (runtime ownerPayload) =
      .ok ⟨⟨s(1, 2), .GROUP_WRAP⟩, iv, ciphertext, ownerCall.aad (runtime ownerPayload), key⟩ := by
    rw [Mint.sealing, wrapGroupKeyForMemberWithCreatorEcdh, ownerCall,
      importEcdhPublicKey_jwk (by simp)]
    rfl
  have hstored : ∀ point ∈ [1, 2], jwk point ≠ ownerPayload.stringify := by decide +kernel
  rw [sealings, List.filterMap_cons_some (b := _) (by rw [hsealing]; rfl)]
  exact unwrap_of_sealing
    (s := ⟨⟨s(1, 2), .GROUP_WRAP⟩, iv, ciphertext, ownerCall.aad (runtime ownerPayload), key⟩)
    (storedPayload_pack hstored) rfl (trustsCreator_self rfl)
    (importEcdhPublicKey_jwk (by simp)) rfl (by rw [Sym2.eq_swap]; rfl) rfl
    atob_iv atob_ciphertext (by decide) (sameSealing_self _ _)

theorem unwrap_origin_ownerCall :
    ∃ data, storedPayload (runtime ownerPayload) (packPayload (runtime ownerPayload) ownerPayload) =
      .ok data ∧ ∃ m ∈ [Mint.current ownerCall], ∃ s, m.sealing (runtime ownerPayload) = .ok s ∧
        (runtime ownerPayload).atob (Json.textOf (data.get? "iv")) = some s.iv ∧
        (runtime ownerPayload).atob (Json.textOf (data.get? "ciphertext")) = some s.ciphertext ∧
        m.call.sectorKey = key ∧ m.OpensAs (runtime ownerPayload) data 2 1 binding :=
  unwrap_origin
    (fun m hm => by
      obtain rfl := List.mem_singleton.1 hm
      refine ⟨isPublicKey_jwk (by simp), fun bind hbind => ?_⟩
      obtain rfl := Option.some.inj hbind
      exact binding_isUuid)
    (isPublicKey_jwk (by simp)) (fun _ h => absurd h List.not_mem_nil) unwrap_ownerCall

/-- A wrap that the member made for the owner, under the owner's name, opens for the member
    as the owner's: there is none that the owner made. -/
theorem reflected_wrap_opens :
    (∀ m ∈ [Mint.current memberCall], m.WellFormed (runtime reflected)) ∧
      IsPublicKey (runtime reflected) (jwk 1) 1 ∧
      unwrapGroupKeyFromStoredPayload (runtime reflected)
        (sealings (runtime reflected) [.current memberCall] []) 2
        (packPayload (runtime reflected) reflected) (some (jwk 1)) (some binding) = .ok key ∧
      ∀ m ∈ [Mint.current memberCall], m.call.creatorPrivateKey ≠ 1 := by
  have hsealing : (Mint.current memberCall).sealing (runtime reflected) =
      .ok ⟨⟨s(2, 1), .GROUP_WRAP⟩, iv, ciphertext, "", key⟩ := by
    rw [Mint.sealing, wrapGroupKeyForMemberWithCreatorEcdh, memberCall,
      importEcdhPublicKey_jwk (by simp)]
    rfl
  have hstored : ∀ point ∈ [1, 2], jwk point ≠ reflected.stringify := by decide +kernel
  refine ⟨?_, isPublicKey_jwk (by simp), ?_, by simp [Mint.call, memberCall]⟩
  · intro m hm
    obtain rfl := List.mem_singleton.1 hm
    exact ⟨isPublicKey_jwk (by simp), fun bind hbind => nomatch hbind⟩
  · rw [sealings, List.filterMap_cons_some (b := _) (by rw [hsealing]; rfl)]
    exact unwrap_of_sealing (s := ⟨⟨s(2, 1), .GROUP_WRAP⟩, iv, ciphertext, "", key⟩)
      (storedPayload_pack hstored) rfl (trustsCreator_self rfl)
      (importEcdhPublicKey_jwk (by simp)) rfl rfl rfl
      atob_iv atob_ciphertext (by decide) (sameSealing_self _ _)

end

end OneToThree.SectorWrap
