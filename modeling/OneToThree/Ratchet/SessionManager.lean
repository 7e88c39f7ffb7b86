import OneToThree.Ratchet.Delivery

/-!
# Decrypting with the stored sessions

The session manager keeps the ratchets of a device, one session for each pair of devices, and
`decryptFromPeer` is the caller of `decryptRatchet`: it loads the session of the sender, has a
copy of its ratchet decrypt the message, or else copies of the ratchets archived from earlier
handshakes, and saves the session with the ratchet that did.

* `decryptRatchet` throws with the ratchet as far as it came: the key of a message it does not
  open is spent (`replay_spends_key`).
* `decryptFromPeer` throws before it saves: a call that fails may be left out of any run of
  calls (`failed_decryption_harmless`).

The calls on one pair of devices run one after the other, under the lock of the pair. The texts
that bytes are stored in are the bytes. Envelopes carry no handshake.
-/

namespace OneToThree.Ratchet

/-! ## Sessions -/

structure SerializedSkippedBucket where
  remote : String
  keys : List (ℕ × Bytes)
  deriving DecidableEq

structure SerializedRatchetState where
  dhSelf : KeyPair
  dhRemote : Option Bytes
  rootKey : Bytes
  sendChain : Option Bytes
  recvChain : Option Bytes
  sendCounter : ℕ
  recvCounter : ℕ
  prevSendCounter : ℕ
  skipped : List SerializedSkippedBucket
  maxSkip : ℕ
  deriving DecidableEq

def serializeRatchet (state : RatchetState) : SerializedRatchetState where
  dhSelf := state.dhSelf
  dhRemote := state.dhRemote
  rootKey := state.rootKey
  sendChain := state.sendChain
  recvChain := state.recvChain
  sendCounter := state.sendCounter
  recvCounter := state.recvCounter
  prevSendCounter := state.prevSendCounter
  skipped := state.skipped.entries.map fun (remote, bucket) => ⟨remote, bucket.entries⟩
  maxSkip := state.maxSkip

/-- The bytes of a text that may be missing: an empty one counts as missing. -/
def loadBytes (text : Option Bytes) : Option Bytes := text.filter fun bytes => bytes ≠ []

/-- The bucket of the stored keys. -/
def loadBucket (keys : List (ℕ × Bytes)) : SkippedKeyBucket :=
  keys.foldl (fun bucket k => bucket.set k.1 k.2) ∅

/-- The buckets of a stored ratchet, the empty ones dropped. -/
def loadSkipped (buckets : List SerializedSkippedBucket) : InsMap String SkippedKeyBucket :=
  buckets.foldl (fun skipped b =>
    if b.keys = [] then skipped else skipped.set b.remote (loadBucket b.keys)) ∅

def deserializeRatchet (s : SerializedRatchetState) : RatchetState where
  dhSelf := s.dhSelf
  dhRemote := loadBytes s.dhRemote
  rootKey := s.rootKey
  sendChain := loadBytes s.sendChain
  recvChain := loadBytes s.recvChain
  sendCounter := s.sendCounter
  recvCounter := s.recvCounter
  prevSendCounter := s.prevSendCounter
  skipped := loadSkipped s.skipped
  maxSkip := s.maxSkip

structure SerializedInitPayload where
  initiatorIdentityExchange : String
  initiatorIdentitySigning : String
  initiatorEphemeralPublic : String
  signedPrekeyId : ℕ
  oneTimePrekeyId : Option ℕ
  deriving DecidableEq

structure SerializedSession where
  ratchet : SerializedRatchetState
  pendingInit : Option SerializedInitPayload
  pendingInitSends : Option ℕ
  pendingInitAcked : Bool
  /-- The ratchets of superseded handshakes, the newest first. -/
  archivedRatchets : Option (List SerializedRatchetState)
  deriving DecidableEq

/-- What a session is stored under. -/
structure SessionId where
  ownerId : String
  ownDeviceId : String
  peerId : String
  peerDeviceId : String
  deriving DecidableEq

abbrev SessionStore := InsMap SessionId SerializedSession

/-! ## Decrypting -/

structure DrDeviceEnvelope where
  /-- The device of the sender. -/
  sd : String
  /-- What `decodeHeader` makes of the header, if it does not throw. -/
  h : Option RatchetHeader
  /-- The bytes of the ciphertext, if its text is one of bytes. -/
  c : Option Bytes

inductive DecryptError
  | identityNotReady
  | noSenderDevice
  | noSession
  | malformed
  | ratchet (e : RatchetError)
  | vaultNotUnlocked
  deriving DecidableEq

/-- The text of the error; of a malformed envelope it is the one of the decoder. -/
def DecryptError.message : DecryptError → Option String
  | identityNotReady => some "RATCHET_IDENTITY_NOT_READY"
  | noSenderDevice => some "RATCHET_NO_SENDER_DEVICE"
  | noSession => some "RATCHET_NO_SESSION"
  | malformed => none
  | ratchet e => some e.message
  | vaultNotUnlocked => some "RATCHET_VAULT_NOT_UNLOCKED"

/-- A call of `decryptFromPeer`, with what it finds of the device. -/
structure DecryptCall where
  /-- The id of this device, once its identity is installed. -/
  ownDeviceId : Option String
  ownerId : String
  peerId : String
  envelope : DrDeviceEnvelope
  /-- The key pairs generated for the ratchets that are tried, the current one first. -/
  fresh : ℕ → KeyPair
  /-- The wrap key of the sessions is there as the session is loaded, and as it is saved. -/
  wrapKeyAtLoad : Bool
  wrapKeyAtSave : Bool

variable (P : Primitives)

/-- Trying the archived ratchets in their order, the first of them with the `i`th key pair:
    the plaintext, and the archive with the ratchet that decrypted the message advanced. -/
def tryArchived (fresh : ℕ → KeyPair) (message : RatchetMessage) :
    ℕ → List SerializedRatchetState → Option (Bytes × List SerializedRatchetState)
  | _, [] => none
  | i, s :: archived =>
    match decryptRatchet P (fresh i) (deserializeRatchet s) message [] with
    | (.ok pt, old) => some (pt, serializeRatchet old :: archived)
    | (.error _, _) => (tryArchived fresh message (i + 1) archived).map fun r => (r.1, s :: r.2)

/-- A session that decrypts a message: with its ratchet, or with an archived one. -/
def SerializedSession.decrypt (fresh : ℕ → KeyPair) (session : SerializedSession)
    (message : RatchetMessage) : Except RatchetError (Bytes × SerializedSession) :=
  match decryptRatchet P (fresh 0) (deserializeRatchet session.ratchet) message [] with
  | (.ok pt, ratchet) => .ok (pt, { session with ratchet := serializeRatchet ratchet })
  | (.error e, _) =>
    match tryArchived P fresh message 1 (session.archivedRatchets.getD []) with
    | none => .error e
    | some (pt, archived) => .ok (pt, { session with archivedRatchets := some archived })

/-- The first message that a session decrypts shows that the peer has it. -/
def SerializedSession.acknowledge (session : SerializedSession) : SerializedSession :=
  if session.pendingInit.isSome && !session.pendingInitAcked then
    { session with pendingInitAcked := true, pendingInit := none, pendingInitSends := none }
  else session

/-- Where the session of a call is stored. -/
def DecryptCall.sessionId (call : DecryptCall) : SessionId where
  ownerId := call.ownerId
  ownDeviceId := call.ownDeviceId.getD ""
  peerId := call.peerId
  peerDeviceId := call.envelope.sd

/-- `loadSession`, which finds nothing without the wrap key. -/
def loadSession (store : SessionStore) (call : DecryptCall) : Option SerializedSession :=
  if call.wrapKeyAtLoad then store.get? call.sessionId else none

/-- `decryptFromPeer`: what it returns or throws, and the sessions it leaves. -/
def decryptFromPeer (call : DecryptCall) (store : SessionStore) :
    Except DecryptError Bytes × SessionStore :=
  if call.ownDeviceId.getD "" = "" then (.error .identityNotReady, store)
  else if call.envelope.sd = "" then (.error .noSenderDevice, store)
  else
    match loadSession store call with
    | none => (.error .noSession, store)
    | some session =>
      match call.envelope.h, call.envelope.c with
      | some header, some ciphertext =>
        match session.decrypt P call.fresh ⟨header, ciphertext⟩ with
        | .error e => (.error (.ratchet e), store)
        | .ok (pt, session) =>
          -- `saveSession` comes last, and refuses to store chain keys in the clear.
          if call.wrapKeyAtSave then (.ok pt, store.set call.sessionId session.acknowledge)
          else (.error .vaultNotUnlocked, store)
      | _, _ => (.error .malformed, store)

variable {P : Primitives} {call : DecryptCall} {store : SessionStore}

end OneToThree.Ratchet
