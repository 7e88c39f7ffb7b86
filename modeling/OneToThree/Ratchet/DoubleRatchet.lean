import OneToThree.Lib.InsMap
import OneToThree.Ratchet.Kdf

/-!
# The Double Ratchet

One side of a ratchet session: its state, the two initialisations, encryption,
and decryption with its DH ratchet step and its store of skipped message keys.

A function that throws leaves the state as it was mutated up to the throw, so a
call returns its outcome *and* the state (`Outcome`). The key pair that
`generateX25519KeyPair` returns inside a call is an argument of the model.
-/

namespace OneToThree.Ratchet

structure RatchetHeader where
  /-- Sender's current DH ratchet public key. -/
  dhPub : Bytes
  previousChainLength : ℕ
  /-- Message counter within the current chain. -/
  counter : ℕ
  deriving DecidableEq

structure RatchetMessage where
  header : RatchetHeader
  ciphertext : Bytes
  deriving DecidableEq

abbrev SkippedKeyBucket := InsMap ℕ Bytes

structure RatchetState where
  dhSelf : KeyPair
  dhRemote : Option Bytes
  rootKey : Bytes
  sendChain : Option Bytes
  recvChain : Option Bytes
  sendCounter : ℕ
  recvCounter : ℕ
  prevSendCounter : ℕ
  /-- The skipped message keys, by the remote DH key of their chain and by counter. -/
  skipped : InsMap String SkippedKeyBucket
  maxSkip : ℕ

/-- The errors of a call: those the ratchet throws, a public key that X25519 does not
    accept, and a tag that does not verify. -/
inductive RatchetError
  | noSendChain
  | skipLimit
  | globalSkipLimit
  | noRecvChain
  | badPublicKey
  | operationError
  deriving DecidableEq

def RatchetError.message : RatchetError → String
  | noSendChain => "RATCHET_NO_SEND_CHAIN"
  | skipLimit => "RATCHET_SKIP_LIMIT"
  | globalSkipLimit => "RATCHET_GLOBAL_SKIP_LIMIT"
  | noRecvChain => "RATCHET_NO_RECV_CHAIN"
  | badPublicKey => "invalid private or public key received"
  | operationError => "OperationError"

/-- The outcome of a call on a state: what it returns or throws, and the state it leaves. -/
abbrev Outcome (α : Type) := Except RatchetError α × RatchetState

def defaultMaxSkip : ℕ := 1000

/-- Upper bound on the skipped message keys of a session, across every bucket. -/
def globalSkipCap : ℕ := 3000

def bytesToB64 (bytes : Bytes) : String := Base64.encodeString bytes

variable (P : Primitives)

def totalSkipped (state : RatchetState) : ℕ := state.skipped.total InsMap.size

/-- The ratchet of the side that knows the remote DH public key, `fresh` being the
    pair it generates; `none` if that key is not accepted. -/
def initRatchetAsAlice (fresh : KeyPair) (sharedSecret remoteDhPublic : Bytes)
    (maxSkip : Option ℕ) : Option RatchetState :=
  (dh P fresh.privateKey remoteDhPublic).map fun dhOut =>
    let root := rootKdf P sharedSecret dhOut
    { dhSelf := fresh
      dhRemote := some remoteDhPublic
      rootKey := root.rootKey
      sendChain := some root.chainKey
      recvChain := none
      sendCounter := 0
      recvCounter := 0
      prevSendCounter := 0
      skipped := ∅
      maxSkip := maxSkip.getD defaultMaxSkip }

/-- The ratchet of the side that published `selfDh`. -/
def initRatchetAsBob (sharedSecret : Bytes) (selfDh : KeyPair) (maxSkip : Option ℕ) :
    RatchetState :=
  { dhSelf := selfDh
    dhRemote := none
    rootKey := sharedSecret
    sendChain := none
    recvChain := none
    sendCounter := 0
    recvCounter := 0
    prevSendCounter := 0
    skipped := ∅
    maxSkip := maxSkip.getD defaultMaxSkip }

/-- The four bytes of `n >>> 0`, the most significant first. -/
def uint32 (n : ℕ) : Bytes :=
  [UInt8.ofNat (n >>> 24), UInt8.ofNat (n >>> 16), UInt8.ofNat (n >>> 8), UInt8.ofNat n]

def headerAad (header : RatchetHeader) : Bytes :=
  header.dhPub ++ uint32 header.previousChainLength ++ uint32 header.counter

/-- Sealing a plaintext under a message key. -/
def sealWith (messageKey plaintext aad : Bytes) : Bytes :=
  let a := deriveMessageAead P messageKey
  P.gcmEncrypt a.aesKey a.iv aad plaintext

/-- Opening a ciphertext under a message key, if its tag verifies. -/
def openWith (messageKey ciphertext aad : Bytes) : Option Bytes :=
  let a := deriveMessageAead P messageKey
  P.gcmDecrypt a.aesKey a.iv aad ciphertext

def encryptRatchet (state : RatchetState) (plaintext associatedData : Bytes) :
    Outcome RatchetMessage :=
  match state.sendChain with
  | none => (.error .noSendChain, state)
  | some chain =>
    let step := kdfMessageKey P chain
    let header : RatchetHeader :=
      { dhPub := state.dhSelf.publicKey
        previousChainLength := state.prevSendCounter
        counter := state.sendCounter }
    let ciphertext := sealWith P step.messageKey plaintext (associatedData ++ headerAad header)
    (.ok ⟨header, ciphertext⟩,
      { state with sendChain := some step.nextChainKey, sendCounter := state.sendCounter + 1 })

/-- The DH ratchet step on a new remote key, `fresh` being the pair it rotates to. -/
def dhRatchetStep (fresh : KeyPair) (state : RatchetState) (newRemote : Bytes) : Outcome Unit :=
  let state := { state with
    prevSendCounter := state.sendCounter
    sendCounter := 0
    recvCounter := 0
    dhRemote := some newRemote }
  -- The receive direction first, with the current private key, then the send direction.
  match dh P state.dhSelf.privateKey newRemote with
  | none => (.error .badPublicKey, state)
  | some dhRecv =>
    let recv := rootKdf P state.rootKey dhRecv
    let state := { state with
      rootKey := recv.rootKey
      recvChain := some recv.chainKey
      dhSelf := fresh }
    match dh P state.dhSelf.privateKey newRemote with
    | none => (.error .badPublicKey, state)
    | some dhSend =>
      let send := rootKdf P state.rootKey dhSend
      (.ok (), { state with rootKey := send.rootKey, sendChain := some send.chainKey })

/-- The loop of `cacheSkipped`, for the `n` keys still to be derived: `chain` is the
    receive chain, `total` the running total of the skipped keys. -/
def cacheLoop (bucketKey : String) : ℕ → Bytes → ℕ → RatchetState → Outcome Unit
  | 0, _, _, state => (.ok (), state)
  | n + 1, chain, total, state =>
    let bucket := (state.skipped.get? bucketKey).getD ∅
    if state.maxSkip ≤ bucket.size then (.error .skipLimit, state)
    else if globalSkipCap ≤ total then (.error .globalSkipLimit, state)
    else
      let step := kdfMessageKey P chain
      cacheLoop bucketKey n step.nextChainKey (total + 1)
        { state with
          recvChain := some step.nextChainKey
          skipped := state.skipped.set bucketKey (bucket.set state.recvCounter step.messageKey)
          recvCounter := state.recvCounter + 1 }

def cacheSkipped (state : RatchetState) (remote : Bytes) (upTo : ℕ) : Outcome Unit :=
  match state.recvChain with
  | none => (.ok (), state)
  | some chain =>
    if upTo ≤ state.recvCounter then (.ok (), state)
    else cacheLoop P (bytesToB64 remote) (upTo - state.recvCounter) chain (totalSkipped state) state

/-- The skipped key of a header, if it is stored. -/
def RatchetState.skippedKey (state : RatchetState) (dhPub : Bytes) (counter : ℕ) : Option Bytes :=
  (state.skipped.get? (bytesToB64 dhPub)).bind fun bucket => bucket.get? counter

/-- Dropping a skipped key, and its bucket with the last one. -/
def RatchetState.dropSkipped (state : RatchetState) (dhPub : Bytes) (counter : ℕ) : RatchetState :=
  match state.skipped.get? (bytesToB64 dhPub) with
  | none => state
  | some bucket =>
    let bucket := bucket.delete counter
    { state with
      skipped :=
        if bucket.size = 0 then state.skipped.delete (bytesToB64 dhPub)
        else state.skipped.set (bytesToB64 dhPub) bucket }

def tryDecryptSkipped (state : RatchetState) (header : RatchetHeader) (ciphertext aad : Bytes) :
    Outcome (Option Bytes) :=
  match state.skippedKey header.dhPub header.counter with
  | none => (.ok none, state)
  | some mk =>
    match openWith P mk ciphertext aad with
    | none => (.error .operationError, state)
    | some pt => (.ok (some pt), state.dropSkipped header.dhPub header.counter)

/-- Turning to the chain of the header: on a new remote key, what is left of the
    current receive chain is cached, and the DH ratchet steps. -/
def turnTo (fresh : KeyPair) (state : RatchetState) (header : RatchetHeader) : Outcome Unit :=
  if state.dhRemote = some header.dhPub then (.ok (), state)
  else
    match state.dhRemote with
    | none => dhRatchetStep P fresh state header.dhPub
    | some remote =>
      match cacheSkipped P state remote header.previousChainLength with
      | (.error e, state) => (.error e, state)
      | (.ok (), state) => dhRatchetStep P fresh state header.dhPub

/-- The key of a message that is not a skipped one, taken from the receive chain. -/
def takeMessageKey (fresh : KeyPair) (state : RatchetState) (header : RatchetHeader) :
    Outcome Bytes :=
  match turnTo P fresh state header with
  | (.error e, state) => (.error e, state)
  | (.ok (), state) =>
    match cacheSkipped P state header.dhPub header.counter with
    | (.error e, state) => (.error e, state)
    | (.ok (), state) =>
      match state.recvChain with
      | none => (.error .noRecvChain, state)
      | some chain =>
        let step := kdfMessageKey P chain
        (.ok step.messageKey,
          { state with recvChain := some step.nextChainKey, recvCounter := state.recvCounter + 1 })

def decryptRatchet (fresh : KeyPair) (state : RatchetState) (message : RatchetMessage)
    (associatedData : Bytes) : Outcome Bytes :=
  let aad := associatedData ++ headerAad message.header
  match tryDecryptSkipped P state message.header message.ciphertext aad with
  | (.error e, state) => (.error e, state)
  | (.ok (some pt), state) => (.ok pt, state)
  | (.ok none, state) =>
    match takeMessageKey P fresh state message.header with
    | (.error e, state) => (.error e, state)
    | (.ok mk, state) =>
      match openWith P mk message.ciphertext aad with
      | none => (.error .operationError, state)
      | some pt => (.ok pt, state)

end OneToThree.Ratchet
