import OneToThree.Lib.Machine
import OneToThree.Ratchet.Skipped

/-!
# Interleaved calls

The calls of `encryptRatchet` and `decryptRatchet` on one ratchet state, as they run
(`session`): a call runs up to its next `await`, is suspended there (`Call`), and other
calls start, or go on, before it does.

* `encryptRatchet` takes its message key and its counter at once, and is suspended while the
  message is sealed.
* `decryptRatchet` looks for a skipped key and is suspended, while the message is opened under
  that key, or on the way back from `tryDecryptSkipped` without one. Going on from there, it
  turns to the chain of the message and takes its key at once, and is suspended again while
  the message is opened.

A call that opens a message under a skipped key refers to the bucket of the key, which may
leave the store meanwhile (`Session.letGo`).

The state also records what the calls did: how many chain keys each derived, the message
keys and headers that the messages were sealed with, and the keys derived on the way to a send
chain and along it (`KdfOutput`). Calls that are not interrupted are those
of `decryptRatchet` (`run_decrypt`).
-/

namespace OneToThree.Ratchet

variable (P : Primitives)

/-! ## Derivations of chain keys -/

/-- How often `cacheLoop` derives a chain key. -/
def cacheLoopDerivations (bucketKey : String) : ℕ → Bytes → ℕ → RatchetState → ℕ
  | 0, _, _, _ => 0
  | n + 1, chain, total, state =>
    let bucket := (state.skipped.get? bucketKey).getD ∅
    if state.maxSkip ≤ bucket.size then 0
    else if globalSkipCap ≤ total then 0
    else
      let step := kdfMessageKey P chain
      1 + cacheLoopDerivations bucketKey n step.nextChainKey (total + 1)
        { state with
          recvChain := some step.nextChainKey
          skipped := state.skipped.set bucketKey (bucket.set state.recvCounter step.messageKey)
          recvCounter := state.recvCounter + 1 }

/-- How often `cacheSkipped` derives a chain key. -/
def cacheSkippedDerivations (state : RatchetState) (remote : Bytes) (upTo : ℕ) : ℕ :=
  match state.recvChain with
  | none => 0
  | some chain =>
    if upTo ≤ state.recvCounter then 0
    else cacheLoopDerivations P (bytesToB64 remote) (upTo - state.recvCounter) chain
      (totalSkipped state) state

/-- How often `turnTo` derives a chain key. -/
def turnToDerivations (state : RatchetState) (header : RatchetHeader) : ℕ :=
  if state.dhRemote = some header.dhPub then 0
  else
    match state.dhRemote with
    | none => 0
    | some remote => cacheSkippedDerivations P state remote header.previousChainLength

/-- How often `takeMessageKey` derives a chain key. -/
def takeMessageKeyDerivations (fresh : KeyPair) (state : RatchetState) (header : RatchetHeader) :
    ℕ :=
  turnToDerivations P state header +
    match turnTo P fresh state header with
    | (.error _, _) => 0
    | (.ok (), state) =>
      cacheSkippedDerivations P state header.dhPub header.counter +
        match cacheSkipped P state header.dhPub header.counter with
        | (.error _, _) => 0
        | (.ok (), state) => if state.recvChain = none then 0 else 1

/-! ## The keys of the sending side -/

/-- A key, by how it is derived. -/
inductive KdfOutput
  | rootKey (rootKey dhOutput : Bytes)
  | chainKey (rootKey dhOutput : Bytes)
  | messageKey (chainKey : Bytes)
  | nextChainKey (chainKey : Bytes)
  deriving DecidableEq

def KdfOutput.value : KdfOutput → Bytes
  | rootKey root dhOutput => (rootKdf P root dhOutput).rootKey
  | chainKey root dhOutput => (rootKdf P root dhOutput).chainKey
  | messageKey chain => (kdfMessageKey P chain).messageKey
  | nextChainKey chain => (kdfMessageKey P chain).nextChainKey

/-- The keys that a step of the root chain derives. -/
def rootKdfKeys (root dhOutput : Bytes) : List KdfOutput :=
  [.rootKey root dhOutput, .chainKey root dhOutput]

/-- The keys that a step of a send chain derives. -/
def kdfMessageKeys (chain : Bytes) : List KdfOutput := [.messageKey chain, .nextChainKey chain]

/-- The keys that `dhRatchetStep` derives. -/
def dhRatchetStepKeys (fresh : KeyPair) (state : RatchetState) (newRemote : Bytes) :
    List KdfOutput :=
  match dh P state.dhSelf.privateKey newRemote with
  | none => []
  | some dhRecv =>
    rootKdfKeys state.rootKey dhRecv ++
      match dh P fresh.privateKey newRemote with
      | none => []
      | some dhSend => rootKdfKeys (rootKdf P state.rootKey dhRecv).rootKey dhSend

/-- The keys that `turnTo` derives from the root key. -/
def turnToKeys (fresh : KeyPair) (state : RatchetState) (header : RatchetHeader) :
    List KdfOutput :=
  if state.dhRemote = some header.dhPub then []
  else
    match state.dhRemote with
    | none => dhRatchetStepKeys P fresh state header.dhPub
    | some remote =>
      match cacheSkipped P state remote header.previousChainLength with
      | (.error _, _) => []
      | (.ok (), state) => dhRatchetStepKeys P fresh state header.dhPub

/-! ## Calls -/

/-- Where a call is suspended. -/
inductive Stage
  /-- `encryptRatchet`, while the message is sealed. -/
  | sealing (message : RatchetMessage)
  /-- `decryptRatchet`, on the way back from `tryDecryptSkipped`, which found no key. -/
  | missed (message : RatchetMessage) (aad : Bytes)
  /-- `tryDecryptSkipped`, while the message is opened under a skipped key. The key is in the
      bucket that the store has for the message or, since that was dropped, in the one at
      this position of `Session.dropped`. -/
  | openingSkipped (message : RatchetMessage) (aad key : Bytes) (held : Option ℕ)
  /-- `decryptRatchet`, while the message is opened under the key taken from its chain. -/
  | opening (message : RatchetMessage) (aad key : Bytes)

/-- A suspended call, and how many chain keys it derived so far. -/
structure Call where
  stage : Stage
  derived : ℕ

inductive Result
  | encrypted (result : Except RatchetError RatchetMessage)
  | decrypted (result : Except RatchetError Bytes)

/-- A call that is done, and how many chain keys it derived. -/
structure Return where
  result : Result
  derived : ℕ

/-- The key and the header that a call of `encryptRatchet` seals with. -/
structure Sealed where
  messageKey : Bytes
  header : RatchetHeader

structure Session where
  ratchet : RatchetState
  calls : List Call
  /-- The buckets that are no longer in the store, though calls may refer to them. -/
  dropped : List SkippedKeyBucket
  returned : List Return
  /-- What the messages were sealed with so far. -/
  sent : List Sealed
  /-- The keys derived so far, on the way to a send chain and along it. -/
  keys : List KdfOutput
  /-- The public keys generated so far. -/
  generated : List Bytes

inductive SessionEvent
  | encrypt (plaintext associatedData : Bytes)
  | decrypt (message : RatchetMessage) (associatedData : Bytes)
  /-- The suspended call at this position goes on, `fresh` being the key pair that it
      generates if it has to. -/
  | resume (i : ℕ) (fresh : KeyPair)
  /-- WebCrypto fails the suspended call at this position. -/
  | fail (i : ℕ)

/-- The bucket of the store at this key is dropped, as the one at position `i`. -/
def Call.letGo (bucketKey : String) (i : ℕ) (call : Call) : Call :=
  match call.stage with
  | .openingSkipped message aad key none =>
    if bytesToB64 message.header.dhPub = bucketKey then
      { call with stage := .openingSkipped message aad key (some i) }
    else call
  | _ => call

/-- The bucket that the store had at this key is no longer there. The calls that refer to
    it still do. -/
def Session.letGo (s : Session) (bucketKey : String) (bucket : SkippedKeyBucket) : Session :=
  { s with
    calls := s.calls.map (Call.letGo bucketKey s.dropped.length)
    dropped := s.dropped ++ [bucket] }

/-- What `tryDecryptSkipped` does once the message is open: it drops the key from its bucket,
    and the bucket that the store has, by then, for the message, if its own became empty. -/
def Session.dropKey (s : Session) (header : RatchetHeader) (held : Option ℕ) : Session :=
  let bucketKey := bytesToB64 header.dhPub
  match held with
  | none =>
    let bucket := ((s.ratchet.skipped.get? bucketKey).getD ∅).delete header.counter
    let s := { s with ratchet := s.ratchet.dropSkipped header.dhPub header.counter }
    if bucket.size = 0 then s.letGo bucketKey bucket else s
  | some i =>
    let bucket := (s.dropped[i]?.getD ∅).delete header.counter
    let s := { s with dropped := s.dropped.set i bucket }
    if bucket.size = 0 then
      match s.ratchet.skipped.get? bucketKey with
      | none => s
      | some other =>
        let ratchet := { s.ratchet with skipped := s.ratchet.skipped.delete bucketKey }
        { s with ratchet }.letGo bucketKey other
    else s

/-- A call is done. -/
def Session.done (s : Session) (result : Result) (derived : ℕ) : Session :=
  { s with returned := s.returned ++ [⟨result, derived⟩] }

instance KeyPair.decidableProper (k : KeyPair) : Decidable (k.Proper P) :=
  inferInstanceAs (Decidable (k.publicKey = P.getPublicKey k.privateKey))

/-- The message key that `encryptRatchet` takes from the send chain. -/
def RatchetState.sendingKey (state : RatchetState) : Bytes :=
  (kdfMessageKey P (state.sendChain.getD [])).messageKey

/-- `encryptRatchet`, up to its `await`. -/
def Session.encrypt (s : Session) (plaintext associatedData : Bytes) : Session :=
  match encryptRatchet P s.ratchet plaintext associatedData with
  | (.error e, ratchet) => { s with ratchet }.done (.encrypted (.error e)) 0
  | (.ok message, ratchet) => { s with
      ratchet
      calls := s.calls ++ [⟨.sealing message, 1⟩]
      sent := s.sent ++ [⟨s.ratchet.sendingKey P, message.header⟩]
      keys := s.keys ++ kdfMessageKeys (s.ratchet.sendChain.getD []) }

/-- `decryptRatchet`, up to its first `await`. -/
def Session.decrypt (s : Session) (message : RatchetMessage) (associatedData : Bytes) : Session :=
  let aad := associatedData ++ headerAad message.header
  let stage :=
    match s.ratchet.skippedKey message.header.dhPub message.header.counter with
    | none => .missed message aad
    | some key => .openingSkipped message aad key none
  { s with calls := s.calls ++ [⟨stage, 0⟩] }

/-- `decryptRatchet`, from its first `await` to the second, when there was no skipped key. -/
def Session.take (s : Session) (message : RatchetMessage) (aad : Bytes) (derived : ℕ)
    (fresh : KeyPair) : Session :=
  let derived := derived + takeMessageKeyDerivations P fresh s.ratchet message.header
  let s' := { s with
    ratchet := (takeMessageKey P fresh s.ratchet message.header).2
    keys := s.keys ++ turnToKeys P fresh s.ratchet message.header
    generated := fresh.publicKey :: s.generated }
  match (takeMessageKey P fresh s.ratchet message.header).1 with
  | .error e => s'.done (.decrypted (.error e)) derived
  | .ok key => { s' with calls := s.calls ++ [⟨.opening message aad key, derived⟩] }

/-- A call, taken off the suspended ones, goes on. -/
def Session.goOn (s : Session) (call : Call) (fresh : KeyPair) : Option Session :=
  match call.stage with
  | .sealing message => some (s.done (.encrypted (.ok message)) call.derived)
  | .missed message aad =>
    if fresh.Proper P then some (s.take P message aad call.derived fresh) else none
  | .openingSkipped message aad key held =>
    match openWith P key message.ciphertext aad with
    | none => some (s.done (.decrypted (.error .operationError)) call.derived)
    | some pt => some ((s.dropKey message.header held).done (.decrypted (.ok pt)) call.derived)
  | .opening message aad key =>
    match openWith P key message.ciphertext aad with
    | none => some (s.done (.decrypted (.error .operationError)) call.derived)
    | some pt => some (s.done (.decrypted (.ok pt)) call.derived)

/-- A call, taken off the suspended ones, throws what WebCrypto does. -/
def Session.failed (s : Session) (call : Call) : Option Session :=
  match call.stage with
  | .sealing _ => some (s.done (.encrypted (.error .operationError)) call.derived)
  | .missed _ _ => none
  | _ => some (s.done (.decrypted (.error .operationError)) call.derived)

/-- No call yet. -/
def Session.start (state : RatchetState) (keys : List KdfOutput) : Session :=
  ⟨state, [], [], [], [], keys, [state.dhSelf.publicKey]⟩

/-- What `initRatchetAsAlice` starts. -/
def Session.Alice (secret : Bytes) (maxSkip : Option ℕ) (s : Session) : Prop :=
  ∃ fresh remoteDhPublic dhOut state, fresh.Proper P ∧
    dh P fresh.privateKey remoteDhPublic = some dhOut ∧
    initRatchetAsAlice P fresh secret remoteDhPublic maxSkip = some state ∧
    s = .start state (rootKdfKeys secret dhOut)

/-- What `initRatchetAsBob` starts. -/
def Session.Bob (secret : Bytes) (maxSkip : Option ℕ) (s : Session) : Prop :=
  ∃ selfDh, selfDh.Proper P ∧ s = .start (initRatchetAsBob secret selfDh maxSkip) []

/-- The calls on one ratchet state, in any order. -/
def session (secret : Bytes) (maxSkip : Option ℕ) : Machine Session SessionEvent where
  init s := s.Alice P secret maxSkip ∨ s.Bob P secret maxSkip
  step s
    | .encrypt plaintext associatedData => some (s.encrypt P plaintext associatedData)
    | .decrypt message associatedData => some (s.decrypt message associatedData)
    | .resume i fresh =>
      s.calls[i]?.bind fun call => { s with calls := s.calls.eraseIdx i }.goOn P call fresh
    | .fail i => s.calls[i]?.bind fun call => { s with calls := s.calls.eraseIdx i }.failed call

section
variable {P : Primitives} {secret : Bytes} {maxSkip : Option ℕ}

/-! ## What `encryptRatchet` does up to its `await` -/

theorem Session.encrypt_of_none {s : Session} (h : s.ratchet.sendChain = none)
    (plaintext associatedData : Bytes) :
    s.encrypt P plaintext associatedData = s.done (.encrypted (.error .noSendChain)) 0 := by
  simp only [Session.encrypt, encryptRatchet, h]

theorem Session.encrypt_of_some {s : Session} {chain : Bytes} (h : s.ratchet.sendChain = some chain)
    (plaintext associatedData : Bytes) : ∃ message : RatchetMessage,
    message.header = ⟨s.ratchet.dhSelf.publicKey, s.ratchet.prevSendCounter,
      s.ratchet.sendCounter⟩ ∧
    s.encrypt P plaintext associatedData = { s with
      ratchet := { s.ratchet with
        sendChain := some (kdfMessageKey P chain).nextChainKey
        sendCounter := s.ratchet.sendCounter + 1 }
      calls := s.calls ++ [⟨.sealing message, 1⟩]
      sent := s.sent ++ [⟨(kdfMessageKey P chain).messageKey, message.header⟩]
      keys := s.keys ++ kdfMessageKeys chain } := by
  simp only [Session.encrypt, encryptRatchet, h, RatchetState.sendingKey, Option.getD_some]
  exact ⟨_, rfl, rfl⟩

/-! ## Calls that are not interrupted -/

@[simp] theorem Session.getLast?_done (s : Session) (result : Result) (derived : ℕ) :
    (s.done result derived).returned.getLast? = some ⟨result, derived⟩ :=
  List.getLast?_concat

theorem step_resume_last (s : Session) (call : Call) (fresh : KeyPair) :
    (session P secret maxSkip).step { s with calls := s.calls ++ [call] }
      (.resume s.calls.length fresh) = s.goOn P call fresh := by
  simp only [session, List.getElem?_concat_length, Option.bind_some, List.eraseIdx_append_of_length_le
    (Nat.le_refl _), Nat.sub_self, List.eraseIdx_cons_zero, List.append_nil]

@[simp] theorem Session.dropKey_none_ratchet (s : Session) (header : RatchetHeader) :
    (s.dropKey header none).ratchet = s.ratchet.dropSkipped header.dhPub header.counter := by
  unfold Session.dropKey
  dsimp only
  split_ifs <;> rfl

/-- A call of `decryptRatchet` that is not interrupted leaves the ratchet state, and
    returns or throws, as `decryptRatchet` does. -/
theorem run_decrypt (s : Session) {fresh : KeyPair} (hfresh : fresh.Proper P)
    (message : RatchetMessage) (associatedData : Bytes) :
    ∃ events s', (session P secret maxSkip).run s (.decrypt message associatedData :: events) =
        some s' ∧
      s'.ratchet = (decryptRatchet P fresh s.ratchet message associatedData).2 ∧
      ∃ derived, s'.returned.getLast? = some
        ⟨.decrypted (decryptRatchet P fresh s.ratchet message associatedData).1, derived⟩ := by
  have hresume := @step_resume_last P secret maxSkip
  cases hkey : s.ratchet.skippedKey message.header.dhPub message.header.counter with
  | some key =>
    have hstart : (session P secret maxSkip).step s (.decrypt message associatedData) =
        some { s with calls := s.calls ++
          [⟨.openingSkipped message (associatedData ++ headerAad message.header) key none, 0⟩] } := by
      simp only [session, Session.decrypt, hkey]
    refine ⟨[.resume s.calls.length fresh], ?_⟩
    simp only [Machine.run, hstart, Option.bind_some, hresume, Session.goOn, decryptRatchet,
      tryDecryptSkipped, hkey]
    cases openWith P key message.ciphertext (associatedData ++ headerAad message.header) with
    | none => exact ⟨_, rfl, rfl, _, Session.getLast?_done ..⟩
    | some pt => exact ⟨_, rfl, Session.dropKey_none_ratchet .., _, Session.getLast?_done ..⟩
  | none =>
    have hstart : (session P secret maxSkip).step s (.decrypt message associatedData) =
        some { s with calls := s.calls ++
          [⟨.missed message (associatedData ++ headerAad message.header), 0⟩] } := by
      simp only [session, Session.decrypt, hkey]
    cases htake : takeMessageKey P fresh s.ratchet message.header with
    | mk res state =>
      cases res with
      | error e =>
        refine ⟨[.resume s.calls.length fresh], ?_⟩
        simp only [Machine.run, hstart, Option.bind_some, hresume, Session.goOn, if_pos hfresh,
          Session.take, decryptRatchet, tryDecryptSkipped, hkey, htake]
        exact ⟨_, rfl, rfl, _, Session.getLast?_done ..⟩
      | ok key =>
        -- The call is suspended once more, behind the same calls.
        refine ⟨[.resume s.calls.length fresh, .resume s.calls.length fresh], ?_⟩
        have htaken : s.goOn P
            ⟨.missed message (associatedData ++ headerAad message.header), 0⟩ fresh =
            some { s with
              ratchet := state
              keys := s.keys ++ turnToKeys P fresh s.ratchet message.header
              generated := fresh.publicKey :: s.generated
              calls := s.calls ++ [⟨.opening message (associatedData ++ headerAad message.header)
                key, 0 + takeMessageKeyDerivations P fresh s.ratchet message.header⟩] } := by
          simp only [Session.goOn, if_pos hfresh, Session.take, htake]
        have hopen := hresume
          { s with
            ratchet := state
            keys := s.keys ++ turnToKeys P fresh s.ratchet message.header
            generated := fresh.publicKey :: s.generated }
          ⟨.opening message (associatedData ++ headerAad message.header) key,
            0 + takeMessageKeyDerivations P fresh s.ratchet message.header⟩ fresh
        simp only [Machine.run, hstart, Option.bind_some, hresume, htaken]
        dsimp only at hopen
        simp only [hopen, Session.goOn, decryptRatchet, tryDecryptSkipped, hkey, htake]
        cases openWith P key message.ciphertext (associatedData ++ headerAad message.header) with
        | none => exact ⟨_, rfl, rfl, _, Session.getLast?_done ..⟩
        | some pt => exact ⟨_, rfl, rfl, _, Session.getLast?_done ..⟩

end

end OneToThree.Ratchet
