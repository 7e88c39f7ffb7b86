import OneToThree.Group.Server

/-!
# The owner's client of a group chat

Rotation, delivery and reconciliation of the group key, as programs over what they
ask for: requests to the server, the trust gate, and fresh keys.

The two in-flight sets of the source, which keep one tab from rotating a chat twice
at a time, are left out: they only forbid runs.
-/

namespace OneToThree.Group

inductive Call
  | server (r : Request)
  /-- Whether `assertTrustOrThrow` lets a roster key pass. -/
  | assertTrust (userId : UserId) (jwk : Jwk)
  | generateKey
  deriving DecidableEq

@[reducible] def Call.Answer : Call → Type
  | .server r => r.Reply
  | .assertTrust _ _ => Bool
  | .generateKey => GroupKey

abbrev Client := Program Call Call.Answer

abbrev call (q : Call) : Client q.Answer := Program.request q

/-- A client of the owner: the chat, the user and the user's ECDH key pair. -/
structure Session where
  chatId : ChatId
  myUserId : UserId
  myPrivateKey : Jwk

inductive RotationResult
  | rotated (epoch : ℕ) (members : ℕ)
  | notRotated (reason : String)
  deriving DecidableEq

def findMember (detail : ChatDetailPayload) (userId : UserId) : Option MemberPayload :=
  detail.members.find? fun m => m.user_id = userId

def shouldRotateGroupKey (detail : ChatDetailPayload) (myUserId : UserId) (currentEpoch : ℕ) :
    Bool :=
  if detail.my_role ≠ .owner then false
  else
    match findMember detail myUserId with
    | none => false
    | some me =>
      match me.encrypted_group_key with
      | none => currentEpoch > 0
      | some stored =>
        match readStoredSectorKeyEpoch stored with
        | none => true
        | some storedEpoch => storedEpoch < currentEpoch

variable (me : Session)

/-- The loop of a rotation: `settled` is the epoch it has claimed, once it has. -/
def rotateLoop (epoch : ℕ) (myPubJwk : Jwk) (newKey : GroupKey) :
    List MemberPayload → Option ℕ → ℕ → Client RotationResult
  | [], settled, delivered =>
    if delivered = 0 then return .notRotated "NO_MEMBERS_DELIVERED"
    else return .rotated (settled.getD epoch) delivered
  | m :: members, settled, delivered =>
    match m.ecdh_public_key_jwk with
    | none => rotateLoop epoch myPubJwk newKey members settled delivered
    | some jwk => do
      let trusted ← call (.assertTrust m.user_id jwk)
      if !trusted then rotateLoop epoch myPubJwk newKey members settled delivered
      else
        let wrapped := wrapGroupKeyForMemberWithCreatorEcdh me.myPrivateKey jwk newKey
          (some myPubJwk) (some (settled.getD (epoch + 1))) (some ⟨me.chatId, m.user_id⟩)
        let claim := if settled.isSome then none else some epoch
        match ← call (.server (.putWrappedKey m.user_id wrapped claim)) with
        | .ok keyEpoch =>
          rotateLoop epoch myPubJwk newKey members
            (some (settled.getD (keyEpoch.getD (epoch + 1)))) (delivered + 1)
        | .error .keyEpochStale => return .notRotated "EPOCH_CLAIMED_BY_OTHER_SESSION"
        -- Any other failure leaves the member to the next scan.
        | .error _ => rotateLoop epoch myPubJwk newKey members settled delivered

def runRotation (targetEpoch : ℕ) : Client (Except ApiError RotationResult) := do
  match ← call (.server .getChat) with
  | .error e => return .error e
  | .ok detail =>
    if detail.my_role ≠ .owner then return .ok (.notRotated "NOT_OWNER")
    else
      let epoch := detail.key_epoch.getD targetEpoch
      match (findMember detail me.myUserId).bind MemberPayload.ecdh_public_key_jwk with
      | none => return .ok (.notRotated "NO_OWNER_ECDH_IN_ROSTER")
      | some myPubJwk => do
        let newKey ← call .generateKey
        let result ← rotateLoop me epoch myPubJwk newKey detail.members none 0
        return .ok result

def rotateGroupKeyIfStale : Client (Except ApiError Bool) := do
  match ← call (.server .getChat) with
  | .error e => return .error e
  | .ok detail =>
    let epoch := detail.key_epoch.getD 0
    if !shouldRotateGroupKey detail me.myUserId epoch then return .ok false
    else
      match ← runRotation me epoch with
      | .error e => return .error e
      | .ok (.rotated _ _) => return .ok true
      | .ok (.notRotated _) => return .ok false

/-- What makes a delivery or a reconciliation throw: a failed request, the trust gate, or
    the own wrap, which does not open. -/
inductive DeliveryError
  | api (e : ApiError)
  | untrusted
  | unwrap (e : UnwrapError)
  deriving DecidableEq

def unwrapOwn (stored : SectorKeyAuthWrap) (myPubJwk : Jwk) : Except UnwrapError GroupKey :=
  unwrapGroupKeyFromStoredPayload me.myPrivateKey stored (some myPubJwk)
    (some ⟨me.chatId, me.myUserId⟩)

def deliverGroupKeyToMember (targetUserId : UserId) : Client (Except DeliveryError Unit) := do
  match ← call (.server .getChat) with
  | .error e => return .error (.api e)
  | .ok detail =>
    if detail.my_role ≠ .owner then return .ok ()
    else
      match findMember detail me.myUserId, findMember detail targetUserId with
      | some ⟨_, some myPubJwk, some myStored, _⟩, some ⟨targetId, some targetJwk, none, _⟩ => do
        let trusted ← call (.assertTrust targetId targetJwk)
        if !trusted then return .error .untrusted
        else
          let chatEpoch := detail.key_epoch.getD 0
          let myEpoch := (readStoredSectorKeyEpoch myStored).getD 0
          if myEpoch < chatEpoch then
            match ← rotateGroupKeyIfStale me with
            | .error e => return .error (.api e)
            | .ok _ => return .ok ()
          else
            match unwrapOwn me myStored myPubJwk with
            | .error e => return .error (.unwrap e)
            | .ok groupKey =>
              let wrapped := wrapGroupKeyForMemberWithCreatorEcdh me.myPrivateKey targetJwk groupKey
                (some myPubJwk) (some myEpoch) (some ⟨me.chatId, targetUserId⟩)
              match ← call (.server (.putWrappedKey targetUserId wrapped none)) with
              | .error e => return .error (.api e)
              | .ok _ => return .ok ()
      | _, _ => return .ok ()

/-- The loop of a reconciliation: the own key is unwrapped when the first member needs it. -/
def reconcileLoop (myStored : SectorKeyAuthWrap) (myPubJwk : Jwk) (myEpoch : ℕ) :
    List MemberPayload → Option GroupKey → Bool → Client (Except DeliveryError Bool)
  | [], _, delivered => return .ok delivered
  | m :: members, groupKey, delivered =>
    if m.user_id = me.myUserId then
      reconcileLoop myStored myPubJwk myEpoch members groupKey delivered
    else
      match m.ecdh_public_key_jwk with
      | none => reconcileLoop myStored myPubJwk myEpoch members groupKey delivered
      | some jwk =>
        let stored := m.encrypted_group_key.bind readStoredSectorKeyEpoch
        if stored.any (myEpoch ≤ ·) then
          reconcileLoop myStored myPubJwk myEpoch members groupKey delivered
        else do
          let trusted ← call (.assertTrust m.user_id jwk)
          if !trusted then reconcileLoop myStored myPubJwk myEpoch members groupKey delivered
          else
            match groupKey.elim (unwrapOwn me myStored myPubJwk) .ok with
            | .error e => return .error (.unwrap e)
            | .ok groupKey =>
              let wrapped := wrapGroupKeyForMemberWithCreatorEcdh me.myPrivateKey jwk groupKey
                (some myPubJwk) (some myEpoch) (some ⟨me.chatId, m.user_id⟩)
              match ← call (.server (.putWrappedKey m.user_id wrapped none)) with
              | .error e => return .error (.api e)
              | .ok _ => reconcileLoop myStored myPubJwk myEpoch members (some groupKey) true

def reconcileGroupKeysForChat : Client (Except DeliveryError Bool) := do
  match ← call (.server .getChat) with
  | .error e => return .error (.api e)
  | .ok detail =>
    if detail.my_role ≠ .owner then return .ok false
    else
      match findMember detail me.myUserId with
      | some ⟨_, some myPubJwk, some myStored, _⟩ => do
        let myEpoch := (readStoredSectorKeyEpoch myStored).getD 0
        if detail.key_epoch.getD 0 > myEpoch then
          match ← rotateGroupKeyIfStale me with
          | .error e => return .error (.api e)
          | .ok rotated => return .ok rotated
        else reconcileLoop me myStored myPubJwk myEpoch detail.members none false
      | _ => return .ok false

inductive FrameError
  | missingSectorKey
  | missingSectorOwnerSignal
  | unwrap (e : UnwrapError)
  deriving DecidableEq

def FrameError.message : FrameError → String
  | .missingSectorKey => "ERR_MISSING_SECTOR_KEY"
  | .missingSectorOwnerSignal => "ERR_MISSING_SECTOR_OWNER_SIGNAL"
  | .unwrap e => e.message

def resolveSectorOwnerEcdhJwk (members : List MemberPayload) : Except FrameError Jwk :=
  match (members.find? fun m => m.role = .owner).bind MemberPayload.ecdh_public_key_jwk with
  | none => .error .missingSectorOwnerSignal
  | some jwk => .ok jwk

/-- The current key of the frame that a member builds: the first key of its ring. -/
def buildSectorFrame (chatId : ChatId) (myUserId : UserId) (privateKey : Jwk)
    (members : List MemberPayload) : Except FrameError GroupKey :=
  match (members.find? fun m => m.user_id = myUserId).bind MemberPayload.encrypted_group_key with
  | none => .error .missingSectorKey
  | some stored =>
    match resolveSectorOwnerEcdhJwk members with
    | .error e => .error e
    | .ok ownerEcdhJwk =>
      match unwrapGroupKeyFromStoredPayload privateKey stored (some ownerEcdhJwk)
          (some ⟨chatId, myUserId⟩) with
      | .error e => .error (.unwrap e)
      | .ok currentKey => .ok currentKey

end OneToThree.Group
