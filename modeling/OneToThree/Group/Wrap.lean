import Mathlib.Data.Nat.Notation
import Mathlib.Logic.Basic

/-!
# Wrapped group keys

The group key of a chat reaches a member as a wrap: sealed under the ECDH agreement
of its creator and of the member, with the context it was minted for as additional
data, next to the same context in the clear. A creation-time wrap (version 2)
precedes the chat and binds no context; the others (version 3) do.

AES-GCM and ECDH are ideal: a sealed key records the agreement and the additional
data it was sealed under, and opens under exactly those. ECDH public keys are taken up
to `canonicalEcdhKeyId`, so that `ecdhPublicKeysEqual` is equality.
-/

namespace OneToThree.Group

abbrev UserId := ℕ
abbrev ChatId := ℕ

/-- An ECDH public key; it also names the key pair that it belongs to. -/
abbrev Jwk := ℕ

/-- An AES-256 group key. -/
abbrev GroupKey := ℕ

structure SectorWrapAad where
  chatId : ChatId
  epoch : ℕ
  creatorEcdhPublicKeyJwk : Jwk
  memberUserId : UserId
  deriving DecidableEq

/-- A group key sealed under the agreement of two ECDH keys, with additional data. -/
structure SealedKey where
  creator : Jwk
  member : Jwk
  aad : Option SectorWrapAad
  rawKey : GroupKey
  deriving DecidableEq

inductive WrapVersion
  | v2
  | v3
  deriving DecidableEq

structure SectorKeyAuthWrap where
  v : WrapVersion
  ciphertext : SealedKey
  creatorEcdhPublicKeyJwk : Jwk
  chatId : Option ChatId
  memberUserId : Option UserId
  epoch : Option ℕ
  deriving DecidableEq

/-- The chat and the member that a wrap is for. -/
structure WrapBinding where
  chatId : ChatId
  memberUserId : UserId
  deriving DecidableEq

inductive UnwrapError
  | creatorKeyUntrusted
  | v3RequiresBinding
  | wrapContextMismatch
  | operationError
  deriving DecidableEq

def UnwrapError.message : UnwrapError → String
  | .creatorKeyUntrusted => "SECTOR_CREATOR_KEY_UNTRUSTED :: COMPROMISED_LINK"
  | .v3RequiresBinding => "SECTOR_V3_REQUIRES_BINDING"
  | .wrapContextMismatch => "SECTOR_WRAP_CONTEXT_MISMATCH :: COMPROMISED_LINK"
  | .operationError => "OperationError"

def sealBytes (creator member : Jwk) (rawKey : GroupKey) (aad : Option SectorWrapAad) : SealedKey :=
  ⟨creator, member, aad, rawKey⟩

def unsealBytes (creator member : Jwk) (sealedKey : SealedKey) (aad : Option SectorWrapAad) :
    Except UnwrapError GroupKey :=
  if sealedKey.creator = creator ∧ sealedKey.member = member ∧ sealedKey.aad = aad then
    .ok sealedKey.rawKey
  else .error .operationError

/-- Wrapping a group key for a member, under the creator's key pair. -/
def wrapGroupKeyForMemberWithCreatorEcdh (creatorPrivateKey memberPublicKeyJwk : Jwk)
    (sectorKey : GroupKey) (creatorPublicKeyJwk : Option Jwk) (epoch : Option ℕ)
    (bind : Option WrapBinding) : SectorKeyAuthWrap :=
  let creatorPubJwk := creatorPublicKeyJwk.getD creatorPrivateKey
  match bind with
  | some bind =>
    let boundEpoch := epoch.getD 0
    let aad : SectorWrapAad := ⟨bind.chatId, boundEpoch, creatorPubJwk, bind.memberUserId⟩
    { v := .v3
      ciphertext := sealBytes creatorPrivateKey memberPublicKeyJwk sectorKey (some aad)
      creatorEcdhPublicKeyJwk := creatorPubJwk
      chatId := some bind.chatId
      memberUserId := some bind.memberUserId
      epoch := some boundEpoch }
  | none =>
    { v := .v2
      ciphertext := sealBytes creatorPrivateKey memberPublicKeyJwk sectorKey none
      creatorEcdhPublicKeyJwk := creatorPubJwk
      chatId := none
      memberUserId := none
      epoch }

/-- The epoch that a stored wrap is stamped with; `none` stands for a text that does not
    parse, which no client stores. -/
def readStoredSectorKeyEpoch (stored : SectorKeyAuthWrap) : Option ℕ := some (stored.epoch.getD 0)

def unwrapGroupKeyFromStoredPayload (memberPrivateKey : Jwk) (data : SectorKeyAuthWrap)
    (expectedCreatorEcdhPublicKeyJwk : Option Jwk) (bind : Option WrapBinding) :
    Except UnwrapError GroupKey :=
  if expectedCreatorEcdhPublicKeyJwk.any (data.creatorEcdhPublicKeyJwk ≠ ·) then
    .error .creatorKeyUntrusted
  else
    match data.v, bind with
    | .v2, _ => unsealBytes data.creatorEcdhPublicKeyJwk memberPrivateKey data.ciphertext none
    | .v3, none => .error .v3RequiresBinding
    | .v3, some bind =>
      if data.chatId ≠ some bind.chatId ∨ data.memberUserId ≠ some bind.memberUserId then
        .error .wrapContextMismatch
      else
        -- The additional data is what the reader expects, except for the epoch and the creator.
        unsealBytes data.creatorEcdhPublicKeyJwk memberPrivateKey data.ciphertext
          (some ⟨bind.chatId, data.epoch.getD 0, data.creatorEcdhPublicKeyJwk, bind.memberUserId⟩)

/-! ## What a wrap says -/

namespace SectorKeyAuthWrap

/-- The epoch stamped on a wrap. -/
def stamp (wrap : SectorKeyAuthWrap) : ℕ := wrap.epoch.getD 0

/-- The group key in a wrap. -/
def key (wrap : SectorKeyAuthWrap) : GroupKey := wrap.ciphertext.rawKey

/-- The wrap opens for the holder of `member`, as a key for this member and chat, and
    bound to the creator it names. -/
structure SealedFor (wrap : SectorKeyAuthWrap) (member : Jwk) (binding : WrapBinding) : Prop where
  creator : wrap.ciphertext.creator = wrap.creatorEcdhPublicKeyJwk
  member : wrap.ciphertext.member = member
  context : match wrap.v with
    | .v2 => wrap.ciphertext.aad = none
    | .v3 => wrap.chatId = some binding.chatId ∧ wrap.memberUserId = some binding.memberUserId ∧
        wrap.ciphertext.aad = some ⟨binding.chatId, wrap.stamp, wrap.creatorEcdhPublicKeyJwk,
          binding.memberUserId⟩

end SectorKeyAuthWrap

@[simp] theorem readStoredSectorKeyEpoch_eq (wrap : SectorKeyAuthWrap) :
    readStoredSectorKeyEpoch wrap = some wrap.stamp := rfl

/-- A wrap for a member opens for it, bound to a creator, if that creator minted it. -/
theorem unwrap_eq_ok {wrap : SectorKeyAuthWrap} {member : Jwk} {binding : WrapBinding}
    (h : wrap.SealedFor member binding) :
    unwrapGroupKeyFromStoredPayload member wrap (some wrap.creatorEcdhPublicKeyJwk)
      (some binding) = .ok wrap.key := by
  obtain ⟨hcreator, hmember, hcontext⟩ := h
  unfold unwrapGroupKeyFromStoredPayload
  cases hv : wrap.v with
  | v2 =>
    rw [hv] at hcontext
    simp [unsealBytes, hcreator, hmember, hcontext, SectorKeyAuthWrap.key]
  | v3 =>
    rw [hv] at hcontext
    obtain ⟨hchat, huser, haad⟩ := hcontext
    simp [unsealBytes, hcreator, hmember, hchat, huser, haad, SectorKeyAuthWrap.key,
      SectorKeyAuthWrap.stamp]

/-- Bound to another creator it does not open. -/
theorem unwrap_eq_error {wrap : SectorKeyAuthWrap} {member expected : Jwk} {binding : WrapBinding}
    (h : wrap.creatorEcdhPublicKeyJwk ≠ expected) :
    unwrapGroupKeyFromStoredPayload member wrap (some expected) (some binding) =
      .error .creatorKeyUntrusted := by
  simp [unwrapGroupKeyFromStoredPayload, h]

section
variable (creator member : Jwk) (sectorKey : GroupKey) (epoch : ℕ) (binding : WrapBinding)

/-- The wrap that a rotation or a delivery makes. -/
def boundWrap : SectorKeyAuthWrap :=
  wrapGroupKeyForMemberWithCreatorEcdh creator member sectorKey (some creator) (some epoch)
    (some binding)

@[simp] theorem boundWrap_creator :
    (boundWrap creator member sectorKey epoch binding).creatorEcdhPublicKeyJwk = creator := rfl

theorem boundWrap_sealedFor :
    (boundWrap creator member sectorKey epoch binding).SealedFor member binding :=
  ⟨rfl, rfl, rfl, rfl, rfl⟩

end

end OneToThree.Group
