import OneToThree.Lib.InsMap

/-!
# The trust registry

The pins of the verified peers, in `localStorage`: the registry with its checksum,
the flag of a corrupt registry, and the set of the peers whose key was seen to
change. The functions that pin, un-verify and probe read the registry through its
checksum (`pullRegistry`); the gate of the send path (`assertTrustOrThrow`) reads
the raw text.

A stored text is modelled by what `JSON.parse` makes of it, an empty one counting as
none, and storage is assumed to work. The digests are parameters (`Digests`).
-/

namespace OneToThree.Trust

/-- A value of the stored registry: a string, or another value, by its truthiness. -/
inductive PinValue
  | string (s : String)
  | other (truthy : Bool)
  deriving DecidableEq

def PinValue.truthy : PinValue → Bool
  | .string s => s ≠ ""
  | .other truthy => truthy

abbrev NodeRegistry := InsMap String PinValue

/-- What `JSON.parse` makes of the text of the registry. -/
inductive RegistryText
  | unparseable
  | notObject
  | object (registry : NodeRegistry)

inductive CorruptReason
  | parseError
  | checksumMismatch
  | shapeInvalid
  | unknown
  deriving DecidableEq

def CorruptReason.text : CorruptReason → String
  | .parseError => "parse_error"
  | .checksumMismatch => "checksum_mismatch"
  | .shapeInvalid => "shape_invalid"
  | .unknown => "unknown"

structure LocalStorage where
  registry : Option RegistryText
  checksum : Option String
  corrupt : Option CorruptReason
  /-- The key-change set, as `readKeyChangeSet` reads it. -/
  keyChange : List String
  /-- The migration of a legacy checksum has been recorded. -/
  migrated : Bool

/-- The digests: those of the canonical text of a registry, and the hash of the text of a
    public key, if it is one. -/
structure Digests where
  sha256Hex : NodeRegistry → String
  djb2Hex : NodeRegistry → String
  hashPublicKeyJwk : String → Option String

inductive TrustError
  | registryCorrupt
  | signalRegistryCorrupt
  | signalMismatch
  deriving DecidableEq

def TrustError.message : TrustError → String
  | .registryCorrupt => "TRUST_REGISTRY_CORRUPT"
  | .signalRegistryCorrupt => "SECURITY_SIGNAL_REGISTRY_CORRUPT :: COMPROMISED_LINK"
  | .signalMismatch => "SECURITY_SIGNAL_MISMATCH :: COMPROMISED_LINK"

def checksumPrefix : String := "sha256:"

/-- The registry with its keys sorted, whose text is the canonical one. -/
def canonicalJson (registry : NodeRegistry) : NodeRegistry := registry.sorted fun a b => a ≤ b

variable (D : Digests)

def sha256Hex (canonical : NodeRegistry) : String := checksumPrefix ++ D.sha256Hex canonical

namespace LocalStorage

variable (s : LocalStorage)

def flagCorruption (reason : CorruptReason) : LocalStorage :=
  if s.corrupt.isSome then s else { s with corrupt := some reason }

def isKeyChangeFlagged (userId : String) : Bool := s.keyChange.contains userId

def flagKeyChange (userId : String) : LocalStorage :=
  if s.keyChange.contains userId then s else { s with keyChange := s.keyChange ++ [userId] }

def clearKeyChange (userId : String) : LocalStorage :=
  { s with keyChange := s.keyChange.filter (· ≠ userId) }

def isTrustRegistryCorrupt : Option CorruptReason := s.corrupt

def commitRegistry (next : NodeRegistry) : LocalStorage :=
  let body := canonicalJson next
  { s with registry := some (.object body), checksum := some (sha256Hex D body) }

/-- The registry, if it parses and matches its checksum; else the corruption is flagged. -/
def pullRegistry : NodeRegistry × LocalStorage :=
  match s.registry with
  | none => (∅, s)
  | some .unparseable => (∅, s.flagCorruption .parseError)
  | some .notObject => (∅, s.flagCorruption .shapeInvalid)
  | some (.object registry) =>
    match s.checksum.filter (· ≠ "") with
    | none => (registry, s)
    | some chk =>
      let canonical := canonicalJson registry
      let validSha256 := chk == sha256Hex D canonical
      let validLegacy := !chk.startsWith checksumPrefix && chk == D.djb2Hex canonical
      if !validSha256 && !validLegacy then (∅, s.flagCorruption .checksumMismatch)
      else if validLegacy then (registry, { s.commitRegistry D registry with migrated := true })
      else (registry, s)

/-- Pinning the hash of a key that the user has verified. -/
def setVerifiedHash (userId signatureHash : String) : Except TrustError Unit × LocalStorage :=
  if s.isTrustRegistryCorrupt.isSome then (.error .registryCorrupt, s)
  else
    let (registry, s) := s.pullRegistry D
    (.ok (), (s.commitRegistry D (registry.set userId (.string signatureHash))).clearKeyChange
      userId)

def revokeVerifiedTrust (userId : String) : LocalStorage :=
  let (registry, s) := s.pullRegistry D
  let s :=
    if (registry.get? userId).any PinValue.truthy then s.commitRegistry D (registry.delete userId)
    else s
  s.clearKeyChange userId

end LocalStorage

structure TrustStatus where
  is_verified : Bool
  is_compromised : Bool
  verified : Bool
  revokedByKeyChange : Bool
  registryCorrupt : Bool
  deriving DecidableEq

/-- A status, under both names of its fields. -/
def TrustStatus.of (verified keyChange corrupt : Bool) : TrustStatus where
  is_verified := verified
  is_compromised := keyChange
  verified := verified
  revokedByKeyChange := keyChange
  registryCorrupt := corrupt

namespace LocalStorage

variable (s : LocalStorage)

/-- Probing a key against the pin. A mismatch deletes the pin, and is remembered in the
    key-change set. -/
def resolveTrustStatus (userId currentHash : String) : TrustStatus × LocalStorage :=
  let (registry, s) := s.pullRegistry D
  let corrupt := s.isTrustRegistryCorrupt.isSome
  let pinnedSignature := registry.get? userId
  if s.isKeyChangeFlagged userId then (.of false true corrupt, s)
  else if !pinnedSignature.any PinValue.truthy then (.of false false corrupt, s)
  else if pinnedSignature = some (.string currentHash) then (.of (!corrupt) false corrupt, s)
  else
    let s := if corrupt then s else s.commitRegistry D (registry.delete userId)
    (.of false true corrupt, s.flagKeyChange userId)

/-- The gate of the send path: it reads the registry without its checksum, and no other
    key of the storage. -/
def assertTrustOrThrow (peerUserId receivedJwk : String) : Except TrustError Unit :=
  match s.registry with
  | none => .ok ()
  | some .unparseable | some .notObject => .error .signalRegistryCorrupt
  | some (.object registry) =>
    match registry.get? peerUserId with
    | none => .ok ()
    | some pinnedSignal =>
      if !pinnedSignal.truthy then .ok ()
      else
        match pinnedSignal, D.hashPublicKeyJwk receivedJwk with
        | .other _, _ | .string _, none => .error .signalMismatch
        | .string pin, some receivedHash =>
          if pin ≠ receivedHash then .error .signalMismatch else .ok ()

end LocalStorage

/-- The calls on the storage. -/
inductive TrustCall
  | setVerifiedHash (userId signatureHash : String)
  | revokeVerifiedTrust (userId : String)
  | resolveTrustStatus (userId currentHash : String)
  | assertTrustOrThrow (peerUserId receivedJwk : String)
  deriving DecidableEq

/-- The storage after a call. -/
def LocalStorage.call (s : LocalStorage) : TrustCall → LocalStorage
  | .setVerifiedHash userId signatureHash => (s.setVerifiedHash D userId signatureHash).2
  | .revokeVerifiedTrust userId => s.revokeVerifiedTrust D userId
  | .resolveTrustStatus userId currentHash => (s.resolveTrustStatus D userId currentHash).2
  | .assertTrustOrThrow _ _ => s

/-- The storage after a sequence of calls. -/
def LocalStorage.calls (s : LocalStorage) (l : List TrustCall) : LocalStorage :=
  l.foldl (LocalStorage.call D) s

end OneToThree.Trust
