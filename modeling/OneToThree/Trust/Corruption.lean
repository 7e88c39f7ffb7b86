import OneToThree.Trust.SendPath

/-!
# A corrupt registry

What the calls make of a registry that does not parse, is not an object, or is unlike its
checksum (`Corrupt`), until the corruption is acknowledged.

* `pullRegistry` reads such a registry as empty and flags it; so a probe never reports a peer
  verified, and un-verifying a peer writes nothing (`pullRegistry_corrupt`, `call_registry`).
* `setVerifiedHash` looks at the flag before it reads the registry. Unless an earlier call has
  set the flag, it pins on the empty registry, and the pins of the other peers are gone.
* The gate of the send path looks neither at the flag nor at the checksum: it lets the pinned
  key of a peer pass.

`failsClosed_iff`: these two are all that goes wrong.
-/

namespace OneToThree.Trust

variable {D : Digests}

namespace LocalStorage

/-- The registry does not parse, is not an object, or is unlike its checksum. -/
def Corrupt (D : Digests) (s : LocalStorage) : Prop :=
  match s.registry with
  | none => False
  | some .unparseable | some .notObject => True
  | some (.object registry) => ¬ ChecksumMatches D registry s.checksum

/-- The registry has a pin of the peer. One that cannot be read may have a pin of any peer. -/
def HadPin (s : LocalStorage) (userId : String) : Prop :=
  match s.registry with
  | none => False
  | some .unparseable | some .notObject => True
  | some (.object registry) => (registry.get? userId).any PinValue.truthy = true

/-- A call on the storage `s` fails closed, the corrupt registry being that of `s₀`: pinning
    throws and writes neither the registry nor its checksum, a probe does not report the peer
    verified, and the gate throws for every peer that had a pin. -/
def FailsClosed (D : Digests) (s₀ s : LocalStorage) : TrustCall → Prop
  | .setVerifiedHash userId signatureHash =>
    (s.setVerifiedHash D userId signatureHash).1 = .error .registryCorrupt ∧
      (s.setVerifiedHash D userId signatureHash).2.registry = s.registry ∧
      (s.setVerifiedHash D userId signatureHash).2.checksum = s.checksum
  | .revokeVerifiedTrust _ => True
  | .resolveTrustStatus userId currentHash =>
    (s.resolveTrustStatus D userId currentHash).1.verified = false ∧
      (s.resolveTrustStatus D userId currentHash).1.is_verified = false
  | .assertTrustOrThrow peerUserId receivedJwk =>
    s₀.HadPin peerUserId → ∃ e, s.assertTrustOrThrow D peerUserId receivedJwk = .error e

/-- The corruption has been flagged when a peer is pinned, and the gate is not passed a key
    that is the pinned one. -/
def Guarded (D : Digests) (s : LocalStorage) : TrustCall → Prop
  | .setVerifiedHash _ _ => s.isTrustRegistryCorrupt.isSome = true
  | .assertTrustOrThrow peerUserId receivedJwk => ∀ pin,
      s.pins.pin peerUserId = some (.string pin) → pin ≠ "" →
        D.hashPublicKeyJwk receivedJwk ≠ some pin
  | _ => True

/-- Each of a sequence of calls is as `p` says, on the storage it is made on. -/
def EachCall (D : Digests) (p : LocalStorage → TrustCall → Prop) :
    LocalStorage → List TrustCall → Prop
  | _, [] => True
  | s, c :: l => p s c ∧ EachCall D p (s.call D c) l

end LocalStorage

/-! ## Reading a corrupt registry -/

section
variable {s : LocalStorage}

theorem pullRegistry_corrupt (h : s.Corrupt D) :
    ∃ reason, s.pullRegistry D = (∅, s.flagCorruption reason) := by
  unfold LocalStorage.Corrupt at h
  unfold LocalStorage.pullRegistry
  match hr : s.registry with
  | none => simp [hr] at h
  | some .unparseable => exact ⟨.parseError, rfl⟩
  | some .notObject => exact ⟨.shapeInvalid, rfl⟩
  | some (.object registry) =>
    simp only [hr, ChecksumMatches] at h
    push Not at h
    obtain ⟨chk, hchk, hsha, hlegacy⟩ := h
    simp only [Option.mem_def] at hchk
    simp only [hchk]
    refine ⟨.checksumMismatch, if_pos ?_⟩
    cases hstarts : chk.startsWith checksumPrefix with
    | true => simpa using hsha
    | false => simpa [hstarts] using ⟨hsha, hlegacy hstarts⟩

theorem flagCorruption_storage (reason : CorruptReason) :
    (s.flagCorruption reason).registry = s.registry ∧
      (s.flagCorruption reason).checksum = s.checksum ∧
      (s.flagCorruption reason).corrupt.isSome = true := by
  unfold LocalStorage.flagCorruption
  split_ifs with h
  · exact ⟨rfl, rfl, h⟩
  · exact ⟨rfl, rfl, rfl⟩

/-- A probe of a corrupt registry finds no pin. -/
theorem resolveTrustStatus_corrupt (h : s.Corrupt D) (userId currentHash : String) :
    ∃ reason keyChange corrupt, s.resolveTrustStatus D userId currentHash =
      (.of false keyChange corrupt, s.flagCorruption reason) := by
  obtain ⟨reason, hpull⟩ := pullRegistry_corrupt h
  unfold LocalStorage.resolveTrustStatus
  simp only [hpull]
  split_ifs with hchange
  · exact ⟨reason, _, _, rfl⟩
  · exact ⟨reason, _, _, rfl⟩
  all_goals simp_all

/-- Pinning goes by the flag. -/
theorem setVerifiedHash_error_iff (userId signatureHash : String) :
    (s.setVerifiedHash D userId signatureHash).1 = .error .registryCorrupt ↔
      s.isTrustRegistryCorrupt.isSome = true := by
  unfold LocalStorage.setVerifiedHash
  split_ifs with hflag
  · simp [hflag]
  · simp [hflag]

/-- The gate throws for a peer that had a pin, unless the key is the pinned one. -/
theorem assertTrustOrThrow_corrupt_iff (peer jwk : String) :
    (s.HadPin peer → ∃ e, s.assertTrustOrThrow D peer jwk = .error e) ↔
      s.Guarded D (.assertTrustOrThrow peer jwk) := by
  simp only [LocalStorage.HadPin, LocalStorage.assertTrustOrThrow, LocalStorage.Guarded,
    LocalStorage.pins]
  cases hr : s.registry with
  | none => simp
  | some text =>
    cases text with
    | unparseable => simp
    | notObject => simp
    | object registry =>
      cases hpin : registry.get? peer with
      | none => simp [hpin]
      | some value =>
        cases value with
        | other truthy => cases truthy <;> simp [hpin, PinValue.truthy]
        | string pin =>
          by_cases hempty : pin = ""
          · simp [hpin, hempty, PinValue.truthy]
          · cases hhash : D.hashPublicKeyJwk jwk with
            | none => simp [hpin, hempty, PinValue.truthy]
            | some receivedHash =>
              by_cases heq : pin = receivedHash
              · simp [hpin, hempty, ← heq, PinValue.truthy]
              · simp [hpin, hempty, heq, Ne.symm heq, PinValue.truthy]

/-! ## Calls on a corrupt registry -/

/-- A guarded call leaves a corrupt registry and its checksum as they are. -/
theorem call_registry (h : s.Corrupt D) {c : TrustCall} (hc : s.Guarded D c) :
    (s.call D c).registry = s.registry ∧ (s.call D c).checksum = s.checksum := by
  cases c with
  | setVerifiedHash userId signatureHash =>
    have hflag : s.isTrustRegistryCorrupt.isSome = true := hc
    simp only [LocalStorage.call, LocalStorage.setVerifiedHash, if_pos hflag, and_self]
  | revokeVerifiedTrust userId =>
    obtain ⟨reason, hpull⟩ := pullRegistry_corrupt h
    obtain ⟨hregistry, hchecksum, -⟩ := flagCorruption_storage (s := s) reason
    simp only [LocalStorage.call, LocalStorage.revokeVerifiedTrust, hpull, InsMap.get?_empty,
      Option.any_none, Bool.false_eq_true, ↓reduceIte, LocalStorage.clearKeyChange]
    exact ⟨hregistry, hchecksum⟩
  | resolveTrustStatus userId currentHash =>
    obtain ⟨reason, _, _, hprobe⟩ := resolveTrustStatus_corrupt h userId currentHash
    obtain ⟨hregistry, hchecksum, -⟩ := flagCorruption_storage (s := s) reason
    rw [LocalStorage.call, hprobe]
    exact ⟨hregistry, hchecksum⟩
  | assertTrustOrThrow peer jwk => exact ⟨rfl, rfl⟩

theorem LocalStorage.Corrupt.congr {s' : LocalStorage} (h : s.Corrupt D) (hregistry : s'.registry = s.registry)
    (hchecksum : s'.checksum = s.checksum) : s'.Corrupt D := by
  rwa [LocalStorage.Corrupt, hregistry, hchecksum]

/-- A call on a corrupt registry fails closed exactly if it is guarded. -/
theorem failsClosed_call_iff {s₀ : LocalStorage} (h : s.Corrupt D)
    (hs : s.registry = s₀.registry) (c : TrustCall) :
    s₀.FailsClosed D s c ↔ s.Guarded D c := by
  cases c with
  | setVerifiedHash userId signatureHash =>
    rw [LocalStorage.FailsClosed, setVerifiedHash_error_iff]
    refine ⟨And.left, fun hflag => ⟨hflag, ?_⟩⟩
    exact call_registry h (c := .setVerifiedHash userId signatureHash) hflag
  | revokeVerifiedTrust userId => exact Iff.rfl
  | resolveTrustStatus userId currentHash =>
    obtain ⟨reason, _, _, hprobe⟩ := resolveTrustStatus_corrupt h userId currentHash
    rw [LocalStorage.FailsClosed, hprobe]
    exact ⟨fun _ => trivial, fun _ => ⟨rfl, rfl⟩⟩
  | assertTrustOrThrow peer jwk =>
    have hpin : s₀.HadPin peer ↔ s.HadPin peer := by
      rw [LocalStorage.HadPin, LocalStorage.HadPin, hs]
    rw [LocalStorage.FailsClosed, hpin]
    exact assertTrustOrThrow_corrupt_iff peer jwk

end

/-- The calls on a corrupt registry fail closed exactly if the corruption was flagged before
    each call that pins, and no call of the gate is passed the pinned key of its peer. -/
theorem failsClosed_iff {s : LocalStorage} (h : s.Corrupt D) (l : List TrustCall) :
    s.EachCall D (s.FailsClosed D) l ↔ s.EachCall D (LocalStorage.Guarded D) l := by
  have hcalls : ∀ s' : LocalStorage, s'.Corrupt D → s'.registry = s.registry →
      (s'.EachCall D (s.FailsClosed D) l ↔ s'.EachCall D (LocalStorage.Guarded D) l) := by
    induction l with
    | nil => exact fun _ _ _ => Iff.rfl
    | cons c l ih =>
      intro s' hs' hregistry
      rw [LocalStorage.EachCall, LocalStorage.EachCall, failsClosed_call_iff hs' hregistry]
      refine and_congr_right fun hc => ?_
      obtain ⟨hsame, hchecksum⟩ := call_registry hs' hc
      exact ih _ (hs'.congr hsame hchecksum) (hsame.trans hregistry)
  exact hcalls s h rfl

/-! ## A first pin on a corrupt registry -/

/-- A registry with the pin of a peer, unlike its checksum. -/
def corruptStorage : LocalStorage where
  registry := some (.object ((∅ : NodeRegistry).set "peer" (.string "aa")))
  checksum := some "ff"
  corrupt := none
  keyChange := []
  migrated := false

theorem corruptStorage_corrupt : corruptStorage.Corrupt sampleDigests := by
  intro h
  have := h "ff" rfl
  simp [sha256Hex, checksumPrefix, sampleDigests] at this

/-- Pinning another peer succeeds, under a new checksum, and from then on the gate lets any key
    of the first peer pass. -/
theorem setVerifiedHash_on_corrupt : corruptStorage.Corrupt sampleDigests ∧
    (corruptStorage.setVerifiedHash sampleDigests "other" "bb").1 = .ok () ∧
    (corruptStorage.setVerifiedHash sampleDigests "other" "bb").2.checksum = some "sha256:00" ∧
    (corruptStorage.call sampleDigests (.setVerifiedHash "other" "bb")).assertTrustOrThrow
      sampleDigests "peer" "cc" = .ok () ∧
    ¬ corruptStorage.EachCall sampleDigests (corruptStorage.FailsClosed sampleDigests)
      [.setVerifiedHash "other" "bb"] := by
  have hok : (corruptStorage.setVerifiedHash sampleDigests "other" "bb").1 = .ok () := by
    decide +kernel
  refine ⟨corruptStorage_corrupt, hok, by decide +kernel, by decide +kernel, fun h => ?_⟩
  have := h.1.1
  rw [hok] at this
  simp at this

/-- A probe flags the corruption: then pinning throws. -/
theorem failsClosed_iff_probed :
    corruptStorage.EachCall sampleDigests (corruptStorage.FailsClosed sampleDigests)
        [.resolveTrustStatus "peer" "aa", .setVerifiedHash "other" "bb",
          .assertTrustOrThrow "peer" "cc"] ↔
      corruptStorage.EachCall sampleDigests (LocalStorage.Guarded sampleDigests)
        [.resolveTrustStatus "peer" "aa", .setVerifiedHash "other" "bb",
          .assertTrustOrThrow "peer" "cc"] :=
  failsClosed_iff corruptStorage_corrupt _

end OneToThree.Trust
