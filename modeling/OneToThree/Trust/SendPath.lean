import Mathlib.Logic.Function.Basic
import OneToThree.Trust.TrustStore

/-!
# The pins and the send path

On a registry that is not corrupt, the calls act on what the pins say (`Pins`): the
pin of every peer and the peers whose key was seen to change. `pins_call` is the
refinement, call by call; the storage stays sound (`Sound`).

The gate of the send path reads the pins only, while a probe that sees another key
deletes the pin and records the change where the gate does not look. Hence the gate
refuses the other keys of a pinned peer exactly as long as no probe has seen one
(`assertTrustOrThrow_error_iff`).
-/

namespace OneToThree.Trust

variable {D : Digests}

/-! ## Sound storage -/

/-- The checksum is absent, or that of the registry, in the current form or in the legacy
    one. -/
def ChecksumMatches (D : Digests) (registry : NodeRegistry) (checksum : Option String) : Prop :=
  ∀ chk ∈ checksum.filter (· ≠ ""), chk = sha256Hex D (canonicalJson registry) ∨
    (chk.startsWith checksumPrefix = false ∧ chk = D.djb2Hex (canonicalJson registry))

/-- The registry is not corrupt: neither flagged, nor unparseable, nor unlike its checksum. -/
def LocalStorage.Sound (D : Digests) (s : LocalStorage) : Prop :=
  s.corrupt = none ∧
    match s.registry with
    | none => True
    | some .unparseable | some .notObject => False
    | some (.object registry) => ChecksumMatches D registry s.checksum

/-- The pins of a registry that is not corrupt, and the peers whose key was seen to change. -/
structure Pins where
  pin : String → Option PinValue
  changed : String → Bool

/-- The pins that a storage holds. -/
def LocalStorage.pins (s : LocalStorage) : Pins where
  pin userId :=
    match s.registry with
    | some (.object registry) => registry.get? userId
    | _ => none
  changed userId := s.isKeyChangeFlagged userId

namespace Pins

@[ext] theorem ext {m m' : Pins} (hpin : m.pin = m'.pin) (hchanged : m.changed = m'.changed) :
    m = m' := by
  cases m; cases m'; simp_all

/-- The peer is pinned. -/
def pinned (m : Pins) (userId : String) : Bool := (m.pin userId).any PinValue.truthy

/-- What a call does to the pins. -/
def call (m : Pins) : TrustCall → Pins
  | .setVerifiedHash userId signatureHash =>
    ⟨Function.update m.pin userId (some (.string signatureHash)),
      Function.update m.changed userId false⟩
  | .revokeVerifiedTrust userId =>
    ⟨if m.pinned userId then Function.update m.pin userId none else m.pin,
      Function.update m.changed userId false⟩
  | .resolveTrustStatus userId currentHash =>
    if m.changed userId ∨ m.pinned userId = false ∨
        m.pin userId = some (.string currentHash) then m
    else ⟨Function.update m.pin userId none, Function.update m.changed userId true⟩
  | .assertTrustOrThrow _ _ => m

end Pins

/-! ## The calls on the pins -/

section
variable {s : LocalStorage}

theorem canonicalJson_canonicalJson (registry : NodeRegistry) :
    canonicalJson (canonicalJson registry) = canonicalJson registry := by
  refine InsMap.sorted_sorted (fun a b c => ?_) (fun a b => ?_) registry
  · simpa using fun h h' => String.le_trans h h'
  · simpa using String.le_total a b

theorem commitRegistry_sound (hs : s.corrupt = none) (registry : NodeRegistry) :
    (s.commitRegistry D registry).Sound D := by
  refine ⟨hs, fun chk hchk => .inl ?_⟩
  have hchk' := (Option.mem_filter_iff.1 hchk).1
  rw [canonicalJson_canonicalJson]
  exact (Option.some.inj hchk').symm

theorem commitRegistry_pins (registry : NodeRegistry) :
    (s.commitRegistry D registry).pins = ⟨registry.get?, s.pins.changed⟩ := by
  simp [LocalStorage.pins, LocalStorage.commitRegistry, canonicalJson,
    LocalStorage.isKeyChangeFlagged]

/-- Pulling a sound registry reads its pins, and changes neither them nor its soundness. -/
theorem pullRegistry_sound (hs : s.Sound D) :
    (s.pullRegistry D).1.get? = s.pins.pin ∧ (s.pullRegistry D).2.Sound D ∧
      (s.pullRegistry D).2.pins = s.pins := by
  obtain ⟨hcorrupt, hreg⟩ := hs
  unfold LocalStorage.pullRegistry
  match hr : s.registry with
  | none => exact ⟨by simp [LocalStorage.pins, hr]; rfl, ⟨hcorrupt, by rw [hr]; trivial⟩, rfl⟩
  | some .unparseable | some .notObject => rw [hr] at hreg; exact hreg.elim
  | some (.object registry) =>
    rw [hr] at hreg
    have hpin : registry.get? = s.pins.pin := by simp [LocalStorage.pins, hr]
    have hsound : s.Sound D := ⟨hcorrupt, by rw [hr]; exact hreg⟩
    dsimp only
    cases hchk : s.checksum.filter (· ≠ "") with
    | none => exact ⟨hpin, hsound, rfl⟩
    | some chk =>
      dsimp only
      split_ifs with hbad hlegacy
      · -- A sound checksum is not a bad one.
        exfalso
        have := hreg chk hchk
        simp only [Bool.and_eq_true, Bool.not_eq_true', beq_eq_false_iff_ne, ne_eq,
          Bool.and_eq_false_imp] at hbad
        rcases this with h | ⟨h, h'⟩
        · exact hbad.1 h
        · exact absurd (hbad.2 h) (by simpa using h')
      · refine ⟨hpin, commitRegistry_sound hcorrupt registry, ?_⟩
        show (s.commitRegistry D registry).pins = s.pins
        rw [commitRegistry_pins, hpin]
      · exact ⟨hpin, hsound, rfl⟩

theorem clearKeyChange_pins (userId : String) :
    (s.clearKeyChange userId).pins = ⟨s.pins.pin, Function.update s.pins.changed userId false⟩ := by
  refine Pins.ext rfl (funext fun p => ?_)
  by_cases h : p = userId
  · simp [LocalStorage.pins, LocalStorage.clearKeyChange, LocalStorage.isKeyChangeFlagged, h]
  · simp [LocalStorage.pins, LocalStorage.clearKeyChange, LocalStorage.isKeyChangeFlagged, h]

theorem flagKeyChange_pins (userId : String) :
    (s.flagKeyChange userId).pins = ⟨s.pins.pin, Function.update s.pins.changed userId true⟩ := by
  unfold LocalStorage.flagKeyChange
  split_ifs with hmem
  · refine Pins.ext rfl (funext fun p => ?_)
    by_cases h : p = userId
    · rw [h]
      simpa [LocalStorage.pins, LocalStorage.isKeyChangeFlagged] using hmem
    · simp [h]
  · refine Pins.ext rfl (funext fun p => ?_)
    by_cases h : p = userId <;>
      simp [LocalStorage.pins, LocalStorage.isKeyChangeFlagged, h]

theorem flagKeyChange_sound (hs : s.Sound D) (userId : String) :
    (s.flagKeyChange userId).Sound D := by
  unfold LocalStorage.flagKeyChange
  split_ifs <;> exact hs

/-- A call on a sound storage is that call on its pins, and keeps it sound. -/
theorem pins_call (hs : s.Sound D) (c : TrustCall) :
    (s.call D c).Sound D ∧ (s.call D c).pins = s.pins.call c := by
  obtain ⟨hget, hsound, hpins⟩ := pullRegistry_sound hs
  have hpinned : ∀ p, (s.pins.pin p).any PinValue.truthy = s.pins.pinned p := fun _ => rfl
  cases c with
  | setVerifiedHash userId hash =>
    simp only [LocalStorage.call, LocalStorage.setVerifiedHash, LocalStorage.isTrustRegistryCorrupt,
      hs.1, Option.isSome_none, Bool.false_eq_true, ↓reduceIte]
    refine ⟨commitRegistry_sound hsound.1 _, ?_⟩
    rw [clearKeyChange_pins, commitRegistry_pins, hpins]
    refine Pins.ext (funext fun p => ?_) rfl
    dsimp only [Pins.call]
    rw [InsMap.get?_set, hget, Function.update_apply]
  | revokeVerifiedTrust userId =>
    simp only [LocalStorage.call, LocalStorage.revokeVerifiedTrust, hget, hpinned, Pins.call]
    split_ifs with h
    · refine ⟨commitRegistry_sound hsound.1 _, ?_⟩
      rw [clearKeyChange_pins, commitRegistry_pins, hpins]
      refine Pins.ext (funext fun p => ?_) rfl
      dsimp only
      rw [InsMap.get?_delete, hget, Function.update_apply]
    · exact ⟨hsound, by rw [clearKeyChange_pins, hpins]⟩
  | resolveTrustStatus userId hash =>
    have hchanged : (s.pullRegistry D).2.isKeyChangeFlagged userId = s.pins.changed userId :=
      congrFun (congrArg Pins.changed hpins) userId
    simp only [LocalStorage.call, LocalStorage.resolveTrustStatus,
      LocalStorage.isTrustRegistryCorrupt, hsound.1, Option.isSome_none, Bool.false_eq_true,
      ↓reduceIte, hchanged, hpinned, hget, Pins.call]
    by_cases h₁ : s.pins.changed userId = true
    · simp only [h₁, true_or, ↓reduceIte]
      exact ⟨hsound, hpins⟩
    by_cases h₂ : s.pins.pinned userId = false
    · simp only [h₁, h₂, Bool.not_false, true_or, or_true, ↓reduceIte, Bool.false_eq_true]
      exact ⟨hsound, hpins⟩
    by_cases h₃ : s.pins.pin userId = some (.string hash)
    · simp only [h₃, or_true, ↓reduceIte]
      split_ifs <;> exact ⟨hsound, hpins⟩
    · rw [Bool.not_eq_false] at h₂
      simp only [h₁, h₂, h₃, or_self, Bool.not_true, Bool.true_eq_false, Bool.false_eq_true,
        ↓reduceIte]
      refine ⟨flagKeyChange_sound (commitRegistry_sound hsound.1 _) _, ?_⟩
      rw [flagKeyChange_pins, commitRegistry_pins, hpins]
      refine Pins.ext (funext fun p => ?_) rfl
      dsimp only
      rw [InsMap.get?_delete, hget, Function.update_apply]
  | assertTrustOrThrow peer jwk => exact ⟨hs, rfl⟩

/-- A sequence of calls on a sound storage is that sequence on its pins. -/
theorem pins_calls (hs : s.Sound D) (l : List TrustCall) :
    (s.calls D l).Sound D ∧ (s.calls D l).pins = l.foldl Pins.call s.pins := by
  induction l generalizing s with
  | nil => exact ⟨hs, rfl⟩
  | cons c l ih =>
    obtain ⟨hsound, hpins⟩ := pins_call hs c
    rw [List.foldl_cons, ← hpins]
    exact ih hsound

/-- On a sound storage the gate throws exactly for a pinned peer presenting another key. -/
theorem assertTrustOrThrow_error_iff_pins (hs : s.Sound D) {peer jwk : String} :
    (∃ e, s.assertTrustOrThrow D peer jwk = .error e) ↔
      s.pins.pinned peer ∧
        ∀ h, s.pins.pin peer = some (.string h) → D.hashPublicKeyJwk jwk ≠ some h := by
  obtain ⟨-, hreg⟩ := hs
  unfold LocalStorage.assertTrustOrThrow
  match hr : s.registry with
  | none => simp [LocalStorage.pins, Pins.pinned, hr]
  | some .unparseable | some .notObject => rw [hr] at hreg; exact hreg.elim
  | some (.object registry) =>
    simp only [LocalStorage.pins, Pins.pinned, hr]
    cases registry.get? peer with
    | none => simp
    | some pin =>
      by_cases ht : pin.truthy = true
      · cases pin with
        | other => simp [ht]
        | string pin =>
          cases hk : D.hashPublicKeyJwk jwk with
          | none => simp [ht]
          | some hash => by_cases hp : pin = hash <;> simp [ht, hp, Ne.symm]
      · simp [ht]

end

/-! ## A broken pin -/

/-- The call pins the peer again, or un-verifies it. -/
def TrustCall.Repins (peer : String) : TrustCall → Prop
  | .setVerifiedHash userId _ | .revokeVerifiedTrust userId => userId = peer
  | _ => False

namespace Pins

variable {m : Pins} {peer : String}

/-- A peer that is not pinned stays so, unless it is pinned again. -/
theorem pinned_call_eq_false {c : TrustCall} (hc : ¬ c.Repins peer) (h : m.pinned peer = false) :
    (m.call c).pinned peer = false := by
  cases c with
  | setVerifiedHash userId hash =>
    have hne : peer ≠ userId := fun h => hc h.symm
    rw [call, pinned]
    dsimp only
    rw [Function.update_of_ne hne]
    exact h
  | revokeVerifiedTrust userId =>
    have hne : peer ≠ userId := fun h => hc h.symm
    rw [call, pinned]
    split_ifs
    · dsimp only
      rw [Function.update_of_ne hne]
      exact h
    · exact h
  | resolveTrustStatus userId hash =>
    rw [call]
    split_ifs
    · exact h
    · by_cases hp : peer = userId
      · simp [pinned, hp]
      · rw [pinned]
        dsimp only
        rw [Function.update_of_ne hp]
        exact h
  | assertTrustOrThrow => exact h

theorem pinned_calls_eq_false {l : List TrustCall} (hl : ∀ c ∈ l, ¬ c.Repins peer)
    (h : m.pinned peer = false) : (l.foldl call m).pinned peer = false := by
  induction l generalizing m with
  | nil => exact h
  | cons c l ih =>
    exact ih (fun c' hc' => hl c' (List.mem_cons_of_mem _ hc'))
      (pinned_call_eq_false (hl c List.mem_cons_self) h)

variable {h : String}

/-- A pin survives the calls about other peers, and the probes of its own key. -/
theorem pin_call {c : TrustCall} (hc : ¬ c.Repins peer)
    (hprobe : ∀ h', c = .resolveTrustStatus peer h' → h' = h)
    (hpin : m.pin peer = some (.string h)) (hchanged : m.changed peer = false) :
    (m.call c).pin peer = some (.string h) ∧ (m.call c).changed peer = false := by
  cases c with
  | setVerifiedHash userId hash =>
    have hne : peer ≠ userId := fun h => hc h.symm
    simp [call, hne, hpin, hchanged]
  | revokeVerifiedTrust userId =>
    have hne : peer ≠ userId := fun h => hc h.symm
    rw [call]
    split_ifs <;> simp [hne, hpin, hchanged]
  | resolveTrustStatus userId hash =>
    rw [call]
    split_ifs with hkeep
    · exact ⟨hpin, hchanged⟩
    · have hne : peer ≠ userId := by
        rintro rfl
        exact hkeep (.inr (.inr (by rw [hpin, hprobe hash rfl])))
      simp [hne, hpin, hchanged]
  | assertTrustOrThrow => exact ⟨hpin, hchanged⟩

/-- A probe that sees another key deletes the pin. -/
theorem pinned_call_probe {h' : String} (hne : h' ≠ h) (hpin : m.pin peer = some (.string h))
    (hchanged : m.changed peer = false) :
    (m.call (.resolveTrustStatus peer h')).pinned peer = false := by
  have hother : some (PinValue.string h) ≠ some (.string h') := by simpa using hne.symm
  by_cases hempty : m.pinned peer = false
  · exact pinned_call_eq_false id hempty
  · rw [call, if_neg (by simp [hchanged, hempty, hpin, hother])]
    simp [pinned]

/-- A pin survives a sequence of calls in which every probe of its peer sees its key. -/
theorem pin_calls {l : List TrustCall} (hl : ∀ c ∈ l, ¬ c.Repins peer)
    (hprobe : ∀ h', .resolveTrustStatus peer h' ∈ l → h' = h)
    (hpin : m.pin peer = some (.string h)) (hchanged : m.changed peer = false) :
    (l.foldl call m).pin peer = some (.string h) := by
  induction l generalizing m with
  | nil => exact hpin
  | cons c l ih =>
    obtain ⟨hpin, hchanged⟩ := pin_call (hl c List.mem_cons_self)
      (fun h' hc => hprobe h' (hc ▸ List.mem_cons_self)) hpin hchanged
    exact ih (fun c' hc' => hl c' (List.mem_cons_of_mem _ hc'))
      (fun h' hh' => hprobe h' (List.mem_cons_of_mem _ hh')) hpin hchanged

/-- It does not survive a sequence in which some probe sees another key. -/
theorem pinned_calls_probe {l : List TrustCall} (hl : ∀ c ∈ l, ¬ c.Repins peer) {h' : String}
    (hne : h' ≠ h) (hmem : .resolveTrustStatus peer h' ∈ l)
    (hpin : m.pin peer = some (.string h)) (hchanged : m.changed peer = false) :
    (l.foldl call m).pinned peer = false := by
  induction l generalizing m with
  | nil => exact absurd hmem List.not_mem_nil
  | cons c l ih =>
    have hl' : ∀ c' ∈ l, ¬ c'.Repins peer := fun c' hc' => hl c' (List.mem_cons_of_mem _ hc')
    by_cases hc : ∃ g, g ≠ h ∧ c = .resolveTrustStatus peer g
    · -- The first probe that sees another key is this one.
      obtain ⟨g, hg, rfl⟩ := hc
      rw [List.foldl_cons]
      exact pinned_calls_eq_false hl' (pinned_call_probe hg hpin hchanged)
    · have hkeep : ∀ g, c = .resolveTrustStatus peer g → g = h := fun g hg =>
        Classical.byContradiction fun h => hc ⟨g, h, hg⟩
      have hmem' := (List.mem_cons.1 hmem).resolve_left fun heq => hne (hkeep h' heq.symm)
      obtain ⟨hpin, hchanged⟩ := pin_call (hl c List.mem_cons_self) hkeep hpin hchanged
      exact ih hl' hmem' hpin hchanged

end Pins

/-- After any calls on a sound storage, `peer` is pinned to `h`; then come calls that
    neither pin it again nor un-verify it. The gate refuses a key of another hash if and
    only if no probe among these saw another hash (and `h` is a digest, not empty). -/
theorem assertTrustOrThrow_error_iff {s : LocalStorage} (hs : s.Sound D)
    (before after : List TrustCall) (peer h jwk : String) (hafter : ∀ c ∈ after, ¬ c.Repins peer)
    (hjwk : D.hashPublicKeyJwk jwk ≠ some h) :
    (∃ e, (s.calls D (before ++ .setVerifiedHash peer h :: after)).assertTrustOrThrow D peer jwk =
        .error e) ↔
      h ≠ "" ∧ ∀ h', .resolveTrustStatus peer h' ∈ after → h' = h := by
  obtain ⟨hsound, hpins⟩ := pins_calls hs (before ++ .setVerifiedHash peer h :: after)
  rw [assertTrustOrThrow_error_iff_pins hsound, hpins, List.foldl_append, List.foldl_cons]
  generalize (before.foldl Pins.call s.pins) = m
  set m' := m.call (.setVerifiedHash peer h) with hm'
  have hpin : m'.pin peer = some (.string h) := by simp [hm', Pins.call]
  have hchanged : m'.changed peer = false := by simp [hm', Pins.call]
  by_cases hprobe : ∀ h', .resolveTrustStatus peer h' ∈ after → h' = h
  · have hkept := Pins.pin_calls hafter hprobe hpin hchanged
    rw [Pins.pinned, hkept]
    refine ⟨fun ⟨hne, _⟩ => ⟨by simpa [PinValue.truthy] using hne, hprobe⟩, fun ⟨hne, _⟩ =>
      ⟨by simpa [PinValue.truthy] using hne, fun h' hh' => ?_⟩⟩
    obtain rfl : h = h' := by simpa using hh'
    exact hjwk
  · refine iff_of_false (fun ⟨hpinned, _⟩ => ?_) (fun ⟨_, hall⟩ => hprobe hall)
    push Not at hprobe
    obtain ⟨h', hmem, hne⟩ := hprobe
    rw [Pins.pinned_calls_probe hafter hne hmem hpin hchanged] at hpinned
    exact absurd hpinned (by simp)

/-- Digests for examples: a key hashes to its text. -/
def sampleDigests : Digests where
  sha256Hex _ := "00"
  djb2Hex _ := "00"
  hashPublicKeyJwk jwk := some jwk

def emptyStorage : LocalStorage := ⟨none, none, none, [], false⟩

theorem emptyStorage_sound : emptyStorage.Sound sampleDigests := ⟨rfl, trivial⟩

theorem assertTrustOrThrow_error_iff_sample :
    (∃ e, (emptyStorage.calls sampleDigests
        ([] ++ .setVerifiedHash "peer" "aa" :: [.resolveTrustStatus "peer" "aa"])).assertTrustOrThrow
          sampleDigests "peer" "bb" = .error e) ↔
      "aa" ≠ "" ∧ ∀ h', .resolveTrustStatus "peer" h' ∈
        [TrustCall.resolveTrustStatus "peer" "aa"] → h' = "aa" :=
  assertTrustOrThrow_error_iff emptyStorage_sound [] [.resolveTrustStatus "peer" "aa"] "peer" "aa"
    "bb" (by simp [TrustCall.Repins]) (by simp [sampleDigests])

/-- The order of the sidebar: the peer is pinned, a probe sees a substituted key, and the
    gate lets that key pass. -/
theorem assertTrustOrThrow_after_probe :
    (emptyStorage.calls sampleDigests [.setVerifiedHash "peer" "aa",
        .resolveTrustStatus "peer" "bb"]).assertTrustOrThrow sampleDigests "peer" "bb" = .ok () ∧
      sampleDigests.hashPublicKeyJwk "bb" ≠ some "aa" := by
  decide +kernel

end OneToThree.Trust
