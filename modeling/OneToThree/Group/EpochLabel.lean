import OneToThree.Group.SectorFrame

/-!
# The epoch that a stored wrap is labelled with

What a wrap is stale against is its label: the epoch that `readStoredSectorKeyEpoch` reads
from the stored text without opening it. Opening takes the same member of the same object
into the additional data.

The two read it differently. Opening converts it to a text, and the other takes a finite
number, and 0 for anything else; so the text `"7"` opens a wrap that was sealed at the
epoch 7, and labels it 0 (`relabelled_wrap_opens`). Of a v3 wrap that opens, the label is the
epoch that was sealed exactly where the member is a finite number, or converts to the text
of 0 (`readStoredSectorKeyEpoch_eq_iff`).
-/

namespace OneToThree.SectorWrap

variable {N P : Type} [JsNumber N]

/-- What `typeof data.epoch === 'number' && Number.isFinite(data.epoch)` admits. -/
def namesEpoch (data : Json N) : Bool :=
  match data.get? "epoch" with
  | some (.num n) => JsNumber.isFinite n
  | _ => false

/-- The text that the label has in the additional data. -/
def epochText (data : Json N) : String :=
  (Json.orElse (data.get? "epoch") (.num (JsNumber.ofNat 0))).toText

/-- The label is a finite number, or converts to the text of the default. -/
def PlainEpoch (data : Json N) : Prop :=
  namesEpoch data ∨ epochText data = JsNumber.toText (JsNumber.ofNat 0 : N)

section
variable {rt : Runtime N P} {data : Json N} {text : String}

/-- A label that is a finite number is what both readers read. -/
theorem epochText_of_namesEpoch (h : namesEpoch data) :
    epochText data = JsNumber.toText (stampedEpoch data) := by
  rw [namesEpoch] at h
  split at h
  next n hepoch =>
    rw [epochText, stampedEpoch, hepoch]
    exact congrArg JsNumber.toText (if_pos h).symm
  · cases h

/-- Any other label reads as the default. -/
theorem stampedEpoch_of_not_namesEpoch (h : ¬ namesEpoch data) :
    stampedEpoch data = JsNumber.ofNat 0 := by
  rw [stampedEpoch]
  split
  next n hepoch =>
    rw [namesEpoch, hepoch] at h
    exact if_neg h
  · rfl

theorem readStoredSectorKeyEpoch_of_storedPayload (hdata : storedPayload rt text = .ok data)
    (hnull : data ≠ .null) : readStoredSectorKeyEpoch rt text = some (stampedEpoch data) := by
  rw [readStoredSectorKeyEpoch, hdata]
  cases data with
  | null => exact absurd rfl hnull
  | bool _ | num _ | str _ | arr _ | obj _ => rfl

/-- The label is the number whose text it has, exactly where the two readers agree on it. -/
theorem readStoredSectorKeyEpoch_eq_some_iff
    (htext : Function.Injective (JsNumber.toText : N → String))
    (hdata : storedPayload rt text = .ok data) (hnull : data ≠ .null) {epoch : N}
    (hepoch : epochText data = JsNumber.toText epoch) :
    readStoredSectorKeyEpoch rt text = some epoch ↔ PlainEpoch data := by
  rw [readStoredSectorKeyEpoch_of_storedPayload hdata hnull, Option.some.injEq, PlainEpoch, hepoch]
  by_cases hnames : namesEpoch data
  · have hstamp := htext ((epochText_of_namesEpoch hnames).symm.trans hepoch)
    exact ⟨fun _ => .inl hnames, fun _ => hstamp⟩
  · rw [stampedEpoch_of_not_namesEpoch hnames]
    constructor
    · rintro rfl
      exact .inr rfl
    · rintro (h | h)
      · exact absurd h hnames
      · exact (htext h).symm

end

/-! ## What opens -/

variable [DecidableEq N]

/-- The payload is read as a v3 wrap. -/
def IsV3Wrap (data : Json N) : Prop :=
  Json.isText (data.get? "kind") "CREATOR_AUTH_WRAP" ∧ Json.isNumber (data.get? "v") 3

section
variable {rt : Runtime N P} {data : Json N} {text : String}

omit [DecidableEq N] in
/-- A wrap that was sealed with the additional data of a payload is of the payload's context,
    and of the epoch whose text the payload has. -/
theorem Mint.epochText_eq {m : Mint N P} {s : Sealing P} {bind : WrapBinding}
    (hm : m.WellFormed rt) (hsealing : m.sealing rt = .ok s)
    (haad : s.aad = sectorWrapAad rt bind.chatId
      (Json.orElse (data.get? "epoch") (.num (JsNumber.ofNat 0)))
      (data.get? "creatorEcdhPublicKeyJwk") bind.memberUserId) :
    m.bind = some bind ∧
      epochText data = JsNumber.toText (m.call.epoch.getD (JsNumber.ofNat 0)) := by
  obtain ⟨-, -, -, -, hsaad⟩ := Mint.sealing_eq_ok hsealing
  cases hbind : m.bind with
  | none =>
    rw [hbind] at hsaad
    exact absurd (haad.symm.trans hsaad) sectorWrapAad_ne_empty
  | some minted =>
    rw [hbind] at hsaad
    obtain ⟨hchat, hepoch, -, hmember⟩ :=
      sectorWrapAad_inj (hm.separator_notMem hbind) (haad.symm.trans hsaad)
    cases minted
    cases bind
    exact ⟨congrArg some (congrArg₂ WrapBinding.mk hchat.symm hmember.symm), hepoch⟩

variable [DecidableEq P]

/-- What a v3 wrap opens: a sealing with the additional data of its context and its label. -/
theorem unwrap_v3_eq_ok {sealings : List (Sealing P)} {me : P} {expected : Option String}
    {bind : WrapBinding} {key : Bytes} (hdata : storedPayload rt text = .ok data)
    (hv : IsV3Wrap data)
    (h : unwrapGroupKeyFromStoredPayload rt sealings me text expected (some bind) = .ok key) :
    ∃ s ∈ sealings, rt.atob (Json.textOf (data.get? "iv")) = some s.iv ∧
      rt.atob (Json.textOf (data.get? "ciphertext")) = some s.ciphertext ∧ s.plain = key ∧
      s.aad = sectorWrapAad rt bind.chatId
        (Json.orElse (data.get? "epoch") (.num (JsNumber.ofNat 0)))
        (data.get? "creatorEcdhPublicKeyJwk") bind.memberUserId := by
  obtain ⟨data', hdata', h⟩ := bind_eq_ok h
  obtain rfl := Except.ok.inj (hdata.symm.trans hdata')
  have hopen : openAuthWrap rt sealings me data expected (some bind) = .ok key := by
    cases data with
    | null | bool _ | num _ | str _ => exact absurd h (by simp)
    | arr _ | obj _ =>
      dsimp only at h
      rwa [if_pos hv.1] at h
  rw [openAuthWrap] at hopen
  split at hopen
  next =>
    obtain ⟨creatorPub, -, hopen⟩ := bind_eq_ok hopen
    obtain ⟨wrapKey, -, hopen⟩ := bind_eq_ok hopen
    obtain ⟨aad, haad, hopen⟩ := bind_eq_ok hopen
    obtain ⟨rawKey, hunseal, hopen⟩ := bind_eq_ok hopen
    obtain ⟨s, hs, hiv, hciphertext, -, rfl, rfl⟩ := unsealBytes_eq_ok hunseal
    refine ⟨s, hs, hiv, hciphertext, ?_, expectedAad_of_v3 hv.2 haad⟩
    rw [importKey] at hopen
    split at hopen
    · exact Except.ok.inj hopen
    · exact absurd hopen (by simp)
  next => exact absurd hopen (by simp)

/-- **Labels.** A payload that opens as a v3 wrap opens what was sealed; and if that was sealed
    in a wrap that was minted, then for the same chat and member, and the payload's label is
    the epoch of the wrap exactly where the two readers of the label agree. -/
theorem readStoredSectorKeyEpoch_eq_iff {sealings : List (Sealing P)} {me : P}
    {expected : Option String} {bind : WrapBinding} {key : Bytes}
    (htext : Function.Injective (JsNumber.toText : N → String))
    (hdata : storedPayload rt text = .ok data) (hv : IsV3Wrap data)
    (h : unwrapGroupKeyFromStoredPayload rt sealings me text expected (some bind) = .ok key) :
    ∃ s ∈ sealings, rt.atob (Json.textOf (data.get? "iv")) = some s.iv ∧
      rt.atob (Json.textOf (data.get? "ciphertext")) = some s.ciphertext ∧ s.plain = key ∧
      ∀ m : Mint N P, m.WellFormed rt → m.sealing rt = .ok s → m.bind = some bind ∧
        (readStoredSectorKeyEpoch rt text = some (m.call.epoch.getD (JsNumber.ofNat 0)) ↔
          PlainEpoch data) := by
  obtain ⟨s, hs, hiv, hciphertext, hplain, haad⟩ := unwrap_v3_eq_ok hdata hv h
  refine ⟨s, hs, hiv, hciphertext, hplain, fun m hm hsealing => ?_⟩
  obtain ⟨hbind, hepoch⟩ := Mint.epochText_eq hm hsealing haad
  have hnull : data ≠ .null := by
    rintro rfl
    exact absurd (show false = true from hv.1) Bool.false_ne_true
  exact ⟨hbind, readStoredSectorKeyEpoch_eq_some_iff htext hdata hnull hepoch⟩

end

/-! ## A label that is a text -/

namespace Sample

/-- The owner's wrap, whose label was made a text. -/
def relabelled : Json ℕ :=
  .obj [("kind", .str "CREATOR_AUTH_WRAP"), ("v", .num 3), ("ciphertext", .str (b64 ciphertext)),
    ("iv", .str (b64 iv)), ("creatorEcdhPublicKeyJwk", .str (jwk 1)), ("epoch", .str "7"),
    ("chatId", .str binding.chatId), ("memberUserId", .str binding.memberUserId)]

theorem sealing_ownerCall (payload : Json ℕ) :
    (Mint.current ownerCall).sealing (runtime payload) =
      .ok ⟨⟨s(1, 2), .GROUP_WRAP⟩, iv, ciphertext, ownerCall.aad (runtime payload), key⟩ := by
  rw [Mint.sealing, wrapGroupKeyForMemberWithCreatorEcdh, ownerCall,
    importEcdhPublicKey_jwk (by simp)]
  rfl

theorem wellFormed_ownerCall (payload : Json ℕ) :
    (Mint.current ownerCall).WellFormed (runtime payload) where
  creator := isPublicKey_jwk (by simp)
  ids bind hbind := by
    obtain rfl := Option.some.inj hbind
    exact binding_isUuid

end Sample

section
open Sample

theorem relabelled_wrap_opens :
    unwrapGroupKeyFromStoredPayload (runtime relabelled)
        (sealings (runtime relabelled) [.current ownerCall] []) 2
        (packPayload (runtime relabelled) relabelled) (some (jwk 1)) (some binding) = .ok key ∧
      (Mint.current ownerCall).WellFormed (runtime relabelled) ∧ ownerCall.epoch = some 7 ∧
      readStoredSectorKeyEpoch (runtime relabelled) (packPayload (runtime relabelled) relabelled) =
        some 0 := by
  have hstored : ∀ point ∈ [1, 2], jwk point ≠ relabelled.stringify := by decide +kernel
  refine ⟨?_, wellFormed_ownerCall _, rfl, ?_⟩
  · rw [sealings, List.filterMap_cons_some (b := _) (by rw [sealing_ownerCall]; rfl)]
    exact unwrap_of_sealing
      (s := ⟨⟨s(1, 2), .GROUP_WRAP⟩, iv, ciphertext, ownerCall.aad (runtime relabelled), key⟩)
      (storedPayload_pack hstored) rfl (trustsCreator_self rfl)
      (importEcdhPublicKey_jwk (by simp)) rfl (by rw [Sym2.eq_swap]; rfl) rfl
      atob_iv atob_ciphertext (by decide) (sameSealing_self _ _)
  · exact readStoredSectorKeyEpoch_of_storedPayload (storedPayload_pack hstored)
      (by simp [relabelled])

theorem toText_injective : Function.Injective (JsNumber.toText : ℕ → String) := by
  intro m n h
  have hlist : Nat.toDigits 10 m = Nat.toDigits 10 n := by
    rw [← Nat.toList_repr, ← Nat.toList_repr]
    exact congrArg String.toList h
  rw [← Nat.ofDigitChars_ten_toDigits (n := m), hlist, Nat.ofDigitChars_ten_toDigits]

/-- The owner's wrap as it was stored is labelled with its epoch. -/
theorem readStoredSectorKeyEpoch_eq_iff_ownerCall :
    ∃ s ∈ sealings (runtime ownerPayload) [.current ownerCall] [],
      (runtime ownerPayload).atob (Json.textOf (ownerPayload.get? "iv")) = some s.iv ∧
      (runtime ownerPayload).atob (Json.textOf (ownerPayload.get? "ciphertext")) =
        some s.ciphertext ∧ s.plain = key ∧
      ∀ m : Mint ℕ ℕ, m.WellFormed (runtime ownerPayload) →
        m.sealing (runtime ownerPayload) = .ok s → m.bind = some binding ∧
          (readStoredSectorKeyEpoch (runtime ownerPayload)
            (packPayload (runtime ownerPayload) ownerPayload) = some (m.call.epoch.getD 0) ↔
              PlainEpoch ownerPayload) := by
  have hstored : ∀ point ∈ [1, 2], jwk point ≠ ownerPayload.stringify := by decide +kernel
  exact readStoredSectorKeyEpoch_eq_iff toText_injective (storedPayload_pack hstored) ⟨rfl, rfl⟩
    unwrap_ownerCall

end

end OneToThree.SectorWrap
