import OneToThree.Group.SectorFrame

/-!
# Rotated keys and retained keys

The ring remembers the newest epochs that a member was served. It is read to decrypt; the
key to encrypt with is that of whatever wrap is served.

* `rollback_iff`: no frame goes back to a key that an earlier frame has moved on from if
  and only if no wrap is served of a lower epoch than one in the ring. An old wrap that is
  served again, with its own epoch, is taken.
* `retains_of_run`: along a run in which no two keys are served under one epoch that is in
  the ring, every key of the newest epochs stays readable. Of two keys under one epoch, the
  second is not stored, and lost with the next frame.
-/

namespace OneToThree.SectorWrap

variable {N P : Type} [JsNumber N] [LinearOrder N] [DecidableEq P] (rt : Runtime N P)
  (sealings : List (Sealing P)) (me : Reader P)

/-! ## Rotated keys -/

/-- The text is a wrap that `owner` minted for the reader, at this epoch, and it is read
    back as it was written. -/
def MintedAt (owner : P) (wrapped : String) (epoch : N) : Prop :=
  ∃ call : WrapCall N P, call.creatorPrivateKey = owner ∧
    importEcdhPublicKey rt call.memberPublicKeyJwk = .ok me.privateKey ∧
    (∀ bind ∈ call.bind, bind = me.bind) ∧ call.epoch.getD (JsNumber.ofNat 0) = epoch ∧
    JsNumber.isFinite epoch ∧ wrapped = packPayload rt (call.payload rt) ∧
    storedPayload rt wrapped = .ok (call.payload rt)

/-- No frame encrypts under a key of a lower epoch than that of an earlier frame whose wrap
    is in the ring. -/
def NoRollback (owner : P) (s : Frames N) : Prop :=
  ∀ past later future, s.history = past ++ later :: future → ∀ earlier ∈ past,
    earlier.wrapped ∈ later.after.map RingEntry.wrapped →
    ∀ e e' : N, MintedAt rt me owner earlier.wrapped e → MintedAt rt me owner later.wrapped e' →
      e ≤ e'

section
variable {rt sealings me}

omit [LinearOrder N] [DecidableEq P] in
/-- A minted wrap names the epoch that it was minted at. -/
theorem stampedEpoch_payload {call : WrapCall N P}
    (hfinite : JsNumber.isFinite (call.epoch.getD (JsNumber.ofNat 0))) :
    stampedEpoch (call.payload rt) = call.epoch.getD (JsNumber.ofNat 0) := by
  rw [stampedEpoch, WrapCall.payload]
  cases hbind : call.bind with
  | some bind => exact if_pos hfinite
  | none =>
    cases hepoch : call.epoch with
    | some n =>
      rw [hepoch] at hfinite
      exact if_pos hfinite
    | none => rfl

omit [LinearOrder N] [DecidableEq P] in
theorem MintedAt.epochOf_eq {owner : P} {wrapped : String} {epoch : N}
    (h : MintedAt rt me owner wrapped epoch) : epochOf rt wrapped = epoch := by
  obtain ⟨call, -, -, -, rfl, hfinite, -, hstored⟩ := h
  have hobj : call.payload rt ≠ .null := by
    rw [WrapCall.payload]
    cases call.bind <;> exact fun h => nomatch h
  rw [epochOf, readStoredSectorKeyEpoch, hstored]
  split
  next heq => exact nomatch heq
  next heq => exact absurd (Except.ok.inj heq) hobj
  next data _ heq =>
    rw [← Except.ok.inj heq]
    exact stampedEpoch_payload hfinite

/-- What of a ring is not newer than the wrap that is added: all of it, or there is an
    entry after it that is newer. -/
theorem newer_kept {history : List (Built N)} {ring : List (RingEntry N)} {wrapped : String}
    (hsound : Sound rt sealings me ⟨ring, history⟩) {entry : RingEntry N} (hentry : entry ∈ ring)
    (hnewer : epochOf rt wrapped < entry.epoch) :
    ∃ kept ∈ addRingEntry ring (epochOf rt wrapped) wrapped, kept ∈ ring ∧
      epochOf rt wrapped < kept.epoch := by
  by_cases hmem : epochOf rt wrapped ∈ ring.map RingEntry.epoch
  · rw [addRingEntry_of_mem hmem]
    exact ⟨entry, hentry, hentry, hnewer⟩
  · rw [addRingEntry_of_notMem hmem]
    have hmem' : (⟨epochOf rt wrapped, wrapped⟩ : RingEntry N).epoch ∉ ring.map RingEntry.epoch :=
      hmem
    rcases Newest.mem_keep_or hsound.holds.descending hmem' (.inl hentry) with hkept | ⟨hfull, hold⟩
    · exact ⟨entry, hkept, hentry, hnewer⟩
    · -- It made room for what is newer still.
      obtain ⟨kept, hkept⟩ := List.exists_mem_of_length_pos (Nat.lt_of_lt_of_le (by decide) hfull)
      have hlt := lt_trans hnewer (hold kept hkept)
      rcases Newest.mem_of_mem_keep hkept with hring | rfl
      · exact ⟨kept, hkept, hring, hlt⟩
      · exact absurd hlt (lt_irrefl _)

/-- **No rollback.** The key that a frame encrypts with is that of the wrap it was built
    from. Where the owner minted the wraps that are served, no frame goes back to the key of
    a lower epoch than one that the ring still has, if and only if no wrap is served of a
    lower epoch than an entry of the ring. -/
theorem rollback_iff {owner : P} {s : Frames N} (hs : (frames rt sealings me).Reachable s)
    (hminted : ∀ built ∈ s.history, ∃ e, MintedAt rt me owner built.wrapped e) :
    (∀ built ∈ s.history, unwrapRetained rt sealings me built.wrapped = .ok built.frame.groupKey ∧
      built.frame.groupKeyRing.head? = some built.frame.groupKey) ∧
    (NoRollback rt me owner s ↔ ∀ later ∈ s.history, ∀ e', MintedAt rt me owner later.wrapped e' →
      ∀ entry ∈ later.before, entry.epoch ≤ e') := by
  refine ⟨fun built hbuilt => ⟨(sound_of_reachable hs).opens built hbuilt, ?_⟩, ?_, ?_⟩
  · obtain ⟨past, future, hhistory⟩ := List.append_of_mem hbuilt
    obtain ⟨wrapped, key, -, hof⟩ := built_of_reachable hs hhistory
    rw [hof]
    rfl
  · intro hno later hlater e' he' entry hentry
    obtain ⟨past, future, hhistory⟩ := List.append_of_mem hlater
    obtain ⟨wrapped, key, hsound, hof⟩ := built_of_reachable hs hhistory
    have hwrapped : later.wrapped = wrapped := by rw [hof]; rfl
    have hafter : later.after = addRingEntry later.before (epochOf rt wrapped) wrapped := by
      rw [hof]
      rfl
    by_contra hlt
    rw [← he'.epochOf_eq, hwrapped, not_le] at hlt
    obtain ⟨kept, hkept, hring, hnewer⟩ := newer_kept hsound hentry hlt
    obtain ⟨hepoch, earlier, hearlier, hsame⟩ := hsound.entries kept hring
    have hpast : earlier ∈ s.history := hhistory ▸ List.mem_append_left _ hearlier
    obtain ⟨e, he⟩ := hminted earlier hpast
    have hle := hno past later future hhistory earlier hearlier
      (List.mem_map.2 ⟨kept, hafter ▸ hkept, hsame.symm⟩) e e' he he'
    rw [← he.epochOf_eq, ← he'.epochOf_eq, hsame, ← hepoch, hwrapped] at hle
    exact absurd hnewer (not_lt.2 hle)
  · intro hcond past later future hhistory earlier hearlier hring e e' he he'
    obtain ⟨wrapped, key, hsound, hof⟩ := built_of_reachable hs hhistory
    have hwrapped : later.wrapped = wrapped := by rw [hof]; rfl
    have hafter : later.after = addRingEntry later.before (epochOf rt wrapped) wrapped := by
      rw [hof]
      rfl
    have hlater : later ∈ s.history := hhistory ▸ List.mem_append_right _ List.mem_cons_self
    obtain ⟨entry, hentry, hsame⟩ := List.mem_map.1 hring
    rw [hafter] at hentry
    rcases mem_addRingEntry hentry with hbefore | rfl
    · have hle := hcond later hlater e' he' entry hbefore
      rwa [(hsound.entries entry hbefore).1, hsame, he.epochOf_eq] at hle
    · refine le_of_eq ?_
      rw [← he.epochOf_eq, ← he'.epochOf_eq, ← hsame, hwrapped]

end

/-! ## Retained keys -/

/-- No other key is in the ring under the epoch of the wrap that is served. -/
def OneKey (s : Frames N) (members : List SectorMember) : Prop :=
  ∀ wrapped key, currentSectorKey rt sealings me members = .ok (wrapped, key) →
    ∀ entry ∈ s.ring, entry.epoch = epochOf rt wrapped →
      unwrapRetained rt sealings me entry.wrapped = .ok key

instance (s : Frames N) (members : List SectorMember) :
    Decidable (OneKey rt sealings me s members) :=
  match h : currentSectorKey rt sealings me members with
  | .error _ => isTrue fun _ _ hkey => nomatch h.symm.trans hkey
  | .ok (wrapped, key) =>
    decidable_of_iff (∀ entry ∈ s.ring, entry.epoch = epochOf rt wrapped →
      unwrapRetained rt sealings me entry.wrapped = .ok key) (by
        refine ⟨fun hone _ _ hkey => ?_, fun hone => hone wrapped key h⟩
        obtain ⟨rfl, rfl⟩ := Prod.mk.inj (Except.ok.inj (h.symm.trans hkey))
        exact hone)

/-- The ring is newest first, with one entry an epoch, and no longer than its bound; the
    key of the wrap that was served last leads the keys of the frame, which have every key
    that was current at one of the newest epochs. -/
structure Retains (s : Frames N) : Prop where
  descending : Newest.Descending RingEntry.epoch s.ring
  length : s.ring.length ≤ RING_CAP
  current : ∀ now ∈ s.history.getLast?, ∃ key,
    unwrapRetained rt sealings me now.wrapped = .ok key ∧ now.frame.groupKeyRing.head? = some key
  readable : ∀ now ∈ s.history.getLast?, ∀ built ∈ s.history,
    ((seen rt s.history).filter (epochOf rt built.wrapped < ·)).card < RING_CAP →
      built.frame.groupKey ∈ now.frame.groupKeyRing

/-- The entry of an epoch holds the key of every frame that was built at it. -/
def OneKeyAnEpoch (s : Frames N) : Prop :=
  ∀ built ∈ s.history, ∀ entry ∈ s.ring, entry.epoch = epochOf rt built.wrapped →
    unwrapRetained rt sealings me entry.wrapped = .ok built.frame.groupKey

section
variable {rt sealings me}

/-- An epoch that is served again after its entry has gone gets none. -/
theorem addRingEntry_of_gone {s : Frames N} (h : Sound rt sealings me s) {wrapped : String}
    (hseen : epochOf rt wrapped ∈ seen rt s.history)
    (hgone : epochOf rt wrapped ∉ s.ring.map RingEntry.epoch) :
    addRingEntry s.ring (epochOf rt wrapped) wrapped = s.ring := by
  obtain ⟨hfull, hold⟩ := (h.holds.newest _ hseen).resolve_left hgone
  rw [addRingEntry_of_notMem hgone]
  exact Newest.keep_of_full h.holds.descending (le_antisymm h.holds.length hfull) hold

theorem OneKeyAnEpoch.step {s s' : Frames N} {members : List SectorMember}
    (hsound : Sound rt sealings me s) (h : OneKeyAnEpoch rt sealings me s)
    (hone : OneKey rt sealings me s members)
    (hstep : (frames rt sealings me).step s members = some s') :
    OneKeyAnEpoch rt sealings me s' := by
  rcases frames_step hstep with ⟨-, rfl⟩ | ⟨wrapped, key, hkey, rfl⟩
  · exact h
  replace hone := hone wrapped key hkey
  intro built hbuilt entry hentry hepoch
  rcases List.mem_append.1 hbuilt with hbuilt | hbuilt
  · rcases mem_addRingEntry hentry with hold | rfl
    · exact h built hbuilt entry hold hepoch
    · -- The epoch was served before: its entry is in the ring, or there is none any more.
      by_cases hmem : epochOf rt wrapped ∈ s.ring.map RingEntry.epoch
      · rw [builtOf, addRingEntry_of_mem hmem] at hentry
        exact h built hbuilt _ hentry hepoch
      · have hseen : epochOf rt wrapped ∈ seen rt s.history := by
          rw [show epochOf rt wrapped = epochOf rt built.wrapped from hepoch]
          exact mem_seen hbuilt
        rw [builtOf, addRingEntry_of_gone hsound hseen hmem] at hentry
        exact h built hbuilt _ hentry hepoch
  · obtain rfl := List.mem_singleton.1 hbuilt
    rcases mem_addRingEntry hentry with hold | rfl
    · exact hone entry hold hepoch
    · exact unwrapRetained_of_current hkey

/-- **Retention.** In every run in which no wrap is served with another key than the one that
    the ring has under its epoch, the ring is newest first and bounded, the served key leads
    the keys of the frame, and every key that was current at one of the newest epochs is
    among them. -/
theorem retains_of_run {s : Frames N}
    (hs : ((frames rt sealings me).restrict (OneKey rt sealings me)).Reachable s) :
    Retains rt sealings me s := by
  have hsound := sound_of_reachable hs.of_restrict
  have hone : OneKeyAnEpoch rt sealings me s := by
    refine hs.invariant (I := OneKeyAnEpoch rt sealings me) ?_ ?_
    · rintro s rfl built hbuilt
      exact absurd hbuilt List.not_mem_nil
    · intro s members s' hs h hstep
      obtain ⟨hok, hstep⟩ := Machine.restrict_step.1 hstep
      exact h.step (sound_of_reachable hs.of_restrict) hok hstep
  refine ⟨hsound.holds.descending, hsound.holds.length, fun now hnow => ?_,
    fun now hnow built hbuilt hnewest => ?_⟩
  · obtain ⟨hof, -⟩ := hsound.last now hnow
    refine ⟨now.frame.groupKey, hsound.opens now (List.mem_of_getLast? hnow), ?_⟩
    rw [← hof]
    rfl
  · obtain ⟨hof, hring⟩ := hsound.last now hnow
    obtain ⟨entry, hentry, hepoch⟩ := List.mem_map.1
      (hsound.holds.mem_of_newest (mem_seen hbuilt) hnewest)
    have hopen := hone built hbuilt entry hentry hepoch
    have hkeys : now.frame.groupKeyRing = now.frame.groupKey ::
        retainedKeys rt sealings me now.wrapped (getRingEntries s.ring) := by
      rw [← hring, ← hof]
      rfl
    rw [hkeys]
    by_cases hsame : entry.wrapped = now.wrapped
    · -- The entry is the wrap that is served: its key is the current one.
      rw [hsame, hsound.opens now (List.mem_of_getLast? hnow)] at hopen
      rw [Except.ok.inj hopen]
      exact List.mem_cons_self
    · refine List.mem_cons_of_mem _ (List.mem_filterMap.2 ⟨entry, Newest.mem_sort.2 hentry, ?_⟩)
      rw [if_neg hsame, hopen]
      rfl

end

/-! ## Three wraps

The owner mints three wraps for the member: two at the epoch 1, with different keys, and one
at the epoch 2. -/

namespace RingSample
open Sample

def wrapCall (epoch : ℕ) (key : Bytes) (ciphertext : Bytes) : WrapCall ℕ ℕ :=
  ⟨1, jwk 2, key, some (jwk 1), some epoch, some binding, iv, ciphertext⟩

def first : WrapCall ℕ ℕ := wrapCall 1 (List.replicate 32 1) (List.replicate 48 1)

def second : WrapCall ℕ ℕ := wrapCall 1 (List.replicate 32 2) (List.replicate 48 2)

def rotated : WrapCall ℕ ℕ := wrapCall 2 (List.replicate 32 3) (List.replicate 48 3)

def calls : List (WrapCall ℕ ℕ) := [first, second, rotated]

def payload (c : WrapCall ℕ ℕ) : Json ℕ := c.payload (runtime .null)

/-- The texts that are parsed. -/
def parsed : List (Json ℕ) := [jwkData 1, jwkData 2] ++ calls.map payload

def utf8 (text : String) : Bytes := text.toByteArray.data.toList

/-- The byte strings that are decoded. -/
def decoded : List Bytes :=
  iv :: calls.map WrapCall.ciphertext ++ calls.map fun c => utf8 (payload c).stringify

/-- The runtime, for the texts and the byte strings that occur. -/
def ringRuntime : Runtime ℕ ℕ :=
  { runtime .null with
    parse := fun t => parsed.find? fun data => data.stringify = t
    atob := fun t => decoded.find? fun bytes => b64 bytes = t
    encodeText := utf8
    decodeText := fun bytes => (String.fromUTF8? ⟨bytes.toArray⟩).getD "" }

/-- The stored text of a wrap. -/
def text (c : WrapCall ℕ ℕ) : String := packPayload ringRuntime (c.payload ringRuntime)

def reader : Reader ℕ := ⟨binding.chatId, binding.memberUserId, 2⟩

/-- The roster that is served with a wrap for the member. -/
def roster (c : WrapCall ℕ ℕ) : List SectorMember :=
  [⟨"owner", some (jwk 1), none, some .owner⟩,
    ⟨binding.memberUserId, some (jwk 2), some (text c), some .member⟩]

/-- What is sealed in a wrap. -/
def sealingOf (c : WrapCall ℕ ℕ) : Sealing ℕ :=
  ⟨⟨s(1, 2), .GROUP_WRAP⟩, iv, c.ciphertext, c.aad ringRuntime, c.sectorKey⟩

def ringSealings : List (Sealing ℕ) := calls.map sealingOf

theorem decodeText_utf8 (t : String) : ringRuntime.decodeText (utf8 t) = t := by
  have hvalid : (⟨(utf8 t).toArray⟩ : ByteArray) = t.toByteArray := by
    rw [utf8, Array.toArray_toList]
  change (String.fromUTF8? ⟨(utf8 t).toArray⟩).getD "" = t
  rw [hvalid, String.fromUTF8?, dif_pos t.isValidUTF8]
  rfl

theorem find?_eq {α : Type} {p : α → Prop} [DecidablePred p] {l : List α} {a : α} (h : a ∈ l)
    (ha : p a) (honly : ∀ b ∈ l, p b → b = a) : l.find? (fun b => p b) = some a := by
  obtain ⟨found, hfound⟩ := Option.isSome_iff_exists.1
    (List.find?_isSome.2 ⟨a, h, decide_eq_true ha⟩ : (l.find? fun b => p b).isSome)
  have hp : p found := by simpa using List.find?_some hfound
  rw [hfound, honly found (List.mem_of_find?_eq_some hfound) hp]

theorem atob_b64_decoded {bytes : Bytes} (h : bytes ∈ decoded) :
    ringRuntime.atob (b64 bytes) = some bytes :=
  find?_eq h rfl fun _ _ heq => Base64.encode_injective (String.ofList_injective heq)

theorem parse_stringify {data : Json ℕ} (h : data ∈ parsed) :
    ringRuntime.parse data.stringify = some data := by
  have hnodup : (parsed.map Json.stringify).Nodup := by decide +kernel
  exact find?_eq h rfl fun _ h' heq => List.inj_on_of_nodup_map hnodup h' h heq

theorem importEcdhPublicKey_point {point : ℕ} (h : point ∈ [1, 2]) :
    importEcdhPublicKey ringRuntime (jwk point) = .ok point := by
  have hparse : ringRuntime.parse (jwk point) = some (jwkData point) := by
    refine parse_stringify (List.mem_append_left _ ?_)
    exact List.mem_map_of_mem (f := jwkData) h
  rw [importEcdhPublicKey, hparse]
  simp only [List.mem_cons, List.not_mem_nil, or_false] at h
  rcases h with rfl | rfl <;> rfl

section
variable {c : WrapCall ℕ ℕ} (h : c ∈ calls)
include h

theorem storedPayload_text : storedPayload ringRuntime (text c) = .ok (payload c) := by
  have hatob : ringRuntime.atob (text c) = some (utf8 (payload c).stringify) :=
    atob_b64_decoded (List.mem_append_right _ (List.mem_map_of_mem h))
  rw [storedPayload, hatob]
  dsimp only
  rw [decodeText_utf8, parse_stringify (List.mem_append_right _ (List.mem_map_of_mem h))]

omit h in
theorem mem_calls (h : c ∈ calls) : ∃ epoch key ciphertext, c = wrapCall epoch key ciphertext ∧
    key.length = 32 ∧ ciphertext ∈ calls.map WrapCall.ciphertext := by
  simp only [calls, List.mem_cons, List.not_mem_nil, or_false] at h
  rcases h with rfl | rfl | rfl
  · exact ⟨1, _, _, rfl, rfl, by simp [calls, first, wrapCall]⟩
  · exact ⟨1, _, _, rfl, rfl, by simp [calls, second, wrapCall]⟩
  · exact ⟨2, _, _, rfl, rfl, by simp [calls, rotated, wrapCall]⟩

/-- The wrap is minted by the owner, at its epoch. -/
theorem mintedAt_text : MintedAt ringRuntime reader 1 (text c) (c.epoch.getD 0) := by
  have hstored := storedPayload_text h
  obtain ⟨epoch, key, ciphertext, rfl, -, -⟩ := mem_calls h
  exact ⟨wrapCall epoch key ciphertext, rfl, importEcdhPublicKey_point (by simp),
    fun bind hbind => (Option.some.inj hbind).symm, rfl, rfl, rfl, hstored⟩

theorem find?_sealingOf : ringSealings.find? (fun s => s.key = (sealingOf c).key ∧
    s.iv = (sealingOf c).iv ∧ s.ciphertext = (sealingOf c).ciphertext ∧
    s.aad = (sealingOf c).aad) = some (sealingOf c) := by
  have hnodup : (ringSealings.map Sealing.ciphertext).Nodup := by decide +kernel
  have hmem : sealingOf c ∈ ringSealings := List.mem_map_of_mem h
  exact find?_eq hmem ⟨rfl, rfl, rfl, rfl⟩
    fun _ h' heq => List.inj_on_of_nodup_map hnodup h' hmem heq.2.2.1

theorem unwrap_text : unwrapGroupKeyFromStoredPayload ringRuntime ringSealings reader.privateKey
    (text c) (some (jwk 1)) (some reader.bind) = .ok c.sectorKey := by
  have hstored := storedPayload_text h
  have hfind := find?_sealingOf h
  obtain ⟨epoch, key, ciphertext, rfl, hlength, hciphertext⟩ := mem_calls h
  exact unwrap_of_sealing (s := sealingOf (wrapCall epoch key ciphertext)) hstored rfl
    (trustsCreator_self rfl) (importEcdhPublicKey_point (by simp)) rfl
    (by rw [Sym2.eq_swap]; rfl) rfl (atob_b64_decoded List.mem_cons_self)
    (atob_b64_decoded (List.mem_append_left _ (List.mem_cons_of_mem _ hciphertext)))
    (by rw [show (sealingOf (wrapCall epoch key ciphertext)).plain = key from rfl, hlength]; decide)
    hfind

omit h in
theorem stringify_ne_empty {fields : List (String × Json ℕ)} : (Json.obj fields).stringify ≠ "" := by
  intro h
  have hhead := congrArg (fun t : String => t.toList.head?) h
  simp [Json.stringify] at hhead

omit h in
theorem text_ne_empty : text c ≠ "" := by
  intro htext
  have hbytes : utf8 (c.payload ringRuntime).stringify = utf8 "" :=
    Base64.encode_injective (String.ofList_injective htext)
  have hpayload := (decodeText_utf8 _).symm.trans (hbytes ▸ decodeText_utf8 "")
  cases hbind : c.bind <;> rw [WrapCall.payload, hbind] at hpayload <;>
    exact stringify_ne_empty hpayload

theorem currentSectorKey_roster :
    currentSectorKey ringRuntime ringSealings reader (roster c) = .ok (text c, c.sectorKey) := by
  have howner : ((roster c).find? fun m => m.role = some .owner).bind
      SectorMember.ecdh_public_key_jwk = some (jwk 1) := rfl
  have hrow : ((roster c).find? fun m => m.user_id = reader.myUserId).bind
      SectorMember.encrypted_group_key = some (text c) := rfl
  have hjwk : jwk 1 ≠ "" := stringify_ne_empty
  rw [currentSectorKey, resolveSectorOwnerEcdhJwk, hrow, howner,
    Option.filter_some_pos (by simpa using text_ne_empty),
    Option.filter_some_pos (by simpa using hjwk)]
  dsimp only
  rw [unwrap_text h]

end

/-- The frame that is built of a wrap. -/
def built (ring : List (RingEntry ℕ)) (c : WrapCall ℕ ℕ) : Built ℕ :=
  builtOf ringRuntime ringSealings reader ring (text c) c.sectorKey

theorem built_groupKey (ring : List (RingEntry ℕ)) (c : WrapCall ℕ ℕ) :
    (built ring c).frame.groupKey = c.sectorKey := rfl

theorem built_groupKeyRing (ring : List (RingEntry ℕ)) (c : WrapCall ℕ ℕ) :
    (built ring c).frame.groupKeyRing = c.sectorKey ::
      retainedKeys ringRuntime ringSealings reader (text c) (getRingEntries (built ring c).after) :=
  rfl

/-- The state after the rosters with these wraps. -/
def served (cs : List (WrapCall ℕ ℕ)) : Frames ℕ :=
  cs.foldl (fun s c => ⟨(built s.ring c).after, s.history ++ [built s.ring c]⟩) ⟨[], []⟩

theorem step_roster {c : WrapCall ℕ ℕ} (h : c ∈ calls) (s : Frames ℕ) :
    (frames ringRuntime ringSealings reader).step s (roster c) =
      some ⟨(built s.ring c).after, s.history ++ [built s.ring c]⟩ :=
  frames_step_of_ok (currentSectorKey_roster h)

theorem step_served {c : WrapCall ℕ ℕ} (h : c ∈ calls) (cs : List (WrapCall ℕ ℕ)) :
    (frames ringRuntime ringSealings reader).step (served cs) (roster c) =
      some (served (cs ++ [c])) := by
  rw [step_roster h, served, served, List.foldl_concat]

theorem served_pair (c c' : WrapCall ℕ ℕ) : served [c, c'] =
    ⟨(built (built [] c).after c').after, [built [] c, built (built [] c).after c']⟩ := rfl

theorem served_triple (c c' c'' : WrapCall ℕ ℕ) : served [c, c', c''] =
    ⟨(built (built (built [] c).after c').after c'').after,
      [built [] c, built (built [] c).after c', built (built (built [] c).after c').after c'']⟩ :=
  rfl

theorem reachable_served {cs : List (WrapCall ℕ ℕ)} (h : ∀ c ∈ cs, c ∈ calls) :
    (frames ringRuntime ringSealings reader).Reachable (served cs) := by
  induction cs using List.reverseRecOn with
  | nil => exact .init rfl
  | append_singleton cs c ih =>
    exact .step (ih fun c hc => h c (List.mem_append_left _ hc))
      (step_served (h c (List.mem_append_right _ (List.mem_singleton_self c))) cs)

theorem minted_served {cs : List (WrapCall ℕ ℕ)} (h : ∀ c ∈ cs, c ∈ calls) :
    ∀ b ∈ (served cs).history, ∃ e, MintedAt ringRuntime reader 1 b.wrapped e := by
  induction cs using List.reverseRecOn with
  | nil => exact fun b hb => absurd hb List.not_mem_nil
  | append_singleton cs c ih =>
    intro b hb
    rw [served, List.foldl_concat] at hb
    rcases List.mem_append.1 hb with hb | hb
    · exact ih (fun c hc => h c (List.mem_append_left _ hc)) b hb
    · obtain rfl := List.mem_singleton.1 hb
      exact ⟨_, mintedAt_text (h c (List.mem_append_right _ (List.mem_singleton_self c)))⟩

/-- The ring after a wrap is served. -/
theorem after_built {c : WrapCall ℕ ℕ} (h : c ∈ calls) (ring : List (RingEntry ℕ)) :
    (built ring c).after = addRingEntry ring (c.epoch.getD 0) (text c) := by
  rw [built, builtOf, (mintedAt_text h).epochOf_eq]

theorem first_mem : first ∈ calls := List.mem_cons_self

theorem second_mem : second ∈ calls := List.mem_cons_of_mem _ List.mem_cons_self

theorem rotated_mem : rotated ∈ calls :=
  List.mem_cons_of_mem _ (List.mem_cons_of_mem _ List.mem_cons_self)

end RingSample

section
open Sample RingSample

/-- The wrap of the epoch 1 is served again after that of the epoch 2. -/
theorem old_wrap_taken : ¬∀ s, (frames ringRuntime ringSealings reader).Reachable s →
    (∀ b ∈ s.history, ∃ e, MintedAt ringRuntime reader 1 b.wrapped e) →
    NoRollback ringRuntime reader 1 s := by
  intro h
  have hcalls : ∀ c ∈ [rotated, first], c ∈ calls := by simp [rotated_mem, first_mem]
  have hring : (built [] rotated).wrapped ∈
      (built (built [] rotated).after first).after.map RingEntry.wrapped := by
    rw [after_built first_mem, after_built rotated_mem]
    exact List.mem_cons_self
  have hrollback := h (served [rotated, first]) (reachable_served hcalls) (minted_served hcalls)
    [built [] rotated] _ [] (by rw [served_pair]; rfl) _ List.mem_cons_self hring 2 1
    (mintedAt_text rotated_mem) (mintedAt_text first_mem)
  exact absurd hrollback (by decide)

theorem rollback_iff_rotated :
    (∀ b ∈ (served [first, rotated]).history,
      unwrapRetained ringRuntime ringSealings reader b.wrapped = .ok b.frame.groupKey ∧
        b.frame.groupKeyRing.head? = some b.frame.groupKey) ∧
    (NoRollback ringRuntime reader 1 (served [first, rotated]) ↔
      ∀ later ∈ (served [first, rotated]).history, ∀ e',
        MintedAt ringRuntime reader 1 later.wrapped e' → ∀ entry ∈ later.before,
          entry.epoch ≤ e') := by
  have hcalls : ∀ c ∈ [first, rotated], c ∈ calls := by simp [rotated_mem, first_mem]
  exact rollback_iff (reachable_served hcalls) (minted_served hcalls)

/-- The second key of the epoch 1 is gone once the wrap of the epoch 2 is served. -/
theorem second_key_lost : ¬∀ s, (frames ringRuntime ringSealings reader).Reachable s →
    Retains ringRuntime ringSealings reader s := by
  intro h
  have hcalls : ∀ c ∈ [first, second, rotated], c ∈ calls := by
    simp [rotated_mem, first_mem, second_mem]
  have hring : (built (built (built [] first).after second).after rotated).after =
      [⟨2, text rotated⟩, ⟨1, text first⟩] := by
    rw [after_built rotated_mem, after_built second_mem, after_built first_mem]
    rfl
  have hkeys : retainedKeys ringRuntime ringSealings reader (text rotated)
      (getRingEntries [⟨2, text rotated⟩, ⟨1, text first⟩]) = [first.sectorKey] := by
    have hne : text first ≠ text rotated := fun heq =>
      absurd ((mintedAt_text first_mem).epochOf_eq.symm.trans
        ((congrArg _ heq).trans (mintedAt_text rotated_mem).epochOf_eq)) (by decide)
    have hopen := unwrapRetained_of_current (currentSectorKey_roster first_mem)
    have hsorted : getRingEntries [⟨2, text rotated⟩, ⟨1, text first⟩] =
        [(⟨2, text rotated⟩ : RingEntry ℕ), ⟨1, text first⟩] := rfl
    rw [retainedKeys, hsorted]
    simp [hne, hopen, Except.toOption]
  have hreadable := (h _ (reachable_served hcalls)).readable
    (built (built (built [] first).after second).after rotated) (by rw [served_triple]; rfl)
    (built (built [] first).after second) (List.mem_cons_of_mem _ List.mem_cons_self) ?_
  · rw [built_groupKey, built_groupKeyRing, hring, hkeys] at hreadable
    exact absurd hreadable (by decide)
  · -- Two epochs were served.
    have hseen : seen ringRuntime (served [first, second, rotated]).history = {1, 2} := by
      rw [served_triple, seen]
      change [epochOf ringRuntime (text first), epochOf ringRuntime (text second),
        epochOf ringRuntime (text rotated)].toFinset = {1, 2}
      rw [(mintedAt_text first_mem).epochOf_eq, (mintedAt_text second_mem).epochOf_eq,
        (mintedAt_text rotated_mem).epochOf_eq]
      decide
    have hwrapped : (built (built [] first).after second).wrapped = text second := rfl
    rw [hseen, hwrapped, (mintedAt_text second_mem).epochOf_eq]
    decide

theorem retains_of_run_rotated : Retains ringRuntime ringSealings reader
    (served [first, rotated]) := by
  have hfirst : OneKey ringRuntime ringSealings reader (served []) (roster first) := by
    exact fun wrapped key _ entry h => absurd h List.not_mem_nil
  have hrotated : OneKey ringRuntime ringSealings reader (served [first]) (roster rotated) := by
    intro wrapped key hkey entry hentry hepoch
    rw [currentSectorKey_roster rotated_mem] at hkey
    obtain ⟨rfl, rfl⟩ := Prod.mk.inj (Except.ok.inj hkey)
    change entry ∈ (built [] first).after at hentry
    rw [after_built first_mem] at hentry
    obtain rfl := List.mem_singleton.1 hentry
    rw [(mintedAt_text rotated_mem).epochOf_eq] at hepoch
    exact absurd hepoch (by decide)
  have hinit : ((frames ringRuntime ringSealings reader).restrict
      (OneKey ringRuntime ringSealings reader)).Reachable (served []) := .init rfl
  have hstep : ((frames ringRuntime ringSealings reader).restrict
      (OneKey ringRuntime ringSealings reader)).step (served []) (roster first) =
        some (served [first]) :=
    Machine.restrict_step.2 ⟨hfirst, step_served first_mem []⟩
  have hstep' : ((frames ringRuntime ringSealings reader).restrict
      (OneKey ringRuntime ringSealings reader)).step (served [first]) (roster rotated) =
        some (served [first, rotated]) :=
    Machine.restrict_step.2 ⟨hrotated, step_served rotated_mem [first]⟩
  exact retains_of_run ((hinit.step hstep).step hstep')

end

end OneToThree.SectorWrap
