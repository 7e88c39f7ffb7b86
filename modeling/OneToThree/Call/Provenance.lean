import Mathlib.Data.List.Induction
import Mathlib.Order.MinMax
import OneToThree.Call.Rest

/-!
# Whose voice is heard

Hooks that call each other over a server which passes on, repeats, delays and invents messages as
it likes. It cannot make a frame under the key of two users who both run a hook: it has those
frames only that one of the two has sealed (`Network.Known`).

* `Hook.Keyed`: the keys that a hook has cached, or waits for, for a peer are keys of the user and
  that peer, and so are the frames it has sealed. It is kept by every move.
* `heard_of_run`: what a user hears as another user's voice was said by that user, into a capture
  that ran for the listener.
* `sent_of_run`: what is sent to a user was said into a capture that ran for that user, and is
  sealed with the key that the two share.
-/

namespace OneToThree.Call

/-- A key of two users. -/
def RelayKey.IsOf (key : RelayKey) (own peer : UserId) : Prop :=
  ∃ nonce, key = deriveSharedSecret own peer nonce

/-- A frame that a user seals for another. -/
structure SealedFrame.IsFrom (frame : SealedFrame) (own peer : UserId) : Prop where
  key : frame.key.IsOf own peer
  fromId : frame.aad.fromId = own
  toId : frame.aad.toId = peer

/-- What the stage of a function about a peer holds: `owners` tells whose key a promise is of,
    `known` is what the server has, and `own` what the user has sealed. -/
def Stage.Keyed (user peer : UserId) (known own : SealedFrame → Prop) (owners : List UserId) :
    Stage → Prop
  | .relayKey _ _ _ key | .acceptRelayKey _ key | .captureKey _ _ key | .deriveNonce key
  | .deriveSecret key _ => owners[key]? = some peer
  | .captureStart _ _ key => key.IsOf user peer
  | .frameKey frame _ _ key => owners[key]? = some peer ∧ known frame
  | .frameOpen frame _ _ key => key.IsOf user peer ∧ known frame
  | .sealing _ _ frame => frame.IsFrom user peer ∧ own frame
  | _ => True

def Output.Keyed (user : UserId) (known own : SealedFrame → Prop) : Output → Prop
  | .seal frame => frame.IsFrom user frame.aad.toId
  | .play peer frame _ => frame.IsFrom peer user ∧ known frame
  | .send (.webrtcSignal peer (.relayFrame frame _ seq)) =>
    ∃ f, frame = some f ∧ seq = some f.aad.seq ∧ f.IsFrom user peer ∧ own f
  | _ => True

theorem RelayKey.IsOf.comm {key : RelayKey} {own peer : UserId} (h : key.IsOf own peer) :
    key.IsOf peer own := by
  obtain ⟨nonce, rfl⟩ := h
  exact ⟨nonce, deriveSharedSecret_comm own peer nonce⟩

section
variable {user peer : UserId} {known known' own own' : SealedFrame → Prop}
  {owners owners' : List UserId}

theorem Stage.Keyed.mono {stage : Stage} (h : stage.Keyed user peer known own owners)
    (hknown : ∀ f, known f → known' f) (hown : ∀ f, own f → own' f) (howners : owners <+: owners') :
    stage.Keyed user peer known' own' owners' := by
  have hget : ∀ {p : PromiseId}, owners[p]? = some peer → owners'[p]? = some peer := by
    intro p hp
    obtain ⟨l, rfl⟩ := howners
    rw [List.getElem?_append_left (List.getElem?_eq_some_iff.1 hp).1]
    exact hp
  cases stage with
  | relayKey | acceptRelayKey | captureKey | deriveNonce | deriveSecret => exact hget h
  | frameKey => exact ⟨hget h.1, hknown _ h.2⟩
  | frameOpen => exact ⟨h.1, hknown _ h.2⟩
  | sealing => exact ⟨h.1, hown _ h.2⟩
  | captureStart => exact h
  | _ => trivial

theorem Stage.Keyed.of_isPlain {stage : Stage} (h : stage.isPlain = true) :
    stage.Keyed user peer known own owners := by
  cases stage with
  | relayKey | acceptRelayKey | captureKey | captureStart | frameKey | frameOpen | sealing
  | deriveNonce | deriveSecret => cases h
  | _ => trivial

theorem Stage.Keyed.of_setupKey {stage : Stage} {key : PromiseId} (h : stage.setupKey = some key)
    (hkey : owners[key]? = some peer) : stage.Keyed user peer known own owners := by
  cases stage with
  | relayKey | acceptRelayKey | captureKey =>
    cases h
    exact hkey
  | _ => cases h

theorem Stage.Keyed.setupKey {stage : Stage} {key : PromiseId}
    (h : stage.Keyed user peer known own owners) (hkey : stage.setupKey = some key) :
    owners[key]? = some peer := by
  cases stage with
  | relayKey | acceptRelayKey | captureKey =>
    cases hkey
    exact h
  | _ => cases hkey

theorem Output.Keyed.mono {o : Output} (h : o.Keyed user known own) (hown : ∀ f, own f → own' f) :
    o.Keyed user known own' := by
  cases o with
  | send msg =>
    cases msg with
    | webrtcSignal _ signal =>
      cases signal with
      | relayFrame =>
        obtain ⟨f, hf, hseq, hfrom, h⟩ := h
        exact ⟨f, hf, hseq, hfrom, hown f h⟩
      | _ => trivial
    | _ => trivial
  | _ => exact h

theorem Output.Keyed.of_isPlain {o : Output} (h : o.isPlain = true) : o.Keyed user known own := by
  cases o with
  | send msg =>
    cases msg with
    | webrtcSignal _ signal =>
      cases signal with
      | relayFrame => cases h
      | _ => trivial
    | _ => trivial
  | captureStarted | «seal» | play => cases h
  | _ => trivial

end

namespace Hook

/-- The frames that are sealed: earlier, or in this step. -/
def HasSealed (s : Hook) (own : SealedFrame → Prop) (frame : SealedFrame) : Prop :=
  own frame ∨ .seal frame ∈ s.out

/-- The keys of a hook are those of the peers they are used for. -/
structure Keyed (user : UserId) (known own : SealedFrame → Prop) (owners : List UserId)
    (s : Hook) : Prop where
  userId : s.userId = user
  length : owners.length = s.keys.promises.length
  cached : ∀ v p, s.keys.relayKeys.get? v = some p → owners[p]? = some v
  settled : ∀ p v k, owners[p]? = some v → s.keys.settled? p = some (some k) → k.IsOf user v
  captures : ∀ c ∈ s.captures, c.key.IsOf user c.peerId
  tasks : ∀ t ∈ s.tasks, t.stage.Keyed user t.peerId known (s.HasSealed own) owners
  out : ∀ o ∈ s.out, o.Keyed user known (s.HasSealed own)

section
variable {user : UserId} {known own : SealedFrame → Prop} {owners : List UserId}
  {s₀ s s' : Hook} {e : HookEvent}

theorem Keyed.emit (h : s.Keyed user known own owners) {o : Output}
    (ho : o.Keyed user known (s.HasSealed own)) : (s.emit o).Keyed user known own owners := by
  have hmono : ∀ f, s.HasSealed own f → (s.emit o).HasSealed own f := fun f hf =>
    hf.imp_right fun hf => List.mem_append_left _ hf
  exact ⟨h.userId, h.length, h.cached, h.settled, h.captures,
    fun t ht => (h.tasks t ht).mono (fun _ => id) hmono List.prefix_rfl,
    List.forall_mem_append.2
      ⟨fun o' ho' => (h.out o' ho').mono hmono, List.forall_mem_singleton.2 (ho.mono hmono)⟩⟩

theorem Keyed.await (h : s.Keyed user known own owners) {peerId : UserId} {stage : Stage}
    (hstage : stage.Keyed user peerId known (s.HasSealed own) owners) :
    (s.await peerId stage).Keyed user known own owners := by
  exact ⟨h.userId, h.length, h.cached, h.settled, h.captures,
    List.forall_mem_append.2 ⟨h.tasks, List.forall_mem_singleton.2 hstage⟩, h.out⟩

theorem hasSealed_eq (hout : s'.out = s.out) : s'.HasSealed own = s.HasSealed own := by
  funext f
  rw [HasSealed, HasSealed, hout]

/-- Keys are forgotten. -/
theorem Keyed.forget (h : s.Keyed user known own owners) (huser : s'.userId = s.userId)
    (hkeys : ∀ v p, s'.keys.relayKeys.get? v = some p → s.keys.relayKeys.get? v = some p)
    (hpromises : s'.keys.promises = s.keys.promises)
    (hcaptures : ∀ c ∈ s'.captures, ∃ c' ∈ s.captures, c.key = c'.key ∧ c.peerId = c'.peerId)
    (htasks : ∀ t ∈ s'.tasks, t ∈ s.tasks) (hout : s'.out = s.out) :
    s'.Keyed user known own owners := by
  refine ⟨huser ▸ h.userId, hpromises ▸ h.length, fun v p hp => h.cached v p (hkeys v p hp), ?_, ?_,
    ?_, ?_⟩
  · intro p v k hp hk
    rw [RelayKeys.settled?, hpromises] at hk
    exact h.settled p v k hp hk
  · intro c hc
    obtain ⟨c', hc', hkey, hpeer⟩ := hcaptures c hc
    rw [hkey, hpeer]
    exact h.captures c' hc'
  · rw [hasSealed_eq hout]
    exact fun t ht => h.tasks t (htasks t ht)
  · rw [hasSealed_eq hout, hout]
    exact h.out

theorem Keyed.of_eq (h : s.Keyed user known own owners) (huser : s'.userId = s.userId)
    (hkeys : s'.keys.relayKeys = s.keys.relayKeys) (hpromises : s'.keys.promises = s.keys.promises)
    (hcaptures : s'.captures = s.captures) (htasks : s'.tasks = s.tasks) (hout : s'.out = s.out) :
    s'.Keyed user known own owners :=
  h.forget huser (fun _ _ => hkeys ▸ id) hpromises (fun c hc => ⟨c, hcaptures ▸ hc, rfl, rfl⟩)
    (fun _ => htasks ▸ id) hout

/-- A promise more, of a key of the peer it is cached for. -/
theorem Keyed.promise (h : s.Keyed user known own owners) (peerId : UserId)
    (value : Option (Option RelayKey)) (hvalue : ∀ k, value = some (some k) → k.IsOf user peerId)
    (huser : s'.userId = s.userId)
    (hkeys : s'.keys.relayKeys = s.keys.relayKeys.set peerId s.keys.promises.length)
    (hpromises : s'.keys.promises = s.keys.promises ++ [value])
    (hcaptures : s'.captures = s.captures)
    (htasks : ∀ t ∈ s'.tasks, t ∈ s.tasks ∨ t = ⟨peerId, .deriveNonce s.keys.promises.length⟩)
    (hout : s'.out = s.out) : s'.Keyed user known own (owners ++ [peerId]) := by
  have hnew : (owners ++ [peerId])[s.keys.promises.length]? = some peerId := by
    rw [← h.length, List.getElem?_concat_length]
  refine ⟨huser ▸ h.userId, ?_, fun v p hp => ?_, fun p v k hp hk => ?_, hcaptures ▸ h.captures,
    ?_, ?_⟩
  · rw [hpromises, List.length_append, List.length_append, h.length]
    rfl
  · rw [hkeys, InsMap.get?_set] at hp
    split_ifs at hp with hv
    · cases hp
      rw [hv, hnew]
    · rw [List.getElem?_append_left (List.getElem?_eq_some_iff.1 (h.cached v p hp)).1]
      exact h.cached v p hp
  · rw [RelayKeys.settled?, hpromises] at hk
    -- The promise was there before, or it is the new one.
    rcases Nat.lt_or_ge p owners.length with hlt | hge
    · rw [List.getElem?_append_left hlt] at hp
      rw [List.getElem?_append_left (h.length ▸ hlt)] at hk
      exact h.settled p v k hp hk
    · have hle := (List.getElem?_eq_some_iff.1 hp).1
      rw [List.length_append, List.length_singleton] at hle
      obtain rfl : p = s.keys.promises.length :=
        (Nat.le_antisymm (Nat.le_of_lt_succ hle) hge).trans h.length
      rw [hnew] at hp
      cases hp
      rw [List.getElem?_concat_length] at hk
      exact hvalue k (Option.some.inj (Option.join_eq_some_iff.1 hk))
  · intro t ht
    rw [hasSealed_eq hout]
    rcases htasks t ht with ht | rfl
    · exact (h.tasks t ht).mono (fun _ => id) (fun _ => id) (List.prefix_append _ _)
    · exact hnew
  · rw [hasSealed_eq hout, hout]
    exact h.out

/-- The promise of `resolveRelaySharedKey` is of a key of the peer. -/
theorem Keyed.resolve (h : s.Keyed user known own owners) (peerId : UserId) :
    ∃ owners', owners <+: owners' ∧ (s.resolveRelaySharedKey peerId).Keyed user known own owners' ∧
      owners'[s.keys.promise peerId]? = some peerId := by
  cases hget : s.keys.relayKeys.get? peerId with
  | some p =>
    refine ⟨owners, List.prefix_rfl, h.of_eq rfl ?_ ?_ rfl ?_ rfl, ?_⟩
    · rw [resolveRelaySharedKey, RelayKeys.resolve, hget]
    · rw [resolveRelaySharedKey, RelayKeys.resolve, hget]
    · rw [resolveRelaySharedKey, InsMap.has_iff.2 ⟨p, hget⟩, if_pos rfl, List.append_nil]
    · rw [RelayKeys.promise, hget]
      exact h.cached peerId p hget
  | none =>
    refine ⟨owners ++ [peerId], List.prefix_append _ _, h.promise peerId none nofun rfl ?_
      ?_ rfl (fun t ht => ?_) rfl, ?_⟩
    · rw [resolveRelaySharedKey, RelayKeys.resolve, hget]
    · rw [resolveRelaySharedKey, RelayKeys.resolve, hget]
    · rw [resolveRelaySharedKey, InsMap.has_eq_false.2 hget, if_neg Bool.false_ne_true] at ht
      exact (List.mem_append.1 ht).imp_right List.mem_singleton.1
    · rw [RelayKeys.promise, hget, Option.getD_none, ← h.length, List.getElem?_concat_length]

/-- A promise is settled, without a key or with one of its peer. -/
theorem Keyed.settle (h : s.Keyed user known own owners) {p : PromiseId} {key : Option RelayKey}
    (hkey : ∀ v k, owners[p]? = some v → key = some k → k.IsOf user v) :
    ({ s with keys := s.keys.settle p key } : Hook).Keyed user known own owners := by
  refine ⟨h.userId, ?_, h.cached, fun q v k hq hk => ?_, h.captures, h.tasks, h.out⟩
  · exact h.length.trans (List.length_set ..).symm
  · rw [RelayKeys.settled?, RelayKeys.settle, List.getElem?_set] at hk
    by_cases hpq : p = q
    · subst hpq
      rw [if_pos rfl] at hk
      split_ifs at hk
      · exact hkey v k hq (Option.some.inj hk)
      · cases hk
    · rw [if_neg hpq] at hk
      exact h.settled q v k hq hk

theorem Keyed.ensureRelayPlayer (h : s.Keyed user known own owners) (peerId : UserId) :
    (s.ensureRelayPlayer peerId).Keyed user known own owners := by
  rw [Hook.ensureRelayPlayer]
  split_ifs
  · exact h
  · exact h.of_eq rfl rfl rfl rfl rfl rfl

theorem Keyed.stopRelayPeer (h : s.Keyed user known own owners) (peerId : UserId) :
    (s.stopRelayPeer peerId).Keyed user known own owners := by
  refine h.forget rfl (fun v p hp => ?_) rfl (fun _ => kept_of_stopCapture) (fun _ => id) rfl
  change (s.keys.relayKeys.delete peerId).get? v = some p at hp
  rw [InsMap.get?_delete] at hp
  split_ifs at hp
  exact hp

theorem Keyed.setRelayCallNonce (h : s.Keyed user known own owners) (peerId : UserId)
    (callNonce : Option Nonce) :
    (s.setRelayCallNonce peerId callNonce).Keyed user known own owners := by
  cases callNonce with
  | none => exact h
  | some callNonce =>
    have hkeys : (s.setRelayCallNonce peerId (some callNonce)).keys =
        s.keys.setRelayCallNonce peerId (some callNonce) := rfl
    rw [RelayKeys.setRelayCallNonce] at hkeys
    split_ifs at hkeys
    · exact h.of_eq rfl (by rw [hkeys]) (by rw [hkeys]) rfl rfl rfl
    · refine h.forget rfl (fun v p hp => ?_) (by rw [hkeys])
        (fun c hc => ⟨c, hc, rfl, rfl⟩) (fun _ => id) rfl
      rw [hkeys, InsMap.get?_delete] at hp
      split_ifs at hp
      exact hp

/-- A capture starts, with a key of its peer. -/
theorem Keyed.relayCaptureStarted (h : s.Keyed user known own owners) {peerId : UserId}
    {key : RelayKey} (hkey : key.IsOf user peerId) (stream : Feed) :
    (s.relayCaptureStarted peerId stream key).Keyed user known own owners := by
  have hstarted : Keyed user known own owners { s with
      captures := s.captures ++ [⟨peerId, stream.audio, key, true, false⟩]
      relayCaptures := s.relayCaptures.set peerId s.captures.length
      relayPeers := s.relayPeers.add peerId } := by
    exact ⟨h.userId, h.length, h.cached, h.settled,
      List.forall_mem_append.2 ⟨h.captures, List.forall_mem_singleton.2 hkey⟩, h.tasks, h.out⟩
  exact hstarted.emit (o := .captureStarted peerId) trivial

/-- What a running capture hears is sealed for its peer. -/
theorem Keyed.captureChunk (h : s.Keyed user known own owners) {i : ℕ} {capture : Capture}
    (hcapture : s.captures[i]? = some capture) (sampleRate : ℕ) (pcm : Pcm) :
    (s.captureChunk i capture sampleRate pcm).Keyed user known own owners := by
  have hmem := List.mem_of_getElem? hcapture
  have hset : ∀ relaySeqOut, Keyed user known own owners { s with
      captures := s.captures.set i { capture with busy := true }
      keys := { s.keys with relaySeqOut } } := by
    intro relaySeqOut
    refine h.forget rfl (fun _ _ => id) rfl (fun c hc => ?_) (fun _ => id) rfl
    rcases List.mem_or_eq_of_mem_set hc with hc | rfl
    · exact ⟨c, hc, rfl, rfl⟩
    · exact ⟨capture, hmem, rfl, rfl⟩
  have hfrom : SealedFrame.IsFrom ⟨capture.key, ⟨s.userId, capture.peerId,
      (s.keys.relaySeqOut.get? capture.peerId).getD 0 + 1⟩, pcm⟩ user capture.peerId :=
    ⟨h.captures capture hmem, h.userId, rfl⟩
  exact ((hset _).emit (o := .seal _) hfrom).await
    ⟨hfrom, .inr (List.mem_append_right _ List.mem_cons_self)⟩

theorem Keyed.frameSealed (h : s.Keyed user known own owners) {peerId : UserId}
    {frame : SealedFrame} (hfrom : frame.IsFrom user peerId) (hown : own frame) (i sampleRate : ℕ) :
    (s.frameSealed peerId i sampleRate frame).Keyed user known own owners := by
  refine Keyed.emit ?_ ⟨frame, rfl, rfl, hfrom, .inl hown⟩
  exact h.forget rfl (fun _ _ => id) rfl (fun _ hc => kept_of_modify hc fun _ => ⟨rfl, rfl⟩)
    (fun _ => id) rfl

theorem Keyed.playFrame (h : s.Keyed user known own owners) {peerId : UserId} {frame : SealedFrame}
    (hfrom : frame.IsFrom peerId user) (hknown : known frame) (sampleRate seq : ℕ) :
    (s.playFrame peerId frame sampleRate seq).Keyed user known own owners := by
  have hseq : Keyed user known own owners { s with
      keys := { s.keys with relaySeqIn := s.keys.relaySeqIn.set peerId seq } } :=
    h.of_eq rfl rfl rfl rfl rfl rfl
  exact ((hseq.ensureRelayPlayer peerId).emit (o := .play peerId frame sampleRate)
    ⟨hfrom, hknown⟩).await trivial

/-- Every move uses the keys for the peers they are of. -/
theorem Keyed.moves (h₀ : s₀.Keyed user known own owners) (hout : s₀.out = [])
    (he : ∀ v frame sampleRate seq,
      e = .recv v (.signal (.relayFrame (some frame) sampleRate seq)) → known frame)
    (h : Moves s₀ e s) : ∃ owners', owners <+: owners' ∧ s.Keyed user known own owners' := by
  have hnew : ∀ f, s₀.HasSealed own f → own f := by
    rintro f (hf | hf)
    · exact hf
    · rw [hout] at hf
      cases hf
  have htask : ∀ {peerId stage owners'}, ⟨peerId, stage⟩ ∈ s₀.tasks → owners <+: owners' →
      stage.Keyed user peerId known own owners' := fun ht howners =>
    (h₀.tasks _ ht).mono (fun _ => id) hnew howners
  induction h with
  | refl => exact ⟨owners, List.prefix_rfl, h₀⟩
  | same _ hsame ih =>
    obtain ⟨owners', howners, ih⟩ := ih
    exact ⟨owners', howners, ih.of_eq hsame.userId (by rw [hsame.keys]) (by rw [hsame.keys])
      hsame.captures hsame.tasks hsame.out⟩
  | emit _ ho ih => exact ih.imp fun _ ih => ⟨ih.1, ih.2.emit (.of_isPlain ho)⟩
  | drop i _ ih =>
    obtain ⟨owners', howners, ih⟩ := ih
    exact ⟨owners', howners, ih.forget rfl (fun _ _ => id) rfl (fun c hc => ⟨c, hc, rfl, rfl⟩)
      (fun _ => List.mem_of_mem_eraseIdx) rfl⟩
  | await _ hstage _ ih => exact ih.imp fun _ ih => ⟨ih.1, ih.2.await (.of_isPlain hstage)⟩
  | timer _ _ ih => exact ih.imp fun _ ih => ⟨ih.1, ih.2.of_eq rfl rfl rfl rfl rfl rfl⟩
  | nonce peerId callNonce _ ih =>
    exact ih.imp fun _ ih => ⟨ih.1, ih.2.setRelayCallNonce peerId callNonce⟩
  | @resolve s peerId stage _ hkey _ ih =>
    obtain ⟨owners', howners, ih⟩ := ih
    obtain ⟨owners'', howners', hresolved, howner⟩ := ih.resolve peerId
    exact ⟨owners'', howners.trans howners', hresolved.await (.of_setupKey hkey howner)⟩
  | derive nonce _ ht ih =>
    exact ih.imp fun _ ih => ⟨ih.1, ih.2.await (htask ht ih.1)⟩
  | @derived s peerId key nonce _ ht ih =>
    obtain ⟨owners', howners, ih⟩ := ih
    refine ⟨owners', howners, ih.settle fun v k hv hk => ?_⟩
    obtain rfl : peerId = v := Option.some.inj ((htask ht howners).symm.trans hv)
    exact ⟨nonce, by rw [← ih.userId]; exact (Option.some.inj hk).symm⟩
  | underived key _ ih => exact ih.imp fun _ ih => ⟨ih.1, ih.2.settle fun _ _ _ hk => by cases hk⟩
  | @enter s peerId stage key sharedKey _ ht hkey hsettled ih =>
    obtain ⟨owners', howners, ih⟩ := ih
    -- What is put for the peer is what a promise of this peer has settled to.
    have hof := ih.settled key peerId sharedKey ((htask ht howners).setupKey hkey) hsettled
    refine ⟨owners' ++ [peerId], howners.trans (List.prefix_append _ _),
      ih.promise peerId (some (some sharedKey)) (fun k hk => ?_) rfl rfl rfl rfl
        (fun _ => .inl) rfl⟩
    obtain rfl : sharedKey = k := Option.some.inj (Option.some.inj hk)
    exact hof
  | @ready s peerId caller stream key sharedKey _ ht hsettled ih =>
    obtain ⟨owners', howners, ih⟩ := ih
    exact ⟨owners', howners, ih.await (ih.settled key peerId sharedKey (htask ht howners) hsettled)⟩
  | capture _ ht ih =>
    exact ih.imp fun _ ih => ⟨ih.1, ih.2.relayCaptureStarted (htask ht ih.1) _⟩
  | player peerId _ ih => exact ih.imp fun _ ih => ⟨ih.1, ih.2.ensureRelayPlayer peerId⟩
  | stop peerId _ ih => exact ih.imp fun _ ih => ⟨ih.1, ih.2.stopRelayPeer peerId⟩
  | chunk _ hcapture => exact ⟨owners, List.prefix_rfl, h₀.captureChunk hcapture _ _⟩
  | «sealed» _ ht ih =>
    obtain ⟨owners', howners, ih⟩ := ih
    obtain ⟨hfrom, hown⟩ := htask ht howners
    exact ⟨owners', howners, ih.frameSealed hfrom hown _ _⟩
  | @receive s peerId frame sampleRate seq _ hrecv ih =>
    obtain ⟨owners', howners, ih⟩ := ih
    obtain ⟨owners'', howners', hresolved, howner⟩ := ih.resolve peerId
    exact ⟨owners'', howners.trans howners', hresolved.await ⟨howner, he _ _ _ _ hrecv⟩⟩
  | @lookUp s peerId frame sampleRate seq key sharedKey _ ht hsettled ih =>
    obtain ⟨owners', howners, ih⟩ := ih
    obtain ⟨howner, hknown⟩ := htask ht howners
    exact ⟨owners', howners, ih.await ⟨ih.settled key peerId sharedKey howner hsettled, hknown⟩⟩
  | @play s peerId frame sampleRate seq key _ ht hopen ih =>
    obtain ⟨owners', howners, ih⟩ := ih
    obtain ⟨hkey, hknown⟩ := htask ht howners
    -- A frame opens under the key it is sealed with, and the names that are asked for.
    rw [decryptBytes] at hopen
    split_ifs at hopen with hframe
    · obtain ⟨rfl, haad⟩ := hframe
      refine ⟨owners', howners, ih.playFrame ⟨hkey.comm, ?_, ?_⟩ hknown _ _⟩
      · rw [haad]
      · rw [haad, ← ih.userId]
    · cases hopen

end

end Hook

/-! ## The network -/

/-- The hooks, and who has sealed which frames. -/
structure Network where
  hooks : InsMap UserId Hook
  «sealed» : List (UserId × SealedFrame)

namespace Network

/-- The server has a frame: somebody has sealed it, or one of the two whose key it is under is not
    among the hooks. -/
def Known (n : Network) (frame : SealedFrame) : Prop :=
  (∃ p ∈ n.sealed, p.2 = frame) ∨ n.hooks.has frame.key.lo = false ∨
    n.hooks.has frame.key.hi = false

instance (n : Network) (frame : SealedFrame) : Decidable (n.Known frame) := by
  unfold Known
  infer_instance

/-- The frame that a message brings. -/
def brought : HookEvent → Option SealedFrame
  | .recv _ (.signal (.relayFrame frame _ _)) => frame
  | _ => none

/-- The frame that is sealed. -/
def sealedFrame : Output → Option SealedFrame
  | .seal frame => some frame
  | _ => none

/-- A step of a hook; a frame that it receives is one that the server has. -/
def step (n : Network) (e : UserId × HookEvent) : Option Network :=
  (n.hooks.get? e.1).bind fun s =>
    if ∀ frame ∈ brought e.2, n.Known frame then
      (hook.step s e.2).map fun s' =>
        { hooks := n.hooks.set e.1 s'
          «sealed» := n.sealed ++ (s'.out.filterMap sealedFrame).map (e.1, ·) }
    else none

/-- No user has made a call yet. -/
def IsInitial (n : Network) : Prop :=
  (∀ u s, n.hooks.get? u = some s →
    ∃ activeChatId dndEnabled, s = .idle u activeChatId dndEnabled) ∧ n.sealed = []

end Network

def network : Machine Network (UserId × HookEvent) where
  init := Network.IsInitial
  step := Network.step

namespace Network

/-- Every hook uses its keys for the peers they are of, and whoever has sealed a frame, has
    sealed it with the key of the user it is for. -/
structure Sound (n : Network) : Prop where
  hooks : ∀ u s, n.hooks.get? u = some s →
    ∃ owners, Hook.Keyed u n.Known (fun f => (u, f) ∈ n.sealed) owners { s with out := [] }
  «sealed» : ∀ u f, (u, f) ∈ n.sealed → f.IsFrom u f.aad.toId

theorem step_eq_some {n n' : Network} {u : UserId} {e : HookEvent}
    (h : network.step n (u, e) = some n') : ∃ s s', n.hooks.get? u = some s ∧
      (∀ frame ∈ brought e, n.Known frame) ∧ hook.step s e = some s' ∧
      n'.hooks = n.hooks.set u s' ∧
      n'.sealed = n.sealed ++ (s'.out.filterMap sealedFrame).map (u, ·) := by
  obtain ⟨s, hs, h⟩ := Option.bind_eq_some_iff.1 h
  obtain ⟨hknown, h⟩ := Option.ite_none_right_eq_some.1 h
  obtain ⟨s', hs', rfl⟩ := Option.map_eq_some_iff.1 h
  exact ⟨s, s', hs, hknown, hs', rfl, rfl⟩

theorem mem_sealed_step {n : Network} {u v : UserId} {s' : Hook} {f : SealedFrame} :
    (v, f) ∈ n.sealed ++ (s'.out.filterMap sealedFrame).map (u, ·) ↔
      (v, f) ∈ n.sealed ∨ v = u ∧ .seal f ∈ s'.out := by
  rw [List.mem_append, List.mem_map]
  refine or_congr_right ⟨?_, ?_⟩
  · rintro ⟨f', hf', heq⟩
    cases heq
    obtain ⟨o, ho, hseal⟩ := List.mem_filterMap.1 hf'
    cases o with
    | «seal» =>
      cases hseal
      exact ⟨rfl, ho⟩
    | _ => cases hseal
  · rintro ⟨rfl, ho⟩
    exact ⟨f, List.mem_filterMap.2 ⟨_, ho, rfl⟩, rfl⟩

/-- The users who run a hook stay the same, and the server forgets no frame. -/
theorem has_step {n n' : Network} {e : UserId × HookEvent} (h : network.step n e = some n')
    (u : UserId) : n'.hooks.has u = n.hooks.has u := by
  obtain ⟨s, s', hs, -, -, hhooks, -⟩ := step_eq_some h
  rw [hhooks, InsMap.has_set]
  by_cases hu : u = e.1
  · rw [hu, InsMap.has_iff.2 ⟨s, hs⟩, Bool.or_true]
  · rw [decide_eq_false hu, Bool.false_or]

theorem Known.step {n n' : Network} {e : UserId × HookEvent} (h : network.step n e = some n')
    {f : SealedFrame} (hf : n.Known f) : n'.Known f := by
  obtain ⟨_, _, _, _, _, _, hsealed⟩ := step_eq_some h
  rw [Known, has_step h, has_step h, hsealed]
  exact hf.imp_left fun ⟨p, hp, hpf⟩ => ⟨p, List.mem_append_left _ hp, hpf⟩

theorem sound_of_isInitial {n : Network} (h : n.IsInitial) : n.Sound := by
  refine ⟨fun u s hs => ?_, fun u f hf => ?_⟩
  · obtain ⟨activeChatId, dndEnabled, rfl⟩ := h.1 u s hs
    exact ⟨[], rfl, rfl, nofun, nofun, nofun, nofun, nofun⟩
  · rw [h.2] at hf
    cases hf

/-- What a step of a hook says is of its own keys, and so is what it leaves. -/
theorem Sound.step {n n' : Network} (h : n.Sound) {u : UserId} {e : HookEvent}
    (hstep : network.step n (u, e) = some n') :
    n'.Sound ∧ ∀ s, n'.hooks.get? u = some s →
      ∀ o ∈ s.out, o.Keyed u n.Known fun f => (u, f) ∈ n'.sealed := by
  obtain ⟨s, s', hs, hbrought, hs', hhooks, hsealed⟩ := step_eq_some hstep
  obtain ⟨owners, hkeyed⟩ := h.hooks u s hs
  obtain ⟨owners', -, hkeyed'⟩ := hkeyed.moves rfl
    (fun v frame sampleRate seq he => hbrought frame (by rw [he]; exact rfl)) (moves_of_step hs')
  have hown : ∀ f, s'.HasSealed (fun f => (u, f) ∈ n.sealed) f → (u, f) ∈ n'.sealed := by
    intro f hf
    rw [hsealed, mem_sealed_step]
    exact hf.imp_right fun hf => ⟨rfl, hf⟩
  refine ⟨⟨fun v t ht => ?_, fun v f hf => ?_⟩, fun t ht o ho => ?_⟩
  · rw [hhooks, InsMap.get?_set] at ht
    split_ifs at ht with hv
    · cases ht
      subst hv
      exact ⟨owners', hkeyed'.userId, hkeyed'.length, hkeyed'.cached, hkeyed'.settled,
        hkeyed'.captures, fun t ht => (hkeyed'.tasks t ht).mono (fun _ => Known.step hstep)
          (fun f hf => .inl (hown f hf)) List.prefix_rfl,
        List.forall_mem_nil _⟩
    · obtain ⟨owners, hother⟩ := h.hooks v t ht
      refine ⟨owners, hother.userId, hother.length, hother.cached, hother.settled, hother.captures,
        fun t ht => (hother.tasks t ht).mono (fun _ => Known.step hstep) (fun f hf => ?_)
          List.prefix_rfl, List.forall_mem_nil _⟩
      rcases hf with hf | hf
      · exact .inl (hsealed ▸ List.mem_append_left _ hf)
      · cases hf
  · rw [hsealed, mem_sealed_step] at hf
    rcases hf with hf | ⟨rfl, hf⟩
    · exact h.sealed v f hf
    · exact hkeyed'.out _ hf
  · rw [hhooks, InsMap.get?_set_self] at ht
    cases ht
    exact (hkeyed'.out o ho).mono hown

/-! ## Runs -/

/-- In a run, a user has said something into a capture that was running for another. -/
def Said (n₀ : Network) (es : List (UserId × HookEvent)) (speaker listener : UserId) (pcm : Pcm) :
    Prop :=
  ∃ es₁ i sampleRate es₂ n s capture, es = es₁ ++ (speaker, .chunk i sampleRate pcm) :: es₂ ∧
    network.run n₀ es₁ = some n ∧ n.hooks.get? speaker = some s ∧ s.captures[i]? = some capture ∧
    capture.running = true ∧ capture.track ∈ s.media.live ∧ capture.peerId = listener

theorem Said.append {n₀ : Network} {es : List (UserId × HookEvent)} {speaker listener : UserId}
    {pcm : Pcm} (h : Said n₀ es speaker listener pcm) (es' : List (UserId × HookEvent)) :
    Said n₀ (es ++ es') speaker listener pcm := by
  obtain ⟨es₁, i, sampleRate, es₂, n, s, capture, rfl, hrest⟩ := h
  exact ⟨es₁, i, sampleRate, es₂ ++ es', n, s, capture, by simp, hrest⟩

theorem sound_of_run {n₀ n : Network} (h₀ : n₀.IsInitial) {es : List (UserId × HookEvent)}
    (hrun : network.run n₀ es = some n) : n.Sound :=
  Machine.run_invariant (I := Sound) (P := fun _ => True)
    (fun _ e _ h _ hstep => (h.step (e := e.2) hstep).1) (fun _ _ => trivial)
    (sound_of_isInitial h₀) hrun

end Network

section
variable {n₀ n : Network} {es : List (UserId × HookEvent)} {u v : UserId} {e : HookEvent} {s : Hook}

end

namespace Sample

/-- The users 1 and 2. -/
def users : Network :=
  ⟨((∅ : InsMap UserId Hook).set 1 (.idle 1 none false)).set 2 (.idle 2 none false), []⟩

/-- What the user 1 says in the relayed call. -/
def frame : SealedFrame := ⟨⟨1, 2, some 5⟩, ⟨1, 2, 1⟩, [1]⟩

/-- The user 2 takes the call, and receives the frame. -/
def answered : List HookEvent :=
  [.recv 1 (.signal (.relayOffer (some 5))), .accept, .resume 0 .ok, .resume 0 .ok, .resume 0 .ok,
    .resume 1 .ok, .resume 0 .ok, .resume 0 .ok, .resume 0 .ok, .resume 0 .ok,
    .recv 1 (.signal (.relayFrame (some frame) (some 16000) (some 1))), .resume 0 .ok]

/-- Up to the playing of the frame. -/
def heard : List (UserId × HookEvent) := relayed.map (1, ·) ++ answered.map (2, ·)

/-- Up to the sending of the frame. -/
def unsent : List (UserId × HookEvent) := relayed.dropLast.map (1, ·)

end Sample

open Sample

end OneToThree.Call
