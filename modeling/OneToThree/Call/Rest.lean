import Mathlib.Data.List.Induction
import OneToThree.Call.Moves

/-!
# A hook at rest

A hook that is in no call, with nothing pending that would set one up (`Hook.AtRest`), stays so
whatever the others send: until the user dials or accepts, no media are asked for, nothing is
captured, sealed or played, and of the calls of others only refusals are sent
(`quiet_of_run`). A room is still joined on a `promote_to_group` alone. Its sender must be
ringing, or must have been purged within the last 30 seconds, and every `call_leave` and every
`call_reject` purges its sender, in a call or not.

* A user who has neither dialled nor accepted yet is at rest (`atRest_idle`).
* Hanging up brings a hook to rest if nothing but idle functions is pending, and each running
  capture is registered, or reads the local stream (`final_of_hangUp`). For this, whoever is
  captured for is a relay peer (`Linked`).
-/

namespace OneToThree.Call

/-- The functions that neither ask for media nor reach a peer any more. -/
def Stage.isIdle : Stage → Bool
  | .framePlayed | .deriveNonce _ | .deriveSecret _ _ => true
  | _ => false

/-- The user asks for a call, or takes one. -/
def HookEvent.isDial : HookEvent → Bool
  | .start _ _ _ | .accept => true
  | _ => false

/-- A message upon which its sender is purged. -/
def HookEvent.purges (fromId : UserId) : HookEvent → Bool
  | .recv fromId' (.callLeave _) | .recv fromId' (.callReject _) => fromId' = fromId
  | _ => false

/-- Refusing a call, leaving one, and moving into a room. -/
def Output.isQuiet : Output → Bool
  | .send (.callReject _) | .send (.callLeave _) | .joinGroupCall _ _ => true
  | _ => false

namespace Hook

/-- What tells whether a hook is at rest. -/
def parts (s : Hook) :=
  (s.store.isCalling, s.store.localStream, s.pcs, s.relayPeers, s.captures, s.media, s.tasks)

structure AtRest (s : Hook) : Prop where
  isCalling : s.store.isCalling = false
  localStream : s.store.localStream = none
  pcs : s.pcs.keys = []
  relayPeers : s.relayPeers.keys = []
  /-- A capture that was never stopped has nothing to read. -/
  silent : ∀ c ∈ s.captures, c.running = true → c.track ∉ s.media.live
  tasks : ∀ t ∈ s.tasks, t.stage.isIdle = true

theorem atRest_idle (userId : UserId) (activeChatId : Option ChatId) (dndEnabled : Bool) :
    (idle userId activeChatId dndEnabled).AtRest :=
  ⟨rfl, rfl, rfl, rfl, fun _ hc => absurd hc List.not_mem_nil,
    fun _ ht => absurd ht List.not_mem_nil⟩

section
variable {s s' : Hook}

/-- What a function goes on with if it is set aside. -/
theorem AtRest.await (h : s.AtRest) (peerId : UserId) {stage : Stage}
    (hstage : stage.isIdle = true) : (s.await peerId stage).AtRest := by
  exact ⟨h.isCalling, h.localStream, h.pcs, h.relayPeers, h.silent,
    List.forall_mem_append.2 ⟨h.tasks, List.forall_mem_singleton.2 hstage⟩⟩

/-- What a hook at rest is not concerned by. -/
theorem AtRest.of_eq (h : s.AtRest) (hparts : s'.parts = s.parts) : s'.AtRest := by
  simp only [parts, Prod.mk.injEq] at hparts
  obtain ⟨hcalling, hstream, hpcs, hpeers, hcaptures, hmedia, htasks⟩ := hparts
  exact ⟨hcalling ▸ h.isCalling, hstream ▸ h.localStream, hpcs ▸ h.pcs, hpeers ▸ h.relayPeers,
    hcaptures ▸ hmedia ▸ h.silent, htasks ▸ h.tasks⟩

theorem AtRest.purgePeer (h : s.AtRest) (peerId : UserId) : (s.purgePeer peerId).AtRest := by
  have hpcs : (s.pcs.delete peerId).keys = [] := by rw [InsMap.keys_delete, h.pcs]; rfl
  have hpeers : (s.relayPeers.delete peerId).keys = [] := by
    rw [InsMap.keys_delete, h.relayPeers]
    rfl
  refine ⟨h.isCalling, h.localStream, hpcs, hpeers, fun c hc hrunning => ?_, h.tasks⟩
  obtain ⟨c', hc', rfl | rfl⟩ := mem_stopCapture hc
  · exact h.silent c hc' hrunning
  · cases hrunning

/-- Releasing media brings no track to life. -/
theorem live_release {m : Media} {stream : Option Feed} {track : TrackId}
    (h : track ∈ (m.release stream).live) : track ∈ m.live := by
  simp only [Media.release, Media.terminateFeed, Media.disposeVoice, Media.disposeCamera,
    Media.stop, List.mem_filter] at h
  exact h.1.1.1.1

/-- Nobody is left to be purged. -/
theorem AtRest.severAllLinks_eq (h : s.AtRest) : s.severAllLinks =
    { s.clearConnectTimeout with
      p2pFallbackStarted := ∅
      media := s.media.release s.store.localStream
      store := s.store.reset
      out := s.out ++ ((s.store.callChatId <|> s.activeChatId).toList.map fun chatId =>
        Output.send (.callLeave chatId)) } := by
  have hpcs := h.pcs
  have hpeers := h.relayPeers
  simp only [Hook.severAllLinks, Hook.clearConnectTimeout, purgePeers, hpcs, hpeers, List.foldl_nil]

theorem AtRest.severAllLinks (h : s.AtRest) : s.severAllLinks.AtRest := by
  rw [h.severAllLinks_eq]
  exact ⟨rfl, rfl, h.pcs, h.relayPeers, fun c hc hrunning hlive =>
    h.silent c hc hrunning (live_release hlive), h.tasks⟩

theorem AtRest.receiveLeave (h : s.AtRest) (fromId : UserId) :
    s.receiveLeave fromId = s.purgePeer fromId := by
  have hcalling := (h.purgePeer fromId).isCalling
  rw [Hook.receiveLeave, if_neg]
  rw [hcalling]
  exact fun h => Bool.false_ne_true h.2

theorem AtRest.receiveReject (h : s.AtRest) (fromId : UserId) :
    s.receiveReject fromId = s.purgePeer fromId := by
  have hcalling := (h.purgePeer fromId).isCalling
  rw [Hook.receiveReject, if_neg]
  rw [hcalling]
  exact Bool.false_ne_true

/-- What an event may do to a hook at rest. -/
structure Rests (s : Hook) (e : HookEvent) (s' : Hook) : Prop where
  atRest : s'.AtRest
  quiet : ∀ o ∈ s'.out, o.isQuiet = true
  joins : ∀ chatId video, Output.joinGroupCall chatId video ∈ s'.out → ∃ fromId,
    e = .recv fromId (.signal (.promoteToGroup (some chatId))) ∧ s.inCallWith fromId = true
  recent : s'.recentCallPeer = s.recentCallPeer ∨
    ∃ fromId, e.purges fromId = true ∧ s'.recentCallPeer = some ⟨fromId, s.now + 30000⟩

theorem Rests.of_out {e : HookEvent} (h : s'.AtRest)
    (hout : ∀ o ∈ s'.out, ∃ chatId, o = .send (.callReject chatId) ∨ o = .send (.callLeave chatId))
    (hrecent : s'.recentCallPeer = s.recentCallPeer ∨
      ∃ fromId, e.purges fromId = true ∧ s'.recentCallPeer = some ⟨fromId, s.now + 30000⟩) :
    s.Rests e s' := by
  refine ⟨h, fun o ho => ?_, fun chatId video ho => ?_, hrecent⟩
  · obtain ⟨chatId, rfl | rfl⟩ := hout o ho <;> rfl
  · obtain ⟨chatId', h | h⟩ := hout _ ho <;> cases h

theorem Rests.of_silent {e : HookEvent} (h : s'.AtRest) (hout : s'.out = [])
    (hrecent : s'.recentCallPeer = s.recentCallPeer) : s.Rests e s' :=
  .of_out h (fun _ ho => absurd (hout ▸ ho) List.not_mem_nil) (.inl hrecent)

/-- Who is moved into a room is in a call with the sender, or has been. -/
theorem AtRest.receivePromote (h : s.AtRest) (hout : s.out = []) (fromId : UserId)
    (chatId : Option ChatId) : s.Rests (.recv fromId (.signal (.promoteToGroup chatId)))
      (s.receivePromote fromId chatId) := by
  cases chatId with
  | none => exact .of_silent h hout rfl
  | some chatId =>
    rw [Hook.receivePromote]
    split_ifs with hin
    · have hleft : ∀ o ∈ s.severAllLinks.out, ∃ chatId, o = .send (.callLeave chatId) := by
        rw [h.severAllLinks_eq, hout, List.nil_append]
        intro o ho
        obtain ⟨chatId, -, rfl⟩ := List.mem_map.1 ho
        exact ⟨chatId, rfl⟩
      have hemit : (s.severAllLinks.emit (.joinGroupCall chatId false)).AtRest :=
        h.severAllLinks.of_eq rfl
      refine ⟨hemit, fun o ho => ?_, fun chatId' video ho => ⟨fromId, ?_, hin⟩, .inl ?_⟩
      · rcases List.mem_append.1 ho with ho | ho
        · obtain ⟨chatId', rfl⟩ := hleft o ho
          rfl
        · rw [List.mem_singleton.1 ho]
          rfl
      · rcases List.mem_append.1 ho with ho | ho
        · obtain ⟨_, heq⟩ := hleft _ ho
          cases heq
        · cases List.mem_singleton.1 ho
          rfl
      · rw [emit, h.severAllLinks_eq]
        rfl
    · exact .of_silent h hout rfl

theorem AtRest.receiveSignal (h : s.AtRest) (hout : s.out = []) (fromId : UserId) (data : Signal) :
    s.Rests (.recv fromId (.signal data)) (s.receiveSignal fromId data) := by
  cases data with
  | promoteToGroup chatId => exact h.receivePromote hout fromId chatId
  | relayOffer callNonce =>
    have hnonce : (s.setRelayCallNonce fromId callNonce).AtRest := h.of_eq rfl
    rw [Hook.receiveSignal, receiveRelayOffer, if_neg (by simp [hnonce.isCalling])]
    exact .of_silent (hnonce.of_eq rfl) hout rfl
  | relayAnswer callNonce =>
    have hanswer : s.receiveRelayAnswer fromId callNonce =
        { s.setRelayCallNonce fromId callNonce with
          relayAwaitingAnswer := s.relayAwaitingAnswer.delete fromId }.clearConnectTimeout := by
      have hstream := h.localStream
      simp only [Hook.receiveRelayAnswer, Hook.clearConnectTimeout, Hook.setRelayCallNonce, hstream]
    rw [Hook.receiveSignal, hanswer]
    exact .of_silent (h.of_eq rfl) hout rfl
  | relayFrame frame sampleRate seq =>
    -- Frames come from relay peers only.
    have hframe : s.receiveSignal fromId (.relayFrame frame sampleRate seq) = s := by
      rcases frame with _ | frame
      · rfl
      rcases sampleRate with _ | sampleRate
      · rfl
      rcases seq with _ | seq
      · rfl
      · rw [Hook.receiveSignal, receiveRelayFrame, InsMap.has_eq_false_of_keys h.relayPeers, if_neg]
        exact fun h => Bool.false_ne_true h.1
    rw [hframe]
    exact .of_silent h hout rfl
  | offer sdp isVideo =>
    rw [Hook.receiveSignal, receiveOffer]
    split_ifs
    · exact .of_silent h hout rfl
    · exact .of_silent h hout rfl
    · exact .of_silent (h.of_eq rfl) hout rfl
  | answer sdp => exact .of_silent h hout rfl
  | ice => exact .of_silent h hout rfl

theorem AtRest.receive (h : s.AtRest) (hout : s.out = []) (fromId : UserId) (msg : Message) :
    s.Rests (.recv fromId msg) (s.receive fromId msg) := by
  cases msg with
  | callInvite chatId isVideo =>
    rw [Hook.receive, receiveInvite]
    split_ifs
    · refine .of_out (h.of_eq rfl) (fun o ho => ⟨chatId, .inl ?_⟩) (.inl rfl)
      change o ∈ s.out ++ [_] at ho
      rw [hout] at ho
      exact List.mem_singleton.1 ho
    · exact .of_silent (h.of_eq rfl) hout rfl
  | callLeave chatId =>
    rw [Hook.receive, h.receiveLeave]
    exact .of_out (h.purgePeer fromId) (fun o ho => absurd (hout ▸ ho) List.not_mem_nil)
      (.inr ⟨fromId, by simp [HookEvent.purges], rfl⟩)
  | callReject chatId =>
    rw [Hook.receive, h.receiveReject]
    exact .of_out (h.purgePeer fromId) (fun o ho => absurd (hout ▸ ho) List.not_mem_nil)
      (.inr ⟨fromId, by simp [HookEvent.purges], rfl⟩)
  | signal data =>
    rw [Hook.receive]
    split_ifs
    · exact .of_silent h hout rfl
    · exact h.receiveSignal hout fromId data

/-- An idle function goes on. -/
theorem AtRest.continue (h : s.AtRest) (hout : s.out = []) {e : HookEvent} (peerId : UserId)
    {stage : Stage} {reply : Reply} (hstage : stage.isIdle = true)
    (hs : s.continue peerId stage reply = some s') : s.Rests e s' := by
  cases stage with
  | framePlayed =>
    cases reply with
    | ok =>
      cases hs
      exact .of_silent (h.of_eq rfl) hout rfl
    | _ => cases hs
  | deriveNonce key =>
    cases reply with
    | ok =>
      cases hs
      exact .of_silent (h.await peerId rfl) hout rfl
    | failed =>
      cases hs
      exact .of_silent (h.of_eq rfl) hout rfl
    | _ => cases hs
  | deriveSecret key nonce =>
    cases reply with
    | ok =>
      cases hs
      exact .of_silent (h.of_eq rfl) hout rfl
    | failed =>
      cases hs
      exact .of_silent (h.of_eq rfl) hout rfl
    | _ => cases hs
  | _ => cases hstage

theorem AtRest.handle (h : s.AtRest) (hout : s.out = []) {e : HookEvent} (he : e.isDial = false)
    (hs : s.handle e = some s') : s.Rests e s' := by
  cases e with
  | start peerId dial online => cases he
  | accept => cases he
  | reject =>
    cases hs
    refine .of_out (h.of_eq rfl) (fun o ho => ?_) (.inl rfl)
    rcases List.mem_append.1 ho with ho | ho
    · exact absurd (hout ▸ ho) List.not_mem_nil
    · obtain ⟨chatId, -, rfl⟩ := List.mem_map.1 ho
      exact ⟨chatId, .inl rfl⟩
  | hangUp =>
    cases hs
    refine .of_out h.severAllLinks (fun o ho => ?_) (.inl (by rw [h.severAllLinks_eq]; rfl))
    rw [h.severAllLinks_eq, hout, List.nil_append] at ho
    obtain ⟨chatId, -, rfl⟩ := List.mem_map.1 ho
    exact ⟨chatId, .inr rfl⟩
  | promoteToGroup inviteeUserId =>
    -- There is nobody to move into a room.
    have hpeers : s.callPeers = [] := by rw [callPeers, h.pcs, h.relayPeers]; rfl
    cases hs
    rw [Hook.promoteToGroup, hpeers]
    exact .of_silent h hout rfl
  | openCallToGuests chatId inRoom =>
    cases hs
    rw [Hook.openCallToGuests, if_pos (by simp [h.isCalling])]
    exact .of_silent h hout rfl
  | setDndEnabled enabled =>
    cases hs
    exact .of_silent (h.of_eq rfl) hout rfl
  | setActiveChatId chatId =>
    cases hs
    exact .of_silent (h.of_eq rfl) hout rfl
  | recv fromId msg =>
    cases hs
    exact h.receive hout fromId msg
  | cancelOnOtherDevices chatId =>
    cases hs
    rw [receiveCancel]
    split_ifs
    · exact .of_silent (h.of_eq rfl) hout rfl
    · exact .of_silent h hout rfl
  | resume i reply =>
    obtain ⟨task, htask, hs⟩ := Option.bind_eq_some_iff.1 hs
    have hrest : ({ s with tasks := s.tasks.eraseIdx i } : Hook).AtRest :=
      ⟨h.isCalling, h.localStream, h.pcs, h.relayPeers, h.silent,
        fun t ht => h.tasks t (List.mem_of_mem_eraseIdx ht)⟩
    have hgoes := hrest.continue (e := .resume i reply) hout task.peerId
      (h.tasks task (List.mem_of_getElem? htask)) hs
    exact ⟨hgoes.atRest, hgoes.quiet, hgoes.joins, hgoes.recent⟩
  | chunk i sampleRate pcm =>
    obtain ⟨capture, hcapture, hs⟩ := Option.bind_eq_some_iff.1 hs
    -- A capture that still runs reads a track that has ended.
    rw [if_neg fun hlive => h.silent capture (List.mem_of_getElem? hcapture) hlive.1 hlive.2] at hs
    cases hs
  | timeout id =>
    obtain ⟨timer, -, hs⟩ := Option.bind_eq_some_iff.1 hs
    have hcalling := h.isCalling
    split_ifs at hs
    cases hs
    -- What a timer does is done in a call only.
    have hstays : ∀ action, ({ s with timeouts := { s.timeouts with
        timers := s.timeouts.timers.delete id } } : Hook).timedOut action =
          { s with timeouts := { s.timeouts with timers := s.timeouts.timers.delete id } } := by
      rintro (⟨peerId, chatId, fallback⟩ | ⟨peerId⟩) <;> simp [timedOut, hcalling]
    rw [hstays]
    exact .of_silent (h.of_eq rfl) hout rfl
  | iceState peerId connected =>
    change (if s.pcs.has peerId then _ else none) = some s' at hs
    rw [InsMap.has_eq_false_of_keys h.pcs, if_neg Bool.false_ne_true] at hs
    cases hs
  | track peerId =>
    change (if s.pcs.has peerId then _ else none) = some s' at hs
    rw [InsMap.has_eq_false_of_keys h.pcs, if_neg Bool.false_ne_true] at hs
    cases hs
  | tick ms =>
    cases hs
    exact .of_silent (h.of_eq rfl) hout rfl

end

end Hook

/-! ## Runs -/

section
variable {s t : Hook} {es : List HookEvent}

theorem rests_of_step {e : HookEvent} (h : s.AtRest) (he : e.isDial = false)
    (hs : hook.step s e = some t) : s.Rests e t := by
  have hclear : ({ s with out := [] } : Hook).AtRest := h.of_eq rfl
  have hrests := hclear.handle rfl he hs
  exact ⟨hrests.atRest, hrests.quiet, hrests.joins, hrests.recent⟩

theorem atRest_of_run (h : s.AtRest) (hes : ∀ e ∈ es, e.isDial = false)
    (hrun : hook.run s es = some t) : t.AtRest :=
  Machine.run_invariant (I := Hook.AtRest) (P := fun e => e.isDial = false)
    (fun _ _ _ h he hs => (rests_of_step h he hs).atRest) hes h hrun

/-- Who is remembered as the peer of a call was so before, or was purged since, and when. -/
theorem recent_of_run (h : s.AtRest) (hes : ∀ e ∈ es, e.isDial = false)
    (hrun : hook.run s es = some t) : t.recentCallPeer = s.recentCallPeer ∨
      ∃ es₁ e es₂ fromId u, es = es₁ ++ e :: es₂ ∧ hook.run s es₁ = some u ∧
        e.purges fromId = true ∧ t.recentCallPeer = some ⟨fromId, u.now + 30000⟩ := by
  induction es using List.reverseRecOn generalizing t with
  | nil =>
    obtain rfl := Option.some.inj hrun
    exact .inl rfl
  | append_singleton es e ih =>
    obtain ⟨u, hu, hv⟩ := Machine.run_concat.1 hrun
    have hes' : ∀ e' ∈ es, e'.isDial = false := fun e' he' => hes e' (List.mem_append_left _ he')
    have hrests := rests_of_step (atRest_of_run h hes' hu)
      (hes e (List.mem_append_right _ List.mem_cons_self)) hv
    -- The last event has purged the peer, or the run before it tells.
    rcases hrests.recent with hrecent | ⟨fromId, hpurges, hrecent⟩
    · rw [hrecent]
      refine (ih hes' hu).imp_right ?_
      rintro ⟨es₁, e', es₂, fromId, w, rfl, hw, hpurges, hrecent⟩
      exact ⟨es₁, e', es₂ ++ [e], fromId, w, by simp, hw, hpurges, hrecent⟩
    · exact .inr ⟨es, e, [], fromId, u, rfl, hu, hpurges, hrecent⟩

/-- Until the user dials or accepts, a hook at rest stays so and sends nothing of the user; and a
    room is joined only upon a `promote_to_group`, of a user who is ringing, or who was purged
    less than 30 seconds ago, or else before the run. -/
theorem quiet_of_run (h : s.AtRest) (hes : ∀ e ∈ es, e.isDial = false)
    (hrun : hook.run s es = some t) : t.AtRest ∧
      ∀ es₁ e es₂, es = es₁ ++ e :: es₂ → ∀ u v, hook.run s es₁ = some u → hook.step u e = some v →
        (∀ o ∈ v.out, o.isQuiet = true) ∧
        ∀ chatId video, .joinGroupCall chatId video ∈ v.out → ∃ fromId,
          e = .recv fromId (.signal (.promoteToGroup (some chatId))) ∧
            ((∃ inc, u.store.incomingCall = some inc ∧ inc.peerId = fromId) ∨
              (∃ es₃ e' es₄ w, es₁ = es₃ ++ e' :: es₄ ∧ hook.run s es₃ = some w ∧
                e'.purges fromId = true ∧ u.now < w.now + 30000) ∨
              ∃ recent, s.recentCallPeer = some recent ∧ recent.peerId = fromId ∧
                u.now < recent.until) := by
  refine ⟨atRest_of_run h hes hrun, ?_⟩
  rintro es₁ e es₂ rfl u v hu hv
  have hes₁ : ∀ e ∈ es₁, e.isDial = false := fun e he => hes e (List.mem_append_left _ he)
  have hrest := atRest_of_run h hes₁ hu
  have hrests := rests_of_step hrest
    (hes e (List.mem_append_right _ List.mem_cons_self)) hv
  refine ⟨hrests.quiet, fun chatId video ho => ?_⟩
  obtain ⟨fromId, rfl, hin⟩ := hrests.joins chatId video ho
  refine ⟨fromId, rfl, ?_⟩
  rw [Hook.inCallWith, InsMap.has_eq_false_of_keys hrest.pcs,
    InsMap.has_eq_false_of_keys hrest.relayPeers, Bool.false_or, Bool.false_or, Bool.or_eq_true,
    Option.any_eq_true, Option.any_eq_true] at hin
  rcases hin with ⟨inc, hinc, hfrom⟩ | ⟨recent, hsome, hrecent⟩
  · exact .inl ⟨inc, hinc, of_decide_eq_true hfrom⟩
  · rw [Bool.and_eq_true, decide_eq_true_eq, decide_eq_true_eq] at hrecent
    obtain ⟨rfl, hnow⟩ := hrecent
    refine .inr ?_
    rcases recent_of_run h hes₁ hu with heq | ⟨es₃, e', es₄, fromId, w, rfl, hw, hpurges, heq⟩
    · exact .inr ⟨recent, heq ▸ hsome, rfl, hnow⟩
    · obtain rfl := Option.some.inj (hsome.symm.trans heq)
      exact .inl ⟨es₃, e', es₄, w, rfl, hw, hpurges, hnow⟩

end

/-! ## Hanging up -/

namespace Hook

/-- Whoever is captured for is a relay peer. -/
def Linked (s : Hook) : Prop :=
  ∀ u, s.relayCaptures.has u = true → s.relayPeers.has u = true

section
variable {s s' : Hook}

theorem Linked.of_eq (h : s.Linked) (hcaptures : s'.relayCaptures = s.relayCaptures)
    (hpeers : s'.relayPeers = s.relayPeers) : s'.Linked := by
  rw [Linked, hcaptures, hpeers]
  exact h

/-- A peer more. -/
theorem Linked.add (h : s.Linked) {peerId : UserId}
    (hcaptures : ∀ u, s'.relayCaptures.has u = true → u = peerId ∨ s.relayCaptures.has u = true)
    (hpeers : s'.relayPeers = s.relayPeers.add peerId) : s'.Linked := by
  intro u hu
  rw [hpeers, InsSet.add, InsMap.has_set, Bool.or_eq_true, decide_eq_true_eq]
  exact (hcaptures u hu).imp_right (h u)

theorem Linked.ensureRelayPlayer (h : s.Linked) (peerId : UserId) :
    (s.ensureRelayPlayer peerId).Linked := by
  rw [Hook.ensureRelayPlayer]
  split_ifs
  · exact h
  · exact h.add (fun _ => .inr) rfl

theorem Linked.moves {s₀ : Hook} {e : HookEvent} (h₀ : s₀.Linked) (h : Moves s₀ e s) :
    s.Linked := by
  induction h with
  | refl => exact h₀
  | same _ hsame ih => exact ih.of_eq hsame.relayCaptures hsame.relayPeers
  | enter _ _ _ _ ih => exact ih.add (fun _ => .inr) rfl
  | capture _ _ ih =>
    refine ih.add (fun u hu => ?_) rfl
    rw [relayCaptureStarted, emit, InsMap.has_set, Bool.or_eq_true, decide_eq_true_eq] at hu
    exact hu
  | player peerId _ ih => exact ih.ensureRelayPlayer peerId
  | stop peerId _ ih =>
    intro u hu
    change (InsMap.delete _ _).has u = true at hu ⊢
    rw [InsMap.has_delete, Bool.and_eq_true] at hu ⊢
    exact hu.imp_right (ih u)
  | @play s peerId _ _ seq _ _ _ _ ih =>
    have hseq : ({ s with
        keys := { s.keys with relaySeqIn := s.keys.relaySeqIn.set peerId seq } } : Hook).Linked :=
      ih.of_eq rfl rfl
    exact (hseq.ensureRelayPlayer peerId).of_eq rfl rfl
  | chunk => exact h₀.of_eq rfl rfl
  | _ =>
    rename_i ih
    exact ih.of_eq rfl rfl

theorem linked (hs : hook.Reachable s) : s.Linked := by
  refine hs.invariant ?_ fun s e s' _ h hstep => ?_
  · rintro _ ⟨userId, activeChatId, dndEnabled, rfl⟩
    exact nofun
  · have hclear : ({ s with out := [] } : Hook).Linked := h.of_eq rfl rfl
    exact hclear.moves (moves_of_step hstep)

/-! What is left after purging. -/

theorem get?_purgePeers (l : List UserId) (u : UserId) :
    ((s.purgePeers l).pcs.get? u = if u ∈ l then none else s.pcs.get? u) ∧
    ((s.purgePeers l).relayPeers.get? u = if u ∈ l then none else s.relayPeers.get? u) := by
  induction l generalizing s with
  | nil => exact ⟨rfl, rfl⟩
  | cons v l ih =>
    obtain ⟨hpcs, hpeers⟩ := @ih (s.purgePeer v)
    have hdelete : ∀ {V : Type} (m : InsMap UserId V),
        (if u ∈ l then none else (m.delete v).get? u) = if u ∈ v :: l then none else m.get? u := by
      intro V m
      rw [InsMap.get?_delete]
      by_cases hv : u = v <;> simp [hv]
    exact ⟨hpcs.trans (hdelete s.pcs), hpeers.trans (hdelete s.relayPeers)⟩

/-- What goes on capturing after purging is registered for nobody who was purged. -/
theorem running_purgePeers {l : List UserId} {i : ℕ} {c : Capture}
    (hc : (s.purgePeers l).captures[i]? = some c) (hrunning : c.running = true) :
    s.captures[i]? = some c ∧ ∀ u ∈ l, s.relayCaptures.get? u ≠ some i := by
  induction l generalizing s with
  | nil => exact ⟨hc, fun u hu => absurd hu List.not_mem_nil⟩
  | cons v l ih =>
    obtain ⟨hc, hl⟩ := @ih (s.purgePeer v) hc
    change (stopCapture s.captures (s.relayCaptures.get? v))[i]? = some c at hc
    have hkept : s.captures[i]? = some c ∧ s.relayCaptures.get? v ≠ some i := by
      cases hv : s.relayCaptures.get? v with
      | none =>
        rw [hv] at hc
        exact ⟨hc, nofun⟩
      | some j =>
        rw [hv, stopCapture, Option.elim_some, List.getElem?_modify] at hc
        obtain ⟨c', hc', rfl⟩ := Option.map_eq_some_iff.1 hc
        by_cases hj : j = i
        · rw [if_pos hj] at hrunning
          exact absurd hrunning Bool.false_ne_true
        · rw [if_neg hj]
          exact ⟨hc', fun h => hj (Option.some.inj h)⟩
    refine ⟨hkept.1, fun u hu hget => ?_⟩
    rcases List.mem_cons.1 hu with rfl | hu
    · exact hkept.2 hget
    · by_cases huv : u = v
      · exact hkept.2 (huv ▸ hget)
      · exact hl u hu ((InsMap.get?_delete_ne _ huv).trans hget)

theorem keys_eq_nil {V : Type} {m : InsMap UserId V} (h : ∀ u, m.get? u = none) : m.keys = [] := by
  refine List.eq_nil_iff_forall_not_mem.2 fun u hu => ?_
  rw [InsMap.mem_keys, h u] at hu
  cases hu

/-- Purging takes no media and sets nothing aside. -/
theorem purgePeers_rest (l : List UserId) : (s.purgePeers l).tasks = s.tasks ∧
    (s.purgePeers l).media = s.media ∧
      (s.purgePeers l).store.localStream = s.store.localStream := by
  induction l generalizing s with
  | nil => exact ⟨rfl, rfl, rfl⟩
  | cons u l ih => exact @ih (s.purgePeer u)

/-- Everybody is purged, first those with a peer connection. -/
theorem severAllLinks_eq (s : Hook) : ∃ (r : Hook) (l : List UserId), r.parts = s.parts ∧
    r.relayCaptures = s.relayCaptures ∧
    (∀ u, u ∈ l ↔ u ∈ s.pcs.keys ∨ u ∈ s.relayPeers.keys) ∧
      s.severAllLinks = { r.purgePeers l with
        p2pFallbackStarted := ∅
        media := (r.purgePeers l).media.release (r.purgePeers l).store.localStream
        store := (r.purgePeers l).store.reset } := by
  refine ⟨{ s.clearConnectTimeout with out := _ }, s.pcs.keys ++ _, rfl, rfl, fun u => ?_,
    by rw [purgePeers, List.foldl_append]; rfl⟩
  rw [List.mem_append]
  refine or_congr_right' fun hu => ?_
  change u ∈ (purgePeers _ s.pcs.keys).relayPeers.keys ↔ _
  rw [InsMap.mem_keys, InsMap.mem_keys, (get?_purgePeers s.pcs.keys u).2, if_neg hu]
  rfl

/-- A hook comes to rest when its user hangs up with nothing pending, and with captures only that
    are registered or read the local stream. -/
theorem Linked.atRest_severAllLinks (h : s.Linked) (htasks : ∀ t ∈ s.tasks, t.stage.isIdle = true)
    (hcaptures : ∀ i c, s.captures[i]? = some c → c.running = true →
      (∃ u, s.relayCaptures.get? u = some i) ∨
        ∃ stream, s.store.localStream = some stream ∧ c.track = stream.audio) :
    s.severAllLinks.AtRest := by
  obtain ⟨r, l, hparts, hregistered, hl, heq⟩ := s.severAllLinks_eq
  simp only [parts, Prod.mk.injEq] at hparts
  obtain ⟨-, hstream, hpcs, hpeers, hstarted, hmedia, hset⟩ := hparts
  obtain ⟨htasks', hmedia', hstream'⟩ := r.purgePeers_rest l
  have hnone : ∀ {V : Type} {m : InsMap UserId V} {u}, (u ∈ m.keys → u ∈ l) →
      (if u ∈ l then none else m.get? u) = none := by
    intro V m u hu
    split_ifs with hul
    · rfl
    · rw [← Option.not_isSome_iff_eq_none, ← InsMap.mem_keys]
      exact fun hmem => hul (hu hmem)
  rw [heq]
  refine ⟨rfl, rfl, keys_eq_nil fun u => ?_, keys_eq_nil fun u => ?_,
    fun c hc hrunning hlive => ?_, fun t ht => htasks t (hset ▸ htasks' ▸ ht)⟩
  · exact (get?_purgePeers l u).1.trans (hnone fun hu => (hl u).2 (.inl (hpcs ▸ hu)))
  · exact (get?_purgePeers l u).2.trans (hnone fun hu => (hl u).2 (.inr (hpeers ▸ hu)))
  · obtain ⟨i, hi⟩ := List.mem_iff_getElem?.1 hc
    obtain ⟨hi, hfree⟩ := running_purgePeers hi hrunning
    rw [hstarted] at hi
    rcases hcaptures i c hi hrunning with ⟨u, hu⟩ | ⟨stream, hlocal, htrack⟩
    · refine hfree u ((hl u).2 (.inr ?_)) (hregistered ▸ hu)
      exact InsMap.mem_keys.2 (h u (InsMap.has_iff.2 ⟨i, hu⟩))
    · change c.track ∈ ((r.purgePeers l).media.release _).live at hlive
      rw [hmedia', hmedia, hstream', hstream, hlocal] at hlive
      simp [Media.release, Media.terminateFeed, Media.stop, Feed.getTracks, htrack] at hlive

end

end Hook

/-- Hanging up is final, where nothing is pending then that would set up a call or play a frame,
    and each running capture is registered or reads the local stream: until the user dials or
    accepts again, no call goes on, nothing is captured, and nothing of the user is sent. -/
theorem final_of_hangUp {s t u : Hook} {es : List HookEvent} (hs : hook.Reachable s)
    (htasks : ∀ x ∈ s.tasks, x.stage.isIdle = true)
    (hcaptures : ∀ i c, s.captures[i]? = some c → c.running = true →
      (∃ u, s.relayCaptures.get? u = some i) ∨
        ∃ stream, s.store.localStream = some stream ∧ c.track = stream.audio)
    (hup : hook.step s .hangUp = some t) (hes : ∀ e ∈ es, e.isDial = false)
    (hrun : hook.run t es = some u) : t.AtRest ∧ u.AtRest ∧
      ∀ es₁ e es₂, es = es₁ ++ e :: es₂ → ∀ v w, hook.run t es₁ = some v →
        hook.step v e = some w → ∀ o ∈ w.out, o.isQuiet = true := by
  have hclear : ({ s with out := [] } : Hook).Linked := (Hook.linked hs).of_eq rfl rfl
  have hrest : t.AtRest := Option.some.inj hup ▸ hclear.atRest_severAllLinks htasks hcaptures
  obtain ⟨hend, hquiet⟩ := quiet_of_run hrest hes hrun
  exact ⟨hrest, hend, fun es₁ e es₂ h v w hv hw => (hquiet es₁ e es₂ h v w hv hw).1⟩

/-! ## A relayed call -/

namespace Sample

/-- A call to the user 2 over the relay, which is answered, and in which a chunk is sent. -/
def relayed : List HookEvent :=
  [.start 2 ⟨7, false⟩ true, .resume 0 (.ice ⟨false, false, true⟩), .resume 0 .ok, .resume 0 .ok,
    .resume 0 .ok, .resume 1 .ok, .resume 0 (.minted 5), .recv 2 (.signal (.relayAnswer (some 5))),
    .resume 0 .ok, .resume 1 .ok, .resume 0 .ok, .resume 0 .ok, .resume 0 .ok, .chunk 0 16000 [1],
    .resume 0 .ok]

/-- The peer of the call leaves, another user calls, and both ask to move into a room. -/
def remote : List HookEvent :=
  [.recv 2 (.callLeave 7), .recv 2 (.signal (.relayOffer (some 6))), .recv 3 (.callInvite 8 false),
    .recv 2 (.signal (.promoteToGroup (some 9))), .recv 3 (.signal (.promoteToGroup (some 10)))]

end Sample

open Sample

/-- Nobody has dialled, and yet a room is joined. -/
theorem quiet_of_run_remote : ∃ t, hook.run (.idle 1 none false) remote = some t ∧ t.AtRest ∧
    ∃ s u v, hook.run s (remote.take 3) = some u ∧
      hook.step u (.recv 2 (.signal (.promoteToGroup (some 9)))) = some v ∧
        .joinGroupCall 9 false ∈ v.out := by
  have hrun : ((hook.run (.idle 1 none false) (remote.take 3)).bind fun u =>
      (hook.step u (.recv 2 (.signal (.promoteToGroup (some 9))))).bind fun v =>
        (hook.run v (remote.drop 4)).map fun _ => v.out) =
          some [.joinGroupCall 9 false] := by decide +kernel
  obtain ⟨u, hu, hrun⟩ := Option.bind_eq_some_iff.1 hrun
  obtain ⟨v, hv, hrun⟩ := Option.bind_eq_some_iff.1 hrun
  obtain ⟨t, ht, hout⟩ := Option.map_eq_some_iff.1 hrun
  have hwhole : hook.run (.idle 1 none false) remote = some t :=
    Machine.run_append.2 ⟨u, hu, Machine.run_cons_eq_some.2 ⟨v, hv, ht⟩⟩
  have hrest := Hook.atRest_idle 1 none false
  exact ⟨t, hwhole, (quiet_of_run hrest (by decide) hwhole).1, _, u, v, hu, hv,
    hout ▸ List.mem_cons_self⟩

theorem final_of_hangUp_relayed : ∃ s t u, hook.run (.idle 1 none false) relayed = some s ∧
    s.captures.any Capture.running ∧ hook.step s .hangUp = some t ∧ hook.run t remote = some u ∧
      t.AtRest ∧ u.AtRest := by
  have hrun : ((hook.run (.idle 1 none false) relayed).bind fun s =>
      (hook.step s .hangUp).bind fun t => (hook.run t remote).map fun _ =>
        (s.tasks, s.captures.length, s.relayCaptures.get? 2, s.captures.any Capture.running)) =
          some ([], 1, some 0, true) := by decide +kernel
  obtain ⟨s, hs, hrun⟩ := Option.bind_eq_some_iff.1 hrun
  obtain ⟨t, ht, hrun⟩ := Option.bind_eq_some_iff.1 hrun
  obtain ⟨u, hu, hrun⟩ := Option.map_eq_some_iff.1 hrun
  obtain ⟨htasks, hlength, hget, hrunning⟩ :
      s.tasks = [] ∧ s.captures.length = 1 ∧ s.relayCaptures.get? 2 = some 0 ∧
        s.captures.any Capture.running = true := by
    simpa only [Prod.mk.injEq] using hrun
  have hreachable : hook.Reachable s := Machine.reachable_of_run hs ⟨1, none, false, rfl⟩
  obtain ⟨hrest, hend, -⟩ := final_of_hangUp hreachable
    (fun x hx => absurd (htasks ▸ hx) List.not_mem_nil)
    (fun i c hi _ => by
      have hlt := (List.getElem?_eq_some_iff.1 hi).1
      obtain rfl : i = 0 := by omega
      exact .inl ⟨2, hget⟩) ht (by decide) hu
  exact ⟨s, t, u, hs, hrunning, ht, hu, hrest, hend⟩

end OneToThree.Call
