import OneToThree.Call.Rest

/-!
# Whom the microphone reaches

Relayed audio is captured for a user, and sent to a user, only if this user has dialled or accepted
that one before, or has got a `relay_offer` or a `relay_answer` of that one in a call, with the
local stream up (`Invited`, `recipient_of_run`). The last two are as far as the code goes: of the
sender of a `relay_offer` or a `relay_answer` it does not ask whether the call is with that user.

Of the invariant (`Hosts`) the functions that are under way are a part, and the timers, of which one
falls back on the relay.
-/

namespace OneToThree.Call

/-- The stages of the functions that lead to a capture, or that send a frame. -/
def Stage.reaches : Stage → Bool
  | .sealing _ _ _ => true
  | stage => stage.isSetup

/-- Whom an output lets hear the user. -/
def Output.reaches : Output → Option UserId
  | .captureStarted peerId => some peerId
  | .send (.webrtcSignal peerId (.relayFrame _ _ _)) => some peerId
  | _ => none

theorem Stage.reaches_eq_isSetup {stage : Stage} (h : stage.isPlain = true) :
    stage.reaches = stage.isSetup := by
  cases stage with
  | sealing => cases h
  | _ => rfl

theorem Output.reaches_eq_none {o : Output} (h : o.isPlain = true) : o.reaches = none := by
  cases o with
  | send msg =>
    cases msg with
    | webrtcSignal _ signal =>
      cases signal with
      | relayFrame => cases h
      | _ => rfl
    | _ => rfl
  | captureStarted => cases h
  | _ => rfl

namespace Hook

/-- An event upon which a user may come to hear this one. -/
inductive Invites (s : Hook) (e : HookEvent) (peerId : UserId) : Prop
  | start (dial : Dial) (online : Bool) : e = .start peerId dial online → Invites s e peerId
  | accept (inc : InboundLinkRequest) : e = .accept → s.store.incomingCall = some inc →
    inc.peerId = peerId → Invites s e peerId
  | offer (callNonce : Option Nonce) : e = .recv peerId (.signal (.relayOffer callNonce)) →
    s.store.isCalling = true → s.store.localStream.isSome = true → Invites s e peerId
  | answer (callNonce : Option Nonce) : e = .recv peerId (.signal (.relayAnswer callNonce)) →
    s.store.localStream.isSome = true → Invites s e peerId

/-- Only certain users come to hear this one. -/
structure Hosts (guest : UserId → Prop) (s : Hook) : Prop where
  tasks : ∀ t ∈ s.tasks, t.stage.reaches = true → guest t.peerId
  timers : ∀ id timer, s.timeouts.timers.get? id = some timer → guest timer.action.peer
  captures : ∀ c ∈ s.captures, guest c.peerId
  out : ∀ o ∈ s.out, ∀ peerId, o.reaches = some peerId → guest peerId

section
variable {guest guest' : UserId → Prop} {s₀ s s' : Hook} {e : HookEvent}

theorem Hosts.mono (h : s.Hosts guest) (hguest : ∀ u, guest u → guest' u) : s.Hosts guest' :=
  ⟨fun t ht hreaches => hguest _ (h.tasks t ht hreaches),
    fun id timer htimer => hguest _ (h.timers id timer htimer),
    fun c hc => hguest _ (h.captures c hc),
    fun o ho peerId hreaches => hguest _ (h.out o ho peerId hreaches)⟩

theorem Hosts.of_eq (h : s.Hosts guest) (htasks : s'.tasks = s.tasks)
    (htimers : s'.timeouts = s.timeouts) (hcaptures : s'.captures = s.captures)
    (hout : s'.out = s.out) : s'.Hosts guest :=
  ⟨htasks ▸ h.tasks, htimers ▸ h.timers, hcaptures ▸ h.captures, hout ▸ h.out⟩

/-- Captures that are changed stay with their peers. -/
theorem Hosts.change (h : s.Hosts guest) {captures : List Capture}
    (hcaptures : ∀ c ∈ captures, ∃ c' ∈ s.captures, c.key = c'.key ∧ c.peerId = c'.peerId) :
    ({ s with captures } : Hook).Hosts guest := by
  refine ⟨h.tasks, h.timers, fun c hc => ?_, h.out⟩
  obtain ⟨c', hc', -, hpeer⟩ := hcaptures c hc
  exact hpeer ▸ h.captures c' hc'

theorem Hosts.await (h : s.Hosts guest) {peerId : UserId} {stage : Stage}
    (hstage : stage.reaches = true → guest peerId) : (s.await peerId stage).Hosts guest := by
  exact ⟨List.forall_mem_append.2 ⟨h.tasks, List.forall_mem_singleton.2 hstage⟩, h.timers,
    h.captures, h.out⟩

theorem Hosts.emit (h : s.Hosts guest) {o : Output}
    (ho : ∀ peerId, o.reaches = some peerId → guest peerId) : (s.emit o).Hosts guest := by
  exact ⟨h.tasks, h.timers, h.captures,
    List.forall_mem_append.2 ⟨h.out, List.forall_mem_singleton.2 ho⟩⟩

theorem Hosts.setConnectTimeout (h : s.Hosts guest) {action : TimerAction}
    (haction : guest action.peer) : (s.setConnectTimeout action).Hosts guest := by
  refine ⟨h.tasks, fun id timer htimer => ?_, h.captures, h.out⟩
  change (s.timeouts.timers.set _ _).get? id = some timer at htimer
  rw [InsMap.get?_set] at htimer
  split_ifs at htimer
  · cases htimer
    exact haction
  · exact h.timers id timer htimer

/-- A derivation, if it is started, reaches nobody. -/
theorem Hosts.resolve (h : s.Hosts guest) (peerId : UserId) :
    (s.resolveRelaySharedKey peerId).Hosts guest := by
  refine ⟨fun t ht => ?_, h.timers, h.captures, h.out⟩
  rcases List.mem_append.1 ht with ht | ht
  · exact h.tasks t ht
  · split_ifs at ht
    · cases ht
    · rw [List.mem_singleton.1 ht]
      exact fun hreaches => absurd hreaches Bool.false_ne_true

theorem Hosts.ensureRelayPlayer (h : s.Hosts guest) (peerId : UserId) :
    (s.ensureRelayPlayer peerId).Hosts guest := by
  rw [Hook.ensureRelayPlayer]
  split_ifs
  · exact h
  · exact h.of_eq rfl rfl rfl rfl

theorem Hosts.moves (h₀ : s₀.Hosts guest) (hasks : ∀ u, s₀.Asks e u → guest u)
    (h : Moves s₀ e s) : s.Hosts guest := by
  have hidle : ∀ {stage : Stage} {peerId : UserId}, stage.reaches = false →
      stage.reaches = true → guest peerId := fun hidle hreaches =>
    absurd (hidle.symm.trans hreaches) Bool.false_ne_true
  induction h with
  | refl => exact h₀
  | same _ hsame ih =>
    exact ⟨hsame.tasks ▸ ih.tasks,
      fun id timer htimer => ih.timers id timer (hsame.timers id timer htimer),
      hsame.captures ▸ ih.captures, hsame.out ▸ ih.out⟩
  | emit _ ho ih =>
    refine ih.emit fun peerId hreaches => ?_
    rw [Output.reaches_eq_none ho] at hreaches
    cases hreaches
  | drop i _ ih =>
    exact ⟨fun t ht => ih.tasks t (List.mem_of_mem_eraseIdx ht), ih.timers, ih.captures, ih.out⟩
  | await _ hplain hsetup ih =>
    refine ih.await fun hreaches => ?_
    rw [Stage.reaches_eq_isSetup hplain] at hreaches
    exact hasks _ (hsetup hreaches)
  | timer _ ht ih => exact ih.setConnectTimeout (hasks _ ht)
  | resolve _ _ ht ih => exact (ih.resolve _).await fun _ => hasks _ ht
  | derive _ _ _ ih => exact ih.await (hidle rfl)
  | ready _ ht _ ih => exact ih.await fun _ => h₀.tasks _ ht rfl
  | @capture s peerId caller stream key _ ht ih =>
    have hguest : guest peerId := h₀.tasks _ ht rfl
    have hstarted : Hosts guest { s with
        captures := s.captures ++ [⟨peerId, stream.audio, key, true, false⟩]
        relayCaptures := s.relayCaptures.set peerId s.captures.length
        relayPeers := s.relayPeers.add peerId } := by
      exact ⟨ih.tasks, ih.timers,
        List.forall_mem_append.2 ⟨ih.captures, List.forall_mem_singleton.2 hguest⟩, ih.out⟩
    refine hstarted.emit (o := .captureStarted peerId) fun u hu => ?_
    exact Option.some.inj hu ▸ hguest
  | player peerId _ ih => exact ih.ensureRelayPlayer peerId
  | stop _ _ ih =>
    exact (ih.change fun _ hc => kept_of_stopCapture hc).of_eq rfl rfl rfl rfl
  | @chunk i sampleRate pcm capture _ hcapture =>
    have hguest : guest capture.peerId := h₀.captures _ (List.mem_of_getElem? hcapture)
    have hset : ∀ relaySeqOut, Hosts guest { s₀ with
        captures := s₀.captures.set i { capture with busy := true }
        keys := { s₀.keys with relaySeqOut } } := by
      intro relaySeqOut
      refine ⟨h₀.tasks, h₀.timers, fun c hc => ?_, h₀.out⟩
      rcases List.mem_or_eq_of_mem_set hc with hc | rfl
      · exact h₀.captures c hc
      · exact hguest
    exact ((hset _).emit (o := .seal _) nofun).await fun _ => hguest
  | @«sealed» s peerId i sampleRate frame _ ht ih =>
    have hguest : guest peerId := h₀.tasks _ ht rfl
    have hfreed : Hosts guest { s with
        captures := s.captures.modify i fun c => { c with busy := false } } :=
      ih.change fun _ hc => kept_of_modify hc fun _ => ⟨rfl, rfl⟩
    refine hfreed.emit (o := .send (.webrtcSignal peerId (.relayFrame _ _ _))) fun u hu => ?_
    exact Option.some.inj hu ▸ hguest
  | receive _ _ ih => exact (ih.resolve _).await (hidle rfl)
  | lookUp _ _ _ ih => exact ih.await (hidle rfl)
  | @play s peerId frame sampleRate seq key _ _ _ ih =>
    have hseq : Hosts guest { s with
        keys := { s.keys with relaySeqIn := s.keys.relaySeqIn.set peerId seq } } :=
      ih.of_eq rfl rfl rfl rfl
    exact ((hseq.ensureRelayPlayer peerId).emit (o := .play peerId frame sampleRate) nofun).await
      (hidle rfl)
  | _ =>
    rename_i ih
    exact ih.of_eq rfl rfl rfl rfl

end

end Hook

/-! ## Runs -/

/-- In a run, a user was dialled or accepted, or has offered or answered audio in a call. -/
def Invited (s₀ : Hook) (es : List HookEvent) (peerId : UserId) : Prop :=
  ∃ es₁ e es₂ s, es = es₁ ++ e :: es₂ ∧ hook.run s₀ es₁ = some s ∧ s.Invites e peerId

section
variable {s₀ s s' : Hook} {es : List HookEvent} {e : HookEvent} {peerId : UserId}

theorem Invited.append (h : Invited s₀ es peerId) (es' : List HookEvent) :
    Invited s₀ (es ++ es') peerId := by
  obtain ⟨es₁, e, es₂, s, rfl, hs, hinvites⟩ := h
  exact ⟨es₁, e, es₂ ++ es', s, by simp, hs, hinvites⟩

/-- Whatever a function is called for, its peer has been invited. -/
theorem invited_of_asks (hrun : hook.run s₀ es = some s) (h : s.Hosts (Invited s₀ es))
    (hasks : ({ s with out := [] } : Hook).Asks e peerId) : Invited s₀ (es ++ [e]) peerId := by
  have hnow : s.Invites e peerId → Invited s₀ (es ++ [e]) peerId := fun hinvites =>
    ⟨es, e, [], s, rfl, hrun, hinvites⟩
  cases hasks with
  | start dial online he => exact hnow (.start dial online he)
  | accept inc he hinc hpeer => exact hnow (.accept inc he hinc hpeer)
  | task t ht hpeer hsetup =>
    -- A setup reaches its peer, and so do frames that are sealed.
    have hreaches : t.stage.reaches = true := by
      cases hstage : t.stage with
      | sealing => rfl
      | _ =>
        rw [hstage] at hsetup
        exact hsetup
    exact hpeer ▸ (h.tasks t ht hreaches).append [e]
  | timer id timer htimer hpeer => exact hpeer ▸ (h.timers id timer htimer).append [e]
  | offer callNonce stream he hcalling hstream =>
    have hstream : s.store.localStream = some stream := hstream
    exact hnow (.offer callNonce he hcalling (by rw [hstream]; rfl))
  | answer callNonce stream he hstream =>
    have hstream : s.store.localStream = some stream := hstream
    exact hnow (.answer callNonce he (by rw [hstream]; rfl))

theorem hosts_of_run (h₀ : hook.init s₀) (hrun : hook.run s₀ es = some s) :
    s.Hosts (Invited s₀ es) := by
  induction es using List.reverseRecOn generalizing s with
  | nil =>
    obtain rfl := Option.some.inj hrun
    obtain ⟨userId, activeChatId, dndEnabled, rfl⟩ := h₀
    exact ⟨nofun, nofun, nofun, nofun⟩
  | append_singleton es e ih =>
    obtain ⟨t, ht, hstep⟩ := Machine.run_concat.1 hrun
    have hhosts := ih ht
    have hclear : ({ t with out := [] } : Hook).Hosts (Invited s₀ (es ++ [e])) :=
      ⟨(hhosts.mono fun _ h => h.append [e]).tasks, (hhosts.mono fun _ h => h.append [e]).timers,
        (hhosts.mono fun _ h => h.append [e]).captures, nofun⟩
    exact hclear.moves (fun _ hasks => invited_of_asks ht hhosts hasks) (moves_of_step hstep)

/-- Whoever is captured for, or is sent a frame, was dialled or accepted before, or has offered or
    answered audio in a call, with the local stream up. -/
theorem recipient_of_run (h₀ : hook.init s₀) (hrun : hook.run s₀ es = some s) :
    (∀ c ∈ s.captures, Invited s₀ es c.peerId) ∧
      ∀ o ∈ s.out, ∀ peerId, o.reaches = some peerId → Invited s₀ es peerId :=
  ⟨(hosts_of_run h₀ hrun).captures, (hosts_of_run h₀ hrun).out⟩

end

/-- What is sent in the relayed call. -/
def Sample.sent : Output := .send (.webrtcSignal 2
  (.relayFrame (some ⟨⟨1, 2, some 5⟩, ⟨1, 2, 1⟩, [1]⟩) (some 16000) (some 1)))

open Sample

theorem recipient_of_run_relayed : ∃ s, hook.run (.idle 1 none false) relayed = some s ∧
    sent ∈ s.out ∧ Invited (.idle 1 none false) relayed 2 := by
  have hrun : (hook.run (.idle 1 none false) relayed).map Hook.out = some [sent] := by
    decide +kernel
  obtain ⟨s, hs, hout⟩ := Option.map_eq_some_iff.1 hrun
  have hmem := hout.symm ▸ List.mem_cons_self
  exact ⟨s, hs, hmem, (recipient_of_run ⟨1, none, false, rfl⟩ hs).2 _ hmem 2 rfl⟩

end OneToThree.Call
