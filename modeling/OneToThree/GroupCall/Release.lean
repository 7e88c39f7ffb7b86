import OneToThree.GroupCall.Manager

/-!
# Leaving a group call

The functions of the manager look at the call once and then wait, for permissions, servers or keys,
before they write to the variables and maps of the module whatever has happened meanwhile. A join
goes on after the call was left, two of them lose a microphone, and a second offer or participant
list loses a connection (`not_released`).

`released_of_run`: in a run in which what a function acquires finds its place free, and the call
that the function is about still on (`Clear`), a peer has at most one connection and capture, the
registered ones, and once the call was left and nothing is pending, nothing of it is left. The calls
are mesh and relay calls: no SFU is configured.
-/

namespace OneToThree.GroupCall

/-! ## What is proved -/

/-- The open connections and the running captures are those that are registered under their peers,
    so that a peer has at most one of each. -/
structure Links.OnePerPeer (l : Links) : Prop where
  pcs : ∀ pc peer, l.openPcs.get? pc = some peer → l.peerConnections.get? peer = some pc
  captures : ∀ capture peer, l.running.get? capture = some peer →
    l.relayCaptures.get? peer = some capture

/-- Nothing of a call remains. -/
structure State.Released (s : State) : Prop where
  isInGroupCall : s.isInGroupCall = false
  tracks : s.media.live = []
  pcs : ∀ pc, s.links.openPcs.get? pc = none
  captures : ∀ capture, s.links.running.get? capture = none

/-- Whether the call was left, and no join requested since. -/
def left (h : Bool) (_ : State) : Event → State → Bool
  | .joinGroupCall _ _, _ => false
  | .leaveGroupCall, _ => true
  | _, _ => h

/-- A join finds no call, and was not left. -/
def State.Joinable (s : State) (left : Bool) : Prop := left = false ∧ s.isInGroupCall = false

instance (s : State) (left : Bool) : Decidable (s.Joinable left) := by
  unfold State.Joinable
  infer_instance

/-- What a function acquires has its place, and no SFU is configured. -/
def State.Clear (s : State) (left : Bool) : Task → Outcome → Prop
  | .joinConfig _ _, .config cfg =>
    cfg.livekit = true → cfg.origin_safe = true ∨ cfg.group_relay_enabled = true
  | .relayVoice _ _ _, .chain _ | .meshVoice _ _ _ _, .chain _ =>
    s.Joinable left ∧ s.media.groupVoiceHandle = none
  | .meshCamera _ _ _, .chain _ => s.Joinable left ∧ s.media.groupCamFx = none
  | .participants peers (some stream), .done =>
    s.groupRelayMode = true ∨ peers = [] ∨ s.localStream = some stream ∧ peers.Nodup ∧
      ∀ peer ∈ peers, s.links.peerConnections.has peer = false
  | .captureStart peer stream, .done =>
    s.localStream = some stream ∧ s.links.relayCaptures.has peer = false
  | .offerIce peer stream, .done =>
    s.localStream = some stream ∧ s.links.peerConnections.has peer = false
  | .cameraEffects stream _, .chain _ =>
    s.localStream = some stream ∧ s.media.groupCamFx = none ∧
      ∀ camera ∈ s.media.groupCameraTrack, s.media.ended camera = true
  | .screenMedia stream, .screen true _ =>
    s.localStream = some stream ∧ s.media.groupScreenTrack = none
  | _, _ => True

instance (s : State) (left : Bool) (t : Task) (o : Outcome) : Decidable (s.Clear left t o) := by
  unfold State.Clear
  split <;> infer_instance

/-- What a function acquires in a step has its place. -/
def Undisturbed (p : State × Bool) : Event → Prop
  | .resume i outcome => ∀ t ∈ p.1.tasks.get? i, p.1.Clear p.2 t outcome
  | _ => True

instance (p : State × Bool) (e : Event) : Decidable (Undisturbed p e) := by
  unfold Undisturbed
  split <;> infer_instance

/-- The runs of the manager in which nothing is acquired that would not be released. -/
abbrev undisturbed : Machine (State × Bool) Event :=
  (manager.withHistory false left).restrict Undisturbed

/-! ## Links -/

namespace Links

section
variable {l : Links} {peer : UserId} {n : ℕ}

theorem OnePerPeer.stopRelayPeer (hl : l.OnePerPeer) : (l.stopRelayPeer peer).OnePerPeer := by
  rw [Links.stopRelayPeer]
  split
  · rename_i capture hcapture
    refine ⟨hl.pcs, fun capture' peer' hrun => ?_⟩
    change (l.running.delete capture).get? capture' = some peer' at hrun
    rw [InsMap.get?_delete] at hrun
    split_ifs at hrun with hne
    have hreg := hl.captures capture' peer' hrun
    change (l.relayCaptures.delete peer).get? peer' = some capture'
    rw [InsMap.get?_delete, if_neg]
    · exact hreg
    · rintro rfl
      exact hne (Option.some.inj (hreg.symm.trans hcapture))
  · exact hl

theorem OnePerPeer.closePc (hl : l.OnePerPeer) : (l.closePc peer).OnePerPeer := by
  rw [Links.closePc]
  split
  · rename_i pc hpc
    refine ⟨fun pc' peer' hopen => ?_, hl.captures⟩
    change (l.openPcs.delete pc).get? pc' = some peer' at hopen
    rw [InsMap.get?_delete] at hopen
    split_ifs at hopen with hne
    have hreg := hl.pcs pc' peer' hopen
    change (l.peerConnections.delete peer).get? peer' = some pc'
    rw [InsMap.get?_delete, if_neg]
    · exact hreg
    · rintro rfl
      exact hne (Option.some.inj (hreg.symm.trans hpc))
  · exact hl

theorem OnePerPeer.cleanupPeer (hl : l.OnePerPeer) : (l.cleanupPeer peer).OnePerPeer :=
  hl.stopRelayPeer.closePc

theorem OnePerPeer.createPeerConnection (hl : l.OnePerPeer)
    (hpeer : l.peerConnections.has peer = false) : (l.createPeerConnection peer n).OnePerPeer := by
  refine ⟨fun pc' peer' hopen => ?_, hl.captures⟩
  change (l.openPcs.set n peer).get? pc' = some peer' at hopen
  change (l.peerConnections.set peer n).get? peer' = some pc'
  rw [InsMap.get?_set] at hopen ⊢
  split_ifs at hopen with hpc
  · cases hopen
    rw [if_pos rfl, hpc]
  · rw [if_neg]
    · exact hl.pcs pc' peer' hopen
    · rintro rfl
      have hreg := hl.pcs pc' peer' hopen
      rw [InsMap.has_eq_false.1 hpeer] at hreg
      cases hreg

theorem OnePerPeer.startCapture (hl : l.OnePerPeer) (hpeer : l.relayCaptures.has peer = false) :
    (l.startCapture peer n).OnePerPeer := by
  refine ⟨hl.pcs, fun capture' peer' hrun => ?_⟩
  change (l.running.set n peer).get? capture' = some peer' at hrun
  change (l.relayCaptures.set peer n).get? peer' = some capture'
  rw [InsMap.get?_set] at hrun ⊢
  split_ifs at hrun with hcapture
  · cases hrun
    rw [if_pos rfl, hcapture]
  · rw [if_neg]
    · exact hl.captures capture' peer' hrun
    · rintro rfl
      have hreg := hl.captures capture' peer' hrun
      rw [InsMap.has_eq_false.1 hpeer] at hreg
      cases hreg

/-! The peers that are cleaned up are registered no longer, and no others are registered. -/

theorem closePc_get? (peer' : UserId) : (l.closePc peer).peerConnections.get? peer' =
    if peer' = peer then none else l.peerConnections.get? peer' := by
  rw [Links.closePc]
  split
  · exact InsMap.get?_delete _ _ _
  · rename_i hpeer
    split_ifs with heq
    · rw [heq]
      exact hpeer
    · rfl

theorem stopRelayPeer_get? (peer' : UserId) : (l.stopRelayPeer peer).relayCaptures.get? peer' =
    if peer' = peer then none else l.relayCaptures.get? peer' := by
  rw [Links.stopRelayPeer]
  split
  · exact InsMap.get?_delete _ _ _
  · rename_i hpeer
    split_ifs with heq
    · rw [heq]
      exact hpeer
    · rfl

theorem closePc_relayCaptures : (l.closePc peer).relayCaptures = l.relayCaptures := by
  rw [Links.closePc]
  split <;> rfl

end

/-- The induction over the peers that are cleaned up in turn. -/
theorem foldl_get? {V : Type} {f : Links → UserId → Links} (regs : Links → InsMap UserId V)
    (hf : ∀ l peer peer', (regs (f l peer)).get? peer' =
      if peer' = peer then none else (regs l).get? peer') (peers : List UserId) (l : Links)
    (peer' : UserId) : (regs (peers.foldl f l)).get? peer' =
      if peer' ∈ peers then none else (regs l).get? peer' := by
  induction peers generalizing l with
  | nil => rw [if_neg List.not_mem_nil]; rfl
  | cons peer peers ih =>
    rw [List.foldl_cons, ih, hf]
    by_cases hmem : peer' ∈ peers
    · rw [if_pos hmem, if_pos (List.mem_cons_of_mem _ hmem)]
    · rw [if_neg hmem]
      by_cases heq : peer' = peer
      · rw [if_pos heq, if_pos (heq ▸ List.mem_cons_self)]
      · rw [if_neg heq, if_neg fun h => (List.mem_cons.1 h).elim heq hmem]

/-- All of what was registered. -/
theorem get?_ite_keys {V : Type} (regs : InsMap UserId V) (peer : UserId) :
    (if peer ∈ regs.keys then none else regs.get? peer) = none := by
  split_ifs with hmem
  · rfl
  · rw [InsMap.mem_keys, Option.not_isSome_iff_eq_none] at hmem
    exact hmem

theorem OnePerPeer.foldl {f : Links → UserId → Links}
    (hf : ∀ l peer, l.OnePerPeer → (f l peer).OnePerPeer) (peers : List UserId) {l : Links}
    (hl : l.OnePerPeer) : (peers.foldl f l).OnePerPeer := by
  induction peers generalizing l with
  | nil => exact hl
  | cons peer peers ih => exact ih (hf l peer hl)

theorem OnePerPeer.closeAll {l : Links} (hl : l.OnePerPeer) : l.closeAll.OnePerPeer :=
  OnePerPeer.foldl (fun _ _ => OnePerPeer.closePc) _ hl

theorem OnePerPeer.cleanupAll {l : Links} (hl : l.OnePerPeer) : l.cleanupAll.OnePerPeer :=
  OnePerPeer.foldl (fun _ _ => OnePerPeer.stopRelayPeer) _
    (OnePerPeer.foldl (fun _ _ => OnePerPeer.cleanupPeer) _ hl)

/-- Nothing is registered. -/
def Bare (l : Links) : Prop :=
  (∀ peer, l.peerConnections.get? peer = none) ∧ ∀ peer, l.relayCaptures.get? peer = none

theorem closeAll_bare {l : Links} (hl : ∀ peer, l.relayCaptures.get? peer = none) :
    l.closeAll.Bare := by
  refine ⟨fun peer => ?_, fun peer => ?_⟩
  · exact (foldl_get? Links.peerConnections (fun _ _ => closePc_get?) _ l peer).trans
      (get?_ite_keys _ _)
  · have hkeep : ∀ (peers : List UserId) (l : Links),
        (peers.foldl Links.closePc l).relayCaptures = l.relayCaptures := by
      intro peers
      induction peers with
      | nil => exact fun _ => rfl
      | cons peer peers ih => exact fun l => (ih _).trans closePc_relayCaptures
    rw [Links.closeAll, hkeep]
    exact hl peer

theorem cleanupAll_captures (l : Links) (peer : UserId) :
    l.cleanupAll.relayCaptures.get? peer = none :=
  (foldl_get? Links.relayCaptures (fun _ _ => stopRelayPeer_get?) _ _ peer).trans
    (get?_ite_keys _ _)

end Links

/-! ## Tracks -/

namespace Media

/-- The tracks that the variables of the module hold. -/
def own (m : Media) : List TrackId :=
  m.groupVoiceHandle.toList ++ m.groupCamFx.toList ++
    (m.groupCameraTrack.bind Track.hardware).toList ++ m.groupScreenTrack.toList ++
    m.groupScreenAudioTrack.toList

/-- What runs in `m'` ran in `m`, or is in `new`, and is held in `m'` wherever it was. -/
structure Keeps (m m' : Media) (new : List TrackId) : Prop where
  live : ∀ t ∈ m'.live, t ∈ m.live ∨ t ∈ m'.own ∨ t ∈ new
  own : ∀ t ∈ m'.live, t ∈ m.own → t ∈ m'.own
  stream : ∀ stream, ∀ t ∈ m'.live, t ∈ m.hardware (some stream) →
    t ∈ m'.hardware (some stream) ∨ t ∈ m'.own

section
variable {m m' m'' : Media} {new : List TrackId} {t : TrackId} {stream : StreamId}
  {camera : TrackId} {handle : Bool}

theorem mem_own : t ∈ m.own ↔ m.groupVoiceHandle = some t ∨ m.groupCamFx = some t ∨
    m.groupCameraTrack = some (.raw t) ∨ m.groupScreenTrack = some t ∨
    m.groupScreenAudioTrack = some t := by
  have hcamera : m.groupCameraTrack.bind Track.hardware = some t ↔
      m.groupCameraTrack = some (.raw t) := by
    rcases m.groupCameraTrack with _ | ⟨id | id⟩ <;> simp [Track.hardware]
  simp only [own, List.mem_append, Option.mem_toList, hcamera, or_assoc]

theorem mem_hardware : t ∈ m.hardware (some stream) ↔ .raw t ∈ m.getTracks stream := by
  rw [hardware, Option.elim_some, List.mem_filterMap]
  constructor
  · rintro ⟨_ | _, htrack, ht⟩ <;> cases ht
    exact htrack
  · exact fun ht => ⟨_, ht, rfl⟩

theorem getTracks_setTracks (tracks : List Track) (stream' : StreamId) :
    (m.setTracks stream tracks).getTracks stream' =
      if stream' = stream then tracks else m.getTracks stream' := by
  rw [getTracks, setTracks, InsMap.get?_set]
  split_ifs <;> rfl

theorem mem_stop {ids : List TrackId} : t ∈ (m.stop ids).live ↔ t ∈ m.live ∧ t ∉ ids := by
  rw [stop, List.mem_filter, decide_eq_true_iff]

/-- What runs after `m''` ran in `m'` already. -/
theorem Keeps.trans (h : Keeps m m' new) (h' : Keeps m' m'' [])
    (hsub : ∀ t ∈ m''.live, t ∈ m'.live) : Keeps m m'' new where
  live t ht := (h.live t (hsub t ht)).imp_right (Or.imp_left (h'.own t ht))
  own t ht hown := h'.own t ht (h.own t (hsub t ht) hown)
  stream stream t ht hmem := by
    rcases h.stream stream t (hsub t ht) hmem with hmem | hown
    · exact h'.stream stream t ht hmem
    · exact .inr (h'.own t ht hown)

/-- Tracks stop, and of the variables only those that held them change. -/
theorem Keeps.of_stop (hlive : ∀ t ∈ m'.live, t ∈ m.live) (hstreams : m'.streams = m.streams)
    (hown : ∀ t ∈ m'.live, t ∈ m.own → t ∈ m'.own) : Keeps m m' [] where
  live t ht := .inl (hlive t ht)
  own := hown
  stream stream t _ hmem := by
    refine .inl ?_
    rw [mem_hardware, getTracks] at hmem ⊢
    rwa [hstreams]

theorem keeps_stop (ids : List TrackId) : Keeps m (m.stop ids) [] :=
  .of_stop (fun _ ht => (mem_stop.1 ht).1) rfl fun _ _ hown => hown

theorem keeps_disposeVoice : Keeps m m.disposeVoice [] := by
  refine .of_stop (fun _ ht => (mem_stop.1 ht).1) rfl fun t ht hown => ?_
  rw [mem_own] at hown ⊢
  rcases hown with hvoice | hown
  · exact absurd (Option.mem_toList.2 hvoice) (mem_stop.1 ht).2
  · exact .inr hown

theorem keeps_disposeCamFx : Keeps m m.disposeCamFx [] := by
  refine .of_stop (fun _ ht => (mem_stop.1 ht).1) rfl fun t ht hown => ?_
  rw [mem_own] at hown ⊢
  rcases hown with hvoice | hfx | hown
  · exact .inl hvoice
  · exact absurd (Option.mem_toList.2 hfx) (mem_stop.1 ht).2
  · exact .inr (.inr hown)

theorem keeps_start (ids : List TrackId) : Keeps m (m.start ids) ids where
  live _ ht := (List.mem_append.1 ht).imp_right .inr
  own _ _ hown := hown
  stream _ _ _ hmem := .inl hmem

/-- A stream that was not there yet. -/
theorem keeps_capture {ids : List TrackId} (hstream : m.streams.get? stream = none) :
    Keeps m (m.capture stream ids) ids where
  live _ ht := (List.mem_append.1 ht).imp_right .inr
  own _ _ hown := hown
  stream stream' t _ hmem := by
    refine .inl ?_
    rw [mem_hardware] at hmem ⊢
    rw [capture, getTracks_setTracks]
    split_ifs with heq
    · rw [heq, getTracks, hstream] at hmem
      cases hmem
    · exact hmem

/-- A track that a chain takes over leaves its stream. -/
theorem stream_replaceTrack (stream : StreamId) (id : TrackId) {stream' : StreamId}
    (hmem : t ∈ m.hardware (some stream')) :
    t ∈ (m.replaceTrack stream id).hardware (some stream') ∨ t = id := by
  rw [mem_hardware] at hmem ⊢
  rw [replaceTrack, getTracks_setTracks]
  split_ifs with heq
  · by_cases ht : t = id
    · exact .inr ht
    · refine .inl (List.mem_append_left _ ((List.mem_erase_of_ne ?_).2 (heq ▸ hmem)))
      exact fun h => ht (Track.raw.inj h)
  · exact .inl hmem

theorem keeps_attachVoice {mic : TrackId} (hvoice : m.groupVoiceHandle = none) :
    Keeps m (m.attachVoice stream mic handle) [] := by
  have hown : ∀ m' : Media, m'.groupCamFx = m.groupCamFx →
      m'.groupCameraTrack = m.groupCameraTrack → m'.groupScreenTrack = m.groupScreenTrack →
      m'.groupScreenAudioTrack = m.groupScreenAudioTrack → ∀ t ∈ m.own, t ∈ m'.own := by
    intro m' hfx hcamera hscreen haudio t hown
    rw [mem_own, hvoice] at hown
    rw [mem_own, hfx, hcamera, hscreen, haudio]
    exact .inr (hown.resolve_left nofun)
  cases handle with
  | true =>
    refine ⟨fun t ht => .inl ht, fun t _ => hown (m.attachVoice stream mic true) rfl rfl rfl rfl t,
      fun stream' t _ hmem => ?_⟩
    rcases stream_replaceTrack stream mic hmem with hmem | rfl
    · exact .inl hmem
    · exact .inr (mem_own.2 (.inl rfl))
  | false =>
    exact .of_stop (fun _ ht => ht) rfl fun t _ =>
      hown (m.attachVoice stream mic false) rfl rfl rfl rfl t

/-- The camera of a call, when there is none yet. -/
theorem own_camera (hfx : m.groupCamFx = none)
    (hcamera : ∀ camera ∈ m.groupCameraTrack, m.ended camera = true) (ht : t ∈ m.live)
    (hown : t ∈ m.own) (hvoice : m'.groupVoiceHandle = m.groupVoiceHandle)
    (hscreen : m'.groupScreenTrack = m.groupScreenTrack)
    (haudio : m'.groupScreenAudioTrack = m.groupScreenAudioTrack) : t ∈ m'.own := by
  rw [mem_own] at hown ⊢
  rw [hvoice, hscreen, haudio]
  rcases hown with hown | hown | hown | hown
  · exact .inl hown
  · rw [hfx] at hown
    cases hown
  · have hended := hcamera _ hown
    rw [ended, decide_eq_true_iff] at hended
    exact absurd ht hended
  · exact .inr (.inr (.inr hown))

theorem keeps_publishCamera (hfx : m.groupCamFx = none) (hcamera : m.groupCameraTrack = none) :
    Keeps m (m.publishCamera stream camera handle) [] := by
  have hended : ∀ camera ∈ m.groupCameraTrack, m.ended camera = true := by
    rw [hcamera]
    exact nofun
  cases handle with
  | true =>
    refine ⟨fun t ht => .inl ht, fun t ht hown => own_camera hfx hended ht hown rfl rfl rfl,
      fun stream' t _ hmem => ?_⟩
    rcases stream_replaceTrack stream camera hmem with hmem | rfl
    · exact .inl hmem
    · exact .inr (mem_own.2 (.inr (.inl rfl)))
  | false =>
    exact .of_stop (fun _ ht => ht) rfl fun t ht hown => own_camera hfx hended ht hown rfl rfl rfl

theorem addTrack_eq (m : Media) (stream : StreamId) (track : Track) :
    ∃ streams, m.addTrack stream track = { m with streams := streams } := by
  rw [addTrack]
  split_ifs
  · exact ⟨m.streams, rfl⟩
  · exact ⟨_, rfl⟩

theorem stream_addTrack {track : Track} {stream' : StreamId}
    (hmem : t ∈ m.hardware (some stream')) :
    t ∈ (m.addTrack stream track).hardware (some stream') := by
  rw [addTrack]
  split_ifs
  · exact hmem
  · rw [mem_hardware] at hmem ⊢
    rw [getTracks_setTracks]
    split_ifs with heq
    · exact List.mem_append_left _ (heq ▸ hmem)
    · exact hmem

theorem keeps_cameraOn (hfx : m.groupCamFx = none)
    (hcamera : ∀ camera ∈ m.groupCameraTrack, m.ended camera = true) :
    Keeps m (m.cameraOn stream camera handle) [] := by
  obtain ⟨streams, hadd⟩ := addTrack_eq (m.wrapCamera camera handle) stream
    (published camera handle)
  have hon : m.cameraOn stream camera handle = { m.wrapCamera camera handle with
      streams := streams
      groupCameraTrack := some (published camera handle) } := by
    rw [cameraOn, hadd]
  have hlive : (m.cameraOn stream camera handle).live = m.live := by
    rw [hon]
    cases handle <;> rfl
  refine ⟨fun t ht => .inl (hlive ▸ ht), fun t ht hown => ?_, fun stream' t _ hmem => .inl ?_⟩
  · refine own_camera hfx hcamera (hlive ▸ ht) hown ?_ ?_ ?_ <;> rw [hon] <;> cases handle <;> rfl
  · have hwrap : t ∈ (m.wrapCamera camera handle).hardware (some stream') := by
      cases handle <;> exact hmem
    exact stream_addTrack hwrap

/-- The new camera is held. -/
theorem mem_own_cameraOn : camera ∈ (m.cameraOn stream camera handle).own := by
  obtain ⟨streams, hadd⟩ := addTrack_eq (m.wrapCamera camera handle) stream
    (published camera handle)
  rw [mem_own, cameraOn, hadd]
  cases handle with
  | true => exact .inr (.inl rfl)
  | false => exact .inr (.inr (.inl rfl))

theorem keeps_cameraOff {track : Track} (htrack : m.groupCameraTrack = some track) :
    Keeps m (m.cameraOff stream track) [] := by
  refine ⟨fun t ht => ?_, fun t ht hown => ?_, fun stream' t ht hmem => .inl ?_⟩
  · exact .inl (mem_stop.1 (mem_stop.1 ht).1).1
  · rw [mem_own] at hown ⊢
    rcases hown with hvoice | hfx | hcamera | hscreen
    · exact .inl hvoice
    · exact absurd (Option.mem_toList.2 hfx) (mem_stop.1 (mem_stop.1 ht).1).2
    · rw [htrack] at hcamera
      cases hcamera
      exact absurd (List.mem_singleton_self t) (mem_stop.1 ht).2
    · exact .inr (.inr (.inr hscreen))
  · rw [mem_hardware] at hmem ⊢
    change .raw t ∈ (m.removeTrack stream track).getTracks stream'
    rw [removeTrack, getTracks_setTracks]
    split_ifs with heq
    · refine (List.mem_erase_of_ne ?_).2 (heq ▸ hmem)
      rintro rfl
      exact absurd (List.mem_singleton_self t) (mem_stop.1 ht).2
    · exact hmem

theorem keeps_screenOn {video : TrackId} {audio : Option TrackId}
    (hvideo : m.groupScreenTrack = none) (haudio : m.groupScreenAudioTrack = none) :
    Keeps m (m.screenOn video audio) [] := by
  refine ⟨fun t ht => ?_, fun t _ hown => ?_, fun _ _ _ hmem => .inl hmem⟩
  · rcases List.mem_append.1 ht with ht | ht
    · exact .inl ht
    · refine .inr (.inl (mem_own.2 (.inr (.inr (.inr ?_)))))
      rcases List.mem_cons.1 ht with rfl | ht
      · exact .inl rfl
      · exact .inr (Option.mem_toList.1 ht)
  · rw [mem_own, hvideo, haudio] at hown
    rw [mem_own]
    rcases hown with hown | hown | hown | hown | hown
    · exact .inl hown
    · exact .inr (.inl hown)
    · exact .inr (.inr (.inl hown))
    · cases hown
    · cases hown

theorem keeps_screenOff : Keeps m m.screenOff [] := by
  refine .of_stop (fun _ ht => (mem_stop.1 ht).1) rfl fun t ht hown => ?_
  rw [mem_own] at hown ⊢
  rcases hown with hown | hown | hown | hown | hown
  · exact .inl hown
  · exact .inr (.inl hown)
  · exact .inr (.inr (.inl hown))
  · exact absurd (List.mem_append_left _ (Option.mem_toList.2 hown)) (mem_stop.1 ht).2
  · exact absurd (List.mem_append_right _ (Option.mem_toList.2 hown)) (mem_stop.1 ht).2

/-- What is released runs no longer. -/
theorem mem_release {localStream : Option StreamId} (ht : t ∈ (m.release localStream).live) :
    t ∈ m.live ∧ t ∉ m.own ∧ t ∉ m.hardware localStream := by
  have h1 := mem_stop.1 ht
  have h2 := mem_stop.1 h1.1
  have h3 := mem_stop.1 h2.1
  have h4 := mem_stop.1 h3.1
  have h5 := mem_stop.1 h4.1
  refine ⟨h5.1, fun hown => ?_, h1.2⟩
  rw [mem_own] at hown
  rcases hown with hown | hown | hown | hown | hown
  · exact h4.2 (Option.mem_toList.2 hown)
  · exact h3.2 (Option.mem_toList.2 hown)
  · refine h2.2 (Option.mem_toList.2 ?_)
    change m.groupCameraTrack.bind Track.hardware = some t
    rw [hown]
    rfl
  · exact h5.2 (List.mem_append_left _ (Option.mem_toList.2 hown))
  · exact h5.2 (List.mem_append_right _ (Option.mem_toList.2 hown))

end

end Media

/-! ## What holds of every run -/

namespace Task

def OfSfu : Task → Bool
  | .joinLoad _ _ _ | .sfuToken _ _ _ | .sfuConnect _ _ _ | .sfuPublish _ _ _
  | .sfuDisconnect _ _ _ | .sfuJoined _ | .sfuLeave => true
  | _ => false

/-- The stream that a join has obtained. -/
def stream : Task → Option StreamId
  | .relayVoice _ stream _ | .meshVoice _ stream _ _ | .meshCamera _ stream _ => some stream
  | _ => none

/-- The tracks that a function has obtained. -/
def holds (m : Media) : Task → List TrackId
  | .cameraEffects _ camera => [camera]
  | t => m.hardware t.stream

def Fits (fresh : ℕ) (t : Task) : Prop := t.OfSfu = false ∧ ∀ stream ∈ t.stream, stream < fresh

theorem Fits.mono {n n' : ℕ} (hn : n ≤ n') {t : Task} (ht : t.Fits n) : t.Fits n' :=
  ⟨ht.1, fun stream h => Nat.lt_of_lt_of_le (ht.2 stream h) hn⟩

end Task

namespace State

/-- A track is held by the module, by the call, or by a function: one that waits, or the one that
    runs (`xs`). -/
def Accounted (s : State) (xs : List TrackId) (t : TrackId) : Prop :=
  t ∈ xs ∨ t ∈ s.media.own ∨ t ∈ s.media.hardware s.localStream ∨
    ∃ i task, s.tasks.get? i = some task ∧ t ∈ task.holds s.media

/-- Nothing of a call is held by the module. -/
structure Bare (s : State) : Prop where
  isInGroupCall : s.isInGroupCall = false
  voice : s.media.groupVoiceHandle = none
  camFx : s.media.groupCamFx = none
  screen : s.media.groupScreenTrack = none
  links : s.links.Bare

structure Sound (s : State) (left : Bool) (xs : List TrackId) : Prop where
  links : s.links.OnePerPeer
  accounted : ∀ t ∈ s.media.live, s.Accounted xs t
  streams : ∀ stream, s.fresh ≤ stream → s.media.streams.get? stream = none
  localStream : ∀ stream ∈ s.localStream, stream < s.fresh
  screen : s.media.groupScreenTrack = none → s.media.groupScreenAudioTrack = none
  idle : s.isInGroupCall = false → s.localStream = none ∧ s.media.groupCameraTrack = none
  bare : left = true → s.Bare
  tasks : ∀ i t, s.tasks.get? i = some t → i < s.started ∧ t.Fits s.fresh
  sfu : s.livekitActive = false ∧ s.sfuRooms = []

section
variable {s : State} {left : Bool} {xs ys new : List TrackId} {t : Task} {n : ℕ}

theorem holds_keeps {m m' : Media} (h : m.Keeps m' new) {id : TrackId} (hid : id ∈ m'.live)
    (ht : id ∈ t.holds m) : id ∈ t.holds m' ∨ id ∈ m'.own := by
  have hstream : id ∈ m.hardware t.stream → id ∈ m'.hardware t.stream ∨ id ∈ m'.own := by
    intro hmem
    cases hs : t.stream with
    | none =>
      rw [hs] at hmem
      cases hmem
    | some stream =>
      rw [hs] at hmem
      exact h.stream stream id hid hmem
  cases t with
  | cameraEffects _ camera => exact .inl ht
  | _ => exact hstream ht

/-- The tracks of the function that runs are held otherwise. -/
theorem Sound.account (hs : s.Sound left xs)
    (h : ∀ id ∈ xs, id ∈ s.media.live → s.Accounted ys id) : s.Sound left ys :=
  { hs with
    accounted := fun id hid => by
      rcases hs.accounted id hid with hxs | hrest
      · exact h id hxs hid
      · exact .inr hrest }

theorem Sound.await (hs : s.Sound left (t.holds s.media)) (ht : t.Fits s.fresh) :
    (s.await t).Sound left [] where
  links := hs.links
  accounted id hid := by
    have hnew : (s.await t).tasks.get? s.started = some t := InsMap.get?_set_self _ _ _
    rcases hs.accounted id hid with hmem | hown | hfeed | ⟨i, task, hi, hmem⟩
    · exact .inr (.inr (.inr ⟨_, t, hnew, hmem⟩))
    · exact .inr (.inl hown)
    · exact .inr (.inr (.inl hfeed))
    · refine .inr (.inr (.inr ⟨i, task, ?_, hmem⟩))
      exact (InsMap.get?_set_ne _ _ (Nat.ne_of_lt (hs.tasks i task hi).1)).trans hi
  streams := hs.streams
  localStream := hs.localStream
  screen := hs.screen
  idle := hs.idle
  bare h := ⟨(hs.bare h).isInGroupCall, (hs.bare h).voice, (hs.bare h).camFx, (hs.bare h).screen,
    (hs.bare h).links⟩
  tasks i task hi := by
    change (s.tasks.set s.started t).get? i = some task at hi
    rw [InsMap.get?_set] at hi
    split_ifs at hi with heq
    · cases hi
      exact ⟨heq ▸ Nat.lt_succ_self _, ht⟩
    · exact ⟨Nat.lt_succ_of_lt (hs.tasks i task hi).1, (hs.tasks i task hi).2⟩
  sfu := hs.sfu

/-- A function that goes on. -/
theorem Sound.wake (hs : s.Sound left []) {i : TaskId} (hi : s.tasks.get? i = some t) :
    { s with tasks := s.tasks.delete i }.Sound left (t.holds s.media) where
  links := hs.links
  accounted id hid := by
    rcases hs.accounted id hid with hmem | hown | hfeed | ⟨j, task, hj, hmem⟩
    · cases hmem
    · exact .inr (.inl hown)
    · exact .inr (.inr (.inl hfeed))
    · by_cases heq : j = i
      · rw [heq, hi] at hj
        cases hj
        exact .inl hmem
      · exact .inr (.inr (.inr ⟨j, task, (InsMap.get?_delete_ne _ heq).trans hj, hmem⟩))
  streams := hs.streams
  localStream := hs.localStream
  screen := hs.screen
  idle := hs.idle
  bare h := ⟨(hs.bare h).isInGroupCall, (hs.bare h).voice, (hs.bare h).camFx, (hs.bare h).screen,
    (hs.bare h).links⟩
  tasks j task hj := by
    change (s.tasks.delete i).get? j = some task at hj
    rw [InsMap.get?_delete] at hj
    split_ifs at hj
    exact hs.tasks j task hj
  sfu := hs.sfu

theorem Sound.setLinks (hs : s.Sound left xs) {l : Links} (hl : l.OnePerPeer) (hn : s.fresh ≤ n)
    (hbare : left = true → l.Bare) : { s with links := l, fresh := n }.Sound left xs where
  links := hl
  accounted := hs.accounted
  streams stream h := hs.streams stream (Nat.le_trans hn h)
  localStream stream h := Nat.lt_of_lt_of_le (hs.localStream stream h) hn
  screen := hs.screen
  idle := hs.idle
  bare h := ⟨(hs.bare h).isInGroupCall, (hs.bare h).voice, (hs.bare h).camFx, (hs.bare h).screen,
    hbare h⟩
  tasks i task hi := ⟨(hs.tasks i task hi).1, (hs.tasks i task hi).2.mono hn⟩
  sfu := hs.sfu

/-- What an operation on the tracks keeps, when they are held by the function that runs. -/
theorem Sound.setMedia (hs : s.Sound left xs) {m : Media} (hkeeps : s.media.Keeps m new)
    (hn : s.fresh ≤ n) (hstreams : ∀ stream, n ≤ stream → m.streams.get? stream = none)
    (hscreen : m.groupScreenTrack = none → m.groupScreenAudioTrack = none)
    (hidle : s.isInGroupCall = false → m.groupCameraTrack = none)
    (hbare : left = true → m.groupVoiceHandle = none ∧ m.groupCamFx = none ∧
      m.groupScreenTrack = none) :
    { s with media := m, fresh := n }.Sound left (xs ++ new) where
  links := hs.links
  accounted id hid := by
    rcases hkeeps.live id hid with hlive | hown | hnew
    · rcases hs.accounted id hlive with hmem | hown | hfeed | ⟨i, task, hi, hmem⟩
      · exact .inl (List.mem_append_left _ hmem)
      · exact .inr (.inl (hkeeps.own id hid hown))
      · cases hstream : s.localStream with
        | none =>
          rw [hstream] at hfeed
          cases hfeed
        | some stream =>
          rw [hstream] at hfeed
          rcases hkeeps.stream stream id hid hfeed with hfeed | hown
          · exact .inr (.inr (.inl hfeed))
          · exact .inr (.inl hown)
      · rcases holds_keeps hkeeps hid hmem with hmem | hown
        · exact .inr (.inr (.inr ⟨i, task, hi, hmem⟩))
        · exact .inr (.inl hown)
    · exact .inr (.inl hown)
    · exact .inl (List.mem_append_right _ hnew)
  streams := hstreams
  localStream stream h := Nat.lt_of_lt_of_le (hs.localStream stream h) hn
  screen := hscreen
  idle h := ⟨(hs.idle h).1, hidle h⟩
  bare h := ⟨(hs.bare h).isInGroupCall, (hbare h).1, (hbare h).2.1, (hbare h).2.2,
    (hs.bare h).links⟩
  tasks i task hi := ⟨(hs.tasks i task hi).1, (hs.tasks i task hi).2.mono hn⟩
  sfu := hs.sfu

/-- A call that has a stream was not left. -/
theorem Sound.not_left (hs : s.Sound left xs) {stream : StreamId}
    (h : s.localStream = some stream) : left = false := by
  by_contra hleft
  have hbare := hs.bare (by simpa using hleft)
  rw [(hs.idle hbare.isInGroupCall).1] at h
  cases h

/-- An operation on the stream that a join has obtained. -/
theorem Sound.setStream {stream : StreamId} {m : Media}
    (hs : s.Sound false (s.media.hardware (some stream))) (hkeeps : s.media.Keeps m [])
    (hstreams : ∀ stream, s.fresh ≤ stream → m.streams.get? stream = none)
    (hscreen : m.groupScreenTrack = none → m.groupScreenAudioTrack = none)
    (hidle : s.isInGroupCall = false → m.groupCameraTrack = none) :
    { s with media := m }.Sound false (m.hardware (some stream)) := by
  refine (hs.setMedia hkeeps (Nat.le_refl _) hstreams hscreen hidle nofun).account
    fun id hid hlive => ?_
  rw [List.append_nil] at hid
  rcases hkeeps.stream stream id hlive hid with hid | hown
  · exact .inl hid
  · exact .inr (.inl hown)

/-- A join is done: the call holds its stream. -/
theorem Sound.enter {room : RoomId} {transport : Transport} {stream : StreamId} {m : Media}
    (hs : s.Sound false (s.media.hardware (some stream))) (hidle : s.isInGroupCall = false)
    (hstream : stream < s.fresh) (hkeeps : s.media.Keeps m [])
    (hstreams : ∀ stream, s.fresh ≤ stream → m.streams.get? stream = none)
    (hscreen : m.groupScreenTrack = none → m.groupScreenAudioTrack = none) (relay : Bool) :
    ({ s with media := m, groupRelayMode := relay }.enter room transport stream).Sound
      false [] where
  links := hs.links
  accounted id hid := by
    have hlive : id ∈ s.media.live ∨ id ∈ m.own := (hkeeps.live id hid).imp_right
      fun h => h.resolve_right List.not_mem_nil
    rcases hlive with hlive | hown
    · rcases hs.accounted id hlive with hmem | hown | hfeed | ⟨i, task, hi, hmem⟩
      · rcases hkeeps.stream stream id hid hmem with hmem | hown
        · exact .inr (.inr (.inl hmem))
        · exact .inr (.inl hown)
      · exact .inr (.inl (hkeeps.own id hid hown))
      · rw [(hs.idle hidle).1] at hfeed
        cases hfeed
      · rcases holds_keeps hkeeps hid hmem with hmem | hown
        · exact .inr (.inr (.inr ⟨i, task, hi, hmem⟩))
        · exact .inr (.inl hown)
    · exact .inr (.inl hown)
  streams := hstreams
  localStream _ h := Option.mem_some.1 h ▸ hstream
  screen := hscreen
  idle := nofun
  bare := nofun
  tasks := hs.tasks
  sfu := hs.sfu

/-- A new stream. -/
theorem Sound.captured (hs : s.Sound left []) (ids : List TrackId) :
    (s.captured ids).Sound left ((s.captured ids).media.hardware (some s.fresh)) := by
  have hids : (s.captured ids).media.hardware (some s.fresh) = ids := by
    have htracks : (s.captured ids).media.getTracks s.fresh = ids.map Track.raw := by
      rw [Media.getTracks]
      change ((s.media.streams.set s.fresh (ids.map Track.raw)).get? s.fresh).getD [] = _
      rw [InsMap.get?_set_self]
      rfl
    rw [Media.hardware, Option.elim_some, htracks, List.filterMap_map]
    exact List.filterMap_some
  have hkeeps : s.media.Keeps (s.media.capture s.fresh ids).disposeVoice ids :=
    (Media.keeps_capture (hs.streams _ (Nat.le_refl _))).trans Media.keeps_disposeVoice
      fun _ ht => (Media.mem_stop.1 ht).1
  rw [hids]
  refine hs.setMedia hkeeps (Nat.le_add_right _ _) (fun stream h => ?_) hs.screen
    (fun h => (hs.idle h).2) fun h => ⟨rfl, (hs.bare h).camFx, (hs.bare h).screen⟩
  change (s.media.streams.set s.fresh (ids.map Track.raw)).get? stream = none
  have hne : stream ≠ s.fresh := by omega
  exact (InsMap.get?_set_ne _ _ hne).trans (hs.streams stream (by omega))

/-- A join goes on with a new stream. -/
theorem fits_captured {ids : List TrackId} (ht : t.OfSfu = false)
    (hstream : t.stream = some s.fresh) : t.Fits (s.captured ids).fresh := by
  refine ⟨ht, fun stream h => ?_⟩
  rw [hstream] at h
  cases h
  exact Nat.lt_add_of_pos_right (by decide)

/-! ### Links -/

theorem Bare.cleanupPeer {l : Links} (hl : l.Bare) (peer : UserId) : l.cleanupPeer peer = l := by
  have hstop : l.stopRelayPeer peer = l := by
    rw [Links.stopRelayPeer, hl.2 peer]
  rw [Links.cleanupPeer, hstop, Links.closePc, hl.1 peer]

theorem Sound.cleanupPeer (hs : s.Sound left xs) (peer : UserId) :
    (s.cleanupPeer peer).Sound left xs := by
  refine hs.setLinks hs.links.cleanupPeer (Nat.le_refl _) fun hleft => ?_
  have hbare := (hs.bare hleft).links
  rwa [Bare.cleanupPeer hbare]

theorem Sound.createPeerConnection {stream : StreamId} (hs : s.Sound left xs) {peer : UserId}
    (hstream : s.localStream = some stream) (hpeer : s.links.peerConnections.has peer = false) :
    (s.createPeerConnection peer).Sound left xs := by
  refine hs.setLinks (hs.links.createPeerConnection hpeer) (Nat.le_succ _) fun hleft => ?_
  rw [hs.not_left hstream] at hleft
  cases hleft

theorem Sound.startRelayCaptureForPeer (hs : s.Sound left []) (peer : UserId) :
    (s.startRelayCaptureForPeer peer).Sound left [] := by
  rw [State.startRelayCaptureForPeer]
  split
  · split_ifs
    · exact hs
    · exact hs.await ⟨rfl, fun _ h => by cases h⟩
  · exact hs

theorem startRelayCaptureForPeer_groupRelayMode (peer : UserId) :
    (s.startRelayCaptureForPeer peer).groupRelayMode = s.groupRelayMode := by
  rw [State.startRelayCaptureForPeer]
  split
  · split_ifs <;> rfl
  · rfl

theorem Sound.link_relay {localStream : Option StreamId} (peers : List UserId)
    (hs : s.Sound left []) (hrelay : s.groupRelayMode = true) :
    (peers.foldl (State.link localStream) s).Sound left [] := by
  induction peers generalizing s with
  | nil => exact hs
  | cons peer peers ih =>
    rw [List.foldl_cons, State.link, if_pos hrelay]
    refine ih (hs.startRelayCaptureForPeer peer) ?_
    rwa [startRelayCaptureForPeer_groupRelayMode]

theorem Sound.link_none (peers : List UserId) (hs : s.Sound left []) :
    (peers.foldl (State.link none) s).Sound left [] := by
  by_cases hrelay : s.groupRelayMode = true
  · exact hs.link_relay peers hrelay
  · have hsame : ∀ peers : List UserId, peers.foldl (State.link none) s = s := by
      intro peers
      induction peers with
      | nil => rfl
      | cons peer peers ih =>
        rw [List.foldl_cons, State.link, if_neg hrelay]
        exact ih
    rwa [hsame]

theorem Sound.link_mesh {localStream : Option StreamId} {stream : StreamId} {peers : List UserId}
    (hs : s.Sound left []) (hrelay : s.groupRelayMode ≠ true)
    (hstream : s.localStream = some stream) (hnodup : peers.Nodup)
    (hpeers : ∀ peer ∈ peers, s.links.peerConnections.has peer = false) :
    (peers.foldl (State.link localStream) s).Sound left [] := by
  induction peers generalizing s with
  | nil => exact hs
  | cons peer peers ih =>
    obtain ⟨hpeer, hnodup⟩ := List.nodup_cons.1 hnodup
    rw [List.foldl_cons, State.link, if_neg hrelay]
    split_ifs
    · refine ih (hs.createPeerConnection hstream (hpeers peer List.mem_cons_self)) hrelay hstream
        hnodup fun peer' hpeer' => ?_
      have hne : peer' ≠ peer := fun heq => hpeer (heq ▸ hpeer')
      rw [InsMap.has_eq_false]
      exact (InsMap.get?_set_ne _ _ hne).trans
        (InsMap.has_eq_false.1 (hpeers peer' (List.mem_cons_of_mem _ hpeer')))
    · exact ih hs hrelay hstream hnodup fun peer' h => hpeers peer' (List.mem_cons_of_mem _ h)

/-! ### Leaving -/

theorem announceLeave_eq (s : State) :
    ∃ signals, s.announceLeave = { s with signals := signals } := by
  rw [State.announceLeave]
  split
  · exact ⟨_, rfl⟩
  · exact ⟨s.signals, rfl⟩

theorem Sound.cleanupAll (hs : s.Sound left []) : s.cleanupAll.Sound true [] := by
  obtain ⟨signals, hannounce⟩ := announceLeave_eq s
  have hbare : s.links.cleanupAll.closeAll.Bare := Links.closeAll_bare s.links.cleanupAll_captures
  rw [State.cleanupAll, hannounce]
  exact {
    links := hs.links.cleanupAll.closeAll
    accounted := fun id hid => by
      obtain ⟨hlive, hown, hfeed⟩ := Media.mem_release (Media.mem_stop.1 hid).1
      rcases hs.accounted id hlive with hmem | hmem | hmem | ⟨i, task, hi, hmem⟩
      · cases hmem
      · exact absurd hmem hown
      · exact absurd hmem hfeed
      · refine .inr (.inr (.inr ⟨i, task, hi, ?_⟩))
        cases task <;> exact hmem
    streams := hs.streams
    localStream := nofun
    screen := fun _ => rfl
    idle := fun _ => ⟨rfl, rfl⟩
    bare := fun _ => ⟨rfl, rfl, rfl, rfl, hbare⟩
    tasks := hs.tasks
    sfu := hs.sfu }

/-! ### Going on -/

theorem Sound.joinGroupAudioRelayCall (hs : s.Sound left []) (room : RoomId) :
    (s.joinGroupAudioRelayCall room).Sound left [] :=
  hs.await ⟨rfl, nofun⟩

theorem Sound.meshFallback (hs : s.Sound left []) (room : RoomId) (isVideo mesh : Bool) :
    (s.meshFallback room isVideo mesh).Sound left [] := by
  rw [State.meshFallback]
  split_ifs
  · exact hs.await ⟨rfl, nofun⟩
  · exact hs

theorem streams_replaceTrack {stream : StreamId} {id : TrackId} (hs : s.Sound left xs)
    (hstream : stream < s.fresh) (stream' : StreamId) (h : s.fresh ≤ stream') :
    (s.media.replaceTrack stream id).streams.get? stream' = none :=
  (InsMap.get?_set_ne _ _ (Nat.ne_of_gt (Nat.lt_of_lt_of_le hstream h))).trans
    (hs.streams stream' h)

theorem streams_attachVoice {stream : StreamId} {mic : TrackId} {handle : Bool}
    (hs : s.Sound left xs) (hstream : stream < s.fresh) (stream' : StreamId)
    (h : s.fresh ≤ stream') :
    (s.media.attachVoice stream mic handle).streams.get? stream' = none := by
  cases handle with
  | true => exact streams_replaceTrack hs hstream stream' h
  | false => exact hs.streams stream' h

theorem screen_attachVoice {stream : StreamId} {mic : TrackId} {handle : Bool}
    (hs : s.Sound left xs) :
    (s.media.attachVoice stream mic handle).groupScreenTrack = none →
      (s.media.attachVoice stream mic handle).groupScreenAudioTrack = none := by
  cases handle <;> exact hs.screen

theorem camera_attachVoice {m : Media} {stream : StreamId} {mic : TrackId} {handle : Bool} :
    (m.attachVoice stream mic handle).groupCameraTrack = m.groupCameraTrack := by
  cases handle <;> rfl

theorem Sound.relayVoice {room : RoomId} {stream : StreamId} {mic : TrackId} {handle : Bool}
    (hs : s.Sound false (s.media.hardware (some stream))) (hidle : s.isInGroupCall = false)
    (hstream : stream < s.fresh) (hvoice : s.media.groupVoiceHandle = none) :
    ({ s with
      media := s.media.attachVoice stream mic handle
      groupRelayMode := true }.enter room .audioRelay stream).Sound false [] :=
  hs.enter hidle hstream (Media.keeps_attachVoice hvoice) (streams_attachVoice hs hstream)
    (screen_attachVoice hs) true

theorem Sound.meshVoice {room : RoomId} {stream : StreamId} {mic : TrackId} {handle : Bool}
    (hs : s.Sound false (s.media.hardware (some stream))) (hidle : s.isInGroupCall = false)
    (hstream : stream < s.fresh) (hvoice : s.media.groupVoiceHandle = none) :
    ({ s with
      media := { s.media.attachVoice stream mic handle with groupCameraTrack := none } }.enter
        room .mesh stream).Sound false [] := by
  have hcamera : { s.media.attachVoice stream mic handle with groupCameraTrack := none } =
      s.media.attachVoice stream mic handle := by
    rw [← (hs.idle hidle).2, ← camera_attachVoice]
  rw [hcamera]
  exact hs.enter hidle hstream (Media.keeps_attachVoice hvoice) (streams_attachVoice hs hstream)
    (screen_attachVoice hs) s.groupRelayMode

theorem Sound.meshVoice_camera {room : RoomId} {stream : StreamId} {mic camera : TrackId}
    {handle : Bool} (hs : s.Sound false (s.media.hardware (some stream)))
    (hstream : stream < s.fresh) (hvoice : s.media.groupVoiceHandle = none) :
    ({ s with media := (s.media.attachVoice stream mic handle).disposeCamFx }.await
      (.meshCamera room stream camera)).Sound false [] := by
  have hkeeps : s.media.Keeps (s.media.attachVoice stream mic handle).disposeCamFx [] :=
    (Media.keeps_attachVoice hvoice).trans Media.keeps_disposeCamFx
      fun _ ht => (Media.mem_stop.1 ht).1
  refine Sound.await (hs.setStream hkeeps (streams_attachVoice hs hstream) (screen_attachVoice hs)
    fun h => ?_) ⟨rfl, fun _ h => Option.mem_some.1 h ▸ hstream⟩
  exact camera_attachVoice.trans (hs.idle h).2

theorem Sound.meshCamera {room : RoomId} {stream : StreamId} {camera : TrackId} {handle : Bool}
    (hs : s.Sound false (s.media.hardware (some stream))) (hidle : s.isInGroupCall = false)
    (hstream : stream < s.fresh) (hfx : s.media.groupCamFx = none) :
    ({ s with media := s.media.publishCamera stream camera handle }.enter room .mesh stream).Sound
      false [] := by
  refine hs.enter hidle hstream (Media.keeps_publishCamera hfx (hs.idle hidle).2) ?_ ?_
    s.groupRelayMode
  · cases handle with
    | true => exact streams_replaceTrack hs hstream
    | false => exact hs.streams
  · cases handle <;> exact hs.screen

theorem Sound.cameraMedia (hs : s.Sound left []) (stream : StreamId) :
    ({ s with
      media := (s.media.start [s.fresh]).disposeCamFx
      fresh := s.fresh + 1 }.await (.cameraEffects stream s.fresh)).Sound left [] := by
  have hkeeps : s.media.Keeps (s.media.start [s.fresh]).disposeCamFx [s.fresh] :=
    (Media.keeps_start _).trans Media.keeps_disposeCamFx fun _ ht => (Media.mem_stop.1 ht).1
  refine Sound.await (hs.setMedia hkeeps (Nat.le_succ _) (fun stream h => ?_) hs.screen
    (fun h => (hs.idle h).2) fun h => ⟨(hs.bare h).voice, rfl, (hs.bare h).screen⟩) ⟨rfl, nofun⟩
  exact hs.streams stream (Nat.le_of_succ_le h)

theorem Sound.cameraEffects {stream : StreamId} {camera : TrackId} {handle : Bool}
    (hs : s.Sound left [camera]) (hstream : s.localStream = some stream)
    (hfx : s.media.groupCamFx = none)
    (hcamera : ∀ camera ∈ s.media.groupCameraTrack, s.media.ended camera = true) :
    { s with
      media := s.media.cameraOn stream camera handle
      localStream := some stream }.Sound left [] := by
  have hcall : s.isInGroupCall ≠ false := by
    intro hidle
    rw [(hs.idle hidle).1] at hstream
    cases hstream
  obtain ⟨streams, hadd⟩ := Media.addTrack_eq (s.media.wrapCamera camera handle) stream
    (Media.published camera handle)
  have hstreams : ∀ stream', s.fresh ≤ stream' →
      (s.media.cameraOn stream camera handle).streams.get? stream' = none := by
    intro stream' h
    have hlt := hs.localStream stream hstream
    have hwrap : (s.media.wrapCamera camera handle).streams = s.media.streams := by
      cases handle <;> rfl
    change ((s.media.wrapCamera camera handle).addTrack _ _).streams.get? stream' = none
    rw [Media.addTrack]
    split_ifs
    · rw [hwrap]
      exact hs.streams stream' h
    · refine (InsMap.get?_set_ne _ _ (Nat.ne_of_gt (Nat.lt_of_lt_of_le hlt h))).trans ?_
      rw [hwrap]
      exact hs.streams stream' h
  have hkeeps : s.media.Keeps (s.media.cameraOn stream camera handle) [] :=
    Media.keeps_cameraOn hfx hcamera
  have hmedia := hs.setMedia hkeeps (Nat.le_refl _) hstreams (by
      rw [Media.cameraOn, hadd]
      cases handle <;> exact hs.screen) (fun h => absurd h hcall)
    fun h => absurd (hs.not_left hstream) (by simp [h])
  rw [← hstream]
  refine hmedia.account fun id hid _ => .inr (.inl ?_)
  rw [List.append_nil, List.mem_singleton] at hid
  exact hid ▸ Media.mem_own_cameraOn

theorem Sound.screenMedia {stream : StreamId} {audio : Option TrackId} (hs : s.Sound left [])
    (hstream : s.localStream = some stream) (hscreen : s.media.groupScreenTrack = none) :
    { s with
      media := s.media.screenOn s.fresh audio
      fresh := s.fresh + 2 }.Sound left [] := by
  refine hs.setMedia (Media.keeps_screenOn hscreen (hs.screen hscreen)) (Nat.le_add_right _ _)
    (fun stream h => hs.streams stream (by omega)) nofun (fun h => (hs.idle h).2) fun h => ?_
  rw [hs.not_left hstream] at h
  cases h

theorem Sound.goOn {o : Outcome} {s' : State} (hs : s.Sound left (t.holds s.media))
    (ht : t.Fits s.fresh) (hclear : s.Clear left t o) (h : s.goOn t o = some s') :
    s'.Sound left [] := by
  cases t with
  | joinConfig room isVideo =>
    cases o with
    | config cfg =>
      rw [State.goOn] at h
      split_ifs at h with hrelay hsfu <;> cases h
      · exact hs.joinGroupAudioRelayCall room
      · have hor := hclear hsfu
        rw [Bool.or_eq_true] at hrelay
        exact absurd hor hrelay
      · exact hs.meshFallback _ _ _
    | failed =>
      cases h
      exact hs.joinGroupAudioRelayCall room
    | _ => cases h
  | meshMedia room isVideo =>
    cases o with
    | media =>
      cases isVideo <;> cases h <;>
        exact (hs.captured _).await (fits_captured rfl rfl)
    | failed => cases isVideo <;> cases h <;> exact hs
    | _ => cases isVideo <;> cases h
  | meshVoice room stream mic camera =>
    have hstream := ht.2 stream rfl
    cases o with
    | chain handle =>
      obtain ⟨⟨rfl, hidle⟩, hvoice⟩ := hclear
      cases camera with
      | none =>
        cases h
        exact Sound.meshVoice hs hidle hstream hvoice
      | some camera =>
        cases h
        exact Sound.meshVoice_camera hs hstream hvoice
    | _ => cases camera <;> cases h
  | meshCamera room stream camera =>
    cases o with
    | chain handle =>
      obtain ⟨⟨rfl, hidle⟩, hfx⟩ := hclear
      cases h
      exact Sound.meshCamera hs hidle (ht.2 stream rfl) hfx
    | _ => cases h
  | relayMedia room =>
    cases o with
    | media =>
      cases h
      exact (hs.captured _).await (fits_captured rfl rfl)
    | failed =>
      cases h
      exact hs
    | _ => cases h
  | relayVoice room stream mic =>
    cases o with
    | chain handle =>
      obtain ⟨⟨rfl, hidle⟩, hvoice⟩ := hclear
      cases h
      exact Sound.relayVoice hs hidle (ht.2 stream rfl) hvoice
    | _ => cases h
  | joinLoad | sfuToken | sfuConnect | sfuPublish | sfuDisconnect | sfuJoined | sfuLeave =>
    cases ht.1
  | participants peers localStream =>
    cases o with
    | done =>
      cases h
      cases localStream with
      | none => exact Sound.link_none peers hs
      | some stream =>
        by_cases hrelay : s.groupRelayMode = true
        · exact Sound.link_relay peers hs hrelay
        · rcases hclear.resolve_left hrelay with rfl | ⟨hstream, hnodup, hpeers⟩
          · exact hs
          · exact Sound.link_mesh hs hrelay hstream hnodup hpeers
    | failed =>
      cases h
      exact hs
    | _ => cases h
  | captureKey peer stream =>
    cases o with
    | done =>
      cases h
      exact Sound.await hs ⟨rfl, nofun⟩
    | failed =>
      cases h
      exact hs
    | _ => cases h
  | captureStart peer stream =>
    cases o with
    | done =>
      obtain ⟨hstream, hpeer⟩ := hclear
      cases h
      refine hs.setLinks (hs.links.startCapture hpeer) (Nat.le_succ _) fun hleft => ?_
      rw [hs.not_left hstream] at hleft
      cases hleft
    | failed =>
      cases h
      exact hs
    | _ => cases h
  | offerIce peer stream =>
    cases o with
    | done =>
      obtain ⟨hstream, hpeer⟩ := hclear
      cases h
      exact Sound.await (Sound.createPeerConnection hs hstream hpeer) ⟨rfl, nofun⟩
    | failed =>
      cases h
      exact hs
    | _ => cases h
  | offerAnswer peer =>
    cases o with
    | done =>
      cases h
      exact hs
    | failed =>
      cases h
      exact Sound.cleanupPeer hs peer
    | _ => cases h
  | cameraMedia stream =>
    cases o with
    | media =>
      cases h
      exact Sound.cameraMedia hs stream
    | failed =>
      cases h
      exact hs
    | _ => cases h
  | cameraEffects stream camera =>
    cases o with
    | chain handle =>
      obtain ⟨hstream, hfx, hcamera⟩ := hclear
      cases h
      exact Sound.cameraEffects hs hstream hfx hcamera
    | _ => cases h
  | screenMedia stream =>
    cases o with
    | screen video audio =>
      cases video with
      | true =>
        obtain ⟨hstream, hscreen⟩ := hclear
        cases h
        exact Sound.screenMedia hs hstream hscreen
      | false =>
        cases h
        exact hs
    | failed =>
      cases h
      exact hs
    | _ => cases h

/-! ### Every step -/

/-- A join was requested. -/
theorem Sound.rejoin (hs : s.Sound left xs) : s.Sound false xs := { hs with bare := nofun }

theorem Sound.handleParticipantList (hs : s.Sound left []) (room : RoomId)
    (participants : List UserId) (myUserId : UserId) :
    (s.handleParticipantList room participants myUserId).Sound left [] := by
  rw [State.handleParticipantList]
  split_ifs with _ hrelay
  · exact hs
  · exact hs.link_relay _ hrelay
  · exact hs.await ⟨rfl, nofun⟩

theorem Sound.handleMemberJoin (hs : s.Sound left []) (room : RoomId) (user : UserId) :
    (s.handleMemberJoin room user).Sound left [] := by
  rw [State.handleMemberJoin]
  split_ifs
  · exact hs
  · exact hs.startRelayCaptureForPeer user

theorem Sound.handleMemberLeave (hs : s.Sound left []) (room : RoomId) (user : UserId) :
    (s.handleMemberLeave room user).Sound left [] := by
  rw [State.handleMemberLeave]
  split_ifs
  · exact hs
  · exact hs.cleanupPeer user

theorem Sound.handleGroupCallOffer (hs : s.Sound left []) (room : RoomId) (fromUser : UserId) :
    (s.handleGroupCallOffer room fromUser).Sound left [] := by
  rw [State.handleGroupCallOffer]
  split
  · split_ifs
    · exact hs
    · exact hs.await ⟨rfl, fun _ h => by cases h⟩
    · exact hs.await ⟨rfl, fun _ h => by cases h⟩
  · exact hs

theorem Sound.toggleGroupCallVideo (hs : s.Sound left []) :
    s.toggleGroupCallVideo.Sound left [] := by
  rw [State.toggleGroupCallVideo]
  split
  · rename_i stream hstream
    split_ifs
    · exact hs
    · split
      · rename_i camera hcamera
        have htrack := (Option.filter_eq_some_iff.1 hcamera).1
        refine hs.setMedia (Media.keeps_cameraOff htrack) (Nat.le_refl _) (fun stream' h => ?_)
          hs.screen (fun _ => rfl) fun h => ?_
        · have hlt := hs.localStream stream hstream
          exact (InsMap.get?_set_ne _ _ (Nat.ne_of_gt (Nat.lt_of_lt_of_le hlt h))).trans
            (hs.streams stream' h)
        · rw [hs.not_left hstream] at h
          cases h
      · exact hs.await ⟨rfl, nofun⟩
  · exact hs

theorem Sound.startGroupCallScreenShare (hs : s.Sound left []) :
    s.startGroupCallScreenShare.Sound left [] := by
  rw [State.startGroupCallScreenShare]
  split
  · split_ifs
    · exact hs
    · exact hs.await ⟨rfl, nofun⟩
  · exact hs

theorem Sound.stopGroupCallScreenShare (hs : s.Sound left []) :
    s.stopGroupCallScreenShare.Sound left [] := by
  rw [State.stopGroupCallScreenShare]
  split_ifs
  · exact hs
  · exact hs.setMedia Media.keeps_screenOff (Nat.le_refl _) hs.streams (fun _ => rfl)
      (fun h => (hs.idle h).2) fun h => ⟨(hs.bare h).voice, (hs.bare h).camFx, rfl⟩

theorem Sound.trackEnded (hs : s.Sound left []) (id : TrackId) :
    { s with media := s.media.stop [id] }.Sound left [] :=
  hs.setMedia (Media.keeps_stop _) (Nat.le_refl _) hs.streams hs.screen (fun h => (hs.idle h).2)
    fun h => ⟨(hs.bare h).voice, (hs.bare h).camFx, (hs.bare h).screen⟩

end

end State

open State in
theorem Sound.step {p p' : State × Bool} {e : Event} (hs : p.1.Sound p.2 [])
    (hok : Undisturbed p e) (h : (manager.withHistory false left).step p e = some p') :
    p'.1.Sound p'.2 [] := by
  obtain ⟨s, l⟩ := p
  obtain ⟨s', l'⟩ := p'
  obtain ⟨hstep, hleft⟩ := Machine.withHistory_step.1 h
  change s.step e = some s' at hstep
  change left l s e s' = l' at hleft
  subst hleft
  cases e with
  | joinGroupCall room isVideo =>
    cases hstep
    rw [State.joinGroupCall]
    split_ifs
    · exact hs.rejoin
    · exact hs.rejoin.await ⟨rfl, nofun⟩
  | leaveGroupCall =>
    cases hstep
    rw [State.leaveGroupCall, hs.sfu.1]
    exact hs.cleanupAll
  | handleParticipantList room participants myUserId =>
    cases hstep
    exact hs.handleParticipantList room participants myUserId
  | handleMemberJoin room user =>
    cases hstep
    exact hs.handleMemberJoin room user
  | handleMemberLeave room user =>
    cases hstep
    exact hs.handleMemberLeave room user
  | handleGroupCallOffer room fromUser =>
    cases hstep
    exact hs.handleGroupCallOffer room fromUser
  | toggleGroupCallVideo =>
    cases hstep
    exact hs.toggleGroupCallVideo
  | startGroupCallScreenShare =>
    cases hstep
    exact hs.startGroupCallScreenShare
  | stopGroupCallScreenShare =>
    cases hstep
    exact hs.stopGroupCallScreenShare
  | connectionLost pc =>
    obtain ⟨peer, -, rfl⟩ := Option.map_eq_some_iff.1 hstep
    exact hs.cleanupPeer peer
  | trackEnded id =>
    cases hstep
    exact hs.trackEnded id
  | disconnected room =>
    rw [State.step, hs.sfu.2, if_neg List.not_mem_nil] at hstep
    cases hstep
  | resume i outcome =>
    obtain ⟨t, ht, hgoOn⟩ := Option.bind_eq_some_iff.1 hstep
    exact (hs.wake ht).goOn (hs.tasks i t ht).2 (hok t ht) hgoOn

theorem sound {p : State × Bool} (hp : undisturbed.Reachable p) : p.1.Sound p.2 [] := by
  refine Machine.Invariant.reachable (I := fun p => p.1.Sound p.2 []) ⟨?_, ?_⟩ hp
  · rintro ⟨s, l⟩ ⟨rfl, rfl⟩
    exact {
      links := ⟨nofun, nofun⟩
      accounted := nofun
      streams := fun _ _ => rfl
      localStream := nofun
      screen := fun _ => rfl
      idle := fun _ => ⟨rfl, rfl⟩
      bare := nofun
      tasks := nofun
      sfu := ⟨rfl, rfl⟩ }
  · intro p e p' hs hstep
    obtain ⟨hok, hstep⟩ := Machine.restrict_step.1 hstep
    exact Sound.step hs hok hstep

/-- What is open or runs is registered, and once the call was left and everything that was pending
    is done, nothing of it is left. -/
theorem released_of_run {p : State × Bool} (hp : undisturbed.Reachable p) :
    p.1.links.OnePerPeer ∧ (p.2 = true → p.1.tasks = ∅ → p.1.Released) := by
  have hs := sound hp
  refine ⟨hs.links, fun hleft htasks => ?_⟩
  have hbare := hs.bare hleft
  obtain ⟨hstream, hcamera⟩ := hs.idle hbare.isInGroupCall
  refine ⟨hbare.isInGroupCall, ?_, fun pc => ?_, fun capture => ?_⟩
  · refine List.eq_nil_iff_forall_not_mem.2 fun id hid => ?_
    rcases hs.accounted id hid with hmem | hown | hfeed | ⟨i, t, hi, -⟩
    · cases hmem
    · rw [Media.mem_own, hbare.voice, hbare.camFx, hcamera, hbare.screen,
        hs.screen hbare.screen] at hown
      simp at hown
    · rw [hstream] at hfeed
      cases hfeed
    · rw [htasks] at hi
      cases hi
  · refine Option.eq_none_iff_forall_ne_some.2 fun peer hpc => ?_
    have hreg := hs.links.pcs pc peer hpc
    rw [hbare.links.1] at hreg
    cases hreg
  · refine Option.eq_none_iff_forall_ne_some.2 fun peer hrun => ?_
    have hreg := hs.links.captures capture peer hrun
    rw [hbare.links.2] at hreg
    cases hreg

namespace Sample

def relay : CallConfig := ⟨true, true, false, false⟩
def mesh : CallConfig := ⟨false, false, false, true⟩

/-- A relay call is left while the microphone is waited for. -/
def leftWhileJoining : List Event :=
  [.joinGroupCall 1 false, .resume 0 (.config relay), .leaveGroupCall, .resume 1 .media,
    .resume 2 (.chain false)]

/-- Two joins that wait for a microphone each. -/
def joinedTwice : List Event :=
  [.joinGroupCall 1 false, .joinGroupCall 2 false, .resume 0 (.config relay),
    .resume 1 (.config relay), .resume 2 .media, .resume 3 .media, .resume 4 (.chain true),
    .resume 5 (.chain true), .leaveGroupCall]

def meshCall : List Event :=
  [.joinGroupCall 1 false, .resume 0 (.config mesh), .resume 1 .media, .resume 2 (.chain false)]

/-- The user 7 offers twice while the ICE servers are fetched. -/
def offeredTwice : List Event :=
  meshCall ++ [.handleGroupCallOffer 1 7, .handleGroupCallOffer 1 7, .resume 3 .done,
    .resume 4 .done]

/-- A camera that is granted after the call was left. -/
def lateCamera : List Event :=
  meshCall ++ [.toggleGroupCallVideo, .leaveGroupCall, .resume 3 .media, .resume 4 (.chain false)]

def whole : List Event :=
  meshCall ++ [.handleGroupCallOffer 1 7, .resume 3 .done, .resume 4 .done, .leaveGroupCall]

end Sample

/-- A join goes on after the call was left, two joins leave a microphone on, two offers open two
    connections to a peer, and a camera that is granted late stays on. -/
theorem not_released :
    (∃ p, (manager.withHistory false left).run (.idle, false) Sample.leftWhileJoining = some p ∧
      p.2 = true ∧ p.1.tasks.size = 0 ∧ p.1.isInGroupCall = true) ∧
    (∃ p, (manager.withHistory false left).run (.idle, false) Sample.joinedTwice = some p ∧
      p.2 = true ∧ p.1.tasks.size = 0 ∧ p.1.media.live = [1]) ∧
    (∃ p, (manager.withHistory false left).run (.idle, false) Sample.lateCamera = some p ∧
      p.2 = true ∧ p.1.tasks.size = 0 ∧ p.1.media.live = [3]) ∧
    ∃ p, (manager.withHistory false left).run (.idle, false) Sample.offeredTwice = some p ∧
      p.1.links.openPcs.entries = [(3, 7), (4, 7)] ∧
      p.1.links.peerConnections.entries = [(7, 4)] := by
  refine ⟨?_, ?_, ?_, ?_⟩ <;> decide

theorem released_of_run_whole :
    ∃ p, undisturbed.run (.idle, false) Sample.whole = some p ∧ p.1.Released := by
  obtain ⟨p, hrun, hp⟩ := Machine.exists_reachable
    (by decide : (undisturbed.run (.idle, false) Sample.whole).isSome) ⟨rfl, rfl⟩
  have hend : (undisturbed.run (.idle, false) Sample.whole).map
      (fun p => (p.2, p.1.tasks.size)) = some (true, 0) := by decide
  rw [hrun] at hend
  obtain ⟨hleft, hsize⟩ := Prod.mk.inj (Option.some.inj hend)
  have htasks : p.1.tasks = ∅ := InsMap.ext (List.eq_nil_of_length_eq_zero hsize)
  exact ⟨p, hrun, (released_of_run hp).2 hleft htasks⟩

end OneToThree.GroupCall
