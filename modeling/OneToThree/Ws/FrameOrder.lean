import OneToThree.Lib.Machine
import Mathlib.Data.List.Induction

/-!
# Frames that arrive during the upgrade

A socket is accepted before its user is known. Frames that arrive until then are queued, and are
handled at the end of the upgrade, which waits for the authentication, for the presence of the
user, for the write of when it was last seen, and where it was offline for the users to tell.

The queue is left to the end of that chain, and whether a frame is queued is decided by its
beginning: the frames are handled in the order of their arrival, exactly if none arrives between
the two while there is a queue (`in_order_iff`).
-/

namespace OneToThree.Ws.Upgrade

def MAX_PENDING : ℕ := 20

/-- What the upgrade waits for. -/
inductive Phase
  | resolveWsUser
  | isOnline
  | touchLastSeen
  | getRelatedUserIds
  | broadcastOnlineStatusChange
  /-- The queue was handled. -/
  | connected
  /-- The socket was closed: there is no user, or something failed. -/
  | closed
  deriving DecidableEq

/-- A frame, numbered in the order of arrival. -/
structure Frame (R : Type) where
  number : ℕ
  raw : R

structure Socket (R : Type) where
  phase : Phase
  authed : Bool
  wasOnline : Bool
  pending : List (Frame R)
  /-- The frames that `handleMessage` was started for. -/
  started : List (Frame R)
  /-- The frames that arrived, for the statements only. -/
  arrived : List (Frame R)

inductive Event (R : Type)
  | message (raw : R)
  /-- What the upgrade waits for is there: whether there is a user, or the user was online. -/
  | resume (value : Bool)
  | reject

variable {R : Type}

namespace Socket

def accept (R : Type) : Socket R := ⟨.resolveWsUser, false, false, [], [], []⟩

def message (s : Socket R) (raw : R) : Socket R :=
  let frame : Frame R := ⟨s.arrived.length, raw⟩
  let s := { s with arrived := s.arrived ++ [frame] }
  if !s.authed then
    if s.pending.length < MAX_PENDING then { s with pending := s.pending ++ [frame] } else s
  else { s with started := s.started ++ [frame] }

/-- The queue is handled. -/
def flush (s : Socket R) : Socket R :=
  { s with phase := .connected, started := s.started ++ s.pending, pending := [] }

def resume (s : Socket R) (value : Bool) : Option (Socket R) :=
  match s.phase with
  | .resolveWsUser =>
    some (if value then { s with authed := true, phase := .isOnline }
      else { s with phase := .closed })
  | .isOnline => some { s with wasOnline := value, phase := .touchLastSeen }
  | .touchLastSeen => some (if s.wasOnline then s.flush else { s with phase := .getRelatedUserIds })
  | .getRelatedUserIds => some { s with phase := .broadcastOnlineStatusChange }
  | .broadcastOnlineStatusChange => some s.flush
  | .connected | .closed => none

def reject (s : Socket R) : Option (Socket R) :=
  match s.phase with
  | .connected | .closed => none
  | _ => some { s with phase := .closed }

end Socket

def machine (R : Type) : Machine (Socket R) (Event R) where
  init s := s = .accept R
  step s
    | .message raw => some (s.message raw)
    | .resume value => s.resume value
    | .reject => s.reject

/-! ## Runs -/

/-- A frame that is queued finds room in the queue. -/
def fits (s : Socket R) : Event R → Bool
  | .message _ => s.authed || s.pending.length < MAX_PENDING
  | _ => true

/-- A frame that is handled at once finds no queue. -/
def inTurn (s : Socket R) : Event R → Bool
  | .message _ => !s.authed || s.pending.isEmpty
  | _ => true

/-- Frames in the order of their arrival. -/
def Ordered (frames : List (Frame R)) : Prop := frames.Pairwise fun f g => f.number < g.number

/-- The frames are numbered in the order of arrival, and those in the queue have arrived. The
    queue of a socket that is connected is empty. -/
structure Socket.Numbered (s : Socket R) : Prop where
  arrived : Ordered s.arrived
  number : ∀ f ∈ s.arrived, f.number < s.arrived.length
  pending : ∀ f ∈ s.pending, f ∈ s.arrived
  authed : s.phase ≠ .resolveWsUser → s.phase ≠ .closed → s.authed = true
  connected : s.phase = .connected → s.pending = []

variable {s t : Socket R}

theorem Socket.numbered_accept : (Socket.accept R).Numbered where
  arrived := List.Pairwise.nil
  number := fun _ h => absurd h List.not_mem_nil
  pending := fun _ h => absurd h List.not_mem_nil
  authed := fun h => absurd rfl h
  connected := fun _ => rfl

/-- What a frame that arrives does. -/
theorem Socket.message_cases (s : Socket R) (raw : R) :
    (s.authed = false ∧ s.pending.length < MAX_PENDING ∧ s.message raw = { s with
      arrived := s.arrived ++ [⟨s.arrived.length, raw⟩]
      pending := s.pending ++ [⟨s.arrived.length, raw⟩] }) ∨
    (s.authed = false ∧ ¬s.pending.length < MAX_PENDING ∧ s.message raw = { s with
      arrived := s.arrived ++ [⟨s.arrived.length, raw⟩] }) ∨
    (s.authed = true ∧ s.message raw = { s with
      arrived := s.arrived ++ [⟨s.arrived.length, raw⟩]
      started := s.started ++ [⟨s.arrived.length, raw⟩] }) := by
  rw [Socket.message]
  cases hauthed : s.authed with
  | true => exact .inr (.inr ⟨rfl, by simp⟩)
  | false =>
    by_cases hroom : s.pending.length < MAX_PENDING
    · exact .inl ⟨rfl, hroom, by simp [hroom]⟩
    · exact .inr (.inl ⟨rfl, hroom, by simp [hroom]⟩)

/-- An event that is no frame: the frames stay as they are, or the queue is handled. -/
structure Socket.Passes (s t : Socket R) : Prop where
  arrived : t.arrived = s.arrived
  frames : t.started ++ t.pending = s.started ++ s.pending
  pending : t.pending = s.pending ∨ t.pending = []

theorem Socket.passes_of_eq (harrived : t.arrived = s.arrived) (hstarted : t.started = s.started)
    (hpending : t.pending = s.pending) : s.Passes t :=
  ⟨harrived, by rw [hstarted, hpending], .inl hpending⟩

theorem Socket.passes_flush (s : Socket R) : s.Passes s.flush :=
  ⟨rfl, List.append_nil _, .inr rfl⟩

theorem passes_resume {value : Bool} (h : s.resume value = some t) : s.Passes t := by
  rw [Socket.resume] at h
  split at h
  next =>
    cases value <;> cases h <;> exact Socket.passes_of_eq rfl rfl rfl
  next => cases h; exact Socket.passes_of_eq rfl rfl rfl
  next =>
    split at h <;> cases h
    · exact s.passes_flush
    · exact Socket.passes_of_eq rfl rfl rfl
  next => cases h; exact Socket.passes_of_eq rfl rfl rfl
  next => cases h; exact s.passes_flush
  next => cases h
  next => cases h

theorem reject_eq_some (h : s.reject = some t) : t = { s with phase := .closed } := by
  rw [Socket.reject] at h
  split at h
  next => cases h
  next => cases h
  next => exact (Option.some.inj h).symm

/-- The upgrade goes on for a socket that has a user, and leaves no queue. -/
theorem Socket.Numbered.resume (h : s.Numbered) {value : Bool} (hstep : s.resume value = some t) :
    t.Numbered := by
  have hpasses := passes_resume hstep
  refine ⟨hpasses.arrived ▸ h.arrived, hpasses.arrived ▸ h.number, fun f hf => ?_, ?_, ?_⟩
  · rw [hpasses.arrived]
    rcases hpasses.pending with hsame | hnil
    · exact h.pending f (hsame ▸ hf)
    · rw [hnil] at hf
      exact absurd hf List.not_mem_nil
  · intro hphase hopen
    rw [Socket.resume] at hstep
    split at hstep
    next =>
      cases value <;> cases hstep
      · exact absurd rfl hopen
      · rfl
    next hs => cases hstep; exact h.authed (by rw [hs]; decide) (by rw [hs]; decide)
    next hs =>
      have hauthed := h.authed (by rw [hs]; decide) (by rw [hs]; decide)
      split at hstep <;> cases hstep <;> exact hauthed
    next hs => cases hstep; exact h.authed (by rw [hs]; decide) (by rw [hs]; decide)
    next hs => cases hstep; exact h.authed (by rw [hs]; decide) (by rw [hs]; decide)
    next => cases hstep
    next => cases hstep
  · intro hphase
    rw [Socket.resume] at hstep
    split at hstep
    next => cases value <;> cases hstep <;> cases hphase
    next => cases hstep; cases hphase
    next =>
      split at hstep <;> cases hstep
      · rfl
      · cases hphase
    next => cases hstep; cases hphase
    next => cases hstep; rfl
    next => cases hstep
    next => cases hstep

theorem ordered_concat {frames : List (Frame R)} {f : Frame R} (h : Ordered frames)
    (hlast : ∀ g ∈ frames, g.number < f.number) : Ordered (frames ++ [f]) :=
  List.pairwise_append.2 ⟨h, List.pairwise_singleton _ _, fun g hg x hx => by
    rw [List.mem_singleton.1 hx]
    exact hlast g hg⟩

theorem Socket.Numbered.message (h : s.Numbered) (raw : R) : (s.message raw).Numbered := by
  have harrived : Ordered (s.arrived ++ [⟨s.arrived.length, raw⟩]) :=
    ordered_concat h.arrived h.number
  have hnumber : ∀ f ∈ s.arrived ++ [⟨s.arrived.length, raw⟩],
      f.number < (s.arrived ++ [(⟨s.arrived.length, raw⟩ : Frame R)]).length := by
    intro f hf
    rw [List.length_append, List.length_singleton]
    rcases List.mem_append.1 hf with hf | hf
    · exact Nat.lt_succ_of_lt (h.number f hf)
    · rw [List.mem_singleton.1 hf]
      exact Nat.lt_succ_self _
  rcases s.message_cases raw with ⟨hauthed, -, heq⟩ | ⟨-, -, heq⟩ | ⟨-, heq⟩ <;> rw [heq]
  · refine ⟨harrived, hnumber, fun f hf => ?_, h.authed, fun hphase => ?_⟩
    · rcases List.mem_append.1 hf with hf | hf
      · exact List.mem_append_left _ (h.pending f hf)
      · exact List.mem_append_right _ hf
    · -- A connected socket has a user.
      have hphase : s.phase = .connected := hphase
      have hyes := h.authed (by rw [hphase]; decide) (by rw [hphase]; decide)
      rw [hauthed] at hyes
      cases hyes
  · exact ⟨harrived, hnumber, fun f hf => List.mem_append_left _ (h.pending f hf), h.authed,
      h.connected⟩
  · exact ⟨harrived, hnumber, fun f hf => List.mem_append_left _ (h.pending f hf), h.authed,
      h.connected⟩

theorem Socket.Numbered.step (h : s.Numbered) {e : Event R}
    (hstep : (machine R).step s e = some t) : t.Numbered := by
  cases e with
  | message raw =>
    cases hstep
    exact h.message raw
  | resume value => exact h.resume hstep
  | reject =>
    rw [reject_eq_some hstep]
    exact ⟨h.arrived, h.number, h.pending, fun _ hopen => absurd rfl hopen,
      fun hphase => by cases hphase⟩

/-- The frames that were handled, and then those that wait, are those that arrived. -/
def Socket.InOrder (s : Socket R) : Prop := s.started ++ s.pending = s.arrived

theorem Socket.InOrder.step (h : s.InOrder) {e : Event R} (hstep : (machine R).step s e = some t)
    (hfits : fits s e = true) (hturn : inTurn s e = true) : t.InOrder := by
  rw [Socket.InOrder] at h ⊢
  cases e with
  | message raw =>
    cases hstep
    rcases s.message_cases raw with ⟨-, -, heq⟩ | ⟨hauthed, hfull, -⟩ | ⟨hauthed, heq⟩
    · rw [heq, ← h, List.append_assoc]
    · rw [fits, hauthed, Bool.false_or, decide_eq_true_eq] at hfits
      exact absurd hfits hfull
    · rw [inTurn, hauthed, Bool.not_true, Bool.false_or, List.isEmpty_iff] at hturn
      rw [hturn, List.append_nil] at h
      rw [heq, ← h]
      exact (congrArg _ hturn).trans (List.append_nil _)
  | resume value =>
    have hpasses := passes_resume hstep
    rw [hpasses.frames, hpasses.arrived, h]
  | reject =>
    rw [reject_eq_some hstep]
    exact h

/-- A frame that overtakes others has the highest number. -/
theorem not_ordered_of_overtakes (h : s.Numbered) {e : Event R}
    (hstep : (machine R).step s e = some t) (hturn : inTurn s e = false) :
    ¬Ordered (t.started ++ t.pending) := by
  cases e with
  | resume | reject => cases hturn
  | message raw =>
    cases hstep
    rw [inTurn, Bool.or_eq_false_iff, Bool.not_eq_false', List.isEmpty_eq_false_iff] at hturn
    obtain ⟨f, hf⟩ := List.exists_mem_of_ne_nil _ hturn.2
    rcases s.message_cases raw with ⟨hauthed, -, -⟩ | ⟨hauthed, -, -⟩ | ⟨-, heq⟩
    · rw [hturn.1] at hauthed
      cases hauthed
    · rw [hturn.1] at hauthed
      cases hauthed
    · rw [heq]
      intro hordered
      have hlt := (List.pairwise_append.1 hordered).2.2 ⟨s.arrived.length, raw⟩
        (List.mem_append_right _ (List.mem_singleton.2 rfl)) f hf
      exact absurd (h.number f (h.pending f hf)) (Nat.not_lt.2 (Nat.le_of_lt hlt))

/-- Frames that are out of order stay so. -/
theorem not_ordered_step (h : ¬Ordered (s.started ++ s.pending)) {e : Event R}
    (hstep : (machine R).step s e = some t) : ¬Ordered (t.started ++ t.pending) := by
  cases e with
  | message raw =>
    cases hstep
    rcases s.message_cases raw with ⟨-, -, heq⟩ | ⟨-, -, heq⟩ | ⟨-, heq⟩ <;> rw [heq]
    · refine fun hordered => h (hordered.sublist ?_)
      exact List.Sublist.append (List.Sublist.refl _) (List.sublist_append_left _ _)
    · exact h
    · refine fun hordered => h (hordered.sublist ?_)
      exact List.Sublist.append (List.sublist_append_left _ _) (List.Sublist.refl _)
  | resume value => rwa [(passes_resume hstep).frames]
  | reject =>
    rw [reject_eq_some hstep]
    exact h

theorem not_ordered_run {events : List (Event R)} (h : ¬Ordered (s.started ++ s.pending))
    (hrun : (machine R).run s events = some t) : ¬Ordered (t.started ++ t.pending) :=
  Machine.run_invariant (m := machine R) (P := fun _ => True)
    (I := fun s => ¬Ordered (s.started ++ s.pending))
    (fun _ _ _ h _ hstep => not_ordered_step h hstep) (fun _ _ => trivial) h hrun

theorem numbered_run {events : List (Event R)} (h : s.Numbered)
    (hrun : (machine R).run s events = some t) : t.Numbered :=
  Machine.run_invariant (m := machine R) (P := fun _ => True) (I := Socket.Numbered)
    (fun _ _ _ h _ hstep => h.step hstep) (fun _ _ => trivial) h hrun

theorem inOrder_run_iff {events : List (Event R)} (hnumbered : s.Numbered) (h : s.InOrder)
    (hrun : ((machine R).restrict fun s e => fits s e = true).run s events = some t) :
    t.InOrder ↔ ((machine R).restrict fun s e => inTurn s e = true).run s events = some t := by
  induction events generalizing s with
  | nil =>
    rw [Machine.run_nil] at hrun ⊢
    cases hrun
    exact iff_of_true h rfl
  | cons e events ih =>
    obtain ⟨u, hu, hrun⟩ := Machine.run_cons_eq_some.1 hrun
    obtain ⟨hfits, hstep⟩ := Machine.restrict_step.1 hu
    rw [Machine.run_cons_eq_some]
    cases hturn : inTurn s e with
    | true =>
      rw [ih (hnumbered.step hstep) (h.step hstep hfits hturn) hrun]
      constructor
      · exact fun hrun' => ⟨u, Machine.restrict_step.2 ⟨hturn, hstep⟩, hrun'⟩
      · rintro ⟨u', hu', hrun'⟩
        obtain rfl := Option.some.inj (hstep.symm.trans (Machine.restrict_step.1 hu').2)
        exact hrun'
    | false =>
      have hrun' := Machine.run_of_restrict hrun
      refine iff_of_false (fun hin => ?_) fun ⟨u', hu', _⟩ => ?_
      · -- The frames that arrived are in order.
        have hout := not_ordered_run (not_ordered_of_overtakes hnumbered hstep hturn) hrun'
        rw [hin] at hout
        exact hout (numbered_run (hnumbered.step hstep) hrun').arrived
      · exact Bool.false_ne_true (hturn.symm.trans (Machine.restrict_step.1 hu').1)

/-- **Frames are handled in the order of arrival.** In a run in which no more frames are queued
    than the queue has room for, the frames that were handled and those that still wait are the
    frames that arrived, each once and in order, exactly if no frame arrives for a socket that
    has a user and a queue; and when the upgrade is done, none waits. -/
theorem in_order_iff {events : List (Event R)}
    (hrun : ((machine R).restrict fun s e => fits s e = true).run (.accept R) events = some s) :
    (s.InOrder ↔
      ((machine R).restrict fun s e => inTurn s e = true).run (.accept R) events = some s) ∧
    (s.phase = .connected → s.pending = []) := by
  refine ⟨inOrder_run_iff Socket.numbered_accept rfl hrun, ?_⟩
  exact (numbered_run Socket.numbered_accept (Machine.run_of_restrict hrun)).connected

namespace Sample

/-- An offer comes before the user is known, and a candidate when the upgrade is done. -/
def early : List (Event String) :=
  [.message "offer", .resume true, .resume true, .resume true, .message "candidate"]

/-- The candidate comes while the presence is looked up. -/
def overtaking : List (Event String) :=
  [.message "offer", .resume true, .message "candidate", .resume true, .resume true]

end Sample

theorem in_order_iff_early : ∃ s : Socket String, s.phase = .connected ∧ s.pending = [] ∧
    s.InOrder ∧ s.started.map Frame.raw = ["offer", "candidate"] := by
  have hrun : ∃ s,
      ((machine String).restrict fun s e => fits s e = true).run
        (.accept String) Sample.early = some s ∧
      ((machine String).restrict fun s e => inTurn s e = true).run
        (.accept String) Sample.early = some s ∧
      s.phase = .connected ∧ s.started.map Frame.raw = ["offer", "candidate"] :=
    ⟨_, rfl, rfl, rfl, rfl⟩
  obtain ⟨s, hfits, hturn, hphase, hstarted⟩ := hrun
  obtain ⟨hiff, hdone⟩ := in_order_iff hfits
  exact ⟨s, hphase, hdone hphase, hiff.2 hturn, hstarted⟩

/-- The candidate is handled before the offer. -/
theorem candidate_overtakes : ∃ s, ((machine String).restrict fun s e => fits s e = true).run
    (.accept String) Sample.overtaking = some s ∧ s.phase = .connected ∧
      s.arrived.map Frame.raw = ["offer", "candidate"] ∧
        s.started.map Frame.raw = ["candidate", "offer"] ∧ ¬s.InOrder := by
  refine ⟨_, rfl, rfl, rfl, rfl, fun h => ?_⟩
  have hraw := congrArg (List.map Frame.raw) h
  exact absurd hraw (by decide)

end OneToThree.Ws.Upgrade
