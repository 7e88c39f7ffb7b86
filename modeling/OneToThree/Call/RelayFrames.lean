import Mathlib.Order.Lattice
import Mathlib.Algebra.GroupWithZero.Nat
import OneToThree.Lib.Outline

/-!
# Frames of relayed audio

The handlers of the frames that a peer of a call sends, one-to-one and in a group. Each frame
starts a handler of its own, which waits for the key of the peer and for the decryption;
between them, the handlers of other frames go on. The sequence number of a frame is compared
with the last one played before the handler waits, and becomes the last one afterwards.

* `increasing_of_run`: along a run in which a frame is played only while the other frames in
  flight of its peer have higher numbers (`InOrder`), the numbers of the frames played are
  strictly increasing.
* `played_twice`: without that condition, a frame and its replay are both played, by either
  handler, while neither has come back from the decryption.

A call goes on: the last numbers are not reset. What the handlers look up besides may change
at any time.
-/

namespace OneToThree.RelayFrames

open Service

abbrev UserId := String

/-- A frame; its sequence number is there if it is a number. -/
structure Frame (N : Type) where
  roomId : String
  fromUserId : UserId
  ciphertext : String
  iv : String
  sampleRate : Option ℕ
  seq : Option N

/-- What is pushed to the player of a peer. -/
structure Played (N Pcm : Type) where
  fromUserId : UserId
  seq : N
  pcm : Pcm
  sampleRate : Option ℕ

/-- What the handlers look at and write. -/
structure Store (N Key Pcm : Type) where
  groupRelayMode : Bool
  /-- The room of the group call. -/
  roomId : Option String
  /-- The peers of the one-to-one call. -/
  relayPeers : List UserId
  userId : Option UserId
  keys : InsMap UserId Key
  relaySeqIn : InsMap UserId N
  played : List (Played N Pcm)

variable {N Key Pcm : Type}

inductive Statement (N Key Pcm : Type)
  /-- The look at the state with which a handler begins. -/
  | getState
  | resolveRelaySharedKey (peerId : UserId)
  | decryptBytes (key : Key) (ciphertext iv aad : String)
  /-- The last number is written, and the frame is pushed to the player. -/
  | pushFrame (frame : Played N Pcm)
  /-- The rest of the client changes the call. -/
  | setCall (groupRelayMode : Bool) (roomId : Option String) (relayPeers : List UserId)
    (userId : Option UserId)
  | setKey (peerId : UserId) (key : Key)
  | dropKey (peerId : UserId)

abbrev Statement.Result : Statement N Key Pcm → Type
  | .getState => Store N Key Pcm
  | .resolveRelaySharedKey _ => Option Key
  | .decryptBytes _ _ _ _ => Option Pcm
  | .pushFrame _ | .setCall _ _ _ _ | .setKey _ _ | .dropKey _ => Unit

variable (decryptBytes : Key → String → String → String → Option Pcm)

def Store.answer (s : Store N Key Pcm) : (q : Statement N Key Pcm) → q.Result × Store N Key Pcm
  | .getState => (s, s)
  | .resolveRelaySharedKey peerId => (s.keys.get? peerId, s)
  | .decryptBytes key ciphertext iv aad => (decryptBytes key ciphertext iv aad, s)
  | .pushFrame frame =>
    ((), { s with
      relaySeqIn := s.relaySeqIn.set frame.fromUserId frame.seq
      played := s.played ++ [frame] })
  | .setCall groupRelayMode roomId relayPeers userId =>
    ((), { s with
      groupRelayMode := groupRelayMode, roomId := roomId, relayPeers := relayPeers
      userId := userId })
  | .setKey peerId key => ((), { s with keys := s.keys.set peerId key })
  | .dropKey peerId => ((), { s with keys := s.keys.delete peerId })

/-! ## The handlers -/

inductive Request (N Key : Type)
  | frame (frame : Frame N)
  | setCall (groupRelayMode : Bool) (roomId : Option String) (relayPeers : List UserId)
    (userId : Option UserId)
  | setKey (peerId : UserId) (key : Key)
  | dropKey (peerId : UserId)

/-- A handler replies whether the frame is played. -/
abbrev Handler (N Key Pcm : Type) (B : Type) := Program (Statement N Key Pcm) Statement.Result B

abbrev statement (q : Statement N Key Pcm) :
    Program (Statement N Key Pcm) Statement.Result q.Result := Program.request q

variable [LinearOrder N] [Zero N]

def Store.lastSeq (s : Store N Key Pcm) (peerId : UserId) : N :=
  (s.relaySeqIn.get? peerId).getD 0

/-- A handler, which goes on for a frame that `gate` lets pass, with the id of the user that
    the data bound to the frame, `aad`, is made with. -/
def handleFrame (gate : Store N Key Pcm → Frame N → Option UserId)
    (aad : Frame N → UserId → N → String) (f : Frame N) : Handler N Key Pcm Bool := do
  let s ← statement .getState
  match gate s f, f.seq with
  | some userId, some seq =>
    if seq ≤ s.lastSeq f.fromUserId then return false
    else match ← statement (.resolveRelaySharedKey f.fromUserId) with
      | none => return false
      | some sharedKey =>
        match ← statement (.decryptBytes sharedKey f.ciphertext f.iv (aad f userId seq)) with
        | none => return false
        | some pcm =>
          let _ ← statement (.pushFrame ⟨f.fromUserId, seq, pcm, f.sampleRate⟩)
          return true
  | _, _ => return false

def groupRelayFrameAad [ToString N] (roomId : String) (fromId toId : UserId) (seq : N) : String :=
  s!"p13:group-relay:v1|{roomId}|{fromId}|{toId}|{seq}"

def relayFrameAad [ToString N] (fromId toId : UserId) (seq : N) : String :=
  s!"p13:call-relay:v1|{fromId}|{toId}|{seq}"

/-- The handler in a group: the frame is of the room of the call. -/
def handleGroupCallRelayFrame [ToString N] : Frame N → Handler N Key Pcm Bool :=
  handleFrame
    (fun s f => if s.groupRelayMode ∧ s.roomId = some f.roomId then s.userId else none)
    fun f userId seq => groupRelayFrameAad f.roomId f.fromUserId userId seq

/-- The handler of a one-to-one call: the frame is complete, and of a peer of the call. -/
def handleRelayFrame [ToString N] : Frame N → Handler N Key Pcm Bool :=
  handleFrame
    (fun s f =>
      if f.ciphertext ≠ "" ∧ f.iv ≠ "" ∧ f.sampleRate.isSome ∧ f.fromUserId ∈ s.relayPeers then
        some (s.userId.getD "")
      else none)
    fun f userId seq => relayFrameAad f.fromUserId userId seq

/-- The client with one of the handlers. -/
def relay (handler : Frame N → Handler N Key Pcm Bool) :
    Service (Store N Key Pcm) (Statement N Key Pcm) Statement.Result (Request N Key) Bool where
  answer := Store.answer decryptBytes
  handle
    | .frame f => handler f
    | .setCall groupRelayMode roomId relayPeers userId => do
      let _ ← statement (.setCall groupRelayMode roomId relayPeers userId)
      return true
    | .setKey peerId key => do let _ ← statement (.setKey peerId key); return true
    | .dropKey peerId => do let _ ← statement (.dropKey peerId); return true

/-! ## The order of the frames played -/

/-- The numbers of the frames of a peer that were played. -/
def Store.seqs (s : Store N Key Pcm) (peerId : UserId) : List N :=
  (s.played.filter (·.fromUserId = peerId)).map (·.seq)

abbrev RelayState (N Key Pcm : Type) :=
  Service.State (Store N Key Pcm) (Statement N Key Pcm) Statement.Result (Request N Key) Bool

/-- A handler with this statement ahead has let its frame pass. -/
def Statement.opens : Statement N Key Pcm → Bool
  | .resolveRelaySharedKey _ | .decryptBytes _ _ _ _ | .pushFrame _ => true
  | _ => false

/-- The number of the frame of a peer that a task has in flight. -/
def opening (peerId : UserId) : Request N Key × Handler N Key Pcm Bool → Option N
  | (.frame f, .ask q _) => if f.fromUserId = peerId ∧ q.opens then f.seq else none
  | _ => none

/-- The steps that play a frame only if the other frames in flight of its peer have higher
    numbers. -/
def InOrder (p : RelayState N Key Pcm × Unit) (i : ℕ) (_ : Request N Key) :
    Statement N Key Pcm → Prop
  | .pushFrame frame => ∀ t ∈ p.1.tasks.entries, t.1 ≠ i →
    ∀ seq ∈ opening frame.fromUserId t.2, frame.seq < seq
  | _ => True

instance (p : RelayState N Key Pcm × Unit) (i : ℕ) (a : Request N Key) :
    ∀ q, Decidable (InOrder p i a q)
  | .pushFrame frame => inferInstanceAs (Decidable (∀ t ∈ p.1.tasks.entries, t.1 ≠ i →
      ∀ seq ∈ opening frame.fromUserId t.2, _))
  | .getState | .resolveRelaySharedKey _ | .decryptBytes _ _ _ _ | .setCall _ _ _ _ | .setKey _ _
  | .dropKey _ => isTrue trivial

/-- The numbers of the frames that were played increase, and the last one is kept. -/
structure Ordered (s : Store N Key Pcm) : Prop where
  increasing : ∀ peerId, (s.seqs peerId).Pairwise (· < ·)
  le_last : ∀ peerId, ∀ seq ∈ s.seqs peerId, seq ≤ s.lastSeq peerId

/-- The frame has a higher number than the last one of its peer. -/
def Fresh (f : Frame N) (s : Store N Key Pcm) : Prop := ∀ seq ∈ f.seq, s.lastSeq f.fromUserId < seq

/-- A frame that a handler has let pass is fresh, and it is the one that is played. -/
def pre : Annotation (Store N Key Pcm) (Statement N Key Pcm) Statement.Result (Request N Key) Bool
    Unit :=
  fun _ a q _ s _ =>
    match a, q with
    | .frame f, .resolveRelaySharedKey _ | .frame f, .decryptBytes _ _ _ _ => Fresh f s
    | .frame f, .pushFrame frame =>
      Fresh f s ∧ frame.fromUserId = f.fromUserId ∧ f.seq = some frame.seq
    | _, .pushFrame _ => False
    | _, _ => True

section
variable {s : Store N Key Pcm} {frame : Played N Pcm}

/-- The store after a frame is played. -/
abbrev Store.push (s : Store N Key Pcm) (frame : Played N Pcm) : Store N Key Pcm :=
  { s with
    relaySeqIn := s.relaySeqIn.set frame.fromUserId frame.seq
    played := s.played ++ [frame] }

omit [LinearOrder N] in
theorem lastSeq_push (peerId : UserId) : (s.push frame).lastSeq peerId =
    if peerId = frame.fromUserId then frame.seq else s.lastSeq peerId := by
  rw [Store.lastSeq, InsMap.get?_set]
  split_ifs <;> rfl

omit [LinearOrder N] [Zero N] in
theorem seqs_push (peerId : UserId) : (s.push frame).seqs peerId =
    if peerId = frame.fromUserId then s.seqs peerId ++ [frame.seq] else s.seqs peerId := by
  split_ifs with h
  · simp [Store.seqs, h]
  · simp [Store.seqs, Ne.symm h]

/-- A frame with a higher number than the last one is played. -/
theorem Ordered.push (h : Ordered s) (hlt : s.lastSeq frame.fromUserId < frame.seq) :
    Ordered (s.push frame) := by
  refine ⟨fun peerId => ?_, fun peerId seq hseq => ?_⟩
  · rw [seqs_push]
    split_ifs with hpeer
    · subst hpeer
      refine List.pairwise_append.2 ⟨h.increasing _, List.pairwise_singleton _ _, ?_⟩
      intro seq hseq seq' hseq'
      rw [List.mem_singleton.1 hseq']
      exact lt_of_le_of_lt (h.le_last _ seq hseq) hlt
    · exact h.increasing peerId
  · rw [seqs_push] at hseq
    rw [lastSeq_push]
    split_ifs at hseq ⊢ with hpeer
    · subst hpeer
      rcases List.mem_append.1 hseq with hseq | hseq
      · exact le_of_lt (lt_of_le_of_lt (h.le_last _ seq hseq) hlt)
      · exact le_of_eq (List.mem_singleton.1 hseq)
    · exact h.le_last peerId seq hseq

end

/-! ## Along the handlers -/

def post (_ : ℕ) (_ : Request N Key) (_ : Bool) (_ : Store N Key Pcm) (_ : Unit) : Prop := True

section
variable {decryptBytes} {gate : Store N Key Pcm → Frame N → Option UserId}
  {aad : Frame N → UserId → N → String} {handler : Frame N → Handler N Key Pcm Bool}

theorem along_handleFrame (f : Frame N) : (handleFrame gate aad f).Along fun q next =>
    True ∧ (relay decryptBytes handler).Local History.none InOrder (fun s _ => Ordered s) pre post
      (.frame f) q next := by
  refine .request ⟨trivial, fun p i s store h _ _ _ => ?_⟩ fun s => ?_
  · obtain rfl : p.1.store = s := congrArg Prod.fst h
    obtain rfl : p.1.store = store := congrArg Prod.snd h
    dsimp only
    cases gate p.1.store f with
    | none => trivial
    | some userId =>
      cases hseq : f.seq with
      | none => trivial
      | some seq =>
        dsimp only
        split_ifs with hle
        · trivial
        · intro seq' hseq'
          rw [hseq] at hseq'
          cases hseq'
          exact lt_of_not_ge hle
  cases gate s f with
  | none => trivial
  | some userId =>
    cases hseq : f.seq with
    | none => trivial
    | some seq =>
      refine .ite (fun _ => trivial) fun _ =>
        .request ⟨trivial, fun p i key store h _ _ hpre => ?_⟩ fun key => ?_
      · obtain rfl : p.1.store = store := congrArg Prod.snd h
        cases key with
        | none => trivial
        | some sharedKey => exact hpre
      cases key with
      | none => trivial
      | some sharedKey =>
        refine .request ⟨trivial, fun p i pcm store h _ _ hpre => ?_⟩ fun pcm => ?_
        · obtain rfl : p.1.store = store := congrArg Prod.snd h
          cases pcm with
          | none => trivial
          | some pcm => exact ⟨hpre, rfl, hseq⟩
        cases pcm with
        | none => trivial
        | some pcm => exact .request ⟨trivial, fun _ _ _ _ _ _ _ _ => trivial⟩ fun _ => trivial

/-- Nothing is asked where a handler begins. -/
theorem asserted_handleFrame (f : Frame N) (i : ℕ) (s : Store N Key Pcm) :
    Asserted pre post i (.frame f) s () (handleFrame gate aad f) := trivial

end

/-! ## Every run -/

/-- A call begins. -/
def Store.IsInitial (s : Store N Key Pcm) : Prop := s.relaySeqIn = ∅ ∧ s.played = []

/-- The runs of a handler that play the frames in their order. -/
abbrev orderly (handler : Frame N → Handler N Key Pcm Bool) :
    Machine (RelayState N Key Pcm × Unit) (Event (Request N Key)) :=
  ((relay decryptBytes handler).recorded History.none Store.IsInitial).restrict
    (Guarded (fun _ _ => True) InOrder)

section
variable {decryptBytes} {gate : Store N Key Pcm → Frame N → Option UserId}
  {aad : Frame N → UserId → N → String} {handler : Frame N → Handler N Key Pcm Bool}
  {p : RelayState N Key Pcm × Unit}

/-- The assertion of a task is kept where its frame stays fresh. -/
theorem pre_mono {j : ℕ} {b : Request N Key} {q : Statement N Key Pcm}
    {next : q.Result → Handler N Key Pcm Bool} {s s' : Store N Key Pcm}
    (hfresh : ∀ f, b = .frame f → q.opens = true → Fresh f s → Fresh f s')
    (h : pre j b q next s ()) : pre j b q next s' () := by
  cases b with
  | frame f =>
    cases q with
    | resolveRelaySharedKey _ | decryptBytes _ _ _ _ => exact hfresh f rfl rfl h
    | pushFrame frame => exact ⟨hfresh f rfl rfl h.1, h.2⟩
    | _ => trivial
  | _ =>
    cases q with
    | pushFrame frame => exact h.elim
    | _ => trivial

/-- The frames in flight stay fresh, as only lower numbers of their peers are played. -/
theorem fresh_answer {i j : ℕ} {a : Request N Key} {q q' : Statement N Key Pcm}
    {next' : q'.Result → Handler N Key Pcm Bool} {f : Frame N} (hok : InOrder p i a q)
    (hj : Waits p.1 j (.frame f) q' next') (hji : j ≠ i) (hopens : q'.opens = true)
    (h : Fresh f p.1.store) : Fresh f (p.1.store.answer decryptBytes q).2 := by
  cases q with
  | pushFrame frame =>
    intro seq hseq
    change (p.1.store.push frame).lastSeq f.fromUserId < seq
    rw [lastSeq_push]
    split_ifs with hpeer
    · have hopening : opening frame.fromUserId (.frame f, .ask q' next') = f.seq :=
        if_pos ⟨hpeer, hopens⟩
      exact hok (j, _) (InsMap.get?_eq_some_iff.1 hj) hji seq (hopening ▸ hseq)
    · exact h seq hseq
  | _ => exact h

theorem ordered_of_run (hp : (orderly decryptBytes (handleFrame gate aad)).Reachable p) :
    Ordered p.1.store := by
  refine (Service.outline (P := fun _ _ _ => True) (fun s _ => Ordered s) pre post
    ?_ ?_ ?_ ?_ ?_ ?_ hp).holds
  · rintro s ⟨-, hplayed⟩
    have hseqs : ∀ peerId, s.seqs peerId = [] := fun peerId => by
      rw [Store.seqs, hplayed]
      rfl
    exact ⟨fun peerId => by rw [hseqs]; exact .nil, fun peerId seq hseq => by
      rw [hseqs] at hseq
      exact absurd hseq List.not_mem_nil⟩
  · intro a
    cases a with
    | frame f => exact along_handleFrame f
    | setCall _ _ _ _ | setKey _ _ | dropKey _ =>
      exact .request ⟨trivial, fun _ _ _ _ _ _ _ _ => trivial⟩ fun _ => trivial
  · intro p a _ h
    refine ⟨h.holds, ?_⟩
    cases a with
    | frame f => exact asserted_handleFrame f _ _
    | _ => trivial
  · exact fun p a _ _ j b q next _ hpre => hpre
  · intro p i a q next hok h hi _
    have hpre := h.asserted i a q next hi
    cases q with
    | pushFrame frame =>
      cases a with
      | frame f =>
        obtain ⟨hfresh, hfrom, hseq⟩ := hpre
        exact h.holds.push (hfrom ▸ hfresh _ hseq)
      | _ => exact hpre.elim
    | _ => exact ⟨h.holds.increasing, h.holds.le_last⟩
  · intro p i a q next hok h hi j b q' next' hji hj
    refine pre_mono (fun f hb hopens hfresh => ?_) (h.asserted j b q' next' hj)
    subst hb
    exact fresh_answer hok hj hji hopens hfresh

/-- The frames that are played of a peer have increasing numbers, in a group and in a
    one-to-one call. -/
theorem increasing_of_run [ToString N] :
    (∀ p, (orderly decryptBytes handleGroupCallRelayFrame).Reachable p →
      ∀ peerId, (p.1.store.seqs peerId).Pairwise (· < · : N → N → Prop)) ∧
    ∀ p, (orderly decryptBytes handleRelayFrame).Reachable p →
      ∀ peerId, (p.1.store.seqs peerId).Pairwise (· < · : N → N → Prop) :=
  ⟨fun _ hp => (ordered_of_run hp).increasing, fun _ hp => (ordered_of_run hp).increasing⟩

end

namespace Sample

/-- Bob is in a group call, and in a relayed call with Ann. -/
def store : Store ℕ ℕ ℕ where
  groupRelayMode := true
  roomId := some "room"
  relayPeers := ["ann"]
  userId := some "bob"
  keys := InsMap.empty.set "ann" 3
  relaySeqIn := ∅
  played := []

/-- Every frame opens, as one of as many bytes as its ciphertext. -/
def sealedAs (_ : ℕ) (ciphertext _ _ : String) : Option ℕ := some ciphertext.length

def frame (seq : ℕ) : Frame ℕ := ⟨"room", "ann", "sealed", "iv", some 48000, some seq⟩

/-- A frame and its replay arrive, and both are decrypted before either is played. -/
def replayed : List (Event (Request ℕ ℕ)) :=
  [.receive (.frame (frame 5)), .serve 0, .receive (.frame (frame 5)), .serve 1, .serve 0, .serve 1,
    .serve 0, .serve 1, .serve 0, .serve 1]

/-- Two frames are decrypted at once and played in their order, the second one with a replay
    of the first one that arrives late. -/
def played : List (Event (Request ℕ ℕ)) :=
  [.receive (.frame (frame 5)), .receive (.frame (frame 6)), .serve 0, .serve 1, .serve 1, .serve 0,
    .serve 1, .serve 0, .serve 0, .receive (.frame (frame 5)), .serve 1, .serve 2]

end Sample

section
open Sample

abbrev unordered (handler : Frame ℕ → Handler ℕ ℕ ℕ Bool) :
    Machine (RelayState ℕ ℕ ℕ × Unit) (Event (Request ℕ ℕ)) :=
  (relay sealedAs handler).recorded History.none Store.IsInitial

/-- A frame and its replay are both played, by either handler. -/
theorem played_twice :
    (∃ p, (unordered handleGroupCallRelayFrame).Reachable p ∧ p.1.store.seqs "ann" = [5, 5]) ∧
    ∃ p, (unordered handleRelayFrame).Reachable p ∧ p.1.store.seqs "ann" = [5, 5] := by
  have hgroup : ((unordered handleGroupCallRelayFrame).run (.start store, ()) replayed).map
      (fun p => p.1.store.seqs "ann") = some [5, 5] := by decide
  have hcall : ((unordered handleRelayFrame).run (.start store, ()) replayed).map
      (fun p => p.1.store.seqs "ann") = some [5, 5] := by decide
  constructor
  · obtain ⟨p, hp, hseqs⟩ := Option.map_eq_some_iff.1 hgroup
    exact ⟨p, Machine.reachable_of_run hp ⟨⟨store, ⟨rfl, rfl⟩, rfl⟩, rfl⟩, hseqs⟩
  · obtain ⟨p, hp, hseqs⟩ := Option.map_eq_some_iff.1 hcall
    exact ⟨p, Machine.reachable_of_run hp ⟨⟨store, ⟨rfl, rfl⟩, rfl⟩, rfl⟩, hseqs⟩

theorem increasing_of_run_played :
    (∃ p, (orderly sealedAs handleGroupCallRelayFrame).run (.start store, ()) played = some p ∧
      (p.1.store.seqs "ann").Pairwise (· < ·)) ∧
    ∃ p, (orderly sealedAs handleRelayFrame).run (.start store, ()) played = some p ∧
      (p.1.store.seqs "ann").Pairwise (· < ·) := by
  constructor
  · obtain ⟨p, hp, hreachable⟩ := Machine.exists_reachable (by decide :
      ((orderly sealedAs handleGroupCallRelayFrame).run (.start store, ()) played).isSome)
      ⟨⟨store, ⟨rfl, rfl⟩, rfl⟩, rfl⟩
    exact ⟨p, hp, increasing_of_run.1 p hreachable "ann"⟩
  · obtain ⟨p, hp, hreachable⟩ := Machine.exists_reachable (by decide :
      ((orderly sealedAs handleRelayFrame).run (.start store, ()) played).isSome)
      ⟨⟨store, ⟨rfl, rfl⟩, rfl⟩, rfl⟩
    exact ⟨p, hp, increasing_of_run.2 p hreachable "ann"⟩

end

end OneToThree.RelayFrames
