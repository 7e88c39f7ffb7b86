import OneToThree.Lib.Machine
import OneToThree.Ws.Frames

/-!
# The offline queue of the socket

Frames that are sent while the socket is down wait in a queue of 200, which is sent in order when
the socket opens. A full queue gives up its oldest frame that does not look like a session
description, so that an offer is not lost ahead of the candidates that follow it.

* `FmSocketClient.Orderly` is what holds of every run: the queue keeps to its size, each frame is
  sent, waits or was dropped, once, and what was sent and what waits is in order.
* `sacrificed_last_iff`: no description is dropped while the queue has a frame without one, exactly
  if the oldest frame of a full queue that is no description of a call between two is none of a
  group call either, or there are only descriptions. The descriptions of group calls are not
  recognised (`looksImportant_iff`).
-/

namespace OneToThree.Ws.Outbound

def MAX_QUEUED : ℕ := 200

/-- A frame, numbered in the order of the calls of `send`. -/
structure Frame (N : Type) where
  number : ℕ
  payload : Payload N

/-- A frame that was dropped, and the queue that was left. -/
structure Drop (N : Type) where
  frame : Frame N
  left : List (Frame N)

structure FmSocketClient (N : Type) where
  /-- The state of the socket is `OPEN`. -/
  isOpen : Bool
  outboundQueue : List (Frame N)
  /-- The frames that were given to the socket. -/
  sent : List (Frame N)
  /-- The frames that `send` was called with, for the statements only. -/
  asked : List (Frame N)
  /-- Those that were dropped, for the statements only. -/
  drops : List (Drop N)

inductive Event (N : Type)
  | send (payload : Payload N)
  /-- A socket opens. It may close again once it took so many frames of the queue. -/
  | onopen (room : Option ℕ)
  | close

variable {N : Type} [JsNumber N]

/-- The frame that a full queue gives up. -/
def victim (queue : List (Frame N)) : ℕ :=
  (queue.findIdx? fun f => !looksImportant f.payload.raw).getD 0

namespace FmSocketClient

def start (N : Type) : FmSocketClient N := ⟨false, [], [], [], []⟩

def send (c : FmSocketClient N) (payload : Payload N) : FmSocketClient N :=
  let frame : Frame N := ⟨c.asked.length, payload⟩
  let c := { c with asked := c.asked ++ [frame] }
  if c.isOpen then { c with sent := c.sent ++ [frame] }
  else if MAX_QUEUED ≤ c.outboundQueue.length then
    let left := c.outboundQueue.eraseIdx (victim c.outboundQueue) ++ [frame]
    { c with
      outboundQueue := left
      drops := c.drops ++
        (c.outboundQueue[victim c.outboundQueue]?).toList.map fun f => ⟨f, left⟩ }
  else { c with outboundQueue := c.outboundQueue ++ [frame] }

def onopen (c : FmSocketClient N) (room : Option ℕ) : FmSocketClient N :=
  let count := room.getD c.outboundQueue.length
  { c with
    isOpen := room.isNone
    sent := c.sent ++ c.outboundQueue.take count
    outboundQueue := c.outboundQueue.drop count }

end FmSocketClient

def machine (N : Type) [JsNumber N] : Machine (FmSocketClient N) (Event N) where
  init c := c = .start N
  step c
    | .send payload => some (c.send payload)
    | .onopen room => if c.isOpen then none else some (c.onopen room)
    | .close => some { c with isOpen := false }

/-! ## The property, and the condition on the steps -/

/-- No description was dropped while the queue has a frame without one. -/
def FmSocketClient.SacrificedLast (c : FmSocketClient N) : Prop :=
  ∀ d ∈ c.drops, d.frame.payload.isDescription = true →
    ∀ f ∈ d.left, f.payload.isDescription = true

/-- What holds of the queue besides. -/
structure FmSocketClient.Orderly (c : FmSocketClient N) : Prop where
  cap : c.outboundQueue.length ≤ MAX_QUEUED
  /-- The frames have different numbers. -/
  asked : c.asked.Pairwise fun f g => f.number < g.number
  number : ∀ f ∈ c.asked, f.number < c.asked.length
  order : (c.sent ++ c.outboundQueue).Sublist c.asked
  /-- Each frame is sent, waits, or was dropped. -/
  once : (c.sent ++ c.outboundQueue ++ c.drops.map Drop.frame).Perm c.asked
  /-- An open socket was given all that waited. -/
  flushed : c.isOpen = true → c.outboundQueue = []

/-- In a full queue, the oldest frame that is no description of a call between two is none of a
    group call, or all are descriptions. -/
def FmSocketClient.spares (c : FmSocketClient N) : Event N → Bool
  | .send payload =>
    c.isOpen || c.outboundQueue.length < MAX_QUEUED ||
      ((c.outboundQueue.find? fun f => !f.payload.isDirectDescription).any fun f =>
        !f.payload.isGroupDescription) ||
      (payload.isDescription && c.outboundQueue.all fun f => f.payload.isDescription)
  | _ => true

/-! ## What a call of `send` does -/

/-- The victim is the first frame that is no description of a call between two, or the first. -/
theorem victim_cases {queue : List (Frame N)} (hne : queue ≠ []) :
    ∃ a d b, queue = a ++ d :: b ∧ victim queue = a.length ∧
      ((queue.find? fun f => !f.payload.isDirectDescription) = some d ∨
        (queue.find? fun f => !f.payload.isDirectDescription) = none ∧
          ∀ f ∈ queue, f.payload.isDirectDescription = true) := by
  have hlooks : (fun f : Frame N => !looksImportant f.payload.raw) =
      fun f => !f.payload.isDirectDescription := by
    funext f
    rw [looksImportant_iff]
  rw [victim, hlooks]
  cases hfind : queue.find? fun f => !f.payload.isDirectDescription with
  | some d =>
    obtain ⟨hd, a, b, rfl, ha⟩ := List.find?_eq_some_iff_append.1 hfind
    refine ⟨a, d, b, rfl, ?_, .inl rfl⟩
    have hnone : a.findIdx? (fun f => !f.payload.isDirectDescription) = none :=
      List.findIdx?_eq_none_iff.2 fun f hf => by simpa using ha f hf
    rw [List.findIdx?_append, hnone, List.findIdx?_cons, hd]
    simp
  | none =>
    have hall := List.find?_eq_none.1 hfind
    cases queue with
    | nil => exact absurd rfl hne
    | cons d b =>
      refine ⟨[], d, b, rfl, ?_, .inr ⟨rfl, fun f hf => by simpa using hall f hf⟩⟩
      rw [List.findIdx?_eq_none_iff.2 fun f hf => by simpa using hall f hf]
      rfl

variable {c c' : FmSocketClient N} {payload : Payload N}

/-- The frame that `send` is called with. -/
def FmSocketClient.next (c : FmSocketClient N) (payload : Payload N) : Frame N :=
  ⟨c.asked.length, payload⟩

theorem send_open (hopen : c.isOpen = true) : c.send payload = { c with
    asked := c.asked ++ [c.next payload]
    sent := c.sent ++ [c.next payload] } := by
  rw [FmSocketClient.send]
  exact if_pos hopen

theorem send_room (hopen : c.isOpen = false) (hroom : c.outboundQueue.length < MAX_QUEUED) :
    c.send payload = { c with
      asked := c.asked ++ [c.next payload]
      outboundQueue := c.outboundQueue ++ [c.next payload] } := by
  rw [FmSocketClient.send]
  exact (if_neg (by simp [hopen])).trans (if_neg (Nat.not_le.2 hroom))

variable (payload) in
/-- A full queue gives up one frame. -/
theorem send_full (hopen : c.isOpen = false) (hfull : MAX_QUEUED ≤ c.outboundQueue.length) :
    ∃ a d b, c.outboundQueue = a ++ d :: b ∧
      c.send payload = { c with
        asked := c.asked ++ [c.next payload]
        outboundQueue := a ++ b ++ [c.next payload]
        drops := c.drops ++ [⟨d, a ++ b ++ [c.next payload]⟩] } ∧
      ((c.outboundQueue.find? fun f => !f.payload.isDirectDescription) = some d ∨
        (c.outboundQueue.find? fun f => !f.payload.isDirectDescription) = none ∧
          ∀ f ∈ c.outboundQueue, f.payload.isDirectDescription = true) := by
  have hne : c.outboundQueue ≠ [] := by
    intro h
    rw [h] at hfull
    exact Nat.not_succ_le_zero 199 hfull
  obtain ⟨a, d, b, hqueue, hvictim, hcases⟩ := victim_cases hne
  refine ⟨a, d, b, hqueue, ?_, hcases⟩
  have herase : c.outboundQueue.eraseIdx (victim c.outboundQueue) = a ++ b := by
    rw [hvictim, hqueue, List.eraseIdx_append_of_length_le (Nat.le_refl _), Nat.sub_self,
      List.eraseIdx_cons_zero]
  have hget : c.outboundQueue[victim c.outboundQueue]? = some d := by
    rw [hvictim, hqueue]
    simp
  rw [FmSocketClient.send]
  refine (if_neg (by simp [hopen])).trans ((if_pos hfull).trans ?_)
  simp only [herase, hget]
  rfl

/-! ## The invariants -/

/-- Giving up an element of the middle for one at the end. -/
theorem perm_give_up {α : Type} (s a b m : List α) (d f : α) :
    (s ++ (a ++ b ++ [f]) ++ (m ++ [d])).Perm (s ++ (a ++ d :: b) ++ m ++ [f]) := by
  classical
  rw [List.perm_iff_count]
  intro x
  simp only [List.count_append, List.count_cons, List.count_nil]
  omega

omit [JsNumber N] in
theorem FmSocketClient.Orderly.start : (FmSocketClient.start N).Orderly where
  cap := Nat.zero_le _
  asked := List.Pairwise.nil
  number _ h := absurd h List.not_mem_nil
  order := List.Sublist.refl _
  once := List.Perm.refl _
  flushed _ := rfl

omit [JsNumber N] in
/-- One more call. -/
theorem FmSocketClient.Orderly.asked_next (h : c.Orderly) (payload : Payload N) :
    (c.asked ++ [c.next payload]).Pairwise (fun f g => f.number < g.number) ∧
      ∀ f ∈ c.asked ++ [c.next payload], f.number < (c.asked ++ [c.next payload]).length := by
  refine ⟨List.pairwise_append.2 ⟨h.asked, List.pairwise_singleton _ _, fun f hf g hg => ?_⟩,
    fun f hf => ?_⟩
  · rw [List.mem_singleton.1 hg]
    exact h.number f hf
  · rw [List.length_append, List.length_singleton]
    rcases List.mem_append.1 hf with hf | hf
    · exact Nat.lt_succ_of_lt (h.number f hf)
    · rw [List.mem_singleton.1 hf]
      exact Nat.lt_succ_self _

theorem FmSocketClient.Orderly.send (h : c.Orderly) (payload : Payload N) :
    (c.send payload).Orderly := by
  obtain ⟨hasked, hnumber⟩ := h.asked_next payload
  cases hopen : c.isOpen with
  | true =>
    have hnil := h.flushed hopen
    have horder := h.order
    have honce := h.once
    rw [hnil, List.append_nil] at horder honce
    rw [send_open hopen]
    refine ⟨h.cap, hasked, hnumber, ?_, ?_, h.flushed⟩
    · dsimp only
      rw [hnil, List.append_nil]
      exact horder.append (List.Sublist.refl _)
    · dsimp only
      rw [hnil, List.append_nil, List.append_assoc]
      exact (List.perm_append_comm.append_left c.sent).trans
        (by rw [← List.append_assoc]; exact honce.append_right _)
  | false =>
    have hclosed : ¬c.isOpen = true := by simp [hopen]
    rcases Nat.lt_or_ge c.outboundQueue.length MAX_QUEUED with hroom | hfull
    · rw [send_room hopen hroom]
      refine ⟨?_, hasked, hnumber, ?_, ?_, fun h' => absurd h' hclosed⟩
      · rw [List.length_append, List.length_singleton]
        exact hroom
      · dsimp only
        rw [← List.append_assoc]
        exact h.order.append (List.Sublist.refl _)
      · dsimp only
        rw [← List.append_assoc, List.append_assoc]
        exact (List.perm_append_comm.append_left _).trans
          (by rw [← List.append_assoc]; exact h.once.append_right _)
    · obtain ⟨a, d, b, hqueue, heq, -⟩ := send_full payload hopen hfull
      have hcap := h.cap
      have horder := h.order
      have honce := h.once
      rw [hqueue] at hcap horder honce
      rw [heq]
      refine ⟨?_, hasked, hnumber, ?_, ?_, fun h' => absurd h' hclosed⟩
      · simp only [List.length_append, List.length_cons, List.length_nil] at hcap ⊢
        omega
      · dsimp only
        rw [← List.append_assoc]
        refine ((List.Sublist.append (List.Sublist.refl c.sent) ?_).trans horder).append
          (List.Sublist.refl _)
        exact List.Sublist.append (List.Sublist.refl a) (List.sublist_cons_self d b)
      · dsimp only
        rw [List.map_append]
        exact (perm_give_up _ _ _ _ _ _).trans (honce.append_right [c.next payload])

omit [JsNumber N] in
theorem FmSocketClient.Orderly.onopen (h : c.Orderly) (room : Option ℕ) :
    (c.onopen room).Orderly := by
  have hsplit : ∀ n, c.sent ++ c.outboundQueue.take n ++ c.outboundQueue.drop n =
      c.sent ++ c.outboundQueue := fun n => by rw [List.append_assoc, List.take_append_drop]
  refine ⟨?_, h.asked, h.number, ?_, ?_, fun hroom => ?_⟩
  · exact ((List.drop_sublist _ _).length_le).trans h.cap
  · rw [FmSocketClient.onopen]
    dsimp only
    rw [hsplit]
    exact h.order
  · rw [FmSocketClient.onopen]
    dsimp only
    rw [hsplit]
    exact h.once
  · obtain rfl := Option.isNone_iff_eq_none.1 hroom
    exact List.drop_length

theorem FmSocketClient.Orderly.step (h : c.Orderly) {e : Event N}
    (ht : (machine N).step c e = some c') : c'.Orderly := by
  cases e with
  | send payload => exact Option.some.inj ht ▸ h.send payload
  | onopen room =>
    rw [machine] at ht
    dsimp only at ht
    split_ifs at ht
    exact Option.some.inj ht ▸ h.onopen room
  | close =>
    exact Option.some.inj ht ▸ { h with flushed := fun h' => absurd h' Bool.false_ne_true }

/-! ## What is given up -/

/-- A call gives up what it may exactly if the condition holds. -/
theorem sacrificedLast_send :
    (c.send payload).SacrificedLast ↔ c.SacrificedLast ∧ c.spares (.send payload) = true := by
  rw [FmSocketClient.spares]
  cases hopen : c.isOpen with
  | true => simp [send_open hopen, FmSocketClient.SacrificedLast]
  | false =>
    rcases Nat.lt_or_ge c.outboundQueue.length MAX_QUEUED with hroom | hfull
    · simp [send_room hopen hroom, FmSocketClient.SacrificedLast, hroom]
    · obtain ⟨a, d, b, hqueue, heq, hcases⟩ := send_full payload hopen hfull
      -- the frame that goes, and those that stay
      have hlast : (c.send payload).SacrificedLast ↔ c.SacrificedLast ∧
          (d.payload.isDescription = true →
            payload.isDescription = true ∧ ∀ f ∈ a ++ b, f.payload.isDescription = true) := by
        rw [heq, FmSocketClient.SacrificedLast, List.forall_mem_append, List.forall_mem_singleton,
          List.forall_mem_append, List.forall_mem_singleton, and_comm (a := ∀ f ∈ a ++ b, _)]
        rfl
      have hall : (∀ f ∈ c.outboundQueue, f.payload.isDescription = true) ↔
          d.payload.isDescription = true ∧ ∀ f ∈ a ++ b, f.payload.isDescription = true := by
        rw [hqueue, List.forall_mem_append, List.forall_mem_cons, List.forall_mem_append]
        exact and_left_comm
      have hnot : ¬c.outboundQueue.length < MAX_QUEUED := Nat.not_lt.2 hfull
      rw [hlast, Bool.false_or, decide_eq_false hnot, Bool.false_or, Bool.or_eq_true,
        Bool.and_eq_true, List.all_eq_true, hall]
      refine and_congr_right fun _ => ?_
      rcases hcases with hfind | ⟨hfind, hdirect⟩
      · -- the frame that goes is no description of a call between two
        have hd : d.payload.isDirectDescription = false := by simpa using List.find?_some hfind
        rw [hfind, Option.any_some, Payload.isDescription, hd, Bool.false_or]
        cases d.payload.isGroupDescription <;> simp
      · -- all are descriptions of calls between two
        have hdesc : ∀ f ∈ c.outboundQueue, f.payload.isDescription = true := fun f hf => by
          rw [Payload.isDescription, hdirect f hf, Bool.true_or]
        obtain ⟨hd, hab⟩ := hall.1 hdesc
        rw [hfind, Option.any_none]
        simp [hd]

theorem sacrificedLast_step {e : Event N} (ht : (machine N).step c e = some c') :
    c'.SacrificedLast ↔ c.SacrificedLast ∧ c.spares e = true := by
  cases e with
  | send payload => exact Option.some.inj ht ▸ sacrificedLast_send
  | onopen room =>
    rw [machine] at ht
    dsimp only at ht
    split_ifs at ht
    exact Option.some.inj ht ▸ (and_iff_left rfl).symm
  | close => exact Option.some.inj ht ▸ (and_iff_left rfl).symm

/-- **Descriptions go last.** In every run the queue keeps to its size, and each frame is sent,
    waits or was dropped, once, in order, an open socket having been given all that waited; and no
    description was dropped while the queue had a frame without one, exactly if the steps of the
    run spare them. -/
theorem sacrificed_last_iff {events : List (Event N)}
    (hrun : (machine N).run (.start N) events = some c) :
    (c.Orderly ∧ c.SacrificedLast) ↔
      ((machine N).restrict fun c e => c.spares e = true).run (.start N) events = some c := by
  have horderly : c.Orderly := Machine.run_invariant (m := machine N) (P := fun _ => True)
    (I := FmSocketClient.Orderly) (fun _ _ _ h _ ht => h.step ht) (fun _ _ => trivial) .start hrun
  rw [and_iff_right horderly]
  refine (Machine.run_restrict_iff (J := fun _ => True) (fun _ _ _ _ _ => trivial)
    (fun _ _ _ _ ht => sacrificedLast_step ht) trivial hrun).1 ?_
  exact fun d hd => absurd hd List.not_mem_nil

namespace Sample

def candidate : Event ℕ := .send (.groupIce "room" "peer" none)

def offer : Event ℕ := .send (.groupOffer "room" "peer" "sdp" false)

/-- The offer of a group call, and its candidates. -/
def offered : List (Event ℕ) := offer :: .replicate 200 candidate

/-- A queue with room for them. -/
def short : List (Event ℕ) := [offer, candidate, .onopen none]

/-- What was dropped: whether it is a description, and whether there was a frame without one. -/
def dropped (events : List (Event ℕ)) : Option (List (Bool × Bool)) :=
  ((machine ℕ).run (.start ℕ) events).map fun c =>
    c.drops.map fun d =>
      (d.frame.payload.isDescription, d.left.all fun f => f.payload.isDescription)

theorem dropped_offered : dropped offered = some [(true, false)] := by
  decide +kernel

end Sample

/-- The offer of a group call is dropped for its candidates. -/
theorem group_offer_dropped :
    ∃ c, (machine ℕ).run (.start ℕ) Sample.offered = some c ∧ ¬c.SacrificedLast := by
  obtain ⟨c, hc, hdrops⟩ := Option.map_eq_some_iff.1 Sample.dropped_offered
  refine ⟨c, hc, fun h => ?_⟩
  obtain ⟨d, hd, hpair⟩ := List.mem_map.1 (hdrops.symm ▸ List.mem_singleton_self (true, false))
  obtain ⟨hdesc, hleft⟩ := Prod.mk.inj hpair
  exact absurd (List.all_eq_true.2 (h d hd hdesc)) (by simp [hleft])

theorem sacrificed_last_iff_down : ∃ c, (machine ℕ).run (.start ℕ) Sample.short = some c ∧
    c.sent.map Frame.number = [0, 1] ∧ c.Orderly ∧ c.SacrificedLast := by
  have hrun : ∃ c, (machine ℕ).run (.start ℕ) Sample.short = some c ∧
      c.sent.map Frame.number = [0, 1] ∧ ((machine ℕ).restrict fun c e => c.spares e = true).run
        (.start ℕ) Sample.short = some c := ⟨_, rfl, rfl, rfl⟩
  obtain ⟨c, hc, hsent, hspares⟩ := hrun
  exact ⟨c, hc, hsent, (sacrificed_last_iff hc).2 hspares⟩

end OneToThree.Ws.Outbound
