import OneToThree.Lib.InsMap
import OneToThree.Lib.Machine

/-!
# The pull of pending messages

A `chat_message` event without content announces a message, which is then fetched with all that
is pending for the chat. One pull runs at a time; an event that finds one running asks it to
start over (`pendingPullAgain`). The pull belongs to the chat it was started for, and stops when it
finds another one open, while the flags are those of all chats.

A message is `waiting` from its event until the next fetch for its chat, or until the chat is left.
That no message waits without a pull (`Served`) holds along the runs in which

* an event for the open chat reaches its subscription, and no pull of another chat is running;
* no pull fails while a message is waiting.
-/

namespace OneToThree.Messages.PendingPull

abbrev ChatId := String

/-- A subscription to the socket, for the chat that was open when its effect ran. -/
structure Subscription where
  chat : ChatId
  /-- Whether the effect had the crypto context and the unlocked key. -/
  ready : Bool
  deriving DecidableEq

/-- A `chat_message` event without content. -/
structure Message where
  chatId : ChatId
  /-- Whether it is from the user. -/
  own : Bool
  /-- Whether the store has it already. -/
  inStore : Bool

/-- A message that was fetched, and whether its text could be read. -/
structure Row where
  id : String
  decrypts : Bool

/-- What the pull awaits. -/
inductive Phase
  | fetch
  | decrypt (pending : List String)
  /-- The caching of a row; the rest of the rows, and the ids to acknowledge. -/
  | cache (row : Row) (rest : List Row) (ids : List String)
  | ack

/-- A running pull, and the chat it was started for. -/
structure Pull where
  chat : ChatId
  phase : Phase

structure State where
  /-- The chat that is open, as the session store has it. -/
  activeChatId : Option ChatId
  subscription : Option Subscription
  pendingPull : Bool
  pendingPullAgain : Bool
  decryptFailCount : InsMap String ℕ
  pull : Option Pull
  /-- Whether a message of the open chat was announced since the last fetch for it. -/
  waiting : Bool

/-- Gives up on a message that does not decrypt after so many pulls. -/
def DECRYPT_RETRY_CAP : ℕ := 5

namespace State

def start : State := ⟨none, none, false, false, ∅, none, false⟩

variable (s : State)

/-- The `finally` of the pull. -/
def finish : State := { s with pull := none, pendingPull := false }

/-- The head of the loop. -/
def startPass (chat : ChatId) : State :=
  if s.activeChatId ≠ some chat then { s with pendingPullAgain := false }.finish
  else { s with pendingPullAgain := false, pull := some ⟨chat, .fetch⟩, waiting := false }

/-- The condition of the loop. -/
def endPass (chat : ChatId) : State := if s.pendingPullAgain then s.startPass chat else s.finish

def await (chat : ChatId) (phase : Phase) : State := { s with pull := some ⟨chat, phase⟩ }

def endRows (chat : ChatId) (ids : List String) : State :=
  if ids = [] then s.endPass chat else s.await chat .ack

/-- How often a message has failed to decrypt so far. -/
def failCount (id : String) : ℕ := (s.decryptFailCount.get? id).getD 0

def setFailCounts (counts : InsMap String ℕ) : State := { s with decryptFailCount := counts }

/-- Goes on to the next row that is shown. -/
def nextRow (s : State) (chat : ChatId) (ids : List String) : List Row → State
  | [] => s.endRows chat ids
  | row :: rest =>
    if s.activeChatId ≠ some chat then s.endRows chat ids
    else if row.decrypts then s.await chat (.cache row rest ids)
    else
      let counted := s.setFailCounts (s.decryptFailCount.set row.id (s.failCount row.id + 1))
      -- Left pending for the next pull, unless it has failed too often.
      if s.failCount row.id + 1 < DECRYPT_RETRY_CAP then counted.nextRow chat ids rest
      else counted.await chat (.cache row rest ids)

/-- The handler of the subscription. -/
def chatMessage (m : Message) : State :=
  match s.subscription with
  | none => s
  | some sub =>
    if !sub.ready ∨ m.chatId ≠ sub.chat then s
    else if m.own ∧ m.inStore then s
    else if s.pendingPull then { s with pendingPullAgain := true }
    else { s with pendingPull := true }.startPass sub.chat

/-- A message is announced to the open chat. -/
def announce (m : Message) : State :=
  { s with waiting := s.waiting || s.activeChatId = some m.chatId }

/-- An event arrives. -/
def arrive (m : Message) : State := (s.announce m).chatMessage m

/-- Another chat is opened, or none. -/
def open? (chat : Option ChatId) : State :=
  { s with activeChatId := chat, waiting := s.waiting && s.activeChatId = chat }

/-- The effect runs for the chat that is open now. -/
def subscribe (ready : Bool) : State :=
  { s with subscription := s.activeChatId.map fun chat => ⟨chat, ready⟩ }

end State

inductive Event
  | switch (chat : Option ChatId)
  | subscribe (ready : Bool)
  | arrive (m : Message)
  /-- The server has answered. -/
  | fetched (pending : List String)
  | decrypted (rows : List Row)
  /-- The row is cached, or failed to be; then the store takes it, or throws. -/
  | cached (appends : Bool)
  /-- The ids are acknowledged, or failed to be. -/
  | acked
  /-- The fetch or the decryption fails. -/
  | fail

/-- What the pull does when what it awaits is there. -/
def resume (s : State) (p : Pull) : Event → Option State
  | .fetched pending =>
    match p.phase with
    | .fetch => some (if pending = [] then s.endPass p.chat else s.await p.chat (.decrypt pending))
    | _ => none
  | .decrypted rows =>
    match p.phase with
    | .decrypt pending =>
      if rows.map Row.id = pending then some (s.nextRow p.chat [] rows) else none
    | _ => none
  | .cached appends =>
    match p.phase with
    | .cache row rest ids =>
      some (if appends then
        (s.setFailCounts (s.decryptFailCount.delete row.id)).nextRow p.chat (ids ++ [row.id]) rest
      else s.finish)
    | _ => none
  | .acked =>
    match p.phase with
    | .ack => some (s.endPass p.chat)
    | _ => none
  | .fail =>
    match p.phase with
    | .fetch | .decrypt _ => some s.finish
    | _ => none
  | _ => none

def step (s : State) : Event → Option State
  | .switch chat => some (s.open? chat)
  | .subscribe ready => some (s.subscribe ready)
  | .arrive m => some (s.arrive m)
  | e => s.pull.bind fun p => resume s p e

def machine : Machine State Event where
  init s := s = .start
  step := step

/-- No message waits with no pull running. -/
def Served (s : State) : Prop := s.pull = none → s.waiting = false

/-- An event for the open chat is taken by its subscription, while no pull of another chat is
    running; nothing fails while a message is waiting. -/
def attended (s : State) : Event → Bool
  | .arrive m =>
    s.activeChatId ≠ some m.chatId ||
      s.subscription = some ⟨m.chatId, true⟩ && !(m.own && m.inStore) &&
        s.pull.all fun p => p.chat = m.chatId
  | .fail | .cached false => !s.waiting
  | _ => true

/-! ## The steps of a pull -/

/-- A message that waits is one of the chat that the pull is for, which starts over. The flag tells
    whether a pull is running. -/
structure Sound (s : State) : Prop where
  running : s.pendingPull = s.pull.isSome
  again : s.waiting = true → s.pendingPullAgain = true ∧ ∃ p, s.pull = some p ∧
    s.activeChatId = some p.chat

theorem Sound.served {s : State} (hs : Sound s) : Served s := by
  intro hnone
  by_contra hwaiting
  obtain ⟨-, p, hp, -⟩ := hs.again (Bool.not_eq_false _ ▸ hwaiting)
  exact Option.some_ne_none p (hp.symm.trans hnone)

variable {s t : State} {chat : ChatId} {p : Pull}

/-- A pass starts with a fetch for the open chat, or the pull ends. -/
theorem sound_startPass (hrun : s.pendingPull = true)
    (hother : s.activeChatId ≠ some chat → s.waiting = false) : Sound (s.startPass chat) := by
  rw [State.startPass]
  split_ifs with hchat
  · exact ⟨rfl, fun hw => absurd ((hother hchat).symm.trans hw) Bool.false_ne_true⟩
  · exact ⟨hrun, fun hw => absurd hw Bool.false_ne_true⟩

theorem sound_finish (h : s.waiting = false) : Sound s.finish :=
  ⟨rfl, fun hw => absurd (h.symm.trans hw) Bool.false_ne_true⟩

/-- What is known while a pull is running. -/
structure Running (s : State) (chat : ChatId) : Prop where
  running : s.pendingPull = true
  again : s.waiting = true → s.pendingPullAgain = true ∧ s.activeChatId = some chat

theorem Sound.toRunning (hs : Sound s) (hp : s.pull = some p) : Running s p.chat := by
  refine ⟨by rw [hs.running, hp]; rfl, fun hw => ?_⟩
  obtain ⟨hagain, p', hp', hactive⟩ := hs.again hw
  obtain rfl := Option.some.inj (hp.symm.trans hp')
  exact ⟨hagain, hactive⟩

namespace Running

theorem endPass (h : Running s chat) : Sound (s.endPass chat) := by
  rw [State.endPass]
  split_ifs with hagain
  · refine sound_startPass h.running fun hne => ?_
    by_contra hw
    exact hne (h.again (Bool.not_eq_false _ ▸ hw)).2
  · refine sound_finish ?_
    by_contra hw
    exact hagain (h.again (Bool.not_eq_false _ ▸ hw)).1

theorem await (h : Running s chat) (phase : Phase) : Sound (s.await chat phase) :=
  ⟨h.running, fun hw => ⟨(h.again hw).1, ⟨chat, phase⟩, rfl, (h.again hw).2⟩⟩

theorem endRows (h : Running s chat) (ids : List String) : Sound (s.endRows chat ids) := by
  rw [State.endRows]
  split_ifs
  · exact h.endPass
  · exact h.await .ack

theorem setFailCounts (h : Running s chat) (counts : InsMap String ℕ) :
    Running (s.setFailCounts counts) chat := ⟨h.running, h.again⟩

theorem nextRow (h : Running s chat) (ids : List String) (rows : List Row) :
    Sound (s.nextRow chat ids rows) := by
  induction rows generalizing s with
  | nil => exact h.endRows ids
  | cons row rest ih =>
    simp only [State.nextRow]
    split_ifs
    · exact h.endRows ids
    · exact h.await _
    · exact ih (h.setFailCounts _)
    · exact (h.setFailCounts _).await _

end Running

theorem waiting_of_not (h : (!s.waiting) = true) : s.waiting = false := by
  rw [← Bool.not_eq_true', h]

theorem Sound.resume {e : Event} (hs : Sound s) (hp : s.pull = some p) (hok : attended s e = true)
    (h : resume s p e = some t) : Sound t := by
  have hrun := hs.toRunning hp
  cases e with
  | fetched pending =>
    rw [PendingPull.resume] at h
    split at h
    · obtain rfl := Option.some.inj h
      split_ifs
      · exact hrun.endPass
      · exact hrun.await _
    · cases h
  | decrypted rows =>
    rw [PendingPull.resume] at h
    split at h
    · obtain ⟨-, h⟩ := Option.ite_none_right_eq_some.1 h
      exact Option.some.inj h ▸ hrun.nextRow [] rows
    · cases h
  | cached appends =>
    rw [PendingPull.resume] at h
    split at h
    · obtain rfl := Option.some.inj h
      cases appends with
      | false => exact sound_finish (waiting_of_not hok)
      | true => exact (hrun.setFailCounts _).nextRow _ _
    · cases h
  | acked =>
    rw [PendingPull.resume] at h
    split at h
    · exact Option.some.inj h ▸ hrun.endPass
    · cases h
  | fail =>
    have hfinish : t = s.finish := by
      rw [PendingPull.resume] at h
      split at h
      · exact (Option.some.inj h).symm
      · exact (Option.some.inj h).symm
      · cases h
    exact hfinish ▸ sound_finish (waiting_of_not hok)
  | switch | subscribe | arrive => cases h

/-! ## Events and switches -/

/-- The handler starts a pull, or asks the running one to start over. -/
theorem chatMessage_of_taken {m : Message} (hsub : s.subscription = some ⟨m.chatId, true⟩)
    (hown : (m.own && m.inStore) = false) :
    s.chatMessage m = if s.pendingPull then { s with pendingPullAgain := true }
      else { s with pendingPull := true }.startPass m.chatId := by
  have hown' : ¬(m.own = true ∧ m.inStore = true) := by
    rw [← Bool.and_eq_true, hown]
    exact Bool.false_ne_true
  rw [State.chatMessage, hsub]
  simp [hown']

theorem Sound.chatMessage (hs : Sound s) (m : Message) : Sound (s.chatMessage m) := by
  rw [State.chatMessage]
  split
  · exact hs
  · rename_i sub _
    split_ifs with hsub hown hpull
    · exact hs
    · exact hs
    · exact ⟨hs.running, fun hw => ⟨rfl, (hs.again hw).2⟩⟩
    · have hchat : sub.chat = m.chatId := by
        by_contra h
        exact hsub (.inr (Ne.symm h))
      -- No pull is running, so nothing waits.
      refine sound_startPass rfl fun _ => hs.served ?_
      have hnone := hs.running
      rw [Bool.not_eq_true] at hpull
      rw [hpull] at hnone
      exact Option.isNone_iff_eq_none.1 (Option.isSome_eq_false_iff.1 hnone.symm)

theorem Sound.arrive {m : Message} (hs : Sound s) (hok : attended s (.arrive m) = true) :
    Sound (s.arrive m) := by
  rw [State.arrive]
  by_cases hopen : s.activeChatId = some m.chatId
  · simp only [attended, hopen, ne_eq, not_true_eq_false, decide_false, Bool.false_or,
      Bool.and_eq_true, decide_eq_true_eq, Bool.not_eq_true'] at hok
    obtain ⟨⟨hsub, hown⟩, hpull⟩ := hok
    rw [chatMessage_of_taken (s := s.announce m) hsub hown]
    split_ifs with hrunning
    · -- The pull is for the open chat.
      change s.pendingPull = true at hrunning
      rw [hs.running] at hrunning
      obtain ⟨p, hp⟩ := Option.isSome_iff_exists.1 hrunning
      rw [hp, Option.all_some, decide_eq_true_eq] at hpull
      exact ⟨hs.running, fun _ => ⟨rfl, p, hp, hpull ▸ hopen⟩⟩
    · exact sound_startPass rfl fun hne => absurd hopen hne
  · refine Sound.chatMessage (s := s.announce m) ⟨hs.running, fun hw => hs.again ?_⟩ m
    rwa [State.announce, decide_eq_false hopen, Bool.or_false] at hw

theorem Sound.open? (hs : Sound s) (chat : Option ChatId) : Sound (s.open? chat) := by
  refine ⟨hs.running, fun hw => ?_⟩
  obtain ⟨hw, hsame⟩ := Bool.and_eq_true_iff.1 hw
  obtain ⟨hagain, p, hp, hactive⟩ := hs.again hw
  exact ⟨hagain, p, hp, (of_decide_eq_true hsame).symm.trans hactive⟩

theorem Sound.step {e : Event} (hs : Sound s) (hok : attended s e = true)
    (h : step s e = some t) : Sound t := by
  have hresume : (s.pull.bind fun p => PendingPull.resume s p e) = some t → Sound t := by
    intro h
    obtain ⟨p, hp, h⟩ := Option.bind_eq_some_iff.1 h
    exact hs.resume hp hok h
  cases e with
  | switch chat => exact Option.some.inj h ▸ hs.open? chat
  | subscribe ready => exact Option.some.inj h ▸ ⟨hs.running, hs.again⟩
  | arrive m => exact Option.some.inj h ▸ hs.arrive hok
  | fetched | decrypted | cached | acked | fail => exact hresume h

theorem sound_start : Sound .start := ⟨rfl, fun h => absurd h Bool.false_ne_true⟩

/-- No message of the open chat waits without a pull, in the runs whose steps attend to it. -/
theorem served_of_attended (h : (machine.restrict fun s e => attended s e = true).Reachable s) :
    Served s := by
  have hinv : (machine.restrict fun s e => attended s e = true).Invariant Sound :=
    ⟨fun _ h => h ▸ sound_start, fun _ _ _ hs h =>
      hs.step (Machine.restrict_step.1 h).1 (Machine.restrict_step.1 h).2⟩
  exact (hinv.reachable h).served

namespace Sample

/-- The chat `chat` is open, and the hook has its context. -/
def opened (chat : ChatId) : List Event := [.switch (some chat), .subscribe true]

def announced (chat : ChatId) : Event := .arrive ⟨chat, false, false⟩

/-- Two messages, the second one while the first is being fetched. -/
def twice : List Event :=
  opened "a" ++ [announced "a", announced "a", .fetched ["m1"], .decrypted [⟨"m1", true⟩],
    .cached true, .acked, .fetched []]

/-- A message of the chat `b` arrives while the pull of the chat `a` is running. -/
def switched : List Event :=
  opened "a" ++ announced "a" :: opened "b" ++ [announced "b", .fetched []]

/-- A message arrives while a fetch is running that fails. -/
def failed : List Event := opened "a" ++ [announced "a", announced "a", .fail]

end Sample

theorem served_of_attended_twice : ∃ t, machine.run .start Sample.twice = some t ∧
    t.pull.isNone = true ∧ Served t := by
  have hrun : ((machine.restrict fun s e => attended s e = true).run .start Sample.twice).map
      (fun t => t.pull.isNone) = some true := by decide
  obtain ⟨t, hok, hnone⟩ := Option.map_eq_some_iff.1 hrun
  exact ⟨t, Machine.run_of_restrict hok, hnone,
    served_of_attended (Machine.reachable_of_run hok rfl)⟩

/-- The pull of another chat takes the flag and stops; a pull that fails leaves it. -/
theorem wakeup_lost :
    (∃ t, machine.run .start Sample.switched = some t ∧ ¬Served t) ∧
      ∃ t, machine.run .start Sample.failed = some t ∧ ¬Served t := by
  have hlost : ∀ {es : List Event}, (machine.run .start es).map
      (fun t => (t.pull.isNone, t.waiting)) = some (true, true) →
      ∃ t, machine.run .start es = some t ∧ ¬Served t := by
    intro es h
    obtain ⟨t, ht, h⟩ := Option.map_eq_some_iff.1 h
    obtain ⟨hnone, hwaiting⟩ := Prod.mk.inj h
    refine ⟨t, ht, fun hserved => ?_⟩
    exact Bool.false_ne_true ((hserved (Option.isNone_iff_eq_none.1 hnone)).symm.trans hwaiting)
  exact ⟨hlost (by decide), hlost (by decide)⟩

end OneToThree.Messages.PendingPull
