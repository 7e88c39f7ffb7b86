import Mathlib.Data.Int.Notation
import OneToThree.Lib.InsMap
import OneToThree.Lib.Machine
import OneToThree.Messages.DecryptRow

/-!
# Live messages

The message store of the open chat, and what the `chat_message` and `message_edited` events
of the socket do to it. A handler is cut where it awaits: what is left of it is a task, and
tasks resume in any order, with whatever the server answered and the ratchet returned in
the meantime (`Reader`).

What is proved is which texts the bubbles of a chat of two come to show. The machine
`realtime` keeps what that is stated by: the texts shown at the start, those that the ratchet
returned, and those of the polls that were served.
-/

namespace OneToThree.Messages

variable {N : Type} [JsNumber N] [DecidableEq N]

/-! ## The store -/

/-- Sorts by date; a date that does not parse compares as equal. -/
def sortNodes (time : String → Option ℤ) (nodes : List (DecryptedMessage N)) :
    List (DecryptedMessage N) :=
  nodes.mergeSort fun a b =>
    match time a.created_at, time b.created_at with
    | some x, some y => x ≤ y
    | _, _ => true

def RAM_CACHE_LIMIT : ℕ := 50

def enforceMemoryLimit (nodes : List (DecryptedMessage N)) : List (DecryptedMessage N) :=
  nodes.drop (nodes.length - RAM_CACHE_LIMIT)

def isBadPlaintext (p : String) : Bool := p = "" ∨ p = decryptFail

/-- Adds a bubble; one that failed or is empty is given the text of a later one. -/
def appendMessage (time : String → Option ℤ) (messages : List (DecryptedMessage N))
    (node : DecryptedMessage N) : List (DecryptedMessage N) :=
  match messages.findIdx? (·.id = node.id) with
  | some idx =>
    match messages[idx]? with
    | some existing =>
      if isBadPlaintext existing.plaintext ∧ !isBadPlaintext node.plaintext then
        enforceMemoryLimit (sortNodes time
          (messages.set idx { existing with plaintext := node.plaintext }))
      else messages
    | none => messages
  | none => enforceMemoryLimit (sortNodes time (messages ++ [node]))

def updateMessagePlaintext (messages : List (DecryptedMessage N)) (nodeId plaintext editedAt : String) :
    List (DecryptedMessage N) :=
  messages.map fun n =>
    if n.id = nodeId then
      { n with plaintext, edited_at := if editedAt = "" then n.edited_at else some editedAt }
    else n

/-! ## The handlers -/

/-- What the hook is mounted with, for the chat that is open. Without a context, or without
    the unlocked key, `cryptoCtx` is `none`. -/
structure RealtimeConfig where
  activeChatId : String
  userId : Option String
  directPeerUserId : Option String
  cryptoCtx : Option ChatCryptoContext
  hints : DecryptHints
  time : String → Option ℤ

/-- The ratchet's context, where both sides of the conversation are known. -/
def RealtimeConfig.drCtx (cfg : RealtimeConfig) : Option DrContext :=
  match truthyText cfg.userId, truthyText cfg.directPeerUserId with
  | some ownerUserId, some peerUserId => some ⟨ownerUserId, peerUserId⟩
  | _, _ => none

/-- What a decryption runs on: the runtime, and the calls that are in flight then. -/
structure Reader (N : Type) [JsNumber N] [DecidableEq N] where
  runtime : Runtime N
  inFlightDrRows : List (InFlight runtime)

/-- What is left of a handler that awaits. -/
inductive Task (N : Type)
  /-- The decryption of the content of an edit. -/
  | editShared (row : ApiMessageRow) (editedAt : String)
  /-- The slots of an edit. -/
  | editFetch (editedId editedAt : String)
  | editDecrypt (target : List ApiMessageRow) (editedId editedAt : String)
  /-- The caching of an edited message. -/
  | editCache (plaintext editedId editedAt : String)
  /-- The pending slots of the chat. -/
  | pullFetch
  | pullDecrypt (pending : List ApiMessageRow)
  /-- The caching of a pulled message; the rest of the rows, and the ids to acknowledge. -/
  | pullCache (row : DecryptedMessage N) (rest : List (DecryptedMessage N)) (ids : List String)
  | pullAck
  /-- The decryption of a message with content. -/
  | shared (cryptoCtx : ChatCryptoContext) (m : ApiMessageRow) (content iv : String)
  /-- The caching of a message with content. -/
  | append (row : DecryptedMessage N)

/-- Gives up on a slot that does not decrypt after so many pulls. -/
def DECRYPT_RETRY_CAP : ℕ := 5

structure Realtime (N : Type) where
  messages : List (DecryptedMessage N)
  tasks : List (Task N)
  pendingPull : Bool
  pendingPullAgain : Bool
  decryptFailCount : InsMap String ℕ

namespace Realtime

variable (s : Realtime N)

def await (task : Task N) : Realtime N := { s with tasks := s.tasks ++ [task] }

def update (nodeId plaintext editedAt : String) : Realtime N :=
  { s with messages := updateMessagePlaintext s.messages nodeId plaintext editedAt }

/-- Stamps an edit on the text that the message has. -/
def keepExisting (editedId editedAt : String) : Realtime N :=
  s.update editedId (((s.messages.find? (·.id = editedId)).map (·.plaintext)).getD "") editedAt

/-- Replaces the text of an edited message, if it could be read. -/
def finishEdit (rows : List (DecryptedMessage N)) (editedId editedAt : String) : Realtime N :=
  match rows.head? with
  | some row =>
    if row.plaintext = decryptFail then s.keepExisting editedId editedAt
    else s.update editedId row.plaintext editedAt
  | none => s.keepExisting editedId editedAt

/-- The end of one pull: another, if an event asked for it meanwhile. -/
def pullEnd : Realtime N :=
  if s.pendingPullAgain then { s with pendingPullAgain := false }.await .pullFetch
  else { s with pendingPull := false }

/-- The rows of a pull in turn, up to the next one that is shown. -/
def pullRows : Realtime N → List (DecryptedMessage N) → List String → Realtime N
  | s, [], ids => if ids = [] then s.pullEnd else s.await .pullAck
  | s, row :: rest, ids =>
    if row.plaintext = decryptFail ∧ row.id ≠ "" then
      let n := (s.decryptFailCount.get? row.id).getD 0 + 1
      let s := { s with decryptFailCount := s.decryptFailCount.set row.id n }
      -- Left pending, so that a later pull can show it.
      if n < DECRYPT_RETRY_CAP then pullRows s rest ids else s.await (.pullCache row rest ids)
    else s.await (.pullCache row rest ids)

/-- A pulled message is shown. -/
def showPulled (time : String → Option ℤ) (row : DecryptedMessage N)
    (rest : List (DecryptedMessage N)) (ids : List String) : Realtime N :=
  let s := { s with messages := appendMessage time s.messages row }
  if row.id = "" then s.pullRows rest ids
  else
    let s := { s with decryptFailCount := s.decryptFailCount.delete row.id }
    s.pullRows rest (ids ++ [row.id])

/-- The row of an edit's content. -/
def editRow (cfg : RealtimeConfig) (editedId content iv editedAt : String) : ApiMessageRow where
  id := editedId
  chat_id := cfg.activeChatId
  sender_id := cfg.userId.getD ""
  reply_to_id := none
  reply_to_sender_id := none
  content := some content
  iv := some iv
  media_path := none
  media_type := none
  media_iv := none
  media_original_bytes := none
  device_ciphertext := none
  device_iv := none
  sender_ecdh_public_key_jwk := none
  read_at := none
  burn_at := none
  burn_duration_secs := none
  is_pinned := none
  reactions := []
  created_at := editedAt
  protocol_version := none

def onMessageEdited (cfg : RealtimeConfig) (chatId editedId : String) (content iv : Option String)
    (editedAt : String) : Realtime N :=
  if chatId ≠ cfg.activeChatId then s
  else
    match content, iv, cfg.cryptoCtx with
    | some content, some iv, some _ => s.await (.editShared (editRow cfg editedId content iv editedAt) editedAt)
    | _, _, some (.DIRECT _ _) | _, _, some (.SELF _) => s.await (.editFetch editedId editedAt)
    | _, _, _ => s.keepExisting editedId editedAt

/-- The bubble of a message with content. The sentinel marks a notice, and nothing else does. -/
def sharedNode (rt : Runtime N) (m : ApiMessageRow) (plaintext : String) : DecryptedMessage N :=
  { apiRowToDecrypted rt m plaintext with reply_to_sender_id := none, burn_duration_secs := none }

def onChatMessage (cfg : RealtimeConfig) (rt : Runtime N) (m : ApiMessageRow) : Realtime N :=
  match cfg.cryptoCtx with
  | none => s
  | some cryptoCtx =>
    if m.chat_id ≠ cfg.activeChatId then s
    else
      match truthyText m.content with
      | none =>
        if some m.sender_id = cfg.userId ∧ s.messages.any (·.id = m.id) then s
        else if s.pendingPull then { s with pendingPullAgain := true }
        else { s with pendingPull := true, pendingPullAgain := false }.await .pullFetch
      | some content =>
        match m.iv with
        | none => s.await (.append (sharedNode rt m ""))
        | some iv =>
          if iv ∈ sentinels then s.await (.append (sharedNode rt m content))
          else
            match cryptoCtx with
            | .DIRECT _ _ => s.await (.append (sharedNode rt m decryptFail))
            | cryptoCtx => s.await (.shared cryptoCtx m content iv)

/-- A task goes on with what the server answered; `none` is a request that failed. -/
def onFetched (task : Task N) (pending : Option (List ApiMessageRow)) : Option (Realtime N) :=
  match task, pending with
  | .editFetch editedId editedAt, some pending =>
    let target := pending.filter (·.id = editedId)
    if target = [] then some (s.keepExisting editedId editedAt)
    else some (s.await (.editDecrypt target editedId editedAt))
  | .editFetch editedId editedAt, none => some (s.keepExisting editedId editedAt)
  | .pullFetch, some pending =>
    if pending = [] then some s.pullEnd else some (s.await (.pullDecrypt pending))
  | .pullFetch, none => some { s with pendingPull := false }
  | _, _ => none

/-- A task goes on with what was decrypted. -/
def onDecrypted (cfg : RealtimeConfig) (task : Task N) (reader : Reader N) : Option (Realtime N) := do
  let cryptoCtx ← cfg.cryptoCtx
  match task with
  | .editShared row editedAt =>
    let rows := decryptApiMessageRows reader.inFlightDrRows cryptoCtx [row] none cfg.hints
    some (s.finishEdit rows row.id editedAt)
  | .editDecrypt target editedId editedAt =>
    let rows := decryptApiMessageRows reader.inFlightDrRows cryptoCtx target cfg.drCtx cfg.hints
    match rows.head? with
    | some row =>
      if row.plaintext = decryptFail then some (s.keepExisting editedId editedAt)
      else some (s.await (.editCache row.plaintext editedId editedAt))
    | none => some (s.keepExisting editedId editedAt)
  | .pullDecrypt pending =>
    let rows := decryptApiMessageRows reader.inFlightDrRows cryptoCtx pending cfg.drCtx cfg.hints
    some (s.pullRows rows [])
  | .shared cryptoCtx m content iv =>
    match reader.runtime.decryptInboundText cryptoCtx content iv with
    | .ok plaintext => some (s.await (.append (sharedNode reader.runtime m plaintext)))
    | .error _ => some (s.await (.append (sharedNode reader.runtime m decryptFail)))
  | _ => none

/-- A task goes on once a message is cached, or once an acknowledgement is answered; both are
    best-effort. -/
def onSettled (cfg : RealtimeConfig) (task : Task N) : Option (Realtime N) :=
  match task with
  | .editCache plaintext editedId editedAt => some (s.update editedId plaintext editedAt)
  | .pullCache row rest ids => some (s.showPulled cfg.time row rest ids)
  | .pullAck => some s.pullEnd
  | .append row => some { s with messages := appendMessage cfg.time s.messages row }
  | _ => none

end Realtime

/-! ## Runs -/

/-- What happens while a chat is open. -/
inductive RealtimeEvent (N : Type) [JsNumber N] [DecidableEq N]
  | messageEdited (chatId editedId : String) (content iv : Option String) (editedAt : String)
  | chatMessage (runtime : Runtime N) (m : ApiMessageRow)
  /-- A request of a task is answered. -/
  | fetched (task : ℕ) (pending : Option (List ApiMessageRow))
  /-- The decryption of a task is done. -/
  | decrypted (task : ℕ) (reader : Reader N)
  /-- A best-effort action of a task is over. -/
  | settled (task : ℕ)

/-- The text that the ratchet returns for a row, if it is read with it. -/
def ratchetText (reader : Reader N) (inFlightDrRows : List (InFlight reader.runtime))
    (row : ApiMessageRow) (drCtx : Option DrContext) : Option String :=
  match row.ciphertext, drCtx with
  | some c, some drCtx =>
    if row.protocol_version = some 2 ∧ row.effectiveIv = some DR_SLOT_SENTINEL then
      (decryptDrRow inFlightDrRows row drCtx c).toOption
    else none
  | _, _ => none

/-- The texts that the ratchet returns for the rows of a decryption. -/
def ratchetTexts (reader : Reader N) (drCtx : Option DrContext) :
    List (InFlight reader.runtime) → List ApiMessageRow → List String
  | _, [] => []
  | inFlightDrRows, row :: rows =>
    (ratchetText reader inFlightDrRows row drCtx).toList ++
      ratchetTexts reader drCtx (publish inFlightDrRows row drCtx) rows

/-- The plain texts of the polls among some rows, with their ids. -/
def pollTexts (rows : List ApiMessageRow) : List (String × String) :=
  rows.filterMap fun row =>
    match row.ciphertext with
    | some c => if row.effectiveIv = some pollSentinel then some (row.id, c) else none
    | none => none

/-- The rows that a task decrypts. -/
def Task.rows : Task N → List ApiMessageRow
  | .editShared row _ => [row]
  | .editDecrypt target _ _ => target
  | .pullDecrypt pending => pending
  | _ => []

/-- The context of the ratchet that a task decrypts in: the content of an edit has none. -/
def Task.drCtx (cfg : RealtimeConfig) : Task N → Option DrContext
  | .editShared _ _ => none
  | _ => cfg.drCtx

/-- The polls among the messages that a task decrypts. -/
def Task.polls : Task N → List (String × String)
  | .pullDecrypt pending => pollTexts pending
  | _ => []

/-- An open chat, with its history: the texts that the ratchet returned, and those of the
    polls that were served. -/
structure Watched (N : Type) where
  realtime : Realtime N
  returned : List String
  polls : List (String × String)

namespace Watched

variable (w : Watched N)

/-- The task that goes on, and the state without it. -/
def take (task : ℕ) : Option (Task N × Realtime N) :=
  (w.realtime.tasks[task]?).map fun t =>
    (t, { w.realtime with tasks := w.realtime.tasks.eraseIdx task })

def step (cfg : RealtimeConfig) : RealtimeEvent N → Option (Watched N)
  | .messageEdited chatId editedId content iv editedAt =>
    some { w with realtime := w.realtime.onMessageEdited cfg chatId editedId content iv editedAt }
  | .chatMessage runtime m =>
    -- The event is read without a slot.
    some { w with
      realtime := w.realtime.onChatMessage cfg runtime m
      polls := w.polls ++ pollTexts [{ m with device_ciphertext := none, device_iv := none }] }
  | .fetched task pending => do
    let (t, realtime) ← w.take task
    let realtime ← realtime.onFetched t pending
    some { w with realtime }
  | .decrypted task reader => do
    let (t, realtime) ← w.take task
    let realtime ← realtime.onDecrypted cfg t reader
    some { w with
      realtime
      returned := w.returned ++ ratchetTexts reader (t.drCtx cfg) reader.inFlightDrRows t.rows
      polls := w.polls ++ t.polls }
  | .settled task => do
    let (t, realtime) ← w.take task
    let realtime ← realtime.onSettled cfg t
    some { w with realtime }

end Watched

/-- The open chat, from any store. -/
def realtime (N : Type) [JsNumber N] [DecidableEq N] (cfg : RealtimeConfig) :
    Machine (Watched N) (RealtimeEvent N) where
  init w := w.realtime.tasks = [] ∧ w.returned = [] ∧ w.polls = []
  step w e := w.step cfg e

/-! ## What the bubbles show -/

/-- A text that an unmarked bubble may show, in a run from `start` to `w`. -/
def Watched.Shows (start w : Watched N) (id plaintext : String) : Prop :=
  plaintext = "" ∨ plaintext = decryptFail ∨ plaintext ∈ w.returned ∨
    (∃ m ∈ start.realtime.messages, m.id = id ∧ m.plaintext = plaintext) ∨
    (id, plaintext) ∈ w.polls

/-- The steps that keep off the sentinels' other ways into the store: an edit of a message
    carries none, in its content or in its slots; no slot that is pulled has one for its iv;
    and no notice has the id of a bubble that is not marked. -/
def keepsMarks (w : Watched N) : RealtimeEvent N → Bool
  | .messageEdited _ _ _ iv _ => iv.all (· ∉ sentinels)
  | .fetched task pending =>
    let rows := pending.getD []
    (rows.all fun row => row.device_iv.all (· ∉ sentinels)) &&
      match w.realtime.tasks[task]? with
      | some (.editFetch editedId _) =>
        rows.all fun row => row.id ≠ editedId ∨ row.effectiveIv.all (· ∉ sentinels)
      | _ => true
  | .settled task =>
    match w.realtime.tasks[task]? with
    | some (.pullCache row _ _) | some (.append row) =>
      !row.isSystemStamped ||
        w.realtime.messages.all fun m => m.id ≠ row.id ∨ m.isSystemStamped
    | _ => true
  | .chatMessage _ _ | .decrypted _ _ => true

/-! ### The store -/

/-- Where a bubble of an id is not marked, every bubble of the id shows a text meeting `S`.
    Two bubbles of one id are told apart only by their marks. -/
def Authentic (S : String → String → Prop) (messages : List (DecryptedMessage N)) : Prop :=
  ∀ m ∈ messages, ∀ m' ∈ messages, m'.id = m.id → m'.isSystemStamped = false → S m.id m.plaintext

section
variable {S S' : String → String → Prop} {messages : List (DecryptedMessage N)}

omit [JsNumber N] [DecidableEq N]

theorem Authentic.mono (h : Authentic S messages) (hS : ∀ id text, S id text → S' id text) :
    Authentic S' messages :=
  fun m hm m' hm' hid hmark => hS _ _ (h m hm m' hm' hid hmark)

theorem Authentic.of_subset {messages' : List (DecryptedMessage N)} (h : Authentic S messages)
    (hsub : ∀ m ∈ messages', m ∈ messages) : Authentic S messages' :=
  fun m hm m' hm' => h m (hsub m hm) m' (hsub m' hm')

theorem mem_of_mem_enforceMemoryLimit {time : String → Option ℤ} {m : DecryptedMessage N}
    (h : m ∈ enforceMemoryLimit (sortNodes time messages)) : m ∈ messages :=
  List.mem_mergeSort.1 (List.mem_of_mem_drop h)

/-- A bubble that is added, or whose text is given to the bubble that has its id. -/
theorem Authentic.append {time : String → Option ℤ} {node : DecryptedMessage N}
    (h : Authentic S messages) (hnode : node.isSystemStamped = false → S node.id node.plaintext)
    (hmark : node.isSystemStamped → ∀ m ∈ messages, m.id = node.id → m.isSystemStamped) :
    Authentic S (appendMessage time messages node) := by
  rw [appendMessage]
  split
  next idx hidx =>
    split
    next existing hexisting =>
      split
      · refine Authentic.of_subset ?_ fun m => mem_of_mem_enforceMemoryLimit
        obtain ⟨hlt, hid, -⟩ := List.findIdx?_eq_some_iff_getElem.1 hidx
        obtain ⟨hlt', rfl⟩ := List.getElem?_eq_some_iff.1 hexisting
        have hmem := List.getElem_mem hlt
        replace hid : messages[idx].id = node.id := of_decide_eq_true hid
        intro m hm m' hm' heq hunmarked
        -- The bubble that has the mark of `m'` is in the store already.
        obtain ⟨old, hold, holdid, holdmark⟩ : ∃ old ∈ messages, old.id = m'.id ∧
            old.isSystemStamped = m'.isSystemStamped := by
          rcases List.mem_or_eq_of_mem_set hm' with hm' | rfl
          · exact ⟨m', hm', rfl, rfl⟩
          · exact ⟨messages[idx], hmem, rfl, rfl⟩
        rw [hunmarked] at holdmark
        rcases List.mem_or_eq_of_mem_set hm with hm | rfl
        · exact h m hm old hold (holdid.trans heq) holdmark
        · have hnodeid : old.id = node.id := (holdid.trans heq).trans hid
          have hunstamped : node.isSystemStamped = false := by
            by_contra hstamped
            have := hmark (by simpa using hstamped) old hold hnodeid
            simp [this] at holdmark
          exact hid ▸ hnode hunstamped
      · exact h
    next => exact h
  next hnone =>
    refine Authentic.of_subset ?_ fun m => mem_of_mem_enforceMemoryLimit
    have hfresh : ∀ m ∈ messages, m.id ≠ node.id := by
      intro m hm hid
      have := List.findIdx?_eq_none_iff.1 hnone m hm
      simp [hid] at this
    intro m hm m' hm' hid hunmarked
    rcases List.mem_append.1 hm with hold | hnew <;>
      rcases List.mem_append.1 hm' with hold' | hnew'
    · exact h m hold m' hold' hid hunmarked
    · obtain rfl := List.mem_singleton.1 hnew'
      exact absurd hid.symm (hfresh m hold)
    · obtain rfl := List.mem_singleton.1 hnew
      exact absurd hid (hfresh m' hold')
    · obtain rfl := List.mem_singleton.1 hnew
      obtain rfl := List.mem_singleton.1 hnew'
      exact hnode hunmarked

/-- A text that every bubble of an id may show. -/
theorem Authentic.update {nodeId plaintext editedAt : String} (h : Authentic S messages)
    (hS : ∀ m ∈ messages, m.id = nodeId → m.isSystemStamped = false → S nodeId plaintext) :
    Authentic S (updateMessagePlaintext messages nodeId plaintext editedAt) := by
  intro m hm m' hm' hid hunmarked
  obtain ⟨n, hn, rfl⟩ := List.mem_map.1 hm
  obtain ⟨n', hn', rfl⟩ := List.mem_map.1 hm'
  have hid' : n'.id = n.id := by
    split_ifs at hid <;> exact hid
  have hunmarked' : n'.isSystemStamped = false := by
    split_ifs at hunmarked <;> exact hunmarked
  by_cases hnode : n.id = nodeId
  · rw [if_pos hnode]
    exact hnode ▸ hS n' hn' (hid'.trans hnode) hunmarked'
  · rw [if_neg hnode]
    exact h n hn n' hn' hid' hunmarked'

end

/-! ### The tasks -/

/-- A bubble that may be added. -/
def NodeOk (S : String → String → Prop) (node : DecryptedMessage N) : Prop :=
  node.isSystemStamped = false → S node.id node.plaintext

/-- A row that is shown as its slot says, or marked. -/
def RowOk (row : ApiMessageRow) : Prop := ∀ iv ∈ row.device_iv, iv ∉ sentinels

/-- A row that is no sentinel row. -/
def OrdinaryRow (row : ApiMessageRow) : Prop := ∀ iv ∈ row.effectiveIv, iv ∉ sentinels

/-- What a task has in hand. -/
def TaskOk (S : String → String → Prop) : Task N → Prop
  | .editShared row _ => OrdinaryRow row
  | .editDecrypt target editedId _ => ∀ row ∈ target, OrdinaryRow row ∧ row.id = editedId
  | .editCache plaintext editedId _ => S editedId plaintext
  | .pullDecrypt pending => ∀ row ∈ pending, RowOk row
  | .pullCache row rest _ => NodeOk S row ∧ ∀ row ∈ rest, NodeOk S row
  | .append row => NodeOk S row
  | .shared _ _ _ _ => False
  | .editFetch _ _ | .pullFetch | .pullAck => True

structure Realtime.Ok (S : String → String → Prop) (s : Realtime N) : Prop where
  store : Authentic S s.messages
  tasks : ∀ task ∈ s.tasks, TaskOk S task

section
variable {S S' : String → String → Prop} {s : Realtime N}

omit [JsNumber N] [DecidableEq N]

theorem TaskOk.mono {task : Task N} (h : TaskOk S task) (hS : ∀ id text, S id text → S' id text) :
    TaskOk S' task := by
  cases task with
  | pullCache row rest ids =>
    exact ⟨fun hmark => hS _ _ (h.1 hmark), fun row hrow hmark => hS _ _ (h.2 row hrow hmark)⟩
  | append row => exact fun hmark => hS _ _ (h hmark)
  | editCache plaintext editedId editedAt => exact hS _ _ h
  | _ => exact h

namespace Realtime

theorem Ok.mono (h : s.Ok S) (hS : ∀ id text, S id text → S' id text) : s.Ok S' :=
  ⟨h.store.mono hS, fun task htask => (h.tasks task htask).mono hS⟩

theorem Ok.congr {t : Realtime N} (h : s.Ok S) (hmessages : t.messages = s.messages)
    (htasks : t.tasks = s.tasks) : t.Ok S :=
  ⟨hmessages ▸ h.store, htasks ▸ h.tasks⟩

theorem Ok.await {task : Task N} (h : s.Ok S) (htask : TaskOk S task) : (s.await task).Ok S := by
  refine ⟨h.store, fun t ht => ?_⟩
  rcases List.mem_append.1 ht with ht | ht
  · exact h.tasks t ht
  · exact List.mem_singleton.1 ht ▸ htask

theorem Ok.update {nodeId plaintext editedAt : String} (h : s.Ok S) (hS : S nodeId plaintext) :
    (s.update nodeId plaintext editedAt).Ok S :=
  ⟨h.store.update fun _ _ _ _ => hS, h.tasks⟩

theorem Ok.keepExisting (h : s.Ok S) (editedId editedAt : String) :
    (s.keepExisting editedId editedAt).Ok S := by
  refine ⟨h.store.update fun m hm hid hmark => ?_, h.tasks⟩
  cases hfind : s.messages.find? (·.id = editedId) with
  | none =>
    have := List.find?_eq_none.1 hfind m hm
    simp [hid] at this
  | some found =>
    have hfound : found.id = editedId := by simpa using List.find?_some hfind
    exact hfound ▸ h.store found (List.mem_of_find?_eq_some hfind) m hm
      (hid.trans hfound.symm) hmark

theorem Ok.pullEnd (h : s.Ok S) : s.pullEnd.Ok S := by
  rw [Realtime.pullEnd]
  split_ifs
  · exact Ok.await (h.congr rfl rfl) trivial
  · exact h.congr rfl rfl

theorem Ok.pullRows {rows : List (DecryptedMessage N)} (h : s.Ok S)
    (hrows : ∀ row ∈ rows, NodeOk S row) (ids : List String) : (s.pullRows rows ids).Ok S := by
  induction rows generalizing s with
  | nil =>
    rw [Realtime.pullRows]
    split_ifs
    · exact h.pullEnd
    · exact h.await trivial
  | cons row rest ih =>
    obtain ⟨hrow, hrest⟩ := List.forall_mem_cons.1 hrows
    rw [Realtime.pullRows]
    dsimp only
    split_ifs
    · exact ih (h.congr rfl rfl) hrest
    · exact Ok.await (h.congr rfl rfl) ⟨hrow, hrest⟩
    · exact h.await ⟨hrow, hrest⟩

theorem Ok.append (time : String → Option ℤ) {node : DecryptedMessage N} (h : s.Ok S)
    (hnode : NodeOk S node)
    (hmark : node.isSystemStamped → ∀ m ∈ s.messages, m.id = node.id → m.isSystemStamped) :
    ({ s with messages := appendMessage time s.messages node } : Realtime N).Ok S :=
  ⟨h.store.append hnode hmark, h.tasks⟩

theorem Ok.showPulled (time : String → Option ℤ) {row : DecryptedMessage N}
    {rest : List (DecryptedMessage N)} (h : s.Ok S) (hrow : NodeOk S row)
    (hrest : ∀ row ∈ rest, NodeOk S row)
    (hmark : row.isSystemStamped → ∀ m ∈ s.messages, m.id = row.id → m.isSystemStamped)
    (ids : List String) : (s.showPulled time row rest ids).Ok S := by
  have happend := h.append time hrow hmark
  rw [Realtime.showPulled]
  dsimp only
  split_ifs
  · exact happend.pullRows hrest ids
  · refine Ok.pullRows ?_ hrest _
    exact happend.congr rfl rfl

end Realtime

end

/-! ### What is decrypted -/

section
variable {reader : Reader N} {inFlightDrRows : List (InFlight reader.runtime)}
  {peerPublicKeyJwk : String} {row : ApiMessageRow} {rows : List ApiMessageRow}
  {drCtx : Option DrContext} {hints : DecryptHints}

theorem decryptRow_id :
    (decryptRow inFlightDrRows (.DIRECT peerPublicKeyJwk false) row drCtx hints).id = row.id := by
  rw [decryptRow]
  split <;> rfl

theorem decryptRow_isSystemStamped :
    (decryptRow inFlightDrRows (.DIRECT peerPublicKeyJwk false) row drCtx hints).isSystemStamped =
      decide (row.iv = some systemSentinel) := by
  rw [decryptRow]
  split <;> rfl

theorem ratchetText_eq_some {c text : String} {ctx : DrContext} (hc : row.ciphertext = some c)
    (hdr : row.protocol_version = some 2 ∧ row.effectiveIv = some DR_SLOT_SENTINEL)
    (h : decryptDrRow inFlightDrRows row ctx c = .ok text) :
    ratchetText reader inFlightDrRows row (some ctx) = some text := by
  simp [ratchetText, hc, hdr, h, Except.toOption]

/-- The text of a row that is read: blank, failed, from the ratchet or from a sentinel row. -/
theorem decryptRow_plaintext (inFlightDrRows : List (InFlight reader.runtime))
    (peerPublicKeyJwk : String) (row : ApiMessageRow) (drCtx : Option DrContext)
    (hints : DecryptHints) :
    let plaintext :=
      (decryptRow inFlightDrRows (.DIRECT peerPublicKeyJwk false) row drCtx hints).plaintext
    plaintext = "" ∨ plaintext = decryptFail ∨
      plaintext ∈ ratchetText reader inFlightDrRows row drCtx ∨
      row.ciphertext = some plaintext ∧ ∃ iv ∈ row.effectiveIv, iv ∈ sentinels := by
  intro plaintext
  simp only [plaintext]
  rw [decryptRow]
  rcases decryptRowPlaintext_direct_cases inFlightDrRows peerPublicKeyJwk row drCtx hints with
    ⟨e, he⟩ | hempty | ⟨c, ctx, hc, rfl, hdr, hresult⟩ | ⟨c, iv, hc, hiv, hsentinel, hplain⟩
  · rw [he]
    exact .inr (.inl rfl)
  · rw [hempty]
    exact .inl rfl
  · rw [hresult]
    cases hdecrypt : decryptDrRow inFlightDrRows row ctx c with
    | error e => exact .inr (.inl rfl)
    | ok text =>
      exact .inr (.inr (.inl (ratchetText_eq_some hc hdr hdecrypt)))
  · rw [hplain]
    exact .inr (.inr (.inr ⟨hc, iv, hiv, hsentinel⟩))

/-- A row that may not be shown is marked, or is a poll. -/
theorem decryptEachRow_nodeOk (hrows : ∀ row ∈ rows, RowOk row) :
    ∀ node ∈ decryptEachRow (.DIRECT peerPublicKeyJwk false) drCtx hints inFlightDrRows rows,
      NodeOk (fun id plaintext => plaintext = "" ∨ plaintext = decryptFail ∨
        plaintext ∈ ratchetTexts reader drCtx inFlightDrRows rows ∨
        (id, plaintext) ∈ pollTexts rows) node := by
  induction rows generalizing inFlightDrRows with
  | nil => exact fun node hnode => absurd hnode List.not_mem_nil
  | cons row rows ih =>
    obtain ⟨hrow, hrest⟩ := List.forall_mem_cons.1 hrows
    rw [decryptEachRow]
    refine List.forall_mem_cons.2 ⟨fun hmark => ?_, fun node hnode hmark => ?_⟩
    · rw [decryptRow_isSystemStamped] at hmark
      rw [decryptRow_id]
      rcases decryptRow_plaintext inFlightDrRows peerPublicKeyJwk row drCtx hints with
        hblank | hfail | hratchet | ⟨hc, iv, hiv, hsentinel⟩
      · exact .inl hblank
      · exact .inr (.inl hfail)
      · exact .inr (.inr (.inl (List.mem_append_left _ (Option.mem_toList.2 hratchet))))
      · -- A sentinel row is marked or a poll, as its slot has no iv of its own.
        have hown := (ApiMessageRow.iv_of_effectiveIv hiv hrow hsentinel).2
        rcases List.mem_cons.1 hsentinel with rfl | hpoll
        · simp [hown] at hmark
        · obtain rfl := List.mem_singleton.1 hpoll
          refine .inr (.inr (.inr (List.mem_filterMap.2 ⟨row, List.mem_cons_self, ?_⟩)))
          rw [hc]
          exact if_pos hiv
    · rcases ih hrest node hnode hmark with hblank | hfail | hratchet | hpoll
      · exact .inl hblank
      · exact .inr (.inl hfail)
      · exact .inr (.inr (.inl (List.mem_append_right _ hratchet)))
      · obtain ⟨row', hrow', hpoll⟩ := List.mem_filterMap.1 hpoll
        exact .inr (.inr (.inr (List.mem_filterMap.2 ⟨row', List.mem_cons_of_mem _ hrow', hpoll⟩)))

/-- The first text of some rows, where the first row is no sentinel row. -/
theorem decryptEachRow_head (hrow : OrdinaryRow row) :
    ∀ node ∈ (decryptEachRow (.DIRECT peerPublicKeyJwk false) drCtx hints inFlightDrRows
        (row :: rows)).head?,
      node.plaintext = "" ∨ node.plaintext = decryptFail ∨
        node.plaintext ∈ ratchetTexts reader drCtx inFlightDrRows (row :: rows) := by
  intro node hnode
  rw [decryptEachRow, List.head?_cons, Option.mem_some_iff] at hnode
  subst hnode
  rcases decryptRow_plaintext inFlightDrRows peerPublicKeyJwk row drCtx hints with
    hblank | hfail | hratchet | ⟨-, iv, hiv, hsentinel⟩
  · exact .inl hblank
  · exact .inr (.inl hfail)
  · exact .inr (.inr (List.mem_append_left _ (Option.mem_toList.2 hratchet)))
  · exact absurd hsentinel (hrow iv hiv)

end

/-! ### The steps -/

section
variable {S : String → String → Prop} {s : Realtime N} {cfg : RealtimeConfig}
  {peerPublicKeyJwk : String}

omit [JsNumber N] [DecidableEq N]

namespace Realtime

theorem Ok.finishEdit {rows : List (DecryptedMessage N)} (h : s.Ok S) (editedId editedAt : String)
    (hrows : ∀ row ∈ rows.head?, row.plaintext ≠ decryptFail → S editedId row.plaintext) :
    (s.finishEdit rows editedId editedAt).Ok S := by
  rw [Realtime.finishEdit]
  split
  next row hrow =>
    split_ifs with hfail
    · exact h.keepExisting editedId editedAt
    · exact h.update (hrows row hrow hfail)
  next => exact h.keepExisting editedId editedAt

theorem Ok.onMessageEdited {chatId editedId : String} {content iv : Option String}
    {editedAt : String} (h : s.Ok S) (hiv : ∀ sentinel ∈ iv, sentinel ∉ sentinels) :
    (s.onMessageEdited cfg chatId editedId content iv editedAt).Ok S := by
  rw [Realtime.onMessageEdited.eq_def]
  split_ifs
  · exact h
  · split
    · exact h.await hiv
    · exact h.await trivial
    · exact h.await trivial
    · exact h.keepExisting editedId editedAt

/-- A message with content is marked, failed or a poll. -/
theorem Ok.onChatMessage {rt : Runtime N} {m : ApiMessageRow}
    (hctx : cfg.cryptoCtx = some (.DIRECT peerPublicKeyJwk false)) (h : s.Ok S)
    (hm : ∀ node : DecryptedMessage N, (∃ plaintext, node = sharedNode rt m plaintext ∧
      (plaintext = "" ∨ plaintext = decryptFail ∨
        m.content = some plaintext ∧ ∃ iv ∈ m.iv, iv ∈ sentinels)) → NodeOk S node) :
    (s.onChatMessage cfg rt m).Ok S := by
  rw [Realtime.onChatMessage, hctx]
  dsimp only
  by_cases hchat : m.chat_id ≠ cfg.activeChatId
  · rw [if_pos hchat]
    exact h
  · rw [if_neg hchat]
    cases hcontent : truthyText m.content with
    | none =>
      dsimp only
      split_ifs
      · exact h
      · exact h.congr rfl rfl
      · exact Ok.await (h.congr rfl rfl) trivial
    | some content =>
      have hown : m.content = some content := (Option.filter_eq_some_iff.1 hcontent).1
      dsimp only
      split
      · exact h.await (hm _ ⟨_, rfl, .inl rfl⟩)
      next iv hiv =>
        split_ifs with hsentinel
        · exact h.await (hm _ ⟨_, rfl, .inr (.inr ⟨hown, iv, hiv, hsentinel⟩)⟩)
        · exact h.await (hm _ ⟨_, rfl, .inr (.inl rfl)⟩)

theorem Ok.onFetched {task : Task N} {pending : Option (List ApiMessageRow)} {s' : Realtime N}
    (h : s.Ok S) (hrows : ∀ row ∈ pending.getD [], RowOk row)
    (hedit : ∀ editedId editedAt, task = .editFetch editedId editedAt →
      ∀ row ∈ pending.getD [], row.id = editedId → OrdinaryRow row)
    (hs' : s.onFetched task pending = some s') : s'.Ok S := by
  rw [Realtime.onFetched.eq_def] at hs'
  split at hs'
  next editedId editedAt rows =>
    dsimp only at hs'
    split_ifs at hs' <;> obtain rfl := Option.some.inj hs'
    · exact h.keepExisting editedId editedAt
    · refine h.await fun row hrow => ?_
      obtain ⟨hmem, hid⟩ := List.mem_filter.1 hrow
      replace hid : row.id = editedId := of_decide_eq_true hid
      exact ⟨hedit editedId editedAt rfl row hmem hid, hid⟩
  next editedId editedAt =>
    obtain rfl := Option.some.inj hs'
    exact h.keepExisting editedId editedAt
  next rows =>
    split_ifs at hs' <;> obtain rfl := Option.some.inj hs'
    · exact h.pullEnd
    · exact h.await hrows
  next =>
    obtain rfl := Option.some.inj hs'
    exact h.congr rfl rfl
  next => exact nomatch hs'

theorem Ok.onSettled {task : Task N} {s' : Realtime N} (h : s.Ok S) (htask : TaskOk S task)
    (hmark : ∀ row, (∃ rest ids, task = .pullCache row rest ids) ∨ task = .append row →
      row.isSystemStamped → ∀ m ∈ s.messages, m.id = row.id → m.isSystemStamped)
    (hs' : s.onSettled cfg task = some s') : s'.Ok S := by
  rw [Realtime.onSettled.eq_def] at hs'
  split at hs'
  next plaintext editedId editedAt =>
    obtain rfl := Option.some.inj hs'
    exact h.update htask
  next row rest ids =>
    obtain rfl := Option.some.inj hs'
    exact h.showPulled _ htask.1 htask.2 (hmark row (.inl ⟨rest, ids, rfl⟩)) ids
  next =>
    obtain rfl := Option.some.inj hs'
    exact h.pullEnd
  next row =>
    obtain rfl := Option.some.inj hs'
    exact h.append _ htask (hmark row (.inr rfl))
  next => exact nomatch hs'

end Realtime

end

section
variable {S : String → String → Prop} {s : Realtime N} {cfg : RealtimeConfig}
  {peerPublicKeyJwk : String}

theorem Realtime.Ok.onDecrypted {task : Task N} {reader : Reader N} {s' : Realtime N}
    (hctx : cfg.cryptoCtx = some (.DIRECT peerPublicKeyJwk false)) (h : s.Ok S)
    (htask : TaskOk S task)
    (hS : ∀ id plaintext, (plaintext = "" ∨ plaintext = decryptFail ∨
      plaintext ∈ ratchetTexts reader (task.drCtx cfg) reader.inFlightDrRows task.rows ∨
      (id, plaintext) ∈ task.polls) → S id plaintext)
    (hs' : s.onDecrypted cfg task reader = some s') : s'.Ok S := by
  rw [Realtime.onDecrypted.eq_def, hctx] at hs'
  cases task with
  | editShared row editedAt =>
    obtain rfl := Option.some.inj hs'
    refine h.finishEdit _ _ fun node hnode hfail => hS _ _ ?_
    rcases decryptEachRow_head htask node hnode with hblank | hbad | hratchet
    · exact .inl hblank
    · exact absurd hbad hfail
    · exact .inr (.inr (.inl hratchet))
  | editDecrypt target editedId editedAt =>
    cases target with
    | nil =>
      obtain rfl := Option.some.inj hs'
      exact h.keepExisting editedId editedAt
    | cons row target =>
      obtain ⟨hrow, -⟩ := htask row List.mem_cons_self
      dsimp only [Option.bind_eq_bind, Option.bind_some] at hs'
      split at hs'
      next node hnode =>
        split_ifs at hs' with hfail <;> obtain rfl := Option.some.inj hs'
        · exact h.keepExisting editedId editedAt
        · refine h.await (hS _ _ ?_)
          rcases decryptEachRow_head hrow node hnode with hblank | hbad | hratchet
          · exact .inl hblank
          · exact absurd hbad hfail
          · exact .inr (.inr (.inl hratchet))
      next =>
        obtain rfl := Option.some.inj hs'
        exact h.keepExisting editedId editedAt
  | pullDecrypt pending =>
    obtain rfl := Option.some.inj hs'
    refine h.pullRows (fun node hnode hmark => hS _ _ ?_) []
    exact decryptEachRow_nodeOk htask node hnode hmark
  | shared => exact htask.elim
  | editFetch | editCache | pullFetch | pullCache | pullAck | append => exact nomatch hs'

end

/-! ### The runs -/

namespace Watched

variable {w w' : Watched N} {cfg : RealtimeConfig} {peerPublicKeyJwk : String}

omit [JsNumber N] [DecidableEq N] in
theorem take_eq_some {task : ℕ} {t : Task N} {s : Realtime N} (h : w.take task = some (t, s)) :
    w.realtime.tasks[task]? = some t ∧ s.messages = w.realtime.messages ∧
      ∀ t' ∈ s.tasks, t' ∈ w.realtime.tasks := by
  obtain ⟨found, hfound, heq⟩ := Option.map_eq_some_iff.1 h
  obtain ⟨rfl, rfl⟩ := Prod.mk.inj heq
  exact ⟨hfound, rfl, fun t' => List.mem_of_mem_eraseIdx⟩

omit [JsNumber N] [DecidableEq N] in
theorem Shows.mono {start : Watched N} {id plaintext : String} (h : start.Shows w id plaintext)
    (hreturned : ∀ text ∈ w.returned, text ∈ w'.returned) (hpolls : ∀ p ∈ w.polls, p ∈ w'.polls) :
    start.Shows w' id plaintext := by
  rcases h with hblank | hfail | hratchet | hshown | hpoll
  · exact .inl hblank
  · exact .inr (.inl hfail)
  · exact .inr (.inr (.inl (hreturned _ hratchet)))
  · exact .inr (.inr (.inr (.inl hshown)))
  · exact .inr (.inr (.inr (.inr (hpolls _ hpoll))))

omit [JsNumber N] [DecidableEq N] in
theorem ok_of_take {S : String → String → Prop} {task : ℕ} {t : Task N} {s : Realtime N}
    (h : w.realtime.Ok S) (htake : w.take task = some (t, s)) : s.Ok S ∧ TaskOk S t := by
  obtain ⟨ht, hmessages, htasks⟩ := take_eq_some htake
  exact ⟨⟨hmessages ▸ h.store, fun t' ht' => h.tasks t' (htasks t' ht')⟩,
    h.tasks t (List.mem_of_getElem? ht)⟩

/-- What a step keeps: the store and the tasks show what may be shown. -/
theorem ok_step {start : Watched N} {e : RealtimeEvent N}
    (hctx : cfg.cryptoCtx = some (.DIRECT peerPublicKeyJwk false))
    (h : w.realtime.Ok (start.Shows w)) (hmarks : keepsMarks w e) (hw' : w.step cfg e = some w') :
    w'.realtime.Ok (start.Shows w') := by
  cases e with
  | messageEdited chatId editedId content iv editedAt =>
    obtain rfl := Option.some.inj hw'
    refine Realtime.Ok.onMessageEdited h fun sentinel hiv => ?_
    exact of_decide_eq_true ((Option.all_eq_true _ _).1 hmarks sentinel hiv)
  | chatMessage runtime m =>
    obtain rfl := Option.some.inj hw'
    refine Realtime.Ok.onChatMessage hctx
      (h.mono fun _ _ hshows => hshows.mono (fun _ => id) fun _ => List.mem_append_left _) ?_
    rintro _ ⟨plaintext, rfl, hplaintext⟩ hmark
    rcases hplaintext with hblank | hfail | ⟨hcontent, iv, hiv, hsentinel⟩
    · exact .inl hblank
    · exact .inr (.inl hfail)
    · -- Of the sentinels only the poll's leaves a bubble unmarked.
      obtain rfl : iv = pollSentinel := by
        rcases List.mem_cons.1 hsentinel with rfl | hpoll
        · have hstamped : decide (m.iv = some systemSentinel) = false := hmark
          simp [Option.mem_def.1 hiv] at hstamped
        · exact List.mem_singleton.1 hpoll
      refine .inr (.inr (.inr (.inr (List.mem_append_right _ ?_))))
      refine List.mem_filterMap.2 ⟨_, List.mem_singleton_self _, ?_⟩
      simp [ApiMessageRow.ciphertext, ApiMessageRow.effectiveIv, hcontent, Option.mem_def.1 hiv,
        Realtime.sharedNode, apiRowToDecrypted]
  | fetched task pending =>
    obtain ⟨⟨t, s⟩, htake, hw'⟩ := Option.bind_eq_some_iff.1 hw'
    obtain ⟨s', hs', hw'⟩ := Option.bind_eq_some_iff.1 hw'
    obtain rfl := Option.some.inj hw'
    obtain ⟨hs, -⟩ := ok_of_take h htake
    rw [keepsMarks, Bool.and_eq_true, List.all_eq_true] at hmarks
    refine Realtime.Ok.onFetched hs (fun row hrow iv hiv => ?_) ?_ hs'
    · exact of_decide_eq_true ((Option.all_eq_true _ _).1 (hmarks.1 row hrow) iv hiv)
    · rintro editedId editedAt rfl row hrow hid iv hiv
      have hedit := hmarks.2
      rw [(take_eq_some htake).1] at hedit
      have hrow' := of_decide_eq_true (List.all_eq_true.1 hedit row hrow)
      exact of_decide_eq_true ((Option.all_eq_true _ _).1 (hrow'.resolve_left (not_not.2 hid)) iv hiv)
  | decrypted task reader =>
    obtain ⟨⟨t, s⟩, htake, hw'⟩ := Option.bind_eq_some_iff.1 hw'
    obtain ⟨s', hs', hw'⟩ := Option.bind_eq_some_iff.1 hw'
    obtain rfl := Option.some.inj hw'
    obtain ⟨hs, ht⟩ := ok_of_take h htake
    have hmono : ∀ id text, start.Shows w id text → start.Shows
        { w with
          realtime := s'
          returned := w.returned ++ ratchetTexts reader (t.drCtx cfg) reader.inFlightDrRows t.rows
          polls := w.polls ++ t.polls } id text :=
      fun _ _ hshows => hshows.mono (fun _ => List.mem_append_left _) fun _ => List.mem_append_left _
    refine Realtime.Ok.onDecrypted hctx (hs.mono hmono) (ht.mono hmono) ?_ hs'
    rintro id plaintext (hblank | hfail | hratchet | hpoll)
    · exact .inl hblank
    · exact .inr (.inl hfail)
    · exact .inr (.inr (.inl (List.mem_append_right _ hratchet)))
    · exact .inr (.inr (.inr (.inr (List.mem_append_right _ hpoll))))
  | settled task =>
    obtain ⟨⟨t, s⟩, htake, hw'⟩ := Option.bind_eq_some_iff.1 hw'
    obtain ⟨s', hs', hw'⟩ := Option.bind_eq_some_iff.1 hw'
    obtain rfl := Option.some.inj hw'
    obtain ⟨hs, ht⟩ := ok_of_take h htake
    refine Realtime.Ok.onSettled hs ht (fun row hrow hstamped m hm hid => ?_) hs'
    obtain ⟨htask, hmessages, -⟩ := take_eq_some htake
    rw [hmessages] at hm
    rw [keepsMarks, htask] at hmarks
    rcases hrow with ⟨rest, ids, rfl⟩ | rfl <;>
    · dsimp only at hmarks
      rw [hstamped, Bool.not_true, Bool.false_or] at hmarks
      exact (of_decide_eq_true (List.all_eq_true.1 hmarks m hm)).resolve_left (not_not.2 hid)

end Watched

/-- **What the bubbles of a chat of two show.** In every run that keeps off the sentinels'
    other ways into the store, a bubble that is not marked as a notice shows a text that the
    ratchet returned, a text that was shown for its id before the run, the plain text of a poll
    that was served under its id, the failure marker, or nothing. -/
theorem shows_of_run {cfg : RealtimeConfig} {peerPublicKeyJwk : String} {w w' : Watched N}
    {es : List (RealtimeEvent N)} (hctx : cfg.cryptoCtx = some (.DIRECT peerPublicKeyJwk false))
    (hw : (realtime N cfg).init w)
    (h : ((realtime N cfg).restrict fun w e => keepsMarks w e).run w es = some w') :
    ∀ m ∈ w'.realtime.messages, m.isSystemStamped = false → w.Shows w' m.id m.plaintext := by
  have hstart : w.realtime.Ok (w.Shows w) := by
    refine ⟨fun m hm _ _ _ _ => .inr (.inr (.inr (.inl ⟨m, hm, rfl, rfl⟩))), ?_⟩
    rw [hw.1]
    exact fun t ht => absurd ht List.not_mem_nil
  have hend : w'.realtime.Ok (w.Shows w') :=
    Machine.run_invariant (I := fun v => v.realtime.Ok (w.Shows v)) (P := fun _ => True)
      (fun v e v' hv _ he => Watched.ok_step hctx hv (Machine.restrict_step.1 he).1
        (Machine.restrict_step.1 he).2) (fun _ _ => trivial) hstart h
  exact fun m hm hmark => hend.store m hm m hm rfl hmark

/-! ### Two short runs -/

namespace Sample

def config : RealtimeConfig where
  activeChatId := "c1"
  userId := some "me"
  directPeerUserId := some "peer"
  cryptoCtx := some (.DIRECT "k" false)
  hints := hints
  time _ := none

def start : Watched ℕ := ⟨⟨[], [], false, false, ∅⟩, [], []⟩

/-- A message of the Double Ratchet is announced, pulled, decrypted and shown. -/
def pulled : List (RealtimeEvent ℕ) :=
  [.chatMessage runtime row, .fetched 0 (some [drRow]), .decrypted 0 ⟨runtime, idle⟩, .settled 0]

/-- A poll is served and shown. -/
def polled : List (RealtimeEvent ℕ) := [.chatMessage runtime pollRow, .settled 0]

end Sample

section
open Sample

theorem shows_of_run_pulled :
    ∃ w, ((realtime ℕ config).restrict fun w e => keepsMarks w e).run start pulled = some w ∧
      ∀ m ∈ w.realtime.messages, m.isSystemStamped = false → start.Shows w m.id m.plaintext := by
  obtain ⟨w, hw⟩ := Option.isSome_iff_exists.1 (by decide +kernel :
    (((realtime ℕ config).restrict fun w e => keepsMarks w e).run start pulled).isSome)
  exact ⟨w, hw, shows_of_run rfl ⟨rfl, rfl, rfl⟩ hw⟩

/-- The text of a poll is shown in an unmarked bubble, without the ratchet. -/
theorem live_poll_unmarked :
    ((realtime ℕ config).run start polled).map (fun w =>
      (w.realtime.messages.map fun m => (m.plaintext, m.isSystemStamped), w.returned)) =
        some ([(pollText, false)], []) ∧
      start.realtime.messages = [] ∧ pollText ≠ "" ∧ pollText ≠ decryptFail := by
  refine ⟨by decide +kernel, rfl, by decide, by decide⟩

end

end OneToThree.Messages
