import Mathlib.Data.List.Nodup
import OneToThree.Messages.Server

/-!
# Marking messages as read

One message at a time (`markMessageReadByReader`), and many at once
(`markMessagesReadByReader`), which a reader may use in place of one another.

* Both leave the same rows, whatever ids are given (`markEach_db`, `batch_db`).
* The ids are UUIDs as texts, of which the database has one spelling and the requests many.
  The batch looks the rows up by the spelling that was given: it marks a message whose id
  was given in another one, and sends no receipt of it (`batch_sends_nothing`).
* Both send the same exactly where each message that is marked has its own spelling among
  the ids (`batch_eq_singles_iff`).
-/

namespace OneToThree.Messages.Reads

open Server (UserId ChatId ChatType)

/-- Milliseconds. -/
abbrev Time := ℕ

structure MessageRow where
  id : String
  chatId : ChatId
  senderId : UserId
  readAt : Option Time
  burnAt : Option Time
  burnDurationSecs : Option ℕ
  deriving DecidableEq

/-- The tables, as far as marking reads them. -/
structure Db where
  /-- The column of the user's row, if there is one. -/
  disableReadReceipts : UserId → Option Bool
  chatType : ChatId → Option ChatType
  isMember : ChatId → UserId → Bool
  messages : List MessageRow

/-- What the clocks of the server and of the database show. -/
structure Clock where
  server : Time
  database : Time

inductive MarkReadError
  | MESSAGE_NOT_FOUND
  | MESSAGE_NOT_FOUND_OR_NOT_A_MEMBER
  | CHAT_MISMATCH
  | NOT_A_MEMBER
  | READ_RECEIPTS_DIRECT_ONLY
  | CANNOT_READ_OWN_MESSAGE
  | NOT_READABLE
  deriving DecidableEq

inductive MarkReadResult
  | ok (chat_id message_id sender_id reader_id : String) (read_at : Time) (burn_at : Option Time)
  | error (error : MarkReadError)
  deriving DecidableEq

/-- The frame `message_read_update`. -/
structure MessageReadUpdate where
  chat_id : ChatId
  message_id : String
  reader_id : UserId
  read_at : Time
  burn_at : Option Time
  deriving DecidableEq

/-- Frames with the users they are sent to. -/
abbrev Sent := List (UserId × MessageReadUpdate)

/-- The text that the database has of a UUID. -/
def uuidText (id : String) : String := id.toLower

namespace MessageRow

/-- The countdown of a duration starts at the reading. -/
def burnAtOnRead (clock : Clock) (m : MessageRow) : Option Time :=
  match m.burnDurationSecs with
  | some secs => some (clock.database + secs * 1000)
  | none => m.burnAt

def read (clock : Clock) (m : MessageRow) : MessageRow :=
  { m with readAt := some clock.server, burnAt := m.burnAtOnRead clock }

end MessageRow

/-- The update that sets rows read: the rows after it, and those that it returns. -/
def Db.markRead (db : Db) (clock : Clock) (p : MessageRow → Bool) : Db × List MessageRow :=
  ({ db with messages := db.messages.map fun m => if p m then m.read clock else m },
    (db.messages.filter p).map (MessageRow.read clock))

def Db.suppressReceipt (db : Db) (readerId : UserId) : Bool :=
  db.disableReadReceipts readerId = some true

/-- A frame for the sender, unless the reader keeps it from them, and for the reader. -/
def notify (suppressReceipt : Bool) (senderId readerId : UserId) (event : MessageReadUpdate) :
    Sent :=
  (if suppressReceipt then [] else [(senderId, event)]) ++ [(readerId, event)]

/-- What a call returns, and what it did. -/
structure Outcome (α : Type) where
  result : α
  db : Db
  sent : Sent

variable (clock : Clock)

def markMessageReadByReader (db : Db) (readerId : UserId) (messageId : String)
    (assertChatId : Option ChatId) : Outcome MarkReadResult :=
  let refused error := ⟨.error error, db, []⟩
  match db.messages.find? fun m => m.id = uuidText messageId with
  | none => refused .MESSAGE_NOT_FOUND
  | some msg =>
    if assertChatId.any (· ≠ msg.chatId) then refused .CHAT_MISMATCH
    else if !db.isMember msg.chatId readerId then refused .NOT_A_MEMBER
    else if db.chatType msg.chatId ≠ some .direct_e2e then refused .READ_RECEIPTS_DIRECT_ONLY
    else if msg.senderId = readerId then refused .CANNOT_READ_OWN_MESSAGE
    else
      let (db', updated) := db.markRead clock fun m =>
        m.id = uuidText messageId ∧ m.readAt = none ∧ m.senderId ≠ readerId
      match updated.head? with
      | some row =>
        ⟨.ok msg.chatId msg.id msg.senderId readerId clock.server row.burnAt, db',
          notify (db.suppressReceipt readerId) msg.senderId readerId
            ⟨msg.chatId, msg.id, readerId, clock.server, row.burnAt⟩⟩
      | none =>
        match (db'.messages.find? fun m => m.id = uuidText messageId).bind MessageRow.readAt with
        | none => ⟨.error .NOT_READABLE, db', []⟩
        -- It was read before: the sender is not notified again.
        | some readAt => ⟨.ok msg.chatId msg.id msg.senderId readerId readAt none, db', []⟩

/-- The result of a batch for one id, and what is sent: from the eligible rows, those that
    were updated and those as they are now. -/
def batchEntry (db : Db) (readerId : UserId) (eligible updated resolved : List MessageRow)
    (msgId : String) : MarkReadResult × Sent :=
  match eligible.find? fun r => r.id = msgId with
  | none => (.error .MESSAGE_NOT_FOUND_OR_NOT_A_MEMBER, [])
  | some base =>
    if db.chatType base.chatId ≠ some .direct_e2e then (.error .READ_RECEIPTS_DIRECT_ONLY, [])
    else if base.senderId = readerId then (.error .CANNOT_READ_OWN_MESSAGE, [])
    else
      match resolved.find? fun r => r.id = msgId with
      | none => (.error .NOT_READABLE, [])
      | some finalRow =>
        match finalRow.readAt with
        | none => (.error .NOT_READABLE, [])
        | some readAt =>
          let updatedRow := updated.find? fun r => r.id = msgId
          let burnAt := updatedRow.bind MessageRow.burnAt
          (.ok finalRow.chatId finalRow.id finalRow.senderId readerId readAt burnAt,
            if updatedRow.isSome then
              notify (db.suppressReceipt readerId) finalRow.senderId readerId
                ⟨finalRow.chatId, finalRow.id, readerId, readAt, burnAt⟩
            else [])

/-- The rows of the given ids, in chats that the reader is in. -/
def Db.eligible (db : Db) (readerId : UserId) (targetIds : List String) : List MessageRow :=
  db.messages.filter fun m => m.id ∈ targetIds.map uuidText ∧ (db.chatType m.chatId).isSome ∧
    db.isMember m.chatId readerId

def Db.updatableIds (db : Db) (readerId : UserId) (eligible : List MessageRow) : List String :=
  (eligible.filter fun r => db.chatType r.chatId = some .direct_e2e ∧ r.senderId ≠ readerId ∧
    r.readAt = none).map MessageRow.id

def markMessagesReadByReader (db : Db) (readerId : UserId) (messageIds : List String) :
    Outcome (List MarkReadResult) :=
  if messageIds.isEmpty then ⟨[], db, []⟩
  else
    let targetIds := messageIds.eraseDups
    let eligible := db.eligible readerId targetIds
    let updatableIds := db.updatableIds readerId eligible
    let (db', updated) :=
      if updatableIds.isEmpty then (db, [])
      else db.markRead clock fun m => m.id ∈ updatableIds ∧ m.readAt = none ∧ m.senderId ≠ readerId
    let resolved := db'.messages.filter fun m => m.id ∈ eligible.map MessageRow.id
    let entries := targetIds.map (batchEntry db readerId eligible updated resolved)
    ⟨entries.map Prod.fst, db', (entries.map Prod.snd).flatten⟩

/-- The single calls for a list of ids, in order. -/
def markEach (db : Db) (readerId : UserId) : List String → Db × Sent
  | [] => (db, [])
  | id :: ids =>
    let first := markMessageReadByReader clock db readerId id none
    let rest := markEach first.db readerId ids
    (rest.1, first.sent ++ rest.2)

/-! ## What is marked -/

/-- The message is for the reader to mark. -/
def Db.marks (db : Db) (readerId : UserId) (m : MessageRow) : Bool :=
  db.isMember m.chatId readerId ∧ db.chatType m.chatId = some .direct_e2e ∧
    m.senderId ≠ readerId ∧ m.readAt = none

/-- What the database and the routes that write messages provide: ids are unique, in one
    spelling; and a burn duration counts from the reading. -/
structure Db.WellFormed (db : Db) : Prop where
  nodup : (db.messages.map MessageRow.id).Nodup
  spelling : ∀ m ∈ db.messages, uuidText m.id = m.id
  burn : ∀ m ∈ db.messages, m.burnDurationSecs.isSome → m.readAt = none → m.burnAt = none

/-- The frames of a message that is marked. -/
def receipts (db : Db) (readerId : UserId) (m : MessageRow) : Sent :=
  if db.marks readerId m then
    notify (db.suppressReceipt readerId) m.senderId readerId
      ⟨m.chatId, m.id, readerId, clock.server, m.burnAtOnRead clock⟩
  else []

/-! ## Rows by their keys -/

section
variable {α β κ : Type} [DecidableEq κ] {key : α → κ} {l : List α} {f : α → List β}

theorem find?_of_mem (h : (l.map key).Nodup) {a : α} (ha : a ∈ l) :
    l.find? (fun b => key b = key a) = some a := by
  cases hfind : l.find? fun b => key b = key a with
  | none => exact absurd (List.find?_eq_none.1 hfind a ha) (by simp)
  | some b =>
    have hkey : key b = key a := by simpa using List.find?_some hfind
    rw [List.inj_on_of_nodup_map h (List.mem_of_find?_eq_some hfind) ha hkey]

theorem find?_eq_none_of_forall {k : κ} (h : ∀ a ∈ l, key a ≠ k) :
    l.find? (fun b => key b = k) = none :=
  List.find?_eq_none.2 fun a ha => by simpa using h a ha

/-- What `f` has for the rows that meet a condition. -/
def gated (p : α → Bool) (f : α → List β) (a : α) : List β := if p a then f a else []

/-- One key more: the row that has it comes first. -/
theorem flatMap_gated_or (h : (l.map key).Nodup) (k : κ) (q : α → Bool) :
    (l.flatMap (gated (fun a => key a = k ∨ q a) f)).Perm
      ((l.find? fun a => key a = k).elim [] f ++
        l.flatMap (gated (fun a => q a ∧ key a ≠ k) f)) := by
  induction l with
  | nil => exact .nil
  | cons a l ih =>
    obtain ⟨hnotMem, hnodup⟩ := List.nodup_cons.1 h
    rw [List.flatMap_cons, List.flatMap_cons]
    by_cases hk : key a = k
    · -- No other row has the key.
      have hrest : l.find? (fun b => key b = k) = none := by
        refine find?_eq_none_of_forall fun b hb hbk => hnotMem ?_
        exact List.mem_map.2 ⟨b, hb, hbk.trans hk.symm⟩
      have hih := ih hnodup
      rw [hrest] at hih
      rw [List.find?_cons_of_pos (p := fun b => decide (key b = k)) (decide_eq_true hk)]
      simpa [gated, hk] using hih.append_left (f a)
    · rw [List.find?_cons_of_neg (p := fun b => decide (key b = k)) (by simpa using hk)]
      refine (List.Perm.append_left _ (ih hnodup)).trans ?_
      have hgate : gated (fun a => key a = k ∨ q a) f a = gated (fun a => q a ∧ key a ≠ k) f a := by
        simp [gated, hk]
      rw [hgate]
      exact List.perm_append_comm_assoc ..

/-- The rows of a list of keys, each looked up. -/
theorem flatMap_find?_perm (h : (l.map key).Nodup) {ks : List κ} (hks : ks.Nodup) :
    (ks.flatMap fun k => (l.find? fun a => key a = k).elim [] f).Perm
      (l.flatMap (gated (fun a => key a ∈ ks) f)) := by
  induction ks with
  | nil =>
    have hgate : l.flatMap (gated (fun a => decide (key a ∈ ([] : List κ))) f) = [] :=
      List.flatMap_eq_nil_iff.2 fun a _ => by simp [gated]
    rw [hgate, List.flatMap_nil]
  | cons k ks ih =>
    obtain ⟨hnotMem, hks⟩ := List.nodup_cons.1 hks
    have hgate : gated (fun a => decide (key a ∈ k :: ks)) f =
        gated (fun a => key a = k ∨ decide (key a ∈ ks)) f := by
      funext a
      simp [gated]
    have hrest : gated (fun a => decide (key a ∈ ks) ∧ key a ≠ k) f =
        gated (fun a => key a ∈ ks) f := by
      funext a
      by_cases hmem : key a ∈ ks
      · have hne : key a ≠ k := fun heq => hnotMem (heq ▸ hmem)
        simp [gated, hmem, hne]
      · simp [gated, hmem]
    have hor := flatMap_gated_or (f := f) h k fun a => decide (key a ∈ ks)
    rw [List.flatMap_cons, hgate]
    refine List.Perm.trans ?_ hor.symm
    rw [hrest]
    exact List.Perm.append_left _ (ih hks)

theorem nodup_eraseDups (l : List κ) : l.eraseDups.Nodup := by
  match l with
  | [] => exact List.nodup_nil
  | a :: l =>
    have hlt : (l.filter fun b => !b == a).length < l.length + 1 :=
      Nat.lt_succ_of_le (List.length_filter_le ..)
    rw [List.eraseDups_cons]
    refine List.nodup_cons.2 ⟨fun hmem => ?_, nodup_eraseDups _⟩
    simpa using (List.mem_filter.1 (List.mem_eraseDups.1 hmem)).2
termination_by l.length

end

section
variable {clock : Clock} {db : Db} {readerId : UserId} {id : String} {ids : List String}

theorem burnAtOnRead_of_unarmed (m : MessageRow) :
    m.burnAtOnRead clock ≠ m.burnAt → m.burnDurationSecs.isSome := by
  intro h
  rw [MessageRow.burnAtOnRead] at h
  cases hsecs : m.burnDurationSecs with
  | some secs => rfl
  | none =>
    rw [hsecs] at h
    exact absurd rfl h

/-- A message that was read is not for marking. -/
theorem marks_read (m : MessageRow) : ¬ db.marks readerId (m.read clock) := by
  simp [Db.marks, MessageRow.read]

@[simp] theorem marks_markRead (p : MessageRow → Bool) :
    (db.markRead clock p).1.marks readerId = db.marks readerId := rfl

@[simp] theorem receipts_markRead (p : MessageRow → Bool) :
    receipts clock (db.markRead clock p).1 readerId = receipts clock db readerId := rfl

theorem markRead_congr {p q : MessageRow → Bool} (h : ∀ m ∈ db.messages, p m = q m) :
    db.markRead clock p = db.markRead clock q := by
  have hmap : (db.messages.map fun m => if p m then m.read clock else m) =
      db.messages.map fun m => if q m then m.read clock else m :=
    List.map_congr_left fun m hm => by rw [h m hm]
  rw [Db.markRead, Db.markRead, hmap, List.filter_congr h]

theorem markRead_false {p : MessageRow → Bool} (h : ∀ m ∈ db.messages, p m = false) :
    db.markRead clock p = (db, []) := by
  have hmap : (db.messages.map fun m => if p m then m.read clock else m) = db.messages :=
    (List.map_congr_left fun m hm => by rw [h m hm]; rfl).trans (List.map_id _)
  have hfilter : db.messages.filter p = [] :=
    List.filter_eq_nil_iff.2 fun m hm => by simp [h m hm]
  rw [Db.markRead, hmap, hfilter, List.map_nil]

theorem markRead_ids (p : MessageRow → Bool) :
    (db.markRead clock p).1.messages.map MessageRow.id = db.messages.map MessageRow.id := by
  rw [Db.markRead, List.map_map]
  refine List.map_congr_left fun m _ => ?_
  dsimp only [Function.comp_apply]
  split <;> rfl

theorem Db.WellFormed.markRead (hdb : db.WellFormed) (p : MessageRow → Bool) :
    (db.markRead clock p).1.WellFormed where
  nodup := by
    rw [markRead_ids]
    exact hdb.nodup
  spelling m hm := by
    obtain ⟨m', hm', rfl⟩ := List.mem_map.1 hm
    split
    · exact hdb.spelling m' hm'
    · exact hdb.spelling m' hm'
  burn m hm := by
    obtain ⟨m', hm', rfl⟩ := List.mem_map.1 hm
    split
    · exact fun _ hread => absurd hread (Option.some_ne_none _)
    · exact hdb.burn m' hm'

/-- Marking in two steps. -/
theorem markRead_markRead {p q : MessageRow → Bool}
    (hq : ∀ m : MessageRow, q (m.read clock) = false) :
    ((db.markRead clock p).1.markRead clock q).1 = (db.markRead clock fun m => p m ∨ q m).1 := by
  refine congrArg (fun messages => { db with messages }) ?_
  dsimp only [Db.markRead]
  rw [List.map_map]
  refine List.map_congr_left fun m _ => ?_
  by_cases hp : p m
  · simp [hp, hq]
  · simp [hp]

variable (clock) in
/-- A message that is not for the reader to mark stays as it is. -/
theorem single_of_not_marks (hdb : db.WellFormed) {msg : MessageRow} (hmem : msg ∈ db.messages)
    (hid : msg.id = uuidText id) (hmarks : ¬ db.marks readerId msg) :
    (markMessageReadByReader clock db readerId id none).db = db ∧
      (markMessageReadByReader clock db readerId id none).sent = [] := by
  have hfind := find?_of_mem hdb.nodup hmem
  rw [hid] at hfind
  rw [markMessageReadByReader, hfind]
  dsimp only
  split_ifs with hchat hmember htype hown
  · exact ⟨rfl, rfl⟩
  · exact ⟨rfl, rfl⟩
  · exact ⟨rfl, rfl⟩
  · exact ⟨rfl, rfl⟩
  · -- It was read before, and no row is updated.
    have hread : msg.readAt ≠ none := by
      simp only [Db.marks, decide_eq_true_eq] at hmarks
      simp only [Bool.not_eq_true', Bool.not_eq_false, not_not] at hmember htype
      exact fun h => hmarks ⟨hmember, htype, hown, h⟩
    have hnone : ∀ m ∈ db.messages, decide (m.id = uuidText id ∧ m.readAt = none ∧
        m.senderId ≠ readerId) = false := by
      intro m hm
      refine decide_eq_false fun ⟨hmid, hmread, _⟩ => hread ?_
      rw [List.inj_on_of_nodup_map hdb.nodup hmem hm (hid.trans hmid.symm)]
      exact hmread
    rw [markRead_false hnone]
    dsimp only [List.head?_nil]
    split <;> exact ⟨rfl, rfl⟩

/-- A message that is for the reader to mark is set read, and its frames are sent. -/
theorem single_of_marks (hdb : db.WellFormed) {msg : MessageRow} (hmem : msg ∈ db.messages)
    (hid : msg.id = uuidText id) (hmarks : db.marks readerId msg) :
    (markMessageReadByReader clock db readerId id none).db = (db.markRead clock fun m =>
        m.id = uuidText id ∧ db.marks readerId m).1 ∧
      (markMessageReadByReader clock db readerId id none).sent =
        receipts clock db readerId msg := by
  have hfind := find?_of_mem hdb.nodup hmem
  rw [hid] at hfind
  obtain ⟨hmember, htype, hown, hread⟩ := of_decide_eq_true hmarks
  have hsame : ∀ m ∈ db.messages, m.id = uuidText id → m = msg := fun m hm hmid =>
    List.inj_on_of_nodup_map hdb.nodup hm hmem (hmid.trans hid.symm)
  have hcongr : (db.markRead clock fun m =>
      m.id = uuidText id ∧ m.readAt = none ∧ m.senderId ≠ readerId) =
      db.markRead clock fun m => m.id = uuidText id ∧ db.marks readerId m := by
    refine markRead_congr fun m hm => decide_eq_decide.2 (and_congr_right fun hmid => ?_)
    rw [hsame m hm hmid, hmarks]
    exact iff_of_true ⟨hread, hown⟩ rfl
  have hfilter : db.messages.filter (fun m => m.id = uuidText id ∧ db.marks readerId m) =
      db.messages.filter fun m => m.id = uuidText id :=
    List.filter_congr fun m hm => decide_eq_decide.2
      (and_iff_left_of_imp fun hmid => by rw [hsame m hm hmid]; exact hmarks)
  have hupdated : (db.markRead clock fun m => m.id = uuidText id ∧ db.marks readerId m).2.head? =
      some (msg.read clock) := by
    rw [Db.markRead, hfilter, List.head?_map, List.head?_filter, hfind]
    rfl
  rw [markMessageReadByReader, hfind]
  simp only [hmember, htype, hown, hcongr, hupdated, receipts, hmarks, Option.any_none,
    Bool.false_eq_true, Bool.not_true, ne_eq, not_true_eq_false, if_false, if_true]
  exact ⟨trivial, rfl⟩

variable (clock readerId id) in
/-- What a single call does. -/
theorem single_spec (hdb : db.WellFormed) :
    (markMessageReadByReader clock db readerId id none).db = (db.markRead clock fun m =>
        m.id = uuidText id ∧ db.marks readerId m).1 ∧
      (markMessageReadByReader clock db readerId id none).sent =
        (db.messages.find? fun m => m.id = uuidText id).elim [] (receipts clock db readerId) := by
  by_cases hex : ∃ msg ∈ db.messages, msg.id = uuidText id
  · obtain ⟨msg, hmem, hid⟩ := hex
    have hfind := find?_of_mem hdb.nodup hmem
    rw [hid] at hfind
    rw [hfind, Option.elim_some]
    by_cases hmarks : db.marks readerId msg
    · exact single_of_marks hdb hmem hid hmarks
    · obtain ⟨hsame, hsent⟩ := single_of_not_marks clock hdb hmem hid hmarks
      rw [hsame, hsent, markRead_false, receipts, if_neg hmarks]
      · exact ⟨rfl, rfl⟩
      · refine fun m hm => decide_eq_false fun ⟨hmid, hm'⟩ => hmarks ?_
        rwa [List.inj_on_of_nodup_map hdb.nodup hmem hm (hid.trans hmid.symm)]
  · have hne : ∀ m ∈ db.messages, m.id ≠ uuidText id := fun m hm hmid => hex ⟨m, hm, hmid⟩
    have hnone : (db.markRead clock fun m => m.id = uuidText id ∧ db.marks readerId m) =
        (db, []) := markRead_false fun m hm => decide_eq_false fun h => hne m hm h.1
    rw [hnone, markMessageReadByReader, find?_eq_none_of_forall hne]
    exact ⟨rfl, rfl⟩

variable (clock readerId ids) in
/-- The single calls mark the messages of their ids, and send the frames of those. -/
theorem markEach_spec (hdb : db.WellFormed) :
    (markEach clock db readerId ids).1 = (db.markRead clock fun m =>
        m.id ∈ ids.map uuidText ∧ db.marks readerId m).1 ∧
      (markEach clock db readerId ids).2.Perm
        (db.messages.flatMap (gated (fun m => m.id ∈ ids.map uuidText)
          (receipts clock db readerId))) := by
  induction ids generalizing db with
  | nil =>
    have hgate : ∀ m ∈ db.messages, gated (fun m => decide (m.id ∈ ([] : List String).map uuidText))
        (receipts clock db readerId) m = [] := fun m _ => by simp [gated]
    rw [markRead_false fun m _ => by simp, List.flatMap_eq_nil_iff.2 hgate]
    exact ⟨rfl, .nil⟩
  | cons id ids ih =>
    obtain ⟨hfirst, hsent⟩ := single_spec clock readerId id hdb
    obtain ⟨hrest, hperm⟩ := ih (hfirst ▸ hdb.markRead _)
    rw [hfirst, marks_markRead] at hrest
    rw [hfirst, receipts_markRead] at hperm
    have hread : ∀ m : MessageRow, decide ((m.read clock).id ∈ ids.map uuidText ∧
        db.marks readerId (m.read clock)) = false := fun m =>
      decide_eq_false fun h => marks_read m h.2
    refine ⟨?_, ?_⟩
    · rw [markEach, hfirst]
      refine (hrest.trans (markRead_markRead hread)).trans (congrArg Prod.fst ?_)
      refine markRead_congr fun m _ => ?_
      by_cases hmarks : db.marks readerId m <;> simp [hmarks]
    · -- The frames of the rest are those of the messages that the first call left unread.
      have hgate : (db.markRead clock fun m =>
            m.id = uuidText id ∧ db.marks readerId m).1.messages.flatMap
          (gated (fun m => m.id ∈ ids.map uuidText) (receipts clock db readerId)) =
          db.messages.flatMap (gated (fun m => decide (m.id ∈ ids.map uuidText) ∧
            m.id ≠ uuidText id) (receipts clock db readerId)) := by
        rw [Db.markRead, List.flatMap_map]
        refine List.flatMap_congr fun m _ => ?_
        by_cases hid : m.id = uuidText id
        · by_cases hmarks : db.marks readerId m
          · simp [gated, hid, hmarks, receipts, marks_read]
          · simp [gated, hid, hmarks, receipts]
        · simp [gated, hid]
      have hcons : gated (fun m => decide (m.id ∈ (id :: ids).map uuidText))
          (receipts clock db readerId) = gated (fun m => m.id = uuidText id ∨
            decide (m.id ∈ ids.map uuidText)) (receipts clock db readerId) := by
        funext m
        simp [gated]
      rw [markEach, hfirst, hsent, hcons]
      refine List.Perm.trans (List.Perm.append_left _ ?_)
        (flatMap_gated_or hdb.nodup (uuidText id) fun m => decide (m.id ∈ ids.map uuidText)).symm
      rw [← hgate]
      exact hperm

/-! ## The batch -/

theorem nodup_filter_ids {l : List MessageRow} (h : (l.map MessageRow.id).Nodup)
    (p : MessageRow → Bool) : ((l.filter p).map MessageRow.id).Nodup :=
  h.sublist (List.filter_sublist.map _)

theorem nodup_markRead (h : (db.messages.map MessageRow.id).Nodup) (p : MessageRow → Bool) :
    ((db.markRead clock p).2.map MessageRow.id).Nodup := by
  rw [Db.markRead, List.map_map]
  exact nodup_filter_ids h p

theorem mem_updatableIds (hdb : db.WellFormed) {m : MessageRow} (hm : m ∈ db.messages) :
    m.id ∈ db.updatableIds readerId (db.eligible readerId ids) ↔
      m.id ∈ ids.map uuidText ∧ db.marks readerId m := by
  simp only [Db.updatableIds, Db.eligible, Db.marks, List.mem_map, List.mem_filter,
    decide_eq_true_eq]
  constructor
  · rintro ⟨m', ⟨⟨hm', hid, -, hmember⟩, htype, hown, hread⟩, heq⟩
    obtain rfl := List.inj_on_of_nodup_map hdb.nodup hm' hm heq
    exact ⟨hid, hmember, htype, hown, hread⟩
  · rintro ⟨hid, hmember, htype, hown, hread⟩
    exact ⟨m, ⟨⟨hm, hid, by rw [htype]; rfl, hmember⟩, htype, hown, hread⟩, rfl⟩

/-- The update of a batch sets read what the reader marks of the given ids. -/
theorem batch_update (hdb : db.WellFormed) :
    (if (db.updatableIds readerId (db.eligible readerId ids)).isEmpty then (db, [])
      else db.markRead clock fun m => m.id ∈ db.updatableIds readerId (db.eligible readerId ids) ∧
        m.readAt = none ∧ m.senderId ≠ readerId) =
      db.markRead clock fun m => m.id ∈ ids.map uuidText ∧ db.marks readerId m := by
  split
  next hempty =>
    refine (markRead_false fun m hm => decide_eq_false fun h => ?_).symm
    have hmem := (mem_updatableIds hdb hm).2 h
    rw [List.isEmpty_iff.1 hempty] at hmem
    exact absurd hmem List.not_mem_nil
  next =>
    refine markRead_congr fun m hm => decide_eq_decide.2 ?_
    rw [mem_updatableIds hdb hm]
    refine and_iff_left_of_imp fun ⟨_, hmarks⟩ => ?_
    obtain ⟨-, -, hown, hread⟩ := of_decide_eq_true hmarks
    exact ⟨hread, hown⟩

/-- What a batch sends for one of the given ids: the frames of the message with that very
    text as its id, if it is marked. -/
theorem batchEntry_sent (hdb : db.WellFormed) (hid : id ∈ ids) :
    (batchEntry db readerId (db.eligible readerId ids)
      (db.markRead clock fun m => m.id ∈ ids.map uuidText ∧ db.marks readerId m).2
      ((db.markRead clock fun m => m.id ∈ ids.map uuidText ∧ db.marks readerId m).1.messages.filter
        fun m => m.id ∈ (db.eligible readerId ids).map MessageRow.id) id).2 =
      (db.messages.find? fun m => m.id = id).elim [] (receipts clock db readerId) := by
  by_cases hex : ∃ msg ∈ db.messages, msg.id = id
  · obtain ⟨msg, hmem, rfl⟩ := hex
    rw [find?_of_mem hdb.nodup hmem, Option.elim_some]
    have hsame : ∀ m ∈ db.messages, m.id = msg.id → m = msg := fun m hm hmid =>
      List.inj_on_of_nodup_map hdb.nodup hm hmem hmid
    have hidText : msg.id ∈ ids.map uuidText :=
      List.mem_map.2 ⟨msg.id, hid, hdb.spelling msg hmem⟩
    by_cases hmarks : db.marks readerId msg
    · obtain ⟨hmember, htype, hown, hread⟩ := of_decide_eq_true hmarks
      have heligible : msg ∈ db.eligible readerId ids :=
        List.mem_filter.2 ⟨hmem, decide_eq_true ⟨hidText, by rw [htype]; rfl, hmember⟩⟩
      have hbase : (db.eligible readerId ids).find? (fun r => r.id = msg.id) = some msg :=
        find?_of_mem (nodup_filter_ids hdb.nodup _) heligible
      have hresolved : ((db.markRead clock fun m =>
          m.id ∈ ids.map uuidText ∧ db.marks readerId m).1.messages.filter fun m =>
            m.id ∈ (db.eligible readerId ids).map MessageRow.id).find? (fun r => r.id = msg.id) =
          some (msg.read clock) := by
        refine find?_of_mem (a := msg.read clock)
          (nodup_filter_ids (by rw [markRead_ids]; exact hdb.nodup) _)
          (List.mem_filter.2 ⟨?_, decide_eq_true (List.mem_map.2 ⟨msg, heligible, rfl⟩)⟩)
        exact List.mem_map.2 ⟨msg, hmem, if_pos (decide_eq_true ⟨hidText, hmarks⟩)⟩
      have hupdated : (db.markRead clock fun m =>
          m.id ∈ ids.map uuidText ∧ db.marks readerId m).2.find? (fun r => r.id = msg.id) =
          some (msg.read clock) := by
        refine find?_of_mem (a := msg.read clock) (nodup_markRead hdb.nodup _) ?_
        exact List.mem_map_of_mem (List.mem_filter.2 ⟨hmem, decide_eq_true ⟨hidText, hmarks⟩⟩)
      rw [batchEntry, hbase]
      simp only [htype, hown, hresolved, hupdated, receipts, hmarks, ne_eq, not_true_eq_false,
        if_false, if_true]
      rfl
    · rw [receipts, if_neg hmarks, batchEntry]
      cases hbase : (db.eligible readerId ids).find? fun r => r.id = msg.id with
      | none => rfl
      | some base =>
        -- The message is not marked, so that no row of its id was updated.
        have hupdated : (db.markRead clock fun m =>
            m.id ∈ ids.map uuidText ∧ db.marks readerId m).2.find? (fun r => r.id = msg.id) =
            none := by
          refine find?_eq_none_of_forall fun r hr hrid => hmarks ?_
          obtain ⟨m, hm, rfl⟩ := List.mem_map.1 hr
          obtain ⟨hm, hp⟩ := List.mem_filter.1 hm
          rw [← hsame m hm hrid]
          exact (of_decide_eq_true hp).2
        simp only [hupdated, Option.isSome_none, Bool.false_eq_true, if_false]
        split_ifs
        · rfl
        · rfl
        · split
          · rfl
          · split <;> rfl
  · have hne : ∀ m ∈ db.messages, m.id ≠ id := fun m hm hmid => hex ⟨m, hm, hmid⟩
    have hnone : (db.eligible readerId ids).find? (fun r => r.id = id) = none :=
      find?_eq_none_of_forall fun m hm => hne m (List.mem_filter.1 hm).1
    rw [batchEntry, hnone, find?_eq_none_of_forall hne]
    rfl

variable (clock readerId ids) in
/-- The batch marks the messages of its ids, and sends the frames of those whose ids it was
    given as they are spelled. -/
theorem batch_spec (hdb : db.WellFormed) :
    (markMessagesReadByReader clock db readerId ids).db = (db.markRead clock fun m =>
        m.id ∈ ids.map uuidText ∧ db.marks readerId m).1 ∧
      (markMessagesReadByReader clock db readerId ids).sent.Perm
        (db.messages.flatMap (gated (fun m => m.id ∈ ids) (receipts clock db readerId))) := by
  have htext : (fun m : MessageRow => decide (m.id ∈ ids.eraseDups.map uuidText ∧
      db.marks readerId m)) = fun m => m.id ∈ ids.map uuidText ∧ db.marks readerId m := by
    funext m
    simp
  by_cases hids : ids.isEmpty
  · obtain rfl := List.isEmpty_iff.1 hids
    have hgate : ∀ m ∈ db.messages, gated (fun m => decide (m.id ∈ ([] : List String)))
        (receipts clock db readerId) m = [] := fun m _ => by simp [gated]
    rw [markRead_false fun m _ => by simp, List.flatMap_eq_nil_iff.2 hgate]
    exact ⟨rfl, .nil⟩
  · rw [markMessagesReadByReader, if_neg hids]
    simp only [batch_update hdb]
    refine ⟨congrArg (fun p => (db.markRead clock p).1) htext, ?_⟩
    have hmap : (ids.eraseDups.map (batchEntry db readerId (db.eligible readerId ids.eraseDups)
        (db.markRead clock fun m => m.id ∈ ids.eraseDups.map uuidText ∧ db.marks readerId m).2
        ((db.markRead clock fun m =>
          m.id ∈ ids.eraseDups.map uuidText ∧ db.marks readerId m).1.messages.filter fun m =>
            m.id ∈ (db.eligible readerId ids.eraseDups).map MessageRow.id))).map Prod.snd =
        ids.eraseDups.map fun id =>
          (db.messages.find? fun m => m.id = id).elim [] (receipts clock db readerId) := by
      rw [List.map_map]
      exact List.map_congr_left fun id hid => batchEntry_sent hdb hid
    have hgate : gated (fun m : MessageRow => decide (m.id ∈ ids.eraseDups))
        (receipts clock db readerId) =
          gated (fun m => m.id ∈ ids) (receipts clock db readerId) := by
      funext m
      simp [gated]
    rw [hmap, ← List.flatMap_def, ← hgate]
    exact flatMap_find?_perm hdb.nodup (nodup_eraseDups ids)

/-! ## Batches and single calls -/

/-- What marking may do: a message is set read once, its countdown starts from nothing, and
    a reader who keeps their receipts sends frames to none but themselves. -/
structure KeepsRules (db : Db) (readerId : UserId) (db' : Db) (sent : Sent) : Prop where
  rows : List.Forall₂ (fun m m' => m'.id = m.id ∧ (m.readAt.isSome → m' = m) ∧
    (m'.burnAt ≠ m.burnAt → m.burnDurationSecs.isSome ∧ m.burnAt = none)) db.messages db'.messages
  suppressed : db.suppressReceipt readerId → ∀ frame ∈ sent, frame.1 = readerId

theorem mem_receipts {m : MessageRow} {frame : UserId × MessageReadUpdate}
    (h : frame ∈ receipts clock db readerId m) : frame.2.message_id = m.id ∧
      (db.suppressReceipt readerId → frame.1 = readerId) := by
  rw [receipts] at h
  split at h
  · rcases List.mem_append.1 h with h | h
    · split at h
      · exact absurd h List.not_mem_nil
      next hsuppress =>
        obtain rfl := List.mem_singleton.1 h
        exact ⟨rfl, fun hs => absurd hs hsuppress⟩
    · obtain rfl := List.mem_singleton.1 h
      exact ⟨rfl, fun _ => rfl⟩
  · exact absurd h List.not_mem_nil

variable (clock) in
/-- A message that is marked is told to the reader. -/
theorem exists_mem_receipts {m : MessageRow} (h : db.marks readerId m) :
    ∃ frame, frame ∈ receipts clock db readerId m := by
  rw [receipts, if_pos h]
  exact ⟨_, List.mem_append_right _ (List.mem_singleton_self _)⟩

theorem mem_gated {p : MessageRow → Bool} {frame : UserId × MessageReadUpdate} :
    frame ∈ db.messages.flatMap (gated p (receipts clock db readerId)) ↔
      ∃ m ∈ db.messages, p m ∧ frame ∈ receipts clock db readerId m := by
  rw [List.mem_flatMap]
  refine exists_congr fun m => and_congr_right fun _ => ?_
  rw [gated]
  split
  next hp => exact (and_iff_right hp).symm
  next hp => exact iff_of_false List.not_mem_nil fun h => hp h.1

theorem keepsRules_of_spec (hdb : db.WellFormed) {p q : MessageRow → Bool} {db' : Db} {sent : Sent}
    (hdb' : db' = (db.markRead clock fun m => p m ∧ db.marks readerId m).1)
    (hsent : sent.Perm (db.messages.flatMap (gated q (receipts clock db readerId)))) :
    KeepsRules db readerId db' sent where
  rows := by
    rw [hdb', Db.markRead]
    refine List.forall₂_map_right_iff.2 (List.forall₂_same.2 fun m hm => ?_)
    split
    next hmarks =>
      obtain ⟨-, -, -, hread⟩ := of_decide_eq_true (of_decide_eq_true hmarks).2
      refine ⟨rfl, fun hsome => ?_, fun hburn => ?_⟩
      · rw [hread] at hsome
        cases hsome
      · have hsecs := burnAtOnRead_of_unarmed m hburn
        exact ⟨hsecs, hdb.burn m hm hsecs hread⟩
    next => exact ⟨rfl, fun _ => rfl, fun hburn => absurd rfl hburn⟩
  suppressed hsuppress frame hframe := by
    obtain ⟨m, -, -, hmem⟩ := mem_gated.1 (hsent.mem_iff.1 hframe)
    exact (mem_receipts hmem).2 hsuppress

/-- Each message that the reader marks has its own spelling among the ids that it is given
    by. -/
def Spelled (db : Db) (readerId : UserId) (ids : List String) : Prop :=
  ∀ m ∈ db.messages, db.marks readerId m → m.id ∈ ids.map uuidText → m.id ∈ ids

/-- A batch does what the single calls do for its distinct ids. -/
structure BatchAgrees (clock : Clock) (db : Db) (readerId : UserId) (ids : List String) :
    Prop where
  state : (markMessagesReadByReader clock db readerId ids).db =
    (markEach clock db readerId ids.eraseDups).1
  sent : (markMessagesReadByReader clock db readerId ids).sent.Perm
    (markEach clock db readerId ids.eraseDups).2
  batch : KeepsRules db readerId (markMessagesReadByReader clock db readerId ids).db
    (markMessagesReadByReader clock db readerId ids).sent
  each : KeepsRules db readerId (markEach clock db readerId ids.eraseDups).1
    (markEach clock db readerId ids.eraseDups).2
  single : ∀ id, KeepsRules db readerId (markMessageReadByReader clock db readerId id none).db
    (markMessageReadByReader clock db readerId id none).sent

theorem single_keepsRules (hdb : db.WellFormed) :
    KeepsRules db readerId (markMessageReadByReader clock db readerId id none).db
      (markMessageReadByReader clock db readerId id none).sent := by
  obtain ⟨hdb', hsent⟩ := single_spec clock readerId id hdb
  refine keepsRules_of_spec hdb (p := fun m => m.id = uuidText id) (q := fun m =>
    m.id ∈ [uuidText id]) (by simpa using hdb') ?_
  have hperm := flatMap_find?_perm (f := receipts clock db readerId) hdb.nodup
    (List.nodup_singleton (uuidText id))
  rw [List.flatMap_cons, List.flatMap_nil, List.append_nil] at hperm
  rwa [hsent]

/-- **Batches.** A batch does what the single calls do, exactly where each message that is
    marked has its own spelling among the ids. -/
theorem batch_eq_singles_iff (hdb : db.WellFormed) :
    BatchAgrees clock db readerId ids ↔ Spelled db readerId ids := by
  obtain ⟨hbatch, hbatchSent⟩ := batch_spec clock readerId ids hdb
  obtain ⟨heach, heachSent⟩ :=
    markEach_spec clock readerId ids.eraseDups hdb
  have htext : ∀ m : MessageRow, m.id ∈ ids.eraseDups.map uuidText ↔ m.id ∈ ids.map uuidText := by
    simp
  constructor
  · intro h m hm hmarks hid
    obtain ⟨frame, hframe⟩ := exists_mem_receipts clock hmarks
    have hsent := (mem_gated (p := fun m => m.id ∈ ids.eraseDups.map uuidText)).2
      ⟨m, hm, decide_eq_true ((htext m).2 hid), hframe⟩
    obtain ⟨m', hm', hgiven, hframe'⟩ :=
      mem_gated.1 (((hbatchSent.symm.trans h.sent).trans heachSent).mem_iff.2 hsent)
    rw [(mem_receipts hframe).1.symm.trans (mem_receipts hframe').1]
    exact of_decide_eq_true hgiven
  · intro h
    have hgate : db.messages.flatMap (gated (fun m => m.id ∈ ids) (receipts clock db readerId)) =
        db.messages.flatMap (gated (fun m => m.id ∈ ids.eraseDups.map uuidText)
          (receipts clock db readerId)) := by
      refine List.flatMap_congr fun m hm => ?_
      by_cases hmarks : db.marks readerId m
      · have hiff : m.id ∈ ids ↔ m.id ∈ ids.eraseDups.map uuidText := by
          rw [htext m]
          exact ⟨fun hid => List.mem_map.2 ⟨m.id, hid, hdb.spelling m hm⟩, h m hm hmarks⟩
        rw [gated, gated, decide_eq_decide.2 hiff]
      · simp [gated, receipts, hmarks]
    refine ⟨?_, ?_,
      keepsRules_of_spec hdb (p := fun m => m.id ∈ ids.map uuidText) (by simpa using hbatch)
        hbatchSent,
      keepsRules_of_spec hdb (p := fun m => m.id ∈ ids.eraseDups.map uuidText)
        (by simpa using heach) heachSent, fun id => single_keepsRules hdb⟩
    · rw [hbatch, heach]
      exact congrArg Prod.fst (markRead_congr fun m _ => decide_eq_decide.2 (by rw [htext m]))
    · exact (hbatchSent.trans (hgate ▸ List.Perm.refl _)).trans heachSent.symm

end

/-! ## An id in capitals -/

def bobsMessage : MessageRow :=
  ⟨"7d444840-9dc0-11d1-b245-5ffdce74fad2", "chat", "bob", none, none, some 60⟩

def aliceReads : Db where
  disableReadReceipts _ := some false
  chatType _ := some .direct_e2e
  isMember _ _ := true
  messages := [bobsMessage]

theorem aliceReads_wellFormed : aliceReads.WellFormed where
  nodup := by decide
  spelling m hm := by
    obtain rfl := List.mem_singleton.1 hm
    decide +kernel
  burn m hm _ _ := by
    obtain rfl := List.mem_singleton.1 hm
    rfl

/-- The batch marks a message whose id was given in capitals, and tells nobody; the single
    call tells the sender. -/
theorem batch_sends_nothing :
    aliceReads.WellFormed ∧
      (markMessagesReadByReader ⟨5, 5⟩ aliceReads "alice"
        ["7D444840-9DC0-11D1-B245-5FFDCE74FAD2"]).db.messages = [bobsMessage.read ⟨5, 5⟩] ∧
      (markMessagesReadByReader ⟨5, 5⟩ aliceReads "alice"
        ["7D444840-9DC0-11D1-B245-5FFDCE74FAD2"]).sent = [] ∧
      (markEach ⟨5, 5⟩ aliceReads "alice" ["7D444840-9DC0-11D1-B245-5FFDCE74FAD2"]).2 =
        ["bob", "alice"].map fun user =>
          (user, ⟨"chat", bobsMessage.id, "alice", 5, some 60005⟩) := by
  refine ⟨aliceReads_wellFormed, ?_⟩
  decide +kernel

theorem batch_eq_singles_iff_alice :
    BatchAgrees ⟨5, 5⟩ aliceReads "alice" [bobsMessage.id, bobsMessage.id, "unknown"] :=
  (batch_eq_singles_iff aliceReads_wellFormed).2 fun m hm _ _ => by
    obtain rfl := List.mem_singleton.1 hm
    exact List.mem_cons_self

end OneToThree.Messages.Reads
