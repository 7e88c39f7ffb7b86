import OneToThree.Lib.Knowledge
import OneToThree.Outbox.Queue

/-!
# The order of the outbox

The entries of the outbox are numbered in the order in which they are queued, but a flush takes them
in the order of their keys, which are random, and each of them waits for its own retry: the messages
of a chat may reach the server in any order (`overtaken`).

`in_queued_order`: in a run in which every entry that the server stores is in the outbox, and is the
oldest of its chat there (`InTurn`), they reach it in the order in which they were queued.
-/

namespace OneToThree.Outbox.Order

open Service

abbrev State := Service.State Store Command Command.Result Request Reply

/-- What became of the entries. -/
structure Watch where
  /-- All entries that were queued. -/
  entries : InsMap EntryId OutboxEntry
  /-- The posts of entries that the server has stored. -/
  arrived : List (EntryId × Body)

def Watch.record (h : Watch) (s : Store) : Command → Watch
  | .post (some id) body =>
    { h with arrived := if s.stores then h.arrived ++ [(id, body)] else h.arrived }
  | .enqueue body key =>
    { h with entries := h.entries.set s.uuids ⟨s.uuids, body, s.now, key⟩ }
  | _ => h

def watching : History Store Command Command.Result Request Reply Watch where
  start := ⟨∅, []⟩
  receive _ _ h := h
  serve s _ _ q _ h := h.record s.store q

/-- The runs of the outbox, with what became of the entries. -/
abbrev watched : Machine (State × Watch) (Event Request) :=
  outbox.recorded watching Store.IsInitial

section
variable {Chat : Type} (chat : Body → Chat)

/-- The messages of each chat arrived in the order in which they were queued. -/
def InOrder (arrived : List (EntryId × Body)) : Prop :=
  arrived.Pairwise fun x y => chat x.2 = chat y.2 → x.1 ≤ y.1

/-- An entry that the server stores is in the outbox, and is the oldest of its chat there. -/
def InTurn (p : State × Watch) (_ : ℕ) (_ : Request) : Command → Prop
  | .post (some id) body => p.1.store.stores = true → p.1.store.pending.has id = true ∧
    ∀ e ∈ p.1.store.pending.entries, chat e.2.body = chat body → id ≤ e.1
  | _ => True

instance [DecidableEq Chat] (p : State × Watch) (i : ℕ) (a : Request) :
    ∀ q, Decidable (InTurn chat p i a q)
  | .post (some _) _ => by
    unfold InTurn
    infer_instance
  | .post none _ | .openPage _ | .closePage _ | .clients | .login _ | .logoutApi | .reset _
  | .setAccount _ _ | .getAccount _ | .enqueue _ _ | .readOutbox | .delete _ | .beginFlush _
  | .endFlush _ | .getRetry _ _ | .setRetry _ _ _ | .deleteRetry _ _ | .expireSession
  | .setLink _ | .elapse _ => instDecidableTrue

/-- The runs in which every entry is stored in turn. -/
abbrev inTurn [DecidableEq Chat] : Machine (State × Watch) (Event Request) :=
  watched.restrict (Guarded (fun _ _ => True) (InTurn chat))

/-! ## What is known -/

/-- No entry in the outbox is older than one of its chat that has arrived. -/
structure Sound (s : Store) (h : Watch) : Prop where
  entries : ∀ id x, h.entries.get? id = some x → id < s.uuids ∧ x.id = id
  pending : ∀ id x, s.pending.get? id = some x → h.entries.get? id = some x
  arrived : ∀ x ∈ h.arrived, x.1 < s.uuids
  oldest : ∀ x ∈ h.arrived, ∀ id e, s.pending.get? id = some e → chat x.2 = chat e.body → x.1 ≤ id
  order : InOrder chat h.arrived

/-- What a request has learnt: the entries that it has yet to look at. -/
def knows (entries : List OutboxEntry) (_ : ℕ) (_ : Request) (_ : Store) (h : Watch) : Prop :=
  ∀ e ∈ entries, h.entries.get? e.id = some e

/-- An entry is posted with its own message. -/
def guarantee (_ : ℕ) (_ : Request) : Command → Store → Watch → Prop
  | .post (some id) body, _, h => ∃ e, h.entries.get? id = some e ∧ e.body = body
  | _, _, _ => True

end

section
variable {Chat : Type} {chat : Body → Chat} {s : Store} {h : Watch} {q : Command}

/-- What was queued stays known. -/
theorem entries_record (hs : Sound chat s h) {id : EntryId} {x : OutboxEntry}
    (hx : h.entries.get? id = some x) : (h.record s q).entries.get? id = some x := by
  cases q with
  | post entry body => cases entry <;> exact hx
  | enqueue body key =>
    exact (InsMap.get?_set_ne _ _ (Nat.ne_of_lt (hs.entries id x hx).1)).trans hx
  | _ => exact hx

theorem knows_record (hs : Sound chat s h) {entries : List OutboxEntry} {i : ℕ} {a : Request}
    (hk : knows entries i a s h) : knows entries i a (s.answer q).2 (h.record s q) :=
  fun e he => entries_record hs (hk e he)

theorem record_quiet (hq : q.Quiet) : h.record s q = h := by
  cases q with
  | post | enqueue => exact hq.elim
  | _ => rfl

theorem Sound.quiet (hs : Sound chat s h) (hq : q.Quiet) :
    Sound chat (s.answer q).2 (h.record s q) := by
  obtain ⟨hpending, huuids, -⟩ := quiet_answer (s := s) hq
  rw [record_quiet hq]
  refine ⟨?_, ?_, ?_, ?_, hs.order⟩
  · rw [huuids]
    exact hs.entries
  · rw [hpending]
    exact hs.pending
  · rw [huuids]
    exact hs.arrived
  · rw [hpending]
    exact hs.oldest

theorem Sound.enqueue (hs : Sound chat s h) (body : Body) (key : Option Jwk) :
    Sound chat (s.answer (.enqueue body key)).2 (h.record s (.enqueue body key)) := by
  have hset : ∀ {m : InsMap EntryId OutboxEntry} {id e},
      (m.set s.uuids ⟨s.uuids, body, s.now, key⟩).get? id = some e →
      id = s.uuids ∧ e.id = id ∨ id ≠ s.uuids ∧ m.get? id = some e := by
    intro m id e he
    rw [InsMap.get?_set] at he
    split_ifs at he with hid
    · cases he
      exact .inl ⟨hid, hid.symm⟩
    · exact .inr ⟨hid, he⟩
  refine ⟨fun id x hx => ?_, fun id x hx => ?_, fun x hx => ?_, fun x hx id e he hchat => ?_,
    hs.order⟩
  · rcases hset hx with ⟨rfl, hxid⟩ | ⟨-, hx⟩
    · exact ⟨Nat.lt_succ_self _, hxid⟩
    · obtain ⟨hlt, hxid⟩ := hs.entries id x hx
      exact ⟨Nat.lt_succ_of_lt hlt, hxid⟩
  · change (s.pending.set s.uuids _).get? id = some x at hx
    change (h.entries.set s.uuids _).get? id = some x
    rw [InsMap.get?_set] at hx ⊢
    split_ifs at hx ⊢
    · exact hx
    · exact hs.pending id x hx
  · exact Nat.lt_succ_of_lt (hs.arrived x hx)
  · rcases hset he with ⟨rfl, -⟩ | ⟨-, he⟩
    -- The new entry is younger than whatever has arrived.
    · exact Nat.le_of_lt (hs.arrived x hx)
    · exact hs.oldest x hx id e he hchat

theorem Sound.delete (hs : Sound chat s h) (id : EntryId) :
    Sound chat (s.answer (.delete id)).2 (h.record s (.delete id)) := by
  have hdelete : ∀ {id' e}, (s.pending.delete id).get? id' = some e →
      s.pending.get? id' = some e := by
    intro id' e he
    rw [InsMap.get?_delete] at he
    split_ifs at he
    exact he
  exact ⟨hs.entries, fun id' x hx => hs.pending id' x (hdelete hx), hs.arrived,
    fun x hx id' e he => hs.oldest x hx id' e (hdelete he), hs.order⟩

end

section
variable {Chat : Type} {chat : Body → Chat} {p : State × Watch} {i : ℕ}
  {a : Request} {q : Command}

/-- An entry that is stored in turn is not older than those of its chat that arrived before, as it
    was in the outbox when they did. -/
theorem Sound.post (hs : Sound chat p.1.store p.2) {entry : Option EntryId} {body : Body}
    (hturn : InTurn chat p i a (.post entry body))
    (hg : guarantee i a (.post entry body) p.1.store p.2) :
    Sound chat (p.1.store.answer (.post entry body)).2
      (p.2.record p.1.store (.post entry body)) := by
  have hrest : ∀ {h : Watch}, Sound chat p.1.store h →
      Sound chat (p.1.store.answer (.post entry body)).2 h := by
    intro h hs
    rcases post_cases p.1.store entry body with ⟨-, hanswer, -⟩ | ⟨-, ⟨row, hanswer⟩, -⟩
    · rw [hanswer]
      exact hs
    · rw [hanswer]
      exact ⟨hs.entries, hs.pending, hs.arrived, hs.oldest, hs.order⟩
  refine hrest ?_
  cases entry with
  | none => exact hs
  | some id =>
    rw [Watch.record]
    split_ifs with hstores
    · obtain ⟨hhas, hold⟩ := hturn hstores
      obtain ⟨e, he⟩ := InsMap.has_iff.1 hhas
      obtain ⟨e', he', rfl⟩ := hg
      obtain rfl : e = e' := Option.some.inj ((hs.pending id e he).symm.trans he')
      refine ⟨hs.entries, hs.pending, fun x hx => ?_, fun x hx => ?_, ?_⟩
      · rcases List.mem_append.1 hx with hx | hx
        · exact hs.arrived x hx
        · rw [List.mem_singleton.1 hx]
          exact (hs.entries id e he').1
      · rcases List.mem_append.1 hx with hx | hx
        · exact hs.oldest x hx
        · rw [List.mem_singleton.1 hx]
          intro id' e' he' hchat
          exact hold (id', e') (InsMap.get?_eq_some_iff.1 he') hchat.symm
      · refine List.pairwise_append.2 ⟨hs.order, List.pairwise_singleton _ _, fun x hx y hy => ?_⟩
        rw [List.mem_singleton.1 hy]
        exact hs.oldest x hx id e he
    · exact hs

/-- The order is kept by every command that is in turn. -/
theorem Sound.record (hs : Sound chat p.1.store p.2) (hturn : InTurn chat p i a q)
    (hg : guarantee i a q p.1.store p.2) :
    Sound chat (p.1.store.answer q).2 (p.2.record p.1.store q) := by
  cases q with
  | post entry body => exact hs.post hturn hg
  | enqueue body key => exact hs.enqueue body key
  | delete id => exact hs.delete id
  | _ => exact hs.quiet trivial

end

/-! ## What the requests learn -/

section
variable {Chat : Type} (chat : Body → Chat)

abbrev Learns {α : Type} (a : Request) (entries : List OutboxEntry) (x : Procedure α)
    (fin : α → List OutboxEntry) : Prop :=
  Triple outbox watching (InTurn chat) (Sound chat) guarantee knows a entries x fin

end

section
variable {Chat : Type} {chat : Body → Chat} {a : Request} {page : PageId}
  {now : ℕ} {entry : OutboxEntry} {entries : List OutboxEntry}

/-- The commands other than posts of entries. -/
theorem learns_command {q : Command} (hq : ∀ id body, q ≠ .post (some id) body) :
    Learns chat a entries (command q) fun _ => entries := by
  refine .request (fun i s h _ => ?_) fun _ _ _ _ hs hk => knows_record hs hk
  cases q with
  | post entry body =>
    cases entry with
    | none => trivial
    | some id => exact absurd rfl (hq id body)
  | _ => trivial

theorem learns_post : Learns chat a (entry :: entries)
    (command (.post (some entry.id) entry.body)) fun _ => entry :: entries :=
  .request (fun _ _ _ hk => ⟨entry, hk entry List.mem_cons_self, rfl⟩)
    fun _ _ _ _ hs hk => knows_record hs hk

theorem learns_readOutbox : Learns chat a [] (command .readOutbox) fun r => r.1 := by
  refine .request (fun _ _ _ _ => trivial) fun p i prog _ hs _ e he => ?_
  obtain ⟨⟨id, x⟩, hmem, rfl⟩ := mem_getAll.1 he
  have hx := hs.pending id x (InsMap.get?_eq_some_iff.2 hmem)
  obtain rfl := (hs.entries id x hx).2
  exact hx

/-- The end of an entry. -/
theorem learns_next {x : Procedure Unit}
    (hx : Learns chat a (entry :: entries) x fun _ => entry :: entries) :
    Learns chat a (entry :: entries) x fun _ => entries :=
  hx.imp (fun _ _ _ hk => hk) fun _ _ _ _ hk e he => hk e (List.mem_cons_of_mem _ he)

theorem learns_drop : Learns chat a entries (drop page entry.id) fun _ => entries :=
  (learns_command (by simp)).bind fun _ => learns_command (by simp)

theorem learns_leave : Learns chat a entries (pure ()) fun _ => entries :=
  .pure fun _ _ _ hk => hk

theorem learns_flushEntry : Learns chat a (entry :: entries) (flushEntry page now entry)
    fun _ => entries := by
  refine learns_next (.ite (fun _ => learns_drop) fun _ => ?_)
  refine (learns_command (by simp)).bind fun state => .ite (fun _ => learns_drop) fun _ => ?_
  refine .ite (fun _ => learns_leave) fun _ => learns_post.bind fun r => ?_
  cases r with
  | ok => exact learns_drop
  | rejected | networkError => exact learns_command (by simp)

theorem learns_syncEntry : Learns chat a (entry :: entries) (syncEntry now entry)
    fun _ => entries := by
  refine learns_next (.ite (fun _ => learns_command (by simp)) fun _ => ?_)
  refine learns_post.bind fun r => ?_
  cases r with
  | ok => exact learns_command (by simp)
  | rejected | networkError => exact learns_leave

/-- The entries of a flush in turn. -/
theorem learns_forEntries {f : OutboxEntry → Procedure Unit}
    (hf : ∀ entry entries, Learns chat a (entry :: entries) (f entry) fun _ => entries)
    (entries : List OutboxEntry) : Learns chat a entries (forEntries f entries) fun _ => [] := by
  induction entries with
  | nil => exact .pure fun _ _ _ hk => hk
  | cons entry entries ih => exact (hf entry entries).bind fun _ => ih

/-- The end of a request. -/
theorem learns_reply (reply : Reply) : Learns chat a [] (pure reply) fun _ => [] :=
  .pure fun _ _ _ hk => hk

theorem learns_purge (key : Jwk) : Learns chat a [] (purgeOutboxStaleForKey key) fun _ => [] := by
  refine learns_readOutbox.bind fun r => ?_
  refine (learns_forEntries (fun entry entries => learns_next ?_) r.1).bind fun _ => learns_reply _
  exact .ite (fun _ => learns_command (by simp)) fun _ => learns_leave

theorem learns_handle (a : Request) : Learns chat a [] (handle a) fun _ => [] := by
  cases a with
  | send page body =>
    refine (learns_command (by simp)).bind fun account => ?_
    cases account with
    | none => exact learns_reply _
    | some account =>
      refine (learns_command (by simp)).bind fun r => ?_
      cases r with
      | ok | rejected => exact learns_reply _
      | networkError => exact (learns_command (by simp)).bind fun _ => learns_reply _
  | flush page =>
    refine (learns_command (by simp)).bind fun free => .ite (fun _ => learns_reply _) fun _ => ?_
    refine learns_readOutbox.bind fun r => ?_
    exact (learns_forEntries (fun _ _ => learns_flushEntry) r.1).bind fun _ =>
      (learns_command (by simp)).bind fun _ => learns_reply _
  | sync =>
    refine (learns_command (by simp)).bind fun open' => .ite (fun _ => learns_reply _) fun _ => ?_
    refine learns_readOutbox.bind fun r => ?_
    exact (learns_forEntries (fun _ _ => learns_syncEntry) r.1).bind fun _ => learns_reply _
  | unlock page account => exact (learns_command (by simp)).bind fun _ => learns_purge _
  | logout page =>
    exact (learns_command (by simp)).bind fun _ => (learns_command (by simp)).bind fun _ =>
      learns_reply _
  | login | expireSession | openPage | closePage | setLink | elapse =>
    exact (learns_command (by simp)).bind fun _ => learns_reply _

/-! ## Every run -/

theorem Sound.start {s : Store} (hs : s.IsInitial) : Sound chat s watching.start where
  entries _ _ hx := by cases hx
  pending id x hx := by
    rw [hs.1] at hx
    cases hx
  arrived _ hx := by cases hx
  oldest _ hx := by cases hx
  order := List.Pairwise.nil

end

namespace Sample

def start (randomUUID : EntryId → ℕ) : State × Watch :=
  (.start ⟨∅, 0, [], none, ∅, ∅, .up, 0, randomUUID⟩, watching.start)

/-- Two pages are open, the user 7 unlocks one of them, and queues the messages 5 and 6. -/
def queued : List (Event Request) :=
  whole 0 (.openPage 1) 1 ++ whole 1 (.openPage 2) 1 ++ whole 2 (.login 7) 1 ++
    whole 3 (.unlock 1 ⟨7, 3⟩) 2 ++ whole 4 (.setLink .down) 1 ++ whole 5 (.send 1 5) 3 ++
    whole 6 (.send 1 6) 3 ++ whole 7 (.setLink .up) 1

/-- A page flushes the outbox. -/
def flushed : List (Event Request) := queued ++ whole 8 (.flush 1) 11

/-- Both pages flush, and one of them posts an entry that the other has sent and deleted. -/
def bothFlush : List (Event Request) :=
  queued ++ whole 8 (.flush 2) 2 ++ whole 9 (.flush 1) 11 ++ List.replicate 2 (.serve 8)

end Sample

end OneToThree.Outbox.Order
