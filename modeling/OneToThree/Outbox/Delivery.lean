import OneToThree.Lib.Knowledge
import OneToThree.Outbox.Queue

/-!
# The outbox delivers once

An entry of the outbox disappears for a reason: the server has stored its message, it is too old,
its retries are exhausted, or it was sealed under another key than the one that is unlocked
(`Removal.Justified`).

The server does not know which messages are the same. A message is stored twice when the answer to
it is lost, so that it is queued, and when two flushes have read its entry (`stored_twice`).

`delivery_of_run`: in a run in which no answer is lost, and an entry is posted only while it is in
the outbox and no other flush is about to delete it (`Watch.InTurn`), no message is stored twice.
-/

namespace OneToThree.Outbox

open Service

abbrev State := Service.State Store Command Command.Result Request Reply

/-- An entry that has disappeared, with what was true of it then. -/
structure Removal where
  entry : OutboxEntry
  stored : Bool
  tooOld : Bool
  exhausted : Bool
  /-- It was sealed under another key than the one that was unlocked. -/
  stale : Bool
  deriving DecidableEq

def Removal.Justified (r : Removal) : Prop :=
  r.stored = true ∨ r.tooOld = true ∨ r.exhausted = true ∨ r.stale = true

instance (r : Removal) : Decidable r.Justified := by
  unfold Removal.Justified
  infer_instance

/-- What became of the messages. -/
structure Watch where
  /-- How many messages were sent. -/
  sends : ℕ
  /-- The message that a request sends. -/
  message : InsMap ℕ ℕ
  /-- All entries that were queued, -/
  entries : InsMap EntryId OutboxEntry
  /-- and their messages. -/
  origin : InsMap EntryId ℕ
  /-- The messages that the server has stored. -/
  stored : List ℕ
  /-- The entries that the server has accepted, and that are about to be deleted. -/
  accepted : InsSet EntryId
  /-- The entries that were retried as often as they may be. -/
  exhausted : InsSet EntryId
  removed : List Removal
  /-- Every post so far was in turn. -/
  inTurn : Bool

namespace Watch

/-- The message that a request posts. -/
def posted (h : Watch) (i : ℕ) : Option EntryId → Option ℕ
  | none => h.message.get? i
  | some id => h.origin.get? id

/-- The answer of the server is not lost, and an entry that is posted is in the outbox, and not
    about to be deleted. -/
def InTurn (h : Watch) (s : Store) (entry : Option EntryId) : Prop :=
  s.link ≠ .losesAnswer ∧
    ∀ id ∈ entry, s.pending.has id = true ∧ h.accepted.has id = false

instance (h : Watch) (s : Store) (entry : Option EntryId) : Decidable (h.InTurn s entry) := by
  unfold InTurn
  infer_instance

def removal (h : Watch) (s : Store) (a : Request) (entry : OutboxEntry) : Removal where
  entry := entry
  stored := (h.origin.get? entry.id).any (· ∈ h.stored)
  tooOld := entry.tooOld s.now
  exhausted := h.exhausted.has entry.id
  stale :=
    match a with
    | .unlock _ account => entry.staleFor account.myEcdhPublicKeyJwk
    | _ => false

/-- The entries that are about to be deleted, with one that was posted. -/
def accept (h : Watch) : Option EntryId → PostResult → InsSet EntryId
  | some id, .ok => h.accepted.add id
  | _, _ => h.accepted

/-- What a command makes known. -/
def record (h : Watch) (s : Store) (i : ℕ) (a : Request) : Command → Watch
  | .post entry body =>
    { h with
      stored := if s.stores then h.stored ++ (h.posted i entry).toList else h.stored
      accepted := h.accept entry (s.answer (.post entry body)).1
      inTurn := h.inTurn && decide (h.InTurn s entry) }
  | .enqueue body key =>
    { h with
      entries := h.entries.set s.uuids ⟨s.uuids, body, s.now, key⟩
      origin :=
        match h.message.get? i with
        | some n => h.origin.set s.uuids n
        | none => h.origin }
  | .setRetry _ id retries =>
    if MAX_RETRIES ≤ retries then { h with exhausted := h.exhausted.add id } else h
  | .delete id =>
    { h with
      accepted := h.accepted.delete id
      removed := h.removed ++ ((s.pending.get? id).map (h.removal s a)).toList }
  | _ => h

end Watch

def watching : History Store Command Command.Result Request Reply Watch where
  start := ⟨0, ∅, ∅, ∅, [], ∅, ∅, [], true⟩
  receive s a h :=
    match a with
    | .send _ _ => { h with message := h.message.set s.received h.sends, sends := h.sends + 1 }
    | _ => h
  serve s i a q _ h := h.record s.store i a q

/-- The runs of the outbox, with what became of the messages. -/
abbrev watched : Machine (State × Watch) (Event Request) :=
  outbox.recorded watching Store.IsInitial

/-! ## What is known -/

/-- What is known of the outbox: every entry is as it was queued, for a message of its own, and
    while the posts are in turn, an entry that the server has not accepted is not stored. -/
structure Sound (s : Store) (h : Watch) : Prop where
  entries : ∀ id x, h.entries.get? id = some x →
    id < s.uuids ∧ x.id = id ∧ ∃ n, h.origin.get? id = some n
  pending : ∀ id x, s.pending.get? id = some x → h.entries.get? id = some x
  origin : ∀ id n, h.origin.get? id = some n → id < s.uuids ∧ n < h.sends
  origin_inj : ∀ id id' n, h.origin.get? id = some n → h.origin.get? id' = some n → id = id'
  message : ∀ i n, h.message.get? i = some n → n < h.sends
  message_inj : ∀ i j n, h.message.get? i = some n → h.message.get? j = some n → i = j
  stored : ∀ n ∈ h.stored, n < h.sends
  rows : h.stored.length = s.messages.length
  retries : ∀ page x id r, s.pages.get? page = some x → x.retryState.get? id = some r →
    MAX_RETRIES ≤ r.retries → h.exhausted.has id = true
  once : h.inTurn = true → h.stored.Nodup
  unsent : h.inTurn = true → ∀ id n, s.pending.has id = true → h.accepted.has id = false →
    h.origin.get? id = some n → n ∉ h.stored
  removed : ∀ r ∈ h.removed, r.Justified
  kept : ∀ id x, h.entries.get? id = some x →
    s.pending.get? id = some x ∨ ∃ r ∈ h.removed, r.entry = x

/-- What a request has learnt. -/
inductive Knowledge
  | nothing
  /-- Its message is not queued, nor stored if the posts were in turn. -/
  | unsent
  /-- These entries were read at a time. -/
  | holds (now : ℕ) (entries : List OutboxEntry)
  /-- The first of them may be dropped. -/
  | done (now : ℕ) (entry : OutboxEntry) (entries : List OutboxEntry)

/-- Entries that were queued, at a time that is past. -/
def Held (now : ℕ) (entries : List OutboxEntry) (s : Store) (h : Watch) : Prop :=
  now ≤ s.now ∧ ∀ entry ∈ entries, h.entries.get? entry.id = some entry

def knows : Knowledge → ℕ → Request → Store → Watch → Prop
  | .nothing, _, _, _, _ => True
  | .unsent, i, _, _, h => ∃ n, h.message.get? i = some n ∧
    (∀ id, h.origin.get? id ≠ some n) ∧ (h.inTurn = true → n ∉ h.stored)
  | .holds now entries, _, _, s, h => Held now entries s h
  | .done now entry entries, _, a, s, h =>
    Held now (entry :: entries) s h ∧ (h.removal s a entry).Justified

/-- What a request guarantees to the others. -/
def guarantee (i : ℕ) (a : Request) : Command → Store → Watch → Prop
  | .post none _, s, h | .enqueue _ _, s, h => knows .unsent i a s h
  | .post (some id) _, _, h => ∃ entry, h.entries.get? id = some entry
  | .delete id, s, h => ∀ entry, h.entries.get? id = some entry →
    (h.removal s a entry).Justified
  | _, _, _ => True

section
variable {s : Store} {h : Watch} {i j : ℕ} {a b : Request} {q : Command}

/-! ## What is known goes on to be known -/

theorem justified_iff {entry : OutboxEntry} : (h.removal s a entry).Justified ↔
    (∃ n, h.origin.get? entry.id = some n ∧ n ∈ h.stored) ∨ entry.tooOld s.now = true ∨
      h.exhausted.has entry.id = true ∨ (h.removal s a entry).stale = true := by
  rw [Removal.Justified]
  simp [Watch.removal, Option.any_eq_true]

/-- What only grows with the commands. -/
structure Grows (s : Store) (h : Watch) (s' : Store) (h' : Watch) : Prop where
  now : s.now ≤ s'.now
  entries : ∀ id x, h.entries.get? id = some x → h'.entries.get? id = some x
  origin : ∀ id n, h.origin.get? id = some n → h'.origin.get? id = some n
  stored : ∀ n ∈ h.stored, n ∈ h'.stored
  exhausted : ∀ id, h.exhausted.has id = true → h'.exhausted.has id = true

theorem Sound.grows (hs : Sound s h) : Grows s h (s.answer q).2 (h.record s i a q) := by
  have hnow := now_le_answer s q
  cases q with
  | post entry body =>
    refine ⟨hnow, fun _ _ => id, fun _ _ => id, fun n hn => ?_, fun _ => id⟩
    rw [Watch.record]
    dsimp only
    split_ifs
    · exact List.mem_append_left _ hn
    · exact hn
  | enqueue body key =>
    refine ⟨hnow, fun id x hx => ?_, fun id n hn => ?_, fun _ => id, fun _ => id⟩
    · exact (InsMap.get?_set_ne _ _ (Nat.ne_of_lt (hs.entries id x hx).1)).trans hx
    · rw [Watch.record]
      dsimp only
      split
      · exact (InsMap.get?_set_ne _ _ (Nat.ne_of_lt (hs.origin id n hn).1)).trans hn
      · exact hn
  | setRetry page id' retries =>
    rw [Watch.record]
    split_ifs
    · refine ⟨hnow, fun _ _ => id, fun _ _ => id, fun _ => id, fun id hid => ?_⟩
      change (h.exhausted.set id' ()).has id = true
      rw [InsMap.has_set, hid, Bool.or_true]
    · exact ⟨hnow, fun _ _ => id, fun _ _ => id, fun _ => id, fun _ => id⟩
  | _ => exact ⟨hnow, fun _ _ => id, fun _ _ => id, fun _ => id, fun _ => id⟩

variable {s' : Store} {h' : Watch}

theorem Held.grow {now : ℕ} {entries : List OutboxEntry} (hheld : Held now entries s h)
    (hgrow : Grows s h s' h') : Held now entries s' h' :=
  ⟨Nat.le_trans hheld.1 hgrow.now, fun entry he => hgrow.entries _ _ (hheld.2 entry he)⟩

theorem tooOld_mono {entry : OutboxEntry} {now now' : ℕ} (hle : now ≤ now')
    (hold : entry.tooOld now = true) : entry.tooOld now' = true := by
  rw [OutboxEntry.tooOld, decide_eq_true_eq] at hold ⊢
  omega

theorem Grows.justified (hgrow : Grows s h s' h') {entry : OutboxEntry}
    (hentry : (h.removal s a entry).Justified) : (h'.removal s' a entry).Justified := by
  rw [justified_iff] at hentry ⊢
  rcases hentry with ⟨n, hn, hstored⟩ | hold | hexhausted | hstale
  · exact .inl ⟨n, hgrow.origin _ _ hn, hgrow.stored n hstored⟩
  · exact .inr (.inl (tooOld_mono hgrow.now hold))
  · exact .inr (.inr (.inl (hgrow.exhausted _ hexhausted)))
  · exact .inr (.inr (.inr hstale))

/-- What is known of entries is kept by every command. -/
theorem knows_grow {k : Knowledge} (hk : knows k j b s h) (hgrow : Grows s h s' h')
    (hunsent : k ≠ .unsent) : knows k j b s' h' := by
  cases k with
  | nothing => trivial
  | unsent => exact absurd rfl hunsent
  | holds now entries => exact Held.grow hk hgrow
  | done now entry entries => exact ⟨hk.1.grow hgrow, hgrow.justified hk.2⟩

/-- The other requests keep what a request knows. -/
theorem knows_other (hs : Sound s h) (hg : guarantee i a q s h) (k : Knowledge) (hji : j ≠ i)
    (hk : knows k j b s h) : knows k j b (s.answer q).2 (h.record s i a q) := by
  by_cases hunsent : k = .unsent
  · subst hunsent
    obtain ⟨n, hn, horigin, hstored⟩ := hk
    have hother : ∀ m, h.message.get? i = some m → m ≠ n := by
      rintro m hm rfl
      exact hji (hs.message_inj j i m hn hm)
    cases q with
    | post entry body =>
      refine ⟨n, hn, horigin, fun hturn => ?_⟩
      rw [Watch.record] at hturn ⊢
      dsimp only at hturn ⊢
      have hnot := hstored (Bool.and_eq_true_iff.1 hturn).1
      split_ifs
      · rw [List.mem_append, Option.mem_toList]
        rintro (hmem | hposted)
        · exact hnot hmem
        · cases entry with
          | none => exact hother n hposted rfl
          | some id => exact horigin id hposted
      · exact hnot
    | enqueue body key =>
      refine ⟨n, hn, fun id => ?_, hstored⟩
      rw [Watch.record]
      dsimp only
      split
      · rename_i m hm
        rw [InsMap.get?_set]
        split_ifs
        · exact fun heq => hother m hm (Option.some.inj heq)
        · exact horigin id
      · exact horigin id
    | setRetry page id retries =>
      rw [Watch.record]
      split_ifs <;> exact ⟨n, hn, horigin, hstored⟩
    | _ => exact ⟨n, hn, horigin, hstored⟩
  · exact knows_grow hk hs.grows hunsent

/-! ## What every command keeps -/

/-- The commands that neither post, queue nor delete keep what is known. -/
theorem Sound.quiet (hs : Sound s h) (hq : q.Quiet) :
    Sound (s.answer q).2 (h.record s i a q) := by
  obtain ⟨hpending, huuids, hmessages⟩ := quiet_answer (s := s) hq
  have hretry : ∀ page x id r, (s.answer q).2.pages.get? page = some x →
      x.retryState.get? id = some r → MAX_RETRIES ≤ r.retries →
      (h.record s i a q).exhausted.has id = true := by
    intro page x id r hx hr hmax
    rcases retry_answer hx hr with ⟨x', hx', hr'⟩ | rfl
    · exact hs.grows.exhausted id (hs.retries page x' id r hx' hr' hmax)
    · rw [Watch.record, if_pos hmax]
      change (h.exhausted.set id ()).has id = true
      rw [InsMap.has_set]
      simp
  have hrest : ∃ exhausted, h.record s i a q = { h with exhausted := exhausted } := by
    cases q with
    | post | enqueue | delete => exact hq.elim
    | setRetry page id retries =>
      rw [Watch.record]
      split_ifs
      · exact ⟨_, rfl⟩
      · exact ⟨h.exhausted, rfl⟩
    | _ => exact ⟨h.exhausted, rfl⟩
  obtain ⟨exhausted, heq⟩ := hrest
  rw [heq] at hretry ⊢
  refine ⟨?_, ?_, ?_, hs.origin_inj, hs.message, hs.message_inj, hs.stored, ?_, hretry, hs.once, ?_,
    hs.removed, ?_⟩
  · rw [huuids]
    exact hs.entries
  · rw [hpending]
    exact hs.pending
  · rw [huuids]
    exact hs.origin
  · rw [hmessages]
    exact hs.rows
  · rw [hpending]
    exact hs.unsent
  · rw [hpending]
    exact hs.kept

theorem accept_of_ne_ok {entry : Option EntryId} {r : PostResult} (hr : r ≠ .ok) :
    h.accept entry r = h.accepted := by
  cases entry <;> cases r <;> first | rfl | exact absurd rfl hr

theorem not_accepted_of_accept {entry : Option EntryId} {r : PostResult} {id : EntryId}
    (hid : (h.accept entry r).has id = false) : h.accepted.has id = false := by
  by_contra htrue
  rw [Bool.not_eq_false] at htrue
  have haccept : (h.accept entry r).has id = true := by
    cases entry with
    | none => exact htrue
    | some id' =>
      cases r with
      | ok =>
        change (h.accepted.set id' ()).has id = true
        rw [InsMap.has_set, htrue, Bool.or_true]
      | rejected | networkError => exact htrue
  rw [hid] at haccept
  cases haccept

/-- The message of a post that is stored: while the posts are in turn, it was not stored before. -/
theorem Sound.posted (hs : Sound s h) {entry : Option EntryId} {body : Body}
    (hg : guarantee i a (.post entry body) s h) : ∃ n, h.posted i entry = some n ∧ n < h.sends ∧
      (h.inTurn = true → h.InTurn s entry → n ∉ h.stored) := by
  cases entry with
  | none =>
    obtain ⟨n, hn, -, hstored⟩ := hg
    exact ⟨n, hn, hs.message i n hn, fun hturn _ => hstored hturn⟩
  | some id =>
    obtain ⟨x, hx⟩ := hg
    obtain ⟨-, -, n, hn⟩ := hs.entries id x hx
    refine ⟨n, hn, (hs.origin id n hn).2, fun hturn hinTurn => ?_⟩
    obtain ⟨hpending, haccepted⟩ := hinTurn.2 id rfl
    exact hs.unsent hturn id n hpending haccepted hn

theorem Sound.post (hs : Sound s h) {entry : Option EntryId} {body : Body}
    (hg : guarantee i a (.post entry body) s h) :
    Sound (s.answer (.post entry body)).2 (h.record s i a (.post entry body)) := by
  obtain ⟨n, hn, hlt, hnew⟩ := hs.posted hg
  rcases post_cases s entry body with ⟨hstores, hanswer, hok⟩ | ⟨hstores, ⟨row, hanswer⟩, hok⟩
  · rw [Watch.record, hstores, hanswer, accept_of_ne_ok hok]
    exact ⟨hs.entries, hs.pending, hs.origin, hs.origin_inj, hs.message, hs.message_inj, hs.stored,
      hs.rows, hs.retries, fun hturn => hs.once (Bool.and_eq_true_iff.1 hturn).1,
      fun hturn => hs.unsent (Bool.and_eq_true_iff.1 hturn).1, hs.removed, hs.kept⟩
  rw [Watch.record, hstores, hanswer, hn, if_pos rfl, Option.toList_some]
  have hturns : ∀ {b : Bool}, (b && decide (h.InTurn s entry)) = true →
      b = true ∧ h.InTurn s entry := fun hturn => by simpa using hturn
  refine ⟨hs.entries, hs.pending, hs.origin, hs.origin_inj, hs.message, hs.message_inj,
    fun m hm => ?_, ?_, hs.retries, fun hturn => ?_,
    fun hturn id m hpending haccepted hm hmem => ?_, hs.removed, hs.kept⟩
  · rcases List.mem_append.1 hm with hm | hm
    · exact hs.stored m hm
    · exact List.mem_singleton.1 hm ▸ hlt
  · rw [List.length_append, List.length_append, hs.rows]
    rfl
  · obtain ⟨hturn, hinTurn⟩ := hturns hturn
    refine List.nodup_append.2 ⟨hs.once hturn, List.nodup_singleton _, fun m hm m' hm' heq => ?_⟩
    rw [heq, List.mem_singleton.1 hm'] at hm
    exact hnew hturn hinTurn hm
  · obtain ⟨hturn, hinTurn⟩ := hturns hturn
    rcases List.mem_append.1 hmem with hmem | hmem
    · exact hs.unsent hturn id m hpending (not_accepted_of_accept haccepted) hm hmem
    · obtain rfl := List.mem_singleton.1 hmem
      cases entry with
      | none =>
        obtain ⟨n', hn', horigin, -⟩ := hg
        cases hn.symm.trans hn'
        exact horigin id hm
      | some id' =>
        -- The entry that was posted is about to be deleted.
        obtain rfl := hs.origin_inj id id' m hm hn
        rw [hok.resolve_right hinTurn.1] at haccepted
        change (h.accepted.set id ()).has id = false at haccepted
        rw [InsMap.has_set] at haccepted
        simp at haccepted

theorem Sound.enqueue (hs : Sound s h) {body : Body} {key : Option Jwk}
    (hg : guarantee i a (.enqueue body key) s h) :
    Sound (s.answer (.enqueue body key)).2 (h.record s i a (.enqueue body key)) := by
  obtain ⟨n, hn, horigin, hstored⟩ := hg
  rw [Watch.record, hn]
  have hset : ∀ {id m}, (h.origin.set s.uuids n).get? id = some m →
      (id = s.uuids ∧ m = n) ∨ h.origin.get? id = some m := by
    intro id m hm
    rw [InsMap.get?_set] at hm
    split_ifs at hm with hid
    · exact .inl ⟨hid, (Option.some.inj hm).symm⟩
    · exact .inr hm
  have hnew : (h.origin.set s.uuids n).get? s.uuids = some n := InsMap.get?_set_self _ _ _
  refine ⟨fun id x hx => ?_, fun id x hx => ?_, fun id m hm => ?_, fun id id' m hm hm' => ?_,
    hs.message, hs.message_inj, hs.stored, hs.rows, hs.retries, hs.once,
    fun hturn id m hpending haccepted hm => ?_, hs.removed, fun id x hx => ?_⟩
  · change (h.entries.set s.uuids _).get? id = some x at hx
    rw [InsMap.get?_set] at hx
    split_ifs at hx with hid
    · cases hx
      exact ⟨hid ▸ Nat.lt_succ_self _, hid.symm, n, hid ▸ hnew⟩
    · obtain ⟨hlt, hxid, m, hm⟩ := hs.entries id x hx
      exact ⟨Nat.lt_succ_of_lt hlt, hxid, m, (InsMap.get?_set_ne _ _ hid).trans hm⟩
  · change (s.pending.set s.uuids _).get? id = some x at hx
    change (h.entries.set s.uuids _).get? id = some x
    rw [InsMap.get?_set] at hx ⊢
    split_ifs at hx ⊢
    · exact hx
    · exact hs.pending id x hx
  · rcases hset hm with ⟨rfl, rfl⟩ | hm
    · exact ⟨Nat.lt_succ_self _, hs.message i m hn⟩
    · obtain ⟨hlt, hsends⟩ := hs.origin id m hm
      exact ⟨Nat.lt_succ_of_lt hlt, hsends⟩
  · rcases hset hm with ⟨rfl, rfl⟩ | hm <;> rcases hset hm' with ⟨rfl, heq⟩ | hm'
    · rfl
    · exact absurd hm' (horigin id')
    · exact absurd (heq ▸ hm) (horigin id)
    · exact hs.origin_inj id id' m hm hm'
  · rcases hset hm with ⟨rfl, rfl⟩ | hm
    · exact hstored hturn
    · refine hs.unsent hturn id m ?_ haccepted hm
      change (s.pending.set s.uuids _).has id = true at hpending
      rw [InsMap.has_set] at hpending
      simpa [Nat.ne_of_lt (hs.origin id m hm).1] using hpending
  · change (h.entries.set s.uuids _).get? id = some x at hx
    change (s.pending.set s.uuids _).get? id = some x ∨ _
    rw [InsMap.get?_set] at hx ⊢
    split_ifs at hx ⊢
    · exact .inl hx
    · exact hs.kept id x hx

theorem Sound.delete (hs : Sound s h) {id : EntryId} (hg : guarantee i a (.delete id) s h) :
    Sound (s.answer (.delete id)).2 (h.record s i a (.delete id)) := by
  refine ⟨hs.entries, fun id' x hx => ?_, hs.origin, hs.origin_inj, hs.message, hs.message_inj,
    hs.stored, hs.rows, hs.retries, hs.once, fun hturn id' n hpending haccepted hn => ?_,
    fun r hr => ?_, fun id' x hx => ?_⟩
  · change (s.pending.delete id).get? id' = some x at hx
    rw [InsMap.get?_delete] at hx
    split_ifs at hx
    exact hs.pending id' x hx
  · change (s.pending.delete id).has id' = true at hpending
    change (h.accepted.delete id).has id' = false at haccepted
    rw [InsMap.has_delete] at hpending haccepted
    have hne : id' ≠ id := by
      rintro rfl
      simp at hpending
    exact hs.unsent hturn id' n (by simpa [hne] using hpending) (by simpa [hne] using haccepted) hn
  · rcases List.mem_append.1 hr with hr | hr
    · exact hs.removed r hr
    · obtain ⟨entry, hentry, rfl⟩ := Option.map_eq_some_iff.1 (Option.mem_toList.1 hr)
      exact hg entry (hs.pending id entry hentry)
  · change (s.pending.delete id).get? id' = some x ∨ _
    rw [InsMap.get?_delete]
    rcases hs.kept id' x hx with hpending | ⟨r, hr, hrx⟩
    · split_ifs with hid
      · refine .inr ⟨h.removal s a x, List.mem_append_right _ ?_, rfl⟩
        rw [← hid, hpending]
        exact List.mem_singleton_self _
      · exact .inl hpending
    · exact .inr ⟨r, List.mem_append_left _ hr, hrx⟩

/-- What is known of the outbox is kept by every command. -/
theorem Sound.record (hs : Sound s h) (hg : guarantee i a q s h) :
    Sound (s.answer q).2 (h.record s i a q) := by
  cases q with
  | post entry body => exact hs.post hg
  | enqueue body key => exact hs.enqueue hg
  | delete id => exact hs.delete hg
  | _ => exact hs.quiet trivial

end

/-! ## What the requests learn -/

abbrev Learns {α : Type} (a : Request) (k : Knowledge) (x : Procedure α) (fin : α → Knowledge) :
    Prop :=
  Triple outbox watching (fun _ _ _ _ => True) Sound guarantee knows a k x fin

section
variable {a : Request} {page : PageId} {now : ℕ} {entry : OutboxEntry} {entries : List OutboxEntry}

theorem learns_quiet {q : Command} (hq : q.Quiet) (k : Knowledge) :
    Learns a k (command q) fun _ => k := by
  refine Triple.request (fun i s h _ => ?_) fun p i prog _ hs hk => ?_
  · cases q with
    | post | enqueue | delete => exact hq.elim
    | _ => trivial
  · by_cases hunsent : k = .unsent
    · subst hunsent
      obtain ⟨n, hn, hrest⟩ := hk
      cases q with
      | post | enqueue | delete => exact hq.elim
      | setRetry page id retries =>
        change knows .unsent i a _ (p.2.record p.1.store i a (.setRetry page id retries))
        rw [Watch.record]
        split_ifs <;> exact ⟨n, hn, hrest⟩
      | _ => exact ⟨n, hn, hrest⟩
    · exact knows_grow hk hs.grows hunsent

theorem learns_delete : Learns a (.done now entry entries) (command (.delete entry.id))
    fun _ => .holds now entries := by
  refine .request (fun i s h hk entry' hentry' => ?_) fun p i prog _ hs hk => ?_
  · cases (hk.1.2 entry List.mem_cons_self).symm.trans hentry'
    exact hk.2
  · obtain ⟨hnow, hentries⟩ := hk.1.grow (hs.grows (i := i) (a := a) (q := .delete entry.id))
    exact ⟨hnow, fun e he => hentries e (List.mem_cons_of_mem _ he)⟩

theorem learns_drop :
    Learns a (.done now entry entries) (drop page entry.id) fun _ => .holds now entries :=
  learns_delete.bind fun _ => learns_quiet (by trivial) _

/-- An entry that is left in the outbox. -/
theorem learns_leave : Learns a (.holds now (entry :: entries)) (pure ()) fun _ =>
    .holds now entries :=
  .pure fun _ _ _ hk => ⟨hk.1, fun e he => hk.2 e (List.mem_cons_of_mem _ he)⟩

/-- An entry that has come of age since it was read is still too old. -/
theorem learns_tooOld {x : Procedure Unit} (hold : entry.tooOld now = true)
    (hx : Learns a (.done now entry entries) x fun _ => .holds now entries) :
    Learns a (.holds now (entry :: entries)) x fun _ => .holds now entries :=
  hx.imp (fun _ _ _ hk => ⟨hk, justified_iff.2 (.inr (.inl (tooOld_mono hk.1 hold)))⟩)
    fun _ _ _ _ hk => hk

theorem learns_getRetry : Learns a (.holds now (entry :: entries))
    (command (.getRetry page entry.id)) fun r =>
      if MAX_RETRIES ≤ r.retries then .done now entry entries
      else .holds now (entry :: entries) := by
  refine .request (fun _ _ _ _ => trivial) fun p i prog _ hs hk => ?_
  split_ifs with hmax
  · refine ⟨hk, justified_iff.2 (.inr (.inr (.inl ?_)))⟩
    change MAX_RETRIES ≤ (((p.1.store.pages.get? page).bind
      (·.retryState.get? entry.id)).getD ⟨0, 0⟩).retries at hmax
    cases hr : (p.1.store.pages.get? page).bind (·.retryState.get? entry.id) with
    | none =>
      rw [hr] at hmax
      exact absurd hmax (by decide)
    | some r =>
      rw [hr] at hmax
      obtain ⟨x, hx, hget⟩ := Option.bind_eq_some_iff.1 hr
      exact hs.retries page x entry.id r hx hget hmax
  · exact hk

theorem learns_post : Learns a (.holds now (entry :: entries))
    (command (.post (some entry.id) entry.body))
    fun r => if r = .ok then .done now entry entries else .holds now (entry :: entries) := by
  refine .request (fun i s h hk => ⟨entry, hk.2 entry List.mem_cons_self⟩)
    fun p i prog _ hs hk => ?_
  have hheld := Held.grow hk (hs.grows (i := i) (a := a) (q := .post (some entry.id) entry.body))
  split_ifs with hok
  · have hg : guarantee i a (.post (some entry.id) entry.body) p.1.store p.2 :=
      ⟨entry, hk.2 entry List.mem_cons_self⟩
    obtain ⟨n, hn, -, -⟩ := hs.posted hg
    refine ⟨hheld, justified_iff.2 (.inl ⟨n, hn, ?_⟩)⟩
    rcases post_cases p.1.store (some entry.id) entry.body with ⟨-, -, hne⟩ | ⟨hstores, -, -⟩
    · exact absurd hok hne
    · change n ∈ (p.2.record p.1.store i a (.post (some entry.id) entry.body)).stored
      rw [Watch.record, hstores, hn, if_pos rfl]
      exact List.mem_append_right _ (List.mem_singleton_self n)
  · exact hheld

theorem learns_flushEntry : Learns a (.holds now (entry :: entries)) (flushEntry page now entry)
    fun _ => .holds now entries := by
  refine .ite (fun hold => learns_tooOld hold learns_drop) fun _ => ?_
  refine learns_getRetry.bind fun state => .ite (fun hmax => ?_) fun hmax => ?_
  · rw [if_pos hmax]
    exact learns_drop
  · rw [if_neg hmax]
    refine .ite (fun _ => learns_leave) fun _ => learns_post.bind fun r => ?_
    cases r with
    | ok => exact learns_drop
    | rejected | networkError => exact (learns_quiet (by trivial) _).bind fun _ => learns_leave

theorem learns_syncEntry : Learns a (.holds now (entry :: entries)) (syncEntry now entry)
    fun _ => .holds now entries := by
  refine .ite (fun hold => learns_tooOld hold learns_delete) fun _ => learns_post.bind fun r => ?_
  cases r with
  | ok => exact learns_delete
  | rejected | networkError => exact learns_leave

/-- The entries of a flush in turn. -/
theorem learns_forEntries {f : OutboxEntry → Procedure Unit}
    (hf : ∀ entry entries, Learns a (.holds now (entry :: entries)) (f entry) fun _ =>
      .holds now entries) (entries : List OutboxEntry) :
    Learns a (.holds now entries) (forEntries f entries) fun _ => .nothing := by
  induction entries with
  | nil => exact .pure fun _ _ _ _ => trivial
  | cons entry entries ih => exact (hf entry entries).bind fun _ => ih

theorem learns_readOutbox : Learns a .nothing (command .readOutbox) fun r => .holds r.2 r.1 := by
  refine .request (fun _ _ _ _ => trivial) fun p i prog _ hs _ => ⟨Nat.le_refl _, fun e he => ?_⟩
  obtain ⟨⟨id, x⟩, hmem, rfl⟩ := mem_getAll.1 he
  have hx := hs.pending id x (InsMap.get?_eq_some_iff.2 hmem)
  obtain ⟨-, hid, -⟩ := hs.entries id x hx
  exact hid ▸ hx

/-- The end of a request that was received. -/
theorem learns_reply {q : Command} (hq : q.Quiet) (reply : Reply) :
    Learns a .nothing (do let _ ← command q; return reply) fun _ => .nothing :=
  (learns_quiet hq _).bind fun _ => .pure fun _ _ _ _ => trivial

theorem learns_flushOutboxPending :
    Learns a .nothing (flushOutboxPending page) fun _ => .nothing := by
  refine (learns_quiet (by trivial) _).bind fun free => .ite (fun _ => ?_) fun _ => ?_
  · exact .pure fun _ _ _ _ => trivial
  · refine learns_readOutbox.bind fun r => ?_
    exact (learns_forEntries (fun _ _ => learns_flushEntry) r.1).bind fun _ =>
      learns_reply (by trivial) _

theorem learns_sync : Learns a .nothing sync fun _ => .nothing := by
  refine (learns_quiet (by trivial) _).bind fun clients => .ite (fun _ => ?_) fun _ => ?_
  · exact .pure fun _ _ _ _ => trivial
  · refine learns_readOutbox.bind fun r => ?_
    exact (learns_forEntries (fun _ _ => learns_syncEntry) r.1).bind fun _ =>
      .pure fun _ _ _ _ => trivial

theorem learns_activateVaultSession (account : Account) : Learns (.unlock page account) .nothing
    (activateVaultSession page account) fun _ => .nothing := by
  refine (learns_quiet (by trivial) _).bind fun _ => learns_readOutbox.bind fun r => ?_
  refine (learns_forEntries (fun entry entries => .ite (fun hstale => ?_) fun _ => learns_leave)
    r.1).bind fun _ => .pure fun _ _ _ _ => trivial
  exact learns_delete.imp
    (fun _ _ _ hk => ⟨hk, justified_iff.2 (.inr (.inr (.inr hstale)))⟩) fun _ _ _ _ hk => hk

/-! ### Messages -/

theorem learns_postNew (body : Body) : Learns a .unsent (command (.post none body))
    fun r => if r = .networkError then .unsent else .nothing := by
  refine .request (fun _ _ _ hk => hk) fun p i prog _ hs hk => ?_
  split_ifs with hfailed
  · obtain ⟨n, hn, horigin, hstored⟩ := hk
    refine ⟨n, hn, horigin, ?_⟩
    change (p.2.record p.1.store i a (.post none body)).inTurn = true →
      n ∉ (p.2.record p.1.store i a (.post none body)).stored
    rw [Watch.record]
    intro hturn
    obtain ⟨hturn, hinTurn⟩ := Bool.and_eq_true_iff.1 hturn
    rcases post_cases p.1.store none body with ⟨hstores, -, -⟩ | ⟨-, -, hok | hlost⟩
    · rw [hstores]
      exact hstored hturn
    · exact absurd (hfailed.symm.trans hok) (by simp)
    · exact absurd hlost (of_decide_eq_true hinTurn).1
  · trivial

theorem learns_enqueue (body : Body) (key : Option Jwk) :
    Learns a .unsent (command (.enqueue body key)) fun _ => .nothing :=
  .request (fun _ _ _ hk => hk) fun _ _ _ _ _ _ => trivial

theorem learns_send (body : Body) : Learns a .unsent (send page body) fun _ => .nothing := by
  refine (learns_quiet (by trivial) _).bind fun account => ?_
  cases account with
  | none => exact .pure fun _ _ _ _ => trivial
  | some account =>
    refine (learns_postNew body).bind fun r => ?_
    cases r with
    | ok | rejected => exact .pure fun _ _ _ _ => trivial
    | networkError => exact (learns_enqueue body _).bind fun _ => .pure fun _ _ _ _ => trivial

/-- What a request knows when it is received. -/
def Request.knowledge : Request → Knowledge
  | .send _ _ => .unsent
  | _ => .nothing

theorem learns_handle (a : Request) : Learns a a.knowledge (handle a) fun _ => .nothing := by
  cases a with
  | send page body => exact learns_send body
  | flush page => exact learns_flushOutboxPending
  | sync => exact learns_sync
  | unlock page account => exact learns_activateVaultSession account
  | logout page => exact (learns_quiet (by trivial) _).bind fun _ => learns_reply (by trivial) _
  | login | expireSession | openPage | closePage | setLink | elapse =>
    exact learns_reply (by trivial) _

end

/-! ## Every run -/

theorem Sound.start {s : Store} (hs : s.IsInitial) : Sound s watching.start where
  entries _ _ hx := by cases hx
  pending id x hx := by
    rw [hs.1] at hx
    cases hx
  origin _ _ hn := by cases hn
  origin_inj _ _ _ hn := by cases hn
  message _ _ hn := by cases hn
  message_inj _ _ _ hn := by cases hn
  stored _ hn := by cases hn
  rows := by
    rw [hs.2.2]
    rfl
  retries page x _ _ hx := by
    rw [hs.2.1] at hx
    cases hx
  once _ := List.nodup_nil
  unsent _ _ _ _ _ hn := by cases hn
  removed _ hr := by cases hr
  kept _ _ hx := by cases hx

/-- A message that is sent has a number of its own. -/
theorem Sound.receive {p : State × Watch} {a : Request} (hs : Sound p.1.store p.2) :
    Sound p.1.store (watching.receive p.1 a p.2) := by
  cases a with
  | send page body =>
    have hset : ∀ {i n}, (p.2.message.set p.1.received p.2.sends).get? i = some n →
        (i = p.1.received ∧ n = p.2.sends) ∨ p.2.message.get? i = some n := by
      intro i n hn
      rw [InsMap.get?_set] at hn
      split_ifs at hn with hi
      · exact .inl ⟨hi, (Option.some.inj hn).symm⟩
      · exact .inr hn
    refine ⟨hs.entries, hs.pending, fun id n hn => ?_, hs.origin_inj, fun i n hn => ?_,
      fun i j n hi hj => ?_, fun n hn => Nat.lt_succ_of_lt (hs.stored n hn), hs.rows, hs.retries,
      hs.once, hs.unsent, hs.removed, hs.kept⟩
    · obtain ⟨hlt, hsends⟩ := hs.origin id n hn
      exact ⟨hlt, Nat.lt_succ_of_lt hsends⟩
    · rcases hset hn with ⟨-, rfl⟩ | hn
      · exact Nat.lt_succ_self _
      · exact Nat.lt_succ_of_lt (hs.message i n hn)
    · rcases hset hi with ⟨rfl, rfl⟩ | hi <;> rcases hset hj with ⟨rfl, heq⟩ | hj
      · rfl
      · exact absurd (hs.message j _ hj) (Nat.lt_irrefl _)
      · exact absurd (heq ▸ hs.message i n hi) (Nat.lt_irrefl _)
      · exact hs.message_inj i j n hi hj
  | _ => exact hs

theorem knows_receive {p : State × Watch} {a b : Request} {k : Knowledge} {j : ℕ}
    (hj : j < p.1.received) (hk : knows k j b p.1.store p.2) :
    knows k j b p.1.store (watching.receive p.1 a p.2) := by
  cases a with
  | send page body =>
    cases k with
    | unsent =>
      obtain ⟨n, hn, hrest⟩ := hk
      exact ⟨n, (InsMap.get?_set_ne _ _ (Nat.ne_of_lt hj)).trans hn, hrest⟩
    | _ => exact hk
  | _ => exact hk

theorem sound {p : State × Watch} (hp : watched.Reachable p) : Sound p.1.store p.2 := by
  have hp' : (watched.restrict (Guarded (fun _ _ => True) fun _ _ _ _ => True)).Reachable p := by
    refine hp.restrict fun p e => ?_
    cases e with
    | receive a => trivial
    | serve i => exact fun _ _ => trivial
  refine Service.knowledge Sound guarantee knows (fun _ => Sound.start) (fun p a _ hs => ?_)
    (fun _ _ _ _ _ _ _ hj hk => knows_receive hj hk) (fun _ _ _ _ _ _ hs hg => hs.record hg)
    (fun _ _ _ _ _ _ hs hg k _ _ hji _ hk => knows_other hs hg k hji hk) hp'
  refine ⟨hs.receive, (learns_handle a).sure ?_⟩
  cases a with
  | send page body =>
    refine ⟨p.2.sends, InsMap.get?_set_self _ _ _, fun id hid => ?_, fun _ hmem => ?_⟩
    · exact Nat.lt_irrefl _ (hs.origin id _ hid).2
    · exact Nat.lt_irrefl _ (hs.stored _ hmem)
  | _ => trivial

/-- The outbox delivers once: in every run, each row of the server is of a message that was sent,
    and a queued entry is in the outbox unless it has disappeared for a reason; and if every post
    was in turn, no message is stored twice. -/
theorem delivery_of_run {p : State × Watch} (hp : watched.Reachable p) :
    p.2.stored.length = p.1.store.messages.length ∧
    (p.2.inTurn = true → p.2.stored.Nodup) ∧
    ∀ id x, p.2.entries.get? id = some x →
      p.1.store.pending.get? id = some x ∨ ∃ r ∈ p.2.removed, r.entry = x ∧ r.Justified := by
  have hs := sound hp
  refine ⟨hs.rows, hs.once, fun id x hx => (hs.kept id x hx).imp_right ?_⟩
  rintro ⟨r, hr, hrx⟩
  exact ⟨r, hr, hrx, hs.removed r hr⟩

namespace Sample

def store : Store := ⟨∅, 0, [], none, ∅, ∅, .up, 0, id⟩

def start : State × Watch := (.start store, watching.start)

/-- Two pages, one of which has unlocked an account. -/
def signedIn : List (Event Request) :=
  whole 0 (.openPage 1) 1 ++ whole 1 (.openPage 2) 1 ++ whole 2 (.login 7) 1 ++
    whole 3 (.unlock 1 ⟨7, 3⟩) 2

/-- The answer to a message is lost, and the message is sent again. -/
def answerLost : List (Event Request) :=
  signedIn ++ whole 4 (.setLink .losesAnswer) 1 ++ whole 5 (.send 1 0) 3 ++
    whole 6 (.setLink .up) 1 ++ whole 7 (.flush 1) 4

/-- A message is queued, and both pages flush the outbox. -/
def bothFlush : List (Event Request) :=
  signedIn ++ whole 4 (.setLink .down) 1 ++ whole 5 (.send 1 0) 3 ++ whole 6 (.setLink .up) 1 ++
    whole 7 (.flush 1) 2 ++ whole 8 (.flush 2) 4 ++ [.serve 7, .serve 7]

/-- A message is queued and posted again by one page, and another is dropped for its key. -/
def inTurn : List (Event Request) :=
  signedIn ++ whole 4 (.setLink .down) 1 ++ whole 5 (.send 1 0) 3 ++ whole 6 (.setLink .up) 1 ++
    whole 7 (.flush 1) 7 ++ whole 8 (.setLink .down) 1 ++ whole 9 (.send 1 0) 3 ++
    whole 10 (.unlock 1 ⟨7, 4⟩) 3

end Sample

/-- A message is stored twice when the answer to it is lost, and when two pages flush at once. -/
theorem stored_twice :
    (∃ p, watched.run Sample.start Sample.answerLost = some p ∧ p.2.stored = [0, 0]) ∧
    ∃ p, watched.run Sample.start Sample.bothFlush = some p ∧ p.2.stored = [0, 0] :=
  ⟨Option.map_eq_some_iff.1 (by decide), Option.map_eq_some_iff.1 (by decide)⟩

theorem delivery_of_run_inTurn :
    ∃ p, watched.run Sample.start Sample.inTurn = some p ∧
      p.2.stored.length = p.1.store.messages.length ∧
      (p.2.inTurn = true → p.2.stored.Nodup) ∧
      ∀ id x, p.2.entries.get? id = some x →
        p.1.store.pending.get? id = some x ∨ ∃ r ∈ p.2.removed, r.entry = x ∧ r.Justified := by
  obtain ⟨p, hrun, hp⟩ := Machine.exists_reachable
    (by decide : (watched.run Sample.start Sample.inTurn).isSome)
    ⟨⟨Sample.store, ⟨rfl, rfl, rfl⟩, rfl⟩, rfl⟩
  exact ⟨p, hrun, delivery_of_run hp⟩

end OneToThree.Outbox
