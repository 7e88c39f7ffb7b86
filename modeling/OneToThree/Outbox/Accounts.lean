import OneToThree.Lib.Knowledge
import OneToThree.Outbox.Queue

/-!
# The accounts of the outbox

The outbox belongs to the browser, and a flush posts what is in it under the session that there is.
It is not wiped with the rest when its user logs out, the key on an entry is compared only when a
vault is unlocked, and a flush may have read the entries before that. So entries are posted under
the session of another account, under none, or sealed under a key that was replaced
(`posted_as_another`).

`accounts_of_run`: in a run in which a flush reads entries only under the session that queued them,
with the key they are sealed under, and neither changes while a flush is about to post them
(`Steady`), every entry is posted as the account and key that queued it.
-/

namespace OneToThree.Outbox.Accounts

open Service

abbrev State := Service.State Store Command Command.Result Request Reply

/-- By whom an entry was queued, and the key it is stamped with. -/
structure Queued where
  userId : UserId
  key : Jwk
  deriving DecidableEq

/-- A post of an entry: the session that it is made under, and the active key of its user. -/
structure Posting where
  queued : Option Queued
  session : Option UserId
  activeKey : Option Jwk
  deriving DecidableEq

/-- It is made as the account and key that queued it. -/
def Posting.Rightful (x : Posting) : Prop :=
  ∃ queued ∈ x.queued, x.session = some queued.userId ∧ x.activeKey = some queued.key

instance (x : Posting) : Decidable x.Rightful := by
  unfold Posting.Rightful
  infer_instance

structure Watch where
  /-- The user whose message a request sends. -/
  senders : InsMap ℕ UserId
  queued : InsMap EntryId Queued
  /-- The entries that a flush has read and is yet to post. -/
  held : InsMap ℕ (List EntryId)
  posted : List Posting

/-- The requests that post the entries. -/
def Flushes : Request → Prop
  | .flush _ | .sync => True
  | _ => False

instance : DecidablePred Flushes
  | .flush _ | .sync => instDecidableTrue
  | .send _ _ | .unlock _ _ | .login _ | .logout _ | .expireSession | .openPage _ | .closePage _
  | .setLink _ | .elapse _ => instDecidableFalse

namespace Watch

/-- An entry, as it would be posted. -/
def posting (h : Watch) (s : Store) (id : EntryId) : Posting :=
  ⟨h.queued.get? id, s.session, (h.queued.get? id).bind fun x => s.activeKey.get? x.userId⟩

/-- A request has posted or deleted an entry. -/
def release (h : Watch) (i : ℕ) (id : EntryId) : InsMap ℕ (List EntryId) :=
  match h.held.get? i with
  | some ids => h.held.set i (ids.filter (· ≠ id))
  | none => h.held

def record (h : Watch) (s : Store) (i : ℕ) (a : Request) : Command → Watch
  | .getAccount page =>
    match (s.answer (.getAccount page)).1 with
    | some account => { h with senders := h.senders.set i account.userId }
    | none => h
  | .enqueue _ key =>
    { h with
      queued :=
        match (h.senders.get? i).bind fun user => key.map (Queued.mk user) with
        | some x => h.queued.set s.uuids x
        | none => h.queued }
  | .readOutbox =>
    if Flushes a then { h with held := h.held.set i (s.pending.entries.map (·.2.id)) } else h
  | .post (some id) _ =>
    { h with held := h.release i id, posted := h.posted ++ [h.posting s id] }
  | .delete id => { h with held := h.release i id }
  | _ => h

end Watch

def watching : History Store Command Command.Result Request Reply Watch where
  start := ⟨∅, ∅, ∅, []⟩
  receive _ _ h := h
  serve s i a q _ h := h.record s.store i a q

/-- The entries that flushes in flight hold are still posted rightfully in the store `s'`. -/
def Keeps (p : State × Watch) (s' : Store) : Prop :=
  ∀ x ∈ p.2.held.entries, p.1.tasks.has x.1 = true → ∀ id ∈ x.2, (p.2.posting s' id).Rightful

instance (p : State × Watch) (s' : Store) : Decidable (Keeps p s') := by
  unfold Keeps
  infer_instance

/-- The steps that do not change the account or the key of what is posted: a flush reads entries
    that it posts rightfully, and no session or key changes while one does. -/
def Steady (p : State × Watch) (_ : ℕ) (a : Request) : Command → Prop
  | .readOutbox => Flushes a →
    ∀ e ∈ p.1.store.pending.entries, (p.2.posting p.1.store e.2.id).Rightful
  | .login user => Keeps p (p.1.store.answer (.login user)).2
  | .logoutApi => Keeps p (p.1.store.answer .logoutApi).2
  | .expireSession => Keeps p (p.1.store.answer .expireSession).2
  | .setAccount page account => Keeps p (p.1.store.answer (.setAccount page account)).2
  | _ => True

instance (p : State × Watch) (i : ℕ) (a : Request) : ∀ q, Decidable (Steady p i a q)
  | .readOutbox | .login _ | .logoutApi | .expireSession | .setAccount _ _ => by
    unfold Steady
    infer_instance
  | .openPage _ | .closePage _ | .clients | .reset _ | .getAccount _ | .post _ _ | .enqueue _ _
  | .delete _ | .beginFlush _ | .endFlush _ | .getRetry _ _ | .setRetry _ _ _ | .deleteRetry _ _
  | .setLink _ | .elapse _ => instDecidableTrue

/-- The runs of the outbox in which flushes and accounts do not meet. -/
abbrev steady : Machine (State × Watch) (Event Request) :=
  (outbox.recorded watching Store.IsInitial).restrict (Guarded (fun _ _ => True) Steady)

/-! ## What is known -/

structure Sound (s : Store) (h : Watch) : Prop where
  queued : ∀ id x, h.queued.get? id = some x → id < s.uuids
  pending : ∀ id x, s.pending.get? id = some x → x.id = id
  posted : ∀ x ∈ h.posted, x.Rightful

/-- What a request has learnt. -/
inductive Knowledge
  | nothing
  /-- It holds these entries, -/
  | holds (ids : List EntryId)
  /-- and another one no longer. -/
  | left (id : EntryId) (ids : List EntryId)

/-- A request holds entries, which would be posted rightfully. -/
def Holds (i : ℕ) (ids : List EntryId) (s : Store) (h : Watch) : Prop :=
  ids.Nodup ∧ ∃ held, h.held.get? i = some held ∧
    ∀ id ∈ ids, id ∈ held ∧ (h.posting s id).Rightful

def knows : Knowledge → ℕ → Request → Store → Watch → Prop
  | .nothing, _, _, _, _ => True
  | .holds ids, i, _, s, h => Holds i ids s h
  | .left id ids, i, _, s, h => id ∉ ids ∧ Holds i ids s h

/-- What a request guarantees to the others. -/
def guarantee (_ : ℕ) (_ : Request) : Command → Store → Watch → Prop
  | .post (some id) _, s, h => (h.posting s id).Rightful
  | _, _, _ => True

section
variable {s : Store} {h : Watch} {i j : ℕ} {a b : Request} {q : Command} {id : EntryId}

theorem rightful_iff : (h.posting s id).Rightful ↔ ∃ x, h.queued.get? id = some x ∧
    s.session = some x.userId ∧ s.activeKey.get? x.userId = some x.key := by
  rw [Posting.Rightful, Watch.posting]
  constructor
  · rintro ⟨x, hx, hsession, hkey⟩
    have hx' : h.queued.get? id = some x := hx
    refine ⟨x, hx', hsession, ?_⟩
    rwa [hx', Option.bind_some] at hkey
  · rintro ⟨x, hx, hsession, hkey⟩
    refine ⟨x, hx, hsession, ?_⟩
    rw [hx, Option.bind_some]
    exact hkey

/-- The commands that change the session or a key. -/
def Moves : Command → Prop
  | .login _ | .logoutApi | .expireSession | .setAccount _ _ => True
  | _ => False

theorem account_answer (hq : ¬Moves q) :
    (s.answer q).2.session = s.session ∧ (s.answer q).2.activeKey = s.activeKey := by
  cases q with
  | login | logoutApi | expireSession | setAccount => exact absurd trivial hq
  | openPage page =>
    rw [Store.answer]
    dsimp only
    split_ifs <;> exact ⟨rfl, rfl⟩
  | post entry body =>
    rcases post_cases s entry body with ⟨-, hs, -⟩ | ⟨-, ⟨row, hs⟩, -⟩ <;> rw [hs] <;>
      exact ⟨rfl, rfl⟩
  | reset | beginFlush | endFlush | setRetry | deleteRetry =>
    exact ⟨session_modifyPage _ _, activeKey_modifyPage _ _⟩
  | _ => exact ⟨rfl, rfl⟩

/-- What was queued stays so. -/
theorem queued_record (hs : Sound s h) {x : Queued} (hx : h.queued.get? id = some x) :
    (h.record s i a q).queued.get? id = some x := by
  cases q with
  | getAccount page =>
    rw [Watch.record]
    split <;> exact hx
  | enqueue body key =>
    rw [Watch.record]
    dsimp only
    split
    · exact (InsMap.get?_set_ne _ _ (Nat.ne_of_lt (hs.queued id x hx))).trans hx
    · exact hx
  | readOutbox =>
    rw [Watch.record]
    split_ifs <;> exact hx
  | post entry body => cases entry <;> exact hx
  | _ => exact hx

theorem release_ne (hji : j ≠ i) : (h.release i id).get? j = h.held.get? j := by
  rw [Watch.release]
  split
  · exact InsMap.get?_set_ne _ _ hji
  · rfl

/-- What the other requests hold stays so. -/
theorem held_record (hji : j ≠ i) : (h.record s i a q).held.get? j = h.held.get? j := by
  cases q with
  | getAccount page =>
    rw [Watch.record]
    split <;> rfl
  | readOutbox =>
    rw [Watch.record]
    split_ifs
    · exact InsMap.get?_set_ne _ _ hji
    · rfl
  | post entry body =>
    cases entry with
    | none => rfl
    | some id => exact release_ne hji
  | delete id => exact release_ne hji
  | _ => rfl

/-- An entry that is posted rightfully goes on to be, unless the session or a key changes. -/
theorem rightful_record (hs : Sound s h) (hq : ¬Moves q) (hid : (h.posting s id).Rightful) :
    ((h.record s i a q).posting (s.answer q).2 id).Rightful := by
  obtain ⟨x, hx, hsession, hkey⟩ := rightful_iff.1 hid
  obtain ⟨hsession', hkey'⟩ := account_answer (s := s) hq
  exact rightful_iff.2 ⟨x, queued_record hs hx, hsession'.trans hsession, hkey' ▸ hkey⟩

/-- What is known of the outbox is kept by every command. -/
theorem Sound.record (hs : Sound s h) (hg : guarantee i a q s h) :
    Sound (s.answer q).2 (h.record s i a q) := by
  have hsame : ∀ {s' : Store}, s'.pending = s.pending → s'.uuids = s.uuids → Sound s' h :=
    fun hpending huuids => ⟨huuids ▸ hs.queued, hpending ▸ hs.pending, hs.posted⟩
  have hmodify : ∀ page f, Sound (s.modifyPage page f) h :=
    fun page f => hsame (pending_modifyPage _ _) (uuids_modifyPage _ _)
  cases q with
  | openPage page =>
    refine hsame ?_ ?_ <;> rw [Store.answer] <;> dsimp only <;> split_ifs <;> rfl
  | logoutApi =>
    refine hsame ?_ ?_ <;> rw [Store.answer] <;> dsimp only <;> split <;> rfl
  | setAccount page account =>
    have hs' := hmodify page fun x => { x with account := some account }
    exact ⟨hs'.queued, hs'.pending, hs'.posted⟩
  | reset | beginFlush | endFlush | setRetry | deleteRetry => exact hmodify _ _
  | getAccount page =>
    rw [Watch.record]
    split <;> exact ⟨hs.queued, hs.pending, hs.posted⟩
  | enqueue body key =>
    have hpending : ∀ id x, (s.answer (.enqueue body key)).2.pending.get? id = some x →
        x.id = id := by
      intro id x hx
      change (s.pending.set s.uuids _).get? id = some x at hx
      rw [InsMap.get?_set] at hx
      split_ifs at hx with hid
      · cases hx
        exact hid.symm
      · exact hs.pending id x hx
    refine ⟨fun id x hx => ?_, hpending, hs.posted⟩
    rw [Watch.record] at hx
    dsimp only at hx
    split at hx
    · rw [InsMap.get?_set] at hx
      split_ifs at hx with hid
      · exact hid ▸ Nat.lt_succ_self _
      · exact Nat.lt_succ_of_lt (hs.queued id x hx)
    · exact Nat.lt_succ_of_lt (hs.queued id x hx)
  | readOutbox =>
    rw [Watch.record]
    split_ifs <;> exact ⟨hs.queued, hs.pending, hs.posted⟩
  | post entry body =>
    have hs' : Sound (s.answer (.post entry body)).2 h := by
      rcases post_cases s entry body with ⟨-, hanswer, -⟩ | ⟨-, ⟨row, hanswer⟩, -⟩ <;>
        rw [hanswer]
      · exact hs
      · exact hsame rfl rfl
    cases entry with
    | none => exact hs'
    | some id =>
      refine ⟨hs'.queued, hs'.pending, fun x hx => ?_⟩
      rcases List.mem_append.1 hx with hx | hx
      · exact hs.posted x hx
      · exact List.mem_singleton.1 hx ▸ hg
  | delete id =>
    refine ⟨hs.queued, fun id' x hx => ?_, hs.posted⟩
    change (s.pending.delete id).get? id' = some x at hx
    rw [InsMap.get?_delete] at hx
    split_ifs at hx
    exact hs.pending id' x hx
  | _ => exact ⟨hs.queued, hs.pending, hs.posted⟩

end

section
variable {p : State × Watch} {i j : ℕ} {a : Request} {q : Command} {ids : List EntryId}

/-- What a request in flight holds is kept by the others. -/
theorem Holds.other (hs : Sound p.1.store p.2) (hok : Steady p i a q) (hji : j ≠ i)
    (hj : p.1.tasks.has j = true) (hk : Holds j ids p.1.store p.2) :
    Holds j ids (p.1.store.answer q).2 (p.2.record p.1.store i a q) := by
  obtain ⟨hnodup, held, hheld, hids⟩ := hk
  refine ⟨hnodup, held, (held_record hji).trans hheld, fun id hid => ⟨(hids id hid).1, ?_⟩⟩
  by_cases hq : Moves q
  · have hkeeps : Keeps p (p.1.store.answer q).2 ∧ p.2.record p.1.store i a q = p.2 := by
      cases q with
      | login | logoutApi | expireSession | setAccount => exact ⟨hok, rfl⟩
      | _ => exact hq.elim
    rw [hkeeps.2]
    exact hkeeps.1 (j, held) (InsMap.get?_eq_some_iff.1 hheld) hj id (hids id hid).1
  · exact rightful_record hs hq (hids id hid).2

theorem knows_other (hs : Sound p.1.store p.2) (hok : Steady p i a q) (k : Knowledge) (b : Request)
    (hji : j ≠ i) (hj : p.1.tasks.has j = true) (hk : knows k j b p.1.store p.2) :
    knows k j b (p.1.store.answer q).2 (p.2.record p.1.store i a q) := by
  cases k with
  | nothing => trivial
  | holds ids => exact Holds.other hs hok hji hj hk
  | left id ids => exact ⟨hk.1, hk.2.other hs hok hji hj⟩

/-- The commands that release no entry of a request leave what it holds. -/
theorem Holds.keep (hk : Holds i ids p.1.store p.2) (hs : Sound p.1.store p.2) (hq : ¬Moves q)
    (hheld : ∀ held, p.2.held.get? i = some held → ∃ held',
      (p.2.record p.1.store i a q).held.get? i = some held' ∧ ∀ id ∈ ids, id ∈ held → id ∈ held') :
    Holds i ids (p.1.store.answer q).2 (p.2.record p.1.store i a q) := by
  obtain ⟨hnodup, held, hget, hids⟩ := hk
  obtain ⟨held', hget', hsub⟩ := hheld held hget
  exact ⟨hnodup, held', hget', fun id hid =>
    ⟨hsub id hid (hids id hid).1, rightful_record hs hq (hids id hid).2⟩⟩

/-- An entry that is released leaves the others. -/
theorem Holds.release {id : EntryId} (hid : id ∉ ids) (hk : Holds i ids p.1.store p.2)
    (hs : Sound p.1.store p.2) (hq : ¬Moves q)
    (hrecord : (p.2.record p.1.store i a q).held = p.2.release i id) :
    Holds i ids (p.1.store.answer q).2 (p.2.record p.1.store i a q) := by
  refine hk.keep hs hq fun held hheld => ⟨held.filter (· ≠ id), ?_, fun id' hid' hmem => ?_⟩
  · rw [hrecord, Watch.release, hheld]
    exact InsMap.get?_set_self _ _ _
  · have hne : id' ≠ id := fun heq => hid (heq ▸ hid')
    exact List.mem_filter.2 ⟨hmem, decide_eq_true hne⟩

theorem Holds.left {id : EntryId} {s : Store} {h : Watch} (hk : Holds i (id :: ids) s h) :
    id ∉ ids ∧ Holds i ids s h := by
  obtain ⟨hnodup, held, hheld, hids⟩ := hk
  obtain ⟨hid, hnodup⟩ := List.nodup_cons.1 hnodup
  exact ⟨hid, hnodup, held, hheld, fun id hid => hids id (List.mem_cons_of_mem _ hid)⟩

theorem Holds.head {id : EntryId} {s : Store} {h : Watch} (hk : Holds i (id :: ids) s h) :
    (h.posting s id).Rightful := by
  obtain ⟨-, held, -, hids⟩ := hk
  exact (hids id List.mem_cons_self).2

end

/-! ## What the requests learn -/

abbrev Learns {α : Type} (a : Request) (k : Knowledge) (x : Procedure α) (fin : α → Knowledge) :
    Prop :=
  Triple outbox watching Steady Sound guarantee knows a k x fin

section
variable {a : Request} {page : PageId} {now : ℕ} {entry : OutboxEntry} {id : EntryId}
  {ids : List EntryId}

/-- The commands other than posts of entries. -/
theorem learns_nothing {q : Command} (hq : ∀ id body, q ≠ .post (some id) body) :
    Learns a .nothing (command q) fun _ => .nothing := by
  refine .request (fun i s h _ => ?_) fun _ _ _ _ _ _ => trivial
  cases q with
  | post entry body =>
    cases entry with
    | none => trivial
    | some id => exact absurd rfl (hq id body)
  | _ => trivial

theorem learns_getRetry : Learns a (.holds ids) (command (.getRetry page id)) fun _ =>
    .holds ids :=
  .request (fun _ _ _ _ => trivial) fun _ _ _ _ hs hk =>
    Holds.keep hk hs not_false fun held hheld => ⟨held, hheld, fun _ _ h => h⟩

theorem learns_setRetry {retries : ℕ} : Learns a (.left id ids)
    (command (.setRetry page id retries)) fun _ => .holds ids :=
  .request (fun _ _ _ _ => trivial) fun _ _ _ _ hs hk =>
    hk.2.keep hs not_false fun held hheld => ⟨held, hheld, fun _ _ h => h⟩

theorem learns_deleteRetry : Learns a (.holds ids) (command (.deleteRetry page id)) fun _ =>
    .holds ids :=
  .request (fun _ _ _ _ => trivial) fun _ _ _ _ hs hk =>
    Holds.keep hk hs not_false fun held hheld => ⟨held, hheld, fun _ _ h => h⟩

theorem learns_post {body : Body} : Learns a (.holds (id :: ids))
    (command (.post (some id) body)) fun _ => .left id ids :=
  .request (fun _ _ _ hk => Holds.head hk) fun p i _ _ hs hk => by
    obtain ⟨hid, hk⟩ := Holds.left hk
    exact ⟨hid, Holds.release (a := a) hid hk hs not_false rfl⟩

theorem learns_delete : Learns a (.left id ids) (command (.delete id)) fun _ => .holds ids :=
  .request (fun _ _ _ _ => trivial) fun _ _ _ _ hs hk => hk.2.release hk.1 hs not_false rfl

/-- An entry that is left in the outbox. -/
theorem learns_leave : Learns a (.left id ids) (pure ()) fun _ => .holds ids :=
  .pure fun _ _ _ hk => hk.2

theorem learns_drop : Learns a (.left id ids) (drop page id) fun _ => .holds ids :=
  learns_delete.bind fun _ => learns_deleteRetry

/-- An entry that is not posted is no longer held. -/
theorem learns_skip {x : Procedure Unit} (hx : Learns a (.left id ids) x fun _ => .holds ids) :
    Learns a (.holds (id :: ids)) x fun _ => .holds ids :=
  hx.imp (fun _ _ _ hk => Holds.left hk) fun _ _ _ _ hk => hk

theorem learns_flushEntry : Learns a (.holds (entry.id :: ids)) (flushEntry page now entry)
    fun _ => .holds ids := by
  refine .ite (fun _ => learns_skip learns_drop) fun _ => learns_getRetry.bind fun state => ?_
  refine .ite (fun _ => learns_skip learns_drop) fun _ => .ite (fun _ => learns_skip learns_leave)
    fun _ => learns_post.bind fun r => ?_
  cases r with
  | ok => exact learns_drop
  | rejected | networkError => exact learns_setRetry

theorem learns_syncEntry : Learns a (.holds (entry.id :: ids)) (syncEntry now entry)
    fun _ => .holds ids := by
  refine .ite (fun _ => learns_skip learns_delete) fun _ => learns_post.bind fun r => ?_
  cases r with
  | ok => exact learns_delete
  | rejected | networkError => exact learns_leave

/-- The entries of a flush in turn. -/
theorem learns_forEntries {f : OutboxEntry → Procedure Unit}
    (hf : ∀ (entry : OutboxEntry) ids, Learns a (.holds (entry.id :: ids)) (f entry) fun _ =>
      .holds ids) (entries : List OutboxEntry) :
    Learns a (.holds (entries.map (·.id))) (forEntries f entries) fun _ => .nothing := by
  induction entries with
  | nil => exact .pure fun _ _ _ _ => trivial
  | cons entry entries ih => exact (hf entry _).bind fun _ => ih

/-- A flush holds what it reads. -/
theorem learns_readOutbox (ha : Flushes a) :
    Learns a .nothing (command .readOutbox) fun r => .holds (r.1.map (·.id)) := by
  refine .request (fun _ _ _ _ => trivial) fun p i prog hok hs _ => ?_
  have hids : (p.1.store.pending.entries.map (·.2)).map (·.id) =
      p.1.store.pending.entries.map (·.1) := by
    rw [List.map_map]
    refine List.map_congr_left fun e he => ?_
    exact hs.pending e.1 e.2 (InsMap.get?_eq_some_iff.2 he)
  have hperm := (List.perm_insertionSort (fun x y : OutboxEntry =>
    p.1.store.randomUUID x.id ≤ p.1.store.randomUUID y.id)
    (p.1.store.pending.entries.map (·.2))).map (·.id)
  change Holds i (p.1.store.getAll.map (·.id)) p.1.store (p.2.record p.1.store i a .readOutbox)
  rw [Watch.record, if_pos ha]
  refine ⟨hperm.nodup_iff.2 (hids ▸ p.1.store.pending.nodup), _, InsMap.get?_set_self _ _ _,
    fun id hid => ?_⟩
  obtain ⟨x, hx, rfl⟩ := List.mem_map.1 hid
  obtain ⟨e, he, rfl⟩ := mem_getAll.1 hx
  exact ⟨List.mem_map.2 ⟨e, he, rfl⟩, hok ha e he⟩

/-- The end of a request that was received. -/
theorem learns_reply {q : Command} (hq : ∀ id body, q ≠ .post (some id) body) (reply : Reply) :
    Learns a .nothing (do let _ ← command q; return reply) fun _ => .nothing :=
  (learns_nothing hq).bind fun _ => .pure fun _ _ _ _ => trivial

theorem learns_purge (key : Jwk) :
    Learns a .nothing (purgeOutboxStaleForKey key) fun _ => .nothing := by
  refine (learns_nothing (by simp)).bind fun r => ?_
  have hentries : ∀ entries : List OutboxEntry, Learns a .nothing (forEntries (fun entry =>
      if entry.staleFor key then command (.delete entry.id) else return ()) entries)
      fun _ => .nothing := by
    intro entries
    induction entries with
    | nil => exact .pure fun _ _ _ _ => trivial
    | cons entry entries ih =>
      refine Triple.bind (.ite (fun _ => learns_nothing (by simp)) fun _ => ?_) fun _ => ih
      exact .pure fun _ _ _ _ => trivial
  exact (hentries r.1).bind fun _ => .pure fun _ _ _ _ => trivial

theorem learns_handle (a : Request) : Learns a .nothing (handle a) fun _ => .nothing := by
  cases a with
  | send page body =>
    refine (learns_nothing (by simp)).bind fun account => ?_
    cases account with
    | none => exact .pure fun _ _ _ _ => trivial
    | some account =>
      refine (learns_nothing (by simp)).bind fun r => ?_
      cases r with
      | ok | rejected => exact .pure fun _ _ _ _ => trivial
      | networkError =>
        exact (learns_nothing (by simp)).bind fun _ => .pure fun _ _ _ _ => trivial
  | flush page =>
    refine (learns_nothing (by simp)).bind fun free => .ite (fun _ => ?_) fun _ => ?_
    · exact .pure fun _ _ _ _ => trivial
    · refine (learns_readOutbox (by trivial)).bind fun r => ?_
      exact (learns_forEntries (fun _ _ => learns_flushEntry) r.1).bind fun _ =>
        learns_reply (by simp) _
  | sync =>
    refine (learns_nothing (by simp)).bind fun clients => .ite (fun _ => ?_) fun _ => ?_
    · exact .pure fun _ _ _ _ => trivial
    · refine (learns_readOutbox (by trivial)).bind fun r => ?_
      exact (learns_forEntries (fun _ _ => learns_syncEntry) r.1).bind fun _ =>
        .pure fun _ _ _ _ => trivial
  | unlock page account => exact (learns_nothing (by simp)).bind fun _ => learns_purge _
  | logout page => exact (learns_nothing (by simp)).bind fun _ => learns_reply (by simp) _
  | login | expireSession | openPage | closePage | setLink | elapse =>
    exact learns_reply (by simp) _

end

/-! ## Every run -/

theorem Sound.start {s : Store} (hs : s.IsInitial) : Sound s watching.start where
  queued _ _ hx := by cases hx
  pending id x hx := by
    rw [hs.1] at hx
    cases hx
  posted _ hx := by cases hx

theorem sound {p : State × Watch} (hp : steady.Reachable p) : Sound p.1.store p.2 :=
  Service.knowledge Sound guarantee knows (fun _ => Sound.start)
    (fun _ a _ hs => ⟨hs, (learns_handle a).sure trivial⟩) (fun _ _ _ _ _ _ _ _ hk => hk)
    (fun _ _ _ _ _ _ hs hg => hs.record hg)
    (fun _ _ _ _ _ hok hs _ k _ b hji hj hk => knows_other hs hok k b hji hj hk) hp

/-- The outbox is sent by those who queued it: every entry is posted under a session of its user,
    whose active key is the one it is stamped with. -/
theorem accounts_of_run {p : State × Watch} (hp : steady.Reachable p) :
    ∀ x ∈ p.2.posted, x.Rightful :=
  (sound hp).posted

namespace Sample

def store : Store := ⟨∅, 0, [], none, ∅, ∅, .up, 0, id⟩

def start : State × Watch := (.start store, watching.start)

/-- The user 7 unlocks a page and queues a message. -/
def queued : List (Event Request) :=
  whole 0 (.openPage 1) 1 ++ whole 1 (.login 7) 1 ++ whole 2 (.unlock 1 ⟨7, 3⟩) 2 ++
    whole 3 (.setLink .down) 1 ++ whole 4 (.send 1 0) 3 ++ whole 5 (.setLink .up) 1

/-- The user logs out, and another one in. -/
def anotherUser : List (Event Request) :=
  queued ++ whole 6 (.logout 1) 2 ++ whole 7 (.login 8) 1 ++ whole 8 (.flush 1) 4

/-- The user logs out and closes the page, and the worker goes on with the outbox. -/
def noSession : List (Event Request) :=
  queued ++ whole 6 (.logout 1) 2 ++ whole 7 (.closePage 1) 1 ++ whole 8 .sync 3

/-- The vault is unlocked with another key, and the page flushes before the purge. -/
def anotherKey : List (Event Request) :=
  queued ++ whole 6 (.unlock 1 ⟨7, 4⟩) 1 ++ whole 7 (.flush 1) 4

/-- The user logs out and in again, and the page flushes then. -/
def same : List (Event Request) :=
  queued ++ whole 6 (.logout 1) 2 ++ whole 7 (.login 7) 1 ++ whole 8 (.unlock 1 ⟨7, 3⟩) 2 ++
    whole 9 (.flush 1) 7

end Sample

/-- An entry is posted under the session of another user, under none, and after its key was
    replaced. -/
theorem posted_as_another :
    (∃ p, (outbox.recorded watching Store.IsInitial).run Sample.start Sample.anotherUser = some p ∧
      p.2.posted = [⟨some ⟨7, 3⟩, some 8, some 3⟩]) ∧
    (∃ p, (outbox.recorded watching Store.IsInitial).run Sample.start Sample.noSession = some p ∧
      p.2.posted = [⟨some ⟨7, 3⟩, none, some 3⟩]) ∧
    ∃ p, (outbox.recorded watching Store.IsInitial).run Sample.start Sample.anotherKey = some p ∧
      p.2.posted = [⟨some ⟨7, 3⟩, some 7, some 4⟩] :=
  ⟨Option.map_eq_some_iff.1 (by decide), Option.map_eq_some_iff.1 (by decide),
    Option.map_eq_some_iff.1 (by decide)⟩

theorem accounts_of_run_same :
    ∃ p, steady.run Sample.start Sample.same = some p ∧ ∀ x ∈ p.2.posted, x.Rightful := by
  obtain ⟨p, hrun, hp⟩ := Machine.exists_reachable
    (by decide : (steady.run Sample.start Sample.same).isSome)
    ⟨⟨Sample.store, ⟨rfl, rfl, rfl⟩, rfl⟩, rfl⟩
  exact ⟨p, hrun, accounts_of_run hp⟩

end OneToThree.Outbox.Accounts
