import Mathlib.Data.String.Basic
import OneToThree.Chats.Direct

/-!
# One direct chat for two users

How many direct chats of the same two users the routes create, in every interleaving of their
statements.

* A request of `POST /chats` that is about to insert a chat holds the lock of the pair, and
  there is no chat of the two (`Claimed`). The lock keeps every other such request from
  breaking that (`pre`, an annotation of the statements).
* `POST /guest/enter-as-me` takes no lock, and looks only once, before it takes the seat: two
  chats of the same users come about (`created_twice`).

`unique_of_run`: there is one chat at most in every run in which each chat that
`POST /guest/enter-as-me` commits is `alone`: there is none of the two yet, and none that a
request of `POST /chats` is about to insert.
-/

namespace OneToThree.DirectChats

open Transactional

/-! ## When a chat is alone -/

/-- The members of the chat that a request of `POST /chats` creates. -/
def Request.uniqueIds : Request → List String
  | .postChats authId _ member_ids => authId :: (member_ids.find? (· ≠ authId)).toList
  | .enterAsMe _ _ _ => []

/-- A request that comes to this statement has looked for a chat, and has one to commit. -/
def inserting (q : Statement) (tx : Session) : Bool :=
  match q with
  | .insertChat _ | .insertMembers _ _ => true
  | .commit => tx.chats ≠ []
  | _ => false

/-- A request of `POST /chats` is about to commit a chat of these two. -/
def creating (a b : String) (t : Task Session Statement Statement.Result Request Reply) : Bool :=
  match t.program with
  | .ask q _ => (t.request.uniqueIds = [a, b] || t.request.uniqueIds = [b, a]) &&
      inserting q t.session
  | .done _ => false

/-- The states of the routes. -/
abbrev DirectState := State Db Session Statement Statement.Result Request Reply

/-- There is no other chat of its two users, and none that `POST /chats` is about to commit. -/
def alone (s : DirectState) (c : Chat) : Bool :=
  match c.members with
  | [a, b] => s.store.chats.all (fun x => !x.between a b) &&
      s.tasks.entries.all fun t => !creating a b t.2
  | _ => true

/-- The chats that the next statement of a request of `POST /guest/enter-as-me` commits. -/
def entering (t : Task Session Statement Statement.Result Request Reply) : List Chat :=
  match t.request, t.program with
  | .enterAsMe _ _ _, .ask .commit _ => t.session.chats
  | _, _ => []

/-- A chat that `POST /guest/enter-as-me` commits is alone. -/
def unraced (s : DirectState) : Event Request Tables → Bool
  | .serve i => (s.tasks.get? i).all fun t => (entering t).all (alone s)
  | _ => true

/-! ## Pairs -/

theorem directKey_comm (a b : String) : directKey a b = directKey b a := by
  rcases lt_trichotomy a b with h | rfl | h
  · rw [directKey, directKey, if_neg (lt_asymm h), if_pos h]
  · rfl
  · rw [directKey, directKey, if_pos h, if_neg (lt_asymm h)]

theorem Chat.between_comm (c : Chat) (a b : String) : c.between a b = c.between b a := by
  rw [Chat.between, Chat.between]
  ac_rfl

/-- The two users that a chat is between are its members. -/
theorem Chat.members_of_between {c : Chat} {a b : String} (hab : a ≠ b)
    (h : c.between a b = true) : c.members = [a, b] ∨ c.members = [b, a] := by
  simp only [Chat.between, Bool.and_eq_true, decide_eq_true_eq] at h
  obtain ⟨⟨⟨-, ha⟩, hb⟩, hlength⟩ := h
  obtain ⟨x, y, hxy⟩ := List.length_eq_two.1 hlength
  rw [hxy] at ha hb ⊢
  simp only [List.mem_cons, List.not_mem_nil, or_false] at ha hb
  rcases ha with rfl | rfl <;> rcases hb with rfl | rfl
  · exact absurd rfl hab
  · exact .inl rfl
  · exact .inr rfl
  · exact absurd rfl hab

theorem Request.uniqueIds_ne {r : Request} {a b : String} (h : r.uniqueIds = [a, b]) : a ≠ b := by
  cases r with
  | postChats authId name member_ids =>
    simp only [Request.uniqueIds, List.cons.injEq, Option.toList_eq_singleton_iff] at h
    obtain ⟨rfl, hfind⟩ := h
    have hb := List.find?_some hfind
    simp only [ne_eq, decide_not, Bool.not_eq_eq_eq_not, Bool.not_true,
      decide_eq_false_iff_not] at hb
    exact fun hab => hb hab.symm
  | enterAsMe _ _ _ => cases h

/-! ## The annotation -/

variable (hashtext : String → ℤ)

/-- The request holds the lock of the pair that it is about. -/
def Locked (r : Request) (i : ℕ) (db : Db) : Prop :=
  ∀ a b, r.uniqueIds = [a, b] → (hashtext (directKey a b), i) ∈ db.locks

/-- The lock is held, and there is no chat of the pair. -/
def Claimed (r : Request) (i : ℕ) (db : Db) : Prop :=
  Locked hashtext r i db ∧
    ∀ a b, r.uniqueIds = [a, b] → ∀ c ∈ db.chats, c.between a b = false

/-- The members that a request gives to a chat. -/
def Adds : Request → List String → Prop
  | .postChats authId name member_ids, ids =>
    ids = (Request.postChats authId name member_ids).uniqueIds
  | .enterAsMe _ _ _, ids => ids.length = 2

/-- What holds when a request comes to a statement, however it goes on from there. -/
def pre (r : Request) (q : Statement) (_ : q.Result → Route Reply) (i : ℕ) (db : Db)
    (tx : Session) : Prop :=
  match q with
  | .findExistingDirectE2EBetween _ _ => tx.chats = [] ∧ Locked hashtext r i db
  | .insertChat _ => tx.chats = [] ∧ Claimed hashtext r i db
  | .insertMembers chatId ids => (∃ name, tx.chats = [⟨chatId, .direct_e2e, name, []⟩]) ∧
      Claimed hashtext r i db ∧ Adds r ids
  | .commit => tx.chats = [] ∨
      ∃ c, tx.chats = [c] ∧ Claimed hashtext r i db ∧ Adds r c.members
  | _ => tx.chats = []

/-- A lock has one holder, and there is one created chat at most of any two users. -/
structure Inv (db : Db) : Prop where
  holder : ∀ k i j, (k, i) ∈ db.locks → (k, j) ∈ db.locks → i = j
  unique : ∀ a b, a ≠ b → (db.created.filter (·.between a b)).length ≤ 1

variable {hashtext}

/-- A statement that leaves the session as it is, before another that asks for no more. -/
theorem local_quiet {r : Request} {q : Statement} {next : q.Result → Route Reply}
    (hpre : ∀ i db tx, pre hashtext r q next i db tx → tx.chats = [])
    (hanswer : ∀ i db tx x db' tx', answer hashtext i db tx q = some (x, db', tx') → tx' = tx)
    (hnext : ∀ x i db tx, tx.chats = [] → Asserted (pre hashtext) i r db tx (next x)) :
    (routes hashtext).Local (pre hashtext) r q next := by
  intro i db tx x db' tx' h hx
  have htx := hpre i db tx h
  rw [← hanswer i db tx x db' tx' hx] at htx
  exact hnext x i db' tx' htx

theorem along_commit (r : Request) (b : Reply) :
    (Program.ask Statement.commit fun _ => .done b).Along
      ((routes hashtext).Local (pre hashtext) r) :=
  ⟨fun _ _ _ _ _ _ _ _ => trivial, fun _ => trivial⟩

/-- Inserting a chat and its members, and committing them. -/
theorem along_insert {r : Request} {ids : List String} (hadds : Adds r ids)
    (name : Option String) (b : ℕ → Reply) :
    (Program.ask (Statement.insertChat name) fun chat =>
      Program.ask (Statement.insertMembers chat ids) fun _ =>
        Program.ask Statement.commit fun _ => .done (b chat)).Along
      ((routes hashtext).Local (pre hashtext) r) := by
  refine ⟨?_, fun chat => ⟨?_, fun _ => along_commit r _⟩⟩
  · rintro i db tx chat db' tx' ⟨htx, hclaimed⟩ h
    cases h
    exact ⟨⟨name, by rw [htx, List.nil_append]⟩, hclaimed, hadds⟩
  · rintro i db tx _ db' tx' ⟨⟨name, htx⟩, hclaimed, hids⟩ h
    cases h
    exact .inr ⟨⟨chat, .direct_e2e, name, ids⟩, by simp [htx], hclaimed, hids⟩

theorem claimed_of_single {r : Request} {userId : String} (hids : r.uniqueIds = [userId]) (i : ℕ)
    (db : Db) : Claimed hashtext r i db := by
  constructor <;>
  · intro a b h
    rw [hids] at h
    cases h

theorem along_selfChat {r : Request} {userId : String} (hids : r.uniqueIds = [userId])
    (hadds : Adds r [userId]) :
    (selfChat userId).Along ((routes hashtext).Local (pre hashtext) r) := by
  rw [selfChat, getOrCreateSelfChat]
  simp only [statement, Program.request_bind, Program.ask_bind]
  refine ⟨local_quiet (fun _ _ _ h => h) ?_ ?_, fun existing => ?_⟩
  · rintro i db tx x db' tx' h
    cases h
    rfl
  · rintro (_ | existing) i db tx htx
    exacts [htx, trivial]
  cases existing with
  | some existing => trivial
  | none =>
    refine ⟨local_quiet (fun _ _ _ h => h) ?_ fun _ _ _ _ htx => htx, fun _ => ⟨?_, fun raced => ?_⟩⟩
    · rintro i db tx x db' tx' h
      rw [answer] at h
      split_ifs at h
      cases h
      rfl
    · rintro i db tx x db' tx' htx h
      cases h
      cases (db.chats ++ tx.chats).find? (·.isSelfChat userId) with
      | some raced => exact .inl htx
      | none => exact ⟨htx, claimed_of_single hids i db⟩
    · cases raced with
      | some raced => exact along_commit r _
      | none => exact along_insert hadds _ _

theorem along_directTransaction {r : Request} {authId peerId : String}
    (hids : r.uniqueIds = [authId, peerId]) (hadds : Adds r [authId, peerId])
    (name : Option String) (b : ℕ × Option String → Reply) :
    (directTransaction authId peerId name >>= fun x => .done (b x)).Along
      ((routes hashtext).Local (pre hashtext) r) := by
  rw [directTransaction]
  simp only [statement, Program.request_bind, Program.ask_bind]
  refine ⟨?_, fun _ => ⟨?_, fun found => ?_⟩⟩
  · rintro i db tx _ db' tx' htx h
    simp only [routes, answer] at h
    split_ifs at h
    cases h
    refine ⟨htx, fun a b hab => ?_⟩
    rw [hids] at hab
    cases hab
    exact List.mem_cons_self
  · rintro i db tx found db' tx' ⟨htx, hlock⟩ h
    cases h
    cases hfind : (db.chats ++ tx.chats).find? (·.between authId peerId) with
    | some raced => exact .inl htx
    | none =>
      refine ⟨htx, hlock, fun a b hab c hc => ?_⟩
      rw [hids] at hab
      cases hab
      simpa using List.find?_eq_none.1 hfind c (List.mem_append_left _ hc)
  · cases found with
    | some raced => exact along_commit r _
    | none => exact along_insert hadds _ _

theorem along_directChat {r : Request} {authId peerId : String} (hne : peerId ≠ authId)
    (hids : r.uniqueIds = [authId, peerId]) (hadds : Adds r [authId, peerId])
    (name : Option String) :
    (directChat authId peerId name).Along ((routes hashtext).Local (pre hashtext) r) := by
  have htargets : [authId, peerId].filter (fun id => decide (id ≠ authId)) = [peerId] := by
    simp [hne]
  rw [directChat, anyBlockBetween, htargets]
  simp only [statement, Program.request_bind, List.cons_ne_nil, if_false]
  refine ⟨local_quiet (fun _ _ _ h => h) ?_ ?_, fun users => .ite (fun _ => trivial) fun _ =>
    ⟨local_quiet (fun _ _ _ h => h) ?_ ?_, fun blocked => .ite (fun _ => trivial) fun _ => ?_⟩⟩
  · rintro i db tx x db' tx' h
    cases h
    rfl
  · intro users i db tx htx
    split_ifs
    exacts [trivial, htx]
  · rintro i db tx x db' tx' h
    cases h
    rfl
  · intro blocked i db tx htx
    split_ifs
    exacts [trivial, htx]
  · exact along_directTransaction hids hadds name _

theorem claimed_enterAsMe (userId : String) (isGuest : Bool) (token : String) (i : ℕ) (db : Db) :
    Claimed hashtext (.enterAsMe userId isGuest token) i db := by
  constructor <;>
  · intro a b h
    cases h

theorem along_enterAsMe (userId : String) (isGuest : Bool) (token : String) :
    (enterAsMe userId isGuest token).Along
      ((routes hashtext).Local (pre hashtext) (.enterAsMe userId isGuest token)) := by
  rw [enterAsMe, findLiveInviteByToken]
  refine .ite (fun _ => trivial) fun _ => ?_
  simp only [statement, Program.request_bind, Program.ask_bind, Program.pure_eq,
    Program.done_bind]
  refine ⟨local_quiet (fun _ _ _ h => h) ?_ fun row i db tx htx => ?_, fun row => ?_⟩
  · rintro i db tx x db' tx' h
    cases h
    rfl
  · cases row.filter fun i => i.usedCount < i.maxUses with
    | none => trivial
    | some invite =>
      dsimp only
      split_ifs
      exacts [trivial, trivial, ⟨htx, (claimed_enterAsMe ..).1⟩]
  dsimp only
  cases row.filter fun i => i.usedCount < i.maxUses with
  | none => trivial
  | some invite =>
    refine .ite (fun _ => trivial) fun _ => .ite (fun _ => trivial) fun _ => ?_
    refine ⟨local_quiet (fun _ _ _ h => h.1) ?_ ?_, fun existing => ?_⟩
    · rintro i db tx x db' tx' h
      cases h
      rfl
    · rintro (_ | existing) i db tx htx
      exacts [htx, trivial]
    cases existing with
    | some existing => trivial
    | none =>
      refine ⟨local_quiet (fun _ _ _ h => h) ?_ ?_, fun seat => .ite (fun _ => ?_) fun _ => trivial⟩
      · rintro i db tx x db' tx' h
        cases h
        rfl
      · intro seat i db tx htx
        split_ifs
        exacts [⟨htx, claimed_enterAsMe ..⟩, trivial]
      · have hadds : Adds (.enterAsMe userId isGuest token) [invite.createdBy, userId] := rfl
        exact along_insert hadds _ _

theorem along_handle (r : Request) :
    (handle r).Along ((routes hashtext).Local (pre hashtext) r) := by
  cases r with
  | enterAsMe userId isGuest token => exact along_enterAsMe userId isGuest token
  | postChats authId name member_ids =>
    have hself : ∀ l : List String, l.find? (· ≠ authId) = none →
        (selfChat authId).Along ((routes hashtext).Local (pre hashtext)
          (.postChats authId name l)) := fun l hl =>
      along_selfChat (by rw [Request.uniqueIds, hl]; rfl) (by rw [Adds, Request.uniqueIds, hl]; rfl)
    have hdirect : ∀ l peer, l.find? (· ≠ authId) = some peer →
        (directChat authId peer name).Along ((routes hashtext).Local (pre hashtext)
          (.postChats authId name l)) := fun l peer hl =>
      along_directChat (by simpa using List.find?_some hl) (by rw [Request.uniqueIds, hl]; rfl)
        (by rw [Adds, Request.uniqueIds, hl]; rfl) name
    change (postChats authId name member_ids).Along _
    unfold postChats
    split
    · rename_i peer
      by_cases h : peer = authId
      · rw [if_pos h]
        exact hself _ (by simp [h])
      · rw [if_neg h]
        exact hdirect _ _ (by simp [h])
    · refine .ite (fun _ => trivial) fun _ => ?_
      split
      · exact hself _ ‹_›
      · exact hdirect _ _ ‹_›
    · trivial

/-- Nothing is asked of the first statement of a request. -/
theorem asserted_start (i : ℕ) (r : Request) (db : Db) :
    Asserted (pre hashtext) i r db (routes hashtext).session (handle r) := by
  cases r with
  | enterAsMe userId isGuest token =>
    change Asserted _ _ _ _ _ (enterAsMe userId isGuest token)
    unfold enterAsMe
    split_ifs
    exacts [trivial, rfl]
  | postChats authId name member_ids =>
    change Asserted _ _ _ _ _ (postChats authId name member_ids)
    unfold postChats
    split
    · split_ifs <;> rfl
    · split_ifs
      · split <;> rfl
      · trivial
    · trivial

/-! ## The steps of the others -/

/-- What a statement does to the locks and the chats. -/
theorem answer_cases {i : ℕ} {db db' : Db} {tx tx' : Session} {q : Statement} {x : q.Result}
    (h : answer hashtext i db tx q = some (x, db', tx')) :
    (∃ key, q = .advisoryLock key ∧ db.lockFree i (hashtext key) = true ∧
      db' = { db with locks := (hashtext key, i) :: db.locks }) ∨
    (q = .commit ∧ db' = { db.unlock i with created := db.created ++ tx.chats }) ∨
    (db'.locks = db.locks ∧ db'.chats = db.chats ∧ db'.created = db.created) := by
  cases q with
  | advisoryLock key =>
    rw [answer] at h
    split_ifs at h with hfree
    cases h
    exact .inl ⟨key, rfl, hfree, rfl⟩
  | commit =>
    cases h
    exact .inr (.inl ⟨rfl, rfl⟩)
  | _ =>
    cases h
    exact .inr (.inr ⟨rfl, rfl, rfl⟩)

theorem alone_iff {s : DirectState} {c : Chat} {a b : String} (hc : c.members = [a, b]) :
    alone s c = true ↔ (∀ x ∈ s.store.chats, x.between a b = false) ∧
      ∀ i t, s.tasks.get? i = some t → creating a b t = false := by
  simp only [alone, hc, Bool.and_eq_true, List.all_eq_true, Bool.not_eq_eq_eq_not, Bool.not_true]
  refine and_congr_right fun _ => ⟨fun h i t ht => ?_, fun h x hx => ?_⟩
  · exact h (i, t) (InsMap.get?_eq_some_iff.1 ht)
  · exact h x.1 x.2 (InsMap.get?_eq_some_iff.2 hx)

theorem alone_comm {s : DirectState} {c : Chat} {a b : String} (hc : c.members = [a, b])
    (h : alone s c = true) : alone s { c with members := [b, a] } = true := by
  rw [alone_iff hc] at h
  rw [alone_iff rfl]
  refine ⟨fun x hx => (x.between_comm b a).trans (h.1 x hx), fun i t ht => ?_⟩
  have := h.2 i t ht
  obtain ⟨r, tx, _ | ⟨q, next⟩⟩ := t
  · rfl
  · rwa [creating, Bool.or_comm] at this

theorem Locked.mem {r : Request} {i : ℕ} {db : Db} (h : Locked hashtext r i db) {a b : String}
    (hids : r.uniqueIds = [a, b] ∨ r.uniqueIds = [b, a]) :
    (hashtext (directKey a b), i) ∈ db.locks := by
  rcases hids with hids | hids
  · exact h a b hids
  · exact directKey_comm b a ▸ h b a hids

section
variable {s : DirectState} {i : ℕ} {r : Request} {tx : Session}
  {next : Unit → Route Reply}

/-- What is known of a chat that a request is about to commit, between two users: there is no
    other chat of the two, and none that another request is about to commit. -/
theorem commit_alone (hok : unraced s (.serve i) = true)
    (htask : s.tasks.get? i = some ⟨r, tx, .ask .commit next⟩) (hI : Inv s.store)
    (hpre : pre hashtext r .commit next i s.store tx) {c : Chat} (hc : c ∈ tx.chats) {a b : String}
    (hab : a ≠ b) (hbetween : c.between a b = true) :
    (∀ x ∈ s.store.chats, x.between a b = false) ∧
      ∀ j t, j ≠ i → s.tasks.get? j = some t → creating a b t = true →
        ¬ Locked hashtext t.request j s.store := by
  rcases hpre with hnil | ⟨c', hchats, ⟨hlock, hnone⟩, hadds⟩
  · rw [hnil] at hc
    exact absurd hc List.not_mem_nil
  obtain rfl : c = c' := by simpa [hchats] using hc
  have hmembers := c.members_of_between hab hbetween
  cases r with
  | postChats authId name member_ids =>
    rw [show c.members = _ from hadds] at hmembers
    refine ⟨fun x hx => ?_, fun j t hne _ hcreating hlock' => ?_⟩
    · rcases hmembers with h | h
      · exact hnone a b h x hx
      · exact (x.between_comm a b).trans (hnone b a h x hx)
    · obtain ⟨r', tx', _ | ⟨q, next'⟩⟩ := t
      · cases hcreating
      · rw [creating, Bool.and_eq_true, Bool.or_eq_true, decide_eq_true_eq, decide_eq_true_eq]
          at hcreating
        exact hne (hI.holder _ _ _ (hlock'.mem hcreating.1) (hlock.mem hmembers))
  | enterAsMe userId isGuest token =>
    have halone : alone s c = true := by
      rw [unraced, htask] at hok
      simpa [entering, hchats] using hok
    have hpair : (∀ x ∈ s.store.chats, x.between a b = false) ∧
        ∀ i t, s.tasks.get? i = some t → creating a b t = false := by
      rcases hmembers with h | h
      · exact (alone_iff h).1 halone
      · exact (alone_iff rfl).1 (alone_comm h halone)
    refine ⟨hpair.1, fun j t _ ht hcreating => ?_⟩
    rw [hpair.2 j t ht] at hcreating
    exact absurd hcreating (by decide)

end

theorem mem_chats_commit {db : Db} {i : ℕ} {l : List Chat} {c : Chat} :
    c ∈ ({ db.unlock i with created := db.created ++ l } : Db).chats ↔ c ∈ db.chats ∨ c ∈ l := by
  simp [Db.chats, Db.unlock, or_assoc]

theorem pre_session {r : Request} {next : Unit → Route Reply} {i : ℕ} {db : Db} {tx : Session}
    (h : pre hashtext r .commit next i db tx) : tx.chats.length ≤ 1 := by
  rcases h with h | ⟨c, h, -⟩ <;> simp [h]

theorem inv_serve {s : DirectState} {i : ℕ} {r : Request} {tx : Session} {q : Statement}
    {next : q.Result → Route Reply} {x : q.Result} {db : Db} {tx' : Session}
    (hok : unraced s (.serve i) = true)
    (hserved : Served (routes hashtext) s i r tx q next x db tx') (hI : Inv s.store)
    (hpre : pre hashtext r q next i s.store tx) : Inv db := by
  rcases answer_cases hserved.answer with ⟨key, rfl, hfree, rfl⟩ | ⟨rfl, rfl⟩ | ⟨hlocks, -, hcreated⟩
  · refine ⟨fun k j j' hj hj' => ?_, hI.unique⟩
    -- Who holds the lock that is taken holds it already.
    have hheld : ∀ j, (hashtext key, j) ∈ s.store.locks → j = i := by
      intro j hj
      simpa using List.all_eq_true.1 hfree _ hj
    rcases List.mem_cons.1 hj with hj | hj <;> rcases List.mem_cons.1 hj' with hj' | hj'
    · cases hj
      cases hj'
      rfl
    · cases hj
      exact (hheld _ hj').symm
    · cases hj'
      exact hheld _ hj
    · exact hI.holder k j j' hj hj'
  · refine ⟨fun k j j' hj hj' => ?_, fun a b hab => ?_⟩
    · exact hI.holder k j j' (List.mem_of_mem_filter hj) (List.mem_of_mem_filter hj')
    · rw [List.filter_append, List.length_append]
      by_cases hex : ∃ c ∈ tx.chats, c.between a b = true
      · obtain ⟨c, hc, hbetween⟩ := hex
        obtain ⟨hnone, -⟩ := commit_alone hok hserved.task hI hpre hc hab hbetween
        have hcreated : s.store.created.filter (·.between a b) = [] :=
          List.filter_eq_nil_iff.2 fun x hx => by simp [hnone x (List.mem_append_right _ hx)]
        rw [hcreated, List.length_nil, Nat.zero_add]
        exact (List.length_filter_le _ _).trans (pre_session hpre)
      · have hnil : tx.chats.filter (·.between a b) = [] :=
          List.filter_eq_nil_iff.2 fun c hc h => hex ⟨c, hc, h⟩
        rw [hnil, List.length_nil, Nat.add_zero]
        exact hI.unique a b hab
  · exact ⟨hlocks ▸ hI.holder, hcreated ▸ hI.unique⟩

/-- What a request knows when it comes to a statement, after a step of another. -/
theorem pre_mono {r : Request} {q : Statement} {next : q.Result → Route Reply} {i : ℕ}
    {db db' : Db} {tx : Session}
    (hlock : Locked hashtext r i db → Locked hashtext r i db')
    (hchats : inserting q tx = true → Locked hashtext r i db →
      ∀ a b, r.uniqueIds = [a, b] → ∀ c ∈ db'.chats, c ∈ db.chats ∨ c.between a b = false)
    (h : pre hashtext r q next i db tx) : pre hashtext r q next i db' tx := by
  have hclaimed : inserting q tx = true → Claimed hashtext r i db →
      Claimed hashtext r i db' := by
    rintro hinserting ⟨hlocked, hnone⟩
    refine ⟨hlock hlocked, fun a b hids c hc => ?_⟩
    rcases hchats hinserting hlocked a b hids c hc with hc | hc
    exacts [hnone a b hids c hc, hc]
  cases q with
  | findExistingDirectE2EBetween userA userB => exact ⟨h.1, hlock h.2⟩
  | insertChat name => exact ⟨h.1, hclaimed rfl h.2⟩
  | insertMembers chatId ids => exact ⟨h.1, hclaimed rfl h.2.1, h.2.2⟩
  | commit =>
    rcases h with h | ⟨c, hc, h, hadds⟩
    · exact .inl h
    · exact .inr ⟨c, hc, hclaimed (by simp [inserting, hc]) h, hadds⟩
  | _ => exact h

theorem pre_stable {s : DirectState} {i : ℕ} {r : Request} {tx : Session} {q : Statement}
    {next : q.Result → Route Reply} {x : q.Result} {db : Db} {tx' : Session}
    (hok : unraced s (.serve i) = true)
    (hserved : Served (routes hashtext) s i r tx q next x db tx') (hI : Inv s.store)
    (hpre : pre hashtext r q next i s.store tx) {j : ℕ} {r' : Request} {k : Session} {q' : Statement}
    {next' : q'.Result → Route Reply} (hne : j ≠ i)
    (htask : s.tasks.get? j = some ⟨r', k, .ask q' next'⟩)
    (h : pre hashtext r' q' next' j s.store k) : pre hashtext r' q' next' j db k := by
  rcases answer_cases hserved.answer with ⟨key, rfl, hfree, rfl⟩ | ⟨rfl, rfl⟩ | ⟨hlocks, hchats, -⟩
  · exact pre_mono (fun h a b hids => List.mem_cons_of_mem _ (h a b hids))
      (fun _ _ _ _ _ c hc => .inl hc) h
  · refine pre_mono (fun h a b hids => List.mem_filter.2 ⟨h a b hids, by simpa⟩)
      (fun hinserting hlocked a b hids c hc => ?_) h
    rcases mem_chats_commit.1 hc with hc | hc
    · exact .inl hc
    · by_contra hcontra
      rw [not_or, Bool.not_eq_false] at hcontra
      -- The other request would be about to commit a chat of the same two.
      obtain ⟨-, hrival⟩ := commit_alone hok hserved.task hI hpre hc (Request.uniqueIds_ne hids)
        hcontra.2
      exact hrival j _ hne htask (by simp [creating, hids, hinserting]) hlocked
  · exact pre_mono (fun h a b hids => hlocks ▸ h a b hids)
      (fun _ _ _ _ _ c hc => .inl (hchats ▸ hc)) h

/-- Where each chat that `POST /guest/enter-as-me` commits is alone, at most one direct chat of
    any two users is created. -/
theorem unique_of_run {s : DirectState}
    (hs : (((routes hashtext).machine Fresh).restrict fun s e => unraced s e = true).Reachable s)
    {a b : String} (hab : a ≠ b) : (s.store.created.filter (·.between a b)).length ≤ 1 := by
  have hunlock : ∀ i db, Inv db → Inv (db.unlock i) := fun i db hI =>
    ⟨fun k j j' hj hj' => hI.holder k j j' (List.mem_of_mem_filter hj) (List.mem_of_mem_filter hj'),
      hI.unique⟩
  refine (outline (I := fun db _ => Inv db) (P := fun _ _ _ => True) (fun db hdb => ?_)
    (fun r => (along_handle r).imp fun _ _ h => ⟨trivial, h⟩) asserted_start (fun _ _ _ hI => hI)
    (fun s i r tx q next x db tx' hok hserved _ => inv_serve hok hserved)
    (fun s i r tx q next x db tx' hok hserved hI hpre j r' k q' next' =>
      pre_stable hok hserved hI hpre) (fun i db _ => hunlock i db)
    (fun i db r q next j tx hne h => ?_) (fun _ _ _ hI => ⟨hI.holder, hI.unique⟩)
    (fun tables db r q next i tx h => ?_) hs).1.unique a b hab
  · obtain ⟨hcreated, hlocks⟩ := hdb
    exact ⟨by simp [hlocks], by simp [hcreated]⟩
  · exact pre_mono (fun h a b hids => List.mem_filter.2 ⟨h a b hids, by simpa⟩)
      (fun _ _ _ _ _ c hc => .inl hc) h
  · exact pre_mono (fun h => h) (fun _ _ _ _ _ c hc => .inl hc) h

/-! ## A chat with a friend who sent a link -/

/-- Ann has made a link for Bob. -/
def linked : Db where
  tables := ⟨["ann", "bob"], [], [⟨0, "token", .chat, "ann", 1, 0, none, 1000, none⟩], 0⟩
  existing := []
  created := []
  locks := []
  nextId := 0

/-- A run: the requests, and the order in which their statements are served. -/
def served (r r' : Request) (tasks : List ℕ) : List (Event Request Tables) :=
  .receive r :: .receive r' :: tasks.map .serve

/-- How many chats of Ann and Bob were created. -/
def annAndBob (s : DirectState) : ℕ := (s.store.created.filter (·.between "ann" "bob")).length

/-- Bob follows the link, and writes to Ann once the chat of the two is committed. -/
theorem created_once :
    ∃ s : DirectState, s.store.created ≠ [] ∧
      (s.store.created.filter (·.between "ann" "bob")).length ≤ 1 := by
  have hrun : ((((routes fun _ => 0).machine Fresh).restrict fun s e => unraced s e = true).run
      (.start linked) (served (.enterAsMe "bob" false "token") (.postChats "bob" none ["ann"])
        [0, 0, 0, 0, 0, 0, 1, 1, 1, 1, 1])).map annAndBob = some 1 := by decide
  obtain ⟨s, hs, hcount⟩ := Option.map_eq_some_iff.1 hrun
  refine ⟨s, fun hnil => ?_, unique_of_run (Machine.reachable_of_run hs ⟨linked, ⟨rfl, rfl⟩, rfl⟩)
    (by decide)⟩
  rw [annAndBob, hnil] at hcount
  cases hcount

/-- Bob follows the link, and writes to Ann before the chat of the two is committed. -/
theorem created_twice :
    ∃ s, ((routes fun _ => 0).machine Fresh).Reachable s ∧
      1 < (s.store.created.filter (·.between "ann" "bob")).length := by
  have hrun : (((routes fun _ => 0).machine Fresh).run (.start linked)
      (served (.enterAsMe "bob" false "token") (.postChats "bob" none ["ann"])
        [0, 0, 1, 1, 1, 1, 1, 1, 1, 0, 0, 0, 0])).map annAndBob = some 2 := by decide
  obtain ⟨s, hs, hcount⟩ := Option.map_eq_some_iff.1 hrun
  exact ⟨s, Machine.reachable_of_run hs ⟨linked, ⟨rfl, rfl⟩, rfl⟩,
    Nat.lt_of_lt_of_eq Nat.one_lt_two hcount.symm⟩

end OneToThree.DirectChats
