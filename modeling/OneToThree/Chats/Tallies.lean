import Mathlib.Data.Set.Basic
import Mathlib.Data.String.Basic
import OneToThree.Chats.Polls

/-!
# The votes of a poll

What the votes and the tallies of the polls are, in every interleaving of the statements of the
requests, and with requests that fail at any of them.

* A request that replaces a ballot holds the lock of the poll and the user, so that the rows it
  has deleted are all there are when it commits (`held`).
* What a request asks and sends depends on what it has read before: each count is of some content
  that the table of votes has had, and each ballot is the viewer's own (`contract`).

`tallies_of_run`: a poll for one choice has at most one vote of each user, every vote is for an
option of its poll, and everybody is shown exact counts and nobody else's ballot.
-/

namespace OneToThree.Polls

open Transactional

/-! ## Counting -/

/-- The counts are those of the rows: each option that has a vote is named once. -/
structure Exact (counts : VoteCounts) (rows : List Vote) : Prop where
  nodup : (counts.map Prod.fst).Nodup
  mem_iff : ∀ i n, (i, n) ∈ counts ↔ n ≠ 0 ∧ n = rows.countP (·.optionIndex = i)

theorem get?_countOptions (rows : List Vote) (i : ℕ) :
    ((countOptions rows).get? i).getD 0 = rows.countP (·.optionIndex = i) ∧
      ∀ n, (countOptions rows).get? i = some n → n ≠ 0 := by
  suffices h : ∀ m : InsMap ℕ ℕ, (∀ n, m.get? i = some n → n ≠ 0) →
      let m' := rows.foldl (fun countMap row => countVote countMap row.optionIndex) m
      (m'.get? i).getD 0 = (m.get? i).getD 0 + rows.countP (·.optionIndex = i) ∧
        ∀ n, m'.get? i = some n → n ≠ 0 by
    have := h ∅ fun n hn => by cases hn
    simpa [countOptions] using this
  induction rows with
  | nil => exact fun m hm => ⟨rfl, hm⟩
  | cons row rows ih =>
    intro m hm
    rw [List.foldl_cons]
    by_cases hi : row.optionIndex = i
    · have hself : (countVote m row.optionIndex).get? i = some ((m.get? i).getD 0 + 1) := by
        rw [countVote, ← hi, InsMap.get?_set_self]
      obtain ⟨hsum, hne⟩ := ih (countVote m row.optionIndex) fun n hn => by
        rw [hself] at hn
        exact Option.some.inj hn ▸ Nat.succ_ne_zero _
      refine ⟨hsum.trans ?_, hne⟩
      rw [hself, List.countP_cons_of_pos (by simpa using hi), Option.getD_some]
      omega
    · have hother : (countVote m row.optionIndex).get? i = m.get? i := by
        rw [countVote, InsMap.get?_set_ne m _ (Ne.symm hi)]
      obtain ⟨hsum, hne⟩ := ih (countVote m row.optionIndex) fun n hn => hm n (hother ▸ hn)
      refine ⟨hsum.trans ?_, hne⟩
      rw [hother, List.countP_cons_of_neg (by simpa using hi)]

theorem exact_countOptions (rows : List Vote) : Exact (countOptions rows).entries rows := by
  refine ⟨(countOptions rows).nodup, fun i n => ?_⟩
  obtain ⟨hcount, hne⟩ := get?_countOptions rows i
  rw [← InsMap.get?_eq_some_iff, ← hcount]
  constructor
  · intro h
    exact ⟨hne n h, by rw [h, Option.getD_some]⟩
  · rintro ⟨hn, rfl⟩
    cases h : (countOptions rows).get? i with
    | none =>
      rw [h] at hn
      exact absurd rfl hn
    | some n => rfl

theorem exact_groupByOption (rows : List Vote) : Exact (groupByOption rows) rows := by
  have hkeys : (groupByOption rows).map Prod.fst = (rows.map (·.optionIndex)).dedup := by
    rw [groupByOption, List.map_map]
    exact List.map_id _
  refine ⟨hkeys ▸ List.nodup_dedup _, fun i n => ?_⟩
  simp only [groupByOption, List.mem_map, List.mem_dedup, Prod.mk.injEq]
  constructor
  · rintro ⟨j, ⟨v, hv, rfl⟩, rfl, rfl⟩
    refine ⟨fun hzero => ?_, rfl⟩
    exact absurd (List.countP_eq_zero.1 hzero v hv) (by simp)
  · rintro ⟨hne, rfl⟩
    obtain ⟨v, hv, hi⟩ := List.countP_pos_iff.1 (Nat.pos_of_ne_zero hne)
    exact ⟨i, ⟨v, hv, of_decide_eq_true hi⟩, rfl, rfl⟩

/-- Going through counts again leaves them as they are. -/
theorem Exact.collected {counts : VoteCounts} {rows : List Vote} (h : Exact counts rows) :
    Exact (counts.foldl (fun m r => m.set r.1 r.2) (∅ : InsMap ℕ ℕ)).entries rows := by
  refine ⟨(counts.foldl (fun (m : InsMap ℕ ℕ) r => m.set r.1 r.2) ∅).nodup, fun i n => ?_⟩
  rw [← InsMap.get?_eq_some_iff, ← h.mem_iff]
  by_cases hi : i ∈ counts.map Prod.fst
  · obtain ⟨⟨j, n'⟩, hmem, rfl⟩ := List.mem_map.1 hi
    rw [InsMap.get?_foldl_set Prod.fst Prod.snd h.nodup hmem, Option.some.injEq]
    constructor
    · rintro rfl
      exact hmem
    · intro hn
      rw [((h.mem_iff _ _).1 hmem).2, ((h.mem_iff _ _).1 hn).2]
  · rw [InsMap.get?_foldl_ne Prod.fst (fun m a k hk => InsMap.get?_set_ne m _ (Ne.symm hk)) hi]
    exact iff_of_false (by simp) fun hmem => hi (List.mem_map.2 ⟨_, hmem, rfl⟩)

theorem get?_byUser (rows : List Vote) (userId : String) :
    ((tallyPollVotes rows).byUser.get? userId).getD [] =
      (rows.filter (·.userId = userId)).map (·.optionIndex) := by
  suffices h : ∀ m : InsMap String (List ℕ), ((rows.foldl pushVote m).get? userId).getD [] =
      (m.get? userId).getD [] ++ (rows.filter (·.userId = userId)).map (·.optionIndex) by
    exact h ∅
  induction rows with
  | nil => exact fun m => (List.append_nil _).symm
  | cons row rows ih =>
    intro m
    rw [List.foldl_cons, ih]
    by_cases hu : row.userId = userId
    · rw [pushVote, hu, InsMap.get?_set_self, List.filter_cons_of_pos (by simpa using hu)]
      simp
    · rw [pushVote, InsMap.get?_set_ne m _ (Ne.symm hu), List.filter_cons_of_neg (by simpa using hu)]

theorem ballot_ofPoll (pollId : ℕ) (userId : String) (votes : List Vote) :
    ((ofPoll pollId votes).filter (·.userId = userId)).map (·.optionIndex) =
      ballot pollId userId votes := by
  rw [ofPoll, ballot, List.filter_filter]
  exact congrArg _ (List.filter_congr fun v _ => Bool.and_comm _ _)

/-! ## What is shown -/

/-- What the requests know of the database: the polls, to which others are only added, and the
    contents of the table of votes. -/
structure World where
  polls : List Poll
  versions : Set (List Vote)

instance : Preorder World where
  le w w' := w.polls <+: w'.polls ∧ w.versions ⊆ w'.versions
  le_refl w := ⟨List.prefix_refl _, subset_rfl⟩
  le_trans _ _ _ h h' := ⟨h.1.trans h'.1, h.2.trans h'.2⟩

def Db.world (db : Db) : World := ⟨db.polls, {votes | votes ∈ db.versions}⟩

/-- A user is shown how many votes each option of a poll had at some moment, and the ballot of
    the user at some moment. -/
structure Shown (w : World) (pollId : ℕ) (userId : String) (results : PollResults) : Prop where
  counts : ∃ votes ∈ w.versions, Exact results.vote_counts (ofPoll pollId votes)
  own : ∃ votes ∈ w.versions, results.my_votes = ballot pollId userId votes

/-- The options that a vote is for are options of the poll, and one at most where one is to be
    chosen. -/
def Counts (w : World) (pollId : ℕ) (optionIndices : List ℕ) : Prop :=
  ∃ p, w.polls.find? (·.id = pollId) = some p ∧ (∀ i ∈ optionIndices, i < p.options.length) ∧
    (p.allowMultiple = false → optionIndices.length ≤ 1)

/-- What a request is answered, to the user who has sent it. -/
def Answered (w : World) : Request → Reply → Prop
  | .vote userId pollId _, .voted results => Shown w pollId userId results
  | .read userId pollId, .results _ results => Shown w pollId userId results
  | _, _ => True

/-- What a user is sent. -/
def Sent (w : World) (userId : String) : Frame → Prop
  | .pollUpdated pollId results => Shown w pollId userId results
  | .chatMessage _ _ _ _ => True

theorem find?_of_prefix {l l' : List Poll} (h : l <+: l') {pollId : ℕ} {p : Poll}
    (hp : l.find? (·.id = pollId) = some p) : l'.find? (·.id = pollId) = some p := by
  obtain ⟨r, rfl⟩ := h
  rw [List.find?_append, hp, Option.some_or]

section
variable {w w' : World}

theorem Shown.mono {pollId : ℕ} {userId : String} {results : PollResults} (hle : w ≤ w')
    (h : Shown w pollId userId results) : Shown w' pollId userId results := by
  obtain ⟨⟨v, hv, hcounts⟩, ⟨v', hv', hown⟩⟩ := h
  exact ⟨⟨v, hle.2 hv, hcounts⟩, ⟨v', hle.2 hv', hown⟩⟩

theorem Counts.mono {pollId : ℕ} {l : List ℕ} (hle : w ≤ w') (h : Counts w pollId l) :
    Counts w' pollId l := by
  obtain ⟨p, hp, h⟩ := h
  exact ⟨p, find?_of_prefix hle.1 hp, h⟩

theorem Answered.mono {a : Request} {b : Reply} (hle : w ≤ w') (h : Answered w a b) :
    Answered w' a b := by
  unfold Answered at h ⊢
  split
  · exact h.mono hle
  · exact h.mono hle
  · trivial

theorem Sent.mono {userId : String} {frame : Frame} (hle : w ≤ w') (h : Sent w userId frame) :
    Sent w' userId frame := by
  cases frame with
  | pollUpdated pollId results => exact Shown.mono hle h
  | chatMessage _ _ _ _ => trivial

end

/-- What a request may ask, and what it may assume of the answers. -/
def contract : Program.Contract World Statement Statement.Result Unit where
  allowed w q _ :=
    match q with
    | .insertVotes pollId _ optionIndices => Counts w pollId optionIndices
    | .sendToUser userId frame => Sent w userId frame
    | _ => True
  answered w q _ :=
    match q with
    | .selectPoll pollId => fun r => ∀ p, r = some p → w.polls.find? (·.id = pollId) = some p
    | .selectBallot pollId userId => fun r => ∃ votes ∈ w.versions, r = ballot pollId userId votes
    | .countVotes pollId => fun r => ∃ votes ∈ w.versions, Exact r (ofPoll pollId votes)
    | .selectVotes pollId => fun r => ∃ votes ∈ w.versions, r = ofPoll pollId votes
    | _ => fun _ => True

theorem allowed_mono {w w' : World} (q : Statement) (g : Unit) (hle : w ≤ w')
    (h : contract.allowed w q g) : contract.allowed w' q g := by
  cases q with
  | insertVotes pollId userId optionIndices => exact Counts.mono hle h
  | sendToUser userId frame => exact Sent.mono hle h
  | _ => trivial

/-- A route keeps to the contract. -/
abbrev Keeps {α : Type} (post : World → α → Prop) (p : Route α) (w : World) : Prop :=
  p.Meets contract post w

theorem sendEach_keeps {frame : String → Frame} {w : World} (userIds : List String)
    (h : ∀ userId ∈ userIds, Sent w userId (frame userId)) :
    Keeps (fun w' _ => w ≤ w') (sendEach frame userIds) w := by
  suffices hle : ∀ w', w ≤ w' → Keeps (fun w' _ => w ≤ w') (sendEach frame userIds) w' from
    hle w le_rfl
  induction userIds with
  | nil => exact fun w' hle => hle
  | cons userId userIds ih =>
    intro w' hle
    refine ⟨(), (h userId List.mem_cons_self).mono hle, fun w'' hle' _ _ => ?_⟩
    exact ih (fun u hu => h u (List.mem_cons_of_mem _ hu)) w'' (hle.trans hle')

theorem shown_resultsFor {w : World} {pollId : ℕ} {votes : List Vote} (hv : votes ∈ w.versions)
    (isAnonymous : Bool) (userId : String) :
    Shown w pollId userId
      ((tallyPollVotes (ofPoll pollId votes)).resultsFor isAnonymous userId) := by
  refine ⟨⟨votes, hv, exact_countOptions _⟩, ⟨votes, hv, ?_⟩⟩
  rw [Tally.resultsFor, get?_byUser, ballot_ofPoll]

theorem broadcast_keeps (pollId chatId : ℕ) (isAnonymous : Bool) (voterId : String) (w : World) :
    Keeps (fun w' results => Shown w' pollId voterId results)
      (broadcastPollResults pollId chatId isAnonymous voterId) w := by
  refine ⟨(), trivial, fun w' _ rows hrows => ⟨(), trivial, fun w'' hle memberIds _ => ?_⟩⟩
  obtain ⟨votes, hv, rfl⟩ := hrows
  refine (sendEach_keeps _ fun userId _ => ?_).bind fun w₃ _ _ hle₃ => ?_
  · exact shown_resultsFor (hle.2 hv) isAnonymous userId
  · exact shown_resultsFor (hle₃.2 (hle.2 hv)) isAnonymous voterId

theorem getPollResults_keeps (pollId : ℕ) (viewerId : String) (isAnonymous : Bool) (w : World) :
    Keeps (fun w' results => Shown w' pollId viewerId results)
      (getPollResults pollId viewerId isAnonymous) w := by
  refine ⟨(), trivial, fun w₁ _ myVotes hmine => ?_⟩
  obtain ⟨mine, hmem, rfl⟩ := hmine
  cases isAnonymous with
  | true =>
    refine ⟨(), trivial, fun w₂ hle₂ counts hcounts => ⟨(), trivial, fun w₃ hle₃ _ _ => ?_⟩⟩
    obtain ⟨votes, hv, hexact⟩ := hcounts
    exact ⟨⟨votes, hle₃.2 hv, hexact.collected⟩, ⟨mine, hle₃.2 (hle₂.2 hmem), rfl⟩⟩
  | false =>
    refine ⟨(), trivial, fun w₂ hle₂ rows hrows => ⟨(), trivial, fun w₃ hle₃ _ _ => ?_⟩⟩
    obtain ⟨votes, hv, rfl⟩ := hrows
    exact ⟨⟨votes, hle₃.2 hv, exact_countOptions _⟩, ⟨mine, hle₃.2 (hle₂.2 hmem), rfl⟩⟩

theorem replaceVotes_keeps {pollId : ℕ} {userId : String} {optionIndices : List ℕ} {w : World}
    (h : Counts w pollId optionIndices) :
    Keeps (fun _ _ => True) (replaceVotes pollId userId optionIndices) w := by
  refine ⟨(), trivial, fun w₁ hle₁ _ _ => ⟨(), trivial, fun w₂ hle₂ _ _ => ?_⟩⟩
  dsimp only
  split_ifs
  · exact ⟨(), h.mono (hle₁.trans hle₂), fun _ _ _ _ => ⟨(), trivial, fun _ _ _ _ => trivial⟩⟩
  · exact ⟨(), trivial, fun _ _ _ _ => trivial⟩

theorem Poll.length_effectiveIndices {p : Poll} (hp : p.allowMultiple = false) (l : List ℕ) :
    (p.effectiveIndices l).length ≤ 1 := by
  rw [Poll.effectiveIndices, hp, if_neg Bool.false_ne_true]
  exact List.length_take_le 1 l

theorem handle_keeps (a : Request) (w : World) :
    Keeps (fun w' b => Answered w' a b) (handle a) w := by
  cases a with
  | create userId chat_id question options allow_multiple is_anonymous =>
    have hsend : ∀ w' id messageId memberIds (poll : Poll),
        Keeps (fun w' b => Answered w'
          (.create userId chat_id question options allow_multiple is_anonymous) b)
          (sendEach (fun _ => .chatMessage messageId chat_id userId id) memberIds >>= fun _ =>
            Program.done (.created poll)) w' := by
      intro w' id messageId memberIds poll
      refine (sendEach_keeps memberIds fun _ _ => ?_).bind fun _ _ _ _ => trivial
      trivial
    change Keeps _ (createPoll ..) w
    unfold createPoll
    split_ifs
    · trivial
    refine ⟨(), trivial, fun w₁ _ row _ => ?_⟩
    rcases row with _ | ⟨channelRole, chatType⟩
    · trivial
    change Keeps _ (ite ..) w₁
    split_ifs
    · trivial
    · trivial
    · exact ⟨(), trivial, fun _ _ _ _ => ⟨(), trivial, fun _ _ _ _ => ⟨(), trivial, fun _ _ _ _ =>
        ⟨(), trivial, fun _ _ _ _ => ⟨(), trivial, fun w' _ memberIds _ => hsend w' _ _ _ _⟩⟩⟩⟩⟩
  | vote userId pollId option_indices =>
    change Keeps _ (vote ..) w
    unfold vote
    split_ifs
    · trivial
    refine ⟨(), trivial, fun w₁ _ found hfound => ?_⟩
    rcases found with _ | poll
    · trivial
    refine ⟨(), trivial, fun w₂ hle₂ now _ => ?_⟩
    change Keeps _ (ite ..) w₂
    split_ifs
    · trivial
    refine ⟨(), trivial, fun w₃ hle₃ row _ => ?_⟩
    rcases row with _ | row
    · trivial
    change Keeps _ (ite ..) w₃
    split_ifs with hrange
    · trivial
    -- The poll that was read is still there, and the options were looked up in it.
    have hcounts : Counts w₃ pollId (poll.effectiveIndices option_indices) := by
      refine ⟨poll, find?_of_prefix (hle₂.trans hle₃).1 (hfound poll rfl), fun i hi => ?_,
        fun hp => poll.length_effectiveIndices hp _⟩
      by_contra hlt
      exact hrange (List.any_eq_true.2 ⟨i, hi, by simpa using hlt⟩)
    refine (replaceVotes_keeps hcounts).bind fun w₄ _ _ _ => ?_
    exact (broadcast_keeps pollId poll.chatId poll.isAnonymous userId w₄).bind fun _ _ _ h => h
  | read userId pollId =>
    refine ⟨(), trivial, fun w₁ _ found _ => ?_⟩
    rcases found with _ | poll
    · trivial
    refine ⟨(), trivial, fun w₂ _ row _ => ?_⟩
    rcases row with _ | row
    · trivial
    exact (getPollResults_keeps pollId userId poll.isAnonymous w₂).bind fun _ _ _ h => h

/-! ## The transactions -/

variable (hashtext : String → ℤ)

/-- The request holds the lock of a ballot, and has deleted all its rows. -/
structure Cleared (i : ℕ) (db : Db) (tx : Session) (pollId : ℕ) (userId : String) : Prop where
  locked : (hashtext ("poll_vote:" ++ toString pollId ++ ":" ++ userId), i) ∈ db.locks
  cleared : tx.cleared = db.pollVotes.filter (·.isOf pollId userId)
  created : tx.created = []

/-- The request is about to commit a ballot. -/
def Casting (i : ℕ) (db : Db) (tx : Session) : Prop :=
  ∃ pollId userId optionIndices, Cleared hashtext i db tx pollId userId ∧
    (optionIndices ≠ [] → Counts db.world pollId optionIndices) ∧
      tx.cast = optionIndices.map (Vote.mk pollId userId)

/-- What holds of the session when a request comes to a statement. -/
def held (i : ℕ) (db : Db) (tx : Session) : Statement → Prop
  | .insertMessage _ _ _ | .setMessageId _ _ => tx.cleared = [] ∧ tx.cast = []
  | .deleteVotes pollId userId => tx = ⟨[], [], []⟩ ∧
      (hashtext ("poll_vote:" ++ toString pollId ++ ":" ++ userId), i) ∈ db.locks
  | .insertVotes pollId userId _ => Cleared hashtext i db tx pollId userId ∧ tx.cast = []
  | .commit => (tx.cleared = [] ∧ tx.cast = []) ∨ Casting hashtext i db tx
  | _ => tx = ⟨[], [], []⟩

/-- The statements that have no part in a transaction. -/
def Statement.isQuiet : Statement → Bool
  | .insertPoll _ | .insertMessage _ _ _ | .setMessageId _ _ | .advisoryLock _
  | .deleteVotes _ _ | .insertVotes _ _ _ | .commit => false
  | _ => true

/-- What holds when a request comes to a statement: it keeps to the contract from there on, and
    its session is as `held` says. -/
def pre (a : Request) (q : Statement) (next : q.Result → Route Reply) (i : ℕ) (db : Db)
    (tx : Session) : Prop :=
  Keeps (fun w b => Answered w a b) (.ask q next) db.world ∧ held hashtext i db tx q

/-- What holds of the session at the point that a program has reached. -/
def heldAt (i : ℕ) (db : Db) (tx : Session) : Route Reply → Prop
  | .done _ => True
  | .ask q _ => held hashtext i db tx q

variable {hashtext}

/-- What a statement does to the polls and the votes, and what it tells of them. -/
theorem answer_world {i : ℕ} {db db' : Db} {tx tx' : Session} {q : Statement} {r : q.Result}
    (h : answer hashtext i db tx q = some (r, db', tx')) :
    db.world ≤ db'.world ∧ contract.answered db'.world q () r := by
  have hkeep : ∀ {db' : Db}, db'.polls = db.polls → db'.pollVotes = db.pollVotes →
      db'.earlier = db.earlier → db.world ≤ db'.world := by
    intro db' hpolls hvotes hearlier
    refine ⟨?_, ?_⟩
    · change db.polls <+: db'.polls
      rw [hpolls]
    · intro votes hv
      change votes ∈ db'.pollVotes :: db'.earlier
      rwa [hvotes, hearlier]
  cases q with
  | commit =>
    cases h
    exact ⟨⟨List.prefix_append _ _, fun votes hv => List.mem_cons_of_mem _ hv⟩, trivial⟩
  | advisoryLock key =>
    rw [answer] at h
    split_ifs at h
    cases h
    exact ⟨hkeep rfl rfl rfl, trivial⟩
  | insertVotes pollId userId optionIndices =>
    rw [answer] at h
    split_ifs at h
    cases h
    exact ⟨hkeep rfl rfl rfl, trivial⟩
  | selectPoll pollId =>
    cases h
    exact ⟨le_rfl, fun p hp => hp⟩
  | selectBallot pollId userId =>
    cases h
    exact ⟨le_rfl, _, List.mem_cons_self, rfl⟩
  | countVotes pollId =>
    cases h
    exact ⟨le_rfl, _, List.mem_cons_self, exact_groupByOption _⟩
  | selectVotes pollId =>
    cases h
    exact ⟨le_rfl, _, List.mem_cons_self, rfl⟩
  | _ =>
    cases h
    exact ⟨hkeep rfl rfl rfl, trivial⟩

/-- The contract is kept anyway: what is left is how the session goes on. -/
theorem local_of {a : Request} {q : Statement} {next : q.Result → Route Reply}
    (h : ∀ i db tx r db' tx', pre hashtext a q next i db tx →
      answer hashtext i db tx q = some (r, db', tx') → heldAt hashtext i db' tx' (next r)) :
    (routes hashtext).Local (pre hashtext) a q next := by
  intro i db tx r db' tx' hpre hanswer
  have hheld := h i db tx r db' tx' hpre hanswer
  obtain ⟨⟨g, -, hnext⟩, -⟩ := hpre
  obtain ⟨hle, hanswered⟩ := answer_world hanswer
  have hkeeps := hnext db'.world hle r hanswered
  cases hp : next r with
  | done b => trivial
  | ask q' next' =>
    rw [hp] at hkeeps hheld
    exact ⟨hkeeps, hheld⟩

/-- Where a program goes on with an empty session. -/
theorem heldAt_of_quiet {p : Route Reply} (hp : p.Along fun q _ => q.isQuiet = true) (i : ℕ)
    (db : Db) : heldAt hashtext i db ⟨[], [], []⟩ p := by
  cases p with
  | done b => trivial
  | ask q next =>
    have hq := hp.1
    cases q <;> first | rfl | cases hq

theorem along_of_quiet {a : Request} {p : Route Reply}
    (hp : p.Along fun q _ => q.isQuiet = true) :
    p.Along ((routes hashtext).Local (pre hashtext) a) := by
  induction p with
  | done b => trivial
  | ask q next ih =>
    refine ⟨local_of fun i db tx r db' tx' hpre h => ?_, fun r => ih r (hp.2 r)⟩
    have htx : tx = ⟨[], [], []⟩ ∧ tx' = tx := by
      have hq := hp.1
      have hheld := hpre.2
      cases q <;> first | (cases h; exact ⟨hheld, rfl⟩) | cases hq
    rw [htx.2, htx.1]
    exact heldAt_of_quiet (hp.2 r) i db'

/-- A quiet statement, with whatever comes then. -/
theorem along_quiet {a : Request} {q : Statement} {next : q.Result → Route Reply}
    (hq : q.isQuiet = true)
    (hnext : ∀ r i db, heldAt hashtext i db ⟨[], [], []⟩ (next r))
    (halong : ∀ r, (next r).Along ((routes hashtext).Local (pre hashtext) a)) :
    (Program.ask q next).Along ((routes hashtext).Local (pre hashtext) a) := by
  refine ⟨local_of fun i db tx r db' tx' hpre h => ?_, halong⟩
  have htx : tx = ⟨[], [], []⟩ ∧ tx' = tx := by
    have hheld := hpre.2
    cases q <;> first | (cases h; exact ⟨hheld, rfl⟩) | cases hq
  rw [htx.2, htx.1]
  exact hnext r i db'

theorem sendEach_quiet {frame : String → Frame} {f : Unit → Route Reply}
    (hf : (f ()).Along fun q _ => q.isQuiet = true) (userIds : List String) :
    (sendEach frame userIds >>= f).Along fun q _ => q.isQuiet = true := by
  induction userIds with
  | nil => exact hf
  | cons userId userIds ih => exact ⟨rfl, fun _ => ih⟩

/-- Sending frames, and answering then. -/
theorem sendEach_quiet_bind {α : Type} {frame : String → Frame} {b : α} (g : α → Reply)
    (userIds : List String) :
    ((sendEach frame userIds >>= fun _ => .done b) >>= fun b => .done (g b) : Route Reply).Along
      fun q _ => q.isQuiet = true := by
  rw [Program.bind_assoc]
  exact sendEach_quiet (Program.along_done _) userIds

theorem along_commit {a : Request} {p : Route Reply}
    (hp : p.Along fun q _ => q.isQuiet = true) :
    (Program.ask Statement.commit fun _ => p).Along ((routes hashtext).Local (pre hashtext) a) := by
  refine ⟨local_of fun i db tx r db' tx' _ h => ?_, fun _ => along_of_quiet hp⟩
  cases h
  exact heldAt_of_quiet hp i _

theorem along_replaceVotes {a : Request} {p : Route Reply} {pollId : ℕ} {userId : String}
    {optionIndices : List ℕ} (hp : p.Along fun q _ => q.isQuiet = true) :
    (replaceVotes pollId userId optionIndices >>= fun _ => p).Along
      ((routes hashtext).Local (pre hashtext) a) := by
  rw [replaceVotes]
  simp only [statement, Program.request_bind, Program.ask_bind]
  refine ⟨local_of fun i db tx r db' tx' hpre h => ?_,
    fun _ => ⟨local_of fun i db tx r db' tx' hpre h => ?_, fun _ => ?_⟩⟩
  · rw [answer] at h
    split_ifs at h
    cases h
    exact ⟨hpre.2, List.mem_cons_self⟩
  · obtain ⟨-, rfl, hlock⟩ := hpre
    cases h
    have hcleared : Cleared hashtext i db
        ⟨[], db.pollVotes.filter (·.isOf pollId userId), []⟩ pollId userId := ⟨hlock, rfl, rfl⟩
    split_ifs with hne
    · exact ⟨hcleared, rfl⟩
    · obtain rfl : optionIndices = [] := not_ne_iff.1 hne
      exact .inr ⟨pollId, userId, [], hcleared, fun hne => absurd rfl hne, rfl⟩
  · split_ifs with hne
    · refine ⟨local_of fun i db tx r db' tx' hpre h => ?_, fun _ => along_commit hp⟩
      obtain ⟨⟨g, hcounts, -⟩, hcleared, hcast⟩ := hpre
      rw [answer] at h
      split_ifs at h
      cases h
      refine .inr ⟨pollId, userId, optionIndices, ⟨hcleared.locked, hcleared.cleared,
        hcleared.created⟩, fun _ => hcounts, ?_⟩
      rw [hcast, List.nil_append]
    · exact along_commit hp

theorem along_create {a : Request} {chat_id : ℕ} {userId : String} {poll : Poll}
    {p : ℕ → ℕ → Route Reply}
    (hp : ∀ id messageId, (p id messageId).Along fun q _ => q.isQuiet = true) :
    (Program.ask (Statement.insertPoll poll) fun id =>
      Program.ask (Statement.insertMessage chat_id userId id) fun messageId =>
        Program.ask (Statement.setMessageId id messageId) fun _ =>
          Program.ask Statement.commit fun _ => p id messageId).Along
      ((routes hashtext).Local (pre hashtext) a) := by
  refine ⟨local_of fun i db tx r db' tx' hpre h => ?_, fun id =>
    ⟨local_of fun i db tx r db' tx' hpre h => ?_, fun messageId =>
      ⟨local_of fun i db tx r db' tx' hpre h => ?_, fun _ => along_commit (hp id messageId)⟩⟩⟩
  · obtain ⟨-, rfl⟩ := hpre
    cases h
    exact ⟨rfl, rfl⟩
  · cases h
    exact hpre.2
  · cases h
    exact .inl hpre.2

theorem along_handle (a : Request) :
    (handle a).Along ((routes hashtext).Local (pre hashtext) a) := by
  cases a with
  | create userId chat_id question options allow_multiple is_anonymous =>
    change (createPoll ..).Along _
    unfold createPoll
    refine .ite (fun _ => trivial) fun _ => along_quiet rfl ?_ fun row => ?_
    · rintro (_ | ⟨channelRole, chatType⟩) i db
      · trivial
      · change heldAt _ _ _ _ (ite ..)
        split_ifs
        exacts [trivial, trivial, rfl]
    rcases row with _ | ⟨channelRole, chatType⟩
    · trivial
    · refine .ite (fun _ => trivial) fun _ => .ite (fun _ => trivial) fun _ => ?_
      refine along_create fun id messageId => ⟨rfl, fun memberIds => ?_⟩
      exact sendEach_quiet (Program.along_done _) memberIds
  | vote userId pollId option_indices =>
    change (vote ..).Along _
    unfold vote
    refine .ite (fun _ => trivial) fun _ => along_quiet rfl ?_ fun found => ?_
    · rintro (_ | poll) i db
      exacts [trivial, rfl]
    rcases found with _ | poll
    · trivial
    refine along_quiet rfl (fun now i db => ?_) fun now => .ite (fun _ => trivial) fun _ =>
      along_quiet rfl ?_ fun row => ?_
    · change heldAt _ _ _ _ (ite ..)
      split_ifs
      exacts [trivial, rfl]
    · rintro (_ | row) i db
      · trivial
      · change heldAt _ _ _ _ (ite ..)
        split_ifs
        exacts [trivial, rfl]
    rcases row with _ | row
    · trivial
    · refine .ite (fun _ => trivial) fun _ => along_replaceVotes ⟨rfl, fun rows => ⟨rfl, fun ids => ?_⟩⟩
      exact sendEach_quiet_bind _ ids.eraseDups
  | read userId pollId =>
    refine along_of_quiet ⟨rfl, fun found => ?_⟩
    rcases found with _ | poll
    · trivial
    refine ⟨rfl, fun row => ?_⟩
    rcases row with _ | row
    · trivial
    refine ⟨rfl, fun mine => ?_⟩
    cases poll.isAnonymous <;> exact ⟨rfl, fun _ => ⟨rfl, fun _ => trivial⟩⟩

/-! ## The steps of the others -/

/-- Each lock has one holder, the votes are as the polls ask, and everybody was sent and answered
    what holds. -/
structure Inv (db : Db) (replies : List (Request × Reply)) : Prop where
  holder : ∀ k i j, (k, i) ∈ db.locks → (k, j) ∈ db.locks → i = j
  option : ∀ v ∈ db.pollVotes, ∃ p, db.poll? v.pollId = some p ∧ v.optionIndex < p.options.length
  single : ∀ pollId userId p, db.poll? pollId = some p → p.allowMultiple = false →
    (ballot pollId userId db.pollVotes).length ≤ 1
  sent : ∀ x ∈ db.sent, Sent db.world x.1 x.2
  answered : ∀ x ∈ replies, Answered db.world x.1 x.2

theorem mem_ballot {pollId i : ℕ} {userId : String} {votes : List Vote} :
    i ∈ ballot pollId userId votes ↔ ⟨pollId, userId, i⟩ ∈ votes := by
  simp only [ballot, List.mem_map, List.mem_filter, Vote.isOf, Bool.and_eq_true, decide_eq_true_eq]
  constructor
  · rintro ⟨⟨_, _, _⟩, ⟨hv, rfl, rfl⟩, rfl⟩
    exact hv
  · intro hv
    exact ⟨_, ⟨hv, rfl, rfl⟩, rfl⟩

/-- What a transaction leaves of a ballot that it does not replace. -/
theorem filter_sees {tx : Session} {votes : List Vote} {pollId pollId' : ℕ} {userId userId' : String}
    {l : List ℕ} (hcleared : tx.cleared = votes.filter (·.isOf pollId userId))
    (hcast : tx.cast = l.map (Vote.mk pollId userId)) (hne : ¬(pollId' = pollId ∧ userId' = userId)) :
    (tx.sees votes).filter (·.isOf pollId' userId') = votes.filter (·.isOf pollId' userId') := by
  rw [Session.sees, List.filter_append, List.filter_filter]
  have hnew : tx.cast.filter (·.isOf pollId' userId') = [] := by
    rw [hcast, List.filter_eq_nil_iff]
    rintro v hv
    obtain ⟨i, -, rfl⟩ := List.mem_map.1 hv
    rw [Vote.isOf, Bool.and_eq_true, decide_eq_true_eq, decide_eq_true_eq]
    exact fun h => hne ⟨h.1.symm, h.2.symm⟩
  rw [hnew, List.append_nil]
  refine List.filter_congr fun v hv => ?_
  by_cases hof : v.isOf pollId' userId' = true
  · rw [hof, Bool.true_and, decide_eq_true_eq, hcleared, List.mem_filter]
    rintro ⟨-, hof'⟩
    simp only [Vote.isOf, Bool.and_eq_true, decide_eq_true_eq] at hof hof'
    exact hne ⟨hof.1.symm.trans hof'.1, hof.2.symm.trans hof'.2⟩
  · rw [Bool.not_eq_true] at hof
    rw [hof, Bool.false_and]

/-- What a transaction makes of the ballot that it replaces. -/
theorem ballot_sees {tx : Session} {votes : List Vote} {pollId : ℕ} {userId : String} {l : List ℕ}
    (hcleared : tx.cleared = votes.filter (·.isOf pollId userId))
    (hcast : tx.cast = l.map (Vote.mk pollId userId)) :
    ballot pollId userId (tx.sees votes) = l := by
  have hold : (votes.filter (· ∉ tx.cleared)).filter (·.isOf pollId userId) = [] := by
    rw [List.filter_eq_nil_iff]
    intro v hv hof
    obtain ⟨hv, hnot⟩ := List.mem_filter.1 hv
    exact of_decide_eq_true hnot (hcleared ▸ List.mem_filter.2 ⟨hv, hof⟩)
  have hnew : tx.cast.filter (·.isOf pollId userId) = tx.cast := by
    rw [List.filter_eq_self, hcast]
    intro v hv
    obtain ⟨i, -, rfl⟩ := List.mem_map.1 hv
    simp [Vote.isOf]
  rw [ballot, Session.sees, List.filter_append, hold, List.nil_append, hnew, hcast, List.map_map]
  exact List.map_id _

theorem sees_of_empty {tx : Session} (hcleared : tx.cleared = []) (hcast : tx.cast = [])
    (votes : List Vote) : tx.sees votes = votes := by
  rw [Session.sees, hcleared, hcast, List.append_nil, List.filter_eq_self]
  simp

/-- What a step does to the locks and the votes. -/
theorem answer_cases {i : ℕ} {db db' : Db} {tx tx' : Session} {q : Statement} {r : q.Result}
    (h : answer hashtext i db tx q = some (r, db', tx')) :
    (∃ key, q = .advisoryLock key ∧ db.lockFree i (hashtext key) = true ∧
      db' = { db with locks := (hashtext key, i) :: db.locks }) ∨
    (q = .commit ∧ db' = db.commit i tx) ∨
    (∃ userId frame, q = .sendToUser userId frame ∧
      db' = { db with sent := db.sent ++ [(userId, frame)] }) ∨
    (∃ nextId, db' = { db with nextId := nextId }) := by
  cases q with
  | advisoryLock key =>
    rw [answer] at h
    split_ifs at h with hfree
    cases h
    exact .inl ⟨key, rfl, hfree, rfl⟩
  | commit =>
    cases h
    exact .inr (.inl ⟨rfl, rfl⟩)
  | sendToUser userId frame =>
    cases h
    exact .inr (.inr (.inl ⟨userId, frame, rfl, rfl⟩))
  | insertVotes pollId userId optionIndices =>
    rw [answer] at h
    split_ifs at h
    cases h
    exact .inr (.inr (.inr ⟨_, rfl⟩))
  | _ =>
    cases h
    exact .inr (.inr (.inr ⟨_, rfl⟩))

/-- What is known of a session is kept by a step that keeps its lock and its ballot. -/
theorem held_mono {i : ℕ} {db db' : Db} {tx : Session} {q : Statement} (hle : db.world ≤ db'.world)
    (hlocks : ∀ k, (k, i) ∈ db.locks → (k, i) ∈ db'.locks)
    (hvotes : ∀ pollId userId,
      (hashtext ("poll_vote:" ++ toString pollId ++ ":" ++ userId), i) ∈ db.locks →
        db'.pollVotes.filter (·.isOf pollId userId) = db.pollVotes.filter (·.isOf pollId userId))
    (h : held hashtext i db tx q) : held hashtext i db' tx q := by
  have hcleared : ∀ {pollId userId}, Cleared hashtext i db tx pollId userId →
      Cleared hashtext i db' tx pollId userId := fun h =>
    ⟨hlocks _ h.locked, h.cleared.trans (hvotes _ _ h.locked).symm, h.created⟩
  cases q with
  | deleteVotes pollId userId => exact ⟨h.1, hlocks _ h.2⟩
  | insertVotes pollId userId optionIndices => exact ⟨hcleared h.1, h.2⟩
  | commit =>
    rcases h with h | ⟨pollId, userId, l, h, hcounts, hcast⟩
    · exact .inl h
    · exact .inr ⟨pollId, userId, l, hcleared h, fun hne => (hcounts hne).mono hle, hcast⟩
  | _ => exact h

theorem poll?_commit {db : Db} {i : ℕ} {tx : Session} {pollId : ℕ} {p : Poll}
    (h : (db.commit i tx).poll? pollId = some p) :
    db.poll? pollId = some p ∨ db.poll? pollId = none := by
  change (db.polls ++ tx.created).find? (·.id = pollId) = some p at h
  rw [List.find?_append] at h
  cases hp : db.polls.find? (·.id = pollId) with
  | none => exact .inr hp
  | some p' =>
    rw [hp, Option.some_or] at h
    exact .inl (hp.trans h)

theorem mem_filter_locks {db : Db} {i j : ℕ} {k : ℤ} (hne : j ≠ i) :
    (k, j) ∈ db.locks → (k, j) ∈ db.locks.filter fun l => l.2 ≠ i := fun h =>
  List.mem_filter.2 ⟨h, by simpa using hne⟩

theorem inv_commit {db : Db} {replies : List (Request × Reply)} {i : ℕ} {tx : Session}
    (hI : Inv db replies) (h : held hashtext i db tx .commit) : Inv (db.commit i tx) replies := by
  have hle : db.world ≤ (db.commit i tx).world :=
    ⟨List.prefix_append _ _, fun votes hv => List.mem_cons_of_mem _ hv⟩
  have hholder : ∀ k j j', (k, j) ∈ (db.commit i tx).locks → (k, j') ∈ (db.commit i tx).locks →
      j = j' := fun k j j' hj hj' =>
    hI.holder k j j' (List.mem_of_mem_filter hj) (List.mem_of_mem_filter hj')
  have hsent : ∀ x ∈ db.sent, Sent (db.commit i tx).world x.1 x.2 := fun x hx =>
    (hI.sent x hx).mono hle
  have hanswered : ∀ x ∈ replies, Answered (db.commit i tx).world x.1 x.2 := fun x hx =>
    (hI.answered x hx).mono hle
  have hpoll : ∀ {pollId p}, db.poll? pollId = some p → (db.commit i tx).poll? pollId = some p :=
    fun hp => find?_of_prefix hle.1 hp
  -- A ballot on a poll that was not there is empty.
  have hnone : ∀ pollId userId, db.poll? pollId = none → ballot pollId userId db.pollVotes = [] := by
    intro pollId userId hp
    refine List.eq_nil_iff_forall_not_mem.2 fun k hk => ?_
    obtain ⟨p, hp', -⟩ := hI.option _ (mem_ballot.1 hk)
    exact absurd (hp.symm.trans hp') (by simp)
  rcases h with ⟨hcleared, hcast⟩ | ⟨pollId, userId, l, hcleared, hcounts, hcast⟩
  · have hvotes : (db.commit i tx).pollVotes = db.pollVotes := sees_of_empty hcleared hcast _
    refine ⟨hholder, fun v hv => ?_, fun pollId userId p hp hsingle => ?_, hsent, hanswered⟩
    · obtain ⟨p, hp, hlt⟩ := hI.option v (hvotes ▸ hv)
      exact ⟨p, hpoll hp, hlt⟩
    · rw [hvotes]
      rcases poll?_commit hp with hp | hp
      · exact hI.single pollId userId p hp hsingle
      · simp [hnone pollId userId hp]
  · refine ⟨hholder, fun v hv => ?_, fun pollId' userId' p hp hsingle => ?_, hsent, hanswered⟩
    · rcases List.mem_append.1 hv with hv | hv
      · obtain ⟨p, hp, hlt⟩ := hI.option v (List.mem_of_mem_filter hv)
        exact ⟨p, hpoll hp, hlt⟩
      · rw [hcast] at hv
        obtain ⟨k, hk, rfl⟩ := List.mem_map.1 hv
        obtain ⟨p, hp, hlt, -⟩ := hcounts (List.ne_nil_of_mem hk)
        exact ⟨p, hpoll hp, hlt k hk⟩
    · by_cases hsame : pollId' = pollId ∧ userId' = userId
      · obtain ⟨rfl, rfl⟩ := hsame
        change (ballot _ _ (tx.sees db.pollVotes)).length ≤ 1
        rw [ballot_sees hcleared.cleared hcast]
        by_cases hl : l = []
        · simp [hl]
        · obtain ⟨p', hp', -, hone⟩ := hcounts hl
          obtain rfl := Option.some.inj (hp.symm.trans (hpoll hp'))
          exact hone hsingle
      · change (ballot _ _ (tx.sees db.pollVotes)).length ≤ 1
        rw [ballot, filter_sees hcleared.cleared hcast hsame]
        rcases poll?_commit hp with hp | hp
        · exact hI.single pollId' userId' p hp hsingle
        · have hnil := hnone pollId' userId' hp
          rw [ballot] at hnil
          simp [hnil]

/-- Where a commit of the request that holds the lock of another ballot leaves that ballot. -/
theorem filter_commit {db : Db} {i j : ℕ} {tx : Session} (hne : j ≠ i)
    (hholder : ∀ k i j, (k, i) ∈ db.locks → (k, j) ∈ db.locks → i = j)
    (h : held hashtext i db tx .commit) {pollId : ℕ} {userId : String}
    (hlock : (hashtext ("poll_vote:" ++ toString pollId ++ ":" ++ userId), j) ∈ db.locks) :
    (db.commit i tx).pollVotes.filter (·.isOf pollId userId) =
      db.pollVotes.filter (·.isOf pollId userId) := by
  change (tx.sees db.pollVotes).filter _ = _
  rcases h with ⟨hcleared, hcast⟩ | ⟨pollId', userId', l, hcleared, -, hcast⟩
  · rw [sees_of_empty hcleared hcast]
  · refine filter_sees hcleared.cleared hcast ?_
    rintro ⟨rfl, rfl⟩
    exact hne (hholder _ _ _ hlock hcleared.locked)

theorem inv_serve {s : State Db Session Statement Statement.Result Request Reply} {i : ℕ}
    {a : Request} {tx : Session} {q : Statement} {next : q.Result → Route Reply} {x : q.Result}
    {db : Db} {tx' : Session} (hserved : Served (routes hashtext) s i a tx q next x db tx')
    (hI : Inv s.store s.replies) (hpre : pre hashtext a q next i s.store tx) :
    Inv db (s.replies ++ Service.replyOf a (next x)) := by
  obtain ⟨⟨g, hallowed, hnext⟩, hheld⟩ := hpre
  obtain ⟨hle, hanswered⟩ := answer_world hserved.answer
  have hkeeps := hnext db.world hle x hanswered
  -- What is answered holds of the world that the request has seen.
  have hreply : Inv db s.replies → Inv db (s.replies ++ Service.replyOf a (next x)) := by
    intro hI
    refine ⟨hI.holder, hI.option, hI.single, hI.sent, fun y hy => ?_⟩
    rcases List.mem_append.1 hy with hy | hy
    · exact hI.answered y hy
    · cases hp : next x with
      | ask q' next' =>
        rw [hp] at hy
        cases hy
      | done b =>
        rw [hp] at hy hkeeps
        obtain rfl := List.mem_singleton.1 hy
        exact hkeeps
  refine hreply ?_
  rcases answer_cases hserved.answer with ⟨key, rfl, hfree, rfl⟩ | ⟨rfl, rfl⟩ |
    ⟨userId, frame, rfl, rfl⟩ | ⟨nextId, rfl⟩
  · refine ⟨fun k j j' hj hj' => ?_, hI.option, hI.single, hI.sent, hI.answered⟩
    -- Who holds the lock that is taken holds it already.
    have hown : ∀ j, (hashtext key, j) ∈ s.store.locks → j = i := by
      intro j hj
      simpa using List.all_eq_true.1 hfree _ hj
    rcases List.mem_cons.1 hj with hj | hj <;> rcases List.mem_cons.1 hj' with hj' | hj'
    · cases hj
      cases hj'
      rfl
    · cases hj
      exact (hown _ hj').symm
    · cases hj'
      exact hown _ hj
    · exact hI.holder k j j' hj hj'
  · exact inv_commit hI hheld
  · refine ⟨hI.holder, hI.option, hI.single, fun y hy => ?_, hI.answered⟩
    rcases List.mem_append.1 hy with hy | hy
    · exact hI.sent y hy
    · obtain rfl := List.mem_singleton.1 hy
      exact hallowed
  · exact ⟨hI.holder, hI.option, hI.single, hI.sent, hI.answered⟩

theorem pre_stable {s : State Db Session Statement Statement.Result Request Reply} {i : ℕ}
    {a : Request} {tx : Session} {q : Statement} {next : q.Result → Route Reply} {x : q.Result}
    {db : Db} {tx' : Session} (hserved : Served (routes hashtext) s i a tx q next x db tx')
    (hI : Inv s.store s.replies) (hpre : pre hashtext a q next i s.store tx) {j : ℕ}
    {a' : Request} {k : Session} {q' : Statement} {next' : q'.Result → Route Reply} (hne : j ≠ i)
    (h : pre hashtext a' q' next' j s.store k) : pre hashtext a' q' next' j db k := by
  obtain ⟨hle, -⟩ := answer_world hserved.answer
  refine ⟨Program.Meets.mono (fun _ _ q g => allowed_mono q g) (fun _ _ _ => Answered.mono) hle h.1,
    ?_⟩
  rcases answer_cases hserved.answer with ⟨key, rfl, -, rfl⟩ | ⟨rfl, rfl⟩ |
    ⟨userId, frame, rfl, rfl⟩ | ⟨nextId, rfl⟩
  · exact held_mono hle (fun _ => List.mem_cons_of_mem _) (fun _ _ _ => rfl) h.2
  · exact held_mono hle (fun _ => mem_filter_locks hne)
      (fun _ _ => filter_commit hne hI.holder hpre.2) h.2
  · exact held_mono hle (fun _ => id) (fun _ _ _ => rfl) h.2
  · exact held_mono hle (fun _ => id) (fun _ _ _ => rfl) h.2

theorem asserted_start (i : ℕ) (a : Request) (db : Db) :
    Asserted (pre hashtext) i a db ⟨[], [], []⟩ (handle a) := by
  have hkeeps := handle_keeps a db.world
  have hheld : heldAt hashtext i db ⟨[], [], []⟩ (handle a) := by
    cases a with
    | create userId chat_id question options allow_multiple is_anonymous =>
      change heldAt _ _ _ _ (createPoll ..)
      unfold createPoll
      split_ifs
      exacts [trivial, rfl]
    | vote userId pollId option_indices =>
      change heldAt _ _ _ _ (Polls.vote ..)
      unfold Polls.vote
      split_ifs
      exacts [trivial, rfl]
    | read userId pollId => rfl
  cases hp : handle a with
  | done b => trivial
  | ask q next =>
    rw [hp] at hkeeps hheld
    exact ⟨hkeeps, hheld⟩

/-- Ann and Bob are members of a group. -/
def annAndBob : Db where
  tables := ⟨[(1, .public_open)], [⟨1, "ann", none⟩, ⟨1, "bob", none⟩], 0⟩
  polls := []
  pollVotes := []
  earlier := []
  locks := []
  nextId := 0
  sent := []

end OneToThree.Polls
