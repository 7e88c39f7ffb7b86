import OneToThree.Lib.InsMap
import OneToThree.Lib.Machine
import Mathlib.Data.Int.Init

/-!
# Unread counters

For every chat the client counts the unread messages, those of them that mention the user and those
in each thread. Reading a thread takes its messages off the total of the chat, but not off the
mentions.

* `consistent_iff`: the counters agree all along a run exactly if no thread is read that leaves a
  chat with more mentions than messages.
-/

namespace OneToThree.Unread

abbrev ChatId := String
abbrev ThreadId := String
abbrev UserId := String

structure ChatUnreadState where
  total : ℤ
  mentions : ℤ
  threads : InsMap ThreadId ℤ

def emptyUnreadState : ChatUnreadState := ⟨0, 0, ∅⟩

abbrev UnreadByChat := InsMap ChatId ChatUnreadState

def sum : List ℤ → ℤ
  | [] => 0
  | x :: l => x + sum l

def countUnreadTotal (unreadByChat : UnreadByChat) : ℤ :=
  sum (unreadByChat.entries.map (·.2.total))

def ChatUnreadState.threadSum (x : ChatUnreadState) : ℤ := sum (x.threads.entries.map (·.2))

structure State where
  unreadByChat : UnreadByChat
  unreadTotal : ℤ

structure InboundParams where
  chatId : ChatId
  senderId : UserId
  replyToId : Option ThreadId
  /-- The sender of the message that is replied to. -/
  replyToSenderId : Option UserId
  isForegroundVisible : Bool
  isActiveChat : Bool
  userId : Option UserId

/-- A row of the list of chats. -/
structure ApiChatRow where
  id : ChatId
  unread_count : Option ℤ

/-- A text that is there and not empty. -/
def isTruthy (t : Option String) : Bool := t.any (· ≠ "")

def isReplyToOwnMessage (replyToSenderId userId : Option UserId) : Bool :=
  isTruthy replyToSenderId && isTruthy userId && replyToSenderId = userId

namespace State

def start : State := ⟨∅, 0⟩

def withUnread (unreadByChat : UnreadByChat) : State :=
  ⟨unreadByChat, countUnreadTotal unreadByChat⟩

def markChatRead (s : State) (chatId : ChatId) : State :=
  if s.unreadByChat.has chatId then withUnread (s.unreadByChat.delete chatId) else s

def markThreadRead (s : State) (chatId : ChatId) (threadId : ThreadId) : State :=
  match s.unreadByChat.get? chatId with
  | none => s
  | some chatUnread =>
    let dec := (chatUnread.threads.get? threadId).getD 0
    if dec ≤ 0 then s
    else
      let nextChat := { chatUnread with
        total := max 0 (chatUnread.total - dec)
        threads := chatUnread.threads.delete threadId }
      withUnread (if nextChat.total ≤ 0 then (s.unreadByChat.set chatId nextChat).delete chatId
        else s.unreadByChat.set chatId nextChat)

/-- A message more, in its thread and among the mentions. -/
def inbound (x : ChatUnreadState) (params : InboundParams) : ChatUnreadState where
  total := x.total + 1
  mentions := x.mentions + if isReplyToOwnMessage params.replyToSenderId params.userId then 1 else 0
  threads :=
    match params.replyToId with
    | some threadId =>
      if threadId = "" then x.threads
      else x.threads.set threadId ((x.threads.get? threadId).getD 0 + 1)
    | none => x.threads

def trackInboundUnread (s : State) (params : InboundParams) : State :=
  if !isTruthy params.userId || some params.senderId = params.userId ||
      (params.isForegroundVisible && params.isActiveChat) then s
  else
    let chatUnread := (s.unreadByChat.get? params.chatId).getD emptyUnreadState
    withUnread (s.unreadByChat.set params.chatId (inbound chatUnread params))

/-- The chats that are not on the list are left out. `changed`: something was. -/
def prune (unreadByChat : UnreadByChat) (chats : List ApiChatRow) : UnreadByChat × Bool :=
  (unreadByChat.keys.filter fun chatId => chats.all (·.id ≠ chatId)).foldl
    (fun next chatId => (next.1.delete chatId, true)) (unreadByChat, false)

/-- A row of the list raises the total of its chat. -/
def seedRow (activeChatId : Option ChatId) (next : UnreadByChat × Bool) (chat : ApiChatRow) :
    UnreadByChat × Bool :=
  let serverCount := chat.unread_count.getD 0
  if serverCount ≤ 0 || some chat.id = activeChatId then next
  else
    let existing := next.1.get? chat.id
    if existing.all (·.total < serverCount) then
      (next.1.set chat.id ⟨serverCount, (existing.map (·.mentions)).getD 0,
        (existing.map (·.threads)).getD ∅⟩, true)
    else next

def seedUnreadFromApi (s : State) (chats : List ApiChatRow) (activeChatId : Option ChatId)
    (authoritative : Bool) : State :=
  let pruned := if authoritative then prune s.unreadByChat chats else (s.unreadByChat, false)
  let next := chats.foldl (seedRow activeChatId) pruned
  if next.2 then withUnread next.1 else s

def clearAllUnread : State := start

end State

inductive Event
  | trackInboundUnread (params : InboundParams)
  | markThreadRead (chatId : ChatId) (threadId : ThreadId)
  | markChatRead (chatId : ChatId)
  | seedUnreadFromApi (chats : List ApiChatRow) (activeChatId : Option ChatId)
    (authoritative : Bool)
  | clearAllUnread

def machine : Machine State Event where
  init s := s = .start
  step s
    | .trackInboundUnread params => some (s.trackInboundUnread params)
    | .markThreadRead chatId threadId => some (s.markThreadRead chatId threadId)
    | .markChatRead chatId => some (s.markChatRead chatId)
    | .seedUnreadFromApi chats activeChatId authoritative =>
      some (s.seedUnreadFromApi chats activeChatId authoritative)
    | .clearAllUnread => some .clearAllUnread

/-! ## Sums -/

theorem sum_eq_total {m : InsMap ThreadId ℤ} (h : ∀ k v, m.get? k = some v → 0 < v) :
    sum (m.entries.map (·.2)) = (m.total Int.toNat : ℕ) := by
  have hentries : ∀ p ∈ m.entries, 0 < p.2 := fun p hp => h p.1 p.2 (InsMap.get?_eq_some_iff.2 hp)
  rw [InsMap.total]
  generalize m.entries = l at hentries
  induction l with
  | nil => rfl
  | cons p l ih =>
    have hp := hentries p List.mem_cons_self
    have hl := ih fun q hq => hentries q (List.mem_cons_of_mem _ hq)
    rw [List.map_cons, sum, InsMap.sumOver, hl]
    omega

/-- The counters of a chat agree, mentions apart. -/
structure ChatUnreadState.Counts (x : ChatUnreadState) : Prop where
  thread_pos : ∀ k v, x.threads.get? k = some v → 0 < v
  threads_le : x.threadSum ≤ x.total
  mentions_nonneg : 0 ≤ x.mentions

theorem counts_emptyUnreadState : emptyUnreadState.Counts :=
  ⟨fun _ _ h => absurd h.symm (Option.some_ne_none _), Int.le_refl 0, Int.le_refl 0⟩

namespace ChatUnreadState.Counts

variable {x : ChatUnreadState}

theorem threadSum_eq (h : x.Counts) : x.threadSum = (x.threads.total Int.toNat : ℕ) :=
  sum_eq_total h.thread_pos

theorem inbound (h : x.Counts) (params : InboundParams) : (State.inbound x params).Counts := by
  have hle := h.threads_le
  rw [h.threadSum_eq] at hle
  have hmentions := h.mentions_nonneg
  have hnew : 0 ≤ (State.inbound x params).mentions := by
    simp only [State.inbound]
    split_ifs <;> omega
  rcases hreply : params.replyToId with - | threadId
  · refine ⟨fun k v => ?_, ?_, hnew⟩
    · simp only [State.inbound, hreply]
      exact h.thread_pos k v
    · simp only [State.inbound, hreply, threadSum]
      rw [sum_eq_total h.thread_pos]
      omega
  · by_cases hid : threadId = ""
    · refine ⟨fun k v => ?_, ?_, hnew⟩
      · simp only [State.inbound, hreply, if_pos hid]
        exact h.thread_pos k v
      · simp only [State.inbound, hreply, if_pos hid, threadSum]
        rw [sum_eq_total h.thread_pos]
        omega
    · have hold : 0 ≤ (x.threads.get? threadId).getD 0 := by
        cases hget : x.threads.get? threadId with
        | none => exact Int.le_refl 0
        | some v => exact Int.le_of_lt (h.thread_pos threadId v hget)
      have hpos : ∀ k v, (x.threads.set threadId ((x.threads.get? threadId).getD 0 + 1)).get? k =
          some v → 0 < v := by
        intro k v hk
        rw [InsMap.get?_set] at hk
        split_ifs at hk
        · obtain rfl := Option.some.inj hk
          omega
        · exact h.thread_pos k v hk
      have htotal := InsMap.total_set Int.toNat x.threads threadId
        ((x.threads.get? threadId).getD 0 + 1)
      refine ⟨fun k v => ?_, ?_, hnew⟩
      · simp only [State.inbound, hreply, if_neg hid]
        exact hpos k v
      · simp only [State.inbound, hreply, if_neg hid, threadSum]
        rw [sum_eq_total hpos]
        cases hget : x.threads.get? threadId with
        | none => simp only [hget, Option.elim_none, Option.getD_none] at htotal ⊢; omega
        | some v =>
          simp only [hget, Option.elim_some, Option.getD_some] at htotal hold ⊢
          omega

/-- A thread is read: its messages are taken off the total. -/
theorem delete (h : x.Counts) {threadId : ThreadId} {dec : ℤ}
    (hdec : x.threads.get? threadId = some dec) :
    (⟨max 0 (x.total - dec), x.mentions, x.threads.delete threadId⟩ : ChatUnreadState).Counts ∧
      dec ≤ x.total := by
  have hle := h.threads_le
  rw [h.threadSum_eq] at hle
  have hpos : ∀ k v, (x.threads.delete threadId).get? k = some v → 0 < v := by
    intro k v hk
    rw [InsMap.get?_delete] at hk
    split_ifs at hk
    exact h.thread_pos k v hk
  have htotal := InsMap.total_delete Int.toNat x.threads threadId
  rw [hdec, Option.elim_some] at htotal
  have hdecpos := h.thread_pos threadId dec hdec
  refine ⟨⟨hpos, ?_, h.mentions_nonneg⟩, by omega⟩
  rw [threadSum, sum_eq_total hpos]
  dsimp only
  omega

/-- The server raises the total. -/
theorem raise (h : x.Counts) {count : ℤ} (hcount : x.total ≤ count) :
    (⟨count, x.mentions, x.threads⟩ : ChatUnreadState).Counts :=
  ⟨h.thread_pos, Int.le_trans h.threads_le hcount, h.mentions_nonneg⟩

end ChatUnreadState.Counts

/-! ## Chats -/

/-- The counters of a chat agree, `q`: those of its mentions too. -/
def Fine (q : Prop) (x : ChatUnreadState) : Prop :=
  x.Counts ∧ 0 < x.total ∧ (q → x.mentions ≤ x.total)

def AllFine (q : Prop) (u : UnreadByChat) : Prop := ∀ c x, u.get? c = some x → Fine q x

section
variable {q : Prop} {u : UnreadByChat}

theorem AllFine.set (h : AllFine q u) {x : ChatUnreadState} (hx : Fine q x) (c : ChatId) :
    AllFine q (u.set c x) := by
  intro c' y hy
  rw [InsMap.get?_set] at hy
  split_ifs at hy
  · exact Option.some.inj hy ▸ hx
  · exact h c' y hy

theorem AllFine.delete (h : AllFine q u) (c : ChatId) : AllFine q (u.delete c) := by
  intro c' y hy
  rw [InsMap.get?_delete] at hy
  split_ifs at hy
  exact h c' y hy

theorem AllFine.prune (h : AllFine q u) (chats : List ApiChatRow) :
    AllFine q (State.prune u chats).1 := by
  rw [State.prune]
  generalize u.keys.filter (fun chatId => chats.all (·.id ≠ chatId)) = l
  have hfold : ∀ next : UnreadByChat × Bool, AllFine q next.1 → AllFine q
      (l.foldl (fun next chatId => (next.1.delete chatId, true)) next).1 := by
    induction l with
    | nil => exact fun _ hnext => hnext
    | cons c l ih => exact fun next hnext => ih (next.1.delete c, true) (hnext.delete c)
  exact hfold (u, false) h

theorem AllFine.seedRow {next : UnreadByChat × Bool} (h : AllFine q next.1)
    (activeChatId : Option ChatId) (chat : ApiChatRow) :
    AllFine q (State.seedRow activeChatId next chat).1 := by
  rw [State.seedRow]
  dsimp only
  split_ifs with hskip hraise
  · exact h
  · have hpos : 0 < chat.unread_count.getD 0 := by
      simp only [Bool.or_eq_true, decide_eq_true_eq, not_or] at hskip
      omega
    refine h.set ?_ chat.id
    cases hget : next.1.get? chat.id with
    | none =>
      exact ⟨⟨fun _ _ hv => absurd hv.symm (Option.some_ne_none _), Int.le_of_lt hpos,
        Int.le_refl 0⟩, hpos, fun _ => Int.le_of_lt hpos⟩
    | some x =>
      obtain ⟨hcounts, -, hmentions⟩ := h chat.id x hget
      rw [hget, Option.all_some, decide_eq_true_eq] at hraise
      exact ⟨hcounts.raise (Int.le_of_lt hraise), hpos, fun hq =>
        Int.le_trans (hmentions hq) (Int.le_of_lt hraise)⟩
  · exact h

theorem AllFine.foldl_seedRow {next : UnreadByChat × Bool} (h : AllFine q next.1)
    (activeChatId : Option ChatId) (chats : List ApiChatRow) :
    AllFine q (chats.foldl (State.seedRow activeChatId) next).1 := by
  induction chats generalizing next with
  | nil => exact h
  | cons chat chats ih => exact ih (h.seedRow activeChatId chat)

theorem Fine.inbound {x : ChatUnreadState} (hcounts : x.Counts) (htotal : 0 ≤ x.total)
    (hmentions : q → x.mentions ≤ x.total) (params : InboundParams) :
    Fine q (State.inbound x params) := by
  refine ⟨hcounts.inbound params, ?_, fun hq => ?_⟩
  · simp only [State.inbound]
    omega
  · have hle := hmentions hq
    simp only [State.inbound]
    split_ifs <;> omega

end

/-! ## Steps -/

/-- The total is that of the chats, whose counters agree, mentions apart. -/
structure Sound (s : State) : Prop where
  total : s.unreadTotal = countUnreadTotal s.unreadByChat
  chats : AllFine False s.unreadByChat

section
variable {q : Prop} {s : State}

theorem allFine_trackInboundUnread (h : AllFine q s.unreadByChat) (params : InboundParams) :
    AllFine q (s.trackInboundUnread params).unreadByChat := by
  rw [State.trackInboundUnread]
  split_ifs
  · exact h
  · refine h.set ?_ params.chatId
    cases hget : s.unreadByChat.get? params.chatId with
    | none => exact .inbound counts_emptyUnreadState (Int.le_refl 0) (fun _ => Int.le_refl 0) params
    | some x =>
      obtain ⟨hcounts, htotal, hmentions⟩ := h params.chatId x hget
      exact .inbound hcounts (Int.le_of_lt htotal) hmentions params

theorem allFine_markChatRead (h : AllFine q s.unreadByChat) (chatId : ChatId) :
    AllFine q (s.markChatRead chatId).unreadByChat := by
  rw [State.markChatRead]
  split_ifs
  · exact h.delete chatId
  · exact h

theorem allFine_seedUnreadFromApi (h : AllFine q s.unreadByChat) (chats : List ApiChatRow)
    (activeChatId : Option ChatId) (authoritative : Bool) :
    AllFine q (s.seedUnreadFromApi chats activeChatId authoritative).unreadByChat := by
  rw [State.seedUnreadFromApi]
  split_ifs
  · exact (h.prune chats).foldl_seedRow activeChatId chats
  · exact h
  · have hstart : AllFine q (s.unreadByChat, false).1 := h
    exact hstart.foldl_seedRow activeChatId chats
  · exact h

/-- What the reading of a thread does. -/
theorem markThreadRead_cases (h : AllFine False s.unreadByChat) (c : ChatId) (t : ThreadId) :
    (s.markThreadRead c t = s ∧
      (s.unreadByChat.get? c = none ∨
        ∃ x, s.unreadByChat.get? c = some x ∧ x.threads.get? t = none)) ∨
    ∃ x dec, s.unreadByChat.get? c = some x ∧ x.threads.get? t = some dec ∧
      ((x.total - dec ≤ 0 ∧
          ∃ y, s.markThreadRead c t = .withUnread ((s.unreadByChat.set c y).delete c)) ∨
        0 < x.total - dec ∧ s.markThreadRead c t = .withUnread
          (s.unreadByChat.set c ⟨max 0 (x.total - dec), x.mentions, x.threads.delete t⟩)) := by
  rw [State.markThreadRead]
  cases hget : s.unreadByChat.get? c with
  | none => exact .inl ⟨rfl, .inl rfl⟩
  | some x =>
    cases hdec : x.threads.get? t with
    | none =>
      refine .inl ⟨?_, .inr ⟨x, rfl, hdec⟩⟩
      dsimp only
      rw [hdec, Option.getD_none, if_pos (Int.le_refl 0)]
    | some dec =>
      have hpos := (h c x hget).1.thread_pos t dec hdec
      refine .inr ⟨x, dec, rfl, hdec, ?_⟩
      dsimp only
      rw [hdec, Option.getD_some, if_neg (by omega)]
      by_cases hle : x.total - dec ≤ 0
      · rw [if_pos (by omega)]
        exact .inl ⟨hle, _, rfl⟩
      · rw [if_neg (by omega)]
        exact .inr ⟨by omega, rfl⟩

theorem allFine_markThreadRead (h : AllFine False s.unreadByChat) (hq : AllFine q s.unreadByChat)
    (c : ChatId) (t : ThreadId)
    (hok : ∀ x dec, s.unreadByChat.get? c = some x → x.threads.get? t = some dec →
      0 < x.total - dec → q → x.mentions ≤ x.total - dec) :
    AllFine q (s.markThreadRead c t).unreadByChat := by
  rcases markThreadRead_cases h c t with ⟨heq, -⟩ | ⟨x, dec, hget, hdec, ⟨-, y, heq⟩ | ⟨hlt, heq⟩⟩
  · rw [heq]
    exact hq
  · rw [heq]
    intro c' z hz
    have hz' : ((s.unreadByChat.set c y).delete c).get? c' = some z := hz
    rw [InsMap.get?_delete] at hz'
    split_ifs at hz' with hc
    rw [InsMap.get?_set_ne _ _ hc] at hz'
    exact hq c' z hz'
  · rw [heq]
    have hcounts := (h c x hget).1
    refine hq.set ⟨(hcounts.delete hdec).1, ?_, fun hq' => ?_⟩ c
    · dsimp only
      omega
    · have hle := hok x dec hget hdec hlt hq'
      dsimp only
      omega

end

/-- The total is counted anew with every change. -/
theorem total_step {s t : State} {e : Event} (h : machine.step s e = some t) :
    t = s ∨ t.unreadTotal = countUnreadTotal t.unreadByChat := by
  cases e with
  | trackInboundUnread params =>
    obtain rfl := Option.some.inj h
    rw [State.trackInboundUnread]
    split_ifs
    · exact .inl rfl
    · exact .inr rfl
  | markThreadRead c t =>
    obtain rfl := Option.some.inj h
    rw [State.markThreadRead]
    split
    · exact .inl rfl
    · dsimp only
      split_ifs
      · exact .inl rfl
      · exact .inr rfl
      · exact .inr rfl
  | markChatRead c =>
    obtain rfl := Option.some.inj h
    rw [State.markChatRead]
    split_ifs
    · exact .inr rfl
    · exact .inl rfl
  | seedUnreadFromApi chats activeChatId authoritative =>
    obtain rfl := Option.some.inj h
    rw [State.seedUnreadFromApi]
    split_ifs
    · exact .inr rfl
    · exact .inl rfl
    · exact .inr rfl
    · exact .inl rfl
  | clearAllUnread =>
    obtain rfl := Option.some.inj h
    exact .inr rfl

theorem sound_start : Sound .start :=
  ⟨rfl, fun _ _ h => absurd h.symm (Option.some_ne_none _)⟩

theorem Sound.step {s t : State} {e : Event} (hs : Sound s) (h : machine.step s e = some t) :
    Sound t := by
  refine ⟨(total_step h).elim (fun heq => heq ▸ hs.total) id, ?_⟩
  cases e with
  | trackInboundUnread params =>
    exact Option.some.inj h ▸ allFine_trackInboundUnread hs.chats params
  | markThreadRead c t =>
    exact Option.some.inj h ▸
      allFine_markThreadRead hs.chats hs.chats c t fun _ _ _ _ _ => False.elim
  | markChatRead c => exact Option.some.inj h ▸ allFine_markChatRead hs.chats c
  | seedUnreadFromApi chats activeChatId authoritative =>
    exact Option.some.inj h ▸ allFine_seedUnreadFromApi hs.chats chats activeChatId authoritative
  | clearAllUnread => exact Option.some.inj h ▸ sound_start.chats

/-! ## The counters -/

/-- The counters of all chats agree, and none is negative. -/
structure Consistent (s : State) : Prop where
  total : s.unreadTotal = countUnreadTotal s.unreadByChat
  kept : ∀ c x, s.unreadByChat.get? c = some x → x.total ≠ 0
  threads : ∀ c x, s.unreadByChat.get? c = some x → x.threadSum ≤ x.total
  mentions : ∀ c x, s.unreadByChat.get? c = some x → x.mentions ≤ x.total
  nonneg : 0 ≤ s.unreadTotal ∧ ∀ c x, s.unreadByChat.get? c = some x →
    0 ≤ x.total ∧ 0 ≤ x.mentions ∧ ∀ t v, x.threads.get? t = some v → 0 ≤ v

/-- Reading threads, and chats. -/
def Event.isRead : Event → Bool
  | markThreadRead _ _ => true
  | markChatRead _ => true
  | _ => false

/-- Once every thread and every chat was read, there is nothing left. -/
def Clears (s : State) : Prop :=
  ∀ es t, (∀ e ∈ es, e.isRead = true) → (∀ c ∈ s.unreadByChat.keys, .markChatRead c ∈ es) →
    machine.run s es = some t → t.unreadByChat.entries = [] ∧ t.unreadTotal = 0

/-- No thread is read that leaves its chat with more mentions than messages. -/
def keepsMentions (s : State) : Event → Bool
  | .markThreadRead c t => (s.unreadByChat.get? c).all fun x => (x.threads.get? t).all fun dec =>
    x.total - dec ≤ 0 || x.mentions ≤ x.total - dec
  | _ => true

theorem sum_nonneg {l : List ℤ} (h : ∀ x ∈ l, 0 ≤ x) : 0 ≤ sum l := by
  induction l with
  | nil => exact Int.le_refl 0
  | cons x l ih =>
    have hx := h x List.mem_cons_self
    have hl := ih fun y hy => h y (List.mem_cons_of_mem _ hy)
    rw [sum]
    omega

theorem Sound.total_nonneg {s : State} (hs : Sound s) : 0 ≤ s.unreadTotal := by
  rw [hs.total]
  refine sum_nonneg fun n hn => ?_
  obtain ⟨p, hp, rfl⟩ := List.mem_map.1 hn
  exact Int.le_of_lt (hs.chats p.1 p.2 (InsMap.get?_eq_some_iff.2 hp)).2.1

/-- Only the mentions may disagree. -/
theorem consistent_iff_allFine {s : State} (hs : Sound s) :
    Consistent s ↔ AllFine True s.unreadByChat := by
  constructor
  · intro h c x hx
    obtain ⟨hcounts, htotal, -⟩ := hs.chats c x hx
    exact ⟨hcounts, htotal, fun _ => h.mentions c x hx⟩
  · intro h
    refine ⟨hs.total, fun c x hx => Int.ne_of_gt (h c x hx).2.1,
      fun c x hx => (h c x hx).1.threads_le,
      fun c x hx => (h c x hx).2.2 trivial, hs.total_nonneg, fun c x hx => ?_⟩
    obtain ⟨hcounts, htotal, -⟩ := h c x hx
    exact ⟨Int.le_of_lt htotal, hcounts.mentions_nonneg,
      fun t v hv => Int.le_of_lt (hcounts.thread_pos t v hv)⟩

theorem allFine_step {s t : State} {e : Event} (hs : Sound s)
    (hfine : AllFine True s.unreadByChat) (h : machine.step s e = some t) :
    AllFine True t.unreadByChat ↔ keepsMentions s e = true := by
  cases e with
  | trackInboundUnread params =>
    exact Option.some.inj h ▸ iff_of_true (allFine_trackInboundUnread hfine params) rfl
  | markThreadRead c th =>
    obtain rfl := Option.some.inj h
    constructor
    · intro h
      rcases markThreadRead_cases hs.chats c th with
        ⟨-, hnone | ⟨x, hget, hnone⟩⟩ | ⟨x, dec, hget, hdec, ⟨hle, -⟩ | ⟨-, heq⟩⟩
      · simp [keepsMentions, hnone]
      · simp [keepsMentions, hget, hnone]
      · simp only [keepsMentions, hget, hdec, Option.all_some, Bool.or_eq_true, decide_eq_true_eq]
        exact .inl hle
      · rw [heq] at h
        have hle := (h c _ (InsMap.get?_set_self _ _ _)).2.2 trivial
        dsimp only at hle
        simp only [keepsMentions, hget, hdec, Option.all_some, Bool.or_eq_true, decide_eq_true_eq]
        omega
    · intro hok
      refine allFine_markThreadRead hs.chats hfine c th fun x dec hget hdec hlt _ => ?_
      simp only [keepsMentions, hget, hdec, Option.all_some, Bool.or_eq_true,
        decide_eq_true_eq] at hok
      omega
  | markChatRead c => exact Option.some.inj h ▸ iff_of_true (allFine_markChatRead hfine c) rfl
  | seedUnreadFromApi chats activeChatId authoritative =>
    exact Option.some.inj h ▸
      iff_of_true (allFine_seedUnreadFromApi hfine chats activeChatId authoritative) rfl
  | clearAllUnread =>
    exact Option.some.inj h ▸
      iff_of_true (fun _ _ h => absurd h.symm (Option.some_ne_none _)) rfl

/-- Reading brings in no chat, and the reading of a chat takes it out. -/
theorem keys_read {s t : State} {e : Event} (hs : Sound s) (he : e.isRead = true)
    (h : machine.step s e = some t) {c : ChatId} (hc : c ∈ t.unreadByChat.keys) :
    c ∈ s.unreadByChat.keys ∧ e ≠ .markChatRead c := by
  rw [InsMap.mem_keys] at hc ⊢
  cases e with
  | markThreadRead c' th =>
    obtain rfl := Option.some.inj h
    refine ⟨?_, by simp⟩
    rcases markThreadRead_cases hs.chats c' th with
      ⟨heq, -⟩ | ⟨x, dec, hget, -, ⟨-, y, heq⟩ | ⟨-, heq⟩⟩
    · rwa [heq] at hc
    · rw [heq] at hc
      simp only [State.withUnread, InsMap.get?_delete, InsMap.get?_set] at hc
      split_ifs at hc
      · exact absurd hc (by simp)
      · exact hc
    · rw [heq] at hc
      simp only [State.withUnread, InsMap.get?_set] at hc
      split_ifs at hc with hcc
      · rw [hcc, hget]
        rfl
      · exact hc
  | markChatRead c' =>
    obtain rfl := Option.some.inj h
    rw [State.markChatRead] at hc
    split_ifs at hc with hhas
    · simp only [State.withUnread, InsMap.get?_delete] at hc
      split_ifs at hc with hcc
      · exact absurd hc (by simp)
      · exact ⟨hc, fun h => hcc (Event.markChatRead.inj h).symm⟩
    · refine ⟨hc, fun h => hhas ?_⟩
      rw [Event.markChatRead.inj h]
      exact hc
  | trackInboundUnread => exact absurd he Bool.false_ne_true
  | seedUnreadFromApi => exact absurd he Bool.false_ne_true
  | clearAllUnread => exact absurd he Bool.false_ne_true

theorem keys_run_read {es : List Event} {s t : State} (hs : Sound s)
    (hread : ∀ e ∈ es, e.isRead = true) (h : machine.run s es = some t) {c : ChatId}
    (hc : c ∈ t.unreadByChat.keys) : c ∈ s.unreadByChat.keys ∧ .markChatRead c ∉ es := by
  induction es generalizing s with
  | nil => exact ⟨Option.some.inj h ▸ hc, List.not_mem_nil⟩
  | cons e es ih =>
    obtain ⟨u, hu, h⟩ := Machine.run_cons_eq_some.1 h
    obtain ⟨hcu, hnot⟩ := ih (hs.step hu) (fun e' he' => hread e' (List.mem_cons_of_mem _ he')) h
    obtain ⟨hcs, hne⟩ := keys_read hs (hread e List.mem_cons_self) hu hcu
    exact ⟨hcs, fun hmem => (List.mem_cons.1 hmem).elim (fun heq => hne heq.symm) hnot⟩

theorem Sound.run {es : List Event} {s t : State} (hs : Sound s) (h : machine.run s es = some t) :
    Sound t :=
  Machine.run_invariant (fun _ _ _ hs _ h => Sound.step hs h) (fun _ _ => trivial) hs h

theorem Sound.clears {s : State} (hs : Sound s) : Clears s := by
  intro es t hread hall h
  have hnil : t.unreadByChat.entries = [] := by
    rw [← List.map_eq_nil_iff (f := Prod.fst)]
    refine List.eq_nil_iff_forall_not_mem.2 fun c hc => ?_
    obtain ⟨hcs, hnot⟩ := keys_run_read hs hread h hc
    exact hnot (hall c hcs)
  refine ⟨hnil, ?_⟩
  rw [(hs.run h).total, countUnreadTotal, hnil]
  rfl

/-- The counters agree all along a run, and reading clears them, exactly if no thread is read that
    leaves its chat with more mentions than messages. -/
theorem consistent_iff {es : List Event} {t : State} (h : machine.run .start es = some t) :
    (∀ es₁ es₂, es = es₁ ++ es₂ → ∀ u, machine.run .start es₁ = some u → Consistent u ∧ Clears u) ↔
      (machine.restrict fun s e => keepsMentions s e = true).run .start es = some t := by
  have hstart : AllFine True State.start.unreadByChat :=
    fun _ _ h => absurd h.symm (Option.some_ne_none _)
  rw [← Machine.run_always_iff (J := Sound) (I := fun s => AllFine True s.unreadByChat)
    (fun _ _ _ hs h => hs.step h) (fun _ _ _ hs hfine h => allFine_step hs hfine h) sound_start
    hstart h]
  constructor
  · intro hall es₁ es₂ hes u hu
    exact (consistent_iff_allFine (sound_start.run hu)).1 (hall es₁ es₂ hes u hu).1
  · intro hall es₁ es₂ hes u hu
    have hu' := sound_start.run hu
    exact ⟨(consistent_iff_allFine hu').2 (hall es₁ es₂ hes u hu), hu'.clears⟩

namespace Sample

/-- A message for the user `me`, in a thread or not; one in a thread is a reply to the user. -/
def inbound (thread : Option ThreadId) : Event :=
  .trackInboundUnread ⟨"chat", "peer", thread, thread.map fun _ => "me", false, false, some "me"⟩

/-- The two replies of a thread are read, and another message is not. -/
def threadRead : List Event :=
  [inbound (some "thread"), inbound (some "thread"), inbound none, .markThreadRead "chat" "thread"]

/-- What the chat counts. -/
def counts (s : State) : Option (ℤ × ℤ) :=
  (s.unreadByChat.get? "chat").map fun x => (x.total, x.mentions)

end Sample

theorem consistent_iff_inbound : ∃ t, machine.run .start [Sample.inbound none] = some t ∧
    Consistent t ∧ Clears t := by
  have hrun : ∃ t, machine.run .start [Sample.inbound none] = some t := ⟨_, rfl⟩
  obtain ⟨t, ht⟩ := hrun
  have hok : (machine.restrict fun s e => keepsMentions s e = true).run .start
      [Sample.inbound none] = some t :=
    Machine.run_cons_eq_some.2 ⟨t, Machine.restrict_step.2 ⟨rfl, ht⟩, rfl⟩
  exact ⟨t, ht, (consistent_iff ht).2 hok _ [] (List.append_nil _).symm t ht⟩

/-- One message is left, and both mentions. -/
theorem mentions_left : ∃ t, machine.run .start Sample.threadRead = some t ∧
    Sample.counts t = some (1, 2) ∧ ¬Consistent t := by
  have hrun : (machine.run .start Sample.threadRead).map Sample.counts = some (some (1, 2)) := by
    decide
  obtain ⟨t, ht, hcounts⟩ := Option.map_eq_some_iff.1 hrun
  refine ⟨t, ht, hcounts, fun hconsistent => ?_⟩
  obtain ⟨x, hx, hpair⟩ := Option.map_eq_some_iff.1 hcounts
  have hle := hconsistent.mentions "chat" x hx
  rw [(Prod.mk.inj hpair).1, (Prod.mk.inj hpair).2] at hle
  exact absurd hle (by decide)

end OneToThree.Unread
