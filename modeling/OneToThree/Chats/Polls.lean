import OneToThree.Lib.Transactions
import OneToThree.Lib.JsonUnits

/-!
# Polls

The routes of the polls: `POST /polls`, `POST /polls/:pollId/vote` and `GET /polls/:pollId`, as
programs over the statements on the database (`Lib.Transactions`), with the frames that they send
to the members of the chat.

* A vote replaces the ballot of its user in a transaction, which holds an advisory lock on the
  poll and the user: the old rows are deleted, and the new ones inserted.
* The votes are counted by the database for an anonymous poll that is read, and by the code
  otherwise (`tallyPollVotes`).

Others see the rows of a transaction once it is committed: `Db.versions` are the contents that the
table of votes has had. A statement that violates a key is not answered, and its request fails.
-/

namespace OneToThree.Polls

inductive ChatType
  | direct_e2e
  | group_e2e
  | public_open
  | channel
  deriving DecidableEq

inductive ChannelRole
  | subscriber
  | editor
  | owner
  deriving DecidableEq

/-- A row of `chat_members`. -/
structure Member where
  chatId : ℕ
  userId : String
  channelRole : Option ChannelRole
  deriving DecidableEq

/-- A row of `polls`. -/
structure Poll where
  id : ℕ
  chatId : ℕ
  createdBy : String
  question : JsText
  options : List JsText
  allowMultiple : Bool
  isAnonymous : Bool
  closedAt : Option ℕ
  messageId : Option ℕ
  deriving DecidableEq

/-- A row of `poll_votes`, all of whose columns are its key. -/
structure Vote where
  pollId : ℕ
  userId : String
  optionIndex : ℕ
  deriving DecidableEq

abbrev VoteCounts := List (ℕ × ℕ)

structure PollResults where
  /-- The options with a vote, and how many each of them has. -/
  vote_counts : VoteCounts
  total_voters : ℕ
  my_votes : List ℕ
  is_anonymous : Bool
  deriving DecidableEq

inductive Frame
  | chatMessage (messageId chatId : ℕ) (senderId : String) (pollId : ℕ)
  | pollUpdated (pollId : ℕ) (results : PollResults)
  deriving DecidableEq

/-- What the routes read beside the polls, and the clock. -/
structure Tables where
  chats : List (ℕ × ChatType)
  chatMembers : List Member
  now : ℕ

structure Db where
  tables : Tables
  polls : List Poll
  /-- The votes that are committed. -/
  pollVotes : List Vote
  /-- What was committed before. -/
  earlier : List (List Vote)
  /-- The advisory locks, with the requests whose transactions hold them. -/
  locks : List (ℤ × ℕ)
  /-- The id that is drawn next. -/
  nextId : ℕ
  /-- The frames that were sent, and to whom. -/
  sent : List (String × Frame)

/-- The contents that the table of votes has had. -/
def Db.versions (db : Db) : List (List Vote) := db.pollVotes :: db.earlier

def Db.poll? (db : Db) (id : ℕ) : Option Poll := db.polls.find? (·.id = id)

/-- What a request has done in its transaction. -/
structure Session where
  created : List Poll
  cleared : List Vote
  cast : List Vote

/-! ## Statements -/

inductive Statement
  | selectMembership (chatId : ℕ) (userId : String)
  | selectMembers (chatId : ℕ)
  | selectPoll (pollId : ℕ)
  | currentTime
  | insertPoll (poll : Poll)
  | insertMessage (chatId : ℕ) (senderId : String) (pollId : ℕ)
  | setMessageId (pollId messageId : ℕ)
  | advisoryLock (key : String)
  | deleteVotes (pollId : ℕ) (userId : String)
  | insertVotes (pollId : ℕ) (userId : String) (optionIndices : List ℕ)
  | commit
  | selectBallot (pollId : ℕ) (userId : String)
  | countVotes (pollId : ℕ)
  | countVoters (pollId : ℕ)
  | selectVotes (pollId : ℕ)
  | sendToUser (userId : String) (frame : Frame)

abbrev Statement.Result : Statement → Type
  | selectMembership _ _ => Option (Option ChannelRole × ChatType)
  | selectMembers _ => List String
  | selectPoll _ => Option Poll
  | currentTime | insertPoll _ | insertMessage _ _ _ | countVoters _ => ℕ
  | selectBallot _ _ => List ℕ
  | countVotes _ => VoteCounts
  | selectVotes _ => List Vote
  | setMessageId _ _ | advisoryLock _ | deleteVotes _ _ | insertVotes _ _ _ | commit
  | sendToUser _ _ => Unit

def Vote.isOf (pollId : ℕ) (userId : String) (v : Vote) : Bool :=
  v.pollId = pollId && v.userId = userId

/-- The votes of a poll. -/
def ofPoll (pollId : ℕ) (votes : List Vote) : List Vote := votes.filter (·.pollId = pollId)

/-- The options that a user has voted for. -/
def ballot (pollId : ℕ) (userId : String) (votes : List Vote) : List ℕ :=
  (votes.filter (·.isOf pollId userId)).map (·.optionIndex)

/-- `GROUP BY` the option. -/
def groupByOption (votes : List Vote) : VoteCounts :=
  (votes.map (·.optionIndex)).dedup.map fun i => (i, votes.countP (·.optionIndex = i))

def countDistinctVoters (votes : List Vote) : ℕ := (votes.map (·.userId)).dedup.length

/-- The rows that are seen within a transaction. -/
def Session.sees (tx : Session) (votes : List Vote) : List Vote :=
  votes.filter (· ∉ tx.cleared) ++ tx.cast

/-- No other request holds the lock. -/
def Db.lockFree (db : Db) (request : ℕ) (key : ℤ) : Bool :=
  db.locks.all fun l => l.1 ≠ key || l.2 = request

/-- The locks when a transaction ends. -/
def Db.unlock (request : ℕ) (db : Db) : Db :=
  { db with locks := db.locks.filter fun l => l.2 ≠ request }

/-- The votes when a transaction is committed. -/
def Db.commit (request : ℕ) (tx : Session) (db : Db) : Db :=
  { db.unlock request with
    polls := db.polls ++ tx.created
    pollVotes := tx.sees db.pollVotes
    earlier := db.versions }

/-- The answer to a statement, where `hashtext` is the hash of the keys of the locks. -/
def answer (hashtext : String → ℤ) (request : ℕ) (db : Db) (tx : Session) :
    (q : Statement) → Option (q.Result × Db × Session)
  | .selectMembership chatId userId =>
    let row := db.tables.chatMembers.find? fun m => m.chatId = chatId && m.userId = userId
    some (row.bind fun m => (db.tables.chats.lookup chatId).map fun type => (m.channelRole, type),
      db, tx)
  | .selectMembers chatId =>
    some ((db.tables.chatMembers.filter (·.chatId = chatId)).map (·.userId), db, tx)
  | .selectPoll pollId => some (db.poll? pollId, db, tx)
  | .currentTime => some (db.tables.now, db, tx)
  | .insertPoll poll =>
    some (db.nextId, { db with nextId := db.nextId + 1 },
      { tx with created := tx.created ++ [{ poll with id := db.nextId }] })
  | .insertMessage _ _ _ => some (db.nextId, { db with nextId := db.nextId + 1 }, tx)
  | .setMessageId pollId messageId =>
    some ((), db, { tx with
      created := tx.created.map fun p =>
        if p.id = pollId then { p with messageId := some messageId } else p })
  | .advisoryLock key =>
    if db.lockFree request (hashtext key) then
      some ((), { db with locks := (hashtext key, request) :: db.locks }, tx)
    else none
  | .deleteVotes pollId userId =>
    some ((), db, { tx with cleared := db.pollVotes.filter (·.isOf pollId userId) })
  | .insertVotes pollId userId optionIndices =>
    let rows := optionIndices.map (Vote.mk pollId userId)
    if rows.Nodup ∧ ∀ v ∈ rows, v ∉ tx.sees db.pollVotes then
      some ((), db, { tx with cast := tx.cast ++ rows })
    else none
  | .commit => some ((), db.commit request tx, ⟨[], [], []⟩)
  | .selectBallot pollId userId => some (ballot pollId userId db.pollVotes, db, tx)
  | .countVotes pollId => some (groupByOption (ofPoll pollId db.pollVotes), db, tx)
  | .countVoters pollId => some (countDistinctVoters (ofPoll pollId db.pollVotes), db, tx)
  | .selectVotes pollId => some (ofPoll pollId db.pollVotes, db, tx)
  | .sendToUser userId frame => some ((), { db with sent := db.sent ++ [(userId, frame)] }, tx)

/-! ## Tallies -/

/-- One more vote for an option. -/
def countVote (countMap : InsMap ℕ ℕ) (optionIndex : ℕ) : InsMap ℕ ℕ :=
  countMap.set optionIndex ((countMap.get? optionIndex).getD 0 + 1)

def countOptions (rows : List Vote) : InsMap ℕ ℕ :=
  rows.foldl (fun countMap row => countVote countMap row.optionIndex) ∅

/-- One more option on the ballot of a user. -/
def pushVote (byUser : InsMap String (List ℕ)) (row : Vote) : InsMap String (List ℕ) :=
  byUser.set row.userId ((byUser.get? row.userId).getD [] ++ [row.optionIndex])

structure Tally where
  voteCounts : VoteCounts
  totalVoters : ℕ
  byUser : InsMap String (List ℕ)

def tallyPollVotes (rows : List Vote) : Tally :=
  let byUser := rows.foldl pushVote ∅
  { voteCounts := (countOptions rows).entries, totalVoters := byUser.size, byUser }

/-- What a user is shown of a tally. -/
def Tally.resultsFor (tally : Tally) (isAnonymous : Bool) (userId : String) : PollResults where
  vote_counts := tally.voteCounts
  total_voters := tally.totalVoters
  my_votes := (tally.byUser.get? userId).getD []
  is_anonymous := isAnonymous

/-! ## Routes -/

inductive Request
  /-- `POST /polls` -/
  | create (userId : String) (chat_id : ℕ) (question : JsText) (options : List JsText)
    (allow_multiple is_anonymous : Bool)
  /-- `POST /polls/:pollId/vote` -/
  | vote (userId : String) (pollId : ℕ) (option_indices : List ℕ)
  /-- `GET /polls/:pollId` -/
  | read (userId : String) (pollId : ℕ)

inductive Reply
  | error (status : ℕ) (error : String)
  /-- 201, with the poll. -/
  | created (poll : Poll)
  | voted (results : PollResults)
  | results (poll : Poll) (results : PollResults)

abbrev Route (α : Type) := Program Statement Statement.Result α

abbrev statement (q : Statement) : Route q.Result := Program.request q

def getPollResults (pollId : ℕ) (viewerId : String) (isAnonymous : Bool) : Route PollResults := do
  let myVotes ← statement (.selectBallot pollId viewerId)
  if isAnonymous then
    let counts ← statement (.countVotes pollId)
    let total ← statement (.countVoters pollId)
    let countMap : InsMap ℕ ℕ := counts.foldl (fun m r => m.set r.1 r.2) ∅
    return ⟨countMap.entries, total, myVotes, true⟩
  else
    let voteRows ← statement (.selectVotes pollId)
    let total ← statement (.countVoters pollId)
    return ⟨(countOptions voteRows).entries, total, myVotes, false⟩

/-- Sending each of the members the frame for them. -/
def sendEach (frame : String → Frame) : List String → Route Unit
  | [] => return
  | userId :: userIds => do
    statement (.sendToUser userId (frame userId))
    sendEach frame userIds

def broadcastPollResults (pollId chatId : ℕ) (isAnonymous : Bool) (voterId : String) :
    Route PollResults := do
  let voteRows ← statement (.selectVotes pollId)
  let tally := tallyPollVotes voteRows
  let memberIds ← statement (.selectMembers chatId)
  sendEach (fun userId => .pollUpdated pollId (tally.resultsFor isAnonymous userId))
    memberIds.eraseDups
  return tally.resultsFor isAnonymous voterId

def channelRoleAllowsPost (channelRole : Option ChannelRole) : Bool :=
  channelRole = some .editor || channelRole = some .owner

def isPollBody (question : JsText) (options : List JsText) : Bool :=
  1 ≤ question.length && question.length ≤ 300 && 2 ≤ options.length && options.length ≤ 10 &&
    options.all fun option => 1 ≤ option.length && option.length ≤ 200

def createPoll (userId : String) (chat_id : ℕ) (question : JsText) (options : List JsText)
    (allow_multiple is_anonymous : Bool) : Route Reply := do
  if !isPollBody question options then return .error 400 "INVALID_POLL_BODY"
  else
    match ← statement (.selectMembership chat_id userId) with
    | none => return .error 403 "NOT_A_MEMBER"
    | some (channelRole, chatType) =>
      if chatType = .direct_e2e || chatType = .group_e2e then
        return .error 400 "POLLS_NOT_SUPPORTED_IN_E2E_CHAT"
      else if chatType = .channel && !channelRoleAllowsPost channelRole then
        return .error 403 "CHANNEL_SUBSCRIBERS_CANNOT_POST"
      else
        let poll : Poll :=
          ⟨0, chat_id, userId, question, options, allow_multiple, is_anonymous, none, none⟩
        let id ← statement (.insertPoll poll)
        let messageId ← statement (.insertMessage chat_id userId id)
        statement (.setMessageId id messageId)
        statement .commit
        let memberIds ← statement (.selectMembers chat_id)
        sendEach (fun _ => .chatMessage messageId chat_id userId id) memberIds
        return .created { poll with id := id }

/-- The transaction that replaces the ballot of a user. -/
def replaceVotes (pollId : ℕ) (userId : String) (optionIndices : List ℕ) : Route Unit := do
  statement (.advisoryLock ("poll_vote:" ++ toString pollId ++ ":" ++ userId))
  statement (.deleteVotes pollId userId)
  if optionIndices ≠ [] then
    statement (.insertVotes pollId userId optionIndices)
    statement .commit
  else statement .commit

/-- The options that a vote counts for: one at most where one is to be chosen. -/
def Poll.effectiveIndices (poll : Poll) (option_indices : List ℕ) : List ℕ :=
  if poll.allowMultiple then option_indices else option_indices.take 1

def Poll.isClosed (poll : Poll) (now : ℕ) : Bool := poll.closedAt.any (· < now)

def vote (userId : String) (pollId : ℕ) (option_indices : List ℕ) : Route Reply := do
  if 10 < option_indices.length then return .error 400 "INVALID_VOTE_BODY"
  else
    match ← statement (.selectPoll pollId) with
    | none => return .error 404 "POLL_NOT_FOUND"
    | some poll =>
      if poll.isClosed (← statement .currentTime) then return .error 400 "POLL_CLOSED"
      else
        match ← statement (.selectMembership poll.chatId userId) with
        | none => return .error 403 "NOT_A_MEMBER"
        | some _ =>
          let effectiveIndices := poll.effectiveIndices option_indices
          if effectiveIndices.any (poll.options.length ≤ ·) then
            return .error 400 "INVALID_OPTION_INDEX"
          else
            replaceVotes pollId userId effectiveIndices
            return .voted (← broadcastPollResults pollId poll.chatId poll.isAnonymous userId)

def readPoll (userId : String) (pollId : ℕ) : Route Reply := do
  match ← statement (.selectPoll pollId) with
  | none => return .error 404 "POLL_NOT_FOUND"
  | some poll =>
    match ← statement (.selectMembership poll.chatId userId) with
    | none => return .error 403 "NOT_A_MEMBER"
    | some _ => return .results poll (← getPollResults pollId userId poll.isAnonymous)

def handle : Request → Route Reply
  | .create userId chat_id question options allow_multiple is_anonymous =>
    createPoll userId chat_id question options allow_multiple is_anonymous
  | .vote userId pollId option_indices => vote userId pollId option_indices
  | .read userId pollId => readPoll userId pollId

/-- The routes. From outside, the tables that they read change. -/
def routes (hashtext : String → ℤ) :
    Transactional Db Session Statement Tables Statement.Result Request Reply where
  session := ⟨[], [], []⟩
  answer := answer hashtext
  rollback := Db.unlock
  world tables db := { db with tables := tables }
  handle := handle

/-- There is no poll yet, and no lock is held. -/
def Fresh (db : Db) : Prop :=
  db.polls = [] ∧ db.versions = [[]] ∧ db.locks = [] ∧ db.sent = []

end OneToThree.Polls
