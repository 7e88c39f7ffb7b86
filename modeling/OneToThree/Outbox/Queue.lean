import Mathlib.Algebra.Group.Nat.Defs
import Mathlib.Data.List.Sort
import OneToThree.Lib.Service

/-!
# The outbox

Messages whose sending fails in the network are queued in the browser, and sent again by the pages
that are open, or by the service worker when none is (`Lib.Service`).

The rows of the outbox are shared by all pages of the browser and its worker, as is the session
cookie, whereas each page has its own flag, retries and unlocked account. What goes on between two
waits is one command. A page that is closed may have begun something that still goes on.
-/

namespace OneToThree.Outbox

abbrev EntryId := ℕ
abbrev PageId := ℕ
abbrev UserId := ℕ

/-- A public key, in its canonical form (`normalizeJwk`). -/
abbrev Jwk := ℕ

/-- What is posted to `/messages/send`. -/
abbrev Body := ℕ

structure OutboxEntry where
  id : EntryId
  body : Body
  created_at : ℕ
  sender_ecdh_public_key_jwk : Option Jwk
  deriving DecidableEq

structure Retry where
  retries : ℕ
  nextRetry : ℕ
  deriving DecidableEq

/-- Whose vault a page has unlocked. -/
structure Account where
  userId : UserId
  myEcdhPublicKeyJwk : Jwk
  deriving DecidableEq

structure Page where
  account : Option Account
  flushingOutbox : Bool
  retryState : InsMap EntryId Retry

/-- What becomes of a request to the server. -/
inductive Link
  | up
  | refuses
  /-- It does not reach the server. -/
  | down
  /-- It is served, and its answer is lost. -/
  | losesAnswer
  deriving DecidableEq

structure Store where
  pending : InsMap EntryId OutboxEntry
  /-- How many ids were drawn. -/
  uuids : ℕ
  /-- The messages that the server has stored, with their senders. -/
  messages : List (UserId × Body)
  /-- Whose session the cookie is of. -/
  session : Option UserId
  /-- The key of the vault that a user has unlocked last. -/
  activeKey : InsMap UserId Jwk
  pages : InsMap PageId Page
  link : Link
  /-- In milliseconds. -/
  now : ℕ
  /-- The place of each entry among all keys: they are random, and the rows are in their order. -/
  randomUUID : EntryId → ℕ

def MAX_RETRIES : ℕ := 10

def MAX_BACKOFF_MS : ℕ := 60000

def MAX_OUTBOX_AGE_MS : ℕ := 24 * 60 * 60 * 1000

def getBackoffMs (retries : ℕ) : ℕ := min (1000 * 2 ^ retries) MAX_BACKOFF_MS

/-! ## Commands -/

inductive PostResult
  | ok
  | rejected
  | networkError
  deriving DecidableEq

inductive Command
  | openPage (page : PageId)
  | closePage (page : PageId)
  /-- Whether a page is open. -/
  | clients
  | login (user : UserId)
  | logoutApi
  /-- A page forgets its account. -/
  | reset (page : PageId)
  | setAccount (page : PageId) (account : Account)
  | getAccount (page : PageId)
  /-- A message is posted, for the first time or for an entry of the outbox. -/
  | post (entry : Option EntryId) (body : Body)
  | enqueue (body : Body) (key : Option Jwk)
  | readOutbox
  | delete (id : EntryId)
  /-- Sets the flag of a page, unless it is set. -/
  | beginFlush (page : PageId)
  | endFlush (page : PageId)
  | getRetry (page : PageId) (id : EntryId)
  | setRetry (page : PageId) (id : EntryId) (retries : ℕ)
  | deleteRetry (page : PageId) (id : EntryId)
  | expireSession
  | setLink (link : Link)
  | elapse (ms : ℕ)
  deriving DecidableEq

abbrev Command.Result : Command → Type
  | .clients | .beginFlush _ => Bool
  | .getAccount _ => Option Account
  | .post _ _ => PostResult
  | .enqueue _ _ => EntryId
  | .readOutbox => List OutboxEntry × ℕ
  | .getRetry _ _ => Retry
  | .openPage _ | .closePage _ | .login _ | .logoutApi | .reset _ | .setAccount _ _ | .delete _
  | .endFlush _ | .setRetry _ _ _ | .deleteRetry _ _ | .expireSession | .setLink _
  | .elapse _ => Unit

namespace Store

/-- All rows, in the order of their keys. -/
def getAll (s : Store) : List OutboxEntry :=
  (s.pending.entries.map (·.2)).insertionSort fun x y => s.randomUUID x.id ≤ s.randomUUID y.id

def modifyPage (s : Store) (page : PageId) (f : Page → Page) : Store :=
  match s.pages.get? page with
  | some x => { s with pages := s.pages.set page (f x) }
  | none => s

/-- The server stores a message, if it comes under a session. -/
def receive (s : Store) (body : Body) : PostResult × Store :=
  match s.session with
  | some user => (.ok, { s with messages := s.messages ++ [(user, body)] })
  | none => (.rejected, s)

def answer (s : Store) : (q : Command) → q.Result × Store
  | .openPage page =>
    ((), if s.pages.has page then s else { s with pages := s.pages.set page ⟨none, false, ∅⟩ })
  | .closePage page => ((), { s with pages := s.pages.delete page })
  | .clients => (s.pages.entries ≠ [], s)
  | .login user => ((), { s with session := some user })
  | .logoutApi =>
    ((), match s.link with
      | .up | .losesAnswer => { s with session := none }
      | .refuses | .down => s)
  | .reset page => ((), s.modifyPage page fun x => { x with account := none })
  | .setAccount page account =>
    ((), { s.modifyPage page fun x => { x with account := some account } with
      activeKey := s.activeKey.set account.userId account.myEcdhPublicKeyJwk })
  | .getAccount page => ((s.pages.get? page).bind (·.account), s)
  | .post _ body =>
    match s.link with
    | .up => s.receive body
    | .losesAnswer => (.networkError, (s.receive body).2)
    | .refuses => (.rejected, s)
    | .down => (.networkError, s)
  | .enqueue body key =>
    (s.uuids, { s with
      pending := s.pending.set s.uuids ⟨s.uuids, body, s.now, key⟩
      uuids := s.uuids + 1 })
  | .readOutbox => ((s.getAll, s.now), s)
  | .delete id => ((), { s with pending := s.pending.delete id })
  | .beginFlush page =>
    ((s.pages.get? page).any (!·.flushingOutbox),
      s.modifyPage page fun x => { x with flushingOutbox := true })
  | .endFlush page => ((), s.modifyPage page fun x => { x with flushingOutbox := false })
  | .getRetry page id =>
    (((s.pages.get? page).bind (·.retryState.get? id)).getD ⟨0, 0⟩, s)
  | .setRetry page id retries =>
    ((), s.modifyPage page fun x =>
      { x with retryState := x.retryState.set id ⟨retries, s.now + getBackoffMs retries⟩ })
  | .deleteRetry page id =>
    ((), s.modifyPage page fun x => { x with retryState := x.retryState.delete id })
  | .expireSession => ((), { s with session := none })
  | .setLink link => ((), { s with link := link })
  | .elapse ms => ((), { s with now := s.now + ms })

end Store

/-- The server stores a message that is posted. -/
def Store.stores (s : Store) : Bool :=
  s.session.isSome && (s.link = .up || s.link = .losesAnswer)

section
variable {s : Store} {q : Command}

theorem mem_getAll {x : OutboxEntry} : x ∈ s.getAll ↔ ∃ e ∈ s.pending.entries, e.2 = x := by
  rw [Store.getAll, List.mem_insertionSort, List.mem_map]

theorem get?_modifyPage {page page' : PageId} {f : Page → Page} {x' : Page}
    (hx' : (s.modifyPage page f).pages.get? page' = some x') :
    ∃ x, s.pages.get? page' = some x ∧ (x' = x ∨ page' = page ∧ x' = f x) := by
  rw [Store.modifyPage] at hx'
  split at hx'
  · rename_i x hx
    rw [InsMap.get?_set] at hx'
    split_ifs at hx' with hpage
    · exact ⟨x, hpage ▸ hx, .inr ⟨hpage, (Option.some.inj hx').symm⟩⟩
    · exact ⟨x', hx', .inl rfl⟩
  · exact ⟨x', hx', .inl rfl⟩

@[simp] theorem pending_modifyPage (page : PageId) (f : Page → Page) :
    (s.modifyPage page f).pending = s.pending := by
  rw [Store.modifyPage]
  split <;> rfl

@[simp] theorem uuids_modifyPage (page : PageId) (f : Page → Page) :
    (s.modifyPage page f).uuids = s.uuids := by
  rw [Store.modifyPage]
  split <;> rfl

@[simp] theorem messages_modifyPage (page : PageId) (f : Page → Page) :
    (s.modifyPage page f).messages = s.messages := by
  rw [Store.modifyPage]
  split <;> rfl

@[simp] theorem session_modifyPage (page : PageId) (f : Page → Page) :
    (s.modifyPage page f).session = s.session := by
  rw [Store.modifyPage]
  split <;> rfl

@[simp] theorem activeKey_modifyPage (page : PageId) (f : Page → Page) :
    (s.modifyPage page f).activeKey = s.activeKey := by
  rw [Store.modifyPage]
  split <;> rfl

@[simp] theorem now_modifyPage (page : PageId) (f : Page → Page) :
    (s.modifyPage page f).now = s.now := by
  rw [Store.modifyPage]
  split <;> rfl

/-- What becomes of a message that is posted. -/
theorem post_cases (s : Store) (entry : Option EntryId) (body : Body) :
    (s.stores = false ∧ (s.answer (.post entry body)).2 = s ∧
      (s.answer (.post entry body)).1 ≠ .ok) ∨
    (s.stores = true ∧
      (∃ row, (s.answer (.post entry body)).2 = { s with messages := s.messages ++ [row] }) ∧
      ((s.answer (.post entry body)).1 = .ok ∨ s.link = .losesAnswer)) := by
  have hanswer : s.answer (.post entry body) = match s.link with
      | .up => s.receive body
      | .losesAnswer => (.networkError, (s.receive body).2)
      | .refuses => (.rejected, s)
      | .down => (.networkError, s) := rfl
  rw [hanswer, Store.stores, Store.receive]
  cases hlink : s.link <;> cases hsession : s.session <;> simp

/-- The commands that neither post, queue nor delete. -/
def Command.Quiet : Command → Prop
  | .post _ _ | .enqueue _ _ | .delete _ => False
  | _ => True

theorem quiet_answer (hq : q.Quiet) : (s.answer q).2.pending = s.pending ∧
    (s.answer q).2.uuids = s.uuids ∧ (s.answer q).2.messages = s.messages := by
  cases q with
  | post | enqueue | delete => exact hq.elim
  | openPage page =>
    rw [Store.answer]
    dsimp only
    split_ifs <;> exact ⟨rfl, rfl, rfl⟩
  | logoutApi =>
    rw [Store.answer]
    dsimp only
    split <;> exact ⟨rfl, rfl, rfl⟩
  | setAccount page account =>
    exact ⟨pending_modifyPage _ _, uuids_modifyPage _ _, messages_modifyPage _ _⟩
  | reset | beginFlush | endFlush | setRetry | deleteRetry =>
    exact ⟨pending_modifyPage _ _, uuids_modifyPage _ _, messages_modifyPage _ _⟩
  | _ => exact ⟨rfl, rfl, rfl⟩

/-- Time does not go back. -/
theorem now_le_answer (s : Store) (q : Command) : s.now ≤ (s.answer q).2.now := by
  cases q with
  | openPage page =>
    rw [Store.answer]
    dsimp only
    split_ifs <;> exact Nat.le_refl _
  | logoutApi =>
    rw [Store.answer]
    dsimp only
    split <;> exact Nat.le_refl _
  | setAccount | reset | beginFlush | endFlush | setRetry | deleteRetry =>
    exact Nat.le_of_eq (now_modifyPage _ _).symm
  | post entry body =>
    rcases post_cases s entry body with ⟨-, hs, -⟩ | ⟨-, ⟨row, hs⟩, -⟩ <;>
      exact Nat.le_of_eq (by rw [hs])
  | elapse ms => exact Nat.le_add_right _ _
  | _ => exact Nat.le_refl _

/-- A retry that a page counts was counted before, or is from now on. -/
theorem retry_answer {page : PageId} {x' : Page} {id : EntryId} {r : Retry}
    (hx' : (s.answer q).2.pages.get? page = some x') (hr : x'.retryState.get? id = some r) :
    (∃ x, s.pages.get? page = some x ∧ x.retryState.get? id = some r) ∨
      q = .setRetry page id r.retries := by
  have hsame : ∀ {f page'}, (s.modifyPage page' f).pages.get? page = some x' →
      (∀ x, (f x).retryState = x.retryState) →
      ∃ x, s.pages.get? page = some x ∧ x.retryState.get? id = some r := by
    intro f page' hget hf
    obtain ⟨x, hx, rfl | ⟨-, rfl⟩⟩ := get?_modifyPage hget
    · exact ⟨x', hx, hr⟩
    · exact ⟨x, hx, hf x ▸ hr⟩
  cases q with
  | openPage page' =>
    rw [Store.answer] at hx'
    dsimp only at hx'
    split_ifs at hx'
    · exact .inl ⟨x', hx', hr⟩
    · rw [InsMap.get?_set] at hx'
      split_ifs at hx'
      · cases hx'
        cases hr
      · exact .inl ⟨x', hx', hr⟩
  | closePage page' =>
    change (s.pages.delete page').get? page = some x' at hx'
    rw [InsMap.get?_delete] at hx'
    split_ifs at hx'
    exact .inl ⟨x', hx', hr⟩
  | logoutApi =>
    rw [Store.answer] at hx'
    dsimp only at hx'
    split at hx' <;> exact .inl ⟨x', hx', hr⟩
  | reset | setAccount | beginFlush | endFlush => exact .inl (hsame hx' fun _ => rfl)
  | setRetry page' id' retries =>
    obtain ⟨x, hx, rfl | ⟨rfl, rfl⟩⟩ := get?_modifyPage hx'
    · exact .inl ⟨x', hx, hr⟩
    · rw [InsMap.get?_set] at hr
      split_ifs at hr with hid
      · cases hr
        exact .inr (by rw [hid])
      · exact .inl ⟨x, hx, hr⟩
  | deleteRetry page' id' =>
    obtain ⟨x, hx, rfl | ⟨rfl, rfl⟩⟩ := get?_modifyPage hx'
    · exact .inl ⟨x', hx, hr⟩
    · rw [InsMap.get?_delete] at hr
      split_ifs at hr
      exact .inl ⟨x, hx, hr⟩
  | post entry body =>
    rcases post_cases s entry body with ⟨-, hs, -⟩ | ⟨-, ⟨row, hs⟩, -⟩ <;> rw [hs] at hx' <;>
      exact .inl ⟨x', hx', hr⟩
  | _ => exact .inl ⟨x', hx', hr⟩

end

/-! ## Sending -/

abbrev Procedure (α : Type) := Program Command Command.Result α

abbrev command (q : Command) : Procedure q.Result := Program.request q

inductive Reply
  | sent
  | failed
  | queued (id : EntryId)
  | done
  deriving DecidableEq

/-- A message that could not be posted is queued, with the key that it was sealed under. -/
def sendChatMessageOverTransport (body : Body) (key : Option Jwk) : Procedure Reply := do
  match ← command (.post none body) with
  | .ok => return .sent
  | .rejected => return .failed
  | .networkError =>
    let id ← command (.enqueue body key)
    return .queued id

/-- A message is sealed with the account of its page, and sent. -/
def send (page : PageId) (body : Body) : Procedure Reply := do
  match ← command (.getAccount page) with
  | none => return .failed
  | some account => sendChatMessageOverTransport body (some account.myEcdhPublicKeyJwk)

/-! ## The flush of a page -/

def OutboxEntry.tooOld (entry : OutboxEntry) (now : ℕ) : Bool :=
  MAX_OUTBOX_AGE_MS < now - entry.created_at

def drop (page : PageId) (id : EntryId) : Procedure Unit := do
  command (.delete id)
  command (.deleteRetry page id)

/-- An entry of a flush that read the outbox at the time `now`. -/
def flushEntry (page : PageId) (now : ℕ) (entry : OutboxEntry) : Procedure Unit := do
  if entry.tooOld now then drop page entry.id
  else
    let state ← command (.getRetry page entry.id)
    if MAX_RETRIES ≤ state.retries then drop page entry.id
    else if now < state.nextRetry then return ()
    else
      match ← command (.post (some entry.id) entry.body) with
      | .ok => drop page entry.id
      | .rejected | .networkError => command (.setRetry page entry.id (state.retries + 1))

def forEntries (f : OutboxEntry → Procedure Unit) : List OutboxEntry → Procedure Unit
  | [] => return ()
  | entry :: entries => do
    f entry
    forEntries f entries

def flushOutboxPending (page : PageId) : Procedure Reply := do
  if !(← command (.beginFlush page)) then return .done
  else
    let (entries, now) ← command .readOutbox
    forEntries (flushEntry page now) entries
    command (.endFlush page)
    return .done

/-! ## The worker -/

def syncEntry (now : ℕ) (entry : OutboxEntry) : Procedure Unit := do
  if entry.tooOld now then command (.delete entry.id)
  else
    match ← command (.post (some entry.id) entry.body) with
    | .ok => command (.delete entry.id)
    | .rejected | .networkError => return ()

/-- Background sync: the worker leaves the outbox to a page, if one is open. -/
def sync : Procedure Reply := do
  if ← command .clients then return .done
  else
    let (entries, now) ← command .readOutbox
    forEntries (syncEntry now) entries
    return .done

/-! ## Accounts -/

def OutboxEntry.staleFor (entry : OutboxEntry) (key : Jwk) : Bool :=
  entry.sender_ecdh_public_key_jwk ≠ some key

def purgeOutboxStaleForKey (key : Jwk) : Procedure Reply := do
  let (entries, _) ← command .readOutbox
  forEntries (fun entry => if entry.staleFor key then command (.delete entry.id) else return ())
    entries
  return .done

/-- What a vault's activation does with the outbox. -/
def activateVaultSession (page : PageId) (account : Account) : Procedure Reply := do
  command (.setAccount page account)
  purgeOutboxStaleForKey account.myEcdhPublicKeyJwk

/-- What remains in the browser is wiped, other than the outbox. -/
def logout (page : PageId) : Procedure Reply := do
  command (.reset page)
  command .logoutApi
  return .done

/-! ## The service -/

inductive Request
  | send (page : PageId) (body : Body)
  | flush (page : PageId)
  | sync
  | unlock (page : PageId) (account : Account)
  | login (user : UserId)
  | logout (page : PageId)
  /-- The server ends the session. -/
  | expireSession
  | openPage (page : PageId)
  | closePage (page : PageId)
  | setLink (link : Link)
  /-- The clock. -/
  | elapse (ms : ℕ)
  deriving DecidableEq

def handle : Request → Procedure Reply
  | .send page body => send page body
  | .flush page => flushOutboxPending page
  | .sync => sync
  | .unlock page account => activateVaultSession page account
  | .login user => do command (.login user); return .done
  | .logout page => logout page
  | .expireSession => do command .expireSession; return .done
  | .openPage page => do command (.openPage page); return .done
  | .closePage page => do command (.closePage page); return .done
  | .setLink link => do command (.setLink link); return .done
  | .elapse ms => do command (.elapse ms); return .done

/-- The service of the outbox. -/
def outbox : Service Store Command Command.Result Request Reply where
  answer := Store.answer
  handle := handle

/-- Nothing was queued yet. -/
def Store.IsInitial (s : Store) : Prop := s.pending = ∅ ∧ s.pages = ∅ ∧ s.messages = []

end OneToThree.Outbox
