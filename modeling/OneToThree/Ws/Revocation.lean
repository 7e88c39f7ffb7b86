import OneToThree.Lib.Knowledge
import OneToThree.Ws.Session

/-!
# Revocation reaches the sockets

A session that was denied, or whose device was revoked, is looked at again when its socket sends
a frame, at most once in an interval. Events go to every open socket of a user.

* A client that sends nothing is delivered every event.
* The interval starts anew before the answers are there, so other frames pass meanwhile.
* A ticket is not compared with the denied sessions.

The three are seen in `revoked_and_served`; and a denial is forgotten when its token would have
expired, an error in reading the token back leaves the socket without a session, and frames that
arrive while the server closes a socket are handled.

`revocation_of_run`: along a run in which the clients send frames, each is handled after the
revalidation before it has passed, and the other cases do not come up (`Watched`), no frame that
was received later than an interval after a revocation is acted upon, no event is delivered later
than a heartbeat after that, and no socket that was opened after it is authenticated.
-/

namespace OneToThree.WsSession

open Service

abbrev State := Service.State Store Command Command.Result Request Reply

/-- A point of a run: when it is, and how many commands came before it. -/
structure Moment where
  time : ℕ
  step : ℕ
  deriving DecidableEq

/-- What is known of a socket since it was opened. -/
structure Visit where
  /-- The request that has opened it. -/
  owner : ℕ
  opened : Moment
  /-- The session of the token that it is authenticated with. -/
  session : Option WsAuthResult
  /-- When the last revalidation that has passed had begun. -/
  checkedAt : ℕ
  /-- When its last frame was handled. -/
  frameAt : ℕ

/-- Something happens to a socket whose session was denied, or device revoked, since then. -/
structure Happening where
  moment : Moment
  since : List Moment
  deriving DecidableEq

/-- What became of the sessions. -/
structure Watch where
  steps : ℕ
  deniedAt : InsMap Jti Moment
  revokedAt : InsMap DeviceId Moment
  /-- The token that a request has verified last. -/
  tokens : InsMap ℕ Token
  visits : InsMap SocketId Visit
  receivedAt : InsMap ℕ Moment
  /-- When the revalidation of a frame has begun. -/
  begun : InsMap ℕ ℕ
  /-- The frames that were acted upon, by when they were received. -/
  acted : List Happening
  delivered : List Happening
  /-- The sockets that were authenticated, by when they were opened. -/
  authenticated : List Happening

namespace Watch

def denied (h : Watch) (session : WsAuthResult) : Option Moment :=
  session.jti.bind h.deniedAt.get?

def revoked (h : Watch) (session : WsAuthResult) : Option Moment :=
  session.deviceId.bind h.revokedAt.get?

/-- Since when a session is denied, and since when its device is revoked. -/
def since (h : Watch) (session : WsAuthResult) : List Moment :=
  (h.denied session).toList ++ (h.revoked session).toList

def now (h : Watch) (s : Store) : Moment := ⟨s.now, h.steps⟩

/-- What is sent to a socket, if it is open. -/
def send (h : Watch) (s : Store) (sock : SocketId) : List Happening :=
  match s.sockets.get? sock, (h.visits.get? sock).bind (·.session) with
  | some x, some session => if x.isOpen then [⟨h.now s, h.since session⟩] else []
  | _, _ => []

/-- The visits after a command. -/
def seen (h : Watch) (s : Store) (i : ℕ) : Command → InsMap SocketId Visit
  | .connect sock =>
    if s.sockets.has sock then h.visits
    else h.visits.set sock ⟨i, h.now s, none, s.now, s.now⟩
  | .authenticate sock _ =>
    match h.tokens.get? i, h.visits.get? sock with
    | some t, some v => h.visits.set sock { v with session := some t.session }
    | _, _ => h.visits
  | .handleMessage sock frame =>
    match (s.answer (.handleMessage sock frame)).1, h.visits.get? sock with
    | .handled _ _, some v => h.visits.set sock { v with frameAt := s.now }
    | _, _ => h.visits
  | .dispatch sock =>
    match h.begun.get? i, h.visits.get? sock with
    | some t, some v => h.visits.set sock { v with checkedAt := max v.checkedAt t }
    | _, _ => h.visits
  | _ => h.visits

/-- What is delivered with a command: events, and the answers to frames. -/
def sent (h : Watch) (s : Store) : Command → List Happening
  | .handleMessage sock frame =>
    if (s.answer (.handleMessage sock frame)).1 = .refused then h.send s sock else []
  | .dispatch sock | .close sock => h.send s sock
  | .deliverLocal user => (s.socketsOf user).flatMap (h.send s)
  | _ => []

/-- What a command makes known. -/
def record (h : Watch) (s : Store) (i : ℕ) (q : Command) : Watch where
  steps := h.steps + 1
  deniedAt :=
    match q with
    | .denyJti jti _ =>
      if s.redisUp ∧ h.deniedAt.get? jti = none then h.deniedAt.set jti (h.now s) else h.deniedAt
    | _ => h.deniedAt
  revokedAt :=
    match q with
    | .revokeDevice d =>
      if s.devices.has d ∧ h.revokedAt.get? d = none then h.revokedAt.set d (h.now s)
      else h.revokedAt
    | .reauthorizeDevice d => h.revokedAt.delete d
    | _ => h.revokedAt
  tokens :=
    match q with
    | .jwtVerify t | .verifyTicket t => h.tokens.set i t
    | _ => h.tokens
  visits := h.seen s i q
  receivedAt := h.receivedAt
  begun :=
    match q with
    | .handleMessage sock frame =>
      match (s.answer (.handleMessage sock frame)).1 with
      | .handled _ true => h.begun.set i s.now
      | _ => h.begun.delete i
    | _ => h.begun
  acted :=
    match q with
    | .dispatch sock =>
      match (h.visits.get? sock).bind (·.session), h.receivedAt.get? i with
      | some session, some r => h.acted ++ [⟨r, h.since session⟩]
      | _, _ => h.acted
    | _ => h.acted
  delivered := h.delivered ++ h.sent s q
  authenticated :=
    match q with
    | .authenticate sock _ =>
      match h.tokens.get? i, h.visits.get? sock with
      | some t, some v => h.authenticated ++ [⟨v.opened, h.since t.session⟩]
      | _, _ => h.authenticated
    | _ => h.authenticated

end Watch

def watching : History Store Command Command.Result Request Reply Watch where
  start := ⟨0, ∅, ∅, ∅, ∅, ∅, ∅, [], [], []⟩
  receive s _ h := { h with receivedAt := h.receivedAt.set s.received (h.now s.store) }
  serve s i _ q _ h := h.record s.store i q

/-- The steps of sockets that are revalidated: a frame is handled when the revalidation before it
    has passed, and the clock moves while every open socket is revalidated, and has sent a frame
    within a heartbeat; a session that was denied is still in the denylist when it is looked up,
    and is not that of a ticket; and a token that was verified is read. -/
def Watched (p : State × Watch) (_ : ℕ) (_ : Request) : Command → Prop
  | .handleMessage sock frame => frame.verdict = .accepted →
    ∀ x ∈ p.1.store.sockets.get? sock, ∀ v ∈ p.2.visits.get? sock,
      x.lastRevalidateAt = v.checkedAt
  | .elapse ms => ∀ e ∈ p.1.store.sockets.entries, e.2.isOpen = true →
    ∀ v ∈ p.2.visits.get? e.1, e.2.lastRevalidateAt = v.checkedAt ∧
      p.1.store.now + ms ≤ v.frameAt + PING_INTERVAL
  | .isJtiDenied jti => p.2.deniedAt.get? jti ≠ none → p.1.store.denied jti = true
  | .verifyTicket t => t.scope = some .ws → ∀ jti ∈ t.jti, p.2.deniedAt.get? jti = none
  | .readToken t => p.1.store.verifies t = true
  | _ => True

instance (p : State × Watch) (i : ℕ) (a : Request) : ∀ q, Decidable (Watched p i a q)
  | .handleMessage _ _ | .elapse _ | .isJtiDenied _ | .verifyTicket _ | .readToken _ => by
    unfold Watched
    infer_instance
  | .connect _ | .jwtVerify _ | .revokedMark _ | .assertDeviceActiveForUser _ _ | .selectUser
  | .autoMigrate | .authenticate _ _ | .registerUserSocket _ | .close _ | .disconnect _
  | .dispatch _ | .deliverLocal _ | .denyJti _ _ | .revokeDevice _ | .markRevoked _
  | .reauthorizeDevice _ | .await | .setRedis _ => instDecidableTrue

/-- No socket was opened yet. -/
def Store.IsInitial (s : Store) : Prop := s.sockets = ∅

/-- The runs of sockets that are revalidated. -/
abbrev watched : Machine (State × Watch) (Event Request) :=
  (realtime.recorded watching Store.IsInitial).restrict (Guarded (fun _ _ => True) Watched)

/-! ## What is known -/

/-- What is known of the sockets: a session that was denied, or whose device was revoked, was not
    revalidated since, and an open socket is revalidated in time. -/
structure Sound (s : Store) (h : Watch) : Prop where
  denied : ∀ jti m, h.deniedAt.get? jti = some m → m.time ≤ s.now ∧ m.step < h.steps
  revoked : ∀ d m, h.revokedAt.get? d = some m → m.time ≤ s.now ∧ m.step < h.steps ∧
    ∃ row, s.devices.get? d = some row ∧ row.revoked = true
  visits : ∀ sock v, h.visits.get? sock = some v → s.sockets.has sock = true ∧
    v.opened.time ≤ s.now ∧ v.opened.step < h.steps ∧ v.checkedAt ≤ s.now ∧
    ∀ session ∈ v.session, ∀ m ∈ h.since session, v.checkedAt ≤ m.time
  sockets : ∀ sock x, s.sockets.get? sock = some x → ∃ v, h.visits.get? sock = some v ∧
    (∀ session ∈ x.authed, v.session = some session) ∧
    v.frameAt ≤ x.lastRevalidateAt + REVALIDATE_INTERVAL_MS ∧
    (x.isOpen = true → s.now ≤ v.checkedAt + REVALIDATE_INTERVAL_MS + PING_INTERVAL)
  acted : ∀ e ∈ h.acted, ∀ m ∈ e.since, e.moment.time ≤ m.time + REVALIDATE_INTERVAL_MS
  delivered : ∀ e ∈ h.delivered, ∀ m ∈ e.since,
    e.moment.time ≤ m.time + REVALIDATE_INTERVAL_MS + PING_INTERVAL
  authenticated : ∀ e ∈ h.authenticated, ∀ m ∈ e.since, e.moment.step < m.step

/-- A socket that the request has opened, and that is not authenticated yet. -/
structure Opened (i : ℕ) (sock : SocketId) (h : Watch) (v : Visit) : Prop where
  visit : h.visits.get? sock = some v
  owner : v.owner = i
  session : v.session = none
  checked : v.checkedAt = v.opened.time

/-- None of these came before the socket was opened. -/
def Before (v : Visit) (ms : List Moment) : Prop :=
  ∀ m ∈ ms, v.opened.time ≤ m.time ∧ v.opened.step < m.step

/-- A frame of an authenticated socket. When its revalidation has begun, none of `ms` came before
    that; otherwise the last revalidation was a short while ago. -/
def Covered (i : ℕ) (sock : SocketId) (session : WsAuthResult) (ms : List Moment) (s : Store)
    (h : Watch) : Prop :=
  (h.visits.get? sock).bind (·.session) = some session ∧
    ∃ r, h.receivedAt.get? i = some r ∧ r.time ≤ s.now ∧
      match h.begun.get? i with
      | none => ∀ m ∈ h.since session, r.time ≤ m.time + REVALIDATE_INTERVAL_MS
      | some t => r.time ≤ t ∧ t ≤ s.now ∧ ∀ m ∈ ms, t ≤ m.time

/-- What a request has learnt. -/
inductive Knowledge
  | nothing
  /-- It has opened the socket. -/
  | opened (sock : SocketId)
  /-- A token has verified. -/
  | verified (sock : SocketId) (t : Token)
  /-- The session of the token is not denied. -/
  | undenied (sock : SocketId) (t : Token)
  /-- Nor is its device revoked. -/
  | valid (sock : SocketId) (t : Token)
  | entitled (sock : SocketId) (session : WsAuthResult)
  /-- A frame was received, -/
  | received
  /-- and handled, and its session is still valid. -/
  | handled (sock : SocketId) (session : WsAuthResult)
  | stillUndenied (sock : SocketId) (session : WsAuthResult)
  | stillValid (sock : SocketId) (session : WsAuthResult)

def knows : Knowledge → ℕ → Request → Store → Watch → Prop
  | .nothing, _, _, _, _ => True
  | .opened sock, i, _, _, h => ∃ v, Opened i sock h v
  | .verified sock t, i, _, _, h => h.tokens.get? i = some t ∧ ∃ v, Opened i sock h v
  | .undenied sock t, i, _, _, h => h.tokens.get? i = some t ∧
    ∃ v, Opened i sock h v ∧ Before v (h.denied t.session).toList
  | .valid sock t, i, _, _, h => h.tokens.get? i = some t ∧
    ∃ v, Opened i sock h v ∧ Before v (h.since t.session)
  | .entitled sock session, i, _, _, h => ∃ t, session = t.session ∧ h.tokens.get? i = some t ∧
    ∃ v, Opened i sock h v ∧ Before v (h.since t.session)
  | .received, i, _, s, h => ∃ r, h.receivedAt.get? i = some r ∧ r.time ≤ s.now
  | .handled sock session, i, _, s, h => Covered i sock session [] s h
  | .stillUndenied sock session, i, _, s, h =>
    Covered i sock session (h.denied session).toList s h
  | .stillValid sock session, i, _, s, h => Covered i sock session (h.since session) s h

/-- What a request guarantees to the others. -/
def guarantee (i : ℕ) (a : Request) : Command → Store → Watch → Prop
  | .authenticate sock session, s, h => knows (.entitled sock session) i a s h
  | .dispatch sock, s, h => ∃ session, knows (.stillValid sock session) i a s h
  | _, _, _ => True

/-! ## The commands -/

section
variable {s : Store} {h : Watch} {i j : ℕ} {a : Request} {q : Command} {sock : SocketId}
  {session : WsAuthResult} {m : Moment} {v : Visit} {p : State × Watch}

theorem mem_since : m ∈ h.since session ↔ h.denied session = some m ∨ h.revoked session = some m := by
  rw [Watch.since, List.mem_append, Option.mem_toList, Option.mem_toList]

/-- What is denied after a command was denied before, or is from now on. -/
theorem deniedAt_record {jti : Jti} (hm : (h.record s i q).deniedAt.get? jti = some m) :
    h.deniedAt.get? jti = some m ∨ m = h.now s := by
  cases q with
  | denyJti jti' exp =>
    rw [Watch.record] at hm
    dsimp only at hm
    split_ifs at hm
    · rw [InsMap.get?_set] at hm
      split_ifs at hm
      · exact .inr (Option.some.inj hm).symm
      · exact .inl hm
    · exact .inl hm
  | _ => exact .inl hm

theorem revokedAt_record {d : DeviceId} (hm : (h.record s i q).revokedAt.get? d = some m) :
    h.revokedAt.get? d = some m ∨ m = h.now s := by
  cases q with
  | revokeDevice d' =>
    rw [Watch.record] at hm
    dsimp only at hm
    split_ifs at hm
    · rw [InsMap.get?_set] at hm
      split_ifs at hm
      · exact .inr (Option.some.inj hm).symm
      · exact .inl hm
    · exact .inl hm
  | reauthorizeDevice d' =>
    change (h.revokedAt.delete d').get? d = some m at hm
    rw [InsMap.get?_delete] at hm
    split_ifs at hm
    exact .inl hm
  | _ => exact .inl hm

theorem denied_record (hm : (h.record s i q).denied session = some m) :
    h.denied session = some m ∨ m = h.now s := by
  obtain ⟨jti, hjti, hm⟩ := Option.bind_eq_some_iff.1 hm
  exact (deniedAt_record hm).imp_left fun hm => Option.bind_eq_some_iff.2 ⟨jti, hjti, hm⟩

theorem since_record (hm : m ∈ (h.record s i q).since session) :
    m ∈ h.since session ∨ m = h.now s := by
  rcases mem_since.1 hm with hm | hm
  · exact (denied_record hm).imp_left fun hm => mem_since.2 (.inl hm)
  · obtain ⟨d, hd, hm⟩ := Option.bind_eq_some_iff.1 hm
    exact (revokedAt_record hm).imp_left fun hm =>
      mem_since.2 (.inr (Option.bind_eq_some_iff.2 ⟨d, hd, hm⟩))

/-- What a command changes of a visit: its authentication, a frame that is handled, and one that
    was revalidated. -/
structure Goes (s : Store) (h : Watch) (i : ℕ) (q : Command) (sock : SocketId) (v v' : Visit) :
    Prop where
  owner : v'.owner = v.owner
  opened : v'.opened = v.opened
  session : v'.session = v.session ∨ ∃ session, q = .authenticate sock session
  checkedAt : v'.checkedAt = v.checkedAt ∨
    (q = .dispatch sock ∧ ∃ t, h.begun.get? i = some t ∧ v'.checkedAt = max v.checkedAt t)
  frameAt : v'.frameAt = v.frameAt ∨ (v'.frameAt = s.now ∧ ∃ frame session revalidates,
    q = .handleMessage sock frame ∧
      (s.answer (.handleMessage sock frame)).1 = .handled session revalidates)

theorem Goes.refl : Goes s h i q sock v v := ⟨rfl, rfl, .inl rfl, .inl rfl, .inl rfl⟩

theorem seen_of_some (hv : h.visits.get? sock = some v) (hopen : s.sockets.has sock = true) :
    ∃ v', (h.record s i q).visits.get? sock = some v' ∧ Goes s h i q sock v v' := by
  have hset : ∀ {sock' : SocketId} {x : Visit}, sock' ≠ sock →
      (h.visits.set sock' x).get? sock = some v :=
    fun hne => (InsMap.get?_set_ne _ _ hne.symm).trans hv
  change ∃ v', (h.seen s i q).get? sock = some v' ∧ _
  cases q with
  | connect sock' =>
    rw [Watch.seen]
    split_ifs with hhas
    · exact ⟨v, hv, .refl⟩
    · have hne : sock' ≠ sock := fun heq => hhas (heq ▸ hopen)
      exact ⟨v, hset hne, .refl⟩
  | authenticate sock' session =>
    rw [Watch.seen]
    split
    · rename_i t x ht hx
      by_cases hne : sock' = sock
      · subst hne
        cases hx.symm.trans hv
        exact ⟨_, InsMap.get?_set_self _ _ _, rfl, rfl, .inr ⟨session, rfl⟩, .inl rfl, .inl rfl⟩
      · exact ⟨v, hset hne, .refl⟩
    · exact ⟨v, hv, .refl⟩
  | handleMessage sock' frame =>
    rw [Watch.seen]
    split
    · rename_i session revalidates x hhandled hx
      by_cases hne : sock' = sock
      · subst hne
        cases hx.symm.trans hv
        exact ⟨_, InsMap.get?_set_self _ _ _, rfl, rfl, .inl rfl, .inl rfl,
          .inr ⟨rfl, frame, session, revalidates, rfl, hhandled⟩⟩
      · exact ⟨v, hset hne, .refl⟩
    · exact ⟨v, hv, .refl⟩
  | dispatch sock' =>
    rw [Watch.seen]
    split
    · rename_i t x ht hx
      by_cases hne : sock' = sock
      · subst hne
        cases hx.symm.trans hv
        exact ⟨_, InsMap.get?_set_self _ _ _, rfl, rfl, .inl rfl, .inr ⟨rfl, t, ht, rfl⟩, .inl rfl⟩
      · exact ⟨v, hset hne, .refl⟩
    · exact ⟨v, hv, .refl⟩
  | _ => exact ⟨v, hv, .refl⟩

/-- A visit begins when its socket is opened. -/
theorem seen_of_none (hv : h.visits.get? sock = none) {v' : Visit}
    (hv' : (h.record s i q).visits.get? sock = some v') :
    q = .connect sock ∧ v' = ⟨i, h.now s, none, s.now, s.now⟩ := by
  have hset : ∀ {sock' : SocketId} {x y : Visit}, h.visits.get? sock' = some y →
      (h.visits.set sock' x).get? sock = some v' → q = .connect sock ∧
        v' = ⟨i, h.now s, none, s.now, s.now⟩ := by
    intro sock' x y hy hget
    rw [InsMap.get?_set] at hget
    split_ifs at hget with hsock
    · rw [hsock, hy] at hv
      cases hv
    · rw [hv] at hget
      cases hget
  have hsame : h.visits.get? sock = some v' → q = .connect sock ∧
      v' = ⟨i, h.now s, none, s.now, s.now⟩ := fun hget => by
    rw [hv] at hget
    cases hget
  change (h.seen s i q).get? sock = some v' at hv'
  cases q with
  | connect sock' =>
    rw [Watch.seen] at hv'
    split_ifs at hv' with hhas
    · exact hsame hv'
    · rw [InsMap.get?_set] at hv'
      split_ifs at hv' with hsock
      · exact ⟨by rw [hsock], (Option.some.inj hv').symm⟩
      · exact hsame hv'
  | authenticate sock' session | handleMessage sock' frame | dispatch sock' =>
    rw [Watch.seen] at hv'
    split at hv'
    · rename_i hx
      exact hset hx hv'
    · exact hsame hv'
  | _ => exact hsame hv'

theorem seen_connect (hnew : s.sockets.has sock = false) :
    (h.record s i (.connect sock)).visits.get? sock = some ⟨i, h.now s, none, s.now, s.now⟩ := by
  change (h.seen s i (.connect sock)).get? sock = _
  rw [Watch.seen, if_neg (by rw [hnew]; exact Bool.false_ne_true)]
  exact InsMap.get?_set_self _ _ _

theorem seen_handled {frame : Frame} {revalidates : Bool} {s' : Store}
    (hanswer : s.answer (.handleMessage sock frame) = (.handled session revalidates, s'))
    (hv : h.visits.get? sock = some v) :
    (h.record s i (.handleMessage sock frame)).visits.get? sock =
      some { v with frameAt := s.now } := by
  change (h.seen s i (.handleMessage sock frame)).get? sock = _
  rw [Watch.seen, hanswer, hv]
  exact InsMap.get?_set_self _ _ _

theorem seen_unhandled {frame : Frame}
    (hanswer : ∀ session revalidates, (s.answer (.handleMessage sock frame)).1 ≠
      .handled session revalidates) :
    (h.record s i (.handleMessage sock frame)).visits = h.visits := by
  change h.seen s i (.handleMessage sock frame) = _
  rw [Watch.seen]
  split
  · rename_i hhandled _
    exact absurd hhandled (hanswer _ _)
  · rfl

theorem seen_authenticate {t : Token} (ht : h.tokens.get? i = some t)
    (hv : h.visits.get? sock = some v) :
    (h.record s i (.authenticate sock session)).visits.get? sock =
      some { v with session := some t.session } := by
  change (h.seen s i (.authenticate sock session)).get? sock = _
  rw [Watch.seen, ht, hv]
  exact InsMap.get?_set_self _ _ _

theorem begun_record (hji : j ≠ i) : (h.record s i q).begun.get? j = h.begun.get? j := by
  cases q with
  | handleMessage sock frame =>
    rw [Watch.record]
    dsimp only
    split
    · exact InsMap.get?_set_ne _ _ hji
    · exact InsMap.get?_delete_ne _ hji
  | _ => rfl

theorem tokens_record (hji : j ≠ i) : (h.record s i q).tokens.get? j = h.tokens.get? j := by
  cases q with
  | jwtVerify t | verifyTicket t => exact InsMap.get?_set_ne _ _ hji
  | _ => rfl

/-- Sockets stay, under their names. -/
theorem has_answer (hopen : s.sockets.has sock = true) :
    (s.answer q).2.sockets.has sock = true := by
  have hset : ∀ sock' x, (s.sockets.set sock' x).has sock = true := fun sock' x => by
    rw [InsMap.has_set, hopen, Bool.or_true]
  have hmodify : ∀ sock' f, (s.modifySocket sock' f).sockets.has sock = true := fun sock' f => by
    rw [Store.modifySocket]
    split
    · exact hset _ _
    · exact hopen
  cases q with
  | connect sock' =>
    rw [Store.answer]
    dsimp only
    split_ifs
    · exact hopen
    · exact hset _ _
  | authenticate | registerUserSocket | close | disconnect => exact hmodify _ _
  | handleMessage sock' frame =>
    rcases s.handleMessage_cases sock' frame with hanswer | ⟨x, session, -, -, hanswer | hanswer |
      ⟨-, hanswer⟩ | ⟨-, -, hanswer⟩⟩ <;> rw [hanswer]
    · exact hopen
    · exact hopen
    · exact hset _ _
    · exact hset _ _
    · exact hopen
  | denyJti | markRevoked =>
    rw [Store.answer]
    dsimp only
    split_ifs <;> exact hopen
  | revokeDevice | reauthorizeDevice =>
    rw [Store.answer, Store.sockets_modifyDevice]
    exact hopen
  | _ => exact hopen

/-- What becomes of a socket with a command other than a frame of it. -/
theorem socket_answer {x' : Socket} (hx' : (s.answer q).2.sockets.get? sock = some x')
    (hq : ∀ frame, q ≠ .handleMessage sock frame) :
    (q = .connect sock ∧ s.sockets.has sock = false ∧ x' = ⟨none, s.now, false, true⟩) ∨
    ∃ x, s.sockets.get? sock = some x ∧ x'.lastRevalidateAt = x.lastRevalidateAt ∧
      (x'.isOpen = true → x.isOpen = true) ∧
      ∀ session ∈ x'.authed, x.authed = some session ∨ q = .authenticate sock session := by
  have hsame : s.sockets.get? sock = some x' → ∃ x, s.sockets.get? sock = some x ∧
      x'.lastRevalidateAt = x.lastRevalidateAt ∧ (x'.isOpen = true → x.isOpen = true) ∧
      ∀ session ∈ x'.authed, x.authed = some session ∨ q = .authenticate sock session :=
    fun hx => ⟨x', hx, rfl, id, fun session hsession => .inl hsession⟩
  have hmodify : ∀ {sock' f}, (s.modifySocket sock' f).sockets.get? sock = some x' →
      (∀ x, (f x).lastRevalidateAt = x.lastRevalidateAt) →
      (∀ x, (f x).isOpen = true → x.isOpen = true) →
      (∀ x, ∀ session ∈ (f x).authed, x.authed = some session ∨
        q = .authenticate sock' session) → ∃ x, s.sockets.get? sock = some x ∧
      x'.lastRevalidateAt = x.lastRevalidateAt ∧ (x'.isOpen = true → x.isOpen = true) ∧
      ∀ session ∈ x'.authed, x.authed = some session ∨ q = .authenticate sock session := by
    intro sock' f hget hlast hopen hauthed
    rw [Store.get?_modifySocket] at hget
    split_ifs at hget with hsock
    · subst hsock
      obtain ⟨x, hx, rfl⟩ := Option.map_eq_some_iff.1 hget
      exact ⟨x, hx, hlast x, hopen x, hauthed x⟩
    · exact hsame hget
  cases q with
  | connect sock' =>
    rw [Store.answer] at hx'
    dsimp only at hx'
    split_ifs at hx' with hhas
    · exact .inr (hsame hx')
    · rw [InsMap.get?_set] at hx'
      split_ifs at hx' with hsock
      · subst hsock
        exact .inl ⟨rfl, by simpa using hhas, (Option.some.inj hx').symm⟩
      · exact .inr (hsame hx')
  | authenticate sock' session =>
    refine .inr (hmodify hx' (fun _ => rfl) (fun _ => id) fun x session' hsession => .inr ?_)
    rw [Option.some.inj hsession]
  | registerUserSocket sock' =>
    exact .inr (hmodify hx' (fun _ => rfl) (fun _ => id) fun x session hsession => .inl hsession)
  | close sock' =>
    exact .inr (hmodify hx' (fun _ => rfl) (fun _ h => absurd h Bool.false_ne_true)
      fun x session hsession => .inl hsession)
  | disconnect sock' =>
    refine .inr (hmodify hx' (fun _ => rfl) (fun _ h => absurd h Bool.false_ne_true)
      fun x session hsession => ?_)
    cases hsession
  | handleMessage sock' frame =>
    refine .inr (hsame ?_)
    have hne : sock ≠ sock' := fun heq => hq frame (by rw [heq])
    rcases s.handleMessage_cases sock' frame with hanswer | ⟨x, session, -, -, hanswer | hanswer |
      ⟨-, hanswer⟩ | ⟨-, -, hanswer⟩⟩ <;> rw [hanswer] at hx'
    · exact hx'
    · exact hx'
    · exact (InsMap.get?_set_ne _ _ hne).symm.trans hx'
    · exact (InsMap.get?_set_ne _ _ hne).symm.trans hx'
    · exact hx'
  | denyJti | markRevoked =>
    rw [Store.answer] at hx'
    dsimp only at hx'
    split_ifs at hx' <;> exact .inr (hsame hx')
  | revokeDevice | reauthorizeDevice =>
    rw [Store.answer, Store.sockets_modifyDevice] at hx'
    exact .inr (hsame hx')
  | _ => exact .inr (hsame hx')

/-! ## What is known goes on to be known -/

theorem Opened.keep (hv : Opened j sock h v) (hs : Sound s h)
    (hauthenticate : ∀ session, q ≠ .authenticate sock session) (hdispatch : q ≠ .dispatch sock) :
    ∃ v', Opened j sock (h.record s i q) v' ∧ v'.opened = v.opened := by
  obtain ⟨v', hv', hgoes⟩ :=
    seen_of_some (i := i) (q := q) hv.visit (hs.visits sock v hv.visit).1
  have hsession := hgoes.session.resolve_right fun ⟨session, hq⟩ => hauthenticate session hq
  have hchecked := hgoes.checkedAt.resolve_right fun h => hdispatch h.1
  refine ⟨v', ⟨hv', hgoes.owner.trans hv.owner, hsession.trans hv.session, ?_⟩, hgoes.opened⟩
  rw [hchecked, hgoes.opened]
  exact hv.checked

theorem Before.record {ms : List Moment} (hv : Before v ms) (hs : Sound s h)
    (hvisit : h.visits.get? sock = some v) {v' : Visit} (hopened : v'.opened = v.opened)
    {ms' : List Moment} (hms : ∀ m ∈ ms', m ∈ ms ∨ m = h.now s) : Before v' ms' := by
  intro m hm
  rw [hopened]
  rcases hms m hm with hm | rfl
  · exact hv m hm
  · obtain ⟨-, htime, hstep, -⟩ := hs.visits sock v hvisit
    exact ⟨htime, hstep⟩

theorem session_keep (hsession : (h.visits.get? sock).bind (·.session) = some session)
    (hs : Sound s h) (hauthenticate : ∀ session, q ≠ .authenticate sock session) :
    ((h.record s i q).visits.get? sock).bind (·.session) = some session := by
  obtain ⟨v, hv, hsession⟩ := Option.bind_eq_some_iff.1 hsession
  obtain ⟨v', hv', hgoes⟩ := seen_of_some (i := i) (q := q) hv (hs.visits sock v hv).1
  refine Option.bind_eq_some_iff.2 ⟨v', hv', ?_⟩
  rw [hgoes.session.resolve_right fun ⟨session, hq⟩ => hauthenticate session hq]
  exact hsession

/-- A frame goes on to be covered. -/
theorem Covered.keep {ms ms' : List Moment} (hc : Covered j sock session ms s h) (hs : Sound s h)
    (hauthenticate : ∀ session, q ≠ .authenticate sock session)
    (hbegun : (h.record s i q).begun.get? j = h.begun.get? j)
    (hms : ∀ m ∈ ms', m ∈ ms ∨ m = h.now s) :
    Covered j sock session ms' (s.answer q).2 (h.record s i q) := by
  obtain ⟨hsession, r, hr, hle, hrest⟩ := hc
  have hnow := s.now_le_answer q
  refine ⟨session_keep hsession hs hauthenticate, r, hr, Nat.le_trans hle hnow, ?_⟩
  rw [hbegun]
  cases hb : h.begun.get? j with
  | none =>
    rw [hb] at hrest
    intro m hm
    rcases since_record hm with hm | rfl
    · exact hrest m hm
    · exact Nat.le_add_right_of_le hle
  | some t =>
    rw [hb] at hrest
    obtain ⟨hrt, hnow', hrest⟩ := hrest
    refine ⟨hrt, Nat.le_trans hnow' hnow, fun m hm => ?_⟩
    rcases hms m hm with hm | rfl
    · exact hrest m hm
    · exact hnow'

/-- What a request knows is kept by a command that neither authenticates its socket, nor acts upon
    a frame of it before, nor concerns its token and the beginning of its revalidation. -/
theorem knows_keep (hs : Sound s h)
    (hopened : ∀ {sock v}, Opened j sock h v →
      (∀ session, q ≠ .authenticate sock session) ∧ q ≠ .dispatch sock)
    (hsession : ∀ {sock session}, (h.visits.get? sock).bind (·.session) = some session →
      ∀ session', q ≠ .authenticate sock session')
    (htokens : (h.record s i q).tokens.get? j = h.tokens.get? j)
    (hbegun : (h.record s i q).begun.get? j = h.begun.get? j) (k : Knowledge) (b : Request)
    (hk : knows k j b s h) : knows k j b (s.answer q).2 (h.record s i q) := by
  have hvalid : ∀ {sock v t}, Opened j sock h v → Before v (h.since t) →
      ∃ v', Opened j sock (h.record s i q) v' ∧ Before v' ((h.record s i q).since t) := by
    intro sock v t hv hbefore
    obtain ⟨v', hv', hopened'⟩ := hv.keep hs (hopened hv).1 (hopened hv).2
    exact ⟨v', hv', hbefore.record hs hv.visit hopened' fun m hm => since_record hm⟩
  cases k with
  | nothing => trivial
  | opened sock =>
    obtain ⟨v, hv⟩ := hk
    obtain ⟨v', hv', -⟩ := hv.keep hs (hopened hv).1 (hopened hv).2
    exact ⟨v', hv'⟩
  | verified sock t =>
    obtain ⟨ht, v, hv⟩ := hk
    obtain ⟨v', hv', -⟩ := hv.keep hs (hopened hv).1 (hopened hv).2
    exact ⟨htokens.trans ht, v', hv'⟩
  | undenied sock t =>
    obtain ⟨ht, v, hv, hbefore⟩ := hk
    obtain ⟨v', hv', hopened'⟩ := hv.keep hs (hopened hv).1 (hopened hv).2
    refine ⟨htokens.trans ht, v', hv', hbefore.record hs hv.visit hopened' fun m hm => ?_⟩
    exact (denied_record (Option.mem_toList.1 hm)).imp_left Option.mem_toList.2
  | valid sock t =>
    obtain ⟨ht, v, hv, hbefore⟩ := hk
    exact ⟨htokens.trans ht, hvalid hv hbefore⟩
  | entitled sock session =>
    obtain ⟨t, heq, ht, v, hv, hbefore⟩ := hk
    exact ⟨t, heq, htokens.trans ht, hvalid hv hbefore⟩
  | received =>
    obtain ⟨r, hr, hle⟩ := hk
    exact ⟨r, hr, Nat.le_trans hle (s.now_le_answer q)⟩
  | handled sock session =>
    exact Covered.keep hk hs (hsession hk.1) hbegun fun m hm => absurd hm List.not_mem_nil
  | stillUndenied sock session =>
    exact Covered.keep hk hs (hsession hk.1) hbegun fun m hm =>
      (denied_record (Option.mem_toList.1 hm)).imp_left Option.mem_toList.2
  | stillValid sock session =>
    exact Covered.keep hk hs (hsession hk.1) hbegun fun m hm => since_record hm

/-- The other requests keep what a request knows. -/
theorem knows_other (hs : Sound s h) (hg : guarantee i a q s h) (k : Knowledge) (b : Request)
    (hji : j ≠ i) (hk : knows k j b s h) : knows k j b (s.answer q).2 (h.record s i q) := by
  refine knows_keep hs (fun hv => ⟨?_, ?_⟩) ?_ (tokens_record hji) (begun_record hji) k b hk
  · rintro session rfl
    obtain ⟨t, -, -, w, hw, -⟩ := hg
    cases hv.visit.symm.trans hw.visit
    exact hji (hv.owner.symm.trans hw.owner)
  · rintro rfl
    obtain ⟨session, hsession, -⟩ := hg
    rw [hv.visit, Option.bind_some, hv.session] at hsession
    cases hsession
  · rintro sock session hsession session' rfl
    obtain ⟨t, -, -, w, hw, -⟩ := hg
    rw [hw.visit, Option.bind_some, hw.session] at hsession
    cases hsession

/-! ## What every command keeps -/

/-- What is sent to an open socket comes in time. -/
theorem Sound.send (hs : Sound s h) {e : Happening} (he : e ∈ h.send s sock) {m : Moment}
    (hm : m ∈ e.since) : e.moment.time ≤ m.time + REVALIDATE_INTERVAL_MS + PING_INTERVAL := by
  rw [Watch.send] at he
  split at he
  · rename_i x session hx hsession
    split_ifs at he with hopen
    · obtain rfl := List.mem_singleton.1 he
      obtain ⟨v, hv, hvsession⟩ := Option.bind_eq_some_iff.1 hsession
      obtain ⟨w, hw, -, -, hle⟩ := hs.sockets sock x hx
      cases hw.symm.trans hv
      have hchecked := (hs.visits sock v hv).2.2.2.2 session hvsession m hm
      refine Nat.le_trans (hle hopen) ?_
      exact Nat.add_le_add_right (Nat.add_le_add_right hchecked _) _
    · cases he
  · cases he

theorem Sound.sent (hs : Sound s h) {e : Happening} (he : e ∈ h.sent s q) {m : Moment}
    (hm : m ∈ e.since) : e.moment.time ≤ m.time + REVALIDATE_INTERVAL_MS + PING_INTERVAL := by
  cases q with
  | handleMessage sock frame =>
    rw [Watch.sent] at he
    split_ifs at he
    · exact hs.send he hm
    · cases he
  | dispatch sock | close sock => exact hs.send he hm
  | deliverLocal user =>
    obtain ⟨sock, -, he⟩ := List.mem_flatMap.1 he
    exact hs.send he hm
  | _ => cases he

/-- A device whose revocation is known is revoked. -/
theorem Sound.device (hs : Sound s h) {d : DeviceId}
    (hm : (h.record s i q).revokedAt.get? d = some m) :
    ∃ row, (s.answer q).2.devices.get? d = some row ∧ row.revoked = true := by
  have hsame : (s.answer q).2.devices = s.devices → h.revokedAt.get? d = some m →
      ∃ row, (s.answer q).2.devices.get? d = some row ∧ row.revoked = true := by
    intro hdevices hm
    rw [hdevices]
    exact (hs.revoked d m hm).2.2
  cases q with
  | revokeDevice d' =>
    have hrow : s.devices.has d = true ∧ (d = d' ∨ h.revokedAt.get? d = some m) := by
      rw [Watch.record] at hm
      dsimp only at hm
      split_ifs at hm with hnew
      · rw [InsMap.get?_set] at hm
        split_ifs at hm with hd
        · exact ⟨hd ▸ hnew.1, .inl hd⟩
        · obtain ⟨row, hrow, -⟩ := (hs.revoked d m hm).2.2
          exact ⟨InsMap.has_iff.2 ⟨row, hrow⟩, .inr hm⟩
      · obtain ⟨row, hrow, -⟩ := (hs.revoked d m hm).2.2
        exact ⟨InsMap.has_iff.2 ⟨row, hrow⟩, .inr hm⟩
    obtain ⟨hhas, hold⟩ := hrow
    rw [Store.answer, Store.get?_modifyDevice]
    split_ifs with hd
    · subst hd
      obtain ⟨row, hrow⟩ := InsMap.has_iff.1 hhas
      rw [hrow]
      exact ⟨_, rfl, rfl⟩
    · exact (hs.revoked d m (hold.resolve_left hd)).2.2
  | reauthorizeDevice d' =>
    change (h.revokedAt.delete d').get? d = some m at hm
    rw [InsMap.get?_delete] at hm
    split_ifs at hm with hd
    rw [Store.answer, Store.get?_modifyDevice, if_neg hd]
    exact (hs.revoked d m hm).2.2
  | connect | denyJti | markRevoked =>
    refine hsame ?_ hm
    rw [Store.answer]
    dsimp only
    split_ifs <;> rfl
  | authenticate | registerUserSocket | close | disconnect =>
    exact hsame (Store.devices_modifySocket _) hm
  | handleMessage sock frame =>
    refine hsame ?_ hm
    rcases s.handleMessage_cases sock frame with hanswer | ⟨x, session, -, -, hanswer | hanswer |
      ⟨-, hanswer⟩ | ⟨-, -, hanswer⟩⟩ <;> rw [hanswer]
  | _ => exact hsame rfl hm

theorem Sound.record_visits (hs : Sound s h) (hg : guarantee i a q s h)
    (hv : (h.record s i q).visits.get? sock = some v) :
    (s.answer q).2.sockets.has sock = true ∧ v.opened.time ≤ (s.answer q).2.now ∧
      v.opened.step < h.steps + 1 ∧ v.checkedAt ≤ (s.answer q).2.now ∧
      ∀ session ∈ v.session, ∀ m ∈ (h.record s i q).since session, v.checkedAt ≤ m.time := by
  have hnow := s.now_le_answer q
  cases hold : h.visits.get? sock with
  | none =>
    obtain ⟨rfl, rfl⟩ := seen_of_none hold hv
    refine ⟨?_, hnow, Nat.lt_succ_self _, hnow, fun session hsession => by cases hsession⟩
    rw [Store.answer]
    dsimp only
    split_ifs with hhas
    · exact hhas
    · rw [InsMap.has_set]
      simp
  | some w =>
    obtain ⟨hhas, htime, hstep, hchecked, hsince⟩ := hs.visits sock w hold
    obtain ⟨v', hv', hgoes⟩ := seen_of_some (i := i) (q := q) hold hhas
    cases hv.symm.trans hv'
    -- A frame that was revalidated was so since the session was looked up.
    have hdispatch : ∀ t, q = .dispatch sock → h.begun.get? i = some t → t ≤ s.now ∧
        ∀ session ∈ w.session, ∀ m ∈ h.since session, t ≤ m.time := by
      rintro t rfl ht
      obtain ⟨session, hsession, r, -, -, hrest⟩ := hg
      rw [ht] at hrest
      rw [hold, Option.bind_some] at hsession
      refine ⟨hrest.2.1, fun session' hsession' => ?_⟩
      cases hsession.symm.trans hsession'
      exact hrest.2.2
    have hcheckedAt : v.checkedAt ≤ s.now ∧ ∀ session ∈ w.session, ∀ m ∈ h.since session,
        v.checkedAt ≤ m.time := by
      rcases hgoes.checkedAt with heq | ⟨hq, t, ht, heq⟩ <;> rw [heq]
      · exact ⟨hchecked, hsince⟩
      · obtain ⟨htnow, htsince⟩ := hdispatch t hq ht
        exact ⟨Nat.max_le.2 ⟨hchecked, htnow⟩, fun session hsession m hm =>
          Nat.max_le.2 ⟨hsince session hsession m hm, htsince session hsession m hm⟩⟩
    refine ⟨has_answer hhas, ?_, ?_, Nat.le_trans hcheckedAt.1 hnow, fun session hsession m hm => ?_⟩
    · rw [hgoes.opened]
      exact Nat.le_trans htime hnow
    · rw [hgoes.opened]
      exact Nat.lt_succ_of_lt hstep
    · rcases since_record hm with hm | rfl
      · rcases hgoes.session with heq | ⟨session', rfl⟩
        · exact hcheckedAt.2 session (heq ▸ hsession) m hm
        · -- The session that the socket is authenticated with was looked up since it was opened.
          obtain ⟨t, -, ht, x, hx, hbefore⟩ := hg
          cases hx.visit.symm.trans hold
          cases hv'.symm.trans (seen_authenticate ht hold)
          cases Option.some.inj hsession
          refine Nat.le_trans (Nat.le_of_eq hx.checked) (hbefore m hm).1
      · exact hcheckedAt.1

/-- A frame is handled a short while after the last revalidation that has begun. -/
theorem Sound.record_frame (hs : Sound s h) {frame : Frame} {x' : Socket}
    (hx' : (s.answer (.handleMessage sock frame)).2.sockets.get? sock = some x') :
    ∃ v, (h.record s i (.handleMessage sock frame)).visits.get? sock = some v ∧
      (∀ session ∈ x'.authed, v.session = some session) ∧
      v.frameAt ≤ x'.lastRevalidateAt + REVALIDATE_INTERVAL_MS ∧
      (x'.isOpen = true → s.now ≤ v.checkedAt + REVALIDATE_INTERVAL_MS + PING_INTERVAL) := by
  rcases s.handleMessage_cases sock frame with hanswer | ⟨x, session, hx, hauthed, hanswer | hanswer |
    ⟨-, hanswer⟩ | ⟨-, hlt, hanswer⟩⟩ <;> rw [hanswer] at hx'
  · rw [seen_unhandled (by rw [hanswer]; simp)]
    exact hs.sockets sock x' hx'
  · rw [seen_unhandled (by rw [hanswer]; simp)]
    exact hs.sockets sock x' hx'
  · rw [seen_unhandled (by rw [hanswer]; simp)]
    obtain ⟨v, hv, hsession, hframe, -⟩ := hs.sockets sock x hx
    cases (InsMap.get?_set_self _ _ _).symm.trans hx'
    exact ⟨v, hv, hsession, hframe, fun h => absurd h Bool.false_ne_true⟩
  · obtain ⟨v, hv, hsession, -, hopen⟩ := hs.sockets sock x hx
    cases (InsMap.get?_set_self _ _ _).symm.trans hx'
    exact ⟨_, seen_handled hanswer hv, hsession, Nat.le_add_right _ _, hopen⟩
  · obtain ⟨v, hv, hsession, -, hopen⟩ := hs.sockets sock x hx
    cases hx.symm.trans hx'
    exact ⟨_, seen_handled hanswer hv, hsession, Nat.le_of_lt hlt, hopen⟩

theorem Sound.record_sockets (hs : Sound p.1.store p.2) (hok : Watched p i a q)
    (hg : guarantee i a q p.1.store p.2) {x' : Socket}
    (hx' : (p.1.store.answer q).2.sockets.get? sock = some x') :
    ∃ v, (p.2.record p.1.store i q).visits.get? sock = some v ∧
      (∀ session ∈ x'.authed, v.session = some session) ∧
      v.frameAt ≤ x'.lastRevalidateAt + REVALIDATE_INTERVAL_MS ∧
      (x'.isOpen = true → (p.1.store.answer q).2.now ≤
        v.checkedAt + REVALIDATE_INTERVAL_MS + PING_INTERVAL) := by
  by_cases hq : ∃ frame, q = .handleMessage sock frame
  · obtain ⟨frame, rfl⟩ := hq
    have hnow := (p.1.store.now_answer (.handleMessage sock frame)).resolve_right
      fun ⟨ms, h⟩ => by cases h
    rw [hnow]
    exact hs.record_frame hx'
  have hq' : ∀ frame, q ≠ .handleMessage sock frame := fun frame h => hq ⟨frame, h⟩
  rcases socket_answer hx' hq' with ⟨rfl, hnew, rfl⟩ | ⟨x, hx, hlast, hopen, hauthed⟩
  · have hnow := (p.1.store.now_answer (.connect sock)).resolve_right fun ⟨ms, h⟩ => by cases h
    rw [hnow]
    refine ⟨_, seen_connect hnew, fun session hsession => ?_, Nat.le_add_right _ _, fun _ => ?_⟩
    · cases hsession
    · exact Nat.le_add_right_of_le (Nat.le_add_right _ _)
  · obtain ⟨v, hv, hsession, hframe, htime⟩ := hs.sockets sock x hx
    obtain ⟨v', hv', hgoes⟩ := seen_of_some (i := i) (q := q) hv (InsMap.has_iff.2 ⟨x, hx⟩)
    have hframe' : v'.frameAt = v.frameAt :=
      hgoes.frameAt.resolve_right fun ⟨_, frame, _, _, h, _⟩ => hq' frame h
    have hchecked : v.checkedAt ≤ v'.checkedAt := by
      rcases hgoes.checkedAt with heq | ⟨-, t, -, heq⟩
      · exact Nat.le_of_eq heq.symm
      · exact heq ▸ Nat.le_max_left _ _
    refine ⟨v', hv', fun session hsession' => ?_, ?_, fun hopen' => ?_⟩
    · rcases hauthed session hsession' with hold | rfl
      · rcases hgoes.session with heq | ⟨session', rfl⟩
        · exact heq.trans (hsession session hold)
        · obtain ⟨t, -, -, w, hw, -⟩ := hg
          cases hw.visit.symm.trans hv
          cases hw.session.symm.trans (hsession session hold)
      · obtain ⟨t, rfl, ht, w, hw, -⟩ := hg
        cases hw.visit.symm.trans hv
        cases (seen_authenticate ht hv).symm.trans hv'
        rfl
    · rw [hframe', hlast]
      exact hframe
    · rcases p.1.store.now_answer q with hnow | ⟨ms, rfl⟩
      · rw [hnow]
        refine Nat.le_trans (htime (hopen hopen')) ?_
        exact Nat.add_le_add_right (Nat.add_le_add_right hchecked _) _
      · obtain ⟨heq, hle⟩ := hok (sock, x) (InsMap.get?_eq_some_iff.1 hx) (hopen hopen') v hv
        change x.lastRevalidateAt = v.checkedAt at heq
        change p.1.store.now + ms ≤ _
        omega

/-- What is known of the sockets is kept by every command. -/
theorem Sound.record (hs : Sound p.1.store p.2) (hok : Watched p i a q)
    (hg : guarantee i a q p.1.store p.2) :
    Sound (p.1.store.answer q).2 (p.2.record p.1.store i q) := by
  have hnow := p.1.store.now_le_answer q
  refine ⟨fun jti m hm => ?_, fun d m hm => ?_, fun sock v hv => hs.record_visits hg hv,
    fun sock x hx => hs.record_sockets hok hg hx, fun e he m hm => ?_, fun e he m hm => ?_,
    fun e he m hm => ?_⟩
  · rcases deniedAt_record hm with hm | rfl
    · obtain ⟨htime, hstep⟩ := hs.denied jti m hm
      exact ⟨Nat.le_trans htime hnow, Nat.lt_succ_of_lt hstep⟩
    · exact ⟨hnow, Nat.lt_succ_self _⟩
  · refine and_assoc.1 ⟨?_, hs.device hm⟩
    rcases revokedAt_record hm with hm | rfl
    · obtain ⟨htime, hstep, -⟩ := hs.revoked d m hm
      exact ⟨Nat.le_trans htime hnow, Nat.lt_succ_of_lt hstep⟩
    · exact ⟨hnow, Nat.lt_succ_self _⟩
  · cases q with
    | dispatch sock =>
      obtain ⟨session, hsession, r, hr, -, hrest⟩ := hg
      rw [Watch.record] at he
      dsimp only at he
      rw [hsession, hr] at he
      rcases List.mem_append.1 he with he | he
      · exact hs.acted e he m hm
      · obtain rfl := List.mem_singleton.1 he
        cases hb : p.2.begun.get? i with
        | none =>
          rw [hb] at hrest
          exact hrest m hm
        | some t =>
          rw [hb] at hrest
          exact Nat.le_add_right_of_le (Nat.le_trans hrest.1 (hrest.2.2 m hm))
    | _ => exact hs.acted e he m hm
  · rcases List.mem_append.1 he with he | he
    · exact hs.delivered e he m hm
    · exact hs.sent he hm
  · cases q with
    | authenticate sock session =>
      obtain ⟨t, -, ht, w, hw, hbefore⟩ := hg
      rw [Watch.record] at he
      dsimp only at he
      rw [ht, hw.visit] at he
      rcases List.mem_append.1 he with he | he
      · exact hs.authenticated e he m hm
      · obtain rfl := List.mem_singleton.1 he
        exact (hbefore m hm).2
    | _ => exact hs.authenticated e he m hm

end

/-! ## What the requests learn -/

abbrev Learns {α : Type} (a : Request) (k : Knowledge) (x : Procedure α) (fin : α → Knowledge) :
    Prop :=
  Triple realtime watching Watched Sound guarantee knows a k x fin

section
variable {a : Request} {sock : SocketId} {session : WsAuthResult} {t : Token} {k : Knowledge}

/-- A command after which a request knows what it did. -/
def Command.Quiet (q : Command) : Prop :=
  (∀ sock session, q ≠ .authenticate sock session) ∧ (∀ sock, q ≠ .dispatch sock) ∧
    ∀ s h i j, (Watch.record h s i q).tokens.get? j = h.tokens.get? j ∧
      (Watch.record h s i q).begun.get? j = h.begun.get? j

theorem learns_quiet {q : Command} (hq : q.Quiet) (k : Knowledge) :
    Learns a k (command q) fun _ => k := by
  obtain ⟨hauthenticate, hdispatch, hrest⟩ := hq
  refine Triple.request (fun i s h _ => ?_) fun p i prog _ hs hk => ?_
  · cases q with
    | authenticate sock session => exact absurd rfl (hauthenticate sock session)
    | dispatch sock => exact absurd rfl (hdispatch sock)
    | _ => trivial
  · exact knows_keep hs (fun _ => ⟨hauthenticate _, hdispatch _⟩) (fun _ => hauthenticate _)
      (hrest _ _ _ _).1 (hrest _ _ _ _).2 k a hk

/-- A session that is found not to be denied never was. -/
theorem not_deniedAt {p : State × Watch} {i : ℕ} {jti : Jti} {m : Moment}
    (hok : Watched p i a (.isJtiDenied jti))
    (hr : (p.1.store.answer (.isJtiDenied jti)).1 = some false) :
    p.2.deniedAt.get? jti ≠ some m := by
  intro hm
  have hdenied := hok (by rw [hm]; exact Option.some_ne_none _)
  change (if p.1.store.redisUp then some (p.1.store.denied jti) else none) = some false at hr
  rw [hdenied] at hr
  split_ifs at hr
  cases hr

/-- A device that is found active is not revoked. -/
theorem not_revokedAt {s : Store} {h : Watch} (hs : Sound s h) {user : UserId} {d : DeviceId}
    {m : Moment} (hr : s.active user d = true) : h.revokedAt.get? d ≠ some m := by
  intro hm
  obtain ⟨-, -, row, hrow, hrevoked⟩ := hs.revoked d m hm
  rw [Store.active, hrow, Option.any_some, hrevoked] at hr
  simp at hr

theorem learns_sessionDenied : Learns a (.verified sock t) (sessionDenied t.jti)
    fun r => if r = some false then .undenied sock t else .opened sock := by
  cases hjti : t.jti with
  | none =>
    refine Triple.pure fun i s h hk => ?_
    rw [if_pos rfl]
    obtain ⟨ht, v, hv⟩ := hk
    refine ⟨ht, v, hv, fun m hm => ?_⟩
    rw [Watch.denied, Token.session, hjti] at hm
    cases hm
  | some jti =>
    refine Triple.request (fun i s h _ => trivial) fun p i prog hok hs hk => ?_
    obtain ⟨ht, v, hv⟩ := hk
    obtain ⟨v', hv', -⟩ := hv.keep (i := i) (q := .isJtiDenied jti) hs (by simp) (by simp)
    split_ifs with hr
    · refine ⟨ht, v', hv', fun m hm => ?_⟩
      obtain ⟨jti', hjti', hm⟩ := Option.bind_eq_some_iff.1 (Option.mem_toList.1 hm)
      cases hjti.symm.trans hjti'
      exact absurd hm (not_deniedAt hok hr)
    · exact ⟨v', hv'⟩

theorem learns_isUserDeviceSessionValid : Learns a (.undenied sock t)
    (isUserDeviceSessionValid t.sub t.deviceId)
    fun r => if r then .valid sock t else .opened sock := by
  cases hd : t.deviceId with
  | none =>
    refine Triple.pure fun i s h hk => ?_
    rw [if_pos rfl]
    obtain ⟨ht, v, hv, hbefore⟩ := hk
    refine ⟨ht, v, hv, fun m hm => ?_⟩
    rcases mem_since.1 hm with hm | hm
    · exact hbefore m (Option.mem_toList.2 hm)
    · rw [Watch.revoked, Token.session, hd] at hm
      cases hm
  | some d =>
    refine Triple.request (fun i s h _ => trivial) fun p i prog _ hs hk => ?_
    obtain ⟨ht, v, hv, hbefore⟩ := hk
    obtain ⟨v', hv', hopened⟩ :=
      hv.keep (i := i) (q := .assertDeviceActiveForUser t.sub d) hs (by simp) (by simp)
    split_ifs with hr
    · refine ⟨ht, v', hv', hbefore.record hs hv.visit hopened fun m hm => ?_⟩
      rcases mem_since.1 hm with hm | hm
      · exact .inl (Option.mem_toList.2 hm)
      · obtain ⟨d', hd', hm⟩ := Option.bind_eq_some_iff.1 hm
        cases hd.symm.trans hd'
        exact absurd hm (not_revokedAt hs hr)
    · exact ⟨v', hv'⟩

/-- A token that was verified is known. -/
theorem knows_verified {i : ℕ} {s : Store} {h : Watch} {q : Command} (hs : Sound s h)
    (hauthenticate : ∀ session, q ≠ .authenticate sock session) (hdispatch : q ≠ .dispatch sock)
    (ht : (h.record s i q).tokens.get? i = some t) (hk : knows (.opened sock) i a s h) :
    knows (.verified sock t) i a (s.answer q).2 (h.record s i q) := by
  obtain ⟨v, hv⟩ := hk
  obtain ⟨v', hv', -⟩ := hv.keep hs hauthenticate hdispatch
  exact ⟨ht, v', hv'⟩

theorem learns_jwtVerify : Learns a (.opened sock) (command (.jwtVerify t))
    fun _ => .verified sock t :=
  .request (fun _ _ _ _ => trivial) fun _ _ _ _ hs hk =>
    knows_verified hs (by simp) (by simp) (InsMap.get?_set_self _ _ _) hk

theorem opened_of_undenied {i : ℕ} {s : Store} {h : Watch}
    (hk : knows (.undenied sock t) i a s h) : knows (.opened sock) i a s h := by
  obtain ⟨-, v, hv, -⟩ := hk
  exact ⟨v, hv⟩

theorem opened_of_valid {i : ℕ} {s : Store} {h : Watch}
    (hk : knows (.valid sock t) i a s h) : knows (.opened sock) i a s h := by
  obtain ⟨-, v, hv, -⟩ := hk
  exact ⟨v, hv⟩

theorem learns_verifySessionJwt (rejectsLegacy : Bool) (cookie : Option Token) :
    Learns a (.opened sock) (verifySessionJwt rejectsLegacy cookie)
      fun r => r.elim (.opened sock) (.undenied sock) := by
  cases cookie with
  | none => exact Triple.pure fun i s h hk => hk
  | some t =>
    refine learns_jwtVerify.bind fun r => .ite (fun _ => ?_) fun _ => .ite (fun _ => ?_) fun _ => ?_
    · exact Triple.pure fun i s h hk => hk.2
    · exact Triple.pure fun i s h hk => hk.2
    · refine learns_sessionDenied.bind fun r => .ite (fun hr => ?_) fun hr => ?_
      · rw [if_neg hr]
        exact Triple.pure fun i s h hk => hk
      · rw [if_pos (not_not.1 hr)]
        refine .ite (fun _ => ?_) fun _ => ?_
        · exact Triple.pure fun i s h hk => opened_of_undenied hk
        · exact Triple.pure fun i s h hk => hk

theorem learns_deviceMarked (d : Option DeviceId) (k : Knowledge) :
    Learns a k (deviceMarked d) fun _ => k := by
  cases d with
  | none => exact Triple.pure fun i s h hk => hk
  | some d => exact learns_quiet ⟨by simp, by simp, fun _ _ _ _ => ⟨rfl, rfl⟩⟩ k

theorem learns_getAuthUser (u : Upgrade) : Learns a (.opened sock) (getAuthUser u)
    fun r => r.elim (.opened sock) (.valid sock) := by
  refine (learns_verifySessionJwt _ _).bind fun r => ?_
  cases r with
  | none => exact Triple.pure fun i s h hk => hk
  | some t =>
    refine (learns_deviceMarked _ _).bind fun marked => .ite (fun _ => ?_) fun _ => ?_
    · exact Triple.pure fun i s h hk => opened_of_undenied hk
    · refine learns_isUserDeviceSessionValid.bind fun valid => .ite (fun hvalid => ?_) fun hvalid => ?_
      · rw [if_neg (by simpa using hvalid)]
        exact Triple.pure fun i s h hk => hk
      · rw [if_pos (by simpa using hvalid)]
        refine (learns_quiet ⟨by simp, by simp, fun _ _ _ _ => ⟨rfl, rfl⟩⟩ _).bind fun _ =>
          .ite (fun _ => ?_) fun _ => ?_
        · exact Triple.pure fun i s h hk => opened_of_valid hk
        · refine (learns_quiet ⟨by simp, by simp, fun _ _ _ _ => ⟨rfl, rfl⟩⟩ _).bind fun _ => ?_
          exact Triple.pure fun i s h hk => hk

theorem learns_verifyTicket : Learns a (.opened sock) (command (.verifyTicket t))
    fun _ => if t.scope = some .ws then .undenied sock t else .opened sock := by
  refine .request (fun i s h _ => trivial) fun p i prog hok hs hk => ?_
  obtain ⟨ht, v, hv⟩ : knows (.verified sock t) i a _ (p.2.record p.1.store i (.verifyTicket t)) :=
    knows_verified hs (by simp) (by simp) (InsMap.get?_set_self _ _ _) hk
  split_ifs with hscope
  · refine ⟨ht, v, hv, fun m hm => ?_⟩
    obtain ⟨jti, hjti, hm⟩ := Option.bind_eq_some_iff.1 (Option.mem_toList.1 hm)
    cases (hok hscope jti hjti).symm.trans hm
  · exact ⟨v, hv⟩

theorem learns_authTicket (u : Upgrade) : Learns a (.opened sock) (authTicket u)
    fun r => r.elim (.opened sock) (.entitled sock) := by
  rw [authTicket]
  cases u.ticket with
  | none => exact Triple.pure fun i s h hk => hk
  | some t =>
    refine learns_verifyTicket.bind fun r => ?_
    by_cases hscope : t.scope = some .ws
    · rw [if_pos hscope]
      refine .ite (fun _ => ?_) fun _ => .ite (fun hne => absurd hscope hne) fun _ => ?_
      · exact Triple.pure fun i s h hk => opened_of_undenied hk
      · refine learns_isUserDeviceSessionValid.bind fun valid =>
          .ite (fun hvalid => ?_) fun hvalid => ?_
        · rw [if_neg (by simpa using hvalid)]
          exact Triple.pure fun i s h hk => hk
        · rw [if_pos (by simpa using hvalid)]
          refine (learns_quiet ⟨by simp, by simp, fun _ _ _ _ => ⟨rfl, rfl⟩⟩ _).bind fun _ =>
            .ite (fun _ => ?_) fun _ => ?_
          · exact Triple.pure fun i s h hk => opened_of_valid hk
          · exact Triple.pure fun i s h hk => ⟨t, rfl, hk⟩
    · rw [if_neg hscope]
      refine .ite (fun _ => ?_) fun _ => .ite (fun _ => ?_) fun heq => absurd (not_not.1 heq) hscope
      · exact Triple.pure fun i s h hk => hk
      · exact Triple.pure fun i s h hk => hk

/-- The token is read as it was verified. -/
theorem learns_readToken : Learns a (.valid sock t) (command (.readToken t))
    fun r => .entitled sock (if r then t.session else ⟨t.sub, none, none⟩) := by
  refine .request (fun i s h _ => trivial) fun p i prog hok hs hk => ?_
  have hk' : knows (.valid sock t) i a _ (p.2.record p.1.store i (.readToken t)) :=
    knows_keep hs (by simp) (by simp) rfl rfl _ a hk
  refine ⟨t, ?_, hk'⟩
  rw [show (realtime.answer p.1.store (.readToken t)).1 = true from hok, if_pos rfl]

theorem learns_resolveWsUser (u : Upgrade) : Learns a (.opened sock) (resolveWsUser u)
    fun r => r.elim (.opened sock) (.entitled sock) := by
  refine (learns_getAuthUser u).bind fun r => ?_
  cases r with
  | none => exact learns_authTicket u
  | some t =>
    refine learns_readToken.bind fun r => .ite (fun hr => ?_) fun hr => ?_
    · rw [if_pos hr]
      exact Triple.pure fun i s h hk => hk
    · rw [if_neg hr]
      exact Triple.pure fun i s h hk => hk

theorem learns_connect : Learns a .nothing (command (.connect sock))
    fun r => if r then .opened sock else .nothing := by
  refine .request (fun i s h _ => trivial) fun p i prog _ hs _ => ?_
  split_ifs with hr
  · have hnew : p.1.store.sockets.has sock = false := by
      simpa using show (!p.1.store.sockets.has sock) = true from hr
    exact ⟨_, seen_connect hnew, rfl, rfl, rfl⟩
  · trivial

theorem learns_authenticate : Learns a (.entitled sock session)
    (command (.authenticate sock session)) fun _ => .nothing :=
  .request (fun _ _ _ hk => hk) fun _ _ _ _ _ _ => trivial

/-- A request that knows nothing goes on, unless it is to guarantee something. -/
theorem learns_nothing {q : Command} (hq : (∀ sock session, q ≠ .authenticate sock session) ∧
    ∀ sock, q ≠ .dispatch sock) : Learns a .nothing (command q) fun _ => .nothing := by
  refine .request (fun i s h _ => ?_) fun _ _ _ _ _ _ => trivial
  cases q with
  | authenticate sock session => exact absurd rfl (hq.1 sock session)
  | dispatch sock => exact absurd rfl (hq.2 sock)
  | _ => trivial

theorem learns_upgrade (u : Upgrade) : Learns a .nothing (upgrade sock u) fun _ => .nothing := by
  refine learns_connect.bind fun r => .ite (fun _ => ?_) fun hr => ?_
  · exact Triple.pure fun i s h _ => trivial
  · rw [if_pos (by simpa using hr)]
    refine (learns_resolveWsUser u).bind fun r => ?_
    cases r with
    | none =>
      refine (learns_quiet ⟨by simp, by simp, fun _ _ _ _ => ⟨rfl, rfl⟩⟩ _).bind fun _ => ?_
      exact Triple.pure fun i s h _ => trivial
    | some session =>
      refine learns_authenticate.bind fun _ => ?_
      refine (learns_nothing ⟨by simp, by simp⟩).bind fun _ => ?_
      refine (learns_nothing ⟨by simp, by simp⟩).bind fun _ => ?_
      refine (learns_nothing ⟨by simp, by simp⟩).bind fun _ => ?_
      exact Triple.pure fun i s h _ => trivial

/-! ### Frames -/

theorem learns_stillUndenied : Learns a (.handled sock session) (sessionDenied session.jti)
    fun r => if r = some false then .stillUndenied sock session else .nothing := by
  cases hjti : session.jti with
  | none =>
    refine Triple.pure fun i s h hk => ?_
    rw [if_pos rfl]
    have hnone : h.denied session = none := by rw [Watch.denied, hjti, Option.bind_none]
    change Covered i sock session (h.denied session).toList s h
    rw [hnone]
    exact hk
  | some jti =>
    refine .request (fun i s h _ => trivial) fun p i prog hok hs hk => ?_
    split_ifs with hr
    · refine Covered.keep hk hs (by simp) rfl fun m hm => ?_
      obtain ⟨jti', hjti', hm⟩ := Option.bind_eq_some_iff.1 (Option.mem_toList.1 hm)
      cases hjti.symm.trans hjti'
      exact absurd hm (not_deniedAt hok hr)
    · trivial

theorem learns_stillValid : Learns a (.stillUndenied sock session)
    (isUserDeviceSessionValid session.user session.deviceId)
    fun r => if r then .stillValid sock session else .nothing := by
  cases hd : session.deviceId with
  | none =>
    refine Triple.pure fun i s h hk => ?_
    rw [if_pos rfl]
    have hsame : h.since session = (h.denied session).toList := by
      rw [Watch.since, Watch.revoked, hd, Option.bind_none, Option.toList_none, List.append_nil]
    change Covered i sock session (h.since session) s h
    rw [hsame]
    exact hk
  | some d =>
    refine .request (fun i s h _ => trivial) fun p i prog _ hs hk => ?_
    split_ifs with hr
    · refine Covered.keep hk hs (by simp) rfl fun m hm => ?_
      rcases mem_since.1 hm with hm | hm
      · exact (denied_record hm).imp_left Option.mem_toList.2
      · obtain ⟨d', hd', hm⟩ := Option.bind_eq_some_iff.1 hm
        cases hd.symm.trans hd'
        exact absurd hm (not_revokedAt hs hr)
    · trivial

theorem learns_revalidate : Learns a (.handled sock session) (revalidate sock session)
    fun r => r.elim (.stillValid sock session) fun _ => .nothing := by
  refine learns_stillUndenied.bind fun r => ?_
  rcases r with _ | _ | _
  · exact Triple.pure fun i s h _ => trivial
  · refine learns_stillValid.bind fun valid => .ite (fun hvalid => ?_) fun hvalid => ?_
    · rw [if_neg (by simpa using hvalid)]
      refine (learns_nothing ⟨by simp, by simp⟩).bind fun _ => ?_
      exact Triple.pure fun i s h _ => trivial
    · rw [if_pos (by simpa using hvalid)]
      exact Triple.pure fun i s h hk => hk
  · refine (learns_nothing ⟨by simp, by simp⟩).bind fun _ => ?_
    exact Triple.pure fun i s h _ => trivial

theorem handled_of_stillValid {i : ℕ} {s : Store} {h : Watch}
    (hk : knows (.stillValid sock session) i a s h) : knows (.handled sock session) i a s h := by
  obtain ⟨hsession, r, hr, hle, hrest⟩ := hk
  refine ⟨hsession, r, hr, hle, ?_⟩
  cases hb : h.begun.get? i with
  | none =>
    rw [hb] at hrest
    exact hrest
  | some t =>
    rw [hb] at hrest
    exact ⟨hrest.1, hrest.2.1, fun m hm => absurd hm List.not_mem_nil⟩

/-- A session is revalidated where it has to be. -/
theorem learns_revalidateIf {revalidates : Bool} {k : Knowledge}
    (hk : ∀ i s h, knows k i a s h →
      knows (if revalidates then .handled sock session else .stillValid sock session) i a s h) :
    Learns a k (if revalidates then revalidate sock session else pure none)
      fun r => r.elim (.stillValid sock session) fun _ => .nothing := by
  refine .ite (fun h => ?_) fun h => ?_
  · rw [if_pos h] at hk
    exact learns_revalidate.imp hk fun _ _ _ _ hr => hr
  · rw [if_neg h] at hk
    exact Triple.pure hk

theorem learns_dispatch :
    Learns a (.stillValid sock session) (command (.dispatch sock)) fun _ => .nothing :=
  .request (fun _ _ _ hk => ⟨session, hk⟩) fun _ _ _ _ _ _ => trivial

theorem learns_act (frame : Frame) :
    Learns a (.stillValid sock session) (act sock session frame) fun _ => .nothing := by
  refine (learns_revalidateIf fun i s h hk => ?_).bind fun r => ?_
  · split_ifs
    · exact handled_of_stillValid hk
    · exact hk
  · cases r with
    | some reply => exact Triple.pure fun i s h _ => trivial
    | none =>
      refine learns_dispatch.bind fun _ => ?_
      exact Triple.pure fun i s h _ => trivial

/-- What is known of a frame that is handled: either its revalidation begins, or the last one was
    a short while ago. -/
theorem learns_handleMessage (frame : Frame) :
    Learns a .received (command (.handleMessage sock frame)) fun
      | .handled session true => .handled sock session
      | .handled session false => .stillValid sock session
      | _ => .nothing := by
  refine .request (fun i s h _ => trivial) fun p i prog hok hs hk => ?_
  obtain ⟨r, hr, hle⟩ := hk
  have hbegun : ∀ {session revalidates}, (p.1.store.answer (.handleMessage sock frame)).1 =
      .handled session revalidates →
      (p.2.record p.1.store i (.handleMessage sock frame)).begun.get? i =
        if revalidates then some p.1.store.now else none := by
    intro session revalidates hhandled
    rw [Watch.record]
    dsimp only
    rw [hhandled]
    cases revalidates with
    | true => exact InsMap.get?_set_self _ _ _
    | false => exact InsMap.get?_delete_self _ _
  have hvisit : ∀ {x session}, p.1.store.sockets.get? sock = some x → x.authed = some session →
      ∃ v, p.2.visits.get? sock = some v ∧ v.session = some session := by
    intro x session hx hsession
    obtain ⟨v, hv, hauthed, -⟩ := hs.sockets sock x hx
    exact ⟨v, hv, hauthed session hsession⟩
  change knows (match (p.1.store.answer (.handleMessage sock frame)).1 with
    | .handled session true => .handled sock session
    | .handled session false => .stillValid sock session
    | _ => .nothing) i a (p.1.store.answer (.handleMessage sock frame)).2
    (p.2.record p.1.store i (.handleMessage sock frame))
  rcases p.1.store.handleMessage_cases sock frame with hanswer | ⟨x, session, hx, hauthed,
    hanswer | hanswer | ⟨-, hanswer⟩ | ⟨haccepted, hlt, hanswer⟩⟩
  · rw [hanswer]
    trivial
  · rw [hanswer]
    trivial
  · rw [hanswer]
    trivial
  · obtain ⟨v, hv, hsession⟩ := hvisit hx hauthed
    have hb := hbegun (congrArg Prod.fst hanswer)
    have hkept := session_keep (i := i) (q := .handleMessage sock frame)
      (Option.bind_eq_some_iff.2 ⟨v, hv, hsession⟩) hs (by simp)
    rw [hanswer]
    refine ⟨hkept, r, hr, hle, ?_⟩
    rw [hb]
    exact ⟨hle, Nat.le_refl _, fun m hm => absurd hm List.not_mem_nil⟩
  · obtain ⟨v, hv, hsession⟩ := hvisit hx hauthed
    have hb := hbegun (congrArg Prod.fst hanswer)
    have hkept := session_keep (i := i) (q := .handleMessage sock frame)
      (Option.bind_eq_some_iff.2 ⟨v, hv, hsession⟩) hs (by simp)
    rw [hanswer]
    refine ⟨hkept, r, hr, hle, ?_⟩
    rw [hb]
    intro m hm
    obtain ⟨-, -, -, -, hsince⟩ := hs.visits sock v hv
    have hchecked := hsince session hsession m hm
    have hlast := hok haccepted x hx v hv
    omega

theorem learns_message (frame : Frame) :
    Learns a .received (message sock frame) fun _ => .nothing := by
  refine (learns_handleMessage frame).bind fun r => ?_
  rcases r with _ | _ | ⟨session, revalidates⟩
  · exact Triple.pure fun i s h _ => trivial
  · exact Triple.pure fun i s h _ => trivial
  · refine (learns_revalidateIf fun i s h hk => ?_).bind fun r => ?_
    · cases revalidates <;> exact hk
    · cases r with
      | some reply => exact Triple.pure fun i s h _ => trivial
      | none => exact learns_act frame

/-- What a request knows when it is received. -/
def Request.knowledge : Request → Knowledge
  | .message _ _ => .received
  | _ => .nothing

theorem learns_handle (a : Request) : Learns a a.knowledge (handle a) fun _ => .nothing := by
  have hlast : ∀ {q : Command}, ((∀ sock session, q ≠ .authenticate sock session) ∧
      ∀ sock, q ≠ .dispatch sock) →
      Learns a .nothing (do let _ ← command q; return Reply.done) fun _ => .nothing :=
    fun hq => (learns_nothing hq).bind fun _ => Triple.pure fun _ _ _ _ => trivial
  cases a with
  | upgrade sock u => exact learns_upgrade u
  | message sock frame => exact learns_message frame
  | logout t =>
    refine (learns_nothing ⟨by simp, by simp⟩).bind fun r => .ite (fun _ => ?_) fun _ => ?_
    · exact Triple.pure fun i s h _ => trivial
    · cases t.jti with
      | none => exact Triple.pure fun i s h _ => trivial
      | some jti => exact hlast ⟨by simp, by simp⟩
  | revokeDevice user d =>
    refine (learns_nothing ⟨by simp, by simp⟩).bind fun _ => ?_
    refine (learns_nothing ⟨by simp, by simp⟩).bind fun _ => ?_
    exact hlast ⟨by simp, by simp⟩
  | reauthorizeDevice | sendToUser | disconnect | setRedis | elapse =>
    exact hlast ⟨by simp, by simp⟩

end

/-! ## Every run -/

theorem Sound.start {s : Store} (hs : s.IsInitial) : Sound s watching.start where
  denied _ _ hm := by cases hm
  revoked _ _ hm := by cases hm
  visits _ _ hv := by cases hv
  sockets sock x hx := by
    rw [hs] at hx
    cases hx
  acted _ he := by cases he
  delivered _ he := by cases he
  authenticated _ he := by cases he

/-- What is known of the sockets says nothing of the requests that are received. -/
theorem Sound.receive {p : State × Watch} {a : Request} (hs : Sound p.1.store p.2) :
    Sound p.1.store (watching.receive p.1 a p.2) :=
  ⟨hs.denied, hs.revoked, hs.visits, hs.sockets, hs.acted, hs.delivered, hs.authenticated⟩

theorem knows_receive {p : State × Watch} {a b : Request} {k : Knowledge} {j : ℕ}
    (hj : j < p.1.received) (hk : knows k j b p.1.store p.2) :
    knows k j b p.1.store (watching.receive p.1 a p.2) := by
  have hsame : (watching.receive p.1 a p.2).receivedAt.get? j = p.2.receivedAt.get? j :=
    InsMap.get?_set_ne _ _ (Nat.ne_of_lt hj)
  have hopened : ∀ {sock v}, Opened j sock p.2 v → Opened j sock (watching.receive p.1 a p.2) v :=
    fun hv => ⟨hv.visit, hv.owner, hv.session, hv.checked⟩
  have hcovered : ∀ {sock session ms}, Covered j sock session ms p.1.store p.2 →
      Covered j sock session ms p.1.store (watching.receive p.1 a p.2) := by
    rintro sock session ms ⟨hsession, r, hr, hrest⟩
    exact ⟨hsession, r, hsame.trans hr, hrest⟩
  cases k with
  | nothing => trivial
  | received =>
    obtain ⟨r, hr, hle⟩ := hk
    exact ⟨r, hsame.trans hr, hle⟩
  | opened =>
    obtain ⟨v, hv⟩ := hk
    exact ⟨v, hopened hv⟩
  | verified =>
    obtain ⟨ht, v, hv⟩ := hk
    exact ⟨ht, v, hopened hv⟩
  | undenied | valid =>
    obtain ⟨ht, v, hv, hbefore⟩ := hk
    exact ⟨ht, v, hopened hv, hbefore⟩
  | entitled =>
    obtain ⟨t, heq, ht, v, hv, hbefore⟩ := hk
    exact ⟨t, heq, ht, v, hopened hv, hbefore⟩
  | handled | stillUndenied | stillValid => exact hcovered hk

theorem sound {p : State × Watch} (hp : watched.Reachable p) : Sound p.1.store p.2 := by
  refine Service.knowledge Sound guarantee knows (fun _ => Sound.start) (fun p a _ hs => ?_)
    (fun _ _ _ _ _ _ _ hj hk => knows_receive hj hk)
    (fun _ _ _ _ _ hok hs hg => hs.record hok hg)
    (fun _ _ _ _ _ _ hs hg k _ b hji _ hk => knows_other hs hg k b hji hk) hp
  refine ⟨hs.receive, (learns_handle a).sure ?_⟩
  cases a with
  | message sock frame => exact ⟨_, InsMap.get?_set_self _ _ _, Nat.le_refl _⟩
  | _ => trivial

namespace Sample

def store : Store := ⟨∅, ∅, ⟨[(5, ⟨1, false⟩)], by decide⟩, ∅, true, 0⟩

def token : Token := ⟨1, none, some 5, some 3, 86400⟩

def frame : Frame := ⟨.accepted, false⟩

/-- A socket that is authenticated by its cookie. -/
def connected : List (Event Request) :=
  whole 0 (.upgrade 0 ⟨some token, none, false, some false, none⟩) 12

def start : State × Watch := (.start store, watching.start)

/-- Its client sends nothing, logs out elsewhere, and gets an event a minute later. -/
def idle : List (Event Request) :=
  connected ++ whole 1 (.logout token) 2 ++ whole 2 (.elapse 60000) 1 ++ whole 3 (.sendToUser 1) 1

end Sample

end OneToThree.WsSession
