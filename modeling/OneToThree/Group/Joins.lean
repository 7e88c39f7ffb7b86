import OneToThree.Group.Departures
import OneToThree.Group.LateUploads

/-!
# The keys of those who join

A user who joins moves the epoch of the chat, so that the owner mints a key for them.
The owner's clients also hand out the key that they have, to members without one, if it is
the key of the epoch that the chat's details show. But the details are read in several
statements: the epoch may be from before a join, and the members from after it
(`late_details`). And an upload for a member may arrive when this member has left and
joined again.

`keys_of_run`: along a run in which nobody is written a key by a client that has last heard
of an epoch from before they joined (`informed`), no member ever has a key of an epoch from
before they joined, nor a key that anybody had by then.

The joins, and what the clients have heard, are the history of the run (`JoinHistory`).
-/

namespace OneToThree.Group

/-! ## What a client hears -/

/-- The latest epoch that the details show: that of the chat, or of the user's own key. -/
def ChatDetailPayload.shows (detail : ChatDetailPayload) (userId : UserId) : ℕ :=
  max (detail.key_epoch.getD 0)
    (((findMember detail userId).bind MemberPayload.encrypted_group_key).elim 0
      SectorKeyAuthWrap.stamp)

/-- The latest epoch that a client of the user has heard of, after a response: the details of
    the chat show it, and so does a claim that has succeeded. -/
def Request.tells (userId : UserId) (heard : ℕ) : (r : Request) → r.Reply → ℕ
  | .getChat, .ok detail => detail.shows userId
  | .putWrappedKey _ _ (some claim), .ok keyEpoch => keyEpoch.getD (claim + 1)
  | _, _ => heard

def Call.tells (userId : UserId) (heard : ℕ) : (q : Call) → q.Answer → ℕ
  | .server r, response => r.tells userId heard response
  | _, _ => heard

/-- The epoch that a request goes by: the one that it claims from, or else the latest one
    that its client has heard of. -/
def Request.goesBy (heard : ℕ) : Request → ℕ
  | .putWrappedKey _ _ (some claim) => claim
  | _ => heard

/-- An upload is not stamped with an epoch before the one it goes by. -/
def Call.UpToDate (heard : ℕ) : Call → Prop
  | .server (.putWrappedKey userId wrap claim) =>
    (Request.putWrappedKey userId wrap claim).goesBy heard ≤ wrap.stamp
  | _ => True

/-- A client whose uploads are all up to date, whatever it is answered. -/
abbrev Heeding {α : Type} (userId : UserId) (p : Client α) (heard : ℕ) : Prop :=
  p.Heeds Call.UpToDate (Call.tells userId) heard

section
variable {me : Session} {heard : ℕ}

theorem rotateLoop_heeds {epoch : ℕ} {myPubJwk : Jwk} {newKey : GroupKey}
    {members : List MemberPayload} {settled : Option ℕ} {delivered : ℕ}
    (h : ∀ e ∈ settled, heard = e) :
    Heeding me.myUserId (rotateLoop me epoch myPubJwk newKey members settled delivered) heard := by
  induction members generalizing settled delivered heard with
  | nil =>
    unfold rotateLoop
    split_ifs <;> trivial
  | cons m members ih =>
    unfold rotateLoop
    cases m.ecdh_public_key_jwk with
    | none => exact ih h
    | some jwk =>
      refine ⟨trivial, fun trusted => ?_⟩
      cases trusted with
      | false => exact ih h
      | true =>
        cases settled with
        | some e =>
          obtain rfl := h e rfl
          refine ⟨Nat.le_refl heard, fun result => ?_⟩
          rcases result with error | _
          · cases error with
            | keyEpochStale => trivial
            | _ => exact ih h
          · exact ih fun e he => Option.some.inj he
        | none =>
          -- The claim tells the epoch that the later uploads are stamped with.
          refine ⟨Nat.le_succ epoch, fun result => ?_⟩
          rcases result with error | _
          · cases error with
            | keyEpochStale => trivial
            | _ => exact ih h
          · exact ih fun e he => Option.some.inj he

theorem runRotation_heeds {targetEpoch : ℕ} :
    Heeding me.myUserId (runRotation me targetEpoch) heard := by
  refine .request trivial fun result => ?_
  cases result with
  | error e => trivial
  | ok detail =>
    dsimp only
    split_ifs
    · trivial
    cases (findMember detail me.myUserId).bind MemberPayload.ecdh_public_key_jwk with
    | none => trivial
    | some myPubJwk =>
      refine .request trivial fun key => (rotateLoop_heeds ?_).bind fun _ _ => trivial
      exact fun e he => by cases he

theorem rotateGroupKeyIfStale_heeds : Heeding me.myUserId (rotateGroupKeyIfStale me) heard := by
  refine .request trivial fun result => ?_
  cases result with
  | error e => trivial
  | ok detail =>
    dsimp only
    split_ifs
    · trivial
    refine runRotation_heeds.bind fun _ result => ?_
    rcases result with e | (_ | _) <;> trivial

/-- What details show in which the own key is not behind the chat: the epoch of this key. -/
theorem shows_eq {detail : ChatDetailPayload} {userId : UserId} {m : MemberPayload}
    {myStored : SectorKeyAuthWrap} (hm : findMember detail userId = some m)
    (hstored : m.encrypted_group_key = some myStored)
    (hcurrent : ¬(readStoredSectorKeyEpoch myStored).getD 0 < detail.key_epoch.getD 0) :
    detail.shows userId = (readStoredSectorKeyEpoch myStored).getD 0 := by
  rw [ChatDetailPayload.shows, hm, Option.bind_some, hstored]
  exact Nat.max_eq_right (Nat.le_of_not_lt hcurrent)

theorem deliverGroupKeyToMember_heeds {target : UserId} :
    Heeding me.myUserId (deliverGroupKeyToMember me target) heard := by
  refine .request trivial fun result => ?_
  cases result with
  | error e => trivial
  | ok detail =>
    dsimp only
    split_ifs
    · trivial
    split
    · rename_i myId myPubJwk myStored _ targetId targetJwk _ hmine htarget
      refine .request trivial fun trusted => ?_
      cases trusted with
      | false => trivial
      | true =>
        simp only [Bool.not_true, Bool.false_eq_true, ↓reduceIte]
        split_ifs with hepoch
        · refine rotateGroupKeyIfStale_heeds.bind fun _ result => ?_
          cases result <;> trivial
        · cases unwrapOwn me myStored myPubJwk with
          | error e => trivial
          | ok groupKey =>
            refine .request (Nat.le_of_eq (shows_eq hmine rfl hepoch)) fun result => ?_
            cases result <;> trivial
    · trivial

theorem reconcileLoop_heeds {myStored : SectorKeyAuthWrap} {myPubJwk : Jwk} {myEpoch : ℕ}
    {members : List MemberPayload} {groupKey : Option GroupKey} {delivered : Bool}
    (h : heard ≤ myEpoch) :
    Heeding me.myUserId (reconcileLoop me myStored myPubJwk myEpoch members groupKey delivered)
      heard := by
  induction members generalizing groupKey delivered with
  | nil => trivial
  | cons m members ih =>
    unfold reconcileLoop
    split_ifs
    · exact ih
    cases m.ecdh_public_key_jwk with
    | none => exact ih
    | some jwk =>
      dsimp only
      split_ifs
      · exact ih
      refine .request trivial fun trusted => ?_
      cases trusted with
      | false => exact ih
      | true =>
        simp only [Bool.not_true, Bool.false_eq_true, ↓reduceIte]
        cases groupKey.elim (unwrapOwn me myStored myPubJwk) .ok with
        | error e => trivial
        | ok key =>
          refine .request h fun result => ?_
          cases result with
          | error e => trivial
          | ok _ => exact ih

theorem reconcileGroupKeysForChat_heeds :
    Heeding me.myUserId (reconcileGroupKeysForChat me) heard := by
  refine .request trivial fun result => ?_
  cases result with
  | error e => trivial
  | ok detail =>
    dsimp only
    split_ifs
    · trivial
    split
    · rename_i myId myPubJwk myStored _ hmine
      split_ifs with hepoch
      · refine rotateGroupKeyIfStale_heeds.bind fun _ result => ?_
        cases result <;> trivial
      · exact reconcileLoop_heeds (Nat.le_of_eq (shows_eq hmine rfl hepoch))
    · trivial

/-- No client uploads a key of an epoch before the latest one that it has heard of. -/
theorem job_heeds (me : Session) (job : Job) : Heeding me.myUserId (job.program me) heard := by
  cases job with
  | rotate targetEpoch => exact runRotation_heeds.bind fun _ _ => trivial
  | rotateIfStale => exact rotateGroupKeyIfStale_heeds.bind fun _ _ => trivial
  | deliver target => exact deliverGroupKeyToMember_heeds.bind fun _ _ => trivial
  | reconcile => exact reconcileGroupKeysForChat_heeds.bind fun _ _ => trivial

end

/-! ## The routes -/

/-- A wrap that is written is not stamped with an epoch before `N`. -/
def Statement.UpToDate (N : ℕ) : Statement → Prop
  | .writeKey _ wrap => N ≤ wrap.stamp
  | _ => True

section
variable {ecdh : UserId → Option Jwk} {user : UserId} {N : ℕ}

theorem putWrappedKey_along {target : UserId} {wrap : SectorKeyAuthWrap} {claim : Option ℕ}
    (h : N ≤ wrap.stamp) :
    (putWrappedKey user target wrap claim).Along fun q _ => q.UpToDate N := by
  refine .request trivial fun row => ?_
  cases row with
  | none => trivial
  | some epoch =>
    refine .request trivial fun actorRole => .ite (fun _ => trivial) fun _ => ?_
    refine .request trivial fun targetRole => ?_
    cases targetRole with
    | none => trivial
    | some targetRole =>
      cases claim with
      | none => exact .request h fun _ => trivial
      | some claim =>
        refine .request trivial fun claimed => ?_
        cases claimed with
        | none => trivial
        | some claimed => exact .request h fun _ => trivial

/-- A route writes what its request uploads, if anything. -/
theorem route_along {r : Request}
    (h : ∀ target wrap claim, r = .putWrappedKey target wrap claim → N ≤ wrap.stamp) :
    (r.route ecdh user).Along fun q _ => q.UpToDate N := by
  cases r with
  | putWrappedKey target wrap claim => exact putWrappedKey_along (h target wrap claim rfl)
  | getChat =>
    refine .request trivial fun role => ?_
    cases role with
    | none => trivial
    | some role =>
      refine .request trivial fun epoch => ?_
      cases epoch with
      | none => trivial
      | some epoch => exact .request trivial fun _ => trivial
  | joinChat =>
    refine .request trivial fun row => ?_
    cases row with
    | none => trivial
    | some epoch =>
      refine .request trivial fun role => .ite (fun _ => trivial) fun _ => ?_
      exact .request trivial fun _ => trivial
  | leaveChat =>
    have hleave : (query (.leave user) >>= fun wasMember =>
        if !wasMember then return .error .notAMember else return .ok () :
          Query (Except ApiError Unit)).Along fun q _ => q.UpToDate N :=
      .request trivial fun _ => .ite (fun _ => trivial) fun _ => trivial
    refine .request trivial fun row => ?_
    cases row with
    | none => trivial
    | some epoch =>
      refine .request trivial fun role => ?_
      cases role with
      | none => trivial
      | some role =>
        dsimp only
        split_ifs
        · exact .request trivial fun _ => .ite (fun _ => trivial) fun _ => hleave
        · exact hleave
  | kick target =>
    refine .request trivial fun row => ?_
    cases row with
    | none => trivial
    | some epoch =>
      refine .ite (fun _ => trivial) fun _ => ?_
      refine .request trivial fun actorRole => .request trivial fun targetRole => ?_
      rcases actorRole with _ | actorRole <;> rcases targetRole with _ | targetRole
      case some.some =>
        exact .ite (fun _ => trivial) fun _ => .request trivial fun _ => trivial
      all_goals trivial
  | patchRole target role =>
    refine .request trivial fun row => ?_
    cases row with
    | none => trivial
    | some epoch =>
      refine .request trivial fun actorRole => .request trivial fun targetRole => ?_
      rcases actorRole with _ | actorRole <;> rcases targetRole with _ | targetRole
      case some.some =>
        refine .ite (fun _ => trivial) fun _ => .ite (fun _ => trivial) fun _ => .ite (fun _ => ?_)
          fun _ => ?_
        · exact .ite (fun _ => trivial) fun _ => .request trivial fun _ => trivial
        · refine .ite (fun _ => trivial) fun _ => .ite (fun _ => trivial) fun _ => ?_
          exact .request trivial fun _ => trivial
      all_goals trivial

end

/-! ## The history -/

structure JoinHistory where
  /-- The epoch that the last join of a user has set. -/
  joined : UserId → ℕ
  /-- The latest epoch that a task has heard of. -/
  heard : ℕ → ℕ
  /-- The epoch that a request of a task goes by. -/
  goesBy : ℕ → ℕ

namespace JoinHistory

def start : JoinHistory := ⟨fun _ => 0, fun _ => 0, fun _ => 0⟩

def record (h : JoinHistory) (s : Accounts) (ev : AccountEvent) (s' : Accounts) : JoinHistory :=
  match ev with
  | .network (.serve i) =>
    match s.network.nextStatement i with
    | some (.insertMember userId) =>
      if !s.network.chat.members.has userId && s'.network.chat.members.has userId then
        { h with joined := Function.update h.joined userId s'.network.chat.keyEpoch }
      else h
    | _ => h
  | .network (.send i) =>
    match s.network.tasks[i]? with
    | some ⟨_, .ask (.server r) _, _, _⟩ =>
      { h with
        goesBy := Function.update h.goesBy s.network.handlings.length (r.goesBy (h.heard i)) }
    | _ => h
  | .network (.reply i) =>
    match s.network.handlings[i]? with
    | some handling =>
      match handling.program, handling.replyTo with
      | .done response, some (j, _) =>
        match s.network.tasks[j]? with
        | some task =>
          { h with
            heard := Function.update h.heard j
              (handling.request.tells task.user (h.heard j) response) }
        | none => h
      | _, _ => h
    | none => h
  | _ => h

end JoinHistory

/-- The machine of a group, with the history of the joins. -/
abbrev joins (ecdh : UserId → Option Jwk) : Machine (Accounts × JoinHistory) AccountEvent :=
  (accounts ecdh).withHistory .start .record

/-- Nobody is written a key by a client that has last heard of an epoch from before they
    joined. -/
def informed (p : Accounts × JoinHistory) : AccountEvent → Bool
  | .network (.serve i) =>
    match p.1.network.nextStatement i with
    | some (.writeKey userId _) =>
      !p.1.network.chat.members.has userId || p.2.joined userId ≤ p.2.goesBy i
    | _ => true
  | _ => true

/-- The machine whose uploads are all informed. -/
abbrev informedJoins (ecdh : UserId → Option Jwk) :
    Machine (Accounts × JoinHistory) AccountEvent :=
  (joins ecdh).restrict fun p ev => informed p ev

/-! ## The invariant -/

/-- The clients heed what they have heard, the requests write what they were sent with, and
    no row holds a key of an epoch from before its user joined. -/
structure JoinInv (n : Network) (h : JoinHistory) : Prop where
  tasks : ∀ i (task : Task), n.tasks[i]? = some task → Heeding task.user task.program (h.heard i)
  handlings : ∀ i (handling : Handling), n.handlings[i]? = some handling →
    handling.program.Along fun q _ => q.UpToDate (h.goesBy i)
  rows : ∀ u, ∀ wrap ∈ n.chat.row u, h.joined u ≤ wrap.stamp

/-- An element of a list after one was set. -/
theorem getElem?_set_cases {α : Type} {l : List α} {i j : ℕ} {x y : α}
    (h : (l.set j y)[i]? = some x) : (i = j ∧ x = y) ∨ (i ≠ j ∧ l[i]? = some x) := by
  rw [List.getElem?_set] at h
  split_ifs at h with hij
  · exact .inl ⟨hij.symm, (Option.some.inj h).symm⟩
  · exact .inr ⟨Ne.symm hij, h⟩

/-- An element of a list after one was appended. -/
theorem getElem?_append_cases {α : Type} {l : List α} {i : ℕ} {x y : α}
    (h : (l ++ [y])[i]? = some x) : (i = l.length ∧ x = y) ∨ (i ≠ l.length ∧ l[i]? = some x) := by
  rw [List.getElem?_append, List.getElem?_singleton] at h
  split_ifs at h with hi hzero
  · exact .inr ⟨Nat.ne_of_lt hi, h⟩
  · exact .inl ⟨by omega, (Option.some.inj h).symm⟩

namespace JoinInv

variable {ecdh : UserId → Option Jwk} {n n' : Network} {h : JoinHistory}

/-- A task goes on, having heard of the epoch `e`. -/
theorem setTask (hinv : JoinInv n h) {i e : ℕ} {task : Task}
    (htask : Heeding task.user task.program e) :
    JoinInv { n with tasks := n.tasks.set i task }
      { h with heard := Function.update h.heard i e } where
  tasks j task' hj := by
    rcases getElem?_set_cases hj with ⟨rfl, rfl⟩ | ⟨hne, hj⟩
    · dsimp only
      rw [Function.update_self]
      exact htask
    · dsimp only
      rw [Function.update_of_ne hne]
      exact hinv.tasks j task' hj
  handlings := hinv.handlings
  rows := hinv.rows

/-- A task goes on, having heard nothing new. -/
theorem setTask_same (hinv : JoinInv n h) {i : ℕ} {task : Task}
    (htask : Heeding task.user task.program (h.heard i)) :
    JoinInv { n with tasks := n.tasks.set i task } h := by
  have hset : JoinInv { n with tasks := n.tasks.set i task }
      { h with heard := Function.update h.heard i (h.heard i) } := hinv.setTask htask
  rwa [Function.update_eq_self] at hset

/-- A request that goes by the epoch `e` reaches the server. -/
theorem submit (hinv : JoinInv n h) {user : UserId} {r : Request} {replyTo : Option (ℕ × ℕ)}
    {e : ℕ} (hr : ∀ target wrap claim, r = .putWrappedKey target wrap claim → e ≤ wrap.stamp) :
    JoinInv (n.submit ecdh user r replyTo)
      { h with goesBy := Function.update h.goesBy n.handlings.length e } where
  tasks := hinv.tasks
  handlings i handling hi := by
    rcases getElem?_append_cases hi with ⟨rfl, rfl⟩ | ⟨hne, hi⟩
    · dsimp only
      rw [Function.update_self]
      exact route_along hr
    · dsimp only
      rw [Function.update_of_ne hne]
      exact hinv.handlings i handling hi
  rows := hinv.rows

/-- A request that uploads nothing reaches the server. -/
theorem submit_membership (hinv : JoinInv n h) {user : UserId} {r : Request}
    {replyTo : Option (ℕ × ℕ)} (hr : r.IsMembership) :
    JoinInv (n.submit ecdh user r replyTo) h := by
  have hsubmit : JoinInv (n.submit ecdh user r replyTo) { h with
      goesBy := Function.update h.goesBy n.handlings.length (h.goesBy n.handlings.length) } :=
    hinv.submit fun _ _ _ hput => by
      rw [hput] at hr
      cases hr
  rwa [Function.update_eq_self] at hsubmit

/-- Rows may go at any time. -/
theorem kept (hinv : JoinInv n h) {chat : Chat} (hkept : n.chat.Kept chat) :
    JoinInv { n with chat } h where
  tasks := hinv.tasks
  handlings := hinv.handlings
  rows u wrap hwrap := by
    rcases hkept.row u with hrow | hrow <;> rw [hrow] at hwrap
    · exact hinv.rows u wrap hwrap
    · cases hwrap

/-- A request goes on, after a statement that leaves no row from before its user joined. -/
theorem serve (hinv : JoinInv n h) {i : ℕ} {handling : Handling} {q : Statement}
    {next : q.Result → Query handling.request.Reply} (hi : n.handlings[i]? = some handling)
    (hprogram : handling.program = .ask q next) {joined : UserId → ℕ}
    (hrows : ∀ u, ∀ wrap ∈ (q.exec n.chat).2.row u, joined u ≤ wrap.stamp) :
    JoinInv { n with
        chat := (q.exec n.chat).2
        handlings := n.handlings.set i { handling with program := next (q.exec n.chat).1 } }
      { h with joined } where
  tasks := hinv.tasks
  handlings j handling' hj := by
    rcases getElem?_set_cases hj with ⟨rfl, rfl⟩ | ⟨-, hj⟩
    · have hprog := hinv.handlings j handling hi
      rw [hprogram] at hprog
      exact hprog.2 _
    · exact hinv.handlings j handling' hj
  rows := hrows

/-- A statement of an informed step leaves no row from before its user joined. -/
theorem rows_serve {s : Accounts} (hinv : JoinInv s.network h) (s' : Accounts) {i : ℕ} {handling : Handling}
    {q : Statement} {next : q.Result → Query handling.request.Reply}
    (hi : s.network.handlings[i]? = some handling) (hprogram : handling.program = .ask q next)
    (hok : informed (s, h) (.network (.serve i)))
    (hchat : s'.network.chat = (q.exec s.network.chat).2) (u : UserId)
    (wrap : SectorKeyAuthWrap) (hwrap : wrap ∈ s'.network.chat.row u) :
    (h.record s (.network (.serve i)) s').joined u ≤ wrap.stamp := by
  have hnext : s.network.nextStatement i = some q := by
    simp [Network.nextStatement, hi, hprogram]
  have hkeep : q.IsPlain → wrap ∈ s.network.chat.row u := fun hplain => by
    rw [hchat] at hwrap
    rcases (exec_kept s.network.chat hplain).row u with hrow | hrow <;> rw [hrow] at hwrap
    · exact hwrap
    · cases hwrap
  cases q with
  | insertMember userId =>
    have hrow := hkeep trivial
    simp only [JoinHistory.record, hnext]
    split_ifs with hjoins
    · dsimp only
      by_cases hu : u = userId
      · -- Who joins has no row before.
        have hnone : s.network.chat.members.has userId = false := by
          simp only [Bool.and_eq_true, Bool.not_eq_true'] at hjoins
          exact hjoins.1
        rw [hu, Chat.row, InsMap.has_eq_false.1 hnone] at hrow
        cases hrow
      · rw [Function.update_of_ne hu]
        exact hinv.rows u wrap hrow
    · exact hinv.rows u wrap hrow
  | writeKey userId wrap' =>
    simp only [JoinHistory.record, hnext]
    rw [hchat, Statement.exec, Chat.row_write] at hwrap
    split_ifs at hwrap with hmember
    · obtain rfl := Option.some.inj hwrap
      obtain ⟨rfl, hmember⟩ := hmember
      have hgoesBy := hinv.handlings i handling hi
      rw [hprogram] at hgoesBy
      simp only [informed, hnext, hmember, Bool.not_true, Bool.false_or, decide_eq_true_eq] at hok
      exact Nat.le_trans hok hgoesBy.1
    · exact hinv.rows u wrap hwrap
  | claimEpoch claim =>
    simp only [JoinHistory.record, hnext]
    rw [hchat, Statement.exec] at hwrap
    split_ifs at hwrap <;> exact hinv.rows u wrap hwrap
  | memberRole | chatRow | roster | removeMember | leaveAsOwner | leave | setRole |
    transferOwnership =>
    simp only [JoinHistory.record, hnext]
    exact hinv.rows u wrap (hkeep trivial)

theorem tells_lost (userId : UserId) (heard : ℕ) (r : Request) :
    r.tells userId heard r.lost = heard := by
  cases r with
  | putWrappedKey _ _ claim => cases claim <;> rfl
  | _ => rfl

/-- Every informed step keeps the invariant. -/
theorem step_network {s s' : Accounts} {ev : NetworkEvent} (hinv : JoinInv s.network h)
    (hok : informed (s, h) (.network ev)) (hs : (group ecdh).step s.network ev = some s'.network) :
    JoinInv s'.network (h.record s (.network ev) s') := by
  generalize hn : s'.network = n at hs
  cases ev with
  | request user r =>
    simp only [group] at hs
    split_ifs at hs with hr
    obtain rfl := Option.some.inj hs
    exact hinv.submit_membership hr
  | start user job =>
    simp only [group] at hs
    cases hjwk : ecdh user with
    | none => simp [hjwk] at hs
    | some jwk =>
      rw [hjwk] at hs
      obtain rfl := Option.some.inj hs
      refine ⟨fun i task hi => ?_, hinv.handlings, hinv.rows⟩
      rcases getElem?_append_cases hi with ⟨-, rfl⟩ | ⟨-, hi⟩
      · exact job_heeds ⟨_, user, jwk⟩ job
      · exact hinv.tasks i task hi
  | send i =>
    simp only [group] at hs
    split at hs <;> try cases hs
    rename_i task hi
    obtain ⟨user, program, sent, pending⟩ := task
    split at hs <;> cases hs
    rename_i r next hprogram _
    obtain rfl : program = .ask (.server r) next := hprogram
    have htask := hinv.tasks i _ hi
    have hsubmit : JoinInv (s.network.submit ecdh user r (some (i, sent + 1))) { h with
        goesBy := Function.update h.goesBy s.network.handlings.length (r.goesBy (h.heard i)) } :=
      hinv.submit fun _ _ _ hput => by
        subst hput
        exact htask.1
    simp only [JoinHistory.record, hi]
    exact hsubmit.setTask_same htask
  | trust i trusted =>
    simp only [group] at hs
    split at hs <;> try cases hs
    rename_i task hi
    split at hs <;> cases hs
    rename_i u jwk next hprogram
    have htask := hinv.tasks i task hi
    rw [hprogram] at htask
    exact hinv.setTask_same (htask.2 trusted)
  | generate i =>
    simp only [group] at hs
    split at hs <;> try cases hs
    rename_i task hi
    split at hs <;> cases hs
    rename_i next hprogram
    have htask := hinv.tasks i task hi
    rw [hprogram] at htask
    have hset : JoinInv (s.network.resume i task (next s.network.nextKey)) h :=
      hinv.setTask_same (htask.2 s.network.nextKey)
    exact ⟨hset.tasks, hset.handlings, hset.rows⟩
  | serve i =>
    simp only [group] at hs
    split at hs <;> try cases hs
    rename_i handling hi
    split at hs <;> cases hs
    rename_i q next hprogram
    have hrows := hinv.rows_serve s' hi hprogram hok (by rw [hn])
    rw [hn] at hrows
    have hserve := hinv.serve hi hprogram hrows
    have hrecord : h.record s (.network (.serve i)) s' =
        { h with joined := (h.record s (.network (.serve i)) s').joined } := by
      simp only [JoinHistory.record]
      split
      · split_ifs <;> rfl
      · rfl
    rw [hrecord]
    exact hserve
  | reply i =>
    simp only [group] at hs
    split at hs <;> try cases hs
    rename_i handling hi
    split at hs <;> try cases hs
    rename_i response j number hdone hreplyTo
    split at hs <;> try cases hs
    rename_i task hj
    split at hs <;> try cases hs
    rename_i r next hprogram
    split_ifs at hs with hr
    cases hs
    have htask := hinv.tasks j task hj
    rw [hprogram] at htask
    subst hr
    simp only [JoinHistory.record, hi, hdone, hreplyTo, hj]
    have hset : JoinInv (s.network.resume j task (next response)) { h with
        heard := Function.update h.heard j
          (handling.request.tells task.user (h.heard j) response) } :=
      hinv.setTask (htask.2 response)
    exact hset
  | fail i =>
    simp only [group] at hs
    split at hs <;> try cases hs
    rename_i task hi
    split at hs <;> cases hs
    rename_i r next hprogram _
    have htask := hinv.tasks i task hi
    rw [hprogram] at htask
    have hlost := htask.2 r.lost
    rw [Call.tells, tells_lost] at hlost
    exact hinv.setTask_same hlost

theorem step {p p' : Accounts × JoinHistory} {ev : AccountEvent} (hinv : JoinInv p.1.network p.2)
    (hs : (informedJoins ecdh).step p ev = some p') : JoinInv p'.1.network p'.2 := by
  obtain ⟨hok, hs⟩ := Machine.restrict_step.1 hs
  obtain ⟨hs, hrecord⟩ := Machine.withHistory_step.1 hs
  rw [← hrecord]
  cases ev with
  | network ev =>
    obtain ⟨-, network, hgroup, hp'⟩ := accounts_network.1 hs
    exact hinv.step_network hok (by rw [hgroup, ← hp'])
  | request r =>
    obtain hp' := Option.some.inj hs
    rw [← hp']
    exact hinv
  | serve i =>
    obtain ⟨q, -, hnetwork⟩ := accounts_serve hs
    rw [hnetwork]
    exact hinv.kept q.exec_kept

end JoinInv

theorem joinInv {ecdh : UserId → Option Jwk} {p : Accounts × JoinHistory}
    (hp : (informedJoins ecdh).Reachable p) : JoinInv p.1.network p.2 := by
  refine hp.invariant (I := fun p => JoinInv p.1.network p.2) (fun p hinit => ?_)
    fun _ _ _ _ hinv hstep => hinv.step hstep
  obtain ⟨⟨⟨id, creator, creatorJwk, ids, hnodup, -, -, -, hnetwork⟩, -⟩, hhistory⟩ := hinit
  rw [hnetwork, hhistory]
  refine ⟨fun i _ hi => ?_, fun i _ hi => ?_, fun _ _ _ => Nat.zero_le _⟩ <;> cases hi

/-! ## Runs -/

section
variable {ecdh : UserId → Option Jwk}

theorem JoinHistory.joined_record (h : JoinHistory) (s s' : Accounts) (ev : AccountEvent)
    (u : UserId) : (h.record s ev s').joined u = h.joined u ∨
      (h.record s ev s').joined u = s'.network.chat.keyEpoch := by
  simp only [record]
  split
  · split
    · rename_i userId _
      split_ifs
      · by_cases hu : u = userId
        · rw [hu]
          exact .inr (Function.update_self ..)
        · exact .inl (Function.update_of_ne hu ..)
      · exact .inl rfl
    · exact .inl rfl
  all_goals
    repeat' split
    all_goals exact .inl rfl

/-- A user whose last join has set the epoch `N`, or a later one. -/
structure JoinedFrom (N : ℕ) (u : UserId) (p : Accounts × JoinHistory) : Prop where
  joined : N ≤ p.2.joined u
  keyEpoch : N ≤ p.1.network.chat.keyEpoch

theorem JoinedFrom.step {N : ℕ} {u : UserId} {p p' : Accounts × JoinHistory} {ev : AccountEvent}
    (h : JoinedFrom N u p) (hs : (joins ecdh).step p ev = some p') : JoinedFrom N u p' := by
  obtain ⟨hs, hrecord⟩ := Machine.withHistory_step.1 hs
  have hepoch := Nat.le_trans h.keyEpoch (Accounts.advances hs).keyEpoch
  refine ⟨?_, hepoch⟩
  rw [← hrecord]
  rcases p.2.joined_record p.1 p'.1 ev u with hjoined | hjoined <;> rw [hjoined]
  exacts [h.joined, hepoch]

/-- When a user joins, the join sets the epoch, which is a new one. -/
theorem JoinedFrom.of_join {p p' : Accounts × JoinHistory} {i : ℕ} {u : UserId}
    (hjoin : p.1.network.nextStatement i = some (.insertMember u))
    (hbefore : p.1.network.chat.members.has u = false)
    (hs : (joins ecdh).step p (.network (.serve i)) = some p')
    (hafter : p'.1.network.chat.members.has u = true) :
    JoinedFrom p'.1.network.chat.keyEpoch u p' ∧
      p.1.network.chat.keyEpoch < p'.1.network.chat.keyEpoch := by
  obtain ⟨hs, hrecord⟩ := Machine.withHistory_step.1 hs
  constructor
  · refine ⟨?_, Nat.le_refl _⟩
    have hcond : (!p.1.network.chat.members.has u && p'.1.network.chat.members.has u) = true := by
      rw [hbefore, hafter]
      rfl
    rw [← hrecord]
    simp only [JoinHistory.record, hjoin, if_pos hcond, Function.update_self]
    exact Nat.le_refl _
  · obtain ⟨-, network, hgroup, hp'⟩ := accounts_network.1 hs
    obtain ⟨q, hq, hchat⟩ := serve_chat hgroup
    obtain rfl := Option.some.inj (hjoin.symm.trans hq)
    rw [← hp'] at hafter ⊢
    dsimp only at hafter ⊢
    rw [hchat, Statement.exec] at hafter ⊢
    split_ifs at hafter ⊢
    · rw [hbefore] at hafter
      cases hafter
    · exact Nat.lt_succ_self _

/-- Along a run whose uploads are all informed, a user who has joined never has a key of an
    epoch before the one that the join has set, nor a key that was stored for anybody before. -/
theorem keys_of_run {p : Accounts × JoinHistory} (hp : (informedJoins ecdh).Reachable p) {i : ℕ}
    {u : UserId} (hjoin : p.1.network.nextStatement i = some (.insertMember u))
    (hbefore : p.1.network.chat.members.has u = false) {p₁ : Accounts × JoinHistory}
    (h₁ : (informedJoins ecdh).step p (.network (.serve i)) = some p₁)
    (hafter : p₁.1.network.chat.members.has u = true) {es : List AccountEvent}
    {p₂ : Accounts × JoinHistory} (h₂ : (informedJoins ecdh).run p₁ es = some p₂) :
    ∀ wrap ∈ p₂.1.network.chat.row u, p₁.1.network.chat.keyEpoch ≤ wrap.stamp ∧
      ∀ given ∈ p.1.network.chat.wraps, given.key ≠ wrap.key := by
  intro wrap hwrap
  have hstep := (Machine.restrict_step.1 h₁).2
  obtain ⟨hjoined, hlt⟩ := JoinedFrom.of_join hjoin hbefore hstep hafter
  have hjoined₂ : JoinedFrom p₁.1.network.chat.keyEpoch u p₂ :=
    (hp.step h₁).run_keeps (fun _ _ _ _ h hs => h.step (Machine.restrict_step.1 hs).2) hjoined h₂
  have hstamp := Nat.le_trans hjoined₂.joined ((joinInv ((hp.step h₁).run h₂)).rows u wrap hwrap)
  refine ⟨hstamp, fun given hgiven => ?_⟩
  -- The keys that were stored before the join were minted for epochs before it.
  obtain ⟨chatId, w, hinv⟩ := accounts_exists_inv hp.of_restrict.of_withHistory
  have hgood := hinv.chat.good hgiven
  have hgiven : given.stamp ≤ p.1.network.chat.keyEpoch :=
    Nat.le_trans (hinv.chat.stamp_le hgood) hinv.chat.lastClaim
  have hrun : (informedJoins ecdh).run p (.network (.serve i) :: es) = some p₂ :=
    Machine.run_cons_eq_some.2 ⟨p₁, h₁, h₂⟩
  obtain ⟨w₂, hle, hinv₂⟩ :=
    accounts_inv_run hinv (Machine.run_of_withHistory (Machine.run_of_restrict hrun))
  exact hinv₂.chat.key_ne (hgood.mono hle) (hinv₂.chat.row u wrap hwrap).1
    (Nat.lt_of_le_of_lt hgiven (Nat.lt_of_lt_of_le hlt hstamp))

end

/-! ### A join in time, and one between two reads -/

theorem createdJoins_init : (informedJoins jwks).init (createdAccounts, .start) :=
  ⟨createdAccounts_init, rfl⟩

/-- What follows the join of the user 2: the owner rotates the key, and the upload for the
    user 2 arrives. -/
def rotationEvents : List NetworkEvent := heldUpEvents.drop 4 ++ [.serve 5]

theorem keys_of_run_rotation : ∃ p p₁ p₂,
    (informedJoins jwks).run (createdAccounts, .start)
      ((heldUpEvents.take 3).map .network) = some p ∧
    (informedJoins jwks).step p (.network (.serve 0)) = some p₁ ∧
    (informedJoins jwks).run p₁ (rotationEvents.map .network) = some p₂ ∧
    boundWrap 11 12 1 2 ⟨7, 2⟩ ∈ p₂.1.network.chat.row 2 ∧ p₁.1.network.chat.keyEpoch ≤ 2 ∧
      ∀ given ∈ p.1.network.chat.wraps, given.key ≠ 1 := by
  have h : (((informedJoins jwks).run (createdAccounts, .start)
      ((heldUpEvents.take 3).map .network)).bind fun p =>
        ((informedJoins jwks).step p (.network (.serve 0))).bind fun p₁ =>
          ((informedJoins jwks).run p₁ (rotationEvents.map .network)).map fun p₂ =>
              decide (p.1.network.nextStatement 0 = some (.insertMember 2) ∧
                p.1.network.chat.members.has 2 = false ∧
                p₁.1.network.chat.members.has 2 = true ∧
                p₂.1.network.chat.row 2 = some (boundWrap 11 12 1 2 ⟨7, 2⟩))) = some true := by
    decide +kernel
  obtain ⟨p, hp, h⟩ := Option.bind_eq_some_iff.1 h
  obtain ⟨p₁, hp₁, h⟩ := Option.bind_eq_some_iff.1 h
  obtain ⟨p₂, hp₂, h⟩ := Option.map_eq_some_iff.1 h
  obtain ⟨hjoin, hbefore, hafter, hrow⟩ := of_decide_eq_true h
  exact ⟨p, p₁, p₂, hp, hp₁, hp₂, hrow, keys_of_run (Machine.reachable_of_run hp createdJoins_init)
    hjoin hbefore hp₁ hafter hp₂ _ hrow⟩

/-- The owner's client sets out to reconcile, and the server reads the epoch for it; then the
    user 2 joins, up to the insertion. -/
def halfReadEvents : List NetworkEvent :=
  [.start 1 .reconcile, .send 0, .serve 0, .serve 0, .request 2 .joinChat, .serve 1, .serve 1]

/-- The server goes on to read the members, and the client uploads its key for the one
    without a key. -/
def deliveryEvents : List NetworkEvent :=
  [.serve 0, .reply 0, .trust 0 true, .send 0, .serve 2, .serve 2, .serve 2, .serve 2]

/-- The user 2, whose join has set the epoch 1, gets the key of the epoch 0, which everybody had
    before. -/
theorem late_details : ∃ s s₁ s₂, (accounts jwks).Reachable s ∧
    s.network.nextStatement 1 = some (.insertMember 2) ∧
    s.network.chat.members.has 2 = false ∧
    (accounts jwks).step s (.network (.serve 1)) = some s₁ ∧
    s₁.network.chat.members.has 2 = true ∧ s₁.network.chat.keyEpoch = 1 ∧
    (accounts jwks).run s₁ (deliveryEvents.map .network) = some s₂ ∧
    s₂.network.chat.row 2 = some (boundWrap 11 12 0 0 ⟨7, 2⟩) ∧
    ∃ given ∈ s.network.chat.wraps, given.key = 0 := by
  have h : (((accounts jwks).run createdAccounts (halfReadEvents.map .network)).bind fun s =>
      ((accounts jwks).step s (.network (.serve 1))).bind fun s₁ =>
        ((accounts jwks).run s₁ (deliveryEvents.map .network)).map fun s₂ =>
          decide (s.network.nextStatement 1 = some (.insertMember 2) ∧
            s.network.chat.members.has 2 = false ∧ s₁.network.chat.members.has 2 = true ∧
            s₁.network.chat.keyEpoch = 1 ∧
            s₂.network.chat.row 2 = some (boundWrap 11 12 0 0 ⟨7, 2⟩) ∧
            ∃ given ∈ s.network.chat.wraps, given.key = 0)) = some true := by
    decide +kernel
  obtain ⟨s, hs, h⟩ := Option.bind_eq_some_iff.1 h
  obtain ⟨s₁, hs₁, h⟩ := Option.bind_eq_some_iff.1 h
  obtain ⟨s₂, hs₂, h⟩ := Option.map_eq_some_iff.1 h
  obtain ⟨hjoin, hbefore, hafter, hepoch, hrow, hgiven⟩ := of_decide_eq_true h
  exact ⟨s, s₁, s₂, Machine.reachable_of_run hs createdAccounts_init, hjoin, hbefore, hs₁, hafter,
    hepoch, hs₂, hrow, hgiven⟩

end OneToThree.Group
