import OneToThree.Lib.InsMap
import OneToThree.Lib.Machine

/-!
# The WebSocket registry

The sockets of each user on one API instance: registration with its cap, the heartbeat,
and the clean-up that each socket has registered for its `close` event.

`userSockets` maps a user to a `Set` object, and a clean-up closes over the object that
the entry was when its socket was registered. The objects are kept by name here (`sets`),
in the order of insertion, so that a clean-up may find the entry of its user replaced.
The events come in any order: a `close` event is late at will, also after the socket was
evicted or terminated.

* `complete_of_run`: along a run in which no clean-up with an empty set finds a live
  socket in another set of its user, every live socket is in the set that messages are
  delivered to, and the last socket of a user is only reported closed when it is.
* `late_close_loses`: without that condition, a late `close` takes the sockets that were
  registered since out of the registry.
-/

namespace OneToThree.Ws

abbrev UserId := ℕ
abbrev SocketId := ℕ
/-- The identity of a `Set` object. -/
abbrev SetId := ℕ

structure Socket where
  userId : UserId
  /-- The set that its clean-up has captured. -/
  captured : SetId
  /-- `readyState` is `OPEN`. -/
  isOpen : Bool
  isAlive : Bool
  /-- The clean-up is still registered for the `close` event. -/
  listening : Bool
  /-- Closed for the cap. -/
  evicted : Bool
  /-- Dropped by the heartbeat. -/
  dropped : Bool
  deriving DecidableEq

/-- A socket that is open, and was neither evicted nor dropped. -/
def Socket.Live (sock : Socket) : Prop := sock.isOpen ∧ ¬sock.evicted ∧ ¬sock.dropped

instance (sock : Socket) : Decidable sock.Live := inferInstanceAs (Decidable (_ ∧ _ ∧ _))

/-- What the registry has others do: the presence of this instance, and the callback. -/
inductive Action
  | markPresence (userId : UserId)
  | refreshPresence (userIds : List UserId)
  | clearPresence (userId : UserId)
  | lastSocketClosed (userId : UserId)
  deriving DecidableEq

/-- A user is reported offline, to the presence of this instance or to the callback. -/
def Action.Offline (a : Action) (userId : UserId) : Prop :=
  a = .clearPresence userId ∨ a = .lastSocketClosed userId

structure Registry where
  userSockets : InsMap UserId SetId
  /-- The members of the sets, oldest first. -/
  sets : InsMap SetId (List SocketId)
  nextSet : SetId
  sockets : InsMap SocketId Socket
  actions : List Action

namespace Registry

def members (r : Registry) (set : SetId) : List SocketId := (r.sets.get? set).getD []

/-- What `deliverLocal` iterates. -/
def socketsOf (r : Registry) (userId : UserId) : List SocketId :=
  match r.userSockets.get? userId with
  | some set => r.members set
  | none => []

/-- The sockets that a payload is sent to, `full` being those with too much buffered. -/
def deliverLocal (r : Registry) (full : SocketId → Bool) (userId : UserId) : List SocketId :=
  (r.socketsOf userId).filter fun ws => (r.sockets.get? ws).any (·.isOpen) && !full ws

def modifySocket (r : Registry) (ws : SocketId) (f : Socket → Socket) : Registry :=
  match r.sockets.get? ws with
  | some sock => { r with sockets := r.sockets.set ws (f sock) }
  | none => r

def setMembers (r : Registry) (set : SetId) (l : List SocketId) : Registry :=
  { r with sets := r.sets.set set l }

/-! ## Registration -/

def maxSocketsPerUser : ℕ := 12

/-- The loop of the cap on a set with its newest socket: what stays, and what is evicted. -/
def evict (ws : SocketId) : List SocketId → List SocketId × List SocketId
  | [] => ([], [])
  | oldest :: rest =>
    if (oldest :: rest).length > maxSocketsPerUser ∧ oldest ≠ ws then
      ((evict ws rest).1, oldest :: (evict ws rest).2)
    else (oldest :: rest, [])

/-- The set of a user, made if there is none. -/
def ensureSet (r : Registry) (userId : UserId) : SetId × Registry :=
  match r.userSockets.get? userId with
  | some set => (set, r)
  | none => (r.nextSet,
      { r with
        userSockets := r.userSockets.set userId r.nextSet
        sets := r.sets.set r.nextSet []
        nextSet := r.nextSet + 1
        actions := r.actions ++ [.markPresence userId] })

def close (sock : Socket) : Socket := { sock with isOpen := false, evicted := true }

/-- A socket joins the set of its user, and the cap is kept. -/
def addSocket (r : Registry) (userId : UserId) (set : SetId) (ws : SocketId) : Registry :=
  let (kept, oldest) := evict ws (r.members set ++ [ws])
  let r := { r with sockets := r.sockets.set ws ⟨userId, set, true, true, true, false, false⟩ }
  oldest.foldl (fun r ws => r.modifySocket ws close) (r.setMembers set kept)

def registerUserSocket (r : Registry) (userId : UserId) (ws : SocketId) : Registry :=
  let (set, r) := r.ensureSet userId
  r.addSocket userId set ws

/-- The clean-up of a socket, on its `close` event. -/
def cleanup (r : Registry) (ws : SocketId) (sock : Socket) : Registry :=
  let left := (r.members sock.captured).erase ws
  let r := (r.setMembers sock.captured left).modifySocket ws fun sock =>
    { sock with isOpen := false, listening := false }
  if left = [] then
    { r with
      userSockets := r.userSockets.delete sock.userId
      actions := r.actions ++ [.clearPresence sock.userId, .lastSocketClosed sock.userId] }
  else r

/-! ## Heartbeat -/

/-- The heartbeat at one socket of a set; `throws` says where `ping` or `terminate` throw. -/
def beat (throws : SocketId → Bool) (r : Registry) (p : SetId × SocketId) : Registry :=
  match r.sockets.get? p.2 with
  | some sock =>
    if !sock.isAlive then
      -- Terminated, or unusable: dropped either way.
      { r with
        sockets := r.sockets.set p.2
          { sock with isOpen := sock.isOpen && throws p.2, dropped := true }
        sets := r.sets.set p.1 ((r.members p.1).erase p.2) }
    else if throws p.2 then
      { r with
        sockets := r.sockets.set p.2 { sock with isAlive := false, dropped := true }
        sets := r.sets.set p.1 ((r.members p.1).erase p.2) }
    else { r with sockets := r.sockets.set p.2 { sock with isAlive := false } }
  | none => r

def heartbeat (r : Registry) (throws : SocketId → Bool) : Registry :=
  let all := r.userSockets.entries.flatMap fun p => (r.members p.2).map fun ws => (p.2, ws)
  let r := all.foldl (beat throws) r
  let stillLive := (r.userSockets.entries.filter fun p => r.members p.2 ≠ []).map Prod.fst
  { r with actions := r.actions ++ [.refreshPresence stillLive] }

/-! ## Steps -/

inductive Event
  /-- A new socket is registered for a user. -/
  | register (userId : UserId) (ws : SocketId)
  /-- A socket leaves the state `OPEN`: either side closes it, or it fails. -/
  | shut (ws : SocketId)
  /-- The `close` event of a socket. -/
  | closed (ws : SocketId)
  | pong (ws : SocketId)
  | tick (throws : SocketId → Bool)

def step (r : Registry) : Event → Option Registry
  | .register userId ws => if r.sockets.has ws then none else some (r.registerUserSocket userId ws)
  | .shut ws => some (r.modifySocket ws fun sock => { sock with isOpen := false })
  | .closed ws =>
    match r.sockets.get? ws with
    | some sock => if sock.listening then some (r.cleanup ws sock) else none
    | none => none
  | .pong ws => some (r.modifySocket ws fun sock => { sock with isAlive := true })
  | .tick throws => some (r.heartbeat throws)

def start : Registry := ⟨∅, ∅, 0, ∅, []⟩

end Registry

/-- The registry as a machine. -/
def registry : Machine Registry Registry.Event where
  init r := r = Registry.start
  step := Registry.step

namespace Registry

/-! ## Reading after writing -/

section
variable (r : Registry) (ws : SocketId) (f : Socket → Socket)

theorem get?_modifySocket (x : SocketId) :
    (r.modifySocket ws f).sockets.get? x =
      if x = ws then (r.sockets.get? x).map f else r.sockets.get? x := by
  rw [modifySocket]
  split_ifs with hx
  · subst hx
    cases hget : r.sockets.get? x <;> simp [hget]
  · cases r.sockets.get? ws with
    | none => rfl
    | some sock => exact InsMap.get?_set_ne _ _ hx

@[simp] theorem modifySocket_userSockets :
    (r.modifySocket ws f).userSockets = r.userSockets := by
  rw [modifySocket]; split <;> rfl

@[simp] theorem modifySocket_nextSet : (r.modifySocket ws f).nextSet = r.nextSet := by
  rw [modifySocket]; split <;> rfl

@[simp] theorem modifySocket_actions : (r.modifySocket ws f).actions = r.actions := by
  rw [modifySocket]; split <;> rfl

@[simp] theorem members_modifySocket (set : SetId) :
    (r.modifySocket ws f).members set = r.members set := by
  rw [modifySocket]; split <;> rfl

theorem members_setMembers (set set' : SetId) (l : List SocketId) :
    (r.setMembers set l).members set' = if set' = set then l else r.members set' := by
  rw [setMembers, members, InsMap.get?_set]
  split_ifs <;> rfl

end

theorem mem_socketsOf {r : Registry} {userId : UserId} {ws : SocketId} :
    ws ∈ r.socketsOf userId ↔ ∃ set, r.userSockets.get? userId = some set ∧ ws ∈ r.members set := by
  rw [socketsOf]
  cases r.userSockets.get? userId <;> simp

/-! ## The invariant -/

/-- Every live socket is in the set of its user; and the sets of the entries are distinct
    objects. -/
structure Complete (r : Registry) : Prop where
  live : ∀ ws sock, r.sockets.get? ws = some sock → sock.Live → ws ∈ r.socketsOf sock.userId
  named : ∀ u set, r.userSockets.get? u = some set → set < r.nextSet
  apart : ∀ u v set, r.userSockets.get? u = some set → r.userSockets.get? v = some set → u = v

/-- A clean-up whose set is empty then finds this set at the entry of its user, or else no
    live socket there. -/
def Timely (r : Registry) : Event → Prop
  | .closed ws => ∀ sock ∈ r.sockets.get? ws, (r.members sock.captured).erase ws = [] →
      r.userSockets.get? sock.userId ≠ some sock.captured →
        ∀ x ∈ r.socketsOf sock.userId, ∀ other ∈ r.sockets.get? x, ¬other.Live
  | _ => True

instance (r : Registry) : ∀ e : Event, Decidable (r.Timely e)
  | .closed ws => inferInstanceAs (Decidable (∀ sock ∈ r.sockets.get? ws, _ → _ →
      ∀ x ∈ r.socketsOf sock.userId, ∀ other ∈ r.sockets.get? x, ¬other.Live))
  | .register _ _ | .shut _ | .pong _ | .tick _ => isTrue trivial

theorem complete_start : start.Complete where
  live ws _ h := nomatch (InsMap.get?_empty ws).symm.trans h
  named u _ h := nomatch (InsMap.get?_empty u).symm.trans h
  apart u _ _ h := nomatch (InsMap.get?_empty u).symm.trans h

/-- A socket changes, and does not come to life again. -/
theorem Complete.modifySocket {r : Registry} (h : r.Complete) {ws : SocketId}
    {f : Socket → Socket} (huser : ∀ sock, (f sock).userId = sock.userId)
    (hlive : ∀ sock, (f sock).Live → sock.Live) : (r.modifySocket ws f).Complete := by
  refine ⟨fun x sock hget hsock => ?_, ?_, ?_⟩
  · rw [mem_socketsOf]
    simp only [modifySocket_userSockets, members_modifySocket]
    rw [← mem_socketsOf]
    rw [get?_modifySocket] at hget
    split_ifs at hget
    · obtain ⟨old, hold, rfl⟩ := Option.map_eq_some_iff.1 hget
      exact huser old ▸ h.live x old hold (hlive old hsock)
    · exact h.live x sock hget hsock
  · rw [modifySocket_userSockets, modifySocket_nextSet]
    exact h.named
  · rw [modifySocket_userSockets]
    exact h.apart

/-! ## Registration -/

theorem mem_evict {ws x : SocketId} {l : List SocketId} (h : x ∈ l) :
    x ∈ (evict ws l).1 ∨ x ∈ (evict ws l).2 := by
  induction l with
  | nil => exact nomatch h
  | cons oldest rest ih =>
    rw [evict]
    split_ifs
    · rcases List.mem_cons.1 h with rfl | h
      · exact .inr List.mem_cons_self
      · exact (ih h).imp_right (List.mem_cons_of_mem _)
    · exact .inl h

theorem close_all (oldest : List SocketId) (r : Registry) :
    let r' := oldest.foldl (fun r ws => r.modifySocket ws close) r
    r'.userSockets = r.userSockets ∧ r'.nextSet = r.nextSet ∧ r'.actions = r.actions ∧
      (∀ set, r'.members set = r.members set) ∧
      ∀ x, r'.sockets.get? x =
        if x ∈ oldest then (r.sockets.get? x).map close else r.sockets.get? x := by
  induction oldest generalizing r with
  | nil => exact ⟨rfl, rfl, rfl, fun _ => rfl, fun _ => rfl⟩
  | cons ws oldest ih =>
    obtain ⟨husers, hnext, hactions, hmembers, hsockets⟩ := ih (r.modifySocket ws close)
    refine ⟨husers.trans (by simp), hnext.trans (by simp), hactions.trans (by simp),
      fun set => (hmembers set).trans (by simp), fun x => (hsockets x).trans ?_⟩
    rw [get?_modifySocket]
    by_cases hx : x = ws
    · subst hx
      by_cases hmem : x ∈ oldest <;> cases r.sockets.get? x <;> simp [hmem, close]
    · simp [hx]

theorem Complete.ensureSet {r : Registry} (h : r.Complete) (userId : UserId) :
    (r.ensureSet userId).2.Complete ∧
      (r.ensureSet userId).2.userSockets.get? userId = some (r.ensureSet userId).1 := by
  rw [Registry.ensureSet]
  split
  · rename_i set hset
    exact ⟨h, hset⟩
  · rename_i hnone
    refine ⟨⟨fun ws sock hget hlive => ?_, fun u set hu => ?_, fun u v set hu hv => ?_⟩,
      InsMap.get?_set_self _ _ _⟩
    · -- Who has no entry has no live socket, and the other sets are older.
      obtain ⟨set, hset, hmem⟩ := mem_socketsOf.1 (h.live ws sock hget hlive)
      have hne : sock.userId ≠ userId := fun heq => by
        rw [heq, hnone] at hset
        cases hset
      refine mem_socketsOf.2 ⟨set, (InsMap.get?_set_ne _ _ hne).trans hset, ?_⟩
      have hold : set ≠ r.nextSet := Nat.ne_of_lt (h.named _ _ hset)
      rw [members, InsMap.get?_set_ne _ _ hold]
      exact hmem
    · rw [InsMap.get?_set] at hu
      split_ifs at hu
      · exact Option.some.inj hu ▸ Nat.lt_succ_self _
      · exact Nat.lt_trans (h.named u set hu) (Nat.lt_succ_self _)
    · rw [InsMap.get?_set] at hu hv
      split_ifs at hu hv with hu' hv' hv'
      · exact hu'.trans hv'.symm
      · exact absurd (h.named v set hv) (by rw [← Option.some.inj hu]; exact Nat.lt_irrefl _)
      · exact absurd (h.named u set hu) (by rw [← Option.some.inj hv]; exact Nat.lt_irrefl _)
      · exact h.apart u v set hu hv

theorem Complete.addSocket {r : Registry} (h : r.Complete) {userId : UserId} {set : SetId}
    (hset : r.userSockets.get? userId = some set) (ws : SocketId) :
    (r.addSocket userId set ws).Complete := by
  rw [Registry.addSocket]
  dsimp only
  generalize hl : r.members set ++ [ws] = l
  obtain ⟨husers, hnext, -, hmembers, hsockets⟩ := close_all (evict ws l).2
    ({ r with sockets := r.sockets.set ws ⟨userId, set, true, true, true, false, false⟩
      }.setMembers set (evict ws l).1)
  refine ⟨fun x sock hget hlive => ?_, ?_, ?_⟩
  · rw [mem_socketsOf, husers]
    simp only [hmembers]
    rw [hsockets] at hget
    split_ifs at hget with hevicted
    · obtain ⟨old, -, rfl⟩ := Option.map_eq_some_iff.1 hget
      exact absurd rfl hlive.2.1
    · have hkept : x ∈ l → x ∈ (evict ws l).1 := fun hx => (mem_evict hx).resolve_right hevicted
      change (r.sockets.set ws _).get? x = some sock at hget
      rw [InsMap.get?_set] at hget
      split_ifs at hget with hx
      · obtain rfl := Option.some.inj hget
        subst hx
        refine ⟨set, hset, ?_⟩
        rw [members_setMembers, if_pos rfl]
        exact hkept (by simp [← hl])
      · obtain ⟨set', hset', hmem⟩ := mem_socketsOf.1 (h.live x sock hget hlive)
        refine ⟨set', hset', ?_⟩
        rw [members_setMembers]
        split_ifs with heq
        · exact hkept (hl ▸ List.mem_append_left _ (heq ▸ hmem))
        · exact hmem
  · rw [husers, hnext]
    exact h.named
  · rw [husers]
    exact h.apart

theorem Complete.registerUserSocket {r : Registry} (h : r.Complete) (userId : UserId)
    (ws : SocketId) : (r.registerUserSocket userId ws).Complete :=
  (h.ensureSet userId).1.addSocket (h.ensureSet userId).2 ws

/-! ## The clean-up -/

/-- A clean-up that reports a user offline leaves no live socket of the user. -/
theorem cleanup_offline {r : Registry} (h : r.Complete) {ws : SocketId} {sock : Socket}
    (hws : r.sockets.get? ws = some sock) (hok : r.Timely (.closed ws))
    (hleft : (r.members sock.captured).erase ws = []) {x : SocketId} {other : Socket}
    (hx : x ≠ ws) (hget : r.sockets.get? x = some other) (huser : other.userId = sock.userId) :
    ¬other.Live := by
  intro hlive
  obtain ⟨set, hset, hmem⟩ := mem_socketsOf.1 (h.live x other hget hlive)
  rw [huser] at hset
  by_cases heq : set = sock.captured
  · have hmem' := (List.mem_erase_of_ne hx).2 (heq ▸ hmem)
    rw [hleft] at hmem'
    cases hmem'
  · exact hok sock hws hleft (fun hc => heq (Option.some.inj (hset.symm.trans hc))) x
      (mem_socketsOf.2 ⟨set, hset, hmem⟩) other hget hlive

theorem Complete.cleanup {r : Registry} (h : r.Complete) {ws : SocketId} {sock : Socket}
    (hws : r.sockets.get? ws = some sock) (hok : r.Timely (.closed ws)) :
    (r.cleanup ws sock).Complete := by
  -- The set loses the socket, which is not live any more.
  have hclosed : ((r.setMembers sock.captured ((r.members sock.captured).erase ws)).modifySocket ws
      fun sock => { sock with isOpen := false, listening := false }).Complete := by
    refine ⟨fun x other hget hlive => ?_, ?_, ?_⟩
    · rw [get?_modifySocket] at hget
      split_ifs at hget with hx
      · obtain ⟨old, -, rfl⟩ := Option.map_eq_some_iff.1 hget
        exact absurd hlive.1 Bool.false_ne_true
      · obtain ⟨set, hset, hmem⟩ := mem_socketsOf.1 (h.live x other hget hlive)
        refine mem_socketsOf.2 ⟨set, (by rw [modifySocket_userSockets]; exact hset), ?_⟩
        rw [members_modifySocket, members_setMembers]
        split_ifs with heq
        · exact (List.mem_erase_of_ne hx).2 (heq ▸ hmem)
        · exact hmem
    · rw [modifySocket_userSockets, modifySocket_nextSet]
      exact h.named
    · rw [modifySocket_userSockets]
      exact h.apart
  rw [Registry.cleanup]
  split_ifs with hleft
  · refine ⟨fun x other hget hlive => ?_, fun u set hu => ?_, fun u v set hu hv => ?_⟩
    · have hx : x ≠ ws := by
        rintro rfl
        rw [get?_modifySocket, if_pos rfl] at hget
        obtain ⟨old, -, rfl⟩ := Option.map_eq_some_iff.1 hget
        exact absurd hlive.1 Bool.false_ne_true
      have hold : r.sockets.get? x = some other := by
        rw [get?_modifySocket, if_neg hx] at hget
        exact hget
      have huser : other.userId ≠ sock.userId := fun huser =>
        cleanup_offline h hws hok hleft hx hold huser hlive
      obtain ⟨set, hset, hmem⟩ := mem_socketsOf.1 (hclosed.live x other hget hlive)
      exact mem_socketsOf.2 ⟨set, (InsMap.get?_delete_ne _ huser).trans hset, hmem⟩
    · rw [InsMap.get?_delete] at hu
      split_ifs at hu
      exact hclosed.named u set hu
    · rw [InsMap.get?_delete] at hu hv
      split_ifs at hu hv
      exact hclosed.apart u v set hu hv
  · exact hclosed

/-! ## The heartbeat -/

theorem Complete.beat {r : Registry} (h : r.Complete) (throws : SocketId → Bool)
    (p : SetId × SocketId) : (beat throws r p).Complete := by
  obtain ⟨σ, ws⟩ := p
  -- The socket at hand is dropped from the set, or stays as it is but for the ping.
  have hdrop : ∀ sock : Socket, sock.dropped →
      ({ r with
        sockets := r.sockets.set ws sock
        sets := r.sets.set σ ((r.members σ).erase ws) } : Registry).Complete := by
    refine fun sock hdropped => ⟨fun x other hget hlive => ?_, h.named, h.apart⟩
    rw [InsMap.get?_set] at hget
    split_ifs at hget with hx
    · exact absurd hdropped (Option.some.inj hget ▸ hlive.2.2)
    · obtain ⟨set, hset, hmem⟩ := mem_socketsOf.1 (h.live x other hget hlive)
      refine mem_socketsOf.2 ⟨set, hset, ?_⟩
      rw [members, InsMap.get?_set]
      split_ifs with heq
      · exact (List.mem_erase_of_ne hx).2 (heq ▸ hmem)
      · exact hmem
  rw [Registry.beat]
  split
  · rename_i sock hget
    split_ifs
    · exact hdrop _ rfl
    · exact hdrop _ rfl
    · refine ⟨fun x other hx hlive => ?_, h.named, h.apart⟩
      rw [InsMap.get?_set] at hx
      split_ifs at hx with heq
      · obtain rfl := Option.some.inj hx
        obtain rfl : x = ws := heq
        exact h.live x sock hget hlive
      · exact h.live x other hx hlive
  · exact h

theorem Complete.heartbeat {r : Registry} (h : r.Complete) (throws : SocketId → Bool) :
    (r.heartbeat throws).Complete := by
  have hall : ∀ l : List (SetId × SocketId), (l.foldl (Registry.beat throws) r).Complete := by
    intro l
    induction l generalizing r with
    | nil => exact h
    | cons p l ih => exact ih (h.beat throws p)
  exact ⟨(hall _).live, (hall _).named, (hall _).apart⟩

/-! ## The reports -/

theorem actions_registerUserSocket (r : Registry) (userId : UserId) (ws : SocketId) :
    ∃ acts, (r.registerUserSocket userId ws).actions = r.actions ++ acts ∧
      ∀ a ∈ acts, a = .markPresence userId := by
  have hadd : ∀ (r : Registry) (set : SetId), (r.addSocket userId set ws).actions = r.actions :=
    fun r set => (close_all _ _).2.2.1
  rw [Registry.registerUserSocket, hadd, ensureSet]
  split
  · exact ⟨[], (List.append_nil _).symm, fun a ha => nomatch ha⟩
  · exact ⟨_, rfl, fun a ha => List.mem_singleton.1 ha⟩

theorem actions_heartbeat (r : Registry) (throws : SocketId → Bool) :
    ∃ stillLive, (r.heartbeat throws).actions = r.actions ++ [.refreshPresence stillLive] := by
  have hall : ∀ (l : List (SetId × SocketId)) (r : Registry),
      (l.foldl (beat throws) r).actions = r.actions := by
    intro l
    induction l with
    | nil => exact fun r => rfl
    | cons p l ih =>
      refine fun r => (ih _).trans ?_
      rw [beat]
      split
      · split_ifs <;> rfl
      · rfl
  exact ⟨_, congrArg (· ++ _) (hall _ r)⟩

/-- Only a clean-up whose set is empty then reports a user offline: its own. -/
theorem step_offline {r r' : Registry} {e : Event} (hstep : r.step e = some r')
    {acts : List Action} (hacts : r'.actions = r.actions ++ acts) {u : UserId} {a : Action}
    (ha : a ∈ acts) (hu : a.Offline u) :
    ∃ ws sock, e = .closed ws ∧ r.sockets.get? ws = some sock ∧
      (r.members sock.captured).erase ws = [] ∧ sock.userId = u ∧ r' = r.cleanup ws sock := by
  have hsame : r'.actions ≠ r.actions := by
    intro hsame
    rw [hsame] at hacts
    rw [List.self_eq_append_right.1 hacts] at ha
    cases ha
  cases e with
  | register userId ws =>
    rw [Registry.step] at hstep
    split_ifs at hstep
    obtain rfl := Option.some.inj hstep
    obtain ⟨acts', hacts', hmark⟩ := actions_registerUserSocket r userId ws
    obtain rfl := List.append_cancel_left (hacts.symm.trans hacts')
    obtain rfl := hmark a ha
    rcases hu with hu | hu <;> cases hu
  | shut ws =>
    obtain rfl := Option.some.inj hstep
    exact absurd (modifySocket_actions _ _ _) hsame
  | closed ws =>
    rw [Registry.step] at hstep
    split at hstep
    · rename_i sock hws
      split_ifs at hstep
      obtain rfl := Option.some.inj hstep
      by_cases hleft : (r.members sock.captured).erase ws = []
      · refine ⟨ws, sock, rfl, hws, hleft, ?_, rfl⟩
        rw [Registry.cleanup, if_pos hleft, modifySocket_actions] at hacts
        obtain rfl := List.append_cancel_left hacts
        rcases hu with rfl | rfl <;> simpa [eq_comm] using ha
      · rw [Registry.cleanup, if_neg hleft] at hsame
        exact absurd (modifySocket_actions _ _ _) hsame
    · cases hstep
  | pong ws =>
    obtain rfl := Option.some.inj hstep
    exact absurd (modifySocket_actions _ _ _) hsame
  | tick throws =>
    obtain rfl := Option.some.inj hstep
    obtain ⟨stillLive, hacts'⟩ := actions_heartbeat r throws
    obtain rfl := List.append_cancel_left (hacts.symm.trans hacts')
    obtain rfl := List.mem_singleton.1 ha
    rcases hu with hu | hu <;> cases hu

/-! ## Every run -/

theorem Complete.step {r r' : Registry} {e : Event} (h : r.Complete) (hok : r.Timely e)
    (hstep : r.step e = some r') : r'.Complete := by
  cases e with
  | register userId ws =>
    rw [Registry.step] at hstep
    split_ifs at hstep
    exact Option.some.inj hstep ▸ h.registerUserSocket userId ws
  | shut ws =>
    obtain rfl := Option.some.inj hstep
    exact h.modifySocket (fun _ => rfl) fun _ hlive => absurd hlive.1 Bool.false_ne_true
  | closed ws =>
    rw [Registry.step] at hstep
    split at hstep
    · rename_i sock hws
      split_ifs at hstep
      exact Option.some.inj hstep ▸ h.cleanup hws hok
    · cases hstep
  | pong ws =>
    obtain rfl := Option.some.inj hstep
    exact h.modifySocket (fun _ => rfl) fun _ hlive => hlive
  | tick throws => exact Option.some.inj hstep ▸ h.heartbeat throws

theorem complete_of_reachable {r : Registry}
    (hr : (registry.restrict fun r e => r.Timely e).Reachable r) : r.Complete := by
  refine hr.invariant (fun r hinit => ?_) fun r e r' _ h hstep => ?_
  · obtain rfl : r = start := hinit
    exact complete_start
  · exact h.step (Machine.restrict_step.1 hstep).1 (Machine.restrict_step.1 hstep).2

/-- Along a run in which no clean-up with an empty set finds a live socket in another set
    of its user: every live socket is in the set that messages are delivered to, and a
    user is only reported offline without a live socket. -/
theorem complete_of_run {r : Registry}
    (hr : (registry.restrict fun r e => r.Timely e).Reachable r) :
    (∀ ws sock, r.sockets.get? ws = some sock → sock.Live → ws ∈ r.socketsOf sock.userId) ∧
    ∀ e r' acts a u, (registry.restrict fun r e => r.Timely e).step r e = some r' →
      r'.actions = r.actions ++ acts → a ∈ acts → a.Offline u →
      ∀ ws sock, r'.sockets.get? ws = some sock → sock.userId = u → ¬sock.Live := by
  have h := complete_of_reachable hr
  refine ⟨h.live, fun e r' acts a u hstep hacts ha hu x other hx huser hlive => ?_⟩
  obtain ⟨hok, hstep⟩ := Machine.restrict_step.1 hstep
  obtain ⟨ws, sock, rfl, hws, hleft, rfl, rfl⟩ := step_offline hstep hacts ha hu
  rw [cleanup, if_pos hleft] at hx
  change ((r.setMembers _ _).modifySocket ws _).sockets.get? x = some other at hx
  rw [get?_modifySocket] at hx
  split_ifs at hx with heq
  · obtain ⟨old, -, rfl⟩ := Option.map_eq_some_iff.1 hx
    exact absurd hlive.1 Bool.false_ne_true
  · exact cleanup_offline h hws hok hleft heq hx huser hlive

namespace Sample

/-- Two sockets of user 7, of which the heartbeat drops the first one. -/
def dropped : List Event :=
  [.register 7 0, .register 7 1, .tick fun _ => false, .pong 1, .tick fun _ => false]

/-- The other socket closes, and a third one is registered, before the first one closes. -/
def late : List Event := dropped ++ [.closed 1, .register 7 2, .closed 0]

/-- The first socket closes in time. -/
def prompt : List Event := dropped ++ [.closed 0, .closed 1, .register 7 2]

end Sample

section
open Sample

/-- The late `close` takes an open socket out of the registry, and reports its user
    offline. -/
theorem late_close_loses : ∃ r ws sock, registry.Reachable r ∧ r.sockets.get? ws = some sock ∧
    sock.Live ∧ ws ∉ r.socketsOf sock.userId ∧
    r.actions.getLast? = some (.lastSocketClosed sock.userId) := by
  have hrun : (registry.run start late).bind (fun r => (r.sockets.get? 2).map fun sock =>
      (sock, r.socketsOf 7, r.actions.getLast?)) =
        some (⟨7, 1, true, true, true, false, false⟩, [], some (.lastSocketClosed 7)) := by decide
  obtain ⟨r, hr, hrow⟩ := Option.bind_eq_some_iff.1 hrun
  obtain ⟨sock, hget, hsock⟩ := Option.map_eq_some_iff.1 hrow
  obtain ⟨rfl, hnone, hlast⟩ : sock = ⟨7, 1, true, true, true, false, false⟩ ∧
    r.socketsOf 7 = [] ∧ r.actions.getLast? = some (.lastSocketClosed 7) := by simpa using hsock
  exact ⟨r, 2, _, Machine.reachable_of_run hr rfl, hget, by decide, by simp [hnone], hlast⟩

theorem complete_of_run_prompt : ∃ r,
    (registry.restrict fun r e => r.Timely e).run start prompt = some r ∧
    ∀ ws sock, r.sockets.get? ws = some sock → sock.Live → ws ∈ r.socketsOf sock.userId := by
  obtain ⟨r, hr, hreachable⟩ := Machine.exists_reachable (by decide :
    ((registry.restrict fun r e => r.Timely e).run start prompt).isSome) rfl
  exact ⟨r, hr, (complete_of_run hreachable).1⟩

end

end Registry

end OneToThree.Ws
