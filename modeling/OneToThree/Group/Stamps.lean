import OneToThree.Group.Epochs

/-!
# The stamps of the stored wraps

Whatever the clients, the members and the network do, every wrap stored is of the key
minted for its stamp (`exists_inv`): two wraps with one stamp are of one key, and no
stamp exceeds the epoch of the chat (`key_eq_of_stamp_eq`).

The invariant also tells the tasks by the epoch they started at: a task that started
when the epoch was `floor i` uploads no wrap stamped with a lower one.
-/

namespace OneToThree.Group

variable {ecdh : UserId → Option Jwk}

/-! ## The invariant -/

/-- The rows of the chat agree with what is settled of the epochs. -/
structure ChatInv (ecdh : UserId → Option Jwk) (chatId : ChatId) (chat : Chat) (w : World) :
    Prop where
  id : chat.id = chatId
  epoch : chat.keyEpoch = w.epoch
  lastClaim : chat.lastClaim ≤ chat.keyEpoch
  minted : ∀ e m, w.minted e = some m → e ≤ chat.lastClaim ∧ w.target m.key = some e
  row : ∀ u, GoodRow ecdh chatId w u (chat.row u)
  accepted : ∀ wrap ∈ chat.accepted, wrap.Good w

/-- The least epoch that a task may have started at, given that of every task. -/
def Handling.floor (handling : Handling) (floor : ℕ → ℕ) : ℕ :=
  handling.replyTo.elim 0 fun p => floor p.1

/-- The tasks and the requests keep to their contracts, and no task started before its
    `floor`. -/
structure Inv (ecdh : UserId → Option Jwk) (chatId : ChatId) (floor : ℕ → ℕ) (s : Network)
    (w : World) : Prop where
  chat : ChatInv ecdh chatId s.chat w
  fresh : ∀ k, s.nextKey ≤ k → w.target k = none
  started : ∀ i, floor i ≤ w.epoch
  tasks : ∀ i task, s.tasks[i]? = some task → Behaves ecdh chatId (floor i) task.program w
  handlings : ∀ h ∈ s.handlings, h.program.Meets (routeContract ecdh chatId (h.floor floor))
    (Replied ecdh chatId (h.floor floor) h.request) w
  replyTo : ∀ h ∈ s.handlings, ∀ p ∈ h.replyTo, p.1 < s.tasks.length

section
variable {chatId : ChatId} {floor : ℕ → ℕ} {N : ℕ} {w : World}

theorem ChatInv.kept {chat chat' : Chat} (h : ChatInv ecdh chatId chat w) (hkept : chat.Kept chat') :
    ∃ w', w ≤ w' ∧ w'.target = w.target ∧ ChatInv ecdh chatId chat' w' := by
  have hle : w ≤ { w with epoch := chat'.keyEpoch } :=
    ⟨h.epoch ▸ hkept.keyEpoch, fun _ _ hm => hm, fun _ _ hk => hk⟩
  refine ⟨_, hle, rfl, hkept.id.trans h.id, rfl, ?_, fun e m hm => ?_, fun u => ?_, fun wrap hw => ?_⟩
  · rw [hkept.lastClaim]
    exact Nat.le_trans h.lastClaim hkept.keyEpoch
  · rw [hkept.lastClaim]
    exact h.minted e m hm
  · rcases hkept.row u with hrow | hrow <;> rw [hrow]
    · exact (h.row u).mono ecdh chatId hle
    · exact fun _ hwrap => by cases hwrap
  · rw [hkept.accepted] at hw
    exact (h.accepted wrap hw).mono hle

/-- A claim that succeeds mints what it was annotated with. -/
theorem ChatInv.claim {chat : Chat} (h : ChatInv ecdh chatId chat w) {m : Mint}
    (htarget : w.target m.key = some (chat.keyEpoch + 1)) :
    ∃ w', w ≤ w' ∧ w'.target = w.target ∧ w'.minted (chat.keyEpoch + 1) = some m ∧
      ChatInv ecdh chatId chat.claimed w' := by
  have hnone : w.minted (chat.keyEpoch + 1) = none := by
    cases hm : w.minted (chat.keyEpoch + 1) with
    | none => rfl
    | some m' =>
      have := (h.minted _ m' hm).1
      have := h.lastClaim
      omega
  let w' : World := { w with
    epoch := chat.keyEpoch + 1
    minted := Function.update w.minted (chat.keyEpoch + 1) (some m) }
  have hminted : ∀ e ≠ chat.keyEpoch + 1, w'.minted e = w.minted e := fun e he =>
    Function.update_of_ne he _ _
  have hself : w'.minted (chat.keyEpoch + 1) = some m := Function.update_self ..
  have hle : w ≤ w' := by
    refine ⟨h.epoch ▸ Nat.le_succ _, fun e m' hm => ?_, fun _ _ hk => hk⟩
    rw [hminted e fun he => by rw [he, hnone] at hm; cases hm]
    exact hm
  refine ⟨w', hle, rfl, hself, h.id, rfl, Nat.le_refl _, fun e m' hm => ?_, fun u => ?_,
    fun wrap hw => ?_⟩
  · by_cases he : e = chat.keyEpoch + 1
    · subst he
      obtain rfl := Option.some.inj (hself.symm.trans hm)
      exact ⟨Nat.le_refl _, htarget⟩
    · rw [hminted e he] at hm
      have := h.minted e m' hm
      have := h.lastClaim
      exact ⟨show e ≤ chat.keyEpoch + 1 by omega, (h.minted e m' hm).2⟩
  · exact (h.row u).mono ecdh chatId hle
  · exact (h.accepted wrap hw).mono hle

theorem ChatInv.write {chat : Chat} (h : ChatInv ecdh chatId chat w) {userId : UserId}
    {wrap : SectorKeyAuthWrap} (hgood : wrap.Good w) (hsealed : SealedForUser ecdh chatId wrap userId) :
    ChatInv ecdh chatId (chat.writeKey userId wrap) w := by
  have heq := chat.writeKey_eq userId wrap
  refine ⟨?_, ?_, ?_, ?_, fun v => ?_, fun wrap' hw => ?_⟩
  · rw [heq]
    exact h.id
  · rw [heq]
    exact h.epoch
  · rw [heq]
    exact h.lastClaim
  · rw [heq]
    exact h.minted
  · rw [chat.row_write]
    split_ifs with hv
    · rintro wrap' hw
      obtain rfl := Option.some.inj hw
      exact ⟨hgood, hv.1 ▸ hsealed⟩
    · exact h.row v
  · rcases List.mem_cons.1 hw with rfl | hw
    · exact hgood
    · exact h.accepted wrap' hw

/-- A statement that its program may run keeps the rows good, and answers what the
    program assumes. -/
theorem ChatInv.exec {chat : Chat} (h : ChatInv ecdh chatId chat w) {q : Statement} {g : Mint}
    (hq : (routeContract ecdh chatId N).allowed w q g) :
    ∃ w', w ≤ w' ∧ w'.target = w.target ∧ ChatInv ecdh chatId (q.exec chat).2 w' ∧
      (routeContract ecdh chatId N).answered w' q g (q.exec chat).1 := by
  have hplain : q.IsPlain → (∀ w', (routeContract ecdh chatId N).answered w' q g (q.exec chat).1) →
      ∃ w', w ≤ w' ∧ w'.target = w.target ∧ ChatInv ecdh chatId (q.exec chat).2 w' ∧
        (routeContract ecdh chatId N).answered w' q g (q.exec chat).1 := fun hp ha => by
    obtain ⟨w', hle, htarget, h'⟩ := h.kept (exec_kept chat hp)
    exact ⟨w', hle, htarget, h', ha w'⟩
  cases q with
  | memberRole | insertMember | removeMember | leaveAsOwner | leave | setRole |
    transferOwnership => exact hplain trivial fun _ => trivial
  | chatRow =>
    refine ⟨w, le_refl w, rfl, h, ?_⟩
    simp only [Statement.exec]
    split_ifs
    · trivial
    · exact Nat.le_of_eq h.epoch.symm
  | roster =>
    refine ⟨w, le_refl w, rfl, h, fun p hp => ?_⟩
    have hget : chat.members.get? p.1 = some p.2 := InsMap.get?_eq_some_iff.2 hp
    have := h.row p.1
    rwa [Chat.row, hget] at this
  | claimEpoch claim =>
    simp only [Statement.exec]
    split_ifs with hc
    · obtain ⟨-, rfl⟩ := hc
      obtain ⟨w', hle, htarget, hminted, h'⟩ := h.claim hq
      exact ⟨w', hle, htarget, h', rfl, hminted⟩
    · exact ⟨w, le_refl w, rfl, h, trivial⟩
  | writeKey userId wrap => exact ⟨w, le_refl w, rfl, h.write hq.2.2 hq.2.1, trivial⟩

/-! ## The steps -/

theorem Inv.tasks_mono {s : Network} {w' : World} (h : Inv ecdh chatId floor s w) (hle : w ≤ w')
    (i : ℕ) (task : Task) (hi : s.tasks[i]? = some task) :
    Behaves ecdh chatId (floor i) task.program w' :=
  (h.tasks i task hi).mono hle

theorem Inv.handlings_mono {s : Network} {w' : World} (h : Inv ecdh chatId floor s w)
    (hle : w ≤ w') : ∀ h ∈ s.handlings, h.program.Meets (routeContract ecdh chatId (h.floor floor))
      (Replied ecdh chatId (h.floor floor) h.request) w' :=
  fun handling hmem => Program.Meets.mono (fun _ _ _ _ => routeContract_allowed_mono)
    (fun _ _ _ => Replied.mono) hle (h.handlings handling hmem)

theorem Inv.started_mono {s : Network} {w' : World} (h : Inv ecdh chatId floor s w) (hle : w ≤ w')
    (i : ℕ) : floor i ≤ w'.epoch := Nat.le_trans (h.started i) hle.1

theorem Inv.submit {s : Network} (h : Inv ecdh chatId floor s w) {user : UserId} {r : Request}
    {replyTo : Option (ℕ × ℕ)} {g : ℕ} (hreplyTo : ∀ p ∈ replyTo, p.1 < s.tasks.length)
    (hr : (clientContract ecdh chatId (replyTo.elim 0 fun p => floor p.1)).allowed w (.server r) g) :
    Inv ecdh chatId floor (s.submit ecdh user r replyTo) w where
  chat := h.chat
  fresh := h.fresh
  started := h.started
  tasks := h.tasks
  handlings handling hmem := by
    rcases List.mem_append.1 hmem with hmem | hmem
    · exact h.handlings handling hmem
    · obtain rfl := List.mem_singleton.1 hmem
      refine route_meets ?_ hr
      cases replyTo with
      | none => exact Nat.zero_le _
      | some p => exact h.started p.1
  replyTo handling hmem := by
    rcases List.mem_append.1 hmem with hmem | hmem
    · exact h.replyTo handling hmem
    · obtain rfl := List.mem_singleton.1 hmem
      exact hreplyTo

/-- A task may go on with a program that behaves. -/
theorem Inv.setTask {s : Network} (h : Inv ecdh chatId floor s w) (i : ℕ) {task : Task}
    (htask : Behaves ecdh chatId (floor i) task.program w) :
    Inv ecdh chatId floor { s with tasks := s.tasks.set i task } w where
  chat := h.chat
  fresh := h.fresh
  started := h.started
  tasks j task' hj := by
    by_cases hij : i = j
    · subst hij
      rw [List.getElem?_set_self' ] at hj
      obtain ⟨_, -, rfl⟩ := Option.map_eq_some_iff.1 hj
      exact htask
    · rw [List.getElem?_set_ne hij] at hj
      exact h.tasks j task' hj
  handlings := h.handlings
  replyTo handling hmem p hp := by
    rw [List.length_set]
    exact h.replyTo handling hmem p hp

/-- The program of a request may go on, within its contract. -/
theorem Inv.setHandling {s : Network} (h : Inv ecdh chatId floor s w) (i : ℕ)
    {handling : Handling} (hi : s.handlings[i]? = some handling)
    {program : Query handling.request.Reply}
    (hprogram : program.Meets (routeContract ecdh chatId (handling.floor floor))
      (Replied ecdh chatId (handling.floor floor) handling.request) w) :
    Inv ecdh chatId floor { s with handlings := s.handlings.set i { handling with program } } w where
  chat := h.chat
  fresh := h.fresh
  started := h.started
  tasks := h.tasks
  handlings handling' hmem := by
    rcases List.mem_or_eq_of_mem_set hmem with hmem | rfl
    exacts [h.handlings handling' hmem, hprogram]
  replyTo handling' hmem := by
    rcases List.mem_or_eq_of_mem_set hmem with hmem | rfl
    exacts [h.replyTo handling' hmem, h.replyTo handling (List.mem_of_getElem? hi)]

/-- The next key is to be minted for whatever its generator needs it for. -/
theorem Inv.generate {s : Network} (h : Inv ecdh chatId floor s w) (e : ℕ) :
    ∃ w', w ≤ w' ∧ w'.target s.nextKey = some e ∧
      Inv ecdh chatId floor { s with nextKey := s.nextKey + 1 } w' := by
  have hnone : w.target s.nextKey = none := h.fresh _ (Nat.le_refl _)
  let w' : World := { w with target := Function.update w.target s.nextKey (some e) }
  have htarget : ∀ k ≠ s.nextKey, w'.target k = w.target k := fun k hk => Function.update_of_ne hk _ _
  have hkeep : ∀ k e', w.target k = some e' → w'.target k = some e' := fun k e' hk => by
    rw [htarget k fun h => by rw [h, hnone] at hk; cases hk]
    exact hk
  have hle : w ≤ w' := ⟨Nat.le_refl _, fun _ _ hm => hm, hkeep⟩
  refine ⟨w', hle, Function.update_self .., ?_, fun k hk => ?_, h.started_mono hle, h.tasks_mono hle,
    h.handlings_mono hle, h.replyTo⟩
  · exact {
      id := h.chat.id
      epoch := h.chat.epoch
      lastClaim := h.chat.lastClaim
      minted := fun e m hm => ⟨(h.chat.minted e m hm).1, hkeep _ _ (h.chat.minted e m hm).2⟩
      row := fun u => (h.chat.row u).mono ecdh chatId hle
      accepted := fun wrap hw => (h.chat.accepted wrap hw).mono hle }
  · rw [htarget k (Nat.ne_of_gt hk)]
    exact h.fresh k (Nat.le_of_succ_le hk)

/-- A client sets out to do a job. -/
theorem Inv.start {s : Network} (h : Inv ecdh chatId floor s w) {user : UserId} {jwk : Jwk}
    (hjwk : ecdh user = some jwk) (job : Job) :
    Inv ecdh chatId floor { s with
      tasks := s.tasks ++ [⟨user, job.program ⟨s.chat.id, user, jwk⟩, 0, false⟩] } w where
  chat := h.chat
  fresh := h.fresh
  started := h.started
  tasks i task hi := by
    dsimp only at hi
    rw [List.getElem?_append] at hi
    split_ifs at hi
    · exact h.tasks i task hi
    · obtain rfl := List.mem_singleton.1 (List.mem_of_getElem? hi)
      exact job_behaves ⟨h.chat.id, hjwk⟩ job w
  handlings := h.handlings
  replyTo handling hmem p hp := by
    rw [List.length_append]
    exact Nat.lt_add_right _ (h.replyTo handling hmem p hp)

/-- Every step keeps the rows good, in a world that may have grown. -/
theorem inv_step {s s' : Network} {ev : NetworkEvent} (h : Inv ecdh chatId floor s w)
    (hs : (group ecdh).step s ev = some s') : ∃ w', w ≤ w' ∧ Inv ecdh chatId floor s' w' := by
  cases ev with
  | request user r =>
    simp only [group] at hs
    split_ifs at hs with hr
    obtain rfl := Option.some.inj hs
    refine ⟨w, le_refl w, h.submit (g := 0) (fun _ hp => by cases hp) ?_⟩
    cases r <;> trivial
  | start user job =>
    simp only [group] at hs
    cases hjwk : ecdh user with
    | none => simp [hjwk] at hs
    | some jwk =>
      rw [hjwk] at hs
      obtain rfl := Option.some.inj hs
      exact ⟨w, le_refl w, h.start hjwk job⟩
  | send i =>
    simp only [group] at hs
    split at hs <;> try cases hs
    rename_i task hi
    split at hs <;> cases hs
    rename_i r next hprogram _
    have htask := h.tasks i task hi
    obtain ⟨g, hallowed, -⟩ : Behaves ecdh chatId (floor i) (.ask (.server r) next) w :=
      hprogram ▸ htask
    have hsubmit : Inv ecdh chatId floor (s.submit ecdh task.user r (some (i, task.sent + 1))) w := by
      refine h.submit (fun p hp => ?_) hallowed
      obtain rfl := Option.some.inj hp
      exact (List.getElem?_eq_some_iff.1 hi).1
    exact ⟨w, le_refl w, hsubmit.setTask i htask⟩
  | trust i trusted =>
    simp only [group] at hs
    split at hs <;> try cases hs
    rename_i task hi
    split at hs <;> cases hs
    rename_i u jwk next hprogram
    have htask := h.tasks i task hi
    rw [hprogram] at htask
    obtain ⟨g, -, hnext⟩ := htask
    exact ⟨w, le_refl w, h.setTask i (hnext w (le_refl w) trusted trivial)⟩
  | generate i =>
    simp only [group] at hs
    split at hs <;> try cases hs
    rename_i task hi
    split at hs <;> cases hs
    rename_i next hprogram
    have htask := h.tasks i task hi
    rw [hprogram] at htask
    obtain ⟨g, -, hnext⟩ := htask
    obtain ⟨w', hle, htarget, h'⟩ := h.generate g
    exact ⟨w', hle, h'.setTask i (hnext w' hle s.nextKey htarget)⟩
  | serve i =>
    simp only [group] at hs
    split at hs <;> try cases hs
    rename_i handling hi
    split at hs <;> cases hs
    rename_i q next hprogram
    have hhandling := h.handlings handling (List.mem_of_getElem? hi)
    rw [hprogram] at hhandling
    obtain ⟨g, hallowed, hnext⟩ := hhandling
    obtain ⟨w', hle, htarget, hchat, hanswered⟩ := h.chat.exec hallowed
    have h' : Inv ecdh chatId floor { s with chat := (q.exec s.chat).2 } w' :=
      ⟨hchat, fun k hk => htarget ▸ h.fresh k hk, h.started_mono hle, h.tasks_mono hle,
        h.handlings_mono hle, h.replyTo⟩
    exact ⟨w', hle, h'.setHandling i hi (hnext w' hle _ hanswered)⟩
  | reply i =>
    simp only [group] at hs
    split at hs <;> try cases hs
    rename_i handling hi
    split at hs <;> try cases hs
    rename_i response j n hdone hreplyTo
    split at hs <;> try cases hs
    rename_i task hj
    split at hs <;> try cases hs
    rename_i r next hprogram
    split_ifs at hs with hr
    cases hs
    have hhandling := h.handlings handling (List.mem_of_getElem? hi)
    rw [hdone, Handling.floor, hreplyTo] at hhandling
    have htask := h.tasks j task hj
    rw [hprogram] at htask
    obtain ⟨g, -, hnext⟩ := htask
    subst hr
    exact ⟨w, le_refl w, h.setTask j (hnext w (le_refl w) _ (replied_answered g hhandling))⟩
  | fail i =>
    simp only [group] at hs
    split at hs <;> try cases hs
    rename_i task hi
    split at hs <;> cases hs
    rename_i r next hprogram _
    have htask := h.tasks i task hi
    rw [hprogram] at htask
    obtain ⟨g, -, hnext⟩ := htask
    exact ⟨w, le_refl w, h.setTask i (hnext w (le_refl w) r.lost (lost_answered g))⟩

/-- What a run does to a state with good rows. -/
theorem inv_run {s s' : Network} {es : List NetworkEvent} (h : Inv ecdh chatId floor s w)
    (hrun : (group ecdh).run s es = some s') : ∃ w', w ≤ w' ∧ Inv ecdh chatId floor s' w' := by
  induction es generalizing s w with
  | nil => exact ⟨w, le_refl w, Option.some.inj hrun ▸ h⟩
  | cons e es ih =>
    obtain ⟨t, ht, hrun⟩ := Machine.run_cons_eq_some.1 hrun
    obtain ⟨w₁, h₁, hinv⟩ := inv_step h ht
    obtain ⟨w₂, h₂, hinv'⟩ := ih hinv hrun
    exact ⟨w₂, le_trans h₁ h₂, hinv'⟩

end

/-! ## The reachable states -/

/-- The rows of the creation are of the key number 0, minted for the epoch 0. -/
theorem inv_init {s : Network} (hs : (group ecdh).init s) :
    ∃ chatId w, Inv ecdh chatId (fun _ => 0) s w := by
  obtain ⟨id, creator, creatorJwk, ids, hnodup, hmem, hcreator, hids, rfl⟩ := hs
  let w : World := ⟨0, fun e => if e = 0 then some ⟨0, creatorJwk⟩ else none,
    fun k => if k = 0 then some 0 else none⟩
  refine ⟨id, w, ⟨rfl, rfl, Nat.le_refl _, fun e m hm => ?_, fun u wrap hwrap => ?_,
    fun wrap hwrap => ?_⟩, fun k hk => ?_, fun _ => Nat.zero_le _, fun i task hi => ?_,
    fun _ h => ?_, fun _ h => ?_⟩
  · simp only [w] at hm
    split_ifs at hm with he
    obtain rfl := Option.some.inj hm
    exact ⟨Nat.le_of_eq he, by simp [w, he]⟩
  · rw [Chat.row] at hwrap
    obtain ⟨m, hm, hkey⟩ := Option.bind_eq_some_iff.1 hwrap
    obtain ⟨userId, huser, heq⟩ := List.mem_map.1 (InsMap.get?_eq_some_iff.1 hm)
    obtain ⟨jwk, hjwk⟩ := Option.isSome_iff_exists.1 (hids userId huser)
    cases heq
    obtain rfl := Option.some.inj hkey
    exact ⟨rfl, jwk, hjwk, rfl, congrArg (·.getD 0) hjwk, rfl⟩
  · obtain ⟨userId, -, rfl⟩ := List.mem_map.1 hwrap
    rfl
  · exact if_neg (Nat.ne_of_gt hk)
  · cases hi
  · cases h
  · cases h

/-- In every reachable state the rows are good, in some world. -/
theorem exists_inv {s : Network} (hs : (group ecdh).Reachable s) :
    ∃ chatId w, Inv ecdh chatId (fun _ => 0) s w := by
  induction hs with
  | init h => exact inv_init h
  | step _ hstep ih =>
    obtain ⟨chatId, w, h⟩ := ih
    obtain ⟨w', -, h'⟩ := inv_step h hstep
    exact ⟨chatId, w', h'⟩

/-- The wraps of a chat: those stored, and those written at any time. -/
def Chat.wraps (chat : Chat) : List SectorKeyAuthWrap :=
  (chat.members.entries.filterMap fun p => p.2.encryptedGroupKey) ++ chat.accepted

theorem ChatInv.good {chatId : ChatId} {chat : Chat} {w : World} (h : ChatInv ecdh chatId chat w)
    {wrap : SectorKeyAuthWrap} (hwrap : wrap ∈ chat.wraps) : wrap.Good w := by
  rcases List.mem_append.1 hwrap with hwrap | hwrap
  · obtain ⟨⟨u, m⟩, hmem, hkey⟩ := List.mem_filterMap.1 hwrap
    refine (h.row u wrap ?_).1
    rw [Chat.row, InsMap.get?_eq_some_iff.2 hmem]
    exact hkey
  · exact h.accepted wrap hwrap

theorem ChatInv.stamp_le {chatId : ChatId} {chat : Chat} {w : World}
    (h : ChatInv ecdh chatId chat w) {wrap : SectorKeyAuthWrap} (hgood : wrap.Good w) :
    wrap.stamp ≤ chat.lastClaim :=
  (h.minted _ _ hgood).1

/-- One key per stamp: in every reachable state, two wraps stored or ever accepted with one
    stamp are of one key, and no stamp exceeds the epoch. -/
theorem key_eq_of_stamp_eq {s : Network} (hs : (group ecdh).Reachable s) :
    ∀ wrap ∈ s.chat.wraps, wrap.stamp ≤ s.chat.keyEpoch ∧
      ∀ wrap' ∈ s.chat.wraps, wrap.stamp = wrap'.stamp → wrap.key = wrap'.key := by
  obtain ⟨chatId, w, h⟩ := exists_inv hs
  intro wrap hwrap
  have hgood := h.chat.good hwrap
  refine ⟨Nat.le_trans (h.chat.stamp_le hgood) h.chat.lastClaim, fun wrap' hwrap' hstamp => ?_⟩
  have hgood' := h.chat.good hwrap'
  rw [SectorKeyAuthWrap.Good, hstamp, hgood'] at hgood
  exact (congrArg Mint.key (Option.some.inj hgood)).symm

/-! ### A run -/

/-- An ECDH key for every user. -/
def jwks (userId : UserId) : Option Jwk := some (10 + userId)

/-- The user 1 has created a chat with the user 3. -/
def created : Network := ⟨createdChat jwks 7 1 11 [1, 3] (by decide), 1, [], []⟩

theorem created_reachable : (group jwks).Reachable created :=
  .init ⟨7, 1, 11, [1, 3], by decide, by decide, rfl, fun _ _ => rfl, rfl⟩

/-- A task sends a request, the server runs as many statements as its route has, and the
    response arrives. -/
def roundTrip (task handling statements : ℕ) : List NetworkEvent :=
  .send task :: (List.replicate statements (.serve handling) ++ [.reply handling])

/-- The user 2 joins, and a session of the owner rotates the key: the uploads for the
    users 1 and 3 succeed, and the one for 2 is held up before its write. -/
def heldUpEvents : List NetworkEvent :=
  [.request 2 .joinChat, .serve 0, .serve 0, .serve 0, .start 1 .rotateIfStale] ++
    roundTrip 0 1 3 ++ roundTrip 0 2 3 ++ [.generate 0] ++
    [.trust 0 true] ++ roundTrip 0 3 5 ++ [.trust 0 true] ++ roundTrip 0 4 4 ++
    [.trust 0 true, .send 0, .serve 5, .serve 5, .serve 5]

theorem key_eq_of_stamp_eq_heldUp : ∃ s, (group jwks).run created heldUpEvents = some s ∧
    boundWrap 11 11 1 2 ⟨7, 1⟩ ∈ s.chat.wraps ∧ 2 ≤ s.chat.keyEpoch ∧
      ∀ wrap' ∈ s.chat.wraps, 2 = wrap'.stamp → 1 = wrap'.key := by
  have h : ((group jwks).run created heldUpEvents).map
      (fun s => decide (boundWrap 11 11 1 2 ⟨7, 1⟩ ∈ s.chat.wraps)) = some true := by
    decide +kernel
  obtain ⟨s, hs, hmem⟩ := Option.map_eq_some_iff.1 h
  have hmem := of_decide_eq_true hmem
  exact ⟨s, hs, hmem, key_eq_of_stamp_eq (created_reachable.run hs) _ hmem⟩

end OneToThree.Group
