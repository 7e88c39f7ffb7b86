import OneToThree.Group.Stamps

/-!
# Late uploads

Only the first upload of a rotation is guarded by the compare-and-swap. A later one, or
one of a reconciliation, may be held up until a newer rotation is through, and then puts
an older key back into a row (`late_upload`).

In the runs in which every upload lands before a rotation to a later epoch has claimed
the chat (`inTime`), no row goes back, and what a task has written that started after a
kick never gives way to a key from before the kick (`rows_advance`).
-/

namespace OneToThree.Group

variable {ecdh : UserId → Option Jwk}

namespace Network

variable (s : Network)

/-- The task that a request at the server is of. -/
def taskOf (i : ℕ) : Option ℕ := (s.handlings[i]?.bind Handling.replyTo).map Prod.fst

/-- A wrap is written while no later epoch is claimed than the one it is stamped with. -/
def inTime : NetworkEvent → Bool
  | .serve i =>
    match s.nextStatement i with
    | some (.writeKey _ wrap) => s.chat.lastClaim ≤ wrap.stamp
    | _ => true
  | _ => true

end Network

/-- The machine whose uploads are in time. -/
abbrev groupInTime (ecdh : UserId → Option Jwk) : Machine Network NetworkEvent :=
  (group ecdh).restrict fun s ev => s.inTime ev

/-! ## The rows under one step -/

/-- What a step that is in time makes of a row: it stays, it goes, or a wrap takes its place
    whose stamp is not behind the last claim. -/
theorem inTime_step {s s' : Network} {ev : NetworkEvent} (hs : (groupInTime ecdh).step s ev = some s')
    (hclaim : s.chat.lastClaim ≤ s.chat.keyEpoch) (u : UserId) :
    s.chat.lastClaim ≤ s'.chat.lastClaim ∧ ∀ wrap ∈ s'.chat.row u,
      wrap ∈ s.chat.row u ∨ s.chat.lastClaim ≤ wrap.stamp := by
  obtain ⟨hok, hs⟩ := Machine.restrict_step.1 hs
  rcases step_chat hs with hchat | ⟨i, q, rfl, hq, hchat⟩ <;> rw [hchat]
  · exact ⟨Nat.le_refl _, fun _ h => .inl h⟩
  by_cases hplain : q.IsPlain
  · have hkept := exec_kept s.chat hplain
    refine ⟨Nat.le_of_eq hkept.lastClaim.symm, fun wrap hwrap => ?_⟩
    rcases hkept.row u with hrow | hrow <;> rw [hrow] at hwrap
    · exact .inl hwrap
    · cases hwrap
  · cases q with
    | claimEpoch claim =>
      simp only [Statement.exec]
      split_ifs
      · exact ⟨Nat.le_succ_of_le hclaim, fun _ h => .inl h⟩
      · exact ⟨Nat.le_refl _, fun _ h => .inl h⟩
    | writeKey userId wrap =>
      have hstamp : s.chat.lastClaim ≤ wrap.stamp := by simpa [Network.inTime, hq] using hok
      refine ⟨?_, fun wrap' hwrap' => ?_⟩
      · exact Nat.le_of_eq (by rw [Statement.exec, s.chat.writeKey_eq])
      · rw [Statement.exec, s.chat.row_write] at hwrap'
        split_ifs at hwrap'
        · obtain rfl := Option.some.inj hwrap'
          exact .inr hstamp
        · exact .inl hwrap'
    | _ => exact (hplain trivial).elim

/-- From the epoch `N` on the row of `u` is not behind it. -/
structure NotBehind (N : ℕ) (u : UserId) (chat : Chat) : Prop where
  claimed : N ≤ chat.lastClaim
  row : ∀ wrap ∈ chat.row u, N ≤ wrap.stamp

theorem NotBehind.step {N : ℕ} {u : UserId} {s s' : Network} {ev : NetworkEvent}
    (hs : (groupInTime ecdh).step s ev = some s') (hclaim : s.chat.lastClaim ≤ s.chat.keyEpoch)
    (h : NotBehind N u s.chat) : NotBehind N u s'.chat := by
  obtain ⟨hle, hrow⟩ := inTime_step hs hclaim u
  refine ⟨Nat.le_trans h.claimed hle, fun wrap hwrap => ?_⟩
  rcases hrow wrap hwrap with hwrap | hstamp
  · exact h.row wrap hwrap
  · exact Nat.le_trans h.claimed hstamp

theorem NotBehind.run {N : ℕ} {u : UserId} {s s' : Network} {es : List NetworkEvent}
    (hreach : (groupInTime ecdh).Reachable s) (hs : (groupInTime ecdh).run s es = some s')
    (h : NotBehind N u s.chat) : NotBehind N u s'.chat := by
  induction es generalizing s with
  | nil => exact Option.some.inj hs ▸ h
  | cons ev es ih =>
    obtain ⟨t, ht, hs⟩ := Machine.run_cons_eq_some.1 hs
    obtain ⟨chatId, w, hinv⟩ := exists_inv hreach.of_restrict
    exact ih (hreach.step ht) hs (h.step ht hinv.chat.lastClaim)

/-! ## Tasks after a kick -/

/-- The tasks that have not started yet will not have started before the current epoch. -/
theorem Inv.refloor {chatId : ChatId} {s : Network} {w : World}
    (h : Inv ecdh chatId (fun _ => 0) s w) :
    Inv ecdh chatId (fun i => if s.tasks.length ≤ i then s.chat.keyEpoch else 0) s w where
  chat := h.chat
  fresh := h.fresh
  started i := by
    split_ifs
    exacts [Nat.le_of_eq h.chat.epoch, Nat.zero_le _]
  tasks i task hi := by
    rw [if_neg (Nat.not_le_of_lt (List.getElem?_eq_some_iff.1 hi).1)]
    exact h.tasks i task hi
  handlings handling hmem := by
    have hfloor : (handling.floor fun i => if s.tasks.length ≤ i then s.chat.keyEpoch else 0) =
        handling.floor fun _ => 0 := by
      unfold Handling.floor
      cases hreplyTo : handling.replyTo with
      | none => rfl
      | some p => exact if_neg (Nat.not_le_of_lt (h.replyTo handling hmem p hreplyTo))
    rw [hfloor]
    exact h.handlings handling hmem
  replyTo := h.replyTo

/-- A wrap that is about to be written is good, and not behind the start of its task. -/
theorem Inv.nextWrite {chatId : ChatId} {floor : ℕ → ℕ} {s : Network} {w : World}
    (h : Inv ecdh chatId floor s w) {j task : ℕ} {u : UserId} {wrap : SectorKeyAuthWrap}
    (htask : s.taskOf j = some task) (hwrite : s.nextStatement j = some (.writeKey u wrap)) :
    floor task ≤ wrap.stamp ∧ wrap.Good w := by
  unfold Network.nextStatement at hwrite
  split at hwrite
  · cases hwrite
  rename_i handling hj
  split at hwrite <;> cases hwrite
  rename_i next hprogram
  have hmeets := h.handlings handling (List.mem_of_getElem? hj)
  rw [hprogram] at hmeets
  obtain ⟨-, ⟨hstamp, -, hgood⟩, -⟩ := hmeets
  simp only [Network.taskOf, hj, Option.bind_some] at htask
  obtain ⟨p, hp, rfl⟩ := Option.map_eq_some_iff.1 htask
  rw [Handling.floor, hp] at hstamp
  exact ⟨hstamp, hgood⟩

/-- After that write, the row is not behind the start of the task. -/
theorem NotBehind.of_write {chatId : ChatId} {floor : ℕ → ℕ} {s s' : Network} {w : World}
    (h : Inv ecdh chatId floor s w) {j task : ℕ} {u : UserId} {wrap : SectorKeyAuthWrap}
    (htask : s.taskOf j = some task) (hwrite : s.nextStatement j = some (.writeKey u wrap))
    (hs : (groupInTime ecdh).step s (.serve j) = some s') : NotBehind (floor task) u s'.chat := by
  obtain ⟨hstamp, hgood⟩ := h.nextWrite htask hwrite
  have hclaimed : floor task ≤ s.chat.lastClaim := Nat.le_trans hstamp (h.chat.stamp_le hgood)
  refine ⟨Nat.le_trans hclaimed (inTime_step hs h.chat.lastClaim u).1, fun wrap' hwrap' => ?_⟩
  obtain ⟨q, hq, hchat⟩ := serve_chat (Machine.restrict_step.1 hs).2
  obtain rfl := Option.some.inj (hwrite.symm.trans hq)
  rw [hchat] at hwrap'
  rw [Chat.eq_of_mem_row_write hwrap']
  exact hstamp

/-- The keys minted after an epoch are not those minted before. -/
theorem ChatInv.key_ne {chatId : ChatId} {chat : Chat} {w : World} (h : ChatInv ecdh chatId chat w)
    {wrap wrap' : SectorKeyAuthWrap} (hgood : wrap.Good w) (hgood' : wrap'.Good w)
    (hlt : wrap.stamp < wrap'.stamp) : wrap.key ≠ wrap'.key := by
  intro hkey
  have htarget : w.target wrap.key = some wrap.stamp := (h.minted _ _ hgood).2
  have htarget' : w.target wrap'.key = some wrap'.stamp := (h.minted _ _ hgood').2
  rw [← hkey, htarget] at htarget'
  exact Nat.ne_of_lt hlt (Option.some.inj htarget')

/-! ## Runs -/

/-- In the runs whose uploads are all in time, no row is replaced by one of a lower stamp. And
    once a task that started after a kick has written a row, the row never again holds a key
    of a wrap accepted before the kick, whoever that wrap was for. -/
theorem rows_advance {s : Network} (hs : (groupInTime ecdh).Reachable s) :
    (∀ ev s', (groupInTime ecdh).step s ev = some s' → ∀ u, ∀ wrap ∈ s.chat.row u,
      ∀ wrap' ∈ s'.chat.row u, wrap.stamp ≤ wrap'.stamp) ∧
    ∀ i kicked s₁, s.nextStatement i = some (.removeMember kicked) →
      (groupInTime ecdh).step s (.serve i) = some s₁ →
      ∀ es s₂, (groupInTime ecdh).run s₁ es = some s₂ →
      ∀ j task u wrap s₃, s₂.taskOf j = some task → s₁.tasks.length ≤ task →
      s₂.nextStatement j = some (.writeKey u wrap) →
      (groupInTime ecdh).step s₂ (.serve j) = some s₃ →
      ∀ es' s₄, (groupInTime ecdh).run s₃ es' = some s₄ →
      ∀ wrap' ∈ s₄.chat.row u, ∀ given ∈ s.chat.wraps, given.key ≠ wrap'.key := by
  obtain ⟨chatId, w, h⟩ := exists_inv hs.of_restrict
  refine ⟨fun ev s' hstep u wrap hwrap wrap' hwrap' => ?_, ?_⟩
  · rcases (inTime_step hstep h.chat.lastClaim u).2 wrap' hwrap' with hsame | hstamp
    · exact Nat.le_of_eq (congrArg _ (Option.some.inj (hwrap.symm.trans hsame)))
    · exact Nat.le_trans (h.chat.stamp_le (h.chat.row u wrap hwrap).1) hstamp
  · intro i kicked s₁ hkick h₁ es s₂ h₂ j task u wrap s₃ htask hstarted hwrite h₃ es' s₄ h₄ wrap'
      hwrap' given hgiven
    have hgood := h.chat.good hgiven
    -- The kick moves the epoch beyond the stamps of all the wraps so far.
    obtain ⟨q, hq, hchat⟩ := serve_chat (Machine.restrict_step.1 h₁).2
    obtain rfl := Option.some.inj (hkick.symm.trans hq)
    have hlt : given.stamp < s₁.chat.keyEpoch := by
      rw [hchat]
      exact Nat.lt_succ_of_le (Nat.le_trans (h.chat.stamp_le hgood) h.chat.lastClaim)
    obtain ⟨w₁, hle₁, hinv₁⟩ := inv_step h (Machine.restrict_step.1 h₁).2
    obtain ⟨w₂, hle₂, hinv₂⟩ := inv_run hinv₁.refloor (Machine.run_of_restrict h₂)
    obtain ⟨w₃, hle₃, hinv₃⟩ := inv_step hinv₂ (Machine.restrict_step.1 h₃).2
    obtain ⟨w₄, hle₄, hinv₄⟩ := inv_run hinv₃ (Machine.run_of_restrict h₄)
    have hle : w ≤ w₄ := le_trans hle₁ (le_trans hle₂ (le_trans hle₃ hle₄))
    have hrow : NotBehind s₁.chat.keyEpoch u s₃.chat := by
      have := NotBehind.of_write hinv₂ htask hwrite h₃
      rwa [if_pos hstarted] at this
    have hstamp := (hrow.run (((hs.step h₁).run h₂).step h₃) h₄).row wrap' hwrap'
    exact hinv₄.chat.key_ne (hgood.mono hle) (hinv₄.chat.row u wrap' hwrap').1
      (Nat.lt_of_lt_of_le hlt hstamp)

/-! ### Two rotations -/

/-- The owner kicks the user 3, up to the deletion. -/
def kickEvents : List NetworkEvent :=
  [.request 1 (.kick 3), .serve 6, .serve 6, .serve 6]

/-- A second session rotates the key, up to the write of the row of the user 1. -/
def secondEvents : List NetworkEvent :=
  .start 1 .rotateIfStale :: (roundTrip 1 7 3 ++ roundTrip 1 8 3 ++ [.generate 1, .trust 1 true,
    .send 1, .serve 9, .serve 9, .serve 9, .serve 9])

theorem rows_advance_second : ∃ s s₁ s₂ s₃,
    (groupInTime jwks).run created (heldUpEvents ++ [.serve 5, .reply 5] ++ kickEvents) = some s ∧
      (groupInTime jwks).step s (.serve 6) = some s₁ ∧
      (groupInTime jwks).run s₁ secondEvents = some s₂ ∧
      (groupInTime jwks).step s₂ (.serve 9) = some s₃ ∧
      s₃.chat.row 1 = some (boundWrap 11 11 2 4 ⟨7, 1⟩) ∧ ∀ given ∈ s.chat.wraps, given.key ≠ 2 := by
  let write := Statement.writeKey 1 (boundWrap 11 11 2 4 ⟨7, 1⟩)
  have h : (((groupInTime jwks).run created
      (heldUpEvents ++ [.serve 5, .reply 5] ++ kickEvents)).bind fun s =>
        ((groupInTime jwks).step s (.serve 6)).bind fun s₁ =>
          ((groupInTime jwks).run s₁ secondEvents).bind fun s₂ =>
            ((groupInTime jwks).step s₂ (.serve 9)).map fun s₃ =>
              decide (s.nextStatement 6 = some (.removeMember 3) ∧ s₂.taskOf 9 = some 1 ∧
                s₁.tasks.length ≤ 1 ∧ s₂.nextStatement 9 = some write ∧
                s₃.chat.row 1 = some (boundWrap 11 11 2 4 ⟨7, 1⟩))) = some true := by
    decide +kernel
  obtain ⟨s, hs, h⟩ := Option.bind_eq_some_iff.1 h
  obtain ⟨s₁, hs₁, h⟩ := Option.bind_eq_some_iff.1 h
  obtain ⟨s₂, hs₂, h⟩ := Option.bind_eq_some_iff.1 h
  obtain ⟨s₃, hs₃, h⟩ := Option.map_eq_some_iff.1 h
  obtain ⟨hkick, htask, hstarted, hwrite, hrow⟩ := of_decide_eq_true h
  have hcreated : (groupInTime jwks).Reachable created :=
    .init ⟨7, 1, 11, [1, 3], by decide, by decide, rfl, fun _ _ => rfl, rfl⟩
  exact ⟨s, s₁, s₂, s₃, hs, hs₁, hs₂, hs₃, hrow, (rows_advance (hcreated.run hs)).2 6 3 s₁ hkick hs₁
    secondEvents s₂ hs₂ 9 1 1 _ s₃ htask hstarted hwrite hs₃ [] s₃ rfl _ hrow⟩

/-- The upload held up by the first session lands after the second rotation: the row of the
    user 2 goes back from the epoch 4 to the epoch 2, and to the key of the user 3, who has
    been kicked. -/
theorem late_upload : ∃ s s', (group jwks).Reachable s ∧
    (group jwks).step s (.serve 5) = some s' ∧
    s.chat.row 2 = some (boundWrap 11 12 2 4 ⟨7, 2⟩) ∧
    s'.chat.row 2 = some (boundWrap 11 12 1 2 ⟨7, 2⟩) ∧
    boundWrap 11 13 1 2 ⟨7, 3⟩ ∈ s.chat.accepted ∧ s.chat.members.has 3 = false := by
  have h : (((group jwks).run created (heldUpEvents ++ kickEvents ++ [.serve 6] ++ secondEvents ++
      [.serve 9, .reply 9, .trust 1 true] ++ roundTrip 1 10 4)).bind fun s =>
        ((group jwks).step s (.serve 5)).map fun s' =>
          decide (s.chat.row 2 = some (boundWrap 11 12 2 4 ⟨7, 2⟩) ∧
            s'.chat.row 2 = some (boundWrap 11 12 1 2 ⟨7, 2⟩) ∧
            boundWrap 11 13 1 2 ⟨7, 3⟩ ∈ s.chat.accepted ∧ s.chat.members.has 3 = false)) =
        some true := by
    decide +kernel
  obtain ⟨s, hs, h⟩ := Option.bind_eq_some_iff.1 h
  obtain ⟨s', hs', h⟩ := Option.map_eq_some_iff.1 h
  exact ⟨s, s', created_reachable.run hs, hs', of_decide_eq_true h⟩

end OneToThree.Group
