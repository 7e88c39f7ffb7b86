import OneToThree.Devices.Sessions

/-!
# The master device

The first device of a user is the master, and another one may be promoted in its place. The
routes that revoke a device by its id and reauthorize it read the master flag, in a statement
of their own; those that revoke sessions do not, nor does the promotion look at the device
again that it has read. Who is the first device is read before the row is inserted.

`oneMaster_of_run`: along a run in which no statement revokes a master, promotes a revoked
device or inserts a second master (`KeepsMaster`), at most one device is master, and it is not
revoked. `oneMaster_answer_iff`: no other statement keeps that.
-/

namespace OneToThree.DeviceSessions

/-- At most one device is master, and it is not revoked. -/
structure OneMaster (s : Store) : Prop where
  unique : s.devices.countP (·.isMaster) ≤ 1
  live : ∀ d ∈ s.devices, d.isMaster → d.revokedAt = none

/-- The statements that keep the master: a master is inserted where there is none, a device
    that is promoted is not revoked, and a device that is revoked is not the master. -/
def KeepsMaster (s : Store) : Statement → Prop
  | .insert browser isMaster => s.hasKey browser.clientKey = false → isMaster →
    ∀ d ∈ s.devices, d.isMaster = false
  | .promote deviceId => ∀ d ∈ s.devices, d.id = deviceId → d.revokedAt = none
  | .revoke deviceId | .forceRevoke deviceId =>
    ∀ d ∈ s.devices, d.id = deviceId → d.isMaster = false
  | .revokeAll currentDeviceId =>
    ∀ d ∈ s.devices, currentDeviceId ≠ some d.id → d.isMaster = false
  | _ => True

instance (s : Store) : ∀ q, Decidable (KeepsMaster s q)
  | .insert _ _ => inferInstanceAs (Decidable (_ → _ → ∀ d ∈ s.devices, _))
  | .promote _ | .revoke _ | .forceRevoke _ | .revokeAll _ =>
    inferInstanceAs (Decidable (∀ d ∈ s.devices, _ → _))
  | .selectByKey _ | .selectById _ | .touch _ _ | .countLive | .count | .reauthorize _
  | .deleteRevoked | .deleteOthers _ | .link _ | .list | .elapse _ => isTrue trivial

/-- The ids of the rows are different, and were given before. -/
structure Ids (s : Store) : Prop where
  nodup : (s.devices.map (·.id)).Nodup
  lt : ∀ d ∈ s.devices, d.id < s.nextId

/-! ## The rows -/

section
variable {s : Store} {p : Device → Bool} {f : Device → Device}

theorem mem_update {d : Device} :
    d ∈ (s.update p f).devices ↔ ∃ e ∈ s.devices, (if p e then f e else e) = d := List.mem_map

/-- An update that keeps the ids. -/
theorem Ids.update (h : Ids s) (hf : ∀ d, (f d).id = d.id) : Ids (s.update p f) := by
  have hid : ∀ d, (if p d then f d else d).id = d.id := by
    intro d
    split_ifs
    · exact hf d
    · rfl
  refine ⟨?_, fun d hd => ?_⟩
  · rw [Store.update, List.map_map]
    exact (List.map_congr_left fun d _ => hid d) ▸ h.nodup
  · obtain ⟨e, he, rfl⟩ := mem_update.1 hd
    rw [hid]
    exact h.lt e he

theorem Ids.delete (h : Ids s) : Ids (s.delete p) :=
  ⟨h.nodup.sublist (List.filter_sublist.map _), fun d hd => h.lt d (List.mem_of_mem_filter hd)⟩

theorem Ids.add (h : Ids s) (browser : Browser) (isMaster : Bool) :
    Ids (s.add (s.newDevice browser isMaster)) := by
  refine ⟨?_, fun d hd => ?_⟩
  · rw [Store.add, List.map_append, List.nodup_append]
    refine ⟨h.nodup, List.nodup_singleton _, fun i hi j hj hij => ?_⟩
    obtain ⟨d, hd, rfl⟩ := List.mem_map.1 hi
    obtain rfl := List.mem_singleton.1 hj
    exact absurd hij (Nat.ne_of_lt (h.lt d hd))
  · rcases List.mem_append.1 hd with hd | hd
    · exact Nat.lt_succ_of_lt (h.lt d hd)
    · obtain rfl := List.mem_singleton.1 hd
      exact Nat.lt_succ_self _

/-! ## The master -/

/-- An update that makes no device the master, and leaves the master as it is or not the
    master. -/
theorem OneMaster.update (h : OneMaster s)
    (hf : ∀ d ∈ s.devices, p d → (f d).isMaster → d.isMaster ∧ (f d).revokedAt = none) :
    OneMaster (s.update p f) := by
  refine ⟨?_, fun d hd hmaster => ?_⟩
  · rw [Store.update, List.countP_map]
    refine (List.countP_mono_left fun d hd hmaster => ?_).trans h.unique
    rw [Function.comp_apply] at hmaster
    split_ifs at hmaster with hp
    · exact (hf d hd hp hmaster).1
    · exact hmaster
  · obtain ⟨e, he, rfl⟩ := mem_update.1 hd
    split_ifs at hmaster ⊢ with hp
    · exact (hf e he hp hmaster).2
    · exact h.live e he hmaster

theorem OneMaster.delete (h : OneMaster s) : OneMaster (s.delete p) :=
  ⟨(List.filter_sublist.countP_le).trans h.unique,
    fun d hd => h.live d (List.mem_of_mem_filter hd)⟩

/-- Devices that are revoked are not the master. -/
theorem oneMaster_revoked_iff (h : OneMaster s) :
    OneMaster (s.update p s.revoked) ↔ ∀ d ∈ s.devices, p d → d.isMaster = false := by
  constructor
  · intro h' d hd hp
    by_contra hmaster
    rw [Bool.not_eq_false] at hmaster
    have hmem : s.revoked d ∈ (s.update p s.revoked).devices :=
      mem_update.2 ⟨d, hd, if_pos hp⟩
    exact Option.some_ne_none _ (h'.live _ hmem hmaster)
  · intro hp
    refine h.update fun d hd hpd hmaster => ?_
    rw [Store.revoked, hp d hd hpd] at hmaster
    cases hmaster

/-- A new device is the master only if there is none. -/
theorem oneMaster_add_iff (h : OneMaster s) {browser : Browser} {isMaster : Bool} :
    OneMaster (s.add (s.newDevice browser isMaster)) ↔
      (isMaster → ∀ d ∈ s.devices, d.isMaster = false) := by
  have hcount : (s.add (s.newDevice browser isMaster)).devices.countP (·.isMaster) =
      s.devices.countP (·.isMaster) + if isMaster then 1 else 0 := by
    rw [Store.add, List.countP_append, List.countP_singleton]
    rfl
  have hnone : (∀ d ∈ s.devices, d.isMaster = false) ↔ s.devices.countP (·.isMaster) = 0 := by
    rw [List.countP_eq_zero]
    exact forall₂_congr fun d _ => Bool.not_eq_true _ ▸ Iff.rfl
  rw [hnone]
  constructor
  · intro h' hmaster
    have hunique := h'.unique
    rw [hcount, if_pos hmaster] at hunique
    exact Nat.le_zero.1 (Nat.le_of_succ_le_succ hunique)
  · intro hm
    refine ⟨?_, fun d hd hmaster => ?_⟩
    · rw [hcount]
      split_ifs with hmaster
      · rw [hm hmaster]
      · exact h.unique
    · rcases List.mem_append.1 hd with hd | hd
      · exact h.live d hd hmaster
      · obtain rfl := List.mem_singleton.1 hd
        rfl

/-- The master after a promotion is the device with the id. -/
theorem mem_promote {d : Device} {deviceId : ℕ} : d ∈ (s.promote deviceId).devices ↔
    ∃ e ∈ s.devices, { e with isMaster := decide (e.id = deviceId) } = d := by
  rw [Store.promote, mem_update]
  constructor
  · rintro ⟨e, he, rfl⟩
    obtain ⟨e', he', rfl⟩ := mem_update.1 he
    refine ⟨e', he', ?_⟩
    by_cases hid : e'.id = deviceId <;> simp [hid]
  · rintro ⟨e, he, rfl⟩
    refine ⟨{ e with isMaster := false }, mem_update.2 ⟨e, he, rfl⟩, ?_⟩
    by_cases hid : e.id = deviceId <;> simp [hid]

theorem Ids.promote (h : Ids s) (deviceId : ℕ) : Ids (s.promote deviceId) := by
  rw [Store.promote]
  refine Ids.update (h.update ?_) ?_
  · exact fun _ => rfl
  · exact fun _ => rfl

/-- The ids are different, so that one device is promoted at most. -/
theorem countP_promote_le (h : Ids s) (deviceId : ℕ) :
    (s.promote deviceId).devices.countP (·.isMaster) ≤ 1 := by
  have hnodup := List.nodup_iff_count_le_one.1 (h.promote deviceId).nodup deviceId
  rw [List.count, List.countP_map] at hnodup
  refine (List.countP_mono_left fun d hd hmaster => ?_).trans hnodup
  obtain ⟨e, -, rfl⟩ := mem_promote.1 hd
  exact beq_iff_eq.2 (of_decide_eq_true hmaster)

theorem oneMaster_promote_iff (h : Ids s) {deviceId : ℕ} : OneMaster (s.promote deviceId) ↔
    ∀ d ∈ s.devices, d.id = deviceId → d.revokedAt = none := by
  constructor
  · intro h' d hd hid
    exact h'.live { d with isMaster := decide (d.id = deviceId) }
      (mem_promote.2 ⟨d, hd, rfl⟩) (decide_eq_true hid)
  · intro hlive
    refine ⟨countP_promote_le h deviceId, fun d hd hmaster => ?_⟩
    obtain ⟨e, he, rfl⟩ := mem_promote.1 hd
    exact hlive e he (of_decide_eq_true hmaster)

/-! ## Every run -/

theorem OneMaster.link (h : OneMaster s) (browser : Browser) : OneMaster (s.link browser) := by
  rw [Store.link]
  split_ifs
  · exact h.update fun d _ _ hmaster => absurd hmaster Bool.false_ne_true
  · exact (oneMaster_add_iff h).2 fun hmaster => absurd hmaster Bool.false_ne_true

theorem Ids.answer (h : Ids s) (q : Statement) : Ids (s.answer q).2 := by
  cases q with
  | insert browser isMaster =>
    rw [Store.answer]
    split_ifs
    · exact h
    · exact h.add browser isMaster
  | promote deviceId => exact h.promote deviceId
  | link browser =>
    change Ids (s.link browser)
    rw [Store.link]
    split_ifs
    · exact h.update fun _ => rfl
    · exact h.add browser false
  | touch deviceId browser => exact h.update fun _ => rfl
  | reauthorize deviceId => exact h.update fun _ => rfl
  | revoke deviceId => exact h.update fun _ => rfl
  | revokeAll currentDeviceId => exact h.update fun _ => rfl
  | forceRevoke deviceId => exact h.update fun _ => rfl
  | deleteRevoked => exact h.delete
  | deleteOthers currentDeviceId => exact h.delete
  | selectByKey _ | selectById _ | countLive | count | list => exact h
  | elapse ms => exact ⟨h.nodup, h.lt⟩

/-- The statements that keep one master are those that `KeepsMaster` says. -/
theorem oneMaster_answer_iff (hids : Ids s) (h : OneMaster s) (q : Statement) :
    OneMaster (s.answer q).2 ↔ KeepsMaster s q := by
  cases q with
  | insert browser isMaster =>
    rw [Store.answer, KeepsMaster]
    split_ifs with hkey
    · exact iff_of_true h fun hno => absurd (hkey.symm.trans hno) Bool.noConfusion
    · rw [oneMaster_add_iff h]
      exact ⟨fun hm _ => hm, fun hm => hm (Bool.eq_false_of_not_eq_true hkey)⟩
  | promote deviceId => exact oneMaster_promote_iff hids
  | revoke deviceId =>
    refine (oneMaster_revoked_iff h).trans (forall₂_congr fun d _ => ?_)
    rw [decide_eq_true_iff]
  | revokeAll currentDeviceId =>
    refine (oneMaster_revoked_iff h).trans (forall₂_congr fun d _ => ?_)
    rw [decide_eq_true_iff]
  | forceRevoke deviceId =>
    refine (oneMaster_revoked_iff h).trans (forall₂_congr fun d hd => ?_)
    rw [Bool.and_eq_true, decide_eq_true_iff]
    refine ⟨fun hm hid => ?_, fun hm hid => hm hid.1⟩
    by_contra hmaster
    rw [Bool.not_eq_false] at hmaster
    have hlive := h.live d hd hmaster
    exact absurd (hm ⟨hid, by rw [hlive]; rfl⟩) (by rw [hmaster]; exact Bool.noConfusion)
  | touch deviceId browser =>
    exact iff_of_true (h.update fun d hd _ hmaster => ⟨hmaster, h.live d hd hmaster⟩) trivial
  | reauthorize deviceId =>
    exact iff_of_true (h.update fun d _ _ hmaster => ⟨hmaster, rfl⟩) trivial
  | deleteRevoked => exact iff_of_true h.delete trivial
  | deleteOthers currentDeviceId => exact iff_of_true h.delete trivial
  | link browser => exact iff_of_true (h.link browser) trivial
  | selectByKey _ | selectById _ | countLive | count | list => exact iff_of_true h trivial
  | elapse ms => exact iff_of_true ⟨h.unique, h.live⟩ trivial

end

/-- The user has no device yet. -/
def Store.IsInitial (s : Store) : Prop := s.devices = []

/-- Along a run in which no statement revokes a master, promotes a revoked device or inserts
    a second master, at most one device is master, and it is not revoked. -/
theorem oneMaster_of_run {s : Service.State Store Statement Statement.Result Request Reply}
    (hs : ((service.machine Store.IsInitial).restrict
      (Service.Orderly (fun _ _ => True) KeepsMaster)).Reachable s) : OneMaster s.store := by
  refine (Service.invariant_store (I := fun store => Ids store ∧ OneMaster store) ?_ ?_ hs).2
  · intro store hstore
    refine ⟨⟨?_, ?_⟩, ?_, ?_⟩ <;> rw [hstore]
    · exact List.nodup_nil
    · exact fun d hd => absurd hd List.not_mem_nil
    · exact Nat.zero_le 1
    · exact fun d hd => absurd hd List.not_mem_nil
  · exact fun store q hok h => ⟨h.1.answer q, (oneMaster_answer_iff h.1 h.2 q).2 hok⟩

namespace Sample

def browser (clientKey : String) : Browser := ⟨clientKey, "", none, none⟩

def store : Store := ⟨[], 0, 0⟩

/-- Two browsers log in at once. -/
def firstDevices : List (Service.Event Request) :=
  [.receive (.upsertDeviceForSession (browser "phone")), .serve 0, .serve 0,
    .receive (.upsertDeviceForSession (browser "tablet")), .serve 1, .serve 1, .serve 0, .serve 1]

/-- A browser logs in, and the user revokes its session. -/
def masterRevoked : List (Service.Event Request) :=
  [.receive (.upsertDeviceForSession (browser "phone")), .serve 0, .serve 0, .serve 0,
    .receive (.deleteSession 0), .serve 1]

/-- Two browsers log in, the second one is promoted and revokes the session of the first. -/
def handedOver : List (Service.Event Request) :=
  [.receive (.upsertDeviceForSession (browser "phone")), .serve 0, .serve 0, .serve 0,
    .receive (.upsertDeviceForSession (browser "tablet")), .serve 1, .serve 1, .serve 1,
    .receive (.patchMaster 1 (some 1)), .serve 2, .serve 2, .serve 2,
    .receive (.deleteSession 0), .serve 3]

end Sample

section
open Sample

/-- There may be two masters, and a revoked one, when no request is in flight any more. -/
theorem not_oneMaster :
    (∃ s, (service.machine Store.IsInitial).Reachable s ∧ s.tasks.keys = [] ∧
      s.store.devices.countP (·.isMaster) = 2) ∧
    ∃ s, (service.machine Store.IsInitial).Reachable s ∧ s.tasks.keys = [] ∧
      ∃ d ∈ s.store.devices, d.isMaster ∧ d.revokedAt = some 0 := by
  have htwo : ((service.machine Store.IsInitial).run (.start store) firstDevices).map (fun s =>
      (s.tasks.keys, s.store.devices.countP (·.isMaster))) = some ([], 2) := by decide
  have hrevoked : ((service.machine Store.IsInitial).run (.start store) masterRevoked).map
      (fun s => (s.tasks.keys, s.store.devices.any fun d => d.isMaster && d.revokedAt = some 0)) =
      some ([], true) := by decide
  constructor
  · obtain ⟨s, hs, hend⟩ := Option.map_eq_some_iff.1 htwo
    obtain ⟨htasks, hcount⟩ := Prod.mk.inj hend
    exact ⟨s, Machine.reachable_of_run hs ⟨store, rfl, rfl⟩, htasks, hcount⟩
  · obtain ⟨s, hs, hend⟩ := Option.map_eq_some_iff.1 hrevoked
    obtain ⟨htasks, hany⟩ := Prod.mk.inj hend
    obtain ⟨d, hd, hmaster⟩ := List.any_eq_true.1 hany
    rw [Bool.and_eq_true, decide_eq_true_iff] at hmaster
    exact ⟨s, Machine.reachable_of_run hs ⟨store, rfl, rfl⟩, htasks, d, hd, hmaster⟩

theorem oneMaster_of_run_handedOver : ∃ s, ((service.machine Store.IsInitial).restrict
      (Service.Orderly (fun _ _ => True) KeepsMaster)).run (.start store) handedOver = some s ∧
    OneMaster s.store := by
  obtain ⟨s, hs, hreachable⟩ := Machine.exists_reachable (by decide :
    (((service.machine Store.IsInitial).restrict
      (Service.Orderly (fun _ _ => True) KeepsMaster)).run (.start store) handedOver).isSome)
    ⟨store, rfl, rfl⟩
  exact ⟨s, hs, oneMaster_of_run hreachable⟩

end

end OneToThree.DeviceSessions
