import OneToThree.Devices.Master
import Mathlib.Data.List.Infix

/-!
# The keys of revoked devices

A session is checked twice: Redis may hold a key that says that its device was revoked lately,
and the row of the device says whether it is. The routes that revoke a device by its id, or all
sessions, set the key behind their transaction, for a day and a minute; the route that revokes
one session does not, and nothing deletes a key.

`agrees_along_iff`: the check agrees with the rows after every request of a run if and only if
no request of the run restores a device whose key is still there. Two kinds of requests restore
a device: a reauthorization, and a link with the browser of a revoked device.

Requests come one after the other, and Redis is there. A key goes with its time only.
-/

namespace OneToThree.DeviceSessions

/-! ## The check of a session -/

/-- The rows of a user, and what Redis holds of them. -/
structure Server where
  store : Store
  /-- When the key `device:revoked:{id}` of a device expires. -/
  revokedKeys : ℕ → Option ℕ

/-- How long a key stays, in milliseconds. -/
def revokedKeyTtl : ℕ := (86400 + 60) * 1000

def assertDeviceActiveForUser (s : Store) (deviceId : ℕ) : Bool :=
  s.devices.any fun d => d.id = deviceId && d.revokedAt.isNone

namespace Server

/-- Redis has the key of the device. -/
def hasRevokedKey (s : Server) (deviceId : ℕ) : Bool :=
  (s.revokedKeys deviceId).any (s.store.now < ·)

def setRevokedKey (s : Server) (deviceId : ℕ) : Server :=
  { s with
    revokedKeys := Function.update s.revokedKeys deviceId (some (s.store.now + revokedKeyTtl)) }

/-- What `getAuthUser` makes of a session of the device. -/
def accepts (s : Server) (deviceId : ℕ) : Bool :=
  if s.hasRevokedKey deviceId then false else assertDeviceActiveForUser s.store deviceId

/-- A request that leaves the keys alone. -/
def exec (s : Server) (route : Route) : Reply × Server :=
  ((route.exec Store.answer s.store).1, { s with store := (route.exec Store.answer s.store).2 })

/-- A request, and the keys it sets. -/
def serve (s : Server) : Request → Reply × Server
  | .deleteDevice deviceId =>
    let served := s.exec (deleteDevice deviceId)
    (served.1, if served.1 = .ok then served.2.setRevokedKey deviceId else served.2)
  | .deleteSessions currentDeviceId =>
    let ids := (s.store.answer (.revokeAll currentDeviceId)).1
    let served := s.exec (deleteSessions currentDeviceId)
    (served.1, ids.foldl setRevokedKey served.2)
  | request => s.exec (handle request)

/-- Requests one after the other. -/
def serveAll (s : Server) (requests : List Request) : Server :=
  requests.foldl (fun s request => (s.serve request).2) s

/-- A user without devices. -/
def start (now nextId : ℕ) : Server := ⟨⟨[], nextId, now⟩, fun _ => none⟩

/-- The check of a session agrees with the rows. -/
def Agrees (s : Server) : Prop :=
  ∀ deviceId, s.accepts deviceId = true ↔
    ∃ d ∈ s.store.devices, d.id = deviceId ∧ d.revokedAt = none

/-- The request restores a revoked device whose key is there. -/
def Restores (s : Server) : Request → Prop
  | .reauthorize deviceId => ∃ d, s.store.devices.find? (·.id = deviceId) = some d ∧
    d.isMaster = false ∧ d.revokedAt.isSome ∧ s.hasRevokedKey deviceId
  | .linkConfirm browser => ∃ d ∈ s.store.devices, d.clientDeviceKey = browser.clientKey ∧
    d.revokedAt.isSome ∧ s.hasRevokedKey d.id
  | _ => False

theorem serveAll_append_singleton (s : Server) (requests : List Request) (request : Request) :
    s.serveAll (requests ++ [request]) = ((s.serveAll requests).serve request).2 := by
  rw [serveAll, List.foldl_append]
  rfl

theorem assertDeviceActiveForUser_iff {s : Store} {deviceId : ℕ} :
    assertDeviceActiveForUser s deviceId = true ↔
      ∃ d ∈ s.devices, d.id = deviceId ∧ d.revokedAt = none := by
  simp only [assertDeviceActiveForUser, List.any_eq_true, Bool.and_eq_true, decide_eq_true_iff,
    Option.isNone_iff_eq_none]

/-- The check agrees with the rows if no device that is not revoked has a key. -/
theorem agrees_iff {s : Server} : s.Agrees ↔
    ∀ d ∈ s.store.devices, d.revokedAt = none → s.hasRevokedKey d.id = false := by
  constructor
  · intro h d hd hlive
    by_contra hkey
    have haccepts := (h d.id).2 ⟨d, hd, rfl, hlive⟩
    rw [accepts, if_pos (Bool.eq_true_of_not_eq_false hkey)] at haccepts
    cases haccepts
  · intro h deviceId
    rw [accepts]
    split_ifs with hkey
    · refine iff_of_false not_false fun ⟨d, hd, hid, hlive⟩ => ?_
      rw [← hid, h d hd hlive] at hkey
      cases hkey
    · exact assertDeviceActiveForUser_iff

end Server

/-! ## Statements that restore nothing -/

/-- The statements that make no device live again, and take no time. -/
def Statement.Quiet : Statement → Prop
  | .reauthorize _ | .link _ | .elapse _ => False
  | _ => True

/-- With the marks `m`, given at the time `now`: no device that is not revoked is marked, and
    none that is to come. -/
structure Store.Unmarked (m : ℕ → Bool) (now : ℕ) (s : Store) : Prop where
  ids : Ids s
  now_eq : s.now = now
  fresh : ∀ deviceId, s.nextId ≤ deviceId → m deviceId = false
  live : ∀ d ∈ s.devices, d.revokedAt = none → m d.id = false

section
variable {m : ℕ → Bool} {now : ℕ} {s : Store} {p : Device → Bool} {f : Device → Device}

/-- An update that makes no marked device live. -/
theorem Store.Unmarked.update (h : s.Unmarked m now) (hid : ∀ d, (f d).id = d.id)
    (hf : ∀ d ∈ s.devices, p d → (f d).revokedAt = none → m d.id = false) :
    (s.update p f).Unmarked m now where
  ids := h.ids.update hid
  now_eq := h.now_eq
  fresh := h.fresh
  live d hd hlive := by
    obtain ⟨e, he, rfl⟩ := mem_update.1 hd
    split_ifs at hlive ⊢ with hp
    · rw [hid]
      exact hf e he hp hlive
    · exact h.live e he hlive

theorem Store.Unmarked.delete (h : s.Unmarked m now) : (s.delete p).Unmarked m now where
  ids := h.ids.delete
  now_eq := h.now_eq
  fresh := h.fresh
  live d hd := h.live d (List.mem_of_mem_filter hd)

/-- A new device has a new id. -/
theorem Store.Unmarked.add (h : s.Unmarked m now) (browser : Browser) (isMaster : Bool) :
    (s.add (s.newDevice browser isMaster)).Unmarked m now where
  ids := h.ids.add browser isMaster
  now_eq := h.now_eq
  fresh deviceId hle := h.fresh deviceId (Nat.le_of_succ_le hle)
  live d hd hlive := by
    rcases List.mem_append.1 hd with hd | hd
    · exact h.live d hd hlive
    · obtain rfl := List.mem_singleton.1 hd
      exact h.fresh _ (Nat.le_refl _)

theorem Store.Unmarked.answer (h : s.Unmarked m now) {q : Statement} (hq : q.Quiet) :
    (s.answer q).2.Unmarked m now := by
  cases q with
  | insert browser isMaster =>
    rw [Store.answer]
    split_ifs
    · exact h
    · exact h.add browser isMaster
  | promote deviceId =>
    change (s.promote deviceId).Unmarked m now
    rw [Store.promote]
    have hnone : (s.update (fun _ => true) fun d => { d with isMaster := false }).Unmarked m now :=
      h.update (fun _ => rfl) fun d hd _ hlive => h.live d hd hlive
    exact hnone.update (fun _ => rfl) fun d hd _ hlive => hnone.live d hd hlive
  | touch deviceId browser => exact h.update (fun _ => rfl) fun d hd _ hlive => h.live d hd hlive
  | revoke deviceId | revokeAll currentDeviceId | forceRevoke deviceId =>
    exact h.update (fun _ => rfl) fun _ _ _ hlive => absurd hlive (Option.some_ne_none _)
  | deleteRevoked | deleteOthers currentDeviceId => exact h.delete
  | selectByKey _ | selectById _ | countLive | count | list => exact h
  | reauthorize deviceId | link browser | elapse ms => exact hq.elim

theorem Store.Unmarked.exec (h : s.Unmarked m now) {route : Route}
    (hroute : route.Along fun q _ => q.Quiet) :
    (route.exec Store.answer s).2.Unmarked m now :=
  hroute.exec (fun _ _ hq hs => hs.answer hq) h

end

theorem refresh_quiet (browser : Browser) (existing : Device) :
    (refresh browser existing).Along fun q _ => q.Quiet :=
  .ite (fun _ => trivial) fun _ => .request trivial fun _ => trivial

theorem upsertDeviceForSession_quiet (browser : Browser) :
    (upsertDeviceForSession browser).Along fun q _ => q.Quiet := by
  refine .ite (fun _ => trivial) fun _ => .request trivial fun existing => ?_
  cases existing with
  | some existing => exact refresh_quiet _ _
  | none =>
    refine .request trivial fun _ => .request trivial fun inserted => ?_
    cases inserted with
    | some deviceId => trivial
    | none =>
      refine .request trivial fun afterConflict => ?_
      cases afterConflict with
      | none => trivial
      | some afterConflict => exact refresh_quiet _ _

theorem patchMaster_quiet (deviceId : ℕ) (currentDeviceId : Option ℕ) :
    (patchMaster deviceId currentDeviceId).Along fun q _ => q.Quiet := by
  refine .request trivial fun existingDevice => ?_
  cases existingDevice with
  | none => trivial
  | some existingDevice =>
    exact .ite (fun _ => trivial) fun _ =>
      .request trivial fun _ => .request trivial fun _ => trivial

theorem deleteDevice_quiet (deviceId : ℕ) :
    (deleteDevice deviceId).Along fun q _ => q.Quiet := by
  refine .request trivial fun deviceToRevoke => ?_
  cases deviceToRevoke with
  | none => trivial
  | some deviceToRevoke =>
    exact .ite (fun _ => trivial) fun _ => .request trivial fun _ => trivial

/-! ## Requests -/

namespace Server

variable {s : Server}

/-- No device that is not revoked has a key, and none that is to come. -/
def Sound (s : Server) : Prop := s.store.Unmarked s.hasRevokedKey s.store.now

theorem Sound.agrees (h : s.Sound) : s.Agrees := agrees_iff.2 h.live

theorem sound_start (now nextId : ℕ) : (start now nextId).Sound where
  ids := ⟨List.nodup_nil, fun _ hd => absurd hd List.not_mem_nil⟩
  now_eq := rfl
  fresh _ _ := rfl
  live _ hd := absurd hd List.not_mem_nil

/-- Rows in place of others, with the same keys. -/
theorem sound_of_unmarked {store : Store} (h : store.Unmarked s.hasRevokedKey s.store.now) :
    ({ s with store := store } : Server).Sound := by
  have hkeys : ({ s with store := store } : Server).hasRevokedKey = s.hasRevokedKey := by
    funext deviceId
    rw [hasRevokedKey, hasRevokedKey, h.now_eq]
  rw [Sound, hkeys, h.now_eq]
  exact h

/-- A request of quiet statements. -/
theorem Sound.exec (h : s.Sound) {route : Route} (hroute : route.Along fun q _ => q.Quiet) :
    (s.exec route).2.Sound := sound_of_unmarked (Store.Unmarked.exec h hroute)

/-- A device that is revoked gets its key. -/
theorem Sound.setRevokedKey (h : s.Sound) {deviceId : ℕ} (hlt : deviceId < s.store.nextId)
    (hrevoked : ∀ d ∈ s.store.devices, d.id = deviceId → d.revokedAt ≠ none) :
    (s.setRevokedKey deviceId).Sound := by
  have hother : ∀ i, i ≠ deviceId → (s.setRevokedKey deviceId).hasRevokedKey i =
      s.hasRevokedKey i := by
    intro i hi
    change (Function.update s.revokedKeys deviceId _ i).any _ = _
    rw [Function.update_of_ne hi]
    rfl
  refine ⟨h.ids, h.now_eq, fun i hi => ?_, fun d hd hlive => ?_⟩
  · rw [hother i (Nat.ne_of_gt (Nat.lt_of_lt_of_le hlt hi))]
    exact h.fresh i hi
  · rw [hother d.id fun hid => hrevoked d hd hid hlive]
    exact h.live d hd hlive

/-- Devices that are revoked get their keys. -/
theorem Sound.setRevokedKeys (h : s.Sound) {ids : List ℕ} (hlt : ∀ i ∈ ids, i < s.store.nextId)
    (hrevoked : ∀ d ∈ s.store.devices, d.id ∈ ids → d.revokedAt ≠ none) :
    (ids.foldl Server.setRevokedKey s).Sound := by
  induction ids generalizing s with
  | nil => exact h
  | cons i ids ih =>
    have hi := h.setRevokedKey (hlt i List.mem_cons_self) fun d hd hid =>
      hrevoked d hd (hid ▸ List.mem_cons_self)
    exact ih hi (fun j hj => hlt j (List.mem_cons_of_mem _ hj))
      fun d hd hid => hrevoked d hd (List.mem_cons_of_mem _ hid)

/-- Rows that an update revokes are revoked. -/
theorem revokedAt_ne_none {store : Store} {p : Device → Bool} {d : Device}
    (hd : d ∈ (store.update p store.revoked).devices)
    (hp : ∀ e ∈ store.devices, e.id = d.id → p e) : d.revokedAt ≠ none := by
  obtain ⟨e, he, rfl⟩ := mem_update.1 hd
  have hid : e.id = (if p e then store.revoked e else e).id := by
    split_ifs <;> rfl
  rw [if_pos (hp e he hid)]
  exact Option.some_ne_none _

/-- A device that is revoked by its id. -/
theorem exec_deleteDevice {deviceId : ℕ} (h : (s.exec (deleteDevice deviceId)).1 = .ok) :
    (∃ d ∈ s.store.devices, d.id = deviceId) ∧ (s.exec (deleteDevice deviceId)).2.store =
      s.store.update (·.id = deviceId) s.store.revoked := by
  simp only [exec, deleteDevice, statement, Program.request_bind, Program.exec_ask,
    Store.answer] at h ⊢
  cases hfind : s.store.devices.find? (·.id = deviceId) with
  | none =>
    rw [hfind] at h
    cases h
  | some d =>
    rw [hfind] at h
    simp only [Program.pure_eq] at h ⊢
    split_ifs at h ⊢ with hmaster
    · cases h
    · exact ⟨⟨d, List.mem_of_find?_eq_some hfind, by simpa using List.find?_some hfind⟩, rfl⟩

theorem Sound.deleteDevice (h : s.Sound) (deviceId : ℕ) :
    (s.serve (.deleteDevice deviceId)).2.Sound := by
  have hexec := h.exec (deleteDevice_quiet deviceId)
  rw [serve]
  dsimp only
  split_ifs with hok
  · obtain ⟨⟨d, hd, hid⟩, hstore⟩ := exec_deleteDevice hok
    refine hexec.setRevokedKey ?_ fun d hd hid => ?_
    · rw [hstore]
      exact hid ▸ h.ids.lt d hd
    · rw [hstore] at hd
      exact revokedAt_ne_none hd fun e _ he => decide_eq_true (he.trans hid)
  · exact hexec

theorem Sound.deleteSessions (h : s.Sound) (currentDeviceId : Option ℕ) :
    (s.serve (.deleteSessions currentDeviceId)).2.Sound := by
  have hexec : (s.exec (DeviceSessions.deleteSessions currentDeviceId)).2.Sound :=
    h.exec (.request trivial fun _ => trivial)
  refine hexec.setRevokedKeys (fun i hi => ?_) fun d hd hid => ?_
  · obtain ⟨d, hd, rfl⟩ := List.mem_map.1 hi
    exact h.ids.lt d (List.mem_of_mem_filter hd)
  · refine revokedAt_ne_none hd fun e _ he => ?_
    obtain ⟨e', he', hid'⟩ := List.mem_map.1 hid
    have hp := (List.mem_filter.1 he').2
    rwa [he, ← hid']

theorem Sound.elapse (h : s.Sound) (ms : ℕ) : (s.serve (.elapse ms)).2.Sound := by
  have hexpire : ∀ i, s.hasRevokedKey i = false →
      (s.serve (.elapse ms)).2.hasRevokedKey i = false := by
    intro i hi
    change (s.revokedKeys i).any (s.store.now + ms < ·) = false
    rw [hasRevokedKey] at hi
    cases hkey : s.revokedKeys i with
    | none => rfl
    | some expiry =>
      rw [hkey] at hi
      simp only [Option.any_some, decide_eq_false_iff_not, not_lt] at hi ⊢
      omega
  exact ⟨⟨h.ids.nodup, h.ids.lt⟩, rfl, fun i hi => hexpire i (h.fresh i hi),
    fun d hd hlive => hexpire d.id (h.live d hd hlive)⟩

/-- What a reauthorization does: it restores the device it finds, if it is revoked and not the
    master. -/
theorem reauthorize_cases (s : Server) (deviceId : ℕ) :
    (s.serve (.reauthorize deviceId)).2 = s ∧
      (∀ d, s.store.devices.find? (·.id = deviceId) = some d →
        d.isMaster = false → d.revokedAt.isSome = false) ∨
    (s.serve (.reauthorize deviceId)).2 =
        { s with store := s.store.update (·.id = deviceId) s.store.reauthorized } ∧
      ∃ d, s.store.devices.find? (·.id = deviceId) = some d ∧ d.isMaster = false ∧
        d.revokedAt.isSome := by
  simp only [serve, exec, handle, reauthorize, statement, Program.request_bind, Program.exec_ask,
    Store.answer]
  cases hfind : s.store.devices.find? (·.id = deviceId) with
  | none => exact .inl ⟨rfl, fun _ h => absurd h (Option.some_ne_none _).symm⟩
  | some target =>
    dsimp only
    split_ifs with hmaster hrevoked
    · refine .inl ⟨rfl, fun d hd hd' => ?_⟩
      rw [← Option.some.inj hd, hmaster] at hd'
      cases hd'
    · refine .inl ⟨rfl, fun d hd _ => ?_⟩
      rw [← Option.some.inj hd]
      simpa using hrevoked
    · exact .inr ⟨rfl, target, rfl, by simpa using hmaster,
        by simpa [Option.isSome_iff_ne_none] using hrevoked⟩

theorem Sound.reauthorize (h : s.Sound) {deviceId : ℕ}
    (hrestores : ¬s.Restores (.reauthorize deviceId)) :
    (s.serve (.reauthorize deviceId)).2.Sound := by
  rcases s.reauthorize_cases deviceId with ⟨hs, _⟩ | ⟨hs, d, hfind, hmaster, hrevoked⟩
  · rw [hs]
    exact h
  · have hkey : s.hasRevokedKey deviceId = false := by
      by_contra hkey
      exact hrestores ⟨d, hfind, hmaster, hrevoked, Bool.eq_true_of_not_eq_false hkey⟩
    rw [hs]
    refine sound_of_unmarked (Store.Unmarked.update h (fun _ => rfl) fun e _ he _ => ?_)
    rwa [of_decide_eq_true he]

/-- What a link does: it restores the device of the browser, or adds one. -/
theorem serve_linkConfirm (s : Server) (browser : Browser) :
    (s.serve (.linkConfirm browser)).2 =
      { s with store := s.store.link (browser.withName "Linked device") } := rfl

theorem clientKey_withName (browser : Browser) (name : String) :
    (browser.withName name).clientKey = browser.clientKey := by
  rw [Browser.withName]
  split_ifs <;> rfl

theorem Sound.linkConfirm (h : s.Sound) {browser : Browser}
    (hrestores : ¬s.Restores (.linkConfirm browser)) :
    (s.serve (.linkConfirm browser)).2.Sound := by
  rw [serve_linkConfirm]
  refine sound_of_unmarked ?_
  rw [Store.link]
  split_ifs with hkey
  · refine Store.Unmarked.update h (fun _ => rfl) fun d hd hp _ => ?_
    by_contra hmarked
    have hid : d.clientDeviceKey = browser.clientKey :=
      (of_decide_eq_true hp).trans (clientKey_withName _ _)
    refine hrestores ⟨d, hd, hid, ?_, Bool.eq_true_of_not_eq_false hmarked⟩
    by_contra hlive
    exact hmarked (h.live d hd (Option.not_isSome_iff_eq_none.1 hlive))
  · exact Store.Unmarked.add h _ false

/-- A request that restores no device whose key is there. -/
theorem Sound.serve (h : s.Sound) {request : Request} (hrestores : ¬s.Restores request) :
    (s.serve request).2.Sound := by
  cases request with
  | upsertDeviceForSession browser => exact h.exec (upsertDeviceForSession_quiet browser)
  | maybeAutoMigrateDevice userId =>
    exact h.exec (.request trivial fun _ => .ite (fun _ => trivial) fun _ =>
      .request trivial fun _ => trivial)
  | patchMaster deviceId currentDeviceId =>
    exact h.exec (patchMaster_quiet deviceId currentDeviceId)
  | reauthorize deviceId => exact h.reauthorize hrestores
  | deleteDevice deviceId => exact h.deleteDevice deviceId
  | deleteSession sessionId => exact h.exec (.request trivial fun _ => trivial)
  | deleteSessions currentDeviceId => exact h.deleteSessions currentDeviceId
  | clearRevoked => exact h.exec (.request trivial fun _ => trivial)
  | deleteOthers currentDeviceId =>
    cases currentDeviceId with
    | none => exact h
    | some currentDeviceId => exact h.exec (.request trivial fun _ => trivial)
  | linkConfirm browser => exact h.linkConfirm hrestores
  | adminRevoke deviceId => exact h.exec (.request trivial fun _ => trivial)
  | elapse ms => exact h.elapse ms

/-- A device that was restored and has its key. -/
theorem not_agrees_of_restores {request : Request} (hrestores : s.Restores request) :
    ¬(s.serve request).2.Agrees := by
  intro hagrees
  rw [agrees_iff] at hagrees
  cases request with
  | reauthorize deviceId =>
    obtain ⟨d, hfind, hmaster, hrevoked, hkey⟩ := hrestores
    have hd := List.mem_of_find?_eq_some hfind
    have hid : d.id = deviceId := by simpa using List.find?_some hfind
    rcases s.reauthorize_cases deviceId with ⟨_, hnone⟩ | ⟨hs, _⟩
    · rw [hnone d hfind hmaster] at hrevoked
      cases hrevoked
    · rw [hs] at hagrees
      have hfalse := hagrees (s.store.reauthorized d)
        (mem_update.2 ⟨d, hd, if_pos (decide_eq_true hid)⟩) rfl
      exact Bool.false_ne_true (hfalse.symm.trans (hid ▸ hkey))
  | linkConfirm browser =>
    obtain ⟨d, hd, hclient, hrevoked, hkey⟩ := hrestores
    have hp : d.clientDeviceKey = (browser.withName "Linked device").clientKey :=
      hclient.trans (clientKey_withName _ _).symm
    have hhas : s.store.hasKey (browser.withName "Linked device").clientKey = true :=
      List.any_eq_true.2 ⟨d, hd, decide_eq_true hp⟩
    rw [serve_linkConfirm, Store.link, if_pos hhas] at hagrees
    have hfalse := hagrees _ (mem_update.2 ⟨d, hd, if_pos (decide_eq_true hp)⟩) rfl
    exact Bool.false_ne_true (hfalse.symm.trans hkey)
  | _ => exact hrestores

/-- A run that restores no device whose key is there. -/
theorem Sound.serveAll (h : s.Sound) {requests : List Request}
    (hrestores : ∀ before request, before ++ [request] <+: requests →
      ¬(s.serveAll before).Restores request) : (s.serveAll requests).Sound := by
  induction requests using List.reverseRecOn with
  | nil => exact h
  | append_singleton requests request ih =>
    rw [serveAll_append_singleton]
    exact (ih fun before request hpre => hrestores before request
      (hpre.trans (List.prefix_append _ _))).serve (hrestores _ _ List.prefix_rfl)

/-- The check agrees with the rows after every request of a run if and only if no request of
    it restores a device whose key is there. -/
theorem agrees_along_iff (now nextId : ℕ) (requests : List Request) :
    (∀ before, before <+: requests → ((start now nextId).serveAll before).Agrees) ↔
      ∀ before request, before ++ [request] <+: requests →
        ¬((start now nextId).serveAll before).Restores request := by
  constructor
  · intro hagrees before request hpre hrestores
    refine not_agrees_of_restores hrestores ?_
    rw [← serveAll_append_singleton]
    exact hagrees _ hpre
  · intro hrestores before hpre
    exact ((sound_start now nextId).serveAll fun before' request hpre' =>
      hrestores before' request (hpre'.trans hpre)).agrees

/-- A device is revoked and reauthorized: its session is refused. -/
theorem reauthorized_refused :
    let s := (start 0 0).serveAll [.upsertDeviceForSession (Sample.browser "phone"),
      .upsertDeviceForSession (Sample.browser "tablet"), .deleteDevice 1, .reauthorize 1]
    ¬s.Agrees ∧ s.accepts 1 = false ∧
      s.store.devices.any (fun d => d.id = 1 && d.revokedAt.isNone) = true := by
  refine ⟨fun h => ?_, by decide, by decide⟩
  have haccepts := (h 1).2 (assertDeviceActiveForUser_iff.1 (by decide))
  exact absurd haccepts (by decide)

end Server

end OneToThree.DeviceSessions
