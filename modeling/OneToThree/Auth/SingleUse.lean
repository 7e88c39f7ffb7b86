import OneToThree.Auth.Challenges
import OneToThree.Lib.Outline

/-!
# A challenge is spent once

A request that spends a challenge looks it up, and deletes it some commands later.

* Another request may look it up before it is deleted, and both are accepted (`accepted_twice`).
* The deletion may go to the map of the process when the challenge is in Redis, or the other way
  round, and the challenge stays.
* A challenge whose write seems to have failed is in both.

`singleUse_of_run`: along a run without these (`SpentInTurn`), a nonce is accepted once, and was
found within its lifetime.
-/

namespace OneToThree.Challenges

open Service

abbrev State := Service.State Store Command Command.Result Request Reply

/-- Where a challenge was written: in the map of a process, or in Redis. -/
structure Writing where
  server : Option ServerId
  key : Key
  deadline : ℕ

/-- A challenge that a request has found and not deleted. -/
structure Hold where
  nonce : Nonce
  key : Key
  /-- The process in whose map it was found, or Redis. -/
  server : Option ServerId
  foundAt : ℕ
  /-- Redis has deleted it, and the answer was lost. -/
  gone : Bool

/-- A request has deleted a challenge that it had found. -/
structure Taking where
  task : ℕ
  foundAt : ℕ

/-- What became of the challenges. -/
structure Spending where
  /-- Who drew each nonce. -/
  drawn : InsMap Nonce ℕ
  written : InsMap Nonce Writing
  holds : InsMap ℕ Hold
  taken : InsMap Nonce Taking
  accepted : List Nonce

namespace Spending

/-- A request deletes the challenge that it has found. -/
def take (h : Spending) (i : ℕ) : Spending :=
  match h.holds.get? i with
  | none => h
  | some hold =>
    { h with
      holds := h.holds.delete i
      taken := h.taken.set hold.nonce ⟨i, hold.foundAt⟩ }

def hold (h : Spending) (i : ℕ) (key : Key) (server : Option ServerId) (now : ℕ) :
    Option PendingChallenge → Spending
  | none => h
  | some row => { h with holds := h.holds.set i ⟨row.nonce, key, server, now, false⟩ }

def record (h : Spending) (s : Store) (i : ℕ) : Command → Spending
  | .randomNonce => { h with drawn := h.drawn.set s.nextNonce i }
  | .redisSet key nonce ttlSeconds =>
    if s.link = .down then h
    else { h with written := h.written.set nonce ⟨none, key, s.now + ttlSeconds * 1000⟩ }
  | .memSet server key nonce ttlSeconds =>
    { h with written := h.written.set nonce ⟨some server, key, s.now + ttlSeconds * 1000⟩ }
  | .redisGet key => if s.link = .up then h.hold i key none s.now (s.inRedis key) else h
  | .memGet server key => h.hold i key (some server) s.now (s.inMem server key)
  | .redisDel _ =>
    match s.link with
    | .up => h.take i
    | .lossy =>
      match h.holds.get? i with
      | some hold =>
        if hold.server = none then { h with holds := h.holds.set i { hold with gone := true } }
        else h
      | none => h
    | .down => h
  | .memDel _ _ => h.take i
  | .await | .setLink _ | .elapse _ => h

def accept (h : Spending) : Procedure Reply → Spending
  | .done (.accepted nonce) => { h with accepted := h.accepted ++ [nonce] }
  | _ => h

end Spending

def spending : History Store Command Command.Result Request Reply Spending where
  start := ⟨∅, ∅, ∅, ∅, []⟩
  receive _ _ h := h
  serve s i _ q prog h := (h.record s.store i q).accept prog

/-- The steps of challenges that are spent in turn: no lookup finds a challenge that another
    request has found and not yet deleted; the deletion reaches the store in which the challenge
    was found; and no write that has its effect seems to fail. -/
def SpentInTurn (p : State × Spending) (i : ℕ) (_ : Request) : Command → Prop
  | .redisGet key => p.1.store.link = .up →
    ∀ row ∈ p.1.store.inRedis key, ∀ t ∈ p.2.holds.entries, t.2.nonce ≠ row.nonce
  | .memGet server key =>
    ∀ row ∈ p.1.store.inMem server key, ∀ t ∈ p.2.holds.entries, t.2.nonce ≠ row.nonce
  | .redisSet _ _ _ => p.1.store.link ≠ .lossy
  | .redisDel _ => ∀ hold ∈ p.2.holds.get? i,
    p.1.store.link ≠ if hold.server = none then .down else .up
  | _ => True

instance (p : State × Spending) (i : ℕ) (a : Request) : ∀ q, Decidable (SpentInTurn p i a q)
  | .redisGet _ => inferInstanceAs (Decidable (_ → _))
  | .memGet _ _ | .redisDel _ => inferInstanceAs (Decidable (∀ _ ∈ _, _))
  | .redisSet _ _ _ => inferInstanceAs (Decidable (_ ≠ _))
  | .memSet _ _ _ _ | .memDel _ _ | .randomNonce | .await | .setLink _ | .elapse _ => isTrue trivial

/-! ## What a request does -/

/-- The request has deleted the challenge, and may accept it. -/
def Took (n : Nonce) : Procedure Reply → Prop
  | .done b => ∀ m, b = .accepted m → m = n
  | .ask .await next => Took n (next ())
  | .ask _ _ => False

/-- The request goes on to delete the challenge from the map. -/
def Clears (server : Option ServerId) (key : Key) (n : Nonce) : Procedure Reply → Prop
  | .ask (.memDel server' key') next =>
    key' = key ∧ (∀ x ∈ server, x = server') ∧ Took n (next ())
  | _ => False

/-- The request has found the challenge, and goes on to delete it. -/
def Holds (server : Option ServerId) (key : Key) (n : Nonce) : Procedure Reply → Prop
  | .ask .await next => Holds server key n (next ())
  | .ask (.redisDel key') next => key' = key ∧ Took n (next true) ∧ Clears server key n (next false)
  | _ => False

/-- The program is done, and accepts nothing. -/
def AcceptsNothing : Procedure Reply → Prop
  | .done b => ∀ m, b ≠ .accepted m
  | .ask _ _ => False

/-- The request has drawn the nonce, and goes on to write it. -/
def Writes (n : Nonce) : Procedure Reply → Prop
  | .ask (.redisSet _ m _) next => m = n ∧ AcceptsNothing (next true) ∧ Writes n (next false)
  | .ask (.memSet _ _ m _) next => m = n ∧ AcceptsNothing (next ())
  | _ => False

/-- The request has neither drawn nor found a challenge. -/
def Seeks : Procedure Reply → Prop
  | .done b => ∀ m, b ≠ .accepted m
  | .ask .await next | .ask (.setLink _) next | .ask (.elapse _) next => Seeks (next ())
  | .ask .randomNonce next => ∀ n, Writes n (next n)
  | .ask (.redisGet key) next => Seeks (next none) ∧ Seeks (next (some none)) ∧
    ∀ n, Holds none key n (next (some (some n)))
  | .ask (.memGet server key) next => Seeks (next none) ∧
    ∀ n, Holds (some server) key n (next (some n))
  | .ask _ _ => False

/-- How far a request has come. -/
inductive Stage (i : ℕ) (h : Spending) (prog : Procedure Reply) : Prop
  | seeks : Seeks prog → Stage i h prog
  | writes (n : Nonce) : h.drawn.get? n = some i → h.written.get? n = none → Writes n prog →
    Stage i h prog
  | holds (hold : Hold) : h.holds.get? i = some hold → hold.gone = false →
    Holds hold.server hold.key hold.nonce prog → Stage i h prog
  | clears (hold : Hold) : h.holds.get? i = some hold → (hold.server = none → hold.gone = true) →
    Clears hold.server hold.key hold.nonce prog → Stage i h prog
  | took (n : Nonce) (t : Taking) : h.taken.get? n = some t → t.task = i → n ∉ h.accepted →
    Took n prog → Stage i h prog

theorem seeks_issue {server : ServerId} {key : Nonce → Key} {ttlSeconds : ℕ} :
    Seeks (issue server key ttlSeconds) := fun _ => ⟨rfl, nofun, rfl, nofun⟩

/-- The lookup of a challenge, before a program that goes on to delete it. -/
theorem seeks_getPending {server : ServerId} {key : Key} {f : Option Nonce → Procedure Reply}
    (hnone : Seeks (f none)) (hsome : ∀ x n, (∀ y ∈ x, y = server) → Holds x key n (f (some n))) :
    Seeks (getPending server key >>= f) :=
  ⟨⟨hnone, fun n => hsome _ n fun _ hy => (Option.mem_some_iff.1 hy).symm⟩, hnone,
    fun n => hsome none n nofun⟩

theorem holds_deletePending {server : ServerId} {x : Option ServerId} {key : Key} {n : Nonce}
    {f : Unit → Procedure Reply} (hx : ∀ y ∈ x, y = server) (hf : Took n (f ())) :
    Holds x key n (deletePending server key >>= f) :=
  ⟨rfl, hf, rfl, hx, hf⟩

theorem holds_spendAndReject {server : ServerId} {x : Option ServerId} {key : Key} {n : Nonce}
    {error : String} (hx : ∀ y ∈ x, y = server) :
    Holds x key n (spendAndReject server key error) :=
  holds_deletePending hx nofun

theorem seeks_verify (server : ServerId) (username : Username) (nonce : Nonce)
    (checks : VerifyChecks) : Seeks (verify server username nonce checks) := by
  change Seeks (if checks.locked = true then _ else _)
  split
  · exact nofun
  refine seeks_getPending nofun fun x n hx => ?_
  change Holds x _ n (if n ≠ nonce then _ else _)
  split
  · exact holds_spendAndReject hx
  rename_i hnonce
  obtain rfl : n = nonce := not_not.1 hnonce
  change Holds x _ n (if checks.registrationDisabled = true then _ else _)
  split
  · exact holds_spendAndReject hx
  change Holds x _ n (if checks.deviceRevoked = true then _ else _)
  split_ifs
  · exact holds_spendAndReject hx
  · exact holds_spendAndReject hx
  · exact holds_spendAndReject hx
  refine holds_deletePending hx ?_
  cases checks.refused with
  | some error => exact nofun
  | none => exact fun m hm => (Reply.accepted.inj hm).symm

theorem seeks_recoveryComplete (server : ServerId) (username : Username) (nonce : Nonce)
    (checks : RecoveryChecks) : Seeks (recoveryComplete server username nonce checks) := by
  change Seeks (if checks.locked = true then _ else _)
  split
  · exact nofun
  refine seeks_getPending nofun fun x n hx => ?_
  change Holds x _ n (if n ≠ nonce then _ else _)
  split
  · exact holds_spendAndReject hx
  rename_i hnonce
  obtain rfl : n = nonce := not_not.1 hnonce
  change Holds x _ n (if (!checks.configured || !checks.signatureOk) = true then _ else _)
  split_ifs
  · exact holds_spendAndReject hx
  · exact holds_spendAndReject hx
  cases checks.stepUp with
  | some error => exact holds_spendAndReject hx
  | none => exact holds_deletePending hx fun m hm => (Reply.accepted.inj hm).symm

theorem seeks_withVaultProof (server : ServerId) (key : Key) (proofNonce : Nonce)
    (signatureOk : Bool) (error : String) (refused : Option String) :
    Seeks (withVaultProof server key proofNonce signatureOk error refused) := by
  unfold withVaultProof verifyVaultProof
  rw [Program.bind_assoc]
  refine seeks_getPending nofun fun x n hx => ?_
  dsimp only
  rw [Program.bind_assoc]
  refine holds_deletePending hx ?_
  split_ifs with hnonce
  · exact nofun
  obtain rfl : n = proofNonce := not_not.1 hnonce
  cases signatureOk with
  | false => exact nofun
  | true =>
    cases refused with
    | some error => exact nofun
    | none => exact fun m hm => (Reply.accepted.inj hm).symm

theorem seeks_registerVerify (server : ServerId) (userId : UserId) (challenge : Nonce)
    (verified : Bool) (refused : Option String) :
    Seeks (registerVerify server userId challenge verified refused) := by
  unfold registerVerify
  refine seeks_getPending nofun fun x n hx => ?_
  refine holds_deletePending hx ?_
  split_ifs
  · exact nofun
  cases refused with
  | some error => exact nofun
  | none => exact fun m hm => (Reply.accepted.inj hm).symm

theorem seeks_loginVerify (server : ServerId) (username : Username) (challenge : Nonce)
    (hasPasskey verified : Bool) :
    Seeks (loginVerify server username challenge hasPasskey verified) := by
  unfold loginVerify
  refine seeks_getPending nofun fun x n hx => ?_
  refine holds_deletePending hx ?_
  change Took n (if (!hasPasskey) = true then _ else _)
  split_ifs
  · exact nofun
  · exact nofun
  · exact fun m hm => (Reply.accepted.inj hm).symm

theorem seeks_handle (a : Request) : Seeks (handle a) := by
  cases a with
  | challenge server username locked =>
    change Seeks (if locked = true then _ else _)
    split_ifs
    · exact nofun
    · exact seeks_issue
  | registerOptions server userId limit =>
    change Seeks (if limit = true then _ else _)
    split_ifs
    · exact nofun
    · exact seeks_issue
  | loginOptions server username hasPasskey =>
    change Seeks (if (!hasPasskey) = true then _ else _)
    split_ifs
    · exact nofun
    · exact seeks_issue
  | recoveryChallenge _ _ | setupChallenge _ _ | publishChallenge _ _ => exact seeks_issue
  | verify server username nonce checks => exact seeks_verify server username nonce checks
  | recoveryComplete server username nonce checks =>
    exact seeks_recoveryComplete server username nonce checks
  | recoveryEnable server userId proofNonce signatureOk keyOk =>
    exact seeks_withVaultProof _ _ _ _ _ _
  | recoveryDisable server userId proofNonce signatureOk =>
    exact seeks_withVaultProof server _ proofNonce signatureOk _ none
  | publishEcdh server userId proofNonce signatureOk =>
    exact seeks_withVaultProof server _ proofNonce signatureOk _ none
  | registerVerify server userId challenge verified refused =>
    exact seeks_registerVerify server userId challenge verified refused
  | loginVerify server username challenge hasPasskey verified =>
    exact seeks_loginVerify server username challenge hasPasskey verified
  | setLink _ | elapse _ => exact nofun

/-! ## The stores -/

/-- The challenge is in neither store. -/
structure Absent (s : Store) (n : Nonce) : Prop where
  redis : ∀ key row, s.redis.get? key = some row → row.nonce ≠ n
  mem : ∀ x row, s.mem.get? x = some row → row.nonce ≠ n

/-- What is known of the challenges: where each is, that one request at most has found it or
    deleted it, and that it is gone then. -/
structure Sound (s : Store) (h : Spending) : Prop where
  redis : ∀ key row, s.redis.get? key = some row →
    h.written.get? row.nonce = some ⟨none, key, row.expiresAt⟩
  mem : ∀ x row, s.mem.get? x = some row →
    h.written.get? row.nonce = some ⟨some x.1, x.2, row.expiresAt⟩
  written_lt : ∀ n w, h.written.get? n = some w → n < s.nextNonce
  drawn_lt : ∀ n i, h.drawn.get? n = some i → n < s.nextNonce
  held : ∀ i hold, h.holds.get? i = some hold → h.taken.get? hold.nonce = none ∧
    ∃ w, h.written.get? hold.nonce = some w ∧ w.server = hold.server ∧ w.key = hold.key ∧
      hold.foundAt ≤ w.deadline
  gone : ∀ i hold, h.holds.get? i = some hold → hold.gone = true → Absent s hold.nonce
  apart : ∀ i j hold hold', h.holds.get? i = some hold → h.holds.get? j = some hold' →
    hold.nonce = hold'.nonce → i = j
  taken : ∀ n t, h.taken.get? n = some t → Absent s n ∧
    ∃ w, h.written.get? n = some w ∧ t.foundAt ≤ w.deadline
  accepted : ∀ n ∈ h.accepted, ∃ t, h.taken.get? n = some t
  nodup : h.accepted.Nodup

section
variable {s s' : Store} {h : Spending} {i : ℕ} {n : Nonce}

theorem Absent.shrink (hn : Absent s n)
    (hredis : ∀ key row, s'.redis.get? key = some row → s.redis.get? key = some row)
    (hmem : ∀ x row, s'.mem.get? x = some row → s.mem.get? x = some row) : Absent s' n :=
  ⟨fun key row hrow => hn.redis key row (hredis key row hrow),
    fun x row hrow => hn.mem x row (hmem x row hrow)⟩

/-- Challenges are deleted. -/
theorem Sound.shrink (hs : Sound s h)
    (hredis : ∀ key row, s'.redis.get? key = some row → s.redis.get? key = some row)
    (hmem : ∀ x row, s'.mem.get? x = some row → s.mem.get? x = some row)
    (hnext : s.nextNonce ≤ s'.nextNonce) : Sound s' h :=
  { hs with
    redis := fun key row hrow => hs.redis key row (hredis key row hrow)
    mem := fun x row hrow => hs.mem x row (hmem x row hrow)
    written_lt := fun n w hw => Nat.lt_of_lt_of_le (hs.written_lt n w hw) hnext
    drawn_lt := fun n i hi => Nat.lt_of_lt_of_le (hs.drawn_lt n i hi) hnext
    gone := fun i hold hi hgone => (hs.gone i hold hi hgone).shrink hredis hmem
    taken := fun n t ht => (hs.taken n t ht).imp_left fun hn => hn.shrink hredis hmem }

theorem get?_of_delete {K V : Type} [DecidableEq K] {m : InsMap K V} {k k' : K} {v : V}
    (h : (m.delete k).get? k' = some v) : k' ≠ k ∧ m.get? k' = some v := by
  rw [InsMap.get?_delete] at h
  split_ifs at h with hk
  exact ⟨hk, h⟩

/-- A challenge of Redis is absent when its key is deleted there. -/
theorem Sound.absent_redis (hs : Sound s h) {w : Writing} (hw : h.written.get? n = some w)
    (hserver : w.server = none) : Absent { s with redis := s.redis.delete w.key } n := by
  refine ⟨fun key row hrow hn => ?_, fun x row hrow hn => ?_⟩
  · obtain ⟨hkey, hrow⟩ := get?_of_delete hrow
    have hw' := hs.redis key row hrow
    rw [hn, hw] at hw'
    exact hkey (congrArg Writing.key (Option.some.inj hw')).symm
  · have hw' := hs.mem x row hrow
    rw [hn, hw] at hw'
    rw [Option.some.inj hw'] at hserver
    cases hserver

theorem Sound.absent_mem (hs : Sound s h) {w : Writing} (hw : h.written.get? n = some w)
    {server : ServerId} (hserver : w.server = some server) :
    Absent { s with mem := s.mem.delete (server, w.key) } n := by
  refine ⟨fun key row hrow hn => ?_, fun x row hrow hn => ?_⟩
  · have hw' := hs.redis key row hrow
    rw [hn, hw] at hw'
    rw [Option.some.inj hw'] at hserver
    cases hserver
  · obtain ⟨hx, hrow⟩ := get?_of_delete hrow
    have hw' := hs.mem x row hrow
    rw [hn, hw] at hw'
    rw [Option.some.inj hw'] at hserver hx
    exact hx (Prod.ext (Option.some.inj hserver) rfl)

/-- A nonce is drawn. -/
theorem Sound.draw (hs : Sound s h) : Sound { s with nextNonce := s.nextNonce + 1 }
    { h with drawn := h.drawn.set s.nextNonce i } := by
  have hs' : Sound { s with nextNonce := s.nextNonce + 1 } h :=
    hs.shrink (fun _ _ => id) (fun _ _ => id) (Nat.le_succ _)
  refine { hs' with drawn_lt := fun n j hj => ?_ }
  change (h.drawn.set s.nextNonce i).get? n = some j at hj
  rw [InsMap.get?_set] at hj
  split_ifs at hj with hn
  · exact Nat.lt_succ_of_le (Nat.le_of_eq hn)
  · exact Nat.lt_succ_of_lt (hs.drawn_lt n j hj)

/-- A challenge is written, for the first time. -/
theorem Sound.write (hs : Sound s h) {w : Writing} (hn : h.written.get? n = none)
    (hlt : n < s.nextNonce)
    (hredis : ∀ key row, s'.redis.get? key = some row → s.redis.get? key = some row ∨
      (row.nonce = n ∧ w = ⟨none, key, row.expiresAt⟩))
    (hmem : ∀ x row, s'.mem.get? x = some row → s.mem.get? x = some row ∨
      (row.nonce = n ∧ w = ⟨some x.1, x.2, row.expiresAt⟩))
    (hnext : s'.nextNonce = s.nextNonce) :
    Sound s' { h with written := h.written.set n w } := by
  have hkeep : ∀ {m v}, h.written.get? m = some v → (h.written.set n w).get? m = some v := by
    intro m v hm
    rw [InsMap.get?_set_ne _ _ fun hmn => ?_]
    · exact hm
    · rw [hmn, hn] at hm
      cases hm
  have habsent : ∀ {m v}, h.written.get? m = some v → Absent s m → Absent s' m := by
    intro m v hm habs
    have hmn : n ≠ m := fun hmn => by
      rw [← hmn, hn] at hm
      cases hm
    refine ⟨fun key row hrow => ?_, fun x row hrow => ?_⟩
    · rcases hredis key row hrow with hrow | ⟨rfl, -⟩
      · exact habs.redis key row hrow
      · exact hmn
    · rcases hmem x row hrow with hrow | ⟨rfl, -⟩
      · exact habs.mem x row hrow
      · exact hmn
  refine ⟨fun key row hrow => ?_, fun x row hrow => ?_, fun m v hm => ?_, fun m j hj => ?_,
    fun j hold hj => ?_, fun j hold hj hgone => ?_, hs.apart, fun m t ht => ?_, hs.accepted, hs.nodup⟩
  · rcases hredis key row hrow with hrow | ⟨rfl, rfl⟩
    · exact hkeep (hs.redis key row hrow)
    · exact InsMap.get?_set_self _ _ _
  · rcases hmem x row hrow with hrow | ⟨rfl, rfl⟩
    · exact hkeep (hs.mem x row hrow)
    · exact InsMap.get?_set_self _ _ _
  · rw [hnext]
    rw [InsMap.get?_set] at hm
    split_ifs at hm with hmn
    · exact hmn ▸ hlt
    · exact hs.written_lt m v hm
  · rw [hnext]
    exact hs.drawn_lt m j hj
  · obtain ⟨huntaken, v, hv, hrest⟩ := hs.held j hold hj
    exact ⟨huntaken, v, hkeep hv, hrest⟩
  · obtain ⟨-, v, hv, -⟩ := hs.held j hold hj
    exact habsent hv (hs.gone j hold hj hgone)
  · obtain ⟨habs, v, hv, hle⟩ := hs.taken m t ht
    exact ⟨habsent hv habs, v, hkeep hv, hle⟩

/-- A request finds a challenge that no other request holds. -/
theorem Sound.find (hs : Sound s h) {hold : Hold} (huntaken : h.taken.get? hold.nonce = none)
    (hwritten : ∃ w, h.written.get? hold.nonce = some w ∧ w.server = hold.server ∧
      w.key = hold.key ∧ hold.foundAt ≤ w.deadline) (hgone : hold.gone = false)
    (hfree : ∀ t ∈ h.holds.entries, t.2.nonce ≠ hold.nonce) :
    Sound s { h with holds := h.holds.set i hold } := by
  have hget : ∀ {j hold'}, (h.holds.set i hold).get? j = some hold' →
      (j = i ∧ hold' = hold) ∨ (h.holds.get? j = some hold' ∧ hold'.nonce ≠ hold.nonce) := by
    intro j hold' hj
    rw [InsMap.get?_set] at hj
    split_ifs at hj with hji
    · exact .inl ⟨hji, (Option.some.inj hj).symm⟩
    · exact .inr ⟨hj, hfree (j, hold') (InsMap.get?_eq_some_iff.1 hj)⟩
  refine { hs with
    held := fun j hold' hj => ?_, gone := fun j hold' hj hgone' => ?_
    apart := fun j k hold' hold'' hj hk heq => ?_ }
  · rcases hget hj with ⟨-, rfl⟩ | ⟨hj, -⟩
    · exact ⟨huntaken, hwritten⟩
    · exact hs.held j hold' hj
  · rcases hget hj with ⟨-, rfl⟩ | ⟨hj, -⟩
    · rw [hgone] at hgone'
      cases hgone'
    · exact hs.gone j hold' hj hgone'
  · rcases hget hj with ⟨rfl, rfl⟩ | ⟨hj, hnej⟩
    · rcases hget hk with ⟨rfl, -⟩ | ⟨-, hnek⟩
      · rfl
      · exact absurd heq.symm hnek
    · rcases hget hk with ⟨rfl, rfl⟩ | ⟨hk, -⟩
      · exact absurd heq hnej
      · exact hs.apart j k hold' hold'' hj hk heq

/-- Redis deletes a challenge that was found, and the answer is lost. -/
theorem Sound.lose (hs : Sound s h) {hold : Hold} (hi : h.holds.get? i = some hold)
    (habsent : Absent s hold.nonce) :
    Sound s { h with holds := h.holds.set i { hold with gone := true } } := by
  have hget : ∀ {j hold'}, (h.holds.set i { hold with gone := true }).get? j = some hold' →
      ∃ hold'', h.holds.get? j = some hold'' ∧ hold'.nonce = hold''.nonce ∧
        hold'.server = hold''.server ∧ hold'.key = hold''.key ∧
        hold'.foundAt = hold''.foundAt ∧ (hold'.gone = true → hold''.gone = true ∨ j = i) := by
    intro j hold' hj
    rw [InsMap.get?_set] at hj
    split_ifs at hj with hji
    · obtain rfl := Option.some.inj hj
      exact ⟨hold, hji ▸ hi, rfl, rfl, rfl, rfl, fun _ => .inr hji⟩
    · exact ⟨hold', hj, rfl, rfl, rfl, rfl, .inl⟩
  refine { hs with
    held := fun j hold' hj => ?_, gone := fun j hold' hj hgone' => ?_
    apart := fun j k hold' hold'' hj hk heq => ?_ }
  · obtain ⟨hold'', hj, hnonce, hserver, hkey, hfound, -⟩ := hget hj
    rw [hnonce, hserver, hkey, hfound]
    exact hs.held j hold'' hj
  · obtain ⟨hold'', hj', hnonce, -, -, -, hgone⟩ := hget hj
    rw [hnonce]
    rcases hgone hgone' with hgone | rfl
    · exact hs.gone j hold'' hj' hgone
    · cases hi.symm.trans hj'
      exact habsent
  · obtain ⟨x, hj, hnonce, -⟩ := hget hj
    obtain ⟨y, hk, hnonce', -⟩ := hget hk
    exact hs.apart j k x y hj hk (hnonce.symm.trans (heq.trans hnonce'))

theorem take_of_holds {hold : Hold} (hi : h.holds.get? i = some hold) :
    h.take i = { h with
      holds := h.holds.delete i, taken := h.taken.set hold.nonce ⟨i, hold.foundAt⟩ } := by
  rw [Spending.take, hi]

/-- A request has deleted the challenge that it has found. -/
theorem Sound.take (hs : Sound s h) {hold : Hold} (hi : h.holds.get? i = some hold)
    (habsent : Absent s hold.nonce) : Sound s (h.take i) := by
  obtain ⟨huntaken, w, hw, -, -, hle⟩ := hs.held i hold hi
  rw [take_of_holds hi]
  refine { hs with
    held := fun j hold' hj => ?_, gone := fun j hold' hj hgone => ?_
    apart := fun j k x y hj hk heq => ?_, taken := fun n t ht => ?_
    accepted := fun n hn => ?_ }
  · obtain ⟨hji, hj⟩ := get?_of_delete hj
    obtain ⟨huntaken', hrest⟩ := hs.held j hold' hj
    refine ⟨?_, hrest⟩
    rw [InsMap.get?_set_ne _ _ fun hnonce => hji (hs.apart j i hold' hold hj hi hnonce)]
    exact huntaken'
  · exact hs.gone j hold' (get?_of_delete hj).2 hgone
  · exact hs.apart j k x y (get?_of_delete hj).2 (get?_of_delete hk).2 heq
  · change (h.taken.set hold.nonce ⟨i, hold.foundAt⟩).get? n = some t at ht
    rw [InsMap.get?_set] at ht
    split_ifs at ht with hn
    · subst hn
      cases ht
      exact ⟨habsent, w, hw, hle⟩
    · exact hs.taken n t ht
  · obtain ⟨t, ht⟩ := hs.accepted n hn
    refine ⟨t, ?_⟩
    change (h.taken.set hold.nonce ⟨i, hold.foundAt⟩).get? n = some t
    rw [InsMap.get?_set_ne _ _ fun hnonce => ?_]
    · exact ht
    · rw [hnonce, huntaken] at ht
      cases ht

theorem Sound.accept (hs : Sound s h) {prog : Procedure Reply} (hprog : Stage i h prog) :
    Sound s (h.accept prog) := by
  cases prog with
  | ask q next => exact hs
  | done b =>
    cases b with
    | accepted n =>
      cases hprog with
      | seeks hseeks => exact absurd rfl (hseeks n)
      | writes _ _ _ hwrites => exact hwrites.elim
      | holds _ _ _ hholds => exact hholds.elim
      | clears _ _ _ hclears => exact hclears.elim
      | took m t ht _ hm htook =>
        obtain rfl : n = m := htook n rfl
        refine { hs with accepted := fun k hk => ?_, nodup := ?_ }
        · rcases List.mem_append.1 hk with hk | hk
          · exact hs.accepted k hk
          · exact ⟨t, List.mem_singleton.1 hk ▸ ht⟩
        · exact List.nodup_append.2 ⟨hs.nodup, List.nodup_singleton _, fun k hk k' hk' =>
            List.mem_singleton.1 hk' ▸ fun heq => hm (heq ▸ hk)⟩
    | _ => exact hs

end

/-! ## Every step -/

section
variable {p : State × Spending} {i : ℕ} {a : Request} {q : Command}
  {next : q.Result → Procedure Reply}

theorem AcceptsNothing.seeks {prog : Procedure Reply} (h : AcceptsNothing prog) : Seeks prog := by
  cases prog with
  | done b => exact h
  | ask q next => exact h.elim

/-- Who has just deleted the challenge that he has found. -/
theorem Stage.of_take {s : Store} {h : Spending} {hold : Hold} {prog : Procedure Reply}
    (hs : Sound s h) (hi : h.holds.get? i = some hold) (hprog : Took hold.nonce prog) :
    Stage i (h.take i) prog := by
  rw [take_of_holds hi]
  refine .took hold.nonce ⟨i, hold.foundAt⟩ (InsMap.get?_set_self _ _ _) rfl (fun hmem => ?_) hprog
  obtain ⟨t, ht⟩ := hs.accepted _ hmem
  rw [(hs.held i hold hi).1] at ht
  cases ht

/-- The next stage of the request that is served. -/
theorem Stage.record (h : Stage i p.2 (.ask q next)) (hok : SpentInTurn p i a q)
    (hs : Sound p.1.store p.2) :
    Stage i (p.2.record p.1.store i q) (next (p.1.store.answer q).1) := by
  cases h with
  | seeks hseeks =>
    cases q with
    | await | setLink _ | elapse _ => exact .seeks hseeks
    | randomNonce =>
      refine .writes p.1.store.nextNonce (InsMap.get?_set_self _ _ _) ?_ (hseeks _)
      by_contra hw
      obtain ⟨w, hw⟩ := Option.ne_none_iff_exists'.1 hw
      exact Nat.lt_irrefl _ (hs.written_lt _ w hw)
    | redisGet key =>
      obtain ⟨hfailed, hnone, hsome⟩ := hseeks
      simp only [Spending.record, Store.answer]
      split_ifs
      · cases p.1.store.inRedis key with
        | none => exact .seeks hnone
        | some row => exact .holds _ (InsMap.get?_set_self _ _ _) rfl (hsome row.nonce)
      · exact .seeks hfailed
    | memGet server key =>
      obtain ⟨hnone, hsome⟩ := hseeks
      simp only [Spending.record, Store.answer]
      cases p.1.store.inMem server key with
      | none => exact .seeks hnone
      | some row => exact .holds _ (InsMap.get?_set_self _ _ _) rfl (hsome row.nonce)
    | _ => exact hseeks.elim
  | writes n hdrawn hwritten hwrites =>
    cases q with
    | redisSet key m ttlSeconds =>
      obtain ⟨rfl, htrue, hfalse⟩ := hwrites
      simp only [Spending.record, Store.answer]
      cases hlink : p.1.store.link with
      | up => exact .seeks htrue.seeks
      | down => exact .writes m hdrawn hwritten hfalse
      | lossy => exact absurd hlink hok
    | memSet server key m ttlSeconds => exact .seeks hwrites.2.seeks
    | _ => exact hwrites.elim
  | holds hold hi hgone hholds =>
    cases q with
    | await => exact .holds hold hi hgone hholds
    | redisDel key =>
      obtain ⟨-, htrue, hfalse⟩ := hholds
      have hlink' := hok hold hi
      simp only [Spending.record, Store.answer]
      cases hlink : p.1.store.link with
      | up => exact .of_take hs hi htrue
      | down =>
        refine .clears hold hi (fun hserver => ?_) hfalse
        rw [if_pos hserver] at hlink'
        exact absurd hlink hlink'
      | lossy =>
        dsimp only
        rw [hi]
        dsimp only
        split_ifs with hserver
        · exact .clears _ (InsMap.get?_set_self _ _ _) (fun _ => rfl) hfalse
        · exact .clears hold hi (fun h => absurd h hserver) hfalse
    | _ => exact hholds.elim
  | clears hold hi hgone hclears =>
    cases q with
    | memDel server key => exact .of_take hs hi hclears.2.2
    | _ => exact hclears.elim
  | took n t ht htask hn htook =>
    cases q with
    | await => exact .took n t ht htask hn htook
    | _ => exact htook.elim

/-- The nonce that the command writes. -/
def Command.writes : Command → Option Nonce
  | .redisSet _ nonce _ | .memSet _ _ nonce _ => some nonce
  | _ => none

/-- A nonce is written by who has drawn it, for the first time. -/
theorem Stage.writing {h : Spending} (hi : Stage i h (.ask q next)) {n : Nonce}
    (hq : q.writes = some n) : h.drawn.get? n = some i ∧ h.written.get? n = none := by
  cases q with
  | redisSet _ m _ | memSet _ _ m _ =>
    cases hi with
    | writes k hdrawn hwritten hwrites =>
      obtain rfl : m = k := hwrites.1
      cases hq
      exact ⟨hdrawn, hwritten⟩
    | seeks hseeks => exact hseeks.elim
    | holds _ _ _ hholds => exact hholds.elim
    | clears _ _ _ hclears => exact hclears.elim
    | took _ _ _ _ _ htook => exact htook.elim
  | _ => cases hq

/-- The first deletion is of a challenge that the request has found. -/
theorem Stage.deleting {h : Spending} {key : Key} {next : Bool → Procedure Reply}
    (hi : Stage i h (.ask (.redisDel key) next)) :
    ∃ hold, h.holds.get? i = some hold ∧ key = hold.key := by
  cases hi with
  | holds hold hi _ hholds => exact ⟨hold, hi, hholds.1⟩
  | seeks hseeks => exact hseeks.elim
  | writes _ _ _ hwrites => exact hwrites.elim
  | clears _ _ _ hclears => exact hclears.elim
  | took _ _ _ _ _ htook => exact htook.elim

/-- And so is the second one, which comes when the first one has failed. -/
theorem Stage.clearing {h : Spending} {server : ServerId} {key : Key}
    {next : Unit → Procedure Reply} (hi : Stage i h (.ask (.memDel server key) next)) :
    ∃ hold, h.holds.get? i = some hold ∧ key = hold.key ∧ (∀ x ∈ hold.server, x = server) ∧
      (hold.server = none → hold.gone = true) := by
  cases hi with
  | clears hold hi hgone hclears => exact ⟨hold, hi, hclears.1, hclears.2.1, hgone⟩
  | seeks hseeks => exact hseeks.elim
  | writes _ _ _ hwrites => exact hwrites.elim
  | holds _ _ _ hholds => exact hholds.elim
  | took _ _ _ _ _ htook => exact htook.elim

theorem Link.cases (link : Link) : link = .up ∨ link = .down ∨ link = .lossy := by
  cases link <;> simp

theorem get?_of_inRedis {s : Store} {key : Key} {row : PendingChallenge}
    (h : s.inRedis key = some row) : s.redis.get? key = some row ∧ s.now ≤ row.expiresAt := by
  obtain ⟨hrow, hlt⟩ := Option.filter_eq_some_iff.1 h
  exact ⟨hrow, Nat.le_of_lt (of_decide_eq_true hlt)⟩

theorem get?_of_inMem {s : Store} {server : ServerId} {key : Key} {row : PendingChallenge}
    (h : s.inMem server key = some row) :
    s.mem.get? (server, key) = some row ∧ s.now ≤ row.expiresAt := by
  obtain ⟨hrow, hle⟩ := Option.filter_eq_some_iff.1 h
  exact ⟨hrow, of_decide_eq_true hle⟩

/-- A challenge in a store was not deleted by who has found it. -/
theorem Sound.untaken {s : Store} {h : Spending} (hs : Sound s h) {n : Nonce}
    (hn : ¬Absent s n) : h.taken.get? n = none := by
  by_contra ht
  obtain ⟨t, ht⟩ := Option.ne_none_iff_exists'.1 ht
  exact hn (hs.taken n t ht).1

theorem Sound.hold {s : Store} {h : Spending} (hs : Sound s h) {key : Key}
    {server : Option ServerId} {found : Option PendingChallenge}
    (hfound : ∀ row ∈ found, ¬Absent s row.nonce ∧
      h.written.get? row.nonce = some ⟨server, key, row.expiresAt⟩ ∧ s.now ≤ row.expiresAt)
    (hfree : ∀ row ∈ found, ∀ t ∈ h.holds.entries, t.2.nonce ≠ row.nonce) :
    Sound s (h.hold i key server s.now found) := by
  cases found with
  | none => exact hs
  | some row =>
    obtain ⟨hrow, hw, hle⟩ := hfound row rfl
    exact hs.find (hs.untaken hrow) ⟨_, hw, rfl, rfl, hle⟩ rfl (hfree row rfl)

theorem Sound.record (hs : Sound p.1.store p.2) (h : Stage i p.2 (.ask q next))
    (hok : SpentInTurn p i a q) :
    Sound (p.1.store.answer q).2 (p.2.record p.1.store i q) := by
  cases q with
  | await => exact hs
  | setLink _ | elapse _ => exact hs.shrink (fun _ _ => id) (fun _ _ => id) (Nat.le_refl _)
  | randomNonce => exact hs.draw
  | redisGet key =>
    simp only [Spending.record, Store.answer]
    split_ifs with hlink
    · refine hs.hold (fun row hrow => ?_) (hok hlink)
      obtain ⟨hget, hle⟩ := get?_of_inRedis hrow
      exact ⟨fun habsent => habsent.redis key row hget rfl, hs.redis key row hget, hle⟩
    · exact hs
  | memGet server key =>
    refine hs.hold (fun row hrow => ?_) hok
    obtain ⟨hget, hle⟩ := get?_of_inMem hrow
    exact ⟨fun habsent => habsent.mem _ row hget rfl, hs.mem _ row hget, hle⟩
  | redisSet key n ttlSeconds =>
    have hwrites := h.writing rfl
    simp only [Spending.record, Store.answer]
    split_ifs
    · exact hs
    · refine hs.write hwrites.2 (hs.drawn_lt n i hwrites.1) (fun key' row hrow => ?_)
        (fun _ _ => .inl) rfl
      change (p.1.store.redis.set key _).get? key' = some row at hrow
      rw [InsMap.get?_set] at hrow
      split_ifs at hrow with hkey
      · cases hrow
        exact .inr ⟨rfl, by rw [hkey]⟩
      · exact .inl hrow
  | memSet server key n ttlSeconds =>
    have hwrites := h.writing rfl
    refine hs.write hwrites.2 (hs.drawn_lt n i hwrites.1) (fun _ _ => .inl)
      (fun x row hrow => ?_) rfl
    change (p.1.store.mem.set (server, key) _).get? x = some row at hrow
    rw [InsMap.get?_set] at hrow
    split_ifs at hrow with hx
    · cases hrow
      exact .inr ⟨rfl, by rw [hx]⟩
    · exact .inl hrow
  | redisDel key =>
    obtain ⟨hold, hi, rfl⟩ := h.deleting
    obtain ⟨-, w, hw, hserver, hkey, -⟩ := hs.held i hold hi
    have hdeleted : Sound { p.1.store with redis := p.1.store.redis.delete hold.key } p.2 :=
      hs.shrink (fun _ _ hrow => (get?_of_delete hrow).2) (fun _ _ => id) (Nat.le_refl _)
    have habsent : hold.server = none →
        Absent { p.1.store with redis := p.1.store.redis.delete hold.key } hold.nonce := by
      intro hnone
      rw [← hkey]
      exact hs.absent_redis hw (hserver.trans hnone)
    have hlink' := hok hold hi
    have hstore : p.1.store.link ≠ .down → (p.1.store.answer (.redisDel hold.key)).2 =
        { p.1.store with redis := p.1.store.redis.delete hold.key } := fun hlink => if_neg hlink
    rcases Link.cases p.1.store.link with hlink | hlink | hlink
    · rw [hstore (by rw [hlink]; decide), Spending.record, hlink]
      refine hdeleted.take hi (habsent ?_)
      by_contra hnone
      rw [if_neg hnone] at hlink'
      exact hlink' hlink
    · rw [show (p.1.store.answer (.redisDel hold.key)).2 = _ from if_pos hlink, Spending.record,
        hlink]
      exact hs
    · rw [hstore (by rw [hlink]; decide), Spending.record, hlink]
      dsimp only
      rw [hi]
      dsimp only
      split_ifs with hnone
      · exact hdeleted.lose hi (habsent hnone)
      · exact hdeleted
  | memDel server key =>
    obtain ⟨hold, hi, rfl, hserver', hgone⟩ := h.clearing
    obtain ⟨-, w, hw, hserver, hkey, -⟩ := hs.held i hold hi
    have hdeleted : Sound { p.1.store with mem := p.1.store.mem.delete (server, hold.key) } p.2 :=
      hs.shrink (fun _ _ => id) (fun _ _ hrow => (get?_of_delete hrow).2) (Nat.le_refl _)
    refine hdeleted.take hi ?_
    cases hplace : hold.server with
    | none => exact hdeleted.gone i hold hi (hgone hplace)
    | some x =>
      obtain rfl := hserver' x hplace
      rw [← hkey]
      exact hs.absent_mem hw (hserver.trans hplace)

end

/-! ## Other requests -/

section
variable {s : Store} {h : Spending} {i j : ℕ} {q : Command}

theorem get?_holds_record (hji : j ≠ i) : (h.record s i q).holds.get? j = h.holds.get? j := by
  have htake : (h.take i).holds.get? j = h.holds.get? j := by
    rw [Spending.take]
    split
    · rfl
    · exact InsMap.get?_delete_ne _ hji
  have hhold : ∀ {key server now found},
      (h.hold i key server now found).holds.get? j = h.holds.get? j := by
    intro key server now found
    cases found
    · rfl
    · exact InsMap.get?_set_ne _ _ hji
  cases q with
  | redisGet key =>
    rw [Spending.record]
    split_ifs
    · exact hhold
    · rfl
  | memGet server key => exact hhold
  | redisSet key n ttlSeconds =>
    rw [Spending.record]
    split_ifs <;> rfl
  | redisDel key =>
    rw [Spending.record]
    split
    · exact htake
    · split
      · split_ifs
        · exact InsMap.get?_set_ne _ _ hji
        · rfl
      · rfl
    · rfl
  | memDel server key => exact htake
  | _ => rfl

theorem get?_taken_record {n : Nonce} {t : Taking} (ht : h.taken.get? n = some t)
    (hi : ∀ hold, h.holds.get? i = some hold → hold.nonce ≠ n) :
    (h.record s i q).taken.get? n = some t := by
  have htake : (h.take i).taken.get? n = some t := by
    rw [Spending.take]
    split
    · exact ht
    · rename_i hold hhold
      exact (InsMap.get?_set_ne _ _ (hi hold hhold).symm).trans ht
  have hhold : ∀ {key server now found},
      (h.hold i key server now found).taken.get? n = some t := by
    intro key server now found
    cases found <;> exact ht
  cases q with
  | redisGet key =>
    rw [Spending.record]
    split_ifs
    · exact hhold
    · exact ht
  | memGet server key => exact hhold
  | redisSet key n ttlSeconds =>
    rw [Spending.record]
    split_ifs <;> exact ht
  | redisDel key =>
    rw [Spending.record]
    split
    · exact htake
    · split
      · split_ifs <;> exact ht
      · exact ht
    · exact ht
  | memDel server key => exact htake
  | _ => exact ht

/-- What else is recorded: nothing is accepted by a command alone, and it draws and writes one
    nonce at most. -/
theorem record_rest : (h.record s i q).accepted = h.accepted ∧
    (∀ n, n ≠ s.nextNonce → (h.record s i q).drawn.get? n = h.drawn.get? n) ∧
    ∀ n, q.writes ≠ some n → (h.record s i q).written.get? n = h.written.get? n := by
  have hsame : ∀ h' : Spending, h'.accepted = h.accepted → h'.drawn = h.drawn →
      h'.written = h.written → h'.accepted = h.accepted ∧
        (∀ n, n ≠ s.nextNonce → h'.drawn.get? n = h.drawn.get? n) ∧
        ∀ n, q.writes ≠ some n → h'.written.get? n = h.written.get? n := by
    intro h' haccepted hdrawn hwritten
    exact ⟨haccepted, fun n _ => by rw [hdrawn], fun n _ => by rw [hwritten]⟩
  have htake : (h.take i).accepted = h.accepted ∧ (h.take i).drawn = h.drawn ∧
      (h.take i).written = h.written := by
    rw [Spending.take]
    split <;> exact ⟨rfl, rfl, rfl⟩
  have hhold : ∀ key server now found, (h.hold i key server now found).accepted = h.accepted ∧
      (h.hold i key server now found).drawn = h.drawn ∧
      (h.hold i key server now found).written = h.written := by
    intro key server now found
    cases found <;> exact ⟨rfl, rfl, rfl⟩
  cases q with
  | redisGet key =>
    rw [Spending.record]
    split
    · obtain ⟨haccepted, hdrawn, hwritten⟩ := hhold key none s.now (s.inRedis key)
      exact hsame _ haccepted hdrawn hwritten
    · exact hsame h rfl rfl rfl
  | memGet server key =>
    obtain ⟨haccepted, hdrawn, hwritten⟩ := hhold key (some server) s.now (s.inMem server key)
    exact hsame _ haccepted hdrawn hwritten
  | randomNonce => exact ⟨rfl, fun n hn => InsMap.get?_set_ne _ _ hn, fun _ _ => rfl⟩
  | redisSet key m ttlSeconds =>
    rw [Spending.record]
    split
    · exact hsame h rfl rfl rfl
    · exact ⟨rfl, fun _ _ => rfl, fun n hn =>
        InsMap.get?_set_ne _ _ fun heq : n = m => hn (by rw [heq]; rfl)⟩
  | memSet server key m ttlSeconds =>
    exact ⟨rfl, fun _ _ => rfl, fun n hn =>
      InsMap.get?_set_ne _ _ fun heq : n = m => hn (by rw [heq]; rfl)⟩
  | redisDel key =>
    rw [Spending.record]
    split
    · exact hsame _ htake.1 htake.2.1 htake.2.2
    · split
      · split <;> exact hsame _ rfl rfl rfl
      · exact hsame h rfl rfl rfl
    · exact hsame h rfl rfl rfl
  | memDel server key => exact hsame _ htake.1 htake.2.1 htake.2.2
  | _ => exact hsame h rfl rfl rfl

/-- What a request accepts is what it has deleted. -/
theorem Stage.accepted {prog : Procedure Reply} (hi : Stage i h prog) {n : Nonce}
    (hn : n ∈ (h.accept prog).accepted) :
    n ∈ h.accepted ∨ ∃ t, h.taken.get? n = some t ∧ t.task = i := by
  cases prog with
  | ask q next => exact .inl hn
  | done b =>
    cases b with
    | accepted m =>
      rcases List.mem_append.1 hn with hn | hn
      · exact .inl hn
      · obtain rfl := List.mem_singleton.1 hn
        cases hi with
        | took k t ht htask _ htook =>
          obtain rfl : n = k := htook n rfl
          exact .inr ⟨t, ht, htask⟩
        | seeks hseeks => exact absurd rfl (hseeks n)
        | writes _ _ _ hwrites => exact hwrites.elim
        | holds _ _ _ hholds => exact hholds.elim
        | clears _ _ _ hclears => exact hclears.elim
    | _ => exact .inl hn

theorem accept_rest (prog : Procedure Reply) : (h.accept prog).drawn = h.drawn ∧
    (h.accept prog).written = h.written ∧ (h.accept prog).holds = h.holds ∧
    (h.accept prog).taken = h.taken := by
  cases prog with
  | ask q next => exact ⟨rfl, rfl, rfl, rfl⟩
  | done b => cases b <;> exact ⟨rfl, rfl, rfl, rfl⟩

end

section
variable {p : State × Spending} {i j : ℕ} {a : Request} {q : Command}
  {next : q.Result → Procedure Reply}

/-- The stage of a request is kept by the steps of the others. -/
theorem Stage.other {prog prog' : Procedure Reply} (hj : Stage j p.2 prog') (hji : j ≠ i)
    (hs : Sound p.1.store p.2) (hi : Stage i p.2 (.ask q next))
    (hi' : Stage i (p.2.record p.1.store i q) prog) :
    Stage j ((p.2.record p.1.store i q).accept prog) prog' := by
  obtain ⟨hdrawn', hwritten', hholds', htaken'⟩ := accept_rest (h := p.2.record p.1.store i q) prog
  obtain ⟨haccepted, hdrawn, hwritten⟩ := record_rest (h := p.2) (s := p.1.store) (i := i) (q := q)
  cases hj with
  | seeks hseeks => exact .seeks hseeks
  | writes n hdraw hnone hwrites =>
    refine .writes n ?_ ?_ hwrites
    · rw [hdrawn', hdrawn n (Nat.ne_of_lt (hs.drawn_lt n j hdraw))]
      exact hdraw
    · rw [hwritten', hwritten n fun hq => hji ?_]
      · exact hnone
      · exact Option.some.inj (hdraw.symm.trans (hi.writing hq).1)
  | holds hold hhold hgone hholds =>
    refine .holds hold ?_ hgone hholds
    rw [hholds', get?_holds_record hji]
    exact hhold
  | clears hold hhold hgone hclears =>
    refine .clears hold ?_ hgone hclears
    rw [hholds', get?_holds_record hji]
    exact hhold
  | took n t ht htask hn htook =>
    have ht' : (p.2.record p.1.store i q).taken.get? n = some t :=
      get?_taken_record ht fun hold hhold hnonce => by
        have huntaken := (hs.held i hold hhold).1
        rw [hnonce, ht] at huntaken
        cases huntaken
    refine .took n t ?_ htask (fun hmem => ?_) htook
    · rw [htaken']
      exact ht'
    · rcases hi'.accepted hmem with hmem | ⟨t', ht'', htask'⟩
      · exact hn (haccepted ▸ hmem)
      · cases ht'.symm.trans ht''
        exact hji (htask.symm.trans htask')

end

/-! ## Every run -/

/-- Nothing was issued yet. -/
def Store.IsInitial (s : Store) : Prop := s.redis = ∅ ∧ s.mem = ∅

/-- The runs of challenges that are spent in turn. -/
abbrev spentInTurn : Machine (State × Spending) (Event Request) :=
  (challenges.recorded spending Store.IsInitial).restrict (Guarded (fun _ _ => True) SpentInTurn)

def preStage : Annotation Store Command Command.Result Request Reply Spending :=
  fun i _ q next _ h => Stage i h (.ask q next)

section
variable {s : Store} {h : Spending} {i : ℕ} {a : Request} {prog : Procedure Reply}

theorem asserted_stage (hi : Stage i h prog) :
    Asserted preStage (fun _ _ _ _ _ => True) i a s h prog := by
  cases prog with
  | done b => trivial
  | ask q next => exact hi

theorem asserted_accept (hi : Stage i h prog) :
    Asserted preStage (fun _ _ _ _ _ => True) i a s (h.accept prog) prog := by
  cases prog with
  | done b => trivial
  | ask q next => exact hi

end

theorem sound_start {s : Store} (hs : s.IsInitial) : Sound s spending.start := by
  obtain ⟨hredis, hmem⟩ := hs
  refine ⟨fun key row hrow => ?_, fun x row hrow => ?_, fun n w hw => ?_, fun n j hj => ?_,
    fun j hold hj => ?_, fun j hold hj => ?_, fun j k x y hj => ?_, fun n t ht => ?_,
    fun n hn => absurd hn List.not_mem_nil, List.nodup_nil⟩
  · rw [hredis] at hrow
    cases hrow
  · rw [hmem] at hrow
    cases hrow
  · cases hw
  · cases hj
  · cases hj
  · cases hj
  · cases hj
  · cases ht

/-- A nonce is accepted once at most, and was found, by the request that is accepted, within the
    lifetime of its challenge. -/
theorem singleUse_of_run {p : State × Spending} (hp : spentInTurn.Reachable p) :
    p.2.accepted.Nodup ∧ ∀ n ∈ p.2.accepted, ∃ t w, p.2.taken.get? n = some t ∧
      p.2.written.get? n = some w ∧ t.foundAt ≤ w.deadline := by
  have hout := Service.outline (P := fun _ _ _ => True) Sound preStage (fun _ _ _ _ _ => True)
    ?_ ?_ ?_ ?_ ?_ ?_ hp
  · refine ⟨hout.holds.nodup, fun n hn => ?_⟩
    obtain ⟨t, ht⟩ := hout.holds.accepted n hn
    obtain ⟨-, w, hw, hle⟩ := hout.holds.taken n t ht
    exact ⟨t, w, ht, hw, hle⟩
  · exact fun s hs => sound_start hs
  · intro a
    refine Program.along_of_forall (fun q next => ⟨trivial, fun p i r s hanswer hok hI hpre => ?_⟩) _
    obtain ⟨rfl, rfl⟩ := Prod.ext_iff.1 hanswer
    exact asserted_accept (hpre.record hok hI)
  · intro p a _ h
    exact ⟨h.holds, asserted_stage (.seeks (seeks_handle a))⟩
  · exact fun p a _ _ j b q next _ hpre => hpre
  · intro p i a q next hok h hi _
    have hpre := h.asserted i a q next hi
    exact (h.holds.record hpre hok).accept (hpre.record hok h.holds)
  · intro p i a q next hok h hi j b q' next' hji hj
    have hpre := h.asserted i a q next hi
    exact (h.asserted j b q' next' hj).other hji h.holds hpre (hpre.record hok h.holds)

namespace Sample

def noChallenges : Store := ⟨∅, ∅, .up, 0, 0⟩

def goodChecks : VerifyChecks := ⟨false, false, false, false, true, none⟩

/-- A request, with so many of its commands. -/
def whole (i : ℕ) (a : Request) (n : ℕ) : List (Event Request) :=
  .receive a :: List.replicate n (.serve i)

/-- Ann gets a challenge, and two requests with her signature look it up before either deletes it. -/
def together : List (Event Request) :=
  whole 0 (.challenge 0 "ann" false) 3 ++ whole 1 (.verify 0 "ann" 0 goodChecks) 2 ++
    whole 2 (.verify 0 "ann" 0 goodChecks) 2 ++ List.replicate 4 (.serve 1) ++
    List.replicate 4 (.serve 2)

/-- The deletion fails, and the signature is sent again when Redis is back. -/
def deletedElsewhere : List (Event Request) :=
  whole 0 (.challenge 0 "ann" false) 3 ++ whole 1 (.verify 0 "ann" 0 goodChecks) 4 ++
    whole 2 (.setLink .down) 1 ++ List.replicate 3 (.serve 1) ++ whole 3 (.setLink .up) 1 ++
    whole 4 (.verify 0 "ann" 0 goodChecks) 6

/-- Redis is down for a challenge and its use, and up for another one, which a request with the
    signature of the first one deletes. -/
def inTurn : List (Event Request) :=
  whole 0 (.setLink .down) 1 ++ whole 1 (.challenge 0 "ann" false) 4 ++
    whole 2 (.verify 0 "ann" 0 goodChecks) 8 ++ whole 3 (.setLink .up) 1 ++
    whole 4 (.challenge 0 "ann" false) 3 ++ whole 5 (.verify 0 "ann" 0 goodChecks) 4 ++
    whole 6 (.loginOptions 1 "bob" true) 3 ++ whole 7 (.loginVerify 0 "bob" 2 true true) 4

end Sample

section
open Sample

/-- Two requests are accepted with one nonce: those that look it up together, and one that comes
    after a deletion that went to the map of the process. -/
theorem accepted_twice :
    (∃ p, (challenges.recorded spending Store.IsInitial).run
      (.start noChallenges, spending.start) together = some p ∧ p.2.accepted = [0, 0]) ∧
    ∃ p, (challenges.recorded spending Store.IsInitial).run
      (.start noChallenges, spending.start) deletedElsewhere = some p ∧
        p.2.accepted = [0, 0] := by
  refine ⟨Option.map_eq_some_iff.1 ?_, Option.map_eq_some_iff.1 ?_⟩
  all_goals decide

theorem singleUse_of_run_inTurn :
    ∃ p, spentInTurn.run (.start noChallenges, spending.start) inTurn = some p ∧
      p.2.accepted.Nodup ∧ ∀ n ∈ p.2.accepted, ∃ t w, p.2.taken.get? n = some t ∧
        p.2.written.get? n = some w ∧ t.foundAt ≤ w.deadline := by
  obtain ⟨p, hp, hreachable⟩ := Machine.exists_reachable (by decide :
    (spentInTurn.run (.start noChallenges, spending.start) inTurn).isSome)
    ⟨⟨noChallenges, ⟨rfl, rfl⟩, rfl⟩, rfl⟩
  exact ⟨p, hp, singleUse_of_run hreachable⟩

end

end OneToThree.Challenges
