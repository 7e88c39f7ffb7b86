import OneToThree.Lib.Service

/-!
# The rendezvous of device linking

One rendezvous through which an existing device hands the vault, encrypted, to a new one:
its entry in the store, the commands on it, and the routes as programs over the commands
(`Lib.Service`). The store is Redis, or a map of the process where there is none.

Each route reads the entry, checks it, and writes later. A deposit writes back what it has
read, whatever the entry is by then; an attached key is written in a `MULTI` under a
`WATCH`, but on the connection that all requests share, where the `EXEC` of another
request ends the watch. So two deposits may both be accepted, and a write may bring back
an entry that a claim has consumed.

`exactlyOnce_of_run`: along a run in which every write finds the entry that its request
has read, the vault is deposited once, handed out once, and gone after that.
-/

namespace OneToThree.Devices

/-- The entry of a rendezvous. -/
structure DeviceRendezvous where
  ephemeralPubkey : Option String
  claimSecretHash : String
  depositSecretHash : String
  codeHash : Option String
  encBlob : Option String
  exp : ℕ
  deriving DecidableEq

/-- The checks that the routes apply, and whether there is a Redis. -/
structure Config where
  redis : Bool
  claimSecretMatches : String → String → Bool
  linkCodeMatches : String → Option String → Bool
  normalizeLinkCode : String → String
  isValidLinkCode : String → Bool
  isValidEphemeralEcdhJwk : String → Bool

structure Store where
  entry : Option DeviceRendezvous
  /-- The shared connection watches the entry. -/
  watching : Bool
  /-- What the connection watches has changed: its next `EXEC` fails. -/
  dirty : Bool
  /-- The link codes that point at the rendezvous. -/
  codeIndex : List String
  now : ℕ
  /-- The blobs saved so far: history, which no command reads. -/
  saved : List String
  deriving DecidableEq

/-! ## Commands -/

inductive Command
  /-- `getRendezvous` -/
  | get
  /-- `saveRendezvous` of a deposit: the entry that was read, with the blob. -/
  | save (seen : DeviceRendezvous) (encBlob : String)
  /-- `consumeRendezvous` -/
  | getdel
  | watch
  | unwatch
  /-- `MULTI`, `SET` of the entry that was read with the key, `EXEC` -/
  | exec (seen : DeviceRendezvous) (ephemeralPubkey : String)
  /-- `attachEphemeralPubkey` without a Redis -/
  | attach (ephemeralPubkey : String)
  | resolveCodeIndex (code : String)
  | deleteCodeIndex (code : String)
  /-- The key of the entry expires. -/
  | expire
  | elapse (ms : ℕ)
  /-- Another rendezvous is attached to on the connection: its `EXEC` or `UNWATCH`. -/
  | otherExec
  /-- What the connection watches of another rendezvous is changed. -/
  | otherChange

def Command.isSave : Command → Bool
  | .save _ _ => true
  | _ => false

abbrev Command.Result : Command → Type
  | .get | .getdel => Option DeviceRendezvous
  | .exec _ _ | .attach _ | .resolveCodeIndex _ => Bool
  | .save _ _ | .watch | .unwatch | .deleteCodeIndex _ | .expire | .elapse _ | .otherExec
  | .otherChange => Unit

namespace Store

/-- The entry, unless it has expired. -/
def live (s : Store) : Option DeviceRendezvous := s.entry.filter fun e => s.now ≤ e.exp

/-- The entry is written or deleted. -/
def put (s : Store) (entry : Option DeviceRendezvous) : Store :=
  { s with entry := entry, dirty := s.dirty || s.watching }

def release (s : Store) : Store := { s with watching := false, dirty := false }

def answer (c : Config) (s : Store) : (q : Command) → q.Result × Store
  | .get => (s.live, if c.redis then s else { s with entry := s.live })
  | .save seen encBlob =>
    ((), { s.put (some { seen with encBlob := some encBlob }) with saved := s.saved ++ [encBlob] })
  | .getdel => (s.live, if s.entry.isSome then s.put none else s)
  | .watch => ((), { s with watching := true })
  | .unwatch => ((), s.release)
  | .exec seen ephemeralPubkey =>
    if s.dirty then (false, s.release)
    else (true,
      { s.release with entry := some { seen with ephemeralPubkey := some ephemeralPubkey } })
  | .attach ephemeralPubkey =>
    match s.live with
    | some e =>
      if e.ephemeralPubkey.isSome then (false, s)
      else (true, s.put (some { e with ephemeralPubkey := some ephemeralPubkey }))
    | none => (false, s)
  | .resolveCodeIndex code => (decide (code ∈ s.codeIndex), s)
  | .deleteCodeIndex code => ((), { s with codeIndex := s.codeIndex.filter (· ≠ code) })
  | .expire => ((), if s.entry.any fun e => e.exp ≤ s.now then s.put none else s)
  | .elapse ms => ((), { s with now := s.now + ms })
  | .otherExec => ((), s.release)
  | .otherChange => ((), { s with dirty := true })

/-- The rendezvous was created, and nothing was deposited yet. -/
def IsInitial (s : Store) : Prop := (∀ e ∈ s.entry, e.encBlob = none) ∧ s.saved = []

end Store

/-! ## Routes -/

inductive Request
  /-- `POST .../submit-pubkey` -/
  | submitPubkey (claim_secret ephemeral_pubkey : String)
  /-- `GET .../status` -/
  | status
  /-- `POST .../deposit` -/
  | deposit (deposit_secret code : Option String) (enc_blob : String)
  /-- `POST .../claim` -/
  | claim (claim_secret : String)
  /-- `POST .../resolve-code` -/
  | resolveCode (code : String)
  /-- What is not a request on this rendezvous. -/
  | other (command : Command)

inductive Reply
  | error (status : ℕ) (code : String)
  | ok
  | status (ephemeral_pubkey : Option String) (deposited : Bool)
  | resolved (ephemeral_pubkey : String)
  | blob (enc_blob : String)
  deriving DecidableEq

abbrev Route := Program Command Command.Result Reply

abbrev command (q : Command) : Program Command Command.Result q.Result := Program.request q

variable (c : Config)

def attachLoop (ephemeralPubkey : String) : ℕ → Program Command Command.Result Bool
  | 0 => return false
  | attempts + 1 => do
    let _ ← command .watch
    match ← command .get with
    | none =>
      let _ ← command .unwatch
      return false
    | some entry =>
      if entry.ephemeralPubkey.isSome then
        let _ ← command .unwatch
        return false
      else if ← command (.exec entry ephemeralPubkey) then return true
      else attachLoop ephemeralPubkey attempts

def attachEphemeralPubkey (ephemeralPubkey : String) : Program Command Command.Result Bool :=
  if c.redis then attachLoop ephemeralPubkey 5 else command (.attach ephemeralPubkey)

def submitPubkey (claim_secret ephemeral_pubkey : String) : Route := do
  if !c.isValidEphemeralEcdhJwk ephemeral_pubkey then return .error 400 "INVALID_EPHEMERAL_KEY"
  match ← command .get with
  | none => return .error 404 "RENDEZVOUS_NOT_FOUND"
  | some entry =>
    if !c.claimSecretMatches claim_secret entry.claimSecretHash then
      return .error 403 "CLAIM_SECRET_INVALID"
    else if entry.ephemeralPubkey.isSome then
      return .error 409 "RENDEZVOUS_PUBKEY_ALREADY_SET"
    else
      let updated ← attachEphemeralPubkey c ephemeral_pubkey
      return if updated then .ok else .error 409 "RENDEZVOUS_PUBKEY_ALREADY_SET"

def status : Route := do
  match ← command .get with
  | none => return .error 404 "RENDEZVOUS_NOT_FOUND"
  | some entry => return .status entry.ephemeralPubkey entry.encBlob.isSome

/-- The end of a deposit: the entry that was read is saved with the blob. -/
def saveDeposit (entry : DeviceRendezvous) (enc_blob : String) (byCode : Option String) :
    Route := do
  let _ ← command (.save entry enc_blob)
  match byCode with
  | some code =>
    let _ ← command (.deleteCodeIndex (c.normalizeLinkCode code))
    return .ok
  | none => return .ok

def deposit (deposit_secret code : Option String) (enc_blob : String) : Route := do
  match ← command .get with
  | none => return .error 404 "RENDEZVOUS_NOT_FOUND"
  | some entry =>
    let bySecret := deposit_secret.any (c.claimSecretMatches · entry.depositSecretHash)
    let byCode := code.filter (c.linkCodeMatches · entry.codeHash)
    if !bySecret && byCode.isNone then return .error 403 "DEPOSIT_SECRET_INVALID"
    else if entry.ephemeralPubkey.isNone then return .error 409 "RENDEZVOUS_PUBKEY_MISSING"
    else if entry.encBlob.isSome then return .error 409 "RENDEZVOUS_ALREADY_DEPOSITED"
    else saveDeposit c entry enc_blob byCode

def claim (claim_secret : String) : Route := do
  match ← command .get with
  | none => return .error 404 "RENDEZVOUS_NOT_FOUND"
  | some entry =>
    if !c.claimSecretMatches claim_secret entry.claimSecretHash then
      return .error 403 "CLAIM_SECRET_INVALID"
    else if entry.encBlob.isNone then return .error 425 "NOT_READY"
    else
      match (← command .getdel).bind (·.encBlob) with
      | some enc_blob => return .blob enc_blob
      | none => return .error 404 "RENDEZVOUS_NOT_FOUND"

def resolveCode (code : String) : Route := do
  let code := c.normalizeLinkCode code
  if !c.isValidLinkCode code then return .error 400 "INVALID_CODE"
  if !(← command (.resolveCodeIndex code)) then return .error 404 "CODE_NOT_FOUND"
  match (← command .get).bind fun entry => entry.ephemeralPubkey.map (entry, ·) with
  | none =>
    let _ ← command (.deleteCodeIndex code)
    return .error 404 "CODE_NOT_FOUND"
  | some (entry, ephemeralPubkey) =>
    if entry.encBlob.isSome then return .error 409 "RENDEZVOUS_ALREADY_DEPOSITED"
    else return .resolved ephemeralPubkey

/-- What else happens: the clock, the expiry, and the other rendezvous. -/
def other : Command → Route
  | .expire => do let _ ← command .expire; return .ok
  | .elapse ms => do let _ ← command (.elapse ms); return .ok
  | .otherExec => do let _ ← command .otherExec; return .ok
  | .otherChange => do let _ ← command .otherChange; return .ok
  | _ => return .ok

def handle : Request → Route
  | .submitPubkey claim_secret ephemeral_pubkey => submitPubkey c claim_secret ephemeral_pubkey
  | .status => status
  | .deposit deposit_secret code enc_blob => deposit c deposit_secret code enc_blob
  | .claim claim_secret => claim c claim_secret
  | .resolveCode code => resolveCode c code
  | .other q => other q

/-- The service of one rendezvous. -/
def rendezvous : Service Store Command Command.Result Request Reply where
  answer := Store.answer c
  handle := handle c

/-! ## What the routes ask for -/

/-- A reply with data of the rendezvous. -/
def Reply.Data : Reply → Prop
  | .status _ _ | .resolved _ | .blob _ => True
  | .error _ _ | .ok => False

/-- A deposit that has saved its blob: it answers ok, or it drops its code first. -/
def Request.Owes (a : Request) (p : Route) : Prop :=
  (∃ s code b, a = .deposit s code b) ∧
    (p = .done .ok ∨ ∃ code next, p = .ask (.deleteCodeIndex code) next)

/-- What a request leaves unsaid: it has not saved a blob, and has no data to reply. -/
def Request.Silent (a : Request) (p : Route) : Prop :=
  ¬a.Owes p ∧ ∀ b, p = .done b → ¬b.Data

/-- What is known of the commands of a request, and of how it goes on. -/
def Request.MayAsk (a : Request) : (q : Command) → (q.Result → Route) → Prop
  | .get, next => ∀ r, ¬a.Owes (next r) ∧
      ∀ b, next r = .done b → (b.Data → r.isSome) ∧ ∀ x, b ≠ .blob x
  | .getdel, next => ∀ r, ¬a.Owes (next r) ∧
      ∀ b, next r = .done b → b.Data → ∃ x, r.bind (·.encBlob) = some x ∧ b = .blob x
  | .save seen encBlob, next => seen.encBlob = none ∧ (∃ s code, a = .deposit s code encBlob) ∧
      ∀ b, next () = .done b → ¬b.Data
  | .deleteCodeIndex _, next => ∀ b, next () = .done b → ¬b.Data
  | _, next => ∀ r, a.Silent (next r)

theorem silent_error (a : Request) (status : ℕ) (code : String) :
    a.Silent (.done (.error status code)) := by
  refine ⟨fun h => ?_, fun b h => ?_⟩
  · rcases h.2 with h | ⟨_, _, h⟩ <;> cases h
  · cases h
    exact id

/-- A request that asks anything but to drop a code is silent until it is answered. -/
theorem silent_ask (a : Request) {q : Command} (next : q.Result → Route)
    (hq : ∀ code, q ≠ .deleteCodeIndex code) : a.Silent (.ask q next) := by
  refine ⟨fun h => ?_, fun b h => nomatch h⟩
  rcases h.2 with h | ⟨code, next', h⟩
  · cases h
  · cases h
    exact hq code rfl

theorem silent_of_not_deposit {a : Request} (h : ∀ s code b, a ≠ .deposit s code b) {p : Route}
    (hp : ∀ b, p = .done b → ¬b.Data) : a.Silent p :=
  ⟨fun ⟨⟨s, code, b, ha⟩, _⟩ => h s code b ha, hp⟩

/-- What another request than a deposit may ask, if it returns no data at all. -/
theorem mayAsk_of_ends {a : Request} (ha : ∀ s code b, a ≠ .deposit s code b) {p : Route}
    (hp : p.Ends fun b => ¬b.Data) (hq : p.Along fun q _ => q.isSave = false) :
    p.Along a.MayAsk := by
  induction p with
  | done b => trivial
  | ask q next ih =>
    have hdata : ∀ r b, next r = .done b → ¬b.Data := fun r b hb => by
      have hr := hp r
      rw [hb] at hr
      exact hr
    have hsilent : ∀ r, a.Silent (next r) := fun r => silent_of_not_deposit ha (hdata r)
    refine ⟨?_, fun r => ih r (hp r) (hq.2 r)⟩
    cases q with
    | get => exact fun r => ⟨(hsilent r).1, fun b hb => ⟨fun h => absurd h (hdata r b hb),
        fun x hx => hdata r b hb (hx ▸ trivial)⟩⟩
    | getdel => exact fun r => ⟨(hsilent r).1, fun b hb h => absurd h (hdata r b hb)⟩
    | save seen b => exact absurd hq.1 Bool.noConfusion
    | deleteCodeIndex code => exact hdata ()
    | _ => exact hsilent

theorem attachLoop_asks (ephemeralPubkey : String) (attempts : ℕ) :
    (attachLoop ephemeralPubkey attempts).Along fun q _ => q.isSave = false := by
  induction attempts with
  | zero => trivial
  | succ attempts ih =>
    rw [attachLoop]
    refine .request rfl fun _ => .request rfl fun r => ?_
    rcases r with _ | entry
    · exact .request rfl fun _ => trivial
    · refine .ite (fun _ => .request rfl fun _ => trivial) fun _ => ?_
      refine .request rfl fun done => ?_
      exact .ite (fun _ => trivial) fun _ => ih

theorem submitPubkey_mayAsk (claim_secret ephemeral_pubkey : String) :
    (submitPubkey c claim_secret ephemeral_pubkey).Along
      (Request.submitPubkey claim_secret ephemeral_pubkey).MayAsk := by
  refine mayAsk_of_ends (fun _ _ _ h => by cases h) ?_ ?_
  · rw [submitPubkey]
    split
    · exact id
    · intro r
      rcases r with _ | entry
      · exact id
      change Program.Ends _ (if _ then _ else if _ then _ else _)
      split_ifs
      · exact id
      · exact id
      · exact .bind _ fun updated => by cases updated <;> exact id
  · rw [submitPubkey]
    refine .ite (fun _ => trivial) fun _ => .request rfl fun r => ?_
    rcases r with _ | entry
    · trivial
    refine .ite (fun _ => trivial) fun _ => .ite (fun _ => trivial) fun _ => .bind ?_ fun _ => trivial
    rw [attachEphemeralPubkey]
    exact .ite (fun _ => attachLoop_asks _ _) fun _ => ⟨rfl, fun _ => trivial⟩

/-- A request that goes on silently from what it has read. -/
theorem mayAsk_get {a : Request} {next : Option DeviceRendezvous → Route}
    (h : ∀ r, a.Silent (next r)) : a.MayAsk .get next := by
  refine fun r => ⟨(h r).1, fun b hb => ⟨fun hdata => absurd hdata ((h r).2 b hb), ?_⟩⟩
  exact fun x hx => (h r).2 b hb (hx ▸ trivial)

theorem silent_ite {a : Request} {d : Prop} [Decidable d] {p p' : Route} (h : d → a.Silent p)
    (h' : ¬d → a.Silent p') : a.Silent (if d then p else p') := by
  split_ifs with hd
  · exact h hd
  · exact h' hd

theorem deposit_mayAsk (secret code : Option String) (enc_blob : String) :
    (deposit c secret code enc_blob).Along (Request.deposit secret code enc_blob).MayAsk := by
  rw [deposit]
  refine .request (mayAsk_get fun r => ?_) fun r => ?_
  · rcases r with _ | entry
    · exact silent_error _ _ _
    refine silent_ite (fun _ => silent_error _ _ _) fun _ =>
      silent_ite (fun _ => silent_error _ _ _) fun _ =>
        silent_ite (fun _ => silent_error _ _ _) fun _ => ?_
    exact silent_ask _ _ (fun _ h => by cases h)
  · rcases r with _ | entry
    · trivial
    refine .ite (fun _ => trivial) fun _ => .ite (fun _ => trivial) fun _ =>
      .ite (fun _ => trivial) fun hblob => ?_
    -- What was read has no blob yet.
    have hnone : entry.encBlob = none := by simpa using hblob
    rw [saveDeposit.eq_def]
    generalize code.filter (c.linkCodeMatches · entry.codeHash) = byCode
    refine .request ⟨hnone, ⟨secret, code, rfl⟩, fun b hb => ?_⟩ fun _ => ?_
    · cases byCode <;> cases hb
      exact id
    · cases byCode with
      | none => trivial
      | some code =>
        refine .request (fun b hb => ?_) fun _ => trivial
        cases hb
        exact id

theorem claim_mayAsk (claim_secret : String) :
    (claim c claim_secret).Along (Request.claim claim_secret).MayAsk := by
  rw [claim]
  refine .request (mayAsk_get fun r => ?_) fun r => ?_
  · rcases r with _ | entry
    · exact silent_error _ _ _
    refine silent_ite (fun _ => silent_error _ _ _) fun _ =>
      silent_ite (fun _ => silent_error _ _ _) fun _ => ?_
    exact silent_ask _ _ (fun _ h => by cases h)
  · rcases r with _ | entry
    · trivial
    refine .ite (fun _ => trivial) fun _ => .ite (fun _ => trivial) fun _ => .request ?_ fun r => ?_
    · -- The blob that is handed out is the one that was consumed.
      intro r
      dsimp only
      cases r.bind (·.encBlob) with
      | none =>
        refine ⟨(silent_error _ _ _).1, fun b hb h => ?_⟩
        cases hb
        exact h.elim
      | some enc_blob =>
        refine ⟨fun h => ?_, fun b hb _ => ?_⟩
        · obtain ⟨⟨_, _, _, h⟩, -⟩ := h
          cases h
        · cases hb
          exact ⟨enc_blob, rfl, rfl⟩
    · cases r.bind (·.encBlob) <;> trivial

theorem status_mayAsk : (status).Along Request.status.MayAsk := by
  rw [status]
  refine .request (fun r => ?_) fun r => by cases r <;> trivial
  refine ⟨fun h => ?_, fun b hb => ?_⟩
  · obtain ⟨⟨_, _, _, h⟩, -⟩ := h
    cases h
  · rcases r with _ | entry
    · cases hb
      exact ⟨False.elim, fun x hx => by cases hx⟩
    · cases hb
      exact ⟨fun _ => rfl, fun x hx => by cases hx⟩

theorem resolveCode_mayAsk (code : String) :
    (resolveCode c code).Along (Request.resolveCode code).MayAsk := by
  have ha : ∀ p : Route, ¬(Request.resolveCode code).Owes p := by
    rintro p ⟨⟨_, _, _, h⟩, -⟩
    cases h
  rw [resolveCode]
  refine .ite (fun _ => trivial) fun _ => .request (fun found => ?_) fun found => ?_
  · cases found
    · exact silent_error _ _ _
    · exact silent_ask _ _ (fun _ h => by cases h)
  · refine .ite (fun _ => trivial) fun _ => .request (fun r => ⟨ha _, fun b hb => ?_⟩) fun r => ?_
    · rcases r with _ | ⟨_ | key, _, _, _, blob, _⟩
      · cases hb
      · cases hb
      · refine ⟨fun _ => rfl, fun x hx => ?_⟩
        subst hx
        cases blob <;> cases hb
    · rcases r with _ | ⟨_ | key, _, _, _, blob, _⟩
      · refine .request (fun b hb => ?_) fun _ => trivial
        cases hb
        exact id
      · refine .request (fun b hb => ?_) fun _ => trivial
        cases hb
        exact id
      · cases blob <;> trivial

theorem other_mayAsk (q : Command) : (other q).Along (Request.other q).MayAsk := by
  refine mayAsk_of_ends (fun _ _ _ h => by cases h) ?_ ?_
  · cases q <;> first | exact id | exact fun _ => id
  · cases q <;> first | trivial | exact .request rfl fun _ => trivial

/-- What the requests ask for. -/
theorem handle_mayAsk (a : Request) : (handle c a).Along a.MayAsk := by
  cases a with
  | submitPubkey claim_secret key => exact submitPubkey_mayAsk c claim_secret key
  | status => exact status_mayAsk
  | deposit secret code enc_blob => exact deposit_mayAsk c secret code enc_blob
  | claim claim_secret => exact claim_mayAsk c claim_secret
  | resolveCode code => exact resolveCode_mayAsk c code
  | other q => exact other_mayAsk q

/-! ## One command -/

/-- A write lands as it was read: it finds the entry that its request has read. -/
def LandsAsRead (s : Store) : Command → Prop
  | .save seen _ => s.entry = some seen
  | .exec seen _ => s.dirty = false → s.entry = some seen
  | _ => True

instance (s : Store) : ∀ q : Command, Decidable (LandsAsRead s q)
  | .save seen _ => inferInstanceAs (Decidable (s.entry = some seen))
  | .exec seen _ => inferInstanceAs (Decidable (s.dirty = false → s.entry = some seen))
  | .get | .getdel | .watch | .unwatch | .attach _ | .resolveCodeIndex _ | .deleteCodeIndex _
  | .expire | .elapse _ | .otherExec | .otherChange => isTrue trivial

namespace Store

/-- One blob was saved at most, and it is the one of the entry. -/
structure Sound (s : Store) : Prop where
  once : s.saved.length ≤ 1
  entry : ∀ e ∈ s.entry, e.encBlob = s.saved.head?

theorem mem_entry_of_live {s : Store} {e : DeviceRendezvous} (h : s.live = some e) :
    s.entry = some e :=
  (Option.filter_eq_some_iff.1 h).1

theorem Sound.answer {s : Store} (h : s.Sound) {q : Command} (hok : LandsAsRead s q)
    (hfirst : ∀ seen b, q = .save seen b → seen.encBlob = none) : (s.answer c q).2.Sound := by
  cases q with
  | get =>
    rw [Store.answer]
    split_ifs
    · exact h
    · exact ⟨h.once, fun e he => h.entry e (mem_entry_of_live he)⟩
  | save seen b =>
    -- Nothing was saved before: the entry is the one that was read, which has no blob.
    have hnone : s.saved = [] := by
      rw [← List.head?_eq_none_iff, ← h.entry seen hok]
      exact hfirst seen b rfl
    refine ⟨?_, fun e he => ?_⟩
    · change (s.saved ++ [b]).length ≤ 1
      rw [hnone]
      exact Nat.le_refl 1
    · obtain rfl := Option.some.inj he
      change some b = (s.saved ++ [b]).head?
      rw [hnone]
      rfl
  | getdel =>
    rw [Store.answer]
    split_ifs
    · exact ⟨h.once, fun e he => nomatch he⟩
    · exact h
  | exec seen key =>
    rw [Store.answer]
    split_ifs with hdirty
    · exact ⟨h.once, h.entry⟩
    · refine ⟨h.once, fun e he => ?_⟩
      obtain rfl := Option.some.inj he
      exact h.entry seen (hok (Bool.eq_false_iff.2 hdirty))
  | attach key =>
    rw [Store.answer]
    split
    · rename_i e he
      split_ifs
      · exact h
      · refine ⟨h.once, fun e' he' => ?_⟩
        obtain rfl := Option.some.inj he'
        exact h.entry e (mem_entry_of_live he)
    · exact h
  | expire =>
    rw [Store.answer]
    dsimp only
    split_ifs
    · exact ⟨h.once, fun e he => nomatch he⟩
    · exact h
  | _ => exact ⟨h.once, h.entry⟩

/-- What is gone stays gone. -/
theorem entry_answer_of_none {s : Store} (h : s.entry = none) {q : Command}
    (hok : LandsAsRead s q) :
    (s.answer c q).2.entry = none ∧ (s.answer c q).2.saved = s.saved := by
  have hlive : s.live = none := by rw [live, h]; rfl
  cases q with
  | get =>
    rw [Store.answer]
    split_ifs
    · exact ⟨h, rfl⟩
    · exact ⟨hlive, rfl⟩
  | save seen b => exact nomatch h.symm.trans hok
  | getdel =>
    rw [Store.answer]
    split_ifs
    · exact ⟨rfl, rfl⟩
    · exact ⟨h, rfl⟩
  | exec seen key =>
    rw [Store.answer]
    split_ifs with hdirty
    · exact ⟨h, rfl⟩
    · exact nomatch h.symm.trans (hok (Bool.eq_false_iff.2 hdirty))
  | attach key =>
    rw [Store.answer, hlive]
    exact ⟨h, rfl⟩
  | expire =>
    rw [Store.answer]
    dsimp only
    split_ifs
    · exact ⟨rfl, rfl⟩
    · exact ⟨h, rfl⟩
  | _ => exact ⟨h, rfl⟩

end Store

/-! ## Counting the deposits -/

section
variable (φ : String → Bool)

/-- A deposit of a blob with `φ` that was answered ok. -/
def okDeposit : Request × Reply → Bool
  | (.deposit _ _ b, .ok) => φ b
  | _ => false

/-- A deposit of a blob with `φ` that is to be answered ok, and drops its code first. -/
def dropsCode : Request → Command → ℕ
  | .deposit _ _ b, .deleteCodeIndex _ => if φ b then 1 else 0
  | _, _ => 0

/-- The deposits that a request makes, answered or not. -/
def deposited (a : Request) (p : Route) : ℕ :=
  (Service.replyOf a p).countP (okDeposit φ) + Service.weigh (dropsCode φ) a p

theorem deposited_of_not_owes {a : Request} {p : Route} (h : ¬a.Owes p) : deposited φ a p = 0 := by
  rw [deposited, Nat.add_eq_zero_iff]
  cases p with
  | done b =>
    refine ⟨?_, rfl⟩
    rw [Service.replyOf_done, List.countP_singleton]
    refine if_neg fun hok => h ?_
    cases a <;> cases b <;> first | cases hok | exact ⟨⟨_, _, _, rfl⟩, .inl rfl⟩
  | ask q next =>
    refine ⟨rfl, ?_⟩
    cases a <;> try rfl
    cases q <;> try rfl
    exact absurd ⟨⟨_, _, _, rfl⟩, .inr ⟨_, _, rfl⟩⟩ h

theorem deposited_le (secret code : Option String) (b : String) (p : Route) :
    deposited φ (.deposit secret code b) p ≤ if φ b then 1 else 0 := by
  rw [deposited]
  cases p with
  | done reply =>
    cases reply with
    | ok => exact Nat.le_of_eq (List.countP_singleton ..)
    | _ => exact Nat.zero_le _
  | ask q next =>
    cases q with
    | deleteCodeIndex code => exact Nat.le_of_eq (Nat.zero_add _)
    | _ => exact Nat.zero_le _

end

/-- A reply that hands out a blob. -/
def isBlob : Request × Reply → Bool
  | (_, .blob _) => true
  | _ => false

/-- What holds of the store, the deposits with `φ` that are still to be answered, and the
    replies. -/
structure Inv (φ : String → Bool) (s : Store) (n : ℕ) (replies : List (Request × Reply)) :
    Prop where
  sound : s.Sound
  deposits : replies.countP (okDeposit φ) + n ≤ s.saved.countP φ
  claimed : ∀ x ∈ replies, ∀ b, x.2 = .blob b → s.entry = none ∧ s.saved = [b]
  claims : replies.countP isBlob ≤ 1
  after : ∀ l x l', replies = l ++ x :: l' → isBlob x → ∀ y ∈ l', ¬y.2.Data

/-- A reply without data changes nothing but the count of the deposits. -/
theorem Inv.reply {φ : String → Bool} {s s' : Store} {n n' : ℕ}
    {replies : List (Request × Reply)} (h : Inv φ s n replies) (hsound : s'.Sound) {a : Request}
    {p : Route} (hdata : ∀ b, p = .done b → ¬b.Data)
    (hgone : s.entry = none → s'.entry = none ∧ s'.saved = s.saved)
    (hcount : deposited φ a p + (replies.countP (okDeposit φ) + n') ≤ s'.saved.countP φ) :
    Inv φ s' (Service.weigh (dropsCode φ) a p + n') (replies ++ Service.replyOf a p) := by
  have hnew : ∀ x ∈ Service.replyOf a p, ¬x.2.Data := fun x hx => hdata x.2 (Service.mem_replyOf.1 hx).2
  have hblob : ∀ x : Request × Reply, isBlob x → x.2.Data := by
    rintro ⟨_, reply⟩ hx
    cases reply <;> first | exact trivial | cases hx
  refine ⟨hsound, ?_, fun x hx b hb => ?_, ?_, fun l x l' hsplit hx => ?_⟩
  · rw [List.countP_append]
    rw [deposited] at hcount
    omega
  · rcases List.mem_append.1 hx with hx | hx
    · obtain ⟨hnone, hsaved⟩ := h.claimed x hx b hb
      exact ⟨(hgone hnone).1, (hgone hnone).2.trans hsaved⟩
    · exact absurd (hb ▸ trivial) (hnew x hx)
  · rw [List.countP_append, List.countP_eq_zero.2 fun x hx hxb => hnew x hx (hblob x hxb)]
    exact h.claims
  · rcases List.append_eq_append_iff.1 hsplit with ⟨m, rfl, hm⟩ | ⟨m, rfl, hm⟩
    · -- The blob would be among the new replies.
      exact absurd (hblob x hx) (hnew x (hm ▸ List.mem_append_right _ List.mem_cons_self))
    · rcases m with _ | ⟨x', m⟩
      · obtain hm : x :: l' = Service.replyOf a p := hm
        exact absurd (hblob x hx) (hnew x (hm ▸ List.mem_cons_self))
      · obtain ⟨rfl, rfl⟩ := List.cons.inj hm
        intro y hy
        rcases List.mem_append.1 hy with hy | hy
        · exact h.after l x m rfl hx y hy
        · exact hnew y hy

/-- A reply with data, while there is an entry: nothing was handed out before. -/
theorem Inv.reply_data {φ : String → Bool} {s s' : Store} {n n' : ℕ}
    {replies : List (Request × Reply)} (h : Inv φ s n replies) (hsound : s'.Sound)
    {e : DeviceRendezvous} (hentry : s.entry = some e) {x : Request × Reply}
    (hblob : ∀ b, x.2 = .blob b → s'.entry = none ∧ s'.saved = [b])
    (hcount : (replies ++ [x]).countP (okDeposit φ) + n' ≤ s'.saved.countP φ) :
    Inv φ s' n' (replies ++ [x]) := by
  have hnone : ∀ y ∈ replies, ¬isBlob y := by
    rintro ⟨a, reply⟩ hy hyb
    cases reply with
    | blob b =>
      have hgone := (h.claimed _ hy b rfl).1
      rw [hentry] at hgone
      cases hgone
    | _ => cases hyb
  refine ⟨hsound, hcount, fun y hy b hb => ?_, ?_, fun l y l' hsplit hy z hz => ?_⟩
  · rcases List.mem_append.1 hy with hy | hy
    · refine absurd ?_ (hnone y hy)
      rw [← Prod.eta y, hb]
      rfl
    · obtain rfl := List.mem_singleton.1 hy
      exact hblob b hb
  · rw [List.countP_append, List.countP_eq_zero.2 hnone, Nat.zero_add]
    exact List.countP_le_length
  · -- The only blob is the last reply.
    rcases List.eq_nil_or_concat l' with rfl | ⟨l'', w, rfl⟩
    · cases hz
    · refine absurd hy (hnone y ?_)
      rw [List.concat_eq_append, ← List.cons_append, ← List.append_assoc] at hsplit
      rw [(List.append_inj' hsplit rfl).1]
      exact List.mem_append_right _ List.mem_cons_self

theorem weigh_dropsCode_of_not_owes {φ : String → Bool} {a : Request} {p : Route}
    (h : ¬a.Owes p) :
    (Service.replyOf a p).countP (okDeposit φ) = 0 ∧ Service.weigh (dropsCode φ) a p = 0 :=
  Nat.add_eq_zero_iff.1 (deposited_of_not_owes φ h)

/-- A served command keeps the invariant. -/
theorem Inv.serve {φ : String → Bool} {s : Store} {n : ℕ} {replies : List (Request × Reply)}
    {a : Request} {q : Command} {next : q.Result → Route}
    (h : Inv φ s (dropsCode φ a q + n) replies) (hask : a.MayAsk q next)
    (hok : LandsAsRead s q) :
    Inv φ (s.answer c q).2 (Service.weigh (dropsCode φ) a (next (s.answer c q).1) + n)
      (replies ++ Service.replyOf a (next (s.answer c q).1)) := by
  have hsound := h.sound.answer c hok fun seen b hq => by subst hq; exact hask.1
  have hgone := fun hnone => Store.entry_answer_of_none c (s := s) hnone hok
  have hle : replies.countP (okDeposit φ) + n ≤ s.saved.countP φ := by
    have hdep := h.deposits
    omega
  have hsilent : ∀ p : Route, a.Silent p → (s.answer c q).2.saved = s.saved →
      Inv φ (s.answer c q).2 (Service.weigh (dropsCode φ) a p + n)
        (replies ++ Service.replyOf a p) := by
    refine fun p hp hsaved => h.reply hsound hp.2 hgone ?_
    rw [deposited_of_not_owes φ hp.1, hsaved, Nat.zero_add]
    exact hle
  -- A reply with data, to what was read of the entry.
  have hdata : ∀ (e : DeviceRendezvous) (p : Route) (b : Reply), s.entry = some e → ¬a.Owes p →
      p = .done b → (∀ x, b = .blob x → (s.answer c q).2.entry = none ∧
        (s.answer c q).2.saved = [x]) → (s.answer c q).2.saved = s.saved →
      Inv φ (s.answer c q).2 (Service.weigh (dropsCode φ) a p + n)
        (replies ++ Service.replyOf a p) := by
    rintro e _ b hentry howes rfl hblob hsaved
    obtain ⟨hcount, hweigh⟩ := weigh_dropsCode_of_not_owes (φ := φ) howes
    refine h.reply_data hsound hentry hblob ?_
    rw [hweigh, hsaved, Nat.zero_add, List.countP_append]
    rw [Service.replyOf_done] at hcount
    omega
  cases q with
  | get =>
    have hsaved : (s.answer c .get).2.saved = s.saved := by rw [Store.answer]; split_ifs <;> rfl
    obtain ⟨howes, hreply⟩ := hask (s.answer c .get).1
    by_cases hb : ∃ b, next (s.answer c .get).1 = .done b ∧ b.Data
    · obtain ⟨b, hdone, hb⟩ := hb
      obtain ⟨hsome, hnotblob⟩ := hreply b hdone
      obtain ⟨e, he⟩ := Option.isSome_iff_exists.1 (hsome hb)
      exact hdata e _ b (Store.mem_entry_of_live he) howes hdone
        (fun x hx => absurd hx (hnotblob x)) hsaved
    · exact hsilent _ ⟨howes, fun b hdone hdata => hb ⟨b, hdone, hdata⟩⟩ hsaved
  | getdel =>
    have hsaved : (s.answer c .getdel).2.saved = s.saved := by
      rw [Store.answer]
      dsimp only
      split_ifs <;> rfl
    obtain ⟨howes, hreply⟩ := hask (s.answer c .getdel).1
    by_cases hb : ∃ b, next (s.answer c .getdel).1 = .done b ∧ b.Data
    · obtain ⟨b, hdone, hb⟩ := hb
      obtain ⟨x, hx, rfl⟩ := hreply b hdone hb
      obtain ⟨e, he, hblob⟩ := Option.bind_eq_some_iff.1 hx
      have hentry := Store.mem_entry_of_live he
      refine hdata e _ _ hentry howes hdone (fun y hy => ⟨?_, ?_⟩) hsaved
      · rw [Store.answer, if_pos (by rw [hentry]; rfl)]
        rfl
      · obtain rfl : x = y := by cases hy; rfl
        rw [hsaved]
        have hhead := h.sound.entry e hentry
        rw [hblob] at hhead
        have honce := h.sound.once
        match hlist : s.saved, hhead, honce with
        | [z], hhead, _ => rw [Option.some.inj hhead]
    · exact hsilent _ ⟨howes, fun b hdone hdata => hb ⟨b, hdone, hdata⟩⟩ hsaved
  | save seen b =>
    obtain ⟨-, ⟨secret, code, rfl⟩, hnodata⟩ := hask
    refine h.reply hsound hnodata hgone ?_
    have hcount := deposited_le φ secret code b (next (s.answer c (.save seen b)).1)
    change _ ≤ (s.saved ++ [b]).countP φ
    rw [List.countP_append, List.countP_singleton]
    omega
  | deleteCodeIndex code =>
    refine h.reply hsound hask hgone ?_
    change _ ≤ s.saved.countP φ
    by_cases ha : ∃ secret code b, a = .deposit secret code b
    · obtain ⟨secret, code', b, rfl⟩ := ha
      have hcount := deposited_le φ secret code' b (next (s.answer c (.deleteCodeIndex code)).1)
      have hdep := h.deposits
      change _ + ((if φ b then 1 else 0) + n) ≤ _ at hdep
      omega
    · rw [deposited_of_not_owes φ fun h => ha h.1, Nat.zero_add]
      exact hle
  | exec seen key =>
    refine hsilent _ (hask _) ?_
    rw [Store.answer]
    split_ifs <;> rfl
  | attach key =>
    refine hsilent _ (hask _) ?_
    rw [Store.answer]
    split
    · split_ifs <;> rfl
    · rfl
  | expire =>
    refine hsilent _ (hask _) ?_
    rw [Store.answer]
    dsimp only
    split_ifs <;> rfl
  | _ => exact hsilent _ (hask _) rfl

/-! ## Every run -/

/-- The vault is deposited once, handed out once, as it was deposited, and gone then. -/
structure ExactlyOnce (s : Store) (replies : List (Request × Reply)) : Prop where
  /-- At most one deposit is answered ok. -/
  deposit : replies.countP (okDeposit fun _ => true) ≤ 1
  /-- At most one claim returns a blob. -/
  claim : replies.countP isBlob ≤ 1
  /-- It is the blob of the one deposit that was saved, and of none else that was answered. -/
  blob : ∀ x ∈ replies, ∀ b, x.2 = .blob b → s.saved = [b] ∧
    ∀ secret code b', (Request.deposit secret code b', Reply.ok) ∈ replies → b' = b
  /-- There is no rendezvous any more, and no later reply has data of it. -/
  consumed : ∀ l x l', replies = l ++ x :: l' → isBlob x → s.entry = none ∧
    ∀ y ∈ l', ¬y.2.Data

theorem Inv.start {φ : String → Bool} {s : Store} (h : s.IsInitial) : Inv φ s 0 [] where
  sound := ⟨by rw [h.2]; exact Nat.zero_le 1, fun e he => by rw [h.1 e he, h.2]; rfl⟩
  deposits := Nat.zero_le _
  claimed x hx := nomatch hx
  claims := Nat.zero_le _
  after l x l' hsplit := nomatch (List.append_eq_nil_iff.1 hsplit.symm).2

/-- A request is silent when it is received. -/
theorem handle_silent (a : Request) : a.Silent (handle c a) := by
  cases a with
  | submitPubkey claim_secret key =>
    rw [handle, submitPubkey]
    exact silent_ite (fun _ => silent_error _ _ _) fun _ => silent_ask _ _ fun _ h => by cases h
  | resolveCode code =>
    rw [handle, resolveCode]
    exact silent_ite (fun _ => silent_error _ _ _) fun _ => silent_ask _ _ fun _ h => by cases h
  | other q =>
    refine silent_of_not_deposit (fun _ _ _ h => by cases h) fun b hb => ?_
    cases q <;> cases hb <;> exact id
  | _ => exact silent_ask _ _ fun _ h => by cases h

theorem inv_of_run {φ : String → Bool}
    {s : Service.State Store Command Command.Result Request Reply}
    (hs : (((rendezvous c).machine Store.IsInitial).restrict
      (Service.Orderly (fun _ _ => True) LandsAsRead)).Reachable s) :
    Inv φ s.store (s.inFlight (dropsCode φ)) s.replies := by
  refine Service.invariant_inFlight (dropsCode φ) (I := Inv φ) (G := fun _ _ => True)
    (P := Request.MayAsk) (fun _ => .start) (fun _ _ _ _ => trivial) (handle_mayAsk c) ?_ ?_ hs
  · intro s n a _ h
    have hsilent := handle_silent c a
    refine ⟨trivial, h.reply h.sound hsilent.2 (fun hnone => ⟨hnone, rfl⟩) ?_⟩
    change deposited φ a (handle c a) + _ ≤ _
    rw [deposited_of_not_owes φ hsilent.1, Nat.zero_add]
    exact h.deposits
  · exact fun s n replies a q next _ hask hok h => h.serve c hask hok

/-- Along a run in which every write finds the entry that its request has read, the vault
    is deposited once, handed out once, and gone then. -/
theorem exactlyOnce_of_run {s : Service.State Store Command Command.Result Request Reply}
    (hs : (((rendezvous c).machine Store.IsInitial).restrict
      (Service.Orderly (fun _ _ => True) LandsAsRead)).Reachable s) :
    ExactlyOnce s.store s.replies := by
  have hall := inv_of_run c (φ := fun _ => true) hs
  refine ⟨?_, hall.claims, fun x hx b hb => ?_, fun l x l' hsplit hx => ⟨?_, ?_⟩⟩
  · have hcount := hall.deposits
    have hlen : s.store.saved.countP (fun _ => true) ≤ s.store.saved.length :=
      List.countP_le_length
    have honce := hall.sound.once
    omega
  · refine ⟨(hall.claimed x hx b hb).2, fun secret code b' hmem => ?_⟩
    -- Of the blobs saved, one is the deposited one; and only one was saved.
    have hcount := (inv_of_run c (φ := fun y => y = b') hs).deposits
    have hpos : 0 < s.replies.countP (okDeposit fun y => y = b') :=
      List.countP_pos_iff.2 ⟨_, hmem, decide_eq_true rfl⟩
    rw [(hall.claimed x hx b hb).2, List.countP_singleton] at hcount
    split_ifs at hcount with heq
    · exact (of_decide_eq_true heq).symm
    · omega
  · obtain ⟨a, reply⟩ := x
    cases reply with
    | blob b => exact (hall.claimed _ (hsplit ▸ List.mem_append_right _ List.mem_cons_self) b rfl).1
    | _ => cases hx
  · exact hall.after l x l' hsplit hx

namespace Sample

def config : Config where
  redis := true
  claimSecretMatches secret hash := secret = hash
  linkCodeMatches code hash := hash = some code
  normalizeLinkCode code := code
  isValidLinkCode _ := true
  isValidEphemeralEcdhJwk _ := true

/-- A rendezvous of a new device that shows the QR code. -/
def store : Store where
  entry := some ⟨some "key", "claim", "deposit", none, none, 300000⟩
  watching := false
  dirty := false
  codeIndex := []
  now := 0
  saved := []

theorem store_isInitial : store.IsInitial :=
  ⟨fun e he => by obtain rfl := Option.some.inj he; rfl, rfl⟩

/-- Two deposits read the entry before either of them saves its blob. -/
def twice : List (Service.Event Request) :=
  [.receive (.deposit (some "deposit") none "x"), .receive (.deposit (some "deposit") none "y"),
    .serve 0, .serve 1, .serve 0, .serve 1]

/-- A second deposit comes once the first one is done, and the blob is claimed. -/
def inTurn : List (Service.Event Request) :=
  [.receive (.deposit (some "deposit") none "x"), .serve 0, .serve 0,
    .receive (.deposit (some "deposit") none "y"), .serve 1,
    .receive (.claim "claim"), .serve 2, .serve 2, .receive .status, .serve 3]

end Sample

section
open Sample

/-- Both deposits are answered ok. -/
theorem deposited_twice : ¬∀ s, ((rendezvous config).machine Store.IsInitial).Reachable s →
    ExactlyOnce s.store s.replies := by
  intro h
  have hrun : (((rendezvous config).machine Store.IsInitial).run (.start store) twice).map
      (fun s => s.replies.countP (okDeposit fun _ => true)) = some 2 := by decide
  obtain ⟨s, hs, hcount⟩ := Option.map_eq_some_iff.1 hrun
  have honce := (h s (Machine.reachable_of_run hs ⟨store, store_isInitial, rfl⟩)).deposit
  rw [hcount] at honce
  exact absurd honce (by decide)

theorem exactlyOnce_of_run_inTurn : ∃ s,
    (((rendezvous config).machine Store.IsInitial).restrict
      (Service.Orderly (fun _ _ => True) LandsAsRead)).run (.start store) inTurn = some s ∧
    ExactlyOnce s.store s.replies := by
  obtain ⟨s, hs, hreachable⟩ := Machine.exists_reachable (by decide :
    ((((rendezvous config).machine Store.IsInitial).restrict
      (Service.Orderly (fun _ _ => True) LandsAsRead)).run (.start store) inTurn).isSome)
    ⟨store, store_isInitial, rfl⟩
  exact ⟨s, hs, exactlyOnce_of_run config hreachable⟩

end

end OneToThree.Devices
