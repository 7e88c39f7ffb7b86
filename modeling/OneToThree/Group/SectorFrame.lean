import OneToThree.Group.SectorWrap
import OneToThree.Lib.Machine
import OneToThree.Lib.Newest

/-!
# The frames of a member

What `buildSectorFrame` makes of the member rows that a server serves: the key that the
member encrypts with, and the ring of the keys that it decrypts with. The ring of wrapped
keys is stored between the calls.

* `buildSectorFrame`, with the stored ring passed along.
* `frames` is the machine of its calls, for one member and chat, whatever rows are served;
  its history, which no call reads, records each frame with what it was built from.
* `Sound`: the ring holds, of the epochs that were served, the newest, each with the first
  wrap that was served for it.

The epochs are numbers of the language, in their order; the stored ones are finite.
-/

namespace OneToThree.SectorWrap

variable {N P : Type} [JsNumber N] [LinearOrder N]

/-! ## The stored ring -/

/-- One retained wrapped key: the stored text, and the epoch that is read from it. -/
structure RingEntry (N : Type) where
  epoch : N
  wrapped : String
  deriving DecidableEq

def RING_CAP : ℕ := 16

/-- The retained wrapped keys, newest epoch first. -/
def getRingEntries (entries : List (RingEntry N)) : List (RingEntry N) :=
  Newest.sort RingEntry.epoch entries

/-- The ring with another wrapped key: the first one of an epoch wins. -/
def addRingEntry (existing : List (RingEntry N)) (epoch : N) (wrapped : String) :
    List (RingEntry N) :=
  if existing.any fun e => e.epoch = epoch then existing
  else Newest.keep RingEntry.epoch RING_CAP existing ⟨epoch, wrapped⟩

/-- The epoch that a payload names: 0 where it names none. -/
def stampedEpoch (data : Json N) : N :=
  match data.get? "epoch" with
  | some (.num n) => if JsNumber.isFinite n then n else JsNumber.ofNat 0
  | _ => JsNumber.ofNat 0

/-- The epoch that a stored wrap names, without opening it. -/
def readStoredSectorKeyEpoch (rt : Runtime N P) (encryptedBase64 : String) : Option N :=
  match storedPayload rt encryptedBase64 with
  | .error _ | .ok .null => none
  | .ok data => some (stampedEpoch data)

/-- The epoch that a wrapped key is retained under. -/
def epochOf (rt : Runtime N P) (wrapped : String) : N :=
  (readStoredSectorKeyEpoch rt wrapped).getD (JsNumber.ofNat 0)

/-! ## Building a frame -/

inductive MemberRole
  | owner
  | admin
  | member
  deriving DecidableEq

/-- A row of the roster, as it is served. -/
structure SectorMember where
  user_id : String
  ecdh_public_key_jwk : Option String
  encrypted_group_key : Option String
  role : Option MemberRole
  deriving DecidableEq

inductive FrameError
  | missingSectorKey
  | missingSectorOwnerSignal
  | unwrap (e : WrapError)
  deriving DecidableEq

def FrameError.message : FrameError → String
  | .missingSectorKey => "ERR_MISSING_SECTOR_KEY"
  | .missingSectorOwnerSignal => "ERR_MISSING_SECTOR_OWNER_SIGNAL"
  | .unwrap e => e.message

/-- The context of a group chat: the key to encrypt with, and the keys to decrypt with. -/
structure SectorFrame where
  chatId : String
  groupKey : Bytes
  groupKeyRing : List Bytes
  deriving DecidableEq

/-- The member whose frames are built, and the chat. -/
structure Reader (P : Type) where
  chatId : String
  myUserId : String
  privateKey : P

def Reader.bind (me : Reader P) : WrapBinding := ⟨me.chatId, me.myUserId⟩

def resolveSectorOwnerEcdhJwk (members : List SectorMember) : Except FrameError String :=
  match ((members.find? fun m => m.role = some .owner).bind
      SectorMember.ecdh_public_key_jwk).filter (· ≠ "") with
  | none => .error .missingSectorOwnerSignal
  | some jwk => .ok jwk

variable [DecidableEq P] (rt : Runtime N P) (sealings : List (Sealing P)) (me : Reader P)

/-- Opening a retained wrap: the owner of today is not asked for. -/
def unwrapRetained (wrapped : String) : Except WrapError Bytes :=
  unwrapGroupKeyFromStoredPayload rt sealings me.privateKey wrapped none (some me.bind)

/-- The wrap that is served to the member, and the key in it. -/
def currentSectorKey (members : List SectorMember) : Except FrameError (String × Bytes) :=
  match ((members.find? fun m => m.user_id = me.myUserId).bind
      SectorMember.encrypted_group_key).filter (· ≠ "") with
  | none => .error .missingSectorKey
  | some wrapped =>
    match resolveSectorOwnerEcdhJwk members with
    | .error e => .error e
    | .ok ownerEcdhJwk =>
      match unwrapGroupKeyFromStoredPayload rt sealings me.privateKey wrapped
          (some ownerEcdhJwk) (some me.bind) with
      | .error e => .error (.unwrap e)
      | .ok currentKey => .ok (wrapped, currentKey)

/-- The keys of the retained wraps, but for the served one: one that does not open is
    skipped. -/
def retainedKeys (wrapped : String) (entries : List (RingEntry N)) : List Bytes :=
  entries.filterMap fun entry =>
    if entry.wrapped = wrapped then none else (unwrapRetained rt sealings me entry.wrapped).toOption

/-- The frame, and the ring that is stored after it. -/
def buildSectorFrame (ring : List (RingEntry N)) (members : List SectorMember) :
    Except FrameError (SectorFrame × List (RingEntry N)) :=
  match currentSectorKey rt sealings me members with
  | .error e => .error e
  | .ok (wrapped, currentKey) =>
    let ring := addRingEntry ring (epochOf rt wrapped) wrapped
    .ok (⟨me.chatId, currentKey,
      currentKey :: retainedKeys rt sealings me wrapped (getRingEntries ring)⟩, ring)

/-! ## The frames in turn -/

/-- A frame, the wrap that it was built from, and the ring before and after it. -/
structure Built (N : Type) where
  wrapped : String
  frame : SectorFrame
  before : List (RingEntry N)
  after : List (RingEntry N)

structure Frames (N : Type) where
  ring : List (RingEntry N)
  history : List (Built N)

/-- The frames that are built of the rosters served; a call that throws leaves the ring. -/
def frames : Machine (Frames N) (List SectorMember) where
  init s := s = ⟨[], []⟩
  step s members :=
    match currentSectorKey rt sealings me members, buildSectorFrame rt sealings me s.ring members with
    | .ok (wrapped, _), .ok (frame, ring) =>
      some ⟨ring, s.history ++ [⟨wrapped, frame, s.ring, ring⟩]⟩
    | _, _ => some s

/-- The frame that is built of a wrap, on a ring. -/
def builtOf (ring : List (RingEntry N)) (wrapped : String) (key : Bytes) : Built N :=
  let after := addRingEntry ring (epochOf rt wrapped) wrapped
  { wrapped
    frame := ⟨me.chatId, key, key :: retainedKeys rt sealings me wrapped (getRingEntries after)⟩
    before := ring
    after }

section
variable {rt sealings me}

theorem frames_step_of_ok {s : Frames N} {members : List SectorMember} {wrapped : String}
    {key : Bytes} (h : currentSectorKey rt sealings me members = .ok (wrapped, key)) :
    (frames rt sealings me).step s members =
      some ⟨(builtOf rt sealings me s.ring wrapped key).after,
        s.history ++ [builtOf rt sealings me s.ring wrapped key]⟩ := by
  simp only [frames, buildSectorFrame, h]
  rfl

/-- A call throws, or it builds a frame of the wrap that is served. -/
theorem frames_step {s s' : Frames N} {members : List SectorMember}
    (h : (frames rt sealings me).step s members = some s') :
    ((∃ e, currentSectorKey rt sealings me members = .error e) ∧ s' = s) ∨
      ∃ wrapped key, currentSectorKey rt sealings me members = .ok (wrapped, key) ∧
        s' = ⟨(builtOf rt sealings me s.ring wrapped key).after,
          s.history ++ [builtOf rt sealings me s.ring wrapped key]⟩ := by
  cases hkey : currentSectorKey rt sealings me members with
  | error e =>
    simp only [frames, hkey] at h
    exact .inl ⟨⟨e, rfl⟩, (Option.some.inj h).symm⟩
  | ok served =>
    obtain ⟨wrapped, key⟩ := served
    rw [frames_step_of_ok hkey] at h
    exact .inr ⟨wrapped, key, rfl, (Option.some.inj h).symm⟩

omit [LinearOrder N] in
/-- What opens under an expected creator opens without one. -/
theorem unwrap_anyCreator [DecidableEq N] {privateKey : P} {text : String}
    {expected : Option String} {bind : Option WrapBinding} {key : Bytes}
    (h : unwrapGroupKeyFromStoredPayload rt sealings privateKey text expected bind = .ok key) :
    unwrapGroupKeyFromStoredPayload rt sealings privateKey text none bind = .ok key := by
  obtain ⟨data, hdata, h⟩ := bind_eq_ok h
  rw [unwrapGroupKeyFromStoredPayload, hdata]
  cases data with
  | null | bool _ | num _ | str _ => cases h
  | arr _ | obj _ =>
    dsimp only [Bind.bind, Except.bind] at h ⊢
    split_ifs at h ⊢
    · rw [openAuthWrap] at h ⊢
      split at h
      · exact h
      · cases h
    · rw [openSectorKeyUnit] at h ⊢
      split at h
      · cases h
      · exact h

/-- The wrap of a frame opens as a retained one, to the same key. -/
theorem unwrapRetained_of_current {members : List SectorMember} {wrapped : String} {key : Bytes}
    (h : currentSectorKey rt sealings me members = .ok (wrapped, key)) :
    unwrapRetained rt sealings me wrapped = .ok key := by
  rw [currentSectorKey] at h
  split at h
  · exact nomatch h
  · split at h
    · exact nomatch h
    · split at h
      · exact nomatch h
      next hopen =>
        obtain ⟨rfl, rfl⟩ := Prod.mk.inj (Except.ok.inj h)
        exact unwrap_anyCreator hopen

/-! ## What the ring holds -/

omit [JsNumber N] in
theorem addRingEntry_of_mem {ring : List (RingEntry N)} {epoch : N} {wrapped : String}
    (h : epoch ∈ ring.map RingEntry.epoch) : addRingEntry ring epoch wrapped = ring := by
  obtain ⟨entry, hentry, rfl⟩ := List.mem_map.1 h
  rw [addRingEntry, if_pos (List.any_eq_true.2 ⟨entry, hentry, decide_eq_true rfl⟩)]

omit [JsNumber N] in
theorem addRingEntry_of_notMem {ring : List (RingEntry N)} {epoch : N} {wrapped : String}
    (h : epoch ∉ ring.map RingEntry.epoch) :
    addRingEntry ring epoch wrapped = Newest.keep RingEntry.epoch RING_CAP ring ⟨epoch, wrapped⟩ := by
  rw [addRingEntry, if_neg]
  intro hany
  obtain ⟨entry, hentry, heq⟩ := List.any_eq_true.1 hany
  exact h (List.mem_map.2 ⟨entry, hentry, of_decide_eq_true heq⟩)

omit [JsNumber N] in
/-- The entries of a ring are those before, and the one that is added. -/
theorem mem_addRingEntry {ring : List (RingEntry N)} {epoch : N} {wrapped : String}
    {entry : RingEntry N} (h : entry ∈ addRingEntry ring epoch wrapped) :
    entry ∈ ring ∨ entry = ⟨epoch, wrapped⟩ := by
  by_cases hmem : epoch ∈ ring.map RingEntry.epoch
  · rw [addRingEntry_of_mem hmem] at h
    exact .inl h
  · rw [addRingEntry_of_notMem hmem] at h
    exact Newest.mem_of_mem_keep h

end

/-- The epochs that were served. -/
def seen (history : List (Built N)) : Finset N := (history.map fun b => epochOf rt b.wrapped).toFinset

/-- The ring holds the newest of the epochs that were served, each with a wrap that was
    served for it; and each frame's wrap opens to its key. -/
structure Sound (s : Frames N) : Prop where
  holds : Newest.Holds RingEntry.epoch RING_CAP (seen rt s.history) s.ring
  entries : ∀ entry ∈ s.ring, entry.epoch = epochOf rt entry.wrapped ∧
    ∃ built ∈ s.history, built.wrapped = entry.wrapped
  opens : ∀ built ∈ s.history,
    unwrapRetained rt sealings me built.wrapped = .ok built.frame.groupKey
  last : ∀ built ∈ s.history.getLast?,
    builtOf rt sealings me built.before built.wrapped built.frame.groupKey = built ∧
      built.after = s.ring

section
variable {rt sealings me}

omit [DecidableEq P] in
theorem seen_concat {history : List (Built N)} {built : Built N} :
    seen rt (history ++ [built]) = insert (epochOf rt built.wrapped) (seen rt history) := by
  rw [seen, seen, List.map_append, List.map_singleton, List.toFinset_append, Finset.union_comm]
  rfl

omit [DecidableEq P] in
theorem mem_seen {history : List (Built N)} {built : Built N} (h : built ∈ history) :
    epochOf rt built.wrapped ∈ seen rt history :=
  List.mem_toFinset.2 (List.mem_map_of_mem h)

/-- Adding the wrap that is served. -/
theorem Sound.addRingEntry {s : Frames N} (h : Sound rt sealings me s) (wrapped : String) :
    Newest.Holds RingEntry.epoch RING_CAP
      (insert (epochOf rt wrapped) (seen rt s.history))
      (addRingEntry s.ring (epochOf rt wrapped) wrapped) := by
  by_cases hmem : epochOf rt wrapped ∈ s.ring.map RingEntry.epoch
  · rw [addRingEntry_of_mem hmem]
    exact h.holds.again hmem
  · rw [addRingEntry_of_notMem hmem]
    exact h.holds.keep (a := ⟨epochOf rt wrapped, wrapped⟩) hmem

theorem Sound.step {s s' : Frames N} {members : List SectorMember} (h : Sound rt sealings me s)
    (hstep : (frames rt sealings me).step s members = some s') : Sound rt sealings me s' := by
  rcases frames_step hstep with ⟨-, rfl⟩ | ⟨wrapped, key, hkey, rfl⟩
  · exact h
  · refine ⟨?_, fun entry hentry => ?_, fun built hbuilt => ?_, fun built hbuilt => ?_⟩
    · rw [seen_concat]
      exact h.addRingEntry wrapped
    · rcases mem_addRingEntry hentry with hentry | rfl
      · obtain ⟨hepoch, built, hbuilt, heq⟩ := h.entries entry hentry
        exact ⟨hepoch, built, List.mem_append_left _ hbuilt, heq⟩
      · exact ⟨rfl, _, List.mem_append_right _ (List.mem_singleton_self _), rfl⟩
    · rcases List.mem_append.1 hbuilt with hbuilt | hbuilt
      · exact h.opens built hbuilt
      · rw [List.mem_singleton.1 hbuilt]
        exact unwrapRetained_of_current hkey
    · rw [List.getLast?_concat] at hbuilt
      obtain rfl := Option.some.inj hbuilt
      exact ⟨rfl, rfl⟩

theorem sound_of_reachable {s : Frames N} (hs : (frames rt sealings me).Reachable s) :
    Sound rt sealings me s := by
  refine Machine.Invariant.reachable (I := Sound rt sealings me) ⟨?_, ?_⟩ hs
  · rintro s rfl
    exact ⟨Newest.Holds.empty, fun entry h => absurd h List.not_mem_nil,
      fun built h => absurd h List.not_mem_nil, fun built h => nomatch h⟩
  · exact fun s members s' h hstep => h.step hstep

/-- Each frame was built on what the frames before it had left. -/
theorem built_of_reachable {s : Frames N} (hs : (frames rt sealings me).Reachable s)
    {past future : List (Built N)} {b : Built N} (h : s.history = past ++ b :: future) :
    ∃ wrapped key, Sound rt sealings me ⟨b.before, past⟩ ∧
      b = builtOf rt sealings me b.before wrapped key := by
  induction hs generalizing future with
  | init hinit =>
    rw [hinit] at h
    exact absurd h.symm (List.append_ne_nil_of_right_ne_nil _ (List.cons_ne_nil _ _))
  | step hs hstep ih =>
    rename_i s s' members
    rcases frames_step hstep with ⟨-, rfl⟩ | ⟨wrapped, key, -, rfl⟩
    · exact ih h
    · rcases List.eq_nil_or_concat future with rfl | ⟨future, last, rfl⟩
      · obtain ⟨rfl, hb⟩ := List.append_inj' h rfl
        obtain rfl := List.singleton_inj.1 hb
        exact ⟨wrapped, key, sound_of_reachable hs, rfl⟩
      · rw [List.concat_eq_append, ← List.cons_append, ← List.append_assoc] at h
        exact ih (List.append_inj' h rfl).1

end

end OneToThree.SectorWrap
